/-!
The shortest decimal that a binary floating-point number is the nearest one to. Of the shortest ones
the nearest is taken, and of two equally near ones the even one.
-/

namespace MailSieve.Decimal

/-- The positive number `mantissa * 2 ^ exponent`, of 53 bits or with the least exponent. -/
structure Binary where
  mantissa : Nat
  exponent : Int
  deriving DecidableEq

/-- The exponent below which there are no bits. -/
def Binary.leastExponent : Int := -1074

/-- The magnitude that the bits of a finite number of 64 bits stand for. -/
def Binary.ofBits (bits : UInt64) : Binary :=
  let fraction : Nat := bits.toNat % Nat.pow 2 52
  let biased : Nat := bits.toNat / Nat.pow 2 52 % Nat.pow 2 11
  if biased = 0 then ⟨fraction, leastExponent⟩ else ⟨Nat.pow 2 52 + fraction, biased - 1075⟩

/-- The number `digits * 10 ^ power`. -/
structure Decimal where
  digits : Nat
  power : Int
  deriving DecidableEq

/-- A binary number seen in quarters of its last place, against multiples of a power of ten: `x`
quarters are `x * scale / unit` times the power. -/
structure Grid where
  scale : Nat
  unit : Nat

def Grid.of (b : Binary) (power : Int) : Grid :=
  let quarter := b.exponent - 2
  ⟨Nat.pow 2 quarter.toNat * Nat.pow 10 (-power).toNat,
    Nat.pow 10 power.toNat * Nat.pow 2 (-quarter).toNat⟩

/-- The quarters down to the middle of the gap below; it is half as wide below a power of two. -/
def Binary.quartersBelow (b : Binary) : Nat :=
  if b.mantissa = Nat.pow 2 52 ∧ b.exponent ≠ leastExponent then 1 else 2

/-- The multiple lies where `b` is the nearest binary number; an even mantissa has the middles too. -/
def Grid.holds (g : Grid) (b : Binary) (multiple : Nat) : Bool :=
  let low := (4 * b.mantissa - b.quartersBelow) * g.scale
  let high := (4 * b.mantissa + 2) * g.scale
  let place := multiple * g.unit
  if b.mantissa % 2 = 0 then low ≤ place && place ≤ high else low < place && place < high

/-- The multiples on both sides of the number, those that read as it, nearest first. -/
def Grid.nearest? (g : Grid) (b : Binary) : Option Nat :=
  let value := 4 * b.mantissa * g.scale
  let below := value / g.unit
  let above := below + 1
  let toBelow := value - below * g.unit
  let toAbove := above * g.unit - value
  match g.holds b below, g.holds b above with
  | true, true =>
    if toBelow < toAbove || toBelow = toAbove && below % 2 = 0 then some below else some above
  | true, false => some below
  | false, true => some above
  | false, false => none

/-- Tries ever smaller powers of ten; a number needs no more than seventeen digits. -/
def search (b : Binary) : (tries : Nat) → (power : Int) → Decimal
  | 0, power => ⟨0, power⟩
  | n + 1, power =>
    match (Grid.of b power).nearest? b with
    | some k => if k = 0 then search b n (power - 1) else ⟨k, power⟩
    | none => search b n (power - 1)

/-- A power of ten above the number. -/
def startingPower (b : Binary) : Int :=
  (b.mantissa.log2 + b.exponent + 1) * 30103 / 100000 + 1

def shortest (b : Binary) : Decimal :=
  if b.mantissa = 0 then ⟨0, 0⟩ else search b 20 (startingPower b)

end MailSieve.Decimal
