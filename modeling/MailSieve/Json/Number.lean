import MailSieve.Decimal.Shortest

/-!
Numbers in JSON texts: what the digits of a number stand for. Whole numbers that fit in 64 bits are
kept as they are; all others are floating-point numbers.
-/

namespace MailSieve.Json

inductive Number where
  | whole (n : Int)
  | real (negative : Bool) (magnitude : Float)

/-- The parts of a number without its sign. -/
structure Numeral where
  whole : List Char
  fraction : List Char
  /-- The digits of the exponent, and whether it is below zero. -/
  exponent : Option (Bool × List Char)
  /-- There is a fraction or an exponent. -/
  isReal : Bool

def Numeral.ofExponent (whole fraction : List Char) (isReal : Bool) : List Char → Numeral
  | [] => ⟨whole, fraction, none, isReal⟩
  | _ :: '-' :: r => ⟨whole, fraction, some (true, r), true⟩
  | _ :: '+' :: r => ⟨whole, fraction, some (false, r), true⟩
  | _ :: r => ⟨whole, fraction, some (false, r), true⟩

/-- Takes a well-formed number apart. -/
def Numeral.ofChars (cs : List Char) : Numeral :=
  let whole := cs.takeWhile Char.isDigit
  match cs.dropWhile Char.isDigit with
  | '.' :: r => .ofExponent whole (r.takeWhile Char.isDigit) true (r.dropWhile Char.isDigit)
  | r => .ofExponent whole [] false r

/-- The leading digits of a number, as many as fit in 64 bits, and the power of ten they are times. -/
structure Leading where
  digits : Nat
  power : Int

namespace Leading

def digit (c : Char) : Nat := c.toNat - '0'.toNat

def fits (l : Leading) (c : Char) : Bool := l.digits * 10 + digit c < UInt64.size

/-- Adds a digit before the point; once one does not fit, those after it only count. -/
def addWhole (l : Leading) (c : Char) : Leading :=
  if l.power = 0 && l.fits c then ⟨l.digits * 10 + digit c, 0⟩ else ⟨l.digits, l.power + 1⟩

/-- Adds the digits after the point up to one that does not fit. -/
def addFraction (l : Leading) : List Char → Leading
  | [] => l
  | c :: cs =>
    if l.fits c then addFraction ⟨l.digits * 10 + digit c, l.power - 1⟩ cs else l

def ofNumeral (n : Numeral) : Leading :=
  (n.whole.foldl addWhole ⟨0, 0⟩).addFraction n.fraction

end Leading

/-- Reads an exponent below 2^31, or gives the digits that follow when it is larger. -/
def readExponent (n : Nat) : List Char → Except (List Char) Nat
  | [] => .ok n
  | c :: cs =>
    let n := n * 10 + Leading.digit c
    if n < Nat.pow 2 31 then readExponent n cs else .error cs

/-- The largest power of ten that is a floating-point number. -/
def largestPower : Nat := 308

def tenTo (n : Nat) : Float := .ofScientific 1 false n

/-- Divides by a power of ten, a step at a time if the power is too large. -/
def shrink (x : Float) (n : Nat) : Float :=
  if n ≤ largestPower then x / tenTo n
  else if x == 0 then x
  else shrink (x / tenTo largestPower) (n - largestPower)
termination_by n
decreasing_by
  unfold largestPower at *
  omega

/-- Multiplies by a power of ten, unless the result is too large. -/
def scale? (x : Float) (power : Int) : Option Float :=
  match power with
  | .negSucc n => some (shrink x (n + 1))
  | .ofNat n =>
    if n ≤ largestPower then
      let y := x * tenTo n
      if y.isInf then none else some y
    else if x == 0 then some x
    else none

/-- The number of a sign and a well-formed numeral. One that is too large gives the digits that are
still unread when this shows. -/
def Number.read (negative : Bool) (cs : List Char) : Except (List Char) Number :=
  let n := Numeral.ofChars cs
  let l := Leading.ofNumeral n
  let scaled (power : Int) : Except (List Char) Number :=
    match scale? (.ofScientific l.digits false 0) power with
    | some x => .ok (.real negative x)
    | none => .error []
  match n.exponent with
  | some (down, ds) =>
    match readExponent 0 ds with
    | .ok e => scaled (if down then l.power - e else l.power + e)
    | .error rest =>
      if l.digits = 0 || down then .ok (.real negative 0) else .error rest
  | none =>
    if n.isReal || l.power ≠ 0 then scaled l.power
    else if !negative then .ok (.whole l.digits)
    else if l.digits = 0 || Nat.pow 2 63 < l.digits then scaled 0
    else .ok (.whole (-l.digits))

/-- The exponents, counted from the first digit, at which a number is written without one. -/
def plainExponents (e : Int) : Bool := -5 ≤ e && e ≤ 15

def zeros (n : Nat) : List Char := List.replicate n '0'

/-- A number written out, with at least one digit on both sides of the point. -/
def writePlain (ds : List Char) (first : Int) : List Char :=
  match first with
  | .negSucc k => '0' :: '.' :: (zeros k ++ ds)
  | .ofNat k =>
    if ds.length ≤ k + 1 then ds ++ zeros (k + 1 - ds.length) ++ ['.', '0']
    else ds.take (k + 1) ++ '.' :: ds.drop (k + 1)

/-- A number with its point after the first digit, and an exponent with its sign. -/
def writeScientific (ds : List Char) (first : Int) : List Char :=
  let mantissa := if ds.length ≤ 1 then ds else ds.take 1 ++ '.' :: ds.drop 1
  let sign := if first < 0 then '-' else '+'
  mantissa ++ 'e' :: sign :: (toString first.natAbs).toList

def writeReal (negative : Bool) (x : Float) : String :=
  let d := Decimal.shortest (.ofBits x.toBits)
  let ds := Nat.toDigits 10 d.digits
  let first := d.power + ds.length - 1
  let written := if plainExponents first then writePlain ds first else writeScientific ds first
  String.ofList (if negative then '-' :: written else written)

end MailSieve.Json
