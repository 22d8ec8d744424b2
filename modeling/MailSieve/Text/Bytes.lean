/-!
Byte strings, and a scan over one that can look at what follows and take some of it along.
-/

namespace MailSieve

abbrev Bytes := List UInt8

namespace Bytes

def ofString (s : String) : Bytes := s.toUTF8.data.toList

/-- How a scan goes on after a byte: with so many of the following bytes taken along, or not. -/
inductive Move (σ : Type) where
  | go (state : σ) (taken : Nat)
  | stop (state : σ) (taken : Nat)

/-- How a scan ended: at a byte that stopped it, leaving `rest`, or at the end of the input. -/
inductive Ending (σ : Type) where
  | stopped (state : σ) (rest : Bytes)
  | exhausted (state : σ)

def Ending.state : Ending σ → σ
  | .stopped s _ => s
  | .exhausted s => s

def Ending.rest : Ending σ → Bytes
  | .stopped _ r => r
  | .exhausted _ => []

/-- Steps through the input from `s`, passing over `skip` bytes first. -/
def scanFrom (step : σ → UInt8 → Bytes → Move σ) (s : σ) : Nat → Bytes → Ending σ
  | _, [] => .exhausted s
  | k + 1, _ :: r => scanFrom step s k r
  | 0, b :: r =>
    match step s b r with
    | .go t n => scanFrom step t n r
    | .stop t n => .stopped t (r.drop n)

def scan (step : σ → UInt8 → Bytes → Move σ) (s : σ) (input : Bytes) : Ending σ :=
  scanFrom step s 0 input

theorem scanFrom_rest_length_le (step : σ → UInt8 → Bytes → Move σ) (s : σ) (k : Nat)
    (input : Bytes) : (scanFrom step s k input).rest.length ≤ input.length := by
  fun_induction scanFrom step s k input with
  | case1 => simp [Ending.rest]
  | case2 s k b r ih => exact Nat.le_succ_of_le ih
  | case3 s b r t n h ih => exact Nat.le_succ_of_le ih
  | case4 s b r t n h =>
    simp only [Ending.rest, List.length_drop, List.length_cons]
    omega

theorem scan_rest_length_le (step : σ → UInt8 → Bytes → Move σ) (s : σ) (input : Bytes) :
    (scan step s input).rest.length ≤ input.length :=
  scanFrom_rest_length_le ..

/-- A scan that starts at a byte takes at least that byte. -/
theorem scan_cons_rest_length_le (step : σ → UInt8 → Bytes → Move σ) (s : σ) (b : UInt8)
    (r : Bytes) : (scan step s (b :: r)).rest.length ≤ r.length := by
  unfold scan scanFrom
  split
  · exact scanFrom_rest_length_le ..
  · simp only [Ending.rest, List.length_drop]
    omega

end Bytes

/-- The byte of an ASCII character. -/
def byte (c : Char) : UInt8 := c.toNat.toUInt8

/-- The byte is a space or a tab, so after a line feed it continues the line. -/
def isFold (b : UInt8) : Bool := b == byte ' ' || b == byte '\t'

/-- The next byte, if any, is a space or a tab. -/
def folds (rest : Bytes) : Bool := rest.head?.any isFold

/-- ASCII whitespace: tab, line feed, form feed, carriage return and space. -/
def isSpaceByte (b : UInt8) : Bool :=
  isFold b || b == byte '\n' || b == byte '\r' || b == 0x0c

end MailSieve
