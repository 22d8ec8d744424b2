import MailSieve.Json.Text
import MailSieve.Text.Split

/-!
Passing over a JSON value of any kind, however deep: brackets that are open are kept on a stack, so
nesting has no limit.
-/

namespace MailSieve.Json

def isBlank (c : Char) : Bool := c = ' ' || c = '\n' || c = '\t' || c = '\r'

def blanks (s : List Char) : List Char := s.dropWhile isBlank

theorem length_blanks_le (s : List Char) : (blanks s).length ≤ s.length :=
  Text.length_dropWhile_le ..

theorem length_lt_of_blanks {s r : List Char} {c : Char} (h : blanks s = c :: r) :
    r.length < s.length := by
  have hle := length_blanks_le s
  rw [h] at hle
  exact hle

theorem length_le_of_blanks {s r : List Char} {c : Char} (h : blanks s = c :: r) :
    r.length ≤ s.length :=
  Nat.le_of_lt (length_lt_of_blanks h)

/-- What may be left of `s`. -/
structure Left (α : Type) (s : List Char) where
  value : α
  rest : List Char
  le : rest.length ≤ s.length

theorem Left.lt_cons {s : List Char} (c : Char) (t : Left α s) : t.rest.length < (c :: s).length :=
  Nat.lt_succ_of_le t.le

/-- Passes over the rest of a word, whose first letter has been read. -/
def skipWord : List Char → (s : List Char) → Except Stop (Left Unit s)
  | [], s => .ok ⟨(), s, Nat.le_refl _⟩
  | _ :: _, [] => .error (.here .endOfValue [])
  | w :: ws, c :: r =>
    if c = w then do
      let t ← skipWord ws r
      pure ⟨(), t.rest, Nat.le_succ_of_le t.le⟩
    else .error (.next .expectedWord (c :: r))

def digits (s : List Char) : List Char := s.dropWhile Char.isDigit

theorem length_digits_le (s : List Char) : (digits s).length ≤ s.length :=
  Text.length_dropWhile_le ..

def dropSign : List Char → List Char
  | '+' :: r => r
  | '-' :: r => r
  | r => r

/-- Passes over the digits of an exponent, of which there is at least one. The fault `atEnd` is that
of a text which ends within the number. -/
def skipExponent (atEnd : Fault) : List Char → Except Stop (List Char)
  | c :: r => if c.isDigit then .ok (digits r) else .error (.next .invalidNumber (c :: r))
  | [] => .error (.here atEnd [])

def skipExponentMark (atEnd : Fault) : List Char → Except Stop (List Char)
  | 'e' :: r => skipExponent atEnd (dropSign r)
  | 'E' :: r => skipExponent atEnd (dropSign r)
  | r => .ok r

/-- Passes over what may follow the whole part of a number. -/
def skipFraction (atEnd : Fault) : List Char → Except Stop (List Char)
  | '.' :: c :: r =>
    if c.isDigit then skipExponentMark atEnd (digits r) else .error (.next .invalidNumber (c :: r))
  | ['.'] => .error (.here atEnd [])
  | r => skipExponentMark atEnd r

/-- Passes over a number without its sign; a zero that starts it is its whole part. -/
def skipNumber (atEnd : Fault) : List Char → Except Stop (List Char)
  | '0' :: c :: r =>
    if c.isDigit then .error (.next .invalidNumber (c :: r)) else skipFraction atEnd (c :: r)
  | c :: r =>
    if c.isDigit then skipFraction atEnd (digits r) else .error (.next .invalidNumber (c :: r))
  | [] => .error (.here atEnd [])

theorem length_dropSign_le (s : List Char) : (dropSign s).length ≤ s.length := by
  unfold dropSign
  split <;> simp

theorem length_skipExponent_lt {atEnd : Fault} {s r : List Char}
    (h : skipExponent atEnd s = .ok r) : r.length < s.length := by
  unfold skipExponent at h
  split at h
  · split at h
    · cases h
      exact Nat.lt_succ_of_le (length_digits_le _)
    · cases h
  · cases h

theorem length_skipExponentMark_le {atEnd : Fault} {s r : List Char}
    (h : skipExponentMark atEnd s = .ok r) : r.length ≤ s.length := by
  unfold skipExponentMark at h
  split at h
  · next t =>
    have := length_dropSign_le t
    have := length_skipExponent_lt h
    simp only [List.length_cons]
    omega
  · next t =>
    have := length_dropSign_le t
    have := length_skipExponent_lt h
    simp only [List.length_cons]
    omega
  · cases h
    exact Nat.le_refl _

theorem length_skipFraction_le {atEnd : Fault} {s r : List Char}
    (h : skipFraction atEnd s = .ok r) : r.length ≤ s.length := by
  unfold skipFraction at h
  split at h
  · split at h
    · have := length_skipExponentMark_le h
      have := length_digits_le
      grind
    · cases h
  · cases h
  · exact length_skipExponentMark_le h

theorem length_skipNumber_lt {atEnd : Fault} {s r : List Char}
    (h : skipNumber atEnd s = .ok r) : r.length < s.length := by
  unfold skipNumber at h
  split at h
  · split at h
    · cases h
    · have := length_skipFraction_le h
      simp only [List.length_cons] at *
      omega
  · split at h
    · have := length_skipFraction_le h
      have := length_digits_le
      grind
    · cases h
  · cases h

inductive Bracket where | list | object
  deriving DecidableEq

def Bracket.close : Bracket → Char
  | .list => ']'
  | .object => '\x7d'

/-- The fault of a text that ends within such brackets. -/
def Bracket.unclosed : Bracket → Fault
  | .list => .endOfList
  | .object => .endOfObject

/-- The fault of two values within such brackets without a comma between them. -/
def Bracket.unseparated : Bracket → Fault
  | .list => .expectedListCommaOrEnd
  | .object => .expectedObjectCommaOrEnd

/-- The rest of the word that a letter starts. -/
def restOfWord? (c : Char) : Option (List Char) :=
  if c = 'n' then some ['u', 'l', 'l']
  else if c = 't' then some ['r', 'u', 'e']
  else if c = 'f' then some ['a', 'l', 's', 'e']
  else none

/-- Passes over the bracket that opens a value, or over all of a value that has none. -/
def skipOpening : (s : List Char) → Except Stop (Taken (Option Bracket) s)
  | [] => .error (.here .endOfValue [])
  | c :: r =>
    match restOfWord? c with
    | some w => do
      let t ← skipWord w r
      pure ⟨none, t.rest, t.lt_cons c⟩
    | none =>
      if c = '"' then do
        let t ← skipString r
        pure ⟨none, t.rest, t.lt_cons c⟩
      else if c = '[' then .ok ⟨some .list, r, length_lt_cons c r⟩
      else if c = '\x7b' then .ok ⟨some .object, r, length_lt_cons c r⟩
      else if c = '-' then
        match h : skipNumber .invalidNumber r with
        | .ok t => .ok ⟨none, t, Nat.lt_succ_of_lt (length_skipNumber_lt h)⟩
        | .error e => .error e
      else if c.isDigit then
        match h : skipNumber .invalidNumber (c :: r) with
        | .ok t => .ok ⟨none, t, length_skipNumber_lt h⟩
        | .error e => .error e
      else .error (.next .expectedValue (c :: r))

/-- Passes over the brackets that close after a value and the comma that follows them. The brackets
that are still open are left, innermost first; right after an opening bracket there is no comma. -/
def skipClosing (afterValue : Bool) (b : Bracket) (outer : List Bracket) (s : List Char) :
    Except Stop (Left (List Bracket) s) :=
  match h : blanks s with
  | [] => .error (.here b.unclosed [])
  | c :: r =>
    if afterValue ∧ c = ',' then .ok ⟨b :: outer, r, length_le_of_blanks h⟩
    else if c = b.close then
      match outer with
      | [] => .ok ⟨[], r, length_le_of_blanks h⟩
      | o :: os => do
        let t ← skipClosing true o os r
        pure ⟨t.value, t.rest, Nat.le_trans t.le (length_le_of_blanks h)⟩
    else if afterValue then .error (.next b.unseparated (c :: r))
    else .ok ⟨b :: outer, c :: r, length_lt_of_blanks h⟩

/-- Passes over the colon after a key. -/
def skipColon (s : List Char) : Except Stop (Left Unit s) :=
  match h : blanks s with
  | [] => .error (.here .endOfObject [])
  | c :: r =>
    if c = ':' then .ok ⟨(), r, length_le_of_blanks h⟩
    else .error (.next .expectedColon (c :: r))

/-- Passes over a key and its colon. -/
def skipKey (s : List Char) : Except Stop (Left Unit s) :=
  match h : blanks s with
  | [] => .error (.here .endOfObject [])
  | c :: r =>
    if c = '"' then do
      let t ← skipString r
      let u ← skipColon t.rest
      pure ⟨(), u.rest, by
        have := length_blanks_le s
        have := t.shorter
        have := u.le
        simp [h] at *
        omega⟩
    else .error (.next .keyNotString (c :: r))

/-- Passes over a value that stands within the open brackets, and over all that follows it up to the
closing of the outermost. -/
def skipWithin (stack : List Bracket) (s : List Char) : Except Stop (Taken Unit s) := do
  let t ← skipOpening (blanks s)
  have lt : t.rest.length < s.length := Nat.lt_of_lt_of_le t.shorter (length_blanks_le s)
  let u ←
    match t.value, stack with
    | some b, outer => skipClosing false b outer t.rest
    | none, b :: outer => skipClosing true b outer t.rest
    | none, [] => pure ⟨[], t.rest, Nat.le_refl _⟩
  have ult : u.rest.length < s.length := Nat.lt_of_le_of_lt u.le lt
  match u.value with
  | [] => pure ⟨(), u.rest, ult⟩
  | .list :: _ =>
    let v ← skipWithin u.value u.rest
    pure ⟨(), v.rest, Nat.lt_trans v.shorter ult⟩
  | .object :: _ =>
    let k ← skipKey u.rest
    let v ← skipWithin u.value k.rest
    pure ⟨(), v.rest, Nat.lt_trans v.shorter (Nat.lt_of_le_of_lt k.le ult)⟩
termination_by s.length
decreasing_by
  · exact ult
  · exact Nat.lt_of_le_of_lt k.le ult

def skipValue (s : List Char) : Except Stop (Taken Unit s) := skipWithin [] s

end MailSieve.Json
