import MailSieve.Json.Malformed

/-!
Strings in JSON texts, written with as few escapes as possible and read with any. A reader says what
it leaves unread, which is less than it was given, so readers that call each other come to an end.
-/

namespace MailSieve.Json

/-- What a reader took from the front of `s`, and the shorter rest. -/
structure Taken (α : Type) (s : List Char) where
  value : α
  rest : List Char
  shorter : rest.length < s.length

theorem Taken.lt_cons {s : List Char} (c : Char) (t : Taken α s) :
    t.rest.length < (c :: s).length :=
  Nat.lt_succ_of_lt t.shorter

theorem length_lt_cons (c : Char) (r : List Char) : r.length < (c :: r).length :=
  Nat.lt_succ_self _

def hexDigit (n : Nat) : Char := Nat.digitChar n

/-- The characters that have an escape of one letter, with that letter. -/
def letterEscapes : List (Char × Char) :=
  [('"', '"'), ('\\', '\\'), ('\x08', 'b'), ('\x0c', 'f'), ('\n', 'n'), ('\r', 'r'), ('\t', 't')]

/-- The form of a character within a string. -/
def escape (c : Char) : List Char :=
  match letterEscapes.lookup c with
  | some e => ['\\', e]
  | none =>
    if c.toNat < 0x20 then ['\\', 'u', '0', '0', hexDigit (c.toNat / 16), hexDigit (c.toNat % 16)]
    else [c]

def quoted (s : String) : List Char := '"' :: (s.toList.flatMap escape ++ ['"'])

/-- The character that a letter after a backslash stands for. -/
def letterMeaning? (c : Char) : Option Char :=
  if c = '/' then some '/'
  else (letterEscapes.find? fun e => e.2 = c).map Prod.fst

def hexValue? (c : Char) : Option Nat :=
  if c.isDigit then some (c.toNat - '0'.toNat)
  else if 'a' ≤ c ∧ c ≤ 'f' then some (c.toNat - 'a'.toNat + 10)
  else if 'A' ≤ c ∧ c ≤ 'F' then some (c.toNat - 'A'.toNat + 10)
  else none

/-- The number that four hexadecimal digits write. -/
def hexNumber? (a b c d : Char) : Option Nat :=
  match hexValue? a, hexValue? b, hexValue? c, hexValue? d with
  | some a, some b, some c, some d => some (((a * 16 + b) * 16 + c) * 16 + d)
  | _, _, _, _ => none

/-- The fault of an escape without four hexadecimal digits: four bytes are read for them if they are
there. -/
def noHex (s : List Char) : Stop :=
  if byteCount (s.take 4) < 4 then .here .endOfString [] else ⟨.invalidEscape, s, 4⟩

/-- Reads four hexadecimal digits. -/
def readHex : (s : List Char) → Except Stop (Taken Nat s)
  | a :: b :: c :: d :: r =>
    match hexNumber? a b c d with
    | some n => .ok ⟨n, r, by simp only [List.length_cons]; omega⟩
    | none => .error (noHex (a :: b :: c :: d :: r))
  | s => .error (noHex s)

def isLeading (n : Nat) : Bool := 0xd800 ≤ n && n ≤ 0xdbff

def isTrailing (n : Nat) : Bool := 0xdc00 ≤ n && n ≤ 0xdfff

/-- The character beyond U+FFFF that two surrogates write. -/
def pairValue (leading trailing : Nat) : Char :=
  Char.ofNat (0x10000 + (leading - 0xd800) * 0x400 + (trailing - 0xdc00))

/-- Reads the second half of a surrogate pair, escape and all. -/
def readTrailing : (s : List Char) → Except Stop (Taken Nat s)
  | [] => .error (.here .endOfString [])
  | ['\\'] => .error (.here .endOfString [])
  | '\\' :: 'u' :: r => do
    let t ← readHex r
    if isTrailing t.value then
      .ok ⟨t.value, t.rest, by have := t.shorter; simp only [List.length_cons]; omega⟩
    else .error (.here .loneSurrogate t.rest)
  | '\\' :: r => .error (.next .unpairedSurrogate r)
  | r => .error (.next .unpairedSurrogate r)

/-- Reads the hexadecimal digits of an escape, and a second escape if the first is half a pair. -/
def readCodePoint (s : List Char) : Except Stop (Taken Char s) := do
  let t ← readHex s
  if isTrailing t.value then .error (.here .loneSurrogate t.rest)
  else if isLeading t.value then
    let u ← readTrailing t.rest
    pure ⟨pairValue t.value u.value, u.rest, Nat.lt_trans u.shorter t.shorter⟩
  else pure ⟨Char.ofNat t.value, t.rest, t.shorter⟩

/-- Reads what follows a backslash. -/
def readEscape : (s : List Char) → Except Stop (Taken Char s)
  | [] => .error (.here .endOfString [])
  | c :: r =>
    if c = 'u' then do
      let t ← readCodePoint r
      pure ⟨t.value, t.rest, t.lt_cons c⟩
    else
      match letterMeaning? c with
      | some m => .ok ⟨m, r, length_lt_cons c r⟩
      | none => .error (.next .invalidEscape (c :: r))

/-- Reads a string after its opening quotation mark. -/
def readString (s : List Char) : Except Stop (Taken (List Char) s) :=
  match s with
  | [] => .error (.here .endOfString [])
  | c :: r =>
    if c = '"' then .ok ⟨[], r, length_lt_cons c r⟩
    else if c = '\\' then do
      let e ← readEscape r
      let t ← readString e.rest
      pure ⟨e.value :: t.value, t.rest, Nat.lt_succ_of_lt (Nat.lt_trans t.shorter e.shorter)⟩
    else if c.toNat < 0x20 then .error (.here .controlCharacter r)
    else do
      let t ← readString r
      pure ⟨c :: t.value, t.rest, t.lt_cons c⟩
termination_by s.length
decreasing_by
  · exact Nat.lt_succ_of_lt e.shorter
  · exact Nat.lt_succ_self _

/-- Passes over what follows a backslash; halves of surrogate pairs need not match. -/
def skipEscape : (s : List Char) → Except Stop (Taken Unit s)
  | [] => .error (.here .endOfString [])
  | c :: r =>
    if c = 'u' then do
      let t ← readHex r
      pure ⟨(), t.rest, t.lt_cons c⟩
    else if (letterMeaning? c).isSome then .ok ⟨(), r, length_lt_cons c r⟩
    else .error (.next .invalidEscape (c :: r))

/-- Passes over a string after its opening quotation mark. -/
def skipString (s : List Char) : Except Stop (Taken Unit s) :=
  match s with
  | [] => .error (.here .endOfString [])
  | c :: r =>
    if c = '"' then .ok ⟨(), r, length_lt_cons c r⟩
    else if c = '\\' then do
      let e ← skipEscape r
      let t ← skipString e.rest
      pure ⟨(), t.rest, Nat.lt_succ_of_lt (Nat.lt_trans t.shorter e.shorter)⟩
    else if c.toNat < 0x20 then .error (.here .controlCharacter (c :: r))
    else do
      let t ← skipString r
      pure ⟨(), t.rest, t.lt_cons c⟩
termination_by s.length
decreasing_by
  · exact Nat.lt_succ_of_lt e.shorter
  · exact Nat.lt_succ_self _

end MailSieve.Json
