import MailSieve.Json.Skip
import MailSieve.Text.Sorted

/-!
The text of a ledger: a JSON object whose field `seen` lists the identifiers in ascending order. What
is read may list them in any order and more than once, may have other fields, or may be a list whose
only element is the list of identifiers.
-/

namespace MailSieve.Ledger

open Json

def field : String := "seen"

def joined (sep : Char) : List (List Char) → List Char
  | [] => []
  | [t] => t
  | t :: ts => t ++ sep :: joined sep ts

def encode (ids : TextSet) : List Char :=
  '\x7b' :: (quoted field ++ ':' :: '[' :: (joined ',' (ids.items.map quoted) ++ [']', '\x7d']))

/-- The fault of a number without its sign where another type is wanted. -/
def wrongNumber (w : Wanted) (negative : Bool) (s : List Char) : Stop :=
  match skipNumber .endOfValue s with
  | .error e => e
  | .ok t =>
    match Number.read negative (s.take (s.length - t.length)) with
    | .ok n => .here (.wrongType (.number n) w) t
    | .error unread => .here .numberTooLarge (unread ++ t)

/-- The fault of a value, given without leading blanks, where another type is wanted. -/
def wrongType (w : Wanted) (s : List Char) : Stop :=
  match s with
  | [] => .here .endOfValue []
  | c :: r =>
    match restOfWord? c with
    | some word =>
      match skipWord word r with
      | .ok t => .here (.wrongType (if c = 'n' then .null else .truth (c = 't')) w) t.rest
      | .error e => e
    | none =>
      if c = '"' then
        match readString r with
        | .ok t => .here (.wrongType (.text (.ofList t.value)) w) t.rest
        | .error e => e
      else if c = '[' then .here (.wrongType .list w) s
      else if c = '\x7b' then .here (.wrongType .object w) s
      else if c = '-' then wrongNumber w true r
      else if c.isDigit then wrongNumber w false s
      else .next .expectedValue s

/-- Reads an identifier, given without leading blanks. -/
def readIdentifier (s : List Char) : Except Stop (Taken String s) :=
  match s with
  | '"' :: r => do
    let t ← readString r
    pure ⟨.ofList t.value, t.rest, t.lt_cons '"'⟩
  | s => .error (wrongType .identifier s)

/-- The rest of a list after the separator of its next element, or nothing if the list ends. -/
def nextElement (first : Bool) (s : List Char) : Except Stop (Left Bool s) :=
  match h : blanks s with
  | [] => .error (.here .endOfList [])
  | c :: r =>
    if c = ']' then .ok ⟨false, r, length_le_of_blanks h⟩
    else if first then .ok ⟨true, c :: r, length_lt_of_blanks h⟩
    else if c = ',' then
      match h' : blanks r with
      | [] => .error (.here .endOfValue [])
      | d :: t =>
        if d = ']' then .error (.next .trailingComma (d :: t))
        else .ok ⟨true, d :: t, Nat.le_trans (length_lt_of_blanks h') (length_le_of_blanks h)⟩
    else .error (.next .expectedListCommaOrEnd (c :: r))

/-- Reads the identifiers of a list after its opening bracket, or after some of its elements. -/
def readElements (first : Bool) (s : List Char) : Except Stop (Left (List String) s) := do
  let e ← nextElement first s
  if e.value then
    let t ← readIdentifier e.rest
    have lt : t.rest.length < s.length := Nat.lt_of_lt_of_le t.shorter e.le
    let u ← readElements false t.rest
    pure ⟨t.value :: u.value, u.rest, Nat.le_trans u.le (Nat.le_of_lt lt)⟩
  else pure ⟨[], e.rest, e.le⟩
termination_by s.length

/-- Reads a list of identifiers. -/
def readIdentifiers (s : List Char) : Except Stop (Left (List String) s) :=
  match h : blanks s with
  | [] => .error (.here .endOfValue [])
  | c :: r =>
    if c = '[' then do
      let t ← readElements true r
      pure ⟨t.value, t.rest, Nat.le_trans t.le (length_le_of_blanks h)⟩
    else .error (wrongType .identifiers (c :: r))

/-- The rest of an object after the quotation mark that opens its next key, if there is one. -/
def nextKey (first : Bool) (s : List Char) : Except Stop (Left Bool s) :=
  match h : blanks s with
  | [] => .error (.here .endOfObject [])
  | c :: r =>
    if c = '\x7d' then .ok ⟨false, r, length_le_of_blanks h⟩
    else if first then
      if c = '"' then .ok ⟨true, r, length_le_of_blanks h⟩
      else .error (.next .keyNotString (c :: r))
    else if c = ',' then
      match h' : blanks r with
      | [] => .error (.here .endOfValue [])
      | d :: t =>
        if d = '"' then
          .ok ⟨true, t, Nat.le_trans (length_le_of_blanks h') (length_le_of_blanks h)⟩
        else if d = '\x7d' then .error (.next .trailingComma (d :: t))
        else .error (.next .keyNotString (d :: t))
    else .error (.next .expectedObjectCommaOrEnd (c :: r))

/-- The fault of a second list of identifiers shows after its key. -/
def duplicateField (rest : List Char) : Stop :=
  match blanks rest with
  | '\x7d' :: r => .here (.duplicate field) r
  | r => .here (.duplicate field) r

/-- Reads the fields of an object after its opening brace, or after some fields that may have held
the identifiers. -/
def readFields (first : Bool) (seen : Option (List String)) (s : List Char) :
    Except Stop (Left (List String) s) := do
  let k ← nextKey first s
  if k.value then
    let key ← readString k.rest
    if String.ofList key.value = field then
      if seen.isSome then throw (duplicateField key.rest)
      let colon ← skipColon key.rest
      let ids ← readIdentifiers colon.rest
      have lt : ids.rest.length < s.length :=
        Nat.lt_of_le_of_lt (Nat.le_trans ids.le colon.le) (Nat.lt_of_lt_of_le key.shorter k.le)
      let t ← readFields false (some ids.value) ids.rest
      pure ⟨t.value, t.rest, Nat.le_trans t.le (Nat.le_of_lt lt)⟩
    else
      let colon ← skipColon key.rest
      let v ← skipValue colon.rest
      have lt : v.rest.length < s.length :=
        Nat.lt_of_lt_of_le v.shorter (Nat.le_trans colon.le (Nat.le_trans (Nat.le_of_lt key.shorter) k.le))
      let t ← readFields false seen v.rest
      pure ⟨t.value, t.rest, Nat.le_trans t.le (Nat.le_of_lt lt)⟩
  else pure ⟨seen.getD [], k.rest, k.le⟩
termination_by s.length

/-- Reads a ledger in the form of a list after its opening bracket. -/
def readSingleton (s : List Char) : Except Stop (List String × List Char) :=
  match blanks s with
  | ']' :: r => .ok ([], r)
  | [] => .error (.here .endOfList [])
  | r => do
    let t ← readIdentifiers r
    match blanks t.rest with
    | ']' :: r => pure (t.value, r)
    | ',' :: r =>
      match blanks r with
      | ']' :: r => throw (.next .trailingComma (']' :: r))
      | r => throw (.next .trailingText r)
    | [] => throw (.here .endOfList [])
    | r => throw (.next .trailingText r)

def readLedger (s : List Char) : Except Stop (List String × List Char) :=
  match blanks s with
  | '\x7b' :: r => do
    let t ← readFields true none r
    pure (t.value, t.rest)
  | '[' :: r => readSingleton r
  | [] => .error (.here .endOfValue [])
  | r => .error (wrongType .ledger r)

/-- Reads a whole text as a ledger; only blanks may follow. -/
def readWhole (s : List Char) : Except Stop (List String) := do
  let (ids, rest) ← readLedger s
  match blanks rest with
  | [] => pure ids
  | r => throw (.next .trailingText r)

def decode (s : List Char) : Except Malformed TextSet :=
  match readWhole s with
  | .ok ids => .ok (.ofList ids)
  | .error e => .error (e.locate s)

end MailSieve.Ledger
