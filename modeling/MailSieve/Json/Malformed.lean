import MailSieve.Json.Number
import MailSieve.Text.Quoted

/-!
Faults in JSON texts, each reported with the line and the column up to which the text was read.
-/

namespace MailSieve.Json

/-- A value of another type than the one that is wanted. -/
inductive Found where
  | null
  | truth (b : Bool)
  | number (n : Number)
  | text (s : String)
  | list
  | object

def Found.describe : Found → String
  | .null => "null"
  | .truth b => s!"boolean `{b}`"
  | .number (.whole n) => s!"integer `{n}`"
  | .number (.real negative x) => s!"floating point `{writeReal negative x}`"
  | .text s => s!"string {Text.quote s}"
  | .list => "sequence"
  | .object => "map"

/-- What a reader wants at a place: a ledger, its identifiers, or one of them. -/
inductive Wanted where | ledger | identifiers | identifier
  deriving DecidableEq

def Wanted.describe : Wanted → String
  | .ledger => "struct StoreFile"
  | .identifiers => "a sequence"
  | .identifier => "a string"

inductive Fault where
  | endOfList | endOfObject | endOfString | endOfValue
  | expectedColon | expectedListCommaOrEnd | expectedObjectCommaOrEnd
  | expectedWord | expectedValue
  | invalidEscape | invalidNumber | numberTooLarge | controlCharacter
  | keyNotString | loneSurrogate | unpairedSurrogate
  | trailingComma | trailingText
  | duplicate (key : String)
  | wrongType (found : Found) (wanted : Wanted)

def Fault.text : Fault → String
  | .endOfList => "EOF while parsing a list"
  | .endOfObject => "EOF while parsing an object"
  | .endOfString => "EOF while parsing a string"
  | .endOfValue => "EOF while parsing a value"
  | .expectedColon => "expected `:`"
  | .expectedListCommaOrEnd => "expected `,` or `]`"
  | .expectedObjectCommaOrEnd => "expected `,` or `\x7d`"
  | .expectedWord => "expected ident"
  | .expectedValue => "expected value"
  | .invalidEscape => "invalid escape"
  | .invalidNumber => "invalid number"
  | .numberTooLarge => "number out of range"
  | .controlCharacter => "control character (\\u0000-\\u001F) found while parsing a string"
  | .keyNotString => "key must be a string"
  | .loneSurrogate => "lone leading surrogate in hex escape"
  | .unpairedSurrogate => "unexpected end of hex escape"
  | .trailingComma => "trailing comma"
  | .trailingText => "trailing characters"
  | .duplicate k => s!"duplicate field `{k}`"
  | .wrongType f w => s!"invalid type: {f.describe}, expected {w.describe}"

/-- A fault, the characters not wholly read when it shows, and how many bytes of them were read. -/
structure Stop where
  fault : Fault
  rest : List Char
  into : Nat

def Stop.here (f : Fault) (rest : List Char) : Stop := ⟨f, rest, 0⟩

/-- A fault that shows at the next byte. -/
def Stop.next (f : Fault) (rest : List Char) : Stop := ⟨f, rest, 1⟩

def byteCount (cs : List Char) : Nat := cs.foldl (fun n c => n + c.utf8Size) 0

/-- The line that so many bytes reach, and the bytes on it, from a line and the bytes on that. -/
def reach : Nat × Nat → (bytes : Nat) → List Char → Nat × Nat
  | reached, _, [] => reached
  | (line, column), n, c :: r =>
    if n < c.utf8Size then (line, column + n)
    else reach (if c = '\n' then (line + 1, 0) else (line, column + c.utf8Size)) (n - c.utf8Size) r

structure Malformed where
  fault : Fault
  line : Nat
  column : Nat

/-- The place of a stop within the whole text. -/
def Stop.locate (s : Stop) (whole : List Char) : Malformed :=
  let (line, column) := reach (1, 0) (byteCount whole - byteCount s.rest + s.into) whole
  ⟨s.fault, line, column⟩

def Malformed.message (m : Malformed) : String :=
  s!"{m.fault.text} at line {m.line} column {m.column}"

end MailSieve.Json
