/-!
Mistakes in the text of a pattern, and how they are shown: the text, and marks below the place.
-/

namespace MailSieve.Pattern

inductive MistakeKind where
  | rangeReversed
  | rangeEnd
  | memberUnfit
  | setUnclosed
  | countTooLarge
  | hexEmpty
  | hexNoCharacter
  | hexDigit
  | escapeEnds
  | escapeUnknown
  | negationDangles
  | flagRepeated
  | negationRepeated
  | flagMissing
  | flagUnknown
  | nameRepeated
  | nameEmpty
  | nameCharacter
  | nameUnclosed
  | groupUnclosed
  | groupUnopened
  | countsReversed
  | countMissing
  | countUnclosed
  | nothingToRepeat
  | boundaryUnclosed
  | boundaryUnknown
  | boundaryEnds
  | propertyLetter
  | propertyUnknown
  | backreference
  | lookAround
  deriving DecidableEq

def MistakeKind.text : MistakeKind → String
  | .rangeReversed => "invalid character class range, the start must be <= the end"
  | .rangeEnd => "invalid range boundary, must be a literal"
  | .memberUnfit => "invalid escape sequence found in character class"
  | .setUnclosed => "unclosed character class"
  | .countTooLarge => "decimal literal invalid"
  | .hexEmpty => "hexadecimal literal empty"
  | .hexNoCharacter => "hexadecimal literal is not a Unicode scalar value"
  | .hexDigit => "invalid hexadecimal digit"
  | .escapeEnds => "incomplete escape sequence, reached end of pattern prematurely"
  | .escapeUnknown => "unrecognized escape sequence"
  | .negationDangles => "dangling flag negation operator"
  | .flagRepeated => "duplicate flag"
  | .negationRepeated => "flag negation operator repeated"
  | .flagMissing => "expected flag but got end of regex"
  | .flagUnknown => "unrecognized flag"
  | .nameRepeated => "duplicate capture group name"
  | .nameEmpty => "empty capture group name"
  | .nameCharacter => "invalid capture group character"
  | .nameUnclosed => "unclosed capture group name"
  | .groupUnclosed => "unclosed group"
  | .groupUnopened => "unopened group"
  | .countsReversed => "invalid repetition count range, the start must be <= the end"
  | .countMissing => "repetition quantifier expects a valid decimal"
  | .countUnclosed => "unclosed counted repetition"
  | .nothingToRepeat => "repetition operator missing expression"
  | .boundaryUnclosed =>
    "special word boundary assertion is either unclosed or contains an invalid character"
  | .boundaryUnknown =>
    "unrecognized special word boundary assertion, valid choices are: start, end, start-half " ++
      "or end-half"
  | .boundaryEnds =>
    "found either the beginning of a special word boundary or a bounded repetition on a \\b with " ++
      "an opening brace, but no closing brace"
  | .propertyLetter => "invalid Unicode character class"
  | .propertyUnknown => "Unicode property not found"
  | .backreference => "backreferences are not supported"
  | .lookAround => "look-around, including look-ahead and look-behind, is not supported"

/-- Characters of a text, from the first up to one that is none of them, both counted from zero. -/
structure Extent where
  start : Nat
  stop : Nat
  deriving DecidableEq

/-- A mistake and where it is; of things that are there twice also where the first is. -/
structure Mistake where
  kind : MistakeKind
  extent : Extent
  earlier : Option Extent
  deriving DecidableEq

/-- Marks below an extent, after those that end at `column`. There is at least one. -/
def Extent.marks (column : Nat) (e : Extent) : String :=
  "".pushn ' ' (e.start - column) |>.pushn '^' (max 1 (e.stop - e.start))

def Mistake.marks (m : Mistake) : String :=
  match m.earlier with
  | none => m.extent.marks 0
  | some e => e.marks 0 ++ m.extent.marks (e.start + max 1 (e.stop - e.start))

/-- The message about a mistake in a pattern. -/
def Mistake.message (pattern : String) (m : Mistake) : String :=
  s!"regex parse error:\n    {pattern}\n    {m.marks}\nerror: {m.kind.text}"

end MailSieve.Pattern
