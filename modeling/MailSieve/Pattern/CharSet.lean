import MailSieve.Text.Alike
import MailSieve.Text.Word

/-!
Sets of characters that a pattern names.
-/

namespace MailSieve.Pattern

inductive CharSet where
  | empty
  /-- The characters from one to another. -/
  | range (first last : Char)
  | word
  | digit
  | blank
  | union (s t : CharSet)
  | inter (s t : CharSet)
  | complement (s : CharSet)
  /-- The characters that differ from a member only in case. -/
  | anyCase (s : CharSet)
  deriving DecidableEq

namespace CharSet

def contains : CharSet → Char → Bool
  | .empty, _ => false
  | .range a b, c => a ≤ c && c ≤ b
  | .word, c => Text.isWordPart c
  | .digit, c => Text.isDecimalDigit c
  | .blank, c => Text.isBlank c
  | .union s t, c => s.contains c || t.contains c
  | .inter s t, c => s.contains c && t.contains c
  | .complement s, c => !s.contains c
  | .anyCase s, c => (Text.alike c).any s.contains

def one (c : Char) : CharSet := .range c c

def any : CharSet := .complement .empty

def ofList (cs : List Char) : CharSet := cs.foldl (fun s c => .union s (one c)) .empty

def ofRanges (rs : List (Char × Char)) : CharSet :=
  rs.foldl (fun s r => .union s (.range r.1 r.2)) .empty

def diff (s t : CharSet) : CharSet := .inter s (.complement t)

def symmDiff (s t : CharSet) : CharSet := .union (s.diff t) (t.diff s)

def asciiDigit : CharSet := .range '0' '9'

def asciiLetter : CharSet := ofRanges [('A', 'Z'), ('a', 'z')]

def asciiWord : CharSet := .union asciiLetter (.union asciiDigit (one '_'))

def asciiBlank : CharSet := ofList ['\t', '\n', '\x0b', '\x0c', '\r', ' ']

/-- The sets of ASCII characters that have names. -/
def named? : String → Option CharSet
  | "alnum" => some (.union asciiLetter asciiDigit)
  | "alpha" => some asciiLetter
  | "ascii" => some (.range '\x00' '\x7f')
  | "blank" => some (ofList ['\t', ' '])
  | "cntrl" => some (ofRanges [('\x00', '\x1f'), ('\x7f', '\x7f')])
  | "digit" => some asciiDigit
  | "graph" => some (.range '!' '~')
  | "lower" => some (.range 'a' 'z')
  | "print" => some (.range ' ' '~')
  | "punct" => some (ofRanges [('!', '/'), (':', '@'), ('[', '\x60'), ('\x7b', '~')])
  | "space" => some asciiBlank
  | "upper" => some (.range 'A' 'Z')
  | "word" => some asciiWord
  | "xdigit" => some (ofRanges [('0', '9'), ('A', 'F'), ('a', 'f')])
  | _ => none

end CharSet

end MailSieve.Pattern
