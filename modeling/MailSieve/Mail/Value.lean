import MailSieve.Mail.Header
import MailSieve.Text.Span

/-!
Header values as they are read: what a field's bytes mean, by the kind of field.
-/

namespace MailSieve.Mail

/-- A mailbox as written, with or without the address part. -/
structure Contact where
  name : Option String
  address : Option String
  deriving DecidableEq

/-- A named list of mailboxes. -/
structure Group where
  name : Option String
  members : List Contact
  deriving DecidableEq

/-- A point in time as written, `offset` minutes from UTC being those of `zoneHour` and `zoneMinute`. -/
structure Date where
  year : Nat
  month : Nat
  day : Nat
  hour : Nat
  minute : Nat
  second : Nat
  west : Bool
  zoneHour : Nat
  zoneMinute : Nat
  deriving DecidableEq

inductive Value where
  | text (t : String)
  | texts (ts : List String)
  | contacts (cs : List Contact)
  | groups (gs : List Group)
  | date (d : Date)
  /-- Nothing was read; the field is shown by its bytes. -/
  | bare
  deriving DecidableEq

/-- None, one or several texts. -/
def Value.ofTexts : List String → Value
  | [] => .bare
  | [t] => .text t
  | ts => .texts ts

/-- A value and the input after it. -/
abbrev Reading := Value × Bytes

/-- A reading that is void if the input ends before the value does. -/
def Reading.ofEnding (read : σ → Value) : Bytes.Ending σ → Reading
  | .stopped s r => (read s, r)
  | .exhausted _ => (.bare, [])

/-- Appends a piece, after a space unless it is the first. -/
def spaced (pieces : List String) (t : String) : List String :=
  if pieces.isEmpty then [t] else pieces ++ [" ", t]

/-- Words of running text. -/
inductive Word where
  | plain (t : String)
  | encoded (t : String)

def Word.text : Word → String
  | .plain t => t
  | .encoded t => t

def Word.isEncoded : Word → Bool
  | .plain _ => false
  | .encoded _ => true

/-- What stands between two words: nothing between encoded ones, else a space. -/
def Word.between (a b : Word) : String :=
  if a.isEncoded && b.isEncoded then "" else " "

def Word.join : List Word → String
  | [] => ""
  | [a] => a.text
  | a :: b :: r => a.text ++ a.between b ++ Word.join (b :: r)

end MailSieve.Mail
