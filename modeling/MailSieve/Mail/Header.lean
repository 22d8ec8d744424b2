import MailSieve.Text.Lowercase

/-!
Header fields as filter tests see them: a text, or a list of addresses.
-/

namespace MailSieve.Mail

structure Address where
  name : Option String
  address : String
  deriving DecidableEq

def Address.text (a : Address) : String :=
  match a.name with
  | some n => s!"{n} <{a.address}>"
  | none => a.address

inductive FieldValue where
  | text (t : String)
  | addresses (as : List Address)
  deriving DecidableEq

/-- The text a value is compared by; addresses are shown one after another. -/
def FieldValue.shown : FieldValue → String
  | .text t => t
  | .addresses as => ", ".intercalate (as.map Address.text)

/-- The addresses in a value, none for a text. -/
def FieldValue.members : FieldValue → List Address
  | .text _ => []
  | .addresses as => as

/-- The values a message has under a header name. -/
abbrev Lookup := String → List FieldValue

/-- Looks a name up in a list of fields, in order and whatever the case of its ASCII letters. -/
def lookupIn (fields : List (String × FieldValue)) : Lookup := fun name =>
  (fields.filter fun f => Text.sameName f.1 name).map Prod.snd

end MailSieve.Mail
