import MailSieve.Mail.Date
import MailSieve.Mail.Section
import MailSieve.Text.Split

/-!
Messages as filters see them: the fields of the header section, looked up by name.
-/

namespace MailSieve.Mail

open Text

structure Message where
  fields : List Field

/-- A message needs the end of its header section or at least one field. -/
def Message.read? (input : Bytes) : Option Message :=
  let s := readSection input
  if s.closed || !s.fields.isEmpty then some ⟨s.fields⟩ else none

/-- The bytes of a value on one line: its lines trimmed, without the empty ones. -/
def Field.rawText (f : Field) : String :=
  let lines := (pieces '\n' (Utf8.decodeLossy f.raw).toList).map trim
  " ".intercalate ((lines.filter fun l => !l.isEmpty).map String.ofList)

/-- Contacts that have an address. -/
def addressesOf (cs : List Contact) : List Address :=
  cs.filterMap fun c => c.address.map fun a => ⟨c.name, a⟩

def Field.values (f : Field) : List FieldValue :=
  match f.value with
  | .text t => [.text t]
  | .texts ts => ts.map .text
  | .contacts cs => [.addresses (addressesOf cs)]
  | .groups gs => [.addresses (addressesOf (gs.flatMap Group.members))]
  | .date d => [.text d.text]
  | .bare => [.text f.rawText]

def Message.lookup (m : Message) : Lookup := fun name =>
  (m.fields.filter fun f => sameName f.name name).flatMap Field.values

/-- Each element once, where it first occurs. -/
def firstOccurrences : List String → List String
  | [] => []
  | s :: r => s :: (firstOccurrences r).filter (· != s)

/-- The lowercase names of the fields, in the order in which they first occur. -/
def Message.names (m : Message) : List String :=
  firstOccurrences (m.fields.map fun f => asciiLower f.name)

/-- The value of the last field of a name. -/
def Message.last? (m : Message) (name : String) : Option Value :=
  (m.fields.filter fun f => sameName f.name name).getLast?.map Field.value

def Message.subject (m : Message) : String :=
  match m.last? "subject" with
  | some (.text t) => t
  | _ => ""

/-- The address of the first sender; groups have none. -/
def Message.sender (m : Message) : String :=
  match m.last? "from" with
  | some (.contacts (c :: _)) => c.address.getD ""
  | _ => ""

end MailSieve.Mail
