import MailSieve.Mail.Bracketed
import MailSieve.Mail.Contacts
import MailSieve.Mail.Dated
import MailSieve.Mail.Listed
import MailSieve.Mail.Unstructured
import MailSieve.Mail.Verbatim

/-!
The header section of a message: names, and values read as the name says.
-/

namespace MailSieve.Mail

open Bytes Text

/-- How the value under a name is written. -/
inductive Format where
  | unstructured
  | contacts
  | date
  | bracketed
  | listed
  | skipped
  | verbatim
  deriving DecidableEq

def unstructuredNames : List String :=
  ["subject", "comments", "content-description", "content-location", "content-transfer-encoding"]

def contactNames : List String :=
  ["from", "to", "cc", "bcc", "reply-to", "sender", "resent-to", "resent-from", "resent-bcc",
    "resent-cc", "resent-sender", "list-archive", "list-help", "list-id", "list-owner", "list-post",
    "list-subscribe", "list-unsubscribe"]

def dateNames : List String := ["date", "resent-date"]

def bracketedNames : List String :=
  ["message-id", "references", "in-reply-to", "return-path", "content-id", "resent-message-id"]

def listedNames : List String := ["keywords", "content-language"]

def skippedNames : List String := ["received", "content-type", "content-disposition"]

/-- Names that are known although their values are taken as they stand. -/
def verbatimNames : List String :=
  ["arc-authentication-results", "arc-message-signature", "arc-seal", "delivered-to",
    "dkim-signature", "mime-version"]

/-- The format of a field whose name is known, in lower case. -/
def Format.ofName? (name : String) : Option Format :=
  if name ∈ unstructuredNames then some .unstructured
  else if name ∈ contactNames then some .contacts
  else if name ∈ dateNames then some .date
  else if name ∈ bracketedNames then some .bracketed
  else if name ∈ listedNames then some .listed
  else if name ∈ skippedNames then some .skipped
  else if name ∈ verbatimNames then some .verbatim
  else none

/-- The name and the format of a field whose name is written so. A known name is known in any case,
and with whitespace anywhere in it. -/
def readName (written : Bytes) : String × Format :=
  let tight := asciiLower (Utf8.decodeLossy (written.filter fun b => !isSpaceByte b))
  match Format.ofName? tight with
  | some f => (tight, f)
  | none => (Utf8.decodeLossy written, .verbatim)

def Format.read : Format → Bytes → Reading
  | .unstructured => Unstructured.read
  | .contacts => Contacts.read
  | .date => Dated.read
  | .bracketed => Bracketed.read
  | .listed => Listed.read
  | .skipped => Verbatim.skip
  | .verbatim => Verbatim.read

theorem Reading.ofEnding_length_le (f : σ → Value) (step : σ → UInt8 → Bytes → Move σ) (s : σ)
    (input : Bytes) : (Reading.ofEnding f (scan step s input)).2.length ≤ input.length := by
  have h := scan_rest_length_le step s input
  revert h
  cases scan step s input with
  | stopped t r => exact id
  | exhausted t => exact id

theorem Format.read_length_le (f : Format) (input : Bytes) :
    (f.read input).2.length ≤ input.length := by
  cases f with
  | unstructured => exact Reading.ofEnding_length_le ..
  | contacts => exact scan_rest_length_le ..
  | date => exact scan_rest_length_le ..
  | bracketed => exact Reading.ofEnding_length_le ..
  | listed => exact Reading.ofEnding_length_le ..
  | skipped => exact scan_rest_length_le ..
  | verbatim => exact scan_rest_length_le ..

/-- A field as it stands in the section, with the bytes of its value. -/
structure Field where
  name : String
  raw : Bytes
  value : Value

/-- A name runs to its colon; colons before it are passed over, and a line without one has no name. -/
def nameStep (s : Span) (b : UInt8) (_ : Bytes) : Move Span :=
  if b == byte ':' then if s.isOpen then .stop s 0 else .go s 0
  else if b == byte '\n' then .stop .empty 0
  else if isSpaceByte b then .go (s.pass b) 0
  else .go (s.record b) 0

structure Section where
  fields : List Field
  /-- The empty line that ends the section was found. -/
  closed : Bool

def readSection (input : Bytes) : Section :=
  match _h : input.dropWhile fun b => isSpaceByte b && b != byte '\n' with
  | [] => ⟨[], false⟩
  | b :: r =>
    if b == byte '\n' then ⟨[], true⟩
    else
      let e := scan nameStep .empty (b :: r)
      if e.state.isOpen then
        let (name, format) := readName e.state.bytes
        let v := format.read e.rest
        let raw := e.rest.take (e.rest.length - v.2.length)
        let s := readSection v.2
        { s with fields := ⟨name, raw, v.1⟩ :: s.fields }
      else readSection e.rest
termination_by input.length
decreasing_by
  all_goals
    have hr : (b :: r).length ≤ input.length := _h ▸ (List.dropWhile_suffix _).length_le
    have he : (scan nameStep .empty (b :: r)).rest.length ≤ r.length :=
      scan_cons_rest_length_le ..
    have hc : (b :: r).length = r.length + 1 := rfl
  · exact Nat.lt_of_le_of_lt (Format.read_length_le ..) (by omega)
  · omega

end MailSieve.Mail
