import MailSieve.Files.Path
import MailSieve.Text.Lowercase
import MailSieve.Text.Sorted
import MailSieve.Text.Split

/-!
Entries of a maildir. New messages are in `new` and those that were seen or flagged in `cur`, where
the name of a file is the identifier of its message, the mark `:2,` and one letter for each flag.
-/

namespace MailSieve.Maildir

open Files Text

/-- The directories of a maildir. -/
inductive Part where | cur | new | tmp
  deriving DecidableEq

def Part.name : Part → String
  | .cur => "cur"
  | .new => "new"
  | .tmp => "tmp"

/-- The directory of a part of a maildir. -/
def Part.within (part : Part) (root : Path) : Path := root.join part.name

/-- What divides the identifier from the flags. -/
def infoMark : List Char := [':', '2', ',']

/-- A file of a maildir. Without the mark it has no flags, and then it is no message of `cur`. -/
structure Entry where
  part : Part
  file : String
  id : String
  flags : Option (List Char)
  deriving DecidableEq

namespace Entry

/-- An identifier is the name of a file up to the mark, in `new` as in `cur`, since the maildir library that
answers for both directories divides the names of both; a name without the mark is all identifier. The flags
reach up to a second mark. -/
def ofName (part : Part) (file : String) : Entry :=
  match cut? infoMark file.toList with
  | none => ⟨part, file, file, none⟩
  | some (id, info) =>
    match cut? infoMark info with
    | none => ⟨part, file, .ofList id, some info⟩
    | some (flags, _) => ⟨part, file, .ofList id, some flags⟩

/-- Names that start with a dot are no entries. -/
def isHidden (file : String) : Bool := file.startsWith "."

def isStray (e : Entry) : Bool := e.part = .cur && e.flags.isNone

def isSeen (e : Entry) : Bool := (e.flags.getD []).contains 'S'

def path (e : Entry) (root : Path) : Path := (e.part.within root).join e.file

end Entry

/-- The name of a message with flags, each letter once and in ascending order. -/
def flaggedName (id : String) (letters : List Char) : String :=
  id ++ .ofList (infoMark ++ sortUnique letters)

/-- The letter of a system flag. -/
def flagLetter? (flag : String) : Option Char :=
  match asciiLower flag with
  | "\\seen" => some 'S'
  | "\\answered" => some 'R'
  | "\\flagged" => some 'F'
  | "\\deleted" => some 'T'
  | "\\draft" => some 'D'
  | _ => none

end MailSieve.Maildir
