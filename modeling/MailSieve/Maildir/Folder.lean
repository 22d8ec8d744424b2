import MailSieve.Files.Path
import MailSieve.Text.Lowercase
import MailSieve.Text.ModifiedUtf7

/-!
Folders of a maildir: the inbox is the maildir itself, and every other mailbox is one directory below
it, whose name starts with a dot.
-/

namespace MailSieve.Maildir

open Files Text

def isInbox (mailbox : String) : Bool := mailbox.isEmpty || sameName mailbox "INBOX"

/-- Dots divide the levels of a mailbox on disk. -/
def dotted (mailbox : String) : String :=
  mailbox.map fun c => if c = '/' then '.' else c

/-- The name of the directory of a mailbox, if it is not the maildir itself. -/
def folderName? (mailbox : String) : Option String :=
  if isInbox mailbox then none else some ("." ++ ModifiedUtf7.encode (dotted mailbox))

def folder (root : Path) (mailbox : String) : Path :=
  match folderName? mailbox with
  | none => root
  | some n => root.join n

end MailSieve.Maildir
