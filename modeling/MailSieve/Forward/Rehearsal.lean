import MailSieve.Forward.Mailbox

/-!
Rehearsals: mailboxes with set answers, which decline set calls. Appending to one and marking in it
change nothing, so that what a pass does can be seen from its calls alone.
-/

namespace MailSieve.Forward

open Files

structure Message where
  id : String
  content : Bytes
  date : Date

/-- What a mailbox answers, and the calls that it declines, by name and key. -/
structure Rehearsal where
  messages : List Message
  declines : List (String × String)

namespace Rehearsal

variable {m : Type → Type} [Monad m]

def answer (r : Rehearsal) (call key : String) (a : α) : ExceptT Failure m α :=
  if (call, key) ∈ r.declines then throw ⟨[], .declined call key⟩ else pure a

/-- The first message that has an identifier. -/
def message? (r : Rehearsal) (id : String) : Option Message := r.messages.find? fun e => e.id = id

def mailbox (r : Rehearsal) : Mailbox m where
  unseen := r.answer "unseen" "" (r.messages.map Message.id)
  fetch id := r.answer "fetch" id (((r.message? id).map Message.content).getD [])
  received id := r.answer "received" id (((r.message? id).map Message.date).getD 0)
  markSeen id := r.answer "mark_seen" id ()
  append d := r.answer "append" d.mailbox ()

end Rehearsal

end MailSieve.Forward
