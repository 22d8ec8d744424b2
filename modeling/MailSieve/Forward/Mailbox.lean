import MailSieve.Failure
import MailSieve.Text.Sorted

/-!
Mailboxes, as a forwarding pass sees them: five calls, each of which may fail.
-/

namespace MailSieve

open Files

/-- A message as it is handed to a mailbox, with the date to give it, if not the present. -/
structure Delivery where
  mailbox : String
  message : Bytes
  flags : TextSet
  date : Option Date

/-- A mailbox, reached by actions in `m`. -/
structure Mailbox (m : Type → Type) where
  /-- The identifiers of the messages that are not marked seen. -/
  unseen : ExceptT Failure m (List String)
  fetch : String → ExceptT Failure m Bytes
  /-- When a message arrived. -/
  received : String → ExceptT Failure m Date
  markSeen : String → ExceptT Failure m Unit
  append : Delivery → ExceptT Failure m Unit

namespace Mailbox

/-- The calls of a mailbox. -/
inductive Call where
  | unseen
  | fetch (id : String)
  | received (id : String)
  | markSeen (id : String)
  | append (d : Delivery)

/-- A mailbox that notes each call before it answers. -/
def noting [Monad m] (note : Call → m Unit) (b : Mailbox m) : Mailbox m where
  unseen := do note .unseen; b.unseen
  fetch id := do note (.fetch id); b.fetch id
  received id := do note (.received id); b.received id
  markSeen id := do note (.markSeen id); b.markSeen id
  append d := do note (.append d); b.append d

end Mailbox

end MailSieve
