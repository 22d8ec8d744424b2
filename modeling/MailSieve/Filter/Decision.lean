import MailSieve.Text.Sorted

/-!
What a script decides about a message.
-/

namespace MailSieve.Filter

/-- A verdict is there only if a `keep` or `discard` ran, a destination only if a `fileinto` ran. -/
structure Decision where
  verdict : Option Bool
  destination : Option String
  flags : TextSet

def Decision.initial : Decision := ⟨none, none, .empty⟩

/-- Messages are kept unless they are discarded. -/
def Decision.keeps (d : Decision) : Bool := d.verdict.getD true

def Decision.mailbox (d : Decision) : String := d.destination.getD "INBOX"

end MailSieve.Filter
