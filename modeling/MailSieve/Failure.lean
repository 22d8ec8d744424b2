import MailSieve.Files.Access
import MailSieve.Filter.Run
import MailSieve.Json.Malformed
import MailSieve.Script.Token
import MailSieve.Text.Utf8

/-!
Failures: a cause, and what was being done when it arose.
-/

namespace MailSieve

open Files

inductive Cause where
  | refused (r : Refusal)
  | notUtf8
  /-- A file among the messages of a maildir whose name has no flags. -/
  | strayEntry
  | malformed (m : Json.Malformed)
  | script (e : Script.SyntaxError)
  | unsupported (u : Filter.Unsupported)
  | noMessage (id : String) (root : Path)
  | unreadableMessage
  | invalidAddress
  /-- A mailbox does not answer a call. -/
  | declined (call key : String)

def Cause.message : Cause → String
  | .refused r => r.message
  | .notUtf8 => "stream did not contain valid UTF-8"
  | .strayEntry => "Non-maildir file found in maildir"
  | .malformed m => m.message
  | .script e => e.message
  | .unsupported u => u.message
  | .noMessage id root => s!"message {id} not found in {root}"
  | .unreadableMessage => "parse error"
  | .invalidAddress => "invalid socket address syntax"
  | .declined call key => s!"{call} {key} failed"

/-- A cause, and what was being done, the outermost first. -/
structure Failure where
  context : List String
  cause : Cause

def Failure.message (f : Failure) : String :=
  ": ".intercalate (f.context ++ [f.cause.message])

section

variable {m : Type → Type} [Monad m]

/-- An action whose refusal is a failure of what is being done. -/
def attempt (doing : String) (action : m (Except Refusal α)) : ExceptT Failure m α := do
  match ← action with
  | .ok a => pure a
  | .error r => throw ⟨[doing], .refused r⟩

/-- Reads a file of UTF-8 text. -/
def readText [Files m] (doing : String) (p : Path) : ExceptT Failure m String := do
  match Text.Utf8.decode? (← attempt doing (Files.read p)) with
  | some s => pure s
  | none => throw ⟨[doing], .notUtf8⟩

end

end MailSieve
