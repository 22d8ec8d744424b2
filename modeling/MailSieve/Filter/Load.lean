import MailSieve.Failure
import MailSieve.Script.Parser

/-!
Loading filter scripts from files.
-/

namespace MailSieve.Filter

open Files

def loadFilter {m : Type → Type} [Monad m] [Files m] (p : Path) :
    ExceptT Failure m Script.Program := do
  let source ← readText s!"reading filter script {p}" p
  match Script.parseScript source with
  | .ok program => pure program
  | .error e => throw ⟨[s!"parsing filter script {p}"], .script e⟩

end MailSieve.Filter
