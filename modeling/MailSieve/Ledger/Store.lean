import MailSieve.Failure
import MailSieve.Ledger.Codec

/-!
Ledgers: the identifiers of the messages that were handled, kept in a file from one pass to the next.
-/

namespace MailSieve

open Files

structure Ledger where
  path : Path
  ids : TextSet

namespace Ledger

def insert (l : Ledger) (id : String) : Ledger := { l with ids := l.ids.insert id }

instance : Membership String Ledger := ⟨fun l id => id ∈ l.ids⟩

instance (id : String) (l : Ledger) : Decidable (id ∈ l) :=
  inferInstanceAs (Decidable (id ∈ l.ids))

def size (l : Ledger) : Nat := l.ids.size

/-- The bytes that are kept in the file. -/
def bytes (l : Ledger) : Bytes := Bytes.ofString (.ofList (encode l.ids))

section

variable {m : Type → Type} [Monad m] [Files m]

/-- Reads a ledger; where there is no file, nothing was handled yet. -/
def load (path : Path) : ExceptT Failure m Ledger := do
  if ← Files.isThere path then
    let text ← readText s!"reading store {path}" path
    match decode text.toList with
    | .ok ids => pure ⟨path, ids⟩
    | .error e => throw ⟨[s!"decoding store {path}"], .malformed e⟩
  else pure ⟨path, .empty⟩

/-- The file beside the ledger that takes its place once it is written. -/
def draft (l : Ledger) : Path := l.path ++ ".tmp"

/-- Writes the draft, then puts it in place of the file. -/
def save (l : Ledger) : ExceptT Failure m Unit := do
  attempt s!"writing {l.draft}" (Files.write l.draft l.bytes)
  attempt s!"replacing store {l.path}" (Files.rename l.draft l.path)

end

end Ledger

end MailSieve
