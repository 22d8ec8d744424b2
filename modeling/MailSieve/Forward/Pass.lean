import MailSieve.Filter.Judgement
import MailSieve.Forward.Mailbox
import MailSieve.Ledger.Store

/-!
Forwarding passes: every unseen message is copied where the filter sends it, then marked seen. An
identifier is entered into the ledger, and the ledger saved, before its message is touched, so a pass
that breaks off never leads to a second copy.
-/

namespace MailSieve.Forward

open Files MailSieve.Filter

structure Stats where
  forwarded : Nat
  discarded : Nat
  duplicates : Nat
  deriving DecidableEq

def Stats.zero : Stats := ⟨0, 0, 0⟩

/-- What became of a message that was listed. -/
inductive Outcome where | forwarded | discarded | duplicate
  deriving DecidableEq

def Stats.add (s : Stats) : Outcome → Stats
  | .forwarded => { s with forwarded := s.forwarded + 1 }
  | .discarded => { s with discarded := s.discarded + 1 }
  | .duplicate => { s with duplicates := s.duplicates + 1 }

/-- The actions of a pass; the ledger is kept when one fails. -/
abbrev Pass (m : Type → Type) := ExceptT Failure (StateT Ledger m)

variable {m : Type → Type} [Monad m]

/-- An action that does not concern the ledger. -/
def call (x : ExceptT Failure m α) : Pass m α := ExceptT.mk (StateT.lift x.run)

variable [Logger m]

def note (level : Log.Level) (text : String) : Pass m Unit :=
  call (log ⟨level, .forward, text⟩)

variable [Files m]

/-- Enters an identifier into the ledger. -/
def enter (id : String) : Pass m Unit := do
  modify (·.insert id)
  call (← get).save

/-- Decides about a message and copies it unless it is discarded. -/
def deliver (source destination : Mailbox m) (filter : Option Script.Program) (id : String) :
    Pass m Outcome := do
  let date ← call (source.received id)
  let message ← call (source.fetch id)
  let judgement := judge filter id message
  for line in judgement.lines do call (log line)
  let decision := judgement.decision
  if decision.keeps then
    note .info s!"{id}: forwarding to {decision.mailbox}"
    call (destination.append ⟨decision.mailbox, message, decision.flags, some date⟩)
    pure .forwarded
  else
    note .info s!"{id}: discarded"
    pure .discarded

/-- Handles a listed message unless the ledger has its identifier. -/
def handle (source destination : Mailbox m) (filter : Option Script.Program) (id : String) :
    Pass m Outcome := do
  if id ∈ (← get) then
    note .info s!"{id}: duplicate message"
    pure .duplicate
  else
    enter id
    let outcome ← deliver source destination filter id
    call (source.markSeen id)
    pure outcome

/-- Handles listed messages in order, up to the first failure. -/
def handleAll (source destination : Mailbox m) (filter : Option Script.Program) (stats : Stats) :
    List String → Pass m Stats
  | [] => pure stats
  | id :: ids => do
    let outcome ← handle source destination filter id
    handleAll source destination filter (stats.add outcome) ids

/-- One pass over the unseen messages of the source. -/
def forwardUnseen (source destination : Mailbox m) (filter : Option Script.Program) :
    Pass m Stats := do
  let ids ← call source.unseen
  note .info s!"Found {ids.length} new messages"
  handleAll source destination filter .zero ids

end MailSieve.Forward
