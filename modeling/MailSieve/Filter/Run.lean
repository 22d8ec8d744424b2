import MailSieve.Script.Tree

/-!
Runs of a script: the events of a run in order, and the value it ends in or the tag that it does not
know how to evaluate.
-/

namespace MailSieve.Filter

open Script (AddressPart MatchType)

inductive TestKind where | header | address
  deriving DecidableEq

def TestKind.name : TestKind → String
  | .header => "header"
  | .address => "address"

/-- A tag that parses but has no evaluation. -/
inductive Tag where
  | comparator
  | part (p : AddressPart)
  | matchType (m : MatchType)
  deriving DecidableEq

def Tag.name : Tag → String
  | .comparator => "comparator"
  | .part p => p.tag
  | .matchType m => m.tag

structure Unsupported where
  kind : TestKind
  tag : Tag
  deriving DecidableEq

def Unsupported.message (u : Unsupported) : String :=
  s!":{u.tag.name} is not supported in {u.kind.name} test"

inductive Event where
  | lookup (name : String)
  | header (name text key : String) (holds : Bool)
  | address (name address key : String) (holds : Bool)
  | keep
  | discard
  | fileinto (mailbox : String)
  | addflag (flag : String)
  deriving DecidableEq

/-- The line that reports an event; looking a header up is not reported. -/
def Event.line? : Event → Option String
  | .lookup _ => none
  | .header n t k b => some s!"Checking header '{n}': '{t}' contains '{k}' = {b}"
  | .address n a k b => some s!"Checking address '{n}': '{a}' is '{k}' = {b}"
  | .keep => some "Marking to keep"
  | .discard => some "Marking to discard"
  | .fileinto m => some s!"Setting destination mailbox to '{m}'"
  | .addflag f => some s!"Adding flag '{f}'"

def Event.lookup? : Event → Option String
  | .lookup n => some n
  | _ => none

structure Run (α : Type) where
  events : List Event
  outcome : Except Unsupported α

namespace Run

def emit (e : Event) : Run Unit := ⟨[e], .ok ()⟩

def fail (u : Unsupported) : Run α := ⟨[], .error u⟩

/-- A run that fails goes no further. -/
def andThen (r : Run α) (f : α → Run β) : Run β :=
  match r.outcome with
  | .ok a =>
    let s := f a
    ⟨r.events ++ s.events, s.outcome⟩
  | .error u => ⟨r.events, .error u⟩

instance : Monad Run where
  pure a := ⟨[], .ok a⟩
  bind := andThen

/-- Whether some element passes, asking no further than the first that does. -/
def any (f : β → Run Bool) : List β → Run Bool
  | [] => pure false
  | b :: bs => do if ← f b then pure true else any f bs

def lines (r : Run α) : List String := r.events.filterMap Event.line?

def lookups (r : Run α) : List String := r.events.filterMap Event.lookup?

end Run

end MailSieve.Filter
