import MailSieve.Filter.Evaluate
import MailSieve.Log
import MailSieve.Mail.Message
import MailSieve.Text.Quoted

/-!
The decision about a raw message. Whatever goes wrong, the message is kept in the inbox: nothing that a
script decided before it failed counts.
-/

namespace MailSieve.Filter

open Log Mail Script

/-- A decision and what is logged on the way to it. -/
structure Judgement where
  lines : List Line
  decision : Decision

def showFlags (flags : TextSet) : String :=
  "\x7b" ++ ", ".intercalate (flags.items.map Text.quote) ++ "\x7d"

def Decision.summary (d : Decision) : String :=
  s!"keep={d.keeps} mailbox={d.mailbox} flags={showFlags d.flags}"

/-- Runs a script on a message known by `id`. -/
def judgeMessage (p : Program) (id : String) (m : Message) : Judgement :=
  let r := run p m.lookup
  let trace := r.lines.map fun l => ⟨.debug, .library, s!"{id}: {l}"⟩
  match r.outcome with
  | .ok d => ⟨trace, d⟩
  | .error u =>
    ⟨trace ++ [⟨.warn, .library, s!"{id}: filter failed, using default: {u.message}"⟩], .initial⟩

def judge (filter : Option Program) (id : String) (mail : Bytes) : Judgement :=
  match filter with
  | none => ⟨[], .initial⟩
  | some p =>
    match Message.read? mail with
    | none => ⟨[⟨.warn, .library, s!"{id}: unparsable message, using default"⟩], .initial⟩
    | some m =>
      let j := judgeMessage p id m
      { j with lines := j.lines ++ [⟨.info, .library, s!"{id}: {j.decision.summary}"⟩] }

/-- The decision of a script that fails rather than fall back. -/
def judgeStrictly (filter : Option Program) (mail : Bytes) : Option (Except Unsupported Decision) :=
  match filter, Message.read? mail with
  | some p, some m => some (evaluate p m.lookup)
  | _, _ => none

end MailSieve.Filter
