import Mathlib.Logic.Function.Basic
import MailSieve.Forward.Pass

/-!
Programs as dialogues with a host: trees of the effects they ask for, one branch for each answer. A host
answers as it likes within what an effect allows.
-/

namespace MailSieve.Forward

open Files

inductive Side where | source | destination
  deriving DecidableEq

inductive Effect where
  | isThere (p : Path)
  | read (p : Path)
  | write (p : Path) (content : Bytes)
  | rename (p q : Path)
  | makeDirectory (p : Path)
  | list (p : Path)
  | modified (p : Path)
  | setModified (p : Path) (d : Date)
  | freshName (size : Nat)
  | log (l : Log.Line)
  | mail (side : Side) (c : Mailbox.Call)

def Result : Mailbox.Call → Type
  | .unseen => List String
  | .fetch _ => Bytes
  | .received _ => Date
  | .markSeen _ => Unit
  | .append _ => Unit

def Effect.Answer : Effect → Type
  | .isThere _ => Bool
  | .read _ => Except Refusal Bytes
  | .write _ _ | .rename _ _ | .makeDirectory _ | .setModified _ _ => Except Refusal Unit
  | .list _ => Except Refusal (List String)
  | .modified _ => Except Refusal Date
  | .freshName _ => String
  | .log _ => Unit
  | .mail _ c => Except Failure (Result c)

inductive Dialogue (α : Type) where
  | done (a : α)
  | ask (e : Effect) (next : e.Answer → Dialogue α)

namespace Dialogue

def andThen : Dialogue α → (α → Dialogue β) → Dialogue β
  | .done a, f => f a
  | .ask e next, f => .ask e fun a => (next a).andThen f

instance : Monad Dialogue where
  pure := .done
  bind := andThen

instance : LawfulMonad Dialogue := .mk' _
  (fun p => by
    induction p with
    | done a => rfl
    | ask e next ih => exact congrArg (ask e) (funext ih))
  (fun _ _ => rfl)
  (fun p _ _ => by
    induction p with
    | done a => rfl
    | ask e next ih => exact congrArg (ask e) (funext ih))

instance : Files Dialogue where
  isThere p := .ask (.isThere p) .done
  read p := .ask (.read p) .done
  write p content := .ask (.write p content) .done
  rename p q := .ask (.rename p q) .done
  makeDirectory p := .ask (.makeDirectory p) .done
  list p := .ask (.list p) .done
  modified p := .ask (.modified p) .done
  setModified p d := .ask (.setModified p d) .done
  freshName size := .ask (.freshName size) .done

instance : Logger Dialogue where
  log l := .ask (.log l) .done

/-- A mailbox that is asked for everything. -/
def mailbox (side : Side) : Mailbox Dialogue where
  unseen := .mk (.ask (.mail side .unseen) .done)
  fetch id := .mk (.ask (.mail side (.fetch id)) .done)
  received id := .mk (.ask (.mail side (.received id)) .done)
  markSeen id := .mk (.ask (.mail side (.markSeen id)) .done)
  append d := .mk (.ask (.mail side (.append d)) .done)

end Dialogue

/-- What the files hold, where there is one. -/
abbrev Contents := Path → Option Bytes

/-- The answers that an effect may have, and what it may make of the files. A file that is written may
be left in any state if the write fails, a rename is all or nothing, and whatever else happens, nobody
else touches the file at `store`. A host that cannot tell whether a file is there says that it is not, so
that a file may be missed. -/
def Allows (store : Path) : (e : Effect) → e.Answer → Contents → Contents → Prop
  | .isThere _, _, f, g => g = f
  | .read p, .ok content, f, g => g = f ∧ f p = some content
  | .read _, .error _, f, g => g = f
  | .write p content, .ok _, f, g => g = Function.update f p (some content)
  | .write p _, .error _, f, g => ∃ rest, g = Function.update f p rest
  | .rename p q, .ok _, f, g => g = Function.update (Function.update f p none) q (f p)
  | .rename _ _, .error _, f, g => g = f
  | _, _, f, g => g store = f store

end MailSieve.Forward
