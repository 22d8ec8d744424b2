import MailSieve.Proofs.Forward.Course

/-!
What a forwarding pass does, effect by effect, whatever the mailboxes and the disk answer.
-/

namespace MailSieve.Forward

open Files MailSieve.Filter Dialogue

/-- What is decided about a message: what the script decides, if there is one and it can, and else
nothing, so that the message is kept. -/
def decided (filter : Option Script.Program) (message : Bytes) : Decision :=
  match judgeStrictly filter message with
  | some (.ok d) => d
  | _ => .initial

theorem decision_judge (filter : Option Script.Program) (id : String) (message : Bytes) :
    (judge filter id message).decision = decided filter message := by
  unfold judge decided judgeStrictly
  cases filter with
  | none => rfl
  | some p =>
    cases Mail.Message.read? message with
    | none => rfl
    | some m =>
      simp only [judgeMessage, evaluate]
      cases (run p m.lookup).outcome <;> rfl

/-- What becomes of a message that is not in the ledger. -/
def fate (filter : Option Script.Program) (message : Bytes) : Outcome :=
  if (decided filter message).keeps then .forwarded else .discarded

/-- The course of copying a message, unless it is discarded. -/
def copying (filter : Option Script.Program) (date : Date) (message : Bytes) : List Reply :=
  let d := decided filter message
  if d.keeps then
    [⟨.mail .destination (.append ⟨d.mailbox, message, d.flags, some date⟩), .ok ()⟩]
  else []

/-- The course of a message up to where it can be marked seen. -/
def delivering (filter : Option Script.Program) (id : String) (date : Date) (message : Bytes) :
    List Reply :=
  ⟨.mail .source (.received id), .ok date⟩ :: ⟨.mail .source (.fetch id), .ok message⟩ ::
    copying filter date message

/-- The course of a message that is not in the ledger `l`. -/
def handling (filter : Option Script.Program) (l : Ledger) (id : String) (date : Date)
    (message : Bytes) : List Reply :=
  saving (l.insert id) ++
    (delivering filter id date message ++ [⟨.mail .source (.markSeen id), .ok ()⟩])

variable {l l' : Ledger}

theorem goes_append (d : Delivery) :
    Goes (call ((mailbox .destination).append d)) l l fun c _ =>
      c = [⟨.mail .destination (.append d), .ok ()⟩] :=
  goes_mail .destination (.append d)

theorem goes_markSeen (id : String) :
    Goes (call ((mailbox .source).markSeen id)) l l fun c _ =>
      c = [⟨.mail .source (.markSeen id), .ok ()⟩] :=
  goes_mail .source (.markSeen id)

theorem goes_logs (lines : List Log.Line) :
    Goes (forIn lines () fun line _ => do
      call (log line)
      pure (ForInStep.yield ())) l l fun c _ => c = [] := by
  induction lines with
  | nil => exact (goes_pure ()).congr fun _ _ => and_iff_left rfl
  | cons line lines ih =>
    rw [List.forIn_cons]
    have hstep := (goes_log (l := l) line).bind fun _ => goes_pure (ForInStep.yield ())
    refine (hstep.bind (D := fun _ c _ => c = []) fun r => ?_).congr fun c _ => ?_
    · cases r with
      | done => exact (goes_pure ()).congr fun _ _ => and_iff_left rfl
      | yield => exact ih
    · grind

theorem goes_deliver (filter : Option Script.Program) (id : String) :
    Goes (deliver (mailbox .source) (mailbox .destination) filter id) l l fun c o =>
      ∃ date message, c = delivering filter id date message ∧ o = fate filter message := by
  unfold deliver
  refine ((goes_mail .source (.received id)).bind fun (date : Date) =>
    (goes_mail .source (.fetch id)).bind fun (message : Bytes) =>
    (goes_logs _).bind (D := fun _ c o => c = copying filter date message ∧ o = fate filter message)
      fun _ => ?_).congr fun c o => ?_
  · simp only [decision_judge, copying, fate]
    split
    · refine ((goes_log _).bind fun _ =>
        (goes_append _).bind fun _ => goes_pure _).congr fun c o => ?_
      grind
    · refine ((goes_log _).bind fun _ => goes_pure _).congr fun c o => ?_
      grind
  · simp only [delivering]
    grind

/-- Looking into the ledger leaves no reply. -/
theorem performs_get {f : Ledger → Pass Dialogue α} {τ : List Reply} {r : Except Failure α} :
    Performs (get >>= f) l τ r l' ↔ Performs (f l) l τ r l' :=
  Iff.rfl

theorem performs_handle_of_mem (filter : Option Script.Program) {id : String} (hid : id ∈ l)
    {τ : List Reply} {r : Except Failure Outcome} :
    Performs (handle (mailbox .source) (mailbox .destination) filter id) l τ r l' ↔
      τ = [] ∧ r = .ok .duplicate ∧ l' = l := by
  rw [handle, performs_get, if_pos hid, note, performs_bind]
  simp only [performs_log, performs_pure]
  grind

/-- A message that is not in the ledger is entered, then copied or discarded, then marked seen. -/
theorem performs_handle_of_not_mem (filter : Option Script.Program) {id : String} (hid : id ∉ l)
    {τ : List Reply} {r : Except Failure Outcome} :
    Performs (handle (mailbox .source) (mailbox .destination) filter id) l τ r l' ↔
      l' = l.insert id ∧ ∃ date message,
        Follows (handling filter l id date message) (fate filter message) τ r := by
  have hgoes := (goes_enter (l := l) id).bind fun _ => (goes_deliver filter id).bind fun o =>
    (goes_markSeen id).bind fun _ => goes_pure o
  rw [handle, performs_get, if_neg hid, hgoes.performs]
  refine and_congr_right fun _ => ⟨?_, ?_⟩
  · rintro ⟨_, o, ⟨_, _, _, rfl, ⟨_, _, _, ⟨date, message, rfl, rfl⟩,
      ⟨_, _, _, rfl, ⟨rfl, rfl⟩, rfl⟩, rfl⟩, rfl⟩, h⟩
    exact ⟨date, message, h⟩
  · rintro ⟨date, message, h⟩
    exact ⟨_, _, ⟨(), _, _, rfl, ⟨_, _, _, ⟨date, message, rfl, rfl⟩,
      ⟨(), _, _, rfl, ⟨rfl, rfl⟩, rfl⟩, rfl⟩, rfl⟩, h⟩

end MailSieve.Forward
