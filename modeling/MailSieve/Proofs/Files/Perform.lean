import Mathlib
import MailSieve.Failure
import MailSieve.Files.Host
import MailSieve.Proofs.Files.Actions

/-!
Actions performed on a host: what they answer, and the host that they leave.
-/

namespace MailSieve.Files.Host

variable {h h' : Host}

/-- What an action answers on a host, and the host that it leaves. -/
def perform (h : Host) (x : ExceptT Failure (StateM Host) α) : Except Failure α × Host := x.run.run h

@[simp] theorem perform_pure (a : α) : h.perform (pure a) = (.ok a, h) := rfl

@[simp] theorem perform_throw (f : Failure) :
    h.perform (throw f : ExceptT Failure (StateM Host) α) = (.error f, h) := rfl

theorem perform_bind (x : ExceptT Failure (StateM Host) α) (f : α → ExceptT Failure (StateM Host) β) :
    h.perform (x >>= f) =
      match h.perform x with
      | (.ok a, h') => h'.perform (f a)
      | (.error e, h') => (.error e, h') := by
  rw [perform, perform, ExceptT.run_bind, StateT.run_bind]
  rcases x.run.run h with ⟨_ | a, h'⟩ <;> rfl

theorem perform_bind_eq_ok {x : ExceptT Failure (StateM Host) α}
    {f : α → ExceptT Failure (StateM Host) β} {b : β} : h.perform (x >>= f) = (.ok b, h') ↔
      ∃ a h₁, h.perform x = (.ok a, h₁) ∧ h₁.perform (f a) = (.ok b, h') := by
  rw [perform_bind]
  rcases h.perform x with ⟨_ | a, h₁⟩
  · exact ⟨fun h => (nomatch h), fun ⟨_, _, h, _⟩ => (nomatch h)⟩
  · constructor
    · intro hb
      exact ⟨a, h₁, rfl, hb⟩
    · rintro ⟨_, _, ⟨⟩, hb⟩
      exact hb

theorem perform_attempt (doing : String) (action : StateM Host (Except Refusal α)) :
    h.perform (attempt doing action) =
      ((action.run h).1.mapError fun r => ⟨[doing], .refused r⟩, (action.run h).2) := by
  have hrun : h.perform (liftM action : ExceptT Failure (StateM Host) _) =
      (.ok (action.run h).1, (action.run h).2) := rfl
  rw [attempt, perform_bind, hrun]
  cases (action.run h).1 <;> rfl

theorem run_change_eq_ok {f : Host → Except Refusal Disk} {d : Disk} (hd : f h = .ok d) :
    (change f).run h = (.ok (), { h with disk := d }) := by
  simp only [change, StateT.run_bind, StateT.run_get, pure_bind, hd]
  rfl

theorem run_change_eq_error {f : Host → Except Refusal Disk} {r : Refusal} (hr : f h = .error r) :
    (change f).run h = (.error r, h) := by
  simp only [change, StateT.run_bind, StateT.run_get, pure_bind, hr]
  rfl

/-- An attempt that succeeds is a change of the disk alone. -/
theorem perform_change_eq_ok {doing : String} {f : Host → Except Refusal Disk} :
    h.perform (attempt doing (change f)) = (.ok (), h') ↔
      ∃ d, f h = .ok d ∧ h' = { h with disk := d } := by
  rw [perform_attempt]
  cases hf : f h with
  | error r =>
    rw [run_change_eq_error hf]
    exact ⟨fun h => (nomatch h), fun ⟨_, h, _⟩ => (nomatch h)⟩
  | ok d =>
    rw [run_change_eq_ok hf]
    constructor
    · rintro ⟨⟩
      exact ⟨d, rfl, rfl⟩
    · rintro ⟨_, ⟨⟩, rfl⟩
      rfl

/-- An attempt that only looks at the host succeeds with what it sees. -/
theorem perform_query_eq_ok {doing : String} {action : StateM Host (Except Refusal α)}
    {x : Except Refusal α} {a : α} (hrun : action.run h = (x, h)) :
    h.perform (attempt doing action) = (.ok a, h') ↔ x = .ok a ∧ h' = h := by
  rw [perform_attempt, hrun]
  cases x with
  | error r => exact ⟨fun h => (nomatch h), fun ⟨h, _⟩ => (nomatch h)⟩
  | ok b =>
    constructor
    · rintro ⟨⟩
      exact ⟨rfl, rfl⟩
    · rintro ⟨⟨⟩, rfl⟩
      rfl

theorem perform_ask_eq_ok {doing : String} {f : Disk → Place → Except Refusal α} {a : α} :
    h.perform (attempt doing (ask f)) = (.ok a, h') ↔ f h.disk h.working = .ok a ∧ h' = h :=
  perform_query_eq_ok rfl

theorem perform_modified_eq_ok {doing : String} {path : Path} {date : Date} :
    h.perform (attempt doing (Files.modified path)) = (.ok date, h') ↔
      h.disk.modified h.working h.now path = .ok date ∧ h' = h :=
  perform_query_eq_ok rfl

theorem perform_readText_eq_ok {doing : String} {path : Path} {text : String} :
    h.perform (readText doing path) = (.ok text, h') ↔
      h' = h ∧ ∃ bytes, h.disk.read h.working path = .ok bytes ∧ Text.Utf8.decode? bytes = some text := by
  rw [readText, perform_bind_eq_ok]
  constructor
  · rintro ⟨bytes, h₁, hread, htext⟩
    obtain ⟨hread, rfl⟩ := perform_ask_eq_ok.1 hread
    split at htext
    · next hdecode =>
      cases htext
      exact ⟨rfl, bytes, hread, hdecode⟩
    · cases htext
  · rintro ⟨rfl, bytes, hread, hdecode⟩
    refine ⟨bytes, _, perform_ask_eq_ok.2 ⟨hread, rfl⟩, ?_⟩
    rw [hdecode]
    rfl

end MailSieve.Files.Host
