import MailSieve.Proofs.Forward.Dialogue

/-!
Transcripts of dialogues: what was asked for, with the answers, from the first effect to the last. Lines
for the log are not taken down.
-/

namespace MailSieve.Forward

open Files Dialogue

/-- An effect and the answer to it. -/
structure Reply where
  effect : Effect
  answer : effect.Answer

/-- The failure that an answer leads to. -/
def Reply.failure? : Reply → Option Failure
  | ⟨.write p _, .error r⟩ => some ⟨[s!"writing {p}"], .refused r⟩
  | ⟨.rename _ q, .error r⟩ => some ⟨[s!"replacing store {q}"], .refused r⟩
  | ⟨.mail _ _, .error f⟩ => some f
  | _ => none

/-- With these replies a dialogue ends in this value. -/
def Says : Dialogue α → List Reply → α → Prop
  | .done a, τ, b => τ = [] ∧ a = b
  | .ask (.log _) next, τ, b => Says (next ()) τ b
  | .ask e next, τ, b => ∃ a σ, τ = ⟨e, a⟩ :: σ ∧ Says (next a) σ b

theorem says_bind {p : Dialogue α} {f : α → Dialogue β} {τ : List Reply} {b : β} :
    Says (p >>= f) τ b ↔ ∃ a σ ρ, Says p σ a ∧ Says (f a) ρ b ∧ τ = σ ++ ρ := by
  induction p generalizing τ with
  | done a =>
    constructor
    · intro h
      exact ⟨a, [], τ, ⟨rfl, rfl⟩, h, rfl⟩
    · rintro ⟨_, _, ρ, ⟨rfl, rfl⟩, h, rfl⟩
      exact h
  | ask e next ih =>
    cases e with
    | log l => exact ih ()
    | _ =>
      constructor
      · rintro ⟨a, τ, rfl, h⟩
        obtain ⟨c, σ, ρ, hσ, hρ, rfl⟩ := (ih a).1 h
        exact ⟨c, _ :: σ, ρ, ⟨a, σ, rfl, hσ⟩, hρ, rfl⟩
      · rintro ⟨c, _, ρ, ⟨a, σ, rfl, hσ⟩, hρ, rfl⟩
        exact ⟨a, σ ++ ρ, rfl, (ih a).2 ⟨c, σ, ρ, hσ, hρ, rfl⟩⟩

/-- A pass that starts from the ledger `l` has these replies, ends so, and leaves the ledger `l'`. -/
def Performs (x : Pass Dialogue α) (l : Ledger) (τ : List Reply) (r : Except Failure α)
    (l' : Ledger) : Prop :=
  Says (x.run.run l) τ (r, l')

variable {l l' : Ledger} {τ : List Reply}

@[simp] theorem performs_pure {a : α} {r : Except Failure α} :
    Performs (pure a) l τ r l' ↔ τ = [] ∧ r = .ok a ∧ l' = l := by
  change τ = [] ∧ (Except.ok a, l) = (r, l') ↔ _
  grind

theorem performs_bind {x : Pass Dialogue α} {f : α → Pass Dialogue β} {r : Except Failure β} :
    Performs (x >>= f) l τ r l' ↔
      (∃ e, Performs x l τ (.error e) l' ∧ r = .error e) ∨
      ∃ a m σ ρ, Performs x l σ (.ok a) m ∧ Performs (f a) m ρ r l' ∧ τ = σ ++ ρ := by
  change Says (x.run.run l >>= _) τ (r, l') ↔ _
  rw [says_bind]
  constructor
  · rintro ⟨⟨x, m⟩, σ, ρ, hσ, hρ, rfl⟩
    cases x with
    | ok a => exact .inr ⟨a, m, σ, ρ, hσ, hρ, rfl⟩
    | error e =>
      obtain ⟨rfl, h⟩ := hρ
      cases h
      rw [List.append_nil]
      exact .inl ⟨e, hσ, rfl⟩
  · rintro (⟨e, h, rfl⟩ | ⟨a, m, σ, ρ, hσ, hρ, rfl⟩)
    · exact ⟨(.error e, l'), τ, [], h, ⟨rfl, rfl⟩, (List.append_nil τ).symm⟩
    · exact ⟨(.ok a, m), σ, ρ, hσ, hρ, rfl⟩

/-- A call to a mailbox is one reply, and ends as that does. -/
@[simp] theorem performs_mail {side : Side} {c : Mailbox.Call} {r : Except Failure (Result c)} :
    Performs (call (.mk (.ask (.mail side c) .done))) l τ r l' ↔
      τ = [⟨.mail side c, r⟩] ∧ l' = l := by
  change (∃ a σ, τ = ⟨.mail side c, a⟩ :: σ ∧ σ = [] ∧ (a, l) = (r, l')) ↔ _
  constructor
  · rintro ⟨a, σ, rfl, rfl, h⟩
    cases h
    exact ⟨rfl, rfl⟩
  · rintro ⟨rfl, rfl⟩
    exact ⟨r, [], rfl, rfl, rfl⟩

@[simp] theorem performs_log {line : Log.Line} {r : Except Failure Unit} :
    Performs (call (log line)) l τ r l' ↔ τ = [] ∧ r = .ok () ∧ l' = l := by
  change τ = [] ∧ (Except.ok (), l) = (r, l') ↔ _
  grind

end MailSieve.Forward
