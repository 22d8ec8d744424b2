import MailSieve.Proofs.Forward.Transcript

/-!
Dialogues played with a host that has a state: a relation says which answers an effect may have in it, and
what becomes of it. What every answer ensures holds of every play, also of one that is broken off because the
program is killed.
-/

namespace MailSieve.Forward

open Files Dialogue

/-- How a host with a state may answer: an effect, the state, the answer and the state after it. -/
abbrev Responds (σ : Type) : Type := (e : Effect) → σ → e.Answer → σ → Prop

/-- From the state `s` a dialogue may have these replies, end in this value and leave the state `t`. -/
def Played (R : Responds σ) : Dialogue α → σ → List Reply → α → σ → Prop
  | .done a, s, τ, b, t => τ = [] ∧ b = a ∧ t = s
  | .ask e next, s, τ, b, t =>
    ∃ a u ρ, R e s a u ∧ τ = ⟨e, a⟩ :: ρ ∧ Played R (next a) u ρ b t

/-- The states in which a dialogue may be killed, its end among them. A kill in the midst of an effect is one
right after an effect that failed half way. -/
inductive Passes (R : Responds σ) : Dialogue α → σ → σ → Prop
  | here : Passes R p s s
  | step {next : e.Answer → Dialogue α} {a : e.Answer} : R e s a t → Passes R (next a) t u →
    Passes R (.ask e next) s u

/-- Whatever the host answers, `inv` holds wherever a dialogue may be killed, and `post` at its end. -/
def Survives (R : Responds σ) (inv : σ → Prop) (post : α → σ → Prop) : Dialogue α → σ → Prop
  | .done a, s => inv s ∧ post a s
  | .ask e next, s => inv s ∧ ∀ a t, R e s a t → Survives R inv post (next a) t

/-- Whatever the host answers, a dialogue that starts from the state ends with `post`. -/
abbrev Ensures (R : Responds σ) (post : α → σ → Prop) : Dialogue α → σ → Prop :=
  Survives R (fun _ => True) post

variable {R : Responds σ} {inv : σ → Prop} {s t : σ} {τ : List Reply}

theorem played_bind {p : Dialogue α} {f : α → Dialogue β} {b : β} :
    Played R (p >>= f) s τ b t ↔
      ∃ a u σ ρ, Played R p s σ a u ∧ Played R (f a) u ρ b t ∧ τ = σ ++ ρ := by
  induction p generalizing s τ with
  | done a =>
    constructor
    · intro h
      exact ⟨a, s, [], τ, ⟨rfl, rfl, rfl⟩, h, rfl⟩
    · rintro ⟨_, _, _, ρ, ⟨rfl, rfl, rfl⟩, h, rfl⟩
      exact h
  | ask e next ih =>
    constructor
    · rintro ⟨a, u, _, hR, rfl, h⟩
      obtain ⟨c, v, σ, ρ, hσ, hρ, rfl⟩ := (ih a).1 h
      exact ⟨c, v, _ :: σ, ρ, ⟨a, u, σ, hR, rfl, hσ⟩, hρ, rfl⟩
    · rintro ⟨c, v, _, ρ, ⟨a, u, σ, hR, rfl, hσ⟩, hρ, rfl⟩
      exact ⟨a, u, σ ++ ρ, hR, rfl, (ih a).2 ⟨c, v, σ, ρ, hσ, hρ, rfl⟩⟩

/-- An action that fails ends the pass; else the rest starts from what it leaves. -/
theorem played_pass_bind {x : Pass Dialogue α} {f : α → Pass Dialogue β} {l l' : Ledger}
    {r : Except Failure β} :
    Played R ((x >>= f).run.run l) s τ (r, l') t ↔
      (∃ e, Played R (x.run.run l) s τ (.error e, l') t ∧ r = .error e) ∨
      ∃ a m u σ ρ, Played R (x.run.run l) s σ (.ok a, m) u ∧
        Played R ((f a).run.run m) u ρ (r, l') t ∧ τ = σ ++ ρ := by
  change Played R (x.run.run l >>= _) s τ (r, l') t ↔ _
  rw [played_bind]
  constructor
  · rintro ⟨⟨x, m⟩, u, σ, ρ, hσ, hρ, rfl⟩
    cases x with
    | ok a => exact .inr ⟨a, m, u, σ, ρ, hσ, hρ, rfl⟩
    | error e =>
      obtain ⟨rfl, ⟨⟩, rfl⟩ := hρ
      rw [List.append_nil]
      exact .inl ⟨e, hσ, rfl⟩
  · rintro (⟨e, h, rfl⟩ | ⟨a, m, u, σ, ρ, hσ, hρ, rfl⟩)
    · exact ⟨(.error e, l'), t, τ, [], h, ⟨rfl, rfl, rfl⟩, (List.append_nil τ).symm⟩
    · exact ⟨(.ok a, m), u, σ, ρ, hσ, hρ, rfl⟩

theorem played_pass_map {x : Pass Dialogue α} {g : α → β} {l l' : Ledger} {r : Except Failure β} :
    Played R ((g <$> x).run.run l) s τ (r, l') t ↔
      ∃ r', Played R (x.run.run l) s τ (r', l') t ∧ r = r'.map g := by
  rw [map_eq_pure_bind, played_pass_bind]
  constructor
  · rintro (⟨e, h, rfl⟩ | ⟨a, _, _, σ, _, h, ⟨rfl, ⟨⟩, rfl⟩, rfl⟩)
    · exact ⟨_, h, rfl⟩
    · rw [List.append_nil]
      exact ⟨_, h, rfl⟩
  · rintro ⟨e | a, h, rfl⟩
    · exact .inl ⟨e, h, rfl⟩
    · exact .inr ⟨a, l', t, τ, [], h, ⟨rfl, rfl, rfl⟩, (List.append_nil τ).symm⟩

/-- A host that would give the same replies has the same play. -/
theorem Played.congr {R' : Responds σ} {p : Dialogue α} {a : α} (hp : Played R p s τ a t)
    (h : ∀ r ∈ τ, ∀ u v, R r.effect u r.answer v → R' r.effect u r.answer v) :
    Played R' p s τ a t := by
  induction p generalizing s τ with
  | done b => exact hp
  | ask e next ih =>
    obtain ⟨b, u, ρ, hR, rfl, hp⟩ := hp
    obtain ⟨hhead, hrest⟩ := List.forall_mem_cons.1 h
    exact ⟨b, u, ρ, hhead _ _ hR, rfl, ih b hp hrest⟩

/-- Whether a reply is one to a line for the log. -/
def Reply.isLog : Reply → Bool
  | ⟨.log _, _⟩ => true
  | _ => false

/-- What is so of lines for the log and of all other replies is so of all. -/
theorem forall_mem_of_filter {Q : Reply → Prop} (hlog : ∀ line a, Q ⟨.log line, a⟩)
    (h : ∀ r ∈ τ.filter (!·.isLog), Q r) : ∀ r ∈ τ, Q r := by
  rintro ⟨e, a⟩ hr
  cases e with
  | log line => exact hlog line a
  | _ => exact h _ (List.mem_filter.2 ⟨hr, rfl⟩)

/-- Of a play, the transcript has all but the log. -/
theorem Played.says {p : Dialogue α} {a : α} (hp : Played R p s τ a t) :
    Says p (τ.filter (!·.isLog)) a := by
  induction p generalizing s τ with
  | done b =>
    obtain ⟨rfl, rfl, -⟩ := hp
    exact ⟨rfl, rfl⟩
  | ask e next ih =>
    obtain ⟨b, u, ρ, -, rfl, hp⟩ := hp
    have hrest := ih b hp
    cases e with
    | log line => exact hrest
    | _ => exact ⟨b, _, rfl, hrest⟩

theorem Survives.start {post : α → σ → Prop} {p : Dialogue α} (h : Survives R inv post p s) : inv s := by
  cases p with
  | done a => exact h.1
  | ask e next => exact h.1

theorem Survives.passes {post : α → σ → Prop} {p : Dialogue α} (h : Survives R inv post p s)
    (hp : Passes R p s t) : inv t := by
  induction hp with
  | here => exact h.start
  | step hR _ ih => exact ih (h.2 _ _ hR)

theorem Survives.of_played {post : α → σ → Prop} {p : Dialogue α} {a : α} (h : Survives R inv post p s)
    (hp : Played R p s τ a t) : post a t := by
  induction p generalizing s τ with
  | done b =>
    obtain ⟨-, rfl, rfl⟩ := hp
    exact h.2
  | ask e next ih =>
    obtain ⟨b, u, ρ, hR, -, hp⟩ := hp
    exact ih b (h.2 b u hR) hp

theorem Survives.bind {post : β → σ → Prop} {P : α → σ → Prop} {p : Dialogue α} {f : α → Dialogue β}
    (h : Survives R inv P p s) (hf : ∀ a t, inv t → P a t → Survives R inv post (f a) t) :
    Survives R inv post (p >>= f) s := by
  induction p generalizing s with
  | done a => exact hf a s h.1 h.2
  | ask e next ih => exact ⟨h.1, fun a t hR => ih a (h.2 a t hR)⟩

theorem Survives.mono {P Q : α → σ → Prop} {p : Dialogue α} (h : Survives R inv P p s)
    (hpq : ∀ a t, P a t → Q a t) : Survives R inv Q p s := by
  induction p generalizing s with
  | done a => exact ⟨h.1, hpq a s h.2⟩
  | ask e next ih => exact ⟨h.1, fun a t hR => ih a (h.2 a t hR)⟩

theorem Ensures.bind {post : β → σ → Prop} {P : α → σ → Prop} {p : Dialogue α} {f : α → Dialogue β}
    (h : Ensures R P p s) (hf : ∀ a t, P a t → Ensures R post (f a) t) : Ensures R post (p >>= f) s :=
  Survives.bind h fun a t _ => hf a t

theorem Ensures.done {post : α → σ → Prop} {a : α} (h : post a s) : Ensures R post (.done a) s :=
  ⟨trivial, h⟩

theorem Ensures.ask {post : α → σ → Prop} {e : Effect} {next : e.Answer → Dialogue α}
    (h : ∀ a t, R e s a t → Ensures R post (next a) t) : Ensures R post (.ask e next) s :=
  ⟨trivial, h⟩

/-- A play in which each reply is such is a play with a host that answers so. -/
theorem played_and {Q : Reply → Prop} {p : Dialogue α} {a : α} :
    Played (fun e s a t => R e s a t ∧ Q ⟨e, a⟩) p s τ a t ↔ Played R p s τ a t ∧ ∀ r ∈ τ, Q r := by
  induction p generalizing s τ with
  | done b =>
    constructor
    · rintro ⟨rfl, rfl, rfl⟩
      exact ⟨⟨rfl, rfl, rfl⟩, fun r hr => nomatch hr⟩
    · exact fun h => h.1
  | ask e next ih =>
    constructor
    · rintro ⟨b, u, ρ, ⟨hR, hQ⟩, rfl, hp⟩
      obtain ⟨hp, hall⟩ := (ih b).1 hp
      exact ⟨⟨b, u, ρ, hR, rfl, hp⟩, List.forall_mem_cons.2 ⟨hQ, hall⟩⟩
    · rintro ⟨⟨b, u, ρ, hR, rfl, hp⟩, hall⟩
      obtain ⟨hQ, hall⟩ := List.forall_mem_cons.1 hall
      exact ⟨b, u, ρ, ⟨hR, hQ⟩, rfl, (ih b).2 ⟨hp, hall⟩⟩

/-- A dialogue can be played to an end where `post` holds. -/
def Reaches (R : Responds σ) (post : σ → Prop) (p : Dialogue α) (s : σ) : Prop :=
  ∃ τ a t, Played R p s τ a t ∧ post t

theorem Reaches.done {post : σ → Prop} {a : α} (h : post s) : Reaches R post (.done a) s :=
  ⟨[], a, s, ⟨rfl, rfl, rfl⟩, h⟩

theorem Reaches.step {post : σ → Prop} {e : Effect} {next : e.Answer → Dialogue α} (a : e.Answer)
    (hR : R e s a t) (h : Reaches R post (next a) t) : Reaches R post (.ask e next) s := by
  obtain ⟨τ, b, u, hp, hpost⟩ := h
  exact ⟨⟨e, a⟩ :: τ, b, u, ⟨a, t, τ, hR, rfl, hp⟩, hpost⟩

/-- A host that has an answer to everything can play any dialogue to its end. -/
theorem Reaches.of_answers (hR : ∀ e s, ∃ a t, R e s a t) (p : Dialogue α) (s : σ) :
    Reaches R (fun _ => True) p s := by
  induction p generalizing s with
  | done a => exact .done trivial
  | ask e next ih =>
    obtain ⟨a, t, ha⟩ := hR e s
    exact .step a ha (ih a t)

end MailSieve.Forward
