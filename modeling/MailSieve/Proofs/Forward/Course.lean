import MailSieve.Proofs.Forward.Transcript

/-!
Courses: the replies to an action when nothing fails. Whatever the answers are, an action keeps to one of
its courses up to the first effect that fails, and ends with that failure.
-/

namespace MailSieve.Forward

open Files MailSieve.Filter Dialogue

/-- The replies are those of a course up to an effect that fails instead. -/
def Breaks : List Reply → List Reply → Failure → Prop
  | [], _, _ => False
  | s :: course, τ, f =>
    (∃ a, τ = [⟨s.effect, a⟩] ∧ Reply.failure? ⟨s.effect, a⟩ = some f) ∨
      ∃ σ, τ = s :: σ ∧ Breaks course σ f

/-- The replies are those of a course that ends in `a`, or break off. -/
def Follows (course : List Reply) (a : α) (τ : List Reply) (r : Except Failure α) : Prop :=
  (τ = course ∧ r = .ok a) ∨ ∃ f, Breaks course τ f ∧ r = .error f

theorem breaks_append {c d τ : List Reply} {f : Failure} :
    Breaks (c ++ d) τ f ↔ Breaks c τ f ∨ ∃ σ, τ = c ++ σ ∧ Breaks d σ f := by
  induction c generalizing τ with
  | nil => simp [Breaks]
  | cons s c ih =>
    simp only [List.cons_append, Breaks, ih]
    constructor
    · rintro (h | ⟨σ, rfl, h | ⟨ρ, rfl, h⟩⟩)
      · exact .inl (.inl h)
      · exact .inl (.inr ⟨σ, rfl, h⟩)
      · exact .inr ⟨ρ, rfl, h⟩
    · rintro ((h | ⟨σ, rfl, h⟩) | ⟨ρ, rfl, h⟩)
      · exact .inl h
      · exact .inr ⟨σ, rfl, .inl h⟩
      · exact .inr ⟨_, rfl, .inr ⟨ρ, rfl, h⟩⟩

/-- Whatever breaks off does so with a reply that is a failure. -/
theorem Breaks.exists_failure {c τ : List Reply} {f : Failure} (h : Breaks c τ f) :
    ∃ s ∈ τ, s.failure? = some f := by
  induction c generalizing τ with
  | nil => cases h
  | cons s c ih =>
    obtain ⟨a, rfl, ha⟩ | ⟨σ, rfl, h⟩ := h
    · exact ⟨_, .head _, ha⟩
    · obtain ⟨t, ht, hf⟩ := ih h
      exact ⟨t, .tail _ ht, hf⟩

theorem follows_append {c d τ : List Reply} {b : β} {r : Except Failure β} :
    Follows (c ++ d) b τ r ↔
      (∃ f, Breaks c τ f ∧ r = .error f) ∨ ∃ σ, τ = c ++ σ ∧ Follows d b σ r := by
  simp only [Follows, breaks_append]
  grind

@[simp] theorem follows_ok {c τ : List Reply} {a b : α} :
    Follows c a τ (.ok b) ↔ τ = c ∧ b = a := by
  simp [Follows]

@[simp] theorem follows_error {c τ : List Reply} {a : α} {f : Failure} :
    Follows c a τ (.error f) ↔ Breaks c τ f := by
  simp [Follows]

/-- The courses of an action that starts from the ledger `l` and leaves the ledger `m`, in any case. -/
structure Goes (x : Pass Dialogue α) (l m : Ledger) (C : List Reply → α → Prop) : Prop where
  inhabited : ∃ c a, C c a
  performs : ∀ τ r l', Performs x l τ r l' ↔ l' = m ∧ ∃ c a, C c a ∧ Follows c a τ r

variable {l m : Ledger}

theorem Goes.congr {x : Pass Dialogue α} {C D : List Reply → α → Prop} (h : Goes x l m C)
    (hCD : ∀ c a, C c a ↔ D c a) : Goes x l m D := by
  have hC : C = D := by
    funext c a
    exact propext (hCD c a)
  exact hC ▸ h

theorem Goes.bind {x : Pass Dialogue α} {f : α → Pass Dialogue β} {C : List Reply → α → Prop}
    {D : α → List Reply → β → Prop} (hx : Goes x l m C) (hf : ∀ a, Goes (f a) m m (D a)) :
    Goes (x >>= f) l m fun c b => ∃ a c₁ c₂, C c₁ a ∧ D a c₂ b ∧ c = c₁ ++ c₂ where
  inhabited := by
    obtain ⟨c₁, a, hc₁⟩ := hx.inhabited
    obtain ⟨c₂, b, hc₂⟩ := (hf a).inhabited
    exact ⟨_, b, a, c₁, c₂, hc₁, hc₂, rfl⟩
  performs τ r l' := by
    rw [performs_bind]
    constructor
    · rintro (⟨e, h, rfl⟩ | ⟨a, n, σ, ρ, hσ, hρ, rfl⟩)
      · obtain ⟨rfl, c₁, a, hc₁, hb⟩ := (hx.performs _ _ _).1 h
        obtain ⟨c₂, b, hc₂⟩ := (hf a).inhabited
        refine ⟨rfl, _, b, ⟨a, c₁, c₂, hc₁, hc₂, rfl⟩, follows_append.2 (.inl ?_)⟩
        exact ⟨e, follows_error.1 hb, rfl⟩
      · obtain ⟨rfl, c₁, a, hc₁, hb⟩ := (hx.performs _ _ _).1 hσ
        obtain ⟨rfl, rfl⟩ := follows_ok.1 hb
        obtain ⟨rfl, c₂, b, hc₂, hb⟩ := ((hf _).performs _ _ _).1 hρ
        exact ⟨rfl, _, b, ⟨_, _, c₂, hc₁, hc₂, rfl⟩, follows_append.2 (.inr ⟨ρ, rfl, hb⟩)⟩
    · rintro ⟨rfl, _, b, ⟨a, c₁, c₂, hc₁, hc₂, rfl⟩, h⟩
      obtain ⟨e, hb, rfl⟩ | ⟨ρ, rfl, hb⟩ := follows_append.1 h
      · exact .inl ⟨e, (hx.performs _ _ _).2 ⟨rfl, c₁, a, hc₁, follows_error.2 hb⟩, rfl⟩
      · refine .inr ⟨a, l', c₁, ρ, ?_, ?_, rfl⟩
        · exact (hx.performs _ _ _).2 ⟨rfl, c₁, a, hc₁, follows_ok.2 ⟨rfl, rfl⟩⟩
        · exact ((hf a).performs _ _ _).2 ⟨rfl, c₂, b, hc₂, hb⟩

theorem goes_pure (a : α) : Goes (pure a) l l fun c b => c = [] ∧ b = a where
  inhabited := ⟨[], a, rfl, rfl⟩
  performs τ r l' := by
    rw [performs_pure]
    constructor
    · rintro ⟨rfl, rfl, rfl⟩
      exact ⟨rfl, [], a, ⟨rfl, rfl⟩, .inl ⟨rfl, rfl⟩⟩
    · rintro ⟨rfl, _, _, ⟨rfl, rfl⟩, ⟨rfl, rfl⟩ | ⟨_, h, _⟩⟩
      · exact ⟨rfl, rfl, rfl⟩
      · cases h

theorem goes_log (line : Log.Line) : Goes (call (log line)) l l fun c _ => c = [] where
  inhabited := ⟨[], (), rfl⟩
  performs τ r l' := by
    rw [performs_log, ← performs_pure]
    exact ((goes_pure ()).congr fun _ _ => and_iff_left rfl).performs τ r l'

instance : (c : Mailbox.Call) → Nonempty (Result c)
  | .unseen => ⟨([] : List String)⟩
  | .fetch _ => ⟨([] : Bytes)⟩
  | .received _ => ⟨(0 : Date)⟩
  | .markSeen _ | .append _ => ⟨()⟩

theorem goes_mail (side : Side) (c : Mailbox.Call) :
    Goes (call (.mk (.ask (.mail side c) .done))) l l fun d a => d = [⟨.mail side c, .ok a⟩] where
  inhabited := ⟨_, Classical.ofNonempty, rfl⟩
  performs τ r l' := by
    rw [performs_mail]
    constructor
    · rintro ⟨rfl, rfl⟩
      cases r with
      | ok a => exact ⟨rfl, _, a, rfl, .inl ⟨rfl, rfl⟩⟩
      | error f =>
        exact ⟨rfl, _, Classical.ofNonempty, rfl, .inr ⟨f, .inl ⟨.error f, rfl, rfl⟩, rfl⟩⟩
    · rintro ⟨rfl, _, a, rfl, ⟨rfl, rfl⟩ | ⟨f, ⟨b, rfl, hf⟩ | ⟨_, _, h⟩, rfl⟩⟩
      · exact ⟨rfl, rfl⟩
      · cases b with
        | ok b => cases hf
        | error g =>
          cases hf
          exact ⟨rfl, rfl⟩
      · cases h

/-- The course of saving a ledger: the draft is written, then it takes the place of the file. -/
def saving (l : Ledger) : List Reply :=
  [⟨.write l.draft l.bytes, .ok ()⟩, ⟨.rename l.draft l.path, .ok ()⟩]

theorem says_save {τ : List Reply} {r : Except Failure Unit} :
    Says l.save.run τ r ↔ Follows (saving l) () τ r := by
  constructor
  · rintro ⟨a, _, rfl, h⟩
    cases a with
    | error e =>
      obtain ⟨rfl, rfl⟩ := h
      exact .inr ⟨_, .inl ⟨.error e, rfl, rfl⟩, rfl⟩
    | ok a =>
      obtain ⟨b, _, rfl, h⟩ := h
      cases b with
      | error e =>
        obtain ⟨rfl, rfl⟩ := h
        exact .inr ⟨_, .inr ⟨_, rfl, .inl ⟨.error e, rfl, rfl⟩⟩, rfl⟩
      | ok b =>
        obtain ⟨rfl, rfl⟩ := h
        exact .inl ⟨rfl, rfl⟩
  · rintro (⟨rfl, rfl⟩ | ⟨f, ⟨a, rfl, hf⟩ | ⟨_, rfl, ⟨a, rfl, hf⟩ | ⟨_, _, h⟩⟩, rfl⟩)
    · exact ⟨.ok (), _, rfl, .ok (), _, rfl, rfl, rfl⟩
    · cases a with
      | ok a => cases hf
      | error e =>
        cases hf
        exact ⟨.error e, _, rfl, rfl, rfl⟩
    · cases a with
      | ok a => cases hf
      | error e =>
        cases hf
        exact ⟨.ok (), _, rfl, .error e, _, rfl, rfl, rfl⟩
    · cases h

theorem goes_enter (id : String) :
    Goes (enter id) l (l.insert id) fun c _ => c = saving (l.insert id) where
  inhabited := ⟨_, (), rfl⟩
  performs τ r l' := by
    change Says ((l.insert id).save.run >>= fun r => .done (r, l.insert id)) τ (r, l') ↔ _
    rw [says_bind]
    constructor
    · rintro ⟨r, σ, _, h, ⟨rfl, e⟩, rfl⟩
      cases e
      rw [List.append_nil]
      exact ⟨rfl, _, (), rfl, says_save.1 h⟩
    · rintro ⟨rfl, _, _, rfl, h⟩
      exact ⟨r, τ, [], says_save.2 h, ⟨rfl, rfl⟩, (List.append_nil τ).symm⟩

end MailSieve.Forward
