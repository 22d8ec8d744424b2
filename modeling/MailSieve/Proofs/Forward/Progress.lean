import MailSieve.Proofs.Forward.Account
import MailSieve.Proofs.Forward.Play
import MailSieve.Proofs.Forward.Recording

/-!
How far a pass gets: the messages that are handled to the end, the one at which it breaks off or is killed,
and the rest, for which nothing is done.
-/

namespace MailSieve.Ledger

theorem mem_insert {l : Ledger} {i id : String} : i ∈ l.insert id ↔ i = id ∨ i ∈ l := TextSet.mem_insert

end MailSieve.Ledger

namespace MailSieve.Forward

open Files Dialogue

/-- The effect is one that the course of a message with this identifier asks for. -/
def Serves (filter : Option Script.Program) (id : String) (e : Effect) : Prop :=
  ∃ l date message, ∃ s ∈ handling filter l id date message, s.effect = e

/-- The effect is a call that gives the identifier. -/
def Effect.Names (e : Effect) (id : String) : Prop :=
  e = .mail .source (.received id) ∨ e = .mail .source (.fetch id) ∨ e = .mail .source (.markSeen id)

/-- A message was recorded, copied or discarded, and marked seen. -/
def Completed (filter : Option Script.Program) (id : String) (τ : List Reply) : Prop :=
  ∃ l date message, handling filter l id date message <:+: τ

/-- A file with the identifier was to be written. -/
def Wrote (τ : List Reply) (id : String) : Prop :=
  ∃ s ∈ τ, ∃ p content, s.effect = .write p content ∧ Records (some content) id

variable {filter : Option Script.Program} {l l' m : Ledger} {ids : List String} {σ τ π ρ : List Reply}
  {i id : String} {date : Date} {message : Bytes} {outcomes : List Outcome}
  {r : Except Failure (List Outcome)} {f : Failure} {e : Effect}

theorem Serves.ne_unseen (h : Serves filter id e) : e ≠ .mail .source .unseen := by
  obtain ⟨l, date, message, s, hs, rfl⟩ := h
  revert s
  simp only [handling, saving, delivering, copying]
  split <;> simp

theorem Serves.eq_of_names (h : Serves filter id e) (hi : e.Names i) : i = id := by
  obtain ⟨l, date, message, s, hs, rfl⟩ := h
  revert s
  simp only [handling, saving, delivering, copying, Effect.Names]
  split <;> simp [eq_comm]

/-- What breaks off has asked for the first effects of the course, at least for one. -/
theorem Breaks.effects {c : List Reply} (h : Breaks c π f) :
    π ≠ [] ∧ π.map Reply.effect <+: c.map Reply.effect := by
  obtain ⟨σ, s, a, hσ, rfl⟩ := h.exists_prefix
  refine ⟨by simp, ?_⟩
  have hmap := hσ.map Reply.effect
  rwa [List.map_append] at hmap ⊢

theorem Breaks.exists_effect {c : List Reply} (h : Breaks c π f) {s : Reply} (hs : s ∈ π) :
    ∃ t ∈ c, t.effect = s.effect :=
  List.mem_map.1 (h.effects.2.subset (List.mem_map_of_mem hs))

/-- Every effect serves a listed message that is not in the ledger. -/
theorem Handles.serves (h : Handles filter l ids τ r l') {s : Reply} (hs : s ∈ τ) :
    ∃ i ∈ ids, i ∉ l ∧ Serves filter i s.effect := by
  induction h with
  | nil => cases hs
  | duplicate _ _ ih =>
    obtain ⟨i, hi, hl, hserves⟩ := ih hs
    exact ⟨i, .tail _ hi, hl, hserves⟩
  | @handled l _ _ _ _ id date message hid _ ih =>
    obtain hs | hs := List.mem_append.1 hs
    · exact ⟨id, .head _, hid, l, date, message, s, hs, rfl⟩
    · obtain ⟨i, hi, hl, hserves⟩ := ih hs
      exact ⟨i, .tail _ hi, fun h => hl (Ledger.mem_insert.2 (.inr h)), hserves⟩
  | @broken l _ _ _ id date message hid hb =>
    obtain ⟨t, ht, he⟩ := hb.exists_effect hs
    exact ⟨id, .head _, hid, l, date, message, t, ht, he⟩

theorem wrote_append : Wrote (σ ++ τ) i ↔ Wrote σ i ∨ Wrote τ i := by
  simp only [Wrote, List.mem_append, or_and_right, exists_or]

theorem Wrote.mono (h : Wrote σ i) (hσ : ∀ s ∈ σ, ∃ t ∈ τ, t.effect = s.effect) : Wrote τ i := by
  obtain ⟨s, hs, p, content, he, hi⟩ := h
  obtain ⟨t, ht, hte⟩ := hσ s hs
  exact ⟨t, ht, p, content, hte.trans he, hi⟩

theorem wrote_handling : Wrote (handling filter l id date message) i ↔ i ∈ l.insert id := by
  rw [← records_bytes]
  simp only [Wrote, handling, saving, delivering, copying]
  split <;> simp

/-- The write comes first, so what breaks off has it. -/
theorem wrote_of_breaks (h : Breaks (handling filter l id date message) π f) :
    Wrote π i ↔ i ∈ l.insert id := by
  constructor
  · intro hi
    exact wrote_handling.1 (hi.mono fun s hs => h.exists_effect hs)
  · intro hi
    obtain ⟨hne, hprefix⟩ := h.effects
    cases π with
    | nil => exact absurd rfl hne
    | cons s π =>
      exact ⟨s, .head _, _, _, (List.cons_prefix_cons.1 hprefix).1, records_bytes.2 hi⟩

/-- The ledger that is left has the identifiers that it had and those that were to be written. -/
theorem Handles.mem_iff (h : Handles filter l ids τ r l') : i ∈ l' ↔ i ∈ l ∨ Wrote τ i := by
  induction h with
  | nil => simp [Wrote]
  | duplicate _ _ ih => exact ih
  | handled date message _ _ ih =>
    rw [ih, wrote_append, wrote_handling, Ledger.mem_insert]
    tauto
  | broken date message _ hb =>
    rw [wrote_of_breaks hb, Ledger.mem_insert]
    tauto

theorem wrote_unseen_cons {a : Except Failure (List String)} :
    Wrote (⟨.mail .source .unseen, a⟩ :: τ) i ↔ Wrote τ i := by
  simp [Wrote]

theorem mem_iff_of_performs {r : Except Failure Stats}
    (h : Performs (forwardUnseen (mailbox .source) (mailbox .destination) filter) l τ r l') :
    i ∈ l' ↔ i ∈ l ∨ Wrote τ i := by
  obtain ⟨o, ho, -⟩ := (performs_forwardUnseen r).1 h
  cases ho with
  | unlisted => simp [Wrote]
  | listed ho => exact ho.mem_iff.trans (or_congr_right wrote_unseen_cons.symm)

theorem Completed.mono (h : Completed filter id σ) (hσ : σ <:+: τ) : Completed filter id τ := by
  obtain ⟨l, date, message, h⟩ := h
  exact ⟨l, date, message, h.trans hσ⟩

/-- Induction over messages that are all handled to the end. -/
theorem Handles.ok_rec
    {motive : ∀ {l l' ids τ outcomes}, Handles filter l ids τ (.ok outcomes) l' → Prop}
    (nil : ∀ l, motive (.nil : Handles filter l [] [] (.ok []) l))
    (duplicate : ∀ {l ids τ outcomes l' id} (hid : id ∈ l) (h : Handles filter l ids τ (.ok outcomes) l'),
      motive h →
        motive (.duplicate hid h : Handles filter l (id :: ids) τ (.ok (.duplicate :: outcomes)) l'))
    (handled : ∀ {l ids τ outcomes l' id} (date : Date) (message : Bytes) (hid : id ∉ l)
      (h : Handles filter (l.insert id) ids τ (.ok outcomes) l'),
      motive h →
        motive (.handled date message hid h : Handles filter l (id :: ids)
          (handling filter l id date message ++ τ) (.ok (fate filter message :: outcomes)) l'))
    (h : Handles filter l ids τ (.ok outcomes) l') : motive h := by
  suffices ∀ {r} (h : Handles filter l ids τ r l') outcomes (hr : r = .ok outcomes), motive (hr ▸ h) from
    this h outcomes rfl
  clear h
  intro r h
  induction h with
  | nil =>
    rintro _ ⟨⟩
    exact nil _
  | @duplicate _ _ _ r _ _ hid h ih =>
    cases r with
    | error f => rintro _ ⟨⟩
    | ok os =>
      rintro _ ⟨⟩
      exact duplicate hid h (ih os rfl)
  | @handled _ _ _ r _ _ date message hid h ih =>
    cases r with
    | error f => rintro _ ⟨⟩
    | ok os =>
      rintro _ ⟨⟩
      exact handled date message hid h (ih os rfl)
  | broken => rintro _ ⟨⟩

/-- When all went well, every listed identifier is in the ledger, and was before or is now completed. -/
theorem Handles.of_ok (h : Handles filter l ids τ (.ok outcomes) l') :
    (∀ i, i ∈ l' ↔ i ∈ l ∨ i ∈ ids) ∧ ∀ i ∈ ids, i ∈ l ∨ Completed filter i τ := by
  induction h using Handles.ok_rec with
  | nil => simp
  | @duplicate l _ _ _ _ id hid _ ih =>
    obtain ⟨hmem, hdone⟩ := ih
    refine ⟨fun i => ?_, List.forall_mem_cons.2 ⟨.inl hid, hdone⟩⟩
    have hi : i = id → i ∈ l := fun h => h ▸ hid
    rw [hmem, List.mem_cons]
    tauto
  | @handled l _ τ _ _ id date message _ _ ih =>
    obtain ⟨hmem, hdone⟩ := ih
    have hid : Completed filter id (handling filter l id date message ++ τ) :=
      ⟨l, date, message, List.infix_append [] _ τ⟩
    refine ⟨fun i => ?_, List.forall_mem_cons.2 ⟨.inr hid, fun i hi => ?_⟩⟩
    · rw [hmem, Ledger.mem_insert, List.mem_cons]
      tauto
    · obtain hi | hi := hdone i hi
      · obtain rfl | hi := Ledger.mem_insert.1 hi
        · exact .inr hid
        · exact .inl hi
      · exact .inr (hi.mono (List.suffix_append _ τ).isInfix)

/-- Of listed messages, those `before` are handled to the end, and the next is not in the ledger `m` that this
leaves. -/
structure ComesTo (filter : Option Script.Program) (l : Ledger) (ids before : List String) (id : String)
    (after : List String) (σ : List Reply) (m : Ledger) : Prop where
  listed : ids = before ++ id :: after
  done : ∃ outcomes, Handles filter l before σ (.ok outcomes) m
  fresh : id ∉ m

theorem ComesTo.start (hid : id ∉ l) : ComesTo filter l (id :: ids) [] id ids [] l :=
  ⟨rfl, ⟨[], .nil⟩, hid⟩

theorem ComesTo.duplicate {before after : List String} (hi : i ∈ l)
    (h : ComesTo filter l ids before id after σ m) :
    ComesTo filter l (i :: ids) (i :: before) id after σ m := by
  obtain ⟨rfl, ⟨outcomes, hdone⟩, hid⟩ := h
  exact ⟨rfl, ⟨_, .duplicate hi hdone⟩, hid⟩

theorem ComesTo.handled {before after : List String} (date : Date) (message : Bytes) (hi : i ∉ l)
    (h : ComesTo filter (l.insert i) ids before id after σ m) :
    ComesTo filter l (i :: ids) (i :: before) id after (handling filter l i date message ++ σ) m := by
  obtain ⟨rfl, ⟨outcomes, hdone⟩, hid⟩ := h
  exact ⟨rfl, ⟨_, .handled date message hi hdone⟩, hid⟩

/-- Handling that fails breaks off at one of the messages. -/
theorem Handles.of_error (h : Handles filter l ids τ (.error f) l') :
    ∃ before id after σ m π date message, ComesTo filter l ids before id after σ m ∧ τ = σ ++ π ∧
      Breaks (handling filter m id date message) π f ∧ l' = m.insert id := by
  generalize hr : Except.error f = r at h
  induction h with
  | nil => cases hr
  | @duplicate _ _ _ r _ _ hi _ ih =>
    cases r with
    | ok outcomes => cases hr
    | error g =>
      obtain ⟨before, id, after, σ, m, π, date, message, hcomes, hτ, hb⟩ := ih hr
      exact ⟨_, id, after, σ, m, π, date, message, hcomes.duplicate hi, hτ, hb⟩
  | @handled _ _ _ r _ _ d b hi _ ih =>
    cases r with
    | ok outcomes => cases hr
    | error g =>
      obtain ⟨before, id, after, σ, m, π, date, message, hcomes, rfl, hb⟩ := ih hr
      exact ⟨_, id, after, _, m, π, date, message, hcomes.handled d b hi, (List.append_assoc ..).symm, hb⟩
  | @broken l τ _ ids id date message hid hb =>
    cases hr
    exact ⟨[], id, ids, [], l, τ, date, message, .start hid, rfl, hb, rfl⟩

/-- The calls for one message, as far as they get before one fails or the program is killed. -/
def Attempts (filter : Option Script.Program) (l : Ledger) (id : String) (π : List Reply) : Prop :=
  ∃ date message, π <+: handling filter l id date message ∨
    ∃ f, Breaks (handling filter l id date message) π f

theorem Breaks.attempts (h : Breaks (handling filter l id date message) (π ++ ρ) f) :
    Attempts filter l id π := by
  refine ⟨date, message, ?_⟩
  obtain rfl | ⟨ρ, s, rfl⟩ := List.eq_nil_or_concat ρ
  · rw [List.append_nil] at h
    exact .inr ⟨f, h⟩
  · -- only the last reply is not of the course, and it is not among the first
    obtain ⟨σ, t, a, hσ, hπ⟩ := h.exists_prefix
    rw [List.concat_eq_append, ← List.append_assoc] at hπ
    obtain ⟨rfl, -⟩ := List.append_inj' hπ rfl
    exact .inl ((List.prefix_append π ρ).trans ((List.prefix_append _ _).trans hσ))

/-- However far handling gets, all messages are handled to the end, or it comes to one and begins it. -/
theorem Handles.of_append (h : Handles filter l ids (τ ++ ρ) r l') :
    (∃ outcomes m, Handles filter l ids τ (.ok outcomes) m) ∨
      ∃ before id after σ m π, ComesTo filter l ids before id after σ m ∧ τ = σ ++ π ∧
        Attempts filter m id π := by
  generalize hτ : τ ++ ρ = θ at h
  induction h generalizing τ with
  | @nil l =>
    obtain ⟨rfl, -⟩ := List.append_eq_nil_iff.1 hτ
    exact .inl ⟨[], l, .nil⟩
  | duplicate hi _ ih =>
    obtain ⟨outcomes, m, hdone⟩ | ⟨before, id, after, σ, m, π, hcomes, hπ⟩ := ih hτ
    · exact .inl ⟨_, m, .duplicate hi hdone⟩
    · exact .inr ⟨_, id, after, σ, m, π, hcomes.duplicate hi, hπ⟩
  | @handled l ids _ _ _ i date message hi _ ih =>
    -- the replies end within the course of this message, or go on beyond it
    obtain ⟨κ, hc, -⟩ | ⟨κ, rfl, hκ⟩ := List.append_eq_append_iff.1 hτ
    · exact .inr ⟨[], i, ids, [], l, τ, .start hi, rfl, date, message, .inl ⟨κ, hc.symm⟩⟩
    · obtain ⟨outcomes, m, hdone⟩ | ⟨before, id, after, σ, m, π, hcomes, rfl, hπ⟩ := ih hκ.symm
      · exact .inl ⟨_, m, .handled date message hi hdone⟩
      · exact .inr ⟨_, id, after, _, m, π, hcomes.handled date message hi, (List.append_assoc ..).symm, hπ⟩
  | @broken l _ _ ids id date message hid hb =>
    subst hτ
    exact .inr ⟨[], id, ids, [], l, τ, .start hid, rfl, hb.attempts⟩

/-- The replies with which a pass over these starts. -/
def opening (ids : List String) : List Reply :=
  [⟨.mail .source .unseen, .ok ids⟩,
    ⟨.log ⟨.info, .forward, s!"Found {ids.length} new messages"⟩, ()⟩]

/-- A pass asks for the listing and, if it gets one, says how long it is and handles what is on it. -/
theorem played_forwardUnseen {R : Responds α} {s t : α} {r : Except Failure Stats} :
    Played R ((forwardUnseen (mailbox .source) (mailbox .destination) filter).run.run l) s τ (r, l') t ↔
      (∃ f, R (.mail .source .unseen) s (.error f) t ∧ τ = [⟨.mail .source .unseen, .error f⟩] ∧
        r = .error f ∧ l' = l) ∨
      ∃ ids u v ρ, R (.mail .source .unseen) s (.ok ids) u ∧
        R (.log ⟨.info, .forward, s!"Found {ids.length} new messages"⟩) u () v ∧ τ = opening ids ++ ρ ∧
        Played R ((handleAll (mailbox .source) (mailbox .destination) filter .zero ids).run.run l) v ρ
          (r, l') t := by
  constructor
  · rintro ⟨f | ids, u, _, hunseen, rfl, h⟩
    · obtain ⟨rfl, ⟨⟩, rfl⟩ := h
      exact .inl ⟨f, hunseen, rfl, rfl, rfl⟩
    · obtain ⟨_, v, ρ, hlog, rfl, h⟩ := h
      exact .inr ⟨ids, u, v, ρ, hunseen, hlog, rfl, h⟩
  · rintro (⟨f, hunseen, rfl, rfl, rfl⟩ | ⟨ids, u, v, ρ, hunseen, hlog, rfl, h⟩)
    · exact ⟨.error f, t, [], hunseen, rfl, rfl, rfl, rfl⟩
    · exact ⟨.ok ids, u, _, hunseen, rfl, (), v, ρ, hlog, rfl, h⟩

end MailSieve.Forward
