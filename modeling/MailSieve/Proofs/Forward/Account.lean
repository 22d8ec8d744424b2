import Mathlib.Data.List.Induction
import MailSieve.Proofs.Forward.Conduct

/-!
Accounts of whole passes: what is done for every listed message, in order, up to the first effect that
fails, and what a pass may therefore mark seen.
-/

namespace MailSieve.Forward

open Files MailSieve.Filter Dialogue

/-- The replies and the outcomes of handling listed messages in order, and the ledger that is left. -/
inductive Handles (filter : Option Script.Program) :
    Ledger → List String → List Reply → Except Failure (List Outcome) → Ledger → Prop
  | nil : Handles filter l [] [] (.ok []) l
  | duplicate {id : String} : id ∈ l → Handles filter l ids τ r l' →
    Handles filter l (id :: ids) τ (r.map (.duplicate :: ·)) l'
  | handled {id : String} (date : Date) (message : Bytes) : id ∉ l →
    Handles filter (l.insert id) ids τ r l' →
    Handles filter l (id :: ids) (handling filter l id date message ++ τ)
      (r.map (fate filter message :: ·)) l'
  | broken {id : String} (date : Date) (message : Bytes) : id ∉ l →
    Breaks (handling filter l id date message) τ f →
    Handles filter l (id :: ids) τ (.error f) (l.insert id)

/-- The account of one pass over the messages that the source lists as unseen. -/
inductive Accounts (filter : Option Script.Program) :
    Ledger → List Reply → Except Failure (List Outcome) → Ledger → Prop
  | unlisted : Accounts filter l [⟨.mail .source .unseen, .error f⟩] (.error f) l
  | listed : Handles filter l ids τ r l' →
    Accounts filter l (⟨.mail .source .unseen, .ok ids⟩ :: τ) r l'

variable {filter : Option Script.Program} {l l' : Ledger} {τ : List Reply}

theorem map_tally_cons (stats : Stats) (outcome : Outcome) (o : Except Failure (List Outcome)) :
    (o.map (outcome :: ·)).map (·.foldl Stats.add stats) =
      o.map (·.foldl Stats.add (stats.add outcome)) := by
  cases o <;> rfl

theorem performs_handleAll (stats : Stats) (ids : List String) (r : Except Failure Stats) :
    Performs (handleAll (mailbox .source) (mailbox .destination) filter stats ids) l τ r l' ↔
      ∃ o, Handles filter l ids τ o l' ∧ r = o.map (·.foldl Stats.add stats) := by
  induction ids generalizing stats l τ with
  | nil =>
    rw [handleAll, performs_pure]
    constructor
    · rintro ⟨rfl, rfl, rfl⟩
      exact ⟨_, .nil, rfl⟩
    · rintro ⟨_, ⟨⟩, rfl⟩
      exact ⟨rfl, rfl, rfl⟩
  | cons id ids ih =>
    rw [handleAll, performs_bind]
    by_cases hid : id ∈ l
    · simp only [performs_handle_of_mem filter hid, ih]
      constructor
      · rintro (⟨e, ⟨_, ⟨⟩, _⟩, _⟩ | ⟨_, _, _, _, ⟨rfl, ⟨⟩, rfl⟩, ⟨o, ho, rfl⟩, rfl⟩)
        exact ⟨_, .duplicate hid ho, (map_tally_cons stats _ o).symm⟩
      · rintro ⟨_, ho, rfl⟩
        cases ho with
        | duplicate _ ho =>
          exact .inr ⟨_, l, [], τ, ⟨rfl, rfl, rfl⟩, ⟨_, ho, map_tally_cons ..⟩, rfl⟩
        | handled _ _ h => exact absurd hid h
        | broken _ _ h => exact absurd hid h
    · simp only [performs_handle_of_not_mem filter hid, ih, follows_ok, follows_error]
      constructor
      · rintro (⟨f, ⟨rfl, date, message, h⟩, rfl⟩ |
          ⟨_, _, _, ρ, ⟨rfl, date, message, rfl, rfl⟩, ⟨o, ho, rfl⟩, rfl⟩)
        · exact ⟨_, .broken date message hid h, rfl⟩
        · exact ⟨_, .handled date message hid ho, (map_tally_cons stats _ o).symm⟩
      · rintro ⟨_, ho, rfl⟩
        cases ho with
        | duplicate h => exact absurd h hid
        | handled date message _ ho =>
          exact .inr ⟨_, _, _, _, ⟨rfl, date, message, rfl, rfl⟩, ⟨_, ho, map_tally_cons ..⟩, rfl⟩
        | broken date message _ h => exact .inl ⟨_, ⟨rfl, date, message, h⟩, rfl⟩

theorem performs_unseen {r : Except Failure (List String)} :
    Performs (call (mailbox .source).unseen) l τ r l' ↔
      τ = [⟨.mail .source .unseen, r⟩] ∧ l' = l :=
  performs_mail

theorem performs_forwardUnseen (r : Except Failure Stats) :
    Performs (forwardUnseen (mailbox .source) (mailbox .destination) filter) l τ r l' ↔
      ∃ o, Accounts filter l τ o l' ∧ r = o.map (·.foldl Stats.add .zero) := by
  rw [forwardUnseen, performs_bind]
  simp only [performs_unseen, note, performs_bind, performs_log, performs_handleAll]
  constructor
  · rintro (⟨f, ⟨rfl, rfl⟩, rfl⟩ |
      ⟨ids, _, _, ρ, ⟨rfl, rfl⟩, ⟨_, ⟨_, ⟨⟩, _⟩, _⟩ | ⟨_, _, _, _, ⟨rfl, -, rfl⟩, h, rfl⟩, rfl⟩)
    · exact ⟨_, .unlisted, rfl⟩
    · obtain ⟨o, ho, rfl⟩ := h
      exact ⟨o, .listed ho, rfl⟩
  · rintro ⟨_, ho, rfl⟩
    cases ho with
    | unlisted => exact .inl ⟨_, ⟨rfl, rfl⟩, rfl⟩
    | listed ho =>
      exact .inr ⟨_, l, _, _, ⟨rfl, rfl⟩,
        .inr ⟨(), l, [], _, ⟨rfl, trivial, rfl⟩, ⟨_, ho, rfl⟩, rfl⟩, rfl⟩

/-- The replies after which a message may be marked seen: it was just appended to the destination, or the
script ran on it to its end and discarded it. -/
inductive Clears (filter : Option Script.Program) (id : String) (σ : List Reply) : Prop
  | appended (message : Bytes) (mailbox : String) (flags : TextSet) (date : Date) :
    [⟨.mail .source (.fetch id), .ok message⟩,
      ⟨.mail .destination (.append ⟨mailbox, message, flags, some date⟩), .ok ()⟩] <:+ σ →
    Clears filter id σ
  | discarded (message : Bytes) (d : Decision) : judgeStrictly filter message = some (.ok d) →
    d.verdict = some false → [⟨.mail .source (.fetch id), .ok message⟩] <:+ σ →
    Clears filter id σ

/-- Whenever a message is to be marked seen, it may be. -/
def MarksCleared (filter : Option Script.Program) (τ : List Reply) : Prop :=
  ∀ id σ a, σ ++ [⟨.mail .source (.markSeen id), a⟩] <+: τ → Clears filter id σ

theorem Clears.prepend {id : String} {σ : List Reply} (ρ : List Reply) (h : Clears filter id σ) :
    Clears filter id (ρ ++ σ) := by
  cases h with
  | appended message mailbox flags date h =>
    exact .appended message mailbox flags date (h.trans (List.suffix_append ρ σ))
  | discarded message d hd hv h =>
    exact .discarded message d hd hv (h.trans (List.suffix_append ρ σ))

theorem marksCleared_concat {s : Reply} :
    MarksCleared filter (τ ++ [s]) ↔
      MarksCleared filter τ ∧ ∀ id, s.effect = .mail .source (.markSeen id) → Clears filter id τ := by
  constructor
  · intro h
    refine ⟨fun id σ a hσ => h id σ a (hσ.trans (List.prefix_append τ [s])), fun id hs => ?_⟩
    obtain ⟨e, a⟩ := s
    cases hs
    exact h id τ a (List.prefix_refl _)
  · rintro ⟨h, hs⟩ id σ a hσ
    obtain heq | hσ := List.prefix_concat_iff.1 hσ
    · obtain ⟨rfl, hmark⟩ := List.append_inj' heq rfl
      cases hmark
      exact hs id rfl
    · exact h id σ a hσ

theorem MarksCleared.append {ρ : List Reply} (h : MarksCleared filter τ)
    (h' : MarksCleared filter ρ) : MarksCleared filter (τ ++ ρ) := by
  induction ρ using List.reverseRecOn with
  | nil => rwa [List.append_nil]
  | append_singleton ρ s ih =>
    obtain ⟨hρ, hs⟩ := marksCleared_concat.1 h'
    rw [← List.append_assoc, marksCleared_concat]
    exact ⟨ih hρ, fun id e => (hs id e).prepend τ⟩

/-- A course that breaks off went up to an effect of its own. -/
theorem Breaks.exists_prefix {c : List Reply} {f : Failure} (h : Breaks c τ f) :
    ∃ σ s a, σ ++ [s] <+: c ∧ τ = σ ++ [⟨s.effect, a⟩] := by
  induction c generalizing τ with
  | nil => cases h
  | cons s c ih =>
    obtain ⟨a, rfl, _⟩ | ⟨τ, rfl, h⟩ := h
    · exact ⟨[], s, a, ⟨c, rfl⟩, rfl⟩
    · obtain ⟨σ, t, a, hσ, rfl⟩ := ih h
      exact ⟨s :: σ, t, a, List.cons_prefix_cons.2 ⟨rfl, hσ⟩, rfl⟩

theorem MarksCleared.of_breaks {c : List Reply} {f : Failure} (h : MarksCleared filter c)
    (hb : Breaks c τ f) : MarksCleared filter τ := by
  obtain ⟨σ, s, a, hσ, rfl⟩ := hb.exists_prefix
  have hs : MarksCleared filter (σ ++ [s]) := fun id ρ b hρ => h id ρ b (hρ.trans hσ)
  rw [marksCleared_concat] at hs ⊢
  exact hs

theorem marksCleared_of_unmarked (h : ∀ s ∈ τ, ∀ id, s.effect ≠ .mail .source (.markSeen id)) :
    MarksCleared filter τ := by
  intro id σ a hσ
  exact absurd rfl (h ⟨.mail .source (.markSeen id), a⟩ (hσ.subset (by simp)) id)

/-- Nothing but a script that ran to its end discards a message. -/
theorem judgeStrictly_of_discards {message : Bytes} (h : (decided filter message).keeps = false) :
    ∃ d, judgeStrictly filter message = some (.ok d) ∧ d.verdict = some false := by
  unfold decided at h
  split at h
  · next d hd =>
    refine ⟨d, hd, ?_⟩
    cases hv : d.verdict with
    | none => simp [Decision.keeps, hv] at h
    | some v =>
      cases v with
      | false => rfl
      | true => simp [Decision.keeps, hv] at h
  · cases h

theorem clears_delivering (id : String) (date : Date) (message : Bytes) :
    Clears filter id (delivering filter id date message) := by
  simp only [delivering, copying]
  split
  · exact .appended message _ _ date ⟨[_], rfl⟩
  · next h =>
    obtain ⟨d, hd, hv⟩ := judgeStrictly_of_discards (Bool.eq_false_iff.2 h)
    exact .discarded message d hd hv ⟨[_], rfl⟩

theorem marksCleared_handling (id : String) (date : Date) (message : Bytes) :
    MarksCleared filter (handling filter l id date message) := by
  rw [handling, ← List.append_assoc, marksCleared_concat]
  constructor
  · apply marksCleared_of_unmarked
    simp only [saving, delivering, copying]
    split <;> simp
  · intro i e
    cases e
    exact (clears_delivering id date message).prepend _

theorem Handles.marksCleared {ids : List String} {r : Except Failure (List Outcome)}
    (h : Handles filter l ids τ r l') : MarksCleared filter τ := by
  induction h with
  | nil => rintro id σ a ⟨ρ, h⟩; simp at h
  | duplicate _ _ ih => exact ih
  | handled date message _ _ ih => exact (marksCleared_handling _ date message).append ih
  | broken date message _ hb => exact (marksCleared_handling _ date message).of_breaks hb

/-- Whether a reply is one to a call to append. -/
def Reply.appends : Reply → Bool
  | ⟨.mail _ (.append _), _⟩ => true
  | _ => false

/-- Whether a reply is one to a call to mark a message seen. -/
def Reply.marks : Reply → Bool
  | ⟨.mail _ (.markSeen _), _⟩ => true
  | _ => false

theorem foldl_add (stats : Stats) (outcomes : List Outcome) :
    outcomes.foldl Stats.add stats =
      ⟨stats.forwarded + outcomes.count .forwarded, stats.discarded + outcomes.count .discarded,
        stats.duplicates + outcomes.count .duplicate⟩ := by
  induction outcomes generalizing stats with
  | nil => rfl
  | cons o os ih =>
    rw [List.foldl_cons, ih]
    cases o <;> simp [Stats.add] <;> omega

theorem countP_appends_handling (id : String) (date : Date) (message : Bytes) :
    (handling filter l id date message).countP Reply.appends =
      [fate filter message].count .forwarded := by
  simp only [handling, saving, delivering, copying, fate]
  split <;> rfl

theorem countP_marks_handling (id : String) (date : Date) (message : Bytes) :
    (handling filter l id date message).countP Reply.marks = 1 := by
  simp only [handling, saving, delivering, copying]
  split <;> rfl

/-- The numbers of a pass over listed messages that were all handled: each is forwarded, discarded or a
duplicate; the forwarded are those appended, and those that are no duplicates are marked seen. -/
structure Tallies (ids : List String) (τ : List Reply) (stats : Stats) : Prop where
  total : stats.forwarded + stats.discarded + stats.duplicates = ids.length
  appends : τ.countP Reply.appends = stats.forwarded
  marks : τ.countP Reply.marks = stats.forwarded + stats.discarded

/-- One more message adds its outcome to the numbers of the others. -/
theorem Tallies.add {id : String} {ids : List String} {σ : List Reply} {outcomes : List Outcome}
    (h : Tallies ids τ (outcomes.foldl Stats.add .zero)) (o : Outcome)
    (happends : σ.countP Reply.appends = [o].count .forwarded)
    (hmarks : σ.countP Reply.marks = if o = .duplicate then 0 else 1) :
    Tallies (id :: ids) (σ ++ τ) ((o :: outcomes).foldl Stats.add .zero) := by
  obtain ⟨ht, ha, hm⟩ := h
  simp only [foldl_add, Stats.zero] at ht ha hm ⊢
  constructor
  · cases o <;> simp <;> omega
  · rw [List.countP_append, happends, ha]
    cases o <;> simp [Nat.add_comm]
  · rw [List.countP_append, hmarks, hm]
    cases o <;> simp <;> omega

theorem Handles.tallies {ids : List String} {outcomes : List Outcome}
    (h : Handles filter l ids τ (.ok outcomes) l') :
    Tallies ids τ (outcomes.foldl Stats.add .zero) := by
  generalize hr : Except.ok outcomes = r at h
  induction h generalizing outcomes with
  | nil =>
    cases hr
    exact ⟨rfl, rfl, rfl⟩
  | @duplicate _ _ _ r _ _ _ _ ih =>
    cases r with
    | error f => cases hr
    | ok os =>
      cases hr
      change Tallies _ ([] ++ _) _
      exact (ih rfl).add .duplicate rfl rfl
  | @handled _ _ _ r _ id date message _ _ ih =>
    cases r with
    | error f => cases hr
    | ok os =>
      cases hr
      have hfate : fate filter message ≠ .duplicate := by
        unfold fate
        split <;> decide
      apply (ih rfl).add _ (countP_appends_handling id date message)
      rw [countP_marks_handling, if_neg hfate]
  | broken => cases hr

/-- A pass does exactly what its accounts say and ends as they do, whatever the mailboxes and the disk
answer. No message is marked seen unless it was just appended or a script that ran to its end discarded
it, and a pass that succeeds has counted every listed message. -/
theorem forwardUnseen_accounts (filter : Option Script.Program) (l : Ledger) (τ : List Reply)
    (r : Except Failure Stats) (l' : Ledger) :
    (Performs (forwardUnseen (mailbox .source) (mailbox .destination) filter) l τ r l' ↔
      ∃ o, Accounts filter l τ o l' ∧ r = o.map (·.foldl Stats.add .zero)) ∧
    (Performs (forwardUnseen (mailbox .source) (mailbox .destination) filter) l τ r l' →
      MarksCleared filter τ ∧
      ∀ stats, r = .ok stats → ∃ ids σ,
        τ = ⟨.mail .source .unseen, .ok ids⟩ :: σ ∧ Tallies ids σ stats) ∧
    ∀ message,
      (∀ d, judgeStrictly filter message = some (.ok d) → decided filter message = d) ∧
      ((∀ d, judgeStrictly filter message ≠ some (.ok d)) →
        (decided filter message).mailbox = "INBOX" ∧ (decided filter message).keeps = true ∧
          (decided filter message).flags = .empty) := by
  refine ⟨performs_forwardUnseen r, fun h => ?_, fun message => ⟨fun d hd => ?_, fun hd => ?_⟩⟩
  · obtain ⟨o, ho, rfl⟩ := (performs_forwardUnseen r).1 h
    cases ho with
    | unlisted =>
      refine ⟨marksCleared_of_unmarked (by simp), ?_⟩
      rintro stats ⟨⟩
    | listed ho =>
      constructor
      · change MarksCleared filter ([_] ++ _)
        exact (marksCleared_of_unmarked (by simp)).append ho.marksCleared
      · intro stats hr
        cases o with
        | error f => cases hr
        | ok outcomes =>
          cases hr
          exact ⟨_, _, rfl, ho.tallies⟩
  · simp only [decided, hd]
  · have hinitial : decided filter message = .initial := by
      unfold decided
      split
      · next d h => exact absurd h (hd d)
      · rfl
    rw [hinitial]
    exact ⟨rfl, rfl, rfl⟩

/-- A message that is listed twice is discarded once, though there is nothing in it but its end. -/
theorem discards_then_skips_repeated :
    ∃ τ l', Performs (forwardUnseen (mailbox .source) (mailbox .destination) (some [.discard]))
      ⟨"db", .empty⟩ τ (.ok ⟨0, 1, 1⟩) l' ∧ MarksCleared (some [.discard]) τ := by
  have hfate : fate (some [.discard]) [10] = .discarded := by cbv
  have hnew : "a" ∉ (⟨"db", .empty⟩ : Ledger) := by decide
  have hold : "a" ∈ (⟨"db", .empty⟩ : Ledger).insert "a" := by decide
  have hpass : ∃ τ l', Accounts (some [.discard]) ⟨"db", .empty⟩ τ
      (.ok [fate (some [.discard]) [10], .duplicate]) l' :=
    ⟨_, _, .listed (.handled (0 : Int) [10] hnew (.duplicate hold .nil))⟩
  rw [hfate] at hpass
  obtain ⟨τ, l', hpass⟩ := hpass
  obtain ⟨hiff, himp, -⟩ := forwardUnseen_accounts (some [.discard]) ⟨"db", .empty⟩ τ
    (.ok ⟨0, 1, 1⟩) l'
  have hperforms := hiff.2 ⟨_, hpass, rfl⟩
  exact ⟨τ, l', hperforms, (himp hperforms).1⟩

end MailSieve.Forward
