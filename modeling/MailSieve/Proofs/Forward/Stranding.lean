import Mathlib.Data.Set.Card
import MailSieve.Proofs.Forward.Progress

/-!
What is lost when passes fail or are killed: of the messages that were recorded, at most one for each such
pass was neither copied nor discarded.
-/

namespace MailSieve.Forward

open Files MailSieve.Filter Dialogue

/-- A message was appended right after it was fetched, or a script that ran to its end discarded it and it
was to be marked seen. -/
inductive Disposed (filter : Option Script.Program) (id : String) (τ : List Reply) : Prop
  | appended (message : Bytes) (mailbox : String) (flags : TextSet) (date : Date) :
    [⟨.mail .source (.fetch id), .ok message⟩,
      ⟨.mail .destination (.append ⟨mailbox, message, flags, some date⟩), .ok ()⟩] <:+: τ →
    Disposed filter id τ
  | discarded (message : Bytes) (d : Decision) (a : Except Failure Unit) :
    judgeStrictly filter message = some (.ok d) → d.verdict = some false →
    [⟨.mail .source (.fetch id), .ok message⟩, ⟨.mail .source (.markSeen id), a⟩] <:+: τ →
    Disposed filter id τ

/-- A pass that took place: the ledger that it started from, the replies that it had, and how it ended and
with which ledger, unless it was killed. -/
structure Passage where
  filter : Option Script.Program
  ledger : Ledger
  replies : List Reply
  ended : Option (Except Failure Stats × Ledger)

namespace Passage

/-- A pass that is killed has had the first replies of one that is not. -/
def Happens (p : Passage) : Prop :=
  match p.ended with
  | some (r, l) =>
    Performs (forwardUnseen (mailbox .source) (mailbox .destination) p.filter) p.ledger p.replies r l
  | none => ∃ ρ r l,
    Performs (forwardUnseen (mailbox .source) (mailbox .destination) p.filter) p.ledger (p.replies ++ ρ) r l

/-- The pass failed or was killed. -/
def broke (p : Passage) : Bool :=
  match p.ended with
  | some (.ok _, _) => false
  | _ => true

/-- The pass recorded an identifier that was not in the ledger, or tried to. -/
def Enters (p : Passage) (id : String) : Prop := id ∉ p.ledger ∧ Wrote p.replies id

/-- The pass recorded an identifier and did not dispose of the message. -/
def Leaves (p : Passage) (id : String) : Prop := p.Enters id ∧ ¬ Disposed p.filter id p.replies

/-- Some pass recorded the identifier, and none copied or discarded the message. -/
def Stranded (ps : List Passage) (id : String) : Prop :=
  (∃ p ∈ ps, p.Enters id) ∧ ∀ p ∈ ps, ¬ Disposed p.filter id p.replies

/-- A pass handled the messages `before` to the end, broke off at `id`, and did nothing for those `after`. -/
structure FailsAt (p : Passage) (f : Failure) (before : List String) (id : String) (after : List String) :
    Prop where
  course : ∃ σ m outcomes date message π,
    p.replies = ⟨.mail .source .unseen, .ok (before ++ id :: after)⟩ :: (σ ++ π) ∧
      Handles p.filter p.ledger before σ (.ok outcomes) m ∧
      Breaks (handling p.filter m id date message) π f
  fresh : id ∉ p.ledger ∧ id ∉ before
  handled : ∀ i ∈ before, i ∈ p.ledger ∨ Completed p.filter i p.replies
  untouched : ∀ i ∈ after, i ∉ before → i ≠ id → ¬ p.Enters i ∧ ∀ s ∈ p.replies, ¬ s.effect.Names i

end Passage

variable {filter : Option Script.Program} {l l' : Ledger} {ids : List String} {σ τ ρ : List Reply}
  {id : String} {f : Failure}

theorem Disposed.mono (h : Disposed filter id σ) (hσ : σ <:+: τ) : Disposed filter id τ := by
  cases h with
  | appended message mailbox flags date h => exact .appended message mailbox flags date (h.trans hσ)
  | discarded message d a hd hv h => exact .discarded message d a hd hv (h.trans hσ)

theorem disposed_handling (id : String) (date : Date) (message : Bytes) :
    Disposed filter id (handling filter l id date message) := by
  simp only [handling, saving, delivering, copying]
  split
  · exact .appended message _ _ date ⟨[_, _, _], [_], rfl⟩
  · next h =>
    obtain ⟨d, hd, hv⟩ := judgeStrictly_of_discards (Bool.eq_false_iff.2 h)
    exact .discarded message d (.ok ()) hd hv ⟨[_, _, _], [], rfl⟩

theorem Completed.disposed (h : Completed filter id τ) : Disposed filter id τ := by
  obtain ⟨l, date, message, h⟩ := h
  exact (disposed_handling id date message).mono h

theorem Disposed.exists_fetch (h : Disposed filter id τ) :
    ∃ s ∈ τ, s.effect = .mail .source (.fetch id) := by
  cases h with
  | appended message mailbox flags date h => exact ⟨_, h.subset (.head _), rfl⟩
  | discarded message d a hd hv h => exact ⟨_, h.subset (.head _), rfl⟩

theorem Attempts.mem_of_wrote {i : String} (h : Attempts filter l id τ) (hi : Wrote τ i) :
    i ∈ l.insert id := by
  obtain ⟨date, message, h | ⟨f, h⟩⟩ := h
  · exact wrote_handling.1 (hi.mono fun s hs => ⟨s, h.subset hs, rfl⟩)
  · exact (wrote_of_breaks h).1 hi

/-- Of what is recorded when all goes well, everything is disposed of. -/
theorem Handles.disposed {outcomes : List Outcome} (h : Handles filter l ids τ (.ok outcomes) l')
    (hid : id ∉ l) (hl : id ∈ l') : Disposed filter id τ := by
  obtain ⟨hmem, hdone⟩ := h.of_ok
  obtain hl | hids := (hmem id).1 hl
  · exact absurd hl hid
  · exact ((hdone id hids).resolve_left hid).disposed

/-- However far handling gets, all but the last that is recorded is disposed of. -/
theorem Handles.exists_begun {r : Except Failure (List Outcome)} (h : Handles filter l ids (τ ++ ρ) r l') :
    ∃ i, ∀ id, id ∉ l → Wrote τ id → id = i ∨ Disposed filter id τ := by
  obtain ⟨outcomes, m, hdone⟩ | ⟨before, i, after, σ, m, π, hcomes, rfl, hπ⟩ := h.of_append
  · exact ⟨"", fun id hid hw => .inr (hdone.disposed hid (hdone.mem_iff.2 (.inr hw)))⟩
  obtain ⟨outcomes, hdone⟩ := hcomes.done
  have hold {id : String} (hid : id ∉ l) (hm : id ∈ m) : Disposed filter id (σ ++ π) :=
    (hdone.disposed hid hm).mono (List.prefix_append σ π).isInfix
  refine ⟨i, fun id hid hw => ?_⟩
  -- it was written while others were handled, or for the one that was begun
  obtain hw | hw := wrote_append.1 hw
  · exact .inr (hold hid (hdone.mem_iff.2 (.inr hw)))
  · exact (Ledger.mem_insert.1 (hπ.mem_of_wrote hw)).imp_right (hold hid)

theorem exists_begun_of_performs {r : Except Failure Stats}
    (h : Performs (forwardUnseen (mailbox .source) (mailbox .destination) filter) l (τ ++ ρ) r l') :
    ∃ i, ∀ id, id ∉ l → Wrote τ id → id = i ∨ Disposed filter id τ := by
  obtain ⟨o, ho, -⟩ := (performs_forwardUnseen r).1 h
  obtain _ | ⟨s, τ⟩ := τ
  · exact ⟨"", by simp [Wrote]⟩
  generalize hθ : s :: τ ++ ρ = θ at ho
  cases ho with
  | unlisted =>
    obtain ⟨rfl, hnil⟩ := List.cons.inj hθ
    obtain ⟨rfl, -⟩ := List.append_eq_nil_iff.1 hnil
    exact ⟨"", by simp [Wrote]⟩
  | listed ho =>
    obtain ⟨rfl, rfl⟩ := List.cons.inj hθ
    obtain ⟨i, hi⟩ := ho.exists_begun
    refine ⟨i, fun id hid hw => ?_⟩
    exact (hi id hid (wrote_unseen_cons.1 hw)).imp_right fun h => h.mono (List.suffix_cons _ τ).isInfix

/-- A pass that succeeds disposes of all that it records. -/
theorem disposed_of_performs {stats : Stats}
    (h : Performs (forwardUnseen (mailbox .source) (mailbox .destination) filter) l τ (.ok stats) l')
    (hid : id ∉ l) (hw : Wrote τ id) : Disposed filter id τ := by
  obtain ⟨o, ho, hr⟩ := (performs_forwardUnseen _).1 h
  cases ho with
  | unlisted => cases hr
  | @listed ids τ _ _ ho =>
    cases o with
    | error f => cases hr
    | ok outcomes =>
      have hl := ho.mem_iff.2 (.inr (wrote_unseen_cons.1 hw))
      exact (ho.disposed hid hl).mono (List.suffix_cons _ τ).isInfix

/-- Where handling fails, what is listed before was handled to the end, and nothing done for what is after. -/
theorem Handles.failsAt {ended : Option (Except Failure Stats × Ledger)}
    (h : Handles filter l ids τ (.error f) l') : ∃ before id after, ids = before ++ id :: after ∧
      Passage.FailsAt ⟨filter, l, ⟨.mail .source .unseen, .ok ids⟩ :: τ, ended⟩ f before id after := by
  obtain ⟨before, id, after, σ, m, π, date, message, ⟨rfl, ⟨outcomes, hok⟩, hid⟩, rfl, hb, -⟩ := h.of_error
  obtain ⟨hmem, hdone⟩ := hok.of_ok
  rw [hmem, not_or] at hid
  refine ⟨before, id, after, rfl, ⟨σ, m, outcomes, date, message, π, rfl, hok, hb⟩, hid, ?_, ?_⟩
  · intro i hi
    exact (hdone i hi).imp_right fun h => h.mono ⟨[_], π, rfl⟩
  intro i _ hbefore hne
  constructor
  · rintro ⟨hi, hw⟩
    have hm : i ∉ m := fun h => ((hmem i).1 h).elim hi hbefore
    obtain hw | hw := wrote_append.1 (wrote_unseen_cons.1 hw)
    · exact hm (hok.mem_iff.2 (.inr hw))
    · exact (Ledger.mem_insert.1 ((wrote_of_breaks hb).1 hw)).elim hne hm
  · intro s hs hnames
    obtain _ | ⟨_, hs⟩ := hs
    · simp [Effect.Names] at hnames
    obtain hs | hs := List.mem_append.1 hs
    · obtain ⟨j, hj, -, hserves⟩ := hok.serves hs
      exact hbefore (hserves.eq_of_names hnames ▸ hj)
    · obtain ⟨t, ht, he⟩ := hb.exists_effect hs
      exact hne (Serves.eq_of_names ⟨m, date, message, t, ht, he⟩ hnames)

namespace Passage

variable {p : Passage}

/-- A pass leaves at most one message that it recorded, and none if it succeeds. -/
theorem Happens.encard_leaves_le (h : p.Happens) :
    {id | p.Leaves id}.encard ≤ if p.broke then 1 else 0 := by
  obtain ⟨filter, l, τ, ended⟩ := p
  have hone {r : Except Failure Stats} {ρ : List Reply} {l' : Ledger}
      (h : Performs (forwardUnseen (mailbox .source) (mailbox .destination) filter) l (τ ++ ρ) r l') :
      {id | Leaves ⟨filter, l, τ, ended⟩ id}.encard ≤ 1 := by
    obtain ⟨i, hi⟩ := exists_begun_of_performs h
    rw [← Set.encard_singleton i]
    apply Set.encard_le_encard
    rintro id ⟨⟨hid, hw⟩, hlost⟩
    exact (hi id hid hw).resolve_right hlost
  match ended with
  | none =>
    obtain ⟨ρ, r, l', h⟩ := h
    exact hone h
  | some (.error f, l') => exact hone (ρ := []) ((List.append_nil τ).symm ▸ h)
  | some (.ok stats, l') =>
    have hnone : {id | Leaves ⟨filter, l, τ, some (.ok stats, l')⟩ id} = ∅ := by
      apply Set.eq_empty_of_forall_notMem
      rintro id ⟨⟨hid, hw⟩, hlost⟩
      exact hlost (disposed_of_performs h hid hw)
    rw [hnone, Set.encard_empty]
    exact bot_le

theorem encard_exists_leaves_le (ps : List Passage) (h : ∀ p ∈ ps, p.Happens) :
    {id | ∃ p ∈ ps, p.Leaves id}.encard ≤ ps.countP broke := by
  induction ps with
  | nil => simp
  | cons p ps ih =>
    obtain ⟨hp, hps⟩ := List.forall_mem_cons.1 h
    have hunion : {id | ∃ q ∈ p :: ps, q.Leaves id} =
        {id | p.Leaves id} ∪ {id | ∃ q ∈ ps, q.Leaves id} := by
      ext id
      simp
    calc {id | ∃ q ∈ p :: ps, q.Leaves id}.encard
      _ ≤ {id | p.Leaves id}.encard + {id | ∃ q ∈ ps, q.Leaves id}.encard :=
        hunion ▸ Set.encard_union_le _ _
      _ ≤ (if p.broke then 1 else 0) + ps.countP broke := add_le_add hp.encard_leaves_le (ih hps)
      _ = (p :: ps).countP broke := by
        rw [List.countP_cons, add_comm]
        push_cast
        rfl

theorem Stranded.exists_leaves {ps : List Passage} {id : String} (h : Stranded ps id) :
    ∃ p ∈ ps, p.Leaves id := by
  obtain ⟨⟨p, hp, hid⟩, hlost⟩ := h
  exact ⟨p, hp, hid, hlost p hp⟩

/-- A pass that fails got no listing, or fails at a message that is listed. -/
theorem Happens.of_error (h : p.Happens) (hf : p.ended = some (.error f, l')) :
    p.replies = [⟨.mail .source .unseen, .error f⟩] ∨ ∃ before id after, p.FailsAt f before id after := by
  obtain ⟨filter, l, τ, ended⟩ := p
  cases hf
  obtain ⟨o, ho, hr⟩ : ∃ o, Accounts filter l τ o l' ∧ _ := (performs_forwardUnseen _).1 h
  cases o with
  | ok outcomes => cases hr
  | error g =>
    cases hr
    cases ho with
    | unlisted => exact .inl rfl
    | listed ho =>
      obtain ⟨before, id, after, -, hfails⟩ := ho.failsAt
      exact .inr ⟨before, id, after, hfails⟩

/-- A pass that ends leaves a ledger with what it entered, and what was there. -/
theorem Happens.mem_iff {r : Except Failure Stats} {i : String} (h : p.Happens)
    (hr : p.ended = some (r, l')) : i ∈ l' ↔ i ∈ p.ledger ∨ p.Enters i := by
  obtain ⟨filter, l, τ, ended⟩ := p
  cases hr
  have hw : i ∈ l' ↔ i ∈ l ∨ Wrote τ i := mem_iff_of_performs h
  rw [hw, Enters]
  tauto

/-- Of any passes, whatever ledgers they start from and whatever fails, there are at least as many that failed
or were killed as there are messages that were recorded and never copied or discarded. A pass that fails at
a message has handled those listed before it to the end, and has begun nothing for those listed after it. -/
theorem encard_stranded_le (ps : List Passage) (h : ∀ p ∈ ps, p.Happens) :
    {id | Stranded ps id}.encard ≤ ps.countP broke ∧
    ∀ p ∈ ps,
      (∀ r l', p.ended = some (r, l') → ∀ i, i ∈ l' ↔ i ∈ p.ledger ∨ p.Enters i) ∧
      ∀ f l', p.ended = some (.error f, l') →
        p.replies = [⟨.mail .source .unseen, .error f⟩] ∨
          ∃ before id after, p.FailsAt f before id after := by
  refine ⟨?_, fun p hp => ⟨fun r l' hr i => (h p hp).mem_iff hr, fun f l' hf => (h p hp).of_error hf⟩⟩
  exact (Set.encard_le_encard fun id hid => hid.exists_leaves).trans (encard_exists_leaves_le ps h)

/-- The second of two messages is recorded, but nobody can tell when it arrived. The next pass skips it. -/
theorem undated_stays_stranded : ∃ p q : Passage, p.Happens ∧ q.Happens ∧ Stranded [p, q] "b" ∧
    {id | Stranded [p, q] id}.encard ≤ 1 ∧
    ∃ before id after, p.FailsAt ⟨[], .declined "received" "b"⟩ before id after := by
  let l : Ledger := ⟨"db", .empty⟩
  let f : Failure := ⟨[], .declined "received" "b"⟩
  let π : List Reply := saving ((l.insert "a").insert "b") ++ [⟨.mail .source (.received "b"), .error f⟩]
  have ha : "a" ∉ l := by decide
  have hb : "b" ∉ l.insert "a" := by decide
  have hold : "b" ∈ (l.insert "a").insert "b" := by decide
  have hπ : Breaks (handling none (l.insert "a") "b" 0 []) π f :=
    .inr ⟨_, rfl, .inr ⟨_, rfl, .inl ⟨.error f, rfl, rfl⟩⟩⟩
  let p : Passage := ⟨none, l, ⟨.mail .source .unseen, .ok ["a", "b"]⟩ :: (handling none l "a" 0 [] ++ π),
    some (.error f, (l.insert "a").insert "b")⟩
  let q : Passage := ⟨none, (l.insert "a").insert "b", [⟨.mail .source .unseen, .ok ["b"]⟩],
    some (.ok ⟨0, 0, 1⟩, (l.insert "a").insert "b")⟩
  have hp : p.Happens := (performs_forwardUnseen _).2
    ⟨_, .listed (.handled (0 : Int) [] ha (.broken (0 : Int) [] hb hπ)), rfl⟩
  have hq : q.Happens := (performs_forwardUnseen _).2 ⟨_, .listed (.duplicate hold .nil), rfl⟩
  have hpq : ∀ r ∈ [p, q], r.Happens := by
    simp [hp, hq]
  have hfetch : ∀ r ∈ [p, q], ∀ s ∈ r.replies, s.effect ≠ .mail .source (.fetch "b") := by
    have hkeeps : (decided none []).keeps = true := rfl
    simp [p, q, π, handling, saving, delivering, copying, hkeeps]
  have hstranded : Stranded [p, q] "b" := by
    constructor
    · have hwrote : Wrote π "b" := (wrote_of_breaks hπ).2 hold
      exact ⟨p, .head _, by decide, wrote_unseen_cons.2 (wrote_append.2 (.inr hwrote))⟩
    · intro r hr hd
      obtain ⟨s, hs, he⟩ := hd.exists_fetch
      exact hfetch r hr s hs he
  obtain ⟨hbound, hpasses⟩ := encard_stranded_le [p, q] hpq
  obtain ⟨-, hfails⟩ := hpasses p (.head _)
  obtain hlisting | hfails := hfails f _ rfl
  · cases hlisting
  · exact ⟨p, q, hp, hq, hstranded, hbound, hfails⟩

end Passage

end MailSieve.Forward
