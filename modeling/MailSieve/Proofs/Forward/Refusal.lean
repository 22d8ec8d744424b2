import Mathlib.Logic.Function.Basic
import MailSieve.Proofs.Forward.Progress
import MailSieve.Proofs.Forward.Reloading

/-!
Passes that end because a save is refused. The ledger in memory keeps the identifier that was to be recorded;
its file stays as it was, so that a ledger loaded from it does not have the identifier.
-/

namespace MailSieve.Forward

open Files Dialogue

/-- A host of which nothing is known but what its effects may do to the files. -/
def Allowed (store : Path) : Responds Contents := fun e f a g => Allows store e a f g

/-- The file at `store` records what the ledger has. -/
structure InStep (store : Path) (l : Ledger) (f : Contents) : Prop where
  path : l.path = store
  records : ∀ i, Records (f store) i ↔ i ∈ l

/-- The reply is not one to a change of the file at `store`. -/
def Reply.Spares (store : Path) : Reply → Prop
  | ⟨.write p _, _⟩ => p ≠ store
  | ⟨.rename p q, .ok _⟩ => p ≠ store ∧ q ≠ store
  | _ => True

variable {store : Path} {filter : Option Script.Program} {l l' m : Ledger} {f g : Contents}
  {ids : List String} {id : String} {τ : List Reply} {e : Failure}

theorem Reply.Spares.eq {s : Reply} (hs : s.Spares store) (h : Allows store s.effect s.answer f g) :
    g store = f store := by
  obtain ⟨e, a⟩ := s
  cases e with
  | isThere p => exact congrFun h store
  | read p =>
    cases a with
    | ok content => exact congrFun h.1 store
    | error r => exact congrFun h store
  | write p content =>
    cases a with
    | ok a => exact (congrFun h store).trans (Function.update_of_ne hs.symm _ _)
    | error r =>
      obtain ⟨rest, h⟩ := h
      exact (congrFun h store).trans (Function.update_of_ne hs.symm _ _)
  | rename p q =>
    cases a with
    | ok a =>
      refine (congrFun h store).trans ?_
      rw [Function.update_of_ne hs.2.symm, Function.update_of_ne hs.1.symm]
    | error r => exact congrFun h store
  | _ => exact h

/-- A dialogue none of whose replies changes the file leaves it as it is. -/
theorem Played.eq_of_spares {p : Dialogue α} {a : α} (hp : Played (Allowed store) p f τ a g)
    (hτ : ∀ s ∈ τ, s.Spares store) : g store = f store := by
  induction p generalizing f τ with
  | done b =>
    obtain ⟨-, -, rfl⟩ := hp
    rfl
  | ask e next ih =>
    obtain ⟨b, u, ρ, hR, rfl, hp⟩ := hp
    obtain ⟨hs, hρ⟩ := List.forall_mem_cons.1 hτ
    exact (ih b hp hρ).trans (hs.eq hR)

theorem InStep.of_eq (h : InStep store l f) (hg : g store = f store) : InStep store l g :=
  ⟨h.path, fun i => hg ▸ h.records i⟩

/-- A host where every step of a save succeeds. -/
def AllowedSaving (store : Path) : Responds Contents :=
  fun e f a g => Allowed store e f a g ∧ Reply.refusesSave ⟨e, a⟩ = false

/-- A save that is not refused leaves the bytes of the ledger in its file. -/
theorem ensures_save {post : Contents → Prop} (hpath : l.path = store)
    (h : ∀ g, g store = some l.bytes → post g) :
    Ensures (AllowedSaving store) (After (fun _ => post) post) l.save.run f := by
  refine .ask ?_
  rintro (r | _) u ⟨hwrite, hw⟩
  · cases hw
  refine .ask ?_
  rintro (r | _) v ⟨hrename, hr⟩
  · cases hr
  have hdraft : u l.draft = some l.bytes := (congrFun hwrite _).trans (Function.update_self ..)
  have hfile : v store = u l.draft := by
    rw [← hpath]
    exact (congrFun hrename _).trans (Function.update_self ..)
  exact .done (h v (hfile.trans hdraft))

/-- What holds of a ledger and its file is upheld if it still holds with another identifier once that is
saved. -/
theorem steady_saving {inv : Ledger → Contents → Prop} (hpath : ∀ l f, inv l f → l.path = store)
    (hsame : ∀ l f g, inv l f → g store = f store → inv l g)
    (hsave : ∀ id l f g, id ∉ l → inv l f → g store = some (l.insert id).bytes → inv (l.insert id) g) :
    Steady (AllowedSaving store) (fun _ => True) (mailbox .source) (mailbox .destination) inv
      (fun _ => inv) (fun _ _ => inv) := by
  have hmail {side : Side} {c : Mailbox.Call} (l : Ledger) (f : Contents) (h : inv l f) :
      Ensures (AllowedSaving store) (fun _ => inv l) (.ask (.mail side c) .done) f :=
    .ask fun _ _ hR => .done (hsame _ _ _ h hR.1)
  exact {
    holds := fun _ _ _ => trivial
    discard := fun _ _ _ _ h => h
    logs := fun _ _ _ _ hR => ⟨fun _ h => hsame _ _ _ h hR.1, fun _ _ _ h => hsame _ _ _ h hR.1⟩
    unseen := hmail
    save := fun id l f hid h => ensures_save (hpath l f h) (hsave id l f · hid h)
    received := fun _ l f h => (hmail l f h).after
    fetch := fun _ l f h => (hmail l f h).after
    append := fun _ _ => hmail
    markSeen := fun _ => hmail }

theorem steady_inStep (store : Path) :
    Steady (AllowedSaving store) (fun _ => True) (mailbox .source) (mailbox .destination) (InStep store)
      (fun _ => InStep store) (fun _ _ => InStep store) := by
  apply steady_saving
  · exact fun _ _ h => h.path
  · exact fun _ _ _ h hg => h.of_eq hg
  · intro id l f g _ h hg
    refine ⟨h.path, fun i => ?_⟩
    rw [hg, records_bytes]

section

variable {R : Responds σ} {source destination : Mailbox Dialogue} {stats : Stats} {s t : σ}

/-- Where handling listed messages fails, those before were handled. -/
theorem played_handleAll_error
    (h : Played R ((handleAll source destination filter stats ids).run.run l) s τ (.error e, l') t) :
    ∃ before id after stats' m u σ π, ids = before ++ id :: after ∧ τ = σ ++ π ∧
      Played R ((handleAll source destination filter stats before).run.run l) s σ (.ok stats', m) u ∧
      Played R ((handle source destination filter id).run.run m) u π (.error e, l') t := by
  induction ids generalizing stats l s τ with
  | nil =>
    obtain ⟨-, ⟨⟩, -⟩ := h
  | cons id ids ih =>
    rw [handleAll, played_pass_bind] at h
    obtain ⟨f, h, ⟨⟩⟩ | ⟨o, m, u, σ, ρ, hid, h, rfl⟩ := h
    · exact ⟨[], id, ids, stats, l, s, [], τ, rfl, rfl, ⟨rfl, rfl, rfl⟩, h⟩
    · obtain ⟨before, i, after, stats', n, v, σ', π, rfl, rfl, hok, hi⟩ := ih h
      refine ⟨id :: before, i, after, stats', n, v, σ ++ σ', π, rfl, (List.append_assoc ..).symm, ?_, hi⟩
      rw [handleAll, played_pass_bind]
      exact .inr ⟨o, m, u, σ, σ', hid, hok, rfl⟩

end

/-- Nothing that succeeds has had a save refused. -/
theorem Handles.refusesSave {outcomes : List Outcome} (h : Handles filter l ids τ (.ok outcomes) l') :
    ∀ s ∈ τ, s.refusesSave = false := by
  induction h using Handles.ok_rec with
  | nil => simp
  | duplicate _ _ ih => exact ih
  | handled date message _ _ ih =>
    rw [List.forall_mem_append]
    refine ⟨?_, ih⟩
    simp only [handling, saving, delivering, copying]
    split <;> simp [Reply.refusesSave]

/-- What breaks off with a refused save has not come beyond the save. -/
theorem Breaks.of_refusesSave {date : Date} {message : Bytes} {s : Reply}
    (h : Breaks (handling filter m id date message) τ e) (hs : s ∈ τ) (href : s.refusesSave = true) :
    Breaks (saving (m.insert id)) τ e := by
  rw [handling, breaks_append] at h
  refine h.resolve_right ?_
  rintro ⟨σ, rfl, hσ⟩
  obtain hs | hs := List.mem_append.1 hs
  · have hsaved : ∀ s ∈ saving (m.insert id), s.refusesSave = false := by
      simp [saving, Reply.refusesSave]
    exact Bool.false_ne_true ((hsaved s hs).symm.trans href)
  · obtain ⟨t, ht, he⟩ := hσ.exists_effect hs
    have hmail : ∃ side c, t.effect = .mail side c := by
      revert t
      simp only [delivering, copying]
      split <;> simp
    obtain ⟨side, c, hc⟩ := hmail
    obtain ⟨e, a⟩ := s
    cases hc.symm.trans he
    cases href

theorem spares_of_breaks_saving (h : Breaks (saving m) τ e) (hpath : m.path = store) :
    ∀ s ∈ τ, s.Spares store := by
  have hne : m.draft ≠ store := hpath ▸ (draft_ne m).symm
  have hwrite (a : Except Refusal Unit) : Reply.Spares store ⟨.write m.draft m.bytes, a⟩ := hne
  obtain ⟨a, rfl, -⟩ | ⟨_, rfl, ⟨a, rfl, hf⟩ | ⟨_, _, h⟩⟩ := h
  · exact List.forall_mem_singleton.2 (hwrite a)
  · cases a with
    | ok a => cases hf
    | error r => exact List.forall_mem_cons.2 ⟨hwrite (.ok ()), List.forall_mem_singleton.2 trivial⟩
  · cases h

theorem Reply.not_isLog {s : Reply} (h : s.refusesSave = true) : (!s.isLog) = true := by
  obtain ⟨e, a⟩ := s
  cases e with
  | log line => cases h
  | _ => rfl

theorem Handles.path_eq {r : Except Failure (List Outcome)} (h : Handles filter l ids τ r l') :
    l'.path = l.path := by
  induction h with
  | nil => rfl
  | duplicate _ _ ih => exact ih
  | handled _ _ _ _ ih => exact ih
  | broken => rfl

/-- A message at which a save is refused gets into the ledger, but not into its file. -/
theorem handle_refused {s : Reply}
    (h : Played (Allowed store) ((handle (mailbox .source) (mailbox .destination) filter id).run.run m) f τ
      (.error e, l') g) (hpath : m.path = store) (hs : s ∈ τ) (href : s.refusesSave = true) :
    id ∉ m ∧ l' = m.insert id ∧ g store = f store := by
  by_cases hid : id ∈ m
  · obtain ⟨-, ⟨⟩, -⟩ := (performs_handle_of_mem filter hid).1 h.says
  obtain ⟨rfl, date, message, hb⟩ := (performs_handle_of_not_mem filter hid).1 h.says
  have hsaving := (follows_error.1 hb).of_refusesSave (List.mem_filter.2 ⟨hs, Reply.not_isLog href⟩) href
  have hspares := spares_of_breaks_saving hsaving hpath
  exact ⟨hid, rfl, h.eq_of_spares (forall_mem_of_filter (fun _ _ => trivial) hspares)⟩

/-- Messages that are handled to the end are recorded in the file as well. -/
theorem inStep_of_handleAll {stats stats' : Stats}
    (h : Played (Allowed store)
      ((handleAll (mailbox .source) (mailbox .destination) filter stats ids).run.run l) f τ (.ok stats', m) g)
    (hτ : ∀ s ∈ τ, s.refusesSave = false) (hl : InStep store l f) : InStep store m g := by
  have hsaving := played_and.2 ⟨h, hτ⟩
  exact ((steady_inStep store).upholds_handleAll filter stats ids hl).of_played hsaving

/-- The replies start with the answer that these are unseen. -/
def Lists (τ : List Reply) (ids : List String) : Prop :=
  τ.head? = some ⟨.mail .source .unseen, .ok ids⟩

theorem Lists.unique {ids' : List String} (h : Lists τ ids) (h' : Lists τ ids') : ids = ids' := by
  cases h.symm.trans h'
  rfl

/-- The ledgers that passes in turn may start from when the first starts from this one. -/
inductive Later (l : Ledger) : Ledger → Prop
  | first : Later l l
  | next {k k' : Ledger} (filter : Option Script.Program) (τ : List Reply) (r : Except Failure Stats) :
    Later l k →
    Performs (forwardUnseen (mailbox .source) (mailbox .destination) filter) k τ r k' → Later l k'

/-- Whatever a pass over the ledger does, it makes no call for the message, and counts it as a duplicate. -/
def Skips (l : Ledger) (id : String) : Prop :=
  ∀ filter τ r l', Performs (forwardUnseen (mailbox .source) (mailbox .destination) filter) l τ r l' →
    (∀ s ∈ τ, ¬ s.effect.Names id) ∧
    ∀ ids stats, Lists τ ids → r = .ok stats → ids.count id ≤ stats.duplicates

/-- A pass over the ledger that succeeds handles the message to the end, if it is listed. -/
def Takes (l : Ledger) (id : String) : Prop :=
  ∀ filter τ stats l' ids,
    Performs (forwardUnseen (mailbox .source) (mailbox .destination) filter) l τ (.ok stats) l' →
    Lists τ ids → id ∈ ids → Completed filter id τ

theorem Handles.count_le {outcomes : List Outcome} (h : Handles filter l ids τ (.ok outcomes) l')
    (hid : id ∈ l) : ids.count id ≤ outcomes.count .duplicate := by
  induction h using Handles.ok_rec with
  | nil => simp
  | duplicate _ _ ih =>
    have hrest := ih hid
    rw [List.count_cons, List.count_cons_self]
    split <;> omega
  | @handled _ _ _ _ _ i _ _ hi _ ih =>
    have hne : i ≠ id := fun h => hi (h ▸ hid)
    rw [List.count_cons_of_ne hne]
    exact (ih (Ledger.mem_insert.2 (.inr hid))).trans List.count_le_count_cons

theorem skips_of_mem (hid : id ∈ l) : Skips l id := by
  intro filter τ r l' h
  obtain ⟨o, ho, rfl⟩ := (performs_forwardUnseen r).1 h
  cases ho with
  | unlisted =>
    refine ⟨by simp [Effect.Names], ?_⟩
    rintro ids stats ⟨⟩
  | listed ho =>
    constructor
    · intro s hs hnames
      obtain _ | ⟨_, hs⟩ := hs
      · simp [Effect.Names] at hnames
      · obtain ⟨i, -, hi, hserves⟩ := ho.serves hs
        exact hi (hserves.eq_of_names hnames ▸ hid)
    · rintro ids stats ⟨⟩ hr
      cases o with
      | error f => cases hr
      | ok outcomes =>
        cases hr
        change _ ≤ (outcomes.foldl Stats.add .zero).duplicates
        rw [foldl_add]
        exact (ho.count_le hid).trans (Nat.le_add_left _ _)

/-- Nothing is ever taken out of a ledger. -/
theorem Later.mem {k : Ledger} (h : Later l k) (hid : id ∈ l) : id ∈ k := by
  induction h with
  | first => exact hid
  | next filter τ r _ hpass ih => exact (mem_iff_of_performs hpass).2 (.inl ih)

theorem takes_of_not_mem (hid : id ∉ l) : Takes l id := by
  intro filter τ stats l' ids h hlisted hmem
  obtain ⟨o, ho, hr⟩ := (performs_forwardUnseen _).1 h
  cases ho with
  | unlisted => cases hlisted
  | listed ho =>
    cases hlisted
    cases o with
    | error f => cases hr
    | ok outcomes =>
      exact ((ho.of_ok.2 id hmem).resolve_left hid).mono (List.suffix_cons ..).isInfix

/-- When a pass fails since a step of a save is refused, its ledger has what was recorded before and the
identifier that was to be recorded, so that none of the passes that follow on it handles the message. The file
is left with what was recorded before, so that a pass over a ledger loaded from it handles the message if it
succeeds. -/
theorem forwardUnseen_refused {s : Reply}
    (h : Played (Allowed l.path) ((forwardUnseen (mailbox .source) (mailbox .destination) filter).run.run l) f τ
      (.error e, l') g) (hs : s ∈ τ) (href : s.refusesSave = true) :
    ∃ before id after, ∃ m : Ledger, Lists τ (before ++ id :: after) ∧
      (∀ i, i ∈ m ↔ i ∈ l ∨ i ∈ before) ∧ id ∉ m ∧ l' = m.insert id ∧
      (∀ k, Later l' k → Skips k id) ∧
      ((∀ i, Records (f l.path) i ↔ i ∈ l) →
        (∀ i, Records (g l.path) i ↔ i ∈ m) ∧
        ∀ k : Ledger, (∀ i, Records (g l.path) i ↔ i ∈ k) → Takes k id) := by
  obtain ⟨_, -, rfl, -, -⟩ | ⟨ids, u, v, ρ, hunseen, hlog, rfl, hall⟩ := played_forwardUnseen.1 h
  · cases List.mem_singleton.1 hs
    cases href
  obtain ⟨before, id, after, stats, m, w, σ, π, rfl, rfl, hok, hid⟩ := played_handleAll_error hall
  obtain ⟨o, ho, hr⟩ := (performs_handleAll _ before _).1 hok.says
  cases o with
  | error f => cases hr
  | ok outcomes =>
    have hσ := forall_mem_of_filter (fun _ _ => rfl) ho.refusesSave
    -- the refusal is a reply to what was done for the message at which the pass failed
    have hπ : s ∈ π := by
      have hopening : ∀ q ∈ opening (before ++ id :: after), q.refusesSave = false := by
        simp [opening, Reply.refusesSave]
      rw [← List.append_assoc] at hs
      refine (List.mem_append.1 hs).resolve_left fun hs => ?_
      have hsaved := List.forall_mem_append.2 ⟨hopening, hσ⟩ s hs
      exact Bool.false_ne_true (hsaved.symm.trans href)
    obtain ⟨hnew, rfl, hfile⟩ := handle_refused hid ho.path_eq hπ href
    have hmem := ho.of_ok.1
    have hentered : id ∈ m.insert id := Ledger.mem_insert.2 (.inl rfl)
    refine ⟨before, id, after, m, rfl, hmem, hnew, rfl, fun k hk => skips_of_mem (hk.mem hentered), ?_⟩
    intro hl
    have hv : InStep l.path l v := by
      refine ⟨rfl, fun i => ?_⟩
      rw [← hl, show v l.path = f l.path from hlog.trans hunseen]
    have hg := (inStep_of_handleAll hok hσ hv).of_eq hfile
    exact ⟨hg.records, fun k hk => takes_of_not_mem ((hk id).not.1 ((hg.records id).not.2 hnew))⟩

/-- A pass over one message, with no directory to write the ledger in. -/
theorem played_unwritable : ∃ τ l' g,
    Played (Allowed "db") ((forwardUnseen (mailbox .source) (mailbox .destination) none).run.run
      ⟨"db", .empty⟩) (fun _ => none) τ (.error ⟨["writing db.tmp"], .refused .missing⟩, l') g ∧
    Lists τ ["a"] ∧ (∃ s ∈ τ, s.refusesSave = true) ∧ l' = (⟨"db", .empty⟩ : Ledger).insert "a" := by
  refine ⟨_, _, _, ⟨.ok ["a"], fun _ => none, _, rfl, rfl, (), fun _ => none, _, rfl, rfl,
    .error .missing, _, _, ⟨none, rfl⟩, rfl, rfl, rfl, rfl⟩, rfl, ?_, rfl⟩
  exact ⟨_, .tail _ (.tail _ (.head _)), rfl⟩

/-- No pass that follows on the ledger in memory handles the message, but one over a ledger loaded from the
file does, if it succeeds. -/
theorem unwritable_is_skipped : ∃ τ l' g,
    Played (Allowed "db") ((forwardUnseen (mailbox .source) (mailbox .destination) none).run.run
      ⟨"db", .empty⟩) (fun _ => none) τ (.error ⟨["writing db.tmp"], .refused .missing⟩, l') g ∧
    (∃ s ∈ τ, s.refusesSave = true) ∧ (∀ k, Later l' k → Skips k "a") ∧
    ∀ k : Ledger, (∀ i, Records (g "db") i ↔ i ∈ k) → Takes k "a" := by
  obtain ⟨τ, l', g, h, hlisted, ⟨s, hs, href⟩, -⟩ := played_unwritable
  have hempty (i : String) : Records none i ↔ i ∈ (⟨"db", .empty⟩ : Ledger) :=
    iff_of_false (not_records_none i) (TextSet.not_mem_empty i)
  obtain ⟨before, id, after, m, hlists, -, -, -, hskips, hfile⟩ :=
    forwardUnseen_refused (l := ⟨"db", .empty⟩) h hs href
  have hids := hlists.unique hlisted
  obtain ⟨rfl, rfl, -⟩ : before = [] ∧ id = "a" ∧ after = [] := by
    simpa [List.append_eq_singleton_iff] using hids
  exact ⟨τ, l', g, h, ⟨s, hs, href⟩, hskips, (hfile hempty).2⟩

/-- The identifier at which the save is refused stays in the ledger, so the next pass skips the message. -/
theorem unwritable_is_kept : ∃ τ l' g,
    Played (Allowed "db") ((forwardUnseen (mailbox .source) (mailbox .destination) none).run.run
      ⟨"db", .empty⟩) (fun _ => none) τ (.error ⟨["writing db.tmp"], .refused .missing⟩, l') g ∧
    Lists τ ["a"] ∧ (∃ s ∈ τ, s.refusesSave = true) ∧ "a" ∉ (⟨"db", .empty⟩ : Ledger) ∧ "a" ∈ l' ∧
    Performs (forwardUnseen (mailbox .source) (mailbox .destination) none) l'
      [⟨.mail .source .unseen, .ok ["a"]⟩] (.ok ⟨0, 0, 1⟩) l' := by
  obtain ⟨τ, l', g, h, hlisted, href, rfl⟩ := played_unwritable
  have hkept : "a" ∈ (⟨"db", .empty⟩ : Ledger).insert "a" := by decide
  refine ⟨τ, _, g, h, hlisted, href, by decide, hkept, ?_⟩
  exact (performs_forwardUnseen _).2 ⟨_, .listed (.duplicate hkept .nil), rfl⟩

end MailSieve.Forward
