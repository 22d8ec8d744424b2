import MailSieve.Proofs.Forward.Chunks
import MailSieve.Proofs.Forward.Refusal

/-!
The order of a listing. A pass calls mailboxes once for every identifier that is not recorded, and records
it; where equal calls have equal answers, the order in which it comes to them shows in nothing that is left.
-/

namespace MailSieve.Ledger

/-- Those of the identifiers that are not in the ledger, each where it comes first. -/
def fresh (l : Ledger) : List String → List String
  | [] => []
  | id :: ids => if id ∈ l then l.fresh ids else id :: (l.insert id).fresh ids

variable {l : Ledger} {id : String} {xs ys : List String}

@[simp] theorem fresh_cons_of_mem (h : id ∈ l) : l.fresh (id :: xs) = l.fresh xs := if_pos h

@[simp] theorem fresh_cons_of_not_mem (h : id ∉ l) : l.fresh (id :: xs) = id :: (l.insert id).fresh xs :=
  if_neg h

theorem mem_fresh : id ∈ l.fresh xs ↔ id ∈ xs ∧ id ∉ l := by
  induction xs generalizing l with
  | nil => simp [fresh]
  | cons i xs ih =>
    by_cases hi : i ∈ l
    · rw [fresh_cons_of_mem hi, ih, List.mem_cons]
      have hne : id ∉ l → id ≠ i := fun h he => h (he ▸ hi)
      tauto
    · rw [fresh_cons_of_not_mem hi, List.mem_cons, ih, mem_insert, List.mem_cons]
      have hl : id = i → id ∉ l := fun he h => hi (he ▸ h)
      tauto

theorem nodup_fresh : (l.fresh xs).Nodup := by
  induction xs generalizing l with
  | nil => exact .nil
  | cons id xs ih =>
    by_cases hid : id ∈ l
    · rw [fresh_cons_of_mem hid]
      exact ih
    · rw [fresh_cons_of_not_mem hid, List.nodup_cons]
      refine ⟨fun h => ?_, ih⟩
      exact (mem_fresh.1 h).2 (mem_insert.2 (.inl rfl))

theorem perm_fresh (h : xs.Perm ys) : (l.fresh xs).Perm (l.fresh ys) := by
  refine (List.perm_ext_iff_of_nodup nodup_fresh nodup_fresh).2 fun id => ?_
  rw [mem_fresh, mem_fresh, h.mem_iff]

end MailSieve.Ledger

namespace MailSieve.Forward

open Files Dialogue

/-- Answers of mailboxes to calls, which depend on nothing but the call. -/
abbrev Answers : Type := (side : Side) → (c : Mailbox.Call) → Result c

/-- If the reply is one of a mailbox, it is the answer that it always gives to the call. -/
def Reply.Agrees (answer : Answers) : Reply → Prop
  | ⟨.mail side c, a⟩ => a = .ok (answer side c)
  | _ => True

/-- A host with mailboxes that answer every call, and equal calls alike. -/
def Answering (store : Path) (answer : Answers) : Responds Contents :=
  fun e f a g => Allowed store e f a g ∧ Reply.Agrees answer ⟨e, a⟩

variable {answer : Answers} {store : Path}
  {filter : Option Script.Program} {l l' m : Ledger} {f g k : Contents} {ids xs ys : List String}
  {id : String} {date : Date} {message : Bytes} {τ σ : List Reply} {outcomes : List Outcome}
  {stats stats' : Stats} {r : Except Failure Stats}

theorem filter_appends_handling :
    (handling filter l id date message).filter Reply.appends = copying filter date message := by
  simp only [handling, saving, delivering, copying]
  split <;> rfl

theorem filter_marks_handling :
    (handling filter l id date message).filter Reply.marks = [⟨.mail .source (.markSeen id), .ok ()⟩] := by
  simp only [handling, saving, delivering, copying]
  split <;> rfl

/-- What the source answers is what a message is handled with. -/
theorem eq_of_agrees (h : ∀ s ∈ handling filter l id date message, s.Agrees answer) :
    date = answer .source (.received id) ∧ message = answer .source (.fetch id) := by
  have hdate := h ⟨.mail .source (.received id), .ok date⟩ (by simp [handling, delivering])
  have hmessage := h ⟨.mail .source (.fetch id), .ok message⟩ (by simp [handling, delivering])
  exact ⟨Except.ok.inj hdate, Except.ok.inj hmessage⟩

/-- Messages that are all handled are copied and marked seen in the order in which they first come. -/
theorem Handles.calls (h : Handles filter l ids τ (.ok outcomes) l') (hτ : ∀ s ∈ τ, s.Agrees answer) :
    τ.filter Reply.appends = (l.fresh ids).flatMap (fun id =>
      copying filter (answer .source (.received id)) (answer .source (.fetch id))) ∧
    τ.filter Reply.marks = (l.fresh ids).map (fun id => ⟨.mail .source (.markSeen id), .ok ()⟩) := by
  induction h using Handles.ok_rec with
  | nil => exact ⟨rfl, rfl⟩
  | duplicate hid _ ih =>
    rw [Ledger.fresh_cons_of_mem hid]
    exact ih hτ
  | handled date message hid _ ih =>
    obtain ⟨hhead, hrest⟩ := List.forall_mem_append.1 hτ
    obtain ⟨hdate, hmessage⟩ := eq_of_agrees hhead
    obtain ⟨happends, hmarks⟩ := ih hrest
    rw [Ledger.fresh_cons_of_not_mem hid]
    constructor
    · rw [List.filter_append, filter_appends_handling, happends, List.flatMap_cons, ← hdate, ← hmessage]
    · rw [List.filter_append, filter_marks_handling, hmarks, List.map_cons, List.singleton_append]

/-- The numbers of a pass are determined by those of the calls. -/
theorem Tallies.eq (h : Tallies xs τ stats) (h' : Tallies ys σ stats') (hlength : xs.length = ys.length)
    (happends : τ.countP Reply.appends = σ.countP Reply.appends)
    (hmarks : τ.countP Reply.marks = σ.countP Reply.marks) : stats = stats' := by
  obtain ⟨ht, ha, hm⟩ := h
  obtain ⟨ht', ha', hm'⟩ := h'
  cases stats
  cases stats'
  simp only [Stats.mk.injEq] at *
  omega

/-- Where mailboxes answer every call, nothing fails but saves. -/
theorem Reply.Agrees.refusesSave {s : Reply} {e : Failure} (h : s.Agrees answer)
    (he : s.failure? = some e) : s.refusesSave = true := by
  obtain ⟨effect, a⟩ := s
  cases effect with
  | write p content =>
    cases a with
    | ok a => cases he
    | error r => rfl
  | rename p q =>
    cases a with
    | ok a => cases he
    | error r => rfl
  | mail side c =>
    cases h
    cases he
  | _ => cases he

theorem Handles.refusesSave_of_error {e : Failure} (h : Handles filter l ids τ (.error e) l')
    (hτ : ∀ s ∈ τ, s.Agrees answer) : ∃ s ∈ τ, s.refusesSave = true := by
  obtain ⟨_, _, _, σ, _, π, _, _, -, rfl, hb, -⟩ := h.of_error
  obtain ⟨s, hs, he⟩ := hb.exists_failure
  have hmem : s ∈ σ ++ π := List.mem_append_right σ hs
  exact ⟨s, hmem, (hτ s hmem).refusesSave he⟩

/-- The file has what it had if the ledger is still the one at the start, and else the bytes of the ledger. -/
structure LastSaved (start : Ledger) (before : Contents) (l : Ledger) (f : Contents) : Prop where
  path : l.path = start.path
  grows : ∀ i ∈ start, i ∈ l
  kept : l = start → f start.path = before start.path
  saved : l ≠ start → f start.path = some l.bytes

theorem LastSaved.start : LastSaved l f l f :=
  ⟨rfl, fun _ h => h, fun _ => rfl, fun h => absurd rfl h⟩

theorem LastSaved.unique (hg : LastSaved l f m g) (hk : LastSaved l f m k) : g l.path = k l.path := by
  by_cases h : m = l
  · rw [hg.kept h, hk.kept h]
  · rw [hg.saved h, hk.saved h]

theorem steady_lastSaved (l : Ledger) (f : Contents) :
    Steady (AllowedSaving l.path) (fun _ => True) (mailbox .source) (mailbox .destination) (LastSaved l f)
      (fun _ => LastSaved l f) (fun _ _ => LastSaved l f) := by
  apply steady_saving
  · exact fun _ _ h => h.path
  · exact fun _ _ _ h hg =>
      ⟨h.path, h.grows, fun hl => hg.trans (h.kept hl), fun hl => hg.trans (h.saved hl)⟩
  · intro id m g k hid h hk
    -- a ledger that was saved has an identifier that the one at the start has not, and keeps it
    have hentered : id ∈ m.insert id := Ledger.mem_insert.2 (.inl rfl)
    refine ⟨h.path, fun i hi => Ledger.mem_insert.2 (.inr (h.grows i hi)), fun he => ?_, fun _ => hk⟩
    exact absurd (h.grows id (he ▸ hentered)) hid

/-- The replies that are neither to the listing nor for the log are those of the messages. -/
theorem filter_opening (p : Reply → Bool) (ids : List String) (τ : List Reply)
    (hlog : ∀ line a, p ⟨.log line, a⟩ = false) (hunseen : p ⟨.mail .source .unseen, .ok ids⟩ = false) :
    (opening ids ++ τ).filter p = (τ.filter (!·.isLog)).filter p := by
  have hopening : (opening ids).filter p = [] := by simpa [opening, hunseen] using hlog _ _
  rw [List.filter_append, hopening, List.nil_append, List.filter_filter]
  refine (List.filter_congr fun s _ => ?_).symm
  obtain ⟨e, a⟩ := s
  cases e with
  | log line => simp [hlog]
  | _ => simp [Reply.isLog]

/-- What a pass over listed messages does, once they are listed. -/
theorem handles_of_listing
    (h : Played ((Answering store answer).listing ids)
      ((forwardUnseen (mailbox .source) (mailbox .destination) filter).run.run l) f τ (r, l') g) :
    ∃ ρ o, τ = opening ids ++ ρ ∧ (∀ s ∈ ρ, s.Agrees answer) ∧
      Played (Allowed store)
        ((handleAll (mailbox .source) (mailbox .destination) filter .zero ids).run.run l) f ρ (r, l') g ∧
      Handles filter l ids (ρ.filter (!·.isLog)) o l' ∧ r = o.map (·.foldl Stats.add .zero) := by
  obtain ⟨ρ, rfl, hall⟩ := played_forwardUnseen_listing.1 h
  have hanswering : Played (Answering store answer)
      ((handleAll (mailbox .source) (mailbox .destination) filter .zero ids).run.run l) f ρ (r, l') g := by
    refine hall.congr fun s hs u v hR => ?_
    have hne := ne_unseen_of_played_handleAll hall s hs
    obtain ⟨e, a⟩ := s
    cases e with
    | log line => exact ⟨congrFun hR store, trivial⟩
    | mail side c =>
      cases side with
      | source =>
        cases c with
        | unseen => exact absurd rfl hne
        | _ => exact hR
      | destination => exact hR
    | _ => exact hR
  obtain ⟨hallowed, hagrees⟩ := played_and.1 hanswering
  obtain ⟨o, ho, hr⟩ := (performs_handleAll _ ids r).1 hallowed.says
  exact ⟨ρ, o, rfl, hagrees, hallowed, ho, hr⟩

/-- What a pass over listed messages has done and left when it succeeds. -/
structure Settles (answer : Answers) (filter : Option Script.Program) (l : Ledger) (f : Contents)
    (ids : List String) (τ : List Reply) (stats : Stats) (l' : Ledger) (g : Contents) : Prop where
  tallies : Tallies ids τ stats
  mem_iff : ∀ i, i ∈ l' ↔ i ∈ l ∨ i ∈ ids
  file : LastSaved l f l' g
  appends : τ.filter Reply.appends = (l.fresh ids).flatMap fun id =>
    copying filter (answer .source (.received id)) (answer .source (.fetch id))
  marks : τ.filter Reply.marks = (l.fresh ids).map fun id => ⟨.mail .source (.markSeen id), .ok ()⟩

theorem settles_of_played
    (h : Played ((Answering l.path answer).listing ids)
      ((forwardUnseen (mailbox .source) (mailbox .destination) filter).run.run l) f τ (.ok stats, l') g) :
    Settles answer filter l f ids τ stats l' g := by
  obtain ⟨ρ, o, rfl, hagrees, hall, ho, hr⟩ := handles_of_listing h
  cases o with
  | error e => cases hr
  | ok outcomes =>
    cases hr
    have happends := filter_opening Reply.appends ids ρ (fun _ _ => rfl) rfl
    have hmarks := filter_opening Reply.marks ids ρ (fun _ _ => rfl) rfl
    have hcalls := ho.calls fun s hs => hagrees s (List.mem_filter.1 hs).1
    have htallies := ho.tallies
    have hsaving := played_and.2 ⟨hall, forall_mem_of_filter (fun _ _ => rfl) ho.refusesSave⟩
    constructor
    · refine ⟨htallies.total, ?_, ?_⟩
      · rw [List.countP_eq_length_filter, happends, ← List.countP_eq_length_filter, htallies.appends]
      · rw [List.countP_eq_length_filter, hmarks, ← List.countP_eq_length_filter, htallies.marks]
    · exact ho.of_ok.1
    · exact ((steady_lastSaved l f).upholds_handleAll filter .zero ids .start).of_played hsaving
    · exact happends.trans hcalls.1
    · exact hmarks.trans hcalls.2

theorem Settles.eq_of_perm (hperm : xs.Perm ys) (h : Settles answer filter l f xs τ stats l' g)
    (h' : Settles answer filter l f ys σ stats' m k) :
    stats = stats' ∧ l' = m ∧ g l.path = k l.path ∧
      (τ.filter Reply.appends).Perm (σ.filter Reply.appends) ∧
      (τ.filter Reply.marks).Perm (σ.filter Reply.marks) := by
  have hfresh : (l.fresh xs).Perm (l.fresh ys) := Ledger.perm_fresh hperm
  have happends : (τ.filter Reply.appends).Perm (σ.filter Reply.appends) := by
    rw [h.appends, h'.appends]
    exact hfresh.flatMap_right _
  have hmarks : (τ.filter Reply.marks).Perm (σ.filter Reply.marks) := by
    rw [h.marks, h'.marks]
    exact hfresh.map _
  have hledger : l' = m := by
    have hids : l'.ids = m.ids := TextSet.ext fun i => by
      have hmem : i ∈ l' ↔ i ∈ m := by rw [h.mem_iff, h'.mem_iff, hperm.mem_iff]
      exact hmem
    have hpath : l'.path = m.path := h.file.path.trans h'.file.path.symm
    cases l'
    cases m
    cases hids
    cases hpath
    rfl
  subst hledger
  refine ⟨h.tallies.eq h'.tallies hperm.length_eq ?_ ?_, rfl, h.file.unique h'.file, happends, hmarks⟩
  · rw [List.countP_eq_length_filter, List.countP_eq_length_filter, happends.length_eq]
  · rw [List.countP_eq_length_filter, List.countP_eq_length_filter, hmarks.length_eq]

/-- With these mailboxes only a refused save fails a pass. -/
theorem exists_refused_of_error {e : Failure}
    (h : Played ((Answering store answer).listing ids)
      ((forwardUnseen (mailbox .source) (mailbox .destination) filter).run.run l) f τ (.error e, l') g) :
    ∃ s ∈ τ, s.refusesSave = true := by
  obtain ⟨ρ, o, rfl, hagrees, -, ho, hr⟩ := handles_of_listing h
  cases o with
  | ok outcomes => cases hr
  | error e =>
    obtain ⟨s, hs, href⟩ := ho.refusesSave_of_error fun s hs => hagrees s (List.mem_filter.1 hs).1
    exact ⟨s, List.mem_append_right _ (List.mem_filter.1 hs).1, href⟩

/-- There is always an answer that is no refusal of a save. -/
theorem exists_saving_answer (e : Effect) (f : Contents) : ∃ a g,
    (Answering store answer).listing ids e f a g ∧ Reply.refusesSave ⟨e, a⟩ = false := by
  cases e with
  | isThere p => exact ⟨true, f, ⟨rfl, trivial⟩, rfl⟩
  | read p => exact ⟨.error .missing, f, ⟨rfl, trivial⟩, rfl⟩
  | write p content => exact ⟨.ok (), _, ⟨rfl, trivial⟩, rfl⟩
  | rename p q => exact ⟨.ok (), _, ⟨rfl, trivial⟩, rfl⟩
  | makeDirectory p => exact ⟨.ok (), f, ⟨rfl, trivial⟩, rfl⟩
  | list p => exact ⟨.ok [], f, ⟨rfl, trivial⟩, rfl⟩
  | modified p => exact ⟨.error .missing, f, ⟨rfl, trivial⟩, rfl⟩
  | setModified p d => exact ⟨.ok (), f, ⟨rfl, trivial⟩, rfl⟩
  | freshName size => exact ⟨"", f, ⟨rfl, trivial⟩, rfl⟩
  | log line => exact ⟨(), f, rfl, rfl⟩
  | mail side c =>
    cases side with
    | source =>
      cases c with
      | unseen => exact ⟨.ok ids, f, ⟨rfl, rfl⟩, rfl⟩
      | _ => exact ⟨.ok (answer .source _), f, ⟨rfl, rfl⟩, rfl⟩
    | destination => exact ⟨.ok (answer .destination c), f, ⟨rfl, rfl⟩, rfl⟩

theorem exists_played_ok (answer : Answers) (filter : Option Script.Program) (l : Ledger) (f : Contents)
    (ids : List String) :
    ∃ τ stats l' g, Played ((Answering l.path answer).listing ids)
      ((forwardUnseen (mailbox .source) (mailbox .destination) filter).run.run l) f τ (.ok stats, l') g := by
  obtain ⟨τ, ⟨r, l'⟩, g, h, -⟩ := Reaches.of_answers
    (R := fun e f a g => (Answering l.path answer).listing ids e f a g ∧ Reply.refusesSave ⟨e, a⟩ = false)
    exists_saving_answer ((forwardUnseen (mailbox .source) (mailbox .destination) filter).run.run l) f
  obtain ⟨h, hsaves⟩ := (played_and (Q := fun s => s.refusesSave = false)).1 h
  cases r with
  | ok stats => exact ⟨τ, stats, l', g, h⟩
  | error e =>
    obtain ⟨s, hs, href⟩ := exists_refused_of_error h
    exact absurd ((hsaves s hs).symm.trans href) Bool.false_ne_true

/-- With mailboxes that answer every call, and equal calls alike, a pass can succeed, and does unless a save is
refused. Then all listed messages are recorded and counted, and the order in which they are listed makes no
difference to the numbers, the ledger, the bytes of its file and, up to their own order, the calls to append and
to mark seen. -/
theorem forwardUnseen_perm (answer : Answers) (filter : Option Script.Program) (l : Ledger) (f : Contents)
    {xs ys : List String} (hperm : xs.Perm ys) :
    (∀ ids, ∃ τ stats l' g, Played ((Answering l.path answer).listing ids)
      ((forwardUnseen (mailbox .source) (mailbox .destination) filter).run.run l) f τ (.ok stats, l') g) ∧
    (∀ ids τ r l' g, Played ((Answering l.path answer).listing ids)
        ((forwardUnseen (mailbox .source) (mailbox .destination) filter).run.run l) f τ (r, l') g →
      (∃ stats, r = .ok stats) ∨ ∃ s ∈ τ, s.refusesSave = true) ∧
    ∀ τ stats l' g σ stats' m k,
      Played ((Answering l.path answer).listing xs)
        ((forwardUnseen (mailbox .source) (mailbox .destination) filter).run.run l) f τ (.ok stats, l') g →
      Played ((Answering l.path answer).listing ys)
        ((forwardUnseen (mailbox .source) (mailbox .destination) filter).run.run l) f σ (.ok stats', m) k →
      (∀ i, i ∈ l' ↔ i ∈ l ∨ i ∈ xs) ∧ Tallies xs τ stats ∧
        stats = stats' ∧ l' = m ∧ g l.path = k l.path ∧
        (τ.filter Reply.appends).Perm (σ.filter Reply.appends) ∧
        (τ.filter Reply.marks).Perm (σ.filter Reply.marks) := by
  refine ⟨exists_played_ok answer filter l f, fun ids τ r l' g h => ?_,
    fun τ stats l' g σ stats' m k h h' => ?_⟩
  · cases r with
    | ok stats => exact .inl ⟨stats, rfl⟩
    | error e => exact .inr (exists_refused_of_error h)
  · have hsettles := settles_of_played h
    exact ⟨hsettles.mem_iff, hsettles.tallies, hsettles.eq_of_perm hperm (settles_of_played h')⟩

/-- Mailboxes where each message is its identifier. -/
def echoing : Answers
  | _, .unseen => ([] : List String)
  | _, .fetch id => Bytes.ofString id
  | _, .received _ => (0 : Date)
  | _, .markSeen _ | _, .append _ => ()

/-- One message is listed twice and one was handled before: two are copied, whichever comes first. -/
theorem relisted_settle_alike : ["b", "c", "a", "b"].Perm ["a", "b", "b", "c"] ∧
    ∃ τ σ l' g k,
      Played ((Answering "db" echoing).listing ["b", "c", "a", "b"])
        ((forwardUnseen (mailbox .source) (mailbox .destination) none).run.run
          ⟨"db", .ofList ["c"]⟩) (fun _ => none) τ (.ok ⟨2, 0, 2⟩, l') g ∧
      Played ((Answering "db" echoing).listing ["a", "b", "b", "c"])
        ((forwardUnseen (mailbox .source) (mailbox .destination) none).run.run
          ⟨"db", .ofList ["c"]⟩) (fun _ => none) σ (.ok ⟨2, 0, 2⟩, l') k ∧
      g "db" = k "db" ∧ (τ.filter Reply.appends).Perm (σ.filter Reply.appends) ∧
      (τ.filter Reply.marks).Perm (σ.filter Reply.marks) := by
  have hperm : ["b", "c", "a", "b"].Perm ["a", "b", "b", "c"] := by decide
  obtain ⟨hplays, -, hsame⟩ :=
    forwardUnseen_perm echoing none ⟨"db", .ofList ["c"]⟩ (fun _ => none) hperm
  obtain ⟨τ, stats, l', g, h⟩ := hplays ["b", "c", "a", "b"]
  obtain ⟨σ, stats', m, k, h'⟩ := hplays ["a", "b", "b", "c"]
  obtain ⟨-, htallies, rfl, rfl, hfile, happends, hmarks⟩ := hsame _ _ _ _ _ _ _ _ h h'
  have hstats : stats = ⟨2, 0, 2⟩ := by
    have hsettles := settles_of_played h
    have hcopied : τ.countP Reply.appends = 2 := by
      rw [List.countP_eq_length_filter, hsettles.appends]
      rfl
    have hmarked : τ.countP Reply.marks = 2 := by
      rw [List.countP_eq_length_filter, hsettles.marks]
      rfl
    obtain ⟨htotal, ha, hm⟩ := htallies
    cases stats
    rw [Stats.mk.injEq]
    simp only [List.length_cons, List.length_nil] at htotal ha hm
    omega
  subst hstats
  exact ⟨hperm, τ, σ, l', g, k, h, h', hfile, happends, hmarks⟩

end MailSieve.Forward
