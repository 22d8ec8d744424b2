import MailSieve.Proofs.Files.Perform
import MailSieve.Proofs.Forward.Tracking

/-!
At most one copy of a message is ever handed over, in any number of passes over one ledger, whatever
fails and wherever the program is killed, as long as its ledger file is not missed when it is there.
-/

namespace MailSieve.Forward

open Files Dialogue

/-- How often a message with the identifier was handed over. -/
def Track.times (k : Track) (id : String) : Nat := (k.copies.map Copy.id).count (some id)

/-- Each message that was handed over was recorded then, and none was handed over more often than the missed
ledger files allow. -/
structure Sound (store : Path) (s : Contents × Track) : Prop where
  recorded : ∀ c ∈ s.2.copies, ∃ id, c.id = some id ∧ Records c.stored id
  bounded : Bounded (s.1 store) s.2.missed s.2.times

/-- The ledger in memory is good for the file. -/
structure Covers (store : Path) (l : Ledger) (s : Contents × Track) : Prop where
  path : l.path = store
  recorded : ∀ c ∈ s.2.copies, ∃ id, c.id = some id ∧ Records c.stored id
  booked : Booked l (s.1 store) s.2.missed s.2.times

/-- The identifier is recorded, and its message can be handed over once more. -/
structure Entered (store : Path) (id : String) (l : Ledger) (s : Contents × Track) : Prop
    extends Covers store l s where
  mem : id ∈ l
  stored : Records (s.1 store) id
  fresh : s.2.times id ≤ s.2.missed

/-- The message was fetched, too. -/
structure Fetched (store : Path) (id : String) (l : Ledger) (s : Contents × Track) : Prop
    extends Entered store id l s where
  fetched : s.2.fetched = some id

variable {store : Path} {l : Ledger} {s t : Contents × Track} {id : String}

theorem Retains.times (h : Retains store s t) : t.2.times = s.2.times := by
  unfold Track.times
  rw [h.copies]

theorem Sound.of_retains (hs : Sound store s) (h : Retains store s t) : Sound store t where
  recorded := by
    rw [h.copies]
    exact hs.recorded
  bounded := by
    rw [h.stored, h.times]
    exact hs.bounded.mono h.missed

theorem Covers.sound (hc : Covers store l s) : Sound store s := ⟨hc.recorded, hc.booked.toBounded⟩

theorem Covers.of_retains (hc : Covers store l s) (h : Retains store s t) : Covers store l t where
  path := hc.path
  recorded := (hc.sound.of_retains h).recorded
  booked := by
    rw [h.stored, h.times]
    exact hc.booked.mono h.missed

theorem Entered.of_retains (he : Entered store id l s) (h : Retains store s t) : Entered store id l t where
  toCovers := he.toCovers.of_retains h
  mem := he.mem
  stored := by
    rw [h.stored]
    exact he.stored
  fresh := by
    rw [h.times]
    exact he.fresh.trans h.missed

theorem Loads.covers (h : Loads store s l t) (hs : Sound store s) : Covers store l t where
  path := h.path
  recorded := (hs.of_retains h.toRetains).recorded
  booked := by
    rw [h.times]
    exact h.booked hs.bounded

theorem Covers.insert (hc : Covers store l s) (id : String) : Covers store (l.insert id) s :=
  ⟨hc.path, hc.recorded, hc.booked.insert id⟩

/-- Renaming files leaves each copy with its identifier, and with what was recorded. -/
theorem Covers.of_saves (hc : Covers l.path l s) (h : Saves l s t) : Covers l.path l t where
  path := rfl
  recorded := by
    rw [h.copies]
    exact List.forall_mem_map.2 hc.recorded
  booked := by
    have htimes : t.2.times = s.2.times := by
      unfold Track.times
      rw [h.copies, List.map_map]
      rfl
    rw [h.stored, htimes]
    exact (hc.booked.mono h.missed).save

/-- Recording an identifier that the ledger does not have. -/
theorem Covers.enter (hc : Covers store l s) (hid : id ∉ l) :
    Survives (Tracing store) (Sound store) (After (fun _ => Entered store id (l.insert id))
      (Covers store (l.insert id))) (l.insert id).save.run s := by
  have hfresh := hc.booked.fresh id hid
  have hpath : (l.insert id).path = store := hc.path
  have hcovers := hc.insert id
  subst hpath
  refine (tracks_save (fun t ht => hc.sound.of_retains ht)
    fun t ht => (hcovers.of_saves ht).sound).mono ?_
  rintro (f | _) t ht
  · exact hcovers.of_retains ht
  · have ht : Saves (l.insert id) s t := ht
    have hmem : id ∈ l.insert id := TextSet.mem_insert.2 (.inl rfl)
    refine ⟨hcovers.of_saves ht, hmem, ?_, ?_⟩
    · rw [ht.stored]
      exact records_bytes.2 hmem
    · rw [Track.times, ht.copies, List.map_map]
      exact hfresh.trans ht.missed

/-- Handing a recorded message over, which was the last to be fetched. -/
theorem Fetched.append (hf : Fetched store id l s) (hstored : t.1 store = s.1 store)
    {original : Option Original} {message : Bytes}
    (htrack : t.2 = { s.2 with copies := ⟨s.2.fetched, original, message, s.1 store⟩ :: s.2.copies }) :
    Covers store l t where
  path := hf.path
  recorded := by
    rw [htrack]
    exact List.forall_mem_cons.2 ⟨⟨id, hf.fetched, hf.stored⟩, hf.recorded⟩
  booked := by
    have hmissed : t.2.missed = s.2.missed := by rw [htrack]
    have htimes (i : String) : t.2.times i = s.2.times i + if id = i then 1 else 0 := by
      simp only [Track.times, htrack, List.map_cons, List.count_cons, hf.fetched, beq_iff_eq,
        Option.some.injEq]
    rw [hstored, hmissed]
    refine hf.booked.append hf.mem hf.stored hf.fresh ?_ fun i hi => ?_
    · rw [htimes, if_pos rfl]
    · rw [htimes, if_neg (Ne.symm hi), Nat.add_zero]

/-- A call to a mailbox that has no bearing on what was handed over. -/
theorem retains_of_mail {side : Side} {c : Mailbox.Call} {a : Except Failure (Result c)}
    (hR : Tracing store (.mail side c) s a t)
    (hafter : s.2.after store s.1 ⟨.mail side c, a⟩ = s.2) : Retains store s t :=
  .of_eq hR.1 (hR.2.trans hafter)

theorem steady_covers (store : Path) :
    Steady (Tracing store) (Sound store) (mailbox .source) (mailbox .destination) (Covers store)
      (Entered store) (fun id _ => Fetched store id) where
  holds _ _ h := h.sound
  discard _ _ _ _ h := h.toCovers
  logs line s a t hR := by
    obtain ⟨hfiles, htrack⟩ := hR
    have htrack : t.2 = s.2 := htrack
    have hretains : Retains store s t := .of_eq hfiles htrack
    exact ⟨fun l h => h.of_retains hretains, fun l id _ h =>
      ⟨h.toEntered.of_retains hretains, by rw [htrack]; exact h.fetched⟩⟩
  unseen l s h := ⟨h.sound, fun a t hR =>
    have ht := h.of_retains (retains_of_mail hR rfl)
    ⟨ht.sound, ht⟩⟩
  save id l s hid h := h.enter hid
  received id l s h := ⟨h.sound, fun a t hR => by
    have ht := h.of_retains (retains_of_mail hR rfl)
    cases a with
    | ok date => exact ⟨ht.sound, ht⟩
    | error f => exact ⟨ht.sound, ht.toCovers⟩⟩
  fetch id l s h := ⟨h.sound, fun a t hR => by
    obtain ⟨hfiles, htrack⟩ := hR
    have htrack : t.2 = { s.2 with fetched := some id } := htrack
    have ht := h.of_retains (t := t) ⟨hfiles, by rw [htrack], by rw [htrack]⟩
    cases a with
    | ok message => exact ⟨ht.sound, ht, congrArg Track.fetched htrack⟩
    | error f => exact ⟨ht.sound, ht.toCovers⟩⟩
  append id d l s h := ⟨h.sound, fun a t hR =>
    have ht := h.append hR.1 hR.2
    ⟨ht.sound, ht⟩⟩
  markSeen id l s h := ⟨h.sound, fun a t hR =>
    have ht := h.of_retains (retains_of_mail hR rfl)
    ⟨ht.sound, ht⟩⟩

/-- The ledger is loaded, then come passes on it, each with its own filter, whether or not they succeed. -/
def life (store : Path) (filters : List (Option Script.Program)) :
    Dialogue (List (Except Failure Stats)) := do
  match ← (Ledger.load store).run with
  | .ok l => sharing (mailbox .source) (mailbox .destination) filters l
  | .error f => pure [.error f]

theorem survives_life (filters : List (Option Script.Program)) (hs : Sound store s) :
    Survives (Tracing store) (Sound store) (fun _ _ => True) (life store filters) s := by
  refine Survives.bind (tracks_load fun t ht => hs.of_retains ht) ?_
  rintro (f | l) t hsound ht
  · exact ⟨hsound, trivial⟩
  · exact ((steady_covers store).survives_sharing filters (ht.covers hs)).mono fun _ _ _ => trivial

/-- Lives one after another, each to its end or until it is killed. Between two of them anything may happen to
files other than the ledger. -/
inductive History (store : Path) (start : Contents × Track) : Contents × Track → Prop
  | start : History store start start
  | live {u v : Contents × Track} : History store start u → files store = u.1 store →
    Passes (Tracing store) (life store filters) (files, u.2) v → History store start v

theorem sound_of_history (h : History store s t) (hs : Sound store s) : Sound store t := by
  induction h with
  | start => exact hs
  | @live files _ u _ _ hfiles hlife ih =>
    have hretains : Retains store u (files, u.2) := ⟨hfiles, rfl, le_rfl⟩
    exact (survives_life _ (ih.of_retains hretains)).passes hlife

theorem sound_start (store : Path) (files : Contents) : Sound store (files, .start) where
  recorded := nofun
  bounded := ⟨fun _ => Nat.zero_le _, fun _ _ => le_rfl⟩

/-- Over any history that starts with any files, a message is handed over at most once, and once more each
time that the ledger file was there and was missed; when one is handed over, the ledger file has its
identifier. -/
theorem append_at_most_once {files : Contents} (h : History store (files, .start) s) :
    (∀ id, s.2.times id ≤ s.2.missed + 1) ∧
    ∀ c ∈ s.2.copies, ∃ id, c.id = some id ∧ Records c.stored id := by
  have hs := sound_of_history h (sound_start store files)
  exact ⟨hs.bounded.few, hs.recorded⟩

/-- The ledger of the only message. -/
def onlyLedger : Ledger := Ledger.insert ⟨"db", .empty⟩ "a"

/-- A life that is told that there is no ledger file, and that is killed right after it handed its only
message over. -/
theorem passes_unseeing (s : Contents × Track) : ∃ t, Passes (Tracing "db") (life "db" [none]) s t ∧
    t.1 "db" = some onlyLedger.bytes ∧ t.2.copies.map Copy.id = some "a" :: s.2.copies.map Copy.id := by
  obtain ⟨f, k⟩ := s
  obtain ⟨k₁, hk, hcopies⟩ : ∃ k₁, k₁ = k.after "db" f ⟨.isThere "db", false⟩ ∧ k₁.copies = k.copies := by
    refine ⟨_, rfl, ?_⟩
    simp only [Track.after]
    split <;> rfl
  let f₁ : Contents := Function.update f onlyLedger.draft (some onlyLedger.bytes)
  let f₂ : Contents := Function.update (Function.update f₁ onlyLedger.draft none) "db" (f₁ onlyLedger.draft)
  let k₂ : Track := k₁.after "db" f₁ ⟨.rename onlyLedger.draft "db", .ok ()⟩
  have hstored : f₂ "db" = some onlyLedger.bytes :=
    (Function.update_self ..).trans (Function.update_self ..)
  let k₃ : Track := { k₂ with fetched := some "a" }
  let k₄ : Track := { k₃ with copies := ⟨some "a", k₃.last, [], f₂ "db"⟩ :: k₃.copies }
  refine ⟨(f₂, k₄), ?_, hstored, ?_⟩
  · refine .step (e := .isThere "db") (a := false) (t := (f, k₁)) ⟨rfl, hk⟩ ?_
    refine .step (e := .mail .source .unseen) (a := .ok ["a"]) (t := (f, k₁)) ⟨rfl, rfl⟩ ?_
    refine .step (e := .log _) (a := ()) (t := (f, k₁)) ⟨rfl, rfl⟩ ?_
    -- the ledger is written and put in place
    refine .step (e := .write _ _) (a := .ok ()) (t := (f₁, k₁)) ⟨rfl, rfl⟩ ?_
    refine .step (e := .rename _ _) (a := .ok ()) (t := (f₂, k₂)) ⟨rfl, rfl⟩ ?_
    refine .step (e := .mail .source (.received _)) (a := .ok (0 : Int)) (t := (f₂, k₂)) ⟨rfl, rfl⟩ ?_
    refine .step (e := .mail .source (.fetch _)) (a := .ok []) (t := (f₂, k₃)) ⟨rfl, rfl⟩ ?_
    refine .step (e := .log _) (a := ()) (t := (f₂, k₃)) ⟨rfl, rfl⟩ ?_
    refine .step (e := .mail .destination (.append _)) (a := .ok ()) (t := (f₂, k₄)) ⟨rfl, rfl⟩ ?_
    exact .here
  · change some "a" :: (k₁.copies.map (Copy.renamed _ _)).map Copy.id = _
    rw [List.map_map, hcopies]
    rfl

/-- The program is killed right after it handed its only message over. -/
theorem append_once_then_killed : ∃ s, History "db" (fun _ => none, .start) s ∧ s.2.times "a" = 1 ∧
    (∀ id, s.2.times id ≤ s.2.missed + 1) ∧
    ∀ c ∈ s.2.copies, ∃ id, c.id = some id ∧ Records c.stored id := by
  obtain ⟨s, hlife, -, hcopies⟩ := passes_unseeing (fun _ => none, .start)
  have h : History "db" (fun _ => none, .start) s := .live .start rfl hlife
  have hone : s.2.times "a" = 1 := by
    rw [Track.times, hcopies]
    rfl
  exact ⟨s, h, hone, append_at_most_once h⟩

/-- A disk where the directory through which the ledger is reached is a file for now. -/
def barredHost : Host where
  disk := ⟨[(["d"], .file [] 0), (["db"], .file onlyLedger.bytes 0)]⟩
  working := []
  now := 1
  given := []
  lines := []

/-- A ledger file that cannot be looked at is taken for one that is not there, and a message that it records
is handed over again. -/
theorem appended_twice_after_miss :
    (barredHost.perform (Ledger.load "d/../db") = (.ok ⟨"d/../db", .empty⟩, barredHost) ∧
      barredHost.disk.read [] "db" = .ok onlyLedger.bytes) ∧
    ∃ s, History "db" (fun _ => none, .start) s ∧ s.2.times "a" = 2 := by
  refine ⟨⟨by cbv, by cbv⟩, ?_⟩
  obtain ⟨s, hlife, -, hcopies⟩ := passes_unseeing (fun _ => none, .start)
  obtain ⟨t, hlife', -, hcopies'⟩ := passes_unseeing s
  refine ⟨t, .live (.live .start rfl hlife) rfl hlife', ?_⟩
  rw [Track.times, hcopies', hcopies]
  rfl

end MailSieve.Forward
