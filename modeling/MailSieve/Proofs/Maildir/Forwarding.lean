import Mathlib
import MailSieve.Proofs.Forward.Recording
import MailSieve.Proofs.Forward.Reloading
import MailSieve.Proofs.Forward.Tracking
import MailSieve.Proofs.Maildir.Marking

/-!
Passes from a maildir: however often they are made, no file of a message is copied twice.
-/

namespace MailSieve.Maildir

open Files Text Forward Dialogue

variable {root store p q : Path} {part part' : Part} {id id' file file' : String}

/-! ### Paths of messages -/

/-- A path of a message that has an identifier. -/
def IsPathOf (root p : Path) (id : String) : Prop :=
  ∃ e, IsEntry e ∧ p = e.path root ∧ e.id = id

theorem within_join (part : Part) (root : Path) (file : String) :
    (part.within root).join file = part.within root ++ "/" ++ file := by
  have hname := isName_part part
  have hslash : (part.within root).endsInSlash = false :=
    Path.endsInSlash_join hname.no_slash hname.ne_empty
  have hempty : (part.within root).isEmpty = false :=
    Bool.eq_false_iff.2 fun h => within_ne_empty part root (String.isEmpty_iff.1 h)
  rw [Path.join, hempty, ← Path.endsInSlash, hslash]
  rfl

/-- The path of a file of a maildir says in which part it is, whatever its name is. -/
theorem join_injective (h : (part.within root).join file = (part'.within root).join file') :
    part = part' ∧ file = file' := by
  obtain ⟨r, hr⟩ : ∃ r : String, ∀ name, root.join name = r ++ name := by
    unfold Path.join
    split
    · exact ⟨root, fun _ => rfl⟩
    · exact ⟨root ++ "/", fun _ => rfl⟩
  have hlength (part : Part) : part.name.toList.length = 3 := by cases part <;> rfl
  rw [within_join, within_join, Part.within, Part.within, hr, hr, ← String.toList_inj] at h
  simp only [String.toList_append, List.append_assoc, List.append_cancel_left_eq] at h
  obtain ⟨hname, hfile⟩ := List.append_inj h (by rw [hlength, hlength])
  exact ⟨name_injective (String.toList_inj.1 hname),
    String.toList_inj.1 (List.append_cancel_left hfile)⟩

theorem IsPathOf.unique (h : IsPathOf root p id) (h' : IsPathOf root p id') : id = id' := by
  obtain ⟨e, he, rfl, rfl⟩ := h
  obtain ⟨e', he', hpath, rfl⟩ := h'
  obtain ⟨hpart, hfile⟩ := join_injective hpath
  rw [← he.name, ← he'.name, hpart, hfile]

/-! ### What the calls of a maildir do to the ledger file and to what was copied -/

variable {s s₀ t u : Contents × Track}

/-- A call that changes neither the ledger file nor what was copied. -/
abbrev Looks (store : Path) (s₀ : Contents × Track) (post : α → Prop) (x : ExceptT Failure Dialogue α)
    (s : Contents × Track) : Prop :=
  Ensures (Tracing store) (After (fun a t => Retains store s₀ t ∧ post a) (Retains store s₀)) x.run s

theorem looks_entries (h : Retains store s₀ s) (hpart : part ≠ .tmp) :
    Looks store s₀ (fun es => ∀ e ∈ es, IsEntry e) (entries root part) s := by
  refine Ensures.ask ?_
  rintro a t ⟨hstored, htrack⟩
  have ht : Retains store s₀ t := h.trans (.of_eq hstored htrack)
  cases a with
  | error r => exact Ensures.done ⟨ht, nofun⟩
  | ok files =>
    refine Ensures.done ⟨ht, fun e he => ?_⟩
    obtain ⟨f, hf, rfl⟩ := List.mem_map.1 he
    refine ⟨?_, ?_, ?_⟩
    · rwa [part_ofName]
    · rw [part_ofName, file_ofName]
    · rw [file_ofName]
      simpa using (List.mem_filter.1 hf).2

theorem looks_find (h : Retains store s₀ s) :
    Looks store s₀ (fun e => IsEntry e ∧ e.id = id) (find root id) s := by
  have hmessages : Looks store s₀ (fun es => ∀ e ∈ es, IsEntry e) (messages root) s := by
    refine (looks_entries h (by decide)).call_bind fun new t ⟨ht, hnew⟩ => ?_
    refine (looks_entries ht (by decide)).call_bind fun cur u ⟨hu, hcur⟩ => ?_
    refine Ensures.done ⟨hu, fun e he => ?_⟩
    obtain he | he := List.mem_append.1 he
    · exact hnew e he
    · exact hcur e (List.mem_filter.1 he).1
  refine hmessages.call_bind fun es t ⟨ht, hes⟩ => ?_
  split
  · next e he =>
    exact Ensures.done ⟨ht, hes e (List.mem_of_find?_eq_some he), by simpa using List.find?_some he⟩
  · exact Ensures.done ht

theorem looks_unseen (h : Retains store s₀ s) : Looks store s₀ (fun _ => True) (unseen root) s := by
  refine (looks_entries h (by decide)).call_bind fun new t ⟨ht, _⟩ => ?_
  refine (looks_entries ht (by decide)).call_bind fun cur u ⟨hu, _⟩ => ?_
  split
  · exact Ensures.done hu
  · exact Ensures.done ⟨hu, trivial⟩

theorem looks_received (h : Retains store s₀ s) : Looks store s₀ (fun _ => True) (received root id) s := by
  refine (looks_find h).call_bind fun e t ⟨ht, _⟩ => Ensures.ask ?_
  rintro a u ⟨hstored, htrack⟩
  have hu : Retains store s₀ u := ht.trans (.of_eq hstored htrack)
  cases a with
  | error r => exact Ensures.done hu
  | ok date => exact Ensures.done ⟨hu, trivial⟩

/-- What is fetched is the content of a file of the message, which is the last that was read. -/
theorem ensures_fetch (h : Retains store s₀ s) :
    Ensures (Tracing store) (After (fun message t => Retains store s₀ t ∧
      ∃ p, IsPathOf root p id ∧ t.2.last = some ⟨p, message⟩) (Retains store s₀))
      (fetch root id : ExceptT Failure Dialogue _).run s := by
  refine (looks_find h).call_bind fun e t ⟨ht, he, hid⟩ => Ensures.ask ?_
  rintro (r | message) u ⟨hstored, htrack⟩
  · exact Ensures.done (ht.trans (.of_eq (congrFun hstored store) htrack))
  · have hread : u.2 = { t.2 with last := some ⟨e.path root, message⟩ } := htrack
    have hretains : Retains store t u := ⟨congrFun hstored.1 store, by rw [hread], by rw [hread]⟩
    exact Ensures.done ⟨ht.trans hretains, e.path root, ⟨e, he, rfl, hid⟩, congrArg Track.last hread⟩

/-- The ledger file stays, and what was copied stays but for a message that is renamed. -/
structure Moves (root store : Path) (id : String) (s t : Contents × Track) : Prop where
  stored : t.1 store = s.1 store
  missed : s.2.missed ≤ t.2.missed
  copies : t.2.copies = s.2.copies ∨ ∃ p q, IsPathOf root p id ∧ IsPathOf root q id ∧
    t.2.copies = s.2.copies.map (.renamed p q)

theorem moves_of_retains (h : Retains store s t) : Moves root store id s t :=
  ⟨h.stored, h.missed, .inl h.copies⟩

/-- What is marked is renamed from one path of the message to another. -/
theorem ensures_markSeen (hstore : ∀ id, ¬ IsPathOf root store id) :
    Ensures (Tracing store) (fun _ => Moves root store id s)
      (markSeen root id : ExceptT Failure Dialogue _).run s := by
  have hrename {e : Entry} {t : Contents × Track} (ht : Retains store s t) (he : IsEntry e)
      (hid : e.id = id) :
      Ensures (Tracing store) (fun _ => Moves root store id s)
        (attempt s!"marking {e.path root} seen"
          (Files.rename ((moved e).path root) ((marked e).path root)) :
            ExceptT Failure Dialogue _).run t := by
    have hp : IsPathOf root ((moved e).path root) id := ⟨_, he.moved, rfl, (id_moved e).trans hid⟩
    have hq : IsPathOf root ((marked e).path root) id := ⟨_, he.marked, rfl, hid⟩
    refine Ensures.ask ?_
    rintro (r | _) u ⟨hfiles, htrack⟩
    · exact Ensures.done (moves_of_retains (ht.trans (.of_eq (congrFun hfiles store) htrack)))
    · have hnep : store ≠ (moved e).path root := fun heq => hstore id (heq ▸ hp)
      have hneq : store ≠ (marked e).path root := fun heq => hstore id (heq ▸ hq)
      have hfiles : u.1 = Function.update (Function.update t.1 _ none) _ _ := hfiles
      have hcopies : u.2.copies = t.2.copies.map _ := congrArg Track.copies htrack
      refine Ensures.done ⟨?_, ht.missed.trans (congrArg Track.missed htrack).ge, .inr ⟨_, _, hp, hq, ?_⟩⟩
      · rw [hfiles, Function.update_of_ne hneq, Function.update_of_ne hnep, ht.stored]
      · rw [hcopies, ht.copies]
  refine Ensures.bind (looks_find (.refl s)) ?_
  rintro (f | e) t ht
  · exact Ensures.done (moves_of_retains ht)
  · obtain ⟨ht, he, rfl⟩ := ht
    obtain ⟨part, file, id, flags⟩ := e
    cases part with
    | new => exact hrename ht he rfl
    | cur => exact hrename ht he rfl
    | tmp => exact absurd rfl he.part

/-! ### What is copied is recorded -/

/-- A copy is that of a file of the message that has an identifier. -/
def IsCopyOf (root : Path) (c : Copy) (id : String) : Prop :=
  ∃ p, c.original = some ⟨p, c.message⟩ ∧ IsPathOf root p id

variable {copies : List Copy} {ids : List String} {l : Ledger}

/-- Renaming a message leaves each copy with its identifier. -/
theorem isCopyOf_renamed (h : List.Forall₂ (IsCopyOf root) copies ids) (hp : IsPathOf root p id)
    (hq : IsPathOf root q id) : List.Forall₂ (IsCopyOf root) (copies.map (.renamed p q)) ids := by
  rw [List.forall₂_map_left_iff]
  refine h.imp fun c i ⟨x, hx, hi⟩ => ?_
  refine ⟨if x = p then q else x, ?_, ?_⟩
  · rw [Copy.renamed, hx]
    rfl
  · split
    · next hxp => exact (hxp ▸ hi).unique hp ▸ hq
    · exact hi

/-- Renaming what is no message leaves all copies as they are. -/
theorem isCopyOf_renamed_other (h : List.Forall₂ (IsCopyOf root) copies ids)
    (hp : ∀ id, ¬ IsPathOf root p id) : List.Forall₂ (IsCopyOf root) (copies.map (.renamed p q)) ids := by
  rw [List.forall₂_map_left_iff]
  refine h.imp fun c i ⟨x, hx, hi⟩ => ⟨x, ?_, hi⟩
  have hne : x ≠ p := fun hxp => hp i (hxp ▸ hi)
  simp [Copy.renamed, Original.renamed, hx, hne]

theorem exists_isCopyOf (h : List.Forall₂ (IsCopyOf root) copies ids) {c : Copy} (hc : c ∈ copies) :
    ∃ id, IsCopyOf root c id := by
  induction h with
  | nil => cases hc
  | @cons c' id copies ids hid _ ih =>
    obtain rfl | hc := List.mem_cons.1 hc
    · exact ⟨id, hid⟩
    · exact ih hc

/-- A file is copied no more often than messages with its identifier are, since the path of a file says which
message it is. -/
theorem count_path_le (h : List.Forall₂ (IsCopyOf root) copies ids) (hp : IsPathOf root p id) :
    (copies.map Copy.path?).count (some p) ≤ ids.count id := by
  induction h with
  | nil => exact Nat.zero_le _
  | @cons c i copies ids hc _ ih =>
    rw [List.map_cons, List.count_cons, List.count_cons]
    refine Nat.add_le_add ih ?_
    split
    · next heq =>
      obtain ⟨x, hx, hi⟩ := hc
      have hxp : x = p := by simpa [Copy.path?, hx] using heq
      rw [if_pos (beq_iff_eq.2 ((hxp ▸ hi).unique hp))]
    · exact Nat.zero_le _

/-- The copies are of messages that were handed over no more often than missed ledger files allow. -/
def Kept (root store : Path) (s : Contents × Track) : Prop :=
  ∃ ids, List.Forall₂ (IsCopyOf root) s.2.copies ids ∧
    Bounded (s.1 store) s.2.missed fun id => ids.count id

/-- Between two messages: the ledger in memory is good for the file, given what was copied. -/
structure Settled (root store : Path) (l : Ledger) (s : Contents × Track) : Prop where
  path : l.path = store
  booked : ∃ ids, List.Forall₂ (IsCopyOf root) s.2.copies ids ∧
    Booked l (s.1 store) s.2.missed fun id => ids.count id

/-- The identifier is recorded, and a message that has it can be copied once more. -/
structure Fresh (root store : Path) (id : String) (l : Ledger) (s : Contents × Track) : Prop where
  path : l.path = store
  mem : id ∈ l
  recorded : Records (s.1 store) id
  booked : ∃ ids, List.Forall₂ (IsCopyOf root) s.2.copies ids ∧
    Booked l (s.1 store) s.2.missed (fun id => ids.count id) ∧ ids.count id ≤ s.2.missed

/-- The message was fetched from a file of its own. -/
def Fetched (root store : Path) (id : String) (message : Bytes) (l : Ledger) (s : Contents × Track) :
    Prop :=
  Fresh root store id l s ∧ ∃ p, IsPathOf root p id ∧ s.2.last = some ⟨p, message⟩

theorem Settled.kept (h : Settled root store l s) : Kept root store s :=
  h.booked.imp fun _ h => ⟨h.1, h.2.toBounded⟩

theorem Fresh.settled (h : Fresh root store id l s) : Settled root store l s :=
  ⟨h.path, h.booked.imp fun _ h => ⟨h.1, h.2.1⟩⟩

theorem Kept.of_retains (hk : Kept root store s) (h : Retains store s t) : Kept root store t := by
  obtain ⟨ids, hcopies, hbounded⟩ := hk
  refine ⟨ids, ?_, ?_⟩
  · rwa [h.copies]
  · rw [h.stored]
    exact hbounded.mono h.missed

theorem Settled.of_retains (hs : Settled root store l s) (h : Retains store s t) :
    Settled root store l t := by
  obtain ⟨hpath, ids, hcopies, hbooked⟩ := hs
  refine ⟨hpath, ids, ?_, ?_⟩
  · rwa [h.copies]
  · rw [h.stored]
    exact hbooked.mono h.missed

theorem Fresh.of_retains (hf : Fresh root store id l s) (h : Retains store s t) :
    Fresh root store id l t := by
  obtain ⟨hpath, hmem, hrecorded, ids, hcopies, hbooked, hfew⟩ := hf
  refine ⟨hpath, hmem, ?_, ids, ?_, ?_, hfew.trans h.missed⟩
  · rwa [h.stored]
  · rwa [h.copies]
  · rw [h.stored]
    exact hbooked.mono h.missed

theorem Loads.settled (h : Loads store s l t) (hk : Kept root store s) : Settled root store l t := by
  obtain ⟨ids, hcopies, hbounded⟩ := hk
  refine ⟨h.path, ids, ?_, h.booked hbounded⟩
  rwa [h.copies]

/-- Marking a message seen leaves what was copied with its identifiers. -/
theorem Settled.of_moves (hs : Settled root store l s) (h : Moves root store id s t) :
    Settled root store l t := by
  obtain ⟨hpath, ids, hcopies, hbooked⟩ := hs
  refine ⟨hpath, ids, ?_, ?_⟩
  · obtain heq | ⟨p, q, hp, hq, heq⟩ := h.copies
    · rwa [heq]
    · rw [heq]
      exact isCopyOf_renamed hcopies hp hq
  · rw [h.stored]
    exact hbooked.mono h.missed

/-- Handing over what was fetched. -/
theorem Fetched.append {message : Bytes} {whose : Option String} {stored : Option Bytes}
    (h : Fetched root store id message l s) (hstored : t.1 store = s.1 store)
    (htrack : t.2 = { s.2 with copies := ⟨whose, s.2.last, message, stored⟩ :: s.2.copies }) :
    Settled root store l t := by
  obtain ⟨⟨hpath, hmem, hrecorded, ids, hcopies, hbooked, hfew⟩, p, hp, hlast⟩ := h
  refine ⟨hpath, id :: ids, ?_, ?_⟩
  · rw [htrack]
    exact .cons ⟨p, hlast, hp⟩ hcopies
  · rw [hstored, htrack]
    refine hbooked.append hmem hrecorded hfew List.count_cons_self fun i hi => ?_
    exact List.count_cons_of_ne hi.symm

section

variable (hstore : ∀ id, ¬ IsPathOf root store id)
include hstore

/-- The draft of the ledger file is no message either, as the file would be one. -/
theorem not_isPathOf_draft (id : String) : ¬ IsPathOf root (store ++ ".tmp") id := by
  rintro ⟨e, he, hpath, -⟩
  rw [Entry.path, within_join, ← String.toList_inj] at hpath
  simp only [String.toList_append] at hpath
  rw [List.append_assoc] at hpath
  obtain ⟨r, -, hr⟩ | ⟨r, hstart, hr⟩ := List.append_eq_append_iff.1 hpath
  · have hslash : '/' ∈ ".tmp".toList := by simp [hr]
    exact absurd hslash (by decide)
  · cases r with
    | nil => exact absurd (List.cons.inj hr).1 (by decide)
    | cons c r =>
      have hr : '/' :: e.file.toList = c :: (r ++ ".tmp".toList) := hr
      obtain ⟨rfl, hfile⟩ := List.cons.inj hr
      have hvisible := isHidden_eq_false_iff.1 he.visible
      refine hstore _ ⟨Entry.ofName e.part (.ofList r), ⟨?_, ?_, ?_⟩, ?_, rfl⟩
      · rw [part_ofName]
        exact he.part
      · rw [part_ofName, file_ofName]
      · rw [file_ofName, isHidden_eq_false_iff, String.toList_ofList]
        cases r with
        | nil => exact nofun
        | cons c r => simpa [hfile] using hvisible
      · rw [Entry.path, part_ofName, file_ofName, within_join, ← String.toList_inj, hstart]
        simp

theorem settled_save (hid : id ∉ l) (h : Settled root store l s) :
    Ensures (Tracing store) (After (fun _ => Fresh root store id (l.insert id))
      (Settled root store (l.insert id))) (l.insert id).save.run s := by
  obtain ⟨rfl, ids, hcopies, hbooked⟩ := h
  have hinsert : Settled root l.path (l.insert id) s := ⟨rfl, ids, hcopies, hbooked.insert id⟩
  refine (tracks_save (l := l.insert id) (fun _ _ => trivial) fun _ _ => trivial).mono ?_
  rintro (f | _) t ht
  · exact hinsert.of_retains ht
  · have ht : Saves (l.insert id) s t := ht
    have hmem : id ∈ l.insert id := TextSet.mem_insert.2 (.inl rfl)
    have hstored : t.1 l.path = some (l.insert id).bytes := ht.stored
    refine ⟨rfl, hmem, ?_, ids, ?_, ?_, (hbooked.fresh id hid).trans ht.missed⟩
    · rw [hstored]
      exact records_bytes.2 hmem
    · rw [ht.copies]
      exact isCopyOf_renamed_other hcopies (not_isPathOf_draft hstore)
    · rw [hstored]
      exact ((hbooked.insert id).mono ht.missed).save

theorem steady_settled :
    Steady (Tracing store) (fun _ => True) (Maildir.mailbox root) (Dialogue.mailbox .destination)
      (Settled root store) (Fresh root store) (Fetched root store) where
  holds _ _ _ := trivial
  discard id message l s h := h.1.settled
  logs line s a t ht := by
    obtain ⟨hstored, htrack⟩ := ht
    have htrack : t.2 = s.2 := htrack
    have hretains : Retains store s t := .of_eq hstored htrack
    refine ⟨fun l h => h.of_retains hretains, ?_⟩
    rintro l id message ⟨hfresh, hread⟩
    rw [← htrack] at hread
    exact ⟨hfresh.of_retains hretains, hread⟩
  unseen l s h := by
    refine (looks_unseen (.refl s)).mono ?_
    rintro (f | ids) t ht
    · exact h.of_retains ht
    · exact h.of_retains ht.1
  save id l s hid h := settled_save hstore hid h
  received id l s h := by
    refine (looks_received (.refl s)).mono ?_
    rintro (f | date) t ht
    · exact h.settled.of_retains ht
    · exact h.of_retains ht.1
  fetch id l s h := by
    refine (ensures_fetch (.refl s)).mono ?_
    rintro (f | message) t ht
    · exact h.settled.of_retains ht
    · exact ⟨h.of_retains ht.1, ht.2⟩
  append id d l s h := Ensures.ask fun _ _ ht => Ensures.done (h.append ht.1 ht.2)
  markSeen id l s h := (ensures_markSeen hstore).mono fun _ _ ht => h.of_moves ht

/-- Over any passes from a maildir, whatever fails in them, a file of a message is copied at most once,
however it is renamed in between, and once more each time that the ledger file was there and was missed. What
is copied is the content of the file. -/
theorem copies_of_reloading {filters : List (Option Script.Program)} {files files' : Contents} {k : Track}
    {τ : List Reply} {rs : List (Except Failure Stats)}
    (h : Played (Tracing store)
      (reloading (Maildir.mailbox root) (Dialogue.mailbox .destination) store filters)
      (files, .start) τ rs (files', k)) :
    (∀ p, (k.copies.map Copy.path?).count (some p) ≤ k.missed + 1) ∧
      ∀ c ∈ k.copies, ∃ id, IsCopyOf root c id := by
  have hstart : Kept root store (files, .start) :=
    ⟨[], .nil, fun _ => Nat.zero_le _, fun _ _ => le_rfl⟩
  have hload (s : Contents × Track) (hs : Kept root store s) : Ensures (Tracing store)
      (After (Settled root store) (Kept root store)) (Ledger.load store).run s := by
    refine (tracks_load fun _ _ => trivial).mono ?_
    rintro (f | l) t ht
    · exact hs.of_retains ht
    · exact Loads.settled ht hs
  have hend := (steady_settled hstore).survives_reloading (fun _ _ => Settled.kept) hload filters trivial
    hstart
  obtain ⟨ids, hcopies, hbounded⟩ := hend.of_played h
  refine ⟨fun p => ?_, fun c hc => exists_isCopyOf hcopies hc⟩
  by_cases hp : ∃ id, IsPathOf root p id
  · obtain ⟨id, hp⟩ := hp
    exact (count_path_le hcopies hp).trans (hbounded.few id)
  · refine (List.count_eq_zero_of_not_mem fun hmem => hp ?_).trans_le (Nat.zero_le _)
    obtain ⟨c, hc, hpath⟩ := List.mem_map.1 hmem
    obtain ⟨id, x, hx, hid⟩ := exists_isCopyOf hcopies hc
    rw [Copy.path?, hx] at hpath
    exact ⟨id, Option.some.inj hpath ▸ hid⟩

end

/-- If an identifier is marked seen, the message that is fetched by it is kept, all others stay as they are
but for one that has the new place, and what is marked is not listed again. Over any passes that each load the
ledger, no file of a message is copied twice, unless the ledger file was there and was missed. -/
theorem marks_seen_and_copies_once (root : Path) :
    (∀ (h h' : Host) (id : String) (ids : List String), IsMaildir h root →
      h.perform (unseen root) = (.ok ids, h) → (∀ e ∈ listing h root .new, e.id = id → id ≠ "") →
      h.perform (markSeen root id) = (.ok (), h') →
      ∃ e x m content date, MarkedSeen h h' root id ids e x m content date) ∧
    ∀ (store : Path) (filters : List (Option Script.Program)) (files files' : Contents) (k : Track)
      (τ : List Reply) (rs : List (Except Failure Stats)), (∀ id, ¬ IsPathOf root store id) →
      Played (Tracing store)
        (reloading (Maildir.mailbox root) (Dialogue.mailbox .destination) store filters)
        (files, .start) τ rs (files', k) →
      (∀ p, (k.copies.map Copy.path?).count (some p) ≤ k.missed + 1) ∧
        ∀ c ∈ k.copies, ∃ id, IsCopyOf root c id :=
  ⟨fun _ _ _ _ hmaildir hunseen hempty hmark => hmaildir.markSeen hunseen hempty hmark,
    fun _ _ _ _ _ _ _ hstore h => copies_of_reloading hstore h⟩

/-! ### Small maildirs -/

/-- A host with messages in the parts `new` and `cur` of the maildir `m`. -/
def hostOf (new cur : List (String × Bytes)) : Host where
  disk := ⟨[(["m"], .directory), (["m", "new"], .directory), (["m", "cur"], .directory)] ++
    new.map (fun e => (["m", "new", e.1], .file e.2 0)) ++
    cur.map fun e => (["m", "cur", e.1], .file e.2 0)⟩
  working := []
  now := 0
  given := []
  lines := []

theorem find_hostOf (new cur : List (String × Bytes)) :
    (hostOf new cur).disk.find [] (Part.new.within "m") = .ok (["m", "new"], .directory) ∧
    (hostOf new cur).disk.find [] (Part.cur.within "m") = .ok (["m", "cur"], .directory) := by
  constructor
  · cbv
  · cbv

/-- A message that is new, and one that has a flag. -/
def flagged : Host := hostOf [("a", [1])] [("b:2,F", [2])]

/-- The file of a message, and no ledger. -/
def unrecorded : Contents := Function.update (fun _ => none) "m/new/a" (some [7])

/-- A pass that copies a message but cannot mark it, then one that finds its identifier recorded. -/
theorem reaches_unmarked : Reaches (Tracing "db") (fun t => t.2.copies.length = 1 ∧ t.2.missed = 0)
    (reloading (Maildir.mailbox "m") (Dialogue.mailbox .destination) "db" [none, none])
    (unrecorded, .start) := by
  have hvisible : List.filter (fun f => !Entry.isHidden f) ["a"] = ["a"] := by cbv
  have hlisted : sortIds (((["a"].filter fun f => !Entry.isHidden f).map (Entry.ofName .new) ++
      ((([] : List String).filter fun f => !Entry.isHidden f).map (Entry.ofName .cur)).filter
        fun e => !e.isSeen).map Entry.id) = ["a"] := by cbv
  have hpath : (Entry.ofName .new "a").path "m" = "m/new/a" := by decide +kernel
  have hloaded : loaded "db" (.ok (Ledger.insert ⟨"db", .empty⟩ "a").bytes) =
      .ok (Ledger.insert ⟨"db", .empty⟩ "a") := by
    rw [loaded, Ledger.bytes, Utf8.decode?_ofString]
    dsimp only
    rw [String.toList_ofList, Ledger.decode_encode]
    rfl
  refine .step (e := .isThere "db") (t := (_, .start)) false ⟨rfl, by simp [Track.after, unrecorded]⟩ ?_
  refine .step (e := .list _) (t := (_, _)) (.ok ["a"]) ⟨rfl, rfl⟩ ?_
  refine .step (e := .list _) (t := (_, _)) (.ok []) ⟨rfl, rfl⟩ ?_
  refine .step (e := .log _) (t := (_, _)) () ⟨rfl, rfl⟩ ?_
  rw [hlisted]
  refine .step (e := .write _ _) (t := (Function.update _ _ _, _)) (.ok ()) ⟨rfl, rfl⟩ ?_
  refine .step (e := .rename _ _) (t := (Function.update (Function.update _ _ _) _ _, .start))
    (.ok ()) ⟨rfl, rfl⟩ ?_
  -- when it arrived
  refine .step (e := .list _) (t := (_, _)) (.ok ["a"]) ⟨rfl, rfl⟩ ?_
  refine .step (e := .list _) (t := (_, _)) (.ok []) ⟨rfl, rfl⟩ ?_
  simp only [andThen, ExceptT.bindCont, Function.comp_apply, hvisible]
  refine .step (e := .modified _) (t := (_, _)) (Except.ok (0 : Int)) ⟨rfl, rfl⟩ ?_
  -- what it is
  refine .step (e := .list _) (t := (_, _)) (.ok ["a"]) ⟨rfl, rfl⟩ ?_
  refine .step (e := .list _) (t := (_, _)) (.ok []) ⟨rfl, rfl⟩ ?_
  simp only [andThen, ExceptT.bindCont, Function.comp_apply, hvisible]
  refine .step (e := .read _) (t := (_, ⟨none, some ⟨_, [7]⟩, [], 0⟩)) (.ok [7]) ⟨⟨rfl, ?_⟩, rfl⟩ ?_
  · simp [hpath, unrecorded, Ledger.draft, Ledger.insert]
  refine .step (e := .log _) (t := (_, _)) () ⟨rfl, rfl⟩ ?_
  refine .step (e := .mail .destination (.append _)) (t := (_, ⟨none, _, [_], 0⟩)) (.ok ()) ⟨rfl, rfl⟩ ?_
  refine .step (e := .list _) (t := (_, _)) (.ok ["a"]) ⟨rfl, rfl⟩ ?_
  refine .step (e := .list _) (t := (_, _)) (.ok []) ⟨rfl, rfl⟩ ?_
  simp only [andThen, ExceptT.bindCont, Function.comp_apply, hvisible]
  refine .step (e := .rename _ _) (t := (_, _)) (.error .missing) ⟨rfl, rfl⟩ ?_
  -- the second pass
  simp only [reloading, loadingPass, load_eq_ask]
  refine .step (e := .isThere "db") (t := (_, _)) true ⟨rfl, rfl⟩ ?_
  refine .step (e := .read "db") (t := (_, ⟨none, some ⟨_, _⟩, [_], 0⟩))
    (.ok (Ledger.insert ⟨"db", .empty⟩ "a").bytes) ⟨⟨rfl, by simp [Ledger.insert]⟩, rfl⟩ ?_
  simp only [andThen, hloaded]
  refine .step (e := .list _) (t := (_, _)) (.ok ["a"]) ⟨rfl, rfl⟩ ?_
  refine .step (e := .list _) (t := (_, _)) (.ok []) ⟨rfl, rfl⟩ ?_
  refine .step (e := .log _) (t := (_, _)) () ⟨rfl, rfl⟩ ?_
  rw [hlisted]
  refine .step (e := .log _) (t := (_, _)) () ⟨rfl, rfl⟩ ?_
  exact .done ⟨rfl, rfl⟩

theorem isMaildir_flagged : IsMaildir flagged "m" :=
  .of_places (by decide) (find_hostOf _ _).1 (find_hostOf _ _).2 (by decide)

theorem inbox_flagged :
    inbox flagged "m" = [⟨.new, "a", "a", none⟩, ⟨.cur, "b:2,F", "b", some ['F']⟩] := by cbv

theorem exists_markSeen_flagged : ∃ h', flagged.perform (markSeen "m" "b") = (.ok (), h') := by
  have hmarked : marked ⟨.cur, "b:2,F", "b", some ['F']⟩ =
      ⟨.cur, "b:2,FS", "b", some ['F', 'S']⟩ := by decide +kernel
  have hfind : (inbox flagged "m").find? (fun e => e.id = "b") =
      some ⟨.cur, "b:2,F", "b", some ['F']⟩ := by
    rw [inbox_flagged]
    decide
  have hholds : Holds flagged "m" ⟨.cur, "b:2,F", "b", some ['F']⟩ (.file [2] 0) :=
    ⟨⟨by decide, by decide +kernel, by cbv⟩, ["m", "cur"], (find_hostOf _ _).2, by decide⟩
  refine isMaildir_flagged.exists_markSeen hfind hholds (find_hostOf _ _).2 (by cbv) (by decide) ?_ ?_ ?_
  · rw [hmarked]
    cbv
  · rw [hmarked]
    decide
  · rw [hmarked]
    decide

theorem flagged_marked_and_unmarked_copied_once :
    (∃ h', IsMaildir flagged "m" ∧ flagged.perform (unseen "m") = (.ok ["a", "b"], flagged) ∧
      (∀ e ∈ listing flagged "m" .new, e.id = "b" → "b" ≠ "") ∧
      flagged.perform (markSeen "m" "b") = (.ok (), h') ∧ (∃! e, e ∈ inbox flagged "m" ∧ e.id = "b") ∧
      ∃ e x m content date, MarkedSeen flagged h' "m" "b" ["a", "b"] e x m content date) ∧
    ∃ τ rs files k, (∀ id, ¬ IsPathOf "m" "db" id) ∧
      Played (Tracing "db")
        (reloading (Maildir.mailbox "m") (Dialogue.mailbox .destination) "db" [none, none])
        (unrecorded, .start) τ rs (files, k) ∧
      (k.copies.length = 1 ∧ k.missed = 0) ∧
      (∀ p, (k.copies.map Copy.path?).count (some p) ≤ k.missed + 1) ∧
      ∀ c ∈ k.copies, ∃ id, IsCopyOf "m" c id := by
  constructor
  · have hunseen : flagged.perform (unseen "m") = (.ok ["a", "b"], flagged) := by cbv
    obtain ⟨h', hmark⟩ := exists_markSeen_flagged
    have hempty : ∀ e ∈ listing flagged "m" .new, e.id = "b" → "b" ≠ "" := fun _ _ _ => by decide
    have hmarked : ∃ e x m content date, MarkedSeen flagged h' "m" "b" ["a", "b"] e x m content date :=
      (marks_seen_and_copies_once "m").1 flagged h' "b" _ isMaildir_flagged hunseen hempty hmark
    refine ⟨h', isMaildir_flagged, hunseen, hempty, hmark, ?_, hmarked⟩
    rw [inbox_flagged]
    exact ⟨⟨.cur, "b:2,F", "b", some ['F']⟩, by decide, by simp +contextual⟩
  · have hdb (id : String) : ¬ IsPathOf "m" "db" id := by
      rintro ⟨e, -, hpath, -⟩
      rw [Entry.path, within_join] at hpath
      have hslash : '/' ∈ "db".toList := by
        rw [hpath]
        simp
      exact absurd hslash (by decide)
    obtain ⟨τ, rs, ⟨files, k⟩, hplayed, hone⟩ := reaches_unmarked
    have honce := (marks_seen_and_copies_once "m").2 "db" _ _ files k τ rs hdb hplayed
    exact ⟨τ, rs, files, k, hdb, hplayed, hone, honce⟩

/-- A new message, and a seen one with its identifier. -/
def crowded : Host := hostOf [("a", [1])] [("a:2,S", [2])]

/-- Two new messages, of which one has flags for a name. -/
def nameless : Host := hostOf [(":2,F", [1]), ("b", [2])] []

/-- Two new messages with one identifier, of which one has flags in its name. -/
def suffixed : Host := hostOf [("a:2,F", [1]), ("a", [2])] []

/-- A new message that was written after one of `cur` with its identifier. -/
def paired : Host :=
  let h := hostOf [] [("a:2,F", [2])]
  { h with disk := h.disk.put ["m", "new", "a"] (.file [1] 0) }

/-- The host where what was at one place is at another, in place of what was there. -/
def displaced (h : Host) (source target : Place) : Host :=
  { h with disk := (h.disk.drop target).move source target }

/-- The message of `new` is marked there. -/
def pairedOnce : Host := displaced paired ["m", "new", "a"] ["m", "cur", "a:2,S"]

theorem markSeen_displaced {h : Host} {s t : Place} (e : Entry) (n : Node) (source target : Path)
    (hfind : (inbox h "m").find? (fun x => x.id = id) = some e)
    (hpaths : (moved e).path "m" = source ∧ (marked e).path "m" = target)
    (happroach : h.disk.approach h.working source = .ok () ∧ h.disk.approach h.working target = .ok ())
    (hnames : source.endsInName = true ∧ target.endsInName = true)
    (hs : h.disk.walk (Disk.origin h.working source) source.steps = .ok s) (hn : h.disk.node? s = some n)
    (ht : h.disk.walk (Disk.origin h.working target) target.steps = .ok t)
    (hslash : n ≠ .directory → source.endsInSlash = false ∧ target.endsInSlash = false)
    (hfree : s ≠ t ∧ ¬ s <+: t ∧ ¬ t <+: s ∧ h.disk.admitsReplacing n t = .ok ()) :
    h.perform (markSeen "m" id) = (.ok (), displaced h s t) := by
  obtain ⟨rfl, rfl⟩ := hpaths
  obtain ⟨hne, hbelow, habove, hadmits⟩ := hfree
  refine perform_markSeen_eq_ok.2 ⟨e, _, hfind, ?_, rfl⟩
  refine Disk.rename_eq_ok.2
    ⟨happroach.1, happroach.2, hnames.1, hnames.2, s, n, t, hs, hn, ht, hslash, ?_⟩
  rw [if_neg hne]
  exact ⟨hbelow, habove, hadmits, rfl⟩

theorem markSeen_crowded : crowded.perform (markSeen "m" "a") =
    (.ok (), displaced crowded ["m", "new", "a"] ["m", "cur", "a:2,S"]) :=
  markSeen_displaced ⟨.new, "a", "a", none⟩ (.file [1] 0) "m/new/a" "m/cur/a:2,S" (by cbv)
    ⟨by decide +kernel, by decide +kernel⟩ ⟨by cbv, by cbv⟩ ⟨by cbv, by cbv⟩ (by cbv) rfl (by cbv)
    (fun _ => ⟨by cbv, by cbv⟩) (by decide)

theorem markSeen_nameless : nameless.perform (markSeen "m" "") =
    (.ok (), displaced nameless ["m", "new"] ["m", "cur", ":2,S"]) :=
  markSeen_displaced ⟨.new, ":2,F", "", some ['F']⟩ .directory "m/new/" "m/cur/:2,S" (by cbv)
    ⟨by decide +kernel, by decide +kernel⟩ ⟨by cbv, by cbv⟩ ⟨by cbv, by cbv⟩ (by cbv) rfl (by cbv)
    (fun h => absurd rfl h) (by decide)

theorem markSeen_suffixed : suffixed.perform (markSeen "m" "a") =
    (.ok (), displaced suffixed ["m", "new", "a"] ["m", "cur", "a:2,S"]) :=
  markSeen_displaced ⟨.new, "a:2,F", "a", some ['F']⟩ (.file [2] 0) "m/new/a" "m/cur/a:2,S" (by cbv)
    ⟨by decide +kernel, by decide +kernel⟩ ⟨by cbv, by cbv⟩ ⟨by cbv, by cbv⟩ (by cbv) rfl (by cbv)
    (fun _ => ⟨by cbv, by cbv⟩) (by decide)

theorem markSeen_paired : paired.perform (markSeen "m" "a") = (.ok (), pairedOnce) :=
  markSeen_displaced ⟨.new, "a", "a", none⟩ (.file [1] 0) "m/new/a" "m/cur/a:2,S" (by cbv)
    ⟨by decide +kernel, by decide +kernel⟩ ⟨by cbv, by cbv⟩ ⟨by cbv, by cbv⟩ (by cbv) rfl (by cbv)
    (fun _ => ⟨by cbv, by cbv⟩) (by decide)

theorem markSeen_pairedOnce : pairedOnce.perform (markSeen "m" "a") =
    (.ok (), displaced pairedOnce ["m", "cur", "a:2,F"] ["m", "cur", "a:2,FS"]) :=
  markSeen_displaced ⟨.cur, "a:2,F", "a", some ['F']⟩ (.file [2] 0) "m/cur/a:2,F" "m/cur/a:2,FS" (by cbv)
    ⟨by decide +kernel, by decide +kernel⟩ ⟨by cbv, by cbv⟩ ⟨by cbv, by cbv⟩ (by cbv) rfl (by cbv)
    (fun _ => ⟨by cbv, by cbv⟩) (by decide)

/-- A message that is marked seen takes the place of one with its identifier, and marking it once more marks
another; one with no identifier has its directory moved, and all other messages with it; one with flags in its
name in `new` stays, and another is marked. -/
theorem markSeen_loses_messages :
    (IsMaildir crowded "m" ∧ crowded.perform (unseen "m") = (.ok ["a"], crowded) ∧
      inbox crowded "m" = [⟨.new, "a", "a", none⟩, ⟨.cur, "a:2,S", "a", some ['S']⟩] ∧
      crowded.disk.read [] "m/cur/a:2,S" = .ok [2] ∧
      ∃ h', crowded.perform (markSeen "m" "a") = (.ok (), h') ∧
        inbox h' "m" = [⟨.cur, "a:2,S", "a", some ['S']⟩] ∧ h'.disk.read [] "m/cur/a:2,S" = .ok [1]) ∧
    (IsMaildir nameless "m" ∧ nameless.perform (unseen "m") = (.ok ["", "b"], nameless) ∧
      nameless.perform (fetch "m" "b") = (.ok [2], nameless) ∧
      ∃ h', nameless.perform (markSeen "m" "") = (.ok (), h') ∧
        (h'.perform (fetch "m" "b")).1 = .error ⟨[], .noMessage "b" "m"⟩) ∧
    (IsMaildir suffixed "m" ∧ suffixed.perform (unseen "m") = (.ok ["a", "a"], suffixed) ∧
      suffixed.perform (fetch "m" "a") = (.ok [1], suffixed) ∧
      ∃ h', suffixed.perform (markSeen "m" "a") = (.ok (), h') ∧
        (h'.perform (unseen "m")).1 = .ok ["a"] ∧ (h'.perform (fetch "m" "a")).1 = .ok [1]) ∧
    IsMaildir paired "m" ∧ paired.perform (unseen "m") = (.ok ["a", "a"], paired) ∧
      ∃ h' h'', paired.perform (markSeen "m" "a") = (.ok (), h') ∧
        h'.perform (markSeen "m" "a") = (.ok (), h'') ∧
        (h'.perform (unseen "m")).1 = .ok ["a"] ∧ (h''.perform (unseen "m")).1 = .ok [] := by
  refine ⟨⟨?_, by cbv, by cbv, by cbv, _, markSeen_crowded, by cbv, by cbv⟩,
    ⟨?_, by cbv, by cbv, _, markSeen_nameless, by cbv⟩,
    ⟨?_, by cbv, by cbv, _, markSeen_suffixed, by cbv, by cbv⟩,
    ?_, by cbv, _, _, markSeen_paired, markSeen_pairedOnce, by cbv, by cbv⟩
  · exact .of_places (by decide) (find_hostOf _ _).1 (find_hostOf _ _).2 (by decide)
  · exact .of_places (by decide) (find_hostOf _ _).1 (find_hostOf _ _).2 (by decide)
  · exact .of_places (by decide) (find_hostOf _ _).1 (find_hostOf _ _).2 (by decide)
  · exact .of_places (by decide) (by cbv) (by cbv) (by decide)

end MailSieve.Maildir
