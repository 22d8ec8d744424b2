import MailSieve.Maildir.Store
import MailSieve.Proofs.Files.Listing
import MailSieve.Proofs.Files.Perform
import MailSieve.Proofs.Maildir.Naming

/-!
What a maildir on a host lists, and what each call of it does there.
-/

namespace MailSieve.Maildir

open Files Text

variable {h h' : Host} {root : Path} {part : Part} {id : String} {e : Entry} {n : Node}

/-- The entries that are listed in a part of a maildir. -/
def listing (h : Host) (root : Path) (part : Part) : List Entry :=
  match h.disk.list h.working (part.within root) with
  | .ok files => (files.filter fun f => !Entry.isHidden f).map (Entry.ofName part)
  | .error _ => []

/-- The messages of a maildir, in the order in which they are searched for an identifier. -/
def inbox (h : Host) (root : Path) : List Entry :=
  listing h root .new ++ (listing h root .cur).filter fun e => !e.isStray

/-- The file that is renamed when a message is marked seen. -/
def moved (e : Entry) : Entry :=
  match e.part with
  | .new => ⟨.new, e.id, e.id, none⟩
  | _ => e

/-- A message once it is marked seen. -/
def marked (e : Entry) : Entry :=
  let letters := 'S' :: (moved e).flags.getD []
  ⟨.cur, flaggedName e.id letters, e.id, some (sortUnique letters)⟩

theorem perform_entries (h : Host) (root : Path) (part : Part) :
    h.perform (entries root part) = (.ok (listing h root part), h) := by
  have hlist : h.perform (Files.list (part.within root) : ExceptT Failure (StateM Host) _) =
      (.ok (h.disk.list h.working (part.within root)), h) := rfl
  rw [entries, Host.perform_bind, hlist, listing]
  cases h.disk.list h.working (part.within root) with
  | ok files => rfl
  | error r => rfl

theorem perform_messages (h : Host) (root : Path) :
    h.perform (messages root) = (.ok (inbox h root), h) := by
  rw [messages, Host.perform_bind, perform_entries]
  dsimp only
  rw [Host.perform_bind, perform_entries]
  rfl

theorem sortIds_perm (ids : List String) : (sortIds ids).Perm ids := List.mergeSort_perm ids _

theorem sortIds_ascending (ids : List String) : (sortIds ids).Pairwise (· ≤ ·) := by
  have htrans (a b c : String) (hab : decide (a ≤ b) = true) (hbc : decide (b ≤ c) = true) :
      decide (a ≤ c) = true :=
    decide_eq_true (String.le_trans (of_decide_eq_true hab) (of_decide_eq_true hbc))
  have htotal (a b : String) : (decide (a ≤ b) || decide (b ≤ a)) = true := by
    simpa using String.le_total a b
  exact (List.pairwise_mergeSort htrans htotal ids).imp of_decide_eq_true

/-- Sorted identifiers do not depend on the order in which they were found. -/
theorem eq_sortIds {ids l : List String} (hsorted : ids.Pairwise (· ≤ ·)) (hperm : ids.Perm l) :
    ids = sortIds l :=
  (hperm.trans (sortIds_perm l).symm).eq_of_pairwise (fun _ _ _ _ => String.le_antisymm) hsorted
    (sortIds_ascending l)

/-- What is not seen. -/
def pending (h : Host) (root : Path) : List Entry :=
  listing h root .new ++ (listing h root .cur).filter fun e => !e.isSeen

/-- The identifiers of what is not seen. -/
def unseenIds (h : Host) (root : Path) : List String := sortIds ((pending h root).map Entry.id)

theorem perform_unseen_eq_ok {ids : List String} : h.perform (unseen root) = (.ok ids, h') ↔
    h' = h ∧ (listing h root .cur).any Entry.isStray = false ∧ ids = unseenIds h root := by
  rw [unseen, Host.perform_bind, perform_entries]
  dsimp only
  rw [Host.perform_bind, perform_entries]
  dsimp only
  split
  · next hstray =>
    rw [hstray]
    exact ⟨fun h => (nomatch h), fun h => (nomatch h.2.1)⟩
  · next hstray =>
    rw [Bool.eq_false_iff]
    constructor
    · rintro ⟨⟩
      exact ⟨rfl, hstray, rfl⟩
    · rintro ⟨rfl, -, rfl⟩
      rfl

theorem perform_find_eq_ok : h.perform (find root id) = (.ok e, h') ↔
    h' = h ∧ (inbox h root).find? (fun e => e.id = id) = some e := by
  rw [find, Host.perform_bind, perform_messages]
  dsimp only
  split
  · next m hm =>
    rw [hm]
    constructor
    · rintro ⟨⟩
      exact ⟨rfl, rfl⟩
    · rintro ⟨rfl, ⟨⟩⟩
      rfl
  · next hm =>
    rw [hm]
    exact ⟨fun h => (nomatch h), fun h => (nomatch h.2)⟩

theorem perform_fetch_eq_ok {content : Bytes} : h.perform (fetch root id) = (.ok content, h') ↔
    h' = h ∧ ∃ e, (inbox h root).find? (fun e => e.id = id) = some e ∧
      h.disk.read h.working (e.path root) = .ok content := by
  rw [fetch, Host.perform_bind_eq_ok]
  constructor
  · rintro ⟨e, h₁, hfind, hread⟩
    obtain ⟨rfl, hfind⟩ := perform_find_eq_ok.1 hfind
    obtain ⟨hread, rfl⟩ := Host.perform_ask_eq_ok.1 hread
    exact ⟨rfl, e, hfind, hread⟩
  · rintro ⟨rfl, e, hfind, hread⟩
    exact ⟨e, _, perform_find_eq_ok.2 ⟨rfl, hfind⟩, Host.perform_ask_eq_ok.2 ⟨hread, rfl⟩⟩

theorem perform_received_eq_ok {date : Date} : h.perform (received root id) = (.ok date, h') ↔
    h' = h ∧ ∃ e, (inbox h root).find? (fun e => e.id = id) = some e ∧
      h.disk.modified h.working h.now (e.path root) = .ok date := by
  rw [received, Host.perform_bind_eq_ok]
  constructor
  · rintro ⟨e, h₁, hfind, hread⟩
    obtain ⟨rfl, hfind⟩ := perform_find_eq_ok.1 hfind
    obtain ⟨hread, rfl⟩ := Host.perform_modified_eq_ok.1 hread
    exact ⟨rfl, e, hfind, hread⟩
  · rintro ⟨rfl, e, hfind, hread⟩
    exact ⟨e, _, perform_find_eq_ok.2 ⟨rfl, hfind⟩, Host.perform_modified_eq_ok.2 ⟨hread, rfl⟩⟩

/-- Marking a message seen renames one file. -/
theorem perform_markSeen_eq_ok : h.perform (markSeen root id) = (.ok (), h') ↔
    ∃ e d, (inbox h root).find? (fun e => e.id = id) = some e ∧
      h.disk.rename h.working ((moved e).path root) ((marked e).path root) = .ok d ∧
      h' = { h with disk := d } := by
  have hrename (e : Entry) : h.perform (attempt s!"marking {e.path root} seen" <|
      match e.part with
      | .new => Files.rename ((Part.new.within root).join e.id)
          ((Part.cur.within root).join (flaggedName e.id ['S']))
      | _ => Files.rename (e.path root)
          ((Part.cur.within root).join (flaggedName e.id ('S' :: e.flags.getD [])))) = (.ok (), h') ↔
      ∃ d, h.disk.rename h.working ((moved e).path root) ((marked e).path root) = .ok d ∧
        h' = { h with disk := d } := by
    obtain ⟨part, file, id, flags⟩ := e
    cases part <;> exact Host.perform_change_eq_ok
  rw [markSeen, Host.perform_bind_eq_ok]
  constructor
  · rintro ⟨e, h₁, hfind, hmark⟩
    obtain ⟨rfl, hfind⟩ := perform_find_eq_ok.1 hfind
    obtain rfl : e.id = id := by simpa using List.find?_some hfind
    obtain ⟨d, hd, rfl⟩ := (hrename e).1 hmark
    exact ⟨e, d, hfind, hd, rfl⟩
  · rintro ⟨e, d, hfind, hd, rfl⟩
    obtain rfl : e.id = id := by simpa using List.find?_some hfind
    exact ⟨e, h, perform_find_eq_ok.2 ⟨rfl, hfind⟩, (hrename e).2 ⟨d, hd, rfl⟩⟩

/-- An entry of `new` or `cur` that is not hidden, as its name says it is. -/
structure IsEntry (e : Entry) : Prop where
  part : e.part ≠ .tmp
  name : Entry.ofName e.part e.file = e
  visible : Entry.isHidden e.file = false

/-- An entry is listed, and this is what has its name. -/
def Holds (h : Host) (root : Path) (e : Entry) (n : Node) : Prop :=
  IsEntry e ∧ ∃ p, h.disk.find h.working (e.part.within root) = .ok (p, .directory) ∧
    h.disk.node? (p ++ [e.file]) = some n

theorem mem_listing (hpart : part ≠ .tmp) :
    e ∈ listing h root part ↔ e.part = part ∧ ∃ n, Holds h root e n := by
  unfold listing
  cases hlist : h.disk.list h.working (part.within root) with
  | error r =>
    refine iff_of_false List.not_mem_nil ?_
    rintro ⟨rfl, n, -, p, hfind, -⟩
    rw [Disk.list_eq_ok.2 ⟨p, hfind, rfl⟩] at hlist
    cases hlist
  | ok ns =>
    obtain ⟨p, hfind, rfl⟩ := Disk.list_eq_ok.1 hlist
    simp only [List.mem_map, List.mem_filter, Disk.mem_names, Option.ne_none_iff_exists', Bool.not_eq_true']
    constructor
    · rintro ⟨file, ⟨⟨n, hn⟩, hhidden⟩, rfl⟩
      refine ⟨part_ofName .., n, ⟨?_, ?_, ?_⟩, p, ?_, ?_⟩
      · rwa [part_ofName]
      · rw [part_ofName, file_ofName]
      · rwa [file_ofName]
      · rwa [part_ofName]
      · rwa [file_ofName]
    · rintro ⟨rfl, n, he, q, hfind', hn⟩
      cases hfind.symm.trans hfind'
      exact ⟨e.file, ⟨⟨n, hn⟩, he.visible⟩, he.name⟩

theorem nodup_listing (hd : h.disk.IsTree) (root : Path) (part : Part) : (listing h root part).Nodup := by
  unfold listing
  cases hlist : h.disk.list h.working (part.within root) with
  | error r => exact .nil
  | ok ns =>
    obtain ⟨p, -, rfl⟩ := Disk.list_eq_ok.1 hlist
    refine (hd.nodup_names.filter _).map fun f g hfg => ?_
    rw [← file_ofName part f, hfg, file_ofName]

/-- Without stray files, what is not seen is in `new`, or in `cur` without the flag. -/
theorem mem_pending (hstray : (listing h root .cur).any Entry.isStray = false) : e ∈ pending h root ↔
    e ∈ inbox h root ∧ (e.part = .cur → e.isSeen = false) := by
  rw [List.any_eq_false] at hstray
  simp only [pending, inbox, List.mem_append, List.mem_filter, Bool.not_eq_true']
  constructor
  · rintro (hnew | ⟨hcur, hseen⟩)
    · have hpart := ((mem_listing (by decide)).1 hnew).1
      exact ⟨.inl hnew, fun h => absurd (hpart.symm.trans h) (by decide)⟩
    · exact ⟨.inr ⟨hcur, Bool.eq_false_iff.2 (hstray e hcur)⟩, fun _ => hseen⟩
  · rintro ⟨hnew | ⟨hcur, -⟩, hseen⟩
    · exact .inl hnew
    · exact .inr ⟨hcur, hseen ((mem_listing (by decide)).1 hcur).1⟩

theorem nodup_pending (hd : h.disk.IsTree) : (pending h root).Nodup := by
  refine List.nodup_append.2 ⟨nodup_listing hd root .new, (nodup_listing hd root .cur).filter _, ?_⟩
  rintro e he e' he' rfl
  have hnew := (mem_listing (by decide)).1 he
  have hcur := (mem_listing (by decide)).1 (List.mem_filter.1 he').1
  exact absurd (hnew.1.symm.trans hcur.1) (by decide)

theorem mem_inbox : e ∈ inbox h root ↔ e.isStray = false ∧ ∃ n, Holds h root e n := by
  rw [inbox, List.mem_append, List.mem_filter, mem_listing (by decide), mem_listing (by decide)]
  constructor
  · rintro (⟨hpart, hn⟩ | ⟨⟨hpart, hn⟩, hstray⟩)
    · exact ⟨by simp [Entry.isStray, hpart], hn⟩
    · exact ⟨by simpa using hstray, hn⟩
  · rintro ⟨hstray, n, hn⟩
    cases hp : e.part with
    | new => exact .inl ⟨rfl, n, hn⟩
    | cur => exact .inr ⟨⟨rfl, n, hn⟩, by simp [hstray]⟩
    | tmp => exact absurd hp hn.1.part

end MailSieve.Maildir
