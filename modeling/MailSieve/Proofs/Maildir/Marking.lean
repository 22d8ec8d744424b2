import MailSieve.Proofs.Maildir.Containment
import MailSieve.Proofs.Maildir.Listing

/-!
Marking a message seen: its file is kept and is seen from then on, and nothing else changes.
-/

namespace MailSieve.Maildir

open Files Text

variable {h h' : Host} {root : Path} {id : String} {e m : Entry} {n : Node} {d : Disk}

/-- A maildir on a host: the messages in it are files, with names of files. -/
structure IsMaildir (h : Host) (root : Path) : Prop where
  isTree : h.disk.IsTree
  names : ∀ e n, Holds h root e n → IsName e.file
  files : ∀ e n, Holds h root e n → n ≠ .directory

theorem steps_within (part : Part) (root : Path) :
    (part.within root).steps = root.steps ++ [part.name] :=
  Path.steps_join (isName_part part).no_slash (isName_part part).ne_empty

theorem within_ne_empty (part : Part) (root : Path) : part.within root ≠ "" := by
  intro h
  have hsteps := steps_within part root
  rw [h] at hsteps
  exact List.cons_ne_nil _ _ (List.append_eq_nil_iff.1 hsteps.symm).2

/-- The place of a part of a maildir says which part it is. -/
theorem place_within {part : Part} {p : Place} {n : Node}
    (hfind : h.disk.find h.working (part.within root) = .ok (p, n)) : ∃ q, p = q ++ [part.name] := by
  obtain ⟨hlocate, -⟩ := Disk.find_eq_ok.1 hfind
  obtain ⟨-, hwalk, -⟩ := Disk.locate_eq_ok.1 hlocate
  have hname := isName_part part
  rw [steps_within, Disk.walk_append] at hwalk
  obtain ⟨q, -, hwalk⟩ := bind_eq_ok.1 hwalk
  obtain ⟨-, ⟨hdot, -⟩ | ⟨hdots, -⟩ | ⟨-, hp⟩⟩ := Disk.walk_step hwalk
  · exact absurd hdot hname.ne_dot
  · exact absurd hdots hname.ne_dots
  · exact ⟨q, hp⟩

/-- There is one file with the name of an entry. -/
theorem Holds.unique {k : Node} (he : Holds h root e n) (hk : Holds h root e k) : n = k := by
  obtain ⟨-, p, hp, hn⟩ := he
  obtain ⟨-, q, hq, hk⟩ := hk
  cases hp.symm.trans hq
  exact Option.some.inj (hn.symm.trans hk)

theorem name_injective {part part' : Part} (h : part.name = part'.name) : part = part' := by
  cases part <;> cases part' <;> first | rfl | exact absurd h (by decide)

/-- The place of a message says which message it is. -/
theorem place_eq_iff {p q : Place} (he : IsEntry e) (hm : IsEntry m)
    (hp : h.disk.find h.working (e.part.within root) = .ok (p, .directory))
    (hq : h.disk.find h.working (m.part.within root) = .ok (q, .directory)) :
    p ++ [e.file] = q ++ [m.file] ↔ e = m := by
  constructor
  · intro heq
    obtain ⟨hpq, hfile⟩ := List.append_inj' heq rfl
    obtain ⟨p', hp'⟩ := place_within hp
    obtain ⟨q', hq'⟩ := place_within hq
    rw [hp', hq'] at hpq
    have hpart := name_injective (List.cons.inj (List.append_inj' hpq rfl).2).1
    rw [← he.name, ← hm.name, hpart, (List.cons.inj hfile).1]
  · rintro rfl
    cases hp.symm.trans hq
    rfl

theorem IsName.not_step {name : String} (h : IsName name) : name ≠ "" ∧ name ≠ "." ∧ name ≠ ".." :=
  ⟨h.ne_empty, h.ne_dot, h.ne_dots⟩

/-- The path of an entry leads to the name in the directory of its part. -/
theorem eq_of_walk {p s : Place} (hp : h.disk.find h.working (e.part.within root) = .ok (p, .directory))
    (hname : IsName e.file)
    (hs : h.disk.walk (Disk.origin h.working (e.path root)) (e.path root).steps = .ok s) :
    s = p ++ [e.file] :=
  ((Disk.walk_join hp hname.no_slash hname.not_step).1 hs).2

/-- What the renaming of one entry to another leaves: all that there was, unless the entry took its place. -/
structure Renamed (h : Host) (root : Path) (e m : Entry) (n : Node) (d : Disk) : Prop where
  isTree : d.IsTree
  source : ∃ p, h.disk.Admits h.working (e.path root) p ∧ h.disk.node? p = some n
  target : ∃ p, d.Admits h.working (m.path root) p ∧ d.node? p = some n
  holds : ∀ x k, Holds { h with disk := d } root x k ↔
    x = m ∧ k = n ∨ x ≠ m ∧ x ≠ e ∧ Holds h root x k

/-- What the entries are after a renaming, when it is known what is at each place. -/
theorem holds_of_node? {c p : Place} (hentry : IsEntry e) (hm : IsEntry m)
    (hp : h.disk.find h.working (e.part.within root) = .ok (p, .directory))
    (hc : h.disk.find h.working (m.part.within root) = .ok (c, .directory))
    (hsame : Disk.SameDirectories h.disk d)
    (hnode : ∀ q, d.node? q =
      if q = c ++ [m.file] then some n else if q = p ++ [e.file] then none else h.disk.node? q)
    (x : Entry) (k : Node) : Holds { h with disk := d } root x k ↔
      x = m ∧ k = n ∨ x ≠ m ∧ x ≠ e ∧ Holds h root x k := by
  have hplace (hx : IsEntry x) {q : Place}
      (hq : h.disk.find h.working (x.part.within root) = .ok (q, .directory)) :
      d.node? (q ++ [x.file]) =
        if x = m then some n else if x = e then none else h.disk.node? (q ++ [x.file]) := by
    simp only [hnode, place_eq_iff hx hm hq hc, place_eq_iff hx hentry hq hp]
  constructor
  · rintro ⟨hx, q, hq, hk⟩
    have hq : h.disk.find h.working _ = _ := hsame.symm.find hq
    have hk : d.node? _ = _ := hk
    rw [hplace hx hq] at hk
    split at hk
    · next hxm => exact .inl ⟨hxm, (Option.some.inj hk).symm⟩
    split at hk
    · cases hk
    · exact .inr ⟨‹_›, ‹_›, hx, q, hq, hk⟩
  · rintro (⟨rfl, rfl⟩ | ⟨hxm, hxe, hx, q, hq, hk⟩)
    · exact ⟨hm, c, hsame.find hc, (hplace hm hc).trans (if_pos rfl)⟩
    · exact ⟨hx, q, hsame.find hq, (hplace hx hq).trans (by rw [if_neg hxm, if_neg hxe, hk])⟩

theorem Renamed.of_rename (hd : h.disk.IsTree) (he : Holds h root e n) (hfile : n ≠ .directory)
    (hename : IsName e.file) (hm : IsEntry m) (hmname : IsName m.file)
    (hrename : h.disk.rename h.working (e.path root) (m.path root) = .ok d) :
    Renamed h root e m n d := by
  obtain ⟨hentry, p, hp, hn⟩ := he
  obtain ⟨content, date, rfl⟩ := Node.exists_file hfile
  obtain ⟨-, -, -, -, s, -, -, hs, -⟩ := Disk.rename_eq_ok.1 hrename
  obtain rfl := eq_of_walk hp hename hs
  obtain ⟨hsource, -⟩ := (hd.rename_file hs hn).1 hrename
  obtain ⟨t, ht, htree, hsame, hnode⟩ := hd.of_rename hrename hs hsource.not_directory
  obtain ⟨c, hc⟩ :=
    Disk.find_of_approach_join ht.approach (within_ne_empty _ _) hmname.no_slash hmname.ne_empty
  obtain rfl := eq_of_walk hc hmname ht.walk
  rw [hn] at hnode
  refine ⟨htree, ⟨_, hsource, hn⟩, ⟨_, hsame.admits ht, ?_⟩, holds_of_node? hentry hm hp hc hsame hnode⟩
  rw [hnode, if_pos rfl]

theorem isHidden_eq_false_iff {file : String} :
    Entry.isHidden file = false ↔ file.toList.head? ≠ some '.' := by
  rw [Entry.isHidden, Bool.eq_false_iff, Ne, String.startsWith_string_iff]
  cases file.toList <;> simp [eq_comm]

theorem moved_eq (e : Entry) : moved e = if e.part = .new then ⟨.new, e.id, e.id, none⟩ else e := by
  obtain ⟨part, file, id, flags⟩ := e
  cases part <;> rfl

@[simp] theorem id_moved (e : Entry) : (moved e).id = e.id := by
  unfold moved
  split <;> rfl

theorem IsEntry.isId (he : IsEntry e) : IsId e.id := by
  have hid := isId_ofName e.part e.file
  rwa [he.name] at hid

theorem IsEntry.within (he : IsEntry e) :
    e.id.toList <+: e.file.toList ∧ ∀ c ∈ e.flags.getD [], c ∈ e.file.toList := by
  have hwithin := ofName_within e.part e.file
  rwa [he.name] at hwithin

/-- An identifier starts as the name does, unless it is empty. -/
theorem IsEntry.head_id (he : IsEntry e) : e.id.toList.head? ≠ some '.' := by
  have hvisible := isHidden_eq_false_iff.1 he.visible
  obtain ⟨rest, hfile⟩ := he.within.1
  cases hid : e.id.toList with
  | nil => exact nofun
  | cons c id => simpa [← hfile, hid] using hvisible

theorem IsEntry.isName_id (he : IsEntry e) (hname : IsName e.file) (hne : e.id ≠ "") : IsName e.id := by
  have hhead := he.head_id
  have hmem := he.within.1.subset
  refine ⟨hne, ?_, ?_, fun h => hname.no_slash (hmem h), fun h => hname.no_nul (hmem h)⟩
  · intro hdot
    rw [hdot] at hhead
    exact hhead rfl
  · intro hdots
    rw [hdots] at hhead
    exact hhead rfl

theorem IsEntry.moved (he : IsEntry e) : IsEntry (moved e) := by
  obtain ⟨part, file, id, flags⟩ := e
  cases part with
  | new => exact ⟨nofun, ofName_id he.isId .new, isHidden_eq_false_iff.2 he.head_id⟩
  | cur => exact he
  | tmp => exact absurd rfl he.part

theorem IsEntry.marked (he : IsEntry e) : IsEntry (marked e) where
  part := nofun
  name := ofName_flaggedName he.isId ..
  visible := by
    have hfile : (Maildir.marked e).file.toList =
        e.id.toList ++ (infoMark ++ sortUnique ('S' :: (Maildir.moved e).flags.getD [])) := by
      simp [Maildir.marked, flaggedName]
    have hhead := he.head_id
    rw [isHidden_eq_false_iff, hfile]
    cases hid : e.id.toList with
    | nil => simp [infoMark]
    | cons c id => simpa [hid] using hhead

theorem part_moved (e : Entry) : (moved e).part = e.part := by
  obtain ⟨part, file, id, flags⟩ := e
  cases part <;> rfl

theorem flags_moved (e : Entry) : ∀ c ∈ (moved e).flags.getD [], c ∈ e.flags.getD [] := by
  unfold Maildir.moved
  split
  · exact nofun
  · exact fun c hc => hc

theorem IsEntry.isName_moved (he : IsEntry e) (hname : IsName e.file)
    (hne : e.part = .new → e.id ≠ "") : IsName (Maildir.moved e).file := by
  unfold Maildir.moved
  split
  · next hpart => exact he.isName_id hname (hne hpart)
  · exact hname

theorem IsEntry.isName_marked (he : IsEntry e) (hname : IsName e.file) :
    IsName (Maildir.marked e).file := by
  have hid := he.within.1.subset
  refine isName_flaggedName (fun h => hname.no_slash (hid h)) (fun h => hname.no_nul (hid h)) ?_
  intro c hc
  obtain rfl | hc := List.mem_cons.1 hc
  · decide
  · have hc := he.within.2 c (flags_moved e c hc)
    exact ⟨fun h => hname.no_slash (h ▸ hc), fun h => hname.no_nul (h ▸ hc)⟩

/-- A maildir, by the places of its directories. -/
theorem IsMaildir.of_places {p q : Place} (hd : h.disk.IsTree)
    (hnew : h.disk.find h.working (Part.new.within root) = .ok (p, .directory))
    (hcur : h.disk.find h.working (Part.cur.within root) = .ok (q, .directory))
    (hfiles : ∀ place ∈ [p, q], ∀ file ∈ h.disk.names place,
      IsName file ∧ h.disk.node? (place ++ [file]) ≠ some .directory) : IsMaildir h root := by
  have hentry (e : Entry) (n : Node) (he : Holds h root e n) : IsName e.file ∧ n ≠ .directory := by
    obtain ⟨hentry, place, hplace, hn⟩ := he
    have hmem : place ∈ [p, q] := by
      cases hpart : e.part with
      | new =>
        cases (hpart ▸ hplace).symm.trans hnew
        exact List.mem_cons_self
      | cur =>
        cases (hpart ▸ hplace).symm.trans hcur
        exact List.mem_cons_of_mem _ List.mem_cons_self
      | tmp => exact absurd hpart hentry.part
    have hfile := hfiles place hmem e.file (Disk.mem_names.2 (by rw [hn]; exact Option.some_ne_none n))
    rw [hn] at hfile
    exact ⟨hfile.1, fun h => hfile.2 (congrArg some h)⟩
  exact ⟨hd, fun e n he => (hentry e n he).1, fun e n he => (hentry e n he).2⟩

/-- A message that is marked seen is an entry of its own; then all of the maildir is known. -/
theorem IsMaildir.mark (hmaildir : IsMaildir h root) (he : Holds h root e n)
    (hne : e.part = .new → e.id ≠ "")
    (hrename : h.disk.rename h.working ((moved e).path root) ((marked e).path root) = .ok d) :
    ∃ k, Holds h root (moved e) k ∧ k ≠ .directory ∧ Renamed h root (moved e) (marked e) k d ∧
      IsMaildir { h with disk := d } root := by
  have hname := hmaildir.names e n he
  obtain ⟨hentry, p, hp, -⟩ := he
  have hmoved := hentry.isName_moved hname hne
  have hmarked := hentry.isName_marked hname
  obtain ⟨-, -, -, -, s, k, -, hs, hk, -⟩ := Disk.rename_eq_ok.1 hrename
  rw [← part_moved] at hp
  obtain rfl := eq_of_walk hp hmoved hs
  have hholds : Holds h root (moved e) k := ⟨hentry.moved, p, hp, hk⟩
  have hfile := hmaildir.files _ _ hholds
  have hrenamed := Renamed.of_rename hmaildir.isTree hholds hfile hmoved hentry.marked hmarked hrename
  refine ⟨k, hholds, hfile, hrenamed, hrenamed.isTree, fun x l hx => ?_, fun x l hx => ?_⟩
  · obtain ⟨rfl, -⟩ | ⟨-, -, hx⟩ := (hrenamed.holds x l).1 hx
    · exact hmarked
    · exact hmaildir.names x l hx
  · obtain ⟨-, rfl⟩ | ⟨-, -, hx⟩ := (hrenamed.holds x l).1 hx
    · exact hfile
    · exact hmaildir.files x l hx

/-- A message can be marked seen, unless a path or a name is too long or its new place is taken by a
directory. -/
theorem IsMaildir.exists_markSeen (hmaildir : IsMaildir h root)
    (hfind : (inbox h root).find? (fun e => e.id = id) = some e)
    (hmoved : Holds h root (moved e) n) {q : Place}
    (hcur : h.disk.find h.working (Part.cur.within root) = .ok (q, .directory))
    (hpath : Disk.checkPath ((moved e).path root) = .ok ())
    (hshort : ¬ Disk.longestName < (moved e).file.utf8ByteSize)
    (hpath' : Disk.checkPath ((marked e).path root) = .ok ())
    (hshort' : ¬ Disk.longestName < (marked e).file.utf8ByteSize)
    (hfree : h.disk.node? (q ++ [(marked e).file]) ≠ some .directory) :
    ∃ h', h.perform (markSeen root id) = (.ok (), h') := by
  obtain ⟨-, k, he⟩ := mem_inbox.1 (List.mem_of_find?_eq_some hfind)
  have hname := hmaildir.names _ _ hmoved
  have hmarked := he.1.isName_marked (hmaildir.names e k he)
  have hfile := hmaildir.files _ _ hmoved
  obtain ⟨hentry, p, hp, hn⟩ := hmoved
  obtain ⟨content, date, rfl⟩ := Node.exists_file hfile
  have hsource : h.disk.Admits h.working ((moved e).path root) (p ++ [(moved e).file]) :=
    .join hp hname.no_slash hname.not_step hpath hshort (by rw [hn]; simp)
  have htarget : h.disk.Admits h.working ((marked e).path root) (q ++ [(marked e).file]) :=
    .join hcur hmarked.no_slash hmarked.not_step hpath' hshort' hfree
  exact ⟨_, perform_markSeen_eq_ok.2 ⟨e, _, hfind,
    (hmaildir.isTree.rename_file hsource.walk hn).2 ⟨hsource, _, htarget, rfl⟩, rfl⟩⟩

/-! ### What is listed afterwards -/

theorem not_stray (hstray : (listing h root .cur).any Entry.isStray = false) (he : Holds h root e n) :
    e.isStray = false := by
  rw [List.any_eq_false] at hstray
  by_cases hpart : e.part = .cur
  · exact Bool.eq_false_iff.2 (hstray e ((mem_listing (by decide)).2 ⟨hpart, n, he⟩))
  · simp [Entry.isStray, hpart]

namespace Renamed

variable (hr : Renamed h root e m n d)
include hr

theorem no_stray (hm : m.isStray = false) (hstray : (listing h root .cur).any Entry.isStray = false) :
    (listing { h with disk := d } root .cur).any Entry.isStray = false := by
  rw [List.any_eq_false]
  intro x hx
  obtain ⟨-, k, hx⟩ := (mem_listing (by decide)).1 hx
  rw [Bool.not_eq_true]
  obtain ⟨rfl, -⟩ | ⟨-, -, hx⟩ := (hr.holds x k).1 hx
  · exact hm
  · exact not_stray hstray hx

/-- What becomes seen is no more among what is not, and all else is where it was. If a message had its place,
that was seen. -/
theorem pending_perm (hd : h.disk.IsTree) (hpart : m.part = .cur) (hseen : m.isSeen = true)
    (hm : m.isStray = false) (hstray : (listing h root .cur).any Entry.isStray = false) :
    (pending { h with disk := d } root).Perm ((pending h root).erase e) := by
  have hne {x : Entry} (hx : x.part = .cur → x.isSeen = false) : x ≠ m := by
    rintro rfl
    exact Bool.false_ne_true ((hx hpart).symm.trans hseen)
  rw [List.perm_ext_iff_of_nodup (nodup_pending hr.isTree) ((nodup_pending hd).erase e)]
  intro x
  rw [(nodup_pending hd).mem_erase_iff, mem_pending (hr.no_stray hm hstray), mem_pending hstray, mem_inbox,
    mem_inbox]
  constructor
  · rintro ⟨⟨hxstray, k, hx⟩, hxseen⟩
    obtain ⟨hxm, -⟩ | ⟨-, hxe, hx⟩ := (hr.holds x k).1 hx
    · exact absurd hxm (hne hxseen)
    · exact ⟨hxe, ⟨hxstray, k, hx⟩, hxseen⟩
  · rintro ⟨hxe, ⟨hxstray, k, hx⟩, hxseen⟩
    exact ⟨⟨hxstray, k, (hr.holds x k).2 (.inr ⟨hne hxseen, hxe, hx⟩)⟩, hxseen⟩

theorem unseenIds (hd : h.disk.IsTree) (hpart : m.part = .cur) (hseen : m.isSeen = true)
    (hm : m.isStray = false) (hstray : (listing h root .cur).any Entry.isStray = false)
    (he : Holds h root e n) (hnew : e.part = .new → e.isSeen = false) :
    Maildir.unseenIds { h with disk := d } root =
      if e.isSeen then Maildir.unseenIds h root else (Maildir.unseenIds h root).erase e.id := by
  have hpending := hr.pending_perm hd hpart hseen hm hstray
  have hsorted := sortIds_perm ((pending h root).map Entry.id)
  have hmem : e ∈ pending h root ↔ e.isSeen = false := by
    rw [mem_pending hstray, mem_inbox]
    refine ⟨fun ⟨_, hcur⟩ => ?_, fun h => ⟨⟨not_stray hstray he, n, he⟩, fun _ => h⟩⟩
    cases hp : e.part with
    | new => exact hnew hp
    | cur => exact hcur hp
    | tmp => exact absurd hp he.1.part
  symm
  split
  · next hs =>
    rw [List.erase_of_not_mem (by simp [hmem, hs])] at hpending
    exact eq_sortIds (sortIds_ascending _) (hsorted.trans (hpending.map _).symm)
  · next hs =>
    refine eq_sortIds ((sortIds_ascending _).sublist List.erase_sublist) ?_
    have hcons := (List.perm_cons_erase (hmem.2 (by simpa using hs))).map Entry.id
    have herase := (hsorted.trans hcons).erase e.id
    rw [List.map_cons, List.erase_cons_head] at herase
    exact herase.trans (hpending.map _).symm

end Renamed

/-! ### What is found and what is marked -/

/-- A name in `new` that is an identifier, or a name in `cur`. -/
def Entry.IsPlain (e : Entry) : Prop := e.part = .new → e.file = e.id

theorem IsEntry.moved_eq_iff (he : IsEntry e) : Maildir.moved e = e ↔ e.IsPlain := by
  obtain ⟨part, file, id, flags⟩ := e
  cases part with
  | new =>
    constructor
    · exact fun h _ => (congrArg Entry.file h).symm
    · intro h
      obtain rfl : file = id := h rfl
      exact (ofName_id he.isId .new).symm.trans he.name
  | cur => exact iff_of_true rfl nofun
  | tmp => exact absurd rfl he.part

theorem isSeen_moved_of_new (h : (moved e).part = .new) : (moved e).isSeen = false := by
  obtain ⟨part, file, id, flags⟩ := e
  cases part with
  | new => rfl
  | cur => cases h
  | tmp => cases h

/-- The message that is found by an identifier, with its file. -/
structure Found (h : Host) (root : Path) (id : String) (e : Entry) (content : Bytes) (date : Date) :
    Prop where
  holds : Holds h root e (.file content date)
  first : (inbox h root).find? (fun x => x.id = id) = some e

/-- No other message has the identifier of this one. -/
def IsAlone (h : Host) (root : Path) (e : Entry) : Prop :=
  ∀ x n, Holds h root x n → x.id = e.id → x = e

/-- What alone has its identifier is found by it. -/
theorem IsAlone.find (halone : IsAlone h root e) (he : Holds h root e n) (hstray : e.isStray = false) :
    (inbox h root).find? (fun x => x.id = e.id) = some e := by
  cases hfind : (inbox h root).find? fun x => x.id = e.id with
  | none =>
    have hid := List.find?_eq_none.1 hfind e (mem_inbox.2 ⟨hstray, n, he⟩)
    simp at hid
  | some x =>
    obtain ⟨-, k, hx⟩ := mem_inbox.1 (List.mem_of_find?_eq_some hfind)
    rw [halone x k hx (by simpa using List.find?_some hfind)]

/-- What is fetched is the file that is found. -/
theorem Found.eq_of_fetch {content bytes : Bytes} {date : Date} (hf : Found h root id e content date)
    (hname : IsName e.file) (hfetch : h.perform (fetch root id) = (.ok bytes, h')) : bytes = content := by
  obtain ⟨-, x, hx, hread⟩ := perform_fetch_eq_ok.1 hfetch
  cases hf.first.symm.trans hx
  obtain ⟨s, date', hfind⟩ := Disk.read_eq_ok.1 hread
  obtain ⟨-, p, hp, hn⟩ := hf.holds
  obtain ⟨hlocate, hnode⟩ := Disk.find_eq_ok.1 hfind
  obtain ⟨-, hwalk, -⟩ := Disk.locate_eq_ok.1 hlocate
  rw [eq_of_walk hp hname hwalk, hn] at hnode
  cases hnode
  rfl

/-- The content and the date of the message with an identifier can be read. -/
structure Reads (h : Host) (root : Path) (id : String) (content : Bytes) (date : Date) : Prop where
  fetch : h.perform (fetch root id) = (.ok content, h)
  received : h.perform (received root id) = (.ok date, h)

theorem Found.reads {content : Bytes} {date : Date} (hf : Found h root id e content date)
    (hp : ∃ p, h.disk.Admits h.working (e.path root) p ∧ h.disk.node? p = some (.file content date)) :
    Reads h root id content date := by
  obtain ⟨p, hp, hn⟩ := hp
  have hplace := hp.find hn
  refine ⟨perform_fetch_eq_ok.2 ⟨rfl, e, hf.first, Disk.read_eq_ok.2 ⟨p, date, hplace⟩⟩, ?_⟩
  refine perform_received_eq_ok.2 ⟨rfl, e, hf.first, ?_⟩
  rw [Disk.modified, hplace]
  rfl

/-- Marking once more finds nothing to change. -/
theorem marked_marked (e : Entry) : marked (marked e) = marked e := by
  have hletters : sortUnique ('S' :: sortUnique ('S' :: (moved e).flags.getD [])) =
      sortUnique ('S' :: (moved e).flags.getD []) :=
    sortUnique_congr fun c => by simp [mem_sortUnique]
  change (⟨.cur, flaggedName e.id ('S' :: sortUnique _), e.id, some (sortUnique ('S' :: sortUnique _))⟩ :
    Entry) = ⟨.cur, flaggedName e.id _, e.id, some (sortUnique _)⟩
  rw [flaggedName, flaggedName, hletters]

theorem Found.markSeen {content : Bytes} {date : Date} (hd : h.disk.IsTree)
    (hf : Found h root id (marked e) content date)
    (hp : ∃ p, h.disk.Admits h.working ((marked e).path root) p ∧
      h.disk.node? p = some (.file content date)) :
    h.perform (markSeen root id) = (.ok (), h) := by
  obtain ⟨p, hp, hn⟩ := hp
  refine perform_markSeen_eq_ok.2 ⟨marked e, h.disk, hf.first, ?_, rfl⟩
  rw [marked_marked]
  exact (hd.rename_file hp.walk hn).2 ⟨hp, p, hp, (if_pos rfl).symm⟩

/-! ### Marking -/

/-- What marking a message seen makes of a maildir where these identifiers were unseen. The message was `x`
and is `m`: it keeps its file and its other flags, and it is not listed again. All others stay as they are,
except for one that had the place of `m`. If it alone has its identifier, marking it once more changes
nothing. -/
structure Marks (h h' : Host) (root : Path) (ids : List String) (x m : Entry) : Prop where
  isMaildir : IsMaildir h' root
  part : m.part = .cur
  id_eq : m.id = x.id
  flags : ∀ c, c ∈ m.flags.getD [] ↔ c = 'S' ∨ c ∈ x.flags.getD []
  file : ∃ content date, Holds h root x (.file content date) ∧ Holds h' root m (.file content date)
  others : ∀ y n, y ≠ m → (Holds h' root y n ↔ y ≠ x ∧ Holds h root y n)
  unseen : h'.perform (unseen root) = (.ok (if x.isSeen then ids else ids.erase x.id), h')
  again : IsAlone h root x → IsAlone h' root m ∧ x.id ∉ (if x.isSeen then ids else ids.erase x.id) ∧
    h'.perform (markSeen root x.id) = (.ok (), h')

/-- What is marked seen by an identifier is the message that is found by it, which is the one that is
fetched; it keeps its content and its date. Only if that is a file of `new` with more to its name than the
identifier, it stays where it is, and the file that has the identifier for its name is marked in its
stead. -/
structure MarkedSeen (h h' : Host) (root : Path) (id : String) (ids : List String) (e x m : Entry)
    (content : Bytes) (date : Date) : Prop where
  found : Found h root id e content date
  fetched : ∀ bytes, h.perform (fetch root id) = (.ok bytes, h) → bytes = content
  marks : Marks h h' root ids x m
  which : x = if e.part = .new then ⟨.new, id, id, none⟩ else e
  kept : Holds h' root (if x = e then m else e) (.file content date)
  plain : e.IsPlain → x = e ∧ Reads h root id content date ∧
    (IsAlone h root e → Reads h' root id content date)

/-- An entry that is renamed to what it is once it is marked. -/
theorem Renamed.marks (hr : Renamed h root (moved e) (marked e) n d) (hd : h.disk.IsTree)
    (hmaildir : IsMaildir { h with disk := d } root)
    (hstray : (listing h root .cur).any Entry.isStray = false) (hx : Holds h root (moved e) n)
    (hfile : n ≠ .directory) :
    Marks h { h with disk := d } root (Maildir.unseenIds h root) (moved e) (marked e) := by
  obtain ⟨content, date, rfl⟩ := Node.exists_file hfile
  have hm : Holds { h with disk := d } root (marked e) (.file content date) :=
    (hr.holds _ _).2 (.inl ⟨rfl, rfl⟩)
  have hseen : (marked e).isSeen = true := by simp [Entry.isSeen, marked, mem_sortUnique]
  have hids := hr.unseenIds hd rfl hseen rfl hstray hx isSeen_moved_of_new
  refine ⟨hmaildir, rfl, (id_moved e).symm, fun c => ?_, ⟨content, date, hx, hm⟩, fun y k hy => ?_, ?_,
    fun halone => ?_⟩
  · simp [marked, mem_sortUnique]
  · rw [hr.holds, and_iff_right hy]
    exact ⟨fun h => h.resolve_left fun h => hy h.1, .inr⟩
  · exact perform_unseen_eq_ok.2 ⟨rfl, hr.no_stray rfl hstray, hids.symm⟩
  · have halone' : IsAlone { h with disk := d } root (marked e) := by
      intro y k hy hid
      obtain ⟨hym, -⟩ | ⟨-, hne, hy⟩ := (hr.holds y k).1 hy
      · exact hym
      · exact absurd (halone y k hy (hid.trans (id_moved e).symm)) hne
    have hfound : Found { h with disk := d } root (moved e).id (marked e) content date :=
      id_moved e ▸ ⟨hm, halone'.find hm rfl⟩
    refine ⟨halone', ?_, hfound.markSeen hr.isTree hr.target⟩
    rw [← hids, Maildir.unseenIds, (sortIds_perm _).mem_iff, List.mem_map]
    rintro ⟨y, hy, hid⟩
    obtain ⟨hinbox, hyseen⟩ := (mem_pending (hr.no_stray rfl hstray)).1 hy
    obtain ⟨-, k, hy⟩ := mem_inbox.1 hinbox
    obtain rfl := halone' y k hy (hid.trans (id_moved e))
    exact Bool.false_ne_true ((hyseen rfl).symm.trans hseen)

/-- A message of `new` whose identifier is empty is left out, as its directory would be moved. -/
theorem IsMaildir.markSeen {ids : List String} (hmaildir : IsMaildir h root)
    (hunseen : h.perform (unseen root) = (.ok ids, h))
    (hempty : ∀ e ∈ listing h root .new, e.id = id → id ≠ "")
    (hmark : h.perform (markSeen root id) = (.ok (), h')) :
    ∃ e x m content date, MarkedSeen h h' root id ids e x m content date := by
  obtain ⟨-, hstray, rfl⟩ := perform_unseen_eq_ok.1 hunseen
  obtain ⟨e, d, hfind, hrename, rfl⟩ := perform_markSeen_eq_ok.1 hmark
  obtain rfl : e.id = id := by simpa using List.find?_some hfind
  obtain ⟨hestray, n, he⟩ := mem_inbox.1 (List.mem_of_find?_eq_some hfind)
  have hne (hpart : e.part = .new) : e.id ≠ "" :=
    hempty e ((mem_listing (by decide)).2 ⟨hpart, n, he⟩) rfl
  obtain ⟨k, hk, hfile, hr, hmaildir'⟩ := hmaildir.mark he hne hrename
  obtain ⟨content, date, rfl⟩ := Node.exists_file (hmaildir.files e n he)
  have hfound : Found h root e.id e content date := ⟨he, hfind⟩
  have hmarks := hr.marks hmaildir.isTree hmaildir' hstray hk hfile
  refine ⟨e, moved e, marked e, content, date, hfound,
    fun bytes h => hfound.eq_of_fetch (hmaildir.names e _ he) h, hmarks, moved_eq e, ?_, fun hplain => ?_⟩
  · split
    · next hmoved =>
      rw [hmoved] at hk
      cases he.unique hk
      exact (hr.holds _ _).2 (.inl ⟨rfl, rfl⟩)
    · next hmoved =>
      -- only what is in `new` stays, and what is marked is in `cur`
      have hne : e ≠ marked e := by
        intro hcur
        refine hmoved (he.1.moved_eq_iff.2 fun hnew => ?_)
        cases hnew.symm.trans (congrArg Entry.part hcur)
      exact (hr.holds _ _).2 (.inr ⟨hne, Ne.symm hmoved, he⟩)
  · have hmoved := he.1.moved_eq_iff.2 hplain
    rw [hmoved] at hk hr hmarks
    cases he.unique hk
    refine ⟨hmoved, hfound.reads hr.source, fun halone => ?_⟩
    have hm : Holds { h with disk := d } root (marked e) (.file content date) :=
      (hr.holds _ _).2 (.inl ⟨rfl, rfl⟩)
    exact Found.reads ⟨hm, (hmarks.again halone).1.find hm rfl⟩ hr.target

end MailSieve.Maildir
