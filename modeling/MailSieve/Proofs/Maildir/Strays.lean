import Mathlib
import MailSieve.Proofs.Maildir.Forwarding
import MailSieve.Proofs.Text.Utf8Order

/-!
What is listed as unseen: every file of `new`, and every file of `cur` without the flag, by identifiers in the
order of their bytes. One file of `cur` whose name has no mark is enough to have none of them listed, though all
of them can be found.
-/

namespace MailSieve.Maildir

open Files Text

variable {h : Host} {root : Path} {part : Part} {file : String}

/-- A name divided at its marks: the identifier is before the first, the flags are from there up to the second. -/
structure Divides (file id : String) (flags : Option (List Char)) : Prop where
  unmarked : ¬ infoMark <:+: id.toList
  whole : flags = none → file = id
  marked : ∀ letters ∈ flags, ¬ infoMark <:+: letters ∧
    ∃ rest, (rest = [] ∨ infoMark <+: rest) ∧ file.toList = id.toList ++ (infoMark ++ (letters ++ rest))

theorem not_infix_of_cut? {l : List Char} (h : cut? infoMark l = none) : ¬ infoMark <:+: l := by
  rintro ⟨a, b, rfl⟩
  induction a with
  | nil => simp [cut?, infoMark] at h
  | cons c a ih =>
    rw [List.cons_append, List.cons_append, cut?] at h
    split at h
    · cases h
    · exact ih (Option.map_eq_none_iff.1 h)

theorem divides_ofName (part : Part) (file : String) :
    Divides file (Entry.ofName part file).id (Entry.ofName part file).flags := by
  refine ⟨not_infix_of_cut? (isId_ofName part file), ?_, ?_⟩
  · unfold Entry.ofName
    split
    · exact fun _ => rfl
    · split <;> exact nofun
  · unfold Entry.ofName
    split
    · exact nofun
    · next id info hid =>
      have hfile := (cut?_eq_some hid).1
      rw [hfile]
      split
      · next hinfo =>
        rintro _ ⟨⟩
        exact ⟨not_infix_of_cut? hinfo, [], .inl rfl, by simp⟩
      · next flags rest hflags =>
        obtain ⟨rfl, hcut⟩ := cut?_eq_some hflags
        rintro _ ⟨⟩
        exact ⟨not_infix_of_cut? hcut, infoMark ++ rest, .inr (List.prefix_append ..), by simp⟩

/-- The names in a part of a maildir that are not hidden. -/
def names (h : Host) (root : Path) (part : Part) : List String := (listing h root part).map Entry.file

theorem listing_eq_map (hpart : part ≠ .tmp) :
    listing h root part = (names h root part).map (Entry.ofName part) := by
  rw [names, List.map_map]
  refine (List.map_id' _).symm.trans (List.map_congr_left fun e he => ?_)
  obtain ⟨rfl, n, hentry, -⟩ := (mem_listing hpart).1 he
  exact hentry.name.symm

/-- A name that is not hidden, of what is in a part of a maildir. -/
def IsThere (h : Host) (root : Path) (part : Part) (file : String) : Prop :=
  Entry.isHidden file = false ∧ ∃ p n, h.disk.find h.working (part.within root) = .ok (p, .directory) ∧
    h.disk.node? (p ++ [file]) = some n

theorem mem_names (hpart : part ≠ .tmp) : file ∈ names h root part ↔ IsThere h root part file := by
  rw [names, List.mem_map]
  constructor
  · rintro ⟨e, he, rfl⟩
    obtain ⟨rfl, n, hentry, p, hp, hn⟩ := (mem_listing hpart).1 he
    exact ⟨hentry.visible, p, n, hp, hn⟩
  · rintro ⟨hvisible, p, n, hp, hn⟩
    have hname := part_ofName part file
    have hfile := file_ofName part file
    refine ⟨Entry.ofName part file, (mem_listing hpart).2 ⟨hname, n, ⟨?_, ?_, ?_⟩, p, ?_, ?_⟩, hfile⟩
    · rwa [hname]
    · rw [hname, hfile]
    · rwa [hfile]
    · rwa [hname]
    · rwa [hfile]

theorem nodup_names (hd : h.disk.IsTree) (hpart : part ≠ .tmp) : (names h root part).Nodup := by
  have hlisting := nodup_listing hd root part
  rw [listing_eq_map hpart] at hlisting
  exact hlisting.of_map _

/-- A file of `cur` is stray if there is no mark in its name. -/
theorem isStray_ofName (file : String) :
    (Entry.ofName .cur file).isStray = true ↔ ¬ infoMark <:+: file.toList := by
  have hd := divides_ofName .cur file
  have hstray : (Entry.ofName .cur file).isStray = true ↔ (Entry.ofName .cur file).flags = none := by
    simp [Entry.isStray, part_ofName]
  rw [hstray]
  constructor
  · intro hnone
    rw [hd.whole hnone]
    exact hd.unmarked
  · intro hmark
    cases hflags : (Entry.ofName .cur file).flags with
    | none => rfl
    | some letters =>
      obtain ⟨-, rest, -, hfile⟩ := hd.marked letters hflags
      exact absurd ⟨_, _, (List.append_assoc ..).trans hfile.symm⟩ hmark

theorem any_isStray : (listing h root .cur).any Entry.isStray = true ↔
    ∃ file ∈ names h root .cur, ¬ infoMark <:+: file.toList := by
  rw [listing_eq_map (by decide), List.any_map, List.any_eq_true]
  exact exists_congr fun file => and_congr_right fun _ => isStray_ofName file

theorem perform_unseen_stray (hstray : (listing h root .cur).any Entry.isStray = true) :
    h.perform (unseen root) = (.error ⟨[s!"listing {root}"], .strayEntry⟩, h) := by
  rw [unseen, Host.perform_bind, perform_entries]
  dsimp only
  rw [Host.perform_bind, perform_entries]
  dsimp only
  rw [if_pos hstray]
  rfl

/-- A message of a maildir is found by its identifier, or another one with the same is. -/
theorem exists_find {e : Entry} (he : e ∈ inbox h root) :
    ∃ m, m.id = e.id ∧ h.perform (find root e.id) = (.ok m, h) := by
  cases hfind : (inbox h root).find? fun x => x.id = e.id with
  | none =>
    have hid := List.find?_eq_none.1 hfind e he
    simp at hid
  | some m => exact ⟨m, by simpa using List.find?_some hfind, perform_find_eq_ok.2 ⟨rfl, hfind⟩⟩

theorem ofString_le {s t : String} (h : s ≤ t) : Bytes.ofString s ≤ Bytes.ofString t :=
  fun hlt => h (Utf8.ofString_lt.1 hlt)

/-- Unless a file of `cur` has no mark in its name, the identifiers of all files of `new`, and of those of `cur`
whose flags have no `S`, are listed in the order of their bytes, one for each file. If there is such a file, none
are listed, but all other messages can be found. -/
theorem unseen_lists_unless_stray (h : Host) (hd : h.disk.IsTree) (root : Path) :
    ∃ new cur : List String,
      (new.Nodup ∧ ∀ f, f ∈ new ↔ IsThere h root .new f) ∧
      (cur.Nodup ∧ ∀ f, f ∈ cur ↔ IsThere h root .cur f) ∧
      (∀ part f, Divides f (Entry.ofName part f).id (Entry.ofName part f).flags) ∧
      ((∀ f ∈ cur, infoMark <:+: f.toList) → ∃ ids, h.perform (unseen root) = (.ok ids, h) ∧
        ids.Pairwise (fun a b => Bytes.ofString a ≤ Bytes.ofString b) ∧
        ids.Perm ((new.map (Entry.ofName .new) ++
          (cur.map (Entry.ofName .cur)).filter fun e => 'S' ∉ e.flags.getD []).map Entry.id)) ∧
      ((∃ f ∈ cur, ¬ infoMark <:+: f.toList) →
        h.perform (unseen root) = (.error ⟨[s!"listing {root}"], .strayEntry⟩, h)) ∧
      (∀ f ∈ new, ∃ e, h.perform (find root (Entry.ofName .new f).id) = (.ok e, h)) ∧
      ∀ f ∈ cur, infoMark <:+: f.toList → ∃ e, h.perform (find root (Entry.ofName .cur f).id) = (.ok e, h) := by
  have hnew : listing h root .new = _ := listing_eq_map (by decide)
  have hcur : listing h root .cur = _ := listing_eq_map (by decide)
  refine ⟨names h root .new, names h root .cur, ⟨nodup_names hd (by decide), fun _ => mem_names (by decide)⟩,
    ⟨nodup_names hd (by decide), fun _ => mem_names (by decide)⟩, divides_ofName, fun hmarks => ?_,
    fun hstray => perform_unseen_stray (any_isStray.2 hstray), fun f hf => ?_, fun f hf hmark => ?_⟩
  · refine ⟨unseenIds h root, perform_unseen_eq_ok.2 ⟨rfl, ?_, rfl⟩, ?_, ?_⟩
    · rw [Bool.eq_false_iff, Ne, any_isStray]
      rintro ⟨f, hf, hmark⟩
      exact hmark (hmarks f hf)
    · exact (sortIds_ascending _).imp ofString_le
    · rw [← hnew, ← hcur]
      refine (sortIds_perm _).trans (List.Perm.of_eq ?_)
      simp [pending, Entry.isSeen]
  · have he : Entry.ofName .new f ∈ inbox h root := by
      rw [inbox, hnew]
      exact List.mem_append_left _ (List.mem_map_of_mem hf)
    obtain ⟨m, -, hfind⟩ := exists_find he
    exact ⟨m, hfind⟩
  · have he : Entry.ofName .cur f ∈ inbox h root := by
      rw [inbox, hcur, List.mem_append, List.mem_filter]
      refine .inr ⟨List.mem_map_of_mem hf, ?_⟩
      rw [Bool.not_eq_true', Bool.eq_false_iff, Ne, isStray_ofName, not_not]
      exact hmark
    obtain ⟨m, -, hfind⟩ := exists_find he
    exact ⟨m, hfind⟩

/-- A name with two marks is seen or not by the flags between them. -/
def twiceMarked : Host := hostOf [("c", [1])] [("a:2,F:2,S", [2]), ("b:2,S", [3])]

theorem twiceMarked_listed : twiceMarked.disk.IsTree ∧
    (∀ f, IsThere twiceMarked "m" .cur f → infoMark <:+: f.toList) ∧
    twiceMarked.perform (unseen "m") = (.ok ["a", "c"], twiceMarked) ∧
    ["a", "c"].Pairwise fun a b => Bytes.ofString a ≤ Bytes.ofString b := by
  have hd : twiceMarked.disk.IsTree := by decide
  have hnames : twiceMarked.disk.names ["m", "cur"] = ["a:2,F:2,S", "b:2,S"] := by decide
  have hmarks (f : String) (hf : IsThere twiceMarked "m" .cur f) : infoMark <:+: f.toList := by
    obtain ⟨-, p, n, hp, hn⟩ := hf
    cases hp.symm.trans (find_hostOf _ _).2
    have hmem : f ∈ ["a:2,F:2,S", "b:2,S"] := by
      rw [← hnames, Disk.mem_names, hn]
      exact Option.some_ne_none n
    have hmarked : ∀ f ∈ ["a:2,F:2,S", "b:2,S"], infoMark <:+: f.toList := by decide
    exact hmarked f hmem
  obtain ⟨new, cur, -, ⟨-, hcur⟩, -, hlists, -⟩ := unseen_lists_unless_stray twiceMarked hd "m"
  obtain ⟨ids, hunseen, hsorted, -⟩ := hlists fun f hf => hmarks f ((hcur f).1 hf)
  have hids : twiceMarked.perform (unseen "m") = (.ok ["a", "c"], twiceMarked) := by cbv
  cases hunseen.symm.trans hids
  exact ⟨hd, hmarks, hids, hsorted⟩

/-- A new message, and a file without a mark among those that were seen. -/
def strayed : Host := hostOf [("a", [1])] [("b", [2])]

theorem stray_file_hides_messages : strayed.disk.IsTree ∧ IsThere strayed "m" .new "a" ∧
    IsThere strayed "m" .cur "b" ∧ (∀ ids h', strayed.perform (unseen "m") ≠ (.ok ids, h')) ∧
    strayed.perform (unseen "m") = (.error ⟨["listing m"], .strayEntry⟩, strayed) ∧
    strayed.perform (fetch "m" "a") = (.ok [1], strayed) := by
  have hunseen : strayed.perform (unseen "m") = (.error ⟨["listing m"], .strayEntry⟩, strayed) := by cbv
  refine ⟨by decide, ⟨by cbv, ["m", "new"], .file [1] 0, (find_hostOf _ _).1, by decide⟩,
    ⟨by cbv, ["m", "cur"], .file [2] 0, (find_hostOf _ _).2, by decide⟩, fun ids h' => ?_, hunseen, by cbv⟩
  intro h
  cases congrArg Prod.fst (hunseen.symm.trans h)

end MailSieve.Maildir
