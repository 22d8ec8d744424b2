import Mathlib
import MailSieve.Proofs.Files.Actions
import MailSieve.Proofs.Files.Path

/-!
Directories of a disk: the names in one are those of what is right below it, each once, and a name that is
joined to its path leads there.
-/

namespace MailSieve.Files.Disk

variable {d d' : Disk} {working p q : Place} {dir path : Path} {name : String}

/-- The name of what is right below a place. -/
def childName? (p q : Place) : Option String :=
  if p.isPrefixOf q then
    match q.drop p.length with
    | [n] => some n
    | _ => none
  else none

theorem childName?_eq_some : childName? p q = some name ↔ q = p ++ [name] := by
  unfold childName?
  split
  · next hprefix =>
    obtain ⟨r, rfl⟩ := List.isPrefixOf_iff_prefix.1 hprefix
    rw [List.drop_left, List.append_right_inj]
    split <;> simp_all
  · next hprefix =>
    refine iff_of_false (by simp) ?_
    rintro rfl
    exact hprefix (List.isPrefixOf_iff_prefix.2 (List.prefix_append ..))

theorem names_eq (d : Disk) (p : Place) :
    d.names p = (d.entries.map Prod.fst).filterMap (childName? p) := by
  rw [names, below, List.filterMap_filter, List.filterMap_map]
  refine List.filterMap_congr fun e _ => ?_
  by_cases hp : p.isPrefixOf e.1 = true
  · by_cases he : e.1 = p
    · simp [childName?, he]
    · have hbelow : (p.isPrefixOf e.1 && e.1 != p) = true := by simp [hp, he]
      exact (if_pos hbelow).trans (if_pos hp).symm
  · simp [childName?, hp]

theorem mem_names : name ∈ d.names p ↔ d.node? (p ++ [name]) ≠ none := by
  simp only [names_eq, List.mem_filterMap, childName?_eq_some, exists_eq_right]
  constructor
  · intro h
    obtain ⟨e, he, heq⟩ := List.mem_map.1 h
    exact heq ▸ node?_ne_none_of_mem he
  · intro h
    obtain ⟨n, hn⟩ := Option.ne_none_iff_exists'.1 h
    exact List.mem_map_of_mem (mem_of_node? (by simp) hn)

theorem IsTree.nodup_names (hd : d.IsTree) : (d.names p).Nodup := by
  rw [names_eq]
  refine hd.distinct.filterMap fun x y n hx hy => ?_
  rw [childName?_eq_some.1 hx, childName?_eq_some.1 hy]

theorem list_eq_ok {ns : List String} : d.list working path = .ok ns ↔
    ∃ p, d.find working path = .ok (p, .directory) ∧ ns = d.names p := by
  rw [list, bind_eq_ok]
  constructor
  · rintro ⟨⟨p, n⟩, hfind, h⟩
    cases n with
    | directory =>
      cases h
      exact ⟨p, hfind, rfl⟩
    | file content date => cases h
  · rintro ⟨p, hfind, rfl⟩
    exact ⟨_, hfind, rfl⟩

theorem SameDirectories.find (h : SameDirectories d d')
    (hfind : d.find working path = .ok (p, .directory)) :
    d'.find working path = .ok (p, .directory) := by
  obtain ⟨hlocate, hdir⟩ := find_eq_ok.1 hfind
  obtain ⟨hcheck, hwalk, -⟩ := locate_eq_ok.1 hlocate
  have hdir := (h p).2 hdir
  exact find_eq_ok.2 ⟨locate_eq_ok.2 ⟨hcheck, h.walk hwalk, fun _ => .inr hdir⟩, hdir⟩

theorem walk_join (hfind : d.find working dir = .ok (p, .directory)) (hslash : '/' ∉ name.toList)
    (hname : name ≠ "" ∧ name ≠ "." ∧ name ≠ "..") :
    d.walk (origin working (dir.join name)) (dir.join name).steps = .ok q ↔
      ¬ longestName < name.utf8ByteSize ∧ q = p ++ [name] := by
  obtain ⟨hne, hdot, hdots⟩ := hname
  obtain ⟨hlocate, hdir⟩ := find_eq_ok.1 hfind
  obtain ⟨-, hwalk, -⟩ := locate_eq_ok.1 hlocate
  rw [origin, Path.isAbsolute_join hslash, Path.steps_join hslash hne, walk_append, ← origin, hwalk]
  change d.walk p [name] = _ ↔ _
  rw [walk_cons hdir, if_neg hdot, if_neg hdots]
  split
  · next hlong => exact iff_of_false (by simp) fun h => h.1 hlong
  · next hlong => exact ⟨fun h => ⟨hlong, (Except.ok.inj h).symm⟩, fun h => congrArg _ h.2.symm⟩

theorem checkPath_eq_ok {p : Path} : checkPath p = .ok () ↔
    p.hasNul = false ∧ p ≠ "" ∧ ¬ Path.longest < p.utf8ByteSize := by
  unfold checkPath
  split
  · simp_all
  split
  · simp_all
  split <;> simp_all

/-- The directory that is to hold the last step of a path is there. -/
theorem find_of_approach_join (h : d.approach working (dir.join name) = .ok ()) (hdir : dir ≠ "")
    (hslash : '/' ∉ name.toList) (hne : name ≠ "") :
    ∃ p, d.find working dir = .ok (p, .directory) := by
  obtain ⟨hcheck, p, hwalk, hp⟩ := approach_eq_ok.1 h
  obtain ⟨hnul, -, hlong⟩ := checkPath_eq_ok.1 hcheck
  rw [origin, Path.isAbsolute_join hslash, Path.steps_join hslash hne, List.dropLast_concat] at hwalk
  obtain ⟨rest, hrest⟩ := Path.exists_join_eq_append dir name
  rw [hrest] at hnul hlong
  have hcheck : checkPath dir = .ok () → ∃ p, d.find working dir = .ok (p, .directory) :=
    fun hcheck => ⟨p, find_eq_ok.2 ⟨locate_eq_ok.2 ⟨hcheck, hwalk, fun _ => .inr hp⟩, hp⟩⟩
  refine hcheck (checkPath_eq_ok.2 ⟨?_, hdir, ?_⟩)
  · rw [Bool.eq_false_iff, Ne, Path.hasNul_iff] at hnul ⊢
    intro hmem
    exact hnul (by simp [hmem])
  · rw [String.utf8ByteSize_append] at hlong
    omega

/-- A file can be put below a directory, unless its path or its name is too long. -/
theorem Admits.join (hfind : d.find working dir = .ok (p, .directory)) (hslash : '/' ∉ name.toList)
    (hname : name ≠ "" ∧ name ≠ "." ∧ name ≠ "..") (hcheck : checkPath (dir.join name) = .ok ())
    (hshort : ¬ longestName < name.utf8ByteSize) (hfile : d.node? (p ++ [name]) ≠ some .directory) :
    d.Admits working (dir.join name) (p ++ [name]) where
  approach := by
    obtain ⟨hlocate, hdir⟩ := find_eq_ok.1 hfind
    obtain ⟨-, hwalk, -⟩ := locate_eq_ok.1 hlocate
    refine approach_eq_ok.2 ⟨hcheck, p, ?_, hdir⟩
    rwa [origin, Path.isAbsolute_join hslash, Path.steps_join hslash hname.1, List.dropLast_concat]
  no_slash := Path.endsInSlash_join hslash hname.1
  walk := (walk_join hfind hslash hname).2 ⟨hshort, rfl⟩
  not_directory := hfile

end MailSieve.Files.Disk
