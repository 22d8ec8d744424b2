import Mathlib
import MailSieve.Proofs.Files.Listing

/-!
Making directories: those that were made are found, a tree stays one, and nothing that was there is changed.
-/

namespace MailSieve.Files.Disk

variable {d d' d'' : Disk} {working start p q : Place} {path : Path} {name : String}

/-- A disk that has nothing more than another, but for directories. -/
def Extends (d d' : Disk) : Prop :=
  ∀ p, d'.node? p = d.node? p ∨ d.node? p = none ∧ d'.node? p = some .directory

theorem Extends.refl (d : Disk) : Extends d d := fun _ => .inl rfl

theorem Extends.trans (h : Extends d d') (h' : Extends d' d'') : Extends d d'' := by
  intro p
  obtain hp | ⟨hnone, hdir⟩ := h p
  · rw [← hp]
    exact h' p
  · refine .inr ⟨hnone, ?_⟩
    obtain hp | ⟨hnone', -⟩ := h' p
    · rw [hp, hdir]
    · rw [hdir] at hnone'
      cases hnone'

theorem Extends.directory (h : Extends d d') (hp : d.node? p = some .directory) :
    d'.node? p = some .directory := by
  obtain heq | ⟨hnone, -⟩ := h p
  · rw [heq, hp]
  · rw [hp] at hnone
    cases hnone

theorem Extends.walk (h : Extends d d') {ns : List String} (hw : d.walk start ns = .ok p) :
    d'.walk start ns = .ok p :=
  walk_of_directories (fun _ => h.directory) hw

theorem Extends.find (h : Extends d d') (hfind : d.find working path = .ok (p, .directory)) :
    d'.find working path = .ok (p, .directory) := by
  obtain ⟨hlocate, hdir⟩ := find_eq_ok.1 hfind
  obtain ⟨hcheck, hwalk, -⟩ := locate_eq_ok.1 hlocate
  have hdir := h.directory hdir
  exact find_eq_ok.2 ⟨locate_eq_ok.2 ⟨hcheck, h.walk hwalk, fun _ => .inr hdir⟩, hdir⟩

/-- What was made on the way from a place is a way, and all there is besides what there was. -/
structure Leads (d d' : Disk) (start : Place) (ns : List String) : Prop where
  isTree : d'.IsTree
  extend : Extends d d'
  way : ∃ p, d'.walk start ns = .ok p ∧ d'.node? p = some .directory

theorem IsTree.of_makeFrom (hd : d.IsTree) {alone : Bool} {ns : List String}
    (hstart : d.node? start = some .directory) (hdots : "." ∉ ns)
    (h : d.makeFrom alone start ns = (d', .ok ())) : Leads d d' start ns := by
  induction ns generalizing d start alone with
  | nil =>
    cases h
    exact ⟨hd, .refl _, start, rfl, hstart⟩
  | cons n ns ih =>
    obtain ⟨hn, hns⟩ := List.ne_and_not_mem_of_not_mem_cons hdots
    rw [makeFrom] at h
    split at h
    · next hup =>
      obtain ⟨htree, hextend, p, hwalk, hp⟩ := ih hd (hd.dropLast hstart) hns h
      refine ⟨htree, hextend, p, ?_, hp⟩
      rwa [walk_cons (hextend.directory hstart), if_neg (Ne.symm hn), if_pos hup]
    split at h
    · cases h
    · next hup hlong =>
      have hstep {p : Place} (hextend : Extends d d') (hwalk : d'.walk (start ++ [n]) ns = .ok p) :
          d'.walk start (n :: ns) = .ok p := by
        rwa [walk_cons (hextend.directory hstart), if_neg (Ne.symm hn), if_neg hup, if_neg hlong]
      split at h
      · next hdir =>
        obtain ⟨htree, hextend, p, hwalk, hp⟩ := ih hd hdir hns h
        exact ⟨htree, hextend, p, hstep hextend hwalk, hp⟩
      · cases h
      · next hnone =>
        have hnode (q : Place) := node?_put (q := q) d .directory (p := start ++ [n]) (by simp)
        have hmade : Extends d (d.put (start ++ [n]) .directory) := by
          intro q
          rw [hnode]
          split
          · next hq => exact .inr ⟨hq ▸ hnone, rfl⟩
          · exact .inl rfl
        obtain ⟨htree, hextend, p, hwalk, hp⟩ :=
          ih (hd.put hstart fun _ => rfl) (by rw [hnode, if_pos rfl]) hns h
        exact ⟨htree, hmade.trans hextend, p, hstep (hmade.trans hextend) hwalk, hp⟩

/-- A way leads from a directory if it leads to one. -/
theorem directory_of_walk {ns : List String} (hw : d.walk start ns = .ok p)
    (hp : d.node? p = some .directory) : d.node? start = some .directory := by
  cases ns with
  | nil =>
    cases hw
    exact hp
  | cons n ns => exact directory_of_walk_cons hw

/-- Single dots lead nowhere. -/
theorem walk_of_names {ns : List String} (hw : d.walk start (ns.filter (· != ".")) = .ok p)
    (hp : d.node? p = some .directory) : d.walk start ns = .ok p := by
  induction ns generalizing start with
  | nil => exact hw
  | cons n ns ih =>
    have hdir := directory_of_walk hw hp
    by_cases hn : n = "."
    · subst hn
      rw [walk_cons hdir, if_pos rfl]
      exact ih hw
    · rw [List.filter_cons_of_pos (by simpa using hn), walk_cons hdir, if_neg hn] at hw
      rw [walk_cons hdir, if_neg hn]
      split at hw
      · next hup =>
        rw [if_pos hup]
        exact ih hw
      split at hw
      · cases hw
      · next hup hlong =>
        rw [if_neg hup, if_neg hlong]
        exact ih hw

/-- Making what is there changes nothing. -/
theorem makeFrom_of_walk {alone : Bool} {ns : List String} (hw : d.walk start ns = .ok p)
    (hp : d.node? p = some .directory) : d.makeFrom alone start (ns.filter (· != ".")) = (d, .ok ()) := by
  induction ns generalizing start with
  | nil => rfl
  | cons n ns ih =>
    have hdir := directory_of_walk hw hp
    rw [walk_cons hdir] at hw
    split at hw
    · next hn =>
      rw [List.filter_cons_of_neg (by simp [hn])]
      exact ih hw
    · next hn =>
      rw [List.filter_cons_of_pos (by simpa using hn), makeFrom]
      split at hw
      · next hup =>
        rw [if_pos hup]
        exact ih hw
      split at hw
      · cases hw
      · next hup hlong =>
        rw [if_neg hup, if_neg hlong, directory_of_walk hw hp]
        exact ih hw

/-- Unless its path ends in a dot, a directory is made with all that are on the way to it. -/
theorem makeDirectory_eq (hcheck : checkPath path = .ok ()) (hlast : path.steps.getLast? ≠ some ".") :
    d.makeDirectory working path = d.makeFrom false (origin working path) path.names := by
  rw [makeDirectory, hcheck]
  exact if_neg hlast

theorem makeDirectory_of_find (hlast : path.steps.getLast? ≠ some ".")
    (hfind : d.find working path = .ok (p, .directory)) : d.makeDirectory working path = (d, .ok ()) := by
  obtain ⟨hlocate, hdir⟩ := find_eq_ok.1 hfind
  obtain ⟨hcheck, hwalk, -⟩ := locate_eq_ok.1 hlocate
  rw [makeDirectory_eq hcheck hlast]
  exact makeFrom_of_walk hwalk hdir

/-- A directory that is made is there. -/
theorem IsTree.of_makeDirectory (hd : d.IsTree) (hworking : d.node? working = some .directory)
    (hne : path ≠ "") (hlast : path.steps.getLast? ≠ some ".")
    (h : d.makeDirectory working path = (d', .ok ())) :
    d'.IsTree ∧ Extends d d' ∧ ∃ p, d'.find working path = .ok (p, .directory) := by
  have hcheck : checkPath path = .ok () := by
    rw [makeDirectory] at h
    split at h
    · next hcheck =>
      unfold checkPath at hcheck
      split at hcheck
      · cases hcheck
      split at hcheck
      · next hempty => exact absurd (String.isEmpty_iff.1 hempty) hne
      split at hcheck <;> cases hcheck
    · cases h
    · next hcheck => exact hcheck
  have hstart : d.node? (origin working path) = some .directory := by
    unfold origin
    split
    · rfl
    · exact hworking
  rw [makeDirectory_eq hcheck hlast] at h
  obtain ⟨htree, hextend, p, hwalk, hp⟩ := hd.of_makeFrom hstart (by simp [Path.names]) h
  refine ⟨htree, hextend, p, find_eq_ok.2 ⟨locate_eq_ok.2 ⟨hcheck, ?_, fun _ => .inr hp⟩, hp⟩⟩
  exact walk_of_names hwalk hp

end MailSieve.Files.Disk
