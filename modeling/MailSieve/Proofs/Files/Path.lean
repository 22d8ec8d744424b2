import Mathlib.Data.List.Basic
import MailSieve.Files.Disk

/-!
Paths and their steps: the name that is joined to the path of a directory is one more step.
-/

namespace MailSieve.Text

theorem pieces_append (mark : Char) (l r : List Char) :
    pieces mark (l ++ mark :: r) = pieces mark l ++ pieces mark r := by
  induction l with
  | nil =>
    obtain ⟨p, ps, hr⟩ := List.exists_cons_of_ne_nil (pieces_ne_nil mark r)
    simp [pieces, hr]
  | cons c l ih =>
    obtain ⟨p, ps, hl⟩ := List.exists_cons_of_ne_nil (pieces_ne_nil mark l)
    rw [List.cons_append, pieces, ih, pieces, hl]
    by_cases hc : c = mark <;> simp [hc]

theorem pieces_of_not_mem {mark : Char} {l : List Char} (h : mark ∉ l) : pieces mark l = [l] := by
  induction l with
  | nil => rfl
  | cons c l ih =>
    obtain ⟨hc, hl⟩ := List.ne_and_not_mem_of_not_mem_cons h
    rw [pieces, ih hl]
    simp [Ne.symm hc]

/-- What is added after the last mark is added to the last piece. -/
theorem pieces_append_of_not_mem {mark : Char} {r : List Char} (hr : mark ∉ r) (l : List Char) :
    ∃ ps last, pieces mark l = ps ++ [last] ∧ pieces mark (l ++ r) = ps ++ [last ++ r] := by
  induction l with
  | nil => exact ⟨[], [], rfl, pieces_of_not_mem hr⟩
  | cons c l ih =>
    obtain ⟨ps, last, hl, hlr⟩ := ih
    rw [List.cons_append, pieces, pieces, hl, hlr]
    by_cases hc : c = mark
    · refine ⟨[] :: ps, last, ?_, ?_⟩ <;> cases ps <;> simp [hc]
    · cases ps with
      | nil => exact ⟨[], c :: last, by simp [hc], by simp [hc]⟩
      | cons p ps => exact ⟨(c :: p) :: ps, last, by simp [hc], by simp [hc]⟩

end MailSieve.Text

namespace MailSieve.Files.Path

open Text

variable {dir : Path} {name : String}

theorem endsWith_slash {p : Path} : p.endsWith "/" = true ↔ ['/'] <:+ p.toList := by
  rw [String.endsWith_eq_endsWith_toSlice, String.Slice.endsWith_string_iff]
  simp

theorem steps_eq_nil : steps "" = [] := by decide

theorem steps_append (p q : Path) : steps (p ++ "/" ++ q) = p.steps ++ q.steps := by
  have hlist : (p ++ "/" ++ q).toList = p.toList ++ '/' :: q.toList := by simp
  rw [steps, hlist, pieces_append, List.map_append, List.filter_append]
  rfl

theorem steps_name (hslash : '/' ∉ name.toList) (hne : name ≠ "") : steps name = [name] := by
  rw [steps, pieces_of_not_mem hslash]
  simp [hne]

/-- A path that ends in a slash, and one that does not. -/
theorem join_cases (dir : Path) (name : String) :
    (dir = "" ∧ dir.join name = name) ∨ (∃ p, dir = p ++ "/" ∧ dir.join name = p ++ "/" ++ name) ∨
      (dir ≠ "" ∧ dir.join name = dir ++ "/" ++ name) := by
  unfold join
  split
  · next h =>
    obtain h | h := Bool.or_eq_true_iff.1 h
    · have hdir : dir = "" := String.isEmpty_iff.1 h
      exact .inl ⟨hdir, by rw [hdir, String.empty_append]⟩
    · obtain ⟨cs, hcs⟩ := endsWith_slash.1 h
      have hdir : dir = .ofList cs ++ "/" := by
        rw [← String.toList_inj, ← hcs]
        simp
      exact .inr (.inl ⟨.ofList cs, hdir, by rw [← hdir]⟩)
  · next h =>
    refine .inr (.inr ⟨?_, rfl⟩)
    rintro rfl
    exact h rfl

theorem exists_join_eq_append (dir : Path) (name : String) : ∃ rest, dir.join name = dir ++ rest := by
  obtain ⟨rfl, h⟩ | ⟨p, rfl, h⟩ | ⟨-, h⟩ := join_cases dir name
  · exact ⟨name, by rw [h, String.empty_append]⟩
  · exact ⟨name, h⟩
  · exact ⟨"/" ++ name, by rw [h, String.append_assoc]⟩

theorem steps_join (hslash : '/' ∉ name.toList) (hne : name ≠ "") :
    (dir.join name).steps = dir.steps ++ [name] := by
  obtain ⟨rfl, h⟩ | ⟨p, rfl, h⟩ | ⟨-, h⟩ := join_cases dir name
  · rw [h, steps_eq_nil, steps_name hslash hne, List.nil_append]
  · have hp := steps_append p ""
    rw [String.append_empty, steps_eq_nil, List.append_nil] at hp
    rw [h, steps_append, hp, steps_name hslash hne]
  · rw [h, steps_append, steps_name hslash hne]

theorem endsInSlash_join (hslash : '/' ∉ name.toList) (hne : name ≠ "") :
    (dir.join name).endsInSlash = false := by
  obtain ⟨p, hp⟩ : ∃ p, dir.join name = p ++ name := by
    obtain ⟨-, h⟩ | ⟨p, -, h⟩ | ⟨-, h⟩ := join_cases dir name
    · exact ⟨"", by rw [h, String.empty_append]⟩
    · exact ⟨_, h⟩
    · exact ⟨_, h⟩
  rw [Bool.eq_false_iff]
  intro hends
  rw [endsInSlash, endsWith_slash, hp, String.toList_append] at hends
  obtain ⟨l, c, hname⟩ := List.eq_nil_or_concat' name.toList |>.resolve_left
    (by rwa [String.toList_eq_nil_iff])
  rw [hname, ← List.append_assoc] at hends
  have hc : ['/'] = [c] := List.append_inj_right' hends.choose_spec rfl
  rw [hname, ← hc] at hslash
  simp at hslash

theorem isAbsolute_iff {p : Path} : p.isAbsolute = true ↔ p.toList.head? = some '/' := by
  rw [isAbsolute, String.startsWith_string_iff]
  cases p.toList <;> simp [eq_comm]

theorem isAbsolute_join (hslash : '/' ∉ name.toList) : (dir.join name).isAbsolute = dir.isAbsolute := by
  rw [Bool.eq_iff_iff, isAbsolute_iff, isAbsolute_iff]
  obtain ⟨rfl, h⟩ | ⟨p, rfl, h⟩ | ⟨hdir, h⟩ := join_cases dir name
  · rw [h]
    refine iff_of_false (fun hhead => hslash ?_) (by simp)
    exact List.mem_of_mem_head? hhead
  · rw [h, String.toList_append, List.head?_append_of_ne_nil _ (by simp)]
  · rw [h, String.toList_append, String.toList_append, List.append_assoc,
      List.head?_append_of_ne_nil _ (by rwa [Ne, String.toList_eq_nil_iff])]

/-- What is added to a path is added to the name of its last step, or is a step more. -/
theorem exists_steps_append (path : Path) (rest : String) (hslash : '/' ∉ rest.toList) (hne : rest ≠ "") :
    ∃ (ns : List String) (last : String), path.steps = ns ++ (if last = "" then [] else [last]) ∧
      (path ++ rest).steps = ns ++ [last ++ rest] := by
  obtain ⟨ps, last, hpath, hrest⟩ := pieces_append_of_not_mem hslash path.toList
  refine ⟨(ps.map String.ofList).filter fun n => n != "", .ofList last, ?_, ?_⟩
  · rw [steps, hpath, List.map_append, List.filter_append]
    by_cases hlast : last = [] <;> simp [hlast]
  · rw [steps, String.toList_append, hrest, List.map_append, List.filter_append]
    simp [hne]

theorem isAbsolute_append {path : Path} {rest : String} (hrest : rest.toList.head? ≠ some '/') :
    (path ++ rest).isAbsolute = path.isAbsolute := by
  rw [Bool.eq_iff_iff, isAbsolute_iff, isAbsolute_iff, String.toList_append]
  cases path.toList with
  | nil => exact iff_of_false hrest nofun
  | cons c l => exact Iff.rfl

theorem hasNul_iff {p : Path} : p.hasNul = true ↔ '\x00' ∈ p.toList := by
  change p.contains (fun c => c == '\x00') = true ↔ _
  rw [String.contains_bool_eq]
  simp

end MailSieve.Files.Path
