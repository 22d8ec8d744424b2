import MailSieve.Maildir.Entry
import MailSieve.Proofs.Text.Sorted

/-!
Names of the files of a maildir: the identifier and the flags that are written into a name are read from
it again.
-/

namespace MailSieve.Text

variable {mark l a b : List Char}

theorem cut?_eq_some (h : cut? mark l = some (a, b)) : l = a ++ (mark ++ b) ∧ cut? mark a = none := by
  induction l generalizing a with
  | nil => cases h
  | cons c r ih =>
    rw [cut?] at h
    split at h
    · next hprefix =>
      cases h
      obtain ⟨b, hb⟩ := List.isPrefixOf_iff_prefix.1 hprefix
      rw [← hb]
      simp [cut?]
    · next hprefix =>
      obtain ⟨⟨a, b'⟩, hr, he⟩ := Option.map_eq_some_iff.1 h
      cases he
      obtain ⟨rfl, hcut⟩ := ih hr
      refine ⟨rfl, ?_⟩
      rw [cut?, if_neg, hcut]
      · rfl
      · intro hmark
        refine hprefix (List.isPrefixOf_iff_prefix.2 ?_)
        exact (List.isPrefixOf_iff_prefix.1 hmark).trans (List.prefix_append (c :: a) _)

theorem cut?_eq_none_of_not_infix (h : ¬ mark <:+: l) : cut? mark l = none := by
  cases hcut : cut? mark l with
  | none => rfl
  | some ab =>
    obtain ⟨rfl, -⟩ := cut?_eq_some hcut
    exact absurd ⟨ab.1, ab.2, by simp⟩ h

end MailSieve.Text

namespace MailSieve.Maildir

open Files Text

variable {part : Part} {id file : String} {letters : List Char}

/-- The mark after the identifier is the first one, since no mark can begin in another. -/
theorem cut?_infoMark {a b : List Char} (h : cut? infoMark a = none) :
    cut? infoMark (a ++ (infoMark ++ b)) = some (a, b) := by
  induction a with
  | nil => simp [cut?, infoMark]
  | cons c a ih =>
    rw [cut?] at h
    split at h
    · cases h
    · next hprefix =>
      have ha : cut? infoMark a = none := by simpa using h
      rw [List.cons_append, cut?, if_neg, ih ha]
      · rfl
      · intro hmark
        match a with
        | [] => simp [infoMark] at hmark
        | [d] => simp [infoMark] at hmark
        | d :: e :: a => exact hprefix (by simpa [infoMark] using hmark)

/-- A text is an identifier if no mark is in it. -/
def IsId (id : String) : Prop := cut? infoMark id.toList = none

theorem isId_ofName (part : Part) (file : String) : IsId (Entry.ofName part file).id := by
  unfold Entry.ofName
  split
  · next h => exact h
  · next h =>
    have hid := (cut?_eq_some h).2
    split <;> simpa [IsId] using hid

theorem file_ofName (part : Part) (file : String) : (Entry.ofName part file).file = file := by
  unfold Entry.ofName
  split
  · rfl
  · split <;> rfl

theorem part_ofName (part : Part) (file : String) : (Entry.ofName part file).part = part := by
  unfold Entry.ofName
  split
  · rfl
  · split <;> rfl

/-- The identifier and the flags are written in the name. -/
theorem ofName_within (part : Part) (file : String) :
    (Entry.ofName part file).id.toList <+: file.toList ∧
      ∀ c ∈ (Entry.ofName part file).flags.getD [], c ∈ file.toList := by
  unfold Entry.ofName
  split
  · exact ⟨List.prefix_refl _, by simp⟩
  · next id info hid =>
    have hfile := (cut?_eq_some hid).1
    rw [hfile]
    split
    · simp +contextual
    · next flags rest hflags =>
      rw [(cut?_eq_some hflags).1]
      simp +contextual

theorem ofName_id (h : IsId id) (part : Part) : Entry.ofName part id = ⟨part, id, id, none⟩ := by
  rw [Entry.ofName, h]

theorem insertSorted_ascending (c : Char) {l : List Char} (h : l.Pairwise (· < ·)) :
    (insertSorted c l).Pairwise (· < ·) := by
  induction l with
  | nil => simp [insertSorted]
  | cons d l ih =>
    obtain ⟨hd, hl⟩ := List.pairwise_cons.1 h
    rw [insertSorted]
    split
    · next hlt =>
      refine List.pairwise_cons.2 ⟨fun e he => ?_, h⟩
      obtain rfl | he := List.mem_cons.1 he
      · exact hlt
      · exact Char.lt_trans hlt (hd e he)
    split
    · exact h
    · next hlt hne =>
      refine List.pairwise_cons.2 ⟨fun e he => ?_, ih hl⟩
      obtain rfl | he := mem_insertSorted.1 he
      · exact Char.not_le.1 fun hle => hne (Char.le_antisymm hle (Char.not_lt.1 hlt))
      · exact hd e he

theorem sortUnique_ascending (letters : List Char) : (sortUnique letters).Pairwise (· < ·) := by
  have hfold (acc : List Char) (hacc : acc.Pairwise (· < ·)) :
      (letters.foldl (fun acc c => insertSorted c acc) acc).Pairwise (· < ·) := by
    induction letters generalizing acc with
    | nil => exact hacc
    | cons c cs ih => exact ih _ (insertSorted_ascending c hacc)
  exact hfold [] .nil

theorem sortUnique_congr {a b : List Char} (h : ∀ c, c ∈ a ↔ c ∈ b) : sortUnique a = sortUnique b :=
  (sortUnique_ascending a).eq_of_mem_iff (sortUnique_ascending b) fun c => by
    rw [mem_sortUnique, mem_sortUnique, h]

/-- No mark is in flags that ascend. -/
theorem cut?_sortUnique (letters : List Char) : cut? infoMark (sortUnique letters) = none := by
  apply cut?_eq_none_of_not_infix
  intro h
  have hpair := (sortUnique_ascending letters).sublist h.sublist
  simp [infoMark] at hpair

theorem ofName_flaggedName (h : IsId id) (part : Part) (letters : List Char) :
    Entry.ofName part (flaggedName id letters) =
      ⟨part, flaggedName id letters, id, some (sortUnique letters)⟩ := by
  have hlist : (flaggedName id letters).toList = id.toList ++ (infoMark ++ sortUnique letters) := by
    simp [flaggedName]
  rw [Entry.ofName, hlist, cut?_infoMark h]
  simp only [cut?_sortUnique, String.ofList_toList]

end MailSieve.Maildir
