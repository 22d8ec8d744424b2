import Mathlib
import MailSieve.Text.Lowercase

/-!
Lowercasing a part of a text. All but the capital sigma has one lowercase wherever it stands; a capital sigma
has one of two, so that a part may look different in the whole and alone.
-/

namespace MailSieve.Text

/-- Lowercases what stands between two texts, the first of which is given nearest character first. -/
def lowerBetween (before after : List Char) : List Char → List Char
  | [] => []
  | c :: r =>
    (if c = 'Σ' then [lowerSigma before (r ++ after)] else lowerChar c) ++
      lowerBetween (c :: before) after r

theorem lowerAfter_append (before s t : List Char) :
    lowerAfter before (s ++ t) = lowerBetween before t s ++ lowerAfter (s.reverse ++ before) t := by
  induction s generalizing before with
  | nil => rfl
  | cons c s ih => simp [lowerAfter, lowerBetween, ih]

/-- Each capital sigma of a text has the same form between two others as in the text alone. -/
def Stands (before after s : List Char) : Prop :=
  ∀ a b, s = a ++ 'Σ' :: b →
    lowerSigma (before ++ a).reverse (b ++ after) = lowerSigma a.reverse b

/-- What comes after `start` has the same lowercase with and without more around it, if its capital sigmas
have the same form. -/
theorem lowerBetween_eq_lowerAfter (before after start s : List Char) :
    lowerBetween (start ++ before) after s = lowerAfter start s ↔
      ∀ a b, s = a ++ 'Σ' :: b →
        lowerSigma (a.reverse ++ (start ++ before)) (b ++ after) = lowerSigma (a.reverse ++ start) b := by
  induction s generalizing start with
  | nil => simp [lowerBetween, lowerAfter]
  | cons c s ih =>
    have hcons := ih (c :: start)
    rw [List.cons_append] at hcons
    rw [lowerBetween, lowerAfter]
    by_cases hc : c = 'Σ'
    · subst hc
      rw [if_pos rfl, if_pos rfl, List.singleton_append, List.singleton_append, List.cons_eq_cons, hcons]
      constructor
      · rintro ⟨hhead, htail⟩ a b hab
        obtain ⟨rfl, ⟨⟩⟩ | ⟨a, rfl, hs⟩ := List.cons_eq_append_iff.1 hab
        · exact hhead
        · simpa using htail a b hs
      · intro h
        refine ⟨h [] s rfl, fun a b hs => ?_⟩
        simpa using h ('Σ' :: a) b (by rw [hs]; rfl)
    · rw [if_neg hc, if_neg hc, List.append_cancel_left_eq, hcons]
      constructor
      · intro h a b hab
        obtain ⟨rfl, hs⟩ | ⟨a, rfl, hs⟩ := List.cons_eq_append_iff.1 hab
        · cases hs
          exact absurd rfl hc
        · simpa using h a b hs
      · intro h a b hs
        simpa using h (c :: a) b (by rw [hs]; rfl)

/-- The lowercase of a text stands in that of a longer one where the text itself does, if and only if its
capital sigmas have the same form there. -/
theorem lowerBetween_eq_iff {before after s : List Char} :
    lowerBetween before.reverse after s = lowerAfter [] s ↔ Stands before after s := by
  have h := lowerBetween_eq_lowerAfter before.reverse after [] s
  rw [Stands]
  simpa only [List.nil_append, List.append_nil, ← List.reverse_append] using h

theorem stands_of_not_mem {before after s : List Char} (h : 'Σ' ∉ s) : Stands before after s := by
  rintro a b rfl
  simp at h

theorem lowercase_infix {s t : String} {before after : List Char}
    (ht : t.toList = before ++ s.toList ++ after) (h : Stands before after s.toList) :
    (lowercase s).toList <:+: (lowercase t).toList := by
  rw [lowercase, lowercase, String.toList_ofList, String.toList_ofList, ht, List.append_assoc,
    lowerAfter_append, lowerAfter_append, List.append_nil, lowerBetween_eq_iff.2 h]
  exact ⟨_, _, List.append_assoc ..⟩

theorem lowerAfter_of_ascii {s : List Char} (h : ∀ c ∈ s, c.toNat < 0x80) (before : List Char) :
    lowerAfter before s = s.map Char.toLower := by
  induction s generalizing before with
  | nil => rfl
  | cons c s ih =>
    obtain ⟨hc, hs⟩ := List.forall_mem_cons.1 h
    have hsigma : c ≠ 'Σ' := by
      rintro rfl
      exact absurd hc (by decide)
    rw [lowerAfter, if_neg hsigma, lowerChar, if_pos hc, ih hs]
    rfl

theorem lowercase_of_ascii {s : String} (h : ∀ c ∈ s.toList, c.toNat < 0x80) :
    lowercase s = asciiLower s := by
  rw [lowercase, lowerAfter_of_ascii h, asciiLower, ← String.toList_inj, String.toList_ofList,
    String.toList_map]

theorem sameName_iff {s t : String} :
    sameName s t = true ↔ s.toList.map Char.toLower = t.toList.map Char.toLower := by
  rw [sameName, beq_iff_eq, asciiLower, asciiLower, ← String.toList_inj, String.toList_map,
    String.toList_map]

/-- A name in ASCII is the same name in lowercase. -/
theorem sameName_lowercase {s : String} (h : ∀ c ∈ s.toList, c.toNat < 0x80) :
    sameName (lowercase s) s = true := by
  rw [lowercase_of_ascii h, sameName_iff, asciiLower, String.toList_map, List.map_map]
  refine List.map_congr_left fun c _ => ?_
  exact Char.toLower_toLower_eq_toLower c

theorem isUpper_iff {c : Char} : c.isUpper = true ↔ 0x41 ≤ c.toNat ∧ c.toNat ≤ 0x5a := by
  simp [Char.isUpper, UInt32.le_iff_toNat_le]

/-- What makes no difference between the capital letters of ASCII and the small ones makes none between a
character and its ASCII lowercase. -/
theorem apply_toLower {f : Char → α}
    (h : ∀ n : Fin 26, f (Char.ofNat (0x41 + n)).toLower = f (Char.ofNat (0x41 + n))) (c : Char) :
    f c.toLower = f c := by
  by_cases hc : c.isUpper
  · obtain ⟨hlow, hhigh⟩ := isUpper_iff.1 hc
    have hn := h ⟨c.toNat - 0x41, by omega⟩
    rwa [Nat.add_sub_cancel' hlow, Char.ofNat_toNat] at hn
  · rw [Char.toLower_eq_of_not_isUpper hc]

theorem isCased_toLower (c : Char) : isCased c.toLower = isCased c :=
  apply_toLower (by decide +kernel) c

theorem isCaseIgnorable_toLower (c : Char) : isCaseIgnorable c.toLower = isCaseIgnorable c :=
  apply_toLower (by decide +kernel) c

theorem lowerChar_toLower (c : Char) : lowerChar c.toLower = lowerChar c :=
  apply_toLower (by decide +kernel) c

theorem toLower_eq_sigma {c : Char} : c.toLower = 'Σ' ↔ c = 'Σ' :=
  decide_eq_decide.1 (apply_toLower (f := fun c => decide (c = 'Σ')) (by decide +kernel) c)

theorem leadsCased_map_toLower (cs : List Char) :
    leadsCased (cs.map Char.toLower) = leadsCased cs := by
  have hignorable : isCaseIgnorable ∘ Char.toLower = isCaseIgnorable := funext isCaseIgnorable_toLower
  rw [leadsCased, leadsCased, List.dropWhile_map, hignorable, List.head?_map, Option.any_map]
  exact congrArg (Option.any · _) (funext isCased_toLower)

theorem lowerAfter_map_toLower (before s : List Char) :
    lowerAfter (before.map Char.toLower) (s.map Char.toLower) = lowerAfter before s := by
  induction s generalizing before with
  | nil => rfl
  | cons c s ih =>
    have hrest := ih (c :: before)
    rw [List.map_cons] at hrest
    rw [List.map_cons, lowerAfter, lowerAfter, hrest]
    simp only [toLower_eq_sigma, lowerSigma, leadsCased_map_toLower, lowerChar_toLower]

/-- The case of the ASCII letters in a text makes no difference to its lowercase, nor to that of a sigma
that stands next to one of them. -/
theorem lowercase_asciiLower (s : String) : lowercase (asciiLower s) = lowercase s := by
  rw [lowercase, lowercase, asciiLower, String.toList_map]
  exact congrArg String.ofList (lowerAfter_map_toLower [] s.toList)

theorem asciiLower_append (s t : String) : asciiLower (s ++ t) = asciiLower s ++ asciiLower t := by
  rw [asciiLower, asciiLower, asciiLower, ← String.toList_inj]
  simp

theorem asciiLower_asciiLower (s : String) : asciiLower (asciiLower s) = asciiLower s := by
  rw [asciiLower, asciiLower, ← String.toList_inj]
  simp

theorem asciiLower_inj {s t : String} :
    asciiLower s = asciiLower t ↔ s.toList.map Char.toLower = t.toList.map Char.toLower := by
  rw [← sameName_iff, sameName, beq_iff_eq]

end MailSieve.Text
