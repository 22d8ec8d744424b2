import MailSieve.Proofs.Text.Lowercase

/-!
Texts whose lowercase is that of ASCII: those without a capital letter beyond it.
-/

namespace MailSieve.Text

/-- A text whose only capital letters are those of ASCII. -/
def IsPlain (s : String) : Prop := ∀ c ∈ s.toList, 0x80 ≤ c.toNat → lowerChar c = [c]

theorem toLower_of_not_ascii {c : Char} (h : 0x80 ≤ c.toNat) : c.toLower = c := by
  refine Char.toLower_eq_of_not_isUpper fun hupper => ?_
  have hle := (isUpper_iff.1 hupper).2
  omega

theorem isPlain_iff {s : String} : IsPlain s ↔ ∀ c ∈ s.toList, lowerChar c = [c.toLower] := by
  refine forall₂_congr fun c _ => ?_
  by_cases hc : c.toNat < 0x80
  · simp [lowerChar, hc]
  · rw [toLower_of_not_ascii (by omega)]
    exact forall_prop_of_true (by omega)

theorem lowerChar_cases (c : Char) : c = '\u0130' ∨ ∃ d, lowerChar c = [d] := by
  unfold lowerChar
  split
  · exact .inr ⟨_, rfl⟩
  · split
    · next h => exact .inl h
    · split
      · exact .inr ⟨_, rfl⟩
      · exact .inr ⟨_, rfl⟩

theorem lowerAfter_eq_map_iff (before s : List Char) :
    lowerAfter before s = s.map Char.toLower ↔ ∀ c ∈ s, lowerChar c = [c.toLower] := by
  induction s generalizing before with
  | nil => simp [lowerAfter]
  | cons c s ih =>
    rw [lowerAfter, List.map_cons, List.forall_mem_cons, ← ih (c :: before)]
    by_cases hsigma : c = 'Σ'
    · subst hsigma
      have hlower : lowerChar 'Σ' ≠ [Char.toLower 'Σ'] := by decide +kernel
      refine iff_of_false (fun h => ?_) (fun h => hlower h.1)
      have hhead := (List.cons.inj h).1
      rw [lowerSigma] at hhead
      split at hhead <;> exact absurd hhead (by decide)
    · rw [if_neg hsigma]
      obtain rfl | ⟨d, hd⟩ := lowerChar_cases c
      · have hlower : lowerChar '\u0130' = ['i', '\u0307'] := by decide +kernel
        rw [hlower]
        refine iff_of_false (fun h => ?_) (fun h => ?_)
        · exact absurd (List.cons.inj h).1 (by decide)
        · exact absurd h.1 (by decide)
      · rw [hd, List.singleton_append, List.cons_eq_cons, List.cons_eq_cons]
        simp

theorem lowercase_eq_asciiLower_iff {s : String} : lowercase s = asciiLower s ↔ IsPlain s := by
  rw [isPlain_iff, ← lowerAfter_eq_map_iff [], lowercase, asciiLower, ← String.toList_inj,
    String.toList_ofList, String.toList_map]

instance (s : String) : Decidable (IsPlain s) :=
  decidable_of_iff (lowerAfter [] s.toList = s.toList.map Char.toLower)
    ((lowerAfter_eq_map_iff [] s.toList).trans isPlain_iff.symm)

theorem toLower_ofNat {n : Nat} (h : 0x5b ≤ n) : (Char.ofNat n).toLower = Char.ofNat n := by
  refine Char.toLower_eq_of_not_isUpper fun hupper => ?_
  have hbounds := isUpper_iff.1 hupper
  rw [Char.toNat_ofNat] at hbounds
  split at hbounds <;> omega

/-- The images of the lowercase mappings are beyond the capital letters of ASCII. -/
theorem lt_image_of_mem_lowerRuns : ∀ r ∈ lowerRuns, 0x5b ≤ r.2.2.2 := by
  decide +kernel

theorem toLower_of_mem_lowerChar {c d : Char} (h : d ∈ lowerChar c) : d.toLower = d := by
  unfold lowerChar at h
  split at h
  · cases List.mem_singleton.1 h
    exact Char.toLower_toLower_eq_toLower c
  · next hascii =>
    split at h
    · simp only [List.mem_cons, List.not_mem_nil, or_false] at h
      obtain rfl | rfl := h <;> rfl
    · split at h
      · next r hr =>
        cases List.mem_singleton.1 h
        have hr := lt_image_of_mem_lowerRuns r (List.mem_of_find?_eq_some hr)
        exact toLower_ofNat (Nat.le_add_right_of_le hr)
      · cases List.mem_singleton.1 h
        exact toLower_of_not_ascii (by omega)

/-- No capital letters of ASCII are left. -/
theorem map_toLower_lowerAfter (before s : List Char) :
    (lowerAfter before s).map Char.toLower = lowerAfter before s := by
  induction s generalizing before with
  | nil => rfl
  | cons c s ih =>
    rw [lowerAfter, List.map_append, ih]
    congr 1
    split
    · rw [lowerSigma]
      split <;> rfl
    · exact (List.map_congr_left fun d hd => toLower_of_mem_lowerChar hd).trans (List.map_id _)

theorem asciiLower_lowercase (s : String) : asciiLower (lowercase s) = lowercase s := by
  rw [lowercase, asciiLower, ← String.toList_inj, String.toList_map, String.toList_ofList,
    map_toLower_lowerAfter]

theorem sameName_lowercase_iff {s : String} : sameName (lowercase s) s = true ↔ IsPlain s := by
  rw [← lowercase_eq_asciiLower_iff, sameName, asciiLower_lowercase, beq_iff_eq]

end MailSieve.Text
