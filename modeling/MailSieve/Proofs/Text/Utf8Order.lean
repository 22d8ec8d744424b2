import MailSieve.Proofs.Text.Utf8
import MailSieve.Text.Sorted

/-!
Texts are ordered as their UTF-8 bytes.
-/

namespace MailSieve.Text.Utf8

theorem byte_lt {m n : Nat} (hm : m < 256) (hn : n < 256) :
    UInt8.ofNat m < UInt8.ofNat n ↔ m < n := by
  rw [UInt8.lt_iff_toNat_lt, toNat_ofNat hm, toNat_ofNat hn]

theorem byte_inj {m n : Nat} (hm : m < 256) (hn : n < 256) :
    UInt8.ofNat m = UInt8.ofNat n ↔ m = n := by
  rw [← UInt8.toNat_inj, toNat_ofNat hm, toNat_ofNat hn]

/-- The classes of characters by the number of their bytes. -/
theorem encoding_cases (n : Nat) :
    n ≤ 0x7f ∨ (0x7f < n ∧ n ≤ 0x7ff) ∨ (0x7ff < n ∧ n ≤ 0xffff) ∨ 0xffff < n := by
  omega

/-- The bytes of a lesser character come first, whatever follows. -/
theorem encodeChar_lt {c d : Char} (h : c < d) (x y : Bytes) :
    String.utf8EncodeChar c ++ x < String.utf8EncodeChar d ++ y := by
  have hcd : c.toNat < d.toNat := h
  have hd : d.toNat < 0xd800 ∨ 0xdfff < d.toNat ∧ d.toNat < 0x110000 := d.valid
  unfold String.utf8EncodeChar
  simp only [show c.val.toNat = c.toNat from rfl, show d.val.toNat = d.toNat from rfl]
  generalize c.toNat = v at hcd
  generalize d.toNat = w at hcd hd
  have hv₂ : v / 4096 = v / 64 / 64 := (Nat.div_div_eq_div_mul v 64 64).symm
  have hw₂ : w / 4096 = w / 64 / 64 := (Nat.div_div_eq_div_mul w 64 64).symm
  have hv₃ : v / 262144 = v / 4096 / 64 := (Nat.div_div_eq_div_mul v 4096 64).symm
  have hw₃ : w / 262144 = w / 4096 / 64 := (Nat.div_div_eq_div_mul w 4096 64).symm
  have hv₄ : v / 262144 % 8 = v / 262144 := Nat.mod_eq_of_lt (by omega)
  have hw₄ : w / 262144 % 8 = w / 262144 := Nat.mod_eq_of_lt (by omega)
  rw [hv₄, hw₄]
  -- the first bytes differ if there is another number of them, else some six bits do
  rcases encoding_cases v with hv | hv | hv | hv <;> rcases encoding_cases w with hw | hw | hw | hw <;>
    first
    | omega
    | simp (disch := omega) only [if_pos, if_neg, List.cons_append, List.nil_append,
        List.cons_lt_cons_iff, byte_lt, byte_inj]
      omega

theorem flatMap_encodeChar_lt {cs ds : List Char} (h : cs < ds) :
    cs.flatMap String.utf8EncodeChar < ds.flatMap String.utf8EncodeChar := by
  induction cs generalizing ds with
  | nil =>
    cases ds with
    | nil => cases h
    | cons d ds =>
      obtain ⟨b, bs, hb, -⟩ := piece_encode d []
      rw [List.flatMap_cons, hb]
      exact List.nil_lt_cons _ _
  | cons c cs ih =>
    cases ds with
    | nil => cases h
    | cons d ds =>
      rw [List.flatMap_cons, List.flatMap_cons]
      obtain hcd | ⟨rfl, hrest⟩ := List.cons_lt_cons_iff.1 h
      · exact encodeChar_lt hcd _ _
      · exact List.append_left_lt (ih hrest)

/-- Texts are ordered as their bytes. -/
theorem ofString_lt {s t : String} : Bytes.ofString s < Bytes.ofString t ↔ s < t := by
  have hlt {s t : String} (h : s < t) : Bytes.ofString s < Bytes.ofString t := by
    rw [ofString_eq, ofString_eq]
    exact flatMap_encodeChar_lt (String.lt_iff.1 h)
  refine ⟨fun h => Decidable.byContradiction fun hst => ?_, hlt⟩
  by_cases heq : s = t
  · subst heq
    exact List.lt_irrefl _ h
  · exact List.lt_asymm h (hlt (lt_of_not_lt_of_ne hst heq))

end MailSieve.Text.Utf8
