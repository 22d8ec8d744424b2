import MailSieve.Text.Utf8

/-!
The bytes of a text are read as the text.
-/

namespace MailSieve.Text.Utf8

theorem toNat_ofNat {n : Nat} (h : n < 256) : (UInt8.ofNat n).toNat = n := by
  rw [UInt8.toNat_ofNat']
  omega

theorem ofNat_lt {n : Nat} (h : n < 256) {b : UInt8} : UInt8.ofNat n < b ↔ n < b.toNat := by
  rw [UInt8.lt_iff_toNat_lt, toNat_ofNat h]

/-- A bound on a byte that depends on the byte before it. -/
theorem toNat_bound {n : Nat} (h : n < 256) (b x y : UInt8) :
    (if UInt8.ofNat n == b then x else y).toNat = if n = b.toNat then x.toNat else y.toNat := by
  have hb : (UInt8.ofNat n == b) = decide (n = b.toNat) := by
    rw [Bool.eq_iff_iff, beq_iff_eq, decide_eq_true_eq, ← UInt8.toNat_inj, toNat_ofNat h]
  rw [hb]
  by_cases hn : n = b.toNat <;> simp [hn]

/-- Six more bits of a character. -/
theorem continuation_cons {lo hi : UInt8} {k acc m : Nat} {r : Bytes} (hm : m < 64)
    (hlo : lo.toNat ≤ m + 0x80) (hhi : m + 0x80 ≤ hi.toNat) :
    continuation lo hi (k + 1) acc (UInt8.ofNat (m + 0x80) :: r) =
      continuation 0x80 0xbf k (acc * 64 + m) r := by
  have hn : (UInt8.ofNat (m + 0x80)).toNat = m + 0x80 := toNat_ofNat (by omega)
  have hle : (lo ≤ UInt8.ofNat (m + 0x80) && UInt8.ofNat (m + 0x80) ≤ hi) = true := by
    simp only [UInt8.le_iff_toNat_le, hn, Bool.and_eq_true, decide_eq_true_eq]
    exact ⟨hlo, hhi⟩
  rw [continuation, if_pos hle, hn, Nat.add_sub_cancel]

theorem piece_one {v : Nat} (h : v < 0x80) (r : Bytes) : piece (UInt8.ofNat v) r = (some v, r) := by
  rw [piece, if_pos ((ofNat_lt (by omega)).2 h), toNat_ofNat (by omega)]

theorem piece_two {v : Nat} (h : 0x80 ≤ v) (h' : v < 0x800) (r : Bytes) :
    piece (UInt8.ofNat (v / 64 % 32 + 0xc0)) (UInt8.ofNat (v % 64 + 0x80) :: r) = (some v, r) := by
  have hb : v / 64 % 32 + 0xc0 < 256 := by omega
  simp only [piece, ofNat_lt hb, toNat_ofNat hb, UInt8.reduceToNat]
  rw [if_neg (by omega), if_neg (by omega), if_pos (by omega), Nat.add_sub_cancel,
    continuation_cons (by omega) (by simp) (by simp; omega), continuation]
  simp only [Prod.mk.injEq, Option.some.injEq, and_true]
  omega

theorem piece_three {v : Nat} (h : 0x800 ≤ v) (h' : v < 0xd800 ∨ 0xdfff < v ∧ v < 0x10000)
    (r : Bytes) :
    piece (UInt8.ofNat (v / 4096 % 16 + 0xe0)) (UInt8.ofNat (v / 64 % 64 + 0x80) ::
      UInt8.ofNat (v % 64 + 0x80) :: r) = (some v, r) := by
  have hb : v / 4096 % 16 + 0xe0 < 256 := by omega
  simp only [piece, ofNat_lt hb, toNat_ofNat hb, UInt8.reduceToNat]
  rw [if_neg (by omega), if_neg (by omega), if_neg (by omega), if_pos (by omega),
    Nat.add_sub_cancel, continuation_cons (by omega), continuation_cons (by omega), continuation]
  · simp only [Prod.mk.injEq, Option.some.injEq, and_true]
    omega
  · simp
  · simp
    omega
  · rw [toNat_bound hb]
    simp only [UInt8.reduceToNat]
    split <;> omega
  · rw [toNat_bound hb]
    simp only [UInt8.reduceToNat]
    split <;> omega

theorem piece_four {v : Nat} (h : 0x10000 ≤ v) (h' : v < 0x110000) (r : Bytes) :
    piece (UInt8.ofNat (v / 262144 % 8 + 0xf0)) (UInt8.ofNat (v / 4096 % 64 + 0x80) ::
      UInt8.ofNat (v / 64 % 64 + 0x80) :: UInt8.ofNat (v % 64 + 0x80) :: r) = (some v, r) := by
  have hb : v / 262144 % 8 + 0xf0 < 256 := by omega
  simp only [piece, ofNat_lt hb, toNat_ofNat hb, UInt8.reduceToNat]
  rw [if_neg (by omega), if_neg (by omega), if_neg (by omega), if_neg (by omega),
    if_pos (by omega), Nat.add_sub_cancel, continuation_cons (by omega),
    continuation_cons (by omega), continuation_cons (by omega), continuation]
  · simp only [Prod.mk.injEq, Option.some.injEq, and_true]
    omega
  · simp
  · simp
    omega
  · simp
  · simp
    omega
  · rw [toNat_bound hb]
    simp only [UInt8.reduceToNat]
    split <;> omega
  · rw [toNat_bound hb]
    simp only [UInt8.reduceToNat]
    split <;> omega

/-- The first piece of the bytes of a character is the character. -/
theorem piece_encode (c : Char) (r : Bytes) :
    ∃ b bs, String.utf8EncodeChar c = b :: bs ∧ piece b (bs ++ r) = (some c.toNat, r) := by
  have hc : c.toNat < 0xd800 ∨ 0xdfff < c.toNat ∧ c.toNat < 0x110000 := c.valid
  unfold String.utf8EncodeChar
  simp only [show c.val.toNat = c.toNat from rfl]
  split
  · exact ⟨_, _, rfl, piece_one (v := c.toNat) (by omega) r⟩
  · split
    · exact ⟨_, _, rfl, piece_two (v := c.toNat) (by omega) (by omega) r⟩
    · split
      · exact ⟨_, _, rfl, piece_three (v := c.toNat) (by omega) (by omega) r⟩
      · exact ⟨_, _, rfl, piece_four (v := c.toNat) (by omega) (by omega) r⟩

theorem pieces_encode (cs : List Char) : pieces (cs.flatMap String.utf8EncodeChar) = cs.map some := by
  induction cs with
  | nil => rw [List.flatMap_nil, pieces, List.map_nil]
  | cons c cs ih =>
    obtain ⟨b, bs, hb, hp⟩ := piece_encode c (cs.flatMap String.utf8EncodeChar)
    rw [List.flatMap_cons, hb, List.cons_append, pieces, hp, ih, List.map_cons, Option.map_some,
      Char.ofNat_toNat]

theorem ofString_eq (s : String) : Bytes.ofString s = s.toList.flatMap String.utf8EncodeChar := by
  have h : s.toByteArray = (s.toList.flatMap String.utf8EncodeChar).toByteArray :=
    String.utf8Encode_toList.symm
  rw [Bytes.ofString, String.toUTF8_eq_toByteArray, h, List.toList_data_toByteArray]

theorem decode?_ofString (s : String) : decode? (Bytes.ofString s) = some s := by
  have hmap : (s.toList.map some).mapM id = some s.toList := by
    induction s.toList with
    | nil => rfl
    | cons c cs ih => simp [List.mapM_cons, ih]
  rw [decode?, ofString_eq, pieces_encode, hmap, Option.map_some,
    String.ofList_toList]

end MailSieve.Text.Utf8
