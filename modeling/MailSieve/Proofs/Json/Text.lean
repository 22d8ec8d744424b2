import MailSieve.Json.Skip

/-!
Strings as they are written are read as what was written.
-/

namespace MailSieve.Json

theorem letterMeaning?_of_lookup {c e : Char} (h : letterEscapes.lookup c = some e) :
    e ≠ 'u' ∧ letterMeaning? e = some c := by
  have hmem : ∀ p ∈ letterEscapes, p.2 ≠ 'u' ∧ letterMeaning? p.2 = some p.1 := by decide
  obtain ⟨l, r, hl, -⟩ := List.lookup_eq_some_iff.1 h
  exact hmem (c, e) (by rw [hl]; simp)

theorem hexValue?_hexDigit {n : Nat} (h : n < 16) : hexValue? (hexDigit n) = some n := by
  have hall : ∀ n : Fin 16, hexValue? (hexDigit n) = some n.1 := by decide
  exact hall ⟨n, h⟩

theorem hexNumber?_control {n : Nat} (h : n < 0x20) :
    hexNumber? '0' '0' (hexDigit (n / 16)) (hexDigit (n % 16)) = some n := by
  have hzero : hexValue? '0' = some 0 := by decide
  simp only [hexNumber?, hzero, hexValue?_hexDigit (show n / 16 < 16 by omega),
    hexValue?_hexDigit (show n % 16 < 16 by omega)]
  congr 1
  omega

theorem readHex_eq {a b c d : Char} {n : Nat} (h : hexNumber? a b c d = some n) (r : List Char) :
    ∃ lt, readHex (a :: b :: c :: d :: r) = .ok ⟨n, r, lt⟩ := by
  refine ⟨by simp only [List.length_cons]; omega, ?_⟩
  rw [readHex]
  split
  · next m hm =>
    rw [h] at hm
    cases hm
    rfl
  · next hm => rw [h] at hm; cases hm

theorem readEscape_control {c : Char} (h : c.toNat < 0x20) (s : List Char) :
    ∃ lt, readEscape ('u' :: '0' :: '0' :: hexDigit (c.toNat / 16) :: hexDigit (c.toNat % 16) :: s) =
      .ok ⟨c, s, lt⟩ := by
  have ht : isTrailing c.toNat = false := by simp [isTrailing]; omega
  have hl : isLeading c.toNat = false := by simp [isLeading]; omega
  cases readHex_eq (hexNumber?_control h) s with
  | intro lt hr =>
    refine ⟨Nat.lt_succ_of_lt lt, ?_⟩
    rw [readEscape, if_pos rfl, readCodePoint, hr]
    simp only [bind, Except.bind, pure, Except.pure, ht, hl, Char.ofNat_toNat, Bool.false_eq_true,
      if_false]

theorem readEscape_letter {c e : Char} (h : letterEscapes.lookup c = some e) (s : List Char) :
    readEscape (e :: s) = .ok ⟨c, s, length_lt_cons e s⟩ := by
  have he := letterMeaning?_of_lookup h
  rw [readEscape, if_neg he.1]
  split
  · next m hm =>
    rw [he.2] at hm
    cases hm
    rfl
  · next hm => rw [he.2] at hm; cases hm

/-- What is read of an escape, and then of the string after it. -/
theorem readString_backslash {c : Char} {s t r u : List Char} {lt : u.length < s.length}
    {lt' : r.length < u.length} (he : readEscape s = .ok ⟨c, u, lt⟩)
    (h : readString u = .ok ⟨t, r, lt'⟩) :
    ∃ lt, readString ('\\' :: s) = .ok ⟨c :: t, r, lt⟩ := by
  refine ⟨by simp only [List.length_cons]; omega, ?_⟩
  rw [readString, if_neg (by decide), if_pos rfl, he]
  simp only [bind, Except.bind, h]
  rfl

theorem readString_plain {c : Char} {s t r : List Char} {lt : r.length < s.length} (hq : c ≠ '"')
    (hb : c ≠ '\\') (hlow : ¬ c.toNat < 0x20) (h : readString s = .ok ⟨t, r, lt⟩) :
    ∃ lt, readString (c :: s) = .ok ⟨c :: t, r, lt⟩ := by
  refine ⟨Nat.lt_succ_of_lt lt, ?_⟩
  rw [readString, if_neg hq, if_neg hb, if_neg hlow, h]
  rfl

/-- A character is read back from its form within a string. -/
theorem readString_escape {c : Char} {s t r : List Char} {lt : r.length < s.length}
    (h : readString s = .ok ⟨t, r, lt⟩) :
    ∃ lt, readString (escape c ++ s) = .ok ⟨c :: t, r, lt⟩ := by
  cases hc : letterEscapes.lookup c with
  | some e =>
    have he : escape c = ['\\', e] := by simp only [escape, hc]
    rw [he]
    exact readString_backslash (readEscape_letter hc s) h
  | none =>
    by_cases hlow : c.toNat < 0x20
    · have he : escape c =
          ['\\', 'u', '0', '0', hexDigit (c.toNat / 16), hexDigit (c.toNat % 16)] := by
        simp only [escape, hc, if_pos hlow]
      rw [he]
      cases readEscape_control hlow s with
      | intro lt' hr => exact readString_backslash hr h
    · have he : escape c = [c] := by simp only [escape, hc, if_neg hlow]
      rw [he]
      apply readString_plain _ _ hlow h
      · intro e
        rw [e] at hc
        exact absurd hc (by decide)
      · intro e
        rw [e] at hc
        exact absurd hc (by decide)

theorem readString_quoted (cs r : List Char) :
    ∃ lt, readString (cs.flatMap escape ++ '"' :: r) = .ok ⟨cs, r, lt⟩ := by
  induction cs with
  | nil =>
    refine ⟨length_lt_cons _ _, ?_⟩
    change readString ('"' :: r) = _
    rw [readString, if_pos rfl]
  | cons c cs ih =>
    cases ih with
    | intro lt ih =>
      rw [List.flatMap_cons, List.append_assoc]
      exact readString_escape ih

end MailSieve.Json
