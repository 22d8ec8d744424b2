import MailSieve.Proofs.Script.Lexing

/-!
Strings by their quotation marks: which one closes a string, counted by the backslashes before it, and
what the text up to it says.
-/

namespace MailSieve.Script

/-- What follows this text is escaped: an odd number of backslashes stands right before it. -/
def Escapes (x : List Char) : Prop := (x.reverse.takeWhile (· = '\\')).length % 2 = 1

/-- Each quotation mark is escaped. -/
def Unclosed (r : List Char) : Prop := ∀ x s, r = x ++ '"' :: s → Escapes x

/-- What may stand within quotation marks: no mark in it closes the string, and one after it does. -/
structure IsBody (b : List Char) : Prop where
  unclosed : Unclosed b
  not_escapes : ¬ Escapes b

/-- Backslashes and quotation marks lose the backslash before them, any other backslash is dropped. -/
def unescape : List Char → List Char
  | [] => []
  | '\\' :: '\\' :: r => '\\' :: unescape r
  | '\\' :: '"' :: r => '"' :: unescape r
  | '\\' :: r => unescape r
  | c :: r => c :: unescape r

theorem not_escapes_nil : ¬ Escapes [] := by simp [Escapes]

theorem escapes_append_cons {d : Char} (hd : d ≠ '\\') (y x : List Char) :
    Escapes (y ++ d :: x) ↔ Escapes x := by
  have hrun : (x.reverse ++ d :: y.reverse).takeWhile (· = '\\') =
      x.reverse.takeWhile (· = '\\') := by
    rw [List.takeWhile_append]
    split
    · next h =>
      have hx := (List.takeWhile_prefix (· = '\\') (l := x.reverse)).eq_of_length h
      rw [List.takeWhile_cons_of_neg (by simpa using hd), List.append_nil, hx]
    · rfl
  simp only [Escapes, List.reverse_append, List.reverse_cons, List.append_assoc,
    List.singleton_append, hrun]

theorem escapes_cons {c : Char} (hc : c ≠ '\\') (x : List Char) : Escapes (c :: x) ↔ Escapes x :=
  escapes_append_cons hc [] x

/-- A backslash and what it stands before are as good as nothing. -/
theorem escapes_pair (c : Char) (x : List Char) : Escapes ('\\' :: c :: x) ↔ Escapes x := by
  by_cases hc : c = '\\'
  · subst hc
    simp only [Escapes, List.reverse_cons, List.append_assoc, List.singleton_append]
    rw [List.takeWhile_append]
    split
    · next h => simp [h, Nat.add_mod_right]
    · rfl
  · exact escapes_append_cons hc ['\\'] x

theorem unclosed_nil : Unclosed [] := by
  intro x s h
  simp at h

theorem unclosed_cons_iff {c : Char} {r : List Char} :
    Unclosed (c :: r) ↔ c ≠ '"' ∧ ∀ x s, r = x ++ '"' :: s → Escapes (c :: x) := by
  constructor
  · intro h
    refine ⟨fun hc => not_escapes_nil (h [] r (by rw [hc]; rfl)), fun x s hr => h (c :: x) s ?_⟩
    rw [hr, List.cons_append]
  · rintro ⟨hc, h⟩ x s hr
    cases x with
    | nil => exact absurd (List.cons.inj hr).1 hc
    | cons d x =>
      obtain ⟨rfl, hr'⟩ := List.cons.inj hr
      exact h x s hr'

theorem unclosed_cons {c : Char} (hq : c ≠ '"') (hb : c ≠ '\\') {r : List Char} :
    Unclosed (c :: r) ↔ Unclosed r := by
  rw [unclosed_cons_iff]
  simp only [escapes_cons hb, Unclosed]
  exact and_iff_right hq

theorem unclosed_pair {c : Char} {r : List Char} : Unclosed ('\\' :: c :: r) ↔ Unclosed r := by
  rw [unclosed_cons_iff]
  constructor
  · rintro ⟨-, h⟩ x s hr
    exact (escapes_pair c x).1 (h (c :: x) s (by rw [hr, List.cons_append]))
  · refine fun h => ⟨by decide, fun x s hr => ?_⟩
    cases x with
    | nil => simp [Escapes]
    | cons d x =>
      obtain ⟨rfl, hr'⟩ := List.cons.inj hr
      exact (escapes_pair c x).2 (h x s hr')

theorem isBody_nil : IsBody [] := ⟨unclosed_nil, not_escapes_nil⟩

theorem isBody_cons {c : Char} (hq : c ≠ '"') (hb : c ≠ '\\') {b : List Char} :
    IsBody (c :: b) ↔ IsBody b :=
  ⟨fun h => ⟨(unclosed_cons hq hb).1 h.1, fun he => h.2 ((escapes_cons hb b).2 he)⟩,
    fun h => ⟨(unclosed_cons hq hb).2 h.1, fun he => h.2 ((escapes_cons hb b).1 he)⟩⟩

theorem isBody_pair {c : Char} {b : List Char} : IsBody ('\\' :: c :: b) ↔ IsBody b :=
  ⟨fun h => ⟨unclosed_pair.1 h.1, fun he => h.2 ((escapes_pair c b).2 he)⟩,
    fun h => ⟨unclosed_pair.2 h.1, fun he => h.2 ((escapes_pair c b).1 he)⟩⟩

/-- A backslash alone leaves the string open. -/
theorem not_isBody_backslash : ¬ IsBody ['\\'] := fun h => h.2 (by simp [Escapes])

theorem not_isBody_quote (b : List Char) : ¬ IsBody ('"' :: b) :=
  fun h => (unclosed_cons_iff.1 h.1).1 rfl

theorem unescape_cons {c : Char} (hb : c ≠ '\\') (r : List Char) :
    unescape (c :: r) = c :: unescape r := by
  rw [unescape.eq_def]
  split <;> simp_all

theorem unescape_dropped {c : Char} (hq : c ≠ '"') (hb : c ≠ '\\') (r : List Char) :
    unescape ('\\' :: c :: r) = unescape (c :: r) := by
  rw [unescape] <;> simp [hq, hb]

theorem isBody_of_readString {r a s : List Char} (h : readString r = some (a, s)) :
    ∃ b, r = b ++ '"' :: s ∧ IsBody b ∧ a = unescape b := by
  fun_induction readString r generalizing a s with
  | case1 => simp at h
  | case2 r =>
    cases h
    exact ⟨[], rfl, isBody_nil, rfl⟩
  | case3 r ih | case4 r ih =>
    obtain ⟨⟨a, s⟩, hr, e⟩ := Option.map_eq_some_iff.1 h
    cases e
    obtain ⟨b, rfl, hb, rfl⟩ := ih hr
    exact ⟨_ :: _ :: b, rfl, isBody_pair.2 hb, rfl⟩
  | case5 r hb hq ih =>
    obtain ⟨b, rfl, hbody, rfl⟩ := ih h
    cases b with
    | nil => exact absurd rfl (hq s)
    | cons c b =>
      have hb : c ≠ '\\' := fun e => hb _ (by rw [e]; rfl)
      have hq : c ≠ '"' := fun e => hq _ (by rw [e]; rfl)
      exact ⟨'\\' :: c :: b, rfl, isBody_pair.2 ((isBody_cons hq hb).1 hbody),
        (unescape_dropped hq hb b).symm⟩
  | case6 c r hq _ _ hb ih =>
    obtain ⟨⟨a, s⟩, hr, e⟩ := Option.map_eq_some_iff.1 h
    cases e
    obtain ⟨b, rfl, hbody, rfl⟩ := ih hr
    exact ⟨c :: b, rfl, (isBody_cons hq hb).2 hbody, (unescape_cons hb b).symm⟩

theorem readString_of_isBody {b : List Char} (h : IsBody b) (s : List Char) :
    readString (b ++ '"' :: s) = some (unescape b, s) := by
  fun_induction unescape b with
  | case1 => simp [readString]
  | case2 r ih | case3 r ih => simp [readString, ih (isBody_pair.1 h)]
  | case4 r hb hq ih =>
    cases r with
    | nil => exact absurd h not_isBody_backslash
    | cons c r =>
      have hb : c ≠ '\\' := fun e => hb _ (by rw [e])
      have hq : c ≠ '"' := fun e => hq _ (by rw [e])
      rw [List.cons_append, List.cons_append, readString_dropped hq hb]
      exact ih ((isBody_cons hq hb).2 (isBody_pair.1 h))
  | case5 c r _ _ hb ih =>
    have hq : c ≠ '"' := fun e => not_isBody_quote r (e ▸ h)
    rw [List.cons_append, readString_cons hq hb, ih ((isBody_cons hq hb).1 h)]
    rfl

/-- A string ends at its first quotation mark that is not escaped. -/
theorem readString_eq_some {r a s : List Char} :
    readString r = some (a, s) ↔ ∃ b, r = b ++ '"' :: s ∧ IsBody b ∧ a = unescape b := by
  constructor
  · exact isBody_of_readString
  · rintro ⟨b, rfl, hb, rfl⟩
    exact readString_of_isBody hb s

theorem readString_eq_none {r : List Char} : readString r = none ↔ Unclosed r := by
  fun_induction readString r with
  | case1 => simp [unclosed_nil]
  | case2 r => simp [unclosed_cons_iff]
  | case3 r ih | case4 r ih => rw [Option.map_eq_none_iff, ih, unclosed_pair]
  | case5 r hb hq ih =>
    rw [ih]
    cases r with
    | nil => simp [unclosed_cons_iff, unclosed_nil]
    | cons c r =>
      have hb : c ≠ '\\' := fun e => hb _ (by rw [e])
      have hq : c ≠ '"' := fun e => hq _ (by rw [e])
      rw [unclosed_pair, unclosed_cons hq hb]
  | case6 c r hq _ _ hb ih => rw [Option.map_eq_none_iff, ih, unclosed_cons hq hb]

end MailSieve.Script
