import MailSieve.Text.ModifiedUtf7

/-!
What characters modified UTF-7 writes: no control characters, no slash that it was not given, and nothing
for nothing alone.
-/

namespace MailSieve.Text.ModifiedUtf7

theorem digit_of_le {n : Nat} (h : 63 ≤ n) : Base64.digit ',' n = ',' := by
  unfold Base64.digit
  grind

/-- A property of the digits holds of every one of them if it holds of the first 64. -/
theorem forall_digit {P : Char → Prop} (h : ∀ n < 64, P (Base64.digit ',' n)) (n : Nat) :
    P (Base64.digit ',' n) := by
  by_cases hn : n < 64
  · exact h n hn
  · have hlast := h 63 (by decide)
    rw [digit_of_le (by omega)] at hlast ⊢
    exact hlast

theorem isDirect_digit (n : Nat) :
    isDirect (Base64.digit ',' n) = true ∧ Base64.digit ',' n ≠ '/' :=
  forall_digit (P := fun c => isDirect c = true ∧ c ≠ '/') (by decide) n

/-- A run starts with an ampersand, unless it is empty. -/
theorem encodeRun_of_ne_nil {run : List Char} (h : run ≠ []) :
    ∃ cs, encodeRun run = '&' :: cs := by
  refine ⟨(Base64.sextets (utf16 run)).map (Base64.digit ',') ++ ['-'], ?_⟩
  simp [encodeRun, h]

theorem mem_encodeRun {run : List Char} {c : Char} (h : c ∈ encodeRun run) :
    isDirect c = true ∧ c ≠ '/' := by
  unfold encodeRun at h
  split at h
  · cases h
  · simp only [List.mem_cons, List.mem_append, List.mem_map, List.not_mem_nil, or_false] at h
    obtain rfl | ⟨n, -, rfl⟩ | rfl := h
    · decide
    · exact isDirect_digit n
    · decide

theorem mem_encodeDirect {c d : Char} (hd : isDirect d = true) (h : c ∈ encodeDirect d) :
    isDirect c = true ∧ (c = '/' → d = '/') := by
  unfold encodeDirect at h
  split at h
  · simp only [List.mem_cons, List.not_mem_nil, or_false] at h
    obtain rfl | rfl := h <;> simp [isDirect]
  · cases List.mem_singleton.1 h
    exact ⟨hd, id⟩

/-- Only direct characters are written, and a slash only for a slash. -/
theorem mem_encodeAfter {run cs : List Char} {c : Char} (h : c ∈ encodeAfter run cs) :
    isDirect c = true ∧ (c = '/' → '/' ∈ cs) := by
  induction cs generalizing run with
  | nil => exact ⟨(mem_encodeRun h).1, fun hc => absurd hc (mem_encodeRun h).2⟩
  | cons d cs ih =>
    rw [encodeAfter] at h
    split at h
    · next hd =>
      rw [List.mem_append, List.mem_append] at h
      obtain h | h | h := h
      · exact ⟨(mem_encodeRun h).1, fun hc => absurd hc (mem_encodeRun h).2⟩
      · obtain ⟨hdirect, hslash⟩ := mem_encodeDirect hd h
        exact ⟨hdirect, fun hc => by simp [hslash hc]⟩
      · exact ⟨(ih h).1, fun hc => .tail _ ((ih h).2 hc)⟩
    · exact ⟨(ih h).1, fun hc => .tail _ ((ih h).2 hc)⟩

theorem encodeAfter_of_ne_nil {run : List Char} (h : run ≠ []) (cs : List Char) :
    ∃ ds, encodeAfter run cs = '&' :: ds := by
  induction cs generalizing run with
  | nil => exact encodeRun_of_ne_nil h
  | cons c cs ih =>
    rw [encodeAfter]
    split
    · obtain ⟨ds, hds⟩ := encodeRun_of_ne_nil h
      exact ⟨_, by rw [hds, List.cons_append]⟩
    · exact ih (by simp)

/-- What is written for a text that is not empty starts with its first character, or with an ampersand
if that is one or is indirect. -/
theorem encodeAfter_cons (c : Char) (cs : List Char) :
    ((isDirect c → c = '&') ∧ ∃ ds, encodeAfter [] (c :: cs) = '&' :: ds) ∨
      encodeAfter [] (c :: cs) = c :: encodeAfter [] cs := by
  rw [encodeAfter]
  split
  · unfold encodeDirect
    split
    · next h => exact .inl ⟨fun _ => h, _, rfl⟩
    · exact .inr rfl
  · next h => exact .inl ⟨fun h' => absurd h' h, encodeAfter_of_ne_nil (by simp) cs⟩

theorem encodeAfter_eq_nil {cs : List Char} : encodeAfter [] cs = [] ↔ cs = [] := by
  cases cs with
  | nil => exact iff_of_true rfl rfl
  | cons c cs =>
    obtain ⟨-, ds, h⟩ | h := encodeAfter_cons c cs <;> simp [h]

/-- A single dot is written only for a single dot. -/
theorem encode_eq_dot {s : String} : encode s = "." ↔ s = "." := by
  rw [← String.toList_inj, ← String.toList_inj, encode, String.toList_ofList]
  change encodeAfter [] s.toList = ['.'] ↔ s.toList = ['.']
  cases s.toList with
  | nil => simp [encodeAfter, encodeRun]
  | cons c cs =>
    obtain ⟨hc, ds, h⟩ | h := encodeAfter_cons c cs
    · have hdot : c ≠ '.' := by
        rintro rfl
        exact absurd (hc rfl) (by decide)
      simp [h, hdot]
    · rw [h, List.cons_eq_cons, List.cons_eq_cons, encodeAfter_eq_nil]

theorem mem_encode {s : String} {c : Char} (h : c ∈ (encode s).toList) :
    isDirect c = true ∧ (c = '/' → '/' ∈ s.toList) := by
  rw [encode, String.toList_ofList] at h
  exact mem_encodeAfter h

end MailSieve.Text.ModifiedUtf7
