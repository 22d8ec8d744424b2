import MailSieve.Proofs.Script.Spelling

/-!
Scripts as characters: the lexemes in turn, with gaps anywhere between them. Reading such a text gives
the lexemes back.
-/

namespace MailSieve.Script

/-- The form of a character within quotation marks. -/
def escape (c : Char) : List Char := if c = '"' ∨ c = '\\' then ['\\', c] else [c]

def Lexeme.text : Lexeme → List Char
  | .word w => w.toList
  | .string s => '"' :: (s.toList.flatMap escape ++ ['"'])
  | .sign k => k.name.toList

def Lexeme.IsWord (l : Lexeme) : Prop := ∃ w, l = .word w

/-- A text of these lexemes. Only a word cares for what follows it. -/
inductive Laid : List Lexeme → List Char → Prop
  | nil : Laid [] []
  | gap : isGap c → Laid ls s → Laid ls (c :: s)
  | lexeme : l.Writable → (l.IsWord → ∀ c ∈ s.head?, c.isAlpha = false) → Laid ls s →
    Laid (l :: ls) (l.text ++ s)

theorem toNat_of_isAlpha {c : Char} (h : c.isAlpha) : 65 ≤ c.toNat ∧ c.toNat ≤ 122 := by
  change (decide (65 ≤ c.val ∧ c.val ≤ 90) || (decide (97 ≤ c.val) && decide (c.val ≤ 122))) = true
    at h
  simp only [Bool.or_eq_true, Bool.and_eq_true, decide_eq_true_eq, UInt32.le_iff_toNat_le] at h
  change (65 ≤ c.toNat ∧ c.toNat ≤ 90) ∨ (97 ≤ c.toNat ∧ c.toNat ≤ 122) at h
  omega

theorem not_isGap_of_isAlpha {c : Char} (h : c.isAlpha) : isGap c = false := by
  have hc := toNat_of_isAlpha h
  have hne : c ≠ '\ufeff' := by
    intro e
    rw [e] at hc
    exact absurd hc.2 (by decide)
  have hblank : ∀ r ∈ Text.blanks, r.2 < 65 ∨ 122 < r.1 := by decide
  simp only [isGap, hne, Text.isBlank, Text.Ranges.has, decide_false, Bool.or_false,
    List.any_eq_false, Bool.and_eq_true, decide_eq_true_eq]
  intro r hr
  have hr := hblank r hr
  omega

theorem readString_cons {c : Char} (hq : c ≠ '"') (hb : c ≠ '\\') (r : List Char) :
    readString (c :: r) = (readString r).map fun (s, r) => (c :: s, r) := by
  rw [readString.eq_def]
  split <;> simp_all

theorem readString_escaped (s r : List Char) :
    readString (s.flatMap escape ++ '"' :: r) = some (s, r) := by
  induction s with
  | nil => simp [readString]
  | cons c s ih =>
    rw [List.flatMap_cons, List.append_assoc]
    by_cases hq : c = '"'
    · simp [escape, hq, readString, ih]
    · by_cases hb : c = '\\'
      · simp [escape, hb, readString, ih]
      · simp [escape, hq, hb, readString_cons, ih]

theorem takeWhile_letters {w s : List Char} (hw : ∀ c ∈ w, c.isAlpha)
    (hs : ∀ c ∈ s.head?, c.isAlpha = false) : (w ++ s).takeWhile Char.isAlpha = w := by
  rw [List.takeWhile_append_of_pos hw]
  cases s with
  | nil => simp
  | cons c s => rw [List.takeWhile_cons_of_neg (by simp [hs c rfl]), List.append_nil]

theorem dropWhile_letters {w s : List Char} (hw : ∀ c ∈ w, c.isAlpha)
    (hs : ∀ c ∈ s.head?, c.isAlpha = false) : (w ++ s).dropWhile Char.isAlpha = s := by
  rw [List.dropWhile_append_of_pos hw]
  cases s with
  | nil => rfl
  | cons c s => rw [List.dropWhile_cons_of_neg (by simp [hs c rfl])]

theorem tokensFrom_gap {c : Char} (h : isGap c) (position : Nat) (r : List Char) :
    tokensFrom position (c :: r) = tokensFrom (position + 1) r := by
  rw [tokensFrom, if_pos h]

theorem tokensFrom_word {w s : List Char} (hw : ∀ c ∈ w, c.isAlpha) (hne : w ≠ [])
    (hs : ∀ c ∈ s.head?, c.isAlpha = false) (position : Nat) :
    tokensFrom position (w ++ s) = (tokensFrom (position + w.length) s).map
      (⟨.identifier, .ofList w, position, position + w.length⟩ :: ·) := by
  cases w with
  | nil => exact absurd rfl hne
  | cons c r =>
    have hc : c.isAlpha := hw c List.mem_cons_self
    have hr : ∀ c ∈ r, c.isAlpha := fun c h => hw c (List.mem_cons_of_mem _ h)
    rw [List.cons_append, tokensFrom, takeWhile_letters hr hs, dropWhile_letters hr hs]
    simp only [not_isGap_of_isAlpha hc, hc, if_true, Bool.false_eq_true, if_false]
    cases tokensFrom (position + (c :: r).length) s <;> rfl

theorem tokensFrom_string {r s rest : List Char} (h : readString r = some (s, rest))
    (position : Nat) :
    tokensFrom position ('"' :: r) =
      (tokensFrom (position + 1 + (r.length - rest.length)) rest).map
        (⟨.string, .ofList s, position, position + 1 + (r.length - rest.length)⟩ :: ·) := by
  rw [tokensFrom, if_neg (by decide), if_neg (by decide), if_pos rfl]
  split
  · next h' => simp [h] at h'
  · next s' rest' h' =>
    rw [h] at h'
    cases h'
    dsimp only
    cases tokensFrom (position + 1 + (r.length - rest.length)) rest <;> rfl

theorem tokensFrom_sign {c : Char} {k : Kind} (h : Kind.ofPunctuation? c = some k)
    (position : Nat) (r : List Char) :
    tokensFrom position (c :: r) = (tokensFrom (position + 1) r).map
      (⟨k, c.toString, position, position + 1⟩ :: ·) := by
  have hc : isGap c = false ∧ c.isAlpha = false ∧ c ≠ '"' := by
    unfold Kind.ofPunctuation? at h
    split at h <;> first | decide | cases h
  rw [tokensFrom]
  simp only [hc, h, Bool.false_eq_true, if_false]
  cases tokensFrom (position + 1) r <;> rfl

/-- The tokens from a place on are one with the lexeme `l` and those of `s`. -/
theorem tokensFrom_lexeme {l : Lexeme} {s : List Char} (hl : l.Writable)
    (hs : l.IsWord → ∀ c ∈ s.head?, c.isAlpha = false) (position : Nat) :
    ∃ t, t.lexeme = l ∧
      tokensFrom position (l.text ++ s) = (tokensFrom t.stop s).map (t :: ·) := by
  cases l with
  | word w =>
    refine ⟨⟨.identifier, w, position, position + w.toList.length⟩, rfl, ?_⟩
    have h := tokensFrom_word hl.2 hl.1 (hs ⟨w, rfl⟩) position
    rw [String.ofList_toList] at h
    exact h
  | string a =>
    have h := tokensFrom_string (readString_escaped a.toList s) position
    rw [String.ofList_toList] at h
    have hs : (Lexeme.string a).text ++ s = '"' :: (a.toList.flatMap escape ++ '"' :: s) := by
      simp [Lexeme.text]
    rw [hs]
    exact ⟨_, rfl, h⟩
  | sign k =>
    have hk : ∃ c, k.name.toList = [c] ∧ Kind.ofPunctuation? c = some k := by
      cases k with
      | identifier => exact absurd rfl hl.1
      | string => exact absurd rfl hl.2.1
      | eof => exact absurd rfl hl.2.2
      | _ => exact ⟨_, rfl, rfl⟩
    cases hk with
    | intro c hc =>
      refine ⟨⟨k, c.toString, position, position + 1⟩, lexeme_eq_sign.2 ⟨rfl, hl.1, hl.2.1⟩, ?_⟩
      simp only [Lexeme.text, hc.1]
      exact tokensFrom_sign hc.2 position s

theorem tokensFrom_laid {ls : List Lexeme} {s : List Char} (h : Laid ls s) (position : Nat) :
    ∃ ts, tokensFrom position s = .ok ts ∧ ts.map Token.lexeme = ls ++ [.sign .eof] := by
  induction h generalizing position with
  | nil => exact ⟨[.endOfInput position], by rw [tokensFrom], rfl⟩
  | gap hc _ ih =>
    rw [tokensFrom_gap hc]
    exact ih _
  | lexeme hl hs _ ih =>
    obtain ⟨t, ht, h⟩ := tokensFrom_lexeme hl hs position
    obtain ⟨ts, hts, hls⟩ := ih t.stop
    exact ⟨t :: ts, by rw [h, hts]; rfl, by rw [List.map_cons, ht, hls]; rfl⟩

/-- A text with a blank after each word and no other gaps. -/
def layOut (ls : List Lexeme) : List Char :=
  ls.flatMap fun
    | .word w => w.toList ++ [' ']
    | l => l.text

theorem laid_layOut {ls : List Lexeme} (h : ∀ l ∈ ls, l.Writable) : Laid ls (layOut ls) := by
  induction ls with
  | nil => exact .nil
  | cons l ls ih =>
    have hl := h l List.mem_cons_self
    have hls := ih fun l h' => h l (List.mem_cons_of_mem _ h')
    cases l with
    | word w =>
      have hgap := Laid.lexeme hl (s := ' ' :: layOut ls) (by simp) (.gap (by decide) hls)
      simpa [layOut, Lexeme.text] using hgap
    | string a => exact .lexeme hl (by simp [Lexeme.IsWord]) hls
    | sign k => exact .lexeme hl (by simp [Lexeme.IsWord]) hls

end MailSieve.Script
