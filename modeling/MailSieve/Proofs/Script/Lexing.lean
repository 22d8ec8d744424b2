import MailSieve.Proofs.Script.Layout

/-!
Texts that can be cut into tokens, as rules: one for each way to go on from a place in the text.
-/

namespace MailSieve.Script

/-- The tokens of a text that starts at a position, one rule for a gap and for each kind of token. -/
inductive Lexed : Nat → List Char → List Token → Prop
  | nil : Lexed p [] [.endOfInput p]
  | gap : isGap c → Lexed (p + 1) s ts → Lexed p (c :: s) ts
  | word : w ≠ [] → (∀ c ∈ w, c.isAlpha) → (∀ c ∈ s.head?, c.isAlpha = false) →
    Lexed (p + w.length) s ts →
    Lexed p (w ++ s) (⟨.identifier, .ofList w, p, p + w.length⟩ :: ts)
  | string : readString r = some (a, s) → Lexed (p + 1 + (r.length - s.length)) s ts →
    Lexed p ('"' :: r) (⟨.string, .ofList a, p, p + 1 + (r.length - s.length)⟩ :: ts)
  | sign : Kind.ofPunctuation? c = some k → Lexed (p + 1) s ts →
    Lexed p (c :: s) (⟨k, c.toString, p, p + 1⟩ :: ts)

theorem Lexed.tokensFrom_eq {p : Nat} {s : List Char} {ts : List Token} (h : Lexed p s ts) :
    tokensFrom p s = .ok ts := by
  induction h with
  | nil => rw [tokensFrom]
  | gap hc _ ih => rw [tokensFrom_gap hc, ih]
  | word hne hw hs _ ih => rw [tokensFrom_word hw hne hs, ih]; rfl
  | string hr _ ih => rw [tokensFrom_string hr, ih]; rfl
  | sign hk _ ih => rw [tokensFrom_sign hk, ih]; rfl

theorem lexed_of_tokensFrom {p : Nat} {s : List Char} {ts : List Token}
    (h : tokensFrom p s = .ok ts) : Lexed p s ts := by
  fun_induction tokensFrom p s generalizing ts with
  | case1 p =>
    cases h
    exact .nil
  | case2 p c r hc ih => exact .gap hc (ih h)
  | case3 p c r _ hc word stop =>
    rename_i ih
    obtain ⟨us, hus, h⟩ := bind_eq_ok.1 h
    cases h
    have hw : ∀ d ∈ word, d.isAlpha := by
      rw [List.forall_mem_cons]
      exact ⟨hc, List.all_eq_true.1 List.all_takeWhile⟩
    have hr : ∀ d ∈ (r.dropWhile Char.isAlpha).head?, d.isAlpha = false := by
      intro d hd
      have hnot := List.head?_dropWhile_not Char.isAlpha r
      rw [hd] at hnot
      simpa using hnot
    have hl := Lexed.word (List.cons_ne_nil _ _) hw hr (ih hus)
    rwa [List.cons_append, List.takeWhile_append_dropWhile] at hl
  | case4 => cases h
  | case5 p r a rest hr stop =>
    rename_i ih
    obtain ⟨us, hus, h⟩ := bind_eq_ok.1 h
    cases h
    exact .string hr (ih hus)
  | case6 p c r _ _ _ k hk ih =>
    obtain ⟨us, hus, h⟩ := bind_eq_ok.1 h
    cases h
    exact .sign hk (ih hus)
  | case7 => cases h

theorem tokensFrom_eq_ok {p : Nat} {s : List Char} {ts : List Token} :
    tokensFrom p s = .ok ts ↔ Lexed p s ts :=
  ⟨lexed_of_tokensFrom, Lexed.tokensFrom_eq⟩

theorem readString_dropped {c : Char} (hq : c ≠ '"') (hb : c ≠ '\\') (r : List Char) :
    readString ('\\' :: c :: r) = readString (c :: r) := by
  rw [readString.eq_def]
  split <;> grind

/-- A string that is closed is read the same whatever follows it. -/
theorem readString_append {r a s : List Char} (h : readString r = some (a, s)) (t : List Char) :
    readString (r ++ t) = some (a, s ++ t) := by
  fun_induction readString r generalizing a s with
  | case1 => simp at h
  | case2 => simp_all [readString]
  | case3 r ih | case4 r ih =>
    obtain ⟨⟨b, s⟩, hr, e⟩ := Option.map_eq_some_iff.1 h
    cases e
    simp [readString, ih hr]
  | case5 r hb hq ih =>
    cases r with
    | nil => simp [readString] at h
    | cons c r =>
      have hq : c ≠ '"' := fun e => hq r (by rw [e])
      have hb : c ≠ '\\' := fun e => hb r (by rw [e])
      rw [List.cons_append, List.cons_append, readString_dropped hq hb]
      exact ih h
  | case6 c r hq _ _ hb ih =>
    obtain ⟨⟨b, s⟩, hr, e⟩ := Option.map_eq_some_iff.1 h
    cases e
    rw [List.cons_append, readString_cons hq hb, ih hr]
    rfl

/-- The rest after a string follows a quotation mark. -/
theorem readString_closed {r a s : List Char} (h : readString r = some (a, s)) :
    ∃ x, r = x ++ '"' :: s := by
  fun_induction readString r generalizing a s with
  | case1 => simp at h
  | case2 r =>
    cases h
    exact ⟨[], rfl⟩
  | case3 r ih | case4 r ih =>
    obtain ⟨⟨b, s⟩, hr, e⟩ := Option.map_eq_some_iff.1 h
    cases e
    obtain ⟨x, rfl⟩ := ih hr
    exact ⟨_ :: _ :: x, rfl⟩
  | case5 r _ _ ih =>
    obtain ⟨x, rfl⟩ := ih h
    exact ⟨_ :: x, rfl⟩
  | case6 c r _ _ _ _ ih =>
    obtain ⟨⟨b, s⟩, hr, e⟩ := Option.map_eq_some_iff.1 h
    cases e
    obtain ⟨x, rfl⟩ := ih hr
    exact ⟨_ :: x, rfl⟩

def Token.shift (n : Nat) (t : Token) : Token := { t with start := t.start + n, stop := t.stop + n }

theorem lexeme_comp_shift (n : Nat) : Token.lexeme ∘ Token.shift n = Token.lexeme := rfl

/-- Moving a text moves its tokens. -/
theorem Lexed.shift {p : Nat} {s : List Char} {ts : List Token} (h : Lexed p s ts) (n : Nat) :
    Lexed (p + n) s (ts.map (Token.shift n)) := by
  induction h with
  | nil => exact .nil
  | gap hc _ ih =>
    rw [Nat.add_right_comm] at ih
    exact .gap hc ih
  | word hne hw hs _ ih =>
    rw [Nat.add_right_comm] at ih
    simpa [Token.shift, Nat.add_right_comm] using Lexed.word hne hw hs ih
  | string hr _ ih =>
    simp only [Nat.add_right_comm _ _ n] at ih
    simpa [Token.shift, Nat.add_right_comm] using Lexed.string hr ih
  | sign hk _ ih =>
    rw [Nat.add_right_comm] at ih
    simpa [Token.shift, Nat.add_right_comm] using Lexed.sign hk ih

/-- The last token is the end of the input. -/
theorem Lexed.ends {p : Nat} {s : List Char} {ts : List Token} (h : Lexed p s ts) :
    ∃ us stop, ts = us ++ [.endOfInput stop] := by
  induction h with
  | nil => exact ⟨[], _, rfl⟩
  | gap _ _ ih => exact ih
  | word _ _ _ _ ih | string _ _ ih | sign _ _ ih =>
    obtain ⟨us, stop, rfl⟩ := ih
    exact ⟨_ :: us, stop, rfl⟩

theorem Lexed.ne_nil {p : Nat} {s : List Char} {ts : List Token} (h : Lexed p s ts) : ts ≠ [] := by
  obtain ⟨us, stop, rfl⟩ := h.ends
  simp

theorem ofPunctuation?_ne_eof {c : Char} {k : Kind} (h : Kind.ofPunctuation? c = some k) :
    k ≠ .eof := by
  unfold Kind.ofPunctuation? at h
  split at h <;> cases h <;> decide

/-- Only the last token ends the input. -/
theorem Lexed.kind_ne_eof {p : Nat} {s : List Char} {ts : List Token} (h : Lexed p s ts) :
    ∀ t ∈ ts.dropLast, t.kind ≠ .eof := by
  induction h with
  | nil => simp
  | gap _ _ ih => exact ih
  | word _ _ _ hl ih | string _ hl ih =>
    rw [List.dropLast_cons_of_ne_nil hl.ne_nil, List.forall_mem_cons]
    exact ⟨by simp, ih⟩
  | sign hk hl ih =>
    rw [List.dropLast_cons_of_ne_nil hl.ne_nil, List.forall_mem_cons]
    exact ⟨ofPunctuation?_ne_eof hk, ih⟩

theorem not_isAlpha_of_sign {c : Char} {k : Kind} (h : Kind.ofPunctuation? c = some k) :
    c.isAlpha = false := by
  unfold Kind.ofPunctuation? at h
  split at h <;> first | decide | cases h

/-- No word of the first text runs on in the second. -/
def Apart (a b : List Char) : Prop := ∀ c ∈ a.getLast?, c.isAlpha → ∀ d ∈ b.head?, d.isAlpha = false

theorem Apart.of_append {a s b : List Char} (h : Apart (a ++ s) b) : Apart s b := by
  intro c hc
  apply h c
  rw [List.getLast?_append, hc]
  rfl

/-- The tokens of a text are those of its parts, if the cut is not within a word. -/
theorem Lexed.append {p : Nat} {a b : List Char} {ts us : List Token} (ha : Lexed p a ts)
    (hab : Apart a b) (hb : Lexed (p + a.length) b us) : Lexed p (a ++ b) (ts.dropLast ++ us) := by
  induction ha with
  | nil => exact hb
  | @gap c p s ts hc _ ih =>
    rw [List.length_cons, Nat.add_comm s.length, ← Nat.add_assoc] at hb
    exact .gap hc (ih (hab.of_append (a := [c])) hb)
  | @word w p s ts hne hw hs hl ih =>
    rw [List.length_append, ← Nat.add_assoc] at hb
    rw [List.dropLast_cons_of_ne_nil hl.ne_nil, List.append_assoc]
    refine .word hne hw ?_ (ih hab.of_append hb)
    cases s with
    | nil =>
      rw [List.append_nil] at hab
      exact hab _ (List.getLast_mem_getLast? hne) (hw _ (List.getLast_mem hne))
    | cons d s => exact hs
  | @string r x s p ts hr hl ih =>
    obtain ⟨y, hy⟩ := readString_closed hr
    have hab : Apart (('"' :: (y ++ ['"'])) ++ s) b := by simpa [hy] using hab
    have hlen : (r ++ b).length - (s ++ b).length = r.length - s.length := by
      rw [List.length_append, List.length_append, Nat.add_sub_add_right]
    have hstop : p + ('"' :: r).length = p + 1 + (r.length - s.length) + s.length := by
      simp only [hy, List.length_cons, List.length_append]
      omega
    rw [hstop] at hb
    rw [List.dropLast_cons_of_ne_nil hl.ne_nil, ← hlen]
    have ih := ih hab.of_append hb
    rw [← hlen] at ih
    exact .string (readString_append hr b) ih
  | @sign c k p s ts hk hl ih =>
    rw [List.length_cons, Nat.add_comm s.length, ← Nat.add_assoc] at hb
    rw [List.dropLast_cons_of_ne_nil hl.ne_nil]
    exact .sign hk (ih (hab.of_append (a := [c])) hb)

theorem Lexed.eq_of_nil {p : Nat} {ts : List Token} (h : Lexed p [] ts) :
    ts = [.endOfInput p] := by
  have ht := h.tokensFrom_eq
  rw [tokensFrom] at ht
  exact (Except.ok.inj ht).symm

/-- The last token before the end of the input is a word. -/
def EndsInWord (ts : List Token) : Prop :=
  ∃ us t e, ts = us ++ [t, e] ∧ t.kind = .identifier

theorem EndsInWord.cons {ts : List Token} (h : EndsInWord ts) (u : Token) : EndsInWord (u :: ts) := by
  obtain ⟨us, t, e, rfl, ht⟩ := h
  exact ⟨u :: us, t, e, rfl, ht⟩

/-- A text that ends in a letter ends in a word. -/
theorem Lexed.endsInWord {p : Nat} {s : List Char} {ts : List Token} (h : Lexed p s ts) {d : Char}
    (hd : s.getLast? = some d) (ha : d.isAlpha) : EndsInWord ts := by
  induction h with
  | nil => simp at hd
  | @gap c p s ts hc _ ih =>
    cases s with
    | nil =>
      obtain rfl : c = d := by simpa using hd
      rw [not_isGap_of_isAlpha ha] at hc
      cases hc
    | cons e s => exact ih (by simpa using hd)
  | @word w p s ts _ _ _ hl ih =>
    cases s with
    | nil =>
      rw [hl.eq_of_nil]
      exact ⟨[], _, _, rfl, rfl⟩
    | cons e s => exact (ih (by simpa using hd)).cons _
  | @string r a s p ts hr _ ih =>
    obtain ⟨x, rfl⟩ := readString_closed hr
    rw [← List.cons_append, List.getLast?_append] at hd
    cases s with
    | nil =>
      obtain rfl : '"' = d := by simpa using hd
      cases ha
    | cons e s => exact (ih (by simpa using hd)).cons _
  | @sign c k p s ts hk _ ih =>
    cases s with
    | nil =>
      obtain rfl : c = d := by simpa using hd
      rw [not_isAlpha_of_sign hk] at ha
      cases ha
    | cons e s => exact (ih (by simpa using hd)).cons _

end MailSieve.Script
