import MailSieve.Proofs.Outcome
import MailSieve.Proofs.Script.Grammar
import MailSieve.Script.Parser

/-!
Lists of tokens that start with given lexemes, and the readers of one sign, one string or one tag in
terms of them.
-/

namespace MailSieve.Script

@[simp] theorem stuck_ne_ok {es : List Expected} {ts : List Token} {a : α} :
    stuck es ts ≠ .ok a := fun h => nomatch h

@[simp] theorem pure_eq_ok (a : α) : (pure a : Except Stuck α) = .ok a := rfl

@[simp] theorem ok_bind (a : α) (f : α → Except Stuck β) : Except.ok a >>= f = f a := rfl

@[simp] theorem lexeme_eq_word {t : Token} {w : String} :
    t.lexeme = .word w ↔ t.kind = .identifier ∧ t.text = w := by
  unfold Token.lexeme
  split <;> simp_all

@[simp] theorem lexeme_eq_string {t : Token} {s : String} :
    t.lexeme = .string s ↔ t.kind = .string ∧ t.text = s := by
  unfold Token.lexeme
  split <;> simp_all

theorem lexeme_eq_sign {t : Token} {k : Kind} :
    t.lexeme = .sign k ↔ t.kind = k ∧ k ≠ .identifier ∧ k ≠ .string := by
  unfold Token.lexeme
  split <;> grind

/-- The tokens of `ts` before `r` have these lexemes. -/
def Spells (ls : List Lexeme) (ts r : List Token) : Prop :=
  ∃ us, ts = us ++ r ∧ us.map Token.lexeme = ls

@[simp] theorem spells_nil {ts r : List Token} : Spells [] ts r ↔ ts = r := by
  simp [Spells]

@[simp] theorem spells_cons_cons {l : Lexeme} {ls : List Lexeme} {t : Token} {ts r : List Token} :
    Spells (l :: ls) (t :: ts) r ↔ t.lexeme = l ∧ Spells ls ts r := by
  constructor
  · rintro ⟨us, h, h'⟩
    obtain ⟨u, us, rfl, rfl, rfl⟩ := List.map_eq_cons_iff.1 h'
    obtain ⟨rfl, rfl⟩ := List.cons.inj h
    exact ⟨rfl, us, rfl, rfl⟩
  · rintro ⟨rfl, us, rfl, rfl⟩
    exact ⟨t :: us, rfl, rfl⟩

theorem spells_cons {l : Lexeme} {ls : List Lexeme} {ts r : List Token} :
    Spells (l :: ls) ts r ↔ ∃ t ts', ts = t :: ts' ∧ t.lexeme = l ∧ Spells ls ts' r := by
  constructor
  · rintro ⟨us, rfl, h⟩
    obtain ⟨t, us, rfl, rfl, rfl⟩ := List.map_eq_cons_iff.1 h
    exact ⟨t, us ++ r, rfl, rfl, us, rfl, rfl⟩
  · rintro ⟨t, ts', rfl, h⟩
    exact spells_cons_cons.2 h

theorem spells_append {k l : List Lexeme} {ts s : List Token} :
    Spells (k ++ l) ts s ↔ ∃ r, Spells k ts r ∧ Spells l r s := by
  constructor
  · rintro ⟨us, rfl, h⟩
    obtain ⟨vs, ws, rfl, rfl, rfl⟩ := List.map_eq_append_iff.1 h
    exact ⟨ws ++ s, ⟨vs, List.append_assoc .., rfl⟩, ws, rfl, rfl⟩
  · rintro ⟨r, ⟨vs, rfl, rfl⟩, ws, rfl, rfl⟩
    exact ⟨vs ++ ws, (List.append_assoc ..).symm, List.map_append⟩

theorem Spells.append {k l : List Lexeme} {ts r s : List Token} (h : Spells k ts r)
    (h' : Spells l r s) : Spells (k ++ l) ts s :=
  spells_append.2 ⟨r, h, h'⟩

theorem Spells.length {ls : List Lexeme} {ts r : List Token} (h : Spells ls ts r) :
    ts.length = ls.length + r.length := by
  obtain ⟨us, rfl, rfl⟩ := h
  simp

theorem Spells.map {ls : List Lexeme} {ts r : List Token} (h : Spells ls ts r) :
    ts.map Token.lexeme = ls ++ r.map Token.lexeme := by
  obtain ⟨us, rfl, rfl⟩ := h
  exact List.map_append

theorem expect_eq_ok {k : Kind} {ts r : List Token} {t : Token} :
    expect k ts = .ok (t, r) ↔ ts = t :: r ∧ t.kind = k := by
  cases ts with
  | nil => simp [expect]
  | cons u us =>
    simp only [expect]
    split <;> grind [stuck]

theorem expect_spells {k : Kind} (hk : k ≠ .identifier ∧ k ≠ .string) {t : Token}
    {ts r : List Token} (h : expect k ts = .ok (t, r)) : Spells [.sign k] ts r := by
  obtain ⟨rfl, ht⟩ := expect_eq_ok.1 h
  simp [lexeme_eq_sign, ht, hk]

theorem readTag_spells {read : String → Option α} {write : α → String}
    (h : ∀ w a, read w = some a → w = write a) {ts r : List Token}
    {o : Option α} (e : readTag read ts = (o, r)) : Spells (Phrase.tag (o.map write)) ts r := by
  unfold readTag at e
  split at e
  · next c t r' =>
    split at e
    · next hk =>
      split at e
      · next a ha =>
        obtain ⟨rfl, rfl⟩ := Prod.mk.inj e
        rw [Bool.and_eq_true, decide_eq_true_iff, decide_eq_true_iff] at hk
        simp [Phrase.tag, lexeme_eq_sign, hk, h _ _ ha]
      · obtain ⟨rfl, rfl⟩ := Prod.mk.inj e
        simp [Phrase.tag]
    · obtain ⟨rfl, rfl⟩ := Prod.mk.inj e
      simp [Phrase.tag]
  · obtain ⟨rfl, rfl⟩ := Prod.mk.inj e
    simp [Phrase.tag]

theorem expect_complete {l : Lexeme} {k : Kind} (hl : ∀ t : Token, t.lexeme = l → t.kind = k)
    {ts r : List Token} (h : Spells [l] ts r) :
    ∃ t, expect k ts = .ok (t, r) ∧ t.lexeme = l := by
  obtain ⟨t, ts, rfl, ht, hr⟩ := spells_cons.1 h
  rw [spells_nil] at hr
  exact ⟨t, expect_eq_ok.2 ⟨by rw [hr], hl t ht⟩, ht⟩

theorem expect_sign_complete {k : Kind} {ts r : List Token} (h : Spells [.sign k] ts r) :
    ∃ t, expect k ts = .ok (t, r) := by
  obtain ⟨t, ht, _⟩ := expect_complete (fun t ht => (lexeme_eq_sign.1 ht).1) h
  exact ⟨t, ht⟩

theorem expect_string_complete {s : String} {ts r : List Token} (h : Spells [.string s] ts r) :
    ∃ t, expect .string ts = .ok (t, r) ∧ t.text = s := by
  obtain ⟨t, ht, hs⟩ := expect_complete (fun t ht => (lexeme_eq_string.1 ht).1) h
  exact ⟨t, ht, (lexeme_eq_string.1 hs).2⟩

theorem readTag_complete {read : String → Option α} {write : α → String}
    (hw : ∀ a, read (write a) = some a) {o : Option α} {ts r : List Token}
    (h : Spells (Phrase.tag (o.map write)) ts r)
    (hr : ∀ w a, read w = some a → ∀ u, r.map Token.lexeme ≠ .sign .colon :: .word w :: u) :
    readTag read ts = (o, r) := by
  cases o with
  | none =>
    obtain rfl : ts = r := by simpa [Phrase.tag] using h
    unfold readTag
    split
    · next c t r' =>
      split
      · next hk =>
        rw [Bool.and_eq_true, decide_eq_true_iff, decide_eq_true_iff] at hk
        split
        · next a ha => exact absurd (by simp [lexeme_eq_sign, hk]) (hr _ _ ha (r'.map Token.lexeme))
        · rfl
      · rfl
    · rfl
  | some a =>
    simp only [Option.map_some, Phrase.tag] at h
    obtain ⟨c, ts, rfl, hc, h⟩ := spells_cons.1 h
    obtain ⟨t, ts, rfl, ht, h⟩ := spells_cons.1 h
    rw [spells_nil] at h
    simp [readTag, lexeme_eq_sign.1 hc, lexeme_eq_word.1 ht, hw, h]

theorem matchType_eq_of_tag (w : String) (m : MatchType) (h : MatchType.ofTag? w = some m) :
    w = m.tag := by
  unfold MatchType.ofTag? at h
  split at h <;> simp_all [MatchType.tag]
  all_goals
    subst h
    rfl

theorem part_eq_of_tag (w : String) (p : AddressPart) (h : AddressPart.ofTag? w = some p) :
    w = p.tag := by
  unfold AddressPart.ofTag? at h
  split at h <;> simp_all [AddressPart.tag]
  all_goals
    subst h
    rfl

theorem ofTag_tag (m : MatchType) : MatchType.ofTag? m.tag = some m := by cases m <;> rfl

theorem ofTag_partTag (p : AddressPart) : AddressPart.ofTag? p.tag = some p := by cases p <;> rfl

theorem testWord_eq_ok {ts r : List Token} {w : String} :
    testWord ts = .ok (w, r) ↔ ∃ t, ts = t :: r ∧ t.lexeme = .word w ∧ w ∈ testWords := by
  constructor
  · intro h
    unfold testWord at h
    split at h
    · simp at h
    · split at h
      · split at h
        · cases h
          exact ⟨_, rfl, by simpa, by assumption⟩
        · simp at h
      · simp at h
  · rintro ⟨t, rfl, ht, hw⟩
    obtain ⟨hk, rfl⟩ := lexeme_eq_word.1 ht
    simp [testWord, hk, hw]

theorem testWord_complete {t : Token} {ts : List Token} {w : String} (ht : t.lexeme = .word w)
    (hw : w ∈ testWords) : testWord (t :: ts) = .ok (w, ts) :=
  testWord_eq_ok.2 ⟨t, rfl, ht, hw⟩

end MailSieve.Script
