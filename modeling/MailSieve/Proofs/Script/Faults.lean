import Mathlib
import MailSieve.Proofs.Script.Spans

/-!
Texts that cannot be cut into tokens: each has one fault, a character that starts no token or a string
that is not closed, and the text before the fault can be cut. A text put before another one, without
cutting a word, moves the tokens and the fault of the other and does nothing else.
-/

namespace MailSieve.Script

/-- The signs of a script. -/
def signs : List Char := ['[', ']', ',', ';', '(', ')', '\x7b', '\x7d', ':']

/-- No token and no gap starts with this character. -/
def Illegal (c : Char) : Prop := isGap c = false ∧ c.isAlpha = false ∧ c ≠ '"' ∧ c ∉ signs

/-- What is wrong at the start of a text that stands at a position. -/
inductive Faulty : Nat → List Char → SyntaxError → Prop
  | char : Illegal c → Faulty p (c :: s) (.unexpectedChar c p)
  | string : Unclosed r → Faulty p ('"' :: r) (.unterminatedString p (p + 1 + r.length))

theorem ofPunctuation?_eq_none {c : Char} : Kind.ofPunctuation? c = none ↔ c ∉ signs := by
  unfold Kind.ofPunctuation?
  split <;> simp_all [signs]

theorem Faulty.apart {p : Nat} {s : List Char} {e : SyntaxError} (h : Faulty p s e) (a : List Char) :
    Apart a s := by
  intro c _ _ d hd
  cases h with
  | char hc =>
    cases hd
    exact hc.2.1
  | string =>
    cases hd
    rfl

theorem Faulty.tokensFrom_eq {p : Nat} {s : List Char} {e : SyntaxError} (h : Faulty p s e) :
    tokensFrom p s = .error e := by
  cases h with
  | @char c p s hc =>
    obtain ⟨hgap, ha, hq, hsign⟩ := hc
    rw [tokensFrom]
    simp [hgap, ha, hq, ofPunctuation?_eq_none.2 hsign]
  | string hr =>
    rw [tokensFrom, if_neg (by decide), if_neg (by decide), if_pos rfl]
    split
    · rfl
    · next h => simp [readString_eq_none.2 hr] at h

/-- A token comes first in a text that stands at a position. -/
def Leads (p : Nat) (s : List Char) : Prop :=
  ∃ t w r, s = w ++ r ∧ Written t w ∧ t.start = p ∧ t.stop = p + w.length ∧ Apart w r

theorem leads_of_isAlpha {c : Char} (hc : c.isAlpha) (p : Nat) (s : List Char) : Leads p (c :: s) := by
  have hletters : ∀ d ∈ c :: s.takeWhile Char.isAlpha, d.isAlpha :=
    List.forall_mem_cons.2 ⟨hc, List.all_eq_true.1 List.all_takeWhile⟩
  have hword : Written ⟨.identifier, .ofList (c :: s.takeWhile Char.isAlpha), p,
      p + (c :: s.takeWhile Char.isAlpha).length⟩ (c :: s.takeWhile Char.isAlpha) :=
    .word (List.cons_ne_nil _ _) hletters
  refine ⟨_, _, s.dropWhile Char.isAlpha, ?_, hword, rfl, rfl, ?_⟩
  · rw [List.cons_append, List.takeWhile_append_dropWhile]
  · rw [hword.apart_iff]
    intro _ d hd
    have hnot := List.head?_dropWhile_not Char.isAlpha s
    rw [hd] at hnot
    simpa using hnot

theorem leads_of_isBody {b : List Char} (hb : IsBody b) (p : Nat) (s : List Char) :
    Leads p ('"' :: (b ++ '"' :: s)) := by
  have hstring : Written ⟨.string, .ofList (unescape b), p,
      p + ('"' :: (b ++ ['"'])).length⟩ ('"' :: (b ++ ['"'])) := .string hb
  exact ⟨_, _, s, by simp, hstring, rfl, rfl, (hstring.apart_iff s).2 nofun⟩

theorem leads_of_sign {c : Char} {k : Kind} (hk : Kind.ofPunctuation? c = some k) (p : Nat)
    (s : List Char) : Leads p (c :: s) := by
  have hsign : Written ⟨k, c.toString, p, p + 1⟩ [c] := .sign hk
  exact ⟨_, _, s, rfl, hsign, rfl, rfl, apart_of_not_isAlpha (not_isAlpha_of_sign hk) [] s⟩

/-- A text starts with a gap, a token or a fault. -/
theorem leads_or_faulty (p : Nat) (c : Char) (s : List Char) :
    isGap c ∨ Leads p (c :: s) ∨ ∃ e, Faulty p (c :: s) e := by
  by_cases hgap : isGap c
  · exact .inl hgap
  by_cases ha : c.isAlpha
  · exact .inr (.inl (leads_of_isAlpha ha p s))
  by_cases hq : c = '"'
  · subst hq
    cases hr : readString s with
    | none => exact .inr (.inr ⟨_, .string (readString_eq_none.1 hr)⟩)
    | some q =>
      obtain ⟨b, rfl, hb, -⟩ := readString_eq_some.1 hr
      exact .inr (.inl (leads_of_isBody hb p q.2))
  cases hk : Kind.ofPunctuation? c with
  | some k => exact .inr (.inl (leads_of_sign hk p s))
  | none =>
    have hc : Illegal c :=
      ⟨by simpa using hgap, by simpa using ha, hq, ofPunctuation?_eq_none.1 hk⟩
    exact .inr (.inr ⟨_, .char hc⟩)

/-- A text that cannot be cut has a fault, and can be cut up to it. -/
theorem cut_or_faulty (p : Nat) (s : List Char) :
    (∃ us, Cut p s us) ∨ ∃ a us b e, s = a ++ b ∧ Cut p a us ∧ Faulty (p + a.length) b e := by
  induction hn : s.length using Nat.strongRecOn generalizing p s with
  | _ n ih =>
    cases s with
    | nil => exact .inl ⟨[], .nil⟩
    | cons c s =>
      -- what a gap or a token leaves is shorter, and its fault is that of the text
      obtain hgap | ⟨t, w, r, hs, hw, hstart, hstop, happart⟩ | ⟨e, he⟩ := leads_or_faulty p c s
      · obtain ⟨us, hus⟩ | ⟨a, us, b, e, rfl, hus, he⟩ := ih s.length (by simp [← hn]) (p + 1) s rfl
        · exact .inl ⟨us, .gap hgap hus⟩
        · refine .inr ⟨c :: a, us, b, e, rfl, .gap hgap hus, ?_⟩
          rwa [List.length_cons, Nat.add_comm a.length, ← Nat.add_assoc]
      · have hpos := List.length_pos_iff.2 hw.ne_nil
        have hlt : r.length < n := by
          rw [← hn, hs, List.length_append]
          omega
        rw [hs]
        obtain ⟨us, hus⟩ | ⟨a, us, b, e, rfl, hus, he⟩ := ih _ hlt t.stop r rfl
        · exact .inl ⟨t :: us, .token hw hstart hstop happart hus⟩
        · refine .inr ⟨w ++ a, t :: us, b, e, (List.append_assoc ..).symm, ?_, ?_⟩
          · exact .token hw hstart hstop (happart.of_append_right) hus
          · rwa [List.length_append, ← Nat.add_assoc, ← hstop]
      · exact .inr ⟨[], [], c :: s, e, rfl, .nil, he⟩

theorem tokensFrom_eq_error {p : Nat} {s : List Char} {e : SyntaxError} :
    tokensFrom p s = .error e ↔
      ∃ a us b, s = a ++ b ∧ Cut p a us ∧ Faulty (p + a.length) b e := by
  constructor
  · intro h
    obtain ⟨us, hus⟩ | ⟨a, us, b, e', rfl, hus, he⟩ := cut_or_faulty p s
    · rw [hus.tokensFrom_eq] at h
      cases h
    · rw [hus.tokensFrom_append (he.apart a), he.tokensFrom_eq] at h
      cases h
      exact ⟨a, us, b, rfl, hus, he⟩
  · rintro ⟨a, us, b, rfl, hus, he⟩
    rw [hus.tokensFrom_append (he.apart a), he.tokensFrom_eq]
    rfl

/-- The ways in which a source fails to be cut: up to the fault it can be cut. -/
def Fault (cs : List Char) : SyntaxError → Prop
  | .unexpectedChar c p =>
    cs[p]? = some c ∧ (∃ ts, tokenize (.ofList (cs.take p)) = .ok ts) ∧ Illegal c
  | .unterminatedString a p =>
    p = cs.length ∧ cs[a]? = some '"' ∧ (∃ ts, tokenize (.ofList (cs.take a)) = .ok ts) ∧
      Unclosed (cs.drop (a + 1))
  | .unexpectedEnd .. | .unexpectedToken .. => False

theorem tokenize_ofList_eq_ok {cs : List Char} :
    (∃ ts, tokenize (.ofList cs) = .ok ts) ↔ ∃ us, Cut 0 cs us := by
  rw [tokenize, String.toList_ofList]
  constructor
  · rintro ⟨ts, hts⟩
    obtain ⟨us, -, hus⟩ := (lexed_of_tokensFrom hts).cut
    exact ⟨us, hus⟩
  · rintro ⟨us, hus⟩
    exact ⟨_, hus.tokensFrom_eq⟩

theorem getElem?_eq_some_iff_append {cs : List Char} {p : Nat} {c : Char} :
    cs[p]? = some c ↔ ∃ a s, cs = a ++ c :: s ∧ p = a.length := by
  constructor
  · intro h
    obtain ⟨hp, rfl⟩ := List.getElem?_eq_some_iff.1 h
    refine ⟨cs.take p, cs.drop (p + 1), ?_, (List.length_take_of_le (Nat.le_of_lt hp)).symm⟩
    rw [← List.drop_eq_getElem_cons hp, List.take_append_drop]
  · rintro ⟨a, s, rfl, rfl⟩
    simp

theorem Fault.exists_faulty {cs : List Char} {e : SyntaxError} (h : Fault cs e) :
    ∃ a us b, cs = a ++ b ∧ Cut 0 a us ∧ Faulty (0 + a.length) b e := by
  cases e with
  | unexpectedChar c p =>
    obtain ⟨hp, hts, hc⟩ := h
    obtain ⟨a, s, rfl, rfl⟩ := getElem?_eq_some_iff_append.1 hp
    rw [List.take_left, tokenize_ofList_eq_ok] at hts
    obtain ⟨us, hus⟩ := hts
    exact ⟨a, us, _, rfl, hus, by simpa using Faulty.char hc⟩
  | unterminatedString m p =>
    obtain ⟨rfl, hm, hts, hr⟩ := h
    obtain ⟨a, s, rfl, rfl⟩ := getElem?_eq_some_iff_append.1 hm
    rw [List.take_left, tokenize_ofList_eq_ok] at hts
    rw [← List.drop_drop, List.drop_left] at hr
    obtain ⟨us, hus⟩ := hts
    refine ⟨a, us, _, rfl, hus, ?_⟩
    have hfault := Faulty.string (p := a.length) hr
    simpa [Nat.add_assoc, Nat.add_comm 1] using hfault
  | unexpectedEnd | unexpectedToken => exact h.elim

theorem Cut.fault {a b : List Char} {us : List Token} {e : SyntaxError} (ha : Cut 0 a us)
    (h : Faulty (0 + a.length) b e) : Fault (a ++ b) e := by
  have hts : ∃ ts, tokenize (.ofList ((a ++ b).take a.length)) = .ok ts := by
    rw [List.take_left, tokenize_ofList_eq_ok]
    exact ⟨us, ha⟩
  rw [Nat.zero_add] at h
  cases h with
  | char hc => exact ⟨by simp, hts, hc⟩
  | string hr =>
    refine ⟨?_, by simp, hts, ?_⟩
    · simp [Nat.add_assoc, Nat.add_comm 1]
    · rwa [← List.drop_drop, List.drop_left]

/-- A source is read as tokens, or else it has exactly one fault, and that is the answer. -/
theorem tokenize_eq_error_iff_fault (source : String) :
    (∀ e, tokenize source = .error e ↔ Fault source.toList e) ∧
      Xor (∃! ts, tokenize source = .ok ts) (∃! e, Fault source.toList e) := by
  have herror : ∀ e, tokenize source = .error e ↔ Fault source.toList e := by
    intro e
    rw [tokenize, tokensFrom_eq_error]
    constructor
    · rintro ⟨a, us, b, hs, hus, he⟩
      exact hs ▸ hus.fault he
    · exact Fault.exists_faulty
  refine ⟨herror, ?_⟩
  simp only [← herror]
  cases h : tokenize source with
  | ok ts =>
    refine .inl ⟨⟨ts, rfl, fun us hus => (Except.ok.inj hus).symm⟩, ?_⟩
    rintro ⟨e, he, -⟩
    cases he
  | error e =>
    refine .inr ⟨⟨e, rfl, fun d hd => (Except.error.inj hd).symm⟩, ?_⟩
    rintro ⟨ts, hts, -⟩
    cases hts

def SyntaxError.shift (n : Nat) : SyntaxError → SyntaxError
  | .unexpectedChar c p => .unexpectedChar c (p + n)
  | .unterminatedString a p => .unterminatedString (a + n) (p + n)
  | .unexpectedEnd es p => .unexpectedEnd es (p + n)
  | .unexpectedToken es t => .unexpectedToken es (t.shift n)

theorem Cut.shift {p : Nat} {s : List Char} {us : List Token} (h : Cut p s us) (n : Nat) :
    Cut (p + n) s (us.map (Token.shift n)) := by
  obtain ⟨vs, hvs, hcut⟩ := ((lexed_of_tokensFrom h.tokensFrom_eq).shift n).cut
  rw [List.map_append] at hvs
  rwa [(List.append_inj' hvs rfl).1]

theorem Faulty.shift {p : Nat} {s : List Char} {e : SyntaxError} (h : Faulty p s e) (n : Nat) :
    Faulty (p + n) s (e.shift n) := by
  cases h with
  | char hc => exact .char hc
  | @string r p hr =>
    have hend : p + 1 + r.length + n = p + n + 1 + r.length := by omega
    rw [SyntaxError.shift, hend]
    exact .string hr

/-- Moving a text moves its tokens or its fault. -/
theorem tokensFrom_add (p n : Nat) (s : List Char) :
    tokensFrom (p + n) s =
      ((tokensFrom p s).map (List.map (Token.shift n))).mapError (SyntaxError.shift n) := by
  cases h : tokensFrom p s with
  | ok ts => exact ((lexed_of_tokensFrom h).shift n).tokensFrom_eq
  | error e =>
    obtain ⟨a, us, b, rfl, hus, he⟩ := tokensFrom_eq_error.1 h
    refine tokensFrom_eq_error.2 ⟨a, _, b, rfl, hus.shift n, ?_⟩
    rw [Nat.add_right_comm]
    exact he.shift n

/-- The tokens of two sources in a row are those of the first and, moved on, those of the second, unless
a word runs on from one into the other. If the second has a fault, that is moved on. -/
theorem tokenize_append {a b : String} {ts : List Token} (ha : tokenize a = .ok ts)
    (hab : Apart a.toList b.toList) :
    (∀ us, tokenize b = .ok us →
      tokenize (a ++ b) = .ok (ts.dropLast ++ us.map (Token.shift a.length))) ∧
    ∀ e, tokenize b = .error e → tokenize (a ++ b) = .error (e.shift a.length) := by
  obtain ⟨vs, rfl, hvs⟩ := (lexed_of_tokensFrom ha).cut
  have happend := hvs.tokensFrom_append hab
  rw [tokensFrom_add, String.length_toList] at happend
  rw [List.dropLast_concat]
  constructor
  · intro us hus
    rw [tokenize] at hus ⊢
    rw [String.toList_append, happend, hus]
    rfl
  · intro e he
    rw [tokenize] at he ⊢
    rw [String.toList_append, happend, he]
    rfl

/-- The second source starts right after a word. -/
theorem tokenize_append_after_word :
    tokenize "\"é\"keep" = .ok [⟨.string, "é", 0, 3⟩, ⟨.identifier, "keep", 3, 7⟩, .endOfInput 7] ∧
      Apart "\"é\"keep".toList "(x".toList ∧ Apart "\"é\"keep".toList " \"".toList ∧
      tokenize ("\"é\"keep" ++ "(x") = .ok [⟨.string, "é", 0, 3⟩, ⟨.identifier, "keep", 3, 7⟩,
        ⟨.lparen, "(", 7, 8⟩, ⟨.identifier, "x", 8, 9⟩, .endOfInput 9] ∧
      tokenize ("\"é\"keep" ++ " \"") = .error (.unterminatedString 8 9) := by
  have ha : tokenize "\"é\"keep" =
      .ok [⟨.string, "é", 0, 3⟩, ⟨.identifier, "keep", 3, 7⟩, .endOfInput 7] := by cbv
  have hword : Apart "\"é\"keep".toList "(x".toList := by simp [Apart]
  have hopen : Apart "\"é\"keep".toList " \"".toList := by simp [Apart]
  exact ⟨ha, hword, hopen, (tokenize_append ha hword).1
      [⟨.lparen, "(", 0, 1⟩, ⟨.identifier, "x", 1, 2⟩, .endOfInput 2] (by cbv),
    (tokenize_append ha hopen).2 (.unterminatedString 1 2) (by cbv)⟩

end MailSieve.Script
