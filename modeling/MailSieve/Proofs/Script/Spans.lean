import Mathlib.Data.List.Basic
import MailSieve.Proofs.Script.Quotation

/-!
Where tokens stand: their spans lie in order in the text, what is between them is gaps, and each span
is the token as it is written. Nothing else can be said of them, for only the tokens that are read have
these spans.
-/

namespace MailSieve.Script

/-- The code points that a token is read from. -/
def Token.source (cs : List Char) (t : Token) : List Char := (cs.drop t.start).take (t.stop - t.start)

/-- How tokens are written, wherever they stand. -/
inductive Written : Token → List Char → Prop
  | word : w ≠ [] → (∀ c ∈ w, c.isAlpha) → Written ⟨.identifier, .ofList w, p, q⟩ w
  | string : IsBody b → Written ⟨.string, .ofList (unescape b), p, q⟩ ('"' :: (b ++ ['"']))
  | sign : Kind.ofPunctuation? c = some k → Written ⟨k, c.toString, p, q⟩ [c]

/-- A token that a text can have. A word in it takes in all letters around. -/
structure Fits (cs : List Char) (t : Token) : Prop where
  start_lt_stop : t.start < t.stop
  stop_le : t.stop ≤ cs.length
  written : Written t (t.source cs)
  maximal : t.kind = .identifier → (∀ c ∈ (cs.take t.start).getLast?, c.isAlpha = false) ∧
    ∀ c ∈ (cs.drop t.stop).head?, c.isAlpha = false

/-- From `p` on, the text consists of these tokens in turn and of gaps. -/
structure Divides (p : Nat) (cs : List Char) (us : List Token) : Prop where
  from_le : ∀ t ∈ us, p ≤ t.start
  fits : ∀ t ∈ us, Fits cs t
  ordered : us.Pairwise fun t u => t.stop ≤ u.start
  gaps : ∀ i c, p ≤ i → cs[i]? = some c → (∀ t ∈ us, i < t.start ∨ t.stop ≤ i) → isGap c

theorem not_isAlpha_of_isGap {c : Char} (h : isGap c) : c.isAlpha = false := by
  by_contra ha
  rw [not_isGap_of_isAlpha (by simpa using ha)] at h
  cases h

theorem Written.ne_nil {t : Token} {w : List Char} (h : Written t w) : w ≠ [] := by
  cases h with
  | word hne => exact hne
  | string | sign => simp

theorem Written.kind_ne_eof {t : Token} {w : List Char} (h : Written t w) : t.kind ≠ .eof := by
  cases h with
  | word | string => simp
  | sign hk => exact ofPunctuation?_ne_eof hk

/-- Only what is written as a word starts or ends in a letter, and a word is made of letters. -/
theorem Written.cases_letters {t : Token} {w : List Char} (h : Written t w) :
    (t.kind = .identifier ∧ ∀ c ∈ w, c.isAlpha) ∨
      (t.kind ≠ .identifier ∧ (∀ c ∈ w.head?, c.isAlpha = false) ∧
        ∀ c ∈ w.getLast?, c.isAlpha = false) := by
  cases h with
  | word _ hw => exact .inl ⟨rfl, hw⟩
  | @string b =>
    refine .inr ⟨by simp, by simp, ?_⟩
    rw [← List.cons_append, List.getLast?_concat]
    simp
  | @sign c k _ _ hk =>
    have hkind : k ≠ .identifier := by
      intro e
      subst e
      unfold Kind.ofPunctuation? at hk
      split at hk <;> cases hk
    exact .inr ⟨hkind, by simpa using not_isAlpha_of_sign hk, by simpa using not_isAlpha_of_sign hk⟩

theorem Written.apart_iff {t : Token} {w : List Char} (h : Written t w) (s : List Char) :
    Apart w s ↔ (t.kind = .identifier → ∀ c ∈ s.head?, c.isAlpha = false) := by
  constructor
  · intro hs hk
    obtain ⟨-, hw⟩ | ⟨hne, -⟩ := h.cases_letters
    · exact hs _ (List.getLast_mem_getLast? h.ne_nil) (hw _ (List.getLast_mem h.ne_nil))
    · exact absurd hk hne
  · intro hs c hc ha
    obtain ⟨hk, -⟩ | ⟨-, -, hlast⟩ := h.cases_letters
    · exact hs hk
    · rw [hlast c hc] at ha
      cases ha

theorem Written.apart_append_iff {t : Token} {w : List Char} (h : Written t w) (a s : List Char) :
    Apart a (w ++ s) ↔ (t.kind = .identifier → ∀ c ∈ a.getLast?, c.isAlpha = false) := by
  obtain ⟨d, w', rfl⟩ := List.exists_cons_of_ne_nil h.ne_nil
  obtain ⟨hk, hw⟩ | ⟨hne, hhead, -⟩ := h.cases_letters
  · have hd : d.isAlpha := hw d List.mem_cons_self
    simp [Apart, hk, hd]
  · have hd : d.isAlpha = false := hhead d rfl
    simp [Apart, hne, hd]

theorem Apart.append {w s : List Char} (hw : w ≠ []) (h : Apart w s) (a : List Char) :
    Apart (a ++ w) s := by
  intro c hc
  rw [List.getLast?_append_of_ne_nil a hw] at hc
  exact h c hc

theorem Apart.append_right {w s b : List Char} (hs : Apart w s) (hb : Apart (w ++ s) b) :
    Apart w (s ++ b) := by
  cases s with
  | nil => rwa [List.append_nil] at hb
  | cons d s => exact hs

theorem Apart.of_append_right {w a b : List Char} (h : Apart w (a ++ b)) : Apart w a := by
  intro c hc ha d hd
  exact h c hc ha d (by rw [List.head?_append, hd]; rfl)

theorem apart_of_not_isAlpha {c : Char} (hc : c.isAlpha = false) (a s : List Char) :
    Apart (a ++ [c]) s := by
  intro d hd ha
  obtain rfl : c = d := by simpa using hd
  rw [hc] at ha
  cases ha

/-- The tokens of a text that starts at a position, one rule for all of them. -/
inductive Cut : Nat → List Char → List Token → Prop
  | nil : Cut p [] []
  | gap : isGap c → Cut (p + 1) s us → Cut p (c :: s) us
  | token : Written t w → t.start = p → t.stop = p + w.length → Apart w s → Cut t.stop s us →
    Cut p (w ++ s) (t :: us)

theorem Written.tokensFrom_eq {t : Token} {w s : List Char} (hw : Written t w)
    (hstop : t.stop = t.start + w.length) (hs : Apart w s) :
    tokensFrom t.start (w ++ s) = (tokensFrom t.stop s).map (t :: ·) := by
  have hnext := (hw.apart_iff s).1 hs
  cases hw with
  | @word w p q hne hw =>
    dsimp only at hstop
    subst hstop
    exact tokensFrom_word hw hne (hnext rfl) p
  | @string b p q hb =>
    have hq : q = p + 1 + ((b ++ '"' :: s).length - s.length) := by
      simp only [List.length_cons, List.length_append, List.length_nil] at hstop ⊢
      omega
    subst hq
    simpa using tokensFrom_string (readString_of_isBody hb s) p
  | @sign c k p q hk =>
    dsimp only [List.length_singleton] at hstop
    subst hstop
    exact tokensFrom_sign hk p s

/-- The tokens of a text go on with those of another, also if the other has a fault. -/
theorem Cut.tokensFrom_append {p : Nat} {a : List Char} {us : List Token} (ha : Cut p a us)
    {b : List Char} (hab : Apart a b) :
    tokensFrom p (a ++ b) = (tokensFrom (p + a.length) b).map (us ++ ·) := by
  induction ha with
  | @nil p =>
    change tokensFrom p b = (tokensFrom p b).map _
    cases tokensFrom p b <;> rfl
  | @gap c p a us hc _ ih =>
    rw [List.cons_append, tokensFrom_gap hc, ih (hab.of_append (a := [c])), List.length_cons,
      Nat.add_right_comm, Nat.add_assoc]
  | @token t w p a us hw hstart hstop hs _ ih =>
    subst hstart
    rw [List.append_assoc, hw.tokensFrom_eq hstop (hs.append_right hab), ih hab.of_append, hstop,
      List.length_append, Nat.add_assoc]
    cases tokensFrom (t.start + (w.length + a.length)) b <;> rfl

theorem Cut.tokensFrom_eq {p : Nat} {s : List Char} {us : List Token} (h : Cut p s us) :
    tokensFrom p s = .ok (us ++ [.endOfInput (p + s.length)]) := by
  have happart : Apart s [] := by simp [Apart]
  have hend := h.tokensFrom_append happart
  rwa [List.append_nil, tokensFrom] at hend

theorem Lexed.cut {p : Nat} {s : List Char} {ts : List Token} (h : Lexed p s ts) :
    ∃ us, ts = us ++ [.endOfInput (p + s.length)] ∧ Cut p s us := by
  induction h with
  | nil => exact ⟨[], rfl, .nil⟩
  | @gap c p s ts hc _ ih =>
    obtain ⟨us, rfl, hus⟩ := ih
    exact ⟨us, by rw [List.length_cons, Nat.add_right_comm, Nat.add_assoc], .gap hc hus⟩
  | @word w p s ts hne hw hs _ ih =>
    obtain ⟨us, rfl, hus⟩ := ih
    have hword : Written ⟨.identifier, .ofList w, p, p + w.length⟩ w := .word hne hw
    refine ⟨_ :: us, ?_, .token hword rfl rfl ((hword.apart_iff s).2 fun _ => hs) hus⟩
    rw [List.length_append, ← Nat.add_assoc, List.cons_append]
  | @string r a s p ts hr _ ih =>
    obtain ⟨us, rfl, hus⟩ := ih
    obtain ⟨b, rfl, hb, rfl⟩ := readString_eq_some.1 hr
    have hstring : Written ⟨.string, .ofList (unescape b), p,
        p + 1 + ((b ++ '"' :: s).length - s.length)⟩ ('"' :: (b ++ ['"'])) := .string hb
    have hcut := Cut.token hstring rfl (by simp; omega) ((hstring.apart_iff s).2 nofun) hus
    have hend : p + ('"' :: (b ++ '"' :: s)).length =
        p + 1 + ((b ++ '"' :: s).length - s.length) + s.length := by
      simp
      omega
    exact ⟨_ :: us, by rw [hend, List.cons_append], by simpa using hcut⟩
  | @sign c k p s ts hk _ ih =>
    obtain ⟨us, rfl, hus⟩ := ih
    have hsign : Written ⟨k, c.toString, p, p + 1⟩ [c] := .sign hk
    have happart : Apart [c] s := apart_of_not_isAlpha (not_isAlpha_of_sign hk) [] s
    refine ⟨_ :: us, ?_, .token hsign rfl rfl happart hus⟩
    rw [List.length_cons, Nat.add_right_comm, Nat.add_assoc, List.cons_append]

theorem source_append {t : Token} {pre w : List Char} (hstart : t.start = pre.length)
    (hstop : t.stop = t.start + w.length) (s : List Char) : t.source (pre ++ (w ++ s)) = w := by
  rw [Token.source, hstart, List.drop_left, hstop, hstart, Nat.add_sub_cancel_left, List.take_left]

/-- A token stands where it is written, away from other letters if it is a word. -/
theorem fits_append {t : Token} {pre w s : List Char} (hw : Written t w)
    (hstart : t.start = pre.length) (hstop : t.stop = t.start + w.length)
    (hpre : Apart pre (w ++ s)) (hs : Apart w s) : Fits (pre ++ (w ++ s)) t where
  start_lt_stop := by
    have hpos := List.length_pos_iff.2 hw.ne_nil
    omega
  stop_le := by
    rw [hstop, hstart, List.length_append, List.length_append]
    omega
  written := by rwa [source_append hstart hstop]
  maximal := by
    intro hk
    have hdrop : (pre ++ (w ++ s)).drop t.stop = s := by
      rw [← List.append_assoc]
      exact List.drop_left' (by rw [hstop, hstart, List.length_append])
    rw [hstart, List.take_left, hdrop]
    exact ⟨(hw.apart_append_iff pre s).1 hpre hk, (hw.apart_iff s).1 hs hk⟩

theorem divides_end (cs : List Char) : Divides cs.length cs [] where
  from_le := by simp
  fits := by simp
  ordered := .nil
  gaps := by
    intro i c hi hc
    rw [List.getElem?_eq_none hi] at hc
    cases hc

/-- A place where no token starts is a gap. -/
theorem divides_gap {p : Nat} {cs : List Char} {us : List Token} {c : Char} (hc : cs[p]? = some c)
    (hus : ∀ t ∈ us, t.start ≠ p) : Divides p cs us ↔ isGap c ∧ Divides (p + 1) cs us := by
  constructor
  · intro h
    have hlt : ∀ t ∈ us, p < t.start := fun t ht =>
      Nat.lt_of_le_of_ne (h.from_le t ht) (hus t ht).symm
    exact ⟨h.gaps p c (Nat.le_refl p) hc fun t ht => .inl (hlt t ht), hlt, h.fits, h.ordered,
      fun i d hi => h.gaps i d (Nat.le_of_succ_le hi)⟩
  · rintro ⟨hgap, h⟩
    refine ⟨fun t ht => Nat.le_of_succ_le (h.from_le t ht), h.fits, h.ordered, ?_⟩
    intro i d hi hd hout
    obtain rfl | hi := Nat.eq_or_lt_of_le hi
    · rw [hc] at hd
      cases hd
      exact hgap
    · exact h.gaps i d hi hd hout

/-- After a token the text goes on where the token stops. -/
theorem divides_cons {cs : List Char} {t : Token} {us : List Token} :
    Divides t.start cs (t :: us) ↔ Fits cs t ∧ Divides t.stop cs us := by
  constructor
  · intro h
    have hnext := List.pairwise_cons.1 h.ordered
    refine ⟨h.fits t List.mem_cons_self, hnext.1,
      fun u hu => h.fits u (List.mem_cons_of_mem t hu), hnext.2, fun i c hi hc hout => ?_⟩
    have ht := (h.fits t List.mem_cons_self).start_lt_stop
    refine h.gaps i c (by omega) hc ?_
    exact List.forall_mem_cons.2 ⟨.inr hi, hout⟩
  · rintro ⟨ht, h⟩
    have hlt := ht.start_lt_stop
    have hle : ∀ u ∈ us, t.start ≤ u.start := by
      intro u hu
      have := h.from_le u hu
      omega
    refine ⟨List.forall_mem_cons.2 ⟨Nat.le_refl _, hle⟩, List.forall_mem_cons.2 ⟨ht, h.fits⟩,
      List.pairwise_cons.2 ⟨h.from_le, h.ordered⟩, fun i c hi hc hout => ?_⟩
    obtain ⟨ht, hout⟩ := List.forall_mem_cons.1 hout
    exact h.gaps i c (by omega) hc hout

theorem Cut.divides {p : Nat} {s : List Char} {us : List Token} (h : Cut p s us)
    (pre : List Char) (hp : p = pre.length) (hpre : Apart pre s) : Divides p (pre ++ s) us := by
  induction h generalizing pre with
  | nil =>
    subst hp
    simpa using divides_end pre
  | @gap c p s us hc _ ih =>
    subst hp
    have hus := ih (pre ++ [c]) (by simp) (apart_of_not_isAlpha (not_isAlpha_of_isGap hc) pre s)
    rw [List.append_assoc, List.singleton_append] at hus
    have hne : ∀ t ∈ us, t.start ≠ pre.length := fun t ht => Nat.ne_of_gt (hus.from_le t ht)
    exact (divides_gap (by simp) hne).2 ⟨hc, hus⟩
  | @token t w p s us hw hstart hstop hs _ ih =>
    have hus := ih (pre ++ w) (by rw [hstop, hp, List.length_append]) (hs.append hw.ne_nil pre)
    rw [List.append_assoc] at hus
    subst hstart
    exact divides_cons.2 ⟨fits_append hw hp hstop hpre hs, hus⟩

/-- A token cuts the text that follows its start in two. -/
theorem Fits.exists_append {t : Token} {pre s : List Char} (h : Fits (pre ++ s) t)
    (hstart : t.start = pre.length) : ∃ w s', s = w ++ s' ∧ Written t w ∧
      t.stop = pre.length + w.length ∧ Apart w s' := by
  have hlt := h.start_lt_stop
  have hle := h.stop_le
  rw [List.length_append] at hle
  have hsource : t.source (pre ++ s) = s.take (t.stop - t.start) := by
    rw [Token.source, hstart, List.drop_left]
  have hw := h.written
  rw [hsource] at hw
  have hdrop : (pre ++ s).drop t.stop = s.drop (t.stop - t.start) := by
    rw [List.drop_append, List.drop_eq_nil_of_le (by omega), List.nil_append, hstart]
  refine ⟨_, _, (List.take_append_drop (t.stop - t.start) s).symm, hw, ?_, ?_⟩
  · rw [List.length_take]
    omega
  · rw [hw.apart_iff, ← hdrop]
    exact fun hk => (h.maximal hk).2

theorem Divides.eq_nil {cs : List Char} {us : List Token} (h : Divides cs.length cs us) :
    us = [] := by
  refine List.eq_nil_iff_forall_not_mem.2 fun t ht => ?_
  have hle := h.from_le t ht
  have hlt := (h.fits t ht).start_lt_stop
  have hstop := (h.fits t ht).stop_le
  omega

/-- If the first token does not start here, none does. -/
theorem Divides.start_ne {p : Nat} {cs : List Char} {us : List Token} (h : Divides p cs us)
    (hfirst : ∀ t ∈ us.head?, t.start ≠ p) : ∀ t ∈ us, t.start ≠ p := by
  cases us with
  | nil => simp
  | cons t us =>
    have hle := h.from_le t List.mem_cons_self
    have hlt := (h.fits t List.mem_cons_self).start_lt_stop
    refine List.forall_mem_cons.2 ⟨hfirst t rfl, fun u hu => ?_⟩
    have hnext := (List.pairwise_cons.1 h.ordered).1 u hu
    omega

theorem Divides.cut (pre : List Char) {s : List Char} {us : List Token}
    (h : Divides pre.length (pre ++ s) us) : Cut pre.length s us := by
  induction hn : s.length using Nat.strongRecOn generalizing pre s us with
  | _ n ih =>
    by_cases hfirst : ∀ t ∈ us.head?, t.start ≠ pre.length
    · -- no token starts here, so the text ends here or goes on with a gap
      cases s with
      | nil =>
        rw [List.append_nil] at h
        rw [h.eq_nil]
        exact .nil
      | cons c s =>
        have hc : (pre ++ c :: s)[pre.length]? = some c := by simp
        obtain ⟨hgap, hus⟩ := (divides_gap hc (h.start_ne hfirst)).1 h
        rw [List.append_cons] at hus
        have hcut := ih s.length (by simp [← hn]) (pre ++ [c]) (by simpa using hus) rfl
        exact .gap hgap (by simpa using hcut)
    · obtain ⟨t, vs, rfl, hstart⟩ : ∃ t vs, us = t :: vs ∧ t.start = pre.length := by
        cases us <;> simp_all
      obtain ⟨ht, hvs⟩ := divides_cons.1 (hstart ▸ h)
      obtain ⟨w, s, rfl, hw, hstop, hs⟩ := ht.exists_append hstart
      have hpos := List.length_pos_iff.2 hw.ne_nil
      rw [← List.append_assoc, hstop, ← List.length_append] at hvs
      have hcut := ih s.length (by rw [← hn, List.length_append]; omega) (pre ++ w) hvs rfl
      rw [List.length_append, ← hstop] at hcut
      exact .token hw hstart hstop hs hcut

/-- A source is read as tokens if and only if it consists of them and of gaps: their spans are in turn
and apart, each is the token as it is written, and no word is cut. The end of the input is the last. -/
theorem tokenize_eq_ok_iff_divides (source : String) (ts : List Token) :
    tokenize source = .ok ts ↔ ∃ us, ts = us ++ [⟨.eof, "", source.length, source.length⟩] ∧
      (∀ t ∈ us, t.kind ≠ .eof) ∧ Divides 0 source.toList us := by
  rw [tokenize, ← String.length_toList]
  constructor
  · intro h
    obtain ⟨us, rfl, hus⟩ := (lexed_of_tokensFrom h).cut
    rw [Nat.zero_add]
    have hdivides := hus.divides [] rfl (by simp [Apart])
    exact ⟨us, rfl, fun t ht => (hdivides.fits t ht).written.kind_ne_eof, hdivides⟩
  · rintro ⟨us, rfl, -, h⟩
    have hts := (Divides.cut [] h).tokensFrom_eq
    rwa [List.length_nil, Nat.zero_add] at hts

end MailSieve.Script
