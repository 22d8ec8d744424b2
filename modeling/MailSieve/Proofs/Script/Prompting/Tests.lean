import MailSieve.Proofs.Script.Reading

/-!
The productions of strings, tags and tests keep to the yields of their phrases: each reads a part of one,
and where it is stuck, a phrase goes on with each token that it expects.
-/

namespace MailSieve.Script

/-- The languages of single tokens, by their kind. -/
def single (k : Kind) : Set (List Lexeme) := { ls | ∃ t : Token, t.kind = k ∧ ls = [t.lexeme] }

theorem single_nonempty (k : Kind) : (single k).Nonempty := ⟨_, ⟨k, "", 0, 0⟩, rfl, rfl⟩

theorem single_of_string {ls : List Lexeme} (h : ls ∈ single .string) : ∃ s, ls = [.string s] := by
  obtain ⟨t, ht, rfl⟩ := h
  exact ⟨t.text, by simp [ht]⟩

theorem single_of_sign {k : Kind} (hk : k ≠ .identifier ∧ k ≠ .string) {ls : List Lexeme}
    (h : ls ∈ single k) : ls = [.sign k] := by
  obtain ⟨t, ht, rfl⟩ := h
  simp [lexeme_eq_sign, ht, hk]

theorem reads_expect {n : Nat} (k : Kind) (ts : List Token) :
    Reads n (single k) (expect k ts) (fun _ => expect k) ts := by
  have hprompts : Prompts (single k) [.kind k] [] :=
    prompts_of (by simp) (by simpa using ⟨[], _, rfl, rfl⟩)
  cases ts with
  | nil => exact .nil rfl hprompts fun _ => rfl
  | cons t r =>
    have hcons (r : List Token) : expect k (t :: r) = if t.kind = k then _ else _ := rfl
    by_cases hk : t.kind = k
    · simp only [hk, if_true] at hcons
      rw [hcons]
      exact .token rfl ⟨t, hk, rfl⟩ fun _ => hcons
    · simp only [hk, if_false] at hcons
      rw [hcons]
      exact .here rfl hprompts fun _ => hcons

/-- The language of what follows the first string in brackets. -/
def listEnds : Set (List Lexeme) :=
  Set.range fun ss => Phrase.moreStrings ss ++ [.sign .rbracket]

theorem listEnds_nonempty : listEnds.Nonempty := ⟨_, [], rfl⟩

theorem moreStrings_cons (t : Token) (r : List Token) :
    moreStrings (t :: r) =
      if t.kind = .rbracket then .ok ([], r)
      else if t.kind = .comma then
        expect .string r >>= fun p => moreStrings p.2 >>= fun q => .ok (p.1.text :: q.1, q.2)
      else stuck [.kind .rbracket, .kind .comma] (t :: r) := by
  cases r with
  | nil => rw [moreStrings, expect]; rfl
  | cons s r =>
    rw [moreStrings, expect]
    split
    · rfl
    · split
      · split <;> rfl
      · rfl

theorem reads_moreStrings {n : Nat} (ts : List Token) :
    Reads n listEnds (moreStrings ts) (fun _ => moreStrings) ts := by
  have hprompts : Prompts listEnds [.kind .rbracket, .kind .comma] [] :=
    prompts_of (by simp) (by simpa using ⟨⟨_, [], rfl⟩, _, [""], rfl⟩)
  cases ts with
  | nil => exact .nil rfl hprompts fun _ => by rw [moreStrings]
  | cons t r =>
    have hcons (r : List Token) := moreStrings_cons t r
    by_cases hk : t.kind = .rbracket
    · simp only [hk, if_true] at hcons
      rw [hcons]
      exact .token (lexeme_eq_sign.2 ⟨hk, by decide⟩) ⟨[], rfl⟩ fun _ => hcons
    simp only [hk, if_false] at hcons
    by_cases hc : t.kind = .comma
    · simp only [hc, if_true] at hcons
      rw [hcons]
      refine .cons (lexeme_eq_sign.2 ⟨hc, by decide⟩) ((reads_expect .string r).seq
        listEnds_nonempty fun s us r' hr _ => (reads_moreStrings r').map fun ss => s.text :: ss)
        ?_ fun _ => hcons
      rintro _ ⟨_, hs, _, ⟨ss, rfl⟩, rfl⟩
      obtain ⟨s, rfl⟩ := single_of_string hs
      exact ⟨s :: ss, rfl⟩
    · simp only [hc, if_false] at hcons
      rw [hcons]
      exact .here rfl hprompts fun _ => hcons
termination_by ts.length
decreasing_by
  rw [hr, List.length_cons, List.length_append]
  omega

/-- The language of strings and lists of them. -/
def lists : Set (List Lexeme) := Set.range Phrase.Strings.yield

theorem lists_nonempty : lists.Nonempty := ⟨_, .bare "", rfl⟩

theorem strings_cons (t : Token) (r : List Token) :
    strings (t :: r) =
      if t.kind = .string then .ok ([t.text], r)
      else if t.kind = .lbracket then
        expect .string r >>= fun p => moreStrings p.2 >>= fun q => .ok (p.1.text :: q.1, q.2)
      else stuck [.kind .string, .kind .lbracket] (t :: r) :=
  rfl

theorem prompts_lists : Prompts lists [.kind .string, .kind .lbracket] [] :=
  prompts_of (by simp) (by simpa using ⟨⟨_, .bare "", rfl⟩, _, .listed "" [], rfl⟩)

theorem reads_strings {n : Nat} (ts : List Token) :
    Reads n lists (strings ts) (fun _ => strings) ts := by
  cases ts with
  | nil => exact .nil rfl prompts_lists fun _ => rfl
  | cons t r =>
    have hcons (r : List Token) := strings_cons t r
    by_cases hs : t.kind = .string
    · simp only [hs, if_true] at hcons
      rw [hcons]
      exact .token (lexeme_eq_string.2 ⟨hs, rfl⟩) ⟨.bare t.text, rfl⟩ fun _ => hcons
    simp only [hs, if_false] at hcons
    by_cases hb : t.kind = .lbracket
    · simp only [hb, if_true] at hcons
      rw [hcons]
      refine .cons (lexeme_eq_sign.2 ⟨hb, by decide⟩) ((reads_expect .string r).seq
        listEnds_nonempty fun s us r' _ _ => (reads_moreStrings r').map fun ss => s.text :: ss)
        ?_ fun _ => hcons
      rintro _ ⟨_, hs, _, ⟨ss, rfl⟩, rfl⟩
      obtain ⟨s, rfl⟩ := single_of_string hs
      exact ⟨.listed s ss, rfl⟩
    · simp only [hb, if_false] at hcons
      rw [hcons]
      exact .here rfl prompts_lists fun _ => hcons

/-- The language of an optional tag. -/
def tags (write : α → String) : Set (List Lexeme) := Set.range fun o : Option α => Phrase.tag (o.map write)

theorem tags_nonempty (write : α → String) : (tags write).Nonempty := ⟨_, none, rfl⟩

theorem readTag_cons (read : String → Option α) (c t : Token) (r : List Token) :
    readTag read (c :: t :: r) =
      match if c.kind = .colon ∧ t.kind = .identifier then read t.text else none with
      | some a => (some a, r)
      | none => (none, c :: t :: r) := by
  simp only [readTag, Bool.and_eq_true, decide_eq_true_iff]
  split <;> rfl

theorem readTag_of_alike {read : String → Option α} {ts s : List Token} (h : Alike ts s)
    (hts : (readTag read ts).1 = none) : readTag read s = (none, s) := by
  cases h with
  | nil => rfl
  | @head c r s hk =>
    cases s with
    | nil => rfl
    | cons t s => simp [readTag_cons, hk]
  | @pair c r s hhead =>
    cases s with
    | nil => rfl
    | cons t s =>
      obtain ⟨r, rfl⟩ : ∃ r', r = t :: r' := by
        cases r <;> simp_all
      rw [readTag_cons] at hts ⊢
      split at hts <;> simp_all

theorem readTag_cases (read : String → Option α) (ts : List Token) :
    (readTag read ts).1 = none ∨ ∃ c t r a, ts = c :: t :: r ∧ c.kind = .colon ∧
      t.kind = .identifier ∧ read t.text = some a ∧
      ∀ s, readTag read (c :: t :: s) = (some a, s) := by
  match ts with
  | [] => exact .inl rfl
  | [c] => exact .inl rfl
  | c :: t :: r =>
    by_cases hk : c.kind = .colon ∧ t.kind = .identifier
    · cases ha : read t.text with
      | none => exact .inl (by simp [readTag_cons, ha])
      | some a => exact .inr ⟨c, t, r, a, rfl, hk.1, hk.2, ha, fun s => by simp [readTag_cons, hk, ha]⟩
    · exact .inl (by simp [readTag_cons, hk])

/-- Reading an optional tag, as a production that is never stuck. -/
def optionalTag (read : String → Option α) (ts : List Token) :
    Except Stuck (Option α × List Token) :=
  .ok (readTag read ts)

theorem reads_optionalTag {n : Nat} {read : String → Option α} {write : α → String}
    (h : ∀ w a, read w = some a → w = write a) (ts : List Token) :
    Reads n (tags write) (optionalTag read ts) (fun _ => optionalTag read) ts := by
  obtain hnone | ⟨c, t, r, a, rfl, hc, ht, ha, hsome⟩ := readTag_cases read ts
  · have hread {s : List Token} (hs : Alike ts s) : optionalTag read s = .ok (none, s) :=
      congrArg Except.ok (readTag_of_alike hs hnone)
    rw [hread (.refl ts)]
    exact ⟨[], rfl, ⟨none, rfl⟩, fun m s hs _ => hread hs⟩
  · have hread (s : List Token) : optionalTag read (c :: t :: s) = .ok (some a, s) :=
      congrArg Except.ok (hsome s)
    rw [hread]
    refine Reads.prepend [c, t] (.pure ⟨some a, ?_⟩) fun _ => hread
    simp [lexeme_eq_sign.2 ⟨hc, by decide⟩, lexeme_eq_word.2 ⟨ht, h _ _ ha⟩, Phrase.tag]

def comparators : Set (List Lexeme) := Set.range Phrase.comparator

theorem reads_comparator {n : Nat} (ts : List Token) :
    Reads n comparators (comparator ts) (fun _ => comparator) ts := by
  obtain hnone | ⟨c, t, r, a, rfl, hc, ht, ha, hsome⟩ :=
    readTag_cases (fun w => if w = "comparator" then some () else none) ts
  · have hread {s : List Token} (hs : Alike ts s) : comparator s = .ok (none, s) := by
      simp only [comparator, readTag_of_alike hs hnone]
    rw [hread (.refl ts)]
    exact ⟨[], rfl, ⟨none, rfl⟩, fun m s hs _ => hread hs⟩
  · have hread (s : List Token) : comparator (c :: t :: s) =
        expect .string s >>= fun p => .ok (some p.1.text, p.2) := by
      simp only [comparator, hsome]
      rfl
    rw [hread]
    refine Reads.prepend [c, t] (((reads_expect .string r).map fun s => some s.text).mono ?_)
      fun _ => hread
    intro ls hls
    obtain ⟨s, rfl⟩ := single_of_string hls
    have hw : t.text = "comparator" := by simpa using ha
    exact ⟨some s, by simp [lexeme_eq_sign.2 ⟨hc, by decide⟩, lexeme_eq_word.2 ⟨ht, hw⟩,
      Phrase.comparator]⟩

def headers : Set (List Lexeme) :=
  joined comparators (joined (tags MatchType.tag) (joined lists lists))

theorem headerTest_eq : headerTest = fun ts => comparator ts >>= fun c =>
    optionalTag MatchType.ofTag? c.2 >>= fun m => strings m.2 >>= fun hs =>
    strings hs.2 >>= fun ks => .ok (.header ⟨c.1, m.1, hs.1, ks.1⟩, ks.2) :=
  rfl

theorem reads_headerTest {n : Nat} (ts : List Token) :
    Reads n headers (headerTest ts) (fun _ => headerTest) ts := by
  rw [headerTest_eq]
  have hlists := joined_nonempty lists_nonempty lists_nonempty
  have htags := joined_nonempty (tags_nonempty MatchType.tag) hlists
  refine (reads_comparator ts).seq htags fun c _ r _ _ => ?_
  dsimp only
  refine (reads_optionalTag matchType_eq_of_tag r).seq hlists fun m _ r _ _ => ?_
  dsimp only
  refine (reads_strings r).seq lists_nonempty fun hs _ r _ _ => ?_
  exact (reads_strings r).map fun ks => Test.header ⟨c, m, hs, ks⟩

def addresses : Set (List Lexeme) :=
  joined comparators (joined (tags AddressPart.tag) (joined (tags MatchType.tag) (joined lists lists)))

theorem addressTest_eq : addressTest = fun ts => comparator ts >>= fun c =>
    optionalTag AddressPart.ofTag? c.2 >>= fun p =>
    optionalTag MatchType.ofTag? p.2 >>= fun m => strings m.2 >>= fun hs =>
    strings hs.2 >>= fun ks => .ok (.address ⟨c.1, p.1, m.1, hs.1, ks.1⟩, ks.2) :=
  rfl

theorem reads_addressTest {n : Nat} (ts : List Token) :
    Reads n addresses (addressTest ts) (fun _ => addressTest) ts := by
  rw [addressTest_eq]
  have hlists := joined_nonempty lists_nonempty lists_nonempty
  have hmatch := joined_nonempty (tags_nonempty MatchType.tag) hlists
  have hpart := joined_nonempty (tags_nonempty AddressPart.tag) hmatch
  refine (reads_comparator ts).seq hpart fun c _ r _ _ => ?_
  dsimp only
  refine (reads_optionalTag part_eq_of_tag r).seq hmatch fun p _ r _ _ => ?_
  dsimp only
  refine (reads_optionalTag matchType_eq_of_tag r).seq hlists fun m _ r _ _ => ?_
  dsimp only
  refine (reads_strings r).seq lists_nonempty fun hs _ r _ _ => ?_
  exact (reads_strings r).map fun ks => Test.address ⟨c, p, m, hs, ks⟩

def tests : Set (List Lexeme) := Set.range Phrase.Test.yield

theorem tests_nonempty : tests.Nonempty := ⟨_, .header none none (.bare "") (.bare ""), rfl⟩

/-- The language of what follows the first test in parentheses. -/
def testEnds : Set (List Lexeme) :=
  Set.range fun ds => Phrase.moreTests ds ++ [.sign .rparen]

theorem testEnds_nonempty : testEnds.Nonempty := ⟨_, [], rfl⟩

def testLists : Set (List Lexeme) := joined (single .lparen) (joined tests testEnds)

theorem test_nil (n : Nat) : test (n + 1) [] = stuck [.kind .identifier] [] := by
  simp [test, testWord]
  rfl

theorem test_cons (n : Nat) (t : Token) (r : List Token) :
    test (n + 1) (t :: r) =
      if t.kind = .identifier then
        if t.text = "header" then headerTest r
        else if t.text = "address" then addressTest r
        else if t.text = "allof" then testList n r >>= fun us => .ok (.allof us.1, us.2)
        else if t.text = "anyof" then testList n r >>= fun us => .ok (.anyof us.1, us.2)
        else stuck (testWords.map .word) (t :: r)
      else stuck [.kind .identifier] (t :: r) := by
  rw [test, testWord]
  split
  · by_cases hw : t.text ∈ testWords
    · rw [if_pos hw]
      simp only [ok_bind]
      simp only [testWords, List.mem_cons, List.not_mem_nil, or_false] at hw
      obtain hw | hw | hw | hw := hw <;> simp only [hw] <;> rfl
    · rw [if_neg hw]
      simp only [testWords, List.mem_cons, List.not_mem_nil, or_false, not_or] at hw
      simp only [hw, if_false]
      rfl
  · rfl

theorem testList_succ (n : Nat) : testList (n + 1) = fun ts => expect .lparen ts >>= fun p =>
    test n p.2 >>= fun u => moreTests n u.2 >>= fun us => .ok (u.1 :: us.1, us.2) := by
  funext ts
  rw [testList]
  rfl

theorem moreTests_cons (n : Nat) (t : Token) (r : List Token) :
    moreTests (n + 1) (t :: r) =
      if t.kind = .rparen then .ok ([], r)
      else if t.kind = .comma then
        test n r >>= fun u => moreTests n u.2 >>= fun us => .ok (u.1 :: us.1, us.2)
      else stuck [.kind .rparen, .kind .comma] (t :: r) := by
  rw [moreTests]
  rfl

/-- Reading something leaves fuel enough for what follows. -/
theorem fuel_after {n : Nat} {ts us r : List Token} (h : ts.length < n + 1) (hts : ts = us ++ r)
    (hus : us ≠ []) : 1 - us.length = 0 ∧ r.length < n := by
  have hpos : 0 < us.length := List.length_pos_iff.2 hus
  rw [hts, List.length_append] at h
  omega

theorem ne_nil_of_single {us : List Token} {k : Kind} (h : us.map Token.lexeme ∈ single k) :
    us ≠ [] := by
  rintro rfl
  obtain ⟨t, -, h⟩ := h
  cases h

theorem prompts_test_identifier : Prompts tests [.kind .identifier] [] := by
  refine ⟨by simp, ?_⟩
  simp only [List.mem_singleton, forall_eq]
  exact ⟨⟨.identifier, "header", 0, 0⟩, _, rfl, .header none none (.bare "") (.bare ""), rfl⟩

theorem prompts_test_words : Prompts tests (testWords.map .word) [] := by
  apply prompts_of (by simp [testWords])
  simp only [testWords, List.map_cons, List.map_nil, List.forall_mem_cons]
  have t : Phrase.Test := .header none none (.bare "") (.bare "")
  exact ⟨⟨_, .header none none (.bare "") (.bare ""), rfl⟩,
    ⟨_, .address none none none (.bare "") (.bare ""), rfl⟩, ⟨_, .allof t [], rfl⟩,
    ⟨_, .anyof t [], rfl⟩, by simp⟩

theorem prompts_testEnds : Prompts testEnds [.kind .rparen, .kind .comma] [] := by
  apply prompts_of (by simp)
  simp only [List.forall_mem_cons]
  have t : Phrase.Test := .header none none (.bare "") (.bare "")
  exact ⟨⟨_, [], rfl⟩, ⟨_, [t], rfl⟩, by simp⟩

theorem header_mem : ∀ ls ∈ headers, .word "header" :: ls ∈ tests := by
  rintro _ ⟨_, ⟨c, rfl⟩, _, ⟨_, ⟨m, rfl⟩, _, ⟨_, ⟨hs, rfl⟩, _, ⟨ks, rfl⟩, rfl⟩, rfl⟩, rfl⟩
  exact ⟨.header c m hs ks, rfl⟩

theorem address_mem : ∀ ls ∈ addresses, .word "address" :: ls ∈ tests := by
  rintro _ ⟨_, ⟨c, rfl⟩, _, ⟨_, ⟨p, rfl⟩, _, ⟨_, ⟨m, rfl⟩, _, ⟨_, ⟨hs, rfl⟩, _, ⟨ks, rfl⟩, rfl⟩,
    rfl⟩, rfl⟩, rfl⟩
  exact ⟨.address c p m hs ks, rfl⟩

theorem exists_of_testLists {ls : List Lexeme} (h : ls ∈ testLists) :
    ∃ (d : Phrase.Test) (ds : List Phrase.Test),
      ls = .sign .lparen :: (d.yield ++ (Phrase.moreTests ds ++ [.sign .rparen])) := by
  obtain ⟨_, hp, _, ⟨_, ⟨d, rfl⟩, _, ⟨ds, rfl⟩, rfl⟩, rfl⟩ := h
  rw [single_of_sign (by decide) hp]
  exact ⟨d, ds, rfl⟩

theorem allof_mem : ∀ ls ∈ testLists, .word "allof" :: ls ∈ tests := by
  intro ls h
  obtain ⟨d, ds, rfl⟩ := exists_of_testLists h
  exact ⟨.allof d ds, rfl⟩

theorem anyof_mem : ∀ ls ∈ testLists, .word "anyof" :: ls ∈ tests := by
  intro ls h
  obtain ⟨d, ds, rfl⟩ := exists_of_testLists h
  exact ⟨.anyof d ds, rfl⟩

mutual

theorem reads_test : ∀ (n : Nat) (ts : List Token), ts.length < n →
    Reads 0 tests (test n ts) test ts
  | 0, ts, h => absurd h (Nat.not_lt_zero _)
  | n + 1, [], h => by
    rw [test_nil]
    exact .step (.nil rfl prompts_test_identifier fun m => test_nil m)
  | n + 1, t :: r, h => by
    apply Reads.step
    have hr : r.length < n := Nat.lt_of_succ_lt_succ h
    have hcons (n : Nat) (r : List Token) := test_cons n t r
    by_cases hk : t.kind = .identifier
    · simp only [hk, if_true] at hcons
      by_cases hh : t.text = "header"
      · simp only [hh, if_true] at hcons
        rw [hcons]
        exact .cons (lexeme_eq_word.2 ⟨hk, hh⟩) (reads_headerTest r) header_mem hcons
      simp only [hh, if_false] at hcons
      by_cases ha : t.text = "address"
      · simp only [ha, if_true] at hcons
        rw [hcons]
        exact .cons (lexeme_eq_word.2 ⟨hk, ha⟩) (reads_addressTest r) address_mem hcons
      simp only [ha, if_false] at hcons
      by_cases hl : t.text = "allof"
      · simp only [hl, if_true] at hcons
        rw [hcons]
        exact .cons (lexeme_eq_word.2 ⟨hk, hl⟩) ((reads_testList n r hr).map Test.allof) allof_mem hcons
      simp only [hl, if_false] at hcons
      by_cases ho : t.text = "anyof"
      · simp only [ho, if_true] at hcons
        rw [hcons]
        exact .cons (lexeme_eq_word.2 ⟨hk, ho⟩) ((reads_testList n r hr).map Test.anyof) anyof_mem hcons
      simp only [ho, if_false] at hcons
      rw [hcons]
      exact .here rfl prompts_test_words hcons
    · simp only [hk, if_false] at hcons
      rw [hcons]
      exact .here rfl prompts_test_identifier hcons

theorem reads_testList : ∀ (n : Nat) (ts : List Token), ts.length < n →
    Reads 0 testLists (testList n ts) testList ts
  | 0, ts, h => absurd h (Nat.not_lt_zero _)
  | n + 1, ts, h => by
    apply Reads.step
    simp only [testList_succ]
    refine (reads_expect .lparen ts).seq (joined_nonempty tests_nonempty testEnds_nonempty)
      fun p us r hts hus => ?_
    obtain ⟨hfuel, hr⟩ := fuel_after h hts (ne_nil_of_single hus)
    rw [hfuel]
    dsimp only
    refine (reads_test n r hr).seq testEnds_nonempty fun u us r' hr' _ => ?_
    rw [Nat.zero_sub]
    exact (reads_moreTests n r' (by grind)).map fun us => u :: us

theorem reads_moreTests : ∀ (n : Nat) (ts : List Token), ts.length < n →
    Reads 0 testEnds (moreTests n ts) moreTests ts
  | 0, ts, h => absurd h (Nat.not_lt_zero _)
  | n + 1, [], h => by
    rw [moreTests]
    exact .step (.nil rfl prompts_testEnds fun m => by rw [moreTests])
  | n + 1, t :: r, h => by
    apply Reads.step
    have hr : r.length < n := Nat.lt_of_succ_lt_succ h
    have hcons (n : Nat) (r : List Token) := moreTests_cons n t r
    by_cases hk : t.kind = .rparen
    · simp only [hk, if_true] at hcons
      rw [hcons]
      exact .token (lexeme_eq_sign.2 ⟨hk, by decide⟩) ⟨[], rfl⟩ hcons
    simp only [hk, if_false] at hcons
    by_cases hc : t.kind = .comma
    · simp only [hc, if_true] at hcons
      rw [hcons]
      refine .cons (lexeme_eq_sign.2 ⟨hc, by decide⟩) ((reads_test n r hr).seq testEnds_nonempty
        fun u us r' hts _ => ?_) ?_ hcons
      · rw [Nat.zero_sub]
        exact (reads_moreTests n r' (by grind)).map fun us => u :: us
      · rintro _ ⟨_, ⟨d, rfl⟩, _, ⟨ds, rfl⟩, rfl⟩
        exact ⟨d :: ds, by simp [Phrase.moreTests]⟩
    · simp only [hc, if_false] at hcons
      rw [hcons]
      exact .here rfl prompts_testEnds hcons

end

end MailSieve.Script
