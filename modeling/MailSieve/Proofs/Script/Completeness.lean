import MailSieve.Proofs.Script.Spelling

/-!
Phrases are accepted: each production reads the yield of a phrase, whatever follows that cannot
continue it, as long as the fuel exceeds the number of tokens.
-/

namespace MailSieve.Script

theorem moreStrings_complete {ss : List String} {ts r : List Token}
    (h : Spells (Phrase.moreStrings ss ++ [.sign .rbracket]) ts r) :
    moreStrings ts = .ok (ss, r) := by
  induction ss generalizing ts with
  | nil =>
    obtain ⟨t, ts, rfl, ht, h⟩ := spells_cons.1 h
    rw [spells_nil] at h
    unfold moreStrings
    simp [lexeme_eq_sign.1 ht, h]
  | cons s ss ih =>
    obtain ⟨c, ts, rfl, hc, h⟩ := spells_cons.1 h
    obtain ⟨t, ts, rfl, ht, h⟩ := spells_cons.1 h
    simp [moreStrings, lexeme_eq_sign.1 hc, lexeme_eq_string.1 ht, ih h]

theorem strings_complete {d : Phrase.Strings} {ts r : List Token} (h : Spells d.yield ts r) :
    strings ts = .ok (d.tree, r) := by
  cases d with
  | bare s =>
    obtain ⟨t, ts, rfl, ht, h⟩ := spells_cons.1 h
    rw [spells_nil] at h
    simp [strings, lexeme_eq_string.1 ht, h, Phrase.Strings.tree]
  | listed s ss =>
    obtain ⟨b, ts, rfl, hb, h⟩ := spells_cons.1 h
    obtain ⟨t, ts, rfl, ht, h⟩ := spells_cons.1 h
    simp [strings, expect, lexeme_eq_sign.1 hb, lexeme_eq_string.1 ht, moreStrings_complete h]
    rfl

theorem comparator_complete {c : Option String} {ts r : List Token}
    (h : Spells (Phrase.comparator c) ts r)
    (hr : ∀ u, r.map Token.lexeme ≠ .sign .colon :: .word "comparator" :: u) :
    comparator ts = .ok (c, r) := by
  cases c with
  | none =>
    have ht := @readTag_complete Unit (fun w => if w = "comparator" then some () else none)
      (fun _ => "comparator") (by simp) none ts r h (by simpa using hr)
    simp [comparator, ht]
  | some s =>
    obtain ⟨r', ht, hs⟩ := spells_append.1
      (show Spells (Phrase.tag ((some ()).map fun _ => "comparator") ++ [.string s]) ts r from h)
    obtain ⟨t, hs', rfl⟩ := expect_string_complete hs
    obtain ⟨t', r', rfl, ht', _⟩ := spells_cons.1 hs
    have ht := @readTag_complete Unit (fun w => if w = "comparator" then some () else none)
      (fun _ => "comparator") (by simp) (some ()) _ _ ht (by simp [ht'])
    simp [comparator, ht, hs']

theorem headerTest_complete {c : Option String} {m : Option MatchType} {hs ks : Phrase.Strings}
    {ts r : List Token}
    (h : Spells (Phrase.comparator c ++ (Phrase.tag (m.map MatchType.tag) ++
      (hs.yield ++ ks.yield))) ts r) :
    headerTest ts = .ok ((Phrase.Test.header c m hs ks).tree, r) := by
  obtain ⟨r₁, hc, h₁⟩ := spells_append.1 h
  obtain ⟨r₂, hm, h₂⟩ := spells_append.1 h₁
  obtain ⟨r₃, hhs, hks⟩ := spells_append.1 h₂
  have hc := comparator_complete hc fun u => by
    rw [h₁.map, List.append_assoc, List.append_assoc]
    exact Phrase.tag_ne Phrase.matchTag_ne_comparator (fun _ => Phrase.Strings.yield_ne_colon) u
  have hm := readTag_complete ofTag_tag hm fun _ _ _ u => by
    rw [h₂.map, List.append_assoc]
    exact Phrase.Strings.yield_ne_colon
  simp [headerTest, hc, hm, strings_complete hhs, strings_complete hks]
  rfl

theorem addressTest_complete {c : Option String} {p : Option AddressPart} {m : Option MatchType}
    {hs ks : Phrase.Strings} {ts r : List Token}
    (h : Spells (Phrase.comparator c ++ (Phrase.tag (p.map AddressPart.tag) ++
      (Phrase.tag (m.map MatchType.tag) ++ (hs.yield ++ ks.yield)))) ts r) :
    addressTest ts = .ok ((Phrase.Test.address c p m hs ks).tree, r) := by
  obtain ⟨r₁, hc, h₁⟩ := spells_append.1 h
  obtain ⟨r₂, hp, h₂⟩ := spells_append.1 h₁
  obtain ⟨r₃, hm, h₃⟩ := spells_append.1 h₂
  obtain ⟨r₄, hhs, hks⟩ := spells_append.1 h₃
  have hc := comparator_complete hc fun u => by
    rw [h₁.map, List.append_assoc, List.append_assoc, List.append_assoc]
    exact Phrase.tag_ne Phrase.partTag_ne_comparator
      (Phrase.tag_ne Phrase.matchTag_ne_comparator fun _ => Phrase.Strings.yield_ne_colon) u
  have hp := readTag_complete ofTag_partTag hp fun w p hw u => by
    rw [h₂.map, List.append_assoc, List.append_assoc, part_eq_of_tag w p hw]
    exact Phrase.tag_ne (Phrase.matchTag_ne_partTag · p) (fun _ => Phrase.Strings.yield_ne_colon) u
  have hm := readTag_complete ofTag_tag hm fun _ _ _ u => by
    rw [h₃.map, List.append_assoc]
    exact Phrase.Strings.yield_ne_colon
  simp [addressTest, hc, hp, hm, strings_complete hhs, strings_complete hks]
  rfl

mutual

theorem test_complete : ∀ {d : Phrase.Test} {n : Nat} {ts r : List Token}, ts.length < n →
    Spells d.yield ts r → test n ts = .ok (d.tree, r)
  | _, 0, _, _, hn, _ => absurd hn (Nat.not_lt_zero _)
  | .header c m hs ks, n + 1, ts, r, hn, h => by
    obtain ⟨t, ts, rfl, ht, h⟩ := spells_cons.1 h
    simp [test, testWord_complete ht (by decide), headerTest_complete h]
  | .address c p m hs ks, n + 1, ts, r, hn, h => by
    obtain ⟨t, ts, rfl, ht, h⟩ := spells_cons.1 h
    simp [test, testWord_complete ht (by decide), addressTest_complete h]
  | .allof d ds, n + 1, ts, r, hn, h => by
    obtain ⟨t, ts, rfl, ht, h⟩ := spells_cons.1 h
    have hl := testList_complete (Nat.lt_of_succ_lt_succ hn) h
    simp [test, testWord_complete ht (by decide), hl]
    rfl
  | .anyof d ds, n + 1, ts, r, hn, h => by
    obtain ⟨t, ts, rfl, ht, h⟩ := spells_cons.1 h
    have hl := testList_complete (Nat.lt_of_succ_lt_succ hn) h
    simp [test, testWord_complete ht (by decide), hl]
    rfl

theorem testList_complete : ∀ {d : Phrase.Test} {ds : List Phrase.Test} {n : Nat}
    {ts r : List Token}, ts.length < n →
    Spells (.sign .lparen :: (d.yield ++ (Phrase.moreTests ds ++ [.sign .rparen]))) ts r →
    testList n ts = .ok (d.tree :: Phrase.testTrees ds, r)
  | _, _, 0, _, _, hn, _ => absurd hn (Nat.not_lt_zero _)
  | d, ds, n + 1, ts, r, hn, h => by
    obtain ⟨r₁, hp, h₁⟩ := spells_append.1
      (show Spells ([.sign .lparen] ++ (d.yield ++ (Phrase.moreTests ds ++ [.sign .rparen]))) ts r
        from h)
    obtain ⟨r₂, hd, hds⟩ := spells_append.1 h₁
    have hl := hp.length
    have hl' := hd.length
    obtain ⟨t, hp⟩ := expect_sign_complete hp
    have hd := test_complete (n := n) (by grind) hd
    have hds := moreTests_complete (n := n) (by grind) hds
    simp [testList, hp, hd, hds]

theorem moreTests_complete : ∀ {ds : List Phrase.Test} {n : Nat} {ts r : List Token},
    ts.length < n → Spells (Phrase.moreTests ds ++ [.sign .rparen]) ts r →
    moreTests n ts = .ok (Phrase.testTrees ds, r)
  | _, 0, _, _, hn, _ => absurd hn (Nat.not_lt_zero _)
  | [], n + 1, ts, r, hn, h => by
    obtain ⟨t, ts, rfl, ht, h⟩ := spells_cons.1 h
    rw [spells_nil] at h
    simp [moreTests, lexeme_eq_sign.1 ht, h, Phrase.testTrees]
  | d :: ds, n + 1, ts, r, hn, h => by
    simp only [Phrase.moreTests, List.cons_append, List.append_assoc] at h
    obtain ⟨t, ts, rfl, ht, h⟩ := spells_cons.1 h
    obtain ⟨r₁, hd, hds⟩ := spells_append.1 h
    have hl := hd.length
    have hd := test_complete (n := n) (by grind) hd
    have hds := moreTests_complete (n := n) (by grind) hds
    simp [moreTests, lexeme_eq_sign.1 ht, hd, hds]
    rfl

end

theorem command_head {d : Phrase.Command} (hd : ∀ b, d ≠ .branch b) {ts r : List Token}
    (h : Spells d.yield ts r) : ∃ t ts', ts = t :: ts' ∧ t.kind = .identifier ∧ t.text ≠ "if" ∧
      t.text ∈ commandWords := by
  cases d with
  | branch b => exact absurd rfl (hd b)
  | _ =>
    obtain ⟨t, ts', rfl, ht, -⟩ := spells_cons.1 h
    obtain ⟨hi, hw⟩ := lexeme_eq_word.1 ht
    exact ⟨t, ts', rfl, hi, by simp [hw], by simp [hw, commandWords]⟩

theorem addflagTarget_none {d : Phrase.Strings} {ts r : List Token}
    (h : Spells (d.yield ++ [.sign .semicolon]) ts r) : addflagTarget ts = (none, ts) := by
  cases d with
  | bare s =>
    obtain ⟨a, ts, rfl, ha, h⟩ := spells_cons.1 h
    obtain ⟨b, ts, rfl, hb, h⟩ := spells_cons.1 h
    simp [addflagTarget, lexeme_eq_sign.1 hb]
  | listed s ss =>
    obtain ⟨a, ts, rfl, ha, h⟩ := spells_cons.1 h
    obtain ⟨b, ts, rfl, hb, h⟩ := spells_cons.1 h
    simp [addflagTarget, lexeme_eq_sign.1 ha]

theorem simpleCommand_complete {d : Phrase.Command} (hd : ∀ b, d ≠ .branch b) {t : Token}
    {ts r : List Token} (h : Spells d.yield (t :: ts) r) :
    simpleCommand t.text ts = .ok (d.tree, r) := by
  cases d with
  | branch b => exact absurd rfl (hd b)
  | require cs =>
    obtain ⟨ht, h⟩ := spells_cons_cons.1 h
    obtain ⟨r₁, hs, hk⟩ := spells_append.1 h
    obtain ⟨u, hu⟩ := expect_sign_complete hk
    simp [simpleCommand, lexeme_eq_word.1 ht, strings_complete hs, hu]
    rfl
  | keep | discard =>
    obtain ⟨ht, hk⟩ := spells_cons_cons.1 h
    obtain ⟨u, hu⟩ := expect_sign_complete hk
    simp [simpleCommand, lexeme_eq_word.1 ht, hu]
    rfl
  | fileinto m =>
    obtain ⟨ht, h⟩ := spells_cons_cons.1 h
    obtain ⟨r₁, hs, hk⟩ := spells_append.1 (show Spells ([.string m] ++ [_]) ts r from h)
    obtain ⟨u, hu⟩ := expect_sign_complete hk
    obtain ⟨v, hv, rfl⟩ := expect_string_complete hs
    simp [simpleCommand, lexeme_eq_word.1 ht, hv, hu]
    rfl
  | addflag fs =>
    obtain ⟨ht, h⟩ := spells_cons_cons.1 h
    obtain ⟨r₁, hs, hk⟩ := spells_append.1 h
    obtain ⟨u, hu⟩ := expect_sign_complete hk
    simp [simpleCommand, lexeme_eq_word.1 ht, addflagTarget_none h, strings_complete hs, hu]
    rfl
  | addflagTo v f =>
    obtain ⟨ht, h⟩ := spells_cons_cons.1 h
    obtain ⟨a, ts, rfl, ha, h⟩ := spells_cons.1 h
    obtain ⟨b, ts, rfl, hb, hk⟩ := spells_cons.1 h
    obtain ⟨u, hu⟩ := expect_sign_complete hk
    simp [simpleCommand, addflagTarget, lexeme_eq_word.1 ht, lexeme_eq_string.1 ha,
      lexeme_eq_string.1 hb, strings, hu]
    rfl

mutual

theorem commands_complete : ∀ {ds : List Phrase.Command} {n : Nat} {ts r : List Token},
    ts.length < n → Phrase.EndsBlock (r.map Token.lexeme) → Spells (Phrase.commands ds) ts r →
    commands n ts = .ok (Phrase.commandTrees ds, r)
  | _, 0, _, _, hn, _, _ => absurd hn (Nat.not_lt_zero _)
  | [], n + 1, ts, r, hn, hr, h => by
    obtain rfl : ts = r := by simpa [Phrase.commands] using h
    cases ts with
    | nil => rfl
    | cons t ts =>
      have ht : t.kind ≠ .identifier := fun hk =>
        hr t.text (ts.map Token.lexeme) (by simp [hk])
      simp [commands, ht, Phrase.commandTrees]
  | d :: ds, n + 1, ts, r, hn, hr, h => by
    obtain ⟨r₁, hd, hds⟩ := spells_append.1 h
    have hl := hd.length
    have hpos := d.length_yield_pos
    by_cases hb : ∃ b, d = .branch b
    · obtain ⟨b, rfl⟩ := hb
      obtain ⟨t, ts, rfl, ht, hd⟩ := spells_cons.1 hd
      have hr' : Phrase.EndsBranch (r₁.map Token.lexeme) := by
        rw [hds.map]
        exact Phrase.endsBranch_commands hr
      have hd := branch_complete (n := n) (by grind) hr' hd
      have hds := commands_complete (n := n) (by grind) hr hds
      simp [commands, lexeme_eq_word.1 ht, hd, hds]
      rfl
    · have hb : ∀ b, d ≠ .branch b := by simpa using hb
      obtain ⟨t, ts, rfl, hi, hif, hw⟩ := command_head hb hd
      have hc := simpleCommand_complete hb hd
      have hds := commands_complete (n := n) (by grind) hr hds
      simp [commands, hi, hif, hw, hc, hds]
      rfl

theorem branch_complete : ∀ {d : Phrase.Branch} {n : Nat} {ts r : List Token},
    ts.length < n → Phrase.EndsBranch (r.map Token.lexeme) → Spells d.yield ts r →
    branch n ts = .ok (d.tree, r)
  | _, 0, _, _, hn, _, _ => absurd hn (Nat.not_lt_zero _)
  | .mk t b next, n + 1, ts, r, hn, hr, h => by
    obtain ⟨r₁, ht, h⟩ := spells_append.1 h
    obtain ⟨r₂, hb, hnext⟩ := spells_append.1 (show Spells
      ((.sign .lbrace :: (Phrase.commands b ++ [.sign .rbrace])) ++ next.yield) r₁ r by simpa using h)
    have hpos := t.length_yield_pos
    have hl := ht.length
    have hl' := hb.length
    have ht := test_complete (Nat.lt_succ_self _) ht
    have hb := block_complete (n := n) (by grind) hb
    have hnext := chain_complete (n := n) (by grind) hr hnext
    simp [branch, ht, hb, hnext]
    rfl

theorem block_complete : ∀ {ds : List Phrase.Command} {n : Nat} {ts r : List Token},
    ts.length < n → Spells (.sign .lbrace :: (Phrase.commands ds ++ [.sign .rbrace])) ts r →
    block n ts = .ok (Phrase.commandTrees ds, r)
  | _, 0, _, _, hn, _ => absurd hn (Nat.not_lt_zero _)
  | ds, n + 1, ts, r, hn, h => by
    obtain ⟨r₁, hp, h⟩ := spells_append.1
      (show Spells ([.sign .lbrace] ++ (Phrase.commands ds ++ [.sign .rbrace])) ts r from h)
    obtain ⟨r₂, hds, hq⟩ := spells_append.1 h
    have hl := hp.length
    have hr : Phrase.EndsBlock (r₂.map Token.lexeme) := by
      rw [hq.map]
      exact Phrase.endsBlock_sign
    have hds := commands_complete (n := n) (by grind) hr hds
    obtain ⟨t, hp⟩ := expect_sign_complete hp
    obtain ⟨u, hq⟩ := expect_sign_complete hq
    simp [block, hp, hds, hq]

theorem chain_complete : ∀ {d : Phrase.Chain} {n : Nat} {ts r : List Token},
    ts.length < n → Phrase.EndsBranch (r.map Token.lexeme) → Spells d.yield ts r →
    chain n ts = .ok (d.tree, r)
  | _, 0, _, _, hn, _, _ => absurd hn (Nat.not_lt_zero _)
  | .done, n + 1, ts, r, hn, hr, h => by
    obtain rfl : ts = r := by simpa [Phrase.Chain.yield] using h
    cases ts with
    | nil => rfl
    | cons t ts =>
      have hr := hr (ts.map Token.lexeme)
      simp only [List.map_cons, ne_eq, List.cons.injEq, and_true, lexeme_eq_word] at hr
      simp [chain, Token.isWord, hr, Phrase.Chain.tree]
  | .elsif b, n + 1, ts, r, hn, hr, h => by
    obtain ⟨t, ts, rfl, ht, h⟩ := spells_cons.1 h
    have hb := branch_complete (n := n) (by grind) hr h
    simp [chain, Token.isWord, lexeme_eq_word.1 ht, hb]
    rfl
  | .otherwise b, n + 1, ts, r, hn, hr, h => by
    obtain ⟨t, ts, rfl, ht, h⟩ := spells_cons.1 h
    have hb := block_complete (n := n) (by grind) h
    simp [chain, Token.isWord, lexeme_eq_word.1 ht, hb]
    rfl

end
end MailSieve.Script
