import MailSieve.Proofs.Script.Spelling

/-!
What the reader accepts is a phrase: each production that succeeds has read the yield of a phrase and
answers with its tree.
-/

namespace MailSieve.Script

theorem moreStrings_sound {ts r : List Token} {ss : List String}
    (h : moreStrings ts = .ok (ss, r)) :
    Spells (Phrase.moreStrings ss ++ [.sign .rbracket]) ts r := by
  fun_induction moreStrings ts generalizing ss r with
  | case1 => simp at h
  | case2 t r' hk =>
    cases h
    simp [Phrase.moreStrings, lexeme_eq_sign, hk]
  | case3 t hk hc => simp at h
  | case4 t hk hc s r' hs ih =>
    obtain ⟨⟨ss', r''⟩, h', e⟩ := bind_eq_ok.1 h
    cases e
    simpa [Phrase.moreStrings, lexeme_eq_sign, hc, hs] using ih h'
  | case5 => simp at h
  | case6 => simp at h

theorem strings_sound {ts r : List Token} {ss : List String} (h : strings ts = .ok (ss, r)) :
    ∃ d : Phrase.Strings, d.tree = ss ∧ Spells d.yield ts r := by
  unfold strings at h
  split at h
  · simp at h
  · next t ts =>
    split at h
    · next hk =>
      cases h
      exact ⟨.bare t.text, rfl, by simp [Phrase.Strings.yield, hk]⟩
    · split at h
      · next hb =>
        obtain ⟨⟨s, r₁⟩, h₁, h₂⟩ := bind_eq_ok.1 h
        obtain ⟨⟨us, r₂⟩, h₃, h₄⟩ := bind_eq_ok.1 h₂
        obtain ⟨rfl, hs⟩ := expect_eq_ok.1 h₁
        cases h₄
        refine ⟨.listed s.text us, rfl, ?_⟩
        simpa [Phrase.Strings.yield, lexeme_eq_sign, hb, hs] using moreStrings_sound h₃
      · simp at h

theorem comparator_sound {ts r : List Token} {c : Option String}
    (h : comparator ts = .ok (c, r)) : Spells (Phrase.comparator c) ts r := by
  have hw : ∀ w (a : Unit), (if w = "comparator" then some () else none) = some a →
      w = "comparator" := by simp
  unfold comparator at h
  split at h
  · next hr =>
    obtain ⟨⟨s, r'⟩, h', e⟩ := bind_eq_ok.1 h
    obtain ⟨rfl, hk⟩ := expect_eq_ok.1 h'
    cases e
    exact (readTag_spells hw hr).append (l := [.string s.text]) (by simp [hk])
  · next hr =>
    cases h
    exact readTag_spells hw hr

theorem headerTest_sound {ts r : List Token} {t : Test} (h : headerTest ts = .ok (t, r)) :
    ∃ c m hs ks, (Phrase.Test.header c m hs ks).tree = t ∧
      Spells (Phrase.comparator c ++ (Phrase.tag (m.map MatchType.tag) ++ (hs.yield ++ ks.yield)))
        ts r := by
  obtain ⟨⟨c, r₁⟩, hc, h₁⟩ := bind_eq_ok.1 h
  rcases hm : readTag MatchType.ofTag? r₁ with ⟨m, r₂⟩
  simp only [hm] at h₁
  obtain ⟨⟨hs, r₃⟩, hhs, h₂⟩ := bind_eq_ok.1 h₁
  obtain ⟨⟨ks, r₄⟩, hks, h₃⟩ := bind_eq_ok.1 h₂
  cases h₃
  obtain ⟨a, rfl, ha⟩ := strings_sound hhs
  obtain ⟨b, rfl, hb⟩ := strings_sound hks
  have hm := readTag_spells matchType_eq_of_tag hm
  exact ⟨c, m, a, b, rfl, (comparator_sound hc).append (hm.append (ha.append hb))⟩

theorem addressTest_sound {ts r : List Token} {t : Test} (h : addressTest ts = .ok (t, r)) :
    ∃ c p m hs ks, (Phrase.Test.address c p m hs ks).tree = t ∧
      Spells (Phrase.comparator c ++ (Phrase.tag (p.map AddressPart.tag) ++
        (Phrase.tag (m.map MatchType.tag) ++ (hs.yield ++ ks.yield)))) ts r := by
  obtain ⟨⟨c, r₁⟩, hc, h₁⟩ := bind_eq_ok.1 h
  rcases hp : readTag AddressPart.ofTag? r₁ with ⟨p, r₂⟩
  simp only [hp] at h₁
  rcases hm : readTag MatchType.ofTag? r₂ with ⟨m, r₃⟩
  simp only [hm] at h₁
  obtain ⟨⟨hs, r₄⟩, hhs, h₂⟩ := bind_eq_ok.1 h₁
  obtain ⟨⟨ks, r₅⟩, hks, h₃⟩ := bind_eq_ok.1 h₂
  cases h₃
  obtain ⟨a, rfl, ha⟩ := strings_sound hhs
  obtain ⟨b, rfl, hb⟩ := strings_sound hks
  have hp := readTag_spells part_eq_of_tag hp
  have hm := readTag_spells matchType_eq_of_tag hm
  exact ⟨c, p, m, a, b, rfl,
    (comparator_sound hc).append (hp.append (hm.append (ha.append hb)))⟩

mutual

theorem test_sound : ∀ {n : Nat} {ts r : List Token} {t : Test}, test n ts = .ok (t, r) →
    ∃ d : Phrase.Test, d.tree = t ∧ Spells d.yield ts r
  | 0, ts, r, t, h => by simp [test] at h
  | n + 1, ts, r, t, h => by
    unfold test at h
    obtain ⟨⟨w, r₁⟩, hw, h₁⟩ := bind_eq_ok.1 h
    obtain ⟨u, rfl, hu, hmem⟩ := testWord_eq_ok.1 hw
    simp only at h₁
    split at h₁
    · obtain ⟨c, m, hs, ks, rfl, hd⟩ := headerTest_sound h₁
      exact ⟨.header c m hs ks, rfl, spells_cons_cons.2 ⟨hu, hd⟩⟩
    · obtain ⟨c, p, m, hs, ks, rfl, hd⟩ := addressTest_sound h₁
      exact ⟨.address c p m hs ks, rfl, spells_cons_cons.2 ⟨hu, hd⟩⟩
    · obtain ⟨⟨us, r₂⟩, hus, h₂⟩ := bind_eq_ok.1 h₁
      obtain ⟨d, ds, rfl, hd⟩ := testList_sound hus
      cases h₂
      exact ⟨.allof d ds, rfl, spells_cons_cons.2 ⟨hu, hd⟩⟩
    · next hh ha hl =>
      obtain rfl : w = "anyof" := by simp_all [testWords]
      obtain ⟨⟨us, r₂⟩, hus, h₂⟩ := bind_eq_ok.1 h₁
      obtain ⟨d, ds, rfl, hd⟩ := testList_sound hus
      cases h₂
      exact ⟨.anyof d ds, rfl, spells_cons_cons.2 ⟨hu, hd⟩⟩

theorem testList_sound : ∀ {n : Nat} {ts r : List Token} {us : List Test},
    testList n ts = .ok (us, r) → ∃ (d : Phrase.Test) (ds : List Phrase.Test),
      d.tree :: Phrase.testTrees ds = us ∧
      Spells (.sign .lparen :: (d.yield ++ (Phrase.moreTests ds ++ [.sign .rparen]))) ts r
  | 0, ts, r, us, h => by simp [testList] at h
  | n + 1, ts, r, us, h => by
    unfold testList at h
    obtain ⟨⟨p, r₁⟩, hp, h₁⟩ := bind_eq_ok.1 h
    obtain ⟨⟨u, r₂⟩, hu, h₂⟩ := bind_eq_ok.1 h₁
    obtain ⟨⟨us, r₃⟩, hus, h₃⟩ := bind_eq_ok.1 h₂
    cases h₃
    obtain ⟨d, rfl, hd⟩ := test_sound hu
    obtain ⟨ds, rfl, hds⟩ := moreTests_sound hus
    exact ⟨d, ds, rfl, (expect_spells (by decide) hp).append (hd.append hds)⟩

theorem moreTests_sound : ∀ {n : Nat} {ts r : List Token} {us : List Test},
    moreTests n ts = .ok (us, r) →
    ∃ ds, Phrase.testTrees ds = us ∧ Spells (Phrase.moreTests ds ++ [.sign .rparen]) ts r
  | 0, ts, r, us, h => by simp [moreTests] at h
  | n + 1, [], r, us, h => by simp [moreTests] at h
  | n + 1, t :: ts, r, us, h => by
    unfold moreTests at h
    split at h
    · next hk =>
      cases h
      exact ⟨[], rfl, by simp [Phrase.moreTests, lexeme_eq_sign, hk]⟩
    · split at h
      · next hk =>
        obtain ⟨⟨u, r₁⟩, hu, h₁⟩ := bind_eq_ok.1 h
        obtain ⟨⟨us, r₂⟩, hus, h₂⟩ := bind_eq_ok.1 h₁
        cases h₂
        obtain ⟨d, rfl, hd⟩ := test_sound hu
        obtain ⟨ds, rfl, hds⟩ := moreTests_sound hus
        refine ⟨d :: ds, rfl, ?_⟩
        simpa [Phrase.moreTests, lexeme_eq_sign, hk] using hd.append hds
      · simp at h

end

theorem addflagTarget_spells {ts r : List Token} {v : Option String}
    (h : addflagTarget ts = (v, r)) :
    (v = none ∧ r = ts) ∨ ∃ a s, v = some a ∧ Spells [.string a] ts r ∧
      r.head?.map Token.lexeme = some (.string s) := by
  unfold addflagTarget at h
  split at h
  · split at h
    · next hk =>
      cases h
      simp_all
    · cases h
      exact .inl ⟨rfl, rfl⟩
  · cases h
    exact .inl ⟨rfl, rfl⟩

theorem strings_string {t : Token} {ts r : List Token} {s : String} {ss : List String}
    (ht : t.lexeme = .string s) (h : strings (t :: ts) = .ok (ss, r)) : ss = [s] ∧ r = ts := by
  obtain ⟨hk, rfl⟩ := lexeme_eq_string.1 ht
  simp only [strings, hk, if_pos] at h
  cases h
  exact ⟨rfl, rfl⟩

theorem simpleCommand_sound {w : String} {u : Token} {ts r : List Token} {c : Command}
    (hu : u.lexeme = .word w) (hw : w ∈ commandWords) (hif : w ≠ "if")
    (h : simpleCommand w ts = .ok (c, r)) :
    ∃ d : Phrase.Command, d.tree = c ∧ Spells d.yield (u :: ts) r := by
  unfold simpleCommand at h
  split at h
  · obtain ⟨⟨cs, r₁⟩, hcs, h₁⟩ := bind_eq_ok.1 h
    obtain ⟨⟨t, r₂⟩, ht, h₂⟩ := bind_eq_ok.1 h₁
    cases h₂
    obtain ⟨d, rfl, hd⟩ := strings_sound hcs
    exact ⟨.require d, rfl, spells_cons_cons.2 ⟨hu, hd.append (expect_spells (by decide) ht)⟩⟩
  · obtain ⟨⟨t, r₁⟩, ht, h₁⟩ := bind_eq_ok.1 h
    cases h₁
    exact ⟨.keep, rfl, spells_cons_cons.2 ⟨hu, expect_spells (by decide) ht⟩⟩
  · obtain ⟨⟨t, r₁⟩, ht, h₁⟩ := bind_eq_ok.1 h
    cases h₁
    exact ⟨.discard, rfl, spells_cons_cons.2 ⟨hu, expect_spells (by decide) ht⟩⟩
  · obtain ⟨⟨m, r₁⟩, hm, h₁⟩ := bind_eq_ok.1 h
    obtain ⟨⟨t, r₂⟩, ht, h₂⟩ := bind_eq_ok.1 h₁
    cases h₂
    obtain ⟨rfl, hk⟩ := expect_eq_ok.1 hm
    have hm : Spells [.string m.text] (m :: r₁) r₁ := by simp [hk]
    exact ⟨.fileinto m.text, rfl, spells_cons_cons.2 ⟨hu, hm.append (expect_spells (by decide) ht)⟩⟩
  · obtain rfl : w = "addflag" := by simp_all [commandWords]
    rcases hv : addflagTarget ts with ⟨v, r₁⟩
    simp only [hv] at h
    obtain ⟨⟨fs, r₂⟩, hfs, h₁⟩ := bind_eq_ok.1 h
    obtain ⟨⟨t, r₃⟩, ht, h₂⟩ := bind_eq_ok.1 h₁
    cases h₂
    obtain ⟨rfl, rfl⟩ | ⟨a, s, rfl, ha, hs⟩ := addflagTarget_spells hv
    · obtain ⟨d, rfl, hd⟩ := strings_sound hfs
      exact ⟨.addflag d, rfl, spells_cons_cons.2 ⟨hu, hd.append (expect_spells (by decide) ht)⟩⟩
    · obtain ⟨f, r₁, rfl⟩ : ∃ f r', r₁ = f :: r' := by
        cases r₁ <;> simp_all
      obtain ⟨rfl, rfl⟩ := strings_string (by simpa using hs) hfs
      refine ⟨.addflagTo a s, rfl, spells_cons_cons.2 ⟨hu, ha.append (l := [.string s, _]) ?_⟩⟩
      exact spells_cons_cons.2 ⟨by simpa using hs, expect_spells (by decide) ht⟩

mutual

theorem commands_sound : ∀ {n : Nat} {ts r : List Token} {cs : Program},
    commands n ts = .ok (cs, r) → ∃ ds, Phrase.commandTrees ds = cs ∧
      Spells (Phrase.commands ds) ts r
  | 0, ts, r, cs, h => by simp [commands] at h
  | n + 1, [], r, cs, h => by
    unfold commands at h
    cases h
    exact ⟨[], rfl, by simp [Phrase.commands]⟩
  | n + 1, t :: ts, r, cs, h => by
    unfold commands at h
    split at h
    · next hk =>
      split at h
      · next hif =>
        obtain ⟨⟨⟨u, b, e⟩, r₁⟩, hb, h₁⟩ := bind_eq_ok.1 h
        obtain ⟨⟨cs, r₂⟩, hcs, h₂⟩ := bind_eq_ok.1 h₁
        cases h₂
        obtain ⟨d, hd, hs⟩ := branch_sound hb
        obtain ⟨ds, rfl, hds⟩ := commands_sound hcs
        refine ⟨.branch d :: ds, by simp [Phrase.commandTrees, Phrase.Command.tree, hd], ?_⟩
        exact spells_cons_cons.2 ⟨lexeme_eq_word.2 ⟨hk, hif⟩, hs.append hds⟩
      · next hif =>
        split at h
        · next hw =>
          obtain ⟨⟨c, r₁⟩, hc, h₁⟩ := bind_eq_ok.1 h
          obtain ⟨⟨cs, r₂⟩, hcs, h₂⟩ := bind_eq_ok.1 h₁
          cases h₂
          obtain ⟨d, rfl, hd⟩ := simpleCommand_sound (lexeme_eq_word.2 ⟨hk, rfl⟩) hw hif hc
          obtain ⟨ds, rfl, hds⟩ := commands_sound hcs
          exact ⟨d :: ds, rfl, hd.append hds⟩
        · simp at h
    · cases h
      exact ⟨[], rfl, by simp [Phrase.commands]⟩

theorem branch_sound : ∀ {n : Nat} {ts r : List Token} {b : Test × Program × Chain},
    branch n ts = .ok (b, r) → ∃ d : Phrase.Branch, d.tree = b ∧ Spells d.yield ts r
  | 0, ts, r, b, h => by simp [branch] at h
  | n + 1, ts, r, b, h => by
    unfold branch at h
    obtain ⟨⟨u, r₁⟩, hu, h₁⟩ := bind_eq_ok.1 h
    obtain ⟨⟨cs, r₂⟩, hcs, h₂⟩ := bind_eq_ok.1 h₁
    obtain ⟨⟨e, r₃⟩, he, h₃⟩ := bind_eq_ok.1 h₂
    cases h₃
    obtain ⟨t, rfl, ht⟩ := test_sound hu
    obtain ⟨ds, rfl, hds⟩ := block_sound hcs
    obtain ⟨next, rfl, hnext⟩ := chain_sound he
    refine ⟨.mk t ds next, rfl, ?_⟩
    simpa [Phrase.Branch.yield] using ht.append (hds.append hnext)

theorem block_sound : ∀ {n : Nat} {ts r : List Token} {cs : Program},
    block n ts = .ok (cs, r) → ∃ ds, Phrase.commandTrees ds = cs ∧
      Spells (.sign .lbrace :: (Phrase.commands ds ++ [.sign .rbrace])) ts r
  | 0, ts, r, cs, h => by simp [block] at h
  | n + 1, ts, r, cs, h => by
    unfold block at h
    obtain ⟨⟨p, r₁⟩, hp, h₁⟩ := bind_eq_ok.1 h
    obtain ⟨⟨cs, r₂⟩, hcs, h₂⟩ := bind_eq_ok.1 h₁
    obtain ⟨⟨q, r₃⟩, hq, h₃⟩ := bind_eq_ok.1 h₂
    cases h₃
    obtain ⟨ds, rfl, hds⟩ := commands_sound hcs
    have hr := hds.append (expect_spells (by decide) hq)
    exact ⟨ds, rfl, (expect_spells (by decide) hp).append hr⟩

theorem chain_sound : ∀ {n : Nat} {ts r : List Token} {e : Chain},
    chain n ts = .ok (e, r) → ∃ d : Phrase.Chain, d.tree = e ∧ Spells d.yield ts r
  | 0, ts, r, e, h => by simp [chain] at h
  | n + 1, [], r, e, h => by
    unfold chain at h
    cases h
    exact ⟨.done, rfl, by simp [Phrase.Chain.yield]⟩
  | n + 1, t :: ts, r, e, h => by
    unfold chain at h
    split at h
    · next hk =>
      obtain ⟨⟨⟨u, b, e⟩, r₁⟩, hb, h₁⟩ := bind_eq_ok.1 h
      cases h₁
      obtain ⟨d, hd, hs⟩ := branch_sound hb
      refine ⟨.elsif d, by simp [Phrase.Chain.tree, hd], spells_cons_cons.2 ⟨?_, hs⟩⟩
      simpa [Token.isWord] using hk
    · split at h
      · next hk =>
        obtain ⟨⟨b, r₁⟩, hb, h₁⟩ := bind_eq_ok.1 h
        cases h₁
        obtain ⟨ds, rfl, hs⟩ := block_sound hb
        refine ⟨.otherwise ds, rfl, spells_cons_cons.2 ⟨?_, hs⟩⟩
        simpa [Token.isWord] using hk
      · cases h
        exact ⟨.done, rfl, by simp [Phrase.Chain.yield]⟩

end
end MailSieve.Script
