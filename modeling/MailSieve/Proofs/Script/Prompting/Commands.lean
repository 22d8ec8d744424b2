import MailSieve.Proofs.Script.Prompting.Tests

/-!
The productions of commands keep to the yields of their phrases, and so does a whole program.
-/

namespace MailSieve.Script

/-- The language of the arguments of `addflag`. -/
def flagLists : Set (List Lexeme) := { ls | ls ∈ lists ∨ ∃ v f, ls = [.string v, .string f] }

/-- What is read after `addflag`: a target, if two strings are next, and flags. -/
def flags (ts : List Token) : Except Stuck ((Option String × List String) × List Token) :=
  strings (addflagTarget ts).2 >>= fun fs => .ok (((addflagTarget ts).1, fs.1), fs.2)

theorem addflagTarget_of_ne {s : Token} (hs : s.kind ≠ .string) (r : List Token) :
    addflagTarget (s :: r) = (none, s :: r) := by
  cases r <;> simp [addflagTarget, hs]

theorem reads_flags {n : Nat} (ts : List Token) :
    Reads n flagLists (flags ts) (fun _ => flags) ts := by
  cases ts with
  | nil =>
    refine .nil rfl (Prompts.mono prompts_lists fun ls hls => ⟨[], .inl ?_⟩) fun _ => rfl
    rwa [List.append_nil]
  | cons s r =>
    by_cases hs : s.kind = .string
    · have hone : flags [s] = .ok ((none, [s.text]), []) := by
        simp [flags, addflagTarget, strings, hs]
      have htwo {t : Token} (ht : t.kind = .string) (r : List Token) :
          flags (s :: t :: r) = .ok ((some s.text, [t.text]), r) := by
        simp [flags, addflagTarget, strings, hs, ht]
      have hnext {t : Token} (ht : t.kind ≠ .string) (r : List Token) :
          flags (s :: t :: r) = .ok ((none, [s.text]), t :: r) := by
        simp [flags, addflagTarget, strings, hs, ht]
      -- the target is told from the flag by the second token alone
      refine .cons (M := { ls | ls = [] ∨ ∃ f, ls = [.string f] })
        (z := fun _ r => flags (s :: r)) (lexeme_eq_string.2 ⟨hs, rfl⟩) ?_ ?_ fun _ _ => rfl
      · cases r with
        | nil => exact .nil (by rw [hone]; rfl) (by rw [hone]; exact .inl rfl) fun _ => rfl
        | cons t r =>
          by_cases ht : t.kind = .string
          · rw [htwo ht]
            exact .token (lexeme_eq_string.2 ⟨ht, rfl⟩) (.inr ⟨_, rfl⟩) fun _ => htwo ht
          · rw [hnext ht]
            exact .here rfl (.inl rfl) fun _ => hnext ht
      · rintro _ (rfl | ⟨f, rfl⟩)
        · exact .inl ⟨.bare s.text, rfl⟩
        · exact .inr ⟨s.text, f, rfl⟩
    · have hy (r : List Token) : flags (s :: r) = strings (s :: r) >>= fun fs => .ok ((none, fs.1), fs.2) := by
        simp only [flags, addflagTarget_of_ne hs]
      rw [hy]
      exact .congr (((reads_strings (s :: r)).map _).mono fun _ => .inl) fun _ => hy

def commandLines : Set (List Lexeme) := Set.range Phrase.commands

theorem reads_simpleCommand {n : Nat} {w : String} (hw : w ∈ commandWords) (hif : w ≠ "if")
    (ts : List Token) :
    Reads n { ls | ∃ d : Phrase.Command, d.yield = .word w :: ls } (simpleCommand w ts)
      (fun _ => simpleCommand w) ts := by
  simp only [commandWords, List.mem_cons, List.not_mem_nil, or_false, hif, false_or] at hw
  obtain rfl | rfl | rfl | rfl | rfl := hw
  · have heq : simpleCommand "require" = fun ts => strings ts >>= fun cs =>
        expect .semicolon cs.2 >>= fun q => .ok (.require cs.1, q.2) := rfl
    rw [heq]
    refine Reads.mono ((reads_strings ts).seq (single_nonempty _) fun cs _ r _ _ =>
      (reads_expect .semicolon r).map fun _ => Command.require cs) ?_
    rintro _ ⟨_, ⟨d, rfl⟩, _, hs, rfl⟩
    rw [single_of_sign (by decide) hs]
    exact ⟨.require d, rfl⟩
  · exact ((reads_expect .semicolon ts).map fun _ => Command.keep).mono fun ls hls =>
      ⟨.keep, by rw [single_of_sign (by decide) hls]; rfl⟩
  · have heq : simpleCommand "fileinto" = fun ts => expect .string ts >>= fun m =>
        expect .semicolon m.2 >>= fun q => .ok (.fileinto m.1.text, q.2) := rfl
    rw [heq]
    refine Reads.mono ((reads_expect .string ts).seq (single_nonempty _) fun m _ r _ _ =>
      (reads_expect .semicolon r).map fun _ => Command.fileinto m.text) ?_
    rintro _ ⟨_, hm, _, hs, rfl⟩
    obtain ⟨m, rfl⟩ := single_of_string hm
    rw [single_of_sign (by decide) hs]
    exact ⟨.fileinto m, rfl⟩
  · have heq : simpleCommand "addflag" = fun ts => flags ts >>= fun p =>
        expect .semicolon p.2 >>= fun q => .ok (.addflag p.1.1 p.1.2, q.2) := by
      funext ts
      have hsplit : simpleCommand "addflag" ts = strings (addflagTarget ts).2 >>= fun fs =>
          expect .semicolon fs.2 >>= fun q => .ok (.addflag (addflagTarget ts).1 fs.1, q.2) := rfl
      rw [hsplit, flags]
      cases strings (addflagTarget ts).2 <;> rfl
    rw [heq]
    refine Reads.mono ((reads_flags ts).seq (single_nonempty _) fun p _ r _ _ =>
      (reads_expect .semicolon r).map fun _ => Command.addflag p.1 p.2) ?_
    rintro _ ⟨_, ⟨d, rfl⟩ | ⟨v, f, rfl⟩, _, hs, rfl⟩
    · rw [single_of_sign (by decide) hs]
      exact ⟨.addflag d, rfl⟩
    · rw [single_of_sign (by decide) hs]
      exact ⟨.addflagTo v f, rfl⟩
  · exact ((reads_expect .semicolon ts).map fun _ => Command.discard).mono fun ls hls =>
      ⟨.discard, by rw [single_of_sign (by decide) hls]; rfl⟩

/-- The language of a block. -/
def blocks : Set (List Lexeme) :=
  joined (single .lbrace) (joined commandLines (single .rbrace))

def branches : Set (List Lexeme) := Set.range Phrase.Branch.yield

def chains : Set (List Lexeme) := Set.range Phrase.Chain.yield

theorem commandLines_nonempty : commandLines.Nonempty := ⟨_, [], rfl⟩

theorem chains_nonempty : chains.Nonempty := ⟨_, .done, rfl⟩

theorem blocks_nonempty : blocks.Nonempty :=
  joined_nonempty (single_nonempty _) (joined_nonempty commandLines_nonempty (single_nonempty _))

theorem exists_of_blocks {ls : List Lexeme} (h : ls ∈ blocks) :
    ∃ cs, ls = .sign .lbrace :: (Phrase.commands cs ++ [.sign .rbrace]) := by
  obtain ⟨_, hl, _, ⟨_, ⟨cs, rfl⟩, _, hr, rfl⟩, rfl⟩ := h
  rw [single_of_sign (by decide) hl, single_of_sign (by decide) hr]
  exact ⟨cs, rfl⟩

theorem commands_nil (n : Nat) : commands (n + 1) [] = .ok ([], []) := by
  rw [commands]

theorem commands_cons (n : Nat) (t : Token) (r : List Token) :
    commands (n + 1) (t :: r) =
      if t.kind = .identifier then
        if t.text = "if" then branch n r >>= fun b => commands n b.2 >>= fun cs =>
          .ok (.branch b.1.1 b.1.2.1 b.1.2.2 :: cs.1, cs.2)
        else if t.text ∈ commandWords then simpleCommand t.text r >>= fun c =>
          commands n c.2 >>= fun cs => .ok (c.1 :: cs.1, cs.2)
        else stuck (commandWords.map .word) (t :: r)
      else .ok ([], t :: r) := by
  rw [commands]
  rfl

theorem branch_succ (n : Nat) : branch (n + 1) = fun ts => test (ts.length + 1) ts >>= fun u =>
    block n u.2 >>= fun b => chain n b.2 >>= fun e => .ok ((u.1, b.1, e.1), e.2) := by
  funext ts
  rw [branch]
  rfl

theorem block_succ (n : Nat) : block (n + 1) = fun ts => expect .lbrace ts >>= fun p =>
    commands n p.2 >>= fun cs => expect .rbrace cs.2 >>= fun q => .ok (cs.1, q.2) := by
  funext ts
  rw [block]
  rfl

theorem chain_nil (n : Nat) : chain (n + 1) [] = .ok (.done, []) := by
  rw [chain]

theorem chain_cons (n : Nat) (t : Token) (r : List Token) :
    chain (n + 1) (t :: r) =
      if t.isWord "elsif" then branch n r >>= fun b => .ok (.elsif b.1.1 b.1.2.1 b.1.2.2, b.2)
      else if t.isWord "else" then block n r >>= fun b => .ok (.otherwise b.1, b.2)
      else .ok (.done, t :: r) := by
  rw [chain]
  rfl

theorem prompts_command_words : Prompts commandLines (commandWords.map .word) [] := by
  apply prompts_of (by simp [commandWords])
  simp only [commandWords, List.map_cons, List.map_nil, List.forall_mem_cons]
  have t : Phrase.Test := .header none none (.bare "") (.bare "")
  exact ⟨⟨_, [.require (.bare "")], rfl⟩, ⟨_, [.branch (.mk t [] .done)], rfl⟩, ⟨_, [.keep], rfl⟩,
    ⟨_, [.fileinto ""], rfl⟩, ⟨_, [.addflag (.bare "")], rfl⟩, ⟨_, [.discard], rfl⟩, by simp⟩

theorem ne_nil_of_test {us : List Token} (h : us.map Token.lexeme ∈ tests) : us ≠ [] := by
  rintro rfl
  obtain ⟨d, hd⟩ := h
  have hpos := d.length_yield_pos
  rw [hd] at hpos
  cases hpos

mutual

theorem reads_commands : ∀ (n : Nat) (ts : List Token), ts.length < n →
    Reads 0 commandLines (commands n ts) commands ts
  | 0, ts, h => absurd h (Nat.not_lt_zero _)
  | n + 1, [], h => by
    rw [commands_nil]
    exact .step (.nil rfl ⟨[], rfl⟩ fun m => commands_nil m)
  | n + 1, t :: r, h => by
    apply Reads.step
    have hr : r.length < n := Nat.lt_of_succ_lt_succ h
    have hcons (n : Nat) (r : List Token) := commands_cons n t r
    by_cases hk : t.kind = .identifier
    · simp only [hk, if_true] at hcons
      by_cases hif : t.text = "if"
      · simp only [hif, if_true] at hcons
        rw [hcons]
        refine .cons (lexeme_eq_word.2 ⟨hk, hif⟩) ((reads_branch n r hr).seq commandLines_nonempty
          fun b us r' hts _ => ?_) ?_ hcons
        · rw [Nat.zero_sub]
          exact (reads_commands n r' (by grind)).map fun cs => Command.branch b.1 b.2.1 b.2.2 :: cs
        · rintro _ ⟨_, ⟨b, rfl⟩, _, ⟨cs, rfl⟩, rfl⟩
          exact ⟨.branch b :: cs, rfl⟩
      simp only [hif, if_false] at hcons
      by_cases hw : t.text ∈ commandWords
      · simp only [hw, if_true] at hcons
        rw [hcons]
        refine .cons (lexeme_eq_word.2 ⟨hk, rfl⟩) ((reads_simpleCommand hw hif r).seq
          commandLines_nonempty fun c us r' hts _ => ?_) ?_ hcons
        · rw [Nat.zero_sub]
          exact (reads_commands n r' (by grind)).map fun cs => c :: cs
        · rintro _ ⟨_, ⟨c, hc⟩, _, ⟨cs, rfl⟩, rfl⟩
          exact ⟨c :: cs, by rw [Phrase.commands, hc]; rfl⟩
      simp only [hw, if_false] at hcons
      rw [hcons]
      exact .here rfl prompts_command_words hcons
    · simp only [hk, if_false] at hcons
      rw [hcons]
      exact .here rfl ⟨[], rfl⟩ hcons

theorem reads_branch : ∀ (n : Nat) (ts : List Token), ts.length < n →
    Reads 0 branches (branch n ts) branch ts
  | 0, ts, h => absurd h (Nat.not_lt_zero _)
  | n + 1, ts, h => by
    apply Reads.step
    simp only [branch_succ]
    have htest := (reads_test _ ts (Nat.lt_succ_self _)).fueled (k := 1)
    refine Reads.mono (htest.seq (joined_nonempty blocks_nonempty chains_nonempty)
      fun u us r hts hus => ?_) ?_
    · obtain ⟨hfuel, hr⟩ := fuel_after h hts (ne_nil_of_test hus)
      rw [hfuel]
      dsimp only
      refine (reads_block n r hr).seq chains_nonempty fun b us r' hr' _ => ?_
      rw [Nat.zero_sub]
      exact (reads_chain n r' (by grind)).map fun e => (u, b, e)
    · rintro _ ⟨_, ⟨t, rfl⟩, _, ⟨_, hb, _, ⟨e, rfl⟩, rfl⟩, rfl⟩
      obtain ⟨cs, rfl⟩ := exists_of_blocks hb
      exact ⟨.mk t cs e, by simp [Phrase.Branch.yield]⟩

theorem reads_block : ∀ (n : Nat) (ts : List Token), ts.length < n →
    Reads 0 blocks (block n ts) block ts
  | 0, ts, h => absurd h (Nat.not_lt_zero _)
  | n + 1, ts, h => by
    apply Reads.step
    simp only [block_succ]
    refine (reads_expect .lbrace ts).seq (joined_nonempty commandLines_nonempty (single_nonempty _))
      fun p us r hts hus => ?_
    obtain ⟨hfuel, hr⟩ := fuel_after h hts (ne_nil_of_single hus)
    rw [hfuel]
    dsimp only
    refine (reads_commands n r hr).seq (single_nonempty _) fun cs us r' _ _ => ?_
    exact (reads_expect .rbrace r').map fun _ => cs

theorem reads_chain : ∀ (n : Nat) (ts : List Token), ts.length < n →
    Reads 0 chains (chain n ts) chain ts
  | 0, ts, h => absurd h (Nat.not_lt_zero _)
  | n + 1, [], h => by
    rw [chain_nil]
    exact .step (.nil rfl ⟨.done, rfl⟩ fun m => chain_nil m)
  | n + 1, t :: r, h => by
    apply Reads.step
    have hr : r.length < n := Nat.lt_of_succ_lt_succ h
    have hcons (n : Nat) (r : List Token) := chain_cons n t r
    have hword {w : String} (h : t.isWord w = true) : t.lexeme = .word w := by
      simpa [Token.isWord] using h
    by_cases hei : t.isWord "elsif"
    · simp only [hei, if_true] at hcons
      rw [hcons]
      refine .cons (hword hei) ((reads_branch n r hr).map fun b => Chain.elsif b.1 b.2.1 b.2.2) ?_ hcons
      rintro _ ⟨b, rfl⟩
      exact ⟨.elsif b, rfl⟩
    simp only [hei] at hcons
    by_cases hel : t.isWord "else"
    · simp only [hel, if_true] at hcons
      rw [hcons]
      refine .cons (hword hel) ((reads_block n r hr).map fun b => Chain.otherwise b) ?_ hcons
      intro ls hls
      obtain ⟨cs, rfl⟩ := exists_of_blocks hls
      exact ⟨.otherwise cs, rfl⟩
    simp only [hel] at hcons
    rw [hcons]
    exact .here rfl ⟨.done, rfl⟩ hcons

end

end MailSieve.Script
