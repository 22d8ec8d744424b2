import MailSieve.Proofs.Script.Following.Tests

/-!
The walks of commands follow the productions of their names.
-/

namespace MailSieve.Script

section

variable {ts r : List Token} {stop t : Token}

theorem wordOf_self {w : String} (hk : t.kind = .identifier) (hw : t.text = w) (r : List Token) :
    wordOf [w] (t :: r) = .ok (w, r) := by
  simp [wordOf, hk, hw]

/-- A command from its word on, in the order in which a walk checks it: the words of a branch and of
`addflag` are read a second time. -/
def commandAt (n : Nat) (t : Token) (r : List Token) : Except Stuck (Command × List Token) :=
  if t.text ∈ commandWords then
    if t.text = "if" then
      wordOf ["if"] (t :: r) >>= fun p => branch n p.2 >>= fun b =>
        .ok (.branch b.1.1 b.1.2.1 b.1.2.2, b.2)
    else if t.text = "addflag" then wordOf ["addflag"] (t :: r) >>= fun p => simpleCommand "addflag" p.2
    else simpleCommand t.text r
  else stuck (commandWords.map .word) (t :: r)

theorem commands_eq (n : Nat) (t : Token) (r : List Token) :
    commands (n + 1) (t :: r) =
      if t.kind = .identifier then
        commandAt n t r >>= fun c => commands n c.2 >>= fun cs => .ok (c.1 :: cs.1, cs.2)
      else .ok ([], t :: r) := by
  rw [commands_cons, commandAt]
  by_cases hk : t.kind = .identifier
  · rw [if_pos hk, if_pos hk]
    by_cases hif : t.text = "if"
    · have hw : t.text ∈ commandWords := by simp [hif, commandWords]
      rw [if_pos hif, if_pos hw, if_pos hif, wordOf_self hk hif, ok_bind, bind_assoc]
      rfl
    · rw [if_neg hif]
      by_cases hw : t.text ∈ commandWords
      · rw [if_pos hw, if_pos hw, if_neg hif]
        by_cases hf : t.text = "addflag"
        · rw [if_pos hf, wordOf_self hk hf, hf]
          rfl
        · rw [if_neg hf]
      · rw [if_neg hw, if_neg hw]
        rfl
  · rw [if_neg hk, if_neg hk]

/-- The word itself is no part of the tokens here. -/
theorem simpleCommand_shortens {w : String} (hw : w ∈ commandWords) (hif : w ≠ "if") {cmd : Command}
    (h : simpleCommand w ts = .ok (cmd, r)) : r.length ≤ ts.length := by
  obtain ⟨d, -, hd⟩ := simpleCommand_sound (u := ⟨.identifier, w, 0, 0⟩)
    (lexeme_eq_word.2 ⟨rfl, rfl⟩) hw hif h
  have hlength := hd.length
  rw [List.length_cons] at hlength
  have hpos := d.length_yield_pos
  omega

theorem commandAt_shortens {n : Nat} {cmd : Command} (h : commandAt n t ts = .ok (cmd, r)) :
    r.length ≤ ts.length := by
  unfold commandAt at h
  split at h
  · next hw =>
    split at h
    · obtain ⟨⟨w, r₁⟩, hr₁, h₁⟩ := bind_eq_ok.1 h
      obtain ⟨⟨b, r₂⟩, hb, h₂⟩ := bind_eq_ok.1 h₁
      obtain ⟨t', e, -⟩ := wordOf_sound hr₁
      cases e
      cases h₂
      obtain ⟨d, -, hd⟩ := branch_sound hb
      rw [hd.length]
      exact Nat.le_add_left _ _
    · next hif =>
      split at h
      · obtain ⟨⟨w, r₁⟩, hr₁, h₁⟩ := bind_eq_ok.1 h
        obtain ⟨t', e, -⟩ := wordOf_sound hr₁
        cases e
        exact simpleCommand_shortens (by decide) (by decide) h₁
      · exact simpleCommand_shortens hw hif h
  · cases h

section Productions

variable (hstop : stop.kind = .eof)

include hstop

theorem follows_target (ts : List Token) : Follows stop Walk.target ts (.ok (addflagTarget ts)) := by
  apply Follows.peek
  apply Follows.peekNext
  match ts with
  | [] =>
    rw [List.tail_nil, List.headD_nil, hstop]
    exact follows_pure none []
  | [s] =>
    rw [List.tail_cons, List.headD_nil, hstop, if_neg (by simp)]
    exact follows_pure none [s]
  | s :: t :: r =>
    rw [addflagTarget, List.tail_cons, List.headD_cons, List.headD_cons]
    by_cases hk : s.kind = .string && t.kind = .string
    · rw [if_pos hk, if_pos hk]
      exact .advance (follows_pure (some s.text) (t :: r))
    · rw [if_neg hk, if_neg hk]
      exact follows_pure none (s :: t :: r)

variable {n : Nat}

theorem follows_addflag (ts : List Token) (h : ts.length < n + 1) :
    Follows stop (Walk.addflag n) ts
      (wordOf ["addflag"] ts >>= fun p => simpleCommand "addflag" p.2) := by
  refine (follows_keyword hstop _ ts).bind fun w r hw _ => ?_
  obtain ⟨t, rfl, -⟩ := wordOf_sound hw
  refine (follows_target hstop r).bind (F := fun v => strings v.2 >>= fun fs =>
    expect .semicolon fs.2 >>= fun q => .ok (Command.addflag v.1 fs.1, q.2)) fun v r' _ hle => ?_
  have hr' : r'.length < n := Nat.lt_of_le_of_lt hle (Nat.lt_of_succ_lt_succ h)
  exact (follows_strings hstop hr').closed hstop (f := Command.addflag v)

theorem follows_simpleCommand {w : String} (hw : w ∈ commandWords) (hif : w ≠ "if")
    (hflag : w ≠ "addflag") (t : Token) (h : r.length < n) :
    Follows stop (Walk.simpleCommand n w) (t :: r) (simpleCommand w r) := by
  simp only [commandWords, List.mem_cons, List.not_mem_nil, or_false, hif, hflag, false_or] at hw
  obtain rfl | rfl | rfl | rfl := hw
  · exact .advance ((follows_strings hstop h).closed hstop (f := Command.require))
  · exact .advance ((follows_expect hstop (by decide) r).map (f := fun _ => Command.keep))
  · exact .advance ((follows_expect hstop (by decide) r).closed hstop
      (f := fun m => Command.fileinto m.text))
  · exact .advance ((follows_expect hstop (by decide) r).map (f := fun _ => Command.discard))

theorem follows_branchOf {x : Walk (Test × List Command × Chain)} (w : String) (ts : List Token)
    (hx : ∀ t r, ts = t :: r → Follows stop x r (branch n r)) :
    Follows stop (Walk.branchOf w x) ts (wordOf [w] ts >>= fun p => branch n p.2) := by
  refine (follows_keyword hstop [w] ts).bind fun _ r hw _ => ?_
  obtain ⟨t, hts, -⟩ := wordOf_sound hw
  exact hx t r hts

theorem follows_commandOf {m : Nat} {x : Walk (Test × List Command × Chain)} (h : r.length < n)
    (hx : Follows stop x r (branch m r)) :
    Follows stop (Walk.commandOf n x) (t :: r) (commandAt m t r) := by
  have hbranch : Follows stop (Walk.branchOf "if" x) (t :: r)
      (wordOf ["if"] (t :: r) >>= fun p => branch m p.2) :=
    follows_branchOf hstop "if" (t :: r) fun _ _ ht => (List.cons.inj ht).2 ▸ hx
  apply Follows.peek
  refine .ite (fun hw => .ite (fun _ => ?_) fun hif => ?_) fun _ => follows_refuse hstop _ _
  · rw [← bind_assoc]
    exact hbranch.map (f := fun b => Command.branch b.1 b.2.1 b.2.2)
  · by_cases hf : t.text = "addflag"
    · rw [if_pos hf, List.headD_cons, hf]
      exact follows_addflag hstop (t :: r) (Nat.succ_lt_succ h)
    · rw [if_neg hf]
      exact follows_simpleCommand hstop hw hif hf t h

mutual

theorem follows_commands : ∀ (n : Nat) (ts : List Token), ts.length < n →
    Follows stop (Walk.commands n) ts (commands n ts)
  | 0, ts, h => absurd h (Nat.not_lt_zero _)
  | n + 1, [], h => by
    rw [Walk.commands, commands_nil]
    apply Follows.peek
    rw [List.headD_nil, hstop, if_neg (by decide)]
    exact follows_pure [] []
  | n + 1, t :: r, h => by
    have hr : r.length < n := Nat.lt_of_succ_lt_succ h
    rw [Walk.commands, commands_eq]
    apply Follows.peek
    refine .ite (fun _ => ?_) fun _ => follows_pure [] (t :: r)
    refine (follows_commandOf hstop hr (follows_condition n r hr)).bind fun cmd r' hcmd _ => ?_
    exact (follows_commands n r' (Nat.lt_of_le_of_lt (commandAt_shortens hcmd) hr)).map
      (f := fun cs => cmd :: cs)

theorem follows_condition : ∀ (n : Nat) (ts : List Token), ts.length < n →
    Follows stop (Walk.condition n) ts (branch n ts)
  | 0, ts, h => absurd h (Nat.not_lt_zero _)
  | n + 1, ts, h => by
    have htest := (follows_test hstop (n + 1) ts h).refuel (reads_test _ ts h) (Nat.lt_succ_self _)
    rw [Walk.condition, branch_succ]
    refine htest.bind fun u r hu _ => ?_
    -- a test has at least one token, so there is fuel for what follows it
    have hr : r.length < n := Nat.lt_of_lt_of_le (test_shortens hu) (Nat.le_of_lt_succ h)
    refine (follows_block n r hr).bind fun b r' _ hle => ?_
    exact (follows_chain n r' (Nat.lt_of_le_of_lt hle hr)).map (f := fun e => (u, b, e))

theorem follows_block : ∀ (n : Nat) (ts : List Token), ts.length < n →
    Follows stop (Walk.block n) ts (block n ts)
  | 0, ts, h => absurd h (Nat.not_lt_zero _)
  | n + 1, ts, h => by
    rw [Walk.block, block_succ]
    refine (follows_expect hstop (by decide) ts).bind fun p r hp _ => ?_
    obtain ⟨rfl, -⟩ := expect_eq_ok.1 hp
    refine (follows_commands n r (Nat.lt_of_succ_lt_succ h)).bind fun cs r' _ _ => ?_
    exact (follows_expect hstop (by decide) r').map (f := fun _ => cs)

theorem follows_chain : ∀ (n : Nat) (ts : List Token), ts.length < n →
    Follows stop (Walk.chain n) ts (chain n ts)
  | 0, ts, h => absurd h (Nat.not_lt_zero _)
  | n + 1, [], h => by
    rw [Walk.chain, chain_nil]
    apply Follows.peek
    rw [List.headD_nil, Token.isWord, Token.isWord, hstop]
    exact follows_pure Chain.done []
  | n + 1, t :: r, h => by
    have hr : r.length < n := Nat.lt_of_succ_lt_succ h
    rw [Walk.chain, chain_cons]
    apply Follows.peek
    refine .ite (fun hw => ?_) fun _ => .ite (fun _ => .advance ?_) fun _ =>
      follows_pure Chain.done (t :: r)
    · have hbranch := follows_branchOf hstop "elsif" (t :: r) fun _ _ ht =>
        (List.cons.inj ht).2 ▸ follows_condition n r hr
      have hw : t.kind = .identifier ∧ t.text = "elsif" := by simpa [Token.isWord] using hw
      rw [wordOf_self hw.1 hw.2, ok_bind] at hbranch
      exact hbranch.map (f := fun b => Chain.elsif b.1 b.2.1 b.2.2)
    · exact (follows_block n r hr).map (f := Chain.otherwise)

end

end Productions

end

end MailSieve.Script
