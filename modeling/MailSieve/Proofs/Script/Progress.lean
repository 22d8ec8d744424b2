import MailSieve.Proofs.Script.Following.Commands

/-!
How far the walks go. From every place in the tokens each of them ends there, having advanced from one
position after another and at most once from each, and none looks a token up that does not exist.
-/

namespace MailSieve.Script

/-- The cursor is at one of these tokens, or at the end of input put after them. -/
def Cursor.Within (c : Cursor) (ts : List Token) : Prop :=
  c.tokens = completed ts ∧ c.pos < c.tokens.length

theorem start_within (ts : List Token) : (Cursor.start ts).Within ts := by
  obtain ⟨stop, -, hts⟩ := completed_eq ts
  refine ⟨rfl, ?_⟩
  rw [Cursor.start, hts, List.length_append]
  exact Nat.succ_pos _

theorem Cursor.Within.before {c : Cursor} {ts : List Token} (h : c.Within ts) :
    ∃ us stop, stop.kind = .eof ∧ c.Before us stop := by
  obtain ⟨stop, hstop, hts⟩ := completed_eq ts
  obtain ⟨htokens, hpos⟩ := h
  rw [htokens, hts, List.length_append] at hpos
  refine ⟨(Input.ofTokens ts).tokens.drop c.pos, stop, hstop, ?_⟩
  rw [Cursor.Before, htokens, hts, List.drop_append_of_le_length (Nat.le_of_lt_succ hpos)]

/-- How a walk moves a cursor: never back, never past the last token, and by advances from one position
after another, of which there are no more than tokens left. The last advance may be one from the last
token, that leaves the cursor there. -/
structure Progress (c c' : Cursor) : Prop where
  tokens : c'.tokens = c.tokens
  forward : c.pos ≤ c'.pos
  inside : c'.pos < c.tokens.length
  advances : ∃ k, c.pos + k ≤ c.tokens.length ∧ c'.trail = c.trail ++ List.range' c.pos k

/-- With fuel for the tokens that are left, and with any more, a walk ends with this answer at this cursor. -/
def Ends (x : Nat → Walk α) (c : Cursor) (o : Except Halt α) (c' : Cursor) : Prop :=
  ∀ n, c.tokens.length ≤ c.pos + n → (x n).run c = some (o, c')

/-- What may be said of a production at a cursor: it ends there with an answer or an error, makes progress,
and has moved if it succeeds and is one that reads something. -/
def Settles (p : Production α) (c : Cursor) : Prop :=
  ∃ o c', Ends (fun n => p.walk n) c o c' ∧ o ≠ .error .outOfRange ∧ Progress c c' ∧
    (p.consumes → ∀ a, o = .ok a → c.pos < c'.pos)

variable {c : Cursor} {ts : List Token} {stop : Token}

theorem progress_after (h : c.Before ts stop) {k : Nat} (hk : k ≤ ts.length) :
    Progress c (c.after k) := by
  have hlength := h.length
  refine ⟨rfl, Nat.le_add_right _ _, ?_, k, ?_, rfl⟩
  · change c.pos + k < c.tokens.length
    omega
  · omega

theorem progress_stalled (h : c.Before [] stop) : Progress c c.stalled := by
  have hlength := h.length
  rw [List.length_nil] at hlength
  refine ⟨rfl, Nat.le_refl _, ?_, 1, by omega, rfl⟩
  change c.pos < c.tokens.length
  omega

theorem Progress.of_after {c' : Cursor} {k : Nat} (h : Progress (c.after k) c') : Progress c c' := by
  obtain ⟨j, hj, htrail⟩ := h.advances
  refine ⟨h.tokens, Nat.le_trans (Nat.le_add_right _ _) h.forward, h.inside, k + j, ?_, ?_⟩
  · rw [← Nat.add_assoc]
    exact hj
  · rw [htrail, ← List.range'_append_1, ← List.append_assoc]
    rfl

theorem told_ne_outOfRange (o : Except Stuck (α × List Token)) :
    told stop o ≠ .error .outOfRange := by
  cases o <;> simp [told]

theorem Cursor.Before.fuel (h : c.Before ts stop) {n : Nat} (hn : c.tokens.length ≤ c.pos + n) :
    ts.length < n := by
  rw [h.length, Nat.add_assoc] at hn
  exact Nat.le_of_add_le_add_left hn

theorem ends_of_follows {x : Nat → Walk α} {o : Except Stuck (α × List Token)}
    (hx : ∀ n, ts.length < n → Follows stop (x n) ts o) (h : c.Before ts stop) :
    ∃ us, ts = us ++ leftover o ∧ Ends x c (told stop o) (c.after us.length) := by
  obtain ⟨us, hts, -⟩ := hx _ (Nat.lt_succ_self _)
  refine ⟨us, hts, fun n hn => ?_⟩
  obtain ⟨vs, hvs, hrun⟩ := hx n (h.fuel hn)
  rw [hrun c h, List.append_cancel_right (hvs.symm.trans hts)]

theorem settles_of_follows {p : Production α} {o : Except Stuck (α × List Token)}
    (hp : ∀ n, ts.length < n → Follows stop (p.walk n) ts o) (h : c.Before ts stop)
    (hshort : p.consumes → ∀ a r, o = .ok (a, r) → r.length < ts.length) : Settles p c := by
  obtain ⟨us, hts, hends⟩ := ends_of_follows hp h
  have hle : us.length ≤ ts.length := List.IsPrefix.length_le ⟨_, hts.symm⟩
  refine ⟨_, _, hends, told_ne_outOfRange o, progress_after h hle, fun hconsumes a ha => ?_⟩
  cases o with
  | error s => cases ha
  | ok q =>
    have hlt := hshort hconsumes q.1 q.2 rfl
    rw [hts, List.length_append] at hlt
    change c.pos < c.pos + us.length
    change q.2.length < us.length + q.2.length at hlt
    omega

/-- A production that has fuel itself. -/
theorem settles_of_reads {p : Production α} {L : Set (List Lexeme)}
    {y : Nat → List Token → Except Stuck (α × List Token)}
    (hreads : ∀ n, ts.length < n → Reads 0 L (y n ts) y ts)
    (hp : ∀ n, ts.length < n → Follows stop (p.walk n) ts (y n ts)) (h : c.Before ts stop)
    (hshort : p.consumes → ∀ n a r, y n ts = .ok (a, r) → r.length < ts.length) : Settles p c := by
  exact settles_of_follows (fun n hn => (hp n hn).refuel (hreads n hn) (Nat.lt_succ_self _)) h
    fun hc => hshort hc _

/-- An advance from the last token, before a walk that finds nothing left to read. -/
theorem run_stalled {x : Walk α} {o : Except Stuck (α × List Token)} (hx : Follows stop x [] o)
    (h : c.Before [] stop) : Walk.run (Walk.advance >>= fun _ => x) c = some (told stop o, c.stalled) := by
  obtain ⟨us, hus, hrun⟩ := hx
  obtain ⟨rfl, -⟩ := List.append_eq_nil_iff.1 hus.symm
  have hstalled := hrun c.stalled h
  rw [List.length_nil, Cursor.after_zero] at hstalled
  rw [Walk.run_bind_ok (Walk.run_advance_stop h)]
  exact hstalled

/-- What comes after the commands of a program. -/
def ending (cs : Program) : List Token → Except Stuck (Program × List Token)
  | [] => .ok (cs, [])
  | t :: r => stuck [.kind .eof] (if t.kind = .eof then r else t :: r)

theorem program_eq (ts : List Token) :
    program ts = commands (ts.length + 1) ts >>= fun p => ending p.1 p.2 :=
  rfl

theorem simpleCommand_nil (w : String) : ∃ s, simpleCommand w [] = .error s := by
  unfold simpleCommand
  split <;> exact ⟨_, rfl⟩

section Productions

variable (hstop : stop.kind = .eof)

include hstop

theorem run_simpleCommand_stop {n : Nat} (hn : 0 < n) {w : String} (hw : w ∈ commandWords)
    (hif : w ≠ "if") (hflag : w ≠ "addflag") (h : c.Before [] stop) :
    (Walk.simpleCommand n w).run c = some (told stop (simpleCommand w []), c.stalled) := by
  simp only [commandWords, List.mem_cons, List.not_mem_nil, or_false, hif, hflag, false_or] at hw
  obtain rfl | rfl | rfl | rfl := hw
  · exact run_stalled ((follows_strings hstop hn).closed hstop (f := Command.require)) h
  · exact run_stalled ((follows_expect hstop (by decide) []).map (f := fun _ => Command.keep)) h
  · exact run_stalled ((follows_expect hstop (by decide) []).closed hstop
      (f := fun m => Command.fileinto m.text)) h
  · exact run_stalled ((follows_expect hstop (by decide) []).map (f := fun _ => Command.discard)) h

/-- A command at the last token, of which no word is advanced from unseen. -/
theorem follows_command_stop
    (h : stop.text ∈ commandWords → stop.text = "if" ∨ stop.text = "addflag") :
    ∃ es, ∀ n, Follows stop (Walk.command n) [] (stuck es []) := by
  by_cases hw : stop.text ∈ commandWords
  · refine ⟨[.kind .identifier], fun n => .peek ?_⟩
    rw [List.headD_nil, if_pos hw]
    by_cases hif : stop.text = "if"
    · have hbranch : Follows stop (Walk.branchOf "if" (Walk.condition n)) []
          (stuck [.kind .identifier] []) :=
        follows_branchOf hstop (n := n) "if" [] fun t r ht => nomatch ht
      rw [if_pos hif]
      exact hbranch.map (f := fun b => Command.branch b.1 b.2.1 b.2.2)
    · rw [if_neg hif, (h hw).resolve_left hif]
      exact follows_addflag hstop [] (Nat.succ_pos n)
  · refine ⟨commandWords.map .word, fun n => .peek ?_⟩
    rw [List.headD_nil, if_neg hw]
    exact follows_refuse hstop _ []

/-- The word of a command may be the text of the last token, which is then advanced from, but in vain. -/
theorem settles_command_stop (h : c.Before [] stop) : Settles .command c := by
  by_cases hw : stop.text ∈ commandWords → stop.text = "if" ∨ stop.text = "addflag"
  · obtain ⟨es, hcommand⟩ := follows_command_stop hstop hw
    exact settles_of_follows (fun n _ => hcommand n) h fun _ a r ho => by cases ho
  · rw [Classical.not_imp, not_or] at hw
    obtain ⟨hw, hif, hflag⟩ := hw
    obtain ⟨s, hs⟩ := simpleCommand_nil stop.text
    have hends : Ends Walk.command c (.error (.refused (s.error stop.start))) c.stalled := by
      intro n hn
      rw [Walk.command, Walk.commandOf, Walk.run_bind_ok (Walk.run_peek h), List.headD_nil, if_pos hw,
        if_neg hif, run_simpleCommand_stop hstop (h.fuel hn) hw hif hflag h, hs]
      rfl
    exact ⟨_, _, hends, by simp, progress_stalled h, fun _ a ha => by cases ha⟩

theorem run_expect_stop (h : c.Before [] stop) :
    Walk.run (Walk.expect .eof) c = some (.ok stop, c.stalled) := by
  rw [Walk.expect, Walk.run_bind_ok (Walk.run_peek h), List.headD_nil, if_pos hstop]
  exact Walk.run_advance_stop h

/-- A program that succeeds has advanced from the last token too. -/
theorem run_ending (cs : Program) (h : c.Before ts stop) : ∃ c', Progress c c' ∧
    Walk.run (do
      let d ← get
      let _ ← Walk.expect .eof
      if d.pos + 1 < d.tokens.length then Walk.refuse [.kind .eof] else return cs) c =
        some (told stop (ending cs ts), c') := by
  have hget : Walk.run get c = some (.ok c, c) := rfl
  have hpeek := Walk.run_peek h
  have hlength := h.length
  rw [Walk.run_bind_ok hget]
  cases ts with
  | nil =>
    rw [List.length_nil] at hlength
    rw [Walk.run_bind_ok (run_expect_stop hstop h), if_neg (by omega)]
    exact ⟨_, progress_stalled h, rfl⟩
  | cons t r =>
    rw [List.length_cons] at hlength
    by_cases ht : t.kind = .eof
    · have hexpect : Walk.run (Walk.expect .eof) c = some (.ok t, c.after 1) := by
        rw [Walk.expect, Walk.run_bind_ok hpeek, List.headD_cons, if_pos ht]
        exact Walk.run_advance h
      have hrest : (c.after 1).Before r stop := Cursor.Before.after [t] h
      rw [Walk.run_bind_ok hexpect, if_pos (by omega), Walk.run_refuse hstop hrest, ending, if_pos ht]
      exact ⟨_, progress_after h (Nat.succ_pos _), rfl⟩
    · have hexpect : Walk.run (Walk.expect .eof) c =
          some (.error (.refused (Stuck.error ⟨[.kind .eof], t :: r⟩ stop.start)), c) := by
        rw [Walk.expect, Walk.run_bind_ok hpeek, List.headD_cons, if_neg ht]
        exact Walk.run_refuse hstop h _
      rw [Walk.run_bind_error hexpect, ending, if_neg ht]
      exact ⟨c.after 0, progress_after h (Nat.zero_le _), by rw [Cursor.after_zero]; rfl⟩

theorem ends_program (h : c.Before ts stop) : ∃ c', Progress c c' ∧
    Ends Walk.program c (told stop (program ts)) c' := by
  have hfollows : ∀ n, ts.length < n →
      Follows stop (Walk.commands n) ts (commands (ts.length + 1) ts) := fun n hn =>
    (follows_commands hstop n ts hn).refuel (reads_commands n ts hn) (Nat.lt_succ_self _)
  obtain ⟨us, hts, hends⟩ := ends_of_follows hfollows h
  rw [program_eq]
  cases ho : commands (ts.length + 1) ts with
  | error s =>
    rw [ho] at hends
    exact ⟨_, progress_after h (List.IsPrefix.length_le ⟨_, hts.symm⟩), fun n hn =>
      Walk.run_bind_error (hends n hn)⟩
  | ok q =>
    rw [ho] at hts hends
    have hbefore : (c.after us.length).Before q.2 stop := Cursor.Before.after us (hts ▸ h)
    obtain ⟨c', hprogress, hending⟩ := run_ending hstop q.1 hbefore
    refine ⟨c', hprogress.of_after, fun n hn => ?_⟩
    rw [Walk.program, Walk.run_bind_ok (hends n hn)]
    exact hending

theorem settles_program (h : c.Before ts stop) : Settles .program c := by
  obtain ⟨c', hprogress, hends⟩ := ends_program hstop h
  exact ⟨_, c', hends, told_ne_outOfRange _, hprogress, fun hc => nomatch hc⟩

theorem settles_command (h : c.Before ts stop) : Settles .command c := by
  cases ts with
  | nil => exact settles_command_stop hstop h
  | cons t r =>
    refine settles_of_follows (o := commandAt (r.length + 1) t r) (fun n hn => ?_) h
      fun _ cmd r' ho => Nat.lt_succ_of_le (commandAt_shortens ho)
    have hr : r.length < n := Nat.lt_of_succ_lt hn
    have hcondition := (follows_condition hstop n r hr).refuel (reads_branch n r hr)
      (Nat.lt_succ_self r.length)
    exact follows_commandOf hstop hr hcondition

theorem settles_branch (w : String) (h : c.Before ts stop) : Settles (.branch w) c := by
  refine settles_of_follows (o := wordOf [w] ts >>= fun p => branch ts.length p.2) (fun n hn => ?_) h
    fun _ b r ho => ?_
  · refine follows_branchOf hstop w ts fun t r hts => ?_
    have hr : r.length < ts.length := by
      rw [hts]
      exact Nat.lt_succ_self _
    have hrn : r.length < n := Nat.lt_trans hr hn
    exact (follows_condition hstop n r hrn).refuel (reads_branch n r hrn) hr
  · obtain ⟨⟨w', r₁⟩, hw, hb⟩ := bind_eq_ok.1 ho
    obtain ⟨t, rfl, -⟩ := wordOf_sound hw
    obtain ⟨d, -, hd⟩ := branch_sound hb
    dsimp only at hd
    rw [List.length_cons, hd.length]
    omega

theorem settles_addflag (h : c.Before ts stop) : Settles .addflag c := by
  refine settles_of_follows (fun n hn => follows_addflag hstop ts (Nat.lt_succ_of_lt hn)) h
    fun _ cmd r ho => ?_
  obtain ⟨⟨w, r₁⟩, hw, hcmd⟩ := bind_eq_ok.1 ho
  obtain ⟨t, rfl, -⟩ := wordOf_sound hw
  exact Nat.lt_succ_of_le (simpleCommand_shortens (by decide) (by decide) hcmd)

theorem settles (p : Production α) (h : c.Before ts stop) : Settles p c := by
  cases p with
  | program => exact settles_program hstop h
  | commands =>
    exact settles_of_reads (fun n => reads_commands n ts) (fun n => follows_commands hstop n ts) h
      fun hc => nomatch hc
  | command => exact settles_command hstop h
  | branch w => exact settles_branch hstop w h
  | block =>
    refine settles_of_reads (fun n => reads_block n ts) (fun n => follows_block hstop n ts) h
      fun _ n cs r ho => ?_
    obtain ⟨ds, -, hds⟩ := block_sound ho
    rw [hds.length, List.length_cons]
    omega
  | addflag => exact settles_addflag hstop h
  | test =>
    exact settles_of_reads (fun n => reads_test n ts) (fun n => follows_test hstop n ts) h
      fun _ n u r ho => test_shortens ho
  | testList =>
    refine settles_of_reads (fun n => reads_testList n ts) (fun n => follows_testList hstop n ts) h
      fun _ n us r ho => ?_
    obtain ⟨d, ds, -, hds⟩ := testList_sound ho
    rw [hds.length, List.length_cons]
    omega
  | comparator =>
    exact settles_of_follows (fun _ _ => follows_comparator hstop ts) h fun hc => nomatch hc
  | matchType => exact settles_of_follows (fun _ _ => follows_matchType hstop ts) h fun hc => nomatch hc
  | addressPart =>
    exact settles_of_follows (fun _ _ => follows_addressPart hstop ts) h fun hc => nomatch hc
  | strings =>
    refine settles_of_follows (fun n hn => follows_strings hstop hn) h fun _ ss r ho => ?_
    obtain ⟨d, -, hd⟩ := strings_sound ho
    have hpos : 0 < d.yield.length := by cases d <;> simp [Phrase.Strings.yield]
    rw [hd.length]
    omega

/-- A tag that is recognised is one that is read. -/
theorem run_tag {tags : List String} {read : String → Option α}
    (htags : ∀ w, w ∈ tags ↔ (read w).isSome) (h : c.Before ts stop) :
    ∃ o c', (Walk.atTag tags).run c = some (.ok o.isSome, c) ∧
      (Walk.tag tags read).run c = some (.ok o, c') := by
  obtain ⟨us, -, hrun⟩ := follows_tag hstop htags ts
  refine ⟨(readTag read ts).1, _, ?_, hrun c h⟩
  rw [Walk.run_atTag hstop h]
  have htag := readTag_of_tagged htags ts
  split at htag
  · next htagged =>
    obtain ⟨_, _, _, a, -, -, hread⟩ := htag
    rw [htagged, hread]
    rfl
  · next htagged =>
    rw [Bool.not_eq_true] at htagged
    rw [htagged, htag]
    rfl

theorem told_program : told stop (program ts) = (parse (ts ++ [stop])).mapError .refused := by
  simp only [parse, input_append_eof hstop]
  cases program ts <;> rfl

end Productions

theorem parse_completed (ts : List Token) : parse (completed ts) = parse ts := by
  obtain ⟨stop, hts, hstop, hstart⟩ := completed_eq_append ts
  rw [hts, parse, input_append_eof hstop, parse, hstart]

/-- Every walk from a cursor within the tokens ends within them. Its rounds and calls are no deeper than there
are tokens left, it advances at most once from each position, and it looks no token up out of range; a
command, a branch, a block, a test and strings are read by moving on. A tag that is recognised is always
read. The walk of a program answers what the tokens that are left are read as, and from the start what all
of them are. -/
theorem walks_end_within_tokens (ts : List Token) :
    (∃ c', Ends Walk.program (.start ts) ((parse ts).mapError .refused) c') ∧
    ∀ c : Cursor, c.Within ts →
      (∀ {α : Type} (p : Production α), Settles p c) ∧
      (∃ o c', (Walk.atTag Walk.matchTags).run c = some (.ok o.isSome, c) ∧
        Walk.matchType.run c = some (.ok o, c')) ∧
      (∃ o c', (Walk.atTag Walk.partTags).run c = some (.ok o.isSome, c) ∧
        Walk.addressPart.run c = some (.ok o, c')) ∧
      ∃ c', Ends Walk.program c ((parse (c.tokens.drop c.pos)).mapError .refused) c' := by
  have hprogram : ∀ c : Cursor, c.Within ts →
      ∃ c', Ends Walk.program c ((parse (c.tokens.drop c.pos)).mapError .refused) c' := by
    intro c hc
    obtain ⟨us, stop, hstop, h⟩ := hc.before
    obtain ⟨c', -, hends⟩ := ends_program hstop h
    rw [h, ← told_program hstop]
    exact ⟨c', hends⟩
  refine ⟨?_, fun c hc => ?_⟩
  · rw [← parse_completed ts]
    exact hprogram _ (start_within ts)
  · obtain ⟨us, stop, hstop, h⟩ := hc.before
    exact ⟨fun p => settles hstop p h, run_tag hstop mem_matchTags h, run_tag hstop mem_partTags h,
      hprogram c hc⟩

/-- An end of input before the last token, and the word of a command in a string. -/
def oddTokens : List Token :=
  [.endOfInput 0, ⟨.string, "keep", 0, 6⟩, ⟨.semicolon, ";", 6, 7⟩]

/-- Behind the first end of input. -/
def oddCursor : Cursor := ⟨completed oddTokens, 1, [0]⟩

/-- The command is read all the same, over its two tokens. -/
theorem odd_command_ends : oddCursor.Within oddTokens ∧
    ∃ c', (Walk.command 3).run oddCursor = some (.ok .keep, c') ∧ Progress oddCursor c' ∧
      oddCursor.pos < c'.pos := by
  have hc : oddCursor.Within oddTokens := ⟨rfl, by decide⟩
  have hrun : (Walk.command 3).run oddCursor =
      some (.ok .keep, ⟨completed oddTokens, 3, [0, 1, 2]⟩) := rfl
  obtain ⟨hsettles, -⟩ := (walks_end_within_tokens oddTokens).2 oddCursor hc
  obtain ⟨o, c', hends, -, hprogress, hmoves⟩ := hsettles Production.command
  cases hrun.symm.trans (hends 3 (by decide))
  exact ⟨hc, _, hrun, hprogress, hmoves rfl _ rfl⟩

end MailSieve.Script
