import MailSieve.Proofs.Script.Acceptance
import MailSieve.Proofs.Script.Prompting.Commands

/-!
Where tokens stand does not matter to the productions: each answers the same when the places of its
tokens are forgotten, so lists that only places tell apart are read as one program, or are stuck at the
same token for want of the same.
-/

namespace MailSieve.Script

/-- A token with its place forgotten. -/
def Token.unplaced (t : Token) : Token := ⟨t.kind, t.text, 0, 0⟩

@[simp] theorem Token.unplaced_kind (t : Token) : t.unplaced.kind = t.kind := rfl

@[simp] theorem Token.unplaced_text (t : Token) : t.unplaced.text = t.text := rfl

theorem Token.unplaced_eq_iff {t u : Token} :
    t.unplaced = u.unplaced ↔ t.kind = u.kind ∧ t.text = u.text := by
  simp [Token.unplaced]

/-- An answer with the places of its tokens forgotten. -/
def forget (g : α → α) : Except Stuck (α × List Token) → Except Stuck (α × List Token)
  | .ok p => .ok (g p.1, p.2.map Token.unplaced)
  | .error s => .error ⟨s.expected, s.rest.map Token.unplaced⟩

/-- Forgetting the places before reading or after it is the same. -/
def Placeless (g : α → α) (y : List Token → Except Stuck (α × List Token)) : Prop :=
  ∀ ts, y (ts.map Token.unplaced) = forget g (y ts)

variable {g : α → α} {y : List Token → Except Stuck (α × List Token)}

theorem forget_bind {o : Except Stuck (α × List Token)}
    {F : α × List Token → Except Stuck (β × List Token)}
    (hF : ∀ a r, o = .ok (a, r) → F (g a, r.map Token.unplaced) = forget id (F (a, r))) :
    forget g o >>= F = forget id (o >>= F) := by
  cases o with
  | ok p => exact hF p.1 p.2 rfl
  | error s => rfl

/-- A choice by the first token. The conditions are the same, only not written so. -/
theorem forget_ite {c d : Prop} [Decidable c] [Decidable d] (hcd : c ↔ d)
    {a b a' b' : Except Stuck (α × List Token)} (ha : a = forget g a') (hb : b = forget g b') :
    (if c then a else b) = forget g (if d then a' else b') := by
  by_cases hc : c
  · rw [if_pos hc, if_pos (hcd.1 hc), ha]
  · rw [if_neg hc, if_neg (mt hcd.2 hc), hb]

theorem Placeless.bind {F : α × List Token → Except Stuck (β × List Token)} (h : Placeless g y)
    (hg : ∀ a r, F (g a, r) = F (a, r)) (hF : ∀ a, Placeless id fun r => F (a, r)) :
    Placeless id fun ts => y ts >>= F := by
  intro ts
  dsimp only
  rw [h ts]
  exact forget_bind fun a r _ => (hg a _).trans (hF a r)

theorem Placeless.map {f : α → β} (h : Placeless g y) (hf : ∀ a, f (g a) = f a) :
    Placeless id fun ts => y ts >>= fun p => .ok (f p.1, p.2) :=
  h.bind (fun a r => by rw [hf]) fun _ _ => rfl

theorem placeless_expect (k : Kind) : Placeless Token.unplaced (expect k)
  | [] => rfl
  | _ :: _ => forget_ite .rfl rfl rfl

theorem placeless_optionalTag (read : String → Option α) : Placeless id (optionalTag read)
  | [] | [_] => rfl
  | c :: t :: r => by
    by_cases hk : c.kind = .colon ∧ t.kind = .identifier
    · cases hr : read t.text <;> simp [optionalTag, readTag_cons, hk, hr, forget]
    · simp [optionalTag, readTag_cons, hk, forget]

theorem placeless_moreStrings (ts : List Token) :
    moreStrings (ts.map Token.unplaced) = forget id (moreStrings ts) := by
  cases ts with
  | nil =>
    rw [List.map_nil, moreStrings]
    rfl
  | cons t r =>
    rw [List.map_cons, moreStrings_cons, moreStrings_cons, placeless_expect]
    refine forget_ite .rfl rfl (forget_ite .rfl (forget_bind fun s r' hr => ?_) rfl)
    rw [placeless_moreStrings r']
    exact forget_bind fun _ _ _ => rfl
termination_by ts.length
decreasing_by
  rw [(expect_eq_ok.1 hr).1, List.length_cons, List.length_cons]
  omega

theorem placeless_strings : Placeless id strings
  | [] => rfl
  | t :: r => by
    have hlist := (placeless_expect .string).bind (F := fun p => moreStrings p.2 >>= fun q =>
      .ok (p.1.text :: q.1, q.2)) (fun _ _ => rfl) fun s =>
        Placeless.map (f := fun ss => s.text :: ss) placeless_moreStrings fun _ => rfl
    exact forget_ite .rfl rfl (forget_ite .rfl (hlist r) rfl)

theorem comparator_eq : comparator = fun ts =>
    optionalTag (fun w => if w = "comparator" then some () else none) ts >>= fun o =>
    match o.1 with
    | some _ => expect .string o.2 >>= fun s => .ok (some s.1.text, s.2)
    | none => .ok (none, o.2) := by
  funext ts
  simp only [comparator, optionalTag, ok_bind]
  split <;> simp_all

theorem placeless_comparator : Placeless id comparator := by
  rw [comparator_eq]
  refine (placeless_optionalTag _).bind (fun _ _ => rfl) fun o => ?_
  cases o with
  | none => exact fun _ => rfl
  | some _ => exact (placeless_expect .string).map (f := fun s => some s.text) fun _ => rfl

theorem placeless_headerTest : Placeless id headerTest := by
  rw [headerTest_eq]
  refine placeless_comparator.bind (fun _ _ => rfl) fun c => ?_
  dsimp only
  refine (placeless_optionalTag _).bind (fun _ _ => rfl) fun m => ?_
  dsimp only
  refine placeless_strings.bind (fun _ _ => rfl) fun hs => ?_
  exact placeless_strings.map (f := fun ks => Test.header ⟨c, m, hs, ks⟩) fun _ => rfl

theorem placeless_addressTest : Placeless id addressTest := by
  rw [addressTest_eq]
  refine placeless_comparator.bind (fun _ _ => rfl) fun c => ?_
  dsimp only
  refine (placeless_optionalTag _).bind (fun _ _ => rfl) fun p => ?_
  dsimp only
  refine (placeless_optionalTag _).bind (fun _ _ => rfl) fun m => ?_
  dsimp only
  refine placeless_strings.bind (fun _ _ => rfl) fun hs => ?_
  exact placeless_strings.map (f := fun ks => Test.address ⟨c, p, m, hs, ks⟩) fun _ => rfl

mutual

theorem placeless_test : ∀ n, Placeless id (test n)
  | 0, ts => by
    rw [test, test]
    rfl
  | n + 1, [] => by
    rw [List.map_nil, test_nil]
    rfl
  | n + 1, t :: r => by
    have hall := (placeless_testList n).map (f := Test.allof) fun _ => rfl
    have hany := (placeless_testList n).map (f := Test.anyof) fun _ => rfl
    rw [List.map_cons, test_cons, test_cons]
    refine forget_ite .rfl (forget_ite .rfl (placeless_headerTest r) ?_) rfl
    refine forget_ite .rfl (placeless_addressTest r) ?_
    exact forget_ite .rfl (hall r) (forget_ite .rfl (hany r) rfl)

theorem placeless_testList : ∀ n, Placeless id (testList n)
  | 0, ts => by
    rw [testList, testList]
    rfl
  | n + 1, ts => by
    rw [testList_succ]
    refine (placeless_expect .lparen).bind (fun _ _ => rfl) (fun _ => ?_) ts
    dsimp only
    refine (placeless_test n).bind (fun _ _ => rfl) fun u => ?_
    exact (placeless_moreTests n).map (f := fun us => u :: us) fun _ => rfl

theorem placeless_moreTests : ∀ n, Placeless id (moreTests n)
  | 0, ts => by
    rw [moreTests, moreTests]
    rfl
  | n + 1, [] => by
    rw [List.map_nil, moreTests]
    rfl
  | n + 1, t :: r => by
    have hmore := (placeless_test n).bind (F := fun u => moreTests n u.2 >>= fun us =>
      .ok (u.1 :: us.1, us.2)) (fun _ _ => rfl) fun u =>
        (placeless_moreTests n).map (f := fun us => u :: us) fun _ => rfl
    rw [List.map_cons, moreTests_cons, moreTests_cons]
    exact forget_ite .rfl rfl (forget_ite .rfl (hmore r) rfl)

end

theorem placeless_addflagTarget :
    Placeless id fun ts => Except.ok (addflagTarget ts)
  | [] | [_] => rfl
  | s :: t :: r => by
    by_cases hs : s.kind = .string <;> by_cases ht : t.kind = .string <;>
      simp [addflagTarget, hs, ht, forget]

/-- What is read, and the semicolon after it. -/
theorem Placeless.closed {f : α → β} (h : Placeless g y) (hf : ∀ a, f (g a) = f a) :
    Placeless id fun ts => y ts >>= fun p => expect .semicolon p.2 >>= fun q => .ok (f p.1, q.2) := by
  refine h.bind (fun a r => by rw [hf]) fun a => ?_
  exact (placeless_expect .semicolon).map (f := fun _ => f a) fun _ => rfl

theorem placeless_simpleCommand (w : String) : Placeless id (simpleCommand w) := by
  intro ts
  unfold simpleCommand
  split
  · exact placeless_strings.closed (f := Command.require) (fun _ => rfl) ts
  · exact (placeless_expect .semicolon).map (f := fun _ => Command.keep) (fun _ => rfl) ts
  · exact (placeless_expect .semicolon).map (f := fun _ => Command.discard) (fun _ => rfl) ts
  · exact (placeless_expect .string).closed (f := fun m => Command.fileinto m.text) (fun _ => rfl) ts
  · exact placeless_addflagTarget.bind (F := fun v => strings v.2 >>= fun fs =>
      expect .semicolon fs.2 >>= fun q => .ok (Command.addflag v.1 fs.1, q.2)) (fun _ _ => rfl)
      (fun v => placeless_strings.closed (f := Command.addflag v) fun _ => rfl) ts

mutual

theorem placeless_commands : ∀ n, Placeless id (commands n)
  | 0, ts => by
    rw [commands, commands]
    rfl
  | n + 1, [] => by
    rw [List.map_nil, commands_nil]
    rfl
  | n + 1, t :: r => by
    have hbranch := (placeless_branch n).bind (F := fun b => commands n b.2 >>= fun cs =>
      .ok (Command.branch b.1.1 b.1.2.1 b.1.2.2 :: cs.1, cs.2)) (fun _ _ => rfl) fun b =>
        (placeless_commands n).map (f := fun cs => Command.branch b.1 b.2.1 b.2.2 :: cs) fun _ => rfl
    have hsimple := (placeless_simpleCommand t.text).bind (F := fun c => commands n c.2 >>= fun cs =>
      .ok (c.1 :: cs.1, cs.2)) (fun _ _ => rfl) fun c =>
        (placeless_commands n).map (f := fun cs => c :: cs) fun _ => rfl
    rw [List.map_cons, commands_cons, commands_cons]
    refine forget_ite .rfl (forget_ite .rfl (hbranch r) ?_) rfl
    exact forget_ite .rfl (hsimple r) rfl

theorem placeless_branch : ∀ n, Placeless id (branch n)
  | 0, ts => by
    rw [branch, branch]
    rfl
  | n + 1, ts => by
    have htest : Placeless id fun ts => test (ts.length + 1) ts := fun ts => by
      dsimp only
      rw [List.length_map]
      exact placeless_test _ ts
    rw [branch_succ]
    refine htest.bind (fun _ _ => rfl) (fun u => ?_) ts
    dsimp only
    refine (placeless_block n).bind (fun _ _ => rfl) fun b => ?_
    exact (placeless_chain n).map (f := fun e => (u, b, e)) fun _ => rfl

theorem placeless_block : ∀ n, Placeless id (block n)
  | 0, ts => by
    rw [block, block]
    rfl
  | n + 1, ts => by
    rw [block_succ]
    refine (placeless_expect .lbrace).bind (fun _ _ => rfl) (fun _ => ?_) ts
    dsimp only
    refine (placeless_commands n).bind (fun _ _ => rfl) fun cs => ?_
    exact (placeless_expect .rbrace).map (f := fun _ => cs) fun _ => rfl

theorem placeless_chain : ∀ n, Placeless id (chain n)
  | 0, ts => by
    rw [chain, chain]
    rfl
  | n + 1, [] => by
    rw [List.map_nil, chain_nil]
    rfl
  | n + 1, t :: r => by
    have helsif := (placeless_branch n).map (f := fun b => Chain.elsif b.1 b.2.1 b.2.2) fun _ => rfl
    have helse := (placeless_block n).map (f := Chain.otherwise) fun _ => rfl
    rw [List.map_cons, chain_cons, chain_cons]
    exact forget_ite .rfl (helsif r) (forget_ite .rfl (helse r) rfl)

end

theorem placeless_program : Placeless id program := by
  intro ts
  unfold program
  rw [List.length_map, placeless_commands]
  refine forget_bind fun cs r _ => ?_
  cases r with
  | nil => rfl
  | cons t r =>
    by_cases ht : t.kind = .eof <;> simp [ht, stuck, forget]

/-- A program is stuck at a token of its list, or at its end. -/
theorem suffix_of_program {ts : List Token} {s : Stuck} (h : program ts = .error s) :
    s.rest <:+ ts := by
  obtain ⟨us, hus, -, -⟩ := reads_commands _ ts (Nat.lt_succ_self _)
  unfold program at h
  cases ho : commands (ts.length + 1) ts with
  | error e =>
    rw [ho] at h hus
    cases h
    exact ⟨us, hus.symm⟩
  | ok q =>
    obtain ⟨cs, r⟩ := q
    rw [ho] at h hus
    change ts = us ++ r at hus
    cases r with
    | nil => cases h
    | cons t r =>
      by_cases ht : t.kind = .eof
      · simp only [ok_bind, ht, if_true] at h
        cases h
        exact ⟨us ++ [t], by rw [hus, List.append_assoc]; rfl⟩
      · simp only [ok_bind, ht, if_false] at h
        cases h
        exact ⟨us, hus.symm⟩

/-- The error at a token where something else was expected. -/
def unexpected (es : List Expected) (t : Token) : SyntaxError :=
  if t.kind = .eof then .unexpectedEnd es t.start else .unexpectedToken es t

/-- Two lists are read as one program, or they are refused at the same index, at tokens of one kind and
text, for want of the same. The position in the error is that of the token in its own list. -/
inductive Agree (ts us : List Token) : Prop
  | accepted {p : Program} : parse ts = .ok p → parse us = .ok p → Agree ts us
  | refused {i : Nat} {t u : Token} {es : List Expected} :
    (completed ts)[i]? = some t → (completed us)[i]? = some u → t.kind = u.kind → t.text = u.text →
    parse ts = .error (unexpected es t) → parse us = .error (unexpected es u) → Agree ts us

/-- The error is about the first token that is left, the end of input included. -/
theorem Stuck.exists_unexpected (s : Stuck) {stop : Token} (hkind : stop.kind = .eof) :
    ∃ t, (s.rest ++ [stop]).head? = some t ∧ s.error stop.start = unexpected s.expected t := by
  cases hrest : s.rest with
  | nil => exact ⟨stop, rfl, by simp [Stuck.error, hrest, unexpected, hkind]⟩
  | cons t r => exact ⟨t, rfl, by simp only [Stuck.error, hrest, unexpected]⟩

/-- A list is refused at the token where its program is stuck. -/
theorem parse_of_stuck {ts : List Token} {s : Stuck}
    (h : program (Input.ofTokens ts).tokens = .error s) :
    ∃ t, (completed ts)[(Input.ofTokens ts).tokens.length - s.rest.length]? = some t ∧
      parse ts = .error (unexpected s.expected t) := by
  obtain ⟨stop, hcompleted, hkind, hstart⟩ := completed_eq_append ts
  obtain ⟨us, hus⟩ := suffix_of_program h
  obtain ⟨t, ht, herror⟩ := s.exists_unexpected hkind
  have hparse : parse ts = .error (s.error (Input.ofTokens ts).stop) := by
    simp only [parse, h]
  refine ⟨t, ?_, by rw [hparse, ← hstart, herror]⟩
  rw [hcompleted, ← hus, List.length_append, Nat.add_sub_cancel, List.append_assoc,
    List.getElem?_append_right (Nat.le_refl _), Nat.sub_self, ← List.head?_eq_getElem?, ht]

theorem tokens_unplaced {ts us : List Token}
    (h : (completed ts).map Token.unplaced = (completed us).map Token.unplaced) :
    (Input.ofTokens ts).tokens.map Token.unplaced =
      (Input.ofTokens us).tokens.map Token.unplaced := by
  obtain ⟨x, hx, -⟩ := completed_eq_append ts
  obtain ⟨z, hz, -⟩ := completed_eq_append us
  rw [hx, hz, List.map_append, List.map_append] at h
  exact (List.append_inj' h rfl).1

theorem agree_of_stuck {ts us : List Token} {s s' : Stuck}
    (h : (completed ts).map Token.unplaced = (completed us).map Token.unplaced)
    (hts : program (Input.ofTokens ts).tokens = .error s)
    (hus : program (Input.ofTokens us).tokens = .error s')
    (hexpected : s.expected = s'.expected) (hrest : s.rest.length = s'.rest.length) :
    Agree ts us := by
  obtain ⟨t, ht, hparse⟩ := parse_of_stuck hts
  obtain ⟨u, hu, hparse'⟩ := parse_of_stuck hus
  have hlength := congrArg List.length (tokens_unplaced h)
  rw [List.length_map, List.length_map] at hlength
  rw [← hlength, ← hrest] at hu
  have htu : t.unplaced = u.unplaced := by
    have hi := congrArg (·[(Input.ofTokens ts).tokens.length - s.rest.length]?) h
    simpa [ht, hu] using hi
  rw [Token.unplaced_eq_iff] at htu
  exact .refused ht hu htu.1 htu.2 hparse (hexpected ▸ hparse')

/-- Lists that only the places of their tokens tell apart agree. -/
theorem agree_of_unplaced {ts us : List Token}
    (h : (completed ts).map Token.unplaced = (completed us).map Token.unplaced) : Agree ts us := by
  have hprogram : forget id (program (Input.ofTokens ts).tokens) =
      forget id (program (Input.ofTokens us).tokens) := by
    rw [← placeless_program, ← placeless_program, tokens_unplaced h]
  cases hts : program (Input.ofTokens ts).tokens with
  | ok p =>
    cases hus : program (Input.ofTokens us).tokens with
    | ok q =>
      simp only [hts, hus, forget, Except.ok.injEq, Prod.mk.injEq, id_eq] at hprogram
      exact .accepted (p := p.1) (by simp only [parse, hts]) (by simp only [parse, hus, hprogram])
    | error s' => simp [hts, hus, forget] at hprogram
  | error s =>
    cases hus : program (Input.ofTokens us).tokens with
    | ok q => simp [hts, hus, forget] at hprogram
    | error s' =>
      simp only [hts, hus, forget, Except.error.injEq, Stuck.mk.injEq] at hprogram
      have hrest := congrArg List.length hprogram.2
      rw [List.length_map, List.length_map] at hrest
      exact agree_of_stuck h hts hus hprogram.1 hrest

end MailSieve.Script
