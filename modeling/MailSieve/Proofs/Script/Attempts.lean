import Mathlib.Logic.Function.Iterate
import MailSieve.Proofs.Script.Completeness
import MailSieve.Proofs.Script.Placement

/-!
Reading one program after another from the same tokens. An attempt goes on from where the one before it
ended or got stuck, and the end of a script within the tokens is where the attempt on that script is stuck.
-/

namespace MailSieve.Script

/-- What an attempt to read a program leaves to the next. -/
def leftBy (ts : List Token) : List Token :=
  match program ts with
  | .ok (_, r) => r
  | .error s => s.rest

theorem leftBy_of_ok {ts r : List Token} {p : Program} (h : program ts = .ok (p, r)) :
    leftBy ts = r := by
  rw [leftBy, h]

theorem leftBy_of_error {ts : List Token} {s : Stuck} (h : program ts = .error s) :
    leftBy ts = s.rest := by
  rw [leftBy, h]

/-- A program is read to the end of the tokens. -/
theorem program_leaves_nothing {ts r : List Token} {p : Program} (h : program ts = .ok (p, r)) :
    r = [] := by
  obtain ⟨⟨cs, r'⟩, -, h'⟩ := bind_eq_ok.1 h
  cases r' with
  | nil =>
    cases h'
    rfl
  | cons t r' => simp at h'

theorem leftBy_suffix (ts : List Token) : leftBy ts <:+ ts := by
  cases h : program ts with
  | ok q =>
    rw [leftBy_of_ok h, program_leaves_nothing h]
    exact List.nil_suffix
  | error s =>
    rw [leftBy_of_error h]
    exact suffix_of_program h

theorem iterate_leftBy_suffix (n : Nat) (ts : List Token) : leftBy^[n] ts <:+ ts := by
  induction n with
  | zero => exact List.suffix_refl ts
  | succ n ih =>
    rw [Function.iterate_succ_apply']
    exact (leftBy_suffix _).trans ih

/-! An end of input is put after the tokens again, so that a later attempt is one on a shorter list. -/

section Stop

variable {stop : Token} (hstop : stop.kind = .eof)

include hstop

theorem parse_append_of_ok {us r : List Token} {p : Program} (h : program us = .ok (p, r)) :
    parse (us ++ [stop]) = .ok p := by
  simp only [parse, input_append_eof hstop, h]

theorem parse_append_of_error {us : List Token} {s : Stuck} (h : program us = .error s) :
    parse (us ++ [stop]) = .error (s.error stop.start) := by
  simp only [parse, input_append_eof hstop, h]

theorem readRepeatedly_succ (n : Nat) (us : List Token) :
    readRepeatedly stop.start (n + 1) us =
      parse (us ++ [stop]) :: readRepeatedly stop.start n (leftBy us) := by
  cases h : program us with
  | ok q => rw [readRepeatedly, h, parse_append_of_ok hstop h, leftBy_of_ok h]
  | error s => rw [readRepeatedly, h, parse_append_of_error hstop h, leftBy_of_error h]

theorem readRepeatedly_eq_map (n : Nat) (us : List Token) :
    readRepeatedly stop.start n us =
      (List.range n).map fun i => parse (leftBy^[i] us ++ [stop]) := by
  induction n generalizing us with
  | zero => rfl
  | succ n ih =>
    rw [readRepeatedly_succ hstop, ih, List.range_succ_eq_map, List.map_cons, List.map_map]
    rfl

end Stop

/-- The index at which an attempt starts, in the tokens with their end of input. -/
def position (ts : List Token) (n : Nat) : Nat :=
  (Input.ofTokens ts).tokens.length - (leftBy^[n] (Input.ofTokens ts).tokens).length

/-- What an attempt answers: what the tokens from its position on are read as. -/
def answer (ts : List Token) (n : Nat) : Except SyntaxError Program :=
  parse ((completed ts).drop (position ts n))

theorem drop_position {ts : List Token} {stop : Token}
    (hts : completed ts = (Input.ofTokens ts).tokens ++ [stop]) (n : Nat) :
    (completed ts).drop (position ts n) = leftBy^[n] (Input.ofTokens ts).tokens ++ [stop] := by
  obtain ⟨us, hus⟩ := iterate_leftBy_suffix n (Input.ofTokens ts).tokens
  have hposition : position ts n = us.length := by
    rw [position]
    conv_lhs => rw [← hus, List.length_append]
    rw [hus, Nat.add_sub_cancel]
  rw [hposition, hts]
  conv_lhs => rw [← hus, List.append_assoc]
  exact List.drop_left

theorem length_leftBy (ts : List Token) (n : Nat) :
    position ts n + (leftBy^[n] (Input.ofTokens ts).tokens).length =
      (Input.ofTokens ts).tokens.length :=
  Nat.sub_add_cancel (iterate_leftBy_suffix n _).length_le

theorem position_le (ts : List Token) (n : Nat) : position ts n ≤ position ts (n + 1) := by
  have h := (leftBy_suffix (leftBy^[n] (Input.ofTokens ts).tokens)).length_le
  rw [← Function.iterate_succ_apply' leftBy, Nat.succ_eq_add_one] at h
  have hn := length_leftBy ts n
  have hn' := length_leftBy ts (n + 1)
  omega

theorem position_lt (ts : List Token) (n : Nat) : position ts n < (completed ts).length := by
  obtain ⟨stop, -, hts⟩ := completed_eq ts
  have hn := length_leftBy ts n
  rw [hts, List.length_append, List.length_singleton]
  omega

/-- How an attempt moves the position. After a program all is read but the end of input, else the next
token is the one at which something else was expected. -/
structure Moves (ts : List Token) (n : Nat) : Prop where
  le : position ts n ≤ position ts (n + 1)
  lt : position ts n < (completed ts).length
  of_ok {p : Program} : answer ts n = .ok p → position ts (n + 1) + 1 = (completed ts).length
  of_error {e : SyntaxError} : answer ts n = .error e →
    ∃ es t, e = unexpected es t ∧ (completed ts)[position ts (n + 1)]? = some t

theorem leftBy_of_parse {us : List Token} {stop : Token} (hstop : stop.kind = .eof) {p : Program}
    (h : parse (us ++ [stop]) = .ok p) : leftBy us = [] := by
  obtain ⟨r, hr⟩ := program_eq_ok.2 ((parse_append_eof hstop).1 h)
  rw [leftBy_of_ok hr, program_leaves_nothing hr]

theorem head?_leftBy {us : List Token} {stop : Token} (hstop : stop.kind = .eof) {e : SyntaxError}
    (h : parse (us ++ [stop]) = .error e) :
    ∃ es t, e = unexpected es t ∧ (leftBy us ++ [stop]).head? = some t := by
  cases hus : program us with
  | ok q =>
    rw [parse_append_of_ok hstop hus] at h
    cases h
  | error s =>
    rw [parse_append_of_error hstop hus] at h
    cases h
    obtain ⟨t, ht, herror⟩ := s.exists_unexpected hstop
    exact ⟨s.expected, t, herror, by rwa [leftBy_of_error hus]⟩

theorem moves (ts : List Token) (n : Nat) : Moves ts n := by
  obtain ⟨stop, hstop, hts⟩ := completed_eq ts
  refine ⟨position_le ts n, position_lt ts n, fun {p} h => ?_, fun {e} h => ?_⟩
  · rw [answer, drop_position hts] at h
    have hn := length_leftBy ts (n + 1)
    rw [Function.iterate_succ_apply', leftBy_of_parse hstop h] at hn
    rw [hts, List.length_append, ← hn]
    rfl
  · rw [answer, drop_position hts] at h
    obtain ⟨es, t, he, ht⟩ := head?_leftBy hstop h
    refine ⟨es, t, he, ?_⟩
    rw [← ht, ← Function.iterate_succ_apply' leftBy, ← drop_position hts, List.head?_drop]

/-- After a program nothing is left to read. -/
theorem answer_of_ok {ts : List Token} {n m : Nat} {p : Program} (h : answer ts n = .ok p)
    (hm : n < m) : answer ts m = .ok [] := by
  obtain ⟨stop, hstop, hts⟩ := completed_eq ts
  rw [answer, drop_position hts] at h
  have hnil : leftBy^[m] (Input.ofTokens ts).tokens = [] := by
    obtain ⟨d, rfl⟩ := Nat.exists_eq_add_of_lt hm
    rw [show n + d + 1 = d + (n + 1) by omega, Function.iterate_add_apply,
      Function.iterate_succ_apply', leftBy_of_parse hstop h]
    exact List.suffix_nil.1 (iterate_leftBy_suffix d [])
  rw [answer, drop_position hts, hnil]
  exact (parse_append_eof hstop).2 ⟨[], rfl, rfl⟩

/-! The tokens of several scripts, one after another. -/

/-- A script that can be read, with the only end of input at its end. -/
def Closed (ts : List Token) : Prop :=
  (∃ body stop, ts = body ++ [stop] ∧ stop.kind = .eof ∧ ∀ t ∈ body, t.kind ≠ .eof) ∧
    ∃ p, parse ts = .ok p

theorem Closed.exists_derives {s : List Token} (h : Closed s) :
    ∃ body eof p, s = body ++ [eof] ∧ eof.kind = .eof ∧ Derives (body.map Token.lexeme) p := by
  obtain ⟨⟨body, eof, rfl, heof, -⟩, p, hp⟩ := h
  exact ⟨body, eof, p, rfl, heof, (parse_append_eof heof).1 hp⟩

theorem program_append_eof {body r : List Token} {eof : Token} (heof : eof.kind = .eof) {p : Program}
    (h : Derives (body.map Token.lexeme) p) :
    program (body ++ eof :: r) = .error ⟨[.kind .eof], r⟩ := by
  obtain ⟨ds, hds, -⟩ := h
  -- no command starts with an end of input, so the commands are read up to it and it is read last
  have hends : Phrase.EndsBlock ((eof :: r).map Token.lexeme) := by
    rw [List.map_cons, lexeme_eq_sign.2 ⟨heof, by decide⟩]
    exact Phrase.endsBlock_sign
  have hcommands := commands_complete (Nat.lt_add_one _) hends ⟨body, rfl, hds.symm⟩
  rw [program, hcommands]
  simp [heof, stuck]

/-- An attempt on the first of several scripts leaves the others, and is stuck where they start. -/
theorem attempt_on_first {s rest us : List Token} {stop : Token} (hs : Closed s)
    (hstop : stop.kind = .eof) (hrest : rest ≠ []) (h : us ++ [stop] = s ++ rest) :
    leftBy us ++ [stop] = rest ∧
      ∀ t, rest.head? = some t → parse (us ++ [stop]) = .error (unexpected [.kind .eof] t) := by
  obtain ⟨body, eof, p, rfl, heof, hbody⟩ := hs.exists_derives
  obtain ⟨r, last, rfl⟩ : ∃ r last, rest = r ++ [last] :=
    ⟨_, _, (List.dropLast_concat_getLast hrest).symm⟩
  -- `stop` is the end of the last script, and `us` ends before it
  rw [List.append_assoc, List.singleton_append, ← List.cons_append, ← List.append_assoc] at h
  obtain ⟨rfl, hlast⟩ := List.append_inj' h rfl
  cases hlast
  have hstuck := program_append_eof (r := r) heof hbody
  refine ⟨by rw [leftBy_of_error hstuck], fun t ht => ?_⟩
  obtain ⟨u, hu, herror⟩ := Stuck.exists_unexpected ⟨[.kind .eof], r⟩ hstop
  rw [parse_append_of_error hstop hstuck, herror, Option.some.inj (hu.symm.trans ht)]

section Scripts

variable {scripts : List (List Token)} (hclosed : ∀ s ∈ scripts, Closed s) {us : List Token}
  {stop : Token} (hstop : stop.kind = .eof) (h : us ++ [stop] = scripts.flatten)

include hclosed

theorem flatten_drop_ne_nil {i : Nat} (hi : i < scripts.length) : (scripts.drop i).flatten ≠ [] := by
  obtain ⟨body, eof, -, hs, -⟩ := (hclosed _ (List.getElem_mem hi)).exists_derives
  rw [List.drop_eq_getElem_cons hi, List.flatten_cons, hs]
  simp

theorem completed_flatten (hscripts : scripts ≠ []) : completed scripts.flatten = scripts.flatten := by
  obtain ⟨first, last, rfl⟩ : ∃ first last, scripts = first ++ [last] :=
    ⟨_, _, (List.dropLast_concat_getLast hscripts).symm⟩
  obtain ⟨body, eof, -, rfl, heof, -⟩ := (hclosed last (by simp)).exists_derives
  simp [completed, heof]

include hstop h

/-- What is left to an attempt is the scripts that none was on. -/
theorem iterate_leftBy_scripts {i : Nat} (hi : i < scripts.length) :
    leftBy^[i] us ++ [stop] = (scripts.drop i).flatten := by
  induction i with
  | zero => exact h
  | succ i ih =>
    have hlast := ih (Nat.lt_of_succ_lt hi)
    rw [List.drop_eq_getElem_cons (Nat.lt_of_succ_lt hi), List.flatten_cons] at hlast
    rw [Function.iterate_succ_apply']
    exact (attempt_on_first (hclosed _ (List.getElem_mem _)) hstop
      (flatten_drop_ne_nil hclosed hi) hlast).1

theorem length_iterate_leftBy_scripts {i : Nat} (hi : i < scripts.length) :
    us.length = (scripts.take i).flatten.length + (leftBy^[i] us).length := by
  have hleft := congrArg List.length (iterate_leftBy_scripts hclosed hstop h hi)
  have hall := congrArg List.length h
  rw [← List.take_append_drop i scripts, List.flatten_append] at hall
  simp only [List.length_append, List.length_singleton] at hleft hall
  omega

theorem parse_scripts {i : Nat} (hi : i + 1 < scripts.length) {t : Token}
    (ht : scripts[i + 1].head? = some t) :
    parse (leftBy^[i] us ++ [stop]) = .error (unexpected [.kind .eof] t) := by
  have hleft := iterate_leftBy_scripts hclosed hstop h (Nat.lt_of_succ_lt hi)
  rw [List.drop_eq_getElem_cons (Nat.lt_of_succ_lt hi), List.flatten_cons] at hleft
  have hattempt := attempt_on_first (hclosed _ (List.getElem_mem _)) hstop
    (flatten_drop_ne_nil hclosed hi) hleft
  refine hattempt.2 t ?_
  rw [List.drop_eq_getElem_cons hi, List.flatten_cons, List.head?_append, ht]
  rfl

end Scripts

/-- The attempts on a list of tokens. Each moves on from where the one before stood. After a program
there is nothing but empty ones. If the tokens are those of several scripts, there is one attempt on
each: it starts where the script does and is stuck at the first token of the next, and the last answers
with the last program. -/
theorem attempts_in_turn (ts : List Token) :
    (∀ n, parseRepeatedly n ts = (List.range n).map (answer ts)) ∧
    position ts 0 = 0 ∧ (∀ n, Moves ts n) ∧
    (∀ n p, answer ts n = .ok p → ∀ m, n < m → answer ts m = .ok []) ∧
    ∀ scripts : List (List Token), scripts.flatten = ts → (∀ s ∈ scripts, Closed s) →
      (∀ i, i < scripts.length → position ts i = (scripts.take i).flatten.length) ∧
      (∀ i s t, scripts[i + 1]? = some s → s.head? = some t →
        answer ts i = .error (unexpected [.kind .eof] t)) ∧
      ∀ s, scripts.getLast? = some s →
        ∃ p, parse s = .ok p ∧ answer ts (scripts.length - 1) = .ok p := by
  obtain ⟨stop, hts, hstop, hstart⟩ := completed_eq_append ts
  have hanswer : ∀ n, answer ts n = parse (leftBy^[n] (Input.ofTokens ts).tokens ++ [stop]) :=
    fun n => by rw [answer, drop_position hts]
  refine ⟨fun n => ?_, Nat.sub_self _, moves ts, fun n p h m hm => answer_of_ok h hm,
    fun scripts hflatten hclosed => ?_⟩
  · rw [parseRepeatedly, ← hstart, readRepeatedly_eq_map hstop]
    exact List.map_congr_left fun i _ => (hanswer i).symm
  · have hscripts : scripts ≠ [] → (Input.ofTokens ts).tokens ++ [stop] = scripts.flatten := by
      intro hne
      rw [← hts, ← hflatten, completed_flatten hclosed hne]
    refine ⟨fun i hi => ?_, fun i s t hs ht => ?_, fun s hs => ?_⟩
    · have hne := List.ne_nil_of_length_pos (Nat.zero_lt_of_lt hi)
      rw [position, length_iterate_leftBy_scripts hclosed hstop (hscripts hne) hi, Nat.add_sub_cancel]
    · obtain ⟨hi, rfl⟩ := List.getElem?_eq_some_iff.1 hs
      rw [hanswer]
      exact parse_scripts hclosed hstop (hscripts (List.ne_nil_of_length_pos (by omega))) hi ht
    · obtain ⟨first, rfl⟩ := List.getLast?_eq_some_iff.1 hs
      obtain ⟨-, p, hp⟩ := hclosed s (by simp)
      refine ⟨p, hp, ?_⟩
      have hleft := iterate_leftBy_scripts hclosed hstop (hscripts (by simp))
        (i := first.length) (by simp)
      rw [hanswer, List.length_append, List.length_singleton, Nat.add_sub_cancel, hleft]
      simpa using hp

/-- Scripts of one command, of none and of one command again. -/
def threeScripts : List (List Token) :=
  [[⟨.identifier, "keep", 0, 4⟩, ⟨.semicolon, ";", 4, 5⟩, .endOfInput 5], [.endOfInput 0],
    [⟨.identifier, "discard", 0, 7⟩, ⟨.semicolon, ";", 7, 8⟩, .endOfInput 8]]

/-- The second script is empty, so the first attempt is stuck at an end of input. -/
theorem attempts_on_three_scripts :
    (∀ s ∈ threeScripts, Closed s) ∧
      parseRepeatedly 4 threeScripts.flatten =
        [.error (.unexpectedEnd [.kind .eof] 0),
          .error (.unexpectedToken [.kind .eof] ⟨.identifier, "discard", 0, 7⟩),
          .ok [.discard], .ok []] := by
  have hclosed : ∀ s ∈ threeScripts, Closed s := by
    simp only [threeScripts, List.forall_mem_cons]
    refine ⟨?_, ?_, ?_, by simp⟩
    · exact ⟨⟨[⟨.identifier, "keep", 0, 4⟩, ⟨.semicolon, ";", 4, 5⟩], _, rfl, rfl, by decide⟩,
        _, rfl⟩
    · exact ⟨⟨[], _, rfl, rfl, by decide⟩, _, rfl⟩
    · exact ⟨⟨[⟨.identifier, "discard", 0, 7⟩, ⟨.semicolon, ";", 7, 8⟩], _, rfl, rfl, by decide⟩,
        _, rfl⟩
  obtain ⟨hanswers, -, -, hafter, hscripts⟩ := attempts_in_turn threeScripts.flatten
  obtain ⟨-, hstuck, hlast⟩ := hscripts threeScripts rfl hclosed
  have h₀ := hstuck 0 _ _ rfl rfl
  have h₁ := hstuck 1 _ _ rfl rfl
  have h₂ : answer threeScripts.flatten 2 = .ok [.discard] := by
    obtain ⟨p, hp, h₂⟩ := hlast _ rfl
    exact h₂.trans (hp.symm.trans rfl)
  have h₃ := hafter 2 _ h₂ 3 (by decide)
  refine ⟨hclosed, ?_⟩
  rw [hanswers, show List.range 4 = [0, 1, 2, 3] from rfl]
  simp only [List.map_cons, List.map_nil, h₀, h₁, h₂, h₃]
  rfl

end MailSieve.Script
