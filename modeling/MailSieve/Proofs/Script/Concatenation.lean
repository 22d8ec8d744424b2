import MailSieve.Proofs.Script.Acceptance
import MailSieve.Proofs.Script.Lexing

/-!
Scripts one after another: the text of two scripts, written without anything between them, is the text
of their commands in turn.
-/

namespace MailSieve.Script

namespace Phrase

theorem commands_append (cs ds : List Command) :
    commands (cs ++ ds) = commands cs ++ commands ds := by
  induction cs with
  | nil => rfl
  | cons c cs ih => simp [commands, ih]

theorem commandTrees_append (cs ds : List Command) :
    commandTrees (cs ++ ds) = commandTrees cs ++ commandTrees ds := by
  induction cs with
  | nil => rfl
  | cons c cs ih => simp [commandTrees, ih]

def EndsInSign (ls : List Lexeme) : Prop := ∃ ks k, ls = ks ++ [.sign k]

theorem EndsInSign.append {ls : List Lexeme} (h : EndsInSign ls) (ks : List Lexeme) :
    EndsInSign (ks ++ ls) := by
  obtain ⟨js, k, rfl⟩ := h
  exact ⟨ks ++ js, k, (List.append_assoc ..).symm⟩

theorem EndsInSign.cons {ls : List Lexeme} (h : EndsInSign ls) (l : Lexeme) : EndsInSign (l :: ls) :=
  h.append [l]

theorem endsInSign_sign (k : Kind) : EndsInSign [.sign k] := ⟨[], k, rfl⟩

mutual

theorem Branch.endsInSign : ∀ d : Branch, EndsInSign d.yield
  | .mk _ _ next => ((next.endsInSign.append _).cons _).append _

theorem Chain.endsInSign : ∀ d : Chain, EndsInSign (.sign .rbrace :: d.yield)
  | .done => endsInSign_sign _
  | .elsif b => (b.endsInSign.cons _).cons _
  | .otherwise _ => ((((endsInSign_sign _).append _).cons _).cons _).cons _

end

theorem Command.endsInSign (d : Command) : EndsInSign d.yield := by
  cases d with
  | require cs | addflag cs => exact ((endsInSign_sign _).append _).cons _
  | keep | discard => exact (endsInSign_sign _).cons _
  | fileinto m => exact ((endsInSign_sign _).cons _).cons _
  | addflagTo v f => exact (((endsInSign_sign _).cons _).cons _).cons _
  | branch b => exact b.endsInSign.cons _

theorem endsInSign_commands {ds : List Command} (h : ds ≠ []) : EndsInSign (commands ds) := by
  induction ds with
  | nil => exact absurd rfl h
  | cons d ds ih =>
    rw [commands]
    cases ds with
    | nil => simpa [commands] using d.endsInSign
    | cons e ds => exact (ih (List.cons_ne_nil _ _)).append _

end Phrase

theorem Derives.append {ks ls : List Lexeme} {p q : Program} (hp : Derives ks p)
    (hq : Derives ls q) : Derives (ks ++ ls) (p ++ q) := by
  obtain ⟨cs, rfl, rfl⟩ := hp
  obtain ⟨ds, rfl, rfl⟩ := hq
  exact ⟨cs ++ ds, Phrase.commands_append cs ds, Phrase.commandTrees_append cs ds⟩

/-- No script ends in a word. -/
theorem Derives.not_endsInWord {ls : List Lexeme} {p : Program} (h : Derives ls p)
    (ks : List Lexeme) (w : String) : ls ≠ ks ++ [.word w] := by
  obtain ⟨ds, rfl, -⟩ := h
  intro hw
  by_cases hd : ds = []
  · simp [hd, Phrase.commands] at hw
  · obtain ⟨js, k, hs⟩ := Phrase.endsInSign_commands hd
    simpa using (List.append_inj' (hw.symm.trans hs) rfl).2

theorem parseScript_eq_ok {s : String} {p : Program} :
    parseScript s = .ok p ↔
      ∃ us stop, Lexed 0 s.toList (us ++ [.endOfInput stop]) ∧ Derives (us.map Token.lexeme) p := by
  unfold parseScript tokenize
  rw [bind_eq_ok]
  constructor
  · rintro ⟨ts, hts, h⟩
    rw [tokensFrom_eq_ok] at hts
    obtain ⟨us, stop, rfl⟩ := hts.ends
    exact ⟨us, stop, hts, (parse_append_eof rfl).1 h⟩
  · rintro ⟨us, stop, hts, h⟩
    exact ⟨_, hts.tokensFrom_eq, (parse_append_eof rfl).2 h⟩

theorem apart_of_derives {n : Nat} {a : List Char} {us : List Token} {stop : Nat} {p : Program}
    (hl : Lexed n a (us ++ [.endOfInput stop])) (h : Derives (us.map Token.lexeme) p)
    (b : List Char) : Apart a b := by
  intro c hc ha
  obtain ⟨vs, t, e, hts, ht⟩ := hl.endsInWord hc ha
  have hus : us = vs ++ [t] := (List.append_inj' (hts.trans (List.append_cons vs t [e])) rfl).1
  apply absurd (h.not_endsInWord (vs.map Token.lexeme) t.text)
  simp [hus, ht]

theorem parseScript_concat {a b : String} {p q : Program} (ha : parseScript a = .ok p)
    (hb : parseScript b = .ok q) : parseScript (a ++ b) = .ok (p ++ q) := by
  obtain ⟨us, m, hus, hp⟩ := parseScript_eq_ok.1 ha
  obtain ⟨vs, n, hvs, hq⟩ := parseScript_eq_ok.1 hb
  have hl := hus.append (apart_of_derives hus hp b.toList) (hvs.shift a.toList.length)
  rw [List.dropLast_concat, List.map_append, ← List.append_assoc] at hl
  refine parseScript_eq_ok.2
    ⟨us ++ vs.map (Token.shift a.toList.length), n + a.toList.length, ?_, ?_⟩
  · rw [String.toList_append]
    exact hl
  · rw [List.map_append, List.map_map, lexeme_comp_shift]
    exact hp.append hq

end MailSieve.Script
