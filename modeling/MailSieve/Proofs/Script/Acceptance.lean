import MailSieve.Proofs.Script.Completeness
import MailSieve.Proofs.Script.Soundness

/-!
The scripts that are accepted: exactly what the grammar derives, and the answer is the tree of the
only phrase that has these lexemes.
-/

namespace MailSieve.Script

theorem program_eq_ok {ts : List Token} {p : Program} :
    (∃ r, program ts = .ok (p, r)) ↔ Derives (ts.map Token.lexeme) p := by
  constructor
  · rintro ⟨r, h⟩
    obtain ⟨⟨cs, r₁⟩, hcs, h₁⟩ := bind_eq_ok.1 h
    obtain ⟨ds, rfl, hds⟩ := commands_sound hcs
    cases r₁ with
    | nil =>
      cases h₁
      exact ⟨ds, by simpa using hds.map.symm, rfl⟩
    | cons t r₁ => simp at h₁
  · rintro ⟨ds, hds, rfl⟩
    have h := commands_complete (Nat.lt_succ_self ts.length) (r := []) Phrase.endsBlock_nil
      ⟨ts, by simp, hds.symm⟩
    exact ⟨[], by simp [program, h]⟩

/-- The tokens with an end of input after them, unless the last of them is one. -/
def completed (ts : List Token) : List Token :=
  if ts.getLast?.any fun t => t.kind = .eof then ts
  else ts ++ [.endOfInput ((ts.getLast?.map Token.stop).getD 0)]

theorem completed_eq_append (ts : List Token) :
    ∃ stop, completed ts = (Input.ofTokens ts).tokens ++ [stop] ∧ stop.kind = .eof ∧
      stop.start = (Input.ofTokens ts).stop := by
  unfold completed Input.ofTokens
  cases h : ts.getLast? with
  | none =>
    obtain rfl := List.getLast?_eq_none_iff.1 h
    exact ⟨.endOfInput 0, rfl, rfl, rfl⟩
  | some t =>
    obtain ⟨us, rfl⟩ := List.getLast?_eq_some_iff.1 h
    by_cases ht : t.kind = .eof
    · exact ⟨t, by simp [ht], ht, by simp [ht]⟩
    · exact ⟨.endOfInput t.stop, by simp [ht], rfl, by simp [ht, Token.endOfInput]⟩

theorem completed_eq (ts : List Token) :
    ∃ stop, stop.kind = .eof ∧ completed ts = (Input.ofTokens ts).tokens ++ [stop] := by
  obtain ⟨stop, hts, hstop, -⟩ := completed_eq_append ts
  exact ⟨stop, hstop, hts⟩

theorem input_append_eof {us : List Token} {stop : Token} (hstop : stop.kind = .eof) :
    Input.ofTokens (us ++ [stop]) = ⟨us, stop.start⟩ := by
  simp [Input.ofTokens, hstop]

theorem parse_eq_ok {ts : List Token} {p : Program} :
    parse ts = .ok p ↔ Derives ((Input.ofTokens ts).tokens.map Token.lexeme) p := by
  rw [← program_eq_ok]
  unfold parse
  simp only
  split
  · next h => simp [h]
  · next h => simp [h]

theorem parse_append_eof {us : List Token} {stop : Token} {p : Program} (hstop : stop.kind = .eof) :
    parse (us ++ [stop]) = .ok p ↔ Derives (us.map Token.lexeme) p := by
  rw [parse_eq_ok, input_append_eof hstop]

theorem eof_not_mem_of_derives {ts : List Token} {p : Program}
    (h : Derives (ts.map Token.lexeme) p) : ∀ t ∈ ts, t.kind ≠ .eof := by
  obtain ⟨ds, hds, -⟩ := h
  intro t ht hk
  have hw := Phrase.writable_commands ds t.lexeme (hds ▸ List.mem_map_of_mem ht)
  rw [lexeme_eq_sign.2 ⟨hk, by decide⟩] at hw
  exact hw.2.2 rfl

theorem map_lexeme_input (ts : List Token) :
    (Input.ofTokens ts).tokens.map Token.lexeme =
      if (ts.map Token.lexeme).getLast? = some (.sign .eof) then (ts.map Token.lexeme).dropLast
      else ts.map Token.lexeme := by
  unfold Input.ofTokens
  rw [List.getLast?_map]
  cases h : ts.getLast? with
  | none => simp [List.getLast?_eq_none_iff.1 h]
  | some t => by_cases ht : t.kind = .eof <;> simp [ht, lexeme_eq_sign, List.map_dropLast]

/-- A token list is accepted exactly if it is that of a derivation and an end of input, and there is
only one. Nothing counts of a token but its kind and what a word or string holds. -/
theorem parse_eq_ok_iff_derives (ts : List Token) :
    (∀ p, parse ts = .ok p ↔ ∃ body stop, completed ts = body ++ [stop] ∧ stop.kind = .eof ∧
      (∀ t ∈ body, t.kind ≠ .eof) ∧ Derives (body.map Token.lexeme) p) ∧
    (∀ ls d e, Phrase.commands d = ls → Phrase.commands e = ls → d = e) ∧
    ∀ us, us.map Token.lexeme = ts.map Token.lexeme → ∀ p, parse us = .ok p ↔ parse ts = .ok p := by
  refine ⟨fun p => ?_, fun ls d e hd he => ?_, fun us hus p => ?_⟩
  · obtain ⟨stop, hstop, hts⟩ := completed_eq ts
    rw [parse_eq_ok, hts]
    constructor
    · intro h
      exact ⟨_, stop, rfl, hstop, eof_not_mem_of_derives h, h⟩
    · rintro ⟨body, stop', hb, -, -, h⟩
      rwa [(List.append_inj' hb rfl).1]
  · exact Phrase.commands_injective (hd.trans he.symm)
  · rw [parse_eq_ok, parse_eq_ok, map_lexeme_input, map_lexeme_input, hus]

/-- Positions and the text of a sign do not count: this is `addflag "v" "f";`. -/
theorem parse_addflagTo_of_derives :
    parse [⟨.identifier, "addflag", 9, 3⟩, ⟨.string, "v", 0, 0⟩, ⟨.string, "f", 0, 0⟩,
      ⟨.semicolon, "?", 7, 7⟩] = .ok [.addflag (some "v") ["f"]] :=
  ((parse_eq_ok_iff_derives _).1 _).2 ⟨_, .endOfInput 7, rfl, rfl, by decide,
    [.addflagTo "v" "f"], rfl, rfl⟩

end MailSieve.Script