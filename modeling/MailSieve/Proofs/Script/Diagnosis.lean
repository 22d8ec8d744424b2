import Mathlib
import MailSieve.Proofs.Script.Colons
import MailSieve.Proofs.Script.Concatenation
import MailSieve.Proofs.Script.Prompting.Commands

/-!
Syntax errors point at the right token: what stands before it can go on to a script, with each of the
expected tokens, and what stands up to it cannot, but for a colon that a tag could start with.
-/

namespace MailSieve.Script

/-- Some token list that starts so is accepted. -/
def Viable (us : List Token) : Prop := ∃ rest p, parse (us ++ rest) = .ok p

/-- A token for a lexeme. -/
def Lexeme.token : Lexeme → Token
  | .word w => ⟨.identifier, w, 0, 0⟩
  | .string s => ⟨.string, s, 0, 0⟩
  | .sign k => ⟨k, "", 0, 0⟩

theorem Lexeme.lexeme_token {l : Lexeme} (h : l.Writable) : l.token.lexeme = l := by
  cases l with
  | word w => rfl
  | string s => rfl
  | sign k => exact lexeme_eq_sign.2 ⟨rfl, h.1, h.2.1⟩

theorem parse_of_derives {ts : List Token} {p : Program} (h : Derives (ts.map Token.lexeme) p) :
    parse ts = .ok p := by
  have hinput : (Input.ofTokens ts).tokens = ts := by
    unfold Input.ofTokens
    cases hlast : ts.getLast? with
    | none => exact (List.getLast?_eq_none_iff.1 hlast).symm
    | some t =>
      have ht := eof_not_mem_of_derives h t (List.mem_of_getLast? hlast)
      simp [ht]
  rw [parse_eq_ok, hinput]
  exact h

/-- An accepted list is a script, with an end of input or without. -/
theorem derives_of_parse {ts : List Token} {p : Program} (h : parse ts = .ok p) :
    ∃ body, Derives (body.map Token.lexeme) p ∧
      (ts = body ∨ ∃ stop, stop.kind = .eof ∧ ts = body ++ [stop]) := by
  refine ⟨_, parse_eq_ok.1 h, ?_⟩
  unfold Input.ofTokens
  cases hlast : ts.getLast? with
  | none => exact .inl (List.getLast?_eq_none_iff.1 hlast)
  | some t =>
    obtain ⟨us, rfl⟩ := List.getLast?_eq_some_iff.1 hlast
    by_cases ht : t.kind = .eof
    · exact .inr ⟨t, ht, by simp [ht]⟩
    · exact .inl (by simp [ht])

theorem viable_of_commandLines {us : List Token} {ls : List Lexeme}
    (h : us.map Token.lexeme ++ ls ∈ commandLines) : Viable us := by
  obtain ⟨ds, hds⟩ := h
  have hls : (ls.map Lexeme.token).map Token.lexeme = ls := by
    rw [List.map_map]
    refine (List.map_congr_left fun l hl => Lexeme.lexeme_token ?_).trans (List.map_id' ls)
    exact Phrase.writable_commands ds l (hds ▸ List.mem_append_right _ hl)
  refine ⟨ls.map Lexeme.token, _, parse_of_derives ⟨ds, ?_, rfl⟩⟩
  rw [List.map_append, hls, hds]

theorem Viable.of_append {us vs : List Token} (h : Viable (us ++ vs)) : Viable us := by
  obtain ⟨rest, p, h⟩ := h
  exact ⟨vs ++ rest, p, by rwa [← List.append_assoc]⟩

/-- Where a program is stuck, it can go on with what is expected, and with nothing that looks like what
is there. -/
theorem program_eq_error {ts : List Token} (hts : ∀ t ∈ ts, t.kind ≠ .eof) {s : Stuck}
    (h : program ts = .error s) :
    ∃ us, ts = us ++ s.rest ∧ s.expected ≠ [] ∧
      (∀ e ∈ s.expected, ∃ u, e.Accepts u ∧ Viable (us ++ [u])) ∧
      ∀ r, Alike s.rest r → ∀ p, ¬ Derives ((us ++ r).map Token.lexeme) p := by
  obtain ⟨us, hus, htells, hagain⟩ := reads_commands _ ts (Nat.lt_succ_self _)
  unfold program at h
  cases ho : commands (ts.length + 1) ts with
  | error e =>
    rw [ho] at h hus htells hagain
    cases h
    refine ⟨us, hus, htells.1, fun e he => ?_, fun r hr p hp => ?_⟩
    · obtain ⟨u, ls, hu, hls⟩ := htells.2 e he
      have hgoes : (us ++ [u]).map Token.lexeme ++ ls ∈ commandLines := by
        simpa using hls
      exact ⟨u, hu, viable_of_commandLines hgoes⟩
    · obtain ⟨r', hr'⟩ := program_eq_ok.2 hp
      unfold program at hr'
      rw [hagain _ r hr (Nat.lt_succ_self _)] at hr'
      cases hr'
  | ok q =>
    obtain ⟨cs, r⟩ := q
    rw [ho] at h hus htells hagain
    cases r with
    | nil => cases h
    | cons t r =>
      have ht : t.kind ≠ .eof := hts t (by rw [hus]; exact List.mem_append_right _ (.head _))
      simp only [ok_bind, ht, if_false] at h
      cases h
      refine ⟨us, hus, by simp, fun e he => ?_, fun r' hr p hp => ?_⟩
      · cases List.mem_singleton.1 he
        obtain ⟨ds, hds⟩ := htells
        have hok : parse (us ++ [.endOfInput 0]) = .ok _ := (parse_append_eof rfl).2 ⟨ds, hds, rfl⟩
        exact ⟨.endOfInput 0, rfl, [], _, by rwa [List.append_nil]⟩
      · obtain ⟨s, hs⟩ := program_eq_ok.2 hp
        unfold program at hs
        rw [hagain _ r' hr (Nat.lt_succ_self _)] at hs
        obtain ⟨r', rfl⟩ := hr.eq_cons
        cases hs

/-- What starts an accepted list starts a script, or is one with an end of input. -/
theorem Viable.derives {ws : List Token} (h : Viable ws) :
    (∃ v p, Derives ((ws ++ v).map Token.lexeme) p) ∨
      ∃ body stop p, stop.kind = .eof ∧ ws = body ++ [stop] ∧ Derives (body.map Token.lexeme) p := by
  obtain ⟨rest, p, hp⟩ := h
  obtain ⟨body, hd, hbody | ⟨stop, hstop, hbody⟩⟩ := derives_of_parse hp
  · exact .inl ⟨rest, p, hbody ▸ hd⟩
  · obtain rfl | ⟨v, z, rfl⟩ := List.eq_nil_or_concat rest
    · exact .inr ⟨body, stop, p, hstop, by rwa [List.append_nil] at hbody, hd⟩
    · rw [List.concat_eq_append, ← List.append_assoc] at hbody
      obtain ⟨rfl, -⟩ := List.append_inj' hbody rfl
      exact .inl ⟨v, p, hd⟩

theorem not_viable_of_eof {us : List Token} {stop : Nat} {e : SyntaxError}
    (h : parse (us ++ [.endOfInput stop]) = .error e) : ¬ Viable (us ++ [.endOfInput stop]) := by
  intro hv
  obtain ⟨v, p, hd⟩ | ⟨body, z, p, -, hbody, hd⟩ := hv.derives
  · exact eof_not_mem_of_derives hd (.endOfInput stop) (by simp) rfl
  · obtain ⟨rfl, -⟩ := List.append_inj' hbody rfl
    rw [(parse_append_eof rfl).2 hd] at h
    cases h

/-- The same, from a token on that does not end the input. -/
theorem Viable.derives_cons {us w : List Token} {t : Token} (ht : t.kind ≠ .eof)
    (h : Viable (us ++ t :: w)) :
    ∃ v p, Derives ((us ++ t :: v).map Token.lexeme) p ∧
      (w <+: v ∨ ∃ stop, stop.kind = .eof ∧ w = v ++ [stop]) := by
  obtain ⟨v, p, hd⟩ | ⟨body, stop, p, hstop, hbody, hd⟩ := h.derives
  · exact ⟨w ++ v, p, by simpa using hd, .inl (List.prefix_append w v)⟩
  · obtain rfl | ⟨v, z, rfl⟩ := List.eq_nil_or_concat w
    · obtain ⟨-, hz⟩ := List.append_inj' hbody rfl
      exact absurd ((List.cons.inj hz).1 ▸ hstop) ht
    · rw [List.concat_eq_append, ← List.cons_append, ← List.append_assoc] at hbody
      obtain ⟨rfl, hz⟩ := List.append_inj' hbody rfl
      cases hz
      exact ⟨v, p, hd, .inr ⟨_, hstop, List.concat_eq_append⟩⟩

/-- The token after a colon of a script is the word of a tag. -/
theorem tagged_of_derives {us v : List Token} {t : Token} {p : Program} (ht : t.kind = .colon)
    (h : Derives ((us ++ t :: v).map Token.lexeme) p) :
    ∃ w, v.head? = some w ∧ w.kind = .identifier ∧ w.text ∈ tagWords := by
  obtain ⟨ds, hds, -⟩ := h
  have hsplit : Phrase.commands ds =
      us.map Token.lexeme ++ .sign .colon :: v.map Token.lexeme := by
    simpa [lexeme_eq_sign.2 ⟨ht, by decide⟩] using hds
  obtain ⟨w, hw, hhead⟩ := Phrase.colonsTagged_commands ds _ _ hsplit
  obtain ⟨u, hu, hlex⟩ := Option.map_eq_some_iff.1 (List.head?_map ▸ hhead)
  obtain ⟨hk, rfl⟩ := lexeme_eq_word.1 hlex
  exact ⟨u, hu, hk, hw⟩

theorem parse_error_points {body : List Token} (hbody : ∀ t ∈ body, t.kind ≠ .eof) {stop : Nat}
    {e : SyntaxError} (h : parse (body ++ [.endOfInput stop]) = .error e) :
    ∃ us t r es, body ++ [.endOfInput stop] = us ++ t :: r ∧
      e = (if t.kind = .eof then .unexpectedEnd es t.start else .unexpectedToken es t) ∧ es ≠ [] ∧
      (∀ x ∈ es, ∃ u, x.Accepts u ∧ Viable (us ++ [u])) ∧
      ¬ Viable (us ++ t :: r.take 1) ∧
      (Viable (us ++ [t]) → t.kind = .colon ∧
        ∃ w, w.kind = .identifier ∧ w.text ∈ tagWords ∧ Viable (us ++ [t, w])) := by
  have hinput : Input.ofTokens (body ++ [.endOfInput stop]) = ⟨body, stop⟩ :=
    input_append_eof rfl
  have herror := h
  simp only [parse, hinput] at herror
  cases hs : program body with
  | ok q => simp [hs] at herror
  | error s =>
    rw [hs] at herror
    cases herror
    obtain ⟨us, hus, hne, hguides, hdead⟩ := program_eq_error hbody hs
    cases hrest : s.rest with
    | nil =>
      rw [hrest, List.append_nil] at hus
      have hend : ¬ Viable (us ++ [.endOfInput stop]) := not_viable_of_eof (hus ▸ h)
      refine ⟨us, .endOfInput stop, [], s.expected, by rw [hus], ?_, hne, hguides, hend, ?_⟩
      · simp [Stuck.error, hrest, Token.endOfInput]
      · exact fun hv => absurd hv hend
    | cons t r =>
      rw [hrest] at hus
      have ht : t.kind ≠ .eof := hbody t (by simp [hus])
      refine ⟨us, t, r ++ [.endOfInput stop], s.expected, by simp [hus], ?_, hne, hguides, ?_, ?_⟩
      · simp [Stuck.error, hrest, ht]
      · intro hv
        obtain ⟨v, p, hd, hw⟩ := hv.derives_cons ht
        refine hdead (t :: v) (hrest ▸ .pair ?_) p hd
        cases r with
        | nil =>
          obtain ⟨v, rfl⟩ | ⟨_, -, hw⟩ := hw
          · exact absurd rfl (eof_not_mem_of_derives hd (.endOfInput stop) (by simp))
          · rw [(List.append_inj' (show [] ++ _ = _ from hw) rfl).1]
        | cons a r =>
          obtain ⟨v, rfl⟩ | ⟨z, hz, hw⟩ := hw
          · rfl
          · have ha : a = z := by
              simpa using (List.append_inj' (show [] ++ [a] = _ from hw) rfl).2
            exact absurd (ha ▸ hz) (hbody a (by simp [hus]))
      · intro hv
        obtain ⟨v, p, hd, -⟩ := hv.derives_cons ht
        by_cases hc : t.kind = .colon
        · obtain ⟨w, hw, hk, htag⟩ := tagged_of_derives hc hd
          obtain ⟨v, rfl⟩ := List.head?_eq_some_iff.1 hw
          refine ⟨hc, w, hk, htag, v, p, parse_of_derives ?_⟩
          simpa using hd
        · exact absurd hd (hdead (t :: v) (hrest ▸ .head hc) p)

/-- A syntax error is about a token of the source. What stands before the token is viable with each of
the expected tokens, and with the token, and the next one, it is not. With the token alone it can be only
if that is a colon, which the word of a tag may follow. -/
theorem parse_error_at_first_dead_end {source : String} {ts : List Token} {e : SyntaxError}
    (hts : tokenize source = .ok ts) (he : parse ts = .error e) :
    ∃ i t es, ts[i]? = some t ∧ e.position = t.start ∧
      e = (if t.kind = .eof then .unexpectedEnd es t.start else .unexpectedToken es t) ∧
      Viable (ts.take i) ∧ ¬ Viable (ts.take (i + 2)) ∧
      (Viable (ts.take (i + 1)) → t.kind = .colon ∧
        ∃ w, w.kind = .identifier ∧ w.text ∈ tagWords ∧ Viable (ts.take i ++ [t, w])) ∧
      es ≠ [] ∧ ∀ x ∈ es, ∃ u, x.Accepts u ∧ Viable (ts.take i ++ [u]) := by
  have hlexed : Lexed 0 source.toList ts := tokensFrom_eq_ok.1 hts
  obtain ⟨body, stop, rfl⟩ := hlexed.ends
  have hbody : ∀ t ∈ body, t.kind ≠ .eof := by
    simpa using hlexed.kind_ne_eof
  obtain ⟨us, t, r, es, hsplit, hshape, hne, hguides, hdead, hcolon⟩ := parse_error_points hbody he
  obtain ⟨x, hx⟩ := List.exists_mem_of_ne_nil es hne
  obtain ⟨u, -, hu⟩ := hguides x hx
  have htake (k : Nat) : (us ++ t :: r).take (us.length + k) = us ++ (t :: r).take k :=
    List.take_length_add_append k
  rw [hsplit]
  refine ⟨us.length, t, es, by simp, ?_, hshape, ?_, ?_, ?_, hne, ?_⟩
  · rw [hshape]
    split <;> rfl
  · rw [List.take_left' rfl]
    exact hu.of_append
  · rw [htake]
    exact hdead
  · rw [htake, List.take_left' rfl]
    exact hcolon
  · rw [List.take_left' rfl]
    exact hguides

/-- A tag that is not known is reported at its colon. -/
theorem unknown_tag_at_colon :
    ∃ ts e i t, tokenize "if header :near" = .ok ts ∧ parse ts = .error e ∧ e.position = 10 ∧
      ts[i]? = some t ∧ t.start = 10 ∧ Viable (ts.take i) ∧ ¬ Viable (ts.take (i + 2)) := by
  have hts : tokenize "if header :near" = .ok [⟨.identifier, "if", 0, 2⟩,
      ⟨.identifier, "header", 3, 9⟩, ⟨.colon, ":", 10, 11⟩, ⟨.identifier, "near", 11, 15⟩,
      .endOfInput 15] := by cbv
  have he : parse [⟨.identifier, "if", 0, 2⟩, ⟨.identifier, "header", 3, 9⟩,
      ⟨.colon, ":", 10, 11⟩, ⟨.identifier, "near", 11, 15⟩, .endOfInput 15] =
      .error (.unexpectedToken [.kind .string, .kind .lbracket] ⟨.colon, ":", 10, 11⟩) := rfl
  obtain ⟨i, t, _, hi, hpos, -, hviable, hdead, -⟩ := parse_error_at_first_dead_end hts he
  exact ⟨_, _, i, t, hts, he, rfl, hi, hpos.symm, hviable, hdead⟩

end MailSieve.Script
