import Mathlib
import MailSieve.Proofs.Script.Placement
import MailSieve.Proofs.Script.Spans

/-!
Layout does not matter: sources of the same written tokens, with whatever gaps between them, are the same
program, or are refused at the same token, and the end of the input may be left out.
-/

namespace MailSieve.Script

/-- These texts in turn, with gaps anywhere between them. No word runs on into what follows it. -/
inductive Spaced : List (List Char) → List Char → Prop
  | nil : Spaced [] []
  | gap : isGap c → Spaced ws s → Spaced ws (c :: s)
  | text : Apart w s → Spaced ws s → Spaced (w :: ws) (w ++ s)

/-- A text that is cut into tokens is a text of theirs. -/
theorem Cut.spaced {p : Nat} {s : List Char} {us : List Token} (h : Cut p s us) (pre : List Char)
    (hp : p = pre.length) : Spaced (us.map (Token.source (pre ++ s))) s := by
  induction h generalizing pre with
  | nil => exact .nil
  | @gap c p s us hc _ ih =>
    have hs := ih (pre ++ [c]) (by simp [hp])
    rw [List.append_assoc] at hs
    exact .gap hc hs
  | @token t w p s us hw hstart hstop hs _ ih =>
    have hus := ih (pre ++ w) (by rw [hstop, hp, List.length_append])
    rw [List.append_assoc] at hus
    rw [List.map_cons, source_append (hstart.trans hp) (hstop.trans (by rw [hstart]))]
    exact .text hs hus

theorem Written.move {t : Token} {w : List Char} (h : Written t w) (p q : Nat) :
    Written ⟨t.kind, t.text, p, q⟩ w := by
  cases h with
  | word hne hw => exact .word hne hw
  | string hb => exact .string hb
  | sign hk => exact .sign hk

/-- A text of written tokens is cut into them again. -/
theorem Spaced.cut {write : Token → List Char} {us : List Token} {s : List Char}
    (h : Spaced (us.map write) s) (hus : ∀ t ∈ us, Written t (write t)) (p : Nat) :
    ∃ vs, Cut p s vs ∧ vs.map Token.unplaced = us.map Token.unplaced := by
  generalize hws : us.map write = ws at h
  induction h generalizing us p with
  | nil =>
    rw [List.map_eq_nil_iff.1 hws]
    exact ⟨[], .nil, rfl⟩
  | gap hc _ ih =>
    obtain ⟨vs, hvs, hmap⟩ := ih hus (p + 1) hws
    exact ⟨vs, .gap hc hvs, hmap⟩
  | @text w s ws hs _ ih =>
    obtain ⟨t, us, rfl, rfl, hmap'⟩ := List.map_eq_cons_iff.1 hws
    obtain ⟨ht, hus⟩ := List.forall_mem_cons.1 hus
    obtain ⟨vs, hvs, hmap⟩ := ih hus (p + (write t).length) hmap'
    refine ⟨⟨t.kind, t.text, p, p + (write t).length⟩ :: vs, ?_, ?_⟩
    · exact .token (ht.move _ _) rfl rfl hs hvs
    · rw [List.map_cons, List.map_cons, hmap]
      rfl

theorem Cut.written {s : List Char} {us : List Token} (h : Cut 0 s us) :
    ∀ t ∈ us, Written t (t.source s) := fun t ht =>
  ((h.divides [] rfl (by simp [Apart])).fits t ht).written

/-- An end of the input that is left out is put back, but for its place. -/
theorem completed_unplaced {us : List Token} (h : ∀ t ∈ us, t.kind ≠ .eof) (stop : Nat) :
    ∀ ts ∈ [us ++ [.endOfInput stop], us],
      (completed ts).map Token.unplaced = us.map Token.unplaced ++ [.endOfInput 0] := by
  have hopen : ¬ us.getLast?.any fun t => t.kind = .eof := by
    intro hlast
    obtain ⟨t, ht, hk⟩ := (Option.any_eq_true _ _).1 hlast
    exact h t (List.mem_of_getLast? ht) (by simpa using hk)
  simp only [List.forall_mem_cons, List.not_mem_nil, false_imp_iff, implies_true, and_true]
  constructor
  · simp [completed, Token.endOfInput, Token.unplaced]
  · rw [completed, if_neg hopen, List.map_append]
    rfl

/-- A source is a text of its tokens as they are written, and every text of them is a source that agrees
with it, whether the ends of the inputs are kept or left out. -/
theorem agree_of_spaced {a : String} {ts : List Token} (ha : tokenize a = .ok ts) :
    Spaced (ts.dropLast.map (Token.source a.toList)) a.toList ∧
      ∀ b : String, Spaced (ts.dropLast.map (Token.source a.toList)) b.toList →
        ∃ us, tokenize b = .ok us ∧
          ∀ xs ∈ [ts, ts.dropLast], ∀ zs ∈ [us, us.dropLast], Agree xs zs := by
  obtain ⟨vs, rfl, hvs⟩ := (lexed_of_tokensFrom ha).cut
  rw [List.dropLast_concat]
  refine ⟨hvs.spaced [] rfl, fun b hb => ?_⟩
  obtain ⟨ws, hws, hmap⟩ := hb.cut hvs.written 0
  refine ⟨_, hws.tokensFrom_eq, fun xs hxs zs hzs => agree_of_unplaced ?_⟩
  rw [List.dropLast_concat] at hzs
  rw [completed_unplaced (fun t ht => (hvs.written t ht).kind_ne_eof) _ xs hxs,
    completed_unplaced (fun t ht => (hws.written t ht).kind_ne_eof) _ zs hzs, hmap]

/-- Where a semicolon is missing, gaps and the end of the input move the place of the error alone. -/
theorem missing_semicolon_agrees :
    ∃ ts us, tokenize "keep" = .ok ts ∧
      Spaced (ts.dropLast.map (Token.source "keep".toList)) "\ufeffkeep\n".toList ∧
      tokenize "\ufeffkeep\n" = .ok us ∧ Agree ts us ∧ Agree ts us.dropLast ∧
      parse ts = .error (.unexpectedEnd [.kind .semicolon] 4) ∧
      parse us = .error (.unexpectedEnd [.kind .semicolon] 6) ∧
      parse us.dropLast = .error (.unexpectedEnd [.kind .semicolon] 5) := by
  have ha : tokenize "keep" = .ok [⟨.identifier, "keep", 0, 4⟩, .endOfInput 4] := by cbv
  have hb : tokenize "\ufeffkeep\n" = .ok [⟨.identifier, "keep", 1, 5⟩, .endOfInput 6] := by cbv
  have hspaced : Spaced [['k', 'e', 'e', 'p']] "\ufeffkeep\n".toList :=
    .gap rfl (.text (s := ['\n']) (by simp [Apart]) (.gap rfl .nil))
  obtain ⟨us, hus, hagree⟩ := (agree_of_spaced ha).2 "\ufeffkeep\n" hspaced
  rw [hb] at hus
  cases hus
  exact ⟨_, _, ha, hspaced, hb, hagree _ (by simp) _ (by simp), hagree _ (by simp) _ (by simp),
    rfl, rfl, rfl⟩

end MailSieve.Script
