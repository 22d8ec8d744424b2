import MailSieve.Proofs.Script.Grammar

/-!
Colons in scripts: each one starts a tag.
-/

namespace MailSieve.Script

/-- The words that tags are made of. -/
def tagWords : List String :=
  ["comparator", "is", "contains", "matches", "localpart", "domain", "all"]

/-- After each colon stands the word of a tag. -/
def ColonsTagged (ls : List Lexeme) : Prop :=
  ∀ ks ms, ls = ks ++ .sign .colon :: ms → ∃ w ∈ tagWords, ms.head? = some (.word w)

theorem colonsTagged_nil : ColonsTagged [] := by
  intro ks ms h
  simp at h

theorem colonsTagged_lexeme {l : Lexeme} (h : l ≠ .sign .colon) : ColonsTagged [l] := by
  intro ks ms hl
  cases ks with
  | nil => exact absurd (List.cons.inj hl).1 h
  | cons k ks => simp at hl

theorem ColonsTagged.append {ls ms : List Lexeme} (hl : ColonsTagged ls) (hm : ColonsTagged ms) :
    ColonsTagged (ls ++ ms) := by
  intro ks rest h
  obtain ⟨js, -, h⟩ | ⟨js, hls, h⟩ := List.append_eq_append_iff.1 h
  · exact hm js rest h
  · cases js with
    | nil => exact hm [] rest h.symm
    | cons j js =>
      rw [List.cons_append, List.cons.injEq] at h
      obtain ⟨rfl, rfl⟩ := h
      obtain ⟨w, hw, hhead⟩ := hl ks js hls
      refine ⟨w, hw, ?_⟩
      rw [List.head?_append, hhead]
      rfl

theorem ColonsTagged.cons {l : Lexeme} {ls : List Lexeme} (hl : l ≠ .sign .colon)
    (h : ColonsTagged ls) : ColonsTagged (l :: ls) :=
  (colonsTagged_lexeme hl).append h

namespace Phrase

theorem colonsTagged_tag {o : Option String} (h : ∀ w ∈ o, w ∈ tagWords) :
    ColonsTagged (tag o) := by
  cases o with
  | none => exact colonsTagged_nil
  | some w =>
    intro ks ms hl
    cases ks with
    | nil =>
      cases hl
      exact ⟨w, h w rfl, rfl⟩
    | cons k ks =>
      cases ks <;> simp [tag] at hl

theorem colonsTagged_matchTag (m : Option MatchType) : ColonsTagged (tag (m.map MatchType.tag)) := by
  apply colonsTagged_tag
  cases m with
  | none => simp
  | some m => cases m <;> simp [MatchType.tag, tagWords]

theorem colonsTagged_partTag (p : Option AddressPart) :
    ColonsTagged (tag (p.map AddressPart.tag)) := by
  apply colonsTagged_tag
  cases p with
  | none => simp
  | some p => cases p <;> simp [AddressPart.tag, tagWords]

theorem colonsTagged_comparator (c : Option String) : ColonsTagged (comparator c) := by
  cases c with
  | none => exact colonsTagged_nil
  | some c =>
    exact (colonsTagged_tag (o := some "comparator") (by simp [tagWords])).append
      (colonsTagged_lexeme (l := .string c) (by simp))

theorem colonsTagged_moreStrings (ss : List String) : ColonsTagged (moreStrings ss) := by
  induction ss with
  | nil => exact colonsTagged_nil
  | cons s ss ih => exact .cons (by simp) (.cons (by simp) ih)

theorem Strings.colonsTagged (a : Strings) : ColonsTagged a.yield := by
  cases a with
  | bare s => exact colonsTagged_lexeme (by simp)
  | listed s ss =>
    exact .cons (by simp) (.cons (by simp)
      ((colonsTagged_moreStrings ss).append (colonsTagged_lexeme (by simp))))

mutual

theorem Test.colonsTagged : ∀ d : Test, ColonsTagged d.yield
  | .header c m hs ks => .cons (by simp) ((colonsTagged_comparator c).append
      ((colonsTagged_matchTag m).append (hs.colonsTagged.append ks.colonsTagged)))
  | .address c p m hs ks => .cons (by simp) ((colonsTagged_comparator c).append
      ((colonsTagged_partTag p).append
        ((colonsTagged_matchTag m).append (hs.colonsTagged.append ks.colonsTagged))))
  | .allof t ts | .anyof t ts => .cons (by simp) (.cons (by simp) (t.colonsTagged.append
      ((colonsTagged_moreTests ts).append (colonsTagged_lexeme (by simp)))))

theorem colonsTagged_moreTests : ∀ ds : List Test, ColonsTagged (moreTests ds)
  | [] => colonsTagged_nil
  | d :: ds => .cons (by simp) (d.colonsTagged.append (colonsTagged_moreTests ds))

end

mutual

theorem Command.colonsTagged : ∀ d : Command, ColonsTagged d.yield
  | .require ss | .addflag ss =>
    .cons (by simp) (ss.colonsTagged.append (colonsTagged_lexeme (by simp)))
  | .keep | .discard => .cons (by simp) (colonsTagged_lexeme (by simp))
  | .fileinto _ => .cons (by simp) (.cons (by simp) (colonsTagged_lexeme (by simp)))
  | .addflagTo _ _ =>
    .cons (by simp) (.cons (by simp) (.cons (by simp) (colonsTagged_lexeme (by simp))))
  | .branch b => .cons (by simp) b.colonsTagged

theorem Branch.colonsTagged : ∀ d : Branch, ColonsTagged d.yield
  | .mk t b next => t.colonsTagged.append (.cons (by simp)
      ((colonsTagged_commands b).append (.cons (by simp) next.colonsTagged)))

theorem Chain.colonsTagged : ∀ d : Chain, ColonsTagged d.yield
  | .done => colonsTagged_nil
  | .elsif b => .cons (by simp) b.colonsTagged
  | .otherwise b => .cons (by simp) (.cons (by simp)
      ((colonsTagged_commands b).append (colonsTagged_lexeme (by simp))))

theorem colonsTagged_commands : ∀ ds : List Command, ColonsTagged (commands ds)
  | [] => colonsTagged_nil
  | d :: ds => d.colonsTagged.append (colonsTagged_commands ds)

end

end Phrase

end MailSieve.Script
