import Mathlib
import MailSieve.Mail.Message
import MailSieve.Proofs.Filter.Agreement
import MailSieve.Proofs.Text.Lowercase

/-!
Keys that occur in a header as they are written. Text and key are lowercased apart, so a test finds such a
key unless one of its capital sigmas gets another form in the text than in the key.
-/

namespace MailSieve.Mail

open Text

/-- A lookup that makes no difference between names that differ in the case of ASCII letters. -/
def CaseBlind (lookup : Lookup) : Prop :=
  ∀ a b, sameName a b = true → lookup a = lookup b

theorem sameName_congr {a b : String} (h : sameName a b = true) (c : String) :
    sameName c a = sameName c b := by
  rw [sameName, sameName, beq_iff_eq.1 h]

theorem caseBlind_lookup (m : Message) : CaseBlind m.lookup := by
  intro a b h
  simp only [Message.lookup, sameName_congr h]

theorem caseBlind_lookupIn (fields : List (String × FieldValue)) : CaseBlind (lookupIn fields) := by
  intro a b h
  simp only [lookupIn, sameName_congr h]

end MailSieve.Mail

namespace MailSieve.Filter

open Script Mail Text

theorem outcome_evalTest_contains (lookup : Lookup) (names keys : List String) :
    (evalTest lookup (.header ⟨none, some .contains, names, keys⟩)).outcome =
      .ok (decide ((Leaf.header ⟨none, some .contains, names, keys⟩).Holds lookup)) := by
  rw [evalTest, outcome_evalHeader]
  rfl

/-- A test that names a header, in any case of its letters, finds a key that occurs in one of its values as
it is written, if the capital sigmas of the key, if any, have the same form there as in the key alone. -/
theorem evalTest_of_occurs {lookup : Lookup} (hblind : CaseBlind lookup) {names keys : List String}
    {name field key : String} {v : FieldValue} {before after : List Char} (hname : name ∈ names)
    (hascii : ∀ c ∈ name.toList, c.toNat < 0x80) (hfield : sameName name field = true)
    (hv : v ∈ lookup field) (hkey : key ∈ keys)
    (hoccurs : v.shown.toList = before ++ key.toList ++ after)
    (hstands : 'Σ' ∈ key.toList → Stands before after key.toList) :
    (evalTest lookup (.header ⟨none, some .contains, names, keys⟩)).outcome = .ok true := by
  have hkept : Stands before after key.toList := by
    by_cases hsigma : 'Σ' ∈ key.toList
    · exact hstands hsigma
    · exact stands_of_not_mem hsigma
  have hlookup : lookup (lowercase name) = lookup field :=
    (hblind _ _ (sameName_lowercase hascii)).trans (hblind _ _ hfield)
  rw [outcome_evalTest_contains, decide_eq_true]
  refine ⟨name, hname, v, ?_, key, hkey, lowercase_infix hoccurs hkept⟩
  rwa [hlookup]

/-- A key that ends in a final sigma, amid a list of addresses. -/
theorem finds_final_sigma : ∃ lookup v,
    lookup = lookupIn [("From", v)] ∧ v = .addresses [⟨none, "a"⟩, ⟨some "ΜΑΡΙΟΣ Ξ", "b"⟩] ∧
    CaseBlind lookup ∧ v ∈ lookup "From" ∧
    v.shown.toList = "a, ΜΑΡΙ".toList ++ "ΟΣ".toList ++ " Ξ <b>".toList ∧
    Stands "a, ΜΑΡΙ".toList " Ξ <b>".toList "ΟΣ".toList ∧
    (evalTest lookup (.header ⟨none, some .contains, ["to", "FROM"], ["x", "ΟΣ"]⟩)).outcome = .ok true := by
  obtain ⟨v, hv⟩ : ∃ v, v = FieldValue.addresses [⟨none, "a"⟩, ⟨some "ΜΑΡΙΟΣ Ξ", "b"⟩] := ⟨_, rfl⟩
  have hblind : CaseBlind (lookupIn [("From", v)]) := caseBlind_lookupIn _
  have hascii : ∀ c ∈ "FROM".toList, c.toNat < 0x80 := by simp
  have hsame : sameName "FROM" "From" = true := by simp [sameName_iff]
  have hmember : v ∈ lookupIn [("From", v)] "From" := by simp [lookupIn, sameName_iff]
  have hoccurs : v.shown.toList = "a, ΜΑΡΙ".toList ++ "ΟΣ".toList ++ " Ξ <b>".toList := by
    subst hv
    decide +kernel
  have hstands : Stands "a, ΜΑΡΙ".toList " Ξ <b>".toList "ΟΣ".toList := by
    have hkey : "ΟΣ".toList = ['Ο', 'Σ'] := by simp
    rw [hkey]
    intro a b hab
    obtain ⟨-, ⟨⟩⟩ | ⟨c, rfl, hcb⟩ := List.cons_eq_append_iff.1 hab
    obtain ⟨rfl, ⟨⟩⟩ | ⟨d, -, hdb⟩ := List.cons_eq_append_iff.1 hcb
    · decide +kernel
    · simp at hdb
  exact ⟨_, v, rfl, hv, hblind, hmember, hoccurs, hstands,
    evalTest_of_occurs hblind (by simp) hascii hsame hmember (by simp) hoccurs fun _ => hstands⟩

/-- The sigma of the key is final in the key, but not in the text. -/
theorem misses_literal_sigma : ∃ lookup v,
    lookup = lookupIn [("Subject", v)] ∧ v = .text "ΑΣΑ" ∧ v ∈ lookup "Subject" ∧
    v.shown.toList = [] ++ "ΑΣ".toList ++ "Α".toList ∧
    (evalTest lookup (.header ⟨none, some .contains, ["subject"], ["ΑΣ"]⟩)).outcome = .ok false := by
  have hname : lowercase "subject" = "subject" := by decide +kernel
  have hkey : lowercase "ΑΣ" = "ας" := by decide +kernel
  have htext : lowercase "ΑΣΑ" = "ασα" := by decide +kernel
  have hsame : sameName "Subject" "subject" = true := by simp [sameName_iff]
  have hmissed : ¬ "ας".toList <:+: "ασα".toList := by decide +kernel
  refine ⟨_, _, rfl, rfl, by simp [lookupIn, sameName_iff], by simp [FieldValue.shown], ?_⟩
  rw [outcome_evalTest_contains, decide_eq_false]
  simpa [Leaf.Holds, hname, lookupIn, hsame, FieldValue.shown, hkey, htext] using hmissed

end MailSieve.Filter
