import MailSieve.Proofs.Filter.Occurrence

/-!
Addresses in the text of their header. What stands around an address there are marks that end every word,
so its capital sigmas have the same form as in the address alone.
-/

namespace MailSieve.Text

/-- A character that ends the search for a letter next to a sigma, and is none. -/
def isMark (c : Char) : Bool := !isCased c && !isCaseIgnorable c

/-- A text that starts with a mark, if with anything. -/
def Marked (s : List Char) : Prop := ∀ c ∈ s.head?, isMark c = true

theorem marked_nil : Marked [] := by
  intro c hc
  cases hc

theorem marked_cons {c : Char} (hc : isMark c = true) (s : List Char) : Marked (c :: s) := by
  rintro d ⟨⟩
  exact hc

theorem Marked.append {s t : List Char} (hs : Marked s) (ht : Marked t) : Marked (s ++ t) := by
  cases s with
  | nil => exact ht
  | cons c s => exact hs

theorem leadsCased_append {t : List Char} (ht : Marked t) (s : List Char) :
    leadsCased (s ++ t) = leadsCased s := by
  induction s with
  | nil =>
    cases t with
    | nil => rfl
    | cons c t =>
      have hc := ht c rfl
      rw [isMark, Bool.and_eq_true_iff, Bool.not_eq_true', Bool.not_eq_true'] at hc
      simp [leadsCased, hc]
  | cons c s ih =>
    simp only [leadsCased, List.cons_append, List.dropWhile_cons] at ih ⊢
    cases isCaseIgnorable c with
    | true => exact ih
    | false => rfl

/-- A text between marks has its sigmas as it has them alone. -/
theorem stands_of_marked {before after : List Char} (hbefore : Marked before.reverse)
    (hafter : Marked after) (s : List Char) : Stands before after s := by
  intro a b _
  rw [lowerSigma, lowerSigma, List.reverse_append, leadsCased_append hbefore, leadsCased_append hafter]

end MailSieve.Text

namespace MailSieve.Mail

open Text

/-- The text holds an address as it is written, between marks. -/
def Shows (text address : List Char) : Prop :=
  ∃ before after, text = before ++ address ++ after ∧ Marked before.reverse ∧ Marked after

theorem Shows.append {text address s : List Char} (h : Shows text address) (hs : Marked s) :
    Shows (text ++ s) address := by
  obtain ⟨before, after, rfl, hbefore, hafter⟩ := h
  exact ⟨before, after ++ s, List.append_assoc .., hbefore, hafter.append hs⟩

theorem Shows.prepend {text address s : List Char} (h : Shows text address) (hs : Marked s.reverse) :
    Shows (s ++ text) address := by
  obtain ⟨before, after, rfl, hbefore, hafter⟩ := h
  refine ⟨s ++ before, after, by simp, ?_, hafter⟩
  rw [List.reverse_append]
  exact hbefore.append hs

theorem shows_text (a : Address) : Shows a.text.toList a.address.toList := by
  obtain ⟨name, address⟩ := a
  cases name with
  | none => exact ⟨[], [], (List.append_nil _).symm, marked_nil, marked_nil⟩
  | some n =>
    refine ⟨n.toList ++ [' ', '<'], ['>'], ?_, ?_, marked_cons (by decide +kernel) _⟩
    · simp [Address.text, toString]
    · rw [List.reverse_append]
      exact marked_cons (by decide +kernel) _

theorem shows_intercalate {as : List Address} {a : Address} (h : a ∈ as) :
    Shows (", ".intercalate (as.map Address.text)).toList a.address.toList := by
  induction as with
  | nil => cases h
  | cons b as ih =>
    cases as with
    | nil =>
      cases List.mem_singleton.1 h
      simpa using shows_text a
    | cons c as =>
      have hlist : (", ".intercalate ((b :: c :: as).map Address.text)).toList =
          b.text.toList ++ ([',', ' '] ++ (", ".intercalate ((c :: as).map Address.text)).toList) := by
        simp [String.intercalate_cons_cons]
      rw [hlist]
      obtain rfl | h := List.mem_cons.1 h
      · exact (shows_text a).append (marked_cons (by decide +kernel) _)
      · rw [← List.append_assoc]
        refine (ih h).prepend ?_
        rw [List.reverse_append]
        exact marked_cons (by decide +kernel) _

theorem shows_shown {v : FieldValue} {a : Address} (h : a ∈ v.members) :
    Shows v.shown.toList a.address.toList := by
  cases v with
  | text t => cases h
  | addresses as => exact shows_intercalate h

end MailSieve.Mail

namespace MailSieve.Filter

open Script Mail Text

theorem lowercase_infix_shown {v : FieldValue} {a : Address} (h : a ∈ v.members) :
    (lowercase a.address).toList <:+: (lowercase v.shown).toList := by
  obtain ⟨before, after, hshown, hbefore, hafter⟩ := shows_shown h
  exact lowercase_infix hshown (stands_of_marked hbefore hafter _)

/-- What an address test finds, a test of the text of the same headers finds too. -/
theorem contains_of_address {lookup : Lookup} {t : AddressTest}
    (h : (evalTest lookup (.address t)).outcome = .ok true) :
    (evalTest lookup (.header ⟨none, some .contains, t.headers, t.keys⟩)).outcome = .ok true := by
  rw [evalTest, outcome_evalAddress, settle_eq_ok] at h
  obtain ⟨-, hholds⟩ := h
  rw [decide_eq_true_iff] at hholds
  obtain ⟨name, hname, v, hv, a, ha, key, hkey, heq⟩ := hholds
  rw [outcome_evalTest_contains, decide_eq_true]
  refine ⟨name, hname, v, hv, key, hkey, ?_⟩
  rw [← heq]
  exact lowercase_infix_shown ha

/-- The address found is the last of a header, and ends in a final sigma. -/
theorem contains_final_sigma : ∃ lookup t,
    lookup = lookupIn [("From", .addresses [⟨some "Σ", "ΑΣ"⟩, ⟨none, "ΟΔΟΣ"⟩])] ∧
    t = ⟨none, none, some .is, ["to", "from"], ["x", "οδος"]⟩ ∧
    (evalTest lookup (.address t)).outcome = .ok true ∧
    (evalTest lookup (.header ⟨none, some .contains, t.headers, t.keys⟩)).outcome = .ok true := by
  obtain ⟨t, ht⟩ : ∃ t : AddressTest, t = ⟨none, none, some .is, ["to", "from"], ["x", "οδος"]⟩ := ⟨_, rfl⟩
  obtain ⟨v, hv⟩ : ∃ v, v = FieldValue.addresses [⟨some "Σ", "ΑΣ"⟩, ⟨none, "ΟΔΟΣ"⟩] := ⟨_, rfl⟩
  have hname : lowercase "from" = "from" := by decide +kernel
  have hvalues : lookupIn [("From", v)] "from" = [v] := by simp [lookupIn, sameName_iff]
  have haddress : (evalTest (lookupIn [("From", v)]) (.address t)).outcome = .ok true := by
    rw [evalTest, outcome_evalAddress, settle_eq_ok, ht]
    refine ⟨rfl, decide_eq_true ?_⟩
    refine ⟨"from", by simp, v, ?_, ⟨none, "ΟΔΟΣ"⟩, ?_, "οδος", by simp, ?_⟩
    · rw [hname, hvalues]
      exact List.mem_singleton_self v
    · simp [hv, FieldValue.members]
    · decide +kernel
  exact ⟨_, t, hv ▸ rfl, ht, haddress, contains_of_address haddress⟩

end MailSieve.Filter
