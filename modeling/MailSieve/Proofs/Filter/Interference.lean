import Mathlib
import MailSieve.Proofs.Filter.Agreement

/-!
What of a message a script can tell: the values of the headers that its tests name, whatever their order
and however often each is there.
-/

namespace MailSieve.Filter

open Script Mail Text

mutual

/-- The header names in a test. -/
def namedByTest : Test → List String
  | .allof ts | .anyof ts => namedByTests ts
  | .header t => t.headers
  | .address t => t.headers

def namedByTests : List Test → List String
  | [] => []
  | t :: ts => namedByTest t ++ namedByTests ts

end

mutual

def namedByCommand : Command → List String
  | .require _ | .keep | .discard | .fileinto _ | .addflag _ _ => []
  | .branch t b next => namedByTest t ++ namedBy b ++ namedByChain next

/-- The header names in the tests of a script. -/
def namedBy : List Command → List String
  | [] => []
  | c :: cs => namedByCommand c ++ namedBy cs

def namedByChain : Chain → List String
  | .done => []
  | .elsif t b next => namedByTest t ++ namedBy b ++ namedByChain next
  | .otherwise b => namedBy b

end

/-- Two messages have the same values under these names, in any order and any number. -/
def Resemble (lookup lookup' : Lookup) (names : List String) : Prop :=
  ∀ name ∈ names, ∀ v, v ∈ lookup (lowercase name) ↔ v ∈ lookup' (lowercase name)

variable {lookup lookup' : Lookup}

theorem resemble_append {names names' : List String} :
    Resemble lookup lookup' (names ++ names') ↔
      Resemble lookup lookup' names ∧ Resemble lookup lookup' names' :=
  List.forall_mem_append

/-- A leaf asks whether there is a value, not where. -/
theorem holds_header_congr {t : HeaderTest} (h : Resemble lookup lookup' t.headers) :
    (Leaf.header t).Holds lookup ↔ (Leaf.header t).Holds lookup' := by
  refine exists_congr fun name => and_congr_right fun hname => exists_congr fun v => ?_
  rw [h name hname v]

theorem holds_address_congr {t : AddressTest} (h : Resemble lookup lookup' t.headers) :
    (Leaf.address t).Holds lookup ↔ (Leaf.address t).Holds lookup' := by
  refine exists_congr fun name => and_congr_right fun hname => exists_congr fun v => ?_
  rw [h name hname v]

mutual

theorem truth_congr : {t : Test} → Resemble lookup lookup' (namedByTest t) →
    truth lookup t = truth lookup' t
  | .allof ts, h => by
    rw [truth, truth]
    exact (truths_congr h).1
  | .anyof ts, h => by
    rw [truth, truth]
    exact (truths_congr h).2
  | .header t, h => by
    rw [truth, truth]
    exact decide_eq_decide.2 (holds_header_congr h)
  | .address t, h => by
    rw [truth, truth]
    exact decide_eq_decide.2 (holds_address_congr h)

theorem truths_congr : {ts : List Test} → Resemble lookup lookup' (namedByTests ts) →
    allTrue lookup ts = allTrue lookup' ts ∧ anyTrue lookup ts = anyTrue lookup' ts
  | [], _ => ⟨rfl, rfl⟩
  | t :: ts, h => by
    obtain ⟨ht, hts⟩ := resemble_append.1 h
    simp only [allTrue, anyTrue, truth_congr ht, truths_congr hts, and_self]

end

mutual

/-- The same leaves are asked, so the same one is the first that has no evaluation. -/
theorem asked_congr : {t : Test} → Resemble lookup lookup' (namedByTest t) →
    asked lookup t = asked lookup' t
  | .allof ts, h => by
    rw [asked, asked]
    exact (askedIn_congr h).1
  | .anyof ts, h => by
    rw [asked, asked]
    exact (askedIn_congr h).2
  | .header _, _ => rfl
  | .address _, _ => rfl

theorem askedIn_congr : {ts : List Test} → Resemble lookup lookup' (namedByTests ts) →
    askedAll lookup ts = askedAll lookup' ts ∧ askedAny lookup ts = askedAny lookup' ts
  | [], _ => ⟨rfl, rfl⟩
  | t :: ts, h => by
    obtain ⟨ht, hts⟩ := resemble_append.1 h
    simp only [askedAll, askedAny, asked_congr ht, truth_congr ht, askedIn_congr hts, and_self]

end

mutual

theorem visits_congr : {c : Command} → Resemble lookup lookup' (namedByCommand c) →
    visits lookup c = visits lookup' c
  | .require _, _ | .keep, _ | .discard, _ | .fileinto _, _ | .addflag _ _, _ => rfl
  | .branch t b next, h => by
    obtain ⟨h, hnext⟩ := resemble_append.1 h
    obtain ⟨ht, hb⟩ := resemble_append.1 h
    simp only [visits, asked_congr ht, truth_congr ht, walk_congr hb, walkChain_congr hnext]

theorem walk_congr : {cs : List Command} → Resemble lookup lookup' (namedBy cs) →
    walk lookup cs = walk lookup' cs
  | [], _ => rfl
  | c :: cs, h => by
    obtain ⟨hc, hcs⟩ := resemble_append.1 h
    simp only [walk, visits_congr hc, walk_congr hcs]

theorem walkChain_congr : {next : Chain} → Resemble lookup lookup' (namedByChain next) →
    walkChain lookup next = walkChain lookup' next
  | .done, _ => rfl
  | .elsif t b next, h => by
    obtain ⟨h, hnext⟩ := resemble_append.1 h
    obtain ⟨ht, hb⟩ := resemble_append.1 h
    simp only [walkChain, asked_congr ht, truth_congr ht, walk_congr hb, walkChain_congr hnext]
  | .otherwise b, h => by
    rw [walkChain, walkChain]
    exact walk_congr h

end

/-- Messages that have the same values under the header names of a script fare alike: it decides the same
about both, or fails at the same tag. -/
theorem evaluate_eq_of_resemble (p : Program) (lookup lookup' : Lookup)
    (h : Resemble lookup lookup' (namedBy p)) : evaluate p lookup = evaluate p lookup' := by
  rw [evaluate_eq_settled, evaluate_eq_settled, walk_congr h]

/-- A header that no test names, a second subject and their order make no difference. -/
theorem evaluate_eq_reordered :
    ∃ p lookup lookup',
      p = [.branch (.anyof [.header ⟨none, some .contains, ["Subject"], ["b"]⟩]) [.discard] .done] ∧
      lookup = lookupIn [("subject", .text "a"), ("subject", .text "b"), ("from", .text "c")] ∧
      lookup' = lookupIn [("subject", .text "b"), ("subject", .text "a"), ("subject", .text "b")] ∧
      Resemble lookup lookup' (namedBy p) ∧ evaluate p lookup = evaluate p lookup' := by
  have hlower : lowercase "Subject" = "subject" := by cbv
  have hleft : lookupIn [("subject", .text "a"), ("subject", .text "b"), ("from", .text "c")]
      "subject" = [.text "a", .text "b"] := by cbv
  have hright : lookupIn [("subject", .text "b"), ("subject", .text "a"), ("subject", .text "b")]
      "subject" = [.text "b", .text "a", .text "b"] := by cbv
  refine ⟨_, _, _, rfl, rfl, rfl, ?resemble, evaluate_eq_of_resemble _ _ _ ?resemble⟩
  intro name hname v
  cases List.mem_singleton.1 hname
  rw [hlower, hleft, hright]
  simp only [List.mem_cons, List.not_mem_nil, or_false]
  tauto

end MailSieve.Filter
