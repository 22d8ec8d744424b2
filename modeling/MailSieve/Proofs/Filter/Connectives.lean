import Mathlib.Data.List.Forall2
import MailSieve.Proofs.Filter.Agreement
import MailSieve.Proofs.Text.Lowercase

/-!
Tests as Boolean formulas over their leaves. Evaluation asks no further than it must, so the order of
subtests can tell whether a leaf that has no evaluation is reached, but not which value a test has.
-/

namespace MailSieve.Filter

open Script Mail Text

def Leaf.eval (lookup : Lookup) : Leaf → Run Bool
  | .header t => evalHeader lookup t
  | .address t => evalAddress lookup t

theorem outcome_eval (lookup : Lookup) (l : Leaf) :
    (l.eval lookup).outcome = settle l.fault? (decide (l.Holds lookup)) := by
  cases l with
  | header t => exact outcome_evalHeader lookup t
  | address t => exact outcome_evalAddress lookup t

mutual

/-- All the leaves of a test, whether they are asked or not. -/
def leaves : Test → List Leaf
  | .allof ts | .anyof ts => leavesIn ts
  | .header t => [.header t]
  | .address t => [.address t]

def leavesIn : List Test → List Leaf
  | [] => []
  | t :: ts => leaves t ++ leavesIn ts

end

mutual

/-- The value of a test whose leaves have these values. -/
def formula (value : Leaf → Bool) : Test → Bool
  | .allof ts => (formulas value ts).all id
  | .anyof ts => (formulas value ts).any id
  | .header t => value (.header t)
  | .address t => value (.address t)

def formulas (value : Leaf → Bool) : List Test → List Bool
  | [] => []
  | t :: ts => formula value t :: formulas value ts

end

/-- The same test but for the order of subtests, at any depth. -/
inductive Reordered : Test → Test → Prop
  | header (t : HeaderTest) : Reordered (.header t) (.header t)
  | address (t : AddressTest) : Reordered (.address t) (.address t)
  | allof : List.Forall₂ Reordered ts us → us.Perm vs → Reordered (.allof ts) (.allof vs)
  | anyof : List.Forall₂ Reordered ts us → us.Perm vs → Reordered (.anyof ts) (.anyof vs)

theorem formulas_eq_map (value : Leaf → Bool) (ts : List Test) :
    formulas value ts = ts.map (formula value) := by
  induction ts with
  | nil => rfl
  | cons t ts ih => rw [formulas, ih, List.map_cons]

theorem leavesIn_eq_flatMap (ts : List Test) : leavesIn ts = ts.flatMap leaves := by
  induction ts with
  | nil => rfl
  | cons t ts ih => rw [leavesIn, ih, List.flatMap_cons]

section

variable {lookup : Lookup} {value : Leaf → Bool}

mutual

theorem outcome_of_leaves : {t : Test} → (∀ l ∈ leaves t, (l.eval lookup).outcome = .ok (value l)) →
    (evalTest lookup t).outcome = .ok (formula value t)
  | .allof ts, h => by
    rw [evalTest, formula]
    exact (outcomes_of_leaves h).1
  | .anyof ts, h => by
    rw [evalTest, formula]
    exact (outcomes_of_leaves h).2
  | .header t, h => by
    rw [evalTest, formula]
    exact h _ (List.mem_singleton_self _)
  | .address t, h => by
    rw [evalTest, formula]
    exact h _ (List.mem_singleton_self _)

theorem outcomes_of_leaves : {ts : List Test} →
    (∀ l ∈ leavesIn ts, (l.eval lookup).outcome = .ok (value l)) →
    (evalAll lookup ts).outcome = .ok ((formulas value ts).all id) ∧
      (evalAny lookup ts).outcome = .ok ((formulas value ts).any id)
  | [], _ => ⟨rfl, rfl⟩
  | t :: ts, h => by
    obtain ⟨ht, hts⟩ := List.forall_mem_append.1 h
    have hhead := outcome_of_leaves ht
    obtain ⟨hall, hany⟩ := outcomes_of_leaves hts
    rw [evalAll, evalAny, Run.outcome_bind, Run.outcome_bind, hhead, formulas]
    -- the first subtest decides, or the rest do
    cases formula value t with
    | true => exact ⟨hall, rfl⟩
    | false => exact ⟨rfl, hany⟩

end

mutual

theorem formula_reordered : {t u : Test} → Reordered t u → formula value t = formula value u
  | .header _, _, .header _ => rfl
  | .address _, _, .address _ => rfl
  | .allof ts, _, .allof h hperm => by
    rw [formula, formula, formulas_reordered h, formulas_eq_map, formulas_eq_map]
    exact (hperm.map _).all_eq
  | .anyof ts, _, .anyof h hperm => by
    rw [formula, formula, formulas_reordered h, formulas_eq_map, formulas_eq_map]
    exact (hperm.map _).any_eq

theorem formulas_reordered : {ts us : List Test} → List.Forall₂ Reordered ts us →
    formulas value ts = formulas value us
  | [], _, .nil => rfl
  | t :: ts, _, .cons h hs => by
    rw [formulas, formulas, formula_reordered h, formulas_reordered hs]

end

end

mutual

theorem truth_eq_formula (lookup : Lookup) : (t : Test) →
    truth lookup t = formula (fun l => l.Holds lookup) t
  | .allof ts => by
    rw [truth, formula]
    exact (truths_eq_formulas lookup ts).1
  | .anyof ts => by
    rw [truth, formula]
    exact (truths_eq_formulas lookup ts).2
  | .header _ => by rw [truth, formula]
  | .address _ => by rw [truth, formula]

theorem truths_eq_formulas (lookup : Lookup) : (ts : List Test) →
    allTrue lookup ts = (formulas (fun l => l.Holds lookup) ts).all id ∧
      anyTrue lookup ts = (formulas (fun l => l.Holds lookup) ts).any id
  | [] => ⟨rfl, rfl⟩
  | t :: ts => by
    obtain ⟨hall, hany⟩ := truths_eq_formulas lookup ts
    rw [allTrue, anyTrue, truth_eq_formula lookup t, hall, hany]
    exact ⟨rfl, rfl⟩

end

/-- A test that has a value has that of its formula, also where leaves without an evaluation are not
asked. -/
theorem formula_of_outcome {lookup : Lookup} {t : Test} {b : Bool}
    (h : (evalTest lookup t).outcome = .ok b) : formula (fun l => l.Holds lookup) t = b := by
  rw [outcome_evalTest, settle_eq_ok] at h
  rw [← truth_eq_formula]
  exact h.2

mutual

theorem leaves_reordered : {t u : Test} → Reordered t u → (leaves t).Perm (leaves u)
  | .header _, _, .header _ => .rfl
  | .address _, _, .address _ => .rfl
  | .allof ts, _, .allof h hperm | .anyof ts, _, .anyof h hperm => by
    rw [leaves, leaves]
    refine (leavesIn_reordered h).trans ?_
    rw [leavesIn_eq_flatMap, leavesIn_eq_flatMap]
    exact hperm.flatMap_right leaves

theorem leavesIn_reordered : {ts us : List Test} → List.Forall₂ Reordered ts us →
    (leavesIn ts).Perm (leavesIn us)
  | [], _, .nil => .rfl
  | _ :: _, _, .cons h hs => by
    rw [leavesIn, leavesIn]
    exact (leaves_reordered h).append (leavesIn_reordered hs)

end

mutual

theorem asked_subset (lookup : Lookup) : (t : Test) → asked lookup t ⊆ leaves t
  | .allof ts => by
    rw [asked, leaves]
    exact (askedIn_subset lookup ts).1
  | .anyof ts => by
    rw [asked, leaves]
    exact (askedIn_subset lookup ts).2
  | .header _ | .address _ => List.Subset.refl _

theorem askedIn_subset (lookup : Lookup) : (ts : List Test) →
    askedAll lookup ts ⊆ leavesIn ts ∧ askedAny lookup ts ⊆ leavesIn ts
  | [] => ⟨List.nil_subset _, List.nil_subset _⟩
  | t :: ts => by
    have ht := List.subset_append_of_subset_left (leavesIn ts) (asked_subset lookup t)
    obtain ⟨hall, hany⟩ := askedIn_subset lookup ts
    rw [askedAll, askedAny, leavesIn]
    constructor <;> refine List.append_subset.2 ⟨ht, ?_⟩ <;> split
    · exact List.subset_append_of_subset_right _ hall
    · exact List.nil_subset _
    · exact List.nil_subset _
    · exact List.subset_append_of_subset_right _ hany

end

/-- A test fails only as one of its leaves does. -/
theorem exists_leaf_of_error {lookup : Lookup} {t : Test} {e : Unsupported}
    (h : (evalTest lookup t).outcome = .error e) :
    ∃ l ∈ leaves t, (l.eval lookup).outcome = .error e := by
  rw [outcome_evalTest, settle_eq_error] at h
  obtain ⟨l, hl, hfault⟩ := List.exists_of_findSome?_eq_some h
  refine ⟨l, asked_subset lookup t hl, ?_⟩
  rw [outcome_eval, hfault, settle_some]

/-- A test whose leaves all have values has the value of its formula. Subtests in another order never
change one value into the other: if the outcome is not the same, then some leaf of the test that has no
evaluation is reached in one order or the other. -/
theorem evalTest_formula (lookup : Lookup) (t : Test) :
    (∀ value, (∀ l ∈ leaves t, (l.eval lookup).outcome = .ok (value l)) →
      (evalTest lookup t).outcome = .ok (formula value t)) ∧
    ∀ u, Reordered t u →
      (∀ b c, (evalTest lookup t).outcome = .ok b → (evalTest lookup u).outcome = .ok c → b = c) ∧
      ∀ e, (evalTest lookup u).outcome = .error e →
        ∃ l ∈ leaves t, (l.eval lookup).outcome = .error e := by
  refine ⟨fun value => outcome_of_leaves, fun u hu => ⟨fun b c hb hc => ?_, fun e he => ?_⟩⟩
  · calc
      b = formula (fun l => l.Holds lookup) t := (formula_of_outcome hb).symm
      _ = formula (fun l => l.Holds lookup) u := formula_reordered hu
      _ = c := formula_of_outcome hc
  · obtain ⟨l, hl, hfault⟩ := exists_leaf_of_error he
    exact ⟨l, (leaves_reordered hu).mem_iff.2 hl, hfault⟩

theorem reordered_swapped (yes no odd : HeaderTest) :
    Reordered (.anyof [.allof [.header no, .header odd], .header yes])
      (.anyof [.header yes, .allof [.header odd, .header no]]) :=
  have hallof : Reordered (.allof [.header no, .header odd]) (.allof [.header odd, .header no]) :=
    .allof (.cons (.header _) (.cons (.header _) .nil)) (.swap ..)
  .anyof (.cons hallof (.cons (.header _) .nil)) (.swap ..)

/-- A leaf without an evaluation is not asked in one order, nor in the other. -/
theorem unsupported_is_not_asked :
    ∃ lookup yes no odd t u,
      lookup = lookupIn [("Subject", .text "ab")] ∧
      yes = ⟨none, some .contains, ["subject"], ["a"]⟩ ∧
      no = ⟨none, some .contains, ["subject"], ["c"]⟩ ∧
      odd = ⟨none, some .matches, ["subject"], ["*"]⟩ ∧
      t = .anyof [.allof [.header no, .header odd], .header yes] ∧
      u = .anyof [.header yes, .allof [.header odd, .header no]] ∧
      (evalTest lookup (.anyof [.header no, .header yes])).outcome =
        .ok (formula (fun l => l.Holds lookup) (.anyof [.header no, .header yes])) ∧
      Reordered t u ∧
      ∃ b c, (evalTest lookup t).outcome = .ok b ∧ (evalTest lookup u).outcome = .ok c ∧ b = c := by
  have hname : lowercase "subject" = "subject" := by cbv
  have hvalues : lookupIn [("Subject", .text "ab")] "subject" = [.text "ab"] := by
    simp [lookupIn, sameName_iff]
  have hyes : (Leaf.header ⟨none, some .contains, ["subject"], ["a"]⟩).Holds
      (lookupIn [("Subject", .text "ab")]) := by
    have hkey : containsKey "ab" "a" = true := by decide +kernel
    simpa [Leaf.Holds, hname, hvalues, ← occursIn_iff_infix, containsKey, FieldValue.shown] using hkey
  have hno : ¬ (Leaf.header ⟨none, some .contains, ["subject"], ["c"]⟩).Holds
      (lookupIn [("Subject", .text "ab")]) := by
    have hkey : containsKey "ab" "c" = false := by decide +kernel
    simpa [Leaf.Holds, hname, hvalues, ← occursIn_iff_infix, containsKey, FieldValue.shown] using hkey
  refine ⟨_, _, _, _, _, _, rfl, rfl, rfl, rfl, rfl, rfl, (evalTest_formula _ _).1 _ ?leaves,
    reordered_swapped .., true, true, ?first, ?second,
    ((evalTest_formula _ _).2 _ (reordered_swapped ..)).1 _ _ ?first ?second⟩
  case leaves =>
    intro l hl
    rw [outcome_eval]
    obtain rfl | rfl : l = _ ∨ l = _ := by simpa [leaves, leavesIn] using hl
    · rfl
    · rfl
  case first =>
    rw [outcome_evalTest, settle_eq_ok]
    simp [asked, askedAll, askedAny, truth, allTrue, anyTrue, hyes, hno, Leaf.fault?, Leaf.unsupported]
  case second =>
    rw [outcome_evalTest, settle_eq_ok]
    simp [asked, askedAny, truth, anyTrue, hyes, Leaf.fault?, Leaf.unsupported]

end MailSieve.Filter
