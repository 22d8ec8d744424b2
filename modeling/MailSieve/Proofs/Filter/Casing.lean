import Mathlib.Logic.Basic
import MailSieve.Proofs.Filter.Agreement
import MailSieve.Proofs.Text.Lowercase

/-!
The case of ASCII letters in header names, keys and headers. Scripts and messages that nothing else tells
apart fare alike, whatever stands beside these letters.
-/

namespace MailSieve.Mail

open Text

def Address.uncased (a : Address) : Address := ⟨a.name.map asciiLower, asciiLower a.address⟩

def FieldValue.uncased : FieldValue → FieldValue
  | .text t => .text (asciiLower t)
  | .addresses as => .addresses (as.map Address.uncased)

/-- A field without the case of its ASCII letters. -/
def uncasedField (f : String × FieldValue) : String × FieldValue := (asciiLower f.1, f.2.uncased)

theorem Address.text_uncased (a : Address) : a.uncased.text = asciiLower a.text := by
  obtain ⟨name, address⟩ := a
  cases name with
  | none => rfl
  | some n =>
    have hopen : asciiLower " <" = " <" := by decide +kernel
    have hclose : asciiLower ">" = ">" := by decide +kernel
    change asciiLower n ++ " <" ++ asciiLower address ++ ">" = asciiLower (n ++ " <" ++ address ++ ">")
    simp only [asciiLower_append, hopen, hclose]

theorem asciiLower_intercalate (ss : List String) :
    asciiLower (", ".intercalate ss) = ", ".intercalate (ss.map asciiLower) := by
  have hcomma : asciiLower ", " = ", " := by decide +kernel
  induction ss with
  | nil => simp [asciiLower]
  | cons s ss ih =>
    cases ss with
    | nil => simp
    | cons t ss =>
      simp only [List.map_cons] at ih ⊢
      rw [String.intercalate_cons_cons, String.intercalate_cons_cons, asciiLower_append,
        asciiLower_append, hcomma, ih]

theorem FieldValue.shown_uncased (v : FieldValue) : v.uncased.shown = asciiLower v.shown := by
  cases v with
  | text t => rfl
  | addresses as =>
    rw [uncased, shown, shown, asciiLower_intercalate, List.map_map, List.map_map]
    exact congrArg _ (List.map_congr_left fun a _ => a.text_uncased)

theorem FieldValue.members_uncased (v : FieldValue) :
    v.uncased.members = v.members.map Address.uncased := by
  cases v <;> rfl

theorem lookupIn_uncased (fields : List (String × FieldValue)) (name : String) :
    lookupIn (fields.map uncasedField) name = (lookupIn fields name).map FieldValue.uncased := by
  have hname (f : String × FieldValue) : sameName (uncasedField f).1 name = sameName f.1 name := by
    rw [uncasedField, sameName, asciiLower_asciiLower, sameName]
  simp only [lookupIn, List.filter_map, List.map_map, Function.comp_def, hname]
  rfl

end MailSieve.Mail

namespace MailSieve.Filter

open Script Mail Text

def uncasedHeader (t : HeaderTest) : HeaderTest :=
  { t with headers := t.headers.map asciiLower, keys := t.keys.map asciiLower }

def uncasedAddress (t : AddressTest) : AddressTest :=
  { t with headers := t.headers.map asciiLower, keys := t.keys.map asciiLower }

mutual

def uncasedTest : Test → Test
  | .allof ts => .allof (uncasedTests ts)
  | .anyof ts => .anyof (uncasedTests ts)
  | .header t => .header (uncasedHeader t)
  | .address t => .address (uncasedAddress t)

def uncasedTests : List Test → List Test
  | [] => []
  | t :: ts => uncasedTest t :: uncasedTests ts

end

mutual

def uncasedCommand : Command → Command
  | .branch t b next => .branch (uncasedTest t) (uncased b) (uncasedChain next)
  | c => c

/-- A script without the case of the ASCII letters in the header names and keys of its tests. -/
def uncased : List Command → List Command
  | [] => []
  | c :: cs => uncasedCommand c :: uncased cs

def uncasedChain : Chain → Chain
  | .done => .done
  | .elsif t b next => .elsif (uncasedTest t) (uncased b) (uncasedChain next)
  | .otherwise b => .otherwise (uncased b)

end

/-- The second message is the first without the case of ASCII letters. -/
def Uncases (lookup lookup' : Lookup) : Prop :=
  ∀ name, lookup' name = (lookup name).map FieldValue.uncased

variable {lookup lookup' : Lookup}

theorem holds_uncasedHeader (h : Uncases lookup lookup') (t : HeaderTest) :
    (Leaf.header (uncasedHeader t)).Holds lookup' ↔ (Leaf.header t).Holds lookup := by
  simp only [Leaf.Holds, uncasedHeader, List.mem_map, exists_exists_and_eq_and, h _,
    lowercase_asciiLower, FieldValue.shown_uncased]

theorem holds_uncasedAddress (h : Uncases lookup lookup') (t : AddressTest) :
    (Leaf.address (uncasedAddress t)).Holds lookup' ↔ (Leaf.address t).Holds lookup := by
  simp only [Leaf.Holds, uncasedAddress, List.mem_map, exists_exists_and_eq_and, h _,
    lowercase_asciiLower, FieldValue.members_uncased, Address.uncased]

theorem outcome_uncasedHeader (h : Uncases lookup lookup') (t : HeaderTest) :
    (evalHeader lookup' (uncasedHeader t)).outcome = (evalHeader lookup t).outcome := by
  rw [outcome_evalHeader, outcome_evalHeader, decide_eq_decide.2 (holds_uncasedHeader h t)]
  rfl

theorem outcome_uncasedAddress (h : Uncases lookup lookup') (t : AddressTest) :
    (evalAddress lookup' (uncasedAddress t)).outcome = (evalAddress lookup t).outcome := by
  rw [outcome_evalAddress, outcome_evalAddress, decide_eq_decide.2 (holds_uncasedAddress h t)]
  rfl

theorem outcome_bind_congr {r r' : Run α} {f f' : α → Run β} (hr : r'.outcome = r.outcome)
    (hf : ∀ a, (f' a).outcome = (f a).outcome) : (r' >>= f').outcome = (r >>= f).outcome := by
  rw [Run.outcome_bind, Run.outcome_bind, hr, funext hf]

/-- Tests of one outcome, and then the same on either way. -/
theorem outcome_ite_congr {r r' : Run Bool} {x x' y y' : Run α} (hr : r'.outcome = r.outcome)
    (hx : x'.outcome = x.outcome) (hy : y'.outcome = y.outcome) :
    (r' >>= fun b => if b then x' else y').outcome = (r >>= fun b => if b then x else y).outcome := by
  refine outcome_bind_congr hr fun b => ?_
  cases b with
  | true => exact hx
  | false => exact hy

mutual

theorem outcome_uncasedTest (h : Uncases lookup lookup') : (t : Test) →
    (evalTest lookup' (uncasedTest t)).outcome = (evalTest lookup t).outcome
  | .allof ts => by
    rw [uncasedTest, evalTest, evalTest]
    exact (outcome_uncasedTests h ts).1
  | .anyof ts => by
    rw [uncasedTest, evalTest, evalTest]
    exact (outcome_uncasedTests h ts).2
  | .header t => by
    rw [uncasedTest, evalTest, evalTest]
    exact outcome_uncasedHeader h t
  | .address t => by
    rw [uncasedTest, evalTest, evalTest]
    exact outcome_uncasedAddress h t

theorem outcome_uncasedTests (h : Uncases lookup lookup') : (ts : List Test) →
    (evalAll lookup' (uncasedTests ts)).outcome = (evalAll lookup ts).outcome ∧
      (evalAny lookup' (uncasedTests ts)).outcome = (evalAny lookup ts).outcome
  | [] => ⟨rfl, rfl⟩
  | t :: ts => by
    obtain ⟨hall, hany⟩ := outcome_uncasedTests h ts
    rw [uncasedTests, evalAll, evalAll, evalAny, evalAny]
    constructor
    · exact outcome_ite_congr (outcome_uncasedTest h t) hall rfl
    · exact outcome_ite_congr (outcome_uncasedTest h t) rfl hany

end

mutual

theorem outcome_uncasedCommand (h : Uncases lookup lookup') : (c : Command) → (d : Decision) →
    (runCommand lookup' d (uncasedCommand c)).outcome = (runCommand lookup d c).outcome
  | .require _, _ | .keep, _ | .discard, _ | .fileinto _, _ | .addflag _ _, _ => rfl
  | .branch t b next, d => by
    rw [uncasedCommand, runCommand, runCommand]
    exact outcome_ite_congr (outcome_uncasedTest h t) (outcome_uncased h b d)
      (outcome_uncasedChain h next d)

theorem outcome_uncased (h : Uncases lookup lookup') : (cs : List Command) → (d : Decision) →
    (runCommands lookup' d (uncased cs)).outcome = (runCommands lookup d cs).outcome
  | [], _ => rfl
  | c :: cs, d => by
    rw [uncased, runCommands, runCommands]
    exact outcome_bind_congr (outcome_uncasedCommand h c d) fun d => outcome_uncased h cs d

theorem outcome_uncasedChain (h : Uncases lookup lookup') : (next : Chain) → (d : Decision) →
    (runChain lookup' d (uncasedChain next)).outcome = (runChain lookup d next).outcome
  | .done, _ => rfl
  | .elsif t b next, d => by
    rw [uncasedChain, runChain, runChain]
    exact outcome_ite_congr (outcome_uncasedTest h t) (outcome_uncased h b d)
      (outcome_uncasedChain h next d)
  | .otherwise b, d => by
    rw [uncasedChain, runChain, runChain]
    exact outcome_uncased h b d

end

theorem evaluate_uncased (p : Program) (fields : List (String × FieldValue)) :
    evaluate (uncased p) (lookupIn (fields.map uncasedField)) = evaluate p (lookupIn fields) :=
  outcome_uncased (lookupIn_uncased fields) p .initial

/-- Scripts that differ in the case of ASCII letters in header names and keys, and messages that differ in
the case of ASCII letters in names, texts and addresses, come to the same decision, or fail at the same
tag. -/
theorem evaluate_eq_of_uncased {p q : Program} {fields fields' : List (String × FieldValue)}
    (hprogram : uncased p = uncased q)
    (hfields : fields.map uncasedField = fields'.map uncasedField) :
    evaluate p (lookupIn fields) = evaluate q (lookupIn fields') := by
  rw [← evaluate_uncased p, hprogram, hfields, evaluate_uncased]

/-- Letters beside a sigma, in an address and in the name of a sender. -/
theorem evaluate_eq_recased :
    ∃ p q fields fields',
      p = [.branch (.anyof [.header ⟨none, some .contains, ["SUBJECT"], ["aΣ"]⟩,
        .address ⟨none, none, none, ["From"], ["bob@X"]⟩]) [.discard] .done] ∧
      q = [.branch (.anyof [.header ⟨none, some .contains, ["Subject"], ["AΣ"]⟩,
        .address ⟨none, none, none, ["from"], ["BOB@x"]⟩]) [.discard] .done] ∧
      fields = [("subject", .text "xAΣb"), ("From", .addresses [⟨some "Bob", "bOb@x"⟩])] ∧
      fields' = [("sUBJECT", .text "XaΣB"), ("FROM", .addresses [⟨some "BOB", "bob@X"⟩])] ∧
      uncased p = uncased q ∧ fields.map uncasedField = fields'.map uncasedField ∧
      evaluate p (lookupIn fields) = evaluate q (lookupIn fields') := by
  refine ⟨_, _, _, _, rfl, rfl, rfl, rfl, ?program, ?fields, evaluate_eq_of_uncased ?program ?fields⟩
  case program =>
    simp [uncased, uncasedCommand, uncasedChain, uncasedTest, uncasedTests, uncasedHeader,
      uncasedAddress, asciiLower_inj]
  case fields =>
    simp [uncasedField, FieldValue.uncased, Address.uncased, asciiLower_inj]

end MailSieve.Filter
