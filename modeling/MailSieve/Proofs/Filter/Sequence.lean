import Mathlib
import MailSieve.Proofs.Filter.Agreement
import MailSieve.Proofs.Script.Concatenation

/-!
Scripts one after another decide what each of them decides by itself: nothing that the first has done
changes what the second does.
-/

namespace MailSieve.Filter

open Script Mail Text

/-- Two decisions in turn: what the second leaves open is as in the first. -/
def Decision.followedBy (d e : Decision) : Decision where
  verdict := e.verdict.or d.verdict
  destination := e.destination.or d.destination
  flags := d.flags.union e.flags

@[simp] theorem followedBy_initial (d : Decision) : d.followedBy .initial = d := rfl

theorem union_foldl_insert (a b : TextSet) (fs : List String) :
    a.union (fs.foldl (fun c f => c.insert f) b) = fs.foldl (fun c f => c.insert f) (a.union b) := by
  apply TextSet.ext
  intro s
  simp only [TextSet.mem_union, TextSet.mem_foldl_insert]
  exact or_left_comm

theorem followedBy_after (d e : Decision) (v : Visit) :
    d.followedBy (e.after v) = (d.followedBy e).after v := by
  cases v with
  | leaf _ | verdict _ | destination _ => rfl
  | flags fs => simp [Decision.followedBy, Decision.after, union_foldl_insert]

theorem foldl_after_followedBy (vs : List Visit) (d e : Decision) :
    vs.foldl Decision.after (d.followedBy e) = d.followedBy (vs.foldl Decision.after e) := by
  induction vs generalizing e with
  | nil => rfl
  | cons v vs ih => rw [List.foldl_cons, List.foldl_cons, ← followedBy_after, ih]

/-- A run that starts from a decision adds what it decides by itself. -/
theorem settled_from (vs : List Visit) (d : Decision) :
    settled vs d = (settled vs .initial).map d.followedBy := by
  have h := foldl_after_followedBy vs d .initial
  rw [followedBy_initial] at h
  unfold settled
  rw [h]
  cases firstFault? vs <;> rfl

theorem walk_append (lookup : Lookup) (p q : Program) :
    walk lookup (p ++ q) = walk lookup p ++ walk lookup q := by
  induction p with
  | nil => rfl
  | cons c p ih => simp [walk, ih]

theorem evaluate_append (p q : Program) (lookup : Lookup) :
    evaluate (p ++ q) lookup = do
      let d ← evaluate p lookup
      let e ← evaluate q lookup
      return d.followedBy e := by
  simp only [evaluate_eq_settled, walk_append]
  symm
  apply settled_bind
  intro d
  rw [settled_from _ d]
  cases settled (walk lookup q) .initial <;> rfl

/-- Two scripts whose texts stand one after another are read as one script, which fails where the first
or else the second fails, and decides what they decide in turn. -/
theorem append_runs_in_turn {a b : String} {p q : Program} (ha : parseScript a = .ok p)
    (hb : parseScript b = .ok q) :
    parseScript (a ++ b) = .ok (p ++ q) ∧
    ∀ lookup, evaluate (p ++ q) lookup = do
      let d ← evaluate p lookup
      let e ← evaluate q lookup
      return d.followedBy e :=
  ⟨parseScript_concat ha hb, evaluate_append p q⟩

/-- A chain that ends one script is not taken up by the next. -/
theorem branch_runs_before_discard :
    ∃ a b p q, a = "if anyof(header:contains\"s\"\"x\")\x7bkeep;\x7d" ∧
      b = "addflag\"f\";discard;" ∧ parseScript a = .ok p ∧ parseScript b = .ok q ∧
      parseScript (a ++ b) = .ok (p ++ q) ∧
      ∀ lookup, evaluate (p ++ q) lookup = do
        let d ← evaluate p lookup
        let e ← evaluate q lookup
        return d.followedBy e := by
  have ha : parseScript "if anyof(header:contains\"s\"\"x\")\x7bkeep;\x7d" =
      .ok [.branch (.anyof [.header ⟨none, some .contains, ["s"], ["x"]⟩]) [.keep] .done] := by cbv
  have hb : parseScript "addflag\"f\";discard;" = .ok [.addflag none ["f"], .discard] := by cbv
  exact ⟨_, _, _, _, rfl, rfl, ha, hb, append_runs_in_turn ha hb⟩

end MailSieve.Filter
