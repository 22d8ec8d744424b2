import Mathlib.Control.Lawful
import MailSieve.Filter.Evaluate

/-!
Normal forms of scripts: without `require` and `elsif`, with one flag for each `addflag`, and with tests
in which no connective has a single subtest or a subtest of its own kind. A script and its normal form run
alike: the same comparisons, look-ups and actions in the same order, and the same outcome.
-/

namespace MailSieve.Filter

open Script Mail Text

namespace Run

theorem bind_def (r : Run α) (f : α → Run β) : r >>= f = r.andThen f := rfl

theorem pure_andThen (a : α) (f : α → Run β) : (pure a : Run α) >>= f = f a := rfl

theorem andThen_pure (r : Run α) : r >>= pure = r := by
  obtain ⟨es, o⟩ := r
  cases o with
  | ok a => exact congrArg (Run.mk · _) (List.append_nil es)
  | error u => rfl

theorem andThen_assoc (r : Run α) (f : α → Run β) (g : β → Run γ) :
    r >>= f >>= g = r >>= fun a => f a >>= g := by
  obtain ⟨es, o⟩ := r
  cases o with
  | error u => rfl
  | ok a =>
    simp only [bind_def, andThen]
    cases (f a).outcome with
    | error u => rfl
    | ok b => simp

instance : LawfulMonad Run :=
  LawfulMonad.mk' Run andThen_pure pure_andThen andThen_assoc

end Run

/-- The two ways of joining tests. -/
inductive Connective where | all | any

namespace Connective

def test : Connective → List Test → Test
  | .all => .allof
  | .any => .anyof

/-- The value of no tests joined, which is also the one after which the next test is asked. -/
def neutral : Connective → Bool
  | .all => true
  | .any => false

def eval (lookup : Lookup) : Connective → List Test → Run Bool
  | .all => evalAll lookup
  | .any => evalAny lookup

/-- The subtests of a test that is joined in the same way, or else the test itself. -/
def parts : Connective → Test → List Test
  | .all, .allof ts => ts
  | .any, .anyof ts => ts
  | _, t => [t]

/-- Joins tests that are no such joints themselves, unless there is just one. -/
def join (k : Connective) : List Test → Test
  | [t] => t
  | ts => k.test ts

variable {lookup : Lookup} (k : Connective)

theorem evalTest_test (ts : List Test) : evalTest lookup (k.test ts) = k.eval lookup ts := by
  cases k with
  | all => rw [test, eval, evalTest]
  | any => rw [test, eval, evalTest]

theorem eval_nil : k.eval lookup [] = pure k.neutral := by
  cases k <;> rfl

theorem eval_cons (t : Test) (ts : List Test) :
    k.eval lookup (t :: ts) =
      evalTest lookup t >>= fun b => if b = k.neutral then k.eval lookup ts else pure b := by
  cases k with
  | all =>
    rw [eval, evalAll]
    congr 1
    funext b
    cases b <;> rfl
  | any =>
    rw [eval, evalAny]
    congr 1
    funext b
    cases b <;> rfl

theorem eval_append (ts us : List Test) :
    k.eval lookup (ts ++ us) =
      k.eval lookup ts >>= fun b => if b = k.neutral then k.eval lookup us else pure b := by
  induction ts with
  | nil => simp [eval_nil]
  | cons t ts ih =>
    rw [List.cons_append, eval_cons, eval_cons, ih, bind_assoc]
    congr 1
    funext b
    by_cases hb : b = k.neutral <;> simp [hb]

theorem eval_singleton (t : Test) : k.eval lookup [t] = evalTest lookup t := by
  rw [eval_cons, eval_nil]
  calc
    _ = evalTest lookup t >>= pure := by
      congr 1
      funext b
      by_cases hb : b = k.neutral <;> simp [hb]
    _ = evalTest lookup t := bind_pure _

theorem eval_parts (t : Test) : k.eval lookup (k.parts t) = evalTest lookup t := by
  unfold parts
  split
  · exact (evalTest_test .all _).symm
  · exact (evalTest_test .any _).symm
  · exact eval_singleton k t

theorem eval_flatMap_parts (ts : List Test) :
    k.eval lookup (ts.flatMap k.parts) = k.eval lookup ts := by
  induction ts with
  | nil => rfl
  | cons t ts ih => rw [List.flatMap_cons, eval_append, eval_parts, ih, eval_cons]

theorem evalTest_join (ts : List Test) : evalTest lookup (k.join ts) = k.eval lookup ts := by
  unfold join
  split
  · exact (eval_singleton k _).symm
  · exact evalTest_test k _

end Connective

mutual

def normalTest : Test → Test
  | .allof ts => Connective.all.join ((normalTests ts).flatMap Connective.all.parts)
  | .anyof ts => Connective.any.join ((normalTests ts).flatMap Connective.any.parts)
  | .header t => .header t
  | .address t => .address t

def normalTests : List Test → List Test
  | [] => []
  | t :: ts => normalTest t :: normalTests ts

end

/-- An `addflag` of several flags as one `addflag` for each. -/
def splitFlags (target : Option String) : List String → List Command
  | [] => [.addflag target []]
  | f :: fs => (f :: fs).map fun f => .addflag target [f]

mutual

def normalCommand : Command → List Command
  | .require _ => []
  | .keep => [.keep]
  | .discard => [.discard]
  | .fileinto m => [.fileinto m]
  | .addflag target fs => splitFlags target fs
  | .branch t b next => [.branch (normalTest t) (normalize b) (normalChain next)]

/-- The normal form of a script. -/
def normalize : List Command → List Command
  | [] => []
  | c :: cs => normalCommand c ++ normalize cs

def normalChain : Chain → Chain
  | .done => .done
  | .elsif t b next => .otherwise [.branch (normalTest t) (normalize b) (normalChain next)]
  | .otherwise b => .otherwise (normalize b)

end

section

variable (lookup : Lookup)

mutual

theorem evalTest_normalTest : (t : Test) → evalTest lookup (normalTest t) = evalTest lookup t
  | .allof ts => by
    rw [normalTest, Connective.evalTest_join, Connective.eval_flatMap_parts, evalTest]
    exact eval_normalTests .all ts
  | .anyof ts => by
    rw [normalTest, Connective.evalTest_join, Connective.eval_flatMap_parts, evalTest]
    exact eval_normalTests .any ts
  | .header _ | .address _ => rfl

theorem eval_normalTests (k : Connective) : (ts : List Test) →
    k.eval lookup (normalTests ts) = k.eval lookup ts
  | [] => rfl
  | t :: ts => by
    rw [normalTests, Connective.eval_cons, Connective.eval_cons, evalTest_normalTest t,
      eval_normalTests k ts]

end

theorem runCommands_append (d : Decision) (cs ds : List Command) :
    runCommands lookup d (cs ++ ds) = runCommands lookup d cs >>= fun d => runCommands lookup d ds := by
  induction cs generalizing d with
  | nil => rfl
  | cons c cs ih =>
    rw [List.cons_append, runCommands, runCommands, bind_assoc]
    exact bind_congr fun d => ih d

theorem runCommands_singleton (d : Decision) (c : Command) :
    runCommands lookup d [c] = runCommand lookup d c := by
  rw [runCommands]
  exact bind_pure _

theorem runChain_otherwise (d : Decision) (b : List Command) :
    runChain lookup d (.otherwise b) = runCommands lookup d b := by
  rw [runChain]

theorem runCommands_map_addflag (target : Option String) (d : Decision) (fs : List String) :
    runCommands lookup d (fs.map fun f => .addflag target [f]) = fs.foldlM addFlag d := by
  induction fs generalizing d with
  | nil => rfl
  | cons f fs ih =>
    rw [List.map_cons, runCommands, runCommand, List.foldlM_cons, List.foldlM_cons, bind_assoc]
    exact bind_congr fun d => ih d

theorem runCommands_splitFlags (target : Option String) (d : Decision) (fs : List String) :
    runCommands lookup d (splitFlags target fs) = fs.foldlM addFlag d := by
  cases fs with
  | nil => rfl
  | cons f fs => exact runCommands_map_addflag lookup target d (f :: fs)

mutual

theorem runCommands_normalCommand : (c : Command) → (d : Decision) →
    runCommands lookup d (normalCommand c) = runCommand lookup d c
  | .require _, _ => rfl
  | .keep, d | .discard, d | .fileinto _, d => runCommands_singleton lookup d _
  | .addflag target fs, d => runCommands_splitFlags lookup target d fs
  | .branch t b next, d => by
    rw [normalCommand, runCommands_singleton, runCommand, runCommand, evalTest_normalTest,
      runCommands_normalize b, runChain_normalChain next]

theorem runCommands_normalize : (cs : List Command) → (d : Decision) →
    runCommands lookup d (normalize cs) = runCommands lookup d cs
  | [], _ => rfl
  | c :: cs, d => by
    rw [normalize, runCommands_append, runCommands_normalCommand c, runCommands]
    exact bind_congr fun d => runCommands_normalize cs d

theorem runChain_normalChain : (next : Chain) → (d : Decision) →
    runChain lookup d (normalChain next) = runChain lookup d next
  | .done, _ => rfl
  | .elsif t b next, d => by
    rw [normalChain, runChain_otherwise, runCommands_singleton, runCommand, runChain,
      evalTest_normalTest, runCommands_normalize b, runChain_normalChain next]
  | .otherwise b, d => by
    rw [normalChain, runChain_otherwise, runChain_otherwise, runCommands_normalize b]

end

end

mutual

/-- No connective in the test has a single subtest, or one of its own kind. -/
def IsFlat : Test → Prop
  | .allof ts => ts.length ≠ 1 ∧ (∀ us, .allof us ∉ ts) ∧ AreFlat ts
  | .anyof ts => ts.length ≠ 1 ∧ (∀ us, .anyof us ∉ ts) ∧ AreFlat ts
  | .header _ | .address _ => True

def AreFlat : List Test → Prop
  | [] => True
  | t :: ts => IsFlat t ∧ AreFlat ts

end

mutual

def IsNormalCommand : Command → Prop
  | .require _ => False
  | .keep | .discard | .fileinto _ => True
  | .addflag _ fs => fs.length ≤ 1
  | .branch t b next => IsFlat t ∧ IsNormal b ∧ IsNormalChain next

/-- A script that is a normal form. -/
def IsNormal : List Command → Prop
  | [] => True
  | c :: cs => IsNormalCommand c ∧ IsNormal cs

def IsNormalChain : Chain → Prop
  | .done => True
  | .elsif _ _ _ => False
  | .otherwise b => IsNormal b

end

theorem areFlat_iff {ts : List Test} : AreFlat ts ↔ ∀ t ∈ ts, IsFlat t := by
  induction ts with
  | nil => simp [AreFlat]
  | cons t ts ih => simp [AreFlat, ih]

theorem isNormal_iff {cs : List Command} : IsNormal cs ↔ ∀ c ∈ cs, IsNormalCommand c := by
  induction cs with
  | nil => simp [IsNormal]
  | cons c cs ih => simp [IsNormal, ih]

namespace Connective

variable {k : Connective}

theorem isFlat_test {ts : List Test} :
    IsFlat (k.test ts) ↔ ts.length ≠ 1 ∧ (∀ us, k.test us ∉ ts) ∧ ∀ t ∈ ts, IsFlat t := by
  cases k <;> simp only [test, IsFlat, areFlat_iff]

/-- What a flat test puts in its place is flat and no joint of the same kind. -/
theorem flat_parts {t u : Test} (ht : IsFlat t) (hu : u ∈ k.parts t) :
    IsFlat u ∧ ∀ us, k.test us ≠ u := by
  unfold parts at hu
  split at hu
  · next ts =>
    obtain ⟨-, hjoint, hflat⟩ := (isFlat_test (k := .all)).1 ht
    exact ⟨hflat u hu, fun us he => hjoint us (he ▸ hu)⟩
  · next ts =>
    obtain ⟨-, hjoint, hflat⟩ := (isFlat_test (k := .any)).1 ht
    exact ⟨hflat u hu, fun us he => hjoint us (he ▸ hu)⟩
  · next hall hany =>
    rw [List.mem_singleton.1 hu]
    refine ⟨ht, fun us he => ?_⟩
    cases k with
    | all => exact hall us rfl he.symm
    | any => exact hany us rfl he.symm

theorem isFlat_join {ts : List Test} (h : ∀ t ∈ ts, IsFlat t ∧ ∀ us, k.test us ≠ t) :
    IsFlat (k.join ts) := by
  unfold join
  split
  · exact (h _ (List.mem_singleton_self _)).1
  · next hsingle =>
    refine isFlat_test.2 ⟨fun hlength => ?_, fun us hus => (h _ hus).2 us rfl, fun t ht => (h t ht).1⟩
    obtain ⟨t, rfl⟩ := List.length_eq_one_iff.1 hlength
    exact hsingle t rfl

theorem isFlat_flattened {ts : List Test} (h : ∀ t ∈ ts, IsFlat t) :
    IsFlat (k.join (ts.flatMap k.parts)) := by
  apply isFlat_join
  intro u hu
  obtain ⟨t, ht, hut⟩ := List.mem_flatMap.1 hu
  exact flat_parts (h t ht) hut

end Connective

mutual

theorem isFlat_normalTest : (t : Test) → IsFlat (normalTest t)
  | .allof ts | .anyof ts => by
    rw [normalTest]
    exact Connective.isFlat_flattened (isFlat_normalTests ts)
  | .header _ | .address _ => trivial

theorem isFlat_normalTests : (ts : List Test) → ∀ t ∈ normalTests ts, IsFlat t
  | [] => List.forall_mem_nil _
  | t :: ts => List.forall_mem_cons.2 ⟨isFlat_normalTest t, isFlat_normalTests ts⟩

end

theorem isNormal_splitFlags (target : Option String) (fs : List String) :
    ∀ c ∈ splitFlags target fs, IsNormalCommand c := by
  cases fs with
  | nil => exact List.forall_mem_singleton.2 (Nat.zero_le 1)
  | cons f fs => exact List.forall_mem_map.2 fun _ _ => Nat.le_refl 1

mutual

theorem isNormal_normalCommand : (c : Command) → ∀ n ∈ normalCommand c, IsNormalCommand n
  | .require _ => List.forall_mem_nil _
  | .keep | .discard | .fileinto _ => List.forall_mem_singleton.2 trivial
  | .addflag target fs => isNormal_splitFlags target fs
  | .branch t b next =>
    List.forall_mem_singleton.2 ⟨isFlat_normalTest t, isNormal_normalize b, isNormal_normalChain next⟩

theorem isNormal_normalize : (cs : List Command) → IsNormal (normalize cs)
  | [] => trivial
  | c :: cs => isNormal_iff.2 (List.forall_mem_append.2
    ⟨isNormal_normalCommand c, isNormal_iff.1 (isNormal_normalize cs)⟩)

theorem isNormal_normalChain : (next : Chain) → IsNormalChain (normalChain next)
  | .done => trivial
  | .elsif t b next =>
    ⟨⟨isFlat_normalTest t, isNormal_normalize b, isNormal_normalChain next⟩, trivial⟩
  | .otherwise b => isNormal_normalize b

end

theorem run_normalize (p : Program) (lookup : Lookup) : run (normalize p) lookup = run p lookup :=
  runCommands_normalize lookup p .initial

/-- The normal form of a script is one, and it decides the same as the script about every message, or
fails at the same tag, reports the same lines and asks for the same headers, all in the same order. -/
theorem normalize_runs_alike (p : Program) :
    IsNormal (normalize p) ∧ ∀ lookup, evaluate (normalize p) lookup = evaluate p lookup ∧
      (run (normalize p) lookup).lines = (run p lookup).lines ∧
      (run (normalize p) lookup).lookups = (run p lookup).lookups := by
  refine ⟨isNormal_normalize p, fun lookup => ?_⟩
  rw [evaluate, evaluate, run_normalize]
  exact ⟨rfl, rfl, rfl⟩

example (t u v : HeaderTest) :
    normalize [.require ["fileinto"],
      .branch (.allof [.anyof [.allof [.header t, .header u]], .header v]) [.addflag none ["a", "b"]]
        (.elsif (.header u) [.keep] .done)] =
    [.branch (.allof [.header t, .header u, .header v]) [.addflag none ["a"], .addflag none ["b"]]
      (.otherwise [.branch (.header u) [.keep] .done])] := rfl

end MailSieve.Filter
