import MailSieve.Proofs.Filter.Walk
import MailSieve.Proofs.Text.Sorted

/-!
Evaluating a script agrees with its walk.
-/

namespace MailSieve.Filter

open Script Mail Text

/-- A value that stands unless there was a fault before it. -/
def settle (fault : Option Unsupported) (a : α) : Except Unsupported α :=
  match fault with
  | some u => .error u
  | none => .ok a

@[simp] theorem settle_none (a : α) : settle none a = .ok a := rfl

@[simp] theorem settle_some (u : Unsupported) (a : α) : settle (some u) a = .error u := rfl

theorem settle_bind (f g : Option Unsupported) (a : α) (k : α → Except Unsupported β) (b : β)
    (h : k a = settle g b) : (settle f a).bind k = settle (f.or g) b := by
  cases f with
  | none => simpa [Except.bind] using h
  | some u => rfl

theorem settle_eq_error {f : Option Unsupported} {a : α} {u : Unsupported} :
    settle f a = .error u ↔ f = some u := by
  cases f <;> simp

theorem settle_eq_ok {f : Option Unsupported} {a b : α} :
    settle f a = .ok b ↔ f = none ∧ a = b := by
  cases f <;> simp

namespace Run

@[simp] theorem outcome_pure (a : α) : (pure a : Run α).outcome = .ok a := rfl

@[simp] theorem outcome_emit (e : Event) : (emit e).outcome = .ok () := rfl

@[simp] theorem outcome_fail (u : Unsupported) : (fail u : Run α).outcome = .error u := rfl

@[simp] theorem outcome_bind (r : Run α) (f : α → Run β) :
    (r >>= f).outcome = r.outcome.bind fun a => (f a).outcome := by
  change (andThen r f).outcome = _
  unfold andThen
  cases r.outcome <;> rfl

theorem outcome_any {f : β → Run Bool} {g : β → Bool} (h : ∀ b, (f b).outcome = .ok (g b))
    (bs : List β) : (any f bs).outcome = .ok (bs.any g) := by
  induction bs with
  | nil => rfl
  | cons b bs ih =>
    simp only [any, outcome_bind, h, Except.bind, List.any_cons]
    cases g b <;> simp [ih]

end Run

theorem occursIn_iff_infix {needle text : List Char} :
    occursIn needle text = true ↔ needle <:+: text := by
  induction text with
  | nil => simp [occursIn]
  | cons c r ih => simp [occursIn, ih, List.infix_cons_iff]

@[simp] theorem outcome_find (lookup : Lookup) (name : String) :
    (find lookup name).outcome = .ok (lookup (lowercase name)) := rfl

@[simp] theorem outcome_checkHeader (name key : String) (v : FieldValue) :
    (checkHeader name key v).outcome = .ok (containsKey v.shown key) := rfl

@[simp] theorem outcome_checkAddress (name key : String) (a : Address) :
    (checkAddress name key a).outcome = .ok (lowercase a.address == lowercase key) := rfl

theorem unsupportedHeader?_eq (t : HeaderTest) :
    unsupportedHeader? t = (Leaf.header t).unsupported.head? := by
  cases t with
  | mk comparator matchType headers keys =>
    cases comparator with
    | some c => rfl
    | none =>
      cases matchType with
      | none => rfl
      | some m => cases m <;> rfl

theorem unsupportedAddress?_eq (t : AddressTest) :
    unsupportedAddress? t = (Leaf.address t).unsupported.head? := by
  cases t with
  | mk comparator part matchType headers keys =>
    cases comparator with
    | some c => rfl
    | none =>
      cases part with
      | some p => rfl
      | none =>
        cases matchType with
        | none => rfl
        | some m => cases m <;> rfl

theorem outcome_evalHeader (lookup : Lookup) (t : HeaderTest) :
    (evalHeader lookup t).outcome =
      settle (Leaf.header t).fault? (decide ((Leaf.header t).Holds lookup)) := by
  unfold evalHeader Leaf.fault?
  rw [unsupportedHeader?_eq]
  cases (Leaf.header t).unsupported.head? with
  | some tag => rfl
  | none =>
    have hany : ∀ name, (do
        let values ← find lookup name
        Run.any (fun key => Run.any (checkHeader name key) values) t.keys).outcome =
        .ok (t.keys.any fun key =>
          (lookup (lowercase name)).any fun v => containsKey v.shown key) := by
      intro name
      simp [Except.bind, Run.outcome_any fun key => Run.outcome_any (outcome_checkHeader name key) _]
    simp only [Option.map_none, settle_none]
    rw [Run.outcome_any hany]
    apply congrArg Except.ok
    rw [Bool.eq_iff_iff]
    simp only [List.any_eq_true, containsKey, occursIn_iff_infix, Leaf.Holds]
    grind

theorem outcome_evalAddress (lookup : Lookup) (t : AddressTest) :
    (evalAddress lookup t).outcome =
      settle (Leaf.address t).fault? (decide ((Leaf.address t).Holds lookup)) := by
  unfold evalAddress Leaf.fault?
  rw [unsupportedAddress?_eq]
  cases (Leaf.address t).unsupported.head? with
  | some tag => rfl
  | none =>
    have hany : ∀ name, (do
        let values ← find lookup name
        let members := values.flatMap FieldValue.members
        Run.any (fun key => Run.any (checkAddress name key) members) t.keys).outcome =
        .ok (t.keys.any fun key =>
          ((lookup (lowercase name)).flatMap FieldValue.members).any fun a =>
            lowercase a.address == lowercase key) := by
      intro name
      simp [Except.bind,
        Run.outcome_any fun key => Run.outcome_any (outcome_checkAddress name key) _]
    simp only [Option.map_none, settle_none]
    rw [Run.outcome_any hany]
    apply congrArg Except.ok
    rw [Bool.eq_iff_iff]
    simp only [List.any_eq_true, List.mem_flatMap, beq_iff_eq, Leaf.Holds]
    grind

mutual

theorem outcome_evalTest (lookup : Lookup) : (t : Test) →
    (evalTest lookup t).outcome =
      settle ((asked lookup t).findSome? Leaf.fault?) (truth lookup t)
  | .allof ts => outcome_evalAll lookup ts
  | .anyof ts => outcome_evalAny lookup ts
  | .header t => by simp [evalTest, asked, truth, outcome_evalHeader]
  | .address t => by simp [evalTest, asked, truth, outcome_evalAddress]

theorem outcome_evalAll (lookup : Lookup) : (ts : List Test) →
    (evalAll lookup ts).outcome =
      settle ((askedAll lookup ts).findSome? Leaf.fault?) (allTrue lookup ts)
  | [] => rfl
  | t :: ts => by
    rw [evalAll, Run.outcome_bind, outcome_evalTest lookup t, askedAll, List.findSome?_append]
    apply settle_bind
    cases h : truth lookup t with
    | true => simp [allTrue, h, outcome_evalAll lookup ts]
    | false => simp [allTrue, h]

theorem outcome_evalAny (lookup : Lookup) : (ts : List Test) →
    (evalAny lookup ts).outcome =
      settle ((askedAny lookup ts).findSome? Leaf.fault?) (anyTrue lookup ts)
  | [] => rfl
  | t :: ts => by
    rw [evalAny, Run.outcome_bind, outcome_evalTest lookup t, askedAny, List.findSome?_append]
    apply settle_bind
    cases h : truth lookup t with
    | true => simp [anyTrue, h]
    | false => simp [anyTrue, h, outcome_evalAny lookup ts]

end

/-- What one visit does to a decision. -/
def Decision.after (d : Decision) : Visit → Decision
  | .leaf _ => d
  | .verdict b => { d with verdict := some b }
  | .destination m => { d with destination := some m }
  | .flags fs => { d with flags := fs.foldl (fun a f => a.insert f) d.flags }

@[simp] theorem firstFault?_append (vs ws : List Visit) :
    firstFault? (vs ++ ws) = (firstFault? vs).or (firstFault? ws) :=
  List.findSome?_append

@[simp] theorem firstFault?_leaves (ls : List Leaf) :
    firstFault? (ls.map .leaf) = ls.findSome? Leaf.fault? := by
  simp [firstFault?, List.findSome?_map, Function.comp_def, Visit.fault?]

@[simp] theorem foldl_after_leaves (ls : List Leaf) (d : Decision) :
    (ls.map Visit.leaf).foldl Decision.after d = d := by
  induction ls with
  | nil => rfl
  | cons l ls ih => simpa [Decision.after] using ih

theorem outcome_foldlM_addFlag (fs : List String) (d : Decision) :
    (fs.foldlM addFlag d).outcome = .ok (d.after (.flags fs)) := by
  induction fs generalizing d with
  | nil => rfl
  | cons f fs ih =>
    rw [List.foldlM_cons, Run.outcome_bind]
    exact ih { d with flags := d.flags.insert f }

/-- The outcome of a run from `d` that makes the visits `vs`. -/
def settled (vs : List Visit) (d : Decision) : Except Unsupported Decision :=
  settle (firstFault? vs) (vs.foldl Decision.after d)

theorem settled_bind (vs ws : List Visit) (d : Decision) (k : Decision → Except Unsupported Decision)
    (h : ∀ d, k d = settled ws d) : (settled vs d).bind k = settled (vs ++ ws) d := by
  unfold settled
  rw [firstFault?_append, List.foldl_append]
  apply settle_bind
  exact h _

/-- Asking a test and then taking one of two ways on. -/
theorem outcome_branch (lookup : Lookup) (t : Test) (d : Decision) {r s : Run Decision}
    {vs ws : List Visit} (hr : r.outcome = settled vs d) (hs : s.outcome = settled ws d) :
    (do if ← evalTest lookup t then r else s).outcome =
      settled ((asked lookup t).map .leaf ++ if truth lookup t then vs else ws) d := by
  rw [Run.outcome_bind, outcome_evalTest]
  unfold settled
  rw [firstFault?_append, firstFault?_leaves, List.foldl_append, foldl_after_leaves]
  apply settle_bind
  cases truth lookup t with
  | true => exact hr
  | false => exact hs

mutual

theorem outcome_runCommand (lookup : Lookup) (d : Decision) : (c : Command) →
    (runCommand lookup d c).outcome = settled (visits lookup c) d
  | .require _ | .keep | .discard | .fileinto _ => rfl
  | .addflag _ fs => outcome_foldlM_addFlag fs d
  | .branch t b next => by
    rw [runCommand, visits]
    apply outcome_branch
    · exact outcome_runCommands lookup d b
    · exact outcome_runChain lookup d next

theorem outcome_runCommands (lookup : Lookup) (d : Decision) : (cs : List Command) →
    (runCommands lookup d cs).outcome = settled (walk lookup cs) d
  | [] => rfl
  | c :: cs => by
    rw [runCommands, Run.outcome_bind, outcome_runCommand lookup d c, walk]
    apply settled_bind
    intro d
    exact outcome_runCommands lookup d cs

theorem outcome_runChain (lookup : Lookup) (d : Decision) : (next : Chain) →
    (runChain lookup d next).outcome = settled (walkChain lookup next) d
  | .done => rfl
  | .elsif t b next => by
    rw [runChain, walkChain]
    apply outcome_branch
    · exact outcome_runCommands lookup d b
    · exact outcome_runChain lookup d next
  | .otherwise b => by
    rw [runChain, walkChain]
    exact outcome_runCommands lookup d b

end

theorem evaluate_eq_settled (p : Program) (lookup : Lookup) :
    evaluate p lookup = settled (walk lookup p) .initial :=
  outcome_runCommands lookup .initial p

/-- What the latest visit sets stands. -/
theorem last_foldl_after (get : Decision → Option β) (pick : Visit → Option β)
    (h : ∀ d v, get (d.after v) = (pick v).or (get d)) (vs : List Visit) (d : Decision) :
    get (vs.foldl Decision.after d) = (vs.filterMap pick).getLast?.or (get d) := by
  induction vs generalizing d with
  | nil => rfl
  | cons v vs ih =>
    rw [List.foldl_cons, ih, h, List.filterMap_cons]
    cases pick v with
    | none => rfl
    | some b =>
      rw [List.getLast?_cons]
      cases (vs.filterMap pick).getLast? <;> rfl

theorem verdict_after (d : Decision) (v : Visit) :
    (d.after v).verdict = v.verdict?.or d.verdict := by
  cases v <;> rfl

theorem destination_after (d : Decision) (v : Visit) :
    (d.after v).destination = v.destination?.or d.destination := by
  cases v <;> rfl

theorem mem_flags_foldl_after {f : String} (vs : List Visit) (d : Decision) :
    f ∈ (vs.foldl Decision.after d).flags ↔ f ∈ vs.flatMap Visit.flagsOf ∨ f ∈ d.flags := by
  induction vs generalizing d with
  | nil => simp
  | cons v vs ih =>
    rw [List.foldl_cons, ih, List.flatMap_cons, List.mem_append]
    cases v with
    | flags fs =>
      simp only [Decision.after, Visit.flagsOf, TextSet.mem_foldl_insert]
      rw [or_left_comm, or_assoc]
    | leaf _ | verdict _ | destination _ => simp [Decision.after, Visit.flagsOf]

theorem settles_foldl_after (vs : List Visit) : Settles vs (vs.foldl Decision.after .initial) where
  verdict := by simp [last_foldl_after _ _ verdict_after, Decision.initial]
  destination := by simp [last_foldl_after _ _ destination_after, Decision.initial]
  flags _ := by simp [mem_flags_foldl_after, Decision.initial]

theorem Settles.unique {vs : List Visit} {d d' : Decision} (h : Settles vs d) (h' : Settles vs d') :
    d = d' := by
  have hverdict : d.verdict = d'.verdict := h.verdict.trans h'.verdict.symm
  have hdestination : d.destination = d'.destination := h.destination.trans h'.destination.symm
  have hflags : d.flags = d'.flags := TextSet.ext fun f => (h.flags f).trans (h'.flags f).symm
  cases d
  cases d'
  cases hverdict
  cases hdestination
  cases hflags
  rfl

/-- A script fails at the first leaf on its walk that has no evaluation, and else decides what the
actions on its walk add up to. -/
theorem evaluate_agrees (p : Program) (lookup : Lookup) :
    (∀ u, evaluate p lookup = .error u ↔ firstFault? (walk lookup p) = some u) ∧
    (∀ d, evaluate p lookup = .ok d ↔
      firstFault? (walk lookup p) = none ∧ Settles (walk lookup p) d) := by
  rw [evaluate_eq_settled]
  constructor
  · intro u
    exact settle_eq_error
  · intro d
    unfold settled
    rw [settle_eq_ok]
    constructor
    · intro h
      exact ⟨h.1, h.2 ▸ settles_foldl_after _⟩
    · intro h
      exact ⟨h.1, (settles_foldl_after _).unique h.2⟩

end MailSieve.Filter
