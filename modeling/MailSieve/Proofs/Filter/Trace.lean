import MailSieve.Proofs.Filter.Comparisons

/-!
The lines that a run reports are those of its walk, up to the first leaf that has no evaluation: every
comparison that decides a leaf, and every action. Read back, they give the decision: what stands between
the quotes of an action is its name, whatever characters are in it, and no comparison reads like an action.
-/

namespace MailSieve.Filter

open Script Mail Text

/-- What is reported of a visit: no comparison after the first that is true. -/
def Visit.reports (lookup : Lookup) : Visit → List Event
  | .leaf l => through Event.holds (l.comparisons fun name => lookup (lowercase name))
  | .verdict true => [.keep]
  | .verdict false => [.discard]
  | .destination m => [.fileinto m]
  | .flags fs => fs.map .addflag

/-- The lines that report visits. -/
def report (lookup : Lookup) (vs : List Visit) : List String :=
  (vs.flatMap (Visit.reports lookup)).filterMap Event.line?

/-- The visits before the first leaf that has no evaluation. -/
def made (vs : List Visit) : List Visit := vs.takeWhile fun v => v.fault?.isNone

theorem made_append (vs ws : List Visit) :
    made (vs ++ ws) = made vs ++ if (firstFault? vs).isNone then made ws else [] := by
  induction vs with
  | nil => rfl
  | cons v vs ih =>
    rw [List.cons_append, made, made, List.takeWhile_cons, List.takeWhile_cons, firstFault?,
      List.findSome?_cons]
    cases v.fault? with
    | none => exact congrArg (v :: ·) ih
    | some u => rfl

theorem report_append (lookup : Lookup) (vs ws : List Visit) :
    report lookup (vs ++ ws) = report lookup vs ++ report lookup ws := by
  rw [report, List.flatMap_append, List.filterMap_append]
  rfl

section

variable {lookup : Lookup}

/-- A run that reports the visits it makes, and then another. -/
theorem lines_bind_made {r : Run α} {f : α → Run β} {vs ws : List Visit} {a : α}
    (hr : r.outcome = settle (firstFault? vs) a) (hvs : r.lines = report lookup (made vs))
    (hws : (f a).lines = report lookup (made ws)) :
    (r >>= f).lines = report lookup (made (vs ++ ws)) := by
  rw [Run.lines_bind r f hr, made_append, report_append, hvs]
  cases (firstFault? vs).isNone with
  | true => rw [if_pos rfl, if_pos rfl, hws]
  | false => rfl

theorem lines_eval_of_fault {l : Leaf} {u : Unsupported} (h : l.fault? = some u) :
    (l.eval lookup).lines = [] := by
  obtain ⟨tag, htag, -⟩ := Option.map_eq_some_iff.1 h
  cases l with
  | header t =>
    rw [Leaf.eval, evalHeader, unsupportedHeader?_eq, htag]
    rfl
  | address t =>
    rw [Leaf.eval, evalAddress, unsupportedAddress?_eq, htag]
    rfl

theorem lines_eval (l : Leaf) : (l.eval lookup).lines = report lookup (made [.leaf l]) := by
  cases h : l.fault? with
  | none =>
    have hmade : made [.leaf l] = [.leaf l] := by simp [made, Visit.fault?, h]
    rw [(Searches.eval lookup h).lines, hmade, report, List.flatMap_singleton]
    rfl
  | some u =>
    have hmade : made [.leaf l] = [] := by simp [made, Visit.fault?, h]
    rw [hmade, lines_eval_of_fault h]
    rfl

/-- Asking a test, and then what is done if it holds or if it does not. -/
theorem lines_bind_asked {r : Run Bool} {f : Bool → Run α} {ls : List Leaf} {vs : List Visit} {b : Bool}
    (hr : r.outcome = settle (ls.findSome? Leaf.fault?) b)
    (hls : r.lines = report lookup (made (ls.map .leaf)))
    (hvs : (f b).lines = report lookup (made vs)) :
    (r >>= f).lines = report lookup (made (ls.map .leaf ++ vs)) :=
  lines_bind_made (by rwa [firstFault?_leaves]) hls hvs

mutual

theorem lines_evalTest : (t : Test) →
    (evalTest lookup t).lines = report lookup (made ((asked lookup t).map .leaf))
  | .allof ts => by
    rw [evalTest, asked]
    exact (lines_evalIn ts).1
  | .anyof ts => by
    rw [evalTest, asked]
    exact (lines_evalIn ts).2
  | .header t => by
    rw [evalTest, asked]
    exact lines_eval (.header t)
  | .address t => by
    rw [evalTest, asked]
    exact lines_eval (.address t)

theorem lines_evalIn : (ts : List Test) →
    (evalAll lookup ts).lines = report lookup (made ((askedAll lookup ts).map .leaf)) ∧
      (evalAny lookup ts).lines = report lookup (made ((askedAny lookup ts).map .leaf))
  | [] => ⟨rfl, rfl⟩
  | t :: ts => by
    obtain ⟨hall, hany⟩ := lines_evalIn ts
    rw [evalAll, evalAny, askedAll, askedAny, List.map_append, List.map_append]
    constructor
    · refine lines_bind_asked (outcome_evalTest lookup t) (lines_evalTest t) ?_
      cases truth lookup t with
      | true => exact hall
      | false => rfl
    · refine lines_bind_asked (outcome_evalTest lookup t) (lines_evalTest t) ?_
      cases truth lookup t with
      | true => rfl
      | false => exact hany

end

theorem lines_foldlM_addFlag (fs : List String) (d : Decision) :
    (fs.foldlM addFlag d).lines = (fs.map Event.addflag).filterMap Event.line? := by
  induction fs generalizing d with
  | nil => rfl
  | cons f fs ih =>
    rw [List.foldlM_cons, Run.lines_bind_ok _ _ rfl, ih]
    rfl

/-- Asking a test and then taking one of two ways on. -/
theorem lines_branch (t : Test) {r s : Run Decision} {vs ws : List Visit}
    (hr : r.lines = report lookup (made vs)) (hs : s.lines = report lookup (made ws)) :
    (do if ← evalTest lookup t then r else s).lines =
      report lookup (made ((asked lookup t).map .leaf ++ if truth lookup t then vs else ws)) := by
  refine lines_bind_asked (outcome_evalTest lookup t) (lines_evalTest t) ?_
  cases truth lookup t with
  | true => exact hr
  | false => exact hs

mutual

theorem lines_runCommand (d : Decision) : (c : Command) →
    (runCommand lookup d c).lines = report lookup (made (visits lookup c))
  | .require _ | .keep | .discard | .fileinto _ => rfl
  | .addflag _ fs => by
    rw [runCommand, lines_foldlM_addFlag, visits, made, List.takeWhile_cons_of_pos rfl, report,
      List.takeWhile_nil, List.flatMap_singleton]
    rfl
  | .branch t b next => by
    rw [runCommand, visits]
    exact lines_branch t (lines_runCommands d b) (lines_runChain d next)

theorem lines_runCommands (d : Decision) : (cs : List Command) →
    (runCommands lookup d cs).lines = report lookup (made (walk lookup cs))
  | [] => rfl
  | c :: cs => by
    rw [runCommands, walk]
    exact lines_bind_made (outcome_runCommand lookup d c) (lines_runCommand d c)
      (lines_runCommands _ cs)

theorem lines_runChain (d : Decision) : (next : Chain) →
    (runChain lookup d next).lines = report lookup (made (walkChain lookup next))
  | .done => rfl
  | .elsif t b next => by
    rw [runChain, walkChain]
    exact lines_branch t (lines_runCommands d b) (lines_runChain d next)
  | .otherwise b => by
    rw [runChain, walkChain]
    exact lines_runCommands d b

end

end

theorem lines_run (p : Program) (lookup : Lookup) :
    (run p lookup).lines = report lookup (made (walk lookup p)) :=
  lines_runCommands .initial p

/-- Something that a line says was done. -/
inductive Action where
  | verdict (keep : Bool)
  | destination (mailbox : String)
  | flag (name : String)
  deriving DecidableEq

/-- What stands in a line between an opening and the quote at its end. -/
def quotedAfter? (opening line : String) : Option String :=
  ((line.toList.dropPrefix? opening.toList).bind (·.dropSuffix? ['\''])).map String.ofList

namespace Action

/-- The action that a line tells of, if any. -/
def read? (line : String) : Option Action :=
  if line = "Marking to keep" then some (.verdict true)
  else if line = "Marking to discard" then some (.verdict false)
  else
    ((quotedAfter? "Setting destination mailbox to '" line).map .destination).or
      ((quotedAfter? "Adding flag '" line).map .flag)

def verdict? : Action → Option Bool
  | .verdict b => some b
  | _ => none

def destination? : Action → Option String
  | .destination m => some m
  | _ => none

def flag? : Action → Option String
  | .flag f => some f
  | _ => none

end Action

/-- The last verdict and the last destination among actions stand, flags add up. -/
structure Replays (as : List Action) (d : Decision) : Prop where
  verdict : d.verdict = (as.filterMap Action.verdict?).getLast?
  destination : d.destination = (as.filterMap Action.destination?).getLast?
  flags : ∀ f, f ∈ d.flags ↔ f ∈ as.filterMap Action.flag?

def Event.action? : Event → Option Action
  | .lookup _ | .header _ _ _ _ | .address _ _ _ _ => none
  | .keep => some (.verdict true)
  | .discard => some (.verdict false)
  | .fileinto m => some (.destination m)
  | .addflag f => some (.flag f)

theorem quotedAfter?_append (opening name : String) :
    quotedAfter? opening (opening ++ name ++ "'") = some name := by
  have hlist : (opening ++ name ++ "'").toList = opening.toList ++ (name.toList ++ ['\'']) := by simp
  have hopening : (opening.toList ++ (name.toList ++ ['\''])).dropPrefix? opening.toList =
      some (name.toList ++ ['\'']) :=
    List.dropPrefix?_eq_some_iff.2 ⟨_, rfl, beq_self_eq_true _⟩
  have hquote : (name.toList ++ ['\'']).dropSuffix? ['\''] = some name.toList :=
    List.dropSuffix?_eq_some_iff.2 ⟨_, rfl, beq_self_eq_true _⟩
  rw [quotedAfter?, hlist, hopening, Option.bind_some, hquote, Option.map_some, String.ofList_toList]

theorem ne_of_head? {s t : String} (h : s.toList.head? ≠ t.toList.head?) : s ≠ t :=
  fun he => h (congrArg (·.toList.head?) he)

/-- A line that starts otherwise. -/
theorem quotedAfter?_eq_none {opening line : String} {c : Char} (hc : opening.toList.head? = some c)
    (h : line.toList.head? ≠ some c) : quotedAfter? opening line = none := by
  have hopening : line.toList.dropPrefix? opening.toList = none := by
    refine Option.eq_none_iff_forall_ne_some.2 fun rest hrest => h ?_
    obtain ⟨before, hline, hbefore⟩ := List.dropPrefix?_eq_some_iff.1 hrest
    rw [hline, eq_of_beq hbefore, List.head?_append, hc]
    rfl
  rw [quotedAfter?, hopening]
  rfl

/-- Lines that do not start like those of verdicts are read by their quotes. -/
theorem read?_of_head? {line : String} (h : line.toList.head? ≠ some 'M') :
    Action.read? line = ((quotedAfter? "Setting destination mailbox to '" line).map .destination).or
      ((quotedAfter? "Adding flag '" line).map .flag) := by
  rw [Action.read?, if_neg (ne_of_head? h), if_neg (ne_of_head? h)]

/-- Actions are read from the lines that report them, and none from the lines of comparisons. -/
theorem read?_line {e : Event} {line : String} (h : e.line? = some line) :
    Action.read? line = e.action? := by
  cases e with
  | lookup name => cases h
  | header name text key b | address name text key b =>
    cases h
    rw [read?_of_head? (by simp [toString]), quotedAfter?_eq_none (c := 'S') rfl (by simp [toString]),
      quotedAfter?_eq_none (c := 'A') rfl (by simp [toString])]
    rfl
  | keep | discard =>
    cases h
    rfl
  | fileinto m =>
    cases h
    rw [read?_of_head? (by simp [toString])]
    exact congrArg (Option.or · _) (congrArg (Option.map _) (quotedAfter?_append _ m))
  | addflag f =>
    cases h
    rw [read?_of_head? (by simp [toString]), quotedAfter?_eq_none (c := 'S') rfl (by simp [toString])]
    exact congrArg (Option.map _) (quotedAfter?_append _ f)

theorem line?_bind_read? (e : Event) : e.line?.bind Action.read? = e.action? := by
  cases h : e.line? with
  | some line => exact read?_line h
  | none => cases e <;> first | rfl | cases h

def Visit.actions : Visit → List Action
  | .leaf _ => []
  | .verdict b => [.verdict b]
  | .destination m => [.destination m]
  | .flags fs => fs.map .flag

theorem action?_comparisons {values : String → List FieldValue} {l : Leaf} {e : Event}
    (h : e ∈ l.comparisons values) : e.action? = none := by
  cases l <;> simp only [Leaf.comparisons, List.mem_flatMap, List.mem_map] at h
  · obtain ⟨name, -, key, -, v, -, rfl⟩ := h
    rfl
  · obtain ⟨name, -, key, -, a, -, rfl⟩ := h
    rfl

theorem filterMap_action?_reports (lookup : Lookup) (v : Visit) :
    (v.reports lookup).filterMap Event.action? = v.actions := by
  cases v with
  | leaf l =>
    exact List.filterMap_eq_nil_iff.2 fun e he => action?_comparisons (mem_of_mem_through he)
  | verdict b => cases b <;> rfl
  | destination m => rfl
  | flags fs =>
    rw [Visit.reports, Visit.actions, List.filterMap_map]
    exact congrFun List.filterMap_eq_map fs

theorem filterMap_read?_report (lookup : Lookup) (vs : List Visit) :
    (report lookup vs).filterMap Action.read? = vs.flatMap Visit.actions := by
  rw [report, List.filterMap_filterMap, funext line?_bind_read?, List.filterMap_flatMap]
  exact congrArg (List.flatMap · vs) (funext (filterMap_action?_reports lookup))

theorem filterMap_actions {f : Action → Option β} {g : Visit → Option β}
    (h : ∀ v, v.actions.filterMap f = (g v).toList) (vs : List Visit) :
    (vs.flatMap Visit.actions).filterMap f = vs.filterMap g := by
  rw [List.filterMap_flatMap, funext h, List.filterMap_eq_flatMap_toList]

theorem replays_of_settles {vs : List Visit} {d : Decision} (h : Settles vs d) :
    Replays (vs.flatMap Visit.actions) d where
  verdict := by
    rw [h.verdict, filterMap_actions]
    intro v
    cases v <;> simp [Visit.actions, Visit.verdict?, Action.verdict?]
  destination := by
    rw [h.destination, filterMap_actions]
    intro v
    cases v <;> simp [Visit.actions, Visit.destination?, Action.destination?]
  flags f := by
    rw [h.flags, List.filterMap_flatMap]
    have hflags : (fun v : Visit => v.actions.filterMap Action.flag?) = Visit.flagsOf := by
      funext v
      cases v with
      | flags fs =>
        rw [Visit.actions, Visit.flagsOf, List.filterMap_map]
        exact List.filterMap_some
      | _ => rfl
    rw [hflags]

theorem made_of_firstFault?_eq_none {vs : List Visit} (h : firstFault? vs = none) : made vs = vs :=
  List.takeWhile_eq_self_iff.2 fun v hv => by
    rw [List.findSome?_eq_none_iff.1 h v hv]
    rfl

/-- The visits that are made are those before the leaf that a walk fails at. -/
theorem exists_leaf_of_firstFault? {vs : List Visit} {u : Unsupported} (h : firstFault? vs = some u) :
    ∃ before l after, vs = before ++ .leaf l :: after ∧ firstFault? before = none ∧
      l.fault? = some u ∧ made vs = before := by
  obtain ⟨before, v, after, rfl, hv, hbefore⟩ := List.findSome?_eq_some_iff.1 h
  have hnone : firstFault? before = none := List.findSome?_eq_none_iff.2 hbefore
  have hmade : made (before ++ v :: after) = before := by
    rw [made_append, made_of_firstFault?_eq_none hnone, hnone, made, List.takeWhile_cons, hv]
    exact List.append_nil before
  cases v with
  | leaf l => exact ⟨before, l, after, rfl, hnone, hv, hmade⟩
  | verdict _ | destination _ | flags _ => cases hv

/-- A run that decides reports its whole walk, and the decision can be read from its lines: the last
verdict and the last destination in them stand, and their flags add up. A run that fails reports the
visits before the first leaf that has no evaluation. -/
theorem lines_replay (p : Program) (lookup : Lookup) :
    match evaluate p lookup with
    | .ok d => (run p lookup).lines = report lookup (walk lookup p) ∧
        Replays ((run p lookup).lines.filterMap Action.read?) d
    | .error u => ∃ before l after, walk lookup p = before ++ .leaf l :: after ∧
        firstFault? before = none ∧ l.fault? = some u ∧ (run p lookup).lines = report lookup before := by
  rw [lines_run, evaluate_eq_settled, settled]
  cases h : firstFault? (walk lookup p) with
  | none =>
    rw [made_of_firstFault?_eq_none h, filterMap_read?_report]
    exact ⟨rfl, replays_of_settles (settles_foldl_after _)⟩
  | some u =>
    obtain ⟨before, l, after, hwalk, hbefore, hl, hmade⟩ := exists_leaf_of_firstFault? h
    exact ⟨before, l, after, hwalk, hbefore, hl, congrArg (report lookup) hmade⟩

example : Action.read? "Setting destination mailbox to 'a'\nMarking to discard'" =
    some (.destination "a'\nMarking to discard") := by decide

end MailSieve.Filter
