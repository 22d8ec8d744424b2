import MailSieve.Proofs.Filter.Connectives

/-!
The comparisons of a leaf. A leaf that has an evaluation makes them in the order of its names, its keys and
the values that there are, up to the first that is true, and reports each of them.
-/

namespace MailSieve.Filter

open Script Mail Text

/-- The elements up to the first that passes, and that one. -/
def through (p : α → Bool) : List α → List α
  | [] => []
  | a :: as => a :: if p a then [] else through p as

theorem mem_of_mem_through {p : α → Bool} {a : α} {as : List α} (h : a ∈ through p as) : a ∈ as := by
  induction as with
  | nil => exact h
  | cons b as ih =>
    obtain rfl | h := List.mem_cons.1 h
    · exact List.mem_cons_self
    · split at h
      · cases h
      · exact .tail _ (ih h)

theorem through_append (p : α → Bool) (as bs : List α) :
    through p (as ++ bs) = through p as ++ if as.any p then [] else through p bs := by
  induction as with
  | nil => rfl
  | cons a as ih =>
    rw [List.cons_append, through, through, ih, List.any_cons, List.cons_append]
    cases p a <;> rfl

theorem through_singleton (p : α → Bool) (a : α) : through p [a] = [a] := by
  rw [through, through, ite_self]

/-- A search in lists one after another stops in the first of them that has what is sought. -/
theorem through_flatMap (p : β → Bool) (f : α → List β) (as : List α) :
    through p (as.flatMap f) =
      (through (fun a => (f a).any p) as).flatMap fun a => through p (f a) := by
  induction as with
  | nil => rfl
  | cons a as ih =>
    rw [List.flatMap_cons, through_append, through, ih, List.flatMap_cons]
    cases (f a).any p <;> rfl

/-- A comparison that came out true. -/
def Event.holds : Event → Bool
  | .header _ _ _ b | .address _ _ _ b => b
  | _ => false

/-- All the comparisons that a leaf asks for, in their order, with the values that there are under the
names in it. -/
def Leaf.comparisons (values : String → List FieldValue) : Leaf → List Event
  | .header t => t.headers.flatMap fun name => t.keys.flatMap fun key => (values name).map fun v =>
      .header name v.shown key (decide ((lowercase key).toList <:+: (lowercase v.shown).toList))
  | .address t => t.headers.flatMap fun name => t.keys.flatMap fun key =>
      ((values name).flatMap FieldValue.members).map fun a =>
        .address name a.address key (lowercase a.address == lowercase key)

namespace Run

theorem lines_bind (r : Run α) (f : α → Run β) {fault : Option Unsupported} {a : α}
    (h : r.outcome = settle fault a) :
    (r >>= f).lines = r.lines ++ if fault.isNone then (f a).lines else [] := by
  change (andThen r f).lines = _
  unfold andThen
  rw [h]
  cases fault with
  | none => exact List.filterMap_append
  | some u => exact (List.append_nil _).symm

theorem lines_bind_ok (r : Run α) (f : α → Run β) {a : α} (h : r.outcome = .ok a) :
    (r >>= f).lines = r.lines ++ (f a).lines := by
  rw [lines_bind r f (h.trans (settle_none a).symm)]
  rfl

theorem lines_any {f : β → Run Bool} {g : β → Bool} (h : ∀ b, (f b).outcome = .ok (g b))
    (bs : List β) : (any f bs).lines = (through g bs).flatMap fun b => (f b).lines := by
  induction bs with
  | nil => rfl
  | cons b bs ih =>
    rw [any, lines_bind_ok _ _ (h b), through, List.flatMap_cons]
    cases g b with
    | true => rfl
    | false => exact congrArg (_ ++ ·) ih

end Run

/-- A run that makes comparisons in their order up to the first that is true, and tells whether there is
one. -/
structure Searches (r : Run Bool) (es : List Event) : Prop where
  outcome : r.outcome = .ok (es.any Event.holds)
  lines : r.lines = (through Event.holds es).filterMap Event.line?

namespace Searches

theorem compare (e : Event) : Searches (do Run.emit e; return e.holds) [e] where
  outcome := congrArg Except.ok (Bool.or_false _).symm
  lines := by
    rw [through_singleton]
    rfl

theorem any {f : β → Run Bool} {es : β → List Event} (h : ∀ b, Searches (f b) (es b)) (bs : List β) :
    Searches (Run.any f bs) (bs.flatMap es) where
  outcome := by rw [Run.outcome_any (fun b => (h b).outcome), List.any_flatMap]
  lines := by
    rw [Run.lines_any (fun b => (h b).outcome), through_flatMap, List.filterMap_flatMap]
    exact congrArg (List.flatMap · _) (funext fun b => (h b).lines)

theorem find {lookup : Lookup} {name : String} {f : List FieldValue → Run Bool} {es : List Event}
    (h : Searches (f (lookup (lowercase name))) es) : Searches (find lookup name >>= f) es where
  outcome := by rw [Run.outcome_bind, outcome_find]; exact h.outcome
  lines := (Run.lines_bind_ok _ _ (outcome_find lookup name)).trans h.lines

theorem checkHeader (name key : String) (v : FieldValue) :
    Searches (checkHeader name key v)
      [.header name v.shown key (decide ((lowercase key).toList <:+: (lowercase v.shown).toList))] := by
  have h : decide ((lowercase key).toList <:+: (lowercase v.shown).toList) = containsKey v.shown key := by
    rw [Bool.eq_iff_iff, decide_eq_true_iff]
    exact occursIn_iff_infix.symm
  rw [h]
  exact compare (.header name v.shown key _)

theorem evalHeader (lookup : Lookup) {t : HeaderTest} (h : (Leaf.header t).fault? = none) :
    Searches (evalHeader lookup t)
      ((Leaf.header t).comparisons fun name => lookup (lowercase name)) := by
  rw [Leaf.fault?, Option.map_eq_none_iff, ← unsupportedHeader?_eq] at h
  simp only [Filter.evalHeader, h, Leaf.comparisons, List.map_eq_flatMap]
  refine any (fun name => find ?_) _
  exact any (fun key => any (checkHeader name key) _) _

theorem evalAddress (lookup : Lookup) {t : AddressTest} (h : (Leaf.address t).fault? = none) :
    Searches (evalAddress lookup t)
      ((Leaf.address t).comparisons fun name => lookup (lowercase name)) := by
  rw [Leaf.fault?, Option.map_eq_none_iff, ← unsupportedAddress?_eq] at h
  simp only [Filter.evalAddress, h, Leaf.comparisons, List.map_eq_flatMap]
  refine any (fun name => find ?_) _
  refine any (fun key => any (fun a => ?_) _) _
  exact compare (.address name a.address key _)

theorem eval (lookup : Lookup) {l : Leaf} (h : l.fault? = none) :
    Searches (l.eval lookup) (l.comparisons fun name => lookup (lowercase name)) := by
  cases l with
  | header t => exact evalHeader lookup h
  | address t => exact evalAddress lookup h

end Searches

end MailSieve.Filter
