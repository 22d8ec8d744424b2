import MailSieve.Proofs.Script.Placement
import MailSieve.Proofs.Script.Walk

/-!
Walks that follow a production: before the same tokens a walk has the same answer, and it has advanced once
over each token that the production read. This is kept when walks are put one after another.
-/

namespace MailSieve.Script

/-- The cursor stands before these tokens, and the last one after them. -/
def Cursor.Before (c : Cursor) (ts : List Token) (stop : Token) : Prop :=
  c.tokens.drop c.pos = ts ++ [stop]

/-- The cursor so many advances further on. -/
def Cursor.after (c : Cursor) (k : Nat) : Cursor :=
  { c with pos := c.pos + k, trail := c.trail ++ List.range' c.pos k }

/-- The cursor after an advance from the last token, that leaves it there. -/
def Cursor.stalled (c : Cursor) : Cursor := { c with trail := c.trail ++ [c.pos] }

@[simp] theorem Cursor.after_zero (c : Cursor) : c.after 0 = c := by
  simp [after]

theorem Cursor.after_after (c : Cursor) (j k : Nat) : (c.after j).after k = c.after (j + k) := by
  simp only [after, Nat.add_assoc, List.append_assoc, List.range'_append_1]

section

variable {c c' : Cursor} {ts us r : List Token} {stop t : Token}

theorem Cursor.Before.length (h : c.Before ts stop) : c.tokens.length = c.pos + ts.length + 1 := by
  have hlength := congrArg List.length h
  rw [List.length_drop, List.length_append, List.length_singleton] at hlength
  omega

theorem Cursor.Before.getElem? (h : c.Before ts stop) (i : Nat) :
    c.tokens[c.pos + i]? = (ts ++ [stop])[i]? := by
  rw [← List.getElem?_drop, h]

theorem Cursor.Before.after (us : List Token) (h : c.Before (us ++ r) stop) :
    (c.after us.length).Before r stop := by
  have hdrop := congrArg (List.drop us.length) h
  rwa [List.drop_drop, List.append_assoc, List.drop_left] at hdrop

namespace Walk

/-! Running a walk. -/

theorem run_pure (a : α) (c : Cursor) : run (pure a) c = some (.ok a, c) := rfl

theorem run_bind_ok {x : Walk α} {f : α → Walk β} {a : α} (h : run x c = some (.ok a, c')) :
    run (x >>= f) c = run (f a) c' := by
  simp only [run] at h
  simp only [run, bind, ExceptT.bind, ExceptT.mk, StateT.bind, h, Option.bind, ExceptT.bindCont]

theorem run_bind_error {x : Walk α} {f : α → Walk β} {e : Halt}
    (h : run x c = some (.error e, c')) : run (x >>= f) c = some (.error e, c') := by
  simp only [run] at h
  simp only [run, bind, ExceptT.bind, ExceptT.mk, StateT.bind, h, Option.bind, ExceptT.bindCont]
  rfl

theorem run_ahead (h : c.Before ts stop) (i : Nat) :
    run (ahead i) c = some (.ok ((ts.drop i).headD stop), c) := by
  have hindex : min (c.pos + i) (c.tokens.length - 1) = c.pos + min i ts.length := by
    rw [h.length]
    omega
  have ht : c.tokens[min (c.pos + i) (c.tokens.length - 1)]? = some ((ts.drop i).headD stop) := by
    rw [hindex, h.getElem?, List.headD_eq_head?_getD, List.head?_drop]
    by_cases hi : i < ts.length
    · rw [Nat.min_eq_left (Nat.le_of_lt hi), List.getElem?_append_left hi,
        List.getElem?_eq_getElem hi, Option.getD_some]
    · rw [Nat.min_eq_right (Nat.le_of_not_lt hi), List.getElem?_concat_length,
        List.getElem?_eq_none (Nat.le_of_not_lt hi), Option.getD_none]
  have hget : run (get : Walk Cursor) c = some (.ok c, c) := rfl
  rw [ahead, run_bind_ok hget, ht]
  rfl

theorem run_peek (h : c.Before ts stop) : run peek c = some (.ok (ts.headD stop), c) :=
  run_ahead h 0

theorem run_peekNext (h : c.Before ts stop) :
    run peekNext c = some (.ok (ts.tail.headD stop), c) := by
  rw [← List.drop_one]
  exact run_ahead h 1

theorem run_modify (f : Cursor → Cursor) (c : Cursor) :
    run (modify f : Walk PUnit) c = some (.ok ⟨⟩, f c) := rfl

theorem run_advance (h : c.Before (t :: r) stop) : run advance c = some (.ok t, c.after 1) := by
  have hpos : c.pos < c.tokens.length - 1 := by
    rw [h.length, List.length_cons]
    omega
  rw [advance, run_bind_ok (run_peek h), run_bind_ok (run_modify _ c), run_pure, if_pos hpos]
  rfl

theorem run_advance_stop (h : c.Before [] stop) : run advance c = some (.ok stop, c.stalled) := by
  have hpos : ¬ c.pos < c.tokens.length - 1 := by
    rw [h.length, List.length_nil]
    omega
  rw [advance, run_bind_ok (run_peek h), run_bind_ok (run_modify _ c), run_pure, if_neg hpos]
  rfl

theorem run_refuse (hstop : stop.kind = .eof) (h : c.Before ts stop) (es : List Expected) :
    run (refuse es : Walk α) c =
      some (.error (.refused (Stuck.error ⟨es, ts⟩ stop.start)), c) := by
  rw [refuse, run_bind_ok (run_peek h)]
  cases ts with
  | nil =>
    rw [List.headD_nil, if_pos hstop]
    rfl
  | cons t r => rfl

end Walk

/-! Walks that follow a production. -/

/-- The answer of a production, as that of a walk. -/
def told (stop : Token) : Except Stuck (α × List Token) → Except Halt α
  | .ok p => .ok p.1
  | .error s => .error (.refused (s.error stop.start))

/-- Before the tokens `ts` the walk `x` answers `o`, and it has advanced over what `o` has read of them. -/
def Follows (stop : Token) (x : Walk α) (ts : List Token) (o : Except Stuck (α × List Token)) : Prop :=
  ∃ us, ts = us ++ leftover o ∧
    ∀ c : Cursor, c.Before ts stop → x.run c = some (told stop o, c.after us.length)

section Rules

variable {x y : Walk α} {o o' : Except Stuck (α × List Token)}

theorem Follows.length_le (h : Follows stop x ts o) : (leftover o).length ≤ ts.length := by
  obtain ⟨us, hts, -⟩ := h
  rw [hts, List.length_append]
  omega

/-- The answer of a production does not depend on its fuel, if there is enough. -/
theorem Follows.refuel {n m : Nat} {L : Set (List Lexeme)}
    {y : Nat → List Token → Except Stuck (α × List Token)} (h : Follows stop x ts (y n ts))
    (hy : Reads 0 L (y n ts) y ts) (hm : ts.length < m) : Follows stop x ts (y m ts) := by
  obtain ⟨us, hts, -, hreads⟩ := hy
  have hsame : y m ts = y n ts := by
    rw [hts] at hm
    have hagain := hreads m _ (.refl _) hm
    rwa [leaving_leftover, ← hts] at hagain
  rwa [hsame]

theorem follows_pure (a : α) (ts : List Token) : Follows stop (pure a) ts (.ok (a, ts)) :=
  ⟨[], rfl, fun c _ => by rw [Walk.run_pure, List.length_nil, Cursor.after_zero]; rfl⟩

theorem Follows.bind {f : α → Walk β} {F : α × List Token → Except Stuck (β × List Token)}
    (h : Follows stop x ts o)
    (hf : ∀ a r, o = .ok (a, r) → r.length ≤ ts.length → Follows stop (f a) r (F (a, r))) :
    Follows stop (x >>= f) ts (o >>= F) := by
  have hle := h.length_le
  obtain ⟨us, hts, hx⟩ := h
  cases o with
  | error s => exact ⟨us, hts, fun c hc => Walk.run_bind_error (hx c hc)⟩
  | ok p =>
    obtain ⟨vs, hvs, hy⟩ := hf p.1 p.2 rfl hle
    refine ⟨us ++ vs, ?_, fun c hc => ?_⟩
    · rw [hts, List.append_assoc]
      exact congrArg (us ++ ·) hvs
    · have hbefore : (c.after us.length).Before p.2 stop := Cursor.Before.after us (hts ▸ hc)
      rw [Walk.run_bind_ok (hx c hc), hy _ hbefore, Cursor.after_after, List.length_append]
      rfl

theorem Follows.map {f : α → β} (h : Follows stop x ts o) :
    Follows stop (x >>= fun a => pure (f a)) ts (o >>= fun p => .ok (f p.1, p.2)) :=
  h.bind fun a r _ _ => follows_pure (f a) r

theorem Follows.ite {p : Prop} [Decidable p] (hx : p → Follows stop x ts o)
    (hy : ¬ p → Follows stop y ts o') :
    Follows stop (if p then x else y) ts (if p then o else o') := by
  by_cases hp : p
  · rw [if_pos hp, if_pos hp]
    exact hx hp
  · rw [if_neg hp, if_neg hp]
    exact hy hp

/-- A look at the tokens leaves the cursor where it is. -/
theorem Follows.look {l : Walk γ} {v : γ} {f : γ → Walk α}
    (hl : ∀ c : Cursor, c.Before ts stop → l.run c = some (.ok v, c))
    (h : Follows stop (f v) ts o) : Follows stop (l >>= f) ts o := by
  obtain ⟨us, hts, hx⟩ := h
  exact ⟨us, hts, fun c hc => by rw [Walk.run_bind_ok (hl c hc), hx c hc]⟩

theorem Follows.peek {f : Token → Walk α} (h : Follows stop (f (ts.headD stop)) ts o) :
    Follows stop (Walk.peek >>= f) ts o :=
  .look (fun _ => Walk.run_peek) h

theorem Follows.peekNext {f : Token → Walk α} (h : Follows stop (f (ts.tail.headD stop)) ts o) :
    Follows stop (Walk.peekNext >>= f) ts o :=
  .look (fun _ => Walk.run_peekNext) h

theorem Follows.advance {f : Token → Walk α} (h : Follows stop (f t) r o) :
    Follows stop (Walk.advance >>= f) (t :: r) o := by
  obtain ⟨us, hr, hx⟩ := h
  refine ⟨t :: us, congrArg (t :: ·) hr, fun c hc => ?_⟩
  have hbefore : (c.after 1).Before r stop := Cursor.Before.after [t] hc
  rw [Walk.run_bind_ok (Walk.run_advance hc), hx _ hbefore, Cursor.after_after, Nat.add_comm]
  rfl

theorem follows_advance : Follows stop Walk.advance (t :: r) (.ok (t, r)) :=
  ⟨[t], rfl, fun _ hc => Walk.run_advance hc⟩

end Rules

section Ends

variable {o : Except Stuck (α × List Token)} (hstop : stop.kind = .eof)

include hstop

theorem follows_refuse (es : List Expected) (ts : List Token) :
    Follows stop (Walk.refuse es : Walk α) ts (stuck es ts) :=
  ⟨[], rfl, fun c hc => by
    rw [Walk.run_refuse hstop hc, List.length_nil, Cursor.after_zero]
    rfl⟩

theorem follows_expect {k : Kind} (hk : k ≠ .eof) (ts : List Token) :
    Follows stop (Walk.expect k) ts (expect k ts) := by
  apply Follows.peek
  cases ts with
  | nil =>
    rw [List.headD_nil, hstop, if_neg hk.symm]
    exact follows_refuse hstop _ []
  | cons t r => exact .ite (fun _ => follows_advance) fun _ => follows_refuse hstop _ _

/-- A choice between two signs. -/
theorem Follows.either {k l : Kind} (hk : k ≠ .eof) (hl : l ≠ .eof) {x y : Walk α}
    {F : List Token → Except Stuck (α × List Token)} {A B : Token → List Token → _}
    (hnil : F [] = stuck [.kind k, .kind l] [])
    (hcons : ∀ t r, F (t :: r) = if t.kind = k then A t r else if t.kind = l then B t r
      else stuck [.kind k, .kind l] (t :: r))
    (hx : ∀ t r, ts = t :: r → Follows stop x (t :: r) (A t r))
    (hy : ∀ t r, ts = t :: r → Follows stop y (t :: r) (B t r)) :
    Follows stop (Walk.peek >>= fun t => if t.kind = k then x else if t.kind = l then y
      else Walk.refuse [.kind k, .kind l]) ts (F ts) := by
  apply Follows.peek
  cases ts with
  | nil =>
    rw [List.headD_nil, hstop, if_neg hk.symm, if_neg hl.symm, hnil]
    exact follows_refuse hstop _ []
  | cons t r =>
    rw [hcons]
    exact .ite (fun _ => hx t r rfl) fun _ => .ite (fun _ => hy t r rfl) fun _ =>
      follows_refuse hstop _ (t :: r)

/-- What a walk reads, and the semicolon after it. -/
theorem Follows.closed {x : Walk α} {f : α → β} (h : Follows stop x ts o) :
    Follows stop (x >>= fun a => Walk.expect .semicolon >>= fun _ => pure (f a)) ts
      (o >>= fun p => expect .semicolon p.2 >>= fun q => .ok (f p.1, q.2)) :=
  h.bind fun a r _ _ => (follows_expect hstop (by decide) r).map (f := fun _ => f a)

end Ends

end

end MailSieve.Script
