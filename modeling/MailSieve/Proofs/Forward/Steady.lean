import MailSieve.Proofs.Forward.Play

/-!
Invariants of passes: what each call to a mailbox and each save upholds, a pass upholds, whatever the
answers are, wherever it fails and wherever it is killed.
-/

namespace MailSieve.Forward

open Files Dialogue

variable {R : Responds σ} {inv : σ → Prop} {l : Ledger} {s : σ}

/-- A pass ends with `post` if it succeeds, and with `fail` if it does not; `inv` holds all along. -/
def Upholds (R : Responds σ) (inv : σ → Prop) (post : α → Ledger → σ → Prop) (fail : Ledger → σ → Prop)
    (x : Pass Dialogue α) (l : Ledger) (s : σ) : Prop :=
  Survives R inv (fun r t =>
    match r.1 with
    | .ok a => post a r.2 t
    | .error _ => fail r.2 t) (x.run.run l) s

/-- The end of a call, with the ledger that it does not change. -/
def After (post : α → σ → Prop) (fail : σ → Prop) : Except Failure α → σ → Prop
  | .ok a, t => post a t
  | .error _, t => fail t

/-- One call after another, with no more of the ledger than each of them has. -/
theorem Survives.call_bind {P : α → σ → Prop} {post : β → σ → Prop} {fail : σ → Prop}
    {x : ExceptT Failure Dialogue α} {f : α → ExceptT Failure Dialogue β}
    (h : Survives R inv (After P fail) x.run s)
    (hf : ∀ a t, P a t → Survives R inv (After post fail) (f a).run t) :
    Survives R inv (After post fail) (x >>= f).run s := by
  refine Survives.bind h ?_
  rintro (e | a) t hinv ht
  · exact ⟨hinv, ht⟩
  · exact hf a t ht

/-- The end of a call, whether or not it succeeded. -/
theorem Survives.after {post : σ → Prop} {p : Dialogue (Except Failure α)}
    (h : Survives R inv (fun _ => post) p s) : Survives R inv (After (fun _ => post) post) p s := by
  refine h.mono fun r t ht => ?_
  cases r with
  | ok a => exact ht
  | error e => exact ht

theorem Upholds.pure {post : α → Ledger → σ → Prop} {fail : Ledger → σ → Prop} {a : α} (hinv : inv s)
    (h : post a l s) : Upholds R inv post fail (Pure.pure a) l s := ⟨hinv, h⟩

theorem Upholds.bind {P : α → Ledger → σ → Prop} {post : β → Ledger → σ → Prop}
    {fail : Ledger → σ → Prop} {x : Pass Dialogue α} {f : α → Pass Dialogue β}
    (h : Upholds R inv P fail x l s) (hf : ∀ a l t, P a l t → Upholds R inv post fail (f a) l t) :
    Upholds R inv post fail (x >>= f) l s := by
  refine Survives.bind h ?_
  rintro ⟨_ | a, l⟩ t hinv ht
  · exact ⟨hinv, ht⟩
  · exact hf a l t ht

theorem upholds_call {post : α → Ledger → σ → Prop} {fail : Ledger → σ → Prop}
    {x : ExceptT Failure Dialogue α}
    (h : Survives R inv (After (fun a => post a l) (fail l)) x.run s) :
    Upholds R inv post fail (call x) l s := by
  refine Survives.bind h ?_
  rintro (_ | a) t hinv ht
  · exact ⟨hinv, ht⟩
  · exact ⟨hinv, ht⟩

/-- What holds between two messages, `idle`, is upheld by the calls for one message: it is entered into the
ledger, its date and content are asked for, and it is copied or discarded, then marked. All along, `inv`
holds. -/
structure Steady (R : Responds σ) (inv : σ → Prop) (source destination : Mailbox Dialogue)
    (idle : Ledger → σ → Prop) (entered : String → Ledger → σ → Prop)
    (fetched : String → Bytes → Ledger → σ → Prop) : Prop where
  holds : ∀ l s, idle l s → inv s
  discard : ∀ id message l s, fetched id message l s → idle l s
  logs : ∀ line s a t, R (.log line) s a t → (∀ l, idle l s → idle l t) ∧
    ∀ l id message, fetched id message l s → fetched id message l t
  unseen : ∀ l s, idle l s → Survives R inv (fun _ => idle l) source.unseen.run s
  save : ∀ id l s, id ∉ l → idle l s →
    Survives R inv (After (fun _ => entered id (l.insert id)) (idle (l.insert id))) (l.insert id).save.run s
  received : ∀ id l s, entered id l s →
    Survives R inv (After (fun _ => entered id l) (idle l)) (source.received id).run s
  fetch : ∀ id l s, entered id l s →
    Survives R inv (After (fun message => fetched id message l) (idle l)) (source.fetch id).run s
  append : ∀ id d l s, fetched id d.message l s →
    Survives R inv (fun _ => idle l) (destination.append d).run s
  markSeen : ∀ id l s, idle l s → Survives R inv (fun _ => idle l) (source.markSeen id).run s

/-- A line for the log, which leaves `post` as it is. -/
theorem upholds_log {post fail : Ledger → σ → Prop} {line : Log.Line} (hinv : ∀ t, post l t → inv t)
    (hlog : ∀ a t, R (.log line) s a t → post l t) (h : post l s) :
    Upholds R inv (fun _ => post) fail (call (log line)) l s :=
  ⟨hinv s h, fun a t hR => ⟨hinv t (hlog a t hR), hlog a t hR⟩⟩

theorem upholds_logs {post fail : Ledger → σ → Prop} (hinv : ∀ l t, post l t → inv t)
    (hlog : ∀ line l s a t, R (.log line) s a t → post l s → post l t) (lines : List Log.Line)
    (h : post l s) :
    Upholds R inv (fun _ => post) fail (forIn lines () fun line _ => do
      call (log line)
      Pure.pure (ForInStep.yield ())) l s := by
  induction lines generalizing l s with
  | nil => exact .pure (hinv l s h) h
  | cons line lines ih =>
    rw [List.forIn_cons]
    apply Upholds.bind (P := fun r m t => r = .yield () ∧ post m t)
    · apply Upholds.bind (P := fun _ => post)
      · exact upholds_log (hinv l) (fun a t hR => hlog line l s a t hR h) h
      · exact fun _ l t h => .pure (hinv l t h) ⟨rfl, h⟩
    · rintro _ l s ⟨rfl, h⟩
      exact ih h

section

variable (source destination : Mailbox Dialogue)

/-- Passes in turn on one ledger in memory, each with its own filter, whether or not they succeed. -/
def sharing : List (Option Script.Program) → Ledger → Dialogue (List (Except Failure Stats))
  | [], _ => pure []
  | filter :: filters, l => do
    let (r, l) ← (forwardUnseen source destination filter).run.run l
    let rs ← sharing filters l
    pure (r :: rs)

/-- One pass on the ledger that it loads. -/
def loadingPass (path : Path) (filter : Option Script.Program) : Dialogue (Except Failure Stats) := do
  match ← (Ledger.load path).run with
  | .ok l =>
    let (r, _) ← (forwardUnseen source destination filter).run.run l
    pure r
  | .error f => pure (.error f)

/-- Passes in turn, each on the ledger that it loads, whether or not they succeed. -/
def reloading (path : Path) : List (Option Script.Program) → Dialogue (List (Except Failure Stats))
  | [] => pure []
  | filter :: filters => do
    let r ← loadingPass source destination path filter
    let rs ← reloading path filters
    pure (r :: rs)

end

namespace Steady

variable {source destination : Mailbox Dialogue} {idle : Ledger → σ → Prop}
  {entered : String → Ledger → σ → Prop} {fetched : String → Bytes → Ledger → σ → Prop}
  (hs : Steady R inv source destination idle entered fetched)
include hs

theorem upholds_note {line : Log.Line} (h : idle l s) :
    Upholds R inv (fun _ => idle) idle (call (log line)) l s :=
  upholds_log (hs.holds l) (fun a t hR => (hs.logs line s a t hR).1 l h) h

theorem upholds_deliver (filter : Option Script.Program) {id : String} (h : entered id l s) :
    Upholds R inv (fun _ => idle) idle (deliver source destination filter id) l s := by
  unfold deliver
  apply Upholds.bind (P := fun _ => entered id)
  · exact upholds_call (hs.received id l s h)
  intro date l s h
  apply Upholds.bind (P := fetched id)
  · exact upholds_call (hs.fetch id l s h)
  intro message l s h
  have hinv (l : Ledger) (t : σ) (h : fetched id message l t) : inv t :=
    hs.holds l t (hs.discard id message l t h)
  have hlog (line : Log.Line) (l : Ledger) (s : σ) (a : Unit) (t : σ) (hR : R (.log line) s a t) :
      fetched id message l s → fetched id message l t := (hs.logs line s a t hR).2 l id message
  apply Upholds.bind (P := fun _ => fetched id message)
  · exact upholds_logs hinv hlog _ h
  intro _ l s h
  dsimp only
  split
  · apply Upholds.bind (P := fun _ => fetched id message)
    · exact upholds_log (hinv l) (fun a t hR => hlog _ l s a t hR h) h
    intro _ l s h
    apply Upholds.bind (P := fun _ => idle)
    · exact upholds_call (hs.append id _ l s h).after
    exact fun _ l s h => .pure (hs.holds l s h) h
  · apply Upholds.bind (P := fun _ => idle)
    · exact hs.upholds_note (hs.discard id message l s h)
    exact fun _ l s h => .pure (hs.holds l s h) h

theorem upholds_enter {id : String} (hid : id ∉ l) (h : idle l s) :
    Upholds R inv (fun _ => entered id) idle (enter id) l s := by
  change Survives R inv _ ((l.insert id).save.run >>= fun r => .done (r, l.insert id)) s
  refine Survives.bind (hs.save id l s hid h) ?_
  rintro (_ | a) t hinv ht
  · exact ⟨hinv, ht⟩
  · exact ⟨hinv, ht⟩

theorem upholds_handle (filter : Option Script.Program) (id : String) (h : idle l s) :
    Upholds R inv (fun _ => idle) idle (handle source destination filter id) l s := by
  unfold handle
  apply Upholds.bind (P := fun m l s => m = l ∧ idle l s)
  · exact ⟨hs.holds l s h, rfl, h⟩
  rintro _ l s ⟨rfl, h⟩
  split
  · apply Upholds.bind (P := fun _ => idle)
    · exact hs.upholds_note h
    exact fun _ l s h => .pure (hs.holds l s h) h
  · next hid =>
    apply Upholds.bind (hs.upholds_enter hid h)
    intro _ l s h
    apply Upholds.bind (hs.upholds_deliver filter h)
    intro outcome l s h
    apply Upholds.bind (P := fun _ => idle)
    · exact upholds_call (hs.markSeen id l s h).after
    exact fun _ l s h => .pure (hs.holds l s h) h

theorem upholds_handleAll (filter : Option Script.Program) (stats : Stats) (ids : List String)
    (h : idle l s) :
    Upholds R inv (fun _ => idle) idle (handleAll source destination filter stats ids) l s := by
  induction ids generalizing stats l s with
  | nil => exact .pure (hs.holds l s h) h
  | cons id ids ih =>
    rw [handleAll]
    apply Upholds.bind (hs.upholds_handle filter id h)
    exact fun outcome l s h => ih _ h

/-- A pass upholds what holds between two messages. -/
theorem upholds_forwardUnseen (filter : Option Script.Program) (h : idle l s) :
    Upholds R inv (fun _ => idle) idle (forwardUnseen source destination filter) l s := by
  unfold forwardUnseen
  apply Upholds.bind (P := fun _ => idle)
  · exact upholds_call (hs.unseen l s h).after
  intro ids l s h
  apply Upholds.bind (P := fun _ => idle)
  · exact hs.upholds_note h
  exact fun _ l s h => hs.upholds_handleAll filter .zero ids h

/-- Passes on one ledger uphold it too. -/
theorem survives_sharing (filters : List (Option Script.Program)) (h : idle l s) :
    Survives R inv (fun _ t => ∃ l, idle l t) (sharing source destination filters l) s := by
  induction filters generalizing l s with
  | nil => exact ⟨hs.holds l s h, l, h⟩
  | cons filter filters ih =>
    rw [sharing]
    refine Survives.bind (P := fun r => idle r.2) ?_ ?_
    · refine (hs.upholds_forwardUnseen filter h).mono ?_
      rintro ⟨_ | stats, l⟩ t ht
      · exact ht
      · exact ht
    · exact fun r t _ ht => Survives.bind (ih ht) fun rs u hinv hu => ⟨hinv, hu⟩

/-- Of passes that each load their ledger, what each of them starts from is upheld. -/
theorem survives_reloading {P : σ → Prop} {path : Path} (hidle : ∀ l s, idle l s → P s)
    (hload : ∀ s, P s → Survives R inv (After idle P) (Ledger.load path).run s)
    (filters : List (Option Script.Program)) (hinv : inv s) (h : P s) :
    Survives R inv (fun _ => P) (reloading source destination path filters) s := by
  induction filters generalizing s with
  | nil => exact ⟨hinv, h⟩
  | cons filter filters ih =>
    rw [reloading]
    refine Survives.bind (P := fun _ => P) ?_ fun r t hinv ht =>
      Survives.bind (ih hinv ht) fun rs u hinv hu => ⟨hinv, hu⟩
    refine Survives.bind (hload s h) ?_
    rintro (f | l) t hinv ht
    · exact ⟨hinv, ht⟩
    · refine Survives.bind (hs.upholds_forwardUnseen filter ht) ?_
      rintro ⟨_ | stats, l⟩ u hinv hu
      · exact ⟨hinv, hidle l u hu⟩
      · exact ⟨hinv, hidle l u hu⟩

end Steady

end MailSieve.Forward
