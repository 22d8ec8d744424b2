import Mathlib.Data.Set.Basic
import MailSieve.Proofs.Script.Spelling

/-!
How productions read: what they have consumed when they answer is in their language, or when they are
stuck goes on in it with each token they expect, and whatever follows of what they left was not looked
at, but for the token after a colon.
-/

namespace MailSieve.Script

/-- Tokens left that look the same: the first is the same, and where it is a colon the second too. -/
inductive Alike : List Token → List Token → Prop
  | nil : Alike [] []
  | head : t.kind ≠ .colon → Alike (t :: r) (t :: s)
  | pair : r.head? = s.head? → Alike (t :: r) (t :: s)

theorem Alike.refl (r : List Token) : Alike r r := by
  cases r with
  | nil => exact .nil
  | cons t r => exact .pair rfl

theorem Alike.head? {r s : List Token} (h : Alike r s) : r.head? = s.head? := by
  cases h <;> rfl

theorem Alike.eq_cons {t : Token} {r s : List Token} (h : Alike (t :: r) s) : ∃ s', s = t :: s' := by
  cases h <;> exact ⟨_, rfl⟩

theorem Alike.append {r s : List Token} (h : Alike r s) (us : List Token) :
    Alike (us ++ r) (us ++ s) := by
  cases us with
  | nil => exact h
  | cons u us =>
    have hhead : (us ++ r).head? = (us ++ s).head? := by
      rw [List.head?_append, List.head?_append, h.head?]
    exact .pair hhead

/-- The tokens that an expectation stands for. -/
def Expected.Accepts : Expected → Token → Prop
  | .kind k, t => t.kind = k
  | .word w, t => t.kind = .identifier ∧ t.text = w

/-- A token that meets an expectation. -/
def Expected.token : Expected → Token
  | .kind k => ⟨k, "", 0, 0⟩
  | .word w => ⟨.identifier, w, 0, 0⟩

theorem Expected.accepts_token (e : Expected) : e.Accepts e.token := by
  cases e with
  | kind k => rfl
  | word w => exact ⟨rfl, rfl⟩

/-- The tokens that an answer leaves. -/
def leftover : Except Stuck (α × List Token) → List Token
  | .ok p => p.2
  | .error s => s.rest

/-- The same answer with other tokens left. -/
def leaving (r : List Token) : Except Stuck (α × List Token) → Except Stuck (α × List Token)
  | .ok p => .ok (p.1, r)
  | .error s => .error ⟨s.expected, r⟩

theorem leaving_leftover (o : Except Stuck (α × List Token)) : leaving (leftover o) o = o := by
  cases o <;> rfl

/-- What follows `us` in a language. -/
def after (us : List Token) (L : Set (List Lexeme)) : Set (List Lexeme) :=
  { ls | us.map Token.lexeme ++ ls ∈ L }

/-- The language of a text of one language followed by one of another. -/
def joined (L M : Set (List Lexeme)) : Set (List Lexeme) :=
  { ls | ∃ a ∈ L, ∃ b ∈ M, a ++ b = ls }

theorem joined_nonempty {L M : Set (List Lexeme)} (hL : L.Nonempty) (hM : M.Nonempty) :
    (joined L M).Nonempty :=
  let ⟨a, ha⟩ := hL
  let ⟨b, hb⟩ := hM
  ⟨a ++ b, a, ha, b, hb, rfl⟩

/-- After `us` the language goes on with each of the expectations, and there are some. -/
def Prompts (L : Set (List Lexeme)) (es : List Expected) (us : List Token) : Prop :=
  es ≠ [] ∧ ∀ e ∈ es, ∃ t ls, e.Accepts t ∧ us.map Token.lexeme ++ t.lexeme :: ls ∈ L

/-- What an answer says about the tokens `us` that were read for it. -/
def Tells (L : Set (List Lexeme)) (us : List Token) : Except Stuck (α × List Token) → Prop
  | .ok _ => us.map Token.lexeme ∈ L
  | .error s => Prompts L s.expected us

/-- The answer `o` on `ts` is about a part of it in the language `L`, and `y` answers the same on that
part whatever follows that looks the same. The fuel of `y` may be up to `k` less than the tokens. -/
def Reads (k : Nat) (L : Set (List Lexeme)) (o : Except Stuck (α × List Token))
    (y : Nat → List Token → Except Stuck (α × List Token)) (ts : List Token) : Prop :=
  ∃ us, ts = us ++ leftover o ∧ Tells L us o ∧
    ∀ m r, Alike (leftover o) r → (us ++ r).length < m + k → y m (us ++ r) = leaving r o

variable {k : Nat} {L M : Set (List Lexeme)} {o : Except Stuck (α × List Token)}
  {y z : Nat → List Token → Except Stuck (α × List Token)} {ts r : List Token}

theorem Prompts.mono {es : List Expected} {us : List Token} (h : Prompts L es us)
    (hLM : ∀ ls ∈ L, ∃ s, ls ++ s ∈ M) : Prompts M es us := by
  refine ⟨h.1, fun e he => ?_⟩
  obtain ⟨t, ls, ht, hls⟩ := h.2 e he
  obtain ⟨s, hs⟩ := hLM _ hls
  exact ⟨t, ls ++ s, ht, by simpa using hs⟩

theorem Prompts.append {es : List Expected} {us vs : List Token} (h : Prompts (after us L) es vs) :
    Prompts L es (us ++ vs) := by
  refine ⟨h.1, fun e he => ?_⟩
  obtain ⟨t, ls, ht, hls⟩ := h.2 e he
  exact ⟨t, ls, ht, by simpa [after] using hls⟩

theorem Tells.append {us vs : List Token} (h : Tells (after us L) vs o) : Tells L (us ++ vs) o := by
  cases o with
  | ok p => simpa [Tells, after] using h
  | error s => exact Prompts.append h

theorem prompts_of {es : List Expected} {us : List Token} (hes : es ≠ [])
    (h : ∀ e ∈ es, ∃ ls, us.map Token.lexeme ++ e.token.lexeme :: ls ∈ L) : Prompts L es us :=
  ⟨hes, fun e he => let ⟨ls, hls⟩ := h e he; ⟨e.token, ls, e.accepts_token, hls⟩⟩

/-- An answer about nothing, at the end. -/
theorem Reads.nil (hrest : leftover o = []) (htells : Tells L [] o)
    (hy : ∀ m, y m [] = o) : Reads k L o y [] := by
  refine ⟨[], hrest.symm, htells, fun m r hr _ => ?_⟩
  rw [hrest] at hr
  cases hr
  rw [List.nil_append, hy, ← hrest, leaving_leftover]

/-- An answer about nothing, at a token. -/
theorem Reads.here {t : Token} (hrest : leftover o = t :: ts) (htells : Tells L [] o)
    (hy : ∀ m r, y m (t :: r) = leaving (t :: r) o) : Reads k L o y (t :: ts) := by
  refine ⟨[], hrest.symm, htells, fun m r hr _ => ?_⟩
  rw [hrest] at hr
  obtain ⟨r, rfl⟩ := hr.eq_cons
  exact hy m r

theorem Reads.pure {a : α} (h : [] ∈ L) : Reads k L (.ok (a, ts)) (fun _ r => .ok (a, r)) ts :=
  ⟨[], rfl, h, fun _ _ _ _ => rfl⟩

/-- Reading on after tokens that were looked at already. -/
theorem Reads.prepend (us : List Token) (h : Reads (k - us.length) (after us L) o z r)
    (hy : ∀ m r, y m (us ++ r) = z m r) : Reads k L o y (us ++ r) := by
  obtain ⟨vs, hr, ho, hz⟩ := h
  refine ⟨us ++ vs, by rw [List.append_assoc, ← hr], ho.append, fun m s hs hm => ?_⟩
  rw [List.append_assoc, hy]
  refine hz m s hs ?_
  rw [List.append_assoc, List.length_append] at hm
  omega

theorem Reads.mono (h : Reads k M o y ts) (hML : M ⊆ L) : Reads k L o y ts := by
  obtain ⟨us, hr, ho, hy⟩ := h
  refine ⟨us, hr, ?_, hy⟩
  cases o with
  | ok p => exact hML ho
  | error s => exact Prompts.mono ho fun ls hls => ⟨[], by simpa using hML hls⟩

/-- Reading on after a token that was looked at already. -/
theorem Reads.cons {t : Token} {l : Lexeme} (hl : t.lexeme = l) (h : Reads (k - 1) M o z ts)
    (hML : ∀ ls ∈ M, l :: ls ∈ L) (hy : ∀ m r, y m (t :: r) = z m r) : Reads k L o y (t :: ts) := by
  subst hl
  exact Reads.prepend [t] (h.mono hML) hy

/-- Reading one token and no more. -/
theorem Reads.token {t : Token} {l : Lexeme} {a : α} (hl : t.lexeme = l) (h : [l] ∈ L)
    (hy : ∀ m r, y m (t :: r) = .ok (a, r)) : Reads k L (.ok (a, ts)) y (t :: ts) :=
  .cons (M := {[]}) hl (.pure rfl) (fun _ hls => hls ▸ h) hy

/-- A reader may be known at the first token only. -/
theorem Reads.congr {t : Token} (h : Reads k L o z (t :: ts))
    (hy : ∀ m r, y m (t :: r) = z m (t :: r)) : Reads k L o y (t :: ts) := by
  obtain ⟨us, hts, ho, hz⟩ := h
  refine ⟨us, hts, ho, fun m r hr hm => ?_⟩
  rw [← hz m r hr hm]
  cases us with
  | nil =>
    rw [List.nil_append] at hts
    obtain ⟨r, rfl⟩ := (hts ▸ hr).eq_cons
    exact hy m r
  | cons u us =>
    cases hts
    exact hy m (us ++ r)

/-- The fuel counts from the first step on. -/
theorem Reads.step (h : Reads 1 L o (fun m => y (m + 1)) ts) : Reads 0 L o y ts := by
  obtain ⟨us, hr, ho, hy⟩ := h
  refine ⟨us, hr, ho, fun m r hs hm => ?_⟩
  cases m with
  | zero => omega
  | succ m => exact hy m r hs hm

/-- A reader that is given fuel enough needs none. -/
theorem Reads.fueled (h : Reads 0 L o y ts) :
    Reads k L o (fun _ ts => y (ts.length + 1) ts) ts := by
  obtain ⟨us, hr, ho, hy⟩ := h
  exact ⟨us, hr, ho, fun m r hs _ => hy _ r hs (Nat.lt_succ_self _)⟩

/-- A reader goes on with what another left. -/
theorem Reads.seq {N : Set (List Lexeme)} {F : α × List Token → Except Stuck (β × List Token)}
    {G : Nat → α × List Token → Except Stuck (β × List Token)} (h : Reads k L o y ts)
    (hN : N.Nonempty) (hF : ∀ a us r, ts = us ++ r → us.map Token.lexeme ∈ L →
      Reads (k - us.length) N (F (a, r)) (fun m r => G m (a, r)) r) :
    Reads k (joined L N) (o >>= F) (fun m ts => y m ts >>= G m) ts := by
  obtain ⟨us, hts, ho, hy⟩ := h
  cases o with
  | error e =>
    have hprompts : Prompts (joined L N) e.expected us := by
      obtain ⟨s, hs⟩ := hN
      exact Prompts.mono ho fun ls hls => ⟨s, ls, hls, s, hs, rfl⟩
    refine ⟨us, hts, hprompts, fun m s hs hm => ?_⟩
    change y m (us ++ s) >>= G m = _
    rw [hy m s hs hm]
    rfl
  | ok p =>
    obtain ⟨a, r⟩ := p
    have hread : Reads (k - us.length) (after us (joined L N)) (F (a, r)) (fun m r => G m (a, r)) r :=
      (hF a us r hts ho).mono fun ls hls => ⟨_, ho, ls, hls, rfl⟩
    obtain ⟨vs, hr, hp, hG⟩ := hread
    change ts = us ++ r at hts
    change Reads k (joined L N) (F (a, r)) _ ts
    refine ⟨us ++ vs, by rw [List.append_assoc, ← hr, hts], hp.append, fun m s hs hm => ?_⟩
    have hlook : Alike r (vs ++ s) := by
      rw [hr]
      exact hs.append vs
    rw [List.append_assoc] at hm ⊢
    change y m (us ++ (vs ++ s)) >>= G m = _
    rw [hy m (vs ++ s) hlook hm]
    refine hG m s hs ?_
    rw [List.length_append] at hm
    omega

theorem Reads.map (f : α → β) (h : Reads k L o y ts) :
    Reads k L (o >>= fun p => .ok (f p.1, p.2))
      (fun m ts => y m ts >>= fun p => .ok (f p.1, p.2)) ts := by
  refine Reads.mono (M := joined L {[]}) (h.seq (F := fun p => .ok (f p.1, p.2))
    (G := fun _ p => .ok (f p.1, p.2)) ⟨[], rfl⟩ fun a _ _ _ _ => .pure (a := f a) rfl) ?_
  rintro _ ⟨ls, hls, _, rfl, rfl⟩
  rwa [List.append_nil]

end MailSieve.Script
