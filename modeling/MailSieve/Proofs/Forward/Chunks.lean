import MailSieve.Proofs.Forward.Progress

/-!
Passes over one listing, and over its parts in turn: nothing but the ledger and the host goes from one
message to the next.
-/

namespace MailSieve.Forward

open Files Dialogue

instance : Add Stats where
  add s t := ⟨s.forwarded + t.forwarded, s.discarded + t.discarded, s.duplicates + t.duplicates⟩

theorem Stats.add_zero (s : Stats) : s + Stats.zero = s := rfl

/-- An outcome counts the same, whatever was counted before. -/
theorem Stats.add_add (s t : Stats) (o : Outcome) : (s + t).add o = s + t.add o := by
  cases o <;> rfl

section

variable {m : Type → Type} [Monad m] [LawfulMonad m] [Logger m] [Files m]
  (source destination : Mailbox m) (filter : Option Script.Program)

theorem handleAll_append (stats : Stats) (xs ys : List String) :
    handleAll source destination filter stats (xs ++ ys) =
      handleAll source destination filter stats xs >>= fun stats =>
        handleAll source destination filter stats ys := by
  induction xs generalizing stats with
  | nil => rw [List.nil_append, handleAll, pure_bind]
  | cons id xs ih => simp only [List.cons_append, handleAll, ih, bind_assoc]

/-- The numbers that a pass starts from are added to its own. -/
theorem handleAll_add (s t : Stats) (ids : List String) :
    handleAll source destination filter (s + t) ids =
      (s + ·) <$> handleAll source destination filter t ids := by
  induction ids generalizing t with
  | nil => rw [handleAll, handleAll, map_pure]
  | cons id ids ih => simp only [handleAll, map_bind, Stats.add_add, ih]

end

/-- The host, but its source lists these as unseen, which changes nothing. The log is no part of it. -/
def Responds.listing (R : Responds σ) (ids : List String) : Responds σ
  | .mail .source .unseen, s, a, t => a = .ok ids ∧ t = s
  | .log _, s, _, t => t = s
  | e, s, a, t => R e s a t

variable {R : Responds σ} {filter : Option Script.Program} {l l' : Ledger} {s t : σ} {τ : List Reply}
  {ids : List String} {stats : Stats} {r : Except Failure Stats}

/-- What is listed makes no difference to any other effect. -/
theorem Responds.listing_iff {e : Effect} (he : e ≠ .mail .source .unseen) (a : e.Answer)
    (xs ys : List String) : R.listing xs e s a t ↔ R.listing ys e s a t := by
  cases e with
  | mail side c =>
    cases side with
    | source =>
      cases c with
      | unseen => exact absurd rfl he
      | _ => exact Iff.rfl
    | destination => exact Iff.rfl
  | _ => exact Iff.rfl

/-- The listing is asked for once. -/
theorem ne_unseen_of_played_handleAll
    (h : Played R ((handleAll (mailbox .source) (mailbox .destination) filter stats ids).run.run l) s τ
      (r, l') t) : ∀ q ∈ τ, q.effect ≠ .mail .source .unseen := by
  obtain ⟨o, ho, -⟩ := (performs_handleAll stats ids r).1 h.says
  refine forall_mem_of_filter (fun line a he => nomatch he) fun q hq => ?_
  obtain ⟨i, -, -, hserves⟩ := ho.serves hq
  exact hserves.ne_unseen

theorem played_handleAll_listing (xs ys : List String) :
    Played (R.listing xs)
        ((handleAll (mailbox .source) (mailbox .destination) filter stats ids).run.run l) s τ (r, l') t ↔
      Played (R.listing ys)
        ((handleAll (mailbox .source) (mailbox .destination) filter stats ids).run.run l) s τ (r, l') t := by
  have hcongr (xs ys : List String) (h : Played (R.listing xs)
      ((handleAll (mailbox .source) (mailbox .destination) filter stats ids).run.run l) s τ (r, l') t) :
      Played (R.listing ys)
        ((handleAll (mailbox .source) (mailbox .destination) filter stats ids).run.run l) s τ (r, l') t :=
    h.congr fun q hq _ _ =>
      (Responds.listing_iff (ne_unseen_of_played_handleAll h q hq) q.answer xs ys).1
  exact ⟨hcongr xs ys, hcongr ys xs⟩

theorem played_forwardUnseen_listing :
    Played (R.listing ids)
        ((forwardUnseen (mailbox .source) (mailbox .destination) filter).run.run l) s τ (r, l') t ↔
      ∃ ρ, τ = opening ids ++ ρ ∧ Played (R.listing ids)
        ((handleAll (mailbox .source) (mailbox .destination) filter .zero ids).run.run l) s ρ (r, l') t := by
  rw [played_forwardUnseen]
  constructor
  · rintro (⟨f, ⟨⟨⟩, -⟩, -⟩ | ⟨_, _, _, ρ, ⟨⟨⟩, rfl⟩, rfl, rfl, h⟩)
    exact ⟨ρ, rfl, h⟩
  · rintro ⟨ρ, rfl, h⟩
    exact .inr ⟨ids, s, s, ρ, ⟨rfl, rfl⟩, rfl, rfl, h⟩

/-- A pass over messages that are listed at once asks for the same, up to the number that it finds, and
leaves the same ledger and host, as one pass over some of them and, if that succeeds, another over the rest.
The numbers of the two are added up. -/
theorem forwardUnseen_append (R : Responds σ) (filter : Option Script.Program) (xs ys : List String)
    (l : Ledger) (s : σ) (τ : List Reply) (r : Except Failure Stats) (l' : Ledger) (t : σ) :
    Played (R.listing (xs ++ ys))
        ((forwardUnseen (mailbox .source) (mailbox .destination) filter).run.run l) s τ (r, l') t ↔
      ∃ κ, τ = opening (xs ++ ys) ++ κ ∧
        ((∃ f, r = .error f ∧ Played (R.listing xs)
            ((forwardUnseen (mailbox .source) (mailbox .destination) filter).run.run l) s
            (opening xs ++ κ) (.error f, l') t) ∨
          ∃ stats m u σ ρ r', Played (R.listing xs)
            ((forwardUnseen (mailbox .source) (mailbox .destination) filter).run.run l) s
            (opening xs ++ σ) (.ok stats, m) u ∧
          Played (R.listing ys)
            ((forwardUnseen (mailbox .source) (mailbox .destination) filter).run.run m) u
            (opening ys ++ ρ) (r', l') t ∧
          κ = σ ++ ρ ∧ r = r'.map (stats + ·)) := by
  have hsum (stats : Stats) := handleAll_add (mailbox .source) (mailbox .destination) filter stats .zero ys
  simp only [played_forwardUnseen_listing, handleAll_append, played_pass_bind, List.append_cancel_left_eq,
    exists_eq_left', played_handleAll_listing (xs ++ ys) xs]
  -- the second part starts from the numbers of the first, a pass of its own from nothing
  constructor
  · rintro ⟨κ, rfl, ⟨f, h, rfl⟩ | ⟨stats, m, u, σ, ρ, hxs, hys, rfl⟩⟩
    · exact ⟨κ, rfl, .inl ⟨f, rfl, h⟩⟩
    · rw [played_handleAll_listing xs ys, ← Stats.add_zero stats, hsum stats, played_pass_map] at hys
      obtain ⟨r', hys, rfl⟩ := hys
      exact ⟨_, rfl, .inr ⟨stats, m, u, σ, ρ, r', hxs, hys, rfl, rfl⟩⟩
  · rintro ⟨κ, rfl, ⟨f, rfl, h⟩ | ⟨stats, m, u, σ, ρ, r', hxs, hys, rfl, rfl⟩⟩
    · exact ⟨κ, rfl, .inl ⟨f, h, rfl⟩⟩
    · refine ⟨_, rfl, .inr ⟨stats, m, u, σ, ρ, hxs, ?_, rfl⟩⟩
      rw [played_handleAll_listing xs ys, ← Stats.add_zero stats, hsum stats, played_pass_map]
      exact ⟨r', hys, rfl⟩

end MailSieve.Forward
