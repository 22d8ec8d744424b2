import Mathlib
import MailSieve.Proofs.Forward.Recording
import MailSieve.Proofs.Forward.Steady
import MailSieve.Proofs.Ledger.Storage

/-!
Passes that each load the ledger from its file do what passes on one ledger in memory do, as long as it can
be saved.
-/

namespace MailSieve.Forward

open Files Dialogue

/-- An action on the files of a host carried out there; what else there is stays. -/
def CarriesOut (x : StateM Host α) (s : Host × ε) (a : α) (t : Host × ε) : Prop :=
  x.run s.1 = (a, t.1) ∧ t.2 = s.2

/-- How mailboxes may answer a call, and what becomes of the host and of what else there is. -/
abbrev MailResponds (ε : Type) : Type :=
  (side : Side) → (c : Mailbox.Call) → Host × ε → Except Failure (Result c) → Host × ε → Prop

/-- A host that carries out what is asked of its files, with mailboxes. -/
def HostResponds (mail : MailResponds ε) : Responds (Host × ε)
  | .isThere p, s, a, t => CarriesOut (Files.isThere p) s a t
  | .read p, s, a, t => CarriesOut (Files.read p) s a t
  | .write p content, s, a, t => CarriesOut (Files.write p content) s a t
  | .rename p q, s, a, t => CarriesOut (Files.rename p q) s a t
  | .makeDirectory p, s, a, t => CarriesOut (Files.makeDirectory p) s a t
  | .list p, s, a, t => CarriesOut (Files.list p) s a t
  | .modified p, s, a, t => CarriesOut (Files.modified p) s a t
  | .setModified p d, s, a, t => CarriesOut (Files.setModified p d) s a t
  | .freshName size, s, a, t => CarriesOut (Files.freshName size) s a t
  | .log l, s, a, t => CarriesOut (log l) s a t
  | .mail side c, s, a, t => mail side c s a t

/-- Calls to mailboxes leave a tree, and the file at the path as it is. -/
def Spares (path : Path) (mail : MailResponds ε) : Prop :=
  ∀ side c s a t, mail side c s a t → s.1.disk.IsTree →
    t.1.disk.IsTree ∧ t.1.disk.find t.1.working path = s.1.disk.find s.1.working path

/-- Whether a reply is that of a mailbox. -/
def Reply.isMail : Reply → Bool
  | ⟨.mail _ _, _⟩ => true
  | _ => false

/-- Whether a reply is the refusal of a step of a save. -/
def Reply.refusesSave : Reply → Bool
  | ⟨.write _ _, .error _⟩ => true
  | ⟨.rename _ _, .error _⟩ => true
  | _ => false

variable {mail : MailResponds ε} {l : Ledger} {s t : Host × ε} {τ μ : List Reply} {path : Path}

/-- The ledger in memory is the one that its file gives. -/
def Stored (path : Path) (l : Ledger) (s : Host × ε) : Prop :=
  s.1.disk.IsTree ∧ s.1.perform (Ledger.load path) = (.ok l, s.1)

/-- A host where every step of a save succeeds. -/
def Saving (mail : MailResponds ε) : Responds (Host × ε) :=
  fun e s a t => HostResponds mail e s a t ∧ Reply.refusesSave ⟨e, a⟩ = false

theorem Stored.of_find (h : Stored path l s) (hd : t.1.disk.IsTree)
    (hfind : t.1.disk.find t.1.working path = s.1.disk.find s.1.working path) : Stored path l t :=
  ⟨hd, Ledger.load_of_find (fun x => by rw [hfind]) h.2⟩

theorem Stored.path_eq (h : Stored path l s) : l.path = path :=
  (Ledger.load_eq_ok.1 h.2).2.1

theorem Stored.log (h : Stored path l s) {line : Log.Line} {a : Unit}
    (hR : Saving mail (.log line) s a t) : Stored path l t := by
  obtain ⟨⟨hrun, -⟩, -⟩ := hR
  have ht : t.1 = { s.1 with lines := s.1.lines ++ [line] } := (Prod.mk.inj hrun).2.symm
  exact h.of_find (by rw [ht]; exact h.1) (by rw [ht])

/-- A save puts in place the file that gives the ledger. -/
theorem Stored.save (h : Stored path l s) (id : String) :
    Ensures (Saving mail) (After (fun _ => Stored path (l.insert id)) (Stored path (l.insert id)))
      (l.insert id).save.run s := by
  refine .ask ?_
  rintro (r | _) u ⟨⟨hwrite, -⟩, hw⟩
  · cases hw
  refine .ask ?_
  rintro (r | _) v ⟨⟨hrename, -⟩, hr⟩
  · cases hr
  have hsave : s.1.perform (l.insert id).save = (.ok (), v.1) := by
    refine Host.perform_bind_eq_ok.2 ⟨(), u.1, ?_, ?_⟩
    · rw [Host.perform_attempt, hwrite]
      rfl
    · rw [Host.perform_attempt, hrename]
      rfl
  have hsaved := Ledger.saved h.1 hsave
  have hload := hsaved.load
  rw [show (l.insert id).path = path from h.path_eq] at hload
  exact .done ⟨hsaved.isTree, hload⟩

theorem Stored.call (hspares : Spares path mail) (h : Stored path l s) (side : Side) (c : Mailbox.Call) :
    Ensures (Saving mail) (fun _ => Stored path l) (.ask (.mail side c) .done) s := by
  refine .ask fun a t hR => .done ?_
  obtain ⟨hd, hfind⟩ := hspares side c s a t hR.1 h.1
  exact h.of_find hd hfind

theorem steady_stored (hspares : Spares path mail) :
    Steady (Saving mail) (fun _ => True) (mailbox .source) (mailbox .destination) (Stored path)
      (fun _ => Stored path) (fun _ _ => Stored path) where
  holds _ _ _ := trivial
  discard _ _ _ _ h := h
  logs _ _ _ _ hR := ⟨fun _ h => h.log hR, fun _ _ _ h => h.log hR⟩
  unseen _ _ h := h.call hspares .source .unseen
  save id _ _ _ h := h.save id
  received id _ _ h := (h.call hspares .source (.received id)).after
  fetch id _ _ h := (h.call hspares .source (.fetch id)).after
  append _ d _ _ h := h.call hspares .destination (.append d)
  markSeen id _ _ h := h.call hspares .source (.markSeen id)

theorem CarriesOut.of_run {x : StateM Host α} {a : α} {h : Host} (hrun : x.run s.1 = (a, h)) :
    CarriesOut x s a (h, s.2) := ⟨hrun, rfl⟩

theorem carriesOut_of_run {x : StateM Host α} {a b : α} (h : x.run s.1 = (b, s.1)) :
    CarriesOut x s a t ↔ a = b ∧ t = s := by
  rw [CarriesOut, h]
  constructor
  · rintro ⟨hrun, h₂⟩
    obtain ⟨rfl, h₁⟩ := Prod.mk.inj hrun
    exact ⟨rfl, Prod.ext h₁.symm h₂⟩
  · rintro ⟨rfl, rfl⟩
    exact ⟨rfl, rfl⟩

/-- An effect with one answer, that leaves the state as it is. -/
theorem played_query {R : Responds σ} {u v : σ} {e : Effect} {k : e.Answer → Dialogue α}
    {a : e.Answer} {b : α} (h : ∀ a' u', R e u a' u' ↔ a' = a ∧ u' = u) :
    Played R (.ask e k) u τ b v ↔ ∃ ρ, τ = ⟨e, a⟩ :: ρ ∧ Played R (k a) u ρ b v := by
  constructor
  · rintro ⟨a', u', ρ, hR, rfl, hp⟩
    obtain ⟨rfl, rfl⟩ := (h a' u').1 hR
    exact ⟨ρ, rfl, hp⟩
  · rintro ⟨ρ, rfl, hp⟩
    exact ⟨a, u, ρ, (h a u).2 ⟨rfl, rfl⟩, rfl, hp⟩

/-- Loading the ledger that its file gives leaves the host as it is. -/
theorem played_load (mail : MailResponds ε) (h : Stored path l s) :
    ∃ σ : List Reply, σ.filter Reply.isMail = [] ∧
    ∀ τ r t, Played (Saving mail) (Ledger.load path).run s τ r t ↔ τ = σ ∧ r = .ok l ∧ t = s := by
  obtain ⟨-, hpath, hids⟩ := Ledger.load_eq_ok.1 h.2
  have hthere (a : Bool) (u : Host × ε) : Saving mail (.isThere path) s a u ↔
      a = (s.1.disk.find s.1.working path).toOption.isSome ∧ u = s :=
    (and_iff_left rfl).trans (carriesOut_of_run rfl)
  have hread (a : Except Refusal Bytes) (u : Host × ε) : Saving mail (.read path) s a u ↔
      a = s.1.disk.read s.1.working path ∧ u = s :=
    (and_iff_left rfl).trans (carriesOut_of_run rfl)
  rw [load_eq_ask]
  split at hids
  · next hfound =>
    obtain ⟨bytes, text, hbytes, htext, hids⟩ := hids
    have hloaded : loaded path (.ok bytes) = .ok l := by
      simp only [loaded, htext, hids]
      rw [← hpath]
    rw [hfound] at hthere
    rw [hbytes] at hread
    refine ⟨[⟨.isThere path, true⟩, ⟨.read path, .ok bytes⟩], rfl, fun τ r t => ?_⟩
    have hrest (ρ : List Reply) := played_query (e := .read path) (τ := ρ) (b := r) (v := t)
      (k := fun r => .done (loaded path r)) hread
    refine (played_query (e := .isThere path) hthere).trans ?_
    constructor
    · rintro ⟨ρ, rfl, hp⟩
      obtain ⟨_, rfl, rfl, rfl, rfl⟩ := (hrest ρ).1 hp
      exact ⟨rfl, hloaded, rfl⟩
    · rintro ⟨rfl, rfl, rfl⟩
      exact ⟨_, rfl, (hrest _).2 ⟨[], rfl, rfl, hloaded.symm, rfl⟩⟩
  · next hfound =>
    rw [Bool.not_eq_true _ |>.mp hfound] at hthere
    have hl : l = ⟨path, .empty⟩ := by rw [← hpath, ← hids]
    refine ⟨[⟨.isThere path, false⟩], rfl, fun τ r t => ?_⟩
    refine (played_query (e := .isThere path) hthere).trans ?_
    constructor
    · rintro ⟨_, rfl, rfl, rfl, rfl⟩
      exact ⟨rfl, congrArg _ hl.symm, rfl⟩
    · rintro ⟨rfl, rfl, rfl⟩
      exact ⟨[], rfl, rfl, congrArg _ hl, rfl⟩

theorem played_sharing_cons {R : Responds σ} {source destination : Mailbox Dialogue} {u v : σ}
    {filter : Option Script.Program} {filters : List (Option Script.Program)}
    {rs : List (Except Failure Stats)} :
    Played R (sharing source destination (filter :: filters) l) u τ rs v ↔ ∃ r l' w σ ρ rs',
      Played R ((forwardUnseen source destination filter).run.run l) u σ (r, l') w ∧
      Played R (sharing source destination filters l') w ρ rs' v ∧ τ = σ ++ ρ ∧ rs = r :: rs' := by
  rw [sharing, played_bind]
  constructor
  · rintro ⟨⟨r, l'⟩, w, σ, ρ, hfirst, hrest, rfl⟩
    obtain ⟨rs', _, ρ, _, hothers, ⟨rfl, rfl, rfl⟩, rfl⟩ := played_bind.1 hrest
    exact ⟨r, l', w, σ, ρ, rs', hfirst, hothers, by rw [List.append_nil], rfl⟩
  · rintro ⟨r, l', w, σ, ρ, rs', hfirst, hrest, rfl, rfl⟩
    refine ⟨(r, l'), w, σ, ρ, hfirst, ?_, rfl⟩
    exact played_bind.2 ⟨rs', v, ρ, [], hrest, ⟨rfl, rfl, rfl⟩, (List.append_nil ρ).symm⟩

/-- The first of passes that each load their ledger, if it is the one in memory. -/
theorem played_reloading_cons {source destination : Mailbox Dialogue} {σ₀ : List Reply}
    {filter : Option Script.Program} {filters : List (Option Script.Program)}
    {rs : List (Except Failure Stats)}
    (hload : ∀ τ r t, Played (Saving mail) (Ledger.load path).run s τ r t ↔
      τ = σ₀ ∧ r = .ok l ∧ t = s) :
    Played (Saving mail) (reloading source destination path (filter :: filters)) s τ rs t ↔
      ∃ r l' w σ ρ rs',
        Played (Saving mail) ((forwardUnseen source destination filter).run.run l) s σ (r, l') w ∧
        Played (Saving mail) (reloading source destination path filters) w ρ rs' t ∧
        τ = σ₀ ++ (σ ++ ρ) ∧ rs = r :: rs' := by
  rw [reloading, played_bind]
  constructor
  · rintro ⟨r, w, _, _, hone, hrest, rfl⟩
    obtain ⟨_, _, _, _, h, hpass, rfl⟩ := played_bind.1 hone
    obtain ⟨rfl, rfl, rfl⟩ := (hload _ _ _).1 h
    obtain ⟨⟨_, l'⟩, _, σ, _, hfirst, ⟨rfl, rfl, rfl⟩, rfl⟩ := played_bind.1 hpass
    obtain ⟨rs', _, ρ, _, hothers, ⟨rfl, rfl, rfl⟩, rfl⟩ := played_bind.1 hrest
    exact ⟨_, l', _, σ, ρ, rs', hfirst, hothers, by simp, rfl⟩
  · rintro ⟨r, l', w, σ, ρ, rs', hfirst, hrest, rfl, rfl⟩
    refine ⟨r, w, σ₀ ++ σ, ρ, ?_, ?_, (List.append_assoc ..).symm⟩
    · refine played_bind.2 ⟨_, s, σ₀, σ, (hload _ _ _).2 ⟨rfl, rfl, rfl⟩, ?_, rfl⟩
      exact played_bind.2 ⟨(r, l'), w, σ, [], hfirst, ⟨rfl, rfl, rfl⟩, (List.append_nil σ).symm⟩
    · exact played_bind.2 ⟨rs', t, ρ, [], hrest, ⟨rfl, rfl, rfl⟩, (List.append_nil ρ).symm⟩

/-- Passes on one ledger and passes that each load theirs have the same calls of mailboxes, with the same
answers, and the same ends, and they leave the same host. -/
theorem played_sharing_iff (hspares : Spares path mail) (h : Stored path l s)
    (filters : List (Option Script.Program)) (rs : List (Except Failure Stats)) :
    (∃ τ, Played (Saving mail) (sharing (mailbox .source) (mailbox .destination) filters l) s τ rs t ∧
      τ.filter Reply.isMail = μ) ↔
    ∃ τ, Played (Saving mail) (reloading (mailbox .source) (mailbox .destination) path filters) s τ rs t ∧
      τ.filter Reply.isMail = μ := by
  induction filters generalizing l s rs μ with
  | nil => exact Iff.rfl
  | cons filter filters ih =>
    obtain ⟨σ₀, hσ₀, hload⟩ := played_load mail h
    have hstored {r : Except Failure Stats} {l' : Ledger} {u : Host × ε} {σ : List Reply}
        (hp : Played (Saving mail) ((forwardUnseen (mailbox .source) (mailbox .destination)
          filter).run.run l) s σ (r, l') u) : Stored path l' u := by
      have hu := ((steady_stored hspares).upholds_forwardUnseen filter h).of_played hp
      cases r with
      | ok stats => exact hu
      | error f => exact hu
    constructor
    · rintro ⟨τ, hp, rfl⟩
      obtain ⟨r, l', u, σ, ρ, rs', hfirst, hrest, rfl, rfl⟩ := played_sharing_cons.1 hp
      obtain ⟨ρ', hrest', hmail⟩ := (ih (hstored hfirst) rs').1 ⟨ρ, hrest, rfl⟩
      refine ⟨σ₀ ++ (σ ++ ρ'), (played_reloading_cons hload).2
        ⟨r, l', u, σ, ρ', rs', hfirst, hrest', rfl, rfl⟩, ?_⟩
      simp only [List.filter_append, hσ₀, hmail, List.nil_append]
    · rintro ⟨τ, hp, rfl⟩
      obtain ⟨r, l', u, σ, ρ, rs', hfirst, hrest, rfl, rfl⟩ := (played_reloading_cons hload).1 hp
      obtain ⟨ρ', hrest', hmail⟩ := (ih (hstored hfirst) rs').2 ⟨ρ, hrest, rfl⟩
      refine ⟨σ ++ ρ', played_sharing_cons.2 ⟨r, l', u, σ, ρ', rs', hfirst, hrest', rfl, rfl⟩, ?_⟩
      simp only [List.filter_append, hσ₀, hmail, List.nil_append]

/-- Of any passes in which no save is refused, whatever else fails: if each loads the ledger from its file,
they make the same calls of mailboxes, get the same answers, end as passes on one ledger in memory do, one by
one, and leave the same file. -/
theorem reloading_iff_sharing {mail : MailResponds ε} {path : Path} {l : Ledger} {s : Host × ε}
    (hspares : Spares path mail) (hd : s.1.disk.IsTree)
    (hload : s.1.perform (Ledger.load path) = (.ok l, s.1)) (filters : List (Option Script.Program))
    (rs : List (Except Failure Stats)) (t : Host × ε) (μ : List Reply) :
    (∃ τ, Played (HostResponds mail)
        (reloading (mailbox .source) (mailbox .destination) path filters) s τ rs t ∧
      (∀ r ∈ τ, r.refusesSave = false) ∧ τ.filter Reply.isMail = μ) ↔
    ∃ τ, Played (HostResponds mail)
        (sharing (mailbox .source) (mailbox .destination) filters l) s τ rs t ∧
      (∀ r ∈ τ, r.refusesSave = false) ∧ τ.filter Reply.isMail = μ := by
  simp only [← and_assoc, ← played_and (Q := fun r => r.refusesSave = false)]
  exact (played_sharing_iff hspares ⟨hd, hload⟩ filters rs).symm

/-- Mailboxes with one message, which cannot tell when it arrived. -/
def undated : MailResponds Unit
  | _, .unseen, s, a, t => t = s ∧ a = .ok ["a"]
  | _, .received id, s, a, t => t = s ∧ a = .error ⟨[], .declined "received" id⟩
  | _, _, s, _, t => t = s

/-- A pass that fails after it saved the ledger, then one that finds the identifier there. -/
theorem undated_then_skipped :
    Spares "db" undated ∧ (Host.empty [] 0).disk.IsTree ∧
    (Host.empty [] 0).perform (Ledger.load "db") = (.ok ⟨"db", .empty⟩, Host.empty [] 0) ∧
    ∃ τ t, Played (HostResponds undated)
      (reloading (mailbox .source) (mailbox .destination) "db" [none, none]) (Host.empty [] 0, ()) τ
      [.error ⟨[], .declined "received" "a"⟩, .ok ⟨0, 0, 1⟩] t := by
  have hspares : Spares "db" undated := by
    rintro side c s a t h hd
    have hs : t = s := by
      cases c with
      | unseen => exact h.1
      | received id => exact h.1
      | _ => exact h
    subst hs
    exact ⟨hd, rfl⟩
  have hd : (Host.empty [] 0).disk.IsTree := by decide
  have hload : (Host.empty [] 0).perform (Ledger.load "db") =
      (.ok ⟨"db", .empty⟩, Host.empty [] 0) := by cbv
  have hwrite (b : Bytes) : Disk.write ⟨[]⟩ [] 0 "db.tmp" b = .ok ⟨[(["db.tmp"], .file b 0)]⟩ := by
    cbv
  have hrename (b : Bytes) : Disk.rename ⟨[(["db.tmp"], .file b 0)]⟩ [] "db.tmp" "db" =
      .ok ⟨[(["db"], .file b 0)]⟩ := by cbv
  have hshared : ∃ τ t, Played (HostResponds undated)
      (sharing (mailbox .source) (mailbox .destination) [none, none] ⟨"db", .empty⟩)
      (Host.empty [] 0, ()) τ [.error ⟨[], .declined "received" "a"⟩, .ok ⟨0, 0, 1⟩] t ∧
      ∀ r ∈ τ, r.refusesSave = false := by
    refine ⟨_, _, ⟨
      Except.ok ["a"], _, _, ⟨rfl, rfl⟩, rfl,
      (), _, _, .of_run rfl, rfl,
      Except.ok (), _, _, .of_run (Host.run_change_eq_ok (hwrite _)), rfl,
      Except.ok (), _, _, .of_run (Host.run_change_eq_ok (hrename _)), rfl,
      Except.error _, _, _, ⟨rfl, rfl⟩, rfl,
      -- the second pass
      Except.ok ["a"], _, _, ⟨rfl, rfl⟩, rfl,
      (), _, _, .of_run rfl, rfl,
      (), _, _, .of_run rfl, rfl, rfl, rfl, rfl⟩, ?_⟩
    decide
  obtain ⟨τ, t, hplay, hsaves⟩ := hshared
  have hiff := reloading_iff_sharing (s := (Host.empty [] 0, ())) hspares hd hload [none, none]
    [.error ⟨[], .declined "received" "a"⟩, .ok ⟨0, 0, 1⟩] t (τ.filter Reply.isMail)
  obtain ⟨τ, hplay, -⟩ := hiff.2 ⟨τ, hplay, hsaves, rfl⟩
  exact ⟨hspares, hd, hload, τ, t, hplay⟩

end MailSieve.Forward
