import MailSieve.Proofs.Files.Path
import MailSieve.Proofs.Forward.Reloading

/-!
Saves that fail or are killed: whatever becomes of the draft, what is loaded afterwards is the ledger that was
there or the one that was to be saved.
-/

namespace MailSieve.Forward

open Files Dialogue

variable {mail : MailResponds ε} {s t u : Host × ε} {τ : List Reply} {d d' : Disk} {working p : Place}
  {old l : Ledger}

/-- What a step of a save may leave behind when it fails: a file that was to be written may hold anything, and a
rename changes nothing. -/
def LeavesBehind : Effect → Host × ε → Host × ε → Prop
  | .write p _, s, t => t = s ∨
      ∃ rest d, s.1.disk.write s.1.working s.1.now p rest = .ok d ∧ t = ({ s.1 with disk := d }, s.2)
  | _, s, t => t = s

/-- A host where any step of a save may fail. -/
def Fallible (mail : MailResponds ε) : Responds (Host × ε) := fun e s a t =>
  HostResponds mail e s a t ∨ Reply.refusesSave ⟨e, a⟩ = true ∧ LeavesBehind e s t

/-- The draft of a ledger is not where its file is. -/
theorem walk_path_ne (hadmits : d.Admits working l.draft p) :
    d.walk (Disk.origin working l.path) l.path.steps ≠ .ok p := by
  obtain ⟨ns, last, hpath, hdraft⟩ :=
    Files.Path.exists_steps_append l.path ".tmp" (by decide) (by decide)
  have horigin : Disk.origin working l.draft = Disk.origin working l.path := by
    rw [Disk.origin, Disk.origin, Ledger.draft, Files.Path.isAbsolute_append (by decide)]
  -- the last step of the draft is too long to be that of the file, or one or two dots
  have hlong (n : String) (hn : n.length ≤ last.length ∨ n.length < 4) : last ++ ".tmp" ≠ n := by
    intro h
    have hlen := congrArg String.length h
    rw [String.length_append, show (".tmp" : String).length = 4 from rfl] at hlen
    omega
  have hwalk := hadmits.walk
  rw [horigin, Ledger.draft, hdraft, Disk.walk_append] at hwalk
  obtain ⟨q, hq, hwalk⟩ := bind_eq_ok.1 hwalk
  obtain ⟨-, ⟨hdot, -⟩ | ⟨hdots, -⟩ | ⟨-, rfl⟩⟩ := Disk.walk_step hwalk
  · exact absurd hdot (hlong "." (.inr (by decide)))
  · exact absurd hdots (hlong ".." (.inr (by decide)))
  rw [hpath, Disk.walk_append, hq]
  change d.walk q _ ≠ _
  split
  · intro h
    simpa using Except.ok.inj h
  · intro h
    obtain ⟨-, ⟨-, hsame⟩ | ⟨-, hup⟩ | ⟨-, hdown⟩⟩ := Disk.walk_step h
    · simp at hsame
    · have hlen := congrArg List.length hup
      simp at hlen
      omega
    · exact hlong last (.inl le_rfl) (List.cons.inj (List.append_cancel_left hdown)).1

/-- What is found at a path is the same on two hosts. -/
def SameFile (path : Path) (s t : Host × ε) : Prop :=
  ∀ x, t.1.disk.find t.1.working path = .ok x ↔ s.1.disk.find s.1.working path = .ok x

theorem SameFile.load {path : Path} (h : SameFile path s t)
    (hload : s.1.perform (Ledger.load path) = (.ok old, s.1)) :
    t.1.perform (Ledger.load path) = (.ok old, t.1) := Ledger.load_of_find h hload

theorem SameFile.read {path : Path} (h : SameFile path s t) (bytes : Bytes) :
    t.1.disk.read t.1.working path = .ok bytes ↔ s.1.disk.read s.1.working path = .ok bytes := by
  rw [Disk.read_eq_ok, Disk.read_eq_ok]
  exact exists_congr fun p => exists_congr fun date => h _

/-- A tree with the file of a ledger as it was. -/
def KeepsFile (path : Path) (s t : Host × ε) : Prop := t.1.disk.IsTree ∧ SameFile path s t

/-- However much of the draft was written, the file of the ledger is as it was. -/
theorem keeps_of_write_draft (hd : s.1.disk.IsTree) {content : Bytes}
    (hwrite : s.1.disk.write s.1.working s.1.now l.draft content = .ok d) :
    KeepsFile l.path s ({ s.1 with disk := d }, s.2) := by
  obtain ⟨p, hp, htree, hsame, hnode⟩ := hd.of_write hwrite
  have hwalk (q : Place) : d.walk (Disk.origin s.1.working l.path) l.path.steps = .ok q ↔
      s.1.disk.walk (Disk.origin s.1.working l.path) l.path.steps = .ok q := ⟨hsame.symm.walk, hsame.walk⟩
  have hne := walk_path_ne hp
  refine ⟨htree, fun ⟨q, n⟩ => ?_⟩
  rw [Disk.find_eq_ok, Disk.find_eq_ok, Disk.locate_eq_ok, Disk.locate_eq_ok, hwalk, hnode]
  by_cases hq : q = p
  · subst hq
    simp [hne]
  · rw [if_neg hq]

/-- A change of the disk is carried out or refused. -/
theorem carriesOut_change {f : Host → Except Refusal Disk} {a : Except Refusal Unit}
    (hR : CarriesOut (Host.change f) s a t) :
    (∃ d, f s.1 = .ok d ∧ a = .ok () ∧ t = ({ s.1 with disk := d }, s.2)) ∨ t = s ∧ a ≠ .ok () := by
  obtain ⟨hrun, hrest⟩ := hR
  cases hf : f s.1 with
  | ok d =>
    rw [Host.run_change_eq_ok hf] at hrun
    obtain ⟨rfl, hhost⟩ := Prod.mk.inj hrun
    exact .inl ⟨d, rfl, rfl, Prod.ext hhost.symm hrest⟩
  | error r =>
    rw [Host.run_change_eq_error hf] at hrun
    obtain ⟨rfl, hhost⟩ := Prod.mk.inj hrun
    exact .inr ⟨Prod.ext hhost.symm hrest, nofun⟩

/-- The draft is written or it is not, and the file of the ledger is as it was. -/
theorem writes_draft (hd : s.1.disk.IsTree) {a : Except Refusal Unit}
    (hR : Fallible mail (.write l.draft l.bytes) s a t) : KeepsFile l.path s t ∧ (a = .ok () →
      s.1.perform (attempt s!"writing {l.draft}" (Files.write l.draft l.bytes)) = (.ok (), t.1)) := by
  obtain hR | ⟨hfails, rfl | ⟨rest, d, hwrite, rfl⟩⟩ := hR
  · obtain ⟨d, hwrite, rfl, rfl⟩ | ⟨rfl, ha⟩ := carriesOut_change hR
    · exact ⟨keeps_of_write_draft hd hwrite, fun _ => Host.perform_change_eq_ok.2 ⟨d, hwrite, rfl⟩⟩
    · exact ⟨⟨hd, fun _ => Iff.rfl⟩, fun h => absurd h ha⟩
  · refine ⟨⟨hd, fun _ => Iff.rfl⟩, ?_⟩
    rintro rfl
    cases hfails
  · refine ⟨keeps_of_write_draft hd hwrite, ?_⟩
    rintro rfl
    cases hfails

/-- The draft is put in place of the file of the ledger, or nothing is changed. -/
theorem replaces_file {a : Except Refusal Unit} (hR : Fallible mail (.rename l.draft l.path) s a t) :
    (a = .ok () ∧ s.1.perform (attempt s!"replacing store {l.path}" (Files.rename l.draft l.path)) =
      (.ok (), t.1)) ∨ t = s ∧ a ≠ .ok () := by
  obtain hR | ⟨hfails, rfl⟩ := hR
  · obtain ⟨d, hrename, rfl, rfl⟩ | hsame := carriesOut_change hR
    · exact .inl ⟨rfl, Host.perform_change_eq_ok.2 ⟨d, hrename, rfl⟩⟩
    · exact .inr hsame
  · refine .inr ⟨rfl, ?_⟩
    rintro rfl
    cases hfails

/-- Wherever a save fails or is killed, the ledger that is loaded afterwards is the one that was there, or the
new one if it was put in place. -/
theorem survives_save (mail : MailResponds ε) (hd : s.1.disk.IsTree)
    (hload : s.1.perform (Ledger.load l.path) = (.ok old, s.1)) :
    Survives (Fallible mail)
      (fun t => t.1.disk.IsTree ∧
        ∃ m, t.1.perform (Ledger.load l.path) = (.ok m, t.1) ∧ (m = old ∨ m = l))
      (After (fun _ t => t.1.perform (Ledger.load l.path) = (.ok l, t.1)) (SameFile l.path s))
      l.save.run s := by
  have hkept {t : Host × ε} (h : KeepsFile l.path s t) : t.1.disk.IsTree ∧
      ∃ m, t.1.perform (Ledger.load l.path) = (.ok m, t.1) ∧ (m = old ∨ m = l) :=
    ⟨h.1, old, h.2.load hload, .inl rfl⟩
  refine ⟨hkept ⟨hd, fun _ => Iff.rfl⟩, ?_⟩
  rintro (r | ⟨⟩) t hR
  · obtain ⟨hkeeps, -⟩ := writes_draft hd hR
    exact ⟨hkept hkeeps, hkeeps.2⟩
  obtain ⟨hkeeps, hwrite⟩ := writes_draft hd hR
  refine ⟨hkept hkeeps, ?_⟩
  rintro (r | ⟨⟩) u hR
  · obtain ⟨⟨⟩, -⟩ | ⟨rfl, -⟩ := replaces_file hR
    exact ⟨hkept hkeeps, hkeeps.2⟩
  · obtain ⟨-, hrename⟩ | ⟨-, ha⟩ := replaces_file hR
    · have hsaved := Ledger.saved hd (Host.perform_bind_eq_ok.2 ⟨(), t.1, hwrite rfl, hrename⟩)
      exact ⟨⟨hsaved.isTree, l, hsaved.load, .inr rfl⟩, hsaved.load⟩
    · exact absurd rfl ha

/-- A ledger that is saved over one that can be loaded: wherever the save fails or is killed, one of the two is
loaded afterwards. It is the new one if the save succeeds, and if it fails the file is as it was. -/
theorem save_keeps_old_or_new (mail : MailResponds ε) (s : Host × ε) (hd : s.1.disk.IsTree) (old new : Ledger)
    (hload : s.1.perform (Ledger.load new.path) = (.ok old, s.1)) :
    (∀ t, Passes (Fallible mail) new.save.run s t → t.1.disk.IsTree ∧
      ∃ m, t.1.perform (Ledger.load new.path) = (.ok m, t.1) ∧ (m = old ∨ m = new)) ∧
    (∀ τ t, Played (Fallible mail) new.save.run s τ (.ok ()) t →
      t.1.perform (Ledger.load new.path) = (.ok new, t.1)) ∧
    ∀ τ f t, Played (Fallible mail) new.save.run s τ (.error f) t →
      t.1.perform (Ledger.load new.path) = (.ok old, t.1) ∧
      ∀ bytes, t.1.disk.read t.1.working new.path = .ok bytes ↔
        s.1.disk.read s.1.working new.path = .ok bytes := by
  have hsave := survives_save mail hd hload
  refine ⟨fun t hp => hsave.passes hp, fun τ t hp => hsave.of_played hp, fun τ f t hp => ?_⟩
  have hsame : SameFile new.path s t := hsave.of_played hp
  exact ⟨hsame.load hload, hsame.read⟩

/-- The ledger of a loose text. -/
def looseLedger : Ledger := ⟨"db", .ofList ["b", "a\n", "b"]⟩

/-- The draft of a ledger is broken off after its first byte. -/
theorem broken_off_and_saved : Ledger.looseHost.disk.IsTree ∧
    Ledger.looseHost.perform (Ledger.load "db") = (.ok looseLedger, Ledger.looseHost) ∧
    (∃ t, Passes (Fallible undated) (looseLedger.insert "c").save.run (Ledger.looseHost, ()) t ∧
      t.1.disk.read t.1.working "db.tmp" = .ok [0x7b] ∧
      ∃ m, t.1.perform (Ledger.load "db") = (.ok m, t.1) ∧ (m = looseLedger ∨ m = looseLedger.insert "c")) ∧
    ∃ τ t, Played (Fallible undated) (looseLedger.insert "c").save.run (Ledger.looseHost, ()) τ (.ok ()) t ∧
      t.1.perform (Ledger.load "db") = (.ok (looseLedger.insert "c"), t.1) := by
  have hd : Ledger.looseHost.disk.IsTree := by decide
  have hload : Ledger.looseHost.perform (Ledger.load "db") = (.ok looseLedger, Ledger.looseHost) := by cbv
  have hwrite (b : Bytes) : Ledger.looseHost.disk.write [] 1 "db.tmp" b =
      .ok (Ledger.looseHost.disk.put ["db.tmp"] (.file b 1)) := by cbv
  have hrename (b : Bytes) : (Ledger.looseHost.disk.put ["db.tmp"] (.file b 1)).rename [] "db.tmp" "db" =
      .ok ⟨[(["db"], .file b 1)]⟩ := by cbv
  obtain ⟨hpasses, hsaves, -⟩ :=
    save_keeps_old_or_new undated (Ledger.looseHost, ()) hd looseLedger (looseLedger.insert "c") hload
  have hplayed : ∃ τ t, Played (Fallible undated) (looseLedger.insert "c").save.run (Ledger.looseHost, ()) τ
      (.ok ()) t :=
    ⟨_, _, Except.ok (), _, _, .inl (.of_run (Host.run_change_eq_ok (hwrite _))), rfl,
      Except.ok (), _, _, .inl (.of_run (Host.run_change_eq_ok (hrename _))), rfl, rfl, rfl, rfl⟩
  have hbroken : Passes (Fallible undated) (looseLedger.insert "c").save.run (Ledger.looseHost, ())
      ({ Ledger.looseHost with disk := Ledger.looseHost.disk.put ["db.tmp"] (.file [0x7b] 1) }, ()) := by
    change Passes _ (.ask (.write "db.tmp" _) _) _ _
    exact .step (a := Except.error .missing) (.inr ⟨rfl, .inr ⟨_, _, hwrite _, rfl⟩⟩) .here
  obtain ⟨τ, t, hplayed⟩ := hplayed
  exact ⟨hd, hload, ⟨_, hbroken, by cbv, (hpasses _ hbroken).2⟩, τ, t, hplayed, hsaves τ t hplayed⟩

end MailSieve.Forward
