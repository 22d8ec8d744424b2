import MailSieve.Proofs.Files.Tree
import MailSieve.Proofs.Outcome

/-!
What the actions on a disk do when they are not refused: a file that is written is read, and a file that is
moved is found where it was moved to. All directories stay where they are, and with them all ways to them.
-/

namespace MailSieve.Files.Disk

variable {d d' : Disk} {working start p q s t x : Place} {path target : Path}

/-- Two disks have the same directories. -/
def SameDirectories (d d' : Disk) : Prop :=
  ∀ p, d'.node? p = some .directory ↔ d.node? p = some .directory

theorem SameDirectories.symm (h : SameDirectories d d') : SameDirectories d' d := fun p => (h p).symm

theorem SameDirectories.trans {d'' : Disk} (h : SameDirectories d d') (h' : SameDirectories d' d'') :
    SameDirectories d d'' := fun p => (h' p).trans (h p)

theorem walk_append (d : Disk) (start : Place) (ms ns : List String) :
    d.walk start (ms ++ ns) = (d.walk start ms).bind fun p => d.walk p ns := by
  induction ms generalizing start with
  | nil => rfl
  | cons m ms ih =>
    rw [List.cons_append, walk, walk]
    split
    · rfl
    · rfl
    · split
      · exact ih _
      split
      · exact ih _
      split
      · rfl
      · exact ih _

/-- In a directory the first step is taken, and the others from where it leads. -/
theorem walk_cons (hdir : d.node? start = some .directory) (n : String) (ns : List String) :
    d.walk start (n :: ns) = if n = "." then d.walk start ns
      else if n = ".." then d.walk start.dropLast ns
      else if longestName < n.utf8ByteSize then .error .nameTooLong
      else d.walk (start ++ [n]) ns := by
  rw [walk, hdir]

theorem directory_of_walk_cons {n : String} {ns : List String} (hw : d.walk start (n :: ns) = .ok p) :
    d.node? start = some .directory := by
  rw [walk] at hw
  split at hw
  · cases hw
  · cases hw
  · next hdir => exact hdir

/-- A way through directories stays one for as long as they do. -/
theorem walk_of_directories (h : ∀ p, d.node? p = some .directory → d'.node? p = some .directory)
    {ns : List String} (hw : d.walk start ns = .ok p) : d'.walk start ns = .ok p := by
  induction ns generalizing start with
  | nil => exact hw
  | cons n ns ih =>
    have hdir := directory_of_walk_cons hw
    rw [walk_cons hdir] at hw
    rw [walk_cons (h _ hdir)]
    split at hw
    · next hn => rw [if_pos hn]; exact ih hw
    split at hw
    · next hn hn' => rw [if_neg hn, if_pos hn']; exact ih hw
    split at hw
    · cases hw
    · next hn hn' hlong => rw [if_neg hn, if_neg hn', if_neg hlong]; exact ih hw

theorem SameDirectories.walk (h : SameDirectories d d') {ns : List String}
    (hw : d.walk start ns = .ok p) : d'.walk start ns = .ok p :=
  walk_of_directories (fun p => (h p).2) hw

/-- One step leads from a directory to itself, up or down. -/
theorem walk_step {name : String} (hw : d.walk start [name] = .ok p) : d.node? start = some .directory ∧
    (name = "." ∧ p = start ∨ name = ".." ∧ p = start.dropLast ∨
      (name ≠ "." ∧ name ≠ "..") ∧ p = start ++ [name]) := by
  have hdir := directory_of_walk_cons hw
  rw [walk_cons hdir] at hw
  refine ⟨hdir, ?_⟩
  split at hw
  · next hdot =>
    cases hw
    exact .inl ⟨hdot, rfl⟩
  split at hw
  · next hdots =>
    cases hw
    exact .inr (.inl ⟨hdots, rfl⟩)
  split at hw
  · cases hw
  · next hdot hdots _ =>
    cases hw
    exact .inr (.inr ⟨⟨hdot, hdots⟩, rfl⟩)

/-- The last step of a way that leads to no directory is the name of what is there. -/
theorem IsTree.parent_of_walk (hd : d.IsTree) {ns : List String} {name : String}
    (hw : d.walk start (ns ++ [name]) = .ok p) (hp : d.node? p ≠ some .directory) :
    ∃ parent, p = parent ++ [name] ∧ (name ≠ "." ∧ name ≠ "..") ∧
      d.node? parent = some .directory := by
  rw [walk_append] at hw
  obtain ⟨parent, -, hw⟩ := bind_eq_ok.1 hw
  obtain ⟨hdir, ⟨-, rfl⟩ | ⟨-, rfl⟩ | ⟨hname, rfl⟩⟩ := walk_step hw
  · exact absurd hdir hp
  · exact absurd (hd.dropLast hdir) hp
  · exact ⟨parent, rfl, hname, hdir⟩

theorem approach_eq_ok : d.approach working path = .ok () ↔
    checkPath path = .ok () ∧ ∃ p, d.walk (origin working path) path.steps.dropLast = .ok p ∧
      d.node? p = some .directory := by
  rw [approach, bind_eq_ok]
  constructor
  · rintro ⟨⟨⟩, hcheck, h⟩
    obtain ⟨p, hp, h⟩ := bind_eq_ok.1 h
    split at h
    · next hdir => exact ⟨hcheck, p, hp, hdir⟩
    · cases h
    · cases h
  · rintro ⟨hcheck, p, hp, hdir⟩
    refine ⟨(), hcheck, bind_eq_ok.2 ⟨p, hp, ?_⟩⟩
    rw [hdir]
    rfl

theorem locate_eq_ok : d.locate working path = .ok p ↔
    checkPath path = .ok () ∧ d.walk (origin working path) path.steps = .ok p ∧
      (path.endsInSlash = true → d.node? p = none ∨ d.node? p = some .directory) := by
  rw [locate, bind_eq_ok]
  constructor
  · rintro ⟨⟨⟩, hcheck, h⟩
    obtain ⟨q, hq, h⟩ := bind_eq_ok.1 h
    cases hn : d.node? q with
    | none =>
      rw [hn] at h
      cases h
      exact ⟨hcheck, hq, fun _ => .inl hn⟩
    | some n =>
      rw [hn] at h
      cases n with
      | directory =>
        cases h
        exact ⟨hcheck, hq, fun _ => .inr hn⟩
      | file content date =>
        dsimp only at h
        split at h
        · cases h
        · next hslash =>
          cases h
          exact ⟨hcheck, hq, fun h => absurd h hslash⟩
  · rintro ⟨hcheck, hwalk, hslash⟩
    refine ⟨(), hcheck, bind_eq_ok.2 ⟨p, hwalk, ?_⟩⟩
    split
    · next hfile =>
      rw [hfile] at hslash
      rw [if_neg]
      · rfl
      · intro h
        exact absurd (hslash h) (by simp)
    · rfl

theorem find_eq_ok {n : Node} : d.find working path = .ok (p, n) ↔
    d.locate working path = .ok p ∧ d.node? p = some n := by
  rw [find, bind_eq_ok]
  constructor
  · rintro ⟨q, hq, h⟩
    split at h
    · next hn =>
      cases h
      exact ⟨hq, hn⟩
    · cases h
  · rintro ⟨hp, hn⟩
    refine ⟨p, hp, ?_⟩
    rw [hn]
    rfl

theorem read_eq_ok {content : Bytes} : d.read working path = .ok content ↔
    ∃ p date, d.find working path = .ok (p, .file content date) := by
  rw [read, bind_eq_ok]
  constructor
  · rintro ⟨⟨p, n⟩, hfind, h⟩
    cases n with
    | directory => cases h
    | file content date =>
      cases h
      exact ⟨p, date, hfind⟩
  · rintro ⟨p, date, hfind⟩
    exact ⟨_, hfind, rfl⟩

/-- The place for a file at a path that does not end in a slash; no directory is there. -/
structure Admits (d : Disk) (working : Place) (path : Path) (p : Place) : Prop where
  approach : d.approach working path = .ok ()
  no_slash : path.endsInSlash = false
  walk : d.walk (origin working path) path.steps = .ok p
  not_directory : d.node? p ≠ some .directory

theorem SameDirectories.approach (h : SameDirectories d d') (ha : d.approach working path = .ok ()) :
    d'.approach working path = .ok () := by
  obtain ⟨hcheck, p, hp, hdir⟩ := approach_eq_ok.1 ha
  exact approach_eq_ok.2 ⟨hcheck, p, h.walk hp, (h p).2 hdir⟩

theorem SameDirectories.admits (h : SameDirectories d d') (ha : d.Admits working path p) :
    d'.Admits working path p where
  approach := h.approach ha.approach
  no_slash := ha.no_slash
  walk := h.walk ha.walk
  not_directory hdir := ha.not_directory ((h p).1 hdir)

theorem Admits.locate (h : d.Admits working path p) : d.locate working path = .ok p := by
  refine locate_eq_ok.2 ⟨(approach_eq_ok.1 h.approach).1, h.walk, ?_⟩
  rw [h.no_slash]
  exact fun h => nomatch h

theorem write_eq_ok {now : Int} {content : Bytes} : d.write working now path content = .ok d' ↔
    ∃ p, d.Admits working path p ∧ d' = d.put p (.file content now) := by
  rw [write, bind_eq_ok]
  constructor
  · rintro ⟨⟨⟩, happroach, h⟩
    split at h
    · cases h
    · next hslash =>
      obtain ⟨p, hp, h⟩ := bind_eq_ok.1 h
      split at h
      · cases h
      · next hdir =>
        cases h
        exact ⟨p, ⟨happroach, Bool.eq_false_iff.2 hslash, (locate_eq_ok.1 hp).2.1, hdir⟩, rfl⟩
  · rintro ⟨p, hp, rfl⟩
    refine ⟨(), hp.approach, ?_⟩
    rw [hp.no_slash]
    refine bind_eq_ok.2 ⟨p, hp.locate, ?_⟩
    split
    · next h => exact absurd h hp.not_directory
    · rfl

theorem rename_eq_ok : d.rename working path target = .ok d' ↔
    d.approach working path = .ok () ∧ d.approach working target = .ok () ∧
      path.endsInName = true ∧ target.endsInName = true ∧
      ∃ s n t, d.walk (origin working path) path.steps = .ok s ∧ d.node? s = some n ∧
        d.walk (origin working target) target.steps = .ok t ∧
        (n ≠ .directory → path.endsInSlash = false ∧ target.endsInSlash = false) ∧
        if s = t then d' = d
        else ¬ s <+: t ∧ ¬ t <+: s ∧ d.admitsReplacing n t = .ok () ∧ d' = (d.drop t).move s t := by
  unfold rename
  simp only [bind_eq_ok]
  constructor
  · rintro ⟨⟨⟩, hpath, ⟨⟩, htarget, h⟩
    split at h
    · next hnames =>
      rw [Bool.and_eq_true] at hnames
      obtain ⟨s, hs, h⟩ := bind_eq_ok.1 h
      cases hn : d.node? s with
      | none => rw [hn] at h; cases h
      | some n =>
        rw [hn] at h
        obtain ⟨t, ht, h⟩ := bind_eq_ok.1 h
        obtain ⟨hslash, h⟩ := throw_or_eq_ok.1 h
        refine ⟨hpath, htarget, hnames.1, hnames.2, s, n, t, hs, hn, ht, ?_, ?_⟩
        · intro hne
          simpa [hne] using hslash
        · split at h
          · next hst =>
            cases h
            rw [if_pos hst]
          · next hst =>
            rw [if_neg hst]
            obtain ⟨h₁, h⟩ := throw_or_eq_ok.1 h
            obtain ⟨h₂, h⟩ := throw_or_eq_ok.1 h
            obtain ⟨⟨⟩, hadmits, h⟩ := bind_eq_ok.1 h
            cases h
            rw [List.isPrefixOf_iff_prefix] at h₁ h₂
            exact ⟨h₁, h₂, hadmits, rfl⟩
    · cases h
  · rintro ⟨hpath, htarget, hname, hname', s, n, t, hs, hn, ht, hslash, h⟩
    refine ⟨(), hpath, (), htarget, ?_⟩
    rw [if_pos (by rw [hname, hname']; rfl)]
    refine bind_eq_ok.2 ⟨s, hs, ?_⟩
    rw [hn]
    refine bind_eq_ok.2 ⟨t, ht, throw_or_eq_ok.2 ⟨?_, ?_⟩⟩
    · intro h
      rw [Bool.and_eq_true, bne_iff_ne, Bool.or_eq_true] at h
      obtain ⟨h₁, h₂⟩ := hslash h.1
      rw [h₁, h₂] at h
      exact absurd h.2 (by simp)
    · split at h
      · next hst =>
        rw [if_pos hst, h]
        rfl
      · next hst =>
        obtain ⟨h₁, h₂, hadmits, rfl⟩ := h
        rw [← List.isPrefixOf_iff_prefix] at h₁ h₂
        rw [if_neg hst]
        exact throw_or_eq_ok.2 ⟨h₁, throw_or_eq_ok.2 ⟨h₂, bind_eq_ok.2 ⟨(), hadmits, rfl⟩⟩⟩

/-- Where a file can be put, what there is can be found. -/
theorem Admits.find {n : Node} (h : d.Admits working path p) (hp : d.node? p = some n) :
    d.find working path = .ok (p, n) :=
  find_eq_ok.2 ⟨h.locate, hp⟩

/-- A path at which a file can be put ends in its name, after the steps to a directory. -/
theorem IsTree.exists_parent (hd : d.IsTree) (h : d.Admits working path p) :
    path.endsInName = true ∧ ∃ parent name, p = parent ++ [name] ∧ d.node? parent = some .directory := by
  obtain ⟨-, parent, hparent, hdir⟩ := approach_eq_ok.1 h.approach
  have hwalk := h.walk
  obtain hnil | ⟨ns, name, hsteps⟩ := List.eq_nil_or_concat' path.steps
  · rw [hnil] at hwalk hparent
    cases hwalk
    cases hparent
    exact absurd hdir h.not_directory
  · rw [hsteps] at hwalk
    obtain ⟨parent, hp, hname, hdir⟩ := hd.parent_of_walk hwalk h.not_directory
    refine ⟨?_, parent, name, hp, hdir⟩
    simp [Path.endsInName, hsteps, hname]

/-- Files are not below one another. -/
theorem IsTree.not_prefix (hd : d.IsTree) {parent : Place} {name : String}
    (hp : d.node? p ≠ some .directory) (hparent : d.node? parent = some .directory)
    (hne : p ≠ parent ++ [name]) : ¬ p <+: parent ++ [name] := by
  intro h
  obtain h | h := List.prefix_concat_iff.1 h
  · exact hne h
  · have heq := hd.eq_of_prefix hp h (by rw [hparent]; exact Option.some_ne_none _)
    exact hp (heq ▸ hparent)

/-- A file that is written is at its place, and all else is as it was. -/
theorem IsTree.of_write (hd : d.IsTree) {now : Int} {content : Bytes}
    (h : d.write working now path content = .ok d') :
    ∃ p, d.Admits working path p ∧ d'.IsTree ∧ SameDirectories d d' ∧
      ∀ q, d'.node? q = if q = p then some (.file content now) else d.node? q := by
  obtain ⟨p, hp, rfl⟩ := write_eq_ok.1 h
  obtain ⟨-, parent, name, rfl, hparent⟩ := hd.exists_parent hp
  have hdir := hp.not_directory
  have hnode (q : Place) := node?_put (q := q) d (.file content now) (ne_nil_of_node? hdir)
  refine ⟨_, hp, hd.put hparent fun h => absurd h hdir, fun q => ?_, hnode⟩
  rw [hnode]
  split
  · next hq =>
    subst hq
    exact iff_of_false (by simp) hdir
  · exact Iff.rfl

theorem setModified_eq_ok {date : Int} : d.setModified working path date = .ok d' ↔
    ∃ p content t, d.find working path = .ok (p, .file content t) ∧ d' = d.put p (.file content date) := by
  rw [setModified, bind_eq_ok]
  constructor
  · rintro ⟨⟨p, n⟩, hfind, h⟩
    cases n with
    | directory => cases h
    | file content t =>
      cases h
      exact ⟨p, content, t, hfind, rfl⟩
  · rintro ⟨p, content, t, hfind, rfl⟩
    exact ⟨_, hfind, rfl⟩

/-- A file whose date is set keeps its place and content, and all else is as it was. -/
theorem IsTree.of_setModified (hd : d.IsTree) {date : Int}
    (h : d.setModified working path date = .ok d') :
    ∃ p content t, d.find working path = .ok (p, .file content t) ∧ d'.IsTree ∧ SameDirectories d d' ∧
      ∀ q, d'.node? q = if q = p then some (.file content date) else d.node? q := by
  obtain ⟨p, content, t, hfind, rfl⟩ := setModified_eq_ok.1 h
  have hfile := (find_eq_ok.1 hfind).2
  have hdir : d.node? p ≠ some .directory := by
    rw [hfile]
    simp
  obtain ⟨parent, name, rfl⟩ := (List.eq_nil_or_concat' p).resolve_left (ne_nil_of_node? hdir)
  have hparent := hd.parent parent name (by rw [hfile]; exact Option.some_ne_none _)
  have hnode (q : Place) := node?_put (q := q) d (.file content date) (ne_nil_of_node? hdir)
  refine ⟨_, content, t, hfind, hd.put hparent fun h => absurd h hdir, fun q => ?_, hnode⟩
  rw [hnode]
  split
  · next hq =>
    subst hq
    exact iff_of_false (by simp) hdir
  · exact Iff.rfl

/-- A file can be moved wherever a file can be put. -/
theorem IsTree.rename_file (hd : d.IsTree) {content : Bytes} {date : Int}
    (hwalk : d.walk (origin working path) path.steps = .ok s)
    (hfile : d.node? s = some (.file content date)) :
    d.rename working path target = .ok d' ↔ d.Admits working path s ∧
      ∃ t, d.Admits working target t ∧ d' = if s = t then d else (d.drop t).move s t := by
  have hs : d.node? s ≠ some .directory := by
    rw [hfile]
    simp
  rw [rename_eq_ok]
  constructor
  · rintro ⟨happroach, happroach', -, -, s', n, t, hs', hn, ht, hslash, h⟩
    cases hwalk.symm.trans hs'
    cases hfile.symm.trans hn
    obtain ⟨hslash, hslash'⟩ := hslash (by simp)
    have htarget : d.node? t ≠ some .directory := by
      intro hdir
      split at h
      · next hst => exact hs (hst ▸ hdir)
      · obtain ⟨-, -, hadmits, -⟩ := h
        simp [admitsReplacing, hdir] at hadmits
    refine ⟨⟨happroach, hslash, hwalk, hs⟩, t, ⟨happroach', hslash', ht, htarget⟩, ?_⟩
    split at h
    · next hst => rw [if_pos hst, h]
    · next hst => rw [if_neg hst, h.2.2.2]
  · rintro ⟨hsource, t, htarget, rfl⟩
    obtain ⟨hname, parent, name, hp, hparent⟩ := hd.exists_parent hsource
    obtain ⟨hname', parent', name', hp', hparent'⟩ := hd.exists_parent htarget
    refine ⟨hsource.approach, htarget.approach, hname, hname', s, _, t, hwalk, hfile, htarget.walk,
      fun _ => ⟨hsource.no_slash, htarget.no_slash⟩, ?_⟩
    split
    · rfl
    · next hst =>
      refine ⟨?_, ?_, ?_, rfl⟩
      · subst hp'
        exact hd.not_prefix hs hparent' hst
      · subst hp
        exact hd.not_prefix htarget.not_directory hparent (Ne.symm hst)
      · have hdir := htarget.not_directory
        unfold admitsReplacing
        split <;> simp_all

/-- A file that is moved is at its new place alone, and all else is as it was. -/
theorem IsTree.of_rename (hd : d.IsTree) (h : d.rename working path target = .ok d')
    (hwalk : d.walk (origin working path) path.steps = .ok s) (hs : d.node? s ≠ some .directory) :
    ∃ t, d.Admits working target t ∧ d'.IsTree ∧ SameDirectories d d' ∧
      ∀ q, d'.node? q = if q = t then d.node? s else if q = s then none else d.node? q := by
  cases hn : d.node? s with
  | none =>
    obtain ⟨-, -, -, -, s', n, -, hs', hn', -⟩ := rename_eq_ok.1 h
    cases hwalk.symm.trans hs'
    rw [hn] at hn'
    cases hn'
  | some n =>
    cases n with
    | directory => exact absurd hn hs
    | file content date =>
      obtain ⟨-, t, ht, rfl⟩ := (hd.rename_file hwalk hn).1 h
      refine ⟨t, ht, ?_⟩
      split
      · next hst =>
        subst hst
        refine ⟨hd, fun _ => Iff.rfl, fun q => ?_⟩
        split
        · next hq => rw [hq, hn]
        · rfl
      · next hst =>
        obtain ⟨-, parent, name, rfl, hparent⟩ := hd.exists_parent ht
        have hnode (q : Place) := node?_moved (q := q) hd hs (ne_nil_of_node? ht.not_directory) hst
        rw [← hn]
        refine ⟨hd.moved hs hparent ht.not_directory hst, fun q => ?_, hnode⟩
        rw [hnode]
        split
        · next hq =>
          subst hq
          exact iff_of_false hs ht.not_directory
        split
        · next hq =>
          subst hq
          exact iff_of_false (by simp) hs
        · exact Iff.rfl

end MailSieve.Files.Disk
