import MailSieve.Proofs.Maildir.Delivering

/-!
What a delivery leaves on a host: one file more, the message, under a fresh identifier, in the part of the folder
and with the letters that its flags ask for. All other files are as they were.
-/

namespace MailSieve.Maildir

open Files Text

variable {h h' : Host} {root dir : Path} {id : String} {letters : List Char} {message : Bytes} {date : Date}
  {d : Disk} {e : Entry} {p : Place}

/-! ### Where a message arrives -/

theorem id_arrival (id : String) (letters : List Char) : (arrival id letters).id = id := by
  unfold arrival
  split <;> rfl

theorem isStray_arrival (id : String) (letters : List Char) : (arrival id letters).isStray = false := by
  unfold arrival
  split <;> rfl

theorem part_arrival (id : String) (letters : List Char) : (arrival id letters).part ≠ .tmp := by
  unfold arrival
  split <;> exact nofun

theorem isSeen_arrival (id : String) (letters : List Char) :
    (arrival id letters).isSeen = true ↔ 'S' ∈ letters := by
  unfold arrival
  split
  · next hnone => simp_all [Entry.isSeen]
  · simp [Entry.isSeen, mem_sortUnique]

theorem isEntry_arrival (h : Host) (size : Nat) (letters : List Char) :
    IsEntry (arrival (nextName h size) letters) where
  part := part_arrival _ _
  name := by
    unfold arrival
    split
    · exact ofName_id (isId_nextName h size) _
    · exact ofName_flaggedName (isId_nextName h size) ..
  visible := by
    have hhead := head_nextName h size
    unfold arrival
    rw [isHidden_eq_false_iff]
    split
    · exact hhead
    · dsimp only
      rw [flaggedName, String.toList_append, String.toList_ofList]
      cases hchars : (nextName h size).toList with
      | nil => simp [infoMark]
      | cons c id => simpa [hchars] using hhead

theorem isName_arrival (h : Host) (size : Nat) (hletters : ∀ c ∈ letters, c ≠ '/' ∧ c ≠ '\x00') :
    IsName (arrival (nextName h size) letters).file := by
  have hid := isName_nextName h size
  unfold arrival
  split
  · exact hid
  · exact isName_flaggedName hid.no_slash hid.no_nul hletters

/-- Nothing that is listed in the parts of a folder has an identifier. -/
def IsFresh (d : Disk) (working : Place) (dir : Path) (id : String) : Prop :=
  ∀ part files, d.list working (part.within dir) = .ok files →
    ∀ file ∈ files, (Entry.ofName part file).id ≠ id

theorem IsFresh.node?_eq_none (hfresh : IsFresh d h.working dir id) {part : Part}
    (hp : d.find h.working (part.within dir) = .ok (p, .directory)) {file : String}
    (hid : (Entry.ofName part file).id = id) : d.node? (p ++ [file]) = none := by
  by_contra hn
  exact hfresh part _ (Disk.list_eq_ok.2 ⟨p, hp, rfl⟩) file (Disk.mem_names.2 hn) hid

theorem IsFresh.node?_draft {size : Nat} (hfresh : IsFresh d h.working dir (nextName h size))
    (ht : d.find h.working (Part.tmp.within dir) = .ok (p, .directory)) :
    d.node? (p ++ [nextName h size]) = none :=
  hfresh.node?_eq_none ht (congrArg Entry.id (ofName_id (isId_nextName ..) .tmp))

theorem IsFresh.node?_arrival {size : Nat} (hfresh : IsFresh d h.working dir (nextName h size))
    (hp : d.find h.working ((arrival (nextName h size) letters).part.within dir) = .ok (p, .directory)) :
    d.node? (p ++ [(arrival (nextName h size) letters).file]) = none :=
  hfresh.node?_eq_none hp (by rw [(isEntry_arrival h size letters).name, id_arrival])

/-- A host whose disk has a message in a folder, and apart from it the same files as another. -/
structure Gains (d : Disk) (h : Host) (dir : Path) (e : Entry) (n : Node) : Prop where
  isTree : h.disk.IsTree
  same : Disk.SameDirectories d h.disk
  place : ∃ p, d.find h.working (e.part.within dir) = .ok (p, .directory) ∧
    d.Admits h.working (e.path dir) (p ++ [e.file]) ∧ d.node? (p ++ [e.file]) = none ∧
    ∀ q, h.disk.node? q = if q = p ++ [e.file] then some n else d.node? q

/-- A file that is written and renamed is at its new place alone. -/
theorem gains_of_deliver (hd : h.disk.IsTree)
    (hplaces : ∀ part : Part, ∃ p, h.disk.find h.working (part.within dir) = .ok (p, .directory))
    (hletters : ∀ c ∈ letters, c ≠ '/' ∧ c ≠ '\x00')
    (hfresh : IsFresh h.disk h.working dir (nextName h message.length))
    (hdeliver : h.perform (deliver dir message letters) = (.ok id, h')) :
    id = nextName h message.length ∧ h'.working = h.working ∧
      Gains h.disk h' dir (arrival id letters) (.file message h.now) := by
  obtain ⟨rfl, d₁, d, hwrite, hrename, rfl⟩ := perform_deliver_eq_ok.1 hdeliver
  have hid := isName_nextName h message.length
  have hname := isName_arrival h message.length hletters
  obtain ⟨t, ht⟩ := hplaces .tmp
  obtain ⟨p, hp⟩ := hplaces (arrival (nextName h message.length) letters).part
  obtain ⟨s, hs, htree, hsame, hnode⟩ := hd.of_write hwrite
  obtain ⟨-, rfl⟩ := (Disk.walk_join ht hid.no_slash hid.not_step).1 hs.walk
  obtain ⟨q, hq, htree', hsame', hnode'⟩ :=
    htree.of_rename hrename (hsame.walk hs.walk) fun h => hs.not_directory ((hsame _).1 h)
  have hq := hsame.symm.admits hq
  obtain rfl := eq_of_walk hp hname hq.walk
  refine ⟨rfl, rfl, htree', hsame.trans hsame', p, hp, hq, hfresh.node?_arrival hp, fun x => ?_⟩
  rw [hnode', hnode, if_pos rfl, hnode]
  split
  · rfl
  -- where the draft was there is nothing again
  split
  · next hx => rw [hx, hfresh.node?_draft ht]
  · rfl

/-- No path and no name on the way to a delivery is too long. -/
structure Fits (dir : Path) (id : String) (letters : List Char) : Prop where
  draft : Disk.checkPath (draft dir id) = .ok ()
  path : Disk.checkPath ((arrival id letters).path dir) = .ok ()
  draft_name : ¬ Disk.longestName < id.utf8ByteSize
  name : ¬ Disk.longestName < (arrival id letters).file.utf8ByteSize

theorem exists_deliver (hd : h.disk.IsTree)
    (hplaces : ∀ part : Part, ∃ p, h.disk.find h.working (part.within dir) = .ok (p, .directory))
    (hletters : ∀ c ∈ letters, c ≠ '/' ∧ c ≠ '\x00')
    (hfresh : IsFresh h.disk h.working dir (nextName h message.length))
    (hfits : Fits dir (nextName h message.length) letters) :
    ∃ h', h.perform (deliver dir message letters) = (.ok (nextName h message.length), h') := by
  have hid := isName_nextName h message.length
  have hname := isName_arrival h message.length hletters
  obtain ⟨t, ht⟩ := hplaces .tmp
  obtain ⟨p, hp⟩ := hplaces (arrival (nextName h message.length) letters).part
  have hdraft := hfresh.node?_draft ht
  have hnone := hfresh.node?_arrival hp
  have hsource : h.disk.Admits h.working (draft dir (nextName h message.length)) _ :=
    .join ht hid.no_slash hid.not_step hfits.draft hfits.draft_name (by rw [hdraft]; exact nofun)
  have htarget : h.disk.Admits h.working ((arrival (nextName h message.length) letters).path dir) _ :=
    .join hp hname.no_slash hname.not_step hfits.path hfits.name (by rw [hnone]; exact nofun)
  have hwrite : h.disk.write h.working h.now (draft dir (nextName h message.length)) message = .ok _ :=
    Disk.write_eq_ok.2 ⟨_, hsource, rfl⟩
  obtain ⟨s, hs, htree, hsame, hnode⟩ := hd.of_write hwrite
  have hfile := (hnode s).trans (if_pos rfl)
  exact ⟨_, perform_deliver_eq_ok.2 ⟨rfl, _, _, hwrite, (htree.rename_file (hsame.admits hs).walk hfile).2
    ⟨hsame.admits hs, _, hsame.admits htarget, rfl⟩, rfl⟩⟩

namespace Gains

variable {n : Node}

/-- The message is an entry of the folder, and the only one with its identifier. -/
theorem holds (hg : Gains d h dir e n) (he : IsEntry e) : Holds h dir e n := by
  obtain ⟨p, hp, -, -, hnode⟩ := hg.place
  exact ⟨he, p, hg.same.find hp, (hnode _).trans (if_pos rfl)⟩

theorem alone (hg : Gains d h dir e n) (he : IsEntry e) (hfresh : IsFresh d h.working dir e.id) (x : Entry)
    (k : Node) (hx : Holds h dir x k) (hid : x.id = e.id) : x = e := by
  obtain ⟨hentry, q, hq, hk⟩ := hx
  obtain ⟨p, hp, -, -, hnode⟩ := hg.place
  rw [hnode] at hk
  split at hk
  · next hplace => exact (place_eq_iff hentry he hq (hg.same.find hp)).1 hplace
  · rw [hfresh.node?_eq_none (hg.same.symm.find hq) (by rw [hentry.name, hid])] at hk
    cases hk

theorem find (hg : Gains d h dir e n) (he : IsEntry e) (hstray : e.isStray = false)
    (hfresh : IsFresh d h.working dir e.id) : (inbox h dir).find? (fun x => x.id = e.id) = some e :=
  IsAlone.find (hg.alone he hfresh) (hg.holds he) hstray

/-- The date of a message that was just delivered can be set. -/
theorem setDate {t : Date} (hg : Gains d h dir e (.file message t))
    (hfind : (inbox h dir).find? (fun x => x.id = id) = some e)
    (hset : h.perform (setDate dir id date) = (.ok (), h')) :
    h'.working = h.working ∧ Gains d h' dir e (.file message date) := by
  obtain ⟨htree, hsame, p, hp, hadmits, hnone, hnode⟩ := hg
  obtain ⟨d', hmodified, rfl⟩ := (perform_setDate_eq_ok _ hfind).1 hset
  have hfile : h.disk.node? (p ++ [e.file]) = some (.file message t) := (hnode _).trans (if_pos rfl)
  obtain ⟨q, content, t', hplace, htree', hsame', hnode'⟩ := htree.of_setModified hmodified
  cases ((hsame.admits hadmits).find hfile).symm.trans hplace
  refine ⟨rfl, htree', hsame.trans hsame', p, hp, hadmits, hnone, fun x => ?_⟩
  rw [hnode', hnode]
  split <;> rfl

theorem fetch {t : Date} (hg : Gains d h dir e (.file message t))
    (hfind : (inbox h dir).find? (fun x => x.id = id) = some e) :
    h.perform (fetch dir id) = (.ok message, h) := by
  obtain ⟨p, -, hadmits, -, hnode⟩ := hg.place
  have hplace := (hg.same.admits hadmits).find ((hnode _).trans (if_pos rfl))
  exact perform_fetch_eq_ok.2 ⟨rfl, e, hfind, Disk.read_eq_ok.2 ⟨_, t, hplace⟩⟩

end Gains

/-! ### A whole delivery -/

/-- The next message of a folder gets an identifier that no file there has. -/
def GivesFresh (h : Host) (dir : Path) (size : Nat) : Prop :=
  ∀ h₁, h.perform (makeParts dir [.cur, .new, .tmp]) = (.ok (), h₁) →
    IsFresh h₁.disk h.working dir (nextName h size)

theorem gains_of_append {dl : Delivery} (hd : h.disk.IsTree)
    (hworking : h.disk.node? h.working = some .directory)
    (hfresh : GivesFresh h (folder root dl.mailbox) dl.message.length)
    (happend : h.perform (append root dl) = (.ok (), h')) :
    ∃ d, Disk.Extends h.disk d ∧ h'.working = h.working ∧
      IsFresh d h.working (folder root dl.mailbox) (nextName h dl.message.length) ∧
      Gains d h' (folder root dl.mailbox)
        (arrival (nextName h dl.message.length) (dl.flags.items.filterMap flagLetter?))
        (.file dl.message (dl.date.getD h.now)) := by
  rw [append] at happend
  obtain ⟨⟨⟩, h₁, hmake, hrest⟩ := Host.perform_bind_eq_ok.1 happend
  have hfresh := hfresh h₁ hmake
  generalize folder root dl.mailbox = dir at *
  obtain ⟨d, rfl, htree, hextend, hplaces⟩ := places_of_makeParts hd hworking hmake
  have hplaces (part : Part) := hplaces part (by cases part <;> decide)
  obtain ⟨lines, hletters⟩ := perform_flagLetters { h with disk := d } dir dl.flags.items
  rw [Host.perform_bind, hletters] at hrest
  dsimp only at hrest
  obtain ⟨id, h₂, hdeliver, hrest⟩ := Host.perform_bind_eq_ok.1 hrest
  obtain ⟨rfl, hworking₂, hgains⟩ := gains_of_deliver (h := { h with disk := d, lines := lines }) htree
    hplaces (plain_letters dl.flags.items) hfresh hdeliver
  have hentry := isEntry_arrival h dl.message.length (dl.flags.items.filterMap flagLetter?)
  refine ⟨d, hextend, ?_⟩
  split at hrest
  · next date hdate =>
    obtain ⟨⟨⟩, h₃, hset, hlog⟩ := Host.perform_bind_eq_ok.1 hrest
    cases hlog
    have hfind := hgains.find hentry (isStray_arrival _ _) (by rwa [id_arrival, hworking₂])
    rw [id_arrival] at hfind
    obtain ⟨hworking₃, hgains⟩ := hgains.setDate hfind hset
    rw [hdate]
    exact ⟨hworking₃.trans hworking₂, hfresh, hgains.isTree, hgains.same, hgains.place⟩
  · next hdate =>
    cases hrest
    have hnow : dl.date.getD h.now = h.now := by
      cases hgiven : dl.date with
      | none => rfl
      | some date => exact absurd hgiven (hdate date)
    rw [hnow]
    exact ⟨hworking₂, hfresh, hgains.isTree, hgains.same, hgains.place⟩

/-- A message can be delivered to a folder that is there, unless a path or a name is too long. -/
theorem exists_append {dl : Delivery} (hd : h.disk.IsTree)
    (hplaces : ∀ part : Part,
      ∃ p, h.disk.find h.working (part.within (folder root dl.mailbox)) = .ok (p, .directory))
    (hfresh : IsFresh h.disk h.working (folder root dl.mailbox) (nextName h dl.message.length))
    (hfits : Fits (folder root dl.mailbox) (nextName h dl.message.length)
      (dl.flags.items.filterMap flagLetter?)) :
    ∃ h', h.perform (append root dl) = (.ok (), h') := by
  rw [append]
  generalize folder root dl.mailbox = dir at *
  obtain ⟨lines, hletters⟩ := perform_flagLetters h dir dl.flags.items
  obtain ⟨h₁, hdeliver⟩ := exists_deliver (h := { h with lines := lines }) hd hplaces
    (plain_letters dl.flags.items) hfresh hfits
  rw [Host.perform_bind, perform_makeParts_of_there hplaces]
  dsimp only
  rw [Host.perform_bind, hletters]
  dsimp only
  rw [Host.perform_bind, hdeliver]
  dsimp only
  split
  · next date hdate =>
    obtain ⟨-, hworking, hgains⟩ := gains_of_deliver (h := { h with lines := lines }) hd hplaces
      (plain_letters dl.flags.items) hfresh hdeliver
    have hentry := isEntry_arrival h dl.message.length (dl.flags.items.filterMap flagLetter?)
    have hfind := hgains.find hentry (isStray_arrival _ _) (by rwa [id_arrival, hworking])
    obtain ⟨p, hp, hadmits, -, hnode⟩ := hgains.place
    have hfile := (hgains.same.admits hadmits).find ((hnode _).trans (if_pos rfl))
    have hset := (perform_setDate_eq_ok date hfind).2
      ⟨_, Disk.setModified_eq_ok.2 ⟨_, _, _, hfile, rfl⟩, rfl⟩
    rw [id_arrival] at hset
    exact ⟨_, Host.perform_bind_eq_ok.2 ⟨(), _, hset, rfl⟩⟩
  · exact ⟨_, rfl⟩

/-- The system flags, in lower case, and their letters. -/
def systemFlags : List (String × Char) :=
  [("\\seen", 'S'), ("\\answered", 'R'), ("\\flagged", 'F'), ("\\deleted", 'T'), ("\\draft", 'D')]

theorem flagLetter?_eq_some {flag : String} {c : Char} :
    flagLetter? flag = some c ↔ (asciiLower flag, c) ∈ systemFlags := by
  unfold flagLetter?
  generalize asciiLower flag = name
  split <;> simp_all [systemFlags, eq_comm]

theorem mem_letters {flags : List String} {c : Char} :
    c ∈ flags.filterMap flagLetter? ↔ ∃ f ∈ flags, (asciiLower f, c) ∈ systemFlags := by
  simp only [List.mem_filterMap, flagLetter?_eq_some]

theorem seen_mem_letters {flags : List String} :
    'S' ∈ flags.filterMap flagLetter? ↔ ∃ f ∈ flags, asciiLower f = "\\seen" := by
  rw [mem_letters]
  simp [systemFlags]

/-- What a delivery makes of a host: there is one file more on its disk, the message, and none was left in `tmp`.
The name of the file is its identifier and, if there are system flags, one letter for each of them. -/
structure Delivered (h h' : Host) (root : Path) (dl : Delivery) (e : Entry) : Prop where
  id : e.id = nextName h dl.message.length
  place : ∃ p, h'.disk.find h'.working (e.part.within (folder root dl.mailbox)) = .ok (p, .directory) ∧
    h.disk.node? (p ++ [e.file]) = none ∧
    h'.disk.node? (p ++ [e.file]) = some (.file dl.message (dl.date.getD h.now)) ∧
    ∀ q, q ≠ p ++ [e.file] →
      h'.disk.node? q = h.disk.node? q ∨ h.disk.node? q = none ∧ h'.disk.node? q = some .directory
  no_draft : ∀ t name content date,
    h'.disk.find h'.working (Part.tmp.within (folder root dl.mailbox)) = .ok (t, .directory) →
    h'.disk.node? (t ++ [name]) = some (.file content date) →
    h.disk.node? (t ++ [name]) = some (.file content date)
  letters : ∃ letters : List Char, letters.Pairwise (· < ·) ∧
    (∀ c, c ∈ letters ↔ ∃ f ∈ dl.flags, (asciiLower f, c) ∈ systemFlags) ∧
    (letters = [] → e.part = .new ∧ e.file = e.id) ∧
    (letters ≠ [] → e.part = .cur ∧ e.file = e.id ++ ":2," ++ .ofList letters)
  listed : isInbox dl.mailbox = true → ∀ ids h'', h'.perform (unseen root) = (.ok ids, h'') →
    (e.id ∈ ids ↔ ¬ ∃ f ∈ dl.flags, asciiLower f = "\\seen")
  fetched : isInbox dl.mailbox = true → h'.perform (fetch root e.id) = (.ok dl.message, h')

theorem file_arrival (id : String) (letters : List Char) : ∃ sorted : List Char, sorted.Pairwise (· < ·) ∧
    (∀ c, c ∈ sorted ↔ c ∈ letters) ∧
    (sorted = [] → (arrival id letters).part = .new ∧ (arrival id letters).file = id) ∧
    (sorted ≠ [] → (arrival id letters).part = .cur ∧
      (arrival id letters).file = id ++ ":2," ++ .ofList sorted) := by
  refine ⟨sortUnique letters, sortUnique_ascending letters, fun c => mem_sortUnique, ?_, ?_⟩
  · intro hnone
    have hletters : letters = [] := by
      rw [List.eq_nil_iff_forall_not_mem] at hnone ⊢
      exact fun c hc => hnone c (mem_sortUnique.2 hc)
    subst hletters
    exact ⟨rfl, rfl⟩
  · intro hsome
    have hletters : letters.isEmpty = false := by
      cases letters with
      | nil => exact absurd rfl hsome
      | cons c letters => rfl
    rw [arrival, hletters, if_neg Bool.false_ne_true]
    refine ⟨rfl, ?_⟩
    have hmark : (":2," : String) = .ofList infoMark := rfl
    rw [flaggedName, String.ofList_append, hmark, String.append_assoc]

/-- A message is not seen if it is in `new` or has not the letter. -/
theorem unseen_arrival (id : String) (letters : List Char) :
    ((arrival id letters).part = .cur → (arrival id letters).isSeen = false) ↔ 'S' ∉ letters := by
  rw [← isSeen_arrival id, Bool.not_eq_true]
  refine ⟨fun h => ?_, fun h _ => h⟩
  by_cases hletters : letters.isEmpty = true
  · simp [arrival, hletters, Entry.isSeen]
  · exact h (by simp [arrival, hletters])

theorem Gains.mem_unseenIds {n : Node} (hg : Gains d h dir e n) (he : IsEntry e) (hstray : e.isStray = false)
    (hfresh : IsFresh d h.working dir e.id) (hlisting : (listing h dir .cur).any Entry.isStray = false) :
    e.id ∈ unseenIds h dir ↔ (e.part = .cur → e.isSeen = false) := by
  rw [unseenIds, (sortIds_perm _).mem_iff, List.mem_map]
  constructor
  · rintro ⟨x, hx, hid⟩
    obtain ⟨hinbox, hseen⟩ := (mem_pending hlisting).1 hx
    obtain ⟨-, k, hholds⟩ := mem_inbox.1 hinbox
    rwa [hg.alone he hfresh x k hholds hid] at hseen
  · intro hseen
    exact ⟨e, (mem_pending hlisting).2 ⟨mem_inbox.2 ⟨hstray, n, hg.holds he⟩, hseen⟩, rfl⟩

theorem place_ne {part part' : Part} (hpart : part ≠ part') {q : Place} {n n' : Node}
    (hp : h.disk.find h.working (part.within dir) = .ok (p, n))
    (hq : h.disk.find h.working (part'.within dir) = .ok (q, n')) (file file' : String) :
    p ++ [file] ≠ q ++ [file'] := by
  intro heq
  obtain ⟨rfl, -⟩ := List.append_inj' heq rfl
  obtain ⟨r, rfl⟩ := place_within hp
  obtain ⟨r', hr'⟩ := place_within hq
  exact hpart (name_injective (List.cons.inj (List.append_inj' hr' rfl).2).1)

theorem folder_of_isInbox {mailbox : String} (hinbox : isInbox mailbox = true) (root : Path) :
    folder root mailbox = root := by
  rw [folder, folderName?, if_pos hinbox]

/-- A delivery that succeeds leaves one message more, as its flags and date ask for. -/
theorem append_delivers_one (h h' : Host) (root : Path) (dl : Delivery) (hd : h.disk.IsTree)
    (hworking : h.disk.node? h.working = some .directory)
    (hfresh : GivesFresh h (folder root dl.mailbox) dl.message.length)
    (happend : h.perform (append root dl) = (.ok (), h')) : ∃ e, Delivered h h' root dl e := by
  obtain ⟨d, hextend, hworking', hfresh, hgains⟩ := gains_of_append hd hworking hfresh happend
  have hfile := file_arrival (nextName h dl.message.length) (dl.flags.items.filterMap flagLetter?)
  have hseen := unseen_arrival (nextName h dl.message.length) (dl.flags.items.filterMap flagLetter?)
  have hid := id_arrival (nextName h dl.message.length) (dl.flags.items.filterMap flagLetter?)
  have hstray := isStray_arrival (nextName h dl.message.length) (dl.flags.items.filterMap flagLetter?)
  have hentry := isEntry_arrival h dl.message.length (dl.flags.items.filterMap flagLetter?)
  generalize arrival (nextName h dl.message.length) (dl.flags.items.filterMap flagLetter?) = e at *
  rw [← hid, ← hworking'] at hfresh
  rw [← hid] at hfile
  obtain ⟨p, hp, -, hnone, hnode⟩ := hgains.place
  refine ⟨e, hid, ⟨p, hgains.same.find hp, ?_, (hnode _).trans (if_pos rfl), fun q hq => ?_⟩, ?_, ?_, ?_, ?_⟩
  · obtain heq | ⟨hnone', -⟩ := hextend (p ++ [e.file])
    · rw [← heq, hnone]
    · exact hnone'
  · rw [hnode, if_neg hq]
    exact hextend q
  · intro t name content date ht hdraft
    rw [hnode, if_neg (place_ne hentry.part.symm ht (hgains.same.find hp) name e.file)] at hdraft
    obtain heq | ⟨-, hdir⟩ := hextend (t ++ [name])
    · rw [← heq, hdraft]
    · rw [hdraft] at hdir
      cases hdir
  · obtain ⟨letters, hletters, hmem, hnew, hcur⟩ := hfile
    exact ⟨letters, hletters, fun c => (hmem c).trans mem_letters, hnew, hcur⟩
  · intro hinbox ids h'' hunseen
    rw [folder_of_isInbox hinbox] at hgains hfresh
    obtain ⟨-, hlisting, rfl⟩ := perform_unseen_eq_ok.1 hunseen
    rw [hgains.mem_unseenIds hentry hstray hfresh hlisting, hseen, seen_mem_letters]
    rfl
  · intro hinbox
    rw [folder_of_isInbox hinbox] at hgains hfresh
    exact hgains.fetch (hgains.find hentry hstray hfresh)

/-! ### A small maildir -/

/-- A maildir with a message that is new, and one that has a flag. -/
def waiting : Host where
  disk := ⟨[(["m"], .directory), (["m", "tmp"], .directory), (["m", "new"], .directory),
    (["m", "cur"], .directory), (["m", "new", "a"], .file [1] 0), (["m", "cur", "b:2,F"], .file [2] 0)]⟩
  working := []
  now := 3
  given := []
  lines := []

/-- A message for the inbox with a date, two spellings of one flag, another flag and a keyword. -/
def flaggedTwice : Delivery := ⟨"inbox", [7], .ofList ["\\SEEN", "\\Seen", "\\flagged", "custom"], some 5⟩

theorem find_waiting (part : Part) :
    waiting.disk.find waiting.working (part.within "m") = .ok (["m", part.name], .directory) := by
  cases part
  · cbv
  · cbv
  · cbv

theorem checkPath_of_short {path : Path} (hnul : '\x00' ∉ path.toList) (hne : path ≠ "")
    (hshort : ¬ Path.longest < path.utf8ByteSize) : Disk.checkPath path = .ok () := by
  refine Disk.checkPath_eq_ok.2 ⟨?_, hne, hshort⟩
  rwa [Bool.eq_false_iff, Ne, Path.hasNul_iff]

theorem fits_waiting : Fits "m" "3.N0,S=1" ['S', 'S', 'F'] := by
  have hfile : (arrival "3.N0,S=1" ['S', 'S', 'F']).file = "3.N0,S=1:2,FS" := by decide +kernel
  have hdraft : draft "m" "3.N0,S=1" = "m/tmp/3.N0,S=1" := by cbv
  have hpath : (arrival "3.N0,S=1" ['S', 'S', 'F']).path "m" = "m/cur/3.N0,S=1:2,FS" := by
    rw [Entry.path, hfile]
    cbv
  refine ⟨?_, ?_, by decide, ?_⟩
  · rw [hdraft]
    exact checkPath_of_short (by decide) (by decide) (by decide)
  · rw [hpath]
    exact checkPath_of_short (by decide) (by decide) (by decide)
  · rw [hfile]
    decide

theorem isFresh_waiting : IsFresh waiting.disk waiting.working "m" "3.N0,S=1" := by
  intro part files hfiles
  obtain ⟨p, hp, rfl⟩ := Disk.list_eq_ok.1 hfiles
  cases (find_waiting part).symm.trans hp
  cases part <;> decide +kernel

theorem flaggedTwice_delivered : waiting.disk.IsTree ∧ waiting.disk.node? waiting.working = some .directory ∧
    GivesFresh waiting (folder "m" flaggedTwice.mailbox) flaggedTwice.message.length ∧
    ∃ h', waiting.perform (append "m" flaggedTwice) = (.ok (), h') ∧
      ∃ e, Delivered waiting h' "m" flaggedTwice e := by
  have hd : waiting.disk.IsTree := by decide
  have hroot : folder "m" flaggedTwice.mailbox = "m" := folder_of_isInbox (by cbv) "m"
  have hname : nextName waiting flaggedTwice.message.length = "3.N0,S=1" := by decide +kernel
  have hflags : flaggedTwice.flags.items = ["\\SEEN", "\\Seen", "\\flagged", "custom"] := by cbv
  have hletters : flaggedTwice.flags.items.filterMap flagLetter? = ['S', 'S', 'F'] := by
    rw [hflags]
    cbv
  have hplaces (part : Part) : ∃ p, waiting.disk.find waiting.working
      (part.within (folder "m" flaggedTwice.mailbox)) = .ok (p, .directory) :=
    ⟨_, hroot ▸ find_waiting part⟩
  have hfresh : IsFresh waiting.disk waiting.working (folder "m" flaggedTwice.mailbox)
      (nextName waiting flaggedTwice.message.length) := by
    rw [hroot, hname]
    exact isFresh_waiting
  have hgives : GivesFresh waiting (folder "m" flaggedTwice.mailbox) flaggedTwice.message.length := by
    intro h₁ hmake
    cases (perform_makeParts_of_there hplaces _).symm.trans hmake
    exact hfresh
  obtain ⟨h', happend⟩ := exists_append hd hplaces hfresh (by rw [hroot, hname, hletters]; exact fits_waiting)
  exact ⟨hd, rfl, hgives, h', happend, append_delivers_one waiting h' "m" flaggedTwice hd rfl hgives happend⟩

end MailSieve.Maildir
