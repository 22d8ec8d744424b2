import Mathlib
import MailSieve.Maildir.Store
import MailSieve.Proofs.Forward.Transcript
import MailSieve.Proofs.Maildir.Naming
import MailSieve.Proofs.Text.ModifiedUtf7

/-!
Deliveries stay below the root of a maildir: every mailbox is the maildir itself or one directory in it,
and nothing outside is touched. Only a mailbox that is named by a single dot or slash is the directory
that the maildir is in.
-/

namespace MailSieve.Maildir

open Files Text Forward

/-- The name of one file in a directory, not a way out of it. -/
structure IsName (n : String) : Prop where
  ne_empty : n ≠ ""
  ne_dot : n ≠ "."
  ne_dots : n ≠ ".."
  no_slash : '/' ∉ n.toList
  no_nul : '\x00' ∉ n.toList

instance (n : String) : Decidable (IsName n) :=
  decidable_of_iff (n ≠ "" ∧ n ≠ "." ∧ n ≠ ".." ∧ '/' ∉ n.toList ∧ '\x00' ∉ n.toList)
    ⟨fun ⟨h₁, h₂, h₃, h₄, h₅⟩ => ⟨h₁, h₂, h₃, h₄, h₅⟩,
      fun h => ⟨h.ne_empty, h.ne_dot, h.ne_dots, h.no_slash, h.no_nul⟩⟩

/-- The paths that lead down from a directory. -/
inductive Below (root : Path) : Path → Prop
  | root : Below root root
  | join : Below root p → IsName n → Below root (p.join n)

theorem no_slash_dotted (mailbox : String) : '/' ∉ (dotted mailbox).toList := by
  simp only [dotted, String.toList_map, List.mem_map]
  grind

theorem dotted_eq_dot {mailbox : String} :
    dotted mailbox = "." ↔ mailbox = "." ∨ mailbox = "/" := by
  simp only [← String.toList_inj, dotted, String.toList_map]
  change _ = ['.'] ↔ _ = ['.'] ∨ _ = ['/']
  rw [List.map_eq_singleton_iff]
  grind

theorem encode_dotted_ne_empty {mailbox : String} (h : isInbox mailbox = false) :
    (ModifiedUtf7.encode (dotted mailbox)).toList ≠ [] := by
  rw [ModifiedUtf7.encode, String.toList_ofList, Ne, ModifiedUtf7.encodeAfter_eq_nil, dotted,
    String.toList_map, List.map_eq_nil_iff, String.toList_eq_nil_iff]
  rintro rfl
  cases h

/-- The directory of a mailbox is hidden in the maildir, and only two mailboxes have no directory of
their own. -/
theorem folderName?_eq_some {mailbox n : String} (h : folderName? mailbox = some n) :
    n.toList.head? = some '.' ∧ n ≠ "." ∧ '/' ∉ n.toList ∧ '\x00' ∉ n.toList ∧
      (n = ".." ↔ mailbox = "." ∨ mailbox = "/") := by
  unfold folderName? at h
  split at h
  · cases h
  · next hin =>
    cases h
    have hlist : ("." ++ ModifiedUtf7.encode (dotted mailbox)).toList =
        '.' :: (ModifiedUtf7.encode (dotted mailbox)).toList := by
      simp
    have hmem : ∀ c ∈ (ModifiedUtf7.encode (dotted mailbox)).toList,
        ModifiedUtf7.isDirect c = true ∧ c ≠ '/' := by
      intro c hc
      obtain ⟨hdirect, hslash⟩ := ModifiedUtf7.mem_encode hc
      exact ⟨hdirect, fun he => no_slash_dotted mailbox (hslash he)⟩
    rw [← dotted_eq_dot, ← ModifiedUtf7.encode_eq_dot, Ne, ← String.toList_inj, ← String.toList_inj,
      ← String.toList_inj, hlist]
    refine ⟨rfl, ?_, ?_, ?_, ?_⟩
    · intro he
      exact encode_dotted_ne_empty (Bool.eq_false_iff.2 hin) (List.cons.inj he).2
    · intro hc
      obtain hc | hc := List.mem_cons.1 hc
      · cases hc
      · exact (hmem _ hc).2 rfl
    · intro hc
      obtain hc | hc := List.mem_cons.1 hc
      · cases hc
      · exact absurd (hmem _ hc).1 (by decide)
    · exact List.cons_inj_right '.'

/-- What a host may answer: the names that it gives are names of files. -/
def Plain : (e : Effect) → e.Answer → Prop
  | .list _, .ok files => ∀ f ∈ files, IsName f
  | .freshName _, name => IsName name
  | _, _ => True

/-- An effect on files below a directory alone. -/
def Effect.Within (root : Path) : Effect → Prop
  | .isThere p | .read p | .write p _ | .makeDirectory p | .list p | .modified p
  | .setModified p _ => Below root p
  | .rename p q => Below root p ∧ Below root q
  | .freshName _ | .log _ | .mail _ _ => True

/-- Whatever a host may answer, a dialogue has no effects but below a directory, and ends with `post`. -/
def Stays (root : Path) (post : α → Prop) : Dialogue α → Prop
  | .done a => post a
  | .ask e next => Effect.Within root e ∧ ∀ a, Plain e a → Stays root post (next a)

variable {root dir : Path}

theorem Stays.bind {P : α → Prop} {Q : β → Prop} {p : Dialogue α} {f : α → Dialogue β}
    (h : Stays root P p) (hf : ∀ a, P a → Stays root Q (f a)) : Stays root Q (p >>= f) := by
  induction p with
  | done a => exact hf a h
  | ask e next ih => exact ⟨h.1, fun a ha => ih a (h.2 a ha)⟩

/-- An action stays below a directory, and ends with `post` if it succeeds. -/
def Confined (root : Path) (post : α → Prop) (x : ExceptT Failure Dialogue α) : Prop :=
  Stays root (fun r => ∀ a, r = .ok a → post a) x.run

theorem Confined.bind {P : α → Prop} {Q : β → Prop} {x : ExceptT Failure Dialogue α}
    {f : α → ExceptT Failure Dialogue β} (h : Confined root P x)
    (hf : ∀ a, P a → Confined root Q (f a)) : Confined root Q (x >>= f) := by
  refine Stays.bind h fun r hr => ?_
  cases r with
  | ok a => exact hf a (hr a rfl)
  | error e => exact fun b hb => nomatch hb

theorem Confined.pure {P : α → Prop} {a : α} (h : P a) : Confined root P (Pure.pure a) := by
  rintro _ ⟨⟩
  exact h

theorem Confined.throw {P : α → Prop} (f : Failure) : Confined root P (throw f) := by
  rintro _ ⟨⟩

theorem Confined.lift {P : α → Prop} {p : Dialogue α} (h : Stays root P p) :
    Confined root P (liftM p) := by
  refine Stays.bind h fun a ha => ?_
  rintro _ ⟨⟩
  exact ha

theorem confined_attempt {action : Dialogue (Except Refusal Unit)} (doing : String)
    (h : Stays root (fun _ => True) action) :
    Confined root (fun _ => True) (attempt doing action) := by
  refine (Confined.lift h).bind fun r _ => ?_
  cases r with
  | ok a => exact .pure trivial
  | error e => exact .throw _

theorem confined_attemptDelivery {action : Dialogue (Except Refusal Unit)}
    (h : Stays root (fun _ => True) action) :
    Confined root (fun _ => True) (attemptDelivery dir action) := by
  refine (Confined.lift h).bind fun r _ => ?_
  cases r with
  | ok a => exact .pure trivial
  | error e => exact .throw _

theorem confined_log {line : Log.Line} :
    Confined root (fun _ => True) (log line : ExceptT Failure Dialogue Unit) :=
  ⟨trivial, fun _ _ _ _ => trivial⟩

theorem isName_part (part : Part) : IsName part.name := by
  cases part <;> constructor <;> decide

theorem Below.within (h : Below root dir) (part : Part) : Below root (part.within dir) :=
  h.join (isName_part part)

theorem confined_makeParts (h : Below root dir) (parts : List Part) :
    Confined root (fun _ => True) (makeParts dir parts) := by
  induction parts with
  | nil => exact .pure trivial
  | cons part parts ih =>
    refine (confined_attempt _ ?_).bind fun _ _ => ih
    exact ⟨h.within part, fun _ _ => trivial⟩

theorem flagLetter?_ne {flag : String} {c : Char} (h : flagLetter? flag = some c) :
    c ≠ '/' ∧ c ≠ '\x00' := by
  unfold flagLetter? at h
  split at h <;> cases h <;> decide

theorem confined_flagLetters (flags : List String) :
    Confined root (fun cs => ∀ c ∈ cs, c ≠ '/' ∧ c ≠ '\x00') (flagLetters dir flags) := by
  induction flags with
  | nil => exact .pure fun c hc => nomatch hc
  | cons flag flags ih =>
    rw [flagLetters]
    split
    · next c hc =>
      refine ih.bind fun cs hcs => .pure fun d hd => ?_
      obtain rfl | hd := List.mem_cons.1 hd
      · exact flagLetter?_ne hc
      · exact hcs d hd
    · exact confined_log.bind fun _ _ => ih

theorem isName_flaggedName {id : String} {letters : List Char} (hslash : '/' ∉ id.toList)
    (hnul : '\x00' ∉ id.toList) (h : ∀ c ∈ letters, c ≠ '/' ∧ c ≠ '\x00') :
    IsName (flaggedName id letters) := by
  have hmem (c : Char) : c ∈ (flaggedName id letters).toList ↔
      c ∈ id.toList ∨ c ∈ infoMark ∨ c ∈ letters := by
    simp [flaggedName, mem_sortUnique]
  have hmark : ':' ∈ (flaggedName id letters).toList := (hmem _).2 (.inr (.inl (by decide)))
  have hne (n : String) (hn : ':' ∉ n.toList) : flaggedName id letters ≠ n := by
    rintro rfl
    exact hn hmark
  refine ⟨hne _ (by decide), hne _ (by decide), hne _ (by decide), ?_, ?_⟩
  · intro hc
    obtain hc | hc | hc := (hmem _).1 hc
    · exact hslash hc
    · exact absurd hc (by decide)
    · exact (h _ hc).1 rfl
  · intro hc
    obtain hc | hc | hc := (hmem _).1 hc
    · exact hnul hc
    · exact absurd hc (by decide)
    · exact (h _ hc).2 rfl

theorem confined_deliver {letters : List Char} (h : Below root dir) (message : Bytes)
    (hletters : ∀ c ∈ letters, c ≠ '/' ∧ c ≠ '\x00') :
    Confined root (fun _ => True) (deliver dir message letters) := by
  unfold deliver
  refine Confined.bind (P := IsName) ⟨trivial, ?_⟩ fun id hid => ?_
  · rintro id hid _ ⟨⟩
    exact hid
  have hdraft := (h.within .tmp).join hid
  refine (confined_attemptDelivery ?_).bind fun _ _ =>
    (confined_attemptDelivery ?_).bind fun _ _ => .pure trivial
  · exact ⟨hdraft, fun _ _ => trivial⟩
  · refine ⟨⟨hdraft, ?_⟩, fun _ _ => trivial⟩
    split
    · exact (h.within .new).join hid
    · exact (h.within .cur).join (isName_flaggedName hid.no_slash hid.no_nul hletters)

theorem confined_entries (h : Below root dir) (part : Part) :
    Confined root (fun es => ∀ e ∈ es, IsName e.file) (entries dir part) := by
  refine Confined.bind (P := fun r => ∀ files, r = .ok files → ∀ f ∈ files, IsName f)
    ⟨h.within part, ?_⟩ fun r hr => ?_
  · rintro r hr _ ⟨⟩ files rfl
    exact hr
  · cases r with
    | error e => exact .pure fun e he => nomatch he
    | ok files =>
      refine .pure fun e he => ?_
      obtain ⟨f, hf, rfl⟩ := List.mem_map.1 he
      rw [file_ofName]
      exact hr files rfl f (List.mem_filter.1 hf).1

theorem confined_messages (h : Below root dir) :
    Confined root (fun es => ∀ e ∈ es, IsName e.file) (messages dir) := by
  refine (confined_entries h .new).bind fun new hnew =>
    (confined_entries h .cur).bind fun cur hcur => .pure fun e he => ?_
  obtain he | he := List.mem_append.1 he
  · exact hnew e he
  · exact hcur e (List.mem_filter.1 he).1

theorem confined_setDate (h : Below root dir) (id : String) (date : Date) :
    Confined root (fun _ => True) (setDate dir id date) := by
  refine (confined_messages h).bind fun es hes => ?_
  split
  · next e he =>
    refine confined_attempt _ ⟨?_, fun _ _ => trivial⟩
    exact (h.within _).join (hes e (List.mem_of_find?_eq_some he))
  · exact .pure trivial

theorem confined_append (d : Delivery) (h : Below root (folder root d.mailbox)) :
    Confined root (fun _ => True) (append root d) := by
  refine (confined_makeParts h _).bind fun _ _ => (confined_flagLetters _).bind fun letters hletters =>
    (confined_deliver h _ hletters).bind fun id _ => ?_
  split
  · exact (confined_setDate h _ _).bind fun _ _ => confined_log
  · exact confined_log

/-- A folder is the maildir itself or one hidden directory in it, and a delivery touches nothing outside
the maildir, but for the mailboxes named by a dot or a slash alone: their directory is `..`. -/
theorem append_confined (root : Path) (d : Delivery) :
    ((isInbox d.mailbox = true ∧ folder root d.mailbox = root) ∨
      ∃ n, folder root d.mailbox = root.join n ∧ n.toList.head? = some '.' ∧ n ≠ "." ∧
        '/' ∉ n.toList ∧ '\x00' ∉ n.toList ∧ (n = ".." ↔ d.mailbox = "." ∨ d.mailbox = "/")) ∧
    (¬ (d.mailbox = "." ∨ d.mailbox = "/") → Confined root (fun _ => True) (append root d)) := by
  cases hn : folderName? d.mailbox with
  | none =>
    have hfolder : folder root d.mailbox = root := by
      rw [folder, hn]
    have hin : isInbox d.mailbox = true := by
      simpa [folderName?] using hn
    exact ⟨.inl ⟨hin, hfolder⟩, fun _ => confined_append d (hfolder.symm ▸ .root)⟩
  | some n =>
    have hfolder : folder root d.mailbox = root.join n := by
      rw [folder, hn]
    obtain ⟨hhead, hdot, hslash, hnul, hdots⟩ := folderName?_eq_some hn
    refine ⟨.inr ⟨n, hfolder, hhead, hdot, hslash, hnul, hdots⟩, fun hd => confined_append d ?_⟩
    have hempty : n ≠ "" := by
      rintro rfl
      cases hhead
    rw [hfolder]
    exact .join .root ⟨hempty, hdot, fun he => hd (hdots.1 he), hslash, hnul⟩

theorem append_draft_confined (message : Bytes) :
    ¬ ("../Entwürfe" = "." ∨ "../Entwürfe" = "/") ∧
      Confined "/var/mail/u" (fun _ => True)
        (append "/var/mail/u" ⟨"../Entwürfe", message, .empty, none⟩) := by
  have h : ¬ ("../Entwürfe" = "." ∨ "../Entwürfe" = "/") := by decide
  exact ⟨h, (append_confined "/var/mail/u" ⟨"../Entwürfe", message, .empty, none⟩).2 h⟩

/-- The folder of a slash is the directory that the maildir is in. -/
theorem folder_slash_escapes :
    ¬ (folder "/var/mail/u" "/" = "/var/mail/u" ∨
      ∃ n, folder "/var/mail/u" "/" = Path.join "/var/mail/u" n ∧ n.toList.head? = some '.' ∧
        n ≠ "." ∧ n ≠ ".." ∧ '/' ∉ n.toList ∧ '\x00' ∉ n.toList) := by
  have hfolder : folder "/var/mail/u" "/" = "/var/mail/u" ++ "/" ++ ".." := by cbv
  have hroot : ("/var/mail/u".isEmpty || "/var/mail/u".endsWith "/") = false := by cbv
  rw [hfolder]
  rintro (h | ⟨n, h, -, -, hn, -⟩)
  · exact absurd h (by decide)
  · rw [Path.join, hroot, if_neg Bool.false_ne_true, String.append_right_inj] at h
    exact hn h.symm

end MailSieve.Maildir
