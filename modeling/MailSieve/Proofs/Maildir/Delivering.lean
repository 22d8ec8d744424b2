import MailSieve.Proofs.Files.Directories
import MailSieve.Proofs.Maildir.Marking

/-!
The actions of a delivery on a host: the parts of the folder are made, flags are read as letters, and the message
gets a name of its own, under which it is written and renamed.
-/

namespace MailSieve.Maildir

open Files Text

variable {h h' : Host} {dir : Path} {id : String} {letters : List Char} {message : Bytes} {date : Date} {e : Entry}

/-! ### Fresh names -/

/-- The name that a host gives to the next message, of so many bytes. -/
def nextName (h : Host) (size : Nat) : String := s!"{h.now}.N{h.given.length},S={size}"

theorem isDigit_of_mem_repr {n : Nat} {c : Char} (hc : c ∈ n.repr.toList) : c.isDigit = true := by
  rw [Nat.toList_repr] at hc
  exact Nat.isDigit_of_mem_toDigits (by decide) (by decide) hc

/-- A number is written in digits, after a sign. -/
theorem exists_repr_int (n : Int) :
    ∃ c cs, n.repr.toList = c :: cs ∧ ∀ x ∈ c :: cs, x = '-' ∨ x.isDigit = true := by
  cases n with
  | ofNat n =>
    obtain ⟨c, cs, hcs⟩ := List.exists_cons_of_ne_nil (Nat.toDigits_ne_nil (n := n) (b := 10))
    rw [← Nat.toList_repr] at hcs
    exact ⟨c, cs, hcs, fun x hx => .inr (isDigit_of_mem_repr (hcs ▸ hx))⟩
  | negSucc n =>
    refine ⟨'-', n.succ.repr.toList, String.toList_append, fun x hx => ?_⟩
    exact (List.mem_cons.1 hx).imp_right isDigit_of_mem_repr

theorem toList_nextName (h : Host) (size : Nat) : (nextName h size).toList =
    h.now.repr.toList ++ ['.', 'N'] ++ h.given.length.repr.toList ++ [',', 'S', '='] ++ size.repr.toList := by
  have hname : nextName h size =
      h.now.repr ++ ".N" ++ h.given.length.repr ++ ",S=" ++ size.repr := rfl
  have hdot : ".N".toList = ['.', 'N'] := by decide
  have hsize : ",S=".toList = [',', 'S', '='] := by decide
  rw [hname]
  simp only [String.toList_append, hdot, hsize]

theorem mem_nextName {size : Nat} {c : Char} (hc : c ∈ (nextName h size).toList) :
    c ∈ ['-', '.', 'N', ',', 'S', '='] ∨ c.isDigit = true := by
  have hdot : ['.', 'N'] ⊆ ['-', '.', 'N', ',', 'S', '='] := by simp
  have hsize : [',', 'S', '='] ⊆ ['-', '.', 'N', ',', 'S', '='] := by simp
  obtain ⟨x, xs, hnow, hsign⟩ := exists_repr_int h.now
  rw [toList_nextName, hnow] at hc
  simp only [List.mem_append] at hc
  obtain (((hc | hc) | hc) | hc) | hc := hc
  · exact (hsign c hc).imp_left fun h => by simp [h]
  · exact .inl (hdot hc)
  · exact .inr (isDigit_of_mem_repr hc)
  · exact .inl (hsize hc)
  · exact .inr (isDigit_of_mem_repr hc)

theorem not_mem_nextName {size : Nat} {c : Char} (hmark : c ∉ ['-', '.', 'N', ',', 'S', '='])
    (hdigit : c.isDigit = false) : c ∉ (nextName h size).toList := by
  intro hc
  obtain hc | hc := mem_nextName hc
  · exact hmark hc
  · rw [hdigit] at hc
    cases hc

theorem isName_nextName (h : Host) (size : Nat) : IsName (nextName h size) := by
  have hN : 'N' ∈ (nextName h size).toList := by
    rw [toList_nextName]
    simp
  have hne (n : String) (hn : 'N' ∉ n.toList) : nextName h size ≠ n := by
    rintro rfl
    exact hn hN
  exact ⟨hne _ (by decide), hne _ (by decide), hne _ (by decide), not_mem_nextName (by decide) (by decide),
    not_mem_nextName (by decide) (by decide)⟩

theorem isId_nextName (h : Host) (size : Nat) : IsId (nextName h size) := by
  refine cut?_eq_none_of_not_infix fun hmark => ?_
  exact not_mem_nextName (c := ':') (by decide) (by decide) (hmark.subset (by decide))

theorem head_nextName (h : Host) (size : Nat) : (nextName h size).toList.head? ≠ some '.' := by
  obtain ⟨c, cs, hnow, hsign⟩ := exists_repr_int h.now
  rw [toList_nextName, hnow]
  rintro ⟨⟩
  obtain h | h := hsign '.' List.mem_cons_self
  · cases h
  · cases h

/-! ### The actions of a delivery -/

theorem perform_makeDirectory_eq_ok {doing : String} {path : Path} {h' : Host} :
    h.perform (attempt doing (Files.makeDirectory path)) = (.ok (), h') ↔
      ∃ d, h.disk.makeDirectory h.working path = (d, .ok ()) ∧ h' = { h with disk := d } := by
  have hrun : (Files.makeDirectory path : StateM Host _).run h =
      ((h.disk.makeDirectory h.working path).2, { h with disk := (h.disk.makeDirectory h.working path).1 }) := rfl
  rw [Host.perform_attempt, hrun]
  rcases h.disk.makeDirectory h.working path with ⟨d, _ | ⟨⟨⟩⟩⟩
  · exact ⟨nofun, fun ⟨_, h, _⟩ => nomatch h⟩
  · constructor
    · rintro ⟨⟩
      exact ⟨d, rfl, rfl⟩
    · rintro ⟨_, ⟨⟩, rfl⟩
      rfl

theorem not_dot_within (part : Part) (dir : Path) : (part.within dir).steps.getLast? ≠ some "." := by
  rw [steps_within, List.getLast?_concat]
  exact fun h => (isName_part part).ne_dot (Option.some.inj h)

/-- The parts of a folder are directories once they are made. -/
theorem places_of_makeParts {parts : List Part} (hd : h.disk.IsTree)
    (hworking : h.disk.node? h.working = some .directory)
    (hmake : h.perform (makeParts dir parts) = (.ok (), h')) :
    ∃ d, h' = { h with disk := d } ∧ d.IsTree ∧ Disk.Extends h.disk d ∧
      ∀ part ∈ parts, ∃ p, d.find h.working (part.within dir) = .ok (p, .directory) := by
  induction parts generalizing h with
  | nil =>
    cases hmake
    exact ⟨_, rfl, hd, .refl _, nofun⟩
  | cons part parts ih =>
    rw [makeParts] at hmake
    obtain ⟨⟨⟩, h₁, hfirst, hmake⟩ := Host.perform_bind_eq_ok.1 hmake
    obtain ⟨d₁, hmade, rfl⟩ := perform_makeDirectory_eq_ok.1 hfirst
    obtain ⟨htree, hextend, p, hp⟩ :=
      hd.of_makeDirectory hworking (within_ne_empty _ _) (not_dot_within part dir) hmade
    obtain ⟨d, rfl, htree, hextend', hplaces⟩ :=
      ih (h := { h with disk := d₁ }) htree (hextend.directory hworking) hmake
    refine ⟨d, rfl, htree, hextend.trans hextend', fun x hx => ?_⟩
    obtain rfl | hx := List.mem_cons.1 hx
    · exact ⟨p, hextend'.find hp⟩
    · exact hplaces x hx

theorem perform_makeParts_of_there
    (hplaces : ∀ part : Part, ∃ p, h.disk.find h.working (part.within dir) = .ok (p, .directory))
    (parts : List Part) : h.perform (makeParts dir parts) = (.ok (), h) := by
  induction parts with
  | nil => rfl
  | cons part parts ih =>
    obtain ⟨p, hp⟩ := hplaces part
    have hthere := Disk.makeDirectory_of_find (not_dot_within part dir) hp
    exact Host.perform_bind_eq_ok.2 ⟨(), h, perform_makeDirectory_eq_ok.2 ⟨h.disk, hthere, rfl⟩, ih⟩

/-- Flags without a letter are only reported. -/
theorem perform_flagLetters (h : Host) (dir : Path) (flags : List String) :
    ∃ lines, h.perform (flagLetters dir flags) =
      (.ok (flags.filterMap flagLetter?), { h with lines := lines }) := by
  induction flags generalizing h with
  | nil => exact ⟨h.lines, rfl⟩
  | cons flag flags ih =>
    rw [flagLetters]
    cases hflag : flagLetter? flag with
    | none =>
      obtain ⟨lines, hrest⟩ := ih { h with lines := h.lines ++ [⟨.warn, .maildir, _⟩] }
      refine ⟨lines, ?_⟩
      rw [List.filterMap_cons_none hflag]
      exact hrest
    | some c =>
      obtain ⟨lines, hrest⟩ := ih h
      refine ⟨lines, ?_⟩
      rw [List.filterMap_cons_some hflag, Host.perform_bind, hrest]
      rfl

theorem plain_letters (flags : List String) : ∀ c ∈ flags.filterMap flagLetter?, c ≠ '/' ∧ c ≠ '\x00' := by
  intro c hc
  obtain ⟨flag, -, hflag⟩ := List.mem_filterMap.1 hc
  exact flagLetter?_ne hflag

theorem perform_attemptDelivery_eq_ok {f : Host → Except Refusal Disk} {h' : Host} :
    h.perform (attemptDelivery dir (Host.change f)) = (.ok (), h') ↔
      ∃ d, f h = .ok d ∧ h' = { h with disk := d } := by
  have hlift : h.perform (liftM (Host.change f) : ExceptT Failure (StateM Host) _) =
      (.ok ((Host.change f).run h).1, ((Host.change f).run h).2) := rfl
  rw [attemptDelivery, Host.perform_bind, hlift]
  cases hf : f h with
  | error r =>
    rw [Host.run_change_eq_error hf]
    exact ⟨nofun, fun ⟨_, h, _⟩ => nomatch h⟩
  | ok d =>
    rw [Host.run_change_eq_ok hf]
    constructor
    · rintro ⟨⟩
      exact ⟨d, rfl, rfl⟩
    · rintro ⟨_, ⟨⟩, rfl⟩
      rfl

/-- The entry of a message that is delivered with the letters of its flags. -/
def arrival (id : String) (letters : List Char) : Entry :=
  if letters.isEmpty then ⟨.new, id, id, none⟩
  else ⟨.cur, flaggedName id letters, id, some (sortUnique letters)⟩

theorem path_arrival (dir : Path) (id : String) (letters : List Char) : (arrival id letters).path dir =
    if letters.isEmpty then (Part.new.within dir).join id
    else (Part.cur.within dir).join (flaggedName id letters) := by
  unfold arrival
  split <;> rfl

/-- The path of a message that is being written. -/
def draft (dir : Path) (id : String) : Path := (Part.tmp.within dir).join id

/-- A delivery writes one file and renames it. -/
theorem perform_deliver_eq_ok {h' : Host} : h.perform (deliver dir message letters) = (.ok id, h') ↔
    id = nextName h message.length ∧ ∃ d d', h.disk.write h.working h.now (draft dir id) message = .ok d ∧
      d.rename h.working (draft dir id) ((arrival id letters).path dir) = .ok d' ∧
      h' = { h with disk := d', given := id :: h.given } := by
  have hfresh : h.perform (Files.freshName message.length : ExceptT Failure (StateM Host) String) =
      (.ok (nextName h message.length), { h with given := nextName h message.length :: h.given }) := rfl
  rw [deliver, Host.perform_bind, hfresh]
  dsimp only
  rw [← path_arrival, Host.perform_bind_eq_ok]
  constructor
  · rintro ⟨⟨⟩, h₁, hwritten, hrest⟩
    obtain ⟨d, hwrite, rfl⟩ := perform_attemptDelivery_eq_ok.1 hwritten
    obtain ⟨⟨⟩, h₂, hrenamed, hrest⟩ := Host.perform_bind_eq_ok.1 hrest
    obtain ⟨d', hrename, rfl⟩ := perform_attemptDelivery_eq_ok.1 hrenamed
    cases hrest
    exact ⟨rfl, d, d', hwrite, hrename, rfl⟩
  · rintro ⟨rfl, d, d', hwrite, hrename, rfl⟩
    refine ⟨(), _, perform_attemptDelivery_eq_ok.2 ⟨d, hwrite, rfl⟩, ?_⟩
    exact Host.perform_bind_eq_ok.2 ⟨(), _, perform_attemptDelivery_eq_ok.2 ⟨d', hrename, rfl⟩, rfl⟩

theorem perform_setDate_eq_ok (date : Date) {h' : Host}
    (hfind : (inbox h dir).find? (fun e => e.id = id) = some e) :
    h.perform (setDate dir id date) = (.ok (), h') ↔
      ∃ d, h.disk.setModified h.working (e.path dir) date = .ok d ∧ h' = { h with disk := d } := by
  rw [setDate, Host.perform_bind, perform_messages]
  dsimp only
  rw [hfind]
  exact Host.perform_change_eq_ok

end MailSieve.Maildir
