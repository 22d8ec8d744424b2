import MailSieve.Forward.Mailbox
import MailSieve.Maildir.Entry
import MailSieve.Maildir.Folder
import MailSieve.Text.Quoted

/-!
A maildir as a mailbox: one file a message, moved from `new` to `cur` when it is seen. Messages are
found in the maildir itself, and appended to any of its folders.
-/

namespace MailSieve.Maildir

open Files Text

variable {m : Type → Type} [Monad m] [Files m]

/-- The entries of a part of a maildir; there are none in a directory that cannot be listed. -/
def entries (root : Path) (part : Part) : m (List Entry) := do
  match ← Files.list (part.within root) with
  | .ok files => pure ((files.filter fun f => !Entry.isHidden f).map (Entry.ofName part))
  | .error _ => pure []

/-- The messages of a maildir, those that are new first. -/
def messages (root : Path) : m (List Entry) := do
  let new ← entries root .new
  let cur ← entries root .cur
  pure (new ++ cur.filter fun e => !e.isStray)

/-- Identifiers in ascending order; one that occurs more than once is kept so. -/
def sortIds (ids : List String) : List String := ids.mergeSort fun a b => decide (a ≤ b)

/-- A stray file in `cur` leaves no message listed. -/
def unseen (root : Path) : ExceptT Failure m (List String) := do
  let new ← entries root .new
  let cur ← entries root .cur
  if cur.any Entry.isStray then throw ⟨[s!"listing {root}"], .strayEntry⟩
  pure (sortIds ((new ++ cur.filter fun e => !e.isSeen).map Entry.id))

/-- The first message that has an identifier. -/
def find (root : Path) (id : String) : ExceptT Failure m Entry := do
  match (← messages root).find? fun e => e.id = id with
  | some e => pure e
  | none => throw ⟨[], .noMessage id root⟩

def fetch (root : Path) (id : String) : ExceptT Failure m Bytes := do
  let path := (← find root id).path root
  attempt s!"reading {path}" (Files.read path)

def received (root : Path) (id : String) : ExceptT Failure m Date := do
  let path := (← find root id).path root
  attempt s!"reading date of {path}" (Files.modified path)

/-- Gives a message the flag of being seen. One in `new` is taken to be the file named by its
identifier, so one whose name has flags there cannot be marked. -/
def markSeen (root : Path) (id : String) : ExceptT Failure m Unit := do
  let entry ← find root id
  let path := entry.path root
  let marked (flags : List Char) : Path := (Part.cur.within root).join (flaggedName id flags)
  attempt s!"marking {path} seen" <|
    match entry.part with
    | .new => Files.rename ((Part.new.within root).join id) (marked ['S'])
    | _ => Files.rename path (marked ('S' :: entry.flags.getD []))

section

variable [Logger m]

/-- The letters of flags; flags that have none are reported. -/
def flagLetters (dir : Path) : List String → m (List Char)
  | [] => pure []
  | f :: fs => do
    match flagLetter? f with
    | some c => return c :: (← flagLetters dir fs)
    | none =>
      log ⟨.warn, .maildir, s!"{dir}: keyword {quote f} not representable, skipped"⟩
      flagLetters dir fs

def makeParts (dir : Path) : List Part → ExceptT Failure m Unit
  | [] => pure ()
  | p :: ps => do
    attempt s!"creating {dir}" (Files.makeDirectory (p.within dir))
    makeParts dir ps

/-- An action on the way to a delivery. -/
def attemptDelivery (dir : Path) (action : m (Except Refusal α)) : ExceptT Failure m α := do
  match ← action with
  | .ok a => pure a
  | .error r => throw ⟨[s!"delivering to {dir}", s!"IO Error: {r.message}"], .refused r⟩

/-- Puts a message into a folder under a fresh identifier: into `cur` if it has flags, else into
`new`. It is written in `tmp` first, so that it appears whole. -/
def deliver (dir : Path) (message : Bytes) (letters : List Char) : ExceptT Failure m String := do
  let id ← Files.freshName message.length
  let draft := (Part.tmp.within dir).join id
  let place :=
    if letters.isEmpty then (Part.new.within dir).join id
    else (Part.cur.within dir).join (flaggedName id letters)
  attemptDelivery dir (Files.write draft message)
  attemptDelivery dir (Files.rename draft place)
  pure id

def setDate (dir : Path) (id : String) (date : Date) : ExceptT Failure m Unit := do
  match (← messages dir).find? fun e => e.id = id with
  | some e =>
    let path := e.path dir
    attempt s!"setting date of {path}" (Files.setModified path date)
  | none => pure ()

def append (root : Path) (d : Delivery) : ExceptT Failure m Unit := do
  let dir := folder root d.mailbox
  makeParts dir [.cur, .new, .tmp]
  let letters ← flagLetters dir d.flags.items
  let id ← deliver dir d.message letters
  if let some date := d.date then setDate dir id date
  log ⟨.debug, .maildir, s!"appended {id} to {dir}"⟩

def mailbox (root : Path) : Mailbox m where
  unseen := unseen root
  fetch := fetch root
  received := received root
  markSeen := markSeen root
  append := append root

end

end MailSieve.Maildir
