import MailSieve.Files.Access
import MailSieve.Files.Disk

/-!
A host held as a value: a disk, the working directory, and the lines of its log. Programs for any host
run on it without effects.
-/

namespace MailSieve.Files

structure Host where
  disk : Disk
  working : Place
  /-- The date that files get when they are written. -/
  now : Date
  /-- The names that were given to messages, latest first. -/
  given : List String
  lines : List Log.Line

namespace Host

def empty (working : Place) (now : Date) : Host := ⟨.empty, working, now, [], []⟩

/-- An answer that the disk gives. -/
def ask (f : Disk → Place → Except Refusal α) : StateM Host (Except Refusal α) :=
  return f (← get).disk (← get).working

/-- A change of the disk, unless it is refused. -/
def change (f : Host → Except Refusal Disk) : StateM Host (Except Refusal Unit) := do
  let h ← get
  match f h with
  | .ok d => set { h with disk := d }; pure (.ok ())
  | .error r => pure (.error r)

def makeDirectory (p : Path) : StateM Host (Except Refusal Unit) := do
  let h ← get
  let (d, r) := h.disk.makeDirectory h.working p
  set { h with disk := d }
  pure r

/-- A name that starts with the date and ends with the size; a running number sets it apart. -/
def freshName (size : Nat) : StateM Host String := do
  let h ← get
  let name := s!"{h.now}.N{h.given.length},S={size}"
  set { h with given := name :: h.given }
  pure name

instance : Files (StateM Host) where
  isThere p := return (← ask fun d w => d.find w p).toOption.isSome
  read p := ask fun d w => d.read w p
  write p b := change fun h => h.disk.write h.working h.now p b
  rename p q := change fun h => h.disk.rename h.working p q
  makeDirectory p := makeDirectory p
  list p := ask fun d w => d.list w p
  modified p := do
    let now := (← get).now
    ask fun d w => d.modified w now p
  setModified p t := change fun h => h.disk.setModified h.working p t
  freshName k := freshName k

instance : Logger (StateM Host) where
  log l := modify fun h => { h with lines := h.lines ++ [l] }

end Host

end MailSieve.Files
