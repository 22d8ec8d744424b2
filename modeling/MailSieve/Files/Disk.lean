import MailSieve.Files.Path
import MailSieve.Files.Refusal
import MailSieve.Text.Bytes

/-!
A disk: a tree of directories and files, each known by the names on the way to it from the top. The
actions on it are refused where a POSIX system refuses them.
-/

namespace MailSieve.Files

inductive Node where
  | directory
  | file (content : Bytes) (date : Int)
  deriving DecidableEq

/-- The names from the top of the disk down to a file. -/
abbrev Place := List String

/-- The files of a disk; the top is a directory that is not listed. -/
structure Disk where
  entries : List (Place × Node)

namespace Disk

def empty : Disk := ⟨[]⟩

def node? (d : Disk) (p : Place) : Option Node :=
  if p = [] then some .directory else d.entries.lookup p

def drop (d : Disk) (p : Place) : Disk := ⟨d.entries.filter fun e => e.1 != p⟩

def put (d : Disk) (p : Place) (n : Node) : Disk := ⟨(d.drop p).entries ++ [(p, n)]⟩

/-- The entries strictly below a place. -/
def below (d : Disk) (p : Place) : List (Place × Node) :=
  d.entries.filter fun e => p.isPrefixOf e.1 && e.1 != p

def names (d : Disk) (p : Place) : List String :=
  (d.below p).filterMap fun e =>
    match e.1.drop p.length with
    | [n] => some n
    | _ => none

/-- The longest name of a file, in bytes. -/
def longestName : Nat := 255

/-- The place that steps lead to from a place; only its last name may be missing. -/
def walk (d : Disk) (start : Place) : List String → Except Refusal Place
  | [] => .ok start
  | n :: ns =>
    match d.node? start with
    | none => .error .missing
    | some (.file ..) => .error .notDirectory
    | some .directory =>
      if n = "." then d.walk start ns
      else if n = ".." then d.walk start.dropLast ns
      else if longestName < n.utf8ByteSize then .error .nameTooLong
      else d.walk (start ++ [n]) ns

/-- Where the steps of a path start. -/
def origin (working : Place) (p : Path) : Place := if p.isAbsolute then [] else working

/-- Some paths are refused whatever the disk holds. -/
def checkPath (p : Path) : Except Refusal Unit :=
  if p.hasNul then .error .nulInName
  else if p.isEmpty then .error .missing
  else if Path.longest < p.utf8ByteSize then .error .nameTooLong
  else .ok ()

/-- There is a directory to hold the last step of a path. -/
def approach (d : Disk) (working : Place) (p : Path) : Except Refusal Unit := do
  checkPath p
  match d.node? (← d.walk (origin working p) p.steps.dropLast) with
  | some .directory => pure ()
  | some (.file ..) => throw .notDirectory
  | none => throw .missing

/-- The place of a path. -/
def locate (d : Disk) (working : Place) (p : Path) : Except Refusal Place := do
  checkPath p
  let place ← d.walk (origin working p) p.steps
  match d.node? place with
  | some (.file ..) => if p.endsInSlash then throw .notDirectory else pure place
  | _ => pure place

/-- The place of a path at which there is something. -/
def find (d : Disk) (working : Place) (p : Path) : Except Refusal (Place × Node) := do
  let place ← d.locate working p
  match d.node? place with
  | some n => pure (place, n)
  | none => throw .missing

def read (d : Disk) (working : Place) (p : Path) : Except Refusal Bytes := do
  match ← d.find working p with
  | (_, .file content _) => pure content
  | (_, .directory) => throw .isDirectory

def write (d : Disk) (working : Place) (now : Int) (p : Path) (content : Bytes) :
    Except Refusal Disk := do
  d.approach working p
  if p.endsInSlash then throw .isDirectory
  let place ← d.locate working p
  match d.node? place with
  | some .directory => throw .isDirectory
  | _ => pure (d.put place (.file content now))

def list (d : Disk) (working : Place) (p : Path) : Except Refusal (List String) := do
  match ← d.find working p with
  | (place, .directory) => pure (d.names place)
  | (_, .file ..) => throw .notDirectory

/-- When a file was last written; a directory counts as written `now`. -/
def modified (d : Disk) (working : Place) (now : Int) (p : Path) : Except Refusal Int := do
  match ← d.find working p with
  | (_, .file _ date) => pure date
  | (_, .directory) => pure now

def setModified (d : Disk) (working : Place) (p : Path) (date : Int) : Except Refusal Disk := do
  match ← d.find working p with
  | (place, .file content _) => pure (d.put place (.file content date))
  | (_, .directory) => throw .isDirectory

/-- Moves what is at `p` and below it to `q`. -/
def move (d : Disk) (p q : Place) : Disk :=
  ⟨d.entries.map fun e => if p.isPrefixOf e.1 then (q ++ e.1.drop p.length, e.2) else e⟩

/-- A file cannot take the place of a directory, nor a directory that of what is not an empty one. -/
def admitsReplacing (d : Disk) (source : Node) (target : Place) : Except Refusal Unit :=
  match source, d.node? target with
  | .file .., some .directory => .error .isDirectory
  | .directory, some (.file ..) => .error .notDirectory
  | .directory, some .directory => if (d.below target).isEmpty then .ok () else .error .notEmpty
  | _, _ => .ok ()

def rename (d : Disk) (working : Place) (p q : Path) : Except Refusal Disk := do
  d.approach working p
  d.approach working q
  unless p.endsInName && q.endsInName do throw .busy
  let source ← d.walk (origin working p) p.steps
  let some node := d.node? source | throw .missing
  let target ← d.walk (origin working q) q.steps
  if node != .directory && (p.endsInSlash || q.endsInSlash) then throw .notDirectory
  if source = target then pure d
  else
    if source.isPrefixOf target then throw .invalid
    if target.isPrefixOf source then throw .notEmpty
    d.admitsReplacing node target
    pure ((d.drop target).move source target)

/-- Makes the directories on the way from a place, those that are missing, up to a refusal. Once one was
missing, each of the others is made by itself. -/
def makeFrom (d : Disk) (alone : Bool) (start : Place) : List String → Disk × Except Refusal Unit
  | [] => (d, .ok ())
  | n :: ns =>
    if n = ".." then d.makeFrom alone start.dropLast ns
    else if longestName < n.utf8ByteSize then (d, .error .nameTooLong)
    else
      match d.node? (start ++ [n]) with
      | some .directory => d.makeFrom alone (start ++ [n]) ns
      | some (.file ..) => (d, .error (if ns.isEmpty || alone then .present else .notDirectory))
      | none => (d.put (start ++ [n]) .directory).makeFrom true (start ++ [n]) ns

/-- Makes a directory and those above it; what was made before a refusal stays. A directory whose path
ends in a dot is not made, only those above it. -/
def makeDirectory (d : Disk) (working : Place) (p : Path) : Disk × Except Refusal Unit :=
  match checkPath p with
  | .error .missing => (d, .ok ())
  | .error r => (d, .error r)
  | .ok () =>
    let start := origin working p
    if p.steps.getLast? = some "." then
      match d.approach working p with
      | .error .missing =>
        match d.makeFrom false start p.names.dropLast with
        | (d, .ok ()) => (d, d.approach working p)
        | refused => refused
      | found => (d, found)
    else d.makeFrom false start p.names

/-- Removes what is at a path and below it. -/
def remove (d : Disk) (working : Place) (p : Path) : Except Refusal Disk := do
  let (place, _) ← d.find working p
  pure ⟨d.entries.filter fun e => !place.isPrefixOf e.1⟩

/-- The entries below a path, by the names from there on; none if nothing is there. -/
def tree (d : Disk) (working : Place) (p : Path) : List (Place × Node) :=
  match d.locate working p with
  | .ok place => (d.below place).map fun e => (e.1.drop place.length, e.2)
  | .error _ => []

end Disk

end MailSieve.Files
