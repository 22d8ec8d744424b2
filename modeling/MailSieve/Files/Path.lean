import MailSieve.Text.Split

/-!
Paths of files: texts whose names are divided by slashes.
-/

namespace MailSieve.Files

abbrev Path := String

namespace Path

/-- A name below a directory; the empty path is the working directory. -/
def join (dir : Path) (name : String) : Path :=
  if dir.isEmpty || dir.endsWith "/" then dir ++ name else dir ++ "/" ++ name

def isAbsolute (p : Path) : Bool := p.startsWith "/"

/-- The steps on the way to a file, each a name, a dot or two dots; empty names lead nowhere. -/
def steps (p : Path) : List String :=
  ((Text.pieces '/' p.toList).map String.ofList).filter fun n => n != ""

/-- The steps that lead somewhere: single dots do not. -/
def names (p : Path) : List String := p.steps.filter (· != ".")

/-- A path that ends in a slash can only be a directory. -/
def endsInSlash (p : Path) : Bool := p.endsWith "/"

/-- The last step is a name, and no dots. -/
def endsInName (p : Path) : Bool :=
  match p.steps.getLast? with
  | some n => n != "." && n != ".."
  | none => false

/-- The longest path, in bytes. -/
def longest : Nat := 4095

def hasNul (p : Path) : Bool := p.any (· == '\x00')

end Path

end MailSieve.Files
