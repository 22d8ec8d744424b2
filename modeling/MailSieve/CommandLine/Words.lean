import MailSieve.Text.Split

/-!
Words of a command line, read against what a command takes: flags, options that have a value, and a
number of further words. The first word that settles what happens ends the reading.
-/

namespace MailSieve.CommandLine

/-- What the words after the name of a command may be. -/
structure Signature where
  flags : List String
  options : List String
  /-- How many words stand for themselves. -/
  arity : Nat

/-- Why the words are not read to their end. -/
inductive Exit where
  | misuse
  | help
  | version
  deriving DecidableEq

/-- What is needed to make sense of the words. -/
def require (a : Option α) : Except Exit α :=
  match a with
  | some a => .ok a
  | none => .error .misuse

/-- What was given to a command. -/
structure Given where
  flags : List String
  values : List (String × String)
  words : List String

namespace Given

def empty : Given := ⟨[], [], []⟩

/-- Adds a flag; none may be given twice, and two of them end the reading. -/
def addFlag (g : Given) (name : String) : Except Exit Given :=
  if name = "help" then .error .help
  else if name = "version" then .error .version
  else if name ∈ g.flags then .error .misuse
  else .ok { g with flags := name :: g.flags }

/-- Adds the value of an option; no option may be given twice. -/
def addValue (g : Given) (name value : String) : Except Exit Given :=
  if (g.values.lookup name).isSome then .error .misuse
  else .ok { g with values := (name, value) :: g.values }

/-- Adds a word that stands for itself. -/
def addWord (s : Signature) (g : Given) (word : String) : Except Exit Given :=
  if g.words.length < s.arity then .ok { g with words := g.words ++ [word] } else .error .misuse

end Given

/-- What a word can be. -/
inductive Word where
  | escape
  | long (name : String) (value : Option String)
  | short (letters : List Char)
  | plain (text : String)
  deriving DecidableEq

/-- Words with two dashes name a flag or option, and those with one are letters of flags; a dash alone
stands for itself, and two dashes make all that follows stand for itself. -/
def Word.ofString (w : String) : Word :=
  match w.toList with
  | ['-', '-'] => .escape
  | '-' :: '-' :: r =>
    match Text.cut? ['='] r with
    | some (name, value) => .long (.ofList name) (some (.ofList value))
    | none => .long (.ofList r) none
  | '-' :: c :: r => .short (c :: r)
  | _ => .plain w

/-- The names of flags that have a letter too. -/
def letterOf : List (Char × String) := [('v', "verbose"), ('V', "version"), ('h', "help")]

/-- Adds a flag that the signature has. -/
def addNamed (s : Signature) (g : Given) (name : String) : Except Exit Given :=
  if name ∈ s.flags then g.addFlag name else .error .misuse

/-- Adds the flags of some letters. -/
def addLetters (s : Signature) (g : Given) (letters : List Char) : Except Exit Given :=
  letters.foldlM (fun g c => do addNamed s g (← require (letterOf.lookup c))) g

/-- Reads the words of a command as far as they fit its signature. -/
def readWords (s : Signature) : Given → List String → Except Exit Given
  | g, [] => .ok g
  | g, w :: ws =>
    match Word.ofString w with
    | .escape => ws.foldlM (Given.addWord s) g
    | .plain t => do readWords s (← g.addWord s t) ws
    | .short cs => do readWords s (← addLetters s g cs) ws
    | .long name (some value) => do
      if name ∈ s.options then readWords s (← g.addValue name value) ws else .error .misuse
    | .long name none =>
      if name ∈ s.options then
        match ws with
        | [] => .error .misuse
        | v :: ws =>
          match Word.ofString v with
          | .plain value => do readWords s (← g.addValue name value) ws
          | _ => .error .misuse
      else do readWords s (← addNamed s g name) ws

end MailSieve.CommandLine
