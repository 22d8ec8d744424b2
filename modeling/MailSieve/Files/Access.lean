import MailSieve.Files.Path
import MailSieve.Files.Refusal
import MailSieve.Log
import MailSieve.Text.Bytes

/-!
What a host offers: its files, and a log. An action on files that is refused changes nothing, except
that directories made on the way to another stay.
-/

namespace MailSieve.Files

/-- Seconds since 1970. -/
abbrev Date := Int

/-- The files of a host, reached by actions in `m`. -/
class Files (m : Type → Type) where
  isThere : Path → m Bool
  read : Path → m (Except Refusal Bytes)
  /-- Puts a file in place of whatever file is there. -/
  write : Path → Bytes → m (Except Refusal Unit)
  /-- Moves a file or directory, in place of a file or an empty directory. -/
  rename : Path → Path → m (Except Refusal Unit)
  /-- Makes a directory and those above it, unless they are there. -/
  makeDirectory : Path → m (Except Refusal Unit)
  /-- The names in a directory, in no particular order. -/
  list : Path → m (Except Refusal (List String))
  modified : Path → m (Except Refusal Date)
  setModified : Path → Date → m (Except Refusal Unit)
  /-- A name for a message of so many bytes that no file has had before. -/
  freshName : Nat → m String

/-- A log takes lines. -/
class Logger (m : Type → Type) where
  log : Log.Line → m Unit

export Logger (log)

instance [MonadLift m n] [Files m] : Files n where
  isThere p := liftM (Files.isThere p : m _)
  read p := liftM (Files.read p : m _)
  write p b := liftM (Files.write p b : m _)
  rename p q := liftM (Files.rename p q : m _)
  makeDirectory p := liftM (Files.makeDirectory p : m _)
  list p := liftM (Files.list p : m _)
  modified p := liftM (Files.modified p : m _)
  setModified p d := liftM (Files.setModified p d : m _)
  freshName k := liftM (Files.freshName k : m _)

instance [MonadLift m n] [Logger m] : Logger n where
  log l := liftM (log l : m _)

end MailSieve.Files
