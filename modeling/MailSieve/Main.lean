import MailSieve.CommandLine.Run

/-!
The program on the machine it is started on. The runtime cannot set the date of a file, so messages
keep the date at which they are delivered here, and it serves no sockets, so the daemon forwards
without a status endpoint.
-/

namespace MailSieve

open Files CommandLine

/-- The number of a refusal, which the runtime may give with its sign reversed. -/
def unsignedCode (n : UInt32) : Nat := if n.toNat < Nat.pow 2 31 then n.toNat else UInt32.size - n.toNat

/-- The number and the text of a refusal by the system. -/
def refusalParts : IO.Error → Nat × String
  | .alreadyExists _ n t | .invalidArgument _ n t | .permissionDenied _ n t
  | .resourceExhausted _ n t | .inappropriateType _ n t | .noSuchThing _ n t
  | .interrupted _ n t | .noFileOrDirectory _ n t => (unsignedCode n, t)
  | .otherError n t | .resourceBusy n t | .resourceVanished n t | .unsupportedOperation n t
  | .hardwareFault n t | .unsatisfiedConstraints n t | .illegalOperation n t
  | .protocolError n t | .timeExpired n t => (unsignedCode n, t)
  | .unexpectedEof => (0, "unexpected end of file")
  | .userError t => (0, t)

def refusalOf (e : IO.Error) : Refusal :=
  match refusalParts e with
  | (2, _) => .missing
  | (16, _) => .busy
  | (17, _) => .present
  | (20, _) => .notDirectory
  | (21, _) => .isDirectory
  | (22, _) => .invalid
  | (36, _) => .nameTooLong
  | (39, _) => .notEmpty
  | (n, t) => .other t n

def tryIO (x : IO α) : IO (Except Refusal α) := do
  try pure (.ok (← x)) catch e => pure (.error (refusalOf e))

instance : Files IO where
  isThere p := return ← ((← IO.currentDir) / p).pathExists
  read p := tryIO do return (← IO.FS.readBinFile p).toList
  write p b := tryIO (IO.FS.writeBinFile p ⟨b.toArray⟩)
  rename p q := tryIO (IO.FS.rename p q)
  makeDirectory p := tryIO (IO.FS.createDirAll p)
  list p := tryIO do return (← ((← IO.currentDir) / p).readDir).toList.map fun e => e.fileName
  modified p := tryIO do return (← ((← IO.currentDir) / p).metadata).modified.sec
  setModified _ _ := pure (.ok ())
  freshName k := return s!"{← IO.monoNanosNow}.R{← IO.rand 0 1000000000},S={k}"

instance : Terminal IO where
  output t := IO.print t
  message t := IO.eprint t

/-- The variables that settings fall back on. -/
def fallbacks : List String :=
  ["SOURCE_MAILDIR", "DEST_MAILDIR", "DB_FILE", "FILTER_SCRIPT", "SYNC_INTERVAL_MS",
    "PROCESS_TIMEOUT_MS", "STATUS_ADDRESS", "RUST_LOG"]

def readEnvironment : IO Environment := do
  let values ← fallbacks.mapM fun n => return (n, ← IO.getEnv n)
  return values.filterMap fun (n, v) => v.map fun v => (n, v)

/-- One pass of the daemon; a pass that fails is reported. -/
def watchOnce (s : DaemonSettings) : Shell IO Unit := do
  match ← (forward s.forward : ExceptT Failure (Shell IO) Unit).run with
  | .ok () => pure ()
  | .error e => log ⟨.error, .daemon, s!"forwarding error: {e.message}"⟩

partial def watch (shown : Log.Selection) (s : DaemonSettings) : IO Unit := do
  watchOnce s shown
  IO.sleep s.interval.toUInt32
  watch shown s

end MailSieve

def main (args : List String) : IO UInt32 := do
  match ← MailSieve.CommandLine.run (← MailSieve.readEnvironment) args with
  | .exit code => return code.toUInt32
  | .watch shown s =>
    MailSieve.watch shown s
    return 0
