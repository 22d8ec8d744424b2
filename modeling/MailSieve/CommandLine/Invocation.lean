import MailSieve.CommandLine.Words
import MailSieve.Files.Path

/-!
Invocations: which command is to run, and on what. A setting is taken from its option, else from its
variable in the environment, else from its default.
-/

namespace MailSieve.CommandLine

open Files

/-- The variables of the environment and their values. -/
abbrev Environment := List (String × String)

structure ForwardSettings where
  source : Path
  destination : Path
  ledger : Path
  script : Option Path
  deriving DecidableEq

structure DaemonSettings where
  forward : ForwardSettings
  interval : UInt64
  timeout : UInt64
  address : String
  deriving DecidableEq

inductive Command where
  | check (script : Path)
  | test (script file : Path) (trace : Bool)
  | dump (file : Path)
  | forward (s : ForwardSettings)
  | daemon (s : DaemonSettings)
  deriving DecidableEq

/-- A command, and whether its log shows everything. -/
structure Invocation where
  verbose : Bool
  command : Command
  deriving DecidableEq

/-- The value of a setting, if it has one. -/
def setting? (env : Environment) (g : Given) (option name : String) : Option String :=
  match g.values.lookup option with
  | some v => some v
  | none => env.lookup name

/-- A value of some form, the default if there is none, and nothing if it has another form. -/
def readSetting (read : String → Option α) (fallback : Option α) : Option String → Option α
  | some v => read v
  | none => fallback

/-- Paths have at least one character. -/
def path? (s : String) : Option Path := if s.isEmpty then none else some s

/-- A number below 2^64 in decimal digits, with or without a plus sign. -/
def number? (s : String) : Option UInt64 :=
  let digits :=
    match s.toList with
    | '+' :: r => r
    | r => r
  if digits.isEmpty || !digits.all Char.isDigit then none
  else
    let n : Nat := digits.foldl (fun n c => n * 10 + (c.toNat - '0'.toNat)) 0
    if n < UInt64.size then some n.toUInt64 else none

def ForwardSettings.options : List String := ["source", "dest", "db", "script"]

def ForwardSettings.read (env : Environment) (g : Given) : Option ForwardSettings := do
  let source ← readSetting path? none (setting? env g "source" "SOURCE_MAILDIR")
  let destination ← readSetting path? none (setting? env g "dest" "DEST_MAILDIR")
  let ledger ← readSetting path? (some "sievefwd.json") (setting? env g "db" "DB_FILE")
  let script ←
    readSetting (fun s => (path? s).map some) (some none) (setting? env g "script" "FILTER_SCRIPT")
  pure ⟨source, destination, ledger, script⟩

def DaemonSettings.read (env : Environment) (g : Given) : Option DaemonSettings := do
  let forward ← ForwardSettings.read env g
  let interval ←
    readSetting number? (some 60000) (setting? env g "interval" "SYNC_INTERVAL_MS")
  let timeout ←
    readSetting number? (some 60000) (setting? env g "timeout" "PROCESS_TIMEOUT_MS")
  let address := (setting? env g "status" "STATUS_ADDRESS").getD "0.0.0.0:3000"
  pure ⟨forward, interval, timeout, address⟩

def signature? : String → Option Signature
  | "check" => some ⟨[], [], 1⟩
  | "test" => some ⟨["trace"], [], 2⟩
  | "dump" => some ⟨[], [], 1⟩
  | "forward" => some ⟨[], ForwardSettings.options, 0⟩
  | "daemon" => some ⟨[], ForwardSettings.options ++ ["interval", "timeout", "status"], 0⟩
  | _ => none

def readCommand (env : Environment) (name : String) (g : Given) : Option Command := do
  match name, ← g.words.mapM path? with
  | "check", [script] => pure (.check script)
  | "test", [script, file] => pure (.test script file ("trace" ∈ g.flags))
  | "dump", [file] => pure (.dump file)
  | "forward", [] => return .forward (← ForwardSettings.read env g)
  | "daemon", [] => return .daemon (← DaemonSettings.read env g)
  | _, _ => none

/-- Every command takes the flags for verbosity and help. -/
def commonFlags : List String := ["verbose", "help"]

/-- Reads the words from the name of a command on. -/
def readNamed (env : Environment) (verbose : Bool) (name : String) (ws : List String) :
    Except Exit Invocation := do
  let s ← require (signature? name)
  let g ← readWords { s with flags := commonFlags ++ s.flags } .empty ws
  if g.words.length < s.arity then .error .misuse
  else return ⟨verbose || "verbose" ∈ g.flags, ← require (readCommand env name g)⟩

/-- What may stand before the name of a command. -/
def leadingSignature : Signature := ⟨"version" :: commonFlags, [], 0⟩

/-- Reads the whole command line, after what was given before the name of the command. -/
def readLine (env : Environment) (g : Given) : List String → Except Exit Invocation
  | [] => .error .misuse
  | w :: ws =>
    match Word.ofString w with
    | .escape => .error .misuse
    | .plain "help" => .error (if ws.all fun n => (signature? n).isSome then .help else .misuse)
    | .plain name => readNamed env ("verbose" ∈ g.flags) name ws
    | .short cs => do readLine env (← addLetters leadingSignature g cs) ws
    | .long name none => do readLine env (← addNamed leadingSignature g name) ws
    | .long _ (some _) => .error .misuse

end MailSieve.CommandLine
