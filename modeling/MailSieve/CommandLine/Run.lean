import MailSieve.CommandLine.Invocation
import MailSieve.Filter.Load
import MailSieve.Forward.Pass
import MailSieve.Log.Rules
import MailSieve.Maildir.Store
import MailSieve.Script.Outline
import MailSieve.Text.SocketAddress

/-!
The commands of the program, run on any host that has files and a terminal.
-/

namespace MailSieve.CommandLine

open Files MailSieve.Filter Forward Mail

/-- A terminal takes output and messages. -/
class Terminal (m : Type → Type) where
  output : String → m Unit
  message : String → m Unit

instance [MonadLift m n] [Terminal m] : Terminal n where
  output t := liftM (Terminal.output t : m _)
  message t := liftM (Terminal.message t : m _)

/-- Puts out a line. -/
def say [Terminal m] (line : String) : m Unit := Terminal.output (line ++ "\n")

/-- Puts out a line as a message. -/
def complain [Terminal m] (line : String) : m Unit := Terminal.message (line ++ "\n")

/-- A host whose log goes to the terminal, as far as it is selected. -/
def Shell (m : Type → Type) (α : Type) : Type := ReaderT Log.Selection m α

namespace Shell

instance [Monad m] : Monad (Shell m) := inferInstanceAs (Monad (ReaderT Log.Selection m))

instance : MonadLift m (Shell m) := ⟨fun x _ => x⟩

instance [Monad m] [Terminal m] : Logger (Shell m) where
  log l shown := if shown.shows l then Terminal.message l.render else pure ()

end Shell

section

variable {m : Type → Type} [Monad m]

def sayAll [Terminal m] : List String → m Unit
  | [] => pure ()
  | l :: ls => do say l; sayAll ls

variable [Files m]

def checkScript [Terminal m] (script : Path) : ExceptT Failure m Unit := do
  sayAll (Script.outline (← loadFilter script))

/-- Reads a message from a file. -/
def readMessage (file : Path) : ExceptT Failure m Mail.Message := do
  match Mail.Message.read? (← attempt s!"reading {file}" (Files.read file)) with
  | some message => pure message
  | none => throw ⟨[], .unreadableMessage⟩

/-- Where a line about an evaluation goes: to the output if it is asked for, else to the log. -/
def reportTrace [Terminal m] [Logger m] (trace : Bool) (line : String) : m Unit :=
  if trace then say ("  " ++ line) else log ⟨.debug, .evaluator, line⟩

def reportTraces [Terminal m] [Logger m] (trace : Bool) : List String → m Unit
  | [] => pure ()
  | l :: ls => do reportTrace trace l; reportTraces trace ls

/-- Shows what a script decides about a message. -/
def testScript [Terminal m] [Logger m] (script file : Path) (trace : Bool) :
    ExceptT Failure m Unit := do
  let program ← loadFilter script
  let message ← readMessage file
  let run := Filter.run program message.lookup
  reportTraces trace run.lines
  match run.outcome with
  | .error u => throw ⟨[], .unsupported u⟩
  | .ok d =>
    say s!"keep:     {d.keeps}"
    say s!"mailbox:  {d.mailbox}"
    say ("flags:    " ++ " ".intercalate d.flags.items)

/-- The lines that show a header: its text, and the addresses in it. -/
def describeField (name : String) (v : FieldValue) : List String :=
  s!"{name}: {v.shown}" ::
    match v with
    | .text _ => []
    | .addresses as => as.map fun a => s!"    address {Text.quote a.address}"

/-- Shows the headers of a message as filters see them. -/
def dumpMessage [Terminal m] (file : Path) : ExceptT Failure m Unit := do
  let message ← readMessage file
  sayAll (message.names.flatMap fun n => (message.lookup n).flatMap (describeField n))

/-- The filter of a pass; a script that cannot be loaded is reported, and the pass goes on without. -/
def loadFilterOrNone [Logger m] : Option Path → m (Option Script.Program)
  | none => pure none
  | some p => do
    match ← (loadFilter p).run with
    | .ok program => pure (some program)
    | .error e =>
      log ⟨.error, .commandLine, s!"ignoring filter script: {e.message}"⟩
      pure none

/-- One pass from one maildir to another. -/
def forward [Logger m] (s : ForwardSettings) : ExceptT Failure m Unit := do
  let filter ← liftM (loadFilterOrNone s.script : m _)
  let ledger ← Ledger.load s.ledger
  let pass := forwardUnseen (Maildir.mailbox s.source) (Maildir.mailbox s.destination) filter
  let (result, _) ← liftM (pass.run.run ledger : m _)
  let stats ← liftExcept result
  log ⟨.info, .commandLine,
    s!"forwarded {stats.forwarded}, discarded {stats.discarded}, duplicates {stats.duplicates}"⟩

/-- Runs a command, and gives the settings of a daemon that is to go on. -/
def execute [Terminal m] [Logger m] : Command → ExceptT Failure m (Option DaemonSettings)
  | .check script => do checkScript script; pure none
  | .test script file trace => do testScript script file trace; pure none
  | .dump file => do dumpMessage file; pure none
  | .forward s => do forward s; pure none
  | .daemon s =>
    if Text.SocketAddress.isValid s.address then pure (some s) else throw ⟨[], .invalidAddress⟩

end

/-- How a run of the program ends: with a code, or by forwarding from time to time. -/
inductive Ending where
  | exit (code : Nat)
  | watch (shown : Log.Selection) (s : DaemonSettings)

def versionLine : String := "sievefwd 0.1.0"

def usage : List String :=
  ["Usage: sievefwd [-v] COMMAND",
    "  check SCRIPT", "  test SCRIPT FILE [--trace]", "  dump FILE",
    "  forward --source DIR --dest DIR [--db FILE] [--script FILE]",
    "  daemon --source DIR --dest DIR [--db FILE] [--script FILE]",
    "    [--interval MS] [--timeout MS] [--status ADDRESS]"]

variable {m : Type → Type} [Monad m] [Terminal m]

def complainAll : List String → m Unit
  | [] => pure ()
  | l :: ls => do complain l; complainAll ls

/-- What of the log is shown: the level that the command line asks for, and what the environment does. -/
def logSpec (env : Environment) (verbose : Bool) : Log.Spec :=
  let level : Log.Level := if verbose then .debug else .info
  .read [⟨none, level.rank⟩] ((env.lookup "RUST_LOG").getD "")

/-- Runs the program on the words of its command line. -/
def run [Files m] (env : Environment) (args : List String) : m Ending := do
  match readLine env .empty args with
  | .error .misuse => complainAll usage; pure (.exit 2)
  | .error .help => sayAll usage; pure (.exit 0)
  | .error .version => say versionLine; pure (.exit 0)
  | .ok i =>
    let spec := logSpec env i.verbose
    complainAll (spec.warnings.map fun w => s!"warning: {w}, ignoring it")
    match ← (execute i.command : ExceptT Failure (Shell m) _).run spec.selection with
    | .ok none => pure (.exit 0)
    | .ok (some s) => pure (.watch spec.selection s)
    | .error e => complain s!"error: {e.message}"; pure (.exit 1)

end MailSieve.CommandLine
