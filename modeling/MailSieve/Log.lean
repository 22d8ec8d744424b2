/-!
Log lines, and the choice of those that are shown.
-/

namespace MailSieve.Log

inductive Level where | error | warn | info | debug
  deriving DecidableEq

def Level.name : Level → String
  | .error => "ERROR"
  | .warn => "WARN"
  | .info => "INFO"
  | .debug => "DEBUG"

/-- How much a level lets through; more than any level is everything. -/
def Level.rank : Level → Nat
  | .error => 1
  | .warn => 2
  | .info => 3
  | .debug => 4

/-- The part of the program that speaks. -/
inductive Target where | library | forward | maildir | commandLine | evaluator | daemon
  deriving DecidableEq

def Target.name : Target → String
  | .library => "sievefwd"
  | .forward => "sievefwd::forward"
  | .maildir => "sievefwd::maildir"
  | .commandLine => "sievefwd::cli"
  | .evaluator => "sievefwd::evaluator"
  | .daemon => "sievefwd::daemon"

structure Line where
  level : Level
  target : Target
  text : String
  deriving DecidableEq

end MailSieve.Log
