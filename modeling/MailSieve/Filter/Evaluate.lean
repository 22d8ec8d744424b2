import MailSieve.Filter.Decision
import MailSieve.Filter.Run
import MailSieve.Mail.Header

/-!
Running a script on a message. Commands run in order on one decision: the last verdict and the last
destination stand, flags add up. Comparisons are between lowercased texts.
-/

namespace MailSieve.Filter

open Script Mail Text

/-- What keeps a header test from being evaluated. -/
def unsupportedHeader? (t : HeaderTest) : Option Tag :=
  if t.comparator.isSome then some .comparator
  else
    match t.matchType.getD .is with
    | .contains => none
    | m => some (.matchType m)

/-- What keeps an address test from being evaluated. -/
def unsupportedAddress? (t : AddressTest) : Option Tag :=
  if t.comparator.isSome then some .comparator
  else
    match t.part with
    | some p => some (.part p)
    | none =>
      match t.matchType.getD .is with
      | .is => none
      | m => some (.matchType m)

def find (lookup : Lookup) (name : String) : Run (List FieldValue) := do
  Run.emit (.lookup (lowercase name))
  return lookup (lowercase name)

def containsKey (text key : String) : Bool :=
  occursIn (lowercase key).toList (lowercase text).toList

def checkHeader (name key : String) (v : FieldValue) : Run Bool := do
  let holds := containsKey v.shown key
  Run.emit (.header name v.shown key holds)
  return holds

def checkAddress (name key : String) (a : Address) : Run Bool := do
  let holds := lowercase a.address == lowercase key
  Run.emit (.address name a.address key holds)
  return holds

def evalHeader (lookup : Lookup) (t : HeaderTest) : Run Bool :=
  match unsupportedHeader? t with
  | some tag => Run.fail ⟨.header, tag⟩
  | none =>
    Run.any (fun name => do
      let values ← find lookup name
      Run.any (fun key => Run.any (checkHeader name key) values) t.keys) t.headers

def evalAddress (lookup : Lookup) (t : AddressTest) : Run Bool :=
  match unsupportedAddress? t with
  | some tag => Run.fail ⟨.address, tag⟩
  | none =>
    Run.any (fun name => do
      let values ← find lookup name
      let members := values.flatMap FieldValue.members
      Run.any (fun key => Run.any (checkAddress name key) members) t.keys) t.headers

mutual

def evalTest (lookup : Lookup) : Test → Run Bool
  | .allof ts => evalAll lookup ts
  | .anyof ts => evalAny lookup ts
  | .header t => evalHeader lookup t
  | .address t => evalAddress lookup t

/-- Asks no further than the first test that fails. -/
def evalAll (lookup : Lookup) : List Test → Run Bool
  | [] => pure true
  | t :: ts => do if ← evalTest lookup t then evalAll lookup ts else pure false

/-- Asks no further than the first test that holds. -/
def evalAny (lookup : Lookup) : List Test → Run Bool
  | [] => pure false
  | t :: ts => do if ← evalTest lookup t then pure true else evalAny lookup ts

end

def addFlag (d : Decision) (flag : String) : Run Decision := do
  Run.emit (.addflag flag)
  return { d with flags := d.flags.insert flag }

mutual

def runCommand (lookup : Lookup) (d : Decision) : Command → Run Decision
  | .require _ => pure d
  | .keep => do
    Run.emit .keep
    return { d with verdict := some true }
  | .discard => do
    Run.emit .discard
    return { d with verdict := some false }
  | .fileinto m => do
    Run.emit (.fileinto m)
    return { d with destination := some m }
  | .addflag _ fs => fs.foldlM addFlag d
  | .branch t b next => do
    if ← evalTest lookup t then runCommands lookup d b else runChain lookup d next

def runCommands (lookup : Lookup) (d : Decision) : List Command → Run Decision
  | [] => pure d
  | c :: cs => do runCommands lookup (← runCommand lookup d c) cs

def runChain (lookup : Lookup) (d : Decision) : Chain → Run Decision
  | .done => pure d
  | .elsif t b next => do
    if ← evalTest lookup t then runCommands lookup d b else runChain lookup d next
  | .otherwise b => runCommands lookup d b

end

def run (p : Program) (lookup : Lookup) : Run Decision :=
  runCommands lookup .initial p

/-- The decision of a script about a message, or the first tag met that cannot be evaluated. -/
def evaluate (p : Program) (lookup : Lookup) : Except Unsupported Decision :=
  (run p lookup).outcome

end MailSieve.Filter
