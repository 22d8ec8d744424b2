/-!
Refusals: why a host does not carry out an action on a file.
-/

namespace MailSieve.Files

inductive Refusal where
  | missing
  | present
  | notDirectory
  | isDirectory
  | nameTooLong
  | notEmpty
  | busy
  | invalid
  /-- A path with a NUL, which the system is not asked about. -/
  | nulInName
  | other (text : String) (code : Nat)
  deriving DecidableEq

namespace Refusal

def text : Refusal → String
  | .missing => "No such file or directory"
  | .present => "File exists"
  | .notDirectory => "Not a directory"
  | .isDirectory => "Is a directory"
  | .nameTooLong => "File name too long"
  | .notEmpty => "Directory not empty"
  | .busy => "Device or resource busy"
  | .invalid => "Invalid argument"
  | .nulInName => "file name contained an unexpected NUL byte"
  | .other t _ => t

/-- The number by which the system knows the refusal, if it comes from the system. -/
def code? : Refusal → Option Nat
  | .missing => some 2
  | .busy => some 16
  | .present => some 17
  | .notDirectory => some 20
  | .isDirectory => some 21
  | .invalid => some 22
  | .nameTooLong => some 36
  | .notEmpty => some 39
  | .nulInName => none
  | .other _ n => some n

def message (r : Refusal) : String :=
  match r.code? with
  | some n => s!"{r.text} (os error {n})"
  | none => r.text

end Refusal

end MailSieve.Files
