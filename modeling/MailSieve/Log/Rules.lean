import MailSieve.Log
import MailSieve.Log.Plain
import MailSieve.Pattern.Reader
import MailSieve.Text.Blank
import MailSieve.Text.Lowercase
import MailSieve.Text.Split

/-!
Rules that say which lines of the log are shown. Each rule is about the targets that start with a
text; of the rules about a target the one with the longest text decides. Besides them a pattern may be
asked for, which is then found in every line that is shown.
-/

namespace MailSieve.Log

structure Rule where
  /-- The start of the targets; without one the rule is about every target. -/
  target : Option String
  /-- The rank of the least important lines that are shown. -/
  rank : Nat
  deriving DecidableEq

def Rule.length (r : Rule) : Nat := (r.target.map String.utf8ByteSize).getD 0

def Rule.concerns (r : Rule) (target : String) : Bool :=
  match r.target with
  | some t => t.isPrefixOf target
  | none => true

/-- The rank that a word stands for; `trace` is beyond every level that is used. -/
def rankOfWord? (word : String) : Option Nat :=
  match Text.asciiLower word with
  | "off" => some 0
  | "error" => some Level.error.rank
  | "warn" => some Level.warn.rank
  | "info" => some Level.info.rank
  | "debug" => some Level.debug.rank
  | "trace" => some everything
  | _ => none
where
  everything : Nat := 5

/-- Rules in the order in which they were given. -/
abbrev Rules := List Rule

namespace Rules

/-- A rule takes the place of one about the same targets. -/
def insert (r : Rule) : Rules → Rules
  | [] => [r]
  | s :: rs => if s.target = r.target then r :: rs else s :: insert r rs

/-- The rule that decides about a target: the longest, and of those the last. -/
def deciding? (rules : Rules) (target : String) : Option Rule :=
  (rules.filter fun r => r.concerns target).foldl
    (fun best r =>
      match best with
      | none => some r
      | some b => if b.length ≤ r.length then some r else some b)
    none

def shows (rules : Rules) (l : Line) : Bool :=
  match rules.deciding? l.target.name with
  | some r => l.level.rank ≤ r.rank
  | none => false

end Rules

def trim (cs : List Char) : String := .ofList (Text.trim cs)

/-- The rule that a text describes, a level, a target or both, or the part of it that is no level. -/
def readRule (text : String) : Except String Rule :=
  match (Text.pieces '=' text.toList).map String.ofList with
  | [word] =>
    match rankOfWord? word with
    | some n => .ok ⟨none, n⟩
    | none => .ok ⟨some word, rankOfWord?.everything⟩
  | [target, word] =>
    let word := trim word.toList
    if word.isEmpty then .ok ⟨some target, rankOfWord?.everything⟩
    else
      match rankOfWord? word with
      | some n => .ok ⟨some target, n⟩
      | none => .error word
  | _ => .error text

/-- The lines that are shown: those that rules show, and of them those in which a pattern is found. -/
structure Selection where
  rules : Rules
  pattern : Option Pattern

def Selection.shows (s : Selection) (l : Line) : Bool :=
  s.rules.shows l && s.pattern.all fun p => p.occursIn l.text

/-- What a text asks for, and what is said about the parts of it that cannot be read. -/
structure Spec where
  selection : Selection
  warnings : List String

/-- Adds rules divided by commas. -/
def Spec.addRules (s : Spec) (text : List Char) : Spec :=
  let parts := ((Text.pieces ',' text).map trim).filter fun p => !p.isEmpty
  parts.foldl
    (fun s p =>
      match readRule p with
      | .ok r => { s with selection.rules := s.selection.rules.insert r }
      | .error e => { s with warnings := s.warnings ++ [s!"invalid logging spec '{e}'"] })
    s

def Spec.addPattern (s : Spec) (text : String) : Spec :=
  match Pattern.read text with
  | .ok p => { s with selection.pattern := some p }
  | .error e => { s with warnings := s.warnings ++ [s!"invalid regex filter - {e.message text}"] }

/-- Adds the rules that a text describes and the pattern after its slash; a second slash spoils it. -/
def Spec.read (rules : Rules) (text : String) : Spec :=
  let given : Spec := ⟨⟨rules, none⟩, []⟩
  match Text.pieces '/' text.toList with
  | [described] => given.addRules described
  | [described, pattern] => (given.addRules described).addPattern (.ofList pattern)
  | _ => { given with warnings := [s!"invalid logging spec '{text}' (too many '/'s)"] }

/-- The name of a level, filled up to the longest. -/
def Level.padded (l : Level) : String := l.name.pushn ' ' (5 - l.name.length)

/-- A shown line with its line feed; the lines of its text after the first are indented. -/
def Line.render (l : Line) : String :=
  let lines := (Text.pieces '\n' l.text.toList).map String.ofList
  plain (s!"[{l.level.padded} {l.target.name}] " ++ "\n    ".intercalate lines ++ "\n")

end MailSieve.Log
