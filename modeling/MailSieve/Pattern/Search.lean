import MailSieve.Pattern.CharSet

/-!
Patterns, and the search for one in a text. The search reads the text once and keeps what is left to be
found of every occurrence that has begun.
-/

namespace MailSieve

namespace Pattern

/-- Where a word is expected: on both sides of a place, on neither, or on one. -/
inductive WordEdge where
  | boundary
  | inside
  | start
  | stop
  /-- No word before, whatever follows. -/
  | startHalf
  /-- No word after, whatever precedes. -/
  | stopHalf
  deriving DecidableEq

/-- A condition on a place in a text. -/
inductive Anchor where
  | textStart
  | textEnd
  /-- Where a line starts; with `crlf` also a carriage return ends one. -/
  | lineStart (crlf : Bool)
  | lineEnd (crlf : Bool)
  | word (edge : WordEdge) (letters : CharSet)
  deriving DecidableEq

def WordEdge.holds (before after : Bool) : WordEdge → Bool
  | .boundary => before != after
  | .inside => before == after
  | .start => !before && after
  | .stop => before && !after
  | .startHalf => !before
  | .stopHalf => !after

/-- The condition holds between two characters, either of which may be missing. -/
def Anchor.holds (before after : Option Char) : Anchor → Bool
  | .textStart => before.isNone
  | .textEnd => after.isNone
  | .lineStart crlf =>
    before.isNone || before = some '\n' || (crlf && before = some '\r' && after != some '\n')
  | .lineEnd crlf =>
    after.isNone || (crlf && after = some '\r') ||
      (after = some '\n' && !(crlf && before = some '\r'))
  | .word edge letters => edge.holds (before.any letters.contains) (after.any letters.contains)

end Pattern

inductive Pattern where
  | empty
  | one (s : Pattern.CharSet)
  | anchor (a : Pattern.Anchor)
  | seq (p q : Pattern)
  | either (p q : Pattern)
  /-- From `least` to `most` times the same. -/
  | times (p : Pattern) (least : Nat) (most : Option Nat)
  deriving DecidableEq

namespace Pattern

/-- The pattern is found between two characters, without any of its own. -/
def nullable (before after : Option Char) : Pattern → Bool
  | .empty => true
  | .one _ => false
  | .anchor a => a.holds before after
  | .seq p q => p.nullable before after && q.nullable before after
  | .either p q => p.nullable before after || q.nullable before after
  | .times p least _ => least == 0 || p.nullable before after

/-- One pattern after another; nothing comes after an empty one. -/
def followedBy (q : Pattern) : Pattern → Pattern
  | .empty => q
  | p => .seq p q

/-- What is left of a pattern after a character. Of repetitions those that take no character come
first, and then no more of them are due. -/
def residuals (before : Option Char) (c : Char) : Pattern → List Pattern
  | .empty => []
  | .one s => if s.contains c then [.empty] else []
  | .anchor _ => []
  | .seq p q =>
    (p.residuals before c).map (followedBy q) ++
      if p.nullable before (some c) then q.residuals before c else []
  | .either p q => p.residuals before c ++ q.residuals before c
  | .times p least most =>
    if most = some 0 then []
    else
      let least := if p.nullable before (some c) then 0 else least - 1
      (p.residuals before c).map (followedBy (.times p least (most.map (· - 1))))

/-- Searches on for a pattern, with what is left of the occurrences that began before. -/
def searchFrom (p : Pattern) (before : Option Char) (begun : List Pattern) : List Char → Bool
  | [] => (p :: begun).any (nullable before none)
  | c :: r =>
    (p :: begun).any (nullable before (some c)) ||
      searchFrom p (some c) ((p :: begun).flatMap (residuals before c)).eraseDups r

/-- The pattern is found somewhere in the text. -/
def occursIn (p : Pattern) (text : String) : Bool := searchFrom p none [] text.toList

/-- One pattern after another. -/
def ofList : List Pattern → Pattern
  | [] => .empty
  | [p] => p
  | p :: ps => .seq p (ofList ps)

end Pattern

end MailSieve
