import MailSieve.Script.Tree
import MailSieve.Text.Quoted

/-!
Outlines of scripts: the syntax tree with every part on a line of its own, indented by its depth and
followed by a comma.
-/

namespace MailSieve.Script

/-- What an outline is made of. -/
inductive Shape where
  | word (text : String)
  | call (name : String) (args : List Shape)
  | record (name : String) (fields : List (String × Shape))
  | list (items : List Shape)

namespace Shape

def indent (line : String) : String := "    " ++ line

/-- The lines of a part of something larger. -/
def closePart : List String → List String
  | [] => []
  | [l] => [l ++ ","]
  | l :: ls => l :: closePart ls

def label (name : String) : List String → List String
  | [] => []
  | l :: ls => s!"{name}: {l}" :: ls

def bracket (opening closing : String) (inner : List String) : List String :=
  if inner.isEmpty then [opening ++ closing] else opening :: (inner.map indent ++ [closing])

mutual

def lines : Shape → List String
  | .word t => [t]
  | .call n args => bracket (n ++ "(") ")" (linesOfAll args)
  | .record n fields => bracket (n ++ " \x7b") "\x7d" (linesOfFields fields)
  | .list items => bracket "[" "]" (linesOfAll items)

def linesOfAll : List Shape → List String
  | [] => []
  | s :: ss => closePart s.lines ++ linesOfAll ss

def linesOfFields : List (String × Shape) → List String
  | [] => []
  | (n, s) :: fs => closePart (label n s.lines) ++ linesOfFields fs

end

def text (t : String) : Shape := .word (Text.quote t)

def texts (ts : List String) : Shape :=
  .record "StringList" [("values", .list (ts.map text))]

def optional (f : α → Shape) : Option α → Shape
  | none => .word "None"
  | some a => .call "Some" [f a]

def block (commands : List Shape) : Shape := .record "Block" [("commands", .list commands)]

def ofMatchType : MatchType → Shape
  | .is => .word "Is"
  | .contains => .word "Contains"
  | .matches => .word "Matches"

def ofPart : AddressPart → Shape
  | .localpart => .word "LocalPart"
  | .domain => .word "Domain"
  | .all => .word "All"

def ofHeaderTest (t : HeaderTest) : Shape :=
  .record "HeaderTest" [("comparator", optional text t.comparator),
    ("match_type", optional ofMatchType t.matchType), ("header_names", texts t.headers),
    ("keys", texts t.keys)]

def ofAddressTest (t : AddressTest) : Shape :=
  .record "AddressTest" [("comparator", optional text t.comparator),
    ("address_part", optional ofPart t.part), ("match_type", optional ofMatchType t.matchType),
    ("headers", texts t.headers), ("keys", texts t.keys)]

mutual

def ofTest : Test → Shape
  | .allof ts => .call "AllOf" [.list (ofTests ts)]
  | .anyof ts => .call "AnyOf" [.list (ofTests ts)]
  | .header t => .call "Header" [ofHeaderTest t]
  | .address t => .call "Address" [ofAddressTest t]

def ofTests : List Test → List Shape
  | [] => []
  | t :: ts => ofTest t :: ofTests ts

end

def ofBranch (test : Test) (commands : List Shape) (next : Shape) : Shape :=
  .record "If" [("test", ofTest test), ("block", block commands), ("else_branch", next)]

mutual

def ofCommand : Command → Shape
  | .require cs => .record "Require" [("capabilities", texts cs)]
  | .keep => .word "Keep"
  | .discard => .word "Discard"
  | .fileinto m => .record "FileInto" [("mailbox", text m)]
  | .addflag v fs => .record "AddFlag" [("variable_name", optional text v), ("flags", texts fs)]
  | .branch t b n => .call "If" [ofBranch t (ofCommands b) (ofChain n)]

def ofCommands : List Command → List Shape
  | [] => []
  | c :: cs => ofCommand c :: ofCommands cs

def ofChain : Chain → Shape
  | .done => .word "None"
  | .elsif t b n => .call "Some" [.call "ElsIf" [ofBranch t (ofCommands b) (ofChain n)]]
  | .otherwise b => .call "Some" [.call "Else" [block (ofCommands b)]]

end

end Shape

def outline (p : Program) : List String :=
  (Shape.record "Program" [("commands", .list (Shape.ofCommands p))]).lines

end MailSieve.Script
