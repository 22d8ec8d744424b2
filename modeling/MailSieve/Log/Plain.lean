import MailSieve.Text.Bytes

/-!
Text for a log that is no terminal: control characters other than blanks are left out, and so are the
sequences that an escape character starts.
-/

namespace MailSieve.Log

/-- What is being read: text, or a part of a control sequence. -/
inductive Mode where
  | text
  | escape
  | escapeIntermediate
  /-- The parameters of a command, up to its last letter. -/
  | command
  | deviceEntry
  | deviceParameter
  | deviceIntermediate
  /-- A string for a device, up to the byte 0x9c. -/
  | string
  /-- The title of a window, up to a bell. -/
  | title
  deriving DecidableEq

/-- The code points from one to another. -/
def within (low high : Nat) (c : Char) : Bool := low ≤ c.toNat && c.toNat ≤ high

def closesString (c : Char) : Bool := (Bytes.ofString (String.singleton c)).contains 0x9c

/-- Cancel, substitute and escape break off whatever is being read. -/
def interrupt? (c : Char) : Option Mode :=
  if c = '\x18' || c = '\x1a' then some .text
  else if c = '\x1b' then some .escape
  else none

/-- What is read after a character that breaks nothing off. -/
def Mode.advance (m : Mode) (c : Char) : Mode :=
  match m with
  | .text => .text
  | .escape =>
    if within 0x20 0x2f c then .escapeIntermediate
    else if c = '[' then .command
    else if c = ']' then .title
    else if c = 'P' then .deviceEntry
    else if c = 'X' || c = '^' || c = '_' then .string
    else if within 0x30 0x7e c then .text
    else .escape
  | .escapeIntermediate => if within 0x30 0x7e c then .text else .escapeIntermediate
  | .command => if within 0x40 0x7e c then .text else .command
  | .deviceEntry =>
    if within 0x20 0x2f c then .deviceIntermediate
    else if within 0x30 0x3f c then .deviceParameter
    else if within 0x40 0x7e c then .string
    else .deviceEntry
  | .deviceParameter =>
    if within 0x20 0x2f c then .deviceIntermediate
    else if within 0x3c 0x7e c then .string
    else .deviceParameter
  | .deviceIntermediate => if within 0x30 0x7e c then .string else .deviceIntermediate
  | .string => if closesString c then .text else .string
  | .title => if c = '\x07' then .text else .title

def Mode.next (m : Mode) (c : Char) : Mode := (interrupt? c).getD (m.advance c)

/-- Tab, line feed, form feed and carriage return. -/
def isBlankControl (c : Char) : Bool := c = '\t' || c = '\n' || c = '\x0c' || c = '\r'

/-- The character shows when it stands in text. -/
def isVisible (c : Char) : Bool := within 0x20 0x7e c || 0x80 ≤ c.toNat || isBlankControl c

/-- The character shows in spite of a sequence that is being read. -/
def Mode.shows (m : Mode) (c : Char) : Bool :=
  match m with
  | .text => isVisible c
  | .escape | .escapeIntermediate | .command => isBlankControl c
  | _ => false

/-- Reads on in a mode, after a character that showed or one that did not. -/
def plainFrom (showing : Bool) (m : Mode) : List Char → List Char
  | [] => []
  | c :: r =>
    if showing && isVisible c then
      c :: plainFrom true (if c.toNat < 0x80 then m else .text) r
    else
      let m := if showing then (interrupt? c).getD m else m
      if m.shows c then c :: plainFrom true (m.next c) r else plainFrom false (m.next c) r

/-- The text without what only a terminal understands. A blank within a sequence shows, and so does
what follows it up to the next control character, which is read as part of the sequence. -/
def plain (s : String) : String := .ofList (plainFrom false .text s.toList)

end MailSieve.Log
