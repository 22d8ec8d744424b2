import MailSieve.Pattern.Mistake
import MailSieve.Pattern.Search
import MailSieve.Text.Blank

/-!
Reading the text of a pattern.

    pattern    := branch ("|" branch)*
    branch     := (piece repeat? | flags)*
    repeat     := ("*" | "+" | "?" | "{" number ["," [number]] "}") "?"?
    piece      := "." | "^" | "$" | set | escape | "(" [name | flags ":"] pattern ")" | character
    set        := "[" ["^"] members "]"

A reader goes through the text once; what it fails at is a mistake with its place.
-/

namespace MailSieve.Pattern

/-- How what follows is read. -/
structure Flags where
  anyCase : Bool
  /-- Anchors hold at the ends of lines. -/
  lines : Bool
  /-- A dot is any character, line feeds included. -/
  dotAll : Bool
  /-- Words, digits and blanks are not only those of ASCII. -/
  unicode : Bool
  /-- A carriage return, too, ends a line. -/
  crlf : Bool
  /-- Blanks mean nothing, and a number sign starts a comment. -/
  spaced : Bool
  deriving DecidableEq

def Flags.plain : Flags := ⟨false, false, false, true, false, false⟩

structure Reading where
  /-- How many characters were read. -/
  position : Nat
  rest : List Char
  flags : Flags
  /-- The names of groups, and where they are. -/
  names : List (String × Extent)

abbrev Reader := StateT Reading (Except Mistake)

namespace Reader

def fail (kind : MistakeKind) (start stop : Nat) : Reader α :=
  throw ⟨kind, ⟨start, stop⟩, none⟩

def place : Reader Nat := return (← get).position

def peek : Reader (Option Char) := return (← get).rest.head?

/-- Drops blanks and comments, and counts them. -/
def skipFrom (comment : Bool) (count : Nat) : List Char → Nat × List Char
  | [] => (count, [])
  | c :: r =>
    if comment then skipFrom (c != '\n') (count + 1) r
    else if Text.isBlank c then skipFrom false (count + 1) r
    else if c = '#' then skipFrom true (count + 1) r
    else (count, c :: r)

/-- Passes over blanks and comments where they mean nothing. -/
def skip : Reader Unit :=
  modify fun s =>
    if s.flags.spaced then
      let (n, r) := skipFrom false 0 s.rest
      { s with position := s.position + n, rest := r }
    else s

def advance (n : Nat) : Reader Unit :=
  modify fun s => { s with position := s.position + min n s.rest.length, rest := s.rest.drop n }

/-- The next character that means something, after the present one. -/
def next : Reader (Option Char) := do
  advance 1
  skip
  peek

/-- Passes over a text, if that is what follows. -/
def accept (text : String) : Reader Bool := do
  if text.toList.isPrefixOf (← get).rest then
    advance text.length
    pure true
  else pure false

/-- The character after the present one, if it means something. -/
def peekSecond : Reader (Option Char) := do
  let s ← get
  let r := s.rest.drop 1
  pure (if s.flags.spaced then (skipFrom false 0 r).2.head? else r.head?)

/-! Escapes -/

inductive Escape where
  | literal (c : Char)
  | set (s : CharSet)
  | anchor (a : Anchor)

/-- Escaped, these stand for themselves. -/
def isPunctuation (c : Char) : Bool :=
  c.toNat < 0x80 && !c.isAlphanum && c != '<' && c != '>'

def hexDigit? (c : Char) : Option Nat :=
  if c.isDigit then some (c.toNat - '0'.toNat)
  else if 'a' ≤ c && c ≤ 'f' then some (c.toNat - 'a'.toNat + 10)
  else if 'A' ≤ c && c ≤ 'F' then some (c.toNat - 'A'.toNat + 10)
  else none

/-- The character that has a number. -/
def charOf (digits : List Nat) (start stop : Nat) : Reader Char :=
  let n := digits.foldl (fun n d => n * 16 + d) 0
  if n.isValidChar then pure (Char.ofNat n) else fail .hexNoCharacter start stop

/-- Reads as many hexadecimal digits as are due, and stands at the last of them. -/
def hexDigits : Nat → Reader (List Nat)
  | 0 => pure []
  | n + 1 => do
    let here ← place
    match ← peek with
    | none => fail .escapeEnds here here
    | some c =>
      match hexDigit? c with
      | none => fail .hexDigit here (here + 1)
      | some d =>
        discard next
        return d :: (← hexDigits n)

/-- Reads hexadecimal digits up to a closing brace. -/
def bracedDigits (brace : Nat) : (fuel : Nat) → Reader (List Nat)
  | 0 => fail .escapeEnds brace brace
  | fuel + 1 => do
    match ← next with
    | none => fail .escapeEnds brace (← place)
    | some '\x7d' => pure []
    | some c =>
      match hexDigit? c with
      | none => fail .hexDigit (← place) ((← place) + 1)
      | some d => return d :: (← bracedDigits brace fuel)

/-- Reads the number of a character, in braces or with the digits that are due. -/
def hexEscape (due : Nat) : Reader Char := do
  match ← next with
  | none => fail .escapeEnds (← place) (← place)
  | some '\x7b' =>
    let brace ← place
    let digits ← bracedDigits brace (← get).rest.length
    let stop ← place
    discard next
    if digits.isEmpty then fail .hexEmpty brace (← place)
    charOf digits (brace + 1) stop
  | some _ =>
    let start ← place
    let digits ← hexDigits due
    charOf digits start (← place)

def word (f : Flags) : CharSet := if f.unicode then .word else .asciiWord

/-- The sets that a letter stands for; its capital stands for all other characters. -/
def letterSet? (f : Flags) (c : Char) : Option CharSet :=
  match c with
  | 'd' => some (if f.unicode then .digit else .asciiDigit)
  | 's' => some (if f.unicode then .blank else .asciiBlank)
  | 'w' => some (word f)
  | _ => none

def control? : Char → Option Char
  | 'a' => some '\x07'
  | 'f' => some '\x0c'
  | 't' => some '\t'
  | 'n' => some '\n'
  | 'r' => some '\r'
  | 'v' => some '\x0b'
  | _ => none

/-- The name of a property has been begun by its letter; none is known. -/
def property (start : Nat) : Reader Escape := do
  match ← next with
  | none => fail .escapeEnds (← place) (← place)
  | some '\x7b' =>
    let closing := (← get).rest.takeWhile (· != '\x7d')
    advance closing.length
    if (← peek).isNone then fail .escapeEnds (← place) (← place)
    advance 1
  | some '\\' => fail .propertyLetter (← place) ((← place) + 1)
  | some _ => advance 1
  fail .propertyUnknown start (← place)

def isEdgeLetter (c : Char) : Bool := c.isAlpha || c = '-'

def edgeOfName? : String → Option WordEdge
  | "start" => some .start
  | "end" => some .stop
  | "start-half" => some .startHalf
  | "end-half" => some .stopHalf
  | _ => none

/-- The letters of a name, up to a character that is none. -/
def edgeLetters : (fuel : Nat) → Reader (List Char)
  | 0 => pure []
  | fuel + 1 => do
    match ← peek with
    | some c =>
      if isEdgeLetter c then
        discard next
        return c :: (← edgeLetters fuel)
      else pure []
    | none => pure []

/-- Reads what may follow the escape of a boundary: the name of an edge in braces. Braces that hold no
name count repetitions and are left. -/
def edge (start : Nat) : Reader WordEdge := do
  let before ← get
  if before.rest.head? != some '\x7b' then pure .boundary
  else
    let brace := before.position
    match ← next with
    | none => fail .boundaryEnds start (← place)
    | some c =>
      if isEdgeLetter c then
        let first ← place
        let name ← edgeLetters (← get).rest.length
        if (← peek) != some '\x7d' then fail .boundaryUnclosed brace (← place)
        match edgeOfName? (.ofList name) with
        | some e => advance 1; pure e
        | none => fail .boundaryUnknown first (← place)
      else
        set before
        pure .boundary

/-- Reads an escape, from its backslash. -/
def escape : Reader Escape := do
  let start ← place
  let flags := (← get).flags
  advance 1
  match ← peek with
  | none => fail .escapeEnds start (← place)
  | some c =>
    if c.isDigit then fail .backreference start ((← place) + 1)
    else if c = 'x' then return .literal (← hexEscape 2)
    else if c = 'u' then return .literal (← hexEscape 4)
    else if c = 'U' then return .literal (← hexEscape 8)
    else if c = 'p' || c = 'P' then property start
    else
      advance 1
      if let some s := letterSet? flags c then return .set s
      if let some s := letterSet? flags c.toLower then return .set (.complement s)
      if isPunctuation c then return .literal c
      if let some l := control? c then return .literal l
      match c with
      | 'A' => pure (.anchor .textStart)
      | 'z' => pure (.anchor .textEnd)
      | 'b' => return .anchor (.word (← edge start) (word flags))
      | 'B' => pure (.anchor (.word .inside (word flags)))
      | '<' => pure (.anchor (.word .start (word flags)))
      | '>' => pure (.anchor (.word .stop (word flags)))
      | _ => fail .escapeUnknown start (← place)

/-! Sets -/

inductive SetOperator where | inter | diff | symmDiff

def SetOperator.apply : SetOperator → CharSet → CharSet → CharSet
  | .inter => .inter
  | .diff => .diff
  | .symmDiff => .symmDiff

/-- A set under construction: the members so far, and what they are to be combined with. -/
structure Members where
  union : CharSet
  pending : Option (CharSet × SetOperator)

def Members.none : Members := ⟨.empty, .none⟩

def Members.add (m : Members) (s : CharSet) : Members := { m with union := .union m.union s }

/-- The members without regard to case, if that is how they are read. -/
def cased (f : Flags) (s : CharSet) : CharSet := if f.anyCase then .anyCase s else s

def Members.result (f : Flags) (m : Members) : CharSet :=
  match m.pending with
  | .none => cased f m.union
  | some (s, op) => op.apply s (cased f m.union)

/-- What was read so far is to be combined with what follows. -/
def Members.combine (f : Flags) (m : Members) (op : SetOperator) : Members :=
  ⟨.empty, some (m.result f, op)⟩

/-- Reads a member or an end of a range, and where it is. -/
def member : Reader (Escape × Extent) := do
  let start ← place
  match ← peek with
  | some '\\' => let e ← escape; return (e, ⟨start, ← place⟩)
  | c => advance 1; return (.literal (c.getD '\\'), ⟨start, ← place⟩)

def asMember (e : Escape) (x : Extent) : Reader CharSet :=
  match e with
  | .literal c => pure (.one c)
  | .set s => pure s
  | .anchor _ => fail .memberUnfit x.start x.stop

def asRangeEnd (e : Escape) (x : Extent) : Reader Char :=
  match e with
  | .literal c => pure c
  | _ => fail .rangeEnd x.start x.stop

/-- Reads a member or a range in a set that was opened at an extent. A hyphen before the end of a set
or before another hyphen makes no range. -/
def rangeOrMember (opened : Extent) : Reader CharSet := do
  let (e, x) ← member
  skip
  match ← peek with
  | none => fail .setUnclosed opened.start opened.stop
  | some c =>
    let after ← peekSecond
    if c != '-' || after = some ']' || after = some '-' then asMember e x
    else
      if (← next).isNone then fail .setUnclosed opened.start opened.stop
      let (e', x') ← member
      let first ← asRangeEnd e x
      let last ← asRangeEnd e' x'
      if first ≤ last then pure (.range first last) else fail .rangeReversed x.start x'.stop

/-- Reads a named set in brackets and colons, or nothing at all. -/
def namedSet? : Reader (Option CharSet) := do
  let before ← get
  if ← accept "[:" then
    let negated ← accept "^"
    let name := (← get).rest.takeWhile (· != ':')
    advance name.length
    if ← accept ":]" then
      if let some s := CharSet.named? (.ofList name) then
        let s := cased before.flags s
        return some (if negated then .complement s else s)
  set before
  pure none

/-- Reads the hyphens that open a set, which are members. -/
def leadingHyphens (start : Nat) : (fuel : Nat) → Reader Bool
  | 0 => pure false
  | fuel + 1 => do
    if (← peek) = some '-' then
      if (← next).isNone then fail .setUnclosed start start
      discard (leadingHyphens start fuel)
      pure true
    else pure false

/-- Reads how a set is opened: whether it is negated, and the members that could mean anything else
further on. -/
def openSet : Reader (Bool × Members) := do
  let start ← place
  if (← next).isNone then fail .setUnclosed start (← place)
  let negated := (← peek) = some '^'
  if negated then
    if (← next).isNone then fail .setUnclosed start (← place)
  let hyphens ← leadingHyphens start (← get).rest.length
  if hyphens then return (negated, Members.none.add (.one '-'))
  if (← peek) = some ']' then
    if (← next).isNone then fail .setUnclosed start (← place)
    return (negated, Members.none.add (.one ']'))
  return (negated, .none)

mutual

/-- Reads a set, from its opening bracket. -/
def bracketed : (fuel : Nat) → Reader CharSet
  | 0 => do fail .setUnclosed (← place) (← place)
  | fuel + 1 => do
    let start ← place
    let (negated, opening) ← openSet
    let s ← members fuel ⟨start, ← place⟩ opening
    pure (if negated then .complement s else s)

/-- Reads the members of a set, and its closing bracket. -/
def members : (fuel : Nat) → Extent → Members → Reader CharSet
  | 0, opened, _ => fail .setUnclosed opened.start opened.stop
  | fuel + 1, opened, m => do
    skip
    let flags := (← get).flags
    match ← peek with
    | none => fail .setUnclosed opened.start opened.stop
    | some ']' => advance 1; pure (m.result flags)
    | some '[' =>
      match ← namedSet? with
      | some s => members fuel opened (m.add s)
      | none => do
        let s ← bracketed fuel
        members fuel opened (m.add s)
    | some _ =>
      if ← accept "&&" then members fuel opened (m.combine flags .inter)
      else if ← accept "--" then members fuel opened (m.combine flags .diff)
      else if ← accept "~~" then members fuel opened (m.combine flags .symmDiff)
      else do
        let s ← rangeOrMember opened
        members fuel opened (m.add s)

end

/-! Repetitions -/

def skipBlanks : Reader Unit :=
  modify fun s =>
    let blanks := s.rest.takeWhile Text.isBlank
    { s with position := s.position + blanks.length, rest := s.rest.drop blanks.length }

def digits : (fuel : Nat) → Reader (List Char)
  | 0 => pure []
  | fuel + 1 => do
    match ← peek with
    | some c =>
      if c.isDigit then
        discard next
        return c :: (← digits fuel)
      else pure []
    | none => pure []

/-- Reads how often something is repeated, or finds a mistake that may yet not matter. -/
def count : Reader (Except Mistake Nat) := do
  skipBlanks
  let start ← place
  let ds ← digits (← get).rest.length
  let extent : Extent := ⟨start, ← place⟩
  skipBlanks
  if ds.isEmpty then return .error ⟨.countMissing, extent, none⟩
  let n := ds.foldl (fun n d => n * 10 + (d.toNat - '0'.toNat)) 0
  return if n < UInt32.size then .ok n else .error ⟨.countTooLarge, extent, none⟩

/-- Reads the counts of repetitions in braces. -/
def counts : Reader (Nat × Option Nat) := do
  let start ← place
  let unclosed : Reader (Nat × Option Nat) := do fail .countUnclosed start (← place)
  if (← next).isNone then unclosed
  else
    let least ← count
    let closed (r : Nat × Option Nat) : Reader (Nat × Option Nat) := do
      if (← peek) = some '\x7d' then
        discard next
        pure r
      else unclosed
    match ← peek with
    | none => unclosed
    | some ',' =>
      match ← next with
      | none => unclosed
      | some '\x7d' =>
        let n ← liftM least
        closed (n, none)
      | some _ =>
        let n ← liftM least
        let most ← count
        let k ← liftM most
        closed (n, some k)
    | some _ =>
      let n ← liftM least
      closed (n, some n)

/-- Passes over the mark of a repetition that takes as little as it can; what is found is the same. -/
def reluctant : Reader Unit := discard (accept "?")

/-- Reads the sign of a repetition, from its first character. -/
def repetition (sign : Char) : Reader (Nat × Option Nat) := do
  let start ← place
  match sign with
  | '*' => advance 1; reluctant; pure (0, none)
  | '+' => advance 1; reluctant; pure (1, none)
  | '?' => advance 1; reluctant; pure (0, some 1)
  | _ =>
    let (least, most) ← counts
    reluctant
    if most.any (· < least) then fail .countsReversed start (← place)
    pure (least, most)

/-! Groups -/

def isFirstNameCharacter (c : Char) : Bool := c = '_' || (Text.isWordPart c && !Text.isDecimalDigit c)

def isNameCharacter (c : Char) : Bool :=
  Text.isWordPart c || c = '.' || c = '[' || c = ']'

/-- Reads the name of a group up to its closing bracket. -/
def groupName : Reader Unit := do
  let start ← place
  let name := (← get).rest.takeWhile (· != '>')
  let isFit (i : Nat) (c : Char) : Bool := if i = 0 then isFirstNameCharacter c else isNameCharacter c
  match (name.zipIdx.find? fun (c, i) => !isFit i c) with
  | some (_, i) => fail .nameCharacter (start + i) (start + i + 1)
  | none => pure ()
  advance name.length
  let stop ← place
  if (← peek).isNone then fail .nameUnclosed stop stop
  if name.isEmpty then fail .nameEmpty start start
  match (← get).names.lookup (.ofList name) with
  | some earlier => throw ⟨.nameRepeated, ⟨start, stop⟩, some earlier⟩
  | none => pure ()
  advance 1
  modify fun s => { s with names := (.ofList name, ⟨start, stop⟩) :: s.names }

def isFlag (c : Char) : Bool := ['i', 'm', 's', 'U', 'u', 'R', 'x'].contains c

def Flags.set (f : Flags) (c : Char) (on : Bool) : Flags :=
  match c with
  | 'i' => { f with anyCase := on }
  | 'm' => { f with lines := on }
  | 's' => { f with dotAll := on }
  | 'u' => { f with unicode := on }
  | 'R' => { f with crlf := on }
  | 'x' => { f with spaced := on }
  | _ => f

/-- Reads flags up to a colon or a closing parenthesis; those after a hyphen are taken away. -/
def flagItems : (fuel : Nat) → List (Char × Extent) → Reader (List (Char × Extent))
  | 0, seen => pure seen
  | fuel + 1, seen => do
    let here ← place
    let extent : Extent := ⟨here, here + 1⟩
    match ← peek with
    | none => fail .flagMissing here here
    | some c =>
      if c = ':' || c = ')' then
        match seen with
        | ('-', x) :: _ => fail .negationDangles x.start x.stop
        | _ => pure seen
      else
        unless c = '-' || isFlag c do fail .flagUnknown here (here + 1)
        match seen.lookup c with
        | some earlier =>
          throw ⟨if c = '-' then .negationRepeated else .flagRepeated, extent, some earlier⟩
        | none => pure ()
        advance 1
        flagItems fuel ((c, extent) :: seen)

/-- The flags after items that were read, the latest first. -/
def applyFlags (items : List (Char × Extent)) (f : Flags) : Flags :=
  (items.foldr
    (fun i (f, on) => if i.1 = '-' then (f, false) else (Flags.set f i.1 on, on)) (f, true)).1

/-- How a group is opened: by flags that hold in it, by flags for what follows it, or by nothing that
matters to a search. -/
inductive Opening where
  | group (f : Flags)
  | flags (f : Flags)

/-- Reads the opening of a group, from its parenthesis. -/
def opening : Reader Opening := do
  let start ← place
  let flags := (← get).flags
  advance 1
  skip
  let inner ← place
  if (← accept "?=") || (← accept "?!") || (← accept "?<=") || (← accept "?<!") then
    fail .lookAround start (← place)
  else if (← accept "?P<") || (← accept "?<") then
    groupName
    pure (.group flags)
  else if ← accept "?" then
    if (← peek).isNone then fail .groupUnclosed start (start + 1)
    let items ← flagItems ((← get).rest.length + 1) []
    let closed := (← peek) = some ')'
    advance 1
    let f := applyFlags items flags
    if !closed then pure (.group f)
    else if items.isEmpty then fail .nothingToRepeat inner inner
    else pure (.flags f)
  else pure (.group flags)

/-! Patterns -/

def dot (f : Flags) : CharSet :=
  if f.dotAll then .any
  else if f.crlf then .complement (.ofList ['\n', '\r'])
  else .complement (.one '\n')

def ofEscape (f : Flags) : Escape → Pattern
  | .literal c => .one (cased f (.one c))
  | .set s => .one s
  | .anchor a => .anchor a

/-- Reads a piece that holds no other. -/
def piece (c : Char) : Reader Pattern := do
  let f := (← get).flags
  match c with
  | '\\' => return ofEscape f (← escape)
  | '.' => advance 1; pure (.one (dot f))
  | '^' => advance 1; pure (.anchor (if f.lines then .lineStart f.crlf else .textStart))
  | '$' => advance 1; pure (.anchor (if f.lines then .lineEnd f.crlf else .textEnd))
  | c => advance 1; pure (ofEscape f (.literal c))

/-- The pattern of a branch, given by its pieces with the last one first; flags leave a gap. -/
def branchOf (pieces : List (Option Pattern)) : Pattern := .ofList (pieces.reverse.filterMap id)

/-- Reads on in a group that was opened at a place, or in the whole pattern, with the pieces of its
branch so far. -/
def branches : (fuel : Nat) → Option Nat → List (Option Pattern) → Reader Pattern
  | 0, _, _ => do fail .groupUnclosed (← place) (← place)
  | fuel + 1, opened, pieces => do
    skip
    let here ← place
    match ← peek with
    | none =>
      match opened with
      | some start => fail .groupUnclosed start (start + 1)
      | none => pure (branchOf pieces)
    | some ')' =>
      match opened with
      | some _ => advance 1; pure (branchOf pieces)
      | none => fail .groupUnopened here (here + 1)
    | some '|' =>
      advance 1
      return .either (branchOf pieces) (← branches fuel opened [])
    | some '(' =>
      let outer := (← get).flags
      match ← opening with
      | .flags f =>
        modify fun s => { s with flags := f }
        branches fuel opened (none :: pieces)
      | .group f =>
        modify fun s => { s with flags := f }
        let p ← branches fuel (some here) []
        modify fun s => { s with flags := outer }
        branches fuel opened (some p :: pieces)
    | some '[' =>
      let s ← bracketed fuel
      branches fuel opened (some (.one s) :: pieces)
    | some c =>
      if c = '*' || c = '+' || c = '?' || c = '\x7b' then
        match pieces with
        | some p :: before =>
          let (least, most) ← repetition c
          branches fuel opened (some (.times p least most) :: before)
        | _ => fail .nothingToRepeat here here
      else
        let p ← piece c
        branches fuel opened (some p :: pieces)

end Reader

/-- Reads a pattern from its text. -/
def read (text : String) : Except Mistake Pattern :=
  (Reader.branches (2 * text.length + 2) none []).run' ⟨0, text.toList, .plain, []⟩

end MailSieve.Pattern
