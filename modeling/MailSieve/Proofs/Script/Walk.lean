import MailSieve.Proofs.Script.Acceptance

/-!
Reading tokens by moving a cursor over them: how the productions look ahead, when they advance, and in
which order they check what they advance over. A walk may look up a token that does not exist, and it may
not have ended when its fuel is spent, so that neither is ruled out by how it is written.
-/

namespace MailSieve.Script

/-- Why a walk has no answer: the tokens are refused, or one is looked up that does not exist. -/
inductive Halt where
  | refused (e : SyntaxError)
  | outOfRange

/-- A position in a list of tokens, and the positions from which a walk has advanced to it. -/
structure Cursor where
  tokens : List Token
  pos : Nat
  trail : List Nat

/-- Before the first token, with the end of input put after the last. -/
def Cursor.start (ts : List Token) : Cursor := ⟨completed ts, 0, []⟩

/-- Reading tokens by moving a cursor. There is no answer at all if the fuel is spent before the end. -/
abbrev Walk := ExceptT Halt (StateT Cursor Option)

namespace Walk

def run (x : Walk α) (c : Cursor) : Option (Except Halt α × Cursor) := x c

def unended : Walk α := fun _ => none

/-- The token so far ahead of the cursor, but no further than the last. -/
def ahead (offset : Nat) : Walk Token := do
  let c ← get
  match c.tokens[min (c.pos + offset) (c.tokens.length - 1)]? with
  | some t => return t
  | none => throw .outOfRange

def peek : Walk Token := ahead 0

def peekNext : Walk Token := ahead 1

/-- Takes a token. At the last one the cursor stays where it is. -/
def advance : Walk Token := do
  let t ← peek
  modify fun c => { c with
    pos := if c.pos < c.tokens.length - 1 then c.pos + 1 else c.pos
    trail := c.trail ++ [c.pos] }
  return t

def refuse (es : List Expected) : Walk α := do
  let t ← peek
  throw (.refused (if t.kind = .eof then .unexpectedEnd es t.start else .unexpectedToken es t))

def expect (k : Kind) : Walk Token := do
  let t ← peek
  if t.kind = k then advance else refuse [.kind k]

/-- Takes an identifier, which has to be one of these words. -/
def keyword (words : List String) : Walk String := do
  let t ← peek
  if t.kind = .identifier then
    if t.text ∈ words then
      let t ← advance
      return t.text
    else refuse (words.map .word)
  else refuse [.kind .identifier]

/-- Are a colon and one of these identifiers next? -/
def atTag (tags : List String) : Walk Bool := do
  let t ← peek
  let u ← peekNext
  return t.kind = .colon && u.kind = .identifier && decide (u.text ∈ tags)

/-- Takes one of these tags, if it is next. -/
def tag (tags : List String) (read : String → Option α) : Walk (Option α) := do
  if ← atTag tags then
    let _ ← advance
    let t ← advance
    return read t.text
  else return none

def matchTags : List String := ["is", "contains", "matches"]

def matchType : Walk (Option MatchType) := tag matchTags MatchType.ofTag?

def partTags : List String := ["localpart", "domain", "all"]

def addressPart : Walk (Option AddressPart) := tag partTags AddressPart.ofTag?

def comparator : Walk (Option String) := do
  if ← atTag ["comparator"] then
    let _ ← advance
    let _ ← advance
    let s ← expect .string
    return some s.text
  else return none

/-! The fuel bounds how many rounds of a loop and calls of a production follow one another. -/

def moreStrings : (fuel : Nat) → Walk (List String)
  | 0 => unended
  | n + 1 => do
    let t ← peek
    if t.kind = .rbracket then
      let _ ← advance
      return []
    else if t.kind = .comma then
      let _ ← advance
      let s ← expect .string
      let ss ← moreStrings n
      return s.text :: ss
    else refuse [.kind .rbracket, .kind .comma]

def strings (fuel : Nat) : Walk (List String) := do
  let t ← peek
  if t.kind = .string then
    let s ← advance
    return [s.text]
  else if t.kind = .lbracket then
    let _ ← advance
    let s ← expect .string
    let ss ← moreStrings fuel
    return s.text :: ss
  else refuse [.kind .string, .kind .lbracket]

def headerTest (fuel : Nat) : Walk Test := do
  let c ← comparator
  let m ← matchType
  let hs ← strings fuel
  let ks ← strings fuel
  return .header ⟨c, m, hs, ks⟩

def addressTest (fuel : Nat) : Walk Test := do
  let c ← comparator
  let p ← addressPart
  let m ← matchType
  let hs ← strings fuel
  let ks ← strings fuel
  return .address ⟨c, p, m, hs, ks⟩

mutual

def test : (fuel : Nat) → Walk Test
  | 0 => unended
  | n + 1 => do
    let w ← keyword testWords
    match w with
    | "header" => headerTest n
    | "address" => addressTest n
    | "allof" => do
      let us ← testList n
      return .allof us
    | _ => do
      let us ← testList n
      return .anyof us

def testList : (fuel : Nat) → Walk (List Test)
  | 0 => unended
  | n + 1 => do
    let _ ← expect .lparen
    let u ← test n
    let us ← moreTests n
    return u :: us

def moreTests : (fuel : Nat) → Walk (List Test)
  | 0 => unended
  | n + 1 => do
    let t ← peek
    if t.kind = .rparen then
      let _ ← advance
      return []
    else if t.kind = .comma then
      let _ ← advance
      let u ← test n
      let us ← moreTests n
      return u :: us
    else refuse [.kind .rparen, .kind .comma]

end

/-- The first of two strings in a row. -/
def target : Walk (Option String) := do
  let s ← peek
  let t ← peekNext
  if s.kind = .string && t.kind = .string then
    let s ← advance
    return some s.text
  else return none

def addflag (fuel : Nat) : Walk Command := do
  let _ ← keyword ["addflag"]
  let v ← target
  let fs ← strings fuel
  let _ ← expect .semicolon
  return .addflag v fs

/-- Reads a command without a block from its word on. Of all the words only that of `addflag` is checked
again, the others are advanced over whatever the kind of their token is. -/
def simpleCommand (fuel : Nat) (w : String) : Walk Command :=
  match w with
  | "require" => do
    let _ ← advance
    let cs ← strings fuel
    let _ ← expect .semicolon
    return .require cs
  | "keep" => do
    let _ ← advance
    let _ ← expect .semicolon
    return .keep
  | "discard" => do
    let _ ← advance
    let _ ← expect .semicolon
    return .discard
  | "fileinto" => do
    let _ ← advance
    let m ← expect .string
    let _ ← expect .semicolon
    return .fileinto m.text
  | _ => addflag fuel

/-- Reads `if` or `elsif`, and then the rest. -/
def branchOf (w : String) (rest : Walk (Test × List Command × Chain)) :
    Walk (Test × List Command × Chain) := do
  let _ ← keyword [w]
  rest

def commandOf (fuel : Nat) (rest : Walk (Test × List Command × Chain)) : Walk Command := do
  let t ← peek
  if t.text ∈ commandWords then
    if t.text = "if" then
      let b ← branchOf "if" rest
      return .branch b.1 b.2.1 b.2.2
    else simpleCommand fuel t.text
  else refuse (commandWords.map .word)

mutual

def commands : (fuel : Nat) → Walk (List Command)
  | 0 => unended
  | n + 1 => do
    let t ← peek
    if t.kind = .identifier then
      let c ← commandOf n (condition n)
      let cs ← commands n
      return c :: cs
    else return []

/-- Reads what follows `if` or `elsif`. -/
def condition : (fuel : Nat) → Walk (Test × List Command × Chain)
  | 0 => unended
  | n + 1 => do
    let u ← test (n + 1)
    let b ← block n
    let e ← chain n
    return (u, b, e)

def block : (fuel : Nat) → Walk (List Command)
  | 0 => unended
  | n + 1 => do
    let _ ← expect .lbrace
    let cs ← commands n
    let _ ← expect .rbrace
    return cs

def chain : (fuel : Nat) → Walk Chain
  | 0 => unended
  | n + 1 => do
    let t ← peek
    if t.isWord "elsif" then
      let b ← branchOf "elsif" (condition n)
      return .elsif b.1 b.2.1 b.2.2
    else if t.isWord "else" then
      let _ ← advance
      let b ← block n
      return .otherwise b
    else return .done

end

def command (fuel : Nat) : Walk Command := commandOf fuel (condition fuel)

def branch (fuel : Nat) (w : String) : Walk (Test × List Command × Chain) :=
  branchOf w (condition fuel)

/-- Reads a program up to an end of input, which has to be the last token. -/
def program (fuel : Nat) : Walk Program := do
  let cs ← commands fuel
  let c ← get
  let _ ← expect .eof
  if c.pos + 1 < c.tokens.length then refuse [.kind .eof] else return cs

end Walk

/-- The productions that can be walked, by what they read. -/
inductive Production : Type → Type where
  | program : Production Program
  | commands : Production (List Command)
  | command : Production Command
  | branch (w : String) : Production (Test × List Command × Chain)
  | block : Production (List Command)
  | addflag : Production Command
  | test : Production Test
  | testList : Production (List Test)
  | comparator : Production (Option String)
  | matchType : Production (Option MatchType)
  | addressPart : Production (Option AddressPart)
  | strings : Production (List String)

def Production.walk (fuel : Nat) : Production α → Walk α
  | .program => Walk.program fuel
  | .commands => Walk.commands fuel
  | .command => Walk.command fuel
  | .branch w => Walk.branch fuel w
  | .block => Walk.block fuel
  | .addflag => Walk.addflag fuel
  | .test => Walk.test fuel
  | .testList => Walk.testList fuel
  | .comparator => Walk.comparator
  | .matchType => Walk.matchType
  | .addressPart => Walk.addressPart
  | .strings => Walk.strings fuel

/-- The productions that read at least one token. The others may read nothing. -/
def Production.consumes : Production α → Bool
  | .command | .branch _ | .block | .addflag | .test | .testList | .strings => true
  | .program | .commands | .comparator | .matchType | .addressPart => false

end MailSieve.Script
