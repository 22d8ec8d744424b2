import MailSieve.Script.Lexer
import MailSieve.Script.Tree

/-!
Reading a token list as a program.

    program    := command*
    command    := "require" strings ";" | "keep" ";" | "discard" ";" | "fileinto" string ";"
                | "addflag" [string] strings ";" | "if" branch
    branch     := test block ["elsif" branch | "else" block]
    block      := "{" command* "}"
    test       := ("allof" | "anyof") "(" test ("," test)* ")"
                | "header" [":comparator" string] [":" match] strings strings
                | "address" [":comparator" string] [":" part] [":" match] strings strings
    strings    := string | "[" string ("," string)* "]"

Two strings in a row after `addflag` are a target and one flag. Each production returns the tokens it
leaves, and a production that fails says where it stuck.
-/

namespace MailSieve.Script

/-- A place in the token list where none of the expected tokens stood. -/
structure Stuck where
  expected : List Expected
  rest : List Token
  deriving DecidableEq

def stuck (expected : List Expected) (ts : List Token) : Except Stuck α :=
  .error ⟨expected, ts⟩

def expect (k : Kind) : List Token → Except Stuck (Token × List Token)
  | [] => stuck [.kind k] []
  | t :: r => if t.kind = k then .ok (t, r) else stuck [.kind k] (t :: r)

/-- A colon and an identifier that `read` knows. Anything else is left where it is. -/
def readTag (read : String → Option α) : List Token → Option α × List Token
  | c :: t :: r =>
    if c.kind = .colon && t.kind = .identifier then
      match read t.text with
      | some a => (some a, r)
      | none => (none, c :: t :: r)
    else (none, c :: t :: r)
  | ts => (none, ts)

def moreStrings : List Token → Except Stuck (List String × List Token)
  | [] => stuck [.kind .rbracket, .kind .comma] []
  | t :: r =>
    if t.kind = .rbracket then .ok ([], r)
    else if t.kind = .comma then
      match r with
      | [] => stuck [.kind .string] []
      | s :: r' =>
        if s.kind = .string then do
          let (ss, r) ← moreStrings r'
          return (s.text :: ss, r)
        else stuck [.kind .string] (s :: r')
    else stuck [.kind .rbracket, .kind .comma] (t :: r)

def strings : List Token → Except Stuck (List String × List Token)
  | [] => stuck [.kind .string, .kind .lbracket] []
  | t :: r =>
    if t.kind = .string then .ok ([t.text], r)
    else if t.kind = .lbracket then do
      let (s, r) ← expect .string r
      let (ss, r) ← moreStrings r
      return (s.text :: ss, r)
    else stuck [.kind .string, .kind .lbracket] (t :: r)

def comparator (ts : List Token) : Except Stuck (Option String × List Token) :=
  match readTag (fun w => if w = "comparator" then some () else none) ts with
  | (some _, r) => do
    let (s, r) ← expect .string r
    return (some s.text, r)
  | (none, r) => .ok (none, r)

def headerTest (ts : List Token) : Except Stuck (Test × List Token) := do
  let (c, r) ← comparator ts
  let (m, r) := readTag MatchType.ofTag? r
  let (hs, r) ← strings r
  let (ks, r) ← strings r
  return (.header ⟨c, m, hs, ks⟩, r)

def addressTest (ts : List Token) : Except Stuck (Test × List Token) := do
  let (c, r) ← comparator ts
  let (p, r) := readTag AddressPart.ofTag? r
  let (m, r) := readTag MatchType.ofTag? r
  let (hs, r) ← strings r
  let (ks, r) ← strings r
  return (.address ⟨c, p, m, hs, ks⟩, r)

def testWords : List String := ["header", "address", "allof", "anyof"]

def testWord : List Token → Except Stuck (String × List Token)
  | [] => stuck [.kind .identifier] []
  | t :: r =>
    if t.kind = .identifier then
      if t.text ∈ testWords then .ok (t.text, r)
      else stuck (testWords.map .word) (t :: r)
    else stuck [.kind .identifier] (t :: r)

mutual

/-- Reads one test; `fuel` bounds the number of tokens left. -/
def test : (fuel : Nat) → List Token → Except Stuck (Test × List Token)
  | 0, ts => stuck [] ts
  | n + 1, ts => do
    let (w, r) ← testWord ts
    match w with
    | "header" => headerTest r
    | "address" => addressTest r
    | "allof" => do
      let (us, r) ← testList n r
      return (.allof us, r)
    | _ => do
      let (us, r) ← testList n r
      return (.anyof us, r)

def testList : (fuel : Nat) → List Token → Except Stuck (List Test × List Token)
  | 0, ts => stuck [] ts
  | n + 1, ts => do
    let (_, r) ← expect .lparen ts
    let (u, r) ← test n r
    let (us, r) ← moreTests n r
    return (u :: us, r)

def moreTests : (fuel : Nat) → List Token → Except Stuck (List Test × List Token)
  | 0, ts => stuck [] ts
  | _ + 1, [] => stuck [.kind .rparen, .kind .comma] []
  | n + 1, t :: r =>
    if t.kind = .rparen then .ok ([], r)
    else if t.kind = .comma then do
      let (u, r) ← test n r
      let (us, r) ← moreTests n r
      return (u :: us, r)
    else stuck [.kind .rparen, .kind .comma] (t :: r)

end

/-- The first of two strings in a row. -/
def addflagTarget : List Token → Option String × List Token
  | s :: t :: r =>
    if s.kind = .string && t.kind = .string then (some s.text, t :: r) else (none, s :: t :: r)
  | ts => (none, ts)

/-- The arguments of a command without a block, up to its semicolon. -/
def simpleCommand (w : String) (ts : List Token) : Except Stuck (Command × List Token) :=
  match w with
  | "require" => do
    let (cs, r) ← strings ts
    let (_, r) ← expect .semicolon r
    return (.require cs, r)
  | "keep" => do
    let (_, r) ← expect .semicolon ts
    return (.keep, r)
  | "discard" => do
    let (_, r) ← expect .semicolon ts
    return (.discard, r)
  | "fileinto" => do
    let (m, r) ← expect .string ts
    let (_, r) ← expect .semicolon r
    return (.fileinto m.text, r)
  | _ => do
    let (v, r) := addflagTarget ts
    let (fs, r) ← strings r
    let (_, r) ← expect .semicolon r
    return (.addflag v fs, r)

def commandWords : List String := ["require", "if", "keep", "fileinto", "addflag", "discard"]

mutual

/-- Reads commands as long as an identifier stands next; `fuel` bounds the number of tokens left. -/
def commands : (fuel : Nat) → List Token → Except Stuck (List Command × List Token)
  | 0, ts => stuck [] ts
  | _ + 1, [] => .ok ([], [])
  | n + 1, t :: r =>
    if t.kind = .identifier then
      if t.text = "if" then do
        let ((u, b, e), r) ← branch n r
        let (cs, r) ← commands n r
        return (.branch u b e :: cs, r)
      else if t.text ∈ commandWords then do
        let (c, r) ← simpleCommand t.text r
        let (cs, r) ← commands n r
        return (c :: cs, r)
      else stuck (commandWords.map .word) (t :: r)
    else .ok ([], t :: r)

/-- Reads what follows `if` or `elsif`. -/
def branch : (fuel : Nat) → List Token → Except Stuck ((Test × List Command × Chain) × List Token)
  | 0, ts => stuck [] ts
  | n + 1, ts => do
    let (u, r) ← test (ts.length + 1) ts
    let (b, r) ← block n r
    let (e, r) ← chain n r
    return ((u, b, e), r)

def block : (fuel : Nat) → List Token → Except Stuck (List Command × List Token)
  | 0, ts => stuck [] ts
  | n + 1, ts => do
    let (_, r) ← expect .lbrace ts
    let (cs, r) ← commands n r
    let (_, r) ← expect .rbrace r
    return (cs, r)

/-- Reads what follows a block that a test guards. -/
def chain : (fuel : Nat) → List Token → Except Stuck (Chain × List Token)
  | 0, ts => stuck [] ts
  | _ + 1, [] => .ok (.done, [])
  | n + 1, t :: r =>
    if t.isWord "elsif" then do
      let ((u, b, e), r) ← branch n r
      return (.elsif u b e, r)
    else if t.isWord "else" then do
      let (b, r) ← block n r
      return (.otherwise b, r)
    else .ok (.done, t :: r)

end

/-- Reads a program that ends where the tokens end. An end of input that is not the last token is
passed over before the failure is placed. -/
def program (ts : List Token) : Except Stuck (Program × List Token) := do
  let (cs, r) ← commands (ts.length + 1) ts
  match r with
  | [] => return (cs, [])
  | t :: r' => stuck [.kind .eof] (if t.kind = .eof then r' else t :: r')

/-- Tokens before the closing end of input, and the position of that end. -/
structure Input where
  tokens : List Token
  stop : Nat

/-- A missing end of input is taken to stand right after the last token. -/
def Input.ofTokens (ts : List Token) : Input :=
  match ts.getLast? with
  | none => ⟨[], 0⟩
  | some t => if t.kind = .eof then ⟨ts.dropLast, t.start⟩ else ⟨ts, t.stop⟩

def Stuck.error (s : Stuck) (stop : Nat) : SyntaxError :=
  match s.rest with
  | [] => .unexpectedEnd s.expected stop
  | t :: _ =>
    if t.kind = .eof then .unexpectedEnd s.expected t.start else .unexpectedToken s.expected t

def parse (ts : List Token) : Except SyntaxError Program :=
  let i := Input.ofTokens ts
  match program i.tokens with
  | .ok (p, _) => .ok p
  | .error s => .error (s.error i.stop)

/-- Reads a program so many times, each time from where the last attempt ended or got stuck. -/
def readRepeatedly (stop : Nat) : Nat → List Token → List (Except SyntaxError Program)
  | 0, _ => []
  | n + 1, ts =>
    match program ts with
    | .ok (p, r) => .ok p :: readRepeatedly stop n r
    | .error s => .error (s.error stop) :: readRepeatedly stop n s.rest

def parseRepeatedly (times : Nat) (ts : List Token) : List (Except SyntaxError Program) :=
  let i := Input.ofTokens ts
  readRepeatedly i.stop times i.tokens

def parseScript (source : String) : Except SyntaxError Program := do
  parse (← tokenize source)

end MailSieve.Script
