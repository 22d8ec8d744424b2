import MailSieve.Text.Quoted

/-!
The words and signs of a filter script, and the ways in which a script can fail to be one.
-/

namespace MailSieve.Script

inductive Kind where
  | identifier | string | lbracket | rbracket | comma | semicolon | lparen | rparen | lbrace | rbrace
  | colon | eof
  deriving DecidableEq

def Kind.name : Kind → String
  | .identifier => "identifier"
  | .string => "string"
  | .lbracket => "["
  | .rbracket => "]"
  | .comma => ","
  | .semicolon => ";"
  | .lparen => "("
  | .rparen => ")"
  | .lbrace => "\x7b"
  | .rbrace => "\x7d"
  | .colon => ":"
  | .eof => "EOF"

def Kind.ofPunctuation? : Char → Option Kind
  | '[' => some .lbracket
  | ']' => some .rbracket
  | ',' => some .comma
  | ';' => some .semicolon
  | '(' => some .lparen
  | ')' => some .rparen
  | '\x7b' => some .lbrace
  | '\x7d' => some .rbrace
  | ':' => some .colon
  | _ => none

/-- A token with its contents and the code points `[start, stop)` of the source it was read from. -/
structure Token where
  kind : Kind
  text : String
  start : Nat
  stop : Nat
  deriving DecidableEq

def Token.endOfInput (position : Nat) : Token := ⟨.eof, "", position, position⟩

def Token.isWord (t : Token) (w : String) : Bool := t.kind = .identifier && t.text = w

/-- How an error names the token it met. -/
def Token.describe (t : Token) : String :=
  match t.kind with
  | .identifier | .string => s!"{t.kind.name} {Text.quote t.text}"
  | _ => Text.quote t.text

/-- What could have stood where an error was found. -/
inductive Expected where
  | kind (k : Kind)
  | word (w : String)
  deriving DecidableEq

def Expected.name : Expected → String
  | .kind k => k.name
  | .word w => w

inductive SyntaxError where
  | unexpectedChar (c : Char) (position : Nat)
  | unterminatedString (start : Nat) (position : Nat)
  | unexpectedEnd (expected : List Expected) (position : Nat)
  | unexpectedToken (expected : List Expected) (found : Token)
  deriving DecidableEq

def SyntaxError.position : SyntaxError → Nat
  | .unexpectedChar _ p => p
  | .unterminatedString _ p => p
  | .unexpectedEnd _ p => p
  | .unexpectedToken _ t => t.start

def alternatives (expected : List Expected) : String :=
  "|".intercalate (expected.map Expected.name)

def SyntaxError.message : SyntaxError → String
  | .unexpectedChar c p => s!"unexpected character {Text.quoteChar c} at position {p}"
  | .unterminatedString s p =>
    s!"unexpected end of input at position {p} (string starting at {s})"
  | .unexpectedEnd e p =>
    s!"unexpected end of input at position {p}, expected ({alternatives e})"
  | .unexpectedToken e t =>
    s!"unexpected {t.describe} at position {t.start}, expected ({alternatives e})"

end MailSieve.Script
