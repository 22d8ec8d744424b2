import MailSieve.Text.Hidden

/-!
Quoted text: a character or string between quotation marks, with its quotation mark, the backslash
and every hidden character escaped.
-/

namespace MailSieve.Text

def hexDigits (n : Nat) : List Char :=
  Nat.toDigits 16 n

def escapeWithin (mark : Char) (c : Char) : List Char :=
  if c = '\x00' then ['\\', '0']
  else if c = '\t' then ['\\', 't']
  else if c = '\r' then ['\\', 'r']
  else if c = '\n' then ['\\', 'n']
  else if c = '\\' || c = mark then ['\\', c]
  else if isHidden c then ['\\', 'u', '\x7b'] ++ hexDigits c.toNat ++ ['\x7d']
  else [c]

def quoteChar (c : Char) : String :=
  String.ofList ('\'' :: (escapeWithin '\'' c ++ ['\'']))

def quote (s : String) : String :=
  String.ofList ('"' :: (s.toList.flatMap (escapeWithin '"') ++ ['"']))

end MailSieve.Text
