import MailSieve.Text.Base64

/-!
Modified UTF-7, the form of mailbox names on disk: an ampersand is written `&-`, and each run of
characters outside U+0020 to U+007F is written as Base64 of its UTF-16 between `&` and `-`.
-/

namespace MailSieve.Text.ModifiedUtf7

def isDirect (c : Char) : Bool := 0x20 ≤ c.toNat && c.toNat ≤ 0x7f

/-- The UTF-16 code units of a character. -/
def units (c : Char) : List Nat :=
  if c.toNat < 0x10000 then [c.toNat]
  else [0xd800 + (c.toNat - 0x10000) / 0x400, 0xdc00 + (c.toNat - 0x10000) % 0x400]

/-- UTF-16, high byte first. -/
def utf16 (cs : List Char) : Bytes :=
  (cs.flatMap units).flatMap fun u => [(u / 256).toUInt8, (u % 256).toUInt8]

def encodeRun (run : List Char) : List Char :=
  if run.isEmpty then []
  else '&' :: ((Base64.sextets (utf16 run)).map (Base64.digit ',') ++ ['-'])

def encodeDirect (c : Char) : List Char :=
  if c = '&' then ['&', '-'] else [c]

/-- Encodes what follows the open run of indirect characters. -/
def encodeAfter (run : List Char) : List Char → List Char
  | [] => encodeRun run
  | c :: r =>
    if isDirect c then encodeRun run ++ (encodeDirect c ++ encodeAfter [] r)
    else encodeAfter (run ++ [c]) r

def encode (s : String) : String :=
  String.ofList (encodeAfter [] s.toList)

end MailSieve.Text.ModifiedUtf7
