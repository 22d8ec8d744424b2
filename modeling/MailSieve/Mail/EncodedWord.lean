import MailSieve.Text.Base64
import MailSieve.Text.Codepage
import MailSieve.Text.Lowercase
import MailSieve.Text.Utf8

/-!
Encoded words `=?charset?encoding?data?=`, which carry text of any character set in a header.
-/

namespace MailSieve.Mail.EncodedWord

open Text

/-- What comes before the first such byte, and what comes after it. -/
def cutAt (stop : UInt8) : Bytes → Option (Bytes × Bytes)
  | [] => none
  | b :: r => if b == stop then some ([], r) else (cutAt stop r).map fun (p, r) => (b :: p, r)

def hexValue? (b : UInt8) : Option Nat :=
  if byte '0' ≤ b && b ≤ byte '9' then some (b.toNat - 0x30)
  else if byte 'a' ≤ b && b ≤ byte 'f' then some (b.toNat - 0x61 + 10)
  else if byte 'A' ≤ b && b ≤ byte 'F' then some (b.toNat - 0x41 + 10)
  else none

def prepend (bs : Bytes) (d : Option (Bytes × Bytes)) : Option (Bytes × Bytes) :=
  d.map fun (cs, r) => (bs ++ cs, r)

/-- How much of a byte written as `=XX` has been read. -/
inductive Hex where
  | none
  | mark
  | high (x : Nat)
  deriving DecidableEq

/-- What an ordinary byte spells after what was read of a byte in digits, and what is read then. -/
def Hex.next? (h : Hex) (b : UInt8) : Option (Bytes × Hex) :=
  match h with
  | .none => some ([b], .none)
  | .mark => (hexValue? b).map fun x => ([], .high x)
  | .high x => (hexValue? b).map fun y => ([(x * 16 + y).toUInt8], .none)

/-- Reads `Q` data up to `?=`. While `folding`, the blanks after a line feed are passed over. Line
breaks, underscores and question marks may stand between an equals sign and its digits. -/
def readQ (hex : Hex) (folding : Bool) : Bytes → Option (Bytes × Bytes)
  | [] => none
  | b :: r =>
    if folding && isFold b then readQ hex true r
    else if b == byte '=' then if hex = .none then readQ .mark false r else none
    else if b == byte '?' then
      if r.head? == some (byte '=') then some ([], r.drop 1) else prepend [b] (readQ hex false r)
    else if b == byte '\n' then if folds r then readQ hex true r else none
    else if b == byte '\r' then readQ hex false r
    else if b == byte '_' then prepend [byte ' '] (readQ hex false r)
    else
      match hex.next? b with
      | some (bs, h) => prepend bs (readQ h false r)
      | none => none

/-- Reads `B` data up to `?=`, with the digits of the group that is open. -/
def readB (group : List Nat) : Bytes → Option (Bytes × Bytes)
  | [] => none
  | b :: r =>
    match Base64.value? b with
    | some v =>
      if group.length < 3 then readB (group ++ [v]) r
      else prepend (Base64.groupBytes (group ++ [v])) (readB [] r)
    | none =>
      if b == byte '=' then prepend (Base64.groupBytes group) (readB [] r)
      else if b == byte '?' && r.head? == some (byte '=') then some ([], r.drop 1)
      else if isFold b || b == byte '\r' || b == byte '\n' && folds r then readB group r
      else none

/-- The registered names of ASCII, Latin-1 and Windows-1252. -/
def latinNames : List String :=
  ["ansi-x3.4-1968", "ansi-x3.4-1986", "ascii", "cp1252", "cp367", "cp819", "csascii", "csisolatin1",
    "cswindows1252", "ibm367", "ibm819", "iso-646.irv:1991", "iso-8859-1", "iso-8859-1:1987",
    "iso-ir-100", "iso-ir-6", "iso646-us", "iso8859-1", "iso88591", "l1", "latin1", "us", "us-ascii",
    "windows-1252", "x-cp1252"]

/-- The name of a character set in lower case, with dashes for underscores. -/
def charsetName (label : Bytes) : String :=
  (asciiLower (Utf8.decodeLossy label)).map fun c => if c = '_' then '-' else c

/-- Text in a character set; one that is not known is read as UTF-8. -/
def decodeIn (charset : Bytes) (data : Bytes) : String :=
  if charsetName charset ∈ latinNames then Codepage.decode data else Utf8.decodeLossy data

/-- A label up to the `*` before its language; one that comes first is part of it. -/
def charsetOf : Bytes → Bytes
  | [] => []
  | b :: r => b :: r.takeWhile (· != byte '*')

/-- Reads an encoded word after its `=`: the text, and how many bytes it takes up. The character set
has at least two characters. -/
def read? : Bytes → Option (String × Nat)
  | [] => none
  | q :: rest => do
    if q != byte '?' then none
    let (label, r) ← cutAt (byte '?') rest
    let charset := charsetOf label
    if label.contains (byte '\n') || charset.length < 2 then none
    match r with
    | e :: m :: r => do
      if m != byte '?' then none
      let (data, left) ←
        if e == byte 'q' || e == byte 'Q' then readQ .none false r
        else if e == byte 'b' || e == byte 'B' then readB [] r
        else none
      return (decodeIn charset data, rest.length + 1 - left.length)
    | _ => none

/-- An encoded word at a byte, if the byte is `=` and what follows reads as one. -/
def at? (b : UInt8) (rest : Bytes) : Option (String × Nat) :=
  if b == byte '=' then read? rest else none

end MailSieve.Mail.EncodedWord
