import MailSieve.Text.Bytes

/-!
Base64 digits: three bytes are four digits of six bits, a shorter group at the end is as many digits
as it needs, without padding.
-/

namespace MailSieve.Text.Base64

/-- The digits' values for a byte string. -/
def sextets : Bytes → List Nat
  | a :: b :: c :: r =>
    [a.toNat / 4, a.toNat % 4 * 16 + b.toNat / 16, b.toNat % 16 * 4 + c.toNat / 64,
      c.toNat % 64] ++ sextets r
  | [a, b] => [a.toNat / 4, a.toNat % 4 * 16 + b.toNat / 16, b.toNat % 16 * 4]
  | [a] => [a.toNat / 4, a.toNat % 4 * 16]
  | [] => []

/-- The digit of a value, with `last` for 63. -/
def digit (last : Char) (n : Nat) : Char :=
  if n < 26 then Char.ofNat (0x41 + n)
  else if n < 52 then Char.ofNat (0x61 + (n - 26))
  else if n < 62 then Char.ofNat (0x30 + (n - 52))
  else if n = 62 then '+'
  else last

def value? (b : UInt8) : Option Nat :=
  if byte 'A' ≤ b && b ≤ byte 'Z' then some (b.toNat - 0x41)
  else if byte 'a' ≤ b && b ≤ byte 'z' then some (b.toNat - 0x61 + 26)
  else if byte '0' ≤ b && b ≤ byte '9' then some (b.toNat - 0x30 + 52)
  else if b == byte '+' then some 62
  else if b == byte '/' then some 63
  else none

/-- The bytes that one to four digits of a group spell out. -/
def groupBytes : List Nat → Bytes
  | [a] => [(a * 4).toUInt8]
  | [a, b] => [(a * 4 + b / 16).toUInt8]
  | [a, b, c] => [(a * 4 + b / 16).toUInt8, (b % 16 * 16 + c / 4).toUInt8]
  | [a, b, c, d] =>
    [(a * 4 + b / 16).toUInt8, (b % 16 * 16 + c / 4).toUInt8, (c % 4 * 64 + d).toUInt8]
  | _ => []

end MailSieve.Text.Base64
