import MailSieve.Text.Bytes

/-!
Windows-1252, the eight-bit character set that messages labelled ASCII or Latin-1 are read in.
-/

namespace MailSieve.Text.Codepage

/-- Code points of the bytes 0x80 to 0x9f; five of them stand for no character. -/
def upperControls : List Nat :=
  [0x20ac, 0xfffd, 0x201a, 0x0192, 0x201e, 0x2026, 0x2020, 0x2021, 0x02c6, 0x2030, 0x0160, 0x2039,
    0x0152, 0xfffd, 0x017d, 0xfffd, 0xfffd, 0x2018, 0x2019, 0x201c, 0x201d, 0x2022, 0x2013, 0x2014,
    0x02dc, 0x2122, 0x0161, 0x203a, 0x0153, 0xfffd, 0x017e, 0x0178]

def char (b : UInt8) : Char :=
  if 0x80 ≤ b && b ≤ 0x9f then Char.ofNat (upperControls.getD (b.toNat - 0x80) 0xfffd)
  else Char.ofNat b.toNat

def decode (bs : Bytes) : String :=
  String.ofList (bs.map char)

end MailSieve.Text.Codepage
