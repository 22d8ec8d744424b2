import MailSieve.Text.Bytes

/-!
UTF-8 read strictly and leniently. `pieces` splits any bytes into characters and bad sequences; a bad
sequence is the longest start of a character that the bytes hold, or a single byte.
-/

namespace MailSieve.Text.Utf8

/-- Reads `n` continuation bytes, the first of them from `lo` to `hi`, onto `acc`. -/
def continuation (lo hi : UInt8) : Nat → Nat → Bytes → Option Nat × Bytes
  | 0, acc, r => (some acc, r)
  | _ + 1, _, [] => (none, [])
  | n + 1, acc, b :: r =>
    if lo ≤ b && b ≤ hi then continuation 0x80 0xbf n (acc * 64 + (b.toNat - 0x80)) r
    else (none, b :: r)

theorem continuation_length_le (lo hi : UInt8) (n acc : Nat) (bs : Bytes) :
    (continuation lo hi n acc bs).2.length ≤ bs.length := by
  fun_induction continuation lo hi n acc bs with
  | case1 => exact Nat.le_refl _
  | case2 => exact Nat.le_refl _
  | case3 lo hi n acc b r _ ih => exact Nat.le_succ_of_le ih
  | case4 => exact Nat.le_refl _

/-- The piece that starts with `b`, and the bytes after it. -/
def piece (b : UInt8) (r : Bytes) : Option Nat × Bytes :=
  if b < 0x80 then (some b.toNat, r)
  else if b < 0xc2 then (none, r)
  else if b < 0xe0 then continuation 0x80 0xbf 1 (b.toNat - 0xc0) r
  else if b < 0xf0 then
    continuation (if b == 0xe0 then 0xa0 else 0x80) (if b == 0xed then 0x9f else 0xbf) 2
      (b.toNat - 0xe0) r
  else if b < 0xf5 then
    continuation (if b == 0xf0 then 0x90 else 0x80) (if b == 0xf4 then 0x8f else 0xbf) 3
      (b.toNat - 0xf0) r
  else (none, r)

theorem piece_length_le (b : UInt8) (r : Bytes) : (piece b r).2.length ≤ r.length := by
  unfold piece
  split
  · exact Nat.le_refl _
  split
  · exact Nat.le_refl _
  split
  · exact continuation_length_le ..
  split
  · exact continuation_length_le ..
  split
  · exact continuation_length_le ..
  · exact Nat.le_refl _

def pieces : Bytes → List (Option Char)
  | [] => []
  | b :: r => (piece b r).1.map Char.ofNat :: pieces (piece b r).2
termination_by bs => bs.length
decreasing_by
  exact Nat.lt_succ_of_le (piece_length_le b r)

/-- The text, if every byte belongs to a character. -/
def decode? (bs : Bytes) : Option String :=
  ((pieces bs).mapM id).map String.ofList

/-- The text, with U+FFFD for each bad sequence. -/
def decodeLossy (bs : Bytes) : String :=
  String.ofList ((pieces bs).map (·.getD '\ufffd'))

end MailSieve.Text.Utf8
