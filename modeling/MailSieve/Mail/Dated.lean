import MailSieve.Mail.Value

/-!
Dates: up to seven numbers in the order day, month, year, hour, minute, second and zone, with the month
by number or by the first three letters of its name.
-/

namespace MailSieve.Mail.Dated

open Bytes

/-- A number being read: its digits so far, scaled to a full count of digits, and the digits to come. -/
structure Part where
  value : Nat
  room : Nat

def Part.addDigit (p : Part) (d : Nat) : Part :=
  if p.room = 0 then p else ⟨p.value + d * Nat.pow 10 (p.room - 1), p.room - 1⟩

/-- Gives up the digits that did not come. -/
def Part.settle (p : Part) : Part := { p with value := p.value / Nat.pow 10 p.room }

structure State where
  parts : List Part
  index : Nat
  /-- No byte of the current part has been met. -/
  fresh : Bool
  /-- No digit has been met. -/
  blank : Bool
  depth : Nat
  west : Bool
  monthName : Bytes

def State.initial : State where
  parts := [⟨0, 2⟩, ⟨0, 2⟩, ⟨0, 4⟩, ⟨0, 2⟩, ⟨0, 2⟩, ⟨0, 2⟩, ⟨0, 4⟩]
  index := 0
  fresh := true
  blank := true
  depth := 0
  west := false
  monthName := []

/-- Goes on to the next part. -/
def State.next (s : State) : State :=
  { s with parts := s.parts.modify s.index Part.settle, index := s.index + 1, fresh := true }

/-- A separator ends a part that has begun. -/
def State.separate (s : State) : State :=
  if s.fresh || s.blank then s else s.next

def State.digit (s : State) (d : Nat) : State :=
  match s.parts[s.index]? with
  | some p =>
    if p.room = 0 then { s with fresh := false }
    else { s with parts := s.parts.set s.index (p.addDigit d), fresh := false, blank := false }
  | none => { s with fresh := false }

/-- Hours west of UTC of the zones known by name. -/
def zoneHours? (name : Bytes) : Option Nat :=
  if name = ofString "EDT" then some 4
  else if name = ofString "EST" || name = ofString "CDT" then some 5
  else if name = ofString "CST" || name = ofString "MDT" then some 6
  else if name = ofString "MST" || name = ofString "PDT" then some 7
  else if name = ofString "PST" then some 8
  else none

/-- A zone by name; one that is not known is UTC. -/
def State.zone (s : State) (name : Bytes) : State :=
  match zoneHours? name with
  | some h => { s with parts := s.parts.set 6 ⟨h * 100, 0⟩, west := true }.next
  | none => { s with parts := s.parts.set 6 ⟨0, 0⟩ }.next

/-- A byte within a comment, and whether it takes the next one along. -/
def State.inComment (s : State) (b : UInt8) (rest : Bytes) : Move State :=
  if b == byte ')' then .go { s with depth := s.depth - 1 } 0
  else if b == byte '(' then .go { s with depth := s.depth + 1 } 0
  else if b == byte '\\' && rest.head? == some (byte ')') then .go s 1
  else .go s 0

def lowerLetter? (b : UInt8) : Option UInt8 :=
  if byte 'a' ≤ b && b ≤ byte 'z' then some b
  else if byte 'A' ≤ b && b ≤ byte 'Z' then some (b + 0x20)
  else none

def step (s : State) (b : UInt8) (rest : Bytes) : Move State :=
  if b == byte '\n' then
    if folds rest then .go (if s.depth = 0 then s.separate else s) 1 else .stop s 0
  else if s.depth > 0 then s.inComment b rest
  else if byte '0' ≤ b && b ≤ byte '9' then .go (s.digit (b.toNat - 0x30)) 0
  else if b == byte ':' then .go (if s.index = 3 || s.index = 4 then s.separate else s) 0
  else if b == byte '+' then .go { s with index := 6 } 0
  else if b == byte '-' then .go { s with index := 6, west := true } 0
  else if isFold b then .go s.separate 0
  else if b == byte '(' then .go { s with depth := s.depth + 1, fresh := true } 0
  else if b == byte ';' then .go .initial 0
  else
    match lowerLetter? b with
    | none => .go s 0
    | some l =>
      if s.index = 6 then .go (s.zone (b :: rest.take 2)) 2
      else if s.index = 1 then .go { s with fresh := false, monthName := s.monthName ++ [l] } 0
      else .go { s with fresh := false } 0

/-- What a letter counts in the name of a month, if it occurs in one after the first letter. -/
def letterCount? (b : UInt8) : Option Nat :=
  match Char.ofNat b.toNat with
  | 'a' | 't' | 'y' => some 0
  | 'c' | 'l' => some 4
  | 'r' | 'u' => some 5
  | 'e' | 'n' => some 10
  | 'b' | 'g' => some 14
  | 'o' | 'p' | 'v' => some 15
  | _ => none

/-- The sums of the second and third letters of the months, from January on. -/
def monthSums : List Nat := [10, 24, 5, 20, 0, 15, 9, 19, 25, 4, 30, 14]

/-- The month that three letters name: the last two are enough, and their sum tells it. -/
def monthOfLetters? : Bytes → Option Nat
  | [_, b, c] => do
    let sum := (← letterCount? b) + (← letterCount? c)
    if sum ≤ 30 then some ((monthSums.findIdx? (· == sum)).elim 0 (· + 1)) else none
  | _ => none

/-- The month by name, 0 if its letters add up to none, or else by number. -/
def State.month (s : State) (number : Nat) : Nat := (monthOfLetters? s.monthName).getD number

/-- Two-digit years count from 1950 to 2049. -/
def fullYear (y : Nat) : Nat :=
  if y < 50 then y + 2000 else if y < 100 then y + 1900 else y

def State.value (s : State) : Value :=
  match s.parts.map Part.value with
  | [d, m, y, h, min, sec, z] =>
    if s.index ≥ 6 && 1 ≤ s.month m && s.month m ≤ 12 then
      .date ⟨fullYear y, s.month m, d, h, min, sec, s.west, z / 100 % 24, z % 100 % 60⟩
    else .bare
  | _ => .bare

def read (input : Bytes) : Reading :=
  let e := scan step .initial input
  (e.state.value, e.rest)

end MailSieve.Mail.Dated
