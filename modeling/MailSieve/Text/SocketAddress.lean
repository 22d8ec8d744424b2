/-!
Socket addresses: an IPv4 address, or an IPv6 address in brackets, then a colon and a port. A reader
gives what is left of the text if it starts as it should.
-/

namespace MailSieve.Text.SocketAddress

def digitValue? (base : Nat) (c : Char) : Option Nat :=
  let n :=
    if c.isDigit then c.toNat - '0'.toNat
    else if 'a' ≤ c ∧ c ≤ 'f' then c.toNat - 'a'.toNat + 10
    else if 'A' ≤ c ∧ c ≤ 'F' then c.toNat - 'A'.toNat + 10
    else base
  if n < base then some n else none

/-- The form of a number: its base, the most digits and the largest value that it may have, and
whether zeros may come before its other digits. -/
structure NumberForm where
  base : Nat
  digits : Option Nat
  most : Nat
  zeros : Bool

def octet : NumberForm := ⟨10, some 3, 255, false⟩

def group : NumberForm := ⟨16, some 4, 0xffff, true⟩

def port : NumberForm := ⟨10, none, 0xffff, true⟩

def scope : NumberForm := ⟨10, none, 0xffffffff, true⟩

/-- Reads a number of some form, whose digits end where no other digit follows. -/
def readNumber (f : NumberForm) (s : List Char) : Option (List Char) :=
  let isDigit (c : Char) : Bool := (digitValue? f.base c).isSome
  let ds := s.takeWhile isDigit
  let value := ds.foldl (fun n c => n * f.base + (digitValue? f.base c).getD 0) 0
  if ds.isEmpty then none
  else if f.digits.any fun k => k < ds.length then none
  else if !f.zeros && ds.head? = some '0' && 1 < ds.length then none
  else if f.most < value then none
  else some (s.dropWhile isDigit)

def readChar (c : Char) : List Char → Option (List Char)
  | [] => none
  | d :: r => if c = d then some r else none

/-- Reads four octets divided by points. -/
def readIPv4 (s : List Char) : Option (List Char) := do
  let s ← readChar '.' (← readNumber octet s)
  let s ← readChar '.' (← readNumber octet s)
  let s ← readChar '.' (← readNumber octet s)
  readNumber octet s

/-- Groups that were read, two of them if they are an IPv4 address, and what is left. -/
structure Groups where
  count : Nat
  endsInIPv4 : Bool
  rest : List Char

/-- Reads up to so many groups divided by colons; an IPv4 address may stand for the last two. -/
def readGroups (first : Bool) : Nat → List Char → Groups
  | 0, s => ⟨0, false, s⟩
  | n + 1, s =>
    match if first then some s else readChar ':' s with
    | none => ⟨0, false, s⟩
    | some r =>
      match if 0 < n then readIPv4 r else none with
      | some t => ⟨2, true, t⟩
      | none =>
        match readNumber group r with
        | none => ⟨0, false, s⟩
        | some t =>
          let g := readGroups false n t
          { g with count := g.count + 1 }

/-- Reads eight groups, or fewer with two colons in place of those that are left out. -/
def readIPv6 (s : List Char) : Option (List Char) := do
  let front := readGroups true 8 s
  if front.count = 8 then pure front.rest
  else
    guard (!front.endsInIPv4)
    let s ← readChar ':' (← readChar ':' front.rest)
    pure (readGroups true (7 - front.count) s).rest

/-- Reads the number of a network after a percent sign, if there is one. -/
def readScope (s : List Char) : List Char :=
  ((readChar '%' s).bind (readNumber scope)).getD s

def readPort (s : List Char) : Option (List Char) := do
  readNumber port (← readChar ':' s)

def isValid (address : String) : Bool :=
  let s := address.toList
  let v4 := (readIPv4 s).bind readPort
  let v6 := do readPort (← readChar ']' (readScope (← readIPv6 (← readChar '[' s))))
  v4 = some [] || v6 = some []

end MailSieve.Text.SocketAddress
