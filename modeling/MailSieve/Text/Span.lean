import MailSieve.Text.Bytes

/-!
Stretches of input: the bytes from the first that is recorded to the last, with all that lies between.
-/

namespace MailSieve.Bytes

/-- The stretch so far and what was passed over since, both with the latest byte first. -/
structure Span where
  taken : Bytes
  passed : Bytes

namespace Span

def empty : Span := ⟨[], []⟩

def isOpen (s : Span) : Bool := !s.taken.isEmpty

/-- The byte belongs to the stretch, and with it all that was passed over. -/
def record (s : Span) (b : UInt8) : Span := ⟨b :: (s.passed ++ s.taken), []⟩

/-- The byte belongs to the stretch only if a recorded one follows. -/
def pass (s : Span) (b : UInt8) : Span :=
  if s.isOpen then ⟨s.taken, b :: s.passed⟩ else s

/-- Takes in what was passed over. -/
def absorb (s : Span) : Span := ⟨s.passed ++ s.taken, []⟩

def bytes (s : Span) : Bytes := s.taken.reverse

end Span

end MailSieve.Bytes
