import MailSieve.Mail.Value
import MailSieve.Text.Utf8

/-!
Identifiers between angle brackets, as in a message id. Where there is none, the text outside brackets
stands for one.
-/

namespace MailSieve.Mail.Bracketed

open Bytes Text

structure State where
  inside : Bool
  ident : Span
  outside : Span
  ids : List String

/-- A byte that belongs to neither an identifier nor the text outside. -/
def State.pass (s : State) (b : UInt8) : State :=
  { s with ident := s.ident.pass b, outside := s.outside.pass b }

/-- A bracket that closes an identifier counts as a byte outside. -/
def State.closeBracket (s : State) (b : UInt8) : State :=
  if s.ident.isOpen then
    { s with
      inside := false
      ident := .empty
      outside := s.outside.record b
      ids := s.ids ++ [Utf8.decodeLossy s.ident.bytes] }
  else { s.pass b with inside := false }

def State.record (s : State) (b : UInt8) : State :=
  if s.inside then { s with ident := s.ident.record b, outside := s.outside.pass b }
  else { s with ident := s.ident.pass b, outside := s.outside.record b }

def step (s : State) (b : UInt8) (rest : Bytes) : Move State :=
  if b == byte '\n' then
    if folds rest then .go (s.pass b) 0 else .stop s 0
  else if b == byte '<' then .go { s.pass b with inside := true } 0
  else if b == byte '>' then .go (s.closeBracket b) 0
  else if isFold b || b == byte '\r' then .go (s.pass b) 0
  else .go (s.record b) 0

def State.value (s : State) : Value :=
  if s.ids.isEmpty && s.outside.isOpen then .text (Utf8.decodeLossy s.outside.bytes)
  else .ofTexts s.ids

def read (input : Bytes) : Reading :=
  .ofEnding State.value (scan step ⟨false, .empty, .empty, []⟩ input)

end MailSieve.Mail.Bracketed
