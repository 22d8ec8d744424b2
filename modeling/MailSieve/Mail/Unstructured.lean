import MailSieve.Mail.EncodedWord
import MailSieve.Mail.Value

/-!
Running text, as in a subject: each line from its first to its last printing byte, with encoded words
wherever they stand.
-/

namespace MailSieve.Mail.Unstructured

open Bytes Text

structure State where
  line : Span
  words : List Word

/-- Ends the open stretch of a line. -/
def State.close (s : State) : State :=
  if s.line.isOpen then ⟨.empty, s.words ++ [.plain (Utf8.decodeLossy s.line.bytes)]⟩ else s

def State.record (s : State) (b : UInt8) : State := { s with line := s.line.record b }

def step (s : State) (b : UInt8) (rest : Bytes) : Move State :=
  if b == byte '\n' then
    if folds rest then .go s.close 1 else .stop s.close 0
  else if isFold b || b == byte '\r' then .go { s with line := s.line.pass b } 0
  else
    match EncodedWord.at? b rest with
    | some (w, n) => .go ⟨.empty, s.close.words ++ [.encoded w]⟩ n
    | none => .go (s.record b) 0

def State.value (s : State) : Value :=
  if s.words.isEmpty then .bare else .text (Word.join s.words)

def read (input : Bytes) : Reading :=
  .ofEnding State.value (scan step ⟨.empty, []⟩ input)

end MailSieve.Mail.Unstructured
