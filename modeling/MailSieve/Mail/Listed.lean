import MailSieve.Mail.EncodedWord
import MailSieve.Mail.Value

/-!
Comma-separated phrases, as in a list of keywords. An encoded word counts only at the start of a word;
nothing comes between it and what stands before it on another line.
-/

namespace MailSieve.Mail.Listed

open Bytes Text

structure State where
  line : Span
  wordStart : Bool
  /-- The phrase so far, in pieces. -/
  pieces : List String
  phrases : List String

/-- Ends the open stretch of a line, which comes after a space unless it is the first piece. -/
def State.close (s : State) : State :=
  if s.line.isOpen then
    { s with
      line := .empty
      wordStart := true
      pieces := spaced s.pieces (Utf8.decodeLossy s.line.bytes) }
  else s

/-- Ends the phrase, which is dropped if it has no pieces. -/
def State.endPhrase (s : State) : State :=
  let s := s.close
  if s.pieces.isEmpty then s
  else { s with pieces := [], phrases := s.phrases ++ [String.join s.pieces] }

/-- Adds an encoded word, after a space if it stands on the line of a stretch that it ends. -/
def State.addEncoded (s : State) (w : String) : State :=
  let between := if s.line.isOpen then [" "] else []
  let s := s.close
  { s with pieces := s.pieces ++ between ++ [w] }

def State.record (s : State) (b : UInt8) : State :=
  { s with line := s.line.record b, wordStart := false }

def step (s : State) (b : UInt8) (rest : Bytes) : Move State :=
  if b == byte '\n' then
    if folds rest then .go { s.close with wordStart := true } 1 else .stop s.endPhrase 0
  else if isFold b then .go { s with line := s.line.pass b, wordStart := true } 0
  else if b == byte '\r' then .go { s with line := s.line.pass b } 0
  else if b == byte ',' then .go s.endPhrase 0
  else
    match if s.wordStart then EncodedWord.at? b rest else none with
    | some (w, n) => .go (s.addEncoded w) n
    | none => .go (s.record b) 0

def read (input : Bytes) : Reading :=
  .ofEnding (fun s => Value.ofTexts s.phrases) (scan step ⟨.empty, true, [], []⟩ input)

end MailSieve.Mail.Listed
