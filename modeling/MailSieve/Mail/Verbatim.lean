import MailSieve.Mail.Value
import MailSieve.Text.Utf8

/-!
Values that are taken as they stand, and values that are only skipped.
-/

namespace MailSieve.Mail.Verbatim

open Bytes Text

def step (s : Span) (b : UInt8) (rest : Bytes) : Move Span :=
  if b == byte '\n' then
    if folds rest then .go (s.pass b) 0 else .stop s 0
  else if isFold b || b == byte '\r' then .go (s.pass b) 0
  else .go (s.record b) 0

def value (s : Span) : Value :=
  if s.isOpen then .text (Utf8.decodeLossy s.bytes) else .bare

/-- The bytes from the first to the last that is not a blank or line end, line ends within included. -/
def read (input : Bytes) : Reading :=
  let e := scan step .empty input
  (value e.state, e.rest)

/-- Goes past a value without reading it. -/
def skip (input : Bytes) : Reading :=
  (.bare, (scan step .empty input).rest)

end MailSieve.Mail.Verbatim
