import MailSieve.Mail.EncodedWord
import MailSieve.Mail.Value

/-!
Address lists: names, quoted strings, comments, addresses in angle brackets and named groups.
-/

namespace MailSieve.Mail.Contacts

open Bytes Text

inductive Place where | name | address | quote | comment
  deriving DecidableEq

structure State where
  place : Place
  /-- The places to return to, innermost first. -/
  outer : List Place
  token : Span
  names : List String
  mails : List String
  comments : List String
  isMail : Bool
  tokenStart : Bool
  escaped : Bool
  lastEncoded : Bool
  contacts : List Contact
  groupName : Option String
  groups : List Group

def State.initial : State where
  place := .name
  outer := []
  token := .empty
  names := []
  mails := []
  comments := []
  isMail := false
  tokenStart := true
  escaped := false
  lastEncoded := true
  contacts := []
  groupName := none
  groups := []

/-- Closes the open token and files it where the place says. -/
def State.addToken (s : State) : State :=
  if s.token.isOpen then
    let t := Utf8.decodeLossy s.token.bytes
    let s' :=
      match s.place with
      | .address => { s with mails := s.mails ++ [t] }
      | .quote => { s with names := s.names ++ [t] }
      | .comment => { s with comments := spaced s.comments t }
      | .name =>
        if s.isMail then { s with mails := s.mails ++ [t] }
        else { s with names := spaced s.names t }
    { s' with
      token := .empty
      isMail := false
      tokenStart := true
      escaped := false
      lastEncoded := false }
  else s

/-- Files an encoded word, without a space after another one or within quotation marks. -/
def State.addEncoded (s : State) (w : String) : State :=
  let file (pieces : List String) : List String :=
    if !s.lastEncoded && s.place ≠ .quote then spaced pieces w else pieces ++ [w]
  if s.place = .comment then { s with comments := file s.comments, lastEncoded := true }
  else { s with names := file s.names, lastEncoded := true }

/-- What the pieces collected so far say; a lone word before a comment is an address. -/
def contactOf? (names mails comments : List String) : Option Contact :=
  let joined (pieces : List String) : Option String :=
    if pieces.isEmpty then none else some (String.join pieces)
  match joined names, joined mails, joined comments with
  | some n, some m, some c => some ⟨some s!"{n} ({c})", some m⟩
  | some n, some m, none => some ⟨some n, some m⟩
  | none, some m, some c => some ⟨some c, some m⟩
  | none, some m, none => some ⟨none, some m⟩
  | some n, none, some c =>
    if n.toList.any isBlank then some ⟨some s!"{n} ({c})", none⟩ else some ⟨some c, some n⟩
  | some n, none, none => some ⟨some n, none⟩
  | none, none, some c => some ⟨some c, none⟩
  | none, none, none => none

def State.addContact (s : State) : State :=
  { s with
    names := []
    mails := []
    comments := []
    contacts := s.contacts ++ (contactOf? s.names s.mails s.comments).toList }

/-- Closes the current group, which counts if it has a name or a member. -/
def State.addGroup (s : State) : State :=
  if s.contacts.isEmpty && s.groupName.isNone then s
  else
    { s with
      contacts := []
      groupName := none
      groups := s.groups ++ [⟨s.groupName, s.contacts⟩] }

/-- Starts a group named by what was collected. -/
def State.openGroup (s : State) : State :=
  let s := s.addGroup.addToken
  let name := if s.names.isEmpty then none else some (String.join s.names)
  let mail := if s.mails.isEmpty then none else some (String.join s.mails)
  let groupName :=
    match name, mail with
    | some n, some m => some s!"{n} {m}"
    | some n, none => some n
    | none, m => m
  { s with names := [], mails := [], comments := [], groupName := groupName }

def State.enter (s : State) (p : Place) : State :=
  { s with place := p, outer := s.place :: s.outer }

def State.leave (s : State) : State :=
  { s with place := s.outer.headD .name, outer := s.outer.tail }

def State.record (s : State) (b : UInt8) : State :=
  { s with token := s.token.record b, escaped := false, tokenStart := false }

def State.lineEnd (s : State) (rest : Bytes) : Move State :=
  let s := s.addToken
  if s.place = .quote then if folds rest then .go s 0 else .stop s 0
  else if folds rest then .go { s with tokenStart := true } 1
  else .stop s 0

/-- A backslash: the next byte is taken as it is. -/
def State.escape (s : State) : State :=
  let s :=
    if s.token.isOpen then
      (if s.place = .quote then { s with token := s.token.absorb } else s).addToken
    else s
  { s with escaped := true }

def State.blank (s : State) (b : UInt8) : State :=
  { s with
    tokenStart := true
    escaped := false
    token := if s.place = .quote then s.token.record b else s.token.pass b }

/-- An opening parenthesis; only the outermost one of a comment is not part of it. -/
def State.openComment (s : State) (b : UInt8) : State :=
  if s.place = .comment then (s.enter .comment).record b
  else { s.addToken.enter .comment with lastEncoded := false }

def State.closeComment (s : State) (b : UInt8) : State :=
  if s.leave.place = .comment then s.leave.record b
  else { s.addToken.leave with lastEncoded := false }

def step (s : State) (b : UInt8) (rest : Bytes) : Move State :=
  if b == byte '\n' then s.lineEnd rest
  else if b == byte '\\' && s.place ≠ .name && !s.escaped then .go s.escape 0
  else if b == byte ',' && s.place = .name then .go s.addToken.addContact 0
  else if b == byte '<' && s.place = .name then
    .go ({ s with isMail := false }.addToken.enter .address) 0
  else if b == byte '>' && s.place = .address then .go s.addToken.leave 0
  else if b == byte '"' && !s.escaped && s.place = .name then .go (s.enter .quote).addToken 0
  else if b == byte '"' && !s.escaped && s.place = .quote then .go s.addToken.leave 0
  else if b == byte '@' && s.place = .name then .go ({ s with isMail := true }.record b) 0
  else if isFold b then .go (s.blank b) 0
  else if b == byte '\r' then .go { s with token := s.token.pass b } 0
  else if b == byte '(' && s.place ≠ .quote && !s.escaped then .go (s.openComment b) 0
  else if b == byte ')' && s.place = .comment && !s.escaped then .go (s.closeComment b) 0
  else if b == byte ':' && s.place = .name && !s.escaped then .go s.openGroup 0
  else if b == byte ';' && s.place = .name then .go s.addToken.addContact.addGroup 0
  else
    match if s.tokenStart && !s.escaped then EncodedWord.at? b rest else none with
    | some (w, n) => .go (s.addToken.addEncoded w) n
    | none => .go (s.record b) 0

/-- A token that is still open where the input ends is not counted. -/
def State.value (s : State) : Value :=
  let s := s.addContact
  if s.groupName.isSome || !s.groups.isEmpty then .groups s.addGroup.groups
  else if s.contacts.isEmpty then .bare
  else .contacts s.contacts

def read (input : Bytes) : Reading :=
  let e := scan step .initial input
  (e.state.value, e.rest)

end MailSieve.Mail.Contacts
