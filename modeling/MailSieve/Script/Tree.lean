/-!
The syntax tree of a filter script.
-/

namespace MailSieve.Script

inductive MatchType where | is | contains | matches
  deriving DecidableEq

def MatchType.tag : MatchType → String
  | .is => "is"
  | .contains => "contains"
  | .matches => "matches"

def MatchType.ofTag? : String → Option MatchType
  | "is" => some .is
  | "contains" => some .contains
  | "matches" => some .matches
  | _ => none

inductive AddressPart where | localpart | domain | all
  deriving DecidableEq

def AddressPart.tag : AddressPart → String
  | .localpart => "localpart"
  | .domain => "domain"
  | .all => "all"

def AddressPart.ofTag? : String → Option AddressPart
  | "localpart" => some .localpart
  | "domain" => some .domain
  | "all" => some .all
  | _ => none

/-- Compares the text of headers with keys. -/
structure HeaderTest where
  comparator : Option String
  matchType : Option MatchType
  headers : List String
  keys : List String
  deriving DecidableEq

/-- Compares the addresses in headers with keys. -/
structure AddressTest where
  comparator : Option String
  part : Option AddressPart
  matchType : Option MatchType
  headers : List String
  keys : List String
  deriving DecidableEq

inductive Test where
  | allof (tests : List Test)
  | anyof (tests : List Test)
  | header (test : HeaderTest)
  | address (test : AddressTest)

mutual

inductive Command where
  | require (capabilities : List String)
  | keep
  | discard
  | fileinto (mailbox : String)
  | addflag (target : Option String) (flags : List String)
  | branch (test : Test) (block : List Command) (next : Chain)

/-- What an `if` does when its test fails. -/
inductive Chain where
  | done
  | elsif (test : Test) (block : List Command) (next : Chain)
  | otherwise (block : List Command)

end

abbrev Program := List Command

end MailSieve.Script
