import MailSieve.Filter.Evaluate

/-!
What a script means for a message, said without running it: which tests hold, and in what order the
tests and actions of the script are visited.
-/

namespace MailSieve.Filter

open Script Mail Text

/-- A test that has no subtests. -/
inductive Leaf where
  | header (t : HeaderTest)
  | address (t : AddressTest)

/-- Some header that is named has some value in which some key occurs, or an address that is some key. -/
def Leaf.Holds (lookup : Lookup) : Leaf → Prop
  | .header t => ∃ name ∈ t.headers, ∃ v ∈ lookup (lowercase name), ∃ key ∈ t.keys,
      (lowercase key).toList <:+: (lowercase v.shown).toList
  | .address t => ∃ name ∈ t.headers, ∃ v ∈ lookup (lowercase name), ∃ a ∈ v.members,
      ∃ key ∈ t.keys, lowercase a.address = lowercase key

instance (lookup : Lookup) : (l : Leaf) → Decidable (l.Holds lookup)
  | .header t => inferInstanceAs (Decidable (∃ name ∈ t.headers, ∃ v ∈ lookup (lowercase name),
      ∃ key ∈ t.keys, (lowercase key).toList <:+: (lowercase v.shown).toList))
  | .address t => inferInstanceAs (Decidable (∃ name ∈ t.headers, ∃ v ∈ lookup (lowercase name),
      ∃ a ∈ v.members, ∃ key ∈ t.keys, lowercase a.address = lowercase key))

def Leaf.kind : Leaf → TestKind
  | .header _ => .header
  | .address _ => .address

/-- What of a test has no evaluation, in the order in which it is objected to. -/
def Leaf.unsupported : Leaf → List Tag
  | .header t =>
    (t.comparator.map fun _ => .comparator).toList ++
      ([t.matchType.getD .is].filter (· ≠ .contains)).map .matchType
  | .address t =>
    (t.comparator.map fun _ => .comparator).toList ++ (t.part.map .part).toList ++
      ([t.matchType.getD .is].filter (· ≠ .is)).map .matchType

def Leaf.fault? (l : Leaf) : Option Unsupported :=
  l.unsupported.head?.map fun tag => ⟨l.kind, tag⟩

mutual

def truth (lookup : Lookup) : Test → Bool
  | .allof ts => allTrue lookup ts
  | .anyof ts => anyTrue lookup ts
  | .header t => (Leaf.header t).Holds lookup
  | .address t => (Leaf.address t).Holds lookup

def allTrue (lookup : Lookup) : List Test → Bool
  | [] => true
  | t :: ts => truth lookup t && allTrue lookup ts

def anyTrue (lookup : Lookup) : List Test → Bool
  | [] => false
  | t :: ts => truth lookup t || anyTrue lookup ts

end

mutual

/-- The leaves that decide a test, from left to right: the rest of an `allof` is not asked after a false
subtest, nor that of an `anyof` after a true one. -/
def asked (lookup : Lookup) : Test → List Leaf
  | .allof ts => askedAll lookup ts
  | .anyof ts => askedAny lookup ts
  | .header t => [.header t]
  | .address t => [.address t]

def askedAll (lookup : Lookup) : List Test → List Leaf
  | [] => []
  | t :: ts => asked lookup t ++ if truth lookup t then askedAll lookup ts else []

def askedAny (lookup : Lookup) : List Test → List Leaf
  | [] => []
  | t :: ts => asked lookup t ++ if truth lookup t then [] else askedAny lookup ts

end

/-- What a script does that bears on its result. -/
inductive Visit where
  | leaf (l : Leaf)
  | verdict (keep : Bool)
  | destination (mailbox : String)
  | flags (fs : List String)

mutual

/-- The visits of a command. What lies beyond a leaf that has no evaluation is listed too, but never
reached. -/
def visits (lookup : Lookup) : Command → List Visit
  | .require _ => []
  | .keep => [.verdict true]
  | .discard => [.verdict false]
  | .fileinto m => [.destination m]
  | .addflag _ fs => [.flags fs]
  | .branch t b next =>
    (asked lookup t).map .leaf ++
      if truth lookup t then walk lookup b else walkChain lookup next

def walk (lookup : Lookup) : List Command → List Visit
  | [] => []
  | c :: cs => visits lookup c ++ walk lookup cs

def walkChain (lookup : Lookup) : Chain → List Visit
  | .done => []
  | .elsif t b next =>
    (asked lookup t).map .leaf ++
      if truth lookup t then walk lookup b else walkChain lookup next
  | .otherwise b => walk lookup b

end

namespace Visit

def fault? : Visit → Option Unsupported
  | .leaf l => l.fault?
  | _ => none

def verdict? : Visit → Option Bool
  | .verdict b => some b
  | _ => none

def destination? : Visit → Option String
  | .destination m => some m
  | _ => none

def flagsOf : Visit → List String
  | .flags fs => fs
  | _ => []

end Visit

/-- The first leaf on a walk that has no evaluation. -/
def firstFault? (vs : List Visit) : Option Unsupported := vs.findSome? Visit.fault?

/-- The last verdict and the last destination stand, flags add up. -/
structure Settles (vs : List Visit) (d : Decision) : Prop where
  verdict : d.verdict = (vs.filterMap Visit.verdict?).getLast?
  destination : d.destination = (vs.filterMap Visit.destination?).getLast?
  flags : ∀ f, f ∈ d.flags ↔ f ∈ vs.flatMap Visit.flagsOf

end MailSieve.Filter
