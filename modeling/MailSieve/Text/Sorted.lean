/-!
Sets of texts, kept as lists in strictly ascending order, so that equal sets are equal values.
-/

namespace MailSieve.Text

/-- Adds an element to an ascending list unless it is there. -/
def insertSorted [LT α] [DecidableLT α] [DecidableEq α] (a : α) : List α → List α
  | [] => [a]
  | b :: r => if a < b then a :: b :: r else if a = b then b :: r else b :: insertSorted a r

/-- The elements in ascending order, each once. -/
def sortUnique [LT α] [DecidableLT α] [DecidableEq α] (as : List α) : List α :=
  as.foldl (fun acc a => insertSorted a acc) []

theorem mem_insertSorted [LT α] [DecidableLT α] [DecidableEq α] {a b : α} {l : List α} :
    b ∈ insertSorted a l ↔ b = a ∨ b ∈ l := by
  induction l with
  | nil => simp [insertSorted]
  | cons c r ih => grind [insertSorted]

theorem lt_of_not_lt_of_ne {s t : String} (h : ¬ s < t) (hne : s ≠ t) : t < s :=
  Decidable.byContradiction fun h' => hne (String.le_antisymm h' h)

theorem insertSorted_sorted (s : String) {l : List String} (h : l.Pairwise (· < ·)) :
    (insertSorted s l).Pairwise (· < ·) := by
  induction l with
  | nil => simp [insertSorted]
  | cons t r ih =>
    have ⟨ht, hr⟩ := List.pairwise_cons.1 h
    unfold insertSorted
    split
    · next hlt =>
      refine List.pairwise_cons.2 ⟨fun u hu => ?_, h⟩
      rcases List.mem_cons.1 hu with rfl | hu
      · exact hlt
      · exact String.lt_trans hlt (ht u hu)
    · next hlt =>
      split
      · exact h
      · next hne =>
        refine List.pairwise_cons.2 ⟨fun u hu => ?_, ih hr⟩
        rcases mem_insertSorted.1 hu with rfl | hu
        · exact lt_of_not_lt_of_ne hlt hne
        · exact ht u hu

end MailSieve.Text

namespace MailSieve

/-- A finite set of texts. -/
structure TextSet where
  items : List String
  sorted : items.Pairwise (· < ·)

namespace TextSet

def empty : TextSet := ⟨[], .nil⟩

def insert (s : String) (a : TextSet) : TextSet :=
  ⟨Text.insertSorted s a.items, Text.insertSorted_sorted s a.sorted⟩

def ofList (l : List String) : TextSet := l.foldl (fun a s => a.insert s) empty

def size (a : TextSet) : Nat := a.items.length

instance : Membership String TextSet := ⟨fun a s => s ∈ a.items⟩

instance (s : String) (a : TextSet) : Decidable (s ∈ a) :=
  inferInstanceAs (Decidable (s ∈ a.items))

@[simp] theorem not_mem_empty (s : String) : ¬ s ∈ empty := List.not_mem_nil

@[simp] theorem mem_insert {s t : String} {a : TextSet} : t ∈ a.insert s ↔ t = s ∨ t ∈ a :=
  Text.mem_insertSorted

end TextSet

end MailSieve
