import Mathlib.Data.List.Sort
import MailSieve.Text.Sorted

/-!
Sorting keeps the elements, and sets of texts are determined by their members.
-/

namespace MailSieve.Text

theorem mem_sortUnique [LT α] [DecidableLT α] [DecidableEq α] {a : α} {l : List α} :
    a ∈ sortUnique l ↔ a ∈ l := by
  have hfold (acc : List α) : a ∈ l.foldl (fun acc a => insertSorted a acc) acc ↔ a ∈ l ∨ a ∈ acc := by
    induction l generalizing acc with
    | nil => simp
    | cons b l ih => grind [mem_insertSorted]
  simp [sortUnique, hfold]

end MailSieve.Text

namespace MailSieve.TextSet

theorem ext {a b : TextSet} (h : ∀ s, s ∈ a ↔ s ∈ b) : a = b := by
  have hitems : a.items = b.items := a.sorted.eq_of_mem_iff b.sorted h
  cases a
  cases b
  cases hitems
  rfl

theorem mem_foldl_insert {s : String} (l : List String) (a : TextSet) :
    s ∈ l.foldl (fun a s => a.insert s) a ↔ s ∈ l ∨ s ∈ a := by
  induction l generalizing a with
  | nil => simp
  | cons t l ih => grind [mem_insert]

@[simp] theorem mem_ofList {s : String} {l : List String} : s ∈ ofList l ↔ s ∈ l := by
  simp [ofList, mem_foldl_insert]

/-- Collecting the members of a set again gives the set. -/
theorem ofList_items (a : TextSet) : ofList a.items = a :=
  ext fun _ => mem_ofList

/-- The members of either set. -/
def union (a b : TextSet) : TextSet := b.items.foldl (fun c s => c.insert s) a

@[simp] theorem mem_union {s : String} {a b : TextSet} : s ∈ a.union b ↔ s ∈ a ∨ s ∈ b := by
  rw [union, mem_foldl_insert, or_comm]
  rfl

@[simp] theorem union_empty (a : TextSet) : a.union .empty = a := rfl

end MailSieve.TextSet
