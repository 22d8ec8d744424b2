import MailSieve.Ledger.Codec
import MailSieve.Proofs.Json.Text
import MailSieve.Proofs.Text.Sorted

/-!
The text of a ledger is read as the identifiers in it.
-/

namespace MailSieve.Ledger

open Json

theorem joined_cons (sep : Char) (t : List Char) (ts : List (List Char)) :
    joined sep (t :: ts) = t ++ ts.flatMap (sep :: ·) := by
  induction ts generalizing t with
  | nil => simp [joined]
  | cons u ts ih => rw [joined, ih, List.flatMap_cons, List.cons_append]; simp

theorem readIdentifier_quoted (a : String) (r : List Char) :
    ∃ lt, readIdentifier (quoted a ++ r) = .ok ⟨a, r, lt⟩ := by
  have h := readString_quoted a.toList r
  have hq : quoted a ++ r = '"' :: (a.toList.flatMap escape ++ '"' :: r) := by
    simp [quoted]
  rw [hq]
  cases h with
  | intro lt h =>
    refine ⟨Nat.lt_succ_of_lt lt, ?_⟩
    rw [readIdentifier, h]
    simp only [bind, Except.bind, pure, Except.pure, String.ofList_toList]

/-- The rest of a list after its next element is read as the rest of the elements. -/
theorem readElements_cons {first : Bool} {a : String} {as : List String} {s t r : List Char}
    (le : (quoted a ++ t).length ≤ s.length) {le' : r.length ≤ t.length}
    (hs : nextElement first s = .ok ⟨true, quoted a ++ t, le⟩)
    (ht : readElements false t = .ok ⟨as, r, le'⟩) :
    ∃ le, readElements first s = .ok ⟨a :: as, r, le⟩ := by
  cases readIdentifier_quoted a t with
  | intro lt ha =>
    refine ⟨by omega, ?_⟩
    rw [readElements, hs]
    simp only [bind, Except.bind, if_true, ha, ht, pure, Except.pure]

theorem readElements_end (first : Bool) (r : List Char) :
    ∃ le, readElements first (']' :: r) = .ok ⟨[], r, le⟩ := by
  have h : nextElement first (']' :: r) = .ok ⟨false, r, Nat.le_succ _⟩ := rfl
  refine ⟨Nat.le_succ _, ?_⟩
  rw [readElements, h]
  rfl

theorem readElements_more (as : List String) (r : List Char) :
    ∃ le, readElements false (as.flatMap (fun a => ',' :: quoted a) ++ ']' :: r) =
      .ok ⟨as, r, le⟩ := by
  induction as with
  | nil => exact readElements_end false r
  | cons a as ih =>
    cases ih with
    | intro le ih =>
      rw [List.flatMap_cons, List.append_assoc]
      exact readElements_cons (Nat.le_succ _) rfl ih

theorem readElements_joined (as : List String) (r : List Char) :
    ∃ le, readElements true (joined ',' (as.map quoted) ++ ']' :: r) = .ok ⟨as, r, le⟩ := by
  cases as with
  | nil => exact readElements_end true r
  | cons a as =>
    cases readElements_more as r with
    | intro le h =>
      rw [List.map_cons, joined_cons, List.flatMap_map, List.append_assoc]
      exact readElements_cons (Nat.le_refl _) rfl h

theorem readFields_end (as : List String) :
    readFields false (some as) ['\x7d'] = .ok ⟨as, [], Nat.zero_le _⟩ := by
  have h : nextKey false ['\x7d'] = .ok ⟨false, [], Nat.zero_le _⟩ := rfl
  rw [readFields, h]
  rfl

theorem readIdentifiers_encoded (as : List String) (r : List Char) :
    ∃ le, readIdentifiers ('[' :: (joined ',' (as.map quoted) ++ ']' :: r)) = .ok ⟨as, r, le⟩ := by
  cases readElements_joined as r with
  | intro le h =>
    refine ⟨Nat.le_succ_of_le le, ?_⟩
    change (readElements true (joined ',' (as.map quoted) ++ ']' :: r)).bind _ = _
    rw [h]
    rfl

/-- The fields after the identifiers, which come first. -/
theorem readFields_seen {as bs : List String} {s r t : List Char} {le : r.length ≤ s.length}
    {le' : t.length ≤ r.length} (hs : readIdentifiers s = .ok ⟨as, r, le⟩)
    (hr : readFields false (some as) r = .ok ⟨bs, t, le'⟩) :
    ∃ le, readFields true none (quoted field ++ ':' :: s) = .ok ⟨bs, t, le⟩ := by
  have hn : nextKey true (quoted field ++ ':' :: s) =
      .ok ⟨true, field.toList.flatMap escape ++ '"' :: ':' :: s, Nat.le_succ _⟩ := rfl
  have hc : skipColon (':' :: s) = .ok ⟨(), s, Nat.le_succ _⟩ := rfl
  cases readString_quoted field.toList (':' :: s) with
  | intro lt hk =>
    refine ⟨by simp only [List.length_append, List.length_cons]; omega, ?_⟩
    rw [readFields, hn]
    simp only [bind, Except.bind, if_true, hk, String.ofList_toList, Option.isSome_none,
      Bool.false_eq_true, if_false, hc, hs, hr]
    rfl

theorem readLedger_encode (ids : TextSet) : readLedger (encode ids) = .ok (ids.items, []) := by
  cases readIdentifiers_encoded ids.items ['\x7d'] with
  | intro le h =>
    cases readFields_seen h (readFields_end ids.items) with
    | intro le h =>
      change (readFields true none (quoted field ++ ':' :: '[' ::
        (joined ',' (ids.items.map quoted) ++ [']', '\x7d']))).bind _ = _
      rw [h]
      rfl

theorem decode_encode (ids : TextSet) : decode (encode ids) = .ok ids := by
  have h : readWhole (encode ids) = .ok ids.items := by
    rw [readWhole, readLedger_encode]
    rfl
  rw [decode, h]
  exact congrArg Except.ok ids.ofList_items

end MailSieve.Ledger
