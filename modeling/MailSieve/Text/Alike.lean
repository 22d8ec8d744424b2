import MailSieve.Text.Lowercase

/-!
Characters that differ only in case. Each class of them has one member that stands for it, its simple
case folding.
-/

namespace MailSieve.Text

/-- Pairs of a character that is no capital and the one that stands for both. -/
def foldedForms : List (Nat × Nat) :=
  [(0xb5, 0x3bc), (0x17f, 0x73), (0x345, 0x3b9), (0x3c2, 0x3c3), (0x3d0, 0x3b2), (0x3d1, 0x3b8),
    (0x3d5, 0x3c6), (0x3d6, 0x3c0), (0x3f0, 0x3ba), (0x3f1, 0x3c1), (0x3f5, 0x3b5),
    (0x1c80, 0x432), (0x1c81, 0x434), (0x1c82, 0x43e), (0x1c83, 0x441), (0x1c84, 0x442),
    (0x1c85, 0x442), (0x1c86, 0x44a), (0x1c87, 0x463), (0x1c88, 0xa64b), (0x1e9b, 0x1e61),
    (0x1fbe, 0x3b9), (0x1fd3, 0x390), (0x1fe3, 0x3b0), (0xfb06, 0xfb05)]

/-- The character that stands for those that differ from it only in case. -/
def foldChar (c : Char) : Char :=
  match foldedForms.lookup c.toNat with
  | some n => Char.ofNat n
  | none =>
    match lowerChar c with
    | [l] => l
    | _ => c

/-- The capitals of a lowercase character. -/
def capitals (c : Char) : List Char :=
  (if c.isLower then [c.toUpper] else []) ++
    lowerRuns.filterMap fun r =>
      let n := r.1 + (c.toNat - r.2.2.2)
      if r.2.2.2 ≤ c.toNat && n ≤ r.2.1 && (n - r.1) % r.2.2.1 == 0 then some (Char.ofNat n) else none

/-- The characters that differ from one only in case, and itself. -/
def alike (c : Char) : List Char :=
  let f := foldChar c
  f :: (capitals f ++ foldedForms.filterMap fun p => if p.2 = f.toNat then some (Char.ofNat p.1) else none)

end MailSieve.Text
