import Mathlib.Data.List.Induction
import Mathlib.Data.List.Nodup
import MailSieve.Files.Disk

/-!
Disks are trees: whatever is there is in a directory. Writing a file and moving one change nothing but the
places that they name, and leave a tree.
-/

namespace MailSieve.Files

theorem Node.exists_file {n : Node} (h : n ≠ .directory) : ∃ content date, n = .file content date := by
  cases n with
  | directory => exact absurd rfl h
  | file content date => exact ⟨content, date, rfl⟩

namespace Disk

variable {d : Disk} {p q s t : Place} {n : Node}

/-- Each place of a disk is taken once, and what is there is in a directory. -/
structure IsTree (d : Disk) : Prop where
  distinct : (d.entries.map Prod.fst).Nodup
  parent : ∀ p name, d.node? (p ++ [name]) ≠ none → d.node? p = some .directory

@[simp] theorem node?_nil (d : Disk) : d.node? [] = some .directory := rfl

theorem node?_of_ne_nil (d : Disk) (h : p ≠ []) : d.node? p = d.entries.lookup p := if_neg h

theorem ne_nil_of_node? (h : d.node? p ≠ some .directory) : p ≠ [] := by
  rintro rfl
  exact h rfl

theorem mem_of_node? (hp : p ≠ []) (h : d.node? p = some n) : (p, n) ∈ d.entries := by
  rw [node?_of_ne_nil d hp] at h
  obtain ⟨l, r, hl, -⟩ := List.lookup_eq_some_iff.1 h
  rw [hl]
  simp

theorem node?_ne_none_of_mem {e : Place × Node} (h : e ∈ d.entries) : d.node? e.1 ≠ none := by
  by_cases hp : e.1 = []
  · rw [hp]
    exact Option.some_ne_none _
  · rw [node?_of_ne_nil d hp, Ne, List.lookup_eq_none_iff]
    intro hall
    simpa using hall e h

theorem isTree_iff : d.IsTree ↔
    (d.entries.map Prod.fst).Nodup ∧ ∀ e ∈ d.entries, d.node? e.1.dropLast = some .directory := by
  constructor
  · intro hd
    refine ⟨hd.distinct, fun e he => ?_⟩
    have hne := node?_ne_none_of_mem he
    obtain hnil | ⟨p, name, hp⟩ := List.eq_nil_or_concat' e.1
    · rw [hnil]
      rfl
    · rw [hp] at hne ⊢
      rw [List.dropLast_concat]
      exact hd.parent p name hne
  · rintro ⟨hdistinct, h⟩
    refine ⟨hdistinct, fun p name hp => ?_⟩
    obtain ⟨n, hn⟩ := Option.ne_none_iff_exists'.1 hp
    have hdir := h _ (mem_of_node? (by simp) hn)
    rwa [List.dropLast_concat] at hdir

instance (d : Disk) : Decidable d.IsTree := decidable_of_iff _ isTree_iff.symm

/-- Nothing is below what is not a directory. -/
theorem IsTree.eq_of_prefix (hd : d.IsTree) (hp : d.node? p ≠ some .directory) (hpq : p <+: q)
    (hq : d.node? q ≠ none) : q = p := by
  obtain ⟨r, rfl⟩ := hpq
  induction r using List.reverseRecOn with
  | nil => exact List.append_nil p
  | append_singleton r name ih =>
    rw [← List.append_assoc] at hq
    have hr := hd.parent _ _ hq
    have heq := ih (by rw [hr]; exact Option.some_ne_none _)
    rw [heq] at hr
    exact absurd hr hp

/-- What is above a directory is one. -/
theorem IsTree.dropLast (hd : d.IsTree) (hp : d.node? p = some .directory) :
    d.node? p.dropLast = some .directory := by
  obtain rfl | ⟨p, name, rfl⟩ := List.eq_nil_or_concat' p
  · rfl
  · rw [List.dropLast_concat]
    exact hd.parent p name (by rw [hp]; exact Option.some_ne_none _)

theorem lookup_cons_eq_ite (e : Place × Node) (es : List (Place × Node)) :
    (e :: es).lookup q = if q = e.1 then some e.2 else es.lookup q := by
  obtain ⟨x, m⟩ := e
  rw [List.lookup_cons]
  by_cases h : q = x
  · rw [if_pos h, beq_iff_eq.2 h]
  · rw [if_neg h, beq_false_of_ne h]

theorem lookup_filter_ne (es : List (Place × Node)) :
    (es.filter fun e => e.1 != p).lookup q = if q = p then none else es.lookup q := by
  induction es with
  | nil => simp
  | cons e es ih =>
    rw [List.filter_cons, lookup_cons_eq_ite]
    by_cases he : e.1 = p
    · simp only [he, bne_self_eq_false, Bool.false_eq_true, if_false, ih]
      grind
    · rw [if_pos (bne_iff_ne.2 he), lookup_cons_eq_ite, ih]
      grind

theorem node?_put (d : Disk) (n : Node) (h : p ≠ []) :
    (d.put p n).node? q = if q = p then some n else d.node? q := by
  by_cases hq : q = []
  · subst hq
    rw [if_neg h.symm]
    rfl
  · rw [node?_of_ne_nil _ hq, node?_of_ne_nil _ hq, put, drop, List.lookup_append, lookup_filter_ne,
      lookup_cons_eq_ite]
    by_cases hqp : q = p <;> simp [hqp]

/-- The entry at one place taken to another, when there is nothing below it. -/
theorem lookup_moved {es : List (Place × Node)} (hs : ∀ e ∈ es, s <+: e.1 → e.1 = s) (hst : s ≠ t) :
    ((es.filter fun e => e.1 != t).map fun e =>
      if s.isPrefixOf e.1 then (t ++ e.1.drop s.length, e.2) else e).lookup q =
      if q = t then es.lookup s else if q = s then none else es.lookup q := by
  induction es with
  | nil => simp
  | cons e es ih =>
    have ih := ih fun e he => hs e (List.mem_cons_of_mem _ he)
    rw [List.filter_cons, lookup_cons_eq_ite, lookup_cons_eq_ite]
    by_cases het : e.1 = t
    · simp only [het, bne_self_eq_false, Bool.false_eq_true, if_false, ih]
      grind
    · rw [if_pos (bne_iff_ne.2 het), List.map_cons]
      by_cases hes : e.1 = s
      · have hprefix : s.isPrefixOf e.1 = true := List.isPrefixOf_iff_prefix.2 (hes ▸ List.prefix_refl _)
        rw [if_pos hprefix, lookup_cons_eq_ite, ih, hes, List.drop_length, List.append_nil]
        grind
      · have hprefix : ¬ s.isPrefixOf e.1 = true := fun h =>
          hes (hs e List.mem_cons_self (List.isPrefixOf_iff_prefix.1 h))
        rw [if_neg hprefix, lookup_cons_eq_ite, ih]
        grind

/-- What is where, once a file was moved. -/
theorem node?_moved (hd : d.IsTree) (hs : d.node? s ≠ some .directory) (ht : t ≠ []) (hst : s ≠ t) :
    ((d.drop t).move s t).node? q = if q = t then d.node? s else if q = s then none else d.node? q := by
  have hleaf : ∀ e ∈ d.entries, s <+: e.1 → e.1 = s := fun e he h =>
    hd.eq_of_prefix hs h (node?_ne_none_of_mem he)
  have hmoved := lookup_moved (q := q) hleaf hst
  by_cases hq : q = []
  · subst hq
    rw [if_neg ht.symm, if_neg (ne_nil_of_node? hs).symm]
    rfl
  · rw [node?_of_ne_nil _ hq, node?_of_ne_nil _ hq, node?_of_ne_nil d (ne_nil_of_node? hs)]
    exact hmoved

theorem IsTree.put (hd : d.IsTree) {name : String} (hp : d.node? p = some .directory)
    (hn : d.node? (p ++ [name]) = some .directory → n = .directory) :
    (d.put (p ++ [name]) n).IsTree where
  distinct := by
    rw [Disk.put, drop, List.map_append, List.nodup_append]
    refine ⟨hd.distinct.sublist (List.filter_sublist.map _), List.pairwise_singleton _ _, ?_⟩
    intro x hx y hy
    obtain ⟨e, he, rfl⟩ := List.mem_map.1 hx
    cases List.mem_singleton.1 hy
    exact bne_iff_ne.1 (List.mem_filter.1 he).2
  parent x nm h := by
    have hne : p ++ [name] ≠ [] := by simp
    rw [node?_put d n hne] at h ⊢
    by_cases hx : x = p ++ [name]
    · subst hx
      have hbelow : p ++ [name] ++ [nm] ≠ p ++ [name] := by simp
      rw [if_neg hbelow] at h
      rw [if_pos rfl, hn (hd.parent _ _ h)]
    · rw [if_neg hx]
      split at h
      · next heq =>
        obtain ⟨rfl, -⟩ := List.append_inj' heq rfl
        exact hp
      · exact hd.parent x nm h

/-- A file that is moved into a directory leaves a tree. -/
theorem IsTree.moved (hd : d.IsTree) {name : String} (hs : d.node? s ≠ some .directory)
    (hp : d.node? p = some .directory) (hn : d.node? (p ++ [name]) ≠ some .directory)
    (hst : s ≠ p ++ [name]) : ((d.drop (p ++ [name])).move s (p ++ [name])).IsTree where
  distinct := by
    have hkey : ∀ e ∈ d.entries, s.isPrefixOf e.1 = true → e.1 = s := fun e he h =>
      hd.eq_of_prefix hs (List.isPrefixOf_iff_prefix.1 h) (node?_ne_none_of_mem he)
    have hkeys : ((d.drop (p ++ [name])).move s (p ++ [name])).entries.map Prod.fst =
        ((d.entries.filter fun e => e.1 != p ++ [name]).map Prod.fst).map
          fun x => if x = s then p ++ [name] else x := by
      simp only [move, drop, List.map_map]
      refine List.map_congr_left fun e he => ?_
      have he := hkey e (List.mem_filter.1 he).1
      simp only [Function.comp_apply]
      by_cases hes : e.1 = s
      · rw [if_pos (List.isPrefixOf_iff_prefix.2 (hes ▸ List.prefix_refl _)), if_pos hes, hes]
        simp
      · rw [if_neg fun h => hes (he h), if_neg hes]
    rw [hkeys]
    refine List.Nodup.map_on ?_ (hd.distinct.sublist (List.filter_sublist.map _))
    intro x hx y hy h
    have hne {z : Place} (hz : z ∈ (d.entries.filter fun e => e.1 != p ++ [name]).map Prod.fst) :
        z ≠ p ++ [name] := by
      obtain ⟨e, he, rfl⟩ := List.mem_map.1 hz
      exact bne_iff_ne.1 (List.mem_filter.1 he).2
    have hx := hne hx
    have hy := hne hy
    grind
  parent x nm h := by
    have hne : p ++ [name] ≠ [] := by simp
    have hps : p ≠ s := by
      rintro rfl
      exact hs hp
    have hpt : p ≠ p ++ [name] := by simp
    rw [node?_moved hd hs hne hst] at h ⊢
    split at h
    · next heq =>
      obtain ⟨rfl, -⟩ := List.append_inj' heq rfl
      rw [if_neg hpt, if_neg hps]
      exact hp
    · split at h
      · exact absurd rfl h
      · have hx := hd.parent x nm h
        have hxs : x ≠ s := by
          rintro rfl
          exact hs hx
        have hxt : x ≠ p ++ [name] := by
          rintro rfl
          exact hn hx
        rw [if_neg hxt, if_neg hxs]
        exact hx

end Disk

end MailSieve.Files
