import Mathlib.Data.List.Forall2
import Mathlib.Data.List.Pairwise
import MailSieve.Proofs.Mail.Values
import MailSieve.Proofs.Text.AsciiCase

/-!
The names that a message lists divide its fields among them: every field is found under exactly one of them,
once and in its place, and nothing is found under any other name.
-/

namespace MailSieve.Text

/-- The same character, or a capital letter of ASCII and the small one. -/
inductive SameLetter : Char → Char → Prop
  | refl : SameLetter c c
  | lower : c.isUpper → SameLetter c c.toLower
  | upper : c.isUpper → SameLetter c.toLower c

/-- The same text but for the case of its ASCII letters. -/
def SameLetters (s t : String) : Prop := List.Forall₂ SameLetter s.toList t.toList

theorem toUpper_of_isUpper {c : Char} (h : c.isUpper) : c.toUpper = c :=
  Char.toUpper_eq_of_not_isLower (Char.not_isLower_of_isUpper h)

theorem sameLetter_iff {c d : Char} : SameLetter c d ↔ c.toLower = d.toLower := by
  constructor
  · rintro (_ | _ | _)
    · rfl
    · exact (Char.toLower_toLower_eq_toLower c).symm
    · exact Char.toLower_toLower_eq_toLower d
  · intro h
    by_cases hc : c.isUpper <;> by_cases hd : d.isUpper
    · have hupper := congrArg Char.toUpper h
      rw [Char.toUpper_toLower_eq_toUpper, Char.toUpper_toLower_eq_toUpper, toUpper_of_isUpper hc,
        toUpper_of_isUpper hd] at hupper
      exact hupper ▸ .refl
    · rw [Char.toLower_eq_of_not_isUpper hd] at h
      exact h ▸ .lower hc
    · rw [Char.toLower_eq_of_not_isUpper hc] at h
      exact h ▸ .upper hd
    · rw [Char.toLower_eq_of_not_isUpper hc, Char.toLower_eq_of_not_isUpper hd] at h
      exact h ▸ .refl

theorem sameName_iff_sameLetters {s t : String} : sameName s t = true ↔ SameLetters s t := by
  rw [sameName_iff, SameLetters, ← List.forall₂_eq_eq_eq, List.forall₂_map_left_iff,
    List.forall₂_map_right_iff]
  exact ⟨.imp fun _ _ => sameLetter_iff.2, .imp fun _ _ => sameLetter_iff.1⟩

theorem SameLetters.symm {s t : String} (h : SameLetters s t) : SameLetters t s := by
  rw [← sameName_iff_sameLetters, sameName_iff] at *
  exact h.symm

theorem SameLetters.trans {s t u : String} (h : SameLetters s t) (h' : SameLetters t u) :
    SameLetters s u := by
  rw [← sameName_iff_sameLetters, sameName_iff] at *
  exact h.trans h'

/-- A text in small letters stands for all that only differ from it in case. -/
theorem sameLetters_iff {s t : String} (h : asciiLower t = t) : SameLetters s t ↔ asciiLower s = t := by
  rw [← sameName_iff_sameLetters, sameName, beq_iff_eq, h]

end MailSieve.Text

namespace MailSieve.Mail

open Text

theorem mem_firstOccurrences {s : String} {l : List String} : s ∈ firstOccurrences l ↔ s ∈ l := by
  induction l with
  | nil => rfl
  | cons t r ih =>
    by_cases hs : s = t
    · simp [firstOccurrences, hs]
    · simp [firstOccurrences, hs, ih]

theorem pairwise_firstOccurrences (l : List String) :
    (firstOccurrences l).Pairwise fun a b => l.idxOf a < l.idxOf b := by
  induction l with
  | nil => exact .nil
  | cons t r ih =>
    have hrest {s : String} (hs : s ∈ (firstOccurrences r).filter (· != t)) :
        (t :: r).idxOf s = r.idxOf s + 1 :=
      List.idxOf_cons_ne r (bne_iff_ne.1 (List.mem_filter.1 hs).2).symm
    refine .cons (fun s hs => ?_) ((ih.filter _).imp_of_mem fun ha hb h => ?_)
    · rw [hrest hs, List.idxOf_cons_self]
      exact Nat.succ_pos _
    · rw [hrest ha, hrest hb]
      exact Nat.succ_lt_succ h

variable {m : Message}

/-- The place of the first field of a name, that after the last field if there is none. -/
def Message.firstAt (m : Message) (n : String) : Nat :=
  m.fields.findIdx fun f => sameName f.name n

theorem Message.mem_names {n : String} : n ∈ m.names ↔ ∃ f ∈ m.fields, asciiLower f.name = n := by
  rw [Message.names, mem_firstOccurrences, List.mem_map]

theorem Message.asciiLower_of_mem_names {n : String} (h : n ∈ m.names) : asciiLower n = n := by
  obtain ⟨f, -, rfl⟩ := Message.mem_names.1 h
  exact asciiLower_asciiLower _

theorem Message.firstAt_of_mem_names {n : String} (h : n ∈ m.names) :
    m.firstAt n = (m.fields.map fun f => asciiLower f.name).idxOf n := by
  rw [List.idxOf, List.findIdx_map, Message.firstAt]
  congr 1
  funext f
  rw [sameName, asciiLower_of_mem_names h]
  rfl

theorem Message.pairwise_names (m : Message) :
    m.names.Pairwise fun a b => m.firstAt a < m.firstAt b := by
  refine (pairwise_firstOccurrences _).imp_of_mem fun ha hb h => ?_
  rwa [firstAt_of_mem_names ha, firstAt_of_mem_names hb]

theorem Message.firstAt_congr {a b : String} (h : SameLetters a b) : m.firstAt a = m.firstAt b := by
  have hlower := beq_iff_eq.1 (sameName_iff_sameLetters.2 h)
  simp only [Message.firstAt, sameName, hlower]

/-- A field has one of the names that are listed, and no other. -/
theorem Message.existsUnique_name {f : Field} (h : f ∈ m.fields) :
    ∃! n, n ∈ m.names ∧ SameLetters f.name n := by
  refine ⟨asciiLower f.name, ⟨mem_names.2 ⟨f, h, rfl⟩, ?_⟩, fun n hn => ?_⟩
  · exact (sameLetters_iff (asciiLower_asciiLower _)).2 rfl
  · exact ((sameLetters_iff (asciiLower_of_mem_names hn.1)).1 hn.2).symm

theorem Message.lookup_eq_nil_iff {n : String} :
    m.lookup n = [] ↔ ∀ f ∈ m.fields, SameLetters f.name n → f.values = [] := by
  simp only [Message.lookup, List.flatMap_eq_nil_iff, List.mem_filter, sameName_iff_sameLetters,
    and_imp]

/-- What is found under a name in a part of the fields. -/
def found (fields : List Field) (n : String) : List FieldValue := Message.lookup ⟨fields⟩ n

theorem found_append (as bs : List Field) (n : String) : found (as ++ bs) n = found as n ++ found bs n := by
  simp only [found, Message.lookup, List.filter_append, List.flatMap_append]

theorem found_cons_of_same {f : Field} {n : String} (h : SameLetters f.name n) (fields : List Field) :
    found (f :: fields) n = f.values ++ found fields n := by
  rw [← sameName_iff_sameLetters] at h
  simp only [found, Message.lookup, List.filter_cons, h, if_true, List.flatMap_cons]

theorem found_cons_of_other {f : Field} {n : String} (h : ¬ SameLetters f.name n)
    (fields : List Field) : found (f :: fields) n = found fields n := by
  rw [← sameName_iff_sameLetters] at h
  simp only [found, Message.lookup, List.filter_cons, if_neg h]

/-- How names divide the fields of a message among them. -/
structure Divides (names : List String) (m : Message) : Prop where
  /-- No two of them are one name in different case. -/
  distinct : names.Pairwise fun a b => ¬ SameLetters a b
  /-- They come in the order in which the fields have them first. -/
  ordered : names.Pairwise fun a b => m.firstAt a < m.firstAt b
  /-- Each is the name of a field. -/
  taken : ∀ n ∈ names, ∃ f ∈ m.fields, SameLetters f.name n
  /-- Each field has one of them. -/
  covered : ∀ f ∈ m.fields, ∃! n, n ∈ names ∧ SameLetters f.name n
  /-- Under its name the values of a field are found once, between those of the fields before and after. -/
  once : ∀ before f after, m.fields = before ++ f :: after → ∀ n, SameLetters f.name n →
    m.lookup n = found before n ++ f.values ++ found after n
  /-- Under other names they are not found. -/
  apart : ∀ before f after, m.fields = before ++ f :: after → ∀ n, ¬ SameLetters f.name n →
    m.lookup n = found before n ++ found after n
  /-- Nothing is found under a name that is none of these. -/
  absent : ∀ n, (∀ a ∈ names, ¬ SameLetters n a) → m.lookup n = []

theorem divides_names (m : Message) : Divides m.names m where
  distinct := m.pairwise_names.imp fun hlt h => absurd (Message.firstAt_congr h) hlt.ne
  ordered := m.pairwise_names
  taken n hn := by
    obtain ⟨f, hf, hname⟩ := Message.mem_names.1 hn
    exact ⟨f, hf, (sameLetters_iff (Message.asciiLower_of_mem_names hn)).2 hname⟩
  covered _ := Message.existsUnique_name
  once before f after hm n hn := by
    have hsplit := found_append before (f :: after) n
    rw [← hm, found_cons_of_same hn, ← List.append_assoc] at hsplit
    exact hsplit
  apart before f after hm n hn := by
    have hsplit := found_append before (f :: after) n
    rw [← hm, found_cons_of_other hn] at hsplit
    exact hsplit
  absent n hn := by
    refine Message.lookup_eq_nil_iff.2 fun f hf hsame => ?_
    obtain ⟨a, ⟨ha, hfa⟩, -⟩ := Message.existsUnique_name hf
    exact absurd (hsame.symm.trans hfa) (hn a ha)

/-- The listed names divide the fields. A listed name has a value, and only a name that no field has is without
one, in a message that was read as in any that has no empty list of texts. Contacts and the members of groups
give their addresses, in order and without those that have none. -/
theorem names_divide_fields (m : Message) :
    Divides m.names m ∧
    ((∃ input, Message.read? input = some m) ∨ (∀ f ∈ m.fields, f.value ≠ .texts []) →
      (∀ n ∈ m.names, m.lookup n ≠ []) ∧
        ∀ n, m.lookup n = [] ↔ ∀ f ∈ m.fields, ¬ SameLetters f.name n) ∧
    ∀ f ∈ m.fields, ∀ cs,
      f.value = .contacts cs ∨ (∃ gs, f.value = .groups gs ∧ gs.flatMap Group.members = cs) →
      ∃ as, f.values = [.addresses as] ∧
        as.map Address.contact = cs.filter fun c => c.address.isSome := by
  refine ⟨divides_names m, fun h => ?_, fun f _ cs h => ?_⟩
  · have hshows : ∀ f ∈ m.fields, f.values ≠ [] := by
      intro f hf
      rw [Ne, Field.values_eq_nil_iff]
      obtain ⟨input, hread⟩ | hshows := h
      · exact shows_of_read hread f hf
      · exact hshows f hf
    have hnil (n : String) : m.lookup n = [] ↔ ∀ f ∈ m.fields, ¬ SameLetters f.name n := by
      rw [Message.lookup_eq_nil_iff]
      exact forall₂_congr fun f hf => imp_congr_right fun _ => iff_false_intro (hshows f hf)
    refine ⟨fun n hn => ?_, hnil⟩
    obtain ⟨f, hf, hname⟩ := (divides_names m).taken n hn
    exact fun hempty => (hnil n).1 hempty f hf hname
  · refine ⟨addressesOf cs, ?_, map_contact_addressesOf cs⟩
    obtain hv | ⟨gs, hv, rfl⟩ := h <;> rw [Field.values, hv]

/-- A name in two cases, and a group with a member that has no address. -/
def twoCases : Message :=
  ⟨[⟨"Cc", [], .groups [⟨some "team", [⟨none, some "a@b"⟩, ⟨some "C", none⟩]⟩]⟩, ⟨"CC", [], .text "d"⟩]⟩

/-- One name is listed for both fields, and the group gives the address of its one member that has any. -/
theorem twoCases_divided : twoCases.names = ["cc"] ∧
    (∀ f ∈ twoCases.fields, f.value ≠ .texts []) ∧ (∀ n ∈ twoCases.names, twoCases.lookup n ≠ []) ∧
    ∃ f ∈ twoCases.fields, ∃ as, f.values = [.addresses as] ∧
      as.map Address.contact = [⟨none, some "a@b"⟩] := by
  have hlower : asciiLower "Cc" = "cc" ∧ asciiLower "CC" = "cc" := by decide +kernel
  have hnames : twoCases.names = ["cc"] := by
    simp [Message.names, twoCases, firstOccurrences, hlower]
  have hshows : ∀ f ∈ twoCases.fields, f.value ≠ .texts [] := by decide
  obtain ⟨-, hvalues, haddresses⟩ := names_divide_fields twoCases
  have hgroup := haddresses _ (List.mem_cons_self ..) _ (.inr ⟨_, rfl, rfl⟩)
  exact ⟨hnames, hshows, (hvalues (.inr hshows)).1, _, List.mem_cons_self .., hgroup⟩

end MailSieve.Mail
