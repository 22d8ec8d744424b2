import MailSieve.Proofs.Filter.Comparisons
import MailSieve.Proofs.Filter.Occurrence
import MailSieve.Proofs.Text.AsciiCase

/-!
Header names as they are written. Tests look headers up by the lowercase of a name, and a message makes no
difference between the capital letters of ASCII and the small ones, so a header is found by its own name
unless that has a capital letter beyond ASCII.
-/

namespace MailSieve.Mail

open Text

variable {m : Message} {n : String}

theorem lookup_lowercase (m : Message) (h : IsPlain n) : m.lookup (lowercase n) = m.lookup n :=
  caseBlind_lookup m _ _ (sameName_lowercase_iff.2 h)

/-- A field that has a name and also its lowercase. -/
theorem isPlain_of_sameName {name : String} (h : sameName name n = true)
    (hlower : sameName name (lowercase n) = true) : IsPlain n := by
  rw [← sameName_lowercase_iff, sameName, beq_iff_eq] at *
  rw [← hlower, h]

/-- A section that starts with a field, and goes on after its value. -/
theorem readSection_field {b : UInt8} {r rest rest' : Bytes} {s : Bytes.Span} {name : String}
    {format : Format} {v : Value} (hb : isSpaceByte b = false)
    (hscan : Bytes.scan nameStep .empty (b :: r) = .stopped s rest) (hopen : s.isOpen = true)
    (hname : readName s.bytes = (name, format)) (hvalue : format.read rest = (v, rest')) :
    readSection (b :: r) = { readSection rest' with
      fields := ⟨name, rest.take (rest.length - rest'.length), v⟩ :: (readSection rest').fields } := by
  have hdrop : (b :: r).dropWhile (fun b => isSpaceByte b && b != byte '\n') = b :: r :=
    List.dropWhile_cons_of_neg (by simp [hb])
  rw [readSection]
  split
  · next h =>
    rw [hdrop] at h
    cases h
  · next h =>
    rw [hdrop] at h
    cases h
    have hline : ¬ (b == byte '\n') = true := by
      intro h
      rw [beq_iff_eq] at h
      subst h
      cases hb
    rw [if_neg hline, hscan]
    simp only [Bytes.Ending.state, Bytes.Ending.rest, hopen, hname, hvalue, if_true]

end MailSieve.Mail

namespace MailSieve.Filter

open Script Mail Text

/-- A test compares all the values that a message has under each of its names whose only capital letters are
those of ASCII, up to the first that matches, for it has the same fields under the lowercase of such a name.
Under any other name a test comes upon none of the fields of that name. -/
theorem compares_as_written (m : Message) :
    (∀ n, IsPlain n → m.lookup (lowercase n) = m.lookup n) ∧
    (∀ l : Leaf, l.fault? = none → Searches (l.eval m.lookup)
      (l.comparisons fun n => if IsPlain n then m.lookup n else m.lookup (lowercase n))) ∧
    ∀ n, ¬ IsPlain n → ∀ f ∈ m.fields, sameName f.name n = true → sameName f.name (lowercase n) = false := by
  refine ⟨fun n => lookup_lowercase m, fun l hl => ?_, fun n hn f _ hf => ?_⟩
  · have hvalues : (fun n => if IsPlain n then m.lookup n else m.lookup (lowercase n)) =
        fun n => m.lookup (lowercase n) := by
      funext n
      split
      · next hn => exact (lookup_lowercase m hn).symm
      · rfl
    rw [hvalues]
    exact Searches.eval m.lookup hl
  · exact Bool.eq_false_iff.2 fun hlower => hn (isPlain_of_sameName hf hlower)

/-- Two spellings of a name that a test gives in a third one, beside a name that no test finds. -/
theorem compares_other_spellings : ∃ m l,
    m = Message.mk [⟨"X-Tag", [], .text "a"⟩, ⟨"x-TAG", [], .text "b"⟩, ⟨"É", [], .text "c"⟩] ∧
    l = Leaf.header ⟨none, some .contains, ["É", "x-taG"], ["d"]⟩ ∧
    IsPlain "x-taG" ∧ m.lookup "x-taG" = [.text "a", .text "b"] ∧ l.fault? = none ∧
    Searches (l.eval m.lookup)
      (l.comparisons fun n => if IsPlain n then m.lookup n else m.lookup (lowercase n)) ∧
    ¬ IsPlain "É" ∧ ∀ f ∈ m.fields, sameName f.name "É" = true → sameName f.name (lowercase "É") = false := by
  have hcapital : ¬ IsPlain "É" := by decide +kernel
  refine ⟨_, _, rfl, rfl, by decide +kernel, ?_, rfl, (compares_as_written _).2.1 _ rfl, hcapital,
    (compares_as_written _).2.2 _ hcapital⟩
  simp [Message.lookup, sameName_iff, Field.values]

/-- A header whose name has a capital letter beyond ASCII is listed, but no test finds it by this name. -/
theorem misses_listed_name : ∃ m, Message.read? (Bytes.ofString "É: x\n\n") = some m ∧
    m.names = ["É"] ∧ m.lookup "É" = [.text "x"] ∧ m.lookup (lowercase "É") = [] ∧
    (evalTest m.lookup (.header ⟨none, some .contains, ["É"], ["x"]⟩)).outcome = .ok false := by
  have hlower : lowercase "É" = "é" := by decide +kernel
  have hread : readSection (Bytes.ofString "É: x\n\n") =
      ⟨[⟨"É", Bytes.ofString " x\n", .text "x"⟩], true⟩ := by
    have hbytes : Bytes.ofString "É: x\n\n" = [195, 137, 58, 32, 120, 10, 10] := by cbv
    have hscan : Bytes.scan nameStep .empty [195, 137, 58, 32, 120, 10, 10] =
      .stopped ⟨[137, 195], []⟩ [32, 120, 10, 10] := by cbv
    have hname : readName (Bytes.Span.bytes ⟨[137, 195], []⟩) = ("É", .verbatim) := by decide +kernel
    have hvalue : Format.verbatim.read [32, 120, 10, 10] = (.text "x", [10]) := by cbv
    have hend : readSection [10] = ⟨[], true⟩ := by cbv
    rw [hbytes, readSection_field rfl hscan rfl hname hvalue, hend]
    cbv
  have hmissed : Message.lookup ⟨[⟨"É", Bytes.ofString " x\n", .text "x"⟩]⟩ (lowercase "É") = [] := by
    rw [hlower]
    cbv
  refine ⟨⟨[⟨"É", Bytes.ofString " x\n", .text "x"⟩]⟩, ?_, ?_, ?_, hmissed, ?_⟩
  · rw [Message.read?, hread]
    rfl
  · cbv
  · cbv
  · rw [outcome_evalTest_contains, decide_eq_false]
    rintro ⟨name, hname, v, hv, -⟩
    rw [List.mem_singleton.1 hname, hmissed] at hv
    cases hv

end MailSieve.Filter
