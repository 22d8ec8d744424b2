import MailSieve.Proofs.Forward.Dialogue
import MailSieve.Proofs.Ledger.Codec
import MailSieve.Proofs.Text.Utf8

/-!
What the ledger file records, and how often a message can be handed over by programs that record it before:
once, and once more each time that a ledger file is there and is missed.
-/

namespace MailSieve.Forward

open Files Dialogue

/-- The contents of a ledger file have the identifier. -/
def Records (content : Option Bytes) (id : String) : Prop :=
  ∃ bytes text ids, content = some bytes ∧ Text.Utf8.decode? bytes = some text ∧
    Ledger.decode text.toList = .ok ids ∧ id ∈ ids

theorem records_iff {bytes : Bytes} {text : String} {ids : TextSet} {id : String}
    (ht : Text.Utf8.decode? bytes = some text) (hd : Ledger.decode text.toList = .ok ids) :
    Records (some bytes) id ↔ id ∈ ids := by
  constructor
  · intro h
    obtain ⟨_, _, _, hb, ht', hd', hid⟩ := h
    cases hb
    cases ht.symm.trans ht'
    cases hd.symm.trans hd'
    exact hid
  · intro h
    exact ⟨bytes, text, ids, rfl, ht, hd, h⟩

theorem not_records_none (id : String) : ¬ Records none id := by
  intro h
  obtain ⟨_, _, _, hb, _⟩ := h
  cases hb

variable {l : Ledger} {store : Path} {content : Option Bytes} {missed : Nat} {times : String → Nat}
  {id : String}

theorem records_bytes : Records (some l.bytes) id ↔ id ∈ l := by
  apply records_iff (Text.Utf8.decode?_ofString _)
  rw [String.toList_ofList, Ledger.decode_encode]

theorem draft_ne (l : Ledger) : l.path ≠ l.draft := by
  intro h
  have hlen := congrArg String.length h
  simp [Ledger.draft] at hlen

/-! ### Loading -/

/-- What is loaded from what was read. -/
def loaded (path : Path) : Except Refusal Bytes → Except Failure Ledger
  | .error r => .error ⟨[s!"reading store {path}"], .refused r⟩
  | .ok bytes =>
    match Text.Utf8.decode? bytes with
    | none => .error ⟨[s!"reading store {path}"], .notUtf8⟩
    | some text =>
      match Ledger.decode text.toList with
      | .ok ids => .ok ⟨path, ids⟩
      | .error e => .error ⟨[s!"decoding store {path}"], .malformed e⟩

theorem load_eq_ask (path : Path) : (Ledger.load path : ExceptT Failure Dialogue Ledger).run =
    .ask (.isThere path) fun b : Bool =>
      if b then .ask (.read path) fun r => .done (loaded path r) else .done (.ok ⟨path, .empty⟩) := by
  refine congrArg (Dialogue.ask (.isThere path)) (funext fun b => ?_)
  cases b with
  | false => rfl
  | true =>
    refine congrArg (Dialogue.ask (.read path)) (funext fun r => ?_)
    cases r with
    | error r => rfl
    | ok bytes =>
      rw [loaded]
      change andThen (andThen (.done (Except.ok bytes)) _) _ = _
      rw [andThen, ExceptT.bindCont]
      cases Text.Utf8.decode? bytes with
      | none => rfl
      | some text =>
        change andThen (.done (Except.ok text)) _ = _
        rw [andThen, ExceptT.bindCont]
        dsimp only
        cases Ledger.decode text.toList with
        | ok ids => rfl
        | error e => rfl

/-- A ledger that is loaded has the identifiers that the file records. -/
theorem records_of_loaded {bytes : Bytes} (h : loaded store (.ok bytes) = .ok l) :
    l.path = store ∧ ∀ id, Records (some bytes) id ↔ id ∈ l := by
  rw [loaded] at h
  split at h
  · cases h
  · next text htext =>
    split at h
    · next ids hids =>
      cases h
      exact ⟨rfl, fun id => records_iff htext hids⟩
    · cases h

/-! ### Counting -/

/-- How often messages were handed over when ledger files were missed so often: no more than once more, and
not even that where the identifier is not recorded. -/
structure Bounded (content : Option Bytes) (missed : Nat) (times : String → Nat) : Prop where
  few : ∀ id, times id ≤ missed + 1
  fewer : ∀ id, ¬ Records content id → times id ≤ missed

/-- With this ledger in memory, a message that it does not have can be handed over once more. -/
structure Booked (l : Ledger) (content : Option Bytes) (missed : Nat) (times : String → Nat) : Prop
    extends Bounded content missed times where
  fresh : ∀ id, id ∉ l → times id ≤ missed

theorem Bounded.mono (h : Bounded content missed times) {missed' : Nat} (hle : missed ≤ missed') :
    Bounded content missed' times :=
  ⟨fun id => (h.few id).trans (Nat.succ_le_succ hle), fun id hid => (h.fewer id hid).trans hle⟩

theorem Booked.mono (h : Booked l content missed times) {missed' : Nat} (hle : missed ≤ missed') :
    Booked l content missed' times :=
  ⟨h.toBounded.mono hle, fun id hid => (h.fresh id hid).trans hle⟩

theorem Bounded.load (h : Bounded content missed times) (hl : ∀ id, Records content id ↔ id ∈ l) :
    Booked l content missed times :=
  ⟨h, fun id hid => h.fewer id fun hrec => hid ((hl id).1 hrec)⟩

/-- A ledger file that was missed makes up for whatever the ledger does not have. -/
theorem Bounded.miss (h : Bounded content missed times) {missed' : Nat} (hlt : missed < missed')
    (l : Ledger) : Booked l content missed' times :=
  ⟨h.mono hlt.le, fun id _ => (h.few id).trans hlt⟩

theorem Booked.insert (h : Booked l content missed times) (id : String) :
    Booked (l.insert id) content missed times :=
  ⟨h.toBounded, fun i hi => h.fresh i fun hl => hi (TextSet.mem_insert.2 (.inr hl))⟩

/-- The file of a ledger can take the place of the present one, even of one that it does not have the
identifiers of. -/
theorem Booked.save (h : Booked l content missed times) : Booked l (some l.bytes) missed times :=
  ⟨⟨h.few, fun id hid => h.fresh id fun hl => hid (records_bytes.2 hl)⟩, h.fresh⟩

/-- Handing over a message that is recorded, and that the ledger has. -/
theorem Booked.append {times' : String → Nat} (h : Booked l content missed times) (hid : id ∈ l)
    (hrec : Records content id) (hfew : times id ≤ missed) (hone : times' id = times id + 1)
    (hothers : ∀ i, i ≠ id → times' i = times i) : Booked l content missed times' := by
  refine ⟨⟨fun i => ?_, fun i hi => ?_⟩, fun i hi => ?_⟩
  · by_cases hi : i = id
    · rw [hi, hone]
      exact Nat.succ_le_succ hfew
    · rw [hothers i hi]
      exact h.few i
  · rw [hothers i (by rintro rfl; exact hi hrec)]
    exact h.fewer i hi
  · rw [hothers i (by rintro rfl; exact hi hid)]
    exact h.fresh i hi

end MailSieve.Forward
