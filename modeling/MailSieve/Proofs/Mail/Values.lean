import MailSieve.Mail.Message

/-!
What the values of a message come from. A field that was read shows at least one value, because what is
read is never a list of no texts, and contacts and groups show those of their members that have an
address.
-/

namespace MailSieve.Mail

open Bytes

/-- The value is shown as at least one text or list of addresses. -/
def Value.Shows (v : Value) : Prop := v ≠ .texts []

theorem Value.shows_ofTexts : ∀ ts, (Value.ofTexts ts).Shows
  | [] | [_] | _ :: _ :: _ => by simp [Value.ofTexts, Value.Shows]

theorem Reading.shows_ofEnding {read : σ → Value} (h : ∀ s, (read s).Shows) (e : Ending σ) :
    (Reading.ofEnding read e).1.Shows := by
  cases e with
  | stopped s r => exact h s
  | exhausted s => exact nofun

theorem Unstructured.shows_value (s : Unstructured.State) : s.value.Shows := by
  unfold Unstructured.State.value
  split <;> exact nofun

theorem Bracketed.shows_value (s : Bracketed.State) : s.value.Shows := by
  unfold Bracketed.State.value
  split
  · exact nofun
  · exact Value.shows_ofTexts _

theorem Contacts.shows_value (s : Contacts.State) : s.value.Shows := by
  unfold Contacts.State.value
  dsimp only
  split
  · exact nofun
  · split <;> exact nofun

theorem Dated.shows_value (s : Dated.State) : s.value.Shows := by
  unfold Dated.State.value
  split
  · split <;> exact nofun
  · exact nofun

theorem Verbatim.shows_value (s : Span) : (Verbatim.value s).Shows := by
  unfold Verbatim.value
  split <;> exact nofun

theorem Format.shows_read (f : Format) (input : Bytes) : (f.read input).1.Shows := by
  cases f with
  | unstructured => exact Reading.shows_ofEnding Unstructured.shows_value _
  | contacts => exact Contacts.shows_value _
  | date => exact Dated.shows_value _
  | bracketed => exact Reading.shows_ofEnding Bracketed.shows_value _
  | listed => exact Reading.shows_ofEnding (fun s => Value.shows_ofTexts _) _
  | skipped => exact nofun
  | verbatim => exact Verbatim.shows_value _

theorem shows_readSection (input : Bytes) : ∀ f ∈ (readSection input).fields, f.value.Shows := by
  fun_induction readSection input with
  | case1 => exact List.forall_mem_nil _
  | case2 => exact List.forall_mem_nil _
  | case3 _ _ _ _ _ _ _ _ format _ _ _ _ ih =>
    exact List.forall_mem_cons.2 ⟨format.shows_read _, ih⟩
  | case4 _ _ _ _ _ _ _ ih => exact ih

theorem shows_of_read {input : Bytes} {m : Message} (h : Message.read? input = some m) :
    ∀ f ∈ m.fields, f.value.Shows := by
  unfold Message.read? at h
  dsimp only at h
  split at h
  · cases h
    exact shows_readSection input
  · cases h

theorem Field.values_eq_nil_iff {f : Field} : f.values = [] ↔ f.value = .texts [] := by
  unfold Field.values
  cases f.value <;> simp

/-- An address as the contact that it is of. -/
def Address.contact (a : Address) : Contact := ⟨a.name, some a.address⟩

theorem map_contact_addressesOf (cs : List Contact) :
    (addressesOf cs).map Address.contact = cs.filter fun c => c.address.isSome := by
  induction cs with
  | nil => rfl
  | cons c cs ih =>
    obtain ⟨name, _ | address⟩ := c
    · exact ih
    · exact congrArg (_ :: ·) ih

end MailSieve.Mail
