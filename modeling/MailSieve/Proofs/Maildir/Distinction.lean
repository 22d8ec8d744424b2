import MailSieve.Proofs.Files.Path
import MailSieve.Proofs.Maildir.Containment
import MailSieve.Proofs.Text.Decoding

/-!
Mailboxes that have a folder in common. Only the spellings of the inbox have, and mailboxes that differ in
nothing but dots and slashes between their levels.
-/

namespace MailSieve.Maildir

open Files Text

theorem folderName?_eq_iff {a b : String} :
    folderName? a = folderName? b ↔
      (isInbox a = true ∧ isInbox b = true) ∨
        (isInbox a = false ∧ isInbox b = false ∧ dotted a = dotted b) := by
  have hencode : "." ++ ModifiedUtf7.encode (dotted a) = "." ++ ModifiedUtf7.encode (dotted b) ↔
      dotted a = dotted b := by
    rw [String.append_right_inj, ModifiedUtf7.encode_injective.eq_iff]
  unfold folderName?
  cases isInbox a <;> cases isInbox b <;> simp [hencode]

theorem names_join {root : Path} {n : String} (hslash : '/' ∉ n.toList) (hne : n ≠ "") (hdot : n ≠ ".") :
    (root.join n).names = root.names ++ [n] := by
  have hkept : (n != ".") = true := bne_iff_ne.2 hdot
  rw [Path.names, Path.steps_join hslash hne, List.filter_append, List.filter_singleton, hkept]
  rfl

/-- The way to a folder is the way to the maildir and one name more, if any. -/
theorem names_folder (root : Path) (mailbox : String) :
    (folder root mailbox).names = root.names ++ (folderName? mailbox).toList := by
  rw [folder]
  cases h : folderName? mailbox with
  | none => exact (List.append_nil _).symm
  | some n =>
    obtain ⟨hhead, hdot, hslash, -, -⟩ := folderName?_eq_some h
    have hne : n ≠ "" := by
      rintro rfl
      cases hhead
    exact names_join hslash hne hdot

theorem names_folder_inj {root : Path} {a b : String} :
    (folder root a).names = (folder root b).names ↔ folderName? a = folderName? b := by
  have hinjective : Function.Injective (@Option.toList String) :=
    Function.LeftInverse.injective fun _ => Option.head?_toList
  rw [names_folder, names_folder, List.append_cancel_left_eq, hinjective.eq_iff]

theorem folder_inj {root : Path} {a b : String} :
    folder root a = folder root b ↔ folderName? a = folderName? b := by
  constructor
  · intro h
    exact names_folder_inj.1 (congrArg Path.names h)
  · intro h
    rw [folder, folder, h]

/-- Two mailboxes have one folder if and only if both are the inbox, or neither is and they are the same
with dots for slashes. Two folders are one only if the same names lead to them; no two texts are encoded
alike. -/
theorem folder_eq_iff (root : Path) (a b : String) :
    (folder root a = folder root b ↔
      (isInbox a = true ∧ isInbox b = true) ∨
        (isInbox a = false ∧ isInbox b = false ∧ dotted a = dotted b)) ∧
    (folder root a = folder root b ↔ (folder root a).names = (folder root b).names) ∧
    (ModifiedUtf7.encode a = ModifiedUtf7.encode b ↔ a = b) := by
  refine ⟨?_, ?_, ModifiedUtf7.encode_injective.eq_iff⟩
  · rw [folder_inj, folderName?_eq_iff]
  · rw [folder_inj, names_folder_inj]

end MailSieve.Maildir
