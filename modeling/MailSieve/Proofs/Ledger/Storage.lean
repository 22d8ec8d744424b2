import Mathlib
import MailSieve.Ledger.Store
import MailSieve.Proofs.Files.Perform
import MailSieve.Proofs.Ledger.Codec
import MailSieve.Proofs.Text.Utf8Order

/-!
Ledgers on a disk: one that was saved is loaded as it was, and its file depends on nothing but the
identifiers in it.
-/

namespace MailSieve.Ledger

open Files

variable {h h' : Host} {l m : Ledger} {path : Path}

/-- A ledger is loaded from the identifiers in a file, or without a file from none. -/
theorem load_eq_ok : h.perform (load path) = (.ok l, h') ↔
    h' = h ∧ l.path = path ∧
      if (h.disk.find h.working path).toOption.isSome then
        ∃ bytes text, h.disk.read h.working path = .ok bytes ∧ Text.Utf8.decode? bytes = some text ∧
          decode text.toList = .ok l.ids
      else l.ids = .empty := by
  have hthere : h.perform (Files.isThere path : ExceptT Failure (StateM Host) Bool) =
      (.ok (h.disk.find h.working path).toOption.isSome, h) := rfl
  rw [load, Host.perform_bind, hthere]
  dsimp only
  split
  · rw [Host.perform_bind_eq_ok]
    constructor
    · rintro ⟨text, h₁, htext, hids⟩
      obtain ⟨rfl, bytes, hread, hdecode⟩ := Host.perform_readText_eq_ok.1 htext
      split at hids
      · next ids hids' =>
        cases hids
        exact ⟨rfl, rfl, bytes, text, hread, hdecode, hids'⟩
      · cases hids
    · rintro ⟨rfl, rfl, bytes, text, hread, hdecode, hids⟩
      refine ⟨text, _, Host.perform_readText_eq_ok.2 ⟨rfl, bytes, hread, hdecode⟩, ?_⟩
      rw [hids]
      rfl
  · rw [Host.perform_pure]
    constructor
    · rintro ⟨⟩
      exact ⟨rfl, rfl, rfl⟩
    · rintro ⟨rfl, rfl, hids⟩
      rw [← hids]

/-- What is loaded depends on nothing but what is found at the path. -/
theorem load_of_find (hfind : ∀ x, h'.disk.find h'.working path = .ok x ↔ h.disk.find h.working path = .ok x)
    (hload : h.perform (load path) = (.ok l, h)) : h'.perform (load path) = (.ok l, h') := by
  obtain ⟨-, hpath, hids⟩ := load_eq_ok.1 hload
  refine load_eq_ok.2 ⟨rfl, hpath, ?_⟩
  cases hplace : h.disk.find h.working path with
  | ok x =>
    rw [hplace] at hids
    rw [(hfind x).2 hplace]
    obtain ⟨bytes, text, hread, htext, hdecode⟩ := hids
    obtain ⟨p, date, hfile⟩ := Disk.read_eq_ok.1 hread
    exact ⟨bytes, text, Disk.read_eq_ok.2 ⟨p, date, (hfind _).2 hfile⟩, htext, hdecode⟩
  | error r =>
    rw [hplace] at hids
    cases hplace' : h'.disk.find h'.working path with
    | ok x =>
      rw [(hfind x).1 hplace'] at hplace
      cases hplace
    | error r' => exact hids

theorem save_eq_ok : h.perform l.save = (.ok (), h') ↔
    ∃ d₁ d₂, h.disk.write h.working h.now l.draft l.bytes = .ok d₁ ∧
      d₁.rename h.working l.draft l.path = .ok d₂ ∧ h' = { h with disk := d₂ } := by
  rw [save, Host.perform_bind_eq_ok]
  constructor
  · rintro ⟨⟨⟩, h₁, hwrite, hrename⟩
    obtain ⟨d₁, hd₁, rfl⟩ := Host.perform_change_eq_ok.1 hwrite
    obtain ⟨d₂, hd₂, rfl⟩ := Host.perform_change_eq_ok.1 hrename
    exact ⟨d₁, d₂, hd₁, hd₂, rfl⟩
  · rintro ⟨d₁, d₂, hd₁, hd₂, rfl⟩
    exact ⟨(), _, Host.perform_change_eq_ok.2 ⟨d₁, hd₁, rfl⟩,
      Host.perform_change_eq_ok.2 ⟨d₂, hd₂, rfl⟩⟩

/-- Both the file of a ledger and its draft can be put where they belong. -/
def Storable (h : Host) (l : Ledger) : Prop :=
  (∃ p, h.disk.Admits h.working l.draft p) ∧ ∃ p, h.disk.Admits h.working l.path p

/-- A ledger can be saved unless one of its files cannot be put where it belongs. -/
theorem exists_save_eq_ok (hd : h.disk.IsTree) :
    (∃ h', h.perform l.save = (.ok (), h')) ↔ Storable h l := by
  constructor
  · rintro ⟨h', hsave⟩
    obtain ⟨d₁, d₂, hwrite, hrename, rfl⟩ := save_eq_ok.1 hsave
    obtain ⟨s, hs, hd₁, hsame, hnode⟩ := hd.of_write hwrite
    have hfile := (hnode s).trans (if_pos rfl)
    obtain ⟨-, t, ht, -⟩ := (hd₁.rename_file (hsame.admits hs).walk hfile).1 hrename
    exact ⟨⟨s, hs⟩, t, hsame.symm.admits ht⟩
  · rintro ⟨⟨s, hs⟩, t, ht⟩
    obtain ⟨d₁, hwrite⟩ : ∃ d₁, h.disk.write h.working h.now l.draft l.bytes = .ok d₁ :=
      ⟨_, Disk.write_eq_ok.2 ⟨s, hs, rfl⟩⟩
    obtain ⟨s, hs, hd₁, hsame, hnode⟩ := hd.of_write hwrite
    have hfile := (hnode s).trans (if_pos rfl)
    have hs := hsame.admits hs
    have hrename := (hd₁.rename_file hs.walk hfile).2 ⟨hs, t, hsame.admits ht, rfl⟩
    exact ⟨_, save_eq_ok.2 ⟨d₁, _, hwrite, hrename, rfl⟩⟩

/-- What a save leaves: the file of the ledger, and all directories where they were. -/
structure Saved (h : Host) (l : Ledger) (h' : Host) : Prop where
  isTree : h'.disk.IsTree
  working : h'.working = h.working
  same : h.disk.SameDirectories h'.disk
  file : ∃ t, h'.disk.Admits h'.working l.path t ∧ h'.disk.node? t = some (.file l.bytes h.now)

theorem saved (hd : h.disk.IsTree) (hsave : h.perform l.save = (.ok (), h')) : Saved h l h' := by
  obtain ⟨d₁, d₂, hwrite, hrename, rfl⟩ := save_eq_ok.1 hsave
  obtain ⟨s, hs, hd₁, hsame, hnode⟩ := hd.of_write hwrite
  have hfile := (hnode s).trans (if_pos rfl)
  obtain ⟨t, ht, hd₂, hsame', hnode'⟩ :=
    hd₁.of_rename hrename (hsame.admits hs).walk (by rw [hfile]; simp)
  refine ⟨hd₂, rfl, hsame.trans hsame', t, hsame'.admits ht, ?_⟩
  rw [hnode', if_pos rfl, hfile]

theorem Saved.read (h : Saved h l h') : h'.disk.read h'.working l.path = .ok l.bytes := by
  obtain ⟨t, ht, hfile⟩ := h.file
  exact Disk.read_eq_ok.2 ⟨t, _, ht.find hfile⟩

theorem Saved.load (h : Saved h l h') : h'.perform (load l.path) = (.ok l, h') := by
  refine load_eq_ok.2 ⟨rfl, rfl, ?_⟩
  obtain ⟨t, ht, hfile⟩ := h.file
  rw [ht.find hfile]
  refine ⟨l.bytes, .ofList (encode l.ids), h.read, Text.Utf8.decode?_ofString _, ?_⟩
  rw [String.toList_ofList]
  exact decode_encode l.ids

theorem Saved.storable (h₁ : Saved h l h') (h₂ : Storable h l) : Storable h' l := by
  obtain ⟨⟨s, hs⟩, t, ht⟩ := h₂
  rw [← h₁.working] at hs ht
  exact ⟨⟨s, h₁.same.admits hs⟩, t, h₁.same.admits ht⟩

/-- Equal sets have equal bytes. -/
theorem bytes_eq (h : ∀ id, id ∈ l ↔ id ∈ m) : l.bytes = m.bytes := by
  have hids : l.ids = m.ids := TextSet.ext h
  rw [bytes, bytes, hids]

/-- The bytes list the identifiers once each, and ascending as bytes do. -/
theorem bytes_list (l : Ledger) : ∃ ids : List String,
    ids.Pairwise (fun a b => Bytes.ofString a < Bytes.ofString b) ∧ (∀ id, id ∈ ids ↔ id ∈ l) ∧
      l.bytes = Bytes.ofString (.ofList
        ("\x7b\"seen\":[".toList ++ joined ',' (ids.map Json.quoted) ++ "]\x7d".toList)) := by
  refine ⟨l.ids.items, l.ids.sorted.imp Text.Utf8.ofString_lt.2, fun _ => Iff.rfl, ?_⟩
  have hfield : Json.quoted field = "\"seen\"".toList := by decide
  rw [bytes, encode, hfield]
  simp

/-- What is saved is loaded again, however it came to be. Its bytes are those of its set of identifiers,
so that a ledger that was loaded from any text is saved, loaded and saved again as the same file. -/
theorem load_save_canonical (h : Host) (hd : h.disk.IsTree) :
    (∀ l, (∃ h', h.perform l.save = (.ok (), h')) ↔ Storable h l) ∧
    (∀ l h', h.perform l.save = (.ok (), h') → h'.perform (load l.path) = (.ok l, h') ∧
      h'.disk.read h'.working l.path = .ok l.bytes) ∧
    (∀ l m : Ledger, (∀ id, id ∈ l ↔ id ∈ m) → l.bytes = m.bytes) ∧
    (∀ l : Ledger, ∃ ids : List String,
      ids.Pairwise (fun a b => Bytes.ofString a < Bytes.ofString b) ∧ (∀ id, id ∈ ids ↔ id ∈ l) ∧
        l.bytes = Bytes.ofString (.ofList
          ("\x7b\"seen\":[".toList ++ joined ',' (ids.map Json.quoted) ++ "]\x7d".toList))) ∧
    (∀ path l h₁ h₂, h.perform (load path) = (.ok l, h₁) → h₁.perform l.save = (.ok (), h₂) →
      ∃ m h₃, h₂.perform (load path) = (.ok m, h₂) ∧ (∀ id, id ∈ m ↔ id ∈ l) ∧
        h₂.perform m.save = (.ok (), h₃) ∧
        h₃.disk.read h₃.working path = h₂.disk.read h₂.working path) := by
  refine ⟨fun l => exists_save_eq_ok hd, fun l h' hsave => ?_, fun l m => bytes_eq, bytes_list, ?_⟩
  · have hs := saved hd hsave
    exact ⟨hs.load, hs.read⟩
  · intro path l h₁ h₂ hload hsave
    obtain ⟨rfl, rfl, -⟩ := load_eq_ok.1 hload
    have hs := saved hd hsave
    obtain ⟨h₃, hsave'⟩ := (exists_save_eq_ok hs.isTree).2
      (hs.storable ((exists_save_eq_ok hd).1 ⟨h₂, hsave⟩))
    have hs' := saved hs.isTree hsave'
    exact ⟨l, h₃, hs.load, fun _ => Iff.rfl, hsave', hs'.read.trans hs.read.symm⟩

/-- A host with the text of a ledger that no ledger is saved as. -/
def looseHost : Host where
  disk := ⟨[(["db"], .file (Bytes.ofString
    "\x7b \"v\": [1, null],\n\"seen\": [\"b\", \"\\u0061\\n\", \"b\"]\x7d") 0)]⟩
  working := []
  now := 1
  given := []
  lines := []

/-- Two identifiers in disorder, one of them given twice, with a field that means nothing. -/
theorem loose_text_becomes_canonical : looseHost.disk.IsTree ∧
    ∃ l h' m, looseHost.perform (load "db") = (.ok l, looseHost) ∧ l.ids.items = ["a\n", "b"] ∧
      looseHost.perform l.save = (.ok (), h') ∧ h'.perform (load "db") = (.ok m, h') ∧
      ∀ id, id ∈ m ↔ id ∈ l := by
  have hd : looseHost.disk.IsTree := by decide
  have hload : looseHost.perform (load "db") = (.ok ⟨"db", .ofList ["b", "a\n", "b"]⟩, looseHost) := by
    cbv
  have hsave : (looseHost.perform (save ⟨"db", .ofList ["b", "a\n", "b"]⟩)).1 = .ok () := by cbv
  obtain ⟨-, -, -, -, hagain⟩ := load_save_canonical looseHost hd
  obtain ⟨m, -, hm, hmem, -⟩ := hagain "db" _ _ _ hload (Prod.ext hsave rfl)
  exact ⟨hd, _, _, m, hload, by decide, Prod.ext hsave rfl, hm, hmem⟩

end MailSieve.Ledger
