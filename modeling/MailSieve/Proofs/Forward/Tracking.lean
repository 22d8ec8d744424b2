import MailSieve.Proofs.Forward.Recording
import MailSieve.Proofs.Forward.Steady

/-!
Where the messages that are handed over come from: the file that was read last, which is followed when it is
renamed, and the identifier that was fetched last. What is handed over is kept with what the ledger file holds
then, and it is counted how often that file is missed.
-/

namespace MailSieve.Forward

open Files Dialogue

/-- A file that was read, by its present path. -/
structure Original where
  path : Path
  content : Bytes

def Original.renamed (p q : Path) (o : Original) : Original :=
  { o with path := if o.path = p then q else o.path }

/-- A message that was handed over, with the identifier that was last fetched from the source and the file
that was last read before, and with what the ledger file held. -/
structure Copy where
  id : Option String
  original : Option Original
  message : Bytes
  stored : Option Bytes

/-- The present path of the file. -/
def Copy.path? (c : Copy) : Option Path := c.original.map Original.path

def Copy.renamed (p q : Path) (c : Copy) : Copy := { c with original := c.original.map (.renamed p q) }

/-- What was last fetched and last read, what was handed over, the latest first, and how often the ledger file
was there and was missed. -/
structure Track where
  fetched : Option String
  last : Option Original
  copies : List Copy
  missed : Nat

namespace Track

def start : Track := ⟨none, none, [], 0⟩

/-- The track after a reply from a host that had these files, with a ledger file at `store`. -/
def after (store : Path) (files : Contents) (k : Track) : Reply → Track
  | ⟨.isThere p, false⟩ => if p = store ∧ files p ≠ none then { k with missed := k.missed + 1 } else k
  | ⟨.read p, .ok content⟩ => { k with last := some ⟨p, content⟩ }
  | ⟨.rename p q, .ok _⟩ =>
    { k with last := k.last.map (.renamed p q), copies := k.copies.map (.renamed p q) }
  | ⟨.mail .source (.fetch id), _⟩ => { k with fetched := some id }
  | ⟨.mail .destination (.append d), _⟩ =>
    { k with copies := ⟨k.fetched, k.last, d.message, files store⟩ :: k.copies }
  | _ => k

end Track

/-- A host where nobody else touches the file at `store`, with a track of what was handed over. -/
def Tracing (store : Path) : Responds (Contents × Track) :=
  fun e s a t => Allows store e a s.1 t.1 ∧ t.2 = s.2.after store s.1 ⟨e, a⟩

variable {store : Path} {l : Ledger} {inv : Contents × Track → Prop} {s t u : Contents × Track}

/-- The ledger file and what was handed over stay; the file may have been missed. -/
structure Retains (store : Path) (s t : Contents × Track) : Prop where
  stored : t.1 store = s.1 store
  copies : t.2.copies = s.2.copies
  missed : s.2.missed ≤ t.2.missed

theorem Retains.refl (s : Contents × Track) : Retains store s s := ⟨rfl, rfl, le_rfl⟩

theorem Retains.of_eq (hstored : t.1 store = s.1 store) (htrack : t.2 = s.2) : Retains store s t :=
  ⟨hstored, by rw [htrack], by rw [htrack]⟩

theorem Retains.trans (h : Retains store s t) (h' : Retains store t u) : Retains store s u :=
  ⟨h'.stored.trans h.stored, h'.copies.trans h.copies, h.missed.trans h'.missed⟩

/-- What was loaded: a ledger with what the file records, unless the file was missed. -/
structure Loads (store : Path) (s : Contents × Track) (l : Ledger) (t : Contents × Track) : Prop
    extends Retains store s t where
  path : l.path = store
  seen : (∀ id, Records (s.1 store) id ↔ id ∈ l) ∨ s.2.missed < t.2.missed

theorem Loads.booked {times : String → Nat} (h : Loads store s l t)
    (hs : Bounded (s.1 store) s.2.missed times) : Booked l (t.1 store) t.2.missed times := by
  rw [h.stored]
  obtain hseen | hmissed := h.seen
  · exact (hs.load hseen).mono h.missed
  · exact hs.miss hmissed l

theorem tracks_load (hinv : ∀ t, Retains store s t → inv t) :
    Survives (Tracing store) inv (After (Loads store s) (Retains store s)) (Ledger.load store).run s := by
  rw [load_eq_ask]
  refine ⟨hinv s (.refl s), ?_⟩
  rintro (_ | _) t ⟨hfiles, htrack⟩
  · have hfiles : t.1 = s.1 := hfiles
    have htrack : t.2 = if store = store ∧ s.1 store ≠ none then { s.2 with missed := s.2.missed + 1 }
      else s.2 := htrack
    have hstored : t.1 store = s.1 store := congrFun hfiles store
    split at htrack
    · have hmissed : s.2.missed < t.2.missed := by simp [htrack]
      have hretains : Retains store s t := ⟨hstored, by rw [htrack], hmissed.le⟩
      exact ⟨hinv t hretains, hretains, rfl, .inr hmissed⟩
    · next hnone =>
      have hretains : Retains store s t := .of_eq hstored htrack
      refine ⟨hinv t hretains, hretains, rfl, .inl fun id => ?_⟩
      rw [show s.1 store = none by simpa using hnone]
      exact iff_of_false (not_records_none id) (TextSet.not_mem_empty id)
  · have hfiles : t.1 = s.1 := hfiles
    have htrack : t.2 = s.2 := htrack
    obtain rfl : t = s := Prod.ext hfiles htrack
    refine ⟨hinv t (.refl t), ?_⟩
    rintro (r | bytes) u ⟨hread, htrack⟩
    · have hread : u.1 = t.1 := hread
      have htrack : u.2 = t.2 := htrack
      obtain rfl : u = t := Prod.ext hread htrack
      exact ⟨hinv u (.refl u), .refl u⟩
    · obtain ⟨hread, hbytes⟩ : u.1 = t.1 ∧ t.1 store = some bytes := hread
      have hretains : Retains store t u := ⟨congrFun hread store, by rw [htrack]; rfl, by rw [htrack]; rfl⟩
      refine ⟨hinv u hretains, ?_⟩
      cases hloaded : loaded store (.ok bytes) with
      | error f => exact hretains
      | ok l =>
        obtain ⟨hpath, hrecords⟩ := records_of_loaded hloaded
        exact ⟨hretains, hpath, .inl fun id => hbytes ▸ hrecords id⟩

/-- What was saved: the file has the bytes of the ledger, and what was read from its draft is where the file
is. -/
structure Saves (l : Ledger) (s t : Contents × Track) : Prop where
  stored : t.1 l.path = some l.bytes
  copies : t.2.copies = s.2.copies.map (.renamed l.draft l.path)
  missed : s.2.missed ≤ t.2.missed

/-- A ledger is saved as a whole or not at all. -/
theorem tracks_save (hinv : ∀ t, Retains l.path s t → inv t) (hinv' : ∀ t, Saves l s t → inv t) :
    Survives (Tracing l.path) inv (After (fun _ => Saves l s) (Retains l.path s)) l.save.run s := by
  have hdraft : l.path ≠ l.draft := draft_ne l
  refine ⟨hinv s (.refl s), ?_⟩
  rintro (r | _) t ⟨hwrite, htrack⟩
  · obtain ⟨rest, hwrite⟩ := hwrite
    have hretains : Retains l.path s t := .of_eq (by rw [hwrite, Function.update_of_ne hdraft]) htrack
    exact ⟨hinv t hretains, hretains⟩
  have hwrite : t.1 = Function.update s.1 l.draft (some l.bytes) := hwrite
  have htrack : t.2 = s.2 := htrack
  have hretains : Retains l.path s t := .of_eq (by rw [hwrite, Function.update_of_ne hdraft]) htrack
  refine ⟨hinv t hretains, ?_⟩
  rintro (r | _) u ⟨hrename, htrack'⟩
  · have hrename : u.1 = t.1 := hrename
    have htrack' : u.2 = t.2 := htrack'
    obtain rfl : u = t := Prod.ext hrename htrack'
    exact ⟨hinv u hretains, hretains⟩
  have hrename : u.1 = Function.update (Function.update t.1 l.draft none) l.path (t.1 l.draft) := hrename
  have hsaves : Saves l s u := by
    refine ⟨?_, ?_, ?_⟩
    · rw [hrename, Function.update_self, hwrite, Function.update_self]
    · rw [htrack', htrack]
      rfl
    · rw [htrack', htrack]
      rfl
  exact ⟨hinv' u hsaves, hsaves⟩

end MailSieve.Forward
