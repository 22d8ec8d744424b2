import MailSieve.Proofs.Script.Following

/-!
The walks of strings, tags and tests follow the productions of their names.
-/

namespace MailSieve.Script

section

variable {c : Cursor} {ts r : List Token} {stop : Token}

/-- Reads an identifier that is one of these words. -/
def wordOf (words : List String) : List Token → Except Stuck (String × List Token)
  | [] => stuck [.kind .identifier] []
  | t :: r =>
    if t.kind = .identifier then
      if t.text ∈ words then .ok (t.text, r) else stuck (words.map .word) (t :: r)
    else stuck [.kind .identifier] (t :: r)

theorem testWord_eq : testWord = wordOf testWords := by
  funext ts
  cases ts <;> rfl

theorem wordOf_sound {words : List String} {w : String} (h : wordOf words ts = .ok (w, r)) :
    ∃ t, ts = t :: r ∧ t.kind = .identifier ∧ t.text = w ∧ w ∈ words := by
  cases ts with
  | nil => cases h
  | cons t r' =>
    simp only [wordOf] at h
    split at h
    · next hk =>
      split at h
      · next hw =>
        cases h
        exact ⟨t, rfl, hk, rfl, hw⟩
      · cases h
    · cases h

/-- Are a colon and one of these identifiers next? -/
def tagged (tags : List String) : List Token → Bool
  | c :: t :: _ => c.kind = .colon && t.kind = .identifier && decide (t.text ∈ tags)
  | _ => false

/-- A tag that is recognised is read, if the identifiers are those that `read` knows. -/
theorem readTag_of_tagged {tags : List String} {read : String → Option α}
    (htags : ∀ w, w ∈ tags ↔ (read w).isSome) (ts : List Token) :
    if tagged tags ts then
      ∃ c t r a, ts = c :: t :: r ∧ read t.text = some a ∧ readTag read ts = (some a, r)
    else readTag read ts = (none, ts) := by
  match ts with
  | [] => simp [tagged, readTag]
  | [c] => simp [tagged, readTag]
  | c :: t :: r =>
    cases ha : read t.text with
    | none => simp [tagged, readTag_cons, htags, ha]
    | some a =>
      by_cases hk : c.kind = .colon ∧ t.kind = .identifier
      · rw [if_pos (by simp [tagged, htags, ha, hk])]
        exact ⟨c, t, r, a, rfl, ha, by simp [readTag_cons, ha, hk]⟩
      · simp [tagged, readTag_cons, htags, ha, hk]

theorem mem_matchTags (w : String) : w ∈ Walk.matchTags ↔ (MatchType.ofTag? w).isSome := by
  unfold MatchType.ofTag?
  split <;> simp_all [Walk.matchTags]

theorem mem_partTags (w : String) : w ∈ Walk.partTags ↔ (AddressPart.ofTag? w).isSome := by
  unfold AddressPart.ofTag?
  split <;> simp_all [Walk.partTags]

theorem test_shortens {n : Nat} {u : Test} (h : test n ts = .ok (u, r)) : r.length < ts.length := by
  obtain ⟨d, -, hd⟩ := test_sound h
  rw [hd.length]
  have hpos := d.length_yield_pos
  omega

theorem Walk.run_atTag (hstop : stop.kind = .eof) (h : c.Before ts stop) (tags : List String) :
    (Walk.atTag tags).run c = some (.ok (tagged tags ts), c) := by
  rw [Walk.atTag, run_bind_ok (run_peek h), run_bind_ok (run_peekNext h), run_pure]
  match ts with
  | [] => simp [tagged, hstop]
  | [t] => simp [tagged, hstop]
  | t :: u :: r => rfl

section Productions

variable (hstop : stop.kind = .eof)

include hstop

theorem follows_keyword (words : List String) (ts : List Token) :
    Follows stop (Walk.keyword words) ts (wordOf words ts) := by
  apply Follows.peek
  cases ts with
  | nil =>
    rw [List.headD_nil, hstop, if_neg (by decide)]
    exact follows_refuse hstop _ []
  | cons t r =>
    refine .ite (fun _ => .ite (fun _ => ?_) fun _ => ?_) fun _ => follows_refuse hstop _ _
    · exact .advance (follows_pure t.text r)
    · exact follows_refuse hstop _ _

theorem follows_tag {tags : List String} {read : String → Option α}
    (htags : ∀ w, w ∈ tags ↔ (read w).isSome) (ts : List Token) :
    Follows stop (Walk.tag tags read) ts (optionalTag read ts) := by
  refine .look (fun _ hc => Walk.run_atTag hstop hc _) ?_
  have h := readTag_of_tagged htags ts
  split at h
  · next htagged =>
    obtain ⟨c, t, r, a, rfl, ha, hread⟩ := h
    rw [htagged, optionalTag, hread, ← ha]
    exact .advance (.advance (follows_pure _ r))
  · next htagged =>
    rw [optionalTag, h, if_neg htagged]
    exact follows_pure none ts

theorem follows_matchType (ts : List Token) :
    Follows stop Walk.matchType ts (optionalTag MatchType.ofTag? ts) :=
  follows_tag hstop mem_matchTags ts

theorem follows_addressPart (ts : List Token) :
    Follows stop Walk.addressPart ts (optionalTag AddressPart.ofTag? ts) :=
  follows_tag hstop mem_partTags ts

theorem follows_comparator (ts : List Token) :
    Follows stop Walk.comparator ts (comparator ts) := by
  refine .look (fun _ hc => Walk.run_atTag hstop hc _) ?_
  have htags (w : String) :
      w ∈ ["comparator"] ↔ (if w = "comparator" then some () else none).isSome := by simp
  have h := readTag_of_tagged htags ts
  rw [comparator]
  split at h
  · next htagged =>
    obtain ⟨c, t, r, a, rfl, ha, hread⟩ := h
    rw [htagged, hread]
    exact .advance (.advance ((follows_expect hstop (by decide) r).map (f := fun s => some s.text)))
  · next htagged =>
    rw [h, if_neg htagged]
    exact follows_pure none ts

/-! A walk and its production spend their fuel alike, and the induction is on it. -/

theorem follows_moreStrings {n : Nat} (h : ts.length < n) :
    Follows stop (Walk.moreStrings n) ts (moreStrings ts) := by
  induction n generalizing ts with
  | zero => exact absurd h (Nat.not_lt_zero _)
  | succ n ih =>
    refine .either hstop (by decide) (by decide) (by rw [moreStrings]) moreStrings_cons
      (fun t r _ => .advance (follows_pure [] r)) fun t r hts => .advance ?_
    have hr : r.length < n := by
      rw [hts] at h
      exact Nat.lt_of_succ_lt_succ h
    refine (follows_expect hstop (by decide) r).bind fun s r' _ hle => ?_
    exact (ih (Nat.lt_of_le_of_lt hle hr)).map (f := fun ss => s.text :: ss)

variable {n : Nat}

theorem follows_strings (h : ts.length < n) : Follows stop (Walk.strings n) ts (strings ts) := by
  refine .either hstop (by decide) (by decide) rfl strings_cons
    (fun t r _ => .advance (follows_pure [t.text] r)) fun t r hts => .advance ?_
  have hr : r.length < n := by
    rw [hts] at h
    exact Nat.lt_of_succ_lt h
  refine (follows_expect hstop (by decide) r).bind fun s r' _ hle => ?_
  exact (follows_moreStrings hstop (Nat.lt_of_le_of_lt hle hr)).map (f := fun ss => s.text :: ss)

/-- Names and keys. -/
theorem Follows.twoLists {f : List String → List String → Test} (h : ts.length < n) :
    Follows stop (Walk.strings n >>= fun hs => Walk.strings n >>= fun ks => pure (f hs ks)) ts
      (strings ts >>= fun hs => strings hs.2 >>= fun ks => .ok (f hs.1 ks.1, ks.2)) :=
  (follows_strings hstop h).bind fun hs _ _ hle =>
    (follows_strings hstop (Nat.lt_of_le_of_lt hle h)).map (f := f hs)

theorem follows_headerTest (h : ts.length < n) :
    Follows stop (Walk.headerTest n) ts (headerTest ts) := by
  rw [headerTest_eq]
  refine (follows_comparator hstop ts).bind fun c r _ hc => ?_
  refine (follows_matchType hstop r).bind fun m r _ hm => ?_
  exact .twoLists hstop (f := fun hs ks => Test.header ⟨c, m, hs, ks⟩)
    (Nat.lt_of_le_of_lt (Nat.le_trans hm hc) h)

theorem follows_addressTest (h : ts.length < n) :
    Follows stop (Walk.addressTest n) ts (addressTest ts) := by
  rw [addressTest_eq]
  refine (follows_comparator hstop ts).bind fun c r _ hc => ?_
  refine (follows_addressPart hstop r).bind fun p r _ hp => ?_
  refine (follows_matchType hstop r).bind fun m r _ hm => ?_
  exact .twoLists hstop (f := fun hs ks => Test.address ⟨c, p, m, hs, ks⟩)
    (Nat.lt_of_le_of_lt (Nat.le_trans hm (Nat.le_trans hp hc)) h)

mutual

theorem follows_test : ∀ (n : Nat) (ts : List Token), ts.length < n →
    Follows stop (Walk.test n) ts (test n ts)
  | 0, ts, h => absurd h (Nat.not_lt_zero _)
  | n + 1, ts, h => by
    rw [Walk.test, test, testWord_eq]
    refine (follows_keyword hstop testWords ts).bind fun w r hw _ => ?_
    obtain ⟨t, rfl, -, -, hmem⟩ := wordOf_sound hw
    have hr : r.length < n := Nat.lt_of_succ_lt_succ h
    have hlist := follows_testList n r hr
    simp only [testWords, List.mem_cons, List.not_mem_nil, or_false] at hmem
    obtain rfl | rfl | rfl | rfl := hmem
    · exact follows_headerTest hstop hr
    · exact follows_addressTest hstop hr
    · exact hlist.map (f := Test.allof)
    · exact hlist.map (f := Test.anyof)

theorem follows_testList : ∀ (n : Nat) (ts : List Token), ts.length < n →
    Follows stop (Walk.testList n) ts (testList n ts)
  | 0, ts, h => absurd h (Nat.not_lt_zero _)
  | n + 1, ts, h => by
    rw [Walk.testList, testList_succ]
    refine (follows_expect hstop (by decide) ts).bind fun p r hp _ => ?_
    obtain ⟨rfl, -⟩ := expect_eq_ok.1 hp
    have hr : r.length < n := Nat.lt_of_succ_lt_succ h
    refine (follows_test n r hr).bind fun u r' _ hle => ?_
    exact (follows_moreTests n r' (Nat.lt_of_le_of_lt hle hr)).map (f := fun us => u :: us)

theorem follows_moreTests : ∀ (n : Nat) (ts : List Token), ts.length < n →
    Follows stop (Walk.moreTests n) ts (moreTests n ts)
  | 0, ts, h => absurd h (Nat.not_lt_zero _)
  | n + 1, ts, h => by
    rw [Walk.moreTests]
    refine .either hstop (by decide) (by decide) (by rw [moreTests]) (moreTests_cons n)
      (fun t r _ => .advance (follows_pure [] r)) fun t r hts => .advance ?_
    have hr : r.length < n := by
      rw [hts] at h
      exact Nat.lt_of_succ_lt_succ h
    refine (follows_test n r hr).bind fun u r' _ hle => ?_
    exact (follows_moreTests n r' (Nat.lt_of_le_of_lt hle hr)).map (f := fun us => u :: us)

end

end Productions

end

end MailSieve.Script
