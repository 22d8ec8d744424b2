import MailSieve.Proofs.Script.Acceptance
import MailSieve.Proofs.Script.Layout

/-!
Printing programs. The programs that can be read are the well formed ones, and each of them is what
its print is read as.
-/

namespace MailSieve.Script

mutual

/-- Lists of strings and of subtests are not empty. -/
def Test.WellFormed : Test → Prop
  | .allof ts | .anyof ts => ts ≠ [] ∧ TestsWellFormed ts
  | .header t => t.headers ≠ [] ∧ t.keys ≠ []
  | .address t => t.headers ≠ [] ∧ t.keys ≠ []

def TestsWellFormed : List Test → Prop
  | [] => True
  | t :: ts => t.WellFormed ∧ TestsWellFormed ts

end

mutual

/-- Lists of strings are not empty, and there is one flag for a target. -/
def Command.WellFormed : Command → Prop
  | .require cs => cs ≠ []
  | .keep | .discard | .fileinto _ => True
  | .addflag none fs => fs ≠ []
  | .addflag (some _) fs => fs.length = 1
  | .branch t b next => t.WellFormed ∧ Program.WellFormed b ∧ next.WellFormed

def Program.WellFormed : Program → Prop
  | [] => True
  | c :: cs => c.WellFormed ∧ Program.WellFormed cs

def Chain.WellFormed : Chain → Prop
  | .done => True
  | .elsif t b next => t.WellFormed ∧ Program.WellFormed b ∧ next.WellFormed
  | .otherwise b => Program.WellFormed b

end

/-- A list in brackets. -/
def listed (ss : List String) : List Lexeme :=
  .sign .lbracket :: ((Phrase.moreStrings ss).tail ++ [.sign .rbracket])

mutual

def Test.lexemes : Test → List Lexeme
  | .allof ts => .word "allof" :: .sign .lparen :: ((moreLexemes ts).tail ++ [.sign .rparen])
  | .anyof ts => .word "anyof" :: .sign .lparen :: ((moreLexemes ts).tail ++ [.sign .rparen])
  | .header t =>
    .word "header" :: (Phrase.comparator t.comparator ++
      (Phrase.tag (t.matchType.map MatchType.tag) ++ (listed t.headers ++ listed t.keys)))
  | .address t =>
    .word "address" :: (Phrase.comparator t.comparator ++
      (Phrase.tag (t.part.map AddressPart.tag) ++ (Phrase.tag (t.matchType.map MatchType.tag) ++
        (listed t.headers ++ listed t.keys))))

/-- The tests, each after a comma. -/
def moreLexemes : List Test → List Lexeme
  | [] => []
  | t :: ts => .sign .comma :: (t.lexemes ++ moreLexemes ts)

end

mutual

def Command.lexemes : Command → List Lexeme
  | .require cs => .word "require" :: (listed cs ++ [.sign .semicolon])
  | .keep => [.word "keep", .sign .semicolon]
  | .discard => [.word "discard", .sign .semicolon]
  | .fileinto m => [.word "fileinto", .string m, .sign .semicolon]
  | .addflag none fs => .word "addflag" :: (listed fs ++ [.sign .semicolon])
  | .addflag (some v) fs => .word "addflag" :: .string v :: (fs.map .string ++ [.sign .semicolon])
  | .branch t b next =>
    .word "if" :: (t.lexemes ++ .sign .lbrace :: (Program.lexemes b ++ .sign .rbrace :: next.lexemes))

def Program.lexemes : Program → List Lexeme
  | [] => []
  | c :: cs => c.lexemes ++ Program.lexemes cs

def Chain.lexemes : Chain → List Lexeme
  | .done => []
  | .elsif t b next => .word "elsif" ::
    (t.lexemes ++ .sign .lbrace :: (Program.lexemes b ++ .sign .rbrace :: next.lexemes))
  | .otherwise b => .word "else" :: .sign .lbrace :: (Program.lexemes b ++ [.sign .rbrace])

end

def Program.print (p : Program) : String := .ofList (layOut (p.lexemes))

/-! The trees of phrases are well formed. -/

theorem Phrase.Strings.tree_ne_nil (d : Phrase.Strings) : d.tree ≠ [] := by
  cases d <;> simp [Phrase.Strings.tree]

mutual

theorem wellFormed_testTree : ∀ d : Phrase.Test, d.tree.WellFormed
  | .header _ _ hs ks | .address _ _ _ hs ks => ⟨hs.tree_ne_nil, ks.tree_ne_nil⟩
  | .allof t ts | .anyof t ts =>
    ⟨List.cons_ne_nil _ _, wellFormed_testTree t, wellFormed_testTrees ts⟩

theorem wellFormed_testTrees : ∀ ds : List Phrase.Test, TestsWellFormed (Phrase.testTrees ds)
  | [] => trivial
  | d :: ds => ⟨wellFormed_testTree d, wellFormed_testTrees ds⟩

end

mutual

theorem wellFormed_commandTree : ∀ d : Phrase.Command, d.tree.WellFormed
  | .require ss | .addflag ss => ss.tree_ne_nil
  | .keep | .discard | .fileinto _ => trivial
  | .addflagTo _ _ => rfl
  | .branch b => wellFormed_branchTree b

theorem wellFormed_branchTree : ∀ d : Phrase.Branch,
    d.tree.1.WellFormed ∧ Program.WellFormed d.tree.2.1 ∧ d.tree.2.2.WellFormed
  | .mk t b next =>
    ⟨wellFormed_testTree t, wellFormed_commandTrees b, wellFormed_chainTree next⟩

theorem wellFormed_chainTree : ∀ d : Phrase.Chain, d.tree.WellFormed
  | .done => trivial
  | .elsif b => wellFormed_branchTree b
  | .otherwise b => wellFormed_commandTrees b

theorem wellFormed_commandTrees : ∀ ds : List Phrase.Command,
    Program.WellFormed (Phrase.commandTrees ds)
  | [] => trivial
  | d :: ds => ⟨wellFormed_commandTree d, wellFormed_commandTrees ds⟩

end

theorem wellFormed_of_derives {ls : List Lexeme} {p : Program} (h : Derives ls p) :
    Program.WellFormed p := by
  cases h with
  | intro ds h => exact h.2 ▸ wellFormed_commandTrees ds

/-! What is well formed is the tree of a phrase that has its lexemes. -/

theorem exists_strings {ss : List String} (h : ss ≠ []) :
    ∃ d : Phrase.Strings, d.yield = listed ss ∧ d.tree = ss := by
  cases ss with
  | nil => exact absurd rfl h
  | cons s ss => exact ⟨.listed s ss, rfl, rfl⟩

mutual

theorem exists_test : ∀ t : Test, t.WellFormed → ∃ d : Phrase.Test, d.yield = t.lexemes ∧ d.tree = t
  | .header t, h => by
    obtain ⟨hs, hhs, hhs'⟩ := exists_strings h.1
    obtain ⟨ks, hks, hks'⟩ := exists_strings h.2
    exact ⟨.header t.comparator t.matchType hs ks, by simp [Phrase.Test.yield, Test.lexemes, hhs, hks],
      by simp [Phrase.Test.tree, hhs', hks']⟩
  | .address t, h => by
    obtain ⟨hs, hhs, hhs'⟩ := exists_strings h.1
    obtain ⟨ks, hks, hks'⟩ := exists_strings h.2
    exact ⟨.address t.comparator t.part t.matchType hs ks,
      by simp [Phrase.Test.yield, Test.lexemes, hhs, hks], by simp [Phrase.Test.tree, hhs', hks']⟩
  | .allof [], h => absurd rfl h.1
  | .anyof [], h => absurd rfl h.1
  | .allof (t :: ts), h => by
    obtain ⟨d, hd, hd'⟩ := exists_test t h.2.1
    obtain ⟨ds, hds, hds'⟩ := exists_tests ts h.2.2
    exact ⟨.allof d ds, by simp [Phrase.Test.yield, Test.lexemes, moreLexemes, hd, hds],
      by simp [Phrase.Test.tree, hd', hds']⟩
  | .anyof (t :: ts), h => by
    obtain ⟨d, hd, hd'⟩ := exists_test t h.2.1
    obtain ⟨ds, hds, hds'⟩ := exists_tests ts h.2.2
    exact ⟨.anyof d ds, by simp [Phrase.Test.yield, Test.lexemes, moreLexemes, hd, hds],
      by simp [Phrase.Test.tree, hd', hds']⟩

theorem exists_tests : ∀ ts : List Test, TestsWellFormed ts →
    ∃ ds, Phrase.moreTests ds = moreLexemes ts ∧ Phrase.testTrees ds = ts
  | [], _ => ⟨[], rfl, rfl⟩
  | t :: ts, h => by
    obtain ⟨d, hd, hd'⟩ := exists_test t h.1
    obtain ⟨ds, hds, hds'⟩ := exists_tests ts h.2
    exact ⟨d :: ds, by simp [Phrase.moreTests, moreLexemes, hd, hds],
      by simp [Phrase.testTrees, hd', hds']⟩

end

theorem exists_branch {t : Test} {b : List Command} {next : Chain}
    (ht : ∃ d : Phrase.Test, d.yield = t.lexemes ∧ d.tree = t)
    (hb : ∃ ds, Phrase.commands ds = Program.lexemes b ∧ Phrase.commandTrees ds = b)
    (hnext : ∃ d : Phrase.Chain, d.yield = next.lexemes ∧ d.tree = next) :
    ∃ d : Phrase.Branch, d.yield = t.lexemes ++ .sign .lbrace :: (Program.lexemes b ++
      .sign .rbrace :: next.lexemes) ∧ d.tree = (t, b, next) := by
  obtain ⟨dt, ht, ht'⟩ := ht
  obtain ⟨ds, hb, hb'⟩ := hb
  obtain ⟨dn, hn, hn'⟩ := hnext
  exact ⟨.mk dt ds dn, by rw [Phrase.Branch.yield, ht, hb, hn],
    by rw [Phrase.Branch.tree, ht', hb', hn']⟩

mutual

theorem exists_command : ∀ c : Command, c.WellFormed →
    ∃ d : Phrase.Command, d.yield = c.lexemes ∧ d.tree = c
  | .keep, _ => ⟨.keep, rfl, rfl⟩
  | .discard, _ => ⟨.discard, rfl, rfl⟩
  | .fileinto m, _ => ⟨.fileinto m, rfl, rfl⟩
  | .addflag (some v) [f], _ => ⟨.addflagTo v f, rfl, rfl⟩
  | .require cs, h => by
    obtain ⟨d, hd, hd'⟩ := exists_strings h
    exact ⟨.require d, by rw [Phrase.Command.yield, Command.lexemes, hd],
      by rw [Phrase.Command.tree, hd']⟩
  | .addflag none fs, h => by
    obtain ⟨d, hd, hd'⟩ := exists_strings h
    exact ⟨.addflag d, by rw [Phrase.Command.yield, Command.lexemes, hd],
      by rw [Phrase.Command.tree, hd']⟩
  | .branch t b next, h => by
    obtain ⟨d, hd, hd'⟩ :=
      exists_branch (exists_test t h.1) (exists_commands b h.2.1) (exists_chain next h.2.2)
    exact ⟨.branch d, by rw [Phrase.Command.yield, Command.lexemes, hd],
      by rw [Phrase.Command.tree, hd']⟩

theorem exists_commands : ∀ cs : List Command, Program.WellFormed cs →
    ∃ ds, Phrase.commands ds = Program.lexemes cs ∧ Phrase.commandTrees ds = cs
  | [], _ => ⟨[], rfl, rfl⟩
  | c :: cs, h => by
    obtain ⟨d, hd, hd'⟩ := exists_command c h.1
    obtain ⟨ds, hds, hds'⟩ := exists_commands cs h.2
    exact ⟨d :: ds, by rw [Phrase.commands, Program.lexemes, hd, hds],
      by rw [Phrase.commandTrees, hd', hds']⟩

theorem exists_chain : ∀ next : Chain, next.WellFormed →
    ∃ d : Phrase.Chain, d.yield = next.lexemes ∧ d.tree = next
  | .done, _ => ⟨.done, rfl, rfl⟩
  | .elsif t b next, h => by
    obtain ⟨d, hd, hd'⟩ :=
      exists_branch (exists_test t h.1) (exists_commands b h.2.1) (exists_chain next h.2.2)
    exact ⟨.elsif d, by rw [Phrase.Chain.yield, Chain.lexemes, hd],
      by rw [Phrase.Chain.tree, hd']⟩
  | .otherwise b, h => by
    obtain ⟨ds, hds, hds'⟩ := exists_commands b h
    exact ⟨.otherwise ds, by rw [Phrase.Chain.yield, Chain.lexemes, hds],
      by rw [Phrase.Chain.tree, hds']⟩

end

theorem derives_lexemes {p : Program} (h : Program.WellFormed p) : Derives (p.lexemes) p :=
  exists_commands p h

/-- A text of the lexemes of a program is read as that program. -/
theorem parseScript_laid {ls : List Lexeme} {p : Program} (h : Derives ls p) {s : List Char}
    (hs : Laid ls s) : parseScript (.ofList s) = .ok p := by
  obtain ⟨ts, hts, hls⟩ := tokensFrom_laid hs 0
  have hp : parse ts = .ok p := by
    rw [parse_eq_ok, map_lexeme_input, hls, List.getLast?_concat, if_pos rfl, List.dropLast_concat]
    exact h
  rw [parseScript, tokenize, String.toList_ofList, hts]
  exact hp

theorem laid_print {p : Program} (h : Program.WellFormed p) :
    Laid (p.lexemes) (layOut (p.lexemes)) := by
  apply laid_layOut
  cases derives_lexemes h with
  | intro ds hds =>
    rw [← hds.1]
    exact Phrase.writable_commands ds

theorem wellFormed_of_parse {ts : List Token} {p : Program} (h : parse ts = .ok p) :
    Program.WellFormed p :=
  wellFormed_of_derives (parse_eq_ok.1 h)

theorem wellFormed_of_parseScript {s : String} {p : Program} (h : parseScript s = .ok p) :
    Program.WellFormed p := by
  unfold parseScript at h
  cases hts : tokenize s with
  | error e => simp [hts, bind, Except.bind] at h
  | ok ts =>
    rw [hts] at h
    exact wellFormed_of_parse h

/-- What is read is well formed, and a well formed program is what each text of it is read as, its
print and any other way to lay out its lexemes. -/
theorem parseScript_print (p : Program) :
    (∀ ts, parse ts = .ok p → p.WellFormed) ∧
    (∀ s, parseScript s = .ok p → p.WellFormed) ∧
    (p.WellFormed → parseScript p.print = .ok p ∧
      ∀ s, Laid p.lexemes s → parseScript (.ofList s) = .ok p) := by
  refine ⟨fun _ => wellFormed_of_parse, fun _ => wellFormed_of_parseScript, fun h => ⟨?_, ?_⟩⟩
  · exact parseScript_laid (derives_lexemes h) (laid_print h)
  · intro s hs
    exact parseScript_laid (derives_lexemes h) hs

theorem parseScript_print_quoted :
    ∃ p : Program, p.WellFormed ∧
      p.print = "if header [\"a\"][\"\\\"\\\\\"]\x7baddflag \"v\"\"f\";\x7d" ∧
      parseScript p.print = .ok p := by
  have h := (parseScript_print [.branch (.header ⟨none, none, ["a"], ["\"\\"]⟩)
    [.addflag (some "v") ["f"]] .done]).2.2 (by
      simp [Program.WellFormed, Command.WellFormed, Test.WellFormed, Chain.WellFormed])
  exact ⟨_, (parseScript_print _).2.1 _ h.1, by decide +kernel, h.1⟩

end MailSieve.Script
