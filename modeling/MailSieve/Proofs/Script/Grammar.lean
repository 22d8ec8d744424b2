import MailSieve.Script.Token
import MailSieve.Script.Tree

/-!
The grammar of scripts, as trees of its productions. A phrase has a yield, the lexemes that it is
written with, and a tree, the syntax that it stands for. No two phrases have one yield, also when
something follows that cannot continue them.
-/

namespace MailSieve.Script

/-- What the grammar sees of a token: what a word or string holds, and of a sign its kind. -/
inductive Lexeme where
  | word (w : String)
  | string (s : String)
  | sign (k : Kind)
  deriving DecidableEq

def Token.lexeme (t : Token) : Lexeme :=
  match t.kind with
  | .identifier => .word t.text
  | .string => .string t.text
  | k => .sign k

/-- A word is made of letters, a sign is not a kind of word or the end of the input. -/
def Lexeme.Writable : Lexeme → Prop
  | .word w => w.toList ≠ [] ∧ ∀ c ∈ w.toList, c.isAlpha
  | .string _ => True
  | .sign k => k ≠ .identifier ∧ k ≠ .string ∧ k ≠ .eof

namespace Phrase

inductive Strings where
  | bare (s : String)
  | listed (s : String) (ss : List String)

inductive Test where
  | header (c : Option String) (m : Option MatchType) (hs ks : Strings)
  | address (c : Option String) (p : Option AddressPart) (m : Option MatchType) (hs ks : Strings)
  | allof (t : Test) (ts : List Test)
  | anyof (t : Test) (ts : List Test)

mutual

inductive Command where
  | require (cs : Strings)
  | keep
  | discard
  | fileinto (m : String)
  | addflag (fs : Strings)
  | addflagTo (v f : String)
  | branch (b : Branch)

/-- What follows `if` or `elsif`. -/
inductive Branch where
  | mk (t : Test) (b : List Command) (next : Chain)

inductive Chain where
  | done
  | elsif (b : Branch)
  | otherwise (b : List Command)

end

def moreStrings (ss : List String) : List Lexeme :=
  ss.flatMap fun s => [.sign .comma, .string s]

def Strings.yield : Strings → List Lexeme
  | .bare s => [.string s]
  | .listed s ss => .sign .lbracket :: .string s :: (moreStrings ss ++ [.sign .rbracket])

def Strings.tree : Strings → List String
  | .bare s => [s]
  | .listed s ss => s :: ss

def comparator : Option String → List Lexeme
  | none => []
  | some c => [.sign .colon, .word "comparator", .string c]

def tag : Option String → List Lexeme
  | none => []
  | some w => [.sign .colon, .word w]

mutual

def Test.yield : Test → List Lexeme
  | .header c m hs ks =>
    .word "header" :: (comparator c ++ (tag (m.map MatchType.tag) ++ (hs.yield ++ ks.yield)))
  | .address c p m hs ks =>
    .word "address" :: (comparator c ++ (tag (p.map AddressPart.tag) ++
      (tag (m.map MatchType.tag) ++ (hs.yield ++ ks.yield))))
  | .allof t ts => .word "allof" :: .sign .lparen :: (t.yield ++ (moreTests ts ++ [.sign .rparen]))
  | .anyof t ts => .word "anyof" :: .sign .lparen :: (t.yield ++ (moreTests ts ++ [.sign .rparen]))

def moreTests : List Test → List Lexeme
  | [] => []
  | t :: ts => .sign .comma :: (t.yield ++ moreTests ts)

end

mutual

def Test.tree : Test → Script.Test
  | .header c m hs ks => .header ⟨c, m, hs.tree, ks.tree⟩
  | .address c p m hs ks => .address ⟨c, p, m, hs.tree, ks.tree⟩
  | .allof t ts => .allof (t.tree :: testTrees ts)
  | .anyof t ts => .anyof (t.tree :: testTrees ts)

def testTrees : List Test → List Script.Test
  | [] => []
  | t :: ts => t.tree :: testTrees ts

end

mutual

def Command.yield : Command → List Lexeme
  | .require cs => .word "require" :: (cs.yield ++ [.sign .semicolon])
  | .keep => [.word "keep", .sign .semicolon]
  | .discard => [.word "discard", .sign .semicolon]
  | .fileinto m => [.word "fileinto", .string m, .sign .semicolon]
  | .addflag fs => .word "addflag" :: (fs.yield ++ [.sign .semicolon])
  | .addflagTo v f => [.word "addflag", .string v, .string f, .sign .semicolon]
  | .branch b => .word "if" :: b.yield

def Branch.yield : Branch → List Lexeme
  | .mk t b next =>
    t.yield ++ .sign .lbrace :: (commands b ++ .sign .rbrace :: next.yield)

def Chain.yield : Chain → List Lexeme
  | .done => []
  | .elsif b => .word "elsif" :: b.yield
  | .otherwise b => .word "else" :: .sign .lbrace :: (commands b ++ [.sign .rbrace])

def commands : List Command → List Lexeme
  | [] => []
  | c :: cs => c.yield ++ commands cs

end

mutual

def Command.tree : Command → Script.Command
  | .require cs => .require cs.tree
  | .keep => .keep
  | .discard => .discard
  | .fileinto m => .fileinto m
  | .addflag fs => .addflag none fs.tree
  | .addflagTo v f => .addflag (some v) [f]
  | .branch b => .branch b.tree.1 b.tree.2.1 b.tree.2.2

def Branch.tree : Branch → Script.Test × Program × Script.Chain
  | .mk t b next => (t.tree, commandTrees b, next.tree)

def Chain.tree : Chain → Script.Chain
  | .done => .done
  | .elsif b => .elsif b.tree.1 b.tree.2.1 b.tree.2.2
  | .otherwise b => .otherwise (commandTrees b)

def commandTrees : List Command → Program
  | [] => []
  | c :: cs => c.tree :: commandTrees cs

end

/-! A yield ends where its phrase says, so equal lists of lexemes start with equal phrases. -/
theorem moreStrings_inj {ss us : List String} {r s : List Lexeme}
    (h : moreStrings ss ++ .sign .rbracket :: r = moreStrings us ++ .sign .rbracket :: s) :
    ss = us ∧ r = s := by
  induction ss generalizing us with
  | nil => cases us <;> simp_all [moreStrings]
  | cons a ss ih =>
    cases us with
    | nil => simp [moreStrings] at h
    | cons b us =>
      simp only [moreStrings, List.flatMap_cons, List.cons_append, List.nil_append,
        List.cons.injEq, Lexeme.string.injEq, true_and] at h
      obtain ⟨rfl, rfl⟩ := ih h.2
      exact ⟨by rw [h.1], rfl⟩

theorem Strings.yield_inj {a b : Strings} {r s : List Lexeme} (h : a.yield ++ r = b.yield ++ s) :
    a = b ∧ r = s := by
  cases a <;> cases b <;> simp only [Strings.yield, List.cons_append, List.nil_append,
    List.append_assoc, List.cons.injEq, Lexeme.string.injEq, reduceCtorEq, false_and,
    true_and] at h
  · exact ⟨by rw [h.1], h.2⟩
  · obtain ⟨rfl, rfl⟩ := moreStrings_inj h.2
    exact ⟨by rw [h.1], rfl⟩

@[simp] theorem Strings.yield_ne_colon {a : Strings} {r s : List Lexeme} :
    a.yield ++ r ≠ .sign .colon :: s := by
  cases a <;> simp [Strings.yield]

theorem tag_ne {f : α → String} {w : String} {o : Option α} {r : List Lexeme}
    (hf : ∀ a, f a ≠ w) (hr : ∀ u, r ≠ .sign .colon :: .word w :: u) (u : List Lexeme) :
    tag (o.map f) ++ r ≠ .sign .colon :: .word w :: u := by
  cases o with
  | none => exact hr u
  | some a => simp [tag, hf a]

theorem tag_inj {f : α → String} (hf : Function.Injective f) {o o' : Option α}
    {r s : List Lexeme} (hr : ∀ a u, r ≠ .sign .colon :: .word (f a) :: u)
    (hs : ∀ a u, s ≠ .sign .colon :: .word (f a) :: u)
    (h : tag (o.map f) ++ r = tag (o'.map f) ++ s) : o = o' ∧ r = s := by
  cases o with
  | none =>
    cases o' with
    | none => exact ⟨rfl, h⟩
    | some b => exact absurd h (hr b _)
  | some a =>
    cases o' with
    | none => exact absurd h.symm (hs a _)
    | some b =>
      simp only [tag, Option.map_some, List.cons_append, List.nil_append, List.cons.injEq,
        Lexeme.word.injEq, true_and] at h
      exact ⟨by rw [hf h.1], h.2⟩

theorem comparator_inj {c c' : Option String} {r s : List Lexeme}
    (hr : ∀ u, r ≠ .sign .colon :: .word "comparator" :: u)
    (hs : ∀ u, s ≠ .sign .colon :: .word "comparator" :: u)
    (h : comparator c ++ r = comparator c' ++ s) : c = c' ∧ r = s := by
  cases c with
  | none =>
    cases c' with
    | none => exact ⟨rfl, h⟩
    | some b => exact absurd h (hr _)
  | some a =>
    cases c' with
    | none => exact absurd h.symm (hs _)
    | some b =>
      simp only [comparator, List.cons_append, List.nil_append, List.cons.injEq,
        Lexeme.string.injEq, true_and] at h
      exact ⟨by rw [h.1], h.2⟩

theorem matchTag_injective : Function.Injective MatchType.tag := by
  intro a b
  cases a <;> cases b <;> simp [MatchType.tag]

theorem partTag_injective : Function.Injective AddressPart.tag := by
  intro a b
  cases a <;> cases b <;> simp [AddressPart.tag]

theorem matchTag_ne_comparator (m : MatchType) : m.tag ≠ "comparator" := by cases m <;> decide

theorem partTag_ne_comparator (p : AddressPart) : p.tag ≠ "comparator" := by cases p <;> decide

theorem matchTag_ne_partTag (m : MatchType) (p : AddressPart) : m.tag ≠ p.tag := by
  cases m <;> cases p <;> decide

mutual

theorem Test.yield_inj : ∀ {d e : Test} {r s : List Lexeme}, d.yield ++ r = e.yield ++ s →
    d = e ∧ r = s
  | .header c m hs ks, .header c' m' hs' ks', r, s, h => by
    simp only [Test.yield, List.cons_append, List.append_assoc, List.cons.injEq, true_and] at h
    obtain ⟨rfl, h₁⟩ := comparator_inj
      (tag_ne matchTag_ne_comparator fun _ => Strings.yield_ne_colon)
      (tag_ne matchTag_ne_comparator fun _ => Strings.yield_ne_colon) h
    obtain ⟨rfl, h₂⟩ := tag_inj matchTag_injective
      (fun _ _ => Strings.yield_ne_colon) (fun _ _ => Strings.yield_ne_colon) h₁
    obtain ⟨rfl, h₃⟩ := Strings.yield_inj h₂
    obtain ⟨rfl, h₄⟩ := Strings.yield_inj h₃
    exact ⟨rfl, h₄⟩
  | .address c p m hs ks, .address c' p' m' hs' ks', r, s, h => by
    simp only [Test.yield, List.cons_append, List.append_assoc, List.cons.injEq, true_and] at h
    obtain ⟨rfl, h₁⟩ := comparator_inj
      (tag_ne partTag_ne_comparator (tag_ne matchTag_ne_comparator fun _ => Strings.yield_ne_colon))
      (tag_ne partTag_ne_comparator (tag_ne matchTag_ne_comparator fun _ => Strings.yield_ne_colon)) h
    obtain ⟨rfl, h₂⟩ := tag_inj partTag_injective
      (fun p => tag_ne (matchTag_ne_partTag · p) fun _ => Strings.yield_ne_colon)
      (fun p => tag_ne (matchTag_ne_partTag · p) fun _ => Strings.yield_ne_colon) h₁
    obtain ⟨rfl, h₃⟩ := tag_inj matchTag_injective
      (fun _ _ => Strings.yield_ne_colon) (fun _ _ => Strings.yield_ne_colon) h₂
    obtain ⟨rfl, h₄⟩ := Strings.yield_inj h₃
    obtain ⟨rfl, h₅⟩ := Strings.yield_inj h₄
    exact ⟨rfl, h₅⟩
  | .allof t ts, .allof u us, r, s, h => by
    simp only [Test.yield, List.cons_append, List.append_assoc, List.nil_append, List.cons.injEq,
      true_and] at h
    obtain ⟨rfl, h₁⟩ := Test.yield_inj h
    obtain ⟨rfl, h₂⟩ := moreTests_inj h₁
    exact ⟨rfl, h₂⟩
  | .anyof t ts, .anyof u us, r, s, h => by
    simp only [Test.yield, List.cons_append, List.append_assoc, List.nil_append, List.cons.injEq,
      true_and] at h
    obtain ⟨rfl, h₁⟩ := Test.yield_inj h
    obtain ⟨rfl, h₂⟩ := moreTests_inj h₁
    exact ⟨rfl, h₂⟩
  | .header .., .address .., r, s, h | .header .., .allof .., r, s, h
  | .header .., .anyof .., r, s, h | .address .., .header .., r, s, h
  | .address .., .allof .., r, s, h | .address .., .anyof .., r, s, h
  | .allof .., .header .., r, s, h | .allof .., .address .., r, s, h
  | .allof .., .anyof .., r, s, h | .anyof .., .header .., r, s, h
  | .anyof .., .address .., r, s, h | .anyof .., .allof .., r, s, h => by simp [Test.yield] at h

theorem moreTests_inj : ∀ {ds es : List Test} {r s : List Lexeme},
    moreTests ds ++ .sign .rparen :: r = moreTests es ++ .sign .rparen :: s → ds = es ∧ r = s
  | [], [], r, s, h => by simpa [moreTests] using h
  | d :: ds, e :: es, r, s, h => by
    simp only [moreTests, List.cons_append, List.append_assoc, List.cons.injEq, true_and] at h
    obtain ⟨rfl, h₁⟩ := Test.yield_inj h
    obtain ⟨rfl, h₂⟩ := moreTests_inj h₁
    exact ⟨rfl, h₂⟩
  | [], _ :: _, r, s, h | _ :: _, [], r, s, h => by simp [moreTests] at h

end

/-- No command starts here. -/
def EndsBlock (r : List Lexeme) : Prop := ∀ w u, r ≠ .word w :: u

/-- No chain of branches goes on here. -/
def EndsBranch (r : List Lexeme) : Prop := ∀ u, r ≠ .word "elsif" :: u ∧ r ≠ .word "else" :: u

@[simp] theorem endsBlock_nil : EndsBlock [] := fun _ _ => List.cons_ne_nil _ _ |>.symm

@[simp] theorem endsBlock_sign {k : Kind} {r : List Lexeme} : EndsBlock (.sign k :: r) :=
  fun _ _ h => by simp at h

theorem endsBranch_commands {cs : List Command} {r : List Lexeme} (hr : EndsBlock r) :
    EndsBranch (commands cs ++ r) := by
  intro u
  cases cs with
  | nil => exact ⟨hr _ u, hr _ u⟩
  | cons c cs => cases c <;> simp [commands, Command.yield]

mutual

theorem Command.yield_inj : ∀ {c d : Command} {r s : List Lexeme}, EndsBranch r → EndsBranch s →
    c.yield ++ r = d.yield ++ s → c = d ∧ r = s := by
  intro c d r s hr hs h
  cases c with
  | require a =>
    cases d with
    | require b =>
      simp only [Command.yield, List.cons_append, List.append_assoc, List.cons.injEq,
        true_and] at h
      obtain ⟨rfl, h₁⟩ := Strings.yield_inj h
      exact ⟨rfl, by simpa using h₁⟩
    | _ => simp [Command.yield] at h
  | keep =>
    cases d with
    | keep => simpa [Command.yield] using h
    | _ => simp [Command.yield] at h
  | discard =>
    cases d with
    | discard => simpa [Command.yield] using h
    | _ => simp [Command.yield] at h
  | fileinto m =>
    cases d with
    | fileinto n => simpa [Command.yield] using h
    | _ => simp [Command.yield] at h
  | addflag a =>
    cases d with
    | addflag b =>
      simp only [Command.yield, List.cons_append, List.append_assoc, List.cons.injEq,
        true_and] at h
      obtain ⟨rfl, h₁⟩ := Strings.yield_inj h
      exact ⟨rfl, by simpa using h₁⟩
    | addflagTo => cases a <;> simp [Command.yield, Strings.yield] at h
    | _ => simp [Command.yield] at h
  | addflagTo v f =>
    cases d with
    | addflagTo => simpa [Command.yield, and_assoc] using h
    | addflag b => cases b <;> simp [Command.yield, Strings.yield] at h
    | _ => simp [Command.yield] at h
  | branch a =>
    cases d with
    | branch b =>
      simp only [Command.yield, List.cons_append, List.cons.injEq, true_and] at h
      obtain ⟨rfl, h₁⟩ := Branch.yield_inj hr hs h
      exact ⟨rfl, h₁⟩
    | _ => simp [Command.yield] at h

theorem Branch.yield_inj : ∀ {a b : Branch} {r s : List Lexeme}, EndsBranch r → EndsBranch s →
    a.yield ++ r = b.yield ++ s → a = b ∧ r = s := by
  intro a b r s hr hs h
  cases a with | mk t c next =>
  cases b with | mk u d next' =>
  simp only [Branch.yield, List.cons_append, List.append_assoc] at h
  obtain ⟨rfl, h₁⟩ := Test.yield_inj h
  obtain ⟨rfl, h₂⟩ := commands_inj endsBlock_sign endsBlock_sign (List.cons.inj h₁).2
  obtain ⟨rfl, h₃⟩ := Chain.yield_inj hr hs (List.cons.inj h₂).2
  exact ⟨rfl, h₃⟩

theorem Chain.yield_inj : ∀ {a b : Chain} {r s : List Lexeme}, EndsBranch r → EndsBranch s →
    a.yield ++ r = b.yield ++ s → a = b ∧ r = s := by
  intro a b r s hr hs h
  cases a with
  | done =>
    cases b with
    | done => exact ⟨rfl, h⟩
    | elsif b => exact absurd h (hr _).1
    | otherwise b => exact absurd h (hr _).2
  | elsif a =>
    cases b with
    | done => exact absurd h.symm (hs _).1
    | elsif b =>
      simp only [Chain.yield, List.cons_append, List.cons.injEq, true_and] at h
      obtain ⟨rfl, h₁⟩ := Branch.yield_inj hr hs h
      exact ⟨rfl, h₁⟩
    | otherwise b => simp [Chain.yield] at h
  | otherwise a =>
    cases b with
    | done => exact absurd h.symm (hs _).2
    | elsif b => simp [Chain.yield] at h
    | otherwise b =>
      simp only [Chain.yield, List.cons_append, List.append_assoc, List.nil_append,
        List.cons.injEq, true_and] at h
      obtain ⟨rfl, h₁⟩ := commands_inj endsBlock_sign endsBlock_sign h
      exact ⟨rfl, (List.cons.inj h₁).2⟩

theorem commands_inj : ∀ {cs ds : List Command} {r s : List Lexeme}, EndsBlock r → EndsBlock s →
    commands cs ++ r = commands ds ++ s → cs = ds ∧ r = s := by
  intro cs ds r s hr hs h
  cases cs with
  | nil =>
    cases ds with
    | nil => exact ⟨rfl, h⟩
    | cons d ds => cases d <;> exact absurd h (hr _ _)
  | cons c cs =>
    cases ds with
    | nil => cases c <;> exact absurd h.symm (hs _ _)
    | cons d ds =>
      simp only [commands, List.append_assoc] at h
      obtain ⟨rfl, h₁⟩ := Command.yield_inj (endsBranch_commands hr) (endsBranch_commands hs) h
      obtain ⟨rfl, h₂⟩ := commands_inj hr hs h₁
      exact ⟨rfl, h₂⟩

end

theorem commands_injective : Function.Injective commands := by
  intro cs ds h
  have h' : commands cs ++ [] = commands ds ++ [] := by rw [h]
  exact (commands_inj endsBlock_nil endsBlock_nil h').1

theorem Test.length_yield_pos (d : Test) : 0 < d.yield.length := by
  cases d <;> simp [Test.yield]

theorem Command.length_yield_pos (d : Command) : 0 < d.yield.length := by
  cases d <;> simp [Command.yield]

theorem writable_moreStrings (ss : List String) : ∀ l ∈ moreStrings ss, l.Writable := by
  simp only [moreStrings, List.forall_mem_flatMap, List.forall_mem_cons]
  intro s _
  simp [Lexeme.Writable]

theorem writable_strings (a : Strings) : ∀ l ∈ a.yield, l.Writable := by
  cases a with
  | bare s => simp [Strings.yield, Lexeme.Writable]
  | listed s ss =>
    simp only [Strings.yield, List.forall_mem_cons, List.forall_mem_append]
    exact ⟨by simp [Lexeme.Writable], trivial, writable_moreStrings ss, by simp [Lexeme.Writable]⟩

theorem writable_comparator (c : Option String) : ∀ l ∈ comparator c, l.Writable := by
  cases c <;> simp [comparator, Lexeme.Writable]

theorem writable_matchTag (m : Option MatchType) : ∀ l ∈ tag (m.map MatchType.tag), l.Writable := by
  cases m with
  | none => simp [tag]
  | some m => cases m <;> simp [tag, MatchType.tag, Lexeme.Writable]

theorem writable_partTag (p : Option AddressPart) :
    ∀ l ∈ tag (p.map AddressPart.tag), l.Writable := by
  cases p with
  | none => simp [tag]
  | some p => cases p <;> simp [tag, AddressPart.tag, Lexeme.Writable]

mutual

theorem Test.writable : ∀ d : Test, ∀ l ∈ d.yield, l.Writable
  | .header c m hs ks => by
    simp only [Test.yield, List.forall_mem_cons, List.forall_mem_append]
    exact ⟨by simp [Lexeme.Writable], writable_comparator c, writable_matchTag m,
      writable_strings hs, writable_strings ks⟩
  | .address c p m hs ks => by
    simp only [Test.yield, List.forall_mem_cons, List.forall_mem_append]
    exact ⟨by simp [Lexeme.Writable], writable_comparator c, writable_partTag p,
      writable_matchTag m, writable_strings hs, writable_strings ks⟩
  | .allof t ts | .anyof t ts => by
    simp only [Test.yield, List.forall_mem_cons, List.forall_mem_append]
    exact ⟨by simp [Lexeme.Writable], by simp [Lexeme.Writable], t.writable, writable_moreTests ts,
      by simp [Lexeme.Writable]⟩

theorem writable_moreTests : ∀ ds : List Test, ∀ l ∈ moreTests ds, l.Writable
  | [] => by simp [moreTests]
  | d :: ds => by
    simp only [moreTests, List.forall_mem_cons, List.forall_mem_append]
    exact ⟨by simp [Lexeme.Writable], d.writable, writable_moreTests ds⟩

end

mutual

theorem Command.writable : ∀ d : Command, ∀ l ∈ d.yield, l.Writable
  | .require ss | .addflag ss => by
    simp only [Command.yield, List.forall_mem_cons, List.forall_mem_append]
    exact ⟨by simp [Lexeme.Writable], writable_strings ss, by simp [Lexeme.Writable]⟩
  | .keep | .discard | .fileinto _ | .addflagTo _ _ => by simp [Command.yield, Lexeme.Writable]
  | .branch b => by
    simp only [Command.yield, List.forall_mem_cons]
    exact ⟨by simp [Lexeme.Writable], b.writable⟩

theorem Branch.writable : ∀ d : Branch, ∀ l ∈ d.yield, l.Writable
  | .mk t b next => by
    simp only [Branch.yield, List.forall_mem_cons, List.forall_mem_append]
    exact ⟨t.writable, by simp [Lexeme.Writable], writable_commands b, by simp [Lexeme.Writable],
      next.writable⟩

theorem Chain.writable : ∀ d : Chain, ∀ l ∈ d.yield, l.Writable
  | .done => by simp [Chain.yield]
  | .elsif b => by
    simp only [Chain.yield, List.forall_mem_cons]
    exact ⟨by simp [Lexeme.Writable], b.writable⟩
  | .otherwise b => by
    simp only [Chain.yield, List.forall_mem_cons, List.forall_mem_append]
    exact ⟨by simp [Lexeme.Writable], by simp [Lexeme.Writable], writable_commands b,
      by simp [Lexeme.Writable]⟩

theorem writable_commands : ∀ ds : List Command, ∀ l ∈ commands ds, l.Writable
  | [] => by simp [commands]
  | d :: ds => by
    simp only [commands, List.forall_mem_append]
    exact ⟨d.writable, writable_commands ds⟩

end

end Phrase

/-- The lexemes are those of a script for the program. -/
def Derives (ls : List Lexeme) (p : Program) : Prop :=
  ∃ d, Phrase.commands d = ls ∧ Phrase.commandTrees d = p

end MailSieve.Script
