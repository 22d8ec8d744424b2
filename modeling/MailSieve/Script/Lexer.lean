import MailSieve.Script.Token
import MailSieve.Text.Split

/-!
Splitting a script into tokens. Blanks and byte order marks separate tokens and are dropped; a word is
a maximal run of ASCII letters; a string runs to its first quotation mark that no backslash escapes.
-/

namespace MailSieve.Script

def isGap (c : Char) : Bool := Text.isBlank c || c = '\ufeff'

/-- Reads a string after its opening quotation mark: its contents and what follows its closing mark.
A backslash gives way to a backslash or quotation mark after it, and vanishes before anything else. -/
def readString : List Char → Option (List Char × List Char)
  | [] => none
  | '"' :: r => some ([], r)
  | '\\' :: '\\' :: r => (readString r).map fun (s, r) => ('\\' :: s, r)
  | '\\' :: '"' :: r => (readString r).map fun (s, r) => ('"' :: s, r)
  | '\\' :: r => readString r
  | c :: r => (readString r).map fun (s, r) => (c :: s, r)

theorem readString_length_lt {cs s r : List Char} (h : readString cs = some (s, r)) :
    r.length < cs.length := by
  fun_induction readString cs generalizing s r with
  | case1 => simp at h
  | case2 => simp_all
  | case3 r ih | case4 r ih =>
    obtain ⟨⟨s, r⟩, h, e⟩ := Option.map_eq_some_iff.1 h
    have := ih h
    simp_all
    omega
  | case5 r _ _ ih =>
    have := ih h
    simp_all
    omega
  | case6 c r _ _ _ _ ih =>
    obtain ⟨⟨s, r⟩, h, e⟩ := Option.map_eq_some_iff.1 h
    have := ih h
    simp_all
    omega

/-- The tokens of a source whose first character stands at `position`. -/
def tokensFrom (position : Nat) : List Char → Except SyntaxError (List Token)
  | [] => .ok [.endOfInput position]
  | c :: r =>
    if isGap c then tokensFrom (position + 1) r
    else if c.isAlpha then do
      let word := c :: r.takeWhile Char.isAlpha
      let stop := position + word.length
      return ⟨.identifier, .ofList word, position, stop⟩ ::
        (← tokensFrom stop (r.dropWhile Char.isAlpha))
    else if c = '"' then
      match h : readString r with
      | none => .error (.unterminatedString position (position + 1 + r.length))
      | some (s, rest) => do
        let stop := position + 1 + (r.length - rest.length)
        return ⟨.string, .ofList s, position, stop⟩ :: (← tokensFrom stop rest)
    else
      match Kind.ofPunctuation? c with
      | some k => do
        return ⟨k, c.toString, position, position + 1⟩ :: (← tokensFrom (position + 1) r)
      | none => .error (.unexpectedChar c position)
termination_by cs => cs.length
decreasing_by
  · exact Nat.lt_succ_self _
  · exact Nat.lt_succ_of_le (Text.length_dropWhile_le ..)
  · exact Nat.lt_succ_of_lt (readString_length_lt h)
  · exact Nat.lt_succ_self _

/-- Splits a script into tokens, the last of them the end of the input. -/
def tokenize (source : String) : Except SyntaxError (List Token) :=
  tokensFrom 0 source.toList

end MailSieve.Script
