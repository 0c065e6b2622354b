import Mathlib.Data.List.Basic
import Mathlib.Tactic.Common

/-! Shell patterns as Python's `fnmatch` reads them: `*` for any characters, `?` for one,
`[…]` for one of a set or, after an exclamation mark, for one outside of it. A bracket
that nothing closes stands for itself. -/
namespace Orrery.Foundation.Fnmatch

inductive Token
  | char (c : Char)
  | any
  | star
  | set (negated : Bool) (ranges : List (Char × Char))

def ranges : List Char → List (Char × Char)
  | first :: '-' :: last :: rest => (first,last) :: ranges rest
  | c :: rest => (c,c) :: ranges rest
  | [] => []

def bracket (text : List Char) : Option (Token × List Char) :=
  let negated := text.head? == some '!'
  let body := if negated then text.drop 1 else text
  let leading := if body.head? == some ']' then [']'] else []
  let rest := body.drop leading.length
  if ']' ∈ rest then
    some (.set negated (ranges (leading ++ rest.takeWhile (· ≠ ']'))),(rest.dropWhile (· ≠ ']')).drop 1)
  else none

/-- Every token takes at least one character, so the length is fuel enough. -/
def tokensFrom : ℕ → List Char → List Token
  | 0, _ => []
  | _, [] => []
  | fuel+1, '*' :: rest => .star :: tokensFrom fuel rest
  | fuel+1, '?' :: rest => .any :: tokensFrom fuel rest
  | fuel+1, '[' :: rest =>
    match bracket rest with
    | some (token,rest) => token :: tokensFrom fuel rest
    | none => .char '[' :: tokensFrom fuel rest
  | fuel+1, c :: rest => .char c :: tokensFrom fuel rest

def tokens (pattern : String) : List Token := tokensFrom pattern.length pattern.toList

def Token.takes : Token → Char → Bool
  | .char c, d => c == d
  | .set negated ranges, d => negated != ranges.any fun range => decide (range.1 ≤ d ∧ d ≤ range.2)
  | _, _ => true

def accepts : List Token → List Char → Bool
  | [], text => text.isEmpty
  | .star :: rest, text => text.tails.any (accepts rest)
  | token :: rest, text =>
    match text with
    | [] => false
    | c :: text => token.takes c && accepts rest text

def fnmatchcase (name pattern : String) : Bool := accepts (tokens pattern) name.toList

def Plain (text : String) : Prop := ∀ c ∈ text.toList, c ≠ '*' ∧ c ≠ '?' ∧ c ≠ '['

theorem tokensFrom_plain (text : List Char) : ∀ fuel, text.length ≤ fuel →
    (∀ c ∈ text, c ≠ '*' ∧ c ≠ '?' ∧ c ≠ '[') → tokensFrom fuel text = text.map .char := by
  induction text with
  | nil =>
    intro fuel _ _
    cases fuel <;> rfl
  | cons c text ih =>
    intro fuel enough plain
    obtain ⟨fuel,rfl⟩ : ∃ more, fuel = more+1 := ⟨fuel-1,by simp only [List.length_cons] at enough; omega⟩
    obtain ⟨star,mark,opening⟩ := plain c (by simp)
    rw [tokensFrom]
    · rw [List.map_cons,ih fuel (by simpa using enough) fun d inside => plain d (by simp [inside])]
    · exact star
    · exact mark
    · exact opening

theorem accepts_chars (pattern : List Char) : ∀ text, accepts (pattern.map .char) text = true ↔ text = pattern := by
  induction pattern with
  | nil =>
    intro text
    rw [List.map_nil,accepts,List.isEmpty_iff]
  | cons c pattern ih =>
    intro text
    cases text with
    | nil => simp [accepts]
    | cons d text =>
      rw [List.map_cons,accepts]
      · rw [Bool.and_eq_true,ih,List.cons.injEq,Token.takes,beq_iff_eq,eq_comm (a := c)]
      · simp

theorem fnmatchcase_plain {pattern : String} (plain : Plain pattern) (name : String) :
    fnmatchcase name pattern = true ↔ name = pattern := by
  rw [fnmatchcase,tokens,tokensFrom_plain _ _ (Nat.le_of_eq String.length_toList) plain,accepts_chars,String.toList_inj]

end Orrery.Foundation.Fnmatch
