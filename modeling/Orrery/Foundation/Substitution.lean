import Mathlib.Data.List.Basic

/-! Substitution for the matches of a pattern, from left to right, as in `re.sub`: a match is
taken as far as the pattern takes it, and the search goes on behind it. -/
namespace Orrery.Foundation

structure Matcher (α : Type) where
  taken : Option α → List α → Option ℕ
  inside : ∀ {prev text n}, taken prev text = some n → 0 < n ∧ n ≤ text.length

namespace Matcher
variable {α : Type} (m : Matcher α)

def occurs : Option α → List α → Bool
  | _, [] => false
  | prev, c :: text => (m.taken prev (c :: text)).isSome || occurs (some c) text

def subFrom (filler : List α) : ℕ → Option α → List α → List α
  | _, _, [] => []
  | skip+1, _, c :: text => subFrom filler skip (some c) text
  | 0, prev, c :: text =>
    match m.taken prev (c :: text) with
    | some n => filler ++ subFrom filler (n-1) (some c) text
    | none => c :: subFrom filler 0 (some c) text

def sub (filler text : List α) : List α := m.subFrom filler 0 none text

variable {m} {filler text piece rest : List α} {prev : Option α} {c : α}

@[simp] theorem subFrom_nil (skip : ℕ) : m.subFrom filler skip prev [] = [] := by
  cases skip <;> rfl

theorem subFrom_keep (free : m.taken prev (c :: text) = none) :
    m.subFrom filler 0 prev (c :: text) = c :: m.subFrom filler 0 (some c) text := by
  simp [subFrom,free]

theorem subFrom_passed (piece : List α) :
    m.subFrom filler piece.length prev (piece ++ rest) = m.subFrom filler 0 (piece.getLast?.or prev) rest := by
  induction piece generalizing prev with
  | nil => rfl
  | cons c piece ih =>
    rw [List.length_cons,List.cons_append,subFrom,ih,List.getLast?_cons]
    cases piece.getLast? <;> rfl

theorem subFrom_match (taken : m.taken prev (piece ++ rest) = some piece.length) :
    m.subFrom filler 0 prev (piece ++ rest) = filler ++ m.subFrom filler 0 piece.getLast? rest := by
  cases piece with
  | nil => exact absurd (m.inside taken).1 (Nat.lt_irrefl 0)
  | cons c piece =>
    rw [List.cons_append] at taken ⊢
    rw [subFrom,taken]
    dsimp only
    rw [List.length_cons,Nat.add_sub_cancel,subFrom_passed,List.getLast?_cons]
    cases piece.getLast? <;> rfl

theorem taken_split {n : ℕ} (taken : m.taken prev text = some n) :
    ∃ piece rest, text = piece ++ rest ∧ m.taken prev (piece ++ rest) = some piece.length := by
  have size := (m.inside taken).2
  refine ⟨text.take n,text.drop n,(List.take_append_drop n text).symm,?_⟩
  rw [List.take_append_drop,List.length_take_of_le size,taken]

@[elab_as_elim] theorem scan_induction {P : Option α → List α → Prop} (nil : ∀ prev, P prev [])
    (keep : ∀ prev c text, m.taken prev (c :: text) = none → P (some c) text → P prev (c :: text))
    (matched : ∀ prev piece rest, m.taken prev (piece ++ rest) = some piece.length → P piece.getLast? rest →
      P prev (piece ++ rest)) (prev : Option α) (text : List α) : P prev text := by
  induction size : text.length using Nat.strongRecOn generalizing prev text with
  | _ n ih =>
    subst size
    cases text with
    | nil => exact nil prev
    | cons c text =>
      cases found : m.taken prev (c :: text) with
      | none => exact keep prev c text found (ih _ (Nat.lt_succ_self _) _ _ rfl)
      | some n =>
        obtain ⟨piece,rest,whole,taken⟩ := taken_split found
        have positive := (m.inside taken).1
        rw [whole] at ih ⊢
        refine matched prev piece rest taken (ih _ ?_ _ _ rfl)
        rw [List.length_append]
        omega

theorem occurs_cons : m.occurs prev (c :: text) = ((m.taken prev (c :: text)).isSome || m.occurs (some c) text) := rfl

theorem subFrom_free (free : m.occurs prev text = false) : m.subFrom filler 0 prev text = text := by
  induction text generalizing prev with
  | nil => rfl
  | cons c text ih =>
    rw [occurs_cons,Bool.or_eq_false_iff,Option.isSome_eq_false_iff,Option.isNone_iff_eq_none] at free
    rw [subFrom_keep free.1,ih free.2]

theorem subFrom_sublist (prev : Option α) (text : List α) : (m.subFrom [] 0 prev text).Sublist text := by
  induction prev, text using m.scan_induction with
  | nil prev => rw [subFrom_nil]
  | keep prev c text free ih =>
    rw [subFrom_keep free]
    exact ih.cons_cons c
  | matched prev piece rest taken ih =>
    rw [subFrom_match taken]
    exact ih.trans (List.sublist_append_right piece rest)

end Matcher
end Orrery.Foundation
