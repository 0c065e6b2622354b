import Mathlib.Data.List.Infix

/-! Texts with copies of patterns put in, and what finds the patterns again: patterns that
never overlap each other stay whole wherever others are put in. -/
namespace Orrery.Foundation

variable {α : Type} {m p q u v s : List α} {ms : List (List α)}

inductive Inserted (m : List α) : List α → List α → Prop
  | nil : Inserted m [] []
  | keep (c : α) {u s : List α} : Inserted m u s → Inserted m (c :: u) (c :: s)
  | insert {u s : List α} : Inserted m u s → Inserted m u (m ++ s)

/-- `s` is `v` with the patterns put in, those of the end of the list first: an earlier one
may stand within a later one, never the other way. -/
def Woven : List (List α) → List α → List α → Prop
  | [], v, s => v = s
  | m :: ms, v, s => ∃ u, Woven ms v u ∧ Inserted m u s

def OverlapFree (q m : List α) : Prop := ∀ y, y <:+ q → y ≠ [] → ¬y <+: m ∧ ¬m <+: y

instance [DecidableEq α] (q m : List α) : Decidable (OverlapFree q m) :=
  decidable_of_iff (∀ y ∈ q.tails, y ≠ [] → ¬y <+: m ∧ ¬m <+: y) (by simp [OverlapFree,List.mem_tails])

theorem OverlapFree.suffix (apart : OverlapFree q m) (part : p <:+ q) : OverlapFree p m := fun y inside => apart y (inside.trans part)

theorem Inserted.refl (m u : List α) : Inserted m u u := by
  induction u with
  | nil => exact .nil
  | cons c u ih => exact .keep c ih

theorem Inserted.sublist (inserted : Inserted m u s) : u.Sublist s := by
  induction inserted with
  | nil => exact List.Sublist.slnil
  | keep c inserted ih => exact ih.cons_cons c
  | insert inserted ih => exact ih.trans (List.sublist_append_right m _)

theorem Woven.sublist (woven : Woven ms v s) : v.Sublist s := by
  induction ms generalizing s with
  | nil =>
    obtain rfl : v = s := woven
    exact List.Sublist.refl v
  | cons m ms ih =>
    obtain ⟨u,woven,inserted⟩ := woven
    exact (ih woven).trans inserted.sublist

theorem Inserted.isPrefix (inserted : Inserted m u s) : ∀ {q : List α}, OverlapFree q m → q <+: s → q <+: u := by
  induction inserted with
  | nil => exact fun _ begins => begins
  | keep c inserted ih =>
    intro q apart begins
    cases q with
    | nil => exact List.nil_prefix
    | cons d q =>
      obtain ⟨rfl,rest⟩ := List.cons_prefix_cons.mp begins
      exact List.cons_prefix_cons.mpr ⟨rfl,ih (apart.suffix (List.suffix_cons _ q)) rest⟩
  | insert inserted ih =>
    intro q apart begins
    by_cases some_ : q = []
    · exact some_ ▸ List.nil_prefix
    · have ends := apart q List.suffix_rfl some_
      obtain short | long := List.prefix_or_prefix_of_prefix begins (List.prefix_append m _)
      · exact absurd short ends.1
      · exact absurd long ends.2

theorem OverlapFree.isInfix (apart : OverlapFree m p) (inside : p <:+: m ++ s) : p <:+: s := by
  induction m with
  | nil => exact inside
  | cons c m ih =>
    obtain begins | inside := List.infix_cons_iff.mp inside
    · have ends := apart (c :: m) List.suffix_rfl (List.cons_ne_nil c m)
      obtain short | long := List.prefix_or_prefix_of_prefix begins (List.prefix_append (c :: m) s)
      · exact absurd short ends.2
      · exact absurd long ends.1
    · exact ih (apart.suffix (List.suffix_cons c m)) inside

theorem Inserted.isInfix (inserted : Inserted m u s) (after : OverlapFree p m) (before : OverlapFree m p) (inside : p <:+: s) :
    p <:+: u := by
  induction inserted with
  | nil => exact inside
  | keep c inserted ih =>
    obtain begins | inside := List.infix_cons_iff.mp inside
    · exact ((Inserted.keep c inserted).isPrefix after begins).isInfix
    · exact (ih inside).trans (List.suffix_cons c _).isInfix
  | insert inserted ih => exact ih (before.isInfix inside)

structure Unlinked (ms : List (List α)) : Prop where
  filled : ∀ m ∈ ms, m ≠ []
  apart : ms.Pairwise fun p m => OverlapFree p m ∧ OverlapFree m p
  tails : ∀ m ∈ ms, OverlapFree m.tail m

theorem Unlinked.tail (unlinked : Unlinked (m :: ms)) : Unlinked ms where
  filled p inside := unlinked.filled p (.tail _ inside)
  apart := (List.pairwise_cons.mp unlinked.apart).2
  tails p inside := unlinked.tails p (.tail _ inside)

theorem Woven.isInfix (woven : Woven ms v s) (apart : ∀ m ∈ ms, OverlapFree p m ∧ OverlapFree m p) (inside : p <:+: s) :
    p <:+: v := by
  induction ms generalizing s with
  | nil =>
    obtain rfl : v = s := woven
    exact inside
  | cons m ms ih =>
    obtain ⟨u,woven,inserted⟩ := woven
    have here := apart m (.head _)
    exact ih woven (fun m inside => apart m (.tail _ inside)) (inserted.isInfix here.1 here.2 inside)

end Orrery.Foundation
