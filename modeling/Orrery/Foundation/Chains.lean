import Mathlib.Data.List.Forall2
import Mathlib.Data.List.Nodup

/-! Lists in which each element refers to the one before it, and how such references
settle the order: elements known from a chain of distinct names, linked by these names
from the start, are the first elements of that chain. -/
namespace Orrery.Foundation.Chains

variable {α β ν : Type}

def Linked (related : Option α → α → Prop) : Option α → List α → Prop
  | _, [] => True
  | previous, x :: rest => related previous x ∧ Linked related (some x) rest

theorem linked_append {related : Option α → α → Prop} {xs : List α} {x : α} : ∀ {previous : Option α},
    Linked related previous xs → related (xs.getLast?.or previous) x → Linked related previous (xs ++ [x]) := by
  induction xs with
  | nil =>
    intro previous _ last
    exact ⟨last,trivial⟩
  | cons y ys ih =>
    intro previous linked last
    refine ⟨linked.1,ih linked.2 ?_⟩
    rw [List.getLast?_cons] at last
    cases ys with
    | nil => exact last
    | cons z zs => simpa [List.getLast?_cons] using last

theorem linked_last {related : Option α → α → Prop} {xs : List α} {x : α} : ∀ {previous : Option α},
    Linked related previous (xs ++ [x]) → related (xs.getLast?.or previous) x := by
  induction xs with
  | nil => exact fun linked => linked.1
  | cons y ys ih =>
    intro previous linked
    have last := ih linked.2
    rw [List.getLast?_cons]
    cases ys with
    | nil => exact last
    | cons z zs => simpa [List.getLast?_cons] using last

theorem linked_take {related : Option α → α → Prop} {xs : List α} : ∀ (n : Nat) {previous : Option α},
    Linked related previous xs → Linked related previous (xs.take n) := by
  induction xs with
  | nil =>
    intro n previous _
    rw [List.take_nil]
    trivial
  | cons x xs ih =>
    intro n previous linked
    cases n with
    | zero => trivial
    | succ n => exact ⟨linked.1,ih n linked.2⟩

theorem linked_mono {related weaker : Option α → α → Prop} (sub : ∀ previous x, related previous x → weaker previous x)
    {xs : List α} : ∀ {previous : Option α}, Linked related previous xs → Linked weaker previous xs := by
  induction xs with
  | nil => exact fun _ => trivial
  | cons x xs ih => exact fun linked => ⟨sub _ x linked.1,ih linked.2⟩

theorem linked_zero {related : Option α → α → Prop} {xs : List α} {previous : Option α}
    (linked : Linked related previous xs) {x : α} (first : xs[0]? = some x) : related previous x := by
  cases xs with
  | nil => cases first
  | cons y ys =>
    cases first
    exact linked.1

theorem linked_succ {related : Option α → α → Prop} {xs : List α} : ∀ {previous : Option α},
    Linked related previous xs → ∀ {i : Nat} {x y : α}, xs[i]? = some x → xs[i+1]? = some y → related (some x) y := by
  induction xs with
  | nil =>
    intro _ _ _ _ _ here
    cases here
  | cons z zs ih =>
    intro previous linked i x y here next
    cases i with
    | zero =>
      cases here
      exact linked_zero linked.2 next
    | succ i => exact ih linked.2 here next

theorem exists_before {xs : List α} {i : Nat} {x : α} (here : xs[i+1]? = some x) : ∃ y, xs[i]? = some y := by
  have bound := (List.getElem?_eq_some_iff.mp here).1
  exact ⟨xs[i],List.getElem?_eq_getElem (by omega)⟩

theorem linked_mem {related : Option α → α → Prop} {P : α → Prop} (each : ∀ previous x, related previous x → P x)
    {xs : List α} : ∀ {previous : Option α}, Linked related previous xs → ∀ x ∈ xs, P x := by
  induction xs with
  | nil => exact fun _ _ member => nomatch member
  | cons y ys ih =>
    intro previous linked x member
    rcases List.mem_cons.mp member with rfl | further
    · exact each previous x linked.1
    · exact ih linked.2 x further

section Named
variable {nameOf : α → ν} {backOf : α → ν} {root : ν}

def RefersBack (nameOf backOf : α → ν) (root : ν) (previous : Option α) (x : α) : Prop :=
  backOf x = (previous.map nameOf).getD root

variable {xs : List α} (linked : Linked (RefersBack nameOf backOf root) none xs)
  (distinct : (xs.map nameOf).Nodup) (named : ∀ x ∈ xs, nameOf x ≠ root)
include linked named

theorem index_of_root {i : Nat} {x : α} (here : xs[i]? = some x) (back : backOf x = root) : i = 0 := by
  cases i with
  | zero => rfl
  | succ i =>
    obtain ⟨y,before⟩ := exists_before here
    have refers : backOf x = nameOf y := linked_succ linked before here
    exact absurd (refers.symm.trans back) (named y (List.mem_of_getElem? before))

include distinct

theorem index_of_back {i j : Nat} {x y : α} (here : xs[i]? = some x) (there : xs[j]? = some y)
    (back : backOf x = nameOf y) : i = j+1 := by
  cases i with
  | zero =>
    have refers : backOf x = root := linked_zero linked here
    exact absurd (back.symm.trans refers) (named y (List.mem_of_getElem? there))
  | succ i =>
    obtain ⟨z,before⟩ := exists_before here
    have refers : backOf x = nameOf z := linked_succ linked before here
    have same : (xs.map nameOf)[i]? = (xs.map nameOf)[j]? := by
      rw [List.getElem?_map,List.getElem?_map,before,there,Option.map_some,Option.map_some,← refers,back]
    have bound : i < (xs.map nameOf).length := by
      rw [List.length_map]
      exact (List.getElem?_eq_some_iff.mp before).1
    rw [(List.getElem?_inj bound distinct).mp same]

theorem known_at {known : β → α → Prop} {nameOf' backOf' : β → ν} {ys : List β}
    (linked' : Linked (RefersBack nameOf' backOf' root) none ys)
    (all : ∀ y ∈ ys, ∃ x ∈ xs, known y x)
    (agree : ∀ y x, known y x → nameOf' y = nameOf x ∧ backOf' y = backOf x) :
    ∀ (i : Nat) y, ys[i]? = some y → ∃ x, xs[i]? = some x ∧ known y x := by
  intro i
  induction i with
  | zero =>
    intro y here
    obtain ⟨x,inside,same⟩ := all y (List.mem_of_getElem? here)
    obtain ⟨j,there⟩ := List.mem_iff_getElem?.mp inside
    have back : backOf' y = root := linked_zero linked' here
    have first := index_of_root linked named there ((agree y x same).2.symm.trans back)
    exact ⟨x,first ▸ there,same⟩
  | succ i ih =>
    intro y here
    obtain ⟨z,before⟩ := exists_before here
    obtain ⟨w,standing,alike⟩ := ih z before
    obtain ⟨x,inside,same⟩ := all y (List.mem_of_getElem? here)
    obtain ⟨j,there⟩ := List.mem_iff_getElem?.mp inside
    have back : backOf' y = nameOf' z := linked_succ linked' before here
    have next := index_of_back linked distinct named there standing
      ((agree y x same).2.symm.trans (back.trans (agree z w alike).1))
    exact ⟨x,next ▸ there,same⟩

theorem known_all {known : β → α → Prop} {nameOf' backOf' : β → ν} {ys : List β}
    (linked' : Linked (RefersBack nameOf' backOf' root) none ys)
    (all : ∀ y ∈ ys, ∃ x ∈ xs, known y x)
    (agree : ∀ y x, known y x → nameOf' y = nameOf x ∧ backOf' y = backOf x)
    (long : xs.length ≤ ys.length) : List.Forall₂ known ys xs := by
  have placed := known_at linked distinct named linked' all agree
  have short : ys.length ≤ xs.length := by
    by_contra longer
    have bound : xs.length < ys.length := by omega
    obtain ⟨x,there,_⟩ := placed xs.length _ (List.getElem?_eq_getElem bound)
    rw [List.getElem?_eq_none (Nat.le_refl _)] at there
    cases there
  apply List.forall₂_iff_get.mpr
  refine ⟨by omega,fun i first second => ?_⟩
  obtain ⟨x,there,same⟩ := placed i _ (List.getElem?_eq_getElem first)
  rw [List.getElem?_eq_getElem second] at there
  cases there
  exact same

end Named

end Orrery.Foundation.Chains
