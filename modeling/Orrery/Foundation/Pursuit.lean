import Mathlib.Data.List.Nodup
import Mathlib.Data.Nat.Find

/-! Following a successor from element to element until there is none, or one that was
passed before. On a history, where an element's successor is what came after its first
occurrence, the last element is reached from everywhere exactly if nothing occurs twice. -/
namespace Orrery.Foundation.Pursuit

variable {α : Type}

inductive Pursues (next : α → Option α) : List α → α → α → Prop
  | ends {seen : List α} {x : α} (done : ∀ y, next x = some y → y ∈ seen) : Pursues next seen x x
  | goes {seen : List α} {x y z : α} (onward : next x = some y) (fresh : y ∉ seen)
      (rest : Pursues next (y :: seen) y z) : Pursues next seen x z

theorem Pursues.unique {next : α → Option α} {seen : List α} {x z z' : α} (first : Pursues next seen x z)
    (second : Pursues next seen x z') : z = z' := by
  induction first with
  | ends done =>
    cases second with
    | ends => rfl
    | goes onward fresh rest => exact absurd (done _ onward) fresh
  | goes onward fresh rest ih =>
    cases second with
    | ends done => exact absurd (done _ onward) fresh
    | goes onward' fresh' rest' =>
      obtain rfl := Option.some.inj (onward.symm.trans onward')
      exact ih rest'

theorem Pursues.apart {next : α → Option α} {seen : List α} {x z : α} (pursues : Pursues next seen x z)
    (differ : x ≠ z) :
    (∃ y, next x = some y) ∧ ∃ y, next y = some z := by
  induction pursues with
  | ends => exact absurd rfl differ
  | @goes seen x y z onward fresh rest ih =>
    refine ⟨⟨y,onward⟩,?_⟩
    by_cases last : y = z
    · exact ⟨x,last ▸ onward⟩
    · exact (ih last).2

def Covers (xs : List α) (s i : Nat) (seen : List α) : Prop := ∀ x, x ∈ seen ↔ ∃ k, s ≤ k ∧ k ≤ i ∧ xs[k]? = some x

theorem covers_self {xs : List α} {s : Nat} {x : α} (here : xs[s]? = some x) : Covers xs s s [x] := by
  intro y
  rw [List.mem_singleton]
  constructor
  · rintro rfl
    exact ⟨s,Nat.le_refl s,Nat.le_refl s,here⟩
  · rintro ⟨k,above,below,there⟩
    rw [Nat.le_antisymm below above,here] at there
    exact (Option.some.inj there).symm

theorem Covers.next {xs : List α} {s i : Nat} {seen : List α} {y : α} (covers : Covers xs s i seen) (start : s ≤ i)
    (after : xs[i+1]? = some y) : Covers xs s (i+1) (y :: seen) := by
  intro x
  rw [List.mem_cons,covers x]
  constructor
  · rintro (rfl | ⟨k,above,below,there⟩)
    · exact ⟨i+1,by omega,Nat.le_refl _,after⟩
    · exact ⟨k,above,by omega,there⟩
  · rintro ⟨k,above,below,there⟩
    by_cases last : k = i+1
    · rw [last,after] at there
      exact Or.inl (Option.some.inj there).symm
    · exact Or.inr ⟨k,above,by omega,there⟩

theorem index_unique {xs : List α} {m i j : Nat} {x : α} (distinct : (xs.take m).Nodup) (first : xs[i]? = some x)
    (second : xs[j]? = some x) (below : i < m) (below' : j < m) : i = j := by
  have bound : i < (xs.take m).length := by
    have inside := (List.getElem?_eq_some_iff.mp first).1
    simp only [List.length_take]
    omega
  apply (List.getElem?_inj bound distinct).mp
  rw [List.getElem?_take,List.getElem?_take,if_pos below,if_pos below',first,second]

section History
variable [DecidableEq α]

def firstAfter : List α → α → Option α
  | a :: b :: rest, x => if a = x then some b else firstAfter (b :: rest) x
  | _, _ => none

theorem firstAfter_at {xs : List α} : ∀ {i : Nat} {x y : α}, (xs.take (i+1)).Nodup → xs[i]? = some x →
    xs[i+1]? = some y → firstAfter xs x = some y := by
  induction xs with
  | nil =>
    intro i x y _ here _
    cases here
  | cons a xs ih =>
    intro i x y distinct here after
    cases xs with
    | nil => simp at after
    | cons b rest =>
      cases i with
      | zero =>
        cases here
        cases after
        exact if_pos rfl
      | succ i =>
        rw [List.take_succ_cons,List.nodup_cons] at distinct
        have elsewhere : a ≠ x := by
          rintro rfl
          exact distinct.1 (List.mem_of_getElem? (by rw [List.getElem?_take,if_pos (Nat.lt_succ_self i)]; exact here))
        rw [firstAfter,if_neg elsewhere]
        exact ih distinct.2 here after

theorem firstAfter_mem {xs : List α} {x y : α} (after : firstAfter xs x = some y) : x ∈ xs.dropLast := by
  induction xs with
  | nil => cases after
  | cons a xs ih =>
    cases xs with
    | nil => cases after
    | cons b rest =>
      rw [List.dropLast_cons_cons]
      rw [firstAfter] at after
      split at after
      next same => exact same ▸ List.mem_cons_self ..
      next => exact List.mem_cons_of_mem _ (ih after)

theorem pursues_along {xs : List α} {m s : Nat} (distinct : (xs.take m).Nodup) (d : Nat) : ∀ {i : Nat} {x : α}
    {seen : List α}, s ≤ i → i+d < m → xs[i]? = some x → Covers xs s i seen → ∀ {y : α}, xs[i+d]? = some y →
    ∃ seen', Covers xs s (i+d) seen' ∧ ∀ z, Pursues (firstAfter xs) seen' y z → Pursues (firstAfter xs) seen x z := by
  induction d with
  | zero =>
    intro i x seen _ _ here covers y there
    cases here.symm.trans there
    exact ⟨seen,covers,fun z rest => rest⟩
  | succ d ih =>
    intro i x seen start within here covers y there
    have inside := (List.getElem?_eq_some_iff.mp there).1
    have after : xs[i+1]? = some xs[i+1] := List.getElem?_eq_getElem (by omega)
    obtain ⟨seen',covers',rest⟩ := ih (by omega) (by omega) after (covers.next start after)
      (y := y) (by rw [← there]; congr 1; omega)
    refine ⟨seen',by rw [show i+(d+1) = i+1+d by omega]; exact covers',fun z further => ?_⟩
    have onward := firstAfter_at (distinct.sublist (List.take_sublist_take_left (by omega))) here after
    refine .goes onward ?_ (rest z further)
    intro passed
    obtain ⟨k,_,below,found⟩ := (covers _).mp passed
    have same := index_unique distinct found after (by omega) (by omega)
    omega

theorem exists_first_repeat {xs : List α} (repeats : ¬ xs.Nodup) :
    ∃ m q x, q < m ∧ (xs.take m).Nodup ∧ xs[m]? = some x ∧ xs[q]? = some x := by
  have some_prefix : ∃ m, ¬ (xs.take m).Nodup := ⟨xs.length,by rwa [List.take_length]⟩
  obtain ⟨m,least⟩ : ∃ m, Nat.find some_prefix = m+1 := by
    refine ⟨Nat.find some_prefix-1,?_⟩
    have positive : Nat.find some_prefix ≠ 0 := by
      intro zero
      have spec := Nat.find_spec some_prefix
      rw [zero] at spec
      simp at spec
    omega
  have distinct : (xs.take m).Nodup := by
    have before := Nat.find_min some_prefix (m := m) (by omega)
    exact not_not.mp before
  have again : ¬ (xs.take (m+1)).Nodup := least ▸ Nat.find_spec some_prefix
  have inside : m < xs.length := by
    by_contra outside
    rw [List.take_of_length_le (by omega)] at again distinct
    exact again distinct
  rw [List.take_succ_eq_append_getElem inside,List.nodup_append] at again
  have member : xs[m] ∈ xs.take m := by
    by_contra absent
    exact again ⟨distinct,List.nodup_singleton _,by
      intro a before b same
      rw [List.mem_singleton.mp same]
      rintro rfl
      exact absent before⟩
  obtain ⟨q,found⟩ := List.mem_iff_getElem?.mp member
  rw [List.getElem?_take] at found
  split at found
  next below => exact ⟨m,q,xs[m],below,distinct,List.getElem?_eq_getElem inside,found⟩
  next => cases found

theorem pursues_last_iff {xs : List α} {z : α} (last : xs.getLast? = some z)
    (moves : ∀ (i : Nat) x y, xs[i]? = some x → xs[i+1]? = some y → x ≠ y) :
    (∀ x ∈ xs, Pursues (firstAfter xs) [x] x z) ↔ xs.Nodup := by
  have final : xs[xs.length-1]? = some z := by rw [← List.getLast?_eq_getElem?]; exact last
  constructor
  · intro all
    by_contra repeats
    obtain ⟨m,q,x,before,distinct,again,first⟩ := exists_first_repeat repeats
    have inside := (List.getElem?_eq_some_iff.mp again).1
    have previous : xs[m-1]? = some xs[m-1] := List.getElem?_eq_getElem (by omega)
    have apart : q ≠ m-1 := by
      rintro rfl
      exact moves (m-1) x x first (by rw [Nat.sub_add_cancel (by omega)]; exact again) rfl
    have after : xs[q+1]? = some xs[q+1] := List.getElem?_eq_getElem (by omega)
    have onward : firstAfter xs xs[m-1] = some x := by
      apply firstAfter_at _ previous
      · rw [Nat.sub_add_cancel (by omega)]
        exact again
      · rw [Nat.sub_add_cancel (by omega)]
        exact distinct
    -- from the element that comes back, the pursuit stops just before it would return
    have fromFirst : Pursues (firstAfter xs) [x] x xs[m-1] := by
      obtain ⟨seen,covers,rest⟩ := pursues_along distinct (m-1-q) (Nat.le_refl q) (by omega) first (covers_self first)
        (y := xs[m-1]) (by rw [show q+(m-1-q) = m-1 by omega]; exact previous)
      refine rest _ (.ends ?_)
      intro y next
      cases onward.symm.trans next
      exact (covers _).mpr ⟨q,Nat.le_refl q,by omega,first⟩
    -- from the one after it, it returns and stops there
    have fromSecond : Pursues (firstAfter xs) [xs[q+1]] xs[q+1] x := by
      obtain ⟨seen,covers,rest⟩ := pursues_along distinct (m-1-(q+1)) (Nat.le_refl (q+1)) (by omega) after
        (covers_self after) (y := xs[m-1]) (by rw [show q+1+(m-1-(q+1)) = m-1 by omega]; exact previous)
      refine rest _ (.goes onward ?_ (.ends ?_))
      · intro passed
        obtain ⟨k,above,below,found⟩ := (covers _).mp passed
        have same := index_unique distinct first found before (by omega)
        omega
      · intro y next
        rw [firstAfter_at (distinct.sublist (List.take_sublist_take_left (by omega))) first after] at next
        cases next
        exact List.mem_cons_of_mem _ ((covers _).mpr ⟨q+1,Nat.le_refl _,by omega,after⟩)
    have one := fromFirst.unique (all x (List.mem_of_getElem? first))
    have other := fromSecond.unique (all xs[q+1] (List.getElem_mem _))
    rw [one,← other] at previous
    exact apart (index_unique distinct first previous before (by omega))
  · intro distinct x member
    obtain ⟨i,here⟩ := List.mem_iff_getElem?.mp member
    have inside := (List.getElem?_eq_some_iff.mp here).1
    obtain ⟨seen,covers,rest⟩ := pursues_along (m :=
      xs.length) (by rwa [List.take_length]) (xs.length-1-i) (Nat.le_refl i)
      (by omega) here (covers_self here) (y := z) (by rw [show i+(xs.length-1-i) = xs.length-1 by omega]; exact final)
    refine rest z (.ends ?_)
    intro y next
    have front : z ∈ xs.dropLast := firstAfter_mem next
    have parts := List.dropLast_append_getLast? z last
    rw [← parts,List.nodup_append] at distinct
    exact absurd rfl (distinct.2.2 z front z (List.mem_singleton_self z))

end History
end Orrery.Foundation.Pursuit
