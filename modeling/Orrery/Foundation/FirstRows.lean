import Mathlib.Data.List.Basic

/-! The first rows of a sort in which rows of one rank come in any order: when they hold
one that is asked for, whatever the order is. -/
namespace Orrery.Foundation.FirstRows
variable {α : Type} (le : α → α → Bool) (asked : α → Bool)

def heldBack (a b : α) : Bool := le a b && (!le b a || !asked a || asked b)

section Orders
variable {le} (trans : ∀ a b c, le a b → le b c → le a c) (total : ∀ a b, le a b || le b a)
include trans

theorem heldBack_trans (a b c : α) (first : heldBack le asked a b) (second : heldBack le asked b c) :
    heldBack le asked a c := by
  simp only [heldBack,Bool.and_eq_true,Bool.or_eq_true,Bool.not_eq_true'] at first second ⊢
  refine ⟨trans a b c first.1 second.1,?_⟩
  by_cases back : le c a = true
  · have level : le b a = true := trans b c a second.1 back
    have level' : le c b = true := trans c a b back first.1
    rw [level] at first
    rw [level'] at second
    grind
  · exact .inl (.inl (by simpa using back))

omit trans in
include total in
theorem heldBack_total (a b : α) : heldBack le asked a b || heldBack le asked b a := by
  have either := total a b
  unfold heldBack
  grind

include total

theorem heldBack_shown {rows : List α} {limit : ℕ} {a : α}
    (inside : a ∈ (rows.mergeSort (heldBack le asked)).take limit) (wanted : asked a = true) :
    rows.countP (fun b => !asked b && le b a) < limit := by
  have sorted := List.pairwise_mergeSort (heldBack_trans asked trans) (heldBack_total asked total) rows
  obtain ⟨front,back,split⟩ := List.append_of_mem inside
  have whole : rows.mergeSort (heldBack le asked) =
      front ++ a :: (back ++ (rows.mergeSort (heldBack le asked)).drop limit) := by
    rw [← List.cons_append,← List.append_assoc,← split,List.take_append_drop]
  have short : front.length < limit := by
    have bound := List.length_take_le limit (rows.mergeSort (heldBack le asked))
    rw [split,List.length_append,List.length_cons] at bound
    omega
  rw [whole] at sorted
  have later := (List.pairwise_cons.mp (List.pairwise_append.mp sorted).2.1).1
  have none_later : (a :: (back ++ (rows.mergeSort (heldBack le asked)).drop limit)).countP
      (fun b => !asked b && le b a) = 0 := by
    rw [List.countP_eq_zero]
    intro b member
    obtain rfl | member := List.mem_cons.mp member
    · simp [wanted]
    · have behind := later b member
      simp only [heldBack,wanted,Bool.and_eq_true,Bool.or_eq_true,Bool.not_eq_true'] at behind
      grind
  rw [← (List.mergeSort_perm rows (heldBack le asked)).countP_eq,whole,List.countP_append,none_later]
  exact Nat.lt_of_le_of_lt List.countP_le_length short

theorem shown_of_few {rows : List α} {limit : ℕ} {a : α} (inside : a ∈ rows) (wanted : asked a = true)
    (few : rows.countP (fun b => !asked b && le b a) < limit) {arranged : List α} (perm : arranged.Perm rows) :
    ∃ b ∈ (arranged.mergeSort le).take limit, asked b = true := by
  have sorted := List.pairwise_mergeSort trans total arranged
  have same : (arranged.mergeSort le).Perm rows := (List.mergeSort_perm arranged le).trans perm
  by_contra missing
  push Not at missing
  rw [← List.take_append_drop limit (arranged.mergeSort le)] at sorted
  have held : a ∈ (arranged.mergeSort le).take limit ++ (arranged.mergeSort le).drop limit := by
    rw [List.take_append_drop]
    exact same.mem_iff.mpr inside
  have behind : a ∈ (arranged.mergeSort le).drop limit :=
    (List.mem_append.mp held).resolve_left fun member => missing a member wanted
  have before : ((arranged.mergeSort le).take limit).countP (fun b => !asked b && le b a) =
      ((arranged.mergeSort le).take limit).length := by
    rw [List.countP_eq_length]
    intro b member
    have earlier := (List.pairwise_append.mp sorted).2.2 b member a behind
    have other : asked b = false := by simpa using missing b member
    rw [other,earlier]
    rfl
  have full : ((arranged.mergeSort le).take limit).length = limit := by
    rw [List.length_take]
    have positive := List.length_pos_of_mem behind
    rw [List.length_drop] at positive
    omega
  have most : limit ≤ rows.countP (fun b => !asked b && le b a) := by
    rw [← same.countP_eq,← full,← before]
    exact (List.take_sublist ..).countP_le
  omega

theorem sorted_heldBack (rows : List α) :
    (rows.mergeSort (heldBack le asked)).mergeSort le = rows.mergeSort (heldBack le asked) := by
  apply List.mergeSort_of_pairwise
  apply (List.pairwise_mergeSort (heldBack_trans asked trans) (heldBack_total asked total) rows).imp
  exact fun ordered => (Bool.and_eq_true_iff.mp ordered).1

theorem shown_iff {rows : List α} {limit : ℕ} :
    (∀ arranged : List α, arranged.Perm rows → ∃ a ∈ (arranged.mergeSort le).take limit, asked a = true) ↔
      ∃ a ∈ rows, asked a = true ∧ rows.countP (fun b => !asked b && le b a) < limit := by
  constructor
  · intro shown
    obtain ⟨a,inside,wanted⟩ := shown _ (List.mergeSort_perm rows (heldBack le asked))
    rw [sorted_heldBack asked trans total] at inside
    exact ⟨a,List.mem_mergeSort.mp (List.mem_of_mem_take inside),wanted,
      heldBack_shown asked trans total inside wanted⟩
  · rintro ⟨a,inside,wanted,few⟩ arranged perm
    exact shown_of_few asked trans total inside wanted few perm

end Orders

theorem unordered_iff {rows : List α} {limit : ℕ} :
    (∀ arranged : List α, arranged.Perm rows → ∃ a ∈ arranged.take limit, asked a = true) ↔
      (∃ a ∈ rows, asked a = true) ∧ rows.countP (fun b => !asked b) < limit := by
  have level (arranged : List α) : arranged.mergeSort (fun _ _ => true) = arranged :=
    List.mergeSort_of_pairwise (List.pairwise_of_forall fun _ _ => rfl)
  have ranked := @shown_iff α (fun _ _ => true) asked (fun _ _ _ _ _ => rfl) (fun _ _ => rfl) rows limit
  simp only [level,Bool.and_true] at ranked
  rw [ranked]
  constructor
  · rintro ⟨a,inside,wanted,few⟩
    exact ⟨⟨a,inside,wanted⟩,few⟩
  · rintro ⟨⟨a,inside,wanted⟩,few⟩
    exact ⟨a,inside,wanted,few⟩

end Orrery.Foundation.FirstRows
