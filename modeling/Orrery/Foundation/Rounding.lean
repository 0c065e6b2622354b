import Mathlib.Data.Rat.Floor
import Mathlib.Tactic.Linarith

/-! Rounding to whole numbers, halves to the even one. -/
namespace Orrery.Foundation

def roundHalfEven (q : ℚ) : ℤ :=
  if q-⌊q⌋ < 1/2 then ⌊q⌋ else if 1/2 < q-⌊q⌋ then ⌊q⌋+1 else if ⌊q⌋%2 = 0 then ⌊q⌋ else ⌊q⌋+1

theorem roundHalfEven_near (q : ℚ) : |(roundHalfEven q : ℚ)-q| ≤ 1/2 := by
  have low := Int.floor_le q
  have high := Int.lt_floor_add_one q
  rw [abs_le]
  unfold roundHalfEven
  split
  next down =>
    constructor <;> linarith
  split
  next up =>
    push_cast
    constructor <;> linarith
  next half =>
    split
    · constructor <;> linarith
    · push_cast
      constructor <;> linarith

theorem le_roundHalfEven {n : ℤ} {q : ℚ} (above : (n : ℚ) ≤ q) : n ≤ roundHalfEven q := by
  have floor : n ≤ ⌊q⌋ := Int.le_floor.mpr above
  unfold roundHalfEven
  split
  · exact floor
  split
  · omega
  split <;> omega

theorem roundHalfEven_le {n : ℤ} {q : ℚ} (below : q ≤ n) : roundHalfEven q ≤ n := by
  by_contra beyond
  have more : (n : ℚ)+1 ≤ roundHalfEven q := by exact_mod_cast Int.not_le.mp beyond
  have near := (abs_le.mp (roundHalfEven_near q)).2
  linarith

end Orrery.Foundation
