import Mathlib.Tactic.SplitIfs

/-!
# Division that rounds toward zero

`Int.tdiv` and `Int.tmod` by a positive divisor, in terms of the floor.
-/

namespace LiteosM.Lib.TruncDiv

variable {a b : Int}

theorem tdiv_of_nonneg (ha : 0 ≤ a) (b : Int) : a.tdiv b = a / b := Int.tdiv_eq_ediv_of_nonneg ha

theorem tmod_of_nonneg (ha : 0 ≤ a) (b : Int) : a.tmod b = a % b := Int.tmod_eq_emod_of_nonneg ha

theorem tmod_eq_zero_iff (a b : Int) : a.tmod b = 0 ↔ a % b = 0 := by
  rw [← Int.dvd_iff_tmod_eq_zero, Int.dvd_iff_emod_eq_zero]

theorem tdiv_of_nonpos (ha : a ≤ 0) (b : Int) : a.tdiv b = -(-a / b) := by
  rw [← Int.tdiv_eq_ediv_of_nonneg (show 0 ≤ -a by omega), Int.neg_tdiv, Int.neg_neg]

theorem tdiv_lt_zero_iff (a : Int) (hb : 0 < b) : a.tdiv b < 0 ↔ a ≤ -b := by
  rcases Int.le_total 0 a with ha | ha
  · have hnonneg := Int.ediv_nonneg ha (Int.le_of_lt hb)
    rw [tdiv_of_nonneg ha]
    omega
  · have hone := Int.le_ediv_iff_mul_le (a := 1) (b := -a) hb
    rw [tdiv_of_nonpos ha]
    omega

theorem tdiv_sub_eq (a : Int) (hb : 0 < b) :
    a.tdiv b - (if a.tmod b < 0 then 1 else 0) = a / b := by
  have hnonneg := Int.emod_nonneg a (show b ≠ 0 by omega)
  have hlt := Int.emod_lt_of_pos a hb
  rw [Int.tdiv_eq_ediv, Int.tmod_eq_emod, Int.sign_eq_one_of_pos hb]
  by_cases h : 0 ≤ a ∨ b ∣ a
  · rw [if_pos h, if_pos h, if_neg (by omega)]
    omega
  · rw [if_neg h, if_neg h, if_pos (by omega)]
    omega

end LiteosM.Lib.TruncDiv
