import Mathlib.Tactic.Ring
import Mathlib.Tactic.SplitIfs
import Mathlib.Data.Nat.Bitwise

/-!
# 32-bit and 64-bit unsigned words as naturals

Wrap-around addition and subtraction, complement, single-bit set/clear, the
count of leading zeros and the isolation of the lowest set bit.
-/

namespace LiteosM.Lib.Word32

def add32 (a b : Nat) : Nat := (a + b) % 4294967296
def sub32 (a b : Nat) : Nat := (a + (4294967296 - b % 4294967296)) % 4294967296
def not32 (a : Nat) : Nat := 4294967295 - a
def shl32 (a n : Nat) : Nat := (a <<< n) % 4294967296

def clz32 (a : Nat) : Nat := if a = 0 then 32 else 31 - Nat.log2 a

theorem add32_lt (a b : Nat) : add32 a b < 4294967296 := Nat.mod_lt _ (by omega)

theorem sub32_lt (a b : Nat) : sub32 a b < 4294967296 := Nat.mod_lt _ (by omega)

theorem add32_of_lt (a b : Nat) (h : a + b < 4294967296) : add32 a b = a + b :=
  Nat.mod_eq_of_lt h

theorem sub32_of_le (a b : Nat) (hb : b ≤ a) (ha : a < 4294967296) : sub32 a b = a - b := by
  simp only [sub32]
  omega

/- Unfolding these in a definitional check makes Lean count up to `2 ^ 32`. -/
attribute [irreducible] add32 sub32 shl32

theorem testBit_not32 (a j : Nat) (ha : a < 4294967296) :
    (not32 a).testBit j = (decide (j < 32) && !a.testBit j) := by
  have h := Nat.testBit_two_pow_sub_succ (n := 32) (x := a) (by omega) j
  have he : not32 a = 2 ^ 32 - (a + 1) := by simp only [not32]; omega
  rw [he, h]

/-! ### Single bits -/

theorem testBit_ge (x j : Nat) (hx : x < 4294967296) (hj : 32 ≤ j) : x.testBit j = false :=
  Nat.testBit_lt_two_pow (lt_of_lt_of_le hx (Nat.pow_le_pow_right Nat.two_pos hj))

theorem and_two_pow_eq (x n : Nat) : x &&& 2 ^ n = 2 ^ n * (x / 2 ^ n % 2) := by
  rw [Nat.and_two_pow]
  cases h : x.testBit n with
  | true =>
    have hd : x / 2 ^ n % 2 = 1 := by simpa [Nat.testBit_eq_decide_div_mod_eq] using h
    simp [hd]
  | false =>
    have hd : ¬x / 2 ^ n % 2 = 1 := by simpa [Nat.testBit_eq_decide_div_mod_eq] using h
    have hz : x / 2 ^ n % 2 = 0 := by omega
    simp [hz]

theorem testBit_or_bit (x i j : Nat) :
    (x ||| 1 <<< i).testBit j = (decide (j = i) || x.testBit j) := by
  rw [Nat.testBit_or, Nat.one_shiftLeft, Nat.testBit_two_pow, Bool.or_comm]
  simp only [eq_comm]

theorem testBit_and_not_bit (x i j : Nat) (hi : i < 32) (hx : x < 4294967296) :
    (x &&& not32 (1 <<< i)).testBit j = (decide (j ≠ i) && x.testBit j) := by
  have hp : 1 <<< i < 4294967296 := by
    rw [Nat.one_shiftLeft]
    exact Nat.pow_lt_pow_right (by omega) (by omega : i < 32)
  rw [Nat.testBit_and, testBit_not32 _ _ hp, Nat.one_shiftLeft, Nat.testBit_two_pow]
  by_cases hj : j < 32
  · simp [hj, eq_comm, Bool.and_comm]
  · have hz := testBit_ge x j hx (by omega)
    simp [hz]

theorem or_bit_lt (x i : Nat) (hi : i < 32) (hx : x < 4294967296) :
    x ||| 1 <<< i < 4294967296 := by
  have hp : 1 <<< i < 2 ^ 32 := by
    rw [Nat.one_shiftLeft]
    exact Nat.pow_lt_pow_right (by omega) hi
  exact Nat.or_lt_two_pow (n := 32) hx hp

theorem and_lt (x y : Nat) (hx : x < 4294967296) : x &&& y < 4294967296 :=
  lt_of_le_of_lt Nat.and_le_left hx

/-! ### Leading and trailing bits -/

theorem clz32_lt (x : Nat) (h0 : x ≠ 0) : clz32 x < 32 := by
  simp only [clz32, h0, ite_false]
  omega

theorem clz32_two_pow (k : Nat) (hk : k < 32) : 31 - clz32 (2 ^ k) = k := by
  have h0 : (2 : Nat) ^ k ≠ 0 := (Nat.two_pow_pos k).ne'
  simp only [clz32, h0, ite_false, Nat.log2_two_pow]
  omega

theorem exists_odd_mul (x : Nat) (h0 : x ≠ 0) : ∃ k q, x = 2 ^ k * (2 * q + 1) := by
  induction x using Nat.strongRecOn with
  | ind x ih =>
    by_cases he : x % 2 = 0
    · obtain ⟨k, q, hq⟩ := ih (x / 2) (by omega) (by omega)
      refine ⟨k + 1, q, ?_⟩
      have hx : x = 2 * (x / 2) := by omega
      rw [hx, hq]
      ring
    · exact ⟨0, x / 2, by rw [pow_zero, one_mul]; omega⟩

/-- `x & (~x + 1)` is the lowest set bit of `x`. -/
theorem and_neg_eq_low_bit (x : Nat) (h0 : x ≠ 0) (hx : x < 4294967296) :
    ∃ k < 32, x &&& add32 (not32 x) 1 = 2 ^ k ∧ x.testBit k = true ∧
      ∀ j < k, x.testBit j = false := by
  obtain ⟨k, q, hq⟩ := exists_odd_mul x h0
  have hbit (j : Nat) : x.testBit j = if j < k then false else (2 * q + 1).testBit (j - k) := by
    have h := Nat.testBit_two_pow_mul_add (2 * q + 1) (Nat.two_pow_pos k) j
    rw [Nat.add_zero, Nat.zero_testBit] at h
    rw [hq, h]
  have hpred : x - 1 = 2 ^ k * (2 * q) + (2 ^ k - 1) := by
    have hp : 1 ≤ 2 ^ k := Nat.one_le_two_pow
    have he : 2 ^ k * (2 * q + 1) = 2 ^ k * (2 * q) + 2 ^ k := by ring
    omega
  have hprev (j : Nat) : (x - 1).testBit j = if j < k then true else (2 * q).testBit (j - k) := by
    have hp : 1 ≤ 2 ^ k := Nat.one_le_two_pow
    rw [hpred, Nat.testBit_two_pow_mul_add _ (by omega), Nat.testBit_two_pow_sub_one]
    split_ifs with h
    · simp [h]
    · rfl
  have hself : x.testBit k = true := by
    rw [hbit k]
    simp
  have hk : k < 32 := by
    by_contra hge
    have hz := testBit_ge x k hx (by omega)
    rw [hself] at hz
    cases hz
  have hneg : add32 (not32 x) 1 = 2 ^ 32 - (x - 1 + 1) := by
    simp only [add32, not32]
    omega
  refine ⟨k, hk, ?_, hself, fun j hj => by rw [hbit j]; simp [hj]⟩
  apply Nat.eq_of_testBit_eq
  intro j
  rw [Nat.testBit_and, hneg, Nat.testBit_two_pow_sub_succ (by omega), Nat.testBit_two_pow, hbit,
    hprev]
  by_cases hj : j < k
  · have hne : k ≠ j := by omega
    simp [hj, hne]
  · by_cases he : k = j
    · subst he
      simp [hk]
    · have hd : (2 * q + 1).testBit (j - k) = (2 * q).testBit (j - k) := by
        obtain ⟨i, hi⟩ : ∃ i, j - k = i + 1 := ⟨j - k - 1, by omega⟩
        rw [hi, Nat.testBit_succ, Nat.testBit_succ]
        congr 1
        omega
      simp only [hj, ite_false, hd, he, decide_false]
      cases (2 * q).testBit (j - k) <;> simp

theorem and_not_low_eq (x k : Nat) (hk : k ≤ 32) (hx : x < 4294967296) :
    x &&& not32 (2 ^ k - 1) = x / 2 ^ k * 2 ^ k := by
  have hp : 2 ^ k ≤ 2 ^ 32 := Nat.pow_le_pow_right Nat.two_pos hk
  apply Nat.eq_of_testBit_eq
  intro j
  rw [Nat.testBit_and, testBit_not32 _ _ (by omega), Nat.testBit_two_pow_sub_one,
    Nat.mul_comm, Nat.testBit_two_pow_mul, Nat.testBit_div_two_pow]
  by_cases hj : j < k
  · have hn : ¬k ≤ j := by omega
    simp [hj]
  · have hn : k ≤ j := by omega
    by_cases h32 : j < 32
    · simp [hj, hn, h32]
    · simp [hn, testBit_ge x j hx (by omega)]

end LiteosM.Lib.Word32

namespace LiteosM.Lib.Word64

def add64 (a b : Nat) : Nat := (a + b) % 2 ^ 64
def sub64 (a b : Nat) : Nat := (a + (2 ^ 64 - b % 2 ^ 64)) % 2 ^ 64
def mul64 (a b : Nat) : Nat := a * b % 2 ^ 64

theorem add64_of_lt {a b : Nat} (h : a + b < 2 ^ 64) : add64 a b = a + b := Nat.mod_eq_of_lt h

theorem sub64_of_le {a b : Nat} (hb : b ≤ a) (ha : a < 2 ^ 64) : sub64 a b = a - b := by
  simp only [sub64]
  omega

theorem mul64_of_lt {a b : Nat} (h : a * b < 2 ^ 64) : mul64 a b = a * b := Nat.mod_eq_of_lt h

attribute [irreducible] add64 sub64 mul64

end LiteosM.Lib.Word64
