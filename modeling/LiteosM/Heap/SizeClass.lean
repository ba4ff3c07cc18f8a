import LiteosM.Heap.Source
import Mathlib.Tactic.IntervalCases

/-!
# Size classes

What `OsMemFreeListIndexGet` computes without wrap-around, its monotonicity,
and the words of node heads split into size and flags.
-/

namespace LiteosM.Heap
open Lib.ByteMemory Lib.Word32

@[simp] theorem osMemFreeListCount_eq : osMemFreeListCount = 223 := rfl

/-! ### Flags of a node head -/

theorem osMemNodeGetSize_eq (x : Nat) : osMemNodeGetSize x = x % 1073741824 := by
  have h : not32 osMemNodeAlignedAndUsedFlag = 2 ^ 30 - 1 := by decide
  rw [osMemNodeGetSize, h, Nat.and_two_pow_sub_one_eq_mod]

theorem osMemNodeGetUsedFlag_eq (x : Nat) :
    osMemNodeGetUsedFlag x = 2147483648 * (x / 2147483648 % 2) := by
  simpa [osMemNodeGetUsedFlag, osMemNodeUsedFlag] using and_two_pow_eq x 31

theorem osMemNodeGetAlignedFlag_eq (x : Nat) :
    osMemNodeGetAlignedFlag x = 1073741824 * (x / 1073741824 % 2) := by
  simpa [osMemNodeGetAlignedFlag, osMemNodeAlignedFlag] using and_two_pow_eq x 30

@[simp] theorem osMemNodeGetLastFlag_eq (x : Nat) : osMemNodeGetLastFlag x = 0 := by
  simp [osMemNodeGetLastFlag, osMemNodeLastFlag]

theorem osMemNodeSetUsedFlag_eq (x : Nat) (h : x < 2147483648) :
    osMemNodeSetUsedFlag x = x + 2147483648 := by
  simpa [osMemNodeSetUsedFlag, osMemNodeUsedFlag] using
    Nat.or_two_pow_eq_add_of_lt (a := x) (n := 31) h

theorem or_aligned_bit (x : Nat) (h : x / 1073741824 % 2 = 0) :
    x ||| 1073741824 = x + 1073741824 := by
  have hs : x = 2 ^ 31 * (x / 2147483648) + x % 1073741824 := by omega
  have hlo : x % 1073741824 < 2 ^ 31 := by omega
  have hbit : x % 1073741824 ||| 1073741824 = x % 1073741824 + 1073741824 :=
    Nat.or_two_pow_eq_add_of_lt (a := x % 1073741824) (n := 30) (by omega)
  have hup := Nat.two_pow_add_eq_or_of_lt (i := 31) (b := x % 1073741824 + 1073741824)
    (by omega) (x / 2147483648)
  calc x ||| 1073741824
      = (2 ^ 31 * (x / 2147483648) ||| x % 1073741824) ||| 1073741824 := by
        rw [← Nat.two_pow_add_eq_or_of_lt hlo, ← hs]
    _ = 2 ^ 31 * (x / 2147483648) ||| (x % 1073741824 + 1073741824) := by
        rw [Nat.or_assoc, hbit]
    _ = x + 1073741824 := by rw [← hup]; omega

theorem osMemNodeSetAlignedFlag_eq (x : Nat) (h : x / 1073741824 % 2 = 0) :
    osMemNodeSetAlignedFlag x = x + 1073741824 := or_aligned_bit x h

theorem osMemSetGapsizeAlignedFlag_eq (x : Nat) (h : x / 1073741824 % 2 = 0) :
    osMemSetGapsizeAlignedFlag x = x + 1073741824 := or_aligned_bit x h

/-! ### Alignment -/

theorem and_sub_one_eq_mod (x k : Nat) : x &&& (2 ^ k - 1) = x % 2 ^ k :=
  Nat.and_two_pow_sub_one_eq_mod x k

theorem osMemIsAligned_four (a : Nat) : osMemIsAligned a 4 = decide (a % 4 = 0) := by
  have h : sub32 4 1 = 2 ^ 2 - 1 := sub32_of_le 4 1 (by omega) (by omega)
  rw [osMemIsAligned, h, and_sub_one_eq_mod]
  by_cases ha : a % 4 = 0 <;> simp [ha]

theorem osMemAlign_pow (p k : Nat) (hk : k < 32) (hp : p + 2 ^ k ≤ 4294967296) :
    osMemAlign p (2 ^ k) = (p + 2 ^ k - 1) / 2 ^ k * 2 ^ k := by
  have h1 := Nat.two_pow_pos k
  have h2 : 2 ^ k < 2 ^ 32 := Nat.pow_lt_pow_right (by omega) hk
  have hone : sub32 (2 ^ k) 1 = 2 ^ k - 1 := sub32_of_le _ _ h1 (by omega)
  have hsum : sub32 (add32 p (2 ^ k)) 1 = p + 2 ^ k - 1 := by
    simp only [sub32, add32]
    omega
  rw [osMemAlign, hone, hsum, and_not_low_eq _ _ (by omega) (by omega)]

theorem osMemAlign_word (p : Nat) (hp : p + 4 ≤ 4294967296) :
    osMemAlign p 4 = (p + 3) / 4 * 4 := osMemAlign_pow p 2 (by omega) hp

theorem losAlign_word (p : Nat) (hp : p < 4294967264) :
    losAlign p 32 = (p + 31) / 32 * 32 := by
  have ha : add32 p 31 = p + 31 := add32_of_lt _ _ (by omega)
  have hg : p + 31 > p := by omega
  have hlow := and_not_low_eq (p + 31) 5 (by omega) (by omega)
  simpa only [losAlign, Nat.reduceSub, ha, hg, ite_true, Nat.reducePow] using hlow

theorem osMemIsPowTwo_spec (v : Nat) (h0 : v ≠ 0) (hv : v < 4294967296)
    (h : osMemIsPowTwo v = true) : ∃ k < 32, v = 2 ^ k := by
  obtain ⟨k, q, hq⟩ := exists_odd_mul v h0
  have hs : sub32 v 1 = v - 1 := sub32_of_le _ _ (by omega) hv
  have hz : v &&& (v - 1) = 0 := by simpa [osMemIsPowTwo, hs] using h
  have hp : 1 ≤ 2 ^ k := Nat.one_le_two_pow
  have hpred : v - 1 = 2 ^ k * (2 * q) + (2 ^ k - 1) := by
    have he : 2 ^ k * (2 * q + 1) = 2 ^ k * (2 * q) + 2 ^ k := by ring
    omega
  have hq0 : q = 0 := by
    by_contra hne
    obtain ⟨j, hj⟩ := Nat.exists_testBit_of_ne_zero hne
    have h1 : v.testBit (k + (j + 1)) = true := by
      rw [hq, Nat.testBit_two_pow_mul]
      simpa [Nat.testBit_succ, Nat.mul_add_div] using hj
    have h2 : (v - 1).testBit (k + (j + 1)) = true := by
      rw [hpred, Nat.testBit_two_pow_mul_add _ (by omega)]
      simpa [Nat.testBit_succ] using hj
    have hand : (v &&& (v - 1)).testBit (k + (j + 1)) = true := by
      rw [Nat.testBit_and, h1, h2]
      rfl
    rw [hz, Nat.zero_testBit] at hand
    cases hand
  have hvk : v = 2 ^ k := by rw [hq, hq0]; ring
  refine ⟨k, ?_, hvk⟩
  by_contra hge
  have : 2 ^ 32 ≤ 2 ^ k := Nat.pow_le_pow_right Nat.two_pos (by omega)
  omega

/-! ### The class of a size -/

/-- The class of a size below `2^30` in mathematical terms: exact small
buckets, then eight buckets for each power of two. From `2^29` on the shift by
the second level drops the top bit, and the classes are those of `2^28` again. -/
def sizeClass (s : Nat) : Nat :=
  if s < 128 then s / 4 - 1
  else if s < 536870912 then 31 + (Nat.log2 s - 7) * 8 + (8 * s / 2 ^ Nat.log2 s - 8)
  else 191 + s / 67108864

theorem osMemLog2_eq (s : Nat) (h0 : s ≠ 0) (hs : s < 4294967296) :
    osMemLog2 s = Nat.log2 s := by
  have hl : Nat.log2 s < 32 := (Nat.log2_lt h0).mpr hs
  have hpos : s > 0 := by omega
  have hc : clz32 s ≤ 31 := by have := clz32_lt s h0; omega
  have he : sub32 31 (clz32 s) = 31 - clz32 s := sub32_of_le _ _ hc (by omega)
  simp only [osMemLog2, hpos, ite_true, osMemFLS, osMemBitmapMask, he]
  simp only [clz32, h0, ite_false]
  omega

theorem log2_bounds (s : Nat) (h : 128 ≤ s) :
    7 ≤ Nat.log2 s ∧ 2 ^ Nat.log2 s ≤ s ∧ s < 2 * 2 ^ Nat.log2 s := by
  have h0 : s ≠ 0 := by omega
  refine ⟨(Nat.le_log2 h0).mpr (by omega), Nat.log2_self_le h0, ?_⟩
  have hlt := Nat.lt_log2_self (n := s)
  rw [Nat.pow_succ] at hlt
  omega

theorem second_level_bounds (s : Nat) (h : 128 ≤ s) :
    8 ≤ 8 * s / 2 ^ Nat.log2 s ∧ 8 * s / 2 ^ Nat.log2 s < 16 := by
  obtain ⟨_, hlo, hhi⟩ := log2_bounds s h
  have hp := Nat.two_pow_pos (Nat.log2 s)
  exact ⟨(Nat.le_div_iff_mul_le hp).mpr (by omega), (Nat.div_lt_iff_lt_mul hp).mpr (by omega)⟩

theorem osMemFlGet_small (s : Nat) (h4 : 4 ≤ s) (h : s < 128) : osMemFlGet s = s / 4 - 1 := by
  have hs : s >>> 2 = s / 4 := Nat.shiftRight_eq_div_pow s 2
  unfold osMemFlGet osMemSmallBucketMaxSize
  rw [if_pos h, hs, sub32_of_le _ _ (by omega) (by omega)]

theorem osMemFlGet_large (s : Nat) (h : 128 ≤ s) (hs : s < 4294967296) :
    osMemFlGet s = Nat.log2 s - 7 + 31 := by
  have hn : ¬s < 128 := by omega
  have hb := log2_bounds s h
  have hl : Nat.log2 s < 32 := (Nat.log2_lt (by omega)).mpr hs
  unfold osMemFlGet osMemSmallBucketMaxSize osMemLargeStartBucket osMemSmallBucketCount
  rw [if_neg hn, osMemLog2_eq s (by omega) hs, sub32_of_le _ _ hb.1 (by omega),
    add32_of_lt _ _ (by omega)]

theorem osMemSlGet_large (s : Nat) (h : 128 ≤ s) (hs : s < 536870912) :
    osMemSlGet s (Nat.log2 s - 7 + 31) = 8 * s / 2 ^ Nat.log2 s - 8 := by
  have hb := log2_bounds s h
  have hsl := second_level_bounds s h
  have hl : Nat.log2 s < 32 := (Nat.log2_lt (by omega)).mpr (by omega)
  have hn : ¬(Nat.log2 s - 7 + 31 < 31 ∨ s < 128) := by omega
  have hshift : shl32 s 3 = 8 * s := by
    unfold shl32
    rw [Nat.shiftLeft_eq]
    omega
  have hamt : add32 (sub32 (Nat.log2 s - 7 + 31) 31) 7 = Nat.log2 s := by
    rw [sub32_of_le _ _ (by omega) (by omega), add32_of_lt _ _ (by omega)]
    omega
  unfold osMemSlGet osMemSmallBucketCount osMemSmallBucketMaxSize osMemLargeStartBucket osMemSli
  rw [if_neg hn, hshift, hamt, Nat.shiftRight_eq_div_pow]
  exact sub32_of_le _ _ hsl.1 (by omega)

theorem osMemFreeListIndexGet_low (s : Nat) (h4 : 4 ≤ s) (hs : s < 536870912) :
    osMemFreeListIndexGet s = sizeClass s := by
  by_cases h : s < 128
  · have hlt : s / 4 - 1 < 31 := by omega
    unfold osMemFreeListIndexGet osMemSmallBucketCount sizeClass
    rw [osMemFlGet_small s h4 h, if_pos hlt, if_pos h]
  · have hge : 128 ≤ s := by omega
    have hb := log2_bounds s hge
    have hsl := second_level_bounds s hge
    have hl : Nat.log2 s < 29 := (Nat.log2_lt (by omega)).mpr (by omega)
    have hn : ¬Nat.log2 s - 7 + 31 < 31 := by omega
    have hshift : shl32 (sub32 (Nat.log2 s - 7 + 31) 31) 3 = (Nat.log2 s - 7) * 8 := by
      rw [sub32_of_le _ _ (by omega) (by omega)]
      unfold shl32
      rw [Nat.shiftLeft_eq]
      omega
    unfold osMemFreeListIndexGet osMemSmallBucketCount osMemSli sizeClass
    rw [osMemFlGet_large s hge (by omega), if_neg hn, osMemSlGet_large s hge hs, hshift, if_neg h,
      if_pos hs, add32_of_lt 31 _ (by omega), add32_of_lt _ _ (by omega)]

theorem log2_top (s : Nat) (h : 536870912 ≤ s) (hs : s < 1073741824) : Nat.log2 s = 29 := by
  have hlo : 29 ≤ Nat.log2 s := (Nat.le_log2 (by omega)).mpr (by omega)
  have hhi : Nat.log2 s < 30 := (Nat.log2_lt (by omega)).mpr (by omega)
  omega

/-- The second level of the top octave: the shifted size has lost `2^32`. -/
theorem osMemSlGet_top (s : Nat) (h : 536870912 ≤ s) (hs : s < 1073741824) :
    osMemSlGet s 53 = s / 67108864 - 8 + 4294967288 := by
  have hn : ¬(53 < 31 ∨ s < 128) := by omega
  have hshift : shl32 s 3 = 8 * s - 4294967296 := by
    unfold shl32
    rw [Nat.shiftLeft_eq]
    omega
  have hamt : add32 (sub32 53 31) 7 = 29 := by
    rw [sub32_of_le _ _ (by omega) (by omega), add32_of_lt _ _ (by omega)]
  unfold osMemSlGet osMemSmallBucketCount osMemSmallBucketMaxSize osMemLargeStartBucket osMemSli
  rw [if_neg hn, hshift, hamt, Nat.shiftRight_eq_div_pow]
  show sub32 ((8 * s - 4294967296) / 2 ^ 29) (1 <<< 3) = _
  unfold sub32
  rw [Nat.one_shiftLeft]
  omega

theorem osMemFreeListIndexGet_top (s : Nat) (h : 536870912 ≤ s) (hs : s < 1073741824) :
    osMemFreeListIndexGet s = sizeClass s := by
  have hn : ¬s < 128 := by omega
  have hlow : ¬s < 536870912 := by omega
  have hfl : osMemFlGet s = 53 := by
    rw [osMemFlGet_large s (by omega) (by omega), log2_top s h hs]
  have hshift : shl32 (sub32 53 31) 3 = 176 := by
    rw [sub32_of_le _ _ (by omega) (by omega)]
    unfold shl32
    rw [Nat.shiftLeft_eq]
  unfold osMemFreeListIndexGet osMemSmallBucketCount osMemSli sizeClass
  rw [hfl, if_neg (by omega), osMemSlGet_top s h hs, hshift, if_neg hn, if_neg hlow]
  show add32 (add32 31 176) (s / 67108864 - 8 + 4294967288) = _
  unfold add32
  omega

theorem osMemFreeListIndexGet_eq (s : Nat) (h4 : 4 ≤ s) (hs : s < 1073741824) :
    osMemFreeListIndexGet s = sizeClass s := by
  by_cases h : s < 536870912
  · exact osMemFreeListIndexGet_low s h4 h
  · exact osMemFreeListIndexGet_top s (by omega) hs

theorem sizeClass_lt (s : Nat) (hs : s < 1073741824) : sizeClass s < 207 := by
  by_cases h : s < 128
  · simp only [sizeClass, h, ite_true]
    omega
  · by_cases htop : s < 536870912
    · have hsl := second_level_bounds s (by omega)
      have hl : Nat.log2 s < 29 := (Nat.log2_lt (by omega)).mpr (by omega)
      simp only [sizeClass, h, htop, ite_true, ite_false]
      omega
    · simp only [sizeClass, h, htop, ite_false]
      omega

theorem sizeClass_mono (s r : Nat) (h : s ≤ r) (htop : r < 536870912) :
    sizeClass s ≤ sizeClass r := by
  have htop' : s < 536870912 := by omega
  by_cases hr : r < 128
  · have hs : s < 128 := by omega
    simp only [sizeClass, hr, hs, ite_true]
    omega
  · have hrl := second_level_bounds r (by omega)
    by_cases hs : s < 128
    · simp only [sizeClass, hs, hr, htop, ite_true, ite_false]
      omega
    · have hsl := second_level_bounds s (by omega)
      have hlog : Nat.log2 s ≤ Nat.log2 r :=
        (Nat.le_log2 (by omega)).mpr ((log2_bounds s (by omega)).2.1.trans h)
      simp only [sizeClass, hs, hr, htop, htop', ite_true, ite_false]
      rcases hlog.lt_or_eq with hlt | heq
      · have := (log2_bounds s (by omega)).1
        omega
      · rw [heq] at hsl ⊢
        have hdiv : 8 * s / 2 ^ Nat.log2 r ≤ 8 * r / 2 ^ Nat.log2 r :=
          Nat.div_le_div_right (by omega)
        omega

theorem sizeClass_top (s : Nat) (h : 536870912 ≤ s) : sizeClass s = 191 + s / 67108864 := by
  have hn : ¬s < 128 := by omega
  have hlow : ¬s < 536870912 := by omega
  simp only [sizeClass, hn, hlow, ite_false]

theorem le_of_sizeClass_lt (s r : Nat) (h : sizeClass r < sizeClass s) (hr : r < 536870912) :
    r ≤ s := by
  by_contra hn
  have := sizeClass_mono s r (by omega) hr
  omega

theorem le_of_sizeClass_le_small (s r : Nat) (hs4 : s % 4 = 0) (hr4 : r % 4 = 0) (hs : 16 ≤ s)
    (hr : 16 ≤ r) (hsmall : r < 128) (h : sizeClass r ≤ sizeClass s) : r ≤ s := by
  by_cases hsm : s < 128
  · simp only [sizeClass, hsmall, hsm, ite_true] at h
    omega
  · omega

end LiteosM.Heap
