import LiteosM.Membox.Source
import Mathlib.Data.List.Perm.Basic
import Mathlib.Data.List.Nodup

/-!
# The invariant of a memory box

Every block is either on the free list or handed out, and the header word tells
which: a free block holds the address of the next one or `NULL`, an outstanding one
the magic value.
-/

namespace LiteosM.Membox
open Lib.ByteMemory Lib.Word32

def nodes (pool blkSize blkNum : Nat) : List Nat :=
  (List.range blkNum).map fun i => pool + 16 + i * blkSize

/-- The nodes met when following `pstNext` from `a` to `NULL`. -/
def FreeWalk (m : Memory) : Nat → List Nat → Prop
  | a, [] => a = 0
  | a, x :: l => a = x ∧ x ≠ 0 ∧ FreeWalk m (pstNext m x) l

structure Geometry (pool poolSize blkSize blkNum tskLimit : Nat) : Prop where
  nonzero : pool ≠ 0
  size : 8 ≤ blkSize
  one : 1 ≤ blkNum
  fits : 16 + blkNum * blkSize ≤ poolSize
  inside : pool + poolSize ≤ 4294967296
  limit : tskLimit < 255
  magic : ∀ x ∈ nodes pool blkSize blkNum, ∀ taskID ≤ tskLimit + 1, x ≠ osMemboxMagic ||| taskID

structure BoxRep (pool blkSize blkNum tskLimit : Nat) (m : Memory) (free out : List Nat) :
    Prop where
  size : uwBlkSize m pool = blkSize
  num : uwBlkNum m pool = blkNum
  cnt : uwBlkCnt m pool = out.length
  walk : FreeWalk m (stFreeList m pool) free
  blocks : (free ++ out).Perm (nodes pool blkSize blkNum)
  owned : ∀ x ∈ out, ∃ taskID ≤ tskLimit, pstNext m x = osMemboxMagic ||| taskID

section

variable {pool poolSize blkSize blkNum tskLimit : Nat} {m m' : Memory} {free out l : List Nat}
  {x y a taskID : Nat}

theorem magic_or (taskID : Nat) (h : taskID < 256) :
    osMemboxMagic ||| taskID = 2774161920 + taskID :=
  (Nat.two_pow_add_eq_or_of_lt (i := 8) h 10836570).symm

theorem taskidGet_magic (taskID : Nat) (h : taskID < 256) :
    osMemboxTaskidGet (osMemboxMagic ||| taskID) = taskID := by
  have hmod := Nat.and_two_pow_sub_one_eq_mod (2774161920 + taskID) 8
  rw [magic_or taskID h]
  unfold osMemboxTaskidGet osMemboxMaxTaskid
  rw [show (255 : Nat) = 2 ^ 8 - 1 from rfl, hmod]
  omega

theorem losMemboxAlligned_eq (b : Nat) (h : b + 7 < 4294967296) :
    losMemboxAlligned (add32 b osMemboxNodeHeadSize) = (b + 7) / 4 * 4 := by
  unfold losMemboxAlligned osMemboxNodeHeadSize
  rw [add32_of_lt b 4 (by omega), add32_of_lt _ _ (by omega)]
  exact and_not_low_eq (b + 4 + 3) 2 (by omega) (by omega)

theorem mem_nodes : x ∈ nodes pool blkSize blkNum ↔ ∃ i < blkNum, x = pool + 16 + i * blkSize := by
  simp [nodes, eq_comm]

theorem nodes_length (pool blkSize blkNum : Nat) : (nodes pool blkSize blkNum).length = blkNum := by
  simp [nodes]

theorem mul_apart (blkSize : Nat) {i j : Nat} (h : i < j) : i * blkSize + blkSize ≤ j * blkSize := by
  have hm := Nat.mul_le_mul_right blkSize (Nat.succ_le_of_lt h)
  rw [Nat.succ_mul] at hm
  exact hm

theorem Geometry.node_bounds (g : Geometry pool poolSize blkSize blkNum tskLimit)
    (hx : x ∈ nodes pool blkSize blkNum) :
    pool + 16 ≤ x ∧ x + blkSize ≤ pool + poolSize := by
  obtain ⟨i, hi, rfl⟩ := mem_nodes.mp hx
  have hm := mul_apart blkSize hi
  have hf := g.fits
  omega

theorem node_apart (hx : x ∈ nodes pool blkSize blkNum) (hy : y ∈ nodes pool blkSize blkNum)
    (hne : x ≠ y) : x + blkSize ≤ y ∨ y + blkSize ≤ x := by
  obtain ⟨i, _, rfl⟩ := mem_nodes.mp hx
  obtain ⟨j, _, rfl⟩ := mem_nodes.mp hy
  rcases Nat.lt_trichotomy i j with hij | rfl | hij
  · have hm := mul_apart blkSize hij
    omega
  · exact absurd rfl hne
  · have hm := mul_apart blkSize hij
    omega

theorem Geometry.nodes_nodup (g : Geometry pool poolSize blkSize blkNum tskLimit) :
    (nodes pool blkSize blkNum).Nodup := by
  have hs := g.size
  refine List.nodup_range.map_on fun i _ j _ hij => ?_
  have hij : i * blkSize = j * blkSize := by omega
  exact Nat.eq_of_mul_eq_mul_right (by omega) hij

theorem freeWalk_congr (hw : FreeWalk m a l) (h : ∀ x ∈ l, pstNext m' x = pstNext m x) :
    FreeWalk m' a l := by
  induction l generalizing a with
  | nil => exact hw
  | cons x l ih =>
    obtain ⟨h1, h2, h3⟩ := hw
    refine ⟨h1, h2, ?_⟩
    rw [h x List.mem_cons_self]
    exact ih h3 fun y hy => h y (List.mem_cons_of_mem _ hy)

theorem freeWalk_next (hw : FreeWalk m a l) (hx : x ∈ l) : pstNext m x = 0 ∨ pstNext m x ∈ l := by
  induction l generalizing a with
  | nil => cases hx
  | cons y l ih =>
    obtain ⟨_, _, hrest⟩ := hw
    rcases List.mem_cons.mp hx with rfl | hx
    · cases l with
      | nil => exact Or.inl hrest
      | cons z l =>
        right
        rw [hrest.1]
        simp
    · rcases ih hrest hx with h | h
      · exact Or.inl h
      · exact Or.inr (List.mem_cons_of_mem _ h)

theorem BoxRep.mem_free (h : BoxRep pool blkSize blkNum tskLimit m free out) (hx : x ∈ free) :
    x ∈ nodes pool blkSize blkNum := h.blocks.mem_iff.mp (List.mem_append_left _ hx)

theorem BoxRep.mem_out (h : BoxRep pool blkSize blkNum tskLimit m free out) (hx : x ∈ out) :
    x ∈ nodes pool blkSize blkNum := h.blocks.mem_iff.mp (List.mem_append_right _ hx)

theorem BoxRep.length (h : BoxRep pool blkSize blkNum tskLimit m free out) :
    free.length + out.length = blkNum := by
  have hl := h.blocks.length_eq
  rw [List.length_append, nodes_length] at hl
  exact hl

theorem BoxRep.nodup (h : BoxRep pool blkSize blkNum tskLimit m free out)
    (g : Geometry pool poolSize blkSize blkNum tskLimit) : (free ++ out).Nodup :=
  h.blocks.nodup_iff.mpr g.nodes_nodup

theorem BoxRep.frame (h : BoxRep pool blkSize blkNum tskLimit m free out)
    (hpool : ∀ x, pool ≤ x → x < pool + 16 → m' x = m x)
    (hnode : ∀ n ∈ nodes pool blkSize blkNum, ∀ x, n ≤ x → x < n + 4 → m' x = m x) :
    BoxRep pool blkSize blkNum tskLimit m' free out := by
  have hword : ∀ i, i + 4 ≤ 16 → load32 m' (pool + i) = load32 m (pool + i) := fun i hi =>
    load32_congr m m' _ fun x h1 h2 => hpool x (by omega) (by omega)
  have hnext : ∀ n ∈ nodes pool blkSize blkNum, pstNext m' n = pstNext m n := fun n hn =>
    load32_congr m m' n (hnode n hn)
  refine ⟨?_, ?_, ?_, ?_, h.blocks, fun x hx => ?_⟩
  · rw [← h.size]
    exact hword 0 (by omega)
  · rw [← h.num]
    exact hword 4 (by omega)
  · rw [← h.cnt]
    exact hword 8 (by omega)
  · have hw := freeWalk_congr h.walk fun x hx => hnext x (h.mem_free hx)
    rw [stFreeList, hword 12 (by omega)]
    exact hw
  · rw [hnext x (h.mem_out hx)]
    exact h.owned x hx

/-- The three tests of `OsCheckBoxMem` single out the outstanding blocks. -/
theorem BoxRep.osCheckBoxMem_iff (h : BoxRep pool blkSize blkNum tskLimit m free out)
    (g : Geometry pool poolSize blkSize blkNum tskLimit) (hx : x < 4294967296) :
    osCheckBoxMem tskLimit m pool x = losOk ↔ x ∈ out := by
  have hsize := g.size
  have hone := g.one
  have hfits := g.fits
  have hinside := g.inside
  have hlimit := g.limit
  have hbase : add32 pool losMemboxInfoSize = pool + 16 := by
    unfold losMemboxInfoSize
    have hm := Nat.mul_le_mul hone hsize
    exact add32_of_lt _ _ (by omega)
  constructor
  · intro hok
    unfold osCheckBoxMem at hok
    rw [h.size, h.num, hbase, if_neg (by omega)] at hok
    dsimp only at hok
    split at hok
    · cases hok
    · rename_i hmod
      split at hok
      · cases hok
      · rename_i hlt
        have hoff : sub32 x (pool + 16) < 4294967296 := sub32_lt _ _
        have hdiv := Nat.div_add_mod (sub32 x (pool + 16)) blkSize
        generalize hi : sub32 x (pool + 16) / blkSize = i at hlt hdiv
        have hmul := mul_apart blkSize (show i < blkNum by omega)
        have heq : sub32 x (pool + 16) = i * blkSize := by
          rw [Nat.mul_comm] at hdiv
          omega
        have hxi : x = pool + 16 + i * blkSize := by
          unfold sub32 at heq
          omega
        have hnode : x ∈ nodes pool blkSize blkNum := mem_nodes.mpr ⟨i, by omega, hxi⟩
        rcases List.mem_append.mp (h.blocks.mem_iff.mpr hnode) with hf | ho
        · exfalso
          unfold osMemBoxCheckMagic at hok
          dsimp only at hok
          split at hok
          · cases hok
          · rename_i htask
            split at hok
            · rename_i hmagic
              rcases freeWalk_next h.walk hf with h0 | hm
              · rw [h0] at hmagic
                have hz := Nat.or_eq_zero_iff.mp hmagic.symm
                exact absurd hz.1 (by decide)
              · exact g.magic _ (h.mem_free hm) _ (by omega) hmagic
            · cases hok
        · exact ho
  · intro ho
    obtain ⟨i, hi, hxi⟩ := mem_nodes.mp (h.mem_out ho)
    obtain ⟨taskID, htask, hnext⟩ := h.owned x ho
    have hoff : sub32 x (pool + 16) = i * blkSize := by
      rw [sub32_of_le _ _ (by omega) hx]
      omega
    unfold osCheckBoxMem
    rw [h.size, h.num, hbase, if_neg (by omega), hoff]
    dsimp only
    rw [Nat.mul_mod_left, if_neg (by simp), Nat.mul_div_cancel _ (by omega), if_neg (by omega)]
    unfold osMemBoxCheckMagic
    rw [hnext, taskidGet_magic _ (by omega)]
    dsimp only
    rw [if_neg (by omega), if_pos rfl]

theorem BoxRep.losMemboxFree_ok (h : BoxRep pool blkSize blkNum tskLimit m free out)
    (g : Geometry pool poolSize blkSize blkNum tskLimit) {box : Nat} (hbox : box < 4294967296) :
    ((losMemboxFree tskLimit m pool box).2 = losOk ↔ ∃ x ∈ out, box = x + 4) ∧
    ((losMemboxFree tskLimit m pool box).2 ≠ losOk → (losMemboxFree tskLimit m pool box).1 = m) := by
  have hnz := g.nonzero
  have hne : losNok ≠ losOk := by decide
  have hsize := g.size
  have hcheck := h.osCheckBoxMem_iff g (x := osMemboxNodeAddr box) (sub32_lt _ _)
  have hin := g.inside
  have haddr : osMemboxNodeAddr box ∈ out ↔ ∃ x ∈ out, box = x + 4 := by
    unfold osMemboxNodeAddr osMemboxNodeHeadSize
    constructor
    · intro hm
      have hb := g.node_bounds (h.mem_out hm)
      refine ⟨_, hm, ?_⟩
      unfold sub32 at hb ⊢
      omega
    · rintro ⟨x, hm, rfl⟩
      rw [sub32_of_le _ _ (by omega) hbox, Nat.add_sub_cancel]
      exact hm
  unfold losMemboxFree
  by_cases h0 : pool = 0 ∨ box = 0
  · rw [if_pos h0]
    refine ⟨⟨fun he => absurd he hne, ?_⟩, fun _ => rfl⟩
    rintro ⟨x, _, rfl⟩
    rcases h0 with h0 | h0
    · exact absurd h0 hnz
    · omega
  · rw [if_neg h0]
    dsimp only
    by_cases hc : osCheckBoxMem tskLimit m pool (osMemboxNodeAddr box) = losOk
    · rw [if_neg (fun hne => hne hc)]
      exact ⟨iff_of_true rfl (haddr.mp (hcheck.mp hc)), fun hne => absurd rfl hne⟩
    · rw [if_pos hc]
      refine ⟨⟨fun he => absurd he hne, fun he => ?_⟩, fun _ => rfl⟩
      exact absurd (hcheck.mpr (haddr.mpr he)) hc

end

end LiteosM.Membox
