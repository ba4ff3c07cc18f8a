import LiteosM.Membox.Run

/-!
# Integrity of a memory box

`LOS_MemboxInit` establishes the invariant, so it holds after every sequence of calls.
-/

namespace LiteosM.Membox
open Lib.ByteMemory Lib.Word32 Lib.Transition

section

variable {pool poolSize blkSize tskLimit : Nat} {m : Memory}

theorem memboxLinkNodes_walk (count : Nat) (m : Memory) (a : Nat) (h0 : a ≠ 0) (h4 : 4 ≤ blkSize)
    (hin : a + count * blkSize + blkSize ≤ 4294967296) :
    FreeWalk (store32 (memboxLinkNodes m a blkSize count).1 (memboxLinkNodes m a blkSize count).2 0)
      a ((List.range (count + 1)).map fun i => a + i * blkSize) ∧
    ∀ x < a, store32 (memboxLinkNodes m a blkSize count).1
      (memboxLinkNodes m a blkSize count).2 0 x = m x := by
  induction count generalizing m a with
  | zero =>
    rw [memboxLinkNodes]
    have hlist : (List.range (0 + 1)).map (fun i => a + i * blkSize) = [a] := by simp
    rw [hlist]
    refine ⟨⟨rfl, h0, ?_⟩, fun x hx => store32_outside _ _ _ _ (by omega)⟩
    exact load32_store32_same m a 0 (by omega)
  | succ count ih =>
    rw [Nat.succ_mul] at hin
    have hadd : add32 a blkSize = a + blkSize := add32_of_lt _ _ (by omega)
    have hnext : pstNext (store32 m a (a + blkSize)) a = a + blkSize :=
      load32_store32_same _ _ _ (by omega)
    have hstep : memboxLinkNodes m a blkSize (count + 1) =
        memboxLinkNodes (store32 m a (a + blkSize)) (a + blkSize) blkSize count := by
      rw [memboxLinkNodes, hadd, hnext]
    obtain ⟨hwalk, hkeep⟩ := ih (store32 m a (a + blkSize)) (a + blkSize) (by omega) (by omega)
    rw [hstep]
    refine ⟨?_, fun x hx => ?_⟩
    · have hlist : (List.range (count + 1 + 1)).map (fun i => a + i * blkSize) =
          a :: (List.range (count + 1)).map fun i => a + blkSize + i * blkSize := by
        rw [List.range_succ_eq_map, List.map_cons, List.map_map, Nat.zero_mul, Nat.add_zero]
        congr 1
        refine List.map_congr_left fun i _ => ?_
        show a + (i + 1) * blkSize = a + blkSize + i * blkSize
        rw [Nat.succ_mul]
        omega
      rw [hlist]
      refine ⟨rfl, h0, ?_⟩
      have hheader : pstNext (store32
          (memboxLinkNodes (store32 m a (a + blkSize)) (a + blkSize) blkSize count).1
          (memboxLinkNodes (store32 m a (a + blkSize)) (a + blkSize) blkSize count).2 0) a =
          pstNext (store32 m a (a + blkSize)) a :=
        load32_congr _ _ a fun x _ hx => hkeep x (by omega)
      rw [hheader, hnext]
      exact hwalk
    · rw [hkeep x (by omega)]
      exact store32_outside _ _ _ _ (by omega)

theorem losMemboxInit_rep (tskLimit : Nat) (hpool : pool + poolSize ≤ 4294967296)
    (hinit : (losMemboxInit m pool poolSize blkSize).2 = losOk) :
    ∃ bs n, bs = losMemboxAlligned (add32 blkSize osMemboxNodeHeadSize) ∧ blkSize ≠ 0 ∧ pool ≠ 0 ∧
      4 ≤ bs ∧ 1 ≤ n ∧ 16 + n * bs ≤ poolSize ∧ BoxRep pool bs n tskLimit (losMemboxInit m pool poolSize blkSize).1 (nodes pool bs n) [] := by
  have hbad : losNok ≠ losOk := by decide
  unfold losMemboxInit at hinit ⊢
  by_cases h0 : pool = 0
  · rw [if_pos h0] at hinit
    exact absurd hinit hbad
  rw [if_neg h0] at hinit ⊢
  by_cases hb0 : blkSize = 0
  · rw [if_pos hb0] at hinit
    exact absurd hinit hbad
  rw [if_neg hb0] at hinit ⊢
  by_cases hsmall : poolSize < losMemboxInfoSize
  · rw [if_pos hsmall] at hinit
    exact absurd hinit hbad
  rw [if_neg hsmall] at hinit ⊢
  dsimp only at hinit ⊢
  unfold losMemboxInfoSize at hsmall hinit ⊢
  obtain ⟨hbs4, hbslt⟩ : losMemboxAlligned (add32 blkSize osMemboxNodeHeadSize) % 4 = 0 ∧
      losMemboxAlligned (add32 blkSize osMemboxNodeHeadSize) < 4294967296 := by
    have hlt := add32_lt (add32 blkSize osMemboxNodeHeadSize) 3
    have hand := and_not_low_eq (add32 (add32 blkSize osMemboxNodeHeadSize) 3) 2 (by omega) hlt
    unfold losMemboxAlligned
    rw [show not32 3 = not32 (2 ^ 2 - 1) from rfl, hand]
    omega
  generalize hbs : losMemboxAlligned (add32 blkSize osMemboxNodeHeadSize) = bs at hinit hbs4 hbslt ⊢
  have hsz : uwBlkSize (store32 m pool bs) pool = bs := load32_store32_same _ _ _ hbslt
  rw [hsz] at hinit ⊢
  by_cases hbs0 : bs = 0
  · rw [if_pos hbs0] at hinit
    exact absurd hinit hbad
  rw [if_neg hbs0] at hinit ⊢
  have hdiv := Nat.div_mul_le_self (poolSize - 16) bs
  have hdivlt := Nat.div_le_self (poolSize - 16) bs
  generalize (poolSize - 16) / bs = n at hdiv hdivlt hinit ⊢
  have hnum : uwBlkNum (store32 (store32 (store32 m pool bs) (pool + 4) n) (pool + 8) 0) pool = n := by
    rw [uwBlkNum, load32_store32_apart _ _ _ _ (by omega), load32_store32_same _ _ _ (by omega)]
  rw [hnum] at hinit ⊢
  by_cases hn0 : n = 0
  · rw [if_pos hn0] at hinit
    exact absurd hinit hbad
  rw [if_neg hn0]
  generalize hm3 : store32 (store32 (store32 m pool bs) (pool + 4) n) (pool + 8) 0 = m3 at hnum ⊢
  have hw : uwBlkSize (store32 m3 (pool + 12) (pool + 16)) pool = bs := by
    rw [← hm3, uwBlkSize, load32_store32_apart _ _ _ _ (by omega),
      load32_store32_apart _ _ _ _ (by omega), load32_store32_apart _ _ _ _ (by omega),
      load32_store32_same _ _ _ (by omega)]
  have hnum' : uwBlkNum (store32 m3 (pool + 12) (pool + 16)) pool = n := by
    rw [uwBlkNum, load32_store32_apart _ _ _ _ (by omega)]
    exact hnum
  have hcnt : uwBlkCnt (store32 m3 (pool + 12) (pool + 16)) pool = 0 := by
    rw [← hm3, uwBlkCnt, load32_store32_apart _ _ _ _ (by omega),
      load32_store32_same _ _ _ (by omega)]
  rw [hw, hnum']
  have hlast : (n - 1) * bs + bs = n * bs := by
    rw [← Nat.succ_mul]
    congr 1
    omega
  obtain ⟨hwalk, hkeep⟩ := memboxLinkNodes_walk (n - 1) (store32 m3 (pool + 12) (pool + 16))
    (pool + 16) (by omega) (show 4 ≤ bs by omega) (by omega)
  rw [Nat.sub_add_cancel (by omega)] at hwalk
  generalize store32 (memboxLinkNodes (store32 m3 (pool + 12) (pool + 16)) (pool + 16) bs
    (n - 1)).1 (memboxLinkNodes (store32 m3 (pool + 12) (pool + 16)) (pool + 16) bs (n - 1)).2 0
    = mf at hwalk hkeep ⊢
  have hword : ∀ i, i + 4 ≤ 16 → load32 mf (pool + i) =
      load32 (store32 m3 (pool + 12) (pool + 16)) (pool + i) := fun i hi =>
    load32_congr _ _ _ fun x _ hx => hkeep x (by omega)
  refine ⟨bs, n, rfl, hb0, h0, by omega, by omega, by omega, ?_, ?_, ?_, ?_, ?_, fun x hx => by cases hx⟩
  · exact (hword 0 (by omega)).trans hw
  · exact (hword 4 (by omega)).trans hnum'
  · exact (hword 8 (by omega)).trans hcnt
  · rw [stFreeList, hword 12 (by omega), load32_store32_same _ _ _ (by omega)]
    exact hwalk
  · rw [List.append_nil]

theorem boxInv_run {bs n : Nat} {s t : BoxState} {ops : List BoxOp}
    (g : Geometry pool poolSize bs n tskLimit) (hs : BoxInv pool bs n tskLimit s)
    (hrun : Run (BoxStep tskLimit pool poolSize) s ops t) : BoxInv pool bs n tskLimit t :=
  run_invariant (BoxInv pool bs n tskLimit) (fun _ a _ hI hstep => boxStep_inv g a hI hstep) hrun hs

end

/-- After `LOS_MemboxInit` and any sequence of calls, provided that no block sits at an
address that reads as the magic value. -/
theorem losMembox_integrity (tskLimit pool poolSize blkSize : Nat) (m : Memory)
    (hlimit : tskLimit < 255) (hblk : blkSize < 2147483648)
    (hpool : pool + poolSize ≤ 4294967296)
    (hinit : (losMemboxInit m pool poolSize blkSize).2 = losOk)
    (hmagic : ∀ x ∈ nodes pool (uwBlkSize (losMemboxInit m pool poolSize blkSize).1 pool)
      (uwBlkNum (losMemboxInit m pool poolSize blkSize).1 pool),
      ∀ taskID ≤ tskLimit + 1, x ≠ osMemboxMagic ||| taskID)
    (ops : List BoxOp) (t : BoxState)
    (hrun : Run (BoxStep tskLimit pool poolSize)
      ⟨(losMemboxInit m pool poolSize blkSize).1, []⟩ ops t) :
    ∃ free, Integrity tskLimit pool poolSize t free := by
  obtain ⟨bs, n, hbs, hb0, h0, _, h1, hfits, hrep⟩ := losMemboxInit_rep tskLimit hpool hinit
  have h8 : 8 ≤ bs := by
    rw [losMemboxAlligned_eq blkSize (by omega)] at hbs
    omega
  rw [hrep.size, hrep.num] at hmagic
  have g : Geometry pool poolSize bs n tskLimit := ⟨h0, h8, h1, hfits, hpool, hlimit, hmagic⟩
  have hinv : BoxInv pool bs n tskLimit ⟨(losMemboxInit m pool poolSize blkSize).1, []⟩ :=
    ⟨nodes pool bs n, [], hrep, rfl⟩
  exact (boxInv_run g hinv hrun).integrity g

/-- Three blocks of 16 bytes at address 4096. -/
def smallBox : Memory := (losMemboxInit (fun _ => 0) 4096 64 12).1

theorem smallBox_nodes :
    nodes 4096 (uwBlkSize smallBox 4096) (uwBlkNum smallBox 4096) = [4112, 4128, 4144] := by
  decide +kernel

/-- An allocation and the free of an address that was never handed out. -/
theorem losMembox_integrity_smallBox :
    ∃ ops t free, ops.length = 2 ∧ Run (BoxStep 15 4096 64) ⟨smallBox, []⟩ ops t ∧
      Integrity 15 4096 64 t free := by
  have hrun := run_append
    (run_single (BoxStep.alloc ⟨smallBox, []⟩ 3 (by decide) : BoxStep 15 4096 64 _ _ _))
    (run_single (BoxStep.free _ 4132 (by decide)))
  have hmagic : ∀ x ∈ nodes 4096 (uwBlkSize smallBox 4096) (uwBlkNum smallBox 4096),
      ∀ taskID ≤ 15 + 1, x ≠ osMemboxMagic ||| taskID := by
    rw [smallBox_nodes]
    intro x hx taskID ht
    rw [magic_or taskID (by omega)]
    simp only [List.mem_cons, List.not_mem_nil, or_false] at hx
    omega
  obtain ⟨free, h⟩ := losMembox_integrity 15 4096 64 12 (fun _ => 0) (by decide) (by decide)
    (by decide) (by decide +kernel) hmagic _ _ hrun
  exact ⟨_, _, free, rfl, hrun, h⟩

end LiteosM.Membox
