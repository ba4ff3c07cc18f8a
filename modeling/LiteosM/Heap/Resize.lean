import LiteosM.Heap.WellFormed

/-!
# Resizing and the data

`LOS_MemRealloc` works on the payload of the node, not on the pointer it is
given. For a pointer behind a gap the two differ, and what the caller finds at
the new pointer are the bytes from the start of the payload.
-/

namespace LiteosM.Heap
open Lib.ByteMemory Lib.Word32 Lib.LinkedList Lib.Transition

/-- What a resize of the block at `p` to `n` bytes promises its owner, who asked
for `old` bytes. A size of 0 is a release. -/
structure ReallocKeeps (pool size : Nat) (m : Memory) (p old n : Nat) (r : Memory × Nat) :
    Prop where
  moved : r.2 ≠ 0 → ∃ v' c, Rep pool size r.1 v' [] ∧ c ∈ v'.blocks ∧ c.owner = some r.2 ∧
    ∀ i, i < old → i < n → r.1 (r.2 + i) = m (p + i)
  failed : n ≠ 0 → r.2 = 0 → r.1 = m ∧ (losMemFree r.1 pool p).2 = losOk

/-- A resize that has to move offers no less room than the node had. -/
def CopyFits (m : Memory) (pool node n : Nat) : Prop :=
  let nodeSize := osMemNodeGetSize (sizeAndFlag m node)
  let found := (osMemFindNextSuitableBlock m pool (allocSizeOf n)).1
  nodeSize < allocSizeOf n → ¬growsIntoNext m node n → found ≠ 0 →
    nodeSize ≤ osMemNodeGetSize (sizeAndFlag m found)

section
variable {pool size : Nat} {m : Memory} {v : Arena} {b : Block}

theorem CopyFits.moveFits (h : Rep pool size m v []) (hb : b ∈ v.blocks) (n k : Nat)
    (hk : k + 8 ≤ b.size) (hfit : CopyFits m pool b.addr n) (hsmall : b.size < allocSizeOf n)
    (hgrow : ¬growsIntoNext m b.addr n) : MoveFits m v pool n k b := by
  have hsize := (h.node_flags hb).1
  intro a ha haddr
  have hab := h.layout.bounds a ha
  unfold CopyFits at hfit
  simp only [hsize, ← haddr, (h.node_flags ha).1] at hfit
  have hle := hfit hsmall hgrow (by omega)
  omega

theorem copyFits_orderly (h : Rep pool size m v []) (hb : b ∈ v.blocks) (n : Nat) (h8 : 8 ≤ n)
    (hn : n < 1073741824) (ho : Orderly size (allocSizeOf n)) : CopyFits m pool b.addr n := by
  have hbds := allocSizeOf_bounds n
  unfold CopyFits
  simp only [(h.node_flags hb).1]
  intro hsmall _ hne
  obtain hz | ⟨a, ha, haddr, _⟩ :=
    osMemFindNextSuitableBlock_spec h (allocSizeOf n) (by omega) (by omega) (by omega)
  · exact absurd hz hne
  · have hfits := moveFits_orderly h n h8 hn hsmall ho a ha haddr
    rw [← haddr, (h.node_flags ha).1]
    exact hfits.1

/-- A resize keeps its promises exactly when it is refused or the payload starts
with the bytes at the pointer, as it does without a gap. -/
theorem losMemRealloc_keeps (h : Rep pool size m v []) (hend : pool + size < 4294967296)
    (hb : b ∈ v.blocks) (p : Nat) (hown : b.owner = some p) (old : Nat)
    (hold : p + old ≤ b.addr + b.size) (n : Nat) (hn : n < 4294967296)
    (hfit : CopyFits m pool b.addr (max n 8)) :
    ReallocKeeps pool size m p old n (losMemRealloc m pool p n) ↔
      (ReallocServes m pool b.addr n →
        ∀ i, i < old → i < n → m (osGetRealPtr m pool p + i) = m (p + i)) := by
  have hin := b.inside p hown
  have hbr := b.room
  have hreal := osGetRealPtr_owned h p hb hown
  rw [hreal]
  by_cases hn0 : n = 0
  · have hzero := losMemRealloc_zero h p (by omega)
    refine iff_of_true ⟨fun hne => ?_, fun h0 => absurd hn0 h0⟩ fun hserves => absurd hn0 hserves.1
    rw [hn0, hzero] at hne
    exact absurd rfl hne
  · obtain ⟨hz, hserves⟩ | ⟨hserves, v', c, hres, _⟩ :=
      losMemRealloc_cases h hb p hown n hn0 hn (min (max n 8) (b.size - 8)) (min_le_left _ _)
        fun _ hsmall hgrow => hfit.moveFits h hb _ _ (by omega) hsmall hgrow
    · refine iff_of_true ⟨fun hne => ?_, fun _ _ => ?_⟩ fun hs => absurd hs (hserves hend)
      · rw [hz] at hne
        exact absurd rfl hne
      · rw [hz]
        exact ⟨rfl, losMemFree_owned_ok h hend p hb hown⟩
    · have hbase := hres.base
      constructor
      · intro hkeeps _ i hi hin
        obtain ⟨_, _, _, _, _, hbytes⟩ := hkeeps.moved (by omega)
        exact (hres.bytes i (by omega) (by omega)).symm.trans (hbytes i hi hin)
      · intro hsame
        refine ⟨fun _ => ⟨v', c, hres.rep, hres.mem, hres.owner, fun i hi hin => ?_⟩,
          fun _ hz => by omega⟩
        exact (hres.bytes i (by omega) (by omega)).trans (hsame hserves i hi hin)

end

theorem firstPool_block (ops : List HeapOp) (t : HeapState)
    (hrun : Run (HeapStep 4096 1024) ⟨firstPool.mem, fun _ => none⟩ ops t) (p : Nat) (r : Request)
    (hlive : t.live p = some r) : ∃ v b, Rep 4096 1024 t.mem v [] ∧ b ∈ v.blocks ∧
      b.owner = some p ∧ p + r.size ≤ b.addr + b.size := by
  have hinit := heapInv_init 1 zeroState firstPool (by omega) (by omega) (by omega)
    (fun q hq => (zeroState_registered q hq).elim) losMemInit_firstPool
  obtain ⟨v, hv, hholds⟩ := heapInv_run _ t ops (by omega) hinit hrun
  obtain ⟨b, hb, ho, hs, _⟩ := hholds p r hlive
  exact ⟨v, b, hv, hb, ho, hs⟩

/-- The first pool after `LOS_MemAllocAlign(8, 32)` and a store to its first byte. -/
def gappedPool : Memory := store8 (losMemAllocAlign firstPool.mem 4096 8 32).1 5056 1

theorem gappedPool_live : ∃ v b, Rep 4096 1024 gappedPool v [] ∧ b ∈ v.blocks ∧
    b.owner = some 5056 ∧ 5056 + 8 ≤ b.addr + b.size := by
  have hptr : (losMemAllocAlign firstPool.mem 4096 8 32).2 = 5056 := by decide +kernel
  have hlive : grant (fun _ => none) (losMemAllocAlign firstPool.mem 4096 8 32).2 ⟨8, 32⟩ 5056 =
      some ⟨8, 32⟩ := by
    rw [hptr]
    rfl
  have hwrite : HeapStep 4096 1024 ⟨(losMemAllocAlign firstPool.mem 4096 8 32).1,
      grant (fun _ => none) (losMemAllocAlign firstPool.mem 4096 8 32).2 ⟨8, 32⟩⟩
      (.write 5056 1) _ :=
    HeapStep.write _ 5056 1 (Or.inl ⟨5056, ⟨8, 32⟩, hlive, le_refl _, by show 5056 < 5056 + 8; omega⟩)
  exact firstPool_block _ _ (run_append (run_single (HeapStep.allocAlign _ 8 32))
    (run_single hwrite)) 5056 ⟨8, 32⟩ hlive

/-- Shrinking it to the 8 bytes asked for returns another pointer, without the byte. -/
theorem losMemRealloc_gap_loses : ∃ v b, Rep 4096 1024 gappedPool v [] ∧ b ∈ v.blocks ∧
    b.owner = some 5056 ∧ 5056 + 8 ≤ b.addr + b.size ∧
    ¬ReallocKeeps 4096 1024 gappedPool 5056 8 8 (losMemRealloc gappedPool 4096 5056 8) := by
  obtain ⟨v, b, hv, hb, ho, hs⟩ := gappedPool_live
  refine ⟨v, b, hv, hb, ho, hs, fun hkeeps => ?_⟩
  have hptr : (losMemRealloc gappedPool 4096 5056 8).2 = 5048 := by decide +kernel
  obtain ⟨_, _, _, _, _, hbytes⟩ := hkeeps.moved (by rw [hptr]; omega)
  have hbyte := hbytes 0 (by omega) (by omega)
  rw [hptr] at hbyte
  revert hbyte
  decide +kernel

/-- Two blocks of 8 bytes, and a store to the first byte of each. -/
def pairPool : Memory :=
  store8 (store8 (losMemAlloc (losMemAlloc firstPool.mem 4096 8).1 4096 8).1 5048 7) 5064 9

theorem pairPool_live (p : Nat) (hp : p = 5048 ∨ p = 5064) : ∃ v b, Rep 4096 1024 pairPool v [] ∧
    b ∈ v.blocks ∧ b.owner = some p ∧ p + 8 ≤ b.addr + b.size := by
  have hfst : (losMemAlloc firstPool.mem 4096 8).2 = 5048 := by decide +kernel
  have hsnd : (losMemAlloc (losMemAlloc firstPool.mem 4096 8).1 4096 8).2 = 5064 := by
    decide +kernel
  let live := grant (grant (fun _ => none) (losMemAlloc firstPool.mem 4096 8).2 ⟨8, 4⟩)
    (losMemAlloc (losMemAlloc firstPool.mem 4096 8).1 4096 8).2 ⟨8, 4⟩
  have hlive : ∀ q, q = 5048 ∨ q = 5064 → live q = some ⟨8, 4⟩ := by
    simp only [live, hfst, hsnd]
    rintro q (rfl | rfl) <;> rfl
  have hinside : ∀ q, q = 5048 ∨ q = 5064 → InPayload live q := fun q hq =>
    ⟨q, ⟨8, 4⟩, hlive q hq, le_refl _, by show q < q + 8; omega⟩
  have hrun := run_append (run_append (run_append
    (run_single (HeapStep.alloc ⟨firstPool.mem, fun _ => none⟩ 8 : HeapStep 4096 1024 _ _ _))
    (run_single (HeapStep.alloc _ 8)))
    (run_single (HeapStep.write _ 5048 7 (Or.inl (hinside 5048 (Or.inl rfl))))))
    (run_single (HeapStep.write _ 5064 9 (Or.inl (hinside 5064 (Or.inr rfl)))))
  exact firstPool_block _ _ hrun p ⟨8, 4⟩ (hlive p hp)

/-- One block of 64 bytes takes the whole pool. -/
def fullPool : Memory := (losMemAlloc firstPool.mem 4096 64).1

theorem fullPool_live : ∃ v b, Rep 4096 1024 fullPool v [] ∧ b ∈ v.blocks ∧
    b.owner = some 5048 ∧ 5048 + 64 ≤ b.addr + b.size := by
  have hptr : (losMemAlloc firstPool.mem 4096 64).2 = 5048 := by decide +kernel
  refine firstPool_block _ _ (run_single (HeapStep.alloc _ 64)) 5048 ⟨64, 4⟩ ?_
  show grant (fun _ => none) (losMemAlloc firstPool.mem 4096 64).2 ⟨64, 4⟩ 5048 = _
  rw [hptr]
  rfl

/-- The first of them moves behind the second, the second grows where it is, and a
block of 64 bytes shrinks to 8. -/
theorem losMemRealloc_keeps_firstPool :
    (ReallocKeeps 4096 1024 pairPool 5048 8 24 (losMemRealloc pairPool 4096 5048 24) ∧
      (losMemRealloc pairPool 4096 5048 24).2 = 5080 ∧
      (losMemRealloc pairPool 4096 5048 24).1 5080 = 7) ∧
    (ReallocKeeps 4096 1024 pairPool 5064 8 24 (losMemRealloc pairPool 4096 5064 24) ∧
      (losMemRealloc pairPool 4096 5064 24).2 = 5064 ∧
      (losMemRealloc pairPool 4096 5064 24).1 5064 = 9) ∧
    ReallocKeeps 4096 1024 fullPool 5048 64 8 (losMemRealloc fullPool 4096 5048 8) ∧
      (losMemRealloc fullPool 4096 5048 8).2 = 5048 ∧
      osMemNodeGetSize (sizeAndFlag (losMemRealloc fullPool 4096 5048 8).1 5040) = 16 := by
  have hpair : ∀ p, p = 5048 ∨ p = 5064 →
      ReallocKeeps 4096 1024 pairPool p 8 24 (losMemRealloc pairPool 4096 p 24) := by
    intro p hp
    obtain ⟨v, b, hv, hb, ho, hs⟩ := pairPool_live p hp
    have hreal : osGetRealPtr pairPool 4096 p = p := by
      rcases hp with rfl | rfl <;> decide +kernel
    refine (losMemRealloc_keeps hv (by omega) hb p ho 8 hs 24 (by omega) ?_).mpr
      fun _ i _ _ => by rw [hreal]
    exact copyFits_orderly hv hb _ (by omega) (by omega) (Or.inr (by omega))
  obtain ⟨v, b, hv, hb, ho, hs⟩ := fullPool_live
  have hreal : osGetRealPtr fullPool 4096 5048 = 5048 := by decide +kernel
  refine ⟨⟨hpair 5048 (Or.inl rfl), by decide +kernel⟩, ⟨hpair 5064 (Or.inr rfl), by decide +kernel⟩,
    (losMemRealloc_keeps hv (by omega) hb 5048 ho 64 hs 8 (by omega) ?_).mpr
      fun _ i _ _ => by rw [hreal], by decide +kernel⟩
  exact copyFits_orderly hv hb _ (by omega) (by omega) (Or.inr (by omega))

end LiteosM.Heap
