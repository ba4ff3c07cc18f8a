import LiteosM.Cmsis.PoolIntegrity

/-!
# Where the blocks of a CMSIS memory pool lie

What `osMemoryPoolNew` makes, and what it leaves when it refuses, against the sizes it is given.
-/

namespace LiteosM.Cmsis

open LiteosM.Lib.ByteMemory LiteosM.Lib.Word32 LiteosM.Lib.Transition LiteosM.Membox

/-- The pool has `blockCount` blocks of `blockSize` bytes, apart and inside of it, and an allocation
returns exactly these. `m` is the memory before the pool was made. -/
structure PoolGeometry (m : Memory) (mpId blockCount blockSize : Nat) (s : PoolState) : Prop where
  bytes : s.mp.poolSize = blockCount * blockSize
  blocks : ∀ b, (b ≠ 0 ∧ ∃ ops t, Run (PoolUse mpId) s ops t ∧ (osMemoryPoolAlloc t.mem mpId t.mp).2 = b) ↔
    ∃ i < blockCount, b = s.mp.poolBase + i * blockSize
  inside : ∀ i < blockCount,
    s.mp.poolBase + i * blockSize + blockSize ≤ s.mp.poolBase + s.mp.poolSize
  apart : ∀ i j, i < j → s.mp.poolBase + i * blockSize + blockSize ≤ s.mp.poolBase + j * blockSize
  outside : ∀ x, x < s.mp.poolBase ∨ s.mp.poolBase + s.mp.poolSize ≤ x → s.mem x = m x

def CallerOwns (attr : Option PoolAttr) (p : Nat) : Prop :=
  ∃ a, attr = some a ∧ (p = a.cbMem ∨ p = a.mpMem)

/-- The answer is a pool as it was asked for, or the heap is as it was and nothing of the caller's has
been freed. -/
def NewRight (h : SysHeap) (m : Memory) (intActive : Bool) (blockCount blockSize : Nat)
    (attr : Option PoolAttr) (cbBlock mpBlock : Nat) : Prop :=
  match osMemoryPoolNew h m intActive blockCount blockSize attr cbBlock mpBlock with
  | (_, m', some (mpId, mp)) => PoolGeometry m mpId blockCount blockSize ⟨mp, m', []⟩
  | (h', _, none) => h'.blocks = h.blocks ∧
      ∃ l, h'.freed = l ++ h.freed ∧ ∀ p ∈ l, ¬ CallerOwns attr p

/-- An accepted size does not overflow and the blocks have room for a link. A control block of the
caller comes with memory for the pool, of the caller's or from the heap. -/
def NewFits (intActive : Bool) (blockCount blockSize : Nat) (attr : Option PoolAttr)
    (cbBlock mpBlock : Nat) : Prop :=
  intActive = false → blockCount ≠ 0 → blockSize ≠ 0 → cbAt attr cbBlock ≠ 0 →
    if baseAt attr (poolBytes blockCount blockSize) mpBlock = 0 then cbGiven attr = false
    else blockCount * blockSize < 4294967296 ∧ 4 ≤ blockSize

section

variable {base bs n mpId : Nat} {s : PoolState} {free l₁ l₂ : List Nat} {m : Memory} {b : Nat}

/-! ### The links -/

theorem memboxLinkNodes_above (count a : Nat) (m : Memory) (h4 : 4 ≤ bs)
    (hin : a + count * bs + bs ≤ 4294967296) {x : Nat} (hx : a + count * bs + bs ≤ x) :
    store32 (memboxLinkNodes m a bs count).1 (memboxLinkNodes m a bs count).2 0 x = m x := by
  induction count generalizing m a with
  | zero =>
    rw [memboxLinkNodes]
    exact store32_outside _ _ _ _ (by omega)
  | succ count ih =>
    rw [Nat.succ_mul] at hin hx
    have hadd : add32 a bs = a + bs := add32_of_lt _ _ (by omega)
    have hnext : pstNext (store32 m a (a + bs)) a = a + bs := load32_store32_same _ _ _ (by omega)
    rw [memboxLinkNodes, hadd, hnext, ih (a + bs) _ (by omega) (by omega)]
    exact store32_outside _ _ _ _ (by omega)

theorem memboxLinkNodes_last (count a : Nat) (m : Memory) (hin : a + count * bs < 4294967296) :
    (memboxLinkNodes m a bs count).2 = a + count * bs := by
  induction count generalizing m a with
  | zero =>
    rw [memboxLinkNodes, Nat.zero_mul]
    rfl
  | succ count ih =>
    rw [Nat.succ_mul] at hin ⊢
    have hadd : add32 a bs = a + bs := add32_of_lt _ _ (by omega)
    have hnext : pstNext (store32 m a (a + bs)) a = a + bs := load32_store32_same _ _ _ (by omega)
    rw [memboxLinkNodes, hadd, hnext, ih (a + bs) _ (by omega)]
    omega

/-! ### The blocks -/

theorem alloc_reaches (g : PoolFits base bs n) (hid : mpId ≠ 0)
    (h : PoolRep base bs n s (l₁ ++ b :: l₂)) :
    ∃ ops t, Run (PoolUse mpId) s ops t ∧ (osMemoryPoolAlloc t.mem mpId t.mp).2 = b := by
  induction l₁ generalizing s with
  | nil =>
    obtain ⟨hnil, -⟩ | ⟨c, l, hlist, -, hres, -⟩ := osMemoryPoolAlloc_spec h g hid
    · cases hnil
    · cases hlist
      exact ⟨[], s, Run.nil, hres⟩
  | cons a l₁ ih =>
    obtain ⟨hnil, -⟩ | ⟨c, l, hlist, hc, hres, hrep⟩ := osMemoryPoolAlloc_spec h g hid
    · cases hnil
    · cases hlist
      have hafter : PoolRep base bs n (s.afterAlloc mpId) (l₁ ++ b :: l₂) := by
        unfold PoolState.afterAlloc
        dsimp only
        rw [hres, if_neg hc]
        exact hrep
      obtain ⟨ops, t, hrun, ht⟩ := ih hafter
      exact ⟨.alloc :: ops, t, run_append (run_single ⟨.alloc s, nofun⟩) hrun, ht⟩

theorem linkPool_geometry (g : PoolFits base bs n) (hid : mpId ≠ 0) (m : Memory) (status : Nat) :
    PoolGeometry m mpId n bs ⟨(linkPool m base (n * bs) n bs status).2,
      (linkPool m base (n * bs) n bs status).1, []⟩ := by
  have hrep := linkPool_rep g m status
  constructor
  · exact hrep.bytes
  · intro b
    rw [hrep.start, ← mem_poolBlocks]
    constructor
    · intro ⟨hb, ops, t, hrun, ht⟩
      obtain ⟨free, hrep'⟩ := poolRun_rep hrep g hid hrun
      obtain ⟨-, hnone⟩ | ⟨c, l, hfree, -, hres, -⟩ := osMemoryPoolAlloc_spec hrep' g hid
      · rw [hnone] at ht
        exact absurd ht.symm hb
      · rw [← ht, hres]
        apply hrep'.mem_free
        rw [hfree]
        exact List.mem_cons_self
    · intro hb
      have hin := poolBlocks_inside hb
      have hnonzero := g.nonzero
      refine ⟨by omega, ?_⟩
      obtain ⟨l₁, l₂, hlist⟩ := List.append_of_mem hb
      rw [hlist] at hrep
      exact alloc_reaches g hid hrep
  · intro i hi
    have hmul := mul_apart bs hi
    rw [hrep.start, hrep.bytes]
    omega
  · intro i j hij
    have hmul := mul_apart bs hij
    omega
  · intro x hx
    rw [hrep.start, hrep.bytes] at hx
    have hone := g.one
    have hinside := g.inside
    have hsize := g.size
    obtain ⟨k, rfl⟩ : ∃ k, n = k + 1 := ⟨n - 1, by omega⟩
    rw [Nat.succ_mul] at hx hinside
    cases hx with
    | inl hbelow => exact (memboxLinkNodes_walk k m base g.nonzero g.size (by omega)).2 x hbelow
    | inr habove => exact memboxLinkNodes_above k base m g.size (by omega) (by omega)

/-- The link in the last block of less than four bytes reaches beyond the pool. -/
theorem linkPool_beyond {status : Nat} (hone : 1 ≤ n) (hbs : bs < 4)
    (hinside : base + n * bs < 4294967296) :
    (linkPool (fun _ => 1) base (n * bs) n bs status).1 (base + n * bs) = 0 := by
  obtain ⟨k, rfl⟩ : ∃ k, n = k + 1 := ⟨n - 1, by omega⟩
  rw [Nat.succ_mul] at hinside ⊢
  have hlast : (memboxLinkNodes (fun _ => 1) base bs k).2 = base + k * bs :=
    memboxLinkNodes_last k base (fun _ => 1) (by omega)
  show store32 (memboxLinkNodes (fun _ => 1) base bs k).1
    (memboxLinkNodes (fun _ => 1) base bs k).2 0 (base + (k * bs + bs)) = 0
  rw [hlast]
  unfold store32
  rw [if_pos (by omega)]
  exact Fin.ext (by simp [byteOf])

/-! ### The outcomes -/

variable {h : SysHeap} {intActive : Bool} {blockCount blockSize cbBlock mpBlock : Nat}
  {attr : Option PoolAttr}

theorem cbGiven_some (hgiven : cbGiven attr = true) : ∃ a, attr = some a ∧ a.cbMem ≠ 0 := by
  cases attr with
  | none => cases hgiven
  | some a =>
    have hgiven : (a.cbMem ≠ 0 && decide (memPoolCBSize ≤ a.cbSize)) = true := hgiven
    rw [Bool.and_eq_true] at hgiven
    exact ⟨a, rfl, of_decide_eq_true hgiven.1⟩

theorem heapAfter_cbZero (hcb : cbAt attr cbBlock = 0) : heapAfter h (cbGiven attr) cbBlock = h := by
  unfold cbAt at hcb
  cases hgiven : cbGiven attr with
  | true => rfl
  | false =>
    rw [hgiven, if_neg (by simp)] at hcb
    rw [hcb]
    rfl

theorem heapAfter_baseZero {size : Nat} (hbase : baseAt attr size mpBlock = 0) :
    heapAfter h (mpGiven attr size) mpBlock = h := by
  unfold baseAt at hbase
  cases hgiven : mpGiven attr size with
  | true => rfl
  | false =>
    rw [hgiven, if_neg (by simp)] at hbase
    rw [hbase]
    rfl

theorem freed_right (hfresh : cbBlock ≠ 0 → h.blocks cbBlock = false ∧ ¬ CallerOwns attr cbBlock)
    (hcb : cbAt attr cbBlock ≠ 0) :
    ((((heapAfter h (cbGiven attr) cbBlock).losMemFree (cbAt attr cbBlock)).blocks = h.blocks ∧
      ∃ l, ((heapAfter h (cbGiven attr) cbBlock).losMemFree (cbAt attr cbBlock)).freed = l ++ h.freed ∧
        ∀ p ∈ l, ¬ CallerOwns attr p)) ↔ cbGiven attr = false := by
  cases hgiven : cbGiven attr with
  | true =>
    obtain ⟨a, rfl, -⟩ := cbGiven_some hgiven
    apply iff_of_false _ (by simp)
    intro ⟨_, l, hfreed, hl⟩
    have hcbAt : cbAt (some a) cbBlock = a.cbMem := by
      rw [cbAt, hgiven, if_pos rfl]
      rfl
    have hlist : [a.cbMem] ++ h.freed = l ++ h.freed := by
      rw [← hfreed, hcbAt]
      rfl
    apply hl a.cbMem
    · rw [← List.append_cancel_right hlist]
      exact List.mem_singleton_self _
    · exact ⟨a, rfl, .inl rfl⟩
  | false =>
    have hcbAt : cbAt attr cbBlock = cbBlock := by
      rw [cbAt, hgiven]
      rfl
    rw [hcbAt] at hcb ⊢
    obtain ⟨hblock, howner⟩ := hfresh hcb
    apply iff_of_true _ rfl
    simp only [heapAfter, SysHeap.losMemAlloc, SysHeap.losMemFree, if_neg hcb, Bool.false_eq_true,
      if_false]
    refine ⟨?_, [cbBlock], rfl, ?_⟩
    · rw [Function.update_idem, ← hblock, Function.update_eq_self]
    · intro p hp
      rw [List.mem_singleton.mp hp]
      exact howner

/-- A call is right, whatever the memory holds, if and only if the sizes fit. -/
theorem osMemoryPoolNew_geometry
    (hfresh : cbBlock ≠ 0 → h.blocks cbBlock = false ∧ ¬ CallerOwns attr cbBlock)
    (hmem : baseAt attr (poolBytes blockCount blockSize) mpBlock + poolBytes blockCount blockSize <
      4294967296) :
    (∀ m, NewRight h m intActive blockCount blockSize attr cbBlock mpBlock) ↔
      NewFits intActive blockCount blockSize attr cbBlock mpBlock := by
  have hkept : h.blocks = h.blocks ∧ ∃ l, h.freed = l ++ h.freed ∧ ∀ p ∈ l, ¬ CallerOwns attr p :=
    ⟨rfl, [], rfl, fun _ h => (by cases h)⟩
  cases intActive with
  | true => exact iff_of_true (fun m => hkept) fun h => (by cases h)
  | false =>
    by_cases hcount : blockCount = 0
    · subst hcount
      exact iff_of_true (fun m => hkept) fun _ h => absurd rfl h
    by_cases hsize : blockSize = 0
    · subst hsize
      refine iff_of_true (fun m => ?_) fun _ _ h => absurd rfl h
      rw [NewRight, osMemoryPoolNew, if_neg (by simp), if_pos (.inr rfl)]
      exact hkept
    have hnew : ∀ m, NewRight h m false blockCount blockSize attr cbBlock mpBlock ↔ _ := fun m =>
      iff_of_eq (by rw [NewRight, osMemoryPoolNew_eq hcount hsize rfl])
    by_cases hcb : cbAt attr cbBlock = 0
    · refine iff_of_true (fun m => ?_) fun _ _ _ h => absurd hcb h
      rw [hnew, if_pos hcb, heapAfter_cbZero hcb]
      exact hkept
    by_cases hbase : baseAt attr (poolBytes blockCount blockSize) mpBlock = 0
    · have hfits : NewFits false blockCount blockSize attr cbBlock mpBlock ↔ cbGiven attr = false := by
        rw [NewFits, if_pos hbase]
        exact ⟨fun h => h rfl hcount hsize hcb, fun h _ _ _ _ => h⟩
      have hright : ∀ m, NewRight h m false blockCount blockSize attr cbBlock mpBlock ↔
          cbGiven attr = false := by
        intro m
        rw [hnew, if_neg hcb, if_pos hbase, heapAfter_baseZero hbase]
        exact freed_right hfresh hcb
      rw [hfits]
      exact ⟨fun h => (hright (fun _ => 0)).mp (h _), fun h m => (hright m).mpr h⟩
    · have hfits : NewFits false blockCount blockSize attr cbBlock mpBlock ↔
          blockCount * blockSize < 4294967296 ∧ 4 ≤ blockSize := by
        rw [NewFits, if_neg hbase]
        exact ⟨fun h => h rfl hcount hsize hcb, fun h _ _ _ _ => h⟩
      have hright : ∀ m, NewRight h m false blockCount blockSize attr cbBlock mpBlock ↔ _ := fun m =>
        (hnew m).trans (iff_of_eq (by rw [if_neg hcb, if_neg hbase]))
      rw [hfits]
      generalize baseAt attr (poolBytes blockCount blockSize) mpBlock = base at hmem hbase hright
      generalize statusOf attr (poolBytes blockCount blockSize) = status at hright
      have hexact : blockCount * blockSize < 4294967296 →
          poolBytes blockCount blockSize = blockCount * blockSize := Nat.mod_eq_of_lt
      constructor
      · intro h
        have hgeo := fun m => (hright m).mp (h m)
        have hbytes : poolBytes blockCount blockSize = blockCount * blockSize :=
          (hgeo fun _ => 0).bytes
        have hlt : blockCount * blockSize < 4294967296 := by
          rw [← hbytes]
          exact Nat.mod_lt _ (by decide)
        refine ⟨hlt, ?_⟩
        by_contra hsmall
        rw [hbytes] at hmem hgeo
        have hkeep := (hgeo fun _ => 1).outside (base + blockCount * blockSize) (.inr (Nat.le_refl _))
        have hzero := @linkPool_beyond base blockSize blockCount status (by omega) (by omega) hmem
        cases hzero.symm.trans hkeep
      · rintro ⟨hbytes, h4⟩ m
        rw [hexact hbytes] at hmem hright
        exact (hright m).mpr (linkPool_geometry ⟨hbase, h4, by omega, hmem⟩ hcb m status)

/-! ### Deletion -/

end

theorem osMemoryPoolNew_geometry_two :
    NewFits false 2 8 none 0x1000 0x2000 ∧ ∀ m, NewRight smallHeap m false 2 8 none 0x1000 0x2000 := by
  have hfresh : 0x1000 ≠ 0 → smallHeap.blocks 0x1000 = false ∧ ¬ CallerOwns none 0x1000 := by
    intro _
    refine ⟨rfl, ?_⟩
    intro ⟨a, ha, _⟩
    cases ha
  have hfits : NewFits false 2 8 none 0x1000 0x2000 := by
    intro _ _ _ _
    decide
  exact ⟨hfits, (osMemoryPoolNew_geometry hfresh (by decide)).mpr hfits⟩

/-- Two blocks of one byte, in memory full of ones. -/
def tinyPool : PoolState where
  mp := (linkPool (fun _ => 1) 0x2000 2 2 1 3).2
  mem := (linkPool (fun _ => 1) 0x2000 2 2 1 3).1
  outstanding := []

/-- With blocks of one byte the links reach beyond the pool, and the second allocation gives the
address 1. A size overflows, and a control block of the caller is freed. -/
theorem osMemoryPoolNew_wrong :
    ¬ NewRight smallHeap (fun _ => 1) false 2 1 none 0x1000 0x2000 ∧
    (∃ s, Run (PoolUse 0x1000) tinyPool [.alloc, .alloc] s ∧ s.outstanding = [1, 0x2000]) ∧
    (∃ h m mp, osMemoryPoolNew smallHeap blankMemory false 0x40000001 4 none 0x1000 0x2000 =
      (h, m, some (0x1000, mp)) ∧ mp.poolSize = 4) ∧
    ∃ h, osMemoryPoolNew smallHeap blankMemory false 2 8 (some ⟨0x5000, 32, 0, 0⟩) 0 0 =
      (h, blankMemory, none) ∧ h.freed = [0x5000] := by
  refine ⟨?_, ?_, ?_, ?_⟩
  · intro hright
    have hgeo : PoolGeometry (fun _ => 1) 0x1000 2 1 tinyPool := hright
    have hkept := hgeo.outside 0x2002 (.inr (by decide))
    have hzero : tinyPool.mem 0x2002 = 0 := by decide +kernel
    cases hzero.symm.trans hkept
  · have hone : Run (PoolUse 0x1000) tinyPool [.alloc] (tinyPool.afterAlloc 0x1000) :=
      run_single ⟨.alloc _, nofun⟩
    exact ⟨_, hone.snoc ⟨PoolStep.alloc _, nofun⟩, by decide +kernel⟩
  · rw [osMemoryPoolNew_eq (by decide) (by decide) rfl]
    exact ⟨_, _, _, rfl, rfl⟩
  · rw [osMemoryPoolNew_eq (by decide) (by decide) rfl]
    exact ⟨_, rfl, rfl⟩

end LiteosM.Cmsis
