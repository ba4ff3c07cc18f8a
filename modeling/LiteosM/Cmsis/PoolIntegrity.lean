import LiteosM.Cmsis.MemoryPool
import LiteosM.Membox.Integrity

/-!
# The blocks of a CMSIS memory pool

Every block is on the free list or handed out, as long as the program frees blocks that it holds.
-/

namespace LiteosM.Cmsis

open LiteosM.Lib.ByteMemory LiteosM.Lib.Word32 LiteosM.Lib.Transition LiteosM.Membox

def poolBlocks (base bs n : Nat) : List Nat := (List.range n).map fun i => base + i * bs

/-- The sizes of a pool whose blocks have room for a link. -/
structure PoolFits (base bs n : Nat) : Prop where
  nonzero : base ≠ 0
  size : 4 ≤ bs
  one : 1 ≤ n
  inside : base + n * bs < 4294967296

structure PoolRep (base bs n : Nat) (s : PoolState) (free : List Nat) : Prop where
  size : s.mp.uwBlkSize = bs
  num : s.mp.uwBlkNum = n
  cnt : s.mp.uwBlkCnt = s.outstanding.length
  start : s.mp.poolBase = base
  bytes : s.mp.poolSize = n * bs
  valid : poolValid s.mp = true
  walk : FreeWalk s.mem s.mp.stFreeList free
  blocks : (free ++ s.outstanding).Perm (poolBlocks base bs n)

section

variable {base bs n mpId x y : Nat} {s s' : PoolState} {free l : List Nat} {op : PoolOp}
  {ops : List PoolOp}

theorem mem_poolBlocks : x ∈ poolBlocks base bs n ↔ ∃ i < n, x = base + i * bs := by
  simp [poolBlocks, eq_comm]

theorem poolBlocks_inside (hx : x ∈ poolBlocks base bs n) : base ≤ x ∧ x + bs ≤ base + n * bs := by
  obtain ⟨i, hi, rfl⟩ := mem_poolBlocks.mp hx
  have hmul := mul_apart bs hi
  omega

theorem poolBlocks_apart (hx : x ∈ poolBlocks base bs n) (hy : y ∈ poolBlocks base bs n)
    (hne : x ≠ y) : x + bs ≤ y ∨ y + bs ≤ x := by
  obtain ⟨i, _, rfl⟩ := mem_poolBlocks.mp hx
  obtain ⟨j, _, rfl⟩ := mem_poolBlocks.mp hy
  cases Nat.lt_or_ge i j with
  | inl hij =>
    have hmul := mul_apart bs hij
    omega
  | inr hij =>
    have hne : j ≠ i := fun h => hne (by rw [h])
    have hmul := mul_apart bs (Nat.lt_of_le_of_ne hij hne)
    omega

theorem poolBlocks_nodup (g : PoolFits base bs n) : (poolBlocks base bs n).Nodup := by
  apply List.nodup_range.map_on
  intro i _ j _ hij
  have hsize := g.size
  apply Nat.eq_of_mul_eq_mul_right (show 0 < bs by omega)
  omega

theorem PoolRep.mem_free (h : PoolRep base bs n s free) (hx : x ∈ free) :
    x ∈ poolBlocks base bs n :=
  h.blocks.mem_iff.mp (List.mem_append_left _ hx)

theorem PoolRep.mem_out (h : PoolRep base bs n s free) (hx : x ∈ s.outstanding) :
    x ∈ poolBlocks base bs n :=
  h.blocks.mem_iff.mp (List.mem_append_right _ hx)

theorem PoolRep.nodup (h : PoolRep base bs n s free) (g : PoolFits base bs n) :
    (free ++ s.outstanding).Nodup :=
  h.blocks.nodup_iff.mpr (poolBlocks_nodup g)

theorem PoolRep.length (h : PoolRep base bs n s free) : free.length + s.outstanding.length = n := by
  have hlen := h.blocks.length_eq
  rw [List.length_append, poolBlocks, List.length_map, List.length_range] at hlen
  exact hlen

theorem PoolFits.count_lt (g : PoolFits base bs n) : n < 4294967295 := by
  have hsize := g.size
  have hinside := g.inside
  have hmul := Nat.mul_le_mul_left n hsize
  omega

theorem PoolRep.relink (h : PoolRep base bs n s free) {m : Memory} {head c : Nat}
    {out free' : List Nat} (hc : c = out.length) (hwalk : FreeWalk m head free')
    (hblocks : (free' ++ out).Perm (free ++ s.outstanding)) :
    PoolRep base bs n ⟨{ s.mp with stFreeList := head, uwBlkCnt := c }, m, out⟩ free' :=
  ⟨h.size, h.num, hc, h.start, h.bytes, h.valid, hwalk, hblocks.trans h.blocks⟩

/-! ### The calls -/

theorem osMemoryPoolAlloc_spec (h : PoolRep base bs n s free) (g : PoolFits base bs n)
    (hid : mpId ≠ 0) :
    (free = [] ∧ osMemoryPoolAlloc s.mem mpId s.mp = (s.mp, 0)) ∨
      ∃ b l, free = b :: l ∧ b ≠ 0 ∧ (osMemoryPoolAlloc s.mem mpId s.mp).2 = b ∧
        PoolRep base bs n ⟨(osMemoryPoolAlloc s.mem mpId s.mp).1, s.mem, b :: s.outstanding⟩ l := by
  have hwalk := h.walk
  have hblocks := h.blocks
  have hlen := h.length
  have hcount := g.count_lt
  rw [osMemoryPoolAlloc, if_neg hid, if_pos h.valid]
  dsimp only
  cases free with
  | nil =>
    left
    have hnull : s.mp.stFreeList = 0 := hwalk
    refine ⟨rfl, ?_⟩
    rw [if_neg (fun hne => hne hnull), hnull]
  | cons b l =>
    right
    obtain ⟨hhead, hb, hrest⟩ := hwalk
    rw [if_pos (by rw [hhead]; exact hb)]
    refine ⟨b, l, rfl, hb, hhead, ?_⟩
    apply h.relink
    · rw [h.cnt, add32_of_lt _ _ (by omega)]
      rfl
    · rw [hhead]
      exact hrest
    · exact List.perm_middle

theorem osMemoryPoolFree_outside (h : PoolRep base bs n s free) (g : PoolFits base bs n)
    (hid : mpId ≠ 0) (hx : x = 0 ∨ x < base ∨ base + n * bs ≤ x) :
    osMemoryPoolFree s.mem mpId s.mp x = (s.mem, s.mp, .osErrorParameter) := by
  have hend : add32 s.mp.poolBase s.mp.poolSize = base + n * bs := by
    rw [h.start, h.bytes]
    exact add32_of_lt _ _ g.inside
  rw [osMemoryPoolFree, hend, h.start, h.valid]
  by_cases hzero : x = 0
  · rw [if_pos (.inr hzero)]
  · rw [if_neg (not_or.mpr ⟨hid, hzero⟩), if_neg (by simp), if_pos (hx.resolve_left hzero)]

theorem osMemoryPoolFree_inside (h : PoolRep base bs n s free) (g : PoolFits base bs n)
    (hid : mpId ≠ 0) (hlow : base ≤ x) (hhigh : x < base + n * bs) :
    osMemoryPoolFree s.mem mpId s.mp x = (store32 s.mem x s.mp.stFreeList,
      { s.mp with stFreeList := x, uwBlkCnt := sub32 s.mp.uwBlkCnt 1 }, .osOK) := by
  have hend : add32 s.mp.poolBase s.mp.poolSize = base + n * bs := by
    rw [h.start, h.bytes]
    exact add32_of_lt _ _ g.inside
  have hnonzero := g.nonzero
  have hrange : ¬(x < s.mp.poolBase ∨ add32 s.mp.poolBase s.mp.poolSize ≤ x) := by
    rw [hend, h.start]
    omega
  rw [osMemoryPoolFree, if_neg (by omega), h.valid, if_neg (by simp), if_neg hrange]

theorem PoolRep.next_kept (h : PoolRep base bs n s free) (g : PoolFits base bs n) {m : Memory}
    (hx : x ∈ poolBlocks base bs n) (hxf : x ∉ free)
    (hm : ∀ a, a < x ∨ x + bs ≤ a → m a = s.mem a) : FreeWalk m s.mp.stFreeList free := by
  apply freeWalk_congr h.walk
  intro y hy
  have hsize := g.size
  have hne : x ≠ y := by
    intro heq
    subst heq
    exact hxf hy
  have hapart := poolBlocks_apart hx (h.mem_free hy) hne
  apply load32_congr
  intro a hlow hhigh
  apply hm
  omega

theorem osMemoryPoolFree_held (h : PoolRep base bs n s free) (g : PoolFits base bs n)
    (hid : mpId ≠ 0) (hx : x ∈ s.outstanding) :
    (osMemoryPoolFree s.mem mpId s.mp x).2.2 = .osOK ∧
      PoolRep base bs n ⟨(osMemoryPoolFree s.mem mpId s.mp x).2.1,
        (osMemoryPoolFree s.mem mpId s.mp x).1, s.outstanding.erase x⟩ (x :: free) := by
  have hblock := h.mem_out hx
  have hin := poolBlocks_inside hblock
  have hsize := g.size
  have hinside := g.inside
  have hlen := h.length
  have hcount := g.count_lt
  have hpos := List.length_pos_of_mem hx
  have hxf : x ∉ free := fun hf => (List.nodup_append.mp (h.nodup g)).2.2 x hf x hx rfl
  have hhead : s.mp.stFreeList < 4294967296 := by
    have hwalk := h.walk
    cases hfree : free with
    | nil =>
      rw [hfree] at hwalk
      have hnull : s.mp.stFreeList = 0 := hwalk
      omega
    | cons y l =>
      have hy := poolBlocks_inside (h.mem_free (hfree ▸ List.mem_cons_self))
      rw [hfree] at hwalk
      rw [hwalk.1]
      omega
  rw [osMemoryPoolFree_inside h g hid hin.1 (by omega)]
  refine ⟨rfl, ?_⟩
  apply h.relink
  · rw [h.cnt, List.length_erase_of_mem hx, sub32_of_le _ _ hpos (by omega)]
  · have hnonzero := g.nonzero
    refine ⟨rfl, by omega, ?_⟩
    have hlink : pstNext (store32 s.mem x s.mp.stFreeList) x = s.mp.stFreeList :=
      load32_store32_same _ _ _ hhead
    rw [hlink]
    apply h.next_kept g hblock hxf
    intro a ha
    exact store32_outside _ _ _ _ (by omega)
  · have hmid : (free ++ x :: s.outstanding.erase x).Perm (x :: (free ++ s.outstanding.erase x)) :=
      List.perm_middle
    exact hmid.symm.trans ((List.perm_cons_erase hx).symm.append_left free)

theorem write_rep (h : PoolRep base bs n s free) (g : PoolFits base bs n) {addr : Nat} {value : Byte}
    (hmay : MayWrite s addr) :
    PoolRep base bs n ⟨s.mp, store8 s.mem addr value, s.outstanding⟩ free := by
  have hsize := g.size
  refine ⟨h.size, h.num, h.cnt, h.start, h.bytes, h.valid, ?_, h.blocks⟩
  cases hmay with
  | inl hheld =>
    obtain ⟨b, hb, hlow, hhigh⟩ := hheld
    rw [h.size] at hhigh
    have hbf : b ∉ free := fun hf => (List.nodup_append.mp (h.nodup g)).2.2 b hf b hb rfl
    apply h.next_kept g (h.mem_out hb) hbf
    intro a ha
    exact store8_outside _ _ _ _ (by omega)
  | inr hout =>
    rw [h.start, h.bytes] at hout
    apply freeWalk_congr h.walk
    intro y hy
    have hin := poolBlocks_inside (h.mem_free hy)
    apply load32_congr
    intro a hlow hhigh
    exact store8_outside _ _ _ _ (by omega)

/-! ### Runs -/

theorem poolUse_rep (h : PoolRep base bs n s free) (g : PoolFits base bs n) (hid : mpId ≠ 0)
    (hstep : PoolUse mpId s op s') : ∃ free', PoolRep base bs n s' free' := by
  obtain ⟨hstep, huse⟩ := hstep
  cases hstep with
  | alloc =>
    unfold PoolState.afterAlloc
    dsimp only
    obtain ⟨-, hnone⟩ | ⟨b, l, -, hb, hres, hrep⟩ := osMemoryPoolAlloc_spec h g hid
    · rw [hnone, if_pos rfl]
      exact ⟨free, h⟩
    · rw [hres, if_neg hb]
      exact ⟨l, hrep⟩
  | free block hblock =>
    unfold PoolState.afterFree
    dsimp only
    cases huse block rfl with
    | inl hheld =>
      obtain ⟨hok, hrep⟩ := osMemoryPoolFree_held h g hid hheld
      rw [hok, if_pos rfl]
      exact ⟨block :: free, hrep⟩
    | inr hout =>
      rw [h.start, h.bytes] at hout
      rw [osMemoryPoolFree_outside h g hid hout, if_neg nofun]
      exact ⟨free, h⟩
  | write addr value hmay => exact ⟨free, write_rep h g hmay⟩

theorem poolRun_rep (h : PoolRep base bs n s free) (g : PoolFits base bs n) (hid : mpId ≠ 0)
    (hrun : Run (PoolUse mpId) s ops s') : ∃ free', PoolRep base bs n s' free' := by
  apply run_invariant (fun s => ∃ free, PoolRep base bs n s free) _ hrun ⟨free, h⟩
  intro s op s' hrep hstep
  obtain ⟨free, hrep⟩ := hrep
  exact poolUse_rep hrep g hid hstep

/-! ### New pools -/

/-- The control block and the memory of the pool, the caller's or from the heap. -/
def cbAt (attr : Option PoolAttr) (cbBlock : Nat) : Nat :=
  if cbGiven attr then attr.elim 0 PoolAttr.cbMem else cbBlock

def baseAt (attr : Option PoolAttr) (size mpBlock : Nat) : Nat :=
  if mpGiven attr size then attr.elim 0 PoolAttr.mpMem else mpBlock

theorem valid_or (status : Nat) : (status ||| memPoolValid) &&& memPoolValid = memPoolValid := by
  apply Nat.eq_of_testBit_eq
  intro i
  rw [Nat.testBit_and, Nat.testBit_or, Bool.and_comm, Bool.and_or_distrib_left, Bool.and_self]
  cases memPoolValid.testBit i <;> simp

theorem linkPool_rep (g : PoolFits base bs n) (m : Memory) (status : Nat) :
    PoolRep base bs n ⟨(linkPool m base (n * bs) n bs status).2,
      (linkPool m base (n * bs) n bs status).1, []⟩ (poolBlocks base bs n) := by
  have hone := g.one
  have hinside := g.inside
  obtain ⟨k, rfl⟩ : ∃ k, n = k + 1 := ⟨n - 1, by omega⟩
  rw [Nat.succ_mul] at hinside
  obtain ⟨hwalk, -⟩ := memboxLinkNodes_walk k m base g.nonzero g.size (by omega)
  refine ⟨rfl, rfl, rfl, rfl, rfl, ?_, hwalk, ?_⟩
  · exact decide_eq_true (valid_or status)
  · rw [List.append_nil]

/-- `LOS_MemAlloc` is called where the caller gives no memory. -/
def heapAfter (h : SysHeap) (given : Bool) (block : Nat) : SysHeap :=
  if given then h else (h.losMemAlloc block).1

def statusOf (attr : Option PoolAttr) (size : Nat) : Nat :=
  let status := if cbGiven attr then 0 else mpAlloc
  if mpGiven attr size then status else status ||| mdAlloc

theorem losMemAlloc_block (h : SysHeap) (block : Nat) : (h.losMemAlloc block).2 = block := by
  unfold SysHeap.losMemAlloc
  split
  · next hzero => exact hzero.symm
  · rfl

theorem osMemoryPoolNew_eq {h : SysHeap} {m : Memory} {blockCount blockSize cbBlock mpBlock size : Nat}
    {attr : Option PoolAttr} (hcount : blockCount ≠ 0) (hsize : blockSize ≠ 0)
    (hbytes : poolBytes blockCount blockSize = size) :
    osMemoryPoolNew h m false blockCount blockSize attr cbBlock mpBlock =
      if cbAt attr cbBlock = 0 then (heapAfter h (cbGiven attr) cbBlock, m, none)
      else if baseAt attr size mpBlock = 0 then
        ((heapAfter (heapAfter h (cbGiven attr) cbBlock) (mpGiven attr size) mpBlock).losMemFree
          (cbAt attr cbBlock), m, none)
      else
        (heapAfter (heapAfter h (cbGiven attr) cbBlock) (mpGiven attr size) mpBlock,
          (linkPool m (baseAt attr size mpBlock) size blockCount blockSize (statusOf attr size)).1,
          some (cbAt attr cbBlock,
            (linkPool m (baseAt attr size mpBlock) size blockCount blockSize (statusOf attr size)).2)) := by
  subst hbytes
  rw [osMemoryPoolNew, if_neg (by simp), if_neg (not_or.mpr ⟨hcount, hsize⟩)]
  unfold cbAt baseAt heapAfter statusOf
  cases hcb : cbGiven attr <;> cases hmp : mpGiven attr (poolBytes blockCount blockSize) <;>
    simp only [hmp, if_true, if_false, Bool.false_eq_true, losMemAlloc_block]

theorem osMemoryPoolNew_some {h h' : SysHeap} {m m' : Memory} {intActive : Bool}
    {blockCount blockSize cbBlock mpBlock : Nat} {attr : Option PoolAttr} {mp : MemPoolCB}
    (hnew : osMemoryPoolNew h m intActive blockCount blockSize attr cbBlock mpBlock =
      (h', m', some (mpId, mp))) :
    mpId ≠ 0 ∧ blockCount ≠ 0 ∧ blockSize ≠ 0 ∧
      baseAt attr (poolBytes blockCount blockSize) mpBlock ≠ 0 ∧
      ∃ status, linkPool m (baseAt attr (poolBytes blockCount blockSize) mpBlock)
        (poolBytes blockCount blockSize) blockCount blockSize status = (m', mp) := by
  cases intActive with
  | true => cases hnew
  | false =>
    by_cases hzero : blockCount = 0 ∨ blockSize = 0
    · rw [osMemoryPoolNew, if_neg (by simp), if_pos hzero] at hnew
      cases hnew
    · obtain ⟨hcount, hsize⟩ := not_or.mp hzero
      rw [osMemoryPoolNew_eq hcount hsize rfl] at hnew
      split at hnew
      · cases hnew
      · next hcb =>
        split at hnew
        · cases hnew
        · next hbase =>
          cases hnew
          exact ⟨hcb, hcount, hsize, hbase, statusOf attr (poolBytes blockCount blockSize), rfl⟩

/-! ### The history of a pool -/

/-- `osMemoryPoolFree` takes back what is outstanding, and changes nothing otherwise. -/
def FreeRight (mpId : Nat) (s : PoolState) (block : Nat) : Prop :=
  ((osMemoryPoolFree s.mem mpId s.mp block).2.2 = .osOK ↔ block ∈ s.outstanding) ∧
    (block ∉ s.outstanding → (osMemoryPoolFree s.mem mpId s.mp block).1 = s.mem ∧
      (osMemoryPoolFree s.mem mpId s.mp block).2.1 = s.mp)

structure PoolIntegrity (mpId n bs : Nat) (s : PoolState) : Prop where
  once : s.outstanding.Nodup
  own : ∀ b ∈ s.outstanding, ∃ i < n, b = s.mp.poolBase + i * bs
  freed : ∀ block, FreeRight mpId s block ↔ Freeable s block
  count : osMemoryPoolGetCount mpId s.mp = s.outstanding.length
  space : osMemoryPoolGetCount mpId s.mp + osMemoryPoolGetSpace mpId s.mp =
    osMemoryPoolGetCapacity mpId s.mp ↔ s.outstanding.length = n

theorem freeRight_iff (h : PoolRep base bs n s free) (g : PoolFits base bs n) (hid : mpId ≠ 0) :
    FreeRight mpId s x ↔ Freeable s x := by
  have hout : x = 0 ∨ x < base ∨ base + n * bs ≤ x → x ∉ s.outstanding := by
    intro hx hmem
    have hin := poolBlocks_inside (h.mem_out hmem)
    have hnonzero := g.nonzero
    have hsize := g.size
    omega
  unfold Freeable FreeRight
  rw [h.start, h.bytes]
  constructor
  · intro hright
    by_contra hnot
    obtain ⟨hheld, hin⟩ := not_or.mp hnot
    have hinside := osMemoryPoolFree_inside (x := x) h g hid (by omega) (by omega)
    apply hheld
    apply hright.1.mp
    rw [hinside]
  · intro hfree
    cases hfree with
    | inl hheld =>
      exact ⟨iff_of_true (osMemoryPoolFree_held h g hid hheld).1 hheld, fun hno => absurd hheld hno⟩
    | inr hx =>
      rw [osMemoryPoolFree_outside h g hid hx]
      exact ⟨iff_of_false nofun (hout hx), fun _ => ⟨rfl, rfl⟩⟩

theorem PoolRep.integrity (h : PoolRep base bs n s free) (g : PoolFits base bs n) (hid : mpId ≠ 0) :
    PoolIntegrity mpId n bs s := by
  have hcount : osMemoryPoolGetCount mpId s.mp = s.outstanding.length := by
    rw [osMemoryPoolGetCount, if_neg hid, h.valid, if_neg (by simp), h.cnt]
  have hcapacity : osMemoryPoolGetCapacity mpId s.mp = n := by
    rw [osMemoryPoolGetCapacity, if_neg hid, h.valid, if_neg (by simp), h.num]
  have hspace : osMemoryPoolGetSpace mpId s.mp = 0 := by
    have hlen := h.length
    have hlt := g.count_lt
    rw [osMemoryPoolGetSpace, if_neg hid, h.valid, if_neg (by simp), h.cnt,
      sub32_of_le _ _ (Nat.le_refl _) (by omega), Nat.sub_self]
  constructor
  · exact (List.nodup_append.mp (h.nodup g)).2.1
  · intro b hb
    rw [h.start]
    exact mem_poolBlocks.mp (h.mem_out hb)
  · exact fun block => freeRight_iff h g hid
  · exact hcount
  · rw [hcount, hspace, hcapacity, Nat.add_zero]

/-- From its creation on, through any calls that free what they may. -/
theorem osMemoryPool_integrity {h h' : SysHeap} {m m' : Memory} {intActive : Bool}
    {blockCount blockSize cbBlock mpBlock : Nat} {attr : Option PoolAttr} {mp : MemPoolCB}
    (hnew : osMemoryPoolNew h m intActive blockCount blockSize attr cbBlock mpBlock =
      (h', m', some (mpId, mp)))
    (halign : blockSize % 4 = 0) (hbytes : blockCount * blockSize < 4294967296)
    (hmem : mp.poolBase + blockCount * blockSize < 4294967296)
    (hrun : Run (PoolUse mpId) ⟨mp, m', []⟩ ops s) : PoolIntegrity mpId blockCount blockSize s := by
  obtain ⟨hid, hcount, hsize, hbase, status, hlink⟩ := osMemoryPoolNew_some hnew
  have hexact : poolBytes blockCount blockSize = blockCount * blockSize := Nat.mod_eq_of_lt hbytes
  rw [hexact] at hbase hlink
  generalize baseAt attr (blockCount * blockSize) mpBlock = start at hbase hlink
  have hstart : mp.poolBase = start := by
    have hmp := (Prod.mk.inj hlink).2
    subst hmp
    exact rfl
  rw [hstart] at hmem
  have g : PoolFits start blockSize blockCount := ⟨hbase, by omega, by omega, hmem⟩
  have hrep := linkPool_rep g m status
  rw [hlink] at hrep
  obtain ⟨free, hrep⟩ := poolRun_rep hrep g hid hrun
  exact hrep.integrity g hid

end

def blankMemory : Memory := fun _ => 0

def smallPool : PoolState where
  mp := (linkPool blankMemory 0x2000 16 2 8 3).2
  mem := (linkPool blankMemory 0x2000 16 2 8 3).1
  outstanding := []

def smallHeap : SysHeap where
  blocks := fun _ => false
  freed := []

theorem smallPool_new :
    ∃ h, osMemoryPoolNew smallHeap blankMemory false 2 8 none 0x1000 0x2000 =
      (h, smallPool.mem, some (0x1000, smallPool.mp)) := by
  rw [osMemoryPoolNew_eq (by decide) (by decide) rfl]
  exact ⟨_, rfl⟩

theorem osMemoryPool_integrity_both :
    ∃ s, Run (PoolUse 0x1000) smallPool [.alloc, .alloc, .free 0x2000, .alloc] s ∧
      PoolIntegrity 0x1000 2 8 s := by
  obtain ⟨h, hnew⟩ := smallPool_new
  have hone : Run (PoolUse 0x1000) smallPool [.alloc] (smallPool.afterAlloc 0x1000) :=
    run_single ⟨.alloc _, nofun⟩
  have htwo : Run (PoolUse 0x1000) smallPool [.alloc, .alloc]
      ((smallPool.afterAlloc 0x1000).afterAlloc 0x1000) := hone.snoc ⟨.alloc _, nofun⟩
  have hfree : Run (PoolUse 0x1000) smallPool [.alloc, .alloc, .free 0x2000]
      (((smallPool.afterAlloc 0x1000).afterAlloc 0x1000).afterFree 0x1000 0x2000) := by
    apply htwo.snoc
    refine ⟨.free _ 0x2000 (by decide), ?_⟩
    intro block hblock
    cases hblock
    left
    decide +kernel
  have hall := hfree.snoc ⟨PoolStep.alloc _, nofun⟩
  exact ⟨_, hall, osMemoryPool_integrity hnew (by decide) (by decide) (by decide) hall⟩

/-- A block that is freed twice is handed out twice, and no block counts as free. -/
theorem osMemoryPoolFree_twice :
    (∃ h, osMemoryPoolNew smallHeap blankMemory false 2 8 none 0x1000 0x2000 =
      (h, smallPool.mem, some (0x1000, smallPool.mp))) ∧
    osMemoryPoolGetCount 0x1000 smallPool.mp + osMemoryPoolGetSpace 0x1000 smallPool.mp ≠
      osMemoryPoolGetCapacity 0x1000 smallPool.mp ∧
    ∃ s, Run (PoolStep 0x1000) smallPool [.alloc, .free 0x2000, .free 0x2000, .alloc, .alloc] s ∧
      s.outstanding = [0x2000, 0x2000] := by
  refine ⟨smallPool_new, by decide +kernel, ?_⟩
  have hone : Run (PoolStep 0x1000) smallPool [.alloc] (smallPool.afterAlloc 0x1000) :=
    run_single (.alloc _)
  have hfree := hone.snoc (PoolStep.free _ 0x2000 (by decide))
  have hagain := hfree.snoc (PoolStep.free _ 0x2000 (by decide))
  have htwo := hagain.snoc (PoolStep.alloc _)
  exact ⟨_, htwo.snoc (PoolStep.alloc _), by decide +kernel⟩

end LiteosM.Cmsis
