import LiteosM.Cmsis.KernelLock
import LiteosM.Lib.Transition
import LiteosM.Membox.Source

/-!
# The memory pools of CMSIS

`cmsis_liteos2.c` over the bytes of the blocks. A free block holds the address of the next one in
its first word. The control block is a record of its own, in memory that no block lies in
(`LOSCFG_PLATFORM_EXC == 0`).
-/

namespace LiteosM.Cmsis

open LiteosM.Lib.ByteMemory LiteosM.Lib.Word32 LiteosM.Membox

def mpAlloc : Nat := 1

def mdAlloc : Nat := 2

def memPoolValid : Nat := 0xFFEEFF00

/-- `sizeof(MemPoolCB)` -/
def memPoolCBSize : Nat := 32

structure MemPoolCB where
  uwBlkSize : Nat
  uwBlkNum : Nat
  uwBlkCnt : Nat
  stFreeList : Nat
  poolBase : Nat
  poolSize : Nat
  status : Nat

/-- `osMemoryPoolAttr_t` without the name. The null pointer is 0. -/
structure PoolAttr where
  cbMem : Nat
  cbSize : Nat
  mpMem : Nat
  mpSize : Nat

/-- The blocks of the heap that are in use, and the pointers that `LOS_MemFree` got. -/
structure SysHeap where
  blocks : Nat → Bool
  freed : List Nat

namespace SysHeap

/-- `block` is what `LOS_MemAlloc` gives. -/
def losMemAlloc (h : SysHeap) (block : Nat) : SysHeap × Nat :=
  if block = 0 then (h, 0) else ({ h with blocks := Function.update h.blocks block true }, block)

def losMemFree (h : SysHeap) (block : Nat) : SysHeap where
  blocks := Function.update h.blocks block false
  freed := block :: h.freed

end SysHeap

def cbGiven (attr : Option PoolAttr) : Bool :=
  attr.any fun a => a.cbMem ≠ 0 && memPoolCBSize ≤ a.cbSize

def mpGiven (attr : Option PoolAttr) (size : Nat) : Bool :=
  attr.any fun a => a.mpMem ≠ 0 && a.mpMem &&& 3 = 0 && size ≤ a.mpSize

/-- `block_count * block_size` in 32 bits. -/
def poolBytes (blockCount blockSize : Nat) : Nat := blockCount * blockSize % 4294967296

def linkPool (m : Memory) (poolBase size blockCount blockSize status : Nat) : Memory × MemPoolCB :=
  let r := memboxLinkNodes m poolBase blockSize (blockCount - 1)
  (store32 r.1 r.2 0,
    { uwBlkSize := blockSize
      uwBlkNum := blockCount
      uwBlkCnt := 0
      stFreeList := poolBase
      poolBase := poolBase
      poolSize := size
      status := status ||| memPoolValid })

/-- `cbBlock` and `mpBlock` are what the calls of `LOS_MemAlloc` give. The handle is the address of
the control block. -/
def osMemoryPoolNew (h : SysHeap) (m : Memory) (intActive : Bool) (blockCount blockSize : Nat)
    (attr : Option PoolAttr) (cbBlock mpBlock : Nat) : SysHeap × Memory × Option (Nat × MemPoolCB) :=
  if intActive then (h, m, none)
  else if blockCount = 0 ∨ blockSize = 0 then (h, m, none)
  else
    let size := poolBytes blockCount blockSize
    let (h, mp, status) :=
      if cbGiven attr then (h, attr.elim 0 PoolAttr.cbMem, 0)
      else
        let r := h.losMemAlloc cbBlock
        (r.1, r.2, mpAlloc)
    if mp = 0 then (h, m, none)
    else
      let (h, poolBase, status) :=
        if mpGiven attr size then (h, attr.elim 0 PoolAttr.mpMem, status)
        else
          let r := h.losMemAlloc mpBlock
          (r.1, r.2, status ||| mdAlloc)
      if poolBase = 0 then (h.losMemFree mp, m, none)
      else
        let r := linkPool m poolBase size blockCount blockSize status
        (h, r.1, some (mp, r.2))

def poolValid (mp : MemPoolCB) : Bool := mp.status &&& memPoolValid = memPoolValid

def osMemoryPoolAlloc (m : Memory) (mpId : Nat) (mp : MemPoolCB) : MemPoolCB × Nat :=
  if mpId = 0 then (mp, 0)
  else if poolValid mp then
    let node := mp.stFreeList
    if node ≠ 0 then
      ({ mp with stFreeList := pstNext m node, uwBlkCnt := add32 mp.uwBlkCnt 1 }, node)
    else (mp, node)
  else (mp, 0)

def osMemoryPoolFree (m : Memory) (mpId : Nat) (mp : MemPoolCB) (block : Nat) :
    Memory × MemPoolCB × OsStatus :=
  if mpId = 0 ∨ block = 0 then (m, mp, .osErrorParameter)
  else if !poolValid mp then (m, mp, .osErrorResource)
  else if block < mp.poolBase ∨ add32 mp.poolBase mp.poolSize ≤ block then
    (m, mp, .osErrorParameter)
  else
    let nodeTmp := mp.stFreeList
    (store32 m block nodeTmp,
      { mp with stFreeList := block, uwBlkCnt := sub32 mp.uwBlkCnt 1 }, .osOK)

def osMemoryPoolGetCapacity (mpId : Nat) (mp : MemPoolCB) : Nat :=
  if mpId = 0 then 0 else if !poolValid mp then 0 else mp.uwBlkNum

def osMemoryPoolGetCount (mpId : Nat) (mp : MemPoolCB) : Nat :=
  if mpId = 0 then 0 else if !poolValid mp then 0 else mp.uwBlkCnt

def osMemoryPoolGetSpace (mpId : Nat) (mp : MemPoolCB) : Nat :=
  if mpId = 0 then 0 else if !poolValid mp then 0 else sub32 mp.uwBlkCnt mp.uwBlkCnt

/-! ### Programs that use a pool -/

/-- `outstanding` are the blocks handed out and not taken back. -/
structure PoolState where
  mp : MemPoolCB
  mem : Memory
  outstanding : List Nat

inductive PoolOp
  | alloc
  | free (block : Nat)
  | write (addr : Nat) (value : Byte)

/-- A byte that the program may write: in a block that it holds, or outside the pool. -/
def MayWrite (s : PoolState) (addr : Nat) : Prop :=
  (∃ b ∈ s.outstanding, b ≤ addr ∧ addr < b + s.mp.uwBlkSize) ∨
    addr < s.mp.poolBase ∨ s.mp.poolBase + s.mp.poolSize ≤ addr

def PoolState.afterAlloc (mpId : Nat) (s : PoolState) : PoolState :=
  let r := osMemoryPoolAlloc s.mem mpId s.mp
  ⟨r.1, s.mem, if r.2 = 0 then s.outstanding else r.2 :: s.outstanding⟩

def PoolState.afterFree (mpId block : Nat) (s : PoolState) : PoolState :=
  let r := osMemoryPoolFree s.mem mpId s.mp block
  ⟨r.2.1, r.1, if r.2.2 = .osOK then s.outstanding.erase block else s.outstanding⟩

inductive PoolStep (mpId : Nat) : PoolState → PoolOp → PoolState → Prop
  | alloc (s : PoolState) : PoolStep mpId s .alloc (s.afterAlloc mpId)
  | free (s : PoolState) (block : Nat) (hblock : block < 4294967296) :
      PoolStep mpId s (.free block) (s.afterFree mpId block)
  | write (s : PoolState) (addr : Nat) (value : Byte) (hmay : MayWrite s addr) :
      PoolStep mpId s (.write addr value) ⟨s.mp, store8 s.mem addr value, s.outstanding⟩

/-- What a program may give to `osMemoryPoolFree`: a block that it holds, no address at all, or one
outside the pool. -/
def Freeable (s : PoolState) (block : Nat) : Prop :=
  block ∈ s.outstanding ∨ block = 0 ∨ block < s.mp.poolBase ∨ s.mp.poolBase + s.mp.poolSize ≤ block

def PoolUse (mpId : Nat) (s : PoolState) (op : PoolOp) (s' : PoolState) : Prop :=
  PoolStep mpId s op s' ∧ ∀ block, op = .free block → Freeable s block

end LiteosM.Cmsis
