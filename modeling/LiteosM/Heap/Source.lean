import LiteosM.Lib.ByteMemory
import LiteosM.Lib.Word32

/-!
# The TLSF allocator of los_memory.c

The functions of `kernel/src/mm/los_memory.c` in the default configuration
(several pools, water line; no expansion, no integrity check, no task id and
no leak check in the node head), over one 32-bit address space. Pointers are
addresses, `NULL` is 0, every `UINT32` operation that can wrap is written with
`add32`, `sub32`, `shl32`. The interrupt lock around a call has no effect here.

Layouts in bytes:
* `struct OsMemPoolHead`: `info.pool` 0, `info.totalSize` 4, `info.attr` 8,
  `info.waterLine` 12, `info.curUsedSize` 16, `freeListBitmap[7]` 20,
  `freeList[223]` 48, `nextPool` 940; 944 in all;
* `struct OsMemNodeHead`: `ptr.prev` 0, `sizeAndFlag` 4; 8 in all;
* `struct OsMemFreeNodeHead`: `header` 0, `prev` 8, `next` 12; 16 in all.
-/

namespace LiteosM.Heap
open Lib.ByteMemory Lib.Word32

def osMemSli : Nat := 3
def osMemSmallBucketCount : Nat := 31
def osMemSmallBucketMaxSize : Nat := 128
def osMemLargeBucketCount : Nat := 24
def osMemLargeStartBucket : Nat := 7
def osMemFreeListCount : Nat := osMemSmallBucketCount + (osMemLargeBucketCount <<< osMemSli)
def osMemBitmapMask : Nat := 0x1F

def osMemPoolHeadSize : Nat := 944
def osMemNodeHeadSize : Nat := 8
def osMemMinPoolSize : Nat := osMemNodeHeadSize + osMemPoolHeadSize
def osMemMinLeftSize : Nat := 16
def osMemMinAllocSize : Nat := 8
def osMemAlignSize : Nat := 4

def losOk : Nat := 0
def losNok : Nat := 1
def osError : Nat := 0xFFFFFFFF

/-! ### Size classes -/

def osMemFFS (bitmap : Nat) : Nat :=
  let bitmap := bitmap &&& add32 (not32 bitmap) 1
  sub32 osMemBitmapMask (clz32 bitmap) % 65536

def osMemFLS (bitmap : Nat) : Nat := sub32 osMemBitmapMask (clz32 bitmap) % 65536

def osMemLog2 (size : Nat) : Nat := if size > 0 then osMemFLS size else 0

def osMemFlGet (size : Nat) : Nat :=
  if size < osMemSmallBucketMaxSize then sub32 (size >>> 2) 1
  else add32 (sub32 (osMemLog2 size) osMemLargeStartBucket) osMemSmallBucketCount

def osMemSlGet (size fl : Nat) : Nat :=
  if fl < osMemSmallBucketCount ∨ size < osMemSmallBucketMaxSize then 0
  else
    let sl := shl32 size osMemSli >>>
      add32 (sub32 fl osMemSmallBucketCount) osMemLargeStartBucket
    sub32 sl (1 <<< osMemSli)

def osMemFreeListIndexGet (size : Nat) : Nat :=
  let fl := osMemFlGet size
  if fl < osMemSmallBucketCount then fl
  else
    let sl := osMemSlGet size fl
    add32 (add32 osMemSmallBucketCount (shl32 (sub32 fl osMemSmallBucketCount) osMemSli)) sl

/-! ### Node heads -/

def osMemNodeUsedFlag : Nat := 0x80000000
def osMemNodeAlignedFlag : Nat := 0x40000000
def osMemNodeLeakFlag : Nat := 0
def osMemNodeLastFlag : Nat := 0
def osMemNodeAlignedAndUsedFlag : Nat :=
  osMemNodeUsedFlag ||| osMemNodeAlignedFlag ||| osMemNodeLeakFlag ||| osMemNodeLastFlag

def osMemNodeGetAlignedFlag (sizeAndFlag : Nat) : Nat := sizeAndFlag &&& osMemNodeAlignedFlag
def osMemNodeSetAlignedFlag (sizeAndFlag : Nat) : Nat := sizeAndFlag ||| osMemNodeAlignedFlag
def osMemNodeGetUsedFlag (sizeAndFlag : Nat) : Nat := sizeAndFlag &&& osMemNodeUsedFlag
def osMemNodeSetUsedFlag (sizeAndFlag : Nat) : Nat := sizeAndFlag ||| osMemNodeUsedFlag
def osMemNodeGetLastFlag (sizeAndFlag : Nat) : Nat := sizeAndFlag &&& osMemNodeLastFlag
def osMemNodeGetSize (sizeAndFlag : Nat) : Nat :=
  sizeAndFlag &&& not32 osMemNodeAlignedAndUsedFlag

def osMemGapsizeUsedFlag : Nat := 0x80000000
def osMemGapsizeAlignedFlag : Nat := 0x40000000
def osMemGetAlignedGapsize (gapsize : Nat) : Nat := gapsize &&& not32 osMemGapsizeAlignedFlag
def osMemGetGapsizeAlignedFlag (gapsize : Nat) : Nat := gapsize &&& osMemGapsizeAlignedFlag
def osMemSetGapsizeAlignedFlag (gapsize : Nat) : Nat := gapsize ||| osMemGapsizeAlignedFlag
def osMemGetGapsizeUsedFlag (gapsize : Nat) : Nat := gapsize &&& osMemGapsizeUsedFlag
def osMemGapsizeCheck (gapsize : Nat) : Bool :=
  osMemGetGapsizeAlignedFlag gapsize != 0 && osMemGetGapsizeUsedFlag gapsize != 0

def osMemIsPowTwo (value : Nat) : Bool := value &&& sub32 value 1 == 0
def osMemAlign (p alignSize : Nat) : Nat :=
  sub32 (add32 p alignSize) 1 &&& not32 (sub32 alignSize 1)
def osMemIsAligned (a b : Nat) : Bool := a &&& sub32 b 1 == 0
def losAlign (addr boundary : Nat) : Nat :=
  (add32 addr (if add32 addr (boundary - 1) > addr then boundary - 1 else 0)) &&&
    not32 (boundary - 1)

def prevOf (m : Memory) (node : Nat) : Nat := load32 m node
def sizeAndFlag (m : Memory) (node : Nat) : Nat := load32 m (node + 4)
def freePrev (m : Memory) (node : Nat) : Nat := load32 m (node + 8)
def freeNext (m : Memory) (node : Nat) : Nat := load32 m (node + 12)
def setPrev (m : Memory) (node v : Nat) : Memory := store32 m node v
def setSizeAndFlag (m : Memory) (node v : Nat) : Memory := store32 m (node + 4) v
def setFreePrev (m : Memory) (node v : Nat) : Memory := store32 m (node + 8) v
def setFreeNext (m : Memory) (node v : Nat) : Memory := store32 m (node + 12) v

def totalSize (m : Memory) (pool : Nat) : Nat := load32 m (pool + 4)
def waterLine (m : Memory) (pool : Nat) : Nat := load32 m (pool + 12)
def curUsedSize (m : Memory) (pool : Nat) : Nat := load32 m (pool + 16)
def freeListBitmap (m : Memory) (pool word : Nat) : Nat := load32 m (pool + 20 + 4 * word)
def freeList (m : Memory) (pool index : Nat) : Nat := load32 m (pool + 48 + 4 * index)
def nextPool (m : Memory) (pool : Nat) : Nat := load32 m (pool + 940)
def setWaterLine (m : Memory) (pool v : Nat) : Memory := store32 m (pool + 12) v
def setCurUsedSize (m : Memory) (pool v : Nat) : Memory := store32 m (pool + 16) v
def setFreeListBitmap (m : Memory) (pool word v : Nat) : Memory :=
  store32 m (pool + 20 + 4 * word) v
def setFreeList (m : Memory) (pool index v : Nat) : Memory := store32 m (pool + 48 + 4 * index) v
def setNextPool (m : Memory) (pool v : Nat) : Memory := store32 m (pool + 940) v

def osMemNextNode (m : Memory) (node : Nat) : Nat :=
  add32 node (osMemNodeGetSize (sizeAndFlag m node))
def osMemFirstNode (pool : Nat) : Nat := add32 pool osMemPoolHeadSize
def osMemEndNode (pool size : Nat) : Nat := sub32 (add32 pool size) osMemNodeHeadSize

def osMemMiddleAddrOpenEnd (startAddr middleAddr endAddr : Nat) : Bool :=
  decide (startAddr ≤ middleAddr) && decide (middleAddr < endAddr)
def osMemMiddleAddr (startAddr middleAddr endAddr : Nat) : Bool :=
  decide (startAddr ≤ middleAddr) && decide (middleAddr ≤ endAddr)

def osMemWaterUsedRecord (m : Memory) (pool size : Nat) : Memory :=
  let m := setCurUsedSize m pool (add32 (curUsedSize m pool) size)
  if curUsedSize m pool > waterLine m pool then setWaterLine m pool (curUsedSize m pool) else m

/-! ### Free lists -/

/- The list walk of the C loop; `fuel` bounds it by the number of addresses. -/
def osMemFindCurSuitableBlockFrom (m : Memory) (size : Nat) : Nat → Nat → Nat
  | 0, _ => 0
  | fuel + 1, node =>
    if node = 0 then 0
    else if sizeAndFlag m node ≥ size then node
    else osMemFindCurSuitableBlockFrom m size fuel (freeNext m node)

def osMemFindCurSuitableBlock (m : Memory) (poolHead index size : Nat) : Nat :=
  osMemFindCurSuitableBlockFrom m size 4294967296 (freeList m poolHead index)

def osMemNotEmptyIndexGet (m : Memory) (poolHead index : Nat) : Nat :=
  let mask := freeListBitmap m poolHead (index >>> 5) &&&
    not32 (sub32 (1 <<< (index &&& osMemBitmapMask)) 1)
  if mask ≠ 0 then add32 (osMemFFS mask) (index &&& not32 osMemBitmapMask)
  else osMemFreeListCount

/- `for (index = LOS_Align(index + 1, 32); index < OS_MEM_FREE_LIST_COUNT; index += 32)`
over the seven bitmap words; the result is the index found. -/
def osMemScanBitmap (m : Memory) (poolHead : Nat) : Nat → Nat → Option Nat
  | 0, _ => none
  | fuel + 1, index =>
    if index < osMemFreeListCount then
      let mask := freeListBitmap m poolHead (index >>> 5)
      if mask ≠ 0 then some (add32 (osMemFFS mask) index)
      else osMemScanBitmap m poolHead fuel (index + 32)
    else none

/-- The node found (or 0) and the list it is the head of or a member of. -/
def osMemFindNextSuitableBlock (m : Memory) (pool size : Nat) : Nat × Nat :=
  let fl := osMemFlGet size
  let curIndex :=
    if fl < osMemSmallBucketCount then osMemFreeListCount
    else add32 (add32 (shl32 (sub32 fl osMemSmallBucketCount) osMemSli) (osMemSlGet size fl))
      osMemSmallBucketCount
  let index := if fl < osMemSmallBucketCount then fl else add32 curIndex 1
  let tmp := osMemNotEmptyIndexGet m pool index
  if tmp ≠ osMemFreeListCount then (freeList m pool tmp, tmp)
  else
    match osMemScanBitmap m pool 8 (losAlign (add32 index 1) 32) with
    | some index => (freeList m pool index, index)
    | none =>
      if curIndex = osMemFreeListCount then (0, curIndex)
      else (osMemFindCurSuitableBlock m pool curIndex size, curIndex)

def osMemSetFreeListBit (m : Memory) (head index : Nat) : Memory :=
  setFreeListBitmap m head (index >>> 5)
    (freeListBitmap m head (index >>> 5) ||| 1 <<< (index &&& 0x1f))

def osMemClearFreeListBit (m : Memory) (head index : Nat) : Memory :=
  setFreeListBitmap m head (index >>> 5)
    (freeListBitmap m head (index >>> 5) &&& not32 (1 <<< (index &&& 0x1f)))

def osMemListAdd (m : Memory) (pool listIndex node : Nat) : Memory :=
  let firstNode := freeList m pool listIndex
  let m := if firstNode ≠ 0 then setFreePrev m firstNode node else m
  let m := setFreePrev m node 0
  let m := setFreeNext m node firstNode
  let m := setFreeList m pool listIndex node
  osMemSetFreeListBit m pool listIndex

def osMemListDelete (m : Memory) (pool listIndex node : Nat) : Memory :=
  if node = freeList m pool listIndex then
    let m := setFreeList m pool listIndex (freeNext m node)
    if freeNext m node = 0 then osMemClearFreeListBit m pool listIndex
    else setFreePrev m (freeNext m node) 0
  else
    let m := setFreeNext m (freePrev m node) (freeNext m node)
    if freeNext m node ≠ 0 then setFreePrev m (freeNext m node) (freePrev m node) else m

/- The source panics when the index is out of range; no state is changed then. -/
def osMemFreeNodeAdd (m : Memory) (pool node : Nat) : Memory :=
  let index := osMemFreeListIndexGet (sizeAndFlag m node)
  if index ≥ osMemFreeListCount then m else osMemListAdd m pool index node

def osMemFreeNodeDelete (m : Memory) (pool node : Nat) : Memory :=
  let index := osMemFreeListIndexGet (sizeAndFlag m node)
  osMemListDelete m pool index node

def osMemFreeNodeGet (m : Memory) (pool size : Nat) : Memory × Nat :=
  let found := osMemFindNextSuitableBlock m pool size
  let firstNode := found.1
  if firstNode = 0 then (m, 0) else (osMemListDelete m pool found.2 firstNode, firstNode)

/-! ### Merging and splitting -/

def osMemMergeNode (m : Memory) (node : Nat) : Memory :=
  let m := setSizeAndFlag m (prevOf m node)
    (add32 (sizeAndFlag m (prevOf m node)) (sizeAndFlag m node))
  let nextNode := add32 node (sizeAndFlag m node)
  if osMemNodeGetLastFlag (sizeAndFlag m nextNode) = 0 then setPrev m nextNode (prevOf m node)
  else m

def osMemSplitNode (m : Memory) (pool allocNode allocSize : Nat) : Memory :=
  let newFreeNode := add32 allocNode allocSize
  let m := setPrev m newFreeNode allocNode
  let m := setSizeAndFlag m newFreeNode (sub32 (sizeAndFlag m allocNode) allocSize)
  let m := setSizeAndFlag m allocNode allocSize
  let nextNode := osMemNextNode m newFreeNode
  let m :=
    if osMemNodeGetLastFlag (sizeAndFlag m nextNode) = 0 then
      let m := setPrev m nextNode newFreeNode
      if osMemNodeGetUsedFlag (sizeAndFlag m nextNode) = 0 then
        osMemMergeNode (osMemFreeNodeDelete m pool nextNode) nextNode
      else m
    else m
  osMemFreeNodeAdd m pool newFreeNode

def osMemCreateUsedNode (addr : Nat) : Nat := addr + osMemNodeHeadSize

/-! ### Pools -/

def osMemPoolInit (m : Memory) (pool size : Nat) : Memory :=
  let m := fillBytes m pool 0 osMemPoolHeadSize
  let m := store32 m pool pool
  let m := store32 m (pool + 4) size
  let m := store32 m (pool + 8) (load32 m (pool + 8) &&& not32 3)
  let newNode := osMemFirstNode pool
  let m := setSizeAndFlag m newNode (sub32 (sub32 size osMemPoolHeadSize) osMemNodeHeadSize)
  let m := setPrev m newNode (osMemEndNode pool size)
  let m := osMemFreeNodeAdd m pool newNode
  let endNode := osMemEndNode pool size
  let m := setSizeAndFlag m endNode 0
  let m := setPrev m endNode newNode
  let m := setSizeAndFlag m endNode (osMemNodeSetUsedFlag (sizeAndFlag m endNode))
  let m := setCurUsedSize m pool (osMemPoolHeadSize + osMemNodeHeadSize)
  setWaterLine m pool (curUsedSize m pool)

def osMemPoolDeinit (m : Memory) (pool : Nat) : Memory := fillBytes m pool 0 osMemPoolHeadSize

def losMemPoolSizeGet (m : Memory) (pool : Nat) : Nat :=
  if pool = 0 then losNok else totalSize m pool

/-- Memory together with the global `g_poolHead`. -/
structure MemState where
  mem : Memory
  gPoolHead : Nat

/- The walk over the registered pools: `none` when the fuel runs out, else the
conflict verdict and the last pool visited. -/
def osMemPoolConflict (m : Memory) (pool size : Nat) : Nat → Nat → Nat → Option (Bool × Nat)
  | 0, _, _ => none
  | fuel + 1, next, cur =>
    if next = 0 then some (false, cur)
    else
      let poolEnd := add32 next (losMemPoolSizeGet m next)
      if (pool ≤ next ∧ add32 pool size > next) ∨ (pool < poolEnd ∧ add32 pool size ≥ poolEnd) then
        some (true, cur)
      else osMemPoolConflict m pool size fuel (nextPool m next) next

def osMemPoolAdd (fuel : Nat) (s : MemState) (pool size : Nat) : Option (MemState × Nat) :=
  match osMemPoolConflict s.mem pool size fuel s.gPoolHead s.gPoolHead with
  | none => none
  | some (true, _) => some (s, losNok)
  | some (false, curPool) =>
    let s := if s.gPoolHead = 0 then { s with gPoolHead := pool }
      else { s with mem := setNextPool s.mem curPool pool }
    some ({ s with mem := setNextPool s.mem pool 0 }, losOk)

def losMemInit (fuel : Nat) (s : MemState) (pool size : Nat) : Option (MemState × Nat) :=
  if pool = 0 ∨ size ≤ osMemMinPoolSize then some (s, osError)
  else if pool &&& (osMemAlignSize - 1) ≠ 0 ∨ size &&& (osMemAlignSize - 1) ≠ 0 then
    some (s, osError)
  else
    match osMemPoolAdd fuel { s with mem := osMemPoolInit s.mem pool size } pool size with
    | none => none
    | some (s, 0) => some (s, losOk)
    | some (s, _) => some ({ s with mem := osMemPoolDeinit s.mem pool }, osError)

/-! ### Allocation -/

def osMemAlloc (m : Memory) (pool size : Nat) : Memory × Nat :=
  let allocSize := osMemAlign (add32 size osMemNodeHeadSize) osMemAlignSize
  if allocSize = 0 then (m, 0)
  else
    let got := osMemFreeNodeGet m pool allocSize
    let m := got.1
    let allocNode := got.2
    if allocNode = 0 then (m, 0)
    else
      let m := if add32 allocSize osMemMinLeftSize ≤ sizeAndFlag m allocNode then
        osMemSplitNode m pool allocNode allocSize else m
      let m := setSizeAndFlag m allocNode (osMemNodeSetUsedFlag (sizeAndFlag m allocNode))
      let m := osMemWaterUsedRecord m pool (osMemNodeGetSize (sizeAndFlag m allocNode))
      (m, osMemCreateUsedNode allocNode)

def losMemAlloc (m : Memory) (pool size : Nat) : Memory × Nat :=
  if pool = 0 ∨ size = 0 then (m, 0)
  else
    let size := if size < osMemMinAllocSize then osMemMinAllocSize else size
    if osMemNodeGetUsedFlag size ≠ 0 ∨ osMemNodeGetAlignedFlag size ≠ 0 then (m, 0)
    else osMemAlloc m pool size

def losMemAllocAlign (m : Memory) (pool size boundary : Nat) : Memory × Nat :=
  if pool = 0 ∨ size = 0 ∨ boundary = 0 ∨ osMemIsPowTwo boundary = false ∨
      osMemIsAligned boundary 4 = false then (m, 0)
  else
    let size := if size < osMemMinAllocSize then osMemMinAllocSize else size
    if sub32 boundary 4 > sub32 4294967295 size then (m, 0)
    else
      let useSize := sub32 (add32 size boundary) 4
      if osMemNodeGetUsedFlag useSize ≠ 0 ∨ osMemNodeGetAlignedFlag useSize ≠ 0 then (m, 0)
      else
        let got := osMemAlloc m pool useSize
        let m := got.1
        let ptr := got.2
        let alignedPtr := osMemAlign ptr boundary
        if ptr = alignedPtr then (m, ptr)
        else
          let gapSize := sub32 alignedPtr ptr
          let allocNode := sub32 ptr osMemNodeHeadSize
          let m := setSizeAndFlag m allocNode (osMemNodeSetAlignedFlag (sizeAndFlag m allocNode))
          let gapSize := osMemSetGapsizeAlignedFlag gapSize
          (store32 m (sub32 alignedPtr 4) gapSize, alignedPtr)

/-! ### Release -/

def osMemAddrValidCheck (m : Memory) (pool addr : Nat) : Bool :=
  osMemMiddleAddrOpenEnd (add32 pool osMemPoolHeadSize) addr (add32 pool (totalSize m pool))

def osMemIsNodeValid (m : Memory) (node startNode endNode pool : Nat) : Bool :=
  if osMemMiddleAddr startNode node endNode = false then false
  else if osMemNodeGetUsedFlag (sizeAndFlag m node) ≠ 0 then true
  else osMemAddrValidCheck m pool (prevOf m node)

def osMemCheckUsedNode (m : Memory) (pool node : Nat) : Nat :=
  let startNode := osMemFirstNode pool
  let endNode := osMemEndNode pool (totalSize m pool)
  if osMemIsNodeValid m node startNode endNode pool = false then losNok
  else if osMemNodeGetUsedFlag (sizeAndFlag m node) = 0 then losNok
  else
    let nextNode := osMemNextNode m node
    if osMemIsNodeValid m nextNode startNode endNode pool = false then losNok
    else if osMemNodeGetLastFlag (sizeAndFlag m nextNode) = 0 ∧ prevOf m nextNode ≠ node then losNok
    else if node ≠ startNode ∧
        (osMemIsNodeValid m (prevOf m node) startNode endNode pool = false ∨
          osMemNextNode m (prevOf m node) ≠ node) then losNok
    else losOk

def osMemFree (m : Memory) (pool node : Nat) : Memory × Nat :=
  let ret := osMemCheckUsedNode m pool node
  if ret ≠ losOk then (m, ret)
  else
    let m := setCurUsedSize m pool
      (sub32 (curUsedSize m pool) (osMemNodeGetSize (sizeAndFlag m node)))
    let m := setSizeAndFlag m node (osMemNodeGetSize (sizeAndFlag m node))
    let preNode := prevOf m node
    let merged :=
      if preNode ≠ 0 ∧ osMemNodeGetUsedFlag (sizeAndFlag m preNode) = 0 then
        (osMemMergeNode (osMemFreeNodeDelete m pool preNode) node, preNode)
      else (m, node)
    let m := merged.1
    let node := merged.2
    let nextNode := osMemNextNode m node
    let m :=
      if nextNode ≠ 0 ∧ osMemNodeGetUsedFlag (sizeAndFlag m nextNode) = 0 then
        osMemMergeNode (osMemFreeNodeDelete m pool nextNode) nextNode
      else m
    (osMemFreeNodeAdd m pool node, ret)

def osGetRealPtr (m : Memory) (pool ptr : Nat) : Nat :=
  let gapSize := load32 m (sub32 ptr 4)
  if osMemGapsizeCheck gapSize then 0
  else if osMemGetGapsizeAlignedFlag gapSize ≠ 0 then
    let gapSize := osMemGetAlignedGapsize gapSize
    if gapSize &&& (osMemAlignSize - 1) ≠ 0 ∨
        gapSize > sub32 (sub32 ptr osMemNodeHeadSize) pool then 0
    else sub32 ptr gapSize
  else ptr

def losMemFree (m : Memory) (pool ptr : Nat) : Memory × Nat :=
  if pool = 0 ∨ ptr = 0 ∨ osMemIsAligned pool 4 = false ∨ osMemIsAligned ptr 4 = false then
    (m, losNok)
  else
    let ptr := osGetRealPtr m pool ptr
    if ptr = 0 then (m, losNok) else osMemFree m pool (sub32 ptr osMemNodeHeadSize)

/-! ### Reallocation -/

def osMemReAllocSmaller (m : Memory) (pool allocSize node nodeSize : Nat) : Memory :=
  let m := setSizeAndFlag m node nodeSize
  let m :=
    if add32 allocSize osMemMinLeftSize ≤ nodeSize then
      let m := osMemSplitNode m pool node allocSize
      setCurUsedSize m pool (sub32 (curUsedSize m pool) (sub32 nodeSize allocSize))
    else m
  setSizeAndFlag m node (osMemNodeSetUsedFlag (sizeAndFlag m node))

def osMemMergeNodeForReAllocBigger (m : Memory) (pool allocSize node nodeSize nextNode : Nat) :
    Memory :=
  let m := setSizeAndFlag m node nodeSize
  let m := osMemMergeNode (osMemFreeNodeDelete m pool nextNode) nextNode
  let m := if add32 allocSize osMemMinLeftSize ≤ sizeAndFlag m node then
    osMemSplitNode m pool node allocSize else m
  let m := setSizeAndFlag m node (osMemNodeSetUsedFlag (sizeAndFlag m node))
  osMemWaterUsedRecord m pool (sub32 (sizeAndFlag m node) nodeSize)

/-- `memcpy_s`: refuses a count above the destination size, else copies. -/
def memcpyS (m : Memory) (dst dstMax src count : Nat) : Option Memory :=
  if count > dstMax then none else some (copyBytes m dst src count)

def osMemRealloc (m : Memory) (pool ptr node size : Nat) : Memory × Nat :=
  let allocSize := osMemAlign (add32 size osMemNodeHeadSize) osMemAlignSize
  let nodeSize := osMemNodeGetSize (sizeAndFlag m node)
  if nodeSize ≥ allocSize then (osMemReAllocSmaller m pool allocSize node nodeSize, ptr)
  else
    let nextNode := osMemNextNode m node
    if osMemNodeGetUsedFlag (sizeAndFlag m nextNode) = 0 ∧
        add32 (sizeAndFlag m nextNode) nodeSize ≥ allocSize then
      (osMemMergeNodeForReAllocBigger m pool allocSize node nodeSize nextNode, ptr)
    else
      let got := osMemAlloc m pool size
      let m := got.1
      let tmpPtr := got.2
      if tmpPtr ≠ 0 then
        match memcpyS m tmpPtr size ptr (sub32 nodeSize osMemNodeHeadSize) with
        | none => ((losMemFree m pool tmpPtr).1, 0)
        | some m => ((osMemFree m pool node).1, tmpPtr)
      else (m, 0)

def losMemRealloc (m : Memory) (pool ptr size : Nat) : Memory × Nat :=
  if pool = 0 ∨ osMemNodeGetUsedFlag size ≠ 0 ∨ osMemNodeGetAlignedFlag size ≠ 0 then (m, 0)
  else if ptr = 0 then losMemAlloc m pool size
  else if size = 0 then ((losMemFree m pool ptr).1, 0)
  else
    let size := if size < osMemMinAllocSize then osMemMinAllocSize else size
    let ptr := osGetRealPtr m pool ptr
    if ptr = 0 then (m, 0)
    else
      let node := sub32 ptr osMemNodeHeadSize
      if osMemCheckUsedNode m pool node ≠ losOk then (m, 0)
      else osMemRealloc m pool ptr node size

end LiteosM.Heap
