import LiteosM.Lib.ByteMemory
import LiteosM.Lib.Word32

/-!
# Static memory boxes

`los_membox.c` over the bytes of the box: four control words, then the blocks, each
with one word of header. The box is not exported to the exception dump
(`LOSCFG_PLATFORM_EXC == 0`).
-/

namespace LiteosM.Membox
open Lib.ByteMemory Lib.Word32

def losOk : Nat := 0
def losNok : Nat := 1

def osMemboxMagic : Nat := 0xa55a5a00
def osMemboxMaxTaskid : Nat := 255
def osMemboxNodeHeadSize : Nat := 4
/-- `sizeof(LOS_MEMBOX_INFO)` -/
def losMemboxInfoSize : Nat := 16

def uwBlkSize (m : Memory) (pool : Nat) : Nat := load32 m pool
def uwBlkNum (m : Memory) (pool : Nat) : Nat := load32 m (pool + 4)
def uwBlkCnt (m : Memory) (pool : Nat) : Nat := load32 m (pool + 8)
def stFreeList (m : Memory) (pool : Nat) : Nat := load32 m (pool + 12)
def pstNext (m : Memory) (node : Nat) : Nat := load32 m node

def osMemboxTaskidGet (addr : Nat) : Nat := addr &&& osMemboxMaxTaskid

def losMemboxAlligned (memAddr : Nat) : Nat := add32 memAddr 3 &&& not32 3

def osMemboxUserAddr (addr : Nat) : Nat := add32 addr osMemboxNodeHeadSize
def osMemboxNodeAddr (addr : Nat) : Nat := sub32 addr osMemboxNodeHeadSize

def osMemBoxSetMagic (m : Memory) (node curTaskID : Nat) : Memory :=
  store32 m node (osMemboxMagic ||| curTaskID % 256)

/-- `tskLimit` is `LOSCFG_BASE_CORE_TSK_LIMIT`. -/
def osMemBoxCheckMagic (tskLimit : Nat) (m : Memory) (node : Nat) : Nat :=
  let taskID := osMemboxTaskidGet (pstNext m node)
  if taskID > tskLimit + 1 then losNok
  else if pstNext m node = osMemboxMagic ||| taskID then losOk
  else losNok

def osCheckBoxMem (tskLimit : Nat) (m : Memory) (boxInfo node : Nat) : Nat :=
  if uwBlkSize m boxInfo = 0 then losNok
  else
    let offset := sub32 node (add32 boxInfo losMemboxInfoSize)
    if offset % uwBlkSize m boxInfo ≠ 0 then losNok
    else if offset / uwBlkSize m boxInfo ≥ uwBlkNum m boxInfo then losNok
    else osMemBoxCheckMagic tskLimit m node

/-- The loop of `LOS_MemboxInit`, and the node it ends at. -/
def memboxLinkNodes (m : Memory) (node blkSize : Nat) : Nat → Memory × Nat
  | 0 => (m, node)
  | count + 1 =>
    let m := store32 m node (add32 node blkSize)
    memboxLinkNodes m (pstNext m node) blkSize count

def losMemboxInit (m : Memory) (pool poolSize blkSize : Nat) : Memory × Nat :=
  if pool = 0 then (m, losNok)
  else if blkSize = 0 then (m, losNok)
  else if poolSize < losMemboxInfoSize then (m, losNok)
  else
    let m := store32 m pool (losMemboxAlligned (add32 blkSize osMemboxNodeHeadSize))
    if uwBlkSize m pool = 0 then (m, losNok)
    else
      let m := store32 m (pool + 4) ((poolSize - losMemboxInfoSize) / uwBlkSize m pool)
      let m := store32 m (pool + 8) 0
      if uwBlkNum m pool = 0 then (m, losNok)
      else
        let node := pool + losMemboxInfoSize
        let m := store32 m (pool + 12) node
        let r := memboxLinkNodes m node (uwBlkSize m pool) (uwBlkNum m pool - 1)
        (store32 r.1 r.2 0, losOk)

def losMemboxAlloc (m : Memory) (pool curTaskID : Nat) : Memory × Nat :=
  if pool = 0 then (m, 0)
  else if stFreeList m pool ≠ 0 then
    let nodeTmp := stFreeList m pool
    let m := store32 m (pool + 12) (pstNext m nodeTmp)
    let m := osMemBoxSetMagic m nodeTmp curTaskID
    let m := store32 m (pool + 8) (add32 (uwBlkCnt m pool) 1)
    (m, osMemboxUserAddr nodeTmp)
  else (m, 0)

def losMemboxFree (tskLimit : Nat) (m : Memory) (pool box : Nat) : Memory × Nat :=
  if pool = 0 ∨ box = 0 then (m, losNok)
  else
    let node := osMemboxNodeAddr box
    if osCheckBoxMem tskLimit m pool node ≠ losOk then (m, losNok)
    else
      let m := store32 m node (stFreeList m pool)
      let m := store32 m (pool + 12) node
      let m := store32 m (pool + 8) (sub32 (uwBlkCnt m pool) 1)
      (m, losOk)

def losMemboxClr (m : Memory) (pool box : Nat) : Memory :=
  if pool = 0 ∨ box = 0 then m
  else fillBytes m box 0 (sub32 (uwBlkSize m pool) osMemboxNodeHeadSize)

end LiteosM.Membox
