import LiteosM.Kernel.Waits
import LiteosM.Lib.ByteMemory

/-!
# Queues

`los_queue.c`, and the kernel with its queues and the tasks that wait for them.
-/

namespace LiteosM.Ipc

open LiteosM.Kernel LiteosM.Lib.ByteMemory

/-- `OS_QUEUE_OPERATE_TYPE(ReadOrWrite, HeadOrTail, PointOrNot)`, each bit as a flag. -/
structure OperateType where
  write : Bool
  tail : Bool
  point : Bool
deriving DecidableEq

/-- A block that `LOS_MemAlloc` returned, with its bytes by offset. -/
structure Block where
  addr : Nat
  bytes : Memory

/-- `readWriteableCnt` has the index `OS_QUEUE_READ` or `OS_QUEUE_WRITE`, written as whether it is the
latter. -/
structure LosQueueCB where
  queue : Option Block
  queueState : Bool
  queueLen : Nat
  queueSize : Nat
  queueHead : Nat
  queueTail : Nat
  readWriteableCnt : Bool → Nat

inductive QueueErrno
  | losOk
  | queueCreatPtrNull
  | queueSizeTooBig
  | queueParaIszero
  | queueCreateNoMemory
  | queueCbUnavailable
  | queueInvalid
  | queueReadPtrNull
  | queueReadsizeIszero
  | queueReadInInterrupt
  | queueWritePtrNull
  | queueWritesizeIszero
  | queueWriteInInterrupt
  | queueNotCreate
  | queueReadSizeTooSmall
  | queueWriteSizeTooBig
  | queueIsempty
  | queueIsfull
  | queuePendInLock
  | queueTimeout
  | queueNotFound
  | queueInTskuse
  | queueInTskwrite
  | queueMailHandleInvalid
  | queueMailPtrInvalid
  | queueMailFreeError
  | queueNoMemory
  /-- What `LOS_MemFree` returns when it fails. -/
  | losNok
  /-- The caller is blocked and has no result yet. -/
  | blocked
deriving DecidableEq

/-- The arguments of `OsQueueOperate` that it needs after a wait. -/
structure QueueCall where
  queueID : Nat
  operateType : OperateType
  bufferAddr : Memory
  bufferSize : Nat

/-- A call that a task is inside, switched away. -/
inductive QueueWait
  | operate (call : QueueCall)
  | mailAlloc (queueID : Nat)

/-- `heap` has the size of each block that is allocated, by its address; `msg` is the field of the task
control block. -/
structure QueueState where
  kernel : KernelState
  queue : Nat → LosQueueCB
  pending : Nat → Option QueueWait
  msg : Nat → Option Nat
  heap : Nat → Option Nat

/-- What `OsQueueOperate` returns, with what is then at `bufferAddr` and in `*bufferSize`. -/
structure OperateReturn where
  errno : QueueErrno
  bufferAddr : Memory
  bufferSize : Nat

/-- What `OsQueueMailAlloc` returns. -/
inductive MailReturn
  | mem (mem : Option Nat)
  /-- The caller is blocked and has no result yet. -/
  | blocked

inductive QueueReturn
  | errno (ret : QueueErrno)
  | operate (ret : OperateReturn)
  | mail (ret : MailReturn)

def QueueWait.list : QueueWait → WaitList
  | .operate call => .readWriteList call.queueID call.operateType.write
  | .mailAlloc queueID => .memList queueID

def QueueState.setQueue (s : QueueState) (q : Nat) (cb : LosQueueCB) : QueueState :=
  { s with queue := Function.update s.queue q cb }

def osNullShort : Nat := 0xFFFF

def secureMemMaxLen : Nat := 0x7fffffff

def putBytes (m : Memory) (dest : Nat) (src : Memory) (count : Nat) : Memory := fun x =>
  if dest ≤ x ∧ x < dest + count then src (x - dest) else m x

/-- Whether `memcpy_s` returns `EOK`, and the memory that holds `dest`. Source and destination are
separate objects. -/
def memcpyS (m : Memory) (dest destMax : Nat) (src : Memory) (count : Nat) : Memory × Bool :=
  if destMax = 0 ∨ secureMemMaxLen < destMax then (m, false)
  else if destMax < count then (fillBytes m dest 0 destMax, false)
  else (putBytes m dest src count, true)

/-- The cast is only meaningful on a list `readWriteList[OS_QUEUE_WRITE]`. -/
def getQueueList : Node → Option Nat
  | .wait (.readWriteList queueID true) => some queueID
  | _ => none

/-- The block is one that is not allocated, or there is none that is large enough. -/
def losMemAlloc (s : QueueState) (block : Option Block) (size : Nat) : Option QueueState :=
  match block with
  | none => some s
  | some block =>
    if (s.heap block.addr).isSome then none
    else some { s with heap := Function.update s.heap block.addr (some size) }

def losMemFree (s : QueueState) (block : Option Block) : QueueState × QueueErrno :=
  match block with
  | none => (s, .losNok)
  | some block =>
    if (s.heap block.addr).isSome then
      ({ s with heap := Function.update s.heap block.addr none }, .losOk)
    else (s, .losNok)

/-- `queue` is what `LOS_MemAlloc` returns. The last component is what is written through `queueID`. -/
def losQueueCreate (s : QueueState) (len : Fin 65536) (queueID : Bool) (maxMsgSize : Fin 65536)
    (queue : Option Block) : Option (QueueState × QueueErrno × Option Nat) :=
  if !queueID then some (s, .queueCreatPtrNull, none)
  else if osNullShort - 4 < maxMsgSize.val then some (s, .queueSizeTooBig, none)
  else if len = 0 ∨ maxMsgSize = 0 then some (s, .queueParaIszero, none)
  else do
    let msgSize := maxMsgSize.val + 4
    let s ← losMemAlloc s queue (len.val * msgSize)
    match queue with
    | none => some (s, .queueCreateNoMemory, none)
    | some queue =>
      if losListEmpty s.kernel .gFreeQueueList then
        some ((losMemFree s (some queue)).1, .queueCbUnavailable, none)
      else do
        let unusedQueue := losDlListFirst s.kernel .gFreeQueueList
        let k := losListDelete s.kernel unusedQueue
        let q ← getQueueList unusedQueue
        let k := losListInit k (.wait (.readWriteList q false))
        let k := losListInit k (.wait (.readWriteList q true))
        let k := losListInit k (.wait (.memList q))
        some ({ s with kernel := k }.setQueue q
          { queue := some queue, queueState := true, queueLen := len.val, queueSize := msgSize
            queueHead := 0, queueTail := 0
            readWriteableCnt := fun write => if write then len.val else 0 }, .losOk, some (q % 2 ^ 16))

/-- The node that is read or written next. There is no operation that reads the tail. -/
def queuePosion (cb : LosQueueCB) (operateType : OperateType) : Option (Nat × LosQueueCB) :=
  match operateType.write, operateType.tail with
  | false, false =>
    some (cb.queueHead, { cb with
      queueHead := if cb.queueHead + 1 = cb.queueLen then 0 else (cb.queueHead + 1) % 2 ^ 16 })
  | true, false =>
    let queueHead := if cb.queueHead = 0 then cb.queueLen - 1 else cb.queueHead - 1
    some (queueHead, { cb with queueHead := queueHead })
  | true, true =>
    some (cb.queueTail, { cb with
      queueTail := if cb.queueTail + 1 = cb.queueLen then 0 else (cb.queueTail + 1) % 2 ^ 16 })
  | false, true => none

/-- The control block, and what is then at `bufferAddr` and in `*bufferSize`. -/
def osQueueBufferOperate (cb : LosQueueCB) (operateType : OperateType) (bufferAddr : Memory)
    (bufferSize : Nat) : Option (LosQueueCB × Memory × Nat) :=
  match queuePosion cb operateType with
  | none => some (cb, bufferAddr, bufferSize)
  | some (queuePosion, cb) => do
    let queue ← cb.queue
    let queueNode := queuePosion * cb.queueSize
    if operateType.point then
      if operateType.write then
        let bytes := putBytes queue.bytes queueNode bufferAddr 4
        some ({ cb with queue := some { queue with bytes := bytes } }, bufferAddr, bufferSize)
      else some (cb, putBytes bufferAddr 0 (fun i => queue.bytes (queueNode + i)) 4, bufferSize)
    else if operateType.write then
      let bytes := store32 queue.bytes (queueNode + cb.queueSize - 4) bufferSize
      let (bytes, _) := memcpyS bytes queueNode cb.queueSize bufferAddr bufferSize
      some ({ cb with queue := some { queue with bytes := bytes } }, bufferAddr, bufferSize)
    else
      let msgDataSize := load32 queue.bytes (queueNode + cb.queueSize - 4)
      let (bufferAddr, ok) :=
        memcpyS bufferAddr 0 bufferSize (fun i => queue.bytes (queueNode + i)) msgDataSize
      if ok then some (cb, bufferAddr, msgDataSize) else some (cb, bufferAddr, bufferSize)

def osQueueOperateParamCheck (cb : LosQueueCB) (operateType : OperateType) (bufferSize : Nat) :
    QueueErrno :=
  if !cb.queueState then .queueNotCreate
  else if !operateType.write ∧ bufferSize < cb.queueSize - 4 then .queueReadSizeTooSmall
  else if operateType.write ∧ cb.queueSize - 4 < bufferSize then .queueWriteSizeTooBig
  else .losOk

def QueueState.settle (s : QueueState) (k : KernelState) : QueueState :=
  { s with
    kernel := k
    pending := fun t => if (k.status t).unused then none else s.pending t
    msg := fun t => if (s.kernel.status t).unused ∧ !(k.status t).unused then none else s.msg t }

def QueueState.free (s : QueueState) : Bool := s.kernel.calling && (s.pending s.kernel.runTask).isNone

variable [Config]

/-- `OsQueueOperate` from the call of `OsQueueBufferOperate` on. -/
def osQueueOperateEnd (s : QueueState) (call : QueueCall) : Option (QueueState × OperateReturn) := do
  let q := call.queueID
  let (cb, bufferAddr, bufferSize) ←
    osQueueBufferOperate (s.queue q) call.operateType call.bufferAddr call.bufferSize
  let s := s.setQueue q cb
  let readWriteTmp := !call.operateType.write
  if !losListEmpty s.kernel (.wait (.readWriteList q readWriteTmp)) then
    let resumedTask ← osTcbFromPendList (losDlListFirst s.kernel (.wait (.readWriteList q readWriteTmp)))
    let k ← osSchedTaskWake s.kernel resumedTask
    some ({ s with kernel := losSchedule k }, ⟨.losOk, bufferAddr, bufferSize⟩)
  else
    let cnt := (cb.readWriteableCnt readWriteTmp + 1) % 2 ^ 16
    some (s.setQueue q { cb with
      readWriteableCnt := Function.update cb.readWriteableCnt readWriteTmp cnt },
      ⟨.losOk, bufferAddr, bufferSize⟩)

/-- `OsQueueOperate` up to its end or to the point where the caller is switched away. -/
def osQueueOperate (s : QueueState) (call : QueueCall) (timeOut : Nat) :
    Option (QueueState × OperateReturn) :=
  let readWrite := call.operateType.write
  let q := call.queueID
  let cb := s.queue q
  let ret := osQueueOperateParamCheck cb call.operateType call.bufferSize
  if ret ≠ .losOk then some (s, ⟨ret, call.bufferAddr, call.bufferSize⟩)
  else if cb.readWriteableCnt readWrite = 0 then
    if timeOut = 0 then
      some (s, ⟨if readWrite then .queueIsfull else .queueIsempty, call.bufferAddr, call.bufferSize⟩)
    else if s.kernel.gLosTaskLock ≠ 0 then some (s, ⟨.queuePendInLock, call.bufferAddr, call.bufferSize⟩)
    else
      some ({ s with
        kernel := losSchedule (osSchedTaskWait s.kernel (.readWriteList q readWrite) timeOut)
        pending := Function.update s.pending s.kernel.runTask (some (.operate call)) },
        ⟨.blocked, call.bufferAddr, call.bufferSize⟩)
  else
    let cnt := cb.readWriteableCnt readWrite - 1
    osQueueOperateEnd (s.setQueue q { cb with
      readWriteableCnt := Function.update cb.readWriteableCnt readWrite cnt }) call

/-- The rest of `OsQueueOperate`, from the return of `LOS_Schedule` on. -/
def osQueueOperateResume (s : QueueState) (call : QueueCall) : Option (QueueState × OperateReturn) :=
  let runTsk := s.kernel.runTask
  let s := { s with pending := Function.update s.pending runTsk none }
  if (s.kernel.status runTsk).timeout then
    some ({ s with kernel := s.kernel.modifyStatus runTsk fun s => { s with timeout := false } },
      ⟨.queueTimeout, call.bufferAddr, call.bufferSize⟩)
  else osQueueOperateEnd s call

def osQueueReadParameterCheck (intActive : Bool) (queueID : Nat) (bufferAddr bufferSize : Bool)
    (size timeOut : Nat) : QueueErrno :=
  if Config.queueLimit ≤ queueID then .queueInvalid
  else if !bufferAddr ∨ !bufferSize then .queueReadPtrNull
  else if size = 0 then .queueReadsizeIszero
  else if timeOut ≠ 0 ∧ intActive then .queueReadInInterrupt
  else .losOk

def osQueueWriteParameterCheck (intActive : Bool) (queueID : Nat) (bufferAddr : Bool)
    (size timeOut : Nat) : QueueErrno :=
  if Config.queueLimit ≤ queueID then .queueInvalid
  else if !bufferAddr then .queueWritePtrNull
  else if size = 0 then .queueWritesizeIszero
  else if timeOut ≠ 0 ∧ intActive then .queueWriteInInterrupt
  else .losOk

/-- What the functions below have in common: a parameter check that decides whether to go on. -/
def checked (s : QueueState) (ret : QueueErrno) (call : QueueCall) (timeOut : Nat) :
    Option (QueueState × OperateReturn) :=
  if ret ≠ .losOk then some (s, ⟨ret, call.bufferAddr, call.bufferSize⟩)
  else osQueueOperate s call timeOut

/-- What is at a null pointer is never looked at. -/
def atNull : Memory := fun _ => 0

def losQueueReadCopy (s : QueueState) (intActive : Bool) (queueID : Nat) (bufferAddr : Option Memory)
    (bufferSize : Option Nat) (timeOut : Nat) : Option (QueueState × OperateReturn) :=
  checked s (osQueueReadParameterCheck intActive queueID bufferAddr.isSome bufferSize.isSome
      (bufferSize.getD 0) timeOut)
    ⟨queueID, ⟨false, false, false⟩, bufferAddr.getD atNull, bufferSize.getD 0⟩ timeOut

def losQueueWriteHeadCopy (s : QueueState) (intActive : Bool) (queueID : Nat)
    (bufferAddr : Option Memory) (bufferSize timeOut : Nat) : Option (QueueState × OperateReturn) :=
  checked s (osQueueWriteParameterCheck intActive queueID bufferAddr.isSome bufferSize timeOut)
    ⟨queueID, ⟨true, false, false⟩, bufferAddr.getD atNull, bufferSize⟩ timeOut

def losQueueWriteCopy (s : QueueState) (intActive : Bool) (queueID : Nat)
    (bufferAddr : Option Memory) (bufferSize timeOut : Nat) : Option (QueueState × OperateReturn) :=
  checked s (osQueueWriteParameterCheck intActive queueID bufferAddr.isSome bufferSize timeOut)
    ⟨queueID, ⟨true, true, false⟩, bufferAddr.getD atNull, bufferSize⟩ timeOut

def losQueueRead (s : QueueState) (intActive : Bool) (queueID : Nat) (bufferAddr : Option Memory)
    (bufferSize timeOut : Nat) : Option (QueueState × OperateReturn) :=
  checked s (osQueueReadParameterCheck intActive queueID bufferAddr.isSome true bufferSize timeOut)
    ⟨queueID, ⟨false, false, true⟩, bufferAddr.getD atNull, bufferSize⟩ timeOut

/-- The bytes of a pointer in a variable of its own. -/
def pointerBytes (p : Nat) : Memory := fun i => byteOf p i

def losQueueWrite (s : QueueState) (intActive : Bool) (queueID : Nat) (bufferAddr timeOut : Nat) :
    Option (QueueState × OperateReturn) :=
  checked s (osQueueWriteParameterCheck intActive queueID (bufferAddr ≠ 0) 4 timeOut)
    ⟨queueID, ⟨true, true, true⟩, pointerBytes bufferAddr, 4⟩ timeOut

def losQueueWriteHead (s : QueueState) (intActive : Bool) (queueID : Nat) (bufferAddr timeOut : Nat) :
    Option (QueueState × OperateReturn) :=
  if bufferAddr = 0 then some (s, ⟨.queueWritePtrNull, pointerBytes bufferAddr, 4⟩)
  else losQueueWriteHeadCopy s intActive queueID (some (pointerBytes bufferAddr)) 4 timeOut

/-- The rest of `OsQueueMailAlloc`, from the return of `LOS_Schedule` on. -/
def osQueueMailAllocResume (s : QueueState) : QueueState × MailReturn :=
  let runTsk := s.kernel.runTask
  let s := { s with pending := Function.update s.pending runTsk none }
  if (s.kernel.status runTsk).timeout then
    ({ s with kernel := s.kernel.modifyStatus runTsk fun s => { s with timeout := false } }, .mem none)
  else ({ s with msg := Function.update s.msg runTsk none }, .mem (s.msg runTsk))

/-- `mem` is what `LOS_MemboxAlloc` returns. With the scheduler locked `LOS_Schedule` does nothing, and
the caller goes on. -/
def osQueueMailAlloc (s : QueueState) (intActive : Bool) (queueID : Nat) (mailPool : Bool) (timeOut : Nat)
    (mem : Option Nat) : QueueState × MailReturn :=
  if Config.queueLimit ≤ queueID then (s, .mem none)
  else if !mailPool then (s, .mem none)
  else if timeOut ≠ 0 ∧ intActive then (s, .mem none)
  else if !(s.queue queueID).queueState then (s, .mem none)
  else
    match mem with
    | some mem => (s, .mem (some mem))
    | none =>
      if timeOut = 0 then (s, .mem none)
      else
        let runTsk := s.kernel.runTask
        let k := losSchedule (osSchedTaskWait s.kernel (.memList queueID) timeOut)
        if s.kernel.gLosTaskLock ≠ 0 then osQueueMailAllocResume { s with kernel := k }
        else
          ({ s with
            kernel := k
            pending := Function.update s.pending runTsk (some (.mailAlloc queueID)) }, .blocked)

/-- `freed` is whether `LOS_MemboxFree` succeeds, `mem` what `LOS_MemboxAlloc` returns. -/
def osQueueMailFree (s : QueueState) (queueID : Nat) (mailPool freed : Bool) (mem : Option Nat) :
    Option (QueueState × QueueErrno) :=
  if Config.queueLimit ≤ queueID then some (s, .queueMailHandleInvalid)
  else if !mailPool then some (s, .queueMailPtrInvalid)
  else if !freed then some (s, .queueMailFreeError)
  else if !(s.queue queueID).queueState then some (s, .queueNotCreate)
  else if !losListEmpty s.kernel (.wait (.memList queueID)) then do
    let resumedTask ← osTcbFromPendList (losDlListFirst s.kernel (.wait (.memList queueID)))
    let k ← osSchedTaskWake s.kernel resumedTask
    match mem with
    | none => some ({ s with kernel := k }, .queueNoMemory)
    | some mem =>
      some ({ s with
        kernel := losSchedule k
        msg := Function.update s.msg resumedTask (some mem) }, .losOk)
  else some (s, .losOk)

def losQueueDelete (s : QueueState) (q : Nat) : QueueState × QueueErrno :=
  if Config.queueLimit ≤ q then (s, .queueNotFound)
  else
    let cb := s.queue q
    if !cb.queueState then (s, .queueNotCreate)
    else if !losListEmpty s.kernel (.wait (.readWriteList q false)) then (s, .queueInTskuse)
    else if !losListEmpty s.kernel (.wait (.readWriteList q true)) then (s, .queueInTskuse)
    else if !losListEmpty s.kernel (.wait (.memList q)) then (s, .queueInTskuse)
    else if cb.readWriteableCnt true + cb.readWriteableCnt false ≠ cb.queueLen then (s, .queueInTskwrite)
    else
      let s := s.setQueue q { cb with queue := none, queueState := false }
      let s := { s with kernel := losListAdd s.kernel .gFreeQueueList (.wait (.readWriteList q true)) }
      losMemFree s cb.queue

/-- The control blocks start out cleared, all of them on the free list. -/
def osQueueInit (s : QueueState) : QueueState :=
  let s := { s with
    queue := fun _ => ⟨none, false, 0, 0, 0, 0, fun _ => 0⟩
    kernel := losListInit s.kernel .gFreeQueueList }
  { s with
    kernel := (List.range Config.queueLimit).foldl (fun k index =>
      losListTailInsert k .gFreeQueueList (.wait (.readWriteList index true))) s.kernel }

/-- `intActive` says that an interrupt makes the call. -/
inductive QueueEvent
  | create (len : Fin 65536) (queueID : Bool) (maxMsgSize : Fin 65536) (queue : Option Block)
  | delete (queueID : Nat)
  | readCopy (intActive : Bool) (queueID : Nat) (bufferAddr : Option Memory) (bufferSize : Option Nat)
      (timeOut : Nat)
  | writeHeadCopy (intActive : Bool) (queueID : Nat) (bufferAddr : Option Memory)
      (bufferSize timeOut : Nat)
  | writeCopy (intActive : Bool) (queueID : Nat) (bufferAddr : Option Memory) (bufferSize timeOut : Nat)
  | read (intActive : Bool) (queueID : Nat) (bufferAddr : Option Memory) (bufferSize timeOut : Nat)
  | write (intActive : Bool) (queueID bufferAddr timeOut : Nat)
  | writeHead (intActive : Bool) (queueID bufferAddr timeOut : Nat)
  | mailAlloc (intActive : Bool) (queueID : Nat) (mailPool : Bool) (timeOut : Nat) (mem : Option Nat)
  | mailFree (queueID : Nat) (mailPool freed : Bool) (mem : Option Nat)
  | resume
  | kernel (event : KernelEvent)

/-- A call that comes to `OsQueueOperate`: what its parameter check returns, and its arguments. -/
structure OperateCall where
  intActive : Bool
  ret : QueueErrno
  call : QueueCall
  timeOut : Nat

def QueueEvent.operate : QueueEvent → Option OperateCall
  | .readCopy intActive q bufferAddr bufferSize timeOut =>
    some ⟨intActive, osQueueReadParameterCheck intActive q bufferAddr.isSome bufferSize.isSome
      (bufferSize.getD 0) timeOut,
      ⟨q, ⟨false, false, false⟩, bufferAddr.getD atNull, bufferSize.getD 0⟩, timeOut⟩
  | .writeHeadCopy intActive q bufferAddr bufferSize timeOut =>
    some ⟨intActive, osQueueWriteParameterCheck intActive q bufferAddr.isSome bufferSize timeOut,
      ⟨q, ⟨true, false, false⟩, bufferAddr.getD atNull, bufferSize⟩, timeOut⟩
  | .writeCopy intActive q bufferAddr bufferSize timeOut =>
    some ⟨intActive, osQueueWriteParameterCheck intActive q bufferAddr.isSome bufferSize timeOut,
      ⟨q, ⟨true, true, false⟩, bufferAddr.getD atNull, bufferSize⟩, timeOut⟩
  | .read intActive q bufferAddr bufferSize timeOut =>
    some ⟨intActive, osQueueReadParameterCheck intActive q bufferAddr.isSome true bufferSize timeOut,
      ⟨q, ⟨false, false, true⟩, bufferAddr.getD atNull, bufferSize⟩, timeOut⟩
  | .write intActive q bufferAddr timeOut =>
    some ⟨intActive, osQueueWriteParameterCheck intActive q (bufferAddr ≠ 0) 4 timeOut,
      ⟨q, ⟨true, true, true⟩, pointerBytes bufferAddr, 4⟩, timeOut⟩
  | .writeHead intActive q bufferAddr timeOut =>
    some ⟨intActive, if bufferAddr = 0 then .queueWritePtrNull
      else osQueueWriteParameterCheck intActive q true 4 timeOut,
      ⟨q, ⟨true, false, false⟩, pointerBytes bufferAddr, 4⟩, timeOut⟩
  | _ => none

def QueueState.calls (s : QueueState) (intActive : Bool) (r : Option (QueueState × OperateReturn)) :
    Option (QueueState × QueueReturn) :=
  if intActive ∨ s.free then r.map fun r => (r.1, .operate r.2) else none

/-- The rest of the call that the running task is inside. -/
def resumeStep (s : QueueState) : QueueWait → Option (QueueState × QueueReturn)
  | .operate call => (osQueueOperateResume s call).map fun r => (r.1, .operate r.2)
  | .mailAlloc _ => some ((osQueueMailAllocResume s).1, .mail (osQueueMailAllocResume s).2)

def queueStep (s : QueueState) : QueueEvent → Option (QueueState × QueueReturn)
  | .create len queueID maxMsgSize queue =>
    (losQueueCreate s len queueID maxMsgSize queue).map fun r => (r.1, .errno r.2.1)
  | .delete q => some ((losQueueDelete s q).1, .errno (losQueueDelete s q).2)
  | .readCopy intActive q bufferAddr bufferSize timeOut =>
    s.calls intActive (losQueueReadCopy s intActive q bufferAddr bufferSize timeOut)
  | .writeHeadCopy intActive q bufferAddr bufferSize timeOut =>
    s.calls intActive (losQueueWriteHeadCopy s intActive q bufferAddr bufferSize timeOut)
  | .writeCopy intActive q bufferAddr bufferSize timeOut =>
    s.calls intActive (losQueueWriteCopy s intActive q bufferAddr bufferSize timeOut)
  | .read intActive q bufferAddr bufferSize timeOut =>
    s.calls intActive (losQueueRead s intActive q bufferAddr bufferSize timeOut)
  | .write intActive q bufferAddr timeOut =>
    s.calls intActive (losQueueWrite s intActive q bufferAddr timeOut)
  | .writeHead intActive q bufferAddr timeOut =>
    s.calls intActive (losQueueWriteHead s intActive q bufferAddr timeOut)
  | .mailAlloc intActive q mailPool timeOut mem =>
    if intActive ∨ s.free then
      some ((osQueueMailAlloc s intActive q mailPool timeOut mem).1,
        .mail (osQueueMailAlloc s intActive q mailPool timeOut mem).2)
    else none
  | .mailFree q mailPool freed mem =>
    (osQueueMailFree s q mailPool freed mem).map fun r => (r.1, .errno r.2)
  | .resume =>
    if s.kernel.calling then (s.pending s.kernel.runTask).bind (resumeStep s) else none
  | .kernel event =>
    if event.own ∧ (s.pending s.kernel.runTask).isSome then none
    else (kernelStep s.kernel event).map fun k => (s.settle k, .errno .losOk)

def QueueBooted (s : QueueState) : Prop :=
  ∃ s₀ : QueueState, Booted s₀.kernel ∧ (∀ t, s₀.pending t = none) ∧ s = osQueueInit s₀

def smallQueue : QueueState :=
  letI := smallConfig
  osQueueInit
    ⟨smallKernel, fun _ => ⟨none, false, 0, 0, 0, 0, fun _ => 0⟩, fun _ => none, fun _ => none, fun _ => none⟩

omit [Config] in
theorem smallQueue_booted : @QueueBooted smallConfig smallQueue :=
  ⟨_, smallKernel_booted, fun _ => rfl, rfl⟩

variable {s : QueueState} {event : QueueEvent} {c : OperateCall}

/-- The functions that read and write differ in their parameter check and their arguments. -/
theorem queueStep_operate (h : event.operate = some c) :
    queueStep s event = s.calls c.intActive (checked s c.ret c.call c.timeOut) := by
  cases event with
  | writeHead intActive q bufferAddr timeOut =>
    obtain rfl := Option.some.inj h
    show s.calls intActive (losQueueWriteHead s intActive q bufferAddr timeOut) = _
    unfold losQueueWriteHead
    by_cases h0 : bufferAddr = 0
    · simp [h0, checked]
    · simp [h0, losQueueWriteHeadCopy]
  | readCopy | writeHeadCopy | writeCopy | read | write =>
    obtain rfl := Option.some.inj h
    rfl
  | _ => cases h

/-- What the parameter check of a call that goes on has seen to. -/
structure Checked (c : OperateCall) : Prop where
  queueID : c.call.queueID < Config.queueLimit
  size : c.call.bufferSize ≠ 0
  task : c.timeOut ≠ 0 → c.intActive = false
  head : c.call.operateType.write = false → c.call.operateType.tail = false
  point : c.call.operateType.write = true → c.call.operateType.point = true → c.call.bufferSize = 4

theorem osQueueWriteParameterCheck_ok {intActive bufferAddr : Bool} {queueID size timeOut : Nat}
    (h : osQueueWriteParameterCheck intActive queueID bufferAddr size timeOut = .losOk) :
    queueID < Config.queueLimit ∧ size ≠ 0 ∧ (timeOut ≠ 0 → intActive = false) := by
  unfold osQueueWriteParameterCheck at h
  split at h <;> [cases h; skip]
  next hq =>
  split at h <;> [cases h; skip]
  split at h <;> [cases h; skip]
  next hs =>
  split at h <;> [cases h; skip]
  next ht =>
  exact ⟨Nat.lt_of_not_le hq, hs, fun hne => by simpa using fun hi => ht ⟨hne, hi⟩⟩

theorem osQueueReadParameterCheck_ok {intActive bufferAddr bufferSize : Bool} {queueID size timeOut : Nat}
    (h : osQueueReadParameterCheck intActive queueID bufferAddr bufferSize size timeOut = .losOk) :
    queueID < Config.queueLimit ∧ size ≠ 0 ∧ (timeOut ≠ 0 → intActive = false) := by
  unfold osQueueReadParameterCheck at h
  split at h <;> [cases h; skip]
  next hq =>
  split at h <;> [cases h; skip]
  split at h <;> [cases h; skip]
  next hs =>
  split at h <;> [cases h; skip]
  next ht =>
  exact ⟨Nat.lt_of_not_le hq, hs, fun hne => by simpa using fun hi => ht ⟨hne, hi⟩⟩

theorem operate_checked (h : event.operate = some c) (hret : c.ret = .losOk) : Checked c := by
  cases event with
  | readCopy | read =>
    obtain rfl := Option.some.inj h
    obtain ⟨h1, h2, h3⟩ := osQueueReadParameterCheck_ok hret
    exact ⟨h1, h2, h3, fun _ => rfl, nofun⟩
  | writeHeadCopy | writeCopy =>
    obtain rfl := Option.some.inj h
    obtain ⟨h1, h2, h3⟩ := osQueueWriteParameterCheck_ok hret
    exact ⟨h1, h2, h3, nofun, nofun⟩
  | write =>
    obtain rfl := Option.some.inj h
    obtain ⟨h1, h2, h3⟩ := osQueueWriteParameterCheck_ok hret
    exact ⟨h1, h2, h3, nofun, fun _ _ => rfl⟩
  | writeHead intActive q bufferAddr timeOut =>
    obtain rfl := Option.some.inj h
    by_cases h0 : bufferAddr = 0
    · rw [show (if bufferAddr = 0 then QueueErrno.queueWritePtrNull else _) = .queueWritePtrNull from
        if_pos h0] at hret
      cases hret
    · have hret' := (if_neg h0).symm.trans hret
      obtain ⟨h1, h2, h3⟩ := osQueueWriteParameterCheck_ok hret'
      exact ⟨h1, h2, h3, nofun, nofun⟩
  | _ => cases h

end LiteosM.Ipc
