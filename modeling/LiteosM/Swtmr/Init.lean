import LiteosM.Ipc.Queue
import LiteosM.Stack.Create
import LiteosM.Swtmr.Source

/-!
# Setting up the timers

`OsSwtmrInit` over the bytes of the heap, with the two creations it makes. A control block is a
record of 48 bytes: `pstNext` 0, `ucState` 4, `ucMode` 5, `ucRouses` 6, `ucSensitive` 7,
`usTimerID` 8, `uwCount` 12, `uwInterval` 16, `uwArg` 20, `pfnHandler` 24, `stSortList` 32 with
`responseTime` 40.
-/

namespace LiteosM.SwtmrInit

open LiteosM.Kernel LiteosM.Heap LiteosM.TaskCreate LiteosM.Swtmr LiteosM.Lib.ByteMemory LiteosM.Lib.Word32

inductive SwtmrInitErrno
  | losOk
  | losNok
  | swtmrNoMemory
  | swtmrQueueCreateFailed
  | swtmrTaskCreateFailed
deriving DecidableEq

inductive SortLinkType
  | task
  | swtmr
deriving DecidableEq

/-- What `LOS_QueueCreate` writes to a control block. -/
structure QueueCB where
  queue : Nat
  queueLen : Nat
  queueSize : Nat
  inUse : Bool
  readable : Nat
  writeable : Nat
  queueHead : Nat
  queueTail : Nat

/-- The tasks and the heap, the queues, and the globals of the timers. -/
structure InitState where
  create : CreateState
  gFreeQueueList : List Nat
  gAllQueue : Nat → QueueCB
  gSwtmrHandlerQueue : Nat
  gSwtmrAlignID : Nat → SwtmrAlignData
  gSwtmrCBArray : Nat
  gSwtmrFreeList : Nat
  gSwtmrSortLinkList : Option SortLinkType
  gSwtmrSortLink : List Nat
  gSwtmrScan : Bool

def swtmrCtrlSize : Nat := 48

def swtmrHandlerItemSize : Nat := 8

def setPstNext (m : Memory) (swtmr v : Nat) : Memory := store32 m swtmr v

def setUsTimerID (m : Memory) (swtmr v : Nat) : Memory := store32 m (swtmr + 8) v

/-- The loop over the other control blocks. The results are the memory and where `swtmr` is then. -/
def initRecords : (rounds : Nat) → Memory → (index swtmr temp : Nat) → Memory × Nat
  | 0, m, _, swtmr, _ => (m, swtmr)
  | rounds + 1, m, index, swtmr, temp =>
    let m := setUsTimerID m swtmr index
    let m := setPstNext m temp swtmr
    initRecords rounds m (index + 1) (swtmr + swtmrCtrlSize) swtmr

def InitState.mem (s : InitState) : Memory := s.create.mem

def InitState.setMem (s : InitState) (m : Memory) : InitState := { s with create := { s.create with mem := m } }

section

variable [Config] [StackConfig] [SwtmrConfig]

/-- `m_aucSysMem0`, where the stacks come from too. -/
def sysMem0 : Nat := StackConfig.osTaskStackAddr

def losQueueCreate (s : InitState) (len : Nat) (queueID : Bool) (maxMsgSize : Nat) :
    InitState × Ipc.QueueErrno × Option Nat :=
  if !queueID then (s, .queueCreatPtrNull, none)
  else if Ipc.osNullShort - 4 < maxMsgSize then (s, .queueSizeTooBig, none)
  else if len = 0 ∨ maxMsgSize = 0 then (s, .queueParaIszero, none)
  else
    let msgSize := maxMsgSize + 4
    let r := losMemAlloc s.mem sysMem0 (len * msgSize)
    let queue := r.2
    let s := s.setMem r.1
    if queue = 0 then (s, .queueCreateNoMemory, none)
    else
      match s.gFreeQueueList with
      | [] => (s.setMem (losMemFree s.mem sysMem0 queue).1, .queueCbUnavailable, none)
      | q :: rest =>
        ({ s with
          gFreeQueueList := rest
          gAllQueue := Function.update s.gAllQueue q ⟨queue, len, msgSize, true, 0, len, 0, 0⟩ }, .losOk, some q)

/-- `LOS_TaskCreate` on top of `LOS_TaskCreateOnly`. -/
def losTaskCreate (s : CreateState) (taskID : Bool) (taskInitParam : Option TskInitParam) :
    Option (CreateState × Errno × Option Nat) := do
  let r ← losTaskCreateOnly s taskID taskInitParam
  match r.2.2 with
  | none => some r
  | some taskID =>
    let k ← osSchedTaskEnQueue r.1.kernel taskID
    some ({ r.1 with kernel := if k.gTaskScheduled then losSchedule k else k }, .losOk, some taskID)

/-- The parameters of the timer task; `entry` is the address of `OsSwtmrTask`. -/
def swtmrTask (entry stackSize : Nat) : TskInitParam :=
  { pfnTaskEntry := some entry
    usTaskPrio := 0
    uwStackSize := stackSize
    pcName := some "Swt_Task" }

def osSwtmrTaskCreate (entry stackSize : Nat) (s : InitState) : Option (InitState × Errno) := do
  let r ← losTaskCreate s.create true (some (swtmrTask entry stackSize))
  match r.2.2 with
  | none => some ({ s with create := r.1 }, r.2.1)
  | some taskID =>
    some ({ s with create := { r.1 with kernel := { r.1.kernel with gSwtmrTaskID := taskID } } }, r.2.1)

def osGetSortLinkAttribute (type : SortLinkType) : Option SortLinkType := some type

def osSortLinkInit (s : InitState) : InitState × SwtmrInitErrno := ({ s with gSwtmrSortLink := [] }, .losOk)

def osSchedSwtmrScanRegister (s : InitState) (func : Bool) : InitState × SwtmrInitErrno :=
  if !func then (s, .losNok) else ({ s with gSwtmrScan := func }, .losOk)

/-- The control blocks, as the memory and the pointer `swtmr` are behind the loop. -/
def initArray (m : Memory) (swtmr : Nat) : Memory × Nat :=
  let m := fillBytes m swtmr 0 (swtmrCtrlSize * SwtmrConfig.swtmrLimit)
  let m := setUsTimerID m swtmr 0
  initRecords (SwtmrConfig.swtmrLimit - 1) m 1 (swtmr + swtmrCtrlSize) swtmr

/-- The state before the array is asked for. -/
def clearAlign (s : InitState) : InitState := { s with gSwtmrAlignID := fun _ => noAlign }

def arrayAlloc (s : InitState) : Memory × Nat :=
  losMemAlloc s.mem sysMem0 (swtmrCtrlSize * SwtmrConfig.swtmrLimit)

def withArray (s : InitState) : InitState :=
  { (clearAlign s).setMem (initArray (arrayAlloc s).1 (arrayAlloc s).2).1 with
    gSwtmrCBArray := (arrayAlloc s).2
    gSwtmrFreeList := (arrayAlloc s).2 }

def handlerQueueCreate (s : InitState) : InitState × Ipc.QueueErrno × Option Nat :=
  losQueueCreate s SwtmrConfig.swtmrLimit true swtmrHandlerItemSize

/-- `LOS_QueueCreate` writes the ID only when it succeeds. -/
def withQueue (r : InitState × Ipc.QueueErrno × Option Nat) : InitState :=
  match r.2.2 with
  | none => r.1
  | some queueID => { r.1 with gSwtmrHandlerQueue := queueID }

/-- `LOS_MemFree(m_aucSysMem0, swtmr)` in front of an error. -/
def freeSwtmr (s : InitState) (swtmr : Nat) : InitState := s.setMem (losMemFree s.mem sysMem0 swtmr).1

/-- `OsSwtmrInit`. -/
def osSwtmrInit (entry stackSize : Nat) (s : InitState) : Option (InitState × SwtmrInitErrno) :=
  if (arrayAlloc s).2 = 0 then some ((clearAlign s).setMem (arrayAlloc s).1, .swtmrNoMemory)
  else
    let swtmr := (initArray (arrayAlloc s).1 (arrayAlloc s).2).2
    let queue := handlerQueueCreate (withArray s)
    let s := withQueue queue
    if queue.2.1 ≠ .losOk then some (freeSwtmr s swtmr, .swtmrQueueCreateFailed)
    else do
      let task ← osSwtmrTaskCreate entry stackSize s
      let s := task.1
      if task.2 ≠ .losOk then some (freeSwtmr s swtmr, .swtmrTaskCreateFailed)
      else
        let s := { s with gSwtmrSortLinkList := osGetSortLinkAttribute .swtmr }
        if s.gSwtmrSortLinkList.isNone then some (freeSwtmr s swtmr, .losNok)
        else
          let sort := osSortLinkInit s
          let s := sort.1
          if sort.2 ≠ .losOk then some (freeSwtmr s swtmr, .losNok)
          else
            let scan := osSchedSwtmrScanRegister s true
            let s := scan.1
            if scan.2 ≠ .losOk then some (freeSwtmr s swtmr, .losNok)
            else some (s, .losOk)

end

end LiteosM.SwtmrInit
