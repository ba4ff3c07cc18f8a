import LiteosM.Lib.DlList
import Mathlib.Algebra.GroupWithZero.Nat
import Mathlib.Algebra.Order.Monoid.Unbundled.WithTop
import Mathlib.Order.WithBot

/-!
# Kernel data

The task control blocks, the list nodes embedded in them and in the control blocks of
the IPC objects, and the scheduler's global variables.
-/

namespace LiteosM.Kernel

open LiteosM.Lib.DlList

/-- The build-time configuration. -/
class Config where
  /-- `LOSCFG_BASE_CORE_TSK_LIMIT` -/
  tskLimit : Nat
  semLimit : Nat
  muxLimit : Nat
  queueLimit : Nat
  osSchedTimeSlices : Int
  osTimeSliceMin : Int
  osCyclePerTick : Nat
  sysHeapSize : Nat
  tskDefaultStackSize : Nat
  tskMinStackSize : Nat
  osTaskStackAddrAlign : Nat
  osIdleTaskEntry : Nat

/-- A header on which tasks block. -/
inductive WaitList
  | semList (semID : Nat)
  | muxList (muxID : Nat)
  | readWriteList (queueID : Nat) (write : Bool)
  | memList (queueID : Nat)
  | stEventList (eventCB : Nat)
deriving DecidableEq

/-- The addresses of `LOS_DL_LIST` objects. -/
inductive Node
  | null
  | pendList (task : Nat)
  | sortLinkNode (task : Nat)
  | gPriQueueList (priority : Nat)
  | gLosFreeTask
  | gTaskRecyleList
  | gTaskSortLink
  | gUnusedSemList
  | gUnusedMuxList
  | gFreeQueueList
  | wait (list : WaitList)
deriving DecidableEq

def Node.isObject : Node → Bool
  | .wait _ => true
  | .gUnusedSemList => true
  | .gUnusedMuxList => true
  | .gFreeQueueList => true
  | _ => false

/-- The bits `OS_TASK_STATUS_*`. -/
structure TaskStatus where
  unused : Bool
  suspend : Bool
  ready : Bool
  pend : Bool
  running : Bool
  delay : Bool
  timeout : Bool
  pendTime : Bool
deriving DecidableEq

def noStatus : TaskStatus := ⟨false, false, false, false, false, false, false, false⟩

def osTaskStatusUnused : TaskStatus := { noStatus with unused := true }

def osTaskStatusSuspend : TaskStatus := { noStatus with suspend := true }

/-- `⊤` stands for `OS_SORT_LINK_INVALID_TIME`. -/
structure LosTaskCB where
  taskID : Nat
  taskStatus : TaskStatus
  priority : Nat
  timeSlice : Int
  waitTimes : Nat
  startTime : Nat
  responseTime : WithTop Nat
  taskSem : Option Nat
  taskMux : Option Nat

/-- `runTask` and `newTask` are indices into `g_taskCBArray`; `pendSV` is the request bit
that `HalTaskSchedule` sets in the interrupt controller, `cycle` the hardware counter. -/
structure KernelState where
  links : Store Node
  gTaskCBArray : Nat → LosTaskCB
  gQueueBitmap : BitVec 32
  runTask : Nat
  newTask : Nat
  gIdleTaskID : Nat
  gSwtmrTaskID : Nat
  gLosTaskLock : Nat
  gTaskScheduled : Bool
  pendSV : Bool
  cycle : Nat

def osPriorityQueueNum : Nat := 32

def osTaskPriorityLowest : Nat := 31

def priqueuePrior0Bit : BitVec 32 := 0x80000000#32

def losWaitForever : Nat := 0xFFFFFFFF

def osInvalid : Nat := 0xFFFFFFFF

section

variable [Config]

def gTaskMaxNum : Nat := Config.tskLimit + 1

end

def KernelState.modifyTask (k : KernelState) (task : Nat) (f : LosTaskCB → LosTaskCB) : KernelState :=
  { k with gTaskCBArray := Function.update k.gTaskCBArray task (f (k.gTaskCBArray task)) }

def KernelState.status (k : KernelState) (task : Nat) : TaskStatus := (k.gTaskCBArray task).taskStatus

def KernelState.modifyStatus (k : KernelState) (task : Nat) (f : TaskStatus → TaskStatus) : KernelState :=
  k.modifyTask task fun cb => { cb with taskStatus := f cb.taskStatus }

def losListInit (k : KernelState) (list : Node) : KernelState := { k with links := listInit k.links list }

def losListAdd (k : KernelState) (list node : Node) : KernelState :=
  { k with links := listAdd k.links list node }

def losListTailInsert (k : KernelState) (list node : Node) : KernelState :=
  { k with links := listTailInsert k.links list node }

def losListDelete (k : KernelState) (node : Node) : KernelState :=
  { k with links := listDelete .null k.links node }

def losListEmpty (k : KernelState) (list : Node) : Bool := listEmpty k.links list

def losDlListFirst (k : KernelState) (list : Node) : Node := k.links.next list

/-- The cast is only meaningful on a `pendList`. -/
def osTcbFromPendList : Node → Option Nat
  | .pendList task => some task
  | _ => none

/-- The cast is only meaningful on a `sortLinkNode`. -/
def sortLinkEntry : Node → Option Nat
  | .sortLinkNode task => some task
  | _ => none

/-- Conversion to `INT32`. -/
def toInt32 (x : Int) : Int := x.bmod (2 ^ 32)

/-- The `CLZ` instruction. -/
def clz (x : BitVec 32) : Nat := ((List.range 32).find? fun i => x.getMsbD i).getD 32

end LiteosM.Kernel
