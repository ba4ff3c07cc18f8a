import LiteosM.Cmsis.KernelLock
import LiteosM.Kernel.Suspended
import LiteosM.Lib.Counting

/-!
# The threads of CMSIS

`cmsis_liteos2.c` on the task calls of the kernel. A thread is the index of its control block; `intActive`
says that the call comes from an interrupt.
-/

namespace LiteosM.Cmsis

open LiteosM.Kernel LiteosM.Lib.DlList LiteosM.Lib.Transition LiteosM.Lib.Counting

/-- `osThreadState_t`, without what no function returns. -/
inductive OsThreadState
  | osThreadInactive
  | osThreadReady
  | osThreadRunning
  | osThreadBlocked
  | osThreadError
deriving DecidableEq

class ThreadConfig extends Config where
  /-- `LOSCFG_BASE_CORE_TSK_DEFAULT_PRIO` -/
  tskDefaultPrio : Nat
  tskDefaultPrio_le : tskDefaultPrio ≤ osTaskPriorityLowest

structure OsThreadAttr where
  name : Option String
  stackSize : Nat
  priority : Int

def osPriorityNormal : Int := 24

def osPriorityISR : Int := 56

def osPriorityError : Int := -1

variable [ThreadConfig]

/-- `LOS_PRIORITY`, converted to `UINT16`. -/
def losPriority (cmsisPriority : Int) : Nat :=
  ((ThreadConfig.tskDefaultPrio - (cmsisPriority - osPriorityNormal)) % 65536).toNat

/-- `CMSIS_PRIORITY` -/
def cmsisPriority (losPriority : Nat) : Int := osPriorityNormal + (ThreadConfig.tskDefaultPrio - losPriority)

/-- `ISVALID_LOS_PRIORITY` -/
def isvalidLosPriority (losPrio : Nat) : Bool := decide (0 < losPrio) && decide (losPrio < osTaskPriorityLowest)

/-- `LOS_TaskPriGet` of `los_task.c`. -/
def losTaskPriGet (k : KernelState) (taskID : Nat) : Nat :=
  if gTaskMaxNum ≤ taskID then osInvalid % 65536
  else if (k.status taskID).unused then osInvalid % 65536
  else (k.gTaskCBArray taskID).priority

def attrPriority (attr : Option OsThreadAttr) : Nat :=
  match attr with
  | some attr => losPriority attr.priority
  | none => ThreadConfig.tskDefaultPrio

def threadInitParam (func : Nat) (attr : Option OsThreadAttr) (usPriority : Nat) : TskInitParam where
  pfnTaskEntry := some func
  usTaskPrio := usPriority
  uwStackSize := (attr.map OsThreadAttr.stackSize).getD Config.tskDefaultStackSize
  pcName := match attr with
    | some attr => attr.name
    | none => some "[NULL]"

/-- `topOfStack` says whether there is memory for the stack. -/
def osThreadNew (k : KernelState) (intActive : Bool) (func : Option Nat) (attr : Option OsThreadAttr)
    (topOfStack : Bool) : Option (KernelState × Option Nat) :=
  if intActive then some (k, none)
  else
    match func with
    | none => some (k, none)
    | some func =>
      let usPriority := attrPriority attr
      if !isvalidLosPriority usPriority then some (k, none)
      else
        (losTaskCreate k true (some (threadInitParam func attr usPriority)) topOfStack).map fun r =>
          if r.2.1 ≠ .losOk then (r.1, none) else (r.1, r.2.2)

def osThreadGetId (k : KernelState) (intActive : Bool) : Option Nat := if intActive then none else some k.runTask

def osThreadGetState (k : KernelState) (intActive : Bool) (threadId : Option Nat) : OsThreadState :=
  if intActive then .osThreadError
  else
    match threadId with
    | none => .osThreadError
    | some pstTaskCB =>
      let taskStatus := k.status pstTaskCB
      if taskStatus.running then .osThreadRunning
      else if taskStatus.ready then .osThreadReady
      else if taskStatus.delay || taskStatus.pend || taskStatus.suspend then .osThreadBlocked
      else if taskStatus.unused then .osThreadInactive
      else .osThreadError

def osThreadSetPriority (k : KernelState) (intActive : Bool) (threadId : Option Nat) (priority : Int) :
    Option (KernelState × OsStatus) :=
  if intActive then some (k, .osErrorISR)
  else
    match threadId with
    | none => some (k, .osErrorParameter)
    | some pstTaskCB =>
      let usPriority := losPriority priority
      if !isvalidLosPriority usPriority then some (k, .osErrorParameter)
      else
        (losTaskPriSet k (k.gTaskCBArray pstTaskCB).taskID usPriority).map fun r =>
          (r.1, match r.2 with
            | .tskPriorError => .osErrorParameter
            | .tskOperateIdle => .osErrorParameter
            | .tskIdInvalid => .osErrorParameter
            | .tskNotCreated => .osErrorResource
            | _ => .osOK)

def osThreadGetPriority (k : KernelState) (intActive : Bool) (threadId : Option Nat) : Int :=
  if intActive then osPriorityError
  else
    match threadId with
    | none => osPriorityError
    | some pstTaskCB =>
      let usRet := losTaskPriGet k (k.gTaskCBArray pstTaskCB).taskID
      if usRet = osInvalid % 65536 then osPriorityError else cmsisPriority usRet

def osThreadYield (k : KernelState) (intActive : Bool) : KernelState × OsStatus :=
  if intActive then (k, .osErrorISR)
  else
    let r := losTaskYield k
    if r.2 = .losOk then (r.1, .osOK) else (r.1, .osError)

/-- A task call on the thread, with what becomes of its result. -/
def onThread (k : KernelState) (intActive : Bool) (threadId : Option Nat)
    (taskCall : Nat → Option (KernelState × Errno)) (answer : Errno → OsStatus) : Option (KernelState × OsStatus) :=
  if intActive then some (k, .osErrorISR)
  else
    match threadId with
    | none => some (k, .osErrorParameter)
    | some pstTaskCB => (taskCall (k.gTaskCBArray pstTaskCB).taskID).map fun r => (r.1, answer r.2)

def osThreadSuspend (k : KernelState) (intActive : Bool) (threadId : Option Nat) :
    Option (KernelState × OsStatus) :=
  onThread k intActive threadId (losTaskSuspend k) fun uwRet =>
    match uwRet with
    | .tskOperateIdle => .osErrorParameter
    | .tskSuspendSwtmrNotAllowed => .osErrorParameter
    | .tskIdInvalid => .osErrorParameter
    | .tskNotCreated => .osErrorResource
    | .tskAlreadySuspended => .osErrorResource
    | .tskSuspendLocked => .osErrorResource
    | _ => .osOK

def osThreadResume (k : KernelState) (intActive : Bool) (threadId : Option Nat) :
    Option (KernelState × OsStatus) :=
  onThread k intActive threadId (losTaskResume k) fun uwRet =>
    match uwRet with
    | .tskIdInvalid => .osErrorParameter
    | .tskNotCreated => .osErrorResource
    | .tskNotSuspended => .osErrorResource
    | _ => .osOK

def osThreadTerminate (k : KernelState) (intActive : Bool) (threadId : Option Nat) :
    Option (KernelState × OsStatus) :=
  onThread k intActive threadId (losTaskDelete k) fun uwRet =>
    match uwRet with
    | .tskOperateIdle => .osErrorParameter
    | .tskSuspendSwtmrNotAllowed => .osErrorParameter
    | .tskIdInvalid => .osErrorParameter
    | .tskNotCreated => .osErrorResource
    | _ => .osOK

def osThreadGetCount (k : KernelState) (intActive : Bool) : Nat :=
  if intActive then 0 else countBelow (Config.tskLimit + 1) fun index => !(k.status index).unused

/-- `LOS_TaskDelete(LOS_CurTaskIDGet())` -/
def osThreadExit (k : KernelState) : Option KernelState :=
  (losTaskDelete k (k.gTaskCBArray k.runTask).taskID).map Prod.fst

end LiteosM.Cmsis
