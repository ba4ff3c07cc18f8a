import LiteosM.Kernel.Sched

/-!
# Task management

The task calls of `los_task.c`. The heap behind the task stacks is not part of the
model: `topOfStack` says whether the stack could be allocated.
-/

namespace LiteosM.Kernel

inductive Errno
  | losOk
  | tskPtrNull
  | tskNameEmpty
  | tskEntryNull
  | tskPriorError
  | tskStkszTooLarge
  | tskStkszTooSmall
  | tskNoMemory
  | tskTcbUnavailable
  | tskIdInvalid
  | tskOperateIdle
  | tskOperateSwtmr
  | tskSuspendSwtmrNotAllowed
  | tskNotCreated
  | tskNotSuspended
  | tskAlreadySuspended
  | tskSuspendLocked
  | tskDelayInInt
  | tskDelayInLock
deriving DecidableEq

structure TskInitParam where
  pfnTaskEntry : Option Nat
  usTaskPrio : Nat
  uwStackSize : Nat
  pcName : Option String

variable [Config]

def osCheckTaskIDValid (k : KernelState) (taskID : Nat) : Errno :=
  if taskID = k.gIdleTaskID then .tskOperateIdle
  else if taskID = k.gSwtmrTaskID then .tskSuspendSwtmrNotAllowed
  else if gTaskMaxNum ≤ taskID then .tskIdInvalid
  else .losOk

/-- The loop of `OsRecyleFinishedTask`; the stack of each task is freed as well. -/
def osRecyleLoop : Nat → KernelState → Option KernelState
  | 0, _ => none
  | fuel + 1, k =>
    if losListEmpty k .gTaskRecyleList then some k
    else do
      let taskCB ← osTcbFromPendList (losDlListFirst k .gTaskRecyleList)
      let k := losListDelete k (losDlListFirst k .gTaskRecyleList)
      osRecyleLoop fuel (losListAdd k .gLosFreeTask (.pendList taskCB))

def osRecyleFinishedTask (k : KernelState) : Option KernelState := osRecyleLoop (gTaskMaxNum + 1) k

def osTaskInitParamCheck (taskInitParam : Option TskInitParam) : Errno :=
  match taskInitParam with
  | none => .tskPtrNull
  | some p =>
    if p.pcName = none then .tskNameEmpty
    else if p.pfnTaskEntry = none then .tskEntryNull
    else if osTaskPriorityLowest < p.usTaskPrio then .tskPriorError
    else if p.usTaskPrio = osTaskPriorityLowest ∧ p.pfnTaskEntry ≠ some Config.osIdleTaskEntry then
      .tskPriorError
    else if Config.sysHeapSize < p.uwStackSize then .tskStkszTooLarge
    else
      let stackSize := if p.uwStackSize = 0 then Config.tskDefaultStackSize else p.uwStackSize
      let align := Config.osTaskStackAddrAlign
      let stackSize := (stackSize + align - 1) / align * align
      if stackSize < Config.tskMinStackSize then .tskStkszTooSmall else .losOk

def osNewTaskInit (k : KernelState) (taskCB usTaskPrio : Nat) : KernelState :=
  k.modifyTask taskCB fun cb =>
    { cb with
      taskSem := none
      taskMux := none
      taskStatus := osTaskStatusSuspend
      priority := usTaskPrio
      timeSlice := 0
      waitTimes := 0
      responseTime := ⊤ }

/-- The last component is what is written through `taskID`, if that pointer is there. -/
def losTaskCreateOnly (k : KernelState) (taskID : Bool) (taskInitParam : Option TskInitParam)
    (topOfStack : Bool) : Option (KernelState × Errno × Option Nat) := do
  let retVal := osTaskInitParamCheck taskInitParam
  if !taskID then some (k, .tskIdInvalid, none)
  else if retVal ≠ .losOk then some (k, retVal, none)
  else
    let k ← osRecyleFinishedTask k
    if losListEmpty k .gLosFreeTask then some (k, .tskTcbUnavailable, none)
    else
      let taskCB ← osTcbFromPendList (losDlListFirst k .gLosFreeTask)
      let k := losListDelete k (losDlListFirst k .gLosFreeTask)
      if !topOfStack then some (losListAdd k .gLosFreeTask (.pendList taskCB), .tskNoMemory, none)
      else
        let k := osNewTaskInit k taskCB ((taskInitParam.map TskInitParam.usTaskPrio).getD 0)
        some (k, .losOk, some (k.gTaskCBArray taskCB).taskID)

def losTaskCreate (k : KernelState) (taskID : Bool) (taskInitParam : Option TskInitParam)
    (topOfStack : Bool) : Option (KernelState × Errno × Option Nat) := do
  let r ← losTaskCreateOnly k taskID taskInitParam topOfStack
  match r.2.2 with
  | none => some r
  | some taskID =>
    let k ← osSchedTaskEnQueue r.1 taskID
    some (if k.gTaskScheduled then losSchedule k else k, .losOk, some taskID)

def osIdleTaskCreate (k : KernelState) : Option (KernelState × Errno) := do
  let taskInitParam : TskInitParam :=
    { pfnTaskEntry := some Config.osIdleTaskEntry
      usTaskPrio := osTaskPriorityLowest
      uwStackSize := Config.tskMinStackSize
      pcName := some "IdleCore000" }
  let r ← losTaskCreateOnly k true (some taskInitParam) true
  match r.2.2 with
  | none => some (r.1, r.2.1)
  | some taskID =>
    let k ← osSchedTaskEnQueue { r.1 with gIdleTaskID := taskID } taskID
    some (k, .losOk)

def losTaskResume (k : KernelState) (taskID : Nat) : Option (KernelState × Errno) := do
  if Config.tskLimit < taskID then some (k, .tskIdInvalid)
  else if (k.status taskID).unused then some (k, .tskNotCreated)
  else if !(k.status taskID).suspend then some (k, .tskNotSuspended)
  else
    let k := k.modifyStatus taskID fun s => { s with suspend := false }
    let s := k.status taskID
    if !(s.delay || s.pend || s.suspend) then
      let k ← osSchedTaskEnQueue k taskID
      some (if k.gTaskScheduled then losSchedule k else k, .losOk)
    else some (k, .losOk)

def losTaskSuspend (k : KernelState) (taskID : Nat) : Option (KernelState × Errno) :=
  let retErr := osCheckTaskIDValid k taskID
  let tempStatus := k.status taskID
  if retErr ≠ .losOk then some (k, retErr)
  else if tempStatus.unused then some (k, .tskNotCreated)
  else if tempStatus.suspend then some (k, .tskAlreadySuspended)
  else if tempStatus.running ∧ k.gLosTaskLock ≠ 0 then some (k, .tskSuspendLocked)
  else
    let k := if tempStatus.ready then osSchedTaskDeQueue k taskID else k
    let k := k.modifyStatus taskID fun s => { s with suspend := true }
    if taskID = (k.gTaskCBArray k.runTask).taskID then some (losSchedule k, .losOk)
    else some (k, .losOk)

def osRunningTaskDelete (k : KernelState) (taskID taskCB : Nat) : KernelState :=
  let k := losListTailInsert k .gTaskRecyleList (.pendList taskCB)
  let k := { k with runTask := gTaskMaxNum }
  k.modifyTask gTaskMaxNum fun cb =>
    { cb with taskID := taskID, taskStatus := { k.status taskCB with running := true } }

def losTaskDelete (k : KernelState) (taskID : Nat) : Option (KernelState × Errno) :=
  let ret := osCheckTaskIDValid k taskID
  if ret ≠ .losOk then some (k, ret)
  else if (k.status taskID).unused then some (k, .tskNotCreated)
  else
    let k :=
      if (k.status taskID).running ∧ k.gLosTaskLock ≠ 0 then { k with gLosTaskLock := 0 } else k
    let k := osSchedTaskExit k taskID
    if (k.status taskID).running then
      let k := k.modifyStatus taskID fun _ => osTaskStatusUnused
      some (losSchedule (osRunningTaskDelete k taskID taskID), .losOk)
    else
      let k := k.modifyStatus taskID fun _ => osTaskStatusUnused
      some (losListAdd k .gLosFreeTask (.pendList taskID), .losOk)

def losTaskYield (k : KernelState) : KernelState × Errno := (losSchedule (osSchedYield k), .losOk)

def losTaskDelay (k : KernelState) (intActive : Bool) (tick : Nat) : KernelState × Errno :=
  if intActive then (k, .tskDelayInInt)
  else if k.gLosTaskLock ≠ 0 then (k, .tskDelayInLock)
  else if tick = 0 then losTaskYield k
  else (losSchedule (osSchedDelay k tick), .losOk)

def losTaskPriSet (k : KernelState) (taskID taskPrio : Nat) : Option (KernelState × Errno) := do
  if osTaskPriorityLowest < taskPrio then some (k, .tskPriorError)
  else if taskID = k.gIdleTaskID then some (k, .tskOperateIdle)
  else if taskID = k.gSwtmrTaskID then some (k, .tskOperateSwtmr)
  else if gTaskMaxNum ≤ taskID then some (k, .tskIdInvalid)
  else if (k.status taskID).unused then some (k, .tskNotCreated)
  else
    let r ← osSchedModifyTaskSchedParam k taskID taskPrio
    some (if r.2 then losSchedule r.1 else r.1, .losOk)

def clearedTaskCB : LosTaskCB :=
  { taskID := 0, taskStatus := noStatus, priority := 0, timeSlice := 0, waitTimes := 0
    startTime := 0, responseTime := (0 : Nat), taskSem := none, taskMux := none }

def osTaskInit (k : KernelState) : KernelState :=
  let k := { k with gTaskCBArray := fun _ => clearedTaskCB }
  let k := losListInit (losListInit k .gLosFreeTask) .gTaskRecyleList
  let k := (List.range gTaskMaxNum).foldl
    (fun k index =>
      let k := k.modifyTask index fun cb =>
        { cb with taskStatus := osTaskStatusUnused, taskID := index }
      losListTailInsert k .gLosFreeTask (.pendList index)) k
  let k := { k with runTask := gTaskMaxNum, newTask := 0 }
  let k := k.modifyTask gTaskMaxNum fun cb =>
    { cb with
      taskID := gTaskMaxNum
      taskStatus := { osTaskStatusUnused with running := true }
      priority := osTaskPriorityLowest + 1 }
  osSchedInit { k with gIdleTaskID := osInvalid }

end LiteosM.Kernel
