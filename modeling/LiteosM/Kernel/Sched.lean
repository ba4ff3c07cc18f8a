import LiteosM.Kernel.State

/-!
# Scheduler

`los_sched.c` and the task side of `los_sortlink.c`. A failing `LOS_ASSERT` stops the
system with interrupts off, so a function that can assert returns `none` there.
-/

namespace LiteosM.Kernel

variable [Config]

def osGetCurrSchedTimeCycle (k : KernelState) : Nat := if k.gTaskScheduled then k.cycle else 0

def osTimeSliceUpdate (k : KernelState) (taskCB currTime : Nat) : Option KernelState :=
  let cb := k.gTaskCBArray taskCB
  if currTime < cb.startTime then none
  else
    let incTime := toInt32 (currTime - cb.startTime)
    some (k.modifyTask taskCB fun cb =>
      { cb with
        timeSlice := if cb.taskID ≠ k.gIdleTaskID then toInt32 (cb.timeSlice - incTime)
          else cb.timeSlice
        startTime := currTime })

def osSchedPriQueueEnHead (k : KernelState) (priqueueItem : Node) (priority : Nat) : KernelState :=
  let bitmap :=
    if losListEmpty k (.gPriQueueList priority) then
      k.gQueueBitmap ||| (priqueuePrior0Bit >>> priority)
    else k.gQueueBitmap
  losListAdd { k with gQueueBitmap := bitmap } (.gPriQueueList priority) priqueueItem

def osSchedPriQueueEnTail (k : KernelState) (priqueueItem : Node) (priority : Nat) : KernelState :=
  let bitmap :=
    if losListEmpty k (.gPriQueueList priority) then
      k.gQueueBitmap ||| (priqueuePrior0Bit >>> priority)
    else k.gQueueBitmap
  losListTailInsert { k with gQueueBitmap := bitmap } (.gPriQueueList priority) priqueueItem

def osSchedPriQueueDelete (k : KernelState) (priqueueItem : Node) (priority : Nat) : KernelState :=
  let k := losListDelete k priqueueItem
  let bitmap :=
    if losListEmpty k (.gPriQueueList priority) then
      k.gQueueBitmap &&& ~~~(priqueuePrior0Bit >>> priority)
    else k.gQueueBitmap
  { k with gQueueBitmap := bitmap }

def osSchedTaskEnQueue (k : KernelState) (taskCB : Nat) : Option KernelState :=
  if (k.status taskCB).ready then none
  else
    let cb := k.gTaskCBArray taskCB
    let k :=
      if cb.taskID ≠ k.gIdleTaskID then
        if Config.osTimeSliceMin < cb.timeSlice then
          osSchedPriQueueEnHead k (.pendList taskCB) cb.priority
        else
          let k := k.modifyTask taskCB fun cb => { cb with timeSlice := Config.osSchedTimeSlices }
          osSchedPriQueueEnTail k (.pendList taskCB) cb.priority
      else k
    some (k.modifyStatus taskCB fun s =>
      { s with pend := false, suspend := false, delay := false, pendTime := false, ready := true })

def osSchedTaskDeQueue (k : KernelState) (taskCB : Nat) : KernelState :=
  if (k.status taskCB).ready then
    let cb := k.gTaskCBArray taskCB
    let k :=
      if cb.taskID ≠ k.gIdleTaskID then osSchedPriQueueDelete k (.pendList taskCB) cb.priority
      else k
    k.modifyStatus taskCB fun s => { s with ready := false }
  else k

/-- The backward walk of `OsAddNode2SortLink`. -/
def sortLinkInsertPos (k : KernelState) (responseTime : WithTop Nat) : Nat → Node → Option Node
  | 0, _ => none
  | fuel + 1, prevNode => do
    let listSorted ← sortLinkEntry prevNode
    if (k.gTaskCBArray listSorted).responseTime ≤ responseTime then some prevNode
    else sortLinkInsertPos k responseTime fuel (k.links.prev prevNode)

def osAddNode2SortLink (k : KernelState) (taskCB : Nat) : Option KernelState := do
  let head := Node.gTaskSortLink
  let node := Node.sortLinkNode taskCB
  if losListEmpty k head then some (losListAdd k head node)
  else
    let listSorted ← sortLinkEntry (losDlListFirst k head)
    let responseTime := (k.gTaskCBArray taskCB).responseTime
    if responseTime ≤ (k.gTaskCBArray listSorted).responseTime then
      some (losListAdd k head node)
    else
      let prevNode ← sortLinkInsertPos k responseTime (gTaskMaxNum + 1) (k.links.prev head)
      some (losListAdd k prevNode node)

def osAdd2SortLink (k : KernelState) (taskCB startTime waitTicks : Nat) : Option KernelState :=
  let k := k.modifyTask taskCB fun cb =>
    { cb with responseTime := ((startTime + waitTicks * Config.osCyclePerTick : Nat) : WithTop Nat) }
  osAddNode2SortLink k taskCB

def osDeleteNodeSortLink (k : KernelState) (taskCB : Nat) : KernelState :=
  let k := losListDelete k (.sortLinkNode taskCB)
  k.modifyTask taskCB fun cb => { cb with responseTime := ⊤ }

def osDeleteSortLink (k : KernelState) (taskCB : Nat) : KernelState :=
  if (k.gTaskCBArray taskCB).responseTime ≠ ⊤ then osDeleteNodeSortLink k taskCB else k

def osSchedWakePendTimeTask (k : KernelState) (taskCB : Nat) (needSchedule : Bool) :
    Option (KernelState × Bool) := do
  let tempStatus := k.status taskCB
  if tempStatus.pend || tempStatus.delay then
    let k := k.modifyStatus taskCB fun s =>
      { s with pend := false, pendTime := false, delay := false }
    let k :=
      if tempStatus.pend then
        let k := k.modifyStatus taskCB fun s => { s with timeout := true }
        let k := losListDelete k (.pendList taskCB)
        k.modifyTask taskCB fun cb => { cb with taskMux := none, taskSem := none }
      else k
    if !tempStatus.suspend then
      let k ← osSchedTaskEnQueue k taskCB
      some (k, true)
    else some (k, needSchedule)
  else some (k, needSchedule)

/-- The loop of `OsSchedScanTimerList`; every round takes one task off the sort link. -/
def osSchedScanLoop (currTime : Nat) : Nat → KernelState → Bool → Option (KernelState × Bool)
  | 0, _, _ => none
  | fuel + 1, k, needSchedule => do
    let taskCB ← sortLinkEntry (losDlListFirst k .gTaskSortLink)
    if (k.gTaskCBArray taskCB).responseTime ≤ (currTime : WithTop Nat) then
      let k := osDeleteNodeSortLink k taskCB
      let r ← osSchedWakePendTimeTask k taskCB needSchedule
      if losListEmpty r.1 .gTaskSortLink then some r
      else osSchedScanLoop currTime fuel r.1 r.2
    else some (k, needSchedule)

def osSchedScanTimerList (k : KernelState) : Option (KernelState × Bool) :=
  if losListEmpty k .gTaskSortLink then some (k, false)
  else osSchedScanLoop (osGetCurrSchedTimeCycle k) (gTaskMaxNum + 1) k false

def osSchedTaskExit (k : KernelState) (taskCB : Nat) : KernelState :=
  let s := k.status taskCB
  let k :=
    if s.ready then osSchedTaskDeQueue k taskCB
    else if s.pend then
      let k := losListDelete k (.pendList taskCB)
      k.modifyStatus taskCB fun s => { s with pend := false }
    else k
  let s := k.status taskCB
  if s.delay || s.pendTime then
    let k := osDeleteSortLink k taskCB
    k.modifyStatus taskCB fun s => { s with delay := false, pendTime := false }
  else k

def osSchedYield (k : KernelState) : KernelState :=
  k.modifyTask k.runTask fun cb => { cb with timeSlice := 0 }

def osSchedDelay (k : KernelState) (tick : Nat) : KernelState :=
  let k := k.modifyStatus k.runTask fun s => { s with delay := true }
  k.modifyTask k.runTask fun cb => { cb with waitTimes := tick }

def osSchedTaskWait (k : KernelState) (list : WaitList) (ticks : Nat) : KernelState :=
  let runTask := k.runTask
  let k := k.modifyStatus runTask fun s => { s with pend := true }
  let k := losListTailInsert k (.wait list) (.pendList runTask)
  if ticks ≠ losWaitForever then
    let k := k.modifyStatus runTask fun s => { s with pendTime := true }
    k.modifyTask runTask fun cb => { cb with waitTimes := ticks }
  else k

def osSchedTaskWake (k : KernelState) (resumedTask : Nat) : Option KernelState :=
  let k := losListDelete k (.pendList resumedTask)
  let k := k.modifyStatus resumedTask fun s => { s with pend := false }
  let k :=
    if (k.status resumedTask).pendTime then
      let k := osDeleteSortLink k resumedTask
      k.modifyStatus resumedTask fun s => { s with pendTime := false }
    else k
  if !(k.status resumedTask).suspend then osSchedTaskEnQueue k resumedTask else some k

def osSchedModifyTaskSchedParam (k : KernelState) (taskCB priority : Nat) : Option (KernelState × Bool) := do
  if (k.status taskCB).ready then
    let k := osSchedTaskDeQueue k taskCB
    let k := k.modifyTask taskCB fun cb => { cb with priority := priority }
    let k ← osSchedTaskEnQueue k taskCB
    some (k, true)
  else
    let k := k.modifyTask taskCB fun cb => { cb with priority := priority }
    some (k, (k.status taskCB).running)

def osGetTopTask (k : KernelState) : Option Nat :=
  if k.gQueueBitmap ≠ 0#32 then
    osTcbFromPendList (losDlListFirst k (.gPriQueueList (clz k.gQueueBitmap)))
  else some k.gIdleTaskID

def osSchedStart (k : KernelState) : Option KernelState := do
  let newTask ← osGetTopTask k
  let k := k.modifyStatus newTask fun s => { s with running := true }
  let k := { k with newTask := newTask, runTask := newTask, gTaskScheduled := true }
  let k := k.modifyTask newTask fun cb => { cb with startTime := osGetCurrSchedTimeCycle k }
  some (osSchedTaskDeQueue k newTask)

def osSchedTaskSwitch (k : KernelState) : Option (KernelState × Bool) := do
  let runTask := k.runTask
  let k ← osTimeSliceUpdate k runTask (osGetCurrSchedTimeCycle k)
  let cb := k.gTaskCBArray runTask
  let s := cb.taskStatus
  let k ←
    if s.pendTime || s.delay then osAdd2SortLink k runTask cb.startTime cb.waitTimes
    else if !(s.pend || s.suspend || s.unused) then osSchedTaskEnQueue k runTask
    else some k
  let newTask ← osGetTopTask k
  let k := { k with newTask := newTask }
  if runTask ≠ newTask then
    let k := k.modifyStatus runTask fun s => { s with running := false }
    let k := k.modifyStatus newTask fun s => { s with running := true }
    let startTime := (k.gTaskCBArray runTask).startTime
    let k := k.modifyTask newTask fun cb => { cb with startTime := startTime }
    some (osSchedTaskDeQueue k newTask, true)
  else some (osSchedTaskDeQueue k newTask, false)

/-- `HalPendSV`: the context switch makes `newTask` the running one. -/
def halPendSV (k : KernelState) : Option KernelState := do
  let r ← osSchedTaskSwitch { k with pendSV := false }
  some { r.1 with runTask := if r.2 then r.1.newTask else r.1.runTask }

def halTaskSchedule (k : KernelState) : KernelState := { k with pendSV := true }

def losSchedule (k : KernelState) : KernelState :=
  if k.gTaskScheduled && k.gLosTaskLock == 0 then halTaskSchedule k else k

/-- `expired` says that the interrupt is not the end of a time slice
(`g_schedResponseID == OS_INVALID`); programming the timer is left to the hardware. -/
def losSchedTickHandler (k : KernelState) (expired : Bool) : Option KernelState := do
  if !k.gTaskScheduled then none
  else
    let r ← if expired then osSchedScanTimerList k else some (k, false)
    if r.2 && r.1.gLosTaskLock == 0 then some (halTaskSchedule r.1)
    else osTimeSliceUpdate r.1 r.1.runTask (osGetCurrSchedTimeCycle r.1)

def osSchedInit (k : KernelState) : KernelState :=
  let k := (List.range osPriorityQueueNum).foldl (fun k pri => losListInit k (.gPriQueueList pri)) k
  losListInit { k with gQueueBitmap := 0#32 } .gTaskSortLink

end LiteosM.Kernel
