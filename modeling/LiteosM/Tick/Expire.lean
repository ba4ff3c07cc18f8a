import LiteosM.Lib.SortedList
import LiteosM.Lib.Transition
import Mathlib.Algebra.GroupWithZero.Nat
import Mathlib.Algebra.Ring.Int.Defs

/-!
# The armed response time

`los_sched.c` and `los_sortlink.c`: which tick interrupt the scheduler asks for next. All times are cycles of
the scheduler clock.
-/

namespace LiteosM.Tick

open LiteosM.Lib.SortedList LiteosM.Lib.Transition

/-- The build-time configuration. -/
class ExpireConfig where
  osCyclePerTick : Nat
  osUsPerTick : Nat
  osTickResponseTimeMax : Nat
  osSchedTimeSlices : Nat
  osTimeSliceMin : Nat
  gIdleTaskID : Nat
  /-- `LOSCFG_BASE_CORE_SCHED_SLEEP` -/
  schedSleep : Bool
  cycle_pos : 0 < osCyclePerTick

open ExpireConfig

/-- A node of a sort link, with the task or the timer that it belongs to. -/
structure SortLinkList where
  owner : Nat
  responseTime : Nat
deriving DecidableEq

/-- Ticks that are waited for. A call with no ticks does not wait, and a timer has an interval. With
`LOSCFG_BASE_CORE_SWTMR_ALIGN` a timer can also be started with a `uwCount` of 0, which is left out. -/
abbrev Ticks := { ticks : Nat // 0 < ticks }

/-- What the status of the running task makes of it at the next switch. -/
inductive Leaving
  /-- `OS_TASK_STATUS_PEND_TIME` or `OS_TASK_STATUS_DELAY` -/
  | wait (waitTimes : Ticks)
  /-- `OS_TASK_STATUS_PEND`, `OS_TASK_STATUS_SUSPEND` or `OS_TASK_STATUS_UNUSED` -/
  | stop
  | stay
deriving DecidableEq

/-- `gSchedResponseID` is none for `OS_INVALID`, `ready` are the tasks in the ready queues, `reloads` the
values that `HalSysTickReload` was called with. -/
structure ExpireState where
  now : Nat
  taskSortLink : List SortLinkList
  swtmrSortLink : List SortLinkList
  gSchedResponseTime : Nat
  gSchedResponseID : Option Nat
  gSchedSleepTime : Nat
  runTask : Nat
  leaving : Leaving
  timeSlice : Nat → Int
  startTime : Nat → Nat
  ready : Nat → Bool
  reloads : List Nat

def osSchedMaxResponseTime : Nat := 2 ^ 64 - 2

def osAddNode2SortLink (l : List SortLinkList) (sortList : SortLinkList) : List SortLinkList :=
  match l with
  | [] => [sortList]
  | listSorted :: _ =>
    if sortList.responseTime ≤ listSorted.responseTime then sortList :: l
    else
      l.rdropWhile (fun u => decide (sortList.responseTime < u.responseTime)) ++
        sortList :: l.rtakeWhile fun u => decide (sortList.responseTime < u.responseTime)

def osDeleteSortLink (l : List SortLinkList) (owner : Nat) : List SortLinkList :=
  l.filter fun u => u.owner ≠ owner

/-- The loop of `OsGetSortLinkNextExpireTime`, with `expirTime` and `nextExpirTime`. -/
def expireScan (startTime : Nat) : List SortLinkList → Nat → Nat × Nat
  | [], expirTime => (expirTime, 0)
  | listSorted :: list, expirTime =>
    if listSorted.responseTime ≤ startTime then expireScan startTime list startTime
    else (expirTime, listSorted.responseTime)

section

variable [ExpireConfig]

def osAdd2SortLink (l : List SortLinkList) (owner startTime waitTicks : Nat) : List SortLinkList :=
  osAddNode2SortLink l ⟨owner, startTime + waitTicks * osCyclePerTick⟩

def osGetSortLinkNextExpireTime (l : List SortLinkList) (startTime : Nat) : Nat :=
  if l = [] then 2 ^ 64 - 1
  else
    let r := expireScan startTime l 0
    let expirTime := r.1
    let nextExpirTime := r.2
    if expirTime = 0 then nextExpirTime
    else if nextExpirTime = 0 then expirTime
    else if nextExpirTime - expirTime ≤ osUsPerTick then nextExpirTime
    else expirTime

def osGetNextExpireTime (s : ExpireState) (startTime : Nat) : Nat :=
  let taskExpirTime := osGetSortLinkNextExpireTime s.taskSortLink startTime
  let swtmrExpirTime := osGetSortLinkNextExpireTime s.swtmrSortLink startTime
  if taskExpirTime < swtmrExpirTime then taskExpirTime else swtmrExpirTime

/-- The end of `OsSchedSetNextExpireTime`. -/
def ExpireState.arm (s : ExpireState) (responseID : Option Nat) (responseTime reload : Nat) : ExpireState :=
  { s with
    gSchedResponseID := responseID
    gSchedResponseTime := responseTime
    reloads := reload :: s.reloads }

def ExpireState.setSleepTime (s : ExpireState) (sleepTime : Nat) : ExpireState :=
  if schedSleep then { s with gSchedSleepTime := sleepTime } else s

/-- `none` is a subtraction that underflows. -/
def osSchedSetNextExpireTime (s : ExpireState) (startTime responseID taskEndTime : Nat) :
    Option ExpireState :=
  let expireTime := osGetNextExpireTime s startTime
  let isTimeSlice := decide (taskEndTime < expireTime)
  let nextExpireTime := if isTimeSlice then taskEndTime else expireTime
  let responseID := if isTimeSlice then some responseID else none
  if nextExpireTime < s.gSchedResponseTime ∧ osCyclePerTick ≤ s.gSchedResponseTime - nextExpireTime then
    if nextExpireTime < startTime then none
    else
      let nextResponseTime := nextExpireTime - startTime
      if osTickResponseTimeMax < nextResponseTime then
        if schedSleep ∧ nextResponseTime < osCyclePerTick then none
        else some ((s.setSleepTime (nextResponseTime - osCyclePerTick)).arm responseID
            (startTime + osTickResponseTimeMax) osTickResponseTimeMax)
      else if nextResponseTime < osCyclePerTick then
        if s.gSchedResponseTime ≤ startTime + osCyclePerTick then some (s.setSleepTime 0)
        else some ((s.setSleepTime 0).arm responseID (startTime + osCyclePerTick) osCyclePerTick)
      else some (s.arm responseID nextExpireTime nextResponseTime)
  else some s

/-- `none` is the failing `LOS_ASSERT`. -/
def osTimeSliceUpdate (s : ExpireState) (taskCB currTime : Nat) : Option ExpireState :=
  if currTime < s.startTime taskCB then none
  else
    let incTime := Int.bmod (currTime - s.startTime taskCB : Nat) (2 ^ 32)
    some { s with
      timeSlice := if taskCB = gIdleTaskID then s.timeSlice
        else Function.update s.timeSlice taskCB (Int.bmod (s.timeSlice taskCB - incTime) (2 ^ 32))
      startTime := Function.update s.startTime taskCB currTime }

def osSchedUpdateExpireTime (s : ExpireState) (startTime : Nat) : Option ExpireState :=
  let endTime :=
    if s.runTask ≠ gIdleTaskID then
      let timeSlice : Int :=
        if s.timeSlice s.runTask ≤ osTimeSliceMin then osSchedTimeSlices else s.timeSlice s.runTask
      (startTime + timeSlice).toNat
    else osSchedMaxResponseTime
  osSchedSetNextExpireTime s startTime s.runTask endTime

/-- The idle task is in no queue. A task that is woken before it has been switched away stays. -/
def osSchedTaskEnQueue (s : ExpireState) (taskCB : Nat) : ExpireState :=
  let s := if taskCB = s.runTask then { s with leaving := .stay } else s
  if taskCB ≠ gIdleTaskID then
    { s with
      timeSlice := if (osTimeSliceMin : Int) < s.timeSlice taskCB then s.timeSlice
        else Function.update s.timeSlice taskCB osSchedTimeSlices
      ready := Function.update s.ready taskCB true }
  else s

def osSchedTaskWake (s : ExpireState) (resumedTask : Nat) : ExpireState :=
  osSchedTaskEnQueue { s with taskSortLink := osDeleteSortLink s.taskSortLink resumedTask } resumedTask

def osSchedTaskDeQueue (s : ExpireState) (taskCB : Nat) : ExpireState :=
  { s with ready := Function.update s.ready taskCB false }

/-- `first` is the first task in the queue of the highest priority. The priorities are left out: any task that
is ready may be the first. -/
def osGetTopTask (s : ExpireState) (first : Nat) : Nat := if s.ready first then first else gIdleTaskID

/-- The part of `OsSchedTaskSwitch` before the choice of the new task. -/
def leaveTask (s : ExpireState) : ExpireState :=
  match s.leaving with
  | .wait waitTimes =>
    { s with taskSortLink := osAdd2SortLink s.taskSortLink s.runTask (s.startTime s.runTask) waitTimes }
  | .stop => s
  | .stay => osSchedTaskEnQueue s s.runTask

/-- The rest of it. The switch itself makes `newTask` the running task. -/
def enterTask (s : ExpireState) (newTask : Nat) : Option ExpireState :=
  let s := osSchedTaskDeQueue { s with
    startTime := Function.update s.startTime newTask (s.startTime s.runTask)
    runTask := newTask
    leaving := .stay } newTask
  let endTime :=
    if newTask ≠ gIdleTaskID then (s.startTime newTask + s.timeSlice newTask).toNat
    else osSchedMaxResponseTime
  osSchedSetNextExpireTime s (s.startTime newTask) newTask endTime

def osSchedTaskSwitch (s : ExpireState) (first : Nat) : Option ExpireState := do
  let s ← osTimeSliceUpdate s s.runTask s.now
  let s := leaveTask s
  enterTask s (osGetTopTask s first)

def osSwtmrStart (s : ExpireState) (swtmr : Nat) (uwCount : Ticks) : Option ExpireState :=
  osSchedUpdateExpireTime { s with swtmrSortLink := osAdd2SortLink s.swtmrSortLink swtmr s.now uwCount } s.now

def osSwtmrStop (s : ExpireState) (swtmr : Nat) : Option ExpireState :=
  osSchedUpdateExpireTime { s with swtmrSortLink := osDeleteSortLink s.swtmrSortLink swtmr } s.now

/-- What a tick meets. `reader` is the task that the message about a timer wakes, `restart` the count of a
periodic timer, `suspended` whether a task that is due stays suspended, `checkSchedule` is
`LOS_CHECK_SCHEDULE`. -/
structure TickArgs where
  reader : Nat → Option Nat
  restart : Nat → Option Ticks
  suspended : Nat → Bool
  checkSchedule : Bool
  first : Nat

/-- The write to `g_swtmrHandlerQueue`. -/
def losQueueWriteCopy (s : ExpireState) : Option Nat → ExpireState
  | some resumedTask => osSchedTaskWake s resumedTask
  | none => s

def osSwtmrTimeoutHandle (s : ExpireState) (args : TickArgs) (swtmr : Nat) : Option ExpireState :=
  let s := losQueueWriteCopy s (args.reader swtmr)
  match args.restart swtmr with
  | some uwCount => osSwtmrStart s swtmr uwCount
  | none => some s

/-- The loop of `OsSwtmrScan`. -/
def osSwtmrScan (args : TickArgs) : Nat → ExpireState → Option (ExpireState × Bool)
  | 0, s => some (s, false)
  | fuel + 1, s =>
    match s.swtmrSortLink with
    | [] => some (s, false)
    | sortList :: list =>
      if sortList.responseTime ≤ s.now then do
        let s ← osSwtmrTimeoutHandle { s with swtmrSortLink := list } args sortList.owner
        let r ← osSwtmrScan args fuel s
        some (r.1, true)
      else some (s, false)

/-- The loop of `OsSchedScanTimerList`, with `OsSchedWakePendTimeTask`. -/
def osSchedScanTimerList (args : TickArgs) : Nat → ExpireState → ExpireState × Bool
  | 0, s => (s, false)
  | fuel + 1, s =>
    match s.taskSortLink with
    | [] => (s, false)
    | sortList :: list =>
      if sortList.responseTime ≤ s.now then
        let s := { s with taskSortLink := list }
        if args.suspended sortList.owner then osSchedScanTimerList args fuel s
        else ((osSchedScanTimerList args fuel (osSchedTaskEnQueue s sortList.owner)).1, true)
      else (s, false)

/-- The scans of a tick that was not armed for the end of a slice. -/
def tickScan (s : ExpireState) (args : TickArgs) : Option (ExpireState × Bool) :=
  if s.gSchedResponseID = none then do
    let (s, needSched) ← osSwtmrScan args s.swtmrSortLink.length s
    let r := osSchedScanTimerList args s.taskSortLink.length s
    some (r.1, needSched || r.2)
  else some (s, false)

/-- The switch that `HalTaskSchedule` pends follows at once. -/
def losSchedTickHandler (s : ExpireState) (args : TickArgs) : Option ExpireState := do
  let (s, needSched) ← tickScan s args
  let s := { s with gSchedResponseTime := osSchedMaxResponseTime }
  if needSched && args.checkSchedule then osSchedTaskSwitch s args.first
  else do
    let s ← osTimeSliceUpdate s s.runTask s.now
    osSchedUpdateExpireTime s s.now

def osSchedStart (s : ExpireState) (first : Nat) : Option ExpireState :=
  let newTask := osGetTopTask s first
  let s := osSchedTaskDeQueue { s with
    runTask := newTask
    leaving := .stay
    startTime := Function.update s.startTime newTask s.now
    gSchedResponseTime := osSchedMaxResponseTime
    gSchedResponseID := none } newTask
  osSchedSetNextExpireTime s (s.startTime newTask) newTask (s.startTime newTask + s.timeSlice newTask).toNat

inductive ExpireEvent
  /-- Nothing happens for some cycles. -/
  | advance (cycles : Nat)
  | tick (args : TickArgs)
  | switch (first : Nat)
  /-- The running task delays, pends, suspends or ends itself. -/
  | leave (leaving : Leaving)
  | yield
  | swtmrStart (swtmr : Nat) (uwCount : Ticks)
  | swtmrStop (swtmr : Nat)
  /-- A task is made ready, and waits for no time any more. -/
  | wake (taskCB : Nat)
  /-- A task that does not run is suspended or deleted, or a suspended task is woken. -/
  | exit (taskCB : Nat)

def expireStep (s : ExpireState) : ExpireEvent → Option ExpireState
  | .advance cycles => some { s with now := s.now + cycles }
  | .tick args => losSchedTickHandler s args
  | .switch first => osSchedTaskSwitch s first
  | .leave leaving => some { s with leaving := leaving }
  | .yield => some { s with timeSlice := Function.update s.timeSlice s.runTask 0 }
  | .swtmrStart swtmr uwCount => osSwtmrStart s swtmr uwCount
  | .swtmrStop swtmr => osSwtmrStop s swtmr
  | .wake taskCB => some (osSchedTaskWake s taskCB)
  | .exit taskCB =>
    some (osSchedTaskDeQueue { s with taskSortLink := osDeleteSortLink s.taskSortLink taskCB } taskCB)

/-- The tick interrupt comes at the armed time. -/
def Enabled (s : ExpireState) : ExpireEvent → Prop
  | .advance cycles => s.now + cycles ≤ s.gSchedResponseTime
  | .tick _ => s.now = s.gSchedResponseTime
  | .leave _ => s.ready s.runTask = false
  | .exit taskCB => taskCB ≠ s.runTask
  | _ => True

def ExpireState.links (s : ExpireState) : List SortLinkList := s.taskSortLink ++ s.swtmrSortLink

/-- The program of the response time keeps to its bounds. -/
structure LatencyBounded (s : ExpireState) : Prop where
  earlier : ∀ event s', (∀ args, event ≠ .tick args) → Enabled s event → expireStep s event = some s' →
    s'.gSchedResponseTime ≤ s.gSchedResponseTime
  reloads : ∀ nextResponseTime ∈ s.reloads,
    osCyclePerTick ≤ nextResponseTime ∧ nextResponseTime ≤ osTickResponseTimeMax
  total : ∀ event, Enabled s event → (expireStep s event).isSome
  linked : ∀ n ∈ s.links, s.now ≤ n.responseTime + 2 * osCyclePerTick + osUsPerTick

/-- Before `OsSchedStart` the clock reads zero, and only timers are started. -/
structure Stopped (s : ExpireState) : Prop where
  tasks : s.taskSortLink = []
  timers : ∃ started : List (Nat × Ticks), s.swtmrSortLink =
    started.foldl (fun l p => osAdd2SortLink l p.1 0 p.2) []
  slices : ∀ t, s.ready t = true → 0 ≤ s.timeSlice t
  idle : s.timeSlice gIdleTaskID = 0 ∧ s.ready gIdleTaskID = false
  reloads : s.reloads = []
  clock : s.now < osSchedMaxResponseTime

/-- No timer is overdue by more than a tick when the scheduler starts. -/
def Started (s : ExpireState) : Prop :=
  ∃ b first, Stopped b ∧ osSchedStart b first = some s ∧
    ∀ n ∈ b.swtmrSortLink, b.now ≤ n.responseTime + osCyclePerTick

def enabledStep (s : ExpireState) (event : ExpireEvent) (s' : ExpireState) : Prop :=
  Enabled s event ∧ expireStep s event = some s'

/-- A tick that was armed for the end of a slice finds nothing overdue by more than a tick. -/
def Held (s : ExpireState) : ExpireEvent → Prop
  | .tick _ => s.gSchedResponseID ≠ none → ∀ n ∈ s.links, s.now ≤ n.responseTime + osCyclePerTick
  | _ => True

def heldStep (s : ExpireState) (event : ExpireEvent) (s' : ExpireState) : Prop :=
  enabledStep s event s' ∧ Held s event

instance (s : ExpireState) : (event : ExpireEvent) → Decidable (Enabled s event)
  | .advance cycles => inferInstanceAs (Decidable (s.now + cycles ≤ s.gSchedResponseTime))
  | .tick _ => inferInstanceAs (Decidable (s.now = s.gSchedResponseTime))
  | .leave _ => inferInstanceAs (Decidable (s.ready s.runTask = false))
  | .exit taskCB => inferInstanceAs (Decidable (taskCB ≠ s.runTask))
  | .switch _ | .yield | .swtmrStart .. | .swtmrStop _ | .wake _ => isTrue trivial

instance (s : ExpireState) : (event : ExpireEvent) → Decidable (Held s event)
  | .tick _ => inferInstanceAs (Decidable (s.gSchedResponseID ≠ none →
      ∀ n ∈ s.links, s.now ≤ n.responseTime + osCyclePerTick))
  | .advance _ | .switch _ | .leave _ | .yield | .swtmrStart .. | .swtmrStop _ | .wake _ | .exit _ => isTrue trivial

def expireNext (s : ExpireState) (event : ExpireEvent) : Option ExpireState :=
  if Enabled s event then expireStep s event else none

def heldNext (s : ExpireState) (event : ExpireEvent) : Option ExpireState :=
  if Held s event then expireNext s event else none

end

end LiteosM.Tick
