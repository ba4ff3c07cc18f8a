import LiteosM.Kernel.SameRun
import LiteosM.Lib.Word32

/-!
# CPU usage

`los_cpup.c` and the places of `los_task.c` that write to `g_cpup`. The time is
`LOS_SysCycleGet`, the scheduler's clock.
-/

namespace LiteosM.Cpup

open LiteosM.Kernel LiteosM.Lib.Word32 LiteosM.Lib.Word64

class CpupConfig where
  gSysClock : Nat
  gCyclesPerTick : Nat

def losCpupPrecision : Nat := 1000

def osCpupHistoryRecordNum : Nat := 10

structure OsCpupCB where
  cpupID : Nat
  status : TaskStatus
  allTime : Nat
  startTime : Nat
  historyTime : Nat → Nat

structure CpupState where
  gCpupInitFlg : Bool
  gCpup : Nat → OsCpupCB
  gLastRecordTime : Nat
  gHisPos : Nat

structure CpupInfo where
  usStatus : TaskStatus
  uwUsage : Nat

inductive CpupErrno
  | noMemory
  | taskPtrNull
  | noInit
  | threadNoCreated
  | tskIdInvalid
deriving DecidableEq

/-- What `memset_s` leaves. -/
def clearedCpupCB : OsCpupCB :=
  { cpupID := 0, status := noStatus, allTime := 0, startTime := 0, historyTime := fun _ => 0 }

def CpupState.modify (c : CpupState) (i : Nat) (f : OsCpupCB → OsCpupCB) : CpupState :=
  { c with gCpup := Function.update c.gCpup i (f (c.gCpup i)) }

def losSysCycleGet (k : KernelState) : Nat := osGetCurrSchedTimeCycle k

def osTskCycleStart (k : KernelState) (c : CpupState) : CpupState :=
  if !c.gCpupInitFlg then c
  else c.modify (newID k) fun cb => { cb with cpupID := newID k, startTime := losSysCycleGet k }

section

variable [CpupConfig]

/-- The time that is added for the task, the clock being read at `cpuCycle`. -/
def wrapped (cb : OsCpupCB) (cpuCycle : Nat) : Nat :=
  if cpuCycle < cb.startTime then add64 cpuCycle CpupConfig.gCyclesPerTick else cpuCycle

def osTskCycleEnd (k : KernelState) (c : CpupState) : CpupState :=
  if !c.gCpupInitFlg then c
  else if (c.gCpup (runID k)).startTime = 0 then c
  else
    c.modify (runID k) fun cb =>
      { cb with
        allTime := add64 cb.allTime (sub64 (wrapped cb (losSysCycleGet k)) cb.startTime)
        startTime := 0 }

end

section

variable [Config]

def osCpupRecord (c : CpupState) : CpupState :=
  (List.range gTaskMaxNum).foldl
    (fun c loopNum => c.modify loopNum fun cb =>
      { cb with historyTime := Function.update cb.historyTime c.gHisPos cb.allTime }) c

def osTskCycleEndStart [CpupConfig] (k : KernelState) (c : CpupState) : CpupState :=
  if !c.gCpupInitFlg then c
  else
    let runCB := c.gCpup (runID k)
    let cpuCycle :=
      if runCB.startTime ≠ 0 then wrapped runCB (losSysCycleGet k) else losSysCycleGet k
    let c :=
      if runCB.startTime ≠ 0 then
        c.modify (runID k) fun cb =>
          { cb with allTime := add64 cb.allTime (sub64 cpuCycle cb.startTime), startTime := 0 }
      else c
    let c := c.modify (newID k) fun cb => { cb with cpupID := newID k, startTime := cpuCycle }
    if CpupConfig.gSysClock < sub64 cpuCycle c.gLastRecordTime then
      let c := osCpupRecord { c with gLastRecordTime := cpuCycle }
      { c with gHisPos := if c.gHisPos = osCpupHistoryRecordNum - 1 then 0 else c.gHisPos + 1 }
    else c

end

def osGetPrePos (curPos : Nat) : Nat := if curPos = 0 then osCpupHistoryRecordNum - 1 else curPos - 1

def cpupIn1S : Nat := 1

def cpupLessThan1S : Nat := 2

def osGetPositions (c : CpupState) (mode : Nat) : Nat × Nat :=
  if mode = cpupIn1S then (osGetPrePos c.gHisPos, osGetPrePos (osGetPrePos c.gHisPos))
  else if mode = cpupLessThan1S then (osGetPrePos c.gHisPos, 0)
  else (c.gHisPos, 0)

/-- What a task has run in the time that `mode` asks for. -/
def cycles (mode : Nat) (pos : Nat × Nat) (cb : OsCpupCB) : Nat :=
  if mode = cpupIn1S then sub64 (cb.historyTime pos.1) (cb.historyTime pos.2)
  else sub64 cb.allTime (cb.historyTime pos.1)

def OsCpupCB.created (cb : OsCpupCB) : Bool := !(cb.status.unused || decide (cb.status = noStatus))

section

variable [Config]

/-- A sum over the table, as the loops of the queries make it. -/
def cpuCycleAll (c : CpupState) (counts : OsCpupCB → Bool) (f : OsCpupCB → Nat) : Nat :=
  (List.range gTaskMaxNum).foldl
    (fun all loopNum => if counts (c.gCpup loopNum) then add64 all (f (c.gCpup loopNum)) else all) 0

/-- `(UINT32)((LOS_CPUP_PRECISION * cycles) / all)` -/
def share (cycles all : Nat) : Nat := mul64 losCpupPrecision cycles / all % 2 ^ 32

variable [CpupConfig]

def losSysCpuUsage (k : KernelState) (c : CpupState) : CpupState × Except CpupErrno Nat :=
  if !c.gCpupInitFlg then (c, .error .noInit)
  else
    let c := osTskCycleEnd k c
    let all := cpuCycleAll c (fun _ => true) OsCpupCB.allTime
    let cpupRet :=
      if all ≠ 0 then sub32 losCpupPrecision (share (c.gCpup k.gIdleTaskID).allTime all) else 0
    (osTskCycleStart k c, .ok cpupRet)

def losHistorySysCpuUsage (k : KernelState) (c : CpupState) (mode : Nat) :
    CpupState × Except CpupErrno Nat :=
  if !c.gCpupInitFlg then (c, .error .noInit)
  else
    let c := osTskCycleEnd k c
    let pos := osGetPositions c mode
    let all := cpuCycleAll c (fun _ => true) (cycles mode pos)
    let idleCycleAll := cycles mode pos (c.gCpup k.gIdleTaskID)
    let cpupRet := if all ≠ 0 then sub32 losCpupPrecision (share idleCycleAll all) else 0
    (osTskCycleStart k c, .ok cpupRet)

/-- The checks at the start of the two queries about one task. -/
def taskUsageCheck (c : CpupState) (taskID : Nat) : Option CpupErrno :=
  if !c.gCpupInitFlg then some .noInit
  else if gTaskMaxNum ≤ taskID then some .tskIdInvalid
  else if (c.gCpup taskID).cpupID ≠ taskID then some .threadNoCreated
  else if !(c.gCpup taskID).created then some .threadNoCreated
  else none

def losTaskCpuUsage (k : KernelState) (c : CpupState) (taskID : Nat) : CpupState × Except CpupErrno Nat :=
  match taskUsageCheck c taskID with
  | some e => (c, .error e)
  | none =>
    let c := osTskCycleEnd k c
    let all := cpuCycleAll c OsCpupCB.created OsCpupCB.allTime
    let cpupRet := if all ≠ 0 then share (c.gCpup taskID).allTime all else 0
    (osTskCycleStart k c, .ok cpupRet)

def losHistoryTaskCpuUsage (k : KernelState) (c : CpupState) (taskID mode : Nat) :
    CpupState × Except CpupErrno Nat :=
  match taskUsageCheck c taskID with
  | some e => (c, .error e)
  | none =>
    let c := osTskCycleEnd k c
    let pos := osGetPositions c mode
    let all := cpuCycleAll c OsCpupCB.created (cycles mode pos)
    let cpuCycleCurTsk := cycles mode pos (c.gCpup taskID)
    let cpupRet := if all ≠ 0 then share cpuCycleCurTsk all else 0
    (osTskCycleStart k c, .ok cpupRet)

def fillCpupInfo (c : CpupState) (mode all : Nat) (pos : Nat × Nat) (cpupInfo : Nat → CpupInfo) :
    Nat → CpupInfo :=
  (List.range gTaskMaxNum).foldl
    (fun info loopNum =>
      let cb := c.gCpup loopNum
      if cb.created then
        Function.update info loopNum
          { usStatus := cb.status
            uwUsage := if all ≠ 0 then share (cycles mode pos cb) all else (info loopNum).uwUsage }
      else info) cpupInfo

def losAllTaskCpuUsage (k : KernelState) (c : CpupState) (cpupInfo : Option (Nat → CpupInfo)) (mode : Nat) :
    CpupState × Except CpupErrno (Nat → CpupInfo) :=
  if !c.gCpupInitFlg then (c, .error .noInit)
  else
    match cpupInfo with
    | none => (c, .error .taskPtrNull)
    | some info =>
      let c := osTskCycleEnd k c
      let pos := osGetPositions c mode
      let all := cpuCycleAll c OsCpupCB.created (cycles mode pos)
      (osTskCycleStart k c, .ok (fillCpupInfo c mode all pos info))

end

/-- What `LOS_TaskCreate` writes for the task it has created. -/
def cpupTaskCreate (c : CpupState) (taskID : Nat) (taskStatus : TaskStatus) : CpupState :=
  c.modify taskID fun cb => { cb with cpupID := taskID, status := taskStatus }

/-- What `LOS_TaskDelete` does to the entry of the task. -/
def cpupTaskDelete (c : CpupState) (taskID : Nat) : CpupState := c.modify taskID fun _ => clearedCpupCB

end LiteosM.Cpup
