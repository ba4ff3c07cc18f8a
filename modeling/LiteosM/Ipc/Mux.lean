import LiteosM.Kernel.Boot
import LiteosM.Kernel.WaitList

/-!
# Mutexes

`los_mux.c`, and the kernel with its mutexes and the tasks that wait for them.
-/

namespace LiteosM.Ipc

open LiteosM.Kernel

/-- `muxStat` is `OS_MUX_USED` or not. -/
structure LosMuxCB where
  muxStat : Bool
  muxCount : Nat
  owner : Option Nat
  priority : Nat

inductive MuxErrno
  | losOk
  | muxPtrNull
  | muxAllBusy
  | muxInvalid
  | muxPended
  | muxPendInterr
  | muxPendInLock
  | muxUnavailable
  | muxTimeout
  /-- The caller is blocked and has no result yet. -/
  | blocked
deriving DecidableEq

/-- `pending` is the mutex at which a task is inside `LOS_MuxPend`, switched away. -/
structure MuxState where
  kernel : KernelState
  mux : Nat → LosMuxCB
  pending : Nat → Option Nat

def MuxState.setMux (s : MuxState) (m : Nat) (cb : LosMuxCB) : MuxState :=
  { s with mux := Function.update s.mux m cb }

variable [Config]

/-- The node of a mutex is in the unused list while the mutex does not exist. -/
def osMuxInit (s : MuxState) : MuxState :=
  let s := { s with kernel := losListInit s.kernel .gUnusedMuxList }
  (List.range Config.muxLimit).foldl (fun s index =>
    { s with
      kernel := losListTailInsert s.kernel .gUnusedMuxList (.wait (.muxList index))
      mux := Function.update s.mux index { s.mux index with muxStat := false } }) s

/-- The cast is only meaningful on a `muxList`. -/
def getMuxList : Node → Option Nat
  | .wait (.muxList m) => some m
  | _ => none

def losMuxCreate (s : MuxState) (muxHandle : Bool) : Option (MuxState × MuxErrno × Option Nat) :=
  if !muxHandle then some (s, .muxPtrNull, none)
  else if losListEmpty s.kernel .gUnusedMuxList then some (s, .muxAllBusy, none)
  else do
    let unusedMux := losDlListFirst s.kernel .gUnusedMuxList
    let m ← getMuxList unusedMux
    let k := losListDelete s.kernel unusedMux
    let s := { s with kernel := losListInit k (.wait (.muxList m)) }
    some (s.setMux m { muxStat := true, muxCount := 0, owner := none, priority := 0 }, .losOk, some m)

def losMuxDelete (s : MuxState) (m : Nat) : MuxState × MuxErrno :=
  if Config.muxLimit ≤ m then (s, .muxInvalid)
  else if !(s.mux m).muxStat then (s, .muxInvalid)
  else if !losListEmpty s.kernel (.wait (.muxList m)) || (s.mux m).muxCount ≠ 0 then (s, .muxPended)
  else
    let s := { s with kernel := losListAdd s.kernel .gUnusedMuxList (.wait (.muxList m)) }
    (s.setMux m { s.mux m with muxStat := false }, .losOk)

omit [Config] in
def osMuxValidCheck (s : MuxState) (intActive : Bool) (m : Nat) : MuxErrno :=
  if !(s.mux m).muxStat then .muxInvalid
  else if intActive then .muxPendInterr
  else if s.kernel.gLosTaskLock ≠ 0 then .muxPendInLock
  else .losOk

/-- `LOS_MuxPend` up to its end or to the point where the caller is switched away. -/
def losMuxPend (s : MuxState) (intActive : Bool) (m timeout : Nat) : Option (MuxState × MuxErrno) :=
  if Config.muxLimit ≤ m then some (s, .muxInvalid)
  else
    let retErr := osMuxValidCheck s intActive m
    if retErr ≠ .losOk then some (s, retErr)
    else
      let runningTask := s.kernel.runTask
      let cb := s.mux m
      if cb.muxCount = 0 then
        some (s.setMux m { cb with
          muxCount := cb.muxCount + 1
          owner := some runningTask
          priority := (s.kernel.gTaskCBArray runningTask).priority }, .losOk)
      else if cb.owner = some runningTask then
        some (s.setMux m { cb with muxCount := (cb.muxCount + 1) % 2 ^ 16 }, .losOk)
      else if timeout = 0 then some (s, .muxUnavailable)
      else do
        let owner ← cb.owner
        let k := s.kernel.modifyTask runningTask fun cb => { cb with taskMux := some m }
        let runPriority := (k.gTaskCBArray runningTask).priority
        let k ←
          if runPriority < (k.gTaskCBArray owner).priority then
            (osSchedModifyTaskSchedParam k owner runPriority).map Prod.fst
          else some k
        some ({ s with
          kernel := losSchedule (osSchedTaskWait k (.muxList m) timeout)
          pending := Function.update s.pending runningTask (some m) }, .blocked)

omit [Config] in
/-- The rest of `LOS_MuxPend`, from the return of `LOS_Schedule` on. -/
def losMuxPendResume (s : MuxState) : MuxState × MuxErrno :=
  let runningTask := s.kernel.runTask
  let s := { s with pending := Function.update s.pending runningTask none }
  if (s.kernel.status runningTask).timeout then
    ({ s with kernel := s.kernel.modifyStatus runningTask fun s => { s with timeout := false } }, .muxTimeout)
  else (s, .losOk)

def losMuxPost (s : MuxState) (m : Nat) : Option (MuxState × MuxErrno) :=
  if Config.muxLimit ≤ m ∨ (s.mux m).muxStat = false then some (s, .muxInvalid)
  else
    let runningTask := s.kernel.runTask
    let cb := s.mux m
    if cb.muxCount = 0 ∨ cb.owner ≠ some runningTask then some (s, .muxInvalid)
    else if cb.muxCount - 1 ≠ 0 then some (s.setMux m { cb with muxCount := cb.muxCount - 1 }, .losOk)
    else do
      let k ←
        if (s.kernel.gTaskCBArray runningTask).priority ≠ cb.priority then
          (osSchedModifyTaskSchedParam s.kernel runningTask cb.priority).map Prod.fst
        else some s.kernel
      if !losListEmpty k (.wait (.muxList m)) then
        let resumedTask ← osTcbFromPendList (losDlListFirst k (.wait (.muxList m)))
        let cb := { cb with
          muxCount := 1
          owner := some resumedTask
          priority := (k.gTaskCBArray resumedTask).priority }
        let k := k.modifyTask resumedTask fun cb => { cb with taskMux := none }
        let k ← osSchedTaskWake k resumedTask
        some ({ s with kernel := losSchedule k }.setMux m cb, .losOk)
      else some ({ s with kernel := k }.setMux m { cb with muxCount := 0 }, .losOk)

inductive MuxEvent
  | create (muxHandle : Bool)
  | delete (m : Nat)
  | pend (m timeout : Nat)
  | resume
  | post (m : Nat)
  | kernel (event : KernelEvent)

omit [Config] in
def MuxState.settle (s : MuxState) (k : KernelState) : MuxState :=
  { s with
    kernel := k
    pending := fun t => if (k.status t).unused then none else s.pending t }

omit [Config] in
def MuxState.free (s : MuxState) : Bool := s.kernel.calling && (s.pending s.kernel.runTask).isNone

/-- The next state and what a call of the running task returns. -/
def muxStep (s : MuxState) : MuxEvent → Option (MuxState × MuxErrno)
  | .create muxHandle => (losMuxCreate s muxHandle).map fun r => (r.1, r.2.1)
  | .delete m => some (losMuxDelete s m)
  | .pend m timeout => if s.free then losMuxPend s false m timeout else none
  | .resume =>
    if s.kernel.calling ∧ (s.pending s.kernel.runTask).isSome then some (losMuxPendResume s) else none
  | .post m => if s.free then losMuxPost s m else none
  | .kernel event =>
    if event.own ∧ (s.pending s.kernel.runTask).isSome then none
    else (kernelStep s.kernel event).map fun k => (s.settle k, .losOk)

def MuxBooted (s : MuxState) : Prop :=
  ∃ s₀ : MuxState, Booted s₀.kernel ∧ (∀ t, s₀.pending t = none) ∧ s = osMuxInit s₀

def smallMux : MuxState :=
  letI := smallConfig
  osMuxInit ⟨smallKernel, fun _ => ⟨false, 0, none, 0⟩, fun _ => none⟩

omit [Config] in
theorem smallMux_booted : @MuxBooted smallConfig smallMux :=
  ⟨_, smallKernel_booted, fun _ => rfl, rfl⟩

end LiteosM.Ipc
