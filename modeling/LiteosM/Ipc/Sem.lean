import LiteosM.Kernel.ObjectPool

/-!
# Semaphores

`los_sem.c`, and the kernel with its semaphores and the tasks that wait for them.
-/

namespace LiteosM.Ipc

open LiteosM.Kernel

/-- `semStat` is `OS_SEM_USED` or not. -/
structure LosSemCB where
  semStat : Bool
  semCount : Nat
  maxSemCount : Nat

inductive SemErrno
  | losOk
  | semPtrNull
  | semOverflow
  | semAllBusy
  | semInvalid
  | semPended
  | semPendInterr
  | semPendInLock
  | semUnavailable
  | semTimeout
  /-- The caller is blocked and has no result yet. -/
  | blocked
deriving DecidableEq

/-- `pending` is the semaphore at which a task is inside `LOS_SemPend`, switched away. -/
structure SemState where
  kernel : KernelState
  sem : Nat → LosSemCB
  pending : Nat → Option Nat

def SemState.setSem (s : SemState) (m : Nat) (cb : LosSemCB) : SemState :=
  { s with sem := Function.update s.sem m cb }

def osSemCountingMaxCount : Fin 65536 := 0xFFFF

def osSemBinaryMaxCount : Fin 65536 := 1

/-- The cast is only meaningful on a `semList`. -/
def getSemList : Node → Option Nat
  | .wait (.semList m) => some m
  | _ => none

/-- The last component is what is written through `semHandle`. -/
def osSemCreate (s : SemState) (count maxCount : Fin 65536) (semHandle : Bool) :
    Option (SemState × SemErrno × Option Nat) :=
  if !semHandle then some (s, .semPtrNull, none)
  else if maxCount < count then some (s, .semOverflow, none)
  else if losListEmpty s.kernel .gUnusedSemList then some (s, .semAllBusy, none)
  else do
    let unusedSem := losDlListFirst s.kernel .gUnusedSemList
    let k := losListDelete s.kernel unusedSem
    let m ← getSemList unusedSem
    let s := { s with kernel := losListInit k (.wait (.semList m)) }
    some (s.setSem m { semStat := true, semCount := count, maxSemCount := maxCount }, .losOk, some m)

def losSemCreate (s : SemState) (count : Fin 65536) (semHandle : Bool) :
    Option (SemState × SemErrno × Option Nat) :=
  osSemCreate s count osSemCountingMaxCount semHandle

def losBinarySemCreate (s : SemState) (count : Fin 65536) (semHandle : Bool) :
    Option (SemState × SemErrno × Option Nat) :=
  osSemCreate s count osSemBinaryMaxCount semHandle

def osSemValidCheck (s : SemState) (intActive : Bool) (m : Nat) : SemErrno :=
  if !(s.sem m).semStat then .semInvalid
  else if intActive then .semPendInterr
  else if s.kernel.gLosTaskLock ≠ 0 then .semPendInLock
  else .losOk

/-- The rest of `LOS_SemPend`, from the return of `LOS_Schedule` on. -/
def losSemPendResume (s : SemState) : SemState × SemErrno :=
  let runningTask := s.kernel.runTask
  let s := { s with pending := Function.update s.pending runningTask none }
  if (s.kernel.status runningTask).timeout then
    ({ s with kernel := s.kernel.modifyStatus runningTask fun s => { s with timeout := false } }, .semTimeout)
  else (s, .losOk)

def SemState.settle (s : SemState) (k : KernelState) : SemState :=
  { s with
    kernel := k
    pending := fun t => if (k.status t).unused then none else s.pending t }

def SemState.free (s : SemState) : Bool := s.kernel.calling && (s.pending s.kernel.runTask).isNone

variable [Config]

/-- The node of a semaphore is in the unused list while the semaphore does not exist. -/
def osSemInit (s : SemState) : SemState :=
  let s := { s with kernel := losListInit s.kernel .gUnusedSemList }
  (List.range Config.semLimit).foldl (fun s index =>
    { s with
      sem := Function.update s.sem index { s.sem index with semStat := false }
      kernel := losListTailInsert s.kernel .gUnusedSemList (.wait (.semList index)) }) s

def losSemDelete (s : SemState) (m : Nat) : SemState × SemErrno :=
  if Config.semLimit ≤ m then (s, .semInvalid)
  else if !(s.sem m).semStat then (s, .semInvalid)
  else if !losListEmpty s.kernel (.wait (.semList m)) then (s, .semPended)
  else
    let s := { s with kernel := losListAdd s.kernel .gUnusedSemList (.wait (.semList m)) }
    (s.setSem m { s.sem m with semStat := false }, .losOk)

/-- `LOS_SemPend` up to its end or to the point where the caller is switched away. -/
def losSemPend (s : SemState) (intActive : Bool) (m timeout : Nat) : SemState × SemErrno :=
  if Config.semLimit ≤ m then (s, .semInvalid)
  else
    let retErr := osSemValidCheck s intActive m
    if retErr ≠ .losOk then (s, retErr)
    else
      let cb := s.sem m
      if 0 < cb.semCount then (s.setSem m { cb with semCount := cb.semCount - 1 }, .losOk)
      else if timeout = 0 then (s, .semUnavailable)
      else
        let runningTask := s.kernel.runTask
        let k := s.kernel.modifyTask runningTask fun cb => { cb with taskSem := some m }
        ({ s with
          kernel := losSchedule (osSchedTaskWait k (.semList m) timeout)
          pending := Function.update s.pending runningTask (some m) }, .blocked)

def losSemPost (s : SemState) (m : Nat) : Option (SemState × SemErrno) :=
  if Config.semLimit ≤ m then some (s, .semInvalid)
  else
    let cb := s.sem m
    if !cb.semStat then some (s, .semInvalid)
    else if cb.maxSemCount = cb.semCount then some (s, .semOverflow)
    else if !losListEmpty s.kernel (.wait (.semList m)) then do
      let resumedTask ← osTcbFromPendList (losDlListFirst s.kernel (.wait (.semList m)))
      let k := s.kernel.modifyTask resumedTask fun cb => { cb with taskSem := none }
      let k ← osSchedTaskWake k resumedTask
      some ({ s with kernel := losSchedule k }, .losOk)
    else some (s.setSem m { cb with semCount := (cb.semCount + 1) % 2 ^ 16 }, .losOk)

/-- `intActive` says that an interrupt makes the call. A post may come from either. -/
inductive SemEvent
  | create (count : Fin 65536) (semHandle : Bool)
  | binaryCreate (count : Fin 65536) (semHandle : Bool)
  | delete (m : Nat)
  | pend (intActive : Bool) (m timeout : Nat)
  | resume
  | post (m : Nat)
  | kernel (event : KernelEvent)

def semStep (s : SemState) : SemEvent → Option (SemState × SemErrno)
  | .create count semHandle => (losSemCreate s count semHandle).map fun r => (r.1, r.2.1)
  | .binaryCreate count semHandle => (losBinarySemCreate s count semHandle).map fun r => (r.1, r.2.1)
  | .delete m => some (losSemDelete s m)
  | .pend intActive m timeout =>
    if intActive ∨ s.free then some (losSemPend s intActive m timeout) else none
  | .resume =>
    if s.kernel.calling ∧ (s.pending s.kernel.runTask).isSome then some (losSemPendResume s) else none
  | .post m => losSemPost s m
  | .kernel event =>
    if event.own ∧ (s.pending s.kernel.runTask).isSome then none
    else (kernelStep s.kernel event).map fun k => (s.settle k, .losOk)

def SemBooted (s : SemState) : Prop :=
  ∃ s₀ : SemState, Booted s₀.kernel ∧ (∀ t, s₀.pending t = none) ∧ s = osSemInit s₀

def smallSem : SemState :=
  letI := smallConfig
  osSemInit ⟨smallKernel, fun _ => ⟨false, 0, 0⟩, fun _ => none⟩

omit [Config] in
theorem smallSem_booted : @SemBooted smallConfig smallSem :=
  ⟨_, smallKernel_booted, fun _ => rfl, rfl⟩

end LiteosM.Ipc
