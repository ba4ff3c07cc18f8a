import LiteosM.Ipc.MuxCount

/-!
# POSIX mutexes

Model of `pthread_mutex.c` over the mutexes of the kernel, for one mutex with
the static initialiser. A thread can be switched away between any two of the
steps here; what runs with interrupts locked is one step.
-/

namespace LiteosM.Posix

open LiteosM.Kernel LiteosM.Ipc

/-- `_MUX_MAGIC` -/
def muxMagic : Nat := 0xEBCFDEA0

/-- `_MUX_INVALID_HANDLE` -/
def muxInvalidHandle : Nat := 0xEEEEEEEF

structure PthreadMutex where
  magic : Nat
  handle : Nat

/-- `PTHREAD_MUTEX_INITIALIZER` -/
def pthreadMutexInitializer : PthreadMutex := ⟨muxMagic, muxInvalidHandle⟩

/-- `pthread_mutex_lock` waits for ever and `pthread_mutex_trylock` not at all.
`pthread_mutex_timedlock` waits until a tick, or finds its time over. -/
inductive LockKind
  | lock
  | trylock
  | timedlock (timeout : Option Nat)
deriving DecidableEq

def LockKind.timeout : LockKind → Option Nat
  | .lock => some losWaitForever
  | .trylock => some 0
  | .timedlock timeout => timeout

/-- Where a thread is. -/
inductive Pc
  | idle
  /-- The handle was invalid: about to call `LOS_MuxCreate`. -/
  | create (kind : LockKind)
  /-- About to read the handle for `LOS_MuxPend`. -/
  | fetch (kind : LockKind)
  | pend (handle timeout : Nat)
  /-- Switched away inside `LOS_MuxPend`. -/
  | wait
  | post (handle : Nat)
deriving DecidableEq

/-- `locked t` is how often thread `t` has locked the mutex and not unlocked it since, and `created`
the kernel mutexes that were made for it. -/
structure PthreadState where
  muxes : CountedState
  mutex : PthreadMutex
  pc : Nat → Pc
  locked : Nat → Nat
  created : List Nat

def PthreadState.running (s : PthreadState) : Nat := s.muxes.kernel.runTask

def PthreadState.goto (s : PthreadState) (pc : Pc) : PthreadState :=
  { s with pc := Function.update s.pc s.running pc }

inductive PthreadEvent
  | lock (kind : LockKind)
  | unlock
  /-- The next step of the running thread. -/
  | run
  | kernel (event : KernelEvent)
  /-- A call on another mutex of the kernel. -/
  | other (event : MuxEvent)

variable [Config]

/-- A call of the kernel, and what it returns. -/
def callMux (s : PthreadState) (event : MuxEvent) : Option (PthreadState × MuxErrno) :=
  (muxStep s.muxes.toMuxState event).map fun r => ({ s with muxes := s.muxes.note event r.1 r.2 }, r.2)

/-- The end of a call that may have locked the mutex. -/
def lockReturns (t : Nat) (r : PthreadState × MuxErrno) : PthreadState :=
  let s := { r.1 with pc := Function.update r.1.pc t (if r.2 = .blocked then .wait else .idle) }
  if r.2 = .losOk then { s with locked := Function.update s.locked t (s.locked t + 1) } else s

def unlockReturns (t : Nat) (r : PthreadState × MuxErrno) : PthreadState :=
  let s := { r.1 with pc := Function.update r.1.pc t .idle }
  if r.2 = .losOk then { s with locked := Function.update s.locked t (s.locked t - 1) } else s

/-- `LOS_MuxCreate(&mutex->handle)`: the handle is stored before interrupts are let in again. -/
def createReturns (t : Nat) (kind : LockKind) (handle : Option Nat) (r : PthreadState × MuxErrno) :
    PthreadState :=
  match r.2, handle with
  | .losOk, some m =>
    { r.1 with
      mutex := { r.1.mutex with handle := m }
      created := m :: r.1.created
      pc := Function.update r.1.pc t (.fetch kind) }
  | _, _ => { r.1 with pc := Function.update r.1.pc t .idle }

def pthreadRun (s : PthreadState) : Pc → Option PthreadState
  | .idle => none
  | .create kind => do
    let handle := (← losMuxCreate s.muxes.toMuxState true).2.2
    (callMux s (.create true)).map (createReturns s.running kind handle)
  | .fetch kind =>
    match kind.timeout with
    | none => some (s.goto .idle)
    | some timeout => some (s.goto (.pend s.mutex.handle timeout))
  | .pend handle timeout => (callMux s (.pend handle timeout)).map (lockReturns s.running)
  | .wait => (callMux s .resume).map (lockReturns s.running)
  | .post handle => (callMux s (.post handle)).map (unlockReturns s.running)

omit [Config] in
def PthreadState.between (s : PthreadState) : Prop := s.muxes.free = true ∧ s.pc s.running = .idle

omit [Config] in
/-- Calls on the mutexes that were not made for this one, within the range of `muxCount`. -/
def Foreign (s : PthreadState) : MuxEvent → Prop
  | .create _ => True
  | .delete m => m ∉ s.created
  | .pend m _ => m ∉ s.created ∧
      ((s.muxes.mux m).owner = some s.running → (s.muxes.mux m).muxCount < 65535)
  | .resume => True
  | .post m => m ∉ s.created
  | .kernel _ => False

instance (s : PthreadState) : Decidable s.between := instDecidableAnd

instance (s : PthreadState) (event : MuxEvent) : Decidable (Foreign s event) := by
  cases event <;> unfold Foreign <;> infer_instance

/-- The calls check `magic` first. Threads are not deleted. -/
def pthreadNext (s : PthreadState) : PthreadEvent → Option PthreadState
  | .lock kind =>
    if s.between then
      if s.mutex.magic ≠ muxMagic then some s
      else if s.mutex.handle = muxInvalidHandle then some (s.goto (.create kind))
      else some (s.goto (.fetch kind))
    else none
  | .unlock =>
    if s.between then
      if s.mutex.magic ≠ muxMagic then some s else some (s.goto (.post s.mutex.handle))
    else none
  | .run => if s.muxes.kernel.calling then pthreadRun s (s.pc s.running) else none
  | .kernel (.delete _) => none
  | .kernel event =>
    if event.own ∧ s.pc s.running ≠ .idle then none
    else (callMux s (.kernel event)).map Prod.fst
  | .other event =>
    if s.muxes.kernel.calling ∧ s.pc s.running = .idle ∧ Foreign s event then
      (callMux s event).map Prod.fst
    else none

/-- The kernel is up, and nobody has used the mutex. -/
structure PthreadBooted (s : PthreadState) : Prop where
  muxes : CountBooted s.muxes
  mutex : s.mutex = pthreadMutexInitializer
  pc : ∀ t, s.pc t = .idle
  locked : ∀ t, s.locked t = 0
  created : s.created = []

def smallPthread : PthreadState :=
  ⟨smallCounted, pthreadMutexInitializer, fun _ => .idle, fun _ => 0, []⟩

omit [Config] in
theorem smallPthread_booted : @PthreadBooted smallConfig smallPthread :=
  @PthreadBooted.mk smallConfig _ ⟨smallMux_booted, fun _ _ => rfl⟩ rfl (fun _ => rfl) (fun _ => rfl) rfl

end LiteosM.Posix
