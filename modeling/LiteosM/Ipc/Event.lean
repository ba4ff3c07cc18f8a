import LiteosM.Kernel.Boot
import LiteosM.Kernel.WaitList

/-!
# Events

`los_event.c`, and the kernel with event control blocks and tasks that read them.
-/

namespace LiteosM.Ipc

open LiteosM.Kernel

def losWaitmodeAnd : BitVec 32 := 4#32

def losWaitmodeOr : BitVec 32 := 2#32

def losWaitmodeClr : BitVec 32 := 1#32

def losErrtypeError : BitVec 32 := 0x02000000#32

inductive EventErrno
  | losOk
  | eventPtrNull
  | eventNotInitialized
  | eventEventmaskInvalid
  | eventSetbitInvalid
  | eventFlagsInvalid
  | eventReadInInterrupt
  | eventReadInLock
  | eventReadTimeout
  | eventShouldNotDestroy
deriving DecidableEq

/-- `eventMask` and `eventMode` are fields of the task control blocks; `initialized` says
that the pointers of `stEventList` are not `NULL`. `reading` is what a task that blocks in
`LOS_EventRead` goes on with: the event control block, the mask and the mode. -/
structure EventState where
  kernel : KernelState
  uwEventID : Nat → BitVec 32
  initialized : Nat → Bool
  eventMask : Nat → BitVec 32
  eventMode : Nat → BitVec 32
  reading : Nat → Option (Nat × BitVec 32 × BitVec 32)

/-- A blocked caller has no result yet. -/
inductive EventRet
  | error (errno : EventErrno)
  | value (ret : BitVec 32)
  | blocked
deriving DecidableEq

def losEventInit (s : EventState) : Option Nat → EventState × EventErrno
  | none => (s, .eventPtrNull)
  | some eventCB =>
    ({ s with
        kernel := losListInit s.kernel (.wait (.stEventList eventCB))
        uwEventID := Function.update s.uwEventID eventCB 0#32
        initialized := Function.update s.initialized eventCB true }, .losOk)

/-- The result and the new value of `*eventID`. -/
def losEventPoll (eventID eventMask mode : BitVec 32) : BitVec 32 × BitVec 32 :=
  let ret :=
    if mode &&& losWaitmodeOr ≠ 0#32 then
      if eventID &&& eventMask ≠ 0#32 then eventID &&& eventMask else 0#32
    else
      if eventMask ≠ 0#32 ∧ eventMask = eventID &&& eventMask then eventID &&& eventMask else 0#32
  (ret, if ret ≠ 0#32 ∧ mode &&& losWaitmodeClr ≠ 0#32 then eventID &&& ~~~ret else eventID)

def EventState.poll (s : EventState) (eventCB : Nat) (eventMask mode : BitVec 32) :
    EventState × BitVec 32 :=
  let r := losEventPoll (s.uwEventID eventCB) eventMask mode
  ({ s with uwEventID := Function.update s.uwEventID eventCB r.2 }, r.1)

def osEventReadParamCheck (s : EventState) (eventCB : Option Nat) (eventMask mode : BitVec 32) :
    EventErrno :=
  match eventCB with
  | none => .eventPtrNull
  | some eventCB =>
    if !s.initialized eventCB then .eventNotInitialized
    else if eventMask = 0#32 then .eventEventmaskInvalid
    else if eventMask &&& losErrtypeError ≠ 0#32 then .eventSetbitInvalid
    else if (mode &&& losWaitmodeOr ≠ 0#32 ∧ mode &&& losWaitmodeAnd ≠ 0#32) ∨
        mode &&& ~~~(losWaitmodeOr ||| losWaitmodeAnd ||| losWaitmodeClr) ≠ 0#32 ∨
        mode &&& (losWaitmodeOr ||| losWaitmodeAnd) = 0#32 then .eventFlagsInvalid
    else .losOk

/-- `LOS_EventRead` up to its end or to the point where the caller is switched away. -/
def losEventRead (s : EventState) (intActive : Bool) (eventCB : Option Nat)
    (eventMask mode : BitVec 32) (timeOut : Nat) : EventState × EventRet :=
  let ret := osEventReadParamCheck s eventCB eventMask mode
  if ret ≠ .losOk then (s, .error ret)
  else
    match eventCB with
    | none => (s, .error .eventPtrNull)
    | some eventCB =>
      if intActive then (s, .error .eventReadInInterrupt)
      else
        let r := s.poll eventCB eventMask mode
        let s := r.1
        if r.2 = 0#32 then
          if timeOut = 0 then (s, .value r.2)
          else if s.kernel.gLosTaskLock ≠ 0 then (s, .error .eventReadInLock)
          else
            let runTsk := s.kernel.runTask
            ({ s with
                eventMask := Function.update s.eventMask runTsk eventMask
                eventMode := Function.update s.eventMode runTsk mode
                reading := Function.update s.reading runTsk (some (eventCB, eventMask, mode))
                kernel := losSchedule (osSchedTaskWait s.kernel (.stEventList eventCB) timeOut) },
              .blocked)
        else (s, .value r.2)

/-- The rest of `LOS_EventRead`, from the return of `LOS_Schedule` on. -/
def losEventReadResume (s : EventState) (eventCB : Nat) (eventMask mode : BitVec 32) :
    EventState × EventRet :=
  let runTsk := s.kernel.runTask
  let s := { s with reading := Function.update s.reading runTsk none }
  if (s.kernel.status runTsk).timeout then
    ({ s with kernel := s.kernel.modifyStatus runTsk fun s => { s with timeout := false } },
      .error .eventReadTimeout)
  else
    let r := s.poll eventCB eventMask mode
    (r.1, .value r.2)

/-- The condition under which `LOS_EventWrite` wakes a waiter. -/
def eventWakes (s : EventState) (eventCB : Nat) (events : BitVec 32) (resumedTask : Nat) : Bool :=
  (s.eventMode resumedTask &&& losWaitmodeOr ≠ 0#32 &&
      s.eventMask resumedTask &&& events ≠ 0#32) ||
    (s.eventMode resumedTask &&& losWaitmodeAnd ≠ 0#32 &&
      s.eventMask resumedTask &&& s.uwEventID eventCB = s.eventMask resumedTask)

variable [Config]

/-- The loop of `LOS_EventWrite` from the waiter at `node` on. -/
def losEventWriteLoop (eventCB : Nat) (events : BitVec 32) :
    Nat → EventState → Node → Bool → Option (EventState × Bool)
  | 0, _, _, _ => none
  | fuel + 1, s, node, exitFlag =>
    if node = .wait (.stEventList eventCB) then some (s, exitFlag)
    else do
      let resumedTask ← osTcbFromPendList node
      let nextTask := s.kernel.links.next node
      if eventWakes s eventCB events resumedTask then
        let k ← osSchedTaskWake s.kernel resumedTask
        losEventWriteLoop eventCB events fuel { s with kernel := k } nextTask true
      else losEventWriteLoop eventCB events fuel s nextTask exitFlag

def losEventWrite (s : EventState) (eventCB : Option Nat) (events : BitVec 32) :
    Option (EventState × EventErrno) :=
  match eventCB with
  | none => some (s, .eventPtrNull)
  | some eventCB =>
    if !s.initialized eventCB then some (s, .eventNotInitialized)
    else if events &&& losErrtypeError ≠ 0#32 then some (s, .eventSetbitInvalid)
    else
      let head := Node.wait (.stEventList eventCB)
      let s := { s with uwEventID := Function.update s.uwEventID eventCB (s.uwEventID eventCB ||| events) }
      if !losListEmpty s.kernel head then do
        let r ← losEventWriteLoop eventCB events (gTaskMaxNum + 1) s (s.kernel.links.next head) false
        if r.2 then some ({ r.1 with kernel := losSchedule r.1.kernel }, .losOk)
        else some (r.1, .losOk)
      else some (s, .losOk)

def losEventDestroy (s : EventState) : Option Nat → EventState × EventErrno
  | none => (s, .eventPtrNull)
  | some eventCB =>
    -- with `NULL` pointers the list does not look empty
    if !(s.initialized eventCB && losListEmpty s.kernel (.wait (.stEventList eventCB))) then
      (s, .eventShouldNotDestroy)
    else ({ s with initialized := Function.update s.initialized eventCB false }, .losOk)

def losEventClear (s : EventState) (eventCB : Option Nat) (events : BitVec 32) :
    EventState × EventErrno :=
  match eventCB with
  | none => (s, .eventPtrNull)
  | some eventCB =>
    ({ s with uwEventID := Function.update s.uwEventID eventCB (s.uwEventID eventCB &&& events) }, .losOk)

inductive EventStep
  | init (eventCB : Nat)
  | destroy (eventCB : Option Nat)
  | read (intActive : Bool) (eventCB : Option Nat) (eventMask mode : BitVec 32) (timeOut : Nat)
  | resume
  | poll (eventCB : Nat) (eventMask mode : BitVec 32)
  | write (eventCB : Option Nat) (events : BitVec 32)
  | clear (eventCB : Option Nat) (events : BitVec 32)
  | kernel (event : KernelEvent)

/-- A task that is gone reads no more. -/
def EventState.settle (s : EventState) (k : KernelState) : EventState :=
  { s with
    kernel := k
    reading := fun t => if (k.status t).unused then none else s.reading t }

/-- An event control block is initialised when nobody uses it. A task that blocked in
`LOS_EventRead` goes on there when it runs again. -/
inductive eventStep : EventState → EventStep → EventState → Prop
  | init {s eventCB} (fresh : s.initialized eventCB = false) :
      eventStep s (.init eventCB) (losEventInit s (some eventCB)).1
  | destroy {s eventCB} : eventStep s (.destroy eventCB) (losEventDestroy s eventCB).1
  | read {s intActive eventCB eventMask mode timeOut}
      (caller : intActive = false → s.kernel.calling ∧ s.reading s.kernel.runTask = none) :
      eventStep s (.read intActive eventCB eventMask mode timeOut)
        (losEventRead s intActive eventCB eventMask mode timeOut).1
  | resume {s eventCB eventMask mode} (caller : s.kernel.calling)
      (reading : s.reading s.kernel.runTask = some (eventCB, eventMask, mode)) :
      eventStep s .resume (losEventReadResume s eventCB eventMask mode).1
  | poll {s eventCB eventMask mode} :
      eventStep s (.poll eventCB eventMask mode) (s.poll eventCB eventMask mode).1
  | write {s s' eventCB events r} (run : losEventWrite s eventCB events = some (s', r)) :
      eventStep s (.write eventCB events) s'
  | clear {s eventCB events} :
      eventStep s (.clear eventCB events) (losEventClear s eventCB events).1
  | kernel {s event k} (caller : event.own → s.reading s.kernel.runTask = none)
      (run : kernelStep s.kernel event = some k) : eventStep s (.kernel event) (s.settle k)

/-- After the start of the kernel no event control block has been set up. -/
def EventBooted (s : EventState) : Prop :=
  Booted s.kernel ∧ (∀ e, s.initialized e = false) ∧ ∀ t, s.reading t = none

end LiteosM.Ipc
