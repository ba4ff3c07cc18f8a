import LiteosM.Kernel.Boot

/-!
# Task stacks

The kernel with the stacks of its tasks: `OsRecyleFinishedTask`, `LOS_TaskCreateOnly`,
`LOS_TaskDelete` and the switch once more, with what they do to `topOfStack` and the heap.
`LOS_TaskCreate` lets interrupts in between its parts, so a call is made in steps.
-/

namespace LiteosM.Stack

open LiteosM.Kernel

/-- How far a call of `LOS_TaskCreate` or of `LOS_TaskCreateOnly` has got. -/
inductive CreateCall
  /-- About to take a free control block; `enQueue` tells the two calls apart. -/
  | take (taskInitParam : Option TskInitParam) (enQueue : Bool)
  /-- About to put the new task in the ready queue. -/
  | enQueue (taskCB : Nat)

/-- A stack is a block of the heap, and `none` is `NULL`. `stackPointer` says which stack the saved
context of a task is on, and `psp` which one the processor is on; before the start it is none of them.
The tasks are counted as they are made: `life` is the number of the task in a control block, and
`returned` how often the stack of a task went back to the heap. -/
structure StackState where
  kernel : KernelState
  topOfStack : Nat → Option Nat
  stackPointer : Nat → Option Nat
  psp : Option Nat
  heap : Nat → Bool
  calls : List CreateCall
  born : Nat
  life : Nat → Nat
  returned : Nat → Nat

/-- `LOS_MemFree` of `topOfStack`, which becomes `NULL`. -/
def StackState.freeStack (s : StackState) (taskCB : Nat) : StackState :=
  match s.topOfStack taskCB with
  | none => s
  | some stackPtr =>
    { s with
      heap := Function.update s.heap stackPtr false
      topOfStack := Function.update s.topOfStack taskCB none
      returned := Function.update s.returned (s.life taskCB) (s.returned (s.life taskCB) + 1) }

variable [Config]

def osRecyleLoop : Nat → StackState → Option StackState
  | 0, _ => none
  | fuel + 1, s =>
    if losListEmpty s.kernel .gTaskRecyleList then some s
    else do
      let taskCB ← osTcbFromPendList (losDlListFirst s.kernel .gTaskRecyleList)
      let k := losListDelete s.kernel (losDlListFirst s.kernel .gTaskRecyleList)
      let k := losListAdd k .gLosFreeTask (.pendList taskCB)
      osRecyleLoop fuel ({ s with kernel := k }.freeStack taskCB)

def osRecyleFinishedTask (s : StackState) : Option StackState := osRecyleLoop (gTaskMaxNum + 1) s

/-- `LOS_TaskCreateOnly` from the `LOS_IntLock` on. Nothing else can reach the control block while it
is on no list and its status still `UNUSED`. -/
def losTaskCreateOnly (s : StackState) (taskInitParam : Option TskInitParam)
    (topOfStack : Option Nat) : Option (StackState × Errno × Option Nat) := do
  if losListEmpty s.kernel .gLosFreeTask then some (s, .tskTcbUnavailable, none)
  else
    let taskCB ← osTcbFromPendList (losDlListFirst s.kernel .gLosFreeTask)
    let k := losListDelete s.kernel (losDlListFirst s.kernel .gLosFreeTask)
    match topOfStack with
    | none => some ({ s with kernel := losListAdd k .gLosFreeTask (.pendList taskCB) }, .tskNoMemory, none)
    | some stack =>
      let k := osNewTaskInit k taskCB ((taskInitParam.map TskInitParam.usTaskPrio).getD 0)
      some ({ s with
        kernel := k
        stackPointer := Function.update s.stackPointer taskCB (some stack)
        topOfStack := Function.update s.topOfStack taskCB (some stack)
        heap := Function.update s.heap stack true
        born := s.born + 1
        life := Function.update s.life taskCB s.born }, .losOk, some (k.gTaskCBArray taskCB).taskID)

def losTaskDelete (s : StackState) (taskID : Nat) : StackState × Errno :=
  let k := s.kernel
  let ret := osCheckTaskIDValid k taskID
  if ret ≠ .losOk then (s, ret)
  else if (k.status taskID).unused then (s, .tskNotCreated)
  else
    let k :=
      if (k.status taskID).running ∧ k.gLosTaskLock ≠ 0 then { k with gLosTaskLock := 0 } else k
    let k := osSchedTaskExit k taskID
    if (k.status taskID).running then
      let k := k.modifyStatus taskID fun _ => osTaskStatusUnused
      ({ s with
        kernel := losSchedule (osRunningTaskDelete k taskID taskID)
        topOfStack := Function.update s.topOfStack gTaskMaxNum (s.topOfStack taskID) }, .losOk)
    else
      let k := k.modifyStatus taskID fun _ => osTaskStatusUnused
      ({ s with kernel := losListAdd k .gLosFreeTask (.pendList taskID) }.freeStack taskID, .losOk)

/-- `OsSchedStart` and `HalStartToRun`. -/
def losStart (s : StackState) : Option StackState :=
  (osSchedStart s.kernel).map fun k => { s with kernel := k, psp := s.stackPointer k.newTask }

/-- The context of the running task is saved on the stack that the processor is on. -/
def halPendSV (s : StackState) : Option StackState := do
  let r ← osSchedTaskSwitch { s.kernel with pendSV := false }
  if r.2 then
    let stackPointer := Function.update s.stackPointer r.1.runTask s.psp
    some { s with
      kernel := { r.1 with runTask := r.1.newTask }
      stackPointer := stackPointer
      psp := stackPointer r.1.newTask }
  else some { s with kernel := r.1 }

inductive StackEvent
  | create (taskID : Bool) (taskInitParam : Option TskInitParam) (enQueue : Bool)
  /-- A call goes on; `topOfStack` is what `LOS_MemAllocAlign` returns. -/
  | goOn (call : Nat) (topOfStack : Option Nat)
  /-- The idle task looks for finished tasks. -/
  | recyle
  | delete (taskID : Nat)
  | start
  | pendSV
  | kernel (event : KernelEvent)

/-- The rest of `LOS_TaskCreate`. -/
def losTaskCreateEnd (s : StackState) (taskCB : Nat) : Option StackState :=
  (osSchedTaskEnQueue s.kernel taskCB).map fun k =>
    { s with kernel := if k.gTaskScheduled then losSchedule k else k }

def createGoesOn (s : StackState) (call : Nat) (topOfStack : Option Nat) : Option StackState :=
  match s.calls[call]? with
  | none => none
  | some (.take taskInitParam enQueue) =>
    if topOfStack.all (fun stack => !s.heap stack) then
      (losTaskCreateOnly s taskInitParam topOfStack).map fun r =>
        match r.2.2, enQueue with
        | some taskID, true => { r.1 with calls := s.calls.set call (.enQueue taskID) }
        | _, _ => { r.1 with calls := s.calls.eraseIdx call }
    else none
  | some (.enQueue taskCB) => losTaskCreateEnd { s with calls := s.calls.eraseIdx call } taskCB

instance (event : KernelEvent) : Decidable event.plain := by
  cases event <;> unfold KernelEvent.plain <;> infer_instance

def stackStep (s : StackState) : StackEvent → Option StackState
  | .create taskID taskInitParam enQueue =>
    if taskID ∧ osTaskInitParamCheck taskInitParam = .losOk then
      (osRecyleFinishedTask s).map fun s => { s with calls := s.calls ++ [.take taskInitParam enQueue] }
    else some s
  | .goOn call topOfStack => createGoesOn s call topOfStack
  | .recyle =>
    if s.kernel.atWork ∧ s.kernel.runTask = s.kernel.gIdleTaskID then osRecyleFinishedTask s else none
  | .delete taskID => some (losTaskDelete s taskID).1
  | .start => if s.kernel.gTaskScheduled then none else losStart s
  | .pendSV => if s.kernel.pendSV then halPendSV s else none
  | .kernel event =>
    if event.plain then (kernelStep s.kernel event).map fun k => { s with kernel := k } else none

/-- The idle task is there and has a stack, and no task has been made or deleted yet. -/
structure StackBooted (s : StackState) : Prop where
  kernel : Booted s.kernel
  recyle : losListEmpty s.kernel .gTaskRecyleList = true
  idle : ∃ stack, s.topOfStack s.kernel.gIdleTaskID = some stack ∧
    s.stackPointer s.kernel.gIdleTaskID = some stack ∧ s.heap stack = true
  others : ∀ t < gTaskMaxNum, t ≠ s.kernel.gIdleTaskID →
    (s.kernel.status t).unused = true ∧ s.topOfStack t = none
  calls : s.calls = []
  born : s.born = 1 ∧ s.life s.kernel.gIdleTaskID = 0 ∧ ∀ i, s.returned i = 0

/-- The small system; the idle task has block 0 as its stack. -/
def smallStack : StackState where
  kernel := smallKernel
  topOfStack t := if t = smallKernel.gIdleTaskID then some 0 else none
  stackPointer t := if t = smallKernel.gIdleTaskID then some 0 else none
  psp := none
  heap b := decide (b = 0)
  calls := []
  born := 1
  life _ := 0
  returned _ := 0

def smallParam (usTaskPrio : Nat) : Option TskInitParam :=
  some { pfnTaskEntry := some 7, usTaskPrio := usTaskPrio, uwStackSize := 64, pcName := some "task" }

end LiteosM.Stack
