import LiteosM.Cmsis.KernelLock
import LiteosM.Ipc.EventForever

/-!
# The event flags of CMSIS

`cmsis_liteos2.c` keeps each object in a block of the heap, with a kernel event in it. A deletion
destroys the event and frees the block, one after the other.
-/

namespace LiteosM.Cmsis

open LiteosM.Kernel LiteosM.Ipc LiteosM.Lib.DlList LiteosM.Lib.LinkedList LiteosM.Lib.Transition

def osFlagsWaitAny : BitVec 32 := 0#32

def osFlagsWaitAll : BitVec 32 := 1#32

def osFlagsNoClear : BitVec 32 := 2#32

def osFlagsErrorTimeout : BitVec 32 := 0xFFFFFFFE#32

def osFlagsErrorResource : BitVec 32 := 0xFFFFFFFD#32

def osFlagsErrorParameter : BitVec 32 := 0xFFFFFFFC#32

/-- `LOS_ERRNO_EVENT_NOT_INITIALIZED` -/
def eventNotInitialized : BitVec 32 := 0x02001c07#32

/-- `LOS_ERRNO_EVENT_SHOULD_NOT_DESTORY` -/
def eventShouldNotDestroy : BitVec 32 := 0x02001c08#32

/-- `allocated`: the blocks of `m_aucSysMem0` that hold event flags. `deleting`: the calls of
`osEventFlagsDelete` that have not come to `LOS_MemFree` yet. -/
structure FlagsState extends EventState where
  allocated : Nat → Bool
  deleting : List (Option Nat)

/-- `mem` is what `LOS_MemAlloc` gives. -/
def osEventFlagsNew (s : FlagsState) (intActive : Bool) (mem : Option Nat) :
    FlagsState × Option Nat :=
  if intActive then (s, none)
  else
    match mem with
    | none => (s, none)
    | some pstEventCB =>
      let s := { s with allocated := Function.update s.allocated pstEventCB true }
      let r := losEventInit s.toEventState (some pstEventCB)
      let s := { s with toEventState := r.1 }
      if r.2 = .eventPtrNull then (s, none) else (s, some pstEventCB)

def osEventFlagsSet [Config] (s : FlagsState) (efId : Option Nat) (flags : BitVec 32) :
    Option (FlagsState × BitVec 32) :=
  match efId with
  | none => some (s, osFlagsErrorParameter)
  | some pstEventCB => do
    let (e, uwRet) ← losEventWrite s.toEventState (some pstEventCB) flags
    let s := { s with toEventState := e }
    if uwRet ≠ .losOk then return (s, osFlagsErrorParameter)
    else return (s, s.uwEventID pstEventCB)

def osEventFlagsClear (s : FlagsState) (efId : Option Nat) (flags : BitVec 32) :
    FlagsState × BitVec 32 :=
  match efId with
  | none => (s, osFlagsErrorParameter)
  | some pstEventCB =>
    let rflags := s.uwEventID pstEventCB
    let (e, uwRet) := losEventClear s.toEventState (some pstEventCB) (~~~flags)
    let s := { s with toEventState := e }
    if uwRet ≠ .losOk then (s, osFlagsErrorParameter) else (s, rflags)

/-- The `switch` at the end of `osEventFlagsWait`. A caller that blocks has no result yet. -/
def flagsReturn : EventRet → Option (BitVec 32)
  | .blocked => none
  | .value ret => some ret
  | .error .eventPtrNull => some osFlagsErrorParameter
  | .error .eventEventmaskInvalid => some osFlagsErrorParameter
  | .error .eventSetbitInvalid => some osFlagsErrorParameter
  | .error .eventReadInInterrupt => some osFlagsErrorResource
  | .error .eventFlagsInvalid => some osFlagsErrorResource
  | .error .eventReadInLock => some osFlagsErrorResource
  | .error .eventReadTimeout => some osFlagsErrorTimeout
  | .error .losOk => some 0#32
  | .error .eventNotInitialized => some eventNotInitialized
  | .error .eventShouldNotDestroy => some eventShouldNotDestroy

def flagsMode (options : BitVec 32) : BitVec 32 :=
  let uwMode :=
    if options &&& osFlagsWaitAll = osFlagsWaitAll then losWaitmodeAnd else losWaitmodeOr
  if options &&& osFlagsNoClear = osFlagsNoClear then uwMode &&& ~~~losWaitmodeClr
  else uwMode ||| losWaitmodeClr

def osEventFlagsWait (s : FlagsState) (intActive : Bool) (efId : Option Nat)
    (flags options : BitVec 32) (timeout : Nat) : FlagsState × Option (BitVec 32) :=
  if options > osFlagsWaitAny ||| osFlagsWaitAll ||| osFlagsNoClear then
    (s, some osFlagsErrorParameter)
  else
    let r := losEventRead s.toEventState intActive efId flags (flagsMode options) timeout
    ({ s with toEventState := r.1 }, flagsReturn r.2)

/-- The rest of `osEventFlagsWait` for a task that blocked in it. -/
def osEventFlagsWaitResume (s : FlagsState) (pstEventCB : Nat) (flags mode : BitVec 32) :
    FlagsState × Option (BitVec 32) :=
  let r := losEventReadResume s.toEventState pstEventCB flags mode
  ({ s with toEventState := r.1 }, flagsReturn r.2)

def osEventFlagsDestroy (s : FlagsState) (efId : Option Nat) : FlagsState × OsStatus :=
  let r := losEventDestroy s.toEventState efId
  ({ s with toEventState := r.1 }, if r.2 = .losOk then .osOK else .osErrorParameter)

/-- `LOS_MemFree` refuses what is no block that it gave. What a freed block holds is no event. -/
def losMemFree (s : FlagsState) : Option Nat → FlagsState × Bool
  | none => (s, false)
  | some block =>
    if s.allocated block then
      ({ s with
          allocated := Function.update s.allocated block false
          initialized := Function.update s.initialized block false }, true)
    else (s, false)

def osEventFlagsFree (s : FlagsState) (efId : Option Nat) : FlagsState × OsStatus :=
  let r := losMemFree s efId
  (r.1, if r.2 then .osOK else .osErrorParameter)

def osEventFlagsDelete (s : FlagsState) (efId : Option Nat) : FlagsState × OsStatus :=
  let (s, _) := osEventFlagsDestroy s efId
  osEventFlagsFree s efId

inductive FlagsStep
  | new (intActive : Bool) (mem : Option Nat)
  | set (efId : Option Nat) (flags : BitVec 32)
  | clear (efId : Option Nat) (flags : BitVec 32)
  | wait (intActive : Bool) (efId : Option Nat) (flags options : BitVec 32) (timeout : Nat)
  | resume
  | destroy (efId : Option Nat)
  | free (efId : Option Nat)
  | kernel (event : KernelEvent)

/-- A handle that `osEventFlagsNew` gave and that is still good, or none. -/
def Live (s : FlagsState) (efId : Option Nat) : Prop := ∀ e, efId = some e → s.allocated e = true

/-- Other tasks and interrupts run between the two parts of a deletion. -/
inductive flagsStep [Config] : FlagsState → FlagsStep → FlagsState → Prop
  | new {s intActive mem} (fresh : ∀ e, mem = some e → s.allocated e = false) :
      flagsStep s (.new intActive mem) (osEventFlagsNew s intActive mem).1
  | set {s s' efId flags r} (live : Live s efId) (run : osEventFlagsSet s efId flags = some (s', r)) :
      flagsStep s (.set efId flags) s'
  | clear {s efId flags} (live : Live s efId) :
      flagsStep s (.clear efId flags) (osEventFlagsClear s efId flags).1
  | wait {s intActive efId flags options timeout} (live : Live s efId)
      (caller : intActive = false → s.kernel.calling ∧ s.reading s.kernel.runTask = none) :
      flagsStep s (.wait intActive efId flags options timeout)
        (osEventFlagsWait s intActive efId flags options timeout).1
  | resume {s e flags mode} (caller : s.kernel.calling)
      (reading : s.reading s.kernel.runTask = some (e, flags, mode)) :
      flagsStep s .resume (osEventFlagsWaitResume s e flags mode).1
  | destroy {s efId} (live : Live s efId) :
      flagsStep s (.destroy efId)
        { (osEventFlagsDestroy s efId).1 with deleting := efId :: s.deleting }
  | free {s efId} (pending : efId ∈ s.deleting) :
      flagsStep s (.free efId) { (osEventFlagsFree s efId).1 with deleting := s.deleting.erase efId }
  | kernel {s event k} (caller : event.own → s.reading s.kernel.runTask = none)
      (run : kernelStep s.kernel event = some k) :
      flagsStep s (.kernel event) { s with toEventState := s.settle k }

def FlagsBooted [Config] (s : FlagsState) : Prop :=
  EventBooted s.toEventState ∧ (∀ e, s.allocated e = false) ∧ s.deleting = []

/-- The task waits, and its `pendList` leads to the list in the block. -/
def WaitsOn (k : KernelState) (t e : Nat) : Prop :=
  (k.status t).pend = true ∧ ∃ n, k.links.next^[n] (.pendList t) = .wait (.stEventList e)

/-- No task waits for the flags whose block is freed. -/
def safeStep [Config] (s : FlagsState) (step : FlagsStep) (s' : FlagsState) : Prop :=
  flagsStep s step s' ∧ ∀ e, step = .free (some e) → s.allocated e = true →
    ∀ t < gTaskMaxNum, ¬ WaitsOn s.kernel t e

/-- A deletion that fails leaves everything in its place, and one that succeeds frees a block for
which no task waits. -/
def DeleteSafe [Config] (s : FlagsState) (e : Nat) : Prop :=
  let r := osEventFlagsDelete s (some e)
  (r.2 ≠ .osOK ∧ r.1.allocated e = true ∧
      ∀ t < gTaskMaxNum, WaitsOn s.kernel t e → WaitsOn r.1.kernel t e) ∨
    (r.2 = .osOK ∧ (∀ t < gTaskMaxNum, ¬ WaitsOn r.1.kernel t e) ∧ r.1.allocated e = false)

section

variable [Config] {s s' : EventState} {V : View Node} {e t : Nat} {efId : Option Nat}

theorem waitsOn_iff (hinv : EventInv s V) (ht : t < gTaskMaxNum) :
    WaitsOn s.kernel t e ↔ V.role (.pendList t) = .member (.wait (.stEventList e)) := by
  have hf := hinv.machine.inv.core.ready.forest
  constructor
  · intro ⟨hpend, n, hn⟩
    obtain ⟨l, hl⟩ := (hinv.machine.inv.task t ht).blocked hpend
    have hh := hf.owner _ _ hl
    have hcell := hf.iterate_mem hh (List.mem_cons_of_mem _ ((hf.mem _ _).mpr hl)) n
    rw [hn] at hcell
    cases List.mem_cons.mp hcell with
    | inl heq =>
      rw [heq]
      exact hl
    | inr hmem =>
      have hrole := (hf.mem _ _).mp hmem
      cases hinit : s.initialized e with
      | true =>
        rw [hinv.head e hinit] at hrole
        cases hrole
      | false =>
        rw [hinv.loose e hinit] at hrole
        cases hrole
  · intro hrole
    exact ⟨hinv.machine.inv.pend_of_wait ht hrole, hf.iterate_head hrole⟩

theorem not_waitsOn (hinv : EventInv s V) (ht : t < gTaskMaxNum) (he : s.initialized e = false) :
    ¬ WaitsOn s.kernel t e := by
  rw [waitsOn_iff hinv ht]
  intro hrole
  have hhead := hinv.machine.inv.core.ready.forest.owner _ _ hrole
  rw [hinv.loose e he] at hhead
  cases hhead

/-! ### Which events are set up -/

theorem losEventWriteLoop_initialized {events : BitVec 32} {node : Node} {exitFlag b : Bool} (fuel : Nat)
    (h : losEventWriteLoop e events fuel s node exitFlag = some (s', b)) :
    s'.initialized = s.initialized := by
  induction fuel generalizing s node exitFlag with
  | zero => cases h
  | succ fuel ih =>
    rw [losEventWriteLoop] at h
    split at h
    · cases h
      rfl
    · obtain ⟨task, -, h⟩ := Option.bind_eq_some_iff.mp h
      split at h
      · obtain ⟨k, -, h⟩ := Option.bind_eq_some_iff.mp h
        have hsame := ih h
        exact hsame
      · exact ih h

theorem losEventWrite_initialized {events : BitVec 32} {r : EventErrno}
    (h : losEventWrite s efId events = some (s', r)) : s'.initialized = s.initialized := by
  cases efId with
  | none =>
    cases h
    rfl
  | some e =>
    simp only [losEventWrite] at h
    split at h
    · cases h
      rfl
    · split at h
      · cases h
        rfl
      · split at h
        · obtain ⟨⟨s₁, b⟩, hloop, h⟩ := Option.bind_eq_some_iff.mp h
          have hsame := losEventWriteLoop_initialized _ hloop
          split at h
          · cases h
            exact hsame
          · cases h
            exact hsame
        · cases h
          rfl

omit [Config] in
theorem losEventRead_initialized (intActive : Bool) (eventMask mode : BitVec 32) (timeOut : Nat) :
    (losEventRead s intActive efId eventMask mode timeOut).1.initialized = s.initialized := by
  unfold losEventRead
  dsimp only
  split
  · rfl
  · cases efId with
    | none => rfl
    | some e =>
      dsimp only
      split
      · rfl
      · split
        · split
          · rfl
          · split <;> rfl
        · rfl

omit [Config] in
theorem losEventReadResume_initialized (eventMask mode : BitVec 32) :
    (losEventReadResume s e eventMask mode).1.initialized = s.initialized := by
  unfold losEventReadResume
  dsimp only
  split <;> rfl

omit [Config] in
theorem losEventDestroy_initialized (h : s.initialized e = false) :
    (losEventDestroy s efId).1.initialized e = false := by
  cases efId with
  | none => exact h
  | some e' =>
    rw [losEventDestroy]
    split
    · exact h
    · show Function.update s.initialized e' false e = false
      by_cases he : e = e'
      · rw [he, Function.update_self]
      · rw [Function.update_of_ne he]
        exact h

end

/-! ### Runs -/

/-- The events in freed memory are not set up. -/
structure FlagsInv [Config] (s : FlagsState) (V : View Node) : Prop where
  events : EventInv s.toEventState V
  freed : ∀ e, s.allocated e = false → s.initialized e = false

section

variable [Config] {s₀ s s' : FlagsState} {V : View Node} {e t : Nat} {efId : Option Nat}
  {step : FlagsStep}

theorem osEventFlagsNew_inv (hinv : FlagsInv s V) (intActive : Bool) {mem : Option Nat}
    (fresh : ∀ e, mem = some e → s.allocated e = false) :
    ∃ V', FlagsInv (osEventFlagsNew s intActive mem).1 V' := by
  cases intActive with
  | true => exact ⟨V, hinv⟩
  | false =>
    cases mem with
    | none => exact ⟨V, hinv⟩
    | some e =>
      obtain ⟨V', hevents, -⟩ := losEventInit_inv hinv.events (hinv.freed e (fresh e rfl))
      refine ⟨V', hevents, ?_⟩
      intro e' he'
      have he' : Function.update s.allocated e true e' = false := he'
      show Function.update s.initialized e true e' = false
      by_cases he : e' = e
      · rw [he, Function.update_self] at he'
        cases he'
      · rw [Function.update_of_ne he] at he' ⊢
        exact hinv.freed e' he'

theorem osEventFlagsSet_inv (hinv : FlagsInv s V) {flags r : BitVec 32}
    (hrun : osEventFlagsSet s efId flags = some (s', r)) : ∃ V', FlagsInv s' V' := by
  cases efId with
  | none =>
    cases hrun
    exact ⟨V, hinv⟩
  | some e =>
    obtain ⟨⟨s₁, err⟩, hwrite, hrun⟩ := Option.bind_eq_some_iff.mp hrun
    obtain ⟨s₂, V', err', heq, hevents, -, -⟩ := losEventWrite_spec hinv.events (some e) flags
    rw [hwrite] at heq
    cases heq
    have hnew : FlagsInv { s with toEventState := s₁ } V' := by
      refine ⟨hevents, ?_⟩
      intro e' he'
      rw [losEventWrite_initialized hwrite]
      exact hinv.freed e' he'
    dsimp only at hrun
    split at hrun
    · cases hrun
      exact ⟨V', hnew⟩
    · cases hrun
      exact ⟨V', hnew⟩

theorem osEventFlagsClear_inv (hinv : FlagsInv s V) (flags : BitVec 32) :
    FlagsInv (osEventFlagsClear s efId flags).1 V := by
  cases efId with
  | none => exact hinv
  | some e => exact ⟨hinv.events.clear e ⟨_, rfl⟩, hinv.freed⟩

theorem osEventFlagsWait_inv (hinv : FlagsInv s V) (intActive : Bool) (flags options : BitVec 32)
    (timeout : Nat) (hcaller : intActive = false → s.kernel.calling) :
    ∃ V', FlagsInv (osEventFlagsWait s intActive efId flags options timeout).1 V' := by
  unfold osEventFlagsWait
  split
  · exact ⟨V, hinv⟩
  · obtain ⟨V', hevents, -⟩ :=
      losEventRead_inv hinv.events intActive efId flags (flagsMode options) timeout hcaller
    refine ⟨V', hevents, ?_⟩
    intro e he
    show (losEventRead s.toEventState intActive efId flags (flagsMode options) timeout).1.initialized e = _
    rw [losEventRead_initialized]
    exact hinv.freed e he

theorem osEventFlagsDestroy_inv (hinv : FlagsInv s V) (deleting : List (Option Nat)) :
    ∃ V', FlagsInv { (osEventFlagsDestroy s efId).1 with deleting := deleting } V' := by
  obtain ⟨V', hevents, -⟩ := losEventDestroy_inv hinv.events efId
  refine ⟨V', hevents, ?_⟩
  intro e he
  exact losEventDestroy_initialized (hinv.freed e he)

theorem initialized_dropped (hinv : EventInv s.toEventState V)
    (hfree : ∀ t < gTaskMaxNum, ¬ WaitsOn s.kernel t e) :
    ∃ V', EventInv { s.toEventState with initialized := Function.update s.initialized e false } V' := by
  cases hinit : s.initialized e with
  | false =>
    refine ⟨V, ?_⟩
    rw [← hinit, Function.update_eq_self]
    exact hinv
  | true =>
    obtain ⟨V', hevents, -⟩ := losEventDestroy_inv hinv (some e)
    have hf := hinv.machine.inv.core.ready.forest
    have hempty : losListEmpty s.kernel (.wait (.stEventList e)) = true := by
      apply (hf.listEmpty_iff (hinv.head e hinit)).mpr
      apply List.eq_nil_iff_forall_not_mem.mpr
      intro x hx
      obtain ⟨t, ht, rfl⟩ := hinv.machine.inv.core.mem_pendList hx (.inr (.inr (.inr ⟨_, rfl⟩)))
      exact hfree t ht ((waitsOn_iff hinv ht).mpr ((hf.mem _ _).mp hx))
    refine ⟨V', ?_⟩
    rw [losEventDestroy, if_neg (by simp [hinit, hempty])] at hevents
    exact hevents

theorem osEventFlagsFree_inv (hinv : FlagsInv s V) (deleting : List (Option Nat))
    (hfree : ∀ e, efId = some e → s.allocated e = true → ∀ t < gTaskMaxNum, ¬ WaitsOn s.kernel t e) :
    ∃ V', FlagsInv { (osEventFlagsFree s efId).1 with deleting := deleting } V' := by
  cases efId with
  | none => exact ⟨V, hinv.events, hinv.freed⟩
  | some e =>
    cases halloc : s.allocated e with
    | false =>
      refine ⟨V, ?_⟩
      simp only [osEventFlagsFree, losMemFree, halloc]
      exact ⟨hinv.events, hinv.freed⟩
    | true =>
      obtain ⟨V', hevents⟩ := initialized_dropped hinv.events (hfree e rfl halloc)
      refine ⟨V', ?_⟩
      simp only [osEventFlagsFree, losMemFree, halloc]
      refine ⟨hevents, ?_⟩
      intro e' he'
      have he' : Function.update s.allocated e false e' = false := he'
      show Function.update s.initialized e false e' = false
      by_cases he : e' = e
      · rw [he, Function.update_self]
      · rw [Function.update_of_ne he] at he' ⊢
        exact hinv.freed e' he'

theorem safeStep_inv (hinv : FlagsInv s V) (hstep : safeStep s step s') : ∃ V', FlagsInv s' V' := by
  obtain ⟨hstep, hsafe⟩ := hstep
  cases hstep with
  | new fresh => exact osEventFlagsNew_inv hinv _ fresh
  | set live run => exact osEventFlagsSet_inv hinv run
  | clear live => exact ⟨V, osEventFlagsClear_inv hinv _⟩
  | wait live caller =>
    apply osEventFlagsWait_inv hinv
    exact fun h => (caller h).1
  | resume caller reading =>
    refine ⟨V, hinv.events.resume _ _ _, ?_⟩
    intro e he
    show (losEventReadResume s.toEventState _ _ _).1.initialized e = _
    rw [losEventReadResume_initialized]
    exact hinv.freed e he
  | destroy live => exact osEventFlagsDestroy_inv hinv _
  | @free efId pending =>
    apply osEventFlagsFree_inv hinv
    intro e he
    exact hsafe e (by rw [he])
  | kernel caller run =>
    obtain ⟨V', hevents, -⟩ := hinv.events.settle run
    exact ⟨V', hevents, hinv.freed⟩

theorem safeRun_inv {steps : List FlagsStep} (hmax : gTaskMaxNum ≤ osInvalid) (hb : FlagsBooted s₀)
    (hrun : Run safeStep s₀ steps s) : ∃ V, FlagsInv s V := by
  apply run_invariant (fun s => ∃ V, FlagsInv s V) _ hrun
  · obtain ⟨V, hevents⟩ := eventBooted_inv hmax hb.1
    exact ⟨V, hevents, fun e _ => hb.1.2.1 e⟩
  · intro s step s' ⟨V, hinv⟩ hstep
    exact safeStep_inv hinv hstep

omit [Config] in
theorem osEventFlagsDelete_frees (h : s.allocated e = true) :
    (osEventFlagsDelete s (some e)).2 = .osOK ∧
      (osEventFlagsDelete s (some e)).1.allocated e = false ∧
      (osEventFlagsDelete s (some e)).1.kernel = s.kernel := by
  have hkernel : (osEventFlagsDestroy s (some e)).1.kernel = s.kernel := by
    simp only [osEventFlagsDestroy, losEventDestroy]
    split <;> rfl
  have halloc : (osEventFlagsDestroy s (some e)).1.allocated e = true := h
  simp only [osEventFlagsDelete, osEventFlagsFree, losMemFree, halloc, if_true]
  exact ⟨trivial, Function.update_self .., hkernel⟩

/-- Where no task waits for the flags that are freed, no task is ever linked into freed memory. A
deletion is safe exactly there. -/
theorem osEventFlagsDelete_safe {steps : List FlagsStep} (hmax : gTaskMaxNum ≤ osInvalid)
    (hb : FlagsBooted s₀) (hrun : Run safeStep s₀ steps s) :
    (∀ e, s.allocated e = false → ∀ t < gTaskMaxNum, ¬ WaitsOn s.kernel t e) ∧
    (∀ (u : FlagsState) e, u.allocated e = true →
      (DeleteSafe u e ↔ ∀ t < gTaskMaxNum, ¬ WaitsOn u.kernel t e)) ∧
    ∀ u : FlagsState, osEventFlagsDelete u none = (u, .osErrorParameter) := by
  obtain ⟨V, hinv⟩ := safeRun_inv hmax hb hrun
  refine ⟨?_, ?_, fun u => rfl⟩
  · intro e he t ht
    exact not_waitsOn hinv.events ht (hinv.freed e he)
  · intro u e he
    obtain ⟨hok, hfreed, hkernel⟩ := osEventFlagsDelete_frees he
    unfold DeleteSafe
    dsimp only
    rw [hok, hfreed, hkernel]
    constructor
    · intro h
      cases h with
      | inl h => exact absurd rfl h.1
      | inr h => exact h.2.1
    · intro h
      exact .inr ⟨rfl, h, rfl⟩

end

def flagsNext [Config] (s : FlagsState) : FlagsStep → Option FlagsState
  | .new intActive mem =>
    if mem.all fun e => !s.allocated e then some (osEventFlagsNew s intActive mem).1 else none
  | .set efId flags => if efId.all s.allocated then (osEventFlagsSet s efId flags).map Prod.fst else none
  | .clear efId flags => if efId.all s.allocated then some (osEventFlagsClear s efId flags).1 else none
  | .wait intActive efId flags options timeout =>
    if efId.all s.allocated &&
        (intActive || s.kernel.calling && (s.reading s.kernel.runTask).isNone) then
      some (osEventFlagsWait s intActive efId flags options timeout).1
    else none
  | .resume =>
    if s.kernel.calling then
      (s.reading s.kernel.runTask).map fun r => (osEventFlagsWaitResume s r.1 r.2.1 r.2.2).1
    else none
  | .destroy efId =>
    if efId.all s.allocated then
      some { (osEventFlagsDestroy s efId).1 with deleting := efId :: s.deleting }
    else none
  | .free efId =>
    if efId ∈ s.deleting then
      some { (osEventFlagsFree s efId).1 with deleting := s.deleting.erase efId }
    else none
  | .kernel event =>
    if event.own && (s.reading s.kernel.runTask).isSome then none
    else (kernelStep s.kernel event).map fun k => { s with toEventState := s.settle k }

section

variable {s s' : FlagsState} {efId : Option Nat} {step : FlagsStep}

theorem live_of_all (h : efId.all s.allocated = true) : Live s efId := by
  intro e he
  subst he
  exact h

theorem flagsNext_step [Config] (h : flagsNext s step = some s') : flagsStep s step s' := by
  cases step with
  | new intActive mem =>
    obtain ⟨hfresh, h⟩ := Option.ite_none_right_eq_some.mp h
    cases h
    apply flagsStep.new
    intro e he
    subst he
    simpa using hfresh
  | set efId flags =>
    obtain ⟨hlive, h⟩ := Option.ite_none_right_eq_some.mp h
    obtain ⟨⟨s₁, r⟩, hrun, rfl⟩ := Option.map_eq_some_iff.mp h
    exact .set (live_of_all hlive) hrun
  | clear efId flags =>
    obtain ⟨hlive, h⟩ := Option.ite_none_right_eq_some.mp h
    cases h
    exact .clear (live_of_all hlive)
  | wait intActive efId flags options timeout =>
    obtain ⟨hcall, h⟩ := Option.ite_none_right_eq_some.mp h
    cases h
    rw [Bool.and_eq_true] at hcall
    apply flagsStep.wait (live_of_all hcall.1)
    intro hint
    simpa [hint] using hcall.2
  | resume =>
    obtain ⟨hcall, h⟩ := Option.ite_none_right_eq_some.mp h
    obtain ⟨⟨e, flags, mode⟩, hread, rfl⟩ := Option.map_eq_some_iff.mp h
    exact .resume hcall hread
  | destroy efId =>
    obtain ⟨hlive, h⟩ := Option.ite_none_right_eq_some.mp h
    cases h
    exact .destroy (live_of_all hlive)
  | free efId =>
    obtain ⟨hpending, h⟩ := Option.ite_none_right_eq_some.mp h
    cases h
    exact .free hpending
  | kernel event =>
    obtain ⟨hown, h⟩ := Option.ite_none_left_eq_some.mp h
    obtain ⟨k, hrun, rfl⟩ := Option.map_eq_some_iff.mp h
    apply flagsStep.kernel _ hrun
    intro ho
    simpa [ho] using hown

end

def smallFlags : FlagsState where
  toEventState := smallEvents
  allocated := fun _ => false
  deleting := []

theorem smallFlags_booted : let _ := smallConfig; FlagsBooted smallFlags :=
  ⟨⟨smallKernel_booted, fun _ => rfl, fun _ => rfl⟩, fun _ => rfl, rfl⟩

def calmFree [Config] (s : FlagsState) : FlagsStep → Bool
  | .free _ => decide (∀ t < gTaskMaxNum, (s.kernel.status t).pend = false)
  | _ => true

theorem calmFree_safe [Config] {s s' : FlagsState} {step : FlagsStep} (h : flagsNext s step = some s')
    (hcalm : calmFree s step = true) : safeStep s step s' := by
  refine ⟨flagsNext_step h, ?_⟩
  intro e he _ t ht hwait
  subst he
  cases (of_decide_eq_true hcalm t ht).symm.trans hwait.1

/-- A task waits for a flag, and another one deletes the flags. -/
def deletedUnderWaiter : List FlagsStep :=
  [.new false (some 0), .kernel (smallTask 10), .kernel (smallTask 11), .kernel .start,
    .wait false (some 0) 1#32 osFlagsWaitAny losWaitForever, .kernel .pendSV,
    .destroy (some 0), .free (some 0)]

/-- The flag is set before the flags are deleted. -/
def deletedAfterSet : List FlagsStep :=
  deletedUnderWaiter.take 6 ++ [.set (some 0) 1#32, .destroy (some 0), .free (some 0)]

theorem waitsOn_next {k : KernelState} (hpend : (k.status 1).pend = true)
    (hnext : k.links.next (.pendList 1) = .wait (.stEventList 0)) : WaitsOn k 1 0 :=
  ⟨hpend, 1, hnext⟩

theorem osEventFlagsDelete_safe_set :
    letI := smallConfig
    (∃ s, Run safeStep smallFlags (deletedAfterSet.take 6) s ∧ s.allocated 0 = true ∧
      WaitsOn s.kernel 1 0 ∧ ¬ DeleteSafe s 0) ∧
    ∃ s, Run safeStep smallFlags deletedAfterSet s ∧ s.allocated 0 = false ∧
      (s.kernel.status 1).ready = true ∧ ∀ t < gTaskMaxNum, ¬ WaitsOn s.kernel t 0 := by
  let _ := smallConfig
  have hwaits : ((deletedAfterSet.take 6).foldlM (guarded (fun s step => calmFree s step = true) flagsNext)
      smallFlags).map (fun s =>
      (s.allocated 0, (s.kernel.status 1).pend, s.kernel.links.next (.pendList 1))) =
      some (true, true, .wait (.stEventList 0)) := by decide +kernel
  have hset : (deletedAfterSet.foldlM (guarded (fun s step => calmFree s step = true) flagsNext)
      smallFlags).map (fun s => (s.allocated 0, (s.kernel.status 1).ready)) = some (false, true) := by
    decide +kernel
  obtain ⟨s, hs, hval⟩ := Option.map_eq_some_iff.mp hwaits
  obtain ⟨s', hs', hval'⟩ := Option.map_eq_some_iff.mp hset
  simp only [Prod.mk.injEq] at hval hval'
  obtain ⟨halloc, hpend, hnext⟩ := hval
  obtain ⟨hfreed, hready⟩ := hval'
  have hrun : Run safeStep smallFlags (deletedAfterSet.take 6) s :=
    run_mono (fun _ _ _ h => calmFree_safe h.1 h.2) (run_of_guarded hs)
  have hrun' : Run safeStep smallFlags deletedAfterSet s' :=
    run_mono (fun _ _ _ h => calmFree_safe h.1 h.2) (run_of_guarded hs')
  have hwait := waitsOn_next hpend hnext
  constructor
  · refine ⟨s, hrun, halloc, hwait, fun hsafe => ?_⟩
    have hnone := ((osEventFlagsDelete_safe (by decide) smallFlags_booted hrun).2.1 s 0 halloc).mp hsafe
    exact hnone 1 (by decide) hwait
  · exact ⟨s', hrun', hfreed, hready,
      (osEventFlagsDelete_safe (by decide) smallFlags_booted hrun').1 0 hfreed⟩

theorem osEventFlagsDelete_dangling :
    let _ := smallConfig
    (∃ s, Run flagsStep smallFlags (deletedUnderWaiter.take 6) s ∧ s.allocated 0 = true ∧
      (osEventFlagsDelete s (some 0)).2 = .osOK ∧ ¬ DeleteSafe s 0) ∧
    ∃ s, Run flagsStep smallFlags deletedUnderWaiter s ∧ s.allocated 0 = false ∧
      ∃ t < gTaskMaxNum, WaitsOn s.kernel t 0 := by
  intro _
  have hbefore : ((deletedUnderWaiter.take 6).foldlM flagsNext smallFlags).map (fun s =>
      (s.allocated 0, (s.kernel.status 1).pend, s.kernel.links.next (.pendList 1))) =
      some (true, true, .wait (.stEventList 0)) := by decide +kernel
  have hafter : (deletedUnderWaiter.foldlM flagsNext smallFlags).map (fun s =>
      (s.allocated 0, (s.kernel.status 1).pend, s.kernel.links.next (.pendList 1))) =
      some (false, true, .wait (.stEventList 0)) := by decide +kernel
  obtain ⟨s, hs, hval⟩ := Option.map_eq_some_iff.mp hbefore
  obtain ⟨s', hs', hval'⟩ := Option.map_eq_some_iff.mp hafter
  simp only [Prod.mk.injEq] at hval hval'
  obtain ⟨halloc, hpend, hnext⟩ := hval
  obtain ⟨hfreed, hpend', hnext'⟩ := hval'
  obtain ⟨hok, -, hkernel⟩ := osEventFlagsDelete_frees halloc
  constructor
  · refine ⟨s, run_mono (fun _ _ _ => flagsNext_step) (run_of_foldlM hs), halloc, hok, ?_⟩
    intro h
    cases h with
    | inl h => exact h.1 hok
    | inr h =>
      apply h.2.1 1 (by decide)
      rw [hkernel]
      exact waitsOn_next hpend hnext
  · exact ⟨s', run_mono (fun _ _ _ => flagsNext_step) (run_of_foldlM hs'), hfreed, 1, by decide,
      waitsOn_next hpend' hnext'⟩

end LiteosM.Cmsis
