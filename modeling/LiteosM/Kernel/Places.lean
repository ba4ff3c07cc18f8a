import LiteosM.Kernel.Boot
import LiteosM.Kernel.WaitList

/-!
# The place of every task

The kernel with wait lists on which any object may let tasks wait: a task call or a tick,
a wait, a wake, a change of priority by inheritance. The object decides whom it wakes and
when; what the scheduler does is the same for all of them.
-/

namespace LiteosM.Kernel

open LiteosM.Lib.DlList LiteosM.Lib.Transition

/-- `inUse` says which wait lists have been set up. -/
structure WaitState where
  kernel : KernelState
  inUse : WaitList → Bool

inductive WaitEvent
  | kernel (event : KernelEvent)
  | wait (list : WaitList) (ticks : Nat)
  | wake (resumedTask : Nat)
  | inherit (taskCB priority : Nat)
  | clearTimeout (taskCB : Nat)
  | setUp (list : WaitList)
  | giveBack (list : WaitList)

variable [Config]

/-- Up to the switch that the event may ask for. -/
def waitStep (s : WaitState) : WaitEvent → Option WaitState
  | .kernel event => (kernelStep s.kernel event).map fun k => { s with kernel := k }
  | .wait list ticks =>
    if s.kernel.calling ∧ s.kernel.gLosTaskLock = 0 ∧ s.inUse list then
      some { s with kernel := losSchedule (osSchedTaskWait s.kernel list ticks) }
    else none
  | .wake resumedTask =>
    if resumedTask < gTaskMaxNum ∧ (s.kernel.status resumedTask).pend then
      (osSchedTaskWake s.kernel resumedTask).map fun k => { s with kernel := k }
    else none
  | .inherit taskCB priority =>
    if taskCB < gTaskMaxNum ∧ priority ≤ osTaskPriorityLowest then
      (osSchedModifyTaskSchedParam s.kernel taskCB priority).map fun r => { s with kernel := r.1 }
    else none
  | .clearTimeout taskCB =>
    some { s with kernel := s.kernel.modifyStatus taskCB fun s => { s with timeout := false } }
  | .setUp list =>
    if s.inUse list then none
    else some ⟨losListInit s.kernel (.wait list), Function.update s.inUse list true⟩
  | .giveBack list =>
    if s.inUse list ∧ losListEmpty s.kernel (.wait list) then
      some { s with inUse := Function.update s.inUse list false }
    else none

def takeSwitch (k : KernelState) : Option KernelState := if k.pendSV then halPendSV k else some k

/-- An event and the switch it asks for as one step. -/
def WholeStep (s : WaitState) (event : WaitEvent) (s' : WaitState) : Prop :=
  ∃ s₁ k', waitStep s event = some s₁ ∧ takeSwitch s₁.kernel = some k' ∧ s' = { s₁ with kernel := k' }

def WaitBooted (s : WaitState) : Prop := Booted s.kernel ∧ ∀ l, s.inUse l = false

/-- The lists that task `t` is on, as its status says. -/
structure PlaceRight (k : KernelState) (V : View Node) (t : Nat) : Prop where
  unused : (k.status t).unused = true →
    V.role (.pendList t) = .member .gLosFreeTask ∨ V.role (.pendList t) = .member .gTaskRecyleList
  ready : (k.status t).ready = true → t ≠ k.gIdleTaskID →
    V.role (.pendList t) = .member (.gPriQueueList (k.gTaskCBArray t).priority)
  pend : (k.status t).pend = true → ∃ l, V.role (.pendList t) = .member (.wait l)
  none : (k.status t).unused = false → ((k.status t).ready = true → t = k.gIdleTaskID) →
    (k.status t).pend = false → V.role (.pendList t) = .loose
  timed : ((k.status t).delay = true ∨ (k.status t).pendTime = true) →
    V.role (.sortLinkNode t) = .member .gTaskSortLink
  untimed : ¬((k.status t).delay = true ∨ (k.status t).pendTime = true) →
    V.role (.sortLinkNode t) = .loose
  one : ([(k.status t).unused, (k.status t).running, (k.status t).ready, (k.status t).pend,
    (k.status t).delay].count true ≤ 1)
  some : (k.status t).unused = false → (k.status t).running = false → (k.status t).ready = false →
    (k.status t).pend = false → (k.status t).delay = false → (k.status t).suspend = true

/-- Every node of a task is on the list its status says, and the lists share no node. -/
structure PlacesRight (k : KernelState) (V : View Node) : Prop where
  forest : Forest k.links V
  place : ∀ t < gTaskMaxNum, PlaceRight k V t
  running : k.gTaskScheduled = true →
    k.runTask < gTaskMaxNum ∧ ∀ t < gTaskMaxNum, (k.status t).running = true ↔ t = k.runTask

structure WaitInv (s : WaitState) (V : View Node) : Prop where
  machine : Machine s.kernel V
  head : ∀ l, s.inUse l = true → V.role (.wait l) = .head
  loose : ∀ l, s.inUse l = false → V.role (.wait l) = .loose

section

variable {s s' : WaitState} {k k' : KernelState} {V V' : View Node} {t : Nat} {l : WaitList}
  {event : WaitEvent}

theorem WaitInv.same (hi : WaitInv s V) (hm : Machine k V')
    (hrole : ∀ w, V'.role (.wait w) = V.role (.wait w)) : WaitInv { s with kernel := k } V' :=
  ⟨hm, fun l h => (hrole l).trans (hi.head l h), fun l h => (hrole l).trans (hi.loose l h)⟩

theorem WaitInv.setRole (hi : WaitInv s V) {b : Bool}
    (hm : Machine k (V.setRole (.wait l) (if b then .head else .loose))) :
    WaitInv ⟨k, Function.update s.inUse l b⟩ (V.setRole (.wait l) (if b then .head else .loose)) := by
  have hcase : ∀ w, w ≠ l → (V.setRole (.wait l) (if b then .head else .loose)).role (.wait w) =
      V.role (.wait w) := fun w hw => by rw [View.setRole_role, if_neg (by simpa using hw)]
  refine ⟨hm, fun w h => ?_, fun w h => ?_⟩
  · by_cases hw : w = l
    · rw [hw] at h ⊢
      have hb : b = true := (Function.update_self l b s.inUse).symm.trans h
      rw [View.setRole_role, if_pos rfl, if_pos hb]
    · rw [hcase w hw]
      exact hi.head w ((Function.update_of_ne hw b s.inUse).symm.trans h)
  · by_cases hw : w = l
    · rw [hw] at h ⊢
      have hb : b = false := (Function.update_self l b s.inUse).symm.trans h
      rw [View.setRole_role, if_pos rfl, if_neg (by simp [hb])]
    · rw [hcase w hw]
      exact hi.loose w ((Function.update_of_ne hw b s.inUse).symm.trans h)

theorem Machine.inherit (hm : Machine k V) (ht : t < gTaskMaxNum) {priority : Nat}
    (hp : priority < 32) : ∃ k' V' b, osSchedModifyTaskSchedParam k t priority = some (k', b) ∧
      Machine k' V' ∧ Moved t k V k' V' ∧
      (k'.gTaskCBArray t).taskStatus = (k.gTaskCBArray t).taskStatus ∧
      (k'.gTaskCBArray t).priority = priority ∧
      (k'.gTaskCBArray t).taskMux = (k.gTaskCBArray t).taskMux ∧
      (∀ w, V'.role (.pendList t) = .member (.wait w) ↔ V.role (.pendList t) = .member (.wait w)) := by
  obtain ⟨k', V', b, heq, hi', hm', hs', hp', hx', hw'⟩ := osSchedModifyTaskSchedParam_spec hm.inv ht hp
  refine ⟨k', V', b, heq, ⟨hi', hm.settled.of_steady hm'.toSteady fun _ _ => ?_, ?_⟩, hm', hs', hp',
    hx', hw'⟩
  · by_cases hrt : k.runTask = t
    · rw [hrt, hs']
    · rw [hm'.task _ hrt]
  · rw [hm'.gIdleTaskID]
    exact hm.idle

theorem waitStep_inv (hi : WaitInv s V) (hstep : waitStep s event = some s') :
    ∃ V', WaitInv s' V' := by
  have hf := hi.machine.inv.core.ready.forest
  cases event with
  | kernel event =>
    simp only [waitStep, Option.map_eq_some_iff] at hstep
    obtain ⟨k', heq, rfl⟩ := hstep
    obtain ⟨V', hm', hq, _⟩ := kernelStep_spec hi.machine heq
    exact ⟨V', hi.same hm' fun w => hq.role _ (by simp) (by simp)⟩
  | wait l ticks =>
    simp only [waitStep] at hstep
    split at hstep
    · next h =>
      obtain ⟨hcall, hlock, huse⟩ := h
      obtain ⟨V', _, hm', ht', _⟩ := hi.machine.wait hcall hlock (hi.head l huse) ticks
      rw [Option.some.injEq] at hstep
      rw [← hstep]
      exact ⟨V', hi.same hm' fun w => ht'.role _ (by simp) (by simp)⟩
    · cases hstep
  | wake t =>
    simp only [waitStep] at hstep
    split at hstep
    · next h =>
      obtain ⟨k', V', heq, hm', hmv, _⟩ := hi.machine.wake h.1 h.2
      rw [heq, Option.map_some, Option.some.injEq] at hstep
      rw [← hstep]
      exact ⟨V', hi.same hm' fun w => hmv.role _ (by simp) (by simp)⟩
    · cases hstep
  | inherit t priority =>
    simp only [waitStep] at hstep
    split at hstep
    · next h =>
      obtain ⟨k', V', b, heq, hm', hmv, _⟩ := hi.machine.inherit h.1 (Nat.lt_succ_of_le h.2)
      rw [heq, Option.map_some, Option.some.injEq] at hstep
      rw [← hstep]
      exact ⟨V', hi.same hm' fun w => hmv.role _ (by simp) (by simp)⟩
    · cases hstep
  | clearTimeout t =>
    simp only [waitStep, Option.some.injEq] at hstep
    rw [← hstep]
    exact ⟨V, hi.same (hi.machine.clearTimeout t) fun _ => rfl⟩
  | setUp l =>
    simp only [waitStep] at hstep
    split at hstep
    · cases hstep
    · next h =>
      rw [Option.some.injEq] at hstep
      rw [← hstep]
      have hm' := hi.machine.setRole (by simp) (hf.listInit (hi.loose l (by simpa using h)))
      exact ⟨_, WaitInv.setRole (b := true) hi hm'⟩
  | giveBack l =>
    simp only [waitStep] at hstep
    split at hstep
    · next h =>
      rw [Option.some.injEq] at hstep
      rw [← hstep]
      have hh := hi.head l h.1
      have hm' := hi.machine.setRole (by simp) (hf.retire hh ((hf.listEmpty_iff hh).mp h.2))
      exact ⟨_, WaitInv.setRole (b := false) hi hm'⟩
    · cases hstep

theorem waitBooted_inv (hmax : gTaskMaxNum ≤ osInvalid) (hb : WaitBooted s) : ∃ V, WaitInv s V := by
  obtain ⟨V, hm, hloose, _⟩ := booted_machine hmax hb.1
  refine ⟨V, hm, fun l h => ?_, fun l _ => hloose _ rfl⟩
  rw [hb.2 l] at h
  cases h

theorem waitRun_inv {s₀ : WaitState} {events : List WaitEvent} (hmax : gTaskMaxNum ≤ osInvalid)
    (hb : WaitBooted s₀) (hrun : Run (fun s event s' => waitStep s event = some s') s₀ events s) :
    ∃ V, WaitInv s V :=
  run_invariant (fun s => ∃ V, WaitInv s V) (fun _ _ _ ⟨_, hi⟩ hstep => waitStep_inv hi hstep) hrun
    (waitBooted_inv hmax hb)

theorem takeSwitch_inv (hi : WaitInv s V) (hk : takeSwitch s.kernel = some k) :
    ∃ V', WaitInv { s with kernel := k } V' ∧ k.pendSV = false := by
  unfold takeSwitch at hk
  split at hk
  · next hp =>
    have hstep : kernelStep s.kernel .pendSV = some k := by
      simp only [kernelStep]
      rw [if_pos hp]
      exact hk
    obtain ⟨V', hm', hq, _⟩ := kernelStep_spec hi.machine hstep
    refine ⟨V', hi.same hm' fun w => hq.role _ (by simp) (by simp), ?_⟩
    have hsched := hi.machine.settled.request hp
    by_cases hready : s.kernel.runTask < gTaskMaxNum →
        (s.kernel.gTaskCBArray s.kernel.runTask).taskStatus.ready = false
    · obtain ⟨k1, V1, heq, _, hs1, _⟩ := halPendSV_spec hi.machine.inv hsched hready
      rw [heq, Option.some.injEq] at hk
      rw [← hk]
      exact hs1.pendSV
    · obtain ⟨hlt, hr⟩ := Classical.not_imp.mp hready
      rw [halPendSV_ready hi.machine.inv hlt (by simpa using hr)] at hk
      cases hk
  · next hp =>
    rw [Option.some.injEq] at hk
    rw [← hk]
    exact ⟨V, hi, by simpa using hp⟩

theorem Machine.placesRight (hm : Machine k V) (hp : k.pendSV = false) : PlacesRight k V := by
  have hclean : k.gTaskScheduled = true →
      k.runTask < gTaskMaxNum ∧ Clean (k.gTaskCBArray k.runTask).taskStatus :=
    fun h => hm.settled.run h hp
  refine ⟨hm.inv.core.ready.forest, fun t ht => ?_, fun hs => ⟨(hclean hs).1, fun t ht =>
    (hm.inv.task t ht).running⟩⟩
  have ho := hm.inv.task t ht
  -- the running task is neither waiting nor stopped
  have hrun : t = k.runTask → Clean (k.gTaskCBArray t).taskStatus := by
    intro he
    cases hs : k.gTaskScheduled with
    | true =>
      rw [he]
      exact (hclean hs).2
    | false =>
      have hb := hm.settled.boot hs
      rw [← he] at hb
      exact absurd hb (Nat.ne_of_lt ht)
  have hcalm : t = k.runTask → ¬((k.gTaskCBArray t).taskStatus.delay = true ∨
      (k.gTaskCBArray t).taskStatus.pendTime = true) := by
    intro he h
    have hc := hrun he
    rw [hc.delay, hc.pendTime] at h
    rcases h with h | h <;> cases h
  constructor
  case unused => exact ho.free
  case ready => exact ho.queued
  case pend => exact ho.blocked
  case none => exact ho.off
  case timed => exact fun h => ho.timed h fun he => hcalm he h
  case untimed => exact fun h => ho.untimed fun h' => absurd h' h
  case one =>
    unfold KernelState.status
    by_cases he : t = k.runTask
    · have hc := hrun he
      simp [hc.unused, hc.ready, hc.pend, hc.delay, ho.running.mpr he]
    · have hr := ho.not_running he
      obtain ⟨h1, h2, h3, _, _⟩ := ho.flags
      generalize (k.gTaskCBArray t).taskStatus = st at h1 h2 h3 hr ⊢
      obtain ⟨a, b, c, d, e, f, g, i⟩ := st
      cases a <;> cases c <;> cases d <;> cases e <;> cases f <;> simp_all
  case some =>
    unfold KernelState.status
    intro h1 h2 h3 h4 h5
    have hsome := ho.flags.some
    simp only [h1, h2, h3, h4, h5] at hsome
    simpa using hsome

theorem wholeRun_inv {s₀ : WaitState} {events : List WaitEvent} (hmax : gTaskMaxNum ≤ osInvalid)
    (hb : WaitBooted s₀) (hrun : Run WholeStep s₀ events s) : ∃ V, WaitInv s V ∧ s.kernel.pendSV = false := by
  have hstart : ∃ V, WaitInv s₀ V ∧ s₀.kernel.pendSV = false := by
    obtain ⟨V, hi⟩ := waitBooted_inv hmax hb
    obtain ⟨_, _, _, hsched, _⟩ := booted_machine hmax hb.1
    refine ⟨V, hi, ?_⟩
    cases hp : s₀.kernel.pendSV with
    | false => rfl
    | true => exact absurd (hi.machine.settled.request hp) (by simp [hsched])
  refine run_invariant (fun s => ∃ V, WaitInv s V ∧ s.kernel.pendSV = false) ?_ hrun hstart
  rintro s event s' ⟨V, hi, _⟩ ⟨s₁, k', hstep, hsw, rfl⟩
  obtain ⟨V₁, hi₁⟩ := waitStep_inv hi hstep
  exact takeSwitch_inv hi₁ hsw

/-- Every reachable control block is on the lists that its status says. -/
theorem wholeStep_placesRight {s₀ : WaitState} {events : List WaitEvent}
    (hmax : gTaskMaxNum ≤ osInvalid) (hb : WaitBooted s₀) (hrun : Run WholeStep s₀ events s) :
    ∃ V, PlacesRight s.kernel V := by
  obtain ⟨V, hi, hp⟩ := wholeRun_inv hmax hb hrun
  exact ⟨V, hi.machine.placesRight hp⟩

end

def smallWaits : WaitState := ⟨smallKernel, fun _ => false⟩

/-- `WholeStep`, as a function. -/
def wholeNext (s : WaitState) (event : WaitEvent) : Option WaitState :=
  (waitStep s event).bind fun s₁ => (takeSwitch s₁.kernel).map fun k' => { s₁ with kernel := k' }

theorem wholeNext_step {s s' : WaitState} {event : WaitEvent} (h : wholeNext s event = some s') :
    WholeStep s event s' := by
  obtain ⟨s₁, hstep, h⟩ := Option.bind_eq_some_iff.mp h
  obtain ⟨k', hsw, h⟩ := Option.map_eq_some_iff.mp h
  exact ⟨s₁, k', hstep, hsw, h.symm⟩

theorem wholeNext_run {s s' : WaitState} {events : List WaitEvent} (h : events.foldlM wholeNext s = some s') :
    Run WholeStep s events s' :=
  run_mono (fun _ _ _ => wholeNext_step) (run_of_foldlM h)

/-- The task of priority 10 waits with a timeout and is suspended in its wait, the one of priority 11 delays itself.
The first is woken and resumed, waits again until its time is over, and deletes the other in its delay. -/
def waitsAndTimes : List WaitEvent :=
  [.setUp (.semList 0), .kernel (smallTask 10), .kernel (smallTask 11), .kernel .start, .wait (.semList 0) 5, .kernel (.delay 9),
    .kernel (.suspend 1), .wake 1, .kernel (.resume 1), .wait (.semList 0) 2, .kernel (.elapse 20),
    .kernel (.tick true), .kernel (.delete 2), .kernel (.suspend 1)]

omit [Config] in
/-- Where the two tasks are when both are off the processor, and in the end. -/
theorem wholeStep_placesRight_small :
    letI := smallConfig
    ∃ s s' V V', Run WholeStep smallWaits (waitsAndTimes.take 7) s ∧
      (s.kernel.status 1).pend ∧ (s.kernel.status 1).pendTime ∧ (s.kernel.status 1).suspend ∧
      (s.kernel.status 2).delay ∧ s.kernel.runTask = s.kernel.gIdleTaskID ∧ PlacesRight s.kernel V ∧
      Run WholeStep smallWaits waitsAndTimes s' ∧ (s'.kernel.status 1).timeout ∧
      (s'.kernel.status 1).suspend ∧ (s'.kernel.status 2).unused ∧ PlacesRight s'.kernel V' := by
  let := smallConfig
  have hb : WaitBooted smallWaits := ⟨smallKernel_booted, fun _ => rfl⟩
  have hfirst : ((waitsAndTimes.take 7).foldlM wholeNext smallWaits).map (fun s => ((s.kernel.status 1).pend,
      (s.kernel.status 1).pendTime, (s.kernel.status 1).suspend, (s.kernel.status 2).delay,
      decide (s.kernel.runTask = s.kernel.gIdleTaskID))) = some (true, true, true, true, true) := by decide +kernel
  have hlast : (waitsAndTimes.foldlM wholeNext smallWaits).map (fun s => ((s.kernel.status 1).timeout,
      (s.kernel.status 1).suspend, (s.kernel.status 2).unused)) = some (true, true, true) := by decide +kernel
  obtain ⟨s, hs, hval⟩ := Option.map_eq_some_iff.mp hfirst
  obtain ⟨s', hs', hval'⟩ := Option.map_eq_some_iff.mp hlast
  simp only [Prod.mk.injEq, decide_eq_true_eq] at hval hval'
  obtain ⟨hpend, htime, hsusp, hdelay, hidle⟩ := hval
  obtain ⟨htimeout, hsusp', hunused⟩ := hval'
  have hrun := wholeNext_run hs
  have hrun' := wholeNext_run hs'
  obtain ⟨V, hplaces⟩ := wholeStep_placesRight (by decide) hb hrun
  obtain ⟨V', hplaces'⟩ := wholeStep_placesRight (by decide) hb hrun'
  exact ⟨s, s', V, V', hrun, hpend, htime, hsusp, hdelay, hidle, hplaces, hrun', htimeout, hsusp', hunused, hplaces'⟩

end LiteosM.Kernel
