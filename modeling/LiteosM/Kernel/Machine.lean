import LiteosM.Kernel.Calls
import LiteosM.Lib.Transition

/-!
# The kernel as a machine

Everything that can happen in the kernel apart from the calls on IPC objects: task calls,
the tick interrupt, the switch, and time going by. A call made by the running task needs
a processor that is not about to be switched; the others may come from an interrupt. A
call that blocks asks for the switch in the same step; an interrupt that comes between
the two can bring the switch forward, and then the request of the call comes later, as a
`schedule` of its own.
-/

namespace LiteosM.Kernel

open LiteosM.Lib.DlList

variable [Config]

inductive KernelEvent
  | create (taskID : Bool) (taskInitParam : Option TskInitParam) (topOfStack : Bool)
  | createOnly (taskID : Bool) (taskInitParam : Option TskInitParam) (topOfStack : Bool)
  | resume (taskID : Nat)
  | suspend (taskID : Nat)
  | delete (taskID : Nat)
  | priSet (taskID taskPrio : Nat)
  | yield
  | delay (tick : Nat)
  | lock
  | unlock
  | schedule
  | start
  | tick (expired : Bool)
  | pendSV
  | elapse (cycles : Nat)

def KernelEvent.plain : KernelEvent → Prop
  | .create _ _ _ => False
  | .createOnly _ _ _ => False
  | .delete _ => False
  | .start => False
  | .pendSV => False
  | _ => True

def losTaskLock (k : KernelState) : KernelState :=
  { k with gLosTaskLock := (k.gLosTaskLock + 1) % 2 ^ 16 }

def losTaskUnlock (k : KernelState) : KernelState :=
  if 0 < k.gLosTaskLock then
    let k := { k with gLosTaskLock := k.gLosTaskLock - 1 }
    if k.gLosTaskLock = 0 then losSchedule k else k
  else k

def KernelState.atWork (k : KernelState) : Bool := k.gTaskScheduled && !k.pendSV

def KernelState.calling (k : KernelState) : Bool := k.atWork && decide (k.runTask ≠ k.gIdleTaskID)

def kernelStep (k : KernelState) : KernelEvent → Option KernelState
  | .create taskID param top => (losTaskCreate k taskID param top).map fun r => r.1
  | .createOnly taskID param top => (losTaskCreateOnly k taskID param top).map fun r => r.1
  | .resume taskID => (losTaskResume k taskID).map fun r => r.1
  | .suspend taskID => (losTaskSuspend k taskID).map fun r => r.1
  | .delete taskID => (losTaskDelete k taskID).map fun r => r.1
  | .priSet taskID taskPrio => (losTaskPriSet k taskID taskPrio).map fun r => r.1
  | .yield => if k.atWork then some (losTaskYield k).1 else none
  | .delay tick => if k.calling then some (losTaskDelay k false tick).1 else none
  | .lock => if k.atWork then some (losTaskLock k) else none
  | .unlock => if k.atWork then some (losTaskUnlock k) else none
  | .schedule => some (losSchedule k)
  | .start => if k.gTaskScheduled then none else osSchedStart k
  | .tick expired => if k.gTaskScheduled then losSchedTickHandler k expired else none
  | .pendSV => if k.pendSV then halPendSV k else none
  | .elapse cycles => some { k with cycle := k.cycle + cycles }

/-- What the tick handler does to a task whose timeout has expired. -/
structure Expired (k k' : KernelState) (V' : View Node) (t : Nat) : Prop where
  bound : t ≠ k.runTask
  unused : (k'.gTaskCBArray t).taskStatus.unused = false
  live : (k.gTaskCBArray t).taskStatus.unused = false
  pend : (k'.gTaskCBArray t).taskStatus.pend = false
  timeout : (k'.gTaskCBArray t).taskStatus.timeout =
    ((k.gTaskCBArray t).taskStatus.timeout || (k.gTaskCBArray t).taskStatus.pend)
  priority : (k'.gTaskCBArray t).priority = (k.gTaskCBArray t).priority
  gone : ∀ w, V'.role (.pendList t) ≠ .member (.wait w)

/-- The tasks that an event is about, with what it does to them. -/
def Affected (k k' : KernelState) (V V' : View Node) : KernelEvent → Nat → Prop
  | .create _ _ _, u => Created k k' V' u
  | .createOnly _ _ _, u => Created k k' V' u
  | .delete taskID, u => u = taskID ∧ Deleted k k' V' u
  | .priSet taskID _, u => u = taskID ∧
      (k'.gTaskCBArray u).taskStatus = (k.gTaskCBArray u).taskStatus ∧
      ∀ w, V'.role (.pendList u) = .member (.wait w) ↔ V.role (.pendList u) = .member (.wait w)
  | .tick _, u => Expired k k' V' u
  | _, _ => False

section

variable {x : Nat → Prop} {k k' k'' : KernelState} {V V' V'' : View Node} {t u : Nat}

theorem TimedOut.expired (hi : KernelInv k V) (h : TimedOut k k' V' t) (ht : t < gTaskMaxNum) :
    Expired k k' V' t := by
  obtain ⟨hb, htm, hs, hp, hg⟩ := h
  have hu := ((hi.task t ht).of_timed htm).1
  refine ⟨hb, ?_, hu, ?_, ?_, hp, hg⟩
  · rw [hs]
    split <;> exact hu
  · rw [hs]
    split <;> rfl
  · rw [hs]
    split <;> rfl

omit [Config] in
theorem Expired.congr (h : Expired k k' V' t) (hk : Kept k' V' k'' V'' t) : Expired k k'' V'' t :=
  ⟨h.bound, hk.unused.trans h.unused, h.live, hk.pend.trans h.pend, hk.timeout.trans h.timeout,
    hk.priority.trans h.priority, fun w hw => h.gone w ((hk.place w).mp hw)⟩

theorem losSchedTickHandler_spec (hi : KernelInv k V) (hsched : k.gTaskScheduled) (expired : Bool) :
    ∃ k' V', losSchedTickHandler k expired = some k' ∧ KernelInv k' V' ∧
      Quiet (Expired k k' V') k V k' V' ∧ k'.runTask = k.runTask ∧ (Settled k → Settled k') ∧
      Shelved k V V' := by
  unfold losSchedTickHandler
  rw [if_neg (by simp [hsched])]
  -- the scan, if the interrupt is for one
  obtain ⟨k1, V1, b, heq1, hi1, hs1⟩ : ∃ k1 V1 b, (if expired = true then osSchedScanTimerList k
      else some (k, false)) = some (k1, b) ∧ KernelInv k1 V1 ∧ Scanned k V k1 V1 := by
    cases expired with
    | true => exact osSchedScanTimerList_spec hi
    | false => exact ⟨k, V, false, rfl, hi, Scanned.refl k V⟩
  have hq1 : Quiet (Expired k k1 V1) k V k1 V1 := by
    have hq := hs1.quiet
    refine ⟨hq.gIdleTaskID, hq.gTaskScheduled, hq.role, hq.wait, fun u hu hx => hq.kept u hu fun h => ?_⟩
    exact hx (h.expired hi hu)
  have hshelf : Shelved k V V1 := by
    intro u hu hunused
    rcases hs1.task u with h | h
    · exact h.2
    · rw [((hi.task u hu).of_timed h.timed).1] at hunused
      cases hunused
  have hset1 : Settled k → Settled k1 := fun hs => hs.of_steady hs1.toSteady fun _ _ => by
    rcases hs1.task k.runTask with h | h
    · rw [h.1]
    · exact absurd rfl h.bound
  have hcase : ∀ k' V', Quiet (fun _ => False) k1 V1 k' V' → Quiet (Expired k k' V') k V k' V' := by
    intro k' V' hq
    refine ⟨hq.gIdleTaskID.trans hq1.gIdleTaskID, hq.gTaskScheduled.trans hq1.gTaskScheduled,
      fun z hp hs => (hq.role z hp hs).trans (hq1.role z hp hs),
      fun l => (hq.wait l).trans (hq1.wait l), fun u hu hx => ?_⟩
    have hk := hq.kept u hu id
    exact (hq1.kept u hu fun h => hx (h.congr hk)).trans hk
  have hbind : ∀ f : KernelState × Bool → Option KernelState, (if expired = true then
      (osSchedScanTimerList k).bind f else (some (k, false)).bind f) = f (k1, b) := by
    intro f
    cases expired with
    | true =>
      rw [if_pos rfl] at heq1 ⊢
      rw [heq1]
      rfl
    | false =>
      rw [if_neg (by simp)] at heq1 ⊢
      rw [heq1]
      rfl
  simp only [Option.bind_eq_bind]
  rw [hbind]
  by_cases hb : (b && k1.gLosTaskLock == 0) = true
  · rw [if_pos hb]
    have hq : Quiet (fun _ => False) k1 V1 (halTaskSchedule k1) V1 :=
      (Quiet.refl _ k1 V1).congr rfl rfl rfl
    refine ⟨_, V1, rfl, hi1.congr rfl rfl rfl rfl rfl rfl (Nat.le_refl _), hcase _ _ hq, hs1.runTask,
      fun hs => ⟨fun _ h => ?_, (hset1 hs).boot, fun _ => hs1.gTaskScheduled.trans hsched⟩, hshelf⟩
    cases h
  · rw [if_neg hb]
    obtain ⟨k', heq', hi', hm', slice, hcb'⟩ := osTimeSliceUpdate_spec hi1 hi1.run
    have hk : Kept k1 V1 k' V1 k1.runTask :=
      ⟨by rw [hcb'], by rw [hcb'], by rw [hcb'], by rw [hcb'], by rw [hcb'], fun _ => Iff.rfl⟩
    refine ⟨k', V1, heq', hi', hcase _ _ (hm'.quiet_kept hk), hm'.runTask.trans hs1.runTask,
      fun hs => (hset1 hs).of_steady hm'.toSteady fun _ _ => ?_, hshelf⟩
    rw [hcb']

theorem Switched.quiet (hi : KernelInv k V) (hi' : KernelInv k' V') (hs : Switched k V k' V') :
    Quiet (fun _ => False) k V k' V' := by
  refine ⟨hs.gIdleTaskID, hs.gTaskScheduled, hs.role, fun l => ?_, fun u _ _ => ⟨(hs.status u).unused,
    (hs.status u).pend, (hs.status u).timeout, hs.priority u, hs.taskMux u, fun w => ?_⟩⟩
  · rw [hs.wait l]
  · rw [← hi'.core.ready.forest.mem, ← hi.core.ready.forest.mem, hs.wait w]

theorem osSchedStart_spec (hi : KernelInv k V) (hset : Settled k) (hsched : k.gTaskScheduled = false)
    (hidle : k.gIdleTaskID < gTaskMaxNum) :
    ∃ k' V', osSchedStart k = some k' ∧ KernelInv k' V' ∧ k'.gIdleTaskID = k.gIdleTaskID ∧
      (∀ y, (∀ t, y ≠ .pendList t) → (∀ t, y ≠ .sortLinkNode t) → V'.role y = V.role y) ∧
      (∀ l, (V'.content (.wait l)).Sublist (V.content (.wait l))) ∧
      (∀ u < gTaskMaxNum, Kept k V k' V' u) ∧ Settled k' ∧ Shelved k V V' ∧
      k'.runTask < gTaskMaxNum ∧ k'.newTask = k'.runTask ∧ k'.gTaskScheduled = true := by
  have hrun := hset.boot hsched
  -- the clock starts to count, and no task is on the processor yet
  obtain ⟨k0, hk0⟩ : ∃ k0, { k with gTaskScheduled := true } = k0 := ⟨_, rfl⟩
  have hcb0 : k0.gTaskCBArray = k.gTaskCBArray := by rw [← hk0]
  have hnow0 : osGetCurrSchedTimeCycle k ≤ osGetCurrSchedTimeCycle k0 := by
    rw [← hk0]
    simp [osGetCurrSchedTimeCycle, hsched]
  have hid0 : k0.gIdleTaskID = k.gIdleTaskID := by rw [← hk0]
  have hc0 : Core k0 V := hi.core.congr (by rw [← hk0]) (by rw [← hk0])
  have hp0 : ∀ u < gTaskMaxNum, Parked k0 V u := fun u hu =>
    ((hi.task u hu).parked (by omega)).congr (by rw [hcb0]) rfl rfl hid0 hnow0
  obtain ⟨n, htop, hn, hrn, _⟩ := osGetTopTask_spec hc0 hp0 (by rw [hid0]; exact hidle)
  have htop' : osGetTopTask k = some n := by
    rw [← htop, ← hk0]
    rfl
  obtain ⟨kx, heq, hx1, hx2, hx3, hx4, hnew, hx5, hx6, hx7, hxn, hxu⟩ : ∃ kx,
      osSchedStart k = some (osSchedTaskDeQueue kx n) ∧ kx.links = k0.links ∧
      kx.gQueueBitmap = k0.gQueueBitmap ∧ kx.gIdleTaskID = k.gIdleTaskID ∧ kx.runTask = n ∧
      kx.newTask = n ∧ kx.gTaskScheduled = true ∧ kx.pendSV = k.pendSV ∧
      osGetCurrSchedTimeCycle kx = osGetCurrSchedTimeCycle k0 ∧
      kx.gTaskCBArray n = { k0.gTaskCBArray n with
        taskStatus := { (k0.gTaskCBArray n).taskStatus with running := true }
        startTime := osGetCurrSchedTimeCycle k0 } ∧
      ∀ u, u ≠ n → kx.gTaskCBArray u = k0.gTaskCBArray u := by
    unfold osSchedStart
    rw [htop']
    simp only [Option.bind_eq_bind, Option.bind_some]
    refine ⟨_, rfl, ?_, ?_, rfl, rfl, rfl, rfl, rfl, ?_, ?_, fun u hu => ?_⟩
    · rw [← hk0]
      rfl
    · rw [← hk0]
      rfl
    · rw [← hk0]
      rfl
    · rw [modifyTask_self, ← hk0]
      simp only [modifyStatus_self]
      rfl
    · rw [← hk0]
      simp [KernelState.modifyStatus, KernelState.modifyTask, hu]
  have hspare : SpareOk kx := by
    refine hi.spare.congr ?_ (hnow0.trans hx7.ge)
    rw [hxu _ (Nat.ne_of_gt hn), hcb0]
  have hclear : ∀ u < gTaskMaxNum, u ≠ n → kx.gTaskCBArray u = { k0.gTaskCBArray u with
      taskStatus := { (k0.gTaskCBArray u).taskStatus with running := false } } := by
    intro u hu hun
    have h := (hi.task u hu).not_running (by omega)
    rw [← hcb0] at h
    rw [hxu u hun, ← h]
  obtain ⟨V', hi', hm', hcb', hclean, hw'⟩ := switch_finish hc0 hp0 hn hrn hspare hx1 hx2
    (hx3.trans hid0.symm) hx7 (by rw [hx3]; exact fun _ => hidle) hxn hclear
  have hrun' : (osSchedTaskDeQueue kx n).runTask = n := hm'.runTask.trans hx4
  have hi'' : KernelInv (osSchedTaskDeQueue kx n) V' :=
    hi'.congr rfl rfl rfl hrun' rfl rfl (Nat.le_refl _)
  refine ⟨_, V', heq, hi'', hm'.gIdleTaskID.trans hx3, fun y hy hs => hm'.role y (hy n) (hs n), hm'.wait,
    fun u hu => ?_, ⟨fun _ _ => ?_, fun h => ?_, fun _ => ?_⟩, fun u hu hunused => ?_, ?_, ?_,
    hm'.gTaskScheduled.trans hx5⟩
  · by_cases hun : u = n
    · subst hun
      refine ⟨?_, ?_, ?_, ?_, ?_, hw'⟩ <;> rw [hcb', hxn, hcb0]
    · have hcbu : (osSchedTaskDeQueue kx n).gTaskCBArray u = k.gTaskCBArray u := by
        rw [hm'.task u hun, hxu u hun, hcb0]
      have hplu := hm'.role (.pendList u) (by simpa using hun) (by simp)
      exact ⟨by rw [hcbu], by rw [hcbu], by rw [hcbu], by rw [hcbu], by rw [hcbu],
        fun w => by rw [hplu]⟩
  · rw [hrun']
    exact ⟨hn, hclean⟩
  · rw [hm'.gTaskScheduled, hx5] at h
    cases h
  · rw [hm'.gTaskScheduled, hx5]
  · have hun : u ≠ n := by
      rintro rfl
      have hready : (k.gTaskCBArray u).taskStatus.ready = false := ((hi.task u hu).flags.unused hunused).1
      rw [← hcb0, hrn] at hready
      cases hready
    exact hm'.role (.pendList u) (by simpa using hun) (by simp)
  · rw [hrun']
    exact hn
  · rw [osSchedTaskDeQueue_newTask, hnew, hrun']

/-- The kernel between two events. -/
structure Machine (k : KernelState) (V : View Node) : Prop where
  inv : KernelInv k V
  settled : Settled k
  idle : k.gIdleTaskID < gTaskMaxNum

/-- What an event leaves alone. -/
structure Quieted (e : KernelEvent) (k : KernelState) (V : View Node) (k' : KernelState)
    (V' : View Node) : Prop where
  role : ∀ y, (∀ t, y ≠ .pendList t) → (∀ t, y ≠ .sortLinkNode t) → V'.role y = V.role y
  wait : ∀ l, (V'.content (.wait l)).Sublist (V.content (.wait l))
  kept : ∀ u < gTaskMaxNum, ¬ Affected k k' V V' e u → Kept k V k' V' u

theorem Quiet.quieted {e : KernelEvent} (hq : Quiet x k V k' V')
    (hx : ∀ u < gTaskMaxNum, x u → Kept k V k' V' u ∨ Affected k k' V V' e u) :
    Quieted e k V k' V' := by
  refine ⟨hq.role, hq.wait, fun u hu hne => ?_⟩
  by_cases hxu : x u
  · rcases hx u hu hxu with h | h
    · exact h
    · exact absurd h hne
  · exact hq.kept u hu hxu

theorem Machine.calling_caller (hm : Machine k V) (hc : k.calling = true) : Caller k := by
  simp only [KernelState.calling, KernelState.atWork, Bool.and_eq_true, Bool.not_eq_true',
    decide_eq_true_eq] at hc
  obtain ⟨hlt, hclean⟩ := hm.settled.run hc.1.1 hc.1.2
  exact ⟨hlt, hc.2, hclean⟩

theorem kernelStep_spec {e : KernelEvent} (hm : Machine k V) (hstep : kernelStep k e = some k') :
    ∃ V', Machine k' V' ∧ Quieted e k V k' V' ∧
      (e.plain → Shelved k V V' ∧ k'.runTask = k.runTask ∧ k'.gTaskScheduled = k.gTaskScheduled) := by
  obtain ⟨hi, hset, hidle⟩ := hm
  cases e with
  | create taskID param top =>
    obtain ⟨k1, V1, r, o, heq, hi1, _, hset1, ho⟩ := losTaskCreate_spec hi taskID param top
    simp only [kernelStep, heq, Option.map_some, Option.some.injEq] at hstep
    rw [← hstep]
    rcases ho with ⟨_, hq⟩ | ⟨t, _, hq, hcr⟩
    · refine ⟨V1, ⟨hi1, hset1 hset, ?_⟩, hq.quieted fun _ _ h => h.elim, fun h => h.elim⟩
      rw [hq.gIdleTaskID]
      exact hidle
    · refine ⟨V1, ⟨hi1, hset1 hset, ?_⟩, hq.quieted fun u _ h => .inr ?_, fun h => h.elim⟩
      · rw [hq.gIdleTaskID]
        exact hidle
      · rw [h]
        exact hcr
  | createOnly taskID param top =>
    obtain ⟨k1, V1, r, o, heq, hi1, _, hset1, ho⟩ := losTaskCreateOnly_spec hi taskID param top
    simp only [kernelStep, heq, Option.map_some, Option.some.injEq] at hstep
    rw [← hstep]
    rcases ho with ⟨_, _, hq⟩ | ⟨t, _, hq, hcr, _⟩
    · refine ⟨V1, ⟨hi1, hset1 hset, ?_⟩, hq.quieted fun _ _ h => h.elim, fun h => h.elim⟩
      rw [hq.gIdleTaskID]
      exact hidle
    · refine ⟨V1, ⟨hi1, hset1 hset, ?_⟩, hq.quieted fun u _ h => .inr ?_, fun h => h.elim⟩
      · rw [hq.gIdleTaskID]
        exact hidle
      · rw [h]
        exact hcr
  | resume taskID =>
    obtain ⟨k1, V1, r, heq, hi1, hq, hrun, hset1, hshelf⟩ := losTaskResume_spec hi taskID
    simp only [kernelStep, heq, Option.map_some, Option.some.injEq] at hstep
    rw [← hstep]
    refine ⟨V1, ⟨hi1, hset1 hset, ?_⟩, hq.quieted fun _ _ h => h.elim, fun _ => ⟨hshelf, hrun, hq.gTaskScheduled⟩⟩
    rw [hq.gIdleTaskID]
    exact hidle
  | suspend taskID =>
    obtain ⟨k1, V1, r, heq, hi1, hq, hrun, hset1, hshelf⟩ := losTaskSuspend_spec hi taskID
    simp only [kernelStep, heq, Option.map_some, Option.some.injEq] at hstep
    rw [← hstep]
    refine ⟨V1, ⟨hi1, hset1 hset, ?_⟩, hq.quieted fun _ _ h => h.elim, fun _ => ⟨hshelf, hrun, hq.gTaskScheduled⟩⟩
    rw [hq.gIdleTaskID]
    exact hidle
  | delete taskID =>
    obtain ⟨k1, V1, r, heq, hi1, hq, hset1, ho, _⟩ := losTaskDelete_spec hi taskID
    simp only [kernelStep, heq, Option.map_some, Option.some.injEq] at hstep
    rw [← hstep]
    refine ⟨V1, ⟨hi1, hset1 hset, ?_⟩, hq.quieted fun u _ h => ?_, fun h => h.elim⟩
    · rw [hq.gIdleTaskID]
      exact hidle
    · rcases ho with ⟨hk, hV⟩ | hd
      · left
        rw [hk, hV]
        exact Kept.refl k V u
      · right
        rw [h]
        exact ⟨rfl, hd⟩
  | priSet taskID taskPrio =>
    obtain ⟨k1, V1, r, heq, hi1, hq, hrun, hset1, hs, hw, hshelf⟩ := losTaskPriSet_spec hi taskID taskPrio
    simp only [kernelStep, heq, Option.map_some, Option.some.injEq] at hstep
    rw [← hstep]
    refine ⟨V1, ⟨hi1, hset1 hset, ?_⟩, hq.quieted fun u _ h => .inr ?_, fun _ => ⟨hshelf, hrun, hq.gTaskScheduled⟩⟩
    · rw [hq.gIdleTaskID]
      exact hidle
    · rw [h]
      exact ⟨rfl, hs, hw⟩
  | yield =>
    simp only [kernelStep] at hstep
    split at hstep
    · obtain ⟨hi1, hq, hrun, hset1⟩ := losTaskYield_spec hi
      rw [Option.some.injEq] at hstep
      rw [← hstep]
      refine ⟨V, ⟨hi1, hset1 hset, ?_⟩, hq.quieted fun _ _ h => h.elim,
        fun _ => ⟨Shelved.refl k V, hrun, hq.gTaskScheduled⟩⟩
      rw [hq.gIdleTaskID]
      exact hidle
    · cases hstep
  | delay tick =>
    simp only [kernelStep] at hstep
    split at hstep
    · next hc =>
      have hcaller := Machine.calling_caller ⟨hi, hset, hidle⟩ hc
      simp only [KernelState.calling, KernelState.atWork, Bool.and_eq_true] at hc
      obtain ⟨hi1, hq, hrun, hset1⟩ := losTaskDelay_spec hi hcaller hc.1.1 false tick
      rw [Option.some.injEq] at hstep
      rw [← hstep]
      refine ⟨V, ⟨hi1, hset1 hset, ?_⟩, hq.quieted fun _ _ h => h.elim,
        fun _ => ⟨Shelved.refl k V, hrun, hq.gTaskScheduled⟩⟩
      rw [hq.gIdleTaskID]
      exact hidle
    · cases hstep
  | lock =>
    simp only [kernelStep] at hstep
    split at hstep
    · rw [Option.some.injEq] at hstep
      rw [← hstep]
      have hq : Quiet (fun _ => False) k V (losTaskLock k) V := (Quiet.refl _ k V).congr rfl rfl rfl
      exact ⟨V, ⟨hi.congr rfl rfl rfl rfl rfl rfl (Nat.le_refl _),
        ⟨hset.run, hset.boot, hset.request⟩, hidle⟩, hq.quieted fun _ _ h => h.elim,
        fun _ => ⟨Shelved.refl k V, rfl, rfl⟩⟩
    · cases hstep
  | unlock =>
    simp only [kernelStep] at hstep
    split at hstep
    · rw [Option.some.injEq] at hstep
      rw [← hstep]
      obtain ⟨k1, hk1⟩ : ∃ k1, { k with gLosTaskLock := k.gLosTaskLock - 1 } = k1 := ⟨_, rfl⟩
      have hi1 : KernelInv k1 V := by
        rw [← hk1]
        exact hi.congr rfl rfl rfl rfl rfl rfl (Nat.le_refl _)
      have hset1 : Settled k1 := by
        rw [← hk1]
        exact ⟨hset.run, hset.boot, hset.request⟩
      have hq1 : Quiet (fun _ => False) k V k1 V := by
        rw [← hk1]
        exact (Quiet.refl _ k V).congr rfl rfl rfl
      have hcase : losTaskUnlock k = losSchedule k1 ∨ losTaskUnlock k = k1 ∨ losTaskUnlock k = k := by
        unfold losTaskUnlock
        dsimp only
        split
        · split
          · exact .inl (by rw [← hk1])
          · exact .inr (.inl hk1)
        · exact .inr (.inr rfl)
      rcases hcase with h | h | h <;> rw [h]
      · refine ⟨V, ⟨hi1.losSchedule, hset1.losSchedule, ?_⟩,
          hq1.losSchedule.quieted fun _ _ h => h.elim, fun _ => ⟨Shelved.refl k V, ?_, hq1.losSchedule.gTaskScheduled⟩⟩
        · rw [hq1.losSchedule.gIdleTaskID]
          exact hidle
        · rw [losSchedule_runTask, ← hk1]
      · refine ⟨V, ⟨hi1, hset1, ?_⟩, hq1.quieted fun _ _ h => h.elim,
          fun _ => ⟨Shelved.refl k V, by rw [← hk1], hq1.gTaskScheduled⟩⟩
        rw [hq1.gIdleTaskID]
        exact hidle
      · exact ⟨V, ⟨hi, hset, hidle⟩, (Quiet.refl (fun _ => False) k V).quieted fun _ _ h => h.elim,
          fun _ => ⟨Shelved.refl k V, rfl, rfl⟩⟩
    · cases hstep
  | schedule =>
    simp only [kernelStep, Option.some.injEq] at hstep
    rw [← hstep]
    have hq : Quiet (fun _ => False) k V (losSchedule k) V := (Quiet.refl _ k V).losSchedule
    refine ⟨V, ⟨hi.losSchedule, hset.losSchedule, ?_⟩, hq.quieted fun _ _ h => h.elim,
      fun _ => ⟨Shelved.refl k V, losSchedule_runTask k, hq.gTaskScheduled⟩⟩
    rw [hq.gIdleTaskID]
    exact hidle
  | start =>
    simp only [kernelStep] at hstep
    split at hstep
    · cases hstep
    · next hs =>
      rw [Bool.not_eq_true] at hs
      obtain ⟨k1, V1, heq, hi1, hid1, hrole, hwait, hkept, hset1, _⟩ := osSchedStart_spec hi hset hs hidle
      rw [heq, Option.some.injEq] at hstep
      rw [← hstep]
      refine ⟨V1, ⟨hi1, hset1, ?_⟩, ⟨hrole, hwait, fun u hu _ => hkept u hu⟩, fun h => h.elim⟩
      rw [hid1]
      exact hidle
  | tick expired =>
    simp only [kernelStep] at hstep
    split at hstep
    · next hs =>
      obtain ⟨k1, V1, heq, hi1, hq, hrun, hset1, hshelf⟩ := losSchedTickHandler_spec hi hs expired
      rw [heq, Option.some.injEq] at hstep
      rw [← hstep]
      refine ⟨V1, ⟨hi1, hset1 hset, ?_⟩, hq.quieted fun _ _ h => .inr h, fun _ => ⟨hshelf, hrun, hq.gTaskScheduled⟩⟩
      rw [hq.gIdleTaskID]
      exact hidle
    · cases hstep
  | pendSV =>
    simp only [kernelStep] at hstep
    split at hstep
    · next hp =>
      have hsched := hset.request hp
      by_cases hready : k.runTask < gTaskMaxNum →
          (k.gTaskCBArray k.runTask).taskStatus.ready = false
      · obtain ⟨k1, V1, heq, hi1, hs1, hlt, _⟩ := halPendSV_spec hi hsched hready
        have hq := hs1.quiet hi hi1
        rw [heq, Option.some.injEq] at hstep
        rw [← hstep]
        refine ⟨V1, ⟨hi1, ⟨fun _ _ => ⟨hlt, hs1.clean⟩, fun h => ?_, fun h => ?_⟩, ?_⟩,
          hq.quieted fun _ _ h => h.elim, fun h => h.elim⟩
        · rw [hs1.gTaskScheduled, hsched] at h
          cases h
        · rw [hs1.pendSV] at h
          cases h
        · rw [hq.gIdleTaskID]
          exact hidle
      · obtain ⟨hlt, hr⟩ := Classical.not_imp.mp hready
        rw [Bool.not_eq_false] at hr
        rw [halPendSV_ready hi hlt hr] at hstep
        cases hstep
    · cases hstep
  | elapse cycles =>
    simp only [kernelStep, Option.some.injEq] at hstep
    rw [← hstep]
    have hnow : osGetCurrSchedTimeCycle k ≤
        osGetCurrSchedTimeCycle { k with cycle := k.cycle + cycles } := by
      unfold osGetCurrSchedTimeCycle
      dsimp only
      split
      · exact Nat.le_add_right _ _
      · exact Nat.le_refl _
    have hq : Quiet (fun _ => False) k V { k with cycle := k.cycle + cycles } V :=
      (Quiet.refl _ k V).congr rfl rfl rfl
    exact ⟨V, ⟨hi.congr rfl rfl rfl rfl rfl rfl hnow, ⟨hset.run, hset.boot, hset.request⟩, hidle⟩,
      hq.quieted fun _ _ h => h.elim, fun _ => ⟨Shelved.refl k V, rfl, rfl⟩⟩

end

end LiteosM.Kernel
