import LiteosM.Kernel.Places

/-!
# Who runs

Apart from the start, the switch and a task that deletes itself, nothing that happens in the
kernel changes which task runs, and nothing at all changes the number of a task.
-/

namespace LiteosM.Kernel

open LiteosM.Lib.DlList

structure SameRun (k k' : KernelState) : Prop where
  id : ∀ u, (k'.gTaskCBArray u).taskID = (k.gTaskCBArray u).taskID
  runTask : k'.runTask = k.runTask
  newTask : k'.newTask = k.newTask
  gTaskScheduled : k'.gTaskScheduled = k.gTaskScheduled
  cycle : k'.cycle = k.cycle
  gIdleTaskID : k'.gIdleTaskID = k.gIdleTaskID

section

variable {k k' k'' : KernelState} {t : Nat} {b : Bool}

theorem SameRun.refl (k : KernelState) : SameRun k k := ⟨fun _ => rfl, rfl, rfl, rfl, rfl, rfl⟩

theorem SameRun.trans (h₁ : SameRun k k') (h₂ : SameRun k' k'') : SameRun k k'' :=
  ⟨fun u => (h₂.id u).trans (h₁.id u), h₂.runTask.trans h₁.runTask, h₂.newTask.trans h₁.newTask,
    h₂.gTaskScheduled.trans h₁.gTaskScheduled, h₂.cycle.trans h₁.cycle,
    h₂.gIdleTaskID.trans h₁.gIdleTaskID⟩

theorem SameRun.modifyTask (k : KernelState) (t : Nat) {f : LosTaskCB → LosTaskCB}
    (hf : ∀ cb, (f cb).taskID = cb.taskID) : SameRun k (k.modifyTask t f) := by
  refine ⟨fun u => ?_, rfl, rfl, rfl, rfl, rfl⟩
  show (Function.update k.gTaskCBArray t (f (k.gTaskCBArray t)) u).taskID = _
  by_cases h : u = t
  · rw [h, Function.update_self]
    exact hf _
  · rw [Function.update_of_ne h]

theorem SameRun.modifyStatus (k : KernelState) (t : Nat) (f : TaskStatus → TaskStatus) :
    SameRun k (k.modifyStatus t f) :=
  SameRun.modifyTask k t fun _ => rfl

theorem SameRun.of_eq (htask : k'.gTaskCBArray = k.gTaskCBArray) (hrun : k'.runTask = k.runTask)
    (hnew : k'.newTask = k.newTask) (hsched : k'.gTaskScheduled = k.gTaskScheduled)
    (hcycle : k'.cycle = k.cycle) (hidle : k'.gIdleTaskID = k.gIdleTaskID) : SameRun k k' :=
  ⟨fun u => by rw [htask], hrun, hnew, hsched, hcycle, hidle⟩

theorem sameRun_losSchedule (k : KernelState) : SameRun k (losSchedule k) := by
  unfold losSchedule
  split
  · exact SameRun.of_eq rfl rfl rfl rfl rfl rfl
  · exact SameRun.refl k

theorem SameRun.schedule (h : SameRun k k') : SameRun k (losSchedule k') := h.trans (sameRun_losSchedule k')

theorem sameRun_losListAdd (k : KernelState) (h x : Node) : SameRun k (losListAdd k h x) :=
  SameRun.of_eq rfl rfl rfl rfl rfl rfl

theorem sameRun_losListTailInsert (k : KernelState) (h x : Node) : SameRun k (losListTailInsert k h x) :=
  SameRun.of_eq rfl rfl rfl rfl rfl rfl

theorem sameRun_losListDelete (k : KernelState) (x : Node) : SameRun k (losListDelete k x) :=
  SameRun.of_eq rfl rfl rfl rfl rfl rfl

theorem sameRun_osSchedPriQueueEnHead (k : KernelState) (x : Node) (p : Nat) :
    SameRun k (osSchedPriQueueEnHead k x p) := SameRun.of_eq rfl rfl rfl rfl rfl rfl

theorem sameRun_osSchedPriQueueEnTail (k : KernelState) (x : Node) (p : Nat) :
    SameRun k (osSchedPriQueueEnTail k x p) := SameRun.of_eq rfl rfl rfl rfl rfl rfl

theorem sameRun_osSchedPriQueueDelete (k : KernelState) (x : Node) (p : Nat) :
    SameRun k (osSchedPriQueueDelete k x p) := SameRun.of_eq rfl rfl rfl rfl rfl rfl

theorem sameRun_osSchedTaskDeQueue (k : KernelState) (t : Nat) : SameRun k (osSchedTaskDeQueue k t) := by
  unfold osSchedTaskDeQueue
  dsimp only
  split
  · refine SameRun.trans ?_ (SameRun.modifyStatus _ t _)
    split
    · exact sameRun_osSchedPriQueueDelete k _ _
    · exact SameRun.refl k
  · exact SameRun.refl k

theorem sameRun_osDeleteNodeSortLink (k : KernelState) (t : Nat) :
    SameRun k (osDeleteNodeSortLink k t) := by
  unfold osDeleteNodeSortLink
  refine (sameRun_losListDelete k (.sortLinkNode t)).trans ?_
  exact SameRun.modifyTask _ t fun _ => rfl

theorem sameRun_osDeleteSortLink (k : KernelState) (t : Nat) : SameRun k (osDeleteSortLink k t) := by
  unfold osDeleteSortLink
  split
  · exact sameRun_osDeleteNodeSortLink k t
  · exact SameRun.refl k

theorem sameRun_osSchedTaskExit (k : KernelState) (t : Nat) : SameRun k (osSchedTaskExit k t) := by
  have hleave : ∀ k₁, SameRun k k₁ → SameRun k
      (if (k₁.status t).delay || (k₁.status t).pendTime then
        (osDeleteSortLink k₁ t).modifyStatus t fun s => { s with delay := false, pendTime := false }
      else k₁) := by
    intro k₁ h₁
    split
    · exact (h₁.trans (sameRun_osDeleteSortLink k₁ t)).trans (SameRun.modifyStatus _ t _)
    · exact h₁
  unfold osSchedTaskExit
  refine hleave _ ?_
  split
  · exact sameRun_osSchedTaskDeQueue k t
  · split
    · exact (sameRun_losListDelete k _).trans (SameRun.modifyStatus _ t _)
    · exact SameRun.refl k

theorem sameRun_osSchedYield (k : KernelState) : SameRun k (osSchedYield k) :=
  SameRun.modifyTask k k.runTask fun _ => rfl

theorem sameRun_osSchedTaskWait (k : KernelState) (l : WaitList) (ticks : Nat) :
    SameRun k (osSchedTaskWait k l ticks) := by
  unfold osSchedTaskWait
  dsimp only
  split
  · refine SameRun.trans ?_ (SameRun.modifyTask _ _ fun _ => rfl)
    refine SameRun.trans ?_ (SameRun.modifyStatus _ _ _)
    exact (SameRun.modifyStatus k k.runTask _).trans (sameRun_losListTailInsert _ _ _)
  · exact (SameRun.modifyStatus k k.runTask _).trans (sameRun_losListTailInsert _ _ _)

theorem sameRun_osTimeSliceUpdate {now : Nat} (h : osTimeSliceUpdate k t now = some k') : SameRun k k' := by
  unfold osTimeSliceUpdate at h
  dsimp only at h
  split at h
  · cases h
  · cases h
    exact SameRun.modifyTask k t fun _ => rfl

variable [Config]

theorem sameRun_osSchedTaskEnQueue (h : osSchedTaskEnQueue k t = some k') : SameRun k k' := by
  unfold osSchedTaskEnQueue at h
  dsimp only at h
  split at h
  · cases h
  · cases h
    refine SameRun.trans ?_ (SameRun.modifyStatus _ t _)
    split
    · split
      · exact sameRun_osSchedPriQueueEnHead k _ _
      · refine SameRun.trans ?_ (sameRun_osSchedPriQueueEnTail _ _ _)
        exact SameRun.modifyTask k t fun _ => rfl
    · exact SameRun.refl k

theorem sameRun_osAddNode2SortLink (h : osAddNode2SortLink k t = some k') : SameRun k k' := by
  unfold osAddNode2SortLink at h
  dsimp only at h
  split at h
  · cases h
    exact sameRun_losListAdd _ _ _
  · obtain ⟨listSorted, _, h⟩ := Option.bind_eq_some_iff.mp h
    split at h
    · cases h
      exact sameRun_losListAdd _ _ _
    · obtain ⟨prevNode, _, h⟩ := Option.bind_eq_some_iff.mp h
      cases h
      exact sameRun_losListAdd _ _ _

theorem sameRun_osAdd2SortLink {startTime waitTicks : Nat}
    (h : osAdd2SortLink k t startTime waitTicks = some k') : SameRun k k' := by
  have hset : SameRun k (k.modifyTask t fun cb =>
      { cb with responseTime := ((startTime + waitTicks * Config.osCyclePerTick : Nat) : WithTop Nat) }) :=
    SameRun.modifyTask k t fun _ => rfl
  unfold osAdd2SortLink at h
  exact hset.trans (sameRun_osAddNode2SortLink h)

theorem sameRun_osSchedWakePendTimeTask {needSchedule : Bool} {r : KernelState × Bool}
    (h : osSchedWakePendTimeTask k t needSchedule = some r) : SameRun k r.1 := by
  unfold osSchedWakePendTimeTask at h
  dsimp only at h
  split at h
  · have hwoken : ∀ k₁ : KernelState, SameRun k k₁ → ∀ r, (if !(k.status t).suspend then
        (osSchedTaskEnQueue k₁ t).bind fun k => some (k, true) else some (k₁, needSchedule)) = some r →
        SameRun k r.1 := by
      intro k₁ h₁ r hr
      split at hr
      · obtain ⟨k₂, henq, hr⟩ := Option.bind_eq_some_iff.mp hr
        cases hr
        exact h₁.trans (sameRun_osSchedTaskEnQueue henq)
      · cases hr
        exact h₁
    refine hwoken _ ?_ r h
    split
    · refine SameRun.trans ?_ (SameRun.modifyTask _ t fun _ => rfl)
      refine SameRun.trans ?_ (sameRun_losListDelete _ _)
      exact (SameRun.modifyStatus k t _).trans (SameRun.modifyStatus _ t _)
    · exact SameRun.modifyStatus k t _
  · cases h
    exact SameRun.refl k

theorem sameRun_osSchedScanLoop (now fuel : Nat) {r : KernelState × Bool}
    (h : osSchedScanLoop now fuel k b = some r) : SameRun k r.1 := by
  induction fuel generalizing k b with
  | zero => cases h
  | succ fuel ih =>
    unfold osSchedScanLoop at h
    simp only [Option.bind_eq_bind, Option.bind_eq_some_iff] at h
    obtain ⟨taskCB, _, h⟩ := h
    split at h
    · obtain ⟨r₁, hwake, h⟩ := Option.bind_eq_some_iff.mp h
      have h₁ := (sameRun_osDeleteNodeSortLink k taskCB).trans (sameRun_osSchedWakePendTimeTask hwake)
      split at h
      · cases h
        exact h₁
      · exact h₁.trans (ih h)
    · cases h
      exact SameRun.refl k

theorem sameRun_osSchedScanTimerList {r : KernelState × Bool} (h : osSchedScanTimerList k = some r) :
    SameRun k r.1 := by
  unfold osSchedScanTimerList at h
  split at h
  · cases h
    exact SameRun.refl k
  · exact sameRun_osSchedScanLoop _ _ h

theorem sameRun_losSchedTickHandler (h : losSchedTickHandler k b = some k') : SameRun k k' := by
  unfold losSchedTickHandler at h
  split at h
  · cases h
  · have hrest : ∀ r : KernelState × Bool, SameRun k r.1 → (if r.2 && r.1.gLosTaskLock == 0 then
        some (halTaskSchedule r.1)
        else osTimeSliceUpdate r.1 r.1.runTask (osGetCurrSchedTimeCycle r.1)) = some k' → SameRun k k' := by
      intro r h₁ hr
      split at hr
      · cases hr
        exact h₁.trans (SameRun.of_eq rfl rfl rfl rfl rfl rfl)
      · exact h₁.trans (sameRun_osTimeSliceUpdate hr)
    dsimp only at h
    split at h
    · obtain ⟨r, hscan, h⟩ := Option.bind_eq_some_iff.mp h
      exact hrest r (sameRun_osSchedScanTimerList hscan) h
    · exact hrest (k, false) (SameRun.refl k) h

theorem sameRun_osSchedTaskWake (h : osSchedTaskWake k t = some k') : SameRun k k' := by
  unfold osSchedTaskWake at h
  dsimp only at h
  have hwoken : ∀ k₁ : KernelState, SameRun k k₁ →
      (if !(k₁.status t).suspend then osSchedTaskEnQueue k₁ t else some k₁) = some k' → SameRun k k' := by
    intro k₁ h₁ hr
    split at hr
    · exact h₁.trans (sameRun_osSchedTaskEnQueue hr)
    · cases hr
      exact h₁
  refine hwoken _ ?_ h
  have hfree := (sameRun_losListDelete k (.pendList t)).trans
    (SameRun.modifyStatus _ t fun s => { s with pend := false })
  split
  · exact (hfree.trans (sameRun_osDeleteSortLink _ t)).trans (SameRun.modifyStatus _ t _)
  · exact hfree

theorem sameRun_osSchedModifyTaskSchedParam {priority : Nat} {r : KernelState × Bool}
    (h : osSchedModifyTaskSchedParam k t priority = some r) : SameRun k r.1 := by
  unfold osSchedModifyTaskSchedParam at h
  split at h
  · obtain ⟨k₁, henq, h⟩ := Option.bind_eq_some_iff.mp h
    cases h
    refine SameRun.trans ?_ (sameRun_osSchedTaskEnQueue henq)
    exact (sameRun_osSchedTaskDeQueue k t).trans (SameRun.modifyTask _ t fun _ => rfl)
  · cases h
    dsimp only
    exact SameRun.modifyTask k t fun _ => rfl

omit [Config] in
theorem sameRun_osRecyleLoop (fuel : Nat) (h : osRecyleLoop fuel k = some k') : SameRun k k' := by
  induction fuel generalizing k with
  | zero => cases h
  | succ fuel ih =>
    unfold osRecyleLoop at h
    split at h
    · cases h
      exact SameRun.refl _
    · obtain ⟨taskCB, _, h⟩ := Option.bind_eq_some_iff.mp h
      exact ((sameRun_losListDelete _ _).trans (sameRun_losListAdd _ _ _)).trans (ih h)

theorem sameRun_osRecyleFinishedTask (h : osRecyleFinishedTask k = some k') : SameRun k k' :=
  sameRun_osRecyleLoop _ h

theorem sameRun_losTaskCreateOnly {taskID top : Bool} {param : Option TskInitParam}
    {r : KernelState × Errno × Option Nat} (h : losTaskCreateOnly k taskID param top = some r) :
    SameRun k r.1 := by
  unfold losTaskCreateOnly at h
  dsimp only at h
  split at h
  · cases h
    exact SameRun.refl k
  · split at h
    · cases h
      exact SameRun.refl k
    · obtain ⟨k₁, hrec, h⟩ := Option.bind_eq_some_iff.mp h
      have h₁ := sameRun_osRecyleFinishedTask hrec
      split at h
      · cases h
        exact h₁
      · obtain ⟨taskCB, _, h⟩ := Option.bind_eq_some_iff.mp h
        have h₂ := h₁.trans (sameRun_losListDelete k₁ (losDlListFirst k₁ .gLosFreeTask))
        split at h
        · cases h
          exact h₂.trans (sameRun_losListAdd _ _ _)
        · cases h
          refine h₂.trans ?_
          dsimp only
          unfold osNewTaskInit
          exact SameRun.modifyTask _ taskCB fun _ => rfl

theorem sameRun_losTaskCreate {taskID top : Bool} {param : Option TskInitParam}
    {r : KernelState × Errno × Option Nat} (h : losTaskCreate k taskID param top = some r) :
    SameRun k r.1 := by
  unfold losTaskCreate at h
  obtain ⟨r₁, hcreate, h⟩ := Option.bind_eq_some_iff.mp h
  have h₁ := sameRun_losTaskCreateOnly hcreate
  split at h
  · cases h
    exact h₁
  · obtain ⟨k₂, henq, h⟩ := Option.bind_eq_some_iff.mp h
    cases h
    have h₂ := h₁.trans (sameRun_osSchedTaskEnQueue henq)
    dsimp only
    split
    · exact h₂.schedule
    · exact h₂

theorem sameRun_losTaskResume {r : KernelState × Errno} (h : losTaskResume k t = some r) : SameRun k r.1 := by
  unfold losTaskResume at h
  split at h
  · cases h
    exact SameRun.refl k
  · split at h
    · cases h
      exact SameRun.refl k
    · split at h
      · cases h
        exact SameRun.refl k
      · dsimp only at h
        have h₁ := SameRun.modifyStatus k t fun s => { s with suspend := false }
        split at h
        · obtain ⟨k₂, henq, h⟩ := Option.bind_eq_some_iff.mp h
          cases h
          have h₂ := h₁.trans (sameRun_osSchedTaskEnQueue henq)
          dsimp only
          split
          · exact h₂.schedule
          · exact h₂
        · cases h
          exact h₁

theorem sameRun_losTaskSuspend {r : KernelState × Errno} (h : losTaskSuspend k t = some r) : SameRun k r.1 := by
  unfold losTaskSuspend at h
  dsimp only at h
  split at h
  · cases h
    exact SameRun.refl k
  · split at h
    · cases h
      exact SameRun.refl k
    · split at h
      · cases h
        exact SameRun.refl k
      · split at h
        · cases h
          exact SameRun.refl k
        · have hlast : ∀ k₁ : KernelState, SameRun k k₁ → (if t = (k₁.gTaskCBArray k₁.runTask).taskID then
              some (losSchedule k₁, Errno.losOk) else some (k₁, .losOk)) = some r → SameRun k r.1 := by
            intro k₁ h₁ hr
            split at hr
            · cases hr
              exact h₁.schedule
            · cases hr
              exact h₁
          refine hlast _ ?_ h
          refine SameRun.trans ?_ (SameRun.modifyStatus _ t _)
          split
          · exact sameRun_osSchedTaskDeQueue k t
          · exact SameRun.refl k

theorem sameRun_losTaskPriSet {prio : Nat} {r : KernelState × Errno} (h : losTaskPriSet k t prio = some r) :
    SameRun k r.1 := by
  unfold losTaskPriSet at h
  repeat' split at h
  case isFalse.isFalse.isFalse.isFalse.isFalse =>
    obtain ⟨r₁, hmod, h⟩ := Option.bind_eq_some_iff.mp h
    cases h
    have h₁ := sameRun_osSchedModifyTaskSchedParam hmod
    dsimp only
    split
    · exact h₁.schedule
    · exact h₁
  all_goals
    cases h
    exact SameRun.refl k

theorem sameRun_osSchedPark (h : osSchedPark k = some k') : SameRun k k' := by
  unfold osSchedPark at h
  obtain ⟨k₁, hslice, h⟩ := Option.bind_eq_some_iff.mp h
  have h₁ := sameRun_osTimeSliceUpdate hslice
  dsimp only at h
  split at h
  · exact h₁.trans (sameRun_osAdd2SortLink h)
  · split at h
    · exact h₁.trans (sameRun_osSchedTaskEnQueue h)
    · cases h
      exact h₁

theorem osSchedTaskSwitch_run {r : KernelState × Bool} (h : osSchedTaskSwitch k = some r) :
    SameRun { k with newTask := r.1.newTask } r.1 ∧ r.2 = decide (k.runTask ≠ r.1.newTask) := by
  rw [osSchedTaskSwitch_eq] at h
  obtain ⟨k₂, hpark, h⟩ := Option.bind_eq_some_iff.mp h
  obtain ⟨n, _, h⟩ := Option.bind_eq_some_iff.mp h
  have h₂ := sameRun_osSchedPark hpark
  have hover : SameRun { k with newTask := n } (osSchedHandOver k₂ k.runTask n) := by
    have hset : SameRun { k with newTask := n } { k₂ with newTask := n } :=
      ⟨h₂.id, h₂.runTask, rfl, h₂.gTaskScheduled, h₂.cycle, h₂.gIdleTaskID⟩
    unfold osSchedHandOver
    dsimp only
    split
    · refine SameRun.trans ?_ (SameRun.modifyTask _ n fun _ => rfl)
      refine SameRun.trans ?_ (SameRun.modifyStatus _ n _)
      exact hset.trans (SameRun.modifyStatus _ k.runTask _)
    · exact hset
  have hdone := hover.trans (sameRun_osSchedTaskDeQueue _ n)
  cases h
  have hnew : (osSchedTaskDeQueue (osSchedHandOver k₂ k.runTask n) n).newTask = n := hdone.newTask
  dsimp only
  rw [hnew]
  exact ⟨hdone, rfl⟩

end

/-- `g_losTask.runTask->taskID`: a task that has deleted itself lends its number to the spare
block. -/
def runID (k : KernelState) : Nat := (k.gTaskCBArray k.runTask).taskID

/-- `g_losTask.newTask->taskID` -/
def newID (k : KernelState) : Nat := (k.gTaskCBArray k.newTask).taskID

structure RunKept (k k' : KernelState) : Prop where
  runID : runID k' = runID k
  newTask : k'.newTask = k.newTask
  newID : newID k' = newID k
  gTaskScheduled : k'.gTaskScheduled = k.gTaskScheduled
  cycle : k'.cycle = k.cycle
  gIdleTaskID : k'.gIdleTaskID = k.gIdleTaskID

/-- The clock and the processor stay as they are. -/
def KernelEvent.still : KernelEvent → Prop
  | .start => False
  | .pendSV => False
  | .elapse _ => False
  | _ => True

def WaitEvent.still : WaitEvent → Prop
  | .kernel event => event.still
  | _ => True

section

variable {k k' : KernelState} {V : View Node} {t : Nat}

theorem SameRun.runKept (h : SameRun k k') : RunKept k k' := by
  refine ⟨?_, h.newTask, ?_, h.gTaskScheduled, h.cycle, h.gIdleTaskID⟩
  · unfold runID
    rw [h.runTask]
    exact h.id _
  · unfold newID
    rw [h.newTask]
    exact h.id _

variable [Config]

theorem runKept_losTaskDelete (hi : KernelInv k V) (hnew : k.newTask < gTaskMaxNum)
    {r : KernelState × Errno} (h : losTaskDelete k t = some r) : RunKept k r.1 := by
  unfold losTaskDelete at h
  dsimp only at h
  split at h
  · cases h
    exact (SameRun.refl k).runKept
  · next hvalid =>
    split at h
    · cases h
      exact (SameRun.refl k).runKept
    · next hused =>
      obtain ⟨hne, ht⟩ := osCheckTaskIDValid_ok (not_not.mp hvalid)
      obtain ⟨k₁, hk₁⟩ : ∃ k₁, (if (k.status t).running = true ∧ k.gLosTaskLock ≠ 0 then
          { k with gLosTaskLock := 0 } else k) = k₁ := ⟨_, rfl⟩
      rw [hk₁] at h
      obtain ⟨h₁, hcb, hi₁, hid⟩ : SameRun k k₁ ∧ k₁.gTaskCBArray = k.gTaskCBArray ∧ KernelInv k₁ V ∧
          k₁.gIdleTaskID = k.gIdleTaskID := by
        rw [← hk₁]
        split
        · exact ⟨SameRun.of_eq rfl rfl rfl rfl rfl rfl, rfl,
            hi.congr rfl rfl rfl rfl rfl rfl (Nat.le_refl _), rfl⟩
        · exact ⟨SameRun.refl k, rfl, hi, rfl⟩
      have hunused : (k₁.gTaskCBArray t).taskStatus.unused = false := by
        rw [hcb]
        exact Bool.eq_false_iff.mpr hused
      obtain ⟨k₂, V₂, hk₂, _, _, _, _, _, _, _, hrun₂⟩ := osSchedTaskExit_spec hi₁ ht hunused (by rwa [hid])
      have h₂ := h₁.trans (sameRun_osSchedTaskExit k₁ t)
      rw [hk₂] at h h₂
      have h₃ := h₂.trans (SameRun.modifyStatus k₂ t fun _ => osTaskStatusUnused)
      split at h
      · next hrunning =>
        -- the task that runs deletes itself, and the spare block takes its number
        have hself : t = k.runTask := by
          refine (hi.task t ht).running.mp ?_
          rw [← hcb, ← hrun₂]
          exact hrunning
        cases h
        refine RunKept.mk ?_ ?_ ?_ ?_ ?_ ?_
        all_goals
          have hlast := sameRun_losSchedule (osRunningTaskDelete (k₂.modifyStatus t fun _ => osTaskStatusUnused) t t)
          generalize losSchedule (osRunningTaskDelete (k₂.modifyStatus t fun _ => osTaskStatusUnused) t t) = k₄
            at hlast ⊢
        · unfold runID
          rw [hlast.id, hlast.runTask, ← hself, (hi.task t ht).id]
          unfold osRunningTaskDelete
          dsimp only
          rw [modifyTask_runTask, modifyTask_self]
        · exact hlast.newTask.trans h₃.newTask
        · have hspare : k.newTask ≠ gTaskMaxNum := Nat.ne_of_lt hnew
          unfold newID
          rw [hlast.id, show k₄.newTask = k.newTask from hlast.newTask.trans h₃.newTask]
          refine Eq.trans ?_ (h₃.id k.newTask)
          exact congrArg LosTaskCB.taskID (Function.update_of_ne hspare _ _)
        · exact hlast.gTaskScheduled.trans h₃.gTaskScheduled
        · exact hlast.cycle.trans h₃.cycle
        · exact hlast.gIdleTaskID.trans h₃.gIdleTaskID
      · cases h
        exact (h₃.trans (sameRun_losListAdd _ _ _)).runKept

theorem kernelStep_runKept (hi : KernelInv k V) (hnew : k.newTask < gTaskMaxNum) {event : KernelEvent}
    (hstill : event.still) (h : kernelStep k event = some k') : RunKept k k' := by
  cases event with
  | create taskID param top =>
    obtain ⟨r, hr, rfl⟩ := Option.map_eq_some_iff.mp h
    exact (sameRun_losTaskCreate hr).runKept
  | createOnly taskID param top =>
    obtain ⟨r, hr, rfl⟩ := Option.map_eq_some_iff.mp h
    exact (sameRun_losTaskCreateOnly hr).runKept
  | resume taskID =>
    obtain ⟨r, hr, rfl⟩ := Option.map_eq_some_iff.mp h
    exact (sameRun_losTaskResume hr).runKept
  | suspend taskID =>
    obtain ⟨r, hr, rfl⟩ := Option.map_eq_some_iff.mp h
    exact (sameRun_losTaskSuspend hr).runKept
  | delete taskID =>
    obtain ⟨r, hr, rfl⟩ := Option.map_eq_some_iff.mp h
    exact runKept_losTaskDelete hi hnew hr
  | priSet taskID taskPrio =>
    obtain ⟨r, hr, rfl⟩ := Option.map_eq_some_iff.mp h
    exact (sameRun_losTaskPriSet hr).runKept
  | yield =>
    simp only [kernelStep] at h
    split at h
    · cases h
      exact (sameRun_osSchedYield k).schedule.runKept
    · cases h
  | delay tick =>
    simp only [kernelStep] at h
    split at h
    · cases h
      have hdelay : SameRun k (osSchedDelay k tick) := by
        unfold osSchedDelay
        refine SameRun.trans ?_ (SameRun.modifyTask _ k.runTask fun _ => rfl)
        exact SameRun.modifyStatus k k.runTask _
      refine SameRun.runKept ?_
      unfold losTaskDelay losTaskYield
      split
      · exact SameRun.refl k
      · split
        · exact SameRun.refl k
        · split
          · exact (sameRun_osSchedYield k).schedule
          · exact hdelay.schedule
    · cases h
  | lock =>
    simp only [kernelStep] at h
    split at h
    · cases h
      exact (SameRun.of_eq rfl rfl rfl rfl rfl rfl : SameRun k (losTaskLock k)).runKept
    · cases h
  | unlock =>
    simp only [kernelStep] at h
    split at h
    · cases h
      refine SameRun.runKept ?_
      unfold losTaskUnlock
      dsimp only
      split
      · split
        · exact SameRun.schedule (SameRun.of_eq rfl rfl rfl rfl rfl rfl)
        · exact SameRun.of_eq rfl rfl rfl rfl rfl rfl
      · exact SameRun.refl k
    · cases h
  | schedule =>
    cases h
    exact (sameRun_losSchedule k).runKept
  | start => exact hstill.elim
  | tick expired =>
    simp only [kernelStep] at h
    split at h
    · exact (sameRun_losSchedTickHandler h).runKept
    · cases h
  | pendSV => exact hstill.elim
  | elapse cycles => exact hstill.elim

theorem waitStep_runKept {s s' : WaitState} (hi : KernelInv s.kernel V) (hnew : s.kernel.newTask < gTaskMaxNum)
    {event : WaitEvent} (hstill : event.still) (h : waitStep s event = some s') :
    RunKept s.kernel s'.kernel := by
  cases event with
  | kernel event =>
    obtain ⟨k', hk', rfl⟩ := Option.map_eq_some_iff.mp h
    exact kernelStep_runKept hi hnew hstill hk'
  | wait list ticks =>
    simp only [waitStep] at h
    split at h
    · cases h
      exact (sameRun_osSchedTaskWait _ list ticks).schedule.runKept
    · cases h
  | wake resumedTask =>
    simp only [waitStep] at h
    split at h
    · obtain ⟨k', hk', rfl⟩ := Option.map_eq_some_iff.mp h
      exact (sameRun_osSchedTaskWake hk').runKept
    · cases h
  | inherit taskCB priority =>
    simp only [waitStep] at h
    split at h
    · obtain ⟨r, hr, rfl⟩ := Option.map_eq_some_iff.mp h
      exact (sameRun_osSchedModifyTaskSchedParam hr).runKept
    · cases h
  | clearTimeout taskCB =>
    cases h
    exact (SameRun.modifyStatus s.kernel taskCB fun s => { s with timeout := false }).runKept
  | setUp list =>
    simp only [waitStep] at h
    split at h
    · cases h
    · cases h
      exact (SameRun.of_eq rfl rfl rfl rfl rfl rfl : SameRun s.kernel (losListInit s.kernel (.wait list))).runKept
  | giveBack list =>
    simp only [waitStep] at h
    split at h
    · cases h
      exact (SameRun.refl _).runKept
    · cases h

theorem halPendSV_run (hm : Machine k V) (hp : k.pendSV = true) (h : halPendSV k = some k') :
    ∃ r, osSchedTaskSwitch { k with pendSV := false } = some r ∧
      SameRun { k with newTask := k'.newTask } r.1 ∧ r.1.newTask = k'.newTask ∧
      r.2 = decide (k.runTask ≠ k'.newTask) ∧ k'.runTask = k'.newTask ∧ k'.runTask < gTaskMaxNum ∧
      runID k' = k'.runTask ∧ k'.gTaskScheduled = true ∧ k'.cycle = k.cycle ∧
      k'.gIdleTaskID = k.gIdleTaskID := by
  have hsched := hm.settled.request hp
  have hspec : ∃ V', KernelInv k' V' ∧ k'.runTask < gTaskMaxNum := by
    by_cases hready : k.runTask < gTaskMaxNum → (k.gTaskCBArray k.runTask).taskStatus.ready = false
    · obtain ⟨k₁, V₁, heq, hi₁, _, hlt, _⟩ := halPendSV_spec hm.inv hsched hready
      rw [heq] at h
      cases h
      exact ⟨V₁, hi₁, hlt⟩
    · obtain ⟨hlt, hr⟩ := Classical.not_imp.mp hready
      rw [halPendSV_ready hm.inv hlt (by simpa using hr)] at h
      cases h
  obtain ⟨V', hi', hlt⟩ := hspec
  unfold halPendSV at h
  obtain ⟨r, hr, h⟩ := Option.bind_eq_some_iff.mp h
  obtain ⟨hsame, hturn⟩ := osSchedTaskSwitch_run hr
  have hrun : r.1.runTask = k.runTask := hsame.runTask
  rw [Option.some.injEq] at h
  have hk' : k'.newTask = r.1.newTask ∧ k'.runTask = r.1.newTask ∧ k'.cycle = k.cycle ∧
      k'.gTaskScheduled = k.gTaskScheduled ∧ k'.gIdleTaskID = k.gIdleTaskID := by
    rw [← h]
    refine ⟨rfl, ?_, hsame.cycle, hsame.gTaskScheduled, hsame.gIdleTaskID⟩
    dsimp only
    rw [hturn, hrun]
    by_cases hne : k.runTask = r.1.newTask
    · simp [hne]
    · simp [hne]
  obtain ⟨hn, hrn, hcyc, hsc, hid⟩ := hk'
  refine ⟨r, hr, ?_, hn.symm, ?_, hrn.trans hn.symm, hlt, (hi'.task _ hlt).id, hsc.trans hsched, hcyc, hid⟩
  · rw [hn]
    exact ⟨hsame.id, hsame.runTask, hsame.newTask, hsame.gTaskScheduled, hsame.cycle, hsame.gIdleTaskID⟩
  · rw [hn]
    exact hturn

theorem osSchedStart_run (hm : Machine k V) (hsched : k.gTaskScheduled = false) (h : osSchedStart k = some k') :
    k'.newTask = k'.runTask ∧ k'.runTask < gTaskMaxNum ∧ runID k' = k'.runTask ∧
      k'.gTaskScheduled = true ∧ k'.cycle = k.cycle ∧ k'.gIdleTaskID = k.gIdleTaskID := by
  obtain ⟨k₁, V₁, heq, hi₁, hidle, _, _, _, _, _, hlt, hnew, hsc⟩ := osSchedStart_spec hm.inv hm.settled hsched hm.idle
  rw [heq] at h
  cases h
  refine ⟨hnew, hlt, (hi₁.task _ hlt).id, hsc, ?_, hidle⟩
  unfold osSchedStart at heq
  obtain ⟨n, _, heq⟩ := Option.bind_eq_some_iff.mp heq
  cases heq
  refine (sameRun_osSchedTaskDeQueue _ n).cycle.trans ?_
  rfl

end

end LiteosM.Kernel
