import LiteosM.Kernel.SameRun

/-!
# Suspended tasks

A task that has been suspended stays so until it is resumed or deleted. Nothing else in the scheduler takes
the flag away: a task goes to a ready list only when it does not have it.
-/

namespace LiteosM.Kernel

open LiteosM.Lib.DlList LiteosM.Lib.Transition

def Suspended (k : KernelState) (t : Nat) : Prop := (k.status t).suspend = true

section

variable {k k' : KernelState} {V : View Node} {t u : Nat} {b : Bool}

theorem Suspended.of_eq (h : Suspended k t) (htask : k'.gTaskCBArray = k.gTaskCBArray) : Suspended k' t := by
  unfold Suspended KernelState.status
  rw [htask]
  exact h

theorem Suspended.modifyTask (h : Suspended k t) (u : Nat) {f : LosTaskCB → LosTaskCB}
    (hf : ∀ cb, (f cb).taskStatus.suspend = cb.taskStatus.suspend) : Suspended (k.modifyTask u f) t := by
  show (Function.update k.gTaskCBArray u (f (k.gTaskCBArray u)) t).taskStatus.suspend = true
  by_cases heq : t = u
  · subst heq
    rw [Function.update_self, hf]
    exact h
  · rw [Function.update_of_ne heq]
    exact h

theorem Suspended.modifyTask_of_ne (h : Suspended k t) (hne : t ≠ u) (f : LosTaskCB → LosTaskCB) :
    Suspended (k.modifyTask u f) t := by
  show (Function.update k.gTaskCBArray u (f (k.gTaskCBArray u)) t).taskStatus.suspend = true
  rw [Function.update_of_ne hne]
  exact h

theorem Suspended.modifyStatus (h : Suspended k t) (u : Nat) {f : TaskStatus → TaskStatus}
    (hf : ∀ s, (f s).suspend = s.suspend) : Suspended (k.modifyStatus u f) t :=
  h.modifyTask u fun cb => hf cb.taskStatus

theorem Suspended.schedule (h : Suspended k t) : Suspended (losSchedule k) t := by
  unfold losSchedule
  split
  · exact h.of_eq rfl
  · exact h

theorem Suspended.not_false (h : Suspended k t) : ¬(!(k.status t).suspend) = true := by
  rw [show (k.status t).suspend = true from h]
  exact Bool.false_ne_true

theorem osSchedTaskDeQueue_suspended (h : Suspended k t) (u : Nat) : Suspended (osSchedTaskDeQueue k u) t := by
  unfold osSchedTaskDeQueue
  dsimp only
  split
  · refine Suspended.modifyStatus ?_ u fun _ => rfl
    split
    · exact h.of_eq rfl
    · exact h
  · exact h

theorem osDeleteNodeSortLink_suspended (h : Suspended k t) (u : Nat) :
    Suspended (osDeleteNodeSortLink k u) t := by
  unfold osDeleteNodeSortLink
  have hlist : Suspended (losListDelete k (.sortLinkNode u)) t := h.of_eq rfl
  exact hlist.modifyTask u fun _ => rfl

theorem osDeleteSortLink_suspended (h : Suspended k t) (u : Nat) : Suspended (osDeleteSortLink k u) t := by
  unfold osDeleteSortLink
  split
  · exact osDeleteNodeSortLink_suspended h u
  · exact h

theorem osSchedTaskExit_suspended (h : Suspended k t) (u : Nat) : Suspended (osSchedTaskExit k u) t := by
  have hleave : ∀ k₁, Suspended k₁ t → Suspended
      (if (k₁.status u).delay || (k₁.status u).pendTime then
        (osDeleteSortLink k₁ u).modifyStatus u fun s => { s with delay := false, pendTime := false }
      else k₁) t := by
    intro k₁ h₁
    split
    · exact (osDeleteSortLink_suspended h₁ u).modifyStatus u fun _ => rfl
    · exact h₁
  unfold osSchedTaskExit
  refine hleave _ ?_
  split
  · exact osSchedTaskDeQueue_suspended h u
  · split
    · have hlist : Suspended (losListDelete k (.pendList u)) t := h.of_eq rfl
      exact hlist.modifyStatus u fun _ => rfl
    · exact h

theorem osSchedTaskWait_suspended (h : Suspended k t) (l : WaitList) (ticks : Nat) :
    Suspended (osSchedTaskWait k l ticks) t := by
  have hlist : Suspended (losListTailInsert (k.modifyStatus k.runTask fun s => { s with pend := true })
      (.wait l) (.pendList k.runTask)) t :=
    Suspended.of_eq (h.modifyStatus k.runTask (f := fun s => { s with pend := true }) fun _ => rfl) rfl
  unfold osSchedTaskWait
  dsimp only
  split
  · refine Suspended.modifyTask ?_ _ fun _ => rfl
    exact Suspended.modifyStatus hlist _ fun _ => rfl
  · exact hlist

theorem osTimeSliceUpdate_suspended {now : Nat} (h : Suspended k t) (heq : osTimeSliceUpdate k u now = some k') :
    Suspended k' t := by
  unfold osTimeSliceUpdate at heq
  dsimp only at heq
  split at heq
  · cases heq
  · cases heq
    exact h.modifyTask u fun _ => rfl

variable [Config]

theorem osSchedTaskEnQueue_suspended (h : Suspended k t) (hne : t ≠ u) (heq : osSchedTaskEnQueue k u = some k') :
    Suspended k' t := by
  unfold osSchedTaskEnQueue at heq
  dsimp only at heq
  split at heq
  · cases heq
  · cases heq
    refine Suspended.modifyTask_of_ne ?_ hne _
    split
    · split
      · exact h.of_eq rfl
      · exact Suspended.of_eq (h.modifyTask_of_ne hne fun cb =>
          { cb with timeSlice := Config.osSchedTimeSlices }) rfl
    · exact h

theorem Suspended.enqueued (h : Suspended k t) (heq : (if !(k.status u).suspend then osSchedTaskEnQueue k u
    else some k) = some k') : Suspended k' t := by
  split at heq
  · next hready =>
    refine osSchedTaskEnQueue_suspended h (fun htu => ?_) heq
    subst htu
    exact h.not_false hready
  · cases heq
    exact h

theorem osAddNode2SortLink_suspended (h : Suspended k t) (heq : osAddNode2SortLink k u = some k') :
    Suspended k' t := by
  unfold osAddNode2SortLink at heq
  dsimp only at heq
  split at heq
  · cases heq
    exact h.of_eq rfl
  · obtain ⟨listSorted, _, heq⟩ := Option.bind_eq_some_iff.mp heq
    split at heq
    · cases heq
      exact h.of_eq rfl
    · obtain ⟨prevNode, _, heq⟩ := Option.bind_eq_some_iff.mp heq
      cases heq
      exact h.of_eq rfl

theorem osAdd2SortLink_suspended {startTime waitTicks : Nat} (h : Suspended k t)
    (heq : osAdd2SortLink k u startTime waitTicks = some k') : Suspended k' t := by
  unfold osAdd2SortLink at heq
  have hset : Suspended (k.modifyTask u fun cb =>
      { cb with responseTime := ((startTime + waitTicks * Config.osCyclePerTick : Nat) : WithTop Nat) }) t :=
    h.modifyTask u fun _ => rfl
  exact osAddNode2SortLink_suspended hset heq

theorem osSchedWakePendTimeTask_suspended {needSchedule : Bool} {r : KernelState × Bool} (h : Suspended k t)
    (heq : osSchedWakePendTimeTask k u needSchedule = some r) : Suspended r.1 t := by
  unfold osSchedWakePendTimeTask at heq
  dsimp only at heq
  split at heq
  · have hwoken : ∀ k₁ : KernelState, Suspended k₁ t → (if !(k.status u).suspend then
        (osSchedTaskEnQueue k₁ u).bind fun k => some (k, true) else some (k₁, needSchedule)) = some r →
        Suspended r.1 t := by
      intro k₁ h₁ hr
      split at hr
      · next hready =>
        obtain ⟨k₂, henq, hr⟩ := Option.bind_eq_some_iff.mp hr
        cases hr
        refine osSchedTaskEnQueue_suspended h₁ (fun htu => ?_) henq
        subst htu
        exact h.not_false hready
      · cases hr
        exact h₁
    have hflags : Suspended (k.modifyStatus u fun s =>
        { s with pend := false, pendTime := false, delay := false }) t := h.modifyStatus u fun _ => rfl
    refine hwoken _ ?_ heq
    split
    · refine Suspended.modifyTask (f := fun cb => { cb with taskMux := none, taskSem := none }) ?_ u fun _ => rfl
      refine Suspended.of_eq ?_ rfl
      exact hflags.modifyStatus u (f := fun s => { s with timeout := true }) fun _ => rfl
    · exact hflags
  · cases heq
    exact h

theorem osSchedScanLoop_suspended {now fuel : Nat} {r : KernelState × Bool} (h : Suspended k t)
    (heq : osSchedScanLoop now fuel k b = some r) : Suspended r.1 t := by
  induction fuel generalizing k b with
  | zero => cases heq
  | succ fuel ih =>
    unfold osSchedScanLoop at heq
    simp only [Option.bind_eq_bind, Option.bind_eq_some_iff] at heq
    obtain ⟨taskCB, _, heq⟩ := heq
    split at heq
    · obtain ⟨r₁, hwake, heq⟩ := Option.bind_eq_some_iff.mp heq
      have h₁ := osSchedWakePendTimeTask_suspended (osDeleteNodeSortLink_suspended h taskCB) hwake
      split at heq
      · cases heq
        exact h₁
      · exact ih h₁ heq
    · cases heq
      exact h

theorem losSchedTickHandler_suspended (h : Suspended k t) (heq : losSchedTickHandler k b = some k') :
    Suspended k' t := by
  unfold losSchedTickHandler at heq
  split at heq
  · cases heq
  · have hrest : ∀ r : KernelState × Bool, Suspended r.1 t → (if r.2 && r.1.gLosTaskLock == 0 then
        some (halTaskSchedule r.1)
        else osTimeSliceUpdate r.1 r.1.runTask (osGetCurrSchedTimeCycle r.1)) = some k' →
        Suspended k' t := by
      intro r h₁ hr
      split at hr
      · cases hr
        exact h₁.of_eq rfl
      · exact osTimeSliceUpdate_suspended h₁ hr
    dsimp only at heq
    split at heq
    · obtain ⟨r, hscan, heq⟩ := Option.bind_eq_some_iff.mp heq
      refine hrest r ?_ heq
      unfold osSchedScanTimerList at hscan
      split at hscan
      · cases hscan
        exact h
      · exact osSchedScanLoop_suspended h hscan
    · exact hrest (k, false) h heq

theorem osSchedTaskWake_suspended (h : Suspended k t) (heq : osSchedTaskWake k u = some k') : Suspended k' t := by
  unfold osSchedTaskWake at heq
  dsimp only at heq
  have hfree : Suspended ((losListDelete k (.pendList u)).modifyStatus u fun s => { s with pend := false }) t := by
    have hlist : Suspended (losListDelete k (.pendList u)) t := h.of_eq rfl
    exact hlist.modifyStatus u fun _ => rfl
  refine Suspended.enqueued ?_ heq
  split
  · exact (osDeleteSortLink_suspended hfree u).modifyStatus u fun _ => rfl
  · exact hfree

theorem osSchedModifyTaskSchedParam_suspended {priority : Nat} {r : KernelState × Bool} (h : Suspended k t)
    (hready : (k.status u).ready = true → (k.status u).suspend = false)
    (heq : osSchedModifyTaskSchedParam k u priority = some r) : Suspended r.1 t := by
  unfold osSchedModifyTaskSchedParam at heq
  split at heq
  · next hr =>
    obtain ⟨k₁, henq, heq⟩ := Option.bind_eq_some_iff.mp heq
    cases heq
    have hset := (osSchedTaskDeQueue_suspended h u).modifyTask u (f := fun cb => { cb with priority := priority })
      fun _ => rfl
    refine osSchedTaskEnQueue_suspended hset (fun htu => ?_) henq
    subst htu
    exact h.not_false (by rw [hready hr]; rfl)
  · cases heq
    dsimp only
    refine Suspended.modifyTask h u fun _ => rfl

theorem osRecyleFinishedTask_suspended (h : Suspended k t) (heq : osRecyleFinishedTask k = some k') :
    Suspended k' t := by
  have hloop : ∀ fuel (k : KernelState), Suspended k t → osRecyleLoop fuel k = some k' → Suspended k' t := by
    intro fuel
    induction fuel with
    | zero =>
      intro k _ heq
      cases heq
    | succ fuel ih =>
      intro k h heq
      unfold osRecyleLoop at heq
      split at heq
      · cases heq
        exact h
      · obtain ⟨taskCB, _, heq⟩ := Option.bind_eq_some_iff.mp heq
        have hmoved : Suspended (losListAdd (losListDelete k (losDlListFirst k .gTaskRecyleList))
            .gLosFreeTask (.pendList taskCB)) t := h.of_eq rfl
        exact ih _ hmoved heq
  exact hloop _ k h heq

/-! ### The task calls -/

theorem losTaskCreateOnly_suspended {taskID top : Bool} {param : Option TskInitParam}
    {r : KernelState × Errno × Option Nat} (h : Suspended k t)
    (heq : losTaskCreateOnly k taskID param top = some r) : Suspended r.1 t := by
  unfold losTaskCreateOnly at heq
  dsimp only at heq
  split at heq
  · cases heq
    exact h
  · split at heq
    · cases heq
      exact h
    · obtain ⟨k₁, hrec, heq⟩ := Option.bind_eq_some_iff.mp heq
      have h₁ := osRecyleFinishedTask_suspended h hrec
      split at heq
      · cases heq
        exact h₁
      · obtain ⟨taskCB, _, heq⟩ := Option.bind_eq_some_iff.mp heq
        have h₂ : Suspended (losListDelete k₁ (losDlListFirst k₁ .gLosFreeTask)) t := h₁.of_eq rfl
        split at heq
        · cases heq
          exact h₂.of_eq rfl
        · cases heq
          by_cases hnew : t = taskCB
          · subst hnew
            show ((osNewTaskInit _ t _).gTaskCBArray t).taskStatus.suspend = true
            rw [osNewTaskInit_self]
            rfl
          · dsimp only
            unfold osNewTaskInit
            exact h₂.modifyTask_of_ne hnew _

theorem losTaskCreate_suspended {taskID top : Bool} {param : Option TskInitParam}
    {r : KernelState × Errno × Option Nat} (hi : KernelInv k V) (ht : t < gTaskMaxNum) (h : Suspended k t)
    (heq : losTaskCreate k taskID param top = some r) : Suspended r.1 t := by
  obtain ⟨k₁, V₁, e, o, hcreate, _, _, _, ho⟩ := losTaskCreateOnly_spec hi taskID param top
  have h₁ := losTaskCreateOnly_suspended h hcreate
  unfold losTaskCreate at heq
  rw [hcreate] at heq
  simp only [Option.bind_eq_bind, Option.bind_some] at heq
  rcases ho with ⟨rfl, _⟩ | ⟨u, rfl, _, hmade, _⟩
  · cases heq
    exact h₁
  · obtain ⟨k₂, henq, heq⟩ := Option.bind_eq_some_iff.mp heq
    cases heq
    -- the control block of the new task was unused, so it is not the suspended one
    have hne : t ≠ u := by
      rintro rfl
      have hflags := ((hi.task t ht).flags.unused hmade.unused).2.1
      exact Bool.false_ne_true (hflags.symm.trans h)
    have h₂ := osSchedTaskEnQueue_suspended h₁ hne henq
    show Suspended (if k₂.gTaskScheduled then losSchedule k₂ else k₂) t
    split
    · exact h₂.schedule
    · exact h₂

theorem losTaskResume_suspended {r : KernelState × Errno} (h : Suspended k t) (hne : t ≠ u)
    (heq : losTaskResume k u = some r) : Suspended r.1 t := by
  unfold losTaskResume at heq
  split at heq
  · cases heq
    exact h
  · split at heq
    · cases heq
      exact h
    · split at heq
      · cases heq
        exact h
      · dsimp only at heq
        have h₁ : Suspended (k.modifyStatus u fun s => { s with suspend := false }) t :=
          h.modifyTask_of_ne hne _
        split at heq
        · obtain ⟨k₂, henq, heq⟩ := Option.bind_eq_some_iff.mp heq
          cases heq
          have h₂ := osSchedTaskEnQueue_suspended h₁ hne henq
          dsimp only
          split
          · exact h₂.schedule
          · exact h₂
        · cases heq
          exact h₁

theorem losTaskSuspend_suspended {r : KernelState × Errno} (heq : losTaskSuspend k u = some r) :
    (Suspended k t → Suspended r.1 t) ∧ (r.2 = .losOk → Suspended r.1 u) := by
  unfold losTaskSuspend at heq
  dsimp only at heq
  split at heq
  · next hvalid =>
    cases heq
    exact ⟨id, fun h => absurd h hvalid⟩
  · split at heq
    · cases heq
      exact ⟨id, fun h => by cases h⟩
    · split at heq
      · cases heq
        exact ⟨id, fun h => by cases h⟩
      · split at heq
        · cases heq
          exact ⟨id, fun h => by cases h⟩
        · have hlast : ∀ k₁ : KernelState, (if u = (k₁.gTaskCBArray k₁.runTask).taskID then
              some (losSchedule k₁, Errno.losOk) else some (k₁, .losOk)) = some r →
              ∀ v, Suspended k₁ v → Suspended r.1 v := by
            intro k₁ hr v h₁
            split at hr
            · cases hr
              exact h₁.schedule
            · cases hr
              exact h₁
          have hset : ∀ k₁ : KernelState,
              Suspended (k₁.modifyStatus u fun s => { s with suspend := true }) u := by
            intro k₁
            show (Function.update k₁.gTaskCBArray u _ u).taskStatus.suspend = true
            rw [Function.update_self]
          refine ⟨fun h => hlast _ heq t ?_, fun _ => hlast _ heq u (hset _)⟩
          by_cases hne : t = u
          · subst hne
            exact hset _
          · refine Suspended.modifyTask_of_ne ?_ hne _
            split
            · exact osSchedTaskDeQueue_suspended h u
            · exact h

theorem losTaskDelete_suspended {r : KernelState × Errno} (h : Suspended k t) (hne : t ≠ u)
    (ht : t < gTaskMaxNum) (heq : losTaskDelete k u = some r) : Suspended r.1 t := by
  unfold losTaskDelete at heq
  dsimp only at heq
  split at heq
  · cases heq
    exact h
  · split at heq
    · cases heq
      exact h
    · have hexit : ∀ k₁ : KernelState, Suspended k₁ t →
          Suspended ((osSchedTaskExit k₁ u).modifyStatus u fun _ => osTaskStatusUnused) t :=
        fun k₁ h₁ => (osSchedTaskExit_suspended h₁ u).modifyTask_of_ne hne _
      obtain ⟨k₁, hk₁⟩ : ∃ k₁, (if (k.status u).running = true ∧ k.gLosTaskLock ≠ 0 then
          { k with gLosTaskLock := 0 } else k) = k₁ := ⟨_, rfl⟩
      rw [hk₁] at heq
      have h₁ : Suspended ((osSchedTaskExit k₁ u).modifyStatus u fun _ => osTaskStatusUnused) t := by
        refine hexit k₁ ?_
        rw [← hk₁]
        split
        · exact h.of_eq rfl
        · exact h
      split at heq
      · cases heq
        refine Suspended.schedule ?_
        unfold osRunningTaskDelete
        dsimp only
        refine Suspended.modifyTask_of_ne ?_ (Nat.ne_of_lt ht) _
        exact h₁.of_eq rfl
      · cases heq
        exact h₁.of_eq rfl

theorem losTaskPriSet_suspended {prio : Nat} {r : KernelState × Errno} (hi : KernelInv k V) (h : Suspended k t)
    (heq : losTaskPriSet k u prio = some r) : Suspended r.1 t := by
  unfold losTaskPriSet at heq
  repeat' split at heq
  case isFalse.isFalse.isFalse.isFalse.isFalse hu _ =>
    obtain ⟨r₁, hmod, heq⟩ := Option.bind_eq_some_iff.mp heq
    cases heq
    have h₁ := osSchedModifyTaskSchedParam_suspended h
      (fun hr => ((hi.task u (Nat.not_le.mp hu)).flags.ready hr).1) hmod
    dsimp only
    split
    · exact h₁.schedule
    · exact h₁
  all_goals
    cases heq
    exact h

/-! ### The switch -/

theorem osSchedPark_suspended (h : Suspended k t) (heq : osSchedPark k = some k') : Suspended k' t := by
  unfold osSchedPark at heq
  obtain ⟨k₁, hslice, heq⟩ := Option.bind_eq_some_iff.mp heq
  have h₁ := osTimeSliceUpdate_suspended h hslice
  dsimp only at heq
  split at heq
  · exact osAdd2SortLink_suspended h₁ heq
  · split at heq
    · next hready =>
      refine osSchedTaskEnQueue_suspended h₁ (fun hrun => ?_) heq
      rw [← hrun] at hready
      simp [show (k₁.gTaskCBArray t).taskStatus.suspend = true from h₁] at hready
    · cases heq
      exact h₁

theorem halPendSV_suspended (h : Suspended k t) (heq : halPendSV k = some k') : Suspended k' t := by
  unfold halPendSV at heq
  obtain ⟨r, hswitch, heq⟩ := Option.bind_eq_some_iff.mp heq
  rw [osSchedTaskSwitch_eq] at hswitch
  obtain ⟨k₂, hpark, hswitch⟩ := Option.bind_eq_some_iff.mp hswitch
  obtain ⟨n, _, hswitch⟩ := Option.bind_eq_some_iff.mp hswitch
  have h₀ : Suspended { k with pendSV := false } t := h
  have h₂ := osSchedPark_suspended h₀ hpark
  have hover : Suspended (osSchedHandOver k₂ k.runTask n) t := by
    have hset : Suspended { k₂ with newTask := n } t := h₂
    unfold osSchedHandOver
    dsimp only
    split
    · refine Suspended.modifyTask ?_ n fun _ => rfl
      refine Suspended.modifyStatus ?_ n fun _ => rfl
      exact Suspended.modifyStatus hset k.runTask fun _ => rfl
    · exact hset
  cases hswitch
  cases heq
  exact (osSchedTaskDeQueue_suspended hover n).of_eq rfl

theorem takeSwitch_suspended (h : Suspended k t) (heq : takeSwitch k = some k') : Suspended k' t := by
  unfold takeSwitch at heq
  split at heq
  · exact halPendSV_suspended h heq
  · cases heq
    exact h

omit [Config] in
theorem osSchedStart_suspended (h : Suspended k t) (heq : osSchedStart k = some k') : Suspended k' t := by
  unfold osSchedStart at heq
  obtain ⟨n, _, heq⟩ := Option.bind_eq_some_iff.mp heq
  cases heq
  refine osSchedTaskDeQueue_suspended ?_ n
  refine Suspended.modifyTask ?_ n fun _ => rfl
  exact Suspended.of_eq (h.modifyStatus n (f := fun s => { s with running := true }) fun _ => rfl) rfl

end

/-! ### The runs -/

def WaitEvent.spares (t : Nat) : WaitEvent → Prop
  | .kernel (.resume taskID) => t ≠ taskID
  | .kernel (.delete taskID) => t ≠ taskID
  | _ => True

section

variable [Config] {s s' : WaitState} {k k' : KernelState} {V : View Node} {t : Nat}

theorem kernelStep_suspended (hi : KernelInv k V) (ht : t < gTaskMaxNum) (h : Suspended k t) {event : KernelEvent}
    (hspares : (WaitEvent.kernel event).spares t) (heq : kernelStep k event = some k') : Suspended k' t := by
  cases event with
  | create taskID param top =>
    obtain ⟨r, hr, rfl⟩ := Option.map_eq_some_iff.mp heq
    exact losTaskCreate_suspended hi ht h hr
  | createOnly taskID param top =>
    obtain ⟨r, hr, rfl⟩ := Option.map_eq_some_iff.mp heq
    exact losTaskCreateOnly_suspended h hr
  | resume taskID =>
    obtain ⟨r, hr, rfl⟩ := Option.map_eq_some_iff.mp heq
    exact losTaskResume_suspended h hspares hr
  | suspend taskID =>
    obtain ⟨r, hr, rfl⟩ := Option.map_eq_some_iff.mp heq
    exact (losTaskSuspend_suspended hr).1 h
  | delete taskID =>
    obtain ⟨r, hr, rfl⟩ := Option.map_eq_some_iff.mp heq
    exact losTaskDelete_suspended h hspares ht hr
  | priSet taskID taskPrio =>
    obtain ⟨r, hr, rfl⟩ := Option.map_eq_some_iff.mp heq
    exact losTaskPriSet_suspended hi h hr
  | yield =>
    simp only [kernelStep] at heq
    split at heq
    · cases heq
      refine Suspended.schedule ?_
      exact h.modifyTask k.runTask (f := fun cb => { cb with timeSlice := 0 }) fun _ => rfl
    · cases heq
  | delay tick =>
    simp only [kernelStep] at heq
    split at heq
    · cases heq
      unfold losTaskDelay
      rw [if_neg Bool.false_ne_true]
      split
      · exact h
      · split
        · refine Suspended.schedule ?_
          exact h.modifyTask k.runTask (f := fun cb => { cb with timeSlice := 0 }) fun _ => rfl
        · refine Suspended.schedule ?_
          have h₁ := h.modifyStatus k.runTask (f := fun s => { s with delay := true }) fun _ => rfl
          exact h₁.modifyTask k.runTask (f := fun cb => { cb with waitTimes := tick }) fun _ => rfl
    · cases heq
  | lock =>
    simp only [kernelStep] at heq
    split at heq
    · cases heq
      exact h.of_eq rfl
    · cases heq
  | unlock =>
    simp only [kernelStep] at heq
    split at heq
    · cases heq
      unfold losTaskUnlock
      dsimp only
      split
      · have h₁ : Suspended { k with gLosTaskLock := k.gLosTaskLock - 1 } t := h
        split
        · exact h₁.schedule
        · exact h₁
      · exact h
    · cases heq
  | schedule =>
    cases heq
    exact h.schedule
  | start =>
    simp only [kernelStep] at heq
    split at heq
    · cases heq
    · exact osSchedStart_suspended h heq
  | tick expired =>
    simp only [kernelStep] at heq
    split at heq
    · exact losSchedTickHandler_suspended h heq
    · cases heq
  | pendSV =>
    simp only [kernelStep] at heq
    split at heq
    · exact halPendSV_suspended h heq
    · cases heq
  | elapse cycles =>
    cases heq
    exact h.of_eq rfl

theorem waitStep_suspended (hi : WaitInv s V) (ht : t < gTaskMaxNum) (h : Suspended s.kernel t) {event : WaitEvent}
    (hspares : event.spares t) (heq : waitStep s event = some s') : Suspended s'.kernel t := by
  cases event with
  | kernel event =>
    obtain ⟨k', hk', rfl⟩ := Option.map_eq_some_iff.mp heq
    exact kernelStep_suspended hi.machine.inv ht h hspares hk'
  | wait list ticks =>
    simp only [waitStep] at heq
    split at heq
    · cases heq
      exact (osSchedTaskWait_suspended h list ticks).schedule
    · cases heq
  | wake resumedTask =>
    simp only [waitStep] at heq
    split at heq
    · obtain ⟨k', hk', rfl⟩ := Option.map_eq_some_iff.mp heq
      exact osSchedTaskWake_suspended h hk'
    · cases heq
  | inherit taskCB priority =>
    simp only [waitStep] at heq
    split at heq
    · next hargs =>
      obtain ⟨r, hr, rfl⟩ := Option.map_eq_some_iff.mp heq
      exact osSchedModifyTaskSchedParam_suspended h
        (fun hready => ((hi.machine.inv.task taskCB hargs.1).flags.ready hready).1) hr
    · cases heq
  | clearTimeout taskCB =>
    cases heq
    exact h.modifyStatus taskCB (f := fun s => { s with timeout := false }) fun _ => rfl
  | setUp list =>
    simp only [waitStep] at heq
    split at heq
    · cases heq
    · cases heq
      exact h.of_eq rfl
  | giveBack list =>
    simp only [waitStep] at heq
    split at heq
    · cases heq
      exact h
    · cases heq

end

end LiteosM.Kernel
