import LiteosM.Kernel.Places

/-!
# No double enqueue

The interrupts that can come between a call by which the running task stops itself and the
switch that takes it off the processor. A task in that window is on no ready list and still has
`RUNNING`; the switch puts it there if nothing keeps it from running.
-/

namespace LiteosM.Kernel

open LiteosM.Lib.DlList LiteosM.Lib.Transition

variable [Config]

/-- Who may make the call, and when. -/
def KernelAllowed (k : KernelState) : KernelEvent → Prop
  | .yield => k.atWork
  | .delay _ => k.calling
  | .lock => k.atWork
  | .unlock => k.atWork
  | .start => k.gTaskScheduled = false
  | .tick _ => k.gTaskScheduled
  | .pendSV => k.pendSV
  | _ => True

def WaitAllowed (s : WaitState) : WaitEvent → Prop
  | .kernel event => KernelAllowed s.kernel event
  | .wait list _ => s.kernel.calling ∧ s.kernel.gLosTaskLock = 0 ∧ s.inUse list
  | .wake resumedTask => resumedTask < gTaskMaxNum ∧ (s.kernel.status resumedTask).pend
  | .inherit taskCB priority => taskCB < gTaskMaxNum ∧ priority ≤ osTaskPriorityLowest
  | .clearTimeout _ => True
  | .setUp list => s.inUse list = false
  | .giveBack list => s.inUse list ∧ losListEmpty s.kernel (.wait list)

/-- The event does not make the task ready that is still on the processor. -/
def WakesOther (s : WaitState) : WaitEvent → Prop
  | .wake resumedTask => resumedTask = s.kernel.runTask → (s.kernel.status resumedTask).suspend
  | .kernel (.resume taskID) => taskID = s.kernel.runTask → (s.kernel.status taskID).suspend →
      (s.kernel.status taskID).pend ∨ (s.kernel.status taskID).delay
  | _ => True

/-- The ready queue links every task at most once. -/
structure QueuedOnce (k : KernelState) (V : View Node) : Prop where
  forest : Forest k.links V
  once : ∀ p, (V.content (.gPriQueueList p)).Nodup
  apart : ∀ p q t, .pendList t ∈ V.content (.gPriQueueList p) →
    .pendList t ∈ V.content (.gPriQueueList q) → p = q

/-- The task on the processor is not in the ready queue. -/
def Unready (k : KernelState) : Prop := k.runTask < gTaskMaxNum → (k.status k.runTask).ready = false

section

variable {s s' : WaitState} {k k' k'' : KernelState} {V V' : View Node} {t u : Nat}

/-- Nothing makes `u` ready on the way from `k` to `k'`. -/
def NotReadied (u : Nat) (k k' : KernelState) : Prop :=
  (k.status u).ready = false → (k'.status u).ready = false

omit [Config] in
theorem NotReadied.trans (h₁ : NotReadied u k k') (h₂ : NotReadied u k' k'') : NotReadied u k k'' :=
  fun h => h₂ (h₁ h)

omit [Config] in
theorem notReadied_of_task (h : k'.gTaskCBArray u = k.gTaskCBArray u) : NotReadied u k k' := by
  intro hr
  show (k'.gTaskCBArray u).taskStatus.ready = false
  rw [h]
  exact hr

omit [Config] in
theorem notReadied_modifyTask (k : KernelState) (t u : Nat) {f : LosTaskCB → LosTaskCB}
    (hf : ∀ cb, cb.taskStatus.ready = false → (f cb).taskStatus.ready = false) :
    NotReadied u k (k.modifyTask t f) := by
  intro hr
  show (Function.update k.gTaskCBArray t (f (k.gTaskCBArray t)) u).taskStatus.ready = false
  by_cases hut : u = t
  · rw [hut] at hr ⊢
    rw [Function.update_self]
    exact hf _ hr
  · rw [Function.update_of_ne hut]
    exact hr

omit [Config] in
theorem notReadied_modifyStatus (k : KernelState) (t u : Nat) {f : TaskStatus → TaskStatus}
    (hf : ∀ s, s.ready = false → (f s).ready = false) : NotReadied u k (k.modifyStatus t f) :=
  notReadied_modifyTask k t u fun cb h => hf cb.taskStatus h

omit [Config] in
theorem notReadied_losSchedule (u : Nat) (k : KernelState) : NotReadied u k (losSchedule k) := by
  obtain ⟨b, hb⟩ := losSchedule_eq k
  rw [hb]
  exact notReadied_of_task rfl

theorem notReadied_enQueue (h : osSchedTaskEnQueue k t = some k') (hut : u ≠ t) :
    NotReadied u k k' := by
  unfold osSchedTaskEnQueue at h
  split at h
  · cases h
  · rw [Option.some.injEq] at h
    rw [← h]
    refine NotReadied.trans ?_ (notReadied_of_task (Function.update_of_ne hut _ _))
    split
    · split
      · exact notReadied_of_task rfl
      · exact notReadied_of_task (Function.update_of_ne hut _ _)
    · exact notReadied_of_task rfl

omit [Config] in
theorem notReadied_deQueue (k : KernelState) (t u : Nat) :
    NotReadied u k (osSchedTaskDeQueue k t) := by
  unfold osSchedTaskDeQueue
  split
  · dsimp only
    refine NotReadied.trans ?_ (notReadied_modifyStatus _ t u fun _ _ => rfl)
    split <;> exact notReadied_of_task rfl
  · exact notReadied_of_task rfl

omit [Config] in
theorem osSchedTaskDeQueue_ready (k : KernelState) (t : Nat) :
    ((osSchedTaskDeQueue k t).status t).ready = false := by
  unfold osSchedTaskDeQueue
  split
  · exact congrArg (fun cb => cb.taskStatus.ready) (modifyStatus_self _ t _)
  · next h => simpa using h

omit [Config] in
theorem notReadied_deleteSortLink (k : KernelState) (t u : Nat) :
    NotReadied u k (osDeleteSortLink k t) := by
  unfold osDeleteSortLink
  split
  · have hlist : NotReadied u k (losListDelete k (.sortLinkNode t)) := notReadied_of_task rfl
    exact hlist.trans
      (notReadied_modifyTask (losListDelete k (.sortLinkNode t)) t u
        (f := fun cb => { cb with responseTime := ⊤ }) fun _ h => h)
  · exact notReadied_of_task rfl

omit [Config] in
theorem notReadied_exit (k : KernelState) (t u : Nat) : NotReadied u k (osSchedTaskExit k t) := by
  unfold osSchedTaskExit
  dsimp only
  obtain ⟨k1, hk1⟩ : ∃ k1, (if (k.status t).ready = true then osSchedTaskDeQueue k t
      else if (k.status t).pend = true then
        (losListDelete k (.pendList t)).modifyStatus t fun s => { s with pend := false }
      else k) = k1 := ⟨_, rfl⟩
  have h1 : NotReadied u k k1 := by
    rw [← hk1]
    split
    · exact notReadied_deQueue k t u
    · split
      · have hlist : NotReadied u k (losListDelete k (.pendList t)) := notReadied_of_task rfl
        exact hlist.trans (notReadied_modifyStatus _ t u fun _ h => h)
      · exact notReadied_of_task rfl
  rw [hk1]
  split
  · exact h1.trans ((notReadied_deleteSortLink k1 t u).trans
      (notReadied_modifyStatus _ t u fun _ h => h))
  · exact h1

omit [Config] in
theorem notReadied_timeSlice {currTime : Nat} (h : osTimeSliceUpdate k t currTime = some k') :
    NotReadied u k k' := by
  unfold osTimeSliceUpdate at h
  dsimp only at h
  split at h
  · cases h
  · rw [Option.some.injEq] at h
    rw [← h]
    exact notReadied_modifyTask k t u fun _ h => h

theorem notReadied_modifyParam {priority : Nat} {b : Bool}
    (h : osSchedModifyTaskSchedParam k t priority = some (k', b)) : NotReadied u k k' := by
  unfold osSchedModifyTaskSchedParam at h
  intro hr
  by_cases hready : (k.status t).ready = true
  · have hut : u ≠ t := by
      intro he
      rw [he, hready] at hr
      cases hr
    rw [if_pos hready] at h
    simp only [Option.bind_eq_bind, Option.bind_eq_some_iff, Option.some.injEq, Prod.mk.injEq] at h
    obtain ⟨k1, henq, rfl, _⟩ := h
    have h1 := notReadied_deQueue k t u hr
    have h2 := notReadied_modifyTask (osSchedTaskDeQueue k t) t u
      (f := fun cb => { cb with priority := priority }) (fun _ h => h) h1
    exact notReadied_enQueue henq hut h2
  · rw [if_neg hready, Option.some.injEq, Prod.mk.injEq] at h
    rw [← h.1]
    exact notReadied_modifyTask k t u (fun _ h => h) hr

theorem notReadied_priSet {taskPrio : Nat} {r : Errno} (h : losTaskPriSet k t taskPrio = some (k', r)) :
    NotReadied u k k' := by
  have hsame : ∀ r' : Errno, some (k, r') = some (k', r) → NotReadied u k k' := by
    intro r' h
    simp only [Option.some.injEq, Prod.mk.injEq] at h
    exact notReadied_of_task (by rw [h.1])
  unfold losTaskPriSet at h
  split at h
  · exact hsame _ h
  split at h
  · exact hsame _ h
  split at h
  · exact hsame _ h
  split at h
  · exact hsame _ h
  split at h
  · exact hsame _ h
  simp only [Option.bind_eq_bind, Option.bind_eq_some_iff, Option.some.injEq, Prod.mk.injEq] at h
  obtain ⟨⟨k1, b⟩, hmod, rfl, _⟩ := h
  have h1 : NotReadied u k k1 := notReadied_modifyParam hmod
  split
  · exact h1.trans (notReadied_losSchedule u k1)
  · exact h1

theorem notReadied_createOnly (hi : KernelInv k V) {taskID topOfStack : Bool}
    {param : Option TskInitParam} {r : Errno} {o : Option Nat}
    (h : losTaskCreateOnly k taskID param topOfStack = some (k', r, o)) : NotReadied u k k' := by
  obtain ⟨k1, V1, heq1, _, _, _, hcb1⟩ := osRecyleFinishedTask_spec hi
  have h1 : NotReadied u k k1 := notReadied_of_task (by rw [hcb1])
  unfold losTaskCreateOnly at h
  dsimp only at h
  rw [heq1] at h
  simp only [Option.bind_eq_bind, Option.bind_some] at h
  split at h
  · simp only [Option.some.injEq, Prod.mk.injEq] at h
    exact notReadied_of_task (by rw [h.1])
  split at h
  · simp only [Option.some.injEq, Prod.mk.injEq] at h
    exact notReadied_of_task (by rw [h.1])
  split at h
  · simp only [Option.some.injEq, Prod.mk.injEq] at h
    rw [← h.1]
    exact h1
  rw [Option.bind_eq_some_iff] at h
  obtain ⟨t, _, h⟩ := h
  split at h
  · simp only [Option.some.injEq, Prod.mk.injEq] at h
    rw [← h.1]
    exact h1.trans (notReadied_of_task rfl)
  · simp only [Option.some.injEq, Prod.mk.injEq] at h
    rw [← h.1]
    have hlist : NotReadied u k1 (losListDelete k1 (losDlListFirst k1 .gLosFreeTask)) :=
      notReadied_of_task rfl
    exact (h1.trans hlist).trans (notReadied_modifyTask _ t u fun _ _ => rfl)

theorem notReadied_create (hi : KernelInv k V) {taskID topOfStack : Bool}
    {param : Option TskInitParam} {r : Errno} {o : Option Nat}
    (hlive : (k.status u).unused = false)
    (h : losTaskCreate k taskID param topOfStack = some (k', r, o)) : NotReadied u k k' := by
  obtain ⟨k1, V1, r1, o1, heq1, _, _, _, ho⟩ := losTaskCreateOnly_spec hi taskID param topOfStack
  have h1 : NotReadied u k k1 := notReadied_createOnly hi heq1
  unfold losTaskCreate at h
  rw [heq1] at h
  simp only [Option.bind_eq_bind, Option.bind_some] at h
  rcases ho with ⟨rfl, _, _⟩ | ⟨t, rfl, _, hcr, _⟩
  · simp only [Option.some.injEq, Prod.mk.injEq] at h
    rw [← h.1]
    exact h1
  · have hut : u ≠ t := by
      intro he
      have hunused := hcr.unused
      rw [← he] at hunused
      rw [show (k.gTaskCBArray u).taskStatus.unused = false from hlive] at hunused
      cases hunused
    simp only [Option.bind_eq_some_iff, Option.some.injEq, Prod.mk.injEq] at h
    obtain ⟨k2, henq, rfl, _⟩ := h
    have h2 := h1.trans (notReadied_enQueue henq hut)
    split
    · exact h2.trans (notReadied_losSchedule u k2)
    · exact h2

theorem notReadied_resume {r : Errno} (hsafe : t = u → (k.status t).suspend →
      (k.status t).pend ∨ (k.status t).delay)
    (h : losTaskResume k t = some (k', r)) : NotReadied u k k' := by
  unfold losTaskResume at h
  split at h
  · simp only [Option.some.injEq, Prod.mk.injEq] at h
    exact notReadied_of_task (by rw [h.1])
  split at h
  · simp only [Option.some.injEq, Prod.mk.injEq] at h
    exact notReadied_of_task (by rw [h.1])
  split at h
  · simp only [Option.some.injEq, Prod.mk.injEq] at h
    exact notReadied_of_task (by rw [h.1])
  · next hsusp =>
    have h1 := notReadied_modifyStatus k t u (f := fun s => { s with suspend := false }) fun _ h => h
    have hs := congrArg LosTaskCB.taskStatus (modifyStatus_self k t fun s => { s with suspend := false })
    dsimp only at h
    split at h
    · next hc =>
      have hut : u ≠ t := by
        intro he
        unfold KernelState.status at hc
        rw [hs] at hc
        rcases hsafe he.symm (by simpa using hsusp) with hp | hd
        · simp [show (k.gTaskCBArray t).taskStatus.pend = true from hp] at hc
        · simp [show (k.gTaskCBArray t).taskStatus.delay = true from hd] at hc
      simp only [Option.bind_eq_bind, Option.bind_eq_some_iff, Option.some.injEq, Prod.mk.injEq] at h
      obtain ⟨k2, henq, rfl, _⟩ := h
      have h2 := h1.trans (notReadied_enQueue henq hut)
      split
      · exact h2.trans (notReadied_losSchedule u k2)
      · exact h2
    · simp only [Option.some.injEq, Prod.mk.injEq] at h
      rw [← h.1]
      exact h1

theorem notReadied_suspend {r : Errno} (h : losTaskSuspend k t = some (k', r)) :
    NotReadied u k k' := by
  have hsame : ∀ r' : Errno, some (k, r') = some (k', r) → NotReadied u k k' := by
    intro r' h
    simp only [Option.some.injEq, Prod.mk.injEq] at h
    exact notReadied_of_task (by rw [h.1])
  unfold losTaskSuspend at h
  dsimp only at h
  split at h
  · exact hsame _ h
  split at h
  · exact hsame _ h
  split at h
  · exact hsame _ h
  split at h
  · exact hsame _ h
  obtain ⟨k1, hk1⟩ : ∃ k1, (if (k.status t).ready = true then osSchedTaskDeQueue k t else k) = k1 :=
    ⟨_, rfl⟩
  have h1 : NotReadied u k k1 := by
    rw [← hk1]
    split
    · exact notReadied_deQueue k t u
    · exact notReadied_of_task rfl
  rw [hk1] at h
  have h2 := h1.trans
    (notReadied_modifyStatus k1 t u (f := fun s => { s with suspend := true }) fun _ h => h)
  split at h
  · simp only [Option.some.injEq, Prod.mk.injEq] at h
    rw [← h.1]
    exact h2.trans (notReadied_losSchedule u _)
  · simp only [Option.some.injEq, Prod.mk.injEq] at h
    rw [← h.1]
    exact h2

theorem notReadied_delete {r : Errno} (hut : u ≠ gTaskMaxNum)
    (h : losTaskDelete k t = some (k', r)) : NotReadied u k k' := by
  have hsame : ∀ r' : Errno, some (k, r') = some (k', r) → NotReadied u k k' := by
    intro r' h
    simp only [Option.some.injEq, Prod.mk.injEq] at h
    exact notReadied_of_task (by rw [h.1])
  unfold losTaskDelete at h
  dsimp only at h
  split at h
  · exact hsame _ h
  split at h
  · exact hsame _ h
  obtain ⟨k1, hk1⟩ : ∃ k1, (if (k.status t).running = true ∧ k.gLosTaskLock ≠ 0 then
      { k with gLosTaskLock := 0 } else k) = k1 := ⟨_, rfl⟩
  have h1 : NotReadied u k k1 := by
    rw [← hk1]
    split <;> exact notReadied_of_task rfl
  rw [hk1] at h
  have h2 := h1.trans ((notReadied_exit k1 t u).trans
    (notReadied_modifyStatus _ t u (f := fun _ => osTaskStatusUnused) fun _ _ => rfl))
  split at h
  · simp only [Option.some.injEq, Prod.mk.injEq] at h
    rw [← h.1]
    refine h2.trans (NotReadied.trans ?_ (notReadied_losSchedule u _))
    exact notReadied_of_task (Function.update_of_ne hut _ _)
  · simp only [Option.some.injEq, Prod.mk.injEq] at h
    rw [← h.1]
    exact h2.trans (notReadied_of_task rfl)

theorem notReadied_tick (hi : KernelInv k V) {expired : Bool}
    (h : losSchedTickHandler k expired = some k') : NotReadied k.runTask k k' := by
  have hrest : ∀ k1 (b : Bool), NotReadied k.runTask k k1 →
      (if (b && k1.gLosTaskLock == 0) = true then some (halTaskSchedule k1)
        else osTimeSliceUpdate k1 k1.runTask (osGetCurrSchedTimeCycle k1)) = some k' →
      NotReadied k.runTask k k' := by
    intro k1 b h1 h
    split at h
    · rw [Option.some.injEq] at h
      rw [← h]
      exact h1.trans (notReadied_of_task rfl)
    · exact h1.trans (notReadied_timeSlice h)
  unfold losSchedTickHandler at h
  split at h
  · cases h
  cases expired with
  | false =>
    exact hrest k false (notReadied_of_task rfl) h
  | true =>
    obtain ⟨k1, V1, b, heq1, _, hs1⟩ := osSchedScanTimerList_spec hi
    simp only [if_true, Option.bind_eq_bind, heq1, Option.bind_some] at h
    refine hrest k1 b ?_ h
    rcases hs1.task k.runTask with hsame | hout
    · exact notReadied_of_task hsame.1
    · exact absurd rfl hout.bound

omit [Config] in
theorem notReadied_yield (k : KernelState) (u : Nat) : NotReadied u k (losTaskYield k).1 :=
  (notReadied_modifyTask k k.runTask u (f := fun cb => { cb with timeSlice := 0 }) fun _ h => h).trans
    (notReadied_losSchedule u (osSchedYield k))

omit [Config] in
theorem notReadied_delay (k : KernelState) (tick u : Nat) :
    NotReadied u k (losTaskDelay k false tick).1 := by
  have hdelay : NotReadied u k (osSchedDelay k tick) :=
    (notReadied_modifyStatus k k.runTask u (f := fun s => { s with delay := true }) fun _ h => h).trans
      (notReadied_modifyTask _ k.runTask u (f := fun cb => { cb with waitTimes := tick }) fun _ h => h)
  unfold losTaskDelay
  split
  · exact notReadied_of_task rfl
  split
  · exact notReadied_of_task rfl
  split
  · exact notReadied_yield k u
  · exact hdelay.trans (notReadied_losSchedule u _)

theorem Unready.of_notReadied (hu : Unready k) (hrun : k'.runTask = k.runTask)
    (h : k.runTask < gTaskMaxNum → NotReadied k.runTask k k') : Unready k' := by
  intro hlt
  rw [hrun] at hlt ⊢
  exact h hlt (hu hlt)

theorem halPendSV_unready (hi : KernelInv k V) (hsched : k.gTaskScheduled) (hu : Unready k)
    (h : halPendSV k = some k') : Unready k' := by
  obtain ⟨k1, V1, heq, _, hs1, _⟩ := halPendSV_spec hi hsched hu
  rw [heq, Option.some.injEq] at h
  rw [← h]
  exact fun _ => hs1.clean.ready

theorem osSchedStart_unready (h : osSchedStart k = some k') : Unready k' := by
  unfold osSchedStart at h
  simp only [Option.bind_eq_bind, Option.bind_eq_some_iff, Option.some.injEq] at h
  obtain ⟨n, _, rfl⟩ := h
  intro _
  have hrun : ∀ k : KernelState, (osSchedTaskDeQueue k n).runTask = k.runTask := by
    intro k
    unfold osSchedTaskDeQueue
    dsimp only
    split
    · split <;> rfl
    · rfl
  rw [hrun]
  exact osSchedTaskDeQueue_ready _ n

theorem kernelStep_unready {event : KernelEvent} (hm : Machine k V) (hu : Unready k)
    (hsafe : ∀ taskID, event = .resume taskID → taskID = k.runTask → (k.status taskID).suspend →
      (k.status taskID).pend ∨ (k.status taskID).delay)
    (hstep : kernelStep k event = some k') : Unready k' := by
  have hi := hm.inv
  cases event with
  | create taskID param top =>
    obtain ⟨k1, V1, r, o, heq, _, hrun, _⟩ := losTaskCreate_spec hi taskID param top
    simp only [kernelStep, heq, Option.map_some, Option.some.injEq] at hstep
    rw [← hstep]
    exact hu.of_notReadied hrun fun hlt => notReadied_create hi ((hi.task _ hlt).live rfl) heq
  | createOnly taskID param top =>
    obtain ⟨k1, V1, r, o, heq, _, hrun, _⟩ := losTaskCreateOnly_spec hi taskID param top
    simp only [kernelStep, heq, Option.map_some, Option.some.injEq] at hstep
    rw [← hstep]
    exact hu.of_notReadied hrun fun _ => notReadied_createOnly hi heq
  | resume taskID =>
    obtain ⟨k1, V1, r, heq, _, _, hrun, _⟩ := losTaskResume_spec hi taskID
    simp only [kernelStep, heq, Option.map_some, Option.some.injEq] at hstep
    rw [← hstep]
    exact hu.of_notReadied hrun fun _ => notReadied_resume (hsafe taskID rfl) heq
  | suspend taskID =>
    obtain ⟨k1, V1, r, heq, _, _, hrun, _⟩ := losTaskSuspend_spec hi taskID
    simp only [kernelStep, heq, Option.map_some, Option.some.injEq] at hstep
    rw [← hstep]
    exact hu.of_notReadied hrun fun _ => notReadied_suspend heq
  | delete taskID =>
    obtain ⟨k1, V1, r, heq, _, _, _, ho, _⟩ := losTaskDelete_spec hi taskID
    simp only [kernelStep, heq, Option.map_some, Option.some.injEq] at hstep
    rw [← hstep]
    rcases ho with ⟨hk, _⟩ | hd
    · rw [hk]
      exact hu
    · by_cases hself : taskID = k.runTask
      · intro hlt
        rw [hd.runTask, if_pos hself] at hlt
        exact absurd hlt (Nat.lt_irrefl _)
      · have hrun : k1.runTask = k.runTask := by rw [hd.runTask, if_neg hself]
        exact hu.of_notReadied hrun fun hlt => notReadied_delete (Nat.ne_of_lt hlt) heq
  | priSet taskID taskPrio =>
    obtain ⟨k1, V1, r, heq, _, _, hrun, _, hs, _⟩ := losTaskPriSet_spec hi taskID taskPrio
    simp only [kernelStep, heq, Option.map_some, Option.some.injEq] at hstep
    rw [← hstep]
    exact hu.of_notReadied hrun fun _ => notReadied_priSet heq
  | yield =>
    simp only [kernelStep] at hstep
    split at hstep
    · rw [Option.some.injEq] at hstep
      rw [← hstep]
      exact hu.of_notReadied (losSchedule_runTask _) fun _ => notReadied_yield k _
    · cases hstep
  | delay tick =>
    simp only [kernelStep] at hstep
    split at hstep
    · next hc =>
      have hcaller := hm.calling_caller hc
      simp only [KernelState.calling, KernelState.atWork, Bool.and_eq_true] at hc
      obtain ⟨_, _, hrun, _⟩ := losTaskDelay_spec hi hcaller hc.1.1 false tick
      rw [Option.some.injEq] at hstep
      rw [← hstep]
      exact hu.of_notReadied hrun fun _ => notReadied_delay k tick _
    · cases hstep
  | lock =>
    simp only [kernelStep] at hstep
    split at hstep
    · rw [Option.some.injEq] at hstep
      rw [← hstep]
      exact hu.of_notReadied rfl fun _ => notReadied_of_task rfl
    · cases hstep
  | unlock =>
    simp only [kernelStep] at hstep
    split at hstep
    · rw [Option.some.injEq] at hstep
      rw [← hstep]
      unfold losTaskUnlock
      dsimp only
      split
      · split
        · have hlock : NotReadied k.runTask k { k with gLosTaskLock := k.gLosTaskLock - 1 } :=
            notReadied_of_task rfl
          exact hu.of_notReadied (losSchedule_runTask _) fun _ =>
            hlock.trans (notReadied_losSchedule _ _)
        · exact hu.of_notReadied rfl fun _ => notReadied_of_task rfl
      · exact hu
    · cases hstep
  | schedule =>
    simp only [kernelStep, Option.some.injEq] at hstep
    rw [← hstep]
    exact hu.of_notReadied (losSchedule_runTask k) fun _ => notReadied_losSchedule _ k
  | start =>
    simp only [kernelStep] at hstep
    split at hstep
    · cases hstep
    · exact osSchedStart_unready hstep
  | tick expired =>
    simp only [kernelStep] at hstep
    split at hstep
    · next hs =>
      obtain ⟨k1, V1, heq, _, _, hrun, _⟩ := losSchedTickHandler_spec hi hs expired
      rw [heq, Option.some.injEq] at hstep
      rw [← hstep]
      exact hu.of_notReadied hrun fun _ => notReadied_tick hi heq
    · cases hstep
  | pendSV =>
    simp only [kernelStep] at hstep
    split at hstep
    · next hp => exact halPendSV_unready hi (hm.settled.request hp) hu hstep
    · cases hstep
  | elapse cycles =>
    simp only [kernelStep, Option.some.injEq] at hstep
    rw [← hstep]
    exact hu.of_notReadied rfl fun _ => notReadied_of_task rfl

theorem kernelStep_isSome {event : KernelEvent} (hm : Machine k V) (hu : Unready k)
    (hallow : KernelAllowed k event) : (kernelStep k event).isSome := by
  have hi := hm.inv
  cases event with
  | create taskID param top =>
    obtain ⟨k1, V1, r, o, heq, _⟩ := losTaskCreate_spec hi taskID param top
    simp [kernelStep, heq]
  | createOnly taskID param top =>
    obtain ⟨k1, V1, r, o, heq, _⟩ := losTaskCreateOnly_spec hi taskID param top
    simp [kernelStep, heq]
  | resume taskID =>
    obtain ⟨k1, V1, r, heq, _⟩ := losTaskResume_spec hi taskID
    simp [kernelStep, heq]
  | suspend taskID =>
    obtain ⟨k1, V1, r, heq, _⟩ := losTaskSuspend_spec hi taskID
    simp [kernelStep, heq]
  | delete taskID =>
    obtain ⟨k1, V1, r, heq, _⟩ := losTaskDelete_spec hi taskID
    simp [kernelStep, heq]
  | priSet taskID taskPrio =>
    obtain ⟨k1, V1, r, heq, _⟩ := losTaskPriSet_spec hi taskID taskPrio
    simp [kernelStep, heq]
  | yield =>
    have h : k.atWork = true := hallow
    simp [kernelStep, h]
  | delay tick =>
    have h : k.calling = true := hallow
    simp [kernelStep, h]
  | lock =>
    have h : k.atWork = true := hallow
    simp [kernelStep, h]
  | unlock =>
    have h : k.atWork = true := hallow
    simp [kernelStep, h]
  | schedule => rfl
  | start =>
    have h : k.gTaskScheduled = false := hallow
    obtain ⟨k1, V1, heq, _⟩ := osSchedStart_spec hi hm.settled h hm.idle
    simp [kernelStep, h, heq]
  | tick expired =>
    have h : k.gTaskScheduled = true := hallow
    obtain ⟨k1, V1, heq, _⟩ := losSchedTickHandler_spec hi h expired
    simp [kernelStep, h, heq]
  | pendSV =>
    have h : k.pendSV = true := hallow
    obtain ⟨k1, V1, heq, _⟩ := halPendSV_spec hi (hm.settled.request h) hu
    simp [kernelStep, h, heq]
  | elapse cycles => rfl

theorem waitStep_unready {event : WaitEvent} (hi : WaitInv s V) (hu : Unready s.kernel)
    (hsafe : WakesOther s event) (hstep : waitStep s event = some s') : Unready s'.kernel := by
  have hm := hi.machine
  cases event with
  | kernel event =>
    simp only [waitStep, Option.map_eq_some_iff] at hstep
    obtain ⟨k', heq, rfl⟩ := hstep
    refine kernelStep_unready hm hu (fun taskID he hself hsusp => ?_) heq
    rw [he] at hsafe
    exact hsafe hself hsusp
  | wait l ticks =>
    simp only [waitStep] at hstep
    split at hstep
    · next h =>
      obtain ⟨V', _, _, ht, hs, _⟩ := hm.wait h.1 h.2.1 (hi.head l h.2.2) ticks
      rw [Option.some.injEq] at hstep
      rw [← hstep]
      have hwait : NotReadied s.kernel.runTask s.kernel (osSchedTaskWait s.kernel l ticks) := by
        intro hr
        show ((osSchedTaskWait s.kernel l ticks).gTaskCBArray s.kernel.runTask).taskStatus.ready = false
        rw [hs]
        exact hr
      exact hu.of_notReadied ((losSchedule_runTask _).trans ht.runTask) fun _ =>
        hwait.trans (notReadied_losSchedule _ _)
    · cases hstep
  | wake t =>
    simp only [waitStep] at hstep
    split at hstep
    · next h =>
      obtain ⟨k', V', heq, _, hmv, _, _, hs, _⟩ := hm.wake h.1 h.2
      rw [heq, Option.map_some, Option.some.injEq] at hstep
      rw [← hstep]
      refine hu.of_notReadied hmv.runTask fun _ => ?_
      by_cases hself : t = s.kernel.runTask
      · intro hr
        have hsusp : (s.kernel.gTaskCBArray t).taskStatus.suspend = true := hsafe hself
        show (k'.gTaskCBArray s.kernel.runTask).taskStatus.ready = false
        rw [← hself] at hr ⊢
        rw [hs, if_pos hsusp]
        exact hr
      · exact notReadied_of_task (hmv.task _ (Ne.symm hself))
    · cases hstep
  | inherit t priority =>
    simp only [waitStep] at hstep
    split at hstep
    · next h =>
      obtain ⟨k', V', b, heq, _, hmv, _⟩ := hm.inherit h.1 (Nat.lt_succ_of_le h.2)
      rw [heq, Option.map_some, Option.some.injEq] at hstep
      rw [← hstep]
      exact hu.of_notReadied hmv.runTask fun _ => notReadied_modifyParam heq
    · cases hstep
  | clearTimeout t =>
    simp only [waitStep, Option.some.injEq] at hstep
    rw [← hstep]
    exact hu.of_notReadied rfl fun _ => notReadied_modifyStatus s.kernel t s.kernel.runTask
      (f := fun s => { s with timeout := false }) fun _ h => h
  | setUp l =>
    simp only [waitStep] at hstep
    split at hstep
    · cases hstep
    · rw [Option.some.injEq] at hstep
      rw [← hstep]
      exact hu.of_notReadied rfl fun _ => notReadied_of_task rfl
  | giveBack l =>
    simp only [waitStep] at hstep
    split at hstep
    · rw [Option.some.injEq] at hstep
      rw [← hstep]
      exact hu
    · cases hstep

theorem waitStep_isSome {event : WaitEvent} (hi : WaitInv s V) (hu : Unready s.kernel)
    (hallow : WaitAllowed s event) : (waitStep s event).isSome := by
  cases event with
  | kernel event =>
    obtain ⟨k', heq⟩ := Option.isSome_iff_exists.mp (kernelStep_isSome hi.machine hu hallow)
    simp [waitStep, heq]
  | wait l ticks =>
    have h : s.kernel.calling ∧ s.kernel.gLosTaskLock = 0 ∧ s.inUse l := hallow
    simp [waitStep, h]
  | wake t =>
    have h : t < gTaskMaxNum ∧ (s.kernel.status t).pend := hallow
    obtain ⟨k', V', heq, _⟩ := hi.machine.wake h.1 h.2
    simp [waitStep, h, heq]
  | inherit t priority =>
    have h : t < gTaskMaxNum ∧ priority ≤ osTaskPriorityLowest := hallow
    obtain ⟨k', V', b, heq, _⟩ := hi.machine.inherit h.1 (Nat.lt_succ_of_le h.2)
    simp [waitStep, h, heq]
  | clearTimeout t => rfl
  | setUp l =>
    have h : s.inUse l = false := hallow
    simp [waitStep, h]
  | giveBack l =>
    have h : s.inUse l ∧ losListEmpty s.kernel (.wait l) := hallow
    simp [waitStep, h]

theorem Machine.queuedOnce (hm : Machine k V) : QueuedOnce k V := by
  have hf := hm.inv.core.ready.forest
  refine ⟨hf, fun p => hf.nodup _, fun p q t hp hq => ?_⟩
  have h := ((hf.mem _ _).mp hp).symm.trans ((hf.mem _ _).mp hq)
  simpa using h

/-- In a run in which the running task is not readied before its switch, no call meets a task that is
ready already: every call that is allowed returns, the switch with them. -/
theorem osSchedTaskEnQueue_once {s₀ : WaitState} {events : List WaitEvent}
    (hmax : gTaskMaxNum ≤ osInvalid) (hb : WaitBooted s₀)
    (hrun : Run (fun s event s' => waitStep s event = some s' ∧ WakesOther s event) s₀ events s) :
    (∀ event, WaitAllowed s event → (waitStep s event).isSome) ∧ Unready s.kernel ∧
      ∃ V, QueuedOnce s.kernel V := by
  have hstart : ∃ V, WaitInv s₀ V ∧ Unready s₀.kernel := by
    obtain ⟨V, hm, hloose, hsched, _⟩ := booted_machine hmax hb.1
    refine ⟨V, ⟨hm, fun l h => ?_, fun l _ => hloose _ rfl⟩, fun hlt => ?_⟩
    · rw [hb.2] at h
      cases h
    · rw [hm.settled.boot hsched] at hlt
      exact absurd hlt (Nat.lt_irrefl _)
  obtain ⟨V, hi, hu⟩ : ∃ V, WaitInv s V ∧ Unready s.kernel := by
    refine run_invariant (fun s => ∃ V, WaitInv s V ∧ Unready s.kernel) ?_ hrun hstart
    rintro s event s' ⟨V, hi, hu⟩ ⟨hstep, hsafe⟩
    obtain ⟨V', hi'⟩ := waitStep_inv hi hstep
    exact ⟨V', hi', waitStep_unready hi hu hsafe hstep⟩
  exact ⟨fun event => waitStep_isSome hi hu, hu, V, hi.machine.queuedOnce⟩

end

instance instDecidableWakesOther (s : WaitState) : (event : WaitEvent) → Decidable (WakesOther s event)
  | .wake resumedTask =>
    inferInstanceAs (Decidable (resumedTask = s.kernel.runTask → (s.kernel.status resumedTask).suspend))
  | .kernel (.resume taskID) =>
    inferInstanceAs (Decidable (taskID = s.kernel.runTask → (s.kernel.status taskID).suspend →
      (s.kernel.status taskID).pend ∨ (s.kernel.status taskID).delay))
  | .kernel (.create ..) | .kernel (.createOnly ..) | .kernel (.suspend _) | .kernel (.delete _)
  | .kernel (.priSet ..) | .kernel .yield | .kernel (.delay _) | .kernel .lock | .kernel .unlock
  | .kernel .schedule | .kernel .start | .kernel (.tick _) | .kernel .pendSV | .kernel (.elapse _)
  | .wait .. | .inherit .. | .clearTimeout _ | .setUp _ | .giveBack _ => isTrue trivial

/-- Before the task of priority 10 is switched away, an interrupt suspends it and posts its semaphore. In the wait of
the task of priority 11 an interrupt resumes the first one. -/
def wakeInWindow : List WaitEvent :=
  [.setUp (.semList 0), .kernel (smallTask 10), .kernel (smallTask 11), .kernel .start, .wait (.semList 0) losWaitForever,
    .kernel (.suspend 1), .wake 1, .kernel .pendSV, .wait (.semList 0) losWaitForever, .kernel (.resume 1)]

omit [Config] in
/-- The posted task is on the processor and neither waits nor is ready, and the second switch is allowed too. -/
theorem osSchedTaskEnQueue_once_small :
    letI := smallConfig
    ∃ s s' V V', Run (fun s event s' => waitStep s event = some s' ∧ WakesOther s event) smallWaits
        (wakeInWindow.take 7) s ∧
      s.kernel.runTask = 1 ∧ s.kernel.pendSV ∧ (s.kernel.status 1).pend = false ∧ (s.kernel.status 1).suspend ∧
      (waitStep s (.kernel .pendSV)).isSome ∧ Unready s.kernel ∧ QueuedOnce s.kernel V ∧
      Run (fun s event s' => waitStep s event = some s' ∧ WakesOther s event) smallWaits wakeInWindow s' ∧
      s'.kernel.runTask = 2 ∧ (s'.kernel.status 1).ready ∧ (s'.kernel.status 2).pend ∧
      (waitStep s' (.kernel .pendSV)).isSome ∧ Unready s'.kernel ∧ QueuedOnce s'.kernel V' := by
  let := smallConfig
  have hb : WaitBooted smallWaits := ⟨smallKernel_booted, fun _ => rfl⟩
  have hfirst : ((wakeInWindow.take 7).foldlM (guarded WakesOther waitStep) smallWaits).map (fun s => (s.kernel.runTask,
      s.kernel.pendSV, (s.kernel.status 1).pend, (s.kernel.status 1).suspend)) = some (1, true, false, true) := by
    decide +kernel
  have hlast : (wakeInWindow.foldlM (guarded WakesOther waitStep) smallWaits).map (fun s => (s.kernel.runTask, s.kernel.pendSV,
      (s.kernel.status 1).ready, (s.kernel.status 2).pend)) = some (2, true, true, true) := by decide +kernel
  obtain ⟨s, hs, hval⟩ := Option.map_eq_some_iff.mp hfirst
  obtain ⟨s', hs', hval'⟩ := Option.map_eq_some_iff.mp hlast
  simp only [Prod.mk.injEq] at hval hval'
  obtain ⟨hrun, hpendSV, hpend, hsusp⟩ := hval
  obtain ⟨hrun', hpendSV', hready, hpend'⟩ := hval'
  have hsteps := run_of_guarded hs
  have hsteps' := run_of_guarded hs'
  obtain ⟨hcalls, hu, V, hqueued⟩ := osSchedTaskEnQueue_once (by decide) hb hsteps
  obtain ⟨hcalls', hu', V', hqueued'⟩ := osSchedTaskEnQueue_once (by decide) hb hsteps'
  exact ⟨s, s', V, V', hsteps, hrun, hpendSV, hpend, hsusp, hcalls (.kernel .pendSV) hpendSV, hu, hqueued,
    hsteps', hrun', hready, hpend', hcalls' (.kernel .pendSV) hpendSV', hu', hqueued'⟩

/-- A task starts to wait on a semaphore, and an interrupt posts it before the switch. -/
def earlyWakeEvents : List WaitEvent :=
  [.setUp (.semList 0), .kernel (.create true (some { pfnTaskEntry := some 7, usTaskPrio := 10
                                                      uwStackSize := 64, pcName := some "task" }) true),
    .kernel .start, .wait (.semList 0) losWaitForever, .wake 1]

omit [Config] in
/-- The switch then enters a task into the ready queue that is in it already. -/
theorem osSchedTaskEnQueue_twice :
    letI := smallConfig
    ∃ s, WaitBooted smallWaits ∧
      Run (fun s event s' => waitStep s event = some s') smallWaits earlyWakeEvents s ∧
      WaitAllowed s (.kernel .pendSV) ∧ (s.kernel.status s.kernel.runTask).ready = true ∧
      waitStep s (.kernel .pendSV) = none := by
  let := smallConfig
  have hrun : (earlyWakeEvents.foldlM waitStep smallWaits).map (fun s =>
      (s.kernel.pendSV, (s.kernel.status s.kernel.runTask).ready,
        (waitStep s (.kernel .pendSV)).isSome)) = some (true, true, false) := by decide +kernel
  rw [Option.map_eq_some_iff] at hrun
  obtain ⟨s, hs, hval⟩ := hrun
  simp only [Prod.mk.injEq] at hval
  obtain ⟨hpend, hready, hnone⟩ := hval
  refine ⟨s, ⟨smallKernel_booted, fun _ => rfl⟩, run_of_foldlM hs, hpend, hready, ?_⟩
  simpa using hnone

end LiteosM.Kernel
