import LiteosM.Kernel.EnqueueOnce

/-!
# Time slices

What the calls do to `timeSlice` and `startTime`. Apart from the charge for the time a task has
run, a slice stays or is filled, and a task that becomes ready has some of it left.
-/

namespace LiteosM.Kernel

open LiteosM.Lib.DlList LiteosM.Lib.Transition

variable [Config]

/-- The slices are 32-bit numbers, and the shortest remainder that counts is not negative. -/
structure SliceConfigOk : Prop where
  min : 0 ≤ Config.osTimeSliceMin
  slices : 0 ≤ Config.osSchedTimeSlices
  small : Config.osSchedTimeSlices < 2147483648

/-- A control block before and after a call that charges nothing. -/
def SliceTask (idle u : Nat) (cb cb' : LosTaskCB) : Prop :=
  cb'.startTime = cb.startTime ∧ (u < gTaskMaxNum → cb'.taskID = cb.taskID) ∧
  ((cb'.timeSlice = cb.timeSlice ∧ (u < gTaskMaxNum → cb'.taskStatus.ready = true →
      cb.taskStatus.ready = true ∨ 0 ≤ cb.timeSlice ∨ cb.taskID = idle)) ∨
    (0 ≤ cb'.timeSlice ∧ cb'.timeSlice ≤ Config.osSchedTimeSlices))

structure SliceKept (k k' : KernelState) : Prop where
  idle : k'.gIdleTaskID = k.gIdleTaskID
  task : ∀ u, SliceTask k.gIdleTaskID u (k.gTaskCBArray u) (k'.gTaskCBArray u)

section

variable {k k' k'' : KernelState} {V : View Node} {t : Nat}

theorem sliceTask_refl (idle u : Nat) (cb : LosTaskCB) : SliceTask idle u cb cb :=
  ⟨rfl, fun _ => rfl, .inl ⟨rfl, fun _ h => .inl h⟩⟩

theorem sliceKept_of_tasks (hidle : k'.gIdleTaskID = k.gIdleTaskID)
    (h : k'.gTaskCBArray = k.gTaskCBArray) : SliceKept k k' :=
  ⟨hidle, fun u => by rw [h]; exact sliceTask_refl _ _ _⟩

theorem sliceKept_refl (k : KernelState) : SliceKept k k := sliceKept_of_tasks rfl rfl

theorem SliceKept.trans (h₁ : SliceKept k k') (h₂ : SliceKept k' k'') : SliceKept k k'' := by
  refine ⟨h₂.idle.trans h₁.idle, fun u => ?_⟩
  obtain ⟨hs₁, hid₁, hc₁⟩ := h₁.task u
  obtain ⟨hs₂, hid₂, hc₂⟩ := h₂.task u
  rw [h₁.idle] at hc₂
  refine ⟨hs₂.trans hs₁, fun hu => (hid₂ hu).trans (hid₁ hu), ?_⟩
  rcases hc₂ with ⟨heq₂, hr₂⟩ | hfill
  · rcases hc₁ with ⟨heq₁, hr₁⟩ | hfill
    · refine .inl ⟨heq₂.trans heq₁, fun hu hready => ?_⟩
      rcases hr₂ hu hready with h | h | h
      · exact hr₁ hu h
      · rw [heq₁] at h
        exact .inr (.inl h)
      · rw [hid₁ hu] at h
        exact .inr (.inr h)
    · rw [← heq₂] at hfill
      exact .inr hfill
  · exact .inr hfill

theorem sliceKept_modifyTask (k : KernelState) (t : Nat) {f : LosTaskCB → LosTaskCB}
    (hf : SliceTask k.gIdleTaskID t (k.gTaskCBArray t) (f (k.gTaskCBArray t))) :
    SliceKept k (k.modifyTask t f) := by
  refine ⟨rfl, fun u => ?_⟩
  show SliceTask _ u _ (Function.update k.gTaskCBArray t (f (k.gTaskCBArray t)) u)
  by_cases hut : u = t
  · rw [hut, Function.update_self]
    exact hf
  · rw [Function.update_of_ne hut]
    exact sliceTask_refl _ _ _

theorem sliceKept_field (k : KernelState) (t : Nat) {f : LosTaskCB → LosTaskCB}
    (hs : ∀ cb, (f cb).startTime = cb.startTime) (hid : ∀ cb, (f cb).taskID = cb.taskID)
    (hts : ∀ cb, (f cb).timeSlice = cb.timeSlice)
    (hr : ∀ cb, (f cb).taskStatus.ready = true → cb.taskStatus.ready = true) :
    SliceKept k (k.modifyTask t f) :=
  sliceKept_modifyTask k t ⟨hs _, fun _ => hid _, .inl ⟨hts _, fun _ h => .inl (hr _ h)⟩⟩

theorem sliceKept_status (k : KernelState) (t : Nat) {f : TaskStatus → TaskStatus}
    (hr : ∀ s, (f s).ready = true → s.ready = true) : SliceKept k (k.modifyStatus t f) :=
  sliceKept_field k t (fun _ => rfl) (fun _ => rfl) (fun _ => rfl) fun cb h => hr cb.taskStatus h

theorem sliceKept_losSchedule (k : KernelState) : SliceKept k (losSchedule k) := by
  obtain ⟨b, hb⟩ := losSchedule_eq k
  rw [hb]
  exact sliceKept_of_tasks rfl rfl

theorem sliceKept_deQueue (k : KernelState) (t : Nat) : SliceKept k (osSchedTaskDeQueue k t) := by
  unfold osSchedTaskDeQueue
  split
  · dsimp only
    refine SliceKept.trans ?_ (sliceKept_status _ t fun _ h => by cases h)
    split <;> exact sliceKept_of_tasks rfl rfl
  · exact sliceKept_refl k

theorem sliceKept_enQueue (hc : SliceConfigOk) (h : osSchedTaskEnQueue k t = some k') :
    SliceKept k k' := by
  have hmin := hc.min
  have hslices := hc.slices
  unfold osSchedTaskEnQueue at h
  split at h
  · cases h
  rw [Option.some.injEq] at h
  dsimp only at h
  by_cases hid : (k.gTaskCBArray t).taskID ≠ k.gIdleTaskID
  · rw [if_pos hid] at h
    by_cases hleft : Config.osTimeSliceMin < (k.gTaskCBArray t).timeSlice
    · rw [if_pos hleft] at h
      have hpos : 0 ≤ (k.gTaskCBArray t).timeSlice := by omega
      have hlist : SliceKept k (osSchedPriQueueEnHead k (.pendList t) (k.gTaskCBArray t).priority) :=
        sliceKept_of_tasks rfl rfl
      rw [← h]
      exact hlist.trans (sliceKept_modifyTask _ t
        ⟨rfl, fun _ => rfl, .inl ⟨rfl, fun _ _ => .inr (.inl hpos)⟩⟩)
    · rw [if_neg hleft] at h
      have hfill : SliceKept k (k.modifyTask t fun cb => { cb with timeSlice := Config.osSchedTimeSlices }) :=
        sliceKept_modifyTask k t ⟨rfl, fun _ => rfl, .inr ⟨hslices, le_refl _⟩⟩
      have hnew := modifyTask_self k t fun cb => { cb with timeSlice := Config.osSchedTimeSlices }
      generalize k.modifyTask t (fun cb => { cb with timeSlice := Config.osSchedTimeSlices }) = k1 at *
      have hlist : SliceKept k1 (osSchedPriQueueEnTail k1 (.pendList t) (k.gTaskCBArray t).priority) :=
        sliceKept_of_tasks rfl rfl
      have hpos : (k1.gTaskCBArray t).timeSlice = Config.osSchedTimeSlices := by rw [hnew]
      rw [← h]
      refine (hfill.trans hlist).trans (sliceKept_modifyTask _ t
        ⟨rfl, fun _ => rfl, .inl ⟨rfl, fun _ _ => .inr (.inl ?_)⟩⟩)
      show 0 ≤ (k1.gTaskCBArray t).timeSlice
      omega
  · rw [if_neg hid] at h
    rw [← h]
    exact sliceKept_modifyTask k t
      ⟨rfl, fun _ => rfl, .inl ⟨rfl, fun _ _ => .inr (.inr (not_not.mp hid))⟩⟩

theorem sliceKept_deleteNodeSortLink (k : KernelState) (t : Nat) :
    SliceKept k (osDeleteNodeSortLink k t) := by
  have hlist : SliceKept k (losListDelete k (.sortLinkNode t)) := sliceKept_of_tasks rfl rfl
  exact hlist.trans (sliceKept_field (losListDelete k (.sortLinkNode t)) t
    (f := fun cb => { cb with responseTime := ⊤ }) (fun _ => rfl) (fun _ => rfl) (fun _ => rfl)
    fun _ h => h)

theorem sliceKept_deleteSortLink (k : KernelState) (t : Nat) : SliceKept k (osDeleteSortLink k t) := by
  unfold osDeleteSortLink
  split
  · exact sliceKept_deleteNodeSortLink k t
  · exact sliceKept_refl k

theorem sliceKept_exit (k : KernelState) (t : Nat) : SliceKept k (osSchedTaskExit k t) := by
  unfold osSchedTaskExit
  dsimp only
  obtain ⟨k1, hk1⟩ : ∃ k1, (if (k.status t).ready = true then osSchedTaskDeQueue k t
      else if (k.status t).pend = true then
        (losListDelete k (.pendList t)).modifyStatus t fun s => { s with pend := false }
      else k) = k1 := ⟨_, rfl⟩
  have h1 : SliceKept k k1 := by
    rw [← hk1]
    split
    · exact sliceKept_deQueue k t
    · split
      · have hlist : SliceKept k (losListDelete k (.pendList t)) := sliceKept_of_tasks rfl rfl
        exact hlist.trans (sliceKept_status _ t fun _ h => h)
      · exact sliceKept_refl k
  rw [hk1]
  split
  · exact h1.trans ((sliceKept_deleteSortLink k1 t).trans (sliceKept_status _ t fun _ h => h))
  · exact h1

theorem sliceKept_modifyParam (hc : SliceConfigOk) {priority : Nat} {b : Bool}
    (h : osSchedModifyTaskSchedParam k t priority = some (k', b)) : SliceKept k k' := by
  have hset : ∀ k : KernelState, SliceKept k (k.modifyTask t fun cb => { cb with priority := priority }) :=
    fun k => sliceKept_field k t (fun _ => rfl) (fun _ => rfl) (fun _ => rfl) fun _ h => h
  unfold osSchedModifyTaskSchedParam at h
  by_cases hready : (k.status t).ready = true
  · rw [if_pos hready] at h
    simp only [Option.bind_eq_bind, Option.bind_eq_some_iff, Option.some.injEq, Prod.mk.injEq] at h
    obtain ⟨k1, henq, rfl, _⟩ := h
    exact (sliceKept_deQueue k t).trans ((hset _).trans (sliceKept_enQueue hc henq))
  · rw [if_neg hready, Option.some.injEq, Prod.mk.injEq] at h
    rw [← h.1]
    exact hset k

theorem sliceKept_add2SortLink {startTime waitTicks : Nat}
    (h : osAdd2SortLink k t startTime waitTicks = some k') : SliceKept k k' := by
  have hset : SliceKept k (k.modifyTask t fun cb => { cb with
      responseTime := ((startTime + waitTicks * Config.osCyclePerTick : Nat) : WithTop Nat) }) :=
    sliceKept_field k t (fun _ => rfl) (fun _ => rfl) (fun _ => rfl) fun _ h => h
  unfold osAdd2SortLink osAddNode2SortLink at h
  dsimp only at h
  generalize k.modifyTask t (fun cb => { cb with
      responseTime := ((startTime + waitTicks * Config.osCyclePerTick : Nat) : WithTop Nat) }) = k1 at *
  refine hset.trans ?_
  split at h
  · rw [← Option.some.inj h]
    exact sliceKept_of_tasks rfl rfl
  · simp only [Option.bind_eq_bind, Option.bind_eq_some_iff] at h
    obtain ⟨x, _, h⟩ := h
    split at h
    · rw [← Option.some.inj h]
      exact sliceKept_of_tasks rfl rfl
    · rw [Option.bind_eq_some_iff] at h
      obtain ⟨y, _, h⟩ := h
      rw [← Option.some.inj h]
      exact sliceKept_of_tasks rfl rfl

theorem sliceKept_wait (k : KernelState) (list : WaitList) (ticks : Nat) :
    SliceKept k (osSchedTaskWait k list ticks) := by
  have hpend := sliceKept_status k k.runTask (f := fun s => { s with pend := true }) fun _ h => h
  have hlist : SliceKept (k.modifyStatus k.runTask fun s => { s with pend := true })
      (losListTailInsert (k.modifyStatus k.runTask fun s => { s with pend := true }) (.wait list)
        (.pendList k.runTask)) := sliceKept_of_tasks rfl rfl
  have h1 := hpend.trans hlist
  unfold osSchedTaskWait
  dsimp only
  split
  · exact h1.trans ((sliceKept_status _ k.runTask (f := fun s => { s with pendTime := true })
      fun _ h => h).trans (sliceKept_field _ k.runTask (f := fun cb => { cb with waitTimes := ticks })
        (fun _ => rfl) (fun _ => rfl) (fun _ => rfl) fun _ h => h))
  · exact h1

theorem sliceKept_wake (hc : SliceConfigOk) (h : osSchedTaskWake k t = some k') : SliceKept k k' := by
  unfold osSchedTaskWake at h
  dsimp only at h
  have hlist : SliceKept k (losListDelete k (.pendList t)) := sliceKept_of_tasks rfl rfl
  have h1 := hlist.trans (sliceKept_status (losListDelete k (.pendList t)) t
    (f := fun s => { s with pend := false }) fun _ h => h)
  generalize (losListDelete k (.pendList t)).modifyStatus t (fun s => { s with pend := false }) = k1 at *
  obtain ⟨k2, hk2⟩ : ∃ k2, (if (k1.status t).pendTime = true then
      (osDeleteSortLink k1 t).modifyStatus t fun s => { s with pendTime := false } else k1) = k2 :=
    ⟨_, rfl⟩
  have h2 : SliceKept k1 k2 := by
    rw [← hk2]
    split
    · exact (sliceKept_deleteSortLink k1 t).trans (sliceKept_status _ t fun _ h => h)
    · exact sliceKept_refl k1
  rw [hk2] at h
  split at h
  · exact (h1.trans h2).trans (sliceKept_enQueue hc h)
  · rw [← Option.some.inj h]
    exact h1.trans h2

theorem sliceKept_wakePendTime (hc : SliceConfigOk) {b : Bool} {r : KernelState × Bool}
    (h : osSchedWakePendTimeTask k t b = some r) : SliceKept k r.1 := by
  unfold osSchedWakePendTimeTask at h
  dsimp only at h
  split at h
  · have h1 := sliceKept_status k t
      (f := fun s => { s with pend := false, pendTime := false, delay := false }) fun _ h => h
    generalize k.modifyStatus t (fun s => { s with pend := false, pendTime := false, delay := false })
      = k1 at *
    obtain ⟨k2, hk2⟩ : ∃ k2, (if (k.status t).pend = true then
        (losListDelete (k1.modifyStatus t fun s => { s with timeout := true }) (.pendList t)).modifyTask t
          fun cb => { cb with taskMux := none, taskSem := none }
        else k1) = k2 := ⟨_, rfl⟩
    have h2 : SliceKept k1 k2 := by
      rw [← hk2]
      split
      · have htime := sliceKept_status k1 t (f := fun s => { s with timeout := true }) fun _ h => h
        have hlist : SliceKept (k1.modifyStatus t fun s => { s with timeout := true })
          (losListDelete (k1.modifyStatus t fun s => { s with timeout := true }) (.pendList t)) :=
          sliceKept_of_tasks rfl rfl
        exact (htime.trans hlist).trans (sliceKept_field _ t
          (f := fun cb => { cb with taskMux := none, taskSem := none }) (fun _ => rfl) (fun _ => rfl)
          (fun _ => rfl) fun _ h => h)
      · exact sliceKept_refl k1
    rw [hk2] at h
    split at h
    · simp only [Option.bind_eq_bind, Option.bind_eq_some_iff] at h
      obtain ⟨k3, henq, h⟩ := h
      rw [← Option.some.inj h]
      exact (h1.trans h2).trans (sliceKept_enQueue hc henq)
    · rw [← Option.some.inj h]
      exact h1.trans h2
  · rw [← Option.some.inj h]
    exact sliceKept_refl k

theorem sliceKept_scanLoop (hc : SliceConfigOk) (currTime : Nat) (fuel : Nat) :
    ∀ (k : KernelState) (b : Bool) (r : KernelState × Bool),
      osSchedScanLoop currTime fuel k b = some r → SliceKept k r.1 := by
  induction fuel with
  | zero =>
    intro k b r h
    cases h
  | succ fuel ih =>
    intro k b r h
    unfold osSchedScanLoop at h
    simp only [Option.bind_eq_bind, Option.bind_eq_some_iff] at h
    obtain ⟨t, _, h⟩ := h
    split at h
    · rw [Option.bind_eq_some_iff] at h
      obtain ⟨r1, hwake, h⟩ := h
      have h1 := (sliceKept_deleteNodeSortLink k t).trans (sliceKept_wakePendTime hc hwake)
      split at h
      · rw [← Option.some.inj h]
        exact h1
      · exact h1.trans (ih _ _ _ h)
    · rw [← Option.some.inj h]
      exact sliceKept_refl k

theorem sliceKept_scan (hc : SliceConfigOk) {r : KernelState × Bool}
    (h : osSchedScanTimerList k = some r) : SliceKept k r.1 := by
  unfold osSchedScanTimerList at h
  split at h
  · rw [← Option.some.inj h]
    exact sliceKept_refl k
  · exact sliceKept_scanLoop hc _ _ _ _ _ h

/-! ### Task calls -/

theorem sliceKept_asked (b : Bool) (h : SliceKept k k') :
    SliceKept k (if b = true then losSchedule k' else k') := by
  split
  · exact h.trans (sliceKept_losSchedule k')
  · exact h

theorem sliceKept_priSet (hc : SliceConfigOk) {taskPrio : Nat} {r : Errno}
    (h : losTaskPriSet k t taskPrio = some (k', r)) : SliceKept k k' := by
  have hsame : ∀ r' : Errno, some (k, r') = some (k', r) → SliceKept k k' := by
    intro r' h
    simp only [Option.some.injEq, Prod.mk.injEq] at h
    rw [h.1]
    exact sliceKept_refl k'
  unfold losTaskPriSet at h
  split at h
  · exact hsame _ h
  split at h
  · exact hsame _ h
  split at h
  · exact hsame _ h
  split at h
  · exact hsame _ h
  split at h
  · exact hsame _ h
  simp only [Option.bind_eq_bind, Option.bind_eq_some_iff, Option.some.injEq, Prod.mk.injEq] at h
  obtain ⟨⟨k1, b⟩, hmod, rfl, _⟩ := h
  exact sliceKept_asked b (sliceKept_modifyParam hc hmod)

theorem sliceKept_createOnly (hc : SliceConfigOk) (hi : KernelInv k V) {taskID topOfStack : Bool}
    {param : Option TskInitParam} {r : Errno} {o : Option Nat}
    (h : losTaskCreateOnly k taskID param topOfStack = some (k', r, o)) : SliceKept k k' := by
  obtain ⟨k1, V1, heq1, _, _, hst1, hcb1⟩ := osRecyleFinishedTask_spec hi
  have h1 : SliceKept k k1 := sliceKept_of_tasks hst1.gIdleTaskID hcb1
  unfold losTaskCreateOnly at h
  dsimp only at h
  rw [heq1] at h
  simp only [Option.bind_eq_bind, Option.bind_some] at h
  split at h
  · simp only [Option.some.injEq, Prod.mk.injEq] at h
    rw [← h.1]
    exact sliceKept_refl k
  split at h
  · simp only [Option.some.injEq, Prod.mk.injEq] at h
    rw [← h.1]
    exact sliceKept_refl k
  split at h
  · simp only [Option.some.injEq, Prod.mk.injEq] at h
    rw [← h.1]
    exact h1
  rw [Option.bind_eq_some_iff] at h
  obtain ⟨t, _, h⟩ := h
  have hlist : SliceKept k1 (losListDelete k1 (losDlListFirst k1 .gLosFreeTask)) :=
    sliceKept_of_tasks rfl rfl
  split at h
  · simp only [Option.some.injEq, Prod.mk.injEq] at h
    rw [← h.1]
    exact h1.trans (hlist.trans (sliceKept_of_tasks rfl rfl))
  · simp only [Option.some.injEq, Prod.mk.injEq] at h
    rw [← h.1]
    exact (h1.trans hlist).trans (sliceKept_modifyTask _ t
      ⟨rfl, fun _ => rfl, .inr ⟨le_refl _, hc.slices⟩⟩)

theorem sliceKept_create (hc : SliceConfigOk) (hi : KernelInv k V) {taskID topOfStack : Bool}
    {param : Option TskInitParam} {r : Errno} {o : Option Nat}
    (h : losTaskCreate k taskID param topOfStack = some (k', r, o)) : SliceKept k k' := by
  unfold losTaskCreate at h
  rw [Option.bind_eq_bind, Option.bind_eq_some_iff] at h
  obtain ⟨⟨k1, r1, o1⟩, heq, h⟩ := h
  have h1 := sliceKept_createOnly hc hi heq
  dsimp only at h
  split at h
  · simp only [Option.some.injEq, Prod.mk.injEq] at h
    rw [← h.1]
    exact h1
  · simp only [Option.bind_eq_bind, Option.bind_eq_some_iff, Option.some.injEq, Prod.mk.injEq] at h
    obtain ⟨k2, henq, rfl, _⟩ := h
    exact sliceKept_asked _ (h1.trans (sliceKept_enQueue hc henq))

theorem sliceKept_resume (hc : SliceConfigOk) {r : Errno} (h : losTaskResume k t = some (k', r)) :
    SliceKept k k' := by
  have hsame : ∀ r' : Errno, some (k, r') = some (k', r) → SliceKept k k' := by
    intro r' h
    simp only [Option.some.injEq, Prod.mk.injEq] at h
    rw [h.1]
    exact sliceKept_refl k'
  unfold losTaskResume at h
  split at h
  · exact hsame _ h
  split at h
  · exact hsame _ h
  split at h
  · exact hsame _ h
  have h1 := sliceKept_status k t (f := fun s => { s with suspend := false }) fun _ h => h
  dsimp only at h
  split at h
  · simp only [Option.bind_eq_bind, Option.bind_eq_some_iff, Option.some.injEq, Prod.mk.injEq] at h
    obtain ⟨k2, henq, rfl, _⟩ := h
    exact sliceKept_asked _ (h1.trans (sliceKept_enQueue hc henq))
  · simp only [Option.some.injEq, Prod.mk.injEq] at h
    rw [← h.1]
    exact h1

theorem sliceKept_suspend {r : Errno} (h : losTaskSuspend k t = some (k', r)) : SliceKept k k' := by
  have hsame : ∀ r' : Errno, some (k, r') = some (k', r) → SliceKept k k' := by
    intro r' h
    simp only [Option.some.injEq, Prod.mk.injEq] at h
    rw [h.1]
    exact sliceKept_refl k'
  unfold losTaskSuspend at h
  dsimp only at h
  split at h
  · exact hsame _ h
  split at h
  · exact hsame _ h
  split at h
  · exact hsame _ h
  split at h
  · exact hsame _ h
  obtain ⟨k1, hk1⟩ : ∃ k1, (if (k.status t).ready = true then osSchedTaskDeQueue k t else k) = k1 :=
    ⟨_, rfl⟩
  have h1 : SliceKept k k1 := by
    rw [← hk1]
    split
    · exact sliceKept_deQueue k t
    · exact sliceKept_refl k
  rw [hk1] at h
  have h2 := h1.trans (sliceKept_status k1 t (f := fun s => { s with suspend := true }) fun _ h => h)
  split at h
  · simp only [Option.some.injEq, Prod.mk.injEq] at h
    rw [← h.1]
    exact h2.trans (sliceKept_losSchedule _)
  · simp only [Option.some.injEq, Prod.mk.injEq] at h
    rw [← h.1]
    exact h2

/-- The stand-in of a task that deletes itself keeps the start time of its last turn. -/
theorem sliceKept_delete {r : Errno} (h : losTaskDelete k t = some (k', r)) : SliceKept k k' := by
  have hsame : ∀ r' : Errno, some (k, r') = some (k', r) → SliceKept k k' := by
    intro r' h
    simp only [Option.some.injEq, Prod.mk.injEq] at h
    rw [h.1]
    exact sliceKept_refl k'
  unfold losTaskDelete at h
  dsimp only at h
  split at h
  · exact hsame _ h
  split at h
  · exact hsame _ h
  obtain ⟨k1, hk1⟩ : ∃ k1, (if (k.status t).running = true ∧ k.gLosTaskLock ≠ 0 then
      { k with gLosTaskLock := 0 } else k) = k1 := ⟨_, rfl⟩
  have h1 : SliceKept k k1 := by
    rw [← hk1]
    split
    · exact sliceKept_of_tasks rfl rfl
    · exact sliceKept_refl k
  rw [hk1] at h
  have h2 := h1.trans ((sliceKept_exit k1 t).trans
    (sliceKept_status _ t (f := fun _ => osTaskStatusUnused) fun _ h => by cases h))
  split at h
  · simp only [Option.some.injEq, Prod.mk.injEq] at h
    rw [← h.1]
    refine h2.trans (SliceKept.trans ?_ (sliceKept_losSchedule _))
    generalize (osSchedTaskExit k1 t).modifyStatus t (fun _ => osTaskStatusUnused) = k2
    have hlist : SliceKept k2 { losListTailInsert k2 .gTaskRecyleList (.pendList t) with
        runTask := gTaskMaxNum } := sliceKept_of_tasks rfl rfl
    refine hlist.trans ?_
    unfold osRunningTaskDelete
    apply sliceKept_modifyTask
    exact ⟨rfl, fun h => absurd h (Nat.lt_irrefl _), .inl ⟨rfl, fun h => absurd h (Nat.lt_irrefl _)⟩⟩
  · simp only [Option.some.injEq, Prod.mk.injEq] at h
    rw [← h.1]
    exact h2.trans (sliceKept_of_tasks rfl rfl)

theorem sliceKept_yield (hc : SliceConfigOk) (k : KernelState) : SliceKept k (losTaskYield k).1 := by
  have hzero : SliceKept k (osSchedYield k) :=
    sliceKept_modifyTask k k.runTask ⟨rfl, fun _ => rfl, .inr ⟨le_refl _, hc.slices⟩⟩
  exact hzero.trans (sliceKept_losSchedule (osSchedYield k))

theorem sliceKept_delay (hc : SliceConfigOk) (k : KernelState) (tick : Nat) :
    SliceKept k (losTaskDelay k false tick).1 := by
  have hdelay : SliceKept k (osSchedDelay k tick) :=
    (sliceKept_status k k.runTask (f := fun s => { s with delay := true }) fun _ h => h).trans
      (sliceKept_field _ k.runTask (f := fun cb => { cb with waitTimes := tick }) (fun _ => rfl)
        (fun _ => rfl) (fun _ => rfl) fun _ h => h)
  unfold losTaskDelay
  split
  · exact sliceKept_refl k
  split
  · exact sliceKept_refl k
  split
  · exact sliceKept_yield hc k
  · exact hdelay.trans (sliceKept_losSchedule _)

end

end LiteosM.Kernel
