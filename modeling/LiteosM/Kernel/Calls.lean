import LiteosM.Kernel.Switch

/-!
# The task calls

Every call of `los_task.c` keeps `KernelInv`; `Quiet` says what it leaves alone.
-/

namespace LiteosM.Kernel

open LiteosM.Lib.DlList

/-- What the IPC objects see of task `u` is unchanged. -/
structure Kept (k : KernelState) (V : View Node) (k' : KernelState) (V' : View Node) (u : Nat) :
    Prop where
  unused : (k'.gTaskCBArray u).taskStatus.unused = (k.gTaskCBArray u).taskStatus.unused
  pend : (k'.gTaskCBArray u).taskStatus.pend = (k.gTaskCBArray u).taskStatus.pend
  timeout : (k'.gTaskCBArray u).taskStatus.timeout = (k.gTaskCBArray u).taskStatus.timeout
  priority : (k'.gTaskCBArray u).priority = (k.gTaskCBArray u).priority
  taskMux : (k'.gTaskCBArray u).taskMux = (k.gTaskCBArray u).taskMux
  place : ∀ w, V'.role (.pendList u) = .member (.wait w) ↔ V.role (.pendList u) = .member (.wait w)

section

variable {k k' k'' : KernelState} {V V' V'' : View Node} {u : Nat}

theorem Kept.refl (k : KernelState) (V : View Node) (u : Nat) : Kept k V k V u :=
  ⟨rfl, rfl, rfl, rfl, rfl, fun _ => Iff.rfl⟩

theorem Kept.trans (h₁ : Kept k V k' V' u) (h₂ : Kept k' V' k'' V'' u) : Kept k V k'' V'' u :=
  ⟨h₂.unused.trans h₁.unused, h₂.pend.trans h₁.pend, h₂.timeout.trans h₁.timeout,
    h₂.priority.trans h₁.priority, h₂.taskMux.trans h₁.taskMux,
    fun w => (h₂.place w).trans (h₁.place w)⟩

end

variable [Config]

/-- Nobody joins a wait list, and only the tasks in `x` are looked at. -/
structure Quiet (x : Nat → Prop) (k : KernelState) (V : View Node) (k' : KernelState)
    (V' : View Node) : Prop where
  gIdleTaskID : k'.gIdleTaskID = k.gIdleTaskID
  gTaskScheduled : k'.gTaskScheduled = k.gTaskScheduled
  role : ∀ y, (∀ t, y ≠ .pendList t) → (∀ t, y ≠ .sortLinkNode t) → V'.role y = V.role y
  wait : ∀ l, (V'.content (.wait l)).Sublist (V.content (.wait l))
  kept : ∀ u < gTaskMaxNum, ¬ x u → Kept k V k' V' u

section

variable {x y : Nat → Prop} {k k' k'' : KernelState} {V V' V'' : View Node} {t u : Nat}

theorem Quiet.refl (x : Nat → Prop) (k : KernelState) (V : View Node) : Quiet x k V k V :=
  ⟨rfl, rfl, fun _ _ _ => rfl, fun _ => List.Sublist.refl _, fun u _ _ => Kept.refl k V u⟩

theorem Quiet.trans (h₁ : Quiet x k V k' V') (h₂ : Quiet x k' V' k'' V'') : Quiet x k V k'' V'' :=
  ⟨h₂.gIdleTaskID.trans h₁.gIdleTaskID, h₂.gTaskScheduled.trans h₁.gTaskScheduled,
    fun z hp hs => (h₂.role z hp hs).trans (h₁.role z hp hs),
    fun l => (h₂.wait l).trans (h₁.wait l),
    fun u hu hx => (h₁.kept u hu hx).trans (h₂.kept u hu hx)⟩

theorem Quiet.mono (h : Quiet x k V k' V') (hxy : ∀ u, x u → y u) : Quiet y k V k' V' :=
  ⟨h.gIdleTaskID, h.gTaskScheduled, h.role, h.wait,
    fun u hu hy => h.kept u hu fun hx => hy (hxy u hx)⟩

theorem Moved.quiet (hm : Moved t k V k' V') : Quiet (· = t) k V k' V' := by
  refine ⟨hm.gIdleTaskID, hm.gTaskScheduled, fun z hp hs => hm.role z (hp t) (hs t), hm.wait,
    fun u _ hu => ?_⟩
  have hcb := hm.task u hu
  have hpl := hm.role (.pendList u) (by simpa using hu) (by simp)
  exact ⟨by rw [hcb], by rw [hcb], by rw [hcb], by rw [hcb], by rw [hcb], fun w => by rw [hpl]⟩

theorem Moved.quiet_kept (hm : Moved t k V k' V') (hk : Kept k V k' V' t) :
    Quiet (fun _ => False) k V k' V' := by
  have hq := hm.quiet
  refine ⟨hq.gIdleTaskID, hq.gTaskScheduled, hq.role, hq.wait, fun u hu _ => ?_⟩
  by_cases hut : u = t
  · rw [hut]
    exact hk
  · exact hq.kept u hu hut

theorem Scanned.quiet (hs : Scanned k V k' V') : Quiet (TimedOut k k' V') k V k' V' := by
  refine ⟨hs.gIdleTaskID, hs.gTaskScheduled, hs.role, hs.wait, fun u _ hu => ?_⟩
  rcases hs.task u with ⟨hcb, hpl⟩ | hout
  · exact ⟨by rw [hcb], by rw [hcb], by rw [hcb], by rw [hcb], by rw [hcb], fun w => by rw [hpl]⟩
  · exact absurd hout hu

theorem Quiet.congr (hq : Quiet x k V k' V') (ht : k''.gTaskCBArray = k'.gTaskCBArray)
    (hi : k''.gIdleTaskID = k'.gIdleTaskID) (hs : k''.gTaskScheduled = k'.gTaskScheduled) :
    Quiet x k V k'' V' := by
  refine ⟨hi.trans hq.gIdleTaskID, hs.trans hq.gTaskScheduled, hq.role, hq.wait, fun u hu hx => ?_⟩
  obtain ⟨h1, h2, h3, h4, h5, h6⟩ := hq.kept u hu hx
  exact ⟨by rw [ht]; exact h1, by rw [ht]; exact h2, by rw [ht]; exact h3, by rw [ht]; exact h4,
    by rw [ht]; exact h5, h6⟩

def Shelved (k : KernelState) (V V' : View Node) : Prop :=
  ∀ u < gTaskMaxNum, (k.gTaskCBArray u).taskStatus.unused = true →
    V'.role (.pendList u) = V.role (.pendList u)

theorem Shelved.refl (k : KernelState) (V : View Node) : Shelved k V V := fun _ _ _ => rfl

theorem Moved.shelved (hm : Moved t k V k' V')
    (hlive : t < gTaskMaxNum → (k.gTaskCBArray t).taskStatus.unused = false) : Shelved k V V' := by
  intro u hu hunused
  have hut : u ≠ t := by
    rintro rfl
    rw [hlive hu] at hunused
    cases hunused
  exact hm.role _ (by simpa using hut) (by simp)

omit [Config] in
theorem losSchedule_eq (k : KernelState) : ∃ b, losSchedule k = { k with pendSV := b } := by
  unfold losSchedule
  split
  · exact ⟨true, rfl⟩
  · exact ⟨k.pendSV, rfl⟩

theorem KernelInv.losSchedule (hi : KernelInv k V) : KernelInv (losSchedule k) V := by
  obtain ⟨b, hb⟩ := losSchedule_eq k
  rw [hb]
  exact hi.congr rfl rfl rfl rfl rfl rfl (Nat.le_refl _)

theorem Quiet.losSchedule (hq : Quiet x k V k' V') : Quiet x k V (losSchedule k') V' := by
  obtain ⟨b, hb⟩ := losSchedule_eq k'
  rw [hb]
  exact hq.congr rfl rfl rfl

omit [Config] in
theorem losSchedule_runTask (k : KernelState) : (losSchedule k).runTask = k.runTask := by
  obtain ⟨b, hb⟩ := losSchedule_eq k
  rw [hb]

/-- Outside the window between a request for a switch and the switch, the running task neither
waits nor has been stopped. -/
structure Settled (k : KernelState) : Prop where
  run : k.gTaskScheduled → k.pendSV = false →
    k.runTask < gTaskMaxNum ∧ Clean (k.gTaskCBArray k.runTask).taskStatus
  boot : k.gTaskScheduled = false → k.runTask = gTaskMaxNum
  request : k.pendSV → k.gTaskScheduled

theorem Settled.of_steady (hs : Settled k) (hk : Steady k k')
    (hcb : k.gTaskScheduled → k.pendSV = false →
      (k'.gTaskCBArray k.runTask).taskStatus = (k.gTaskCBArray k.runTask).taskStatus) : Settled k' := by
  obtain ⟨h1, h2, h3⟩ := hs
  refine ⟨?_, ?_, ?_⟩
  · rw [hk.gTaskScheduled, hk.pendSV, hk.runTask]
    intro hsched hpend
    rw [hcb hsched hpend]
    exact h1 hsched hpend
  · rw [hk.gTaskScheduled, hk.runTask]
    exact h2
  · rw [hk.gTaskScheduled, hk.pendSV]
    exact h3

theorem Settled.moved (hs : Settled k) (hm : Moved t k V k' V')
    (ht : k.gTaskScheduled → k.pendSV = false → k.runTask ≠ t) : Settled k' :=
  hs.of_steady hm.toSteady fun hsched hpend => by rw [hm.task _ (ht hsched hpend)]

omit [Config] in
theorem losSchedule_request (hsched : k.gTaskScheduled) (hlock : k.gLosTaskLock = 0) :
    (losSchedule k).pendSV = true := by
  unfold losSchedule
  rw [if_pos (by simp [hsched, hlock])]
  rfl

theorem Settled.losSchedule (hs : Settled k) : Settled (losSchedule k) := by
  unfold Kernel.losSchedule
  split
  · next h =>
    rw [Bool.and_eq_true] at h
    refine ⟨fun _ h' => ?_, hs.boot, fun _ => h.1⟩
    cases h'
  · exact hs

/-- A request for a switch settles whatever the running task has done to itself. -/
theorem settled_losSchedule (hk : Steady k k') (hsched : k.gTaskScheduled)
    (hlock : k.gLosTaskLock = 0) : Settled (Kernel.losSchedule k') := by
  have hreq := losSchedule_request (k := k') (by rw [hk.gTaskScheduled]; exact hsched)
    (by rw [hk.gLosTaskLock]; exact hlock)
  obtain ⟨b, hb⟩ := losSchedule_eq k'
  rw [hb] at hreq ⊢
  refine ⟨fun _ h => ?_, fun h => ?_, fun _ => ?_⟩
  · rw [hreq] at h
    cases h
  · have h' := hk.gTaskScheduled
    rw [show k'.gTaskScheduled = false from h, hsched] at h'
    cases h'
  · rw [← hk.gTaskScheduled] at hsched
    exact hsched

theorem osTaskInitParamCheck_prio {param : Option TskInitParam}
    (h : osTaskInitParamCheck param = .losOk) :
    (param.map TskInitParam.usTaskPrio).getD 0 < 32 := by
  cases param with
  | none => cases h
  | some p =>
    show p.usTaskPrio < 32
    by_contra hp
    unfold osTaskInitParamCheck at h
    dsimp only at h
    split at h
    · cases h
    · split at h
      · cases h
      · rw [if_pos (show osTaskPriorityLowest < p.usTaskPrio from by
          unfold osTaskPriorityLowest
          omega)] at h
        cases h

theorem osCheckTaskIDValid_ok (h : osCheckTaskIDValid k t = .losOk) :
    t ≠ k.gIdleTaskID ∧ t < gTaskMaxNum := by
  unfold osCheckTaskIDValid at h
  split at h
  · cases h
  · next hne =>
    split at h
    · cases h
    · split at h
      · cases h
      · next hlt => exact ⟨hne, Nat.lt_of_not_le hlt⟩

theorem losTaskYield_spec (hi : KernelInv k V) :
    KernelInv (losTaskYield k).1 V ∧ Quiet (fun _ => False) k V (losTaskYield k).1 V ∧
      (losTaskYield k).1.runTask = k.runTask ∧ (Settled k → Settled (losTaskYield k).1) := by
  have hm : Moved k.runTask k V (osSchedYield k) V := Moved.modifyTask k.runTask k V _
  have hinv : KernelInv (osSchedYield k) V :=
    hi.modify k.runTask _ rfl rfl (hi.startTime hi.run) rfl rfl
  have hk : Kept k V (osSchedYield k) V k.runTask := by
    unfold osSchedYield
    constructor <;> simp
  refine ⟨hinv.losSchedule, (hm.quiet_kept hk).losSchedule, losSchedule_runTask _, fun hs => ?_⟩
  have hs' : Settled (osSchedYield k) := hs.of_steady hm.toSteady fun _ _ => by
    unfold osSchedYield
    rw [modifyTask_self]
  exact hs'.losSchedule

/-- The caller of a call that blocks. -/
structure Caller (k : KernelState) : Prop where
  bound : k.runTask < gTaskMaxNum
  idle : k.runTask ≠ k.gIdleTaskID
  clean : Clean (k.gTaskCBArray k.runTask).taskStatus

theorem losTaskDelay_spec (hi : KernelInv k V) (hcaller : Caller k) (hsched : k.gTaskScheduled)
    (intActive : Bool) (tick : Nat) :
    KernelInv (losTaskDelay k intActive tick).1 V ∧
      Quiet (fun _ => False) k V (losTaskDelay k intActive tick).1 V ∧
      (losTaskDelay k intActive tick).1.runTask = k.runTask ∧
      (Settled k → Settled (losTaskDelay k intActive tick).1) := by
  unfold losTaskDelay
  split
  · exact ⟨hi, Quiet.refl _ k V, rfl, id⟩
  · split
    · exact ⟨hi, Quiet.refl _ k V, rfl, id⟩
    · next hlock =>
      split
      · exact losTaskYield_spec hi
      · obtain ⟨hinv, hm, _⟩ := osSchedDelay_spec hi hcaller.bound hcaller.idle hcaller.clean tick
        have hk : Kept k V (osSchedDelay k tick) V k.runTask := by
          unfold osSchedDelay
          constructor <;> simp
        exact ⟨hinv.losSchedule, (hm.quiet_kept hk).losSchedule,
          (losSchedule_runTask _).trans hm.runTask,
          fun _ => settled_losSchedule hm.toSteady hsched (not_not.mp hlock)⟩

theorem losTaskPriSet_spec (hi : KernelInv k V) (taskID taskPrio : Nat) :
    ∃ k' V' r, losTaskPriSet k taskID taskPrio = some (k', r) ∧ KernelInv k' V' ∧
      Quiet (· = taskID) k V k' V' ∧ k'.runTask = k.runTask ∧ (Settled k → Settled k') ∧
      (k'.gTaskCBArray taskID).taskStatus = (k.gTaskCBArray taskID).taskStatus ∧
      (∀ w, V'.role (.pendList taskID) = .member (.wait w) ↔
        V.role (.pendList taskID) = .member (.wait w)) ∧ Shelved k V V' := by
  have herr : ∀ r : Errno, ∃ k' V' r', (some (k, r) : Option (KernelState × Errno)) = some (k', r') ∧
      KernelInv k' V' ∧ Quiet (· = taskID) k V k' V' ∧ k'.runTask = k.runTask ∧
      (Settled k → Settled k') ∧ (k'.gTaskCBArray taskID).taskStatus = (k.gTaskCBArray taskID).taskStatus ∧
      (∀ w, V'.role (.pendList taskID) = .member (.wait w) ↔
        V.role (.pendList taskID) = .member (.wait w)) ∧ Shelved k V V' :=
    fun r => ⟨k, V, r, rfl, hi, Quiet.refl _ k V, rfl, id, rfl, fun _ => Iff.rfl, Shelved.refl k V⟩
  unfold losTaskPriSet
  by_cases hp : osTaskPriorityLowest < taskPrio
  · rw [if_pos hp]
    exact herr _
  rw [if_neg hp]
  split
  · exact herr _
  split
  · exact herr _
  by_cases hmax : gTaskMaxNum ≤ taskID
  · rw [if_pos hmax]
    exact herr _
  rw [if_neg hmax]
  split
  · exact herr _
  rename_i hused
  have hlive : taskID < gTaskMaxNum → (k.gTaskCBArray taskID).taskStatus.unused = false := fun _ => by
    rw [← Bool.not_eq_true]
    exact hused
  have hprio : taskPrio < 32 := by
    unfold osTaskPriorityLowest at hp
    omega
  obtain ⟨k', V', b, heq, hi', hm', hs', _, _, hw'⟩ :=
    osSchedModifyTaskSchedParam_spec hi (Nat.lt_of_not_le hmax) hprio
  rw [heq]
  simp only [Option.bind_eq_bind, Option.bind_some]
  have hset : Settled k → Settled k' := fun hs => hs.of_steady hm'.toSteady fun _ _ => by
    by_cases hrun : k.runTask = taskID
    · rw [hrun, hs']
    · rw [hm'.task _ hrun]
  cases b with
  | false => exact ⟨k', V', _, rfl, hi', hm'.quiet, hm'.runTask, hset, hs', hw', hm'.shelved hlive⟩
  | true =>
    obtain ⟨b, hb⟩ := losSchedule_eq k'
    refine ⟨_, V', _, rfl, hi'.losSchedule, hm'.quiet.losSchedule,
      (losSchedule_runTask k').trans hm'.runTask, fun hs => (hset hs).losSchedule, ?_, hw',
      hm'.shelved hlive⟩
    rw [if_pos rfl, hb]
    exact hs'

omit [Config] in
/-- What a change of the `SUSPEND` bit of `t` must respect; the other bits stay. -/
theorem TaskOk.resuspend (ho : TaskOk k V t) (hm : Moved t k V k' V') {s : TaskStatus}
    (hcb : k'.gTaskCBArray t = { k.gTaskCBArray t with taskStatus := s })
    (hrole : ∀ x, V'.role x = V.role x) (hne : t ≠ k.gIdleTaskID) (hflags : Consistent s)
    (h1 : s.unused = (k.gTaskCBArray t).taskStatus.unused)
    (h2 : s.ready = (k.gTaskCBArray t).taskStatus.ready)
    (h3 : s.pend = (k.gTaskCBArray t).taskStatus.pend)
    (h4 : s.delay = (k.gTaskCBArray t).taskStatus.delay)
    (h5 : s.pendTime = (k.gTaskCBArray t).taskStatus.pendTime)
    (h6 : s.running = (k.gTaskCBArray t).taskStatus.running) : TaskOk k' V' t := by
  constructor <;> simp only [hcb, hrole, hm.runTask, hm.gIdleTaskID, hm.now, h1, h2, h3, h4, h5, h6]
  case id => exact ho.id
  case priority => exact ho.priority
  case startTime => exact ho.startTime
  case flags => exact hflags
  case running => exact ho.running
  case live => exact ho.live
  case idle => exact fun h => absurd h hne
  case free => exact ho.free
  case queued => exact ho.queued
  case blocked => exact ho.blocked
  case off => exact ho.off
  case timed => exact ho.timed
  case untimed => exact ho.untimed
  case response => exact ho.response

theorem losTaskResume_spec (hi : KernelInv k V) (taskID : Nat) :
    ∃ k' V' r, losTaskResume k taskID = some (k', r) ∧ KernelInv k' V' ∧
      Quiet (fun _ => False) k V k' V' ∧ k'.runTask = k.runTask ∧ (Settled k → Settled k') ∧
      Shelved k V V' := by
  have herr : ∀ r : Errno, ∃ k' V' r', (some (k, r) : Option (KernelState × Errno)) = some (k', r') ∧
      KernelInv k' V' ∧ Quiet (fun _ => False) k V k' V' ∧ k'.runTask = k.runTask ∧
      (Settled k → Settled k') ∧ Shelved k V V' :=
    fun r => ⟨k, V, r, rfl, hi, Quiet.refl _ k V, rfl, id, Shelved.refl k V⟩
  unfold losTaskResume
  by_cases hmax : Config.tskLimit < taskID
  · rw [if_pos hmax]
    exact herr _
  rw [if_neg hmax]
  by_cases hunused : (k.gTaskCBArray taskID).taskStatus.unused = true
  · rw [if_pos (show (k.status taskID).unused = true from hunused)]
    exact herr _
  rw [if_neg (show ¬ (k.status taskID).unused = true from hunused)]
  by_cases hsusp : (k.gTaskCBArray taskID).taskStatus.suspend = true
  · rw [if_neg (by simp [KernelState.status, hsusp])]
    have ht : taskID < gTaskMaxNum := by
      unfold gTaskMaxNum
      omega
    have ho := hi.task taskID ht
    rw [Bool.not_eq_true] at hunused
    have hnready : (k.gTaskCBArray taskID).taskStatus.ready = false := by
      cases h : (k.gTaskCBArray taskID).taskStatus.ready with
      | false => rfl
      | true =>
        have h' := (ho.flags.ready h).1
        rw [hsusp] at h'
        cases h'
    have hne : taskID ≠ k.gIdleTaskID := by
      intro he
      have h := (ho.idle he).2.1
      rw [hsusp] at h
      cases h
    -- the running task is not suspended unless its switch is pending
    have hset : ∀ k' V', Moved taskID k V k' V' → Settled k → Settled k' := by
      intro k' V' hm hs
      refine hs.moved hm fun hsched hpend he => ?_
      have h := (hs.run hsched hpend).2.suspend
      rw [he, hsusp] at h
      cases h
    have hm : Moved taskID k V (k.modifyStatus taskID fun s => { s with suspend := false }) V :=
      Moved.modifyTask _ _ _ _
    have hc : Core (k.modifyStatus taskID fun s => { s with suspend := false }) V :=
      hi.core.modifyTask _ _
    have hcb := modifyStatus_self k taskID fun s => { s with suspend := false }
    generalize (k.modifyStatus taskID fun s => { s with suspend := false }) = k1 at hm hc hcb ⊢
    dsimp only at hcb ⊢
    rw [show k1.status taskID = { (k.gTaskCBArray taskID).taskStatus with suspend := false } by
      rw [KernelState.status, hcb]]
    dsimp only
    by_cases hwait : (!((k.gTaskCBArray taskID).taskStatus.delay ||
        (k.gTaskCBArray taskID).taskStatus.pend || false)) = true
    · rw [if_pos hwait]
      simp only [Bool.or_false, Bool.not_eq_true', Bool.or_eq_false_iff] at hwait
      obtain ⟨hdelay, hpend⟩ := hwait
      have htime : (k.gTaskCBArray taskID).taskStatus.pendTime = false := by
        cases h : (k.gTaskCBArray taskID).taskStatus.pendTime with
        | false => rfl
        | true =>
          have h' := ho.flags.pendTime h
          rw [hpend] at h'
          cases h'
      have hpl := ho.off hunused (fun h => by simp [hnready] at h) hpend
      have hsl := ho.untimed (by simp [hdelay, htime])
      obtain ⟨k', V', slice, heq, hi', hm', hcb', hpl', -⟩ := hi.enqueue ht hm hc
        (by rw [hcb]; exact ho.id) (by rw [hcb]; exact ho.priority) (by rw [hcb]; exact ho.startTime)
        (by rw [hcb]; exact ho.running) (by rw [hcb]; exact hunused) (by rw [hcb]; exact hnready)
        (by rw [hcb]; exact (ho.response hunused).mpr hsl) hpl hsl
      have hk : Kept k V k' V' taskID := by
        refine ⟨?_, ?_, ?_, ?_, ?_, fun w => ?_⟩
        · rw [hcb', hcb]
          rfl
        · rw [hcb', hcb, hpend]
          rfl
        · rw [hcb', hcb]
          rfl
        · rw [hcb', hcb]
        · rw [hcb', hcb]
        · rw [hpl, hpl']
          refine iff_of_false (fun h => ?_) (by simp)
          split at h <;> simp at h
      rw [heq]
      simp only [Option.bind_eq_bind, Option.bind_some]
      split
      · exact ⟨_, V', _, rfl, hi'.losSchedule, (hm'.quiet_kept hk).losSchedule,
          (losSchedule_runTask k').trans hm'.runTask, fun hs => (hset k' V' hm' hs).losSchedule,
          hm'.shelved fun _ => hunused⟩
      · exact ⟨_, V', _, rfl, hi', hm'.quiet_kept hk, hm'.runTask, hset k' V' hm',
          hm'.shelved fun _ => hunused⟩
    · rw [if_neg hwait]
      have hsome : (k.gTaskCBArray taskID).taskStatus.pend = true ∨
          (k.gTaskCBArray taskID).taskStatus.delay = true := by
        simp only [Bool.or_false, Bool.not_eq_true', Bool.not_eq_false, Bool.or_eq_true] at hwait
        exact hwait.symm
      have hk : Kept k V k1 V taskID :=
        ⟨by rw [hcb], by rw [hcb], by rw [hcb], by rw [hcb], by rw [hcb], fun _ => Iff.rfl⟩
      refine ⟨k1, V, _, rfl, hi.touched ht hm.toTouched hc (ho.resuspend hm hcb (fun _ => rfl) hne ?_ rfl
        rfl rfl rfl rfl rfl), hm.quiet_kept hk, hm.runTask, hset k1 V hm, Shelved.refl k V⟩
      obtain ⟨f1, f2, f3, f4, _⟩ := ho.flags
      refine ⟨fun h => ?_, fun h => ?_, f3, f4, ?_⟩
      · rw [show ({ (k.gTaskCBArray taskID).taskStatus with suspend := false } : TaskStatus).unused =
          false from hunused] at h
        cases h
      · rw [show ({ (k.gTaskCBArray taskID).taskStatus with suspend := false } : TaskStatus).ready =
          false from hnready] at h
        cases h
      · rcases hsome with h | h
        · exact .inr (.inr (.inr (.inr (.inl h))))
        · exact .inr (.inr (.inr (.inr (.inr h))))
  · rw [if_pos (by simp [KernelState.status, hsusp])]
    exact herr _

theorem losTaskSuspend_spec (hi : KernelInv k V) (taskID : Nat) :
    ∃ k' V' r, losTaskSuspend k taskID = some (k', r) ∧ KernelInv k' V' ∧
      Quiet (fun _ => False) k V k' V' ∧ k'.runTask = k.runTask ∧ (Settled k → Settled k') ∧
      Shelved k V V' := by
  have herr : ∀ r : Errno, ∃ k' V' r', (some (k, r) : Option (KernelState × Errno)) = some (k', r') ∧
      KernelInv k' V' ∧ Quiet (fun _ => False) k V k' V' ∧ k'.runTask = k.runTask ∧
      (Settled k → Settled k') ∧ Shelved k V V' :=
    fun r => ⟨k, V, r, rfl, hi, Quiet.refl _ k V, rfl, id, Shelved.refl k V⟩
  unfold losTaskSuspend
  dsimp only
  by_cases hret : osCheckTaskIDValid k taskID ≠ .losOk
  · rw [if_pos hret]
    exact herr _
  rw [if_neg hret]
  by_cases hunused : (k.gTaskCBArray taskID).taskStatus.unused = true
  · rw [if_pos (show (k.status taskID).unused = true from hunused)]
    exact herr _
  rw [if_neg (show ¬ (k.status taskID).unused = true from hunused)]
  split
  · exact herr _
  by_cases hlock : (k.status taskID).running = true ∧ k.gLosTaskLock ≠ 0
  · rw [if_pos hlock]
    exact herr _
  rw [if_neg hlock]
  rw [Bool.not_eq_true] at hunused
  obtain ⟨hne, ht⟩ := osCheckTaskIDValid_ok (not_not.mp hret)
  have ho := hi.task taskID ht
  -- off the ready queue
  obtain ⟨k1, V1, hk1, hc1, hm1, s1, hcb1, hs1, hpl1, hsl1⟩ : ∃ k1 V1,
      (if (k.status taskID).ready then osSchedTaskDeQueue k taskID else k) = k1 ∧ Core k1 V1 ∧
      Moved taskID k V k1 V1 ∧ ∃ s, k1.gTaskCBArray taskID = { k.gTaskCBArray taskID with
        taskStatus := s } ∧ s = { (k.gTaskCBArray taskID).taskStatus with ready := false } ∧
      V1.role (.pendList taskID) = (if (k.gTaskCBArray taskID).taskStatus.ready then .loose
        else V.role (.pendList taskID)) ∧
      V1.role (.sortLinkNode taskID) = V.role (.sortLinkNode taskID) := by
    unfold KernelState.status
    cases hr : (k.gTaskCBArray taskID).taskStatus.ready with
    | true =>
      rw [if_pos rfl]
      obtain ⟨V1, hc, hm, hcb, hpl, hsl⟩ := osSchedTaskDeQueue_spec hi.core ho.id ho.priority ho.queued
      rw [if_pos ⟨hr, hne⟩] at hpl
      exact ⟨_, V1, rfl, hc, hm, _, hcb, rfl, hpl, hsl⟩
    | false =>
      rw [if_neg (by simp)]
      refine ⟨k, V, rfl, hi.core, Moved.refl _ k V, _, rfl, ?_, rfl, rfl⟩
      rw [← hr]
  rw [hk1]
  have hm2 : Moved taskID k V (k1.modifyStatus taskID fun s => { s with suspend := true }) V1 :=
    hm1.trans (Moved.modifyTask _ _ _ _)
  have hc2 : Core (k1.modifyStatus taskID fun s => { s with suspend := true }) V1 :=
    hc1.modifyTask _ _
  have hcb2 : (k1.modifyStatus taskID fun s => { s with suspend := true }).gTaskCBArray taskID =
      { k.gTaskCBArray taskID with taskStatus :=
        { (k.gTaskCBArray taskID).taskStatus with ready := false, suspend := true } } := by
    rw [modifyStatus_self, hcb1, hs1]
  generalize (k1.modifyStatus taskID fun s => { s with suspend := true }) = k2 at hm2 hc2 hcb2 ⊢
  have hplace : ∀ w, V1.role (.pendList taskID) = .member (.wait w) ↔
      V.role (.pendList taskID) = .member (.wait w) := by
    intro w
    rw [hpl1]
    split
    · next h =>
      rw [ho.queued h hne]
      simp
    · exact Iff.rfl
  have hk : Kept k V k2 V1 taskID :=
    ⟨by rw [hcb2], by rw [hcb2], by rw [hcb2], by rw [hcb2], by rw [hcb2], hplace⟩
  have hi2 : KernelInv k2 V1 := by
    refine hi.touched ht hm2.toTouched hc2 ?_
    constructor <;> simp only [hcb2, hsl1, hm2.runTask, hm2.gIdleTaskID, hm2.now]
    case id => exact ho.id
    case priority => exact ho.priority
    case startTime => exact ho.startTime
    case flags =>
      obtain ⟨f1, f2, f3, f4, _⟩ := ho.flags
      exact ⟨fun h => by simp [hunused] at h, fun h => by simp at h, f3, f4,
        .inr (.inr (.inr (.inl rfl)))⟩
    case running => exact ho.running
    case live => exact ho.live
    case idle => exact fun h => absurd h hne
    case free => intro h; simp [hunused] at h
    case queued => intro h; cases h
    case blocked =>
      intro h
      obtain ⟨l, hl⟩ := ho.blocked h
      exact ⟨l, (hplace l).mpr hl⟩
    case off =>
      intro _ _ hpend
      rw [hpl1]
      split
      · rfl
      · next h => exact ho.off hunused (fun h' => absurd h' h) hpend
    case timed => exact ho.timed
    case untimed => exact ho.untimed
    case response => exact ho.response
  by_cases hself : taskID = (k2.gTaskCBArray k2.runTask).taskID
  · rw [if_pos hself]
    refine ⟨_, V1, _, rfl, hi2.losSchedule, (hm2.quiet_kept hk).losSchedule,
      (losSchedule_runTask k2).trans hm2.runTask, fun hs => ?_, hm2.shelved fun _ => hunused⟩
    by_cases hrun : taskID = k.runTask
    · have hl0 : k.gLosTaskLock = 0 := by
        by_contra hne0
        exact hlock ⟨ho.running.mpr hrun, hne0⟩
      cases hsched : k.gTaskScheduled with
      | true => exact settled_losSchedule hm2.toSteady hsched hl0
      | false =>
        have hb := hs.boot hsched
        omega
    · exact (hs.moved hm2 fun _ _ h => hrun h.symm).losSchedule
  · rw [if_neg hself]
    refine ⟨_, V1, _, rfl, hi2, hm2.quiet_kept hk, hm2.runTask, fun hs => hs.moved hm2 fun _ _ h => ?_,
      hm2.shelved fun _ => hunused⟩
    apply hself
    rw [hm2.runTask, h, hcb2]
    exact ho.id.symm

/-- The outcome of `LOS_TaskDelete` when it does not return an error. -/
structure Deleted (k k' : KernelState) (V' : View Node) (t : Nat) : Prop where
  bound : t < gTaskMaxNum
  idle : t ≠ k.gIdleTaskID
  live : (k.gTaskCBArray t).taskStatus.unused = false
  status : (k'.gTaskCBArray t).taskStatus = osTaskStatusUnused
  gone : ∀ w, V'.role (.pendList t) ≠ .member (.wait w)
  runTask : k'.runTask = if t = k.runTask then gTaskMaxNum else k.runTask

omit [Config] in
theorem unused_consistent (b : Bool) : Consistent { osTaskStatusUnused with running := b } := by
  constructor <;> cases b <;> decide

theorem losTaskDelete_other (hi : KernelInv k V) (ht : t < gTaskMaxNum) (hne : t ≠ k.gIdleTaskID)
    (hrun : t ≠ k.runTask) (hm : Moved t k V k' V') (hc : Core k' V')
    (hpl : V'.role (.pendList t) = .loose) (hsl : V'.role (.sortLinkNode t) = .loose)
    (hid : (k'.gTaskCBArray t).taskID = t) (hp : (k'.gTaskCBArray t).priority < 32)
    (hst : (k'.gTaskCBArray t).startTime ≤ osGetCurrSchedTimeCycle k) :
    ∃ V'', KernelInv (losListAdd (k'.modifyStatus t fun _ => osTaskStatusUnused) .gLosFreeTask
        (.pendList t)) V'' ∧
      Moved t k V (losListAdd (k'.modifyStatus t fun _ => osTaskStatusUnused) .gLosFreeTask
        (.pendList t)) V'' ∧ V''.role (.pendList t) = .member .gLosFreeTask := by
  have hfit : Fits (.pendList t) .gLosFreeTask := ⟨ht, .inl rfl⟩
  have hm' : Moved t k V (losListAdd (k'.modifyStatus t fun _ => osTaskStatusUnused) .gLosFreeTask
      (.pendList t)) (V'.put (.pendList t) .gLosFreeTask (.pendList t :: V'.content .gLosFreeTask)) :=
    (hm.trans (Moved.modifyTask t _ _ _)).trans (Moved.link (.inl rfl) (by simp))
  have hcb : (losListAdd (k'.modifyStatus t fun _ => osTaskStatusUnused) .gLosFreeTask
      (.pendList t)).gTaskCBArray t = { k'.gTaskCBArray t with taskStatus := osTaskStatusUnused } := by
    rw [losListAdd_gTaskCBArray, modifyStatus_self]
  refine ⟨_, hi.touched ht hm'.toTouched (Core.addHead (hc.modifyTask t _) hpl
    (hc.system _ (.inl rfl)) (by simp) hfit) ?_, hm', by simp⟩
  constructor
  case id => rw [hcb]; exact hid
  case priority => rw [hcb]; exact hp
  case startTime => rw [hcb, hm'.now]; exact hst
  case flags => rw [hcb]; exact unused_consistent false
  case running =>
    rw [hcb, hm'.runTask]
    exact iff_of_false Bool.false_ne_true hrun
  case live => rw [hm'.runTask]; exact fun h => absurd h hrun
  case idle => rw [hm'.gIdleTaskID]; exact fun h => absurd h hne
  case free => exact fun _ => .inl (by simp)
  case queued => rw [hcb]; intro h; cases h
  case blocked => rw [hcb]; intro h; cases h
  case off => rw [hcb]; intro h; cases h
  case timed => rw [hcb]; intro h; rcases h with h | h <;> cases h
  case untimed =>
    intro _
    rw [View.put_role, if_neg (by simp)]
    exact hsl
  case response => rw [hcb]; intro h; cases h

/-- A task that deletes itself goes to the recycle list, and the spare block takes its place. -/
theorem losTaskDelete_self (hi : KernelInv k V) (ht : t < gTaskMaxNum) (hne : t ≠ k.gIdleTaskID)
    (hrun : t = k.runTask) (hm : Moved t k V k' V') (hc : Core k' V')
    (hpl : V'.role (.pendList t) = .loose) (hsl : V'.role (.sortLinkNode t) = .loose)
    (hid : (k'.gTaskCBArray t).taskID = t) (hp : (k'.gTaskCBArray t).priority < 32)
    (hst : (k'.gTaskCBArray t).startTime ≤ osGetCurrSchedTimeCycle k) :
    ∃ V'', KernelInv (osRunningTaskDelete (k'.modifyStatus t fun _ => osTaskStatusUnused) t t) V'' ∧
      Quiet (· = t) k V (osRunningTaskDelete (k'.modifyStatus t fun _ => osTaskStatusUnused) t t) V'' ∧
      V''.role (.pendList t) = .member .gTaskRecyleList ∧
      ((osRunningTaskDelete (k'.modifyStatus t fun _ => osTaskStatusUnused) t t).gTaskCBArray
        t).taskStatus = osTaskStatusUnused ∧
      ∀ u, u ≠ t → V''.role (.pendList u) = V.role (.pendList u) := by
  have hfit : Fits (.pendList t) .gTaskRecyleList := ⟨ht, .inr (.inl rfl)⟩
  have hlt : t ≠ gTaskMaxNum := Nat.ne_of_lt ht
  have hm1 : Moved t k V (losListTailInsert (k'.modifyStatus t fun _ => osTaskStatusUnused)
      .gTaskRecyleList (.pendList t)) (V'.put (.pendList t) .gTaskRecyleList
        (V'.content .gTaskRecyleList ++ [.pendList t])) :=
    (hm.trans (Moved.modifyTask t _ _ _)).trans (Moved.link (.inl rfl) (by simp))
  have hc1 : Core (losListTailInsert (k'.modifyStatus t fun _ => osTaskStatusUnused)
      .gTaskRecyleList (.pendList t)) (V'.put (.pendList t) .gTaskRecyleList
        (V'.content .gTaskRecyleList ++ [.pendList t])) :=
    Core.addTail (hc.modifyTask t _) hpl (hc.system _ (.inr (.inl rfl))) (by simp) hfit
  have hcb1 : (losListTailInsert (k'.modifyStatus t fun _ => osTaskStatusUnused)
      .gTaskRecyleList (.pendList t)).gTaskCBArray t =
      { k'.gTaskCBArray t with taskStatus := osTaskStatusUnused } := by
    rw [losListTailInsert_gTaskCBArray, modifyStatus_self]
  have hpl1 : (V'.put (.pendList t) .gTaskRecyleList (V'.content .gTaskRecyleList ++
      [.pendList t])).role (.pendList t) = .member .gTaskRecyleList := by simp
  have hsl1 : (V'.put (.pendList t) .gTaskRecyleList (V'.content .gTaskRecyleList ++
      [.pendList t])).role (.sortLinkNode t) = .loose := by
    rw [View.put_role, if_neg (by simp)]
    exact hsl
  unfold osRunningTaskDelete
  dsimp only
  generalize losListTailInsert (k'.modifyStatus t fun _ => osTaskStatusUnused) .gTaskRecyleList
    (.pendList t) = k1 at hm1 hc1 hcb1 ⊢
  generalize V'.put (.pendList t) .gTaskRecyleList (V'.content .gTaskRecyleList ++
    [.pendList t]) = V1 at hm1 hc1 hpl1 hsl1
  have hstat : ({ k1 with runTask := gTaskMaxNum } : KernelState).status t = osTaskStatusUnused := by
    show (k1.gTaskCBArray t).taskStatus = _
    rw [hcb1]
  rw [hstat]
  have hspare : (({ k1 with runTask := gTaskMaxNum } : KernelState).modifyTask gTaskMaxNum fun cb =>
      { cb with taskID := t, taskStatus := { osTaskStatusUnused with running := true } }).gTaskCBArray
      gTaskMaxNum = { k.gTaskCBArray gTaskMaxNum with
        taskID := t, taskStatus := { osTaskStatusUnused with running := true } } := by
    rw [modifyTask_self]
    show { k1.gTaskCBArray gTaskMaxNum with
      taskID := t, taskStatus := { osTaskStatusUnused with running := true } } = _
    rw [hm1.task _ hlt.symm]
  have hcb : ∀ u, u ≠ gTaskMaxNum → (({ k1 with runTask := gTaskMaxNum } : KernelState).modifyTask
      gTaskMaxNum fun cb => { cb with
        taskID := t, taskStatus := { osTaskStatusUnused with running := true } }).gTaskCBArray u =
      k1.gTaskCBArray u := fun u hu => Function.update_of_ne hu _ _
  have hnow : osGetCurrSchedTimeCycle (({ k1 with runTask := gTaskMaxNum } : KernelState).modifyTask
      gTaskMaxNum fun cb => { cb with
        taskID := t, taskStatus := { osTaskStatusUnused with running := true } }) =
      osGetCurrSchedTimeCycle k := hm1.now
  have hrt : (({ k1 with runTask := gTaskMaxNum } : KernelState).modifyTask gTaskMaxNum fun cb =>
      { cb with taskID := t, taskStatus := { osTaskStatusUnused with running := true } }).runTask =
      gTaskMaxNum := rfl
  have hid1 : (({ k1 with runTask := gTaskMaxNum } : KernelState).modifyTask gTaskMaxNum fun cb =>
      { cb with taskID := t, taskStatus := { osTaskStatusUnused with running := true } }).gIdleTaskID =
      k.gIdleTaskID := hm1.gIdleTaskID
  have hsc1 : (({ k1 with runTask := gTaskMaxNum } : KernelState).modifyTask gTaskMaxNum fun cb =>
      { cb with taskID := t, taskStatus := { osTaskStatusUnused with running := true }
        }).gTaskScheduled = k.gTaskScheduled := hm1.gTaskScheduled
  have hcore : Core (({ k1 with runTask := gTaskMaxNum } : KernelState).modifyTask gTaskMaxNum fun cb =>
      { cb with taskID := t, taskStatus := { osTaskStatusUnused with running := true } }) V1 :=
    hc1.congr rfl rfl
  generalize (({ k1 with runTask := gTaskMaxNum } : KernelState).modifyTask gTaskMaxNum fun cb =>
    { cb with taskID := t, taskStatus := { osTaskStatusUnused with running := true } }) = k2 at *
  refine ⟨V1, ⟨hcore, fun u hu => ?_, ?_, ?_, ?_⟩, ⟨hid1, hsc1, fun y hy hs => hm1.role y (hy t) (hs t),
    hm1.wait, fun u hu hut => ?_⟩, hpl1, ?_, fun u hut => hm1.role _ (by simpa using hut) (by simp)⟩
  · by_cases hut : u = t
    · rw [hut]
      have hcbt := hcb t hlt
      rw [hcb1] at hcbt
      constructor
      case id => rw [hcbt]; exact hid
      case priority => rw [hcbt]; exact hp
      case startTime => rw [hcbt, hnow]; exact hst
      case flags => rw [hcbt]; exact unused_consistent false
      case running => rw [hcbt, hrt]; exact iff_of_false Bool.false_ne_true hlt
      case live => rw [hrt]; exact fun h => absurd h hlt
      case idle => rw [hid1]; exact fun h => absurd h hne
      case free => exact fun _ => .inr hpl1
      case queued => rw [hcbt]; intro h; cases h
      case blocked => rw [hcbt]; intro h; cases h
      case off => rw [hcbt]; intro h; cases h
      case timed => rw [hcbt]; intro h; rcases h with h | h <;> cases h
      case untimed => exact fun _ => hsl1
      case response => rw [hcbt]; intro h; cases h
    · refine (hi.task u hu).congr ((hcb u (Nat.ne_of_lt hu)).trans (hm1.task u hut))
        (hm1.role _ (by simpa using hut) (by simp)) (hm1.role _ (by simp) (by simpa using hut)) ?_
        (by rw [hid1]) hnow.ge
      rw [hrt, ← hrun]
      exact iff_of_false (Nat.ne_of_lt hu) hut
  · refine ⟨?_, ?_, ?_⟩
    · rw [hspare, hnow]
      exact hi.spare.startTime
    · rw [hspare]
      rfl
    · rw [hspare]
      exact unused_consistent true
  · rw [hrt]
  · rw [hsc1, hid1]
    exact hi.idle
  · have hcbu := (hcb u (Nat.ne_of_lt hu)).trans (hm1.task u hut)
    have hplu := hm1.role (.pendList u) (by simpa using hut) (by simp)
    exact ⟨by rw [hcbu], by rw [hcbu], by rw [hcbu], by rw [hcbu], by rw [hcbu], fun w => by rw [hplu]⟩
  · rw [hcb t hlt, hcb1]

theorem losTaskDelete_spec (hi : KernelInv k V) (taskID : Nat) :
    ∃ k' V' r, losTaskDelete k taskID = some (k', r) ∧ KernelInv k' V' ∧
      Quiet (· = taskID) k V k' V' ∧ (Settled k → Settled k') ∧
      ((k' = k ∧ V' = V) ∨ Deleted k k' V' taskID) ∧ Shelved k V V' ∧
      (k' = k ∨ V'.role (.pendList taskID) =
        .member (if taskID = k.runTask then .gTaskRecyleList else .gLosFreeTask)) := by
  have herr : ∀ r : Errno, ∃ k' V' r', (some (k, r) : Option (KernelState × Errno)) = some (k', r') ∧
      KernelInv k' V' ∧ Quiet (· = taskID) k V k' V' ∧ (Settled k → Settled k') ∧
      ((k' = k ∧ V' = V) ∨ Deleted k k' V' taskID) ∧ Shelved k V V' ∧
      (k' = k ∨ V'.role (.pendList taskID) =
        .member (if taskID = k.runTask then .gTaskRecyleList else .gLosFreeTask)) :=
    fun r => ⟨k, V, r, rfl, hi, Quiet.refl _ k V, id, .inl ⟨rfl, rfl⟩, Shelved.refl k V, .inl rfl⟩
  unfold losTaskDelete
  dsimp only
  by_cases hret : osCheckTaskIDValid k taskID ≠ .losOk
  · rw [if_pos hret]
    exact herr _
  rw [if_neg hret]
  by_cases hunused : (k.gTaskCBArray taskID).taskStatus.unused = true
  · rw [if_pos (show (k.status taskID).unused = true from hunused)]
    exact herr _
  rw [if_neg (show ¬ (k.status taskID).unused = true from hunused)]
  rw [Bool.not_eq_true] at hunused
  obtain ⟨hne, ht⟩ := osCheckTaskIDValid_ok (not_not.mp hret)
  -- the scheduler lock of a task that deletes itself is released
  obtain ⟨k0, hk0, hi0, ht0, hr0, hid0, hs0, hp0, hl0⟩ : ∃ k0,
      (if (k.status taskID).running = true ∧ k.gLosTaskLock ≠ 0 then { k with gLosTaskLock := 0 }
        else k) = k0 ∧ KernelInv k0 V ∧ k0.gTaskCBArray = k.gTaskCBArray ∧ k0.runTask = k.runTask ∧
      k0.gIdleTaskID = k.gIdleTaskID ∧ k0.gTaskScheduled = k.gTaskScheduled ∧
      k0.pendSV = k.pendSV ∧ (taskID = k.runTask → k0.gLosTaskLock = 0) := by
    split
    · exact ⟨_, rfl, hi.congr rfl rfl rfl rfl rfl rfl (Nat.le_refl _), rfl, rfl, rfl, rfl, rfl,
        fun _ => rfl⟩
    · next h =>
      refine ⟨_, rfl, hi, rfl, rfl, rfl, rfl, rfl, fun hrun => ?_⟩
      by_contra hne0
      exact h ⟨(hi.task taskID ht).running.mpr hrun, hne0⟩
  rw [hk0]
  have hq0 : Quiet (· = taskID) k V k0 V := (Quiet.refl _ k V).congr ht0 hid0 hs0
  have hset0 : Settled k → Settled k0 := by
    intro hs
    refine ⟨?_, ?_, ?_⟩
    · rw [hs0, hp0, hr0, ht0]
      exact hs.run
    · rw [hs0, hr0]
      exact hs.boot
    · rw [hs0, hp0]
      exact hs.request
  obtain ⟨k1, V1, hk1, hc1, hm1, hpl1, hsl1, hid1, hp1, hst1, hrun1⟩ := osSchedTaskExit_spec hi0 ht
    (by rw [ht0]; exact hunused) (by rw [hid0]; exact hne)
  rw [hk1]
  have hrunk : (k1.gTaskCBArray taskID).taskStatus.running = true ↔ taskID = k0.runTask := by
    rw [hrun1]
    exact (hi0.task taskID ht).running
  by_cases hrun : taskID = k0.runTask
  · rw [if_pos (show (k1.status taskID).running = true from hrunk.mpr hrun)]
    obtain ⟨V2, hi2, hq2, hpl2, hs2, hrole2⟩ := losTaskDelete_self hi0 ht (by rw [hid0]; exact hne) hrun hm1 hc1
      hpl1 hsl1 hid1 hp1 hst1
    have hr2 : (osRunningTaskDelete (k1.modifyStatus taskID fun _ => osTaskStatusUnused) taskID
        taskID).runTask = gTaskMaxNum := rfl
    have hl2 : (osRunningTaskDelete (k1.modifyStatus taskID fun _ => osTaskStatusUnused) taskID
        taskID).gLosTaskLock = 0 := hm1.gLosTaskLock.trans (hl0 (hrun.trans hr0))
    have hsc2 : (osRunningTaskDelete (k1.modifyStatus taskID fun _ => osTaskStatusUnused) taskID
        taskID).gTaskScheduled = k.gTaskScheduled := hm1.gTaskScheduled.trans hs0
    generalize osRunningTaskDelete (k1.modifyStatus taskID fun _ => osTaskStatusUnused) taskID
      taskID = k2 at hi2 hq2 hs2 hr2 hl2 hsc2 ⊢
    refine ⟨_, V2, _, rfl, hi2.losSchedule, (hq0.trans hq2).losSchedule, fun hs => ?_, .inr ⟨ht, hne,
      hunused, ?_, fun w h => ?_, ?_⟩, fun u _ hu => hrole2 u ?_, .inr ?_⟩
    · cases hsched : k.gTaskScheduled with
      | true =>
        have hreq := losSchedule_request (hsc2.trans hsched) hl2
        obtain ⟨b, hb⟩ := losSchedule_eq k2
        rw [hb] at hreq ⊢
        refine ⟨fun _ h => ?_, fun h => ?_, fun _ => hsc2.trans hsched⟩
        · rw [hreq] at h
          cases h
        · rw [show k2.gTaskScheduled = false from h, hsched] at hsc2
          cases hsc2
      | false =>
        have hb := hs.boot hsched
        omega
    · obtain ⟨b, hb⟩ := losSchedule_eq k2
      rw [hb]
      exact hs2
    · rw [hpl2] at h
      cases h
    · rw [losSchedule_runTask, hr2, if_pos (by rw [← hr0]; exact hrun)]
    · rintro rfl
      rw [hunused] at hu
      cases hu
    · rw [hpl2, if_pos (by rw [← hr0]; exact hrun)]
  · rw [if_neg (show ¬ (k1.status taskID).running = true from fun h => hrun (hrunk.mp h))]
    obtain ⟨V2, hi2, hm2, hpl2⟩ := losTaskDelete_other hi0 ht (by rw [hid0]; exact hne) hrun hm1 hc1
      hpl1 hsl1 hid1 hp1 hst1
    refine ⟨_, V2, _, rfl, hi2, hq0.trans hm2.quiet,
      fun hs => (hset0 hs).moved hm2 fun _ _ h => hrun h.symm, .inr ⟨ht, hne, hunused, ?_,
        fun w h => ?_, ?_⟩, ?_, .inr ?_⟩
    · rw [losListAdd_gTaskCBArray, modifyStatus_self]
    · rw [hpl2] at h
      cases h
    · rw [hm2.runTask, hr0, if_neg (by rw [← hr0]; exact hrun)]
    · have hsh := hm2.shelved fun _ => by rw [ht0]; exact hunused
      intro u hu hunu
      exact hsh u hu (by rw [ht0]; exact hunu)
    · rw [hpl2, if_neg (by rw [← hr0]; exact hrun)]

omit [Config] in
theorem TaskOk.of_free (ho : TaskOk k V t) (hpl : V.role (.pendList t) = .member .gLosFreeTask ∨
    V.role (.pendList t) = .member .gTaskRecyleList) :
    (k.gTaskCBArray t).taskStatus.unused = true := by
  cases hu : (k.gTaskCBArray t).taskStatus.unused with
  | true => rfl
  | false =>
    exfalso
    by_cases hidle : t = k.gIdleTaskID
    · have h := ho.off hu (fun _ => hidle) (ho.idle hidle).2.2.1
      rw [h] at hpl
      simp at hpl
    · rcases ho.pl_cases hu hidle with ⟨_, h⟩ | ⟨_, _, l, h⟩ | ⟨_, _, h⟩ <;> rw [h] at hpl <;>
        simp at hpl

theorem refree_one (hi : KernelInv k V) {h : Node} (hh : h = .gLosFreeTask ∨ h = .gTaskRecyleList)
    {l : List Node} (hcon : V.content h = .pendList t :: l) :
    ∃ V', KernelInv (losListAdd (losListDelete k (.pendList t)) .gLosFreeTask (.pendList t)) V' ∧
      Moved t k V (losListAdd (losListDelete k (.pendList t)) .gLosFreeTask (.pendList t)) V' ∧
      Kept k V (losListAdd (losListDelete k (.pendList t)) .gLosFreeTask (.pendList t)) V' t ∧
      (h = .gTaskRecyleList → V'.content .gTaskRecyleList = l) ∧
      V'.role (.pendList t) = .member .gLosFreeTask := by
  have hmem : Node.pendList t ∈ V.content h := by simp [hcon]
  have hrole := (hi.core.ready.forest.mem _ _).mp hmem
  have ht : t < gTaskMaxNum := (hi.core.fits _ _ hrole).1
  have ho := hi.task t ht
  have hunused : (k.gTaskCBArray t).taskStatus.unused = true := by
    apply ho.of_free
    rcases hh with rfl | rfl
    · exact .inl hrole
    · exact .inr hrole
  have hrun : t ≠ k.runTask := by
    intro he
    have h := ho.live he
    rw [hunused] at h
    cases h
  have hc1 := hi.core.unlink hrole fun p => by rcases hh with rfl | rfl <;> simp
  have hpl1 : (V.remove (.pendList t)).role (.pendList t) = .loose := by simp
  have hm : Moved t k V (losListAdd (losListDelete k (.pendList t)) .gLosFreeTask (.pendList t))
      ((V.remove (.pendList t)).put (.pendList t) .gLosFreeTask (.pendList t ::
        (V.remove (.pendList t)).content .gLosFreeTask)) :=
    (Moved.unlink (.inl rfl)).trans (Moved.link (.inl rfl) (by simp))
  have hfit : Fits (.pendList t) .gLosFreeTask := ⟨ht, .inl rfl⟩
  refine ⟨_, hi.touched ht hm.toTouched (hc1.addHead hpl1 (hc1.system _ (.inl rfl)) (by simp) hfit) ?_,
    hm, ⟨rfl, rfl, rfl, rfl, rfl, fun w => ?_⟩, ?_, by simp⟩
  · have hsl : ((V.remove (.pendList t)).put (.pendList t) .gLosFreeTask (.pendList t ::
        (V.remove (.pendList t)).content .gLosFreeTask)).role (.sortLinkNode t) =
        V.role (.sortLinkNode t) := by simp
    obtain ⟨f1, f2, f3, f4, f5⟩ := ho.flags.unused hunused
    constructor <;> simp only [hsl, hm.now, losListAdd_gTaskCBArray, losListDelete_gTaskCBArray]
    case id => exact ho.id
    case priority => exact ho.priority
    case startTime => exact ho.startTime
    case flags => exact ho.flags
    case running => exact ho.running
    case live => exact ho.live
    case idle => exact ho.idle
    case free => exact fun _ => .inl (by simp)
    case queued => intro h; rw [f1] at h; cases h
    case blocked => intro h; rw [f3] at h; cases h
    case off => intro h; rw [hunused] at h; cases h
    case timed => exact ho.timed
    case untimed => exact ho.untimed
    case response => exact ho.response
  · rw [hrole]
    rcases hh with rfl | rfl <;> simp
  · rintro rfl
    rw [View.put_content, if_neg (by simp), View.remove_content, hcon, List.erase_cons_head]

theorem osRecyleLoop_spec (fuel : Nat) : ∀ (k : KernelState) (V : View Node), KernelInv k V →
    (V.content .gTaskRecyleList).length < fuel →
    ∃ k' V', osRecyleLoop fuel k = some k' ∧ KernelInv k' V' ∧ Quiet (fun _ => False) k V k' V' ∧
      Steady k k' ∧ k'.gTaskCBArray = k.gTaskCBArray := by
  induction fuel with
  | zero => exact fun k V _ h => absurd h (Nat.not_lt_zero _)
  | succ fuel ih =>
    intro k V hi hlen
    have hhead := hi.core.system .gTaskRecyleList (.inr (.inl rfl))
    unfold osRecyleLoop
    cases hcon : V.content .gTaskRecyleList with
    | nil =>
      rw [if_pos ((hi.core.ready.listEmpty_iff hhead).mpr hcon)]
      exact ⟨k, V, rfl, hi, Quiet.refl _ k V, Steady.refl k, rfl⟩
    | cons y l =>
      have hne : ¬ losListEmpty k .gTaskRecyleList = true := by
        rw [hi.core.ready.listEmpty_iff hhead, hcon]
        exact List.cons_ne_nil _ _
      rw [if_neg hne]
      obtain ⟨t, ht, rfl⟩ := hi.core.mem_pendList (show y ∈ V.content .gTaskRecyleList by simp [hcon])
        (.inr (.inl rfl))
      have hfirst : losDlListFirst k .gTaskRecyleList = .pendList t :=
        hi.core.ready.forest.next_first hhead hcon
      rw [hfirst]
      simp only [osTcbFromPendList, Option.bind_eq_bind, Option.bind_some]
      obtain ⟨V1, hi1, hm1, hk1, hcon1, _⟩ := refree_one hi (.inr rfl) hcon
      have hcon1 := hcon1 rfl
      rw [hcon, List.length_cons] at hlen
      obtain ⟨k', V', heq, hi', hq', hr', hcb'⟩ := ih _ V1 hi1 (by rw [hcon1]; omega)
      exact ⟨k', V', heq, hi', (hm1.quiet_kept hk1).trans hq', hm1.toSteady.trans hr', hcb'⟩

theorem osRecyleFinishedTask_spec (hi : KernelInv k V) :
    ∃ k' V', osRecyleFinishedTask k = some k' ∧ KernelInv k' V' ∧
      Quiet (fun _ => False) k V k' V' ∧ Steady k k' ∧ k'.gTaskCBArray = k.gTaskCBArray := by
  have hlen : (V.content .gTaskRecyleList).length ≤ gTaskMaxNum :=
    hi.core.length_le Node.pendList fun y hy => hi.core.mem_pendList hy (.inr (.inl rfl))
  exact osRecyleLoop_spec _ k V hi (by omega)

/-- The outcome of a creation that succeeds. -/
structure Created (k k' : KernelState) (V' : View Node) (t : Nat) : Prop where
  bound : t < gTaskMaxNum
  unused : (k.gTaskCBArray t).taskStatus.unused = true
  live : (k'.gTaskCBArray t).taskStatus.unused = false
  pend : (k'.gTaskCBArray t).taskStatus.pend = false
  timeout : (k'.gTaskCBArray t).taskStatus.timeout = false
  gone : ∀ w, V'.role (.pendList t) ≠ .member (.wait w)

omit [Config] in
theorem osNewTaskInit_self (k : KernelState) (t p : Nat) :
    (osNewTaskInit k t p).gTaskCBArray t = { k.gTaskCBArray t with
      taskSem := none
      taskMux := none
      taskStatus := osTaskStatusSuspend
      priority := p
      timeSlice := 0
      waitTimes := 0
      responseTime := ⊤ } :=
  modifyTask_self k t _

theorem newTask_spec (hi : KernelInv k V) {l : List Node} {p : Nat} (hp : p < 32)
    (hcon : V.content .gLosFreeTask = .pendList t :: l) :
    ∃ V', KernelInv (osNewTaskInit (losListDelete k (.pendList t)) t p) V' ∧
      Moved t k V (osNewTaskInit (losListDelete k (.pendList t)) t p) V' ∧
      Created k (osNewTaskInit (losListDelete k (.pendList t)) t p) V' t ∧ t ≠ k.gIdleTaskID ∧
      V'.role (.pendList t) = .loose ∧ V'.role (.sortLinkNode t) = .loose := by
  have hmem : Node.pendList t ∈ V.content .gLosFreeTask := by simp [hcon]
  have hrole := (hi.core.ready.forest.mem _ _).mp hmem
  have ht : t < gTaskMaxNum := (hi.core.fits _ _ hrole).1
  have ho := hi.task t ht
  have hunused := ho.of_free (.inl hrole)
  have hrun : t ≠ k.runTask := by
    intro he
    have h := ho.live he
    rw [hunused] at h
    cases h
  have hidle : t ≠ k.gIdleTaskID := by
    intro he
    have h := (ho.idle he).1
    rw [hunused] at h
    cases h
  obtain ⟨f1, f2, f3, f4, f5⟩ := ho.flags.unused hunused
  have hsl := ho.untimed (by simp [f4, f5])
  have hc1 := hi.core.unlink hrole (by simp)
  have hm : Moved t k V (osNewTaskInit (losListDelete k (.pendList t)) t p)
      (V.remove (.pendList t)) := (Moved.unlink (.inl rfl)).trans (Moved.modifyTask t _ _ _)
  have hcb := osNewTaskInit_self (losListDelete k (.pendList t)) t p
  have hpl' : (V.remove (.pendList t)).role (.pendList t) = .loose := by simp
  have hsl' : (V.remove (.pendList t)).role (.sortLinkNode t) = .loose := by simpa using hsl
  have hc : Core (osNewTaskInit (losListDelete k (.pendList t)) t p) (V.remove (.pendList t)) :=
    hc1.modifyTask t _
  generalize osNewTaskInit (losListDelete k (.pendList t)) t p = k' at hm hcb hc ⊢
  rw [losListDelete_gTaskCBArray] at hcb
  refine ⟨_, hi.rest ht hm hc ?_ ?_ ?_ ?_ hidle ?_ ?_ ?_ ?_ ?_ ?_ ?_ hpl' hsl', hm, ⟨ht, hunused, ?_, ?_,
    ?_, fun w h => ?_⟩, hidle, hpl', hsl'⟩
  · rw [hcb]; exact ho.id
  · rw [hcb]; exact hp
  · rw [hcb]; exact ho.startTime
  · rw [hcb]; exact iff_of_false Bool.false_ne_true hrun
  · rw [hcb]; rfl
  · rw [hcb]; rfl
  · rw [hcb]; rfl
  · rw [hcb]; rfl
  · rw [hcb]; rfl
  · rw [hcb]; rfl
  · rw [hcb]
  · rw [hcb]; rfl
  · rw [hcb]; rfl
  · rw [hcb]; rfl
  · rw [hpl'] at h; cases h

theorem Created.of_eq {k₀ : KernelState} (hc : Created k k' V' t)
    (h : k.gTaskCBArray = k₀.gTaskCBArray) : Created k₀ k' V' t :=
  ⟨hc.bound, by rw [← h]; exact hc.unused, hc.live, hc.pend, hc.timeout, hc.gone⟩

theorem losTaskCreateOnly_spec (hi : KernelInv k V) (taskID : Bool) (param : Option TskInitParam)
    (topOfStack : Bool) :
    ∃ k' V' r o, losTaskCreateOnly k taskID param topOfStack = some (k', r, o) ∧ KernelInv k' V' ∧
      k'.runTask = k.runTask ∧ (Settled k → Settled k') ∧ ((o = none ∧ r ≠ .losOk ∧ Quiet (fun _ => False) k V k' V') ∨
        ∃ t, o = some t ∧ Quiet (· = t) k V k' V' ∧ Created k k' V' t ∧ t ≠ k'.gIdleTaskID ∧
          V'.role (.pendList t) = .loose ∧ V'.role (.sortLinkNode t) = .loose) := by
  have herr : ∀ r : Errno, r ≠ .losOk → ∃ k' V' r' o, (some (k, r, none) : Option (KernelState × Errno × Option Nat)) =
      some (k', r', o) ∧ KernelInv k' V' ∧ k'.runTask = k.runTask ∧ (Settled k → Settled k') ∧
      ((o = none ∧ r' ≠ .losOk ∧ Quiet (fun _ => False) k V k' V') ∨
        ∃ t, o = some t ∧ Quiet (· = t) k V k' V' ∧ Created k k' V' t ∧ t ≠ k'.gIdleTaskID ∧
          V'.role (.pendList t) = .loose ∧ V'.role (.sortLinkNode t) = .loose) :=
    fun r hr => ⟨k, V, r, none, rfl, hi, rfl, id, .inl ⟨rfl, hr, Quiet.refl _ k V⟩⟩
  unfold losTaskCreateOnly
  dsimp only
  split
  · exact herr _ (by decide)
  by_cases hret : osTaskInitParamCheck param ≠ .losOk
  · rw [if_pos hret]
    exact herr _ hret
  rw [if_neg hret]
  obtain ⟨p, hp⟩ : ∃ p, (param.map TskInitParam.usTaskPrio).getD 0 = p := ⟨_, rfl⟩
  have hlt : p < 32 := by
    rw [← hp]
    exact osTaskInitParamCheck_prio (not_not.mp hret)
  rw [hp]
  obtain ⟨k1, V1, heq1, hi1, hq1, hst1, hcb1⟩ := osRecyleFinishedTask_spec hi
  have hr1 := hst1.runTask
  have hset1 : Settled k → Settled k1 := fun hs => hs.of_steady hst1 fun _ _ => by rw [hcb1]
  rw [heq1]
  simp only [Option.bind_eq_bind, Option.bind_some]
  have hhead := hi1.core.system .gLosFreeTask (.inl rfl)
  cases hcon : V1.content .gLosFreeTask with
  | nil =>
    rw [if_pos ((hi1.core.ready.listEmpty_iff hhead).mpr hcon)]
    exact ⟨k1, V1, _, none, rfl, hi1, hr1, hset1, .inl ⟨rfl, by decide, hq1⟩⟩
  | cons y l =>
    have hne : ¬ losListEmpty k1 .gLosFreeTask = true := by
      rw [hi1.core.ready.listEmpty_iff hhead, hcon]
      exact List.cons_ne_nil _ _
    rw [if_neg hne]
    obtain ⟨t, ht, rfl⟩ := hi1.core.mem_pendList (show y ∈ V1.content .gLosFreeTask by simp [hcon])
      (.inl rfl)
    have hfirst : losDlListFirst k1 .gLosFreeTask = .pendList t :=
      hi1.core.ready.forest.next_first hhead hcon
    rw [hfirst]
    simp only [osTcbFromPendList, Option.bind_some]
    have hrun : t ≠ k1.runTask := by
      intro he
      have hrole := (hi1.core.ready.forest.mem _ _).mp
        (show Node.pendList t ∈ V1.content .gLosFreeTask by simp [hcon])
      have h := (hi1.task t ht).live he
      rw [(hi1.task t ht).of_free (.inl hrole)] at h
      cases h
    cases topOfStack with
    | false =>
      obtain ⟨V2, hi2, hm2, hk2, _⟩ := refree_one hi1 (.inl rfl) hcon
      exact ⟨_, V2, _, none, rfl, hi2, hm2.runTask.trans hr1,
        fun hs => (hset1 hs).moved hm2 fun _ _ h => hrun h.symm,
        .inl ⟨rfl, by decide, hq1.trans (hm2.quiet_kept hk2)⟩⟩
    | true =>
      obtain ⟨V2, hi2, hm2, hcr2, hidle2, hpl2, hsl2⟩ := newTask_spec hi1 hlt hcon
      have hid2 := (hi2.task t ht).id
      rw [if_neg (by simp), hid2]
      refine ⟨_, V2, _, some t, rfl, hi2, hm2.runTask.trans hr1,
        fun hs => (hset1 hs).moved hm2 fun _ _ h => hrun h.symm,
        .inr ⟨t, rfl, ?_, hcr2.of_eq hcb1, ?_, hpl2, hsl2⟩⟩
      · exact (hq1.mono fun _ h => h.elim).trans hm2.quiet
      · rw [hm2.gIdleTaskID]
        exact hidle2

theorem losTaskCreate_spec (hi : KernelInv k V) (taskID : Bool) (param : Option TskInitParam)
    (topOfStack : Bool) :
    ∃ k' V' r o, losTaskCreate k taskID param topOfStack = some (k', r, o) ∧ KernelInv k' V' ∧
      k'.runTask = k.runTask ∧ (Settled k → Settled k') ∧ ((o = none ∧ Quiet (fun _ => False) k V k' V') ∨
        ∃ t, o = some t ∧ Quiet (· = t) k V k' V' ∧ Created k k' V' t) := by
  obtain ⟨k1, V1, r, o, heq, hi1, hr1, hset1, ho⟩ := losTaskCreateOnly_spec hi taskID param topOfStack
  unfold losTaskCreate
  rw [heq]
  simp only [Option.bind_eq_bind, Option.bind_some]
  rcases ho with ⟨rfl, _, hq1⟩ | ⟨t, rfl, hq1, hcr1, hidle1, hpl1, hsl1⟩
  · exact ⟨k1, V1, r, none, rfl, hi1, hr1, hset1, .inl ⟨rfl, hq1⟩⟩
  · have hot := hi1.task t hcr1.bound
    have hnready : (k1.gTaskCBArray t).taskStatus.ready = false := by
      cases h : (k1.gTaskCBArray t).taskStatus.ready with
      | false => rfl
      | true =>
        have h' := hot.queued h hidle1
        rw [hpl1] at h'
        cases h'
    obtain ⟨k2, V2, slice, heq2, hi2, hm2, hcb2, hpl2, -⟩ := hi1.enqueue hcr1.bound
      (Moved.refl t k1 V1) hi1.core hot.id hot.priority hot.startTime hot.running hcr1.live hnready
      ((hot.response hcr1.live).mpr hsl1) hpl1 hsl1
    have hs2 : (k2.gTaskCBArray t).taskStatus = readied (k1.gTaskCBArray t).taskStatus := by rw [hcb2]
    have hq2 := hq1.trans hm2.quiet
    have hcr2 : Created k k2 V2 t := by
      refine ⟨hcr1.bound, hcr1.unused, ?_, ?_, ?_, fun w h => ?_⟩
      · rw [hs2]
        exact hcr1.live
      · rw [hs2]
        rfl
      · rw [hs2]
        exact hcr1.timeout
      · rw [hpl2, if_neg hidle1] at h
        simp at h
    have hrun : t ≠ k1.runTask := by
      intro he
      have h := hcr1.unused
      have hlt := hcr1.bound
      rw [he, hr1] at h hlt
      rw [(hi.task _ hlt).live rfl] at h
      cases h
    have hset2 : Settled k → Settled k2 := fun hs =>
      (hset1 hs).moved hm2 fun _ _ h => hrun h.symm
    simp only [heq2, Option.bind_some]
    split
    · obtain ⟨b, hb⟩ := losSchedule_eq k2
      refine ⟨_, V2, _, some t, rfl, hi2.losSchedule, (losSchedule_runTask k2).trans
        (hm2.runTask.trans hr1), fun hs => (hset2 hs).losSchedule, .inr ⟨t, rfl, hq2.losSchedule, ?_⟩⟩
      rw [hb]
      exact ⟨hcr2.bound, hcr2.unused, hcr2.live, hcr2.pend, hcr2.timeout, hcr2.gone⟩
    · exact ⟨_, V2, _, some t, rfl, hi2, hm2.runTask.trans hr1, hset2, .inr ⟨t, rfl, hq2, hcr2⟩⟩

end

end LiteosM.Kernel
