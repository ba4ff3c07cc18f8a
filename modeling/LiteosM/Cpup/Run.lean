import LiteosM.Cpup.Table

/-!
# The CPU usage of a running system

The kernel with the calls of `los_task.c` to `los_cpup.c`, and the queries. Beside it runs a meter
that only sees the clock, the switches and the tasks that are deleted.
-/

namespace LiteosM.Cpup

open LiteosM.Kernel LiteosM.Lib.Metering LiteosM.Lib.Transition

structure CpupKernel where
  waits : WaitState
  cpup : CpupState

def CpupKernel.kernel (s : CpupKernel) : KernelState := s.waits.kernel

inductive CpupEvent
  | wait (event : WaitEvent)
  | sysCpuUsage
  | historySysCpuUsage (mode : Nat)
  | taskCpuUsage (taskID : Nat)
  | historyTaskCpuUsage (taskID mode : Nat)
  | allTaskCpuUsage (cpupInfo : Option (Nat → CpupInfo)) (mode : Nat)

variable [Config] [CpupConfig]

/-- What an event of the kernel does to the table. -/
def cpupHook (k : KernelState) (c : CpupState) : WaitEvent → CpupState
  | .kernel (.create taskID param top) =>
    match losTaskCreate k taskID param top with
    | some (_, _, some id) => cpupTaskCreate c id osTaskStatusSuspend
    | _ => c
  | .kernel (.delete taskID) =>
    match losTaskDelete k taskID with
    | some (_, .losOk) => cpupTaskDelete c taskID
    | _ => c
  | .kernel .pendSV =>
    match osSchedTaskSwitch { k with pendSV := false } with
    | some r => if r.2 then osTskCycleEndStart r.1 c else c
    | none => c
  | _ => c

/-- The queries come once the scheduler runs. -/
def cpupStep (s : CpupKernel) (event : CpupEvent) : Option CpupKernel :=
  match event with
  | .wait e => (waitStep s.waits e).map fun w => ⟨w, cpupHook s.kernel s.cpup e⟩
  | .sysCpuUsage =>
    if s.kernel.gTaskScheduled then some { s with cpup := (losSysCpuUsage s.kernel s.cpup).1 } else none
  | .historySysCpuUsage mode =>
    if s.kernel.gTaskScheduled then some { s with cpup := (losHistorySysCpuUsage s.kernel s.cpup mode).1 }
    else none
  | .taskCpuUsage taskID =>
    if s.kernel.gTaskScheduled then some { s with cpup := (losTaskCpuUsage s.kernel s.cpup taskID).1 }
    else none
  | .historyTaskCpuUsage taskID mode =>
    if s.kernel.gTaskScheduled then
      some { s with cpup := (losHistoryTaskCpuUsage s.kernel s.cpup taskID mode).1 }
    else none
  | .allTaskCpuUsage cpupInfo mode =>
    if s.kernel.gTaskScheduled then
      some { s with cpup := (losAllTaskCpuUsage s.kernel s.cpup cpupInfo mode).1 }
    else none

/-- A query that is answered starts the metering of the running task. -/
def watched {α : Type} (r : CpupState × Except CpupErrno α) : List (Event Nat) :=
  match r.2 with
  | .ok _ => [.watch]
  | .error _ => []

/-- What the meter sees of a step. -/
def observed (s : CpupKernel) (event : CpupEvent) (s' : CpupKernel) : List (Event Nat) :=
  match event with
  | .wait (.kernel .start) => [.pass (losSysCycleGet s'.kernel), .enter (runID s'.kernel)]
  | .wait (.kernel (.elapse _)) => [.pass (losSysCycleGet s'.kernel)]
  | .wait (.kernel .pendSV) =>
    if s.kernel.runTask ≠ s'.kernel.runTask then [.dispatch (runID s'.kernel)] else []
  | .wait (.kernel (.delete taskID)) =>
    match losTaskDelete s.kernel taskID with
    | some (_, .losOk) => [.reset taskID]
    | _ => []
  | .wait _ => []
  | .sysCpuUsage => watched (losSysCpuUsage s.kernel s.cpup)
  | .historySysCpuUsage mode => watched (losHistorySysCpuUsage s.kernel s.cpup mode)
  | .taskCpuUsage taskID => watched (losTaskCpuUsage s.kernel s.cpup taskID)
  | .historyTaskCpuUsage taskID mode => watched (losHistoryTaskCpuUsage s.kernel s.cpup taskID mode)
  | .allTaskCpuUsage cpupInfo mode => watched (losAllTaskCpuUsage s.kernel s.cpup cpupInfo mode)

/-- The meter takes a reading when `OS_CPUP_RECORD_PERIOD` has gone by. -/
def meterAfter (m : Meter Nat) (events : List (Event Nat)) : Meter Nat :=
  events.foldl (Meter.step CpupConfig.gSysClock) m

def MeteredStep (p : CpupKernel × Meter Nat) (event : CpupEvent) (p' : CpupKernel × Meter Nat) : Prop :=
  cpupStep p.1 event = some p'.1 ∧ p'.2 = meterAfter p.2 (observed p.1 event p'.1)

def newMeter : Meter Nat :=
  { running := 0, metered := false, now := 0, time := fun _ => 0, readings := [], lastReading := 0 }

/-- The kernel has been initialized with an empty table, and the cycle counter has left zero. -/
def CpupBooted (s : CpupKernel) : Prop :=
  WaitBooted s.waits ∧ 0 < s.kernel.cycle ∧
    s.cpup = { gCpupInitFlg := true, gCpup := fun _ => clearedCpupCB, gLastRecordTime := 0, gHisPos := 0 }

structure CpupInv (s : CpupKernel) (m : Meter Nat) : Prop where
  waits : ∃ V, WaitInv s.waits V
  newTask : s.kernel.newTask < gTaskMaxNum
  turn : s.kernel.gTaskScheduled = true →
    newID s.kernel = runID s.kernel ∧ m.running = runID s.kernel ∧ m.running < gTaskMaxNum
  off : s.kernel.gTaskScheduled = false → m.metered = false
  now : losSysCycleGet s.kernel = m.now
  cycle : 0 < s.kernel.cycle
  idle : (s.cpup.gCpup s.kernel.gIdleTaskID).status = noStatus
  sound : m.Sound (Finset.range gTaskMaxNum)
  reads : m.now < 2 ^ 64 → Reads s.cpup m

section

variable {s s' : CpupKernel} {m m' : Meter Nat} {c : CpupState} {k : KernelState}

omit [CpupConfig] in
theorem CpupInv.pos (h : CpupInv s m) (hsched : s.kernel.gTaskScheduled = true) : 0 < m.now := by
  rw [← h.now]
  unfold losSysCycleGet osGetCurrSchedTimeCycle
  rw [if_pos hsched]
  exact h.cycle

omit [CpupConfig] in
theorem CpupInv.time_lt (h : CpupInv s m) (hlt : m.running < gTaskMaxNum) (hbig : m.now < 2 ^ 64) :
    m.time m.running < 2 ^ 64 :=
  Nat.lt_of_le_of_lt (h.sound.time_le (Finset.mem_range.mpr hlt)) hbig

theorem CpupInv.closed (h : CpupInv s m) (hsched : s.kernel.gTaskScheduled = true) (hbig : m.now < 2 ^ 64) :
    Closed (osTskCycleEnd s.kernel s.cpup) m := by
  obtain ⟨_, hrun, hlt⟩ := h.turn hsched
  exact osTskCycleEnd_closed (h.reads hbig) h.now hrun.symm hlt hbig (h.time_lt hlt hbig)

theorem CpupInv.query (h : CpupInv s m) (hsched : s.kernel.gTaskScheduled = true) :
    CpupInv { s with cpup := osTskCycleStart s.kernel (osTskCycleEnd s.kernel s.cpup) }
      { m with metered := true } := by
  obtain ⟨hnew, hrun, hlt⟩ := h.turn hsched
  refine ⟨h.waits, h.newTask, fun _ => ⟨hnew, hrun, hlt⟩, fun hoff => ?_, h.now, h.cycle, ?_, ?_, fun hbig => ?_⟩
  · rw [show s.kernel.gTaskScheduled = false from hoff] at hsched
    cases hsched
  · exact ((osTskCycleStart_status _ _ _).trans (osTskCycleEnd_status _ _ _)).trans h.idle
  · have hstep : ({ m with metered := true } : Meter Nat) = m.step 0 .watch := rfl
    rw [hstep]
    exact h.sound.step 0 .watch trivial (Finset.mem_range.mpr hlt)
  · exact (h.closed hsched hbig).start_reads h.now (h.pos hsched) (hnew.trans hrun.symm) hlt

theorem CpupInv.asked {α : Type} (h : CpupInv s m) (hsched : s.kernel.gTaskScheduled = true)
    {r : CpupState × Except CpupErrno α}
    (hr : (∃ a, r = (osTskCycleStart s.kernel (osTskCycleEnd s.kernel s.cpup), .ok a)) ∨
      ∃ e, r = (s.cpup, .error e)) :
    CpupInv { s with cpup := r.1 } (meterAfter m (watched r)) := by
  rcases hr with ⟨a, rfl⟩ | ⟨e, rfl⟩
  · exact h.query hsched
  · exact h

theorem losSysCpuUsage_cases (k : KernelState) (c : CpupState) :
    (∃ a, losSysCpuUsage k c = (osTskCycleStart k (osTskCycleEnd k c), .ok a)) ∨
      ∃ e, losSysCpuUsage k c = (c, .error e) := by
  unfold losSysCpuUsage
  split
  · exact .inr ⟨_, rfl⟩
  · exact .inl ⟨_, rfl⟩

theorem losHistorySysCpuUsage_cases (k : KernelState) (c : CpupState) (mode : Nat) :
    (∃ a, losHistorySysCpuUsage k c mode = (osTskCycleStart k (osTskCycleEnd k c), .ok a)) ∨
      ∃ e, losHistorySysCpuUsage k c mode = (c, .error e) := by
  unfold losHistorySysCpuUsage
  split
  · exact .inr ⟨_, rfl⟩
  · exact .inl ⟨_, rfl⟩

theorem losTaskCpuUsage_cases (k : KernelState) (c : CpupState) (taskID : Nat) :
    (∃ a, losTaskCpuUsage k c taskID = (osTskCycleStart k (osTskCycleEnd k c), .ok a)) ∨
      ∃ e, losTaskCpuUsage k c taskID = (c, .error e) := by
  unfold losTaskCpuUsage
  cases taskUsageCheck c taskID with
  | none => exact .inl ⟨_, rfl⟩
  | some e => exact .inr ⟨e, rfl⟩

theorem losHistoryTaskCpuUsage_cases (k : KernelState) (c : CpupState) (taskID mode : Nat) :
    (∃ a, losHistoryTaskCpuUsage k c taskID mode = (osTskCycleStart k (osTskCycleEnd k c), .ok a)) ∨
      ∃ e, losHistoryTaskCpuUsage k c taskID mode = (c, .error e) := by
  unfold losHistoryTaskCpuUsage
  cases taskUsageCheck c taskID with
  | none => exact .inl ⟨_, rfl⟩
  | some e => exact .inr ⟨e, rfl⟩

theorem losAllTaskCpuUsage_cases (k : KernelState) (c : CpupState) (info : Option (Nat → CpupInfo))
    (mode : Nat) :
    (∃ a, losAllTaskCpuUsage k c info mode = (osTskCycleStart k (osTskCycleEnd k c), .ok a)) ∨
      ∃ e, losAllTaskCpuUsage k c info mode = (c, .error e) := by
  unfold losAllTaskCpuUsage
  split
  · exact .inr ⟨_, rfl⟩
  · cases info with
    | none => exact .inr ⟨_, rfl⟩
    | some info => exact .inl ⟨_, rfl⟩

omit [CpupConfig] in
theorem CpupInv.still {w : WaitState} (h : CpupInv s m) {event : WaitEvent}
    (hstep : waitStep s.waits event = some w) (hstill : event.still)
    (hidle : (c.gCpup s.kernel.gIdleTaskID).status = noStatus) (hreads : m'.now < 2 ^ 64 → Reads c m')
    (hnow : m'.now = m.now) (hrun : m'.running = m.running) (hmet : m.metered = false → m'.metered = false)
    (hsound : m'.Sound (Finset.range gTaskMaxNum)) : CpupInv ⟨w, c⟩ m' := by
  obtain ⟨V, hw⟩ := h.waits
  have hkept := waitStep_runKept hw.machine.inv h.newTask hstill hstep
  change RunKept s.kernel w.kernel at hkept
  have hclock : losSysCycleGet w.kernel = losSysCycleGet s.kernel := by
    unfold losSysCycleGet osGetCurrSchedTimeCycle
    rw [hkept.gTaskScheduled, hkept.cycle]
  refine ⟨waitStep_inv hw hstep, ?_, fun hsched => ?_, fun hoff => ?_, ?_, ?_, ?_, hsound, hreads⟩
  · show w.kernel.newTask < _
    rw [hkept.newTask]
    exact h.newTask
  · obtain ⟨hnew, hid, hlt⟩ := h.turn (hkept.gTaskScheduled.symm.trans hsched)
    exact ⟨(hkept.newID.trans hnew).trans hkept.runID.symm, (hrun.trans hid).trans hkept.runID.symm,
      by rw [hrun]; exact hlt⟩
  · exact hmet (h.off (hkept.gTaskScheduled.symm.trans hoff))
  · exact (hclock.trans h.now).trans hnow.symm
  · show 0 < w.kernel.cycle
    rw [hkept.cycle]
    exact h.cycle
  · show (c.gCpup w.kernel.gIdleTaskID).status = _
    rw [hkept.gIdleTaskID]
    exact hidle

omit [CpupConfig] in
theorem CpupInv.unseen {w : WaitState} (h : CpupInv s m) {event : WaitEvent}
    (hstep : waitStep s.waits event = some w) (hstill : event.still) : CpupInv ⟨w, s.cpup⟩ m :=
  h.still hstep hstill h.idle h.reads rfl rfl id h.sound

theorem CpupInv.create {w : WaitState} (h : CpupInv s m) {taskID top : Bool} {param : Option TskInitParam}
    (hstep : waitStep s.waits (.kernel (.create taskID param top)) = some w) :
    CpupInv ⟨w, cpupHook s.kernel s.cpup (.kernel (.create taskID param top))⟩ m := by
  obtain ⟨V, hw⟩ := h.waits
  obtain ⟨k', _, r, o, heq, _, _, _, ho⟩ := losTaskCreate_spec hw.machine.inv taskID param top
  change losTaskCreate s.kernel taskID param top = _ at heq
  refine h.still hstep trivial ?_ (fun hbig => ?_) rfl rfl id h.sound
  all_goals
    unfold cpupHook
    dsimp only
    rw [heq]
    rcases ho with ⟨rfl, _⟩ | ⟨t, rfl, _, hcr⟩
  · exact h.idle
  · have hne : s.kernel.gIdleTaskID ≠ t := by
      intro he
      have hlive := ((hw.machine.inv.task t hcr.bound).idle he.symm).1
      rw [hcr.unused] at hlive
      cases hlive
    exact (congrArg OsCpupCB.status (modify_of_ne _ hne _)).trans h.idle
  · exact h.reads hbig
  · exact (h.reads hbig).create _ _

theorem CpupInv.delete {w : WaitState} (h : CpupInv s m) {taskID : Nat}
    (hstep : waitStep s.waits (.kernel (.delete taskID)) = some w) :
    CpupInv ⟨w, cpupHook s.kernel s.cpup (.kernel (.delete taskID))⟩
      (meterAfter m (observed s (.wait (.kernel (.delete taskID))) ⟨w, s.cpup⟩)) := by
  unfold cpupHook observed
  dsimp only
  split
  · refine h.still hstep trivial ?_ (fun hbig => ?_) rfl rfl (fun hm => ?_) ?_
    · unfold cpupTaskDelete
      by_cases he : s.kernel.gIdleTaskID = taskID
      · rw [he, modify_self]
        rfl
      · rw [modify_of_ne _ he]
        exact h.idle
    · exact (h.reads hbig).delete taskID
    · show (m.metered && _) = false
      rw [hm]
      rfl
    · exact h.sound.step 0 (.reset taskID) trivial trivial
  · exact h.unseen hstep trivial

omit [CpupConfig] in
theorem CpupInv.elapse (h : CpupInv s m) {cycles : Nat} {w : WaitState}
    (hstep : waitStep s.waits (.kernel (.elapse cycles)) = some w) :
    CpupInv ⟨w, s.cpup⟩ (m.pass (losSysCycleGet w.kernel)) ∧ m.now ≤ losSysCycleGet w.kernel := by
  obtain ⟨V, hw⟩ := h.waits
  have hw' := waitStep_inv hw hstep
  simp only [waitStep, kernelStep, Option.map_some, Option.some.injEq] at hstep
  subst hstep
  have hnow : m.now ≤ losSysCycleGet { s.kernel with cycle := s.kernel.cycle + cycles } := by
    rw [← h.now]
    unfold losSysCycleGet osGetCurrSchedTimeCycle
    dsimp only
    split
    · exact Nat.le_add_right _ _
    · exact Nat.le_refl _
  refine ⟨⟨hw', h.newTask, h.turn, h.off, rfl, Nat.lt_of_lt_of_le h.cycle (Nat.le_add_right _ _),
    h.idle, ?_, fun hbig => ?_⟩, hnow⟩
  · exact h.sound.step 0 (.pass _) hnow trivial
  · exact (h.reads (Nat.lt_of_le_of_lt hnow hbig)).pass hnow

omit [CpupConfig] in
theorem CpupInv.start (h : CpupInv s m) {w : WaitState} (hstep : waitStep s.waits (.kernel .start) = some w) :
    CpupInv ⟨w, s.cpup⟩ { m.pass (losSysCycleGet w.kernel) with running := runID w.kernel, metered := false } ∧
      m.now ≤ losSysCycleGet w.kernel := by
  obtain ⟨V, hw⟩ := h.waits
  have hw' := waitStep_inv hw hstep
  obtain ⟨k', hk', rfl⟩ := Option.map_eq_some_iff.mp hstep
  simp only [kernelStep] at hk'
  split at hk'
  · cases hk'
  · next hs =>
    have hoff : s.kernel.gTaskScheduled = false := Bool.eq_false_iff.mpr hs
    obtain ⟨hnew, hlt, hid, hsched, hcyc, hidle⟩ := osSchedStart_run hw.machine hoff hk'
    have hmet : m.metered = false := h.off hoff
    have hzero : m.now = 0 := by
      rw [← h.now]
      unfold losSysCycleGet osGetCurrSchedTimeCycle
      rw [hoff]
      rfl
    have hnow : m.now ≤ losSysCycleGet k' := by
      rw [hzero]
      exact Nat.zero_le _
    have hsound := (h.sound.step 0 (.pass (losSysCycleGet k')) hnow trivial).step 0 (.enter (runID k'))
      trivial trivial
    refine ⟨⟨hw', ?_, fun _ => ⟨?_, rfl, ?_⟩, fun _ => rfl, rfl, ?_, ?_, hsound, fun hbig => ?_⟩, hnow⟩
    · show k'.newTask < _
      rw [hnew]
      exact hlt
    · show newID k' = runID k'
      unfold newID runID
      rw [hnew]
    · show runID k' < _
      rw [hid]
      exact hlt
    · show 0 < k'.cycle
      rw [hcyc]
      exact h.cycle
    · show (s.cpup.gCpup k'.gIdleTaskID).status = _
      rw [hidle]
      exact h.idle
    · have hreads := h.reads (Nat.lt_of_le_of_lt hnow hbig)
      have hsame : (m.pass (losSysCycleGet k')).time = m.time := if_neg (by simp [hmet])
      refine ⟨hreads.init, fun i hi _ => ?_, fun i hi _ => hreads.rest i hi fun _ => hmet,
        fun _ hm => absurd hm Bool.false_ne_true, hreads.id, hreads.pos, hreads.history, hreads.last⟩
      exact (hreads.time i hi fun _ => hmet).trans (congrFun hsame i).symm

theorem CpupInv.pendSV (h : CpupInv s m) {w : WaitState} (hstep : waitStep s.waits (.kernel .pendSV) = some w) :
    CpupInv ⟨w, cpupHook s.kernel s.cpup (.kernel .pendSV)⟩
      (meterAfter m (observed s (.wait (.kernel .pendSV)) ⟨w, s.cpup⟩)) := by
  obtain ⟨V, hw⟩ := h.waits
  have hw' := waitStep_inv hw hstep
  obtain ⟨k', hk', rfl⟩ := Option.map_eq_some_iff.mp hstep
  simp only [kernelStep] at hk'
  split at hk'
  · next hp =>
    obtain ⟨r, hr, hsame, hrn, hturn, hrun, hlt, hid, hsched', hcyc, hidle⟩ := halPendSV_run hw.machine hp hk'
    have hsched : s.kernel.gTaskScheduled = true := hw.machine.settled.request hp
    obtain ⟨hnew, hmr, hmlt⟩ := h.turn hsched
    have hclock : losSysCycleGet k' = m.now := by
      rw [← h.now]
      unfold losSysCycleGet osGetCurrSchedTimeCycle
      rw [hsched', hcyc, hsched]
      rfl
    have hclock₁ : losSysCycleGet r.1 = m.now := by
      rw [← h.now]
      unfold losSysCycleGet osGetCurrSchedTimeCycle
      rw [hsame.gTaskScheduled, hsame.cycle]
      rfl
    have hrunID : runID r.1 = m.running := by
      rw [hmr]
      unfold runID
      rw [hsame.runTask, hsame.id]
      rfl
    have hnlt : k'.newTask < gTaskMaxNum := by
      rw [← hrun]
      exact hlt
    have hnewID : newID r.1 = k'.newTask := by
      unfold newID
      rw [hrn, hsame.id]
      exact (hw.machine.inv.task _ hnlt).id
    have hnow' : ∀ m' : Meter Nat, m'.now = m.now → losSysCycleGet k' = m'.now := fun m' hm' =>
      hclock.trans hm'.symm
    have hid' : newID k' = runID k' := by
      unfold newID runID
      rw [hrun]
    have hcycle : 0 < k'.cycle := by
      rw [hcyc]
      exact h.cycle
    have hoff : k'.gTaskScheduled = false → ∀ b : Bool, b = false := by
      intro hoff
      rw [hsched'] at hoff
      cases hoff
    have hquiet : ∀ c : CpupState, (∀ i, (c.gCpup i).status = (s.cpup.gCpup i).status) →
        (c.gCpup k'.gIdleTaskID).status = noStatus := by
      intro c hc
      rw [hc, hidle]
      exact h.idle
    have hhook : cpupHook s.kernel s.cpup (.kernel .pendSV) =
        if s.kernel.runTask ≠ k'.newTask then osTskCycleEndStart r.1 s.cpup else s.cpup := by
      unfold cpupHook
      dsimp only
      change osSchedTaskSwitch { s.kernel with pendSV := false } = some r at hr
      change r.2 = decide (s.kernel.runTask ≠ k'.newTask) at hturn
      rw [hr]
      dsimp only
      simp only [hturn, decide_eq_true_eq]
    rw [hhook]
    unfold observed
    dsimp only
    rw [show (CpupKernel.kernel ⟨{ s.waits with kernel := k' }, s.cpup⟩) = k' from rfl, hrun]
    by_cases hne : s.kernel.runTask = k'.newTask
    · rw [if_neg (not_not.mpr hne), if_neg (not_not.mpr hne)]
      refine ⟨hw', hnlt, fun _ => ⟨hid', ?_, hmlt⟩, fun hf => hoff hf _, hnow' m rfl, hcycle,
        hquiet s.cpup fun _ => rfl, h.sound, h.reads⟩
      -- the same task goes on
      show m.running = runID k'
      have hself := (hw.machine.inv.task _ hnlt).id
      rw [hmr, hid, hrun]
      unfold runID
      rw [hne]
      exact hself
    · rw [if_pos hne, if_pos hne]
      have hrunk : runID k' = k'.newTask := hid.trans hrun
      have hdispatch : meterAfter m [.dispatch (runID k')] = m.dispatch CpupConfig.gSysClock k'.newTask := by
        rw [hrunk]
        rfl
      rw [hdispatch]
      have hrunning : (m.dispatch CpupConfig.gSysClock k'.newTask).running = k'.newTask ∧
          (m.dispatch CpupConfig.gSysClock k'.newTask).now = m.now := by
        unfold Meter.dispatch
        dsimp only
        split <;> exact ⟨rfl, rfl⟩
      refine ⟨hw', hnlt, fun _ => ⟨hid', ?_, ?_⟩, fun hf => hoff hf _, hnow' _ hrunning.2, hcycle,
        hquiet _ fun i => osTskCycleEndStart_status _ _ i, ?_, fun hbig => ?_⟩
      · rw [hrunning.1]
        exact hrunk.symm
      · rw [hrunning.1]
        exact hnlt
      · exact h.sound.step _ (.dispatch k'.newTask) trivial (Finset.mem_range.mpr hnlt)
      · rw [hrunning.2] at hbig
        have hswitch := (h.reads hbig).switch hclock₁ (h.pos hsched) hbig hrunID hmlt (h.time_lt hmlt hbig)
          h.sound.ordered.last (by rw [hnewID]; exact hnlt)
        rw [hnewID] at hswitch
        exact hswitch
  · cases hk'

theorem meteredStep_inv {event : CpupEvent} (h : CpupInv s m)
    (hstep : MeteredStep (s, m) event (s', m')) : CpupInv s' m' := by
  obtain ⟨hs, hm⟩ := hstep
  dsimp only at hs hm
  rw [hm]
  cases event with
  | wait e =>
    obtain ⟨w, hw, rfl⟩ := Option.map_eq_some_iff.mp hs
    cases e with
    | kernel e =>
      cases e with
      | create taskID param top => exact h.create hw
      | delete taskID => exact h.delete hw
      | start => exact (h.start hw).1
      | elapse cycles => exact (h.elapse hw).1
      | pendSV => exact h.pendSV hw
      | createOnly taskID param top => exact h.unseen hw trivial
      | resume taskID => exact h.unseen hw trivial
      | suspend taskID => exact h.unseen hw trivial
      | priSet taskID taskPrio => exact h.unseen hw trivial
      | yield => exact h.unseen hw trivial
      | delay tick => exact h.unseen hw trivial
      | lock => exact h.unseen hw trivial
      | unlock => exact h.unseen hw trivial
      | schedule => exact h.unseen hw trivial
      | tick expired => exact h.unseen hw trivial
    | wait list ticks => exact h.unseen hw trivial
    | wake resumedTask => exact h.unseen hw trivial
    | inherit taskCB priority => exact h.unseen hw trivial
    | clearTimeout taskCB => exact h.unseen hw trivial
    | setUp list => exact h.unseen hw trivial
    | giveBack list => exact h.unseen hw trivial
  | sysCpuUsage =>
    obtain ⟨hsched, heq⟩ := Option.ite_none_right_eq_some.mp hs
    cases heq
    exact h.asked hsched (losSysCpuUsage_cases s.kernel s.cpup)
  | historySysCpuUsage mode =>
    obtain ⟨hsched, heq⟩ := Option.ite_none_right_eq_some.mp hs
    cases heq
    exact h.asked hsched (losHistorySysCpuUsage_cases s.kernel s.cpup mode)
  | taskCpuUsage taskID =>
    obtain ⟨hsched, heq⟩ := Option.ite_none_right_eq_some.mp hs
    cases heq
    exact h.asked hsched (losTaskCpuUsage_cases s.kernel s.cpup taskID)
  | historyTaskCpuUsage taskID mode =>
    obtain ⟨hsched, heq⟩ := Option.ite_none_right_eq_some.mp hs
    cases heq
    exact h.asked hsched (losHistoryTaskCpuUsage_cases s.kernel s.cpup taskID mode)
  | allTaskCpuUsage cpupInfo mode =>
    obtain ⟨hsched, heq⟩ := Option.ite_none_right_eq_some.mp hs
    cases heq
    exact h.asked hsched (losAllTaskCpuUsage_cases s.kernel s.cpup cpupInfo mode)

omit [CpupConfig] in
theorem booted_newTask {k : KernelState} (hk : Booted k) : k.newTask = 0 := by
  obtain ⟨k₀, _, _, hidle⟩ := hk
  have hlists : ∀ (k : KernelState) (l : List Nat),
      (l.foldl (fun k pri => losListInit k (.gPriQueueList pri)) k).newTask = k.newTask := by
    intro k l
    induction l generalizing k with
    | nil => rfl
    | cons p l ih => exact ih _
  have hinit : (osTaskInit k₀).newTask = 0 := hlists _ _
  unfold osIdleTaskCreate at hidle
  obtain ⟨r, hr, hidle⟩ := Option.bind_eq_some_iff.mp hidle
  have h₁ := (sameRun_losTaskCreateOnly hr).newTask
  split at hidle
  · rw [Option.some.injEq, Prod.mk.injEq] at hidle
    rw [← hidle.1]
    exact h₁.trans hinit
  · obtain ⟨k₂, henq, hidle⟩ := Option.bind_eq_some_iff.mp hidle
    have h₂ := (sameRun_osSchedTaskEnQueue henq).newTask
    rw [Option.some.injEq, Prod.mk.injEq] at hidle
    rw [← hidle.1]
    exact h₂.trans (h₁.trans hinit)

omit [CpupConfig] in
theorem cpupBooted_inv (hmax : gTaskMaxNum ≤ osInvalid) (hb : CpupBooted s) : CpupInv s newMeter := by
  obtain ⟨hw, hcycle, htable⟩ := hb
  obtain ⟨V, _, _, hoff, _⟩ := booted_machine hmax hw.1
  have hzero : ∀ x : Nat, newMeter.reading x = fun _ => 0 := fun x => rfl
  refine ⟨waitBooted_inv hmax hw, ?_, fun hsched => ?_, fun _ => rfl, ?_, hcycle, by rw [htable]; rfl, ⟨⟨Nat.le_refl _, ?_, ?_⟩, ?_, ?_⟩,
    fun _ => ?_⟩
  · show s.waits.kernel.newTask < gTaskMaxNum
    rw [booted_newTask hw.1]
    exact Nat.succ_pos _
  · rw [show s.kernel.gTaskScheduled = false from hoff] at hsched
    cases hsched
  · unfold losSysCycleGet osGetCurrSchedTimeCycle
    rw [if_neg (by rw [show s.kernel.gTaskScheduled = false from hoff]; exact Bool.false_ne_true)]
    rfl
  · exact fun r hr => absurd hr List.not_mem_nil
  · exact List.Pairwise.nil
  · exact (Finset.sum_const_zero).le
  · exact fun hm => absurd hm Bool.false_ne_true
  · rw [htable]
    exact ⟨rfl, fun _ _ _ => rfl, fun _ _ _ => rfl, fun _ hm => absurd hm Bool.false_ne_true,
      fun _ _ hs => absurd rfl hs, by decide, fun _ _ _ _ => rfl, rfl⟩

theorem meteredRun_inv {s₀ : CpupKernel} {events : List CpupEvent} (hmax : gTaskMaxNum ≤ osInvalid)
    (hb : CpupBooted s₀) (hrun : Run MeteredStep (s₀, newMeter) events (s, m)) : CpupInv s m := by
  have hstart : CpupInv s₀ newMeter := cpupBooted_inv hmax hb
  refine run_invariant (fun p => CpupInv p.1 p.2) ?_ hrun hstart
  rintro ⟨s, m⟩ event ⟨s', m'⟩ h hstep
  exact meteredStep_inv h hstep

end

/-- The time a task has run so far: its entry, with the interval that is still open. -/
def taskTime (k : KernelState) (cb : OsCpupCB) : Nat :=
  cb.allTime + if cb.startTime = 0 then 0 else losSysCycleGet k - cb.startTime

/-- The table has what the meter has. -/
structure MetersRight (s : CpupKernel) (m : Meter Nat) : Prop where
  time : ∀ i < gTaskMaxNum, taskTime s.kernel (s.cpup.gCpup i) = m.time i
  started : ∀ i < gTaskMaxNum, (s.cpup.gCpup i).startTime ≠ 0 ↔ m.metered = true ∧ i = runID s.kernel
  history : ∀ i < gTaskMaxNum, ∀ j < osCpupHistoryRecordNum,
    (s.cpup.gCpup i).historyTime (hisIndex s.cpup.gHisPos j) = m.reading j i
  total : m.total (Finset.range gTaskMaxNum) ≤ losSysCycleGet s.kernel

section

variable {s : CpupKernel} {m : Meter Nat}

omit [CpupConfig] in
theorem CpupInv.metersRight (h : CpupInv s m) (hbig : m.now < 2 ^ 64) : MetersRight s m := by
  have hr := h.reads hbig
  have hrun : m.metered = true → m.running = runID s.kernel ∧ m.running < gTaskMaxNum := by
    intro hm
    cases hs : s.kernel.gTaskScheduled with
    | false =>
      rw [h.off hs] at hm
      cases hm
    | true => exact (h.turn hs).2
  refine ⟨fun i hi => ?_, fun i hi => ?_, hr.history, ?_⟩
  · unfold taskTime
    by_cases hopen : i = m.running ∧ m.metered = true
    · obtain ⟨rfl, hm⟩ := hopen
      obtain ⟨hpos, _, hsum⟩ := hr.start hi hm
      rw [if_neg (Nat.ne_of_gt hpos), h.now]
      exact hsum
    · have hne : i = m.running → m.metered = false := fun he => Bool.eq_false_iff.mpr fun hm => hopen ⟨he, hm⟩
      rw [if_pos (hr.rest i hi hne)]
      exact hr.time i hi hne
  · constructor
    · intro hs
      by_contra hno
      refine hs (hr.rest i hi fun he => Bool.eq_false_iff.mpr fun hm => hno ⟨hm, ?_⟩)
      exact he.trans (hrun hm).1
    · rintro ⟨hm, rfl⟩
      obtain ⟨he, hlt⟩ := hrun hm
      rw [← he]
      exact Nat.ne_of_gt (hr.start hlt hm).1
  · rw [h.now]
    exact h.sound.total

/-- The times of the table are those of the meter, in every state that the system reaches. -/
theorem cpup_meters_right {s₀ : CpupKernel} {events : List CpupEvent} (hmax : gTaskMaxNum ≤ osInvalid)
    (hb : CpupBooted s₀) (hrun : Run MeteredStep (s₀, newMeter) events (s, m))
    (hbig : losSysCycleGet s.kernel < 2 ^ 64) : MetersRight s m := by
  have h := meteredRun_inv hmax hb hrun
  exact h.metersRight (by rw [← h.now]; exact hbig)

end

def meteredNext (p : CpupKernel × Meter Nat) (event : CpupEvent) : Option (CpupKernel × Meter Nat) :=
  (cpupStep p.1 event).map fun s => (s, meterAfter p.2 (observed p.1 event s))

theorem meteredRun_of_foldlM {p p' : CpupKernel × Meter Nat} {events : List CpupEvent}
    (h : events.foldlM meteredNext p = some p') : Run MeteredStep p events p' := by
  refine run_mono (fun q event q' hq => ?_) (run_of_foldlM h)
  obtain ⟨s, hs, rfl⟩ := Option.map_eq_some_iff.mp hq
  exact ⟨hs, rfl⟩

def smallCpup : CpupKernel :=
  letI := smallConfig
  { waits := ⟨((osIdleTaskCreate (osTaskInit { zeroedKernel with cycle := 5 })).map Prod.fst).getD zeroedKernel,
      fun _ => false⟩
    cpup := { gCpupInitFlg := true, gCpup := fun _ => clearedCpupCB, gLastRecordTime := 0, gHisPos := 0 } }

@[reducible]
def smallCpupConfig : CpupConfig where
  gSysClock := 50
  gCyclesPerTick := 10

omit [Config] [CpupConfig] in
theorem smallCpup_booted : @CpupBooted smallConfig smallCpup := by
  let := smallConfig
  refine ⟨⟨⟨{ zeroedKernel with cycle := 5 }, rfl, rfl, ?_⟩, fun _ => rfl⟩, by decide +kernel, rfl⟩
  have hok : (osIdleTaskCreate (osTaskInit { zeroedKernel with cycle := 5 })).map Prod.snd = some .losOk := by
    decide +kernel
  unfold smallCpup
  cases h : osIdleTaskCreate (osTaskInit { zeroedKernel with cycle := 5 }) with
  | none =>
    rw [h] at hok
    cases hok
  | some r =>
    rw [h] at hok
    injection hok with hok
    show some r = some (r.1, Errno.losOk)
    rw [← hok]

/-- A task works, sleeps, and the idle task runs. -/
def smallEvents : List CpupEvent :=
  [.wait (.kernel (.create true (some { pfnTaskEntry := some 7, usTaskPrio := 10, uwStackSize := 64
                                        pcName := some "T" }) true)),
    .wait (.kernel .start), .wait (.kernel (.elapse 20)), .sysCpuUsage, .wait (.kernel (.elapse 75)),
    .wait (.kernel (.delay 5)), .wait (.kernel .pendSV), .wait (.kernel (.elapse 25))]

omit [Config] [CpupConfig] in
theorem cpup_meters_right_small :
    let _ := smallConfig
    let _ := smallCpupConfig
    ∃ p, smallEvents.foldlM meteredNext (smallCpup, newMeter) = some p ∧ MetersRight p.1 p.2 := by
  let := smallConfig
  let := smallCpupConfig
  obtain ⟨p, hp⟩ : ∃ p, smallEvents.foldlM meteredNext (smallCpup, newMeter) = some p :=
    Option.isSome_iff_exists.mp (by decide +kernel)
  have hcycle : (smallEvents.foldlM meteredNext (smallCpup, newMeter)).map
      (fun p => losSysCycleGet p.1.kernel) = some 125 := by decide +kernel
  rw [hp, Option.map_some, Option.some.injEq] at hcycle
  refine ⟨p, hp, cpup_meters_right (by decide) smallCpup_booted (meteredRun_of_foldlM hp) ?_⟩
  rw [hcycle]
  decide

end LiteosM.Cpup
