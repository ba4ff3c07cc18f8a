import LiteosM.Kernel.TimeSlice

/-!
# The accounts of the time slices

`OsTimeSliceUpdate` charges a task in 32-bit arithmetic, and a slice is filled only when its task
is entered into the ready queue. The run carries the time of the last turn on the processor.
-/

namespace LiteosM.Kernel

open LiteosM.Lib.DlList LiteosM.Lib.Transition

variable [Config]

/-- `since` is when the running task got its turn. The stand-in of a task that deleted itself has
kept its start time since the start-up. -/
structure SliceState where
  wait : WaitState
  since : Nat

/-- When the turn of the running task began, as an event leaves it. -/
def turnAfter (k k' : KernelState) (since : Nat) : WaitEvent → Nat
  | .kernel .start => k.cycle
  | .kernel .pendSV => k.cycle
  | .kernel (.delete _) => if k'.runTask = gTaskMaxNum then 0 else since
  | _ => since

def sliceStep (s : SliceState) (event : WaitEvent) : Option SliceState :=
  (waitStep s.wait event).map fun w => ⟨w, turnAfter s.wait.kernel w.kernel s.since event⟩

/-- The event runs `OsTimeSliceUpdate`. -/
def WaitEvent.charges : WaitEvent → Bool
  | .kernel (.tick _) => true
  | .kernel .pendSV => true
  | _ => false

/-- The turn of a task has not lasted `2 ^ 31` cycles; the idle task may go on, but the clock is read
that often. -/
def InTime (k : KernelState) (since : Nat) : Prop :=
  if k.runTask = k.gIdleTaskID then k.cycle < (k.gTaskCBArray k.runTask).startTime + 2147483648
  else k.cycle < since + 2147483648

instance (k : KernelState) (since : Nat) : Decidable (InTime k since) := by
  unfold InTime
  exact inferInstance

def timelyStep (s : SliceState) (event : WaitEvent) : Option SliceState :=
  if event.charges = true → InTime s.wait.kernel s.since then sliceStep s event else none

/-- `OsTimeSliceUpdate` of the running task in unbounded integers. -/
def charged (k : KernelState) : KernelState :=
  k.modifyTask k.runTask fun cb =>
    { cb with
      timeSlice := if cb.taskID ≠ k.gIdleTaskID then cb.timeSlice - (k.cycle - cb.startTime : Int)
        else cb.timeSlice
      startTime := k.cycle }

/-- No slice is too long, and a task that has nothing left of it is entered at the tail. -/
structure SlicesRight (k : KernelState) : Prop where
  le : ∀ t ≤ gTaskMaxNum, (k.gTaskCBArray t).timeSlice ≤ Config.osSchedTimeSlices
  tail : ∀ t < gTaskMaxNum, t ≠ k.gIdleTaskID → (k.gTaskCBArray t).timeSlice ≤ 0 →
    ∀ k', osSchedTaskEnQueue k t = some k' → k'.links =
      (losListTailInsert k (.gPriQueueList (k.gTaskCBArray t).priority) (.pendList t)).links

/-- The running task is charged what it would be without a bound on the numbers, and entered at the
tail if nothing is left then. -/
structure ChargeRight (k : KernelState) : Prop where
  incTime : toInt32 (k.cycle - (k.gTaskCBArray k.runTask).startTime) =
    k.cycle - (k.gTaskCBArray k.runTask).startTime
  charge : osTimeSliceUpdate k k.runTask k.cycle = some (charged k)
  tail : k.runTask < gTaskMaxNum → k.runTask ≠ k.gIdleTaskID →
    (k.gTaskCBArray k.runTask).timeSlice ≤ k.cycle - (k.gTaskCBArray k.runTask).startTime →
    ∀ k₁ k₂, osTimeSliceUpdate k k.runTask k.cycle = some k₁ →
      osSchedTaskEnQueue k₁ k.runTask = some k₂ → k₂.links = (losListTailInsert k
        (.gPriQueueList (k.gTaskCBArray k.runTask).priority) (.pendList k.runTask)).links

structure SliceInv (k : KernelState) (since : Nat) : Prop where
  le : ∀ t ≤ gTaskMaxNum, (k.gTaskCBArray t).timeSlice ≤ Config.osSchedTimeSlices
  ready : ∀ t < gTaskMaxNum, t ≠ k.runTask → t ≠ k.gIdleTaskID →
    (k.gTaskCBArray t).taskStatus.ready = true → 0 ≤ (k.gTaskCBArray t).timeSlice
  run : k.gTaskScheduled → k.runTask < gTaskMaxNum → k.runTask ≠ k.gIdleTaskID →
    since ≤ (k.gTaskCBArray k.runTask).startTime ∧
      (since : Int) ≤ (k.gTaskCBArray k.runTask).timeSlice + (k.gTaskCBArray k.runTask).startTime
  spare : 0 ≤ (k.gTaskCBArray gTaskMaxNum).timeSlice + (k.gTaskCBArray gTaskMaxNum).startTime
  stand : k.gTaskScheduled → k.runTask = gTaskMaxNum → since = 0

section

variable {k k' : KernelState} {V V' : View Node} {since : Nat} {idle u : Nat} {cb cb' : LosTaskCB}

theorem SliceTask.le (h : SliceTask idle u cb cb') (hle : cb.timeSlice ≤ Config.osSchedTimeSlices) :
    cb'.timeSlice ≤ Config.osSchedTimeSlices := by
  rcases h.2.2 with ⟨heq, _⟩ | hfill
  · rw [heq]
    exact hle
  · exact hfill.2

theorem SliceTask.floor (h : SliceTask idle u cb cb') {a : Nat} (ha : a ≤ cb.startTime)
    (hle : (a : Int) ≤ cb.timeSlice + cb.startTime) :
    a ≤ cb'.startTime ∧ (a : Int) ≤ cb'.timeSlice + cb'.startTime := by
  obtain ⟨hs, _, hc⟩ := h
  rw [hs]
  refine ⟨ha, ?_⟩
  rcases hc with ⟨heq, _⟩ | hfill
  · rw [heq]
    exact hle
  · omega

theorem SliceTask.ready (h : SliceTask idle u cb cb') (hu : u < gTaskMaxNum) (hid : cb.taskID ≠ idle)
    (hle : cb.taskStatus.ready = true → 0 ≤ cb.timeSlice) (hr : cb'.taskStatus.ready = true) :
    0 ≤ cb'.timeSlice := by
  rcases h.2.2 with ⟨heq, hready⟩ | hfill
  · rw [heq]
    rcases hready hu hr with h | h | h
    · exact hle h
    · exact h
    · exact absurd h hid
  · exact hfill.1

theorem SliceInv.floor (h : SliceInv k since) (hsched : k.gTaskScheduled) (hrun : k.runTask ≤ gTaskMaxNum)
    (hidle : k.runTask ≠ k.gIdleTaskID) : since ≤ (k.gTaskCBArray k.runTask).startTime ∧
      (since : Int) ≤ (k.gTaskCBArray k.runTask).timeSlice + (k.gTaskCBArray k.runTask).startTime := by
  rcases Nat.lt_or_eq_of_le hrun with hlt | heq
  · exact h.run hsched hlt hidle
  · have hspare := h.spare
    rw [h.stand hsched heq, heq]
    exact ⟨Nat.zero_le _, by omega⟩

theorem SliceInv.kept (h : SliceInv k since) (hi : KernelInv k V) (hk : SliceKept k k')
    (hrun : k'.runTask = k.runTask) (hsched : k'.gTaskScheduled = k.gTaskScheduled) :
    SliceInv k' since := by
  refine ⟨fun t ht => (hk.task t).le (h.le t ht), fun t ht hne hid hr => ?_, fun hs hlt hid => ?_, ?_,
    fun hs heq => ?_⟩
  · rw [hrun] at hne
    rw [hk.idle] at hid
    have htask := (hi.task t ht).id
    exact (hk.task t).ready ht (by rw [htask]; exact hid) (h.ready t ht hne hid) hr
  · rw [hrun] at hlt hid ⊢
    rw [hk.idle] at hid
    rw [hsched] at hs
    obtain ⟨h1, h2⟩ := h.run hs hlt hid
    exact (hk.task k.runTask).floor h1 h2
  · have hspare := h.spare
    exact ((hk.task gTaskMaxNum).floor (Nat.zero_le _) (by simpa using hspare)).2
  · rw [hrun] at heq
    rw [hsched] at hs
    exact h.stand hs heq

omit [Config] in
theorem toInt32_eq {x : Int} (hlo : -2147483648 ≤ x) (hhi : x < 2147483648) : toInt32 x = x := by
  unfold toInt32
  apply Int.bmod_eq_of_le <;> omega

theorem SliceInv.bounds (h : SliceInv k since) (hi : KernelInv k V) (hsched : k.gTaskScheduled)
    (hin : InTime k since) : (k.gTaskCBArray k.runTask).startTime ≤ k.cycle ∧
      k.cycle < (k.gTaskCBArray k.runTask).startTime + 2147483648 ∧
      (k.runTask ≠ k.gIdleTaskID →
        -2147483648 ≤ (k.gTaskCBArray k.runTask).timeSlice - (k.cycle -
          (k.gTaskCBArray k.runTask).startTime)) := by
  have hstart := hi.startTime hi.run
  rw [show osGetCurrSchedTimeCycle k = k.cycle from if_pos hsched] at hstart
  unfold InTime at hin
  by_cases hid : k.runTask = k.gIdleTaskID
  · rw [if_pos hid] at hin
    exact ⟨hstart, hin, fun h => absurd hid h⟩
  · rw [if_neg hid] at hin
    obtain ⟨h1, h2⟩ := h.floor hsched hi.run hid
    exact ⟨hstart, by omega, fun _ => by omega⟩

theorem osTimeSliceUpdate_charged (hc : SliceConfigOk) (h : SliceInv k since) (hi : KernelInv k V)
    (hsched : k.gTaskScheduled) (hin : InTime k since) :
    toInt32 (k.cycle - (k.gTaskCBArray k.runTask).startTime) =
      k.cycle - (k.gTaskCBArray k.runTask).startTime ∧
    osTimeSliceUpdate k k.runTask k.cycle = some (charged k) := by
  have hsmall := hc.small
  have hle := h.le _ hi.run
  obtain ⟨hstart, hinc, hlow⟩ := h.bounds hi hsched hin
  have hexact : toInt32 (k.cycle - (k.gTaskCBArray k.runTask).startTime) =
      k.cycle - (k.gTaskCBArray k.runTask).startTime := toInt32_eq (by omega) (by omega)
  refine ⟨hexact, ?_⟩
  unfold osTimeSliceUpdate charged
  dsimp only
  rw [if_neg (Nat.not_lt.mpr hstart), hexact]
  congr 1
  unfold KernelState.modifyTask
  dsimp only
  congr 2
  by_cases htask : (k.gTaskCBArray k.runTask).taskID ≠ k.gIdleTaskID
  · have hid : k.runTask ≠ k.gIdleTaskID := by
      intro heq
      apply htask
      rw [heq]
      exact (hi.task _ (hi.idle hsched)).id
    have hlow := hlow hid
    rw [if_pos htask, if_pos htask, toInt32_eq (by omega) (by omega)]
  · rw [if_neg htask, if_neg htask]

omit [Config] in
theorem charged_runTask (k : KernelState) : (charged k).gTaskCBArray k.runTask =
    { k.gTaskCBArray k.runTask with
      timeSlice := if (k.gTaskCBArray k.runTask).taskID ≠ k.gIdleTaskID then
          (k.gTaskCBArray k.runTask).timeSlice - (k.cycle - (k.gTaskCBArray k.runTask).startTime : Int)
        else (k.gTaskCBArray k.runTask).timeSlice
      startTime := k.cycle } :=
  modifyTask_self k k.runTask _

omit [Config] in
theorem charged_of_ne (k : KernelState) {t : Nat} (ht : t ≠ k.runTask) :
    (charged k).gTaskCBArray t = k.gTaskCBArray t :=
  Function.update_of_ne ht _ _

omit [Config] in
theorem charged_status (k : KernelState) (t : Nat) :
    ((charged k).gTaskCBArray t).taskStatus = (k.gTaskCBArray t).taskStatus := by
  by_cases ht : t = k.runTask
  · rw [ht, charged_runTask]
  · rw [charged_of_ne k ht]

theorem SliceInv.charged (h : SliceInv k since) (hi : KernelInv k V) (hsched : k.gTaskScheduled) :
    SliceInv (charged k) since := by
  have hstart := hi.startTime hi.run
  rw [show osGetCurrSchedTimeCycle k = k.cycle from if_pos hsched] at hstart
  have hcb := charged_runTask k
  have hsum : ∀ a : Nat, a ≤ (k.gTaskCBArray k.runTask).startTime →
      (a : Int) ≤ (k.gTaskCBArray k.runTask).timeSlice + (k.gTaskCBArray k.runTask).startTime →
      a ≤ ((Kernel.charged k).gTaskCBArray k.runTask).startTime ∧
      (a : Int) ≤ ((Kernel.charged k).gTaskCBArray k.runTask).timeSlice +
        ((Kernel.charged k).gTaskCBArray k.runTask).startTime := by
    intro a ha hle
    rw [hcb]
    dsimp only
    split <;> omega
  refine ⟨fun t ht => ?_, fun t ht hne hid hr => ?_, fun hs hlt hid => ?_, ?_, h.stand⟩
  · have hle := h.le t ht
    by_cases htr : t = k.runTask
    · rw [htr] at hle ⊢
      rw [hcb]
      dsimp only
      split <;> omega
    · rw [charged_of_ne k htr]
      exact hle
  · rw [charged_of_ne k hne] at hr ⊢
    exact h.ready t ht hne hid hr
  · obtain ⟨h1, h2⟩ := h.run hs hlt hid
    exact hsum since h1 h2
  · have hspare := h.spare
    by_cases hrun : gTaskMaxNum = k.runTask
    · rw [hrun] at hspare ⊢
      exact (hsum 0 (Nat.zero_le _) (by simpa using hspare)).2
    · rw [charged_of_ne k hrun]
      exact hspare

omit [Config] in
theorem charged_taskID (k : KernelState) (t : Nat) :
    ((charged k).gTaskCBArray t).taskID = (k.gTaskCBArray t).taskID := by
  by_cases ht : t = k.runTask
  · rw [ht, charged_runTask]
  · rw [charged_of_ne k ht]

omit [Config] in
theorem osSchedTaskDeQueue_steady (k : KernelState) (t : Nat) :
    (osSchedTaskDeQueue k t).runTask = k.runTask ∧
      (osSchedTaskDeQueue k t).gTaskScheduled = k.gTaskScheduled := by
  unfold osSchedTaskDeQueue
  dsimp only
  split
  · split <;> exact ⟨rfl, rfl⟩
  · exact ⟨rfl, rfl⟩

omit [Config] in
theorem osSchedHandOver_slices (k : KernelState) (r n u : Nat) :
    ((osSchedHandOver k r n).gTaskCBArray u).timeSlice = (k.gTaskCBArray u).timeSlice ∧
    ((osSchedHandOver k r n).gTaskCBArray u).taskID = (k.gTaskCBArray u).taskID ∧
    ((osSchedHandOver k r n).gTaskCBArray u).taskStatus.ready = (k.gTaskCBArray u).taskStatus.ready ∧
    ((osSchedHandOver k r n).gTaskCBArray u).startTime =
      if u = n then (k.gTaskCBArray r).startTime else (k.gTaskCBArray u).startTime := by
  obtain ⟨_, _, _, _, hother, hr, hn, hrn⟩ := osSchedHandOver_spec k r n
  by_cases hne : r = n
  · by_cases hun : u = n
    · rw [hun, hrn hne, if_pos rfl, hne]
      exact ⟨rfl, rfl, rfl, rfl⟩
    · rw [hother u hun (by rwa [hne]), if_neg hun]
      exact ⟨rfl, rfl, rfl, rfl⟩
  · by_cases hun : u = n
    · rw [hun, hn hne, if_pos rfl]
      exact ⟨rfl, rfl, rfl, rfl⟩
    · rw [if_neg hun]
      by_cases hur : u = r
      · rw [hur, hr hne]
        exact ⟨rfl, rfl, rfl, rfl⟩
      · rw [hother u hun hur]
        exact ⟨rfl, rfl, rfl, rfl⟩

theorem halPendSV_slices (hc : SliceConfigOk) (h : SliceInv k since) (hi : KernelInv k V)
    (hsched : k.gTaskScheduled) (hin : InTime k since) (hsw : halPendSV k = some k') :
    SliceInv k' k.cycle := by
  have hi0 : KernelInv { k with pendSV := false } V :=
    hi.congr rfl rfl rfl rfl rfl rfl (Nat.le_refl _)
  have h0 : SliceInv { k with pendSV := false } since := ⟨h.le, h.ready, h.run, h.spare, h.stand⟩
  have hready : k.runTask < gTaskMaxNum → (k.gTaskCBArray k.runTask).taskStatus.ready = false := by
    intro hlt
    by_contra hr
    rw [halPendSV_ready hi hlt (by simpa using hr)] at hsw
    cases hsw
  obtain ⟨k2, V2, hpark, hc2, hm2, hp2, _, _, _, hst2, _⟩ := osSchedPark_spec hi0 hready
  obtain ⟨n, htop, hn, hrn, _⟩ := osGetTopTask_spec hc2 hp2
    (by rw [hm2.gIdleTaskID]; exact hi.idle hsched)
  have hch : osTimeSliceUpdate { k with pendSV := false } k.runTask k.cycle =
      some (charged { k with pendSV := false }) := (osTimeSliceUpdate_charged hc h0 hi0 hsched hin).2
  have hinv := h0.charged hi0 hsched
  have hnow : osGetCurrSchedTimeCycle { k with pendSV := false } = k.cycle := if_pos hsched
  have hstatus := charged_status { k with pendSV := false }
  have hidle : (charged { k with pendSV := false }).gIdleTaskID = k.gIdleTaskID := rfl
  have hk2 : SliceKept (charged { k with pendSV := false }) k2 := by
    unfold osSchedPark at hpark
    rw [hnow, hch] at hpark
    simp only [Option.bind_eq_bind, Option.bind_some] at hpark
    split at hpark
    · exact sliceKept_add2SortLink hpark
    · split at hpark
      · exact sliceKept_enQueue hc hpark
      · rw [← Option.some.inj hpark]
        exact sliceKept_refl _
  have hid1 : ∀ t < gTaskMaxNum, ((charged { k with pendSV := false }).gTaskCBArray t).taskID = t :=
    fun t ht => (charged_taskID _ t).trans (hi.task t ht).id
  have hrun1 : (charged { k with pendSV := false }).runTask = k.runTask := rfl
  generalize charged { k with pendSV := false } = k1 at hk2 hinv hstatus hidle hid1 hrun1
  have hready2 : ∀ t < gTaskMaxNum, t ≠ k.gIdleTaskID → (k2.gTaskCBArray t).taskStatus.ready = true →
      0 ≤ (k2.gTaskCBArray t).timeSlice := by
    intro t ht hid
    refine (hk2.task t).ready ht (by rw [hid1 t ht, hidle]; exact hid) fun hr => ?_
    by_cases htr : t = k.runTask
    · rw [hstatus t] at hr
      rw [htr] at hr ht
      exact absurd hr (by simpa using hready ht)
    · exact hinv.ready t ht (by rw [hrun1]; exact htr) (by rw [hidle]; exact hid) hr
  have hle2 : ∀ t ≤ gTaskMaxNum, (k2.gTaskCBArray t).timeSlice ≤ Config.osSchedTimeSlices :=
    fun t ht => (hk2.task t).le (hinv.le t ht)
  have hspare2 := ((hk2.task gTaskMaxNum).floor (Nat.zero_le _) (by simpa using hinv.spare)).2
  have hst2 : (k2.gTaskCBArray k.runTask).startTime = k.cycle := hst2.trans hnow
  have hslices := osSchedHandOver_slices k2 k.runTask n
  obtain ⟨_, _, hx3, hx4, _⟩ := osSchedHandOver_spec k2 k.runTask n
  unfold halPendSV at hsw
  rw [osSchedTaskSwitch_eq] at hsw
  simp only [hpark, Option.bind_eq_bind, Option.bind_some, htop, decide_eq_true_eq,
    Option.some.injEq, osSchedTaskDeQueue_newTask] at hsw
  have hxidle : (osSchedHandOver k2 k.runTask n).gIdleTaskID = k.gIdleTaskID :=
    hx3.gIdleTaskID.trans hm2.gIdleTaskID
  have hxrun : (osSchedHandOver k2 k.runTask n).runTask = k.runTask := hx3.runTask.trans hm2.runTask
  generalize osSchedHandOver k2 k.runTask n = kx at hsw hslices hx4 hxidle hxrun
  have hturn : (if k.runTask ≠ n then kx.newTask else (osSchedTaskDeQueue kx n).runTask) = n := by
    by_cases hne : k.runTask = n
    · rw [if_neg (not_not.mpr hne), (osSchedTaskDeQueue_steady kx n).1, hxrun, hne]
    · rw [if_pos hne, hx4]
  rw [hturn] at hsw
  have hkq := sliceKept_deQueue kx n
  rw [← hsw]
  constructor
  case le =>
    intro t ht
    refine (hkq.task t).le ?_
    rw [(hslices t).1]
    exact hle2 t ht
  case ready =>
    intro t ht hne hid
    have hid : t ≠ k.gIdleTaskID := by
      rw [← hxidle, ← hkq.idle]
      exact hid
    refine (hkq.task t).ready ht ?_ fun hr => ?_
    · rw [(hslices t).2.1, (hk2.task t).2.1 ht, hid1 t ht, hxidle]
      exact hid
    · rw [(hslices t).2.2.1] at hr
      rw [(hslices t).1]
      exact hready2 t ht hid hr
  case run =>
    intro _ _ hid
    have hid : n ≠ k.gIdleTaskID := by
      rw [← hxidle, ← hkq.idle]
      exact hid
    have hstart : (kx.gTaskCBArray n).startTime = k.cycle := by
      rw [(hslices n).2.2.2, if_pos rfl, hst2]
    have hpos : 0 ≤ (kx.gTaskCBArray n).timeSlice := by
      rw [(hslices n).1]
      exact hready2 n hn hid hrn
    exact (hkq.task n).floor hstart.ge (by omega)
  case spare =>
    refine ((hkq.task gTaskMaxNum).floor (Nat.zero_le _) ?_).2
    rw [(hslices gTaskMaxNum).1, (hslices gTaskMaxNum).2.2.2, if_neg (Nat.ne_of_gt hn)]
    exact_mod_cast hspare2
  case stand => exact fun _ heq => absurd heq (Nat.ne_of_lt hn)

theorem losSchedTickHandler_slices (hc : SliceConfigOk) (h : SliceInv k since) (hi : KernelInv k V)
    (hsched : k.gTaskScheduled) (hin : InTime k since) {expired : Bool}
    (ht : losSchedTickHandler k expired = some k') : SliceInv k' since := by
  have hrest : ∀ (r : KernelState × Bool) V', SliceKept k r.1 → KernelInv r.1 V' → Steady k r.1 →
      (if (r.2 && r.1.gLosTaskLock == 0) = true then some (halTaskSchedule r.1)
        else osTimeSliceUpdate r.1 r.1.runTask (osGetCurrSchedTimeCycle r.1)) = some k' →
      SliceInv k' since := by
    intro r V' hk hi' hst hr
    have h' := h.kept hi hk hst.runTask hst.gTaskScheduled
    split at hr
    · rw [← Option.some.inj hr]
      exact ⟨h'.le, h'.ready, h'.run, h'.spare, h'.stand⟩
    · have hsched' : r.1.gTaskScheduled = true := hst.gTaskScheduled.trans hsched
      have hnow : osGetCurrSchedTimeCycle r.1 = r.1.cycle := if_pos hsched'
      have hcycle : r.1.cycle = k.cycle := by
        rw [← hnow, hst.now]
        exact if_pos hsched
      have hin' : InTime r.1 since := by
        unfold InTime at hin ⊢
        rw [hst.runTask, hst.gIdleTaskID, hcycle, (hk.task k.runTask).1]
        exact hin
      rw [hnow, (osTimeSliceUpdate_charged hc h' hi' hsched' hin').2] at hr
      rw [← Option.some.inj hr]
      exact h'.charged hi' hsched'
  unfold losSchedTickHandler at ht
  rw [if_neg (by simp [hsched])] at ht
  cases expired with
  | false => exact hrest (k, false) V (sliceKept_refl k) hi (Steady.refl k) ht
  | true =>
    obtain ⟨k1, V1, b, heq1, hi1, hs1⟩ := osSchedScanTimerList_spec hi
    simp only [if_true, Option.bind_eq_bind, heq1, Option.bind_some] at ht
    exact hrest (k1, b) V1 (sliceKept_scan hc heq1) hi1 hs1.toSteady ht

theorem osSchedStart_slices (h : SliceInv k since) (hi : KernelInv k V) (hset : Settled k)
    (hsched : k.gTaskScheduled = false) (hidle : k.gIdleTaskID < gTaskMaxNum)
    (hstart : osSchedStart k = some k') : SliceInv k' k.cycle := by
  have hrun := hset.boot hsched
  have hother : ∀ u < gTaskMaxNum, u ≠ k.runTask := fun u hu => by omega
  obtain ⟨n, htop, hn, hrn, _⟩ := osGetTopTask_spec hi.core
    (fun u hu => (hi.task u hu).parked (hother u hu)) hidle
  unfold osSchedStart at hstart
  rw [htop] at hstart
  simp only [Option.bind_eq_bind, Option.bind_some, Option.some.injEq] at hstart
  have hnow : ∀ k0 : KernelState, k0.gTaskScheduled = true → osGetCurrSchedTimeCycle k0 = k0.cycle :=
    fun k0 h0 => if_pos h0
  rw [hnow _ rfl] at hstart
  -- apart from the start time and the running bit the block is as it was
  obtain ⟨kx, hx⟩ : ∃ kx, ({ k.modifyStatus n fun s => { s with running := true } with
      newTask := n, runTask := n, gTaskScheduled := true } : KernelState).modifyTask n
        (fun cb => { cb with startTime := k.cycle }) = kx := ⟨_, rfl⟩
  have hxn : kx.gTaskCBArray n = { k.gTaskCBArray n with
      taskStatus := { (k.gTaskCBArray n).taskStatus with running := true }, startTime := k.cycle } := by
    rw [← hx]
    refine (modifyTask_self _ n _).trans ?_
    show ({ (k.modifyStatus n fun s => { s with running := true }).gTaskCBArray n with
      startTime := k.cycle } : LosTaskCB) = _
    rw [modifyStatus_self]
  have hxu : ∀ u, u ≠ n → kx.gTaskCBArray u = k.gTaskCBArray u := by
    intro u hu
    rw [← hx]
    exact (Function.update_of_ne hu _ _).trans (Function.update_of_ne hu _ _)
  have hxrun : kx.runTask = n := by rw [← hx]; rfl
  have hxidle : kx.gIdleTaskID = k.gIdleTaskID := by rw [← hx]; rfl
  change osSchedTaskDeQueue (KernelState.modifyTask _ n fun cb => { cb with startTime := k.cycle }) n = k'
    at hstart
  rw [hx] at hstart
  have hkq := sliceKept_deQueue kx n
  have hsteady := osSchedTaskDeQueue_steady kx n
  rw [← hstart]
  constructor
  case le =>
    intro t ht
    refine (hkq.task t).le ?_
    by_cases htn : t = n
    · rw [htn, hxn]
      exact h.le n (Nat.le_of_lt hn)
    · rw [hxu t htn]
      exact h.le t ht
  case ready =>
    intro t ht hne hid
    rw [hsteady.1, hxrun] at hne
    rw [hkq.idle, hxidle] at hid
    refine (hkq.task t).ready ht ?_ ?_
    · rw [hxu t hne, (hi.task t ht).id, hxidle]
      exact hid
    · rw [hxu t hne]
      exact h.ready t ht (hother t ht) hid
  case run =>
    intro _ _ hid
    rw [hsteady.1, hxrun, hkq.idle, hxidle] at hid
    rw [hsteady.1, hxrun]
    have hpos := h.ready n hn (hother n hn) hid hrn
    refine (hkq.task n).floor ?_ ?_
    · rw [hxn]
    · rw [hxn]
      show (k.cycle : Int) ≤ (k.gTaskCBArray n).timeSlice + k.cycle
      omega
  case spare =>
    refine ((hkq.task gTaskMaxNum).floor (Nat.zero_le _) ?_).2
    rw [hxu _ (Nat.ne_of_gt hn)]
    exact_mod_cast h.spare
  case stand =>
    intro _ heq
    rw [hsteady.1, hxrun] at heq
    exact absurd heq (Nat.ne_of_lt hn)

theorem losTaskDelete_slices (h : SliceInv k since) (hi : KernelInv k V) {taskID : Nat} {r : Errno}
    (hd : losTaskDelete k taskID = some (k', r)) :
    SliceInv k' (if k'.runTask = gTaskMaxNum then 0 else since) := by
  have hk := sliceKept_delete hd
  obtain ⟨k1, V1, r1, heq, _, hq, _, ho, _⟩ := losTaskDelete_spec hi taskID
  rw [hd, Option.some.injEq, Prod.mk.injEq] at heq
  rw [← heq.1] at hq ho
  have hsame : k'.runTask = k.runTask → SliceInv k' (if k'.runTask = gTaskMaxNum then 0 else since) := by
    intro hrun
    have h' := h.kept hi hk hrun hq.gTaskScheduled
    split
    · next hmax =>
      exact ⟨h'.le, h'.ready, fun _ hlt => absurd hmax (Nat.ne_of_lt hlt), h'.spare, fun _ _ => rfl⟩
    · exact h'
  rcases ho with ⟨hkk, _⟩ | hdel
  · exact hsame (by rw [hkk])
  · by_cases hself : taskID = k.runTask
    · have hrun : k'.runTask = gTaskMaxNum := hdel.runTask.trans (if_pos hself)
      rw [if_pos hrun]
      refine ⟨fun t ht => (hk.task t).le (h.le t ht), fun t ht _ hid hr => ?_,
        fun _ hlt => absurd hrun (Nat.ne_of_lt hlt), ?_, fun _ _ => rfl⟩
      · rw [hk.idle] at hid
        have hne : t ≠ k.runTask := by
          rintro rfl
          rw [← hself, hdel.status] at hr
          cases hr
        exact (hk.task t).ready ht (by rw [(hi.task t ht).id]; exact hid) (h.ready t ht hne hid) hr
      · have hspare := h.spare
        exact ((hk.task gTaskMaxNum).floor (Nat.zero_le _) (by simpa using hspare)).2
    · exact hsame (hdel.runTask.trans (if_neg hself))

theorem kernelStep_slices (hc : SliceConfigOk) (h : SliceInv k since) (hm : Machine k V)
    {event : KernelEvent} (hin : WaitEvent.charges (.kernel event) = true → InTime k since)
    (hstep : kernelStep k event = some k') : SliceInv k' (turnAfter k k' since (.kernel event)) := by
  have hi := hm.inv
  obtain ⟨V', hm', _, hplain⟩ := kernelStep_spec hm hstep
  have hkept : ∀ e : KernelEvent, e = event → e.plain → SliceKept k k' → SliceInv k' since := by
    intro e he hp hk
    rw [← he] at hplain
    obtain ⟨_, hrun, hsched⟩ := hplain hp
    exact h.kept hi hk hrun hsched
  cases event with
  | create taskID param top =>
    obtain ⟨k1, V1, r, o, heq, _, hrun, _, ho⟩ := losTaskCreate_spec hi taskID param top
    simp only [kernelStep, heq, Option.map_some, Option.some.injEq] at hstep
    rw [← hstep]
    refine h.kept hi (sliceKept_create hc hi heq) hrun ?_
    rcases ho with ⟨_, hq⟩ | ⟨_, _, hq, _⟩ <;> exact hq.gTaskScheduled
  | createOnly taskID param top =>
    obtain ⟨k1, V1, r, o, heq, _, hrun, _, ho⟩ := losTaskCreateOnly_spec hi taskID param top
    simp only [kernelStep, heq, Option.map_some, Option.some.injEq] at hstep
    rw [← hstep]
    refine h.kept hi (sliceKept_createOnly hc hi heq) hrun ?_
    rcases ho with ⟨_, _, hq⟩ | ⟨_, _, hq, _⟩ <;> exact hq.gTaskScheduled
  | resume taskID =>
    simp only [kernelStep, Option.map_eq_some_iff] at hstep
    obtain ⟨r, heq, rfl⟩ := hstep
    exact hkept _ rfl trivial (sliceKept_resume hc heq)
  | suspend taskID =>
    simp only [kernelStep, Option.map_eq_some_iff] at hstep
    obtain ⟨r, heq, rfl⟩ := hstep
    exact hkept _ rfl trivial (sliceKept_suspend heq)
  | delete taskID =>
    simp only [kernelStep, Option.map_eq_some_iff] at hstep
    obtain ⟨r, heq, rfl⟩ := hstep
    exact losTaskDelete_slices h hi heq
  | priSet taskID taskPrio =>
    simp only [kernelStep, Option.map_eq_some_iff] at hstep
    obtain ⟨r, heq, rfl⟩ := hstep
    exact hkept _ rfl trivial (sliceKept_priSet hc heq)
  | yield =>
    simp only [kernelStep, Option.ite_none_right_eq_some, Option.some.injEq] at hstep
    obtain ⟨_, rfl⟩ := hstep
    exact hkept _ rfl trivial (sliceKept_yield hc k)
  | delay tick =>
    simp only [kernelStep, Option.ite_none_right_eq_some, Option.some.injEq] at hstep
    obtain ⟨_, rfl⟩ := hstep
    exact hkept _ rfl trivial (sliceKept_delay hc k tick)
  | lock =>
    simp only [kernelStep, Option.ite_none_right_eq_some, Option.some.injEq] at hstep
    obtain ⟨_, rfl⟩ := hstep
    exact hkept _ rfl trivial (sliceKept_of_tasks rfl rfl)
  | unlock =>
    simp only [kernelStep, Option.ite_none_right_eq_some, Option.some.injEq] at hstep
    obtain ⟨_, rfl⟩ := hstep
    refine hkept _ rfl trivial ?_
    unfold losTaskUnlock
    dsimp only
    split
    · split
      · have hlock : SliceKept k { k with gLosTaskLock := k.gLosTaskLock - 1 } := sliceKept_of_tasks rfl rfl
        exact hlock.trans (sliceKept_losSchedule _)
      · exact sliceKept_of_tasks rfl rfl
    · exact sliceKept_refl k
  | schedule =>
    simp only [kernelStep, Option.some.injEq] at hstep
    rw [← hstep] at hkept ⊢
    exact hkept _ rfl trivial (sliceKept_losSchedule k)
  | start =>
    simp only [kernelStep, Option.ite_none_left_eq_some] at hstep
    exact osSchedStart_slices h hi hm.settled (by simpa using hstep.1) hm.idle hstep.2
  | tick expired =>
    simp only [kernelStep, Option.ite_none_right_eq_some] at hstep
    exact losSchedTickHandler_slices hc h hi hstep.1 (hin rfl) hstep.2
  | pendSV =>
    simp only [kernelStep, Option.ite_none_right_eq_some] at hstep
    exact halPendSV_slices hc h hi (hm.settled.request hstep.1) (hin rfl) hstep.2
  | elapse cycles =>
    simp only [kernelStep, Option.some.injEq] at hstep
    rw [← hstep]
    exact ⟨h.le, h.ready, h.run, h.spare, h.stand⟩

theorem sliceStep_inv (hc : SliceConfigOk) {s s' : SliceState} {event : WaitEvent}
    (hi : WaitInv s.wait V) (h : SliceInv s.wait.kernel s.since)
    (hstep : timelyStep s event = some s') :
    (∃ V', WaitInv s'.wait V') ∧ SliceInv s'.wait.kernel s'.since := by
  simp only [timelyStep, Option.ite_none_right_eq_some, sliceStep, Option.map_eq_some_iff] at hstep
  obtain ⟨hin, w, hw, rfl⟩ := hstep
  refine ⟨waitStep_inv hi hw, ?_⟩
  have hinv := hi.machine.inv
  cases event with
  | kernel event =>
    simp only [waitStep, Option.map_eq_some_iff] at hw
    obtain ⟨k, hk, rfl⟩ := hw
    exact kernelStep_slices hc h hi.machine hin hk
  | wait list ticks =>
    simp only [waitStep, Option.ite_none_right_eq_some, Option.some.injEq] at hw
    obtain ⟨_, rfl⟩ := hw
    obtain ⟨b, hb⟩ := losSchedule_eq (osSchedTaskWait s.wait.kernel list ticks)
    have hrun : ∀ k : KernelState, (osSchedTaskWait k list ticks).runTask = k.runTask ∧
        (osSchedTaskWait k list ticks).gTaskScheduled = k.gTaskScheduled := by
      intro k
      unfold osSchedTaskWait
      dsimp only
      split <;> exact ⟨rfl, rfl⟩
    refine h.kept hinv ((sliceKept_wait _ list ticks).trans (sliceKept_losSchedule _)) ?_ ?_
    · rw [hb]
      exact (hrun _).1
    · rw [hb]
      exact (hrun _).2
  | wake resumedTask =>
    simp only [waitStep, Option.ite_none_right_eq_some, Option.map_eq_some_iff] at hw
    obtain ⟨⟨ht, hpend⟩, k, hk, rfl⟩ := hw
    obtain ⟨k', V', heq, _, hmv, _⟩ := hi.machine.wake ht hpend
    rw [hk, Option.some.injEq] at heq
    rw [← heq] at hmv
    exact h.kept hinv (sliceKept_wake hc hk) hmv.runTask hmv.gTaskScheduled
  | inherit taskCB priority =>
    simp only [waitStep, Option.ite_none_right_eq_some, Option.map_eq_some_iff] at hw
    obtain ⟨⟨ht, hp⟩, r, hk, rfl⟩ := hw
    obtain ⟨k', V', b, heq, _, hmv, _⟩ := hi.machine.inherit ht (Nat.lt_succ_of_le hp)
    rw [hk, Option.some.injEq] at heq
    rw [heq] at hk ⊢
    exact h.kept hinv (sliceKept_modifyParam hc hk) hmv.runTask hmv.gTaskScheduled
  | clearTimeout taskCB =>
    simp only [waitStep, Option.some.injEq] at hw
    rw [← hw]
    exact h.kept hinv (sliceKept_status _ taskCB (f := fun s => { s with timeout := false })
      fun _ h => h) rfl rfl
  | setUp list =>
    simp only [waitStep, Option.ite_none_left_eq_some, Option.some.injEq] at hw
    obtain ⟨_, rfl⟩ := hw
    exact h.kept hinv (sliceKept_of_tasks rfl rfl) rfl rfl
  | giveBack list =>
    simp only [waitStep, Option.ite_none_right_eq_some, Option.some.injEq] at hw
    obtain ⟨_, rfl⟩ := hw
    exact h

/-! ### From the start-up on -/

/-- No task has run yet. -/
def Stocked (k : KernelState) : Prop :=
  ∀ u, 0 ≤ (k.gTaskCBArray u).timeSlice ∧ (k.gTaskCBArray u).timeSlice ≤ Config.osSchedTimeSlices ∧
    (k.gTaskCBArray u).startTime = 0

theorem Stocked.modifyTask (h : Stocked k) (t : Nat) {f : LosTaskCB → LosTaskCB}
    (hts : ∀ cb, (f cb).timeSlice = cb.timeSlice) (hs : ∀ cb, (f cb).startTime = cb.startTime) :
    Stocked (k.modifyTask t f) := by
  intro u
  show 0 ≤ (Function.update k.gTaskCBArray t (f (k.gTaskCBArray t)) u).timeSlice ∧
    (Function.update k.gTaskCBArray t (f (k.gTaskCBArray t)) u).timeSlice ≤ _ ∧
    (Function.update k.gTaskCBArray t (f (k.gTaskCBArray t)) u).startTime = 0
  by_cases hut : u = t
  · rw [hut, Function.update_self, hts, hs]
    exact h t
  · rw [Function.update_of_ne hut]
    exact h u

theorem Stocked.kept (h : Stocked k) (hk : SliceKept k k') : Stocked k' := by
  intro u
  obtain ⟨hlo, hhi, hzero⟩ := h u
  obtain ⟨hs, _, hts⟩ := hk.task u
  rw [hs]
  rcases hts with ⟨heq, _⟩ | ⟨h1, h2⟩
  · rw [heq]
    exact ⟨hlo, hhi, hzero⟩
  · exact ⟨h1, h2, hzero⟩

theorem osTaskInit_stocked (hc : SliceConfigOk) (k : KernelState) : Stocked (osTaskInit k) := by
  have hfill : ∀ (l : List Nat) (k : KernelState), Stocked k → Stocked (l.foldl osTaskInitOne k) := by
    intro l
    induction l with
    | nil => exact fun _ h => h
    | cons n l ih =>
      intro k h
      have h1 := h.modifyTask n (f := fun cb => { cb with taskStatus := osTaskStatusUnused, taskID := n })
        (fun _ => rfl) fun _ => rfl
      exact ih (osTaskInitOne k n) h1
  have hlists : ∀ (l : List Nat) (k : KernelState), Stocked k →
      Stocked (l.foldl (fun k pri => losListInit k (.gPriQueueList pri)) k) := by
    intro l
    induction l with
    | nil => exact fun _ h => h
    | cons n l ih => exact fun k h => ih (losListInit k (.gPriQueueList n)) h
  obtain ⟨k0, hk0⟩ : ∃ k0, losListInit (losListInit { k with gTaskCBArray := fun _ => clearedTaskCB }
      .gLosFreeTask) .gTaskRecyleList = k0 := ⟨_, rfl⟩
  have h0 : Stocked k0 := by
    rw [← hk0]
    exact fun _ => ⟨le_refl _, hc.slices, rfl⟩
  obtain ⟨k1, hk1⟩ : ∃ k1, (List.range gTaskMaxNum).foldl osTaskInitOne k0 = k1 := ⟨_, rfl⟩
  have h1 : Stocked k1 := hk1 ▸ hfill _ k0 h0
  obtain ⟨k2, hk2⟩ : ∃ k2, { ({ k1 with runTask := gTaskMaxNum, newTask := 0 } : KernelState).modifyTask
      gTaskMaxNum fun cb => { cb with
        taskID := gTaskMaxNum
        taskStatus := { osTaskStatusUnused with running := true }
        priority := osTaskPriorityLowest + 1 } with gIdleTaskID := osInvalid } = k2 := ⟨_, rfl⟩
  have h2 : Stocked k2 := by
    rw [← hk2]
    have h := Stocked.modifyTask (k := { k1 with runTask := gTaskMaxNum, newTask := 0 }) h1 gTaskMaxNum
      (f := fun cb => { cb with
        taskID := gTaskMaxNum
        taskStatus := { osTaskStatusUnused with running := true }
        priority := osTaskPriorityLowest + 1 }) (fun _ => rfl) fun _ => rfl
    exact h
  have h3 := hlists (List.range osPriorityQueueNum) k2 h2
  rw [← hk2, ← hk1, ← hk0] at h3
  exact h3

theorem sliceInv_booted (hc : SliceConfigOk) (hmax : gTaskMaxNum ≤ osInvalid) (hk : Booted k) :
    SliceInv k since := by
  obtain ⟨V, hm, _, hsched, _⟩ := booted_machine hmax hk
  obtain ⟨k₀, hsc, hpend, hidle⟩ := hk
  obtain ⟨V0, hi0, _, _⟩ := osTaskInit_spec k₀ hmax hsc hpend
  have hstocked : Stocked k := by
    unfold osIdleTaskCreate at hidle
    simp only [Option.bind_eq_bind, Option.bind_eq_some_iff] at hidle
    obtain ⟨⟨k1, r, o⟩, heq, hidle⟩ := hidle
    have h1 := (osTaskInit_stocked hc k₀).kept (sliceKept_createOnly hc hi0 heq)
    cases o with
    | none =>
      simp only [Option.some.injEq, Prod.mk.injEq] at hidle
      rw [← hidle.1]
      exact h1
    | some t =>
      simp only [Option.bind_eq_some_iff, Option.some.injEq, Prod.mk.injEq] at hidle
      obtain ⟨k2, henq, rfl, _⟩ := hidle
      exact Stocked.kept (k := { k1 with gIdleTaskID := t }) h1 (sliceKept_enQueue hc henq)
  have hoff : ∀ {P : Prop}, k.gTaskScheduled = true → P := by
    intro P h
    rw [hsched] at h
    cases h
  refine ⟨fun t _ => (hstocked t).2.1, fun t _ _ _ _ => (hstocked t).1, hoff, ?_, hoff⟩
  rw [(hstocked gTaskMaxNum).2.2]
  have hpos := (hstocked gTaskMaxNum).1
  omega

theorem osSchedTaskEnQueue_tail (hc : SliceConfigOk) {t : Nat} (hid : (k.gTaskCBArray t).taskID ≠ k.gIdleTaskID)
    (hused : (k.gTaskCBArray t).timeSlice ≤ 0) (h : osSchedTaskEnQueue k t = some k') : k'.links =
      (losListTailInsert k (.gPriQueueList (k.gTaskCBArray t).priority) (.pendList t)).links := by
  have hmin := hc.min
  unfold osSchedTaskEnQueue at h
  split at h
  · cases h
  rw [Option.some.injEq] at h
  dsimp only at h
  rw [if_pos hid, if_neg (by omega)] at h
  rw [← h]
  rfl

theorem SliceInv.slicesRight (hc : SliceConfigOk) (h : SliceInv k since) (hi : KernelInv k V) :
    SlicesRight k := by
  refine ⟨h.le, fun t ht hid hused k' henq => ?_⟩
  apply osSchedTaskEnQueue_tail hc _ hused henq
  rw [(hi.task t ht).id]
  exact hid

theorem SliceInv.chargeRight (hc : SliceConfigOk) (h : SliceInv k since) (hi : KernelInv k V)
    (hsched : k.gTaskScheduled) (hin : InTime k since) : ChargeRight k := by
  obtain ⟨hexact, hcharge⟩ := osTimeSliceUpdate_charged hc h hi hsched hin
  refine ⟨hexact, hcharge, fun hrun hid hused k₁ k₂ h₁ h₂ => ?_⟩
  rw [hcharge, Option.some.injEq] at h₁
  have htask := (hi.task _ hrun).id
  have hcb := charged_runTask k
  rw [h₁] at hcb
  have hidle : k₁.gIdleTaskID = k.gIdleTaskID := by rw [← h₁]; rfl
  have hlinks : k₁.links = k.links := by rw [← h₁]; rfl
  have htail := osSchedTaskEnQueue_tail hc (by rw [hcb, hidle, htask]; exact hid) ?_ h₂
  · rw [htail, hcb]
    unfold losListTailInsert
    dsimp only
    rw [hlinks]
  · rw [hcb]
    dsimp only
    rw [if_pos (by rw [htask]; exact hid)]
    omega

end

/-- From the start-up on. -/
theorem timeSlice_right (hc : SliceConfigOk) (hmax : gTaskMaxNum ≤ osInvalid) {s₀ s : SliceState}
    {events : List WaitEvent} (hb : WaitBooted s₀.wait)
    (hrun : Run (fun s event s' => timelyStep s event = some s') s₀ events s) :
    SlicesRight s.wait.kernel ∧
      (s.wait.kernel.gTaskScheduled → InTime s.wait.kernel s.since → ChargeRight s.wait.kernel) := by
  have hinv : (∃ V, WaitInv s.wait V) ∧ SliceInv s.wait.kernel s.since := by
    refine run_invariant (fun s => (∃ V, WaitInv s.wait V) ∧ SliceInv s.wait.kernel s.since) ?_ hrun
      ⟨waitBooted_inv hmax hb, sliceInv_booted hc hmax hb.1⟩
    intro s event s' hs hstep
    obtain ⟨⟨V, hi⟩, h⟩ := hs
    exact sliceStep_inv hc hi h hstep
  obtain ⟨⟨V, hi⟩, h⟩ := hinv
  exact ⟨h.slicesRight hc hi.machine.inv, fun hsched hin => h.chargeRight hc hi.machine.inv hsched hin⟩

omit [Config] in
theorem smallConfig_slices : @SliceConfigOk smallConfig := by
  let := smallConfig
  exact ⟨by decide, by decide, by decide⟩

/-- The kernel starts with one task besides the idle one. -/
def loneTaskEvents : List WaitEvent :=
  [.kernel (.create true (some { pfnTaskEntry := some 7, usTaskPrio := 10, uwStackSize := 64
                                 pcName := some "task" }) true), .kernel .start]

omit [Config] in
theorem timeSlice_right_lone :
    letI := smallConfig
    ∃ s, Run (fun s event s' => timelyStep s event = some s') ⟨smallWaits, 0⟩
        (loneTaskEvents ++ [.kernel (.elapse 7), .kernel (.tick false)]) s ∧
      (s.wait.kernel.gTaskCBArray s.wait.kernel.runTask).timeSlice = -3 ∧ SlicesRight s.wait.kernel ∧
      ChargeRight s.wait.kernel := by
  let := smallConfig
  have hrun : ((loneTaskEvents ++ [WaitEvent.kernel (.elapse 7), .kernel (.tick false)]).foldlM
      timelyStep ⟨smallWaits, 0⟩).map (fun s => (s.wait.kernel.gTaskScheduled,
        decide (InTime s.wait.kernel s.since),
        (s.wait.kernel.gTaskCBArray s.wait.kernel.runTask).timeSlice)) = some (true, true, -3) := by
    decide +kernel
  rw [Option.map_eq_some_iff] at hrun
  obtain ⟨s, hs, hval⟩ := hrun
  simp only [Prod.mk.injEq, decide_eq_true_eq] at hval
  obtain ⟨hsched, hin, hslice⟩ := hval
  have hb : WaitBooted smallWaits := ⟨smallKernel_booted, fun _ => rfl⟩
  obtain ⟨hslices, hcharge⟩ := timeSlice_right smallConfig_slices (by decide) hb (run_of_foldlM hs)
  exact ⟨s, run_of_foldlM hs, hslice, hslices, hcharge hsched hin⟩

section

variable {s : SliceState}

/-- The only task goes on for `n` ticks, each `d` cycles after the one before. -/
theorem lone_ticks {d : Nat} (hsched : s.wait.kernel.gTaskScheduled)
    (hstart : (s.wait.kernel.gTaskCBArray s.wait.kernel.runTask).startTime = s.wait.kernel.cycle)
    (hid : (s.wait.kernel.gTaskCBArray s.wait.kernel.runTask).taskID ≠ s.wait.kernel.gIdleTaskID)
    (hslice : toInt32 (s.wait.kernel.gTaskCBArray s.wait.kernel.runTask).timeSlice =
      (s.wait.kernel.gTaskCBArray s.wait.kernel.runTask).timeSlice) (n : Nat) :
    ∃ s', Run (fun s event s' => sliceStep s event = some s') s
        (List.replicate n [.kernel (.elapse d), .kernel (.tick false)]).flatten s' ∧
      s'.wait.kernel.gTaskScheduled = true ∧ s'.wait.kernel.runTask = s.wait.kernel.runTask ∧
      s'.wait.kernel.gIdleTaskID = s.wait.kernel.gIdleTaskID ∧
      s'.wait.kernel.gTaskCBArray s.wait.kernel.runTask =
        { s.wait.kernel.gTaskCBArray s.wait.kernel.runTask with
          timeSlice := toInt32 ((s.wait.kernel.gTaskCBArray s.wait.kernel.runTask).timeSlice - (n * d : Nat))
          startTime := s'.wait.kernel.cycle } := by
  induction n with
  | zero =>
    refine ⟨s, Run.nil, hsched, rfl, rfl, ?_⟩
    rw [Nat.zero_mul, show ((0 : Nat) : Int) = 0 from rfl, Int.sub_zero, hslice, ← hstart]
  | succ n ih =>
    obtain ⟨s₁, hrun, hsched₁, hrun₁, hidle₁, hcb₁⟩ := ih
    obtain ⟨k₂, hk₂⟩ : ∃ k₂ : KernelState, { s₁.wait.kernel with cycle := s₁.wait.kernel.cycle + d } = k₂ :=
      ⟨_, rfl⟩
    have hcb₂ : k₂.gTaskCBArray s.wait.kernel.runTask =
        s₁.wait.kernel.gTaskCBArray s.wait.kernel.runTask := by rw [← hk₂]
    have hrun₂ : k₂.runTask = s.wait.kernel.runTask := by rw [← hk₂]; exact hrun₁
    have hcycle : k₂.cycle = s₁.wait.kernel.cycle + d := by rw [← hk₂]
    have hidle₂ : k₂.gIdleTaskID = s.wait.kernel.gIdleTaskID := by rw [← hk₂]; exact hidle₁
    have hsched₂ : k₂.gTaskScheduled = true := by rw [← hk₂]; exact hsched₁
    rw [hcb₁] at hcb₂
    obtain ⟨k₃, hk₃⟩ : ∃ k₃, k₂.modifyTask k₂.runTask (fun cb => { cb with
        timeSlice := if cb.taskID ≠ k₂.gIdleTaskID then toInt32 (cb.timeSlice -
            toInt32 (k₂.cycle - (k₂.gTaskCBArray k₂.runTask).startTime))
          else cb.timeSlice
        startTime := k₂.cycle }) = k₃ := ⟨_, rfl⟩
    have htick : losSchedTickHandler k₂ false = some k₃ := by
      unfold losSchedTickHandler osTimeSliceUpdate
      have hnow : osGetCurrSchedTimeCycle k₂ = k₂.cycle := if_pos hsched₂
      simp only [hsched₂, Bool.not_true, Bool.false_eq_true, if_false, Option.bind_eq_bind,
        Option.bind_some, Bool.false_and, hnow]
      rw [if_neg, hk₃]
      rw [hrun₂, hcb₂, hcycle]
      exact Nat.not_lt.mpr (Nat.le_add_right _ _)
    refine ⟨⟨⟨k₃, s₁.wait.inUse⟩, s₁.since⟩, ?_, ?_, ?_, ?_, ?_⟩
    · rw [List.replicate_succ', List.flatten_append]
      refine run_append hrun (Run.snoc (t := ⟨⟨k₂, s₁.wait.inUse⟩, s₁.since⟩) (run_single ?_) ?_)
      · rw [← hk₂]
        rfl
      · simp only [sliceStep, waitStep, kernelStep, hsched₂, if_true, htick, Option.map_some]
        rfl
    · rw [← hk₃]
      exact hsched₂
    · rw [← hk₃]
      exact hrun₂
    · rw [← hk₃]
      exact hidle₂
    · have hcycle₃ : k₃.cycle = k₂.cycle := by rw [← hk₃]; rfl
      rw [hcycle₃, ← hk₃, ← hrun₂, modifyTask_self, hrun₂, hcb₂, hidle₂]
      dsimp only
      rw [if_pos hid]
      congr 1
      have hdelta : ((k₂.cycle : Int) - s₁.wait.kernel.cycle) = d := by omega
      rw [hdelta]
      unfold toInt32
      rw [Int.sub_bmod_bmod, Int.bmod_sub_bmod]
      congr 1
      rw [Nat.succ_mul]
      omega

end

omit [Config] in
/-- Alone on the processor, a task ends up with more than a whole slice. -/
theorem timeSlice_wraps :
    letI := smallConfig
    ∃ s, WaitBooted smallWaits ∧
      Run (fun s event s' => sliceStep s event = some s') ⟨smallWaits, 0⟩ (loneTaskEvents ++
        (List.replicate 129 [.kernel (.elapse 0xFFFFFF), .kernel (.tick false)]).flatten) s ∧
      Config.osSchedTimeSlices < (s.wait.kernel.gTaskCBArray s.wait.kernel.runTask).timeSlice ∧
      ¬ SlicesRight s.wait.kernel := by
  let := smallConfig
  have hrun : (loneTaskEvents.foldlM sliceStep ⟨smallWaits, 0⟩).map (fun s =>
      ((s.wait.kernel.gTaskScheduled, s.wait.kernel.runTask, s.wait.kernel.gIdleTaskID),
        (s.wait.kernel.gTaskCBArray 1).timeSlice, (s.wait.kernel.gTaskCBArray 1).taskID,
        (s.wait.kernel.gTaskCBArray 1).startTime, s.wait.kernel.cycle)) =
      some ((true, 1, 0), 4, 1, 0, 0) := by decide +kernel
  rw [Option.map_eq_some_iff] at hrun
  obtain ⟨s, hs, hval⟩ := hrun
  simp only [Prod.mk.injEq] at hval
  obtain ⟨⟨hsched, hrunTask, hidle⟩, hslice, hid, hstart, hcycle⟩ := hval
  obtain ⟨s', hrun', _, hrun₁, _, hcb⟩ := lone_ticks (s := s) (d := 0xFFFFFF) hsched
    (by rw [hrunTask, hstart, hcycle]) (by rw [hrunTask, hid, hidle]; decide)
    (by rw [hrunTask, hslice]; decide) 129
  rw [hrunTask] at hrun₁ hcb
  have hover : Config.osSchedTimeSlices < (s'.wait.kernel.gTaskCBArray s'.wait.kernel.runTask).timeSlice := by
    rw [hrun₁, hcb, hslice]
    show (4 : Int) < toInt32 (4 - (129 * 0xFFFFFF : Nat))
    decide
  refine ⟨s', ⟨smallKernel_booted, fun _ => rfl⟩, run_append (run_of_foldlM hs) hrun', hover, fun h => ?_⟩
  have hle := h.le s'.wait.kernel.runTask (by rw [hrun₁]; decide)
  omega

end LiteosM.Kernel
