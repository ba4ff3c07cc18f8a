import LiteosM.Cpup.Run
import Mathlib.Algebra.BigOperators.Ring.Finset

/-!
# What the queries answer

Every usage is a permille of what the meter has counted in the window that the mode asks for.
-/

namespace LiteosM.Cpup

open LiteosM.Kernel LiteosM.Lib.Metering LiteosM.Lib.Transition LiteosM.Lib.Word32 LiteosM.Lib.Word64

/-- The time a task has run in the window of `mode`: between the last two readings, since the last
reading, or since the oldest one of the table. -/
def window (m : Meter Nat) (mode i : Nat) : Nat :=
  if mode = cpupIn1S then m.between 0 1 i
  else if mode = cpupLessThan1S then m.since 0 i
  else m.since 9 i

/-- The permille of `all` that `part` is. -/
def permille (part all : Nat) : Nat := if all = 0 then 0 else 1000 * part / all

def rest (part all : Nat) : Nat := if all = 0 then 0 else 1000 - 1000 * part / all

theorem permille_sum (s : Finset Nat) (f : Nat → Nat) (hpos : 0 < ∑ i ∈ s, f i) :
    ∑ i ∈ s, permille (f i) (∑ j ∈ s, f j) ≤ 1000 ∧
      1000 < ∑ i ∈ s, permille (f i) (∑ j ∈ s, f j) + s.card := by
  generalize hall : ∑ j ∈ s, f j = all at hpos ⊢
  have hne : all ≠ 0 := Nat.ne_of_gt hpos
  have hsum : ∑ i ∈ s, 1000 * f i = 1000 * all := by rw [← hall, Finset.mul_sum]
  have heq : ∀ i, permille (f i) all = 1000 * f i / all := fun i => if_neg hne
  constructor
  · have hle : (∑ i ∈ s, permille (f i) all) * all ≤ 1000 * all := by
      rw [Finset.sum_mul, ← hsum]
      exact Finset.sum_le_sum fun i _ => by
        rw [heq]
        exact Nat.div_mul_le_self _ _
    exact Nat.le_of_mul_le_mul_right hle hpos
  · have hs : s.Nonempty := by
      rw [Finset.nonempty_iff_ne_empty]
      rintro rfl
      rw [Finset.sum_empty] at hall
      exact hne hall.symm
    have hlt : 1000 * all < (∑ i ∈ s, permille (f i) all + s.card) * all := by
      calc 1000 * all = ∑ i ∈ s, 1000 * f i := hsum.symm
        _ < ∑ i ∈ s, (permille (f i) all + 1) * all := by
          refine Finset.sum_lt_sum_of_nonempty hs fun i _ => ?_
          rw [heq]
          exact Nat.lt_mul_of_div_lt (Nat.lt_succ_self _) hpos
        _ = (∑ i ∈ s, permille (f i) all + s.card) * all := by
          rw [← Finset.sum_mul, Finset.sum_add_distrib, Finset.card_eq_sum_ones]
    exact Nat.lt_of_mul_lt_mul_right hlt

variable [Config]

/-- The tasks that `LOS_TaskCreate` has made and nobody has deleted. -/
def createdTasks (c : CpupState) : Finset Nat := (Finset.range gTaskMaxNum).filter fun i => (c.gCpup i).created

section

variable {c : CpupState} {m : Meter Nat} {counts : OsCpupCB → Bool} {f : OsCpupCB → Nat} {g : Nat → Nat}

theorem cpuCycleAll_eq (hf : ∀ i < gTaskMaxNum, f (c.gCpup i) = g i)
    (hbig : ∑ i ∈ Finset.range gTaskMaxNum, g i < 2 ^ 64) :
    cpuCycleAll c counts f = ∑ i ∈ (Finset.range gTaskMaxNum).filter fun i => counts (c.gCpup i), g i := by
  have hloop : ∀ n ≤ gTaskMaxNum, (List.range n).foldl (fun all loopNum => if counts (c.gCpup loopNum) then
      add64 all (f (c.gCpup loopNum)) else all) 0 =
      ∑ i ∈ (Finset.range n).filter fun i => counts (c.gCpup i), g i := by
    intro n
    induction n with
    | zero => exact fun _ => rfl
    | succ n ih =>
      intro hn
      rw [List.range_succ, List.foldl_append, List.foldl_cons, List.foldl_nil, ih (Nat.le_of_succ_le hn),
        Finset.range_add_one, Finset.filter_insert, hf n hn]
      have hpart : ∑ i ∈ (Finset.range n).filter fun i => counts (c.gCpup i), g i ≤ ∑ i ∈ Finset.range n, g i :=
        Finset.sum_le_sum_of_subset (Finset.filter_subset _ _)
      have hle : ∑ i ∈ Finset.range (n + 1), g i ≤ ∑ i ∈ Finset.range gTaskMaxNum, g i :=
        Finset.sum_le_sum_of_subset (Finset.range_mono hn)
      rw [Finset.sum_range_succ] at hle
      split
      · rw [Finset.sum_insert (by simp), add64_of_lt (by omega), Nat.add_comm]
      · rfl
  exact hloop gTaskMaxNum (Nat.le_refl _)

omit [Config] in
theorem share_eq {part all : Nat} (hle : part ≤ all) (hbig : 1000 * part < 2 ^ 64) :
    (if all ≠ 0 then share part all else 0) = permille part all := by
  unfold share permille
  rw [ite_not]
  split
  · rfl
  · next hpos =>
    have hbound : 1000 * part / all ≤ 1000 :=
      Nat.div_le_of_le_mul (by rw [Nat.mul_comm]; exact Nat.mul_le_mul_right 1000 hle)
    have hmul : mul64 losCpupPrecision part = 1000 * part := mul64_of_lt hbig
    rw [hmul]
    exact Nat.mod_eq_of_lt (by omega)

omit [Config] in
theorem rest_eq {part all : Nat} (hle : part ≤ all) (hbig : 1000 * part < 2 ^ 64) :
    (if all ≠ 0 then sub32 losCpupPrecision (share part all) else 0) = rest part all := by
  have hshare := share_eq hle hbig
  unfold permille at hshare
  unfold rest
  rw [ite_not] at hshare ⊢
  split
  · rfl
  · next hpos =>
    rw [if_neg hpos, if_neg hpos] at hshare
    have hbound : 1000 * part / all ≤ 1000 :=
      Nat.div_le_of_le_mul (by rw [Nat.mul_comm]; exact Nat.mul_le_mul_right 1000 hle)
    rw [hshare]
    exact sub32_of_le 1000 _ hbound (by decide)

theorem Closed.cycles (h : Closed c m) (ho : m.Ordered) (mode : Nat) {i : Nat} (hi : i < gTaskMaxNum)
    (hbig : m.time i < 2 ^ 64) : cycles mode (osGetPositions c mode) (c.gCpup i) = window m mode i := by
  have hpos := h.pos
  unfold osCpupHistoryRecordNum at hpos
  have h0 : osGetPrePos c.gHisPos = hisIndex c.gHisPos 0 := by
    unfold osGetPrePos hisIndex osCpupHistoryRecordNum
    split <;> omega
  have h1 : osGetPrePos (osGetPrePos c.gHisPos) = hisIndex c.gHisPos 1 := by
    unfold osGetPrePos hisIndex osCpupHistoryRecordNum
    split <;> split <;> omega
  have h9 : c.gHisPos = hisIndex c.gHisPos 9 := by
    unfold hisIndex
    omega
  have hread : ∀ j < 10, (c.gCpup i).historyTime (hisIndex c.gHisPos j) = m.reading j i := h.history i hi
  have hle : ∀ j, m.reading j i ≤ m.time i := fun j => ho.reading_le_time j i
  unfold Cpup.cycles window osGetPositions Meter.between Meter.since
  by_cases hm1 : mode = cpupIn1S
  · rw [if_pos hm1, if_pos hm1, if_pos hm1]
    dsimp only
    rw [h1, h0, hread 0 (by decide), hread 1 (by decide)]
    exact sub64_of_le (ho.reading_anti (Nat.zero_le 1) i) (Nat.lt_of_le_of_lt (hle 0) hbig)
  · rw [if_neg hm1, if_neg hm1, if_neg hm1, h.time i hi]
    by_cases hm2 : mode = cpupLessThan1S
    · rw [if_pos hm2, if_pos hm2]
      dsimp only
      rw [h0, hread 0 (by decide)]
      exact sub64_of_le (hle 0) hbig
    · rw [if_neg hm2, if_neg hm2]
      dsimp only
      rw [show (c.gCpup i).historyTime c.gHisPos = m.reading 9 i by
        rw [← hread 9 (by decide), ← h9]]
      exact sub64_of_le (hle 9) hbig

omit [Config] in
theorem window_le (m : Meter Nat) (ho : m.Ordered) (mode i : Nat) : window m mode i ≤ m.time i := by
  unfold window Meter.between Meter.since
  split
  · exact (Nat.sub_le _ _).trans (ho.reading_le_time 0 i)
  · split <;> exact Nat.sub_le _ _

theorem fillCpupInfo_apply (c : CpupState) (mode all : Nat) (pos : Nat × Nat) (info : Nat → CpupInfo) (i : Nat) :
    fillCpupInfo c mode all pos info i =
      if i < gTaskMaxNum ∧ (c.gCpup i).created = true then
        { usStatus := (c.gCpup i).status
          uwUsage := if all ≠ 0 then share (cycles mode pos (c.gCpup i)) all else (info i).uwUsage }
      else info i := by
  unfold fillCpupInfo
  generalize gTaskMaxNum = n
  induction n with
  | zero => rw [if_neg fun h => Nat.not_lt_zero i h.1]; rfl
  | succ n ih =>
    rw [List.range_succ, List.foldl_append, List.foldl_cons, List.foldl_nil]
    generalize (List.range n).foldl _ info = info' at ih ⊢
    by_cases hi : i = n
    · subst hi
      have hold : info' i = info i := by
        rw [ih, if_neg fun h => Nat.lt_irrefl i h.1]
      by_cases hc : (c.gCpup i).created = true
      · have hin : i < i + 1 ∧ (c.gCpup i).created = true := ⟨Nat.lt_succ_self i, hc⟩
        rw [if_pos hc, Function.update_self, hold, if_pos hin]
      · rw [if_neg hc, if_neg fun h => hc h.2, hold]
    · have hother : (if (c.gCpup n).created = true then Function.update info' n
          { usStatus := (c.gCpup n).status
            uwUsage := if all ≠ 0 then share (cycles mode pos (c.gCpup n)) all else (info' n).uwUsage }
          else info') i = info' i := by
        split
        · exact Function.update_of_ne hi _ _
        · rfl
      rw [hother, ih]
      by_cases hlt : i < n
      · simp only [hlt, Nat.lt_succ_of_lt hlt]
      · rw [if_neg fun h => hlt h.1, if_neg fun h => by omega]

end

/-- What the calls answer in a state. -/
structure UsageRight (s : CpupKernel) (m : Meter Nat) [CpupConfig] : Prop where
  sys : (losSysCpuUsage s.kernel s.cpup).2 =
    .ok (rest (m.time s.kernel.gIdleTaskID) (∑ i ∈ Finset.range gTaskMaxNum, m.time i))
  historySys : ∀ mode, (losHistorySysCpuUsage s.kernel s.cpup mode).2 =
    .ok (rest (window m mode s.kernel.gIdleTaskID) (∑ i ∈ Finset.range gTaskMaxNum, window m mode i))
  task : ∀ id ∈ createdTasks s.cpup, (losTaskCpuUsage s.kernel s.cpup id).2 =
    .ok (permille (m.time id) (∑ i ∈ createdTasks s.cpup, m.time i))
  historyTask : ∀ id ∈ createdTasks s.cpup, ∀ mode, (losHistoryTaskCpuUsage s.kernel s.cpup id mode).2 =
    .ok (permille (window m mode id) (∑ i ∈ createdTasks s.cpup, window m mode i))
  refused : ∀ id ∉ createdTasks s.cpup, (∃ e, (losTaskCpuUsage s.kernel s.cpup id).2 = .error e) ∧
    ∀ mode, ∃ e, (losHistoryTaskCpuUsage s.kernel s.cpup id mode).2 = .error e
  all : ∀ info mode, ∃ info', (losAllTaskCpuUsage s.kernel s.cpup (some info) mode).2 = .ok info' ∧
    (∀ i ∉ createdTasks s.cpup, info' i = info i) ∧
    ∀ i ∈ createdTasks s.cpup, (info' i).usStatus = (s.cpup.gCpup i).status ∧
      (0 < ∑ j ∈ createdTasks s.cpup, window m mode j →
        (info' i).uwUsage = permille (window m mode i) (∑ j ∈ createdTasks s.cpup, window m mode j))

section

variable [CpupConfig] {s : CpupKernel} {m : Meter Nat}

omit [CpupConfig] in
theorem mem_createdTasks {c : CpupState} {i : Nat} :
    i ∈ createdTasks c ↔ i < gTaskMaxNum ∧ (c.gCpup i).created = true := by
  unfold createdTasks
  rw [Finset.mem_filter, Finset.mem_range]

omit [CpupConfig] in
theorem createdTasks_congr {c c' : CpupState} (h : ∀ i, (c'.gCpup i).status = (c.gCpup i).status) :
    createdTasks c' = createdTasks c := by
  unfold createdTasks OsCpupCB.created
  simp only [h]

theorem createdTasks_osTskCycleEnd (k : KernelState) (c : CpupState) :
    createdTasks (osTskCycleEnd k c) = createdTasks c :=
  createdTasks_congr (osTskCycleEnd_status k c)

omit [CpupConfig] in
theorem createdTasks_create {c : CpupState} {id : Nat} (hid : id < gTaskMaxNum) :
    createdTasks (cpupTaskCreate c id osTaskStatusSuspend) = insert id (createdTasks c) := by
  ext i
  rw [Finset.mem_insert, mem_createdTasks, mem_createdTasks]
  unfold cpupTaskCreate
  by_cases hi : i = id
  · rw [hi, modify_self]
    exact iff_of_true ⟨hid, rfl⟩ (.inl rfl)
  · rw [modify_of_ne _ hi, or_iff_right hi]

omit [CpupConfig] in
theorem createdTasks_delete {c : CpupState} {id : Nat} :
    createdTasks (cpupTaskDelete c id) = (createdTasks c).erase id := by
  ext i
  rw [Finset.mem_erase, mem_createdTasks, mem_createdTasks]
  unfold cpupTaskDelete
  by_cases hi : i = id
  · rw [hi, modify_self]
    exact iff_of_false (fun h => by cases h.2) fun h => h.1 rfl
  · rw [modify_of_ne _ hi, and_iff_right hi]

omit [CpupConfig] in
/-- The tasks that have been created and not deleted, when there were `tasks` before. -/
def tasksAfter (k : KernelState) (tasks : Finset Nat) : CpupEvent → Finset Nat
  | .wait (.kernel (.create taskID param top)) =>
    match losTaskCreate k taskID param top with
    | some (_, _, some id) => insert id tasks
    | _ => tasks
  | .wait (.kernel (.delete taskID)) =>
    match losTaskDelete k taskID with
    | some (_, .losOk) => tasks.erase taskID
    | _ => tasks
  | _ => tasks

theorem createdTasks_hook {event : WaitEvent} (h : CpupInv s m) :
    createdTasks (cpupHook s.kernel s.cpup event) = tasksAfter s.kernel (createdTasks s.cpup) (.wait event) := by
  cases event with
  | kernel e =>
    cases e with
    | create taskID param top =>
      obtain ⟨V, hw⟩ := h.waits
      obtain ⟨k', _, r, o, heq, _, _, _, ho⟩ := losTaskCreate_spec hw.machine.inv taskID param top
      change losTaskCreate s.kernel taskID param top = _ at heq
      unfold cpupHook tasksAfter
      dsimp only
      rw [heq]
      rcases ho with ⟨rfl, _⟩ | ⟨t, rfl, _, hcr⟩
      · rfl
      · exact createdTasks_create hcr.bound
    | delete taskID =>
      unfold cpupHook tasksAfter
      dsimp only
      cases hdelete : losTaskDelete s.kernel taskID with
      | none => rfl
      | some r =>
        obtain ⟨k', e⟩ := r
        cases e with
        | losOk => exact createdTasks_delete
        | _ => rfl
    | pendSV =>
      unfold cpupHook tasksAfter
      dsimp only
      split
      · split
        · exact createdTasks_congr (osTskCycleEndStart_status _ _)
        · rfl
      · rfl
    | _ => rfl
  | _ => rfl

theorem createdTasks_asked {α : Type} {r : CpupState × Except CpupErrno α}
    (hr : (∃ a, r = (osTskCycleStart s.kernel (osTskCycleEnd s.kernel s.cpup), .ok a)) ∨
      ∃ e, r = (s.cpup, .error e)) : createdTasks r.1 = createdTasks s.cpup := by
  rcases hr with ⟨a, rfl⟩ | ⟨e, rfl⟩
  · exact createdTasks_congr fun i => (osTskCycleStart_status _ _ i).trans (osTskCycleEnd_status _ _ i)
  · rfl

theorem createdTasks_step {s' : CpupKernel} {event : CpupEvent} (h : CpupInv s m)
    (hstep : cpupStep s event = some s') :
    createdTasks s'.cpup = tasksAfter s.kernel (createdTasks s.cpup) event := by
  cases event with
  | wait e =>
    obtain ⟨w, _, rfl⟩ := Option.map_eq_some_iff.mp hstep
    exact createdTasks_hook h
  | sysCpuUsage =>
    obtain ⟨_, heq⟩ := Option.ite_none_right_eq_some.mp hstep
    cases heq
    exact createdTasks_asked (losSysCpuUsage_cases s.kernel s.cpup)
  | historySysCpuUsage mode =>
    obtain ⟨_, heq⟩ := Option.ite_none_right_eq_some.mp hstep
    cases heq
    exact createdTasks_asked (losHistorySysCpuUsage_cases s.kernel s.cpup mode)
  | taskCpuUsage taskID =>
    obtain ⟨_, heq⟩ := Option.ite_none_right_eq_some.mp hstep
    cases heq
    exact createdTasks_asked (losTaskCpuUsage_cases s.kernel s.cpup taskID)
  | historyTaskCpuUsage taskID mode =>
    obtain ⟨_, heq⟩ := Option.ite_none_right_eq_some.mp hstep
    cases heq
    exact createdTasks_asked (losHistoryTaskCpuUsage_cases s.kernel s.cpup taskID mode)
  | allTaskCpuUsage cpupInfo mode =>
    obtain ⟨_, heq⟩ := Option.ite_none_right_eq_some.mp hstep
    cases heq
    exact createdTasks_asked (losAllTaskCpuUsage_cases s.kernel s.cpup cpupInfo mode)

/-- In every run the entries that say so are those of the tasks that were created and not deleted. -/
theorem createdTasks_run {s₀ : CpupKernel} {tasks : Finset Nat} {events : List CpupEvent}
    (hmax : gTaskMaxNum ≤ osInvalid) (hb : CpupBooted s₀)
    (hrun : Run (fun p event p' => MeteredStep p.1 event p'.1 ∧ p'.2 = tasksAfter p.1.1.kernel p.2 event)
      ((s₀, newMeter), ∅) events ((s, m), tasks)) : createdTasks s.cpup = tasks := by
  have hnone : createdTasks s₀.cpup = ∅ := by
    rw [hb.2.2]
    exact Finset.filter_false_of_mem fun _ _ h => by cases h
  have hboth := run_invariant
    (fun p : (CpupKernel × Meter Nat) × Finset Nat => CpupInv p.1.1 p.1.2 ∧ createdTasks p.1.1.cpup = p.2)
    ?_ hrun ⟨cpupBooted_inv hmax hb, hnone⟩
  · exact hboth.2
  · rintro ⟨⟨s, m⟩, tasks⟩ event ⟨⟨s', m'⟩, tasks'⟩ ⟨hinv, htasks⟩ ⟨hstep, hafter⟩
    dsimp only at hinv htasks hstep hafter ⊢
    rw [hafter, ← htasks]
    exact ⟨meteredStep_inv hinv hstep, createdTasks_step hinv hstep.1⟩

omit [CpupConfig] in
theorem taskUsageCheck_eq_none {c : CpupState} (hr : Reads c m) {id : Nat} (hid : id ∈ createdTasks c) :
    taskUsageCheck c id = none := by
  obtain ⟨hlt, hc⟩ := mem_createdTasks.mp hid
  have hstatus : (c.gCpup id).status ≠ noStatus := by
    intro hs
    unfold OsCpupCB.created at hc
    rw [hs] at hc
    cases hc
  unfold taskUsageCheck
  rw [hr.init, if_neg (by simp), if_neg (Nat.not_le.mpr hlt), if_neg (not_not.mpr (hr.id id hlt hstatus)),
    if_neg (by simp [hc])]

omit [CpupConfig] in
theorem taskUsageCheck_refuses {c : CpupState} {id : Nat} (hid : id ∉ createdTasks c) :
    ∃ e, taskUsageCheck c id = some e := by
  unfold taskUsageCheck
  split
  · exact ⟨_, rfl⟩
  · split
    · exact ⟨_, rfl⟩
    · next hlt =>
      split
      · exact ⟨_, rfl⟩
      · split
        · exact ⟨_, rfl⟩
        · next hc =>
          refine absurd (mem_createdTasks.mpr ⟨Nat.not_le.mp hlt, ?_⟩) hid
          simpa using hc

theorem CpupInv.usageRight (h : CpupInv s m) (hsched : s.kernel.gTaskScheduled = true)
    (hbig : 1000 * m.now < 2 ^ 64) : UsageRight s m := by
  have hnow : m.now < 2 ^ 64 := by omega
  have hr := h.reads hnow
  have hc := h.closed hsched hnow
  have ho := h.sound.ordered
  obtain ⟨V, hw⟩ := h.waits
  have hidle : s.kernel.gIdleTaskID < gTaskMaxNum := hw.machine.idle
  obtain ⟨c', hc'⟩ : ∃ c', osTskCycleEnd s.kernel s.cpup = c' := ⟨_, rfl⟩
  have hcreated : createdTasks c' = createdTasks s.cpup := by
    rw [← hc']
    exact createdTasks_osTskCycleEnd _ _
  rw [hc'] at hc
  -- what is added up never wraps
  have htotal : ∑ i ∈ Finset.range gTaskMaxNum, m.time i ≤ m.now := h.sound.total
  have htime : ∀ i < gTaskMaxNum, m.time i < 2 ^ 64 := fun i hi =>
    Nat.lt_of_le_of_lt (h.sound.time_le (Finset.mem_range.mpr hi)) hnow
  have hwin : ∀ mode, ∑ i ∈ Finset.range gTaskMaxNum, window m mode i ≤ m.now := fun mode =>
    (Finset.sum_le_sum fun i _ => window_le m ho mode i).trans htotal
  have hsum : ∀ counts, cpuCycleAll c' counts OsCpupCB.allTime =
      ∑ i ∈ (Finset.range gTaskMaxNum).filter fun i => counts (c'.gCpup i), m.time i := fun counts =>
    cpuCycleAll_eq (fun i hi => hc.time i hi) (Nat.lt_of_le_of_lt htotal hnow)
  have hsumw : ∀ mode counts, cpuCycleAll c' counts (cycles mode (osGetPositions c' mode)) =
      ∑ i ∈ (Finset.range gTaskMaxNum).filter fun i => counts (c'.gCpup i), window m mode i := fun mode counts =>
    cpuCycleAll_eq (fun i hi => hc.cycles ho mode hi (htime i hi)) (Nat.lt_of_le_of_lt (hwin mode) hnow)
  have hall : (Finset.range gTaskMaxNum).filter (fun _ => (true : Bool) = true) = Finset.range gTaskMaxNum :=
    Finset.filter_true_of_mem fun _ _ => rfl
  have hpart : ∀ (f : Nat → Nat) (S : Finset Nat), S ⊆ Finset.range gTaskMaxNum →
      ∑ i ∈ Finset.range gTaskMaxNum, f i ≤ m.now → ∀ i ∈ S, f i ≤ ∑ j ∈ S, f j ∧ 1000 * f i < 2 ^ 64 := by
    intro f S hS hle i hi
    have h₁ : f i ≤ ∑ j ∈ S, f j := Finset.single_le_sum (fun j _ => Nat.zero_le (f j)) hi
    have h₂ : ∑ j ∈ S, f j ≤ ∑ j ∈ Finset.range gTaskMaxNum, f j := Finset.sum_le_sum_of_subset hS
    exact ⟨h₁, by omega⟩
  have hsub : createdTasks c' ⊆ Finset.range gTaskMaxNum := Finset.filter_subset _ _
  have hidle' := Finset.mem_range.mpr hidle
  refine ⟨?_, fun mode => ?_, fun id hid => ?_, fun id hid mode => ?_, fun id hid => ?_, fun info mode => ?_⟩
  · unfold losSysCpuUsage
    rw [hr.init, if_neg (by simp)]
    dsimp only
    rw [hc', hsum, hall, hc.time _ hidle]
    obtain ⟨hle, hfit⟩ := hpart m.time _ (Finset.Subset.refl _) htotal _ hidle'
    rw [rest_eq hle hfit]
  · unfold losHistorySysCpuUsage
    rw [hr.init, if_neg (by simp)]
    dsimp only
    rw [hc', hsumw, hall, hc.cycles ho mode hidle (htime _ hidle)]
    obtain ⟨hle, hfit⟩ := hpart (window m mode) _ (Finset.Subset.refl _) (hwin mode) _ hidle'
    rw [rest_eq hle hfit]
  · unfold losTaskCpuUsage
    rw [taskUsageCheck_eq_none hr hid]
    rw [← hcreated] at hid ⊢
    obtain ⟨hle, hfit⟩ := hpart m.time _ hsub htotal id hid
    have hlt := Finset.mem_range.mp (hsub hid)
    dsimp only
    rw [hc', hsum, hc.time id hlt]
    exact congrArg Except.ok (share_eq hle hfit)
  · unfold losHistoryTaskCpuUsage
    rw [taskUsageCheck_eq_none hr hid]
    rw [← hcreated] at hid ⊢
    obtain ⟨hle, hfit⟩ := hpart (window m mode) _ hsub (hwin mode) id hid
    have hlt := Finset.mem_range.mp (hsub hid)
    dsimp only
    rw [hc', hsumw, hc.cycles ho mode hlt (htime id hlt)]
    exact congrArg Except.ok (share_eq hle hfit)
  · obtain ⟨e, he⟩ := taskUsageCheck_refuses hid
    refine ⟨⟨e, ?_⟩, fun mode => ⟨e, ?_⟩⟩
    · unfold losTaskCpuUsage
      rw [he]
    · unfold losHistoryTaskCpuUsage
      rw [he]
  · refine ⟨_, by unfold losAllTaskCpuUsage; rw [hr.init, if_neg (by simp)], fun i hi => ?_, fun i hi => ?_⟩
    · rw [← hcreated, mem_createdTasks] at hi
      rw [fillCpupInfo_apply, hc', if_neg hi]
    · rw [← hcreated] at hi
      have hmem := mem_createdTasks.mp hi
      rw [fillCpupInfo_apply, hc', if_pos hmem]
      refine ⟨?_, fun hpos => ?_⟩
      · show (c'.gCpup i).status = _
        rw [← hc']
        exact osTskCycleEnd_status _ _ i
      · obtain ⟨hle, hfit⟩ := hpart (window m mode) _ hsub (hwin mode) i hi
        rw [← hcreated] at hpos ⊢
        have hshare := share_eq hle hfit
        rw [if_pos (Nat.ne_of_gt hpos)] at hshare
        dsimp only
        rw [hsumw, hc.cycles ho mode hmem.1 (htime i hmem.1)]
        change (if ∑ j ∈ createdTasks c', window m mode j ≠ 0 then _ else _) = _
        rw [if_pos (Nat.ne_of_gt hpos)]
        exact hshare

/-- Every query answers with what the meter says. -/
theorem cpup_usage_right {s₀ : CpupKernel} {events : List CpupEvent} (hmax : gTaskMaxNum ≤ osInvalid)
    (hb : CpupBooted s₀) (hrun : Run MeteredStep (s₀, newMeter) events (s, m))
    (hsched : s.kernel.gTaskScheduled = true) (hbig : 1000 * losSysCycleGet s.kernel < 2 ^ 64) :
    UsageRight s m := by
  have h := meteredRun_inv hmax hb hrun
  exact h.usageRight hsched (by rw [← h.now]; exact hbig)

omit [Config] [CpupConfig] in
theorem cpup_usage_right_small :
    let _ := smallConfig
    let _ := smallCpupConfig
    ∃ p, smallEvents.foldlM meteredNext (smallCpup, newMeter) = some p ∧ UsageRight p.1 p.2 := by
  let := smallConfig
  let := smallCpupConfig
  obtain ⟨p, hp⟩ : ∃ p, smallEvents.foldlM meteredNext (smallCpup, newMeter) = some p :=
    Option.isSome_iff_exists.mp (by decide +kernel)
  have hstate : (smallEvents.foldlM meteredNext (smallCpup, newMeter)).map
      (fun p => (losSysCycleGet p.1.kernel, p.1.kernel.gTaskScheduled)) = some (125, true) := by decide +kernel
  rw [hp, Option.map_some, Option.some.injEq, Prod.mk.injEq] at hstate
  refine ⟨p, hp, cpup_usage_right (by decide) smallCpup_booted (meteredRun_of_foldlM hp) hstate.2 ?_⟩
  rw [hstate.1]
  decide

/-- The permilles of the tasks leave the idle task out: they are shares of the time of the tasks
that `LOS_TaskCreate` made, and add up to 1000 but for the rounding, however much the system idles. -/
theorem cpup_shares {s₀ : CpupKernel} {events : List CpupEvent} (hmax : gTaskMaxNum ≤ osInvalid)
    (hb : CpupBooted s₀) (hrun : Run MeteredStep (s₀, newMeter) events (s, m))
    (hsched : s.kernel.gTaskScheduled = true) (hbig : 1000 * losSysCycleGet s.kernel < 2 ^ 64) :
    s.kernel.gIdleTaskID ∉ createdTasks s.cpup ∧
      ∀ info mode, ∃ info', (losAllTaskCpuUsage s.kernel s.cpup (some info) mode).2 = .ok info' ∧
        (0 < ∑ i ∈ createdTasks s.cpup, window m mode i →
          ∑ i ∈ createdTasks s.cpup, (info' i).uwUsage ≤ 1000 ∧
            1000 < ∑ i ∈ createdTasks s.cpup, (info' i).uwUsage + (createdTasks s.cpup).card) := by
  have h := meteredRun_inv hmax hb hrun
  have hright := h.usageRight hsched (by rw [← h.now]; exact hbig)
  refine ⟨fun hin => ?_, fun info mode => ?_⟩
  · have hc := (mem_createdTasks.mp hin).2
    unfold OsCpupCB.created at hc
    rw [h.idle] at hc
    cases hc
  · obtain ⟨info', hanswer, _, hin⟩ := hright.all info mode
    refine ⟨info', hanswer, fun hpos => ?_⟩
    have hsum : ∑ i ∈ createdTasks s.cpup, (info' i).uwUsage = ∑ i ∈ createdTasks s.cpup,
        permille (window m mode i) (∑ j ∈ createdTasks s.cpup, window m mode j) :=
      Finset.sum_congr rfl fun i hi => (hin i hi).2 hpos
    rw [hsum]
    exact permille_sum _ _ hpos

/-- Two tasks work and sleep, and the idle task runs. -/
def sharedEvents : List CpupEvent :=
  [.wait (.kernel (smallTask 10)), .wait (.kernel (smallTask 11)), .wait (.kernel .start), .sysCpuUsage,
    .wait (.kernel (.elapse 10)), .wait (.kernel (.delay 5)), .wait (.kernel .pendSV),
    .wait (.kernel (.elapse 20)), .wait (.kernel (.delay 5)), .wait (.kernel .pendSV),
    .wait (.kernel (.elapse 25))]

omit [Config] [CpupConfig] in
/-- A third and two thirds of the time are 333 and 666. -/
theorem cpup_shares_small :
    let _ := smallConfig
    let _ := smallCpupConfig
    ∃ p info', sharedEvents.foldlM meteredNext (smallCpup, newMeter) = some p ∧
      p.1.kernel.gIdleTaskID ∉ createdTasks p.1.cpup ∧
      (losAllTaskCpuUsage p.1.kernel p.1.cpup (some fun _ => ⟨noStatus, 0⟩) cpupLessThan1S).2 = .ok info' ∧
      (info' 1).uwUsage = 333 ∧ (info' 2).uwUsage = 666 ∧
      ∑ i ∈ createdTasks p.1.cpup, (info' i).uwUsage ≤ 1000 ∧
        1000 < ∑ i ∈ createdTasks p.1.cpup, (info' i).uwUsage + (createdTasks p.1.cpup).card := by
  let := smallConfig
  let := smallCpupConfig
  have hrun : (sharedEvents.foldlM meteredNext (smallCpup, newMeter)).map (fun p =>
      ((losSysCycleGet p.1.kernel, p.1.kernel.gTaskScheduled,
        decide (0 < ∑ i ∈ createdTasks p.1.cpup, window p.2 cpupLessThan1S i)),
        (losAllTaskCpuUsage p.1.kernel p.1.cpup (some fun _ => ⟨noStatus, 0⟩) cpupLessThan1S).2.toOption.map
          fun info' => ((info' 1).uwUsage, (info' 2).uwUsage))) =
      some ((60, true, true), some (333, 666)) := by
    decide +kernel
  obtain ⟨p, hp, hval⟩ := Option.map_eq_some_iff.mp hrun
  simp only [Prod.mk.injEq, decide_eq_true_eq] at hval
  obtain ⟨⟨hcycle, hsched, hpos⟩, husage⟩ := hval
  obtain ⟨hidle, hall⟩ := cpup_shares (by decide) smallCpup_booted (meteredRun_of_foldlM hp) hsched
    (by rw [hcycle]; decide)
  obtain ⟨info', hanswer, hsum⟩ := hall (fun _ => ⟨noStatus, 0⟩) cpupLessThan1S
  rw [hanswer] at husage
  change some _ = some _ at husage
  simp only [Option.some.injEq, Prod.mk.injEq] at husage
  obtain ⟨hle, hlt⟩ := hsum hpos
  exact ⟨p, info', hp, hidle, hanswer, husage.1, husage.2, hle, hlt⟩

end

end LiteosM.Cpup
