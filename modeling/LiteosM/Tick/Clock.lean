import LiteosM.Lib.Transition
import Mathlib.Tactic.Ring
import Mathlib.Tactic.Linarith

/-!
# The scheduler clock

`OsGetCurrSchedTimeCycle` with `LOSCFG_BASE_CORE_TICK_WTIMER == 0`, on top of a timer
that counts from 0 to `load`, starts again and pends the tick interrupt.
-/

namespace LiteosM.Tick
open Lib.Transition

/-- `elapsed` is the number of cycles that really went by, `uncounted` the number of
wraps since the last reload that `gSchedTimerBase` does not include. -/
structure ClockState where
  load : Nat
  count : Nat
  pending : Bool
  gSchedTimerBase : Nat
  oldSchedTime : Nat
  elapsed : Nat
  uncounted : Nat

def timerCycle (s : ClockState) : ClockState :=
  if s.count < s.load then { s with count := s.count + 1, elapsed := s.elapsed + 1 }
  else
    { s with
      count := 0
      pending := true
      elapsed := s.elapsed + 1
      uncounted := s.uncounted + 1 }

def halGetTickCycle (s : ClockState) : Nat × Nat := (s.count, s.load)

def halSysTickReload (s : ClockState) (nextResponseTime : Nat) : ClockState :=
  { s with
    load := (nextResponseTime - 1) % 4294967296
    count := 0
    pending := false
    uncounted := 0 }

def osSchedUpdateSchedTimeBase (s : ClockState) : ClockState :=
  { s with
    gSchedTimerBase := s.gSchedTimerBase + (halGetTickCycle s).2
    uncounted := s.uncounted - 1 }

/-- `none` is the failing `LOS_ASSERT`. -/
def osGetCurrSchedTimeCycle (s : ClockState) : Option (ClockState × Nat) :=
  let time := (halGetTickCycle s).1
  let schedTime := s.gSchedTimerBase + time
  let s := if schedTime < s.oldSchedTime then osSchedUpdateSchedTimeBase s else s
  let schedTime := s.gSchedTimerBase + time
  if schedTime < s.oldSchedTime then none
  else some ({ s with oldSchedTime := schedTime }, schedTime)

/-- The end of `OsSchedSetNextExpireTime`; `lag` cycles go by before the timer is stopped. -/
def reprogram (s : ClockState) (lag nextResponseTime : Nat) : Option ClockState := do
  let r ← osGetCurrSchedTimeCycle s
  let s := { r.1 with gSchedTimerBase := r.2 }
  some (halSysTickReload (timerCycle^[lag] s) nextResponseTime)

inductive ClockOp
  | cycle
  | tickInterrupt
  | getCurrSchedTimeCycle
  | setNextExpireTime (lag nextResponseTime : Nat)

inductive ClockStep : ClockState → ClockOp → ClockState → Prop
  | cycle (s : ClockState) : ClockStep s .cycle (timerCycle s)
  | tickInterrupt (s : ClockState) (hp : s.pending = true) :
      ClockStep s .tickInterrupt (osSchedUpdateSchedTimeBase { s with pending := false })
  | getCurrSchedTimeCycle (s : ClockState) (r : ClockState × Nat)
      (hr : osGetCurrSchedTimeCycle s = some r) : ClockStep s .getCurrSchedTimeCycle r.1
  | setNextExpireTime (s t : ClockState) (lag nextResponseTime : Nat)
      (ht : reprogram s lag nextResponseTime = some t) :
      ClockStep s (.setNextExpireTime lag nextResponseTime) t

/-- After `SysTick_Config`. -/
def clockStart (load : Nat) : ClockState := ⟨load, 0, false, 0, 0, 0, 0⟩

/-- The next value is there, not below the last one and not ahead of real time. -/
def ClockExact (s : ClockState) : Prop :=
  ∃ r, osGetCurrSchedTimeCycle s = some r ∧ s.oldSchedTime ≤ r.2 ∧ r.2 ≤ s.elapsed

/-- The interrupt adds a period for a wrap that nobody has added yet. -/
def Accounted (s : ClockState) (op : ClockOp) : Prop := op = .tickInterrupt → 0 < s.uncounted

structure ClockInv (s : ClockState) : Prop where
  count : s.count ≤ s.load
  bounded : s.oldSchedTime ≤ s.gSchedTimerBase + s.load
  forward : s.uncounted = 0 → s.oldSchedTime ≤ s.gSchedTimerBase + s.count
  behind : s.gSchedTimerBase + s.count + s.uncounted * (s.load + 1) ≤ s.elapsed

section

variable {s t : ClockState} {op : ClockOp}

theorem clockInv_cycle (h : ClockInv s) : ClockInv (timerCycle s) := by
  obtain ⟨h1, h2, h3, h4⟩ := h
  unfold timerCycle
  by_cases hc : s.count < s.load
  · rw [if_pos hc]
    refine ⟨?_, h2, fun hu => ?_, ?_⟩
    · show s.count + 1 ≤ s.load
      omega
    · have hf := h3 hu
      show s.oldSchedTime ≤ s.gSchedTimerBase + (s.count + 1)
      omega
    · show s.gSchedTimerBase + (s.count + 1) + s.uncounted * (s.load + 1) ≤ s.elapsed + 1
      omega
  · rw [if_neg hc]
    refine ⟨Nat.zero_le _, h2, fun hu => absurd hu (Nat.succ_ne_zero _), ?_⟩
    show s.gSchedTimerBase + 0 + (s.uncounted + 1) * (s.load + 1) ≤ s.elapsed + 1
    rw [Nat.add_mul]
    omega

theorem timerCycle_iterate (lag : Nat) (s : ClockState) :
    (timerCycle^[lag] s).gSchedTimerBase = s.gSchedTimerBase ∧
      (timerCycle^[lag] s).oldSchedTime = s.oldSchedTime ∧ s.elapsed ≤ (timerCycle^[lag] s).elapsed := by
  induction lag with
  | zero => exact ⟨rfl, rfl, le_refl _⟩
  | succ lag ih =>
    rw [Function.iterate_succ_apply']
    obtain ⟨h1, h2, h3⟩ := ih
    unfold timerCycle
    split
    · exact ⟨h1, h2, Nat.le_succ_of_le h3⟩
    · exact ⟨h1, h2, Nat.le_succ_of_le h3⟩

theorem clockInv_update (h : ClockInv s) (hu : 0 < s.uncounted) :
    ClockInv (osSchedUpdateSchedTimeBase s) ∧
      (osSchedUpdateSchedTimeBase s).oldSchedTime ≤ s.gSchedTimerBase + s.load := by
  obtain ⟨h1, h2, h3, h4⟩ := h
  refine ⟨⟨h1, ?_, fun _ => ?_, ?_⟩, h2⟩
  · show s.oldSchedTime ≤ s.gSchedTimerBase + s.load + s.load
    omega
  · show s.oldSchedTime ≤ s.gSchedTimerBase + s.load + s.count
    omega
  · obtain ⟨u, hu⟩ : ∃ u, s.uncounted = u + 1 := ⟨s.uncounted - 1, by omega⟩
    rw [hu, Nat.add_mul] at h4
    show s.gSchedTimerBase + s.load + s.count + (s.uncounted - 1) * (s.load + 1) ≤ s.elapsed
    rw [hu, Nat.add_sub_cancel]
    omega

/-- A read: the correction can only be for a wrap that is not counted yet. -/
theorem clockInv_read (h : ClockInv s) :
    ∃ r, osGetCurrSchedTimeCycle s = some r ∧ ClockInv r.1 ∧ s.oldSchedTime ≤ r.2 ∧
      r.2 ≤ s.elapsed ∧ r.1.oldSchedTime = r.2 ∧ r.1.elapsed = s.elapsed := by
  unfold osGetCurrSchedTimeCycle halGetTickCycle
  dsimp only
  by_cases hback : s.gSchedTimerBase + s.count < s.oldSchedTime
  · have hu : 0 < s.uncounted := by
      by_contra hu
      have hf := h.forward (by omega)
      omega
    obtain ⟨hi, hle⟩ := clockInv_update h hu
    have hle : s.oldSchedTime ≤ s.gSchedTimerBase + s.load := hle
    have hbase : (osSchedUpdateSchedTimeBase s).gSchedTimerBase = s.gSchedTimerBase + s.load := rfl
    have hold : (osSchedUpdateSchedTimeBase s).oldSchedTime = s.oldSchedTime := rfl
    obtain ⟨i1, i2, i3, i4⟩ := hi
    rw [if_pos hback, hbase, hold, if_neg (by omega)]
    have hcount : (osSchedUpdateSchedTimeBase s).count = s.count := rfl
    have hload : (osSchedUpdateSchedTimeBase s).load = s.load := rfl
    have helapsed : (osSchedUpdateSchedTimeBase s).elapsed = s.elapsed := rfl
    rw [hbase, hcount, hload, helapsed] at i4
    have hc := h.count
    have hnn := Nat.zero_le ((osSchedUpdateSchedTimeBase s).uncounted * (s.load + 1))
    refine ⟨_, rfl, ⟨i1, ?_, fun _ => ?_, ?_⟩, by dsimp only; omega, by dsimp only; omega, rfl, rfl⟩
    · show s.gSchedTimerBase + s.load + s.count ≤ s.gSchedTimerBase + s.load + s.load
      omega
    · show s.gSchedTimerBase + s.load + s.count ≤ s.gSchedTimerBase + s.load + s.count
      omega
    · exact i4
  · rw [if_neg hback, if_neg hback]
    obtain ⟨h1, h2, h3, h4⟩ := h
    have hnn := Nat.zero_le (s.uncounted * (s.load + 1))
    refine ⟨_, rfl, ⟨h1, ?_, fun _ => le_refl _, h4⟩, by dsimp only; omega, by dsimp only; omega,
      rfl, rfl⟩
    show s.gSchedTimerBase + s.count ≤ s.gSchedTimerBase + s.load
    omega

theorem clockInv_reprogram (lag n : Nat) (h : ClockInv s) (ht : reprogram s lag n = some t) :
    ClockInv t := by
  obtain ⟨r, hr, _, _, hle, hold, helapsed⟩ := clockInv_read h
  unfold reprogram at ht
  rw [hr] at ht
  have ht : some (halSysTickReload (timerCycle^[lag] { r.1 with gSchedTimerBase := r.2 }) n) = some t :=
    ht
  rw [← Option.some.inj ht]
  obtain ⟨h1, h2, h3⟩ := timerCycle_iterate lag { r.1 with gSchedTimerBase := r.2 }
  have h1 : (timerCycle^[lag] { r.1 with gSchedTimerBase := r.2 }).gSchedTimerBase = r.2 := h1
  have h2 : (timerCycle^[lag] { r.1 with gSchedTimerBase := r.2 }).oldSchedTime = r.1.oldSchedTime := h2
  have h3 : r.1.elapsed ≤ (timerCycle^[lag] { r.1 with gSchedTimerBase := r.2 }).elapsed := h3
  generalize timerCycle^[lag] { r.1 with gSchedTimerBase := r.2 } = u at h1 h2 h3
  refine ⟨Nat.zero_le _, ?_, fun _ => ?_, ?_⟩
  · show u.oldSchedTime ≤ u.gSchedTimerBase + (n - 1) % 4294967296
    omega
  · show u.oldSchedTime ≤ u.gSchedTimerBase + 0
    omega
  · show u.gSchedTimerBase + 0 + 0 * ((n - 1) % 4294967296 + 1) ≤ u.elapsed
    omega

theorem clockStep_inv (h : ClockInv s) (hstep : ClockStep s op t) (hacc : Accounted s op) :
    ClockInv t := by
  cases hstep with
  | cycle => exact clockInv_cycle h
  | tickInterrupt hp =>
    have h' : ClockInv { s with pending := false } := ⟨h.count, h.bounded, h.forward, h.behind⟩
    exact (clockInv_update h' (hacc rfl)).1
  | getCurrSchedTimeCycle r hr =>
    obtain ⟨r', hr', hi, _⟩ := clockInv_read h
    rw [hr] at hr'
    rw [Option.some.inj hr']
    exact hi
  | setNextExpireTime _ lag n ht => exact clockInv_reprogram lag n h ht

end

/-- As long as no wrap is added twice, the clock is monotone and never ahead. -/
theorem osGetCurrSchedTimeCycle_exact (load : Nat) (ops : List ClockOp) (t : ClockState)
    (hrun : Run (fun s op s' => ClockStep s op s' ∧ Accounted s op) (clockStart load) ops t) :
    ClockExact t := by
  have hstart : ClockInv (clockStart load) :=
    ⟨Nat.zero_le _, Nat.zero_le _, fun _ => Nat.zero_le _, by simp [clockStart]⟩
  have hinv : ClockInv t :=
    run_invariant ClockInv (fun _ _ _ hI h => clockStep_inv hI h.1 h.2) hrun hstart
  obtain ⟨r, hr, _, hge, hle, _⟩ := clockInv_read hinv
  exact ⟨r, hr, hge, hle⟩

/-- A wrap, its interrupt, and a read. -/
theorem osGetCurrSchedTimeCycle_exact_wrap :
    ∃ ops t, ops.length = 3 ∧
      Run (fun s op s' => ClockStep s op s' ∧ Accounted s op) (clockStart 1) ops t ∧
      ClockExact t := by
  have hcycle : ∀ s, Run (fun s op s' => ClockStep s op s' ∧ Accounted s op) s [.cycle]
      (timerCycle s) := fun s => run_single ⟨ClockStep.cycle s, fun h => by cases h⟩
  have hrun := Run.snoc (run_append (hcycle (clockStart 1)) (hcycle _))
    ⟨ClockStep.tickInterrupt _ rfl, fun _ => by decide⟩
  exact ⟨_, _, rfl, hrun, osGetCurrSchedTimeCycle_exact 1 _ _ hrun⟩

/-- Read at cycle 1, wrap at cycle 4 with interrupts locked, read, then take the interrupt:
at cycle 4 the clock says 6. -/
theorem osGetCurrSchedTimeCycle_ahead :
    ∃ ops t, Run ClockStep (clockStart 3) ops t ∧ ¬ClockExact t := by
  have h1 := run_append (run_single (ClockStep.cycle (clockStart 3)))
    (run_single (ClockStep.getCurrSchedTimeCycle _ _ rfl))
  have h2 := Run.snoc (Run.snoc (Run.snoc h1 (ClockStep.cycle _)) (ClockStep.cycle _))
    (ClockStep.cycle _)
  have hrun := Run.snoc (Run.snoc h2 (ClockStep.getCurrSchedTimeCycle _ _ rfl))
    (ClockStep.tickInterrupt _ rfl)
  refine ⟨_, _, hrun, ?_⟩
  rintro ⟨r, hr, _, hle⟩
  rw [← Option.some.inj hr] at hle
  exact absurd hle (by decide)

end LiteosM.Tick
