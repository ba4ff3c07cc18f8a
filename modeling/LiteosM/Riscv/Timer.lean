import LiteosM.Lib.Transition
import Mathlib.Data.Nat.Bitwise

/-!
# The machine timer of RISC-V

`mtime` is a counter of 64 bits that is read and compared in words of 32 bits
while it counts.
-/

namespace LiteosM.Riscv
open Lib.Transition

structure TimerRegs where
  mtime : Nat
  mtimecmp : Nat
  irqEnabled : Bool

/-- The cycles before, between and after the two reads of a call. -/
structure Pace where
  before : Nat
  between : Nat
  after : Nat

def osCombined64 (hi ho : Nat) : Nat := (hi <<< 32) ||| ho

def TimerRegs.elapse (s : TimerRegs) (cycles : Nat) : TimerRegs := { s with mtime := s.mtime + cycles }

def TimerRegs.writeLow (s : TimerRegs) (value : Nat) : TimerRegs :=
  { s with mtimecmp := s.mtimecmp / 2 ^ 32 * 2 ^ 32 + value }

def TimerRegs.writeHigh (s : TimerRegs) (value : Nat) : TimerRegs :=
  { s with mtimecmp := value * 2 ^ 32 + s.mtimecmp % 2 ^ 32 }

/-- The two reads both functions start with. -/
def readMtimer (s : TimerRegs) (p : Pace) : TimerRegs × Nat :=
  let s := s.elapse p.before
  let timerL := s.mtime % 2 ^ 32
  let s := s.elapse p.between
  let timerH := s.mtime / 2 ^ 32 % 2 ^ 32
  (s, osCombined64 timerH timerL)

def halGetTickCycle (s : TimerRegs) (p : Pace) : TimerRegs × Nat :=
  let r := readMtimer s p
  (r.1.elapse p.after, r.2)

def halSysTickReload (s : TimerRegs) (p : Pace) (nextResponseTime : Nat) : TimerRegs :=
  let r := readMtimer s p
  let timer := (r.2 + nextResponseTime) % 2 ^ 64
  let s := { r.1 with irqEnabled := false }
  let s := s.writeHigh 0xffffffff
  let s := s.writeLow (timer % 2 ^ 32)
  let s := s.writeHigh (timer / 2 ^ 32 % 2 ^ 32)
  { s with irqEnabled := true }.elapse p.after

/-- No carry out of the low word between the reads, or the low word has come to
the value that was read again when the call ends. -/
def NotTorn (s : TimerRegs) (p : Pace) : Prop :=
  let low := s.mtime + p.before
  let high := low + p.between
  low / 2 ^ 32 = high / 2 ^ 32 ∨ low % 2 ^ 32 ≤ high + p.after - high / 2 ^ 32 * 2 ^ 32

/-- The counter does not come to its own end during the call. -/
def InRange (s : TimerRegs) (p : Pace) : Prop := s.mtime + p.before + p.between + p.after < 2 ^ 64

/-- The clock of the scheduler with `LOSCFG_BASE_CORE_TICK_WTIMER == 1`, with the values
it has returned, the last one first. -/
structure ClockState where
  regs : TimerRegs
  gTaskScheduled : Bool
  returned : List Nat

inductive ClockEvent
  | start
  | elapse (cycles : Nat)
  | read (p : Pace)
  | reload (p : Pace) (nextResponseTime : Nat)

def osGetCurrSchedTimeCycle (s : ClockState) (p : Pace) : TimerRegs × Nat :=
  if s.gTaskScheduled then halGetTickCycle s.regs p else (s.regs, 0)

def clockStep (s : ClockState) : ClockEvent → ClockState
  | .start => { s with gTaskScheduled := true }
  | .elapse cycles => { s with regs := s.regs.elapse cycles }
  | .read p =>
    let r := osGetCurrSchedTimeCycle s p
    { s with regs := r.1, returned := r.2 :: s.returned }
  | .reload p nextResponseTime => { s with regs := halSysTickReload s.regs p nextResponseTime }

/-- Every read of the clock is in range and not torn. -/
def ClockRun (s : ClockState) (e : ClockEvent) (t : ClockState) : Prop :=
  (∀ p, e = .read p → InRange s.regs p ∧ NotTorn s.regs p) ∧ clockStep s e = t

section
variable {s : TimerRegs} {p : Pace} {c c' : ClockState} {hi ho : Nat}

theorem osCombined64_eq (h : ho < 2 ^ 32) : osCombined64 hi ho = hi * 2 ^ 32 + ho := by
  unfold osCombined64
  rw [← Nat.shiftLeft_add_eq_or_of_lt h, Nat.shiftLeft_eq]

theorem readMtimer_eq (hfit : InRange s p) : (readMtimer s p).2 =
    (s.mtime + p.before + p.between) / 2 ^ 32 * 2 ^ 32 + (s.mtime + p.before) % 2 ^ 32 := by
  unfold InRange at hfit
  unfold readMtimer TimerRegs.elapse
  have hlow : (s.mtime + p.before) % 2 ^ 32 < 2 ^ 32 := Nat.mod_lt _ (by decide)
  have hhigh : (s.mtime + p.before + p.between) / 2 ^ 32 < 2 ^ 32 := by omega
  dsimp only
  rw [osCombined64_eq hlow, Nat.mod_eq_of_lt hhigh]

theorem halGetTickCycle_mtime :
    (halGetTickCycle s p).1.mtime = s.mtime + p.before + p.between + p.after := rfl

/-- It is never below the timer at the entry, and above the timer at the exit if it is torn. -/
theorem readMtimer_between (hfit : InRange s p) :
    s.mtime ≤ (readMtimer s p).2 ∧
      ((readMtimer s p).2 ≤ s.mtime + p.before + p.between + p.after ↔ NotTorn s p) := by
  rw [readMtimer_eq hfit]
  unfold NotTorn
  dsimp only
  have hmono : (s.mtime + p.before) / 2 ^ 32 ≤ (s.mtime + p.before + p.between) / 2 ^ 32 :=
    Nat.div_le_div_right (Nat.le_add_right _ _)
  omega

theorem halSysTickReload_mtimecmp (n : Nat) :
    (halSysTickReload s p n).mtimecmp = ((readMtimer s p).2 + n) % 2 ^ 64 := by
  unfold halSysTickReload TimerRegs.writeHigh TimerRegs.writeLow TimerRegs.elapse
  dsimp only
  generalize (readMtimer s p).2 + n = timer
  generalize (readMtimer s p).1.mtimecmp = old
  omega

/-- What the values returned have in common: none is above the timer, and they go up. -/
structure ClockInv (c : ClockState) : Prop where
  below : ∀ v ∈ c.returned, v ≤ c.regs.mtime
  zero : c.gTaskScheduled = false → ∀ v ∈ c.returned, v = 0
  sorted : c.returned.Pairwise (· ≥ ·)

theorem clockStep_inv (e : ClockEvent) (h : ClockInv c) (hstep : ClockRun c e c') : ClockInv c' := by
  obtain ⟨hread, rfl⟩ := hstep
  cases e with
  | start =>
    refine ⟨h.below, fun hno => ?_, h.sorted⟩
    cases hno
  | elapse cycles =>
    exact ⟨fun v hv => (h.below v hv).trans (Nat.le_add_right _ _), h.zero, h.sorted⟩
  | reload p n =>
    have hle : c.regs.mtime ≤ (halSysTickReload c.regs p n).mtime := by
      show c.regs.mtime ≤ c.regs.mtime + p.before + p.between + p.after
      omega
    exact ⟨fun v hv => (h.below v hv).trans hle, h.zero, h.sorted⟩
  | read p =>
    obtain ⟨hfit, hwhole⟩ := hread p rfl
    obtain ⟨hlow, hhigh⟩ := readMtimer_between hfit
    have hhigh := hhigh.mpr hwhole
    unfold clockStep osGetCurrSchedTimeCycle
    cases hsched : c.gTaskScheduled with
    | false =>
      have hzero := h.zero hsched
      constructor
      · intro v hv
        cases hv with
        | head => exact Nat.zero_le _
        | tail _ hv => exact h.below v hv
      · intro _ v hv
        cases hv with
        | head => rfl
        | tail _ hv => exact hzero v hv
      · apply List.pairwise_cons.mpr
        exact ⟨fun v hv => (hzero v hv).le, h.sorted⟩
    | true =>
      constructor
      · intro v hv
        cases hv with
        | head => exact hhigh
        | tail _ hv =>
          have hv := h.below v hv
          show v ≤ c.regs.mtime + p.before + p.between + p.after
          omega
      · intro hno
        cases hno
      · apply List.pairwise_cons.mpr
        exact ⟨fun v hv => (h.below v hv).trans hlow, h.sorted⟩

end

/-- `HalGetTickCycle` and `HalSysTickReload` work with a time between their entry and
their exit if and only if the two words are not torn, and the clock of a run
without torn reads does not go back. -/
theorem halGetTickCycle_between (s : TimerRegs) (p : Pace) (n : Nat) (hfit : InRange s p) :
    ((s.mtime ≤ (halGetTickCycle s p).2 ∧ (halGetTickCycle s p).2 ≤ (halGetTickCycle s p).1.mtime) ↔
      NotTorn s p) ∧
    ((∃ time, s.mtime ≤ time ∧ time ≤ (halSysTickReload s p n).mtime ∧
      (halSysTickReload s p n).mtimecmp = (time + n) % 2 ^ 64) ↔ NotTorn s p) ∧
    ∀ es c, Run ClockRun ⟨s, false, []⟩ es c → c.returned.Pairwise (· ≥ ·) := by
  obtain ⟨hlow, hhigh⟩ := readMtimer_between hfit
  refine ⟨?_, ?_, ?_⟩
  · rw [halGetTickCycle_mtime, ← hhigh]
    exact and_iff_right hlow
  · rw [halSysTickReload_mtimecmp, ← hhigh]
    constructor
    · intro htime
      obtain ⟨time, hentry, hexit, heq⟩ := htime
      have hexit : time ≤ s.mtime + p.before + p.between + p.after := hexit
      have hread : (readMtimer s p).2 < 2 ^ 64 := by
        rw [readMtimer_eq hfit]
        unfold InRange at hfit
        omega
      unfold InRange at hfit
      omega
    · intro hle
      exact ⟨_, hlow, hle, rfl⟩
  · intro es c hrun
    have hinv : ClockInv ⟨s, false, []⟩ :=
      ⟨fun _ hv => absurd hv List.not_mem_nil, fun _ _ hv => absurd hv List.not_mem_nil,
        List.Pairwise.nil⟩
    exact (run_invariant ClockInv (fun _ e _ h hstep => clockStep_inv e h hstep) hrun hinv).sorted

theorem halGetTickCycle_between_quiet :
    7 ≤ (halGetTickCycle ⟨7, 0, true⟩ ⟨1, 1, 1⟩).2 ∧
      (halGetTickCycle ⟨7, 0, true⟩ ⟨1, 1, 1⟩).2 ≤ (halGetTickCycle ⟨7, 0, true⟩ ⟨1, 1, 1⟩).1.mtime :=
  (halGetTickCycle_between ⟨7, 0, true⟩ ⟨1, 1, 1⟩ 0 (by unfold InRange; decide)).1.mpr
    (by unfold NotTorn; decide)

/-- The low word carries between the reads: the time is far ahead, the next read is
behind it, and the compare value is too late. -/
theorem halGetTickCycle_torn :
    ¬(halGetTickCycle ⟨4294967295, 0, true⟩ ⟨0, 1, 0⟩).2 ≤
      (halGetTickCycle ⟨4294967295, 0, true⟩ ⟨0, 1, 0⟩).1.mtime ∧
    (halGetTickCycle ⟨4294967296, 0, true⟩ ⟨0, 1, 0⟩).2 <
      (halGetTickCycle ⟨4294967295, 0, true⟩ ⟨0, 1, 0⟩).2 ∧
    ¬(halSysTickReload ⟨4294967295, 0, true⟩ ⟨0, 1, 0⟩ 5).mtimecmp ≤
      (halSysTickReload ⟨4294967295, 0, true⟩ ⟨0, 1, 0⟩ 5).mtime + 5 := by
  decide

end LiteosM.Riscv
