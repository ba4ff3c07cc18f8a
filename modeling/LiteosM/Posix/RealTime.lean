import LiteosM.Posix.Deadline

/-!
# The wall clock

`CLOCK_REALTIME` is the hardware time plus `g_accDeltaFromSet`, which `clock_settime` sets.
`osSysClock` is `OS_SYS_CLOCK`, and `cycle` what `LOS_SysCycleGet` returns.
-/

namespace LiteosM.Posix

open Lib.TruncDiv

/-- The value of an expression of type `long`, whose overflow is undefined. -/
def long32 (x : Int) : Option Int :=
  if -2147483648 ≤ x ∧ x < 2147483648 then some x else none

def osGetHwTime (osSysClock cycle : Nat) : Timespec :=
  let nowNsec := u64 (u64 ((cycle / osSysClock : Nat) * osSysNsPerSecond) +
    (u64 ((cycle % osSysClock : Nat) * osSysNsPerSecond) / osSysClock : Nat))
  ⟨(nowNsec / osSysNsPerSecond : Nat), (nowNsec % osSysNsPerSecond : Nat)⟩

/-- A comparison as an `int`. -/
def ofBool (b : Bool) : Int := if b then 1 else 0

def osGetRealTime (osSysClock cycle : Nat) (gAccDeltaFromSet : Timespec) : Option Timespec := do
  let hwTime := osGetHwTime osSysClock cycle
  let tvNsec ← long32 (hwTime.tvNsec + gAccDeltaFromSet.tvNsec)
  let tvSec ← i64 (hwTime.tvSec + gAccDeltaFromSet.tvSec)
  let tvSec ← i64 (tvSec + ofBool (osSysNsPerSecond ≤ tvNsec))
  some ⟨tvSec, tvNsec.tmod osSysNsPerSecond⟩

/-- The new `g_accDeltaFromSet`. -/
def osSetRealTime (osSysClock cycle : Nat) (realTime : Timespec) : Option Timespec := do
  let hwTime := osGetHwTime osSysClock cycle
  let tvNsec ← long32 (realTime.tvNsec - hwTime.tvNsec)
  let tvSec ← i64 (realTime.tvSec - hwTime.tvSec)
  let tvSec ← i64 (tvSec - ofBool (tvNsec < 0))
  let tvNsec ← long32 (tvNsec + osSysNsPerSecond)
  some ⟨tvSec, tvNsec.tmod osSysNsPerSecond⟩

inductive ClockId
  | realtime
  | monotonic
  | processCputimeId
  | threadCputimeId
  | monotonicRaw
  | realtimeCoarse
  | monotonicCoarse
  | boottime
  | realtimeAlarm
  | boottimeAlarm
  | sgiCycle
  | tai
  | other (clockID : Int)

inductive ClockError
  | einval
  | enotsup

/-- The new `g_accDeltaFromSet`, and the error if there is one. -/
def clockSettime (osSysClock cycle : Nat) (gAccDeltaFromSet : Timespec) (clockID : ClockId)
    (tp : Option Timespec) : Option (Timespec × Except ClockError Unit) :=
  match tp with
  | none => some (gAccDeltaFromSet, .error .einval)
  | some tp =>
    if !validTimeSpec (some tp) then some (gAccDeltaFromSet, .error .einval)
    else
      match clockID with
      | .realtime => (osSetRealTime osSysClock cycle tp).map fun delta => (delta, .ok ())
      | .monotonicCoarse | .realtimeCoarse | .monotonicRaw | .processCputimeId | .boottime | .realtimeAlarm
      | .boottimeAlarm | .sgiCycle | .tai | .threadCputimeId => some (gAccDeltaFromSet, .error .enotsup)
      | .monotonic | .other _ => some (gAccDeltaFromSet, .error .einval)

def clockGettime (osSysClock cycle : Nat) (gAccDeltaFromSet : Timespec) (clockID : ClockId) :
    Option (Except ClockError Timespec) :=
  match clockID with
  | .monotonicRaw | .monotonic | .monotonicCoarse => some (.ok (osGetHwTime osSysClock cycle))
  | .realtime | .realtimeCoarse => (osGetRealTime osSysClock cycle gAccDeltaFromSet).map .ok
  | .threadCputimeId | .processCputimeId | .boottime | .realtimeAlarm | .boottimeAlarm | .sgiCycle | .tai =>
    some (.error .enotsup)
  | .other _ => some (.error .einval)

/-- The nanoseconds of a timespec, whose seconds may be negative. -/
def Timespec.total (tp : Timespec) : Int := tp.tvSec * 1000000000 + tp.tvNsec

def Timespec.Normal (tp : Timespec) : Prop := 0 ≤ tp.tvNsec ∧ tp.tvNsec < 1000000000

section

variable {osSysClock cycle : Nat} {delta tp : Timespec}

/-- The hardware time in nanoseconds, modulo `2 ^ 64`. -/
def hwNsec (osSysClock cycle : Nat) : Nat :=
  (cycle / osSysClock * 1000000000 + cycle % osSysClock * 1000000000 / osSysClock) % 2 ^ 64

theorem hwNsec_floor (h0 : 0 < osSysClock) (cycle : Nat) :
    cycle / osSysClock * 1000000000 + cycle % osSysClock * 1000000000 / osSysClock =
      cycle * 1000000000 / osSysClock := by
  have hsplit : cycle * 1000000000 =
      cycle % osSysClock * 1000000000 + osSysClock * (cycle / osSysClock * 1000000000) := by
    conv_lhs => rw [← Nat.mod_add_div cycle osSysClock, Nat.add_mul, Nat.mul_assoc]
  rw [hsplit, Nat.add_mul_div_left _ _ h0, Nat.add_comm]

theorem osGetHwTime_eq (h0 : 0 < osSysClock) (h4 : osSysClock ≤ 4000000000) :
    osGetHwTime osSysClock cycle =
      ⟨(hwNsec osSysClock cycle / 1000000000 : Nat), (hwNsec osSysClock cycle % 1000000000 : Nat)⟩ := by
  have hmod : cycle % osSysClock * 1000000000 < 2 ^ 64 := by
    have hlt := Nat.mod_lt cycle h0
    omega
  have hnow : u64 (u64 ((cycle / osSysClock : Nat) * osSysNsPerSecond) +
      (u64 ((cycle % osSysClock : Nat) * osSysNsPerSecond) / osSysClock : Nat)) = hwNsec osSysClock cycle := by
    have hprod : ∀ n : Nat, u64 ((n : Int) * (osSysNsPerSecond : Nat)) = n * 1000000000 % 2 ^ 64 := by
      intro n
      rw [← u64_natCast]
      rfl
    rw [hprod, hprod, Nat.mod_eq_of_lt hmod, ← Int.natCast_add, u64_natCast, Nat.mod_add_mod]
    rfl
  unfold osGetHwTime
  rw [hnow]
  rfl

theorem long32_eq_some {x y : Int} :
    long32 x = some y ↔ (-2147483648 ≤ x ∧ x < 2147483648) ∧ x = y := by
  unfold long32
  split <;> simp_all

theorem ofBool_pos {p : Prop} [Decidable p] (h : p) : ofBool (decide p) = 1 := by
  rw [decide_eq_true h]
  rfl

theorem ofBool_neg {p : Prop} [Decidable p] (h : ¬p) : ofBool (decide p) = 0 := by
  rw [decide_eq_false h]
  rfl

theorem ofBool_bounds (b : Bool) : 0 ≤ ofBool b ∧ ofBool b ≤ 1 := by
  cases b with
  | false => decide
  | true => decide

theorem osSetRealTime_spec (cycle : Nat) (h0 : 0 < osSysClock) (h4 : osSysClock ≤ 4000000000)
    (hv : validTimeSpec (some tp) = true) (hsec : tp.tvSec < 2 ^ 62) :
    ∃ delta, osSetRealTime osSysClock cycle tp = some delta ∧ delta.Normal ∧
      delta.total = tp.total - hwNsec osSysClock cycle ∧
      -20000000000 ≤ delta.tvSec ∧ delta.tvSec < 2 ^ 62 := by
  obtain ⟨sec, nsec, rfl, hns⟩ := validTimeSpec_iff.mp hv
  have hsec : (sec : Int) < 2 ^ 62 := hsec
  have hhw : hwNsec osSysClock cycle < 2 ^ 64 := Nat.mod_lt _ (by decide)
  unfold osSetRealTime Timespec.Normal Timespec.total
  rw [osGetHwTime_eq h0 h4]
  generalize hwNsec osSysClock cycle = h at hhw
  have hbit := ofBool_bounds (decide ((nsec : Int) - (h % 1000000000 : Nat) < 0))
  simp only [Option.bind_eq_bind, Option.bind_eq_some_iff, long32_eq_some, i64_eq_some, Option.some.injEq]
  refine ⟨_, ⟨_, ⟨by omega, rfl⟩, _, ⟨by omega, rfl⟩, _, ⟨by omega, rfl⟩, _,
    ⟨by unfold osSysNsPerSecond; omega, rfl⟩, rfl⟩, ?_⟩
  dsimp only
  rw [tmod_of_nonneg (by unfold osSysNsPerSecond; omega)]
  unfold osSysNsPerSecond
  by_cases hborrow : (nsec : Int) - (h % 1000000000 : Nat) < 0
  · rw [ofBool_pos hborrow]
    omega
  · rw [ofBool_neg hborrow]
    omega

theorem osGetRealTime_spec (cycle : Nat) (h0 : 0 < osSysClock) (h4 : osSysClock ≤ 4000000000) (hn : delta.Normal)
    (hlow : -20000000000 ≤ delta.tvSec) (hhigh : delta.tvSec < 2 ^ 62) :
    ∃ now, osGetRealTime osSysClock cycle delta = some now ∧ now.Normal ∧
      now.total = delta.total + hwNsec osSysClock cycle := by
  have hhw : hwNsec osSysClock cycle < 2 ^ 64 := Nat.mod_lt _ (by decide)
  unfold osGetRealTime Timespec.Normal Timespec.total at *
  rw [osGetHwTime_eq h0 h4]
  generalize hwNsec osSysClock cycle = h at hhw
  have hbit := ofBool_bounds
    (decide ((osSysNsPerSecond : Int) ≤ (h % 1000000000 : Nat) + delta.tvNsec))
  simp only [Option.bind_eq_bind, Option.bind_eq_some_iff, long32_eq_some, i64_eq_some, Option.some.injEq]
  refine ⟨_, ⟨_, ⟨by omega, rfl⟩, _, ⟨by omega, rfl⟩, _, ⟨by omega, rfl⟩, rfl⟩, ?_⟩
  dsimp only
  rw [tmod_of_nonneg (by omega)]
  by_cases hcarry : (osSysNsPerSecond : Int) ≤ (h % 1000000000 : Nat) + delta.tvNsec
  · rw [ofBool_pos hcarry]
    unfold osSysNsPerSecond at *
    omega
  · rw [ofBool_neg hcarry]
    unfold osSysNsPerSecond at *
    omega

theorem osGetHwTime_ns (h0 : 0 < osSysClock) (h4 : osSysClock ≤ 4000000000) :
    (osGetHwTime osSysClock cycle).ns = hwNsec osSysClock cycle := by
  rw [osGetHwTime_eq h0 h4, Timespec.ns_mk]
  omega

theorem hwNsec_of_fits (h0 : 0 < osSysClock) (h : cycle * 1000000000 / osSysClock < 2 ^ 64) :
    hwNsec osSysClock cycle = cycle * 1000000000 / osSysClock := by
  unfold hwNsec
  rw [hwNsec_floor h0, Nat.mod_eq_of_lt h]

end

/-- After `clock_settime` the wall clock runs with the hardware time. -/
theorem clockGettime_after_clockSettime (osSysClock : Nat) (h0 : 0 < osSysClock)
    (h4 : osSysClock ≤ 4000000000) :
    (∀ (delta t : Timespec) (c1 c2 : Nat), c1 ≤ c2 → c2 < 2 ^ 62 → validTimeSpec (some t) = true →
      t.tvSec < 2 ^ 62 →
      ∃ delta' now, clockSettime osSysClock c1 delta .realtime (some t) = some (delta', .ok ()) ∧
        clockGettime osSysClock c2 delta' .realtime = some (.ok now) ∧
        0 ≤ now.tvNsec ∧ now.tvNsec < 1000000000 ∧
        now.total = t.total + ((osGetHwTime osSysClock c2).ns - (osGetHwTime osSysClock c1).ns : Int) ∧
        ∀ c, clockGettime osSysClock c delta' .monotonic = clockGettime osSysClock c delta .monotonic) ∧
    (∀ c1 c2, c1 ≤ c2 → c2 * 1000000000 / osSysClock < 2 ^ 64 →
      (osGetHwTime osSysClock c1).ns ≤ (osGetHwTime osSysClock c2).ns) ∧
    ∀ c, c * 1000000000 / osSysClock < 2 ^ 64 →
      (osGetHwTime osSysClock c).ns = c * 1000000000 / osSysClock := by
  refine ⟨?_, ?_, ?_⟩
  · intro delta t c1 c2 _ _ hv hsec
    obtain ⟨delta', hset, hn, htotal, hlow, hhigh⟩ := osSetRealTime_spec c1 h0 h4 hv hsec
    obtain ⟨now, hget, hnow, htotal'⟩ := osGetRealTime_spec c2 h0 h4 hn hlow hhigh
    refine ⟨delta', now, ?_, ?_, hnow.1, hnow.2, ?_, fun c => rfl⟩
    · unfold clockSettime
      simp only [hv, hset, Bool.not_true, Bool.false_eq_true, if_false, Option.map_some]
    · unfold clockGettime
      simp only [hget, Option.map_some]
    · rw [osGetHwTime_ns h0 h4, osGetHwTime_ns h0 h4]
      omega
  · intro c1 c2 hle hfit
    have hmono : c1 * 1000000000 / osSysClock ≤ c2 * 1000000000 / osSysClock :=
      Nat.div_le_div_right (Nat.mul_le_mul_right _ hle)
    rw [osGetHwTime_ns h0 h4, osGetHwTime_ns h0 h4, hwNsec_of_fits h0 hfit,
      hwNsec_of_fits h0 (Nat.lt_of_le_of_lt hmono hfit)]
    exact hmono
  · intro c hfit
    rw [osGetHwTime_ns h0 h4, hwNsec_of_fits h0 hfit]

/-- At 100 MHz, set after 99999999 cycles and read three cycles later. -/
theorem clockGettime_after_clockSettime_borrow :
    (∃ delta' now, clockSettime 100000000 99999999 ⟨0, 0⟩ .realtime (some ⟨1600000000, 10⟩) =
        some (delta', .ok ()) ∧
      clockGettime 100000000 100000002 delta' .realtime = some (.ok now) ∧ 0 ≤ now.tvNsec ∧
      now.tvNsec < 1000000000 ∧
      now.total = Timespec.total ⟨1600000000, 10⟩ +
        ((osGetHwTime 100000000 100000002).ns - (osGetHwTime 100000000 99999999).ns : Int) ∧
      ∀ c, clockGettime 100000000 c delta' .monotonic = clockGettime 100000000 c ⟨0, 0⟩ .monotonic) ∧
    (osGetHwTime 100000000 99999999).ns ≤ (osGetHwTime 100000000 100000002).ns ∧
    (osGetHwTime 100000000 100000002).ns = 1000000020 := by
  obtain ⟨hset, hmono, hfloor⟩ := clockGettime_after_clockSettime 100000000 (by decide) (by decide)
  exact ⟨hset ⟨0, 0⟩ ⟨1600000000, 10⟩ 99999999 100000002 (by decide) (by decide) rfl (by decide),
    hmono 99999999 100000002 (by decide) (by decide), hfloor 100000002 (by decide)⟩

end LiteosM.Posix
