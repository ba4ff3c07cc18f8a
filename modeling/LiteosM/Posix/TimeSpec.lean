import Mathlib.Algebra.Order.Floor.Div
import Mathlib.Tactic.Ring

/-!
# Timespecs and ticks

The two conversions of `time_internal.h`. `tickPerSecond` is `LOSCFG_BASE_CORE_TICK_PER_SECOND`.
-/

namespace LiteosM.Posix

def osSysNsPerSecond : Nat := 1000000000

/-- `LOS_WAIT_FOREVER` -/
def waitForever : Nat := 0xFFFFFFFF

/-- `struct timespec` -/
structure Timespec where
  tvSec : Int
  tvNsec : Int

def u64 (x : Int) : Nat := (x % 18446744073709551616).toNat

/-- `none` is the null pointer. -/
def validTimeSpec (tp : Option Timespec) : Bool :=
  match tp with
  | none => false
  | some tp => !(tp.tvNsec < 0 || osSysNsPerSecond ≤ tp.tvNsec || tp.tvSec < 0)

def osTimeSpec2Tick (tickPerSecond : Nat) (tp : Timespec) : Nat :=
  let ns := u64 (u64 tp.tvSec * osSysNsPerSecond + tp.tvNsec)
  let tick := u64 (ns * tickPerSecond + (osSysNsPerSecond - 1)) / osSysNsPerSecond
  if waitForever < tick then waitForever else tick

def osTick2TimeSpec (tickPerSecond tick : Nat) : Timespec :=
  let ns := u64 (tick * osSysNsPerSecond) / tickPerSecond
  ⟨(ns / osSysNsPerSecond : Nat), (ns % osSysNsPerSecond : Nat)⟩

def Timespec.ns (tp : Timespec) : Nat := (tp.tvSec * osSysNsPerSecond + tp.tvNsec).toNat

/-- The ticks that `ns` nanoseconds take, at most `LOS_WAIT_FOREVER`. -/
def ticksOf (tickPerSecond ns : Nat) : Nat :=
  min ((ns * tickPerSecond) ⌈/⌉ osSysNsPerSecond) waitForever

/-- The rounded product fits into 64 bits, or what is left of it is still too long a time. -/
def TickFits (tickPerSecond ns : Nat) : Prop :=
  ns * tickPerSecond + 999999999 < 2 ^ 64 ∨
    waitForever * osSysNsPerSecond ≤ (ns * tickPerSecond + 999999999) % 2 ^ 64

theorem u64_natCast (n : Nat) : u64 n = n % 2 ^ 64 := by
  unfold u64
  omega

section

variable {tickPerSecond ns : Nat} {tp : Timespec}

theorem ticksOf_eq (tickPerSecond ns : Nat) :
    ticksOf tickPerSecond ns = min ((ns * tickPerSecond + 999999999) / 1000000000) 4294967295 := by
  unfold ticksOf osSysNsPerSecond waitForever
  rw [Nat.ceilDiv_eq_add_pred_div, Nat.add_sub_assoc (by decide)]

theorem ticksOf_mono {ns' : Nat} (h : ns ≤ ns') :
    ticksOf tickPerSecond ns ≤ ticksOf tickPerSecond ns' := by
  have hmul := Nat.mul_le_mul_right tickPerSecond h
  rw [ticksOf_eq, ticksOf_eq]
  omega

theorem validTimeSpec_iff :
    validTimeSpec (some tp) = true ↔ ∃ sec nsec : Nat, tp = ⟨sec, nsec⟩ ∧ nsec < 1000000000 := by
  obtain ⟨tvSec, tvNsec⟩ := tp
  have hvalid : validTimeSpec (some ⟨tvSec, tvNsec⟩) = true ↔
      0 ≤ tvNsec ∧ tvNsec < 1000000000 ∧ 0 ≤ tvSec := by
    simp only [validTimeSpec, osSysNsPerSecond, Bool.not_eq_true', Bool.or_eq_false_iff,
      decide_eq_false_iff_not, not_lt]
    constructor
    · intro h
      exact ⟨h.1.1, Int.not_le.mp (of_decide_eq_false h.1.2), h.2⟩
    · intro h
      exact ⟨⟨h.1, decide_eq_false (Int.not_le.mpr h.2.1)⟩, h.2.2⟩
  rw [hvalid]
  constructor
  · intro h
    obtain ⟨h1, h2, h3⟩ := h
    refine ⟨tvSec.toNat, tvNsec.toNat, ?_, by omega⟩
    rw [Int.toNat_of_nonneg h3, Int.toNat_of_nonneg h1]
  · intro h
    obtain ⟨sec, nsec, heq, hlt⟩ := h
    cases heq
    omega

theorem Timespec.ns_mk (sec nsec : Nat) : Timespec.ns ⟨sec, nsec⟩ = sec * 1000000000 + nsec := by
  unfold Timespec.ns osSysNsPerSecond
  dsimp only
  omega

theorem osTimeSpec2Tick_eq (hv : validTimeSpec (some tp) = true) :
    osTimeSpec2Tick tickPerSecond tp =
      min ((tp.ns * tickPerSecond + 999999999) % 2 ^ 64 / 1000000000) 4294967295 := by
  obtain ⟨sec, nsec, rfl, _⟩ := validTimeSpec_iff.mp hv
  have hin : u64 ((u64 (sec : Int) : Int) * (osSysNsPerSecond : Nat) + (nsec : Int)) =
      (sec * 1000000000 + nsec) % 2 ^ 64 := by
    rw [u64_natCast, show ((sec % 2 ^ 64 : Nat) : Int) * (osSysNsPerSecond : Nat) + (nsec : Int) =
      ((sec % 2 ^ 64 * 1000000000 + nsec : Nat) : Int) by unfold osSysNsPerSecond; push_cast; rfl,
      u64_natCast]
    omega
  have hout : ∀ n : Nat, u64 ((n % 2 ^ 64 : Nat) * (tickPerSecond : Int) + ((osSysNsPerSecond : Nat) - 1)) =
      (n * tickPerSecond + 999999999) % 2 ^ 64 := by
    intro n
    rw [show ((n % 2 ^ 64 : Nat) : Int) * (tickPerSecond : Int) + ((osSysNsPerSecond : Nat) - 1) =
      ((n % 2 ^ 64 * tickPerSecond + 999999999 : Nat) : Int) by
        unfold osSysNsPerSecond; push_cast; ring, u64_natCast, Nat.add_mod, Nat.mod_mul_mod,
      ← Nat.add_mod]
  unfold osTimeSpec2Tick
  rw [Timespec.ns_mk, hin]
  dsimp only
  rw [hout]
  unfold waitForever osSysNsPerSecond
  split <;> omega

theorem osTimeSpec2Tick_iff (hv : validTimeSpec (some tp) = true) :
    osTimeSpec2Tick tickPerSecond tp = ticksOf tickPerSecond tp.ns ↔ TickFits tickPerSecond tp.ns := by
  rw [osTimeSpec2Tick_eq hv, ticksOf_eq]
  unfold TickFits waitForever osSysNsPerSecond
  generalize tp.ns * tickPerSecond = p
  omega

theorem osTimeSpec2Tick_osTick2TimeSpec (h1 : 1 ≤ tickPerSecond) (h2 : tickPerSecond ≤ 1000000000)
    {n : Nat} (hn : n < 2 ^ 32) :
    osTimeSpec2Tick tickPerSecond (osTick2TimeSpec tickPerSecond n) = n := by
  have hns : u64 ((n : Int) * (osSysNsPerSecond : Nat)) = n * 1000000000 := by
    rw [show (n : Int) * (osSysNsPerSecond : Nat) = ((n * 1000000000 : Nat) : Int) by
      unfold osSysNsPerSecond; push_cast; rfl, u64_natCast]
    omega
  have htp : osTick2TimeSpec tickPerSecond n =
      ⟨(n * 1000000000 / tickPerSecond / 1000000000 : Nat),
        (n * 1000000000 / tickPerSecond % 1000000000 : Nat)⟩ := by
    unfold osTick2TimeSpec
    rw [hns]
    rfl
  have hdiv := Nat.div_add_mod (n * 1000000000) tickPerSecond
  have hmod := Nat.mod_lt (n * 1000000000) (show 0 < tickPerSecond by omega)
  generalize n * 1000000000 / tickPerSecond = q at htp hdiv
  have hv : validTimeSpec (some (osTick2TimeSpec tickPerSecond n)) = true :=
    validTimeSpec_iff.mpr ⟨_, _, htp, Nat.mod_lt _ (by omega)⟩
  have hq : (osTick2TimeSpec tickPerSecond n).ns = q := by
    rw [htp, Timespec.ns_mk]
    omega
  rw [osTimeSpec2Tick_eq hv, hq]
  rw [Nat.mul_comm] at hdiv
  generalize q * tickPerSecond = p at hdiv
  have hround : (p + 999999999) / 1000000000 = n := by omega
  have hlt : p + 999999999 < 2 ^ 64 := by omega
  rw [Nat.mod_eq_of_lt hlt, hround]
  omega

end

/-- As long as the product does not run over, the conversion is the rounded time, clamped. -/
theorem osTimeSpec2Tick_saturates (tickPerSecond : Nat) (h1 : 1 ≤ tickPerSecond)
    (h2 : tickPerSecond ≤ 1000000000) :
    (∀ tp, validTimeSpec (some tp) = true →
      (osTimeSpec2Tick tickPerSecond tp = ticksOf tickPerSecond tp.ns ↔ TickFits tickPerSecond tp.ns)) ∧
    (∀ a b, validTimeSpec (some a) = true → validTimeSpec (some b) = true → a.ns ≤ b.ns →
      TickFits tickPerSecond a.ns → TickFits tickPerSecond b.ns →
      osTimeSpec2Tick tickPerSecond a ≤ osTimeSpec2Tick tickPerSecond b) ∧
    ∀ n < 2 ^ 32, osTimeSpec2Tick tickPerSecond (osTick2TimeSpec tickPerSecond n) = n := by
  refine ⟨fun tp hv => osTimeSpec2Tick_iff hv, ?_, fun n hn => osTimeSpec2Tick_osTick2TimeSpec h1 h2 hn⟩
  intro a b ha hb hab hfa hfb
  rw [(osTimeSpec2Tick_iff ha).mpr hfa, (osTimeSpec2Tick_iff hb).mpr hfb]
  exact ticksOf_mono hab

/-- Two and a half seconds at 1000 Hz. -/
theorem osTimeSpec2Tick_saturates_seconds :
    osTimeSpec2Tick 1000 ⟨2, 500000000⟩ = ticksOf 1000 (Timespec.ns ⟨2, 500000000⟩) ∧
      osTimeSpec2Tick 1000 (osTick2TimeSpec 1000 2500) = 2500 := by
  obtain ⟨h, _, hround⟩ := osTimeSpec2Tick_saturates 1000 (by decide) (by decide)
  exact ⟨(h ⟨2, 500000000⟩ rfl).mpr (.inl (by decide)), hround 2500 (by decide)⟩

/-- 213 days at 1000 Hz come out as less than a second. -/
theorem osTimeSpec2Tick_wraps :
    validTimeSpec (some ⟨18446745, 0⟩) = true ∧ osTimeSpec2Tick 1000 ⟨18446745, 0⟩ = 927 ∧
      ticksOf 1000 (Timespec.ns ⟨18446745, 0⟩) = waitForever ∧
      osTimeSpec2Tick 1000 ⟨18446744, 0⟩ = waitForever := by
  refine ⟨rfl, by decide, ?_, by decide⟩
  rw [ticksOf_eq]
  decide

end LiteosM.Posix
