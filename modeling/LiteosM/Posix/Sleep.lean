import LiteosM.Kernel.Boot
import LiteosM.Posix.TimeSpec

/-!
# Sleeping

`nanosleep` and `usleep`, on top of `LOS_TaskDelay`.
-/

namespace LiteosM.Posix

open Kernel

def uint32Max : Nat := 0xFFFFFFFF
def osSysNsPerUs : Nat := 1000

inductive SleepError
  | einval
  | eperm
deriving DecidableEq

/-- What a call returns, and for how many ticks it has delayed its caller. -/
inductive Sleep
  | fails (errno : SleepError)
  | delays (ticks : Nat)
deriving DecidableEq

def Sleep.ticks : Sleep → Option Nat
  | .fails _ => none
  | .delays ticks => some ticks

/-- A yield never fails, so that `LOS_ERRNO_TSK_YIELD_NOT_ENOUGH_TASK` does not come back. The
last component is what `rmtp` points to, if it is not null. -/
def nanosleep (tickPerSecond : Nat) (k : KernelState) (intActive : Bool) (rqtp rmtp : Option Timespec) :
    KernelState × Sleep × Option Timespec :=
  let nsPerTick := osSysNsPerSecond / tickPerSecond
  match rqtp with
  | none => (k, .fails .einval, rmtp)
  | some tp =>
    if !validTimeSpec (some tp) then (k, .fails .einval, rmtp)
    else
      let nseconds := u64 (u64 tp.tvSec * osSysNsPerSecond + tp.tvNsec)
      let tick := u64 ((nseconds : Int) + nsPerTick - 1) / nsPerTick
      if uint32Max ≤ tick then (k, .fails .einval, rmtp)
      else
        -- the first tick is not a full one
        let ticks := if tick = 0 then 0 else tick + 1
        let r := losTaskDelay k intActive ticks
        if r.2 = .losOk then (r.1, .delays ticks, rmtp.map fun _ => ⟨0, 0⟩)
        else (r.1, .fails .eperm, rmtp)

/-- The product has the type of `useconds`. -/
def usleep (tickPerSecond : Nat) (k : KernelState) (intActive : Bool) (useconds : Nat) :
    KernelState × Sleep × Option Timespec :=
  let nanoseconds := useconds * osSysNsPerUs % 4294967296
  nanosleep tickPerSecond k intActive
    (some ⟨(nanoseconds / osSysNsPerSecond : Nat), (nanoseconds % osSysNsPerSecond : Nat)⟩) none

/-- The call fails at once, or it delays its caller for at least `ns` nanoseconds. -/
def NotShort (tickPerSecond ns : Nat) (k : KernelState) (intActive : Bool)
    (r : KernelState × Sleep × Option Timespec) : Prop :=
  match r.2.1 with
  | .fails _ => r.1 = k
  | .delays ticks =>
    losTaskDelay k intActive ticks = (r.1, .losOk) ∧ ns * tickPerSecond ≤ ticks * osSysNsPerSecond

/-- `LOS_TaskDelay` is called from an interrupt, or with the scheduler locked. -/
def DelayRefused (k : KernelState) (intActive : Bool) : Prop := intActive = true ∨ k.gLosTaskLock ≠ 0

def usTimespec (useconds : Nat) : Timespec :=
  ⟨(useconds / 1000000 : Nat), (useconds % 1000000 * 1000 : Nat)⟩

/-- A call of `usleep` is not short, and it comes to what `nanosleep` comes to. -/
def UsleepRight (tickPerSecond useconds : Nat) (k : KernelState) (intActive : Bool) : Prop :=
  NotShort tickPerSecond (useconds * 1000) k intActive (usleep tickPerSecond k intActive useconds) ∧
    (usleep tickPerSecond k intActive useconds).1 =
      (nanosleep tickPerSecond k intActive (some (usTimespec useconds)) none).1 ∧
    (usleep tickPerSecond k intActive useconds).2.1.ticks =
      (nanosleep tickPerSecond k intActive (some (usTimespec useconds)) none).2.1.ticks

/-- The rounded ticks of so many nanoseconds, as `nanosleep` computes them. -/
def roundedTick (tickPerSecond ns : Nat) : Nat :=
  (ns + osSysNsPerSecond / tickPerSecond - 1) % 2 ^ 64 / (osSysNsPerSecond / tickPerSecond)

def delayTicks (tickPerSecond ns : Nat) : Nat :=
  if roundedTick tickPerSecond ns = 0 then 0 else roundedTick tickPerSecond ns + 1

/-- The rounding does not run over, or what is left of it is still too long for a delay. -/
def SleepFits (tickPerSecond ns : Nat) : Prop :=
  ns + osSysNsPerSecond / tickPerSecond - 1 < 2 ^ 64 ∨ uint32Max ≤ roundedTick tickPerSecond ns

section

variable {tickPerSecond ns : Nat} {k : KernelState} {intActive : Bool} {tp : Timespec}
  {rmtp : Option Timespec}

theorem losTaskDelay_refused (h : DelayRefused k intActive) (ticks : Nat) :
    (losTaskDelay k intActive ticks).1 = k ∧ (losTaskDelay k intActive ticks).2 ≠ .losOk := by
  unfold losTaskDelay
  cases intActive with
  | true => exact ⟨rfl, nofun⟩
  | false =>
    have hlock : k.gLosTaskLock ≠ 0 := h.resolve_left Bool.false_ne_true
    rw [if_neg Bool.false_ne_true, if_pos hlock]
    exact ⟨rfl, nofun⟩

theorem losTaskDelay_accepted (h : ¬DelayRefused k intActive) (ticks : Nat) :
    (losTaskDelay k intActive ticks).2 = .losOk := by
  obtain ⟨hint, hlock⟩ := not_or.mp h
  unfold losTaskDelay losTaskYield
  rw [if_neg hint, if_neg hlock]
  split <;> rfl

/-- What a tick is taken for is at most its length, and not by a nanosecond less. -/
theorem nsPerTick_bounds (h1 : 1 ≤ tickPerSecond) (h2 : tickPerSecond ≤ 1000000000) :
    1 ≤ osSysNsPerSecond / tickPerSecond ∧ osSysNsPerSecond / tickPerSecond ≤ 1000000000 ∧
      osSysNsPerSecond / tickPerSecond * tickPerSecond ≤ 1000000000 ∧
      1000000000 < (osSysNsPerSecond / tickPerSecond + 1) * tickPerSecond := by
  unfold osSysNsPerSecond
  refine ⟨(Nat.one_le_div_iff h1).mpr h2, Nat.div_le_self _ _, Nat.div_mul_le_self _ _, ?_⟩
  rw [Nat.mul_comm]
  exact Nat.lt_mul_div_succ _ h1

theorem u64_rounding (hv : validTimeSpec (some tp) = true) {nsPerTick : Nat} (h : 1 ≤ nsPerTick) :
    u64 ((u64 (u64 tp.tvSec * osSysNsPerSecond + tp.tvNsec) : Int) + nsPerTick - 1) =
      (tp.ns + nsPerTick - 1) % 2 ^ 64 := by
  obtain ⟨sec, nsec, rfl, _⟩ := validTimeSpec_iff.mp hv
  rw [Timespec.ns_mk]
  unfold u64 osSysNsPerSecond
  dsimp only
  omega

theorem nanosleep_valid (h1 : 1 ≤ tickPerSecond) (h2 : tickPerSecond ≤ 1000000000)
    (hv : validTimeSpec (some tp) = true) :
    nanosleep tickPerSecond k intActive (some tp) rmtp =
      if uint32Max ≤ roundedTick tickPerSecond tp.ns then (k, .fails .einval, rmtp)
      else if (losTaskDelay k intActive (delayTicks tickPerSecond tp.ns)).2 = .losOk then
        ((losTaskDelay k intActive (delayTicks tickPerSecond tp.ns)).1,
          .delays (delayTicks tickPerSecond tp.ns), rmtp.map fun _ => ⟨0, 0⟩)
      else ((losTaskDelay k intActive (delayTicks tickPerSecond tp.ns)).1, .fails .eperm, rmtp) := by
  obtain ⟨hN, _, _, _⟩ := nsPerTick_bounds h1 h2
  unfold nanosleep delayTicks roundedTick
  simp only [hv, u64_rounding hv hN, Bool.not_true, Bool.false_eq_true, if_false]

theorem nanosleep_notShort (h1 : 1 ≤ tickPerSecond) (h2 : tickPerSecond ≤ 1000000000)
    (hv : validTimeSpec (some tp) = true) :
    NotShort tickPerSecond ns k intActive (nanosleep tickPerSecond k intActive (some tp) rmtp) ↔
      DelayRefused k intActive ∨ uint32Max ≤ roundedTick tickPerSecond tp.ns ∨
        ns * tickPerSecond ≤ delayTicks tickPerSecond tp.ns * osSysNsPerSecond := by
  rw [nanosleep_valid h1 h2 hv]
  by_cases hlong : uint32Max ≤ roundedTick tickPerSecond tp.ns
  · rw [if_pos hlong]
    exact iff_of_true rfl (.inr (.inl hlong))
  · rw [if_neg hlong]
    by_cases href : DelayRefused k intActive
    · obtain ⟨hsame, hret⟩ := losTaskDelay_refused href (delayTicks tickPerSecond tp.ns)
      rw [if_neg hret]
      exact iff_of_true hsame (.inl href)
    · have hret := losTaskDelay_accepted href (delayTicks tickPerSecond tp.ns)
      rw [if_pos hret, or_iff_right href, or_iff_right hlong]
      constructor
      · intro h
        exact h.2
      · intro h
        exact ⟨Prod.ext rfl hret, h⟩

theorem delayTicks_enough (h1 : 1 ≤ tickPerSecond) (h2 : tickPerSecond ≤ 1000000000)
    (h : ns + osSysNsPerSecond / tickPerSecond - 1 < 2 ^ 64) :
    ns * tickPerSecond ≤ delayTicks tickPerSecond ns * osSysNsPerSecond := by
  obtain ⟨hN, _, hle, _⟩ := nsPerTick_bounds h1 h2
  have hround : ns ≤ roundedTick tickPerSecond ns * (osSysNsPerSecond / tickPerSecond) := by
    unfold roundedTick
    rw [Nat.mod_eq_of_lt h]
    have hdiv := Nat.div_add_mod (ns + osSysNsPerSecond / tickPerSecond - 1) (osSysNsPerSecond / tickPerSecond)
    have hmod := Nat.mod_lt (ns + osSysNsPerSecond / tickPerSecond - 1) hN
    rw [Nat.mul_comm] at hdiv
    omega
  have hticks : roundedTick tickPerSecond ns ≤ delayTicks tickPerSecond ns := by
    unfold delayTicks
    split <;> omega
  calc ns * tickPerSecond
      ≤ roundedTick tickPerSecond ns * (osSysNsPerSecond / tickPerSecond) * tickPerSecond :=
        Nat.mul_le_mul_right _ hround
    _ = roundedTick tickPerSecond ns * (osSysNsPerSecond / tickPerSecond * tickPerSecond) :=
        Nat.mul_assoc _ _ _
    _ ≤ delayTicks tickPerSecond ns * osSysNsPerSecond := Nat.mul_le_mul hticks hle

theorem delayTicks_le (h : roundedTick tickPerSecond ns < uint32Max) :
    delayTicks tickPerSecond ns ≤ uint32Max := by
  unfold delayTicks
  split <;> omega

theorem delayTicks_short (h1 : 1 ≤ tickPerSecond) (h2 : tickPerSecond ≤ 1000000000)
    (hwrap : 2 ^ 64 ≤ ns + osSysNsPerSecond / tickPerSecond - 1)
    (htick : roundedTick tickPerSecond ns < uint32Max) :
    delayTicks tickPerSecond ns * osSysNsPerSecond < ns * tickPerSecond := by
  obtain ⟨_, hN, _, _⟩ := nsPerTick_bounds h1 h2
  have hle := Nat.mul_le_mul_right osSysNsPerSecond (delayTicks_le htick)
  have hns := Nat.le_mul_of_pos_right ns h1
  unfold uint32Max osSysNsPerSecond at *
  omega

theorem nanosleep_iff (h1 : 1 ≤ tickPerSecond) (h2 : tickPerSecond ≤ 1000000000)
    (hv : validTimeSpec (some tp) = true) :
    NotShort tickPerSecond tp.ns k intActive (nanosleep tickPerSecond k intActive (some tp) rmtp) ↔
      DelayRefused k intActive ∨ SleepFits tickPerSecond tp.ns := by
  rw [nanosleep_notShort h1 h2 hv]
  apply or_congr_right
  unfold SleepFits
  rw [or_comm]
  constructor
  · intro h
    rcases h with henough | hlong
    · by_cases hlong : uint32Max ≤ roundedTick tickPerSecond tp.ns
      · exact .inr hlong
      · refine .inl (Nat.not_le.mp fun hwrap => ?_)
        exact Nat.not_le.mpr (delayTicks_short h1 h2 hwrap (Nat.not_le.mp hlong)) henough
    · exact .inr hlong
  · intro h
    rcases h with hfit | hlong
    · exact .inl (delayTicks_enough h1 h2 hfit)
    · exact .inr hlong

theorem nanosleep_refused (rmtp : Option Timespec) (h1 : 1 ≤ tickPerSecond) (h2 : tickPerSecond ≤ 1000000000)
    (hv : validTimeSpec (some tp) = true) (h : DelayRefused k intActive) :
    (nanosleep tickPerSecond k intActive (some tp) rmtp).1 = k ∧
      (nanosleep tickPerSecond k intActive (some tp) rmtp).2.1.ticks = none := by
  obtain ⟨hsame, hret⟩ := losTaskDelay_refused h (delayTicks tickPerSecond tp.ns)
  rw [nanosleep_valid h1 h2 hv, if_neg hret, hsame]
  split
  · exact ⟨rfl, rfl⟩
  · exact ⟨rfl, rfl⟩

theorem usleep_timespec (tickPerSecond : Nat) (k : KernelState) (intActive : Bool) (useconds : Nat) :
    ∃ tp, validTimeSpec (some tp) = true ∧ tp.ns = useconds * 1000 % 4294967296 ∧
      usleep tickPerSecond k intActive useconds =
        nanosleep tickPerSecond k intActive (some tp) none := by
  refine ⟨_, validTimeSpec_iff.mpr ⟨_, _, rfl, Nat.mod_lt _ (by decide)⟩, ?_, rfl⟩
  rw [Timespec.ns_mk]
  unfold osSysNsPerUs osSysNsPerSecond
  omega

theorem usTimespec_valid (useconds : Nat) :
    validTimeSpec (some (usTimespec useconds)) = true ∧ (usTimespec useconds).ns = useconds * 1000 := by
  refine ⟨validTimeSpec_iff.mpr ⟨_, _, rfl, by omega⟩, ?_⟩
  unfold usTimespec
  rw [Timespec.ns_mk]
  omega

theorem delayTicks_usleep_short (h1 : 1 ≤ tickPerSecond) (h2 : tickPerSecond ≤ 1000000000)
    {useconds : Nat} (hwrap : 4294967296 ≤ useconds * 1000) :
    roundedTick tickPerSecond (useconds * 1000 % 4294967296) < uint32Max ∧
      delayTicks tickPerSecond (useconds * 1000 % 4294967296) * osSysNsPerSecond <
        useconds * 1000 * tickPerSecond := by
  obtain ⟨hN, hN', _, hlong⟩ := nsPerTick_bounds h1 h2
  have hv : useconds * 1000 % 4294967296 ≤ 4294967288 := by omega
  have hback : useconds * 1000 % 4294967296 + 4294967296 ≤ useconds * 1000 := by omega
  have hticks : delayTicks tickPerSecond (useconds * 1000 % 4294967296) ≤
      roundedTick tickPerSecond (useconds * 1000 % 4294967296) + 1 := by
    unfold delayTicks
    split <;> omega
  have ht : roundedTick tickPerSecond (useconds * 1000 % 4294967296) =
      (useconds * 1000 % 4294967296 + osSysNsPerSecond / tickPerSecond - 1) /
        (osSysNsPerSecond / tickPerSecond) := by
    unfold roundedTick
    rw [Nat.mod_eq_of_lt (by omega)]
  generalize useconds * 1000 % 4294967296 = v at *
  generalize osSysNsPerSecond / tickPerSecond = N at *
  generalize roundedTick tickPerSecond v = t at *
  have hfloor : t * N ≤ v + N - 1 := by
    rw [ht]
    exact Nat.div_mul_le_self _ _
  -- a tick of one nanosecond, of few, or of many
  have hbound : t < uint32Max ∧ (t + 1) * (N + 1) ≤ v + 4294967296 := by
    have hexp : (t + 1) * (N + 1) = t * N + t + N + 1 := by ring
    rw [hexp]
    unfold uint32Max
    obtain rfl | hfew | hmany : N = 1 ∨ (2 ≤ N ∧ N < 10) ∨ 10 ≤ N := by omega
    · omega
    · have := Nat.mul_le_mul_left t hfew.1
      omega
    · have := Nat.mul_le_mul_left t hmany
      omega
  refine ⟨hbound.1, ?_⟩
  calc delayTicks tickPerSecond v * osSysNsPerSecond
      ≤ (t + 1) * 1000000000 := Nat.mul_le_mul_right _ hticks
    _ < (t + 1) * ((N + 1) * tickPerSecond) := Nat.mul_lt_mul_of_pos_left hlong (Nat.succ_pos t)
    _ = (t + 1) * (N + 1) * tickPerSecond := (Nat.mul_assoc _ _ _).symm
    _ ≤ (v + 4294967296) * tickPerSecond := Nat.mul_le_mul_right _ hbound.2
    _ ≤ useconds * 1000 * tickPerSecond := Nat.mul_le_mul_right _ hback

theorem usleep_iff (h1 : 1 ≤ tickPerSecond) (h2 : tickPerSecond ≤ 1000000000) {useconds : Nat} :
    UsleepRight tickPerSecond useconds k intActive ↔
      DelayRefused k intActive ∨ useconds * 1000 < 4294967296 := by
  obtain ⟨tp, hv, hns, heq⟩ := usleep_timespec tickPerSecond k intActive useconds
  obtain ⟨hv', hns'⟩ := usTimespec_valid useconds
  unfold UsleepRight
  rw [heq, nanosleep_notShort h1 h2 hv, hns]
  constructor
  · intro h
    refine h.1.imp_right fun hlong => Nat.not_le.mp fun hwrap => ?_
    obtain ⟨htick, hshort⟩ := delayTicks_usleep_short h1 h2 hwrap
    omega
  · intro h
    rcases h with href | hfit
    · obtain ⟨hk, ht⟩ := nanosleep_refused none h1 h2 hv href
      obtain ⟨hk', ht'⟩ := nanosleep_refused none h1 h2 hv' href
      rw [hk, ht, hk', ht']
      exact ⟨.inl href, rfl, rfl⟩
    · have hsame := Nat.mod_eq_of_lt hfit
      rw [nanosleep_valid h1 h2 hv, nanosleep_valid h1 h2 hv', hns, hns', hsame]
      have hN := (nsPerTick_bounds h1 h2).2.1
      exact ⟨.inr (.inr (delayTicks_enough h1 h2 (by omega))), rfl, rfl⟩

end

/-- `nanosleep` is never short but where its 64 bits run over, and `usleep` is exactly as far as
its product fits into 32 bits. -/
theorem nanosleep_usleep_notShort (tickPerSecond : Nat) (h1 : 1 ≤ tickPerSecond)
    (h2 : tickPerSecond ≤ 1000000000) (k : KernelState) (intActive : Bool) :
    (∀ tp rmtp, validTimeSpec (some tp) = true →
      (NotShort tickPerSecond tp.ns k intActive
          (nanosleep tickPerSecond k intActive (some tp) rmtp) ↔
        DelayRefused k intActive ∨ SleepFits tickPerSecond tp.ns)) ∧
    ∀ useconds, UsleepRight tickPerSecond useconds k intActive ↔
      DelayRefused k intActive ∨ useconds * 1000 < 4294967296 :=
  ⟨fun _ _ hv => nanosleep_iff h1 h2 hv, fun _ => usleep_iff h1 h2⟩

theorem nanosleep_usleep_notShort_small :
    NotShort 1000 (Timespec.ns ⟨2, 500000000⟩) smallKernel false
        (nanosleep 1000 smallKernel false (some ⟨2, 500000000⟩) none) ∧
      UsleepRight 1000 250000 smallKernel false := by
  obtain ⟨hnano, hu⟩ := nanosleep_usleep_notShort 1000 (by decide) (by decide) smallKernel false
  exact ⟨(hnano ⟨2, 500000000⟩ none rfl).mpr (.inr (.inl (by decide))), (hu 250000).mpr (.inr (by decide))⟩

/-- Five seconds come to 707 ticks of a millisecond. -/
theorem usleep_five_seconds :
    (usleep 1000 smallKernel false 5000000).2.1 = .delays 707 ∧
      ¬UsleepRight 1000 5000000 smallKernel false := by
  have href : ¬DelayRefused smallKernel false := by
    have hlock : smallKernel.gLosTaskLock = 0 := by decide +kernel
    rintro (h | h)
    · cases h
    · exact h hlock
  constructor
  · obtain ⟨tp, hv, hns, heq⟩ := usleep_timespec 1000 smallKernel false 5000000
    have hticks : delayTicks 1000 tp.ns = 707 := by
      rw [hns]
      decide
    have hround : ¬uint32Max ≤ roundedTick 1000 tp.ns := by
      rw [hns]
      decide
    rw [heq, nanosleep_valid (by decide) (by decide) hv, if_neg hround,
      if_pos (losTaskDelay_accepted href _), hticks]
  · intro h
    rcases (usleep_iff (by decide) (by decide)).mp h with hr | hfit
    · exact href hr
    · omega

end LiteosM.Posix
