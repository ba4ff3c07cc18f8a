import LiteosM.Lib.TruncDiv
import LiteosM.Posix.TimeSpec
import Mathlib.Tactic.Linarith

/-!
# Absolute deadlines

The five calls that wait until a point of `CLOCK_REALTIME`, on an object that is not
available, from their own checks on to the timeout that the kernel is given.
-/

namespace LiteosM.Posix

open Lib.TruncDiv

def osSysNsPerMsecond : Nat := 1000000

inductive WaitError
  | enoerr
  | einval
  | etimedout
  | ebusy
  | eagain
deriving DecidableEq

/-- What a call comes to. -/
inductive TimedWait
  /-- It returns at once. -/
  | fails (err : WaitError)
  /-- Its caller waits for at most so many ticks. -/
  | waits (ticks : Nat)
deriving DecidableEq

/-- The value of an expression of type `long long`, whose overflow is undefined. -/
def i64 (x : Int) : Option Int :=
  if -9223372036854775808 ≤ x ∧ x < 9223372036854775808 then some x else none

/-- The pend of the kernel. Without a timeout it fails, with what `err` is made of. -/
def pend (err : WaitError) (timeout : Nat) : TimedWait :=
  if timeout = 0 then .fails err else .waits timeout

/-- `(a.tv_sec - b.tv_sec) * OS_SYS_NS_PER_SECOND + (a.tv_nsec - b.tv_nsec)` -/
def nsBetween (a b : Timespec) : Option Int := do
  let sec ← i64 (a.tvSec - b.tvSec)
  let ns ← i64 (sec * osSysNsPerSecond)
  i64 (ns + (a.tvNsec - b.tvNsec))

def getTickTimeFromNow (tickPerSecond : Nat) (tsNow absTimeSpec : Timespec) : Option Int := do
  let ns ← nsBetween absTimeSpec tsNow
  let tick ← i64 (ns * tickPerSecond)
  let tick ← i64 (tick + (osSysNsPerSecond - 1))
  some (tick.tdiv osSysNsPerSecond)

def semTimedwait (tickPerSecond : Nat) (tsNow timeout : Timespec) : Option TimedWait :=
  if !validTimeSpec (some timeout) then some (.fails .einval)
  else do
    let tickCnt ← getTickTimeFromNow tickPerSecond tsNow timeout
    if tickCnt < 0 then some (.fails .etimedout)
    else
      let tickCnt : Int := if waitForever < tickCnt then waitForever else tickCnt
      some (pend .einval (tickCnt % 4294967296).toNat)

def pthreadMutexTimedlock (curTime absTimeout : Timespec) : Option TimedWait :=
  if absTimeout.tvNsec < 0 ∨ osSysNsPerSecond ≤ absTimeout.tvNsec then some (.fails .einval)
  else do
    let timeoutNs ← nsBetween absTimeout curTime
    let timeoutNs := u64 timeoutNs
    if timeoutNs = 0 then some (.fails .etimedout)
    else
      let timeout := u64 (timeoutNs + (osSysNsPerMsecond - 1)) / osSysNsPerMsecond
      some (pend .ebusy (timeout % 4294967296))

/-- `none` stands for `errno = EINVAL` and the result `-1`. -/
def convertTimeout (tickPerSecond : Nat) (nonblock : Bool) (absTimeout : Option Timespec) : Option Nat :=
  if nonblock then some 0
  else
    match absTimeout with
    | none => some waitForever
    | some absTimeout =>
      if !validTimeSpec (some absTimeout) then none
      else some (osTimeSpec2Tick tickPerSecond absTimeout)

def mqTimedsend (tickPerSecond : Nat) (nonblock : Bool) (absTimeout : Option Timespec) : TimedWait :=
  match convertTimeout tickPerSecond nonblock absTimeout with
  | none => .fails .einval
  | some absTicks => pend .eagain absTicks

def mqTimedreceive (tickPerSecond : Nat) (nonblock : Bool) (absTimeout : Option Timespec) : TimedWait :=
  match convertTimeout tickPerSecond nonblock absTimeout with
  | none => .fails .einval
  | some absTicks => pend .eagain absTicks

/-- `LOS_EventRead` without a timeout returns 0, and `ProcessReturnVal` takes that for success. -/
def pthreadCondTimedwait (tickPerSecond : Nat) (absTime : Option Timespec) : TimedWait :=
  match absTime with
  | none => .fails .einval
  | some absTime =>
    if absTime.tvSec = 0 ∧ absTime.tvNsec = 0 then .fails .etimedout
    else if !validTimeSpec (some absTime) then .fails .einval
    else pend .enoerr (osTimeSpec2Tick tickPerSecond absTime)

inductive TimedCall
  | semTimedwait
  | pthreadMutexTimedlock
  | mqTimedsend
  | mqTimedreceive
  | pthreadCondTimedwait

/-- The descriptors of the message queues block. -/
def timedCall (tickPerSecond : Nat) (now deadline : Timespec) : TimedCall → Option TimedWait
  | .semTimedwait => semTimedwait tickPerSecond now deadline
  | .pthreadMutexTimedlock => pthreadMutexTimedlock now deadline
  | .mqTimedsend => some (mqTimedsend tickPerSecond false (some deadline))
  | .mqTimedreceive => some (mqTimedreceive tickPerSecond false (some deadline))
  | .pthreadCondTimedwait => some (pthreadCondTimedwait tickPerSecond (some deadline))

/-- What a call with an absolute deadline is to come to. -/
def deadlineWait (tickPerSecond : Nat) (now deadline : Timespec) : TimedWait :=
  if deadline.ns ≤ now.ns then .fails .etimedout
  else .waits (ticksOf tickPerSecond (deadline.ns - now.ns))

/-- The difference can be computed. -/
def DiffFits (now deadline : Timespec) : Prop :=
  -9223372036854775808 ≤ (deadline.tvSec - now.tvSec) * 1000000000 ∧
    (deadline.tvSec - now.tvSec) * 1000000000 < 9223372036854775808 ∧
    -9223372036854775808 ≤ (deadline.ns : Int) - now.ns ∧
    (deadline.ns : Int) - now.ns < 9223372036854775808

/-- Nothing overflows, and the deadline lies ahead or almost two ticks back. -/
def SemInTime (tickPerSecond : Nat) (now deadline : Timespec) : Prop :=
  DiffFits now deadline ∧
    -9223372036854775808 ≤ ((deadline.ns : Int) - now.ns) * tickPerSecond ∧
    ((deadline.ns : Int) - now.ns) * tickPerSecond + 999999999 < 9223372036854775808 ∧
    (now.ns < deadline.ns ∨ ((deadline.ns : Int) - now.ns) * tickPerSecond ≤ -1999999999)

/-- Modulo `modulus` the error `err` of a product stays within the tick that the
exact product is rounded up to. -/
def WithinTick (modulus exact : Nat) (err : Int) : Prop :=
  err % modulus + (exact + 999999999) % 1000000000 < 1000000000 ∨
    modulus ≤ err % modulus + (exact + 999999999) % 1000000000

/-- The product is that of fewer ticks than `LOS_WAIT_FOREVER`. -/
def BelowForever (exact : Nat) : Prop := exact ≤ 4294967294000000000

/-- Modulo `2 ^ 32` milliseconds the delay lies in the one behind 4294967294. -/
def LastMsecond (delay : Nat) : Prop :=
  4294967294000000 < delay % 4294967296000000 ∧ delay % 4294967296000000 ≤ 4294967295000000

/-- Modulo `2 ^ 64` the product is that of `LOS_WAIT_FOREVER` ticks or more, and can still be rounded up. -/
def WrapsForever (product : Nat) : Prop :=
  ¬BelowForever (product % 2 ^ 64) ∧ product % 2 ^ 64 < 2 ^ 64 - 999999999

/-- The deadline is now, or ahead. The error of a call that takes milliseconds for
ticks is the delay times `1000 - LOSCFG_BASE_CORE_TICK_PER_SECOND`. -/
def MutexInTime (tickPerSecond : Nat) (now deadline : Timespec) : Prop :=
  let delay := deadline.ns - now.ns
  DiffFits now deadline ∧ (deadline.ns = now.ns ∨ now.ns < deadline.ns ∧
    ((BelowForever (delay * tickPerSecond) ∧
        WithinTick (2 ^ 32 * 1000000000) (delay * tickPerSecond) (delay * (1000 - tickPerSecond))) ∨
      ¬BelowForever (delay * tickPerSecond) ∧ LastMsecond delay))

/-- The deadline lies ahead. The error of a call that does not subtract the clock is
the clock. -/
def QueueInTime (tickPerSecond : Nat) (now deadline : Timespec) : Prop :=
  let exact := (deadline.ns - now.ns) * tickPerSecond
  now.ns < deadline.ns ∧
    ((BelowForever exact ∧ WithinTick (2 ^ 64) exact (now.ns * tickPerSecond)) ∨
      ¬BelowForever exact ∧ WrapsForever (deadline.ns * tickPerSecond))

def InTime (tickPerSecond : Nat) (now deadline : Timespec) : TimedCall → Prop
  | .semTimedwait => SemInTime tickPerSecond now deadline
  | .pthreadMutexTimedlock => MutexInTime tickPerSecond now deadline
  | .mqTimedsend | .mqTimedreceive => QueueInTime tickPerSecond now deadline
  | .pthreadCondTimedwait => deadline.ns = 0 ∨ QueueInTime tickPerSecond now deadline

section

variable {tickPerSecond : Nat} {now deadline : Timespec}

theorem i64_eq_some {x y : Int} :
    i64 x = some y ↔ (-9223372036854775808 ≤ x ∧ x < 9223372036854775808) ∧ x = y := by
  unfold i64
  split <;> simp_all

theorem nsBetween_eq_some (hn : validTimeSpec (some now) = true)
    (hd : validTimeSpec (some deadline) = true) {d : Int} :
    nsBetween deadline now = some d ↔ DiffFits now deadline ∧ (deadline.ns : Int) - now.ns = d := by
  obtain ⟨s, n, rfl, hns⟩ := validTimeSpec_iff.mp hn
  obtain ⟨s', n', rfl, hns'⟩ := validTimeSpec_iff.mp hd
  unfold nsBetween DiffFits
  rw [Timespec.ns_mk, Timespec.ns_mk]
  simp only [Option.bind_eq_bind, Option.bind_eq_some_iff, i64_eq_some, osSysNsPerSecond]
  constructor
  · intro h
    obtain ⟨_, ⟨_, rfl⟩, _, ⟨_, rfl⟩, _, rfl⟩ := h
    omega
  · intro h
    obtain ⟨_, rfl⟩ := h
    exact ⟨_, ⟨by omega, rfl⟩, _, ⟨by omega, rfl⟩, by omega, by omega⟩

theorem getTickTimeFromNow_eq_some (hn : validTimeSpec (some now) = true)
    (hd : validTimeSpec (some deadline) = true) {tick : Int} :
    getTickTimeFromNow tickPerSecond now deadline = some tick ↔
      DiffFits now deadline ∧
      -9223372036854775808 ≤ ((deadline.ns : Int) - now.ns) * tickPerSecond ∧
      ((deadline.ns : Int) - now.ns) * tickPerSecond + 999999999 < 9223372036854775808 ∧
      (((deadline.ns : Int) - now.ns) * tickPerSecond + 999999999).tdiv 1000000000 = tick := by
  unfold getTickTimeFromNow
  simp only [Option.bind_eq_bind, Option.bind_eq_some_iff, i64_eq_some, osSysNsPerSecond,
    nsBetween_eq_some hn hd, Option.some.injEq]
  constructor
  · intro h
    obtain ⟨_, ⟨hfit, rfl⟩, _, ⟨hlow, rfl⟩, _, ⟨hhigh, rfl⟩, rfl⟩ := h
    exact ⟨hfit, hlow.1, hhigh.2, rfl⟩
  · intro h
    obtain ⟨hfit, hlow, hhigh, rfl⟩ := h
    exact ⟨_, ⟨hfit, rfl⟩, _, ⟨⟨hlow, by omega⟩, rfl⟩, _, ⟨⟨by omega, hhigh⟩, rfl⟩, rfl⟩

theorem ticksOf_pos (h1 : 1 ≤ tickPerSecond) {ns : Nat} (h : 0 < ns) : 0 < ticksOf tickPerSecond ns := by
  have hmul := Nat.mul_pos h h1
  rw [ticksOf_eq]
  omega

theorem WithinTick.zero (modulus exact : Nat) : WithinTick modulus exact 0 := by
  unfold WithinTick
  rw [Int.zero_emod]
  omega

theorem ticksOf_forever {ns : Nat} (h : ¬BelowForever (ns * tickPerSecond)) :
    ticksOf tickPerSecond ns = 4294967295 := by
  unfold BelowForever at h
  rw [ticksOf_eq]
  omega

/-- Milliseconds for ticks, which the kernel takes modulo `2 ^ 32`. -/
theorem millis_ticks_iff (delay : Nat) :
    (delay + 999999) / 1000000 % 2 ^ 32 = ticksOf tickPerSecond delay ↔
      (BelowForever (delay * tickPerSecond) ∧
        WithinTick (2 ^ 32 * 1000000000) (delay * tickPerSecond) (delay * (1000 - tickPerSecond))) ∨
      ¬BelowForever (delay * tickPerSecond) ∧ LastMsecond delay := by
  by_cases hb : BelowForever (delay * tickPerSecond)
  · simp only [hb, true_and, not_true, false_and, or_false]
    rw [ticksOf_eq, Int.mul_sub, ← Int.natCast_mul]
    generalize delay * tickPerSecond = exact at hb
    unfold BelowForever at hb
    unfold WithinTick
    omega
  · rw [ticksOf_forever hb]
    simp only [hb, false_and, not_false_eq_true, true_and, false_or]
    unfold LastMsecond
    omega

/-- The time from the epoch on, the product cut to 64 bits. -/
theorem epoch_ticks_iff (tickPerSecond clock delay : Nat) :
    min (((clock + delay) * tickPerSecond + 999999999) % 2 ^ 64 / 1000000000) 4294967295 =
        ticksOf tickPerSecond delay ↔
      (BelowForever (delay * tickPerSecond) ∧
        WithinTick (2 ^ 64) (delay * tickPerSecond) (clock * tickPerSecond)) ∨
      ¬BelowForever (delay * tickPerSecond) ∧ WrapsForever ((clock + delay) * tickPerSecond) := by
  by_cases hb : BelowForever (delay * tickPerSecond)
  · simp only [hb, true_and, not_true, false_and, or_false]
    rw [ticksOf_eq, ← Int.natCast_mul, Nat.add_mul]
    generalize delay * tickPerSecond = exact at hb
    generalize clock * tickPerSecond = err
    unfold BelowForever at hb
    unfold WithinTick
    omega
  · rw [ticksOf_forever hb]
    simp only [hb, false_and, not_false_eq_true, true_and, false_or]
    unfold WrapsForever BelowForever
    omega

theorem deadlineWait_passed (h : deadline.ns ≤ now.ns) :
    deadlineWait tickPerSecond now deadline = .fails .etimedout := if_pos h

theorem deadlineWait_ahead (h : now.ns < deadline.ns) :
    deadlineWait tickPerSecond now deadline = .waits (ticksOf tickPerSecond (deadline.ns - now.ns)) :=
  if_neg (Nat.not_le.mpr h)

theorem pend_iff (h1 : 1 ≤ tickPerSecond) {err : WaitError} (herr : err ≠ .etimedout) {timeout : Nat} :
    pend err timeout = deadlineWait tickPerSecond now deadline ↔
      now.ns < deadline.ns ∧ timeout = ticksOf tickPerSecond (deadline.ns - now.ns) := by
  unfold pend
  by_cases hlt : now.ns < deadline.ns
  · have hpos := ticksOf_pos h1 (Nat.sub_pos_of_lt hlt)
    rw [deadlineWait_ahead hlt]
    split
    · simp only [reduceCtorEq, hlt, true_and, false_iff]
      omega
    · simp [hlt]
  · rw [deadlineWait_passed (Nat.not_lt.mp hlt)]
    split
    · simp [herr, hlt]
    · simp [hlt]

theorem mul_ahead (h1 : 1 ≤ tickPerSecond) (h : now.ns < deadline.ns) :
    ((deadline.ns : Int) - now.ns) * tickPerSecond =
      ((deadline.ns - now.ns) * tickPerSecond : Nat) ∧
      0 < (deadline.ns - now.ns) * tickPerSecond := by
  refine ⟨?_, Nat.mul_pos (Nat.sub_pos_of_lt h) h1⟩
  rw [← Int.ofNat_sub (Nat.le_of_lt h), Int.natCast_mul]

theorem semTimedwait_iff (h1 : 1 ≤ tickPerSecond) (hn : validTimeSpec (some now) = true)
    (hd : validTimeSpec (some deadline) = true) :
    semTimedwait tickPerSecond now deadline = some (deadlineWait tickPerSecond now deadline) ↔
      SemInTime tickPerSecond now deadline := by
  unfold semTimedwait SemInTime
  rw [hd]
  simp only [Bool.not_true, Bool.false_eq_true, if_false, Option.bind_eq_bind,
    Option.bind_eq_some_iff, getTickTimeFromNow_eq_some hn hd]
  have hsign := tdiv_lt_zero_iff (((deadline.ns : Int) - now.ns) * tickPerSecond + 999999999)
    (show (0 : Int) < 1000000000 by decide)
  constructor
  · intro h
    obtain ⟨tick, ⟨hfit, hlow, hhigh, rfl⟩, hret⟩ := h
    refine ⟨hfit, hlow, hhigh, ?_⟩
    by_contra hnot
    rw [not_or] at hnot
    have hge := (not_congr hsign).mpr (by omega)
    rw [if_neg hge] at hret
    exact hnot.1 ((pend_iff h1 (by decide)).mp (Option.some.inj hret)).1
  · intro h
    obtain ⟨hfit, hlow, hhigh, hwhen⟩ := h
    refine ⟨_, ⟨hfit, hlow, hhigh, rfl⟩, ?_⟩
    by_cases hlt : now.ns < deadline.ns
    · obtain ⟨heq, hpos⟩ := mul_ahead h1 hlt
      have hge := (not_congr hsign).mpr (by omega)
      have htick : (((deadline.ns : Int) - now.ns) * tickPerSecond + 999999999).tdiv 1000000000 =
          ((((deadline.ns - now.ns) * tickPerSecond + 999999999) / 1000000000 : Nat) : Int) := by
        rw [tdiv_of_nonneg (by omega), heq]
        omega
      rw [if_neg hge, htick, (pend_iff h1 (by decide)).mpr ⟨hlt, ?_⟩]
      rw [ticksOf_eq]
      unfold waitForever
      split_ifs <;> omega
    · have hpast := hwhen.resolve_left hlt
      rw [if_pos (hsign.mpr (by omega)), deadlineWait_passed (Nat.not_lt.mp hlt)]

theorem pthreadMutexTimedlock_iff (h1 : 1 ≤ tickPerSecond) (hn : validTimeSpec (some now) = true)
    (hd : validTimeSpec (some deadline) = true) :
    pthreadMutexTimedlock now deadline = some (deadlineWait tickPerSecond now deadline) ↔
      MutexInTime tickPerSecond now deadline := by
  have hnsec : ¬(deadline.tvNsec < 0 ∨ (osSysNsPerSecond : Int) ≤ deadline.tvNsec) := by
    obtain ⟨s, n, rfl, hlt⟩ := validTimeSpec_iff.mp hd
    show ¬((n : Int) < 0 ∨ ((1000000000 : Nat) : Int) ≤ n)
    omega
  unfold pthreadMutexTimedlock MutexInTime
  rw [if_neg hnsec]
  simp only [Option.bind_eq_bind, Option.bind_eq_some_iff, nsBetween_eq_some hn hd]
  have hms : ∀ d : Nat, d < 9223372036854775808 →
      u64 ((u64 (d : Int) : Int) + ((osSysNsPerMsecond : Nat) - 1)) / osSysNsPerMsecond =
        (d + 999999) / 1000000 := by
    intro d hd
    rw [u64_natCast, Nat.mod_eq_of_lt (by omega),
      show (d : Int) + ((osSysNsPerMsecond : Nat) - 1) = ((d + 999999 : Nat) : Int) by
        unfold osSysNsPerMsecond; push_cast; ring,
      u64_natCast]
    unfold osSysNsPerMsecond
    omega
  constructor
  · intro h
    obtain ⟨d, ⟨hfit, rfl⟩, hret⟩ := h
    refine ⟨hfit, ?_⟩
    by_cases hz : u64 ((deadline.ns : Int) - now.ns) = 0
    · left
      unfold u64 at hz
      unfold DiffFits at hfit
      omega
    · right
      rw [if_neg hz] at hret
      obtain ⟨hlt, hticks⟩ := (pend_iff h1 (by decide)).mp (Option.some.inj hret)
      refine ⟨hlt, ?_⟩
      unfold DiffFits at hfit
      rw [← Int.ofNat_sub (Nat.le_of_lt hlt), hms _ (by omega)] at hticks
      exact (millis_ticks_iff _).mp hticks
  · intro h
    obtain ⟨hfit, hwhen⟩ := h
    refine ⟨_, ⟨hfit, rfl⟩, ?_⟩
    rcases hwhen with heq | ⟨hlt, hticks⟩
    · rw [if_pos (by rw [heq]; unfold u64; omega), deadlineWait_passed (Nat.le_of_eq heq)]
    · unfold DiffFits at hfit
      have hz : u64 ((deadline.ns : Int) - now.ns) ≠ 0 := by
        unfold u64
        omega
      rw [if_neg hz, (pend_iff h1 (by decide)).mpr ⟨hlt, ?_⟩]
      rw [← Int.ofNat_sub (Nat.le_of_lt hlt), hms _ (by omega)]
      exact (millis_ticks_iff _).mpr hticks

theorem pend_osTimeSpec2Tick_iff (h1 : 1 ≤ tickPerSecond) (hd : validTimeSpec (some deadline) = true)
    {err : WaitError} (herr : err ≠ .etimedout) :
    pend err (osTimeSpec2Tick tickPerSecond deadline) = deadlineWait tickPerSecond now deadline ↔
      QueueInTime tickPerSecond now deadline := by
  rw [pend_iff h1 herr, osTimeSpec2Tick_eq hd]
  refine and_congr_right fun hlt => ?_
  have hticks := epoch_ticks_iff tickPerSecond now.ns (deadline.ns - now.ns)
  rw [Nat.add_sub_cancel' (Nat.le_of_lt hlt)] at hticks
  exact hticks

theorem mqTimedsend_iff (h1 : 1 ≤ tickPerSecond) (hd : validTimeSpec (some deadline) = true) :
    mqTimedsend tickPerSecond false (some deadline) = deadlineWait tickPerSecond now deadline ↔
      QueueInTime tickPerSecond now deadline := by
  have hticks : convertTimeout tickPerSecond false (some deadline) =
      some (osTimeSpec2Tick tickPerSecond deadline) := by
    simp [convertTimeout, hd]
  unfold mqTimedsend
  rw [hticks]
  exact pend_osTimeSpec2Tick_iff h1 hd (by decide)

theorem pthreadCondTimedwait_iff (h1 : 1 ≤ tickPerSecond) (hd : validTimeSpec (some deadline) = true) :
    pthreadCondTimedwait tickPerSecond (some deadline) = deadlineWait tickPerSecond now deadline ↔
      deadline.ns = 0 ∨ QueueInTime tickPerSecond now deadline := by
  have hzero : deadline.tvSec = 0 ∧ deadline.tvNsec = 0 ↔ deadline.ns = 0 := by
    obtain ⟨s, n, rfl, hlt⟩ := validTimeSpec_iff.mp hd
    rw [Timespec.ns_mk]
    show (s : Int) = 0 ∧ (n : Int) = 0 ↔ s * 1000000000 + n = 0
    omega
  unfold pthreadCondTimedwait
  dsimp only
  by_cases hz : deadline.ns = 0
  · rw [if_pos (hzero.mpr hz), deadlineWait_passed (by omega)]
    exact ⟨fun _ => .inl hz, fun _ => rfl⟩
  · rw [if_neg (fun h => hz (hzero.mp h)), hd, Bool.not_true, if_neg Bool.false_ne_true,
      or_iff_right hz]
    exact pend_osTimeSpec2Tick_iff h1 hd (by decide)

end

/-- Each of the five calls waits until its deadline exactly when that is `InTime`. -/
theorem timedCall_deadline (tickPerSecond : Nat) (now deadline : Timespec) (h1 : 1 ≤ tickPerSecond)
    (hn : validTimeSpec (some now) = true) (hd : validTimeSpec (some deadline) = true)
    (call : TimedCall) :
    timedCall tickPerSecond now deadline call = some (deadlineWait tickPerSecond now deadline) ↔
      InTime tickPerSecond now deadline call := by
  cases call with
  | semTimedwait => exact semTimedwait_iff h1 hn hd
  | pthreadMutexTimedlock => exact pthreadMutexTimedlock_iff h1 hn hd
  | mqTimedsend => exact (Option.some_inj).trans (mqTimedsend_iff h1 hd)
  | mqTimedreceive => exact (Option.some_inj).trans (mqTimedsend_iff h1 hd)
  | pthreadCondTimedwait => exact (Option.some_inj).trans (pthreadCondTimedwait_iff h1 hd)

/-- One second ahead at 1000 Hz: the semaphore and the mutex wait for it, and the other calls
while the clock reads 0. -/
theorem timedCall_deadline_second :
    (∀ call ∈ [TimedCall.semTimedwait, .pthreadMutexTimedlock],
      timedCall 1000 ⟨1600000000, 0⟩ ⟨1600000001, 0⟩ call =
        some (deadlineWait 1000 ⟨1600000000, 0⟩ ⟨1600000001, 0⟩)) ∧
    (∀ call ∈ [TimedCall.mqTimedsend, .mqTimedreceive, .pthreadCondTimedwait],
      timedCall 1000 ⟨0, 0⟩ ⟨1, 0⟩ call = some (deadlineWait 1000 ⟨0, 0⟩ ⟨1, 0⟩)) ∧
    deadlineWait 1000 ⟨1600000000, 0⟩ ⟨1600000001, 0⟩ = .waits 1000 ∧
    deadlineWait 1000 ⟨0, 0⟩ ⟨1, 0⟩ = .waits 1000 := by
  have hqueue : QueueInTime 1000 ⟨0, 0⟩ ⟨1, 0⟩ := by
    refine ⟨by decide, .inl ⟨by unfold BelowForever; decide, ?_⟩⟩
    exact WithinTick.zero _ _
  refine ⟨fun call hcall => ?_, fun call hcall => ?_, ?_, ?_⟩
  · refine (timedCall_deadline 1000 _ _ (by decide) rfl rfl call).mpr ?_
    simp only [List.mem_cons, List.not_mem_nil, or_false] at hcall
    rcases hcall with rfl | rfl
    · exact ⟨by unfold DiffFits; decide, by decide, by decide, .inl (by decide)⟩
    · refine ⟨by unfold DiffFits; decide, .inr ⟨by decide, .inl ⟨?_, ?_⟩⟩⟩
      · unfold BelowForever
        decide
      · exact WithinTick.zero _ _
  · refine (timedCall_deadline 1000 _ _ (by decide) rfl rfl call).mpr ?_
    simp only [List.mem_cons, List.not_mem_nil, or_false] at hcall
    rcases hcall with rfl | rfl | rfl
    · exact hqueue
    · exact hqueue
    · exact .inr hqueue
  · rw [deadlineWait_ahead (by decide), ticksOf_eq]
    decide
  · rw [deadlineWait_ahead (by decide), ticksOf_eq]
    decide

/-- One second ahead at 100 Hz, at an epoch time: the mutex takes milliseconds for ticks, the
queues and the condition variable wait from the epoch on. One nanosecond back the semaphore
does not say `ETIMEDOUT`. -/
theorem timedCall_late :
    deadlineWait 100 ⟨1600000000, 0⟩ ⟨1600000001, 0⟩ = .waits 100 ∧
      timedCall 100 ⟨1600000000, 0⟩ ⟨1600000001, 0⟩ .pthreadMutexTimedlock = some (.waits 1000) ∧
      timedCall 100 ⟨1600000000, 0⟩ ⟨1600000001, 0⟩ .mqTimedsend = some (.waits 4294967295) ∧
      timedCall 100 ⟨1600000000, 0⟩ ⟨1600000001, 0⟩ .mqTimedreceive = some (.waits 4294967295) ∧
      timedCall 100 ⟨1600000000, 0⟩ ⟨1600000001, 0⟩ .pthreadCondTimedwait =
        some (.waits 4294967295) ∧
      deadlineWait 100 ⟨1600000000, 1⟩ ⟨1600000000, 0⟩ = .fails .etimedout ∧
      timedCall 100 ⟨1600000000, 1⟩ ⟨1600000000, 0⟩ .semTimedwait = some (.fails .einval) := by
  refine ⟨?_, by decide, by decide, by decide, by decide, by decide, by decide⟩
  rw [deadlineWait_ahead (by decide), ticksOf_eq]
  decide

end LiteosM.Posix
