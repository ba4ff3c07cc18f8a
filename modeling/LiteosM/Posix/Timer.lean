import LiteosM.Posix.TimeSpec
import LiteosM.Swtmr.Count

/-!
# POSIX timers

`timer_settime` and `timer_gettime`, on top of the software timers. A POSIX timer is one that
`timer_create` has got from `LOS_SwtmrCreate`.
-/

namespace LiteosM.Posix

open LiteosM.Lib.Transition LiteosM.Swtmr

/-- `struct itimerspec` -/
structure Itimerspec where
  itInterval : Timespec
  itValue : Timespec

inductive TimerError
  | enosys
  | einval
  | enotsup
deriving DecidableEq

section

variable [SwtmrConfig] {clock : Nat → Nat} {s s' x y : SwtmrState} {id n : Nat} {running oldValue : Bool}

/-- `none` stands for the result -1 with `EINVAL`. -/
def timerGettime (clock : Nat → Nat) (s : SwtmrState) (timerID : Nat) (value : Bool) :
    SwtmrState × Option Itimerspec :=
  if !value then (s, none)
  else
    let swtmr := timerID % SwtmrConfig.swtmrLimit
    let r := losSwtmrTimeGet clock s (s.gSwtmrCBArray swtmr).usTimerID true
    if r.2.1 ≠ .losOk ∧ r.2.1 ≠ .notStarted then (r.1, none)
    else
      let tick := r.2.2.getD 0
      let cb := r.1.gSwtmrCBArray swtmr
      (r.1, some {
        itValue := osTick2TimeSpec SwtmrConfig.tickPerSecond tick
        itInterval := osTick2TimeSpec SwtmrConfig.tickPerSecond (if cb.ucMode = .once then 0 else cb.uwInterval) })

/-- What `timer_settime` writes to the timer that it has stopped. -/
def setTimer (s : SwtmrState) (timerID interval : Nat) : SwtmrState :=
  s.modify (timerID % SwtmrConfig.swtmrLimit) fun cb => { cb with
    ucMode := if interval ≠ 0 then .period else .noSelfdelete
    uwInterval := interval }

/-- The second component is 0 or the errno, the third what `oldValue` points to, if it has been written. -/
def timerSettime (clock : Nat → Nat) (s : SwtmrState) (losTaskIsRunning : Bool) (timerID : Nat) (flags : Int)
    (value : Option Itimerspec) (oldValue : Bool) : SwtmrState × Except TimerError Unit × Option Itimerspec :=
  if flags ≠ 0 then (s, .error .enosys, none)
  else
    match value with
    | none => (s, .error .einval, none)
    | some value =>
      if !validTimeSpec (some value.itValue) || !validTimeSpec (some value.itInterval) then (s, .error .einval, none)
      else
        let expiry := osTimeSpec2Tick SwtmrConfig.tickPerSecond value.itValue
        let interval := osTimeSpec2Tick SwtmrConfig.tickPerSecond value.itInterval
        -- the interval must be the same as the expiry
        if interval ≠ 0 ∧ interval ≠ expiry then (s, .error .enotsup, none)
        else
          let old := if oldValue then timerGettime clock s timerID true else (s, none)
          let r := losSwtmrStop old.1 losTaskIsRunning timerID
          if r.2 ≠ .losOk ∧ r.2 ≠ .notStarted then (r.1, .error .einval, old.2)
          else
            let s := setTimer r.1 timerID interval
            if value.itValue.tvSec = 0 ∧ value.itValue.tvNsec = 0 then (s, .ok (), old.2)
            else
              let swtmr := timerID % SwtmrConfig.swtmrLimit
              let r := losSwtmrStart clock s losTaskIsRunning (s.gSwtmrCBArray swtmr).usTimerID
              if r.2 ≠ .losOk then (r.1, .error .einval, old.2) else (r.1, .ok (), old.2)

/-- The calls of the kernel and of the POSIX layer. -/
inductive TimerCall
  | kernel (call : SwtmrCall)
  | settime (losTaskIsRunning : Bool) (timerID : Nat) (flags : Int) (value : Option Itimerspec) (oldValue : Bool)
  | gettime (timerID : Nat) (value : Bool)

inductive timerStep (clock : Nat → Nat) : SwtmrState → TimerCall → SwtmrState → Prop
  | kernel {s s' call} (step : swtmrStep clock s call s') : timerStep clock s (.kernel call) s'
  | settime {s running timerID flags value oldValue} : timerStep clock s
      (.settime running timerID flags value oldValue) (timerSettime clock s running timerID flags value oldValue).1
  | gettime {s timerID value} : timerStep clock s (.gettime timerID value) (timerGettime clock s timerID value).1

/-- A call that starts, stops, sets or deletes the timer. -/
def Concerns (timerID : Nat) : TimerCall → Prop
  | .kernel call => Names timerID call
  | .settime _ timerID' _ _ _ => timerID' = timerID
  | .gettime _ _ => False

/-- A call that leaves a timer alone. -/
def otherStep (clock : Nat → Nat) (timerID : Nat) (s : SwtmrState) (call : TimerCall) (s' : SwtmrState) : Prop :=
  timerStep clock s call s' ∧ ¬Concerns timerID call

/-- The timer is to expire `n` ticks after `start`; whenever it has, it is to expire `interval` ticks later
again. -/
structure Expires (clock : Nat → Nat) (s : SwtmrState) (timerID start n interval : Nat) : Prop where
  linked : timerID % SwtmrConfig.swtmrLimit ∈ s.gSwtmrSortLink
  first : s.responseTime (timerID % SwtmrConfig.swtmrLimit) = ((start + n * osCyclePerTick : Nat) : WithTop Nat)
  next : interval ≠ 0 → ∀ calls x call y, Run (otherStep clock timerID) s calls x → otherStep clock timerID x call y →
    y.responseTime (timerID % SwtmrConfig.swtmrLimit) = x.responseTime (timerID % SwtmrConfig.swtmrLimit) ∨
      x.responseTime (timerID % SwtmrConfig.swtmrLimit) ≤ (clock x.reads : WithTop Nat) ∧
      ∃ k, x.reads ≤ k ∧ k < y.reads ∧
        y.responseTime (timerID % SwtmrConfig.swtmrLimit) = ((clock k + interval * osCyclePerTick : Nat) : WithTop Nat)

/-- `timer_gettime` reports a time that is left, at most `n` ticks. -/
def Reports (clock : Nat → Nat) (x : SwtmrState) (timerID n : Nat) : Prop :=
  ∃ spec, (timerGettime clock x timerID true).2 = some spec ∧ 0 < spec.itValue.ns ∧
    spec.itValue.ns ≤ (osTick2TimeSpec SwtmrConfig.tickPerSecond n).ns

/-- At least a tick is left of the `n` ticks from `start`, in units of `OS_SYS_CLOCK`. -/
def TickLeft (clock : Nat → Nat) (x : SwtmrState) (start n : Nat) : Prop :=
  SwtmrConfig.osSysClock ≤ (start + n * osCyclePerTick - clock x.reads) * SwtmrConfig.tickPerSecond % 2 ^ 64

/-- The timer before it is started: stopped, and with its new mode and interval. -/
def timerReady (clock : Nat → Nat) (s : SwtmrState) (running : Bool) (timerID interval : Nat) (oldValue : Bool) :
    SwtmrState :=
  setCanAlign (setTimer (losSwtmrStop (if oldValue then (timerGettime clock s timerID true).1 else s) running
    timerID).1 timerID interval) (timerID % SwtmrConfig.swtmrLimit)

def Itimerspec.expiry (spec : Itimerspec) : Nat := osTimeSpec2Tick SwtmrConfig.tickPerSecond spec.itValue

def Itimerspec.interval (spec : Itimerspec) : Nat := osTimeSpec2Tick SwtmrConfig.tickPerSecond spec.itInterval

theorem timerGettime_read (clock : Nat → Nat) (s : SwtmrState) (timerID : Nat) (value : Bool) :
    ∃ n ≥ s.reads, (timerGettime clock s timerID value).1 = { s with reads := n } := by
  obtain ⟨n, hn, heq⟩ := losSwtmrTimeGet_read clock s
    (s.gSwtmrCBArray (timerID % SwtmrConfig.swtmrLimit)).usTimerID true
  unfold timerGettime
  split
  · exact ⟨s.reads, Nat.le_refl _, rfl⟩
  dsimp only
  split
  · exact ⟨n, hn, heq⟩
  · exact ⟨n, hn, heq⟩

/-- A timer that can be started. -/
structure ReadyFor (s r : SwtmrState) (timerID interval : Nat) : Prop where
  id : timerID < osSwtmrMaxTimerid
  named : (s.gSwtmrCBArray (timerID % SwtmrConfig.swtmrLimit)).usTimerID = timerID
  only : OnlyTimer s r (timerID % SwtmrConfig.swtmrLimit)
  listed : Listed r
  off : timerID % SwtmrConfig.swtmrLimit ∉ r.gSwtmrSortLink
  state : (r.gSwtmrCBArray (timerID % SwtmrConfig.swtmrLimit)).ucState = .created
  kept : (r.gSwtmrCBArray (timerID % SwtmrConfig.swtmrLimit)).usTimerID = timerID
  mode : (r.gSwtmrCBArray (timerID % SwtmrConfig.swtmrLimit)).ucMode = if interval ≠ 0 then .period else .noSelfdelete
  own : r.interval (timerID % SwtmrConfig.swtmrLimit) = interval

theorem setTimer_ready {timerID : Nat} {r : WithTop Nat} (hid : timerID < osSwtmrMaxTimerid)
    (hname : (s.gSwtmrCBArray (timerID % SwtmrConfig.swtmrLimit)).usTimerID = timerID)
    (honly : OnlyTimer s s' (timerID % SwtmrConfig.swtmrLimit)) (hl : Listed s')
    (hoff : timerID % SwtmrConfig.swtmrLimit ∉ s'.gSwtmrSortLink)
    (hfree : timerID % SwtmrConfig.swtmrLimit ∉ s'.gSwtmrFreeList)
    (hcb : s'.gSwtmrCBArray (timerID % SwtmrConfig.swtmrLimit) =
      { s.gSwtmrCBArray (timerID % SwtmrConfig.swtmrLimit) with ucState := .created, responseTime := r })
    (interval : Nat) : ReadyFor s (setTimer s' timerID interval) timerID interval := by
  have hself : (setTimer s' timerID interval).gSwtmrCBArray (timerID % SwtmrConfig.swtmrLimit) =
      { s.gSwtmrCBArray (timerID % SwtmrConfig.swtmrLimit) with
        ucState := .created
        responseTime := r
        ucMode := if interval ≠ 0 then .period else .noSelfdelete
        uwInterval := interval } := by
    unfold setTimer
    rw [modify_self, hcb]
  refine ⟨hid, hname, honly.trans (onlyTimer_modify rfl), hl.modify (index_lt hid) rfl hfree hoff, hoff, ?_, ?_, ?_, ?_⟩
  · rw [hself]
  · rw [hself]
    exact hname
  · rw [hself]
  · unfold SwtmrState.interval
    rw [hself]

theorem ReadyFor.setCanAlign {timerID interval : Nat} {r : SwtmrState} (h : ReadyFor s r timerID interval) :
    ReadyFor s (Swtmr.setCanAlign r (timerID % SwtmrConfig.swtmrLimit)) timerID interval := by
  obtain ⟨honly, hl, hcbs, hlink, _⟩ := setCanAlign_only h.listed (index_lt h.id)
  refine ⟨h.id, h.named, h.only.trans honly, hl, ?_, ?_, ?_, ?_, ?_⟩
  · rw [hlink]
    exact h.off
  · rw [hcbs]
    exact h.state
  · rw [hcbs]
    exact h.kept
  · rw [hcbs]
    exact h.mode
  · unfold SwtmrState.interval
    rw [hcbs]
    exact h.own

/-- How `timer_settime` ends: it is refused, it stops the timer, or it starts it. -/
inductive Settime (clock : Nat → Nat) (s : SwtmrState) (running : Bool) (timerID : Nat) (value : Option Itimerspec)
    (oldValue : Bool) : SwtmrState → Except TimerError Unit → Prop
  | refused {n : Nat} {e : TimerError} (hn : s.reads ≤ n) :
      Settime clock s running timerID value oldValue { s with reads := n } (.error e)
  | stopped {spec : Itimerspec} {r : SwtmrState} (hvalue : value = some spec)
      (hzero : spec.itValue.tvSec = 0 ∧ spec.itValue.tvNsec = 0) (h : ReadyFor s r timerID spec.interval) :
      Settime clock s running timerID value oldValue r (.ok ())
  | started {spec : Itimerspec} (hvalue : value = some spec) (hinterval : spec.interval = 0 ∨ spec.interval = spec.expiry)
      (h : ReadyFor s (timerReady clock s running timerID spec.interval oldValue) timerID spec.interval) :
      Settime clock s running timerID value oldValue
        (osSwtmrStart clock (timerReady clock s running timerID spec.interval oldValue)
          (timerID % SwtmrConfig.swtmrLimit)) (.ok ())

theorem timerSettime_settime (hl : Listed s) (clock : Nat → Nat) (running : Bool) (timerID : Nat) (flags : Int)
    (value : Option Itimerspec) (oldValue : Bool) :
    Settime clock s running timerID value oldValue (timerSettime clock s running timerID flags value oldValue).1
      (timerSettime clock s running timerID flags value oldValue).2.1 := by
  have hsame : ∀ e, Settime clock s running timerID value oldValue s (.error e) := fun e => .refused (Nat.le_refl _)
  unfold timerSettime
  split
  · exact hsame _
  cases value with
  | none => exact hsame _
  | some spec =>
    dsimp only
    split
    · exact hsame _
    split
    · exact hsame _
    next hinterval =>
    have hinterval : spec.interval = 0 ∨ spec.interval = spec.expiry := by
      rw [not_and_or, not_ne_iff, not_ne_iff] at hinterval
      exact hinterval
    -- `oldValue` costs at most a reading of the clock
    obtain ⟨n, hn, hold⟩ : ∃ n ≥ s.reads, (if oldValue then timerGettime clock s timerID true else (s, none)).1 =
        { s with reads := n } := by
      split
      · exact timerGettime_read clock s timerID true
      · exact ⟨s.reads, Nat.le_refl _, rfl⟩
    have hready : timerReady clock s running timerID spec.interval oldValue =
        setCanAlign (setTimer (losSwtmrStop { s with reads := n } running timerID).1 timerID spec.interval)
          (timerID % SwtmrConfig.swtmrLimit) := by
      unfold timerReady
      rw [← hold]
      cases oldValue <;> rfl
    rw [hold]
    obtain ⟨hok, hnot, heq⟩ | ⟨hgo, hid, hname, honly, hl₁, hoff, r, hcb⟩ :=
      losSwtmrStop_stopped (hl.read n) running timerID
    · rw [if_pos ⟨hok, hnot⟩, heq]
      exact .refused hn
    rw [if_neg hgo]
    have hlt := index_lt hid
    have hread := onlyTimer_read hn (timerID % SwtmrConfig.swtmrLimit)
    have hfree := hl₁.not_free (t := timerID % SwtmrConfig.swtmrLimit) (by rw [hcb]; nofun)
    have hset := setTimer_ready (s := s) hid hname (hread.trans honly) hl₁ hoff hfree hcb spec.interval
    have hi : osTimeSpec2Tick SwtmrConfig.tickPerSecond spec.itInterval = spec.interval := rfl
    rw [hi]
    split
    · next hzero =>
      dsimp only
      exact .stopped rfl hzero hset
    · rw [hset.kept, losSwtmrStart_created clock hset.listed hid hset.kept hset.state, if_neg (not_ne_iff.mpr rfl)]
      dsimp only
      rw [← hready]
      refine .started rfl hinterval ?_
      rw [hready]
      exact hset.setCanAlign

/-! ### Calls on other timers -/

theorem ReadyFor.start {timerID interval : Nat} {r : SwtmrState} (clock : Nat → Nat)
    (h : ReadyFor s r timerID interval) :
    OnlyTimer r (osSwtmrStart clock r (timerID % SwtmrConfig.swtmrLimit)) (timerID % SwtmrConfig.swtmrLimit) ∧
      Listed (osSwtmrStart clock r (timerID % SwtmrConfig.swtmrLimit)) ∧
      timerID % SwtmrConfig.swtmrLimit ∈ (osSwtmrStart clock r (timerID % SwtmrConfig.swtmrLimit)).gSwtmrSortLink ∧
      ∃ n, (osSwtmrStart clock r (timerID % SwtmrConfig.swtmrLimit)).gSwtmrCBArray
          (timerID % SwtmrConfig.swtmrLimit) =
        { r.gSwtmrCBArray (timerID % SwtmrConfig.swtmrLimit) with
          ucState := .ticking
          uwCount := n
          responseTime := ((clock r.reads + n * osCyclePerTick : Nat) : WithTop Nat) } := by
  obtain ⟨honly, hl, hmem, _, hcb⟩ :=
    osSwtmrStart_only clock h.listed (index_lt h.id) (by rw [h.state]; nofun) h.off
  exact ⟨honly, hl, hmem, hcb⟩

theorem timerSettime_callOn (hl : Listed s) (clock : Nat → Nat) (running : Bool) (timerID : Nat) (flags : Int)
    (value : Option Itimerspec) (oldValue : Bool) :
    CallOn s (timerSettime clock s running timerID flags value oldValue).1 timerID := by
  have h := timerSettime_settime hl clock running timerID flags value oldValue
  generalize (timerSettime clock s running timerID flags value oldValue).1 = s' at h ⊢
  generalize (timerSettime clock s running timerID flags value oldValue).2.1 = r at h
  cases h with
  | refused hn => exact ⟨hl.read _, hn, .inl ⟨rfl, rfl⟩⟩
  | stopped _ _ h => exact ⟨h.listed, h.only.reads, .inr ⟨h.named, h.only⟩⟩
  | started _ _ h =>
    obtain ⟨honly, hl', _⟩ := h.start clock
    have hall := h.only.trans honly
    exact ⟨hl', hall.reads, .inr ⟨h.named, hall⟩⟩

theorem timerStep_listed {call : TimerCall} (hlimit : 0 < SwtmrConfig.swtmrLimit) (hl : Listed s)
    (hstep : timerStep clock s call s') : Listed s' ∧ s.reads ≤ s'.reads := by
  cases hstep with
  | kernel step => exact swtmrStep_listed hl hlimit step
  | @settime running timerID flags value oldValue =>
    have h := timerSettime_callOn hl clock running timerID flags value oldValue
    exact ⟨h.listed, h.reads⟩
  | gettime =>
    obtain ⟨n, hn, heq⟩ := timerGettime_read clock s _ _
    rw [heq]
    exact ⟨hl.read n, hn⟩

theorem otherStep_unnamed {call : TimerCall} {t : Nat} (hl : Listed s) (ht : t < SwtmrConfig.swtmrLimit)
    (hs : (s.gSwtmrCBArray t).ucState ≠ .unused) (hname : (s.gSwtmrCBArray t).usTimerID = id)
    (hstep : otherStep clock id s call s') : Unnamed clock s s' t := by
  obtain ⟨hstep, hother⟩ := hstep
  cases hstep with
  | kernel step => exact swtmrStep_unnamed hl ht hs (by rw [hname]; exact hother) step
  | settime =>
    refine (timerSettime_callOn hl clock _ _ _ _ _).unnamed clock ht ?_
    rw [hname]
    exact hother
  | gettime =>
    obtain ⟨n, hn, heq⟩ := timerGettime_read clock s _ _
    rw [heq]
    exact unnamed_read clock hl hn t

theorem ticking_run (hclock : Monotone clock) {t : Nat} {calls : List TimerCall} (hl : Listed s)
    (ht : t < SwtmrConfig.swtmrLimit) (hs : (s.gSwtmrCBArray t).ucState = .ticking)
    (hname : (s.gSwtmrCBArray t).usTimerID = id) (hrun : Run (otherStep clock id) s calls x) :
    Listed x ∧ s.reads ≤ x.reads ∧
      ((clock x.reads : WithTop Nat) < s.responseTime t → x.gSwtmrCBArray t = s.gSwtmrCBArray t) := by
  have hlimit := Nat.zero_lt_of_lt ht
  induction hrun with
  | nil => exact ⟨hl, Nat.le_refl _, fun _ => rfl⟩
  | @snoc y z _ _ _ last ih =>
    obtain ⟨hly, hle, hkeep⟩ := ih
    obtain ⟨hlz, hreads⟩ := timerStep_listed hlimit hly last.1
    refine ⟨hlz, hle.trans hreads, fun hearly => ?_⟩
    have hmono : (clock y.reads : WithTop Nat) ≤ clock z.reads := WithTop.coe_le_coe.mpr (hclock hreads)
    have hsame := hkeep (hmono.trans_lt hearly)
    have hnext := otherStep_unnamed hly ht (by rw [hsame, hs]; nofun) (by rw [hsame]; exact hname) last
    obtain ⟨hcb, _⟩ | ⟨hdue, _⟩ := hnext.timer
    · exact hcb.trans hsame
    · unfold SwtmrState.responseTime at hdue hearly
      rw [hsame] at hdue
      exact absurd (hmono.trans_lt hearly) (not_lt.mpr hdue)

/-- A periodic timer that ticks, and is not to be aligned any more. -/
structure Armed (x : SwtmrState) (timerID t interval : Nat) : Prop where
  listed : Listed x
  state : (x.gSwtmrCBArray t).ucState = .ticking
  name : (x.gSwtmrCBArray t).usTimerID = timerID
  mode : (x.gSwtmrCBArray t).ucMode = .period
  own : (x.gSwtmrCBArray t).uwInterval = interval
  plain : (SwtmrConfig.align && (x.gSwtmrAlignID t).canAlign && !(x.gSwtmrAlignID t).isAligned) = false

theorem Armed.next {call : TimerCall} {t interval : Nat} (h : Armed x id t interval)
    (ht : t < SwtmrConfig.swtmrLimit) (hstep : otherStep clock id x call y) :
    Armed y id t interval ∧ (y.responseTime t = x.responseTime t ∨
      x.responseTime t ≤ (clock x.reads : WithTop Nat) ∧ ∃ k, x.reads ≤ k ∧ k < y.reads ∧
        y.responseTime t = ((clock k + interval * osCyclePerTick : Nat) : WithTop Nat)) := by
  have hnext := otherStep_unnamed h.listed ht (by rw [h.state]; nofun) h.name hstep
  obtain ⟨hcb, halign⟩ | ⟨hdue, hrestart⟩ := hnext.timer
  · refine ⟨⟨hnext.listed, ?_, ?_, ?_, ?_, ?_⟩, .inl (congrArg SwtmrCtrl.responseTime hcb)⟩
    · rw [hcb]
      exact h.state
    · rw [hcb]
      exact h.name
    · rw [hcb]
      exact h.mode
    · rw [hcb]
      exact h.own
    · rw [halign]
      exact h.plain
  · obtain ⟨k, hk, hlt, hcb, halign⟩ := hrestart h.mode h.plain
    rw [h.own] at hcb
    refine ⟨⟨hnext.listed, ?_, ?_, ?_, ?_, ?_⟩, .inr ⟨hdue, k, hk, hlt, congrArg SwtmrCtrl.responseTime hcb⟩⟩
    · rw [hcb]
    · rw [hcb]
      exact h.name
    · rw [hcb]
      exact h.mode
    · rw [hcb]
      exact h.own
    · rw [halign]
      exact h.plain

theorem Armed.run {calls : List TimerCall} {t interval : Nat} (h : Armed s id t interval)
    (ht : t < SwtmrConfig.swtmrLimit) (hrun : Run (otherStep clock id) s calls x) : Armed x id t interval :=
  run_invariant (fun x => Armed x id t interval) (fun _ _ _ h hstep => (h.next ht hstep).1) hrun h

/-! ### What `timer_settime` has set -/

theorem osCyclePerTick_pos (hticks : 1 ≤ SwtmrConfig.tickPerSecond)
    (hsys : SwtmrConfig.tickPerSecond ≤ SwtmrConfig.osSysClock) : 0 < osCyclePerTick :=
  Nat.div_pos hsys hticks

omit [SwtmrConfig] in
theorem osTimeSpec2Tick_lt (tickPerSecond : Nat) (tp : Timespec) : osTimeSpec2Tick tickPerSecond tp < 2 ^ 32 := by
  unfold osTimeSpec2Tick waitForever
  dsimp only
  split <;> omega

/-- The timer expires when it should if and only if it waits for that count. -/
theorem ReadyFor.expires_iff {interval n : Nat} {r : SwtmrState} (clock : Nat → Nat)
    (hticks : 1 ≤ SwtmrConfig.tickPerSecond) (hsys : SwtmrConfig.tickPerSecond ≤ SwtmrConfig.osSysClock)
    (h : ReadyFor s r id interval) (hword : interval < 2 ^ 32) (hn : interval = 0 ∨ interval = n) :
    Expires clock (osSwtmrStart clock r (id % SwtmrConfig.swtmrLimit)) id (clock r.reads) n interval ↔
      Waits r (clock r.reads) (id % SwtmrConfig.swtmrLimit) n := by
  obtain ⟨honly, hl, hmem, count, hcb⟩ := h.start clock
  have hlt := index_lt h.id
  have hwaits := osSwtmrStart_waits clock h.listed hlt h.off (by rw [h.own]; exact hword) (n := n)
    (by rw [h.own]; exact hn)
  have hcount : ((osSwtmrStart clock r (id % SwtmrConfig.swtmrLimit)).gSwtmrCBArray
      (id % SwtmrConfig.swtmrLimit)).uwCount = count := by rw [hcb]
  rw [hcount] at hwaits
  rw [← hwaits]
  have htime : (osSwtmrStart clock r (id % SwtmrConfig.swtmrLimit)).responseTime (id % SwtmrConfig.swtmrLimit) =
      ((clock r.reads + count * osCyclePerTick : Nat) : WithTop Nat) := congrArg SwtmrCtrl.responseTime hcb
  constructor
  · intro hexp
    have hfirst := WithTop.coe_inj.mp (htime.symm.trans hexp.first)
    exact Nat.eq_of_mul_eq_mul_right (osCyclePerTick_pos hticks hsys) (Nat.add_left_cancel hfirst)
  · rintro rfl
    refine ⟨hmem, htime, fun hperiod calls x call y hrun hstep => ?_⟩
    have harmed : Armed (osSwtmrStart clock r (id % SwtmrConfig.swtmrLimit)) id (id % SwtmrConfig.swtmrLimit)
        interval := by
      refine ⟨hl, by rw [hcb], by rw [hcb]; exact h.kept, ?_, by rw [hcb]; exact h.own,
        osSwtmrStart_aligned clock (h.listed.ids _ hlt)⟩
      rw [hcb]
      dsimp only
      rw [h.mode, if_pos hperiod]
    exact ((harmed.run hlt hrun).next hlt hstep).2

omit [SwtmrConfig] in
theorem osTick2TimeSpec_ns {tickPerSecond k : Nat} (hk : k < 2 ^ 32) :
    (osTick2TimeSpec tickPerSecond k).ns = k * 1000000000 / tickPerSecond := by
  have hns : u64 ((k : Int) * (osSysNsPerSecond : Nat)) = k * 1000000000 := by
    rw [show (k : Int) * (osSysNsPerSecond : Nat) = ((k * 1000000000 : Nat) : Int) by
      unfold osSysNsPerSecond; push_cast; rfl, u64_natCast]
    omega
  unfold osTick2TimeSpec
  rw [hns]
  dsimp only
  rw [Timespec.ns_mk]
  exact Nat.div_add_mod' ..

omit [SwtmrConfig] in
theorem before_expiry {now k : Nat} (h : now < k) : (now : WithTop Nat) < (k : WithTop Nat) := WithTop.coe_lt_coe.mpr h

theorem remaining_ticks {start now n : Nat} (hticks : 1 ≤ SwtmrConfig.tickPerSecond)
    (hsys : SwtmrConfig.tickPerSecond ≤ SwtmrConfig.osSysClock) (hn : n < 2 ^ 32) (hstart : start ≤ now)
    (hearly : now < start + n * osCyclePerTick) :
    osSortLinkGetTargetExpireTime now ((start + n * osCyclePerTick : Nat) : WithTop Nat) ≤ n ∧
      (0 < osSortLinkGetTargetExpireTime now ((start + n * osCyclePerTick : Nat) : WithTop Nat) ↔
        SwtmrConfig.osSysClock ≤
          (start + n * osCyclePerTick - now) * SwtmrConfig.tickPerSecond % 2 ^ 64) := by
  have hle : osSortLinkGetTargetExpireTime now ((start + n * osCyclePerTick : Nat) : WithTop Nat) ≤ n :=
    osSortLinkGetTargetExpireTime_le (WithTop.coe_le_coe.mpr (Nat.add_le_add_right hstart _))
  refine ⟨hle, ?_⟩
  have hpos : 0 < SwtmrConfig.osSysClock := Nat.lt_of_lt_of_le hticks hsys
  have hleft : (start + n * osCyclePerTick - now) * SwtmrConfig.tickPerSecond ≤ SwtmrConfig.osSysClock * n := by
    have htick : osCyclePerTick * SwtmrConfig.tickPerSecond ≤ SwtmrConfig.osSysClock := Nat.div_mul_le_self ..
    calc (start + n * osCyclePerTick - now) * SwtmrConfig.tickPerSecond
        ≤ n * osCyclePerTick * SwtmrConfig.tickPerSecond := Nat.mul_le_mul_right _ (by omega)
      _ = n * (osCyclePerTick * SwtmrConfig.tickPerSecond) := Nat.mul_assoc ..
      _ ≤ n * SwtmrConfig.osSysClock := Nat.mul_le_mul_left n htick
      _ = SwtmrConfig.osSysClock * n := Nat.mul_comm ..
  have hword : (start + n * osCyclePerTick - now) * SwtmrConfig.tickPerSecond % 2 ^ 64 / SwtmrConfig.osSysClock <
      2 ^ 32 :=
    Nat.lt_of_le_of_lt (Nat.div_le_of_le_mul ((Nat.mod_le ..).trans hleft)) hn
  have hlate : ¬((start + n * osCyclePerTick : Nat) : WithTop Nat) ≤ (now : WithTop Nat) :=
    not_le.mpr (before_expiry hearly)
  unfold osSortLinkGetTargetExpireTime
  rw [if_neg hlate]
  change 0 < (start + n * osCyclePerTick - now) * SwtmrConfig.tickPerSecond % 2 ^ 64 /
    SwtmrConfig.osSysClock % 2 ^ 32 ↔ _
  rw [Nat.mod_eq_of_lt hword]
  exact Nat.div_pos_iff.trans (and_iff_right hpos)

theorem timerGettime_ticking (clock : Nat → Nat) (hid : id < osSwtmrMaxTimerid)
    (hname : (x.gSwtmrCBArray (id % SwtmrConfig.swtmrLimit)).usTimerID = id)
    (hs : (x.gSwtmrCBArray (id % SwtmrConfig.swtmrLimit)).ucState = .ticking) :
    ∃ spec, (timerGettime clock x id true).2 = some spec ∧
      spec.itValue = osTick2TimeSpec SwtmrConfig.tickPerSecond (osSortLinkGetTargetExpireTime (clock x.reads)
        (x.responseTime (id % SwtmrConfig.swtmrLimit))) := by
  have hget : losSwtmrTimeGet clock x id true = ({ x with reads := x.reads + 1 }, .losOk,
      some (osSortLinkGetTargetExpireTime (clock x.reads) (x.responseTime (id % SwtmrConfig.swtmrLimit)))) := by
    unfold losSwtmrTimeGet
    rw [if_neg (Nat.not_le.mpr hid), Bool.not_true, if_neg Bool.false_ne_true]
    dsimp only
    rw [if_neg (not_ne_iff.mpr hname), hs]
    rfl
  unfold timerGettime
  rw [Bool.not_true, if_neg Bool.false_ne_true]
  dsimp only
  rw [hname, hget, if_neg fun h => h.1 rfl]
  exact ⟨_, rfl, rfl⟩

theorem reports_iff {start n : Nat} (clock : Nat → Nat) (hticks : 1 ≤ SwtmrConfig.tickPerSecond)
    (hns : SwtmrConfig.tickPerSecond ≤ 1000000000)
    (hsys : SwtmrConfig.tickPerSecond ≤ SwtmrConfig.osSysClock) (hn : n < 2 ^ 32) (hid : id < osSwtmrMaxTimerid)
    (hname : (x.gSwtmrCBArray (id % SwtmrConfig.swtmrLimit)).usTimerID = id)
    (hs : (x.gSwtmrCBArray (id % SwtmrConfig.swtmrLimit)).ucState = .ticking)
    (htime : x.responseTime (id % SwtmrConfig.swtmrLimit) = ((start + n * osCyclePerTick : Nat) : WithTop Nat))
    (hstart : start ≤ clock x.reads) (hearly : clock x.reads < start + n * osCyclePerTick) :
    Reports clock x id n ↔ TickLeft clock x start n := by
  obtain ⟨spec, hget, hvalue⟩ := timerGettime_ticking clock hid hname hs
  obtain ⟨hle, hleft⟩ := remaining_ticks hticks hsys hn hstart hearly
  rw [htime] at hvalue
  unfold TickLeft
  rw [← hleft]
  generalize osSortLinkGetTargetExpireTime (clock x.reads)
    ((start + n * osCyclePerTick : Nat) : WithTop Nat) = k at hvalue hle
  have hk := Nat.lt_of_le_of_lt hle hn
  have hpos : 0 < k * 1000000000 / SwtmrConfig.tickPerSecond ↔ 0 < k := by
    rw [Nat.div_pos_iff]
    constructor
    · intro h
      omega
    · intro h
      exact ⟨hticks, by omega⟩
  constructor
  · intro ⟨spec', hget', hsome, _⟩
    cases hget.symm.trans hget'
    rw [hvalue, osTick2TimeSpec_ns hk] at hsome
    exact hpos.mp hsome
  · intro hsome
    refine ⟨spec, hget, ?_, ?_⟩
    · rw [hvalue, osTick2TimeSpec_ns hk]
      exact hpos.mpr hsome
    · rw [hvalue, osTick2TimeSpec_ns hk, osTick2TimeSpec_ns hn]
      exact Nat.div_le_div_right (Nat.mul_le_mul_right _ hle)

/-- `timer_settime` in every state that calls lead to. The timer waits for the ticks of `it_value` if these are
those of `it_interval` too, and no other timer is in the way. -/
theorem timerSettime_expires {s₀ : SwtmrState} {before : List TimerCall} (hclock : Monotone clock)
    (hlimit : 0 < SwtmrConfig.swtmrLimit) (hticks : 1 ≤ SwtmrConfig.tickPerSecond)
    (hns : SwtmrConfig.tickPerSecond ≤ 1000000000) (hsys : SwtmrConfig.tickPerSecond ≤ SwtmrConfig.osSysClock)
    (hb : SwtmrBooted s₀) (hbefore : Run (timerStep clock) s₀ before s) (running : Bool) (id : Nat) (flags : Int)
    (value : Option Itimerspec) (oldValue : Bool) :
    (∀ e, (timerSettime clock s running id flags value oldValue).2.1 = .error e →
      ∃ n, (timerSettime clock s running id flags value oldValue).1 = { s with reads := n }) ∧
    ∀ spec start, value = some spec → (timerSettime clock s running id flags value oldValue).2.1 = .ok () →
      ¬(spec.itValue.tvSec = 0 ∧ spec.itValue.tvNsec = 0) →
      start = clock (timerReady clock s running id spec.interval oldValue).reads →
      (Expires clock (timerSettime clock s running id flags value oldValue).1 id start spec.expiry spec.interval ↔
        Waits (timerReady clock s running id spec.interval oldValue) start (id % SwtmrConfig.swtmrLimit)
          spec.expiry) ∧
      ∀ later x, Run (otherStep clock id) (timerSettime clock s running id flags value oldValue).1 later x →
        clock x.reads < start + spec.expiry * osCyclePerTick →
        (Expires clock (timerSettime clock s running id flags value oldValue).1 id start spec.expiry spec.interval ∧
            Reports clock x id spec.expiry ↔
          Waits (timerReady clock s running id spec.interval oldValue) start (id % SwtmrConfig.swtmrLimit)
            spec.expiry ∧ TickLeft clock x start spec.expiry) := by
  have hl : Listed s := run_invariant Listed (fun _ _ _ h hstep => (timerStep_listed hlimit h hstep).1) hbefore
    (swtmrBooted_listed hb)
  have hend := timerSettime_settime hl clock running id flags value oldValue
  generalize (timerSettime clock s running id flags value oldValue).1 = s' at hend ⊢
  generalize (timerSettime clock s running id flags value oldValue).2.1 = r at hend ⊢
  cases hend with
  | @refused n => exact ⟨fun _ _ => ⟨n, rfl⟩, (fun _ _ _ hok => by cases hok)⟩
  | stopped hvalue hzero =>
    refine ⟨(fun _ herror => by cases herror), fun spec' _ hvalue' _ hnonzero => ?_⟩
    cases hvalue.symm.trans hvalue'
    exact absurd hzero hnonzero
  | @started spec hvalue hinterval h =>
    refine ⟨(fun _ herror => by cases herror), fun spec' start hvalue' _ _ hstart => ?_⟩
    cases hvalue.symm.trans hvalue'
    have hword : spec.interval < 2 ^ 32 := osTimeSpec2Tick_lt ..
    have hn : spec.expiry < 2 ^ 32 := osTimeSpec2Tick_lt ..
    have hexp := h.expires_iff (n := spec.expiry) clock hticks hsys hword hinterval
    rw [← hstart] at hexp
    refine ⟨hexp, fun later x hrun hearly => ?_⟩
    rw [← hexp]
    refine and_congr_right fun hset => ?_
    obtain ⟨honly, hl', _, count, hcb⟩ := h.start clock
    obtain ⟨_, hreads, hkeep⟩ := ticking_run hclock hl' (index_lt h.id) (by rw [hcb])
      (by rw [hcb]; exact h.kept) hrun
    have hlate := before_expiry hearly
    rw [← hset.first] at hlate
    have hsame := hkeep hlate
    refine reports_iff clock hticks hns hsys hn h.id ?_ ?_ ?_ ?_ hearly
    · rw [hsame, hcb]
      exact h.kept
    · rw [hsame, hcb]
    · unfold SwtmrState.responseTime
      rw [hsame]
      exact hset.first
    · rw [hstart]
      exact hclock (honly.reads.trans hreads)

end

@[reducible]
def plainTimers : SwtmrConfig where
  swtmrLimit := 2
  align := false
  osSysClock := 1000
  tickPerSecond := 100

def timerCreated : SwtmrState :=
  letI := plainTimers
  (losSwtmrCreate timersBooted 1 .once (some 5) true 7 0 osSwtmrAlignInsensitive).1

theorem timerCreated_run : letI := plainTimers; Run (timerStep fun n => n) timersBooted
    [.kernel (.create 1 .once (some 5) true 7 0 osSwtmrAlignInsensitive)] timerCreated :=
  letI := plainTimers
  run_single (timerStep.kernel (swtmrStep.create (by decide)))

theorem timersBooted_plain : letI := plainTimers; SwtmrBooted timersBooted :=
  letI := plainTimers
  ⟨fun _ _ => rfl, fun _ _ => rfl, rfl, rfl, fun _ _ => rfl⟩

def everyFifth : Itimerspec := ⟨⟨0, 50000000⟩, ⟨0, 50000000⟩⟩

def onceFifth : Itimerspec := ⟨⟨0, 0⟩, ⟨0, 50000000⟩⟩

def periodicSet : SwtmrState :=
  letI := plainTimers
  (timerSettime (fun n => n) timerCreated true 0 0 (some everyFifth) false).1

theorem timerSettime_expires_fifth : letI := plainTimers
    Expires (fun n => n) periodicSet 0 0 5 5 ∧ Reports (fun n => n) periodicSet 0 5 := by
  let _ := plainTimers
  have hticks : everyFifth.expiry = 5 ∧ everyFifth.interval = 5 := by decide +kernel
  obtain ⟨_, h⟩ := timerSettime_expires (s := timerCreated) (fun _ _ h => h) (by decide) (by decide) (by decide)
    (by decide) timersBooted_plain timerCreated_run true 0 0 (some everyFifth) false
  obtain ⟨_, hlater⟩ := h everyFifth 0 rfl (by decide +kernel) (by decide) (by decide +kernel)
  rw [hticks.1, hticks.2] at hlater
  refine (hlater [] periodicSet Run.nil (by decide +kernel)).mpr ⟨?_, ?_⟩
  · unfold Waits
    rw [if_neg (by decide +kernel)]
    decide +kernel
  · unfold TickLeft
    decide +kernel

/-- A timer that is to expire once is due at the moment it is set, and nothing is left of its time. -/
theorem timerSettime_once_early : letI := plainTimers
    (timerSettime (fun n => n) timerCreated true 0 0 (some onceFifth) false).2.1 = .ok () ∧
      onceFifth.expiry = 5 ∧ onceFifth.interval = 0 ∧
      ¬Expires (fun n => n) (timerSettime (fun n => n) timerCreated true 0 0 (some onceFifth) false).1 0 0 5 0 ∧
      ((timerGettime (fun n => n) (timerSettime (fun n => n) timerCreated true 0 0 (some onceFifth) false).1 0
        true).2.map fun spec => spec.itValue.ns) = some 0 := by
  let _ := plainTimers
  refine ⟨by decide +kernel, by decide +kernel, by decide +kernel, fun h => ?_, by decide +kernel⟩
  have hdue : (timerSettime (fun n => n) timerCreated true 0 0 (some onceFifth) false).1.responseTime 0 = 0 := by
    decide +kernel
  have hfirst : (timerSettime (fun n => n) timerCreated true 0 0 (some onceFifth) false).1.responseTime 0 =
      ((50 : Nat) : WithTop Nat) := h.first
  rw [hdue] at hfirst
  exact absurd hfirst (by decide)

end LiteosM.Posix
