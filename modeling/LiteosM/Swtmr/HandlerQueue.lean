import LiteosM.Lib.Bounded
import LiteosM.Swtmr.Run
import Mathlib.Data.List.Nodup

/-!
# The queue of the timer task

What the scan sends to `g_swtmrHandlerQueue` and what `OsSwtmrTask` takes out of it, in any order of
the two. The scan does not wait, and does not look at what `LOS_QueueWriteCopy` returns.
-/

namespace LiteosM.Swtmr

open LiteosM.Lib.Transition LiteosM.Lib.Bounded

/-- An entry of the queue, with the timer that sent it and the mode of that timer. -/
structure HandlerEntry where
  timer : Nat
  ucMode : SwtmrMode
  item : SwtmrHandlerItem
deriving DecidableEq

/-- `expired` has the expirations so far, `ran` the entries whose handler `OsSwtmrTask` has run. -/
structure TimerTask where
  timers : SwtmrState
  gSwtmrHandlerQueue : List HandlerEntry
  expired : List HandlerEntry
  ran : List HandlerEntry

inductive TimerEvent
  | call (call : SwtmrCall)
  | read

def HandlerEntry.single (e : HandlerEntry) : Bool := e.ucMode ≠ .period

def entryOf (s : SwtmrState) (t : Nat) : HandlerEntry :=
  ⟨t, (s.gSwtmrCBArray t).ucMode, ⟨(s.gSwtmrCBArray t).pfnHandler, (s.gSwtmrCBArray t).uwArg⟩⟩

def sent (s s' : SwtmrState) : List HandlerEntry :=
  (s'.written.drop s.written.length).map fun w => ⟨w.1, (s.gSwtmrCBArray w.1).ucMode, w.2⟩

/-- A round of `OsSwtmrTask`. It waits as long as the queue is empty. -/
def osSwtmrTask (s : TimerTask) : TimerTask :=
  match s.gSwtmrHandlerQueue with
  | [] => s
  | swtmrHandle :: rest =>
    if swtmrHandle.item.handler.isNone then { s with gSwtmrHandlerQueue := rest }
    else { s with gSwtmrHandlerQueue := rest, ran := s.ran ++ [swtmrHandle] }

section

variable [SwtmrConfig]

def osSwtmrHandleQueueSize : Nat := SwtmrConfig.swtmrLimit

/-- The timers on the sort link that are due at `now`, as entries. -/
def expirations (s : SwtmrState) (now : Nat) : List HandlerEntry := (due s now).map (entryOf s)

inductive taskStep (clock : Nat → Nat) : TimerTask → TimerEvent → TimerTask → Prop
  | call {s call timers} (other : call ≠ .scan) (step : swtmrStep clock s.timers call timers) :
      taskStep clock s (.call call) { s with timers := timers }
  | scan {s timers fuel needSchedule} (run : osSwtmrScan clock fuel s.timers = some (timers, needSchedule)) :
      taskStep clock s (.call .scan)
        { s with
          timers := timers
          gSwtmrHandlerQueue := (sent s.timers timers).foldl (push osSwtmrHandleQueueSize) s.gSwtmrHandlerQueue
          expired := s.expired ++ expirations s.timers (clock s.timers.reads) }
  | read {s} : taskStep clock s .read (osSwtmrTask s)

structure TaskBooted (s : TimerTask) : Prop where
  timers : SwtmrBooted s.timers
  queue : s.gSwtmrHandlerQueue = []
  expired : s.expired = []
  ran : s.ran = []

/-- A scan finds the queue with room for each timer that fires once, behind those that are due before. -/
def Room (clock : Nat → Nat) (s : TimerTask) : TimerEvent → Prop
  | .call .scan => ∀ t ∈ due s.timers (clock s.timers.reads), (s.timers.gSwtmrCBArray t).ucMode ≠ .period →
    s.gSwtmrHandlerQueue.length + (due s.timers (clock s.timers.reads)).idxOf t < osSwtmrHandleQueueSize
  | _ => True

/-- Each expiration of a timer that fires once is in the queue or its handler has run, once, in order. -/
def ExpirationsKept (s : TimerTask) : Prop :=
  (s.ran ++ s.gSwtmrHandlerQueue).filter HandlerEntry.single = s.expired.filter HandlerEntry.single

/-- A timer that fires once and that the step takes out of `OS_SWTMR_STATUS_TICKING`. -/
structure Fired (s s' : SwtmrState) (t : Nat) : Prop where
  bound : t < SwtmrConfig.swtmrLimit
  ticking : (s.gSwtmrCBArray t).ucState = .ticking
  single : (s.gSwtmrCBArray t).ucMode ≠ .period
  left : (s'.gSwtmrCBArray t).ucState ≠ .ticking

variable {clock : Nat → Nat} {s s' : TimerTask} {timers : SwtmrState} {t now : Nat}

omit [SwtmrConfig] in
theorem entryOf_injective (s : SwtmrState) : Function.Injective (entryOf s) := fun _ _ h =>
  congrArg HandlerEntry.timer h

theorem SwtmrInv.due_nodup (h : SwtmrInv timers) (now : Nat) : (due timers now).Nodup := h.once.filter _

theorem SwtmrInv.expirations_nodup (h : SwtmrInv timers) (now : Nat) : (expirations timers now).Nodup :=
  (h.due_nodup now).map (entryOf_injective timers)

theorem Scanned.sent {s' : SwtmrState} (h : Scanned timers now (due timers now) s') :
    sent timers s' = expirations timers now := by
  unfold Swtmr.sent expirations
  rw [h.written, List.drop_left, List.map_map]
  rfl

omit [SwtmrConfig] in
theorem entryOf_mem_take (t k : Nat) : entryOf timers t ∈ (expirations timers now).take k ↔
    t ∈ (due timers now).take k := by
  unfold expirations
  rw [← List.map_take]
  exact List.mem_map_of_injective (entryOf_injective timers)

theorem Scanned.queue {s' : SwtmrState} {q : List HandlerEntry} (h : Scanned timers now (due timers now) s') :
    (Swtmr.sent timers s').foldl (push osSwtmrHandleQueueSize) q =
      q ++ (expirations timers now).take (osSwtmrHandleQueueSize - q.length) := by
  rw [h.sent, foldl_push]

theorem Scanned.fired {s' : SwtmrState} (hinv : SwtmrInv timers) (h : Scanned timers now (due timers now) s') :
    Fired timers s' t ↔ t ∈ due timers now ∧ (timers.gSwtmrCBArray t).ucMode ≠ .period := by
  constructor
  · intro hf
    refine ⟨?_, hf.single⟩
    by_contra hdue
    obtain ⟨hcb, _⟩ := h.others t hdue
    have hleft := hf.left
    rw [hcb] at hleft
    exact hleft hf.ticking
  · intro ⟨hdue, hsingle⟩
    obtain ⟨_, hbound, hticking⟩ := (hinv.linked t).mp (List.mem_of_mem_filter hdue)
    refine ⟨hbound, hticking, hsingle, fun hstill => ?_⟩
    exact h.stopped t hdue hsingle ((h.inv.linked t).mpr ⟨nofun, hbound, hstill⟩)

theorem count_queue (hinv : SwtmrInv timers) (hdue : t ∈ due timers now) (q : List HandlerEntry) :
    (q ++ (expirations timers now).take (osSwtmrHandleQueueSize - q.length)).count (entryOf timers t) =
      q.count (entryOf timers t) + 1 ↔ q.length + (due timers now).idxOf t < osSwtmrHandleQueueSize := by
  have hnodup := (hinv.expirations_nodup now).sublist (List.take_sublist (osSwtmrHandleQueueSize - q.length) _)
  have hmem : entryOf timers t ∈ (expirations timers now).take (osSwtmrHandleQueueSize - q.length) ↔
      t ∈ (due timers now).take (osSwtmrHandleQueueSize - q.length) := entryOf_mem_take t _
  rw [List.mem_take_iff_idxOf_lt hdue] at hmem
  rw [List.count_append, Nat.add_left_cancel_iff]
  constructor
  · intro hone
    have hin := hmem.mp (List.count_pos_iff.mp (by omega))
    omega
  · intro hroom
    exact List.count_eq_one_of_mem hnodup (hmem.mpr (by omega))

/-- What every run keeps, whether or not the queue has room. -/
structure TaskInv (s : TimerTask) : Prop where
  timers : SwtmrInv s.timers
  handlers : ∀ e ∈ s.gSwtmrHandlerQueue, e.item.handler.isSome

theorem osSwtmrTask_kept (h : TaskInv s) (hkept : ExpirationsKept s) : ExpirationsKept (osSwtmrTask s) := by
  unfold osSwtmrTask
  cases hq : s.gSwtmrHandlerQueue with
  | nil => exact hkept
  | cons e rest =>
    have hsome : e.item.handler.isSome := h.handlers e (by rw [hq]; exact List.mem_cons_self)
    dsimp only
    rw [if_neg (by rw [Option.isNone_iff_eq_none]; exact Option.isSome_iff_ne_none.mp hsome)]
    unfold ExpirationsKept at hkept ⊢
    rw [hq] at hkept
    dsimp only
    rw [List.append_assoc]
    exact hkept

theorem osSwtmrTask_inv (h : TaskInv s) : TaskInv (osSwtmrTask s) := by
  unfold osSwtmrTask
  cases hq : s.gSwtmrHandlerQueue with
  | nil => exact h
  | cons e rest =>
    have hrest : ∀ e' ∈ rest, e'.item.handler.isSome := fun e' he' =>
      h.handlers e' (by rw [hq]; exact List.mem_cons_of_mem e he')
    dsimp only
    split
    · exact ⟨h.timers, hrest⟩
    · exact ⟨h.timers, hrest⟩

theorem SwtmrInv.expirations_handler (h : SwtmrInv timers) {e : HandlerEntry} (he : e ∈ expirations timers now) :
    e.item.handler.isSome := by
  obtain ⟨t, ht, rfl⟩ := List.mem_map.mp he
  obtain ⟨_, hbound, hticking⟩ := (h.linked t).mp (List.mem_of_mem_filter ht)
  exact (h.timer t hbound nofun (by rw [hticking]; nofun)).handler

theorem taskStep_inv {event : TimerEvent} (hclock : Monotone clock) (hcycle : 0 < osCyclePerTick)
    (hlimit : 0 < SwtmrConfig.swtmrLimit) (h : TaskInv s) (hstep : taskStep clock s event s') : TaskInv s' := by
  cases hstep with
  | call other step => exact ⟨swtmrStep_inv hclock hcycle hlimit h.timers step, h.handlers⟩
  | scan run =>
    have hscanned := osSwtmrScan_scanned_of_some hclock hcycle h.timers run
    refine ⟨hscanned.inv, fun e he => ?_⟩
    rw [hscanned.queue] at he
    rcases List.mem_append.mp he with he | he
    · exact h.handlers e he
    · exact h.timers.expirations_handler (List.mem_of_mem_take he)
  | read => exact osSwtmrTask_inv h

theorem taskStep_kept {event : TimerEvent} (hclock : Monotone clock) (hcycle : 0 < osCyclePerTick)
    (h : TaskInv s) (hkept : ExpirationsKept s) (hroom : Room clock s event) (hstep : taskStep clock s event s') :
    ExpirationsKept s' := by
  cases hstep with
  | call other step => exact hkept
  | scan run =>
    have hscanned := osSwtmrScan_scanned_of_some hclock hcycle h.timers run
    have hall := filter_take (h.timers.expirations_nodup (clock s.timers.reads))
      (k := osSwtmrHandleQueueSize - s.gSwtmrHandlerQueue.length) (p := HandlerEntry.single) fun e he hsingle => by
        obtain ⟨t, ht, rfl⟩ := List.mem_map.mp he
        have hplace := hroom t ht (of_decide_eq_true hsingle)
        rw [entryOf_mem_take, List.mem_take_iff_idxOf_lt ht]
        omega
    unfold ExpirationsKept at hkept ⊢
    dsimp only
    rw [hscanned.queue, ← List.append_assoc, List.filter_append, hkept, hall, List.filter_append]
  | read => exact osSwtmrTask_kept h hkept

theorem taskBooted_inv (hb : TaskBooted s) : TaskInv s := by
  refine ⟨swtmrBooted_inv hb.timers, fun e he => ?_⟩
  rw [hb.queue] at he
  cases he

/-- No expiration of a timer that fires once is lost as long as each scan finds room for it, and a scan
loses one exactly when it does not. -/
theorem swtmrExpirations_kept {s₀ : TimerTask} (hclock : Monotone clock) (hcycle : 0 < osCyclePerTick)
    (hlimit : 0 < SwtmrConfig.swtmrLimit) (hb : TaskBooted s₀) :
    (∀ events s, Run (fun s event s' => Room clock s event ∧ taskStep clock s event s') s₀ events s →
      ExpirationsKept s) ∧
    ∀ events s s', Run (taskStep clock) s₀ events s → taskStep clock s (.call .scan) s' →
      ((∀ t, Fired s.timers s'.timers t → s'.gSwtmrHandlerQueue.count (entryOf s.timers t) =
        s.gSwtmrHandlerQueue.count (entryOf s.timers t) + 1) ↔ Room clock s (.call .scan)) := by
  have hstart := taskBooted_inv hb
  constructor
  · intro events s hrun
    have hempty : ExpirationsKept s₀ := by
      unfold ExpirationsKept
      rw [hb.ran, hb.queue, hb.expired]
      rfl
    have hboth := run_invariant (fun s => TaskInv s ∧ ExpirationsKept s)
      (fun _ _ _ ⟨h, hkept⟩ ⟨hroom, hstep⟩ =>
        ⟨taskStep_inv hclock hcycle hlimit h hstep, taskStep_kept hclock hcycle h hkept hroom hstep⟩)
      hrun ⟨hstart, hempty⟩
    exact hboth.2
  · intro events s s' hrun hstep
    have h := run_invariant TaskInv (fun _ _ _ h hstep => taskStep_inv hclock hcycle hlimit h hstep) hrun hstart
    cases hstep with
    | call other step => exact absurd rfl other
    | scan run =>
      have hscanned := osSwtmrScan_scanned_of_some hclock hcycle h.timers run
      dsimp only
      rw [hscanned.queue]
      constructor
      · intro hcount t hdue hsingle
        exact (count_queue h.timers hdue _).mp (hcount t ((hscanned.fired h.timers).mpr ⟨hdue, hsingle⟩))
      · intro hroom t hfired
        obtain ⟨hdue, hsingle⟩ := (hscanned.fired h.timers).mp hfired
        exact (count_queue h.timers hdue _).mpr (hroom t hdue hsingle)

def scanTask (clock : Nat → Nat) (fuel : Nat) (s : TimerTask) : TimerTask :=
  match osSwtmrScan clock fuel s.timers with
  | none => s
  | some (timers, _) =>
    { s with
      timers := timers
      gSwtmrHandlerQueue := (sent s.timers timers).foldl (push osSwtmrHandleQueueSize) s.gSwtmrHandlerQueue
      expired := s.expired ++ expirations s.timers (clock s.timers.reads) }

theorem scanTask_step (clock : Nat → Nat) (fuel : Nat) (s : TimerTask)
    (hends : (osSwtmrScan clock fuel s.timers).isSome) :
    taskStep clock s (.call .scan) (scanTask clock fuel s) := by
  obtain ⟨⟨timers, need⟩, hrun⟩ := Option.isSome_iff_exists.mp hends
  have hstep := taskStep.scan (s := s) hrun
  unfold scanTask
  rw [hrun]
  exact hstep

end

def taskOf (timers : SwtmrState) : TimerTask := ⟨timers, [], [], []⟩

theorem taskOf_booted : letI := smallTimers; TaskBooted (taskOf timersBooted) :=
  letI := smallTimers
  ⟨timersBooted_booted, rfl, rfl, rfl⟩

theorem taskOf_create [SwtmrConfig] (clock : Nat → Nat) (s : SwtmrState) (interval : Nat) (word : interval < 2 ^ 32)
    (mode : SwtmrMode) (handler : Option Nat) (arg : Nat) :
    Room clock (taskOf s) (.call (.create interval mode handler true arg 0 0)) ∧
      taskStep clock (taskOf s) (.call (.create interval mode handler true arg 0 0))
        (taskOf (losSwtmrCreate s interval mode handler true arg 0 0).1) :=
  ⟨trivial, taskStep.call (s := taskOf s) nofun (swtmrStep.create word)⟩

theorem taskOf_start [SwtmrConfig] (clock : Nat → Nat) (s : SwtmrState) (swtmrId : Nat) :
    Room clock (taskOf s) (.call (.start false swtmrId)) ∧
      taskStep clock (taskOf s) (.call (.start false swtmrId)) (taskOf (losSwtmrStart clock s false swtmrId).1) :=
  ⟨trivial, taskStep.call (s := taskOf s) nofun swtmrStep.start⟩

def onceAlone : SwtmrState :=
  letI := smallTimers
  (losSwtmrStart (fun n => n * 30) (losSwtmrCreate timersBooted 3 .once (some 6) true 8 0 0).1 false 0).1

theorem swtmrExpirations_kept_once : letI := smallTimers
    ∃ events s, Run (fun s event s' => Room (fun n => n * 30) s event ∧ taskStep (fun n => n * 30) s event s')
      (taskOf timersBooted) events s ∧ s.gSwtmrHandlerQueue ≠ [] ∧ ExpirationsKept s := by
  let _ := smallTimers
  have hcreate := taskOf_create (fun n => n * 30) timersBooted 3 (by decide) .once (some 6) 8
  have hstart := taskOf_start (fun n => n * 30) (losSwtmrCreate timersBooted 3 .once (some 6) true 8 0 0).1 0
  have hscan := scanTask_step (fun n => n * 30) 2 (taskOf onceAlone) (by decide +kernel)
  have hroom : Room (fun n => n * 30) (taskOf onceAlone) (.call .scan) := by
    show ∀ t ∈ due onceAlone 30, (onceAlone.gSwtmrCBArray t).ucMode ≠ .period → 0 + (due onceAlone 30).idxOf t < 2
    decide +kernel
  have hrun : Run (fun s event s' => Room (fun n => n * 30) s event ∧ taskStep (fun n => n * 30) s event s')
      (taskOf timersBooted) [.call (.create 3 .once (some 6) true 8 0 0), .call (.start false 0), .call .scan]
      (scanTask (fun n => n * 30) 2 (taskOf onceAlone)) :=
    Run.snoc (Run.snoc (Run.snoc Run.nil hcreate) hstart) ⟨hroom, hscan⟩
  refine ⟨_, _, hrun, by decide +kernel, ?_⟩
  exact (swtmrExpirations_kept (fun _ _ h => Nat.mul_le_mul_right 30 h) (by decide) (by decide) taskOf_booted).1 _ _ hrun

def periodAlone : SwtmrState :=
  letI := smallTimers
  (losSwtmrStart (fun n => n * 10) (losSwtmrCreate timersBooted 1 .period (some 5) true 7 0 0).1 false 0).1

/-- With one of three ticks that fires once. -/
def onceAndPeriod : SwtmrState :=
  letI := smallTimers
  (losSwtmrStart (fun n => n * 10) (losSwtmrCreate periodAlone 3 .once (some 6) true 8 0 0).1 false 1).1

theorem onceAndPeriod_run : letI := smallTimers
    ∃ events, Run (taskStep fun n => n * 10) (taskOf timersBooted) events (taskOf onceAndPeriod) := by
  let _ := smallTimers
  have hperiod := taskOf_create (fun n => n * 10) timersBooted 1 (by decide) .period (some 5) 7
  have hfirst := taskOf_start (fun n => n * 10) (losSwtmrCreate timersBooted 1 .period (some 5) true 7 0 0).1 0
  have honce := taskOf_create (fun n => n * 10) periodAlone 3 (by decide) .once (some 6) 8
  have hsecond := taskOf_start (fun n => n * 10) (losSwtmrCreate periodAlone 3 .once (some 6) true 8 0 0).1 1
  exact ⟨_, Run.snoc (Run.snoc (Run.snoc (Run.snoc Run.nil hperiod.2) hfirst.2) honce.2) hsecond.2⟩

/-- The timer task does not get to run between two scans. The periodic timer takes both places in the queue. -/
theorem swtmrExpirations_lost : letI := smallTimers
    ∃ events s, TaskBooted (taskOf timersBooted) ∧
      Run (taskStep fun n => n * 10) (taskOf timersBooted) events s ∧ ¬ExpirationsKept s := by
  let _ := smallTimers
  obtain ⟨events, hrun⟩ := onceAndPeriod_run
  have hfirst := scanTask_step (fun n => n * 10) 3 (taskOf onceAndPeriod) (by decide +kernel)
  have hsecond := scanTask_step (fun n => n * 10) 3 (scanTask (fun n => n * 10) 3 (taskOf onceAndPeriod))
    (by decide +kernel)
  refine ⟨_, _, taskOf_booted, Run.snoc (Run.snoc hrun hfirst) hsecond, ?_⟩
  unfold ExpirationsKept
  decide +kernel

end LiteosM.Swtmr
