import Mathlib.Algebra.BigOperators.Group.Finset.Basic
import Mathlib.Algebra.Order.BigOperators.Group.Finset
import Mathlib.Algebra.GroupWithZero.Nat
import Mathlib.Algebra.Ring.Int.Defs

/-!
# Metering who runs

One of many parties runs at a time. A meter adds up how long each of them has run since it was
reset last, and at a change of the running party it takes a reading once a period has gone by.
-/

namespace LiteosM.Lib.Metering

variable {T : Type*}

/-- `readings` has the newest first. -/
structure Meter (T : Type*) where
  running : T
  metered : Bool
  now : Nat
  time : T → Nat
  readings : List (T → Nat)
  lastReading : Nat

inductive Event (T : Type*)
  /-- The clock moves on. -/
  | pass (now : Nat)
  /-- A party runs of which nobody takes the time. -/
  | enter (party : T)
  | dispatch (party : T)
  /-- From here on the running party is metered. -/
  | watch
  | reset (party : T)

section

variable [DecidableEq T]

def Meter.pass (m : Meter T) (now : Nat) : Meter T :=
  { m with
    now := now
    time := if m.metered then Function.update m.time m.running (m.time m.running + (now - m.now))
      else m.time }

def Meter.dispatch (period : Nat) (m : Meter T) (party : T) : Meter T :=
  let m := { m with running := party, metered := true }
  if period < m.now - m.lastReading then
    { m with readings := m.time :: m.readings, lastReading := m.now }
  else m

def Meter.reset (m : Meter T) (party : T) : Meter T :=
  { m with
    metered := m.metered && decide (m.running ≠ party)
    time := Function.update m.time party 0
    readings := m.readings.map fun r => Function.update r party 0 }

def Meter.step (period : Nat) (m : Meter T) : Event T → Meter T
  | .pass now => m.pass now
  | .enter party => { m with running := party, metered := false }
  | .dispatch party => m.dispatch period party
  | .watch => { m with metered := true }
  | .reset party => m.reset party

/-- The reading number `j`, zero before there were that many. -/
def Meter.reading (m : Meter T) (j : Nat) (x : T) : Nat := (m.readings[j]?.map fun r => r x).getD 0

/-- How long a party ran since the reading number `j`. -/
def Meter.since (m : Meter T) (j : Nat) (x : T) : Nat := m.time x - m.reading j x

/-- How long a party ran between two readings, the newer one first. -/
def Meter.between (m : Meter T) (i j : Nat) (x : T) : Nat := m.reading i x - m.reading j x

/-- No reading is ahead of a later one or of the meter. -/
structure Meter.Ordered (m : Meter T) : Prop where
  last : m.lastReading ≤ m.now
  time : ∀ r ∈ m.readings, ∀ x, r x ≤ m.time x
  pairs : m.readings.Pairwise fun later earlier => ∀ x, earlier x ≤ later x

/-- The clock does not go back. -/
def Event.Forward (m : Meter T) : Event T → Prop
  | .pass now => m.now ≤ now
  | _ => True

variable {m : Meter T} {e : Event T} {period now j : Nat} {x : T}

theorem Meter.reset_reading_self (m : Meter T) (x : T) (j : Nat) : (m.reset x).reading j x = 0 := by
  unfold reading reset
  rw [List.getElem?_map]
  cases m.readings[j]? <;> simp

theorem Meter.reset_reading_of_ne (m : Meter T) {x y : T} (hy : y ≠ x) (j : Nat) :
    (m.reset x).reading j y = m.reading j y := by
  unfold reading reset
  rw [List.getElem?_map]
  cases m.readings[j]? <;> simp [hy]

theorem Meter.pass_time_le (m : Meter T) (now : Nat) (x : T) : m.time x ≤ (m.pass now).time x := by
  unfold pass
  dsimp only
  split
  · rw [Function.update_apply]
    split
    · next h =>
      rw [h]
      exact Nat.le_add_right _ _
    · exact Nat.le_refl _
  · exact Nat.le_refl _

theorem Meter.Ordered.step (h : m.Ordered) (hfwd : e.Forward m) : (m.step period e).Ordered := by
  obtain ⟨hlast, htime, hpairs⟩ := h
  cases e with
  | pass now => exact ⟨Nat.le_trans hlast hfwd, fun r hr x => (htime r hr x).trans (m.pass_time_le now x), hpairs⟩
  | enter party => exact ⟨hlast, htime, hpairs⟩
  | dispatch party =>
    unfold Meter.step Meter.dispatch
    dsimp only
    split
    · refine ⟨Nat.le_refl _, fun r hr x => ?_, List.pairwise_cons.mpr ⟨fun r hr x => htime r hr x, hpairs⟩⟩
      rcases List.mem_cons.mp hr with rfl | hr
      · exact Nat.le_refl _
      · exact htime r hr x
    · exact ⟨hlast, htime, hpairs⟩
  | watch => exact ⟨hlast, htime, hpairs⟩
  | reset party =>
    refine ⟨hlast, fun r hr x => ?_, ?_⟩
    · obtain ⟨r', hr', rfl⟩ := List.mem_map.mp hr
      simp only [Meter.step, Meter.reset, Function.update_apply]
      split
      · exact Nat.le_refl _
      · exact htime r' hr' x
    · refine List.Pairwise.map _ (fun r r' hrr x => ?_) hpairs
      simp only [Function.update_apply]
      split
      · exact Nat.le_refl _
      · exact hrr x

omit [DecidableEq T] in
theorem Meter.Ordered.reading_le_time (h : m.Ordered) (j : Nat) (x : T) : m.reading j x ≤ m.time x := by
  unfold reading
  cases hr : m.readings[j]? with
  | none => exact Nat.zero_le _
  | some r => exact h.time r (List.mem_of_getElem? hr) x

omit [DecidableEq T] in
theorem Meter.Ordered.reading_anti (h : m.Ordered) {i j : Nat} (hij : i ≤ j) (x : T) :
    m.reading j x ≤ m.reading i x := by
  unfold reading
  cases hj : m.readings[j]? with
  | none => exact Nat.zero_le _
  | some r =>
    obtain ⟨hjl, hjr⟩ := List.getElem?_eq_some_iff.mp hj
    have hil : i < m.readings.length := Nat.lt_of_le_of_lt hij hjl
    rw [List.getElem?_eq_getElem hil]
    rcases Nat.eq_or_lt_of_le hij with rfl | hlt
    · rw [← hjr]
    · rw [← hjr]
      exact List.pairwise_iff_getElem.mp h.pairs i j hil hjl hlt x

def Meter.total (s : Finset T) (m : Meter T) : Nat := ∑ x ∈ s, m.time x

theorem Meter.total_pass {s : Finset T} (hrun : m.running ∈ s) (hm : m.metered = true) (now : Nat) :
    (m.pass now).total s = m.total s + (now - m.now) := by
  have hrest : ∑ x ∈ s.erase m.running, (m.pass now).time x = ∑ x ∈ s.erase m.running, m.time x := by
    refine Finset.sum_congr rfl fun x hx => ?_
    unfold pass
    rw [if_pos hm]
    exact Function.update_of_ne (Finset.ne_of_mem_erase hx) _ _
  have hself : (m.pass now).time m.running = m.time m.running + (now - m.now) := by
    unfold pass
    rw [if_pos hm]
    exact Function.update_self _ _ _
  unfold total
  rw [← Finset.add_sum_erase s _ hrun, ← Finset.add_sum_erase s m.time hrun, hrest, hself,
    Nat.add_right_comm]

theorem Meter.total_step_le {s : Finset T} (hrun : m.metered = true → m.running ∈ s) (hfwd : e.Forward m) :
    (m.step period e).total s + m.now ≤ m.total s + (m.step period e).now := by
  cases e with
  | pass now =>
    cases hm : m.metered with
    | true =>
      have h := m.total_pass (hrun hm) hm now
      have hnow : m.now ≤ now := hfwd
      simp only [Meter.step]
      rw [h]
      show _ ≤ m.total s + now
      omega
    | false =>
      have h : (m.pass now).total s = m.total s := by
        unfold total pass
        rw [hm]
        rfl
      simp only [Meter.step]
      rw [h]
      exact Nat.add_le_add_left hfwd _
  | enter party => exact Nat.le_refl _
  | dispatch party =>
    unfold Meter.step Meter.dispatch
    dsimp only
    split <;> exact Nat.le_refl _
  | watch => exact Nat.le_refl _
  | reset party =>
    refine Nat.add_le_add_right (Finset.sum_le_sum fun x _ => ?_) _
    simp only [Meter.step, Meter.reset, Function.update_apply]
    split
    · exact Nat.zero_le _
    · exact Nat.le_refl _

def Event.Within (s : Finset T) (m : Meter T) : Event T → Prop
  | .dispatch party => party ∈ s
  | .watch => m.running ∈ s
  | _ => True

/-- The meter of the parties of `s`. -/
structure Meter.Sound (s : Finset T) (m : Meter T) : Prop where
  ordered : m.Ordered
  total : m.total s ≤ m.now
  running : m.metered = true → m.running ∈ s

theorem Meter.Sound.step {s : Finset T} (h : m.Sound s) (period : Nat) (e : Event T) (hfwd : e.Forward m)
    (hin : e.Within s m) : (m.step period e).Sound s := by
  refine ⟨h.ordered.step hfwd, ?_, ?_⟩
  · have hle : (m.step period e).total s + m.now ≤ m.total s + (m.step period e).now :=
      Meter.total_step_le h.running hfwd
    have htot := h.total
    omega
  · cases e with
    | pass now => exact h.running
    | enter party => exact fun hm => absurd hm Bool.false_ne_true
    | dispatch party =>
      unfold Meter.step Meter.dispatch
      dsimp only
      split <;> exact fun _ => hin
    | watch => exact fun _ => hin
    | reset party =>
      intro hm
      exact h.running (Bool.and_eq_true_iff.mp hm).1

omit [DecidableEq T] in
theorem Meter.Sound.time_le {s : Finset T} (h : m.Sound s) (hx : x ∈ s) : m.time x ≤ m.now :=
  (Finset.single_le_sum (fun y _ => Nat.zero_le (m.time y)) hx).trans h.total

theorem Meter.now_le_step (m : Meter T) (period : Nat) (e : Event T) (hfwd : e.Forward m) :
    m.now ≤ (m.step period e).now := by
  cases e with
  | pass now => exact hfwd
  | enter party => exact Nat.le_refl _
  | dispatch party =>
    unfold Meter.step Meter.dispatch
    dsimp only
    split <;> exact Nat.le_refl _
  | watch => exact Nat.le_refl _
  | reset party => exact Nat.le_refl _

def Event.Keeps : Event T → Prop
  | .enter _ => False
  | .reset _ => False
  | _ => True

theorem Meter.total_step {s : Finset T} (period : Nat) (e : Event T) (hm : m.metered = true) (hrun : m.running ∈ s)
    (hkeeps : e.Keeps) (hfwd : e.Forward m) :
    (m.step period e).total s + m.now = m.total s + (m.step period e).now ∧ (m.step period e).metered = true := by
  cases e with
  | pass now =>
    have h := m.total_pass hrun hm now
    have hnow : m.now ≤ now := hfwd
    refine ⟨?_, hm⟩
    simp only [Meter.step]
    rw [h]
    show _ = m.total s + now
    omega
  | enter party => exact hkeeps.elim
  | dispatch party =>
    unfold Meter.step Meter.dispatch
    dsimp only
    split <;> exact ⟨rfl, rfl⟩
  | watch => exact ⟨rfl, rfl⟩
  | reset party => exact hkeeps.elim

end

end LiteosM.Lib.Metering
