import LiteosM.Cpup.Run

/-!
# No cycle is lost

Between two states of a run in which no task is deleted, the times of the tasks grow together by
what the clock has advanced.
-/

namespace LiteosM.Cpup

open LiteosM.Kernel LiteosM.Lib.Metering LiteosM.Lib.Transition

def CpupEvent.deletes : CpupEvent → Prop
  | .wait (.kernel (.delete _)) => True
  | _ => False

variable [Config] [CpupConfig]

def allTaskTime (s : CpupKernel) : Nat :=
  ∑ i ∈ Finset.range gTaskMaxNum, taskTime s.kernel (s.cpup.gCpup i)

section

variable {s s' s₀ : CpupKernel} {m m' : Meter Nat} {event : CpupEvent}

theorem observed_cases (h : CpupInv s m) (hsched : s.kernel.gTaskScheduled = true) (hdel : ¬event.deletes)
    (hstep : cpupStep s event = some s') :
    observed s event s' = [] ∨ ∃ e, observed s event s' = [e] ∧ e.Keeps ∧ e.Forward m := by
  have hquery : ∀ {α : Type} (r : CpupState × Except CpupErrno α),
      watched r = [] ∨ ∃ e, watched r = [e] ∧ e.Keeps ∧ e.Forward m := by
    intro α r
    unfold watched
    split
    · exact .inr ⟨_, rfl, trivial, trivial⟩
    · exact .inl rfl
  cases event with
  | wait e =>
    obtain ⟨w, hw, rfl⟩ := Option.map_eq_some_iff.mp hstep
    cases e with
    | kernel e =>
      cases e with
      | start =>
        obtain ⟨k', hk', _⟩ := Option.map_eq_some_iff.mp hw
        simp only [kernelStep] at hk'
        rw [if_pos (show s.waits.kernel.gTaskScheduled = true from hsched)] at hk'
        cases hk'
      | elapse cycles => exact .inr ⟨_, rfl, trivial, (h.elapse hw).2⟩
      | pendSV =>
        unfold observed
        dsimp only
        split
        · exact .inr ⟨_, rfl, trivial, trivial⟩
        · exact .inl rfl
      | delete taskID => exact absurd trivial hdel
      | _ => exact .inl rfl
    | _ => exact .inl rfl
  | sysCpuUsage => exact hquery _
  | historySysCpuUsage mode => exact hquery _
  | taskCpuUsage taskID => exact hquery _
  | historyTaskCpuUsage taskID mode => exact hquery _
  | allTaskCpuUsage cpupInfo mode => exact hquery _

theorem cpupStep_scheduled (h : CpupInv s m) (hsched : s.kernel.gTaskScheduled = true)
    (hstep : cpupStep s event = some s') : s'.kernel.gTaskScheduled = true := by
  cases event with
  | wait e =>
    obtain ⟨w, hw, rfl⟩ := Option.map_eq_some_iff.mp hstep
    obtain ⟨V, hV⟩ := h.waits
    by_cases hstill : e.still
    · exact (waitStep_runKept hV.machine.inv h.newTask hstill hw).gTaskScheduled.trans hsched
    · cases e with
      | kernel e =>
        obtain ⟨k', hk', rfl⟩ := Option.map_eq_some_iff.mp hw
        cases e with
        | start =>
          simp only [kernelStep] at hk'
          rw [if_pos (show s.waits.kernel.gTaskScheduled = true from hsched)] at hk'
          cases hk'
        | elapse cycles =>
          cases hk'
          exact hsched
        | pendSV =>
          simp only [kernelStep] at hk'
          split at hk'
          · next hp =>
            obtain ⟨_, _, _, _, _, _, _, _, hs, _⟩ := halPendSV_run hV.machine hp hk'
            exact hs
          · cases hk'
        | _ => exact absurd trivial hstill
      | _ => exact absurd trivial hstill
  | sysCpuUsage => obtain ⟨_, heq⟩ := Option.ite_none_right_eq_some.mp hstep; cases heq; exact hsched
  | historySysCpuUsage mode => obtain ⟨_, heq⟩ := Option.ite_none_right_eq_some.mp hstep; cases heq; exact hsched
  | taskCpuUsage taskID => obtain ⟨_, heq⟩ := Option.ite_none_right_eq_some.mp hstep; cases heq; exact hsched
  | historyTaskCpuUsage taskID mode =>
    obtain ⟨_, heq⟩ := Option.ite_none_right_eq_some.mp hstep; cases heq; exact hsched
  | allTaskCpuUsage cpupInfo mode =>
    obtain ⟨_, heq⟩ := Option.ite_none_right_eq_some.mp hstep; cases heq; exact hsched

/-- The system is under way, and since the meter was `m₀` nothing was lost. -/
structure UnderWay (m₀ : Meter Nat) (s : CpupKernel) (m : Meter Nat) : Prop where
  inv : CpupInv s m
  scheduled : s.kernel.gTaskScheduled = true
  forward : m₀.now ≤ m.now
  kept : m₀.metered = true → m.metered = true ∧
    m.total (Finset.range gTaskMaxNum) + m₀.now = m₀.total (Finset.range gTaskMaxNum) + m.now

theorem UnderWay.step {m₀ : Meter Nat} (h : UnderWay m₀ s m) (hdel : ¬event.deletes)
    (hstep : MeteredStep (s, m) event (s', m')) : UnderWay m₀ s' m' := by
  have hinv := meteredStep_inv h.inv hstep
  have hsched := cpupStep_scheduled h.inv h.scheduled hstep.1
  have hm' : m' = meterAfter m (observed s event s') := hstep.2
  rcases observed_cases h.inv h.scheduled hdel hstep.1 with hnone | ⟨e, hone, hkeeps, hfwd⟩
  · rw [hnone] at hm'
    have hsame : m' = m := hm'
    exact ⟨hinv, hsched, by rw [hsame]; exact h.forward, by rw [hsame]; exact h.kept⟩
  · rw [hone] at hm'
    have hlast : m' = m.step CpupConfig.gSysClock e := hm'
    have hnow : m.now ≤ m'.now := by
      rw [hlast]
      exact m.now_le_step _ _ hfwd
    refine ⟨hinv, hsched, h.forward.trans hnow, fun hm => ?_⟩
    obtain ⟨hmet, hkept⟩ := h.kept hm
    obtain ⟨htotal, hmet'⟩ := m.total_step CpupConfig.gSysClock e hmet (h.inv.sound.running hmet) hkeeps hfwd
    rw [← hlast] at htotal hmet'
    exact ⟨hmet', by omega⟩

omit [CpupConfig] in
theorem MetersRight.allTaskTime (h : MetersRight s m) :
    allTaskTime s = m.total (Finset.range gTaskMaxNum) :=
  Finset.sum_congr rfl fun i hi => h.time i (Finset.mem_range.mp hi)

/-- From a state in which the running task is metered on, all the time goes to the tasks. -/
theorem cpup_conserves {events events' : List CpupEvent} (hmax : gTaskMaxNum ≤ osInvalid) (hb : CpupBooted s₀)
    (hrun : Run MeteredStep (s₀, newMeter) events (s, m)) (hsched : s.kernel.gTaskScheduled = true)
    (hstarted : (s.cpup.gCpup (runID s.kernel)).startTime ≠ 0)
    (hrun' : Run MeteredStep (s, m) events' (s', m')) (hdel : ∀ event ∈ events', ¬event.deletes)
    (hbig : losSysCycleGet s'.kernel < 2 ^ 64) :
    allTaskTime s' + losSysCycleGet s.kernel = allTaskTime s + losSysCycleGet s'.kernel := by
  have h := meteredRun_inv hmax hb hrun
  have hmono : Run (fun p event p' => MeteredStep p event p' ∧ ¬event.deletes) (s, m) events' (s', m') :=
    run_mono_mem hrun' fun _ _ event hmem hstep => ⟨hstep, hdel event hmem⟩
  have hway : UnderWay m s' m' := by
    refine run_invariant (fun p => UnderWay m p.1 p.2) ?_ hmono ⟨h, hsched, Nat.le_refl _, fun hm => ⟨hm, rfl⟩⟩
    rintro ⟨s, m⟩ event ⟨s', m'⟩ hway ⟨hstep, hdel⟩
    exact hway.step hdel hstep
  have hbig' : m'.now < 2 ^ 64 := by
    rw [← hway.inv.now]
    exact hbig
  have hright := h.metersRight (Nat.lt_of_le_of_lt hway.forward hbig')
  have hright' := hway.inv.metersRight hbig'
  obtain ⟨_, hrunning, hlt⟩ := h.turn hsched
  rw [hrunning] at hlt
  have hmet := ((hright.started _ hlt).mp hstarted).1
  rw [hright.allTaskTime, hright'.allTaskTime, h.now, hway.inv.now]
  exact (hway.kept hmet).2

omit [Config] [CpupConfig] in
theorem cpup_conserves_small :
    let _ := smallConfig
    let _ := smallCpupConfig
    ∃ p q, (smallEvents.take 4).foldlM meteredNext (smallCpup, newMeter) = some p ∧
      (smallEvents.drop 4).foldlM meteredNext p = some q ∧
      allTaskTime q.1 + losSysCycleGet p.1.kernel = allTaskTime p.1 + losSysCycleGet q.1.kernel := by
  let := smallConfig
  let := smallCpupConfig
  obtain ⟨p, hp⟩ : ∃ p, (smallEvents.take 4).foldlM meteredNext (smallCpup, newMeter) = some p :=
    Option.isSome_iff_exists.mp (by decide +kernel)
  have hstate : ((smallEvents.take 4).foldlM meteredNext (smallCpup, newMeter)).map
      (fun p => (p.1.kernel.gTaskScheduled, (p.1.cpup.gCpup (runID p.1.kernel)).startTime)) = some (true, 25) := by
    decide +kernel
  rw [hp, Option.map_some, Option.some.injEq, Prod.mk.injEq] at hstate
  have hend : ((smallEvents.take 4).foldlM meteredNext (smallCpup, newMeter)).bind
      (fun p => ((smallEvents.drop 4).foldlM meteredNext p).map fun q => losSysCycleGet q.1.kernel) = some 125 := by
    decide +kernel
  rw [hp, Option.bind_some, Option.map_eq_some_iff] at hend
  obtain ⟨q, hq, hclock⟩ := hend
  refine ⟨p, q, hp, hq, cpup_conserves (by decide) smallCpup_booted (meteredRun_of_foldlM hp) hstate.1 ?_
    (meteredRun_of_foldlM hq) ?_ ?_⟩
  · rw [hstate.2]
    decide
  · simp [smallEvents, CpupEvent.deletes]
  · rw [hclock]
    decide

end

end LiteosM.Cpup
