import LiteosM.Ipc.MuxInv
import LiteosM.Lib.Transition

/-!
# Priorities of mutex owners

A mutex remembers the priority that its owner had when it got it, and gives that back at
the last post. What follows for the priority of a task depends on the order in which it
takes and posts its mutexes.
-/

namespace LiteosM.Ipc

open LiteosM.Kernel LiteosM.Lib.DlList LiteosM.Lib.Transition

/-- `base` is the priority with which each task was created. -/
structure BasedState extends MuxState where
  base : Nat → Nat

variable [Config]

def BasedState.note (s : BasedState) (s' : MuxState) : BasedState :=
  { s' with
    base := fun t =>
      if (s.kernel.status t).unused && !(s'.kernel.status t).unused then
        (s'.kernel.gTaskCBArray t).priority
      else s.base t }

def basedStep (s : BasedState) (event : MuxEvent) : Option BasedState :=
  (muxStep s.toMuxState event).map fun r => s.note r.1

def Holds (s : MuxState) (m t : Nat) : Prop :=
  m < Config.muxLimit ∧ (s.mux m).muxStat = true ∧ (s.mux m).muxCount ≠ 0 ∧ (s.mux m).owner = some t

/-- Neither deletion nor an explicit change of priority, and no overflow of `muxCount`. -/
def Ordinary (s : MuxState) : MuxEvent → Prop
  | .kernel (.delete _) => False
  | .kernel (.priSet _ _) => False
  | .pend m _ => (s.mux m).owner = some s.kernel.runTask → (s.mux m).muxCount + 1 < 2 ^ 16
  | _ => True

/-- The post that leaves a task without a mutex gives it back the priority it was created with. -/
def RestoresBase (s : BasedState) : MuxEvent → Prop
  | .post m => Holds s.toMuxState m s.kernel.runTask → (s.mux m).muxCount = 1 →
    (∀ m', m' ≠ m → ¬ Holds s.toMuxState m' s.kernel.runTask) →
      (s.mux m).priority = s.base s.kernel.runTask
  | _ => True

/-- Who holds no mutex has the priority it was created with. -/
def PriorityRestored (s : BasedState) : Prop :=
  ∀ t < gTaskMaxNum, (s.kernel.status t).unused = false → (∀ m, ¬ Holds s.toMuxState m t) →
    (s.kernel.gTaskCBArray t).priority = s.base t

section

variable {s : BasedState} {s' : MuxState} {V V' : View Node} {event : MuxEvent} {t m : Nat}
  {k : KernelState}

/-- The new state is right about every task that holds nothing, if that task held nothing before or
is dealt with. -/
theorem PriorityRestored.note (h : PriorityRestored s)
    (hstep : ∀ t < gTaskMaxNum, (s.kernel.status t).unused = false →
      (s'.kernel.status t).unused = false → (∀ m, ¬ Holds s' m t) →
      ((∀ m, ¬ Holds s.toMuxState m t) ∧
        (s'.kernel.gTaskCBArray t).priority = (s.kernel.gTaskCBArray t).priority) ∨
      (s'.kernel.gTaskCBArray t).priority = s.base t) : PriorityRestored (s.note s') := by
  intro t ht hlive hnone
  change (s'.kernel.status t).unused = false at hlive
  change ∀ m, ¬ Holds s' m t at hnone
  show (s'.kernel.gTaskCBArray t).priority = if (s.kernel.status t).unused &&
    !(s'.kernel.status t).unused then (s'.kernel.gTaskCBArray t).priority else s.base t
  cases hu : (s.kernel.status t).unused with
  | true => simp [hlive]
  | false =>
    rw [if_neg (by simp)]
    rcases hstep t ht hu hlive hnone with ⟨h1, h2⟩ | h1
    · rw [h2]
      exact h t ht hu h1
    · exact h1

theorem holds_setMux {s : MuxState} {cb : LosMuxCB} {m' : Nat} (hne : m' ≠ m) :
    Holds (s.setMux m cb) m' t ↔ Holds s m' t := by
  unfold Holds
  rw [setMux_of_ne hne]

theorem basedStep_inv {s₁ : BasedState} (hi : MuxInv s.toMuxState V) (h : PriorityRestored s)
    (hord : Ordinary s.toMuxState event) (hres : RestoresBase s event)
    (hstep : basedStep s event = some s₁) :
    ∃ V', MuxInv s₁.toMuxState V' ∧ PriorityRestored s₁ := by
  unfold basedStep at hstep
  rw [Option.map_eq_some_iff] at hstep
  obtain ⟨⟨s', r⟩, hmux, rfl⟩ := hstep
  cases event with
  | create muxHandle =>
    obtain ⟨s1, V1, r1, o, heq, hi1, hrel, hout⟩ := losMuxCreate_spec hi muxHandle
    simp only [muxStep, heq, Option.map_some, Option.some.injEq, Prod.mk.injEq] at hmux
    rw [← hmux.1]
    refine ⟨V1, hi1, h.note fun t _ _ _ hnone => .inl ⟨fun m hm => ?_, by rw [hrel.task]⟩⟩
    rcases hout with ⟨hx, _⟩ | ⟨_, m', _, _, hst, hx⟩
    · exact hnone m (by unfold Holds; rw [hx]; exact hm)
    · have hne : m ≠ m' := by
        rintro rfl
        cases hst.symm.trans hm.2.1
      exact hnone m (by unfold Holds; rw [hx, Function.update_of_ne hne]; exact hm)
  | delete m' =>
    obtain ⟨V1, hi1, hrel, hout⟩ := losMuxDelete_spec hi m'
    simp only [muxStep, Option.some.injEq] at hmux
    rw [hmux] at hi1 hrel hout
    refine ⟨V1, hi1, h.note fun t _ _ _ hnone => .inl ⟨fun m hm => ?_, by rw [hrel.task]⟩⟩
    rcases hout with ⟨hx, _, _⟩ | ⟨_, _, hzero, _, _, hx⟩
    · change s' = s.toMuxState at hx
      exact hnone m (by rw [hx]; exact hm)
    · change s'.mux = _ at hx
      have hne : m ≠ m' := by
        rintro rfl
        exact hm.2.2.1 hzero
      exact hnone m (by unfold Holds; rw [hx, Function.update_of_ne hne]; exact hm)
  | pend m' timeout =>
    simp only [muxStep] at hmux
    split at hmux
    · next hfree =>
      simp only [MuxState.free, Bool.and_eq_true] at hfree
      obtain ⟨s1, V1, r1, heq, hi1, hout⟩ := losMuxPend_spec hi hfree.1 m' timeout
      rw [heq, Option.some.injEq, Prod.mk.injEq] at hmux
      rw [← hmux.1]
      refine ⟨V1, hi1, h.note fun t ht _ _ hnone => .inl ?_⟩
      cases hout with
      | refused => exact ⟨hnone, rfl⟩
      | acquired bound stat count =>
        refine ⟨fun m hm => ?_, rfl⟩
        have hne : m ≠ m' := by
          rintro rfl
          exact hm.2.2.1 count
        exact hnone m ((holds_setMux hne).mpr hm)
      | again bound stat count owner =>
        refine ⟨fun m hm => ?_, rfl⟩
        by_cases hmm : m = m'
        · rw [hmm] at hm
          apply hnone m'
          unfold Holds
          rw [setMux_self]
          refine ⟨bound, stat, ?_, hm.2.2.2⟩
          have hsmall := hord owner
          show ((s.mux m').muxCount + 1) % 2 ^ 16 ≠ 0
          rw [Nat.mod_eq_of_lt hsmall]
          exact Nat.succ_ne_zero _
        · exact hnone m ((holds_setMux hmm).mpr hm)
      | blocked hb =>
        rename_i o
        have hno : ∀ m, ¬ Holds s.toMuxState m t := fun m hm => hnone m (by
          unfold Holds
          rw [hb.mux]
          exact hm)
        refine ⟨hno, (hb.tasks.priority t ht).trans (if_neg fun hx => ?_)⟩
        rw [hx.1] at hno
        exact hno m' ⟨hb.bound, hb.stat, hb.count, hb.owner⟩
    · cases hmux
  | resume =>
    simp only [muxStep] at hmux
    split at hmux
    · next hc =>
      have hi1 := losMuxPendResume_inv hi hc.1
      rw [Option.some.injEq] at hmux
      have hsame : s'.mux = s.mux ∧ ∀ u, (s'.kernel.gTaskCBArray u).priority =
          (s.kernel.gTaskCBArray u).priority := by
        rw [show s' = (losMuxPendResume s.toMuxState).1 by rw [hmux]]
        unfold losMuxPendResume
        dsimp only
        split
        · refine ⟨rfl, fun u => ?_⟩
          by_cases hu : u = s.kernel.runTask
          · rw [hu, modifyStatus_self]
          · rw [show (s.kernel.modifyStatus s.kernel.runTask fun s => { s with timeout := false }).gTaskCBArray
              u = s.kernel.gTaskCBArray u from Function.update_of_ne hu _ _]
        · exact ⟨rfl, fun _ => rfl⟩
      rw [hmux] at hi1
      refine ⟨V, hi1, h.note fun t _ _ _ hnone => .inl ⟨fun m hm => hnone m ?_, hsame.2 t⟩⟩
      unfold Holds
      rw [hsame.1]
      exact hm
    · cases hmux
  | post m' =>
    simp only [muxStep] at hmux
    split at hmux
    · next hfree =>
      simp only [MuxState.free, Bool.and_eq_true] at hfree
      obtain ⟨s1, V1, r1, heq, hi1, hout⟩ := losMuxPost_spec hi hfree.1 m'
      rw [heq, Option.some.injEq, Prod.mk.injEq] at hmux
      rw [← hmux.1]
      refine ⟨V1, hi1, h.note fun t ht _ _ hnone => ?_⟩
      -- a task other than the poster keeps what it has
      have hlast : ∀ cb : LosMuxCB, s1.mux = Function.update s.mux m' cb → MuxHeld s.toMuxState m' →
          (s.mux m').muxCount = 1 → MuxTasks s.kernel s1.kernel (fun u =>
            if u = s.kernel.runTask then (s.mux m').priority else (s.kernel.gTaskCBArray u).priority) →
          ((∀ m, ¬ Holds s.toMuxState m t) ∧
            (s1.kernel.gTaskCBArray t).priority = (s.kernel.gTaskCBArray t).priority) ∨
          (s1.kernel.gTaskCBArray t).priority = s.base t := by
        intro cb hcb held hone htasks
        have hothers : ∀ m, m ≠ m' → ¬ Holds s.toMuxState m t := fun m hne hm => hnone m (by
          unfold Holds
          rw [hcb, Function.update_of_ne hne]
          exact hm)
        by_cases htr : t = s.kernel.runTask
        · right
          rw [htasks.priority t ht, if_pos htr, htr]
          rw [htr] at hothers
          exact hres ⟨held.bound, held.stat, held.count, held.owner⟩ hone hothers
        · left
          refine ⟨fun m hm => ?_, (htasks.priority t ht).trans (if_neg htr)⟩
          by_cases hmm : m = m'
          · rw [hmm] at hm
            exact htr (Option.some.inj (hm.2.2.2.symm.trans held.owner))
          · exact hothers m hmm hm
      cases hout with
      | refused => exact .inl ⟨hnone, rfl⟩
      | released held more =>
        refine .inl ⟨fun m hm => ?_, rfl⟩
        by_cases hmm : m = m'
        · rw [hmm] at hm
          apply hnone m'
          unfold Holds
          rw [setMux_self]
          have hpos := held.count
          exact ⟨held.bound, held.stat, by show (s.mux m').muxCount - 1 ≠ 0; omega, hm.2.2.2⟩
        · exact hnone m ((holds_setMux hmm).mpr hm)
      | freed held last hf => exact hlast _ hf.mux held last hf.tasks
      | handed held last hh => exact hlast _ hh.mux held last hh.tasks
    · cases hmux
  | kernel e =>
    simp only [muxStep] at hmux
    split at hmux
    · cases hmux
    · simp only [Option.map_eq_some_iff, Prod.mk.injEq] at hmux
      obtain ⟨k, heq, hs, _⟩ := hmux
      obtain ⟨V1, hi1, hq⟩ := hi.settle heq
      rw [← hs]
      refine ⟨V1, hi1, h.note fun t ht hlive _ hnone => .inl ⟨hnone, ?_⟩⟩
      show (k.gTaskCBArray t).priority = (s.kernel.gTaskCBArray t).priority
      refine Quieted.priority hq ?_ ?_ ht hlive
      · rintro u rfl
        exact hord
      · rintro u p rfl
        exact hord

/-- In a run whose posts restore, a task without a mutex has its own priority. -/
theorem losMuxPost_restores_priority {s₀ : BasedState} {events : List MuxEvent}
    (hmax : gTaskMaxNum ≤ osInvalid) (hb : MuxBooted s₀.toMuxState)
    (hbase : ∀ t, s₀.base t = (s₀.kernel.gTaskCBArray t).priority)
    (hrun : Run (fun s event s' => basedStep s event = some s' ∧ Ordinary s.toMuxState event ∧
      RestoresBase s event) s₀ events s) : PriorityRestored s := by
  have hstart : (∃ V, MuxInv s₀.toMuxState V) ∧ PriorityRestored s₀ := by
    obtain ⟨V, hi, _⟩ := muxBooted_inv hmax hb
    exact ⟨⟨V, hi⟩, fun t _ _ _ => (hbase t).symm⟩
  have hall : (∃ V, MuxInv s.toMuxState V) ∧ PriorityRestored s := by
    refine run_invariant (fun s => (∃ V, MuxInv s.toMuxState V) ∧ PriorityRestored s) ?_ hrun hstart
    rintro s event s' ⟨⟨V, hi⟩, h⟩ ⟨hstep, hord, hres⟩
    obtain ⟨V', hi', h'⟩ := basedStep_inv hi h hord hres hstep
    exact ⟨⟨V', hi'⟩, h'⟩
  exact hall.2

end

def smallBased : BasedState := ⟨smallMux, fun t => (smallMux.kernel.gTaskCBArray t).priority⟩

instance instDecidableOrdinary (s : MuxState) : (event : MuxEvent) → Decidable (Ordinary s event)
  | .kernel (.delete _) | .kernel (.priSet ..) => isFalse id
  | .pend m _ => inferInstanceAs (Decidable ((s.mux m).owner = some s.kernel.runTask →
      (s.mux m).muxCount + 1 < 2 ^ 16))
  | .kernel (.create ..) | .kernel (.createOnly ..) | .kernel (.suspend _) | .kernel (.resume _)
  | .kernel .yield | .kernel (.delay _) | .kernel .lock | .kernel .unlock
  | .kernel .schedule | .kernel .start | .kernel (.tick _) | .kernel .pendSV | .kernel (.elapse _)
  | .create _ | .delete _ | .resume | .post _ => isTrue trivial

/-- Every post gives back the priority of the creation. -/
def givesBase (s : BasedState) : MuxEvent → Bool
  | .post m => (s.mux m).priority = s.base s.kernel.runTask
  | _ => true

theorem givesBase_restores {s : BasedState} {event : MuxEvent} (h : givesBase s event) : RestoresBase s event := by
  cases event with
  | post m => exact fun _ _ _ => of_decide_eq_true h
  | create | delete | pend | resume | kernel => trivial

/-- A task of priority 10 takes two mutexes, inherits priority 5 at the first one, and posts them the last one first.
The task of priority 5 gets the first one and posts it. -/
def nestedPosts : List MuxEvent :=
  [.create true, .create true, .kernel (smallTask 10), .kernel .start, .pend 0 0, .pend 1 0,
    .kernel (smallTask 5), .kernel .pendSV, .pend 0 losWaitForever, .kernel .pendSV, .post 1, .post 0,
    .kernel .pendSV, .resume, .post 0]

omit [Config] in
/-- While the task of priority 5 waits, and after the last post. -/
theorem losMuxPost_restores_priority_small :
    letI := smallConfig
    MuxBooted smallBased.toMuxState ∧ ∀ x ∈ [(10, 5, true), (15, 10, false)], ∃ s,
      Run (fun s event s' => basedStep s event = some s' ∧ Ordinary s.toMuxState event ∧ RestoresBase s event)
        smallBased (nestedPosts.take x.1) s ∧
      s.base 1 = 10 ∧ (s.kernel.gTaskCBArray 1).priority = x.2.1 ∧
      (x.2.2 ↔ Holds s.toMuxState 0 1) ∧ (∀ m, ¬ Holds s.toMuxState m 2) ∧
      (s.kernel.gTaskCBArray 2).priority = s.base 2 ∧ PriorityRestored s := by
  let := smallConfig
  refine ⟨smallMux_booted, fun x hx => ?_⟩
  have hrun : ((nestedPosts.take x.1).foldlM
      (guarded (fun s event => Ordinary s.toMuxState event ∧ givesBase s event) basedStep) smallBased).map (fun s =>
        (s.base 1, (s.kernel.gTaskCBArray 1).priority, (s.kernel.status 2).unused,
          decide ((s.mux 0).muxStat ∧ (s.mux 0).muxCount ≠ 0 ∧ (s.mux 0).owner = some 1),
          decide ((s.mux 0).muxCount ≠ 0 → (s.mux 0).owner ≠ some 2),
          decide ((s.mux 1).muxCount ≠ 0 → (s.mux 1).owner ≠ some 2))) =
      some (10, x.2.1, false, x.2.2, true, true) := by
    simp only [List.mem_cons, List.not_mem_nil, or_false] at hx
    rcases hx with rfl | rfl
    · decide +kernel
    · decide +kernel
  obtain ⟨s, hs, hval⟩ := Option.map_eq_some_iff.mp hrun
  simp only [Prod.mk.injEq, decide_eq_true_eq] at hval
  obtain ⟨hbase, hprio, hlive, hholds, hfirst, hsecond⟩ := hval
  have hsteps : Run (fun s event s' => basedStep s event = some s' ∧ Ordinary s.toMuxState event ∧
      RestoresBase s event) smallBased (nestedPosts.take x.1) s :=
    run_mono (fun _ _ _ h => ⟨h.1, h.2.1, givesBase_restores h.2.2⟩) (run_of_guarded hs)
  have hrestored := losMuxPost_restores_priority (by decide) smallMux_booted (fun _ => rfl) hsteps
  have hno : ∀ m, ¬ Holds s.toMuxState m 2 := by
    rintro m ⟨hm, _, hcount, howner⟩
    obtain rfl | rfl : m = 0 ∨ m = 1 := by
      have hm' : m < 2 := hm
      omega
    · exact hfirst hcount howner
    · exact hsecond hcount howner
  refine ⟨s, hsteps, hbase, hprio, ?_, hno, hrestored 2 (by decide) hlive hno, hrestored⟩
  rw [← hholds, decide_eq_true_eq]
  exact ⟨fun h => ⟨by decide, h⟩, fun h => h.2⟩

/-- A task of priority 10 takes mutex 0, inherits priority 5 there, takes mutex 1, and posts them
in the order in which it took them. -/
def unnestedEvents : List MuxEvent :=
  [.create true, .create true, .kernel (smallTask 10), .kernel .start, .pend 0 0,
    .kernel (smallTask 5), .kernel .pendSV, .pend 0 losWaitForever, .kernel .pendSV, .pend 1 0, .post 0,
    .kernel .pendSV, .resume, .kernel (.delay 10), .kernel .pendSV, .post 1]

omit [Config] in
/-- The task of priority 10 is left without a mutex and with priority 5. -/
theorem losMuxPost_keeps_boost :
    letI := smallConfig
    ∃ s, MuxBooted smallBased.toMuxState ∧
      Run (fun s event s' => basedStep s event = some s') smallBased unnestedEvents s ∧
      ¬ PriorityRestored s := by
  let := smallConfig
  have hrun : (unnestedEvents.foldlM basedStep smallBased).map (fun s =>
      ((s.kernel.status 1).unused, (s.kernel.gTaskCBArray 1).priority, s.base 1,
        (s.mux 0).owner, (s.mux 1).muxCount)) = some (false, 5, 10, some 2, 0) := by decide +kernel
  rw [Option.map_eq_some_iff] at hrun
  obtain ⟨s, hs, hval⟩ := hrun
  simp only [Prod.mk.injEq] at hval
  obtain ⟨hlive, hprio, hbase, hown, hcount⟩ := hval
  refine ⟨s, smallMux_booted, run_of_foldlM hs, fun hrestored => ?_⟩
  have hnone : ∀ m, ¬ Holds s.toMuxState m 1 := by
    rintro m ⟨hm, _, hc, ho⟩
    have hcases : m = 0 ∨ m = 1 := by
      have hm' : m < 2 := hm
      omega
    rcases hcases with rfl | rfl
    · rw [hown] at ho
      cases ho
    · exact hc hcount
  have h := hrestored 1 (by decide) hlive hnone
  rw [hprio, hbase] at h
  cases h

end LiteosM.Ipc
