import LiteosM.Ipc.MuxInv
import LiteosM.Lib.Transition

/-!
# Who acquired a mutex

A control block serves several tasks one after the other. `life` counts them, and `holder`
notes which of them a mutex went to. The two agree with the `owner` pointer as long as no
owner of a mutex is deleted.
-/

namespace LiteosM.Ipc

open LiteosM.Kernel LiteosM.Lib.DlList LiteosM.Lib.Transition

structure OwnedState extends MuxState where
  life : Nat → Nat
  holder : Nat → Option (Nat × Nat)

variable [Config]

/-- Does mutex `m` go to a new owner? -/
def changesHands (s s' : MuxState) (m : Nat) : Prop :=
  (s'.mux m).muxCount ≠ 0 ∧ ((s.mux m).muxCount = 0 ∨ (s.mux m).owner ≠ (s'.mux m).owner)

instance (s s' : MuxState) (m : Nat) : Decidable (changesHands s s' m) := by
  unfold changesHands
  infer_instance

def OwnedState.note (s : OwnedState) (s' : MuxState) : OwnedState :=
  let life := fun t =>
    if (s.kernel.status t).unused && !(s'.kernel.status t).unused then s.life t + 1 else s.life t
  { s' with
    life := life
    holder := fun m =>
      if changesHands s.toMuxState s' m then (s'.mux m).owner.map fun t => (t, life t) else s.holder m }

def ownedStep (s : OwnedState) (event : MuxEvent) : Option OwnedState :=
  (muxStep s.toMuxState event).map fun r => s.note r.1

/-- No owner of a mutex is deleted. -/
def SparesOwners (s : OwnedState) : MuxEvent → Prop
  | .kernel (.delete t) => ∀ m < Config.muxLimit, (s.mux m).muxStat = true → (s.mux m).muxCount ≠ 0 →
    (s.mux m).owner ≠ some t
  | _ => True

/-- The running task posts or takes again only a mutex that it acquired itself. -/
def OwnedByAcquirer (s : OwnedState) : Prop :=
  ∀ m s' , (muxStep s.toMuxState (.post m) = some (s', .losOk) ∨
    ∃ timeout, (s.mux m).muxCount ≠ 0 ∧ muxStep s.toMuxState (.pend m timeout) = some (s', .losOk)) →
      s.holder m = some (s.kernel.runTask, s.life s.kernel.runTask)

structure OwnedInv (s : OwnedState) (V : View Node) : Prop where
  mux : MuxInv s.toMuxState V
  holder : ∀ m < Config.muxLimit, (s.mux m).muxStat = true → (s.mux m).muxCount ≠ 0 →
    ∃ t < gTaskMaxNum, (s.mux m).owner = some t ∧ s.holder m = some (t, s.life t) ∧
      (s.kernel.status t).unused = false

section

variable {s : OwnedState} {s' : MuxState} {V V' : View Node} {event : MuxEvent} {r : MuxErrno} {t m : Nat}
  {k : KernelState}

omit [Config] in
theorem note_life (hlive : (s.kernel.status t).unused = false) : (s.note s').life t = s.life t := by
  simp [OwnedState.note, hlive]

theorem OwnedInv.note (hi : OwnedInv s V) (hi' : MuxInv s' V')
    (hlive : ∀ t < gTaskMaxNum, (∃ m < Config.muxLimit, (s.mux m).muxStat = true ∧
      (s.mux m).muxCount ≠ 0 ∧ (s.mux m).owner = some t) → (s'.kernel.status t).unused = false)
    (hstay : ∀ m < Config.muxLimit, (s'.mux m).muxStat = true → (s'.mux m).muxCount ≠ 0 →
      ((s.mux m).muxStat = true ∧ (s.mux m).muxCount ≠ 0 ∧ (s.mux m).owner = (s'.mux m).owner) ∨
      (changesHands s.toMuxState s' m ∧ ∃ t, (s'.mux m).owner = some t ∧
        (s'.kernel.status t).unused = false)) :
    ∃ V', OwnedInv (s.note s') V' := by
  refine ⟨V', hi', fun m hm hst hc => ?_⟩
  rcases hstay m hm hst hc with ⟨h1, h2, h3⟩ | ⟨hch, t, hown, hl⟩
  · obtain ⟨t, ht, hown, hhold, hl⟩ := hi.holder m hm h1 h2
    have hno : ¬ changesHands s.toMuxState s' m := by
      rintro ⟨_, h | h⟩
      · exact h2 h
      · exact h h3
    refine ⟨t, ht, h3.symm.trans hown, ?_, hlive t ht ⟨m, hm, h1, h2, hown⟩⟩
    rw [note_life hl]
    simp only [OwnedState.note]
    rw [if_neg hno]
    exact hhold
  · obtain ⟨u, hu, hou⟩ := hi'.owner m hm hst hc
    have htu : t = u := Option.some.inj (hown.symm.trans hou)
    refine ⟨t, htu ▸ hu, hown, ?_, hl⟩
    simp only [OwnedState.note]
    rw [if_pos hch, hown]
    rfl

theorem ownedStep_inv {s₁ : OwnedState} (hi : OwnedInv s V) (hsafe : SparesOwners s event)
    (hstep : ownedStep s event = some s₁) : ∃ V', OwnedInv s₁ V' := by
  unfold ownedStep at hstep
  rw [Option.map_eq_some_iff] at hstep
  obtain ⟨⟨s', r⟩, hmux, rfl⟩ := hstep
  -- an owner lives on when the statuses do not change
  have hsame : (∀ u < gTaskMaxNum, (s'.kernel.gTaskCBArray u).taskStatus.unused =
      (s.kernel.gTaskCBArray u).taskStatus.unused) → ∀ t < gTaskMaxNum, (∃ m < Config.muxLimit,
      (s.mux m).muxStat = true ∧ (s.mux m).muxCount ≠ 0 ∧ (s.mux m).owner = some t) →
      (s'.kernel.status t).unused = false := by
    rintro hu t ht ⟨m, hm, h1, h2, h3⟩
    obtain ⟨t', _, hown, _, hl⟩ := hi.holder m hm h1 h2
    have htt : t' = t := Option.some.inj (hown.symm.trans h3)
    rw [htt] at hl
    exact (hu t ht).trans hl
  cases event with
  | create muxHandle =>
    obtain ⟨s1, V1, r1, o, heq, hi1, hrel, hout⟩ := losMuxCreate_spec hi.mux muxHandle
    simp only [muxStep, heq, Option.map_some, Option.some.injEq, Prod.mk.injEq] at hmux
    rw [← hmux.1] at hsame ⊢
    refine hi.note hi1 (hsame fun u _ => by rw [hrel.task]) fun m hm hst hc => ?_
    rcases hout with ⟨h, _⟩ | ⟨_, m', _, _, _, h⟩
    · rw [h] at hst hc ⊢
      exact .inl ⟨hst, hc, rfl⟩
    · rw [h] at hst hc ⊢
      by_cases hmm : m = m'
      · rw [hmm, Function.update_self] at hc
        exact absurd rfl hc
      · rw [Function.update_of_ne hmm] at hst hc ⊢
        exact .inl ⟨hst, hc, rfl⟩
  | delete m' =>
    obtain ⟨V1, hi1, hrel, hout⟩ := losMuxDelete_spec hi.mux m'
    simp only [muxStep, Option.some.injEq] at hmux
    rw [hmux] at hi1 hrel hout
    refine hi.note hi1 (hsame fun u _ => by rw [hrel.task]) fun m hm hst hc => ?_
    rcases hout with ⟨h, _, _⟩ | ⟨_, _, hzero, _, _, h⟩
    · change s' = s.toMuxState at h
      rw [h] at hst hc ⊢
      exact .inl ⟨hst, hc, rfl⟩
    · change s'.mux = _ at h
      rw [h] at hst hc ⊢
      by_cases hmm : m = m'
      · rw [hmm, Function.update_self] at hst
        cases hst
      · rw [Function.update_of_ne hmm] at hst hc ⊢
        exact .inl ⟨hst, hc, rfl⟩
  | pend m' timeout =>
    simp only [muxStep] at hmux
    split at hmux
    · next hfree =>
      simp only [MuxState.free, Bool.and_eq_true] at hfree
      have hcaller := hi.mux.machine.calling_caller hfree.1
      obtain ⟨s1, V1, r1, heq, hi1, hout⟩ := losMuxPend_spec hi.mux hfree.1 m' timeout
      rw [heq, Option.some.injEq, Prod.mk.injEq] at hmux
      rw [← hmux.1] at hsame ⊢
      cases hout with
      | refused => exact hi.note hi1 (hsame fun _ _ => rfl) fun m hm hst hc => .inl ⟨hst, hc, rfl⟩
      | acquired bound stat count =>
        refine hi.note hi1 (hsame fun _ _ => rfl) fun m hm hst hc => ?_
        by_cases hmm : m = m'
        · right
          rw [hmm] at hc ⊢
          refine ⟨⟨hc, .inl count⟩, s.kernel.runTask, ?_, hcaller.clean.unused⟩
          rw [setMux_self]
        · rw [setMux_of_ne hmm] at hst hc ⊢
          exact .inl ⟨hst, hc, rfl⟩
      | again bound stat count owner =>
        refine hi.note hi1 (hsame fun _ _ => rfl) fun m hm hst hc => .inl ?_
        by_cases hmm : m = m'
        · rw [hmm, setMux_self]
          exact ⟨stat, count, rfl⟩
        · rw [setMux_of_ne hmm] at hst hc ⊢
          exact ⟨hst, hc, rfl⟩
      | blocked h =>
        refine hi.note hi1 (hsame h.tasks.unused) fun m hm hst hc => .inl ?_
        rw [h.mux] at hst hc ⊢
        exact ⟨hst, hc, rfl⟩
    · cases hmux
  | resume =>
    simp only [muxStep] at hmux
    split at hmux
    · next h =>
      have hi1 := losMuxPendResume_inv hi.mux h.1
      rw [Option.some.injEq] at hmux
      have hres : s'.mux = s.mux ∧ ∀ u, (s'.kernel.gTaskCBArray u).taskStatus.unused =
          (s.kernel.gTaskCBArray u).taskStatus.unused := by
        rw [show s' = (losMuxPendResume s.toMuxState).1 by rw [hmux]]
        unfold losMuxPendResume
        dsimp only
        split
        · refine ⟨rfl, fun u => ?_⟩
          by_cases hu : u = s.kernel.runTask
          · rw [hu, modifyStatus_self]
          · rw [show (s.kernel.modifyStatus s.kernel.runTask fun s => { s with timeout := false }).gTaskCBArray
              u = s.kernel.gTaskCBArray u from Function.update_of_ne hu _ _]
        · exact ⟨rfl, fun _ => rfl⟩
      rw [hmux] at hi1
      refine hi.note hi1 (hsame fun u _ => hres.2 u) fun m hm hst hc => .inl ?_
      change (s'.mux m).muxStat = true at hst
      change (s'.mux m).muxCount ≠ 0 at hc
      show _ ∧ _ ∧ (s.mux m).owner = (s'.mux m).owner
      rw [hres.1] at hst hc ⊢
      exact ⟨hst, hc, rfl⟩
    · cases hmux
  | post m' =>
    simp only [muxStep] at hmux
    split at hmux
    · next hfree =>
      simp only [MuxState.free, Bool.and_eq_true] at hfree
      obtain ⟨s1, V1, r1, heq, hi1, hout⟩ := losMuxPost_spec hi.mux hfree.1 m'
      rw [heq, Option.some.injEq, Prod.mk.injEq] at hmux
      rw [← hmux.1] at hsame ⊢
      cases hout with
      | refused => exact hi.note hi1 (hsame fun _ _ => rfl) fun m hm hst hc => .inl ⟨hst, hc, rfl⟩
      | released held more =>
        refine hi.note hi1 (hsame fun _ _ => rfl) fun m hm hst hc => .inl ?_
        by_cases hmm : m = m'
        · rw [hmm, setMux_self]
          exact ⟨held.stat, held.count, rfl⟩
        · rw [setMux_of_ne hmm] at hst hc ⊢
          exact ⟨hst, hc, rfl⟩
      | freed held last h =>
        refine hi.note hi1 (hsame h.tasks.unused) fun m hm hst hc => .inl ?_
        rw [h.mux] at hst hc ⊢
        by_cases hmm : m = m'
        · rw [hmm, Function.update_self] at hc
          exact absurd rfl hc
        · rw [Function.update_of_ne hmm] at hst hc ⊢
          exact ⟨hst, hc, rfl⟩
      | handed held last h =>
        rename_i w
        refine hi.note hi1 (hsame h.tasks.unused) fun m hm hst hc => ?_
        rw [h.mux] at hst hc ⊢
        by_cases hmm : m = m'
        · right
          have hlive := (hi.mux.machine.inv.task w h.bound).of_pend
            (hi.mux.machine.inv.pend_of_wait h.bound h.waited)
          rw [hmm, Function.update_self]
          refine ⟨?_, w, rfl, (h.tasks.unused w h.bound).trans hlive.1⟩
          unfold changesHands
          rw [h.mux, Function.update_self, held.owner]
          exact ⟨Nat.one_ne_zero, .inr fun he => h.other (Option.some.inj he).symm⟩
        · rw [Function.update_of_ne hmm] at hst hc ⊢
          exact .inl ⟨hst, hc, rfl⟩
    · cases hmux
  | kernel e =>
    simp only [muxStep] at hmux
    split at hmux
    · cases hmux
    · simp only [Option.map_eq_some_iff, Prod.mk.injEq] at hmux
      obtain ⟨k, heq, hs, _⟩ := hmux
      obtain ⟨V1, hi1, hq⟩ := hi.mux.settle heq
      rw [← hs]
      refine hi.note hi1 ?_ fun m hm hst hc => .inl ⟨hst, hc, rfl⟩
      rintro t ht ⟨m, hm, h1, h2, h3⟩
      obtain ⟨t', _, hown, _, hl⟩ := hi.holder m hm h1 h2
      have htt : t' = t := Option.some.inj (hown.symm.trans h3)
      rw [htt] at hl
      refine Quieted.live hq (fun u he htu => ?_) ht hl
      rw [he, htu] at hsafe
      exact hsafe m hm h1 h2 h3

theorem OwnedInv.byAcquirer (hi : OwnedInv s V) : OwnedByAcquirer s := by
  have hheld : ∀ m, MuxHeld s.toMuxState m →
      s.holder m = some (s.kernel.runTask, s.life s.kernel.runTask) := by
    intro m hm
    obtain ⟨t, _, hown, hhold, _⟩ := hi.holder m hm.bound hm.stat hm.count
    have htr : t = s.kernel.runTask := Option.some.inj (hown.symm.trans hm.owner)
    rw [hhold, htr]
  intro m s' h
  rcases h with h | ⟨timeout, hc, h⟩
  · simp only [muxStep] at h
    split at h
    · next hfree =>
      simp only [MuxState.free, Bool.and_eq_true] at hfree
      obtain ⟨s1, V1, r1, heq, _, hout⟩ := losMuxPost_spec hi.mux hfree.1 m
      rw [heq, Option.some.injEq, Prod.mk.injEq] at h
      rw [h.2] at hout
      cases hout with
      | released held => exact hheld m held
      | freed held => exact hheld m held
      | handed held => exact hheld m held
    · cases h
  · simp only [muxStep] at h
    split at h
    · next hfree =>
      simp only [MuxState.free, Bool.and_eq_true] at hfree
      obtain ⟨s1, V1, r1, heq, _, hout⟩ := losMuxPend_spec hi.mux hfree.1 m timeout
      rw [heq, Option.some.injEq, Prod.mk.injEq] at h
      rw [h.2] at hout
      cases hout with
      | refused h₁ => exact absurd rfl h₁
      | acquired _ _ count => exact absurd count hc
      | again bound stat count owner => exact hheld m ⟨bound, stat, count, owner⟩
    · cases h

/-- In a run that deletes no owner, the one who posts is the one who acquired. -/
theorem losMuxPost_by_acquirer {s₀ : OwnedState} {events : List MuxEvent}
    (hmax : gTaskMaxNum ≤ osInvalid) (hb : MuxBooted s₀.toMuxState)
    (hrun : Run (fun s event s' => ownedStep s event = some s' ∧ SparesOwners s event) s₀ events s) :
    OwnedByAcquirer s := by
  have hstart : ∃ V, OwnedInv s₀ V := by
    obtain ⟨V, hi, _, hstat, _⟩ := muxBooted_inv hmax hb
    refine ⟨V, hi, fun m hm h => ?_⟩
    rw [hstat m hm] at h
    cases h
  obtain ⟨V, hi⟩ : ∃ V, OwnedInv s V := run_invariant (fun s => ∃ V, OwnedInv s V)
    (fun _ _ _ ⟨_, h⟩ hstep => ownedStep_inv h hstep.2 hstep.1) hrun hstart
  exact hi.byAcquirer

end

def smallOwned : OwnedState := ⟨smallMux, fun _ => 0, fun _ => none⟩

instance instDecidableSparesOwners (s : OwnedState) : (event : MuxEvent) → Decidable (SparesOwners s event)
  | .kernel (.delete t) => inferInstanceAs (Decidable (∀ m < Config.muxLimit, (s.mux m).muxStat = true →
      (s.mux m).muxCount ≠ 0 → (s.mux m).owner ≠ some t))
  | .kernel (.create ..) | .kernel (.createOnly ..) | .kernel (.suspend _) | .kernel (.resume _)
  | .kernel (.priSet ..) | .kernel .yield | .kernel (.delay _) | .kernel .lock | .kernel .unlock
  | .kernel .schedule | .kernel .start | .kernel (.tick _) | .kernel .pendSV | .kernel (.elapse _)
  | .create _ | .delete _ | .pend .. | .resume | .post _ => isTrue trivial

/-- A task takes a mutex, posts it and deletes itself. Another one gets its control block and takes the mutex. -/
def reuseEvents : List MuxEvent :=
  [.create true, .kernel (smallTask 5), .kernel .start, .pend 0 0, .post 0, .kernel (.delete 1), .kernel .pendSV,
    .kernel (smallTask 6), .kernel .pendSV, .pend 0 0]

omit [Config] in
/-- The second task in the control block may post, and it is the one that acquired. -/
theorem losMuxPost_by_acquirer_small :
    letI := smallConfig
    ∃ s s', Run (fun s event s' => ownedStep s event = some s' ∧ SparesOwners s event) smallOwned reuseEvents s ∧
      s.kernel.runTask = 1 ∧ s.life 1 = 2 ∧ muxStep s.toMuxState (.post 0) = some (s', .losOk) ∧
      s.holder 0 = some (1, 2) ∧ OwnedByAcquirer s := by
  let := smallConfig
  have hrun : (reuseEvents.foldlM (guarded SparesOwners ownedStep) smallOwned).map (fun s => (s.kernel.runTask,
      s.life 1, (muxStep s.toMuxState (.post 0)).map Prod.snd)) = some (1, 2, some .losOk) := by decide +kernel
  obtain ⟨s, hs, hval⟩ := Option.map_eq_some_iff.mp hrun
  simp only [Prod.mk.injEq] at hval
  obtain ⟨hrunTask, hlife, hpost⟩ := hval
  obtain ⟨⟨s', r⟩, hpost, rfl⟩ := Option.map_eq_some_iff.mp hpost
  have hsteps := run_of_guarded hs
  have hown := losMuxPost_by_acquirer (by decide) smallMux_booted hsteps
  have hholder := hown 0 s' (.inl hpost)
  rw [hrunTask, hlife] at hholder
  exact ⟨s, s', hsteps, hrunTask, hlife, hpost, hholder, hown⟩

/-- A task deletes itself while it holds a mutex, and another one gets its control block. -/
def inheritEvents : List MuxEvent :=
  [.create true, .kernel (smallTask 5), .kernel .start, .pend 0 0, .kernel (.delete 1), .kernel .pendSV,
    .kernel (smallTask 6), .kernel .pendSV]

omit [Config] in
/-- The new task posts the mutex of the one before it. -/
theorem losMuxPost_by_stranger :
    letI := smallConfig
    ∃ s, MuxBooted smallOwned.toMuxState ∧
      Run (fun s event s' => ownedStep s event = some s') smallOwned inheritEvents s ∧
      ¬ OwnedByAcquirer s := by
  let := smallConfig
  have hrun : (inheritEvents.foldlM ownedStep smallOwned).map (fun s => (s.holder 0,
      (s.kernel.runTask, s.life s.kernel.runTask),
      (muxStep s.toMuxState (.post 0)).map fun r => r.2)) =
      some (some (1, 1), (1, 2), some .losOk) := by decide +kernel
  rw [Option.map_eq_some_iff] at hrun
  obtain ⟨s, hs, hval⟩ := hrun
  rw [Prod.mk.injEq, Prod.mk.injEq, Option.map_eq_some_iff] at hval
  obtain ⟨hhold, hlife, ⟨⟨s', r⟩, hpost, hr⟩⟩ := hval
  refine ⟨s, smallMux_booted, run_of_foldlM hs, fun hown => ?_⟩
  change r = MuxErrno.losOk at hr
  rw [hr] at hpost
  have h := hown 0 s' (.inl hpost)
  rw [hhold, hlife] at h
  cases h

end LiteosM.Ipc
