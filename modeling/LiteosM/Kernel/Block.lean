import LiteosM.Kernel.Wake

/-!
# Blocking, leaving and changing priority
-/

namespace LiteosM.Kernel

open LiteosM.Lib.DlList

/-- The status of a task that neither waits nor has been stopped. -/
structure Clean (s : TaskStatus) : Prop where
  unused : s.unused = false
  ready : s.ready = false
  suspend : s.suspend = false
  pend : s.pend = false
  delay : s.delay = false
  pendTime : s.pendTime = false

def waiting (s : TaskStatus) (ticks : Nat) : TaskStatus :=
  { s with pend := true, pendTime := if ticks = losWaitForever then s.pendTime else true }

variable [Config]

section

variable {k k' : KernelState} {V V' : View Node} {t : Nat} {l : WaitList}

theorem KernelInv.run_role (hi : KernelInv k V) (hrun : k.runTask < gTaskMaxNum)
    (hs : Clean (k.gTaskCBArray k.runTask).taskStatus) :
    V.role (.pendList k.runTask) = .loose ∧ V.role (.sortLinkNode k.runTask) = .loose := by
  have ho := hi.task k.runTask hrun
  exact ⟨ho.off hs.unused (fun h => by simp [hs.ready] at h) hs.pend, ho.untimed fun _ => rfl⟩

theorem osSchedTaskWait_spec (hi : KernelInv k V) (hrun : k.runTask < gTaskMaxNum)
    (hidle : k.runTask ≠ k.gIdleTaskID) (hs : Clean (k.gTaskCBArray k.runTask).taskStatus)
    (hhead : V.role (.wait l) = .head) (ticks : Nat) :
    ∃ V', V' = V.put (.pendList k.runTask) (.wait l)
        (V.content (.wait l) ++ [.pendList k.runTask]) ∧
      KernelInv (osSchedTaskWait k l ticks) V' ∧
      Touched k.runTask k V (osSchedTaskWait k l ticks) V' ∧
      ((osSchedTaskWait k l ticks).gTaskCBArray k.runTask).taskStatus =
        waiting (k.gTaskCBArray k.runTask).taskStatus ticks ∧
      ((osSchedTaskWait k l ticks).gTaskCBArray k.runTask).priority =
        (k.gTaskCBArray k.runTask).priority ∧
      ((osSchedTaskWait k l ticks).gTaskCBArray k.runTask).taskMux =
        (k.gTaskCBArray k.runTask).taskMux := by
  obtain ⟨hpl, hsl⟩ := hi.run_role hrun hs
  have ho := hi.task k.runTask hrun
  have hfit : Fits (.pendList k.runTask) (.wait l) := ⟨hrun, .inr (.inr (.inr ⟨l, rfl⟩))⟩
  refine ⟨_, rfl, ?_⟩
  have hc1 : Core (losListTailInsert (k.modifyStatus k.runTask fun s => { s with pend := true })
      (.wait l) (.pendList k.runTask)) (V.put (.pendList k.runTask) (.wait l)
        (V.content (.wait l) ++ [.pendList k.runTask])) :=
    (hi.core.modifyTask k.runTask _).addTail hpl hhead (by simp) hfit
  have ht1 : Touched k.runTask k V (losListTailInsert (k.modifyStatus k.runTask fun s =>
      { s with pend := true }) (.wait l) (.pendList k.runTask)) (V.put (.pendList k.runTask) (.wait l)
        (V.content (.wait l) ++ [.pendList k.runTask])) :=
    (Moved.modifyTask k.runTask k V _).toTouched.trans (Touched.link (.inl rfl))
  -- the final block, whatever the timeout
  obtain ⟨k', heq, hc', ht', w, hcb⟩ : ∃ k', osSchedTaskWait k l ticks = k' ∧ Core k' _ ∧
      Touched k.runTask k V k' _ ∧ ∃ w, k'.gTaskCBArray k.runTask = { k.gTaskCBArray k.runTask with
        taskStatus := waiting (k.gTaskCBArray k.runTask).taskStatus ticks, waitTimes := w } := by
    unfold osSchedTaskWait
    dsimp only
    by_cases hticks : ticks = losWaitForever
    · rw [if_neg (not_not.mpr hticks)]
      refine ⟨_, rfl, hc1, ht1, (k.gTaskCBArray k.runTask).waitTimes, ?_⟩
      simp [waiting, hticks]
    · rw [if_pos hticks]
      refine ⟨_, rfl, (hc1.modifyTask _ _).modifyTask _ _, (ht1.trans (Moved.modifyTask _ _ _ _
        ).toTouched).trans (Moved.modifyTask _ _ _ _).toTouched, ticks, ?_⟩
      simp [waiting, hticks]
  rw [heq]
  have hs' : (k'.gTaskCBArray k.runTask).taskStatus =
      waiting (k.gTaskCBArray k.runTask).taskStatus ticks := by rw [hcb]
  refine ⟨hi.touched hrun ht' hc' ?_, ht', hs', by rw [hcb], by rw [hcb]⟩
  constructor
  case id => rw [hcb]; exact ho.id
  case priority => rw [hcb]; exact ho.priority
  case startTime => rw [hcb, ht'.now]; exact ho.startTime
  case flags =>
    rw [hs']
    exact ⟨fun h => by simp [waiting, hs.unused] at h, fun h => by simp [waiting, hs.ready] at h,
      fun _ => hs.delay, fun _ => rfl, .inr (.inr (.inr (.inr (.inl rfl))))⟩
  case running => rw [hs', ht'.runTask]; exact ho.running
  case live => rw [hs']; exact fun _ => hs.unused
  case idle => rw [ht'.gIdleTaskID]; exact fun h => absurd h hidle
  case free => rw [hs']; intro h; simp [waiting, hs.unused] at h
  case queued => rw [hs']; intro h; simp [waiting, hs.ready] at h
  case blocked => exact fun _ => ⟨l, by simp⟩
  case off => rw [hs']; intro _ _ h; cases h
  case timed => exact fun _ h => absurd ht'.runTask.symm h
  case untimed => exact fun _ => by simpa using hsl
  case response =>
    rw [hcb]
    intro _
    rw [View.put_role, if_neg (by simp)]
    exact ho.response hs.unused

theorem KernelInv.startTime (hi : KernelInv k V) (ht : t ≤ gTaskMaxNum) :
    (k.gTaskCBArray t).startTime ≤ osGetCurrSchedTimeCycle k := by
  rcases Nat.lt_or_eq_of_le ht with h | h
  · exact (hi.task t h).startTime
  · rw [h]
    exact hi.spare.startTime

theorem KernelInv.modify (hi : KernelInv k V) (t : Nat) (f : LosTaskCB → LosTaskCB)
    (hid : (f (k.gTaskCBArray t)).taskID = (k.gTaskCBArray t).taskID)
    (hp : (f (k.gTaskCBArray t)).priority = (k.gTaskCBArray t).priority)
    (hst : (f (k.gTaskCBArray t)).startTime ≤ osGetCurrSchedTimeCycle k)
    (hs : (f (k.gTaskCBArray t)).taskStatus = (k.gTaskCBArray t).taskStatus)
    (hr : (f (k.gTaskCBArray t)).responseTime = (k.gTaskCBArray t).responseTime) :
    KernelInv (k.modifyTask t f) V := by
  have hother : ∀ u, u ≠ t → (k.modifyTask t f).gTaskCBArray u = k.gTaskCBArray u :=
    fun u hu => Function.update_of_ne hu _ _
  refine ⟨hi.core.modifyTask t f, fun u hu => ?_, ?_, hi.run, hi.idle⟩
  · by_cases hut : u = t
    · subst hut
      obtain ⟨h1, h2, h3, h4, h5, h6, h7, h8, h9, h10, h11, h12, h13, h14⟩ := hi.task u hu
      constructor <;> simp only [modifyTask_self, hid, hp, hs, hr] <;> assumption
    · exact (hi.task u hu).congr (hother u hut) rfl rfl Iff.rfl Iff.rfl (Nat.le_refl _)
  · by_cases hmt : gTaskMaxNum = t
    · subst hmt
      obtain ⟨h1, h2, h3⟩ := hi.spare
      constructor <;> simp only [modifyTask_self, hs] <;> assumption
    · exact hi.spare.congr (hother _ hmt) (Nat.le_refl _)

theorem osSchedDelay_spec (hi : KernelInv k V) (hrun : k.runTask < gTaskMaxNum)
    (hidle : k.runTask ≠ k.gIdleTaskID) (hs : Clean (k.gTaskCBArray k.runTask).taskStatus)
    (tick : Nat) :
    KernelInv (osSchedDelay k tick) V ∧ Moved k.runTask k V (osSchedDelay k tick) V ∧
      ((osSchedDelay k tick).gTaskCBArray k.runTask).priority =
        (k.gTaskCBArray k.runTask).priority := by
  obtain ⟨hpl, hsl⟩ := hi.run_role hrun hs
  have ho := hi.task k.runTask hrun
  have hm : Moved k.runTask k V (osSchedDelay k tick) V := by
    unfold osSchedDelay
    exact (Moved.modifyTask k.runTask k V _).trans (Moved.modifyTask k.runTask _ V _)
  have hcb : (osSchedDelay k tick).gTaskCBArray k.runTask = { k.gTaskCBArray k.runTask with
      taskStatus := { (k.gTaskCBArray k.runTask).taskStatus with delay := true }
      waitTimes := tick } := by
    simp [osSchedDelay]
  have hc : Core (osSchedDelay k tick) V := by
    unfold osSchedDelay
    exact (hi.core.modifyTask _ _).modifyTask _ _
  generalize osSchedDelay k tick = k' at hm hcb hc ⊢
  have hs' : (k'.gTaskCBArray k.runTask).taskStatus =
      { (k.gTaskCBArray k.runTask).taskStatus with delay := true } := by rw [hcb]
  refine ⟨hi.touched hrun hm.toTouched hc ?_, hm, by rw [hcb]⟩
  constructor
  case id => rw [hcb]; exact ho.id
  case priority => rw [hcb]; exact ho.priority
  case startTime => rw [hcb, hm.now]; exact ho.startTime
  case flags =>
    rw [hs']
    exact ⟨fun h => by simp [hs.unused] at h, fun h => by simp [hs.ready] at h,
      fun h => by simp [hs.pend] at h, fun h => by simp [hs.pendTime] at h,
      .inr (.inr (.inr (.inr (.inr rfl))))⟩
  case running => rw [hs', hm.runTask]; exact ho.running
  case live => rw [hs']; exact fun _ => hs.unused
  case idle => rw [hm.gIdleTaskID]; exact fun h => absurd h hidle
  case free => rw [hs']; intro h; simp [hs.unused] at h
  case queued => rw [hs']; intro h; simp [hs.ready] at h
  case blocked => rw [hs']; intro h; simp [hs.pend] at h
  case off => exact fun _ _ _ => hpl
  case timed => exact fun _ h => absurd hm.runTask.symm h
  case untimed => exact fun _ => hsl
  case response => rw [hcb]; exact fun _ => ho.response hs.unused

theorem osSchedTaskExit_spec (hi : KernelInv k V) (ht : t < gTaskMaxNum)
    (hunused : (k.gTaskCBArray t).taskStatus.unused = false) (hne : t ≠ k.gIdleTaskID) :
    ∃ k' V', osSchedTaskExit k t = k' ∧ Core k' V' ∧ Moved t k V k' V' ∧
      V'.role (.pendList t) = .loose ∧ V'.role (.sortLinkNode t) = .loose ∧
      (k'.gTaskCBArray t).taskID = t ∧ (k'.gTaskCBArray t).priority < 32 ∧
      (k'.gTaskCBArray t).startTime ≤ osGetCurrSchedTimeCycle k ∧
      (k'.gTaskCBArray t).taskStatus.running = (k.gTaskCBArray t).taskStatus.running := by
  have ho := hi.task t ht
  -- the ready queue or the wait list first
  obtain ⟨k1, V1, hk1, hc1, hm1, hpl1, hsl1, s1, hcb1, hrun1, htm1⟩ : ∃ k1 V1,
      (if (k.status t).ready then osSchedTaskDeQueue k t
        else if (k.status t).pend then (losListDelete k (.pendList t)).modifyStatus t fun s =>
          { s with pend := false }
        else k) = k1 ∧ Core k1 V1 ∧ Moved t k V k1 V1 ∧ V1.role (.pendList t) = .loose ∧
      V1.role (.sortLinkNode t) = V.role (.sortLinkNode t) ∧
      ∃ s, k1.gTaskCBArray t = { k.gTaskCBArray t with taskStatus := s } ∧
        s.running = (k.gTaskCBArray t).taskStatus.running ∧
        (s.delay = (k.gTaskCBArray t).taskStatus.delay ∧
          s.pendTime = (k.gTaskCBArray t).taskStatus.pendTime) := by
    unfold KernelState.status
    rcases ho.pl_cases hunused hne with ⟨hr, hpl⟩ | ⟨hr, hp, l, hl⟩ | ⟨hr, hp, hpl⟩
    · rw [if_pos hr]
      obtain ⟨V1, hc, hm, hcb, hpl', hsl'⟩ := osSchedTaskDeQueue_spec hi.core ho.id ho.priority
        fun _ _ => hpl
      rw [if_pos ⟨hr, hne⟩] at hpl'
      exact ⟨_, V1, rfl, hc, hm, hpl', hsl', _, hcb, rfl, rfl, rfl⟩
    · rw [if_neg (by simp [hr]), if_pos hp]
      refine ⟨_, V.remove (.pendList t), rfl, (hi.core.unlink hl (by simp)).modifyTask t _,
        (Moved.unlink (.inl rfl)).trans (Moved.modifyTask t _ _ _), ?_, ?_, _, modifyStatus_self _ _ _,
        rfl, rfl, rfl⟩
      · rw [View.remove_role, if_pos rfl]
      · rw [View.remove_role, if_neg (by simp)]
    · rw [if_neg (by simp [hr]), if_neg (by simp [hp])]
      exact ⟨k, V, rfl, hi.core, Moved.refl t k V, hpl, rfl, _, rfl, rfl, rfl, rfl⟩
  unfold osSchedTaskExit
  dsimp only
  rw [hk1]
  have hstat : k1.status t = s1 := by rw [KernelState.status, hcb1]
  rw [hstat, htm1.1, htm1.2]
  -- then the sort link
  by_cases htimed : ((k.gTaskCBArray t).taskStatus.delay ||
      (k.gTaskCBArray t).taskStatus.pendTime) = true
  · rw [if_pos htimed]
    obtain ⟨V2, hc2, hm2, hcb2, hpl2, hsl2⟩ := osDeleteSortLink_spec (t := t) hc1
      (by rw [hcb1, hsl1]; exact ho.response hunused) (by rw [hsl1]; exact ho.sortNode)
    refine ⟨_, V2, rfl, hc2.modifyTask t _, (hm1.trans hm2).trans (Moved.modifyTask t _ _ _),
      hpl2.trans hpl1, hsl2, ?_, ?_, ?_, ?_⟩
    · rw [modifyStatus_self, hcb2, hcb1]
      exact ho.id
    · rw [modifyStatus_self, hcb2, hcb1]
      exact ho.priority
    · rw [modifyStatus_self, hcb2, hcb1]
      exact ho.startTime
    · rw [modifyStatus_self, hcb2, hcb1]
      exact hrun1
  · rw [if_neg htimed]
    have hloose : V.role (.sortLinkNode t) = .loose := by
      apply ho.untimed
      intro h
      simp only [Bool.or_eq_true] at htimed
      exact absurd h htimed
    refine ⟨k1, V1, rfl, hc1, hm1, hpl1, hsl1.trans hloose, ?_, ?_, ?_, ?_⟩
    · rw [hcb1]
      exact ho.id
    · rw [hcb1]
      exact ho.priority
    · rw [hcb1]
      exact ho.startTime
    · rw [hcb1]
      exact hrun1

theorem osSchedModifyTaskSchedParam_spec (hi : KernelInv k V) (ht : t < gTaskMaxNum) {priority : Nat}
    (hp : priority < 32) :
    ∃ k' V' b, osSchedModifyTaskSchedParam k t priority = some (k', b) ∧ KernelInv k' V' ∧
      Moved t k V k' V' ∧ (k'.gTaskCBArray t).taskStatus = (k.gTaskCBArray t).taskStatus ∧
      (k'.gTaskCBArray t).priority = priority ∧
      (k'.gTaskCBArray t).taskMux = (k.gTaskCBArray t).taskMux ∧
      (∀ w, V'.role (.pendList t) = .member (.wait w) ↔ V.role (.pendList t) = .member (.wait w)) := by
  have ho := hi.task t ht
  unfold osSchedModifyTaskSchedParam
  by_cases hr : (k.gTaskCBArray t).taskStatus.ready = true
  · rw [if_pos (show (k.status t).ready = true from hr)]
    obtain ⟨hsusp, hpend, hdelay, htime⟩ := ho.flags.ready hr
    have hunused : (k.gTaskCBArray t).taskStatus.unused = false := by
      cases h : (k.gTaskCBArray t).taskStatus.unused with
      | false => rfl
      | true =>
        have h' := (ho.flags.unused h).1
        rw [hr] at h'
        cases h'
    have hsl : V.role (.sortLinkNode t) = .loose := ho.untimed (by simp [hdelay, htime])
    obtain ⟨V1, hc1, hm1, hcb1, hpl1, hsl1⟩ := osSchedTaskDeQueue_spec hi.core ho.id ho.priority
      ho.queued
    have hpl1' : V1.role (.pendList t) = .loose := by
      rw [hpl1]
      split
      · rfl
      · next h => exact ho.off hunused (fun _ => by simpa [hr] using h) hpend
    generalize osSchedTaskDeQueue k t = k1 at hc1 hm1 hcb1 ⊢
    have hm2 : Moved t k V (k1.modifyTask t fun cb => { cb with priority := priority }) V1 :=
      hm1.trans (Moved.modifyTask t _ _ _)
    have hc2 := hc1.modifyTask t fun cb => { cb with priority := priority }
    have hcb2 : (k1.modifyTask t fun cb => { cb with priority := priority }).gTaskCBArray t =
        { k.gTaskCBArray t with
          taskStatus := { (k.gTaskCBArray t).taskStatus with ready := false }
          priority := priority } := by
      rw [modifyTask_self, hcb1]
    dsimp only
    generalize (k1.modifyTask t fun cb => { cb with priority := priority }) = k2 at hm2 hc2 hcb2 ⊢
    obtain ⟨k', V', slice, heq, hi', hm', hcb', hpl', -⟩ := hi.enqueue ht hm2 hc2
      (by rw [hcb2]; exact ho.id) (by rw [hcb2]; exact hp) (by rw [hcb2]; exact ho.startTime)
      (by rw [hcb2]; exact ho.running) (by rw [hcb2]; exact hunused) (by rw [hcb2])
      (by rw [hcb2]; exact (ho.response hunused).mpr hsl) hpl1' (hsl1.trans hsl)
    rw [heq]
    refine ⟨k', V', true, rfl, hi', hm', ?_, ?_, ?_, fun w => ?_⟩
    · rw [hcb', hcb2]
      generalize (k.gTaskCBArray t).taskStatus = s at hr hsusp hpend hdelay htime
      cases s
      simp_all [readied]
    · rw [hcb', hcb2]
    · rw [hcb', hcb2]
    · have hw : V.role (.pendList t) ≠ .member (.wait w) := by
        by_cases hidle : t = k.gIdleTaskID
        · rw [ho.off hunused (fun _ => hidle) hpend]
          simp
        · rw [ho.queued hr hidle]
          simp
      refine iff_of_false (fun h => ?_) hw
      rw [hpl'] at h
      split at h <;> simp at h
  · rw [if_neg (show ¬ (k.status t).ready = true from hr)]
    rw [Bool.not_eq_true] at hr
    have hm : Moved t k V (k.modifyTask t fun cb => { cb with priority := priority }) V :=
      Moved.modifyTask t k V _
    have hcb : (k.modifyTask t fun cb => { cb with priority := priority }).gTaskCBArray t =
        { k.gTaskCBArray t with priority := priority } := modifyTask_self _ _ _
    have hc := hi.core.modifyTask t fun cb => { cb with priority := priority }
    dsimp only
    generalize (k.modifyTask t fun cb => { cb with priority := priority }) = k' at hm hcb hc ⊢
    refine ⟨k', V, _, rfl, hi.touched ht hm.toTouched hc ?_, hm, ?_, ?_, ?_, fun _ => Iff.rfl⟩
    · obtain ⟨h1, h2, h3, h4, h5, h6, h7, h8, h9, h10, h11, h12, h13, h14⟩ := ho
      constructor <;> simp only [hcb, hm.runTask, hm.gIdleTaskID, hm.now] <;>
        first | assumption | skip
      intro h
      rw [hr] at h
      cases h
    · rw [hcb]
    · rw [hcb]
    · rw [hcb]

end

end LiteosM.Kernel
