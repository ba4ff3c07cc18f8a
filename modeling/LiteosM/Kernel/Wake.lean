import LiteosM.Kernel.Moves

/-!
# Waiting, waking and timing out

The scheduler's compound operations keep `KernelInv`.
-/

namespace LiteosM.Kernel

open LiteosM.Lib.DlList

theorem readied_consistent {s : TaskStatus} (hs : s.unused = false) : Consistent (readied s) :=
  ⟨fun h => by simp [readied, hs] at h, fun _ => ⟨rfl, rfl, rfl, rfl⟩, fun _ => rfl,
    fun h => by simp [readied] at h, .inr (.inr (.inl rfl))⟩

def unpended (s : TaskStatus) : TaskStatus := { s with pend := false, pendTime := false }

def expired (s : TaskStatus) : TaskStatus :=
  { s with pend := false, pendTime := false, delay := false, timeout := s.timeout || s.pend }

/-- What the expiry of its timeout does to task `t`. -/
structure TimedOut (k k' : KernelState) (V' : View Node) (t : Nat) : Prop where
  bound : t ≠ k.runTask
  timed : (k.gTaskCBArray t).taskStatus.delay ∨ (k.gTaskCBArray t).taskStatus.pendTime
  status : (k'.gTaskCBArray t).taskStatus = (if (k.gTaskCBArray t).taskStatus.suspend then
    expired (k.gTaskCBArray t).taskStatus else readied (expired (k.gTaskCBArray t).taskStatus))
  priority : (k'.gTaskCBArray t).priority = (k.gTaskCBArray t).priority
  gone : ∀ w, V'.role (.pendList t) ≠ .member (.wait w)

/-- Some timeouts expire and nothing else happens. -/
structure Scanned (k : KernelState) (V : View Node) (k' : KernelState) (V' : View Node) : Prop
    extends Steady k k' where
  role : ∀ x, (∀ t, x ≠ .pendList t) → (∀ t, x ≠ .sortLinkNode t) → V'.role x = V.role x
  wait : ∀ l, (V'.content (.wait l)).Sublist (V.content (.wait l))
  task : ∀ t, (k'.gTaskCBArray t = k.gTaskCBArray t ∧ V'.role (.pendList t) = V.role (.pendList t)) ∨
    TimedOut k k' V' t

section

variable {k k' k'' : KernelState} {V V' V'' : View Node} {t : Nat}

theorem Scanned.refl (k : KernelState) (V : View Node) : Scanned k V k V :=
  ⟨Steady.refl k, fun _ _ _ => rfl, fun _ => List.Sublist.refl _, fun _ => .inl ⟨rfl, rfl⟩⟩

theorem TimedOut.untimed (h : TimedOut k k' V' t) :
    ¬ ((k'.gTaskCBArray t).taskStatus.delay ∨ (k'.gTaskCBArray t).taskStatus.pendTime) := by
  rw [h.status]
  split <;> simp [expired, readied]

theorem Scanned.trans (h₁ : Scanned k V k' V') (h₂ : Scanned k' V' k'' V'') :
    Scanned k V k'' V'' := by
  refine ⟨h₁.toSteady.trans h₂.toSteady, fun x hp hs => (h₂.role x hp hs).trans (h₁.role x hp hs),
    fun l => (h₂.wait l).trans (h₁.wait l), fun t => ?_⟩
  rcases h₁.task t with ⟨hcb, hpl⟩ | hout
  · rcases h₂.task t with ⟨hcb', hpl'⟩ | hout'
    · exact .inl ⟨hcb'.trans hcb, hpl'.trans hpl⟩
    · obtain ⟨hb, ht, hs, hp, hg⟩ := hout'
      rw [hcb] at ht hs hp
      rw [h₁.runTask] at hb
      exact .inr ⟨hb, ht, hs, hp, hg⟩
  · rcases h₂.task t with ⟨hcb', hpl'⟩ | hout'
    · obtain ⟨hb, ht, hs, hp, hg⟩ := hout
      refine .inr ⟨hb, ht, ?_, ?_, fun w => ?_⟩
      · rw [hcb']
        exact hs
      · rw [hcb']
        exact hp
      · rw [hpl']
        exact hg w
    · exact absurd hout'.timed hout.untimed

theorem Moved.scanned (hm : Moved t k V k' V') (hout : TimedOut k k' V' t) : Scanned k V k' V' := by
  refine ⟨hm.toSteady, fun x hp hs => hm.role x (hp t) (hs t), hm.wait, fun u => ?_⟩
  by_cases hut : u = t
  · rw [hut]
    exact .inr hout
  · exact .inl ⟨hm.task u hut, hm.role _ (by simpa using hut) (by simp)⟩

end

variable [Config]

section

variable {k k' k₀ : KernelState} {V V' V₀ : View Node} {t : Nat} {l : WaitList}

theorem KernelInv.enqueue (hi : KernelInv k₀ V₀) (ht : t < gTaskMaxNum) (hm : Moved t k₀ V₀ k V)
    (hc : Core k V) (hid : (k.gTaskCBArray t).taskID = t) (hp : (k.gTaskCBArray t).priority < 32)
    (hstart : (k.gTaskCBArray t).startTime ≤ osGetCurrSchedTimeCycle k₀)
    (hrun : (k.gTaskCBArray t).taskStatus.running ↔ t = k₀.runTask)
    (hunused : (k.gTaskCBArray t).taskStatus.unused = false)
    (hready : (k.gTaskCBArray t).taskStatus.ready = false)
    (hresp : (k.gTaskCBArray t).responseTime = ⊤) (hpl : V.role (.pendList t) = .loose)
    (hsl : V.role (.sortLinkNode t) = .loose) :
    ∃ k' V' slice, osSchedTaskEnQueue k t = some k' ∧ KernelInv k' V' ∧ Moved t k₀ V₀ k' V' ∧
      k'.gTaskCBArray t = { k.gTaskCBArray t with
        timeSlice := slice, taskStatus := readied (k.gTaskCBArray t).taskStatus } ∧
      V'.role (.pendList t) = (if t = k.gIdleTaskID then .loose
        else .member (.gPriQueueList (k.gTaskCBArray t).priority)) ∧
      V'.content .gTaskSortLink = V.content .gTaskSortLink := by
  obtain ⟨k', V', slice, heq, hc', hm', hcb, hpl', hsl', hcontent⟩ :=
    osSchedTaskEnQueue_spec hc ht hid hp hready hpl
  have hmt := hm.trans hm'
  have hidle : k'.gIdleTaskID = k.gIdleTaskID := hm'.gIdleTaskID
  have hs : (k'.gTaskCBArray t).taskStatus = readied (k.gTaskCBArray t).taskStatus := by rw [hcb]
  refine ⟨k', V', slice, heq, hi.touched ht hmt.toTouched hc' ?_, hmt, hcb, hpl', hcontent⟩
  constructor
  case id => rw [hcb]; exact hid
  case priority => rw [hcb]; exact hp
  case startTime => rw [hcb, hmt.now]; exact hstart
  case flags => rw [hs]; exact readied_consistent hunused
  case running => rw [hs, hmt.runTask]; exact hrun
  case live => rw [hs]; exact fun _ => hunused
  case idle => rw [hs]; exact fun _ => ⟨hunused, rfl, rfl, rfl⟩
  case free =>
    rw [hs]
    intro h
    simp [readied, hunused] at h
  case queued =>
    rw [hcb, hpl', hidle]
    intro _ hne
    rw [if_neg hne]
  case blocked => rw [hs]; intro h; cases h
  case off =>
    rw [hs, hpl', hidle]
    intro _ h _
    rw [if_pos (h rfl)]
  case timed => rw [hs]; intro h; rcases h with h | h <;> cases h
  case untimed => rw [hsl']; exact fun _ => hsl
  case response => rw [hsl', hcb]; exact fun _ => iff_of_true hresp hsl

theorem KernelInv.rest (hi : KernelInv k₀ V₀) (ht : t < gTaskMaxNum) (hm : Moved t k₀ V₀ k V)
    (hc : Core k V) (hid : (k.gTaskCBArray t).taskID = t) (hp : (k.gTaskCBArray t).priority < 32)
    (hstart : (k.gTaskCBArray t).startTime ≤ osGetCurrSchedTimeCycle k₀)
    (hrun : (k.gTaskCBArray t).taskStatus.running ↔ t = k₀.runTask)
    (hidle : t ≠ k₀.gIdleTaskID) (hsusp : (k.gTaskCBArray t).taskStatus.suspend)
    (hunused : (k.gTaskCBArray t).taskStatus.unused = false)
    (hready : (k.gTaskCBArray t).taskStatus.ready = false)
    (hpend : (k.gTaskCBArray t).taskStatus.pend = false)
    (hpendTime : (k.gTaskCBArray t).taskStatus.pendTime = false)
    (hdelay : (k.gTaskCBArray t).taskStatus.delay = false)
    (hresp : (k.gTaskCBArray t).responseTime = ⊤) (hpl : V.role (.pendList t) = .loose)
    (hsl : V.role (.sortLinkNode t) = .loose) : KernelInv k V := by
  apply hi.touched ht hm.toTouched hc
  constructor
  case id => exact hid
  case priority => exact hp
  case startTime => rw [hm.now]; exact hstart
  case flags =>
    exact ⟨fun h => by simp [hunused] at h, fun h => by simp [hready] at h,
      fun h => by simp [hpend] at h, fun h => by simp [hpendTime] at h,
      .inr (.inr (.inr (.inl hsusp)))⟩
  case running => rw [hm.runTask]; exact hrun
  case live => exact fun _ => hunused
  case idle => rw [hm.gIdleTaskID]; exact fun h => absurd h hidle
  case free => intro h; simp [hunused] at h
  case queued => intro h; simp [hready] at h
  case blocked => intro h; simp [hpend] at h
  case off => exact fun _ _ _ => hpl
  case timed => intro h; simp [hpendTime, hdelay] at h
  case untimed => exact fun _ => hsl
  case response => exact fun _ => iff_of_true hresp hsl

theorem osSchedTaskWake_spec (hi : KernelInv k V) (ht : t < gTaskMaxNum)
    (hpend : (k.gTaskCBArray t).taskStatus.pend) :
    ∃ k' V', osSchedTaskWake k t = some k' ∧ KernelInv k' V' ∧ Moved t k V k' V' ∧
      (∀ w, V'.role (.pendList t) ≠ .member (.wait w)) ∧
      (k'.gTaskCBArray t).taskStatus = (if (k.gTaskCBArray t).taskStatus.suspend then
        unpended (k.gTaskCBArray t).taskStatus else readied (k.gTaskCBArray t).taskStatus) ∧
      (k'.gTaskCBArray t).priority = (k.gTaskCBArray t).priority ∧
      (k'.gTaskCBArray t).taskMux = (k.gTaskCBArray t).taskMux := by
  have ho := hi.task t ht
  obtain ⟨l, hl⟩ := ho.blocked hpend
  obtain ⟨hunused, hready, hdelay⟩ := ho.of_pend hpend
  have hne := ho.not_idle_of_pend hpend
  have hc1 := (hi.core.unlink hl (by simp)).modifyTask t fun cb =>
    { cb with taskStatus := { cb.taskStatus with pend := false } }
  have hm1 : Moved t k V _ _ := (Moved.unlink (.inl rfl)).trans (Moved.modifyTask t
    (losListDelete k (.pendList t)) (V.remove (.pendList t)) fun cb =>
      { cb with taskStatus := { cb.taskStatus with pend := false } })
  have hcb1 : ((losListDelete k (.pendList t)).modifyTask t fun cb =>
      { cb with taskStatus := { cb.taskStatus with pend := false } }).gTaskCBArray t =
      { k.gTaskCBArray t with
        taskStatus := { (k.gTaskCBArray t).taskStatus with pend := false } } := modifyTask_self _ _ _
  have hpl1 : (V.remove (.pendList t)).role (.pendList t) = .loose := by
    rw [View.remove_role, if_pos rfl]
  have hsl1 : (V.remove (.pendList t)).role (.sortLinkNode t) = V.role (.sortLinkNode t) := by
    rw [View.remove_role, if_neg (by simp)]
  unfold osSchedTaskWake KernelState.modifyStatus
  dsimp only
  generalize ((losListDelete k (.pendList t)).modifyTask t fun cb =>
    { cb with taskStatus := { cb.taskStatus with pend := false } }) = k1 at hc1 hm1 hcb1 ⊢
  -- the timeout is cancelled if there is one
  obtain ⟨k2, V2, hk2, hc2, hm2, hcb2, hpl2, hsl2⟩ : ∃ k2 V2,
      (if (k1.status t).pendTime then (osDeleteSortLink k1 t).modifyTask t fun cb =>
        { cb with taskStatus := { cb.taskStatus with pendTime := false } } else k1) = k2 ∧
      Core k2 V2 ∧ Moved t k V k2 V2 ∧ k2.gTaskCBArray t = { k.gTaskCBArray t with
        taskStatus := unpended (k.gTaskCBArray t).taskStatus, responseTime := ⊤ } ∧
      V2.role (.pendList t) = .loose ∧ V2.role (.sortLinkNode t) = .loose := by
    by_cases htime : (k.gTaskCBArray t).taskStatus.pendTime = true
    · rw [if_pos (by rw [KernelState.status, hcb1]; exact htime)]
      obtain ⟨V2, hc2, hm2, hcb2, hpl2, hsl2⟩ := osDeleteSortLink_spec (t := t) hc1
        (by rw [hcb1, hsl1]; exact ho.response hunused) (by rw [hsl1]; exact ho.sortNode)
      refine ⟨_, V2, rfl, hc2.modifyTask t _, (hm1.trans hm2).trans (Moved.modifyTask t _ _ _), ?_,
        hpl2.trans hpl1, hsl2⟩
      rw [modifyTask_self, hcb2, hcb1]
      rfl
    · rw [if_neg (by rw [KernelState.status, hcb1]; exact htime)]
      have hloose : V.role (.sortLinkNode t) = .loose := ho.untimed (by simp [hdelay, htime])
      refine ⟨k1, _, rfl, hc1, hm1, ?_, hpl1, hsl1.trans hloose⟩
      rw [hcb1, ← (ho.response hunused).mpr hloose]
      rw [Bool.not_eq_true] at htime
      unfold unpended
      rw [← htime]
  rw [hk2]
  have hs2 : (k2.gTaskCBArray t).taskStatus = unpended (k.gTaskCBArray t).taskStatus := by rw [hcb2]
  have hid2 : (k2.gTaskCBArray t).taskID = t := by rw [hcb2]; exact ho.id
  have hp2 : (k2.gTaskCBArray t).priority < 32 := by rw [hcb2]; exact ho.priority
  have hst2 : (k2.gTaskCBArray t).startTime ≤ osGetCurrSchedTimeCycle k := by
    rw [hcb2]; exact ho.startTime
  have hrun2 : (k2.gTaskCBArray t).taskStatus.running ↔ t = k.runTask := by
    rw [hs2]; exact ho.running
  by_cases hsusp : (k.gTaskCBArray t).taskStatus.suspend = true
  · have hneg : ¬ (!(k2.status t).suspend) = true := by
      rw [KernelState.status, hs2]
      simp [unpended, hsusp]
    rw [if_neg hneg, if_pos hsusp]
    refine ⟨k2, V2, rfl, hi.rest ht hm2 hc2 hid2 hp2 hst2 hrun2 hne ?_ ?_ ?_ ?_ ?_ ?_ ?_ hpl2 hsl2, hm2,
      fun w h => ?_, hs2, ?_, ?_⟩
    · rw [hs2]; exact hsusp
    · rw [hs2]; exact hunused
    · rw [hs2]; exact hready
    · rw [hs2]; rfl
    · rw [hs2]; rfl
    · rw [hs2]; exact hdelay
    · rw [hcb2]
    · rw [hpl2] at h; cases h
    · rw [hcb2]
    · rw [hcb2]
  · have hpos : (!(k2.status t).suspend) = true := by
      rw [KernelState.status, hs2]
      simp [unpended, hsusp]
    rw [if_pos hpos, if_neg hsusp]
    obtain ⟨k', V', slice, heq, hi', hm', hcb', hpl', hcon'⟩ := hi.enqueue ht hm2 hc2 hid2 hp2 hst2 hrun2
      (by rw [hs2]; exact hunused) (by rw [hs2]; exact hready) (by rw [hcb2]) hpl2 hsl2
    refine ⟨k', V', heq, hi', hm', fun w h => ?_, ?_, ?_, ?_⟩
    · rw [hpl'] at h
      split at h <;> simp at h
    · rw [hcb', hs2]
      rfl
    · rw [hcb', hcb2]
    · rw [hcb', hcb2]

theorem osSchedWakePendTimeTask_spec (hi : KernelInv k V)
    (hsl : V.role (.sortLinkNode t) = .member .gTaskSortLink) (needSchedule : Bool) :
    ∃ k' V' b, osSchedWakePendTimeTask (osDeleteNodeSortLink k t) t needSchedule = some (k', b) ∧
      KernelInv k' V' ∧ Moved t k V k' V' ∧ V'.role (.sortLinkNode t) = .loose ∧
      TimedOut k k' V' t ∧ b = (needSchedule || !(k.gTaskCBArray t).taskStatus.suspend) ∧
      V'.content .gTaskSortLink = (V.content .gTaskSortLink).erase (.sortLinkNode t) := by
  have ht : t < gTaskMaxNum := (hi.core.fits _ _ hsl).1
  have ho := hi.task t ht
  obtain ⟨htimed, hrun⟩ : ((k.gTaskCBArray t).taskStatus.delay ∨
      (k.gTaskCBArray t).taskStatus.pendTime) ∧ t ≠ k.runTask := by
    apply Classical.not_imp.mp
    intro h
    have hloose := ho.untimed h
    rw [hsl] at hloose
    cases hloose
  obtain ⟨hunused, hready⟩ := ho.of_timed htimed
  have hne := ho.not_idle_of_timed htimed
  obtain ⟨V1, hc1, hm1, hcb1, hpl1, hsl1, hcon1⟩ := osDeleteNodeSortLink_spec hi.core hsl
  unfold osSchedWakePendTimeTask
  generalize osDeleteNodeSortLink k t = k1 at hc1 hm1 hcb1 ⊢
  have hs1 : k1.status t = (k.gTaskCBArray t).taskStatus := by rw [KernelState.status, hcb1]
  have hcond : ((k1.status t).pend || (k1.status t).delay) = true := by
    rw [hs1, Bool.or_eq_true]
    rcases htimed with h | h
    · exact .inr h
    · exact .inl (ho.flags.pendTime h)
  dsimp only
  rw [if_pos hcond, hs1]
  -- a task that waits leaves its wait list
  obtain ⟨k2, V2, hk2, hc2, hm2, ⟨sem, mux, hcb2⟩, hpl2, hsl2, hcon2⟩ : ∃ k2 V2,
      (if (k.gTaskCBArray t).taskStatus.pend then
        (losListDelete ((k1.modifyStatus t fun s =>
            { s with pend := false, pendTime := false, delay := false }).modifyStatus t fun s =>
            { s with timeout := true }) (.pendList t)).modifyTask t fun cb =>
          { cb with taskMux := none, taskSem := none }
        else k1.modifyStatus t fun s =>
          { s with pend := false, pendTime := false, delay := false }) = k2 ∧
      Core k2 V2 ∧ Moved t k V k2 V2 ∧ (∃ sem mux, k2.gTaskCBArray t = { k.gTaskCBArray t with
        taskStatus := expired (k.gTaskCBArray t).taskStatus, responseTime := ⊤, taskSem := sem
        taskMux := mux }) ∧
      V2.role (.pendList t) = .loose ∧ V2.role (.sortLinkNode t) = .loose ∧
      V2.content .gTaskSortLink = (V.content .gTaskSortLink).erase (.sortLinkNode t) := by
    by_cases hpend : (k.gTaskCBArray t).taskStatus.pend = true
    · rw [if_pos hpend]
      obtain ⟨l, hl⟩ := ho.blocked hpend
      have hmem := hpl1.trans hl
      refine ⟨_, V1.remove (.pendList t), rfl, Core.modifyTask (Core.unlink ((hc1.modifyTask t _
        ).modifyTask t _) hmem (by simp)) t _, ((((hm1.trans (Moved.modifyTask t _ _ _)).trans
        (Moved.modifyTask t _ _ _))).trans (Moved.unlink (.inl rfl))).trans (Moved.modifyTask t _ _ _),
        ⟨none, none, ?_⟩, ?_, ?_, ?_⟩
      · simp [expired, hpend, hcb1]
      · rw [View.remove_role, if_pos rfl]
      · rw [View.remove_role, if_neg (by simp), hsl1]
      · rw [← hcon1]
        apply List.erase_of_not_mem
        intro hin
        obtain ⟨u, _, hu⟩ := hc1.mem_sortLink hin
        cases hu
    · rw [if_neg hpend]
      rw [Bool.not_eq_true] at hpend
      refine ⟨_, V1, rfl, hc1.modifyTask t _, hm1.trans (Moved.modifyTask t _ _ _),
        ⟨(k.gTaskCBArray t).taskSem, (k.gTaskCBArray t).taskMux, ?_⟩, ?_, hsl1, hcon1⟩
      · simp [expired, hpend, hcb1]
      · rw [hpl1]
        exact ho.off hunused (fun h => by simp [hready] at h) hpend
  rw [hk2]
  have hs2 : (k2.gTaskCBArray t).taskStatus = expired (k.gTaskCBArray t).taskStatus := by rw [hcb2]
  have hid2 : (k2.gTaskCBArray t).taskID = t := by rw [hcb2]; exact ho.id
  have hp2 : (k2.gTaskCBArray t).priority < 32 := by rw [hcb2]; exact ho.priority
  have hst2 : (k2.gTaskCBArray t).startTime ≤ osGetCurrSchedTimeCycle k := by
    rw [hcb2]; exact ho.startTime
  have hrun2 : (k2.gTaskCBArray t).taskStatus.running ↔ t = k.runTask := by
    rw [hs2]; exact ho.running
  by_cases hsusp : (k.gTaskCBArray t).taskStatus.suspend = true
  · rw [if_neg (by simp [hsusp])]
    refine ⟨k2, V2, needSchedule, rfl, hi.rest ht hm2 hc2 hid2 hp2 hst2 hrun2 hne ?_ ?_ ?_ ?_ ?_ ?_ ?_
      hpl2 hsl2, hm2, hsl2, ⟨hrun, htimed, ?_, ?_, fun w h => ?_⟩, by simp [hsusp], hcon2⟩
    · rw [hs2]; exact hsusp
    · rw [hs2]; exact hunused
    · rw [hs2]; exact hready
    · rw [hs2]; rfl
    · rw [hs2]; rfl
    · rw [hs2]; rfl
    · rw [hcb2]
    · rw [hs2, if_pos hsusp]
    · rw [hcb2]
    · rw [hpl2] at h; cases h
  · rw [if_pos (by simp [hsusp])]
    obtain ⟨k', V', slice, heq, hi', hm', hcb', hpl', hcon'⟩ := hi.enqueue ht hm2 hc2 hid2 hp2 hst2 hrun2
      (by rw [hs2]; exact hunused) (by rw [hs2]; exact hready) (by rw [hcb2]) hpl2 hsl2
    rw [heq]
    have hs' : (k'.gTaskCBArray t).taskStatus = readied (expired (k.gTaskCBArray t).taskStatus) := by
      rw [hcb', hs2]
    refine ⟨k', V', true, rfl, hi', hm', ?_, ⟨hrun, htimed, ?_, ?_, fun w h => ?_⟩, by simp [hsusp],
      hcon'.trans hcon2⟩
    · apply (hi'.task t ht).untimed
      rw [hs']
      intro h
      rcases h with h | h <;> cases h
    · rw [hs', if_neg hsusp]
    · rw [hcb', hcb2]
    · rw [hpl'] at h
      split at h <;> simp at h

/-- One round of the loop for the task at the front of the list. -/
def scanRound (r : KernelState × Bool) (t : Nat) : Option (KernelState × Bool) :=
  osSchedWakePendTimeTask (osDeleteNodeSortLink r.1 t) t r.2

/-- The tasks of `due` are taken from the front of the sort link and time out one
after the other, and the one that is then at the front is not due. -/
structure ScanOf (currTime : Nat) (k : KernelState) (V : View Node) (b : Bool) (due : List Nat)
    (k' : KernelState) (V' : View Node) (b' : Bool) : Prop where
  rounds : due.foldlM scanRound (k, b) = some (k', b')
  content : V.content .gTaskSortLink = due.map .sortLinkNode ++ V'.content .gTaskSortLink
  early : ∀ t ∈ due, (k.gTaskCBArray t).responseTime ≤ (currTime : WithTop Nat)
  late : ∀ t l, V'.content .gTaskSortLink = .sortLinkNode t :: l →
    (currTime : WithTop Nat) < (k.gTaskCBArray t).responseTime
  fired : ∀ t ∈ due, TimedOut k k' V' t
  others : ∀ t ∉ due, k'.gTaskCBArray t = k.gTaskCBArray t ∧
    V'.role (.pendList t) = V.role (.pendList t)
  need : b' = (b || due.any fun t => !(k.gTaskCBArray t).taskStatus.suspend)

theorem ScanOf.cons {k1 : KernelState} {V1 : View Node} {currTime : Nat} {b b1 b' : Bool}
    {due : List Nat} (hround : scanRound (k, b) t = some (k1, b1)) (hm : Moved t k V k1 V1)
    (hout : TimedOut k k1 V1 t) (hneed : b1 = (b || !(k.gTaskCBArray t).taskStatus.suspend))
    (hle : (k.gTaskCBArray t).responseTime ≤ (currTime : WithTop Nat))
    (hcon : V.content .gTaskSortLink = .sortLinkNode t :: V1.content .gTaskSortLink)
    (hnd : (V.content .gTaskSortLink).Nodup) (h : ScanOf currTime k1 V1 b1 due k' V' b') :
    ScanOf currTime k V b (t :: due) k' V' b' := by
  rw [hcon, h.content] at hnd
  obtain ⟨hnot, -⟩ := List.nodup_cons.mp hnd
  have hdue : ∀ u ∈ due, u ≠ t := fun u hu heq =>
    hnot (List.mem_append_left _ (List.mem_map.mpr ⟨u, hu, by rw [heq]⟩))
  have hself : t ∉ due := fun ht => hdue t ht rfl
  have hkept : ∀ u, u ≠ t → k1.gTaskCBArray u = k.gTaskCBArray u := hm.task
  constructor
  case rounds =>
    rw [List.foldlM_cons, hround]
    exact h.rounds
  case content => rw [hcon, h.content, List.map_cons, List.cons_append]
  case early =>
    intro u hu
    cases hu with
    | head => exact hle
    | tail _ hu =>
      rw [← hkept u (hdue u hu)]
      exact h.early u hu
  case late =>
    intro u l hu
    have hne : u ≠ t := fun heq => hnot (List.mem_append_right _ (by simp [hu, heq]))
    rw [← hkept u hne]
    exact h.late u l hu
  case fired =>
    intro u hu
    cases hu with
    | head =>
      obtain ⟨hcb, hrole⟩ := h.others t hself
      obtain ⟨hb, htm, hs, hp, hg⟩ := hout
      exact ⟨hb, htm, by rw [hcb]; exact hs, by rw [hcb]; exact hp, fun w => by rw [hrole]; exact hg w⟩
    | tail _ hu =>
      obtain ⟨hb, htm, hs, hp, hg⟩ := h.fired u hu
      rw [hkept u (hdue u hu)] at htm hs hp
      rw [hm.runTask] at hb
      exact ⟨hb, htm, hs, hp, hg⟩
  case others =>
    intro u hu
    obtain ⟨hne, hu⟩ := List.ne_and_not_mem_of_not_mem_cons hu
    obtain ⟨hcb, hrole⟩ := h.others u hu
    exact ⟨hcb.trans (hkept u hne), hrole.trans (hm.role _ (by simpa using hne) (by simp))⟩
  case need =>
    have hany : (due.any fun u => !(k1.gTaskCBArray u).taskStatus.suspend) =
        due.any fun u => !(k.gTaskCBArray u).taskStatus.suspend := by
      apply Bool.eq_iff_iff.mpr
      simp only [List.any_eq_true]
      apply exists_congr
      intro u
      apply and_congr_right
      intro hu
      rw [hkept u (hdue u hu)]
    rw [h.need, hneed, List.any_cons, hany, Bool.or_assoc]

theorem osSchedScanLoop_spec (currTime fuel : Nat) : ∀ (k : KernelState) (V : View Node)
    (needSchedule : Bool), KernelInv k V → V.content .gTaskSortLink ≠ [] →
    (V.content .gTaskSortLink).length ≤ fuel →
    ∃ k' V' b due, osSchedScanLoop currTime fuel k needSchedule = some (k', b) ∧ KernelInv k' V' ∧
      Scanned k V k' V' ∧ ScanOf currTime k V needSchedule due k' V' b := by
  induction fuel with
  | zero =>
    intro k V _ _ hne hlen
    exact absurd (List.length_eq_zero_iff.mp (Nat.le_zero.mp hlen)) hne
  | succ fuel ih =>
    intro k V needSchedule hi hne hlen
    have hf := hi.core.ready.forest
    have hhead := hi.core.system .gTaskSortLink (.inr (.inr rfl))
    obtain ⟨y, l, hcon⟩ := List.exists_cons_of_ne_nil hne
    have hy : y ∈ V.content .gTaskSortLink := by simp [hcon]
    obtain ⟨t, ht, rfl⟩ := hi.core.mem_sortLink hy
    have hsl := (hf.mem _ _).mp hy
    have hfirst : losDlListFirst k .gTaskSortLink = .sortLinkNode t := hf.next_first hhead hcon
    unfold osSchedScanLoop
    rw [hfirst]
    simp only [sortLinkEntry, Option.bind_eq_bind, Option.bind_some]
    by_cases hle : (k.gTaskCBArray t).responseTime ≤ (currTime : WithTop Nat)
    · rw [if_pos hle]
      obtain ⟨k1, V1, b1, heq1, hi1, hm1, hsl1, hout, hneed, hcon1⟩ :=
        osSchedWakePendTimeTask_spec hi hsl needSchedule
      have hs1 : Scanned k V k1 V1 := hm1.scanned hout
      have htail : V.content .gTaskSortLink = .sortLinkNode t :: V1.content .gTaskSortLink := by
        rw [hcon1, hcon, List.erase_cons_head]
      rw [heq1]
      simp only [Option.bind_some]
      have hhead1 := hi1.core.system .gTaskSortLink (.inr (.inr rfl))
      by_cases hempty : losListEmpty k1 .gTaskSortLink = true
      · rw [if_pos hempty]
        rw [hi1.core.ready.listEmpty_iff hhead1] at hempty
        refine ⟨k1, V1, b1, [t], rfl, hi1, hs1, ScanOf.cons heq1 hm1 hout hneed hle htail (hf.nodup _)
          ⟨rfl, rfl, fun _ h => ?_, fun _ _ h => ?_, fun _ h => ?_, fun _ _ => ⟨rfl, rfl⟩, by simp⟩⟩
        · cases h
        · rw [hempty] at h
          cases h
        · cases h
      · rw [if_neg hempty]
        rw [hi1.core.ready.listEmpty_iff hhead1] at hempty
        have hlt : (V1.content .gTaskSortLink).length ≤ fuel := by
          rw [htail, List.length_cons] at hlen
          exact Nat.le_of_succ_le_succ hlen
        obtain ⟨k', V', b, due, heq, hi', hs, hscan⟩ := ih k1 V1 b1 hi1 hempty hlt
        exact ⟨k', V', b, t :: due, heq, hi', hs1.trans hs,
          ScanOf.cons heq1 hm1 hout hneed hle htail (hf.nodup _) hscan⟩
    · rw [if_neg hle]
      refine ⟨k, V, needSchedule, [], rfl, hi, Scanned.refl k V, rfl, rfl, fun _ h => ?_, fun u m h => ?_,
        fun _ h => ?_, fun _ _ => ⟨rfl, rfl⟩, by simp⟩
      · cases h
      · rw [hcon] at h
        cases h
        exact not_le.mp hle
      · cases h

theorem osSchedScanTimerList_scan (hi : KernelInv k V) :
    ∃ k' V' b due, osSchedScanTimerList k = some (k', b) ∧ KernelInv k' V' ∧ Scanned k V k' V' ∧
      ScanOf (osGetCurrSchedTimeCycle k) k V false due k' V' b := by
  have hhead := hi.core.system .gTaskSortLink (.inr (.inr rfl))
  unfold osSchedScanTimerList
  by_cases hempty : losListEmpty k .gTaskSortLink = true
  · rw [if_pos hempty]
    rw [hi.core.ready.listEmpty_iff hhead] at hempty
    refine ⟨k, V, false, [], rfl, hi, Scanned.refl k V, rfl, rfl, fun _ h => ?_, fun u m h => ?_,
      fun _ h => ?_, fun _ _ => ⟨rfl, rfl⟩, rfl⟩
    · cases h
    · rw [hempty] at h
      cases h
    · cases h
  · rw [if_neg hempty]
    rw [hi.core.ready.listEmpty_iff hhead] at hempty
    have hlen : (V.content .gTaskSortLink).length ≤ gTaskMaxNum :=
      hi.core.length_le Node.sortLinkNode fun y hy => hi.core.mem_sortLink hy
    exact osSchedScanLoop_spec _ _ k V false hi hempty (by omega)

theorem osSchedScanTimerList_spec (hi : KernelInv k V) :
    ∃ k' V' b, osSchedScanTimerList k = some (k', b) ∧ KernelInv k' V' ∧ Scanned k V k' V' := by
  obtain ⟨k', V', b, _, heq, hi', hs, _⟩ := osSchedScanTimerList_scan hi
  exact ⟨k', V', b, heq, hi', hs⟩

end

end LiteosM.Kernel
