import LiteosM.Kernel.Block

/-!
# The switch

`OsSchedTaskSwitch` first parks the running task, then takes the most urgent ready task
out of the ready queue. In between no task is on the processor.
-/

namespace LiteosM.Kernel

open LiteosM.Lib.DlList

/-- `TaskOk` for a task that is not on the processor. -/
structure Parked (k : KernelState) (V : View Node) (t : Nat) : Prop where
  id : (k.gTaskCBArray t).taskID = t
  priority : (k.gTaskCBArray t).priority < 32
  startTime : (k.gTaskCBArray t).startTime ≤ osGetCurrSchedTimeCycle k
  flags : Consistent { (k.gTaskCBArray t).taskStatus with running := false }
  idle : t = k.gIdleTaskID → (k.gTaskCBArray t).taskStatus.ready
  free : (k.gTaskCBArray t).taskStatus.unused → V.role (.pendList t) = .member .gLosFreeTask ∨
    V.role (.pendList t) = .member .gTaskRecyleList
  queued : (k.gTaskCBArray t).taskStatus.ready → t ≠ k.gIdleTaskID →
    V.role (.pendList t) = .member (.gPriQueueList (k.gTaskCBArray t).priority)
  blocked : (k.gTaskCBArray t).taskStatus.pend → ∃ l, V.role (.pendList t) = .member (.wait l)
  off : (k.gTaskCBArray t).taskStatus.unused = false →
    ((k.gTaskCBArray t).taskStatus.ready → t = k.gIdleTaskID) →
    (k.gTaskCBArray t).taskStatus.pend = false → V.role (.pendList t) = .loose
  timed : ((k.gTaskCBArray t).taskStatus.delay ∨ (k.gTaskCBArray t).taskStatus.pendTime) →
    V.role (.sortLinkNode t) = .member .gTaskSortLink
  untimed : ¬ ((k.gTaskCBArray t).taskStatus.delay ∨ (k.gTaskCBArray t).taskStatus.pendTime) →
    V.role (.sortLinkNode t) = .loose
  response : (k.gTaskCBArray t).taskStatus.unused = false →
    ((k.gTaskCBArray t).responseTime = ⊤ ↔ V.role (.sortLinkNode t) = .loose)

/-- The bits that a switch leaves alone. -/
structure SameWait (s s' : TaskStatus) : Prop where
  unused : s'.unused = s.unused
  suspend : s'.suspend = s.suspend
  pend : s'.pend = s.pend
  delay : s'.delay = s.delay
  pendTime : s'.pendTime = s.pendTime
  timeout : s'.timeout = s.timeout

/-- A switch changes neither what the tasks wait for nor the wait lists. -/
structure Switched (k : KernelState) (V : View Node) (k' : KernelState) (V' : View Node) : Prop where
  gIdleTaskID : k'.gIdleTaskID = k.gIdleTaskID
  gSwtmrTaskID : k'.gSwtmrTaskID = k.gSwtmrTaskID
  gLosTaskLock : k'.gLosTaskLock = k.gLosTaskLock
  gTaskScheduled : k'.gTaskScheduled = k.gTaskScheduled
  cycle : k'.cycle = k.cycle
  pendSV : k'.pendSV = false
  status : ∀ u, SameWait (k.gTaskCBArray u).taskStatus (k'.gTaskCBArray u).taskStatus
  priority : ∀ u, (k'.gTaskCBArray u).priority = (k.gTaskCBArray u).priority
  taskMux : ∀ u, (k'.gTaskCBArray u).taskMux = (k.gTaskCBArray u).taskMux
  role : ∀ x, (∀ t, x ≠ .pendList t) → (∀ t, x ≠ .sortLinkNode t) → V'.role x = V.role x
  wait : ∀ l, V'.content (.wait l) = V.content (.wait l)
  clean : Clean (k'.gTaskCBArray k'.runTask).taskStatus

section

variable {k k' : KernelState} {V V' : View Node} {t u : Nat}

theorem SameWait.refl (s : TaskStatus) : SameWait s s := ⟨rfl, rfl, rfl, rfl, rfl, rfl⟩

theorem SameWait.trans {s s' s'' : TaskStatus} (h₁ : SameWait s s') (h₂ : SameWait s' s'') :
    SameWait s s'' :=
  ⟨h₂.unused.trans h₁.unused, h₂.suspend.trans h₁.suspend, h₂.pend.trans h₁.pend,
    h₂.delay.trans h₁.delay, h₂.pendTime.trans h₁.pendTime, h₂.timeout.trans h₁.timeout⟩

theorem TaskOk.not_running (ho : TaskOk k V t) (ht : t ≠ k.runTask) :
    (k.gTaskCBArray t).taskStatus.running = false := by
  cases h : (k.gTaskCBArray t).taskStatus.running with
  | false => rfl
  | true => exact absurd (ho.running.mp h) ht

theorem TaskOk.parked (ho : TaskOk k V t) (ht : t ≠ k.runTask) : Parked k V t := by
  have hrun := ho.not_running ht
  have hflags : { (k.gTaskCBArray t).taskStatus with running := false } =
      (k.gTaskCBArray t).taskStatus := by rw [← hrun]
  constructor
  case id => exact ho.id
  case priority => exact ho.priority
  case startTime => exact ho.startTime
  case flags => rw [hflags]; exact ho.flags
  case idle =>
    intro he
    obtain ⟨h1, h2, h3, h4⟩ := ho.idle he
    have hsome := ho.flags.some
    simp only [h1, h2, h3, h4, hrun] at hsome
    simpa using hsome
  case free => exact ho.free
  case queued => exact ho.queued
  case blocked => exact ho.blocked
  case off => exact ho.off
  case timed => exact fun h => ho.timed h ht
  case untimed => exact fun h => ho.untimed fun h' => absurd h' h
  case response => exact ho.response

theorem Parked.congr (hp : Parked k V u) (hcb : k'.gTaskCBArray u = k.gTaskCBArray u)
    (hpl : V'.role (.pendList u) = V.role (.pendList u))
    (hsl : V'.role (.sortLinkNode u) = V.role (.sortLinkNode u))
    (hidle : k'.gIdleTaskID = k.gIdleTaskID)
    (hnow : osGetCurrSchedTimeCycle k ≤ osGetCurrSchedTimeCycle k') : Parked k' V' u := by
  obtain ⟨h1, h2, h3, h4, h5, h6, h7, h8, h9, h10, h11, h12⟩ := hp
  constructor <;> simp only [hcb, hpl, hsl, hidle] <;> first | assumption | exact h3.trans hnow

theorem Parked.taskOk (hp : Parked k V u) (hrun : u ≠ k'.runTask)
    (hcb : k'.gTaskCBArray u = { k.gTaskCBArray u with
      taskStatus := { (k.gTaskCBArray u).taskStatus with running := false } })
    (hpl : V'.role (.pendList u) = V.role (.pendList u))
    (hsl : V'.role (.sortLinkNode u) = V.role (.sortLinkNode u))
    (hidle : k'.gIdleTaskID = k.gIdleTaskID)
    (hnow : osGetCurrSchedTimeCycle k' = osGetCurrSchedTimeCycle k) : TaskOk k' V' u := by
  obtain ⟨h1, h2, h3, h4, h5, h6, h7, h8, h9, h10, h11, h12⟩ := hp
  constructor <;> simp only [hcb, hpl, hsl, hidle, hnow]
  case id => exact h1
  case priority => exact h2
  case startTime => exact h3
  case flags => exact h4
  case running => simp [hrun]
  case live => exact fun h => absurd h hrun
  case idle =>
    intro he
    have hr := h4.ready (h5 he)
    refine ⟨?_, hr.1, hr.2.1, hr.2.2.1⟩
    cases h : (k.gTaskCBArray u).taskStatus.unused with
    | false => rfl
    | true =>
      have h' := (h4.unused h).1
      rw [show (k.gTaskCBArray u).taskStatus.ready = true from h5 he] at h'
      cases h'
  case free => exact h6
  case queued => exact h7
  case blocked => exact h8
  case off => exact h9
  case timed => exact fun h _ => h10 h
  case untimed => exact fun h => h11 fun h' => hrun (h h')
  case response => exact h12

end

variable [Config]

section

variable {k k' : KernelState} {V V' : View Node} {t u : Nat}

theorem osTimeSliceUpdate_spec (hi : KernelInv k V) (ht : t ≤ gTaskMaxNum) :
    ∃ k', osTimeSliceUpdate k t (osGetCurrSchedTimeCycle k) = some k' ∧ KernelInv k' V ∧
      Moved t k V k' V ∧ ∃ slice, k'.gTaskCBArray t = { k.gTaskCBArray t with
        timeSlice := slice, startTime := osGetCurrSchedTimeCycle k } := by
  have hst := hi.startTime ht
  unfold osTimeSliceUpdate
  dsimp only
  rw [if_neg (Nat.not_lt.mpr hst)]
  exact ⟨_, rfl, hi.modify t _ rfl rfl (Nat.le_refl _) rfl rfl, Moved.modifyTask t k V _, _,
    modifyTask_self k t _⟩

/-- What happens to the running task before the next one is chosen. -/
def osSchedPark (k : KernelState) : Option KernelState := do
  let k' ← osTimeSliceUpdate k k.runTask (osGetCurrSchedTimeCycle k)
  let cb := k'.gTaskCBArray k.runTask
  let s := cb.taskStatus
  if s.pendTime || s.delay then osAdd2SortLink k' k.runTask cb.startTime cb.waitTimes
  else if !(s.pend || s.suspend || s.unused) then osSchedTaskEnQueue k' k.runTask
  else some k'

theorem SpareOk.untimed (hs : SpareOk k) : (k.gTaskCBArray gTaskMaxNum).taskStatus.pendTime = false ∧
    (k.gTaskCBArray gTaskMaxNum).taskStatus.delay = false := by
  have h := hs.flags.unused hs.unused
  exact ⟨h.2.2.2.2, h.2.2.2.1⟩

theorem osSchedPark_spec (hi : KernelInv k V)
    (hready : k.runTask < gTaskMaxNum → (k.gTaskCBArray k.runTask).taskStatus.ready = false) :
    ∃ k' V', osSchedPark k = some k' ∧ Core k' V' ∧ Moved k.runTask k V k' V' ∧
      (∀ u < gTaskMaxNum, Parked k' V' u) ∧
      SameWait (k.gTaskCBArray k.runTask).taskStatus (k'.gTaskCBArray k.runTask).taskStatus ∧
      (k'.gTaskCBArray k.runTask).priority = (k.gTaskCBArray k.runTask).priority ∧
      (k'.gTaskCBArray k.runTask).taskMux = (k.gTaskCBArray k.runTask).taskMux ∧
      (k'.gTaskCBArray k.runTask).startTime = osGetCurrSchedTimeCycle k ∧
      (k'.gTaskCBArray k.runTask).taskStatus.running =
        (k.gTaskCBArray k.runTask).taskStatus.running ∧
      (k.runTask = gTaskMaxNum → (k'.gTaskCBArray k.runTask).taskStatus =
        (k.gTaskCBArray k.runTask).taskStatus) ∧
      (∀ w, V'.role (.pendList k.runTask) = .member (.wait w) ↔
        V.role (.pendList k.runTask) = .member (.wait w)) := by
  obtain ⟨k1, heq1, hi1, hm1, slice, hcb1⟩ := osTimeSliceUpdate_spec hi hi.run
  have hrun1 := hm1.runTask
  have hnow1 := hm1.now
  have hs1 : (k1.gTaskCBArray k.runTask).taskStatus = (k.gTaskCBArray k.runTask).taskStatus := by
    rw [hcb1]
  -- the other tasks are parked already, before and after a move of the running one
  have hother : ∀ k' V', Moved k.runTask k1 V k' V' → ∀ u < gTaskMaxNum, u ≠ k.runTask →
      Parked k' V' u := by
    intro k' V' hm u hu hne
    have hp := (hi1.task u hu).parked (by rw [hrun1]; exact hne)
    exact hp.congr (hm.task u hne) (hm.role _ (by simpa using hne) (by simp))
      (hm.role _ (by simp) (by simpa using hne)) hm.gIdleTaskID hm.now.ge
  have hall : ∀ k' V', Moved k.runTask k1 V k' V' → (k.runTask < gTaskMaxNum →
      Parked k' V' k.runTask) → ∀ u < gTaskMaxNum, Parked k' V' u := by
    intro k' V' hm hself u hu
    by_cases hne : u = k.runTask
    · rw [hne] at hu ⊢
      exact hself hu
    · exact hother k' V' hm u hu hne
  unfold osSchedPark
  rw [heq1]
  simp only [Option.bind_eq_bind, Option.bind_some]
  rw [hs1]
  by_cases htimed : ((k.gTaskCBArray k.runTask).taskStatus.pendTime ||
      (k.gTaskCBArray k.runTask).taskStatus.delay) = true
  · rw [if_pos htimed]
    have hlt : k.runTask < gTaskMaxNum := by
      rcases Nat.lt_or_eq_of_le hi.run with h | h
      · exact h
      · rw [h, hi.spare.untimed.1, hi.spare.untimed.2] at htimed
        cases htimed
    have ho := hi1.task k.runTask hlt
    have htimed' : (k1.gTaskCBArray k.runTask).taskStatus.delay ∨
        (k1.gTaskCBArray k.runTask).taskStatus.pendTime := by
      rw [hs1]
      rw [Bool.or_eq_true] at htimed
      exact htimed.symm
    obtain ⟨hunused, hnready⟩ := ho.of_timed htimed'
    have hsl := ho.untimed fun _ => hrun1.symm
    obtain ⟨k', V', r, heq', hc', hm', hcb', hr, hpl', hsl'⟩ := osAdd2SortLink_spec hi1.core hlt hsl
      (k1.gTaskCBArray k.runTask).startTime (k1.gTaskCBArray k.runTask).waitTimes
    have hs' : (k'.gTaskCBArray k.runTask).taskStatus = (k1.gTaskCBArray k.runTask).taskStatus := by
      rw [hcb']
    refine ⟨k', V', heq', hc', hm1.trans hm', hall k' V' hm' fun _ => ?_, ?_, ?_, ?_, ?_, ?_, ?_, ?_⟩
    · have hnidle := ho.not_idle_of_timed htimed'
      constructor
      case id => rw [hcb']; exact ho.id
      case priority => rw [hcb']; exact ho.priority
      case startTime => rw [hcb', hm'.now]; exact ho.startTime
      case flags =>
        rw [hs']
        obtain ⟨f1, f2, f3, f4, _⟩ := ho.flags
        refine ⟨f1, f2, f3, f4, ?_⟩
        rcases htimed' with h | h
        · exact .inr (.inr (.inr (.inr (.inr h))))
        · exact .inr (.inr (.inr (.inr (.inl (f4 h)))))
      case idle => rw [hm'.gIdleTaskID]; exact fun h => absurd h hnidle
      case free => rw [hs']; intro h; simp [hunused] at h
      case queued => rw [hs']; intro h; simp [hnready] at h
      case blocked => rw [hs', hpl']; exact ho.blocked
      case off => rw [hs', hpl', hm'.gIdleTaskID]; exact ho.off
      case timed => exact fun _ => hsl'
      case untimed => rw [hs']; exact fun h => absurd htimed' h
      case response =>
        rw [hcb', hsl']
        intro _
        exact iff_of_false hr (by simp)
    · rw [hs', hs1]
      exact SameWait.refl _
    · rw [hcb', hcb1]
    · rw [hcb', hcb1]
    · rw [hcb', hcb1]
    · rw [hs', hs1]
    · intro _
      rw [hs', hs1]
    · intro w
      rw [hpl']
  · rw [if_neg htimed]
    have htimes : (k.gTaskCBArray k.runTask).taskStatus.pendTime = false ∧
        (k.gTaskCBArray k.runTask).taskStatus.delay = false := by
      rw [← Bool.or_eq_false_iff, ← Bool.not_eq_true]
      exact htimed
    by_cases hrest : (!((k.gTaskCBArray k.runTask).taskStatus.pend ||
        (k.gTaskCBArray k.runTask).taskStatus.suspend ||
        (k.gTaskCBArray k.runTask).taskStatus.unused)) = true
    · rw [if_pos hrest]
      simp only [Bool.not_eq_true', Bool.or_eq_false_iff] at hrest
      obtain ⟨⟨hpend, hsusp⟩, hunused⟩ := hrest
      have hlt : k.runTask < gTaskMaxNum := by
        rcases Nat.lt_or_eq_of_le hi.run with h | h
        · exact h
        · rw [h, hi.spare.unused] at hunused
          cases hunused
      have ho := hi1.task k.runTask hlt
      have hnready := hready hlt
      have hpl : V.role (.pendList k.runTask) = .loose :=
        ho.off (by rw [hs1]; exact hunused) (fun h => by rw [hs1, hnready] at h; cases h)
          (by rw [hs1]; exact hpend)
      have hsl := ho.untimed fun _ => hrun1.symm
      obtain ⟨k', V', slice', heq', hc', hm', hcb', hpl', hsl', -⟩ := osSchedTaskEnQueue_spec hi1.core hlt
        ho.id ho.priority (by rw [hs1]; exact hnready) hpl
      have hs' : (k'.gTaskCBArray k.runTask).taskStatus =
          readied (k.gTaskCBArray k.runTask).taskStatus := by rw [hcb', hs1]
      refine ⟨k', V', heq', hc', hm1.trans hm', hall k' V' hm' fun _ => ?_, ?_, ?_, ?_, ?_, ?_, ?_, ?_⟩
      · constructor
        case id => rw [hcb']; exact ho.id
        case priority => rw [hcb']; exact ho.priority
        case startTime => rw [hcb', hm'.now]; exact ho.startTime
        case flags =>
          rw [hs']
          exact readied_consistent (s := { (k.gTaskCBArray k.runTask).taskStatus with
            running := false }) hunused
        case idle => rw [hs']; exact fun _ => rfl
        case free => rw [hs']; intro h; simp [readied, hunused] at h
        case queued =>
          rw [hcb', hpl', hm'.gIdleTaskID]
          intro _ hne
          rw [if_neg hne]
        case blocked => rw [hs']; intro h; cases h
        case off =>
          rw [hs', hpl', hm'.gIdleTaskID]
          intro _ h _
          rw [if_pos (h rfl)]
        case timed => rw [hs']; intro h; rcases h with h | h <;> cases h
        case untimed => rw [hsl']; exact fun _ => hsl
        case response =>
          rw [hsl', hcb']
          exact fun _ => ho.response (by rw [hs1]; exact hunused)
      · rw [hs']
        exact ⟨rfl, hsusp.symm, hpend.symm, htimes.2.symm, htimes.1.symm, rfl⟩
      · rw [hcb', hcb1]
      · rw [hcb', hcb1]
      · rw [hcb', hcb1]
      · rw [hs']
        rfl
      · exact fun h => absurd h (Nat.ne_of_lt hlt)
      · intro w
        rw [hpl, hpl']
        refine iff_of_false (fun h => ?_) (by simp)
        split at h <;> simp at h
    · rw [if_neg hrest]
      refine ⟨k1, V, rfl, hi1.core, hm1, hall k1 V (Moved.refl _ k1 V) fun hlt => ?_, ?_, ?_,
        ?_, ?_, ?_, ?_, ?_⟩
      · have ho := hi1.task k.runTask hlt
        have hstop : (k1.gTaskCBArray k.runTask).taskStatus.pend = true ∨
            (k1.gTaskCBArray k.runTask).taskStatus.suspend = true ∨
            (k1.gTaskCBArray k.runTask).taskStatus.unused = true := by
          rw [hs1]
          simp only [Bool.not_eq_true', Bool.not_eq_false, Bool.or_eq_true] at hrest
          exact or_assoc.mp hrest
        constructor
        case id => exact ho.id
        case priority => exact ho.priority
        case startTime => exact ho.startTime
        case flags =>
          obtain ⟨f1, f2, f3, f4, _⟩ := ho.flags
          refine ⟨f1, f2, f3, f4, ?_⟩
          rcases hstop with h | h | h
          · exact .inr (.inr (.inr (.inr (.inl h))))
          · exact .inr (.inr (.inr (.inl h)))
          · exact .inr (.inl h)
        case idle =>
          intro he
          obtain ⟨h1, h2, h3, h4⟩ := ho.idle he
          rw [h1, h2, h3] at hstop
          simp at hstop
        case free => exact ho.free
        case queued => exact ho.queued
        case blocked => exact ho.blocked
        case off => exact ho.off
        case timed =>
          rw [hs1, htimes.1, htimes.2]
          intro h
          simp at h
        case untimed => exact fun _ => ho.untimed fun _ => hrun1.symm
        case response => exact ho.response
      · rw [hs1]
        exact SameWait.refl _
      · rw [hcb1]
      · rw [hcb1]
      · rw [hcb1]
      · rw [hs1]
      · exact fun _ => hs1
      · exact fun _ => Iff.rfl

omit [Config] in
theorem Parked.of_gPriQueueList (hp : Parked k V t) {p : Nat}
    (hpl : V.role (.pendList t) = .member (.gPriQueueList p)) :
    (k.gTaskCBArray t).taskStatus.ready = true ∧ t ≠ k.gIdleTaskID ∧
      (k.gTaskCBArray t).priority = p := by
  cases hu : (k.gTaskCBArray t).taskStatus.unused with
  | true =>
    rcases hp.free hu with h | h <;> rw [hpl] at h <;> cases h
  | false =>
    cases hpend : (k.gTaskCBArray t).taskStatus.pend with
    | true =>
      obtain ⟨l, hl⟩ := hp.blocked hpend
      rw [hpl] at hl
      cases hl
    | false =>
      by_cases hoff : (k.gTaskCBArray t).taskStatus.ready = true → t = k.gIdleTaskID
      · have h := hp.off hu hoff hpend
        rw [hpl] at h
        cases h
      · obtain ⟨hr, hne⟩ := Classical.not_imp.mp hoff
        have h := hp.queued hr hne
        rw [hpl] at h
        injection h with h
        injection h with h
        exact ⟨hr, hne, h.symm⟩

theorem osGetTopTask_spec (hc : Core k V) (hp : ∀ u < gTaskMaxNum, Parked k V u)
    (hidle : k.gIdleTaskID < gTaskMaxNum) :
    ∃ n, osGetTopTask k = some n ∧ n < gTaskMaxNum ∧ (k.gTaskCBArray n).taskStatus.ready = true ∧
      ∀ u < gTaskMaxNum, (k.gTaskCBArray u).taskStatus.ready = true → u ≠ k.gIdleTaskID →
        n ≠ k.gIdleTaskID ∧ (k.gTaskCBArray n).priority ≤ (k.gTaskCBArray u).priority := by
  unfold osGetTopTask
  by_cases hb : k.gQueueBitmap = 0#32
  · rw [if_neg (not_not.mpr hb)]
    refine ⟨_, rfl, hidle, (hp _ hidle).idle rfl, fun u hu hr hne => ?_⟩
    have hq := (hp u hu).queued hr hne
    have hnil := hc.ready.bitmap_eq_zero.mp hb _ (hp u hu).priority
    have hm := (hc.ready.forest.mem _ _).mpr hq
    rw [hnil] at hm
    cases hm
  · rw [if_pos hb]
    obtain ⟨x, l, hlt, hcon, hfirst, hlow⟩ := hc.ready.top hb
    have hx : x ∈ V.content (.gPriQueueList (clz k.gQueueBitmap)) := by simp [hcon]
    obtain ⟨n, hn, rfl⟩ := hc.mem_pendList hx (.inr (.inr (.inl ⟨_, rfl⟩)))
    obtain ⟨hr, hne, hpri⟩ := (hp n hn).of_gPriQueueList ((hc.ready.forest.mem _ _).mp hx)
    rw [hfirst]
    refine ⟨n, rfl, hn, hr, fun u hu hru hneu => ⟨hne, ?_⟩⟩
    have hm := (hc.ready.forest.mem _ _).mpr ((hp u hu).queued hru hneu)
    rw [hpri]
    by_contra hlt'
    rw [hlow _ (Nat.not_le.mp hlt')] at hm
    cases hm

theorem Moved.wait_eq (hc : Core k V) (hc' : Core k' V') (hm : Moved t k V k' V')
    (hw : ∀ w, V'.role (.pendList t) = .member (.wait w) ↔ V.role (.pendList t) = .member (.wait w))
    (l : WaitList) : V'.content (.wait l) = V.content (.wait l) := by
  have hf := hc.ready.forest
  have hf' := hc'.ready.forest
  apply (hm.wait l).eq_of_length_le
  refine (List.subperm_of_subset (hf.nodup _) fun x hx => ?_).length_le
  obtain ⟨u, _, rfl⟩ := hc.mem_pendList hx (.inr (.inr (.inr ⟨l, rfl⟩)))
  rw [hf.mem] at hx
  rw [hf'.mem]
  by_cases hut : u = t
  · rw [hut] at hx ⊢
    exact (hw l).mpr hx
  · rw [hm.role _ (by simpa using hut) (by simp)]
    exact hx

/-- Putting the chosen task on the processor: `k` is the state with the running task parked,
`kx` the one in which only the bits of the tasks have been switched over. -/
theorem switch_finish {kx : KernelState} {n : Nat} (hc : Core k V)
    (hp : ∀ u < gTaskMaxNum, Parked k V u) (hn : n < gTaskMaxNum)
    (hr : (k.gTaskCBArray n).taskStatus.ready = true) (hspare : SpareOk kx)
    (hlinks : kx.links = k.links) (hbit : kx.gQueueBitmap = k.gQueueBitmap)
    (hidle : kx.gIdleTaskID = k.gIdleTaskID)
    (hnow : osGetCurrSchedTimeCycle kx = osGetCurrSchedTimeCycle k)
    (hsched : kx.gTaskScheduled → kx.gIdleTaskID < gTaskMaxNum)
    (hcbn : kx.gTaskCBArray n = { k.gTaskCBArray n with
      taskStatus := { (k.gTaskCBArray n).taskStatus with running := true }
      startTime := osGetCurrSchedTimeCycle k })
    (hcb : ∀ u < gTaskMaxNum, u ≠ n → kx.gTaskCBArray u = { k.gTaskCBArray u with
      taskStatus := { (k.gTaskCBArray u).taskStatus with running := false } }) :
    ∃ V', KernelInv { osSchedTaskDeQueue kx n with runTask := n } V' ∧
      Moved n kx V (osSchedTaskDeQueue kx n) V' ∧
      (osSchedTaskDeQueue kx n).gTaskCBArray n = { kx.gTaskCBArray n with
        taskStatus := { (kx.gTaskCBArray n).taskStatus with ready := false } } ∧
      Clean ((osSchedTaskDeQueue kx n).gTaskCBArray n).taskStatus ∧
      (∀ w, V'.role (.pendList n) = .member (.wait w) ↔ V.role (.pendList n) = .member (.wait w)) := by
  have hpn := hp n hn
  obtain ⟨hsusp, hpend, hdelay, htime⟩ := hpn.flags.ready hr
  dsimp only at hsusp hpend hdelay htime
  have hunused : (k.gTaskCBArray n).taskStatus.unused = false := by
    cases h : (k.gTaskCBArray n).taskStatus.unused with
    | false => rfl
    | true =>
      have h' := (hpn.flags.unused h).1
      rw [show (k.gTaskCBArray n).taskStatus.ready = true from hr] at h'
      cases h'
  have hsl := hpn.untimed (by simp [hdelay, htime])
  obtain ⟨V', hc', hm', hcb', hpl', hsl'⟩ := osSchedTaskDeQueue_spec (hc.congr hlinks hbit)
    (t := n) (by rw [hcbn]; exact hpn.id) (by rw [hcbn]; exact hpn.priority)
    (by rw [hcbn, hidle]; exact hpn.queued)
  have hloose : V'.role (.pendList n) = .loose := by
    rw [hpl', hcbn, hidle]
    split
    · rfl
    · next h => exact hpn.off hunused (fun _ => by simpa [hr] using h) hpend
  have hstat : ((osSchedTaskDeQueue kx n).gTaskCBArray n).taskStatus =
      { (k.gTaskCBArray n).taskStatus with running := true, ready := false } := by
    rw [hcb', hcbn]
  generalize osSchedTaskDeQueue kx n = k' at hc' hm' hcb' hstat ⊢
  have hcbn' : k'.gTaskCBArray n = { k.gTaskCBArray n with
      taskStatus := { (k.gTaskCBArray n).taskStatus with running := true, ready := false }
      startTime := osGetCurrSchedTimeCycle k } := by rw [hcb', hcbn]
  refine ⟨V', ⟨hc'.congr rfl rfl, fun u hu => ?_, ?_, Nat.le_of_lt hn, ?_⟩, hm', hcb', ?_, fun w => ?_⟩
  · by_cases hun : u = n
    · subst hun
      constructor
      case id => rw [hcbn']; exact hpn.id
      case priority => rw [hcbn']; exact hpn.priority
      case startTime =>
        rw [hcbn']
        exact (hm'.now.trans hnow).ge
      case flags =>
        rw [hcbn']
        exact ⟨fun h => by simp [hunused] at h, fun h => by simp at h, fun h => by simp [hpend] at h,
          fun h => by simp [htime] at h, .inl rfl⟩
      case running => rw [hcbn']; exact iff_of_true rfl rfl
      case live => rw [hcbn']; exact fun _ => hunused
      case idle => rw [hcbn']; exact fun _ => ⟨hunused, hsusp, hpend, hdelay⟩
      case free => rw [hcbn']; intro h; rw [hunused] at h; cases h
      case queued => rw [hcbn']; intro h; cases h
      case blocked =>
        rw [hcbn']
        intro h
        simp [hpend] at h
      case off => exact fun _ _ _ => hloose
      case timed => exact fun _ h => absurd rfl h
      case untimed => rw [hsl']; exact fun _ => hsl
      case response => rw [hcbn', hsl']; exact fun _ => hpn.response hunused
    · have hcbu : k'.gTaskCBArray u = { k.gTaskCBArray u with
          taskStatus := { (k.gTaskCBArray u).taskStatus with running := false } } := by
        rw [hm'.task u hun]
        exact hcb u hu hun
      exact (hp u hu).taskOk hun hcbu (hm'.role _ (by simpa using hun) (by simp))
        (hm'.role _ (by simp) (by simpa using hun)) (hm'.gIdleTaskID.trans hidle)
        (hm'.now.trans hnow)
  · exact hspare.congr (hm'.task _ (Nat.ne_of_gt hn)) hm'.now.ge
  · show k'.gTaskScheduled → k'.gIdleTaskID < gTaskMaxNum
    rw [hm'.gTaskScheduled, hm'.gIdleTaskID]
    exact hsched
  · rw [hstat]
    exact ⟨hunused, rfl, hsusp, hpend, hdelay, htime⟩
  · rw [hloose]
    refine iff_of_false (by simp) ?_
    by_cases hi : n = k.gIdleTaskID
    · rw [hpn.off hunused (fun _ => hi) hpend]
      simp
    · rw [hpn.queued hr hi]
      simp

/-- The bits of the two tasks and the start time of the new one. -/
def osSchedHandOver (k : KernelState) (runTask newTask : Nat) : KernelState :=
  let k := { k with newTask := newTask }
  if runTask ≠ newTask then
    let k := k.modifyStatus runTask fun s => { s with running := false }
    let k := k.modifyStatus newTask fun s => { s with running := true }
    let startTime := (k.gTaskCBArray runTask).startTime
    k.modifyTask newTask fun cb => { cb with startTime := startTime }
  else k

theorem osSchedTaskSwitch_eq (k : KernelState) : osSchedTaskSwitch k =
    (osSchedPark k).bind fun k2 => (osGetTopTask k2).bind fun n =>
      some (osSchedTaskDeQueue (osSchedHandOver k2 k.runTask n) n, decide (k.runTask ≠ n)) := by
  unfold osSchedTaskSwitch osSchedPark osSchedHandOver
  simp only [Option.bind_eq_bind]
  cases osTimeSliceUpdate k k.runTask (osGetCurrSchedTimeCycle k) with
  | none => rfl
  | some k1 =>
    simp only [Option.bind_some]
    have hlast : ∀ k2 : KernelState, ((osGetTopTask k2).bind fun n =>
        if k.runTask ≠ n then
          let kx := ((({ k2 with newTask := n }).modifyStatus k.runTask fun s =>
            { s with running := false }).modifyStatus n fun s => { s with running := true })
          some (osSchedTaskDeQueue (kx.modifyTask n fun cb =>
            { cb with startTime := (kx.gTaskCBArray k.runTask).startTime }) n, true)
        else some (osSchedTaskDeQueue { k2 with newTask := n } n, false)) =
        (osGetTopTask k2).bind fun n => some (osSchedTaskDeQueue (if k.runTask ≠ n then
          let kx := ((({ k2 with newTask := n }).modifyStatus k.runTask fun s =>
            { s with running := false }).modifyStatus n fun s => { s with running := true })
          kx.modifyTask n fun cb => { cb with startTime := (kx.gTaskCBArray k.runTask).startTime }
          else { k2 with newTask := n }) n, decide (k.runTask ≠ n)) := by
      intro k2
      cases osGetTopTask k2 with
      | none => rfl
      | some n =>
        simp only [Option.bind_some]
        by_cases hne : k.runTask ≠ n
        · rw [if_pos hne, if_pos hne, decide_eq_true hne]
        · rw [if_neg hne, if_neg hne, decide_eq_false hne]
    split
    · cases osAdd2SortLink k1 k.runTask (k1.gTaskCBArray k.runTask).startTime
        (k1.gTaskCBArray k.runTask).waitTimes with
      | none => rfl
      | some k2 => exact hlast k2
    · split
      · cases osSchedTaskEnQueue k1 k.runTask with
        | none => rfl
        | some k2 => exact hlast k2
      · exact hlast k1

omit [Config] in
theorem osSchedTaskDeQueue_newTask (k : KernelState) (t : Nat) :
    (osSchedTaskDeQueue k t).newTask = k.newTask := by
  unfold osSchedTaskDeQueue
  dsimp only
  split
  · split <;> rfl
  · rfl

omit [Config] in
theorem osSchedHandOver_spec (k : KernelState) (r n : Nat) :
    (osSchedHandOver k r n).links = k.links ∧ (osSchedHandOver k r n).gQueueBitmap = k.gQueueBitmap ∧
      Steady k (osSchedHandOver k r n) ∧ (osSchedHandOver k r n).newTask = n ∧
      (∀ u, u ≠ n → u ≠ r → (osSchedHandOver k r n).gTaskCBArray u = k.gTaskCBArray u) ∧
      (r ≠ n → (osSchedHandOver k r n).gTaskCBArray r = { k.gTaskCBArray r with
        taskStatus := { (k.gTaskCBArray r).taskStatus with running := false } }) ∧
      (r ≠ n → (osSchedHandOver k r n).gTaskCBArray n = { k.gTaskCBArray n with
        taskStatus := { (k.gTaskCBArray n).taskStatus with running := true }
        startTime := (k.gTaskCBArray r).startTime }) ∧
      (r = n → (osSchedHandOver k r n).gTaskCBArray n = k.gTaskCBArray n) := by
  unfold osSchedHandOver
  dsimp only
  by_cases hne : r ≠ n
  · rw [if_pos hne]
    refine ⟨rfl, rfl, ⟨rfl, rfl, rfl, rfl, rfl, rfl, rfl⟩, rfl, fun u hu hur => ?_, fun _ => ?_,
      fun _ => ?_, fun h => absurd h hne⟩
    · simp [KernelState.modifyStatus, KernelState.modifyTask, Function.update_apply, hu, hur]
    · simp [KernelState.modifyStatus, KernelState.modifyTask, Function.update_apply, hne]
    · simp [KernelState.modifyStatus, KernelState.modifyTask, hne, hne.symm]
  · rw [if_neg hne]
    exact ⟨rfl, rfl, ⟨rfl, rfl, rfl, rfl, rfl, rfl, rfl⟩, rfl, fun _ _ _ => rfl,
      fun h => absurd h hne, fun h => absurd h hne, fun _ => rfl⟩

omit [Config] in
theorem osSchedHandOver_same (k : KernelState) (r n u : Nat) :
    SameWait (k.gTaskCBArray u).taskStatus ((osSchedHandOver k r n).gTaskCBArray u).taskStatus ∧
      ((osSchedHandOver k r n).gTaskCBArray u).priority = (k.gTaskCBArray u).priority ∧
      ((osSchedHandOver k r n).gTaskCBArray u).taskMux = (k.gTaskCBArray u).taskMux := by
  obtain ⟨_, _, _, _, hother, hr, hn, hrn⟩ := osSchedHandOver_spec k r n
  have hsame := SameWait.refl (k.gTaskCBArray u).taskStatus
  by_cases hne : r = n
  · by_cases hun : u = n
    · rw [hun] at hsame ⊢
      rw [hrn hne]
      exact ⟨hsame, rfl, rfl⟩
    · rw [hother u hun (by rwa [hne])]
      exact ⟨hsame, rfl, rfl⟩
  · by_cases hun : u = n
    · rw [hun, hn hne]
      exact ⟨⟨rfl, rfl, rfl, rfl, rfl, rfl⟩, rfl, rfl⟩
    · by_cases hur : u = r
      · rw [hur, hr hne]
        exact ⟨⟨rfl, rfl, rfl, rfl, rfl, rfl⟩, rfl, rfl⟩
      · rw [hother u hun hur]
        exact ⟨hsame, rfl, rfl⟩

theorem halPendSV_spec (hi : KernelInv k V) (hsched : k.gTaskScheduled)
    (hready : k.runTask < gTaskMaxNum → (k.gTaskCBArray k.runTask).taskStatus.ready = false) :
    ∃ k' V', halPendSV k = some k' ∧ KernelInv k' V' ∧ Switched k V k' V' ∧
      k'.runTask < gTaskMaxNum ∧
      (∀ u < gTaskMaxNum, (k'.gTaskCBArray u).taskStatus.ready = true → u ≠ k'.gIdleTaskID →
        k'.runTask ≠ k'.gIdleTaskID ∧
        (k'.gTaskCBArray k'.runTask).priority ≤ (k'.gTaskCBArray u).priority) ∧
      ∀ u, u ≠ k.runTask → u ≠ k'.runTask → V'.role (.pendList u) = V.role (.pendList u) := by
  have hi0 : KernelInv { k with pendSV := false } V :=
    hi.congr rfl rfl rfl rfl rfl rfl (Nat.le_refl _)
  obtain ⟨k2, V2, hpark, hc2, hm2, hp2, hsame2, hpri2, hmux2, hst2, hrun2, hmax2, hw2⟩ :=
    osSchedPark_spec hi0 hready
  dsimp only at hm2 hsame2 hpri2 hmux2 hst2 hrun2 hmax2 hw2
  have hidle2 : k2.gIdleTaskID = k.gIdleTaskID := hm2.gIdleTaskID
  have hlt : k.gIdleTaskID < gTaskMaxNum := hi.idle hsched
  obtain ⟨n, htop, hn, hrn, hbest⟩ := osGetTopTask_spec hc2 hp2 (by rw [hidle2]; exact hlt)
  obtain ⟨hx1, hx2, hx3, hx4, hother, hxr, hxn, hxrn⟩ := osSchedHandOver_spec k2 k.runTask n
  have hxsame := osSchedHandOver_same k2 k.runTask n
  have hnow2 : osGetCurrSchedTimeCycle k2 = osGetCurrSchedTimeCycle k := hm2.now
  -- tasks other than the running one had a clear `RUNNING` bit all along
  have hclear : ∀ u < gTaskMaxNum, u ≠ k.runTask → k2.gTaskCBArray u = { k2.gTaskCBArray u with
      taskStatus := { (k2.gTaskCBArray u).taskStatus with running := false } } := by
    intro u hu hne
    have h := (hi.task u hu).not_running hne
    have hcb : k2.gTaskCBArray u = k.gTaskCBArray u := hm2.task u hne
    rw [← h, ← hcb]
  have heq : halPendSV k = some { osSchedTaskDeQueue (osSchedHandOver k2 k.runTask n) n with
      runTask := if k.runTask ≠ n then n
        else (osSchedTaskDeQueue (osSchedHandOver k2 k.runTask n) n).runTask } := by
    unfold halPendSV
    rw [osSchedTaskSwitch_eq, hpark]
    simp only [Option.bind_eq_bind, Option.bind_some, htop, osSchedTaskDeQueue_newTask, hx4,
      decide_eq_true_eq]
  generalize osSchedHandOver k2 k.runTask n = kx at *
  have hspare : SpareOk kx := by
    by_cases hmr : gTaskMaxNum = k.runTask
    · have hne : k.runTask ≠ n := by omega
      have hcb := hxr hne
      rw [← hmr] at hcb hmax2 hst2
      have hs := hmax2 rfl
      refine ⟨?_, ?_, ?_⟩
      · rw [hcb, hx3.now]
        exact (hst2.trans hnow2.symm).le
      · rw [hcb, hs]
        exact hi.spare.unused
      · rw [hcb, hs]
        have hu := hi.spare.unused
        obtain ⟨f1, f2, f3, f4, _⟩ := hi.spare.flags
        exact ⟨f1, f2, f3, f4, .inr (.inl hu)⟩
    · have hcb : kx.gTaskCBArray gTaskMaxNum = k.gTaskCBArray gTaskMaxNum :=
        (hother _ (Nat.ne_of_gt hn) hmr).trans (hm2.task _ hmr)
      exact hi.spare.congr hcb (hx3.now.trans hnow2).ge
  have hcbn : kx.gTaskCBArray n = { k2.gTaskCBArray n with
      taskStatus := { (k2.gTaskCBArray n).taskStatus with running := true }
      startTime := osGetCurrSchedTimeCycle k2 } := by
    by_cases hne : k.runTask = n
    · have hrun : (k2.gTaskCBArray n).taskStatus.running = true := by
        rw [← hne, hrun2]
        exact (hi.task k.runTask (by rwa [hne])).running.mpr rfl
      have hst : (k2.gTaskCBArray n).startTime = osGetCurrSchedTimeCycle k2 := by
        rw [← hne, hst2, hnow2]
        rfl
      rw [hxrn hne, ← hrun, ← hst]
    · rw [hxn hne, hst2, hnow2]
      rfl
  have hcbu : ∀ u < gTaskMaxNum, u ≠ n → kx.gTaskCBArray u = { k2.gTaskCBArray u with
      taskStatus := { (k2.gTaskCBArray u).taskStatus with running := false } } := by
    intro u hu hun
    by_cases hur : u = k.runTask
    · rw [hur]
      exact hxr (hur ▸ hun)
    · rw [hother u hun hur]
      exact hclear u hu hur
  obtain ⟨V', hi', hm', hcb', hclean, hw'⟩ := switch_finish hc2 hp2 hn hrn hspare hx1 hx2
    hx3.gIdleTaskID hx3.now (by rw [hx3.gIdleTaskID, hidle2]; exact fun _ => hlt) hcbn hcbu
  have hrunx : (osSchedTaskDeQueue kx n).runTask = k.runTask :=
    hm'.runTask.trans (hx3.runTask.trans hm2.runTask)
  have hturn : (if k.runTask ≠ n then n else (osSchedTaskDeQueue kx n).runTask) = n := by
    by_cases hne : k.runTask = n
    · rw [if_neg (not_not.mpr hne), hrunx, hne]
    · rw [if_pos hne]
  rw [hturn] at heq
  have hsame' : ∀ u, SameWait (k.gTaskCBArray u).taskStatus
      ((osSchedTaskDeQueue kx n).gTaskCBArray u).taskStatus ∧
      ((osSchedTaskDeQueue kx n).gTaskCBArray u).priority = (k.gTaskCBArray u).priority ∧
      ((osSchedTaskDeQueue kx n).gTaskCBArray u).taskMux = (k.gTaskCBArray u).taskMux := by
    intro u
    obtain ⟨h1, h2, h3⟩ := hxsame u
    have hk2 : SameWait (k.gTaskCBArray u).taskStatus (k2.gTaskCBArray u).taskStatus ∧
        (k2.gTaskCBArray u).priority = (k.gTaskCBArray u).priority ∧
        (k2.gTaskCBArray u).taskMux = (k.gTaskCBArray u).taskMux := by
      by_cases hur : u = k.runTask
      · rw [hur]
        exact ⟨hsame2, hpri2, hmux2⟩
      · rw [show k2.gTaskCBArray u = k.gTaskCBArray u from hm2.task u hur]
        exact ⟨SameWait.refl _, rfl, rfl⟩
    have hx : SameWait (kx.gTaskCBArray u).taskStatus
        ((osSchedTaskDeQueue kx n).gTaskCBArray u).taskStatus ∧
        ((osSchedTaskDeQueue kx n).gTaskCBArray u).priority = (kx.gTaskCBArray u).priority ∧
        ((osSchedTaskDeQueue kx n).gTaskCBArray u).taskMux = (kx.gTaskCBArray u).taskMux := by
      by_cases hun : u = n
      · rw [hun, hcb']
        exact ⟨⟨rfl, rfl, rfl, rfl, rfl, rfl⟩, rfl, rfl⟩
      · rw [hm'.task u hun]
        exact ⟨SameWait.refl _, rfl, rfl⟩
    exact ⟨(hk2.1.trans h1).trans hx.1, hx.2.1.trans (h2.trans hk2.2.1),
      hx.2.2.trans (h3.trans hk2.2.2)⟩
  refine ⟨_, V', heq, hi', ⟨?_, ?_, ?_, ?_, ?_, ?_, fun u => (hsame' u).1, fun u => (hsame' u).2.1,
    fun u => (hsame' u).2.2, fun x hx hy => ?_, fun l => ?_, hclean⟩, hn, fun u hu hru hne => ?_,
    fun u hur hun => ?_⟩
  · exact hm'.gIdleTaskID.trans (hx3.gIdleTaskID.trans hidle2)
  · exact hm'.gSwtmrTaskID.trans (hx3.gSwtmrTaskID.trans hm2.gSwtmrTaskID)
  · exact hm'.gLosTaskLock.trans (hx3.gLosTaskLock.trans hm2.gLosTaskLock)
  · exact hm'.gTaskScheduled.trans (hx3.gTaskScheduled.trans hm2.gTaskScheduled)
  · exact hm'.cycle.trans (hx3.cycle.trans hm2.cycle)
  · exact hm'.pendSV.trans (hx3.pendSV.trans hm2.pendSV)
  · exact (hm'.role x (hx n) (hy n)).trans (hm2.role x (hx _) (hy _))
  · have hcx : Core kx V2 := hc2.congr hx1 hx2
    have hc' : Core (osSchedTaskDeQueue kx n) V' := hi'.core.congr rfl rfl
    rw [hm'.wait_eq hcx hc' hw' l]
    exact hm2.wait_eq hi0.core hc2 hw2 l
  · have hun : u ≠ n := by
      intro he
      rw [he] at hru
      have h := hclean.ready
      rw [show ((osSchedTaskDeQueue kx n).gTaskCBArray n).taskStatus.ready = true from hru] at h
      cases h
    have hidle' : (osSchedTaskDeQueue kx n).gIdleTaskID = k2.gIdleTaskID :=
      hm'.gIdleTaskID.trans hx3.gIdleTaskID
    have hne2 : u ≠ k2.gIdleTaskID := by
      rw [← hidle']
      exact hne
    have hru2 : (k2.gTaskCBArray u).taskStatus.ready = true := by
      have h : ((osSchedTaskDeQueue kx n).gTaskCBArray u).taskStatus.ready = true := hru
      rw [hm'.task u hun, hcbu u hu hun] at h
      exact h
    obtain ⟨hb1, hb2⟩ := hbest u hu hru2 hne2
    refine ⟨?_, ?_⟩
    · show n ≠ (osSchedTaskDeQueue kx n).gIdleTaskID
      rw [hidle']
      exact hb1
    · show ((osSchedTaskDeQueue kx n).gTaskCBArray n).priority ≤
        ((osSchedTaskDeQueue kx n).gTaskCBArray u).priority
      rw [hcb', hm'.task u hun, hcbn, hcbu u hu hun]
      exact hb2
  · exact (hm'.role (.pendList u) (by simpa using hun) (by simp)).trans
      (hm2.role (.pendList u) (by simpa using hur) (by simp))

/-- The assertion of `OsSchedTaskEnQueue` fails if the running task was made ready before the
switch. -/
theorem halPendSV_ready (hi : KernelInv k V) (hlt : k.runTask < gTaskMaxNum)
    (hready : (k.gTaskCBArray k.runTask).taskStatus.ready = true) : halPendSV k = none := by
  have hi0 : KernelInv { k with pendSV := false } V :=
    hi.congr rfl rfl rfl rfl rfl rfl (Nat.le_refl _)
  have ho := hi.task k.runTask hlt
  obtain ⟨hsusp, hpend, hdelay, htime⟩ := ho.flags.ready hready
  have hunused := ho.live rfl
  obtain ⟨k1, heq1, _, _, slice, hcb1⟩ := osTimeSliceUpdate_spec hi0 hi0.run
  have hs1 : (k1.gTaskCBArray k.runTask).taskStatus = (k.gTaskCBArray k.runTask).taskStatus := by
    rw [hcb1]
  have henq : osSchedTaskEnQueue k1 k.runTask = none := by
    unfold osSchedTaskEnQueue
    rw [if_pos]
    show (k1.gTaskCBArray k.runTask).taskStatus.ready = true
    rw [hs1]
    exact hready
  have hpark : osSchedPark { k with pendSV := false } = none := by
    unfold osSchedPark
    rw [heq1]
    simp only [Option.bind_eq_bind, Option.bind_some]
    rw [hs1, htime, hdelay, if_neg (by simp), hpend, hsusp, hunused, if_pos (by simp)]
    exact henq
  unfold halPendSV
  rw [osSchedTaskSwitch_eq, hpark]
  rfl

end

end LiteosM.Kernel
