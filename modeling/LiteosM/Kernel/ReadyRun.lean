import LiteosM.Kernel.Boot

/-!
# The ready queue by itself

The scheduler's own operations in any order, on control blocks in any state in which none
is `READY` yet.
-/

namespace LiteosM.Kernel

open LiteosM.Lib.DlList LiteosM.Lib.LinkedList LiteosM.Lib.Transition

variable [Config]

inductive QueueOp
  | enQueue (taskCB : Nat)
  | deQueue (taskCB : Nat)
  | modifyParam (taskCB priority : Nat)
  | switch
  | elapse (cycles : Nat)

/-- `OsSchedTaskSwitch` is followed by the exchange of the running task. -/
def queueStep (k : KernelState) : QueueOp → Option KernelState
  | .enQueue taskCB =>
    if taskCB < gTaskMaxNum ∧ (k.status taskCB).ready = false then osSchedTaskEnQueue k taskCB
    else none
  | .deQueue taskCB => if taskCB < gTaskMaxNum then some (osSchedTaskDeQueue k taskCB) else none
  | .modifyParam taskCB priority =>
    if taskCB < gTaskMaxNum ∧ priority ≤ osTaskPriorityLowest then
      (osSchedModifyTaskSchedParam k taskCB priority).map Prod.fst
    else none
  | .switch => halPendSV k
  | .elapse cycles => some { k with cycle := k.cycle + cycles }

/-- A state just after `OsSchedInit`, with control blocks that no list knows of yet. -/
structure SchedFresh (k : KernelState) : Prop where
  lists : ∃ k₀, k = osSchedInit (losListInit (losListInit k₀ .gLosFreeTask) .gTaskRecyleList)
  idle : k.gIdleTaskID < gTaskMaxNum
  id : ∀ t < gTaskMaxNum, (k.gTaskCBArray t).taskID = t
  priority : ∀ t < gTaskMaxNum, (k.gTaskCBArray t).priority ≤ osTaskPriorityLowest
  ready : ∀ t, (k.gTaskCBArray t).taskStatus.ready = false
  untimed : (k.gTaskCBArray k.gIdleTaskID).taskStatus.delay = false ∧
    (k.gTaskCBArray k.gIdleTaskID).taskStatus.pendTime = false
  run : k.runTask < gTaskMaxNum ∨ (k.gTaskCBArray k.runTask).taskStatus = { osTaskStatusUnused with
    running := true }

def InQueues (k : KernelState) (t : Nat) : Prop :=
  t < gTaskMaxNum ∧ (k.status t).ready = true ∧ t ≠ k.gIdleTaskID

/-- What the bitmap and the lists say about the tasks. -/
structure QueuesRight (k : KernelState) : Prop where
  bitmap : ∀ p < osPriorityQueueNum, k.gQueueBitmap.getLsbD (31 - p) = true ↔
    losListEmpty k (.gPriQueueList p) = false
  queue : ∀ p < osPriorityQueueNum, ∃ l : List Nat, l.Nodup ∧
    Links (fun _ => True) k.links.next k.links.prev (.gPriQueueList p) (l.map Node.pendList) ∧
      ∀ t, t ∈ l ↔ InQueues k t ∧ (k.gTaskCBArray t).priority = p
  top : ∃ n, osGetTopTask k = some n ∧ ((n = k.gIdleTaskID ∧ ∀ u, ¬ InQueues k u) ∨
    (InQueues k n ∧ ∀ u, InQueues k u → (k.gTaskCBArray n).priority ≤ (k.gTaskCBArray u).priority))

/-- Between two operations. -/
structure QueueTask (k : KernelState) (V : View Node) (t : Nat) : Prop where
  id : (k.gTaskCBArray t).taskID = t
  priority : (k.gTaskCBArray t).priority < 32
  queued : (k.gTaskCBArray t).taskStatus.ready → t ≠ k.gIdleTaskID →
    V.role (.pendList t) = .member (.gPriQueueList (k.gTaskCBArray t).priority)
  off : ((k.gTaskCBArray t).taskStatus.ready → t = k.gIdleTaskID) → V.role (.pendList t) = .loose
  untimed : ((k.gTaskCBArray t).taskStatus.ready ∨ t = k.gIdleTaskID) →
    (k.gTaskCBArray t).taskStatus.delay = false ∧ (k.gTaskCBArray t).taskStatus.pendTime = false

structure QueueInv (k : KernelState) (V : View Node) : Prop where
  core : Core k V
  task : ∀ t < gTaskMaxNum, QueueTask k V t
  idle : k.gIdleTaskID < gTaskMaxNum
  run : k.runTask < gTaskMaxNum ∨ (k.gTaskCBArray k.runTask).taskStatus = { osTaskStatusUnused with
    running := true }
  sort : ((k.gTaskCBArray k.runTask).taskStatus.delay ∨ (k.gTaskCBArray k.runTask).taskStatus.pendTime) →
    V.role (.sortLinkNode k.runTask) = .loose

section

variable {k k' : KernelState} {V V' : View Node} {t u : Nat} {op : QueueOp}

omit [Config] in
theorem QueueTask.congr (h : QueueTask k V u) (hcb : k'.gTaskCBArray u = k.gTaskCBArray u)
    (hp : V'.role (.pendList u) = V.role (.pendList u)) (hid : k'.gIdleTaskID = k.gIdleTaskID) :
    QueueTask k' V' u := by
  obtain ⟨h1, h2, h3, h4, h5⟩ := h
  constructor <;> simp only [hcb, hp, hid] <;> assumption

omit [Config] in
theorem QueueTask.of_queue (h : QueueTask k V t) {p : Nat}
    (hp : V.role (.pendList t) = .member (.gPriQueueList p)) :
    (k.gTaskCBArray t).taskStatus.ready = true ∧ t ≠ k.gIdleTaskID ∧
      (k.gTaskCBArray t).priority = p := by
  by_cases hoff : (k.gTaskCBArray t).taskStatus.ready = true → t = k.gIdleTaskID
  · have h' := h.off hoff
    rw [hp] at h'
    cases h'
  · obtain ⟨hr, hne⟩ := Classical.not_imp.mp hoff
    have h' := h.queued hr hne
    rw [hp] at h'
    injection h' with h'
    injection h' with h'
    exact ⟨hr, hne, h'.symm⟩

theorem mem_queue (hc : Core k V) (ht : ∀ t < gTaskMaxNum, QueueTask k V t) {p : Nat} :
    .pendList t ∈ V.content (.gPriQueueList p) ↔ InQueues k t ∧ (k.gTaskCBArray t).priority = p := by
  rw [hc.ready.forest.mem]
  constructor
  · intro h
    have hlt := (hc.fits _ _ h).1
    obtain ⟨hr, hne, hp⟩ := (ht t hlt).of_queue h
    exact ⟨⟨hlt, hr, hne⟩, hp⟩
  · rintro ⟨⟨hlt, hr, hne⟩, rfl⟩
    exact (ht t hlt).queued hr hne

theorem osGetTopTask_least (hc : Core k V) (ht : ∀ t < gTaskMaxNum, QueueTask k V t) :
    ∃ n, osGetTopTask k = some n ∧ ((n = k.gIdleTaskID ∧ ∀ u, ¬ InQueues k u) ∨
      (InQueues k n ∧
        ∀ u, InQueues k u → (k.gTaskCBArray n).priority ≤ (k.gTaskCBArray u).priority)) := by
  unfold osGetTopTask
  by_cases hb : k.gQueueBitmap = 0#32
  · rw [if_neg (not_not.mpr hb)]
    refine ⟨_, rfl, .inl ⟨rfl, fun u hu => ?_⟩⟩
    have hm := (mem_queue hc ht).mpr ⟨hu, rfl⟩
    rw [hc.ready.bitmap_eq_zero.mp hb _ (ht u hu.1).priority] at hm
    cases hm
  · rw [if_pos hb]
    obtain ⟨x, l, _, hcon, hfirst, hlow⟩ := hc.ready.top hb
    have hx : x ∈ V.content (.gPriQueueList (clz k.gQueueBitmap)) := by simp [hcon]
    obtain ⟨n, _, rfl⟩ := hc.mem_pendList hx (.inr (.inr (.inl ⟨_, rfl⟩)))
    obtain ⟨hn, hpri⟩ := (mem_queue hc ht).mp hx
    rw [hfirst]
    refine ⟨n, rfl, .inr ⟨hn, fun u hu => ?_⟩⟩
    have hm := (mem_queue hc ht).mpr ⟨hu, rfl⟩
    rw [hpri]
    by_contra hlt
    rw [hlow _ (Nat.not_le.mp hlt)] at hm
    cases hm

theorem QueueInv.right (hi : QueueInv k V) : QueuesRight k := by
  have hf := hi.core.ready.forest
  refine ⟨fun p hp => ?_, fun p hp => ?_, osGetTopTask_least hi.core hi.task⟩
  · have hp' : p < 32 := hp
    have hbit := hi.core.ready.bit p hp'
    have hempty := hi.core.ready.listEmpty_iff (hi.core.ready.head p hp')
    rw [BitVec.getMsbD_eq_getLsbD, decide_eq_true hp', Bool.true_and] at hbit
    rw [← Bool.not_eq_true, hempty]
    exact hbit
  · have hall : ∃ l : List Nat, V.content (.gPriQueueList p) = l.map Node.pendList := by
      have h : ∀ x ∈ V.content (.gPriQueueList p), ∃ u, x = Node.pendList u := fun x hx => by
        obtain ⟨u, _, hu⟩ := hi.core.mem_pendList hx (.inr (.inr (.inl ⟨_, rfl⟩)))
        exact ⟨u, hu⟩
      generalize V.content (.gPriQueueList p) = c at h
      induction c with
      | nil => exact ⟨[], rfl⟩
      | cons x c ih =>
        obtain ⟨u, rfl⟩ := h x List.mem_cons_self
        obtain ⟨l, rfl⟩ := ih fun y hy => h y (List.mem_cons_of_mem _ hy)
        exact ⟨u :: l, rfl⟩
    obtain ⟨l, hl⟩ := hall
    have hlinks := hf.links _ (hi.core.ready.head p hp)
    have hnd := hf.nodup (.gPriQueueList p)
    rw [hl] at hlinks hnd
    refine ⟨l, hnd.of_map _, hlinks, fun t => ?_⟩
    rw [← mem_queue hi.core hi.task, hl, List.mem_map]
    constructor
    · exact fun h => ⟨t, h, rfl⟩
    · rintro ⟨u, hu, he⟩
      injection he with he
      rwa [← he]

theorem QueueInv.moved (hi : QueueInv k V) (hm : Moved t k V k' V') (hc : Core k' V')
    (hok : QueueTask k' V' t) (ht : t < gTaskMaxNum)
    (hsort : t = k.runTask → ((k'.gTaskCBArray t).taskStatus.delay ∨
      (k'.gTaskCBArray t).taskStatus.pendTime) → V'.role (.sortLinkNode t) = .loose) :
    QueueInv k' V' := by
  refine ⟨hc, fun u hu => ?_, ?_, ?_, ?_⟩
  · by_cases hut : u = t
    · rw [hut]
      exact hok
    · exact (hi.task u hu).congr (hm.task u hut) (hm.role _ (by simpa using hut) (by simp))
        hm.gIdleTaskID
  · rw [hm.gIdleTaskID]
    exact hi.idle
  · rw [hm.runTask]
    rcases hi.run with h | h
    · exact .inl h
    · by_cases hrt : k.runTask = t
      · rw [hrt]
        exact .inl ht
      · rw [hm.task _ hrt]
        exact .inr h
  · rw [hm.runTask]
    by_cases hrt : k.runTask = t
    · rw [hrt]
      exact hsort hrt.symm
    · rw [hm.task _ hrt, hm.role _ (by simp) (by simpa using hrt)]
      exact hi.sort

theorem enQueue_inv (hi : QueueInv k V) (ht : t < gTaskMaxNum)
    (hr : (k.gTaskCBArray t).taskStatus.ready = false) :
    ∃ k' V', osSchedTaskEnQueue k t = some k' ∧ QueueInv k' V' ∧ Moved t k V k' V' ∧
      (k'.gTaskCBArray t).taskStatus = readied (k.gTaskCBArray t).taskStatus := by
  have ho := hi.task t ht
  obtain ⟨k', V', slice, heq, hc', hm', hcb', hpl', _⟩ := osSchedTaskEnQueue_spec hi.core ht ho.id
    ho.priority hr (ho.off fun h => by rw [hr] at h; cases h)
  refine ⟨k', V', heq, hi.moved hm' hc' ?_ ht fun _ h => ?_, hm', by rw [hcb']⟩
  · constructor <;> simp only [hcb', hm'.gIdleTaskID]
    case id => exact ho.id
    case priority => exact ho.priority
    case queued =>
      intro _ hne
      rw [hpl', if_neg hne]
    case off =>
      intro h
      rw [hpl', if_pos (h rfl)]
    case untimed => exact fun _ => ⟨rfl, rfl⟩
  · rw [hcb'] at h
    rcases h with h | h <;> cases h

theorem deQueue_inv (hi : QueueInv k V) (ht : t < gTaskMaxNum) :
    ∃ V', QueueInv (osSchedTaskDeQueue k t) V' ∧ Moved t k V (osSchedTaskDeQueue k t) V' ∧
      (osSchedTaskDeQueue k t).gTaskCBArray t = { k.gTaskCBArray t with
        taskStatus := { (k.gTaskCBArray t).taskStatus with ready := false } } := by
  have ho := hi.task t ht
  obtain ⟨V', hc', hm', hcb', hpl', hsl'⟩ := osSchedTaskDeQueue_spec hi.core ho.id ho.priority ho.queued
  refine ⟨V', hi.moved hm' hc' ?_ ht fun hrun h => ?_, hm', hcb'⟩
  · constructor <;> simp only [hcb', hm'.gIdleTaskID]
    case id => exact ho.id
    case priority => exact ho.priority
    case queued =>
      intro h
      cases h
    case off =>
      intro _
      rw [hpl']
      split
      · rfl
      · next h => exact ho.off fun hr => by_contra fun hne => h ⟨hr, hne⟩
    case untimed =>
      intro h
      rcases h with h | h
      · cases h
      · exact ho.untimed (.inr h)
  · rw [hsl', hrun]
    apply hi.sort
    rw [hcb', hrun] at h
    exact h

theorem modifyParam_inv (hi : QueueInv k V) (ht : t < gTaskMaxNum) {priority : Nat}
    (hp : priority < 32) : ∃ k' V' b, osSchedModifyTaskSchedParam k t priority = some (k', b) ∧
      QueueInv k' V' := by
  have hset : ∀ {k : KernelState} {V : View Node}, QueueInv k V →
      ((k.gTaskCBArray t).taskStatus.ready = false) →
      QueueInv (k.modifyTask t fun cb => { cb with priority := priority }) V := by
    intro k V hi hr
    have ho := hi.task t ht
    have hm := Moved.modifyTask t k V fun cb => { cb with priority := priority }
    refine hi.moved hm (hi.core.modifyTask t _) ?_ ht fun hrun h => ?_
    · constructor <;> simp only [modifyTask_self]
      case id => exact ho.id
      case priority => exact hp
      case queued =>
        intro h
        rw [hr] at h
        cases h
      case off => exact ho.off
      case untimed => exact ho.untimed
    · rw [modifyTask_self] at h
      rw [hrun] at h ⊢
      exact hi.sort h
  unfold osSchedModifyTaskSchedParam
  by_cases hr : (k.gTaskCBArray t).taskStatus.ready = true
  · rw [if_pos (show (k.status t).ready = true from hr)]
    obtain ⟨V1, hi1, hm1, hcb1⟩ := deQueue_inv hi ht
    have hi2 := hset hi1 (by rw [hcb1])
    obtain ⟨k', V', heq, hi', _⟩ := enQueue_inv hi2 ht (by rw [modifyTask_self, hcb1])
    dsimp only
    rw [heq]
    exact ⟨k', V', true, rfl, hi'⟩
  · rw [if_neg (show ¬(k.status t).ready = true from hr)]
    exact ⟨_, V, _, rfl, hset hi (by simpa using hr)⟩

omit [Config] in
theorem QueueTask.same (h : QueueTask k V u) (hid : k'.gIdleTaskID = k.gIdleTaskID)
    (h1 : (k'.gTaskCBArray u).taskID = (k.gTaskCBArray u).taskID)
    (h2 : (k'.gTaskCBArray u).priority = (k.gTaskCBArray u).priority)
    (h3 : (k'.gTaskCBArray u).taskStatus.ready = (k.gTaskCBArray u).taskStatus.ready)
    (h4 : (k'.gTaskCBArray u).taskStatus.delay = (k.gTaskCBArray u).taskStatus.delay)
    (h5 : (k'.gTaskCBArray u).taskStatus.pendTime = (k.gTaskCBArray u).taskStatus.pendTime) :
    QueueTask k' V u := by
  obtain ⟨g1, g2, g3, g4, g5⟩ := h
  constructor <;> simp only [hid, h1, h2, h3, h4, h5] <;> assumption

theorem osSchedPark_queue (hi : QueueInv k V) (hpark : osSchedPark k = some k') :
    ∃ V', Core k' V' ∧ (∀ t < gTaskMaxNum, QueueTask k' V' t) ∧ Moved k.runTask k V k' V' := by
  unfold osSchedPark osTimeSliceUpdate at hpark
  dsimp only at hpark
  split at hpark
  · cases hpark
  obtain ⟨k1, hk1⟩ : ∃ k1, (k.modifyTask k.runTask fun cb => { cb with
      timeSlice := if cb.taskID ≠ k.gIdleTaskID then toInt32 (cb.timeSlice -
        toInt32 (osGetCurrSchedTimeCycle k - (k.gTaskCBArray k.runTask).startTime)) else cb.timeSlice
      startTime := osGetCurrSchedTimeCycle k }) = k1 := ⟨_, rfl⟩
  have hm1 : Moved k.runTask k V k1 V := by
    rw [← hk1]
    exact Moved.modifyTask k.runTask k V _
  have hcb1 : ∃ slice, k1.gTaskCBArray k.runTask = { k.gTaskCBArray k.runTask with
      timeSlice := slice, startTime := osGetCurrSchedTimeCycle k } := by
    rw [← hk1]
    exact ⟨_, modifyTask_self _ _ _⟩
  obtain ⟨slice, hcb1⟩ := hcb1
  have hc1 : Core k1 V := by
    rw [← hk1]
    exact hi.core.modifyTask k.runTask _
  have ht1 : ∀ t < gTaskMaxNum, QueueTask k1 V t := by
    intro t ht
    by_cases htr : t = k.runTask
    · rw [htr] at ht ⊢
      apply (hi.task _ ht).same hm1.gIdleTaskID <;> rw [hcb1]
    · exact (hi.task t ht).congr (hm1.task t htr) rfl hm1.gIdleTaskID
  have hs1 : (k1.gTaskCBArray k.runTask).taskStatus = (k.gTaskCBArray k.runTask).taskStatus := by
    rw [hcb1]
  simp only [Option.bind_eq_bind, Option.bind_some, hk1] at hpark
  split at hpark
  · next htimed =>
    -- on the sort link
    rw [hs1] at htimed
    have htimed' : (k.gTaskCBArray k.runTask).taskStatus.delay ∨
        (k.gTaskCBArray k.runTask).taskStatus.pendTime := by
      rw [Bool.or_eq_true] at htimed
      exact htimed.symm
    rcases hi.run with hrun | hrun
    · have ho := hi.task _ hrun
      obtain ⟨k2, V2, r, heq, hc2, hm2, hcb2, _, hpl2, _⟩ := osAdd2SortLink_spec hc1 hrun
        (hi.sort htimed') (k1.gTaskCBArray k.runTask).startTime (k1.gTaskCBArray k.runTask).waitTimes
      rw [heq, Option.some.injEq] at hpark
      rw [← hpark]
      refine ⟨V2, hc2, fun t ht => ?_, hm1.trans hm2⟩
      by_cases htr : t = k.runTask
      · rw [htr]
        have h : QueueTask k2 V k.runTask := (ht1 _ hrun).same hm2.gIdleTaskID (by rw [hcb2])
          (by rw [hcb2]) (by rw [hcb2]) (by rw [hcb2]) (by rw [hcb2])
        exact ⟨h.id, h.priority, fun hr hne => hpl2.trans (h.queued hr hne),
          fun hr => hpl2.trans (h.off hr), h.untimed⟩
      · exact (ht1 t ht).congr (hm2.task t htr) (hm2.role _ (by simpa using htr) (by simp))
          hm2.gIdleTaskID
    · rw [hrun] at htimed'
      rcases htimed' with h | h <;> cases h
  · split at hpark
    · next hrunnable =>
      rw [hs1] at hrunnable
      have hrun : k.runTask < gTaskMaxNum := by
        rcases hi.run with h | h
        · exact h
        · rw [h] at hrunnable
          cases hrunnable
      have hi1 : QueueInv k1 V := hi.moved hm1 hc1 (ht1 _ hrun) hrun fun _ h => by
        rw [hs1] at h
        exact hi.sort h
      cases hr : (k1.gTaskCBArray k.runTask).taskStatus.ready with
      | true =>
        have hnone : osSchedTaskEnQueue k1 k.runTask = none :=
          if_pos (show (k1.status k.runTask).ready = true from hr)
        rw [hnone] at hpark
        cases hpark
      | false =>
        obtain ⟨k2, V2, heq, hi2, hm2, _⟩ := enQueue_inv hi1 hrun hr
        rw [heq, Option.some.injEq] at hpark
        rw [← hpark]
        exact ⟨V2, hi2.core, hi2.task, hm1.trans hm2⟩
    · rw [Option.some.injEq] at hpark
      rw [← hpark]
      exact ⟨V, hc1, ht1, hm1⟩

theorem switch_inv (hi : QueueInv k V) (hsw : halPendSV k = some k') :
    ∃ V', QueueInv k' V' ∧ ∀ u, InQueues k' u → k'.runTask ≠ k'.gIdleTaskID ∧
      (k'.gTaskCBArray k'.runTask).priority ≤ (k'.gTaskCBArray u).priority := by
  have hi0 : QueueInv { k with pendSV := false } V :=
    ⟨hi.core.congr rfl rfl, fun t ht => (hi.task t ht).congr rfl rfl rfl, hi.idle, hi.run, hi.sort⟩
  unfold halPendSV at hsw
  rw [osSchedTaskSwitch_eq] at hsw
  cases hpark : osSchedPark { k with pendSV := false } with
  | none =>
    rw [hpark] at hsw
    cases hsw
  | some k2 =>
    obtain ⟨V2, hc2, ht2, hm2⟩ := osSchedPark_queue hi0 hpark
    obtain ⟨n, htop, hbest⟩ := osGetTopTask_least hc2 ht2
    have hid2 : k2.gIdleTaskID = k.gIdleTaskID := hm2.gIdleTaskID
    have hn : n < gTaskMaxNum := by
      rcases hbest with ⟨h, _⟩ | h
      · rw [h, hid2]
        exact hi.idle
      · exact h.1.1
    have hnready : (k2.gTaskCBArray n).taskStatus.ready = true ∨ n = k2.gIdleTaskID := by
      rcases hbest with ⟨h, _⟩ | h
      · exact .inr h
      · exact .inl h.1.2.1
    obtain ⟨hx1, hx2, hx3, hx4, hother, hxr, hxn, hxrn⟩ := osSchedHandOver_spec k2 k.runTask n
    simp only [hpark, Option.bind_eq_bind, Option.bind_some, htop, decide_eq_true_eq,
      Option.some.injEq] at hsw
    have hsame : ∀ u, ((osSchedHandOver k2 k.runTask n).gTaskCBArray u).taskID =
          (k2.gTaskCBArray u).taskID ∧
        ((osSchedHandOver k2 k.runTask n).gTaskCBArray u).priority = (k2.gTaskCBArray u).priority ∧
        ((osSchedHandOver k2 k.runTask n).gTaskCBArray u).taskStatus.ready =
          (k2.gTaskCBArray u).taskStatus.ready ∧
        ((osSchedHandOver k2 k.runTask n).gTaskCBArray u).taskStatus.delay =
          (k2.gTaskCBArray u).taskStatus.delay ∧
        ((osSchedHandOver k2 k.runTask n).gTaskCBArray u).taskStatus.pendTime =
          (k2.gTaskCBArray u).taskStatus.pendTime := by
      intro u
      by_cases hrn : k.runTask = n
      · by_cases hun : u = n
        · rw [hun, hxrn hrn]
          exact ⟨rfl, rfl, rfl, rfl, rfl⟩
        · rw [hother u hun (by rwa [hrn])]
          exact ⟨rfl, rfl, rfl, rfl, rfl⟩
      · by_cases hun : u = n
        · rw [hun, hxn hrn]
          exact ⟨rfl, rfl, rfl, rfl, rfl⟩
        · by_cases hur : u = k.runTask
          · rw [hur, hxr hrn]
            exact ⟨rfl, rfl, rfl, rfl, rfl⟩
          · rw [hother u hun hur]
            exact ⟨rfl, rfl, rfl, rfl, rfl⟩
    generalize osSchedHandOver k2 k.runTask n = kx at *
    have hidx : kx.gIdleTaskID = k2.gIdleTaskID := hx3.gIdleTaskID
    have htx : ∀ u < gTaskMaxNum, QueueTask kx V2 u := by
      intro u hu
      obtain ⟨h1, h2, h3, h4, h5⟩ := hsame u
      exact (ht2 u hu).same hidx h1 h2 h3 h4 h5
    have hix : QueueInv { kx with runTask := n } V2 := by
      refine ⟨hc2.congr hx1 hx2, fun u hu => (htx u hu).congr rfl rfl rfl, ?_, .inl hn, fun h => ?_⟩
      · show kx.gIdleTaskID < gTaskMaxNum
        rw [hidx, hid2]
        exact hi.idle
      · have hu := (htx n hn).untimed (by rw [(hsame n).2.2.1, hidx]; exact hnready)
        change (kx.gTaskCBArray n).taskStatus.delay = true ∨
          (kx.gTaskCBArray n).taskStatus.pendTime = true at h
        rw [hu.1, hu.2] at h
        rcases h with h | h <;> cases h
    obtain ⟨V', hi', hm', hcb'⟩ := deQueue_inv hix hn
    have hcomm : osSchedTaskDeQueue { kx with runTask := n } n =
        { osSchedTaskDeQueue kx n with runTask := n } := by
      unfold osSchedTaskDeQueue
      show (if (kx.status n).ready = true then _ else _) = _
      dsimp only
      split
      · split <;> rfl
      · rfl
    have hrunx : (osSchedTaskDeQueue kx n).runTask = kx.runTask := by
      unfold osSchedTaskDeQueue
      dsimp only
      split
      · split <;> rfl
      · rfl
    have hturn : (if k.runTask ≠ n then (osSchedTaskDeQueue kx n).newTask
        else (osSchedTaskDeQueue kx n).runTask) = n := by
      by_cases hne : k.runTask = n
      · rw [if_neg (not_not.mpr hne), hrunx, hx3.runTask, hm2.runTask]
        exact hne
      · rw [if_pos hne, osSchedTaskDeQueue_newTask, hx4]
    rw [hturn, ← hcomm] at hsw
    rw [← hsw]
    refine ⟨V', hi', fun u hu => ?_⟩
    have hrun' : (osSchedTaskDeQueue { kx with runTask := n } n).runTask = n := hm'.runTask
    have hid' : (osSchedTaskDeQueue { kx with runTask := n } n).gIdleTaskID = k2.gIdleTaskID :=
      hm'.gIdleTaskID.trans hidx
    obtain ⟨hlt, hr, hne⟩ := hu
    have hun : u ≠ n := by
      intro he
      have h : ((osSchedTaskDeQueue { kx with runTask := n } n).gTaskCBArray u).taskStatus.ready =
        true := hr
      rw [he, hcb'] at h
      cases h
    have hcbu : (osSchedTaskDeQueue { kx with runTask := n } n).gTaskCBArray u = kx.gTaskCBArray u :=
      hm'.task u hun
    have hq : InQueues k2 u := by
      refine ⟨hlt, ?_, ?_⟩
      · have h : ((osSchedTaskDeQueue { kx with runTask := n } n).gTaskCBArray u).taskStatus.ready =
          true := hr
        rw [hcbu, (hsame u).2.2.1] at h
        exact h
      · rw [hid'] at hne
        exact hne
    rcases hbest with ⟨_, h⟩ | ⟨h, hmin⟩
    · exact absurd hq (h u)
    · rw [hrun', hid', hcb', hcbu]
      refine ⟨h.2.2, ?_⟩
      show (kx.gTaskCBArray n).priority ≤ (kx.gTaskCBArray u).priority
      rw [(hsame n).2.1, (hsame u).2.1]
      exact hmin u hq

theorem queueStep_inv (hi : QueueInv k V) (hstep : queueStep k op = some k') : ∃ V', QueueInv k' V' := by
  cases op with
  | enQueue t =>
    simp only [queueStep] at hstep
    split at hstep
    · next h =>
      obtain ⟨k1, V1, heq, hi1, _⟩ := enQueue_inv hi h.1 h.2
      rw [heq, Option.some.injEq] at hstep
      rw [← hstep]
      exact ⟨V1, hi1⟩
    · cases hstep
  | deQueue t =>
    simp only [queueStep] at hstep
    split at hstep
    · next h =>
      obtain ⟨V1, hi1, _⟩ := deQueue_inv hi h
      rw [Option.some.injEq] at hstep
      rw [← hstep]
      exact ⟨V1, hi1⟩
    · cases hstep
  | modifyParam t priority =>
    simp only [queueStep] at hstep
    split at hstep
    · next h =>
      obtain ⟨k1, V1, b, heq, hi1⟩ := modifyParam_inv hi h.1 (Nat.lt_succ_of_le h.2)
      rw [heq, Option.map_some, Option.some.injEq] at hstep
      rw [← hstep]
      exact ⟨V1, hi1⟩
    · cases hstep
  | switch =>
    obtain ⟨V1, hi1, _⟩ := switch_inv hi hstep
    exact ⟨V1, hi1⟩
  | elapse cycles =>
    simp only [queueStep, Option.some.injEq] at hstep
    rw [← hstep]
    exact ⟨V, hi.core.congr rfl rfl, fun t ht => (hi.task t ht).congr rfl rfl rfl, hi.idle, hi.run, hi.sort⟩

theorem schedFresh_inv (hk : SchedFresh k) : ∃ V, QueueInv k V := by
  obtain ⟨⟨k₀, hk₀⟩, hidle, hid, hprio, hready, huntimed, hrun⟩ := hk
  have hf0 : Forest (losListInit (losListInit k₀ .gLosFreeTask) .gTaskRecyleList).links
      ((looseView.setRole .gLosFreeTask .head).setRole .gTaskRecyleList .head) := by
    have h1 := (forest_loose k₀.links).listInit (x := .gLosFreeTask) rfl
    exact h1.listInit (by simp [looseView])
  generalize losListInit (losListInit k₀ .gLosFreeTask) .gTaskRecyleList = k1 at hk₀ hf0
  obtain ⟨V2, hf2, hin2, hout2, hcon2, _⟩ := osSchedInit_lists hf0 (by simp [looseView])
    osPriorityQueueNum
  have hloose : ∀ y, y ≠ .gLosFreeTask → y ≠ .gTaskRecyleList → (∀ p, y ≠ .gPriQueueList p) →
      V2.role y = .loose := by
    intro y h1 h2 h3
    rw [hout2 y fun p _ => h3 p]
    simp [h1, h2, looseView]
  generalize hk2 : (List.range osPriorityQueueNum).foldl
    (fun k pri => losListInit k (.gPriQueueList pri)) k1 = k2 at hf2
  have heq : k = losListInit { k2 with gQueueBitmap := 0#32 } .gTaskSortLink := by
    rw [hk₀, ← hk2]
    rfl
  have hf3 : Forest k.links (V2.setRole .gTaskSortLink .head) := by
    rw [heq]
    exact hf2.listInit (hloose _ (by simp) (by simp) (by simp))
  have hpl : ∀ t, (V2.setRole .gTaskSortLink .head).role (.pendList t) = .loose := by
    intro t
    rw [View.setRole_role, if_neg (by simp)]
    exact hloose _ (by simp) (by simp) (by simp)
  have hsl : ∀ t, (V2.setRole .gTaskSortLink .head).role (.sortLinkNode t) = .loose := by
    intro t
    rw [View.setRole_role, if_neg (by simp)]
    exact hloose _ (by simp) (by simp) (by simp)
  have hcontent : ∀ h, (V2.setRole .gTaskSortLink .head).content h = [] := by
    intro h
    rw [View.setRole_content, hcon2]
    rfl
  refine ⟨V2.setRole .gTaskSortLink .head, ⟨⟨hf3, fun p hp => ?_, fun p hp => ?_⟩, fun h hs => ?_,
    fun x h hx => ?_⟩, fun t ht => ?_, hidle, hrun, fun _ => hsl _⟩
  · rw [View.setRole_role, if_neg (by simp)]
    exact hin2 p hp
  · rw [hcontent, heq]
    simp [losListInit]
  · rw [View.setRole_role]
    split
    · rfl
    · next hne =>
      rcases hs with rfl | rfl | rfl
      · rw [hout2 _ (by simp)]
        simp [looseView]
      · rw [hout2 _ (by simp)]
        simp [looseView]
      · exact absurd rfl hne
  · have hmem := (hf3.mem _ _).mpr hx
    rw [hcontent] at hmem
    cases hmem
  · refine ⟨hid t ht, Nat.lt_succ_of_le (hprio t ht), fun h => ?_, fun _ => hpl t, fun h => ?_⟩
    · rw [hready] at h
      cases h
    · rcases h with h | h
      · rw [hready] at h
        cases h
      · rw [h]
        exact huntimed

/-- In every state the queues and the bitmap are right, and a switch runs a most urgent task. -/
theorem osSchedTaskSwitch_most_urgent {k₀ : KernelState} {ops : List QueueOp} (hk : SchedFresh k₀)
    (hrun : Run (fun k op k' => queueStep k op = some k') k₀ ops k) :
    QueuesRight k ∧ ∀ k', queueStep k .switch = some k' → ∀ u, InQueues k' u →
      k'.runTask ≠ k'.gIdleTaskID ∧
        (k'.gTaskCBArray k'.runTask).priority ≤ (k'.gTaskCBArray u).priority := by
  have hinv : ∃ V, QueueInv k V := run_invariant (fun k => ∃ V, QueueInv k V)
    (fun _ _ _ ⟨_, h⟩ hstep => queueStep_inv h hstep) hrun (schedFresh_inv hk)
  obtain ⟨V, hi⟩ := hinv
  refine ⟨hi.right, fun k' hsw => ?_⟩
  obtain ⟨_, _, hurgent⟩ := switch_inv hi hsw
  exact hurgent

end

def smallQueues : KernelState :=
  let k := { zeroedKernel with
    gIdleTaskID := 2
    gTaskCBArray := fun t => { zeroedKernel.gTaskCBArray t with taskID := t, priority := 5 } }
  osSchedInit (losListInit (losListInit k .gLosFreeTask) .gTaskRecyleList)

omit [Config] in
theorem osSchedTaskSwitch_most_urgent_small :
    letI := smallConfig
    ∃ k, queueStep smallQueues (.enQueue 1) = some k ∧ QueuesRight k ∧
      ∀ k', queueStep k .switch = some k' → ∀ u, InQueues k' u → k'.runTask ≠ k'.gIdleTaskID ∧
        (k'.gTaskCBArray k'.runTask).priority ≤ (k'.gTaskCBArray u).priority := by
  let := smallConfig
  obtain ⟨k, hk⟩ : ∃ k, queueStep smallQueues (.enQueue 1) = some k :=
    Option.isSome_iff_exists.mp (by decide +kernel)
  have hfresh : SchedFresh smallQueues := by
    constructor
    case lists => exact ⟨_, rfl⟩
    case idle => decide
    case id => exact fun _ _ => rfl
    case priority => exact fun _ _ => Nat.le_of_ble_eq_true rfl
    case ready => exact fun _ => rfl
    case untimed => exact ⟨rfl, rfl⟩
    case run => exact .inl (by decide)
  exact ⟨k, hk, osSchedTaskSwitch_most_urgent hfresh (run_single hk)⟩

end LiteosM.Kernel
