import LiteosM.Kernel.ReadyList
import LiteosM.Kernel.Task

/-!
# Where the tasks are

`KernelInv k V` says on which lists the two nodes of every task control block are. It
also holds between the moment a task registers as waiting and the switch that takes it
off the processor, so it leaves open what the status of the running task is.
-/

namespace LiteosM.Kernel

open LiteosM.Lib.DlList

/-- The lists that exist from `OsTaskInit` on. -/
def SystemHead (h : Node) : Prop := h = .gLosFreeTask ∨ h = .gTaskRecyleList ∨ h = .gTaskSortLink

/-- The status bits that exclude or imply each other. -/
structure Consistent (s : TaskStatus) : Prop where
  unused : s.unused → s.ready = false ∧ s.suspend = false ∧ s.pend = false ∧ s.delay = false ∧
    s.pendTime = false
  ready : s.ready → s.suspend = false ∧ s.pend = false ∧ s.delay = false ∧ s.pendTime = false
  pend : s.pend → s.delay = false
  pendTime : s.pendTime → s.pend
  some : s.running ∨ s.unused ∨ s.ready ∨ s.suspend ∨ s.pend ∨ s.delay

structure TaskOk (k : KernelState) (V : View Node) (t : Nat) : Prop where
  id : (k.gTaskCBArray t).taskID = t
  priority : (k.gTaskCBArray t).priority < 32
  startTime : (k.gTaskCBArray t).startTime ≤ osGetCurrSchedTimeCycle k
  flags : Consistent (k.gTaskCBArray t).taskStatus
  running : (k.gTaskCBArray t).taskStatus.running ↔ t = k.runTask
  live : t = k.runTask → (k.gTaskCBArray t).taskStatus.unused = false
  idle : t = k.gIdleTaskID → (k.gTaskCBArray t).taskStatus.unused = false ∧
    (k.gTaskCBArray t).taskStatus.suspend = false ∧ (k.gTaskCBArray t).taskStatus.pend = false ∧
    (k.gTaskCBArray t).taskStatus.delay = false
  free : (k.gTaskCBArray t).taskStatus.unused → V.role (.pendList t) = .member .gLosFreeTask ∨
    V.role (.pendList t) = .member .gTaskRecyleList
  queued : (k.gTaskCBArray t).taskStatus.ready → t ≠ k.gIdleTaskID →
    V.role (.pendList t) = .member (.gPriQueueList (k.gTaskCBArray t).priority)
  blocked : (k.gTaskCBArray t).taskStatus.pend → ∃ l, V.role (.pendList t) = .member (.wait l)
  off : (k.gTaskCBArray t).taskStatus.unused = false →
    ((k.gTaskCBArray t).taskStatus.ready → t = k.gIdleTaskID) →
    (k.gTaskCBArray t).taskStatus.pend = false → V.role (.pendList t) = .loose
  timed : ((k.gTaskCBArray t).taskStatus.delay ∨ (k.gTaskCBArray t).taskStatus.pendTime) →
    t ≠ k.runTask → V.role (.sortLinkNode t) = .member .gTaskSortLink
  untimed : (((k.gTaskCBArray t).taskStatus.delay ∨ (k.gTaskCBArray t).taskStatus.pendTime) →
    t = k.runTask) → V.role (.sortLinkNode t) = .loose
  response : (k.gTaskCBArray t).taskStatus.unused = false →
    ((k.gTaskCBArray t).responseTime = ⊤ ↔ V.role (.sortLinkNode t) = .loose)

/-- Neither the running task nor the scheduler's flags and the clock change. -/
structure Steady (k k' : KernelState) : Prop where
  runTask : k'.runTask = k.runTask
  gIdleTaskID : k'.gIdleTaskID = k.gIdleTaskID
  gSwtmrTaskID : k'.gSwtmrTaskID = k.gSwtmrTaskID
  gLosTaskLock : k'.gLosTaskLock = k.gLosTaskLock
  gTaskScheduled : k'.gTaskScheduled = k.gTaskScheduled
  pendSV : k'.pendSV = k.pendSV
  cycle : k'.cycle = k.cycle

/-- Only the block and the nodes of task `t` change. -/
structure Touched (t : Nat) (k : KernelState) (V : View Node) (k' : KernelState) (V' : View Node) :
    Prop extends Steady k k' where
  task : ∀ u, u ≠ t → k'.gTaskCBArray u = k.gTaskCBArray u
  role : ∀ x, x ≠ .pendList t → x ≠ .sortLinkNode t → V'.role x = V.role x

/-- A wait list can only lose `t`. -/
structure Moved (t : Nat) (k : KernelState) (V : View Node) (k' : KernelState) (V' : View Node) :
    Prop extends Touched t k V k' V' where
  wait : ∀ l, (V'.content (.wait l)).Sublist (V.content (.wait l))

section

variable {k k' k'' : KernelState} {V V' V'' : View Node} {t u : Nat} {x h : Node} {l : List Node}

theorem Steady.refl (k : KernelState) : Steady k k := ⟨rfl, rfl, rfl, rfl, rfl, rfl, rfl⟩

theorem Steady.trans (h₁ : Steady k k') (h₂ : Steady k' k'') : Steady k k'' :=
  ⟨h₂.runTask.trans h₁.runTask, h₂.gIdleTaskID.trans h₁.gIdleTaskID,
    h₂.gSwtmrTaskID.trans h₁.gSwtmrTaskID, h₂.gLosTaskLock.trans h₁.gLosTaskLock,
    h₂.gTaskScheduled.trans h₁.gTaskScheduled, h₂.pendSV.trans h₁.pendSV,
    h₂.cycle.trans h₁.cycle⟩

theorem Steady.now (hs : Steady k k') : osGetCurrSchedTimeCycle k' = osGetCurrSchedTimeCycle k := by
  unfold osGetCurrSchedTimeCycle
  rw [hs.gTaskScheduled, hs.cycle]

theorem Moved.refl (t : Nat) (k : KernelState) (V : View Node) : Moved t k V k V :=
  ⟨⟨Steady.refl k, fun _ _ => rfl, fun _ _ _ => rfl⟩, fun _ => List.Sublist.refl _⟩

theorem Touched.trans (h₁ : Touched t k V k' V') (h₂ : Touched t k' V' k'' V'') :
    Touched t k V k'' V'' :=
  ⟨h₁.toSteady.trans h₂.toSteady, fun u hu => (h₂.task u hu).trans (h₁.task u hu),
    fun x hp hs => (h₂.role x hp hs).trans (h₁.role x hp hs)⟩

theorem Moved.trans (h₁ : Moved t k V k' V') (h₂ : Moved t k' V' k'' V'') : Moved t k V k'' V'' :=
  ⟨h₁.toTouched.trans h₂.toTouched, fun l => (h₂.wait l).trans (h₁.wait l)⟩

theorem Moved.modifyTask (t : Nat) (k : KernelState) (V : View Node) (f : LosTaskCB → LosTaskCB) :
    Moved t k V (k.modifyTask t f) V :=
  ⟨⟨⟨rfl, rfl, rfl, rfl, rfl, rfl, rfl⟩, fun _ hu => Function.update_of_ne hu _ _, fun _ _ _ => rfl⟩,
    fun _ => List.Sublist.refl _⟩

@[simp]
theorem modifyTask_self (k : KernelState) (t : Nat) (f : LosTaskCB → LosTaskCB) :
    (k.modifyTask t f).gTaskCBArray t = f (k.gTaskCBArray t) := by
  simp [KernelState.modifyTask]

@[simp]
theorem modifyStatus_self (k : KernelState) (t : Nat) (f : TaskStatus → TaskStatus) :
    (k.modifyStatus t f).gTaskCBArray t =
      { k.gTaskCBArray t with taskStatus := f (k.gTaskCBArray t).taskStatus } :=
  modifyTask_self k t _

@[simp]
theorem modifyTask_runTask (k : KernelState) (t : Nat) (f : LosTaskCB → LosTaskCB) :
    (k.modifyTask t f).runTask = k.runTask := rfl

@[simp]
theorem modifyStatus_runTask (k : KernelState) (t : Nat) (f : TaskStatus → TaskStatus) :
    (k.modifyStatus t f).runTask = k.runTask := rfl

@[simp]
theorem losListDelete_gTaskCBArray (k : KernelState) (x : Node) :
    (losListDelete k x).gTaskCBArray = k.gTaskCBArray := rfl

@[simp]
theorem losListAdd_gTaskCBArray (k : KernelState) (h x : Node) :
    (losListAdd k h x).gTaskCBArray = k.gTaskCBArray := rfl

@[simp]
theorem losListTailInsert_gTaskCBArray (k : KernelState) (h x : Node) :
    (losListTailInsert k h x).gTaskCBArray = k.gTaskCBArray := rfl

theorem Moved.unlink (hx : x = .pendList t ∨ x = .sortLinkNode t) :
    Moved t k V (losListDelete k x) (V.remove x) := by
  refine ⟨⟨⟨rfl, rfl, rfl, rfl, rfl, rfl, rfl⟩, fun _ _ => rfl, fun y hp hs => ?_⟩,
    fun l => List.erase_sublist⟩
  have hyx : y ≠ x := by
    rcases hx with rfl | rfl
    · exact hp
    · exact hs
  rw [View.remove_role, if_neg hyx]

theorem Touched.link {s : Store Node} {b : BitVec 32}
    (hx : x = .pendList t ∨ x = .sortLinkNode t) :
    Touched t k V { k with links := s, gQueueBitmap := b } (V.put x h l) := by
  refine ⟨⟨rfl, rfl, rfl, rfl, rfl, rfl, rfl⟩, fun _ _ => rfl, fun y hp hs => ?_⟩
  have hyx : y ≠ x := by
    rcases hx with rfl | rfl
    · exact hp
    · exact hs
  rw [View.put_role, if_neg hyx]

theorem Moved.link {s : Store Node} {b : BitVec 32} (hx : x = .pendList t ∨ x = .sortLinkNode t)
    (hh : ∀ l, h ≠ .wait l) :
    Moved t k V { k with links := s, gQueueBitmap := b } (V.put x h l) := by
  refine ⟨Touched.link hx, fun w => ?_⟩
  rw [View.put_content, if_neg (hh w).symm]

theorem TaskOk.sortNode (ho : TaskOk k V t) :
    V.role (.sortLinkNode t) = .loose ∨ V.role (.sortLinkNode t) = .member .gTaskSortLink := by
  by_cases h : ((k.gTaskCBArray t).taskStatus.delay ∨ (k.gTaskCBArray t).taskStatus.pendTime) →
      t = k.runTask
  · exact .inl (ho.untimed h)
  · have hne := Classical.not_imp.mp h
    exact .inr (ho.timed hne.1 hne.2)

theorem TaskOk.not_idle_of_pend (ho : TaskOk k V t) (hpend : (k.gTaskCBArray t).taskStatus.pend) :
    t ≠ k.gIdleTaskID := by
  intro he
  have h := (ho.idle he).2.2.1
  rw [hpend] at h
  cases h

theorem TaskOk.of_pend (ho : TaskOk k V t) (hpend : (k.gTaskCBArray t).taskStatus.pend) :
    (k.gTaskCBArray t).taskStatus.unused = false ∧ (k.gTaskCBArray t).taskStatus.ready = false ∧
      (k.gTaskCBArray t).taskStatus.delay = false := by
  refine ⟨?_, ?_, ho.flags.pend hpend⟩
  · cases h : (k.gTaskCBArray t).taskStatus.unused with
    | false => rfl
    | true =>
      have h' := (ho.flags.unused h).2.2.1
      rw [hpend] at h'
      cases h'
  · cases h : (k.gTaskCBArray t).taskStatus.ready with
    | false => rfl
    | true =>
      have h' := (ho.flags.ready h).2.1
      rw [hpend] at h'
      cases h'

theorem TaskOk.of_timed (ho : TaskOk k V t) (htimed : (k.gTaskCBArray t).taskStatus.delay ∨
    (k.gTaskCBArray t).taskStatus.pendTime) :
    (k.gTaskCBArray t).taskStatus.unused = false ∧ (k.gTaskCBArray t).taskStatus.ready = false := by
  constructor
  · cases h : (k.gTaskCBArray t).taskStatus.unused with
    | false => rfl
    | true =>
      have h' := (ho.flags.unused h).2.2.2
      rw [h'.1, h'.2] at htimed
      simp at htimed
  · cases h : (k.gTaskCBArray t).taskStatus.ready with
    | false => rfl
    | true =>
      have h' := (ho.flags.ready h).2.2
      rw [h'.1, h'.2] at htimed
      simp at htimed

theorem TaskOk.not_idle_of_timed (ho : TaskOk k V t) (htimed : (k.gTaskCBArray t).taskStatus.delay ∨
    (k.gTaskCBArray t).taskStatus.pendTime) : t ≠ k.gIdleTaskID := by
  rcases htimed with h | h
  · intro he
    have h' := (ho.idle he).2.2.2
    rw [h] at h'
    cases h'
  · exact ho.not_idle_of_pend (ho.flags.pendTime h)

theorem TaskOk.pl_cases (ho : TaskOk k V t) (hunused : (k.gTaskCBArray t).taskStatus.unused = false)
    (hne : t ≠ k.gIdleTaskID) :
    ((k.gTaskCBArray t).taskStatus.ready = true ∧
      V.role (.pendList t) = .member (.gPriQueueList (k.gTaskCBArray t).priority)) ∨
    ((k.gTaskCBArray t).taskStatus.ready = false ∧ (k.gTaskCBArray t).taskStatus.pend = true ∧
      ∃ l, V.role (.pendList t) = .member (.wait l)) ∨
    ((k.gTaskCBArray t).taskStatus.ready = false ∧ (k.gTaskCBArray t).taskStatus.pend = false ∧
      V.role (.pendList t) = .loose) := by
  cases hr : (k.gTaskCBArray t).taskStatus.ready with
  | true => exact .inl ⟨rfl, ho.queued hr hne⟩
  | false =>
    cases hp : (k.gTaskCBArray t).taskStatus.pend with
    | true => exact .inr (.inl ⟨rfl, rfl, ho.blocked hp⟩)
    | false => exact .inr (.inr ⟨rfl, rfl, ho.off hunused (fun h => by simp [hr] at h) hp⟩)

theorem TaskOk.congr (ho : TaskOk k V u) (hcb : k'.gTaskCBArray u = k.gTaskCBArray u)
    (hp : V'.role (.pendList u) = V.role (.pendList u))
    (hs : V'.role (.sortLinkNode u) = V.role (.sortLinkNode u))
    (hrun : u = k'.runTask ↔ u = k.runTask) (hidle : u = k'.gIdleTaskID ↔ u = k.gIdleTaskID)
    (hnow : osGetCurrSchedTimeCycle k ≤ osGetCurrSchedTimeCycle k') : TaskOk k' V' u := by
  obtain ⟨h1, h2, h3, h4, h5, h6, h7, h8, h9, h10, h11, h12, h13, h14⟩ := ho
  constructor <;> simp only [hcb, hp, hs, hrun, hidle, ne_eq] <;> first | assumption | exact h3.trans hnow

end

variable [Config]

/-- What may be linked into which list. -/
def Fits : Node → Node → Prop
  | .pendList t, h => t < gTaskMaxNum ∧
      (h = .gLosFreeTask ∨ h = .gTaskRecyleList ∨ (∃ p < 32, h = .gPriQueueList p) ∨
        ∃ l, h = .wait l)
  | .sortLinkNode t, h => t < gTaskMaxNum ∧ h = .gTaskSortLink
  | .wait _, h => h = .gUnusedSemList ∨ h = .gUnusedMuxList ∨ h = .gFreeQueueList
  | _, _ => False

structure Core (k : KernelState) (V : View Node) : Prop where
  ready : ReadyQueue k V
  system : ∀ h, SystemHead h → V.role h = .head
  fits : ∀ x h, V.role x = .member h → Fits x h

/-- The block that stands for the running task before the start and after it deletes itself. -/
structure SpareOk (k : KernelState) : Prop where
  startTime : (k.gTaskCBArray gTaskMaxNum).startTime ≤ osGetCurrSchedTimeCycle k
  unused : (k.gTaskCBArray gTaskMaxNum).taskStatus.unused
  flags : Consistent (k.gTaskCBArray gTaskMaxNum).taskStatus

structure KernelInv (k : KernelState) (V : View Node) : Prop where
  core : Core k V
  task : ∀ t < gTaskMaxNum, TaskOk k V t
  spare : SpareOk k
  run : k.runTask ≤ gTaskMaxNum
  idle : k.gTaskScheduled → k.gIdleTaskID < gTaskMaxNum

section

variable {k k' : KernelState} {V V' : View Node} {t : Nat} {x h : Node} {l : List Node}

theorem Core.congr (hc : Core k V) (hl : k'.links = k.links) (hb : k'.gQueueBitmap = k.gQueueBitmap) :
    Core k' V :=
  ⟨hc.ready.congr hl hb, hc.system, hc.fits⟩

theorem Core.modifyTask (hc : Core k V) (t : Nat) (f : LosTaskCB → LosTaskCB) :
    Core (k.modifyTask t f) V :=
  hc.congr rfl rfl

theorem Core.not_head (hc : Core k V) (hx : V.role x = .loose ∨ ∃ h, V.role x = .member h) (hh : Node)
    (hs : SystemHead hh) : hh ≠ x := by
  intro he
  have hhd := hc.system hh hs
  rw [he] at hhd
  rcases hx with hx | ⟨h, hx⟩ <;> rw [hx] at hhd <;> cases hhd

/-- A loose node joins a list and the ready queue is right afterwards. -/
theorem Core.put (hc : Core k V) (hx : V.role x = .loose) (hfit : Fits x h)
    (hr : ReadyQueue k' (V.put x h l)) : Core k' (V.put x h l) := by
  refine ⟨hr, fun hh hs => ?_, fun y g hy => ?_⟩
  · rw [View.put_role, if_neg (hc.not_head (.inl hx) hh hs)]
    exact hc.system hh hs
  · rw [View.put_role] at hy
    by_cases hyx : y = x
    · rw [if_pos hyx] at hy
      injection hy with hy
      rw [hyx, ← hy]
      exact hfit
    · rw [if_neg hyx] at hy
      exact hc.fits y g hy

theorem Core.remove (hc : Core k V) (hx : V.role x = .member h) (hr : ReadyQueue k' (V.remove x)) :
    Core k' (V.remove x) := by
  refine ⟨hr, fun hh hs => ?_, fun y g hy => ?_⟩
  · rw [View.remove_role, if_neg (hc.not_head (.inr ⟨h, hx⟩) hh hs)]
    exact hc.system hh hs
  · rw [View.remove_role] at hy
    by_cases hyx : y = x
    · rw [if_pos hyx] at hy
      cases hy
    · rw [if_neg hyx] at hy
      exact hc.fits y g hy

theorem Core.unlink (hc : Core k V) (hx : V.role x = .member h) (hh : ∀ p, h ≠ .gPriQueueList p) :
    Core (losListDelete k x) (V.remove x) :=
  hc.remove hx (hc.ready.remove_other hx hh)

theorem Core.addTail (hc : Core k V) (hx : V.role x = .loose) (hhead : V.role h = .head)
    (hh : ∀ p, h ≠ .gPriQueueList p) (hfit : Fits x h) :
    Core (losListTailInsert k h x) (V.put x h (V.content h ++ [x])) :=
  hc.put hx hfit (hc.ready.put_other hx hh (hc.ready.forest.listTailInsert hhead hx) rfl)

theorem Core.addHead (hc : Core k V) (hx : V.role x = .loose) (hhead : V.role h = .head)
    (hh : ∀ p, h ≠ .gPriQueueList p) (hfit : Fits x h) :
    Core (losListAdd k h x) (V.put x h (x :: V.content h)) :=
  hc.put hx hfit (hc.ready.put_other hx hh (hc.ready.forest.listAdd hhead hx) rfl)

theorem SpareOk.congr (hs : SpareOk k) (hcb : k'.gTaskCBArray gTaskMaxNum = k.gTaskCBArray gTaskMaxNum)
    (hnow : osGetCurrSchedTimeCycle k ≤ osGetCurrSchedTimeCycle k') : SpareOk k' := by
  obtain ⟨h1, h2, h3⟩ := hs
  constructor <;> simp only [hcb] <;> first | assumption | exact h1.trans hnow

/-- After an operation on task `t` only `t` needs to be looked at. -/
theorem KernelInv.touched (hi : KernelInv k V) (ht : t < gTaskMaxNum) (hm : Touched t k V k' V')
    (hc : Core k' V') (hok : TaskOk k' V' t) : KernelInv k' V' := by
  have hnow : osGetCurrSchedTimeCycle k ≤ osGetCurrSchedTimeCycle k' := hm.now.ge
  refine ⟨hc, fun u hu => ?_, ?_, ?_, ?_⟩
  · by_cases hut : u = t
    · rw [hut]
      exact hok
    · apply (hi.task u hu).congr (hm.task u hut) _ _ _ _ hnow
      · exact hm.role _ (by simpa using hut) (by simp)
      · exact hm.role _ (by simp) (by simpa using hut)
      · rw [hm.runTask]
      · rw [hm.gIdleTaskID]
  · exact hi.spare.congr (hm.task _ (Nat.ne_of_gt ht)) hnow
  · rw [hm.runTask]
    exact hi.run
  · rw [hm.gTaskScheduled, hm.gIdleTaskID]
    exact hi.idle

theorem KernelInv.congr (hi : KernelInv k V) (hl : k'.links = k.links)
    (hb : k'.gQueueBitmap = k.gQueueBitmap) (ht : k'.gTaskCBArray = k.gTaskCBArray)
    (hr : k'.runTask = k.runTask) (hid : k'.gIdleTaskID = k.gIdleTaskID)
    (hs : k'.gTaskScheduled = k.gTaskScheduled)
    (hnow : osGetCurrSchedTimeCycle k ≤ osGetCurrSchedTimeCycle k') : KernelInv k' V := by
  refine ⟨hi.core.congr hl hb, fun u hu => ?_, ?_, ?_, ?_⟩
  · exact (hi.task u hu).congr (congrFun ht u) rfl rfl (by rw [hr]) (by rw [hid]) hnow
  · exact hi.spare.congr (congrFun ht _) hnow
  · rw [hr]
    exact hi.run
  · rw [hs, hid]
    exact hi.idle

end

end LiteosM.Kernel
