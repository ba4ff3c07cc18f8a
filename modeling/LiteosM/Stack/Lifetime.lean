import LiteosM.Stack.Invariant
import LiteosM.Lib.Transition

/-!
# Nobody runs on a stack that was given back

The stack of a task is its own from `OsNewTaskInit` until its control block is free, and it goes
back to the heap once. A task that deletes itself is on its stack until the switch, so nobody may
recycle it before.
-/

namespace LiteosM.Stack

open LiteosM.Kernel LiteosM.Lib.DlList LiteosM.Lib.Transition

variable [Config]

structure StackSafe (s : StackState) (V : View Node) : Prop where
  forest : Forest s.kernel.links V
  running : s.kernel.gTaskScheduled = true → ∃ t < gTaskMaxNum, ∃ stack, s.psp = some stack ∧
    s.topOfStack t = some stack ∧ s.heap stack = true ∧
      (t = s.kernel.runTask ∨
        s.kernel.runTask = gTaskMaxNum ∧ .pendList t ∈ V.content .gTaskRecyleList)
  saved : ∀ t < gTaskMaxNum, (s.kernel.status t).unused = false → t ≠ s.kernel.runTask →
    ∃ stack, s.stackPointer t = some stack ∧ s.topOfStack t = some stack ∧ s.heap stack = true
  apart : ∀ t < gTaskMaxNum, ∀ u < gTaskMaxNum, ∀ stack, s.topOfStack t = some stack →
    s.topOfStack u = some stack → t = u
  free : ∀ t < gTaskMaxNum, .pendList t ∈ V.content .gLosFreeTask ↔ s.topOfStack t = none
  once : ∀ i < s.born, s.returned i ≤ 1 ∧
    (s.returned i = 0 ↔ ∃ t < gTaskMaxNum, s.life t = i ∧ s.topOfStack t ≠ none)

/-- Nobody looks for finished tasks while a task that deleted itself is still on the processor, and a
new task is as `LOS_TaskCreateOnly` left it when it is put in the ready queue. -/
def StackAllowed (s : StackState) : StackEvent → Prop
  | .create taskID taskInitParam _ => taskID = true → osTaskInitParamCheck taskInitParam = .losOk →
      s.kernel.gTaskScheduled = true → s.kernel.runTask ≠ gTaskMaxNum
  | .goOn call _ => ∀ taskCB, s.calls[call]? = some (.enQueue taskCB) →
      s.kernel.status taskCB = osTaskStatusSuspend
  | _ => True

section

variable {s s' : StackState} {k k' : KernelState} {V V' : View Node} {t u stack : Nat} {l : Node}

theorem enQueue_inv (hi : StackInv s V) (ht : t < gTaskMaxNum)
    (hstatus : s.kernel.status t = osTaskStatusSuspend) (h : osSchedTaskEnQueue s.kernel t = some k) :
    ∃ V', StackInv { s with kernel := if k.gTaskScheduled then losSchedule k else k } V' := by
  have ho := hi.machine.inv.task t ht
  have hcb : (s.kernel.gTaskCBArray t).taskStatus = osTaskStatusSuspend := hstatus
  have hlive : (s.kernel.gTaskCBArray t).taskStatus.unused = false := by
    rw [hcb]
    rfl
  have hrun : s.kernel.runTask ≠ t := by
    intro heq
    have hrunning := ho.running.mpr heq.symm
    rw [hcb] at hrunning
    cases hrunning
  have hpl := ho.off hlive (fun h => by rw [hcb] at h; cases h) (by rw [hcb]; rfl)
  have hsl := ho.untimed fun h => by
    rw [hcb] at h
    obtain h | h := h
    · cases h
    · cases h
  obtain ⟨k1, V1, slice, heq, hi1, hm1, hcb1, -⟩ := hi.machine.inv.enqueue ht (Moved.refl t _ V)
    hi.machine.inv.core ho.id ho.priority ho.startTime ho.running hlive (by rw [hcb]; rfl)
    ((ho.response hlive).mpr hsl) hpl hsl
  rw [Option.some.inj (heq.symm.trans h)] at hi1 hm1 hcb1
  have hunused : ∀ u < gTaskMaxNum, (k.status u).unused = (s.kernel.status u).unused := by
    intro u hu
    by_cases hut : u = t
    · rw [hut, KernelState.status, hcb1]
      rfl
    · rw [KernelState.status, hm1.task u hut]
      rfl
  have hmachine : Machine k V1 := by
    refine ⟨hi1, hi.machine.settled.moved hm1 fun _ _ => hrun, ?_⟩
    rw [hm1.gIdleTaskID]
    exact hi.machine.idle
  have hshelf := hm1.shelved fun _ => hlive
  refine ⟨V1, ?_⟩
  split
  · obtain ⟨b, hb⟩ := losSchedule_eq k
    have hmachine' : Machine (losSchedule k) V1 :=
      ⟨hi1.losSchedule, hmachine.settled.losSchedule, by rw [hb]; exact hmachine.idle⟩
    rw [hb] at hmachine' ⊢
    exact hi.plain hmachine' hshelf hm1.runTask hm1.gTaskScheduled hunused
  · exact hi.plain hmachine hshelf hm1.runTask hm1.gTaskScheduled hunused

omit [Config] in
theorem osSchedTaskExit_running (k : KernelState) (t : Nat) :
    ((osSchedTaskExit k t).status t).running = (k.status t).running := by
  have hqueue : ∀ k, ((osSchedTaskDeQueue k t).status t).running = (k.status t).running := by
    intro k
    unfold osSchedTaskDeQueue
    split
    · refine (congrArg (fun cb => cb.taskStatus.running) (modifyStatus_self _ t _)).trans ?_
      dsimp only
      split
      · rfl
      · rfl
    · rfl
  have hsort : ∀ k, ((osDeleteSortLink k t).status t).running = (k.status t).running := by
    intro k
    unfold osDeleteSortLink osDeleteNodeSortLink
    split
    · exact congrArg (fun cb => cb.taskStatus.running) (modifyTask_self _ t _)
    · rfl
  have htimed : ∀ k : KernelState,
      ((k.modifyStatus t fun s => { s with delay := false, pendTime := false }).status t).running =
        (k.status t).running := by
    intro k
    rw [KernelState.status, modifyStatus_self]
    rfl
  have hpend : ∀ k : KernelState,
      ((k.modifyStatus t fun s => { s with pend := false }).status t).running =
        (k.status t).running := by
    intro k
    rw [KernelState.status, modifyStatus_self]
    rfl
  unfold osSchedTaskExit
  dsimp only
  split
  · split
    · exact (htimed _).trans ((hsort _).trans (hqueue k))
    · exact hqueue k
  · split
    · split
      · exact (htimed _).trans ((hsort _).trans (hpend (losListDelete k (.pendList t))))
      · exact hpend (losListDelete k (.pendList t))
    · split
      · exact (htimed _).trans (hsort k)
      · rfl

/-- The kernel sees the same deletion, and the stack of a task that runs stays where it is. -/
theorem losTaskDelete_eq (s : StackState) (taskID : Nat) : ∃ k r,
    Kernel.losTaskDelete s.kernel taskID = some (k, r) ∧
      (k = s.kernel ∧ (losTaskDelete s taskID).1 = s ∨
        (s.kernel.status taskID).unused = false ∧ (k.status taskID).unused = true ∧
          ((s.kernel.status taskID).running = true ∧ (losTaskDelete s taskID).1 = { s with
              kernel := k
              topOfStack := Function.update s.topOfStack gTaskMaxNum (s.topOfStack taskID) } ∨
            (s.kernel.status taskID).running = false ∧
              (losTaskDelete s taskID).1 = StackState.freeStack { s with kernel := k } taskID)) := by
  unfold Kernel.losTaskDelete losTaskDelete
  dsimp only
  by_cases hret : osCheckTaskIDValid s.kernel taskID ≠ .losOk
  · rw [if_pos hret, if_pos hret]
    exact ⟨_, _, rfl, Or.inl ⟨rfl, rfl⟩⟩
  rw [if_neg hret, if_neg hret]
  by_cases hunused : (s.kernel.status taskID).unused = true
  · rw [if_pos hunused, if_pos hunused]
    exact ⟨_, _, rfl, Or.inl ⟨rfl, rfl⟩⟩
  rw [if_neg hunused, if_neg hunused]
  obtain ⟨k, hk⟩ : ∃ k, (if (s.kernel.status taskID).running = true ∧ s.kernel.gLosTaskLock ≠ 0 then
      { s.kernel with gLosTaskLock := 0 } else s.kernel) = k := ⟨_, rfl⟩
  have hrunning : (k.status taskID).running = (s.kernel.status taskID).running := by
    rw [← hk]
    split
    · rfl
    · rfl
  obtain ⟨-, hlt⟩ := osCheckTaskIDValid_ok (not_not.mp hret)
  rw [Bool.not_eq_true] at hunused
  rw [hk, ← hrunning]
  cases hexit : ((osSchedTaskExit k taskID).status taskID).running with
  | true =>
    rw [if_pos rfl, if_pos rfl]
    rw [osSchedTaskExit_running] at hexit
    refine ⟨_, _, rfl, Or.inr ⟨hunused, ?_, Or.inl ⟨hexit, rfl⟩⟩⟩
    obtain ⟨b, hb⟩ := losSchedule_eq (osRunningTaskDelete ((osSchedTaskExit k taskID).modifyStatus taskID
      fun _ => osTaskStatusUnused) taskID taskID)
    rw [hb]
    show (Function.update ((osSchedTaskExit k taskID).modifyStatus taskID fun _ =>
      osTaskStatusUnused).gTaskCBArray gTaskMaxNum _ taskID).taskStatus.unused = true
    rw [Function.update_of_ne (Nat.ne_of_lt hlt), modifyStatus_self]
    rfl
  | false =>
    rw [if_neg Bool.false_ne_true, if_neg Bool.false_ne_true]
    rw [osSchedTaskExit_running] at hexit
    refine ⟨_, _, rfl, Or.inr ⟨hunused, ?_, Or.inr ⟨hexit, rfl⟩⟩⟩
    show (((osSchedTaskExit k taskID).modifyStatus taskID fun _ =>
      osTaskStatusUnused).gTaskCBArray taskID).taskStatus.unused = true
    rw [modifyStatus_self]
    rfl

theorem losTaskDelete_inv (hi : StackInv s V) (taskID : Nat) :
    ∃ V', StackInv (losTaskDelete s taskID).1 V' := by
  obtain ⟨k, r, heq, hcase⟩ := losTaskDelete_eq s taskID
  obtain ⟨k', V', r', heq', hinv, hq, hset, hout, hshelf, hplace⟩ := losTaskDelete_spec hi.machine.inv taskID
  rw [heq] at heq'
  cases heq'
  obtain ⟨-, hs'⟩ | ⟨hlive, hgone, hcase⟩ := hcase
  · rw [hs']
    exact ⟨V, hi⟩
  have hne : k ≠ s.kernel := by
    rintro rfl
    rw [hlive] at hgone
    cases hgone
  have hd := hout.resolve_left fun h => hne h.1
  have hrole := hplace.resolve_left hne
  have ht := hd.bound
  have hmachine : Machine k V' := by
    refine ⟨hinv, hset hi.machine.settled, ?_⟩
    rw [hq.gIdleTaskID]
    exact hi.machine.idle
  have hshelved : ∀ u < gTaskMaxNum, u ≠ taskID → ∀ l, l = .gLosFreeTask ∨ l = .gTaskRecyleList →
      (V'.role (.pendList u) = .member l ↔ V.role (.pendList u) = .member l) := fun u hu hut l hl =>
    role_shelf hi.machine hmachine hshelf (hq.kept u hu hut).unused hu hl
  have hstays : s.topOfStack taskID ≠ none := by
    intro hnone
    have hfree := (hi.machine.inv.task taskID ht).of_free (Or.inl ((hi.free taskID ht).mpr hnone))
    rw [show (s.kernel.gTaskCBArray taskID).taskStatus.unused = false from hlive] at hfree
    cases hfree
  have hrun' := hd.runTask
  have hother : ∀ u < gTaskMaxNum, (k.status u).unused = false →
      u ≠ taskID ∧ (s.kernel.status u).unused = false := by
    intro u hu hul
    have hut : u ≠ taskID := by
      rintro rfl
      rw [hgone] at hul
      cases hul
    exact ⟨hut, (hq.kept u hu hut).unused.symm.trans hul⟩
  obtain ⟨hrunning, hs'⟩ | ⟨hrunning, hs'⟩ := hcase
  · -- the task is still on its stack, and the spare block points there as well
    have hrun := (hi.machine.inv.task taskID ht).running.mp hrunning
    rw [if_pos hrun] at hrole hrun'
    have htop : ∀ u < gTaskMaxNum,
        Function.update s.topOfStack gTaskMaxNum (s.topOfStack taskID) u = s.topOfStack u :=
      fun u hu => Function.update_of_ne (Nat.ne_of_lt hu) _ _
    rw [hs']
    refine ⟨V', ?_⟩
    constructor
    case machine => exact hmachine
    case accounts =>
      constructor
      case live =>
        intro u hu stack h
        dsimp only at h
        rw [htop u hu] at h
        exact hi.accounts.live u hu stack h
      case apart =>
        intro u hu v hv stack hsu hsv
        dsimp only at hsu hsv
        rw [htop u hu] at hsu
        rw [htop v hv] at hsv
        exact hi.accounts.apart u hu v hv stack hsu hsv
      case lives =>
        intro u hu v hv hnu hnv heq
        dsimp only at hnu hnv
        rw [htop u hu] at hnu
        rw [htop v hv] at hnv
        exact hi.accounts.lives u hu v hv hnu hnv heq
      case gone =>
        intro i hlt hnone
        apply hi.accounts.gone i hlt
        intro u hu hnu
        apply hnone u hu
        dsimp only
        rw [htop u hu]
        exact hnu
      case fresh => exact hi.accounts.fresh
    case free =>
      intro u hu
      dsimp only
      rw [htop u hu]
      by_cases hut : u = taskID
      · rw [hut, hrole]
        exact iff_of_false (fun h => by cases h) hstays
      · exact (hshelved u hu hut _ (Or.inl rfl)).trans (hi.free u hu)
    case saved =>
      intro u hu hul _
      obtain ⟨hut, hulive⟩ := hother u hu hul
      dsimp only
      rw [htop u hu]
      apply hi.saved u hu hulive
      rw [← hrun]
      exact hut
    case psp =>
      intro _ hlt
      dsimp only at hlt
      rw [hrun'] at hlt
      exact absurd hlt (Nat.lt_irrefl _)
    case finished =>
      intro hs _
      dsimp only at hs ⊢
      rw [hq.gTaskScheduled] at hs
      refine ⟨taskID, ht, hrole, ?_⟩
      rw [htop taskID ht, hrun]
      apply hi.psp hs
      rw [← hrun]
      exact ht
    case calls => exact hi.calls
    case params => exact hi.params
  · have hrun : taskID ≠ s.kernel.runTask := by
      intro heq
      have hr := (hi.machine.inv.task taskID ht).running.mpr heq
      rw [show (s.kernel.gTaskCBArray taskID).taskStatus.running = false from hrunning] at hr
      cases hr
    rw [if_neg hrun] at hrole hrun'
    obtain ⟨hkernel, hsp, hpsp, hcalls⟩ := freeStack_rest { s with kernel := k } taskID
    have htop := freeStack_topOfStack { s with kernel := k } taskID
    have haccounts : Accounts (StackState.freeStack { s with kernel := k } taskID) :=
      Accounts.freeStack ⟨hi.accounts.live, hi.accounts.apart, hi.accounts.lives, hi.accounts.gone,
        hi.accounts.fresh⟩ ht
    rw [hs']
    refine ⟨V', ?_⟩
    constructor
    case machine =>
      rw [hkernel]
      exact hmachine
    case accounts => exact haccounts
    case free =>
      intro u hu
      rw [htop]
      by_cases hut : u = taskID
      · rw [hut, Function.update_self, hrole]
        exact iff_of_true rfl rfl
      · rw [Function.update_of_ne hut]
        exact (hshelved u hu hut _ (Or.inl rfl)).trans (hi.free u hu)
    case saved =>
      intro u hu hul hnr
      rw [hkernel] at hul hnr
      obtain ⟨hut, hulive⟩ := hother u hu hul
      rw [hsp, htop, Function.update_of_ne hut]
      apply hi.saved u hu hulive
      rw [← hrun']
      exact hnr
    case psp =>
      intro hs hlt
      rw [hkernel] at hs hlt ⊢
      rw [hq.gTaskScheduled] at hs
      rw [hrun'] at hlt ⊢
      rw [hpsp, htop, Function.update_of_ne (Ne.symm hrun)]
      exact hi.psp hs hlt
    case finished =>
      intro hs hmax
      rw [hkernel] at hs hmax
      rw [hq.gTaskScheduled] at hs
      rw [hrun'] at hmax
      obtain ⟨u, hu, hrecyle, hsame⟩ := hi.finished hs hmax
      have hut : u ≠ taskID := by
        rintro rfl
        have hfree := (hi.machine.inv.task u hu).of_free (Or.inr hrecyle)
        rw [show (s.kernel.gTaskCBArray u).taskStatus.unused = false from hlive] at hfree
        cases hfree
      refine ⟨u, hu, (hshelved u hu hut _ (Or.inr rfl)).mpr hrecyle, ?_⟩
      rw [hpsp, htop, Function.update_of_ne hut]
      exact hsame
    case calls =>
      rw [hcalls]
      exact hi.calls
    case params =>
      rw [hcalls]
      exact hi.params

theorem losStart_inv (hi : StackInv s V) (hsched : s.kernel.gTaskScheduled = false)
    (h : losStart s = some s') : ∃ V', StackInv s' V' := by
  obtain ⟨k, V', heq, hinv, hid, -, -, hkept, hset, hshelf, hlt, hnew, hsched'⟩ :=
    osSchedStart_spec hi.machine.inv hi.machine.settled hsched hi.machine.idle
  unfold losStart at h
  rw [heq] at h
  cases h
  have hmachine : Machine k V' := ⟨hinv, hset, by rw [hid]; exact hi.machine.idle⟩
  have hboot := hi.machine.settled.boot hsched
  have hunused : ∀ u < gTaskMaxNum, (k.status u).unused = (s.kernel.status u).unused :=
    fun u hu => (hkept u hu).unused
  have hsaved : ∀ u < gTaskMaxNum, (k.status u).unused = false → s.stackPointer u = s.topOfStack u := by
    intro u hu hlive
    apply hi.saved u hu
    · rw [← hunused u hu]
      exact hlive
    · rw [hboot]
      exact Nat.ne_of_lt hu
  refine ⟨V', ?_⟩
  constructor
  case machine => exact hmachine
  case accounts =>
    exact ⟨hi.accounts.live, hi.accounts.apart, hi.accounts.lives, hi.accounts.gone, hi.accounts.fresh⟩
  case free =>
    intro u hu
    exact (role_shelf hi.machine hmachine hshelf (hunused u hu) hu (Or.inl rfl)).trans (hi.free u hu)
  case saved => exact fun u hu hlive _ => hsaved u hu hlive
  case psp =>
    intro _ _
    dsimp only
    rw [hnew]
    exact hsaved _ hlt ((hinv.task _ hlt).live rfl)
  case finished =>
    intro _ hmax
    dsimp only at hmax
    rw [hmax] at hlt
    exact absurd hlt (Nat.lt_irrefl _)
  case calls => exact hi.calls
  case params => exact hi.params

omit [Config] in
theorem osSchedTaskDeQueue_runTask (k : KernelState) (t : Nat) :
    (osSchedTaskDeQueue k t).runTask = k.runTask := by
  unfold osSchedTaskDeQueue
  dsimp only
  split
  · split
    · rfl
    · rfl
  · rfl

theorem osSchedTaskSwitch_turn {b : Bool} (hi : KernelInv k V)
    (hready : k.runTask < gTaskMaxNum → (k.gTaskCBArray k.runTask).taskStatus.ready = false)
    (h : osSchedTaskSwitch k = some (k', b)) :
    k'.runTask = k.runTask ∧ (b = true → k'.newTask ≠ k.runTask) ∧
      (b = false → k'.newTask = k.runTask) := by
  obtain ⟨k2, V2, hpark, -, hm2, -⟩ := osSchedPark_spec hi hready
  rw [osSchedTaskSwitch_eq, hpark, Option.bind_some] at h
  cases htop : osGetTopTask k2 with
  | none =>
    rw [htop] at h
    cases h
  | some n =>
    rw [htop, Option.bind_some, Option.some.injEq, Prod.mk.injEq] at h
    obtain ⟨hk', hb⟩ := h
    obtain ⟨-, -, hsteady, hnew, -⟩ := osSchedHandOver_spec k2 k.runTask n
    rw [← hk', ← hb, osSchedTaskDeQueue_runTask, osSchedTaskDeQueue_newTask, hnew]
    refine ⟨hsteady.runTask.trans hm2.runTask, fun hne => ?_, fun heq => ?_⟩
    · exact (of_decide_eq_true hne).symm
    · exact (not_not.mp (of_decide_eq_false heq)).symm

theorem halPendSV_inv (hi : StackInv s V) (hp : s.kernel.pendSV = true) (h : halPendSV s = some s') :
    ∃ V', StackInv s' V' := by
  have hsched := hi.machine.settled.request hp
  have hready : s.kernel.runTask < gTaskMaxNum →
      (s.kernel.gTaskCBArray s.kernel.runTask).taskStatus.ready = false := by
    intro hlt
    by_contra hr
    rw [Bool.not_eq_false] at hr
    have hnone := halPendSV_ready hi.machine.inv hlt hr
    unfold Kernel.halPendSV at hnone
    unfold halPendSV at h
    simp only [Option.bind_eq_bind] at h hnone
    cases hsw : osSchedTaskSwitch { s.kernel with pendSV := false } with
    | none =>
      rw [hsw] at h
      cases h
    | some r =>
      rw [hsw] at hnone
      cases hnone
  obtain ⟨k, V', heq, hinv, hs, hlt, -, hrole⟩ := halPendSV_spec hi.machine.inv hsched hready
  have hmachine : Machine k V' := by
    refine ⟨hinv, ⟨fun _ _ => ⟨hlt, hs.clean⟩, fun h => ?_, fun h => ?_⟩, ?_⟩
    · rw [hs.gTaskScheduled, hsched] at h
      cases h
    · rw [hs.pendSV] at h
      cases h
    · rw [hs.gIdleTaskID]
      exact hi.machine.idle
  have hunused : ∀ u, (k.status u).unused = (s.kernel.status u).unused := fun u => (hs.status u).unused
  have hshelf : Shelved s.kernel V V' := by
    intro u hu hgone
    have hold : u ≠ s.kernel.runTask := by
      intro he
      rw [(hi.machine.inv.task u hu).live he] at hgone
      cases hgone
    have hnew : u ≠ k.runTask := by
      intro he
      have hlive := (hinv.task u hu).live he
      rw [show (k.gTaskCBArray u).taskStatus.unused = _ from hunused u] at hlive
      rw [show (s.kernel.gTaskCBArray u).taskStatus.unused = false from hlive] at hgone
      cases hgone
    exact hrole u hold hnew
  have hfree : ∀ u < gTaskMaxNum,
      V'.role (.pendList u) = .member .gLosFreeTask ↔ s.topOfStack u = none := fun u hu =>
    (role_shelf hi.machine hmachine hshelf (hunused u) hu (Or.inl rfl)).trans (hi.free u hu)
  have haccounts : ∀ k sp psp, Accounts { s with kernel := k, stackPointer := sp, psp := psp } :=
    fun _ _ _ => ⟨hi.accounts.live, hi.accounts.apart, hi.accounts.lives, hi.accounts.gone,
      hi.accounts.fresh⟩
  cases hsw : osSchedTaskSwitch { s.kernel with pendSV := false } with
  | none =>
    unfold halPendSV at h
    simp only [hsw, Option.bind_eq_bind] at h
    cases h
  | some r =>
    obtain ⟨k₁, b⟩ := r
    have hi0 : KernelInv { s.kernel with pendSV := false } V :=
      hi.machine.inv.congr rfl rfl rfl rfl rfl rfl (Nat.le_refl _)
    obtain ⟨hrun, hturn, hstay⟩ := osSchedTaskSwitch_turn hi0 hready hsw
    unfold Kernel.halPendSV at heq
    unfold halPendSV at h
    simp only [hsw, Option.bind_eq_bind, Option.bind_some] at h heq
    cases b with
    | true =>
      have hk : { k₁ with runTask := k₁.newTask } = k := Option.some.inj heq
      have hturn' : k.runTask ≠ s.kernel.runTask := by
        rw [← hk]
        exact hturn rfl
      have hs' : s' = { s with
          kernel := k
          stackPointer := Function.update s.stackPointer s.kernel.runTask s.psp
          psp := Function.update s.stackPointer s.kernel.runTask s.psp k.runTask } := by
        rw [← Option.some.inj h, ← hk]
        dsimp only
        rw [hrun]
      rw [hs']
      have hsaved : ∀ u < gTaskMaxNum, (k.status u).unused = false →
          Function.update s.stackPointer s.kernel.runTask s.psp u = s.topOfStack u := by
        intro u hu hlive
        by_cases hur : u = s.kernel.runTask
        · rw [hur, Function.update_self]
          exact hi.psp hsched (hur ▸ hu)
        · rw [Function.update_of_ne hur]
          exact hi.saved u hu ((hunused u).symm.trans hlive) hur
      refine ⟨V', ?_⟩
      constructor
      case machine => exact hmachine
      case accounts => exact haccounts _ _ _
      case free => exact hfree
      case saved => exact fun u hu hlive _ => hsaved u hu hlive
      case psp => exact fun _ _ => hsaved _ hlt ((hinv.task _ hlt).live rfl)
      case finished =>
        intro _ hmax
        dsimp only at hmax
        rw [hmax] at hlt
        exact absurd hlt (Nat.lt_irrefl _)
      case calls => exact hi.calls
      case params => exact hi.params
    | false =>
      have hk : k₁ = k := Option.some.inj heq
      have hs' : s' = { s with kernel := k } := by
        rw [← hk]
        exact (Option.some.inj h).symm
      have hsame : k.runTask = s.kernel.runTask := by
        rw [← hk]
        exact hrun
      rw [hs']
      refine ⟨V', ?_⟩
      constructor
      case machine => exact hmachine
      case accounts => exact haccounts _ _ _
      case free => exact hfree
      case saved =>
        intro u hu hlive hne
        dsimp only at hlive hne
        rw [hsame] at hne
        exact hi.saved u hu ((hunused u).symm.trans hlive) hne
      case psp =>
        intro _ _
        dsimp only
        rw [hsame] at hlt ⊢
        exact hi.psp hsched hlt
      case finished =>
        intro _ hmax
        dsimp only at hmax
        rw [hmax] at hlt
        exact absurd hlt (Nat.lt_irrefl _)
      case calls => exact hi.calls
      case params => exact hi.params

theorem createGoesOn_inv {call : Nat} {top : Option Nat} (hi : StackInv s V)
    (hallowed : StackAllowed s (.goOn call top)) (h : createGoesOn s call top = some s') :
    ∃ V', StackInv s' V' := by
  unfold createGoesOn at h
  cases hcall : s.calls[call]? with
  | none =>
    rw [hcall] at h
    cases h
  | some c =>
    have hmem : c ∈ s.calls := List.mem_of_getElem? hcall
    rw [hcall] at h
    cases c with
    | take param enQueue =>
      dsimp only at h
      split at h
      · rename_i hblock
        have htop : ∀ stack, top = some stack → s.heap stack = false := by
          rintro stack rfl
          exact Bool.not_eq_true' _ |>.mp hblock
        rw [Option.map_eq_some_iff] at h
        obtain ⟨⟨s₁, r, o⟩, hcreate, hs'⟩ := h
        obtain ⟨⟨V', hi'⟩, hcalls, hbound⟩ := losTaskCreateOnly_inv hi (hi.params _ _ hmem) htop hcreate
        have herase : StackInv { s₁ with calls := s.calls.eraseIdx call } V' :=
          hi'.withCalls (fun t ht => hi.calls t (List.mem_of_mem_eraseIdx ht))
            fun p e hp => hi.params p e (List.mem_of_mem_eraseIdx hp)
        dsimp only at hs'
        split at hs'
        · rename_i taskID
          rw [← hs']
          refine ⟨V', hi'.withCalls (fun t ht => ?_) fun p e hp => ?_⟩
          · obtain hold | hnew := List.mem_or_eq_of_mem_set ht
            · exact hi.calls t hold
            · cases hnew
              exact hbound _ rfl
          · obtain hold | hnew := List.mem_or_eq_of_mem_set hp
            · exact hi.params p e hold
            · cases hnew
        · rw [← hs']
          exact ⟨V', herase⟩
      · cases h
    | enQueue t =>
      dsimp only at h
      have hsuspend := hallowed t hcall
      have herase : StackInv { s with calls := s.calls.eraseIdx call } V :=
        hi.withCalls (fun u hu => hi.calls u (List.mem_of_mem_eraseIdx hu))
          fun p e hp => hi.params p e (List.mem_of_mem_eraseIdx hp)
      unfold losTaskCreateEnd at h
      rw [Option.map_eq_some_iff] at h
      obtain ⟨k, henq, hs'⟩ := h
      rw [← hs']
      exact enQueue_inv herase (hi.calls t hmem) hsuspend henq

theorem stackStep_inv {event : StackEvent} (hi : StackInv s V) (hallowed : StackAllowed s event)
    (hstep : stackStep s event = some s') : ∃ V', StackInv s' V' := by
  cases event with
  | create taskID param enQueue =>
    simp only [stackStep] at hstep
    split at hstep
    · rename_i hcheck
      rw [Option.map_eq_some_iff] at hstep
      obtain ⟨s₁, hrecyle, rfl⟩ := hstep
      obtain ⟨V', hi', hcalls⟩ := osRecyleLoop_inv _ s V hi (hallowed hcheck.1 hcheck.2) hrecyle
      refine ⟨V', hi'.withCalls (fun t ht => ?_) fun p e hp => ?_⟩
      · obtain hold | hnew := List.mem_append.mp ht
        · exact hi'.calls t hold
        · cases List.mem_singleton.mp hnew
      · obtain hold | hnew := List.mem_append.mp hp
        · exact hi'.params p e hold
        · cases List.mem_singleton.mp hnew
          exact osTaskInitParamCheck_prio hcheck.2
    · cases hstep
      exact ⟨V, hi⟩
  | goOn call top => exact createGoesOn_inv hi hallowed hstep
  | recyle =>
    simp only [stackStep] at hstep
    split at hstep
    · rename_i hidle
      have hrun : s.kernel.gTaskScheduled = true → s.kernel.runTask ≠ gTaskMaxNum := fun _ => by
        rw [hidle.2]
        exact Nat.ne_of_lt hi.machine.idle
      obtain ⟨V', hi', -⟩ := osRecyleLoop_inv _ s V hi hrun hstep
      exact ⟨V', hi'⟩
    · cases hstep
  | delete taskID =>
    cases hstep
    exact losTaskDelete_inv hi taskID
  | start =>
    simp only [stackStep] at hstep
    split at hstep
    · cases hstep
    · rename_i hsched
      rw [Bool.not_eq_true] at hsched
      exact losStart_inv hi hsched hstep
  | pendSV =>
    simp only [stackStep] at hstep
    split at hstep
    · rename_i hp
      exact halPendSV_inv hi hp hstep
    · cases hstep
  | kernel event =>
    simp only [stackStep] at hstep
    split at hstep
    · rename_i hplain
      rw [Option.map_eq_some_iff] at hstep
      obtain ⟨k, hk, rfl⟩ := hstep
      exact kernel_inv hi hplain hk
    · cases hstep

theorem stackBooted_inv (hmax : gTaskMaxNum ≤ osInvalid) (hb : StackBooted s) : ∃ V, StackInv s V := by
  obtain ⟨V, hm, -, hsched, -⟩ := booted_machine hmax hb.kernel
  obtain ⟨stack, htop, hsp, hheap⟩ := hb.idle
  obtain ⟨hborn, hlife, hreturned⟩ := hb.born
  have hidle : ∀ t < gTaskMaxNum, s.topOfStack t ≠ none → t = s.kernel.gIdleTaskID := by
    intro t ht hne
    by_contra hother
    exact hne (hb.others t ht hother).2
  have hempty : V.content .gTaskRecyleList = [] :=
    (hm.inv.core.ready.listEmpty_iff (hm.inv.core.system .gTaskRecyleList (.inr (.inl rfl)))).mp hb.recyle
  refine ⟨V, ?_⟩
  constructor
  case machine => exact hm
  case accounts =>
    constructor
    case live =>
      intro t ht stack' hs
      have heq := hidle t ht (by rw [hs]; exact Option.some_ne_none _)
      rw [heq] at hs ⊢
      rw [← Option.some.inj (htop.symm.trans hs), hlife, hborn]
      exact ⟨hheap, Nat.one_pos, hreturned 0⟩
    case apart =>
      intro t ht u hu stack' hst hsu
      rw [hidle t ht (by rw [hst]; exact Option.some_ne_none _),
        hidle u hu (by rw [hsu]; exact Option.some_ne_none _)]
    case lives =>
      intro t ht u hu hnt hnu _
      rw [hidle t ht hnt, hidle u hu hnu]
    case gone =>
      intro i hi hnone
      rw [hborn] at hi
      exfalso
      apply hnone _ hm.idle
      · rw [htop]
        exact Option.some_ne_none _
      · rw [hlife]
        omega
    case fresh => exact fun i _ => hreturned i
  case free =>
    intro t ht
    by_cases heq : t = s.kernel.gIdleTaskID
    · rw [heq, htop]
      refine iff_of_false (fun hrole => ?_) (Option.some_ne_none _)
      have hfree := (hm.inv.task _ hm.idle).of_free (Or.inl hrole)
      rw [((hm.inv.task _ hm.idle).idle rfl).1] at hfree
      cases hfree
    · obtain ⟨hunused, hnone⟩ := hb.others t ht heq
      refine iff_of_true ?_ hnone
      obtain hfree | hrecyle := (hm.inv.task t ht).free hunused
      · exact hfree
      · have hmem := (hm.inv.core.ready.forest.mem _ _).mpr hrecyle
        rw [hempty] at hmem
        cases hmem
  case saved =>
    intro t ht hlive _
    have heq : t = s.kernel.gIdleTaskID := by
      by_contra hother
      rw [(hb.others t ht hother).1] at hlive
      cases hlive
    rw [heq, htop, hsp]
  case psp =>
    intro hs
    rw [hsched] at hs
    cases hs
  case finished =>
    intro hs
    rw [hsched] at hs
    cases hs
  case calls =>
    intro t ht
    rw [hb.calls] at ht
    cases ht
  case params =>
    intro p e hp
    rw [hb.calls] at hp
    cases hp

theorem StackInv.safe (hi : StackInv s V) : StackSafe s V := by
  have hforest := hi.machine.inv.core.ready.forest
  have hlive : ∀ t < gTaskMaxNum, (s.kernel.status t).unused = false → s.topOfStack t ≠ none := by
    intro t ht hl hnone
    have hfree := (hi.machine.inv.task t ht).of_free (Or.inl ((hi.free t ht).mpr hnone))
    rw [show (s.kernel.gTaskCBArray t).taskStatus.unused = false from hl] at hfree
    cases hfree
  have hstack : ∀ t < gTaskMaxNum, s.topOfStack t ≠ none →
      ∃ stack, s.topOfStack t = some stack ∧ s.heap stack = true := by
    intro t ht hne
    obtain ⟨stack, hs⟩ := Option.ne_none_iff_exists'.mp hne
    exact ⟨stack, hs, (hi.accounts.live t ht stack hs).1⟩
  constructor
  case forest => exact hforest
  case running =>
    intro hsched
    obtain hlt | hmax := Nat.lt_or_eq_of_le hi.machine.inv.run
    · obtain ⟨stack, hs, hheap⟩ := hstack _ hlt (hlive _ hlt ((hi.machine.inv.task _ hlt).live rfl))
      exact ⟨_, hlt, stack, (hi.psp hsched hlt).trans hs, hs, hheap, Or.inl rfl⟩
    · obtain ⟨t, ht, hrecyle, hpsp⟩ := hi.finished hsched hmax
      have hne : s.topOfStack t ≠ none := by
        intro hnone
        cases hrecyle.symm.trans ((hi.free t ht).mpr hnone)
      obtain ⟨stack, hs, hheap⟩ := hstack t ht hne
      exact ⟨t, ht, stack, hpsp.trans hs, hs, hheap, Or.inr ⟨hmax, (hforest.mem _ _).mpr hrecyle⟩⟩
  case saved =>
    intro t ht hl hne
    obtain ⟨stack, hs, hheap⟩ := hstack t ht (hlive t ht hl)
    exact ⟨stack, (hi.saved t ht hl hne).trans hs, hs, hheap⟩
  case apart => exact hi.accounts.apart
  case free =>
    intro t ht
    rw [hforest.mem]
    exact hi.free t ht
  case once =>
    intro i hborn
    by_cases hex : ∃ t < gTaskMaxNum, s.life t = i ∧ s.topOfStack t ≠ none
    · obtain ⟨t, ht, hl, hne⟩ := hex
      obtain ⟨stack, hs, -⟩ := hstack t ht hne
      have hzero := (hi.accounts.live t ht stack hs).2.2
      rw [hl] at hzero
      rw [hzero]
      exact ⟨Nat.zero_le _, iff_of_true rfl ⟨t, ht, hl, hne⟩⟩
    · have hone := hi.accounts.gone i hborn fun t ht hne hl => hex ⟨t, ht, hl, hne⟩
      rw [hone]
      exact ⟨Nat.le_refl _, iff_of_false Nat.one_ne_zero hex⟩

/-- The stack of a task is given back once, and not before the task is off the processor. -/
theorem osRecyleFinishedTask_safe {s₀ : StackState} {events : List StackEvent}
    (hmax : gTaskMaxNum ≤ osInvalid) (hb : StackBooted s₀)
    (hrun : Run (fun s event s' => stackStep s event = some s' ∧ StackAllowed s event) s₀ events s) :
    ∃ V, StackSafe s V := by
  obtain ⟨V, hi⟩ : ∃ V, StackInv s V := by
    refine run_invariant (fun s => ∃ V, StackInv s V) ?_ hrun (stackBooted_inv hmax hb)
    rintro s event s₁ ⟨V, hi⟩ ⟨hstep, hallowed⟩
    exact stackStep_inv hi hallowed hstep
  exact ⟨V, hi.safe⟩

end

omit [Config] in
theorem smallStack_booted : @StackBooted smallConfig smallStack :=
  letI := smallConfig
  { kernel := smallKernel_booted
    recyle := by decide +kernel
    idle :=
      have hidle : (if smallKernel.gIdleTaskID = smallKernel.gIdleTaskID then some 0 else none) = some 0 :=
        if_pos rfl
      ⟨0, hidle, hidle, rfl⟩
    others := fun t ht hne => ⟨by
      have hall : ∀ t < gTaskMaxNum, t ≠ smallKernel.gIdleTaskID → (smallKernel.status t).unused = true := by
        decide +kernel
      exact hall t ht hne, if_neg hne⟩
    calls := rfl
    born := ⟨rfl, rfl, fun _ => rfl⟩ }

def stackAllowed (s : StackState) : StackEvent → Bool
  | .create _ _ _ => !s.kernel.gTaskScheduled || s.kernel.runTask ≠ gTaskMaxNum
  | .goOn call _ =>
    match s.calls[call]? with
    | some (.enQueue taskCB) => s.kernel.status taskCB = osTaskStatusSuspend
    | _ => true
  | _ => true

theorem stackAllowed_allowed {s : StackState} {event : StackEvent} (h : stackAllowed s event = true) :
    StackAllowed s event := by
  cases event with
  | create taskID taskInitParam enQueue =>
    intro _ _ hsched
    unfold stackAllowed at h
    rw [hsched] at h
    exact of_decide_eq_true h
  | goOn call topOfStack =>
    intro taskCB hcall
    unfold stackAllowed at h
    dsimp only at h
    rw [hcall] at h
    exact of_decide_eq_true h
  | recyle | delete | start | pendSV | kernel => trivial

/-- A task is made on block 1 and deletes itself. The idle task recycles it, and the next task gets its control block
and its stack. -/
def reuseStack : List StackEvent :=
  [.create true (smallParam 5) true, .goOn 0 (some 1), .goOn 0 none, .start, .delete 1, .pendSV, .recyle,
    .create true (smallParam 6) true, .goOn 0 (some 1), .goOn 0 none, .pendSV]

omit [Config] in
/-- Deleted and still on the processor, switched away, recycled, and in use again: which stack the processor is on,
whether block 1 is in use and how often it was returned for the first task. -/
theorem osRecyleFinishedTask_safe_small :
    letI := smallConfig
    StackBooted smallStack ∧
      ∀ x ∈ [(5, some 1, true, 0), (6, some 0, true, 0), (7, some 0, false, 1), (11, some 1, true, 1)], ∃ s V,
      Run (fun s event s' => stackStep s event = some s' ∧ StackAllowed s event) smallStack (reuseStack.take x.1) s ∧
      s.psp = x.2.1 ∧ s.heap 1 = x.2.2.1 ∧ s.returned 1 = x.2.2.2 ∧ StackSafe s V := by
  let := smallConfig
  refine ⟨smallStack_booted, fun x hx => ?_⟩
  have hrun : ((reuseStack.take x.1).foldlM (guarded (fun s event => stackAllowed s event) stackStep) smallStack).map
      (fun s => (s.psp, s.heap 1, s.returned 1)) = some (x.2.1, x.2.2.1, x.2.2.2) := by
    simp only [List.mem_cons, List.not_mem_nil, or_false] at hx
    rcases hx with rfl | rfl | rfl | rfl
    · decide +kernel
    · decide +kernel
    · decide +kernel
    · decide +kernel
  obtain ⟨s, hs, hval⟩ := Option.map_eq_some_iff.mp hrun
  simp only [Prod.mk.injEq] at hval
  obtain ⟨hpsp, hheap, hreturned⟩ := hval
  have hsteps : Run (fun s event s' => stackStep s event = some s' ∧ StackAllowed s event) smallStack
      (reuseStack.take x.1) s := run_mono (fun _ _ _ h => ⟨h.1, stackAllowed_allowed h.2⟩) (run_of_guarded hs)
  obtain ⟨V, hsafe⟩ := osRecyleFinishedTask_safe (by decide) smallStack_booted hsteps
  exact ⟨s, V, hsteps, hpsp, hheap, hreturned, hsafe⟩

omit [Config] in
/-- Task 1 deletes itself, and before the switch an interrupt makes a task. That one gets the stack, and
the processor saves the context of the old one there. -/
theorem osRecyleFinishedTask_early :
    letI := smallConfig
    ∃ events before after, StackBooted smallStack ∧
      Run (fun s event s' => stackStep s event = some s') smallStack events before ∧
      before.kernel.gTaskScheduled = true ∧ before.psp = some 1 ∧ before.heap 1 = false ∧
      Run (fun s event s' => stackStep s event = some s') before [.goOn 0 (some 1)] after ∧
      after.psp = some 1 ∧ after.topOfStack 1 = some 1 ∧ after.life 1 = 2 ∧
      ∀ V, ¬ StackSafe before V := by
  let := smallConfig
  let events : List StackEvent := [.create true (smallParam 5) true, .goOn 0 (some 1), .goOn 0 none,
    .start, .delete 1, .create true (smallParam 6) true]
  have hrun : ((events.foldlM stackStep smallStack).bind fun s =>
      (stackStep s (.goOn 0 (some 1))).map fun s' => ((s.kernel.gTaskScheduled, s.psp, s.heap 1),
        (s'.psp, s'.topOfStack 1, s'.life 1))) = some ((true, some 1, false), (some 1, some 1, 2)) := by
    decide +kernel
  rw [Option.bind_eq_some_iff] at hrun
  obtain ⟨before, hbefore, hnext⟩ := hrun
  rw [Option.map_eq_some_iff] at hnext
  obtain ⟨after, hafter, hval⟩ := hnext
  simp only [Prod.mk.injEq] at hval
  obtain ⟨⟨hsched, hpsp, hheap⟩, hpsp', htop, hlife⟩ := hval
  refine ⟨events, before, after, smallStack_booted, run_of_foldlM hbefore, hsched, hpsp, hheap,
    run_single hafter, hpsp', htop, hlife, fun V hsafe => ?_⟩
  obtain ⟨t, -, stack, hs, -, hallocated, -⟩ := hsafe.running hsched
  rw [← Option.some.inj (hpsp.symm.trans hs), hheap] at hallocated
  cases hallocated

end LiteosM.Stack
