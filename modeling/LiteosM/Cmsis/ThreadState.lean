import LiteosM.Cmsis.Thread

/-!
# What a thread is doing

`osThreadGetState` and `osThreadGetCount` read the status bits. Between whole steps they say on which lists of
the scheduler the threads are, and the calls on a thread do what their results say.
-/

namespace LiteosM.Cmsis

open LiteosM.Kernel LiteosM.Lib.DlList LiteosM.Lib.Transition LiteosM.Lib.Counting

variable [ThreadConfig]

inductive ThreadCall
  | new (func : Option Nat) (attr : Option OsThreadAttr) (topOfStack : Bool)
  | setPriority (threadId : Option Nat) (priority : Int)
  | yield
  | suspend (threadId : Option Nat)
  | resume (threadId : Option Nat)
  | terminate (threadId : Option Nat)
  | exit

inductive ThreadReturn
  | thread (threadId : Option Nat)
  | status (status : OsStatus)
  | none
deriving DecidableEq

def threadCall (k : KernelState) (intActive : Bool) : ThreadCall → Option (KernelState × ThreadReturn)
  | .new func attr topOfStack =>
    (osThreadNew k intActive func attr topOfStack).map fun r => (r.1, .thread r.2)
  | .setPriority threadId priority =>
    (osThreadSetPriority k intActive threadId priority).map fun r => (r.1, .status r.2)
  | .yield => if intActive || k.atWork then some ((osThreadYield k intActive).1, .status (osThreadYield k intActive).2)
    else none
  | .suspend threadId => (osThreadSuspend k intActive threadId).map fun r => (r.1, .status r.2)
  | .resume threadId => (osThreadResume k intActive threadId).map fun r => (r.1, .status r.2)
  | .terminate threadId => (osThreadTerminate k intActive threadId).map fun r => (r.1, .status r.2)
  | .exit => if !intActive && k.atWork then (osThreadExit k).map fun k => (k, .none) else none

inductive ThreadEvent
  | call (intActive : Bool) (call : ThreadCall)
  | other (event : WaitEvent)

def threadStep (s : WaitState) : ThreadEvent → Option WaitState
  | .call intActive call => (threadCall s.kernel intActive call).map fun r => { s with kernel := r.1 }
  | .other event => waitStep s event

/-- An event and the switch it asks for. -/
def WholeThreadStep (s : WaitState) (event : ThreadEvent) (s' : WaitState) : Prop :=
  ∃ s₁ k', threadStep s event = some s₁ ∧ takeSwitch s₁.kernel = some k' ∧ s' = { s₁ with kernel := k' }

/-! ### What the task calls refuse -/

section

variable {k k' : KernelState} {V V' : View Node} {t u : Nat} {r : KernelState × Errno}

theorem osCheckTaskIDValid_refuses (h : osCheckTaskIDValid k t ≠ .losOk) :
    osCheckTaskIDValid k t ∈ [Errno.tskOperateIdle, .tskSuspendSwtmrNotAllowed, .tskIdInvalid] := by
  unfold osCheckTaskIDValid at h ⊢
  split
  · decide
  · split
    · decide
    · split
      · decide
      · simp_all

theorem losTaskSuspend_answers (h : losTaskSuspend k t = some r) : r.2 = .losOk ∨
    ∃ e ∈ [Errno.tskOperateIdle, .tskSuspendSwtmrNotAllowed, .tskIdInvalid, .tskNotCreated, .tskAlreadySuspended,
      .tskSuspendLocked], r = (k, e) := by
  unfold losTaskSuspend at h
  dsimp only at h
  split at h
  · next hvalid =>
    cases h
    exact .inr ⟨_, List.Sublist.mem (osCheckTaskIDValid_refuses hvalid) (by decide), rfl⟩
  · split at h
    · cases h
      exact .inr ⟨_, by decide, rfl⟩
    · split at h
      · cases h
        exact .inr ⟨_, by decide, rfl⟩
      · split at h
        · cases h
          exact .inr ⟨_, by decide, rfl⟩
        · left
          generalize KernelState.modifyStatus _ t _ = k₁ at h
          split at h <;> cases h <;> rfl

theorem losTaskResume_answers (h : losTaskResume k t = some r) : (r.2 = .losOk ∧ Suspended k t) ∨
    ∃ e ∈ [Errno.tskIdInvalid, .tskNotCreated, .tskNotSuspended], r = (k, e) := by
  unfold losTaskResume at h
  split at h
  · cases h
    exact .inr ⟨_, by decide, rfl⟩
  · split at h
    · cases h
      exact .inr ⟨_, by decide, rfl⟩
    · split at h
      · cases h
        exact .inr ⟨_, by decide, rfl⟩
      · next hsuspend =>
        refine .inl ⟨?_, by unfold Suspended; simpa using hsuspend⟩
        dsimp only at h
        split at h
        · obtain ⟨k₁, _, h⟩ := Option.bind_eq_some_iff.mp h
          cases h
          rfl
        · cases h
          rfl

theorem losTaskDelete_answers (h : losTaskDelete k t = some r) : (r.2 = .losOk ∧ (k.status t).unused = false ∧
    (t < gTaskMaxNum → (r.1.status t).unused = true)) ∨
    ∃ e ∈ [Errno.tskOperateIdle, .tskSuspendSwtmrNotAllowed, .tskIdInvalid, .tskNotCreated], r = (k, e) := by
  unfold losTaskDelete at h
  dsimp only at h
  split at h
  · next hvalid =>
    cases h
    exact .inr ⟨_, List.Sublist.mem (osCheckTaskIDValid_refuses hvalid) (by decide), rfl⟩
  · split at h
    · cases h
      exact .inr ⟨_, by decide, rfl⟩
    · next hused =>
      generalize osSchedTaskExit _ t = k₁ at h
      have hunused : ((k₁.modifyStatus t fun _ => osTaskStatusUnused).status t).unused = true := by
        show (Function.update k₁.gTaskCBArray t _ t).taskStatus.unused = true
        rw [Function.update_self]
        rfl
      split at h
      · cases h
        refine .inl ⟨rfl, Bool.eq_false_iff.mpr hused, fun ht => ?_⟩
        obtain ⟨b, hb⟩ := losSchedule_eq (osRunningTaskDelete (k₁.modifyStatus t fun _ => osTaskStatusUnused) t t)
        show ((losSchedule (osRunningTaskDelete (k₁.modifyStatus t fun _ => osTaskStatusUnused) t t)).status
          t).unused = true
        rw [hb]
        unfold osRunningTaskDelete
        show (Function.update (k₁.modifyStatus t fun _ => osTaskStatusUnused).gTaskCBArray gTaskMaxNum _
          t).taskStatus.unused = true
        rw [Function.update_of_ne (Nat.ne_of_lt ht)]
        exact hunused
      · cases h
        exact .inl ⟨rfl, Bool.eq_false_iff.mpr hused, fun _ => hunused⟩

theorem losTaskPriSet_answers {prio : Nat} (hi : KernelInv k V) (h : losTaskPriSet k t prio = some r) :
    (r.2 = .losOk ∧ t < gTaskMaxNum ∧ (k.status t).unused = false ∧ (r.1.gTaskCBArray t).priority = prio) ∨
      (∃ e ∈ [Errno.tskPriorError, .tskOperateIdle, .tskIdInvalid, .tskNotCreated], r = (k, e)) ∨
        r = (k, .tskOperateSwtmr) ∧ t = k.gSwtmrTaskID := by
  unfold losTaskPriSet at h
  by_cases hprio : osTaskPriorityLowest < prio
  · rw [if_pos hprio] at h
    cases h
    exact .inr (.inl ⟨_, by decide, rfl⟩)
  rw [if_neg hprio] at h
  split at h
  · cases h
    exact .inr (.inl ⟨_, by decide, rfl⟩)
  · split at h
    · next hswtmr =>
      cases h
      exact .inr (.inr ⟨rfl, hswtmr⟩)
    · split at h
      · cases h
        exact .inr (.inl ⟨_, by decide, rfl⟩)
      · next ht =>
        split at h
        · cases h
          exact .inr (.inl ⟨_, by decide, rfl⟩)
        · next hused =>
          obtain ⟨r₁, hmod, h⟩ := Option.bind_eq_some_iff.mp h
          have hlt : prio < 32 := by
            unfold osTaskPriorityLowest at hprio
            omega
          obtain ⟨k₁, V₁, b, heq, _, _, _, hset, _⟩ :=
            osSchedModifyTaskSchedParam_spec hi (Nat.not_le.mp ht) hlt
          rw [heq] at hmod
          cases hmod
          cases h
          refine .inl ⟨rfl, Nat.not_le.mp ht, Bool.eq_false_iff.mpr hused, ?_⟩
          dsimp only
          split
          · obtain ⟨c, hc⟩ := losSchedule_eq k₁
            rw [hc]
            exact hset
          · exact hset

end

/-! ### The calls as events of the kernel -/

section

variable {k k' : KernelState} {V : View Node} {t : Nat} {intActive : Bool}

omit [ThreadConfig] in
theorem onThread_cases {threadId : Option Nat} {taskCall : Nat → Option (KernelState × Errno)}
    {answer : Errno → OsStatus} {r : KernelState × OsStatus}
    (h : onThread k intActive threadId taskCall answer = some r) : (r.1 = k ∧ r.2 ≠ .osOK) ∨
      ∃ pstTaskCB r₁, threadId = some pstTaskCB ∧ taskCall (k.gTaskCBArray pstTaskCB).taskID = some r₁ ∧
        r = (r₁.1, answer r₁.2) := by
  unfold onThread at h
  split at h
  · cases h
    exact .inl ⟨rfl, fun h => by cases h⟩
  · split at h
    · cases h
      exact .inl ⟨rfl, fun h => by cases h⟩
    · obtain ⟨r₁, hcall, rfl⟩ := Option.map_eq_some_iff.mp h
      exact .inr ⟨_, r₁, rfl, hcall, rfl⟩

/-- An answer `osOK` that changes nothing is about the task of the timers. -/
theorem osThreadSetPriority_cases {threadId : Option Nat} {priority : Int} {r : KernelState × OsStatus}
    (hi : KernelInv k V) (h : osThreadSetPriority k intActive threadId priority = some r) :
    (r.1 = k ∧ (r.2 = .osOK → ∃ pstTaskCB, threadId = some pstTaskCB ∧
      (k.gTaskCBArray pstTaskCB).taskID = k.gSwtmrTaskID)) ∨
      ∃ pstTaskCB r₁, threadId = some pstTaskCB ∧ isvalidLosPriority (losPriority priority) = true ∧
        losTaskPriSet k (k.gTaskCBArray pstTaskCB).taskID (losPriority priority) = some r₁ ∧ r₁.2 = .losOk ∧
        r = (r₁.1, .osOK) := by
  unfold osThreadSetPriority at h
  split at h
  · cases h
    exact .inl ⟨rfl, fun h => by cases h⟩
  · split at h
    · cases h
      exact .inl ⟨rfl, fun h => by cases h⟩
    · next pstTaskCB =>
      dsimp only at h
      split at h
      · cases h
        exact .inl ⟨rfl, fun h => by cases h⟩
      · next hvalid =>
        obtain ⟨r₁, hcall, rfl⟩ := Option.map_eq_some_iff.mp h
        rcases losTaskPriSet_answers hi hcall with ⟨hok, _⟩ | ⟨e, he, rfl⟩ | ⟨rfl, hswtmr⟩
        · refine .inr ⟨pstTaskCB, r₁, rfl, by simpa using hvalid, hcall, hok, ?_⟩
          rw [hok]
        · refine .inl ⟨rfl, fun hok => ?_⟩
          simp only [List.mem_cons, List.not_mem_nil, or_false] at he
          rcases he with rfl | rfl | rfl | rfl <;> cases hok
        · exact .inl ⟨rfl, fun _ => ⟨pstTaskCB, rfl, hswtmr⟩⟩

theorem osThreadNew_cases {func : Option Nat} {attr : Option OsThreadAttr} {topOfStack : Bool}
    {r : KernelState × Option Nat} (h : osThreadNew k intActive func attr topOfStack = some r) :
    r = (k, none) ∨ ∃ param r₁, losTaskCreate k true param topOfStack = some r₁ ∧ r.1 = r₁.1 ∧
      (r.2 = none ∨ r.2 = r₁.2.2) := by
  unfold osThreadNew at h
  split at h
  · cases h
    exact .inl rfl
  · split at h
    · cases h
      exact .inl rfl
    · dsimp only at h
      split at h
      · cases h
        exact .inl rfl
      · obtain ⟨r₁, hcreate, rfl⟩ := Option.map_eq_some_iff.mp h
        refine .inr ⟨_, r₁, hcreate, ?_⟩
        split
        · exact ⟨rfl, .inl rfl⟩
        · exact ⟨rfl, .inr rfl⟩

/-- The call neither resumes nor terminates the task. -/
def ThreadCall.spares (k : KernelState) (t : Nat) : ThreadCall → Prop
  | .resume (some pstTaskCB) => t ≠ (k.gTaskCBArray pstTaskCB).taskID
  | .terminate (some pstTaskCB) => t ≠ (k.gTaskCBArray pstTaskCB).taskID
  | _ => True

theorem threadCall_kernelStep {call : ThreadCall} {r : KernelState × ThreadReturn} (hi : KernelInv k V)
    (h : threadCall k intActive call = some r) : r.1 = k ∨ ∃ event, kernelStep k event = some r.1 ∧
      ((k.atWork → t ≠ (k.gTaskCBArray k.runTask).taskID) → call.spares k t →
        (WaitEvent.kernel event).spares t) := by
  cases call with
  | new func attr topOfStack =>
    obtain ⟨r₁, hcall, rfl⟩ := Option.map_eq_some_iff.mp h
    rcases osThreadNew_cases hcall with rfl | ⟨param, r₂, hcreate, heq, _⟩
    · exact .inl rfl
    · refine .inr ⟨.create true param topOfStack, ?_, fun _ _ => trivial⟩
      simp only [kernelStep, hcreate, Option.map_some, heq]
  | setPriority threadId priority =>
    obtain ⟨r₁, hcall, rfl⟩ := Option.map_eq_some_iff.mp h
    rcases osThreadSetPriority_cases hi hcall with ⟨hsame, _⟩ | ⟨pstTaskCB, r₂, _, _, hset, _, rfl⟩
    · exact .inl hsame
    · refine .inr ⟨.priSet (k.gTaskCBArray pstTaskCB).taskID (losPriority priority), ?_, fun _ _ => trivial⟩
      simp only [kernelStep, hset, Option.map_some]
  | yield =>
    simp only [threadCall] at h
    split at h
    · next hwork =>
      cases h
      cases intActive with
      | true => exact .inl rfl
      | false =>
        refine .inr ⟨.yield, ?_, fun _ _ => trivial⟩
        simp only [kernelStep]
        rw [if_pos (by simpa using hwork)]
        rfl
    · cases h
  | suspend threadId =>
    obtain ⟨r₁, hcall, rfl⟩ := Option.map_eq_some_iff.mp h
    rcases onThread_cases hcall with ⟨hsame, _⟩ | ⟨pstTaskCB, r₂, _, hsuspend, rfl⟩
    · exact .inl hsame
    · refine .inr ⟨.suspend (k.gTaskCBArray pstTaskCB).taskID, ?_, fun _ _ => trivial⟩
      simp only [kernelStep, hsuspend, Option.map_some]
  | resume threadId =>
    obtain ⟨r₁, hcall, rfl⟩ := Option.map_eq_some_iff.mp h
    rcases onThread_cases hcall with ⟨hsame, _⟩ | ⟨pstTaskCB, r₂, rfl, hresume, rfl⟩
    · exact .inl hsame
    · refine .inr ⟨.resume (k.gTaskCBArray pstTaskCB).taskID, ?_, fun _ hspares => hspares⟩
      simp only [kernelStep, hresume, Option.map_some]
  | terminate threadId =>
    obtain ⟨r₁, hcall, rfl⟩ := Option.map_eq_some_iff.mp h
    rcases onThread_cases hcall with ⟨hsame, _⟩ | ⟨pstTaskCB, r₂, rfl, hdelete, rfl⟩
    · exact .inl hsame
    · refine .inr ⟨.delete (k.gTaskCBArray pstTaskCB).taskID, ?_, fun _ hspares => hspares⟩
      simp only [kernelStep, hdelete, Option.map_some]
  | exit =>
    simp only [threadCall] at h
    split at h
    · next hwork =>
      obtain ⟨k₁, hexit, rfl⟩ := Option.map_eq_some_iff.mp h
      have hrun : k.atWork = true := (Bool.and_eq_true_iff.mp hwork).2
      obtain ⟨r₂, hdelete, rfl⟩ := Option.map_eq_some_iff.mp hexit
      refine .inr ⟨.delete (k.gTaskCBArray k.runTask).taskID, ?_, fun hother _ => hother hrun⟩
      simp only [kernelStep, hdelete, Option.map_some]
    · cases h

end

/-! ### Between whole steps -/

section

variable {s s' : WaitState} {k : KernelState} {V : View Node} {t : Nat}

omit [ThreadConfig] in
theorem takeSwitch_switched [Config] (hi : WaitInv s V) (hk : takeSwitch s.kernel = some k) :
    ∃ V', WaitInv { s with kernel := k } V' ∧ k.pendSV = false ∧ k.gIdleTaskID = s.kernel.gIdleTaskID ∧
      k.gSwtmrTaskID = s.kernel.gSwtmrTaskID ∧
      ∀ u, SameWait (s.kernel.status u) (k.status u) ∧
        (k.gTaskCBArray u).priority = (s.kernel.gTaskCBArray u).priority := by
  obtain ⟨V', hi', hp'⟩ := takeSwitch_inv hi hk
  refine ⟨V', hi', hp', ?_⟩
  unfold takeSwitch at hk
  split at hk
  · next hp =>
    have hsched := hi.machine.settled.request hp
    by_cases hready : s.kernel.runTask < gTaskMaxNum →
        (s.kernel.gTaskCBArray s.kernel.runTask).taskStatus.ready = false
    · obtain ⟨k₁, V₁, heq, _, hswitched, _⟩ := halPendSV_spec hi.machine.inv hsched hready
      rw [heq, Option.some.injEq] at hk
      subst hk
      exact ⟨hswitched.gIdleTaskID, hswitched.gSwtmrTaskID, fun u => ⟨hswitched.status u, hswitched.priority u⟩⟩
    · obtain ⟨hlt, hr⟩ := Classical.not_imp.mp hready
      rw [halPendSV_ready hi.machine.inv hlt (by simpa using hr)] at hk
      cases hk
  · cases hk
    exact ⟨rfl, rfl, fun u => ⟨SameWait.refl _, rfl⟩⟩

/-- A step has been made and the switch that it asked for has been taken. -/
def AtRest (s : WaitState) : Prop := ∃ V, WaitInv s V ∧ s.kernel.pendSV = false

theorem threadStep_inv {event : ThreadEvent} (hi : WaitInv s V) (h : threadStep s event = some s') :
    ∃ V', WaitInv s' V' := by
  cases event with
  | call intActive call =>
    obtain ⟨r, hcall, rfl⟩ := Option.map_eq_some_iff.mp h
    rcases threadCall_kernelStep (t := 0) hi.machine.inv hcall with hsame | ⟨event, hstep, _⟩
    · rw [hsame]
      exact ⟨V, hi⟩
    · have hwait : waitStep s (.kernel event) = some { s with kernel := r.1 } := by
        simp only [waitStep, hstep, Option.map_some]
      exact waitStep_inv hi hwait
  | other event => exact waitStep_inv hi h

theorem WholeThreadStep.atRest {event : ThreadEvent} (h : AtRest s) (hstep : WholeThreadStep s event s') :
    AtRest s' := by
  obtain ⟨V, hi, _⟩ := h
  obtain ⟨s₁, k', hthread, hswitch, rfl⟩ := hstep
  obtain ⟨V₁, hi₁⟩ := threadStep_inv hi hthread
  exact takeSwitch_inv hi₁ hswitch

theorem wholeThreadStep_atRest {s₀ : WaitState} {events : List ThreadEvent} (hmax : gTaskMaxNum ≤ osInvalid)
    (hb : WaitBooted s₀) (hrun : Run WholeThreadStep s₀ events s) : AtRest s := by
  refine run_invariant AtRest (fun s event s' h hstep => hstep.atRest h) hrun ?_
  obtain ⟨V, hi⟩ := waitBooted_inv hmax hb
  obtain ⟨_, _, _, hsched, _⟩ := booted_machine hmax hb.1
  refine ⟨V, hi, ?_⟩
  cases hp : s₀.kernel.pendSV with
  | false => rfl
  | true => exact absurd (hi.machine.settled.request hp) (by simp [hsched])

end

/-! ### Where the threads are -/

section

variable {s s' : WaitState} {k k' : KernelState} {V V' : View Node} {t : Nat}

omit [ThreadConfig] in
/-- With at most one of the bits that exclude each other, and a suspended thread that neither runs nor is
ready, the first bit that `osThreadGetState` finds is the only one that counts. -/
theorem flags_exclusive : ∀ unused running ready pend delay suspend : Bool,
    [unused, running, ready, pend, delay].count true ≤ 1 →
    (suspend = true → unused = false ∧ running = false ∧ ready = false) →
    (running = true → ready = false ∧ (delay || pend || suspend) = false ∧ unused = false) ∧
      (ready = true → running = false ∧ (delay || pend || suspend) = false ∧ unused = false) ∧
      ((delay || pend || suspend) = true → running = false ∧ ready = false ∧ unused = false) := by
  decide

/-- The status of a thread at rest. -/
structure StatusOk (status : TaskStatus) : Prop where
  running : status.running = true → status.ready = false ∧
    (status.delay || status.pend || status.suspend) = false ∧ status.unused = false
  ready : status.ready = true → status.running = false ∧
    (status.delay || status.pend || status.suspend) = false ∧ status.unused = false
  blocked : (status.delay || status.pend || status.suspend) = true → status.running = false ∧
    status.ready = false ∧ status.unused = false
  some : status.running = true ∨ status.ready = true ∨ (status.delay || status.pend || status.suspend) = true ∨
    status.unused = true

theorem statusOk_of_machine (hm : Machine k V) (hp : k.pendSV = false) (ht : t < gTaskMaxNum) :
    StatusOk (k.status t) := by
  have ho := hm.inv.task t ht
  have hplace := (hm.placesRight hp).place t ht
  have hsuspend : (k.status t).suspend = true →
      (k.status t).unused = false ∧ (k.status t).running = false ∧ (k.status t).ready = false := by
    intro hs
    refine ⟨?_, ?_, ?_⟩
    · refine Bool.eq_false_iff.mpr fun hu => ?_
      exact Bool.false_ne_true ((ho.flags.unused hu).2.1.symm.trans hs)
    · refine Bool.eq_false_iff.mpr fun hr => ?_
      have hrun := ho.running.mp hr
      cases hsched : k.gTaskScheduled with
      | true =>
        have hclean := (hm.settled.run hsched hp).2.suspend
        rw [← hrun] at hclean
        exact Bool.false_ne_true (hclean.symm.trans hs)
      | false => exact absurd (hrun.trans (hm.settled.boot hsched)) (Nat.ne_of_lt ht)
    · refine Bool.eq_false_iff.mpr fun hr => ?_
      exact Bool.false_ne_true ((ho.flags.ready hr).1.symm.trans hs)
  obtain ⟨hrunning, hready, hblocked⟩ := flags_exclusive _ _ _ _ _ _ hplace.one hsuspend
  refine ⟨hrunning, hready, hblocked, ?_⟩
  have hsome := ho.flags.some
  simp only [Bool.or_eq_true]
  unfold KernelState.status
  tauto

omit [ThreadConfig] in
theorem osThreadGetState_iff (h : StatusOk (k.status t)) :
    (osThreadGetState k false (some t) = .osThreadRunning ↔ (k.status t).running = true) ∧
      (osThreadGetState k false (some t) = .osThreadReady ↔ (k.status t).ready = true) ∧
      (osThreadGetState k false (some t) = .osThreadBlocked ↔
        ((k.status t).delay || (k.status t).pend || (k.status t).suspend) = true) ∧
      (osThreadGetState k false (some t) = .osThreadInactive ↔ (k.status t).unused = true) ∧
      osThreadGetState k false (some t) ≠ .osThreadError := by
  obtain ⟨hrunning, hready, hblocked, hsome⟩ := h
  unfold osThreadGetState
  rw [if_neg Bool.false_ne_true]
  dsimp only
  split
  · next hr =>
    obtain ⟨h₁, h₂, h₃⟩ := hrunning hr
    simp [hr, h₁, h₃, h₂]
  · next hr =>
    split
    · next hq =>
      obtain ⟨h₁, h₂, h₃⟩ := hready hq
      simp [hq, h₁, h₂, h₃]
    · next hq =>
      split
      · next hb =>
        obtain ⟨h₁, h₂, h₃⟩ := hblocked hb
        simp [hb, h₁, h₂, h₃]
      · next hb =>
        have hu := (hsome.resolve_left hr).resolve_left hq |>.resolve_left hb
        rw [if_pos hu]
        simp [hr, hq, hb, hu]

end

/-- What `osThreadGetState` says of a thread, against the lists that its control block is on. -/
structure StateRight (k : KernelState) (V : View Node) (t : Nat) : Prop where
  inactive : osThreadGetState k false (some t) = .osThreadInactive ↔
    V.role (.pendList t) = .member .gLosFreeTask ∨ V.role (.pendList t) = .member .gTaskRecyleList
  ready : t ≠ k.gIdleTaskID → (osThreadGetState k false (some t) = .osThreadReady ↔
    V.role (.pendList t) = .member (.gPriQueueList (k.gTaskCBArray t).priority))
  blocked : osThreadGetState k false (some t) = .osThreadBlocked ↔ Suspended k t ∨
    (∃ l, V.role (.pendList t) = .member (.wait l)) ∨ V.role (.sortLinkNode t) = .member .gTaskSortLink
  known : osThreadGetState k false (some t) ≠ .osThreadError

section

variable {s s' : WaitState} {k k' : KernelState} {V V' : View Node} {t : Nat}

theorem stateRight_of_machine (hm : Machine k V) (hp : k.pendSV = false) (ht : t < gTaskMaxNum) :
    StateRight k V t := by
  have ho := hm.inv.task t ht
  have hplace := (hm.placesRight hp).place t ht
  obtain ⟨_, hready, hblocked, hinactive, hknown⟩ := osThreadGetState_iff (statusOk_of_machine hm hp ht)
  refine ⟨hinactive.trans ⟨hplace.unused, ho.of_free⟩, fun hidle => hready.trans ⟨fun h => hplace.ready h hidle,
    fun hrole => ?_⟩, hblocked.trans ⟨fun h => ?_, fun h => ?_⟩, hknown⟩
  · by_contra hno
    have hunused : (k.status t).unused = false := Bool.eq_false_iff.mpr fun hu => by
      rcases hplace.unused hu with h | h <;> rw [hrole] at h <;> cases h
    have hpend : (k.status t).pend = false := Bool.eq_false_iff.mpr fun hw => by
      obtain ⟨l, h⟩ := hplace.pend hw
      rw [hrole] at h
      cases h
    have h := hplace.none hunused (fun hr => absurd hr hno) hpend
    rw [hrole] at h
    cases h
  · simp only [Bool.or_eq_true] at h
    rcases h with (hdelay | hpend) | hsuspend
    · exact .inr (.inr (hplace.timed (.inl hdelay)))
    · exact .inr (.inl (hplace.pend hpend))
    · exact .inl hsuspend
  · simp only [Bool.or_eq_true]
    rcases h with hsuspend | ⟨l, hwait⟩ | hsort
    · exact .inr hsuspend
    · exact .inl (.inr (hm.inv.pend_of_wait ht hwait))
    · by_contra hno
      have hloose := hplace.untimed fun htimed => hno (.inl (htimed.imp_right ho.flags.pendTime))
      rw [hsort] at hloose
      cases hloose

theorem unusedNodes_perm (hi : KernelInv k V) : (V.content .gLosFreeTask ++ V.content .gTaskRecyleList).Perm
    (((List.range gTaskMaxNum).filter fun t => (k.status t).unused).map .pendList) := by
  have hf := hi.core.ready.forest
  refine (List.perm_ext_iff_of_nodup ?_ ?_).mpr fun x => ?_
  · refine List.nodup_append.mpr ⟨hf.nodup _, hf.nodup _, fun a ha b hb hab => ?_⟩
    rw [hf.mem] at ha hb
    rw [hab, hb] at ha
    cases ha
  · exact (List.nodup_range.filter _).map fun a b hab => by injection hab
  · rw [List.mem_append, hf.mem, hf.mem, List.mem_map]
    constructor
    · intro hrole
      obtain ⟨t, rfl, ht⟩ : ∃ t, x = .pendList t ∧ t < gTaskMaxNum := by
        rcases hrole with h | h <;> have hfit := hi.core.fits _ _ h <;> cases x <;>
          first
            | exact ⟨_, rfl, hfit.1⟩
            | simp [Fits] at hfit
      exact ⟨t, List.mem_filter.mpr ⟨List.mem_range.mpr ht, (hi.task t ht).of_free hrole⟩, rfl⟩
    · rintro ⟨t, hmem, rfl⟩
      obtain ⟨ht, hunused⟩ := List.mem_filter.mp hmem
      exact (hi.task t (List.mem_range.mp ht)).free hunused

theorem osThreadGetCount_lists (hi : KernelInv k V) : osThreadGetCount k false +
    (V.content .gLosFreeTask).length + (V.content .gTaskRecyleList).length = gTaskMaxNum := by
  have hlen := (unusedNodes_perm hi).length_eq
  have hall := List.length_eq_countP_add_countP (fun t => !(k.status t).unused) (l := List.range gTaskMaxNum)
  rw [List.length_append, List.length_map, ← List.countP_eq_length_filter] at hlen
  have hneg : (List.range gTaskMaxNum).countP (fun t => decide ¬(!(k.status t).unused) = true) =
      (List.range gTaskMaxNum).countP fun t => (k.status t).unused :=
    List.countP_congr fun t _ => by simp
  rw [hneg, List.length_range, ← hlen] at hall
  unfold osThreadGetCount
  rw [if_neg Bool.false_ne_true]
  unfold countBelow
  unfold gTaskMaxNum at hall ⊢
  omega

end

/-! ### What the calls do -/

/-- The running thread makes the call, which gives `answer`, and the switch that it asks for is taken. -/
def Answers (s : WaitState) (call : ThreadCall) (answer : ThreadReturn) (s' : WaitState) : Prop :=
  ∃ k₁ k', threadCall s.kernel false call = some (k₁, answer) ∧ takeSwitch k₁ = some k' ∧
    s' = { s with kernel := k' }

section

variable {s s' : WaitState} {k k' : KernelState} {V V' : View Node} {t : Nat} {call : ThreadCall}
  {answer : ThreadReturn}

theorem Answers.switched (hi : WaitInv s V) (h : Answers s call answer s') :
    ∃ k₁ V', threadCall s.kernel false call = some (k₁, answer) ∧ Machine s'.kernel V' ∧
      s'.kernel.pendSV = false ∧ ∀ u, SameWait (k₁.status u) (s'.kernel.status u) ∧
        (s'.kernel.gTaskCBArray u).priority = (k₁.gTaskCBArray u).priority := by
  obtain ⟨k₁, k', hcall, hswitch, rfl⟩ := h
  have hthread : threadStep s (.call false call) = some { s with kernel := k₁ } := by
    show (threadCall s.kernel false call).map _ = _
    rw [hcall]
    rfl
  obtain ⟨V₁, hi₁⟩ := threadStep_inv hi hthread
  obtain ⟨V', hi', hp', _, _, hsame⟩ := takeSwitch_switched hi₁ hswitch
  exact ⟨k₁, V', hcall, hi'.machine, hp', hsame⟩

theorem osThreadGetCount_insert (ht : t < gTaskMaxNum) (hfree : (k.status t).unused = true)
    (hlive : (k'.status t).unused = false)
    (hother : ∀ u < gTaskMaxNum, u ≠ t → (k'.status u).unused = (k.status u).unused) :
    osThreadGetCount k' false = osThreadGetCount k false + 1 := by
  unfold osThreadGetCount
  rw [if_neg Bool.false_ne_true, if_neg Bool.false_ne_true]
  have hcongr : countBelow (Config.tskLimit + 1) (fun u => !(k'.status u).unused) =
      countBelow (Config.tskLimit + 1) fun u => if u = t then true else !(k.status u).unused := by
    refine countBelow_congr fun u hu => ?_
    by_cases hut : u = t
    · rw [if_pos hut, hut, hlive]
      rfl
    · rw [if_neg hut, hother u hu hut]
  rw [hcongr]
  exact countBelow_insert ht (by rw [hfree]; rfl) (if_pos rfl) fun u hut => if_neg hut

theorem osThreadSuspend_ok (hi : WaitInv s V) (ht : t < gTaskMaxNum)
    (h : Answers s (.suspend (some t)) (.status .osOK) s') : Suspended s'.kernel t := by
  obtain ⟨k₁, V', hcall, _, _, hsame⟩ := h.switched hi
  obtain ⟨r, hr, heq⟩ := Option.map_eq_some_iff.mp hcall
  injection heq with hk hanswer
  injection hanswer with hok
  rcases onThread_cases hr with ⟨_, hno⟩ | ⟨u, r₁, hu, hsuspend, rfl⟩
  · exact absurd hok hno
  · cases hu
    rw [(hi.machine.inv.task t ht).id] at hsuspend
    have hdone : r₁.2 = .losOk := by
      rcases losTaskSuspend_answers hsuspend with h | ⟨e, he, rfl⟩
      · exact h
      · simp only [List.mem_cons, List.not_mem_nil, or_false] at he
        rcases he with rfl | rfl | rfl | rfl | rfl | rfl <;> cases hok
    have hflag := (losTaskSuspend_suspended (t := t) hsuspend).2 hdone
    subst hk
    exact (hsame t).1.suspend.trans hflag

theorem osThreadTerminate_ok (hi : WaitInv s V) (ht : t < gTaskMaxNum)
    (h : Answers s (.terminate (some t)) (.status .osOK) s') : (s.kernel.status t).unused = false ∧
      (s'.kernel.status t).unused = true ∧
      ∀ u < gTaskMaxNum, u ≠ t → (s'.kernel.status u).unused = (s.kernel.status u).unused := by
  obtain ⟨k₁, V', hcall, _, _, hsame⟩ := h.switched hi
  obtain ⟨r, hr, heq⟩ := Option.map_eq_some_iff.mp hcall
  injection heq with hk hanswer
  injection hanswer with hok
  rcases onThread_cases hr with ⟨_, hno⟩ | ⟨u, r₁, hu, hdelete, rfl⟩
  · exact absurd hok hno
  · cases hu
    rw [(hi.machine.inv.task t ht).id] at hdelete
    subst hk
    rcases losTaskDelete_answers hdelete with ⟨_, hlive, hgone⟩ | ⟨e, he, rfl⟩
    · obtain ⟨k₂, V₂, e, heq, _, hquiet, _⟩ := losTaskDelete_spec hi.machine.inv t
      rw [heq] at hdelete
      cases hdelete
      exact ⟨hlive, (hsame t).1.unused.trans (hgone ht), fun u hu hut =>
        (hsame u).1.unused.trans (hquiet.kept u hu hut).unused⟩
    · simp only [List.mem_cons, List.not_mem_nil, or_false] at he
      rcases he with rfl | rfl | rfl | rfl <;> cases hok

theorem osThreadNew_some {func : Option Nat} {attr : Option OsThreadAttr} {topOfStack : Bool} (hi : WaitInv s V)
    (h : Answers s (.new func attr topOfStack) (.thread (some t)) s') : t < gTaskMaxNum ∧
      (s.kernel.status t).unused = true ∧ (s'.kernel.status t).unused = false ∧
      ∀ u < gTaskMaxNum, u ≠ t → (s'.kernel.status u).unused = (s.kernel.status u).unused := by
  obtain ⟨k₁, V', hcall, _, _, hsame⟩ := h.switched hi
  obtain ⟨r, hr, heq⟩ := Option.map_eq_some_iff.mp hcall
  injection heq with hk hanswer
  injection hanswer with hnew
  rcases osThreadNew_cases hr with rfl | ⟨param, r₁, hcreate, hstate, hid⟩
  · cases hnew
  · obtain ⟨k₂, V₂, e, o, heq, _, _, _, ho⟩ := losTaskCreate_spec hi.machine.inv true param topOfStack
    rw [heq] at hcreate
    cases hcreate
    subst hk
    rw [hstate] at hsame
    rcases hid with hid | hid
    · rw [hnew] at hid
      cases hid
    rcases ho with ⟨rfl, _⟩ | ⟨u, rfl, hquiet, hmade⟩
    · rw [hnew] at hid
      cases hid
    · rw [hnew] at hid
      cases hid
      exact ⟨hmade.bound, hmade.unused, (hsame t).1.unused.trans hmade.live, fun u hu hut =>
        (hsame u).1.unused.trans (hquiet.kept u hu hut).unused⟩

theorem cmsisPriority_losPriority {priority : Int} (hlow : 0 ≤ priority) (hhigh : priority ≤ osPriorityISR)
    (hvalid : isvalidLosPriority (losPriority priority) = true) :
    cmsisPriority (losPriority priority) = priority := by
  have hdefault := ThreadConfig.tskDefaultPrio_le
  obtain ⟨hpos, hsmall⟩ := Bool.and_eq_true_iff.mp hvalid
  have hpos := of_decide_eq_true hpos
  have hsmall := of_decide_eq_true hsmall
  unfold cmsisPriority
  unfold losPriority at hpos hsmall ⊢
  unfold osPriorityISR at hhigh
  unfold osPriorityNormal at hpos hsmall ⊢
  unfold osTaskPriorityLowest at hdefault hsmall
  omega

theorem osThreadSetPriority_ok {priority : Int} (hi : WaitInv s V) (ht : t < gTaskMaxNum)
    (hswtmr : t ≠ s.kernel.gSwtmrTaskID) (hlow : 0 ≤ priority) (hhigh : priority ≤ osPriorityISR)
    (h : Answers s (.setPriority (some t) priority) (.status .osOK) s') :
    osThreadGetPriority s'.kernel false (some t) = priority := by
  obtain ⟨k₁, V', hcall, hm', _, hsame⟩ := h.switched hi
  obtain ⟨r, hr, heq⟩ := Option.map_eq_some_iff.mp hcall
  injection heq with hk hanswer
  injection hanswer with hok
  subst hk
  rcases osThreadSetPriority_cases hi.machine.inv hr with ⟨_, hno⟩ | ⟨u, r₁, hu, hvalid, hset, hdone, rfl⟩
  · obtain ⟨u, hu, hid⟩ := hno hok
    cases hu
    rw [(hi.machine.inv.task t ht).id] at hid
    exact absurd hid hswtmr
  · cases hu
    rw [(hi.machine.inv.task t ht).id] at hset
    obtain ⟨k₂, V₂, e, heq, _, _, _, _, hstatus, _⟩ :=
      losTaskPriSet_spec hi.machine.inv t (losPriority priority)
    rw [heq] at hset
    cases hset
    rcases losTaskPriSet_answers hi.machine.inv heq with ⟨_, _, hlive, hprio⟩ | ⟨e, he, hr⟩ | ⟨hr, _⟩
    · have hlive' : (s'.kernel.status t).unused = false := by
        refine (hsame t).1.unused.trans ?_
        show (k₂.gTaskCBArray t).taskStatus.unused = false
        rw [hstatus]
        exact hlive
      have hprio' : (s'.kernel.gTaskCBArray t).priority = losPriority priority := (hsame t).2.trans hprio
      have hsmall : losPriority priority < 31 := by
        unfold isvalidLosPriority at hvalid
        exact of_decide_eq_true (Bool.and_eq_true_iff.mp hvalid).2
      unfold osThreadGetPriority losTaskPriGet
      rw [if_neg Bool.false_ne_true]
      dsimp only
      have hget : (if (s'.kernel.status t).unused then osInvalid % 65536 else (s'.kernel.gTaskCBArray t).priority) =
          losPriority priority := by
        rw [hlive', hprio', if_neg Bool.false_ne_true]
      rw [(hm'.inv.task t ht).id, if_neg (Nat.not_le.mpr ht), hget, if_neg (by unfold osInvalid; omega)]
      exact cmsisPriority_losPriority hlow hhigh hvalid
    · cases hr
      rw [show e = .losOk from hdone] at he
      simp at he
    · cases hr
      cases hdone

omit [ThreadConfig] in
theorem losTaskResume_resumed [Config] {r : KernelState × Errno} (h : losTaskResume k t = some r)
    (hok : r.2 = .losOk) : (r.1.status t).suspend = false := by
  unfold losTaskResume at h
  split at h
  · cases h
    cases hok
  · split at h
    · cases h
      cases hok
    · split at h
      · cases h
        cases hok
      · have hclear : ∀ k₁ : KernelState, ∀ f : TaskStatus → TaskStatus, (∀ s, (f s).suspend = false) →
            ((k₁.modifyStatus t f).status t).suspend = false := by
          intro k₁ f hf
          show (Function.update k₁.gTaskCBArray t _ t).taskStatus.suspend = false
          rw [Function.update_self]
          exact hf _
        dsimp only at h
        split at h
        · obtain ⟨k₂, henq, h⟩ := Option.bind_eq_some_iff.mp h
          cases h
          have h₂ : (k₂.status t).suspend = false := by
            unfold osSchedTaskEnQueue at henq
            dsimp only at henq
            split at henq
            · cases henq
            · cases henq
              exact hclear _ (fun s => { s with
                pend := false, suspend := false, delay := false, pendTime := false, ready := true }) fun _ => rfl
          dsimp only
          split
          · obtain ⟨b, hb⟩ := losSchedule_eq k₂
            rw [hb]
            exact h₂
          · exact h₂
        · cases h
          exact hclear k (fun s => { s with suspend := false }) fun _ => rfl

theorem osThreadResume_ok (hi : WaitInv s V) (ht : t < gTaskMaxNum)
    (h : Answers s (.resume (some t)) (.status .osOK) s') : Suspended s.kernel t ∧ ¬Suspended s'.kernel t := by
  obtain ⟨k₁, V', hcall, _, _, hsame⟩ := h.switched hi
  obtain ⟨r, hr, heq⟩ := Option.map_eq_some_iff.mp hcall
  injection heq with hk hanswer
  injection hanswer with hok
  subst hk
  rcases onThread_cases hr with ⟨_, hno⟩ | ⟨u, r₁, hu, hresume, rfl⟩
  · exact absurd hok hno
  · cases hu
    rw [(hi.machine.inv.task t ht).id] at hresume
    rcases losTaskResume_answers hresume with ⟨hdone, hwas⟩ | ⟨e, he, rfl⟩
    · refine ⟨hwas, fun hsuspended => ?_⟩
      exact Bool.false_ne_true ((losTaskResume_resumed hresume hdone).symm.trans
        ((hsame t).1.suspend.symm.trans hsuspended))
    · simp only [List.mem_cons, List.not_mem_nil, or_false] at he
      rcases he with rfl | rfl | rfl <;> cases hok

theorem Answers.refused {status : OsStatus} (hi : WaitInv s V) (hp : s.kernel.pendSV = false)
    (h : Answers s call (.status status) s') (hno : status ≠ .osOK) : s' = s := by
  obtain ⟨k₁, k', hcall, hswitch, rfl⟩ := h
  have hsame : k₁ = s.kernel := by
    cases call with
    | new func attr topOfStack =>
      obtain ⟨r, _, heq⟩ := Option.map_eq_some_iff.mp hcall
      cases heq
    | setPriority threadId priority =>
      obtain ⟨r, hr, heq⟩ := Option.map_eq_some_iff.mp hcall
      cases heq
      rcases osThreadSetPriority_cases hi.machine.inv hr with ⟨hsame, _⟩ | ⟨u, r₁, _, _, _, _, rfl⟩
      · exact hsame
      · exact absurd rfl hno
    | yield =>
      simp only [threadCall] at hcall
      split at hcall
      · cases hcall
        exact absurd rfl hno
      · cases hcall
    | suspend threadId =>
      obtain ⟨r, hr, heq⟩ := Option.map_eq_some_iff.mp hcall
      cases heq
      rcases onThread_cases hr with ⟨hsame, _⟩ | ⟨u, r₁, _, hsuspend, rfl⟩
      · exact hsame
      · rcases losTaskSuspend_answers hsuspend with hdone | ⟨e, _, rfl⟩
        · rw [hdone] at hno
          exact absurd rfl hno
        · rfl
    | resume threadId =>
      obtain ⟨r, hr, heq⟩ := Option.map_eq_some_iff.mp hcall
      cases heq
      rcases onThread_cases hr with ⟨hsame, _⟩ | ⟨u, r₁, _, hresume, rfl⟩
      · exact hsame
      · rcases losTaskResume_answers hresume with ⟨hdone, _⟩ | ⟨e, _, rfl⟩
        · rw [hdone] at hno
          exact absurd rfl hno
        · rfl
    | terminate threadId =>
      obtain ⟨r, hr, heq⟩ := Option.map_eq_some_iff.mp hcall
      cases heq
      rcases onThread_cases hr with ⟨hsame, _⟩ | ⟨u, r₁, _, hdelete, rfl⟩
      · exact hsame
      · rcases losTaskDelete_answers hdelete with ⟨hdone, _⟩ | ⟨e, _, rfl⟩
        · rw [hdone] at hno
          exact absurd rfl hno
        · rfl
    | exit =>
      simp only [threadCall] at hcall
      split at hcall
      · obtain ⟨k₂, _, heq⟩ := Option.map_eq_some_iff.mp hcall
        cases heq
      · cases hcall
  subst hsame
  unfold takeSwitch at hswitch
  rw [if_neg (by rw [hp]; exact Bool.false_ne_true)] at hswitch
  cases hswitch
  rfl

end

/-! ### The runs -/

/-- The states of the threads, and what the calls on them do. -/
structure ThreadsRight (s : WaitState) : Prop where
  places : ∃ V, Forest s.kernel.links V ∧ (∀ t < gTaskMaxNum, StateRight s.kernel V t) ∧
    osThreadGetCount s.kernel false + (V.content .gLosFreeTask).length + (V.content .gTaskRecyleList).length =
      gTaskMaxNum
  running : s.kernel.gTaskScheduled = true → ∀ t < gTaskMaxNum,
    (osThreadGetState s.kernel false (some t) = .osThreadRunning ↔ osThreadGetId s.kernel false = some t)
  created : ∀ func attr topOfStack t s', Answers s (.new func attr topOfStack) (.thread (some t)) s' →
    osThreadGetState s.kernel false (some t) = .osThreadInactive ∧
      osThreadGetState s'.kernel false (some t) ≠ .osThreadInactive ∧
      osThreadGetCount s'.kernel false = osThreadGetCount s.kernel false + 1
  terminated : ∀ t < gTaskMaxNum, ∀ s', Answers s (.terminate (some t)) (.status .osOK) s' →
    osThreadGetState s'.kernel false (some t) = .osThreadInactive ∧
      osThreadGetCount s.kernel false = osThreadGetCount s'.kernel false + 1
  suspended : ∀ t < gTaskMaxNum, ∀ s', Answers s (.suspend (some t)) (.status .osOK) s' →
    osThreadGetState s'.kernel false (some t) = .osThreadBlocked
  resumed : ∀ t < gTaskMaxNum, ∀ s', Answers s (.resume (some t)) (.status .osOK) s' →
    osThreadGetState s.kernel false (some t) = .osThreadBlocked ∧ ¬Suspended s'.kernel t
  prioritised : ∀ t < gTaskMaxNum, ∀ priority s', t ≠ s.kernel.gSwtmrTaskID → 0 ≤ priority →
    priority ≤ osPriorityISR → Answers s (.setPriority (some t) priority) (.status .osOK) s' →
      osThreadGetPriority s'.kernel false (some t) = priority
  refused : ∀ call status s', Answers s call (.status status) s' → status ≠ .osOK → s' = s

section

variable {s s' : WaitState} {k : KernelState} {V : View Node} {t : Nat}

theorem Answers.atRest {call : ThreadCall} {answer : ThreadReturn} (h : AtRest s) (hcall : Answers s call answer s') :
    AtRest s' := by
  obtain ⟨k₁, k', hcall, hswitch, rfl⟩ := hcall
  have hthread : threadStep s (.call false call) = some { s with kernel := k₁ } := by
    show (threadCall s.kernel false call).map _ = _
    rw [hcall]
    rfl
  exact WholeThreadStep.atRest h ⟨{ s with kernel := k₁ }, k', hthread, hswitch, rfl⟩

theorem osThreadGetState_suspended (h : AtRest s) (ht : t < gTaskMaxNum) (hs : Suspended s.kernel t) :
    osThreadGetState s.kernel false (some t) = .osThreadBlocked := by
  obtain ⟨V, hi, hp⟩ := h
  refine (osThreadGetState_iff (statusOk_of_machine hi.machine hp ht)).2.2.1.mpr ?_
  rw [show (s.kernel.status t).suspend = true from hs, Bool.or_true]

theorem osThreadGetState_inactive (h : AtRest s) (ht : t < gTaskMaxNum) :
    osThreadGetState s.kernel false (some t) = .osThreadInactive ↔ (s.kernel.status t).unused = true := by
  obtain ⟨V, hi, hp⟩ := h
  exact (osThreadGetState_iff (statusOk_of_machine hi.machine hp ht)).2.2.2.1

theorem AtRest.threadsRight (h : AtRest s) : ThreadsRight s := by
  have hrest := h
  obtain ⟨V, hi, hp⟩ := h
  refine ⟨⟨V, hi.machine.inv.core.ready.forest, fun t ht => stateRight_of_machine hi.machine hp ht,
    osThreadGetCount_lists hi.machine.inv⟩, fun hsched t ht => ?_, fun func attr topOfStack t s' hcall => ?_,
    fun t ht s' hcall => ?_, fun t ht s' hcall => ?_, fun t ht s' hcall => ?_,
    fun t ht priority s' hswtmr hlow hhigh hcall => osThreadSetPriority_ok hi ht hswtmr hlow hhigh hcall,
    fun call status s' hcall hno => hcall.refused hi hp hno⟩
  · have hstate := (osThreadGetState_iff (statusOk_of_machine hi.machine hp ht)).1
    refine (hstate.trans (hi.machine.inv.task t ht).running).trans ⟨fun h => ?_, fun h => ?_⟩
    · rw [h]
      rfl
    · injection h with h
      exact h.symm
  · obtain ⟨ht, hfree, hlive, hother⟩ := osThreadNew_some hi hcall
    refine ⟨(osThreadGetState_inactive hrest ht).mpr hfree, fun h => ?_,
      osThreadGetCount_insert ht hfree hlive hother⟩
    exact Bool.false_ne_true (hlive.symm.trans ((osThreadGetState_inactive (hcall.atRest hrest) ht).mp h))
  · obtain ⟨hlive, hgone, hother⟩ := osThreadTerminate_ok hi ht hcall
    exact ⟨(osThreadGetState_inactive (hcall.atRest hrest) ht).mpr hgone,
      osThreadGetCount_insert ht hgone hlive fun u hu hut => (hother u hu hut).symm⟩
  · exact osThreadGetState_suspended (hcall.atRest hrest) ht (osThreadSuspend_ok hi ht hcall)
  · obtain ⟨hwas, hgone⟩ := osThreadResume_ok hi ht hcall
    exact ⟨osThreadGetState_suspended hrest ht hwas, hgone⟩

def threadNext (s : WaitState) (event : ThreadEvent) : Option WaitState :=
  (threadStep s event).bind fun s₁ => (takeSwitch s₁.kernel).map fun k => { s₁ with kernel := k }

theorem wholeThreadStep_of_next {event : ThreadEvent} (h : threadNext s event = some s') :
    WholeThreadStep s event s' := by
  obtain ⟨s₁, hthread, h⟩ := Option.bind_eq_some_iff.mp h
  obtain ⟨k, hswitch, rfl⟩ := Option.map_eq_some_iff.mp h
  exact ⟨s₁, k, hthread, hswitch, rfl⟩

omit [ThreadConfig] in
@[reducible]
def smallThreads : ThreadConfig where
  toConfig := smallConfig
  tskDefaultPrio := 10
  tskDefaultPrio_le := by decide

def startedEvents : List ThreadEvent := [.call false (.new (some 5) none true), .other (.kernel .start)]

/-- What `osThreadGetState` and `osThreadGetCount` say, and what the calls do, in every reachable state. -/
theorem osThread_right {s₀ : WaitState} {events : List ThreadEvent} (hmax : gTaskMaxNum ≤ osInvalid)
    (hb : WaitBooted s₀) (hrun : Run WholeThreadStep s₀ events s) : ThreadsRight s :=
  (wholeThreadStep_atRest hmax hb hrun).threadsRight

omit [ThreadConfig] in
theorem osThread_right_started :
    let _ := smallThreads
    ∃ s, Run WholeThreadStep smallWaits startedEvents s ∧
      osThreadGetState s.kernel false (some 1) = .osThreadRunning ∧ ThreadsRight s := by
  let := smallThreads
  have hrun : (startedEvents.foldlM threadNext smallWaits).map (fun s =>
      osThreadGetState s.kernel false (some 1)) = some .osThreadRunning := by decide +kernel
  obtain ⟨s, hs, hstate⟩ := Option.map_eq_some_iff.mp hrun
  have hsteps : Run WholeThreadStep smallWaits startedEvents s :=
    run_mono (fun _ _ _ => wholeThreadStep_of_next) (run_of_foldlM hs)
  exact ⟨s, hsteps, hstate, osThread_right (by decide) ⟨smallKernel_booted, fun _ => rfl⟩ hsteps⟩

/-- Nobody resumes or terminates the thread. -/
def ThreadEvent.spares (s : WaitState) (t : Nat) : ThreadEvent → Prop
  | .call _ c => c.spares s.kernel t
  | .other event => event.spares t

def SparingStep (t : Nat) (s : WaitState) (event : ThreadEvent) (s' : WaitState) : Prop :=
  WholeThreadStep s event s' ∧ event.spares s t

/-- A suspended thread is not the one that runs, so it cannot exit. -/
theorem sparingStep_suspended {event : ThreadEvent} (h : AtRest s) (ht : t < gTaskMaxNum)
    (hs : Suspended s.kernel t) (hstep : SparingStep t s event s') : Suspended s'.kernel t := by
  obtain ⟨V, hi, hp⟩ := h
  obtain ⟨⟨s₁, k', hthread, hswitch, rfl⟩, hspares⟩ := hstep
  refine takeSwitch_suspended ?_ hswitch
  cases event with
  | call intActive call =>
    obtain ⟨r, hcall, rfl⟩ := Option.map_eq_some_iff.mp hthread
    rcases threadCall_kernelStep (t := t) hi.machine.inv hcall with hsame | ⟨event, hstep, hevent⟩
    · rw [hsame]
      exact hs
    · refine kernelStep_suspended hi.machine.inv ht hs (hevent (fun hwork hid => ?_) hspares) hstep
      have hsched := (Bool.and_eq_true_iff.mp hwork).1
      obtain ⟨hrun, hclean⟩ := hi.machine.settled.run hsched hp
      rw [(hi.machine.inv.task _ hrun).id] at hid
      rw [← hid] at hclean
      exact Bool.false_ne_true (hclean.suspend.symm.trans hs)
  | other event => exact waitStep_suspended hi ht hs hspares hthread

/-- A thread that has been suspended is blocked until somebody resumes or terminates it, whatever else happens. -/
theorem osThreadSuspend_holds {s₀ s₁ : WaitState} {events later : List ThreadEvent}
    (hmax : gTaskMaxNum ≤ osInvalid) (hb : WaitBooted s₀) (hrun : Run WholeThreadStep s₀ events s) (ht : t < gTaskMaxNum)
    (hcall : Answers s (.suspend (some t)) (.status .osOK) s₁) (hlater : Run (SparingStep t) s₁ later s') :
    osThreadGetState s'.kernel false (some t) = .osThreadBlocked ∧
      (s'.kernel.gTaskScheduled = true → osThreadGetId s'.kernel false ≠ some t) := by
  have hrest := wholeThreadStep_atRest hmax hb hrun
  have hinv : ∃ V, WaitInv s V ∧ s.kernel.pendSV = false := hrest
  obtain ⟨V, hi, _⟩ := hinv
  have hinv : AtRest s' ∧ Suspended s'.kernel t := by
    refine run_invariant (fun s => AtRest s ∧ Suspended s.kernel t) (fun s event s' h hstep => ?_) hlater
      ⟨hcall.atRest hrest, osThreadSuspend_ok hi ht hcall⟩
    exact ⟨hstep.1.atRest h.1, sparingStep_suspended h.1 ht h.2 hstep⟩
  have hblocked := osThreadGetState_suspended hinv.1 ht hinv.2
  refine ⟨hblocked, fun hsched hid => ?_⟩
  rw [(hinv.1.threadsRight.running hsched t ht).mpr hid] at hblocked
  cases hblocked

omit [ThreadConfig] in
theorem osThreadSuspend_holds_started :
    let _ := smallThreads
    ∃ s s₁ s', Run WholeThreadStep smallWaits startedEvents s ∧
      Answers s (.suspend (some 1)) (.status .osOK) s₁ ∧ Run (SparingStep 1) s₁ [.other (.kernel (.tick true))] s' ∧
      osThreadGetState s'.kernel false (some 1) = .osThreadBlocked := by
  let := smallThreads
  have hrun : (startedEvents.foldlM threadNext smallWaits).bind (fun s =>
      (threadCall s.kernel false (.suspend (some 1))).bind fun r => (takeSwitch r.1).bind fun k =>
        (threadNext { s with kernel := k } (.other (.kernel (.tick true)))).map fun _ => r.2) =
      some (.status .osOK) := by decide +kernel
  obtain ⟨s, hs, hrun⟩ := Option.bind_eq_some_iff.mp hrun
  obtain ⟨r, hcall, hrun⟩ := Option.bind_eq_some_iff.mp hrun
  obtain ⟨k, hswitch, hrun⟩ := Option.bind_eq_some_iff.mp hrun
  obtain ⟨s', hnext, hanswer⟩ := Option.map_eq_some_iff.mp hrun
  have hsteps : Run WholeThreadStep smallWaits startedEvents s :=
    run_mono (fun _ _ _ => wholeThreadStep_of_next) (run_of_foldlM hs)
  have hanswers : Answers s (.suspend (some 1)) (.status .osOK) { s with kernel := k } :=
    ⟨r.1, k, by rw [← hanswer]; exact hcall, hswitch, rfl⟩
  have hlater : Run (SparingStep 1) { s with kernel := k } [.other (.kernel (.tick true))] s' :=
    run_single ⟨wholeThreadStep_of_next hnext, trivial⟩
  exact ⟨s, _, s', hsteps, hanswers, hlater, (osThreadSuspend_holds (by decide)
    ⟨smallKernel_booted, fun _ => rfl⟩ hsteps (by decide) hanswers hlater).1⟩

end

end LiteosM.Cmsis
