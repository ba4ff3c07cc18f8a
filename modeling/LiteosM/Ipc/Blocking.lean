import LiteosM.Ipc.EventWait
import LiteosM.Ipc.MuxCount
import LiteosM.Ipc.QueueSlots
import LiteosM.Ipc.SemCount

/-!
# The return from a blocking call

A call that waits registers its caller on a list and asks for a switch. With the scheduler locked no
switch comes, so a call has to refuse to wait before it registers anybody.
-/

namespace LiteosM.Ipc

open LiteosM.Kernel LiteosM.Lib.DlList LiteosM.Lib.Transition

/-- Task `t` is on no wait list, and its status says so. -/
structure Unregistered (k : KernelState) (inUse : WaitList → Prop) (t : Nat) : Prop where
  pend : (k.status t).pend = false
  pendTime : (k.status t).pendTime = false
  delay : (k.status t).delay = false
  lists : ∀ l, inUse l → ¬ OnList k.links (.wait l) (.pendList t)

variable [Config]

def SemState.inUse (s : SemState) (l : WaitList) : Prop :=
  ∃ m < Config.semLimit, l = .semList m ∧ (s.sem m).semStat = true

def MuxState.inUse (s : MuxState) (l : WaitList) : Prop :=
  ∃ m < Config.muxLimit, l = .muxList m ∧ (s.mux m).muxStat = true

omit [Config] in
def EventState.inUse (s : EventState) (l : WaitList) : Prop :=
  ∃ e, l = .stEventList e ∧ s.initialized e = true

def QueueState.inUse (s : QueueState) (l : WaitList) : Prop :=
  ∃ q < Config.queueLimit, (s.queue q).queueState = true ∧ (l = .memList q ∨ ∃ write, l = .readWriteList q write)

/-- A task that calls is on no list; `LOS_TaskDelay` refuses to wait with the scheduler locked, and otherwise
gives the processor away. -/
structure DelayReturns (s : WaitState) : Prop where
  executes : s.kernel.calling → Unregistered s.kernel (fun l => s.inUse l = true) s.kernel.runTask
  locked : ∀ tick k, kernelStep s.kernel (.delay tick) = some k → s.kernel.gLosTaskLock ≠ 0 → k = s.kernel
  delayed : ∀ tick k, kernelStep s.kernel (.delay tick) = some k → s.kernel.gLosTaskLock = 0 → tick ≠ 0 →
    k.calling = false

/-- What a step of `LOS_SemPend` comes to for its caller. -/
structure SemReturns (s : CountedSem) (event : SemEvent) (s' : SemState) (r : SemErrno) : Prop where
  blocked : r = .blocked → s'.kernel.calling = false
  returned : r ≠ .blocked → Unregistered s'.kernel s'.inUse s.kernel.runTask
  taken : ∀ m timeout, event = .pend false m timeout → r = .losOk → (s.sem m).semCount = (s'.sem m).semCount + 1
  granted : event = .resume → r = .losOk → s.granted s.kernel.runTask = true

/-- What a step of `LOS_MuxPend` comes to for its caller. -/
structure MuxReturns (s : CountedState) (event : MuxEvent) (s' : MuxState) (r : MuxErrno) : Prop where
  blocked : r = .blocked → s'.kernel.calling = false
  returned : r ≠ .blocked → Unregistered s'.kernel s'.inUse s.kernel.runTask
  taken : ∀ m timeout, event = .pend m timeout → r = .losOk → Holds s' m s.kernel.runTask
  granted : ∀ m, event = .resume → s.pending s.kernel.runTask = some m → r = .losOk → Holds s' m s.kernel.runTask

omit [Config] in
/-- The bits were set, and they are what the mode asks for. -/
structure EventsTaken (id eventMask mode bits id' : BitVec 32) : Prop where
  found : bits = id &&& eventMask
  all : mode &&& losWaitmodeOr = 0#32 → bits = eventMask
  cleared : mode &&& losWaitmodeClr ≠ 0#32 → id' = id &&& ~~~bits

/-- What a step of `LOS_EventRead` comes to for its caller. -/
structure EventReturns (s : EventState) (eventCB : Option Nat) (eventMask mode : BitVec 32) (s' : EventState)
    (r : EventRet) : Prop where
  blocked : r = .blocked → s'.kernel.calling = false
  returned : r ≠ .blocked → Unregistered s'.kernel s'.inUse s.kernel.runTask
  taken : ∀ bits, r = .value bits → bits ≠ 0#32 →
    ∃ e, eventCB = some e ∧ EventsTaken (s.uwEventID e) eventMask mode bits (s'.uwEventID e)

def QueueReturn.blocked : QueueReturn → Prop
  | .operate ret => ret.errno = .blocked
  | .mail ret => ret = .blocked
  | .errno _ => False

def QueueEvent.blocking (event : QueueEvent) : Prop :=
  match event.operate, event with
  | some c, _ => c.intActive = false
  | none, .mailAlloc intActive _ _ _ _ => intActive = false
  | none, .resume => True
  | none, _ => False

/-- A call that succeeds has made one buffer operation, on a message that is there or in a free cell. -/
structure SlotUsed (s : LoggedQueue) (event : QueueEvent) (s' : QueueState) (ret : OperateReturn)
    (call : QueueCall) : Prop where
  used : call.queueID < Config.queueLimit ∧ (s.queue call.queueID).queueState = true
  cells : ∃ cnt cnt' cb, osQueueBufferOperate { s.queue call.queueID with readWriteableCnt := cnt }
      call.operateType call.bufferAddr call.bufferSize = some (cb, ret.bufferAddr, ret.bufferSize) ∧
    s'.queue = Function.update s.queue call.queueID { cb with readWriteableCnt := cnt' }
  log : noteLog s event s' (.operate ret) =
    Function.update s.log call.queueID (s.log call.queueID ++ [opOf call ret])
  there : readOut (s.log call.queueID ++ [opOf call ret]) ≤ written (s.log call.queueID ++ [opOf call ret])
  room : written (s.log call.queueID ++ [opOf call ret]) ≤
    readOut (s.log call.queueID ++ [opOf call ret]) + (s.queue call.queueID).queueLen

/-- What a step of a call on a queue comes to for its caller. -/
structure QueueReturns (s : LoggedQueue) (event : QueueEvent) (s' : QueueState) (r : QueueReturn) : Prop where
  blocked : r.blocked → s'.kernel.calling = false
  returned : ¬ r.blocked → Unregistered s'.kernel s'.inUse s.kernel.runTask
  taken : ∀ ret call, r = .operate ret → s.operation event = some call → ret.errno = .losOk →
    SlotUsed s event s' ret call
  mail : ∀ b, r = .mail (.mem (some b)) → (∃ q timeOut, event = .mailAlloc false q true timeOut (some b)) ∨
    (event = .resume ∧ s.msg s.kernel.runTask = some b)

def MailHanded (s : QueueState) (event : QueueEvent) (s' : QueueState) : Prop :=
  ∀ t b, s'.msg t = some b → s.msg t = some b ∨
    ∃ q, event = .mailFree q true true (some b) ∧ OnList s.kernel.links (.wait (.memList q)) (.pendList t)

def SemEvent.pends : SemEvent → Prop
  | .pend intActive _ _ => intActive = false
  | .resume => True
  | _ => False

def MuxEvent.pends : MuxEvent → Prop
  | .pend _ _ => True
  | .resume => True
  | _ => False

section

variable {k : KernelState} {V : View Node} {inUse : WaitList → Prop} {t : Nat}

theorem unregistered_of_clean (hm : Machine k V) (ht : t < gTaskMaxNum)
    (hclean : Clean (k.gTaskCBArray t).taskStatus) (hhead : ∀ l, inUse l → V.role (.wait l) = .head) :
    Unregistered k inUse t := by
  refine ⟨hclean.pend, hclean.pendTime, hclean.delay, fun l hl hon => ?_⟩
  have hf := hm.inv.core.ready.forest
  have hpend := hm.inv.pend_of_wait ht ((hf.mem _ _).mp (hon.mem_content hf (hhead l hl)))
  rw [hclean.pend] at hpend
  cases hpend

theorem unregistered_caller (hm : Machine k V) (hcall : k.calling)
    (hhead : ∀ l, inUse l → V.role (.wait l) = .head) : Unregistered k inUse k.runTask := by
  have hcaller := hm.calling_caller hcall
  exact unregistered_of_clean hm hcaller.bound hcaller.clean hhead

end

section

variable {s : CountedSem} {s' : SemState} {V : View Node} {event : SemEvent} {r : SemErrno} {m timeout : Nat}

theorem losSemPend_cases {s : SemState} (heq : losSemPend s false m timeout = (s', r)) :
    s' = s ∧ r ≠ .losOk ∧ r ≠ .blocked ∨
    (s.sem m).semCount ≠ 0 ∧ s' = s.setSem m { s.sem m with semCount := (s.sem m).semCount - 1 } ∧ r = .losOk ∨
    s.kernel.gLosTaskLock = 0 ∧ r = .blocked ∧ s'.kernel = losSchedule (osSchedTaskWait
      (s.kernel.modifyTask s.kernel.runTask fun cb => { cb with taskSem := some m }) (.semList m) timeout) := by
  have herr : ∀ r₁ : SemErrno, r₁ ≠ .losOk → r₁ ≠ .blocked → (s, r₁) = (s', r) →
      s' = s ∧ r ≠ .losOk ∧ r ≠ .blocked := by
    rintro r₁ h1 h2 he
    obtain ⟨rfl, rfl⟩ := Prod.mk.inj he
    exact ⟨rfl, h1, h2⟩
  unfold losSemPend at heq
  split at heq
  · exact .inl (herr _ (by simp) (by simp) heq)
  dsimp only at heq
  split at heq
  · next hcheck =>
    refine .inl (herr _ hcheck ?_ heq)
    unfold osSemValidCheck
    split
    · simp
    · split
      · simp
      · split <;> simp
  next hcheck =>
  have hlock : (s.sem m).semStat = true ∧ s.kernel.gLosTaskLock = 0 := by
    simpa [osSemValidCheck, ite_eq_iff] using hcheck
  split at heq
  · next hpos =>
    obtain ⟨rfl, rfl⟩ := Prod.mk.inj heq
    exact .inr (.inl ⟨Nat.pos_iff_ne_zero.mp hpos, rfl, rfl⟩)
  split at heq
  · exact .inl (herr _ (by simp) (by simp) heq)
  · obtain ⟨rfl, rfl⟩ := Prod.mk.inj heq
    exact .inr (.inr ⟨hlock.2, rfl, rfl⟩)

omit [Config] in
theorem losSemPendResume_caller {s : SemState} (heq : losSemPendResume s = (s', r)) :
    s'.kernel.runTask = s.kernel.runTask ∧ s'.kernel.calling = s.kernel.calling ∧ r ≠ .blocked := by
  unfold losSemPendResume at heq
  dsimp only at heq
  split at heq
  · obtain ⟨rfl, rfl⟩ := Prod.mk.inj heq
    exact ⟨rfl, rfl, nofun⟩
  · obtain ⟨rfl, rfl⟩ := Prod.mk.inj heq
    exact ⟨rfl, rfl, nofun⟩

theorem SemInv.unregistered (hi : SemInv s V) (hcall : s.kernel.calling) :
    Unregistered s.kernel s.inUse s.kernel.runTask := by
  refine unregistered_caller hi.waits.machine hcall ?_
  rintro l ⟨m, hm, rfl, hst⟩
  exact hi.pool.taken m hm hst

theorem SemInv.returns (hi : SemInv s V) (hpends : event.pends)
    (hstep : semStep s.toSemState event = some (s', r)) : SemReturns s event s' r := by
  obtain ⟨V', hi'⟩ := semStep_inv hi hstep
  cases event with
  | pend intActive m timeout =>
    obtain rfl : intActive = false := hpends
    simp only [semStep] at hstep
    split at hstep
    · next hcaller =>
      have hfree : s.free = true := hcaller.resolve_left (by simp)
      simp only [SemState.free, Bool.and_eq_true] at hfree
      rcases losSemPend_cases (Option.some.inj hstep) with ⟨rfl, hok, hb⟩ | ⟨hne, rfl, rfl⟩ | ⟨hlock, hb, hk⟩
      · exact ⟨fun h => absurd h hb, fun _ => hi.unregistered hfree.1, fun _ _ _ h => absurd h hok,
          fun h => (by cases h)⟩
      · refine ⟨fun h => (by cases h), fun _ => hi'.unregistered hfree.1, fun m' timeout' he _ => ?_,
          fun h => (by cases h)⟩
        obtain ⟨_, rfl, rfl⟩ := SemEvent.pend.inj he
        rw [setSem_self]
        exact (Nat.sub_add_cancel (Nat.one_le_iff_ne_zero.mpr hne)).symm
      · refine ⟨fun _ => ?_, fun h => absurd hb h, fun _ _ _ h => ?_, fun h => (by cases h)⟩
        · rw [hk]
          refine osSchedTaskWait_switches ?_ ?_ _ _
          · exact hfree.1
          · exact hlock
        · rw [hb] at h
          cases h
    · cases hstep
  | resume =>
    have hstep' := hstep
    simp only [semStep] at hstep
    split at hstep
    · next hcaller =>
      obtain ⟨h1, h2, h3⟩ := losSemPendResume_caller (Option.some.inj hstep)
      refine ⟨fun h => absurd h h3, fun _ => ?_, fun _ _ h => (by cases h), fun _ hr => ?_⟩
      · have h := hi'.unregistered (h2.trans hcaller.1)
        change Unregistered s'.kernel s'.inUse s'.kernel.runTask at h
        rwa [h1] at h
      · obtain ⟨m, hm⟩ := Option.isSome_iff_exists.mp hcaller.2
        rcases hi.safe.returns m s' r hm hstep' with ⟨_, h⟩ | ⟨h, _⟩
        · exact h
        · rw [hr] at h
          cases h
    · cases hstep
  | create | binaryCreate | delete | post | kernel => exact hpends.elim

end

section

variable {s : CountedState} {s' : MuxState} {V : View Node} {event : MuxEvent} {r : MuxErrno}

omit [Config] in
theorem losMuxPendResume_caller {s : MuxState} (heq : losMuxPendResume s = (s', r)) :
    s'.kernel.runTask = s.kernel.runTask ∧ s'.kernel.calling = s.kernel.calling ∧ r ≠ .blocked := by
  unfold losMuxPendResume at heq
  dsimp only at heq
  split at heq
  · obtain ⟨rfl, rfl⟩ := Prod.mk.inj heq
    exact ⟨rfl, rfl, nofun⟩
  · obtain ⟨rfl, rfl⟩ := Prod.mk.inj heq
    exact ⟨rfl, rfl, nofun⟩

theorem MuxInv.unregistered {s : MuxState} (hi : MuxInv s V) (hcall : s.kernel.calling) :
    Unregistered s.kernel s.inUse s.kernel.runTask := by
  refine unregistered_caller hi.machine hcall ?_
  rintro l ⟨m, hm, rfl, hst⟩
  exact hi.used m hm hst

theorem CountInv.returns (hi : CountInv s V) (hsh : Shallow s.toMuxState event) (hpends : event.pends)
    (hstep : muxStep s.toMuxState event = some (s', r)) : MuxReturns s event s' r := by
  cases event with
  | pend m timeout =>
    simp only [muxStep] at hstep
    split at hstep
    · next hfree =>
      simp only [MuxState.free, Bool.and_eq_true] at hfree
      obtain ⟨s₁, V', r₁, heq, hi', hout⟩ := losMuxPend_spec hi.mux hfree.1 m timeout
      obtain ⟨rfl, rfl⟩ := Prod.mk.inj (Option.some.inj (heq.symm.trans hstep))
      have hmine : ∀ m' timeout', MuxEvent.pend m timeout = .pend m' timeout' → m' = m := fun _ _ he =>
        (MuxEvent.pend.inj he).1.symm
      cases hout with
      | refused h1 h2 =>
        exact ⟨fun h => absurd h h2, fun _ => hi'.unregistered hfree.1, fun _ _ _ h => absurd h h1,
          fun _ h => (by cases h)⟩
      | acquired bound stat count =>
        refine ⟨fun h => (by cases h), fun _ => hi'.unregistered hfree.1, fun m' timeout' he _ => ?_,
          fun _ h => (by cases h)⟩
        rw [hmine m' timeout' he, holds_self rfl]
        exact ⟨bound, stat, Nat.one_ne_zero, rfl⟩
      | again bound stat count owner =>
        refine ⟨fun h => (by cases h), fun _ => hi'.unregistered hfree.1, fun m' timeout' he _ => ?_,
          fun _ h => (by cases h)⟩
        rw [hmine m' timeout' he, holds_self rfl]
        have hlt : (s.mux m).muxCount < 65535 := hsh owner
        refine ⟨bound, stat, ?_, owner⟩
        show ((s.mux m).muxCount + 1) % 2 ^ 16 ≠ 0
        omega
      | blocked h =>
        refine ⟨fun _ => ?_, fun hne => absurd rfl hne, fun _ _ _ h => (by cases h), fun _ h => (by cases h)⟩
        -- a caller that goes on is on no list
        cases hc : s₁.kernel.calling with
        | false => rfl
        | true =>
          have hgone := hi'.machine.caller_gone hc (.muxList m)
          rw [h.tasks.runTask] at hgone
          exact absurd h.joined hgone
    · cases hstep
  | resume =>
    have hstep' := hstep
    simp only [muxStep] at hstep
    split at hstep
    · next hcaller =>
      have hi' := losMuxPendResume_inv hi.mux hcaller.1
      obtain ⟨h1, h2, h3⟩ := losMuxPendResume_caller (Option.some.inj hstep)
      obtain ⟨hmux, _⟩ := losMuxPendResume_same (Option.some.inj hstep)
      rw [Option.some.inj hstep] at hi'
      refine ⟨fun h => absurd h h3, fun _ => ?_, fun _ _ h => (by cases h), fun m _ hm hr => ?_⟩
      · have h := hi'.unregistered (h2.trans hcaller.1)
        change Unregistered s'.kernel s'.inUse s'.kernel.runTask at h
        rwa [h1] at h
      · rw [holds_of_mux hmux]
        rcases hi.safe.returns m s' r hm hstep' with ⟨_, h⟩ | ⟨h, _⟩
        · exact h
        · rw [hr] at h
          cases h
    · cases hstep
  | create | delete | post | kernel => exact hpends.elim

end

section

variable {s s' : EventState} {V V' : View Node} {eventCB : Option Nat} {eventMask mode id bits : BitVec 32} {e timeOut : Nat}
  {r : EventRet}

omit [Config] in
theorem losEventPoll_taken (hbits : (losEventPoll id eventMask mode).1 = bits) (hne : bits ≠ 0#32) :
    EventsTaken id eventMask mode bits (losEventPoll id eventMask mode).2 := by
  have hword : (losEventPoll id eventMask mode).2 =
      if bits ≠ 0#32 ∧ mode &&& losWaitmodeClr ≠ 0#32 then id &&& ~~~bits else id := by
    rw [← hbits]
    rfl
  have hcleared : mode &&& losWaitmodeClr ≠ 0#32 → (losEventPoll id eventMask mode).2 = id &&& ~~~bits :=
    fun hclr => by rw [hword, if_pos ⟨hne, hclr⟩]
  unfold losEventPoll at hbits
  dsimp only at hbits
  by_cases ho : mode &&& losWaitmodeOr ≠ 0#32
  · rw [if_pos ho] at hbits
    split at hbits
    · exact ⟨hbits.symm, fun h => absurd h ho, hcleared⟩
    · exact absurd hbits.symm hne
  · rw [if_neg ho] at hbits
    split at hbits
    · next hall => exact ⟨hbits.symm, fun _ => hbits.symm.trans hall.2.symm, hcleared⟩
    · exact absurd hbits.symm hne

theorem EventInv.unregistered (hi : EventInv s V) (hcall : s.kernel.calling) :
    Unregistered s.kernel s.inUse s.kernel.runTask := by
  refine unregistered_caller hi.machine hcall ?_
  rintro l ⟨e, rfl, he⟩
  exact hi.head e he

omit [Config] in
theorem poll_taken (s : EventState) (e : Nat) (hne : (s.poll e eventMask mode).2 ≠ 0#32) :
    EventsTaken (s.uwEventID e) eventMask mode (s.poll e eventMask mode).2
      ((s.poll e eventMask mode).1.uwEventID e) := by
  have hword : (s.poll e eventMask mode).1.uwEventID e = (losEventPoll (s.uwEventID e) eventMask mode).2 :=
    Function.update_self _ _ _
  rw [hword]
  exact losEventPoll_taken rfl hne

theorem EventInv.read_returns (hi : EventInv s V) (hcall : s.kernel.calling)
    (heq : losEventRead s false eventCB eventMask mode timeOut = (s', r)) :
    EventReturns s eventCB eventMask mode s' r := by
  have herr : ∀ errno, (s, EventRet.error errno) = (s', r) → EventReturns s eventCB eventMask mode s' r := by
    intro errno he
    obtain ⟨rfl, rfl⟩ := Prod.mk.inj he
    exact ⟨nofun, fun _ => hi.unregistered hcall, nofun⟩
  unfold losEventRead at heq
  dsimp only at heq
  split at heq
  · exact herr _ heq
  cases eventCB with
  | none => exact herr _ heq
  | some e =>
    have hp := hi.poll e eventMask mode
    have hun : Unregistered (s.poll e eventMask mode).1.kernel (s.poll e eventMask mode).1.inUse
        s.kernel.runTask := hp.unregistered hcall
    simp only [Bool.false_eq_true, if_false] at heq
    split at heq
    · next hzero =>
      split at heq
      · obtain ⟨rfl, rfl⟩ := Prod.mk.inj heq
        refine ⟨nofun, fun _ => hun, fun bits hb hne => ?_⟩
        rw [← EventRet.value.inj hb] at hne
        exact absurd hzero hne
      split at heq
      · obtain ⟨rfl, rfl⟩ := Prod.mk.inj heq
        exact ⟨nofun, fun _ => hun, nofun⟩
      next hlock =>
      obtain ⟨rfl, rfl⟩ := Prod.mk.inj heq
      refine ⟨fun _ => ?_, fun h => absurd rfl h, nofun⟩
      refine osSchedTaskWait_switches ?_ ?_ _ _
      · exact hcall
      · exact not_not.mp hlock
    · next hsome =>
      obtain ⟨rfl, rfl⟩ := Prod.mk.inj heq
      refine ⟨nofun, fun _ => hun, fun bits hb _ => ⟨e, rfl, ?_⟩⟩
      rw [← EventRet.value.inj hb]
      exact poll_taken s e hsome

theorem EventInv.resume_returns (hi : EventInv s V) (hcall : s.kernel.calling)
    (hreading : s.reading s.kernel.runTask = some (e, eventMask, mode))
    (heq : losEventReadResume s e eventMask mode = (s', r)) :
    EventReturns s (some e) eventMask mode s' r := by
  obtain ⟨V', hi'⟩ := eventStep_inv hi (.resume hcall hreading)
  rw [heq] at hi'
  unfold losEventReadResume at heq
  dsimp only at heq
  split at heq
  · obtain ⟨rfl, rfl⟩ := Prod.mk.inj heq
    exact ⟨nofun, fun _ => hi'.unregistered hcall, nofun⟩
  · obtain ⟨rfl, rfl⟩ := Prod.mk.inj heq
    refine ⟨nofun, fun _ => hi'.unregistered hcall, fun bits hb hne => ⟨e, rfl, ?_⟩⟩
    rw [← EventRet.value.inj hb] at hne ⊢
    exact poll_taken _ e hne

end

section

variable {s : LoggedQueue} {s' : QueueState} {hand : Nat → Bool → Nat} {V V' : View Node} {event : QueueEvent}
  {r : QueueReturn} {call : QueueCall} {ret : OperateReturn} {log : Nat → List QueueOp} {q : Nat}

theorem QueueInv.head (hi : QueueInv s' log hand V) {l : WaitList} (hl : s'.inUse l) :
    V.role (.wait l) = .head := by
  obtain ⟨q, hq, hst, rfl | ⟨write, rfl⟩⟩ := hl
  · exact (hi.used q hq hst).heads _ (.inr rfl)
  · cases write with
    | true => exact hi.pool.taken q hq hst
    | false => exact (hi.used q hq hst).heads _ (.inl rfl)

theorem QueueInv.unregistered (hi : QueueInv s' log hand V) (hcall : s'.kernel.calling) :
    Unregistered s'.kernel s'.inUse s'.kernel.runTask :=
  unregistered_caller hi.pool.machine hcall fun _ => hi.head

theorem OperateOutcome.slotUsed (hi : QueueInv s.toQueueState s.log hand V)
    (h : OperateOutcome s.toQueueState s.log hand call s' ret) (hop : s.operation event = some call)
    (hok : ret.errno = .losOk) : SlotUsed s event s' ret call := by
  obtain ⟨hq, hused, hcall, cnt, cnt', cb, heq, hqueue⟩ := h.done hok
  obtain ⟨V', hi'⟩ := h.inv
  have hu := hi.used _ hq hused
  obtain ⟨b, hb, _⟩ := hu.block
  obtain ⟨cb₁, _, _, heq₁, hoper⟩ := @osQueueBufferOperate_spec { s.queue call.queueID with
    readWriteableCnt := cnt } call b (hu.shape.setCnt cnt) hb hcall.head
  obtain ⟨rfl, _⟩ := Prod.mk.inj (Option.some.inj (heq.symm.trans heq₁))
  have hself : s'.queue call.queueID = { cb with readWriteableCnt := cnt' } := by
    rw [hqueue, Function.update_self]
  have hu' := hi'.used _ hq (by rw [hself]; exact hoper.queueState.trans hused)
  have hslots := hu'.slots
  have hstored := hu'.stored
  rw [logAfter, if_pos hok, Function.update_self] at hstored
  rw [show (s'.queue call.queueID).queueLen = (s.queue call.queueID).queueLen by
    rw [hself]; exact hoper.queueLen] at hslots
  refine ⟨⟨hq, hused⟩, ⟨cnt, cnt', cb, heq, hqueue⟩, ?_, by omega, by omega⟩
  rw [noteLog_operate hop, logAfter, if_pos hok]

theorem OperateOutcome.returns (hi : QueueInv s.toQueueState s.log hand V) (hcall : s.kernel.calling)
    (hop : s.operation event = some call) (h : OperateOutcome s.toQueueState s.log hand call s' ret) :
    QueueReturns s event s' (.operate ret) := by
  obtain ⟨V', hi'⟩ := h.inv
  have hcaller := hi.pool.machine.calling_caller hcall
  refine ⟨h.blocked, fun hne => ?_, fun ret' call' hr hop' hok => ?_, nofun⟩
  · exact unregistered_of_clean hi'.pool.machine hcaller.bound (h.caller hcall hne) fun _ => hi'.head
  · obtain rfl := QueueReturn.operate.inj hr
    obtain rfl := Option.some.inj (hop.symm.trans hop')
    exact h.slotUsed hi hop hok

theorem osQueueMailAlloc_cases {s s' : QueueState} {mailPool : Bool} {timeOut : Nat} {mem : Option Nat}
    {r : MailReturn} (hlock : ¬ MailInLock s (.mailAlloc false q mailPool timeOut mem))
    (heq : osQueueMailAlloc s false q mailPool timeOut mem = (s', r)) :
    s' = s ∧ (r = .mem none ∨ mailPool = true ∧ r = .mem mem) ∨
    s.kernel.gLosTaskLock = 0 ∧ r = .blocked ∧
      s'.kernel = losSchedule (osSchedTaskWait s.kernel (.memList q) timeOut) := by
  have hnone : (s, MailReturn.mem none) = (s', r) → s' = s ∧ (r = .mem none ∨ mailPool = true ∧ r = .mem mem) := by
    intro he
    obtain ⟨rfl, rfl⟩ := Prod.mk.inj he
    exact ⟨rfl, .inl rfl⟩
  unfold osQueueMailAlloc at heq
  split at heq
  · exact .inl (hnone heq)
  next hq =>
  split at heq
  · exact .inl (hnone heq)
  next hpool =>
  have hpool : mailPool = true := by simpa using hpool
  split at heq
  · exact .inl (hnone heq)
  split at heq
  · exact .inl (hnone heq)
  next hused =>
  cases mem with
  | some b =>
    obtain ⟨rfl, rfl⟩ := Prod.mk.inj heq
    exact .inl ⟨rfl, .inr ⟨hpool, rfl⟩⟩
  | none =>
    dsimp only at heq
    split at heq
    · exact .inl (hnone heq)
    next htime =>
    split at heq
    · next hl =>
      exact absurd ⟨q, timeOut, by rw [hpool], Nat.lt_of_not_le hq, by simpa using hused, htime, hl⟩ hlock
    next hl =>
    obtain ⟨rfl, rfl⟩ := Prod.mk.inj heq
    exact .inr ⟨not_not.mp hl, rfl, rfl⟩

theorem QueueInv.returns (hi : QueueInv s.toQueueState s.log hand V) (hmail : ¬ MailInLock s.toQueueState event)
    (hblocking : event.blocking) (hstep : queueStep s.toQueueState event = some (s', r)) :
    QueueReturns s event s' r := by
  cases hop : event.operate with
  | some c =>
    have hoper : s.operation event = some c.call := by
      unfold QueueState.operation
      rw [hop]
    have hint : c.intActive = false := by
      unfold QueueEvent.blocking at hblocking
      rw [hop] at hblocking
      exact hblocking
    rw [queueStep_operate hop] at hstep
    unfold QueueState.calls at hstep
    split at hstep
    · next hcaller =>
      have hfree : s.free = true := hcaller.resolve_left (by rw [hint]; exact Bool.false_ne_true)
      simp only [QueueState.free, Bool.and_eq_true] at hfree
      rw [Option.map_eq_some_iff] at hstep
      obtain ⟨⟨s₁, ret⟩, heq, hr⟩ := hstep
      obtain ⟨rfl, rfl⟩ := Prod.mk.inj hr
      unfold checked at heq
      split at heq
      · next hret =>
        obtain ⟨rfl, rfl⟩ := Prod.mk.inj (Option.some.inj heq)
        exact (OperateOutcome.refused hi hret (operate_ne_blocked hop)).returns hi hfree.1 hoper
      · next hret =>
        obtain ⟨s₂, ret₂, heq₂, hout⟩ := osQueueOperate_spec hi (operate_checked hop (not_not.mp hret)) hcaller
        obtain ⟨rfl, rfl⟩ := Prod.mk.inj (Option.some.inj (heq₂.symm.trans heq))
        exact hout.returns hi hfree.1 hoper
    · cases hstep
  | none =>
    cases event with
    | mailAlloc intActive q mailPool timeOut mem =>
      obtain rfl : intActive = false := hblocking
      simp only [queueStep] at hstep
      split at hstep
      · next hcaller =>
        have hfree : s.free = true := hcaller.resolve_left Bool.false_ne_true
        simp only [QueueState.free, Bool.and_eq_true] at hfree
        cases heq : osQueueMailAlloc s.toQueueState false q mailPool timeOut mem with
        | mk s₁ r₁ =>
          rw [heq] at hstep
          obtain ⟨rfl, rfl⟩ := Prod.mk.inj (Option.some.inj hstep)
          rcases osQueueMailAlloc_cases hmail heq with ⟨rfl, hr⟩ | ⟨hlock, hb, hk⟩
          · refine ⟨fun hb => ?_, fun _ => hi.unregistered hfree.1, fun _ _ h => (by cases h),
              fun b hmem => .inl ?_⟩
            · have hb : r₁ = .blocked := hb
              rcases hr with hr | ⟨_, hr⟩
              · cases hr.symm.trans hb
              · cases hr.symm.trans hb
            · have hmem := QueueReturn.mail.inj hmem
              rcases hr with hr | ⟨hpool, hr⟩
              · cases hr.symm.trans hmem
              · obtain rfl := MailReturn.mem.inj (hr.symm.trans hmem)
                exact ⟨q, timeOut, by rw [hpool]⟩
          · refine ⟨fun _ => ?_, fun h => absurd hb h, fun _ _ h => (by cases h), fun b hmem => ?_⟩
            · rw [hk]
              exact osSchedTaskWait_switches hfree.1 hlock _ _
            · cases hb.symm.trans (QueueReturn.mail.inj hmem)
      · cases hstep
    | resume =>
      simp only [queueStep] at hstep
      split at hstep
      · next hcall =>
        cases hp : s.pending s.kernel.runTask with
        | none =>
          rw [hp] at hstep
          cases hstep
        | some x =>
          rw [hp, Option.bind_some] at hstep
          cases x with
          | operate call =>
            have hoper : s.operation .resume = some call := by
              unfold QueueState.operation
              rw [hp]
              rfl
            obtain ⟨s₁, ret, heq, hout⟩ := osQueueOperateResume_spec hi hcall hp
            simp only [resumeStep, heq, Option.map_some, Option.some.injEq, Prod.mk.injEq] at hstep
            obtain ⟨rfl, rfl⟩ := hstep
            exact hout.returns hi hcall hoper
          | mailAlloc q =>
            obtain ⟨V', hi'⟩ := (osQueueMailAllocResume_spec hi hcall hp).inv
            obtain ⟨rfl, rfl⟩ := Prod.mk.inj (Option.some.inj hstep)
            unfold osQueueMailAllocResume at hi' ⊢
            dsimp only at hi' ⊢
            split at hi'
            · next htime =>
              rw [if_pos htime]
              exact ⟨fun h => (by cases h), fun _ => hi'.unregistered hcall, fun _ _ h => (by cases h),
                fun _ h => (by cases h)⟩
            · next htime =>
              rw [if_neg htime]
              refine ⟨fun h => (by cases h), fun _ => hi'.unregistered hcall, fun _ _ h => (by cases h),
                fun b hmem => .inr ⟨rfl, ?_⟩⟩
              exact MailReturn.mem.inj (QueueReturn.mail.inj hmem)
      · cases hstep
    | readCopy | writeHeadCopy | writeCopy | read | write | writeHead => cases hop
    | create | delete | mailFree | kernel => exact hblocking.elim

omit [Config] in
theorem osQueueMailAllocResume_msg (s : QueueState) : (osQueueMailAllocResume s).1.msg = s.msg ∨
    (osQueueMailAllocResume s).1.msg = Function.update s.msg s.kernel.runTask none := by
  unfold osQueueMailAllocResume
  dsimp only
  split
  · exact .inl rfl
  · exact .inr rfl

theorem osQueueMailAlloc_msg (s : QueueState) (intActive : Bool) (q : Nat) (mailPool : Bool) (timeOut : Nat)
    (mem : Option Nat) : (osQueueMailAlloc s intActive q mailPool timeOut mem).1.msg = s.msg ∨
      ∃ t, (osQueueMailAlloc s intActive q mailPool timeOut mem).1.msg = Function.update s.msg t none := by
  unfold osQueueMailAlloc
  split
  · exact .inl rfl
  split
  · exact .inl rfl
  split
  · exact .inl rfl
  split
  · exact .inl rfl
  cases mem with
  | some mem => exact .inl rfl
  | none =>
    dsimp only
    split
    · exact .inl rfl
    split
    · exact (osQueueMailAllocResume_msg _).imp_right fun h => ⟨_, h⟩
    · exact .inl rfl

theorem QueueInv.handed (hi : QueueInv s.toQueueState s.log hand V)
    (hstep : queueStep s.toQueueState event = some (s', r)) : MailHanded s.toQueueState event s' := by
  have hsame : s'.msg = s.msg → MailHanded s.toQueueState event s' := fun h t b hb => .inl (h ▸ hb)
  have hclear : ∀ u, s'.msg = Function.update s.msg u none → MailHanded s.toQueueState event s' := by
    intro u h t b hb
    rw [h] at hb
    by_cases htu : t = u
    · rw [htu, Function.update_self] at hb
      cases hb
    · rw [Function.update_of_ne htu] at hb
      exact .inl hb
  cases hop : event.operate with
  | some c =>
    rw [queueStep_operate hop] at hstep
    unfold QueueState.calls at hstep
    split at hstep
    · next hcaller =>
      rw [Option.map_eq_some_iff] at hstep
      obtain ⟨⟨s₁, ret⟩, heq, hr⟩ := hstep
      obtain ⟨rfl, rfl⟩ := Prod.mk.inj hr
      unfold checked at heq
      split at heq
      · obtain ⟨rfl, rfl⟩ := Prod.mk.inj (Option.some.inj heq)
        exact hsame rfl
      · next hret =>
        obtain ⟨s₂, ret₂, heq₂, hout⟩ := osQueueOperate_spec hi (operate_checked hop (not_not.mp hret)) hcaller
        obtain ⟨rfl, rfl⟩ := Prod.mk.inj (Option.some.inj (heq₂.symm.trans heq))
        exact hsame hout.msg
    · cases hstep
  | none =>
    cases event with
    | readCopy | writeHeadCopy | writeCopy | read | write | writeHead => cases hop
    | create len queueID maxMsgSize queue =>
      simp only [queueStep, Option.map_eq_some_iff] at hstep
      obtain ⟨⟨s₁, ret, o⟩, heq, hr⟩ := hstep
      obtain ⟨rfl, rfl⟩ := Prod.mk.inj hr
      rcases losQueueCreate_spec hi heq with ⟨rfl, _⟩ | ⟨_, _, _, _, _, _, _, _, _, hmsg, _⟩
      · exact hsame rfl
      · exact hsame hmsg
    | delete q =>
      obtain ⟨rfl, rfl⟩ := Prod.mk.inj (Option.some.inj hstep)
      rcases losQueueDelete_spec hi q with ⟨_, hs, _⟩ | ⟨_, _, _, _, _, hs, _⟩
      · exact hsame (by rw [hs])
      · exact hsame (by rw [hs])
    | mailAlloc intActive q mailPool timeOut mem =>
      simp only [queueStep] at hstep
      split at hstep
      · obtain ⟨rfl, rfl⟩ := Prod.mk.inj (Option.some.inj hstep)
        have hmsg := osQueueMailAlloc_msg s.toQueueState intActive q mailPool timeOut mem
        rcases hmsg with h | h
        · exact hsame h
        · obtain ⟨t, h⟩ := h
          exact hclear t h
      · cases hstep
    | mailFree q mailPool freed mem =>
      simp only [queueStep, Option.map_eq_some_iff] at hstep
      obtain ⟨⟨s₁, ret⟩, heq, hr⟩ := hstep
      obtain ⟨rfl, rfl⟩ := Prod.mk.inj hr
      unfold osQueueMailFree at heq
      split at heq
      · obtain ⟨rfl, _⟩ := Prod.mk.inj (Option.some.inj heq)
        exact hsame rfl
      next hq =>
      split at heq
      · obtain ⟨rfl, _⟩ := Prod.mk.inj (Option.some.inj heq)
        exact hsame rfl
      next hpool =>
      split at heq
      · obtain ⟨rfl, _⟩ := Prod.mk.inj (Option.some.inj heq)
        exact hsame rfl
      next hfreed =>
      split at heq
      · obtain ⟨rfl, _⟩ := Prod.mk.inj (Option.some.inj heq)
        exact hsame rfl
      next hused =>
      split at heq
      · next hne =>
        obtain ⟨since, clock, hw⟩ := hi.waits
        have hhead := (hi.used q (Nat.lt_of_not_le hq) (by simpa using hused)).heads _ (.inr rfl)
        obtain ⟨w, hlt, hfirst, hon, _⟩ := hw.first hhead (by simpa using hne)
        obtain ⟨k, V', hwake, _⟩ := hw.machine.wake hlt (hw.machine.inv.pend_of_wait hlt hon)
        rw [hfirst] at heq
        simp only [osTcbFromPendList, Option.bind_eq_bind, Option.bind_some, hwake] at heq
        cases mem with
        | none =>
          obtain ⟨rfl, _⟩ := Prod.mk.inj (Option.some.inj heq)
          exact hsame rfl
        | some mem =>
          obtain ⟨rfl, _⟩ := Prod.mk.inj (Option.some.inj heq)
          intro t b hb
          have hb : Function.update s.msg w (some mem) t = some b := hb
          by_cases htw : t = w
          · rw [htw, Function.update_self] at hb
            obtain rfl := Option.some.inj hb
            refine .inr ⟨q, ?_, ?_⟩
            · rw [show mailPool = true by simpa using hpool, show freed = true by simpa using hfreed]
            · rw [htw]
              exact onList_of_content hw.machine.inv.core.ready.forest hhead hon
          · rw [Function.update_of_ne htw] at hb
            exact .inl hb
      · obtain ⟨rfl, _⟩ := Prod.mk.inj (Option.some.inj heq)
        exact hsame rfl
    | resume =>
      simp only [queueStep] at hstep
      split at hstep
      · next hcall =>
        cases hp : s.pending s.kernel.runTask with
        | none =>
          rw [hp] at hstep
          cases hstep
        | some x =>
          rw [hp, Option.bind_some] at hstep
          cases x with
          | operate call =>
            obtain ⟨s₁, ret, heq, hout⟩ := osQueueOperateResume_spec hi hcall hp
            simp only [resumeStep, heq, Option.map_some, Option.some.injEq, Prod.mk.injEq] at hstep
            obtain ⟨rfl, rfl⟩ := hstep
            exact hsame hout.msg
          | mailAlloc q =>
            obtain ⟨rfl, rfl⟩ := Prod.mk.inj (Option.some.inj hstep)
            rcases osQueueMailAllocResume_msg s.toQueueState with h | h
            · exact hsame h
            · exact hclear _ h
      · cases hstep
    | kernel e =>
      simp only [queueStep] at hstep
      split at hstep
      · cases hstep
      · rw [Option.map_eq_some_iff] at hstep
        obtain ⟨k, _, hr⟩ := hstep
        obtain ⟨rfl, rfl⟩ := Prod.mk.inj hr
        intro t b hb
        have hb : (if (s.kernel.status t).unused ∧ !(k.status t).unused then none else s.msg t) = some b := hb
        split at hb
        · cases hb
        · exact .inl hb

end

section

variable {s : WaitState} {V : View Node}

theorem losTaskDelay_returns (hi : WaitInv s V) : DelayReturns s := by
  constructor
  case executes => exact fun hcall => unregistered_caller hi.machine hcall fun l hl => hi.head l hl
  case locked =>
    intro tick k hstep hlock
    simp only [kernelStep] at hstep
    split at hstep
    · rw [← Option.some.inj hstep]
      unfold losTaskDelay
      rw [if_neg Bool.false_ne_true, if_pos hlock]
    · cases hstep
  case delayed =>
    intro tick k hstep hlock htick
    simp only [kernelStep] at hstep
    split at hstep
    · next hcall =>
      rw [← Option.some.inj hstep]
      unfold losTaskDelay
      rw [if_neg Bool.false_ne_true, if_neg (not_not.mpr hlock), if_neg htick]
      simp only [KernelState.calling, KernelState.atWork, Bool.and_eq_true] at hcall
      have hreq := @losSchedule_request (osSchedDelay s.kernel tick) hcall.1.1 hlock
      unfold KernelState.calling KernelState.atWork
      rw [hreq, Bool.not_true, Bool.and_false, Bool.false_and]
    · cases hstep

end

def unlockedStep (s : LoggedQueue) (event : QueueEvent) (s' : LoggedQueue) : Prop :=
  ¬ MailInLock s.toQueueState event ∧ loggedStep s event = some s'

theorem unlockedRun_inv {s₀ s : LoggedQueue} {events : List QueueEvent} (hmax : gTaskMaxNum ≤ osInvalid)
    (hb : QueueBooted s₀.toQueueState) (hrun : Run unlockedStep s₀ events s) :
    ∃ hand V, QueueInv s.toQueueState s.log hand V := by
  refine run_invariant (fun s => ∃ hand V, QueueInv s.toQueueState s.log hand V) ?_ hrun
    ⟨noHand, queueBooted_inv s₀.log hmax hb⟩
  rintro s event s₁ ⟨hand, V, hi⟩ ⟨hmail, hstep⟩
  unfold loggedStep at hstep
  rw [Option.map_eq_some_iff] at hstep
  obtain ⟨⟨s', r⟩, hq, rfl⟩ := hstep
  obtain ⟨hand', V', hi', _⟩ := (queueStep_spec hi hmail hq).inv
  exact ⟨hand', V', hi'⟩

/-- Nobody returns from a blocking call while it is registered as waiting, and a call that succeeds has got
what it waited for, as long as no task waits for mail with the scheduler locked. -/
theorem losBlocking_returns (hmax : gTaskMaxNum ≤ osInvalid) :
    (∀ s₀ events s, WaitBooted s₀ → Run (fun s event s' => waitStep s event = some s') s₀ events s →
      DelayReturns s) ∧
    (∀ (s₀ : CountedSem) events s, SemBooted s₀.toSemState →
      Run (fun s event s' => countedSemStep s event = some s') s₀ events s →
      ∀ event s' r, event.pends → semStep s.toSemState event = some (s', r) → SemReturns s event s' r) ∧
    (∀ s₀ events s, CountBooted s₀ →
      Run (fun s event s' => countedStep s event = some s' ∧ DepthKept s.toMuxState event) s₀ events s →
      ∀ event s' r, event.pends → DepthKept s.toMuxState event →
        muxStep s.toMuxState event = some (s', r) → MuxReturns s event s' r) ∧
    (∀ s₀ events s, EventBooted s₀ → Run eventStep s₀ events s → s.kernel.calling →
      (∀ eventCB eventMask mode timeOut s' r, s.reading s.kernel.runTask = none →
        losEventRead s false eventCB eventMask mode timeOut = (s', r) →
          EventReturns s eventCB eventMask mode s' r) ∧
      ∀ e eventMask mode s' r, s.reading s.kernel.runTask = some (e, eventMask, mode) →
        losEventReadResume s e eventMask mode = (s', r) → EventReturns s (some e) eventMask mode s' r) ∧
    ∀ (s₀ : LoggedQueue) events s, QueueBooted s₀.toQueueState → Run unlockedStep s₀ events s →
      ∀ event s' r, ¬ MailInLock s.toQueueState event → queueStep s.toQueueState event = some (s', r) →
        (event.blocking → QueueReturns s event s' r) ∧ MailHanded s.toQueueState event s' := by
  refine ⟨fun s₀ events s hb hrun => ?_, fun s₀ events s hb hrun event s' r hpends hstep => ?_,
    fun s₀ events s hb hrun event s' r hpends hdepth hstep => ?_, fun s₀ events s hb hrun hcall => ?_,
    fun s₀ events s hb hrun event s' r hmail hstep => ?_⟩
  · obtain ⟨V, hi⟩ := waitRun_inv hmax hb hrun
    exact losTaskDelay_returns hi
  · obtain ⟨V, hi⟩ := semRun_inv hmax hb hrun
    exact hi.returns hpends hstep
  · obtain ⟨V, hi⟩ := muxRun_inv hmax hb hrun
    refine hi.returns ?_ hpends hstep
    cases event with
    | pend m timeout => exact hdepth
    | resume => trivial
    | create | delete | post | kernel => exact hpends.elim
  · obtain ⟨V, hi⟩ := run_invariant (fun s => ∃ V, EventInv s V)
      (fun _ _ _ ⟨_, h⟩ hstep => eventStep_inv h hstep) hrun (eventBooted_inv hmax hb)
    exact ⟨fun _ _ _ _ _ _ _ heq => hi.read_returns hcall heq, fun _ _ _ _ _ hreading heq =>
      hi.resume_returns hcall hreading heq⟩
  · obtain ⟨hand, V, hi⟩ := unlockedRun_inv hmax hb hrun
    exact ⟨fun hblocking => hi.returns hmail hblocking hstep, hi.handed hstep⟩

def queueAndTask : List QueueEvent :=
  [createQueue,
    .kernel (.create true (some { pfnTaskEntry := some 7, usTaskPrio := 10, uwStackSize := 64
                                  pcName := some "task" }) true),
    .kernel .start]

def waitForMail : QueueEvent := .mailAlloc false 0 true 0xFFFFFFFF none

omit [Config] in
/-- A task waits for mail. -/
theorem losBlocking_returns_small :
    letI := smallConfig
    ∃ s s' r, Run unlockedStep smallLogged queueAndTask s ∧
      queueStep s.toQueueState waitForMail = some (s', r) ∧ r.blocked ∧ QueueReturns s waitForMail s' r := by
  let := smallConfig
  have hrun : (queueAndTask.foldlM loggedStep smallLogged).map (fun s => (s.kernel.gLosTaskLock,
      (queueStep s.toQueueState waitForMail).map fun r =>
        match r.2 with
        | .mail .blocked => true
        | _ => false)) = some (0, some true) := by decide +kernel
  rw [Option.map_eq_some_iff] at hrun
  obtain ⟨s, hs, hval⟩ := hrun
  obtain ⟨hlock, hret⟩ := Prod.mk.inj hval
  rw [Option.map_eq_some_iff] at hret
  obtain ⟨⟨s', r⟩, hstep, hr⟩ := hret
  have hb : r.blocked := by
    dsimp only at hr
    split at hr
    · rfl
    · cases hr
  have hun : Run unlockedStep smallLogged queueAndTask s := by
    refine run_mono_mem (run_of_foldlM hs) fun s t a ha h => ⟨?_, h⟩
    rintro ⟨_, _, rfl, _⟩
    simp [queueAndTask, createQueue] at ha
  have hfree : ¬ MailInLock s.toQueueState waitForMail := by
    rintro ⟨_, _, _, _, _, _, h⟩
    exact h hlock
  refine ⟨s, s', r, hun, hstep, hb, ?_⟩
  exact ((losBlocking_returns (by decide)).2.2.2.2 _ _ s smallQueue_booted hun _ _ _ hfree hstep).1 rfl

omit [Config] in
/-- With the scheduler locked the caller comes back at once, on the list and with `OS_TASK_STATUS_PEND`. -/
theorem osQueueMailAlloc_registered :
    letI := smallConfig
    ∃ s s' r, QueueBooted smallLogged.toQueueState ∧
      Run (fun s event s' => loggedStep s event = some s') smallLogged (queueAndTask ++ [.kernel .lock]) s ∧
      queueStep s.toQueueState waitForMail = some (s', r) ∧ r = .mail (.mem none) ∧ s'.kernel.calling ∧
      (s'.kernel.status s.kernel.runTask).pend = true ∧
      OnList s'.kernel.links (.wait (.memList 0)) (.pendList s.kernel.runTask) ∧
      ¬ QueueReturns s waitForMail s' r := by
  let := smallConfig
  have hrun : ((queueAndTask ++ [QueueEvent.kernel .lock]).foldlM loggedStep smallLogged).map (fun s =>
      (queueStep s.toQueueState waitForMail).map fun r =>
        ((match r.2 with
          | .mail (.mem none) => true
          | _ => false), r.1.kernel.calling, (r.1.kernel.status s.kernel.runTask).pend,
        decide (r.1.kernel.links.next (.wait (.memList 0)) = .pendList s.kernel.runTask))) =
      some (some (true, true, true, true)) := by decide +kernel
  rw [Option.map_eq_some_iff] at hrun
  obtain ⟨s, hs, hret⟩ := hrun
  rw [Option.map_eq_some_iff] at hret
  obtain ⟨⟨s', r⟩, hstep, hval⟩ := hret
  simp only [Prod.mk.injEq, decide_eq_true_eq] at hval
  obtain ⟨hr, hcall, hpend, hnext⟩ := hval
  have hmem : r = .mail (.mem none) := by
    split at hr
    · rfl
    · cases hr
  refine ⟨s, s', r, smallQueue_booted, run_of_foldlM hs, hstep, hmem, hcall, hpend, ⟨nofun, 1, hnext⟩, fun h => ?_⟩
  have hfalse := (h.returned (by rw [hmem]; nofun)).pend
  cases hpend.symm.trans hfalse

end LiteosM.Ipc
