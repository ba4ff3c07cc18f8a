import LiteosM.Ipc.QueueInv

/-!
# The slots of a queue over whole runs
-/

namespace LiteosM.Ipc

open LiteosM.Kernel LiteosM.Lib.DlList LiteosM.Lib.Transition LiteosM.Lib.ByteMemory

variable [Config]

/-- What `OsQueueOperate` comes to, or the rest of it. -/
structure OperateOutcome (s : QueueState) (log : Nat → List QueueOp) (hand : Nat → Bool → Nat) (call : QueueCall)
    (s' : QueueState) (ret : OperateReturn) : Prop where
  inv : ∃ V', QueueInv s' (logAfter log call ret) hand V'
  pending : ∀ t x, s'.pending t = some x → s.pending t = some x ∨ x = .operate call
  failed : ret.errno ≠ .losOk → s'.queue = s.queue
  msg : s'.msg = s.msg
  caller : s.kernel.calling → ret.errno ≠ .blocked → Clean (s'.kernel.gTaskCBArray s.kernel.runTask).taskStatus
  blocked : ret.errno = .blocked → s'.kernel.calling = false
  done : ret.errno = .losOk → call.queueID < Config.queueLimit ∧
    (s.queue call.queueID).queueState = true ∧ CallOk (s.queue call.queueID) call ∧
    ∃ cnt cnt' cb, osQueueBufferOperate { s.queue call.queueID with readWriteableCnt := cnt }
        call.operateType call.bufferAddr call.bufferSize = some (cb, ret.bufferAddr, ret.bufferSize) ∧
      s'.queue = Function.update s.queue call.queueID { cb with readWriteableCnt := cnt' }

section

variable {s s' : QueueState} {log : Nat → List QueueOp} {hand : Nat → Bool → Nat} {V : View Node} {q t : Nat} {k : KernelState}
  {call : QueueCall} {c : OperateCall} {event : QueueEvent}

theorem OperateOutcome.refused (hi : QueueInv s log hand V) {ret : OperateReturn} (h : ret.errno ≠ .losOk)
    (hb : ret.errno ≠ .blocked) : OperateOutcome s log hand call s ret := by
  refine ⟨⟨V, ?_⟩, fun _ _ hp => .inl hp, fun _ => rfl, rfl, fun hc _ => ?_, fun he => absurd he hb,
    fun he => absurd he h⟩
  · rw [logAfter, if_neg h]
    exact hi
  · exact (hi.pool.machine.calling_caller hc).clean

omit [Config] in
theorem paramCheck_ok {cb : LosQueueCB} {op : OperateType} {bufferSize : Nat}
    (h : osQueueOperateParamCheck cb op bufferSize = .losOk) : cb.queueState = true ∧
      (op.write = false → cb.queueSize - 4 ≤ bufferSize) ∧ (op.write = true → bufferSize ≤ cb.queueSize - 4) := by
  unfold osQueueOperateParamCheck at h
  split at h
  · cases h
  next hst =>
  split at h
  · cases h
  next hr =>
  split at h
  · cases h
  next hw =>
  refine ⟨by simpa using hst, fun hop => ?_, fun hop => ?_⟩
  · exact Nat.le_of_not_lt fun hlt => hr ⟨by rw [hop]; rfl, hlt⟩
  · exact Nat.le_of_not_lt fun hlt => hw ⟨hop, hlt⟩

omit [Config] in
theorem paramCheck_ne_blocked {cb : LosQueueCB} {op : OperateType} {bufferSize : Nat} :
    osQueueOperateParamCheck cb op bufferSize ≠ .blocked := by
  unfold osQueueOperateParamCheck
  repeat' split
  all_goals simp

theorem operate_ne_blocked (h : event.operate = some c) : c.ret ≠ .blocked := by
  have hread : ∀ (intActive : Bool) (q : Nat) (addr len : Bool) (size timeOut : Nat),
      osQueueReadParameterCheck intActive q addr len size timeOut ≠ .blocked := by
    intro intActive q addr len size timeOut
    unfold osQueueReadParameterCheck
    repeat' split
    all_goals simp
  have hwrite : ∀ (intActive : Bool) (q : Nat) (addr : Bool) (size timeOut : Nat),
      osQueueWriteParameterCheck intActive q addr size timeOut ≠ .blocked := by
    intro intActive q addr size timeOut
    unfold osQueueWriteParameterCheck
    repeat' split
    all_goals simp
  cases event with
  | readCopy | read =>
    obtain rfl := Option.some.inj h
    exact hread _ _ _ _ _ _
  | writeHeadCopy | writeCopy | write =>
    obtain rfl := Option.some.inj h
    exact hwrite _ _ _ _ _
  | writeHead intActive q bufferAddr timeOut =>
    obtain rfl := Option.some.inj h
    by_cases h0 : bufferAddr = 0
    · show (if bufferAddr = 0 then QueueErrno.queueWritePtrNull else _) ≠ _
      rw [if_pos h0]
      exact nofun
    · show (if bufferAddr = 0 then QueueErrno.queueWritePtrNull else _) ≠ _
      rw [if_neg h0]
      exact hwrite _ _ _ _ _
  | _ => cases h

theorem OperateOutcome.finish (hi : QueueInv s log hand V) {s₁ s₂ : QueueState} {ret : OperateReturn}
    (h : Completed s₁ call s₂ ret) (hkernel : s₁.kernel = s.kernel) (hmsg : s₁.msg = s.msg) (hq : call.queueID < Config.queueLimit)
    (hused : (s.queue call.queueID).queueState = true) (hcall : CallOk (s.queue call.queueID) call)
    (hpending : ∀ t x, s₁.pending t = some x → s.pending t = some x) {cnt : Bool → Nat}
    (hqueue : s₁.queue = Function.update s.queue call.queueID { s.queue call.queueID with
      readWriteableCnt := cnt }) {V' : View Node}
    (hi' : QueueInv s₂ (Function.update log call.queueID (log call.queueID ++ [opOf call ret])) hand V') :
    OperateOutcome s log hand call s₂ ret := by
  refine ⟨⟨V', ?_⟩, fun t x hp => .inl (hpending t x ?_), fun hne => absurd h.errno hne,
    h.msg.trans hmsg, fun hc _ => ?_, fun hb => ?_,    fun _ => ⟨hq, hused, hcall, ?_⟩⟩
  · rw [logAfter, if_pos h.errno]
    exact hi'
  · rw [← h.pending]
    exact hp
  · have hclean := (hi.pool.machine.calling_caller hc).clean
    rw [h.unpended _ (by rw [hkernel]; exact hclean.pend), hkernel]
    exact hclean
  · cases h.errno.symm.trans hb
  · obtain ⟨cnt₁, cnt₂, cb, hop, hq'⟩ := h.cells
    rw [hqueue, Function.update_self] at hop
    rw [hqueue, Function.update_idem] at hq'
    exact ⟨cnt₁, cnt₂, cb, hop, hq'⟩

theorem osQueueOperate_counted (hi : QueueInv s log hand V) (hc : Checked c)
    (hret : osQueueOperateParamCheck (s.queue c.call.queueID) c.call.operateType c.call.bufferSize = .losOk)
    (hcnt : (s.queue c.call.queueID).readWriteableCnt c.call.operateType.write ≠ 0) :
    ∃ s' ret, osQueueOperate s c.call c.timeOut = some (s', ret) ∧ ret.errno = .losOk ∧
      OperateOutcome s log hand c.call s' ret := by
  obtain ⟨hused, hlarge, hfits⟩ := paramCheck_ok hret
  have hcall : CallOk (s.queue c.call.queueID) c.call := ⟨hc.head, hc.size, hfits, hlarge, hc.point⟩
  have hi1 := hi.take hc.queueID hused hcnt
  obtain ⟨s', ret, V', heq, hdone, hi'⟩ := osQueueOperateEnd_spec hi1 hc.queueID
    (by rw [setQueue_self]; exact hused) (by rw [setQueue_self]; exact hcall.congr rfl)
  refine ⟨s', ret, ?_, hdone.errno, .finish hi hdone rfl rfl hc.queueID hused hcall (fun _ _ hp => hp) rfl hi'⟩
  unfold osQueueOperate
  rw [if_neg (not_not.mpr hret), if_neg hcnt]
  exact heq

theorem osQueueOperate_spec (hi : QueueInv s log hand V) (hc : Checked c)
    (hcaller : c.intActive = true ∨ s.free = true) :
    ∃ s' ret, osQueueOperate s c.call c.timeOut = some (s', ret) ∧ OperateOutcome s log hand c.call s' ret := by
  unfold osQueueOperate
  dsimp only
  split
  · next hret => exact ⟨_, _, rfl, .refused hi hret paramCheck_ne_blocked⟩
  next hret =>
  obtain ⟨hused, hlarge, hfits⟩ := paramCheck_ok (not_not.mp hret)
  have hcall : CallOk (s.queue c.call.queueID) c.call := ⟨hc.head, hc.size, hfits, hlarge, hc.point⟩
  split
  · next hzero =>
    split
    · refine ⟨_, _, rfl, .refused hi ?_ ?_⟩
      · cases c.call.operateType.write <;> simp
      · cases c.call.operateType.write <;> simp
    next htime =>
    split
    · exact ⟨_, _, rfl, .refused hi nofun nofun⟩
    next hlock =>
    -- only a task comes here, and it is not inside a call
    have hfree : s.free = true := by
      rcases hcaller with h | h
      · rw [hc.task htime] at h
        cases h
      · exact h
    unfold QueueState.free at hfree
    rw [Bool.and_eq_true, Option.isNone_iff_eq_none] at hfree
    have hhead : V.role (.wait (.readWriteList c.call.queueID c.call.operateType.write)) = .head := by
      cases c.call.operateType.write with
      | true => exact hi.pool.taken _ hc.queueID hused
      | false => exact (hi.used _ hc.queueID hused).heads _ (.inl rfl)
    obtain ⟨V', hi'⟩ := @QueueInv.pend _ _ _ _ _ hi hfree.1 hfree.2 (not_not.mp hlock) (.operate c.call) hhead
      ⟨_, hc.queueID, hused, .inr ⟨_, rfl, hzero⟩⟩ (fun call he => by
        injection he with he
        rw [← he]
        exact ⟨hc.queueID, hused, hcall⟩) c.timeOut
    refine ⟨_, _, rfl, ⟨V', ?_⟩, fun t x hp => ?_, fun _ => rfl, rfl, fun _ h => absurd rfl h, fun _ => ?_, nofun⟩
    · rw [logAfter, if_neg nofun]
      exact hi'
    · by_cases ht : t = s.kernel.runTask
      · have h0 : Function.update s.pending s.kernel.runTask (some (.operate c.call)) t =
            some (.operate c.call) := by rw [ht, Function.update_self]
        exact .inr (Option.some.inj (h0.symm.trans hp)).symm
      · exact .inl ((Function.update_of_ne ht _ _).symm.trans hp)
    · exact osSchedTaskWait_switches hfree.1 (not_not.mp hlock) _ _
  · next hcnt =>
    obtain ⟨s', ret, heq, _, hout⟩ := osQueueOperate_counted hi hc (not_not.mp hret) hcnt
    unfold osQueueOperate at heq
    rw [if_neg hret, if_neg hcnt] at heq
    exact ⟨s', ret, heq, hout⟩

theorem osQueueOperateResume_spec (hi : QueueInv s log hand V) (hcall : s.kernel.calling)
    (hp : s.pending s.kernel.runTask = some (.operate call)) :
    ∃ s' ret, osQueueOperateResume s call = some (s', ret) ∧ OperateOutcome s log hand call s' ret := by
  have hpending : ∀ t x, Function.update s.pending s.kernel.runTask none t = some x → s.pending t = some x := by
    intro t x hx
    by_cases ht : t = s.kernel.runTask
    · rw [ht, Function.update_self] at hx
      cases hx
    · rwa [Function.update_of_ne ht] at hx
  unfold osQueueOperateResume
  dsimp only
  split
  · next htime =>
    refine ⟨_, _, rfl, ⟨V, ?_⟩, fun t x hx => .inl (hpending t x hx), fun _ => rfl, rfl, fun _ _ => ?_, nofun, nofun⟩
    · rw [logAfter, if_neg nofun]
      exact hi.timeout hcall htime
    · have hclean := (hi.pool.machine.calling_caller hcall).clean
      rw [modifyStatus_self]
      exact ⟨hclean.unused, hclean.ready, hclean.suspend, hclean.pend, hclean.delay, hclean.pendTime⟩
  · next htime =>
    have htime : (s.kernel.status s.kernel.runTask).timeout = false := by simpa using htime
    obtain ⟨hq, hused, hok⟩ := hi.calls _ _ hp htime
    have hi1 := @QueueInv.granted _ s log hand (inHand hand call.queueID call.operateType.write) V hi hcall _ hp htime
      fun q write => by
        refine congrArg (hand q write + ·) (if_congr ?_ rfl rfl)
        show _ ↔ WaitList.readWriteList q write = .readWriteList call.queueID call.operateType.write
        rw [WaitList.readWriteList.injEq]
    obtain ⟨s', ret, V', heq, hdone, hi'⟩ := osQueueOperateEnd_spec hi1 hq hused hok
    exact ⟨s', ret, heq, @OperateOutcome.finish _ s log hand V call hi _ _ _ hdone rfl rfl hq hused hok hpending
      (s.queue call.queueID).readWriteableCnt (Function.update_eq_self _ _).symm _ hi'⟩

/-- `OsQueueMailAlloc` comes to a wait although the scheduler is locked. -/
def MailInLock (s : QueueState) (event : QueueEvent) : Prop :=
  ∃ q timeOut, event = .mailAlloc false q true timeOut none ∧ q < Config.queueLimit ∧
    (s.queue q).queueState = true ∧ timeOut ≠ 0 ∧ s.kernel.gLosTaskLock ≠ 0

/-- A call that has to do with mail leaves the queues alone. -/
structure MailOutcome (s : QueueState) (log : Nat → List QueueOp) (hand : Nat → Bool → Nat) (s' : QueueState) :
    Prop where
  inv : ∃ V', QueueInv s' log hand V'
  pending : ∀ t call, s'.pending t = some (.operate call) → s.pending t = some (.operate call)
  queue : s'.queue = s.queue

theorem MailOutcome.refl (hi : QueueInv s log hand V) : MailOutcome s log hand s :=
  ⟨⟨V, hi⟩, fun _ _ h => h, rfl⟩

theorem osQueueMailAlloc_spec (hi : QueueInv s log hand V) {intActive mailPool : Bool} {timeOut : Nat}
    {mem : Option Nat} (hcaller : intActive = true ∨ s.free = true)
    (hlock : ¬ MailInLock s (.mailAlloc intActive q mailPool timeOut mem)) :
    MailOutcome s log hand (osQueueMailAlloc s intActive q mailPool timeOut mem).1 := by
  unfold osQueueMailAlloc
  split
  · exact .refl hi
  next hq =>
  have hq : q < Config.queueLimit := Nat.lt_of_not_le hq
  split
  · exact .refl hi
  next hpool =>
  split
  · exact .refl hi
  next htask =>
  split
  · exact .refl hi
  next hused =>
  have hused : (s.queue q).queueState = true := by simpa using hused
  cases mem with
  | some mem => exact .refl hi
  | none =>
    dsimp only
    split
    · exact .refl hi
    next htime =>
    have hint : intActive = false := by simpa using fun h => htask ⟨htime, h⟩
    split
    · next h =>
      refine absurd ⟨q, timeOut, ?_, hq, hused, htime, h⟩ hlock
      rw [hint, show mailPool = true by simpa using hpool]
    next hlocked =>
    have hfree : s.free = true := hcaller.resolve_left (by rw [hint]; exact Bool.false_ne_true)
    unfold QueueState.free at hfree
    rw [Bool.and_eq_true, Option.isNone_iff_eq_none] at hfree
    obtain ⟨V', hi'⟩ := @QueueInv.pend _ _ _ _ _ hi hfree.1 hfree.2 (not_not.mp hlocked) (.mailAlloc q)
      ((hi.used q hq hused).heads _ (.inr rfl)) ⟨q, hq, hused, .inl rfl⟩ nofun timeOut
    refine ⟨⟨V', hi'⟩, fun t call hp => ?_, rfl⟩
    by_cases ht : t = s.kernel.runTask
    · have h0 : Function.update s.pending s.kernel.runTask (some (.mailAlloc q)) t =
          some (.mailAlloc q) := by rw [ht, Function.update_self]
      cases h0.symm.trans hp
    · exact (Function.update_of_ne ht _ _).symm.trans hp

theorem osQueueMailAllocResume_spec (hi : QueueInv s log hand V) (hcall : s.kernel.calling)
    (hp : s.pending s.kernel.runTask = some (.mailAlloc q)) :
    MailOutcome s log hand (osQueueMailAllocResume s).1 := by
  have hpending : ∀ t x, Function.update s.pending s.kernel.runTask none t = some x → s.pending t = some x := by
    intro t x hx
    by_cases ht : t = s.kernel.runTask
    · rw [ht, Function.update_self] at hx
      cases hx
    · rwa [Function.update_of_ne ht] at hx
  unfold osQueueMailAllocResume
  dsimp only
  split
  · next htime => exact ⟨⟨V, hi.timeout hcall htime⟩, fun t call => hpending t _, rfl⟩
  · next htime =>
    have hi1 := @QueueInv.granted _ s log hand hand V hi hcall _ hp (by simpa using htime) fun _ _ => rfl
    exact ⟨⟨V, hi1.kernel rfl rfl hi1.waits (fun _ _ _ => rfl) (fun _ h => .inl h) hi1.calls fun _ _ => rfl⟩,
      fun t call => hpending t _, rfl⟩

theorem osQueueMailFree_spec (hi : QueueInv s log hand V) (q : Nat) (mailPool freed : Bool)
    (mem : Option Nat) :
    ∃ s' ret, osQueueMailFree s q mailPool freed mem = some (s', ret) ∧ MailOutcome s log hand s' := by
  unfold osQueueMailFree
  split
  · exact ⟨_, _, rfl, .refl hi⟩
  next hq =>
  have hq : q < Config.queueLimit := Nat.lt_of_not_le hq
  split
  · exact ⟨_, _, rfl, .refl hi⟩
  split
  · exact ⟨_, _, rfl, .refl hi⟩
  split
  · exact ⟨_, _, rfl, .refl hi⟩
  next hused =>
  have hused : (s.queue q).queueState = true := by simpa using hused
  split
  · next hne =>
    obtain ⟨w, k, V', hfirst, hwake, hi1, _⟩ := @QueueInv.wake _ _ _ _ hand _ hi _
      ((hi.used q hq hused).heads _ (.inr rfl)) (by simpa using hne) fun _ _ => rfl
    rw [hfirst]
    simp only [osTcbFromPendList, Option.bind_eq_bind, Option.bind_some]
    rw [hwake, Option.bind_some]
    cases mem with
    | none => exact ⟨_, _, rfl, ⟨V', hi1⟩, fun _ _ h => h, rfl⟩
    | some mem =>
      have hi2 := hi1.schedule
      exact ⟨_, _, rfl, ⟨V', hi2.kernel rfl rfl hi2.waits (fun _ _ _ => rfl) (fun _ h => .inl h) hi2.calls
        fun _ _ => rfl⟩, fun _ _ h => h, rfl⟩
  · exact ⟨_, _, rfl, .refl hi⟩

end

/-- What a step does to the queues and their logs. -/
inductive QueueEffect (s : LoggedQueue) (event : QueueEvent) (s' : QueueState) (r : QueueReturn) : Prop
  | same (hqueue : s'.queue = s.queue) (hlog : noteLog s event s' r = s.log)
  | completed (call : QueueCall) (ret : OperateReturn) (hcall : s.operation event = some call)
      (hr : r = .operate ret) (hret : ret.errno = .losOk)
      (h : ∃ hand, OperateOutcome s.toQueueState s.log hand call s' ret)
  | created (q : Nat) (hq : q < Config.queueLimit) (hst : (s.queue q).queueState = false) (len msgSize : Nat)
      (b : Block) (hqueue : s'.queue = Function.update s.queue q (freshCB len msgSize b))
      (hlog : noteLog s event s' r = Function.update s.log q [])
  | deleted (q : Nat) (cb : LosQueueCB) (hst : cb.queueState = false)
      (hqueue : s'.queue = Function.update s.queue q cb) (hlog : noteLog s event s' r = s.log)

structure QueueStepped (s : LoggedQueue) (hand : Nat → Bool → Nat) (event : QueueEvent) (s' : QueueState)
    (r : QueueReturn) : Prop where
  inv : ∃ hand' V', QueueInv s' (noteLog s event s' r) hand' V' ∧
    (¬ LosesSlot s.toQueueState event → hand = noHand → hand' = noHand)
  pending : ∀ t call, s'.pending t = some (.operate call) →
    s.pending t = some (.operate call) ∨ s.operation event = some call
  effect : QueueEffect s event s' r

section

variable {s : LoggedQueue} {s' : QueueState} {hand hand' : Nat → Bool → Nat} {V : View Node} {event : QueueEvent} {r : QueueReturn}
  {call : QueueCall} {ret : OperateReturn}

theorem noteLog_operate (hop : s.operation event = some call) :
    noteLog s event s' (.operate ret) = logAfter s.log call ret := by
  unfold noteLog
  rw [hop]

theorem noteLog_other (hop : s.operation event = none)
    (hq : ∀ q, newQueue s.toQueueState s' q = false) : noteLog s event s' r = s.log := by
  unfold noteLog
  rw [hop]
  funext q
  show (if newQueue s.toQueueState s' q then [] else s.log q) = _
  rw [hq, if_neg Bool.false_ne_true]

omit [Config] in
theorem newQueue_same (hqueue : s'.queue = s.queue) (q : Nat) : newQueue s.toQueueState s' q = false := by
  unfold newQueue
  rw [hqueue, Bool.not_and_self]

theorem OperateOutcome.stepped (hop : s.operation event = some call)
    (h : OperateOutcome s.toQueueState s.log hand call s' ret) : QueueStepped s hand event s' (.operate ret) := by
  have hlog := @noteLog_operate _ s s' event call ret hop
  obtain ⟨V', hi'⟩ := h.inv
  refine ⟨⟨hand, V', by rw [hlog]; exact hi', fun _ hno => hno⟩, fun t call' hp => ?_, ?_⟩
  · refine (h.pending t _ hp).imp_right fun he => ?_
    injection he with he
    rw [hop, he]
  · by_cases hret : ret.errno = .losOk
    · exact .completed call ret hop rfl hret ⟨hand, h⟩
    · refine .same (h.failed hret) ?_
      rw [hlog, logAfter, if_neg hret]

theorem MailOutcome.stepped (hop : s.operation event = none)
    (h : MailOutcome s.toQueueState s.log hand' s')
    (hhand : ¬ LosesSlot s.toQueueState event → hand' = hand) : QueueStepped s hand event s' r := by
  have hlog := @noteLog_other _ s s' event r hop (newQueue_same h.queue)
  obtain ⟨V', hi'⟩ := h.inv
  exact ⟨⟨hand', V', by rw [hlog]; exact hi', fun hkeep hno => (hhand hkeep).trans hno⟩,
    fun t call hp => .inl (h.pending t call hp), .same h.queue hlog⟩

/-- One step keeps the invariant, unless it lets a task wait for mail with the scheduler locked. -/
theorem queueStep_spec (hi : QueueInv s.toQueueState s.log hand V)
    (hmail : ¬ MailInLock s.toQueueState event) (hstep : queueStep s.toQueueState event = some (s', r)) :
    QueueStepped s hand event s' r := by
  cases hop : event.operate with
  | some c =>
    have hoper : s.operation event = some c.call := by
      unfold QueueState.operation
      rw [hop]
    rw [queueStep_operate hop] at hstep
    unfold QueueState.calls at hstep
    split at hstep
    · next hcaller =>
      rw [Option.map_eq_some_iff] at hstep
      obtain ⟨⟨s₁, ret⟩, heq, hr⟩ := hstep
      obtain ⟨rfl, rfl⟩ := Prod.mk.inj hr
      unfold checked at heq
      split at heq
      · next hret =>
        obtain ⟨rfl, rfl⟩ := Prod.mk.inj (Option.some.inj heq)
        exact (OperateOutcome.refused hi hret (operate_ne_blocked hop)).stepped hoper
      · next hret =>
        obtain ⟨s₂, ret₂, heq₂, hout⟩ := osQueueOperate_spec hi (operate_checked hop (not_not.mp hret)) hcaller
        rw [heq₂, Option.some.injEq, Prod.mk.injEq] at heq
        obtain ⟨rfl, rfl⟩ := heq
        exact hout.stepped hoper
    · cases hstep
  | none =>
    cases event with
    | readCopy | writeHeadCopy | writeCopy | read | write | writeHead => cases hop
    | create len queueID maxMsgSize queue =>
      simp only [queueStep, Option.map_eq_some_iff] at hstep
      obtain ⟨⟨s₁, ret, o⟩, heq, hr⟩ := hstep
      obtain ⟨rfl, rfl⟩ := Prod.mk.inj hr
      rcases losQueueCreate_spec hi heq with ⟨rfl, _⟩ | ⟨_, q, hq, hst, b, _, _, _, hpend, _, hqueue, _, V', hi'⟩
      · exact (MailOutcome.refl hi).stepped rfl fun _ => rfl
      · have hlog : noteLog s (.create len queueID maxMsgSize queue) s₁ (.errno ret) =
            Function.update s.log q [] := by
          funext q'
          show (if newQueue s.toQueueState s₁ q' then [] else s.log q') = _
          by_cases hqq : q' = q
          · rw [hqq, Function.update_self, if_pos]
            unfold newQueue
            rw [hst, hqueue, Function.update_self]
            rfl
          · rw [Function.update_of_ne hqq, if_neg]
            unfold newQueue
            rw [hqueue, Function.update_of_ne hqq, Bool.not_and_self]
            exact Bool.false_ne_true
        refine ⟨⟨_, V', by rw [hlog]; exact hi', fun _ hno => ?_⟩, fun t call hp => .inl ?_,
          .created q hq hst _ _ b hqueue hlog⟩
        · rw [hno]
          exact Function.update_eq_self q noHand
        · rw [← hpend]
          exact hp
    | delete q =>
      simp only [queueStep, Option.some.injEq, Prod.mk.injEq] at hstep
      obtain ⟨rfl, rfl⟩ := hstep
      rcases losQueueDelete_spec hi q with ⟨_, hsame, _⟩ | ⟨_, _, b, V', _, hsame, hi'⟩
      · rw [hsame]
        exact (MailOutcome.refl hi).stepped rfl fun _ => rfl
      · have hlog : noteLog s (.delete q) (losQueueDelete s.toQueueState q).1
            (.errno (losQueueDelete s.toQueueState q).2) = s.log := by
          refine noteLog_other rfl fun q' => ?_
          unfold newQueue
          rw [hsame]
          show (!(s.queue q').queueState && (Function.update s.queue q _ q').queueState) = false
          by_cases hqq : q' = q
          · rw [hqq, Function.update_self, Bool.and_false]
          · rw [Function.update_of_ne hqq, Bool.not_and_self]
        refine ⟨⟨hand, V', by rw [hlog]; exact hi', fun _ hno => hno⟩, fun t call hp => .inl ?_, .deleted q
          { s.queue q with queue := none, queueState := false } rfl ?_ hlog⟩
        · rw [hsame] at hp
          exact hp
        · rw [hsame]
    | mailAlloc intActive q mailPool timeOut mem =>
      simp only [queueStep] at hstep
      split at hstep
      · next hcaller =>
        obtain ⟨rfl, rfl⟩ := Prod.mk.inj (Option.some.inj hstep)
        exact (osQueueMailAlloc_spec hi hcaller hmail).stepped rfl fun _ => rfl
      · cases hstep
    | mailFree q mailPool freed mem =>
      simp only [queueStep, Option.map_eq_some_iff] at hstep
      obtain ⟨⟨s₁, ret⟩, heq, hr⟩ := hstep
      obtain ⟨rfl, rfl⟩ := Prod.mk.inj hr
      obtain ⟨s₂, ret₂, heq₂, hout⟩ := osQueueMailFree_spec hi q mailPool freed mem
      rw [heq₂, Option.some.injEq, Prod.mk.injEq] at heq
      obtain ⟨rfl, rfl⟩ := heq
      exact hout.stepped rfl fun _ => rfl
    | resume =>
      simp only [queueStep] at hstep
      split at hstep
      · next hcall =>
        cases hp : s.pending s.kernel.runTask with
        | none =>
          rw [hp] at hstep
          cases hstep
        | some x =>
          rw [hp, Option.bind_some] at hstep
          cases x with
          | operate call =>
            have hoper : s.operation .resume = some call := by
              unfold QueueState.operation
              rw [hp]
              rfl
            obtain ⟨s₁, ret, heq, hout⟩ := osQueueOperateResume_spec hi hcall hp
            simp only [resumeStep, heq, Option.map_some, Option.some.injEq, Prod.mk.injEq] at hstep
            obtain ⟨rfl, rfl⟩ := hstep
            exact hout.stepped hoper
          | mailAlloc q =>
            have hoper : s.operation .resume = none := by
              unfold QueueState.operation
              rw [hp]
              rfl
            obtain ⟨rfl, rfl⟩ := Prod.mk.inj (Option.some.inj hstep)
            exact (osQueueMailAllocResume_spec hi hcall hp).stepped hoper fun _ => rfl
      · cases hstep
    | kernel e =>
      simp only [queueStep] at hstep
      split at hstep
      · cases hstep
      · rw [Option.map_eq_some_iff] at hstep
        obtain ⟨k, heq, hr⟩ := hstep
        obtain ⟨rfl, rfl⟩ := Prod.mk.inj hr
        obtain ⟨hand', V', hi', hhand⟩ := hi.settle heq
        refine MailOutcome.stepped rfl ⟨⟨V', hi'⟩, fun t call hp => ?_, rfl⟩ hhand
        have hsome : (if (k.status t).unused then none else s.pending t) = some (.operate call) := hp
        split at hsome
        · cases hsome
        · exact hsome

theorem queueBooted_inv {s : QueueState} (log : Nat → List QueueOp) (hmax : gTaskMaxNum ≤ osInvalid)
    (hb : QueueBooted s) : ∃ V, QueueInv s log noHand V := by
  obtain ⟨s₀, hk, hpend, rfl⟩ := hb
  have hpool := @PoolInv.init _ _ _ Config.queueLimit _ hk hmax .queue queueList_inj (fun _ => false)
    fun _ _ => rfl
  obtain ⟨V, hpool, hoff, hloose, htime⟩ := hpool
  have hwaiting : (osQueueInit s₀).waiting = fun _ => none := by
    funext t
    show (s₀.pending t).map _ = _
    rw [hpend]
    rfl
  refine ⟨V, ?_, hpool, fun q _ hst => absurd hst Bool.false_ne_true, fun q hq _ l hl => .inl ?_,
    fun q _ _ _ hst => absurd hst Bool.false_ne_true, fun t call hp => ?_⟩
  · rw [hwaiting]
    exact ⟨fun _ => 0, 0, Waits.init hpool.machine hoff htime⟩
  · refine hloose _ ?_ ?_ fun m hm => ?_
    · rcases hl with rfl | rfl <;> rfl
    · rcases hl with rfl | rfl <;> simp
    · rcases hl with rfl | rfl <;> simp
  · cases (hpend t).symm.trans hp

/-- No slot and no message of queue `q` is lost. -/
structure SlotsConserved (s : LoggedQueue) (q : Nat) : Prop where
  slots : (s.queue q).readWriteableCnt false + (s.queue q).readWriteableCnt true = (s.queue q).queueLen
  stored : readOut (s.log q) + (s.queue q).readWriteableCnt false = written (s.log q)
  readable : readOut (s.log q) < written (s.log q) → ∀ bufferAddr bufferSize, bufferSize ≠ 0 →
    (s.queue q).queueSize - 4 ≤ bufferSize → ∃ s' ret,
      losQueueReadCopy s.toQueueState false q (some bufferAddr) (some bufferSize) 0 = some (s', ret) ∧
        ret.errno = .losOk
  idle : (∀ write, losListEmpty s.kernel (.wait (.readWriteList q write)) = true) →
    losListEmpty s.kernel (.wait (.memList q)) = true → (losQueueDelete s.toQueueState q).2 = .losOk

theorem QueueInv.conserved (hi : QueueInv s.toQueueState s.log noHand V) {q : Nat}
    (hq : q < Config.queueLimit) (hused : (s.queue q).queueState = true)
    (hno : ∀ t, ¬ HoldsSlot s.toQueueState q t) : SlotsConserved s q := by
  have hu := hi.used q hq hused
  have hzero : slotsGranted s.toQueueState q false + slotsGranted s.toQueueState q true = 0 := by
    by_contra hne
    obtain ⟨t, ht⟩ := hi.holder_iff.mpr hne
    exact hno t ht
  have hz : ∀ write, noHand q write = 0 := fun _ => rfl
  have hslots := hu.slots
  have hstored := hu.stored
  rw [hz, hz] at hslots
  rw [hz] at hstored
  have hsum : (s.queue q).readWriteableCnt false + (s.queue q).readWriteableCnt true =
      (s.queue q).queueLen := by omega
  have hcount : readOut (s.log q) + (s.queue q).readWriteableCnt false = written (s.log q) := by omega
  refine ⟨hsum, hcount, fun hlt bufferAddr bufferSize hsize hlarge => ?_, fun hlists hmail => ?_⟩
  · have hcheck : osQueueReadParameterCheck false q true true bufferSize 0 = .losOk := by
      unfold osQueueReadParameterCheck
      rw [if_neg (by omega), if_neg (by simp), if_neg hsize, if_neg (by simp)]
    have hret : osQueueOperateParamCheck (s.queue q) ⟨false, false, false⟩ bufferSize = .losOk := by
      unfold osQueueOperateParamCheck
      rw [if_neg (by rw [hused]; decide), if_neg (fun h => absurd h.2 (by omega)), if_neg (by simp)]
    obtain ⟨s', ret, heq, hok, _⟩ := @osQueueOperate_counted _ _ _ _ _
      ⟨false, .losOk, ⟨q, ⟨false, false, false⟩, bufferAddr, bufferSize⟩, 0⟩ hi
      ⟨hq, hsize, fun _ => rfl, fun _ => rfl, nofun⟩ hret (show (s.queue q).readWriteableCnt false ≠ 0 by omega)
    refine ⟨s', ret, ?_, hok⟩
    exact (if_neg (not_not.mpr hcheck)).trans heq
  · rcases losQueueDelete_spec hi q with ⟨hno, _, _⟩ | ⟨_, hok, _⟩
    · exact absurd ⟨hq, hused, hlists, hmail, by omega⟩ hno
    · exact hok

/-- The steps of a run in which no task is deleted while it has a slot. -/
def keepingStep (s : LoggedQueue) (event : QueueEvent) (s' : LoggedQueue) : Prop :=
  ¬ LosesSlot s.toQueueState event ∧ ¬ MailInLock s.toQueueState event ∧ loggedStep s event = some s'

theorem keepingRun_inv {s₀ : LoggedQueue} {events : List QueueEvent} (hmax : gTaskMaxNum ≤ osInvalid)
    (hb : QueueBooted s₀.toQueueState) (hrun : Run keepingStep s₀ events s) :
    ∃ V, QueueInv s.toQueueState s.log noHand V := by
  refine run_invariant (fun s => ∃ V, QueueInv s.toQueueState s.log noHand V) ?_ hrun
    (queueBooted_inv s₀.log hmax hb)
  rintro s event s₁ ⟨V, hi⟩ ⟨hkeep, hmail, hstep⟩
  unfold loggedStep at hstep
  rw [Option.map_eq_some_iff] at hstep
  obtain ⟨⟨s', r⟩, hq, rfl⟩ := hstep
  obtain ⟨hand', V', hi', hhand⟩ := (queueStep_spec hi hmail hq).inv
  obtain rfl := hhand hkeep rfl
  exact ⟨V', hi'⟩

/-- Slots are conserved as long as no task is deleted that has one. -/
theorem losQueue_slots {s₀ : LoggedQueue} {events : List QueueEvent} {q : Nat} (hmax : gTaskMaxNum ≤ osInvalid)
    (hb : QueueBooted s₀.toQueueState) (hrun : Run keepingStep s₀ events s) (hq : q < Config.queueLimit)
    (hused : (s.queue q).queueState = true) (hno : ∀ t < gTaskMaxNum, ¬ HoldsSlot s.toQueueState q t) :
    SlotsConserved s q := by
  obtain ⟨V, hi⟩ := keepingRun_inv hmax hb hrun
  refine hi.conserved hq hused fun t ht => hno t ?_ ht
  obtain ⟨since, clock, hw⟩ := hi.waits
  obtain ⟨call, hp, _⟩ := ht
  refine hw.bound t ?_
  unfold QueueState.waiting
  rw [hp]
  rfl

end

def smallLogged : LoggedQueue := ⟨smallQueue, fun _ => []⟩

def createQueue : QueueEvent := .create 1 true 4 (some ⟨100, fun _ => 0⟩)

/-- A queue of one message, a task that blocks reading it, and another one that writes. -/
def readThenWrite : List QueueEvent :=
  [createQueue,
    .kernel (.create true (some { pfnTaskEntry := some 7, usTaskPrio := 10, uwStackSize := 64
                                  pcName := some "reader" }) true),
    .kernel (.create true (some { pfnTaskEntry := some 8, usTaskPrio := 10, uwStackSize := 64
                                  pcName := some "writer" }) true),
    .kernel .start, .readCopy false 0 (some fun _ => 0) (some 4) 0xFFFFFFFF, .kernel .pendSV,
    .writeCopy false 0 (some fun _ => 7) 4 0, .kernel .pendSV]

omit [Config] in
/-- The reader comes back and takes its message. -/
theorem losQueue_slots_resumed :
    letI := smallConfig
    ∃ s, Run keepingStep smallLogged (readThenWrite ++ [.kernel .yield, .kernel .pendSV, .resume]) s ∧
      written (s.log 0) = 1 ∧ SlotsConserved s 0 := by
  let := smallConfig
  have hrun : ((readThenWrite ++ [QueueEvent.kernel .yield, .kernel .pendSV, .resume]).foldlM loggedStep
      smallLogged).map (fun s => ((s.queue 0).queueState, written (s.log 0), (s.pending 0).isNone,
        (s.pending 1).isNone, (s.pending 2).isNone)) = some (true, 1, true, true, true) := by decide +kernel
  rw [Option.map_eq_some_iff] at hrun
  obtain ⟨s, hs, hval⟩ := hrun
  simp only [Prod.mk.injEq, Option.isNone_iff_eq_none] at hval
  obtain ⟨hused, hlog, h0, h1, h2⟩ := hval
  have hkeep : Run keepingStep smallLogged
      (readThenWrite ++ [.kernel .yield, .kernel .pendSV, .resume]) s := by
    refine run_mono_mem (run_of_foldlM hs) fun s t a ha hstep => ⟨?_, ?_, hstep⟩
    · rintro ⟨_, _, rfl, _⟩
      simp [readThenWrite, createQueue] at ha
    · rintro ⟨_, _, rfl, _⟩
      simp [readThenWrite, createQueue] at ha
  refine ⟨s, hkeep, hlog, losQueue_slots (by decide) smallQueue_booted hkeep (by decide) hused ?_⟩
  rintro t ht ⟨call, hp, _⟩
  have hcase : t = 0 ∨ t = 1 ∨ t = 2 := by
    have h3 : t < 3 := ht
    omega
  rcases hcase with rfl | rfl | rfl
  · cases h0.symm.trans hp
  · cases h1.symm.trans hp
  · cases h2.symm.trans hp

omit [Config] in
/-- The reader is deleted after it has been woken: its slot and the message are lost for good. -/
theorem losQueue_slots_lost :
    letI := smallConfig
    ∃ s, QueueBooted smallLogged.toQueueState ∧
      Run (fun s event s' => loggedStep s event = some s') smallLogged
        (readThenWrite ++ [.kernel (.delete 1)]) s ∧
      (s.queue 0).queueState = true ∧ (∀ t < gTaskMaxNum, ¬ HoldsSlot s.toQueueState 0 t) ∧
      readOut (s.log 0) = 0 ∧ written (s.log 0) = 1 ∧ (s.queue 0).readWriteableCnt false = 0 ∧
      (losQueueDelete s.toQueueState 0).2 = .queueInTskwrite ∧ ¬ SlotsConserved s 0 := by
  let := smallConfig
  have hrun : ((readThenWrite ++ [QueueEvent.kernel (.delete 1)]).foldlM loggedStep smallLogged).map
      (fun s => (((s.queue 0).queueState, readOut (s.log 0), written (s.log 0),
        (s.queue 0).readWriteableCnt false, (losQueueDelete s.toQueueState 0).2),
        (s.pending 0).isNone, (s.pending 1).isNone, (s.pending 2).isNone)) =
      some ((true, 0, 1, 0, .queueInTskwrite), true, true, true) := by decide +kernel
  rw [Option.map_eq_some_iff] at hrun
  obtain ⟨s, hs, hval⟩ := hrun
  simp only [Prod.mk.injEq, Option.isNone_iff_eq_none] at hval
  obtain ⟨⟨hused, hread, hwritten, hcnt, hdelete⟩, h0, h1, h2⟩ := hval
  refine ⟨s, smallQueue_booted, run_of_foldlM hs, hused, ?_, hread, hwritten, hcnt, hdelete, fun h => ?_⟩
  · rintro t ht ⟨call, hp, _⟩
    have hcase : t = 0 ∨ t = 1 ∨ t = 2 := by
      have h3 : t < 3 := ht
      omega
    rcases hcase with rfl | rfl | rfl
    · cases h0.symm.trans hp
    · cases h1.symm.trans hp
    · cases h2.symm.trans hp
  · have hstored := h.stored
    rw [hread, hwritten, hcnt] at hstored
    cases hstored

end LiteosM.Ipc
