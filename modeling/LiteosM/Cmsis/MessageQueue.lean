import LiteosM.Cmsis.Semaphore
import LiteosM.Ipc.QueueAtomic
import LiteosM.Ipc.QueueDeque
import LiteosM.Lib.Word32
import LiteosM.Posix.MqueueOpen

/-!
# The message queues of CMSIS

`osMessageQueueNew` of `cmsis_liteos2.c` takes two 32-bit numbers, and the kernel has 16 bits for each.
-/

namespace LiteosM.Cmsis

open LiteosM.Kernel LiteosM.Ipc LiteosM.Lib.DlList LiteosM.Lib.Transition LiteosM.Lib.ByteMemory LiteosM.Lib.Word32
open LiteosM.Mqueue (Creatable QueueMade losQueueCreate_made nextQueue)

/-- The field of the control block that a handle points to. -/
def queueID (pstQueue : Nat) : Nat := pstQueue % 2 ^ 16

/-- `queue` is what `LOS_MemAlloc` returns. A handle is the index of its control block. -/
def osMessageQueueNew (s : QueueState) (intActive : Bool) (msgCount msgSize : BitVec 32)
    (queue : Option Block) : Option (QueueState × Option Nat) :=
  if 0#32 = msgCount ∨ 0#32 = msgSize ∨ intActive then some (s, none)
  else do
    let (s, uwRet, uwQueueID) ← losQueueCreate s (uint16 msgCount) true (uint16 msgSize) queue
    if uwRet = .losOk then some (s, uwQueueID) else some (s, none)

/-- What the calls below make of a result of the kernel. A caller that blocks has none yet. -/
def queueStatus : QueueErrno → Option OsStatus
  | .losOk => some .osOK
  | .queueInvalid => some .osErrorParameter
  | .queueNotCreate => some .osErrorParameter
  | .queueTimeout => some .osErrorTimeout
  | .blocked => none
  | _ => some .osErrorResource

/-- What is at `msg_ptr` after a call, and its status. -/
structure MessageReturn where
  status : Option OsStatus
  msgPtr : Option Memory

def messageReturn (r : OperateReturn) : MessageReturn := ⟨queueStatus r.errno, some r.bufferAddr⟩

section

variable [Config]

def osMessageQueuePut (s : QueueState) (intActive : Bool) (mqId : Option Nat) (msgPtr : Option Memory)
    (timeout : Nat) : Option (QueueState × MessageReturn) :=
  match mqId, msgPtr with
  | some pstQueue, some msg =>
    if intActive ∧ timeout ≠ 0 then some (s, ⟨some .osErrorParameter, msgPtr⟩)
    else if (s.queue pstQueue).queueSize < 4 then some (s, ⟨some .osErrorParameter, msgPtr⟩)
    else
      let uwBufferSize := sub32 (s.queue pstQueue).queueSize 4
      (losQueueWriteCopy s intActive (queueID pstQueue) (some msg) uwBufferSize timeout).map fun r =>
        (r.1, messageReturn r.2)
  | _, _ => some (s, ⟨some .osErrorParameter, msgPtr⟩)

def osMessageQueueGet (s : QueueState) (intActive : Bool) (mqId : Option Nat) (msgPtr : Option Memory)
    (timeout : Nat) : Option (QueueState × MessageReturn) :=
  match mqId, msgPtr with
  | some pstQueue, some msg =>
    if intActive ∧ timeout ≠ 0 then some (s, ⟨some .osErrorParameter, msgPtr⟩)
    else
      let uwBufferSize := sub32 (s.queue pstQueue).queueSize 4
      (losQueueReadCopy s intActive (queueID pstQueue) (some msg) (some uwBufferSize) timeout).map fun r =>
        (r.1, messageReturn r.2)
  | _, _ => some (s, ⟨some .osErrorParameter, msgPtr⟩)

/-- The rest of `osMessageQueuePut` or `osMessageQueueGet` for a task that blocked in it. -/
def osMessageQueueResume (s : QueueState) (call : QueueCall) : Option (QueueState × MessageReturn) :=
  (osQueueOperateResume s call).map fun r => (r.1, messageReturn r.2)

def osMessageQueueDelete (s : QueueState) (intActive : Bool) (mqId : Option Nat) : QueueState × OsStatus :=
  match mqId with
  | none => (s, .osErrorParameter)
  | some pstQueue =>
    if intActive then (s, .osErrorISR)
    else
      let r := losQueueDelete s (queueID pstQueue)
      (r.1, if r.2 = .losOk then .osOK
        else if r.2 = .queueNotFound ∨ r.2 = .queueNotCreate then .osErrorParameter
        else .osErrorResource)

end

inductive MessageEvent
  | new (intActive : Bool) (msgCount msgSize : BitVec 32) (queue : Option Block)
  | put (intActive : Bool) (mqId : Option Nat) (msgPtr : Option Memory) (timeout : Nat)
  | get (intActive : Bool) (mqId : Option Nat) (msgPtr : Option Memory) (timeout : Nat)
  | delete (intActive : Bool) (mqId : Option Nat)
  | resume
  | kernel (event : KernelEvent)

variable [Config]

/-- A handle is null or points to a control block. -/
def isHandle (mqId : Option Nat) : Bool := mqId.all fun pstQueue => pstQueue < Config.queueLimit

/-- Tasks and interrupts call in any order. A task that waits makes no call. -/
def messageStep (s : QueueState) : MessageEvent → Option QueueState
  | .new intActive msgCount msgSize queue =>
    (osMessageQueueNew s intActive msgCount msgSize queue).map Prod.fst
  | .put intActive mqId msgPtr timeout =>
    if (intActive ∨ s.free) ∧ isHandle mqId then
      (osMessageQueuePut s intActive mqId msgPtr timeout).map Prod.fst
    else none
  | .get intActive mqId msgPtr timeout =>
    if (intActive ∨ s.free) ∧ isHandle mqId then
      (osMessageQueueGet s intActive mqId msgPtr timeout).map Prod.fst
    else none
  | .delete intActive mqId => some (osMessageQueueDelete s intActive mqId).1
  | .resume =>
    match s.pending s.kernel.runTask with
    | some (.operate call) =>
      if s.kernel.calling then (osMessageQueueResume s call).map Prod.fst else none
    | _ => none
  | .kernel event =>
    if event.own ∧ (s.pending s.kernel.runTask).isSome then none
    else (kernelStep s.kernel event).map s.settle

def keepsQueue (q : Nat) (s : QueueState) (event : MessageEvent) (s' : QueueState) : Prop :=
  messageStep s event = some s' ∧ (s'.queue q).queueState = true

def putStep (intActive : Bool) (q : Nat) (s : QueueState) (message : Memory) (s' : QueueState) : Prop :=
  ∃ msgPtr, osMessageQueuePut s intActive (some q) (some message) 0 = some (s', ⟨some .osOK, msgPtr⟩)

/-- The queue never holds more than `count` messages, nor one of more than `size` bytes, and any `count`
messages of `size` bytes fill it. -/
structure HoldsExactly (s : QueueState) (q count size : Nat) : Prop where
  bounded : ∀ events s', Run (keepsQueue q) s events s' → ∃ d, RingAt (s'.queue q) d ∧ d.length ≤ count ∧
    ∀ message ∈ d, message.length ≤ size
  fills : ∀ intActive messages, messages.length = count → ∃ s', Run (putStep intActive q) s messages s' ∧
    RingAt (s'.queue q) (messages.map fun m => messageOf m size) ∧ ∀ message,
      osMessageQueuePut s' intActive (some q) (some message) 0 = some (s', ⟨some .osErrorResource, some message⟩)

/-- The kernel can have a queue with these numbers. -/
def QueueFits (msgCount msgSize : Nat) : Prop :=
  (0 < msgCount ∧ msgCount < 2 ^ 16) ∧ 0 < msgSize ∧ msgSize ≤ osNullShort - 4

/-- A handle stands for a queue as it was asked for. What does not fit gets none. -/
def QueueHonours (s : QueueState) (intActive : Bool) (msgCount msgSize : BitVec 32) (queue : Option Block) :
    Prop :=
  ∀ s' handle, osMessageQueueNew s intActive msgCount msgSize queue = some (s', handle) →
    (∀ q, handle = some q → HoldsExactly s' q msgCount.toNat msgSize.toNat) ∧
    (¬ QueueFits msgCount.toNat msgSize.toNat → handle = none)

/-- An interrupt gets no queue, nobody does when the heap or the control blocks are used up, and numbers
that the kernel refuses as they come to it give none. -/
def NoQueue (s : QueueState) (intActive : Bool) (msgCount msgSize : BitVec 32) (queue : Option Block) : Prop :=
  intActive = true ∨ queue = none ∨ losListEmpty s.kernel .gFreeQueueList = true ∨
    msgCount.toNat % 2 ^ 16 = 0 ∨ msgSize.toNat % 2 ^ 16 = 0 ∨ osNullShort - 4 < msgSize.toNat % 2 ^ 16

/-- The invariant of the kernel's queues holds with some history, and only copies of messages are in
them. -/
def MessagesReached (s : QueueState) : Prop :=
  ∃ l : LoggedQueue, l.toQueueState = s ∧ DequeInv l ∧ ∃ hand V, QueueInv s l.log hand V

section

variable {s s' : QueueState} {event : MessageEvent} {e : QueueEvent} {r : QueueReturn} {q count size : Nat}
  {intActive : Bool} {msgCount msgSize : BitVec 32} {queue : Option Block} {d : List (List Byte)}

theorem messagesReached_of_booted (hmax : gTaskMaxNum ≤ osInvalid) (hb : QueueBooted s) : MessagesReached s := by
  obtain ⟨V, hi⟩ := queueBooted_inv (fun _ => []) hmax hb
  refine ⟨⟨s, fun _ => []⟩, rfl, ⟨fun q _ hst => ?_, fun t call hp => ?_⟩, noHand, V, hi⟩
  all_goals obtain ⟨s₀, _, hpend, rfl⟩ := hb
  · cases hst
  · cases (hpend t).symm.trans hp

theorem effect_keeps {l : LoggedQueue} {hand : Nat → Bool → Nat} {V : View Node} (hi : QueueInv l.toQueueState l.log hand V)
    (h : QueueEffect l e s' r) (hused : (l.queue q).queueState = true)
    (hused' : (s'.queue q).queueState = true) :
    (s'.queue q).queueLen = (l.queue q).queueLen ∧ (s'.queue q).queueSize = (l.queue q).queueSize := by
  cases h with
  | same hqueue _ => rw [hqueue]; exact ⟨rfl, rfl⟩
  | completed call ret _ _ hret hout =>
    obtain ⟨hand', hout⟩ := hout
    obtain ⟨hq, hst, hcall, cnt, cnt', cb, heq, hqueue⟩ := hout.done hret
    by_cases hqq : q = call.queueID
    · have hu := hi.used _ hq hst
      obtain ⟨b, hb, _⟩ := hu.block
      obtain ⟨cb₁, _, _, heq₁, hop⟩ := @osQueueBufferOperate_spec
        { l.queue call.queueID with readWriteableCnt := cnt } call b (hu.shape.setCnt cnt) hb hcall.head
      rw [heq, Option.some.injEq, Prod.mk.injEq] at heq₁
      rw [← heq₁.1] at hop
      rw [hqueue, hqq, Function.update_self]
      exact ⟨hop.queueLen, hop.queueSize⟩
    · rw [hqueue, Function.update_of_ne hqq]
      exact ⟨rfl, rfl⟩
  | created q₁ _ hst₁ _ _ _ hqueue _ =>
    have hqq : q ≠ q₁ := by
      rintro rfl
      cases hst₁.symm.trans hused
    rw [hqueue, Function.update_of_ne hqq]
    exact ⟨rfl, rfl⟩
  | deleted q₁ cb hcb hqueue _ =>
    have hqq : q ≠ q₁ := by
      rintro rfl
      rw [hqueue, Function.update_self, hcb] at hused'
      cases hused'
    rw [hqueue, Function.update_of_ne hqq]
    exact ⟨rfl, rfl⟩

theorem MessagesReached.step (hs : MessagesReached s) (hstep : Ipc.queueStep s e = some (s', r))
    (hmail : ¬ MailInLock s e) (hcopy : ∀ call, s.operation e = some call → CopyCall call) :
    MessagesReached s' ∧ ((s.queue q).queueState = true → (s'.queue q).queueState = true →
      (s'.queue q).queueLen = (s.queue q).queueLen ∧ (s'.queue q).queueSize = (s.queue q).queueSize) := by
  obtain ⟨l, rfl, hd, hand, V, hi⟩ := hs
  have h := queueStep_spec hi hmail hstep
  obtain ⟨hand', V', hi', _⟩ := h.inv
  exact ⟨⟨l.note e s' r, rfl, hd.step hi hcopy h, hand', V', hi'⟩, effect_keeps hi h.effect⟩

omit [Config] in
theorem osMessageQueueNew_eq (h : ¬ (0#32 = msgCount ∨ 0#32 = msgSize ∨ intActive = true)) :
    osMessageQueueNew s intActive msgCount msgSize queue =
      (losQueueCreate s (uint16 msgCount) true (uint16 msgSize) queue).map fun r =>
        if r.2.1 = .losOk then (r.1, r.2.2) else (r.1, none) := by
  unfold osMessageQueueNew
  rw [if_neg h]
  cases losQueueCreate s (uint16 msgCount) true (uint16 msgSize) queue with
  | none => rfl
  | some r =>
    simp only [Option.bind_eq_bind, Option.bind_some, Option.map_some]
    split <;> rfl

theorem MessagesReached.shape (hs : MessagesReached s) (hq : q < Config.queueLimit)
    (hused : (s.queue q).queueState = true) : CbOk (s.queue q) := by
  obtain ⟨l, rfl, _, hand, V, hi⟩ := hs
  exact (hi.used q hq hused).shape

omit [Config] in
theorem messageSize_eq {cb : LosQueueCB} (h : CbOk cb) : sub32 cb.queueSize 4 = cb.queueSize - 4 := by
  have hroom := h.room
  have hsize := h.size
  exact sub32_of_le _ _ (by omega) (by omega)

theorem isHandle_some (h : isHandle (some q) = true) (hlim : Config.queueLimit ≤ 2 ^ 16) :
    q < Config.queueLimit ∧ queueID q = q := by
  have hq : q < Config.queueLimit := by simpa [isHandle] using h
  exact ⟨hq, Nat.mod_eq_of_lt (by omega)⟩

theorem checked_unused {ret : QueueErrno} {call : QueueCall} {timeOut : Nat} {o : OperateReturn}
    (hst : (s.queue call.queueID).queueState = false) (h : checked s ret call timeOut = some (s', o)) :
    s' = s := by
  unfold checked at h
  split at h
  · exact (congrArg Prod.fst (Option.some.inj h)).symm
  · have hcheck : osQueueOperateParamCheck (s.queue call.queueID) call.operateType call.bufferSize =
        .queueNotCreate := by
      unfold osQueueOperateParamCheck
      rw [hst]
      rfl
    unfold osQueueOperate at h
    dsimp only at h
    rw [hcheck, if_pos (by decide)] at h
    exact (congrArg Prod.fst (Option.some.inj h)).symm

theorem put_copies {msg : Option Memory} {n timeout : Nat} {call : QueueCall}
    (h : s.operation (.writeCopy intActive q msg n timeout) = some call) : CopyCall call := by
  obtain rfl := Option.some.inj h
  exact ⟨rfl, nofun⟩

theorem get_copies {msg : Option Memory} {n timeout : Nat} {call : QueueCall} (hn : n ≤ secureMemMaxLen)
    (h : s.operation (.readCopy intActive q msg (some n) timeout) = some call) : CopyCall call := by
  obtain rfl := Option.some.inj h
  exact ⟨rfl, fun _ => hn⟩

theorem messageStep_kernel (hs : MessagesReached s) (hlim : Config.queueLimit ≤ 2 ^ 16)
    (h : messageStep s event = some s') :
    s' = s ∨ ∃ e r, Ipc.queueStep s e = some (s', r) ∧ ¬ MailInLock s e ∧
      ∀ call, s.operation e = some call → CopyCall call := by
  cases event with
  | new intActive msgCount msgSize queue =>
    simp only [messageStep] at h
    by_cases hno : 0#32 = msgCount ∨ 0#32 = msgSize ∨ intActive = true
    · rw [osMessageQueueNew, if_pos hno] at h
      exact .inl (Option.some.inj h).symm
    · rw [osMessageQueueNew_eq hno, Option.map_map, Option.map_eq_some_iff] at h
      obtain ⟨⟨s₁, ret, o⟩, hcreate, rfl⟩ := h
      refine .inr ⟨.create (uint16 msgCount) true (uint16 msgSize) queue, .errno ret, ?_, ?_, fun _ h => (by cases h)⟩
      · simp only [Ipc.queueStep, hcreate, Option.map_some, Function.comp_apply]
        split <;> rfl
      · rintro ⟨_, _, he, _⟩
        cases he
  | put intActive mqId msgPtr timeout =>
    simp only [messageStep] at h
    split at h
    · next hcaller =>
      rw [Option.map_eq_some_iff] at h
      obtain ⟨⟨s₁, ret⟩, hcall, rfl⟩ := h
      unfold osMessageQueuePut at hcall
      split at hcall
      · next pstQueue msg =>
        split at hcall
        · exact .inl (congrArg Prod.fst (Option.some.inj hcall)).symm
        split at hcall
        · exact .inl (congrArg Prod.fst (Option.some.inj hcall)).symm
        rw [Option.map_eq_some_iff] at hcall
        obtain ⟨⟨s₂, o⟩, hwrite, heq⟩ := hcall
        obtain ⟨rfl, _⟩ := Prod.mk.inj heq
        refine .inr ⟨.writeCopy intActive (queueID pstQueue) (some msg)
          (sub32 (s.queue pstQueue).queueSize 4) timeout, .operate o, ?_, ?_, fun _ => put_copies⟩
        · simp only [Ipc.queueStep, QueueState.calls, if_pos hcaller.1, hwrite, Option.map_some]
        · rintro ⟨_, _, he, _⟩
          cases he
      · exact .inl (congrArg Prod.fst (Option.some.inj hcall)).symm
    · cases h
  | get intActive mqId msgPtr timeout =>
    simp only [messageStep] at h
    split at h
    · next hcaller =>
      rw [Option.map_eq_some_iff] at h
      obtain ⟨⟨s₁, ret⟩, hcall, rfl⟩ := h
      unfold osMessageQueueGet at hcall
      split at hcall
      · next pstQueue msg =>
        split at hcall
        · exact .inl (congrArg Prod.fst (Option.some.inj hcall)).symm
        rw [Option.map_eq_some_iff] at hcall
        obtain ⟨⟨s₂, o⟩, hread, heq⟩ := hcall
        obtain ⟨rfl, _⟩ := Prod.mk.inj heq
        obtain ⟨hq, hid⟩ := isHandle_some hcaller.2 hlim
        cases hst : (s.queue pstQueue).queueState with
        | false => exact .inl (checked_unused (by rw [hid]; exact hst) hread)
        | true =>
          have hok := hs.shape hq hst
          have hsmall : sub32 (s.queue pstQueue).queueSize 4 ≤ secureMemMaxLen := by
            have hsize := hok.size
            rw [messageSize_eq hok, secureMemMaxLen]
            omega
          refine .inr ⟨.readCopy intActive (queueID pstQueue) (some msg)
            (some (sub32 (s.queue pstQueue).queueSize 4)) timeout, .operate o, ?_, ?_, fun _ => get_copies hsmall⟩
          · simp only [Ipc.queueStep, QueueState.calls, if_pos hcaller.1, hread, Option.map_some]
          · rintro ⟨_, _, he, _⟩
            cases he
      · exact .inl (congrArg Prod.fst (Option.some.inj hcall)).symm
    · cases h
  | delete intActive mqId =>
    simp only [messageStep, osMessageQueueDelete, Option.some.injEq] at h
    subst h
    cases mqId with
    | none => exact .inl rfl
    | some pstQueue =>
      dsimp only
      split
      · exact .inl rfl
      · refine .inr ⟨.delete (queueID pstQueue), _, rfl, ?_, fun _ h => (by cases h)⟩
        rintro ⟨_, _, he, _⟩
        cases he
  | resume =>
    simp only [messageStep] at h
    split at h
    · next call hp =>
      split at h
      · next hcall =>
        rw [Option.map_eq_some_iff] at h
        obtain ⟨⟨s₁, ret⟩, hend, rfl⟩ := h
        unfold osMessageQueueResume at hend
        rw [Option.map_eq_some_iff] at hend
        obtain ⟨⟨s₂, o⟩, hrest, heq⟩ := hend
        obtain ⟨rfl, _⟩ := Prod.mk.inj heq
        refine .inr ⟨.resume, .operate o, ?_, ?_, fun call' hop => ?_⟩
        · simp only [Ipc.queueStep, if_pos hcall, hp, Option.bind_some, resumeStep, hrest, Option.map_some]
        · rintro ⟨_, _, he, _⟩
          cases he
        · obtain ⟨l, rfl, hd, _⟩ := hs
          have hcall' : l.operation .resume = some call := by
            unfold QueueState.operation
            rw [hp]
            rfl
          obtain rfl := Option.some.inj (hcall'.symm.trans hop)
          exact hd.calls _ _ hp
      · cases h
    · cases h
  | kernel e =>
    simp only [messageStep] at h
    split at h
    · cases h
    · next hcaller =>
      rw [Option.map_eq_some_iff] at h
      obtain ⟨k, hk, rfl⟩ := h
      refine .inr ⟨.kernel e, .errno .losOk, ?_, ?_, fun _ h => (by cases h)⟩
      · simp only [Ipc.queueStep, if_neg hcaller, hk, Option.map_some]
      · rintro ⟨_, _, he, _⟩
        cases he

theorem MessagesReached.next (hs : MessagesReached s) (hlim : Config.queueLimit ≤ 2 ^ 16)
    (h : messageStep s event = some s') :
    MessagesReached s' ∧ ((s.queue q).queueState = true → (s'.queue q).queueState = true →
      (s'.queue q).queueLen = (s.queue q).queueLen ∧ (s'.queue q).queueSize = (s.queue q).queueSize) := by
  rcases messageStep_kernel hs hlim h with rfl | ⟨e, r, hstep, hmail, hcopy⟩
  · exact ⟨hs, fun _ _ => ⟨rfl, rfl⟩⟩
  · exact hs.step hstep hmail hcopy

theorem MessagesReached.stored (hs : MessagesReached s) (hq : q < Config.queueLimit)
    (hused : (s.queue q).queueState = true) : ∃ d, RingAt (s.queue q) d ∧
      d.length ≤ (s.queue q).queueLen ∧ ∀ message ∈ d, message.length ≤ (s.queue q).queueSize - 4 := by
  obtain ⟨l, rfl, hd, _⟩ := hs
  obtain ⟨d, _, hring⟩ := hd.rings q hq hused
  refine ⟨d, hring, ?_, fun message hmem => ?_⟩
  · obtain ⟨_, _, hholds, _⟩ := hring
    exact hholds.room
  · obtain ⟨_, _, hholds, _⟩ := hring
    obtain ⟨i, hi⟩ := List.mem_iff_getElem?.mp hmem
    exact (hholds.spot i message hi).fits

theorem messages_bounded (hs : MessagesReached s) (hlim : Config.queueLimit ≤ 2 ^ 16)
    (hq : q < Config.queueLimit) (hused : (s.queue q).queueState = true) {events : List MessageEvent}
    (hrun : Run (keepsQueue q) s events s') : ∃ d, RingAt (s'.queue q) d ∧
      d.length ≤ (s.queue q).queueLen ∧ ∀ message ∈ d, message.length ≤ (s.queue q).queueSize - 4 := by
  have hkeep : MessagesReached s' ∧ (s'.queue q).queueState = true ∧
      (s'.queue q).queueLen = (s.queue q).queueLen ∧ (s'.queue q).queueSize = (s.queue q).queueSize := by
    refine run_invariant (fun t => MessagesReached t ∧ (t.queue q).queueState = true ∧
      (t.queue q).queueLen = (s.queue q).queueLen ∧ (t.queue q).queueSize = (s.queue q).queueSize) ?_ hrun
      ⟨hs, hused, rfl, rfl⟩
    intro t event t' ⟨ht, hlive, hlen, hsize⟩ ⟨hstep, hlive'⟩
    obtain ⟨ht', hsame⟩ := @MessagesReached.next _ t t' event q ht hlim hstep
    obtain ⟨hlen', hsize'⟩ := hsame hlive hlive'
    exact ⟨ht', hlive', hlen'.trans hlen, hsize'.trans hsize⟩
  obtain ⟨hs', hused', hlen, hsize⟩ := hkeep
  rw [← hlen, ← hsize]
  exact hs'.stored hq hused'

/-- A queue with these messages for which no reader waits. -/
structure Filling (s : QueueState) (q count size : Nat) (d : List (List Byte)) : Prop where
  bound : q < Config.queueLimit
  used : (s.queue q).queueState = true
  shape : CbOk (s.queue q)
  len : (s.queue q).queueLen = count
  size : (s.queue q).queueSize = size + 4
  ring : RingAt (s.queue q) d
  room : (s.queue q).readWriteableCnt true + d.length = count
  alone : losListEmpty s.kernel (.wait (.readWriteList q false)) = true

theorem Filling.put_eq (h : Filling s q count size d) (hlim : Config.queueLimit ≤ 2 ^ 16) (message : Memory) :
    osMessageQueuePut s intActive (some q) (some message) 0 =
      (osQueueOperate s ⟨q, ⟨true, true, false⟩, message, size⟩ 0).map fun r => (r.1, messageReturn r.2) := by
  have hq := h.bound
  have hroom := h.shape.room
  have hsize : sub32 (s.queue q).queueSize 4 = size := by
    rw [messageSize_eq h.shape, h.size, Nat.add_sub_cancel]
  have hpos : size ≠ 0 := by
    rw [h.size] at hroom
    omega
  have hid : queueID q = q := Nat.mod_eq_of_lt (by omega)
  have hcheck : osQueueWriteParameterCheck intActive q true size 0 = .losOk := by
    unfold osQueueWriteParameterCheck
    rw [if_neg (by omega), if_neg (by simp), if_neg hpos, if_neg (by simp)]
  unfold osMessageQueuePut
  dsimp only
  rw [if_neg (by simp), if_neg (by omega), hsize, hid]
  unfold losQueueWriteCopy checked
  rw [Option.isSome_some, hcheck, if_neg (by simp)]
  rfl

theorem Filling.check (h : Filling s q count size d) :
    osQueueOperateParamCheck (s.queue q) ⟨true, true, false⟩ size = .losOk := by
  unfold osQueueOperateParamCheck
  rw [h.used, h.size, Nat.add_sub_cancel, if_neg (by decide), if_neg (by simp), if_neg (by simp)]

theorem Filling.put (h : Filling s q count size d) (hlim : Config.queueLimit ≤ 2 ^ 16)
    (hlt : d.length < count) (message : Memory) :
    ∃ s', putStep intActive q s message s' ∧ Filling s' q count size (d ++ [messageOf message size]) := by
  have hroom := h.room
  have hlen := h.len
  have hmax := h.shape.len
  have hok : CallOk (s.queue q) ⟨q, ⟨true, true, false⟩, message, size⟩ := by
    have hmin := h.shape.room
    rw [h.size] at hmin
    refine ⟨nofun, ?_, fun _ => ?_, nofun, nofun⟩
    · show size ≠ 0
      omega
    · show size ≤ (s.queue q).queueSize - 4
      rw [h.size, Nat.add_sub_cancel]
  -- the slot is taken, the message copied, and the slot counted as readable
  obtain ⟨cnt, hcnt⟩ : ∃ cnt, cnt = Function.update (s.queue q).readWriteableCnt true
      ((s.queue q).readWriteableCnt true - 1) := ⟨_, rfl⟩
  obtain ⟨b, hb, _⟩ := h.ring
  obtain ⟨cb, bufferAddr, bufferSize, hop, hoper⟩ := @osQueueBufferOperate_spec
    { s.queue q with readWriteableCnt := cnt } ⟨q, ⟨true, true, false⟩, message, size⟩ b
    (h.shape.setCnt cnt) hb nofun
  have hring := @RingAt.write d { s.queue q with readWriteableCnt := cnt } cb
    ⟨q, ⟨true, true, false⟩, message, size⟩ h.ring (h.shape.setCnt cnt) (hok.congr rfl) ⟨rfl, nofun⟩ rfl
    (by show d.length < (s.queue q).queueLen; omega) _ _ hop
  have hend : osQueueOperateEnd (s.setQueue q { s.queue q with readWriteableCnt := cnt })
      ⟨q, ⟨true, true, false⟩, message, size⟩ =
      some (((s.setQueue q { s.queue q with readWriteableCnt := cnt }).setQueue q cb).setQueue q { cb with
        readWriteableCnt := Function.update cb.readWriteableCnt false
          ((cb.readWriteableCnt false + 1) % 2 ^ 16) }, ⟨.losOk, bufferAddr, bufferSize⟩) := by
    unfold osQueueOperateEnd
    dsimp only
    rw [setQueue_self, hop]
    simp only [Option.bind_eq_bind, Option.bind_some, Bool.not_true]
    rw [if_neg]
    rw [Bool.not_eq_true, Bool.not_eq_false']
    exact h.alone
  have hcall : osQueueOperate s ⟨q, ⟨true, true, false⟩, message, size⟩ 0 =
      osQueueOperateEnd (s.setQueue q { s.queue q with readWriteableCnt := cnt })
        ⟨q, ⟨true, true, false⟩, message, size⟩ := by
    unfold osQueueOperate
    dsimp only
    rw [h.check, if_neg (by simp), if_neg (by omega), hcnt]
  have hput := @Filling.put_eq _ s q count size intActive d h hlim message
  rw [hcall, hend, Option.map_some] at hput
  refine ⟨_, ⟨_, hput⟩, h.bound, ?_, ?_, ?_, ?_, ?_, ?_, h.alone⟩
  all_goals rw [setQueue_self]
  · exact hoper.queueState.trans h.used
  · exact hoper.ok.setCnt _
  · exact hoper.queueLen.trans h.len
  · exact hoper.queueSize.trans h.size
  · rw [if_pos rfl] at hring
    exact hring
  · show Function.update cb.readWriteableCnt false ((cb.readWriteableCnt false + 1) % 2 ^ 16) true +
      (d ++ [messageOf message size]).length = count
    rw [Function.update_of_ne (by decide), hoper.cnt]
    show cnt true + (d ++ [messageOf message size]).length = count
    rw [hcnt, Function.update_self, List.length_append, List.length_singleton]
    omega

theorem Filling.full (h : Filling s q count size d) (hlim : Config.queueLimit ≤ 2 ^ 16)
    (heq : d.length = count) (message : Memory) :
    osMessageQueuePut s intActive (some q) (some message) 0 =
      some (s, ⟨some .osErrorResource, some message⟩) := by
  have hroom := h.room
  have hcall : osQueueOperate s ⟨q, ⟨true, true, false⟩, message, size⟩ 0 =
      some (s, ⟨.queueIsfull, message, size⟩) := by
    unfold osQueueOperate
    dsimp only
    rw [h.check, if_neg (by simp), if_pos (by omega), if_pos rfl, if_pos rfl]
  rw [h.put_eq hlim, hcall]
  rfl

theorem Filling.fill (h : Filling s q count size d) (hlim : Config.queueLimit ≤ 2 ^ 16)
    {messages : List Memory} (hlen : d.length + messages.length ≤ count) :
    ∃ s', Run (putStep intActive q) s messages s' ∧
      Filling s' q count size (d ++ messages.map fun m => messageOf m size) := by
  induction messages using List.reverseRecOn with
  | nil =>
    rw [List.map_nil, List.append_nil]
    exact ⟨s, Run.nil, h⟩
  | append_singleton messages message ih =>
    rw [List.length_append, List.length_singleton] at hlen
    obtain ⟨s₁, hrun, h₁⟩ := ih (by omega)
    obtain ⟨s₂, hput, h₂⟩ := @Filling.put _ s₁ q count size intActive _ h₁ hlim
      (by rw [List.length_append, List.length_map]; omega) message
    refine ⟨s₂, Run.snoc hrun hput, ?_⟩
    rw [List.map_append, List.map_singleton, ← List.append_assoc]
    exact h₂

theorem Filling.holds (h : Filling s q count size []) (hs : MessagesReached s)
    (hlim : Config.queueLimit ≤ 2 ^ 16) : HoldsExactly s q count size := by
  constructor
  case bounded =>
    intro events s' hrun
    obtain ⟨d, hring, hlen, hsize⟩ := messages_bounded hs hlim h.bound h.used hrun
    rw [h.len] at hlen
    rw [h.size, Nat.add_sub_cancel] at hsize
    exact ⟨d, hring, hlen, hsize⟩
  case fills =>
    intro intActive messages hlen
    obtain ⟨s', hrun, h'⟩ := @Filling.fill _ s q count size intActive _ h hlim messages
      (by rw [hlen, List.length_nil, Nat.zero_add])
    rw [List.nil_append] at h'
    refine ⟨s', hrun, h'.ring, h'.full hlim ?_⟩
    rw [List.length_map, hlen]

theorem Filling.of_run (h : Filling s q count size d) (hlim : Config.queueLimit ≤ 2 ^ 16)
    {messages : List Memory} (hrun : Run (putStep intActive q) s messages s') :
    Filling s' q count size (d ++ messages.map fun m => messageOf m size) := by
  induction hrun with
  | nil =>
    rw [List.map_nil, List.append_nil]
    exact h
  | @snoc t u messages message run last ih =>
    obtain ⟨msgPtr, hlast⟩ := last
    have hroom := ih.room
    rcases Nat.lt_or_ge (d ++ messages.map fun m => messageOf m size).length count with hlt | hge
    · obtain ⟨u', ⟨msgPtr', hput⟩, h'⟩ := @Filling.put _ t q count size intActive _ ih hlim hlt message
      obtain ⟨rfl, _⟩ := Prod.mk.inj (Option.some.inj (hput.symm.trans hlast))
      rw [List.map_append, List.map_singleton, ← List.append_assoc]
      exact h'
    · have hfull := @Filling.full _ t q count size intActive _ ih hlim (by omega) message
      cases hfull.symm.trans hlast

theorem Filling.holds_iff {n k : Nat} (h : Filling s q n k []) (hs : MessagesReached s)
    (hlim : Config.queueLimit ≤ 2 ^ 16) : HoldsExactly s q count size ↔ count = n ∧ size = k := by
  constructor
  · intro hold
    obtain ⟨s₁, hrun, hring, hfull⟩ := hold.fills true (List.replicate count fun _ => 0) List.length_replicate
    have h₁ := h.of_run hlim hrun
    rw [List.nil_append, List.map_replicate] at h₁
    rw [List.map_replicate] at hring
    have hroom := h₁.room
    rw [List.length_replicate] at hroom
    have hcount : count = n := by
      by_contra hne
      obtain ⟨_, ⟨_, hput⟩, _⟩ := @Filling.put _ s₁ q n k true _ h₁ hlim
        (by rw [List.length_replicate]; omega) fun _ => 0
      cases hput.symm.trans (hfull fun _ => 0)
    refine ⟨hcount, ?_⟩
    have hpos : 0 < n := by
      rw [← h.len]
      exact h.shape.some
    -- the first message, with the length that is asked for and with that of the queue
    obtain ⟨b, hb, hholds, _⟩ := hring
    obtain ⟨b', hb', hholds', _⟩ := h₁.ring
    obtain rfl := Option.some.inj (hb.symm.trans hb')
    have hfirst : ∀ m : List Byte, (List.replicate count m)[0]? = some m := fun m =>
      List.getElem?_replicate_of_lt (by omega)
    have hlen := (hholds.spot 0 _ (hfirst _)).length
    rw [(hholds'.spot 0 _ (hfirst _)).length, messageOf_length, messageOf_length] at hlen
    exact hlen.symm
  · rintro ⟨rfl, rfl⟩
    exact h.holds hs hlim

theorem nextQueue_none (hs : MessagesReached s) :
    nextQueue s = none ↔ losListEmpty s.kernel .gFreeQueueList = true := by
  obtain ⟨l, rfl, _, hand, V, hi⟩ := hs
  unfold nextQueue
  cases hempty : losListEmpty l.kernel .gFreeQueueList with
  | true => exact iff_of_true (if_pos rfl) rfl
  | false =>
    obtain ⟨m, _, _, hfirst, _⟩ := hi.pool.take .queue queueList_inj (by rw [hempty]; exact Bool.false_ne_true)
    rw [if_neg Bool.false_ne_true, hfirst]
    exact iff_of_false (Option.some_ne_none m) Bool.false_ne_true

theorem filling_of_made (hs : MessagesReached s') {len : Nat} {b : Block}
    (h : QueueMade s s' q len (size + 4) b) : Filling s' q len size [] := by
  have hcb : s'.queue q = freshCB len (size + 4) b := by rw [h.queue, Function.update_self]
  have hused : (s'.queue q).queueState = true := by
    rw [hcb]
    rfl
  refine ⟨h.bound, hused, hs.shape h.bound hused, ?_, ?_, ?_, ?_, h.lists false⟩
  · rw [hcb]
    rfl
  · rw [hcb]
    rfl
  · rw [hcb]
    exact ⟨b, rfl, Lib.Ring.RingHolds.nil, (Nat.zero_mod _).symm⟩
  · rw [hcb]
    rfl

theorem osMessageQueueNew_spec (hs : MessagesReached s) (hlim : Config.queueLimit ≤ 2 ^ 16)
    (hfresh : ∀ b, queue = some b → s.heap b.addr = none) :
    (NoQueue s intActive msgCount msgSize queue ∧ ∃ s',
      osMessageQueueNew s intActive msgCount msgSize queue = some (s', none)) ∨
    (¬ NoQueue s intActive msgCount msgSize queue ∧ ∃ s' q,
      osMessageQueueNew s intActive msgCount msgSize queue = some (s', some q) ∧ MessagesReached s' ∧
        Filling s' q (msgCount.toNat % 2 ^ 16) (msgSize.toNat % 2 ^ 16) []) := by
  by_cases hno : 0#32 = msgCount ∨ 0#32 = msgSize ∨ intActive = true
  · refine .inl ⟨?_, s, if_pos hno⟩
    rcases hno with rfl | rfl | h
    · exact .inr (.inr (.inr (.inl rfl)))
    · exact .inr (.inr (.inr (.inr (.inl rfl))))
    · exact .inl h
  have hnew := @osMessageQueueNew_eq s intActive msgCount msgSize queue hno
  obtain ⟨l, hl, hd, hand, V, hi⟩ := id hs
  subst hl
  obtain ⟨⟨s₁, r, o⟩, hcreate⟩ := Option.isSome_iff_exists.mp
    (losQueueCreate_total hi (uint16 msgCount) true (uint16 msgSize) hfresh)
  rw [hcreate, Option.map_some] at hnew
  by_cases hbig : osNullShort - 4 < msgSize.toNat % 2 ^ 16
  · left
    refine ⟨.inr (.inr (.inr (.inr (.inr hbig)))), s₁, ?_⟩
    have hr : r ≠ .losOk := by
      unfold losQueueCreate at hcreate
      rw [if_neg (by decide), if_pos (show osNullShort - 4 < (uint16 msgSize).val from hbig)] at hcreate
      obtain ⟨_, rfl, _⟩ := by simpa using hcreate
      decide
    rw [hnew, if_neg hr]
  · have hnext := nextQueue_none hs
    rcases losQueueCreate_made hi (Nat.le_of_not_lt hbig) hcreate with
      ⟨_, hr, hnot⟩ | ⟨hr, hneeds, q, b, rfl, hmade⟩
    · left
      refine ⟨?_, s₁, by rw [hnew, if_neg hr]⟩
      by_contra hc
      simp only [NoQueue, not_or] at hc
      obtain ⟨_, hblock, hempty, hlen, hsize, _⟩ := hc
      exact hnot ⟨hlen, hsize, Option.isSome_iff_ne_none.mpr hblock, fun h => hempty (hnext.mp h)⟩
    · right
      rw [if_pos hr] at hnew
      have hq := hmade.bound
      rw [Nat.mod_eq_of_lt (show q < 2 ^ 16 by omega)] at hnew
      have hs₁ : MessagesReached s₁ := by
        refine (@MessagesReached.next _ _ s₁ (.new intActive msgCount msgSize queue) q hs hlim ?_).1
        simp only [messageStep, hnew, Option.map_some]
      refine ⟨?_, s₁, q, hnew, hs₁, filling_of_made hs₁ hmade⟩
      rintro (h | h | h | h | h | h)
      · exact hno (.inr (.inr h))
      · rw [h] at hneeds
        cases hneeds.block
      · exact hneeds.free (hnext.mpr h)
      · exact hneeds.len h
      · exact hneeds.size h
      · exact hbig h

theorem osMessageQueueNew_holds (hs : MessagesReached s) (hlim : Config.queueLimit ≤ 2 ^ 16)
    (hfresh : ∀ b, queue = some b → s.heap b.addr = none) :
    (∀ s' q, osMessageQueueNew s intActive msgCount msgSize queue = some (s', some q) →
      HoldsExactly s' q msgCount.toNat msgSize.toNat) ↔
    NoQueue s intActive msgCount msgSize queue ∨ (msgCount.toNat < 2 ^ 16 ∧ msgSize.toNat < 2 ^ 16) := by
  rcases @osMessageQueueNew_spec _ s intActive msgCount msgSize queue hs hlim hfresh with
    ⟨hno, s₁, heq⟩ | ⟨hno, s₁, q₁, heq, hs₁, hfill⟩
  · rw [heq]
    exact iff_of_true (fun s' q h => by simp at h) (.inl hno)
  · rw [heq, or_iff_right hno]
    have hiff := @Filling.holds_iff _ s₁ q₁ msgCount.toNat msgSize.toNat _ _ hfill hs₁ hlim
    constructor
    · intro h
      obtain ⟨hcount, hsize⟩ := hiff.mp (h s₁ q₁ rfl)
      exact ⟨by omega, by omega⟩
    · rintro ⟨hcount, hsize⟩ s' q h
      obtain ⟨rfl, rfl⟩ : s₁ = s' ∧ q₁ = q := by simpa using h
      exact hiff.mpr ⟨(Nat.mod_eq_of_lt hcount).symm, (Nat.mod_eq_of_lt hsize).symm⟩

theorem queueHonours_iff (hs : MessagesReached s) (hlim : Config.queueLimit ≤ 2 ^ 16)
    (hfresh : ∀ b, queue = some b → s.heap b.addr = none) :
    QueueHonours s intActive msgCount msgSize queue ↔
      NoQueue s intActive msgCount msgSize queue ∨ (msgCount.toNat < 2 ^ 16 ∧ msgSize.toNat < 2 ^ 16) := by
  have hholds := @osMessageQueueNew_holds _ s intActive msgCount msgSize queue hs hlim hfresh
  constructor
  · intro h
    exact hholds.mp fun s' q heq => (h s' (some q) heq).1 q rfl
  · intro h s' handle heq
    constructor
    · rintro q rfl
      exact hholds.mpr h s' q heq
    · intro hn
      rcases @osMessageQueueNew_spec _ s intActive msgCount msgSize queue hs hlim hfresh with
        ⟨_, s₁, heq'⟩ | ⟨hno, _⟩
      · exact (Prod.mk.inj (Option.some.inj (heq.symm.trans heq'))).2
      · obtain ⟨hcount, hsize⟩ := h.resolve_left hno
        simp only [NoQueue, not_or, Nat.mod_eq_of_lt hcount, Nat.mod_eq_of_lt hsize, Nat.not_lt] at hno
        obtain ⟨_, _, _, hcount₀, hsize₀, hbig⟩ := hno
        exact absurd ⟨⟨Nat.pos_of_ne_zero hcount₀, hcount⟩, Nat.pos_of_ne_zero hsize₀, hbig⟩ hn

theorem semReached_of_run {s₀ s : SemState} {events : List SemaphoreEvent} (hmax : gTaskMaxNum ≤ osInvalid)
    (hb : SemBooted s₀) (hrun : Run (fun s event s' => semaphoreStep s event = some s') s₀ events s) :
    SemReached s :=
  run_invariant SemReached (fun _ _ _ hs hstep => hs.next hstep) hrun (semReached_of_booted hmax hb)

theorem messagesReached_of_run {s₀ : QueueState} {events : List MessageEvent} (hmax : gTaskMaxNum ≤ osInvalid)
    (hlim : Config.queueLimit ≤ 2 ^ 16) (hb : QueueBooted s₀)
    (hrun : Run (fun s event s' => messageStep s event = some s') s₀ events s) : MessagesReached s :=
  run_invariant MessagesReached (fun _ _ _ hs hstep => (@MessagesReached.next _ _ _ _ 0 hs hlim hstep).1) hrun
    (messagesReached_of_booted hmax hb)

/-- After any run the parameters of a new semaphore are honoured if and only if the kernel has its maximum,
and those of a new queue if and only if nothing of them is cut off. -/
theorem osNew_honours {s₀ c : SemState} {s₁ : QueueState} {semEvents : List SemaphoreEvent}
    {events : List MessageEvent} {maxCount initialCount : BitVec 32} (hmax : gTaskMaxNum ≤ osInvalid)
    (hlim : Config.queueLimit ≤ 2 ^ 16) (hsem : SemBooted s₀)
    (hsemRun : Run (fun s event s' => semaphoreStep s event = some s') s₀ semEvents c)
    (hqueue : QueueBooted s₁) (hrun : Run (fun s event s' => messageStep s event = some s') s₁ events s)
    (hmin : 1 ≤ maxCount.toNat) (hle : initialCount.toNat ≤ maxCount.toNat)
    (hfresh : ∀ b, queue = some b → s.heap b.addr = none) :
    (SemaphoreHonours c intActive maxCount initialCount ↔
      NoSemaphore c intActive ∨ maxCount = 1#32 ∨ maxCount = 0xFFFF#32) ∧
    (QueueHonours s intActive msgCount msgSize queue ↔
      NoQueue s intActive msgCount msgSize queue ∨ (msgCount.toNat < 2 ^ 16 ∧ msgSize.toNat < 2 ^ 16)) := by
  constructor
  · exact semaphoreHonours_iff (semReached_of_run hmax hsem hsemRun) hmin hle
  · exact queueHonours_iff (messagesReached_of_run hmax hlim hqueue hrun) hlim hfresh

end

omit [Config] in
/-- A semaphore of at most one and a queue of five messages are as they were asked for. -/
theorem osNew_honours_small :
    let _ := smallConfig
    SemaphoreHonours smallSem false 1#32 1#32 ∧
      QueueHonours smallQueue false 5#32 8#32 (some ⟨100, fun _ => 0⟩) := by
  let := smallConfig
  have h := @osNew_honours smallConfig smallQueue false 5#32 8#32 (some ⟨100, fun _ => 0⟩) smallSem smallSem
    smallQueue [] [] 1#32 1#32 (by decide) (by decide) smallSem_booted Run.nil smallQueue_booted Run.nil
    (by decide) (by decide) fun _ _ => rfl
  exact ⟨h.1.mpr (.inr (.inl rfl)), h.2.mpr (.inr (by decide))⟩

omit [Config] in
/-- A semaphore of at most two counts to three, and a queue of 65537 messages holds one. -/
theorem osNew_narrows :
    let _ := smallConfig
    (∃ s m s', osSemaphoreNew smallSem false 2#32 0#32 = some (s, some m) ∧
      Run (keepsSemaphore m) s (List.replicate 3 (.release (some m))) s' ∧ (s'.sem m).semCount = 3 ∧
      ¬ SemaphoreHonours smallSem false 2#32 0#32) ∧
    ∃ s q s', osMessageQueueNew smallQueue false 65537#32 4#32 (some ⟨100, fun _ => 0⟩) = some (s, some q) ∧
      putStep true q s (fun _ => 7) s' ∧
      osMessageQueuePut s' true (some q) (some fun _ => 7) 0 =
        some (s', ⟨some .osErrorResource, some fun _ => 7⟩) ∧
      ¬ QueueHonours smallQueue false 65537#32 4#32 (some ⟨100, fun _ => 0⟩) := by
  let := smallConfig
  have hs : SemReached smallSem := semReached_of_booted (by decide) smallSem_booted
  have hq : MessagesReached smallQueue := messagesReached_of_booted (by decide) smallQueue_booted
  constructor
  · rcases @osSemaphoreNew_spec _ smallSem false 2#32 0#32 hs (by decide) with ⟨hno, _⟩ | ⟨_, s, m, heq, hnew⟩
    · rcases hno with hno | hno
      · cases hno
      · exact absurd hno (by decide +kernel)
    · obtain ⟨s', hrun, h'⟩ := @Uncontended.release_run _ s m 3 _ _ hnew (by decide)
      have hcount : (s'.sem m).semCount = 3 := by
        rw [h'.cb]
        rfl
      refine ⟨s, m, s', heq, hrun, hcount, fun h => ?_⟩
      have hle := ((h s (some m) heq).1 m rfl).2 _ s' hrun
      rw [hcount] at hle
      exact absurd hle (by decide)
  · have hfresh : ∀ b, some (⟨100, fun _ => 0⟩ : Block) = some b → smallQueue.heap b.addr = none := fun _ _ => rfl
    rcases @osMessageQueueNew_spec _ smallQueue false 65537#32 4#32 (some ⟨100, fun _ => 0⟩) hq (by decide) hfresh
      with ⟨hno, _⟩ | ⟨hno, s, q, heq, _, hfill⟩
    · rcases hno with hno | hno | hno | hno | hno | hno
      · cases hno
      · cases hno
      · exact absurd hno (by decide +kernel)
      · exact absurd hno (by decide)
      · exact absurd hno (by decide)
      · exact absurd hno (by decide)
    · obtain ⟨s', hput, h'⟩ := @Filling.put _ s q _ _ true _ hfill (by decide) (by decide) fun _ => 7
      refine ⟨s, q, s', heq, hput, @Filling.full _ s' q _ _ true _ h' (by decide) rfl _, fun h => ?_⟩
      rcases (queueHonours_iff hq (by decide) hfresh).mp h with hno' | hfits
      · exact hno hno'
      · exact absurd hfits (by decide)

end LiteosM.Cmsis
