import LiteosM.Ipc.Queue

/-!
# The invariant of the queues

Every slot of a queue is counted as readable or writeable, or was handed to a waiter that has been
woken and has not run since. The log of a queue has the buffer operations since its creation.
-/

namespace LiteosM.Ipc

open LiteosM.Kernel LiteosM.Lib.DlList LiteosM.Lib.Transition LiteosM.Lib.ByteMemory

/-- A buffer operation, with its message. -/
inductive QueueOp
  | write (tail : Bool) (message : List Byte)
  | read (message : List Byte)
deriving DecidableEq

def QueueOp.isWrite : QueueOp → Bool
  | .write _ _ => true
  | .read _ => false

def written (log : List QueueOp) : Nat := log.countP QueueOp.isWrite

def readOut (log : List QueueOp) : Nat := log.countP fun op => !op.isWrite

def messageOf (m : Memory) (size : Nat) : List Byte := (List.range size).map m

def opOf (call : QueueCall) (ret : OperateReturn) : QueueOp :=
  if call.operateType.write then
    .write call.operateType.tail (messageOf call.bufferAddr call.bufferSize)
  else .read (messageOf ret.bufferAddr ret.bufferSize)

structure LoggedQueue extends QueueState where
  log : Nat → List QueueOp

def newQueue (s s' : QueueState) (q : Nat) : Bool := !(s.queue q).queueState && (s'.queue q).queueState

/-- The list on which a task is waiting, or was when it was woken. -/
def QueueState.waiting (s : QueueState) (t : Nat) : Option WaitList := (s.pending t).map QueueWait.list

variable [Config]

def QueueState.operation (s : QueueState) (event : QueueEvent) : Option QueueCall :=
  match event.operate, event, s.pending s.kernel.runTask with
  | some c, _, _ => some c.call
  | none, .resume, some (.operate call) => some call
  | _, _, _ => none


def logAfter (log : Nat → List QueueOp) (call : QueueCall) (ret : OperateReturn) : Nat → List QueueOp :=
  if ret.errno = .losOk then Function.update log call.queueID (log call.queueID ++ [opOf call ret])
  else log

def noteLog (s : LoggedQueue) (event : QueueEvent) (s' : QueueState) (r : QueueReturn) :
    Nat → List QueueOp :=
  match s.operation event, r with
  | some call, .operate ret => logAfter s.log call ret
  | _, _ => fun q => if newQueue s.toQueueState s' q then [] else s.log q

def LoggedQueue.note (s : LoggedQueue) (event : QueueEvent) (s' : QueueState) (r : QueueReturn) :
    LoggedQueue :=
  { s' with log := noteLog s event s' r }

/-- Task `t` has been woken with a slot of queue `q` and has not run since. -/
def HoldsSlot (s : QueueState) (q t : Nat) : Prop :=
  ∃ call, s.pending t = some (.operate call) ∧ call.queueID = q ∧ woken s.kernel t = true

def loggedStep (s : LoggedQueue) (event : QueueEvent) : Option LoggedQueue :=
  (queueStep s.toQueueState event).map fun r => s.note event r.1 r.2

/-- The slots of queue `q` that woken readers or writers hold. -/
def slotsGranted (s : QueueState) (q : Nat) (write : Bool) : Nat :=
  grants s.waiting (woken s.kernel) (.readWriteList q write)

structure CbOk (cb : LosQueueCB) : Prop where
  some : 0 < cb.queueLen
  len : cb.queueLen < 65536
  room : 4 < cb.queueSize
  size : cb.queueSize < 65536
  head : cb.queueHead < cb.queueLen
  tail : cb.queueTail < cb.queueLen

structure CallOk (cb : LosQueueCB) (call : QueueCall) : Prop where
  head : call.operateType.write = false → call.operateType.tail = false
  size : call.bufferSize ≠ 0
  fits : call.operateType.write = true → call.bufferSize ≤ cb.queueSize - 4
  large : call.operateType.write = false → cb.queueSize - 4 ≤ call.bufferSize
  point : call.operateType.write = true → call.operateType.point = true → call.bufferSize = 4

/-- `l` is a list of queue `q` whose node is not also its place in the free list. -/
def OtherList (q : Nat) (l : WaitList) : Prop := l = .readWriteList q false ∨ l = .memList q

/-- A queue in use. `granted` are the slots that woken tasks have, `hand` those of a call in progress and
those that deleted tasks took with them. -/
structure UsedQueue (cb : LosQueueCB) (heap : Nat → Option Nat) (granted hand : Bool → Nat)
    (log : List QueueOp) (V : View Node) (q : Nat) : Prop where
  shape : CbOk cb
  heads : ∀ l, OtherList q l → V.role (.wait l) = .head
  block : ∃ b, cb.queue = some b ∧ heap b.addr = some (cb.queueLen * cb.queueSize)
  slots : cb.readWriteableCnt false + granted false + hand false +
    (cb.readWriteableCnt true + granted true + hand true) = cb.queueLen
  empty : ∀ write, cb.readWriteableCnt write ≠ 0 → V.content (.wait (.readWriteList q write)) = []
  stored : readOut log + (cb.readWriteableCnt false + granted false + hand false) = written log

structure QueueInv (s : QueueState) (log : Nat → List QueueOp) (hand : Nat → Bool → Nat)
    (V : View Node) : Prop where
  waits : ∃ since clock, Waits s.kernel V s.waiting (woken s.kernel) since clock
  pool : PoolInv .gFreeQueueList (fun q => .readWriteList q true) Config.queueLimit
    (fun q => (s.queue q).queueState) s.kernel V
  used : ∀ q < Config.queueLimit, (s.queue q).queueState = true →
    UsedQueue (s.queue q) s.heap (slotsGranted s q) (hand q) (log q) V q
  blank : ∀ q < Config.queueLimit, (s.queue q).queueState = false → ∀ l, OtherList q l → Blank V l
  apart : ∀ q < Config.queueLimit, ∀ q' < Config.queueLimit, (s.queue q).queueState = true →
    (s.queue q').queueState = true →
    (s.queue q).queue.map Block.addr = (s.queue q').queue.map Block.addr → q = q'
  calls : ∀ t call, s.pending t = some (.operate call) → (s.kernel.status t).timeout = false →
    call.queueID < Config.queueLimit ∧ (s.queue call.queueID).queueState = true ∧
      CallOk (s.queue call.queueID) call

/-- No call is in progress, and no slot is lost. -/
def noHand : Nat → Bool → Nat := fun _ _ => 0

/-- One more slot is in the hands of a caller. -/
def inHand (hand : Nat → Bool → Nat) (q : Nat) (write : Bool) : Nat → Bool → Nat := fun q' write' =>
  hand q' write' + if q' = q ∧ write' = write then 1 else 0

section

variable {s s' : QueueState} {log log' : Nat → List QueueOp} {hand hand' : Nat → Bool → Nat}
  {V V' : View Node} {q q' t w : Nat} {k : KernelState} {cb : LosQueueCB} {call : QueueCall}
  {event : QueueEvent} {r : QueueReturn} {write : Bool}

omit [Config] in
theorem queueList_inj (a b : Nat) (h : WaitList.readWriteList a true = .readWriteList b true) : a = b := by
  injection h

omit [Config] in
theorem setQueue_self : (s.setQueue q cb).queue q = cb := Function.update_self _ _ _

omit [Config] in
theorem setQueue_of_ne (h : q' ≠ q) : (s.setQueue q cb).queue q' = s.queue q' := Function.update_of_ne h _ _

omit [Config] in
theorem CallOk.congr {cb' : LosQueueCB} (h : CallOk cb call) (hsize : cb'.queueSize = cb.queueSize) :
    CallOk cb' call :=
  ⟨h.head, h.size, by rw [hsize]; exact h.fits, by rw [hsize]; exact h.large, h.point⟩

omit [Config] in
theorem waiting_update (x : Option QueueWait) :
    ({ s with pending := Function.update s.pending t x } : QueueState).waiting =
      Function.update s.waiting t (x.map QueueWait.list) := by
  funext u
  by_cases hut : u = t
  · rw [hut, Function.update_self]
    exact congrArg (Option.map QueueWait.list) (Function.update_self t x s.pending)
  · rw [Function.update_of_ne hut]
    exact congrArg (Option.map QueueWait.list) (Function.update_of_ne hut x s.pending)

/-- A list on which the next caller has to wait. -/
def Busy (s : QueueState) (l : WaitList) : Prop :=
  ∃ q < Config.queueLimit, (s.queue q).queueState = true ∧
    (l = .memList q ∨ ∃ write, l = .readWriteList q write ∧ (s.queue q).readWriteableCnt write = 0)

theorem QueueInv.kernel (hi : QueueInv s log hand V) (hqueue : s'.queue = s.queue) (hheap : s'.heap = s.heap)
    (hwaits : ∃ since clock, Waits s'.kernel V' s'.waiting (woken s'.kernel) since clock)
    (hrole : ∀ y, (∀ t, y ≠ .pendList t) → (∀ t, y ≠ .sortLinkNode t) → V'.role y = V.role y)
    (hcontent : ∀ l, V.content (.wait l) = [] → V'.content (.wait l) = [] ∨ Busy s l)
    (hcalls : ∀ t call, s'.pending t = some (.operate call) → (s'.kernel.status t).timeout = false →
      call.queueID < Config.queueLimit ∧ (s.queue call.queueID).queueState = true ∧
        CallOk (s.queue call.queueID) call)
    (hslots : ∀ q write, slotsGranted s' q write + hand' q write = slotsGranted s q write + hand q write) :
    QueueInv s' log hand' V' := by
  have hwait : ∀ l, V'.role (.wait l) = V.role (.wait l) := fun l => hrole _ (by simp) (by simp)
  refine ⟨hwaits, ?_, fun q hq hst => ?_, fun q hq hst l hl => ?_, ?_, ?_⟩
  · obtain ⟨_, _, hw⟩ := hwaits
    rw [hqueue]
    exact hi.pool.kernel .queue hw.machine hrole
  · rw [hqueue] at hst
    rw [hqueue, hheap]
    have hu := hi.used q hq hst
    have h0 := hslots q false
    have h1 := hslots q true
    refine ⟨hu.shape, fun l hl => (hwait l).trans (hu.heads l hl), hu.block, ?_, fun write hc => ?_, ?_⟩
    · have h := hu.slots
      omega
    · refine (hcontent _ (hu.empty write hc)).resolve_right ?_
      rintro ⟨q', _, _, h | ⟨write', h, h0⟩⟩
      · cases h
      · injection h with h1 h2
        rw [← h1, ← h2] at h0
        exact hc h0
    · have h := hu.stored
      omega
  · rw [hqueue] at hst
    have hb := hi.blank q hq hst l hl
    unfold Blank
    rw [hwait]
    refine hb.imp_right fun h => ⟨h.1, (hcontent l h.2).resolve_right ?_⟩
    rintro ⟨q', _, hst', hbusy⟩
    have hqq : q' = q := by
      rcases hl with rfl | rfl <;> rcases hbusy with h | ⟨_, h, _⟩ <;> simp at h
      · exact h.1.symm
      · exact h.symm
    rw [hqq, hst] at hst'
    cases hst'
  · rw [hqueue]
    exact hi.apart
  · rw [hqueue]
    exact hcalls

theorem QueueInv.setQueue (hi : QueueInv s log hand V)
    (hused : (s.queue q).queueState = true) (hst : cb.queueState = true)
    (hsize : cb.queueSize = (s.queue q).queueSize)
    (haddr : cb.queue.map Block.addr = (s.queue q).queue.map Block.addr)
    (hhand : ∀ q', q' ≠ q → hand' q' = hand q') (hlog : ∀ q', q' ≠ q → log' q' = log q')
    (hcb : q < Config.queueLimit → UsedQueue cb s.heap (slotsGranted s q) (hand' q) (log' q) V q) :
    QueueInv (s.setQueue q cb) log' hand' V := by
  have hstate : ∀ q', ((s.setQueue q cb).queue q').queueState = (s.queue q').queueState := by
    intro q'
    by_cases hqq : q' = q
    · rw [hqq, setQueue_self, hst, hused]
    · rw [setQueue_of_ne hqq]
  have hmap : ∀ q', ((s.setQueue q cb).queue q').queue.map Block.addr =
      (s.queue q').queue.map Block.addr := by
    intro q'
    by_cases hqq : q' = q
    · rw [hqq, setQueue_self, haddr]
    · rw [setQueue_of_ne hqq]
  refine ⟨hi.waits, ?_, fun q' hq' hst' => ?_, fun q' hq' hst' => ?_, fun q1 hq1 q2 hq2 h1 h2 => ?_,
    fun t call hp htm => ?_⟩
  · rw [show (fun q' => ((s.setQueue q cb).queue q').queueState) = fun q' => (s.queue q').queueState from
      funext hstate]
    exact hi.pool
  · rw [hstate] at hst'
    by_cases hqq : q' = q
    · rw [hqq] at hq' ⊢
      rw [setQueue_self]
      exact hcb hq'
    · rw [setQueue_of_ne hqq, hhand q' hqq, hlog q' hqq]
      exact hi.used q' hq' hst'
  · rw [hstate] at hst'
    exact hi.blank q' hq' hst'
  · rw [hstate] at h1 h2
    rw [hmap, hmap]
    exact hi.apart q1 hq1 q2 hq2 h1 h2
  · obtain ⟨h1, h2, h3⟩ := hi.calls t call hp htm
    rw [hstate]
    refine ⟨h1, h2, h3.congr ?_⟩
    by_cases hqq : call.queueID = q
    · rw [hqq, setQueue_self, hsize]
    · rw [setQueue_of_ne hqq]

omit [Config] in
theorem queuePosion_read (hok : CbOk cb) (point : Bool) : queuePosion cb ⟨false, false, point⟩ =
    some (cb.queueHead, { cb with queueHead := (cb.queueHead + 1) % cb.queueLen }) := by
  have hlen := hok.len
  have hlt := hok.head
  show some (cb.queueHead, { cb with queueHead := if cb.queueHead + 1 = cb.queueLen then 0 else _ }) = _
  by_cases h : cb.queueHead + 1 = cb.queueLen
  · rw [if_pos h, h, Nat.mod_self]
  · rw [if_neg h, Nat.mod_eq_of_lt (by omega), Nat.mod_eq_of_lt (by omega)]

omit [Config] in
theorem queuePosion_writeTail (hok : CbOk cb) (point : Bool) : queuePosion cb ⟨true, true, point⟩ =
    some (cb.queueTail, { cb with queueTail := (cb.queueTail + 1) % cb.queueLen }) := by
  have hlen := hok.len
  have hlt := hok.tail
  show some (cb.queueTail, { cb with queueTail := if cb.queueTail + 1 = cb.queueLen then 0 else _ }) = _
  by_cases h : cb.queueTail + 1 = cb.queueLen
  · rw [if_pos h, h, Nat.mod_self]
  · rw [if_neg h, Nat.mod_eq_of_lt (by omega), Nat.mod_eq_of_lt (by omega)]

omit [Config] in
theorem queuePosion_writeHead (hok : CbOk cb) (point : Bool) : ∃ p < cb.queueLen,
    (p + 1) % cb.queueLen = cb.queueHead ∧
      queuePosion cb ⟨true, false, point⟩ = some (p, { cb with queueHead := p }) := by
  have hlt := hok.head
  by_cases h : cb.queueHead = 0
  · refine ⟨cb.queueLen - 1, by omega, ?_, ?_⟩
    · rw [Nat.sub_add_cancel hok.some, Nat.mod_self, h]
    · show some (if cb.queueHead = 0 then _ else _, { cb with queueHead := if cb.queueHead = 0 then _ else _ }) = _
      rw [if_pos h]
  · refine ⟨cb.queueHead - 1, by omega, ?_, ?_⟩
    · rw [Nat.sub_add_cancel (by omega), Nat.mod_eq_of_lt hlt]
    · show some (if cb.queueHead = 0 then _ else _, { cb with queueHead := if cb.queueHead = 0 then _ else _ }) = _
      rw [if_neg h]

/-- What a buffer operation leaves as it is. -/
structure Operated (cb cb' : LosQueueCB) : Prop where
  ok : CbOk cb'
  queueState : cb'.queueState = cb.queueState
  queueLen : cb'.queueLen = cb.queueLen
  queueSize : cb'.queueSize = cb.queueSize
  cnt : cb'.readWriteableCnt = cb.readWriteableCnt
  addr : cb'.queue.map Block.addr = cb.queue.map Block.addr

omit [Config] in
theorem queuePosion_operated (hok : CbOk cb) {op : OperateType} (hhead : op.write = false → op.tail = false) :
    ∃ p cb', queuePosion cb op = some (p, cb') ∧ Operated cb cb' ∧ cb'.queue = cb.queue := by
  obtain ⟨write, tail, point⟩ := op
  have hpos := hok.some
  cases write with
  | false =>
    obtain rfl : tail = false := hhead rfl
    exact ⟨_, _, queuePosion_read hok point, ⟨⟨hok.some, hok.len, hok.room, hok.size, Nat.mod_lt _ hpos,
      hok.tail⟩, rfl, rfl, rfl, rfl, rfl⟩, rfl⟩
  | true =>
    cases tail with
    | false =>
      obtain ⟨p, hp, _, heq⟩ := queuePosion_writeHead hok point
      exact ⟨_, _, heq, ⟨⟨hok.some, hok.len, hok.room, hok.size, hp, hok.tail⟩, rfl, rfl, rfl, rfl, rfl⟩,
        rfl⟩
    | true =>
      exact ⟨_, _, queuePosion_writeTail hok point, ⟨⟨hok.some, hok.len, hok.room, hok.size, hok.head,
        Nat.mod_lt _ hpos⟩, rfl, rfl, rfl, rfl, rfl⟩, rfl⟩

omit [Config] in
theorem Operated.setBytes {cb' : LosQueueCB} {b : Block} (h : Operated cb cb') (hb : cb'.queue = some b)
    (bytes : Memory) : Operated cb { cb' with queue := some { b with bytes := bytes } } :=
  ⟨⟨h.ok.some, h.ok.len, h.ok.room, h.ok.size, h.ok.head, h.ok.tail⟩, h.queueState, h.queueLen, h.queueSize,
    h.cnt, by rw [← h.addr, hb]; rfl⟩

omit [Config] in
theorem osQueueBufferOperate_spec {b : Block} (hok : CbOk cb) (hb : cb.queue = some b)
    (hhead : call.operateType.write = false → call.operateType.tail = false) :
    ∃ cb' bufferAddr bufferSize, osQueueBufferOperate cb call.operateType call.bufferAddr call.bufferSize =
      some (cb', bufferAddr, bufferSize) ∧ Operated cb cb' := by
  obtain ⟨p, cb', hp, hop, hqueue⟩ := queuePosion_operated hok hhead
  have hb' : cb'.queue = some b := hqueue.trans hb
  unfold osQueueBufferOperate
  simp only [hp, hb', Option.bind_eq_bind, Option.bind_some]
  cases call.operateType.point with
  | true =>
    cases call.operateType.write with
    | true => exact ⟨_, _, _, rfl, hop.setBytes hb' _⟩
    | false => exact ⟨_, _, _, rfl, hop⟩
  | false =>
    cases call.operateType.write with
    | true => exact ⟨_, _, _, rfl, hop.setBytes hb' _⟩
    | false =>
      simp only [Bool.false_eq_true, if_false]
      split
      · exact ⟨_, _, _, rfl, hop⟩
      · exact ⟨_, _, _, rfl, hop⟩

theorem QueueInv.schedule (hi : QueueInv s log hand V) :
    QueueInv { s with kernel := losSchedule s.kernel } log hand V := by
  obtain ⟨since, clock, hw⟩ := hi.waits
  obtain ⟨b, hb⟩ := losSchedule_eq s.kernel
  have hw' := hw.schedule
  rw [hb] at hw' ⊢
  exact hi.kernel rfl rfl ⟨since, clock, hw'⟩ (fun _ _ _ => rfl) (fun _ h => .inl h) hi.calls
    fun _ _ => rfl

theorem QueueInv.wake (hi : QueueInv s log hand V) {l : WaitList} (hhead : V.role (.wait l) = .head)
    (hne : losListEmpty s.kernel (.wait l) = false)
    (hhand : ∀ q write, hand q write = hand' q write + if .readWriteList q write = l then 1 else 0) :
    ∃ w k V', losDlListFirst s.kernel (.wait l) = .pendList w ∧ osSchedTaskWake s.kernel w = some k ∧
      QueueInv { s with kernel := k } log hand' V' ∧
      ∀ u, (s.kernel.status u).pend = false → k.gTaskCBArray u = s.kernel.gTaskCBArray u := by
  obtain ⟨since, clock, hw⟩ := hi.waits
  obtain ⟨w, hlt, hfirst, hon, _⟩ := hw.first hhead hne
  have hpend := hw.machine.inv.pend_of_wait hlt hon
  obtain ⟨hpw, _, hg⟩ := (hw.task w hlt).waiting l hon
  obtain ⟨k, V', heq, hw', hrole, hcontent, _⟩ := hw.wakeTask hlt hon
  obtain ⟨k₁, V₁, heq₁, _, hmv, _⟩ := hw.machine.wake hlt hpend
  obtain rfl : k = k₁ := Option.some.inj (heq.symm.trans heq₁)
  refine ⟨w, k, V', hfirst, heq, hi.kernel rfl rfl ⟨since, _, hw'.by_status⟩ hrole (fun l' hnil => ?_)
    (fun t call hp htm => hi.calls t call hp ?_) fun q write => ?_, fun u hu => hmv.task u fun huw => ?_⟩
  · rw [hcontent, hnil]
    exact .inl rfl
  · rw [← htm]
    exact (osSchedTaskWake_timeout hw.machine hlt hpend heq t).symm
  · show grants s.waiting (woken k) _ + _ = grants s.waiting (woken s.kernel) _ + _
    rw [← hw'.grants_eq, grants_wake hlt hpw hg, hhand]
    omega
  · rw [huw] at hu
    cases hpend.symm.trans hu

/-- What a call that succeeds does: one buffer operation, and a slot counted or handed over. -/
structure Completed (s : QueueState) (call : QueueCall) (s' : QueueState) (ret : OperateReturn) : Prop where
  errno : ret.errno = .losOk
  heap : s'.heap = s.heap
  pending : s'.pending = s.pending
  msg : s'.msg = s.msg
  unpended : ∀ u, (s.kernel.status u).pend = false → s'.kernel.gTaskCBArray u = s.kernel.gTaskCBArray u
  cells : ∃ cnt cnt' cb, osQueueBufferOperate { s.queue call.queueID with readWriteableCnt := cnt }
      call.operateType call.bufferAddr call.bufferSize = some (cb, ret.bufferAddr, ret.bufferSize) ∧
    s'.queue = Function.update s.queue call.queueID { cb with readWriteableCnt := cnt' }

omit [Config] in
theorem inHand_self : inHand hand q write q write = hand q write + 1 :=
  congrArg (hand q write + ·) (if_pos ⟨rfl, rfl⟩)

omit [Config] in
theorem inHand_not : inHand hand q write q (!write) = hand q (!write) :=
  congrArg (hand q (!write) + ·) (if_neg fun h => by simpa using h.2)

omit [Config] in
theorem inHand_true : inHand hand q true q false = hand q false := inHand_not

omit [Config] in
theorem inHand_false : inHand hand q false q true = hand q true := inHand_not

omit [Config] in
theorem inHand_of_ne (h : q' ≠ q) : inHand hand q write q' = hand q' :=
  funext fun write' => congrArg (hand q' write' + ·) (if_neg fun he => h he.1)

omit [Config] in
theorem CbOk.setCnt (h : CbOk cb) (cnt : Bool → Nat) : CbOk { cb with readWriteableCnt := cnt } :=
  ⟨h.some, h.len, h.room, h.size, h.head, h.tail⟩

omit [Config] in
theorem readOut_append (ops : List QueueOp) (op : QueueOp) :
    readOut (ops ++ [op]) = readOut ops + if op.isWrite then 0 else 1 := by
  rw [readOut, List.countP_append, List.countP_singleton]
  cases op.isWrite <;> rfl

omit [Config] in
theorem written_append (ops : List QueueOp) (op : QueueOp) :
    written (ops ++ [op]) = written ops + if op.isWrite then 1 else 0 := by
  rw [written, List.countP_append, List.countP_singleton]
  rfl

omit [Config] in
theorem opOf_isWrite (ret : OperateReturn) : (opOf call ret).isWrite = call.operateType.write := by
  unfold opOf
  split
  · next h => exact h.symm
  · next h => exact (Bool.not_eq_true _ ▸ h : call.operateType.write = false).symm

omit [Config] in
/-- The buffer operation of a caller that has a slot: the slot changes sides. -/
theorem UsedQueue.operate {heap : Nat → Option Nat} {granted : Bool → Nat} {ops : List QueueOp}
    (hu : UsedQueue (s.queue call.queueID) heap granted
      (inHand hand call.queueID call.operateType.write call.queueID) ops V call.queueID)
    (hop : Operated (s.queue call.queueID) cb) (ret : OperateReturn) :
    UsedQueue cb heap granted (inHand hand call.queueID (!call.operateType.write) call.queueID)
      (ops ++ [opOf call ret]) V call.queueID := by
  have hslots := hu.slots
  have hstored := hu.stored
  refine ⟨hop.ok, hu.heads, ?_, ?_, by rw [hop.cnt]; exact hu.empty, ?_⟩
  · obtain ⟨b, hb, hheap⟩ := hu.block
    have haddr := hop.addr
    rw [hb, Option.map_some, Option.map_eq_some_iff] at haddr
    obtain ⟨b', hb', haddr⟩ := haddr
    rw [hop.queueLen, hop.queueSize]
    exact ⟨b', hb', by rw [haddr]; exact hheap⟩
  · rw [hop.cnt, hop.queueLen]
    cases hw : call.operateType.write with
    | true =>
      rw [hw, inHand_self, inHand_true] at hslots
      rw [Bool.not_true, inHand_self, inHand_false]
      omega
    | false =>
      rw [hw, inHand_self, inHand_false] at hslots
      rw [Bool.not_false, inHand_self, inHand_true]
      omega
  · rw [hop.cnt, readOut_append, written_append, opOf_isWrite]
    cases hw : call.operateType.write with
    | true =>
      rw [hw, inHand_true] at hstored
      rw [Bool.not_true, inHand_self, if_pos rfl, if_pos rfl]
      omega
    | false =>
      rw [hw, inHand_self] at hstored
      rw [Bool.not_false, inHand_true, if_neg Bool.false_ne_true, if_neg Bool.false_ne_true]
      omega

theorem QueueInv.operate (hi : QueueInv s log (inHand hand call.queueID call.operateType.write) V)
    (hused : (s.queue call.queueID).queueState = true) (hop : Operated (s.queue call.queueID) cb)
    (ret : OperateReturn) :
    QueueInv (s.setQueue call.queueID cb)
      (Function.update log call.queueID (log call.queueID ++ [opOf call ret]))
      (inHand hand call.queueID !call.operateType.write) V := by
  refine hi.setQueue hused (hop.queueState.trans hused) hop.queueSize hop.addr
    (fun q' hqq => by rw [inHand_of_ne hqq, inHand_of_ne hqq]) (fun q' hqq => Function.update_of_ne hqq _ _)
    fun hq => ?_
  rw [Function.update_self]
  exact (hi.used _ hq hused).operate hop ret

omit [Config] in
theorem UsedQueue.setCnt {heap : Nat → Option Nat} {granted h h' : Bool → Nat} {ops : List QueueOp}
    (hu : UsedQueue cb heap granted h ops V q) {n : Nat}
    (hn : n + h' write = cb.readWriteableCnt write + h write) (hother : h' (!write) = h (!write))
    (hnil : n ≠ 0 → V.content (.wait (.readWriteList q write)) = []) :
    UsedQueue { cb with readWriteableCnt := Function.update cb.readWriteableCnt write n } heap granted h'
      ops V q := by
  have hslots := hu.slots
  have hstored := hu.stored
  refine ⟨hu.shape.setCnt _, hu.heads, hu.block, ?_, fun write' hc => ?_, ?_⟩
  · show Function.update cb.readWriteableCnt write n false + _ + _ +
      (Function.update cb.readWriteableCnt write n true + _ + _) = cb.queueLen
    cases write with
    | true =>
      rw [Bool.not_true] at hother
      rw [Function.update_self, Function.update_of_ne Bool.false_ne_true]
      omega
    | false =>
      rw [Bool.not_false] at hother
      rw [Function.update_self, Function.update_of_ne Bool.false_ne_true.symm]
      omega
  · by_cases hww : write' = write
    · rw [hww] at hc ⊢
      exact hnil fun h0 => hc ((Function.update_self _ _ _).trans h0)
    · exact hu.empty write' fun h0 => hc ((Function.update_of_ne hww _ _).trans h0)
  · show readOut ops + (Function.update cb.readWriteableCnt write n false + _ + _) = _
    cases write with
    | true =>
      rw [Bool.not_true] at hother
      rw [Function.update_of_ne Bool.false_ne_true]
      omega
    | false =>
      rw [Function.update_self]
      omega

theorem QueueInv.count (hi : QueueInv s log (inHand hand q write) V) (hq : q < Config.queueLimit)
    (hused : (s.queue q).queueState = true) (hnil : V.content (.wait (.readWriteList q write)) = []) :
    QueueInv (s.setQueue q { s.queue q with
      readWriteableCnt := Function.update (s.queue q).readWriteableCnt write
        (((s.queue q).readWriteableCnt write + 1) % 2 ^ 16) }) log hand V := by
  have hu := hi.used q hq hused
  have hmod : ((s.queue q).readWriteableCnt write + 1) % 2 ^ 16 = (s.queue q).readWriteableCnt write + 1 := by
    have hslots := hu.slots
    have hlen := hu.shape.len
    refine Nat.mod_eq_of_lt ?_
    cases write with
    | true =>
      rw [inHand_self] at hslots
      omega
    | false =>
      rw [inHand_self] at hslots
      omega
  rw [hmod]
  refine hi.setQueue hused hused rfl rfl (fun q' hqq => (inHand_of_ne hqq).symm) (fun _ _ => rfl) fun _ =>
    hu.setCnt ?_ ?_ fun _ => hnil
  · rw [inHand_self]
    omega
  · rw [inHand_not]

theorem QueueInv.take (hi : QueueInv s log hand V) (hq : q < Config.queueLimit)
    (hused : (s.queue q).queueState = true) (hc : (s.queue q).readWriteableCnt write ≠ 0) :
    QueueInv (s.setQueue q { s.queue q with
      readWriteableCnt := Function.update (s.queue q).readWriteableCnt write
        ((s.queue q).readWriteableCnt write - 1) }) log (inHand hand q write) V := by
  have hu := hi.used q hq hused
  refine hi.setQueue hused hused rfl rfl (fun q' hqq => inHand_of_ne hqq) (fun _ _ => rfl) fun _ =>
    hu.setCnt ?_ ?_ fun _ => hu.empty write hc
  · rw [inHand_self]
    omega
  · rw [inHand_not]

theorem osQueueOperateEnd_spec (hi : QueueInv s log (inHand hand call.queueID call.operateType.write) V)
    (hq : call.queueID < Config.queueLimit) (hused : (s.queue call.queueID).queueState = true)
    (hcall : CallOk (s.queue call.queueID) call) :
    ∃ s' ret V', osQueueOperateEnd s call = some (s', ret) ∧ Completed s call s' ret ∧
      QueueInv s' (Function.update log call.queueID (log call.queueID ++ [opOf call ret])) hand V' := by
  have hu := hi.used _ hq hused
  obtain ⟨b, hb, _⟩ := hu.block
  obtain ⟨cb, bufferAddr, bufferSize, heq, hop⟩ := osQueueBufferOperate_spec hu.shape hb hcall.head
  have hi1 := hi.operate hused hop ⟨.losOk, bufferAddr, bufferSize⟩
  have hused1 : ((s.setQueue call.queueID cb).queue call.queueID).queueState = true := by
    rw [setQueue_self]
    exact hop.queueState.trans hused
  have hhead : V.role (.wait (.readWriteList call.queueID !call.operateType.write)) = .head := by
    cases call.operateType.write with
    | true => exact hu.heads _ (.inl rfl)
    | false => exact hi.pool.taken _ hq hused
  unfold osQueueOperateEnd
  simp only [heq, Option.bind_eq_bind, Option.bind_some]
  cases hempty : losListEmpty (s.setQueue call.queueID cb).kernel
      (.wait (.readWriteList call.queueID !call.operateType.write)) with
  | false =>
    rw [Bool.not_false, if_pos rfl]
    obtain ⟨w, k, V', hfirst, hwake, hi2, hother⟩ := @QueueInv.wake _ _ _ _ hand _ hi1 _ hhead hempty fun q write => by
      refine congrArg (hand q write + ·) (if_congr ?_ rfl rfl)
      rw [WaitList.readWriteList.injEq]
    rw [hfirst]
    simp only [osTcbFromPendList, Option.bind_some]
    rw [hwake, Option.bind_some]
    have hsame : ∀ u, (s.kernel.status u).pend = false →
        (losSchedule k).gTaskCBArray u = s.kernel.gTaskCBArray u := by
      obtain ⟨b, hb⟩ := losSchedule_eq k
      rw [hb]
      exact hother
    exact ⟨_, _, V', rfl, ⟨rfl, rfl, rfl, rfl, hsame, ⟨_, cb.readWriteableCnt, cb, heq, rfl⟩⟩, hi2.schedule⟩
  | true =>
    rw [Bool.not_true, if_neg Bool.false_ne_true]
    have hnil := (hi1.pool.machine.inv.core.ready.forest.listEmpty_iff hhead).mp hempty
    have hi2 := hi1.count hq hused1 hnil
    rw [setQueue_self] at hi2
    exact ⟨_, _, V, rfl, ⟨rfl, rfl, rfl, rfl, fun _ _ => rfl, ⟨_, Function.update cb.readWriteableCnt (!call.operateType.write)
      ((cb.readWriteableCnt (!call.operateType.write) + 1) % 2 ^ 16), cb, heq,
      Function.update_idem _ _ _⟩⟩, hi2⟩

theorem QueueInv.pend (hi : QueueInv s log hand V) (hcall : s.kernel.calling)
    (hfree : s.pending s.kernel.runTask = none) (hlock : s.kernel.gLosTaskLock = 0) {x : QueueWait}
    (hhead : V.role (.wait x.list) = .head) (hbusy : Busy s x.list)
    (hok : ∀ call, x = .operate call → call.queueID < Config.queueLimit ∧
      (s.queue call.queueID).queueState = true ∧ CallOk (s.queue call.queueID) call) (ticks : Nat) :
    ∃ V', QueueInv { s with
      kernel := losSchedule (osSchedTaskWait s.kernel x.list ticks)
      pending := Function.update s.pending s.kernel.runTask (some x) } log hand V' := by
  obtain ⟨since, clock, hw⟩ := hi.waits
  have hfree' : s.waiting s.kernel.runTask = none := congrArg (Option.map QueueWait.list) hfree
  obtain ⟨V', hw', hrole, hcontent⟩ := hw.block hcall hfree' hlock hhead ticks
  have hwaiting := @waiting_update s s.kernel.runTask (some x)
  refine ⟨V', hi.kernel rfl rfl ⟨Function.update since s.kernel.runTask clock, clock + 1, ?_⟩ hrole
    (fun l hnil => ?_) (fun t call hp htm => ?_) fun q write => ?_⟩
  · show Waits _ V' ({ s with pending := Function.update s.pending s.kernel.runTask (some x) } :
      QueueState).waiting _ _ _
    rw [hwaiting]
    exact hw'.by_status
  · by_cases hl : l = x.list
    · rw [hl]
      exact .inr hbusy
    · rw [hcontent l hl]
      exact .inl hnil
  · by_cases ht : t = s.kernel.runTask
    · have h0 : Function.update s.pending s.kernel.runTask (some x) t = some x := by
        rw [ht, Function.update_self]
      exact hok call (Option.some.inj (h0.symm.trans hp))
    · refine hi.calls t call ((Function.update_of_ne ht _ _).symm.trans hp) ?_
      rw [← htm]
      exact (osSchedTaskWait_timeout hw.machine hcall hlock hhead ticks t).symm
  · show grants ({ s with pending := Function.update s.pending s.kernel.runTask (some x) } :
      QueueState).waiting (woken _) _ + _ = grants s.waiting (woken s.kernel) _ + _
    rw [hwaiting]
    have h1 := hw'.grants_eq (.readWriteList q write)
    exact congrArg (· + hand q write) (h1.symm.trans (grants_block hfree'))

theorem QueueInv.timeout (hi : QueueInv s log hand V) (hcall : s.kernel.calling)
    (htime : (s.kernel.status s.kernel.runTask).timeout = true) :
    QueueInv { s with
      kernel := s.kernel.modifyStatus s.kernel.runTask fun s => { s with timeout := false }
      pending := Function.update s.pending s.kernel.runTask none } log hand V := by
  obtain ⟨since, clock, hw⟩ := hi.waits
  have hw' := hw.resume hcall
  rw [if_pos htime] at hw'
  have hwaiting := @waiting_update s s.kernel.runTask none
  have hg : woken s.kernel s.kernel.runTask = false := by
    unfold woken
    rw [htime, Bool.not_true, Bool.and_false]
  refine hi.kernel rfl rfl ⟨since, clock + 1, ?_⟩ (fun _ _ _ => rfl) (fun _ h => .inl h) (fun t call hp htm => ?_)
    fun q write => ?_
  · show Waits _ V ({ s with pending := Function.update s.pending s.kernel.runTask none } :
      QueueState).waiting _ _ _
    rw [hwaiting]
    exact hw'.by_status
  · by_cases ht : t = s.kernel.runTask
    · have h0 : Function.update s.pending s.kernel.runTask none t = none := by rw [ht, Function.update_self]
      cases h0.symm.trans hp
    · refine hi.calls t call ((Function.update_of_ne ht _ _).symm.trans hp) ?_
      rw [← htm]
      unfold KernelState.status
      exact congrArg (fun cb : LosTaskCB => cb.taskStatus.timeout) (Function.update_of_ne ht _ _).symm
  · show grants ({ s with pending := Function.update s.pending s.kernel.runTask none } :
      QueueState).waiting (woken _) _ + _ = grants s.waiting (woken s.kernel) _ + _
    rw [hwaiting]
    have h1 := hw'.grants_eq (.readWriteList q write)
    exact congrArg (· + hand q write) (h1.symm.trans (grants_leave hg))

theorem QueueInv.granted (hi : QueueInv s log hand V) (hcall : s.kernel.calling) {x : QueueWait}
    (hp : s.pending s.kernel.runTask = some x)
    (htime : (s.kernel.status s.kernel.runTask).timeout = false)
    (hhand : ∀ q write, hand' q write = hand q write + if .readWriteList q write = x.list then 1 else 0) :
    QueueInv { s with pending := Function.update s.pending s.kernel.runTask none } log hand' V := by
  obtain ⟨since, clock, hw⟩ := hi.waits
  have hcaller := hw.machine.calling_caller hcall
  have hw' := hw.resume hcall
  rw [if_neg (by rw [htime]; exact Bool.false_ne_true)] at hw'
  have hwaiting := @waiting_update s s.kernel.runTask none
  have hpw : s.waiting s.kernel.runTask = some x.list := congrArg (Option.map QueueWait.list) hp
  have hg : woken s.kernel s.kernel.runTask = true := by
    have h := (hw.task _ hcaller.bound).woken (by rw [hpw]; rfl) (hw.machine.caller_gone hcall)
    rw [show (s.kernel.gTaskCBArray s.kernel.runTask).taskStatus.timeout = false from htime] at h
    simpa using h.symm
  refine hi.kernel rfl rfl ⟨since, clock + 1, ?_⟩ (fun _ _ _ => rfl) (fun _ h => .inl h) (fun t call hp' htm => ?_)
    fun q write => ?_
  · show Waits _ V ({ s with pending := Function.update s.pending s.kernel.runTask none } :
      QueueState).waiting _ _ _
    rw [hwaiting]
    exact hw'
  · by_cases ht : t = s.kernel.runTask
    · have h0 : Function.update s.pending s.kernel.runTask none t = none := by rw [ht, Function.update_self]
      cases h0.symm.trans hp'
    · exact hi.calls t call ((Function.update_of_ne ht _ _).symm.trans hp') htm
  · show grants ({ s with pending := Function.update s.pending s.kernel.runTask none } :
      QueueState).waiting (woken s.kernel) _ + _ = grants s.waiting (woken s.kernel) _ + _
    have hone := @grants_resume _ _ _ _ (.readWriteList q write) _ hcaller.bound hpw hg
    rw [hwaiting, hhand, ← hone]
    show grants (Function.update s.waiting s.kernel.runTask none) _ _ + _ = _
    omega

/-- A deletion of a task that holds a slot. -/
def LosesSlot (s : QueueState) (event : QueueEvent) : Prop :=
  ∃ q t, event = .kernel (.delete t) ∧ osCheckTaskIDValid s.kernel t = .losOk ∧ HoldsSlot s q t

/-- A task that has been granted a slot is there to use it, or takes it with it when it is deleted. -/
theorem QueueInv.settle (hi : QueueInv s log hand V) {e : KernelEvent} (hstep : kernelStep s.kernel e = some k) :
    ∃ hand' V', QueueInv (s.settle k) log hand' V' ∧ (¬ LosesSlot s (.kernel e) → hand' = hand) := by
  obtain ⟨since, clock, hw⟩ := hi.waits
  obtain ⟨V', hw', hq⟩ := hw.kernel hstep
  have hwaiting : (s.settle k).waiting = fun t => if (k.status t).unused then none else s.waiting t := by
    funext t
    show (if (k.status t).unused then none else s.pending t).map _ = _
    split <;> rfl
  have hpw : ∀ {t x}, s.pending t = some x → s.waiting t = some x.list := fun hp =>
    congrArg (Option.map QueueWait.list) hp
  have hlive : ∀ t x, s.pending t = some x → (s.kernel.status t).unused = false := fun t x hp =>
    (hw.task t (hw.bound t (by rw [hpw hp]; rfl))).live (by rw [hpw hp]; rfl)
  have hstays : ∀ t x, s.pending t = some x → e ≠ .delete t → (k.status t).unused = false := fun t x hp he =>
    Quieted.live hq (fun u hu hut => he (by rw [hu, hut])) (hw.bound t (by rw [hpw hp]; rfl)) (hlive t x hp)
  -- all but the count of the slots
  have hrest : ∀ hand', (∀ q write, slotsGranted (s.settle k) q write + hand' q write =
      slotsGranted s q write + hand q write) → QueueInv (s.settle k) log hand' V' := by
    refine fun hand' hslots => hi.kernel rfl rfl ⟨since, clock + 1, ?_⟩ hq.role (fun l hnil => ?_)
      (fun t call hp htm => ?_) hslots
    · rw [hwaiting]
      exact hw'.by_status
    · have hsub := hq.wait l
      rw [hnil] at hsub
      exact .inl (List.sublist_nil.mp hsub)
    · have hsome : (if (k.status t).unused then none else s.pending t) = some (.operate call) := hp
      split at hsome
      · cases hsome
      · next hun =>
        refine hi.calls t call hsome ?_
        rcases hq.waiter hw.machine.inv (hw.bound t (by rw [hpw hsome]; rfl)) with
          ⟨h1, _, _⟩ | ⟨h1, _, _, _⟩ | ⟨_, h2, _⟩
        · exact h1.symm.trans htm
        · rw [show (k.gTaskCBArray t).taskStatus.timeout = false from htm] at h1
          cases h1
        · rcases h2 with h2 | h2
          · rw [show (s.kernel.gTaskCBArray t).taskStatus.unused = false from hlive t _ hsome] at h2
            cases h2
          · exact absurd h2 hun
  have hgranted : ∀ q write, slotsGranted (s.settle k) q write =
      grants (fun t => if (k.status t).unused then none else s.waiting t) (woken s.kernel)
        (.readWriteList q write) := by
    intro q write
    show grants (s.settle k).waiting (woken k) _ = _
    rw [hwaiting, ← hw'.grants_eq]
  by_cases hlost : ∃ t call, s.pending t = some (.operate call) ∧ woken s.kernel t = true ∧
      (k.status t).unused = true
  · obtain ⟨t, call, hp, hg, hun⟩ := hlost
    have he : e = .delete t := by
      by_contra he
      have h := hstays t _ hp he
      rw [hun] at h
      cases h
    refine ⟨inHand hand call.queueID call.operateType.write, V', hrest _ fun q write => ?_, fun hkeep => ?_⟩
    · have hone := @grants_resume _ _ _ _ (.readWriteList q write) _ (hw.bound t (by rw [hpw hp]; rfl)) (hpw hp) hg
      have hsame : slotsGranted (s.settle k) q write =
          grants (Function.update s.waiting t none) (woken s.kernel) (.readWriteList q write) := by
        rw [hgranted]
        refine grants_congr fun u _ => and_congr_right fun _ => ?_
        by_cases hut : u = t
        · rw [hut, Function.update_self, if_pos hun]
        · rw [Function.update_of_ne hut]
          cases hu : s.pending u with
          | none => rw [show s.waiting u = none from congrArg (Option.map QueueWait.list) hu, ite_self]
          | some x =>
            have h := hstays u x hu (by rw [he]; simpa using fun h => hut h.symm)
            rw [if_neg (by rw [h]; exact Bool.false_ne_true)]
      have hif : (if WaitList.readWriteList q write = QueueWait.list (.operate call) then 1 else 0) =
          if q = call.queueID ∧ write = call.operateType.write then 1 else 0 :=
        if_congr (by
          show WaitList.readWriteList q write = .readWriteList call.queueID call.operateType.write ↔ _
          rw [WaitList.readWriteList.injEq]) rfl rfl
      show _ + (hand q write + if q = call.queueID ∧ write = call.operateType.write then 1 else 0) =
        grants s.waiting (woken s.kernel) _ + _
      rw [hsame, ← hone, hif]
      omega
    · rw [he] at hstep
      simp only [kernelStep, losTaskDelete] at hstep
      by_cases hv : osCheckTaskIDValid s.kernel t = .losOk
      · exact absurd ⟨call.queueID, t, by rw [he], hv, call, hp, rfl, hg⟩ hkeep
      · rw [if_pos hv, Option.map_some, Option.some.injEq] at hstep
        have h := hlive t _ hp
        rw [← hstep] at hun
        cases hun.symm.trans h
  · refine ⟨hand, V', hrest hand fun q write => ?_, fun _ => rfl⟩
    rw [hgranted]
    refine congrArg (· + hand q write) (grants_congr fun t _ => and_congr_right fun hg => ?_)
    by_cases hun : (k.status t).unused = true
    · rw [if_pos hun]
      refine iff_of_false (by simp) fun hp => ?_
      unfold QueueState.waiting at hp
      rw [Option.map_eq_some_iff] at hp
      obtain ⟨x, hx, hl⟩ := hp
      cases x with
      | operate call => exact hlost ⟨t, call, hx, hg, hun⟩
      | mailAlloc q' => cases hl
    · rw [if_neg hun]

def freshCB (len msgSize : Nat) (b : Block) : LosQueueCB :=
  ⟨some b, true, len, msgSize, 0, 0, fun write => if write then len else 0⟩

omit [Config] in
theorem update_queueState : (fun q' => (Function.update s.queue q cb q').queueState) =
    Function.update (fun q' => (s.queue q').queueState) q cb.queueState := by
  funext q'
  by_cases hqq : q' = q
  · rw [hqq, Function.update_self, Function.update_self]
  · rw [Function.update_of_ne hqq, Function.update_of_ne hqq]

theorem QueueInv.operation_used (hi : QueueInv s log hand V) (hp : s.pending t = some (.operate call))
    (hg : woken s.kernel t = true) : (s.queue call.queueID).queueState = true := by
  refine (hi.calls t call hp ?_).2.1
  unfold woken at hg
  rw [Bool.and_eq_true, Bool.not_eq_true', Bool.not_eq_true'] at hg
  exact hg.2

theorem QueueInv.slotsGranted_unused (hi : QueueInv s log hand V) (hst : (s.queue q).queueState = false)
    (write : Bool) : slotsGranted s q write = 0 := by
  refine grants_zero fun t _ hg hp => ?_
  unfold QueueState.waiting at hp
  rw [Option.map_eq_some_iff] at hp
  obtain ⟨x, hx, hl⟩ := hp
  cases x with
  | operate call =>
    have hused := hi.operation_used hx hg
    injection hl with hq
    rw [hq, hst] at hused
    cases hused
  | mailAlloc q' => cases hl

omit [Config] in
theorem UsedQueue.congr {heap heap' : Nat → Option Nat} {granted hand : Bool → Nat} {ops : List QueueOp}
    (hu : UsedQueue cb heap granted hand ops V q)
    (hrole : ∀ l, OtherList q l → V'.role (.wait l) = V.role (.wait l))
    (hcontent : ∀ l, V'.content (.wait l) = V.content (.wait l))
    (hheap : ∀ b, cb.queue = some b → heap' b.addr = heap b.addr) :
    UsedQueue cb heap' granted hand ops V' q := by
  refine ⟨hu.shape, fun l hl => (hrole l hl).trans (hu.heads l hl), ?_, hu.slots, fun write hc => ?_, hu.stored⟩
  · obtain ⟨b, hb, h⟩ := hu.block
    exact ⟨b, hb, (hheap b hb).trans h⟩
  · rw [hcontent]
    exact hu.empty write hc

/-- One control block is taken into use or given back, while no task is inside a call on it. -/
theorem QueueInv.turn (hi : QueueInv s log hand V) (hpending : s'.pending = s.pending)
    (hqueue : s'.queue = Function.update s.queue q cb) (hrel : Relinked s.kernel V s'.kernel V')
    (hpool : PoolInv .gFreeQueueList (fun q => .readWriteList q true) Config.queueLimit
      (Function.update (fun q => (s.queue q).queueState) q cb.queueState) s'.kernel V')
    (hrole : ∀ q', q' ≠ q → ∀ l, OtherList q' l → V'.role (.wait l) = V.role (.wait l))
    (hheap : ∀ q' < Config.queueLimit, q' ≠ q → (s.queue q').queueState = true →
      ∀ b, (s.queue q').queue = some b → s'.heap b.addr = s.heap b.addr)
    (haway : ∀ t call, s.pending t = some (.operate call) → (s.kernel.status t).timeout = false →
      call.queueID ≠ q)
    (hlog : ∀ q', q' ≠ q → log' q' = log q') (hhand : ∀ q', q' ≠ q → hand' q' = hand q')
    (hself : cb.queueState = true → UsedQueue cb s'.heap (slotsGranted s q) (hand' q) (log' q) V' q)
    (hblank : cb.queueState = false → ∀ l, OtherList q l → Blank V' l)
    (hapart : cb.queueState = true → ∀ q' < Config.queueLimit, q' ≠ q → (s.queue q').queueState = true →
      (s.queue q').queue.map Block.addr ≠ cb.queue.map Block.addr) :
    QueueInv s' log' hand' V' := by
  have hstatus : ∀ t, s'.kernel.status t = s.kernel.status t := fun t => by
    rw [hrel.same]
    rfl
  have hwoken : woken s'.kernel = woken s.kernel := funext fun t => by
    unfold woken
    rw [hstatus]
  have hwaiting : s'.waiting = s.waiting := by
    funext t
    unfold QueueState.waiting
    rw [hpending]
  have hgranted : slotsGranted s' = slotsGranted s := by
    funext q' write
    unfold slotsGranted
    rw [hwoken, hwaiting]
  have hqself : s'.queue q = cb := by rw [hqueue, Function.update_self]
  have hqother : ∀ {q'}, q' ≠ q → s'.queue q' = s.queue q' := fun h => by
    rw [hqueue, Function.update_of_ne h]
  refine ⟨?_, ?_, fun q' hq' hst => ?_, fun q' hq' hst l hl => ?_, fun q1 hq1 q2 hq2 h1 h2 he => ?_,
    fun t call hp htm => ?_⟩
  · obtain ⟨since, clock, hw⟩ := hi.waits
    rw [hwoken, hwaiting]
    exact ⟨since, _, hw.relinked hpool.machine hrel⟩
  · rw [hqueue, update_queueState]
    exact hpool
  · rw [hgranted]
    by_cases hqq : q' = q
    · rw [hqq] at hst ⊢
      rw [hqself] at hst ⊢
      exact hself hst
    · rw [hqother hqq] at hst ⊢
      rw [hlog q' hqq, hhand q' hqq]
      exact (hi.used q' hq' hst).congr (hrole q' hqq) hrel.content (hheap q' hq' hqq hst)
  · by_cases hqq : q' = q
    · rw [hqq] at hst hl
      rw [hqself] at hst
      exact hblank hst l hl
    · rw [hqother hqq] at hst
      unfold Blank
      rw [hrole q' hqq l hl, hrel.content]
      exact hi.blank q' hq' hst l hl
  · by_cases hqq1 : q1 = q
    · by_cases hqq2 : q2 = q
      · rw [hqq1, hqq2]
      · rw [hqq1, hqself] at h1 he
        rw [hqother hqq2] at h2 he
        exact absurd he.symm (hapart h1 q2 hq2 hqq2 h2)
    · by_cases hqq2 : q2 = q
      · rw [hqq2, hqself] at h2 he
        rw [hqother hqq1] at h1 he
        exact absurd he (hapart h2 q1 hq1 hqq1 h1)
      · rw [hqother hqq1] at h1 he
        rw [hqother hqq2] at h2 he
        exact hi.apart q1 hq1 q2 hq2 h1 h2 he
  · rw [hpending] at hp
    rw [hstatus] at htm
    rw [hqother (haway t call hp htm)]
    exact hi.calls t call hp htm

theorem QueueInv.create (hi : QueueInv s log hand V) {len msgSize : Nat} {b : Block}
    (hne : losListEmpty s.kernel .gFreeQueueList = false) (hlen : 0 < len) (hlen' : len < 65536)
    (hsize : 4 < msgSize) (hsize' : msgSize < 65536) (hb : s.heap b.addr = none) :
    ∃ q < Config.queueLimit, (s.queue q).queueState = false ∧
      losDlListFirst s.kernel .gFreeQueueList = .wait (.readWriteList q true) ∧ ∃ V',
      QueueInv { s with
        kernel := losListInit (losListInit (losListInit (losListDelete s.kernel (.wait (.readWriteList q true)))
          (.wait (.readWriteList q false))) (.wait (.readWriteList q true))) (.wait (.memList q))
        queue := Function.update s.queue q (freshCB len msgSize b)
        heap := Function.update s.heap b.addr (some (len * msgSize)) }
      (Function.update log q []) (Function.update hand q fun _ => 0) V' := by
  have hf := hi.pool.machine.inv.core.ready.forest
  obtain ⟨q, hq, hst, hfirst, hnil, V1, hpool1, hrel1, hrole1⟩ := hi.pool.take .queue queueList_inj
    (by rw [hne]; exact Bool.false_ne_true)
  have hblank1 : ∀ l, OtherList q l → Blank V1 l := by
    intro l hl
    have hrole : V1.role (.wait l) = V.role (.wait l) := by
      refine hrole1 _ ?_
      rcases hl with rfl | rfl <;> simp
    unfold Blank
    rw [hrole, hrel1.content]
    exact hi.blank q hq hst l hl
  obtain ⟨V2, hpool2, hrel2, hhead2, hrole2⟩ := hpool1.header .queue (hblank1 _ (.inl rfl)) (by simp)
  have hblank2 : Blank V2 (.memList q) := by
    unfold Blank
    rw [hrole2 _ (by simp), hrel2.content]
    exact hblank1 _ (.inr rfl)
  obtain ⟨V3, hpool3, hrel3, hhead3, hrole3⟩ := hpool2.header .queue hblank2 (by simp)
  have hrel := hrel1.trans (hrel2.trans hrel3)
  rw [losListInit_comm (show Node.wait (.readWriteList q true) ≠ .wait (.readWriteList q false) by simp)]
    at hpool3 hrel
  have hrole : ∀ q', q' ≠ q → ∀ l, OtherList q' l → V3.role (.wait l) = V.role (.wait l) := by
    intro q' hqq l hl
    rcases hl with rfl | rfl
    · rw [hrole3 _ (by simp), hrole2 _ (by simpa using hqq), hrole1 _ (by simp)]
    · rw [hrole3 _ (by simpa using hqq), hrole2 _ (by simp), hrole1 _ (by simp)]
  have haddr : ∀ q' < Config.queueLimit, (s.queue q').queueState = true →
      (s.queue q').queue.map Block.addr ≠ some b.addr := by
    intro q' hq' hst' he
    obtain ⟨b', hb', hheap⟩ := (hi.used q' hq' hst').block
    rw [hb', Option.map_some, Option.some.injEq] at he
    rw [he, hb] at hheap
    cases hheap
  refine ⟨q, hq, hst, hfirst, V3, hi.turn rfl rfl hrel hpool3 hrole (fun q' hq' hqq hst' b' hb' => ?_)
    (fun t call hp htm he => ?_) (fun q' hqq => Function.update_of_ne hqq _ _)
    (fun q' hqq => Function.update_of_ne hqq _ _) (fun _ => ?_) nofun
    fun _ q' hq' _ hst' => haddr q' hq' hst'⟩
  · refine Function.update_of_ne (fun he => haddr q' hq' hst' ?_) _ _
    rw [hb', Option.map_some, he]
  · have h := (hi.calls t call hp htm).2.1
    rw [he, hst] at h
    cases h
  · have hg := hi.slotsGranted_unused hst
    rw [Function.update_self, Function.update_self]
    refine ⟨⟨hlen, hlen', hsize, hsize', hlen, hlen⟩, fun l hl => ?_, ⟨b, rfl, Function.update_self _ _ _⟩,
      ?_, fun write _ => ?_, ?_⟩
    · rcases hl with rfl | rfl
      · rw [hrole3 _ (by simp)]
        exact hhead2
      · exact hhead3
    · rw [hg, hg]
      show 0 + 0 + 0 + (len + 0 + 0) = len
      omega
    · rw [hrel.content]
      cases write with
      | true => exact hnil
      | false => exact (hi.blank q hq hst _ (.inl rfl)).content_nil hf
    · rw [hg]
      rfl

theorem QueueInv.holder_iff (hi : QueueInv s log hand V) :
    (∃ t, HoldsSlot s q t) ↔ slotsGranted s q false + slotsGranted s q true ≠ 0 := by
  obtain ⟨since, clock, hw⟩ := hi.waits
  constructor
  · rintro ⟨t, call, hp, rfl, hg⟩
    have hpw : s.waiting t = some (.readWriteList call.queueID call.operateType.write) :=
      congrArg (Option.map QueueWait.list) hp
    have hpos := grants_pos (hw.bound t (by rw [hpw]; rfl)) hg hpw
    unfold slotsGranted
    cases hwr : call.operateType.write <;> rw [hwr] at hpos <;> omega
  · intro hne
    by_contra hno
    have hzero : ∀ write, slotsGranted s q write = 0 := by
      refine fun write => grants_zero fun t _ hg hp => hno ⟨t, ?_⟩
      unfold QueueState.waiting at hp
      rw [Option.map_eq_some_iff] at hp
      obtain ⟨x, hx, hl⟩ := hp
      cases x with
      | operate call =>
        injection hl with hq
        exact ⟨call, hx, hq, hg⟩
      | mailAlloc q' => cases hl
    rw [hzero, hzero] at hne
    exact hne rfl

theorem QueueInv.away (hi : QueueInv s log hand V)
    (hnil : ∀ write, V.content (.wait (.readWriteList q write)) = []) (hno : ∀ t, ¬ HoldsSlot s q t)
    (hp : s.pending t = some (.operate call)) (htm : (s.kernel.status t).timeout = false) :
    call.queueID ≠ q := by
  rintro rfl
  obtain ⟨since, clock, hw⟩ := hi.waits
  have hpw : s.waiting t = some (.readWriteList call.queueID call.operateType.write) :=
    congrArg (Option.map QueueWait.list) hp
  have hsome : (s.waiting t).isSome = true := by rw [hpw]; rfl
  have htask := hw.task t (hw.bound t hsome)
  by_cases hon : ∃ l, V.role (.pendList t) = .member (.wait l)
  · obtain ⟨l, hl⟩ := hon
    have he := (htask.waiting l hl).1
    rw [hpw, Option.some.injEq] at he
    have hmem := (hw.machine.inv.core.ready.forest.mem _ _).mpr hl
    rw [← he, hnil] at hmem
    cases hmem
  · have h := htask.woken hsome fun l hl => hon ⟨l, hl⟩
    rw [show (s.kernel.gTaskCBArray t).taskStatus.timeout = false from htm] at h
    exact hno t ⟨call, hp, rfl, by simpa using h.symm⟩

theorem QueueInv.giveBack (hi : QueueInv s log hand V) (hq : q < Config.queueLimit)
    (hused : (s.queue q).queueState = true) {b : Block} (hb : (s.queue q).queue = some b)
    (hnil : ∀ write, V.content (.wait (.readWriteList q write)) = [])
    (hmail : V.content (.wait (.memList q)) = []) (hno : ∀ t, ¬ HoldsSlot s q t) :
    ∃ V', QueueInv { s with
      kernel := losListAdd s.kernel .gFreeQueueList (.wait (.readWriteList q true))
      queue := Function.update s.queue q { s.queue q with queue := none, queueState := false }
      heap := Function.update s.heap b.addr none } log hand V' := by
  obtain ⟨V', hpool, hrel, hrole⟩ := hi.pool.give .queue queueList_inj hq hused (hnil true)
  have hother : ∀ q' l, OtherList q' l → V'.role (.wait l) = V.role (.wait l) := by
    intro q' l hl
    refine hrole _ ?_
    rcases hl with rfl | rfl <;> simp
  refine ⟨V', hi.turn rfl rfl hrel hpool (fun q' _ => hother q') (fun q' hq' hqq hst' b' hb' => ?_)
    (fun t call hp htm => hi.away hnil hno hp htm) (fun _ _ => rfl) (fun _ _ => rfl) nofun
    (fun _ l hl => ?_) nofun⟩
  · refine Function.update_of_ne (fun he => hqq (hi.apart q' hq' q hq hst' hused ?_)) _ _
    rw [hb', hb, Option.map_some, Option.map_some, he]
  · refine .inr ⟨(hother q l hl).trans ((hi.used q hq hused).heads l hl), ?_⟩
    rw [hrel.content]
    rcases hl with rfl | rfl
    · exact hnil false
    · exact hmail

/-- What `LOS_QueueDelete` needs. -/
structure Deletable (s : QueueState) (q : Nat) : Prop where
  bound : q < Config.queueLimit
  used : (s.queue q).queueState = true
  lists : ∀ write, losListEmpty s.kernel (.wait (.readWriteList q write)) = true
  mail : losListEmpty s.kernel (.wait (.memList q)) = true
  counts : (s.queue q).readWriteableCnt true + (s.queue q).readWriteableCnt false = (s.queue q).queueLen

theorem losQueueDelete_spec (hi : QueueInv s log hand V) (q : Nat) :
    (¬ Deletable s q ∧ (losQueueDelete s q).1 = s ∧ (losQueueDelete s q).2 ≠ .losOk) ∨
    (Deletable s q ∧ (losQueueDelete s q).2 = .losOk ∧ ∃ b V', (s.queue q).queue = some b ∧
      (losQueueDelete s q).1 = { s with
        kernel := losListAdd s.kernel .gFreeQueueList (.wait (.readWriteList q true))
        queue := Function.update s.queue q { s.queue q with queue := none, queueState := false }
        heap := Function.update s.heap b.addr none } ∧
      QueueInv (losQueueDelete s q).1 log hand V') := by
  unfold losQueueDelete
  dsimp only
  split
  · next h => exact .inl ⟨fun hd => absurd hd.bound (by omega), rfl, nofun⟩
  next hq =>
  have hq : q < Config.queueLimit := Nat.lt_of_not_le hq
  split
  · next h =>
    refine .inl ⟨fun hd => ?_, rfl, nofun⟩
    rw [hd.used] at h
    cases h
  next hused =>
  have hused : (s.queue q).queueState = true := by simpa using hused
  split
  · next h =>
    refine .inl ⟨fun hd => ?_, rfl, nofun⟩
    rw [hd.lists] at h
    cases h
  next h0 =>
  split
  · next h =>
    refine .inl ⟨fun hd => ?_, rfl, nofun⟩
    rw [hd.lists] at h
    cases h
  next h1 =>
  split
  · next h =>
    refine .inl ⟨fun hd => ?_, rfl, nofun⟩
    rw [hd.mail] at h
    cases h
  next hm =>
  split
  · next h => exact .inl ⟨fun hd => h hd.counts, rfl, nofun⟩
  next hc =>
  have hf := hi.pool.machine.inv.core.ready.forest
  have hu := hi.used q hq hused
  obtain ⟨b, hb, hheap⟩ := hu.block
  have hlists : ∀ write, losListEmpty s.kernel (.wait (.readWriteList q write)) = true := by
    intro write
    cases write with
    | true => simpa using h1
    | false => simpa using h0
  have hmail : losListEmpty s.kernel (.wait (.memList q)) = true := by simpa using hm
  have hd : Deletable s q := ⟨hq, hused, hlists, hmail, not_not.mp hc⟩
  have hnil : ∀ write, V.content (.wait (.readWriteList q write)) = [] := by
    intro write
    refine (hf.listEmpty_iff ?_).mp (hlists write)
    cases write with
    | true => exact hi.pool.taken q hq hused
    | false => exact hu.heads _ (.inl rfl)
  have hno : ∀ t, ¬ HoldsSlot s q t := by
    intro t ht
    refine hi.holder_iff.mp ⟨t, ht⟩ ?_
    have h := hu.slots
    have h' := hd.counts
    omega
  obtain ⟨V', hi'⟩ := hi.giveBack hq hused hb hnil ((hf.listEmpty_iff (hu.heads _ (.inr rfl))).mp hmail) hno
  refine .inr ⟨hd, ?_⟩
  simp only [hb, losMemFree, QueueState.setQueue, hheap, Option.isSome_some, if_true]
  exact ⟨trivial, b, V', rfl, rfl, hi'⟩

theorem losQueueCreate_spec (hi : QueueInv s log hand V) {len maxMsgSize : Fin 65536} {queueID : Bool}
    {queue : Option Block} {ret : QueueErrno} {o : Option Nat}
    (heq : losQueueCreate s len queueID maxMsgSize queue = some (s', ret, o)) :
    (s' = s ∧ ret ≠ .losOk) ∨
    (ret = .losOk ∧ ∃ q < Config.queueLimit, (s.queue q).queueState = false ∧ ∃ b, queue = some b ∧
      s.heap b.addr = none ∧ o = some (q % 2 ^ 16) ∧ s'.pending = s.pending ∧ s'.msg = s.msg ∧
      s'.queue = Function.update s.queue q (freshCB len.val (maxMsgSize.val + 4) b) ∧
      s'.heap = Function.update s.heap b.addr (some (len.val * (maxMsgSize.val + 4))) ∧
      ∃ V', QueueInv s' (Function.update log q []) (Function.update hand q fun _ => 0) V') := by
  unfold losQueueCreate at heq
  split at heq
  · cases heq
    exact .inl ⟨rfl, by decide⟩
  split at heq
  · cases heq
    exact .inl ⟨rfl, by decide⟩
  next hbig =>
  split at heq
  · cases heq
    exact .inl ⟨rfl, by decide⟩
  next hzero =>
  have hlen : 0 < len.val := Nat.pos_of_ne_zero fun h => hzero (.inl (Fin.ext h))
  have hmax : 0 < maxMsgSize.val := Nat.pos_of_ne_zero fun h => hzero (.inr (Fin.ext h))
  unfold osNullShort at hbig
  cases queue with
  | none =>
    cases heq
    exact .inl ⟨rfl, by decide⟩
  | some b =>
    simp only [losMemAlloc, Option.bind_eq_bind] at heq
    split at heq
    · cases heq
    next hfresh =>
    have hb : s.heap b.addr = none := by simpa using hfresh
    rw [Option.bind_some] at heq
    dsimp only at heq
    cases hempty : losListEmpty s.kernel .gFreeQueueList with
    | true =>
      rw [if_pos hempty, Option.some.injEq, Prod.mk.injEq, Prod.mk.injEq] at heq
      refine .inl ⟨?_, by rw [← heq.2.1]; decide⟩
      rw [← heq.1]
      simp only [losMemFree, Function.update_self, Option.isSome_some, if_true, Function.update_idem]
      rw [Function.update_eq_self_iff.mpr hb.symm]
    | false =>
      obtain ⟨q, hq, hst, hfirst, V', hi'⟩ := hi.create hempty hlen len.isLt
        (show 4 < maxMsgSize.val + 4 by omega) (by omega) hb
      rw [if_neg (by rw [hempty]; exact Bool.false_ne_true), hfirst] at heq
      simp only [getQueueList, Option.bind_some, Option.some.injEq, Prod.mk.injEq] at heq
      obtain ⟨rfl, rfl, rfl⟩ := heq
      exact .inr ⟨rfl, q, hq, hst, b, rfl, hb, rfl, rfl, rfl, rfl, rfl, V', hi'⟩

end

end LiteosM.Ipc
