import LiteosM.Ipc.Queue

/-!
# Message queues

`mqueue.c`: names and descriptors for the queues of the kernel. The functions run with `g_mqueueMutex`
taken. A block that is asked for is an argument: the one that `LOS_MemAlloc` returns, or none.
-/

namespace LiteosM.Mqueue

open LiteosM.Kernel LiteosM.Ipc LiteosM.Lib.ByteMemory

inductive MqErrno
  | einval
  | eagain
  | enospc
  | etimedout
  | enfile
  | eintr
  | enomem
  | enametoolong
  | eexist
  | enoent
  | ebadf
  | efault
deriving DecidableEq

/-- `mq_name` is the block with the string in it, `mqcb` the number of the control block, `mq_personal`
the linked descriptors by their address. -/
structure MqArray where
  mqId : Nat
  unlinkflag : Bool
  mqName : Option (Nat × List Byte)
  mqcb : Option Nat
  mqPersonal : List Nat

/-- `mqStatus` says that the field has the value `MQ_USE_MAGIC`. -/
structure MqPersonal where
  mqPosixdes : Nat
  mqFlags : Nat
  mqStatus : Bool

structure MqAttr where
  mqFlags : Int
  mqMaxmsg : Int
  mqMsgsize : Int

structure MqState extends QueueState where
  gQueueTable : Nat → MqArray
  personal : Nat → MqPersonal

/-- `LOSCFG_BASE_IPC_QUEUE_LIMIT` as `mqueue_impl.h` defines it again. -/
def queueTableSize : Nat := 20

def pathMax : Nat := 256

def ushrtMax : Nat := 65535

def oCreat : Nat := 0o100

def oExcl : Nat := 0o200

def fnonblock : Nat := 0o4000

def mqpersonalSize : Nat := 24

def mqDefaultAttr : MqAttr := ⟨0, 16, 64⟩

def mapMqErrno : QueueErrno → Option MqErrno
  | .losOk => none
  | .queueIsfull => some .eagain
  | .queueIsempty => some .eagain
  | .queueCreateNoMemory => some .enospc
  | .queueTimeout => some .etimedout
  | .queueCbUnavailable => some .enfile
  | .queueReadInInterrupt => some .eintr
  | .queueWriteInInterrupt => some .eintr
  | _ => some .einval

def mqNameCheck (mqName : Option (List Byte)) : Except MqErrno (List Byte) :=
  match mqName with
  | none => .error .einval
  | some mqName =>
    if mqName.length = 0 then .error .einval
    else if pathMax - 1 < mqName.length then .error .enametoolong
    else .ok mqName

def MqState.modifyEntry (s : MqState) (i : Nat) (f : MqArray → MqArray) : MqState :=
  { s with gQueueTable := Function.update s.gQueueTable i (f (s.gQueueTable i)) }

def MqState.memAlloc (s : MqState) (block : Option Block) (size : Nat) : Option MqState :=
  (losMemAlloc s.toQueueState block size).map fun q => { s with toQueueState := q }

def MqState.memFree (s : MqState) (addr : Nat) : MqState × QueueErrno :=
  let r := losMemFree s.toQueueState (some ⟨addr, atNull⟩)
  ({ s with toQueueState := r.1 }, r.2)

def getMqueueCBByName (s : MqState) (name : List Byte) : Option Nat :=
  (List.range queueTableSize).find? fun i => (s.gQueueTable i).mqName.map Prod.snd = some name

/-- A control block has its number for an ID. -/
def getMqueueCBByID (queueID : Nat) : Option Nat := if queueTableSize ≤ queueID then none else some queueID

/-- `strncpy_s` succeeds, the block has room for the name. -/
def saveMqueueName (s : MqState) (mqName : List Byte) (i : Nat) (block : Option Block) :
    Option (MqState × Option MqErrno) := do
  let s ← s.memAlloc block (mqName.length + 1)
  match block with
  | none => some (s.modifyEntry i fun e => { e with mqName := none }, some .enomem)
  | some block => some (s.modifyEntry i fun e => { e with mqName := some (block.addr, mqName) }, none)

/-- `ERROUT` of `DoMqueueCreate`. -/
def freeName (s : MqState) (i : Nat) : MqState :=
  match (s.gQueueTable i).mqName with
  | none => s
  | some (addr, _) => (s.memFree addr).1.modifyEntry i fun e => { e with mqName := none }

section

variable [Config]

/-- `LOS_QueueDelete` for the table. -/
def MqState.queueDelete (s : MqState) (mqId : Nat) : MqState × QueueErrno :=
  let r := losQueueDelete s.toQueueState mqId
  ({ s with toQueueState := r.1 }, r.2)

/-- What `DoMqueueCreate` does without memory for the descriptor. -/
def undoCreate (s : MqState) (i mqcb : Nat) : MqState :=
  let s := s.modifyEntry i fun e => { e with mqPersonal := [] }
  let s := (s.queueDelete (s.gQueueTable i).mqId).1
  let s := { s with toQueueState := s.setQueue mqcb { s.queue mqcb with queue := none } }
  freeName (s.modifyEntry i fun e => { e with mqcb := none }) i

/-- The rest of `DoMqueueCreate` once the name is saved: the first descriptor. -/
def firstPersonal (s : MqState) (attr : MqAttr) (openFlag i mqcb : Nat) (personal : Option Block) :
    Option (MqState × Except MqErrno Nat) := do
  let s := s.modifyEntry i fun e => { e with mqcb := some mqcb }
  let s ← s.memAlloc personal mqpersonalSize
  match personal with
  | none => some (undoCreate s i mqcb, .error .enospc)
  | some personal =>
    let s := s.modifyEntry i fun e => { e with unlinkflag := false, mqPersonal := [personal.addr] }
    let flags := openFlag ||| (attr.mqFlags % 2 ^ 32).toNat &&& fnonblock
    some ({ s with personal := Function.update s.personal personal.addr ⟨i, flags, true⟩ }, .ok personal.addr)

/-- `DoMqueueCreate` once the kernel has made the queue. -/
def entryCreate (s : MqState) (attr : MqAttr) (mqName : List Byte) (openFlag mqueueID : Nat)
    (name personal : Option Block) : Option (MqState × Except MqErrno Nat) :=
  let i := mqueueID % 2 ^ 16
  if queueTableSize ≤ i then none
  else if (s.gQueueTable i).mqcb.isSome then some (s, .error .einval)
  else do
    let s := s.modifyEntry i fun e => { e with mqId := mqueueID }
    let (s, ret) ← saveMqueueName s mqName i name
    match ret with
    | some errno => some (freeName s i, .error errno)
    | none =>
      match getMqueueCBByID (s.gQueueTable i).mqId with
      | none => some (freeName s i, .error .enospc)
      | some mqcb => firstPersonal s attr openFlag i mqcb personal

/-- `queue`, `name` and `personal` are what the allocations return. The access to a table entry that
does not exist has no result. -/
def doMqueueCreate (s : MqState) (attr : MqAttr) (mqName : List Byte) (openFlag : Nat)
    (queue name personal : Option Block) : Option (MqState × Except MqErrno Nat) := do
  let (q, err, mqueueID) ← losQueueCreate s.toQueueState (Fin.ofNat 65536 attr.mqMaxmsg.toNat) true
    (Fin.ofNat 65536 attr.mqMsgsize.toNat) queue
  let s := { s with toQueueState := q }
  match mapMqErrno err with
  | some errno => some (s, .error errno)
  | none => entryCreate s attr mqName openFlag (← mqueueID) name personal

def doMqueueOpen (s : MqState) (i openFlag : Nat) (personal : Option Block) :
    Option (MqState × Except MqErrno Nat) :=
  if (s.gQueueTable i).unlinkflag then some (s, .error .einval)
  else do
    let s ← s.memAlloc personal mqpersonalSize
    match personal with
    | none => some (s, .error .enospc)
    | some personal =>
      let s := s.modifyEntry i fun e => { e with mqPersonal := personal.addr :: e.mqPersonal }
      some ({ s with personal := Function.update s.personal personal.addr ⟨i, openFlag, true⟩ }, .ok personal.addr)

def attrRefused (attr : MqAttr) : Bool :=
  attr.mqMaxmsg < 0 ∨ (ushrtMax : Int) < attr.mqMaxmsg ∨ attr.mqMsgsize < 0 ∨ ((ushrtMax - 4 : Nat) : Int) < attr.mqMsgsize

/-- `error` stands for the return of `(mqd_t)-1`. -/
def mqOpen (s : MqState) (mqName : Option (List Byte)) (openFlag : Nat) (attr : Option MqAttr)
    (queue name personal : Option Block) : Option (MqState × Except MqErrno Nat) :=
  match mqNameCheck mqName with
  | .error errno => some (s, .error errno)
  | .ok mqName =>
    match getMqueueCBByName s mqName, decide (openFlag &&& oCreat ≠ 0) with
    | some i, true =>
      if openFlag &&& oExcl ≠ 0 then some (s, .error .eexist) else doMqueueOpen s i openFlag personal
    | none, true =>
      match attr with
      | none => doMqueueCreate s mqDefaultAttr mqName openFlag queue name personal
      | some attr =>
        if attrRefused attr then some (s, .error .einval)
        else doMqueueCreate s attr mqName openFlag queue name personal
    | none, false => some (s, .error .enoent)
    | some i, false => doMqueueOpen s i openFlag personal

end

end LiteosM.Mqueue
