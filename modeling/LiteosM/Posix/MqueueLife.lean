import LiteosM.Ipc.QueueKept
import LiteosM.Lib.Ledger
import LiteosM.Posix.MqueueOpen

/-!
# The life of a message queue

`mq_close` and `mq_unlink`, and the invariant of the table between the calls. A descriptor is known by its
address. What is at an address that is not allocated cannot be read.
-/

namespace LiteosM.Mqueue

open LiteosM.Kernel LiteosM.Ipc LiteosM.Lib.DlList LiteosM.Lib.ByteMemory LiteosM.Lib.Ledger

/-- What is returned, and what `errno` is set to. -/
structure MqReturn where
  ret : Int
  errno : Option MqErrno
deriving DecidableEq

section

variable [Config]

def doMqueueDelete (s : MqState) (i : Nat) : MqState × MqReturn :=
  let s := (freeName s i).modifyEntry i fun e => { e with mqcb := none }
  let r := s.queueDelete (s.gQueueTable i).mqId
  match r.2 with
  | .losOk => (r.1, ⟨0, none⟩)
  | .queueNotFound | .queueNotCreate | .queueInTskuse | .queueInTskwrite => (r.1, ⟨-1, some .eagain⟩)
  | _ => (r.1, ⟨-1, some .einval⟩)

/-- `mq_close` once the descriptor is out of the list. -/
def freePersonal (s : MqState) (i personal : Nat) : MqState × MqReturn :=
  let r := s.memFree personal
  if r.2 ≠ .losOk then (r.1, ⟨-1, some .efault⟩)
  else if (r.1.gQueueTable i).unlinkflag ∧ (r.1.gQueueTable i).mqPersonal = [] then doMqueueDelete r.1 i
  else (r.1, ⟨0, none⟩)

/-- The walk along `mq_next` finds the descriptor if it is in the list. An error of the search leaves `ret`
at 0. -/
def mqClose (s : MqState) (personal : Nat) : Option (MqState × MqReturn) :=
  if (s.heap personal).isNone then none
  else
    let privateMqPersonal := s.personal personal
    if !privateMqPersonal.mqStatus then some (s, ⟨0, some .ebadf⟩)
    else
      let i := privateMqPersonal.mqPosixdes
      if personal ∉ (s.gQueueTable i).mqPersonal then some (s, ⟨0, some .ebadf⟩)
      else
        let s := s.modifyEntry i fun e => { e with mqPersonal := e.mqPersonal.erase personal }
        let s := { s with
          personal := Function.update s.personal personal { privateMqPersonal with mqStatus := false } }
        some (freePersonal s i personal)

def mqUnlink (s : MqState) (mqName : Option (List Byte)) : MqState × MqReturn :=
  match mqNameCheck mqName with
  | .error errno => (s, ⟨-1, some errno⟩)
  | .ok mqName =>
    match getMqueueCBByName s mqName with
    | none => (s, ⟨-1, some .enoent⟩)
    | some i =>
      if (s.gQueueTable i).mqPersonal ≠ [] then
        (s.modifyEntry i fun e => { e with unlinkflag := true }, ⟨0, none⟩)
      else doMqueueDelete s i

inductive MqEvent
  | mqOpen (mqName : Option (List Byte)) (openFlag : Nat) (attr : Option MqAttr) (queue name personal : Option Block)
  | mqClose (personal : Nat)
  | mqUnlink (mqName : Option (List Byte))
  /-- Any call of `los_queue.c`, those that send and receive among them, and the kernel itself. -/
  | ipc (event : QueueEvent)

inductive MqResult
  | opened (ret : Except MqErrno Nat)
  | returned (ret : MqReturn)
  | ipc (ret : QueueReturn)

def mqStep (s : MqState) : MqEvent → Option (MqState × MqResult)
  | .mqOpen mqName openFlag attr queue name personal =>
    (mqOpen s mqName openFlag attr queue name personal).map fun r => (r.1, .opened r.2)
  | .mqClose personal => (mqClose s personal).map fun r => (r.1, .returned r.2)
  | .mqUnlink mqName => some ((mqUnlink s mqName).1, .returned (mqUnlink s mqName).2)
  | .ipc event => (queueStep s.toQueueState event).map fun r => ({ s with toQueueState := r.1 }, .ipc r.2)

/-! ### The invariant -/

/-- Who may hold a block of the heap. -/
inductive MqOwner
  | queue (q : Nat)
  | name (i : Nat)
  | personal (i p : Nat)

inductive Owns (queue : Nat → LosQueueCB) (table : Nat → MqArray) : MqOwner → Nat → Prop
  | queue {q a : Nat} (bound : q < Config.queueLimit) (used : (queue q).queueState = true)
      (addr : (queue q).queue.map Block.addr = some a) : Owns queue table (.queue q) a
  | name {i a : Nat} (addr : (table i).mqName.map Prod.fst = some a) : Owns queue table (.name i) a
  | personal {i p : Nat} (linked : p ∈ (table i).mqPersonal) : Owns queue table (.personal i p) p

structure Vacant (e : MqArray) : Prop where
  mqcb : e.mqcb = none
  mqName : e.mqName = none
  mqPersonal : e.mqPersonal = []

/-- Entry `i` stands for queue `i`. -/
structure Taken (s : QueueState) (personal : Nat → MqPersonal) (i : Nat) (e : MqArray) : Prop where
  small : i < queueTableSize
  bound : i < Config.queueLimit
  used : (s.queue i).queueState = true
  mqId : e.mqId = i
  mqcb : e.mqcb = some i
  named : e.mqName ≠ none
  linked : ∀ p ∈ e.mqPersonal, (personal p).mqPosixdes = i ∧ (personal p).mqStatus = true
  nodup : e.mqPersonal.Nodup

structure TableInv (s : QueueState) (table : Nat → MqArray) (personal : Nat → MqPersonal) : Prop where
  queues : ∃ log hand V, QueueInv s log hand V
  held : Held s.heap (Owns s.queue table)
  entry : ∀ i, Vacant (table i) ∨ Taken s personal i (table i)
  names : ∀ i j n, (table i).mqName.map Prod.snd = some n → (table j).mqName.map Prod.snd = some n → i = j

/-- Between the calls no queue is unlinked that nobody has open, and the names are valid. -/
structure MqInv (s : MqState) : Prop where
  table : TableInv s.toQueueState s.gQueueTable s.personal
  unlinked : ∀ i, (s.gQueueTable i).mqcb ≠ none → (s.gQueueTable i).unlinkflag = true →
    (s.gQueueTable i).mqPersonal ≠ []
  valid : ∀ i n, (s.gQueueTable i).mqName.map Prod.snd = some n → mqNameCheck (some n) = .ok n

end

section

variable [Config] {s s' : QueueState} {table table' : Nat → MqArray} {personal : Nat → MqPersonal} {e : MqArray}
  {log : Nat → List Ipc.QueueOp} {hand : Nat → Bool → Nat} {V : View Node} {i j q a p k m f : Nat} {n : List Byte}

theorem Taken.of_name (h : Vacant e ∨ Taken s personal i e) (hname : e.mqName ≠ none) : Taken s personal i e :=
  h.resolve_left fun hv => hname hv.mqName

theorem Taken.of_personal (h : Vacant e ∨ Taken s personal i e) (hp : p ∈ e.mqPersonal) : Taken s personal i e := by
  refine h.resolve_left fun hv => ?_
  rw [hv.mqPersonal] at hp
  cases hp

theorem Vacant.of_unused (h : Vacant e ∨ Taken s personal i e) (hst : (s.queue i).queueState = false) : Vacant e := by
  refine h.resolve_right fun ht => ?_
  rw [ht.used] at hst
  cases hst

theorem queueInv_drop (hi : QueueInv s log hand V)
    (ha : ∀ q < Config.queueLimit, (s.queue q).queueState = true → (s.queue q).queue.map Block.addr ≠ some a) :
    QueueInv { s with heap := Function.update s.heap a none } log hand V := by
  refine ⟨hi.waits, hi.pool, fun q hq hst => ?_, hi.blank, hi.apart, hi.calls⟩
  refine (hi.used q hq hst).congr (fun _ _ => rfl) (fun _ => rfl) fun b hb => ?_
  have hne : b.addr ≠ a := fun he => ha q hq hst (by rw [hb, Option.map_some, he])
  exact Function.update_of_ne hne ..

theorem owns_update {o : MqOwner} {x : Nat} (howns : Owns s.queue (Function.update table i e) o x) :
    (Owns s.queue table o x ∧ o ≠ .name i ∧ ∀ p, o ≠ .personal i p) ∨
    (o = .name i ∧ e.mqName.map Prod.fst = some x) ∨ ∃ p ∈ e.mqPersonal, o = .personal i p ∧ x = p := by
  cases howns with
  | queue bound used addr => exact .inl ⟨.queue bound used addr, by simp, by simp⟩
  | @name j _ addr =>
    by_cases hj : j = i
    · rw [hj, Function.update_self] at addr
      exact .inr (.inl ⟨by rw [hj], addr⟩)
    · rw [Function.update_of_ne hj] at addr
      exact .inl ⟨.name addr, by simpa using hj, by simp⟩
  | @personal j p linked =>
    by_cases hj : j = i
    · rw [hj, Function.update_self] at linked
      exact .inr (.inr ⟨_, linked, by rw [hj], rfl⟩)
    · rw [Function.update_of_ne hj] at linked
      exact .inl ⟨.personal linked, by simp, fun p he => hj (by cases he; rfl)⟩

omit [Config] in
theorem names_update (h : ∀ i j n, (table i).mqName.map Prod.snd = some n → (table j).mqName.map Prod.snd = some n → i = j)
    (hfresh : ∀ n, e.mqName.map Prod.snd = some n → ∀ j, j ≠ i → (table j).mqName.map Prod.snd ≠ some n) (j k : Nat)
    (n : List Byte) (hj : (Function.update table i e j).mqName.map Prod.snd = some n)
    (hk : (Function.update table i e k).mqName.map Prod.snd = some n) : j = k := by
  by_cases hji : j = i
  · by_cases hki : k = i
    · rw [hji, hki]
    · rw [hji, Function.update_self] at hj
      rw [Function.update_of_ne hki] at hk
      exact absurd hk (hfresh n hj k hki)
  · by_cases hki : k = i
    · rw [Function.update_of_ne hji] at hj
      rw [hki, Function.update_self] at hk
      exact absurd hj (hfresh n hk j hji)
    · rw [Function.update_of_ne hji] at hj
      rw [Function.update_of_ne hki] at hk
      exact h j k n hj hk

theorem Taken.congr {personal' : Nat → MqPersonal} (h : Taken s personal i e)
    (hstate : (s'.queue i).queueState = (s.queue i).queueState) (hpersonal : ∀ p ∈ e.mqPersonal, personal' p = personal p) :
    Taken s' personal' i e := by
  refine ⟨h.small, h.bound, hstate.trans h.used, h.mqId, h.mqcb, h.named, fun p hp => ?_, h.nodup⟩
  rw [hpersonal p hp]
  exact h.linked p hp

theorem TableInv.personal_unique (hi : TableInv s table personal) (hp : p ∈ (table i).mqPersonal)
    (hp' : p ∈ (table j).mqPersonal) : i = j := by
  have h := hi.held.apart _ _ p (.personal hp) (.personal hp')
  injection h

theorem TableInv.kept (hi : TableInv s table personal) (hkept : BlocksKept s s')
    (hqueues : ∃ log hand V, QueueInv s' log hand V) : TableInv s' table personal := by
  refine ⟨hqueues, ?_, fun i => (hi.entry i).imp_right fun ht => ht.congr (hkept.state i) fun _ _ => rfl, hi.names⟩
  rw [hkept.heap]
  refine hi.held.mono fun o x howns => ?_
  cases howns with
  | queue bound used addr => exact .queue bound (by rw [← hkept.state, used]) (by rw [← hkept.addr, addr])
  | name addr => exact .name addr
  | personal linked => exact .personal linked

theorem TableInv.queueMade {cb : LosQueueCB} {b : Block} {size : Nat} (hi : TableInv s table personal)
    (hqueues : ∃ log hand V, QueueInv s' log hand V) (hunused : (s.queue q).queueState = false)
    (hfresh : s.heap b.addr = none) (hb : cb.queue = some b) (hqueue : s'.queue = Function.update s.queue q cb)
    (hheap : s'.heap = Function.update s.heap b.addr (some size)) : TableInv s' table personal := by
  have hstate : ∀ i, i ≠ q → s'.queue i = s.queue i := fun i hne => by rw [hqueue, Function.update_of_ne hne]
  refine ⟨hqueues, ?_, fun i => (hi.entry i).imp_right fun ht => ht.congr ?_ fun _ _ => rfl, hi.names⟩
  · rw [hheap]
    refine hi.held.alloc (o := .queue q) hfresh _ fun o x howns => ?_
    cases howns with
    | @queue q' _ bound used addr =>
      by_cases hq : q' = q
      · rw [hq, hqueue, Function.update_self, hb] at addr
        exact .inr ⟨by rw [hq], (Option.some.inj addr).symm⟩
      · rw [hstate q' hq] at used addr
        exact .inl (.queue bound used addr)
    | name addr => exact .inl (.name addr)
    | personal linked => exact .inl (.personal linked)
  · rw [hstate i fun he => ?_]
    have hused := ht.used
    rw [he, hunused] at hused
    cases hused

theorem TableInv.queueGone {b : Block} (hi : TableInv s table personal) (hv : Vacant (table q))
    (hqueues : ∃ log hand V, QueueInv s' log hand V) (hbound : q < Config.queueLimit)
    (hused : (s.queue q).queueState = true) (hb : (s.queue q).queue = some b)
    (hqueue : s'.queue = Function.update s.queue q { s.queue q with queue := none, queueState := false })
    (hheap : s'.heap = Function.update s.heap b.addr none) : TableInv s' table personal := by
  have hstate : ∀ i, i ≠ q → s'.queue i = s.queue i := fun i hne => by rw [hqueue, Function.update_of_ne hne]
  refine ⟨hqueues, ?_, fun i => ?_, hi.names⟩
  · rw [hheap]
    refine hi.held.free (.queue hbound hused (by rw [hb]; rfl)) fun o x howns => ?_
    cases howns with
    | @queue q' _ bound used addr =>
      by_cases hq : q' = q
      · rw [hq, hqueue, Function.update_self] at used
        cases used
      · rw [hstate q' hq] at used addr
        exact ⟨.queue bound used addr, by simpa using hq⟩
    | name addr => exact ⟨.name addr, by simp⟩
    | personal linked => exact ⟨.personal linked, by simp⟩
  · by_cases hq : i = q
    · rw [hq]
      exact .inl hv
    · exact (hi.entry i).imp_right fun ht => ht.congr (by rw [hstate i hq]) fun _ _ => rfl

theorem TableInv.setVacant (hi : TableInv s table personal) (he : Vacant e) :
    TableInv s (Function.update table i e) personal := by
  refine ⟨hi.queues, hi.held.mono fun o x howns => ?_, fun j => ?_, names_update hi.names fun n hn => ?_⟩
  · rcases owns_update howns with ⟨hold, _⟩ | ⟨_, hname⟩ | ⟨p, hp, _⟩
    · exact hold
    · rw [he.mqName] at hname
      cases hname
    · rw [he.mqPersonal] at hp
      cases hp
  · by_cases hj : j = i
    · rw [hj, Function.update_self]
      exact .inl he
    · rw [Function.update_of_ne hj]
      exact hi.entry j
  · rw [he.mqName] at hn
    cases hn

theorem TableInv.personal_fresh (hi : TableInv s table personal) (hp : s.heap p = none) : p ∉ (table i).mqPersonal :=
  fun hmem => hi.held.live _ _ (.personal hmem) hp

theorem TableInv.take (hi : TableInv s table personal) (ha : s.heap a = none) :
    ∃ log hand V, QueueInv { s with heap := Function.update s.heap a (some k) } log hand V := by
  obtain ⟨log, hand, V, hq⟩ := hi.queues
  exact ⟨log, hand, V, queueInv_take hq ha⟩

theorem TableInv.drop (hi : TableInv s table personal) {o : MqOwner} (ho : Owns s.queue table o a)
    (hne : ∀ q, o ≠ .queue q) : ∃ log hand V, QueueInv { s with heap := Function.update s.heap a none } log hand V := by
  obtain ⟨log, hand, V, hq⟩ := hi.queues
  exact ⟨log, hand, V, queueInv_drop hq fun q hq hst haddr => hne q (hi.held.apart _ _ a ho (.queue hq hst haddr))⟩

theorem TableInv.setTaken {personal' : Nat → MqPersonal} {heap : Nat → Option Nat} (hi : TableInv s table personal)
    (hqueues : ∃ log hand V, QueueInv { s with heap := heap } log hand V)
    (hheld : Held heap (Owns s.queue (Function.update table i e)))
    (hentry : Vacant e ∨ Taken s personal' i e)
    (hnames : ∀ n, e.mqName.map Prod.snd = some n → ∀ j, j ≠ i → (table j).mqName.map Prod.snd ≠ some n)
    (hpersonal : ∀ j, j ≠ i → ∀ p ∈ (table j).mqPersonal, personal' p = personal p) :
    TableInv { s with heap := heap } (Function.update table i e) personal' := by
  refine ⟨hqueues, hheld, fun j => ?_, names_update hi.names hnames⟩
  by_cases hj : j = i
  · rw [hj, Function.update_self]
    exact hentry.imp_right fun ht => ht.congr rfl fun _ _ => rfl
  · rw [Function.update_of_ne hj]
    exact (hi.entry j).imp_right fun ht => ht.congr rfl (hpersonal j hj)

theorem TableInv.attach (hi : TableInv s table personal) (ht : Taken s personal i (table i)) (hp : s.heap p = none) :
    TableInv { s with heap := Function.update s.heap p (some k) }
      (Function.update table i { table i with mqPersonal := p :: (table i).mqPersonal })
      (Function.update personal p ⟨i, f, true⟩) := by
  have hother : ∀ j, ∀ p' ∈ (table j).mqPersonal, Function.update personal p ⟨i, f, true⟩ p' = personal p' :=
    fun j p' hmem => Function.update_of_ne (fun he : p' = p => hi.personal_fresh (i := j) hp (he ▸ hmem)) ..
  refine hi.setTaken (hi.take hp) (hi.held.alloc (o := .personal i p) hp k fun o x howns => ?_)
    (.inr ⟨ht.small, ht.bound, ht.used, ht.mqId, ht.mqcb, ht.named, fun p' hmem => ?_, ?_⟩)
    (fun n hn j hj hn' => hj (hi.names j i n hn' hn)) fun j _ => hother j
  · rcases owns_update howns with ⟨hold, _⟩ | ⟨rfl, hname⟩ | ⟨p', hmem, rfl, rfl⟩
    · exact .inl hold
    · exact .inl (.name hname)
    · rcases List.mem_cons.mp hmem with rfl | hmem
      · exact .inr ⟨rfl, rfl⟩
      · exact .inl (.personal hmem)
  · rcases List.mem_cons.mp hmem with rfl | hmem
    · rw [Function.update_self]
      exact ⟨rfl, rfl⟩
    · rw [hother i p' hmem]
      exact ht.linked p' hmem
  · exact List.nodup_cons.mpr ⟨hi.personal_fresh hp, ht.nodup⟩

theorem TableInv.detach (hi : TableInv s table personal) (hp : p ∈ (table i).mqPersonal) (d : MqPersonal) :
    TableInv { s with heap := Function.update s.heap p none }
      (Function.update table i { table i with mqPersonal := (table i).mqPersonal.erase p })
      (Function.update personal p d) := by
  have ht := Taken.of_personal (hi.entry i) hp
  have hne : ∀ p' ∈ (table i).mqPersonal.erase p, p' ≠ p := fun p' hmem he =>
    (List.Nodup.mem_erase_iff ht.nodup).mp hmem |>.1 he
  refine hi.setTaken (hi.drop (.personal hp) (by simp)) (hi.held.free (.personal hp) fun o x howns => ?_)
    (.inr ⟨ht.small, ht.bound, ht.used, ht.mqId, ht.mqcb, ht.named, fun p' hmem => ?_, ht.nodup.erase p⟩)
    (fun n hn j hj hn' => hj (hi.names j i n hn' hn)) fun j hj p' hmem => ?_
  · rcases owns_update howns with ⟨hold, _, hother⟩ | ⟨rfl, hname⟩ | ⟨p', hmem, rfl, rfl⟩
    · exact ⟨hold, hother p⟩
    · exact ⟨.name hname, by simp⟩
    · exact ⟨.personal (List.mem_of_mem_erase hmem), by simpa using hne x hmem⟩
  · rw [Function.update_of_ne (hne p' hmem)]
    exact ht.linked p' (List.mem_of_mem_erase hmem)
  · exact Function.update_of_ne (fun he => hj (hi.personal_unique (he ▸ hmem) hp)) ..

/-- `DoMqueueDelete` before the call of `LOS_QueueDelete`: the entry becomes vacant. -/
theorem TableInv.vacate (hi : TableInv s table personal) (hname : (table i).mqName = some (a, n))
    (hlast : (table i).mqPersonal = []) :
    TableInv { s with heap := Function.update s.heap a none }
      (Function.update table i { table i with mqName := none, mqcb := none }) personal := by
  have ho : Owns s.queue table (.name i) a := .name (by rw [hname]; rfl)
  refine hi.setTaken (hi.drop ho (by simp)) (hi.held.free ho fun o x howns => ?_) (.inl ⟨rfl, rfl, hlast⟩) nofun
    fun j _ _ _ => rfl
  rcases owns_update howns with ⟨hold, hother, _⟩ | ⟨_, hname⟩ | ⟨p', hmem, _, _⟩
  · exact ⟨hold, hother⟩
  · cases hname
  · rw [hlast] at hmem
    cases hmem

theorem TableInv.flag (hi : TableInv s table personal) (ht : Taken s personal i (table i)) (b : Bool) :
    TableInv s (Function.update table i { table i with unlinkflag := b }) personal := by
  refine hi.setTaken hi.queues (hi.held.mono fun o x howns => ?_)
    (.inr ⟨ht.small, ht.bound, ht.used, ht.mqId, ht.mqcb, ht.named, ht.linked, ht.nodup⟩)
    (fun n hn j hj hn' => hj (hi.names j i n hn' hn)) fun _ _ _ _ => rfl
  rcases owns_update howns with ⟨hold, _⟩ | ⟨rfl, hname⟩ | ⟨p', hmem, rfl, rfl⟩
  · exact hold
  · exact .name hname
  · exact .personal hmem

theorem TableInv.fill (hi : TableInv s table personal) (hsmall : q < queueTableSize)
    (hbound : q < Config.queueLimit) (hused : (s.queue q).queueState = true) (ha : s.heap a = none)
    (hp : s.heap p = none) (hne : p ≠ a) (hfresh : ∀ j, (table j).mqName.map Prod.snd ≠ some n) :
    TableInv { s with heap := Function.update (Function.update s.heap a (some k)) p (some m) }
      (Function.update table q ⟨q, false, some (a, n), some q, [p]⟩)
      (Function.update personal p ⟨q, f, true⟩) := by
  have hnamed : TableInv { s with heap := Function.update s.heap a (some k) }
      (Function.update table q ⟨q, false, some (a, n), some q, []⟩) personal := by
    refine hi.setTaken (hi.take ha) (hi.held.alloc (o := .name q) ha k fun o x howns => ?_)
      (.inr ⟨hsmall, hbound, hused, rfl, rfl, by simp, nofun, List.nodup_nil⟩) (fun n' hn j _ => ?_)
      fun _ _ _ _ => rfl
    · rcases owns_update howns with ⟨hold, _⟩ | ⟨rfl, hname⟩ | ⟨p', hmem, _, _⟩
      · exact .inl hold
      · exact .inr ⟨rfl, (Option.some.inj hname).symm⟩
      · cases hmem
    · obtain rfl := Option.some.inj hn
      exact hfresh j
  have hrest := hnamed.attach (i := q) (k := m) (f := f) (p := p) (by
    rw [Function.update_self]
    exact ⟨hsmall, hbound, hused, rfl, rfl, by simp, nofun, List.nodup_nil⟩)
    ((Function.update_of_ne hne ..).trans hp)
  rwa [Function.update_self, Function.update_idem] at hrest

end

end LiteosM.Mqueue
