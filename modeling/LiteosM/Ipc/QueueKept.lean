import LiteosM.Ipc.QueueSlots

/-!
# The blocks of the queues

Only the creation and the deletion of a queue change the heap. In between a queue keeps its block.
-/

namespace LiteosM.Ipc

open LiteosM.Kernel LiteosM.Lib.ByteMemory

/-- The heap and the blocks of the queues are the same. -/
structure BlocksKept (s s' : QueueState) : Prop where
  heap : s'.heap = s.heap
  state : ∀ q, (s'.queue q).queueState = (s.queue q).queueState
  addr : ∀ q, (s'.queue q).queue.map Block.addr = (s.queue q).queue.map Block.addr

def QueueEvent.allots : QueueEvent → Bool
  | .create .. => true
  | .delete _ => true
  | _ => false

variable {s s' s₁ : QueueState} {cb cb' : LosQueueCB} {op : OperateType} {call : QueueCall} {ret : OperateReturn}
  {bufferAddr bufferAddr' : Memory} {bufferSize bufferSize' q n timeOut : Nat}

theorem BlocksKept.refl (s : QueueState) : BlocksKept s s := ⟨rfl, fun _ => rfl, fun _ => rfl⟩

theorem BlocksKept.trans (h : BlocksKept s s₁) (h' : BlocksKept s₁ s') : BlocksKept s s' :=
  ⟨h'.heap.trans h.heap, fun q => (h'.state q).trans (h.state q), fun q => (h'.addr q).trans (h.addr q)⟩

theorem BlocksKept.of_queue (hheap : s'.heap = s.heap) (hqueue : s'.queue = s.queue) : BlocksKept s s' :=
  ⟨hheap, fun q => by rw [hqueue], fun q => by rw [hqueue]⟩

theorem BlocksKept.setQueue (hstate : cb.queueState = (s.queue q).queueState)
    (haddr : cb.queue.map Block.addr = (s.queue q).queue.map Block.addr) : BlocksKept s (s.setQueue q cb) := by
  refine ⟨rfl, fun q' => ?_, fun q' => ?_⟩
  · by_cases hq : q' = q
    · rw [hq, setQueue_self, hstate]
    · rw [setQueue_of_ne hq]
  · by_cases hq : q' = q
    · rw [hq, setQueue_self, haddr]
    · rw [setQueue_of_ne hq]

theorem queuePosion_kept (h : queuePosion cb op = some (n, cb')) :
    cb'.queueState = cb.queueState ∧ cb'.queue = cb.queue := by
  unfold queuePosion at h
  split at h
  · cases h
    exact ⟨rfl, rfl⟩
  · cases h
    exact ⟨rfl, rfl⟩
  · cases h
    exact ⟨rfl, rfl⟩
  · cases h

theorem osQueueBufferOperate_kept
    (h : osQueueBufferOperate cb op bufferAddr bufferSize = some (cb', bufferAddr', bufferSize')) :
    cb'.queueState = cb.queueState ∧ cb'.queue.map Block.addr = cb.queue.map Block.addr := by
  unfold osQueueBufferOperate at h
  split at h
  · cases h
    exact ⟨rfl, rfl⟩
  next p cb₁ hpos =>
  obtain ⟨hstate, hqueue⟩ := queuePosion_kept hpos
  obtain ⟨b, hb, h⟩ := Option.bind_eq_some_iff.mp h
  have haddr : ∀ bytes, (some { b with bytes := bytes }).map Block.addr = cb.queue.map Block.addr := by
    intro bytes
    rw [← hqueue, hb]
    rfl
  dsimp only at h
  split at h
  · split at h
    · cases h
      exact ⟨hstate, haddr _⟩
    · cases h
      exact ⟨hstate, by rw [hqueue]⟩
  · split at h
    · cases h
      exact ⟨hstate, haddr _⟩
    · split at h
      · cases h
        exact ⟨hstate, by rw [hqueue]⟩
      · cases h
        exact ⟨hstate, by rw [hqueue]⟩

theorem osQueueMailAllocResume_kept : BlocksKept s (osQueueMailAllocResume s).1 := by
  unfold osQueueMailAllocResume
  dsimp only
  split
  · exact .of_queue rfl rfl
  · exact .of_queue rfl rfl

variable [Config]

theorem osQueueOperateEnd_kept (h : osQueueOperateEnd s call = some (s', ret)) : BlocksKept s s' := by
  unfold osQueueOperateEnd at h
  obtain ⟨⟨cb, bufferAddr, bufferSize⟩, hop, h⟩ := Option.bind_eq_some_iff.mp h
  obtain ⟨hstate, haddr⟩ := osQueueBufferOperate_kept hop
  have hset : BlocksKept s (s.setQueue call.queueID cb) := .setQueue hstate haddr
  dsimp only at h
  split at h
  · obtain ⟨t, _, h⟩ := Option.bind_eq_some_iff.mp h
    obtain ⟨k, _, h⟩ := Option.bind_eq_some_iff.mp h
    cases h
    exact hset.trans (.of_queue rfl rfl)
  · cases h
    exact hset.trans (.setQueue (by rw [setQueue_self]) (by rw [setQueue_self]))

theorem osQueueOperate_kept (h : osQueueOperate s call timeOut = some (s', ret)) : BlocksKept s s' := by
  unfold osQueueOperate at h
  dsimp only at h
  split at h
  · cases h
    exact .refl s
  split at h
  · split at h
    · cases h
      exact .refl s
    split at h
    · cases h
      exact .refl s
    · cases h
      exact .of_queue rfl rfl
  · refine .trans ?_ (osQueueOperateEnd_kept h)
    exact .setQueue rfl rfl

theorem osQueueOperateResume_kept (h : osQueueOperateResume s call = some (s', ret)) : BlocksKept s s' := by
  unfold osQueueOperateResume at h
  dsimp only at h
  split at h
  · cases h
    exact .of_queue rfl rfl
  · refine .trans ?_ (osQueueOperateEnd_kept h)
    exact .of_queue rfl rfl

theorem osQueueMailAlloc_kept {intActive mailPool : Bool} {mem : Option Nat} :
    BlocksKept s (osQueueMailAlloc s intActive q mailPool timeOut mem).1 := by
  unfold osQueueMailAlloc
  split
  · exact .refl s
  split
  · exact .refl s
  split
  · exact .refl s
  split
  · exact .refl s
  split
  · exact .refl s
  split
  · exact .refl s
  dsimp only
  split
  · refine .trans ?_ osQueueMailAllocResume_kept
    exact .of_queue rfl rfl
  · exact .of_queue rfl rfl

theorem osQueueMailFree_kept {mailPool freed : Bool} {mem : Option Nat} {err : QueueErrno}
    (h : osQueueMailFree s q mailPool freed mem = some (s', err)) : BlocksKept s s' := by
  unfold osQueueMailFree at h
  split at h
  · cases h
    exact .refl s
  split at h
  · cases h
    exact .refl s
  split at h
  · cases h
    exact .refl s
  split at h
  · cases h
    exact .refl s
  split at h
  · obtain ⟨t, _, h⟩ := Option.bind_eq_some_iff.mp h
    obtain ⟨k, _, h⟩ := Option.bind_eq_some_iff.mp h
    cases mem with
    | none =>
      cases h
      exact .of_queue rfl rfl
    | some mem =>
      cases h
      exact .of_queue rfl rfl
  · cases h
    exact .refl s

theorem queueStep_kept {event : QueueEvent} {r : QueueReturn} (hevent : event.allots = false)
    (hstep : queueStep s event = some (s', r)) : BlocksKept s s' := by
  cases hop : event.operate with
  | some c =>
    rw [queueStep_operate hop] at hstep
    unfold QueueState.calls at hstep
    split at hstep
    · obtain ⟨⟨s₁, ret⟩, heq, hr⟩ := Option.map_eq_some_iff.mp hstep
      obtain ⟨rfl, _⟩ := Prod.mk.inj hr
      unfold checked at heq
      split at heq
      · cases heq
        exact .refl s
      · exact osQueueOperate_kept heq
    · cases hstep
  | none =>
    cases event with
    | readCopy | writeHeadCopy | writeCopy | read | write | writeHead => cases hop
    | create | delete => cases hevent
    | mailAlloc intActive q mailPool timeOut mem =>
      simp only [queueStep] at hstep
      split at hstep
      · obtain ⟨rfl, _⟩ := Prod.mk.inj (Option.some.inj hstep)
        exact osQueueMailAlloc_kept
      · cases hstep
    | mailFree q mailPool freed mem =>
      obtain ⟨⟨s₁, err⟩, heq, hr⟩ := Option.map_eq_some_iff.mp hstep
      obtain ⟨rfl, _⟩ := Prod.mk.inj hr
      exact osQueueMailFree_kept heq
    | resume =>
      simp only [queueStep] at hstep
      split at hstep
      · obtain ⟨x, _, hstep⟩ := Option.bind_eq_some_iff.mp hstep
        cases x with
        | operate call =>
          obtain ⟨⟨s₁, ret⟩, heq, hr⟩ := Option.map_eq_some_iff.mp hstep
          obtain ⟨rfl, _⟩ := Prod.mk.inj hr
          exact osQueueOperateResume_kept heq
        | mailAlloc q =>
          obtain ⟨rfl, _⟩ := Prod.mk.inj (Option.some.inj hstep)
          exact osQueueMailAllocResume_kept
      · cases hstep
    | kernel e =>
      simp only [queueStep] at hstep
      split at hstep
      · cases hstep
      · obtain ⟨k, _, hr⟩ := Option.map_eq_some_iff.mp hstep
        obtain ⟨rfl, _⟩ := Prod.mk.inj hr
        exact .of_queue rfl rfl

theorem losQueueDelete_busy (hq : q < Config.queueLimit) (hused : (s.queue q).queueState = true) (hnot : ¬Deletable s q) :
    losQueueDelete s q = (s, .queueInTskuse) ∨ losQueueDelete s q = (s, .queueInTskwrite) := by
  unfold losQueueDelete
  dsimp only
  rw [if_neg (Nat.not_le.mpr hq), if_neg (by rw [hused]; decide)]
  split
  · exact .inl rfl
  next hread =>
  split
  · exact .inl rfl
  next hwrite =>
  split
  · exact .inl rfl
  next hmail =>
  split
  · exact .inr rfl
  next hcounts =>
  refine absurd ⟨hq, hused, fun write => ?_, by simpa using hmail, not_not.mp hcounts⟩ hnot
  cases write with
  | false => simpa using hread
  | true => simpa using hwrite

/-- No task is inside a call on a queue that can be deleted, unless its time is up. -/
theorem deletable_away {log : Nat → List QueueOp} {hand : Nat → Bool → Nat} {V : LiteosM.Lib.DlList.View Node} {t : Nat}
    (hi : QueueInv s log hand V) (hd : Deletable s q) (hp : s.pending t = some (.operate call))
    (htm : (s.kernel.status t).timeout = false) : call.queueID ≠ q := by
  have hf := hi.pool.machine.inv.core.ready.forest
  have hu := hi.used q hd.bound hd.used
  refine hi.away (fun write => (hf.listEmpty_iff ?_).mp (hd.lists write)) (fun t ht => ?_) hp htm
  · cases write with
    | true => exact hi.pool.taken q hd.bound hd.used
    | false => exact hu.heads _ (.inl rfl)
  · have hslots := hu.slots
    have hcounts := hd.counts
    have hgranted := hi.holder_iff.mp ⟨t, ht⟩
    omega

end LiteosM.Ipc
