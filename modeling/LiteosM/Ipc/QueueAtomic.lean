import LiteosM.Ipc.QueueSlots

/-!
# Creation and deletion of queues

A creation takes one control block and one buffer or nothing, and a deletion is refused for as long
as a task may still come back to the queue.
-/

namespace LiteosM.Ipc

open LiteosM.Kernel LiteosM.Lib.DlList LiteosM.Lib.Transition

def FreeQueue (s : QueueState) (q : Nat) : Prop :=
  OnList s.kernel.links .gFreeQueueList (.wait (.readWriteList q true))

def QueuedOn (s : QueueState) (l : WaitList) (t : Nat) : Prop := OnList s.kernel.links (.wait l) (.pendList t)

variable [Config]

/-- The queue is in use, and no task waits on it or has still to read or write it. -/
structure QueueIdle (s : QueueState) (q : Nat) : Prop where
  bound : q < Config.queueLimit
  used : (s.queue q).queueState = true
  lists : ∀ write, ∀ t < gTaskMaxNum, ¬ QueuedOn s (.readWriteList q write) t
  mail : ∀ t < gTaskMaxNum, ¬ QueuedOn s (.memList q) t
  settled : ∀ t < gTaskMaxNum, ¬ HoldsSlot s q t

/-- What a successful creation does. -/
structure QueueTaken (s : QueueState) (len maxMsgSize : Nat) (queue : Option Block) (s' : QueueState)
    (o : Option Nat) (q : Nat) (b : Block) : Prop where
  bound : q < Config.queueLimit
  unused : (s.queue q).queueState = false
  block : queue = some b
  fresh : s.heap b.addr = none
  heap : s'.heap = Function.update s.heap b.addr (some (len * (maxMsgSize + 4)))
  queue : s'.queue = Function.update s.queue q (freshCB len (maxMsgSize + 4) b)
  queueID : o = some (q % 2 ^ 16)
  free : ∀ q' < Config.queueLimit, FreeQueue s' q' ↔ FreeQueue s q' ∧ q' ≠ q

structure QueuesAtomic (s : QueueState) : Prop where
  total : ∀ len queueID maxMsgSize queue, (∀ b, queue = some b → s.heap b.addr = none) →
    (losQueueCreate s len queueID maxMsgSize queue).isSome
  createFails : ∀ len queueID maxMsgSize queue s' ret o,
    losQueueCreate s len queueID maxMsgSize queue = some (s', ret, o) → ret ≠ .losOk → s' = s
  creates : ∀ len queueID maxMsgSize queue s' o,
    losQueueCreate s len queueID maxMsgSize queue = some (s', .losOk, o) →
      ∃ q b, QueueTaken s len.val maxMsgSize.val queue s' o q b
  deletes : ∀ q, (losQueueDelete s q).2 = .losOk ↔ QueueIdle s q
  deleteFails : ∀ q, (losQueueDelete s q).2 ≠ .losOk → (losQueueDelete s q).1 = s

section

variable {s s' : QueueState} {log log' : Nat → List QueueOp} {hand : Nat → Bool → Nat} {V V' : View Node}
  {q t : Nat} {k : KernelState}
  {l : WaitList}

omit [Config] in
theorem not_onList_of_empty {h x : Node} (he : losListEmpty k h = true) : ¬ OnList k.links h x := by
  rintro ⟨hne, n, hn⟩
  have hfix : k.links.next h = h := by simpa [losListEmpty, listEmpty] using he
  rw [Function.iterate_fixed hfix] at hn
  exact hne hn.symm

theorem QueueInv.free_iff (hi : QueueInv s log hand V) (hq : q < Config.queueLimit) :
    FreeQueue s q ↔ (s.queue q).queueState = false := by
  have hf := hi.pool.machine.inv.core.ready.forest
  constructor
  · intro h
    obtain ⟨m, _, he, hu⟩ := (hi.pool.spare _).mp ((hf.mem _ _).mp (OnList.mem_content h hf hi.pool.head))
    have hqm : q = m := by simpa using he
    rw [hqm]
    exact hu
  · intro hu
    exact onList_of_content hf hi.pool.head ((hi.pool.spare _).mpr ⟨q, hq, rfl, hu⟩)

theorem QueueInv.nobody_iff (hi : QueueInv s log hand V) (hhead : V.role (.wait l) = .head) :
    losListEmpty s.kernel (.wait l) = true ↔ ∀ t < gTaskMaxNum, ¬ QueuedOn s l t := by
  have hf := hi.pool.machine.inv.core.ready.forest
  constructor
  · exact fun he t _ => not_onList_of_empty he
  · intro hno
    obtain ⟨since, clock, hw⟩ := hi.waits
    by_contra hne
    obtain ⟨w, hlt, _, hon, _⟩ := hw.first hhead (by simpa using hne)
    exact hno w hlt (onList_of_content hf hhead hon)

theorem QueueInv.deletable_iff (hi : QueueInv s log noHand V) : Deletable s q ↔ QueueIdle s q := by
  have hholder : (∀ t, ¬ HoldsSlot s q t) ↔ ∀ t < gTaskMaxNum, ¬ HoldsSlot s q t := by
    refine ⟨fun h t _ => h t, fun h t ht => h t ?_ ht⟩
    obtain ⟨since, clock, hw⟩ := hi.waits
    obtain ⟨call, hp, _⟩ := ht
    refine hw.bound t ?_
    unfold QueueState.waiting
    rw [hp]
    rfl
  have hhead : q < Config.queueLimit → (s.queue q).queueState = true →
      ∀ write, V.role (.wait (.readWriteList q write)) = .head := by
    intro hq hused write
    cases write with
    | true => exact hi.pool.taken q hq hused
    | false => exact (hi.used q hq hused).heads _ (.inl rfl)
  have hcounts : q < Config.queueLimit → (s.queue q).queueState = true →
      ((s.queue q).readWriteableCnt true + (s.queue q).readWriteableCnt false = (s.queue q).queueLen ↔
        ∀ t, ¬ HoldsSlot s q t) := by
    intro hq hused
    have hslots := (hi.used q hq hused).slots
    have hz : ∀ write, noHand q write = 0 := fun _ => rfl
    rw [hz, hz] at hslots
    rw [← not_exists, hi.holder_iff]
    omega
  constructor
  · intro hd
    have hu := hi.used q hd.bound hd.used
    exact ⟨hd.bound, hd.used, fun write => (hi.nobody_iff (hhead hd.bound hd.used write)).mp (hd.lists write),
      (hi.nobody_iff (hu.heads _ (.inr rfl))).mp hd.mail,
      hholder.mp ((hcounts hd.bound hd.used).mp hd.counts)⟩
  · intro hd
    have hu := hi.used q hd.bound hd.used
    exact ⟨hd.bound, hd.used, fun write => (hi.nobody_iff (hhead hd.bound hd.used write)).mpr (hd.lists write),
      (hi.nobody_iff (hu.heads _ (.inr rfl))).mpr hd.mail,
      (hcounts hd.bound hd.used).mpr (hholder.mpr hd.settled)⟩

theorem losQueueCreate_total (hi : QueueInv s log hand V) (len : Fin 65536) (queueID : Bool)
    (maxMsgSize : Fin 65536) {queue : Option Block} (hfresh : ∀ b, queue = some b → s.heap b.addr = none) :
    (losQueueCreate s len queueID maxMsgSize queue).isSome := by
  unfold losQueueCreate
  split
  · rfl
  split
  · rfl
  split
  · rfl
  cases queue with
  | none => rfl
  | some b =>
    have hb := hfresh b rfl
    simp only [losMemAlloc, hb, Option.isSome_none, Bool.false_eq_true, if_false, Option.bind_eq_bind,
      Option.bind_some]
    cases hempty : losListEmpty s.kernel .gFreeQueueList with
    | true => rfl
    | false =>
      obtain ⟨m, _, _, hfirst, _⟩ := hi.pool.take .queue queueList_inj (by
        rw [hempty]
        exact Bool.false_ne_true)
      rw [if_neg Bool.false_ne_true, hfirst]
      rfl

theorem QueueInv.atomic (hi : QueueInv s log noHand V) : QueuesAtomic s := by
  constructor
  case total => exact fun len queueID maxMsgSize queue hfresh => losQueueCreate_total hi len queueID maxMsgSize hfresh
  case createFails =>
    intro len queueID maxMsgSize queue s' ret o heq hret
    rcases losQueueCreate_spec hi heq with ⟨hs, _⟩ | ⟨hok, _⟩
    · exact hs
    · exact absurd hok hret
  case creates =>
    intro len queueID maxMsgSize queue s' o heq
    rcases losQueueCreate_spec hi heq with
      ⟨_, hne⟩ | ⟨_, q, hq, hst, b, hb, hfresh, ho, _, _, hqueue, hheap, V', hi'⟩
    · exact absurd rfl hne
    · refine ⟨q, b, hq, hst, hb, hfresh, hheap, hqueue, ho, fun q' hq' => ?_⟩
      rw [hi'.free_iff hq', hi.free_iff hq', hqueue]
      by_cases hqq : q' = q
      · rw [hqq, Function.update_self]
        exact iff_of_false nofun fun h => h.2 rfl
      · rw [Function.update_of_ne hqq]
        exact (and_iff_left hqq).symm
  case deletes =>
    intro q
    rw [← hi.deletable_iff]
    rcases losQueueDelete_spec hi q with ⟨hno, _, hne⟩ | ⟨hd, hok, _⟩
    · exact iff_of_false hne hno
    · exact iff_of_true hok hd
  case deleteFails =>
    intro q hne
    rcases losQueueDelete_spec hi q with ⟨_, hsame, _⟩ | ⟨_, hok, _⟩
    · exact hsame
    · exact absurd hok hne

end

/-- Creation and deletion are atomic as long as no task is deleted that has a slot. -/
theorem losQueue_atomic {s₀ s : LoggedQueue} {events : List QueueEvent} (hmax : gTaskMaxNum ≤ osInvalid)
    (hb : QueueBooted s₀.toQueueState) (hrun : Run keepingStep s₀ events s) : QueuesAtomic s.toQueueState := by
  obtain ⟨V, hi⟩ := keepingRun_inv hmax hb hrun
  exact hi.atomic

/-- The queue is deleted in vain while the reader waits, and for good after it has come back. -/
def readThenDelete : List QueueEvent :=
  readThenWrite.take 6 ++ .delete 0 :: readThenWrite.drop 6 ++
    [.kernel .yield, .kernel .pendSV, .resume, .delete 0]

omit [Config] in
theorem losQueue_atomic_deleted :
    letI := smallConfig
    QueueBooted smallLogged.toQueueState ∧
      ∀ x ∈ [(6, true, QueueErrno.queueInTskuse), (9, true, .queueInTskwrite), (12, true, .losOk),
          (13, false, .queueNotCreate)],
        ∃ s, Run keepingStep smallLogged (readThenDelete.take x.1) s ∧ (s.queue 0).queueState = x.2.1 ∧
          (losQueueDelete s.toQueueState 0).2 = x.2.2 ∧ QueuesAtomic s.toQueueState := by
  let := smallConfig
  refine ⟨smallQueue_booted, fun x hx => ?_⟩
  have hrun : ((readThenDelete.take x.1).foldlM loggedStep smallLogged).map (fun s =>
      ((s.queue 0).queueState, (losQueueDelete s.toQueueState 0).2)) = some x.2 := by
    simp only [List.mem_cons, List.not_mem_nil, or_false] at hx
    rcases hx with rfl | rfl | rfl | rfl <;> decide +kernel
  obtain ⟨s, hs, hval⟩ := Option.map_eq_some_iff.mp hrun
  have hkeep : Run keepingStep smallLogged (readThenDelete.take x.1) s := by
    refine run_mono_mem (run_of_foldlM hs) fun s t a ha hstep => ⟨?_, ?_, hstep⟩
    · rintro ⟨_, _, rfl, _⟩
      have hall := List.mem_of_mem_take ha
      simp [readThenDelete, readThenWrite, createQueue] at hall
    · rintro ⟨_, _, rfl, _⟩
      have hall := List.mem_of_mem_take ha
      simp [readThenDelete, readThenWrite, createQueue] at hall
  rw [← hval]
  exact ⟨s, hkeep, rfl, rfl, losQueue_atomic (by decide) smallQueue_booted hkeep⟩

omit [Config] in
/-- The reader is deleted after it has been woken, and the queue cannot be deleted any more. -/
theorem losQueue_not_atomic :
    letI := smallConfig
    ∃ s, QueueBooted smallLogged.toQueueState ∧
      Run (fun s event s' => loggedStep s event = some s') smallLogged
        (readThenWrite ++ [.kernel (.delete 1)]) s ∧
      QueueIdle s.toQueueState 0 ∧ (losQueueDelete s.toQueueState 0).2 = .queueInTskwrite ∧
      ¬ QueuesAtomic s.toQueueState := by
  let := smallConfig
  have hrun : ((readThenWrite ++ [QueueEvent.kernel (.delete 1)]).foldlM loggedStep smallLogged).map
      (fun s => (((s.queue 0).queueState, (losQueueDelete s.toQueueState 0).2),
        ((s.pending 0).isNone, (s.pending 1).isNone, (s.pending 2).isNone),
        losListEmpty s.kernel (.wait (.readWriteList 0 false)),
        losListEmpty s.kernel (.wait (.readWriteList 0 true)), losListEmpty s.kernel (.wait (.memList 0)))) =
      some ((true, .queueInTskwrite), (true, true, true), true, true, true) := by decide +kernel
  rw [Option.map_eq_some_iff] at hrun
  obtain ⟨s, hs, hval⟩ := hrun
  simp only [Prod.mk.injEq, Option.isNone_iff_eq_none] at hval
  obtain ⟨⟨hused, hdelete⟩, ⟨h0, h1, h2⟩, hread, hwrite, hmail⟩ := hval
  have hidle : QueueIdle s.toQueueState 0 := by
    refine ⟨by decide, hused, fun write t _ => ?_, fun t _ => not_onList_of_empty hmail, ?_⟩
    · cases write with
      | true => exact not_onList_of_empty hwrite
      | false => exact not_onList_of_empty hread
    · rintro t ht ⟨call, hp, _⟩
      have hcase : t = 0 ∨ t = 1 ∨ t = 2 := by
        have h3 : t < 3 := ht
        omega
      rcases hcase with rfl | rfl | rfl
      · cases h0.symm.trans hp
      · cases h1.symm.trans hp
      · cases h2.symm.trans hp
  refine ⟨s, smallQueue_booted, run_of_foldlM hs, hidle, hdelete, fun h => ?_⟩
  have hok := (h.deletes 0).mpr hidle
  rw [hdelete] at hok
  cases hok

end LiteosM.Ipc
