import LiteosM.Ipc.QueueSlots
import LiteosM.Posix.Mqueue

/-!
# What a failed `mq_open` leaves

The queue that the kernel has made is given back when there is no memory for the descriptor, but not when
there is none for the name.
-/

namespace LiteosM.Mqueue

open LiteosM.Kernel LiteosM.Ipc LiteosM.Lib.DlList LiteosM.Lib.ByteMemory

section

variable [Config] {s s' : QueueState} {log : Nat → List Ipc.QueueOp} {hand : Nat → Bool → Nat} {V : View Node} {q a n : Nat}

def nextQueue (s : QueueState) : Option Nat :=
  if losListEmpty s.kernel .gFreeQueueList then none else getQueueList (losDlListFirst s.kernel .gFreeQueueList)

/-- `LOS_QueueCreate` has made queue `q`. -/
structure QueueMade (s s' : QueueState) (q len msgSize : Nat) (b : Block) : Prop where
  next : nextQueue s = some q
  bound : q < Config.queueLimit
  unused : (s.queue q).queueState = false
  fresh : s.heap b.addr = none
  queue : s'.queue = Function.update s.queue q (freshCB len msgSize b)
  heap : s'.heap = Function.update s.heap b.addr (some (len * msgSize))
  lists : ∀ write, losListEmpty s'.kernel (.wait (.readWriteList q write)) = true
  mail : losListEmpty s'.kernel (.wait (.memList q)) = true
  inv : ∃ log hand V, QueueInv s' log hand V

/-- What `LOS_QueueCreate` needs. -/
structure Creatable (s : QueueState) (len msgSize : Nat) (queue : Option Block) : Prop where
  len : len ≠ 0
  size : msgSize ≠ 0
  block : queue.isSome
  free : nextQueue s ≠ none

omit [Config] in
theorem losListEmpty_init (k : KernelState) (list : Node) : losListEmpty (losListInit k list) list = true := by
  unfold losListEmpty losListInit listInit listEmpty setPrev setNext
  exact decide_eq_true (Function.update_self ..)

omit [Config] in
theorem losListEmpty_init_of_ne (k : KernelState) {list list' : Node} (h : list' ≠ list) :
    losListEmpty (losListInit k list) list' = losListEmpty k list' := by
  have hnext : (losListInit k list).links.next list' = k.links.next list' := Function.update_of_ne h ..
  unfold losListEmpty listEmpty
  simp only [hnext]

theorem losQueueCreate_made (hi : QueueInv s log hand V) {len maxMsgSize : Fin 65536} {queue : Option Block}
    {ret : QueueErrno} {o : Option Nat} (hsize : maxMsgSize.val ≤ osNullShort - 4)
    (heq : losQueueCreate s len true maxMsgSize queue = some (s', ret, o)) :
    (s' = s ∧ ret ≠ .losOk ∧ ¬Creatable s len.val maxMsgSize.val queue) ∨
    (ret = .losOk ∧ Creatable s len.val maxMsgSize.val queue ∧ ∃ q b, o = some (q % 2 ^ 16) ∧
      QueueMade s s' q len.val (maxMsgSize.val + 4) b) := by
  unfold losQueueCreate at heq
  rw [if_neg (by decide), if_neg (Nat.not_lt.mpr hsize)] at heq
  split at heq
  · next hzero =>
    cases heq
    refine .inl ⟨rfl, by decide, fun h => ?_⟩
    rcases hzero with hzero | hzero
    · exact h.len (congrArg Fin.val hzero)
    · exact h.size (congrArg Fin.val hzero)
  next hzero =>
  have hlen : 0 < len.val := Nat.pos_of_ne_zero fun h => hzero (.inl (Fin.ext h))
  have hmax : 0 < maxMsgSize.val := Nat.pos_of_ne_zero fun h => hzero (.inr (Fin.ext h))
  unfold osNullShort at hsize
  cases queue with
  | none =>
    cases heq
    exact .inl ⟨rfl, by decide, fun h => Bool.false_ne_true h.block⟩
  | some b =>
    simp only [losMemAlloc, Option.bind_eq_bind] at heq
    split at heq
    · cases heq
    next hfresh =>
    have hb : s.heap b.addr = none := by simpa using hfresh
    rw [Option.bind_some] at heq
    dsimp only at heq
    cases hempty : losListEmpty s.kernel .gFreeQueueList with
    | true =>
      rw [if_pos hempty, Option.some.injEq, Prod.mk.injEq, Prod.mk.injEq] at heq
      refine .inl ⟨?_, by rw [← heq.2.1]; decide, fun h => h.free (if_pos hempty)⟩
      rw [← heq.1]
      simp only [losMemFree, Function.update_self, Option.isSome_some, if_true, Function.update_idem]
      rw [Function.update_eq_self_iff.mpr hb.symm]
    | false =>
      obtain ⟨q, hq, hst, hfirst, V', hi'⟩ := hi.create hempty hlen len.isLt
        (show 4 < maxMsgSize.val + 4 by omega) (by omega) hb
      have hnext : nextQueue s = some q := by
        unfold nextQueue
        rw [hempty, hfirst]
        rfl
      rw [if_neg (by rw [hempty]; exact Bool.false_ne_true), hfirst] at heq
      simp only [getQueueList, Option.bind_some, Option.some.injEq, Prod.mk.injEq] at heq
      obtain ⟨rfl, rfl, rfl⟩ := heq
      have hneeds : Creatable s len.val maxMsgSize.val (some b) :=
        ⟨hlen.ne', hmax.ne', rfl, by rw [hnext]; exact Option.some_ne_none q⟩
      refine .inr ⟨rfl, hneeds, q, b, rfl, hnext, hq, hst, hb, rfl, rfl, fun write => ?_, losListEmpty_init .., _, _, V',
        hi'⟩
      refine (losListEmpty_init_of_ne _ (by simp)).trans ?_
      cases write with
      | true => exact losListEmpty_init ..
      | false => exact (losListEmpty_init_of_ne _ (by simp)).trans (losListEmpty_init ..)

theorem queueInv_take (hi : QueueInv s log hand V) (ha : s.heap a = none) :
    QueueInv { s with heap := Function.update s.heap a (some n) } log hand V := by
  refine ⟨hi.waits, hi.pool, fun q hq hst => ?_, hi.blank, hi.apart, hi.calls⟩
  refine (hi.used q hq hst).congr (fun _ _ => rfl) (fun _ => rfl) fun b hb => ?_
  obtain ⟨b', hb', hheap⟩ := (hi.used q hq hst).block
  obtain rfl := Option.some.inj (hb.symm.trans hb')
  have hne : b.addr ≠ a := fun he => by
    rw [he, ha] at hheap
    cases hheap
  exact Function.update_of_ne hne ..

end

section

variable [Config] {s s' : MqState} {log : Nat → List Ipc.QueueOp} {hand : Nat → Bool → Nat} {V : View Node} {i q a n : Nat}

/-- What `mq_open` creates with, when there is no queue of the name and it is to create one. -/
def creation (s : MqState) (mqName : Option (List Byte)) (openFlag : Nat) (attr : Option MqAttr) :
    Option (MqAttr × List Byte) :=
  match mqNameCheck mqName with
  | .error _ => none
  | .ok mqName =>
    if getMqueueCBByName s mqName = none ∧ openFlag &&& oCreat ≠ 0 ∧ attrRefused (attr.getD mqDefaultAttr) = false then
      some (attr.getD mqDefaultAttr, mqName)
    else none

/-- The same queues, the same heap and the same names. A table entry without a control block may differ
in what nobody reads. -/
structure Same (s s' : MqState) : Prop where
  queues : ∀ q, (s'.queue q).queueState = (s.queue q).queueState
  heap : s'.heap = s.heap
  names : ∀ i, (s'.gQueueTable i).mqName = (s.gQueueTable i).mqName
  mqcb : ∀ i, (s'.gQueueTable i).mqcb = (s.gQueueTable i).mqcb
  entries : ∀ i, (s.gQueueTable i).mqcb ≠ none → s'.gQueueTable i = s.gQueueTable i

/-- A queue that `mq_open` gets from the kernel finds its table entry free, and memory for its name. -/
def NameFits (s : MqState) (mqName : Option (List Byte)) (openFlag : Nat) (attr : Option MqAttr)
    (queue name : Option Block) : Prop :=
  ∀ a n, creation s mqName openFlag attr = some (a, n) →
    Creatable s.toQueueState a.mqMaxmsg.toNat a.mqMsgsize.toNat queue →
      ∀ q, nextQueue s.toQueueState = some q → (s.gQueueTable q).mqcb = none ∧ name.isSome

omit [Config] in
theorem modifyEntry_self (s : MqState) (i : Nat) (f : MqArray → MqArray) :
    (s.modifyEntry i f).gQueueTable i = f (s.gQueueTable i) := Function.update_self ..

omit [Config] in
theorem modifyEntry_of_ne {j : Nat} (h : j ≠ i) (f : MqArray → MqArray) :
    (s.modifyEntry i f).gQueueTable j = s.gQueueTable j := Function.update_of_ne h ..

omit [Config] in
theorem freeName_none (h : (s.gQueueTable i).mqName = none) : freeName s i = s := by
  unfold freeName
  rw [h]

omit [Config] in
theorem freeName_some (mqName : List Byte) (h : (s.gQueueTable i).mqName = some (a, mqName)) :
    freeName s i = (s.memFree a).1.modifyEntry i fun e => { e with mqName := none } := by
  unfold freeName
  rw [h]

omit [Config] in
theorem Same.refl (s : MqState) : Same s s := ⟨fun _ => rfl, rfl, fun _ => rfl, fun _ => rfl, fun _ _ => rfl⟩

omit [Config] in
theorem doMqueueOpen_same {openFlag : Nat} {personal : Option Block} {errno : MqErrno}
    (hrun : doMqueueOpen s i openFlag personal = some (s', .error errno)) : s' = s := by
  unfold doMqueueOpen at hrun
  split at hrun
  · cases hrun
    rfl
  cases personal with
  | none =>
    cases hrun
    rfl
  | some personal =>
    obtain ⟨s₁, _, hrun⟩ := Option.bind_eq_some_iff.mp hrun
    cases hrun

theorem mqOpen_cases {mqName : Option (List Byte)} {openFlag : Nat} {attr : Option MqAttr}
    {queue name personal : Option Block} {ret : Except MqErrno Nat}
    (hrun : mqOpen s mqName openFlag attr queue name personal = some (s', ret)) :
    (creation s mqName openFlag attr = none ∧ ∀ errno, ret = .error errno → s' = s) ∨
    ∃ a n, creation s mqName openFlag attr = some (a, n) ∧
      doMqueueCreate s a n openFlag queue name personal = some (s', ret) := by
  unfold mqOpen at hrun
  unfold creation
  cases hname : mqNameCheck mqName with
  | error e =>
    rw [hname] at hrun
    cases hrun
    exact .inl ⟨rfl, fun _ _ => rfl⟩
  | ok mqName =>
    rw [hname] at hrun
    dsimp only at hrun ⊢
    cases hfound : getMqueueCBByName s mqName with
    | some i =>
      rw [if_neg (fun h => nomatch h.1)]
      refine .inl ⟨rfl, fun errno he => ?_⟩
      rw [hfound, he] at hrun
      cases hcreat : decide (openFlag &&& oCreat ≠ 0) with
      | true =>
        rw [hcreat] at hrun
        dsimp only at hrun
        split at hrun
        · cases hrun
          rfl
        · exact doMqueueOpen_same hrun
      | false =>
        rw [hcreat] at hrun
        exact doMqueueOpen_same hrun
    | none =>
      rw [hfound] at hrun
      cases hcreat : decide (openFlag &&& oCreat ≠ 0) with
      | true =>
        have hflag := of_decide_eq_true hcreat
        rw [hcreat] at hrun
        cases attr with
        | none =>
          rw [if_pos ⟨rfl, hflag, by decide⟩]
          exact .inr ⟨_, _, rfl, hrun⟩
        | some attr =>
          dsimp only at hrun
          cases hrefused : attrRefused attr with
          | true =>
            rw [if_pos hrefused] at hrun
            cases hrun
            rw [if_neg (fun h => Bool.false_ne_true (h.2.2.symm.trans hrefused))]
            exact .inl ⟨rfl, fun _ _ => rfl⟩
          | false =>
            rw [if_neg (by rw [hrefused]; exact Bool.false_ne_true)] at hrun
            rw [if_pos ⟨rfl, hflag, hrefused⟩]
            exact .inr ⟨_, _, rfl, hrun⟩
      | false =>
        rw [hcreat] at hrun
        cases hrun
        rw [if_neg (fun h => of_decide_eq_false hcreat h.2.1)]
        exact .inl ⟨rfl, fun _ _ => rfl⟩

theorem entryCreate_kept {attr : MqAttr} {mqName : List Byte} {openFlag : Nat} {name personal : Option Block}
    {ret : Except MqErrno Nat} (hnot : ¬((s.gQueueTable (q % 2 ^ 16)).mqcb = none ∧ name.isSome))
    (hrun : entryCreate s attr mqName openFlag q name personal = some (s', ret)) :
    s'.queue = s.queue ∧ ∃ errno, ret = .error errno := by
  unfold entryCreate at hrun
  dsimp only at hrun
  split at hrun
  · cases hrun
  split at hrun
  · cases hrun
    exact ⟨rfl, _, rfl⟩
  next hfree =>
  have hnone : (s.gQueueTable (q % 2 ^ 16)).mqcb = none := Option.not_isSome_iff_eq_none.mp hfree
  cases name with
  | some block => exact absurd ⟨hnone, rfl⟩ hnot
  | none =>
    have hsaved : ∀ s : MqState, ∀ i, saveMqueueName s mqName i none =
        some (s.modifyEntry i fun e => { e with mqName := none }, some .enomem) := fun _ _ => rfl
    rw [hsaved] at hrun
    cases hrun
    refine ⟨?_, _, rfl⟩
    rw [freeName_none (by rw [modifyEntry_self])]
    rfl

omit [Config] in
theorem saveMqueueName_some {mqName : List Byte} {name : Block} {r : MqState × Option MqErrno}
    (hrun : saveMqueueName s mqName i (some name) = some r) : s.heap name.addr = none ∧
      r = ({ s with heap := Function.update s.heap name.addr (some (mqName.length + 1)) }.modifyEntry i fun e =>
        { e with mqName := some (name.addr, mqName) }, none) := by
  unfold saveMqueueName MqState.memAlloc losMemAlloc at hrun
  dsimp only at hrun
  split at hrun
  · cases hrun
  next hfresh =>
  cases hrun
  exact ⟨Option.not_isSome_iff_eq_none.mp hfresh, rfl⟩

theorem losQueueDelete_made {s₀ s : QueueState} {len msgSize : Nat} {b : Block} (hmade : QueueMade s₀ s q len msgSize b)
    (ha : s.heap a = none) : ∃ k,
    losQueueDelete { s with heap := Function.update s.heap a (some n) } q =
      ({ s with
        kernel := k
        queue := Function.update s.queue q { s.queue q with queue := none, queueState := false }
        heap := Function.update (Function.update s.heap a (some n)) b.addr none }, .losOk) := by
  obtain ⟨log, hand, V, hi⟩ := hmade.inv
  have hself : s.queue q = freshCB len msgSize b := by
    rw [hmade.queue]
    exact Function.update_self ..
  have hdeletable : Deletable { s with heap := Function.update s.heap a (some n) } q := by
    refine ⟨hmade.bound, ?_, hmade.lists, hmade.mail, ?_⟩
    · exact congrArg LosQueueCB.queueState hself
    · show (s.queue q).readWriteableCnt true + (s.queue q).readWriteableCnt false = (s.queue q).queueLen
      rw [hself]
      rfl
  rcases losQueueDelete_spec (queueInv_take (n := n) hi ha) q with ⟨hnot, _⟩ | ⟨_, hok, b', V', hb', hs', _⟩
  · exact absurd hdeletable hnot
  · have hb : b' = b := by
      change (s.queue q).queue = some b' at hb'
      rw [hself] at hb'
      exact (Option.some.inj hb').symm
    rw [hb] at hs'
    exact ⟨_, Prod.ext hs' hok⟩

theorem undoCreate_spec {mqName : List Byte} (hid : (s.gQueueTable q).mqId = q)
    (hname : (s.gQueueTable q).mqName = some (a, mqName)) {D : QueueState} {ret : QueueErrno}
    (hdelete : losQueueDelete s.toQueueState q = (D, ret)) (hheap : (D.heap a).isSome) :
    (undoCreate s q q).heap = Function.update D.heap a none ∧
    (∀ q', ((undoCreate s q q).queue q').queueState = (D.queue q').queueState) ∧
    (∀ j, j ≠ q → (undoCreate s q q).gQueueTable j = s.gQueueTable j) ∧
    ((undoCreate s q q).gQueueTable q).mqName = none ∧ ((undoCreate s q q).gQueueTable q).mqcb = none := by
  unfold undoCreate
  dsimp only
  rw [modifyEntry_self]
  dsimp only
  rw [hid]
  have hD : ((s.modifyEntry q fun e => { e with mqPersonal := [] }).queueDelete q).1 =
      { s.modifyEntry q fun e => { e with mqPersonal := [] } with toQueueState := D } := by
    unfold MqState.queueDelete
    rw [show (s.modifyEntry q fun e => { e with mqPersonal := [] }).toQueueState = s.toQueueState from rfl, hdelete]
  rw [hD, freeName_some (a := a) mqName (by rw [modifyEntry_self, modifyEntry_self]; exact hname)]
  have hfree : ∀ s₁ : MqState, (s₁.heap a).isSome →
      (s₁.memFree a).1 = { s₁ with heap := Function.update s₁.heap a none } := by
    intro s₁ h
    unfold MqState.memFree losMemFree
    dsimp only
    rw [if_pos h]
  rw [hfree _ hheap]
  refine ⟨rfl, fun q' => ?_, fun j hj => ?_, ?_, ?_⟩
  · show (Function.update D.queue q { D.queue q with queue := none } q').queueState = _
    by_cases hq : q' = q
    · rw [hq, Function.update_self]
    · rw [Function.update_of_ne hq]
  · show (((s.modifyEntry q fun e => { e with mqPersonal := [] }).modifyEntry q fun e =>
      { e with mqcb := none }).modifyEntry q fun e => { e with mqName := none }).gQueueTable j = _
    rw [modifyEntry_of_ne hj, modifyEntry_of_ne hj, modifyEntry_of_ne hj]
  · rw [modifyEntry_self]
  · show ((((s.modifyEntry q fun e => { e with mqPersonal := [] }).modifyEntry q fun e =>
      { e with mqcb := none }).modifyEntry q fun e => { e with mqName := none }).gQueueTable q).mqcb = _
    rw [modifyEntry_self, modifyEntry_self]

theorem entryCreate_denied {s₀ : QueueState} {len msgSize : Nat} {b name : Block} {attr : MqAttr}
    {mqName : List Byte} {openFlag : Nat} {personal : Option Block} {errno : MqErrno}
    (hmade : QueueMade s₀ s.toQueueState q len msgSize b) (hword : q < 2 ^ 16)
    (hfree : (s.gQueueTable q).mqcb = none) (hclear : (s.gQueueTable q).mqName = none)
    (hrun : entryCreate s attr mqName openFlag q (some name) personal = some (s', .error errno)) :
    Same { s with toQueueState := s₀ } s' := by
  unfold entryCreate at hrun
  dsimp only at hrun
  rw [Nat.mod_eq_of_lt hword, hfree] at hrun
  split at hrun
  · cases hrun
  next hlt =>
  rw [if_neg (by decide)] at hrun
  obtain ⟨r, hsave, hrun⟩ := Option.bind_eq_some_iff.mp hrun
  obtain ⟨hname, rfl⟩ := saveMqueueName_some hsave
  dsimp only at hrun
  have hid : getMqueueCBByID q = some q := if_neg hlt
  rw [modifyEntry_self, modifyEntry_self, hid] at hrun
  dsimp only at hrun
  unfold firstPersonal at hrun
  cases personal with
  | some personal =>
    obtain ⟨s₁, _, hrun⟩ := Option.bind_eq_some_iff.mp hrun
    cases hrun
  | none =>
    obtain ⟨k, hdelete⟩ := losQueueDelete_made (n := mqName.length + 1) hmade hname
    obtain ⟨s₂, hs', hqueue, hid₂, hname₂, hothers₂⟩ : ∃ s₂ : MqState, undoCreate s₂ q q = s' ∧
        s₂.toQueueState = { s.toQueueState with heap := Function.update s.heap name.addr (some (mqName.length + 1)) } ∧
        (s₂.gQueueTable q).mqId = q ∧ (s₂.gQueueTable q).mqName = some (name.addr, mqName) ∧
        ∀ j, j ≠ q → s₂.gQueueTable j = s.gQueueTable j := by
      refine ⟨_, congrArg Prod.fst (Option.some.inj hrun), rfl, ?_, ?_, fun j hj => ?_⟩
      · rw [modifyEntry_self, modifyEntry_self, modifyEntry_self]
      · rw [modifyEntry_self, modifyEntry_self]
      · rw [modifyEntry_of_ne hj, modifyEntry_of_ne hj]
        exact modifyEntry_of_ne (s := s) hj fun e => { e with mqId := q }
    have hne : name.addr ≠ b.addr := fun he => by
      change s.heap name.addr = none at hname
      rw [hmade.heap, he, Function.update_self] at hname
      cases hname
    rw [← hqueue] at hdelete
    have hheld : (Function.update (Function.update s.heap name.addr (some (mqName.length + 1))) b.addr none
        name.addr).isSome := by
      rw [Function.update_of_ne hne, Function.update_self]
      rfl
    obtain ⟨hheap, hqueues, hothers, hnone, hcb⟩ := undoCreate_spec hid₂ hname₂ hdelete hheld
    rw [hs'] at hheap hqueues hothers hnone hcb
    have htable : ∀ j, j ≠ q → s'.gQueueTable j = s.gQueueTable j := fun j hj => (hothers j hj).trans (hothers₂ j hj)
    refine ⟨fun q' => ?_, ?_, fun j => ?_, fun j => ?_, fun j hj => ?_⟩
    · rw [hqueues]
      show (Function.update s.queue q { s.queue q with queue := none, queueState := false } q').queueState = _
      by_cases hq : q' = q
      · rw [hq, Function.update_self]
        exact hmade.unused.symm
      · rw [Function.update_of_ne hq, hmade.queue, Function.update_of_ne hq]
    · rw [hheap]
      funext x
      show Function.update (Function.update (Function.update s.heap name.addr _) b.addr none) name.addr none x = _
      change s.heap name.addr = none at hname
      rw [hmade.heap] at hname ⊢
      rw [Function.update_of_ne hne] at hname
      by_cases hx : x = name.addr
      · rw [hx, Function.update_self]
        exact hname.symm
      · by_cases hb : x = b.addr
        · rw [Function.update_of_ne hx, hb, Function.update_self]
          exact hmade.fresh.symm
        · rw [Function.update_of_ne hx, Function.update_of_ne hb, Function.update_of_ne hx, Function.update_of_ne hb]
    · by_cases hq : j = q
      · rw [hq, hnone, hclear]
      · rw [htable j hq]
    · by_cases hq : j = q
      · rw [hq, hcb, hfree]
      · rw [htable j hq]
    · exact htable j fun hq => hj (hq ▸ hfree)

omit [Config] in
theorem mapMqErrno_none {err : QueueErrno} (h : mapMqErrno err = none) : err = .losOk := by
  cases err with
  | losOk => rfl
  | _ => cases h

omit [Config] in
theorem creation_range {mqName : Option (List Byte)} {openFlag : Nat} {attr : Option MqAttr} {at' : MqAttr}
    {name : List Byte} (h : creation s mqName openFlag attr = some (at', name)) :
    at'.mqMaxmsg.toNat < 65536 ∧ at'.mqMsgsize.toNat ≤ osNullShort - 4 := by
  unfold creation at h
  cases hname : mqNameCheck mqName with
  | error e =>
    rw [hname] at h
    cases h
  | ok mqName =>
    rw [hname] at h
    dsimp only at h
    split at h
    · next hc =>
      cases h
      have hrange := of_decide_eq_false hc.2.2
      unfold ushrtMax at hrange
      unfold osNullShort
      omega
    · cases h

/-- An `mq_open` that fails is atomic exactly when the queue that it makes gets a name. -/
theorem mqOpen_atomic_iff {mqName : Option (List Byte)} {openFlag : Nat} {attr : Option MqAttr}
    {queue name personal : Option Block} {ret : Except MqErrno Nat} (hlimit : Config.queueLimit ≤ 2 ^ 16)
    (hi : QueueInv s.toQueueState log hand V)
    (hclear : ∀ i, (s.gQueueTable i).mqcb = none → (s.gQueueTable i).mqName = none)
    (hrun : mqOpen s mqName openFlag attr queue name personal = some (s', ret)) :
    (∀ errno, ret = .error errno → Same s s') ↔ NameFits s mqName openFlag attr queue name := by
  rcases mqOpen_cases hrun with ⟨hnone, hsame⟩ | ⟨a, n, hcreate, hrun⟩
  · refine iff_of_true (fun errno he => ?_) fun a n hsome => ?_
    · rw [hsame errno he]
      exact Same.refl s
    · cases hnone.symm.trans hsome
  obtain ⟨hmax, hsize⟩ := creation_range hcreate
  have hlen : (Fin.ofNat 65536 a.mqMaxmsg.toNat).val = a.mqMaxmsg.toNat := Nat.mod_eq_of_lt hmax
  have hmsg : (Fin.ofNat 65536 a.mqMsgsize.toNat).val = a.mqMsgsize.toNat := Nat.mod_eq_of_lt (by
    unfold osNullShort at hsize
    omega)
  unfold doMqueueCreate at hrun
  obtain ⟨⟨s₁, err, o⟩, hqueue, hrun⟩ := Option.bind_eq_some_iff.mp hrun
  dsimp only at hrun
  rcases losQueueCreate_made hi (by rw [hmsg]; exact hsize) hqueue with ⟨rfl, herr, hnot⟩ |
      ⟨rfl, hneeds, q, b, rfl, hmade⟩
  · -- the kernel makes no queue
    rw [hlen, hmsg] at hnot
    have hfits : NameFits s mqName openFlag attr queue name := by
      intro a' n' hcreate' hcreatable
      cases hcreate.symm.trans hcreate'
      exact absurd hcreatable hnot
    refine iff_of_true (fun errno he => ?_) hfits
    cases hmap : mapMqErrno err with
    | none => exact absurd (mapMqErrno_none hmap) herr
    | some errno' =>
      rw [hmap] at hrun
      cases hrun
      exact Same.refl s
  · have hword : q < 2 ^ 16 := Nat.lt_of_lt_of_le hmade.bound hlimit
    rw [Nat.mod_eq_of_lt hword] at hrun
    change entryCreate { s with toQueueState := s₁ } a n openFlag q name personal = some (s', ret) at hrun
    by_cases hnamed : (s.gQueueTable q).mqcb = none ∧ name.isSome
    · refine iff_of_true (fun errno he => ?_) fun a' n' hcreate' hcreatable q' hq' => ?_
      · obtain ⟨hfree, hsome⟩ := hnamed
        obtain ⟨block, rfl⟩ := Option.isSome_iff_exists.mp hsome
        rw [he] at hrun
        exact entryCreate_denied (s := { s with toQueueState := s₁ }) hmade hword hfree (hclear q hfree) hrun
      · cases hmade.next.symm.trans hq'
        exact hnamed
    · obtain ⟨hkept, errno, he⟩ := entryCreate_kept (s := { s with toQueueState := s₁ })
        (by rw [Nat.mod_eq_of_lt hword]; exact hnamed) hrun
      refine iff_of_false (fun hatomic => ?_) fun hfits => hnamed (hfits a n hcreate ?_ q hmade.next)
      · have hstate := (hatomic errno he).queues q
        rw [hkept, hmade.unused] at hstate
        change (s₁.queue q).queueState = false at hstate
        rw [hmade.queue, Function.update_self] at hstate
        cases hstate
      · rw [← hlen, ← hmsg]
        exact hneeds

end

def smallMqueue : MqState where
  toQueueState := smallQueue
  gQueueTable := fun _ => ⟨0, false, none, none, []⟩
  personal := fun _ => ⟨0, 0, false⟩

theorem smallMqueue_inv : letI := smallConfig
    ∃ log hand V, QueueInv smallMqueue.toQueueState log hand V := by
  let _ := smallConfig
  obtain ⟨V, hi⟩ := queueBooted_inv (fun _ => []) (by decide) smallQueue_booted
  exact ⟨_, _, V, hi⟩

/-- `mq_open` of the name "q" with `O_CREAT`. -/
def openQ [Config] (name personal : Option Block) : Option (MqState × Except MqErrno Nat) :=
  mqOpen smallMqueue (some [113]) oCreat none (some ⟨4096, atNull⟩) name personal

theorem openQ_fails [Config] (name personal : Option Block) (errno : MqErrno)
    (h : (openQ name personal).map (fun r => match r.2 with | .error errno => some errno | .ok _ => none) =
      some (some errno)) : ∃ s', openQ name personal = some (s', .error errno) := by
  obtain ⟨⟨s', ret⟩, hrun, hret⟩ := Option.map_eq_some_iff.mp h
  cases ret with
  | error e =>
    obtain rfl := Option.some.inj hret
    exact ⟨s', hrun⟩
  | ok addr => cases hret

/-- There is no memory for the name. The queue that has been made for it stays. -/
theorem mqOpen_not_atomic : letI := smallConfig
    ∃ s', openQ none none = some (s', .error .enomem) ∧ ¬Same smallMqueue s' := by
  let _ := smallConfig
  obtain ⟨s', hrun⟩ := openQ_fails none none .enomem (by decide +kernel)
  have hstate : (openQ none none).map (fun r => (r.1.queue 0).queueState) = some true := by decide +kernel
  rw [hrun] at hstate
  refine ⟨s', hrun, fun hsame => ?_⟩
  have hunused : (smallMqueue.queue 0).queueState = false := by decide +kernel
  cases hunused.symm.trans ((hsame.queues 0).symm.trans (Option.some.inj hstate))

theorem mqOpen_atomic_iff_denied : letI := smallConfig
    ∃ s', openQ (some ⟨8192, atNull⟩) none = some (s', .error .enospc) ∧ Same smallMqueue s' := by
  let _ := smallConfig
  obtain ⟨s', hrun⟩ := openQ_fails (some ⟨8192, atNull⟩) none .enospc (by decide +kernel)
  obtain ⟨log, hand, V, hi⟩ := smallMqueue_inv
  refine ⟨s', hrun, (mqOpen_atomic_iff (by decide) hi (fun _ _ => rfl) hrun).mpr ?_ _ rfl⟩
  exact fun a n _ _ q _ => ⟨rfl, rfl⟩

end LiteosM.Mqueue
