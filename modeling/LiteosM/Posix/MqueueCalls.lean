import LiteosM.Posix.MqueueLife

/-!
# The calls of a message queue

What `mq_open`, `mq_close` and `mq_unlink` do to the table, and that every call keeps its invariant.
-/

namespace LiteosM.Mqueue

open LiteosM.Kernel LiteosM.Ipc LiteosM.Lib.DlList LiteosM.Lib.ByteMemory LiteosM.Lib.Ledger


section

variable [Config] {s s' : MqState} {i q a p : Nat} {n : List Byte}

def MqArray.vacated (e : MqArray) : MqArray := { e with mqName := none, mqcb := none }

/-- What `DoMqueueDelete` does. The queue itself stays if it is busy. -/
structure Deleted (s : MqState) (i a : Nat) (s' : MqState) (ret : MqReturn) : Prop where
  inv : TableInv s'.toQueueState s'.gQueueTable s'.personal
  table : s'.gQueueTable = Function.update s.gQueueTable i (s.gQueueTable i).vacated
  personal : s'.personal = s.personal
  pending : s'.pending = s.pending
  queue : (Deletable s.toQueueState i ∧ ret = ⟨0, none⟩ ∧ ∃ b, (s.queue i).queue = some b ∧
      s'.queue = Function.update s.queue i { s.queue i with queue := none, queueState := false } ∧
      s'.heap = Function.update (Function.update s.heap a none) b.addr none) ∨
    (¬Deletable s.toQueueState i ∧ ret = ⟨-1, some .eagain⟩ ∧ s'.queue = s.queue ∧
      s'.heap = Function.update s.heap a none)

omit [Config] in
theorem memFree_held (h : s.heap a ≠ none) :
    s.memFree a = ({ s with heap := Function.update s.heap a none }, .losOk) := by
  unfold MqState.memFree losMemFree
  dsimp only
  rw [if_pos (Option.isSome_iff_ne_none.mpr h)]

theorem freePersonal_eq (h : s.heap p ≠ none) : freePersonal s i p =
    if (s.gQueueTable i).unlinkflag = true ∧ (s.gQueueTable i).mqPersonal = [] then
      doMqueueDelete { s with heap := Function.update s.heap p none } i
    else ({ s with heap := Function.update s.heap p none }, ⟨0, none⟩) := by
  unfold freePersonal
  dsimp only
  rw [memFree_held h, if_neg (not_not.mpr rfl)]

theorem doMqueueDelete_spec (hi : TableInv s.toQueueState s.gQueueTable s.personal)
    (hname : (s.gQueueTable i).mqName = some (a, n)) (hlast : (s.gQueueTable i).mqPersonal = []) :
    Deleted s i a (doMqueueDelete s i).1 (doMqueueDelete s i).2 := by
  have ht := Taken.of_name (hi.entry i) (by rw [hname]; exact Option.some_ne_none _)
  have hheap : s.heap a ≠ none := hi.held.live (.name i) a (.name (by rw [hname]; rfl))
  have hvacate := hi.vacate hname hlast
  obtain ⟨s₁, hs₁, hqueue₁, htable₁, hpersonal₁⟩ : ∃ s₁ : MqState,
      ((freeName s i).modifyEntry i fun e => { e with mqcb := none }) = s₁ ∧
      s₁.toQueueState = { s.toQueueState with heap := Function.update s.heap a none } ∧
      s₁.gQueueTable = Function.update s.gQueueTable i (s.gQueueTable i).vacated ∧ s₁.personal = s.personal := by
    refine ⟨_, rfl, ?_, ?_, ?_⟩
    · rw [freeName_some n hname, memFree_held hheap]
      rfl
    · rw [freeName_some n hname, memFree_held hheap]
      unfold MqState.modifyEntry MqArray.vacated
      dsimp only
      rw [Function.update_self, Function.update_idem]
    · rw [freeName_some n hname, memFree_held hheap]
      rfl
  have hid : (s₁.gQueueTable i).mqId = i := by
    rw [htable₁, Function.update_self]
    exact ht.mqId
  have hinv₁ : TableInv s₁.toQueueState s₁.gQueueTable s₁.personal := by
    rw [hqueue₁, htable₁, hpersonal₁]
    exact hvacate
  have hvacant : Vacant (s₁.gQueueTable i) := by
    rw [htable₁, Function.update_self]
    exact ⟨rfl, rfl, hlast⟩
  obtain ⟨log, hand, V, hq⟩ := hinv₁.queues
  have hused : (s₁.queue i).queueState = true := by
    rw [hqueue₁]
    exact ht.used
  have hsame : Deletable s.toQueueState i ↔ Deletable s₁.toQueueState i := by
    rw [hqueue₁]
    exact ⟨fun h => ⟨h.bound, h.used, h.lists, h.mail, h.counts⟩, fun h => ⟨h.bound, h.used, h.lists, h.mail, h.counts⟩⟩
  unfold doMqueueDelete
  dsimp only
  rw [hs₁, hid]
  unfold MqState.queueDelete
  rcases losQueueDelete_spec hq i with ⟨hnot, hstay, _⟩ | ⟨hdel, hok, b, V', hb, hgone, hq'⟩
  · have hbusy : ∃ ret, losQueueDelete s₁.toQueueState i = (s₁.toQueueState, ret) ∧
        (ret = .queueInTskuse ∨ ret = .queueInTskwrite) := by
      rcases losQueueDelete_busy ht.bound hused hnot with h | h
      · exact ⟨_, h, .inl rfl⟩
      · exact ⟨_, h, .inr rfl⟩
    obtain ⟨ret, hret, hkind⟩ := hbusy
    rw [hret]
    rcases hkind with rfl | rfl
    · exact ⟨hinv₁, htable₁, hpersonal₁, by rw [hqueue₁], .inr ⟨fun h => hnot (hsame.mp h), rfl, by rw [hqueue₁], by rw [hqueue₁]⟩⟩
    · exact ⟨hinv₁, htable₁, hpersonal₁, by rw [hqueue₁], .inr ⟨fun h => hnot (hsame.mp h), rfl, by rw [hqueue₁], by rw [hqueue₁]⟩⟩
  · have hpair : losQueueDelete s₁.toQueueState i = ((losQueueDelete s₁.toQueueState i).1, .losOk) := by
      rw [← hok]
    rw [hpair]
    refine ⟨hinv₁.queueGone hvacant ⟨log, hand, V', hq'⟩ ht.bound hused hb ?_ ?_, htable₁, hpersonal₁, ?_,
      .inl ⟨hsame.mpr hdel, rfl, b, ?_, ?_, ?_⟩⟩
    · dsimp only
      rw [hgone]
    · dsimp only
      rw [hgone]
    · dsimp only
      rw [hgone, hqueue₁]
    · rw [hqueue₁] at hb
      exact hb
    · dsimp only
      rw [hgone, hqueue₁]
    · dsimp only
      rw [hgone, hqueue₁]

def MqState.detach (s : MqState) (i p : Nat) : MqState :=
  { s with
    heap := Function.update s.heap p none
    gQueueTable := Function.update s.gQueueTable i
      { s.gQueueTable i with mqPersonal := (s.gQueueTable i).mqPersonal.erase p }
    personal := Function.update s.personal p ⟨i, (s.personal p).mqFlags, false⟩ }

def MqState.attach (s : MqState) (i p flags : Nat) : MqState :=
  { s with
    heap := Function.update s.heap p (some mqpersonalSize)
    gQueueTable := Function.update s.gQueueTable i { s.gQueueTable i with mqPersonal := p :: (s.gQueueTable i).mqPersonal }
    personal := Function.update s.personal p ⟨i, flags, true⟩ }

def LastClose (s : MqState) (i p : Nat) : Prop :=
  (s.gQueueTable i).unlinkflag = true ∧ (s.gQueueTable i).mqPersonal.erase p = []

instance instDecidableLastClose (s : MqState) (i p : Nat) : Decidable (LastClose s i p) :=
  inferInstanceAs (Decidable (_ ∧ _))

theorem getMqueueCBByName_iff (hi : TableInv s.toQueueState s.gQueueTable s.personal) :
    getMqueueCBByName s n = some i ↔ (s.gQueueTable i).mqName.map Prod.snd = some n := by
  unfold getMqueueCBByName
  constructor
  · intro h
    simpa using List.find?_some h
  · intro h
    have ht := Taken.of_name (hi.entry i) fun hnone => by
      rw [hnone] at h
      cases h
    cases hfind : (List.range queueTableSize).find? fun i => (s.gQueueTable i).mqName.map Prod.snd = some n with
    | none => exact absurd (decide_eq_true h) (List.find?_eq_none.mp hfind i (List.mem_range.mpr ht.small))
    | some j => rw [hi.names j i n (by simpa using List.find?_some hfind) h]

theorem getMqueueCBByName_none (hi : TableInv s.toQueueState s.gQueueTable s.personal) :
    getMqueueCBByName s n = none ↔ ∀ i, (s.gQueueTable i).mqName.map Prod.snd ≠ some n := by
  constructor
  · intro h i hname
    rw [(getMqueueCBByName_iff hi).mpr hname] at h
    cases h
  · intro h
    cases hfind : getMqueueCBByName s n with
    | none => rfl
    | some i => exact absurd ((getMqueueCBByName_iff hi).mp hfind) (h i)

theorem mqClose_eq (hi : TableInv s.toQueueState s.gQueueTable s.personal) (hp : p ∈ (s.gQueueTable i).mqPersonal) :
    mqClose s p = some (if LastClose s i p then doMqueueDelete (s.detach i p) i else (s.detach i p, ⟨0, none⟩)) := by
  have hheap := hi.held.live _ _ (.personal hp)
  obtain ⟨hdes, hstatus⟩ := (Taken.of_personal (hi.entry i) hp).linked p hp
  unfold mqClose
  dsimp only
  rw [if_neg (by simpa using hheap), hstatus, hdes, if_neg (by decide), if_neg (not_not.mpr hp)]
  refine congrArg some ((freePersonal_eq (by exact hheap)).trans ?_)
  unfold LastClose
  rw [modifyEntry_self]
  rfl

theorem mqClose_spec (hi : MqInv s) (hp : p ∈ (s.gQueueTable i).mqPersonal) : ∃ s' ret, mqClose s p = some (s', ret) ∧
    ((¬LastClose s i p ∧ ret = ⟨0, none⟩ ∧ s' = s.detach i p) ∨
      (LastClose s i p ∧ ∃ a n, (s.gQueueTable i).mqName = some (a, n) ∧ Deleted (s.detach i p) i a s' ret)) := by
  have ht := Taken.of_personal (hi.table.entry i) hp
  obtain ⟨⟨a, n⟩, hname⟩ := Option.ne_none_iff_exists'.mp ht.named
  have hentry : (s.detach i p).gQueueTable i =
      { s.gQueueTable i with mqPersonal := (s.gQueueTable i).mqPersonal.erase p } := Function.update_self ..
  rw [mqClose_eq hi.table hp]
  by_cases hlast : LastClose s i p
  · rw [if_pos hlast]
    refine ⟨_, _, rfl, .inr ⟨hlast, a, n, hname, doMqueueDelete_spec (n := n) (hi.table.detach hp _) ?_ ?_⟩⟩
    · rw [hentry]
      exact hname
    · rw [hentry]
      exact hlast.2
  · rw [if_neg hlast]
    exact ⟨_, _, rfl, .inl ⟨hlast, rfl, rfl⟩⟩

omit [Config] in
theorem mqNameCheck_ok {mqName : Option (List Byte)} (h : mqNameCheck mqName = .ok n) : mqName = some n := by
  unfold mqNameCheck at h
  split at h
  · cases h
  · split at h
    · cases h
    · split at h
      · cases h
      · cases h
        rfl

theorem mqUnlink_cases (hi : MqInv s) (mqName : Option (List Byte)) :
    ((mqUnlink s mqName).1 = s ∧ (mqUnlink s mqName).2.ret = -1 ∧ ∀ n, mqName = some n → getMqueueCBByName s n = none) ∨
    ∃ i a n, mqName = some n ∧ (s.gQueueTable i).mqName = some (a, n) ∧
      (((s.gQueueTable i).mqPersonal ≠ [] ∧
        mqUnlink s mqName = (s.modifyEntry i fun e => { e with unlinkflag := true }, ⟨0, none⟩)) ∨
      ((s.gQueueTable i).mqPersonal = [] ∧ Deleted s i a (mqUnlink s mqName).1 (mqUnlink s mqName).2)) := by
  unfold mqUnlink
  cases hcheck : mqNameCheck mqName with
  | error errno =>
    refine .inl ⟨rfl, rfl, fun n hn => (getMqueueCBByName_none hi.table).mpr fun i hname => ?_⟩
    rw [hn, hi.valid i n hname] at hcheck
    cases hcheck
  | ok n =>
    obtain rfl := mqNameCheck_ok hcheck
    dsimp only
    cases hfound : getMqueueCBByName s n with
    | none =>
      refine .inl ⟨rfl, rfl, fun m hm => ?_⟩
      obtain rfl := Option.some.inj hm
      exact hfound
    | some i =>
      obtain ⟨⟨a, n'⟩, hname, hn⟩ := Option.map_eq_some_iff.mp ((getMqueueCBByName_iff hi.table).mp hfound)
      obtain rfl : n' = n := hn
      dsimp only
      by_cases hnil : (s.gQueueTable i).mqPersonal = []
      · rw [if_neg (not_not.mpr hnil)]
        exact .inr ⟨i, a, n', rfl, hname, .inr ⟨hnil, doMqueueDelete_spec hi.table hname hnil⟩⟩
      · rw [if_pos hnil]
        exact .inr ⟨i, a, n', rfl, hname, .inl ⟨hnil, rfl⟩⟩

/-! ### The creation -/

def firstEntry (q : Nat) (name : Nat × List Byte) (p : Nat) : MqArray := ⟨q, false, some name, some q, [p]⟩

theorem queueMade_taken {s₀ s : QueueState} {len msgSize : Nat} {b : Block} (hmade : QueueMade s₀ s q len msgSize b) :
    (s.queue q).queueState = true ∧ (s.queue q).queue = some b := by
  rw [hmade.queue, Function.update_self]
  exact ⟨rfl, rfl⟩

theorem queueMade_block {s₀ s : QueueState} {len msgSize : Nat} {b : Block} (hmade : QueueMade s₀ s q len msgSize b)
    (ha : s.heap a = none) : a ≠ b.addr := by
  intro he
  rw [hmade.heap, he, Function.update_self] at ha
  cases ha

omit [Config] in
theorem memAlloc_some {b : Block} {size : Nat} (h : s.memAlloc (some b) size = some s') :
    s.heap b.addr = none ∧ s' = { s with heap := Function.update s.heap b.addr (some size) } := by
  unfold MqState.memAlloc losMemAlloc at h
  dsimp only at h
  split at h
  · cases h
  next hfresh =>
  cases h
  exact ⟨Option.not_isSome_iff_eq_none.mp hfresh, rfl⟩

theorem undoCreate_eq (hid : (s.gQueueTable q).mqId = q) (hname : (s.gQueueTable q).mqName = some (a, n))
    {D : QueueState} {ret : QueueErrno} (hdelete : losQueueDelete s.toQueueState q = (D, ret)) (hheap : D.heap a ≠ none)
    (hnone : (D.queue q).queue = none) : undoCreate s q q =
      { s with
        toQueueState := { D with heap := Function.update D.heap a none }
        gQueueTable := Function.update s.gQueueTable q { (s.gQueueTable q).vacated with mqPersonal := [] } } := by
  unfold undoCreate
  dsimp only
  rw [modifyEntry_self]
  dsimp only
  rw [hid]
  have hD : ((s.modifyEntry q fun e => { e with mqPersonal := [] }).queueDelete q).1 =
      { s.modifyEntry q fun e => { e with mqPersonal := [] } with toQueueState := D } := by
    unfold MqState.queueDelete
    rw [show (s.modifyEntry q fun e => { e with mqPersonal := [] }).toQueueState = s.toQueueState from rfl, hdelete]
  have hset : D.setQueue q { D.queue q with queue := none } = D := by
    unfold QueueState.setQueue
    rw [show { D.queue q with queue := none } = D.queue q by rw [← hnone], Function.update_eq_self]
  rw [hD, freeName_some (a := a) n (by rw [modifyEntry_self, modifyEntry_self]; exact hname)]
  dsimp only
  rw [hset, memFree_held (by exact hheap)]
  unfold MqState.modifyEntry MqArray.vacated
  dsimp only
  rw [Function.update_self, Function.update_idem, Function.update_self, Function.update_idem]

theorem undoCreate_inv {s₀ : QueueState} {len msgSize k : Nat} {f : Bool} {l : List Nat} {b : Block}
    (hmade : QueueMade s₀ s.toQueueState q len msgSize b) (hi : TableInv s.toQueueState s.gQueueTable s.personal)
    (hname : s.heap a = none) (hv : Vacant (s.gQueueTable q)) :
    ∃ Q e, Vacant e ∧ (∀ j, j ≠ q → Q.queue j = s.queue j) ∧
      undoCreate { s with
        heap := Function.update s.heap a (some k)
        gQueueTable := Function.update s.gQueueTable q ⟨q, f, some (a, n), some q, l⟩ } q q =
        { s with toQueueState := Q, gQueueTable := Function.update s.gQueueTable q e } ∧
      TableInv Q (Function.update s.gQueueTable q e) s.personal := by
  obtain ⟨hused, hb⟩ := queueMade_taken hmade
  obtain ⟨log, hand, V, hq⟩ := hmade.inv
  obtain ⟨_, hdelete⟩ := losQueueDelete_made (n := k) hmade hname
  have hne := queueMade_block hmade hname
  obtain ⟨V', hgone⟩ : ∃ V', QueueInv (losQueueDelete
      { s.toQueueState with heap := Function.update s.heap a (some k) } q).1 log hand V' := by
    rcases losQueueDelete_spec (queueInv_take hq hname) q with ⟨_, _, hbad⟩ | ⟨_, _, _, V', _, _, hgone⟩
    · rw [hdelete] at hbad
      exact absurd rfl hbad
    · exact ⟨V', hgone⟩
  rw [hdelete] at hgone
  dsimp only at hgone
  have hdrop := queueInv_drop (a := a) hgone fun q' hq' hst haddr => by
    dsimp only at hst haddr
    by_cases hqq : q' = q
    · rw [hqq, Function.update_self] at hst
      cases hst
    · rw [Function.update_of_ne hqq] at hst haddr
      exact hi.held.fresh hname (.queue hq' hst haddr)
  have hheap : Function.update (Function.update (Function.update s.heap a (some k)) b.addr none) a none =
      Function.update s.heap b.addr none := by
    rw [Function.update_comm hne.symm, Function.update_idem, Function.update_comm hne]
    exact Function.update_eq_self_iff.mpr ((Function.update_of_ne hne ..).trans hname).symm
  have hvacant : Vacant { (MqArray.vacated ⟨q, f, some (a, n), some q, l⟩) with mqPersonal := [] } :=
    ⟨rfl, rfl, rfl⟩
  refine ⟨_, _, hvacant, fun j hj => Function.update_of_ne hj .., (undoCreate_eq (a := a) (n := n) ?_ ?_ hdelete ?_ ?_).trans ?_,
    (hi.queueGone hv ⟨log, hand, V', hdrop⟩ hmade.bound hused hb rfl hheap).setVacant (i := q) hvacant⟩
  · dsimp only
    rw [Function.update_self]
  · dsimp only
    rw [Function.update_self]
  · dsimp only
    rw [Function.update_of_ne hne, Function.update_self]
    exact Option.some_ne_none _
  · dsimp only
    rw [Function.update_self]
  · dsimp only
    rw [Function.update_self, Function.update_idem]

theorem entryCreate_spec {s₀ : QueueState} {len msgSize openFlag : Nat} {b : Block} {attr : MqAttr} {name personal : Option Block}
    {ret : Except MqErrno Nat} (hmade : QueueMade s₀ s.toQueueState q len msgSize b)
    (hi : TableInv s.toQueueState s.gQueueTable s.personal) (hword : q < 2 ^ 16)
    (hfresh : ∀ j, (s.gQueueTable j).mqName.map Prod.snd ≠ some n) (hv : Vacant (s.gQueueTable q))
    (hrun : entryCreate s attr n openFlag q name personal = some (s', ret)) :
    TableInv s'.toQueueState s'.gQueueTable s'.personal ∧ (∀ j, j ≠ q → s'.queue j = s.queue j) ∧
    ((∃ errno, ret = .error errno) ∧ (∃ e, Vacant e ∧ s'.gQueueTable = Function.update s.gQueueTable q e) ∨
      ∃ a p, ret = .ok p ∧ s.heap p = none ∧ s'.gQueueTable = Function.update s.gQueueTable q (firstEntry q (a, n) p)) := by
  unfold entryCreate at hrun
  dsimp only at hrun
  rw [Nat.mod_eq_of_lt hword, hv.mqcb] at hrun
  split at hrun
  · cases hrun
  next hsmall =>
  rw [if_neg (by decide)] at hrun
  cases name with
  | none =>
    have hsaved : ∀ s : MqState, ∀ i, saveMqueueName s n i none =
        some (s.modifyEntry i fun e => { e with mqName := none }, some .enomem) := fun _ _ => rfl
    rw [hsaved] at hrun
    cases hrun
    rw [freeName_none (by rw [modifyEntry_self])]
    have hvacant : Vacant { { s.gQueueTable q with mqId := q } with mqName := none } := ⟨hv.mqcb, rfl, hv.mqPersonal⟩
    have htable : ((s.modifyEntry q fun e => { e with mqId := q }).modifyEntry q fun e => { e with mqName := none }).gQueueTable =
        Function.update s.gQueueTable q { { s.gQueueTable q with mqId := q } with mqName := none } := by
      unfold MqState.modifyEntry
      dsimp only
      rw [Function.update_self, Function.update_idem]
    refine ⟨?_, fun _ _ => rfl, .inl ⟨⟨_, rfl⟩, _, hvacant, htable⟩⟩
    rw [htable]
    exact hi.setVacant hvacant
  | some name =>
    obtain ⟨r, hsave, hrun⟩ := Option.bind_eq_some_iff.mp hrun
    obtain ⟨hname, rfl⟩ := saveMqueueName_some hsave
    dsimp only at hrun
    have hid : getMqueueCBByID q = some q := if_neg hsmall
    rw [modifyEntry_self, modifyEntry_self, hid] at hrun
    dsimp only at hrun
    change s.heap name.addr = none at hname
    have hstate : (({ s.modifyEntry q (fun e => { e with mqId := q }) with
        heap := Function.update s.heap name.addr (some (n.length + 1)) } : MqState).modifyEntry q fun e =>
          { e with mqName := some (name.addr, n) }).modifyEntry q (fun e => { e with mqcb := some q }) =
        { s with
          heap := Function.update s.heap name.addr (some (n.length + 1))
          gQueueTable := Function.update s.gQueueTable q
            ⟨q, (s.gQueueTable q).unlinkflag, some (name.addr, n), some q, (s.gQueueTable q).mqPersonal⟩ } := by
      unfold MqState.modifyEntry
      dsimp only
      rw [Function.update_self, Function.update_idem, Function.update_self, Function.update_idem]
    unfold firstPersonal at hrun
    dsimp only at hrun
    cases personal with
    | none =>
      obtain ⟨Q, e, hvacant, hothers, hundo, hinv⟩ := undoCreate_inv (n := n) (k := n.length + 1)
        (f := (s.gQueueTable q).unlinkflag) (l := (s.gQueueTable q).mqPersonal) hmade hi hname hv
      rw [← hstate] at hundo
      have hs' : s' = { s with toQueueState := Q, gQueueTable := Function.update s.gQueueTable q e } :=
        (congrArg Prod.fst (Option.some.inj hrun)).symm.trans hundo
      refine ⟨?_, ?_, .inl ⟨⟨_, (congrArg Prod.snd (Option.some.inj hrun)).symm⟩, e, hvacant, ?_⟩⟩
      · rw [hs']
        exact hinv
      · rw [hs']
        exact hothers
      · rw [hs']
    | some personal =>
      obtain ⟨s₁, halloc, hrun⟩ := Option.bind_eq_some_iff.mp hrun
      obtain ⟨hp, rfl⟩ := memAlloc_some halloc
      change Function.update s.heap name.addr (some (n.length + 1)) personal.addr = none at hp
      have hne : personal.addr ≠ name.addr := fun he => by
        rw [he, Function.update_self] at hp
        cases hp
      rw [Function.update_of_ne hne] at hp
      obtain ⟨hused, _⟩ := queueMade_taken hmade
      have hinv := hi.fill (n := n) (k := n.length + 1) (m := mqpersonalSize)
        (f := openFlag ||| (attr.mqFlags % 2 ^ 32).toNat &&& fnonblock) (Nat.lt_of_not_le hsmall) hmade.bound hused
        hname hp hne hfresh
      have hs' : s' = { s with
          heap := Function.update (Function.update s.heap name.addr (some (n.length + 1))) personal.addr (some mqpersonalSize)
          gQueueTable := Function.update s.gQueueTable q (firstEntry q (name.addr, n) personal.addr)
          personal := Function.update s.personal personal.addr
            ⟨q, openFlag ||| (attr.mqFlags % 2 ^ 32).toNat &&& fnonblock, true⟩ } := by
        refine (congrArg Prod.fst (Option.some.inj hrun)).symm.trans ?_
        unfold MqState.modifyEntry firstEntry
        dsimp only
        rw [Function.update_self, Function.update_idem, Function.update_self, Function.update_idem, Function.update_self,
          Function.update_idem]
      refine ⟨?_, fun _ _ => by rw [hs'], .inr ⟨name.addr, personal.addr, (congrArg Prod.snd (Option.some.inj hrun)).symm, hp, ?_⟩⟩
      · rw [hs']
        exact hinv
      · rw [hs']

/-- What `mq_open` can come to. A queue that exists is refused for three reasons. -/
inductive Opening (s : MqState) (mqName : Option (List Byte)) (openFlag : Nat) (personal : Option Block) (s' : MqState) :
    Except MqErrno Nat → Prop
  | refused (errno : MqErrno)
      (why : ∀ i n, mqName = some n → (s.gQueueTable i).mqName.map Prod.snd = some n →
        (s.gQueueTable i).unlinkflag = true ∨ (openFlag &&& oCreat ≠ 0 ∧ openFlag &&& oExcl ≠ 0) ∨ personal = none)
      (table : ∀ i, s'.gQueueTable i = s.gQueueTable i ∨ Vacant (s.gQueueTable i) ∧ Vacant (s'.gQueueTable i)) :
      Opening s mqName openFlag personal s' (.error errno)
  | attached (i a : Nat) (n : List Byte) (p : Nat) (hn : mqName = some n) (name : (s.gQueueTable i).mqName = some (a, n))
      (live : (s.gQueueTable i).unlinkflag = false) (flag : openFlag &&& oCreat = 0 ∨ openFlag &&& oExcl = 0)
      (free : s.heap p = none) (state : s' = s.attach i p openFlag) : Opening s mqName openFlag personal s' (.ok p)
  | created (q a : Nat) (n : List Byte) (p : Nat) (hn : mqName = some n) (valid : mqNameCheck (some n) = .ok n)
      (unknown : getMqueueCBByName s n = none) (flag : openFlag &&& oCreat ≠ 0) (vacant : Vacant (s.gQueueTable q))
      (unused : (s.queue q).queueState = false)
      (free : s.heap p = none) (table : s'.gQueueTable = Function.update s.gQueueTable q (firstEntry q (a, n) p)) :
      Opening s mqName openFlag personal s' (.ok p)

/-- What holds after `mq_open` in any case. -/
structure OpenKept (s s' : MqState) : Prop where
  table : TableInv s'.toQueueState s'.gQueueTable s'.personal
  queues : ∀ j, (s.queue j).queueState = true → s'.queue j = s.queue j

omit [Config] in
theorem Opening.unknown {mqName : Option (List Byte)} {openFlag : Nat} {personal : Option Block} (errno : MqErrno)
    (h : ∀ i n, mqName = some n → (s.gQueueTable i).mqName.map Prod.snd ≠ some n) :
    Opening s mqName openFlag personal s (.error errno) :=
  .refused errno (fun i n hn hname => absurd hname (h i n hn)) fun _ => .inl rfl

theorem MqInv.kept (hi : MqInv s) : OpenKept s s := ⟨hi.table, fun _ _ => rfl⟩

theorem doMqueueOpen_spec {openFlag : Nat} {personal : Option Block} {ret : Except MqErrno Nat} (hi : MqInv s)
    (hname : (s.gQueueTable i).mqName = some (a, n)) (hflag : openFlag &&& oCreat = 0 ∨ openFlag &&& oExcl = 0)
    (hrun : doMqueueOpen s i openFlag personal = some (s', ret)) :
    OpenKept s s' ∧ Opening s (some n) openFlag personal s' ret := by
  have honly : ∀ j m, some n = some m → (s.gQueueTable j).mqName.map Prod.snd = some m → j = i := by
    intro j m hm hj
    obtain rfl := Option.some.inj hm
    exact hi.table.names j i n hj (by rw [hname]; rfl)
  unfold doMqueueOpen at hrun
  split at hrun
  · next hflagged =>
    cases hrun
    exact ⟨hi.kept, .refused _ (fun j m hm hj => .inl (by rw [honly j m hm hj]; exact hflagged)) fun _ => .inl rfl⟩
  next hlive =>
  cases personal with
  | none =>
    cases hrun
    exact ⟨hi.kept, .refused _ (fun _ _ _ _ => .inr (.inr rfl)) fun _ => .inl rfl⟩
  | some personal =>
    obtain ⟨s₁, halloc, hrun⟩ := Option.bind_eq_some_iff.mp hrun
    obtain ⟨hp, rfl⟩ := memAlloc_some halloc
    cases hrun
    have ht := Taken.of_name (hi.table.entry i) (by rw [hname]; exact Option.some_ne_none _)
    exact ⟨⟨hi.table.attach ht hp, fun _ _ => rfl⟩,
      .attached i a n personal.addr rfl hname (by simpa using hlive) hflag hp rfl⟩

theorem doMqueueCreate_spec {openFlag : Nat} {attr : MqAttr} {queue name personal : Option Block} {ret : Except MqErrno Nat}
    (hlimit : Config.queueLimit ≤ 2 ^ 16) (hi : MqInv s) (hvalid : mqNameCheck (some n) = .ok n)
    (hnone : getMqueueCBByName s n = none) (hflag : openFlag &&& oCreat ≠ 0)
    (hsize : attr.mqMsgsize.toNat ≤ osNullShort - 4)
    (hrun : doMqueueCreate s attr n openFlag queue name personal = some (s', ret)) :
    OpenKept s s' ∧ Opening s (some n) openFlag personal s' ret := by
  obtain ⟨log, hand, V, hq⟩ := hi.table.queues
  have hfresh := (getMqueueCBByName_none hi.table).mp hnone
  have hwhy : ∀ j m, some n = some m → (s.gQueueTable j).mqName.map Prod.snd ≠ some m := by
    intro j m hm
    obtain rfl := Option.some.inj hm
    exact hfresh j
  have hmsg : (Fin.ofNat 65536 attr.mqMsgsize.toNat).val = attr.mqMsgsize.toNat := Nat.mod_eq_of_lt (by
    unfold osNullShort at hsize
    omega)
  unfold doMqueueCreate at hrun
  obtain ⟨⟨s₁, err, o⟩, hqueue, hrun⟩ := Option.bind_eq_some_iff.mp hrun
  dsimp only at hrun
  rcases losQueueCreate_made hq (by rw [hmsg]; exact hsize) hqueue with ⟨rfl, herr, _⟩ | ⟨rfl, _, q, b, rfl, hmade⟩
  · cases hmap : mapMqErrno err with
    | none => exact absurd (mapMqErrno_none hmap) herr
    | some errno =>
      rw [hmap] at hrun
      cases hrun
      exact ⟨hi.kept, .unknown _ hwhy⟩
  · have hword : q < 2 ^ 16 := Nat.lt_of_lt_of_le hmade.bound hlimit
    have hv := Vacant.of_unused (hi.table.entry q) hmade.unused
    rw [Nat.mod_eq_of_lt hword] at hrun
    change entryCreate { s with toQueueState := s₁ } attr n openFlag q name personal = some (s', ret) at hrun
    obtain ⟨hinv, hothers, hout⟩ := entryCreate_spec (s := { s with toQueueState := s₁ }) hmade
      (hi.table.queueMade hmade.inv hmade.unused hmade.fresh rfl hmade.queue hmade.heap) hword hfresh hv hrun
    have hkept : ∀ j, (s.queue j).queueState = true → s'.queue j = s.queue j := by
      intro j hj
      have hjq : j ≠ q := fun he => by
        rw [he, hmade.unused] at hj
        cases hj
      rw [hothers j hjq]
      change s₁.queue j = _
      rw [hmade.queue, Function.update_of_ne hjq]
    refine ⟨⟨hinv, hkept⟩, ?_⟩
    rcases hout with ⟨⟨errno, rfl⟩, e, he, htable⟩ | ⟨a, p, rfl, hp, htable⟩
    · refine .refused errno (fun j m hm hj => absurd hj (hwhy j m hm)) fun j => ?_
      by_cases hj : j = q
      · rw [hj, htable, Function.update_self]
        exact .inr ⟨hv, he⟩
      · rw [htable, Function.update_of_ne hj]
        exact .inl rfl
    · change s₁.heap p = none at hp
      have hne := queueMade_block hmade hp
      rw [hmade.heap, Function.update_of_ne hne] at hp
      exact .created q a n p rfl hvalid hnone hflag hv hmade.unused hp htable

theorem mqOpen_spec {mqName : Option (List Byte)} {openFlag : Nat} {attr : Option MqAttr} {queue name personal : Option Block}
    {ret : Except MqErrno Nat} (hlimit : Config.queueLimit ≤ 2 ^ 16) (hi : MqInv s)
    (hrun : mqOpen s mqName openFlag attr queue name personal = some (s', ret)) :
    OpenKept s s' ∧ Opening s mqName openFlag personal s' ret := by
  unfold mqOpen at hrun
  cases hcheck : mqNameCheck mqName with
  | error errno =>
    rw [hcheck] at hrun
    cases hrun
    refine ⟨hi.kept, .unknown _ fun i n hn hname => ?_⟩
    rw [hn, hi.valid i n hname] at hcheck
    cases hcheck
  | ok n =>
    rw [hcheck] at hrun
    dsimp only at hrun
    obtain rfl := mqNameCheck_ok hcheck
    cases hfound : getMqueueCBByName s n with
    | some i =>
      obtain ⟨⟨a, n'⟩, hname, hn⟩ := Option.map_eq_some_iff.mp ((getMqueueCBByName_iff hi.table).mp hfound)
      obtain rfl : n' = n := hn
      rw [hfound] at hrun
      cases hcreat : decide (openFlag &&& oCreat ≠ 0) with
      | true =>
        rw [hcreat] at hrun
        dsimp only at hrun
        split at hrun
        · next hexcl =>
          cases hrun
          exact ⟨hi.kept, .refused _ (fun _ _ _ _ => .inr (.inl ⟨of_decide_eq_true hcreat, hexcl⟩)) fun _ => .inl rfl⟩
        · next hexcl => exact doMqueueOpen_spec hi hname (.inr (not_not.mp hexcl)) hrun
      | false =>
        rw [hcreat] at hrun
        exact doMqueueOpen_spec hi hname (.inl (not_not.mp (of_decide_eq_false hcreat))) hrun
    | none =>
      have hfresh := (getMqueueCBByName_none hi.table).mp hfound
      have hwhy : ∀ j m, some n = some m → (s.gQueueTable j).mqName.map Prod.snd ≠ some m := by
        intro j m hm
        obtain rfl := Option.some.inj hm
        exact hfresh j
      rw [hfound] at hrun
      cases hcreat : decide (openFlag &&& oCreat ≠ 0) with
      | true =>
        have hflag := of_decide_eq_true hcreat
        rw [hcreat] at hrun
        cases attr with
        | none => exact doMqueueCreate_spec hlimit hi hcheck hfound hflag (by decide) hrun
        | some attr =>
          dsimp only at hrun
          split at hrun
          · cases hrun
            exact ⟨hi.kept, .unknown _ hwhy⟩
          · next hrefused =>
            have hrange := of_decide_eq_false (Bool.not_eq_true _ ▸ hrefused)
            unfold ushrtMax at hrange
            refine doMqueueCreate_spec hlimit hi hcheck hfound hflag ?_ hrun
            unfold osNullShort
            omega
      | false =>
        rw [hcreat] at hrun
        cases hrun
        exact ⟨hi.kept, .unknown _ hwhy⟩

/-! ### A step -/

/-- `mq_close` gets a descriptor that is open, `LOS_QueueDelete` no queue of the table, and no task waits for mail
with the scheduler locked. -/
def Proper (s : MqState) : MqEvent → Prop
  | .mqClose p => ∃ i, p ∈ (s.gQueueTable i).mqPersonal
  | .ipc (.delete q) => (s.gQueueTable q).mqcb = none
  | .ipc event => ¬MailInLock s.toQueueState event
  | _ => True

theorem MqInv.setEntry {e : MqArray} (hi : MqInv s) (hinv : TableInv s'.toQueueState s'.gQueueTable s'.personal)
    (htable : s'.gQueueTable = Function.update s.gQueueTable i e)
    (hunlinked : e.mqcb ≠ none → e.unlinkflag = true → e.mqPersonal ≠ [])
    (hvalid : ∀ n, e.mqName.map Prod.snd = some n → mqNameCheck (some n) = .ok n) : MqInv s' := by
  refine ⟨hinv, fun j => ?_, fun j => ?_⟩
  · by_cases hj : j = i
    · rw [htable, hj, Function.update_self]
      exact hunlinked
    · rw [htable, Function.update_of_ne hj]
      exact hi.unlinked j
  · by_cases hj : j = i
    · rw [htable, hj, Function.update_self]
      exact hvalid
    · rw [htable, Function.update_of_ne hj]
      exact hi.valid j

theorem Opening.inv {mqName : Option (List Byte)} {openFlag : Nat} {personal : Option Block} {ret : Except MqErrno Nat}
    (hi : MqInv s) (hkept : OpenKept s s') (h : Opening s mqName openFlag personal s' ret) : MqInv s' := by
  cases h with
  | refused errno why table =>
    refine ⟨hkept.table, fun j hcb => ?_, fun j n hname => ?_⟩
    · rcases table j with hsame | ⟨_, hv⟩
      · rw [hsame] at hcb ⊢
        exact hi.unlinked j hcb
      · exact absurd hv.mqcb hcb
    · rcases table j with hsame | ⟨_, hv⟩
      · rw [hsame] at hname
        exact hi.valid j n hname
      · rw [hv.mqName] at hname
        cases hname
  | attached i a n p hn name live flag free state =>
    refine hi.setEntry (i := i) (e := { s.gQueueTable i with mqPersonal := p :: (s.gQueueTable i).mqPersonal }) hkept.table ?_
      (fun _ _ => List.cons_ne_nil p _) (hi.valid i)
    rw [state]
    rfl
  | created q a n p hn valid unknown flag vacant unused free table =>
    refine hi.setEntry hkept.table table (fun _ _ => List.cons_ne_nil p []) fun n' hn' => ?_
    obtain rfl := Option.some.inj hn'
    exact valid

theorem Deleted.mqInv {ret : MqReturn} (hi : MqInv s) (h : Deleted s i a s' ret) : MqInv s' :=
  hi.setEntry h.inv h.table (fun hcb => absurd rfl hcb) nofun

theorem ipc_inv {event : QueueEvent} {Q : QueueState} {r : QueueReturn} (hi : MqInv s) (hproper : Proper s (.ipc event))
    (hstep : Ipc.queueStep s.toQueueState event = some (Q, r)) : MqInv { s with toQueueState := Q } := by
  obtain ⟨log, hand, V, hq⟩ := hi.table.queues
  suffices h : TableInv Q s.gQueueTable s.personal from ⟨h, hi.unlinked, hi.valid⟩
  cases hevent : event.allots with
  | false =>
    have hmail : ¬MailInLock s.toQueueState event := by
      cases event with
      | create | delete => cases hevent
      | _ => exact hproper
    obtain ⟨hand', V', hq', _⟩ := (queueStep_spec (s := ⟨s.toQueueState, log⟩) hq hmail hstep).inv
    exact hi.table.kept (queueStep_kept hevent hstep) ⟨_, hand', V', hq'⟩
  | true =>
    cases event with
    | create len queueID maxMsgSize queue =>
      obtain ⟨⟨s₁, err, o⟩, heq, hr⟩ := Option.map_eq_some_iff.mp hstep
      obtain ⟨rfl, _⟩ := Prod.mk.inj hr
      rcases losQueueCreate_spec hq heq with ⟨rfl, _⟩ | ⟨_, q, _, hunused, b, _, hfresh, _, _, _, hqueue, hheap, V', hq'⟩
      · exact hi.table
      · exact hi.table.queueMade ⟨_, _, V', hq'⟩ hunused hfresh rfl hqueue hheap
    | delete q =>
      obtain ⟨rfl, _⟩ := Prod.mk.inj (Option.some.inj hstep)
      rcases losQueueDelete_spec hq q with ⟨_, hsame, _⟩ | ⟨hdel, _, b, V', hb, hgone, hq'⟩
      · rw [hsame]
        exact hi.table
      · have hv := (hi.table.entry q).resolve_right fun ht => by
          have hcb := ht.mqcb
          rw [show (s.gQueueTable q).mqcb = none from hproper] at hcb
          cases hcb
        exact hi.table.queueGone hv ⟨_, _, V', hq'⟩ hdel.bound hdel.used hb (by rw [hgone]) (by rw [hgone])
    | _ => cases hevent

theorem mqStep_inv {event : MqEvent} {r : MqResult} (hlimit : Config.queueLimit ≤ 2 ^ 16) (hi : MqInv s)
    (hproper : Proper s event) (hstep : mqStep s event = some (s', r)) : MqInv s' := by
  cases event with
  | mqOpen mqName openFlag attr queue name personal =>
    obtain ⟨⟨s₁, ret⟩, hrun, hr⟩ := Option.map_eq_some_iff.mp hstep
    obtain ⟨rfl, _⟩ := Prod.mk.inj hr
    obtain ⟨hkept, hopening⟩ := mqOpen_spec hlimit hi hrun
    exact hopening.inv hi hkept
  | mqClose p =>
    obtain ⟨⟨s₁, ret⟩, hrun, hr⟩ := Option.map_eq_some_iff.mp hstep
    obtain ⟨rfl, _⟩ := Prod.mk.inj hr
    obtain ⟨i, hp⟩ := hproper
    obtain ⟨s₂, ret₂, hrun₂, hout⟩ := mqClose_spec hi hp
    obtain ⟨rfl, rfl⟩ := Prod.mk.inj (Option.some.inj (hrun.symm.trans hrun₂))
    have hdetach := hi.table.detach hp ⟨i, (s.personal p).mqFlags, false⟩
    rcases hout with ⟨hnot, _, rfl⟩ | ⟨hlast, a, n, hname, hdel⟩
    · exact hi.setEntry (i := i) hdetach rfl (fun _ hflag hnil => hnot ⟨hflag, hnil⟩) (hi.valid i)
    · refine hi.setEntry (i := i) (e := ((s.detach i p).gQueueTable i).vacated) hdel.inv ?_ (fun hcb => absurd rfl hcb)
        fun n hn => ?_
      · rw [hdel.table]
        exact Function.update_idem ..
      · cases hn
  | mqUnlink mqName =>
    obtain ⟨rfl, _⟩ := Prod.mk.inj (Option.some.inj hstep)
    rcases mqUnlink_cases hi mqName with ⟨hsame, _⟩ | ⟨i, a, n, _, hname, ⟨hopen, heq⟩ | ⟨hnil, hdel⟩⟩
    · rw [hsame]
      exact hi
    · rw [heq]
      have ht := Taken.of_name (hi.table.entry i) (by rw [hname]; exact Option.some_ne_none _)
      exact hi.setEntry (i := i) (hi.table.flag ht true) rfl (fun _ _ => hopen) (hi.valid i)
    · exact hdel.mqInv hi
  | ipc event =>
    obtain ⟨⟨Q, r'⟩, hrun, hr⟩ := Option.map_eq_some_iff.mp hstep
    obtain ⟨rfl, _⟩ := Prod.mk.inj hr
    exact ipc_inv hi hproper hrun

end

end LiteosM.Mqueue
