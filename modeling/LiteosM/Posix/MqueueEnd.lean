import LiteosM.Posix.MqueueNames

/-!
# The end of the queue of the kernel

`DoMqueueDelete` frees the name first and asks the kernel to delete the queue then. A queue that is busy stays,
and no call of `mqueue.c` comes to it any more.
-/

namespace LiteosM.Mqueue

open LiteosM.Kernel LiteosM.Ipc LiteosM.Lib.ByteMemory LiteosM.Lib.Transition

section

variable [Config] {s s' : MqState} {i q a c p : Nat} {n : List Byte} {event : MqEvent} {r : MqResult}

/-- Queue `q` is in use, with its block at `c`, and the table does not know it. -/
structure Stranded (s : MqState) (q c : Nat) : Prop where
  used : (s.queue q).queueState = true
  block : (s.queue q).queue.map Block.addr = some c
  unknown : (s.gQueueTable q).mqcb = none

/-- `LOS_QueueDelete` itself is the way out. -/
def NotDeleted (q : Nat) : MqEvent → Prop
  | .ipc (.delete q') => q' ≠ q
  | _ => True

omit [Config] in
theorem Stranded.of_table (h : Stranded s q c) (hqueue : s'.queue q = s.queue q)
    (hcb : (s'.gQueueTable q).mqcb = (s.gQueueTable q).mqcb) : Stranded s' q c :=
  ⟨by rw [hqueue, h.used], by rw [hqueue, h.block], by rw [hcb, h.unknown]⟩

theorem Stranded.deleted {ret : MqReturn} (h : Stranded s q c) (hcb : (s.gQueueTable i).mqcb ≠ none)
    (hdel : Deleted s i a s' ret) : Stranded s' q c := by
  have hne : q ≠ i := fun he => hcb (he ▸ h.unknown)
  refine h.of_table ?_ ?_
  · rcases hdel.queue with ⟨_, _, b, _, hqueue, _⟩ | ⟨_, _, hqueue, _⟩
    · rw [hqueue, Function.update_of_ne hne]
    · rw [hqueue]
  · rw [hdel.table, Function.update_of_ne hne]

theorem Stranded.opening {mqName : Option (List Byte)} {openFlag : Nat} {personal : Option Block} {ret : Except MqErrno Nat}
    (hi : MqInv s) (h : Stranded s q c) (hkept : OpenKept s s') (hopening : Opening s mqName openFlag personal s' ret) :
    Stranded s' q c := by
  refine h.of_table (hkept.queues q h.used) ?_
  cases hopening with
  | refused errno why table =>
    rcases table q with hsame | ⟨hv, hv'⟩
    · rw [hsame]
    · rw [hv.mqcb, hv'.mqcb]
  | attached i a n p hn name live flag free state =>
    have ht := Taken.of_name (hi.table.entry i) (by rw [name]; exact Option.some_ne_none _)
    have hne : q ≠ i := fun he => by
      have hcb := h.unknown
      rw [he, ht.mqcb] at hcb
      cases hcb
    rw [state]
    exact congrArg MqArray.mqcb (Function.update_of_ne hne ..)
  | created q' a n p hn valid unknown flag vacant unused free table =>
    have hne : q ≠ q' := fun he => by
      have hused := h.used
      rw [he, unused] at hused
      cases hused
    rw [table, Function.update_of_ne hne]

theorem Stranded.step (hlimit : Config.queueLimit ≤ 2 ^ 16) (hi : MqInv s) (hproper : Proper s event)
    (hnot : NotDeleted q event) (hstep : mqStep s event = some (s', r)) (h : Stranded s q c) : Stranded s' q c := by
  cases event with
  | mqOpen mqName openFlag attr queue name personal =>
    obtain ⟨⟨s₁, ret⟩, hrun, hr⟩ := Option.map_eq_some_iff.mp hstep
    obtain ⟨rfl, rfl⟩ := Prod.mk.inj hr
    obtain ⟨hkept, hopening⟩ := mqOpen_spec hlimit hi hrun
    exact h.opening hi hkept hopening
  | mqClose p =>
    obtain ⟨⟨s₁, ret⟩, hrun, hr⟩ := Option.map_eq_some_iff.mp hstep
    obtain ⟨rfl, rfl⟩ := Prod.mk.inj hr
    obtain ⟨i, hp⟩ := hproper
    obtain ⟨s₂, ret₂, hrun₂, hout⟩ := mqClose_spec hi hp
    obtain ⟨rfl, rfl⟩ := Prod.mk.inj (Option.some.inj (hrun.symm.trans hrun₂))
    have hcb : (s.gQueueTable i).mqcb ≠ none := by
      rw [(Taken.of_personal (hi.table.entry i) hp).mqcb]
      exact Option.some_ne_none i
    have hne : q ≠ i := fun he => hcb (he ▸ h.unknown)
    have hdetach : Stranded (s.detach i p) q c := h.of_table rfl (congrArg MqArray.mqcb (Function.update_of_ne hne ..))
    rcases hout with ⟨_, _, rfl⟩ | ⟨_, a, n, _, hdel⟩
    · exact hdetach
    · refine hdetach.deleted ?_ hdel
      rwa [show (s.detach i p).gQueueTable i = _ from Function.update_self ..]
  | mqUnlink mqName =>
    obtain ⟨rfl, _⟩ := Prod.mk.inj (Option.some.inj hstep)
    rcases mqUnlink_cases hi mqName with ⟨hsame, _⟩ | ⟨i, a, n, _, hname, hout⟩
    · rw [hsame]
      exact h
    · have hcb : (s.gQueueTable i).mqcb ≠ none := by
        rw [(Taken.of_name (hi.table.entry i) (by rw [hname]; exact Option.some_ne_none _)).mqcb]
        exact Option.some_ne_none i
      have hne : q ≠ i := fun he => hcb (he ▸ h.unknown)
      rcases hout with ⟨_, heq⟩ | ⟨_, hdel⟩
      · rw [heq]
        refine h.of_table rfl ?_
        dsimp only
        rw [modifyEntry_of_ne hne]
      · exact h.deleted hcb hdel
  | ipc event =>
    obtain ⟨⟨Q, r'⟩, hrun, hr⟩ := Option.map_eq_some_iff.mp hstep
    obtain ⟨rfl, _⟩ := Prod.mk.inj hr
    obtain ⟨log, hand, V, hq⟩ := hi.table.queues
    suffices hsame : (Q.queue q).queueState = (s.queue q).queueState ∧
        (Q.queue q).queue.map Block.addr = (s.queue q).queue.map Block.addr from
      ⟨hsame.1.trans h.used, hsame.2.trans h.block, h.unknown⟩
    cases hevent : event.allots with
    | false =>
      have hkept := queueStep_kept hevent hrun
      exact ⟨hkept.state q, hkept.addr q⟩
    | true =>
      cases event with
      | create len queueID maxMsgSize queue =>
        obtain ⟨⟨s₁, err, o⟩, heq, hr⟩ := Option.map_eq_some_iff.mp hrun
        obtain ⟨rfl, _⟩ := Prod.mk.inj hr
        rcases losQueueCreate_spec hq heq with ⟨rfl, _⟩ | ⟨_, q', _, hunused, b, _, _, _, _, _, hqueue, _⟩
        · exact ⟨rfl, rfl⟩
        · have hne : q ≠ q' := fun he => by
            have hused := h.used
            rw [he, hunused] at hused
            cases hused
          rw [hqueue, Function.update_of_ne hne]
          exact ⟨rfl, rfl⟩
      | delete q' =>
        obtain ⟨rfl, _⟩ := Prod.mk.inj (Option.some.inj hrun)
        have hne : q ≠ q' := fun he => hnot he.symm
        rcases losQueueDelete_spec hq q' with ⟨_, hsame, _⟩ | ⟨_, _, b, V', _, hgone, _⟩
        · rw [hsame]
          exact ⟨rfl, rfl⟩
        · rw [hgone]
          dsimp only
          rw [Function.update_of_ne hne]
          exact ⟨rfl, rfl⟩
      | _ => cases hevent

/-- How the queue of the kernel ends whose name was at `a` and whose block is at `c`. -/
structure QueueEnd (s s' : MqState) (q a c : Nat) (ret : MqReturn) : Prop where
  used : (s.queue q).queueState = true
  block : (s.queue q).queue.map Block.addr = some c
  name : s'.heap a = none
  deleted : Deletable s.toQueueState q → ret = ⟨0, none⟩ ∧ (s'.queue q).queueState = false ∧ s'.heap c = none
  lost : ¬Deletable s.toQueueState q → ret = ⟨-1, some .eagain⟩ ∧ Stranded s' q c
  pending : s'.pending = s.pending

theorem Deleted.queueEnd {s₁ : MqState} {ret : MqReturn} (h : Deleted s₁ i a s' ret)
    (hinv : TableInv s.toQueueState s.gQueueTable s.personal) (ht : Taken s.toQueueState s.personal i (s.gQueueTable i))
    (hqueue : s₁.queue = s.queue) (hpending : s₁.pending = s.pending) (hkernel : s₁.kernel = s.kernel) :
    ∃ c, QueueEnd s s' i a c ret := by
  obtain ⟨log, hand, V, hq⟩ := hinv.queues
  obtain ⟨b, hb, _⟩ := (hq.used i ht.bound ht.used).block
  have hsame : Deletable s₁.toQueueState i ↔ Deletable s.toQueueState i := by
    constructor
    · intro hd
      exact ⟨hd.bound, by rw [← hqueue]; exact hd.used, by rw [← hkernel]; exact hd.lists, by rw [← hkernel]; exact hd.mail,
        by rw [← hqueue]; exact hd.counts⟩
    · intro hd
      exact ⟨hd.bound, by rw [hqueue]; exact hd.used, by rw [hkernel]; exact hd.lists, by rw [hkernel]; exact hd.mail,
        by rw [hqueue]; exact hd.counts⟩
  refine ⟨b.addr, ht.used, by rw [hb]; rfl, ?_, fun hdel => ?_, fun hnot => ?_, h.pending.trans hpending⟩
  · rcases h.queue with ⟨_, _, b', _, _, hheap⟩ | ⟨_, _, _, hheap⟩
    · rw [hheap]
      by_cases hab : a = b'.addr
      · rw [hab, Function.update_self]
      · rw [Function.update_of_ne hab, Function.update_self]
    · rw [hheap, Function.update_self]
  · rcases h.queue with ⟨_, hret, b', hb', hqueue', hheap⟩ | ⟨hnot, _⟩
    · obtain rfl : b = b' := Option.some.inj (hb.symm.trans (by rw [← hqueue]; exact hb'))
      refine ⟨hret, ?_, ?_⟩
      · rw [hqueue', Function.update_self]
      · rw [hheap, Function.update_self]
    · exact absurd (hsame.mpr hdel) hnot
  · rcases h.queue with ⟨hdel, _⟩ | ⟨_, hret, hqueue', _⟩
    · exact absurd (hsame.mp hdel) hnot
    · refine ⟨hret, ?_, ?_, ?_⟩
      · rw [hqueue', hqueue, ht.used]
      · rw [hqueue', hqueue, hb]
        rfl
      · rw [h.table, Function.update_self]
        rfl

theorem mqStep_end (hlimit : Config.queueLimit ≤ 2 ^ 16) (hi : MqInv s) (hproper : Proper s event)
    (hstep : mqStep s event = some (s', r)) (hknown : directory s n ≠ none) (hgone : directory s' n = none) :
    ∃ q a c ret, (s.gQueueTable q).mqName = some (a, n) ∧ r = .returned ret ∧ QueueEnd s s' q a c ret := by
  obtain ⟨_, hafter⟩ := mqStep_names hlimit hi hproper hstep
  rw [hafter] at hgone
  have honly : ∀ m x, Function.update (directory s) m x n = none → m = n := by
    intro m x hupdate
    by_contra hne
    rw [Function.update_of_ne (Ne.symm hne)] at hupdate
    exact hknown hupdate
  cases event with
  | mqOpen mqName openFlag attr queue name personal =>
    obtain ⟨⟨s₁, ret⟩, hrun, hr⟩ := Option.map_eq_some_iff.mp hstep
    obtain ⟨rfl, rfl⟩ := Prod.mk.inj hr
    cases mqName with
    | none => exact absurd hgone hknown
    | some m =>
      cases ret with
      | error errno => exact absurd hgone hknown
      | ok p =>
        change Function.update (directory s) m (some (Named.join p (directory s m))) n = none at hgone
        by_cases hm : n = m
        · rw [hm, Function.update_self] at hgone
          cases hgone
        · rw [Function.update_of_ne hm] at hgone
          exact absurd hgone hknown
  | mqClose p =>
    obtain ⟨⟨s₁, ret⟩, hrun, hr⟩ := Option.map_eq_some_iff.mp hstep
    obtain ⟨rfl, rfl⟩ := Prod.mk.inj hr
    obtain ⟨i, hp⟩ := hproper
    have ht := Taken.of_personal (hi.table.entry i) hp
    obtain ⟨⟨a, m⟩, hname⟩ := Option.ne_none_iff_exists'.mp ht.named
    change ((directory s n).bind fun o => o.close p) = none at hgone
    have hclose := congrFun (directory_close hi.table hname hp) n
    rw [hgone] at hclose
    obtain rfl := honly m _ hclose.symm
    rw [Function.update_self, close_of_mem hp] at hclose
    obtain ⟨s₂, ret₂, hrun₂, hout⟩ := mqClose_spec hi hp
    obtain ⟨rfl, rfl⟩ := Prod.mk.inj (Option.some.inj (hrun.symm.trans hrun₂))
    rcases hout with ⟨hnot, _⟩ | ⟨_, a', n', hname', hdel⟩
    · cases hclose.trans (if_neg hnot)
    · obtain ⟨rfl, rfl⟩ := Prod.mk.inj (Option.some.inj (hname.symm.trans hname'))
      obtain ⟨c, hend⟩ := hdel.queueEnd hi.table ht rfl rfl rfl
      exact ⟨i, a, c, ret, hname, rfl, hend⟩
  | mqUnlink mqName =>
    obtain ⟨rfl, rfl⟩ := Prod.mk.inj (Option.some.inj hstep)
    rcases mqUnlink_cases hi mqName with ⟨hsame, _⟩ | ⟨i, a, m, rfl, hname, hout⟩
    · rw [← hafter, hsame] at hgone
      exact absurd hgone hknown
    · change Function.update (directory s) m ((directory s m).bind Named.unlink) n = none at hgone
      obtain rfl := honly m _ hgone
      rw [Function.update_self, directory_of_name hi.table hname, Option.bind_some] at hgone
      rcases hout with ⟨hopen, _⟩ | ⟨_, hdel⟩
      · rw [Named.unlink, if_neg hopen] at hgone
        cases hgone
      · have ht := Taken.of_name (hi.table.entry i) (by rw [hname]; exact Option.some_ne_none _)
        obtain ⟨c, hend⟩ := hdel.queueEnd hi.table ht rfl rfl rfl
        exact ⟨i, a, c, _, hname, rfl, hend⟩
  | ipc event =>
    obtain ⟨⟨Q, r'⟩, hrun, hr⟩ := Option.map_eq_some_iff.mp hstep
    obtain ⟨rfl, rfl⟩ := Prod.mk.inj hr
    exact absurd hgone hknown

theorem stranded_run {later : List (MqEvent × MqResult)} {t : MqState} (hlimit : Config.queueLimit ≤ 2 ^ 16) (hi : MqInv s)
    (h : Stranded s q c) (hrun : Run properStep s later t) (hnot : ∀ x ∈ later, NotDeleted q x.1) : Stranded t q c := by
  have hmem : Run (fun s x t => properStep s x t ∧ NotDeleted q x.1) s later t :=
    run_mono_mem hrun fun s t x hx hstep => ⟨hstep, hnot x hx⟩
  refine (run_invariant (fun s => MqInv s ∧ Stranded s q c) ?_ hmem ⟨hi, h⟩).2
  rintro s x t ⟨hi, h⟩ ⟨⟨hproper, hstep⟩, hx⟩
  exact ⟨mqStep_inv hlimit hi hproper hstep, h.step hlimit hi hproper hx hstep⟩

/-- When the name of a queue goes, the queue of the kernel goes with it exactly if nobody uses it. Otherwise it stays,
and no later call of `mqueue.c` deletes it. -/
theorem mqueue_end {s₀ : MqState} {steps : List (MqEvent × MqResult)} (hlimit : Config.queueLimit ≤ 2 ^ 16)
    (hmax : gTaskMaxNum ≤ osInvalid) (hb : MqBooted s₀) (hrun : Run properStep s₀ steps s)
    (hstep : properStep s (event, r) s') (hknown : directory s n ≠ none) (hgone : directory s' n = none) :
    ∃ q a c ret, (s.gQueueTable q).mqName = some (a, n) ∧ r = .returned ret ∧ QueueEnd s s' q a c ret ∧
      (∀ t call, s.pending t = some (.operate call) → call.queueID = q → (s.kernel.status t).timeout = false →
        ¬Deletable s.toQueueState q) ∧
      (¬Deletable s.toQueueState q → ∀ later t, Run properStep s' later t → (∀ x ∈ later, NotDeleted q x.1) →
        Stranded t q c) := by
  have hi := properRun_inv hlimit hmax hb hrun
  obtain ⟨q, a, c, ret, hname, hret, hend⟩ := mqStep_end hlimit hi hstep.1 hstep.2 hknown hgone
  refine ⟨q, a, c, ret, hname, hret, hend, fun t call hp hq htm hd => ?_, fun hnot later t hlater hx => ?_⟩
  · obtain ⟨log, hand, V, hinv⟩ := hi.table.queues
    exact deletable_away hinv hd hp htm hq
  · exact stranded_run hlimit (mqStep_inv hlimit hi hstep.1 hstep.2) (hend.lost hnot).2 hlater hx

end

/-- A task waits for a message of "q" when the name is unlinked. -/
def readThenUnlink : List MqEvent :=
  [.mqOpen (some [113]) oCreat none (some ⟨4096, atNull⟩) (some ⟨8192, atNull⟩) (some ⟨12288, atNull⟩),
    .ipc (.kernel (.create true (some { pfnTaskEntry := some 7, usTaskPrio := 10, uwStackSize := 64
                                        pcName := some "reader" }) true)),
    .ipc (.kernel .start), .ipc (.readCopy false 0 (some fun _ => 0) (some 64) 0xFFFFFFFF), .ipc (.kernel .pendSV),
    .mqUnlink (some [113])]

/-- The last descriptor is closed while the task waits: the queue of the kernel is lost. -/
theorem mqueue_end_busy : letI := smallConfig
    ∃ steps s s', Run properStep smallMqueue steps s ∧ properStep s (.mqClose 12288, .returned ⟨-1, some .eagain⟩) s' ∧
      ∃ q c, Stranded s' q c ∧ ∀ later t, Run properStep s' later t → (∀ x ∈ later, NotDeleted q x.1) → Stranded t q c := by
  let _ := smallConfig
  have hrun : (readThenUnlink.foldlM checkedStep smallMqueue).bind (fun s => (mqStep s (.mqClose 12288)).map fun r =>
      ((directory s [113]).isSome, (directory r.1 [113]).isNone, properly s (.mqClose 12288),
        match r.2 with | .returned ret => some ret | _ => none)) =
      some (true, true, true, some ⟨-1, some .eagain⟩) := by decide +kernel
  obtain ⟨s, hs, hstep⟩ := Option.bind_eq_some_iff.mp hrun
  obtain ⟨⟨s', r⟩, hstep, hval⟩ := Option.map_eq_some_iff.mp hstep
  simp only [Prod.mk.injEq, Option.isSome_iff_ne_none, Option.isNone_iff_eq_none] at hval
  obtain ⟨hknown, hgone, hproperly, hret⟩ := hval
  obtain ⟨steps, _, hproper⟩ := checkedRun_proper hs
  have hlast : properStep s (.mqClose 12288, r) s' := ⟨properly_proper hproperly, hstep⟩
  obtain ⟨q, a, c, ret, _, rfl, hend, _, hlost⟩ :=
    mqueue_end (by decide) (by decide) smallMqueue_booted hproper hlast hknown hgone
  obtain rfl := Option.some.inj hret
  have hnot : ¬Deletable s.toQueueState q := fun hd => by
    have h := (hend.deleted hd).1
    cases h
  exact ⟨steps, s, s', hproper, hlast, q, c, (hend.lost hnot).2, hlost hnot⟩

end LiteosM.Mqueue
