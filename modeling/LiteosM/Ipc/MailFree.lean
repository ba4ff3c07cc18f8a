import LiteosM.Ipc.Blocking
import LiteosM.Membox.Geometry

/-!
# Mail that is given back

`OsQueueMailFree` with the memory box that the mail comes from. The block goes back to the
box, and from there to the first task that waits for one.
-/

namespace LiteosM.Ipc

open LiteosM.Kernel LiteosM.Lib.ByteMemory LiteosM.Lib.DlList LiteosM.Lib.Transition
open LiteosM.Membox (FreeWalk Geometry BoxRep losMemboxAlloc losMemboxFree losMemboxInit osCheckBoxMem
  osMemboxNodeAddr osMemboxUserAddr stFreeList uwBlkCnt smallBox)

/-- The queues, and the memory with the boxes. -/
structure MailState where
  queues : QueueState
  mem : Memory

def losCurTaskIDGet (k : KernelState) : Nat := (k.gTaskCBArray k.runTask).taskID

variable [Config]

def osQueueMailFreeBox (s : MailState) (queueID mailPool mailMem : Nat) :
    Option (MailState × QueueErrno) :=
  if Config.queueLimit ≤ queueID then some (s, .queueMailHandleInvalid)
  else if mailPool = 0 then some (s, .queueMailPtrInvalid)
  else
    let freed := losMemboxFree Config.tskLimit s.mem mailPool mailMem
    let s := { s with mem := freed.1 }
    if freed.2 ≠ Membox.losOk then some (s, .queueMailFreeError)
    else if !(s.queues.queue queueID).queueState then some (s, .queueNotCreate)
    else if !losListEmpty s.queues.kernel (.wait (.memList queueID)) then do
      let resumedTask ← osTcbFromPendList (losDlListFirst s.queues.kernel (.wait (.memList queueID)))
      let k ← osSchedTaskWake s.queues.kernel resumedTask
      let mem := losMemboxAlloc s.mem mailPool (losCurTaskIDGet k)
      if mem.2 = 0 then some (⟨{ s.queues with kernel := k }, mem.1⟩, .queueNoMemory)
      else
        some (⟨{ s.queues with
          kernel := losSchedule k
          msg := Function.update s.queues.msg resumedTask (some mem.2) }, mem.1⟩, .losOk)
    else some (s, .losOk)

/-- The lists of the kernel fit together, those of the queues in use among them. -/
def Linked (s : QueueState) : Prop :=
  ∃ V, KernelInv s.kernel V ∧ ∀ q < Config.queueLimit, (s.queue q).queueState = true →
    V.role (.wait (.memList q)) = .head

/-- `LOS_MemboxInit` has set up a box there, and it has been used as a box since. -/
def BoxAt (m : Memory) (pool : Nat) : Prop :=
  ∃ poolSize blkSize blkNum free out, Geometry pool poolSize blkSize blkNum Config.tskLimit ∧
    BoxRep pool blkSize blkNum Config.tskLimit m free out

omit [Config] in
def OnFreeList (m : Memory) (pool box : Nat) : Prop :=
  ∃ l, FreeWalk m (stFreeList m pool) l ∧ osMemboxNodeAddr box ∈ l

/-- Where a block is that was given back: in the box, or with the first task that waits. -/
inductive Placed (s s' : MailState) (queueID pool box : Nat) : Prop
  | back (nobody : losListEmpty s.queues.kernel (.wait (.memList queueID)) = true)
      (same : s'.queues = s.queues) (free : OnFreeList s'.mem pool box)
  | handed (w : Nat) (first : losDlListFirst s.queues.kernel (.wait (.memList queueID)) = .pendList w)
      (waited : OnList s.queues.kernel.links (.wait (.memList queueID)) (.pendList w))
      (woken : (s.queues.kernel.status w).pend = true ∧ (s'.queues.kernel.status w).pend = false ∧
        ¬ OnList s'.queues.kernel.links (.wait (.memList queueID)) (.pendList w))
      (others : ∀ t, t ≠ w → s'.queues.kernel.gTaskCBArray t = s.queues.kernel.gTaskCBArray t)
      (msg : s'.queues.msg = Function.update s.queues.msg w (some box))
      (taken : ¬ OnFreeList s'.mem pool box)

/-- An error changes nothing, and otherwise the block is in one place. -/
def MailFreeAtomic (s : MailState) (queueID pool box : Nat) : Prop :=
  ∃ s' r, osQueueMailFreeBox s queueID pool box = some (s', r) ∧ (r ≠ .losOk → s' = s) ∧
    (r = .losOk → Placed s s' queueID pool box)

section

variable {s : QueueState} {m : Memory} {queueID pool box a poolSize blkSize blkNum : Nat} {l l' free out : List Nat}

omit [Config] in
theorem freeWalk_unique (h : FreeWalk m a l) (h' : FreeWalk m a l') : l = l' := by
  induction l generalizing a l' with
  | nil =>
    cases l' with
    | nil => rfl
    | cons y l' => exact absurd (h'.1.symm.trans h) h'.2.1
  | cons x l ih =>
    cases l' with
    | nil => exact absurd (h.1.symm.trans h') h.2.1
    | cons y l' =>
      obtain rfl : x = y := h.1.symm.trans h'.1
      rw [ih h.2.2 h'.2.2]

theorem Linked.wake (hl : Linked s) (hq : queueID < Config.queueLimit)
    (hused : (s.queue queueID).queueState = true)
    (hne : losListEmpty s.kernel (.wait (.memList queueID)) = false) :
    ∃ w k, losDlListFirst s.kernel (.wait (.memList queueID)) = .pendList w ∧
      OnList s.kernel.links (.wait (.memList queueID)) (.pendList w) ∧
      osSchedTaskWake s.kernel w = some k ∧ (s.kernel.status w).pend = true ∧
      (k.status w).pend = false ∧ ¬ OnList k.links (.wait (.memList queueID)) (.pendList w) ∧
      ∀ t, t ≠ w → k.gTaskCBArray t = s.kernel.gTaskCBArray t := by
  obtain ⟨V, hi, hheads⟩ := hl
  have hhead := hheads queueID hq hused
  have hf := hi.core.ready.forest
  cases hcon : V.content (.wait (.memList queueID)) with
  | nil =>
    have he : losListEmpty s.kernel (.wait (.memList queueID)) = true := (hf.listEmpty_iff hhead).mpr hcon
    rw [hne] at he
    cases he
  | cons x xs =>
    have hx : x ∈ V.content (.wait (.memList queueID)) := by
      rw [hcon]
      exact List.mem_cons_self
    obtain ⟨w, hw, rfl⟩ := hi.core.mem_pendList hx (.inr (.inr (.inr ⟨_, rfl⟩)))
    have hpend := hi.pend_of_wait hw ((hf.mem _ _).mp hx)
    obtain ⟨k, V', heq, hi', hmv, hgone, hstatus, _⟩ := osSchedTaskWake_spec hi hw hpend
    refine ⟨w, k, hf.next_first hhead hcon, onList_of_content hf hhead ((hf.mem _ _).mp hx), heq, hpend, ?_, fun hon => ?_,
      hmv.task⟩
    · unfold KernelState.status
      rw [hstatus]
      split <;> rfl
    · have hhead' : V'.role (.wait (.memList queueID)) = .head := (hmv.role _ (by simp) (by simp)).trans hhead
      exact hgone _ ((hi'.core.ready.forest.mem _ _).mp (hon.mem_content hi'.core.ready.forest hhead'))

omit [Config] in
theorem losMemboxFree_ok_iff {tskLimit : Nat} (hpool : pool ≠ 0) :
    (losMemboxFree tskLimit m pool box).2 = Membox.losOk ↔
      box ≠ 0 ∧ osCheckBoxMem tskLimit m pool (osMemboxNodeAddr box) = Membox.losOk := by
  unfold losMemboxFree
  by_cases hbox : box = 0
  · rw [if_pos (.inr hbox)]
    exact iff_of_false Nat.one_ne_zero fun h => h.1 hbox
  · rw [if_neg (not_or.mpr ⟨hpool, hbox⟩)]
    dsimp only
    by_cases hc : osCheckBoxMem tskLimit m pool (osMemboxNodeAddr box) = Membox.losOk
    · rw [if_neg (fun h => h hc)]
      exact iff_of_true rfl ⟨hbox, hc⟩
    · rw [if_pos hc]
      exact iff_of_false Nat.one_ne_zero fun h => hc h.2

theorem BoxAt.giveBack (hb : BoxAt m pool) (hbox : box < 4294967296) :
    ((losMemboxFree Config.tskLimit m pool box).2 ≠ Membox.losOk ∧
      (losMemboxFree Config.tskLimit m pool box).1 = m) ∨
    ((losMemboxFree Config.tskLimit m pool box).2 = Membox.losOk ∧ box ≠ 0 ∧ ¬ OnFreeList m pool box ∧
      OnFreeList (losMemboxFree Config.tskLimit m pool box).1 pool box ∧ ∀ taskID,
        (losMemboxAlloc (losMemboxFree Config.tskLimit m pool box).1 pool taskID).2 = box ∧
        ¬ OnFreeList (losMemboxAlloc (losMemboxFree Config.tskLimit m pool box).1 pool taskID).1 pool box) := by
  obtain ⟨poolSize, blkSize, blkNum, free, out, g, h⟩ := hb
  obtain ⟨hiff, hsame⟩ := h.losMemboxFree_ok g hbox
  by_cases hok : (losMemboxFree Config.tskLimit m pool box).2 = Membox.losOk
  · right
    obtain ⟨x, hx, rfl⟩ := hiff.mp hok
    have h1 := Membox.losMemboxFree_spec h g hx
    have haddr : osMemboxNodeAddr (x + 4) = x := by
      unfold osMemboxNodeAddr Membox.osMemboxNodeHeadSize
      rw [Lib.Word32.sub32_of_le _ _ (by omega) hbox, Nat.add_sub_cancel]
    have hoff : ∀ {m' l'}, FreeWalk m' (stFreeList m' pool) l' → x ∉ l' → ¬ OnFreeList m' pool (x + 4) := by
      rintro m' l' hw hnot ⟨l, hl, hmem⟩
      rw [haddr, freeWalk_unique hl hw] at hmem
      exact hnot hmem
    have hfit : Membox.Fits pool poolSize blkSize blkNum := ⟨g.nonzero, g.size, g.fits, g.inside⟩
    refine ⟨hok, by omega, hoff h.walk fun hf => ?_, ⟨_, h1.walk, ?_⟩, fun taskID => ?_⟩
    · exact (List.nodup_append.mp (h.nodup g)).2.2 x hf x hx rfl
    · rw [haddr]
      exact List.mem_cons_self
    · rcases Membox.losMemboxAlloc_shape ⟨h1.size, h1.walk, h1.blocks⟩ hfit taskID with
        ⟨hnil, _⟩ | ⟨y, l, hcons, hret, hshape⟩
      · cases hnil
      · obtain ⟨rfl, rfl⟩ := List.cons.inj hcons
        exact ⟨hret, hoff hshape.walk (List.nodup_cons.mp (List.nodup_append.mp (h1.nodup g)).1).1⟩
  · exact .inl ⟨hok, hsame hok⟩

variable {s : MailState}

theorem unlockedRun_linked {s₀ s : LoggedQueue} {events : List QueueEvent} (hmax : gTaskMaxNum ≤ osInvalid)
    (hb : QueueBooted s₀.toQueueState) (hrun : Run unlockedStep s₀ events s) : Linked s.toQueueState := by
  obtain ⟨hand, V, hi⟩ := unlockedRun_inv hmax hb hrun
  exact ⟨V, hi.pool.machine.inv, fun q hq hused => (hi.used q hq hused).heads _ (.inr rfl)⟩

/-- A call does nothing and says so, or places the block, unless the queue does not exist. -/
theorem osQueueMailFree_atomic_iff (hl : Linked s.queues) (hpool : pool = 0 ∨ BoxAt s.mem pool)
    (hbox : box < 4294967296) :
    MailFreeAtomic s queueID pool box ↔
      ¬ (queueID < Config.queueLimit ∧ pool ≠ 0 ∧ box ≠ 0 ∧
        osCheckBoxMem Config.tskLimit s.mem pool (osMemboxNodeAddr box) = Membox.losOk ∧
        (s.queues.queue queueID).queueState = false) := by
  have herror : ∀ r, r ≠ .losOk → osQueueMailFreeBox s queueID pool box = some (s, r) →
      MailFreeAtomic s queueID pool box := fun r hr heq =>
    ⟨s, r, heq, fun _ => rfl, fun h => absurd h hr⟩
  by_cases hq : Config.queueLimit ≤ queueID
  · refine iff_of_true (herror .queueMailHandleInvalid nofun ?_) fun h => absurd h.1 (Nat.not_lt.mpr hq)
    unfold osQueueMailFreeBox
    exact if_pos hq
  by_cases h0 : pool = 0
  · refine iff_of_true (herror .queueMailPtrInvalid nofun ?_) fun h => absurd h0 h.2.1
    unfold osQueueMailFreeBox
    rw [if_neg hq, if_pos h0]
  have hok_iff := @losMemboxFree_ok_iff s.mem pool box Config.tskLimit h0
  have hat := hpool.resolve_left h0
  rcases hat.giveBack hbox with ⟨hfail, hsame⟩ | ⟨hok, hne, hout, hfree, htake⟩
  · refine iff_of_true (herror .queueMailFreeError nofun ?_) fun h => hfail (hok_iff.mpr ⟨h.2.2.1, h.2.2.2.1⟩)
    unfold osQueueMailFreeBox
    rw [if_neg hq, if_neg h0]
    dsimp only
    rw [if_pos hfail, hsame]
  have hfreed : ¬(losMemboxFree Config.tskLimit s.mem pool box).2 ≠ Membox.losOk := not_not.mpr hok
  cases hused : (s.queues.queue queueID).queueState with
  | false =>
    -- the block is in the box already
    have hnone : osQueueMailFreeBox s queueID pool box =
        some (⟨s.queues, (losMemboxFree Config.tskLimit s.mem pool box).1⟩, .queueNotCreate) := by
      unfold osQueueMailFreeBox
      rw [if_neg hq, if_neg h0]
      dsimp only
      rw [if_neg hfreed, hused]
      rfl
    refine iff_of_false ?_ fun h => h ⟨Nat.lt_of_not_le hq, h0, (hok_iff.mp hok).1, (hok_iff.mp hok).2, rfl⟩
    rintro ⟨s', r, heq, hun, _⟩
    rw [hnone] at heq
    injection heq with heq
    obtain ⟨hs', hr⟩ := Prod.mk.inj heq
    have h := hun (by rw [← hr]; nofun)
    rw [← hs'] at h
    apply hout
    rw [← congrArg MailState.mem h]
    exact hfree
  | true =>
    refine iff_of_true ?_ fun h => by cases h.2.2.2.2
    cases hempty : losListEmpty s.queues.kernel (.wait (.memList queueID)) with
    | true =>
      have hback : osQueueMailFreeBox s queueID pool box =
          some (⟨s.queues, (losMemboxFree Config.tskLimit s.mem pool box).1⟩, .losOk) := by
        unfold osQueueMailFreeBox
        rw [if_neg hq, if_neg h0]
        dsimp only
        rw [if_neg hfreed, hused, hempty]
        rfl
      exact ⟨_, _, hback, fun h => absurd rfl h, fun _ => .back hempty rfl hfree⟩
    | false =>
      obtain ⟨w, k, hfirst, hon, hwake, hp, hp', hgone, hothers⟩ := hl.wake (Nat.lt_of_not_le hq) hused hempty
      obtain ⟨hret, htaken⟩ := htake (losCurTaskIDGet k)
      have hhanded : osQueueMailFreeBox s queueID pool box = some (⟨{ s.queues with
          kernel := losSchedule k
          msg := Function.update s.queues.msg w (some box) }, (losMemboxAlloc
            (losMemboxFree Config.tskLimit s.mem pool box).1 pool (losCurTaskIDGet k)).1⟩, .losOk) := by
        unfold osQueueMailFreeBox
        rw [if_neg hq, if_neg h0]
        dsimp only
        rw [if_neg hfreed, hused, hempty, hfirst]
        simp only [Bool.not_true, Bool.not_false, Bool.false_eq_true, if_false, if_true, osTcbFromPendList,
          Option.bind_eq_bind, Option.bind_some, hwake]
        rw [hret, if_neg hne]
      refine ⟨_, _, hhanded, fun h => absurd rfl h, fun _ => ?_⟩
      obtain ⟨b, hb⟩ := losSchedule_eq k
      refine .handed w hfirst hon ?_ ?_ rfl htaken
      · show _ ∧ ((losSchedule k).status w).pend = false ∧ ¬ OnList (losSchedule k).links _ _
        rw [hb]
        exact ⟨hp, hp', hgone⟩
      · show ∀ t, t ≠ w → (losSchedule k).gTaskCBArray t = _
        rw [hb]
        exact hothers

end

/-- The small box with its first block handed out. -/
def oneOut : Memory := (losMemboxAlloc Membox.smallBox 4096 1).1

omit [Config] in
theorem oneOut_box : @BoxAt smallConfig oneOut 4096 := by
  obtain ⟨bs, n, hbs, _, hpool, _, hn, hfits, hrep⟩ := Membox.losMemboxInit_rep 2 (by decide)
    (show (losMemboxInit (fun _ => 0) 4096 64 12).2 = Membox.losOk by decide +kernel)
  obtain rfl : bs = 16 := hbs.trans (by decide +kernel)
  have g : Geometry 4096 64 16 n 2 := by
    refine ⟨hpool, by decide, hn, hfits, by decide, by decide, fun x hx taskID ht => ?_⟩
    obtain ⟨i, hi, rfl⟩ := Membox.mem_nodes.mp hx
    rw [Membox.magic_or taskID (by omega)]
    omega
  rcases Membox.losMemboxAlloc_spec hrep g 1 (by decide) with ⟨hnil, _⟩ | ⟨x, l, _, _, h⟩
  · have hlen := Membox.nodes_length 4096 16 n
    rw [hnil, List.length_nil] at hlen
    omega
  · exact ⟨64, 16, n, l, [x], g, h⟩

omit [Config] in
/-- A task that waits for mail is handed the block. -/
theorem osQueueMailFree_atomic_waiting :
    letI := smallConfig
    ∃ s, Run unlockedStep smallLogged (queueAndTask ++ [waitForMail]) s ∧
      MailFreeAtomic ⟨s.toQueueState, oneOut⟩ 0 4096 4116 := by
  let := smallConfig
  have hrun : (queueAndTask.foldlM loggedStep smallLogged).bind (fun s =>
      (loggedStep s waitForMail).map fun s' => (s.kernel.gLosTaskLock, (s'.queue 0).queueState)) =
      some (0, true) := by decide +kernel
  obtain ⟨s, hs, hrun⟩ := Option.bind_eq_some_iff.mp hrun
  obtain ⟨s', hs', hval⟩ := Option.map_eq_some_iff.mp hrun
  obtain ⟨hlock, hused⟩ := Prod.mk.inj hval
  have hun : Run unlockedStep smallLogged queueAndTask s := by
    refine run_mono_mem (run_of_foldlM hs) fun s t a ha h => ⟨?_, h⟩
    rintro ⟨_, _, rfl, _⟩
    simp [queueAndTask, createQueue] at ha
  have hfree : ¬ MailInLock s.toQueueState waitForMail := by
    rintro ⟨_, _, _, _, _, _, h⟩
    exact h hlock
  have hun' := run_append hun (run_single ⟨hfree, hs'⟩)
  refine ⟨s', hun', (osQueueMailFree_atomic_iff (unlockedRun_linked (by decide) smallQueue_booted hun')
    (.inr oneOut_box) (by decide)).mpr fun h => ?_⟩
  cases hused.symm.trans h.2.2.2.2

omit [Config] in
/-- For a queue that does not exist the block is released all the same. -/
theorem osQueueMailFree_released :
    letI := smallConfig
    ∃ s' : MailState, Linked smallQueue ∧ BoxAt oneOut 4096 ∧
      osQueueMailFreeBox ⟨smallQueue, oneOut⟩ 0 4096 4116 = some (s', .queueNotCreate) ∧
      uwBlkCnt oneOut 4096 = 1 ∧ uwBlkCnt s'.mem 4096 = 0 ∧
      ¬ MailFreeAtomic ⟨smallQueue, oneOut⟩ 0 4096 4116 := by
  let := smallConfig
  have hval : (osQueueMailFreeBox ⟨smallQueue, oneOut⟩ 0 4096 4116).map (fun r => (uwBlkCnt r.1.mem 4096, r.2)) =
      some (0, .queueNotCreate) := by decide +kernel
  have hone : uwBlkCnt oneOut 4096 = 1 := by decide +kernel
  obtain ⟨⟨s', r⟩, heq, hval⟩ := Option.map_eq_some_iff.mp hval
  obtain ⟨hcnt, rfl⟩ := Prod.mk.inj hval
  have hl : Linked smallQueue := @unlockedRun_linked _ smallLogged smallLogged [] (by decide)
    smallQueue_booted .nil
  refine ⟨s', hl, oneOut_box, heq, hone, hcnt, ?_⟩
  rintro ⟨s'', r, heq', hun, _⟩
  obtain ⟨rfl, rfl⟩ := Prod.mk.inj (Option.some.inj (heq.symm.trans heq'))
  rw [hun nofun] at hcnt
  cases hone.symm.trans hcnt

end LiteosM.Ipc
