import LiteosM.Kernel.Machine

/-!
# Waiting and waking

What the IPC objects do to the kernel: the caller joins a wait list, a waiter is taken
off one, a header is set up or given back. Each keeps `Machine`.
-/

namespace LiteosM.Kernel

open LiteosM.Lib.DlList LiteosM.Lib.LinkedList

def KernelEvent.own : KernelEvent → Bool
  | .yield => true
  | .delay _ => true
  | .lock => true
  | .unlock => true
  | _ => false

section

variable {s : Store Node} {V : View Node} {h x : Node}

/-- What a walk along a list meets. -/
def OnList (s : Store Node) (h x : Node) : Prop := x ≠ h ∧ ∃ n, s.next^[n] h = x

theorem OnList.mem_content (hx : OnList s h x) (hf : Forest s V) (hh : V.role h = .head) :
    x ∈ V.content h := by
  obtain ⟨hne, n, hn⟩ := hx
  have hwalk := hf.iterate_mem hh List.mem_cons_self n
  rw [hn] at hwalk
  exact (List.mem_cons.mp hwalk).resolve_left hne

theorem onList_of_content (hf : Forest s V) (hh : V.role h = .head) (hx : V.role x = .member h) :
    OnList s h x := by
  obtain ⟨l₁, l₂, hc⟩ := List.append_of_mem ((hf.mem h x).mpr hx)
  refine ⟨?_, l₁.length + 1, hf.iterate_cell hh l₁ x l₂ hc⟩
  rintro rfl
  rw [hx] at hh
  cases hh

end

variable [Config]

section

variable {k k' : KernelState} {V V' : View Node} {t : Nat} {l : WaitList} {r : Role Node}

theorem Moved.wait_erase (hc : Core k V) (hc' : Core k' V') (hm : Moved t k V k' V')
    (hgone : ∀ w, V'.role (.pendList t) ≠ .member (.wait w)) (l : WaitList) :
    V'.content (.wait l) = (V.content (.wait l)).erase (.pendList t) := by
  have hf := hc.ready.forest
  have hf' := hc'.ready.forest
  have hnot : .pendList t ∉ V'.content (.wait l) := by
    rw [hf'.mem]
    exact hgone l
  have hsub := (hm.wait l).erase (.pendList t)
  rw [List.erase_of_not_mem hnot] at hsub
  apply hsub.eq_of_length_le
  refine (List.subperm_of_subset ((hf.nodup _).erase _) fun x hx => ?_).length_le
  obtain ⟨hne, hx⟩ := (hf.nodup _).mem_erase_iff.mp hx
  obtain ⟨u, _, rfl⟩ := hc.mem_pendList hx (.inr (.inr (.inr ⟨l, rfl⟩)))
  rw [hf.mem] at hx
  rw [hf'.mem, hm.role _ hne (by simp)]
  exact hx

theorem KernelInv.pend_of_wait (hi : KernelInv k V) (ht : t < gTaskMaxNum)
    (hw : V.role (.pendList t) = .member (.wait l)) : (k.gTaskCBArray t).taskStatus.pend = true := by
  have ho := hi.task t ht
  cases hp : (k.gTaskCBArray t).taskStatus.pend with
  | true => rfl
  | false =>
    cases hu : (k.gTaskCBArray t).taskStatus.unused with
    | true =>
      rcases ho.free hu with h | h <;> rw [hw] at h <;> cases h
    | false =>
      by_cases hr : (k.gTaskCBArray t).taskStatus.ready → t = k.gIdleTaskID
      · have h := ho.off hu hr hp
        rw [hw] at h
        cases h
      · obtain ⟨h1, h2⟩ := Classical.not_imp.mp hr
        have h := ho.queued h1 h2
        rw [hw] at h
        cases h

theorem Machine.modify (hm : Machine k V) (ht : t < gTaskMaxNum) {f : LosTaskCB → LosTaskCB}
    (hid : (f (k.gTaskCBArray t)).taskID = (k.gTaskCBArray t).taskID)
    (hp : (f (k.gTaskCBArray t)).priority = (k.gTaskCBArray t).priority)
    (hst : (f (k.gTaskCBArray t)).startTime = (k.gTaskCBArray t).startTime)
    (hs : (f (k.gTaskCBArray t)).taskStatus = (k.gTaskCBArray t).taskStatus)
    (hr : (f (k.gTaskCBArray t)).responseTime = (k.gTaskCBArray t).responseTime) :
    Machine (k.modifyTask t f) V := by
  have hi : KernelInv (k.modifyTask t f) V :=
    hm.inv.modify t f hid hp (hst ▸ (hm.inv.task t ht).startTime) hs hr
  have hmv := Moved.modifyTask t k V f
  refine ⟨hi, hm.settled.of_steady hmv.toSteady fun _ _ => ?_, hm.idle⟩
  by_cases hrt : k.runTask = t
  · rw [hrt, modifyTask_self, hs]
  · rw [hmv.task _ hrt]

theorem Machine.caller_gone (hm : Machine k V) (hcall : k.calling) (l : WaitList) :
    V.role (.pendList k.runTask) ≠ .member (.wait l) := by
  intro hl
  have hcaller := hm.calling_caller hcall
  have hpend := hm.inv.pend_of_wait hcaller.bound hl
  rw [hcaller.clean.pend] at hpend
  cases hpend

theorem Machine.wake (hm : Machine k V) (ht : t < gTaskMaxNum)
    (hpend : (k.gTaskCBArray t).taskStatus.pend) :
    ∃ k' V', osSchedTaskWake k t = some k' ∧ Machine k' V' ∧ Moved t k V k' V' ∧
      (∀ w, V'.role (.pendList t) ≠ .member (.wait w)) ∧
      (∀ l, V'.content (.wait l) = (V.content (.wait l)).erase (.pendList t)) ∧
      (k'.gTaskCBArray t).taskStatus = (if (k.gTaskCBArray t).taskStatus.suspend then
        unpended (k.gTaskCBArray t).taskStatus else readied (k.gTaskCBArray t).taskStatus) ∧
      (k'.gTaskCBArray t).priority = (k.gTaskCBArray t).priority ∧
      (k'.gTaskCBArray t).taskMux = (k.gTaskCBArray t).taskMux := by
  obtain ⟨k', V', heq, hi', hm', hgone, hs', hp', hx'⟩ := osSchedTaskWake_spec hm.inv ht hpend
  refine ⟨k', V', heq, ⟨hi', hm.settled.moved hm' fun hsched hpsv he => ?_, ?_⟩, hm', hgone,
    hm'.wait_erase hm.inv.core hi'.core hgone, hs', hp', hx'⟩
  · have hclean := (hm.settled.run hsched hpsv).2.pend
    rw [he, hpend] at hclean
    cases hclean
  · rw [hm'.gIdleTaskID]
    exact hm.idle

theorem Machine.wait (hm : Machine k V) (hcall : k.calling) (hlock : k.gLosTaskLock = 0)
    (hhead : V.role (.wait l) = .head) (ticks : Nat) :
    ∃ V', V' = V.put (.pendList k.runTask) (.wait l)
        (V.content (.wait l) ++ [.pendList k.runTask]) ∧
      Machine (losSchedule (osSchedTaskWait k l ticks)) V' ∧
      Touched k.runTask k V (osSchedTaskWait k l ticks) V' ∧
      ((osSchedTaskWait k l ticks).gTaskCBArray k.runTask).taskStatus =
        waiting (k.gTaskCBArray k.runTask).taskStatus ticks ∧
      ((osSchedTaskWait k l ticks).gTaskCBArray k.runTask).priority =
        (k.gTaskCBArray k.runTask).priority ∧
      ((osSchedTaskWait k l ticks).gTaskCBArray k.runTask).taskMux =
        (k.gTaskCBArray k.runTask).taskMux := by
  have hcaller := hm.calling_caller hcall
  simp only [KernelState.calling, KernelState.atWork, Bool.and_eq_true] at hcall
  obtain ⟨V', hV, hi', ht', hs', hp', hx'⟩ := osSchedTaskWait_spec hm.inv hcaller.bound hcaller.idle
    hcaller.clean hhead ticks
  refine ⟨V', hV, ⟨hi'.losSchedule, settled_losSchedule ht'.toSteady hcall.1.1 hlock, ?_⟩, ht', hs',
    hp', hx'⟩
  obtain ⟨b, hb⟩ := losSchedule_eq (osSchedTaskWait k l ticks)
  rw [hb]
  exact ht'.gIdleTaskID ▸ hm.idle

omit [Config] in
theorem osSchedTaskWait_switches (hcall : k.calling) (hlock : k.gLosTaskLock = 0) (l : WaitList) (ticks : Nat) :
    (losSchedule (osSchedTaskWait k l ticks)).calling = false := by
  have hsched : (osSchedTaskWait k l ticks).gTaskScheduled = k.gTaskScheduled ∧
      (osSchedTaskWait k l ticks).gLosTaskLock = k.gLosTaskLock := by
    unfold osSchedTaskWait
    dsimp only
    split <;> exact ⟨rfl, rfl⟩
  simp only [KernelState.calling, KernelState.atWork, Bool.and_eq_true] at hcall
  have hreq := losSchedule_request (hsched.1.trans hcall.1.1) (hsched.2.trans hlock)
  unfold KernelState.calling KernelState.atWork
  rw [hreq, Bool.not_true, Bool.and_false, Bool.false_and]

theorem Machine.losSchedule (hm : Machine k V) : Machine (losSchedule k) V := by
  refine ⟨hm.inv.losSchedule, hm.settled.losSchedule, ?_⟩
  obtain ⟨b, hb⟩ := losSchedule_eq k
  rw [hb]
  exact hm.idle

theorem Machine.clearTimeout (hm : Machine k V) (t : Nat) :
    Machine (k.modifyStatus t fun s => { s with timeout := false }) V := by
  have hother : ∀ u, u ≠ t → (k.modifyStatus t fun s => { s with timeout := false }).gTaskCBArray u =
      k.gTaskCBArray u := fun u hu => Function.update_of_ne hu _ _
  have hself := modifyStatus_self k t fun s => { s with timeout := false }
  have hflags : Consistent (k.gTaskCBArray t).taskStatus →
      Consistent { (k.gTaskCBArray t).taskStatus with timeout := false } :=
    fun ⟨h1, h2, h3, h4, h5⟩ => ⟨h1, h2, h3, h4, h5⟩
  refine ⟨⟨hm.inv.core.modifyTask t _, fun u hu => ?_, ?_, hm.inv.run, hm.inv.idle⟩, ⟨?_, ?_, ?_⟩, hm.idle⟩
  · by_cases hut : u = t
    · rw [hut] at hu ⊢
      obtain ⟨h1, h2, h3, h4, h5, h6, h7, h8, h9, h10, h11, h12, h13, h14⟩ := hm.inv.task t hu
      constructor <;> simp only [hself]
      case flags => exact hflags h4
      all_goals assumption
    · exact (hm.inv.task u hu).congr (hother u hut) rfl rfl Iff.rfl Iff.rfl (Nat.le_refl _)
  · by_cases hmt : gTaskMaxNum = t
    · obtain ⟨h1, h2, h3⟩ := hm.inv.spare
      rw [hmt] at h1 h2 h3
      refine ⟨?_, ?_, ?_⟩ <;> rw [hmt, hself]
      · exact h1
      · exact h2
      · exact hflags h3
    · exact hm.inv.spare.congr (hother _ hmt) (Nat.le_refl _)
  · intro hsched hpend
    obtain ⟨hlt, hclean⟩ := hm.settled.run hsched hpend
    refine ⟨hlt, ?_⟩
    by_cases hrt : k.runTask = t
    · obtain ⟨h1, h2, h3, h4, h5, h6⟩ := hclean
      rw [modifyStatus_runTask, hrt, hself]
      rw [hrt] at h1 h2 h3 h4 h5 h6
      exact ⟨h1, h2, h3, h4, h5, h6⟩
    · rw [modifyStatus_runTask, hother _ hrt]
      exact hclean
  · exact hm.settled.boot
  · exact hm.settled.request

theorem Machine.setRole (hm : Machine k V) (hr : ∀ h, r ≠ .member h)
    {s : Store Node} (hf : Forest s (V.setRole (.wait l) r)) :
    Machine { k with links := s } (V.setRole (.wait l) r) := by
  have hrole : ∀ y, y ≠ .wait l → (V.setRole (.wait l) r).role y = V.role y := by
    intro y hy
    rw [View.setRole_role, if_neg hy]
  refine ⟨⟨⟨⟨hf, fun p hp => ?_, hm.inv.core.ready.bit⟩, fun h hs => ?_, fun x h hx => ?_⟩,
    fun u hu => ?_, hm.inv.spare.congr rfl (Nat.le_refl _), hm.inv.run, hm.inv.idle⟩, ⟨hm.settled.run, hm.settled.boot,
      hm.settled.request⟩, hm.idle⟩
  · rw [hrole _ (by simp)]
    exact hm.inv.core.ready.head p hp
  · rw [hrole]
    · exact hm.inv.core.system h hs
    · rcases hs with rfl | rfl | rfl <;> simp
  · rw [View.setRole_role] at hx
    split at hx
    · exact absurd hx (hr h)
    · exact hm.inv.core.fits x h hx
  · exact (hm.inv.task u hu).congr rfl (hrole _ (by simp)) (hrole _ (by simp)) Iff.rfl Iff.rfl
      (Nat.le_refl _)

theorem Machine.relink (hm : Machine k V) {s : Store Node} (hf : Forest s V')
    (hrole : ∀ y, y.isObject = false → V'.role y = V.role y)
    (hfit : ∀ y h, y.isObject = true → V'.role y = .member h → Fits y h) :
    Machine { k with links := s } V' := by
  have hfits : ∀ y h, V'.role y = .member h → Fits y h := by
    intro y h hy
    cases ho : y.isObject with
    | true => exact hfit y h ho hy
    | false =>
      rw [hrole y ho] at hy
      exact hm.inv.core.fits y h hy
  have hqueue : ∀ y p, V'.role y = .member (.gPriQueueList p) ↔ V.role y = .member (.gPriQueueList p) := by
    intro y p
    cases ho : y.isObject with
    | true =>
      have hno : ¬ Fits y (.gPriQueueList p) := by
        cases y <;> simp [Fits, Node.isObject] at ho ⊢
      exact iff_of_false (fun h => hno (hfits y _ h)) fun h => hno (hm.inv.core.fits y _ h)
    | false => rw [hrole y ho]
  refine ⟨⟨⟨⟨hf, fun p hp => ?_, fun p hp => ?_⟩, fun h hs => ?_, hfits⟩,
    fun u hu => ?_, hm.inv.spare.congr rfl (Nat.le_refl _), hm.inv.run, hm.inv.idle⟩,
    ⟨hm.settled.run, hm.settled.boot, hm.settled.request⟩, hm.idle⟩
  · rw [hrole _ rfl]
    exact hm.inv.core.ready.head p hp
  · rw [show ({ k with links := s } : KernelState).gQueueBitmap = k.gQueueBitmap from rfl,
      hm.inv.core.ready.bit p hp]
    apply not_congr
    rw [List.eq_nil_iff_forall_not_mem, List.eq_nil_iff_forall_not_mem]
    refine forall_congr' fun y => not_congr ?_
    rw [hf.mem, hm.inv.core.ready.forest.mem]
    exact (hqueue y p).symm
  · rw [hrole]
    · exact hm.inv.core.system h hs
    · rcases hs with rfl | rfl | rfl <;> rfl
  · exact (hm.inv.task u hu).congr rfl (hrole _ rfl) (hrole _ rfl) Iff.rfl Iff.rfl (Nat.le_refl _)

/-- What an event of the kernel does to the wait of a task: nothing, its timeout expires, or a life of
the control block begins or ends. -/
theorem Quieted.waiter {event : KernelEvent} (hq : Quieted event k V k' V') (hi : KernelInv k V)
    (ht : t < gTaskMaxNum) :
    ((k'.gTaskCBArray t).taskStatus.timeout = (k.gTaskCBArray t).taskStatus.timeout ∧
      (k'.gTaskCBArray t).taskStatus.unused = (k.gTaskCBArray t).taskStatus.unused ∧
      ∀ w, V'.role (.pendList t) = .member (.wait w) ↔ V.role (.pendList t) = .member (.wait w)) ∨
    ((k'.gTaskCBArray t).taskStatus.timeout = true ∧
      (k'.gTaskCBArray t).taskStatus.unused = (k.gTaskCBArray t).taskStatus.unused ∧
      (∃ w, V.role (.pendList t) = .member (.wait w)) ∧
      ∀ w, V'.role (.pendList t) ≠ .member (.wait w)) ∨
    ((k'.gTaskCBArray t).taskStatus.timeout = false ∧
      ((k.gTaskCBArray t).taskStatus.unused = true ∨ (k'.gTaskCBArray t).taskStatus.unused = true) ∧
      ∀ w, V'.role (.pendList t) ≠ .member (.wait w)) := by
  by_cases haff : Affected k k' V V' event t
  · cases event with
    | create a b c => exact .inr (.inr ⟨haff.timeout, .inl haff.unused, haff.gone⟩)
    | createOnly a b c => exact .inr (.inr ⟨haff.timeout, .inl haff.unused, haff.gone⟩)
    | delete u =>
      have hd := haff.2
      exact .inr (.inr ⟨by rw [hd.status]; rfl, .inr (by rw [hd.status]; rfl), hd.gone⟩)
    | priSet a b =>
      obtain ⟨_, hs, hw⟩ := haff
      exact .inl ⟨by rw [hs], by rw [hs], hw⟩
    | tick b =>
      have hout : Expired k k' V' t := haff
      have hlive := hout.unused.trans hout.live.symm
      cases hp : (k.gTaskCBArray t).taskStatus.pend with
      | true =>
        have hon := (hi.task t ht).blocked hp
        refine .inr (.inl ⟨?_, hlive, hon, hout.gone⟩)
        rw [hout.timeout, hp, Bool.or_true]
      | false =>
        refine .inl ⟨?_, hlive, fun w => iff_of_false (hout.gone w) fun h => ?_⟩
        · rw [hout.timeout, hp, Bool.or_false]
        · rw [hi.pend_of_wait ht h] at hp
          cases hp
    | _ => exact haff.elim
  · have hk := hq.kept t ht haff
    exact .inl ⟨hk.timeout, hk.unused, hk.place⟩

theorem Quieted.live {e : KernelEvent} (hq : Quieted e k V k' V') (hdel : ∀ u, e = .delete u → u ≠ t)
    (ht : t < gTaskMaxNum) (hlive : (k.gTaskCBArray t).taskStatus.unused = false) :
    (k'.gTaskCBArray t).taskStatus.unused = false := by
  by_cases haff : Affected k k' V V' e t
  · cases e with
    | create a b c =>
      have h := Created.unused haff
      rw [hlive] at h
      cases h
    | createOnly a b c =>
      have h := Created.unused haff
      rw [hlive] at h
      cases h
    | delete u => exact absurd haff.1.symm (hdel u rfl)
    | priSet a b => exact (congrArg TaskStatus.unused haff.2.1).trans hlive
    | tick b => exact Expired.unused haff
    | _ => exact haff.elim
  · exact (hq.kept t ht haff).unused.trans hlive

theorem Quieted.priority {e : KernelEvent} (hq : Quieted e k V k' V') (hdel : ∀ u, e ≠ .delete u)
    (hset : ∀ u p, e ≠ .priSet u p) (ht : t < gTaskMaxNum)
    (hlive : (k.gTaskCBArray t).taskStatus.unused = false) :
    (k'.gTaskCBArray t).priority = (k.gTaskCBArray t).priority := by
  by_cases haff : Affected k k' V V' e t
  · cases e with
    | create a b c =>
      have h := Created.unused haff
      rw [hlive] at h
      cases h
    | createOnly a b c =>
      have h := Created.unused haff
      rw [hlive] at h
      cases h
    | delete u => exact absurd rfl (hdel u)
    | priSet a b => exact absurd rfl (hset a b)
    | tick b => exact Expired.priority haff
    | _ => exact haff.elim
  · exact (hq.kept t ht haff).priority

end

end LiteosM.Kernel
