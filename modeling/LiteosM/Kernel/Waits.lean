import LiteosM.Kernel.ObjectPool
import Mathlib.Data.Finset.Card
import Mathlib.Data.Finset.Range

/-!
# Tasks inside a waiting call

An object keeps the tasks that wait for it on a wait list, in the order in which they came. A
task that has left the list and has not run since was granted what it waits for, or timed out.
-/

namespace LiteosM.Kernel

open LiteosM.Lib.DlList

/-- `pending` is the list of the call that task `t` is inside, switched away. -/
structure WaitOk (k : KernelState) (V : View Node) (pending : Option WaitList) (granted : Bool) (t : Nat) :
    Prop where
  live : pending.isSome → (k.gTaskCBArray t).taskStatus.unused = false
  waiting : ∀ l, V.role (.pendList t) = .member (.wait l) →
    pending = some l ∧ (k.gTaskCBArray t).taskStatus.timeout = false ∧ granted = false
  woken : pending.isSome → (∀ l, V.role (.pendList t) ≠ .member (.wait l)) →
    (k.gTaskCBArray t).taskStatus.timeout = !granted
  calm : pending = none → (k.gTaskCBArray t).taskStatus.timeout = false

variable [Config]

/-- `since` is when a task blocked last. -/
structure Waits (k : KernelState) (V : View Node) (pending : Nat → Option WaitList) (granted : Nat → Bool)
    (since : Nat → Nat) (clock : Nat) : Prop where
  machine : Machine k V
  bound : ∀ t, (pending t).isSome → t < gTaskMaxNum
  task : ∀ t < gTaskMaxNum, WaitOk k V (pending t) (granted t) t
  order : ∀ l, (V.content (.wait l)).Pairwise fun x y =>
    ∀ t u, x = .pendList t → y = .pendList u → since t < since u
  past : ∀ t l, V.role (.pendList t) = .member (.wait l) → since t < clock

section

variable {k k' : KernelState} {V V' : View Node} {pending : Nat → Option WaitList} {p : Option WaitList}
  {granted : Nat → Bool} {g : Bool} {since : Nat → Nat} {clock clock' t w : Nat} {l : WaitList}

omit [Config] in
theorem WaitOk.same (h : WaitOk k V p g t)
    (hunused : (k'.gTaskCBArray t).taskStatus.unused = (k.gTaskCBArray t).taskStatus.unused)
    (htime : (k'.gTaskCBArray t).taskStatus.timeout = (k.gTaskCBArray t).taskStatus.timeout)
    (hplace : ∀ l, V'.role (.pendList t) = .member (.wait l) ↔ V.role (.pendList t) = .member (.wait l)) :
    WaitOk k' V' p g t := by
  refine ⟨fun hp => ?_, fun l hl => ?_, fun hp hgone => ?_, fun hp => ?_⟩
  · rw [hunused]
    exact h.live hp
  · rw [htime]
    exact h.waiting l ((hplace l).mp hl)
  · rw [htime]
    exact h.woken hp fun l hl => hgone l ((hplace l).mpr hl)
  · rw [htime]
    exact h.calm hp

omit [Config] in
theorem WaitOk.idle (htime : (k.gTaskCBArray t).taskStatus.timeout = false)
    (hgone : ∀ l, V.role (.pendList t) ≠ .member (.wait l)) : WaitOk k V none g t :=
  ⟨fun hp => absurd hp Bool.false_ne_true, fun l hl => absurd hl (hgone l),
    fun hp => absurd hp Bool.false_ne_true, fun _ => htime⟩

theorem Waits.quiet (h : Waits k V pending granted since clock) (hm : Machine k' V')
    (hstatus : ∀ u, (k'.gTaskCBArray u).taskStatus = (k.gTaskCBArray u).taskStatus)
    (hplace : ∀ u, V'.role (.pendList u) = V.role (.pendList u))
    (hcontent : ∀ l, V'.content (.wait l) = V.content (.wait l)) (hclock : clock ≤ clock') :
    Waits k' V' pending granted since clock' := by
  refine ⟨hm, h.bound, fun u hu => ?_, fun l => ?_, fun u l hl => ?_⟩
  · exact (h.task u hu).same (by rw [hstatus]) (by rw [hstatus]) fun l => by rw [hplace]
  · rw [hcontent]
    exact h.order l
  · rw [hplace] at hl
    exact Nat.lt_of_lt_of_le (h.past u l hl) hclock

theorem Waits.relinked (h : Waits k V pending granted since clock) (hm : Machine k' V')
    (hrel : Relinked k V k' V') : Waits k' V' pending granted since (clock + 1) := by
  refine h.quiet hm (fun u => ?_) hrel.place hrel.content (Nat.le_succ _)
  rw [hrel.same]

theorem Waits.setTaskSem (h : Waits k V pending granted since clock) (ht : t < gTaskMaxNum)
    (x : Option Nat) :
    Waits (k.modifyTask t fun cb => { cb with taskSem := x }) V pending granted since clock := by
  refine h.quiet (h.machine.modify ht rfl rfl rfl rfl rfl) (fun u => ?_) (fun _ => rfl) (fun _ => rfl) (Nat.le_refl _)
  by_cases hut : u = t
  · rw [hut, modifyTask_self]
  · rw [(Moved.modifyTask t k V _).task u hut]

theorem Waits.block (h : Waits k V pending granted since clock) (hcall : k.calling)
    (hfree : pending k.runTask = none) (hlock : k.gLosTaskLock = 0) (hhead : V.role (.wait l) = .head)
    (ticks : Nat) :
    ∃ V', Waits (losSchedule (osSchedTaskWait k l ticks)) V' (Function.update pending k.runTask (some l))
        (Function.update granted k.runTask false) (Function.update since k.runTask clock) (clock + 1) ∧
      (∀ y, (∀ u, y ≠ .pendList u) → (∀ u, y ≠ .sortLinkNode u) → V'.role y = V.role y) ∧
      ∀ l', l' ≠ l → V'.content (.wait l') = V.content (.wait l') := by
  have hcaller := h.machine.calling_caller hcall
  obtain ⟨V', hV, hm', ht, hs, _, _⟩ := h.machine.wait hcall hlock hhead ticks
  obtain ⟨b, hb⟩ := losSchedule_eq (osSchedTaskWait k l ticks)
  have hcb : (losSchedule (osSchedTaskWait k l ticks)).gTaskCBArray =
      (osSchedTaskWait k l ticks).gTaskCBArray := by rw [hb]
  generalize losSchedule (osSchedTaskWait k l ticks) = k' at hm' hcb ⊢
  have hjoin : V'.role (.pendList k.runTask) = .member (.wait l) := by
    rw [hV, View.put_role, if_pos rfl]
  have hother : ∀ u, u ≠ k.runTask → V'.role (.pendList u) = V.role (.pendList u) := fun u hu =>
    ht.role _ (by simpa using hu) (by simp)
  have hne : ∀ l' u, .pendList u ∈ V.content (.wait l') → u ≠ k.runTask := by
    rintro l' u hu rfl
    exact h.machine.caller_gone hcall l' ((h.machine.inv.core.ready.forest.mem _ _).mp hu)
  refine ⟨V', ⟨hm', fun u hu => ?_, fun u hu => ?_, fun l' => ?_, fun u l' hl => ?_⟩,
    fun y hp hy => ht.role y (hp _) (hy _), fun l' hl => ?_⟩
  · by_cases hur : u = k.runTask
    · rw [hur]
      exact hcaller.bound
    · rw [Function.update_of_ne hur] at hu
      exact h.bound u hu
  · by_cases hur : u = k.runTask
    · rw [hur, Function.update_self, Function.update_self]
      refine ⟨fun _ => ?_, fun l' hl => ⟨?_, ?_, rfl⟩, fun _ hgone => absurd hjoin (hgone l), fun hn => ?_⟩
      · rw [hcb, hs]
        exact hcaller.clean.unused
      · rw [hjoin] at hl
        injection hl with hl
        injection hl with hl
        rw [hl]
      · rw [hcb, hs]
        exact (h.task _ hcaller.bound).calm hfree
      · cases hn
    · rw [Function.update_of_ne hur, Function.update_of_ne hur]
      refine (h.task u hu).same ?_ ?_ fun l' => ?_
      · rw [hcb, ht.task u hur]
      · rw [hcb, ht.task u hur]
      · rw [hother u hur]
  · have hold : (V.content (.wait l')).Pairwise fun x y => ∀ t u, x = .pendList t → y = .pendList u →
        Function.update since k.runTask clock t < Function.update since k.runTask clock u := by
      refine (h.order l').imp_of_mem fun hx hy hlt t u ht hu => ?_
      rw [ht] at hx
      rw [hu] at hy
      rw [Function.update_of_ne (hne _ t hx), Function.update_of_ne (hne _ u hy)]
      exact hlt t u ht hu
    rw [hV, View.put_content]
    split
    · next hl =>
      rw [hl] at hold
      refine List.pairwise_append.mpr ⟨hold, List.pairwise_singleton _ _, fun x hx y hy t u ht hu => ?_⟩
      rw [List.mem_singleton] at hy
      rw [hy] at hu
      injection hu with hu
      rw [ht] at hx
      rw [← hu, Function.update_self, Function.update_of_ne (hne _ t hx)]
      exact h.past t _ ((h.machine.inv.core.ready.forest.mem _ _).mp hx)
    · exact hold
  · by_cases hur : u = k.runTask
    · rw [hur, Function.update_self]
      exact Nat.lt_succ_self _
    · rw [Function.update_of_ne hur]
      rw [hother u hur] at hl
      exact Nat.lt_succ_of_lt (h.past u l' hl)
  · rw [hV, View.put_content, if_neg (by simpa using hl)]

theorem Waits.first (h : Waits k V pending granted since clock) (hhead : V.role (.wait l) = .head)
    (hne : losListEmpty k (.wait l) = false) :
    ∃ w < gTaskMaxNum, losDlListFirst k (.wait l) = .pendList w ∧
      V.role (.pendList w) = .member (.wait l) ∧
      ∀ t, V.role (.pendList t) = .member (.wait l) → t ≠ w → since w < since t := by
  have hf := h.machine.inv.core.ready.forest
  obtain ⟨x, xs, hcon⟩ : ∃ x xs, V.content (.wait l) = x :: xs := by
    cases hc : V.content (.wait l) with
    | nil =>
      have he := (hf.listEmpty_iff hhead).mpr hc
      rw [show listEmpty k.links (.wait l) = losListEmpty k (.wait l) from rfl, hne] at he
      cases he
    | cons x xs => exact ⟨x, xs, rfl⟩
  have hx : x ∈ V.content (.wait l) := by
    rw [hcon]
    exact List.mem_cons_self
  obtain ⟨w, hw, rfl⟩ := h.machine.inv.core.mem_pendList hx (.inr (.inr (.inr ⟨_, rfl⟩)))
  have horder := h.order l
  rw [hcon] at horder
  refine ⟨w, hw, hf.next_first hhead hcon, (hf.mem _ _).mp hx, fun t ht hne => ?_⟩
  have hmem := (hf.mem _ _).mpr ht
  rw [hcon, List.mem_cons] at hmem
  rcases hmem with he | hmem
  · injection he with he
    exact absurd he hne
  · exact (List.pairwise_cons.mp horder).1 _ hmem w t rfl rfl

theorem Waits.wakeTask (h : Waits k V pending granted since clock) (hw : w < gTaskMaxNum)
    (hwait : V.role (.pendList w) = .member (.wait l)) :
    ∃ k' V', osSchedTaskWake k w = some k' ∧
      Waits k' V' pending (fun t => granted t || decide (t = w)) since (clock + 1) ∧
      (∀ y, (∀ u, y ≠ .pendList u) → (∀ u, y ≠ .sortLinkNode u) → V'.role y = V.role y) ∧
      (∀ l, V'.content (.wait l) = (V.content (.wait l)).erase (.pendList w)) ∧
      ∀ t, ((k.status t).pend && !(k'.status t).pend) = decide (t = w) := by
  have hpend := h.machine.inv.pend_of_wait hw hwait
  obtain ⟨k', V', heq, hm', hmv, hgone, hcontent, hs, _, _⟩ := h.machine.wake hw hpend
  have hstatus : (k'.gTaskCBArray w).taskStatus.unused = (k.gTaskCBArray w).taskStatus.unused ∧
      (k'.gTaskCBArray w).taskStatus.timeout = (k.gTaskCBArray w).taskStatus.timeout ∧
      (k'.gTaskCBArray w).taskStatus.pend = false := by
    rw [hs]
    split <;> exact ⟨rfl, rfl, rfl⟩
  have hother : ∀ u, u ≠ w → k'.gTaskCBArray u = k.gTaskCBArray u := fun u hu => hmv.task u hu
  have hrole : ∀ u, u ≠ w → V'.role (.pendList u) = V.role (.pendList u) := fun u hu =>
    hmv.role _ (by simpa using hu) (by simp)
  refine ⟨k', V', heq, ⟨hm', h.bound, fun u hu => ?_, fun l => ?_, fun u l hl => ?_⟩,
    fun y hp hy => hmv.role y (hp _) (hy _), hcontent, fun t => ?_⟩
  · by_cases huw : u = w
    · rw [huw]
      obtain ⟨hp, htime, _⟩ := (h.task w hw).waiting l hwait
      refine ⟨fun hsome => ?_, fun l hl => absurd hl (hgone l), fun _ _ => ?_, fun hn => ?_⟩
      · rw [hstatus.1]
        exact (h.task w hw).live hsome
      · rw [hstatus.2.1, htime, decide_eq_true rfl, Bool.or_true]
        rfl
      · rw [hp] at hn
        cases hn
    · rw [decide_eq_false huw, Bool.or_false]
      refine (h.task u hu).same ?_ ?_ fun l => ?_
      · rw [hother u huw]
      · rw [hother u huw]
      · rw [hrole u huw]
  · rw [hcontent]
    exact (h.order l).sublist List.erase_sublist
  · have huw : u ≠ w := by
      rintro rfl
      exact hgone l hl
    rw [hrole u huw] at hl
    exact Nat.lt_succ_of_lt (h.past u l hl)
  · unfold KernelState.status
    by_cases htw : t = w
    · rw [htw, hstatus.2.2, hpend, decide_eq_true rfl]
      rfl
    · rw [hother t htw, decide_eq_false htw, Bool.and_not_self]

theorem Waits.schedule (h : Waits k V pending granted since clock) :
    Waits (losSchedule k) V pending granted since clock := by
  obtain ⟨b, hb⟩ := losSchedule_eq k
  have hm := h.machine.losSchedule
  rw [hb] at hm ⊢
  exact h.quiet hm (fun _ => rfl) (fun _ => rfl) (fun _ => rfl) (Nat.le_refl _)

theorem Waits.wake (h : Waits k V pending granted since clock) (hw : w < gTaskMaxNum)
    (hwait : V.role (.pendList w) = .member (.wait l)) :
    ∃ k' V', osSchedTaskWake k w = some k' ∧
      Waits (losSchedule k') V' pending (fun t => granted t || decide (t = w)) since (clock + 1) ∧
      (∀ y, (∀ u, y ≠ .pendList u) → (∀ u, y ≠ .sortLinkNode u) → V'.role y = V.role y) ∧
      (∀ l, V'.content (.wait l) = (V.content (.wait l)).erase (.pendList w)) ∧
      ∀ t, ((k.status t).pend && !((losSchedule k').status t).pend) = decide (t = w) := by
  obtain ⟨k', V', heq, hw', hrole, hcontent, hwoken⟩ := h.wakeTask hw hwait
  refine ⟨k', V', heq, hw'.schedule, hrole, hcontent, fun t => ?_⟩
  obtain ⟨b, hb⟩ := losSchedule_eq k'
  rw [← hwoken, hb]
  rfl

/-- Neither a wait nor a wake has to do with timeouts that are still to be read. -/
theorem osSchedTaskWake_timeout (hm : Machine k V) (hw : w < gTaskMaxNum)
    (hpend : (k.gTaskCBArray w).taskStatus.pend) (heq : osSchedTaskWake k w = some k') (t : Nat) :
    (k'.status t).timeout = (k.status t).timeout := by
  obtain ⟨k₁, V', heq', _, hmv, _, _, hs, _⟩ := hm.wake hw hpend
  rw [heq, Option.some.injEq] at heq'
  unfold KernelState.status
  rw [heq']
  by_cases htw : t = w
  · rw [htw, hs]
    split <;> rfl
  · rw [hmv.task t htw]

theorem osSchedTaskWait_timeout (hm : Machine k V) (hcall : k.calling) (hlock : k.gLosTaskLock = 0)
    (hhead : V.role (.wait l) = .head) (ticks t : Nat) :
    ((losSchedule (osSchedTaskWait k l ticks)).status t).timeout = (k.status t).timeout := by
  obtain ⟨V', _, _, ht, hs, _⟩ := hm.wait hcall hlock hhead ticks
  obtain ⟨b, hb⟩ := losSchedule_eq (osSchedTaskWait k l ticks)
  unfold KernelState.status
  rw [hb]
  show ((osSchedTaskWait k l ticks).gTaskCBArray t).taskStatus.timeout = _
  by_cases htr : t = k.runTask
  · rw [htr, hs]
    rfl
  · rw [ht.task t htr]

theorem Waits.resume (h : Waits k V pending granted since clock) (hcall : k.calling) :
    Waits (if (k.status k.runTask).timeout then
        k.modifyStatus k.runTask fun s => { s with timeout := false } else k) V
      (Function.update pending k.runTask none) granted since (clock + 1) := by
  have hcaller := h.machine.calling_caller hcall
  have hoff := h.machine.caller_gone hcall
  generalize hk : (if (k.status k.runTask).timeout then
    k.modifyStatus k.runTask fun s => { s with timeout := false } else k) = k'
  have hm' : Machine k' V := by
    rw [← hk]
    split
    · exact h.machine.clearTimeout _
    · exact h.machine
  have htime : (k'.gTaskCBArray k.runTask).taskStatus.timeout = false := by
    rw [← hk]
    split
    · rw [modifyStatus_self]
    · next ht => simpa [KernelState.status] using ht
  have hother : ∀ u, u ≠ k.runTask → k'.gTaskCBArray u = k.gTaskCBArray u := by
    intro u hu
    rw [← hk]
    split
    · exact Function.update_of_ne hu _ _
    · rfl
  refine ⟨hm', fun u hu => ?_, fun u hu => ?_, h.order, fun u l hl => Nat.lt_succ_of_lt (h.past u l hl)⟩
  · by_cases hur : u = k.runTask
    · rw [hur]
      exact hcaller.bound
    · rw [Function.update_of_ne hur] at hu
      exact h.bound u hu
  · by_cases hur : u = k.runTask
    · rw [hur, Function.update_self]
      exact WaitOk.idle htime hoff
    · rw [Function.update_of_ne hur]
      exact (h.task u hu).same (by rw [hother u hur]) (by rw [hother u hur]) fun l => Iff.rfl

theorem Waits.kernel (h : Waits k V pending granted since clock) {event : KernelEvent}
    (hstep : kernelStep k event = some k') :
    ∃ V', Waits k' V' (fun t => if (k'.status t).unused then none else pending t) granted since
        (clock + 1) ∧ Quieted event k V k' V' := by
  obtain ⟨V', hm', hq, _⟩ := kernelStep_spec h.machine hstep
  refine ⟨V', ⟨hm', fun u hu => ?_, fun u hu => ?_, fun l => (h.order l).sublist (hq.wait l),
    fun u l hl => Nat.lt_succ_of_lt (h.past u l ?_)⟩, hq⟩
  · split at hu
    · cases hu
    · exact h.bound u hu
  · have ht := h.task u hu
    have hkeep : (k'.gTaskCBArray u).taskStatus.unused = (k.gTaskCBArray u).taskStatus.unused →
        (if (k'.status u).unused then none else pending u) = pending u := by
      intro hun
      split
      · next hgone =>
        cases hp : pending u with
        | none => rfl
        | some l =>
          have hlive := ht.live (by rw [hp]; rfl)
          rw [← hun, show (k'.gTaskCBArray u).taskStatus.unused = true from hgone] at hlive
          cases hlive
      · rfl
    rcases hq.waiter h.machine.inv hu with ⟨h1, h2, h3⟩ | ⟨h1, h2, ⟨l, h3⟩, h4⟩ | ⟨h1, h2, h3⟩
    · rw [hkeep h2]
      exact ht.same h2 h1 h3
    · -- a waiter times out
      obtain ⟨hp, _, hg⟩ := ht.waiting l h3
      rw [hkeep h2]
      refine ⟨fun hsome => h2.trans (ht.live hsome), fun l' hl => absurd hl (h4 l'), fun _ _ => ?_,
        fun hn => ?_⟩
      · rw [h1, hg]
        rfl
      · rw [hp] at hn
        cases hn
    · have hnone : (if (k'.status u).unused then none else pending u) = none := by
        rcases h2 with h2 | h2
        · cases hp : pending u with
          | none => split <;> rfl
          | some l =>
            have hlive := ht.live (by rw [hp]; rfl)
            rw [h2] at hlive
            cases hlive
        · exact if_pos h2
      rw [hnone]
      exact WaitOk.idle h1 h3
  · exact (h.machine.inv.core.ready.forest.mem _ _).mp
      ((hq.wait l).subset ((hm'.inv.core.ready.forest.mem _ _).mpr hl))

def woken (k : KernelState) (t : Nat) : Bool := !(k.status t).pend && !(k.status t).timeout

/-- How many tasks have been granted what they waited for on list `l` and have not run since. -/
def grants (pending : Nat → Option WaitList) (granted : Nat → Bool) (l : WaitList) : Nat :=
  ((Finset.range gTaskMaxNum).filter fun t => granted t = true ∧ pending t = some l).card

theorem Waits.granted_eq (h : Waits k V pending granted since clock) (hp : (pending t).isSome) :
    granted t = woken k t := by
  have ht := h.bound t hp
  have hok := h.task t ht
  unfold woken KernelState.status
  by_cases hon : ∃ l, V.role (.pendList t) = .member (.wait l)
  · obtain ⟨l, hl⟩ := hon
    rw [(hok.waiting l hl).2.2, h.machine.inv.pend_of_wait ht hl]
    rfl
  · have hoff : ∀ l, V.role (.pendList t) ≠ .member (.wait l) := fun l hl => hon ⟨l, hl⟩
    cases hpend : (k.gTaskCBArray t).taskStatus.pend with
    | true => exact absurd ((h.machine.inv.task t ht).blocked hpend) hon
    | false => rw [hok.woken hp hoff, Bool.not_not, Bool.not_false, Bool.true_and]

theorem Waits.by_status (h : Waits k V pending granted since clock) :
    Waits k V pending (woken k) since clock := by
  refine ⟨h.machine, h.bound, fun t ht => ?_, h.order, h.past⟩
  have hok := h.task t ht
  cases hp : pending t with
  | none =>
    refine WaitOk.idle (hok.calm hp) fun l hl => ?_
    have hw := (hok.waiting l hl).1
    rw [hp] at hw
    cases hw
  | some l =>
    rw [← hp, ← h.granted_eq (by rw [hp]; rfl)]
    exact hok

theorem grants_congr {pending' : Nat → Option WaitList} {granted' : Nat → Bool}
    (h : ∀ t < gTaskMaxNum, (granted t = true ∧ pending t = some l) ↔
      (granted' t = true ∧ pending' t = some l)) :
    grants pending granted l = grants pending' granted' l :=
  congrArg Finset.card (Finset.filter_congr fun t ht => h t (Finset.mem_range.mp ht))

theorem Waits.grants_eq (h : Waits k V pending granted since clock) (l : WaitList) :
    grants pending granted l = grants pending (woken k) l := by
  refine grants_congr fun t _ => and_congr_left fun hp => ?_
  rw [h.granted_eq (by rw [hp]; rfl)]

theorem grants_zero (h : ∀ t < gTaskMaxNum, granted t = true → pending t ≠ some l) :
    grants pending granted l = 0 := by
  refine Finset.card_eq_zero.mpr (Finset.filter_eq_empty_iff.mpr fun t ht hg => ?_)
  exact h t (Finset.mem_range.mp ht) hg.1 hg.2

theorem grants_pos (ht : t < gTaskMaxNum) (hg : granted t = true) (hp : pending t = some l) :
    0 < grants pending granted l :=
  Finset.card_pos.mpr ⟨t, Finset.mem_filter.mpr ⟨Finset.mem_range.mpr ht, hg, hp⟩⟩

theorem grants_wake {l' : WaitList} (hw : w < gTaskMaxNum) (hp : pending w = some l')
    (hg : granted w = false) :
    grants pending (fun t => granted t || decide (t = w)) l =
      grants pending granted l + if l = l' then 1 else 0 := by
  by_cases hl : l = l'
  · rw [if_pos hl, hl]
    unfold grants
    rw [← Finset.card_insert_of_notMem (a := w)]
    · congr 1
      ext t
      simp only [Finset.mem_filter, Finset.mem_range, Finset.mem_insert, Bool.or_eq_true,
        decide_eq_true_eq]
      constructor
      · rintro ⟨ht, h | h, hpt⟩
        · exact .inr ⟨ht, h, hpt⟩
        · exact .inl h
      · rintro (rfl | ⟨ht, h, hpt⟩)
        · exact ⟨hw, .inr rfl, hp⟩
        · exact ⟨ht, .inl h, hpt⟩
    · intro hmem
      rw [Finset.mem_filter, hg] at hmem
      cases hmem.2.1
  · rw [if_neg hl, Nat.add_zero]
    refine grants_congr fun t _ => and_congr_left fun hpt => ?_
    have htw : t ≠ w := by
      rintro rfl
      rw [hp] at hpt
      exact hl (Option.some.inj hpt).symm
    rw [decide_eq_false htw, Bool.or_false]

theorem grants_block {l' : WaitList} (hfree : pending t = none) :
    grants (Function.update pending t (some l')) (Function.update granted t false) l =
      grants pending granted l := by
  refine grants_congr fun u _ => ?_
  by_cases hut : u = t
  · rw [hut, Function.update_self, Function.update_self, hfree]
    exact iff_of_false (fun h => Bool.false_ne_true h.1) fun h => Option.some_ne_none _ h.2.symm
  · rw [Function.update_of_ne hut, Function.update_of_ne hut]

theorem grants_resume {l' : WaitList} (ht : t < gTaskMaxNum) (hp : pending t = some l')
    (hg : granted t = true) :
    grants (Function.update pending t none) granted l + (if l = l' then 1 else 0) =
      grants pending granted l := by
  have hfun : grants pending granted l =
      grants (Function.update (Function.update pending t none) t (some l'))
        (fun u => Function.update granted t false u || decide (u = t)) l := by
    refine grants_congr fun u _ => ?_
    by_cases hut : u = t
    · rw [hut, Function.update_self, Function.update_self, hp, hg, decide_eq_true rfl]
      rfl
    · rw [Function.update_of_ne hut, Function.update_of_ne hut, Function.update_of_ne hut,
        decide_eq_false hut, Bool.or_false]
  rw [hfun, grants_wake ht (Function.update_self _ _ _) (Function.update_self _ _ _),
    grants_block (Function.update_self _ _ _)]

theorem grants_leave (hg : granted t = false) :
    grants (Function.update pending t none) granted l = grants pending granted l := by
  refine grants_congr fun u _ => and_congr_right fun hu => ?_
  have hut : u ≠ t := by
    rintro rfl
    rw [hg] at hu
    cases hu
  rw [Function.update_of_ne hut]

theorem Waits.init (hm : Machine k V) (hoff : ∀ t l, V.role (.pendList t) ≠ .member (.wait l))
    (htime : ∀ t < gTaskMaxNum, (k.gTaskCBArray t).taskStatus.timeout = false) :
    Waits k V (fun _ => none) granted since clock := by
  refine ⟨hm, fun t ht => absurd ht Bool.false_ne_true, fun t ht => WaitOk.idle (htime t ht) (hoff t),
    fun l => ?_, fun t l hl => absurd hl (hoff t l)⟩
  have hnil : V.content (.wait l) = [] := by
    rw [List.eq_nil_iff_forall_not_mem]
    intro x hx
    obtain ⟨t, _, rfl⟩ := hm.inv.core.mem_pendList hx (.inr (.inr (.inr ⟨_, rfl⟩)))
    exact hoff t _ ((hm.inv.core.ready.forest.mem _ _).mp hx)
  rw [hnil]
  exact List.Pairwise.nil

end

end LiteosM.Kernel
