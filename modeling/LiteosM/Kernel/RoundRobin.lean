import LiteosM.Kernel.SliceRun
import LiteosM.Kernel.SortLink

/-!
# Round robin

When a tick gives the processor to the next task of the same priority.
-/

namespace LiteosM.Kernel

open LiteosM.Lib.DlList LiteosM.Lib.Transition

/-- Task `t` is among those at the front of the sort link whose time has come. -/
def Due (k : KernelState) (t : Nat) : Prop :=
  ∃ n, k.links.next^[n + 1] .gTaskSortLink = .sortLinkNode t ∧ ∀ i ≤ n,
    nodeTime k (k.links.next^[i + 1] .gTaskSortLink) ≤ (osGetCurrSchedTimeCycle k : WithTop Nat)

/-- The task is ready, or the tick makes it ready. -/
def ReadyAt (k : KernelState) (expired : Bool) (t : Nat) : Prop :=
  (k.status t).ready = true ∨ expired = true ∧ Due k t ∧ (k.status t).suspend = false

/-- What is left of the slice of the running task, as `OsTimeSliceUpdate` computes it. -/
def sliceLeft (k : KernelState) : Int :=
  toInt32 ((k.gTaskCBArray k.runTask).timeSlice -
    toInt32 (osGetCurrSchedTimeCycle k - (k.gTaskCBArray k.runTask).startTime))

/-- The running task will not be entered into the ready queue. -/
def Stopped (s : TaskStatus) : Prop :=
  s.pend = true ∨ s.suspend = true ∨ s.delay = true ∨ s.unused = true

variable [Config]

/-- The tick requests a switch, and the switch runs another task of the same priority. -/
def RoundRobin (k : KernelState) (expired : Bool) : Prop :=
  ∃ k₁ k₂, losSchedTickHandler k expired = some k₁ ∧ k₁.pendSV = true ∧ halPendSV k₁ = some k₂ ∧
    k₂.runTask ≠ k.runTask ∧
    (k₂.gTaskCBArray k₂.runTask).priority = (k.gTaskCBArray k.runTask).priority

/-- A switch is pending already, or the interrupt is for a timeout and the timeout of a task that
may run has expired; no other task that is then ready is more urgent. -/
structure TurnDue (k : KernelState) (expired : Bool) : Prop where
  asked : k.pendSV = true ∨ expired = true ∧ ∃ t, Due k t ∧ (k.status t).suspend = false
  fresh : (k.status k.runTask).ready = false
  first : ∀ t < gTaskMaxNum, t ≠ k.gIdleTaskID → ReadyAt k expired t →
    (k.gTaskCBArray k.runTask).priority ≤ (k.gTaskCBArray t).priority
  used : Stopped (k.status k.runTask) ∨ sliceLeft k ≤ Config.osTimeSliceMin

section

variable {k k' : KernelState} {V V' : View Node} {t u : Nat} {due : List Nat}

omit [Config] in
theorem due_iff (hf : Forest k.links V) (hh : V.role .gTaskSortLink = .head) {rest : List Node}
    (hcon : V.content .gTaskSortLink = due.map .sortLinkNode ++ rest)
    (hrest : ∀ x ∈ rest, ∃ u, x = .sortLinkNode u)
    (early : ∀ t ∈ due, (k.gTaskCBArray t).responseTime ≤ (osGetCurrSchedTimeCycle k : WithTop Nat))
    (late : ∀ t l, rest = .sortLinkNode t :: l →
      (osGetCurrSchedTimeCycle k : WithTop Nat) < (k.gTaskCBArray t).responseTime) :
    Due k t ↔ t ∈ due := by
  have hcell : ∀ a v b, due = a ++ v :: b → k.links.next^[a.length + 1] .gTaskSortLink = .sortLinkNode v := by
    intro a v b hsplit
    rw [← @List.length_map _ _ a Node.sortLinkNode]
    apply hf.iterate_cell hh (a.map .sortLinkNode) _ (b.map .sortLinkNode ++ rest)
    rw [hcon, hsplit, List.map_append, List.map_cons, List.append_assoc, List.cons_append]
  have hlate : ¬ nodeTime k (k.links.next^[due.length + 1] .gTaskSortLink) ≤
      (osGetCurrSchedTimeCycle k : WithTop Nat) := by
    rw [not_le]
    cases hr : rest with
    | nil =>
      have hlen : (V.content .gTaskSortLink).length = due.length := by
        rw [hcon, hr, List.append_nil, List.length_map]
      rw [← hlen, hf.iterate_end hh]
      exact WithTop.coe_lt_top _
    | cons x l =>
      obtain ⟨v, rfl⟩ := hrest x (by rw [hr]; exact List.mem_cons_self)
      rw [← @List.length_map _ _ due Node.sortLinkNode,
        hf.iterate_cell hh (due.map .sortLinkNode) (.sortLinkNode v) l (by rw [hcon, hr])]
      exact late v l hr
  constructor
  · intro hdue
    obtain ⟨n, hn, hall⟩ := hdue
    have hlt : n < due.length := by
      by_contra hge
      exact hlate (hall due.length (Nat.not_lt.mp hge))
    obtain ⟨a, v, b, hsplit, hlen⟩ : ∃ a v b, due = a ++ v :: b ∧ a.length = n :=
      ⟨due.take n, due[n], due.drop (n + 1), by rw [← List.drop_eq_getElem_cons hlt, List.take_append_drop],
        List.length_take_of_le hlt.le⟩
    have hv := hcell a v b hsplit
    rw [hlen, hn] at hv
    injection hv with hv
    rw [hv, hsplit]
    exact List.mem_append_right _ List.mem_cons_self
  · intro ht
    obtain ⟨a, b, hsplit⟩ := List.append_of_mem ht
    refine ⟨a.length, hcell a t b hsplit, fun i hi => ?_⟩
    have hlt : i < due.length := by
      rw [hsplit, List.length_append, List.length_cons]
      omega
    obtain ⟨c, v, d, hcvd, hlen⟩ : ∃ c v d, due = c ++ v :: d ∧ c.length = i :=
      ⟨due.take i, due[i], due.drop (i + 1), by rw [← List.drop_eq_getElem_cons hlt, List.take_append_drop],
        List.length_take_of_le hlt.le⟩
    have hv := hcell c v d hcvd
    rw [hlen] at hv
    rw [hv]
    exact early v (by rw [hcvd]; exact List.mem_append_right _ List.mem_cons_self)

/-- What a tick leaves for the switch. -/
structure Ticked (k : KernelState) (expired : Bool) (k' : KernelState) : Prop where
  runTask : k'.runTask = k.runTask
  gIdleTaskID : k'.gIdleTaskID = k.gIdleTaskID
  gTaskScheduled : k'.gTaskScheduled = k.gTaskScheduled
  pendSV : k'.pendSV = true ↔ k.pendSV = true ∨
    expired = true ∧ ∃ t, Due k t ∧ (k.status t).suspend = false
  ready : ∀ t, (k'.status t).ready = true ↔ ReadyAt k expired t
  priority : ∀ t, (k'.gTaskCBArray t).priority = (k.gTaskCBArray t).priority
  running : k'.status k.runTask = k.status k.runTask
  left : (k.gTaskCBArray k.runTask).taskID ≠ k.gIdleTaskID → sliceLeft k' = sliceLeft k

theorem tickScan_spec (hi : KernelInv k V) (expired : Bool) :
    ∃ k₁ V₁ b, (if expired = true then osSchedScanTimerList k else some (k, false)) = some (k₁, b) ∧
      KernelInv k₁ V₁ ∧ Steady k k₁ ∧
      (b = true ↔ expired = true ∧ ∃ t, Due k t ∧ (k.status t).suspend = false) ∧
      (∀ t, (k₁.status t).ready = true ↔ ReadyAt k expired t) ∧
      (∀ t, (k₁.gTaskCBArray t).priority = (k.gTaskCBArray t).priority) ∧
      k₁.gTaskCBArray k.runTask = k.gTaskCBArray k.runTask := by
  cases expired with
  | false =>
    refine ⟨k, V, false, rfl, hi, Steady.refl k, ?_, fun t => ?_, fun _ => rfl, rfl⟩
    · exact iff_of_false Bool.false_ne_true fun h => Bool.false_ne_true h.1
    · exact (or_iff_left fun h => Bool.false_ne_true h.1).symm
  | true =>
    obtain ⟨k₁, V₁, b, due, heq, hi₁, hs, hscan⟩ := osSchedScanTimerList_scan hi
    have hf := hi.core.ready.forest
    have hdue : ∀ t, Due k t ↔ t ∈ due := by
      intro t
      apply due_iff hf (hi.core.system _ (.inr (.inr rfl))) hscan.content _ hscan.early hscan.late
      intro x hx
      obtain ⟨u, _, hu⟩ := hi₁.core.mem_sortLink hx
      exact ⟨u, hu⟩
    refine ⟨k₁, V₁, b, (if_pos rfl).trans heq, hi₁, hs.toSteady, ?_, fun t => ?_, fun t => ?_, ?_⟩
    · rw [hscan.need, Bool.false_or, List.any_eq_true]
      constructor
      · intro h
        obtain ⟨t, ht, hsusp⟩ := h
        exact ⟨rfl, t, (hdue t).mpr ht, by simpa [KernelState.status] using hsusp⟩
      · intro h
        obtain ⟨_, t, ht, hsusp⟩ := h
        exact ⟨t, (hdue t).mp ht, by simpa [KernelState.status] using hsusp⟩
    · unfold ReadyAt KernelState.status
      rw [hdue t]
      by_cases ht : t ∈ due
      · have hfired := hscan.fired t ht
        have hlt : t < gTaskMaxNum := by
          obtain ⟨u, hu, heq⟩ := hi.core.mem_sortLink (show Node.sortLinkNode t ∈ V.content .gTaskSortLink by
            rw [hscan.content]
            exact List.mem_append_left _ (List.mem_map.mpr ⟨t, ht, rfl⟩))
          cases heq
          exact hu
        have hready := ((hi.task t hlt).of_timed hfired.timed).2
        rw [hfired.status, hready]
        cases hsusp : (k.gTaskCBArray t).taskStatus.suspend with
        | true =>
          rw [if_pos rfl]
          show (k.gTaskCBArray t).taskStatus.ready = true ↔ _
          rw [hready]
          simp
        | false =>
          rw [if_neg Bool.false_ne_true]
          exact iff_of_true rfl (.inr ⟨rfl, ht, rfl⟩)
      · rw [(hscan.others t ht).1]
        exact (or_iff_left fun h => ht h.2.1).symm
    · rcases hs.task t with h | h
      · rw [h.1]
      · exact h.priority
    · rcases hs.task k.runTask with h | h
      · exact h.1
      · exact absurd rfl h.bound

theorem losSchedTickHandler_ticked (hi : KernelInv k V) (hsched : k.gTaskScheduled)
    (hlock : k.gLosTaskLock = 0) (expired : Bool) :
    ∃ k₁ V₁, losSchedTickHandler k expired = some k₁ ∧ KernelInv k₁ V₁ ∧ Ticked k expired k₁ := by
  obtain ⟨ks, Vs, b, heq, his, hs, hb, hready, hpri, hrun⟩ := tickScan_spec hi expired
  have hnow : osGetCurrSchedTimeCycle ks = osGetCurrSchedTimeCycle k := hs.now
  have hleft : sliceLeft ks = sliceLeft k := by
    unfold sliceLeft
    rw [hs.runTask, hrun, hnow]
  have htick : losSchedTickHandler k expired =
      if (b && ks.gLosTaskLock == 0) = true then some (halTaskSchedule ks)
      else osTimeSliceUpdate ks ks.runTask (osGetCurrSchedTimeCycle ks) := by
    unfold losSchedTickHandler
    rw [if_neg (by simp [hsched])]
    cases expired with
    | false =>
      rw [if_neg Bool.false_ne_true] at heq
      injection heq with heq
      injection heq with h1 h2
      rw [← h1, ← h2]
      rfl
    | true =>
      rw [if_pos rfl] at heq
      simp only [if_true, Option.bind_eq_bind, heq, Option.bind_some]
  rw [htick, hs.gLosTaskLock, hlock]
  cases b with
  | true =>
    refine ⟨halTaskSchedule ks, Vs, rfl, his.congr rfl rfl rfl rfl rfl rfl (Nat.le_refl _), hs.runTask,
      hs.gIdleTaskID, hs.gTaskScheduled, ?_, hready, hpri, ?_, fun _ => hleft⟩
    · exact iff_of_true rfl (.inr (hb.mp rfl))
    · exact congrArg LosTaskCB.taskStatus hrun
  | false =>
    obtain ⟨k₁, heq₁, hi₁, hm₁, slice, hcb₁⟩ := osTimeSliceUpdate_spec his his.run
    have hstatus : ∀ t, k₁.status t = ks.status t := by
      intro t
      by_cases ht : t = ks.runTask
      · rw [ht]
        unfold KernelState.status
        rw [hcb₁]
      · unfold KernelState.status
        rw [hm₁.task t ht]
    refine ⟨k₁, Vs, heq₁, hi₁, hm₁.runTask.trans hs.runTask, hm₁.gIdleTaskID.trans hs.gIdleTaskID,
      hm₁.gTaskScheduled.trans hs.gTaskScheduled, ?_, fun t => ?_, fun t => ?_, ?_, fun hid => ?_⟩
    · rw [hm₁.pendSV, hs.pendSV]
      exact (or_iff_left fun h => Bool.false_ne_true (hb.mpr h)).symm
    · rw [hstatus t]
      exact hready t
    · rw [← hpri t]
      by_cases ht : t = ks.runTask
      · rw [ht, hcb₁]
      · rw [hm₁.task t ht]
    · rw [hstatus k.runTask]
      exact congrArg LosTaskCB.taskStatus hrun
    · -- the charge is made now, and there is nothing to charge at the switch
      rw [← hleft]
      have hslice : k₁.gTaskCBArray ks.runTask = { ks.gTaskCBArray ks.runTask with
          timeSlice := sliceLeft ks, startTime := osGetCurrSchedTimeCycle ks } := by
        unfold osTimeSliceUpdate at heq₁
        dsimp only at heq₁
        split at heq₁
        · cases heq₁
        · rw [← Option.some.inj heq₁, modifyTask_self, if_pos]
          · rfl
          · rw [hs.runTask, hrun, hs.gIdleTaskID]
            exact hid
      have hsame : (k₁.gTaskCBArray k₁.runTask).timeSlice = sliceLeft ks ∧
          (k₁.gTaskCBArray k₁.runTask).startTime = osGetCurrSchedTimeCycle ks := by
        rw [hm₁.runTask, hslice]
        exact ⟨rfl, rfl⟩
      rw [sliceLeft, hsame.1, hsame.2, hm₁.now, Int.sub_self]
      unfold sliceLeft toInt32
      rw [Int.zero_bmod, Int.sub_zero, Int.bmod_bmod]

/-! ### The switch -/

theorem osGetTopTask_first {n : Nat} (hc : Core k V) (hp : ∀ u < gTaskMaxNum, Parked k V u)
    (htop : osGetTopTask k = some n) (hne : n ≠ k.gIdleTaskID) :
    losDlListFirst k (.gPriQueueList (k.gTaskCBArray n).priority) = .pendList n := by
  unfold osGetTopTask at htop
  split at htop
  · next hb =>
    obtain ⟨x, l, hlt, hcon, hfirst, hlow⟩ := hc.ready.top hb
    have hx : x ∈ V.content (.gPriQueueList (clz k.gQueueBitmap)) := by simp [hcon]
    obtain ⟨m, hm, rfl⟩ := hc.mem_pendList hx (.inr (.inr (.inl ⟨_, rfl⟩)))
    obtain ⟨_, _, hpri⟩ := (hp m hm).of_gPriQueueList ((hc.ready.forest.mem _ _).mp hx)
    rw [hfirst] at htop
    injection htop with htop
    rw [← htop, hpri, hfirst]
  · injection htop with htop
    exact absurd htop.symm hne

/-- The task that is on the processor after a switch was chosen when the old one was parked. -/
theorem halPendSV_runTask (hsw : halPendSV k = some k') :
    ∃ k₂, osSchedPark { k with pendSV := false } = some k₂ ∧
      ∀ n, osGetTopTask k₂ = some n → k₂.runTask = k.runTask → k'.runTask = n := by
  unfold halPendSV at hsw
  rw [osSchedTaskSwitch_eq] at hsw
  simp only [Option.bind_eq_bind, Option.bind_eq_some_iff, Option.some.injEq] at hsw
  obtain ⟨_, ⟨k₂, hpark, n, htop, rfl⟩, rfl⟩ := hsw
  refine ⟨k₂, hpark, fun m hm hrun => ?_⟩
  rw [htop, Option.some.injEq] at hm
  rw [← hm]
  dsimp only
  by_cases hne : k.runTask = n
  · rw [if_neg (by simpa using hne), (osSchedTaskDeQueue_steady _ n).1,
      (osSchedHandOver_spec k₂ k.runTask n).2.2.1.runTask, hrun, hne]
  · rw [if_pos (by simpa using hne), osSchedTaskDeQueue_newTask,
      (osSchedHandOver_spec k₂ k.runTask n).2.2.2.1]

theorem osSchedPark_place (hi : KernelInv k V) (hrun : k.runTask < gTaskMaxNum)
    (hid : k.runTask ≠ k.gIdleTaskID) (hready : (k.status k.runTask).ready = false)
    (hgo : ¬ Stopped (k.status k.runTask)) (hpark : osSchedPark k = some k') :
    (sliceLeft k ≤ Config.osTimeSliceMin →
      (∃ u, V.role (.pendList u) = .member (.gPriQueueList (k.gTaskCBArray k.runTask).priority)) →
      losDlListFirst k' (.gPriQueueList (k.gTaskCBArray k.runTask).priority) ≠ .pendList k.runTask) ∧
    (Config.osTimeSliceMin < sliceLeft k →
      losDlListFirst k' (.gPriQueueList (k.gTaskCBArray k.runTask).priority) = .pendList k.runTask) := by
  have ho := hi.task k.runTask hrun
  obtain ⟨hpend, hsusp, hdelay, hunused⟩ : (k.gTaskCBArray k.runTask).taskStatus.pend = false ∧
      (k.gTaskCBArray k.runTask).taskStatus.suspend = false ∧
      (k.gTaskCBArray k.runTask).taskStatus.delay = false ∧
      (k.gTaskCBArray k.runTask).taskStatus.unused = false := by
    unfold Stopped KernelState.status at hgo
    simpa using hgo
  have htime : (k.gTaskCBArray k.runTask).taskStatus.pendTime = false := by
    cases h : (k.gTaskCBArray k.runTask).taskStatus.pendTime with
    | false => rfl
    | true =>
      have h' := ho.flags.pendTime h
      rw [hpend] at h'
      cases h'
  have hloose : V.role (.pendList k.runTask) = .loose := by
    apply ho.off hunused _ hpend
    intro h
    rw [show (k.gTaskCBArray k.runTask).taskStatus.ready = false from hready] at h
    cases h
  obtain ⟨k₁, heq₁, hi₁, hm₁, slice, hcb₁⟩ := osTimeSliceUpdate_spec hi hi.run
  have hslice : (k₁.gTaskCBArray k.runTask).timeSlice = sliceLeft k := by
    unfold osTimeSliceUpdate at heq₁
    dsimp only at heq₁
    split at heq₁
    · cases heq₁
    · rw [← Option.some.inj heq₁, modifyTask_self]
      exact if_pos (by rw [ho.id]; exact hid)
  have hs₁ : (k₁.gTaskCBArray k.runTask).taskStatus = (k.gTaskCBArray k.runTask).taskStatus := by
    rw [hcb₁]
  have hp₁ : (k₁.gTaskCBArray k.runTask).priority = (k.gTaskCBArray k.runTask).priority := by
    rw [hcb₁]
  have hid₁ : (k₁.gTaskCBArray k.runTask).taskID ≠ k₁.gIdleTaskID := by
    rw [hcb₁, hm₁.gIdleTaskID, ho.id]
    exact hid
  unfold osSchedPark at hpark
  rw [heq₁] at hpark
  simp only [Option.bind_eq_bind, Option.bind_some] at hpark
  rw [hs₁, htime, hdelay, if_neg (by simp), hpend, hsusp, hunused, if_pos (by simp)] at hpark
  unfold osSchedTaskEnQueue at hpark
  rw [if_neg (by unfold KernelState.status; rw [hs₁]; simpa [KernelState.status] using hready),
    Option.some.injEq] at hpark
  dsimp only at hpark
  rw [if_pos hid₁, hp₁, hslice] at hpark
  have hf := hi₁.core.ready.forest
  have hhead := hi₁.core.ready.head _ ho.priority
  generalize (k.gTaskCBArray k.runTask).priority = p at *
  constructor
  · intro hused hu
    rw [if_neg (Int.not_lt.mpr hused)] at hpark
    have hf' := hf.listTailInsert hhead hloose
    have hlinks : k'.links = listTailInsert k₁.links (.gPriQueueList p) (.pendList k.runTask) := by
      rw [← hpark]
      rfl
    rw [← hlinks] at hf'
    obtain ⟨u, hu⟩ := hu
    obtain ⟨x, l, hcon⟩ := List.exists_cons_of_ne_nil (List.ne_nil_of_mem ((hf.mem _ _).mpr hu))
    have hhead' : (V.put (.pendList k.runTask) (.gPriQueueList p)
        (V.content (.gPriQueueList p) ++ [.pendList k.runTask])).role (.gPriQueueList p) = .head := by
      rw [View.put_role, if_neg (by simp)]
      exact hhead
    have hfirst := hf'.next_first hhead' (x := x) (l := l ++ [.pendList k.runTask]) (by
      rw [View.put_content, if_pos rfl, hcon]
      rfl)
    unfold losDlListFirst
    rw [hfirst]
    rintro rfl
    have hmem := (hf.mem (.gPriQueueList p) (.pendList k.runTask)).mp (by
      rw [hcon]
      exact List.mem_cons_self)
    rw [hloose] at hmem
    cases hmem
  · intro hleft
    rw [if_pos hleft] at hpark
    have hf' := hf.listAdd hhead hloose
    have hlinks : k'.links = listAdd k₁.links (.gPriQueueList p) (.pendList k.runTask) := by
      rw [← hpark]
      rfl
    rw [← hlinks] at hf'
    have hhead' : (V.put (.pendList k.runTask) (.gPriQueueList p)
        (.pendList k.runTask :: V.content (.gPriQueueList p))).role (.gPriQueueList p) = .head := by
      rw [View.put_role, if_neg (by simp)]
      exact hhead
    exact hf'.next_first hhead' (l := V.content (.gPriQueueList p)) (by
      rw [View.put_content, if_pos rfl])

theorem halPendSV_turn (hi : KernelInv k V) (hsched : k.gTaskScheduled)
    (hid : k.runTask ≠ k.gIdleTaskID) (hready : (k.status k.runTask).ready = false) (hu : u < gTaskMaxNum)
    (hur : u ≠ k.runTask) (hqueue : V.role (.pendList u) =
      .member (.gPriQueueList (k.gTaskCBArray k.runTask).priority)) :
    ∃ k₂, halPendSV k = some k₂ ∧ ((k₂.runTask ≠ k.runTask ∧
        (k₂.gTaskCBArray k₂.runTask).priority = (k.gTaskCBArray k.runTask).priority) ↔
      (∀ t < gTaskMaxNum, t ≠ k.gIdleTaskID → (k.status t).ready = true →
        (k.gTaskCBArray k.runTask).priority ≤ (k.gTaskCBArray t).priority) ∧
      (Stopped (k.status k.runTask) ∨ sliceLeft k ≤ Config.osTimeSliceMin)) := by
  obtain ⟨hru, hui, hup⟩ := ((hi.task u hu).parked hur).of_gPriQueueList hqueue
  have hi0 : KernelInv { k with pendSV := false } V :=
    hi.congr rfl rfl rfl rfl rfl rfl (Nat.le_refl _)
  obtain ⟨k', V', hsw, _, hs', _⟩ := halPendSV_spec hi hsched fun _ => hready
  obtain ⟨k₂, V₂, hpark, hc₂, hm₂, hp₂, hsame₂, hpri₂, _⟩ := osSchedPark_spec hi0 fun _ => hready
  obtain ⟨n, htop, hn, hrn, hbest⟩ := osGetTopTask_spec hc₂ hp₂ (by
    rw [hm₂.gIdleTaskID]
    exact hi.idle hsched)
  obtain ⟨k₃, hpark₃, hturn⟩ := halPendSV_runTask hsw
  rw [hpark, Option.some.injEq] at hpark₃
  rw [← hpark₃] at hturn
  have hrun' := hturn n htop hm₂.runTask
  have hcb₂ : ∀ t, t ≠ k.runTask → k₂.gTaskCBArray t = k.gTaskCBArray t := hm₂.task
  have hidle₂ : k₂.gIdleTaskID = k.gIdleTaskID := hm₂.gIdleTaskID
  have hu₂ := hbest u hu (by rw [hcb₂ u hur]; exact hru) (by rw [hidle₂]; exact hui)
  have hpn : (k₂.gTaskCBArray n).priority = (k.gTaskCBArray n).priority := by
    by_cases hnr : n = k.runTask
    · rw [hnr]
      exact hpri₂
    · rw [hcb₂ n hnr]
  have hfirst := osGetTopTask_first hc₂ hp₂ htop hu₂.1
  rw [hpn] at hfirst hu₂
  rw [hcb₂ u hur, hup] at hu₂
  refine ⟨k', hsw, ?_⟩
  rw [hrun', hs'.priority n]
  constructor
  · intro h
    obtain ⟨hnr, hpri⟩ := h
    refine ⟨fun t ht hti hrt => ?_, ?_⟩
    · have htr : t ≠ k.runTask := by
        rintro rfl
        rw [hready] at hrt
        cases hrt
      have hbt := (hbest t ht (by rw [hcb₂ t htr]; exact hrt) (by rw [hidle₂]; exact hti)).2
      rw [hpn, hcb₂ t htr, hpri] at hbt
      exact hbt
    · apply or_iff_not_imp_left.mpr
      intro hgo
      apply Int.not_lt.mp
      intro hleft
      have hrun : k.runTask < gTaskMaxNum := by
        apply Nat.lt_of_le_of_ne hi.run
        intro hmax
        apply hgo
        right
        right
        right
        unfold KernelState.status
        rw [hmax]
        exact hi.spare.unused
      have hplace := (osSchedPark_place hi0 hrun hid hready hgo hpark).2 hleft
      rw [hpri] at hfirst
      rw [show losDlListFirst k₂ (.gPriQueueList (k.gTaskCBArray k.runTask).priority) =
        .pendList k.runTask from hplace] at hfirst
      injection hfirst with hfirst
      exact hnr hfirst.symm
  · intro h
    obtain ⟨hmost, hused⟩ := h
    have hnr : n ≠ k.runTask := by
      intro hnr
      rw [hnr] at hn hrn hfirst
      have hgo : ¬ Stopped (k.status k.runTask) := by
        have hflags := (hp₂ k.runTask hn).flags.ready hrn
        intro hstop
        rcases hstop with h | h | h | h
        · have h' := hsame₂.pend.trans h
          exact Bool.false_ne_true (hflags.2.1.symm.trans h')
        · have h' := hsame₂.suspend.trans h
          exact Bool.false_ne_true (hflags.1.symm.trans h')
        · have h' := hsame₂.delay.trans h
          exact Bool.false_ne_true (hflags.2.2.1.symm.trans h')
        · have h' := hsame₂.unused.trans h
          have hno := ((hp₂ k.runTask hn).flags.unused h').1
          exact Bool.false_ne_true (hno.symm.trans hrn)
      exact (osSchedPark_place hi0 hn hid hready hgo hpark).1 (hused.resolve_left hgo) ⟨u, hqueue⟩ hfirst
    refine ⟨hnr, Nat.le_antisymm hu₂.2 (hmost n hn ?_ ?_)⟩
    · rw [← hidle₂]
      exact hu₂.1
    · unfold KernelState.status
      rw [← hcb₂ n hnr]
      exact hrn

end

/-- When a tick takes turns, in every reachable state in which another task of the same priority
is ready. The idle task never is in the ready queue. -/
theorem losSchedTickHandler_turn {s₀ s : WaitState} {events : List WaitEvent}
    (hmax : gTaskMaxNum ≤ osInvalid) (hb : WaitBooted s₀)
    (hrun : Run (fun s event s' => waitStep s event = some s') s₀ events s)
    (hsched : s.kernel.gTaskScheduled) (hid : s.kernel.runTask ≠ s.kernel.gIdleTaskID)
    (hlock : s.kernel.gLosTaskLock = 0) {u : Nat} (hu : u < gTaskMaxNum) (hur : u ≠ s.kernel.runTask)
    (hui : u ≠ s.kernel.gIdleTaskID) (hready : (s.kernel.status u).ready = true)
    (hprio : (s.kernel.gTaskCBArray u).priority = (s.kernel.gTaskCBArray s.kernel.runTask).priority)
    (expired : Bool) : RoundRobin s.kernel expired ↔ TurnDue s.kernel expired := by
  obtain ⟨V, hw⟩ := waitRun_inv hmax hb hrun
  have hi := hw.machine.inv
  generalize s.kernel = k at *
  obtain ⟨k₁, V₁, htick, hi₁, ht⟩ := losSchedTickHandler_ticked hi hsched hlock expired
  have hstatus₁ : k₁.status k₁.runTask = k.status k.runTask := by
    rw [ht.runTask]
    exact ht.running
  by_cases hfresh : (k.status k.runTask).ready = false
  · have hqueue : V₁.role (.pendList u) =
        .member (.gPriQueueList (k₁.gTaskCBArray k₁.runTask).priority) := by
      rw [ht.runTask, ht.priority, ← hprio, ← ht.priority u]
      apply (hi₁.task u hu).queued
      · exact (ht.ready u).mpr (.inl hready)
      · rw [ht.gIdleTaskID]
        exact hui
    obtain ⟨k₂, hsw, hiff⟩ := halPendSV_turn hi₁ (ht.gTaskScheduled.trans hsched)
      (by rw [ht.runTask, ht.gIdleTaskID]; exact hid) (by rw [hstatus₁]; exact hfresh) hu
      (by rw [ht.runTask]; exact hur) hqueue
    simp only [ht.runTask, ht.running, ht.gIdleTaskID, ht.ready, ht.priority] at hiff
    have hleft : Stopped (k.status k.runTask) ∨ sliceLeft k₁ = sliceLeft k := by
      by_cases hlt : k.runTask < gTaskMaxNum
      · right
        apply ht.left
        rw [(hi.task _ hlt).id]
        exact hid
      · have hspare : k.runTask = gTaskMaxNum := Nat.le_antisymm hi.run (Nat.not_lt.mp hlt)
        left
        right
        right
        right
        unfold KernelState.status
        rw [hspare]
        exact hi.spare.unused
    have hused : (Stopped (k.status k.runTask) ∨ sliceLeft k₁ ≤ Config.osTimeSliceMin) ↔
        (Stopped (k.status k.runTask) ∨ sliceLeft k ≤ Config.osTimeSliceMin) := by
      cases hleft with
      | inl h => exact iff_of_true (.inl h) (.inl h)
      | inr h => rw [h]
    rw [hused] at hiff
    constructor
    · intro h
      obtain ⟨k₁', k₂', htick', hpend, hsw', hturn⟩ := h
      rw [htick, Option.some.injEq] at htick'
      rw [← htick'] at hpend hsw'
      rw [hsw, Option.some.injEq] at hsw'
      rw [← hsw'] at hturn
      obtain ⟨hfirst, hstop⟩ := hiff.mp hturn
      exact ⟨ht.pendSV.mp hpend, hfresh, hfirst, hstop⟩
    · intro h
      exact ⟨k₁, k₂, htick, ht.pendSV.mpr h.asked, hsw, hiff.mpr ⟨h.first, h.used⟩⟩
  · refine iff_of_false (fun h => ?_) fun h => hfresh h.fresh
    -- the switch fails its assertion
    obtain ⟨k₁', k₂', htick', _, hsw', _⟩ := h
    rw [htick, Option.some.injEq] at htick'
    rw [← htick'] at hsw'
    have hlt : k₁.runTask < gTaskMaxNum := by
      apply Nat.lt_of_le_of_ne hi₁.run
      intro hspare
      have hno := (hi₁.spare.flags.unused hi₁.spare.unused).1
      rw [← hspare] at hno
      rw [← hstatus₁] at hfresh
      exact hfresh hno
    rw [halPendSV_ready hi₁ hlt] at hsw'
    · cases hsw'
    · rw [← hstatus₁] at hfresh
      simpa [KernelState.status] using hfresh

/-- Two tasks of one priority, the first one has used up its slice. -/
def twoTasksEvents : List WaitEvent :=
  [.kernel (.create true (some { pfnTaskEntry := some 7, usTaskPrio := 10, uwStackSize := 64
                                 pcName := some "first" }) true),
    .kernel (.create true (some { pfnTaskEntry := some 8, usTaskPrio := 10, uwStackSize := 64
                                  pcName := some "second" }) true),
    .kernel .start, .kernel (.elapse 5)]

omit [Config] in
/-- With a switch pending the tick does no harm. -/
theorem losSchedTickHandler_turn_pending :
    letI := smallConfig
    ∃ s, Run (fun s event s' => waitStep s event = some s') smallWaits
      (twoTasksEvents ++ [.kernel .schedule]) s ∧ RoundRobin s.kernel false := by
  let := smallConfig
  have hrun : ((twoTasksEvents ++ [WaitEvent.kernel .schedule]).foldlM waitStep smallWaits).map
      (fun s => ((s.kernel.gTaskScheduled, s.kernel.runTask, s.kernel.gIdleTaskID, s.kernel.gLosTaskLock),
        (s.kernel.status 2).ready, (s.kernel.gTaskCBArray 1).priority, (s.kernel.gTaskCBArray 2).priority)) =
      some ((true, 1, 0, 0), true, 10, 10) := by decide +kernel
  have hrun' : ((twoTasksEvents ++ [WaitEvent.kernel .schedule]).foldlM waitStep smallWaits).map
      (fun s => (s.kernel.pendSV, (s.kernel.status 1).ready, sliceLeft s.kernel)) =
      some (true, false, -1) := by decide +kernel
  rw [Option.map_eq_some_iff] at hrun hrun'
  obtain ⟨s, hs, hval⟩ := hrun
  obtain ⟨s', hs', hval'⟩ := hrun'
  rw [hs, Option.some.injEq] at hs'
  rw [← hs'] at hval'
  simp only [Prod.mk.injEq] at hval hval'
  obtain ⟨⟨hsched, hrunTask, hidle, hlock⟩, hready, hp1, hp2⟩ := hval
  obtain ⟨hpend, hfresh, hleft⟩ := hval'
  refine ⟨s, run_of_foldlM hs, (losSchedTickHandler_turn (u := 2) (by decide)
    ⟨smallKernel_booted, fun _ => rfl⟩ (run_of_foldlM hs) hsched (by rw [hrunTask, hidle]; decide) hlock
    (by decide) (by rw [hrunTask]; decide) (by rw [hidle]; decide) hready (by rw [hrunTask, hp1, hp2])
    false).mpr ⟨.inl hpend, by rw [hrunTask]; exact hfresh, fun t ht hti _ => ?_, .inr ?_⟩⟩
  · rw [hrunTask, hp1]
    have hcase : t = 0 ∨ t = 1 ∨ t = 2 := by
      have h3 : t < 3 := ht
      omega
    rcases hcase with rfl | rfl | rfl
    · exact absurd hidle.symm hti
    · exact hp1.ge
    · exact hp2.ge
  · rw [hleft]
    decide

omit [Config] in
/-- The tick at the end of a slice does not ask for a switch, whatever it was programmed for. -/
theorem losSchedTickHandler_no_turn :
    letI := smallConfig
    ∃ s, WaitBooted smallWaits ∧
      Run (fun s event s' => waitStep s event = some s') smallWaits twoTasksEvents s ∧
      s.kernel.gTaskScheduled = true ∧ s.kernel.runTask = 1 ∧ s.kernel.gIdleTaskID = 0 ∧
      s.kernel.gLosTaskLock = 0 ∧ (s.kernel.status 2).ready = true ∧
      (s.kernel.gTaskCBArray 2).priority = (s.kernel.gTaskCBArray 1).priority ∧
      (s.kernel.gTaskCBArray 1).timeSlice ≤
        (osGetCurrSchedTimeCycle s.kernel : Int) - (s.kernel.gTaskCBArray 1).startTime ∧
      ∀ expired, (losSchedTickHandler s.kernel expired).map (·.pendSV) = some false ∧
        ¬ RoundRobin s.kernel expired := by
  let := smallConfig
  have hrun : (twoTasksEvents.foldlM waitStep smallWaits).map (fun s => ((s.kernel.gTaskScheduled,
      s.kernel.runTask, s.kernel.gIdleTaskID, s.kernel.gLosTaskLock), (s.kernel.status 2).ready,
      decide ((s.kernel.gTaskCBArray 2).priority = (s.kernel.gTaskCBArray 1).priority),
      decide ((s.kernel.gTaskCBArray 1).timeSlice ≤
        (osGetCurrSchedTimeCycle s.kernel : Int) - (s.kernel.gTaskCBArray 1).startTime))) =
      some ((true, 1, 0, 0), true, true, true) := by decide +kernel
  have htick : ∀ expired, (twoTasksEvents.foldlM waitStep smallWaits).map (fun s =>
      (losSchedTickHandler s.kernel expired).map (·.pendSV)) = some (some false) := by decide +kernel
  rw [Option.map_eq_some_iff] at hrun
  obtain ⟨s, hs, hval⟩ := hrun
  simp only [Prod.mk.injEq, decide_eq_true_eq] at hval
  obtain ⟨⟨hsched, hrunTask, hidle, hlock⟩, hready, hprio, hused⟩ := hval
  refine ⟨s, ⟨smallKernel_booted, fun _ => rfl⟩, run_of_foldlM hs, hsched, hrunTask, hidle, hlock, hready,
    hprio, hused, fun expired => ?_⟩
  have hno := htick expired
  rw [hs, Option.map_some, Option.some.injEq] at hno
  refine ⟨hno, fun h => ?_⟩
  obtain ⟨k₁, _, heq, hpend, _⟩ := h
  rw [heq, Option.map_some, hpend] at hno
  cases hno

end LiteosM.Kernel
