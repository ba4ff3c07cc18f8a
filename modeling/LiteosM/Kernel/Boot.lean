import LiteosM.Kernel.Machine

/-!
# Initialization

`OsTaskInit` and `OsIdleTaskCreate` establish the invariant.
-/

namespace LiteosM.Kernel

open LiteosM.Lib.DlList

section

variable {s : Store Node} {V : View Node}

def looseView : View Node := ⟨fun _ => .loose, fun _ => []⟩

theorem forest_loose (s : Store Node) : Forest s looseView := by
  refine ⟨fun h hh => ?_, fun _ => List.nodup_nil, fun h x => ?_, fun h x hx => ?_⟩
  · cases hh
  · simp [looseView]
  · cases hx

/-- The block of a task in the free list of a fresh system. -/
def freshTask (index : Nat) : LosTaskCB :=
  { clearedTaskCB with taskStatus := osTaskStatusUnused, taskID := index }

def osTaskInitOne (k : KernelState) (index : Nat) : KernelState :=
  losListTailInsert (k.modifyTask index fun cb =>
    { cb with taskStatus := osTaskStatusUnused, taskID := index }) .gLosFreeTask (.pendList index)

theorem osTaskInit_free {k : KernelState} (hf : Forest k.links V) (hfree : V.role .gLosFreeTask = .head)
    (hpl : ∀ u, V.role (.pendList u) = .loose) (hcb : ∀ u, k.gTaskCBArray u = clearedTaskCB) (n : Nat) :
    ∃ V', Forest ((List.range n).foldl osTaskInitOne k).links V' ∧
      (∀ u < n, V'.role (.pendList u) = .member .gLosFreeTask) ∧
      (∀ y, (∀ u < n, y ≠ .pendList u) → V'.role y = V.role y) ∧
      (∀ u < n, ((List.range n).foldl osTaskInitOne k).gTaskCBArray u = freshTask u) ∧
      (∀ u, n ≤ u → ((List.range n).foldl osTaskInitOne k).gTaskCBArray u = clearedTaskCB) ∧
      Steady k ((List.range n).foldl osTaskInitOne k) := by
  induction n with
  | zero =>
    exact ⟨V, hf, fun u hu => absurd hu (Nat.not_lt_zero u), fun _ _ => rfl,
      fun u hu => absurd hu (Nat.not_lt_zero u), fun u _ => hcb u, Steady.refl k⟩
  | succ n ih =>
    obtain ⟨V1, hf1, hin1, hout1, hcb1, hrest1, hst1⟩ := ih
    rw [List.range_succ, List.foldl_append, List.foldl_cons, List.foldl_nil]
    generalize (List.range n).foldl osTaskInitOne k = k1 at hf1 hcb1 hrest1 hst1 ⊢
    have hhead : V1.role .gLosFreeTask = .head := by
      rw [hout1 _ (by simp)]
      exact hfree
    have hloose : V1.role (.pendList n) = .loose := by
      rw [hout1 _ fun u hu => by simp; omega]
      exact hpl n
    have hf2 : Forest (osTaskInitOne k1 n).links _ := hf1.listTailInsert hhead hloose
    refine ⟨_, hf2, fun u hu => ?_, fun y hy => ?_, fun u hu => ?_, fun u hu => ?_,
      hst1.trans ⟨rfl, rfl, rfl, rfl, rfl, rfl, rfl⟩⟩
    · rw [View.put_role]
      split
      · rfl
      · next hne => exact hin1 u (by simp at hne; omega)
    · rw [View.put_role, if_neg (hy n (Nat.lt_succ_self n))]
      exact hout1 y fun u hu => hy u (by omega)
    · unfold osTaskInitOne
      rw [losListTailInsert_gTaskCBArray]
      by_cases hun : u = n
      · rw [hun, modifyTask_self, hrest1 n (Nat.le_refl n)]
        rfl
      · rw [show (k1.modifyTask n _).gTaskCBArray u = k1.gTaskCBArray u from
          Function.update_of_ne hun _ _]
        exact hcb1 u (by omega)
    · unfold osTaskInitOne
      rw [losListTailInsert_gTaskCBArray, show (k1.modifyTask n _).gTaskCBArray u =
        k1.gTaskCBArray u from Function.update_of_ne (by omega) _ _]
      exact hrest1 u (by omega)

theorem osSchedInit_lists {k : KernelState} (hf : Forest k.links V)
    (hpri : ∀ p, V.role (.gPriQueueList p) = .loose) (n : Nat) :
    ∃ V', Forest ((List.range n).foldl (fun k pri => losListInit k (.gPriQueueList pri)) k).links V' ∧
      (∀ p < n, V'.role (.gPriQueueList p) = .head) ∧
      (∀ y, (∀ p < n, y ≠ .gPriQueueList p) → V'.role y = V.role y) ∧ V'.content = V.content ∧
      ((List.range n).foldl (fun k pri => losListInit k (.gPriQueueList pri)) k).gTaskCBArray =
        k.gTaskCBArray ∧
      Steady k ((List.range n).foldl (fun k pri => losListInit k (.gPriQueueList pri)) k) := by
  induction n with
  | zero =>
    exact ⟨V, hf, fun p hp => absurd hp (Nat.not_lt_zero p), fun _ _ => rfl, rfl, rfl, Steady.refl k⟩
  | succ n ih =>
    obtain ⟨V1, hf1, hin1, hout1, hcon1, hcb1, hst1⟩ := ih
    rw [List.range_succ, List.foldl_append, List.foldl_cons, List.foldl_nil]
    generalize (List.range n).foldl (fun k pri => losListInit k (.gPriQueueList pri)) k = k1
      at hf1 hcb1 hst1 ⊢
    have hloose : V1.role (.gPriQueueList n) = .loose := by
      rw [hout1 _ fun p hp => by simp; omega]
      exact hpri n
    have hf2 : Forest (losListInit k1 (.gPriQueueList n)).links _ := hf1.listInit hloose
    refine ⟨_, hf2, fun p hp => ?_, fun y hy => ?_, hcon1, hcb1,
      hst1.trans ⟨rfl, rfl, rfl, rfl, rfl, rfl, rfl⟩⟩
    · rw [View.setRole_role]
      split
      · rfl
      · next hne => exact hin1 p (by simp at hne; omega)
    · rw [View.setRole_role, if_neg (hy n (Nat.lt_succ_self n))]
      exact hout1 y fun p hp => hy p (by omega)

end

variable [Config]

section

variable {k k' : KernelState} {V : View Node}

theorem osTaskInit_spec (k : KernelState) (hmax : gTaskMaxNum ≤ osInvalid)
    (hsched : k.gTaskScheduled = false) (hpend : k.pendSV = false) :
    ∃ V, KernelInv (osTaskInit k) V ∧ Settled (osTaskInit k) ∧
      (osTaskInit k).gIdleTaskID = osInvalid ∧ (osTaskInit k).gTaskScheduled = false ∧
      (∀ y, y.isObject = true → V.role y = .loose) ∧
      ∀ u < gTaskMaxNum, ((osTaskInit k).gTaskCBArray u).taskStatus.timeout = false := by
  obtain ⟨k0, hk0⟩ : ∃ k0, losListInit (losListInit { k with gTaskCBArray := fun _ => clearedTaskCB }
      .gLosFreeTask) .gTaskRecyleList = k0 := ⟨_, rfl⟩
  have hf0 : Forest k0.links ((looseView.setRole .gLosFreeTask .head).setRole .gTaskRecyleList
      .head) := by
    rw [← hk0]
    have h1 := (forest_loose k.links).listInit (x := .gLosFreeTask) rfl
    exact h1.listInit (by simp [looseView])
  have hst0 : k0.gTaskScheduled = false ∧ k0.pendSV = false := by
    rw [← hk0]
    exact ⟨hsched, hpend⟩
  have hcb0 : ∀ u, k0.gTaskCBArray u = clearedTaskCB := by
    rw [← hk0]
    exact fun _ => rfl
  obtain ⟨V1, hf1, hin1, hout1, hcb1, hrest1, hst1⟩ := osTaskInit_free hf0 (by simp)
    (by simp [looseView]) hcb0 gTaskMaxNum
  obtain ⟨k1, hk1⟩ : ∃ k1, (List.range gTaskMaxNum).foldl osTaskInitOne k0 = k1 := ⟨_, rfl⟩
  rw [hk1] at hf1 hcb1 hrest1 hst1
  -- the spare block takes the place of the running task
  obtain ⟨k2, hk2⟩ : ∃ k2, { ({ k1 with runTask := gTaskMaxNum, newTask := 0 } : KernelState).modifyTask
      gTaskMaxNum fun cb => { cb with
        taskID := gTaskMaxNum
        taskStatus := { osTaskStatusUnused with running := true }
        priority := osTaskPriorityLowest + 1 } with gIdleTaskID := osInvalid } = k2 := ⟨_, rfl⟩
  have hf2 : Forest k2.links V1 := by
    rw [← hk2]
    exact hf1
  have hloose1 : ∀ y, y ≠ .gLosFreeTask → y ≠ .gTaskRecyleList → (∀ u < gTaskMaxNum, y ≠ .pendList u) →
      V1.role y = .loose := by
    intro y h1 h2 h3
    rw [hout1 y h3]
    simp [h1, h2, looseView]
  obtain ⟨V3, hf3, hin3, hout3, hcon3, hcb3, hst3⟩ := osSchedInit_lists hf2
    (fun p => hloose1 _ (by simp) (by simp) (by simp)) osPriorityQueueNum
  obtain ⟨k3, hk3⟩ : ∃ k3, (List.range osPriorityQueueNum).foldl
      (fun k pri => losListInit k (.gPriQueueList pri)) k2 = k3 := ⟨_, rfl⟩
  rw [hk3] at hf3 hcb3 hst3
  have hsl3 : V3.role .gTaskSortLink = .loose := by
    rw [hout3 _ (by simp)]
    exact hloose1 _ (by simp) (by simp) (by simp)
  have hf4 : Forest (losListInit k3 .gTaskSortLink).links (V3.setRole .gTaskSortLink .head) :=
    hf3.listInit hsl3
  have heq : osTaskInit k = losListInit { k3 with gQueueBitmap := 0#32 } .gTaskSortLink := by
    rw [← hk3, ← hk2, ← hk1, ← hk0]
    rfl
  have hst : (osTaskInit k).runTask = gTaskMaxNum ∧ (osTaskInit k).gIdleTaskID = osInvalid ∧
      (osTaskInit k).gTaskScheduled = false ∧ (osTaskInit k).pendSV = false := by
    rw [heq]
    refine ⟨hst3.runTask.trans ?_, hst3.gIdleTaskID.trans ?_, hst3.gTaskScheduled.trans ?_,
      hst3.pendSV.trans ?_⟩ <;> rw [← hk2]
    · rfl
    · exact hst1.gTaskScheduled.trans hst0.1
    · exact hst1.pendSV.trans hst0.2
  have hcb : ∀ u < gTaskMaxNum, (osTaskInit k).gTaskCBArray u = freshTask u := by
    intro u hu
    rw [heq]
    show k3.gTaskCBArray u = _
    rw [hcb3, ← hk2]
    exact (Function.update_of_ne (Nat.ne_of_lt hu) _ _).trans (hcb1 u hu)
  have hcbm : (osTaskInit k).gTaskCBArray gTaskMaxNum = { clearedTaskCB with
      taskID := gTaskMaxNum
      taskStatus := { osTaskStatusUnused with running := true }
      priority := osTaskPriorityLowest + 1 } := by
    rw [heq]
    show k3.gTaskCBArray gTaskMaxNum = _
    rw [hcb3, ← hk2]
    refine (Function.update_self gTaskMaxNum { k1.gTaskCBArray gTaskMaxNum with
      taskID := gTaskMaxNum
      taskStatus := { osTaskStatusUnused with running := true }
      priority := osTaskPriorityLowest + 1 } k1.gTaskCBArray).trans ?_
    rw [hrest1 _ (Nat.le_refl _)]
  have hbits : (osTaskInit k).gQueueBitmap = 0#32 ∧ (osTaskInit k).links =
      (losListInit k3 .gTaskSortLink).links := by
    rw [heq]
    exact ⟨rfl, rfl⟩
  have hpl : ∀ u < gTaskMaxNum, (V3.setRole .gTaskSortLink .head).role (.pendList u) =
      .member .gLosFreeTask := by
    intro u hu
    rw [View.setRole_role, if_neg (by simp), hout3 _ (by simp)]
    exact hin1 u hu
  have hsl : ∀ u, (V3.setRole .gTaskSortLink .head).role (.sortLinkNode u) = .loose := by
    intro u
    rw [View.setRole_role, if_neg (by simp), hout3 _ (by simp)]
    exact hloose1 _ (by simp) (by simp) (by simp)
  have hrest : ∀ y h, (V3.setRole .gTaskSortLink .head).role y = .member h →
      ∃ u < gTaskMaxNum, y = .pendList u := by
    intro y h hy
    by_contra hno
    push Not at hno
    rw [View.setRole_role] at hy
    split at hy
    · cases hy
    · by_cases hpri : ∃ p < osPriorityQueueNum, y = .gPriQueueList p
      · obtain ⟨p, hp, rfl⟩ := hpri
        rw [hin3 p hp] at hy
        cases hy
      · push Not at hpri
        rw [hout3 y hpri, hout1 y hno] at hy
        simp only [View.setRole_role] at hy
        split at hy
        · cases hy
        · split at hy <;> cases hy
  generalize osTaskInit k = k' at hst hcb hcbm hbits ⊢
  obtain ⟨hrun, hid, hsc, hpe⟩ := hst
  have hnow : osGetCurrSchedTimeCycle k' = 0 := by
    unfold osGetCurrSchedTimeCycle
    rw [hsc]
    rfl
  refine ⟨V3.setRole .gTaskSortLink .head, ⟨⟨⟨?_, fun p hp => ?_, fun p hp => ?_⟩, fun h hh => ?_,
    fun y h hy => ?_⟩, fun u hu => ?_, ?_, hrun.le, ?_⟩, ⟨?_, fun _ => hrun, ?_⟩, hid, hsc, fun y hy => ?_, ?_⟩
  · rw [hbits.2]
    exact hf4
  · rw [View.setRole_role, if_neg (by simp)]
    exact hin3 p hp
  · rw [hbits.1, View.setRole_content, hcon3, hf1.content_loose]
    · simp
    · rw [hloose1 _ (by simp) (by simp) (by simp)]
      simp
  · rcases hh with rfl | rfl | rfl
    · rw [View.setRole_role, if_neg (by simp), hout3 _ (by simp), hout1 _ (by simp)]
      simp
    · rw [View.setRole_role, if_neg (by simp), hout3 _ (by simp), hout1 _ (by simp)]
      simp
    · simp
  · obtain ⟨u, hu, rfl⟩ := hrest y h hy
    rw [hpl u hu] at hy
    injection hy with hy
    exact ⟨hu, .inl hy.symm⟩
  · have hcbu := hcb u hu
    constructor
    case id => rw [hcbu]; rfl
    case priority => rw [hcbu]; exact Nat.zero_lt_succ 31
    case startTime => rw [hcbu]; exact Nat.zero_le _
    case flags => rw [hcbu]; exact unused_consistent false
    case running =>
      rw [hcbu, hrun]
      exact iff_of_false Bool.false_ne_true (Nat.ne_of_lt hu)
    case live => rw [hrun]; exact fun h => absurd h (Nat.ne_of_lt hu)
    case idle => rw [hid]; exact fun h => absurd h (by omega)
    case free => exact fun _ => .inl (hpl u hu)
    case queued => rw [hcbu]; intro h; cases h
    case blocked => rw [hcbu]; intro h; cases h
    case off => rw [hcbu]; intro h; cases h
    case timed => rw [hcbu]; intro h; rcases h with h | h <;> cases h
    case untimed => exact fun _ => hsl u
    case response => rw [hcbu]; intro h; cases h
  · refine ⟨?_, ?_, ?_⟩
    · rw [hcbm]
      exact Nat.zero_le _
    · rw [hcbm]
      rfl
    · rw [hcbm]
      exact unused_consistent true
  · rw [hsc]
    intro h
    cases h
  · rw [hsc]
    intro h
    cases h
  · rw [hpe]
    intro h
    cases h
  · have hne : ∀ z, Node.isObject z = false → y ≠ z := by
      rintro z hz rfl
      rw [hy] at hz
      cases hz
    rw [View.setRole_role, if_neg (hne _ rfl), hout3 _ fun p _ => hne _ rfl]
    exact hloose1 _ (hne _ rfl) (hne _ rfl) fun u _ => hne _ rfl
  · intro u hu
    rw [hcb u hu]
    rfl

def Booted (k : KernelState) : Prop :=
  ∃ k₀ : KernelState, k₀.gTaskScheduled = false ∧ k₀.pendSV = false ∧
    osIdleTaskCreate (osTaskInit k₀) = some (k, .losOk)

theorem booted_machine (hmax : gTaskMaxNum ≤ osInvalid) (hk : Booted k) :
    ∃ V, Machine k V ∧ (∀ y, y.isObject = true → V.role y = .loose) ∧ k.gTaskScheduled = false ∧
      ∀ u < gTaskMaxNum, (k.gTaskCBArray u).taskStatus.timeout = false := by
  obtain ⟨k₀, hsched, hpend, hidle⟩ := hk
  obtain ⟨V0, hi0, hset0, hid0, hsc0, hw0, htm0⟩ := osTaskInit_spec k₀ hmax hsched hpend
  unfold osIdleTaskCreate at hidle
  dsimp only at hidle
  obtain ⟨k1, V1, r, o, heq, hi1, hr1, hset1, ho⟩ := losTaskCreateOnly_spec hi0 true
    (some { pfnTaskEntry := some Config.osIdleTaskEntry, usTaskPrio := osTaskPriorityLowest
            uwStackSize := Config.tskMinStackSize, pcName := some "IdleCore000" }) true
  rw [heq] at hidle
  simp only [Option.bind_eq_bind, Option.bind_some] at hidle
  rcases ho with ⟨rfl, hr, _⟩ | ⟨t, rfl, hq1, hcr1, hne1, hpl1, hsl1⟩
  · simp only [Option.some.injEq, Prod.mk.injEq] at hidle
    exact absurd hidle.2 hr
  · have ht := hcr1.bound
    have hot := hi1.task t ht
    have hid1 : k1.gIdleTaskID = osInvalid := hq1.gIdleTaskID.trans hid0
    have hsc1 : k1.gTaskScheduled = false := hq1.gTaskScheduled.trans hsc0
    have hnready : (k1.gTaskCBArray t).taskStatus.ready = false := by
      cases h : (k1.gTaskCBArray t).taskStatus.ready with
      | false => rfl
      | true =>
        have h' := hot.queued h hne1
        rw [hpl1] at h'
        cases h'
    have hc2 : Core { k1 with gIdleTaskID := t } V1 := hi1.core.congr rfl rfl
    obtain ⟨k3, V3, slice, heq3, hc3, hm3, hcb3, hpl3, hsl3, -⟩ := osSchedTaskEnQueue_spec hc2 ht hot.id
      hot.priority hnready hpl1
    rw [if_pos rfl] at hpl3
    simp only [heq3, Option.bind_some, Option.some.injEq, Prod.mk.injEq, and_true] at hidle
    rw [← hidle]
    have hs3 : (k3.gTaskCBArray t).taskStatus = readied (k1.gTaskCBArray t).taskStatus := by rw [hcb3]
    have hid3 : k3.gIdleTaskID = t := hm3.gIdleTaskID
    have hrun3 : k3.runTask = k1.runTask := hm3.runTask
    have hnow3 : osGetCurrSchedTimeCycle k3 = osGetCurrSchedTimeCycle k1 := hm3.now
    have hset3 : Settled k3 := by
      obtain ⟨_, hb, hreq⟩ := hset1 hset0
      refine ⟨fun h => ?_, fun _ => hrun3.trans (hb hsc1), fun h => ?_⟩
      · rw [hm3.gTaskScheduled, hsc1] at h
        cases h
      · rw [hm3.gTaskScheduled]
        exact hreq (by rw [← h]; exact hm3.pendSV.symm)
    have hrunm : k1.runTask = gTaskMaxNum := (hset1 hset0).boot hsc1
    refine ⟨V3, ⟨⟨hc3, fun u hu => ?_, ?_, ?_, ?_⟩, hset3, by rw [hid3]; exact ht⟩, fun y hy => ?_,
      hm3.gTaskScheduled.trans hsc1, fun u hu => ?_⟩
    · by_cases hut : u = t
      · rw [hut]
        constructor
        case id => rw [hcb3]; exact hot.id
        case priority => rw [hcb3]; exact hot.priority
        case startTime => rw [hcb3, hnow3]; exact hot.startTime
        case flags => rw [hs3]; exact readied_consistent hcr1.live
        case running => rw [hs3, hrun3]; exact hot.running
        case live => rw [hs3]; exact fun _ => hcr1.live
        case idle => rw [hs3]; exact fun _ => ⟨hcr1.live, rfl, rfl, rfl⟩
        case free => rw [hs3]; intro h; simp [readied, hcr1.live] at h
        case queued => rw [hid3]; exact fun _ h => absurd rfl h
        case blocked => rw [hs3]; intro h; cases h
        case off => exact fun _ _ _ => hpl3
        case timed => rw [hs3]; intro h; rcases h with h | h <;> cases h
        case untimed => rw [hsl3]; exact fun _ => hsl1
        case response =>
          rw [hcb3, hsl3]
          exact fun _ => hot.response hcr1.live
      · refine (hi1.task u hu).congr (hm3.task u hut) (hm3.role _ (by simpa using hut) (by simp))
          (hm3.role _ (by simp) (by simpa using hut)) (by rw [hrun3]) ?_ hnow3.ge
        rw [hid3, hid1]
        exact iff_of_false hut (by omega)
    · exact hi1.spare.congr (hm3.task _ (Nat.ne_of_gt ht)) hnow3.ge
    · rw [hrun3]
      exact hi1.run
    · rw [hid3]
      exact fun _ => ht
    · have hp : ∀ u, y ≠ .pendList u := by
        rintro u rfl
        cases hy
      have hs : ∀ u, y ≠ .sortLinkNode u := by
        rintro u rfl
        cases hy
      rw [hm3.role _ (hp t) (hs t), hq1.role _ hp hs]
      exact hw0 y hy
    · by_cases hut : u = t
      · rw [hut, hs3]
        exact hcr1.timeout
      · rw [hm3.task u hut, (hq1.kept u hu hut).timeout]
        exact htm0 u hu

end

/-- Three tasks and the smallest stacks. -/
@[reducible]
def smallConfig : Config where
  tskLimit := 2
  semLimit := 2
  muxLimit := 2
  queueLimit := 2
  osSchedTimeSlices := 4
  osTimeSliceMin := 1
  osCyclePerTick := 10
  sysHeapSize := 1024
  tskDefaultStackSize := 64
  tskMinStackSize := 16
  osTaskStackAddrAlign := 8
  osIdleTaskEntry := 1

/-- The kernel before `OsTaskInit`, all in zeroed memory. -/
def zeroedKernel : KernelState where
  links := ⟨fun _ => .null, fun _ => .null⟩
  gTaskCBArray := fun _ =>
    { taskID := 0, taskStatus := noStatus, priority := 0, timeSlice := 0, waitTimes := 0, startTime := 0
      responseTime := ((0 : Nat) : WithTop Nat), taskSem := none, taskMux := none }
  gQueueBitmap := 0#32
  runTask := 0
  newTask := 0
  gIdleTaskID := 0
  gSwtmrTaskID := 0
  gLosTaskLock := 0
  gTaskScheduled := false
  pendSV := false
  cycle := 0

def smallKernel : KernelState :=
  letI := smallConfig
  ((osIdleTaskCreate (osTaskInit zeroedKernel)).map Prod.fst).getD zeroedKernel

omit [Config] in
theorem smallKernel_booted : @Booted smallConfig smallKernel := by
  let := smallConfig
  refine ⟨zeroedKernel, rfl, rfl, ?_⟩
  have hok : (osIdleTaskCreate (osTaskInit zeroedKernel)).map Prod.snd = some .losOk := by decide +kernel
  unfold smallKernel
  cases h : osIdleTaskCreate (osTaskInit zeroedKernel) with
  | none =>
    rw [h] at hok
    cases hok
  | some r =>
    rw [h] at hok
    injection hok with hok
    show some r = some (r.1, Errno.losOk)
    rw [← hok]

def smallTask (usTaskPrio : Nat) : KernelEvent :=
  .create true (some { pfnTaskEntry := some 7, usTaskPrio := usTaskPrio, uwStackSize := 64
                       pcName := some "task" }) true

end LiteosM.Kernel
