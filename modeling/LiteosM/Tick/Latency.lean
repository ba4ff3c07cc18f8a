import LiteosM.Tick.Expire

/-!
# The latency of the armed response time

The tick that is armed comes at most two ticks and the tolerance of the coalescing after the first entry
of the sort links.
-/

namespace LiteosM.Tick

open LiteosM.Lib.SortedList LiteosM.Lib.Transition ExpireConfig

/-! ### The sort links -/

def Sorted (l : List SortLinkList) : Prop := l.Pairwise fun a b => a.responseTime ≤ b.responseTime

section

variable {l : List SortLinkList} {n sortList : SortLinkList} {owner startTime : Nat}

theorem osAddNode2SortLink_perm (l : List SortLinkList) (sortList : SortLinkList) :
    (osAddNode2SortLink l sortList).Perm (sortList :: l) := by
  unfold osAddNode2SortLink
  cases l with
  | nil => exact List.Perm.refl _
  | cons head rest =>
    dsimp only
    split
    · exact List.Perm.refl _
    · refine List.perm_middle.trans ?_
      rw [List.rdropWhile_append_rtakeWhile]

theorem osAddNode2SortLink_sorted (h : Sorted l) : Sorted (osAddNode2SortLink l sortList) := by
  unfold osAddNode2SortLink
  cases l with
  | nil => exact List.pairwise_singleton _ _
  | cons head rest =>
    dsimp only
    split
    · next hfirst =>
      refine List.pairwise_cons.mpr ⟨fun u hu => ?_, h⟩
      cases hu with
      | head => exact hfirst
      | tail _ hu => exact hfirst.trans ((List.pairwise_cons.mp h).1 u hu)
    · obtain ⟨hbefore, hbehind⟩ := insert_place sortList.responseTime h
      have happ := List.rdropWhile_append_rtakeWhile
        (p := fun u : SortLinkList => decide (sortList.responseTime < u.responseTime)) (l := head :: rest)
      refine pairwise_insert (fun _ _ _ => Nat.le_trans) ?_ (fun y l he => hbefore y ?_) fun y l he => ?_
      · rw [happ]
        exact h
      · rw [he]
        exact List.mem_append_right _ (List.mem_singleton_self y)
      · refine (hbehind y ?_).le
        rw [he]
        exact List.mem_cons_self

theorem osDeleteSortLink_sorted (h : Sorted l) : Sorted (osDeleteSortLink l owner) :=
  h.sublist List.filter_sublist

theorem osDeleteSortLink_mem (h : n ∈ osDeleteSortLink l owner) : n ∈ l := List.mem_of_mem_filter h

theorem expireScan_spec (hl : Sorted l) (startTime expirTime : Nat) :
    ((expireScan startTime l expirTime).1 = expirTime ∧ (∀ n ∈ l, startTime < n.responseTime) ∨
        (expireScan startTime l expirTime).1 = startTime ∧ ∃ n ∈ l, n.responseTime ≤ startTime) ∧
      ((expireScan startTime l expirTime).2 = 0 ∧ (∀ n ∈ l, n.responseTime ≤ startTime) ∨
        startTime < (expireScan startTime l expirTime).2 ∧
          ∀ n ∈ l, n.responseTime ≤ startTime ∨ (expireScan startTime l expirTime).2 ≤ n.responseTime) := by
  induction l generalizing expirTime with
  | nil => exact ⟨.inl ⟨rfl, nofun⟩, .inl ⟨rfl, nofun⟩⟩
  | cons u l ih =>
    obtain ⟨hu, hl⟩ := List.pairwise_cons.mp hl
    unfold expireScan
    by_cases hdue : u.responseTime ≤ startTime
    · rw [if_pos hdue]
      obtain ⟨hfirst, hnext⟩ := ih hl startTime
      refine ⟨.inr ⟨?_, u, List.mem_cons_self, hdue⟩, ?_⟩
      · exact hfirst.elim And.left And.left
      · rcases hnext with ⟨hzero, hall⟩ | ⟨hlt, hall⟩
        · exact .inl ⟨hzero, List.forall_mem_cons.mpr ⟨hdue, hall⟩⟩
        · exact .inr ⟨hlt, List.forall_mem_cons.mpr ⟨.inl hdue, hall⟩⟩
    · rw [if_neg hdue]
      have hlt : startTime < u.responseTime := Nat.lt_of_not_le hdue
      have hall : ∀ n ∈ u :: l, startTime < n.responseTime :=
        List.forall_mem_cons.mpr ⟨hlt, fun n hn => hlt.trans_le (hu n hn)⟩
      refine ⟨.inl ⟨rfl, hall⟩, .inr ⟨hlt, ?_⟩⟩
      exact List.forall_mem_cons.mpr ⟨.inr (Nat.le_refl _), fun n hn => .inr (hu n hn)⟩

end

section

variable [ExpireConfig] {l : List SortLinkList} {startTime : Nat}

theorem osGetSortLinkNextExpireTime_spec (hl : Sorted l) (hpos : ∀ n ∈ l, 0 < n.responseTime)
    (hstart : startTime ≤ 2 ^ 64 - 1) :
    startTime ≤ osGetSortLinkNextExpireTime l startTime ∧
      ∀ n ∈ l, osGetSortLinkNextExpireTime l startTime ≤ max n.responseTime (startTime + osUsPerTick) := by
  unfold osGetSortLinkNextExpireTime
  by_cases hnil : l = []
  · rw [if_pos hnil, hnil]
    exact ⟨hstart, nofun⟩
  rw [if_neg hnil]
  obtain ⟨u, hu⟩ := List.exists_mem_of_ne_nil l hnil
  obtain ⟨hfirst, hnext⟩ := expireScan_spec hl startTime 0
  generalize expireScan startTime l 0 = r at hfirst hnext
  dsimp only
  rcases hfirst with ⟨hzero, hlate⟩ | ⟨hdue, n, hn, hle⟩
  · rcases hnext with ⟨_, hearly⟩ | ⟨hlt, hbehind⟩
    · exact absurd (hlate u hu) (Nat.not_lt.mpr (hearly u hu))
    · rw [if_pos hzero]
      refine ⟨hlt.le, fun n hn => ?_⟩
      have hlate := hlate n hn
      have hbehind := hbehind n hn
      omega
  · have hpast : startTime ≠ 0 := by
      have hpos := hpos n hn
      omega
    rw [hdue, if_neg hpast]
    rcases hnext with ⟨hzero, _⟩ | ⟨hlt, _⟩
    · rw [if_pos hzero]
      exact ⟨Nat.le_refl _, fun n _ => by omega⟩
    · rw [if_neg (by omega)]
      split <;> exact ⟨by omega, fun n _ => by omega⟩

/-! ### Arming the tick -/

variable {s s' : ExpireState} {n : SortLinkList} {responseID taskEndTime t : Nat} {args : TickArgs}

structure LinksOk (s : ExpireState) : Prop where
  tasks : Sorted s.taskSortLink
  timers : Sorted s.swtmrSortLink
  positive : ∀ n ∈ s.links, 0 < n.responseTime

/-- Every slice that a task is entered with is left over. -/
structure TasksOk (s : ExpireState) : Prop where
  started : s.startTime s.runTask ≤ s.now
  slices : ∀ t, s.ready t = true → t ≠ s.runTask → 0 ≤ s.timeSlice t
  stays : s.ready s.runTask = true → s.leaving = .stay
  idle : s.ready gIdleTaskID = false

structure Timed (s : ExpireState) : Prop extends LinksOk s, TasksOk s where
  ahead : s.now ≤ s.gSchedResponseTime
  bounded : s.gSchedResponseTime ≤ osSchedMaxResponseTime
  reloads : ∀ nextResponseTime ∈ s.reloads,
    osCyclePerTick ≤ nextResponseTime ∧ nextResponseTime ≤ osTickResponseTimeMax

/-- The armed tick comes in time for every entry. -/
def Close (s : ExpireState) : Prop :=
  ∀ n ∈ s.links, s.gSchedResponseTime ≤ n.responseTime + 2 * osCyclePerTick + osUsPerTick

/-- Arming now comes in time for every entry. -/
def Covered (s : ExpireState) : Prop :=
  ∀ n ∈ s.links, s.gSchedResponseTime ≤ n.responseTime + 2 * osCyclePerTick + osUsPerTick ∨
    s.now ≤ n.responseTime + osCyclePerTick

theorem Close.covered (h : Close s) : Covered s := fun n hn => .inl (h n hn)

theorem osGetNextExpireTime_spec (h : LinksOk s) (hstart : startTime ≤ 2 ^ 64 - 1) :
    startTime ≤ osGetNextExpireTime s startTime ∧
      ∀ n ∈ s.links, osGetNextExpireTime s startTime ≤ max n.responseTime (startTime + osUsPerTick) := by
  obtain ⟨htask, htasks⟩ := osGetSortLinkNextExpireTime_spec h.tasks
    (fun n hn => h.positive n (List.mem_append_left _ hn)) hstart
  obtain ⟨hswtmr, hswtmrs⟩ := osGetSortLinkNextExpireTime_spec h.timers
    (fun n hn => h.positive n (List.mem_append_right _ hn)) hstart
  unfold osGetNextExpireTime
  dsimp only
  refine ⟨by split <;> assumption, fun n hn => ?_⟩
  rcases List.mem_append.mp hn with hn | hn
  · have := htasks n hn
    split <;> omega
  · have := hswtmrs n hn
    split <;> omega

/-- A tick that comes no later than everything that is waited for stays armed. -/
theorem osSchedSetNextExpireTime_keeps (h : LinksOk s) (hstart : startTime ≤ 2 ^ 64 - 1)
    (hend : startTime ≤ taskEndTime) (hearly : s.gSchedResponseTime ≤ startTime) :
    osSchedSetNextExpireTime s startTime responseID taskEndTime = some s := by
  obtain ⟨hnow, -⟩ := osGetNextExpireTime_spec h hstart
  unfold osSchedSetNextExpireTime
  dsimp only
  generalize osGetNextExpireTime s startTime = expireTime at hnow
  refine if_neg fun hless => ?_
  have hless := hless.1
  split at hless <;> omega

theorem osSchedSetNextExpireTime_spec (hcycle : osCyclePerTick ≤ osTickResponseTimeMax) (h : LinksOk s)
    (hstart : startTime ≤ 2 ^ 64 - 1) (hend : startTime ≤ taskEndTime)
    (hahead : startTime ≤ s.gSchedResponseTime) (responseID : Nat) :
    ∃ responseTime id sleepTime reloads,
      osSchedSetNextExpireTime s startTime responseID taskEndTime = some { s with
        gSchedResponseTime := responseTime
        gSchedResponseID := id
        gSchedSleepTime := sleepTime
        reloads := reloads } ∧
      startTime ≤ responseTime ∧ responseTime ≤ s.gSchedResponseTime ∧
      (∀ n ∈ s.links, responseTime ≤ max n.responseTime (startTime + osUsPerTick) + osCyclePerTick) ∧
      ∀ x ∈ reloads, x ∈ s.reloads ∨ osCyclePerTick ≤ x ∧ x ≤ osTickResponseTimeMax := by
  obtain ⟨hnow, hlinks⟩ := osGetNextExpireTime_spec h hstart
  unfold osSchedSetNextExpireTime
  dsimp only
  generalize osGetNextExpireTime s startTime = expireTime at hnow hlinks
  generalize hnext : (if decide (taskEndTime < expireTime) = true then taskEndTime else expireTime) = nextExpireTime
  generalize (if decide (taskEndTime < expireTime) = true then some responseID else none) = id
  have hfrom : startTime ≤ nextExpireTime ∧ nextExpireTime ≤ expireTime := by
    rw [← hnext]
    simp only [decide_eq_true_eq]
    split <;> omega
  -- a tick that is armed at most one tick after `nextExpireTime` is near enough
  have hnear : ∀ responseTime, responseTime ≤ nextExpireTime + osCyclePerTick →
      ∀ n ∈ s.links, responseTime ≤ max n.responseTime (startTime + osUsPerTick) + osCyclePerTick := by
    intro responseTime hle n hn
    have hlink := hlinks n hn
    omega
  have hkept : ∀ x ∈ s.reloads, x ∈ s.reloads ∨ osCyclePerTick ≤ x ∧ x ≤ osTickResponseTimeMax :=
    fun x hx => .inl hx
  have hreload : ∀ {reload : Nat}, osCyclePerTick ≤ reload → reload ≤ osTickResponseTimeMax →
      ∀ x ∈ reload :: s.reloads, x ∈ s.reloads ∨ osCyclePerTick ≤ x ∧ x ≤ osTickResponseTimeMax :=
    fun hlo hhi => List.forall_mem_cons.mpr ⟨.inr ⟨hlo, hhi⟩, hkept⟩
  have hsleep : ∀ sleepTime, ∃ sleep, s.setSleepTime sleepTime = { s with gSchedSleepTime := sleep } := by
    intro sleepTime
    unfold ExpireState.setSleepTime
    split
    · exact ⟨sleepTime, rfl⟩
    · exact ⟨s.gSchedSleepTime, rfl⟩
  split
  · next hearly =>
    rw [if_neg (Nat.not_lt.mpr hfrom.1)]
    split
    · next hfar =>
      obtain ⟨sleep, heq⟩ := hsleep (nextExpireTime - startTime - osCyclePerTick)
      rw [heq, if_neg (by omega)]
      exact ⟨_, _, _, _, rfl, by omega, by omega, hnear _ (by omega), hreload hcycle (Nat.le_refl _)⟩
    split
    · next hsoon =>
      obtain ⟨sleep, heq⟩ := hsleep 0
      rw [heq]
      split
      · next hsame => exact ⟨_, s.gSchedResponseID, _, _, rfl, hahead, Nat.le_refl _, hnear _ (by omega), hkept⟩
      · next hlater =>
        exact ⟨_, _, _, _, rfl, by omega, by omega, hnear _ (by omega), hreload (Nat.le_refl _) hcycle⟩
    · exact ⟨_, _, _, _, rfl, hfrom.1, by omega, hnear _ (by omega), hreload (by omega) (by omega)⟩
  · next hlate =>
    exact ⟨_, s.gSchedResponseID, s.gSchedSleepTime, _, rfl, hahead, Nat.le_refl _, hnear _ (by omega), hkept⟩

/-- What arming the tick comes to. -/
structure Rearmed (s s' : ExpireState) : Prop where
  timed : Timed s'
  earlier : s'.gSchedResponseTime ≤ s.gSchedResponseTime
  close : Covered s → Close s'

theorem osSchedSetNextExpireTime_rearms (hcycle : osCyclePerTick ≤ osTickResponseTimeMax) (h : Timed s)
    (hend : s.now ≤ taskEndTime) (responseID : Nat) :
    ∃ s', osSchedSetNextExpireTime s s.now responseID taskEndTime = some s' ∧ Rearmed s s' := by
  have hstart : s.now ≤ 2 ^ 64 - 1 := (h.ahead.trans h.bounded).trans (by decide)
  obtain ⟨responseTime, id, sleepTime, reloads, heq, hlo, hhi, hnear, hreloads⟩ :=
    osSchedSetNextExpireTime_spec hcycle h.toLinksOk hstart hend h.ahead responseID
  refine ⟨_, heq, ⟨⟨⟨h.tasks, h.timers, h.positive⟩, ⟨h.started, h.slices, h.stays, h.idle⟩, hlo,
    hhi.trans h.bounded, fun x hx => ?_⟩, hhi, fun hcovered n hn => ?_⟩⟩
  · rcases hreloads x hx with hx | hx
    · exact h.reloads x hx
    · exact hx
  · have hnear := hnear n hn
    have hcovered := hcovered n hn
    dsimp only
    omega

theorem osSchedUpdateExpireTime_end (h : Timed s) :
    s.now ≤ if s.runTask ≠ gIdleTaskID then
      ((s.now : Int) + if s.timeSlice s.runTask ≤ osTimeSliceMin then (osSchedTimeSlices : Int)
        else s.timeSlice s.runTask).toNat
    else osSchedMaxResponseTime := by
  split
  · split <;> omega
  · exact h.ahead.trans h.bounded

theorem osSchedUpdateExpireTime_keeps (h : Timed s) (hearly : s.gSchedResponseTime ≤ s.now) :
    osSchedUpdateExpireTime s s.now = some s :=
  osSchedSetNextExpireTime_keeps h.toLinksOk ((h.ahead.trans h.bounded).trans (by decide))
    (osSchedUpdateExpireTime_end h) hearly

theorem osSchedUpdateExpireTime_rearms (hcycle : osCyclePerTick ≤ osTickResponseTimeMax) (h : Timed s) :
    ∃ s', osSchedUpdateExpireTime s s.now = some s' ∧ Rearmed s s' :=
  osSchedSetNextExpireTime_rearms hcycle h (osSchedUpdateExpireTime_end h) s.runTask

/-! ### The tasks -/

theorem osSchedTaskEnQueue_spec (h : TasksOk s) (t : Nat) :
    ∃ leaving timeSlice ready, osSchedTaskEnQueue s t = { s with
        leaving := leaving
        timeSlice := timeSlice
        ready := ready } ∧
      TasksOk { s with leaving := leaving, timeSlice := timeSlice, ready := ready } ∧
      (ready t = true → 0 ≤ timeSlice t) := by
  obtain ⟨leaving, heq, hrun, hother⟩ : ∃ leaving,
      (if t = s.runTask then { s with leaving := .stay } else s) = { s with leaving := leaving } ∧
      (t = s.runTask → leaving = .stay) ∧ (t ≠ s.runTask → leaving = s.leaving) := by
    by_cases ht : t = s.runTask
    · exact ⟨.stay, if_pos ht, fun _ => rfl, fun h => absurd ht h⟩
    · exact ⟨s.leaving, if_neg ht, fun h => absurd h ht, fun _ => rfl⟩
  have hstays : (t = s.runTask ∨ s.ready s.runTask = true) → leaving = .stay := by
    intro hready
    by_cases ht : t = s.runTask
    · exact hrun ht
    · rw [hother ht]
      exact h.stays (hready.resolve_left ht)
  unfold osSchedTaskEnQueue
  dsimp only
  rw [heq]
  by_cases hidle : t = gIdleTaskID
  · refine ⟨leaving, s.timeSlice, s.ready, if_neg (not_not.mpr hidle), ?_, fun hready => ?_⟩
    · exact ⟨h.started, h.slices, fun hready => hstays (.inr hready), h.idle⟩
    · rw [hidle, h.idle] at hready
      cases hready
  refine ⟨leaving, _, _, if_pos hidle, ?_⟩
  generalize hslice : (if (osTimeSliceMin : Int) < s.timeSlice t then s.timeSlice
    else Function.update s.timeSlice t osSchedTimeSlices) = timeSlice
  have hself : 0 ≤ timeSlice t := by
    rw [← hslice]
    split
    · omega
    · rw [Function.update_self]
      omega
  have hslices : ∀ u, u ≠ t → timeSlice u = s.timeSlice u := by
    intro u hu
    rw [← hslice]
    split
    · rfl
    · exact Function.update_of_ne hu ..
  have hready : ∀ u, Function.update s.ready t true u = true → u = t ∨ u ≠ t ∧ s.ready u = true := by
    intro u hu
    by_cases hut : u = t
    · exact .inl hut
    · rw [Function.update_of_ne hut] at hu
      exact .inr ⟨hut, hu⟩
  refine ⟨⟨h.started, fun u hu hne => ?_, fun hr => hstays ?_, ?_⟩, fun _ => hself⟩
  · rcases hready u hu with rfl | ⟨hut, hu⟩
    · exact hself
    · dsimp only
      rw [hslices u hut]
      exact h.slices u hu hne
  · exact (hready _ hr).imp Eq.symm And.right
  · exact (Function.update_of_ne (Ne.symm hidle) ..).trans h.idle

theorem osTimeSliceUpdate_spec (h : Timed s) :
    ∃ timeSlice startTime, osTimeSliceUpdate s s.runTask s.now = some { s with
        timeSlice := timeSlice
        startTime := startTime } ∧
      Timed { s with timeSlice := timeSlice, startTime := startTime } ∧ startTime s.runTask = s.now := by
  unfold osTimeSliceUpdate
  rw [if_neg (Nat.not_lt.mpr h.started)]
  have hstart : Function.update s.startTime s.runTask s.now s.runTask = s.now := Function.update_self ..
  refine ⟨_, _, rfl, ⟨⟨h.tasks, h.timers, h.positive⟩, ⟨hstart.le, fun u hu hne => ?_, h.stays, h.idle⟩,
    h.ahead, h.bounded, h.reloads⟩, hstart⟩
  dsimp only at hne ⊢
  split
  · exact h.slices u hu hne
  · rw [Function.update_of_ne hne]
    exact h.slices u hu hne

omit [ExpireConfig] in
theorem ready_of_dequeued {ready : Nat → Bool} {u : Nat} (h : Function.update ready t false u = true) :
    ready u = true := by
  by_cases hut : u = t
  · rw [hut, Function.update_self] at h
    cases h
  · rwa [Function.update_of_ne hut] at h

/-- The running task goes on the sort link, into the ready queue or nowhere. -/
structure Left (s s' : ExpireState) : Prop where
  links : LinksOk s'
  covered : Covered s → Covered s'
  same : ∃ taskSortLink leaving timeSlice ready, s' = { s with
    taskSortLink := taskSortLink
    leaving := leaving
    timeSlice := timeSlice
    ready := ready }
  slices : ∀ u, s'.ready u = true → 0 ≤ s'.timeSlice u
  idle : s'.ready gIdleTaskID = false

theorem osAdd2SortLink_mem {owner waitTicks : Nat}
    (hn : n ∈ osAdd2SortLink l owner startTime waitTicks) :
    n = ⟨owner, startTime + waitTicks * osCyclePerTick⟩ ∨ n ∈ l :=
  List.mem_cons.mp ((osAddNode2SortLink_perm l _).mem_iff.mp hn)

theorem leaveTask_spec (h : Timed s) (hstart : s.startTime s.runTask = s.now) : Left s (leaveTask s) := by
  unfold leaveTask
  cases hleaving : s.leaving with
  | wait waitTimes =>
    have hout : ∀ u, s.ready u = true → u ≠ s.runTask := by
      rintro u hu rfl
      cases hleaving.symm.trans (h.stays hu)
    have hpos := Nat.mul_pos waitTimes.2 cycle_pos
    dsimp only
    refine ⟨⟨osAddNode2SortLink_sorted h.tasks, h.timers, fun n hn => ?_⟩, fun hcovered n hn => ?_,
      ⟨_, .wait waitTimes, s.timeSlice, s.ready, rfl⟩, fun u hu => h.slices u hu (hout u hu), h.idle⟩
    · rcases List.mem_append.mp hn with hn | hn
      · rcases osAdd2SortLink_mem hn with rfl | hn
        · exact Nat.add_pos_right _ hpos
        · exact h.positive n (List.mem_append_left _ hn)
      · exact h.positive n (List.mem_append_right _ hn)
    · rcases List.mem_append.mp hn with hn | hn
      · rcases osAdd2SortLink_mem hn with rfl | hn
        · right
          dsimp only
          omega
        · exact hcovered n (List.mem_append_left _ hn)
      · exact hcovered n (List.mem_append_right _ hn)
  | stop =>
    have hout : ∀ u, s.ready u = true → u ≠ s.runTask := by
      rintro u hu rfl
      cases hleaving.symm.trans (h.stays hu)
    exact ⟨h.toLinksOk, id, ⟨s.taskSortLink, s.leaving, s.timeSlice, s.ready, rfl⟩,
      fun u hu => h.slices u hu (hout u hu), h.idle⟩
  | stay =>
    obtain ⟨leaving, timeSlice, ready, heq, htasks, hslice⟩ := osSchedTaskEnQueue_spec h.toTasksOk s.runTask
    dsimp only
    rw [heq]
    refine ⟨⟨h.tasks, h.timers, h.positive⟩, id, ⟨s.taskSortLink, leaving, timeSlice, ready, rfl⟩,
      fun u hu => ?_, htasks.idle⟩
    by_cases hrun : u = s.runTask
    · subst hrun
      exact hslice hu
    · exact htasks.slices u hu hrun

theorem enterTask_rearms (hcycle : osCyclePerTick ≤ osTickResponseTimeMax) (h : Left s s') (hs : Timed s)
    (hstart : s.startTime s.runTask = s.now) {newTask : Nat}
    (hnew : newTask = gIdleTaskID ∨ s'.ready newTask = true) :
    ∃ s'', enterTask s' newTask = some s'' ∧ Rearmed s s'' := by
  obtain ⟨hlinks, hcovered, ⟨taskSortLink, leaving, timeSlice, ready, rfl⟩, hslices, hidle⟩ := h
  have hentered : Timed { s with
      taskSortLink := taskSortLink
      leaving := .stay
      timeSlice := timeSlice
      ready := Function.update ready newTask false
      startTime := Function.update s.startTime newTask (s.startTime s.runTask)
      runTask := newTask } := by
    refine ⟨⟨hlinks.tasks, hlinks.timers, hlinks.positive⟩, ⟨?_, fun u hu _ => ?_, fun _ => rfl, ?_⟩,
      hs.ahead, hs.bounded, hs.reloads⟩
    · dsimp only
      rw [Function.update_self, hstart]
    · exact hslices u (ready_of_dequeued hu)
    · exact Bool.eq_false_iff.mpr fun hr => Bool.eq_false_iff.mp hidle (ready_of_dequeued hr)
  unfold enterTask osSchedTaskDeQueue
  dsimp only
  have hnow : Function.update s.startTime newTask (s.startTime s.runTask) newTask = s.now := by
    rw [Function.update_self, hstart]
  rw [hnow]
  have hend : s.now ≤ if newTask ≠ gIdleTaskID then ((s.now : Int) + timeSlice newTask).toNat
      else osSchedMaxResponseTime := by
    split
    · next hne =>
      have hslice := hslices newTask (hnew.resolve_left hne)
      dsimp only at hslice
      omega
    · exact hs.ahead.trans hs.bounded
  obtain ⟨s'', heq, harmed⟩ := osSchedSetNextExpireTime_rearms hcycle hentered hend newTask
  exact ⟨s'', heq, harmed.timed, harmed.earlier, fun h => harmed.close (hcovered h)⟩

theorem osSchedTaskSwitch_rearms (hcycle : osCyclePerTick ≤ osTickResponseTimeMax) (h : Timed s) (first : Nat) :
    ∃ s', osSchedTaskSwitch s first = some s' ∧ Rearmed s s' := by
  obtain ⟨timeSlice, startTime, heq, h₁, hstart⟩ := osTimeSliceUpdate_spec h
  unfold osSchedTaskSwitch
  rw [heq]
  generalize hs₁ : { s with timeSlice := timeSlice, startTime := startTime } = s₁ at h₁
  have hstart₁ : s₁.startTime s₁.runTask = s₁.now := by
    subst hs₁
    exact hstart
  have hleft := leaveTask_spec h₁ hstart₁
  have htop : osGetTopTask (leaveTask s₁) first = gIdleTaskID ∨
      (leaveTask s₁).ready (osGetTopTask (leaveTask s₁) first) = true := by
    unfold osGetTopTask
    split
    · next hready => exact .inr hready
    · exact .inl rfl
  obtain ⟨s', hs', harmed⟩ := enterTask_rearms hcycle hleft h₁ hstart₁ htop
  subst hs₁
  exact ⟨s', hs', harmed.timed, harmed.earlier, harmed.close⟩

/-! ### The timers and the scans -/

theorem Timed.enqueue (h : Timed s) (t : Nat) : Timed (osSchedTaskEnQueue s t) ∧
    (osSchedTaskEnQueue s t).now = s.now ∧
    (osSchedTaskEnQueue s t).gSchedResponseTime = s.gSchedResponseTime ∧
    (osSchedTaskEnQueue s t).taskSortLink = s.taskSortLink ∧
    (osSchedTaskEnQueue s t).swtmrSortLink = s.swtmrSortLink := by
  obtain ⟨leaving, timeSlice, ready, heq, hok, -⟩ := osSchedTaskEnQueue_spec h.toTasksOk t
  rw [heq]
  exact ⟨⟨⟨h.tasks, h.timers, h.positive⟩, hok, h.ahead, h.bounded, h.reloads⟩, rfl, rfl, rfl, rfl⟩

omit [ExpireConfig] in
theorem osDeleteSortLink_links {owner : Nat}
    (hn : n ∈ osDeleteSortLink s.taskSortLink owner ++ s.swtmrSortLink) : n ∈ s.links := by
  rcases List.mem_append.mp hn with hn | hn
  · exact List.mem_append_left _ (osDeleteSortLink_mem hn)
  · exact List.mem_append_right _ hn

theorem Timed.cancel (h : Timed s) (t : Nat) :
    Timed { s with taskSortLink := osDeleteSortLink s.taskSortLink t } := by
  refine ⟨⟨osDeleteSortLink_sorted h.tasks, h.timers, fun n hn => h.positive n (osDeleteSortLink_links hn)⟩,
    ⟨h.started, h.slices, h.stays, h.idle⟩, h.ahead, h.bounded, h.reloads⟩

theorem Timed.addTimer (h : Timed s) (swtmr : Nat) (uwCount : Ticks) :
    Timed { s with swtmrSortLink := osAdd2SortLink s.swtmrSortLink swtmr s.now uwCount } := by
  have hpos := Nat.mul_pos uwCount.2 cycle_pos
  refine ⟨⟨h.tasks, osAddNode2SortLink_sorted h.timers, fun n hn => ?_⟩,
    ⟨h.started, h.slices, h.stays, h.idle⟩, h.ahead, h.bounded, h.reloads⟩
  rcases List.mem_append.mp hn with hn | hn
  · exact h.positive n (List.mem_append_left _ hn)
  · rcases osAdd2SortLink_mem hn with rfl | hn
    · exact Nat.add_pos_right _ hpos
    · exact h.positive n (List.mem_append_right _ hn)

def dueCount (now : Nat) (l : List SortLinkList) : Nat := l.countP fun n => decide (n.responseTime ≤ now)

theorem osSwtmrTimeoutHandle_spec (args : TickArgs) (h : Timed s)
    (hearly : s.gSchedResponseTime ≤ s.now) (swtmr : Nat) :
    ∃ s', osSwtmrTimeoutHandle s args swtmr = some s' ∧ Timed s' ∧ s'.now = s.now ∧
      s'.gSchedResponseTime = s.gSchedResponseTime ∧
      dueCount s.now s'.swtmrSortLink = dueCount s.now s.swtmrSortLink := by
  unfold osSwtmrTimeoutHandle
  obtain ⟨h₁, hnow, htime, hlink⟩ : Timed (losQueueWriteCopy s (args.reader swtmr)) ∧
      (losQueueWriteCopy s (args.reader swtmr)).now = s.now ∧
      (losQueueWriteCopy s (args.reader swtmr)).gSchedResponseTime = s.gSchedResponseTime ∧
      (losQueueWriteCopy s (args.reader swtmr)).swtmrSortLink = s.swtmrSortLink := by
    cases args.reader swtmr with
    | none => exact ⟨h, rfl, rfl, rfl⟩
    | some resumedTask =>
      obtain ⟨hwake, hnow, htime, -, hlink⟩ := (h.cancel resumedTask).enqueue resumedTask
      exact ⟨hwake, hnow, htime, hlink⟩
  generalize losQueueWriteCopy s (args.reader swtmr) = s₁ at h₁ hnow htime hlink
  dsimp only
  cases hr : args.restart swtmr with
  | none => exact ⟨s₁, rfl, h₁, hnow, htime, by rw [hlink]⟩
  | some uwCount =>
    have hpos := Nat.mul_pos uwCount.2 cycle_pos
    have h₂ := h₁.addTimer swtmr uwCount
    refine ⟨_, osSchedUpdateExpireTime_keeps h₂ ?_, h₂, hnow, htime, ?_⟩
    · dsimp only
      rw [hnow, htime]
      exact hearly
    · unfold dueCount osAdd2SortLink
      rw [(osAddNode2SortLink_perm _ _).countP_eq, List.countP_cons_of_neg, hlink]
      dsimp only
      rw [decide_eq_true_eq]
      omega

omit [ExpireConfig] in
theorem not_due_of_head {x : SortLinkList} {rest : List SortLinkList} {now : Nat} (hl : Sorted (x :: rest))
    (hx : ¬ x.responseTime ≤ now) : ∀ n ∈ x :: rest, now < n.responseTime :=
  List.forall_mem_cons.mpr ⟨Nat.lt_of_not_le hx, fun n hn =>
    (Nat.lt_of_not_le hx).trans_le ((List.pairwise_cons.mp hl).1 n hn)⟩

omit [ExpireConfig] in
theorem not_due_of_count {now : Nat} (h : dueCount now l = 0) : ∀ n ∈ l, now < n.responseTime := by
  intro n hn
  have hnot := List.countP_eq_zero.mp h n hn
  rw [decide_eq_true_eq] at hnot
  exact Nat.lt_of_not_le hnot

theorem osSwtmrScan_spec (args : TickArgs) (fuel : Nat) (h : Timed s)
    (hearly : s.gSchedResponseTime ≤ s.now) (hfuel : dueCount s.now s.swtmrSortLink ≤ fuel) :
    ∃ s' needSchedule, osSwtmrScan args fuel s = some (s', needSchedule) ∧ Timed s' ∧ s'.now = s.now ∧
      s'.gSchedResponseTime = s.gSchedResponseTime ∧ ∀ n ∈ s'.swtmrSortLink, s.now < n.responseTime := by
  induction fuel generalizing s with
  | zero => exact ⟨s, false, rfl, h, rfl, rfl, not_due_of_count (Nat.le_zero.mp hfuel)⟩
  | succ fuel ih =>
    unfold osSwtmrScan
    cases hlist : s.swtmrSortLink with
    | nil =>
      refine ⟨s, false, rfl, h, rfl, rfl, ?_⟩
      rw [hlist]
      nofun
    | cons sortList list =>
      have htimers := h.timers
      rw [hlist] at htimers hfuel
      dsimp only
      by_cases hdue : sortList.responseTime ≤ s.now
      · rw [if_pos hdue]
        have h₁ : Timed { s with swtmrSortLink := list } := by
          refine ⟨⟨h.tasks, (List.pairwise_cons.mp htimers).2, fun n hn => h.positive n ?_⟩,
            ⟨h.started, h.slices, h.stays, h.idle⟩, h.ahead, h.bounded, h.reloads⟩
          rcases List.mem_append.mp hn with hn | hn
          · exact List.mem_append_left _ hn
          · refine List.mem_append_right _ ?_
            rw [hlist]
            exact List.mem_cons_of_mem _ hn
        obtain ⟨s₂, heq, h₂, hnow, htime, hcount⟩ :=
          osSwtmrTimeoutHandle_spec args h₁ hearly sortList.owner
        dsimp only at hnow htime hcount
        have hfuel₂ : dueCount s₂.now s₂.swtmrSortLink ≤ fuel := by
          have hless : dueCount s.now (sortList :: list) = dueCount s.now list + 1 :=
            List.countP_cons_of_pos (decide_eq_true hdue)
          rw [hnow, hcount]
          omega
        have hearly₂ : s₂.gSchedResponseTime ≤ s₂.now := by
          rw [htime, hnow]
          exact hearly
        obtain ⟨s', needSchedule, hscan, h', hnow', htime', hnone⟩ := ih h₂ hearly₂ hfuel₂
        refine ⟨s', true, ?_, h', hnow'.trans hnow, htime'.trans htime, ?_⟩
        · rw [heq]
          exact congrArg (Option.bind · _) hscan
        · rw [hnow] at hnone
          exact hnone
      · rw [if_neg hdue]
        refine ⟨s, false, rfl, h, rfl, rfl, ?_⟩
        rw [hlist]
        exact not_due_of_head htimers hdue

theorem osSchedScanTimerList_spec (args : TickArgs) (fuel : Nat) (h : Timed s)
    (hfuel : s.taskSortLink.length ≤ fuel) :
    ∃ s' needSchedule, osSchedScanTimerList args fuel s = (s', needSchedule) ∧ Timed s' ∧ s'.now = s.now ∧
      s'.swtmrSortLink = s.swtmrSortLink ∧ ∀ n ∈ s'.taskSortLink, s.now < n.responseTime := by
  induction fuel generalizing s with
  | zero =>
    refine ⟨s, false, rfl, h, rfl, rfl, ?_⟩
    rw [List.length_eq_zero_iff.mp (Nat.le_zero.mp hfuel)]
    nofun
  | succ fuel ih =>
    unfold osSchedScanTimerList
    cases hlist : s.taskSortLink with
    | nil =>
      refine ⟨s, false, rfl, h, rfl, rfl, ?_⟩
      rw [hlist]
      nofun
    | cons sortList list =>
      have htasks := h.tasks
      rw [hlist] at htasks hfuel
      dsimp only
      by_cases hdue : sortList.responseTime ≤ s.now
      · rw [if_pos hdue]
        have h₁ : Timed { s with taskSortLink := list } := by
          refine ⟨⟨(List.pairwise_cons.mp htasks).2, h.timers, fun n hn => h.positive n ?_⟩,
            ⟨h.started, h.slices, h.stays, h.idle⟩, h.ahead, h.bounded, h.reloads⟩
          rcases List.mem_append.mp hn with hn | hn
          · refine List.mem_append_left _ ?_
            rw [hlist]
            exact List.mem_cons_of_mem _ hn
          · exact List.mem_append_right _ hn
        have hfuel₁ : list.length ≤ fuel := Nat.le_of_succ_le_succ hfuel
        split
        · exact ih h₁ hfuel₁
        · obtain ⟨h₂, hnow, -, hlink, hswtmr⟩ := h₁.enqueue sortList.owner
          obtain ⟨s', _, heq, h', hnow', hswtmr', hnone⟩ := ih h₂ (by rw [hlink]; exact hfuel₁)
          refine ⟨s', true, by rw [heq], h', hnow'.trans hnow, hswtmr'.trans hswtmr, ?_⟩
          rw [hnow] at hnone
          exact hnone
      · rw [if_neg hdue]
        refine ⟨s, false, rfl, h, rfl, rfl, ?_⟩
        rw [hlist]
        exact not_due_of_head htasks hdue

/-- After its scans a tick finds nothing due. One that was armed for the end of a slice scans nothing. -/
theorem tickScan_spec (args : TickArgs) (h : Timed s)
    (hearly : s.gSchedResponseTime ≤ s.now) :
    ∃ s' needSched, tickScan s args = some (s', needSched) ∧ Timed s' ∧ s'.now = s.now ∧
      (s.gSchedResponseID = none ∧ (∀ n ∈ s'.links, s.now < n.responseTime) ∨
        s.gSchedResponseID ≠ none ∧ s'.links = s.links) := by
  unfold tickScan
  by_cases hid : s.gSchedResponseID = none
  · rw [if_pos hid]
    obtain ⟨s₁, needSched₁, heq₁, h₁, hnow₁, -, hnone₁⟩ :=
      osSwtmrScan_spec args s.swtmrSortLink.length h hearly List.countP_le_length
    obtain ⟨s₂, needSched₂, heq₂, h₂, hnow₂, hlink, hnone₂⟩ :=
      osSchedScanTimerList_spec args s₁.taskSortLink.length h₁ (Nat.le_refl _)
    refine ⟨s₂, needSched₁ || needSched₂, ?_, h₂, hnow₂.trans hnow₁, .inl ⟨hid, fun n hn => ?_⟩⟩
    · rw [heq₁]
      dsimp only [Option.bind_eq_bind, Option.bind_some]
      rw [heq₂]
    · rcases List.mem_append.mp hn with hn | hn
      · rw [← hnow₁]
        exact hnone₂ n hn
      · rw [hlink] at hn
        exact hnone₁ n hn
  · rw [if_neg hid]
    exact ⟨s, false, rfl, h, rfl, .inr ⟨hid, rfl⟩⟩

theorem losSchedTickHandler_spec (hcycle : osCyclePerTick ≤ osTickResponseTimeMax)
    (args : TickArgs) (h : Timed s)
    (hearly : s.gSchedResponseTime ≤ s.now) :
    ∃ s', losSchedTickHandler s args = some s' ∧ Timed s' ∧
      ((s.gSchedResponseID ≠ none → ∀ n ∈ s.links, s.now ≤ n.responseTime + osCyclePerTick) →
        Close s') := by
  obtain ⟨s₁, needSched, heq, h₁, hnow, hlinks⟩ := tickScan_spec args h hearly
  have h₂ : Timed { s₁ with gSchedResponseTime := osSchedMaxResponseTime } :=
    ⟨⟨h₁.tasks, h₁.timers, h₁.positive⟩, ⟨h₁.started, h₁.slices, h₁.stays, h₁.idle⟩,
      h₁.ahead.trans h₁.bounded, Nat.le_refl _, h₁.reloads⟩
  have hcovered : (s.gSchedResponseID ≠ none → ∀ n ∈ s.links, s.now ≤ n.responseTime + osCyclePerTick) →
      Covered { s₁ with gSchedResponseTime := osSchedMaxResponseTime } := by
    intro hheld n hn
    right
    dsimp only
    rw [hnow]
    rcases hlinks with ⟨-, hnone⟩ | ⟨hid, hsame⟩
    · exact (hnone n hn).le.trans (Nat.le_add_right _ _)
    · exact hheld hid n (hsame ▸ hn)
  unfold losSchedTickHandler
  rw [heq]
  dsimp only [Option.bind_eq_bind, Option.bind_some]
  split
  · obtain ⟨s', hs', harmed⟩ := osSchedTaskSwitch_rearms hcycle h₂ args.first
    exact ⟨s', hs', harmed.timed, fun hheld => harmed.close (hcovered hheld)⟩
  · obtain ⟨timeSlice, startTime, hup, h₃, -⟩ := osTimeSliceUpdate_spec h₂
    rw [hup]
    dsimp only [Option.bind_some]
    obtain ⟨s', hs', harmed⟩ := osSchedUpdateExpireTime_rearms hcycle h₃
    exact ⟨s', hs', harmed.timed, fun hheld => harmed.close (hcovered hheld)⟩

/-! ### The runs -/

structure ExpireInv (s : ExpireState) : Prop extends Timed s where
  close : Close s

theorem expireStep_spec {event : ExpireEvent} (hcycle : osCyclePerTick ≤ osTickResponseTimeMax) (h : Timed s)
    (hen : Enabled s event) :
    ∃ s', expireStep s event = some s' ∧ Timed s' ∧
      ((∀ args, event ≠ .tick args) → s'.gSchedResponseTime ≤ s.gSchedResponseTime) ∧
      (Close s → Held s event → Close s') := by
  cases event with
  | advance cycles =>
    refine ⟨_, rfl, ⟨⟨h.tasks, h.timers, h.positive⟩, ⟨?_, h.slices, h.stays, h.idle⟩, hen,
      h.bounded, h.reloads⟩, fun _ => Nat.le_refl _, fun hclose _ => hclose⟩
    exact h.started.trans (Nat.le_add_right _ _)
  | tick args =>
    obtain ⟨s', heq, h', hclose⟩ := losSchedTickHandler_spec hcycle args h hen.ge
    exact ⟨s', heq, h', fun hne => absurd rfl (hne args), fun _ => hclose⟩
  | switch first =>
    obtain ⟨s', heq, harmed⟩ := osSchedTaskSwitch_rearms hcycle h first
    exact ⟨s', heq, harmed.timed, fun _ => harmed.earlier, fun hclose _ => harmed.close hclose.covered⟩
  | leave leaving =>
    refine ⟨_, rfl, ⟨⟨h.tasks, h.timers, h.positive⟩, ⟨h.started, h.slices, fun hr => ?_, h.idle⟩,
      h.ahead, h.bounded, h.reloads⟩, fun _ => Nat.le_refl _, fun hclose _ => hclose⟩
    cases hen.symm.trans hr
  | yield =>
    refine ⟨_, rfl, ⟨⟨h.tasks, h.timers, h.positive⟩, ⟨h.started, fun u hu hne => ?_, h.stays, h.idle⟩,
      h.ahead, h.bounded, h.reloads⟩, fun _ => Nat.le_refl _, fun hclose _ => hclose⟩
    dsimp only
    rw [Function.update_of_ne hne]
    exact h.slices u hu hne
  | swtmrStart swtmr uwCount =>
    obtain ⟨s', heq, harmed⟩ := osSchedUpdateExpireTime_rearms hcycle (h.addTimer swtmr uwCount)
    refine ⟨s', heq, harmed.timed, fun _ => harmed.earlier, fun hclose _ => harmed.close fun n hn => ?_⟩
    rcases List.mem_append.mp hn with hn | hn
    · exact .inl (hclose n (List.mem_append_left _ hn))
    · rcases osAdd2SortLink_mem hn with rfl | hn
      · right
        dsimp only
        omega
      · exact .inl (hclose n (List.mem_append_right _ hn))
  | swtmrStop swtmr =>
    have hsub : ∀ n, n ∈ s.taskSortLink ++ osDeleteSortLink s.swtmrSortLink swtmr → n ∈ s.links := by
      intro n hn
      rcases List.mem_append.mp hn with hn | hn
      · exact List.mem_append_left _ hn
      · exact List.mem_append_right _ (osDeleteSortLink_mem hn)
    have h₁ : Timed { s with swtmrSortLink := osDeleteSortLink s.swtmrSortLink swtmr } :=
      ⟨⟨h.tasks, osDeleteSortLink_sorted h.timers, fun n hn => h.positive n (hsub n hn)⟩,
        ⟨h.started, h.slices, h.stays, h.idle⟩, h.ahead, h.bounded, h.reloads⟩
    obtain ⟨s', heq, harmed⟩ := osSchedUpdateExpireTime_rearms hcycle h₁
    exact ⟨s', heq, harmed.timed, fun _ => harmed.earlier,
      fun hclose _ => harmed.close fun n hn => .inl (hclose n (hsub n hn))⟩
  | wake taskCB =>
    obtain ⟨h', -, htime, hlink, hswtmr⟩ := (h.cancel taskCB).enqueue taskCB
    refine ⟨osSchedTaskEnQueue { s with taskSortLink := osDeleteSortLink s.taskSortLink taskCB } taskCB, rfl, h',
      fun _ => htime.le, fun hclose _ n hn => ?_⟩
    rw [htime]
    unfold ExpireState.links at hn
    rw [hlink, hswtmr] at hn
    exact hclose n (osDeleteSortLink_links hn)
  | exit taskCB =>
    have h₁ := h.cancel taskCB
    refine ⟨_, rfl, ⟨⟨h₁.tasks, h₁.timers, h₁.positive⟩,
      ⟨h.started, fun u hu hne => h.slices u (ready_of_dequeued hu) hne, fun hr => h.stays (ready_of_dequeued hr),
        ?_⟩, h.ahead, h.bounded, h.reloads⟩, fun _ => Nat.le_refl _,
      fun hclose _ n hn => hclose n (osDeleteSortLink_links hn)⟩
    exact Bool.eq_false_iff.mpr fun hr => Bool.eq_false_iff.mp h.idle (ready_of_dequeued hr)

theorem ExpireInv.latencyBounded (hcycle : osCyclePerTick ≤ osTickResponseTimeMax) (h : ExpireInv s) :
    LatencyBounded s := by
  refine ⟨fun event s' hne hen hstep => ?_, h.reloads, fun event hen => ?_, fun n hn => ?_⟩
  · obtain ⟨s₁, heq, -, hearlier, -⟩ := expireStep_spec hcycle h.toTimed hen
    obtain rfl := Option.some.inj (heq.symm.trans hstep)
    exact hearlier hne
  · obtain ⟨s₁, heq, -⟩ := expireStep_spec hcycle h.toTimed hen
    rw [heq]
    rfl
  · exact h.ahead.trans (h.close n hn)

theorem heldStep_inv {event : ExpireEvent} (hcycle : osCyclePerTick ≤ osTickResponseTimeMax) (h : ExpireInv s)
    (hstep : heldStep s event s') : ExpireInv s' := by
  obtain ⟨⟨hen, hstep⟩, hheld⟩ := hstep
  obtain ⟨s₁, heq, h', -, hclose⟩ := expireStep_spec hcycle h.toTimed hen
  obtain rfl := Option.some.inj (heq.symm.trans hstep)
  exact ⟨h', hclose h.close hheld⟩

theorem Stopped.links (h : Stopped s) :
    Sorted s.swtmrSortLink ∧ ∀ n ∈ s.swtmrSortLink, 0 < n.responseTime := by
  obtain ⟨started, heq⟩ := h.timers
  rw [heq]
  clear heq
  have hfold : ∀ (started : List (Nat × Ticks)) (l : List SortLinkList),
      (Sorted l ∧ ∀ n ∈ l, 0 < n.responseTime) →
      Sorted (started.foldl (fun l p => osAdd2SortLink l p.1 0 p.2) l) ∧
        ∀ n ∈ started.foldl (fun l p => osAdd2SortLink l p.1 0 p.2) l, 0 < n.responseTime := by
    intro started
    induction started with
    | nil => exact fun l hl => hl
    | cons p started ih =>
      intro l hl
      refine ih _ ⟨osAddNode2SortLink_sorted hl.1, fun n hn => ?_⟩
      rcases osAdd2SortLink_mem hn with rfl | hn
      · exact Nat.add_pos_right _ (Nat.mul_pos p.2.2 cycle_pos)
      · exact hl.2 n hn
  exact hfold started [] ⟨List.Pairwise.nil, nofun⟩

theorem started_inv (hcycle : osCyclePerTick ≤ osTickResponseTimeMax) (h : Started s) : ExpireInv s := by
  obtain ⟨b, first, hb, hstart, hdue⟩ := h
  obtain ⟨hsorted, hpos⟩ := hb.links
  have hlinks : ∀ n ∈ b.links, n ∈ b.swtmrSortLink := by
    intro n hn
    unfold ExpireState.links at hn
    rwa [hb.tasks, List.nil_append] at hn
  have htop : osGetTopTask b first = gIdleTaskID ∨ b.ready (osGetTopTask b first) = true := by
    unfold osGetTopTask
    split
    · next hready => exact .inr hready
    · exact .inl rfl
  unfold osSchedStart osSchedTaskDeQueue at hstart
  dsimp only at hstart
  generalize osGetTopTask b first = newTask at hstart htop
  have hslice : 0 ≤ b.timeSlice newTask := by
    rcases htop with rfl | hready
    · exact hb.idle.1.ge
    · exact hb.slices newTask hready
  have htimed : Timed { b with
      runTask := newTask
      leaving := .stay
      startTime := Function.update b.startTime newTask b.now
      gSchedResponseTime := osSchedMaxResponseTime
      gSchedResponseID := none
      ready := Function.update b.ready newTask false } := by
    refine ⟨⟨?_, hsorted, fun n hn => hpos n (hlinks n hn)⟩,
      ⟨?_, fun u hu _ => hb.slices u (ready_of_dequeued hu), fun _ => rfl, ?_⟩, hb.clock.le, Nat.le_refl _, ?_⟩
    · rw [hb.tasks]
      exact List.Pairwise.nil
    · dsimp only
      rw [Function.update_self]
    · exact Bool.eq_false_iff.mpr fun hr => Bool.eq_false_iff.mp hb.idle.2 (ready_of_dequeued hr)
    · dsimp only
      rw [hb.reloads]
      nofun
  rw [Function.update_self] at hstart
  have hend : b.now ≤ ((b.now : Int) + b.timeSlice newTask).toNat := by omega
  obtain ⟨s', heq, harmed⟩ := osSchedSetNextExpireTime_rearms hcycle htimed hend newTask
  obtain rfl := Option.some.inj (heq.symm.trans hstart)
  exact ⟨harmed.timed, harmed.close fun n hn => .inr (hdue n (hlinks n hn))⟩

theorem enabledStep_of_next {event : ExpireEvent} (h : expireNext s event = some s') : enabledStep s event s' := by
  unfold expireNext at h
  split at h
  · next hen => exact ⟨hen, h⟩
  · cases h

theorem heldStep_of_next {event : ExpireEvent} (h : heldNext s event = some s') : heldStep s event s' := by
  unfold heldNext at h
  split at h
  · next hheld => exact ⟨enabledStep_of_next h, hheld⟩
  · cases h

end

/-- No tick is late as long as the ticks for the end of a slice find no entry overdue by more than a tick. -/
theorem losSched_latency [ExpireConfig] {s₀ s : ExpireState} {events : List ExpireEvent}
    (hcycle : osCyclePerTick ≤ osTickResponseTimeMax) (hstart : Started s₀) (hrun : Run heldStep s₀ events s) :
    LatencyBounded s :=
  (run_invariant ExpireInv (fun _ _ _ h hstep => heldStep_inv hcycle h hstep) hrun
    (started_inv hcycle hstart)).latencyBounded hcycle

/-- A clock of 100 MHz with ticks of 10 ms and slices of two ticks. -/
@[reducible] def slowTicks : ExpireConfig where
  osCyclePerTick := 1000000
  osUsPerTick := 10000
  osTickResponseTimeMax := 0xFFFFFF
  osSchedTimeSlices := 2000000
  osTimeSliceMin := 5000
  gIdleTaskID := 0
  schedSleep := false
  cycle_pos := by decide

def slowBoot : ExpireState where
  now := 0
  taskSortLink := []
  swtmrSortLink := []
  gSchedResponseTime := osSchedMaxResponseTime
  gSchedResponseID := none
  gSchedSleepTime := 0
  runTask := 0
  leaving := .stay
  timeSlice := fun t => if t = 0 then 0 else 2000000
  startTime := fun _ => 0
  ready := fun t => decide (t = 2)
  reloads := []

theorem slowBoot_stopped : @Stopped slowTicks slowBoot := by
  let _ := slowTicks
  refine ⟨rfl, ⟨[], rfl⟩, fun t _ => ?_, ⟨rfl, rfl⟩, rfl, by decide⟩
  show (0 : Int) ≤ if t = 0 then 0 else 2000000
  split <;> decide

/-- A tick that wakes nobody and starts no timer again. -/
def quietTick : ExpireEvent := .tick ⟨fun _ => none, fun _ => none, fun _ => false, true, 2⟩

/-- A timer of one tick goes off in the slice of the task `2`. -/
theorem losSched_latency_timer :
    let _ := slowTicks
    ∃ s₀ s, Started s₀ ∧
      Run heldStep s₀ [.swtmrStart 7 ⟨1, by decide⟩, .advance 1000000, quietTick] s ∧ s.links = [] ∧
      LatencyBounded s := by
  let _ := slowTicks
  have hrun : ((osSchedStart slowBoot 2).bind fun s₀ =>
      ([ExpireEvent.swtmrStart 7 ⟨1, by decide⟩, .advance 1000000, quietTick].foldlM heldNext s₀).map
        ExpireState.links) = some [] := by decide +kernel
  obtain ⟨s₀, hs₀, hrun⟩ := Option.bind_eq_some_iff.mp hrun
  obtain ⟨s, hs, hlinks⟩ := Option.map_eq_some_iff.mp hrun
  have hstart : Started s₀ := ⟨slowBoot, 2, slowBoot_stopped, hs₀, nofun⟩
  have hnext := run_of_foldlM hs
  have hheld : Run heldStep s₀ _ s := run_mono (fun _ _ _ => heldStep_of_next) hnext
  exact ⟨s₀, s, hstart, hheld, hlinks, losSched_latency (by decide) hstart hheld⟩

/-- The task `2` leaves most of its slice over, and comes back when a timer that was started in the slice of
the task `1` is nearly due: the ticks of both slices pass over it. -/
def lateRun : List ExpireEvent :=
  [.advance 994000, .leave .stop, .switch 0, .advance 1006000, quietTick,
    .advance 1000000, .wake 1, .switch 1, .advance 1, .swtmrStart 7 ⟨1, by decide⟩,
    .advance 7999, .swtmrStart 8 ⟨2, by decide⟩, .advance 992000, .wake 2, .switch 2,
    .advance 1000000, quietTick, .advance 1000000, quietTick, .advance 1000000]

theorem losSched_late :
    let _ := slowTicks
    osCyclePerTick ≤ osTickResponseTimeMax ∧
      ∃ s₀ s, Started s₀ ∧ Run enabledStep s₀ lateRun s ∧ ¬ LatencyBounded s := by
  let _ := slowTicks
  refine ⟨by decide, ?_⟩
  have hrun : ((osSchedStart slowBoot 2).bind fun s₀ => (lateRun.foldlM expireNext s₀).map fun s =>
      (s.now, s.links.map (·.responseTime))) = some (7000000, [4000001, 5008000]) := by decide +kernel
  obtain ⟨s₀, hs₀, hrun⟩ := Option.bind_eq_some_iff.mp hrun
  obtain ⟨s, hs, hval⟩ := Option.map_eq_some_iff.mp hrun
  obtain ⟨hnow, hlinks⟩ := Prod.mk.inj hval
  refine ⟨s₀, s, ⟨slowBoot, 2, slowBoot_stopped, hs₀, nofun⟩,
    run_mono (fun _ _ _ => enabledStep_of_next) (run_of_foldlM hs), fun h => ?_⟩
  obtain ⟨n, hn, htime⟩ : ∃ n ∈ s.links, n.responseTime = 4000001 := by
    apply List.mem_map.mp
    rw [hlinks]
    exact List.mem_cons_self
  have hlinked := h.linked n hn
  rw [hnow, htime] at hlinked
  exact absurd hlinked (by decide)

end LiteosM.Tick
