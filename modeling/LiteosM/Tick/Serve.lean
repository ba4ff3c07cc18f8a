import LiteosM.Tick.Latency

/-!
# What a tick serves

A tick that was armed for an entry of the sort links takes out everything that is due, one that was armed for
the end of a slice takes out nothing, and neither takes out an entry before its time.
-/

namespace LiteosM.Tick

open LiteosM.Lib.Transition ExpireConfig

/-- How the sort links go on. Only the tasks that are `woken` leave them before their time, and what comes
new is not due. -/
structure LinksMoved (woken : Nat → Prop) (s s' : ExpireState) : Prop where
  clock : s'.now = s.now
  tasks : ∀ n ∈ s'.taskSortLink, n ∈ s.taskSortLink ∨ s.now < n.responseTime
  timers : ∀ n ∈ s'.swtmrSortLink, n ∈ s.swtmrSortLink ∨ s.now < n.responseTime
  tasksKept : ∀ n ∈ s.taskSortLink, s.now < n.responseTime → ¬woken n.owner → n ∈ s'.taskSortLink
  timersKept : ∀ n ∈ s.swtmrSortLink, s.now < n.responseTime → n ∈ s'.swtmrSortLink

section

variable {woken : Nat → Prop} {s s₁ s' : ExpireState}

theorem LinksMoved.same (hclock : s'.now = s.now) (htasks : s'.taskSortLink = s.taskSortLink)
    (htimers : s'.swtmrSortLink = s.swtmrSortLink) : LinksMoved woken s s' := by
  refine ⟨hclock, fun n hn => ?_, fun n hn => ?_, fun n hn _ _ => ?_, fun n hn _ => ?_⟩
  · rw [htasks] at hn
    exact .inl hn
  · rw [htimers] at hn
    exact .inl hn
  · rwa [htasks]
  · rwa [htimers]

theorem LinksMoved.trans (h : LinksMoved woken s s₁) (h' : LinksMoved woken s₁ s') : LinksMoved woken s s' := by
  refine ⟨h'.clock.trans h.clock, fun n hn => ?_, fun n hn => ?_, fun n hn hlate hout => ?_, fun n hn hlate => ?_⟩
  · rcases h'.tasks n hn with hn | hlate
    · exact h.tasks n hn
    · rw [h.clock] at hlate
      exact .inr hlate
  · rcases h'.timers n hn with hn | hlate
    · exact h.timers n hn
    · rw [h.clock] at hlate
      exact .inr hlate
  · exact h'.tasksKept n (h.tasksKept n hn hlate hout) (by rwa [h.clock]) hout
  · exact h'.timersKept n (h.timersKept n hn hlate) (by rwa [h.clock])

end

section

variable [ExpireConfig] {woken : Nat → Prop} {s s₁ s' : ExpireState}

/-! ### Arming and switching -/

theorem osSchedSetNextExpireTime_moved {startTime responseID taskEndTime : Nat}
    (h : osSchedSetNextExpireTime s startTime responseID taskEndTime = some s') :
    s'.now = s.now ∧ s'.taskSortLink = s.taskSortLink ∧ s'.swtmrSortLink = s.swtmrSortLink := by
  have hsleep : ∀ sleepTime, (s.setSleepTime sleepTime).now = s.now ∧
      (s.setSleepTime sleepTime).taskSortLink = s.taskSortLink ∧
      (s.setSleepTime sleepTime).swtmrSortLink = s.swtmrSortLink := by
    intro sleepTime
    unfold ExpireState.setSleepTime
    split
    · exact ⟨rfl, rfl, rfl⟩
    · exact ⟨rfl, rfl, rfl⟩
  unfold osSchedSetNextExpireTime at h
  dsimp only at h
  generalize osGetNextExpireTime s startTime = expireTime at h
  generalize (if decide (taskEndTime < expireTime) = true then taskEndTime else expireTime) = nextExpireTime at h
  generalize (if decide (taskEndTime < expireTime) = true then some responseID else none) = id at h
  split at h
  · split at h
    · cases h
    split at h
    · split at h
      · cases h
      · cases h
        exact hsleep _
    split at h
    · split at h
      · cases h
        exact hsleep 0
      · cases h
        exact hsleep 0
    · cases h
      exact ⟨rfl, rfl, rfl⟩
  · cases h
    exact ⟨rfl, rfl, rfl⟩

theorem osSchedUpdateExpireTime_moved {startTime : Nat} (h : osSchedUpdateExpireTime s startTime = some s') :
    s'.now = s.now ∧ s'.taskSortLink = s.taskSortLink ∧ s'.swtmrSortLink = s.swtmrSortLink :=
  osSchedSetNextExpireTime_moved h

theorem osTimeSliceUpdate_moved (h : osTimeSliceUpdate s s.runTask s.now = some s') :
    (s'.now = s.now ∧ s'.taskSortLink = s.taskSortLink ∧ s'.swtmrSortLink = s.swtmrSortLink) ∧
      s'.startTime s'.runTask = s'.now := by
  unfold osTimeSliceUpdate at h
  split at h
  · cases h
  · cases h
    exact ⟨⟨rfl, rfl, rfl⟩, Function.update_self ..⟩

theorem osSchedTaskEnQueue_moved (s : ExpireState) (t : Nat) :
    (osSchedTaskEnQueue s t).now = s.now ∧ (osSchedTaskEnQueue s t).taskSortLink = s.taskSortLink ∧
      (osSchedTaskEnQueue s t).swtmrSortLink = s.swtmrSortLink := by
  unfold osSchedTaskEnQueue
  dsimp only
  split <;> split <;> exact ⟨rfl, rfl, rfl⟩

theorem osAdd2SortLink_moved {l : List SortLinkList} {owner startTime : Nat} {waitTicks : Ticks} :
    (∀ n ∈ osAdd2SortLink l owner startTime waitTicks, n ∈ l ∨ startTime < n.responseTime) ∧
      ∀ n ∈ l, n ∈ osAdd2SortLink l owner startTime waitTicks := by
  refine ⟨fun n hn => ?_, fun n hn => (osAddNode2SortLink_perm l _).mem_iff.mpr (List.mem_cons_of_mem _ hn)⟩
  rcases osAdd2SortLink_mem hn with rfl | hn
  · exact .inr (Nat.lt_add_of_pos_right (Nat.mul_pos waitTicks.2 cycle_pos))
  · exact .inl hn

theorem leaveTask_moved (hstart : s.startTime s.runTask = s.now) : LinksMoved woken s (leaveTask s) := by
  unfold leaveTask
  cases s.leaving with
  | wait waitTimes =>
    dsimp only
    rw [hstart]
    exact ⟨rfl, osAdd2SortLink_moved.1, fun n hn => .inl hn, fun n hn _ _ => osAdd2SortLink_moved.2 n hn,
      fun n hn _ => hn⟩
  | stop => exact LinksMoved.same rfl rfl rfl
  | stay =>
    obtain ⟨hclock, htasks, htimers⟩ := osSchedTaskEnQueue_moved s s.runTask
    exact LinksMoved.same hclock htasks htimers

theorem osSchedTaskSwitch_moved {first : Nat} (h : osSchedTaskSwitch s first = some s') : LinksMoved woken s s' := by
  obtain ⟨s₁, hslice, h⟩ := Option.bind_eq_some_iff.mp h
  obtain ⟨⟨hclock₁, htasks₁, htimers₁⟩, hstart⟩ := osTimeSliceUpdate_moved hslice
  obtain ⟨hclock, htasks, htimers⟩ := osSchedSetNextExpireTime_moved (h : enterTask _ _ = _)
  exact ((LinksMoved.same hclock₁ htasks₁ htimers₁).trans (leaveTask_moved hstart)).trans
    (LinksMoved.same hclock htasks htimers)

/-! ### The scans -/

theorem osSwtmrStart_moved {swtmr : Nat} {uwCount : Ticks} (h : osSwtmrStart s swtmr uwCount = some s') :
    LinksMoved woken s s' := by
  obtain ⟨hclock, htasks, htimers⟩ := osSchedUpdateExpireTime_moved h
  refine LinksMoved.trans ?_ (LinksMoved.same hclock htasks htimers)
  exact ⟨rfl, fun n hn => .inl hn, osAdd2SortLink_moved.1, fun n hn _ _ => hn,
    fun n hn _ => osAdd2SortLink_moved.2 n hn⟩

theorem osSchedTaskWake_moved {t : Nat} (ht : woken t) : LinksMoved woken s (osSchedTaskWake s t) := by
  obtain ⟨hclock, htasks, htimers⟩ :=
    osSchedTaskEnQueue_moved { s with taskSortLink := osDeleteSortLink s.taskSortLink t } t
  refine LinksMoved.trans ?_ (LinksMoved.same hclock htasks htimers)
  refine ⟨rfl, fun n hn => .inl (osDeleteSortLink_mem hn), fun n hn => .inl hn, fun n hn _ hout => ?_,
    fun n hn _ => hn⟩
  refine List.mem_filter.mpr ⟨hn, decide_eq_true fun he => hout ?_⟩
  rw [he]
  exact ht

theorem osSwtmrTimeoutHandle_moved {args : TickArgs} {swtmr : Nat}
    (hreader : ∀ t, args.reader swtmr = some t → woken t) (h : osSwtmrTimeoutHandle s args swtmr = some s') :
    LinksMoved woken s s' := by
  have hwrite : LinksMoved woken s (losQueueWriteCopy s (args.reader swtmr)) := by
    cases hr : args.reader swtmr with
    | none => exact LinksMoved.same rfl rfl rfl
    | some resumedTask => exact osSchedTaskWake_moved (hreader resumedTask hr)
  unfold osSwtmrTimeoutHandle at h
  dsimp only at h
  split at h
  · exact hwrite.trans (osSwtmrStart_moved h)
  · cases h
    exact hwrite

theorem osSwtmrScan_moved {args : TickArgs} {fuel : Nat} {needSchedule : Bool}
    (hreader : ∀ n ∈ s.swtmrSortLink, n.responseTime ≤ s.now → ∀ t, args.reader n.owner = some t → woken t)
    (h : osSwtmrScan args fuel s = some (s', needSchedule)) : LinksMoved woken s s' := by
  induction fuel generalizing s needSchedule with
  | zero =>
    cases h
    exact LinksMoved.same rfl rfl rfl
  | succ fuel ih =>
    unfold osSwtmrScan at h
    split at h
    · cases h
      exact LinksMoved.same rfl rfl rfl
    next sortList list hlist =>
    split at h
    · next hdue =>
      obtain ⟨s₁, hhandle, h⟩ := Option.bind_eq_some_iff.mp h
      obtain ⟨r, hscan, h⟩ := Option.bind_eq_some_iff.mp h
      cases h
      have hsub : ∀ n ∈ list, n ∈ s.swtmrSortLink := fun n hn => by
        rw [hlist]
        exact List.mem_cons_of_mem _ hn
      have hhead : sortList ∈ s.swtmrSortLink := by
        rw [hlist]
        exact List.mem_cons_self
      have hout : LinksMoved woken s { s with swtmrSortLink := list } := by
        refine ⟨rfl, fun n hn => .inl hn, fun n hn => .inl (hsub n hn), fun n hn _ _ => hn, fun n hn hlate => ?_⟩
        rw [hlist] at hn
        rcases List.mem_cons.mp hn with rfl | hn
        · exact absurd hdue (Nat.not_le.mpr hlate)
        · exact hn
      have hstep := hout.trans (osSwtmrTimeoutHandle_moved (hreader sortList hhead hdue) hhandle)
      refine hstep.trans (ih (fun n hn hle => ?_) hscan)
      rw [hstep.clock] at hle
      rcases hstep.timers n hn with hn | hlate
      · exact hreader n hn hle
      · exact absurd hle (Nat.not_le.mpr hlate)
    · cases h
      exact LinksMoved.same rfl rfl rfl

theorem osSchedScanTimerList_moved (args : TickArgs) (fuel : Nat) (s : ExpireState) :
    LinksMoved woken s (osSchedScanTimerList args fuel s).1 := by
  induction fuel generalizing s with
  | zero => exact LinksMoved.same rfl rfl rfl
  | succ fuel ih =>
    unfold osSchedScanTimerList
    split
    · exact LinksMoved.same rfl rfl rfl
    next sortList list hlist =>
    split
    · next hdue =>
      have hout : LinksMoved woken s { s with taskSortLink := list } := by
        refine ⟨rfl, fun n hn => .inl ?_, fun n hn => .inl hn, fun n hn hlate _ => ?_, fun n hn _ => hn⟩
        · rw [hlist]
          exact List.mem_cons_of_mem _ hn
        · rw [hlist] at hn
          rcases List.mem_cons.mp hn with rfl | hn
          · exact absurd hdue (Nat.not_le.mpr hlate)
          · exact hn
      dsimp only
      split
      · exact hout.trans (ih _)
      · obtain ⟨hclock, htasks, htimers⟩ :=
          osSchedTaskEnQueue_moved { s with taskSortLink := list } sortList.owner
        exact (hout.trans (LinksMoved.same hclock htasks htimers)).trans (ih _)
    · exact LinksMoved.same rfl rfl rfl

/-- The tasks that read the messages of the timers that are due. -/
def readsDue (s : ExpireState) (args : TickArgs) (t : Nat) : Prop :=
  ∃ n ∈ s.swtmrSortLink, n.responseTime ≤ s.now ∧ args.reader n.owner = some t

theorem tickScan_moved {args : TickArgs} {needSched : Bool} (h : tickScan s args = some (s', needSched)) :
    LinksMoved (readsDue s args) s s' ∧ (s.gSchedResponseID ≠ none → s' = s ∧ needSched = false) := by
  unfold tickScan at h
  split at h
  · next hid =>
    refine ⟨?_, fun hne => absurd hid hne⟩
    obtain ⟨r, hscan, h⟩ := Option.bind_eq_some_iff.mp h
    cases h
    exact (osSwtmrScan_moved (fun n hn hle t ht => ⟨n, hn, hle, ht⟩) hscan).trans (osSchedScanTimerList_moved ..)
  · cases h
    exact ⟨LinksMoved.same rfl rfl rfl, fun _ => ⟨rfl, rfl⟩⟩

theorem losSchedTickHandler_moved {args : TickArgs} (h : losSchedTickHandler s args = some s') :
    ∃ s₁ needSched, tickScan s args = some (s₁, needSched) ∧ (∀ woken, LinksMoved woken s₁ s') ∧
      (needSched = false → s'.links = s₁.links) := by
  obtain ⟨⟨s₁, needSched⟩, hscan, h⟩ := Option.bind_eq_some_iff.mp h
  refine ⟨s₁, needSched, hscan, ?_⟩
  have hmax : ∀ woken, LinksMoved woken s₁ { s₁ with gSchedResponseTime := osSchedMaxResponseTime } :=
    fun _ => LinksMoved.same rfl rfl rfl
  dsimp only at h
  split at h
  · next hswitch =>
    refine ⟨fun woken => (hmax woken).trans (osSchedTaskSwitch_moved h), fun hno => ?_⟩
    rw [hno] at hswitch
    cases hswitch
  · obtain ⟨s₂, hslice, h⟩ := Option.bind_eq_some_iff.mp h
    obtain ⟨⟨hclock₂, htasks₂, htimers₂⟩, -⟩ := osTimeSliceUpdate_moved hslice
    obtain ⟨hclock, htasks, htimers⟩ := osSchedUpdateExpireTime_moved h
    refine ⟨fun woken => ((hmax woken).trans (LinksMoved.same hclock₂ htasks₂ htimers₂)).trans
      (LinksMoved.same hclock htasks htimers), fun _ => ?_⟩
    unfold ExpireState.links
    rw [htasks, htimers, htasks₂, htimers₂]

/-! ### The runs -/

/-- What the ticks of a state do. -/
structure Serves (s : ExpireState) : Prop where
  total : ∀ event, Enabled s event → (expireStep s event).isSome
  early : ∀ args s', Enabled s (.tick args) → losSchedTickHandler s args = some s' →
    LinksMoved (readsDue s args) s s'
  due : ∀ args s', Enabled s (.tick args) → losSchedTickHandler s args = some s' → s.gSchedResponseID = none →
    (∀ n ∈ s'.links, s.now < n.responseTime) ∧ Close s'
  slice : ∀ args s', Enabled s (.tick args) → losSchedTickHandler s args = some s' → s.gSchedResponseID ≠ none →
    s'.links = s.links

theorem Timed.serves (hcycle : osCyclePerTick ≤ osTickResponseTimeMax) (h : Timed s) : Serves s := by
  refine ⟨fun event hen => ?_, fun args s' _ hs' => ?_, fun args s' hen hs' hid => ⟨?_, ?_⟩,
    fun args s' _ hs' hid => ?_⟩
  · obtain ⟨s₁, heq, -⟩ := expireStep_spec hcycle h hen
    rw [heq]
    rfl
  · obtain ⟨s₁, needSched, hscan, hrest, -⟩ := losSchedTickHandler_moved hs'
    exact (tickScan_moved hscan).1.trans (hrest _)
  · obtain ⟨s₁, needSched, hscan, hrest, -⟩ := losSchedTickHandler_moved hs'
    obtain ⟨s₂, needSched₂, heq, -, hclock, hlinks⟩ := tickScan_spec args h hen.ge
    rw [hscan] at heq
    cases heq
    have hnone := (hlinks.resolve_right fun hne => hne.1 hid).2
    intro n hn
    have hmoved : n ∈ s₁.links ∨ s₁.now < n.responseTime := by
      rcases List.mem_append.mp hn with hn | hn
      · exact ((hrest fun _ => True).tasks n hn).imp_left (List.mem_append_left _)
      · exact ((hrest fun _ => True).timers n hn).imp_left (List.mem_append_right _)
    rcases hmoved with hn | hlate
    · exact hnone n hn
    · rwa [hclock] at hlate
  · obtain ⟨s₁, heq, -, hclose⟩ := losSchedTickHandler_spec hcycle args h hen.ge
    rw [hs'] at heq
    cases heq
    exact hclose fun hne => absurd hid hne
  · obtain ⟨s₁, needSched, hscan, -, hkept⟩ := losSchedTickHandler_moved hs'
    obtain ⟨rfl, hno⟩ := (tickScan_moved hscan).2 hid
    exact hkept hno

theorem osSchedStart_timed {b : ExpireState} {first : Nat} (hcycle : osCyclePerTick ≤ osTickResponseTimeMax)
    (hb : Stopped b) (h : osSchedStart b first = some s) : Timed s := by
  obtain ⟨hsorted, hpos⟩ := hb.links
  have hslice : 0 ≤ b.timeSlice (osGetTopTask b first) := by
    unfold osGetTopTask
    split
    · next hready => exact hb.slices first hready
    · exact hb.idle.1.ge
  unfold osSchedStart osSchedTaskDeQueue at h
  dsimp only at h
  generalize osGetTopTask b first = newTask at h hslice
  rw [Function.update_self] at h
  have hready : Function.update b.ready newTask false gIdleTaskID = false :=
    Bool.eq_false_iff.mpr fun hr => Bool.eq_false_iff.mp hb.idle.2 (ready_of_dequeued hr)
  have htimed : Timed { b with
      runTask := newTask
      leaving := .stay
      startTime := Function.update b.startTime newTask b.now
      gSchedResponseTime := osSchedMaxResponseTime
      gSchedResponseID := none
      ready := Function.update b.ready newTask false } := by
    refine ⟨⟨?_, hsorted, fun n hn => ?_⟩, ⟨?_, fun u hu _ => hb.slices u (ready_of_dequeued hu), fun _ => rfl,
      hready⟩, hb.clock.le, Nat.le_refl _, fun x hx => ?_⟩
    · dsimp only
      rw [hb.tasks]
      exact List.Pairwise.nil
    · unfold ExpireState.links at hn
      dsimp only at hn
      rw [hb.tasks, List.nil_append] at hn
      exact hpos n hn
    · dsimp only
      rw [Function.update_self]
    · dsimp only at hx
      rw [hb.reloads] at hx
      cases hx
  obtain ⟨s₁, heq, harmed⟩ := osSchedSetNextExpireTime_rearms hcycle htimed
    (show b.now ≤ ((b.now : Int) + b.timeSlice newTask).toNat by omega) newTask
  obtain rfl := Option.some.inj (heq.symm.trans h)
  exact harmed.timed

/-- Whatever happens, no tick wakes a task or fires a timer before its time, and a tick that was armed for an
entry leaves nothing behind that is due. -/
theorem losSched_serves {b s₀ : ExpireState} {first : Nat} {events : List ExpireEvent}
    (hcycle : osCyclePerTick ≤ osTickResponseTimeMax) (hb : Stopped b) (hstart : osSchedStart b first = some s₀)
    (hrun : Run enabledStep s₀ events s) : Serves s := by
  refine (run_invariant Timed (fun s event s' h hstep => ?_) hrun (osSchedStart_timed hcycle hb hstart)).serves hcycle
  obtain ⟨s₁, heq, h', -⟩ := expireStep_spec hcycle h hstep.1
  obtain rfl := Option.some.inj (heq.symm.trans hstep.2)
  exact h'

end

/-- A timer of one tick and one of three ticks: the tick of the first leaves the second alone. -/
theorem losSched_serves_timers :
    let _ := slowTicks
    ∃ s₀ s s', osSchedStart slowBoot 2 = some s₀ ∧
      Run enabledStep s₀ [.swtmrStart 7 ⟨1, by decide⟩, .swtmrStart 8 ⟨3, by decide⟩, .advance 1000000] s ∧
      expireStep s quietTick = some s' ∧ s'.links = [⟨8, 3000000⟩] ∧ Serves s := by
  let _ := slowTicks
  have hrun : ((osSchedStart slowBoot 2).bind fun s₀ =>
      ([ExpireEvent.swtmrStart 7 ⟨1, by decide⟩, .swtmrStart 8 ⟨3, by decide⟩,
        .advance 1000000].foldlM expireNext s₀).bind fun s =>
          (expireStep s quietTick).map ExpireState.links) = some [⟨8, 3000000⟩] := by decide +kernel
  obtain ⟨s₀, hs₀, hrun⟩ := Option.bind_eq_some_iff.mp hrun
  obtain ⟨s, hs, hrun⟩ := Option.bind_eq_some_iff.mp hrun
  obtain ⟨s', hs', hlinks⟩ := Option.map_eq_some_iff.mp hrun
  have hsteps : Run enabledStep s₀ _ s := run_mono (fun _ _ _ => enabledStep_of_next) (run_of_foldlM hs)
  exact ⟨s₀, s, s', hs₀, hsteps, hs', hlinks, losSched_serves (by decide) slowBoot_stopped hs₀ hsteps⟩

end LiteosM.Tick
