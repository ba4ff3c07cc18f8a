import LiteosM.Kernel.Invariant
import Mathlib.Data.List.Perm.Subperm

/-!
# Operations on one task

What the scheduler's list operations do to the block and the nodes of the task they are
called for. None of them lets a task join a wait list.
-/

namespace LiteosM.Kernel

open LiteosM.Lib.DlList

def readied (s : TaskStatus) : TaskStatus :=
  { s with pend := false, suspend := false, delay := false, pendTime := false, ready := true }

theorem Moved.enHead (k : KernelState) (V : View Node) (t p : Nat) (l : List Node) :
    Moved t k V (osSchedPriQueueEnHead k (.pendList t) p) (V.put (.pendList t) (.gPriQueueList p) l) :=
  Moved.link (.inl rfl) (by simp)

theorem Moved.enTail (k : KernelState) (V : View Node) (t p : Nat) (l : List Node) :
    Moved t k V (osSchedPriQueueEnTail k (.pendList t) p) (V.put (.pendList t) (.gPriQueueList p) l) :=
  Moved.link (.inl rfl) (by simp)

theorem Moved.delete (k : KernelState) (V : View Node) (t p : Nat) :
    Moved t k V (osSchedPriQueueDelete k (.pendList t) p) (V.remove (.pendList t)) := by
  have hx : Node.pendList t = .pendList t ∨ Node.pendList t = .sortLinkNode t := .inl rfl
  obtain ⟨⟨_, htask, hrole⟩, hwait⟩ : Moved t k V _ _ := Moved.unlink hx
  exact ⟨⟨⟨rfl, rfl, rfl, rfl, rfl, rfl, rfl⟩, htask, hrole⟩, hwait⟩

variable [Config]

section

variable {k : KernelState} {V : View Node} {t p : Nat} {x h : Node}

theorem fits_ready (ht : t < gTaskMaxNum) (hp : p < 32) : Fits (.pendList t) (.gPriQueueList p) :=
  ⟨ht, .inr (.inr (.inl ⟨p, hp, rfl⟩))⟩

theorem Core.enHead (hc : Core k V) (ht : t < gTaskMaxNum) (hp : p < 32)
    (hx : V.role (.pendList t) = .loose) :
    Core (osSchedPriQueueEnHead k (.pendList t) p)
      (V.put (.pendList t) (.gPriQueueList p) (.pendList t :: V.content (.gPriQueueList p))) :=
  hc.put hx (fits_ready ht hp) (hc.ready.enHead hp hx)

theorem Core.enTail (hc : Core k V) (ht : t < gTaskMaxNum) (hp : p < 32)
    (hx : V.role (.pendList t) = .loose) :
    Core (osSchedPriQueueEnTail k (.pendList t) p)
      (V.put (.pendList t) (.gPriQueueList p) (V.content (.gPriQueueList p) ++ [.pendList t])) :=
  hc.put hx (fits_ready ht hp) (hc.ready.enTail hp hx)

theorem osSchedTaskEnQueue_spec (hc : Core k V) (ht : t < gTaskMaxNum)
    (hid : (k.gTaskCBArray t).taskID = t) (hp : (k.gTaskCBArray t).priority < 32)
    (hready : (k.gTaskCBArray t).taskStatus.ready = false) (hx : V.role (.pendList t) = .loose) :
    ∃ k' V' slice, osSchedTaskEnQueue k t = some k' ∧ Core k' V' ∧ Moved t k V k' V' ∧
      k'.gTaskCBArray t = { k.gTaskCBArray t with
        timeSlice := slice, taskStatus := readied (k.gTaskCBArray t).taskStatus } ∧
      V'.role (.pendList t) = (if t = k.gIdleTaskID then .loose
        else .member (.gPriQueueList (k.gTaskCBArray t).priority)) ∧
      V'.role (.sortLinkNode t) = V.role (.sortLinkNode t) ∧
      V'.content .gTaskSortLink = V.content .gTaskSortLink := by
  unfold osSchedTaskEnQueue
  rw [if_neg (by simp [KernelState.status, hready])]
  dsimp only
  by_cases hidle : t = k.gIdleTaskID
  · rw [if_neg (not_not.mpr (hid.trans hidle)), if_pos hidle]
    refine ⟨_, V, (k.gTaskCBArray t).timeSlice, rfl, hc.modifyTask t _, Moved.modifyTask t k V _, ?_,
      hx, rfl, rfl⟩
    rw [KernelState.modifyStatus, modifyTask_self]
    rfl
  · rw [if_pos (hid.trans_ne hidle), if_neg hidle]
    by_cases hslice : Config.osTimeSliceMin < (k.gTaskCBArray t).timeSlice
    · rw [if_pos hslice]
      refine ⟨_, V.put (.pendList t) (.gPriQueueList _) _, (k.gTaskCBArray t).timeSlice, rfl,
        (hc.enHead ht hp hx).modifyTask t _, (Moved.enHead k V t _ _).trans (Moved.modifyTask t _ _ _),
        ?_, ?_, ?_, ?_⟩
      · rw [KernelState.modifyStatus, modifyTask_self]
        rfl
      · rw [View.put_role, if_pos rfl]
      · rw [View.put_role, if_neg (by simp)]
      · rw [View.put_content, if_neg (by simp)]
    · rw [if_neg hslice]
      have hc1 := hc.modifyTask t fun cb => { cb with timeSlice := Config.osSchedTimeSlices }
      refine ⟨_, V.put (.pendList t) (.gPriQueueList _) _, Config.osSchedTimeSlices, rfl,
        (hc1.enTail ht hp hx).modifyTask t _, ((Moved.modifyTask t k V _).trans
          (Moved.enTail _ V t _ _)).trans (Moved.modifyTask t _ _ _), ?_, ?_, ?_, ?_⟩
      · rw [KernelState.modifyStatus, modifyTask_self]
        simp [osSchedPriQueueEnTail, losListTailInsert, readied]
      · rw [View.put_role, if_pos rfl]
      · rw [View.put_role, if_neg (by simp)]
      · rw [View.put_content, if_neg (by simp)]

theorem osSchedTaskDeQueue_spec (hc : Core k V) (hid : (k.gTaskCBArray t).taskID = t)
    (hp : (k.gTaskCBArray t).priority < 32)
    (hx : (k.gTaskCBArray t).taskStatus.ready → t ≠ k.gIdleTaskID →
      V.role (.pendList t) = .member (.gPriQueueList (k.gTaskCBArray t).priority)) :
    ∃ V', Core (osSchedTaskDeQueue k t) V' ∧ Moved t k V (osSchedTaskDeQueue k t) V' ∧
      (osSchedTaskDeQueue k t).gTaskCBArray t = { k.gTaskCBArray t with
        taskStatus := { (k.gTaskCBArray t).taskStatus with ready := false } } ∧
      V'.role (.pendList t) = (if (k.gTaskCBArray t).taskStatus.ready ∧ t ≠ k.gIdleTaskID then .loose
        else V.role (.pendList t)) ∧
      V'.role (.sortLinkNode t) = V.role (.sortLinkNode t) := by
  by_cases hready : (k.gTaskCBArray t).taskStatus.ready = true
  · by_cases hidle : t = k.gIdleTaskID
    · have heq : osSchedTaskDeQueue k t = k.modifyStatus t fun s => { s with ready := false } := by
        unfold osSchedTaskDeQueue
        rw [if_pos (show (k.status t).ready = true from hready)]
        dsimp only
        rw [if_neg (not_not.mpr (hid.trans hidle))]
      rw [heq, if_neg fun h => h.2 hidle]
      refine ⟨V, hc.modifyTask t _, Moved.modifyTask t k V _, ?_, rfl, rfl⟩
      rw [KernelState.modifyStatus, modifyTask_self]
    · have heq : osSchedTaskDeQueue k t = (osSchedPriQueueDelete k (.pendList t)
          (k.gTaskCBArray t).priority).modifyStatus t fun s => { s with ready := false } := by
        unfold osSchedTaskDeQueue
        rw [if_pos (show (k.status t).ready = true from hready)]
        dsimp only
        rw [if_pos (hid.trans_ne hidle)]
      have hmem := hx hready hidle
      rw [heq, if_pos ⟨hready, hidle⟩]
      refine ⟨V.remove (.pendList t), (hc.remove hmem (hc.ready.delete hp hmem)).modifyTask t _,
        (Moved.delete k V t _).trans (Moved.modifyTask t _ _ _), ?_, ?_, ?_⟩
      · rw [KernelState.modifyStatus, modifyTask_self]
        rfl
      · rw [View.remove_role, if_pos rfl]
      · rw [View.remove_role, if_neg (by simp)]
  · have heq : osSchedTaskDeQueue k t = k := by
      unfold osSchedTaskDeQueue
      rw [if_neg (show ¬ (k.status t).ready = true from hready)]
    rw [heq, if_neg fun h => hready h.1]
    refine ⟨V, hc, Moved.refl t k V, ?_, rfl, rfl⟩
    rw [Bool.not_eq_true] at hready
    rw [← hready]

theorem osDeleteNodeSortLink_spec (hc : Core k V)
    (hx : V.role (.sortLinkNode t) = .member .gTaskSortLink) :
    ∃ V', Core (osDeleteNodeSortLink k t) V' ∧ Moved t k V (osDeleteNodeSortLink k t) V' ∧
      (osDeleteNodeSortLink k t).gTaskCBArray t = { k.gTaskCBArray t with responseTime := ⊤ } ∧
      V'.role (.pendList t) = V.role (.pendList t) ∧ V'.role (.sortLinkNode t) = .loose ∧
      V'.content .gTaskSortLink = (V.content .gTaskSortLink).erase (.sortLinkNode t) := by
  unfold osDeleteNodeSortLink
  refine ⟨V.remove (.sortLinkNode t), (hc.unlink hx (by simp)).modifyTask t _,
    (Moved.unlink (.inr rfl)).trans (Moved.modifyTask t _ _ _), ?_, ?_, ?_, rfl⟩
  · rw [modifyTask_self]
    rfl
  · rw [View.remove_role, if_neg (by simp)]
  · rw [View.remove_role, if_pos rfl]

theorem osDeleteSortLink_spec (hc : Core k V)
    (hx : (k.gTaskCBArray t).responseTime = ⊤ ↔ V.role (.sortLinkNode t) = .loose)
    (hm : V.role (.sortLinkNode t) = .loose ∨ V.role (.sortLinkNode t) = .member .gTaskSortLink) :
    ∃ V', Core (osDeleteSortLink k t) V' ∧ Moved t k V (osDeleteSortLink k t) V' ∧
      (osDeleteSortLink k t).gTaskCBArray t = { k.gTaskCBArray t with responseTime := ⊤ } ∧
      V'.role (.pendList t) = V.role (.pendList t) ∧ V'.role (.sortLinkNode t) = .loose := by
  unfold osDeleteSortLink
  by_cases htop : (k.gTaskCBArray t).responseTime = ⊤
  · rw [if_neg (by simp [htop])]
    refine ⟨V, hc, Moved.refl t k V, ?_, rfl, hx.mp htop⟩
    rw [← htop]
  · rw [if_pos htop]
    have hmem : V.role (.sortLinkNode t) = .member .gTaskSortLink := by
      rcases hm with hm | hm
      · exact absurd (hx.mpr hm) htop
      · exact hm
    obtain ⟨V', h1, h2, h3, h4, h5, _⟩ := osDeleteNodeSortLink_spec hc hmem
    exact ⟨V', h1, h2, h3, h4, h5⟩

theorem Core.length_le (hc : Core k V) (f : Nat → Node) (hall : ∀ y ∈ V.content x,
    ∃ u < gTaskMaxNum, y = f u) : (V.content x).length ≤ gTaskMaxNum := by
  have hsub : V.content x ⊆ (List.range gTaskMaxNum).map f := by
    intro y hy
    obtain ⟨u, hu, rfl⟩ := hall y hy
    exact List.mem_map.mpr ⟨u, List.mem_range.mpr hu, rfl⟩
  have hlen := (List.subperm_of_subset (hc.ready.forest.nodup x) hsub).length_le
  simpa using hlen

theorem Core.mem_sortLink (hc : Core k V) (hx : x ∈ V.content .gTaskSortLink) :
    ∃ u < gTaskMaxNum, x = .sortLinkNode u := by
  have hfit := hc.fits x _ ((hc.ready.forest.mem _ _).mp hx)
  cases x <;> simp [Fits] at hfit
  case sortLinkNode u => exact ⟨u, hfit, rfl⟩

theorem Core.mem_pendList (hc : Core k V) (hx : x ∈ V.content h)
    (hh : h = .gLosFreeTask ∨ h = .gTaskRecyleList ∨ (∃ p, h = .gPriQueueList p) ∨ ∃ l, h = .wait l) :
    ∃ u < gTaskMaxNum, x = .pendList u := by
  have hfit := hc.fits x _ ((hc.ready.forest.mem _ _).mp hx)
  cases x with
  | pendList u => exact ⟨u, hfit.1, rfl⟩
  | sortLinkNode u =>
    obtain ⟨_, rfl⟩ := hfit
    simp at hh
  | wait w =>
    exfalso
    rcases hfit with rfl | rfl | rfl <;> simp at hh
  | _ => exact hfit.elim

/-- The place between `a` and `b` is right for the response time `r`. -/
def PlaceFor (k : KernelState) (r : WithTop Nat) (a b : List Node) : Prop :=
  (∀ u l, a = l ++ [.sortLinkNode u] → (k.gTaskCBArray u).responseTime ≤ r) ∧
    ∀ u l, b = .sortLinkNode u :: l → r ≤ (k.gTaskCBArray u).responseTime

/-- The backward walk stops at a cell of the list, at the latest at the first one. -/
theorem sortLinkInsertPos_spec (hc : Core k V) (r : WithTop Nat)
    (hfirst : ∀ u l, V.content .gTaskSortLink = .sortLinkNode u :: l →
      (k.gTaskCBArray u).responseTime ≤ r) (l₁ : List Node) :
    ∀ (x : Node) (l₂ : List Node) (fuel : Nat), V.content .gTaskSortLink = l₁ ++ x :: l₂ →
      (∀ u l, l₂ = .sortLinkNode u :: l → r ≤ (k.gTaskCBArray u).responseTime) →
      l₁.length < fuel → ∃ a b, V.content .gTaskSortLink = a ++ b ∧
        sortLinkInsertPos k r fuel x = some (a.getLastD .gTaskSortLink) ∧ PlaceFor k r a b := by
  have hhead := hc.system .gTaskSortLink (.inr (.inr rfl))
  induction l₁ using List.reverseRecOn with
  | nil =>
    intro x l₂ fuel hcon hafter hfuel
    obtain ⟨n, rfl⟩ := Nat.exists_eq_add_of_lt hfuel
    obtain ⟨u, hu, rfl⟩ := hc.mem_sortLink (show x ∈ V.content .gTaskSortLink by simp [hcon])
    have hle := hfirst u l₂ hcon
    refine ⟨[.sortLinkNode u], l₂, hcon, ?_, fun v l hv => ?_, hafter⟩
    · show sortLinkInsertPos k r (_ + 1) _ = _
      simp [sortLinkInsertPos, sortLinkEntry, hle]
    · have hlast := congrArg List.getLast? hv
      simp only [List.getLast?_singleton, List.getLast?_append, Option.some_or] at hlast
      cases hlast
      exact hle
  | append_singleton l y ih =>
    intro x l₂ fuel hcon hafter hfuel
    rw [List.length_append, List.length_singleton] at hfuel
    obtain ⟨n, rfl⟩ := Nat.exists_eq_add_of_lt (Nat.zero_lt_of_lt hfuel)
    obtain ⟨u, hu, rfl⟩ := hc.mem_sortLink (show x ∈ V.content .gTaskSortLink by simp [hcon])
    by_cases hle : (k.gTaskCBArray u).responseTime ≤ r
    · refine ⟨l ++ [y] ++ [.sortLinkNode u], l₂, by simp [hcon], ?_, fun v m hv => ?_, hafter⟩
      · show sortLinkInsertPos k r (_ + 1) _ = _
        simp [sortLinkInsertPos, sortLinkEntry, hle]
      · have hlast := congrArg List.getLast? hv
        simp only [List.getLast?_singleton, List.getLast?_append, Option.some_or] at hlast
        cases hlast
        exact hle
    · have hprev := (hc.ready.forest.cell hhead hcon).2
      have hlast : (l ++ [y]).getLastD Node.gTaskSortLink = y := by simp
      rw [hlast] at hprev
      obtain ⟨a, b, hab, hres, hplace⟩ := ih y (.sortLinkNode u :: l₂) n (by simp [hcon])
        (fun v m hv => by
          cases hv
          exact (not_le.mp hle).le) (by omega)
      refine ⟨a, b, hab, ?_, hplace⟩
      rw [← hres]
      have hn : 0 + n + 1 = n + 1 := by omega
      rw [hn]
      simp [sortLinkInsertPos, sortLinkEntry, hle, hprev]

theorem osAddNode2SortLink_spec (hc : Core k V) (ht : t < gTaskMaxNum)
    (hx : V.role (.sortLinkNode t) = .loose) :
    ∃ k' V', osAddNode2SortLink k t = some k' ∧ Core k' V' ∧ Moved t k V k' V' ∧
      k'.gTaskCBArray = k.gTaskCBArray ∧ V'.role (.pendList t) = V.role (.pendList t) ∧
      V'.role (.sortLinkNode t) = .member .gTaskSortLink ∧
      ∃ a b, V.content .gTaskSortLink = a ++ b ∧ PlaceFor k (k.gTaskCBArray t).responseTime a b ∧
        V'.content .gTaskSortLink = a ++ .sortLinkNode t :: b := by
  have hhead := hc.system .gTaskSortLink (.inr (.inr rfl))
  -- whatever the position, the node becomes a cell of the list
  have hpos : ∀ a b, V.content .gTaskSortLink = a ++ b →
      PlaceFor k (k.gTaskCBArray t).responseTime a b →
      ∃ k' V', losListAdd k (a.getLastD .gTaskSortLink) (.sortLinkNode t) = k' ∧ Core k' V' ∧
        Moved t k V k' V' ∧ k'.gTaskCBArray = k.gTaskCBArray ∧
        V'.role (.pendList t) = V.role (.pendList t) ∧
        V'.role (.sortLinkNode t) = .member .gTaskSortLink ∧
        ∃ a b, V.content .gTaskSortLink = a ++ b ∧ PlaceFor k (k.gTaskCBArray t).responseTime a b ∧
          V'.content .gTaskSortLink = a ++ .sortLinkNode t :: b := by
    intro a b hab hplace
    have hforest := hc.ready.forest.insert hhead hx hab
    refine ⟨_, V.put (.sortLinkNode t) .gTaskSortLink _, rfl, hc.put hx ⟨ht, rfl⟩
      (hc.ready.put_other hx (by simp) hforest rfl), Moved.link (.inr rfl) (by simp), rfl, ?_, ?_,
      a, b, hab, hplace, ?_⟩
    · rw [View.put_role, if_neg (by simp)]
    · rw [View.put_role, if_pos rfl]
    · rw [View.put_content, if_pos rfl]
  unfold osAddNode2SortLink
  dsimp only
  by_cases hempty : losListEmpty k .gTaskSortLink = true
  · rw [if_pos hempty]
    rw [hc.ready.listEmpty_iff hhead] at hempty
    obtain ⟨k', V', h1, h2⟩ := hpos [] (V.content .gTaskSortLink) rfl
      ⟨fun u l h => by simp at h, fun u l h => by simp [hempty] at h⟩
    exact ⟨k', V', congrArg some h1, h2⟩
  · rw [if_neg hempty]
    rw [hc.ready.listEmpty_iff hhead] at hempty
    obtain ⟨y, l, hcon⟩ := List.exists_cons_of_ne_nil hempty
    obtain ⟨u, hu, rfl⟩ := hc.mem_sortLink (show y ∈ V.content .gTaskSortLink by simp [hcon])
    have hfirst : losDlListFirst k .gTaskSortLink = .sortLinkNode u :=
      hc.ready.forest.next_first hhead hcon
    rw [hfirst]
    simp only [sortLinkEntry, Option.bind_eq_bind, Option.bind_some]
    by_cases hle : (k.gTaskCBArray t).responseTime ≤ (k.gTaskCBArray u).responseTime
    · rw [if_pos hle]
      obtain ⟨k', V', h1, h2⟩ := hpos [] (V.content .gTaskSortLink) rfl
        ⟨fun v m h => by simp at h, fun v m h => by
          rw [hcon] at h
          cases h
          exact hle⟩
      exact ⟨k', V', congrArg some h1, h2⟩
    · rw [if_neg hle]
      have hlen : (V.content .gTaskSortLink).length ≤ gTaskMaxNum :=
        hc.length_le Node.sortLinkNode fun y hy => hc.mem_sortLink hy
      obtain ⟨l', z, hz⟩ : ∃ l' z, V.content .gTaskSortLink = l' ++ [z] :=
        ⟨_, _, (List.dropLast_concat_getLast hempty).symm⟩
      have hlast : k.links.prev .gTaskSortLink = z := by
        rw [hc.ready.forest.prev_head hhead, hz]
        simp
      have hbound : ∀ v m, V.content .gTaskSortLink = .sortLinkNode v :: m →
          (k.gTaskCBArray v).responseTime ≤ (k.gTaskCBArray t).responseTime := by
        intro v m hv
        rw [hcon] at hv
        injection hv with hv
        injection hv with hv
        rw [← hv]
        exact (not_le.mp hle).le
      rw [hz, List.length_append, List.length_singleton] at hlen
      obtain ⟨a, b, hab, hres, hplace⟩ := sortLinkInsertPos_spec hc _ hbound l' z []
        (gTaskMaxNum + 1) hz (fun v m h => by cases h) (by omega)
      rw [hlast, hres]
      obtain ⟨k', V', h1, h2⟩ := hpos a b hab hplace
      exact ⟨k', V', congrArg some h1, h2⟩

theorem osAdd2SortLink_spec (hc : Core k V) (ht : t < gTaskMaxNum)
    (hx : V.role (.sortLinkNode t) = .loose) (startTime waitTicks : Nat) :
    ∃ k' V' r, osAdd2SortLink k t startTime waitTicks = some k' ∧ Core k' V' ∧ Moved t k V k' V' ∧
      k'.gTaskCBArray t = { k.gTaskCBArray t with responseTime := r } ∧ r ≠ ⊤ ∧
      V'.role (.pendList t) = V.role (.pendList t) ∧
      V'.role (.sortLinkNode t) = .member .gTaskSortLink := by
  unfold osAdd2SortLink
  obtain ⟨k', V', h1, h2, h3, h4, h5, h6, -⟩ := osAddNode2SortLink_spec (hc.modifyTask t _) ht hx
  refine ⟨k', V', ((startTime + waitTicks * Config.osCyclePerTick : Nat) : WithTop Nat), h1, h2,
    (Moved.modifyTask t k V _).trans h3, ?_, WithTop.coe_ne_top, h5, h6⟩
  rw [h4]
  exact modifyTask_self k t _

end

end LiteosM.Kernel
