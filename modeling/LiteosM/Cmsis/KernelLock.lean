import LiteosM.Kernel.Boot

/-!
# The lock of the kernel in CMSIS

`osKernelLock` and `osKernelRestoreLock` of `cmsis_liteos2.c`, in well-nested sequences of pairs, and the
results of the other calls.
-/

namespace LiteosM.Cmsis

open LiteosM.Kernel

/-- `osStatus_t` -/
inductive OsStatus
  | osOK
  | osError
  | osErrorTimeout
  | osErrorResource
  | osErrorParameter
  | osErrorNoMemory
  | osErrorISR
  deriving DecidableEq

def osError : Int := -1

def osErrorISR : Int := -6

def osKernelLock (k : KernelState) (intActive : Bool) : KernelState × Int :=
  if intActive then (k, osErrorISR)
  else if !k.gTaskScheduled then (k, osError)
  else if 0 < k.gLosTaskLock then (k, 1)
  else (losTaskLock k, 0)

def osKernelRestoreLock (k : KernelState) (intActive : Bool) (lock : Int) : KernelState × Int :=
  if intActive then (k, osErrorISR)
  else if !k.gTaskScheduled then (k, osError)
  else if lock = 0 then
    let k := losTaskUnlock k
    if k.gLosTaskLock ≠ 0 then (k, osError) else (k, 0)
  else if lock = 1 then (losTaskLock k, 1)
  else (k, osError)

/-- A sequence of pairs. In `pair inner rest`, the sequence `inner` is between the two calls of the
first pair and `rest` comes after it. -/
inductive Nesting
  | done
  | pair (inner rest : Nesting)

/-- A task in thread mode executes the sequence. -/
def runNesting : Nesting → KernelState → KernelState
  | .done, k => k
  | .pair inner rest, k =>
    let (k₁, l) := osKernelLock k false
    let k₂ := runNesting inner k₁
    runNesting rest (osKernelRestoreLock k₂ false l).1

def visited : Nesting → KernelState → List KernelState
  | .done, _ => []
  | .pair inner rest, k =>
    let (k₁, l) := osKernelLock k false
    let k₃ := (osKernelRestoreLock (runNesting inner k₁) false l).1
    k₁ :: visited inner k₁ ++ k₃ :: visited rest k₃

/-- After each `osKernelRestoreLock` the scheduler is locked if and only if it was before the
matching `osKernelLock`. -/
def Restores : Nesting → KernelState → Prop
  | .done, _ => True
  | .pair inner rest, k =>
    let (k₁, l) := osKernelLock k false
    let k₃ := (osKernelRestoreLock (runNesting inner k₁) false l).1
    (0 < k₃.gLosTaskLock ↔ 0 < k.gLosTaskLock) ∧ Restores inner k₁ ∧ Restores rest k₃

/-- The scheduler is locked all through an outermost pair, and not at all after it. -/
def LockedWithin : Nesting → KernelState → Prop
  | .done, _ => True
  | .pair inner rest, k =>
    let (k₁, l) := osKernelLock k false
    let k₃ := (osKernelRestoreLock (runNesting inner k₁) false l).1
    (∀ k' ∈ k₁ :: visited inner k₁, 0 < k'.gLosTaskLock) ∧ k₃.gLosTaskLock = 0 ∧ LockedWithin rest k₃

def Flat : Nesting → Prop
  | .done => True
  | .pair inner rest => inner = .done ∧ Flat rest

section

variable {k : KernelState} {n : Nesting}

theorem losTaskUnlock_scheduled : (losTaskUnlock k).gTaskScheduled = k.gTaskScheduled := by
  unfold losTaskUnlock
  dsimp only
  split
  · split
    · unfold losSchedule
      split <;> rfl
    · rfl
  · rfl

theorem losTaskUnlock_lock : (losTaskUnlock k).gLosTaskLock = k.gLosTaskLock - 1 := by
  unfold losTaskUnlock
  dsimp only
  split
  · split
    · unfold losSchedule
      split <;> rfl
    · rfl
  · omega

theorem osKernelLock_unlocked (hs : k.gTaskScheduled = true) (h : k.gLosTaskLock = 0) :
    osKernelLock k false = (losTaskLock k, 0) := by
  simp [osKernelLock, hs, h]

theorem osKernelLock_locked (hs : k.gTaskScheduled = true) (h : 0 < k.gLosTaskLock) :
    osKernelLock k false = (k, 1) := by
  simp [osKernelLock, hs, h]

theorem osKernelRestoreLock_zero (hs : k.gTaskScheduled = true) :
    (osKernelRestoreLock k false 0).1 = losTaskUnlock k := by
  simp only [osKernelRestoreLock, hs]
  simp only [Bool.false_eq_true, if_false, Bool.not_true, if_true]
  split <;> rfl

theorem osKernelRestoreLock_one (hs : k.gTaskScheduled = true) :
    (osKernelRestoreLock k false 1).1 = losTaskLock k := by
  simp [osKernelRestoreLock, hs]

/-- In a locked scheduler each pair adds one to the lock, as long as it does not overflow. The
induction is on the sequence. -/
theorem runNesting_locked (n : Nesting) :
    ∀ k : KernelState, k.gTaskScheduled = true → 0 < k.gLosTaskLock → k.gLosTaskLock < 2 ^ 16 →
      (∀ k' ∈ visited n k, 0 < k'.gLosTaskLock) →
      (runNesting n k).gTaskScheduled = true ∧ (runNesting n k).gLosTaskLock < 2 ^ 16 ∧
        k.gLosTaskLock ≤ (runNesting n k).gLosTaskLock ∧
        (n ≠ .done → k.gLosTaskLock < (runNesting n k).gLosTaskLock) := by
  induction n with
  | done => exact fun k hs _ hlt _ => ⟨hs, hlt, Nat.le_refl _, fun h => absurd rfl h⟩
  | pair inner rest ihi ihr =>
    intro k hs hpos hlt hall
    simp only [runNesting, visited, osKernelLock_locked hs hpos] at hall ⊢
    obtain ⟨hs2, hlt2, hle2, _⟩ := ihi k hs hpos hlt fun k' hk' =>
      hall k' (List.mem_append_left _ (List.mem_cons_of_mem _ hk'))
    rw [osKernelRestoreLock_one hs2] at hall ⊢
    have hpos3 := hall _ (List.mem_append_right _ List.mem_cons_self)
    have hlock : (losTaskLock (runNesting inner k)).gLosTaskLock =
        (runNesting inner k).gLosTaskLock + 1 := by
      simp only [losTaskLock] at hpos3 ⊢
      omega
    obtain ⟨hs4, hlt4, hle4, _⟩ := ihr (losTaskLock (runNesting inner k)) hs2 hpos3
      (Nat.mod_lt _ (by decide)) fun k' hk' =>
        hall k' (List.mem_append_right _ (List.mem_cons_of_mem _ hk'))
    refine ⟨hs4, hlt4, ?_, fun _ => ?_⟩ <;> omega

theorem runNesting_flat (hs : k.gTaskScheduled = true) (h : k.gLosTaskLock = 0) :
    (losTaskLock k).gLosTaskLock = 1 ∧
      (osKernelRestoreLock (losTaskLock k) false 0).1.gLosTaskLock = 0 ∧
      (osKernelRestoreLock (losTaskLock k) false 0).1.gTaskScheduled = true := by
  have hone : (losTaskLock k).gLosTaskLock = 1 := by simp [losTaskLock, h]
  rw [osKernelRestoreLock_zero (show (losTaskLock k).gTaskScheduled = true from hs)]
  refine ⟨hone, ?_, losTaskUnlock_scheduled.trans hs⟩
  rw [losTaskUnlock_lock, hone]

/-- The pairs restore the lock exactly when none is inside another one. -/
theorem osKernelRestoreLock_nests {k : KernelState} {n : Nesting} (hs : k.gTaskScheduled = true)
    (h : k.gLosTaskLock = 0) : (Restores n k ∧ LockedWithin n k) ↔ Flat n := by
  induction n generalizing k with
  | done => exact iff_of_true ⟨trivial, trivial⟩ trivial
  | pair inner rest _ ihr =>
    simp only [Restores, LockedWithin, Flat, osKernelLock_unlocked hs h]
    have hs1 : (losTaskLock k).gTaskScheduled = true := hs
    constructor
    · rintro ⟨⟨_, _, hrest⟩, hall, hzero, hwithin⟩
      have hone : (losTaskLock k).gLosTaskLock = 1 := by simp [losTaskLock, h]
      obtain ⟨hs2, _, hle, hlt⟩ := runNesting_locked inner _ hs1 (by omega) (by omega) fun k' hk' =>
        hall k' (List.mem_cons_of_mem _ hk')
      rw [osKernelRestoreLock_zero hs2, losTaskUnlock_lock] at hzero
      have hinner : inner = .done := by
        by_contra hne
        have hmore := hlt hne
        omega
      refine ⟨hinner, ?_⟩
      rw [hinner] at hrest hwithin
      obtain ⟨_, h3, hs3⟩ := runNesting_flat hs h
      exact (ihr hs3 h3).mp ⟨hrest, hwithin⟩
    · rintro ⟨rfl, hflat⟩
      obtain ⟨hone, h3, hs3⟩ := runNesting_flat hs h
      obtain ⟨hrest, hwithin⟩ := (ihr hs3 h3).mpr hflat
      refine ⟨⟨?_, trivial, hrest⟩, fun k' hk' => ?_, h3, hwithin⟩
      · rw [h]
        exact iff_of_false (by rw [show (osKernelRestoreLock (runNesting .done (losTaskLock k)) false
          0).1.gLosTaskLock = 0 from h3]; exact Nat.lt_irrefl 0) (Nat.lt_irrefl 0)
      · rw [List.mem_singleton.mp hk', hone]
        exact Nat.one_pos

end

/-- A flat sequence of two pairs right after the start of the kernel. -/
theorem osKernelRestoreLock_nests_small :
    letI := smallConfig
    ∃ k, kernelStep smallKernel .start = some k ∧
      (Restores (.pair .done (.pair .done .done)) k ∧ LockedWithin (.pair .done (.pair .done .done)) k) := by
  let := smallConfig
  have hrun : (kernelStep smallKernel .start).map (fun k => (k.gTaskScheduled, k.gLosTaskLock)) =
      some (true, 0) := by decide +kernel
  rw [Option.map_eq_some_iff] at hrun
  obtain ⟨k, hk, hval⟩ := hrun
  rw [Prod.mk.injEq] at hval
  exact ⟨k, hk, (osKernelRestoreLock_nests hval.1 hval.2).mpr ⟨rfl, rfl, trivial⟩⟩

/-- One pair inside another leaves the scheduler locked. -/
theorem osKernelRestoreLock_stuck :
    letI := smallConfig
    ∃ k, kernelStep smallKernel .start = some k ∧ k.gTaskScheduled = true ∧ k.gLosTaskLock = 0 ∧
      (runNesting (.pair (.pair .done .done) .done) k).gLosTaskLock = 1 ∧
      ¬ (Restores (.pair (.pair .done .done) .done) k ∧
        LockedWithin (.pair (.pair .done .done) .done) k) := by
  let := smallConfig
  have hrun : (kernelStep smallKernel .start).map (fun k => (k.gTaskScheduled, k.gLosTaskLock,
      (runNesting (.pair (.pair .done .done) .done) k).gLosTaskLock)) = some (true, 0, 1) := by
    decide +kernel
  rw [Option.map_eq_some_iff] at hrun
  obtain ⟨k, hk, hval⟩ := hrun
  rw [Prod.mk.injEq, Prod.mk.injEq] at hval
  refine ⟨k, hk, hval.1, hval.2.1, hval.2.2, fun h => ?_⟩
  have hend : (runNesting (.pair (.pair .done .done) .done) k).gLosTaskLock = 0 := h.2.2.1
  rw [hval.2.2] at hend
  cases hend

end LiteosM.Cmsis
