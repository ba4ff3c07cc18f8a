import LiteosM.Cmsis.KernelLock
import LiteosM.Ipc.SemCount

/-!
# The semaphores of CMSIS

`osSemaphoreNew` of `cmsis_liteos2.c` takes two 32-bit numbers. The kernel counts with 16 bits and knows
two maxima.
-/

namespace LiteosM.Cmsis

open LiteosM.Kernel LiteosM.Ipc LiteosM.Lib.Transition

/-- The cast to `UINT16`. -/
def uint16 (x : BitVec 32) : Fin 65536 := Fin.ofNat 65536 x.toNat

/-- A handle is the index of its control block. -/
def osSemaphoreNew (s : SemState) (intActive : Bool) (maxCount initialCount : BitVec 32) :
    Option (SemState × Option Nat) :=
  if intActive then some (s, none)
  else do
    let (s, uwRet, uwSemId) ←
      if 1#32 = maxCount then losBinarySemCreate s (uint16 initialCount) true
      else losSemCreate s (uint16 initialCount) true
    if uwRet = .losOk then some (s, uwSemId) else some (s, none)

/-- What `osSemaphoreAcquire` makes of the result of `LOS_SemPend`. A caller that blocks has none yet. -/
def acquireStatus : SemErrno → Option OsStatus
  | .losOk => some .osOK
  | .semTimeout => some .osErrorTimeout
  | .semInvalid => some .osErrorParameter
  | .semPendInterr => some .osErrorISR
  | .blocked => none
  | _ => some .osErrorResource

/-- The rest of `osSemaphoreAcquire` for a task that blocked in it. -/
def osSemaphoreAcquireResume (s : SemState) : SemState × Option OsStatus :=
  let r := losSemPendResume s
  (r.1, acquireStatus r.2)

section

variable [Config]

def osSemaphoreAcquire (s : SemState) (intActive : Bool) (semaphoreId : Option Nat) (timeout : Nat) :
    SemState × Option OsStatus :=
  match semaphoreId with
  | none => (s, some .osErrorParameter)
  | some m =>
    if intActive ∧ timeout ≠ 0 then (s, some .osErrorISR)
    else
      let r := losSemPend s intActive m timeout
      (r.1, acquireStatus r.2)

def osSemaphoreRelease (s : SemState) (semaphoreId : Option Nat) : Option (SemState × OsStatus) :=
  match semaphoreId with
  | none => some (s, .osErrorParameter)
  | some m => do
    let (s, uwRet) ← losSemPost s m
    if uwRet = .losOk then some (s, .osOK)
    else if uwRet = .semInvalid then some (s, .osErrorParameter)
    else some (s, .osErrorResource)

def osSemaphoreDelete (s : SemState) (intActive : Bool) (semaphoreId : Option Nat) : SemState × OsStatus :=
  if intActive then (s, .osErrorISR)
  else
    match semaphoreId with
    | none => (s, .osErrorParameter)
    | some m =>
      let r := losSemDelete s m
      (r.1, if r.2 = .losOk then .osOK else if r.2 = .semInvalid then .osErrorParameter else .osErrorResource)

end

inductive SemaphoreEvent
  | new (intActive : Bool) (maxCount initialCount : BitVec 32)
  | acquire (intActive : Bool) (semaphoreId : Option Nat) (timeout : Nat)
  | release (semaphoreId : Option Nat)
  | delete (intActive : Bool) (semaphoreId : Option Nat)
  | resume
  | kernel (event : KernelEvent)

variable [Config]

/-- Tasks and interrupts call in any order. A task that waits makes no call. -/
def semaphoreStep (s : SemState) : SemaphoreEvent → Option SemState
  | .new intActive maxCount initialCount => (osSemaphoreNew s intActive maxCount initialCount).map Prod.fst
  | .acquire intActive semaphoreId timeout =>
    if intActive ∨ s.free then some (osSemaphoreAcquire s intActive semaphoreId timeout).1 else none
  | .release semaphoreId => (osSemaphoreRelease s semaphoreId).map Prod.fst
  | .delete intActive semaphoreId => some (osSemaphoreDelete s intActive semaphoreId).1
  | .resume =>
    if s.kernel.calling ∧ (s.pending s.kernel.runTask).isSome then some (osSemaphoreAcquireResume s).1
    else none
  | .kernel event =>
    if event.own ∧ (s.pending s.kernel.runTask).isSome then none
    else (kernelStep s.kernel event).map s.settle

def keepsSemaphore (m : Nat) (s : SemState) (event : SemaphoreEvent) (s' : SemState) : Prop :=
  semaphoreStep s event = some s' ∧ (s'.sem m).semStat = true

/-- Whatever is called, the count stays within `maxCount` for as long as the semaphore exists. -/
def NeverExceeds (s : SemState) (m maxCount : Nat) : Prop :=
  ∀ events s', Run (keepsSemaphore m) s events s' → (s'.sem m).semCount ≤ maxCount

/-- There is a kind of kernel semaphore with this maximum, and the count fits. -/
def SemaphoreFits (maxCount initialCount : Nat) : Prop :=
  (maxCount = osSemBinaryMaxCount.val ∨ maxCount = osSemCountingMaxCount.val) ∧ initialCount ≤ maxCount

/-- A handle stands for a semaphore as it was asked for. What does not fit gets none. -/
def SemaphoreHonours (s : SemState) (intActive : Bool) (maxCount initialCount : BitVec 32) : Prop :=
  ∀ s' handle, osSemaphoreNew s intActive maxCount initialCount = some (s', handle) →
    (∀ m, handle = some m →
      (s'.sem m).semCount = initialCount.toNat ∧ NeverExceeds s' m maxCount.toNat) ∧
    (¬ SemaphoreFits maxCount.toNat initialCount.toNat → handle = none)

/-- An interrupt gets no semaphore, and nobody does when all of them are in use. -/
def NoSemaphore (s : SemState) (intActive : Bool) : Prop :=
  intActive = true ∨ losListEmpty s.kernel .gUnusedSemList = true

/-- The invariant of the kernel's semaphores holds with some history. -/
def SemReached (s : SemState) : Prop :=
  ∃ c : CountedSem, c.toSemState = s ∧ ∃ V, SemInv c V

section

variable {s s' : SemState} {event : SemaphoreEvent} {e : SemEvent} {r : SemErrno} {m k : Nat}
  {intActive : Bool} {maxCount initialCount : BitVec 32} {o : Option Nat}

omit [Config] in
theorem uint16_val (x : BitVec 32) : (uint16 x).val = x.toNat % 65536 := rfl

theorem SemReached.step (hs : SemReached s) (hstep : semStep s e = some (s', r)) : SemReached s' := by
  obtain ⟨c, rfl, V, hi⟩ := hs
  obtain ⟨V', hi'⟩ := semStep_inv hi hstep
  exact ⟨c.note e s' r, rfl, V', hi'⟩

theorem semReached_of_booted (hmax : gTaskMaxNum ≤ osInvalid) (hb : SemBooted s) : SemReached s := by
  obtain ⟨V, hi⟩ := @semBooted_inv _
    ⟨s, fun _ => 0, fun _ => 0, fun _ => 0, fun _ => false, 0, fun _ => 0⟩ hmax hb
  exact ⟨_, rfl, V, hi⟩

theorem semStep_max (hs : SemReached s) (hstep : semStep s e = some (s', r))
    (hst : (s.sem m).semStat = true) : (s'.sem m).maxSemCount = (s.sem m).maxSemCount := by
  obtain ⟨c, rfl, V, hi⟩ := hs
  have hcreate : ∀ (count maxCount : Fin 65536) (semHandle : Bool),
      (osSemCreate c.toSemState count maxCount semHandle).map (fun r => (r.1, r.2.1)) = some (s', r) →
      (s'.sem m).maxSemCount = (c.sem m).maxSemCount := by
    intro count maxCount semHandle h
    obtain ⟨s₁, r₁, o, heq, hout⟩ := osSemCreate_spec hi count maxCount semHandle
    rw [heq, Option.map_some, Option.some.injEq, Prod.mk.injEq] at h
    obtain ⟨rfl, rfl⟩ := h
    rcases hout with ⟨rfl, _⟩ | ⟨_, m', _, _, hst', _, _, hsem, _⟩
    · rfl
    · have hmm : m ≠ m' := by
        rintro rfl
        cases hst'.symm.trans hst
      rw [hsem, Function.update_of_ne hmm]
  have hset : ∀ m' (cb : LosSemCB), cb.maxSemCount = (c.sem m').maxSemCount →
      ((c.toSemState.setSem m' cb).sem m).maxSemCount = (c.sem m).maxSemCount := by
    intro m' cb hcb
    by_cases hmm : m = m'
    · rw [hmm, setSem_self]
      exact hcb
    · rw [setSem_of_ne hmm]
  cases e with
  | create count semHandle => exact hcreate _ _ _ hstep
  | binaryCreate count semHandle => exact hcreate _ _ _ hstep
  | delete m' =>
    simp only [semStep, Option.some.injEq] at hstep
    unfold losSemDelete at hstep
    split at hstep
    · cases hstep
      rfl
    split at hstep
    · cases hstep
      rfl
    split at hstep
    · cases hstep
      rfl
    · cases hstep
      exact hset m' _ rfl
  | pend intActive m' timeout =>
    simp only [semStep] at hstep
    split at hstep
    · rw [Option.some.injEq] at hstep
      unfold losSemPend at hstep
      split at hstep
      · cases hstep
        rfl
      dsimp only at hstep
      split at hstep
      · cases hstep
        rfl
      split at hstep
      · cases hstep
        exact hset m' _ rfl
      split at hstep
      · cases hstep
        rfl
      · cases hstep
        rfl
    · cases hstep
  | resume =>
    simp only [semStep] at hstep
    split at hstep
    · rw [Option.some.injEq] at hstep
      unfold losSemPendResume at hstep
      dsimp only at hstep
      split at hstep
      · cases hstep
        rfl
      · cases hstep
        rfl
    · cases hstep
  | post m' =>
    cases hi.posted hstep with
    | refused => rfl
    | counted => exact hset m' _ rfl
    | woken _ _ _ _ _ _ hsem => rw [hsem]
  | kernel e =>
    simp only [semStep] at hstep
    split at hstep
    · cases hstep
    · rw [Option.map_eq_some_iff] at hstep
      obtain ⟨k, _, heq⟩ := hstep
      cases heq
      rfl

def kernelMax (maxCount : BitVec 32) : Fin 65536 :=
  if 1#32 = maxCount then osSemBinaryMaxCount else osSemCountingMaxCount

omit [Config] in
theorem osSemaphoreNew_eq (s : SemState) (maxCount initialCount : BitVec 32) :
    osSemaphoreNew s false maxCount initialCount =
      (osSemCreate s (uint16 initialCount) (kernelMax maxCount) true).map fun r =>
        if r.2.1 = .losOk then (r.1, r.2.2) else (r.1, none) := by
  unfold osSemaphoreNew kernelMax losBinarySemCreate losSemCreate
  rw [if_neg Bool.false_ne_true]
  have hret : ∀ x : Option (SemState × SemErrno × Option Nat),
      (x >>= fun r => if r.2.1 = .losOk then some (r.1, r.2.2) else some (r.1, none)) =
        x.map fun r => if r.2.1 = .losOk then (r.1, r.2.2) else (r.1, none) := by
    intro x
    cases x with
    | none => rfl
    | some r =>
      simp only [Option.bind_eq_bind, Option.bind_some, Option.map_some]
      split <;> rfl
  split <;> exact hret _

theorem semaphoreStep_kernel (h : semaphoreStep s event = some s') :
    s' = s ∨ ∃ e r, semStep s e = some (s', r) := by
  cases event with
  | new intActive maxCount initialCount =>
    simp only [semaphoreStep] at h
    cases intActive with
    | true =>
      cases h
      exact .inl rfl
    | false =>
      rw [osSemaphoreNew_eq, Option.map_map, Option.map_eq_some_iff] at h
      obtain ⟨⟨s₁, r, o⟩, hcreate, rfl⟩ := h
      right
      by_cases hone : 1#32 = maxCount
      · refine ⟨.binaryCreate (uint16 initialCount) true, r, ?_⟩
        rw [kernelMax, if_pos hone] at hcreate
        simp only [semStep, losBinarySemCreate, hcreate, Option.map_some, Function.comp_apply]
        split <;> rfl
      · refine ⟨.create (uint16 initialCount) true, r, ?_⟩
        rw [kernelMax, if_neg hone] at hcreate
        simp only [semStep, losSemCreate, hcreate, Option.map_some, Function.comp_apply]
        split <;> rfl
  | acquire intActive semaphoreId timeout =>
    simp only [semaphoreStep] at h
    split at h
    · next hcaller =>
      rw [Option.some.injEq] at h
      subst h
      cases semaphoreId with
      | none => exact .inl rfl
      | some m =>
        simp only [osSemaphoreAcquire]
        split
        · exact .inl rfl
        · exact .inr ⟨.pend intActive m timeout, _, if_pos hcaller⟩
    · cases h
  | release semaphoreId =>
    simp only [semaphoreStep, Option.map_eq_some_iff] at h
    obtain ⟨⟨s₁, status⟩, hcall, rfl⟩ := h
    cases semaphoreId with
    | none =>
      cases hcall
      exact .inl rfl
    | some m =>
      simp only [osSemaphoreRelease, Option.bind_eq_bind, Option.bind_eq_some_iff] at hcall
      obtain ⟨⟨s₂, r⟩, hpost, hret⟩ := hcall
      refine .inr ⟨.post m, r, ?_⟩
      have hs : s₁ = s₂ := by
        dsimp only at hret
        split at hret
        · exact (congrArg Prod.fst (Option.some.inj hret)).symm
        · split at hret <;> exact (congrArg Prod.fst (Option.some.inj hret)).symm
      rw [hs]
      exact hpost
  | delete intActive semaphoreId =>
    simp only [semaphoreStep, osSemaphoreDelete, Option.some.injEq] at h
    subst h
    split
    · exact .inl rfl
    · cases semaphoreId with
      | none => exact .inl rfl
      | some m => exact .inr ⟨.delete m, _, rfl⟩
  | resume =>
    simp only [semaphoreStep] at h
    split at h
    · next hcaller =>
      rw [Option.some.injEq] at h
      subst h
      exact .inr ⟨.resume, _, if_pos hcaller⟩
    · cases h
  | kernel e =>
    simp only [semaphoreStep] at h
    split at h
    · cases h
    · next hcaller =>
      rw [Option.map_eq_some_iff] at h
      obtain ⟨k, hk, rfl⟩ := h
      refine .inr ⟨.kernel e, .losOk, ?_⟩
      simp only [semStep, if_neg hcaller, hk, Option.map_some]

theorem SemReached.next (hs : SemReached s) (h : semaphoreStep s event = some s') : SemReached s' := by
  rcases semaphoreStep_kernel h with rfl | ⟨e, r, hstep⟩
  · exact hs
  · exact hs.step hstep

theorem semaphoreStep_max (hs : SemReached s) (h : semaphoreStep s event = some s')
    (hst : (s.sem m).semStat = true) : (s'.sem m).maxSemCount = (s.sem m).maxSemCount := by
  rcases semaphoreStep_kernel h with rfl | ⟨e, r, hstep⟩
  · rfl
  · exact semStep_max hs hstep hst

theorem SemReached.count_le (hs : SemReached s) (hm : m < Config.semLimit) (hst : (s.sem m).semStat = true) :
    (s.sem m).semCount ≤ (s.sem m).maxSemCount := by
  obtain ⟨c, rfl, V, hi⟩ := hs
  exact (hi.count m hm hst).1

theorem neverExceeds_max (hs : SemReached s) (hm : m < Config.semLimit) (hst : (s.sem m).semStat = true) :
    NeverExceeds s m (s.sem m).maxSemCount := by
  intro events s' hrun
  have hkeep : SemReached s' ∧ (s'.sem m).semStat = true ∧
      (s'.sem m).maxSemCount = (s.sem m).maxSemCount := by
    refine run_invariant (fun t => SemReached t ∧ (t.sem m).semStat = true ∧
      (t.sem m).maxSemCount = (s.sem m).maxSemCount) ?_ hrun ⟨hs, hst, rfl⟩
    intro t event t' ⟨ht, hlive, hmax⟩ ⟨hstep, hlive'⟩
    exact ⟨ht.next hstep, hlive', (semaphoreStep_max ht hstep hlive).trans hmax⟩
  obtain ⟨hs', hst', hmax⟩ := hkeep
  rw [← hmax]
  exact hs'.count_le hm hst'

/-- Nobody waits at the semaphore. -/
structure Uncontended (s : SemState) (m count maxCount : Nat) : Prop where
  reached : SemReached s
  bound : m < Config.semLimit
  cb : s.sem m = ⟨true, count, maxCount⟩
  empty : losListEmpty s.kernel (.wait (.semList m)) = true

omit [Config] in
theorem uint16_le (hle : initialCount.toNat ≤ maxCount.toNat) :
    uint16 initialCount ≤ kernelMax maxCount := by
  show (uint16 initialCount).val ≤ (kernelMax maxCount).val
  rw [uint16_val]
  unfold kernelMax
  split
  · next hone =>
    have h1 : maxCount.toNat = 1 := congrArg BitVec.toNat hone.symm
    show _ ≤ 1
    omega
  · show _ ≤ 0xFFFF
    omega

theorem osSemaphoreNew_spec (hs : SemReached s) (hle : initialCount.toNat ≤ maxCount.toNat) :
    (NoSemaphore s intActive ∧ osSemaphoreNew s intActive maxCount initialCount = some (s, none)) ∨
    (¬ NoSemaphore s intActive ∧ ∃ s' m, osSemaphoreNew s intActive maxCount initialCount = some (s', some m) ∧
      Uncontended s' m (uint16 initialCount).val (kernelMax maxCount).val) := by
  have hcount := uint16_le hle
  cases intActive with
  | true => exact .inl ⟨.inl rfl, rfl⟩
  | false =>
    rw [osSemaphoreNew_eq]
    cases hempty : losListEmpty s.kernel .gUnusedSemList with
    | true =>
      have hbusy : osSemCreate s (uint16 initialCount) (kernelMax maxCount) true =
          some (s, .semAllBusy, none) := by
        unfold osSemCreate
        rw [if_neg (by decide), if_neg (Fin.not_lt.mpr hcount), if_pos hempty]
      rw [hbusy]
      exact .inl ⟨.inr hempty, rfl⟩
    | false =>
      right
      refine ⟨?_, ?_⟩
      · rintro (h | h)
        · cases h
        · cases hempty.symm.trans h
      obtain ⟨c, rfl, V, hi⟩ := hs
      obtain ⟨s', r, o, heq, hout⟩ := osSemCreate_spec hi (uint16 initialCount) (kernelMax maxCount) true
      have hok : r = .losOk := by
        unfold osSemCreate at heq
        rw [if_neg (by decide), if_neg (Fin.not_lt.mpr hcount),
          if_neg (by rw [hempty]; exact Bool.false_ne_true)] at heq
        simp only [Option.bind_eq_bind, Option.bind_eq_some_iff, Option.some.injEq, Prod.mk.injEq] at heq
        obtain ⟨_, _, _, h, _⟩ := heq
        exact h.symm
      rw [heq]
      rcases hout with ⟨_, hne⟩ | ⟨_, m, hm, rfl, hst, _, hpend, hsem, hnil, V', hrel, hpool⟩
      · exact absurd hok hne
      · refine ⟨s', m, by rw [hok]; rfl, ?_, hm, ?_, ?_⟩
        · refine SemReached.next ⟨c, rfl, V, hi⟩
            (show semaphoreStep _ (.new false maxCount initialCount) = some s' from ?_)
          simp only [semaphoreStep, osSemaphoreNew_eq, heq, hok, Option.map_some, if_true]
        · rw [hsem, Function.update_self]
        · have hst' : (s'.sem m).semStat = true := by rw [hsem, Function.update_self]
          refine (hpool.machine.inv.core.ready.forest.listEmpty_iff (hpool.taken m hm hst')).mpr ?_
          rw [hrel.content]
          exact hnil

theorem Uncontended.never_exceeds {count max : Nat} (h : Uncontended s m count max) : NeverExceeds s m max := by
  have hst : (s.sem m).semStat = true := by rw [h.cb]
  have hnever := neverExceeds_max h.reached h.bound hst
  rw [h.cb] at hnever
  exact hnever

theorem Uncontended.release {count max : Nat} (h : Uncontended s m count max) (hlt : count < max) :
    ∃ s', osSemaphoreRelease s (some m) = some (s', .osOK) ∧ Uncontended s' m (count + 1) max := by
  obtain ⟨c, rfl, V, hi⟩ := h.reached
  have hcb := h.cb
  have hst : (c.sem m).semStat = true := by rw [hcb]
  have hmax : max < 65536 := by
    have hle := (hi.count m h.bound hst).2
    rw [hcb] at hle
    exact hle
  have hpost : losSemPost c.toSemState m =
      some (c.toSemState.setSem m ⟨true, count + 1, max⟩, .losOk) := by
    unfold losSemPost
    rw [if_neg (Nat.not_le.mpr h.bound)]
    simp only [hcb, h.empty, Bool.not_true, Bool.false_eq_true, if_false]
    rw [if_neg (Nat.ne_of_gt hlt), Nat.mod_eq_of_lt (show count + 1 < 2 ^ 16 by omega)]
  have hcall : osSemaphoreRelease c.toSemState (some m) =
      some (c.toSemState.setSem m ⟨true, count + 1, max⟩, .osOK) := by
    simp only [osSemaphoreRelease, hpost, Option.bind_eq_bind, Option.bind_some, if_true]
  refine ⟨_, hcall, SemReached.next h.reached (show semaphoreStep _ (.release (some m)) = some _ from ?_),
    h.bound, setSem_self, h.empty⟩
  simp only [semaphoreStep, hcall, Option.map_some]

theorem Uncontended.release_run {count max : Nat} (h : Uncontended s m count max)
    (hle : count + k ≤ max) : ∃ s', Run (keepsSemaphore m) s (List.replicate k (.release (some m))) s' ∧
      Uncontended s' m (count + k) max := by
  induction k with
  | zero => exact ⟨s, Run.nil, h⟩
  | succ k ih =>
    obtain ⟨s₁, hrun, h₁⟩ := ih (by omega)
    obtain ⟨s₂, hcall, h₂⟩ := h₁.release (by omega)
    have hstep : keepsSemaphore m s₁ (.release (some m)) s₂ := by
      refine ⟨?_, by rw [h₂.cb]⟩
      simp only [semaphoreStep, hcall, Option.map_some]
    refine ⟨s₂, ?_, h₂⟩
    rw [List.replicate_succ']
    exact Run.snoc hrun hstep

theorem osSemaphoreNew_starts (hs : SemReached s) (hle : initialCount.toNat ≤ maxCount.toNat) :
    (∀ s' m, osSemaphoreNew s intActive maxCount initialCount = some (s', some m) →
      (s'.sem m).semCount = initialCount.toNat) ↔
    NoSemaphore s intActive ∨ initialCount.toNat < 2 ^ 16 := by
  rcases @osSemaphoreNew_spec _ s intActive maxCount initialCount hs hle with
    ⟨hno, heq⟩ | ⟨hno, s₁, m₁, heq, hnew⟩
  · rw [heq]
    exact iff_of_true nofun (.inl hno)
  · rw [heq, or_iff_right hno]
    have hcount : (s₁.sem m₁).semCount = initialCount.toNat % 65536 := by
      rw [hnew.cb]
      rfl
    constructor
    · intro h
      have hsame := h s₁ m₁ rfl
      omega
    · intro hlt s' m h
      obtain ⟨rfl, rfl⟩ : s₁ = s' ∧ m₁ = m := by simpa using h
      omega

theorem osSemaphoreNew_bounded (hs : SemReached s) (hmin : 1 ≤ maxCount.toNat)
    (hle : initialCount.toNat ≤ maxCount.toNat) :
    (∀ s' m, osSemaphoreNew s intActive maxCount initialCount = some (s', some m) →
      NeverExceeds s' m maxCount.toNat) ↔
    NoSemaphore s intActive ∨ maxCount = 1#32 ∨ 2 ^ 16 - 1 ≤ maxCount.toNat := by
  rcases @osSemaphoreNew_spec _ s intActive maxCount initialCount hs hle with
    ⟨hno, heq⟩ | ⟨hno, s₁, m₁, heq, hnew⟩
  · rw [heq]
    exact iff_of_true nofun (.inl hno)
  · rw [heq, or_iff_right hno]
    constructor
    · intro h
      by_contra hc
      rw [not_or, Nat.not_le] at hc
      obtain ⟨hone, hsmall⟩ := hc
      have hmax : (kernelMax maxCount).val = 0xFFFF := by
        rw [kernelMax, if_neg fun he => hone he.symm]
        rfl
      have hcount : (uint16 initialCount).val = initialCount.toNat := Nat.mod_eq_of_lt (by omega)
      rw [hmax, hcount] at hnew
      -- one release more than the maximum allows
      obtain ⟨s₂, hrun, h₂⟩ := @Uncontended.release_run _ s₁ m₁ (maxCount.toNat + 1 - initialCount.toNat) _ _
        hnew (by omega)
      have hover := h s₁ m₁ rfl _ s₂ hrun
      rw [h₂.cb] at hover
      have hover' : initialCount.toNat + (maxCount.toNat + 1 - initialCount.toNat) ≤ maxCount.toNat := hover
      omega
    · intro hfits s' m h
      obtain ⟨rfl, rfl⟩ : s₁ = s' ∧ m₁ = m := by simpa using h
      have hmax : (kernelMax maxCount).val ≤ maxCount.toNat := by
        unfold kernelMax
        split
        · exact hmin
        · next hone =>
          refine hfits.resolve_left fun he => hone he.symm
      exact fun events s₂ hrun => (hnew.never_exceeds events s₂ hrun).trans hmax

theorem semaphoreHonours_iff (hs : SemReached s) (hmin : 1 ≤ maxCount.toNat)
    (hle : initialCount.toNat ≤ maxCount.toNat) :
    SemaphoreHonours s intActive maxCount initialCount ↔
      NoSemaphore s intActive ∨ maxCount = 1#32 ∨ maxCount = 0xFFFF#32 := by
  have hstarts := @osSemaphoreNew_starts _ s intActive maxCount initialCount hs hle
  have hbounded := @osSemaphoreNew_bounded _ s intActive maxCount initialCount hs hmin hle
  have hval : ∀ n : Nat, n < 2 ^ 32 → (maxCount.toNat = n ↔ maxCount = BitVec.ofNat 32 n) := by
    intro n hn
    constructor
    · intro h
      exact BitVec.eq_of_toNat_eq (by rw [h, BitVec.toNat_ofNat, Nat.mod_eq_of_lt hn])
    · intro h
      rw [h, BitVec.toNat_ofNat, Nat.mod_eq_of_lt hn]
  constructor
  · intro h
    rcases @osSemaphoreNew_spec _ s intActive maxCount initialCount hs hle with
      ⟨hno, _⟩ | ⟨_, s₁, m₁, heq, _⟩
    · exact .inl hno
    · have hfits := not_not.mp fun hn => Option.some_ne_none _ ((h s₁ (some m₁) heq).2 hn)
      exact .inr (hfits.1.imp (hval 1 (by decide)).mp (hval 0xFFFF (by decide)).mp)
  · intro h s' handle heq
    constructor
    · rintro m rfl
      constructor
      · refine hstarts.mpr (h.imp_right fun hm => ?_) s' m heq
        rcases hm with rfl | rfl
        · exact Nat.lt_of_le_of_lt hle (by decide)
        · exact Nat.lt_of_le_of_lt hle (by decide)
      · refine hbounded.mpr (h.imp_right fun hm => hm.imp_right ?_) s' m heq
        rintro rfl
        decide
    · intro hn
      rcases h with hno | hm
      · rcases @osSemaphoreNew_spec _ s intActive maxCount initialCount hs hle with
          ⟨_, heq'⟩ | ⟨hno', _⟩
        · exact (Prod.mk.inj (Option.some.inj (heq.symm.trans heq'))).2
        · exact absurd hno hno'
      · refine absurd ⟨?_, hle⟩ hn
        exact hm.imp (hval 1 (by decide)).mpr (hval 0xFFFF (by decide)).mpr

end

end LiteosM.Cmsis
