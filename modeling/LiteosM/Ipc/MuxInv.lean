import LiteosM.Ipc.Mux
import LiteosM.Kernel.Places

/-!
# What the mutex calls do

`MuxInv` says where the nodes of the mutexes are and who waits. Each call has one lemma
that lists its outcomes, with what every outcome does to the tasks.
-/

namespace LiteosM.Ipc

open LiteosM.Kernel LiteosM.Lib.DlList

variable [Config]

structure MuxInv (s : MuxState) (V : View Node) : Prop where
  machine : Machine s.kernel V
  pool : V.role .gUnusedMuxList = .head
  used : ∀ m < Config.muxLimit, (s.mux m).muxStat = true → V.role (.wait (.muxList m)) = .head
  unused : ∀ x, V.role x = .member .gUnusedMuxList ↔
    ∃ m < Config.muxLimit, x = .wait (.muxList m) ∧ (s.mux m).muxStat = false
  waits : ∀ t w, V.role (.pendList t) = .member (.wait w) →
    ∃ m < Config.muxLimit, w = .muxList m ∧ s.pending t = some m
  owner : ∀ m < Config.muxLimit, (s.mux m).muxStat = true → (s.mux m).muxCount ≠ 0 →
    ∃ t < gTaskMaxNum, (s.mux m).owner = some t
  priority : ∀ m < Config.muxLimit, (s.mux m).muxStat = true → (s.mux m).priority < 32

/-- What an outcome leaves of the tasks: who exists, who timed out, and the priorities. -/
structure MuxTasks (k k' : KernelState) (priority : Nat → Nat) : Prop where
  runTask : k'.runTask = k.runTask
  unused : ∀ u < gTaskMaxNum, (k'.gTaskCBArray u).taskStatus.unused =
    (k.gTaskCBArray u).taskStatus.unused
  timeout : ∀ u < gTaskMaxNum, (k'.gTaskCBArray u).taskStatus.timeout =
    (k.gTaskCBArray u).taskStatus.timeout
  priority : ∀ u < gTaskMaxNum, (k'.gTaskCBArray u).priority = priority u

/-- The caller waits at the mutex `m` that `o` holds, and `o` inherits its priority. -/
structure MuxBlocked (s : MuxState) (V : View Node) (s' : MuxState) (V' : View Node) (m o : Nat) :
    Prop where
  bound : m < Config.muxLimit
  stat : (s.mux m).muxStat = true
  count : (s.mux m).muxCount ≠ 0
  owner : (s.mux m).owner = some o
  other : o ≠ s.kernel.runTask
  mux : s'.mux = s.mux
  pending : s'.pending = Function.update s.pending s.kernel.runTask (some m)
  tasks : MuxTasks s.kernel s'.kernel fun u =>
    if u = o ∧ (s.kernel.gTaskCBArray s.kernel.runTask).priority < (s.kernel.gTaskCBArray o).priority
    then (s.kernel.gTaskCBArray s.kernel.runTask).priority else (s.kernel.gTaskCBArray u).priority
  place : ∀ u w, u ≠ s.kernel.runTask →
    (V'.role (.pendList u) = .member (.wait w) ↔ V.role (.pendList u) = .member (.wait w))
  joined : V'.role (.pendList s.kernel.runTask) = .member (.wait (.muxList m))
  content : ∀ w, V'.content (.wait w) = if w = .muxList m
    then V.content (.wait w) ++ [.pendList s.kernel.runTask] else V.content (.wait w)

/-- The caller gives the mutex `m` up for good; the longest-waiting task `w` gets it. -/
structure MuxHanded (s : MuxState) (V : View Node) (s' : MuxState) (V' : View Node) (m w : Nat) :
    Prop where
  bound : w < gTaskMaxNum
  first : ∃ l, V.content (.wait (.muxList m)) = .pendList w :: l
  waited : V.role (.pendList w) = .member (.wait (.muxList m))
  other : w ≠ s.kernel.runTask
  mux : s'.mux = Function.update s.mux m { s.mux m with
    muxCount := 1, owner := some w, priority := (s.kernel.gTaskCBArray w).priority }
  pending : s'.pending = s.pending
  tasks : MuxTasks s.kernel s'.kernel fun u =>
    if u = s.kernel.runTask then (s.mux m).priority else (s.kernel.gTaskCBArray u).priority
  place : ∀ u l, V'.role (.pendList u) = .member (.wait l) ↔
    V.role (.pendList u) = .member (.wait l) ∧ u ≠ w
  content : ∀ l, V'.content (.wait l) = (V.content (.wait l)).erase (.pendList w)

/-- The caller gives the mutex `m` up for good and nobody waits. -/
structure MuxFreed (s : MuxState) (V : View Node) (s' : MuxState) (V' : View Node) (m : Nat) :
    Prop where
  empty : V.content (.wait (.muxList m)) = []
  mux : s'.mux = Function.update s.mux m { s.mux m with muxCount := 0 }
  pending : s'.pending = s.pending
  tasks : MuxTasks s.kernel s'.kernel fun u =>
    if u = s.kernel.runTask then (s.mux m).priority else (s.kernel.gTaskCBArray u).priority
  place : ∀ u l, V'.role (.pendList u) = .member (.wait l) ↔ V.role (.pendList u) = .member (.wait l)
  content : ∀ l, V'.content (.wait l) = V.content (.wait l)

inductive MuxPended (s : MuxState) (V : View Node) (m : Nat) : MuxState → View Node → MuxErrno → Prop
  | refused {r : MuxErrno} (h₁ : r ≠ .losOk) (h₂ : r ≠ .blocked) : MuxPended s V m s V r
  | acquired (bound : m < Config.muxLimit) (stat : (s.mux m).muxStat = true)
      (count : (s.mux m).muxCount = 0) :
      MuxPended s V m (s.setMux m { s.mux m with
        muxCount := 1
        owner := some s.kernel.runTask
        priority := (s.kernel.gTaskCBArray s.kernel.runTask).priority }) V .losOk
  | again (bound : m < Config.muxLimit) (stat : (s.mux m).muxStat = true)
      (count : (s.mux m).muxCount ≠ 0) (owner : (s.mux m).owner = some s.kernel.runTask) :
      MuxPended s V m (s.setMux m { s.mux m with
        muxCount := ((s.mux m).muxCount + 1) % 2 ^ 16 }) V .losOk
  | blocked {s' : MuxState} {V' : View Node} {o : Nat} (h : MuxBlocked s V s' V' m o) :
      MuxPended s V m s' V' .blocked

/-- The caller holds the mutex. -/
structure MuxHeld (s : MuxState) (m : Nat) : Prop where
  bound : m < Config.muxLimit
  stat : (s.mux m).muxStat = true
  count : (s.mux m).muxCount ≠ 0
  owner : (s.mux m).owner = some s.kernel.runTask

inductive MuxPosted (s : MuxState) (V : View Node) (m : Nat) : MuxState → View Node → MuxErrno → Prop
  | refused (h : ¬ MuxHeld s m) : MuxPosted s V m s V .muxInvalid
  | released (held : MuxHeld s m) (more : (s.mux m).muxCount ≠ 1) :
      MuxPosted s V m (s.setMux m { s.mux m with muxCount := (s.mux m).muxCount - 1 }) V .losOk
  | freed {s' : MuxState} {V' : View Node} (held : MuxHeld s m) (last : (s.mux m).muxCount = 1)
      (h : MuxFreed s V s' V' m) : MuxPosted s V m s' V' .losOk
  | handed {s' : MuxState} {V' : View Node} {w : Nat} (held : MuxHeld s m)
      (last : (s.mux m).muxCount = 1) (h : MuxHanded s V s' V' m w) : MuxPosted s V m s' V' .losOk

section

variable {s s' : MuxState} {k k' : KernelState} {V V' : View Node} {m o t u : Nat}

omit [Config] in
theorem Steady.calling (hs : Steady k k') : k'.calling = k.calling := by
  unfold KernelState.calling KernelState.atWork
  rw [hs.gTaskScheduled, hs.pendSV, hs.runTask, hs.gIdleTaskID]

omit [Config] in
theorem setMux_self {cb : LosMuxCB} : (s.setMux m cb).mux m = cb := by
  simp [MuxState.setMux]

omit [Config] in
theorem setMux_of_ne {cb : LosMuxCB} (h : u ≠ m) : (s.setMux m cb).mux u = s.mux u := by
  simp [MuxState.setMux, h]

theorem MuxInv.setMux (hi : MuxInv s V) {cb : LosMuxCB} (hstat : cb.muxStat = (s.mux m).muxStat)
    (howner : cb.muxCount ≠ 0 → ∃ t < gTaskMaxNum, cb.owner = some t)
    (hprio : cb.priority < 32) : MuxInv (s.setMux m cb) V := by
  have hst : ∀ m', ((s.setMux m cb).mux m').muxStat = (s.mux m').muxStat := by
    intro m'
    by_cases h : m' = m
    · rw [h, setMux_self, hstat]
    · rw [setMux_of_ne h]
  refine ⟨hi.machine, hi.pool, fun m' hm' h => ?_, fun x => ?_, hi.waits, fun m' hm' h hc => ?_,
    fun m' hm' h => ?_⟩
  · rw [hst] at h
    exact hi.used m' hm' h
  · rw [hi.unused x]
    exact exists_congr fun m' => by rw [hst]
  · by_cases hmm : m' = m
    · rw [hmm, setMux_self] at hc ⊢
      exact howner hc
    · rw [hst] at h
      rw [setMux_of_ne hmm] at hc ⊢
      exact hi.owner m' hm' h hc
  · by_cases hmm : m' = m
    · rw [hmm, setMux_self]
      exact hprio
    · rw [hst] at h
      rw [setMux_of_ne hmm]
      exact hi.priority m' hm' h

theorem MuxInv.kernel (hi : MuxInv s V) (hm : Machine k V') {pending : Nat → Option Nat}
    (hrole : ∀ y, (∀ t, y ≠ .pendList t) → (∀ t, y ≠ .sortLinkNode t) → V'.role y = V.role y)
    (hw : ∀ t w, V'.role (.pendList t) = .member (.wait w) →
      ∃ m < Config.muxLimit, w = .muxList m ∧ pending t = some m) :
    MuxInv { s with kernel := k, pending := pending } V' := by
  have hpool : ∀ x, V'.role x = .member .gUnusedMuxList ↔ V.role x = .member .gUnusedMuxList := by
    intro x
    cases x with
    | pendList t =>
      refine iff_of_false (fun h => ?_) fun h => ?_
      · have hf := (hm.inv.core.fits _ _ h).2
        simp at hf
      · have hf := (hi.machine.inv.core.fits _ _ h).2
        simp at hf
    | sortLinkNode t =>
      refine iff_of_false (fun h => ?_) fun h => ?_
      · have hf := (hm.inv.core.fits _ _ h).2
        cases hf
      · have hf := (hi.machine.inv.core.fits _ _ h).2
        cases hf
    | _ => rw [hrole _ (by simp) (by simp)]
  refine ⟨hm, (hrole _ (by simp) (by simp)).trans hi.pool, fun m hm h => ?_, fun x => ?_, hw, hi.owner,
    hi.priority⟩
  · rw [hrole _ (by simp) (by simp)]
    exact hi.used m hm h
  · rw [hpool]
    exact hi.unused x

omit [Config] in
theorem osMuxValidCheck_ok {intActive : Bool} (h : osMuxValidCheck s intActive m = .losOk) :
    (s.mux m).muxStat = true ∧ s.kernel.gLosTaskLock = 0 := by
  unfold osMuxValidCheck at h
  split at h
  · cases h
  · next hst =>
    split at h
    · cases h
    · split at h
      · cases h
      · next hl => exact ⟨by simpa using hst, not_not.mp hl⟩

theorem losMuxPend_spec (hi : MuxInv s V) (hcall : s.kernel.calling) (m timeout : Nat) :
    ∃ s' V' r, losMuxPend s false m timeout = some (s', r) ∧ MuxInv s' V' ∧
      MuxPended s V m s' V' r := by
  have herr : ∀ r : MuxErrno, r ≠ .losOk → r ≠ .blocked → ∃ s' V' r',
      (some (s, r) : Option (MuxState × MuxErrno)) = some (s', r') ∧ MuxInv s' V' ∧
      MuxPended s V m s' V' r' := fun r h1 h2 => ⟨s, V, r, rfl, hi, .refused h1 h2⟩
  have hcaller := hi.machine.calling_caller hcall
  unfold losMuxPend
  by_cases hlim : Config.muxLimit ≤ m
  · rw [if_pos hlim]
    exact herr _ (by decide) (by decide)
  rw [if_neg hlim]
  have hlt := Nat.lt_of_not_le hlim
  dsimp only
  by_cases hcheck : osMuxValidCheck s false m = .losOk
  swap
  · rw [if_pos hcheck]
    refine herr _ hcheck ?_
    unfold osMuxValidCheck
    split
    · decide
    · split
      · decide
      · split <;> decide
  rw [if_neg (not_not.mpr hcheck)]
  obtain ⟨hstat, hlock⟩ := osMuxValidCheck_ok hcheck
  by_cases hzero : (s.mux m).muxCount = 0
  · rw [if_pos hzero]
    simp only [hzero]
    exact ⟨_, V, _, rfl, hi.setMux rfl (fun _ => ⟨_, hcaller.bound, rfl⟩)
      (hi.machine.inv.task _ hcaller.bound).priority,
      .acquired hlt hstat hzero⟩
  rw [if_neg hzero]
  by_cases hself : (s.mux m).owner = some s.kernel.runTask
  · rw [if_pos hself]
    exact ⟨_, V, _, rfl, hi.setMux rfl (fun _ => ⟨_, hcaller.bound, hself⟩)
      (hi.priority m hlt hstat),
      .again hlt hstat hzero hself⟩
  rw [if_neg hself]
  by_cases htime : timeout = 0
  · rw [if_pos htime]
    exact herr _ (by decide) (by decide)
  rw [if_neg htime]
  obtain ⟨o, ho, hown⟩ := hi.owner m hlt hstat hzero
  have hne : o ≠ s.kernel.runTask := fun h => hself (h ▸ hown)
  rw [hown]
  simp only [Option.bind_eq_bind, Option.bind_some]
  -- the caller notes the mutex
  have hm0 := hi.machine.modify hcaller.bound (f := fun cb => { cb with taskMux := some m }) rfl rfl rfl rfl rfl
  have hmv0 := Moved.modifyTask s.kernel.runTask s.kernel V fun cb => { cb with taskMux := some m }
  have hcb0 := modifyTask_self s.kernel s.kernel.runTask fun cb => { cb with taskMux := some m }
  generalize (s.kernel.modifyTask s.kernel.runTask fun cb => { cb with taskMux := some m }) = k0
    at hm0 hmv0 hcb0 ⊢
  have hrun0 : k0.runTask = s.kernel.runTask := hmv0.runTask
  have ho0 : k0.gTaskCBArray o = s.kernel.gTaskCBArray o := hmv0.task o hne
  have hprun : (k0.gTaskCBArray s.kernel.runTask).priority =
      (s.kernel.gTaskCBArray s.kernel.runTask).priority := by rw [hcb0]
  rw [hprun, ho0]
  -- the owner inherits
  obtain ⟨k1, V1, heq1, hm1, hmv1, hs1, hp1, hw1⟩ : ∃ k1 V1,
      (if (s.kernel.gTaskCBArray s.kernel.runTask).priority < (s.kernel.gTaskCBArray o).priority then
        (osSchedModifyTaskSchedParam k0 o (s.kernel.gTaskCBArray s.kernel.runTask).priority).map Prod.fst
        else some k0) = some k1 ∧ Machine k1 V1 ∧ Moved o k0 V k1 V1 ∧
      (k1.gTaskCBArray o).taskStatus = (s.kernel.gTaskCBArray o).taskStatus ∧
      (k1.gTaskCBArray o).priority = (if (s.kernel.gTaskCBArray s.kernel.runTask).priority <
        (s.kernel.gTaskCBArray o).priority then (s.kernel.gTaskCBArray s.kernel.runTask).priority
        else (s.kernel.gTaskCBArray o).priority) ∧
      ∀ w, V1.role (.pendList o) = .member (.wait w) ↔ V.role (.pendList o) = .member (.wait w) := by
    by_cases hlow : (s.kernel.gTaskCBArray s.kernel.runTask).priority < (s.kernel.gTaskCBArray o).priority
    · rw [if_pos hlow, if_pos hlow]
      obtain ⟨k1, V1, b, heq, hm1, hmv1, hs1, hp1, _, hw1⟩ := hm0.inherit ho
        (hi.machine.inv.task _ hcaller.bound).priority
      rw [heq]
      exact ⟨k1, V1, rfl, hm1, hmv1, by rw [hs1, ho0], hp1, hw1⟩
    · rw [if_neg hlow, if_neg hlow]
      exact ⟨k0, V, rfl, hm0, Moved.refl o k0 V, by rw [ho0], by rw [ho0], fun _ => Iff.rfl⟩
  have hbind : ∀ f : KernelState → Option (MuxState × MuxErrno),
      (if (s.kernel.gTaskCBArray s.kernel.runTask).priority < (s.kernel.gTaskCBArray o).priority then
        ((osSchedModifyTaskSchedParam k0 o (s.kernel.gTaskCBArray s.kernel.runTask).priority).map
          Prod.fst).bind f
        else f k0) = f k1 := by
    intro f
    split at heq1
    · next h => rw [if_pos h, heq1, Option.bind_some]
    · next h =>
      rw [Option.some.injEq] at heq1
      rw [if_neg h, heq1]
  rw [hbind]
  have hst1 := hmv0.toSteady.trans hmv1.toSteady
  have hrun1 : k1.runTask = s.kernel.runTask := hst1.runTask
  obtain ⟨V2, hV2, hm2, ht2, hs2, hp2, _⟩ := hm1.wait (l := .muxList m)
    ((Steady.calling hst1).trans hcall) (hst1.gLosTaskLock.trans hlock) (by
      rw [hmv1.role _ (by simp) (by simp)]
      exact hi.used m hlt hstat) timeout
  rw [hrun1] at hV2 ht2 hs2 hp2
  have hcont1 : ∀ w, V1.content (.wait w) = V.content (.wait w) :=
    hmv1.wait_eq hm0.inv.core hm1.inv.core hw1
  have hrole1 : ∀ u w, V1.role (.pendList u) = .member (.wait w) ↔
      V.role (.pendList u) = .member (.wait w) := by
    intro u w
    rw [← hm1.inv.core.ready.forest.mem, ← hi.machine.inv.core.ready.forest.mem, hcont1]
  have hrole2 : ∀ u w, u ≠ s.kernel.runTask → (V2.role (.pendList u) = .member (.wait w) ↔
      V.role (.pendList u) = .member (.wait w)) := by
    intro u w hu
    rw [ht2.role _ (by simpa using hu) (by simp), hrole1]
  have hjoin : V2.role (.pendList s.kernel.runTask) = .member (.wait (.muxList m)) := by
    rw [hV2, View.put_role, if_pos rfl]
  obtain ⟨b, hb⟩ := losSchedule_eq (osSchedTaskWait k1 (.muxList m) timeout)
  have hcb2 : (losSchedule (osSchedTaskWait k1 (.muxList m) timeout)).gTaskCBArray =
      (osSchedTaskWait k1 (.muxList m) timeout).gTaskCBArray := by rw [hb]
  have hrun2 : (losSchedule (osSchedTaskWait k1 (.muxList m) timeout)).runTask = s.kernel.runTask :=
    (losSchedule_runTask _).trans (ht2.runTask.trans hrun1)
  generalize losSchedule (osSchedTaskWait k1 (.muxList m) timeout) = k2 at hm2 hcb2 hrun2 ⊢
  -- what is left of the status and the priority of each task
  have htask : ∀ u, (k2.gTaskCBArray u).taskStatus.unused = (s.kernel.gTaskCBArray u).taskStatus.unused ∧
      (k2.gTaskCBArray u).taskStatus.timeout = (s.kernel.gTaskCBArray u).taskStatus.timeout ∧
      (k2.gTaskCBArray u).priority = if u = o ∧ (s.kernel.gTaskCBArray s.kernel.runTask).priority <
        (s.kernel.gTaskCBArray o).priority then (s.kernel.gTaskCBArray s.kernel.runTask).priority
        else (s.kernel.gTaskCBArray u).priority := by
    intro u
    rw [hcb2]
    by_cases hur : u = s.kernel.runTask
    · have h1 : k1.gTaskCBArray u = k0.gTaskCBArray u := hmv1.task u (by rw [hur]; exact hne.symm)
      rw [hur] at h1 ⊢
      rw [hs2, hp2, h1, hcb0, if_neg (fun h => hne h.1.symm)]
      unfold waiting
      split <;> exact ⟨rfl, rfl, rfl⟩
    · rw [ht2.task u hur]
      by_cases huo : u = o
      · rw [huo, hs1, hp1]
        refine ⟨rfl, rfl, ?_⟩
        simp only [true_and]
      · rw [hmv1.task u huo, hmv0.task u hur, if_neg (fun h => huo h.1)]
        exact ⟨rfl, rfl, rfl⟩
  refine ⟨_, V2, _, rfl, hi.kernel hm2 (fun y hp hs => ?_) fun t w h => ?_,
    .blocked (o := o) ?_⟩
  · rw [ht2.role _ (hp _) (hs _), hmv1.role _ (hp _) (hs _)]
  · by_cases htr : t = s.kernel.runTask
    · rw [htr, hjoin] at h
      injection h with h
      injection h with h
      exact ⟨m, hlt, h.symm, by rw [htr, Function.update_self]⟩
    · rw [Function.update_of_ne htr]
      exact hi.waits t w ((hrole2 t w htr).mp h)
  · refine ⟨hlt, hstat, hzero, hown, hne, rfl, rfl, ⟨hrun2, fun u _ => (htask u).1,
      fun u _ => (htask u).2.1, fun u _ => (htask u).2.2⟩, fun u w hu => hrole2 u w hu, hjoin, fun w => ?_⟩
    rw [hV2, View.put_content]
    by_cases hw : w = .muxList m
    · rw [hw, if_pos rfl, if_pos rfl, hcont1]
    · rw [if_neg (by simpa using hw), if_neg hw, hcont1]

theorem losMuxPost_spec (hi : MuxInv s V) (hcall : s.kernel.calling) (m : Nat) :
    ∃ s' V' r, losMuxPost s m = some (s', r) ∧ MuxInv s' V' ∧ MuxPosted s V m s' V' r := by
  have hcaller := hi.machine.calling_caller hcall
  by_cases hheld : MuxHeld s m
  swap
  · have heq : losMuxPost s m = some (s, .muxInvalid) := by
      unfold losMuxPost
      split
      · rfl
      · next h =>
        dsimp only
        rw [if_pos]
        by_contra hno
        obtain ⟨h1, h2⟩ := not_or.mp h
        obtain ⟨h3, h4⟩ := not_or.mp hno
        exact hheld ⟨Nat.lt_of_not_le h1, by simpa using h2, h3, not_not.mp h4⟩
    exact ⟨s, V, _, heq, hi, .refused hheld⟩
  obtain ⟨hlt, hstat, hcount, hown⟩ := hheld
  unfold losMuxPost
  rw [if_neg (by simp [hlt, hstat])]
  dsimp only
  rw [if_neg (by simp [hcount, hown])]
  by_cases hmore : (s.mux m).muxCount - 1 ≠ 0
  · rw [if_pos hmore]
    exact ⟨_, V, _, rfl, hi.setMux rfl (fun _ => ⟨_, hcaller.bound, hown⟩)
      (hi.priority m hlt hstat),
      .released ⟨hlt, hstat, hcount, hown⟩ (by omega)⟩
  rw [if_neg hmore]
  have hlast : (s.mux m).muxCount = 1 := by omega
  simp only [Option.bind_eq_bind]
  -- the caller gets its old priority back
  obtain ⟨k1, V1, heq1, hm1, hmv1, hs1, hp1, hw1⟩ : ∃ k1 V1,
      (if (s.kernel.gTaskCBArray s.kernel.runTask).priority ≠ (s.mux m).priority then
        (osSchedModifyTaskSchedParam s.kernel s.kernel.runTask (s.mux m).priority).map Prod.fst
        else some s.kernel) = some k1 ∧ Machine k1 V1 ∧ Moved s.kernel.runTask s.kernel V k1 V1 ∧
      (k1.gTaskCBArray s.kernel.runTask).taskStatus =
        (s.kernel.gTaskCBArray s.kernel.runTask).taskStatus ∧
      (k1.gTaskCBArray s.kernel.runTask).priority = (s.mux m).priority ∧
      ∀ w, V1.role (.pendList s.kernel.runTask) = .member (.wait w) ↔
        V.role (.pendList s.kernel.runTask) = .member (.wait w) := by
    by_cases hne : (s.kernel.gTaskCBArray s.kernel.runTask).priority ≠ (s.mux m).priority
    · rw [if_pos hne]
      obtain ⟨k1, V1, b, heq, hm1, hmv1, hs1, hp1, _, hw1⟩ := hi.machine.inherit hcaller.bound
        (hi.priority m hlt hstat)
      rw [heq]
      exact ⟨k1, V1, rfl, hm1, hmv1, hs1, hp1, hw1⟩
    · rw [if_neg hne]
      exact ⟨_, V, rfl, hi.machine, Moved.refl _ _ V, rfl, not_not.mp hne, fun _ => Iff.rfl⟩
  have hbind : ∀ f : KernelState → Option (MuxState × MuxErrno),
      (if (s.kernel.gTaskCBArray s.kernel.runTask).priority ≠ (s.mux m).priority then
        ((osSchedModifyTaskSchedParam s.kernel s.kernel.runTask (s.mux m).priority).map Prod.fst).bind f
        else f s.kernel) = f k1 := by
    intro f
    split at heq1
    · next h => rw [if_pos h, heq1, Option.bind_some]
    · next h =>
      rw [Option.some.injEq] at heq1
      rw [if_neg h, heq1]
  simp only [Option.bind_some]
  rw [hbind]
  have hcont1 : ∀ w, V1.content (.wait w) = V.content (.wait w) :=
    hmv1.wait_eq hi.machine.inv.core hm1.inv.core hw1
  have hrole1 : ∀ u w, V1.role (.pendList u) = .member (.wait w) ↔
      V.role (.pendList u) = .member (.wait w) := by
    intro u w
    rw [← hm1.inv.core.ready.forest.mem, ← hi.machine.inv.core.ready.forest.mem, hcont1]
  have htask1 : MuxTasks s.kernel k1 fun u =>
      if u = s.kernel.runTask then (s.mux m).priority else (s.kernel.gTaskCBArray u).priority := by
    refine ⟨hmv1.runTask, fun u _ => ?_, fun u _ => ?_, fun u _ => ?_⟩
    · by_cases hu : u = s.kernel.runTask
      · rw [hu, hs1]
      · rw [hmv1.task u hu]
    · by_cases hu : u = s.kernel.runTask
      · rw [hu, hs1]
      · rw [hmv1.task u hu]
    · by_cases hu : u = s.kernel.runTask
      · rw [if_pos hu, hu, hp1]
      · rw [if_neg hu, hmv1.task u hu]
  have hhead1 : V1.role (.wait (.muxList m)) = .head :=
    (hmv1.role _ (by simp) (by simp)).trans (hi.used m hlt hstat)
  have hf1 := hm1.inv.core.ready.forest
  cases hempty : losListEmpty k1 (.wait (.muxList m)) with
  | true =>
    have hnil := (hf1.listEmpty_iff hhead1).mp hempty
    rw [if_neg (by simp)]
    have hi1 : MuxInv { s with kernel := k1 } V1 := hi.kernel hm1
      (fun y hp hs => hmv1.role y (hp _) (hs _)) fun t w h => hi.waits t w ((hrole1 t w).mp h)
    refine ⟨_, V1, _, rfl, hi1.setMux rfl (fun h => absurd rfl h) (hi.priority m hlt hstat),
      .freed ⟨hlt, hstat, hcount, hown⟩ hlast ⟨?_, rfl, rfl, htask1, hrole1, hcont1⟩⟩
    rw [← hcont1]
    exact hnil
  | false =>
    rw [if_pos (by simp)]
    -- the longest-waiting task
    obtain ⟨x, l, hcon⟩ : ∃ x l, V1.content (.wait (.muxList m)) = x :: l := by
      cases hc : V1.content (.wait (.muxList m)) with
      | nil =>
        have h := (hf1.listEmpty_iff hhead1).mpr hc
        rw [show listEmpty k1.links (.wait (.muxList m)) = losListEmpty k1 (.wait (.muxList m)) from rfl,
          hempty] at h
        cases h
      | cons x l => exact ⟨x, l, rfl⟩
    have hx : x ∈ V1.content (.wait (.muxList m)) := by
      rw [hcon]
      exact List.mem_cons_self
    obtain ⟨w, hw, rfl⟩ := hm1.inv.core.mem_pendList hx (.inr (.inr (.inr ⟨_, rfl⟩)))
    have hwrole := (hf1.mem _ _).mp hx
    have hwrole0 := (hrole1 w _).mp hwrole
    have hfirst : losDlListFirst k1 (.wait (.muxList m)) = .pendList w := hf1.next_first hhead1 hcon
    have hwr : w ≠ s.kernel.runTask := by
      intro he
      rw [he] at hwrole0
      exact hi.machine.caller_gone hcall _ hwrole0
    rw [hfirst]
    simp only [osTcbFromPendList, Option.bind_some]
    have hm2 := hm1.modify hw (f := fun cb => { cb with taskMux := none }) rfl rfl rfl rfl rfl
    have hmv2 := Moved.modifyTask w k1 V1 fun cb => { cb with taskMux := none }
    have hcb2 := modifyTask_self k1 w fun cb => { cb with taskMux := none }
    have hpw : (k1.gTaskCBArray w).priority = (s.kernel.gTaskCBArray w).priority := by
      rw [hmv1.task w hwr]
    generalize (k1.modifyTask w fun cb => { cb with taskMux := none }) = k2 at hm2 hmv2 hcb2 ⊢
    have hpend2 : (k2.gTaskCBArray w).taskStatus.pend = true := by
      rw [hcb2]
      exact hm1.inv.pend_of_wait hw hwrole
    obtain ⟨k3, V3, heq3, hm3, hmv3, hgone3, hcont3, hs3, hp3, _⟩ := hm2.wake hw hpend2
    rw [heq3]
    simp only [Option.bind_some]
    have hrole3 : ∀ u l, V3.role (.pendList u) = .member (.wait l) ↔
        V.role (.pendList u) = .member (.wait l) ∧ u ≠ w := by
      intro u l
      by_cases hu : u = w
      · rw [hu]
        exact iff_of_false (hgone3 l) fun h => h.2 rfl
      · rw [hmv3.role _ (by simpa using hu) (by simp), hrole1, and_iff_left hu]
    have hstatus3 : (k3.gTaskCBArray w).taskStatus.unused = (k1.gTaskCBArray w).taskStatus.unused ∧
        (k3.gTaskCBArray w).taskStatus.timeout = (k1.gTaskCBArray w).taskStatus.timeout := by
      rw [hs3, hcb2]
      split <;> exact ⟨rfl, rfl⟩
    have htask3 : MuxTasks s.kernel k3 fun u =>
        if u = s.kernel.runTask then (s.mux m).priority else (s.kernel.gTaskCBArray u).priority := by
      refine ⟨hmv3.runTask.trans (hmv2.runTask.trans hmv1.runTask), fun u hu => ?_, fun u hu => ?_,
        fun u hu => ?_⟩
      · rw [← htask1.unused u hu]
        by_cases huw : u = w
        · rw [huw]
          exact hstatus3.1
        · rw [hmv3.task u huw, hmv2.task u huw]
      · rw [← htask1.timeout u hu]
        by_cases huw : u = w
        · rw [huw]
          exact hstatus3.2
        · rw [hmv3.task u huw, hmv2.task u huw]
      · rw [← htask1.priority u hu]
        by_cases huw : u = w
        · rw [huw, hp3, hcb2]
        · rw [hmv3.task u huw, hmv2.task u huw]
    obtain ⟨b, hb⟩ := losSchedule_eq k3
    have hm4 := hm3.losSchedule
    have hrun4 : (losSchedule k3).runTask = k3.runTask := losSchedule_runTask k3
    have hcb4 : (losSchedule k3).gTaskCBArray = k3.gTaskCBArray := by rw [hb]
    generalize losSchedule k3 = k4 at hm4 hrun4 hcb4 ⊢
    have htask4 : MuxTasks s.kernel k4 fun u =>
        if u = s.kernel.runTask then (s.mux m).priority else (s.kernel.gTaskCBArray u).priority := by
      obtain ⟨h1, h2, h3, h4⟩ := htask3
      rw [← hcb4] at h2 h3 h4
      exact ⟨hrun4.trans h1, h2, h3, h4⟩
    have hi4 : MuxInv { s with kernel := k4 } V3 := hi.kernel hm4
      (fun y hp hs => (hmv3.role y (hp _) (hs _)).trans (hmv1.role y (hp _) (hs _)))
      fun t l h => hi.waits t l ((hrole3 t l).mp h).1
    refine ⟨_, V3, _, rfl, hi4.setMux rfl (fun _ => ⟨w, hw, rfl⟩) (hm1.inv.task w hw).priority,
      .handed (w := w) ⟨hlt, hstat, hcount, hown⟩ hlast
        ⟨hw, ⟨l, ?_⟩, hwrole0, hwr, ?_, rfl, htask4, hrole3, fun l => ?_⟩⟩
    · rw [← hcont1]
      exact hcon
    · rw [← hpw]
      rfl
    · rw [hcont3, hcont1]

/-- Creating and deleting mutexes does not concern the tasks. -/
structure MuxRelinked (s : MuxState) (V : View Node) (s' : MuxState) (V' : View Node) : Prop where
  task : s'.kernel.gTaskCBArray = s.kernel.gTaskCBArray
  runTask : s'.kernel.runTask = s.kernel.runTask
  pending : s'.pending = s.pending
  place : ∀ t, V'.role (.pendList t) = V.role (.pendList t)
  content : ∀ l, V'.content (.wait l) = V.content (.wait l)

theorem MuxInv.relink (hi : MuxInv s V) {l : Store Node} (cb : LosMuxCB) (hlt : m < Config.muxLimit)
    (hf : Forest l V') (hrole : ∀ y, y ≠ .wait (.muxList m) → V'.role y = V.role y)
    (hself : V'.role (.wait (.muxList m)) = if cb.muxStat then .head else .member .gUnusedMuxList)
    (hcount : cb.muxCount = 0) (hprio : cb.muxStat = true → cb.priority < 32) :
    MuxInv ({ s with kernel := { s.kernel with links := l } }.setMux m cb) V' := by
  have hm' : Machine { s.kernel with links := l } V' := by
    refine hi.machine.relink hf (fun y hy => hrole y fun he => ?_) fun y h hy hyr => ?_
    · rw [he] at hy
      cases hy
    · by_cases hym : y = .wait (.muxList m)
      · rw [hym, hself] at hyr
        split at hyr
        · cases hyr
        · injection hyr with hyr
          rw [hym, ← hyr]
          exact .inr (.inl rfl)
      · rw [hrole y hym] at hyr
        exact hi.machine.inv.core.fits y h hyr
  refine ⟨hm', (hrole _ (by simp)).trans hi.pool, fun m' hm h => ?_, fun x => ?_, fun t w h => ?_,
    fun m' hm h hc => ?_, fun m' hm h => ?_⟩
  · by_cases hmm : m' = m
    · rw [hmm, setMux_self] at h
      rw [hmm, hself, if_pos h]
    · rw [setMux_of_ne hmm] at h
      rw [hrole _ (by simpa using hmm)]
      exact hi.used m' hm h
  · by_cases hx : x = .wait (.muxList m)
    · rw [hx, hself]
      constructor
      · intro h
        refine ⟨m, hlt, rfl, ?_⟩
        rw [setMux_self]
        cases hst : cb.muxStat with
        | false => rfl
        | true =>
          rw [hst] at h
          cases h
      · rintro ⟨m', _, he, hst⟩
        have hmm : m' = m := by simpa using he.symm
        rw [hmm, setMux_self] at hst
        rw [hst]
        rfl
    · rw [hrole x hx, hi.unused x]
      refine exists_congr fun m' => and_congr_right fun _ => and_congr_right fun he => ?_
      have hmm : m' ≠ m := by
        rintro rfl
        exact hx he
      rw [setMux_of_ne hmm]
  · rw [hrole _ (by simp)] at h
    exact hi.waits t w h
  · by_cases hmm : m' = m
    · rw [hmm, setMux_self] at hc
      exact absurd hcount hc
    · rw [setMux_of_ne hmm] at h hc ⊢
      exact hi.owner m' hm h hc
  · by_cases hmm : m' = m
    · rw [hmm, setMux_self] at h ⊢
      exact hprio h
    · rw [setMux_of_ne hmm] at h ⊢
      exact hi.priority m' hm h

theorem losMuxCreate_spec (hi : MuxInv s V) (muxHandle : Bool) :
    ∃ s' V' r o, losMuxCreate s muxHandle = some (s', r, o) ∧ MuxInv s' V' ∧
      MuxRelinked s V s' V' ∧ ((s'.mux = s.mux ∧ r ≠ .losOk) ∨ (r = .losOk ∧ ∃ m < Config.muxLimit,
        o = some m ∧ (s.mux m).muxStat = false ∧ s'.mux = Function.update s.mux m
          { muxStat := true, muxCount := 0, owner := none, priority := 0 })) := by
  unfold losMuxCreate
  split
  · exact ⟨s, V, _, _, rfl, hi, ⟨rfl, rfl, rfl, fun _ => rfl, fun _ => rfl⟩, .inl ⟨rfl, by decide⟩⟩
  · have hf := hi.machine.inv.core.ready.forest
    split
    · exact ⟨s, V, _, _, rfl, hi, ⟨rfl, rfl, rfl, fun _ => rfl, fun _ => rfl⟩, .inl ⟨rfl, by decide⟩⟩
    · next hne =>
      obtain ⟨x, l, hcon⟩ : ∃ x l, V.content .gUnusedMuxList = x :: l := by
        cases hc : V.content .gUnusedMuxList with
        | nil => exact absurd ((hf.listEmpty_iff hi.pool).mpr hc) hne
        | cons x l => exact ⟨x, l, rfl⟩
      have hx : V.role x = .member .gUnusedMuxList := by
        rw [← hf.mem, hcon]
        exact List.mem_cons_self
      obtain ⟨m, hlt, rfl, hstat⟩ := (hi.unused x).mp hx
      have hfirst : losDlListFirst s.kernel .gUnusedMuxList = .wait (.muxList m) :=
        hf.next_first hi.pool hcon
      rw [hfirst]
      simp only [getMuxList, Option.bind_eq_bind, Option.bind_some]
      have hf1 := hf.listDelete .null hx
      have hloose : (V.remove (.wait (.muxList m))).role (.wait (.muxList m)) = .loose := by
        rw [View.remove_role, if_pos rfl]
      have hf2 := hf1.listInit hloose
      have hrole : ∀ y, y ≠ .wait (.muxList m) → ((V.remove (.wait (.muxList m))).setRole
          (.wait (.muxList m)) .head).role y = V.role y := by
        intro y hy
        rw [View.setRole_role, if_neg hy, View.remove_role, if_neg hy]
      refine ⟨_, _, _, _, rfl, hi.relink ⟨true, 0, none, 0⟩ hlt hf2 hrole ?_ rfl ?_,
        ⟨rfl, rfl, rfl, fun t => hrole _ (by simp), fun l => ?_⟩, .inr ⟨rfl, m, hlt, rfl, hstat, rfl⟩⟩
      · rw [View.setRole_role, if_pos rfl, if_pos rfl]
      · exact fun _ => by decide
      · refine List.erase_of_not_mem fun h => ?_
        have hrl := (hf.mem _ _).mp h
        rw [hx] at hrl
        cases hrl

theorem losMuxDelete_spec (hi : MuxInv s V) (m : Nat) :
    ∃ V', MuxInv (losMuxDelete s m).1 V' ∧ MuxRelinked s V (losMuxDelete s m).1 V' ∧
      (((losMuxDelete s m).1 = s ∧ V' = V ∧ (losMuxDelete s m).2 ≠ .losOk) ∨
        (m < Config.muxLimit ∧ (s.mux m).muxStat = true ∧ (s.mux m).muxCount = 0 ∧
          V.content (.wait (.muxList m)) = [] ∧ (losMuxDelete s m).2 = .losOk ∧
          (losMuxDelete s m).1.mux = Function.update s.mux m { s.mux m with muxStat := false })) := by
  have herr : ∀ r : MuxErrno, r ≠ .losOk → ∃ V', MuxInv s V' ∧ MuxRelinked s V s V' ∧
      ((s = s ∧ V' = V ∧ r ≠ .losOk) ∨ (m < Config.muxLimit ∧ (s.mux m).muxStat = true ∧
        (s.mux m).muxCount = 0 ∧ V.content (.wait (.muxList m)) = [] ∧ r = .losOk ∧
        s.mux = Function.update s.mux m { s.mux m with muxStat := false })) :=
    fun r hr => ⟨V, hi, ⟨rfl, rfl, rfl, fun _ => rfl, fun _ => rfl⟩, .inl ⟨rfl, rfl, hr⟩⟩
  unfold losMuxDelete
  split
  · exact herr _ (by simp)
  · next hlim =>
    split
    · exact herr _ (by simp)
    · next hst =>
      split
      · exact herr _ (by simp)
      · next hbusy =>
        have hlt := Nat.lt_of_not_le hlim
        have hstat : (s.mux m).muxStat = true := by simpa using hst
        have hf := hi.machine.inv.core.ready.forest
        have hhead := hi.used m hlt hstat
        have hfree : losListEmpty s.kernel (.wait (.muxList m)) = true ∧ (s.mux m).muxCount = 0 := by
          simpa using hbusy
        have hnil := (hf.listEmpty_iff hhead).mp hfree.1
        have hf1 := hf.retire hhead hnil
        have hpool : (V.setRole (.wait (.muxList m)) .loose).role .gUnusedMuxList = .head := by
          rw [View.setRole_role, if_neg (by simp)]
          exact hi.pool
        have hf2 := hf1.listAdd hpool (x := .wait (.muxList m)) (by rw [View.setRole_role, if_pos rfl])
        have hrole : ∀ y, y ≠ .wait (.muxList m) → ((V.setRole (.wait (.muxList m)) .loose).put
            (.wait (.muxList m)) .gUnusedMuxList (.wait (.muxList m) ::
              (V.setRole (.wait (.muxList m)) .loose).content .gUnusedMuxList)).role y = V.role y := by
          intro y hy
          rw [View.put_role, if_neg hy, View.setRole_role, if_neg hy]
        refine ⟨_, hi.relink { s.mux m with muxStat := false } hlt hf2 hrole ?_ hfree.2 ?_,
          ⟨rfl, rfl, rfl, fun t => hrole _ (by simp), fun l => ?_⟩,
          .inr ⟨hlt, hstat, hfree.2, hnil, rfl, rfl⟩⟩
        · rw [View.put_role, if_pos rfl]
          rfl
        · intro h
          cases h
        · rw [View.put_content, if_neg (by simp), View.setRole_content]

omit [Config] in
theorem osMuxInit_pool {s : MuxState} (hf : Forest s.kernel.links V) (hpool : V.role .gUnusedMuxList = .head)
    (hloose : ∀ m, V.role (.wait (.muxList m)) = .loose)
    (n : Nat) : ∃ s' V', (List.range n).foldl (fun s index =>
      { s with
        kernel := losListTailInsert s.kernel .gUnusedMuxList (.wait (.muxList index))
        mux := Function.update s.mux index { s.mux index with muxStat := false } }) s = s' ∧
      Forest s'.kernel.links V' ∧ s'.kernel = { s.kernel with links := s'.kernel.links } ∧
      s'.pending = s.pending ∧ (∀ m < n, V'.role (.wait (.muxList m)) = .member .gUnusedMuxList ∧
        (s'.mux m).muxStat = false) ∧
      (∀ y, (∀ m < n, y ≠ .wait (.muxList m)) → V'.role y = V.role y) := by
  induction n with
  | zero =>
    exact ⟨s, V, rfl, hf, rfl, rfl, fun m hm => absurd hm (Nat.not_lt_zero m), fun _ _ => rfl⟩
  | succ n ih =>
    obtain ⟨s1, V1, heq1, hf1, hk1, hp1, hin1, hout1⟩ := ih
    rw [List.range_succ, List.foldl_append, List.foldl_cons, List.foldl_nil, heq1]
    have hhead : V1.role .gUnusedMuxList = .head := by
      rw [hout1 _ fun _ _ => by simp]
      exact hpool
    have hl : V1.role (.wait (.muxList n)) = .loose := by
      rw [hout1 _ fun m hm => by simp; omega]
      exact hloose n
    refine ⟨_, _, rfl, hf1.listTailInsert hhead hl, ?_, hp1, fun m hm => ?_, fun y hy => ?_⟩
    · exact congrArg (fun k : KernelState => { k with
        links := listTailInsert s1.kernel.links .gUnusedMuxList (.wait (.muxList n)) }) hk1
    · rw [View.put_role]
      by_cases hmn : m = n
      · rw [hmn, if_pos rfl]
        exact ⟨rfl, congrArg LosMuxCB.muxStat (Function.update_self n _ s1.mux)⟩
      · rw [if_neg (by simpa using hmn)]
        obtain ⟨h1, h2⟩ := hin1 m (by omega)
        exact ⟨h1, (congrArg LosMuxCB.muxStat (Function.update_of_ne hmn _ s1.mux)).trans h2⟩
    · rw [View.put_role, if_neg (hy n (Nat.lt_succ_self n))]
      exact hout1 y fun m hm => hy m (by omega)

theorem muxBooted_inv (hmax : gTaskMaxNum ≤ osInvalid) (hb : MuxBooted s) :
    ∃ V, MuxInv s V ∧ (∀ t w, V.role (.pendList t) ≠ .member (.wait w)) ∧
      (∀ m < Config.muxLimit, (s.mux m).muxStat = false) ∧ (∀ t, s.pending t = none) ∧
      ∀ t < gTaskMaxNum, (s.kernel.gTaskCBArray t).taskStatus.timeout = false := by
  obtain ⟨s₀, hk, hpend, hs⟩ := hb
  obtain ⟨V0, hm0, hloose, _, htime⟩ := booted_machine hmax hk
  have hf0 := hm0.inv.core.ready.forest
  have hf1 := hf0.listInit (hloose .gUnusedMuxList rfl)
  obtain ⟨s1, V1, heq1, hf2, hk1, hp1, hin1, hout1⟩ := osMuxInit_pool
    (s := { s₀ with kernel := losListInit s₀.kernel .gUnusedMuxList }) hf1
    (by rw [View.setRole_role, if_pos rfl])
    (fun m => by rw [View.setRole_role, if_neg (by simp)]; exact hloose _ rfl) Config.muxLimit
  have hs1 : s = s1 := hs.trans heq1
  rw [hs1]
  have hrole : ∀ y, (∀ m < Config.muxLimit, y ≠ .wait (.muxList m)) → y ≠ .gUnusedMuxList →
      V1.role y = V0.role y := by
    intro y hy hne
    rw [hout1 y hy, View.setRole_role, if_neg hne]
  have hcases : ∀ y h, y.isObject = true → V1.role y = .member h →
      ∃ m < Config.muxLimit, y = .wait (.muxList m) ∧ h = .gUnusedMuxList := by
    intro y h hy hyr
    by_cases hex : ∃ m < Config.muxLimit, y = .wait (.muxList m)
    · obtain ⟨m, hm, rfl⟩ := hex
      rw [(hin1 m hm).1] at hyr
      injection hyr with hyr
      exact ⟨m, hm, rfl, hyr.symm⟩
    · have hno : ∀ m < Config.muxLimit, y ≠ .wait (.muxList m) := fun m hm he => hex ⟨m, hm, he⟩
      rw [hout1 y hno, View.setRole_role] at hyr
      split at hyr
      · cases hyr
      · rw [hloose y hy] at hyr
        cases hyr
  have hm1 : Machine s1.kernel V1 := by
    rw [hk1]
    refine hm0.relink hf2 (fun y hy => hrole y (fun m _ he => ?_) fun he => ?_) fun y h hy hyr => ?_
    · rw [he] at hy
      cases hy
    · rw [he] at hy
      cases hy
    · obtain ⟨m, _, rfl, rfl⟩ := hcases y h hy hyr
      exact .inr (.inl rfl)
  have hwait : ∀ t w, V1.role (.pendList t) ≠ .member (.wait w) := by
    intro t w h
    rw [hrole _ (fun _ _ => by simp) (by simp)] at h
    have hown := hf0.owner _ _ h
    rw [hloose _ rfl] at hown
    cases hown
  have hstat : ∀ m < Config.muxLimit, (s1.mux m).muxStat = false := fun m hm => (hin1 m hm).2
  refine ⟨V1, ⟨hm1, ?_, fun m hm h => ?_, fun x => ⟨fun h => ?_, ?_⟩, fun t w h => absurd h (hwait t w),
    fun m hm h => ?_, fun m hm h => ?_⟩, hwait, hstat, fun t => ?_, fun t ht => ?_⟩
  · rw [hout1 _ fun _ _ => by simp, View.setRole_role, if_pos rfl]
  · rw [hstat m hm] at h
    cases h
  · have hobj : x.isObject = true := by
      have hfit := hm1.inv.core.fits x _ h
      cases x <;> simp [Fits, Node.isObject] at hfit ⊢
    obtain ⟨m, hm, hx, _⟩ := hcases x _ hobj h
    exact ⟨m, hm, hx, hstat m hm⟩
  · rintro ⟨m, hm, rfl, _⟩
    exact (hin1 m hm).1
  · rw [hstat m hm] at h
    cases h
  · rw [hstat m hm] at h
    cases h
  · rw [hp1]
    exact hpend t
  · rw [hk1]
    exact htime t ht

omit [Config] in
theorem losMuxPendResume_same {r : MuxErrno} (h : losMuxPendResume s = (s', r)) :
    s'.mux = s.mux ∧ s'.pending = Function.update s.pending s.kernel.runTask none ∧
      (∀ u, u ≠ s.kernel.runTask → s'.kernel.gTaskCBArray u = s.kernel.gTaskCBArray u) ∧
      ((s'.kernel.gTaskCBArray s.kernel.runTask).taskStatus.unused =
          (s.kernel.gTaskCBArray s.kernel.runTask).taskStatus.unused ∧
        (s'.kernel.gTaskCBArray s.kernel.runTask).priority =
          (s.kernel.gTaskCBArray s.kernel.runTask).priority) ∧
      (s'.kernel.gTaskCBArray s.kernel.runTask).taskStatus.timeout = false := by
  rw [show s' = (losMuxPendResume s).1 by rw [h]]
  unfold losMuxPendResume
  dsimp only
  split
  · refine ⟨rfl, rfl, fun u hu => Function.update_of_ne hu _ _, ⟨?_, ?_⟩, ?_⟩ <;> rw [modifyStatus_self]
  · next ht => exact ⟨rfl, rfl, fun _ _ => rfl, ⟨rfl, rfl⟩, by simpa [KernelState.status] using ht⟩

theorem losMuxPendResume_inv (hi : MuxInv s V) (hcall : s.kernel.calling) :
    MuxInv (losMuxPendResume s).1 V := by
  have hw : ∀ t w, V.role (.pendList t) = .member (.wait w) → ∃ m < Config.muxLimit, w = .muxList m ∧
      Function.update s.pending s.kernel.runTask none t = some m := by
    intro t w h
    have ht : t ≠ s.kernel.runTask := by
      rintro rfl
      exact hi.machine.caller_gone hcall w h
    rw [Function.update_of_ne ht]
    exact hi.waits t w h
  unfold losMuxPendResume
  dsimp only
  split
  · exact hi.kernel (hi.machine.clearTimeout _) (fun _ _ _ => rfl) hw
  · exact hi.kernel hi.machine (fun _ _ _ => rfl) hw

theorem MuxInv.settle (hi : MuxInv s V) {event : KernelEvent}
    (hstep : kernelStep s.kernel event = some k) :
    ∃ V', MuxInv (s.settle k) V' ∧ Quieted event s.kernel V k V' := by
  obtain ⟨V', hm', hq, _⟩ := kernelStep_spec hi.machine hstep
  refine ⟨V', hi.kernel hm' hq.role fun t w h => ?_, hq⟩
  have hmem := (hm'.inv.core.ready.forest.mem _ _).mpr h
  have hbefore := (hi.machine.inv.core.ready.forest.mem _ _).mp ((hq.wait w).subset hmem)
  obtain ⟨m, hm, hw, hp⟩ := hi.waits t w hbefore
  have hlt : t < gTaskMaxNum := (hm'.inv.core.fits _ _ h).1
  have hlive := ((hm'.inv.task t hlt).of_pend (hm'.inv.pend_of_wait hlt h)).1
  exact ⟨m, hm, hw, by
    rw [if_neg (by simp [KernelState.status, hlive])]
    exact hp⟩

end

end LiteosM.Ipc
