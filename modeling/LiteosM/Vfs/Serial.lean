import LiteosM.Lib.Transition
import LiteosM.Vfs.Locks

/-!
# The callbacks of one mount point

When no two callbacks of a mount point are in progress at once.
-/

namespace LiteosM.Vfs

open LiteosM.Lib.Transition

/-- The callback of a mount point that a task has in progress. -/
def inCallback (s : VfsState) (t : Nat) : Option (Callback × Nat) :=
  match s.pc t with
  | .callback a m => some (a.callback, m)
  | .pathCallback op m => some (op, m)
  | _ => none

def Serialised (s : VfsState) : Prop :=
  ∀ t u m op op', inCallback s t = some (op, m) → inCallback s u = some (op', m) → t = u

/-- While the callback of a path is in progress, the `m_mutex` of its mount point has no owner. -/
def Alone (s : VfsState) : Prop := ∀ t op m, s.pc t = .pathCallback op m → s.holder m = none

/-- The callback of a path starts while the `m_mutex` of its mount point is free, and no directory
call pends on that mutex while it is in progress. -/
def PathAlone (s : VfsState) : VfsEvent → Prop
  | .run t _ => ∀ op m, s.pc t = .pathInside op m → s.holder m = none
  | .call _ c => ∀ a d ret, c.start s = .direct a d ret → ∀ u op m, s.pc u = .pathCallback op m →
      (s.mp m).mMutex ≠ (s.mp (s.dir d).dMp).mMutex
  | _ => True

/-- A step of the system that goes on without `fs_mutex` only while nobody has it, with a further
condition on it. -/
def VfsStep (C : VfsState → VfsEvent → Prop) (s : VfsState) (event : VfsEvent) (s' : VfsState) : Prop :=
  FsFree s event ∧ C s event ∧ vfsNext s event = some s'

section

variable {s s' s₁ : VfsState} {t u h m : Nat} {event : VfsEvent} {p : Pc}

theorem LockInv.serialised (hi : LockInv s) (ha : Alone s) : Serialised s := by
  intro t u m op op' ht hu
  have hright := hi.tasks t
  have huright := hi.tasks u
  unfold inCallback at ht hu
  split at ht
  · rename_i a n hpc
    cases ht
    rw [hpc] at hright
    split at hu
    · rename_i a' n' hpc'
      cases hu
      rw [hpc'] at huright
      exact Option.some.inj (hright.2.symm.trans huright.2)
    · rename_i op₂ n' hpc'
      cases hu
      have hnone := ha u _ _ hpc'
      rw [hright.2] at hnone
      cases hnone
    · cases hu
  · rename_i op₁ n hpc
    cases ht
    rw [hpc] at hright
    split at hu
    · rename_i a' n' hpc'
      cases hu
      rw [hpc'] at huright
      have hnone := ha t _ _ hpc
      rw [huright.2] at hnone
      cases hnone
    · rename_i op₂ n' hpc'
      cases hu
      rw [hpc'] at huright
      exact hright.2.unique huright.2
    · cases hu
  · cases ht

theorem Alone.step (ha : Alone s) (hpc : ∀ u, u ≠ t → s'.pc u = s.pc u)
    (ht : ∀ op m, s'.pc t ≠ .pathCallback op m)
    (hkeep : ∀ u op m, u ≠ t → s.pc u = .pathCallback op m → s.holder m = none → s'.holder m = none) :
    Alone s' := by
  intro u op m hu
  by_cases hut : u = t
  · subst hut
    exact absurd hu (ht op m)
  · rw [hpc u hut] at hu
    exact hkeep u op m hut hu (ha u op m hu)

theorem Alone.inert (ha : Alone s) (hin : Inert s s₁ m) (hp : ∀ op m, p ≠ .pathCallback op m) :
    Alone (s₁.setPc t p) := by
  refine ha.step (t := t) (fun u hu => ?_) (fun op m h => hp op m (setPc_self.symm.trans h))
    fun u op n _ _ hn => ?_
  · rw [setPc_of_ne hu, hin.pc]
  · show (s₁.mux (s₁.mp n).mMutex).owner = none
    rw [hin.mux, hin.mMutex]
    exact hn

theorem Alone.post (ha : Alone s) (hp : ∀ op m, p ≠ .pathCallback op m) :
    Alone ((losMuxPost s h t).setPc t p) := by
  refine ha.step (t := t) (fun u hu => setPc_of_ne hu) (fun op m h => hp op m (setPc_self.symm.trans h))
    fun u op n _ _ hn => ?_
  show ((s.setMux h _).mux (s.mp n).mMutex).owner = none
  change (s.mux (s.mp n).mMutex).owner = none at hn
  by_cases hnh : (s.mp n).mMutex = h
  · rw [hnh] at hn ⊢
    rw [setMux_self, post_of_ne (by rw [hn]; exact fun h => by cases h)]
    exact hn
  · rw [setMux_of_ne hnh]
    exact hn

theorem Alone.pend (ha : Alone s) (hp : ∀ op m, p ≠ .pathCallback op m)
    (hh : ∀ u op m, u ≠ t → s.pc u = .pathCallback op m → (s.mp m).mMutex ≠ h) :
    Alone ((losMuxPend s h t).setPc t p) := by
  refine ha.step (t := t) (fun u hu => setPc_of_ne hu) (fun op m h => hp op m (setPc_self.symm.trans h))
    fun u op n hut hpc hn => ?_
  show ((s.setMux h _).mux (s.mp n).mMutex).owner = none
  rw [setMux_of_ne (hh u op n hut hpc)]
  exact hn

theorem LockInv.no_path (hi : LockInv s) (hhas : HasFs s t) {op : Callback} (hut : u ≠ t) :
    s.pc u ≠ .pathCallback op m := by
  intro hpc
  have hright := hi.tasks u
  rw [hpc] at hright
  exact hut (hright.2.unique hhas)

theorem Move.alone (hmove : Move s event s') (hi : LockInv s) (hturn : Turn s event) (ha : Alone s)
    (hc : PathAlone s event) : Alone s' := by
  have hfs : ∀ t, s.owns s.fsMutex t = true → HasFs s t := fun t hown => .inl (owns_iff.mp hown)
  have hpend : ∀ t p, (∀ op m, p ≠ .pathCallback op m) → Alone ((losMuxPend s s.fsMutex t).setPc t p) := by
    intro t p hp
    refine ha.pend hp fun u op m _ hu => ?_
    have hright := hi.tasks u
    rw [hu] at hright
    exact hi.apart m hright.1
  cases hmove with
  | stay => exact ha
  | enter r hpc => exact hpend _ _ fun _ _ h => by cases h
  | unheld r hpc hno => exact ha.inert (m := 0) Inert.refl fun _ _ h => by cases h
  | spins op fd hpc => exact ha.inert (m := 0) Inert.refl fun _ _ h => by cases h
  | tries op fd hpc => exact hpend _ _ fun _ _ h => by cases h
  | locks hpc => exact ha
  | unlocks hpc => exact ha
  | @direct t d c a ret hpc hstart had hd hstat =>
    exact ha.pend (fun _ _ h => by cases h) fun u op m _ hu => hc a d ret hstart u op m hu
  | leave fsl hin =>
    have ha' : Alone { s with fileSystems := fsl } := ha
    exact ha'.post fun _ _ h => by cases h
  | @openFails t file got r hpc hown hfile hfree =>
    have ha' : Alone (s.setFile file { s.files file with fStatus := .initing }) := ha
    exact ha'.post fun _ _ h => by cases h
  | @openPends t file flags m got r hpc hown hfile hfree hm hstat =>
    have ha' : Alone (s.setFile file { s.files file with fStatus := .initing }) := ha
    exact ha'.pend (fun _ _ h => by cases h) fun u op n hut hu => absurd hu (hi.no_path (hfs _ hown) hut)
  | @attach t fd m got r op hpc hown hready hmp hstat =>
    split
    · have ha' : Alone (s.setFile fd { s.files fd with fStatus := .closing }) := ha
      exact ha'.pend (fun _ _ h => by cases h) fun u op n hut hu => absurd hu (hi.no_path (hfs _ hown) hut)
    · exact ha.pend (fun _ _ h => by cases h) fun u op n hut hu => absurd hu (hi.no_path (hfs _ hown) hut)
  | path hin hm => exact ha.inert (m := 0) Inert.refl fun _ _ h => by cases h
  | dirPends hpc hown hd hm hstat =>
    exact ha.pend (fun _ _ h => by cases h) fun u op n hut hu => absurd hu (hi.no_path (hfs _ hown) hut)
  | @mount t f h fsname path hin hreg hfind hbound hnew =>
    refine ha.step (t := t) (fun u hu => leaves_of_ne hu)
      (fun op m h => by rw [leaves_self] at h; cases h) fun u op n hut hu _ => ?_
    exact absurd hu (hi.no_path (hi.hasFs hturn hin) hut)
  | @unmount t m got path hin hm =>
    refine ha.step (t := t) (fun u hu => leaves_of_ne hu)
      (fun op m h => by rw [leaves_self] at h; cases h) fun u op n hut hu _ => ?_
    exact absurd hu (hi.no_path (hi.hasFs hturn hin) hut)
  | granted hpc hown =>
    split
    · exact ha.post fun _ _ h => by cases h
    · exact ha.inert (m := 0) Inert.refl fun _ _ h => by cases h
  | starts hpc => exact ha.inert inert_losOpenFields fun _ _ h => by cases h
  | skips hpc hno hfin => exact ha.inert (inert_losFinish hfin) fun _ _ h => by cases h
  | ends hpc hfin =>
    exact ha.inert (inert_callbackOffset.trans (inert_losFinish hfin)) fun _ _ h => by cases h
  | posts hpc hposted hne => exact ha.post fun _ _ h => by cases h
  | closes hpc hmp => exact ha.post fun _ _ h => by cases h
  | puts hpc => exact ha.inert (m := 0) inert_losFilePut fun _ _ h => by cases h
  | @pathStarts t m got op hpc =>
    intro u op' n hu
    by_cases hut : u = t
    · subst hut
      rw [setPc_self] at hu
      cases hu
      exact hc op m hpc
    · rw [setPc_of_ne hut] at hu
      exact ha u op' n hu
  | pathEnds hpc => exact ha.inert (m := 0) Inert.refl fun _ _ h => by cases h
  | pathLeaves hpc => exact ha.post fun _ _ h => by cases h

/-- The callbacks of a mount point do not overlap in a run where those of paths are alone. -/
theorem vfs_callbacks_serialised {s₀ : VfsState} {events : List VfsEvent} (hb : VfsBooted s₀)
    (hrun : Run (VfsStep PathAlone) s₀ events s) : Serialised s := by
  have hinv : LockInv s ∧ Alone s := by
    refine run_invariant (fun s => LockInv s ∧ Alone s) ?_ hrun
      ⟨vfsBooted_lockInv hb, fun t op m h => by rw [hb.pc t] at h; cases h⟩
    rintro s event s' ⟨hi, ha⟩ ⟨hfree, hc, hstep⟩
    have hmove := vfsNext_move hstep
    have hturn : Turn s event := ⟨vfsNext_runs hstep, hfree⟩
    exact ⟨hmove.lockInv hi hturn, hmove.alone hi hturn ha hc⟩
  exact hinv.1.serialised hinv.2

end

/-- One file system that has all the callbacks, and no mount point. -/
def smallVfs : VfsState where
  files := fun _ => ⟨none, 0, .notUsed, 0, none, none⟩
  fsMutex := 0
  mountPoints := []
  fileSystems := []
  fs := fun _ => ⟨"ramfs".toList, fun _ => true, 0⟩
  mp := fun _ => ⟨0, [], 0, 0⟩
  mpNext := 0
  dir := fun _ => ⟨0, false⟩
  dirNext := 0
  mux := fun h => ⟨h = 0, none, []⟩
  lockTask := none
  pc := fun _ => .idle

theorem smallVfs_booted : VfsBooted smallVfs where
  files := fun _ => ⟨rfl, rfl⟩
  fileSystems := rfl
  mountPoints := rfl
  fsRefs := fun _ => rfl
  mpNext := rfl
  dirNext := rfl
  bound := by decide
  fsMutex := rfl
  mux := fun h hh => by
    show (⟨decide (h = 0), none, []⟩ : Mutex) = ⟨false, none, []⟩
    rw [decide_eq_false (show h ≠ 0 from hh)]
  pc := fun _ => rfl

def smallMount : List VfsEvent :=
  [.call 1 (.register 0), .run 1 none, .call 1 (.mount (some "ramfs".toList) (some "/a".toList)),
    .run 1 (some 1)]

def smallOpen : List VfsEvent :=
  [.call 1 (.open (some "/a/f".toList) 2), .run 1 none, .run 1 none, .run 1 none, .ends 1 0 0, .run 1 none]

/-- The task `2` makes a directory and unlinks the file while the task `1` reads it twice. -/
def smallTurns : List VfsEvent :=
  smallMount ++ smallOpen ++
    [.call 1 (.read 0 true 4), .run 1 none, .run 1 none, .run 1 none,
      .call 2 (.mkdir (some "/a/d".toList)), .run 2 none, .ends 1 4 4, .run 1 none, .run 2 none, .run 2 none,
      .ends 2 0 0, .run 2 none, .call 2 (.unlink (some "/a/f".toList)), .run 2 none,
      .call 1 (.read 0 true 4), .run 2 none, .ends 2 0 0, .run 2 none, .run 1 none, .run 1 none, .run 1 none]

/-- What the place of the task shows of `FsFree` and `PathAlone`. -/
def quietStep (s : VfsState) : VfsEvent → Bool
  | .run t _ =>
    match s.pc t with
    | .unheld _ => (s.mux s.fsMutex).owner.isNone
    | .pathInside _ m => (s.holder m).isNone
    | _ => true
  | .call _ c =>
    match c.start s with
    | .direct _ _ _ => false
    | _ => true
  | _ => true

theorem quietStep_fsFree {s : VfsState} {event : VfsEvent} (h : quietStep s event = true) :
    FsFree s event := by
  cases event with
  | run t got =>
    intro r hpc
    simp only [quietStep, hpc] at h
    exact Option.isNone_iff_eq_none.mp h
  | _ => trivial

theorem quietStep_pathAlone {s : VfsState} {event : VfsEvent} (h : quietStep s event = true) :
    PathAlone s event := by
  cases event with
  | run t got =>
    intro op m hpc
    simp only [quietStep, hpc] at h
    exact Option.isNone_iff_eq_none.mp h
  | call t c =>
    intro a d ret hstart
    simp only [quietStep, hstart] at h
    cases h
  | _ => trivial

theorem vfs_callbacks_serialised_small :
    VfsBooted smallVfs ∧ ∀ x ∈ [(16, some (Callback.read, 0), none), (20, none, some (Callback.mkdir, 0)),
        (26, none, some (Callback.unlink, 0)), (31, some (Callback.read, 0), none)],
      ∃ s, Run (VfsStep PathAlone) smallVfs (smallTurns.take x.1) s ∧
        inCallback s 1 = x.2.1 ∧ inCallback s 2 = x.2.2 ∧ Serialised s := by
  refine ⟨smallVfs_booted, fun x hx => ?_⟩
  have hrun : ((smallTurns.take x.1).foldlM (guarded (fun s event => quietStep s event = true) vfsNext)
      smallVfs).map (fun s => (inCallback s 1, inCallback s 2)) = some x.2 := by
    simp only [List.mem_cons, List.not_mem_nil, or_false] at hx
    rcases hx with rfl | rfl | rfl | rfl <;> decide +kernel
  obtain ⟨s, hs, hval⟩ := Option.map_eq_some_iff.mp hrun
  have hsteps : Run (VfsStep PathAlone) smallVfs (smallTurns.take x.1) s :=
    run_mono (fun _ _ _ h => ⟨quietStep_fsFree h.2, quietStep_pathAlone h.2, h.1⟩) (run_of_guarded hs)
  rw [← hval]
  exact ⟨s, hsteps, rfl, rfl, vfs_callbacks_serialised smallVfs_booted hsteps⟩

/-- The task `1` is in the callback of `los_read` when the task `2` unlinks the file. -/
def smallOverlap : List VfsEvent :=
  [.call 1 (.read 0 true 4), .run 1 none, .run 1 none, .run 1 none,
    .call 2 (.unlink (some "/a/f".toList)), .run 2 none, .run 2 none]

theorem losUnlink_overlaps_losRead :
    ∃ s, Run (fun s event s' => vfsNext s event = some s') smallVfs
        (smallMount ++ smallOpen ++ smallOverlap) s ∧
      inCallback s 1 = some (.read, 0) ∧ inCallback s 2 = some (.unlink, 0) ∧ ¬ Serialised s := by
  have hrun : ((smallMount ++ smallOpen ++ smallOverlap).foldlM vfsNext smallVfs).map
      (fun s => (inCallback s 1, inCallback s 2)) = some (some (.read, 0), some (.unlink, 0)) := by
    decide +kernel
  rw [Option.map_eq_some_iff] at hrun
  obtain ⟨s, hs, hval⟩ := hrun
  rw [Prod.mk.injEq] at hval
  refine ⟨s, run_of_foldlM hs, hval.1, hval.2, fun h => ?_⟩
  exact absurd (h 1 2 0 .read .unlink hval.1 hval.2) (by decide)

end LiteosM.Vfs
