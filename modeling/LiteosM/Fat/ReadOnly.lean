import LiteosM.Fat.Moves

/-!
# Read-only volumes

What has to hold of the calls so that none changes a volume that is mounted for reading only.
-/

namespace LiteosM.Fat

open LiteosM.Lib.Transition

/-- The volumes that a call of FatFs changes. -/
def FatCall.changes : FatCall → List Nat
  | .fOpen _ volume true _ => [volume]
  | .fWrite _ volume => [volume]
  | .fExpand _ volume _ _ => [volume]
  | .fTruncate _ volume _ _ => [volume]
  | .fUnlink volume => [volume]
  | .fMkdir volume => [volume]
  | .fRmdir volume => [volume]
  | .fRename old new => [old, new]
  | _ => []

section

variable [FatConfig]

def ReadOnly (s : FatState) (volume : Nat) : Prop :=
  volume < ffVolumes ∧ (s.gFatfs volume).mounted = true ∧ s.gVolWriteEnable volume = false

/-- No call changes a volume that is read-only in `s`. -/
def LeavesReadOnly (s : FatState) (calls : List FatCall) : Prop :=
  ∀ call ∈ calls, ∀ volume ∈ call.changes, ¬ReadOnly s volume

/-- If a call on these paths comes to FatFs, a path whose first component is not the name of a volume is
not on a read-only one. -/
def PathsGuarded (s : FatState) (paths : List (List Char)) (env : FatEnv) : Prop :=
  env.fsLock = true → env.fChdrive = .ok → (∀ path ∈ paths, fsCheckByPath s path = true) →
    ∀ path ∈ paths, fsPartitionMatch path .pathName = none → ¬ReadOnly s (pathVolume path)

/-- An `f_open` on a read-only volume that would truncate or create a file is kept from it: the path is
looked up for `O_CREAT`, its volume is found, and `f_stat` says that the file is not there. -/
def OpenGuarded (s : FatState) (path : List Char) (oflag : Nat) (env : FatEnv) : Prop :=
  env.fsLock = true → s.gFileNum < fatMaxOpenFiles → freeSlot s ≠ none → env.fChdrive = .ok →
    openChanges (fatFsGetMode oflag) env.fileExists = true → ReadOnly s (pathVolume path) →
      hasFlag oflag oCreat = true ∧ fsPartitionMatch path .pathName ≠ none ∧
        (env.fStat = .noFile ∨ env.fStat = .noPath)

/-- The number that `f_mount` gives to a volume is not 0, and no volume has it. -/
def MountGuarded (s : FatState) (target filesystemtype : Option (List Char)) (mountflags : Nat) (env : FatEnv) :
    Prop :=
  ∀ path index, target = some path → filesystemtype = some "fat".toList → env.fsLock = true →
    hasFlag mountflags msRemount = false → fsPartitionMatch path .volumeName = some index →
      (s.gFatfs index).mounted = false → env.fMount = .ok →
        (s.fsid + 1) % 2 ^ 16 ≠ 0 ∧ ∀ j < ffVolumes, (s.gFatfs j).id ≠ (s.fsid + 1) % 2 ^ 16

def WriteGuarded (s : FatState) (env : FatEnv) : FatOp → Prop
  | .mount target filesystemtype mountflags => MountGuarded s target filesystemtype mountflags env
  | .open (some path) oflag => OpenGuarded s path oflag env
  | .unlink (some path) => PathsGuarded s [path] env
  | .mkdir (some path) => PathsGuarded s [path] env
  | .rmdir (some path) => PathsGuarded s [path] env
  | .rename (some oldName) (some newName) => PathsGuarded s [oldName, newName] env
  | _ => True

def writeGuard (s : FatSystem) : FatEvent → Prop
  | .check _ _ _ => True
  | .locked _ op env => WriteGuarded s.fat env op

/-- Mounted volumes have numbers of their own, and these are not 0. -/
structure IdInv (s : FatState) : Prop where
  pos : ∀ i, (s.gFatfs i).mounted = true → (s.gFatfs i).id ≠ 0
  distinct : ∀ i j, i < ffVolumes → j < ffVolumes → i ≠ j → (s.gFatfs i).mounted = true →
    (s.gFatfs j).id ≠ (s.gFatfs i).id

variable {s s' : FatState} {env : FatEnv} {path : List Char} {volume : Nat}

theorem fsCheckByPath_found {index : Nat} (h : fsPartitionMatch path .pathName = some index) :
    fsCheckByPath s path = s.gVolWriteEnable (pathVolume path) := by
  unfold fsCheckByPath
  rw [h, FatConfig.pathVolume_named path index h]

theorem fsCheckByID_readOnly (hids : IdInv s) (h : ReadOnly s volume) :
    fsCheckByID s (s.gFatfs volume).id = false := by
  obtain ⟨hlt, hmounted, henable⟩ := h
  unfold fsCheckByID
  split
  · rfl
  · rename_i index hfind
    have hid := List.find?_some hfind
    have hindex := List.mem_range.mp (List.mem_of_find?_eq_some hfind)
    have heq : index = volume := Decidable.byContradiction fun hne =>
      hids.distinct volume index hlt hindex (Ne.symm hne) hmounted (of_decide_eq_true hid)
    rw [heq]
    exact henable

theorem leavesReadOnly_of_changes {calls : List FatCall} (h : ∀ call ∈ calls, call.changes = []) :
    LeavesReadOnly s calls := by
  intro call hcall volume hvolume
  rw [h call hcall] at hvolume
  cases hvolume

omit [FatConfig] in
theorem changes_idle {call : FatCall} (h : call.idle = true) : call.changes = [] := by
  cases call with
  | fMount => rfl
  | fCheckopenlock => rfl
  | fChdrive => rfl
  | fStat => rfl
  | _ => cases h

theorem pathsGuarded_passed {paths : List (List Char)} (hguard : PathsGuarded s paths env)
    (hlock : env.fsLock = true) (hdrive : env.fChdrive = .ok) (hcheck : ∀ path ∈ paths, fsCheckByPath s path = true) :
    ∀ path ∈ paths, ¬ReadOnly s (pathVolume path) := by
  intro path hpath hread
  cases hfind : fsPartitionMatch path .pathName with
  | none => exact hguard hlock hdrive hcheck path hpath hfind hread
  | some index =>
    have hpass := hcheck path hpath
    rw [fsCheckByPath_found hfind, hread.2.2] at hpass
    cases hpass

theorem pathsGuarded_leaves {paths : List (List Char)} {call : FatCall} (hguard : PathsGuarded s paths env)
    (hlock : env.fsLock = true) (hdrive : env.fChdrive = .ok) (hcheck : ∀ path ∈ paths, fsCheckByPath s path = true)
    (hchanges : call.changes = paths.map pathVolume) : LeavesReadOnly s [.fChdrive .ok, call] := by
  intro call' hcall volume hvolume
  obtain rfl | hcall := List.mem_cons.mp hcall
  · cases hvolume
  · rw [List.mem_singleton.mp hcall, hchanges] at hvolume
    obtain ⟨path, hpath, rfl⟩ := List.mem_map.mp hvolume
    exact pathsGuarded_passed hguard hlock hdrive hcheck path hpath

theorem openGuarded_leaves {oflag openNum : Nat} {calls : List FatCall} {res : FResult}
    (hguard : OpenGuarded s path oflag env) (hopen : Opens s env path oflag openNum)
    (hidle : ∀ call ∈ calls, call.idle = true) :
    LeavesReadOnly s
      (calls ++ [.fOpen openNum (pathVolume path) (openChanges (fatFsGetMode oflag) env.fileExists) res]) := by
  intro call hcall volume hvolume
  obtain hcall | hcall := List.mem_append.mp hcall
  · rw [changes_idle (hidle call hcall)] at hvolume
    cases hvolume
  · rw [List.mem_singleton.mp hcall] at hvolume
    cases hchanges : openChanges (fatFsGetMode oflag) env.fileExists with
    | false =>
      rw [hchanges] at hvolume
      cases hvolume
    | true =>
      rw [hchanges] at hvolume
      rw [List.mem_singleton.mp hvolume]
      intro hread
      have hfree : freeSlot s ≠ none := by
        rw [hopen.free]
        exact Option.some_ne_none _
      obtain ⟨hcreat, hfound, hstat⟩ :=
        hguard hopen.lock hopen.bound hfree hopen.drive hchanges hread
      obtain ⟨index, hfind⟩ := Option.ne_none_iff_exists'.mp hfound
      refine hopen.stat ⟨?_, hstat⟩
      rw [hcreat, fsCheckByPath_found hfind, hread.2.2]
      rfl

omit [FatConfig] in
/-- What `CloseAll` leaves as it is, and what it calls. -/
structure ClosesOnly (s s' : FatState) (calls : List FatCall) : Prop where
  gFatfs : s'.gFatfs = s.gFatfs
  changes : ∀ call ∈ calls, call.changes = []

theorem closeFiles_only (index : Nat) (env : FatEnv) (n : Nat) {s₀ : FatState} {calls : List FatCall} (h : ClosesOnly s₀ s calls) :
    ClosesOnly s₀ (closeFiles index env n s calls).1 (closeFiles index env n s calls).2.1 := by
  induction n generalizing s calls with
  | zero => exact h
  | succ n ih =>
    unfold closeFiles
    dsimp only
    split
    · exact h
    · split
      · split
        · refine ⟨h.gFatfs, ?_⟩
          exact List.forall_mem_append.mpr ⟨h.changes, List.forall_mem_singleton.mpr rfl⟩
        · refine ih ⟨h.gFatfs, ?_⟩
          exact List.forall_mem_append.mpr ⟨h.changes, List.forall_mem_singleton.mpr rfl⟩
      · exact ih h

theorem closeDirs_only (index : Nat) (env : FatEnv) (n : Nat) {s₀ : FatState} {calls : List FatCall} (h : ClosesOnly s₀ s calls) :
    ClosesOnly s₀ (closeDirs index env n s calls).1 (closeDirs index env n s calls).2.1 := by
  induction n generalizing s calls with
  | zero => exact h
  | succ n ih =>
    unfold closeDirs
    dsimp only
    split
    · exact h
    · split
      · split
        · refine ⟨h.gFatfs, ?_⟩
          exact List.forall_mem_append.mpr ⟨h.changes, List.forall_mem_singleton.mpr rfl⟩
        · refine ih ⟨h.gFatfs, ?_⟩
          exact List.forall_mem_append.mpr ⟨h.changes, List.forall_mem_singleton.mpr rfl⟩
      · exact ih h

theorem closeAll_only {index : Nat} {s' : FatState} {calls : List FatCall} {done : Bool}
    (h : closeAll s index env = (s', calls, done)) : ClosesOnly s s' calls := by
  have hfiles := closeFiles_only index env fatMaxOpenFiles
    (⟨rfl, fun _ hcall => by cases hcall⟩ : ClosesOnly s s [])
  unfold closeAll at h
  split at h
  · rename_i s₁ calls₁ hclose
    rw [hclose] at hfiles
    cases h
    exact hfiles
  · rename_i s₁ calls₁ hclose
    rw [hclose] at hfiles
    have hdirs := closeDirs_only index env fatMaxOpenDirs hfiles
    rw [h] at hdirs
    exact hdirs

theorem fatMove_leaves {op : FatOp} {o : FatOutcome} (hmove : FatMove s env op o) (hids : IdInv s)
    (hguard : WriteGuarded s env op) : LeavesReadOnly s o.calls := by
  cases hmove with
  | idle hidle => exact leavesReadOnly_of_changes fun call hcall => changes_idle (hidle call hcall)
  | remount => exact leavesReadOnly_of_changes (by simp)
  | mount => exact leavesReadOnly_of_changes (by simp [FatCall.changes])
  | umount => exact leavesReadOnly_of_changes (by simp [FatCall.changes])
  | umount2 => exact leavesReadOnly_of_changes (by simp [FatCall.changes])
  | forceStops _ _ hclose => exact leavesReadOnly_of_changes (closeAll_only hclose).changes
  | forceStays _ _ hclose =>
    refine leavesReadOnly_of_changes (List.forall_mem_append.mpr ⟨(closeAll_only hclose).changes, ?_⟩)
    exact List.forall_mem_singleton.mpr rfl
  | force _ _ hclose =>
    refine leavesReadOnly_of_changes (List.forall_mem_append.mpr ⟨(closeAll_only hclose).changes, ?_⟩)
    exact List.forall_mem_singleton.mpr rfl
  | openFails hopen hidle => exact openGuarded_leaves hguard hopen hidle
  | opens hopen hidle => exact openGuarded_leaves hguard hopen hidle
  | closeFails => exact leavesReadOnly_of_changes (by simp [FatCall.changes])
  | closes hfrees =>
    refine leavesReadOnly_of_changes (List.forall_mem_cons.mpr ⟨rfl, fun call hcall => ?_⟩)
    rw [hfrees, Option.mem_toList] at hcall
    obtain ⟨buf, _, rfl⟩ := Option.map_eq_some_iff.mp hcall
    rfl
  | reads => exact leavesReadOnly_of_changes (by simp [FatCall.changes])
  | @writes fd fs nbyte ret hfs hcheck =>
    intro call hcall volume hvolume hread
    rw [List.mem_singleton.mp hcall] at hvolume
    rw [List.mem_singleton.mp hvolume] at hread
    rw [fsCheckByID_readOnly hids hread] at hcheck
    cases hcheck
  | truncateFails => exact leavesReadOnly_of_changes (by simp [FatCall.changes])
  | @truncates fd fs length ret fil calls hfs hcheck hfil hcalls =>
    intro call hcall volume hvolume hread
    have heq : volume = fs := by
      obtain rfl | ⟨res, rfl⟩ | ⟨res, rfl⟩ := hcalls call hcall
      · cases hvolume
      · exact List.mem_singleton.mp hvolume
      · exact List.mem_singleton.mp hvolume
    rw [heq] at hread
    rw [fsCheckByID_readOnly hids hread] at hcheck
    cases hcheck
  | unlink hlock hdrive hcheck =>
    exact pathsGuarded_leaves hguard hlock hdrive (List.forall_mem_singleton.mpr hcheck) rfl
  | mkdir hlock hdrive hcheck =>
    exact pathsGuarded_leaves hguard hlock hdrive (List.forall_mem_singleton.mpr hcheck) rfl
  | rmdir hlock hdrive hcheck =>
    exact pathsGuarded_leaves hguard hlock hdrive (List.forall_mem_singleton.mpr hcheck) rfl
  | rename hlock hdrive hold hnew =>
    exact pathsGuarded_leaves hguard hlock hdrive
      (List.forall_mem_cons.mpr ⟨hold, List.forall_mem_singleton.mpr hnew⟩) rfl
  | opendirFails => exact leavesReadOnly_of_changes (by simp [FatCall.changes])
  | opensDir => exact leavesReadOnly_of_changes (by simp [FatCall.changes])
  | closedirFails => exact leavesReadOnly_of_changes (by simp [FatCall.changes])
  | closesDir => exact leavesReadOnly_of_changes (by simp [FatCall.changes])

theorem IdInv.congr (h : IdInv s) (hsame : s'.gFatfs = s.gFatfs) : IdInv s' := by
  constructor
  · rw [hsame]
    exact h.pos
  · rw [hsame]
    exact h.distinct

theorem IdInv.clear {index : Nat} (h : IdInv s) (hsame : s'.gFatfs = Function.update s.gFatfs index clearedFatfs) :
    IdInv s' := by
  have hmounted : ∀ i, (s'.gFatfs i).mounted = true → i ≠ index ∧ (s'.gFatfs i) = s.gFatfs i := by
    intro i hi
    rw [hsame] at hi ⊢
    by_cases heq : i = index
    · rw [heq, Function.update_self] at hi
      cases hi
    · exact ⟨heq, Function.update_of_ne heq _ _⟩
  constructor
  · intro i hi
    have hold := (hmounted i hi).2
    rw [hold] at hi ⊢
    exact h.pos i hi
  · intro i j hilt hjlt hij hi
    have hold := (hmounted i hi).2
    rw [hold] at hi ⊢
    by_cases heq : j = index
    · rw [hsame, heq, Function.update_self]
      exact (h.pos i hi).symm
    · rw [hsame, Function.update_of_ne heq]
      exact h.distinct i j hilt hjlt hij hi

theorem IdInv.mount {index : Nat} {fs : Fatfs} (h : IdInv s)
    (hsame : s'.gFatfs = Function.update s.gFatfs index fs) (hpos : fs.id ≠ 0)
    (hfresh : ∀ j < ffVolumes, (s.gFatfs j).id ≠ fs.id) : IdInv s' := by
  constructor
  · intro i hi
    rw [hsame] at hi ⊢
    by_cases heq : i = index
    · rw [heq, Function.update_self]
      exact hpos
    · rw [Function.update_of_ne heq] at hi ⊢
      exact h.pos i hi
  · intro i j hilt hjlt hij hi
    rw [hsame] at hi ⊢
    by_cases hii : i = index
    · rw [hii, Function.update_self, Function.update_of_ne (fun hj => hij (hii.trans hj.symm))]
      exact hfresh j hjlt
    · rw [Function.update_of_ne hii] at hi ⊢
      by_cases hji : j = index
      · rw [hji, Function.update_self]
        exact (hfresh i hilt).symm
      · rw [Function.update_of_ne hji]
        exact h.distinct i j hilt hjlt hij hi

theorem fatMove_ids {op : FatOp} {o : FatOutcome} (hmove : FatMove s env op o) (hids : IdInv s)
    (hguard : WriteGuarded s env op) : IdInv o.state := by
  cases hmove with
  | mount hlock hflag hfind hfree hmount =>
    obtain ⟨hpos, hfresh⟩ := hguard _ _ rfl rfl hlock hflag hfind hfree hmount
    exact hids.mount rfl hpos hfresh
  | umount => exact hids.clear rfl
  | umount2 => exact hids.clear rfl
  | forceStops _ _ hclose => exact hids.congr (closeAll_only hclose).gFatfs
  | forceStays _ _ hclose => exact hids.congr (closeAll_only hclose).gFatfs
  | force _ _ hclose => exact IdInv.clear (hids.congr (closeAll_only hclose).gFatfs) rfl
  | closedirFails => exact ⟨hids.pos, hids.distinct⟩
  | _ => exact hids.congr rfl

theorem bootedFat_ids : IdInv bootedFat := by
  constructor
  · intro i hi
    cases hi
  · intro i j _ _ _ hi
    cases hi

theorem fatRun_ids {s : FatSystem} {events : List FatEvent} (hrun : FatRun writeGuard bootedSystem events s) :
    IdInv s.fat := by
  refine run_invariant (fun s : FatSystem => IdInv s.fat) ?_ hrun bootedFat_ids
  intro s event s' hids ⟨hguard, o, hstep⟩
  cases hstep with
  | refused => exact hids
  | checked => exact hids
  | locked hpc hdir hop => exact fatMove_ids (fatOp_move hop) hids hguard

/-- In a run whose steps meet the condition no call changes a read-only volume. -/
theorem fatRun_readOnly {events : List FatEvent} {event : FatEvent} {s s' : FatSystem} {o : FatOutcome}
    (hrun : FatRun writeGuard bootedSystem events s) (hguard : writeGuard s event)
    (hstep : FatStep s event o s') : LeavesReadOnly s.fat o.calls := by
  have hids := fatRun_ids hrun
  cases hstep with
  | refused => exact leavesReadOnly_of_changes fun _ h => by cases h
  | checked => exact leavesReadOnly_of_changes fun _ h => by cases h
  | locked hpc hdir hop => exact fatMove_leaves (fatOp_move hop) hids hguard

end

def mountSd : FatEvent := .locked 0 (.mount (some "/sd".toList) (some "fat".toList) msRdonly) fatAnswers

def mountedSd : FatSystem :=
  let _ := smallFat
  bootedSystem.after 0 (fatfsMount bootedFat (some "/sd".toList) (some "fat".toList) msRdonly fatAnswers)

theorem mountSd_guarded : @FatRun smallFat (@writeGuard smallFat) bootedSystem [mountSd] mountedSd := by
  let _ := smallFat
  refine run_single ⟨fun path index _ _ _ _ _ _ _ => ?_, _, FatStep.locked rfl trivial rfl⟩
  exact ⟨by decide, fun j _ => (by decide : 0 ≠ (0 + 1) % 2 ^ 16)⟩

/-- A file that exists is opened. -/
theorem fatRun_readOnly_open : ∃ o s', @FatStep smallFat mountedSd
    (.locked 0 (.open (some "sd/f".toList) oRdwr) fatAnswers) o s' ∧ @LeavesReadOnly smallFat mountedSd.fat o.calls := by
  let _ := smallFat
  have hstep : FatStep mountedSd (.locked 0 (.open (some "sd/f".toList) oRdwr) fatAnswers) _ _ :=
    FatStep.locked rfl trivial rfl
  refine ⟨_, _, hstep, fatRun_readOnly mountSd_guarded ?_ hstep⟩
  intro _ _ _ _ hchanges _
  cases hchanges

/-- `unlink` of `/sd/f`, with a slash before the name of the volume. -/
theorem unlink_readOnly : ∃ o s', @FatRun smallFat (fun _ _ => True) bootedSystem [mountSd] mountedSd ∧
    @FatStep smallFat mountedSd (.locked 0 (.unlink (some "/sd/f".toList)) fatAnswers) o s' ∧
      ¬@LeavesReadOnly smallFat mountedSd.fat o.calls := by
  let _ := smallFat
  refine ⟨_, _, run_single ⟨trivial, _, FatStep.locked rfl trivial rfl⟩, FatStep.locked rfl trivial rfl,
    fun h => ?_⟩
  exact h (.fUnlink 0) (by decide) 0 List.mem_cons_self ⟨by decide, by decide, by decide⟩

end LiteosM.Fat
