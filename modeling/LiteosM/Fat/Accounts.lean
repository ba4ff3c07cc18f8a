import LiteosM.Fat.Moves
import LiteosM.Lib.Counting

/-!
# Handles of the FAT file system

The counters of files and directories, and the sector buffers of the files.
-/

namespace LiteosM.Fat

open LiteosM.Lib.Transition LiteosM.Lib.Counting

def FatCall.slot : FatCall → Option Nat
  | .fClose slot _ => some slot
  | .fRead slot => some slot
  | .fWrite slot _ => some slot
  | .fGetclustinfo slot _ => some slot
  | .fExpand slot _ _ _ => some slot
  | .fTruncate slot _ _ _ => some slot
  | _ => none

/-- Calls on slots that are in use. -/
def SlotsUsed (s : FatState) (calls : List FatCall) : Prop :=
  ∀ call ∈ calls, ∀ slot, call.slot = some slot → (s.gHandle slot).useFlag = true

section

variable [FatConfig]

def openOn (s : FatState) (index i : Nat) : Prop :=
  i < fatMaxOpenFiles ∧ (s.gHandle i).useFlag = true ∧ s.volume i = some index

/-- The counters and the buffers are right. A buffer is held by a slot that is in use, or has been freed
once. -/
structure Accounts (s : FatSystem) : Prop where
  fileNum : s.fat.gFileNum = countBelow fatMaxOpenFiles fun i => (s.fat.gHandle i).useFlag
  dirNum : s.fat.gDirNum = s.dirs.length
  held : ∀ i < fatMaxOpenFiles, (s.fat.gHandle i).useFlag = true →
    ∃ buf < s.fat.nextBuf, (s.fat.gHandle i).fil.buf = some buf ∧ buf ∉ s.freed
  freed : ∀ buf < s.fat.nextBuf,
    (∀ i < fatMaxOpenFiles, (s.fat.gHandle i).useFlag = true → (s.fat.gHandle i).fil.buf ≠ some buf) →
      s.freed.count buf = 1

/-- The slot of a call is still in use, an unmount that comes to `f_mount` or to the first `f_close` that succeeds
finds no file open on the volume, and `f_closedir` succeeds. -/
def AccountGuarded (s : FatState) (env : FatEnv) : FatOp → Prop
  | .onFd _ fd => env.fsLock = true → (s.gHandle fd).useFlag = true
  | .umount (some path) =>
    env.fsLock = true → env.fCheckopenlock = .ok → env.fMount = .ok → ∀ index,
      fsPartitionMatch path .volumeName = some index → (s.gFatfs index).mounted = true → ∀ i, ¬openOn s index i
  | .umount2 (some path) flag =>
    env.fsLock = true → ∀ index, fsPartitionMatch path .volumeName = some index →
      (s.gFatfs index).mounted = true →
        (hasFlag flag mntForce = true → ∀ i, openOn s index i → (∀ j < i, ¬openOn s index j) → env.fClose i ≠ .ok) ∧
          (hasFlag flag mntForce = false → env.fMount = .ok → ∀ i, ¬openOn s index i)
  | .closedir dir => env.fsLock = true → env.fClosedir dir = .ok
  | _ => True

def accountGuard (s : FatSystem) : FatEvent → Prop
  | .check _ _ _ => True
  | .locked _ op env => AccountGuarded s.fat env op

def FatOp.unmounts : FatOp → Option (List Char)
  | .umount target => target
  | .umount2 target _ => target
  | _ => none

def UnmountsClean (s' : FatState) (event : FatEvent) (o : FatOutcome) : Prop :=
  ∀ t op env path index, event = .locked t op env → op.unmounts = some path → o.ret = 0 →
    fsPartitionMatch path .volumeName = some index → ∀ i, ¬openOn s' index i

/-- The files: what `Accounts` says, and that no two slots hold one buffer. -/
structure FileInv (s : FatState) (freed : List Nat) : Prop where
  count : s.gFileNum = countBelow fatMaxOpenFiles fun i => (s.gHandle i).useFlag
  held : ∀ i < fatMaxOpenFiles, (s.gHandle i).useFlag = true →
    ∃ buf < s.nextBuf, (s.gHandle i).fil.buf = some buf ∧ buf ∉ freed
  apart : ∀ i j, i < fatMaxOpenFiles → j < fatMaxOpenFiles → (s.gHandle i).useFlag = true →
    (s.gHandle j).useFlag = true → (s.gHandle i).fil.buf = (s.gHandle j).fil.buf → i = j
  once : ∀ buf < s.nextBuf,
    (∀ i < fatMaxOpenFiles, (s.gHandle i).useFlag = true → (s.gHandle i).fil.buf ≠ some buf) →
      freed.count buf = 1
  old : ∀ buf ∈ freed, buf < s.nextBuf

/-- The directories that are open are those that the calls of FatFs have left open. -/
structure DirInv (s : FatState) (dirs : List Nat) : Prop where
  num : s.gDirNum = dirs.length
  nodup : dirs.Nodup
  mem : ∀ dir, dir ∈ dirs ↔ dir < fatMaxOpenDirs ∧ (s.gDir dir).dir = true
  cleared : ∀ dir, (s.gDir dir).dir = false → (s.gDir dir).fs = none

variable {s s' : FatState} {env : FatEnv} {freed dirs : List Nat}

theorem FileInv.congr (h : FileInv s freed)
    (hsame : ∀ i, (s'.gHandle i).useFlag = (s.gHandle i).useFlag ∧ (s'.gHandle i).fil.buf = (s.gHandle i).fil.buf)
    (hnum : s'.gFileNum = s.gFileNum) (hnext : s'.nextBuf = s.nextBuf) : FileInv s' freed := by
  have huse : ∀ i, (s'.gHandle i).useFlag = (s.gHandle i).useFlag := fun i => (hsame i).1
  have hbuf : ∀ i, (s'.gHandle i).fil.buf = (s.gHandle i).fil.buf := fun i => (hsame i).2
  constructor
  · simp only [hnum, huse]
    exact h.count
  · simp only [hnext, huse, hbuf]
    exact h.held
  · simp only [huse, hbuf]
    exact h.apart
  · simp only [hnext, huse, hbuf]
    exact h.once
  · rw [hnext]
    exact h.old

theorem FileInv.open {i : Nat} {handle : FatHandleStruct} (h : FileInv s freed) (hi : i < fatMaxOpenFiles)
    (hfree : (s.gHandle i).useFlag = false) (hs : s'.gHandle = Function.update s.gHandle i handle)
    (huse : handle.useFlag = true) (hbuf : handle.fil.buf = some s.nextBuf) (hnum : s'.gFileNum = s.gFileNum + 1)
    (hnext : s'.nextBuf = s.nextBuf + 1) : FileInv s' freed := by
  have hself : s'.gHandle i = handle := by rw [hs, Function.update_self]
  have hother : ∀ j, j ≠ i → s'.gHandle j = s.gHandle j := fun j hj => by rw [hs, Function.update_of_ne hj]
  have hne : ∀ j, (s.gHandle j).useFlag = true → j ≠ i := fun j hj heq => by
    rw [heq, hfree] at hj
    cases hj
  constructor
  · rw [hnum, h.count]
    refine (countBelow_insert hi hfree ?_ fun j hj => ?_).symm
    · rw [hself]
      exact huse
    · rw [hother j hj]
  · intro j hj hused
    by_cases hji : j = i
    · rw [hji, hself]
      exact ⟨s.nextBuf, by omega, hbuf, fun hmem => Nat.lt_irrefl _ (h.old _ hmem)⟩
    · rw [hother j hji] at hused ⊢
      obtain ⟨buf, hlt, heq, hmem⟩ := h.held j hj hused
      exact ⟨buf, by omega, heq, hmem⟩
  · intro j k hj hk hjused hkused heq
    -- the new buffer is not one that a slot has held
    have hnew : ∀ m, m < fatMaxOpenFiles → m ≠ i → (s.gHandle m).useFlag = true →
        (s.gHandle m).fil.buf ≠ some s.nextBuf := by
      intro m hm _ hused heq
      obtain ⟨buf, hlt, hheld, _⟩ := h.held m hm hused
      rw [heq] at hheld
      cases hheld
      exact Nat.lt_irrefl _ hlt
    by_cases hji : j = i
    · by_cases hki : k = i
      · rw [hji, hki]
      · rw [hji, hself, hbuf, hother k hki] at heq
        rw [hother k hki] at hkused
        exact absurd heq.symm (hnew k hk hki hkused)
    · by_cases hki : k = i
      · rw [hki, hself, hbuf, hother j hji] at heq
        rw [hother j hji] at hjused
        exact absurd heq (hnew j hj hji hjused)
      · rw [hother j hji] at hjused heq
        rw [hother k hki] at hkused heq
        exact h.apart j k hj hk hjused hkused heq
  · intro buf hlt hnone
    refine h.once buf ?_ fun j hj hused => ?_
    · have hself' := hnone i hi (by rw [hself]; exact huse)
      rw [hself, hbuf] at hself'
      have hne' : s.nextBuf ≠ buf := fun heq => hself' (congrArg some heq)
      omega
    · have hj' := hnone j hj
      rw [hother j (hne j hused)] at hj'
      exact hj' hused
  · intro buf hmem
    have hlt := h.old buf hmem
    omega

theorem FileInv.close {i : Nat} {handle : FatHandleStruct} (h : FileInv s freed) (s' : FatState) (hi : i < fatMaxOpenFiles)
    (hused : (s.gHandle i).useFlag = true) (hs : s'.gHandle = Function.update s.gHandle i handle)
    (huse : handle.useFlag = false) (hnum : s'.gFileNum = s.gFileNum - 1) (hnext : s'.nextBuf = s.nextBuf) :
    ∃ buf, (s.gHandle i).fil.buf = some buf ∧ FileInv s' (freed ++ [buf]) := by
  obtain ⟨buf, hlt, hbuf, hmem⟩ := h.held i hi hused
  have hself : s'.gHandle i = handle := by rw [hs, Function.update_self]
  have hother : ∀ j, j ≠ i → s'.gHandle j = s.gHandle j := fun j hj => by rw [hs, Function.update_of_ne hj]
  have hne : ∀ j, (s'.gHandle j).useFlag = true → j ≠ i := fun j hj heq => by
    rw [heq, hself, huse] at hj
    cases hj
  refine ⟨buf, hbuf, ?_⟩
  constructor
  · have hone := countBelow_insert (n := fatMaxOpenFiles) (p := fun j => (s'.gHandle j).useFlag)
      (q := fun j => (s.gHandle j).useFlag) hi (by rw [hself]; exact huse) hused fun j hj => by rw [hother j hj]
    rw [hnum, h.count, hone, Nat.add_sub_cancel]
  · intro j hj hjused
    have hji := hne j hjused
    rw [hother j hji] at hjused ⊢
    obtain ⟨buf', hlt', hbuf', hmem'⟩ := h.held j hj hjused
    refine ⟨buf', by rw [hnext]; exact hlt', hbuf', fun hin => ?_⟩
    obtain hin | hin := List.mem_append.mp hin
    · exact hmem' hin
    · rw [List.mem_singleton.mp hin] at hbuf'
      exact hji (h.apart j i hj hi hjused hused (hbuf'.trans hbuf.symm))
  · intro j k hj hk hjused hkused heq
    have hji := hne j hjused
    have hki := hne k hkused
    rw [hother j hji] at hjused heq
    rw [hother k hki] at hkused heq
    exact h.apart j k hj hk hjused hkused heq
  · intro buf' hlt' hnone
    rw [List.count_append]
    by_cases heq : buf' = buf
    · rw [heq, List.count_eq_zero_of_not_mem hmem, List.count_singleton_self]
    · have hzero : List.count buf' [buf] = 0 :=
        List.count_eq_zero_of_not_mem fun hin => heq (List.mem_singleton.mp hin)
      rw [hzero, Nat.add_zero]
      refine h.once buf' (by rw [← hnext]; exact hlt') fun j hj hjused heq' => ?_
      have hji : j ≠ i := fun hj' => by
        rw [hj', hbuf] at heq'
        exact heq (Option.some.inj heq').symm
      have hj' := hnone j hj
      rw [hother j hji] at hj'
      exact hj' hjused heq'
  · intro buf' hin
    rw [hnext]
    obtain hin | hin := List.mem_append.mp hin
    · exact h.old buf' hin
    · rw [List.mem_singleton.mp hin]
      exact hlt

theorem DirInv.congr (h : DirInv s dirs) (hdir : s'.gDir = s.gDir) (hnum : s'.gDirNum = s.gDirNum) :
    DirInv s' dirs := by
  constructor
  · rw [hnum]
    exact h.num
  · exact h.nodup
  · rw [hdir]
    exact h.mem
  · rw [hdir]
    exact h.cleared

theorem DirInv.open {dir volume : Nat} (h : DirInv s dirs) (hdir : dir < fatMaxOpenDirs)
    (hfree : (s.gDir dir).dir = false) (hs : s'.gDir = Function.update s.gDir dir ⟨some volume, true⟩)
    (hnum : s'.gDirNum = s.gDirNum + 1) : DirInv s' (dir :: dirs) := by
  have hout : dir ∉ dirs := fun hmem => by
    have hopen := ((h.mem dir).mp hmem).2
    rw [hfree] at hopen
    cases hopen
  constructor
  · rw [hnum, h.num, List.length_cons]
  · exact List.nodup_cons.mpr ⟨hout, h.nodup⟩
  · intro d
    rw [hs, List.mem_cons]
    by_cases heq : d = dir
    · rw [heq, Function.update_self]
      exact iff_of_true (.inl rfl) ⟨hdir, rfl⟩
    · rw [Function.update_of_ne heq, or_iff_right heq]
      exact h.mem d
  · intro d hd
    rw [hs] at hd ⊢
    by_cases heq : d = dir
    · rw [heq, Function.update_self] at hd
      cases hd
    · rw [Function.update_of_ne heq] at hd ⊢
      exact h.cleared d hd

theorem DirInv.close {dir : Nat} (h : DirInv s dirs) (hdir : dir ∈ dirs)
    (hs : s'.gDir = Function.update s.gDir dir clearedDir) (hnum : s'.gDirNum = s.gDirNum - 1) :
    DirInv s' (dirs.erase dir) := by
  constructor
  · rw [hnum, h.num, List.length_erase_of_mem hdir]
  · exact h.nodup.erase dir
  · intro d
    rw [hs, h.nodup.mem_erase_iff]
    by_cases heq : d = dir
    · rw [heq, Function.update_self]
      exact iff_of_false (fun hboth => hboth.1 rfl) fun hboth => by cases hboth.2
    · rw [Function.update_of_ne heq, and_iff_right heq]
      exact h.mem d
  · intro d hd
    rw [hs] at hd ⊢
    by_cases heq : d = dir
    · rw [heq, Function.update_self]
      rfl
    · rw [Function.update_of_ne heq] at hd ⊢
      exact h.cleared d hd

omit [FatConfig] in
/-- Calls that leave the directories and the buffers as they are. -/
def FatCall.Quiet (call : FatCall) : Prop := call.frees = none ∧ ∀ dirs, dirsAfter dirs call = dirs

omit [FatConfig] in
theorem quiet_idle {call : FatCall} (h : call.idle = true) : call.Quiet ∧ call.slot = none := by
  cases call with
  | fMount => exact ⟨⟨rfl, fun _ => rfl⟩, rfl⟩
  | fCheckopenlock => exact ⟨⟨rfl, fun _ => rfl⟩, rfl⟩
  | fChdrive => exact ⟨⟨rfl, fun _ => rfl⟩, rfl⟩
  | fStat => exact ⟨⟨rfl, fun _ => rfl⟩, rfl⟩
  | _ => cases h

omit [FatConfig] in
theorem quiet_ledger (dirs : List Nat) {calls : List FatCall} (h : ∀ call ∈ calls, call.Quiet) :
    calls.filterMap FatCall.frees = [] ∧ calls.foldl dirsAfter dirs = dirs := by
  induction calls generalizing dirs with
  | nil => exact ⟨rfl, rfl⟩
  | cons call calls ih =>
    obtain ⟨hcall, hcalls⟩ := List.forall_mem_cons.mp h
    rw [List.filterMap_cons_none hcall.1, List.foldl_cons, hcall.2]
    exact ih dirs hcalls

omit [FatConfig] in
theorem quiet_fClosedir {dir : Nat} {res : FResult} (h : res ≠ .ok) : (FatCall.fClosedir dir res).Quiet := by
  cases res with
  | ok => exact absurd rfl h
  | _ => exact ⟨rfl, fun _ => rfl⟩

omit [FatConfig] in
theorem quiet_fOpendir {dir : Nat} {res : FResult} (h : res ≠ .ok) : (FatCall.fOpendir dir res).Quiet := by
  cases res with
  | ok => exact absurd rfl h
  | _ => exact ⟨rfl, fun _ => rfl⟩

/-- The first loop of `CloseAll`, from a slot before which none is open on the volume. If the first one that is
open does not close, nothing is closed. -/
theorem closeFiles_guarded (calls : List FatCall) {index n : Nat} (hn : n ≤ fatMaxOpenFiles)
    (hbefore : ∀ j < fatMaxOpenFiles - n, ¬openOn s index j)
    (hguard : ∀ i, openOn s index i → (∀ j < i, ¬openOn s index j) → env.fClose i ≠ .ok) :
    (closeFiles index env n s calls = (s, calls, true) ∧ ((∀ i, ¬openOn s index i) ∨ s.gFileNum = 0)) ∨
      ∃ i, (s.gHandle i).useFlag = true ∧
        closeFiles index env n s calls = (s, calls ++ [.fClose i (env.fClose i)], false) := by
  induction n with
  | zero => exact .inl ⟨rfl, .inl fun i hi => hbefore i hi.1 hi⟩
  | succ n ih =>
    unfold closeFiles
    dsimp only
    split
    · rename_i hzero
      exact .inl ⟨rfl, .inr hzero⟩
    · split
      · rename_i hopen
        have hon : openOn s index (fatMaxOpenFiles - (n + 1)) := ⟨by omega, hopen.1, hopen.2⟩
        have hfails := hguard _ hon hbefore
        rw [if_pos hfails]
        exact .inr ⟨_, hopen.1, rfl⟩
      · rename_i hclosed
        refine ih (by omega) fun j hj hon => ?_
        by_cases heq : j = fatMaxOpenFiles - (n + 1)
        · rw [heq] at hon
          exact hclosed ⟨hon.2.1, hon.2.2⟩
        · exact hbefore j (by omega) hon

/-- What the second loop of `CloseAll` has done to `s`. -/
structure DirCloses (s s' : FatState) (dirs : List Nat) (calls : List FatCall) : Prop where
  gHandle : s'.gHandle = s.gHandle
  gFileNum : s'.gFileNum = s.gFileNum
  nextBuf : s'.nextBuf = s.nextBuf
  dirs : DirInv s' (calls.foldl dirsAfter dirs)
  frees : calls.filterMap FatCall.frees = []
  slots : ∀ call ∈ calls, call.slot = none

theorem closeDirs_closes (index : Nat) (env : FatEnv) {n : Nat} {calls : List FatCall} (hn : n ≤ fatMaxOpenDirs)
    (h : DirCloses s s' dirs calls) :
    DirCloses s (closeDirs index env n s' calls).1 dirs (closeDirs index env n s' calls).2.1 := by
  induction n generalizing s' calls with
  | zero => exact h
  | succ n ih =>
    unfold closeDirs
    dsimp only
    split
    · exact h
    · split
      · rename_i hfs
        split
        · rename_i hres
          refine ⟨h.gHandle, h.gFileNum, h.nextBuf, ?_, ?_, ?_⟩
          · rw [List.foldl_append, List.foldl_cons, List.foldl_nil, (quiet_fClosedir hres).2]
            exact h.dirs
          · rw [List.filterMap_append, h.frees]
            rfl
          · exact List.forall_mem_append.mpr ⟨h.slots, List.forall_mem_singleton.mpr rfl⟩
        · refine ih (by omega) ⟨h.gHandle, h.gFileNum, h.nextBuf, ?_, ?_, ?_⟩
          · rw [List.foldl_append]
            refine h.dirs.close ((h.dirs.mem _).mpr ⟨by omega, ?_⟩) rfl rfl
            by_contra hclosed
            rw [h.dirs.cleared _ (Bool.eq_false_iff.mpr hclosed)] at hfs
            cases hfs
          · rw [List.filterMap_append, h.frees]
            rfl
          · exact List.forall_mem_append.mpr ⟨h.slots, List.forall_mem_singleton.mpr rfl⟩
      · exact ih (by omega) h

/-- What a critical section leaves behind. -/
structure Accounted (s : FatState) (freed dirs : List Nat) (o : FatOutcome) : Prop where
  files : FileInv o.state (freed ++ o.calls.filterMap FatCall.frees)
  dirs : DirInv o.state (o.calls.foldl dirsAfter dirs)
  slots : SlotsUsed s o.calls

theorem Accounted.quiet {ret : Int} {calls : List FatCall} (hfiles : FileInv s' freed) (hdirs : DirInv s' dirs)
    (hquiet : ∀ call ∈ calls, call.Quiet) (hslots : SlotsUsed s calls) :
    Accounted s freed dirs ⟨s', ret, calls⟩ := by
  obtain ⟨hfrees, hledger⟩ := quiet_ledger dirs hquiet
  refine ⟨?_, ?_, hslots⟩
  · dsimp only
    rw [hfrees, List.append_nil]
    exact hfiles
  · dsimp only
    rw [hledger]
    exact hdirs

omit [FatConfig] in
theorem slotsUsed_of_none {calls : List FatCall} (h : ∀ call ∈ calls, call.slot = none) : SlotsUsed s calls := by
  intro call hcall slot hslot
  rw [h call hcall] at hslot
  cases hslot

theorem Accounted.unfreed {ret : Int} {calls : List FatCall} (hfiles : FileInv s' freed)
    (hdirs : DirInv s' (calls.foldl dirsAfter dirs)) (hfrees : calls.filterMap FatCall.frees = [])
    (hslots : ∀ call ∈ calls, call.slot = none) : Accounted s freed dirs ⟨s', ret, calls⟩ := by
  refine ⟨?_, hdirs, slotsUsed_of_none hslots⟩
  dsimp only
  rw [hfrees, List.append_nil]
  exact hfiles

theorem closeAll_guarded {index : Nat} {calls : List FatCall} {done : Bool} (hfiles : FileInv s freed)
    (hdirs : DirInv s dirs)
    (hguard : ∀ i, openOn s index i → (∀ j < i, ¬openOn s index j) → env.fClose i ≠ .ok)
    (h : closeAll s index env = (s', calls, done)) :
    Accounted s freed dirs ⟨s', -1, calls⟩ ∧ (done = true → ∀ i, ¬openOn s' index i) := by
  unfold closeAll at h
  obtain ⟨hclose, hnone⟩ | ⟨i, hused, hclose⟩ := closeFiles_guarded [] (Nat.le_refl _)
    (fun j hj => absurd hj (by omega)) hguard
  · rw [hclose] at h
    dsimp only at h
    have hcloses := closeDirs_closes index env (Nat.le_refl fatMaxOpenDirs)
      (⟨rfl, rfl, rfl, hdirs, rfl, fun _ hcall => by cases hcall⟩ : DirCloses s s dirs [])
    rw [h] at hcloses
    dsimp only at hcloses
    have hsame : ∀ i, (s'.gHandle i).useFlag = (s.gHandle i).useFlag ∧
        (s'.gHandle i).fil.buf = (s.gHandle i).fil.buf := fun i => by
      rw [hcloses.gHandle]
      exact ⟨rfl, rfl⟩
    refine ⟨Accounted.unfreed (hfiles.congr hsame hcloses.gFileNum hcloses.nextBuf) hcloses.dirs hcloses.frees
      hcloses.slots, fun _ i hon => ?_⟩
    · have hon' : openOn s index i := by
        unfold openOn FatState.volume at hon ⊢
        rw [hcloses.gHandle] at hon
        exact hon
      obtain hnone | hzero := hnone
      · exact hnone i hon'
      · have hpos := countBelow_pos (p := fun i => (s.gHandle i).useFlag) hon'.1 hon'.2.1
        rw [← hfiles.count, hzero] at hpos
        exact Nat.lt_irrefl _ hpos
  · rw [hclose] at h
    cases h
    refine ⟨?_, fun hdone => by cases hdone⟩
    refine Accounted.quiet hfiles hdirs (List.forall_mem_singleton.mpr ⟨rfl, fun _ => rfl⟩) ?_
    intro call hcall slot hslot
    rw [List.mem_singleton.mp hcall] at hslot
    cases hslot
    exact hused

omit [FatConfig] in
theorem slotsUsed_single {fd : Nat} {call : FatCall} (hused : (s.gHandle fd).useFlag = true)
    (hslot : call.slot = some fd) : SlotsUsed s [call] := by
  intro call' hcall slot hslot'
  rw [List.mem_singleton.mp hcall, hslot] at hslot'
  cases hslot'
  exact hused

theorem FileInv.setFil {fd : Nat} {fil : Fil} (h : FileInv s freed) (hbuf : fil.buf = (s.gHandle fd).fil.buf) :
    FileInv (s.setHandle fd { s.gHandle fd with fil := fil }) freed := by
  refine h.congr (fun i => ?_) rfl rfl
  unfold FatState.setHandle
  dsimp only
  by_cases hi : i = fd
  · rw [hi, Function.update_self]
    exact ⟨rfl, hbuf⟩
  · rw [Function.update_of_ne hi]
    exact ⟨rfl, rfl⟩

theorem freeSlot_free {i : Nat} (h : freeSlot s = some i) :
    i < fatMaxOpenFiles ∧ (s.gHandle i).useFlag = false := by
  unfold freeSlot at h
  have hfree := List.find?_some h
  exact ⟨List.mem_range.mp (List.mem_of_find?_eq_some h), by simpa using hfree⟩

theorem freeDir_free {i : Nat} (h : freeDir s = some i) : i < fatMaxOpenDirs ∧ (s.gDir i).dir = false := by
  unfold freeDir at h
  have hfree := List.find?_some h
  exact ⟨List.mem_range.mp (List.mem_of_find?_eq_some h), by simpa using hfree⟩

theorem DirInv.length_le (h : DirInv s dirs) : dirs.length ≤ fatMaxOpenDirs := by
  have hsub : dirs ⊆ List.range fatMaxOpenDirs := fun d hd => List.mem_range.mpr ((h.mem d).mp hd).1
  have hle := (h.nodup.subperm hsub).length_le
  rwa [List.length_range] at hle

theorem DirInv.borrow {dir : Nat} (h : DirInv s dirs) (hdir : dir ∈ dirs) :
    (s.gDirNum + (2 ^ 32 - 1)) % 2 ^ 32 = s.gDirNum - 1 := by
  have hpos := List.length_pos_of_mem hdir
  have hle := h.length_le
  have hlt := FatConfig.fatMaxOpenDirs_lt
  rw [h.num]
  omega

theorem accounted_volume {ret : Int} {calls : List FatCall} (hfiles : FileInv s freed) (hdirs : DirInv s dirs)
    (hhandle : s'.gHandle = s.gHandle) (hfileNum : s'.gFileNum = s.gFileNum) (hnext : s'.nextBuf = s.nextBuf)
    (hdir : s'.gDir = s.gDir) (hdirNum : s'.gDirNum = s.gDirNum) (hidle : ∀ call ∈ calls, call.idle = true) :
    Accounted s freed dirs ⟨s', ret, calls⟩ := by
  refine Accounted.quiet (hfiles.congr (fun i => ?_) hfileNum hnext) (hdirs.congr hdir hdirNum)
    (fun call hcall => (quiet_idle (hidle call hcall)).1)
    (slotsUsed_of_none fun call hcall => (quiet_idle (hidle call hcall)).2)
  rw [hhandle]
  exact ⟨rfl, rfl⟩

theorem Accounted.snoc {ret ret' : Int} {calls : List FatCall} {call : FatCall} {s'' : FatState}
    (h : Accounted s freed dirs ⟨s', ret, calls⟩) (hidle : call.idle = true)
    (hhandle : s''.gHandle = s'.gHandle) (hfileNum : s''.gFileNum = s'.gFileNum) (hnext : s''.nextBuf = s'.nextBuf)
    (hdir : s''.gDir = s'.gDir) (hdirNum : s''.gDirNum = s'.gDirNum) :
    Accounted s freed dirs ⟨s'', ret', calls ++ [call]⟩ := by
  obtain ⟨⟨hfrees, hledger⟩, hslot⟩ := quiet_idle hidle
  refine ⟨?_, ?_, ?_⟩
  · dsimp only
    rw [List.filterMap_append, List.filterMap_cons_none hfrees, List.filterMap_nil, List.append_nil]
    refine h.files.congr (fun i => ?_) hfileNum hnext
    rw [hhandle]
    exact ⟨rfl, rfl⟩
  · dsimp only
    rw [List.foldl_append, List.foldl_cons, List.foldl_nil, hledger]
    exact h.dirs.congr hdir hdirNum
  · intro call' hcall
    obtain hcall | hcall := List.mem_append.mp hcall
    · exact h.slots call' hcall
    · rw [List.mem_singleton.mp hcall, hslot]
      exact fun _ heq => by cases heq

theorem fatMove_accounts {op : FatOp} {o : FatOutcome} (hmove : FatMove s env op o) (hfiles : FileInv s freed)
    (hdirs : DirInv s dirs) (hguard : AccountGuarded s env op)
    (hfd : ∀ call fd, op.checked = some (call, fd) → fd < fatMaxOpenFiles) (hdir : op.usesDir dirs) :
    Accounted s freed dirs o := by
  cases hmove with
  | idle hidle => exact accounted_volume hfiles hdirs rfl rfl rfl rfl rfl hidle
  | remount => exact accounted_volume hfiles hdirs rfl rfl rfl rfl rfl (by simp)
  | mount => exact accounted_volume hfiles hdirs rfl rfl rfl rfl rfl (by simp [FatCall.idle])
  | umount => exact accounted_volume hfiles hdirs rfl rfl rfl rfl rfl (by simp [FatCall.idle])
  | umount2 => exact accounted_volume hfiles hdirs rfl rfl rfl rfl rfl (by simp [FatCall.idle])
  | forceStops hfind hforce hclose hlock hmounted =>
    exact (closeAll_guarded hfiles hdirs ((hguard hlock _ hfind hmounted).1 hforce) hclose).1
  | forceStays hfind hforce hclose hlock hmounted =>
    obtain ⟨hclosed, _⟩ := closeAll_guarded hfiles hdirs ((hguard hlock _ hfind hmounted).1 hforce) hclose
    exact hclosed.snoc rfl rfl rfl rfl rfl rfl
  | force hfind hforce hclose hlock hmounted =>
    obtain ⟨hclosed, _⟩ := closeAll_guarded hfiles hdirs ((hguard hlock _ hfind hmounted).1 hforce) hclose
    exact hclosed.snoc rfl rfl rfl rfl rfl rfl
  | @openFails path oflag openNum calls res hopen hidle =>
    obtain ⟨_, hfree⟩ := freeSlot_free hopen.free
    refine Accounted.quiet (hfiles.congr (fun i => ?_) rfl rfl) (hdirs.congr rfl rfl) ?_ ?_
    · unfold FatState.setHandle
      dsimp only
      by_cases hi : i = openNum
      · rw [hi, Function.update_self]
        exact ⟨hfree.symm, rfl⟩
      · rw [Function.update_of_ne hi]
        exact ⟨rfl, rfl⟩
    · refine List.forall_mem_append.mpr ⟨fun call hcall => (quiet_idle (hidle call hcall)).1, ?_⟩
      exact List.forall_mem_singleton.mpr ⟨rfl, fun _ => rfl⟩
    · refine slotsUsed_of_none (List.forall_mem_append.mpr ⟨fun call hcall => ?_, ?_⟩)
      · exact (quiet_idle (hidle call hcall)).2
      · exact List.forall_mem_singleton.mpr rfl
  | opens hopen hidle =>
    obtain ⟨hlt, hfree⟩ := freeSlot_free hopen.free
    refine Accounted.quiet (hfiles.open hlt hfree rfl rfl rfl rfl rfl) (hdirs.congr rfl rfl) ?_ ?_
    · refine List.forall_mem_append.mpr ⟨fun call hcall => (quiet_idle (hidle call hcall)).1, ?_⟩
      exact List.forall_mem_singleton.mpr ⟨rfl, fun _ => rfl⟩
    · refine slotsUsed_of_none (List.forall_mem_append.mpr ⟨fun call hcall => ?_, ?_⟩)
      · exact (quiet_idle (hidle call hcall)).2
      · exact List.forall_mem_singleton.mpr rfl
  | closeFails hlock =>
    exact Accounted.quiet hfiles hdirs (List.forall_mem_singleton.mpr ⟨rfl, fun _ => rfl⟩)
      (slotsUsed_single (hguard hlock) rfl)
  | @closes fd frees hfrees hlock =>
    have hnum : (if 0 < s.gFileNum then s.gFileNum - 1 else s.gFileNum) = s.gFileNum - 1 := by
      split <;> omega
    obtain ⟨buf, hbuf, hclosed⟩ := hfiles.close { s.setHandle fd clearedHandle with gFileNum := _ }
      (hfd _ _ rfl) (hguard hlock) rfl rfl hnum rfl
    rw [hbuf] at hfrees
    rw [hfrees]
    refine ⟨hclosed, hdirs.congr rfl rfl, ?_⟩
    intro call hcall slot hslot
    obtain rfl | hcall := List.mem_cons.mp hcall
    · cases hslot
      exact hguard hlock
    · rw [List.mem_singleton.mp hcall] at hslot
      cases hslot
  | reads hlock =>
    exact Accounted.quiet (hfiles.setFil rfl) (hdirs.congr rfl rfl)
      (List.forall_mem_singleton.mpr ⟨rfl, fun _ => rfl⟩) (slotsUsed_single (hguard hlock) rfl)
  | writes _ _ hlock =>
    exact Accounted.quiet (hfiles.setFil rfl) (hdirs.congr rfl rfl)
      (List.forall_mem_singleton.mpr ⟨rfl, fun _ => rfl⟩) (slotsUsed_single (hguard hlock) rfl)
  | truncateFails hlock =>
    exact Accounted.quiet hfiles hdirs (List.forall_mem_singleton.mpr ⟨rfl, fun _ => rfl⟩)
      (slotsUsed_single (hguard hlock) rfl)
  | truncates _ _ hfil hcalls hlock =>
    refine Accounted.quiet (hfiles.setFil hfil.2) (hdirs.congr rfl rfl) (fun call hcall => ?_)
      fun call hcall slot hslot => ?_
    · obtain rfl | ⟨_, rfl⟩ | ⟨_, rfl⟩ := hcalls call hcall
      · exact ⟨rfl, fun _ => rfl⟩
      · exact ⟨rfl, fun _ => rfl⟩
      · exact ⟨rfl, fun _ => rfl⟩
    · obtain rfl | ⟨_, rfl⟩ | ⟨_, rfl⟩ := hcalls call hcall
      · cases hslot
        exact hguard hlock
      · cases hslot
        exact hguard hlock
      · cases hslot
        exact hguard hlock
  | @opendirFails dirName openNum res hfree hres =>
    obtain ⟨_, hclosed⟩ := freeDir_free hfree
    have hsame : Function.update s.gDir openNum clearedDir = s.gDir := by
      refine Function.update_eq_self_iff.mpr ?_
      have hfs := hdirs.cleared openNum hclosed
      cases hcell : s.gDir openNum with
      | mk fs dir =>
        rw [hcell] at hfs hclosed
        dsimp only at hfs hclosed
        rw [hfs, hclosed]
        rfl
    refine Accounted.quiet (hfiles.congr (fun _ => ⟨rfl, rfl⟩) rfl rfl) (hdirs.congr hsame rfl) ?_ ?_
    · exact List.forall_mem_cons.mpr ⟨⟨rfl, fun _ => rfl⟩, List.forall_mem_singleton.mpr (quiet_fOpendir hres)⟩
    · exact slotsUsed_of_none (by simp [FatCall.slot])
  | opensDir hbound hfree =>
    obtain ⟨hlt, hclosed⟩ := freeDir_free hfree
    exact Accounted.unfreed (hfiles.congr (fun _ => ⟨rfl, rfl⟩) rfl rfl) (hdirs.open hlt hclosed rfl rfl) rfl
      (by simp [FatCall.slot])
  | closedirFails hlock hres => exact absurd (hguard hlock) hres
  | closesDir =>
    exact Accounted.unfreed (hfiles.congr (fun _ => ⟨rfl, rfl⟩) rfl rfl)
      (hdirs.close hdir rfl (hdirs.borrow hdir)) rfl (by simp [FatCall.slot])
  | _ =>
    exact Accounted.quiet hfiles hdirs (by simp [FatCall.Quiet, FatCall.frees, dirsAfter])
      (slotsUsed_of_none (by simp [FatCall.slot]))

theorem fatMove_clean {op : FatOp} {o : FatOutcome} {path : List Char} {index : Nat} (hmove : FatMove s env op o)
    (hfiles : FileInv s freed) (hdirs : DirInv s dirs) (hguard : AccountGuarded s env op)
    (hop : op.unmounts = some path) (hret : o.ret = 0) (hindex : fsPartitionMatch path .volumeName = some index) :
    ∀ i, ¬openOn o.state index i := by
  cases hmove with
  | idle _ hfails =>
    dsimp only at hret
    rw [hfails] at hret
    exact absurd hret (by decide)
  | umount hfind hopen hlock hmounted hmount =>
    cases hop
    cases hindex.symm.trans hfind
    exact hguard hlock hopen hmount _ hfind hmounted
  | umount2 hfind hforce hlock hmounted hmount =>
    cases hop
    cases hindex.symm.trans hfind
    exact (hguard hlock _ hfind hmounted).2 hforce hmount
  | forceStops => cases hret
  | forceStays => cases hret
  | force hfind hforce hclose hlock hmounted =>
    cases hop
    cases hindex.symm.trans hfind
    exact (closeAll_guarded hfiles hdirs ((hguard hlock _ hfind hmounted).1 hforce) hclose).2 rfl
  | _ => cases hop

/-- The invariant of the runs. -/
structure SystemInv (s : FatSystem) : Prop where
  files : FileInv s.fat s.freed
  dirs : DirInv s.fat s.dirs
  pc : ∀ t call fd, s.pc t = some (call, fd) → fd < fatMaxOpenFiles

theorem SystemInv.accounts {s : FatSystem} (h : SystemInv s) : Accounts s :=
  ⟨h.files.count, h.dirs.num, h.files.held, h.files.once⟩

theorem isValidFd_lt {fd : Int} (h : isValidFd s fd = true) : fd.toNat < fatMaxOpenFiles := by
  unfold isValidFd at h
  simp only [Bool.not_eq_true', Bool.or_eq_false_iff, decide_eq_false_iff_not] at h
  omega

theorem fatStep_inv {s s' : FatSystem} {event : FatEvent} {o : FatOutcome} (hstep : FatStep s event o s')
    (hguard : accountGuard s event) (hinv : SystemInv s) : SystemInv s' := by
  cases hstep with
  | refused => exact hinv
  | @checked t call fd hpc hfd =>
    refine ⟨hinv.files, hinv.dirs, fun t' call' fd' hpc' => ?_⟩
    by_cases ht : t' = t
    · rw [ht] at hpc'
      dsimp only at hpc'
      rw [Function.update_self] at hpc'
      cases hpc'
      exact isValidFd_lt hfd
    · dsimp only at hpc'
      rw [Function.update_of_ne ht] at hpc'
      exact hinv.pc t' call' fd' hpc'
  | @locked t op env o hpc hdir hop =>
    have hfd : ∀ call fd, op.checked = some (call, fd) → fd < fatMaxOpenFiles := fun call fd hcheck =>
      hinv.pc t call fd (hpc.trans hcheck)
    have hacc := fatMove_accounts (fatOp_move hop) hinv.files hinv.dirs hguard hfd hdir
    refine ⟨hacc.files, hacc.dirs, fun t' call fd hpc' => ?_⟩
    change Function.update s.pc t none t' = some (call, fd) at hpc'
    by_cases ht : t' = t
    · rw [ht, Function.update_self] at hpc'
      cases hpc'
    · rw [Function.update_of_ne ht] at hpc'
      exact hinv.pc t' call fd hpc'

theorem bootedSystem_inv : SystemInv bootedSystem where
  files :=
    { count := (countBelow_zero fun _ _ => rfl).symm
      held := fun _ _ hused => by cases hused
      apart := fun _ _ _ _ hused => by cases hused
      once := fun _ hlt => absurd hlt (Nat.not_lt_zero _)
      old := fun _ hmem => by cases hmem }
  dirs :=
    { num := rfl
      nodup := List.nodup_nil
      mem := fun _ => iff_of_false List.not_mem_nil fun hboth => by cases hboth.2
      cleared := fun _ _ => rfl }
  pc := fun _ _ _ hpc => by cases hpc

theorem fatRun_inv {s : FatSystem} {events : List FatEvent} (hrun : FatRun accountGuard bootedSystem events s) :
    SystemInv s :=
  run_invariant SystemInv (fun _ _ _ hinv ⟨hguard, _, hstep⟩ => fatStep_inv hstep hguard hinv) hrun bootedSystem_inv

/-- In a run whose steps meet the condition the counters and the buffers are right, calls are made on slots
in use only, and no slot is left open on a volume that is unmounted. -/
theorem fatRun_accounts {events : List FatEvent} {s : FatSystem} (hrun : FatRun accountGuard bootedSystem events s) :
    Accounts s ∧ ∀ event o s', accountGuard s event → FatStep s event o s' →
      SlotsUsed s.fat o.calls ∧ UnmountsClean s'.fat event o := by
  have hinv := fatRun_inv hrun
  refine ⟨hinv.accounts, fun event o s' hguard hstep => ?_⟩
  cases hstep with
  | refused => exact ⟨fun _ hcall => (by cases hcall), fun _ _ _ _ _ heq => (by cases heq)⟩
  | checked => exact ⟨fun _ hcall => (by cases hcall), fun _ _ _ _ _ heq => (by cases heq)⟩
  | @locked t op env o hpc hdir hop =>
    have hmove := fatOp_move hop
    have hfd : ∀ call fd, op.checked = some (call, fd) → fd < fatMaxOpenFiles := fun call fd hcheck =>
      hinv.pc t call fd (hpc.trans hcheck)
    refine ⟨(fatMove_accounts hmove hinv.files hinv.dirs hguard hfd hdir).slots, ?_⟩
    intro t' op' env' path index heq hunmounts hret hindex
    cases heq
    exact fatMove_clean hmove hinv.files hinv.dirs hguard hunmounts hret hindex

end

/-- The volume is mounted, and its file "sd/f" is opened. -/
def openEvents : List FatEvent :=
  [.locked 0 (.mount (some "/sd".toList) (some "fat".toList) 0) fatAnswers,
    .locked 0 (.open (some "sd/f".toList) oRdwr) fatAnswers]

def openedSystem : FatSystem :=
  let _ := smallFat
  let mounted := bootedSystem.after 0 (fatfsMount bootedFat (some "/sd".toList) (some "fat".toList) 0 fatAnswers)
  mounted.after 0 (fatfsOpen mounted.fat (some "sd/f".toList) oRdwr fatAnswers)

theorem openEvents_run {guard : FatSystem → FatEvent → Prop} (h : ∀ s, ∀ event ∈ openEvents, guard s event) :
    @FatRun smallFat guard bootedSystem openEvents openedSystem := by
  let _ := smallFat
  refine run_append (run_single ⟨h _ _ List.mem_cons_self, _, FatStep.locked rfl trivial rfl⟩)
    (run_single ⟨h _ _ (List.mem_cons_of_mem _ List.mem_cons_self), _, FatStep.locked rfl trivial rfl⟩)

/-- Files are closed before they are unmounted, and `f_closedir` does not fail. -/
def closesFirst [FatConfig] (s : FatSystem) : FatEvent → Bool
  | .check _ _ _ => true
  | .locked _ (.onFd _ fd) _ => (s.fat.gHandle fd).useFlag
  | .locked _ (.umount _) _ => (List.range fatMaxOpenFiles).all fun i => !(s.fat.gHandle i).useFlag
  | .locked _ (.umount2 _ _) _ => (List.range fatMaxOpenFiles).all fun i => !(s.fat.gHandle i).useFlag
  | .locked _ (.closedir dir) env => env.fClosedir dir = .ok
  | .locked _ _ _ => true

theorem closesFirst_guard [FatConfig] {s : FatSystem} {event : FatEvent} (h : closesFirst s event = true) :
    accountGuard s event := by
  have hnone : ((List.range fatMaxOpenFiles).all fun i => !(s.fat.gHandle i).useFlag) = true →
      ∀ index i, ¬openOn s.fat index i := by
    intro hall index i hopen
    have hi := List.all_eq_true.mp hall i (List.mem_range.mpr hopen.1)
    rw [hopen.2.1] at hi
    cases hi
  cases event with
  | check => exact trivial
  | locked t op env =>
    cases op with
    | onFd call fd => exact fun _ => h
    | umount target =>
      cases target with
      | none => exact trivial
      | some path => exact fun _ _ _ index _ _ => hnone h index
    | umount2 target flag =>
      cases target with
      | none => exact trivial
      | some path =>
        exact fun _ index _ _ => ⟨fun _ i hopen => absurd hopen (hnone h index i), fun _ _ => hnone h index⟩
    | closedir dir => exact fun _ => of_decide_eq_true h
    | _ => exact trivial

/-- The volume is mounted, a file and a directory are opened and closed, and it is unmounted. The file cannot
be closed twice. -/
def closeEvents : List FatEvent :=
  openEvents ++
    [.locked 1 (.opendir (some "sd/d".toList)) fatAnswers, .check 0 .close 0,
      .locked 0 (.onFd .close 0) fatAnswers, .check 1 .close 0, .locked 1 (.closedir 0) fatAnswers,
      .locked 0 (.umount (some "/sd".toList)) fatAnswers]

theorem closeEvents_run [FatConfig] {k : Nat} {s : FatSystem}
    (h : (closeEvents.take k).foldlM (guarded (fun s event => closesFirst s event = true)
      fun s event => (fatNext s event).map Prod.snd) bootedSystem = some s) :
    FatRun accountGuard bootedSystem (closeEvents.take k) s := by
  refine run_mono (fun _ _ _ hstep => ⟨closesFirst_guard hstep.2, ?_⟩) (run_of_guarded h)
  obtain ⟨⟨o, s'⟩, hnext, rfl⟩ := Option.map_eq_some_iff.mp hstep.1
  exact ⟨o, fatStep_of_next hnext⟩

/-- The file is closed while the directory is open, and the volume is unmounted. -/
theorem fatRun_accounts_close :
    letI := smallFat
    (∃ s o s', FatRun accountGuard bootedSystem (closeEvents.take 4) s ∧
      FatStep s (.locked 0 (.onFd .close 0) fatAnswers) o s' ∧ s.fat.gFileNum = 1 ∧ s.fat.gDirNum = 1 ∧
        s'.fat.gFileNum = 0 ∧ o.calls = [.fClose 0 .ok, .ffMemfree 0] ∧ Accounts s ∧ SlotsUsed s.fat o.calls) ∧
      ∃ s o s', FatRun accountGuard bootedSystem (closeEvents.take 7) s ∧
        FatStep s (.locked 0 (.umount (some "/sd".toList)) fatAnswers) o s' ∧ s.freed = [0] ∧ o.ret = 0 ∧
          Accounts s ∧ UnmountsClean s'.fat (.locked 0 (.umount (some "/sd".toList)) fatAnswers) o := by
  let _ := smallFat
  constructor
  · have hrun : ((closeEvents.take 4).foldlM (guarded (fun s event => closesFirst s event = true)
        fun s event => (fatNext s event).map Prod.snd) bootedSystem).bind (fun s =>
        (fatNext s (.locked 0 (.onFd .close 0) fatAnswers)).map fun r =>
          (closesFirst s (.locked 0 (.onFd .close 0) fatAnswers),
            decide (s.fat.gFileNum = 1 ∧ s.fat.gDirNum = 1 ∧ r.2.fat.gFileNum = 0 ∧
              r.1.calls = [.fClose 0 .ok, .ffMemfree 0]))) = some (true, true) := by
      decide +kernel
    obtain ⟨s, hs, hrun⟩ := Option.bind_eq_some_iff.mp hrun
    obtain ⟨⟨o, s'⟩, hnext, hval⟩ := Option.map_eq_some_iff.mp hrun
    simp only [Prod.mk.injEq, decide_eq_true_eq] at hval
    obtain ⟨hguard, hfiles, hdirs, hafter, hcalls⟩ := hval
    obtain ⟨hacc, hsteps⟩ := fatRun_accounts (closeEvents_run hs)
    have hstep := fatStep_of_next hnext
    exact ⟨s, o, s', closeEvents_run hs, hstep, hfiles, hdirs, hafter, hcalls, hacc,
      (hsteps _ o s' (closesFirst_guard hguard) hstep).1⟩
  · have hrun : ((closeEvents.take 7).foldlM (guarded (fun s event => closesFirst s event = true)
        fun s event => (fatNext s event).map Prod.snd) bootedSystem).bind (fun s =>
        (fatNext s (.locked 0 (.umount (some "/sd".toList)) fatAnswers)).map fun r =>
          (closesFirst s (.locked 0 (.umount (some "/sd".toList)) fatAnswers),
            decide (s.freed = [0] ∧ r.1.ret = 0))) = some (true, true) := by
      decide +kernel
    obtain ⟨s, hs, hrun⟩ := Option.bind_eq_some_iff.mp hrun
    obtain ⟨⟨o, s'⟩, hnext, hval⟩ := Option.map_eq_some_iff.mp hrun
    simp only [Prod.mk.injEq, decide_eq_true_eq] at hval
    obtain ⟨hguard, hfreed, hret⟩ := hval
    obtain ⟨hacc, hsteps⟩ := fatRun_accounts (closeEvents_run hs)
    have hstep := fatStep_of_next hnext
    exact ⟨s, o, s', closeEvents_run hs, hstep, hfreed, hret, hacc,
      (hsteps _ o s' (closesFirst_guard hguard) hstep).2⟩

/-- `MNT_FORCE` closes the file and loses its sector buffer. -/
theorem umount2_buffer : ∃ s,
    @FatRun smallFat (fun _ _ => True) bootedSystem
      (openEvents ++ [.locked 0 (.umount2 (some "/sd".toList) mntForce) fatAnswers]) s ∧
        ¬@Accounts smallFat s := by
  let _ := smallFat
  have hstep : FatStep openedSystem (.locked 0 (.umount2 (some "/sd".toList) mntForce) fatAnswers) _ _ :=
    FatStep.locked rfl trivial rfl
  refine ⟨_, run_append (openEvents_run fun _ _ _ => trivial) (run_single ⟨trivial, _, hstep⟩), fun h => ?_⟩
  have hcount := h.freed 0 (by decide) fun i hi hused => ?_
  · exact absurd hcount (by decide)
  · obtain rfl | rfl : i = 0 ∨ i = 1 := Nat.le_one_iff_eq_zero_or_eq_one.mp (Nat.le_of_lt_succ hi)
    · exact absurd hused (by decide)
    · exact absurd hused (by decide)

end LiteosM.Fat
