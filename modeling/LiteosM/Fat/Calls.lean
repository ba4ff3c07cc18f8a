import LiteosM.Fat.Source
import LiteosM.Lib.Transition

/-!
# Tasks in the FAT file system

Each critical section of `FsLock` is a step. A call on a descriptor checks it in a step before.
-/

namespace LiteosM.Fat

open LiteosM.Lib.Transition

/-- The calls on a descriptor. -/
inductive FdCall
  | close
  | read
  | write (nbyte : Nat)
  | ftruncate (length : Nat)
deriving DecidableEq

/-- The calls, with `none` for a `NULL`. -/
inductive FatOp
  | mount (target filesystemtype : Option (List Char)) (mountflags : Nat)
  | umount (target : Option (List Char))
  | umount2 (target : Option (List Char)) (flag : Nat)
  | open (path : Option (List Char)) (oflag : Nat)
  | onFd (call : FdCall) (fd : Nat)
  | unlink (path : Option (List Char))
  | mkdir (path : Option (List Char))
  | rmdir (path : Option (List Char))
  | rename (oldName newName : Option (List Char))
  | opendir (dirName : Option (List Char))
  | closedir (dir : Nat)

/-- The call that a task must have checked the descriptor of. -/
def FatOp.checked : FatOp → Option (FdCall × Nat)
  | .onFd call fd => some (call, fd)
  | _ => none

/-- The directory that is open when it is closed. -/
def FatOp.usesDir (dirs : List Nat) : FatOp → Prop
  | .closedir dir => dir ∈ dirs
  | _ => True

instance (dirs : List Nat) (op : FatOp) : Decidable (op.usesDir dirs) :=
  match op with
  | .closedir dir => inferInstanceAs (Decidable (dir ∈ dirs))
  | .mount _ _ _ | .umount _ | .umount2 _ _ | .open _ _ | .onFd _ _ | .unlink _ | .mkdir _ | .rmdir _
  | .rename _ _ | .opendir _ => isTrue trivial

/-- The state, the calls that are past their check, the directories that are open by the calls of FatFs, and
the sector buffers that were freed. -/
structure FatSystem where
  fat : FatState
  pc : Nat → Option (FdCall × Nat)
  dirs : List Nat
  freed : List Nat

/-- A task checks a descriptor, or goes through a critical section. -/
inductive FatEvent
  | check (t : Nat) (call : FdCall) (fd : Int)
  | locked (t : Nat) (op : FatOp) (env : FatEnv)

/-- The directories that are open after a call of FatFs. -/
def dirsAfter (dirs : List Nat) : FatCall → List Nat
  | .fOpendir dir .ok => dir :: dirs
  | .fClosedir dir .ok => dirs.erase dir
  | _ => dirs

def FatCall.frees : FatCall → Option Nat
  | .ffMemfree buf => some buf
  | _ => none

def FatSystem.after (s : FatSystem) (t : Nat) (o : FatOutcome) : FatSystem where
  fat := o.state
  pc := Function.update s.pc t none
  dirs := o.calls.foldl dirsAfter s.dirs
  freed := s.freed ++ o.calls.filterMap FatCall.frees

/-- No task is in a call, and nothing is mounted or open. -/
def bootedSystem : FatSystem := ⟨bootedFat, fun _ => none, [], []⟩

variable [FatConfig]

def fatOp (s : FatState) (env : FatEnv) : FatOp → Option FatOutcome
  | .mount target filesystemtype mountflags => some (fatfsMount s target filesystemtype mountflags env)
  | .umount target => some (fatfsUmount s target env)
  | .umount2 target flag => some (fatfsUmount2 s target flag env)
  | .open path oflag => some (fatfsOpen s path oflag env)
  | .onFd .close fd => some (fatfsClose s fd env)
  | .onFd .read fd => some (fatfsRead s fd env)
  | .onFd (.write nbyte) fd => fatfsWrite s fd nbyte env
  | .onFd (.ftruncate length) fd => fatfsFtruncate s fd length env
  | .unlink path => some (fatfsUnlink s path env)
  | .mkdir path => some (fatfsMkdir s path env)
  | .rmdir path => some (fatfsRmdir s path env)
  | .rename oldName newName => some (fatfsRename s oldName newName env)
  | .opendir dirName => some (fatfsOpendir s dirName env)
  | .closedir dir => some (fatfsClosedir s dir env)

/-- A step, with its result and the calls of FatFs. -/
inductive FatStep (s : FatSystem) : FatEvent → FatOutcome → FatSystem → Prop
  | refused {t : Nat} {call : FdCall} {fd : Int} (hpc : s.pc t = none) (hfd : isValidFd s.fat fd = false) :
      FatStep s (.check t call fd) (s.fat.fails []) s
  | checked {t : Nat} {call : FdCall} {fd : Int} (hpc : s.pc t = none) (hfd : isValidFd s.fat fd = true) :
      FatStep s (.check t call fd) ⟨s.fat, 0, []⟩ { s with pc := Function.update s.pc t (some (call, fd.toNat)) }
  | locked {t : Nat} {op : FatOp} {env : FatEnv} {o : FatOutcome} (hpc : s.pc t = op.checked)
      (hdir : op.usesDir s.dirs) (hop : fatOp s.fat env op = some o) : FatStep s (.locked t op env) o (s.after t o)

def fatNext (s : FatSystem) : FatEvent → Option (FatOutcome × FatSystem)
  | .check t call fd =>
    if s.pc t ≠ none then none
    else if isValidFd s.fat fd then
      some (⟨s.fat, 0, []⟩, { s with pc := Function.update s.pc t (some (call, fd.toNat)) })
    else some (s.fat.fails [], s)
  | .locked t op env =>
    if s.pc t = op.checked ∧ op.usesDir s.dirs then (fatOp s.fat env op).map fun o => (o, s.after t o) else none

theorem fatStep_of_next {s s' : FatSystem} {event : FatEvent} {o : FatOutcome}
    (h : fatNext s event = some (o, s')) : FatStep s event o s' := by
  cases event with
  | check t call fd =>
    unfold fatNext at h
    obtain ⟨hpc, h⟩ := Option.ite_none_left_eq_some.mp h
    split at h
    · rename_i hfd
      cases h
      exact .checked (not_not.mp hpc) hfd
    · rename_i hfd
      cases h
      exact .refused (not_not.mp hpc) (eq_false_of_ne_true hfd)
  | locked t op env =>
    unfold fatNext at h
    obtain ⟨⟨hpc, hdir⟩, h⟩ := Option.ite_none_right_eq_some.mp h
    obtain ⟨o, ho, h⟩ := Option.map_eq_some_iff.mp h
    cases h
    exact .locked hpc hdir ho

def FatRun (guard : FatSystem → FatEvent → Prop) : FatSystem → List FatEvent → FatSystem → Prop :=
  Run fun s event s' => guard s event ∧ ∃ o, FatStep s event o s'

end LiteosM.Fat
