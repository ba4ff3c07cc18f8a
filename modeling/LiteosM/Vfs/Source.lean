import LiteosM.Lib.Counting
import LiteosM.Lib.Path
import Mathlib.Algebra.Group.Nat.Defs
import Mathlib.Logic.Function.Basic

/-!
# The virtual file system

`los_vfs.c`. Each task is at a place of the call it is in. The steps of a call are cut at every
`LOS_MuxPend` and around the callback of the file system. The calls are made by tasks, of which
one may have locked the scheduler (`LOS_TaskLock`). `los_mux.h` does not allow a `LOS_MuxPend` during
an interrupt. One that makes calls while the scheduler is not locked is like a task that has locked it.
-/

namespace LiteosM.Vfs

open LiteosM.Lib.Counting LiteosM.Lib.Path

def losMaxFiles : Nat := 8

def losFsMaxNameLen : Nat := 16

def oAccmode : Nat := 0x200003

def oRdonly : Nat := 0

def oWronly : Nat := 1

inductive FileStatus
  | notUsed
  | initing
  | ready
  | closing
deriving DecidableEq

/-- The callbacks of a file system. -/
inductive Callback
  | open
  | close
  | read
  | write
  | lseek
  | stat
  | unlink
  | rename
  | ioctl
  | sync
  | opendir
  | readdir
  | closedir
  | mkdir
deriving DecidableEq

/-- The callbacks that are not `NULL`. -/
abbrev FileOps := Callback → Bool

structure FileSystem where
  fsName : List Char
  fsFops : FileOps
  fsRefs : Nat

structure MountPoint where
  mFs : Nat
  mPath : List Char
  mRefs : Nat
  mMutex : Nat

structure File where
  fFops : Option FileOps
  fFlags : Nat
  fStatus : FileStatus
  fOffset : Int
  fMp : Option Nat
  fOwner : Option Nat

/-- A directory that `los_opendir` returned. It is `live` until `los_closedir` frees it. -/
structure Dir where
  dMp : Nat
  live : Bool

/-- A mutex of the kernel. `muxList` has the tasks that wait for it. -/
structure Mutex where
  muxStat : Bool
  owner : Option Nat
  muxList : List Nat

/-- What a call does with a mount point while it has its `m_mutex`. -/
inductive Access
  | open (file flags : Nat)
  | file (op : Callback) (file : Nat)
  | opendir
  | readdir (dir : Nat)
  | closedir (dir : Nat)
  | mkdir
deriving DecidableEq

/-- What a call wants when it pends on `fs_mutex`. -/
inductive Request
  | open (path : List Char) (flags : Nat)
  | attach (op : Callback) (fd : Nat)
  | stat (path : List Char)
  | unlink (path : List Char)
  | rename (old new : List Char)
  | opendir (path : List Char)
  | mkdir (path : List Char)
  | register (f : Nat)
  | unregister (f : Nat)
  | mount (fsname path : List Char)
  | unmount (path : List Char)
deriving DecidableEq

/-- What becomes of a call when its `LOS_MuxPend` of `fs_mutex` is refused. -/
inductive Refused
  /-- It returns an error. -/
  | fails (ret : Int)
  /-- It drops the result and goes on without the mutex. -/
  | goesOn
  /-- It tries again until it gets the mutex. -/
  | tries (op : Callback) (fd : Nat)
deriving DecidableEq

def Request.refused : Request → Refused
  | .open _ _ => .fails (-1)
  | .attach op fd => .tries op fd
  | .stat _ => .fails (-1)
  | .unlink _ => .goesOn
  | .rename _ _ => .goesOn
  | .opendir _ => .fails 0
  | .mkdir _ => .fails (-1)
  | .register _ => .fails 1
  | .unregister _ => .fails 1
  | .mount _ _ => .goesOn
  | .unmount _ => .goesOn

/-- The place of a task. -/
inductive Pc
  | idle
  /-- In `LOS_MuxPend` of `fs_mutex`. -/
  | enter (r : Request)
  /-- Past that `LOS_MuxPend`, which was refused. -/
  | unheld (r : Request)
  /-- In the loop of `_los_attach_file` around that `LOS_MuxPend`. -/
  | spin (op : Callback) (fd : Nat)
  /-- In `LOS_MuxPend` of the `m_mutex`. -/
  | wait (a : Access) (mp : Nat)
  /-- The callback comes next. -/
  | inside (a : Access) (mp : Nat)
  | callback (a : Access) (mp : Nat)
  /-- The `LOS_MuxPost` of the `m_mutex` comes next. -/
  | after (a : Access) (mp : Nat) (ret : Int)
  /-- `los_file_put` comes next. -/
  | put (file : Nat) (ret : Int)
  /-- The callback comes next, under `fs_mutex`. -/
  | pathInside (op : Callback) (mp : Nat)
  | pathCallback (op : Callback) (mp : Nat)
  /-- The `LOS_MuxPost` of `fs_mutex` comes next. -/
  | pathAfter (ret : Int)
deriving DecidableEq

/-- Mount points and directories are numbered as they are allocated, and a number is not used again.
`lockTask` is the task that has locked the scheduler, so that `g_losTaskLock` is not 0. -/
structure VfsState where
  files : Nat → File
  fsMutex : Nat
  mountPoints : List Nat
  fileSystems : List Nat
  fs : Nat → FileSystem
  mp : Nat → MountPoint
  mpNext : Nat
  dir : Nat → Dir
  dirNext : Nat
  mux : Nat → Mutex
  lockTask : Option Nat
  pc : Nat → Pc

namespace VfsState

variable (s : VfsState)

def setFile (i : Nat) (f : File) : VfsState := { s with files := Function.update s.files i f }

def setMp (m : Nat) (p : MountPoint) : VfsState := { s with mp := Function.update s.mp m p }

def setMux (h : Nat) (cb : Mutex) : VfsState := { s with mux := Function.update s.mux h cb }

def setPc (t : Nat) (p : Pc) : VfsState := { s with pc := Function.update s.pc t p }

def fops (m : Nat) : FileOps := (s.fs (s.mp m).mFs).fsFops

def holder (m : Nat) : Option Nat := (s.mux (s.mp m).mMutex).owner

end VfsState

/-- `OsMuxValidCheck` lets a task through: the mutex exists, and the scheduler is not locked. -/
def osMuxValidCheck (s : VfsState) (h : Nat) : Bool := (s.mux h).muxStat && s.lockTask.isNone

/-- `LOS_MuxPend` with `LOS_WAIT_FOREVER` after its checks, by a task that does not have the mutex. -/
def Mutex.pend (cb : Mutex) (t : Nat) : Mutex :=
  match cb.owner with
  | none => { cb with owner := some t }
  | some _ => { cb with muxList := cb.muxList ++ [t] }

/-- `LOS_MuxPost`. The first task that waits is the next owner. -/
def Mutex.post (cb : Mutex) (t : Nat) : Mutex :=
  if cb.muxStat = false ∨ cb.owner ≠ some t then cb
  else
    match cb.muxList with
    | [] => { cb with owner := none }
    | w :: ws => { cb with owner := some w, muxList := ws }

def Mutex.delete (cb : Mutex) : Mutex :=
  if cb.muxStat = false ∨ cb.muxList ≠ [] ∨ cb.owner.isSome then cb else { cb with muxStat := false }

def losMuxPend (s : VfsState) (h t : Nat) : VfsState := s.setMux h ((s.mux h).pend t)

def losMuxPost (s : VfsState) (h t : Nat) : VfsState := s.setMux h ((s.mux h).post t)

def losMuxDelete (s : VfsState) (h : Nat) : VfsState := s.setMux h (s.mux h).delete

def losFileGet (s : VfsState) : Option (VfsState × Nat) :=
  ((List.range losMaxFiles).find? fun i => (s.files i).fStatus = .notUsed).map fun i =>
    (s.setFile i { s.files i with fStatus := .initing }, i)

def losFilePut (s : VfsState) (file : Nat) : VfsState :=
  s.setFile file
    { fFops := none, fFlags := 0, fStatus := .notUsed, fOffset := 0, fMp := none, fOwner := none }

/-- The loop that compares one mount point: `matches` and `i_path` at its end, and `none` where the
source goes to the next mount point. -/
def mpMatches (mPath iPath : List Char) (count : Nat) : Option (Nat × List Char) :=
  let iPath := skipSlashes iPath
  -- the next component of `m_path`, up to `t`
  let name := headName (skipSlashes mPath)
  if _ : name = [] then some (count, iPath)
  else if ¬ name <+: iPath then none
  else
    let iPath := iPath.drop name.length
    if iPath ≠ [] ∧ iPath.head? ≠ some '/' then none
    else
      let rest := (skipSlashes mPath).drop name.length
      if rest = [] then some (count + name.length, iPath)
      else mpMatches rest iPath (count + name.length)
termination_by mPath.length
decreasing_by
  have hpos : 0 < name.length := List.length_pos_iff.mpr ‹_›
  have hskip : (skipSlashes mPath).length ≤ mPath.length := skipSlashes_length_le
  have hle : name.length ≤ (skipSlashes mPath).length := (List.takeWhile_sublist _).length_le
  show ((skipSlashes mPath).drop name.length).length < mPath.length
  rw [List.length_drop]
  omega

/-- The mount point and `path_in_mp`. -/
def losMpFind (s : VfsState) (path : List Char) : Option (Nat × List Char) :=
  (s.mountPoints.foldl (fun best m =>
    match mpMatches (s.mp m).mPath path 0 with
    | none => best
    | some (count, iPath) => if best.1 < count then (count, some (m, skipSlashes iPath)) else best)
    (0, none)).2

/-- The arguments of a call. A pointer that is `NULL` is `none`. -/
inductive Call
  | open (path : Option (List Char)) (flags : Nat)
  | close (fd : Int)
  | read (fd : Int) (buff : Bool) (bytes : Nat)
  | write (fd : Int) (buff : Bool) (bytes : Nat)
  | lseek (fd : Int)
  | ioctl (fd : Int)
  | sync (fd : Int)
  | stat (path : Option (List Char)) (buf : Bool)
  | unlink (path : Option (List Char))
  | rename (old new : Option (List Char))
  | opendir (path : Option (List Char)) (malloc : Bool)
  | readdir (dir : Option Nat)
  | closedir (dir : Option Nat)
  | mkdir (path : Option (List Char))
  | register (f : Nat)
  | unregister (f : Nat)
  | mount (fsname path : Option (List Char))
  | unmount (path : Option (List Char))

/-- What a call does before it pends on a mutex. -/
inductive Start
  | fails (ret : Int)
  | enter (r : Request)
  | direct (a : Access) (dir : Nat) (ret : Int)

def losAttachFile (op : Callback) (fd : Int) : Start :=
  if fd < 0 ∨ (losMaxFiles : Int) ≤ fd then .fails (-1) else .enter (.attach op fd.toNat)

def losOpen : Option (List Char) → Nat → Start
  | none, _ => .fails (-1)
  | some path, flags => if path.getLast? = some '/' then .fails (-1) else .enter (.open path flags)

def losClose (fd : Int) : Start := losAttachFile .close fd

def losRead (fd : Int) (buff : Bool) (bytes : Nat) : Start :=
  if buff = false ∨ bytes = 0 then .fails (-1) else losAttachFile .read fd

def losWrite (fd : Int) (buff : Bool) (bytes : Nat) : Start :=
  if buff = false ∨ bytes = 0 then .fails (-1) else losAttachFile .write fd

def losLseek (fd : Int) : Start := losAttachFile .lseek fd

def losIoctl (fd : Int) : Start := losAttachFile .ioctl fd

def losSync (fd : Int) : Start := losAttachFile .sync fd

def losStat : Option (List Char) → Bool → Start
  | some path, true => .enter (.stat path)
  | _, _ => .fails (-1)

def losUnlink : Option (List Char) → Start
  | some path => .enter (.unlink path)
  | none => .fails (-1)

def losRename : Option (List Char) → Option (List Char) → Start
  | some old, some new => .enter (.rename old new)
  | _, _ => .fails (-1)

def losOpendir : Option (List Char) → Bool → Start
  | some path, true => .enter (.opendir path)
  | _, _ => .fails 0

def losReaddir : Option Nat → Start
  | some dir => .direct (.readdir dir) dir 0
  | none => .fails 0

def losClosedir : Option Nat → Start
  | some dir => .direct (.closedir dir) dir (-1)
  | none => .fails (-1)

def losMkdir : Option (List Char) → Start
  | some path => .enter (.mkdir path)
  | none => .fails (-1)

def losFsNameCheck (name : List Char) : Bool :=
  name ≠ [] && name.length < losFsMaxNameLen &&
    name.all fun ch => ch.isAlphanum || ch = '_' || ch = '-'

def losFsRegister (s : VfsState) (f : Nat) : Start :=
  if !(s.fs f).fsFops .open then .fails 1
  else if !losFsNameCheck (s.fs f).fsName then .fails 1
  else .enter (.register f)

def losFsUnregister (f : Nat) : Start := .enter (.unregister f)

def losFsMount : Option (List Char) → Option (List Char) → Start
  | some fsname, some path =>
    if path.head? ≠ some '/' then .fails 1 else .enter (.mount fsname path)
  | _, _ => .fails 1

def losFsUnmount : Option (List Char) → Start
  | some path => .enter (.unmount path)
  | none => .fails 1

def Call.start (s : VfsState) : Call → Start
  | .open path flags => losOpen path flags
  | .close fd => losClose fd
  | .read fd buff bytes => losRead fd buff bytes
  | .write fd buff bytes => losWrite fd buff bytes
  | .lseek fd => losLseek fd
  | .ioctl fd => losIoctl fd
  | .sync fd => losSync fd
  | .stat path buf => losStat path buf
  | .unlink path => losUnlink path
  | .rename old new => losRename old new
  | .opendir path malloc => losOpendir path malloc
  | .readdir dir => losReaddir dir
  | .closedir dir => losClosedir dir
  | .mkdir path => losMkdir path
  | .register f => losFsRegister s f
  | .unregister f => losFsUnregister f
  | .mount fsname path => losFsMount fsname path
  | .unmount path => losFsUnmount path

/-- The state and the value that a call returned in the step. -/
abbrev Stepped := VfsState × Option Int

def VfsState.returns (s : VfsState) (t : Nat) (ret : Int) : Stepped := (s.setPc t .idle, some ret)

/-- `LOS_MuxPost` of `fs_mutex`, and the call returns. -/
def VfsState.leaves (s : VfsState) (t : Nat) (ret : Int) : Stepped :=
  (losMuxPost s s.fsMutex t).returns t ret

/-- A call that has `fs_mutex` pends on the `m_mutex` of the mount point it found. -/
def VfsState.pends (s : VfsState) (t : Nat) (a : Access) (m : Nat) : Stepped :=
  ((losMuxPend s (s.mp m).mMutex t).setPc t (.wait a m), none)

def losMpFindIn (s : VfsState) (path : List Char) : Option Nat :=
  match losMpFind s path with
  | some (m, pathInMp) => if pathInMp = [] then none else some m
  | none => none

/-- `los_open` from the return of the first `LOS_MuxPend` on. -/
def losOpenEnter (s : VfsState) (t : Nat) (path : List Char) (flags : Nat) : Stepped :=
  match losFileGet s with
  | none => s.leaves t (-1)
  | some (s, file) =>
    let fail : Stepped := ((losMuxPost s s.fsMutex t).setPc t (.put file (-1)), none)
    match losMpFindIn s path with
    | none => fail
    | some m =>
      if !s.fops m .open then fail
      else if !osMuxValidCheck s (s.mp m).mMutex then fail
      else s.pends t (.open file flags) m

/-- `_los_attach_file` from the return of the first `LOS_MuxPend` on. It pends on the mutex of the
mount point until it has it. -/
def losAttachFileEnter (s : VfsState) (t : Nat) (op : Callback) (fd : Nat) : Option Stepped :=
  if (s.files fd).fStatus = .ready then do
    let m ← (s.files fd).fMp
    if !osMuxValidCheck s (s.mp m).mMutex then some (s, none)
    else
      let s := if op = .close then s.setFile fd { s.files fd with fStatus := .closing } else s
      some (s.pends t (.file op fd) m)
  else some (s.leaves t (-1))

/-- A call of a path whose callback runs under `fs_mutex` alone. -/
def losPathEnter (s : VfsState) (t : Nat) (op : Callback) (m : Option Nat) : Stepped :=
  match m with
  | none => s.leaves t (-1)
  | some m => if s.fops m op then (s.setPc t (.pathInside op m), none) else s.leaves t (-1)

def losRenameEnter (s : VfsState) (t : Nat) (old new : List Char) : Stepped :=
  match losMpFindIn s old, losMpFindIn s new with
  | some mpOld, some mpNew =>
    if !s.fops mpOld .unlink || !s.fops mpNew .unlink then s.leaves t (-1)
    else if mpOld ≠ mpNew then s.leaves t (-1)
    else losPathEnter s t .rename (some mpOld)
  | _, _ => s.leaves t (-1)

/-- `los_opendir` and `los_mkdir` from the return of the first `LOS_MuxPend` on. -/
def losDirEnter (s : VfsState) (t : Nat) (a : Access) (ret : Int) (m : Option Nat) : Stepped :=
  match m with
  | none => s.leaves t ret
  | some m => if !osMuxValidCheck s (s.mp m).mMutex then s.leaves t ret else s.pends t a m

def losFsFind (s : VfsState) (name : List Char) : Option Nat :=
  s.fileSystems.find? fun f => (s.fs f).fsName.take losFsMaxNameLen = name.take losFsMaxNameLen

def losResult (ok : Bool) : Int := if ok then 0 else 1

def losFsRegisterEnter (s : VfsState) (t f : Nat) : Stepped :=
  if (losFsFind s (s.fs f).fsName).isSome then s.leaves t (losResult false)
  else { s with fileSystems := f :: s.fileSystems }.leaves t (losResult true)

def losFsUnregisterEnter (s : VfsState) (t f : Nat) : Stepped :=
  if 0 < (s.fs f).fsRefs then s.leaves t (losResult true)
  else if f ∈ s.fileSystems then
    { s with fileSystems := s.fileSystems.erase f }.leaves t (losResult true)
  else s.leaves t (losResult false)

/-- A new mount point of the file system `f`, with the mutex `h`. -/
def addMountPoint (s : VfsState) (f : Nat) (path : List Char) (h : Nat) : VfsState :=
  { s with
    mux := Function.update s.mux h { muxStat := true, owner := none, muxList := [] }
    mp := Function.update s.mp s.mpNext { mFs := f, mPath := path, mRefs := 0, mMutex := h }
    mpNext := s.mpNext + 1
    mountPoints := s.mpNext :: s.mountPoints
    fs := Function.update s.fs f { s.fs f with fsRefs := ((s.fs f).fsRefs + 1) % 2 ^ 32 } }

/-- `got` is the mutex that `LOS_MuxCreate` makes. It is `none` if that or the `malloc` fails. -/
def losFsMountEnter (s : VfsState) (t : Nat) (fsname path : List Char) (got : Option Nat) : Stepped :=
  match losFsFind s fsname with
  | none => s.leaves t (losResult false)
  | some f =>
    if (losMpFind s path).map Prod.snd = some [] then s.leaves t (losResult false)
    else
      match got with
      | none => s.leaves t (losResult false)
      | some h => (addMountPoint s f path h).leaves t (losResult true)

def losFsUnmounts (s : VfsState) (path : List Char) : Option Nat :=
  match losMpFind s path with
  | none => none
  | some (m, tmp) => if tmp ≠ [] ∨ (s.mp m).mRefs ≠ 0 then none else some m

def removeMountPoint (s : VfsState) (m : Nat) : VfsState :=
  let f := (s.mp m).mFs
  { losMuxDelete s (s.mp m).mMutex with
    mountPoints := s.mountPoints.erase m
    fs := Function.update s.fs f { s.fs f with fsRefs := ((s.fs f).fsRefs + (2 ^ 32 - 1)) % 2 ^ 32 } }

def losFsUnmountEnter (s : VfsState) (t : Nat) (path : List Char) : Stepped :=
  match losFsUnmounts s path with
  | none => s.leaves t (losResult false)
  | some m => (removeMountPoint s m).leaves t (losResult true)

def vfsEnter (s : VfsState) (t : Nat) (got : Option Nat) : Request → Option Stepped
  | .open path flags => some (losOpenEnter s t path flags)
  | .attach op fd => losAttachFileEnter s t op fd
  | .stat path => some (losPathEnter s t .stat (losMpFindIn s path))
  | .unlink path => some (losPathEnter s t .unlink (losMpFindIn s path))
  | .rename old new => some (losRenameEnter s t old new)
  | .opendir path => some (losDirEnter s t .opendir 0 ((losMpFind s path).map Prod.fst))
  | .mkdir path => some (losDirEnter s t .mkdir (-1) (losMpFindIn s path))
  | .register f => some (losFsRegisterEnter s t f)
  | .unregister f => some (losFsUnregisterEnter s t f)
  | .mount fsname path => some (losFsMountEnter s t fsname path got)
  | .unmount path => some (losFsUnmountEnter s t path)

/-- The call took `fs_mutex` before the `m_mutex`. -/
def Access.underFs : Access → Bool
  | .readdir _ => false
  | .closedir _ => false
  | _ => true

def Access.callback : Access → Callback
  | .open _ _ => .open
  | .file op _ => op
  | .opendir => .opendir
  | .readdir _ => .readdir
  | .closedir _ => .closedir
  | .mkdir => .mkdir

/-- The flags of the file do not allow the call. -/
def accessDenied (flags : Nat) : Callback → Bool
  | .read => flags &&& oAccmode = oWronly
  | .write => flags &&& oAccmode = oRdonly
  | _ => false

def hasCallback (s : VfsState) (a : Access) (m : Nat) : Bool :=
  match a with
  | .open _ _ => true
  | .file op i => !accessDenied (s.files i).fFlags op && ((s.files i).fFops.map (· op)).getD false
  | _ => s.fops m a.callback

def losOpenFields (s : VfsState) (t : Nat) (a : Access) (m : Nat) : VfsState :=
  match a with
  | .open file flags => s.setFile file
      { s.files file with
        fFlags := flags
        fOffset := 0
        fFops := some (s.fops m)
        fMp := some m
        fOwner := some t }
  | _ => s

def refsInc (s : VfsState) (m : Nat) : VfsState :=
  s.setMp m { s.mp m with mRefs := ((s.mp m).mRefs + 1) % 2 ^ 32 }

def refsDec (s : VfsState) (m : Nat) : VfsState :=
  s.setMp m { s.mp m with mRefs := ((s.mp m).mRefs + (2 ^ 32 - 1)) % 2 ^ 32 }

def liveDirs (s : VfsState) : Nat := countBelow s.dirNext fun d => (s.dir d).live

def dirOpen (s : VfsState) (m : Nat) : VfsState :=
  { s with
    dirNext := s.dirNext + 1
    dir := Function.update s.dir s.dirNext ⟨m, true⟩ }

def dirFree (s : VfsState) (dir : Nat) : VfsState :=
  { s with dir := Function.update s.dir dir { s.dir dir with live := false } }

/-- What a call does when its callback has returned `ret`, up to the `LOS_MuxPost`. The value it will
return is the second component. Each `struct dir` takes more than four bytes of the memory. -/
def losFinish (s : VfsState) (m : Nat) (ret : Int) : Access → Option (VfsState × Int)
  | .open file _ =>
    if ret = 0 then
      let s := refsInc s m
      some (s.setFile file { s.files file with fStatus := .ready }, file)
    else some (losFilePut s file, -1)
  | .file .close file =>
    if ret = 0 then do
      let m ← (s.files file).fMp
      some (refsDec s m, ret)
    else some (s, ret)
  | .file _ _ => some (s, ret)
  | .opendir =>
    if ret = 0 then
      if liveDirs s + 1 < 2 ^ 30 then some (refsInc (dirOpen s m) m, s.dirNext + 1) else none
    else some (s, 0)
  | .readdir dir => some (s, if ret = 0 then (dir : Int) + 1 else 0)
  | .closedir dir =>
    if ret = 0 then some (refsDec (dirFree s dir) m, ret) else some (s, ret)
  | .mkdir => some (s, ret)

/-- What stands for the result of a callback that there is none of. -/
def noCallback (s : VfsState) : Access → Int
  | .file .lseek i => (s.files i).fOffset
  | _ => -1

/-- The mount point whose `m_mutex` the call posts. -/
def postedMp (s : VfsState) (a : Access) (m : Nat) : Option Nat :=
  match a with
  | .file _ file => (s.files file).fMp
  | _ => some m

/-- `run t` is the next step of the call of a task, and `ends t` is the end of its callback. `lock t`
is the `LOS_TaskLock` that locks the scheduler, and `unlock t` the `LOS_TaskUnlock` that ends it. -/
inductive VfsEvent
  | call (t : Nat) (c : Call)
  | run (t : Nat) (got : Option Nat)
  | ends (t : Nat) (ret : Int) (offset : Int)
  | lock (t : Nat)
  | unlock (t : Nat)

def VfsEvent.task : VfsEvent → Nat
  | .call t _ => t
  | .run t _ => t
  | .ends t _ _ => t
  | .lock t => t
  | .unlock t => t

/-- A call comes to its `LOS_MuxPend` of `fs_mutex`. -/
def VfsState.enters (s : VfsState) (t : Nat) (r : Request) : Stepped :=
  if osMuxValidCheck s s.fsMutex then ((losMuxPend s s.fsMutex t).setPc t (.enter r), none)
  else
    match r.refused with
    | .fails ret => (s, some ret)
    | .goesOn => (s.setPc t (.unheld r), none)
    | .tries op fd => (s.setPc t (.spin op fd), none)

def vfsCall (s : VfsState) (t : Nat) (c : Call) : Option Stepped :=
  match s.pc t, c.start s with
  | .idle, .fails ret => some (s, some ret)
  | .idle, .enter r => some (s.enters t r)
  | .idle, .direct a d ret =>
    let m := (s.dir d).dMp
    if s.dirNext ≤ d then none
    else if !osMuxValidCheck s (s.mp m).mMutex then some (s, some ret)
    else some (s.pends t a m)
  | _, _ => none

/-- The `LOS_MuxPend` of a task returns, as the mutex has passed to it. -/
def VfsState.owns (s : VfsState) (h t : Nat) : Bool := (s.mux h).owner = some t

def vfsRun (s : VfsState) (t : Nat) (got : Option Nat) : Option Stepped :=
  match s.pc t with
  | .enter r => if s.owns s.fsMutex t then vfsEnter s t got r else none
  | .unheld r => if r.refused = .goesOn then vfsEnter s t got r else none
  | .spin op fd =>
    if osMuxValidCheck s s.fsMutex then
      some ((losMuxPend s s.fsMutex t).setPc t (.enter (.attach op fd)), none)
    else some (s, none)
  | .wait a m =>
    if s.owns (s.mp m).mMutex t then
      let s := if a.underFs then losMuxPost s s.fsMutex t else s
      some (s.setPc t (.inside a m), none)
    else none
  | .inside a m =>
    if hasCallback s a m then some ((losOpenFields s t a m).setPc t (.callback a m), none)
    else (losFinish s m (noCallback s a) a).map fun r => (r.1.setPc t (.after a m r.2), none)
  | .after a m ret => do
    let posted ← postedMp s a m
    let s := losMuxPost s (s.mp posted).mMutex t
    match a with
    | .file .close file => some (s.setPc t (.put file ret), none)
    | _ => some (s.returns t ret)
  | .put file ret => some ((losFilePut s file).returns t ret)
  | .pathInside op m => some (s.setPc t (.pathCallback op m), none)
  | .pathAfter ret => some (s.leaves t ret)
  | _ => none

/-- A callback may move the offset of its file. -/
def callbackOffset (s : VfsState) (offset : Int) : Access → VfsState
  | .open file _ => s.setFile file { s.files file with fOffset := offset }
  | .file _ file => s.setFile file { s.files file with fOffset := offset }
  | _ => s

def vfsEnds (s : VfsState) (t : Nat) (ret offset : Int) : Option Stepped :=
  match s.pc t with
  | .callback a m =>
    (losFinish (callbackOffset s offset a) m ret a).map fun r => (r.1.setPc t (.after a m r.2), none)
  | .pathCallback _ _ => some (s.setPc t (.pathAfter ret), none)
  | _ => none

/-- A task locks and unlocks the scheduler between its calls. -/
def vfsLock (s : VfsState) (t : Nat) (lockTask : Option Nat) : Option Stepped :=
  match s.pc t with
  | .idle => some ({ s with lockTask := lockTask }, none)
  | _ => none

/-- No other task runs while one has locked the scheduler. A mutex that `LOS_MuxCreate` makes did
not exist. -/
def vfsStep (s : VfsState) (event : VfsEvent) : Option Stepped :=
  if s.lockTask = none ∨ s.lockTask = some event.task then
    match event with
    | .call t c => vfsCall s t c
    | .run t got =>
      if ∀ h ∈ got, h < 2 ^ 32 ∧ (s.mux h).muxStat = false then vfsRun s t got else none
    | .ends t ret offset => vfsEnds s t ret offset
    | .lock t => vfsLock s t (some t)
    | .unlock t => vfsLock s t none
  else none

def vfsNext (s : VfsState) (event : VfsEvent) : Option VfsState := (vfsStep s event).map Prod.fst

/-- After `los_vfs_init`, with no file system registered. -/
structure VfsBooted (s : VfsState) : Prop where
  files : ∀ i, (s.files i).fStatus = .notUsed ∧ (s.files i).fMp = none
  fileSystems : s.fileSystems = []
  mountPoints : s.mountPoints = []
  fsRefs : ∀ f, (s.fs f).fsRefs = 0
  mpNext : s.mpNext = 0
  dirNext : s.dirNext = 0
  bound : s.fsMutex < 2 ^ 32
  fsMutex : s.mux s.fsMutex = ⟨true, none, []⟩
  mux : ∀ h, h ≠ s.fsMutex → s.mux h = ⟨false, none, []⟩
  pc : ∀ t, s.pc t = .idle

end LiteosM.Vfs
