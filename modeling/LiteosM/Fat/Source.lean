import LiteosM.Lib.Path
import Mathlib.Algebra.Group.Nat.Defs
import Mathlib.Logic.Function.Basic

/-!
# The FAT file system

`fatfs.c`. What FatFs answers to the calls of one critical section of `FsLock` is its `FatEnv`, and
the calls that were made come back with the result. `errno` is left out. After an `f_mount` that fails
FatFs keeps the volume registered, and a later call on a path mounts it in `mount_volume`. Here such a
volume stays unmounted, and only `f_mount` mounts.
-/

namespace LiteosM.Fat

open LiteosM.Lib.Path

/-- `FRESULT` -/
inductive FResult
  | ok
  | noFile
  | noPath
  | denied
  | noEperm
  | other (code : Nat)
deriving DecidableEq

/-- `FIL`. The field `obj.fs` is an element of `g_fatfs`, or `NULL`. -/
structure Fil where
  fs : Option Nat
  objsize : Nat
  flag : Nat
  fptr : Nat
  buf : Option Nat

structure FatHandleStruct where
  useFlag : Bool
  fil : Fil

/-- `DIR`. The field `dir` is a pointer, which is or is not `NULL`. -/
structure Dir where
  fs : Option Nat
  dir : Bool

/-- `FATFS`. It is `mounted` if its `fs_type` is not 0. -/
structure Fatfs where
  mounted : Bool
  id : Nat
  csize : Nat
  ssize : Nat

/-- Sector buffers are numbered as `f_open` allocates them, and `fsid` is the counter that `f_mount` takes
the numbers of the volumes from. -/
structure FatState where
  gHandle : Nat → FatHandleStruct
  gDir : Nat → Dir
  gFatfs : Nat → Fatfs
  gVolWriteEnable : Nat → Bool
  gFileNum : Nat
  gDirNum : Nat
  fsid : Nat
  nextBuf : Nat

def ffMaxLfn : Nat := 255

def faRead : Nat := 0x01
def faWrite : Nat := 0x02
def faCreateNew : Nat := 0x04
def faCreateAlways : Nat := 0x08
def faOpenAlways : Nat := 0x10
def faModified : Nat := 0x40
def faDirty : Nat := 0x80

def oWronly : Nat := 0o1
def oRdwr : Nat := 0o2
def oAccmode : Nat := 0o10000003
def oCreat : Nat := 0o100
def oExcl : Nat := 0o200
def oTrunc : Nat := 0o1000

def msRdonly : Nat := 1
def msRemount : Nat := 32
def mntForce : Nat := 1
def umountFlags : Nat := 15

def hasFlag (flags bit : Nat) : Bool := flags &&& bit ≠ 0

/-- What a path is looked up as. -/
inductive NameFlag
  | partName
  | volumeName
  | pathName

/-- `sscanf_s` of `%[^/]` -/
def scanName (path : List Char) : Option (List Char) :=
  let name := headName path
  if name = [] ∨ ffMaxLfn ≤ name.length then none else some name

/-- The name in a path that is compared with the names of the volumes. -/
def matchName (path : List Char) : NameFlag → Option (List Char)
  | .volumeName =>
    match path with
    | '/' :: path => scanName path
    | _ => none
  | .pathName => scanName path
  | .partName => if ffMaxLfn ≤ path.length then none else some path

/-- `FsPartitionMatch`, over a table of names. `none` is `FS_FAILURE`. -/
def partitionMatch (ffVolumes : Nat) (gVolPath : Nat → List Char) (path : List Char) (flag : NameFlag) :
    Option Nat := do
  let tmpName ← matchName path flag
  (List.range ffVolumes).find? fun index => tmpName = gVolPath index

/-- The configuration, and the volume that a path call of FatFs acts on. That is the one that the
first component of the path names. -/
class FatConfig where
  ffVolumes : Nat
  gVolPath : Nat → List Char
  fatMaxOpenFiles : Nat
  fatMaxOpenDirs : Nat
  fatMaxOpenDirs_lt : fatMaxOpenDirs < 2 ^ 32
  pathVolume : List Char → Nat
  pathVolume_named : ∀ path index,
    partitionMatch ffVolumes gVolPath path .pathName = some index → pathVolume path = index
  pathVolume_lt : ∀ path, pathVolume path < ffVolumes

export FatConfig (ffVolumes gVolPath fatMaxOpenFiles fatMaxOpenDirs pathVolume)

/-- The calls of FatFs, and those of `ff_memfree`. The volumes are those that the calls act on. -/
inductive FatCall
  | fMount (volume : Nat) (res : FResult)
  | fCheckopenlock (volume : Nat) (res : FResult)
  | fChdrive (res : FResult)
  | fStat (res : FResult)
  /-- `changes` says that a file is created or truncated. -/
  | fOpen (slot volume : Nat) (changes : Bool) (res : FResult)
  | fClose (slot : Nat) (res : FResult)
  | fRead (slot : Nat)
  | fWrite (slot volume : Nat)
  | fGetclustinfo (slot : Nat) (res : FResult)
  | fExpand (slot volume length : Nat) (res : FResult)
  | fTruncate (slot volume length : Nat) (res : FResult)
  | fUnlink (volume : Nat)
  | fMkdir (volume : Nat)
  | fRmdir (volume : Nat)
  | fRename (old new : Nat)
  | fOpendir (dir : Nat) (res : FResult)
  | fClosedir (dir : Nat) (res : FResult)
  | ffMemfree (buf : Nat)
deriving DecidableEq

/-- What FatFs and the lock answer. -/
structure FatEnv where
  /-- `FsLock` returns 0. -/
  fsLock : Bool
  fMount : FResult
  /-- The cluster and sector size that `f_mount` finds. -/
  csize : Nat
  ssize : Nat
  fCheckopenlock : FResult
  fChdrive : FResult
  fStat : FResult
  /-- The file of the path exists. -/
  fileExists : Bool
  fOpen : FResult
  fClose : Nat → FResult
  /-- The other fields of a file that is opened, read or written. -/
  objsize : Nat
  flag : Nat
  fptr : Nat
  fRead : FResult
  fWrite : FResult
  /-- The bytes that were read or written. -/
  bytes : Nat
  fGetclustinfo : FResult
  count : Nat
  /-- `validate`, and the `err` of the file. -/
  fValidate : FResult
  /-- The work on the cluster chain. -/
  fChain : FResult
  /-- `disk_write` of the sector buffer. -/
  fFlush : FResult
  fPath : FResult
  fOpendir : FResult
  fClosedir : Nat → FResult
  /-- What the variable `res` of `do_truncate` holds before anything is assigned to it. -/
  garbage : FResult

/-- The state after a call or after its critical section, its result, and what it has called. The
result of `fatfs_opendir` is the index of the directory, or `-1` for `NULL`. -/
structure FatOutcome where
  state : FatState
  ret : Int
  calls : List FatCall

namespace FatState

variable (s : FatState)

def fails (calls : List FatCall) : FatOutcome := ⟨s, -1, calls⟩

def setHandle (i : Nat) (h : FatHandleStruct) : FatState := { s with gHandle := Function.update s.gHandle i h }

def setDir (i : Nat) (d : Dir) : FatState := { s with gDir := Function.update s.gDir i d }

def volume (fd : Nat) : Option Nat := (s.gHandle fd).fil.fs

end FatState

def clearedHandle : FatHandleStruct := ⟨false, ⟨none, 0, 0, 0, none⟩⟩

def clearedDir : Dir := ⟨none, false⟩

def clearedFatfs : Fatfs := ⟨false, 0, 0, 0⟩

section

variable [FatConfig]

def isValidFd (s : FatState) (fd : Int) : Bool :=
  !(fd < 0 || (fatMaxOpenFiles : Int) ≤ fd || (s.gHandle fd.toNat).useFlag = false)

def fsPartitionMatch (path : List Char) (flag : NameFlag) : Option Nat :=
  partitionMatch ffVolumes gVolPath path flag

def remount (s : FatState) (path : List Char) (mountflags : Nat) : FatOutcome :=
  match fsPartitionMatch path .partName with
  | none => s.fails []
  | some index =>
    if !(s.gFatfs index).mounted then s.fails []
    else
      ⟨{ s with gVolWriteEnable := Function.update s.gVolWriteEnable index (!hasFlag mountflags msRdonly) }, 0, []⟩

/-- `FS_FAILURE` is not 0, and so it is `true` as a `bool`. -/
def fsCheckByPath (s : FatState) (path : List Char) : Bool :=
  match fsPartitionMatch path .pathName with
  | none => true
  | some index => s.gVolWriteEnable index

def fsCheckByID (s : FatState) (id : Nat) : Bool :=
  match (List.range ffVolumes).find? fun index => (s.gFatfs index).id = id with
  | none => false
  | some index => s.gVolWriteEnable index

omit [FatConfig] in
def fatFsGetMode (oflags : Nat) : Nat :=
  let fmode := faRead
  let fmode := if hasFlag oflags oWronly then fmode ||| faWrite else fmode
  let fmode := if hasFlag (oflags &&& oAccmode) oRdwr then fmode ||| faWrite else fmode
  let fmode :=
    if hasFlag oflags oCreat then
      let fmode := fmode ||| faOpenAlways
      if hasFlag oflags oExcl then fmode ||| faCreateNew else fmode
    else fmode
  if hasFlag oflags oTrunc then fmode ||| faCreateAlways else fmode

omit [FatConfig] in
/-- `f_open` of such a mode creates a file that does not exist, or truncates one that does. -/
def openChanges (fmode : Nat) (fileExists : Bool) : Bool :=
  if fileExists then hasFlag fmode faCreateAlways && !hasFlag fmode faCreateNew
  else hasFlag fmode faOpenAlways

/-- `target` and `filesystemtype` are `none` for `NULL`. -/
def fatfsMount (s : FatState) (target filesystemtype : Option (List Char)) (mountflags : Nat) (env : FatEnv) :
    FatOutcome :=
  match target, filesystemtype with
  | some target, some filesystemtype =>
    if !env.fsLock then s.fails []
    else if hasFlag mountflags msRemount then remount s target mountflags
    else if filesystemtype ≠ "fat".toList then s.fails []
    else
      match fsPartitionMatch target .volumeName with
      | none => s.fails []
      | some index =>
        if (s.gFatfs index).mounted then s.fails []
        else if env.fMount ≠ .ok then s.fails [.fMount index env.fMount]
        else
          -- `fs->id = ++Fsid`, a `WORD`
          let fsid := (s.fsid + 1) % 2 ^ 16
          ⟨{ s with
              gFatfs := Function.update s.gFatfs index ⟨true, fsid, env.csize, env.ssize⟩
              gVolWriteEnable := Function.update s.gVolWriteEnable index (!hasFlag mountflags msRdonly)
              fsid := fsid },
            0, [.fMount index .ok]⟩
  | _, _ => s.fails []

def unmountVolume (s : FatState) (index : Nat) (calls : List FatCall) (env : FatEnv) : FatOutcome :=
  if env.fMount ≠ .ok then ⟨s, -1, calls ++ [.fMount index env.fMount]⟩
  else
    ⟨{ s with gFatfs := Function.update s.gFatfs index clearedFatfs }, 0, calls ++ [.fMount index .ok]⟩

def fatfsUmount (s : FatState) (target : Option (List Char)) (env : FatEnv) : FatOutcome :=
  match target with
  | none => s.fails []
  | some target =>
    if !env.fsLock then s.fails []
    else
      match fsPartitionMatch target .volumeName with
      | none => s.fails []
      | some index =>
        if !(s.gFatfs index).mounted then s.fails []
        else if env.fCheckopenlock ≠ .ok then s.fails [.fCheckopenlock index env.fCheckopenlock]
        else unmountVolume s index [.fCheckopenlock index .ok] env

/-- The first loop of `CloseAll`, for `n` more slots. The last component is the result. -/
def closeFiles (index : Nat) (env : FatEnv) : Nat → FatState → List FatCall → FatState × List FatCall × Bool
  | 0, s, calls => (s, calls, true)
  | n + 1, s, calls =>
    let i := fatMaxOpenFiles - (n + 1)
    if s.gFileNum = 0 then (s, calls, true)
    else if (s.gHandle i).useFlag ∧ (s.gHandle i).fil.fs = some index then
      if env.fClose i ≠ .ok then (s, calls ++ [.fClose i (env.fClose i)], false)
      else
        closeFiles index env n { s.setHandle i clearedHandle with gFileNum := s.gFileNum - 1 }
          (calls ++ [.fClose i .ok])
    else closeFiles index env n s calls

/-- The second loop of `CloseAll`. -/
def closeDirs (index : Nat) (env : FatEnv) : Nat → FatState → List FatCall → FatState × List FatCall × Bool
  | 0, s, calls => (s, calls, true)
  | n + 1, s, calls =>
    let i := fatMaxOpenDirs - (n + 1)
    if s.gDirNum = 0 then (s, calls, true)
    else if (s.gDir i).fs = some index then
      if env.fClosedir i ≠ .ok then (s, calls ++ [.fClosedir i (env.fClosedir i)], false)
      else
        closeDirs index env n { s.setDir i clearedDir with gDirNum := s.gDirNum - 1 }
          (calls ++ [.fClosedir i .ok])
    else closeDirs index env n s calls

def closeAll (s : FatState) (index : Nat) (env : FatEnv) : FatState × List FatCall × Bool :=
  match closeFiles index env fatMaxOpenFiles s [] with
  | (s, calls, false) => (s, calls, false)
  | (s, calls, true) => closeDirs index env fatMaxOpenDirs s calls

def fatfsUmount2 (s : FatState) (target : Option (List Char)) (flag : Nat) (env : FatEnv) : FatOutcome :=
  match target with
  | none => s.fails []
  | some target =>
    if flag &&& umountFlags ≠ flag then s.fails []
    else if !env.fsLock then s.fails []
    else
      match fsPartitionMatch target .volumeName with
      | none => s.fails []
      | some index =>
        if !(s.gFatfs index).mounted then s.fails []
        else if hasFlag flag mntForce then
          match closeAll s index env with
          | (s, calls, false) => ⟨s, -1, calls⟩
          | (s, calls, true) => unmountVolume s index calls env
        else unmountVolume s index [] env

/-- The slot that `fatfs_open` takes. -/
def freeSlot (s : FatState) : Option Nat :=
  (List.range fatMaxOpenFiles).find? fun i => (s.gHandle i).useFlag = false

def fatfsOpen (s : FatState) (path : Option (List Char)) (oflag : Nat) (env : FatEnv) : FatOutcome :=
  match path with
  | none => s.fails []
  | some path =>
    let fmode := fatFsGetMode oflag
    if !env.fsLock then s.fails []
    else if fatMaxOpenFiles ≤ s.gFileNum then s.fails []
    else
      match freeSlot s with
      | none => s.fails []
      | some openNum =>
        if env.fChdrive ≠ .ok then s.fails [.fChdrive env.fChdrive]
        else
          let checked := hasFlag oflag oCreat && !fsCheckByPath s path
          let calls : List FatCall := .fChdrive .ok :: if checked then [.fStat env.fStat] else []
          if checked ∧ (env.fStat = .noFile ∨ env.fStat = .noPath) then s.fails calls
          else
            let changes := openChanges fmode env.fileExists
            let calls := calls ++ [.fOpen openNum (pathVolume path) changes env.fOpen]
            if env.fOpen ≠ .ok then
              -- `f_open` makes the object invalid
              ⟨s.setHandle openNum ⟨false, { (s.gHandle openNum).fil with fs := none }⟩, -1, calls⟩
            else
              ⟨{ s.setHandle openNum
                  ⟨true, ⟨some (pathVolume path), env.objsize, env.flag, env.fptr, some s.nextBuf⟩⟩ with
                  gFileNum := s.gFileNum + 1
                  nextBuf := s.nextBuf + 1 },
                openNum, calls⟩

/-- `fatfs_close` after its check of the descriptor. -/
def fatfsClose (s : FatState) (fd : Nat) (env : FatEnv) : FatOutcome :=
  if !env.fsLock then s.fails []
  else if env.fClose fd ≠ .ok then s.fails [.fClose fd (env.fClose fd)]
  else
    let frees := match (s.gHandle fd).fil.buf with
      | none => []
      | some buf => [FatCall.ffMemfree buf]
    ⟨{ s.setHandle fd clearedHandle with
        gFileNum := if 0 < s.gFileNum then s.gFileNum - 1 else s.gFileNum },
      0, .fClose fd .ok :: frees⟩

/-- What `f_read` and `f_write` do to the file. -/
def moveFile (s : FatState) (fd : Nat) (env : FatEnv) : FatState :=
  let h := s.gHandle fd
  s.setHandle fd { h with fil := { h.fil with objsize := env.objsize, flag := env.flag, fptr := env.fptr } }

def fatfsRead (s : FatState) (fd : Nat) (env : FatEnv) : FatOutcome :=
  if !env.fsLock then s.fails []
  else if env.fRead ≠ .ok then ⟨moveFile s fd env, -1, [.fRead fd]⟩
  else ⟨moveFile s fd env, env.bytes, [.fRead fd]⟩

/-- `none` stands for an access through the `NULL` of `obj.fs`. -/
def fatfsWrite (s : FatState) (fd nbyte : Nat) (env : FatEnv) : Option FatOutcome :=
  if !env.fsLock then some (s.fails [])
  else do
    let fs ← s.volume fd
    if !fsCheckByID s (s.gFatfs fs).id then some (s.fails [])
    else if env.fWrite ≠ .ok ∨ nbyte ≠ env.bytes then some ⟨moveFile s fd env, -1, [.fWrite fd fs]⟩
    else some ⟨moveFile s fd env, env.bytes, [.fWrite fd fs]⟩

/-- A call that changes what a path names. -/
def pathCall (s : FatState) (path : Option (List Char)) (call : Nat → FatCall) (env : FatEnv) :
    FatOutcome :=
  match path with
  | none => s.fails []
  | some path =>
    if !env.fsLock then s.fails []
    else if !fsCheckByPath s path then s.fails []
    else if env.fChdrive ≠ .ok then s.fails [.fChdrive env.fChdrive]
    else ⟨s, if env.fPath = .ok then 0 else -1, [.fChdrive .ok, call (pathVolume path)]⟩

def fatfsUnlink (s : FatState) (path : Option (List Char)) (env : FatEnv) : FatOutcome :=
  pathCall s path .fUnlink env

def fatfsMkdir (s : FatState) (path : Option (List Char)) (env : FatEnv) : FatOutcome :=
  pathCall s path .fMkdir env

def fatfsRmdir (s : FatState) (path : Option (List Char)) (env : FatEnv) : FatOutcome :=
  pathCall s path .fRmdir env

def fatfsRename (s : FatState) (oldName newName : Option (List Char)) (env : FatEnv) : FatOutcome :=
  match oldName, newName with
  | some oldName, some newName =>
    if !env.fsLock then s.fails []
    else if !fsCheckByPath s oldName || !fsCheckByPath s newName then s.fails []
    else if env.fChdrive ≠ .ok then s.fails [.fChdrive env.fChdrive]
    else
      ⟨s, if env.fPath = .ok then 0 else -1,
        [.fChdrive .ok, .fRename (pathVolume oldName) (pathVolume newName)]⟩
  | _, _ => s.fails []

/-- The slot that `fatfs_opendir` takes. -/
def freeDir (s : FatState) : Option Nat :=
  (List.range fatMaxOpenDirs).find? fun i => (s.gDir i).dir = false

def fatfsOpendir (s : FatState) (dirName : Option (List Char)) (env : FatEnv) : FatOutcome :=
  match dirName with
  | none => s.fails []
  | some dirName =>
    if !env.fsLock then s.fails []
    else if fatMaxOpenDirs ≤ s.gDirNum then s.fails []
    else
      match freeDir s with
      | none => s.fails []
      | some openNum =>
        if env.fChdrive ≠ .ok then s.fails [.fChdrive env.fChdrive]
        else
          let calls := [.fChdrive .ok, .fOpendir openNum env.fOpendir]
          if env.fOpendir ≠ .ok then
            -- `f_opendir` makes the object invalid
            ⟨s.setDir openNum clearedDir, -1, calls⟩
          else
            ⟨{ s.setDir openNum ⟨some (pathVolume dirName), true⟩ with gDirNum := s.gDirNum + 1 }, openNum, calls⟩

/-- The counter goes down before `f_closedir`. -/
def fatfsClosedir (s : FatState) (dir : Nat) (env : FatEnv) : FatOutcome :=
  if !env.fsLock then s.fails []
  else
    let s := { s with gDirNum := (s.gDirNum + (2 ^ 32 - 1)) % 2 ^ 32 }
    if env.fClosedir dir ≠ .ok then s.fails [.fClosedir dir (env.fClosedir dir)]
    else ⟨s.setDir dir clearedDir, 0, [.fClosedir dir .ok]⟩

def Fatfs.clusterSize (fs : Fatfs) : Nat := fs.csize * fs.ssize

/-- `f_expand`, as far as the size and the flags of the file are concerned. -/
def fExpand (fp : Fil) (length allocated : Nat) (env : FatEnv) : Fil × FResult :=
  if env.fValidate ≠ .ok then (fp, env.fValidate)
  else if length = 0 ∨ !hasFlag fp.flag faWrite then (fp, .denied)
  else if length ≤ allocated then (fp, .ok)
  else if env.fChain ≠ .ok then (fp, env.fChain)
  else ({ fp with flag := fp.flag ||| faModified }, .ok)

/-- `f_truncate`, as far as the size and the flags of the file are concerned. -/
def fTruncate (fp : Fil) (length : Nat) (env : FatEnv) : Fil × FResult :=
  if env.fValidate ≠ .ok then (fp, env.fValidate)
  else if !hasFlag fp.flag faWrite then (fp, .noEperm)
  else if fp.objsize < fp.fptr then (fp, .ok)
  else
    let fp := if env.fChain = .ok then { fp with objsize := length, fptr := min fp.fptr length } else fp
    let fp := { fp with flag := fp.flag ||| faModified }
    if env.fChain ≠ .ok then (fp, env.fChain)
    else if !hasFlag fp.flag faDirty then (fp, .ok)
    else if env.fFlush ≠ .ok then (fp, env.fFlush)
    else ({ fp with flag := fp.flag ^^^ faDirty }, .ok)

/-- `none` stands for an access through the `NULL` of `obj.fs`. -/
def doTruncate (s : FatState) (fd length count : Nat) (env : FatEnv) : Option FatOutcome := do
  let fs ← s.volume fd
  let h := s.gHandle fd
  -- a product of two 32-bit numbers
  let allocated := (s.gFatfs fs).clusterSize * count % 2 ^ 32
  let (fil, res, calls) : Fil × FResult × List FatCall :=
    if allocated < length then
      let r := fExpand h.fil length allocated env
      (r.1, r.2, [.fExpand fd fs length r.2])
    else if length < allocated then
      let r := fTruncate h.fil length env
      (r.1, r.2, [.fTruncate fd fs length r.2])
    else (h.fil, env.garbage, [])
  if res ≠ .ok then some ⟨s.setHandle fd { h with fil := fil }, -1, calls⟩
  else
    let fil := { fil with objsize := length, flag := fil.flag ||| 0x40 }
    some ⟨s.setHandle fd { h with fil := fil }, 0, calls⟩

/-- `fatfs_ftruncate` after its checks of the descriptor and the length. -/
def fatfsFtruncate (s : FatState) (fd length : Nat) (env : FatEnv) : Option FatOutcome :=
  if !env.fsLock then some (s.fails [])
  else do
    let fs ← s.volume fd
    if !fsCheckByID s (s.gFatfs fs).id then some (s.fails [])
    else if env.fGetclustinfo ≠ .ok then some (s.fails [.fGetclustinfo fd env.fGetclustinfo])
    else
      let o ← doTruncate s fd length env.count env
      some { o with calls := .fGetclustinfo fd .ok :: o.calls }

end

/-- One volume, two files and two directories. -/
@[reducible] def smallFat : FatConfig where
  ffVolumes := 1
  gVolPath := fun _ => "sd".toList
  fatMaxOpenFiles := 2
  fatMaxOpenDirs := 2
  fatMaxOpenDirs_lt := by decide
  pathVolume := fun _ => 0
  pathVolume_named := by
    intro path index h
    unfold partitionMatch at h
    obtain ⟨_, _, hfind⟩ := Option.bind_eq_some_iff.mp h
    have hlt := List.mem_range.mp (List.mem_of_find?_eq_some hfind)
    omega
  pathVolume_lt := fun _ => Nat.zero_lt_one

def bootedFat : FatState where
  gHandle := fun _ => clearedHandle
  gDir := fun _ => clearedDir
  gFatfs := fun _ => clearedFatfs
  gVolWriteEnable := fun _ => false
  gFileNum := 0
  gDirNum := 0
  fsid := 0
  nextBuf := 0

/-- FatFs answers to a volume of clusters of 4096 bytes. -/
def fatAnswers : FatEnv where
  fsLock := true
  fMount := .ok
  csize := 8
  ssize := 512
  fCheckopenlock := .ok
  fChdrive := .ok
  fStat := .ok
  fileExists := true
  fOpen := .ok
  fClose := fun _ => .ok
  objsize := 100
  flag := 3
  fptr := 0
  fRead := .ok
  fWrite := .ok
  bytes := 0
  fGetclustinfo := .ok
  count := 1
  fValidate := .ok
  fChain := .ok
  fFlush := .ok
  fPath := .ok
  fOpendir := .ok
  fClosedir := fun _ => .ok
  garbage := .ok

def openedFat (readOnly : Bool) : FatState :=
  let _ := smallFat
  let mounted := fatfsMount bootedFat (some "/sd".toList) (some "fat".toList) (if readOnly then msRdonly else 0)
    fatAnswers
  (fatfsOpen mounted.state (some "sd/f".toList) oRdwr fatAnswers).state

end LiteosM.Fat
