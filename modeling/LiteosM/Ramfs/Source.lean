import Mathlib.Logic.Function.Basic
import LiteosM.Lib.NextList
import LiteosM.Lib.Path
import LiteosM.Lib.Word32

/-!
# RAM file system

Model of `los_ramfs.c`. A pointer to an element is its address, `none` for NULL;
`malloc` and `LOS_MemRealloc` answer through the call. A loop over a sibling
list that does not end, or an access to the wrong member of the union, has no
next state.
-/

namespace LiteosM.Ramfs

open LiteosM.Lib.NextList LiteosM.Lib.Path LiteosM.Lib.Word32

/-- `LOS_MAX_FILE_NAME_LEN` -/
def losMaxFileNameLen : Nat := 16

def oCreat : Nat := 0o100
def oExcl : Nat := 0o200
def oAppend : Nat := 0o2000

/-- A block of memory with the bytes in it. -/
structure Block where
  addr : Nat
  bytes : List UInt8
deriving DecidableEq

/-- `RAMFS_TYPE_FILE` with the member `f` of the union, or `RAMFS_TYPE_DIR` with `d`. -/
inductive RamfsBody
  | file (size : Nat) (content : Option Block)
  | dir (child : Option Nat)
deriving DecidableEq

/-- `struct ramfs_element`. The name is the string before the NUL. -/
structure RamfsElement where
  name : List Char
  sibling : Option Nat
  parent : Option Nat
  refs : Nat
  body : RamfsBody
deriving DecidableEq

/-- What `ramfs` uses of a `struct file`. -/
structure RamfsFile where
  fOffset : Int
  fData : Nat

/-- What `ramfs` uses of a `struct dir`. -/
structure RamfsDir where
  dOffset : Int
  dData : Nat

structure Dirent where
  name : List Char
  isDir : Bool
  size : Nat
deriving DecidableEq

/-- A mount point of the file system with the descriptors and directories open on it. -/
structure RamfsState where
  /-- The element in `struct ramfs_mount_point`. -/
  root : Nat
  element : Nat → RamfsElement
  /-- The root and every element that `malloc` gave and `free` has not got back. -/
  live : List Nat
  file : Nat → RamfsFile
  openFiles : List Nat
  dir : Nat → RamfsDir
  openDirs : List Nat

structure RamfsResult where
  ret : Int
  buff : List UInt8
  dent : Option Dirent
deriving DecidableEq

def status (ret : Int) : RamfsResult := { ret := ret, buff := [], dent := none }

/-- `(size_t)off` -/
def sizeT (off : Int) : Nat := (off % 4294967296).toNat

/-- `(ssize_t)n` -/
def ssizeT (n : Nat) : Int := Int.bmod n 4294967296

def RamfsState.setElement (s : RamfsState) (a : Nat) (e : RamfsElement) : RamfsState :=
  { s with element := Function.update s.element a e }

def RamfsState.setFile (s : RamfsState) (fd : Nat) (file : RamfsFile) : RamfsState :=
  { s with file := Function.update s.file fd file }

def RamfsState.setDir (s : RamfsState) (d : Nat) (dir : RamfsDir) : RamfsState :=
  { s with dir := Function.update s.dir d dir }

/-- `e->refs++` -/
def refsInc (s : RamfsState) (e : Nat) : RamfsState :=
  s.setElement e { s.element e with refs := add32 (s.element e).refs 1 }

/-- `e->refs--` -/
def refsDec (s : RamfsState) (e : Nat) : RamfsState :=
  s.setElement e { s.element e with refs := sub32 (s.element e).refs 1 }

def siblingOf (s : RamfsState) (e : Nat) : Option Nat := (s.element e).sibling

/-- The loop of `ramfs_file_find` over the children of a directory. -/
def ramfsSearch (s : RamfsState) (child : Option Nat) (name : List Char) : Option (Option Nat) :=
  search (siblingOf s) (fun t => decide ((s.element t).name = name)) s.live.length child

/-- The element a path leads to and what is left of the path, `some none` for NULL. -/
def ramfsFileFind (s : RamfsState) (walk : Nat) (path : List Char) :
    Option (Option (Nat × List Char)) :=
  match (s.element walk).body with
  | .file _ _ => some none
  | .dir child =>
    if losMaxFileNameLen ≤ (headName (skipSlashes path)).length then some none
    else
      match ramfsSearch s child (headName (skipSlashes path)) with
      | none => none
      | some none => some (some (walk, skipSlashes path))
      | some (some t) =>
        if _ : afterName (skipSlashes path) = [] then some (some (t, []))
        else ramfsFileFind s t (afterName (skipSlashes path))
termination_by path.length
decreasing_by exact afterName_shorter (skipSlashes_ne_nil ‹_›)

/-- A new element at the head of the list of `walk`. -/
def ramfsLink (s : RamfsState) (walk a : Nat) (e : RamfsElement) : RamfsState :=
  { (s.setElement walk { s.element walk with body := .dir (some a) }).setElement a e with
    live := a :: s.live }

def ramfsOpen (s : RamfsState) (fd : Nat) (path : List Char) (flags : Nat) (mem : Option Nat) :
    Option (RamfsState × RamfsResult) :=
  if path = [] then some (s, status (-1))
  else
    match ramfsFileFind s s.root path with
    | none => none
    | some none => some (s, status (-1))
    | some (some (walk, left)) =>
      match (s.element walk).body with
      | .dir child =>
        if left = [] then some (s, status (-1))
        else if flags &&& oCreat = 0 then some (s, status (-1))
        else if '/' ∈ left then some (s, status (-1))
        else if losMaxFileNameLen ≤ left.length then some (s, status (-1))
        else
          match mem with
          | none => some (s, status (-1))
          | some a =>
            let s₁ := ramfsLink s walk a
              { name := left, sibling := child, parent := some walk, refs := 1, body := .file 0 none }
            some ({ s₁.setFile fd { fOffset := 0, fData := a } with openFiles := fd :: s.openFiles },
              status 0)
      | .file size _ =>
        if left = [] then
          if flags &&& oCreat ≠ 0 ∧ flags &&& oExcl ≠ 0 then some (s, status (-1))
          else
            let offset : Int := if flags &&& oAppend ≠ 0 then size else 0
            some ({ (refsInc s walk).setFile fd { fOffset := offset, fData := walk } with
              openFiles := fd :: s.openFiles }, status 0)
        else some (s, status (-1))

def ramfsClose (s : RamfsState) (fd : Nat) : RamfsState × RamfsResult :=
  ({ refsDec s (s.file fd).fData with openFiles := s.openFiles.erase fd }, status 0)

/-- `if (file->f_offset < 0) file->f_offset = 0` -/
def clampOffset (offset : Int) : Int := if offset < 0 then 0 else offset

/-- The bytes at `content + offset`, as far as the block goes. -/
def bytesAt (content : Option Block) (offset : Int) (n : Nat) : List UInt8 :=
  match content with
  | none => []
  | some block => (block.bytes.drop (sizeT offset)).take n

/-- `memcpy(content + offset, buff, n)` -/
def storeAt (content : Option Block) (offset : Int) (data : List UInt8) : Option Block :=
  content.map fun block =>
    { block with bytes := block.bytes.take (sizeT offset) ++ data ++
        block.bytes.drop (sizeT offset + data.length) }

def ramfsRead (s : RamfsState) (fd bytes : Nat) : Option (RamfsState × RamfsResult) :=
  let file := s.file fd
  let offset := clampOffset file.fOffset
  match (s.element file.fData).body with
  | .dir _ => none
  | .file size content =>
    if size ≤ sizeT offset then some (s.setFile fd { file with fOffset := offset }, status 0)
    else
      let bytes := if (size : Int) - offset < bytes then sizeT ((size : Int) - offset) else bytes
      some (s.setFile fd { file with fOffset := offset + bytes },
        { ret := ssizeT bytes, buff := bytesAt content offset bytes, dent := none })

def ramfsWrite (s : RamfsState) (fd : Nat) (buff : List UInt8) (mem : Option Block) :
    Option (RamfsState × RamfsResult) :=
  let file := s.file fd
  let offset := clampOffset file.fOffset
  let e := s.element file.fData
  match e.body with
  | .dir _ => none
  | .file size content =>
    if (size : Int) < offset + buff.length then
      match mem with
      | some p =>
        let body := .file (sizeT (offset + buff.length)) (storeAt (some p) offset buff)
        some ((s.setElement file.fData { e with body := body }).setFile fd
          { file with fOffset := offset + buff.length }, status (ssizeT buff.length))
      | none =>
        if size ≤ sizeT offset then some (s.setFile fd { file with fOffset := offset }, status (-1))
        else
          let bytes := sizeT ((size : Int) - offset)
          let body := .file size (storeAt content offset (buff.take bytes))
          some ((s.setElement file.fData { e with body := body }).setFile fd
            { file with fOffset := offset + bytes }, status (ssizeT bytes))
    else
      let body := .file size (storeAt content offset buff)
      some ((s.setElement file.fData { e with body := body }).setFile fd
        { file with fOffset := offset + buff.length }, status (ssizeT buff.length))

/-- `whence` with `SEEK_SET`, `SEEK_CUR` and `SEEK_END`. The sum is an `off_t` of 64 bits. -/
def seekTo (offset : Int) (size : Nat) (off : Int) : Nat → Option Int
  | 0 => some off
  | 1 => some (Int.bmod (offset + off) 18446744073709551616)
  | 2 => some size
  | _ => none

def ramfsLseek (s : RamfsState) (fd : Nat) (off : Int) (whence : Nat) :
    Option (RamfsState × RamfsResult) :=
  let file := s.file fd
  match (s.element file.fData).body with
  | .dir _ => none
  | .file size _ =>
    match seekTo file.fOffset size off whence with
    | none => some (s, status (-1))
    | some pos =>
      let pos := clampOffset pos
      let pos := if size < sizeT pos then (size : Int) else pos
      some (s.setFile fd { file with fOffset := pos }, status pos)

def freeElement (s : RamfsState) (e : Nat) : RamfsState := { s with live := s.live.erase e }

def ramfsDel (s : RamfsState) (e : Nat) : Option RamfsState :=
  match (s.element e).parent with
  | none => some s
  | some dir =>
    match (s.element dir).body with
    | .file _ _ => none
    | .dir child =>
      if child = some e then
        some (freeElement (s.setElement dir { s.element dir with
          body := .dir (s.element e).sibling }) e)
      else
        match search (siblingOf s) (fun t => decide ((s.element t).sibling = some e)) s.live.length
          child with
        | some (some t) =>
          some (freeElement (s.setElement t { s.element t with sibling := (s.element e).sibling }) e)
        | _ => none

def ramfsUnlink (s : RamfsState) (path : List Char) : Option (RamfsState × RamfsResult) :=
  match ramfsFileFind s s.root path with
  | none => none
  | some none => some (s, status (-1))
  | some (some (e, left)) =>
    if left ≠ [] then some (s, status (-1))
    else if (s.element e).refs ≠ 0 then some (s, status (-1))
    else
      match (s.element e).body with
      | .dir child =>
        if child ≠ none then some (s, status (-1))
        else (ramfsDel s e).map fun s => (s, status 0)
      | .file size _ =>
        (ramfsDel (s.setElement e { s.element e with body := .file size none }) e).map
          fun s => (s, status 0)

def ramfsRename (s : RamfsState) (pathOld pathNew : List Char) : Option (RamfsState × RamfsResult) :=
  match ramfsFileFind s s.root pathOld with
  | none => none
  | some none => some (s, status (-1))
  | some (some (old, leftOld)) =>
    if leftOld ≠ [] then some (s, status (-1))
    else
      match ramfsFileFind s s.root pathNew with
      | none => none
      | some none => some (s, status (-1))
      | some (some (new, leftNew)) =>
        if leftNew = [] then some (s, status (-1))
        else if '/' ∈ leftNew then some (s, status (-1))
        else if some new ≠ (s.element old).parent then some (s, status (-1))
        else if losMaxFileNameLen ≤ leftNew.length then some (s, status (-1))
        else some (s.setElement old { s.element old with name := leftNew }, status 0)

def ramfsOpendir (s : RamfsState) (d : Nat) (path : List Char) : Option (RamfsState × RamfsResult) :=
  match ramfsFileFind s s.root path with
  | none => none
  | some none => some (s, status (-1))
  | some (some (e, left)) =>
    if left ≠ [] then some (s, status (-1))
    else
      match (s.element e).body with
      | .file _ _ => some (s, status (-1))
      | .dir _ =>
        some ({ (refsInc s e).setDir d { dOffset := 0, dData := e } with
          openDirs := d :: s.openDirs }, status 0)

/-- The loop of `ramfs_readdir`: the child after `n` others. -/
def ramfsNth (s : RamfsState) : Nat → Option Nat → Option Nat
  | 0, child => child
  | _ + 1, none => none
  | n + 1, some e => ramfsNth s n (s.element e).sibling

def ramfsReaddir (s : RamfsState) (d : Nat) : Option (RamfsState × RamfsResult) :=
  let dir := s.dir d
  match (s.element dir.dData).body with
  | .file _ _ => none
  | .dir child =>
    match ramfsNth s dir.dOffset.toNat child with
    | none => some (s, status (-1))
    | some e =>
      let name := (s.element e).name.take (losMaxFileNameLen - 1)
      let dent : Dirent := match (s.element e).body with
        | .dir _ => { name := name, isDir := true, size := 0 }
        | .file size _ => { name := name, isDir := false, size := size }
      some (s.setDir d { dir with dOffset := dir.dOffset + 1 },
        { ret := 0, buff := [], dent := some dent })

def ramfsClosedir (s : RamfsState) (d : Nat) : RamfsState × RamfsResult :=
  ({ refsDec s (s.dir d).dData with openDirs := s.openDirs.erase d }, status 0)

def ramfsMkdir (s : RamfsState) (path : List Char) (mem : Option Nat) :
    Option (RamfsState × RamfsResult) :=
  match ramfsFileFind s s.root path with
  | none => none
  | some none => some (s, status (-1))
  | some (some (walk, left)) =>
    if left = [] then some (s, status (-1))
    -- slashes may follow the new name, but nothing else
    else if '/' ∈ left ∧ skipSlashes (afterName left) ≠ [] then some (s, status (-1))
    else if losMaxFileNameLen ≤ (headName left).length then some (s, status (-1))
    else
      match mem, (s.element walk).body with
      | none, _ => some (s, status (-1))
      | some _, .file _ _ => none
      | some a, .dir child =>
        some (ramfsLink s walk a
          { name := headName left, sibling := child, parent := some walk, refs := 0, body := .dir none },
          status 0)

/-- A call through the operations of the file system. `mem` is what the allocator returns in it. -/
inductive RamfsOp
  | «open» (fd : Nat) (path : List Char) (flags : Nat) (mem : Option Nat)
  | close (fd : Nat)
  | read (fd addr bytes : Nat)
  | write (fd : Nat) (buff : Block) (mem : Option Block)
  | lseek (fd : Nat) (off : Int) (whence : Nat)
  | unlink (path : List Char)
  | rename (pathOld pathNew : List Char)
  | opendir (d : Nat) (path : List Char)
  | readdir (d : Nat)
  | closedir (d : Nat)
  | mkdir (path : List Char) (mem : Option Nat)

/-- An address range of the 32-bit memory without NULL. -/
def InMemory (addr n : Nat) : Prop := 0 < addr ∧ addr + n ≤ 4294967296

/-- Two address ranges without a common byte. -/
def Apart (a n b m : Nat) : Prop := a + n ≤ b ∨ b + m ≤ a

instance (addr n : Nat) : Decidable (InMemory addr n) := instDecidableAnd

instance (a n b m : Nat) : Decidable (Apart a n b m) := instDecidableOr

/-- `f.content` of an element. -/
def contentOf (s : RamfsState) (e : Nat) : Option Block :=
  match (s.element e).body with
  | .file _ content => content
  | .dir _ => none

/-- `LOS_MemRealloc` keeps the bytes the old and the new block have in common. -/
def Reallocated (content : Option Block) (n : Nat) (p : Block) : Prop :=
  p.bytes.length = n ∧ InMemory p.addr n ∧
    ∀ block ∈ content, p.bytes.take block.bytes.length = block.bytes.take n

instance (content : Option Block) (n : Nat) (p : Block) : Decidable (Reallocated content n p) :=
  instDecidableAnd

/-- The buffer of a call: memory of its own, away from the contents of the file. -/
def BufferOk (s : RamfsState) (fd addr n : Nat) : Prop :=
  InMemory addr n ∧
    ∀ block ∈ contentOf s (s.file fd).fData, Apart addr n block.addr block.bytes.length

instance (s : RamfsState) (fd addr n : Nat) : Decidable (BufferOk s fd addr n) := instDecidableAnd

def HandleOk (used : List Nat) (h : Nat) : Prop := 0 < h ∧ h < 4294967296 ∧ h ∉ used

instance (used : List Nat) (h : Nat) : Decidable (HandleOk used h) := instDecidableAnd

/-- What a caller and the allocator grant: `malloc` gives memory that is not in use. -/
def RamfsOp.Valid (s : RamfsState) : RamfsOp → Prop
  | .open fd _ _ mem => HandleOk s.openFiles fd ∧ ∀ a ∈ mem, a ∉ s.live
  | .close fd => fd ∈ s.openFiles
  | .read fd addr bytes => fd ∈ s.openFiles ∧ BufferOk s fd addr bytes
  | .write fd buff mem => fd ∈ s.openFiles ∧ BufferOk s fd buff.addr buff.bytes.length ∧
      ∀ p ∈ mem, Reallocated (contentOf s (s.file fd).fData)
          (sizeT (clampOffset (s.file fd).fOffset + buff.bytes.length)) p ∧
        Apart buff.addr buff.bytes.length p.addr p.bytes.length
  | .lseek fd off _ =>
      fd ∈ s.openFiles ∧ -9223372036854775808 ≤ off ∧ off < 9223372036854775808
  | .unlink _ => True
  | .rename _ _ => True
  | .opendir d _ => HandleOk s.openDirs d
  | .readdir d => d ∈ s.openDirs
  | .closedir d => d ∈ s.openDirs
  | .mkdir _ mem => ∀ a ∈ mem, a ∉ s.live

instance (s : RamfsState) (op : RamfsOp) : Decidable (op.Valid s) := by
  cases op <;> unfold RamfsOp.Valid <;> infer_instance

def ramfsCall (s : RamfsState) : RamfsOp → Option (RamfsState × RamfsResult)
  | .open fd path flags mem => ramfsOpen s fd path flags mem
  | .close fd => some (ramfsClose s fd)
  | .read fd _ bytes => ramfsRead s fd bytes
  | .write fd buff mem => ramfsWrite s fd buff.bytes mem
  | .lseek fd off whence => ramfsLseek s fd off whence
  | .unlink path => ramfsUnlink s path
  | .rename pathOld pathNew => ramfsRename s pathOld pathNew
  | .opendir d path => ramfsOpendir s d path
  | .readdir d => ramfsReaddir s d
  | .closedir d => some (ramfsClosedir s d)
  | .mkdir path mem => ramfsMkdir s path mem

/-- The calls are issued one at a time. The label has what the call returns. -/
def ramfsNext (s : RamfsState) (event : RamfsOp × RamfsResult) : Option RamfsState :=
  if event.1.Valid s then
    match ramfsCall s event.1 with
    | none => none
    | some (s', r) => if r = event.2 then some s' else none
  else none

def RamfsStep (s : RamfsState) (event : RamfsOp × RamfsResult) (s' : RamfsState) : Prop :=
  ramfsNext s event = some s'

theorem ramfsStep_iff {s s' : RamfsState} {op : RamfsOp} {r : RamfsResult} :
    RamfsStep s (op, r) s' ↔ op.Valid s ∧ ramfsCall s op = some (s', r) := by
  unfold RamfsStep ramfsNext
  constructor
  · intro h
    split at h
    · rename_i hvalid
      refine ⟨hvalid, ?_⟩
      cases hcall : ramfsCall s op with
      | none =>
        rw [hcall] at h
        cases h
      | some x =>
        obtain ⟨s₁, r₁⟩ := x
        rw [hcall] at h
        dsimp only at h
        split at h
        · rename_i hr
          cases h
          rw [hr]
        · cases h
    · cases h
  · intro h
    obtain ⟨hvalid, hcall⟩ := h
    rw [if_pos hvalid, hcall]
    exact if_pos rfl

/-- The mount point that `ramfs_mount` makes at a path. -/
def ramfsMounted (root : Nat) (path : List Char) : RamfsState where
  root := root
  element := fun _ => { name := path, sibling := none, parent := none, refs := 0, body := .dir none }
  live := [root]
  file := fun _ => { fOffset := 0, fData := root }
  openFiles := []
  dir := fun _ => { dOffset := 0, dData := root }
  openDirs := []

end LiteosM.Ramfs
