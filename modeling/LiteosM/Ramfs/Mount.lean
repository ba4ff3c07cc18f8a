import LiteosM.Heap.Registry
import LiteosM.Ramfs.Source
import LiteosM.Vfs.Serial
import Mathlib.Data.Finset.Basic

/-!
# Mounting a RAM file system

`ramfs_mount` takes two blocks of the system heap, formats the second as a pool
of its own and registers the mount point. The blocks it has taken are given back
on some of the ways out.
-/

namespace LiteosM.Ramfs
open Heap Vfs Lib.NextList

/-- `struct ramfs_mount_point` -/
structure RamfsMountPoint where
  memory : Option Nat
  root : RamfsElement

/-- The system heap by the blocks that are in use, the memory with the chain of
pools, and the virtual file system. -/
structure MountState where
  heap : Finset Nat
  pools : MemState
  vfs : VfsState
  rmp : Nat → RamfsMountPoint

/-- What `malloc` returns for the mount point and its memory, and the mutex of
`los_fs_mount`, `none` if its own `malloc` or `LOS_MuxCreate` fails. -/
structure MountMallocs where
  rmp : Option Nat
  memory : Option Nat
  mutex : Option Nat

def MountState.take (s : MountState) (p : Nat) : MountState := { s with heap := insert p s.heap }

def MountState.free (s : MountState) (p : Nat) : MountState := { s with heap := s.heap.erase p }

/-- `los_fs_mount` by a task that gets `fs_mutex`. -/
def losFsMountCall (s : VfsState) (t : Nat) (fsname path : List Char) (mutex : Option Nat) :
    VfsState × Option Int :=
  match losFsMount (some fsname) (some path) with
  | .fails ret => (s, some ret)
  | .direct _ _ ret => (s, some ret)
  | .enter _ => losFsMountEnter (Vfs.losMuxPend s s.fsMutex t) t fsname path mutex

def ramfsName : List Char := ['r', 'a', 'm', 'f', 's']

/-- `memset` and `strncpy` on the new mount point. -/
def newMountPoint (path : List Char) (memory : Option Nat) : RamfsMountPoint where
  memory := memory
  root := { name := path, sibling := none, parent := none, refs := 0, body := .dir none }

def ramfsMount (fuel : Nat) (s : MountState) (t : Nat) (path : List Char) (blockSize : Nat)
    (mem : MountMallocs) : Option (MountState × Int) :=
  if losMaxFileNameLen ≤ path.length then some (s, losResult false)
  else
    match mem.rmp with
    | none => some (s, losResult false)
    | some rmp =>
      let s := { s.take rmp with rmp := Function.update s.rmp rmp (newMountPoint path mem.memory) }
      match mem.memory with
      | none => some (s, losResult false)
      | some memory =>
        match losMemInit fuel s.pools memory blockSize with
        | none => none
        | some (pools, ret) =>
          let s := { s.take memory with pools := pools }
          if ret ≠ losOk then some (s.free memory, losResult false)
          else
            let r := losFsMountCall s.vfs t ramfsName path mem.mutex
            let s := { s with vfs := r.1 }
            if r.2 = some (losResult true) then some (s, losResult true)
            else some ((s.free memory).free rmp, losResult false)

/-- The blocks in use, the registered pools and the mount points are as before. -/
structure MountUntouched (s s' : MountState) : Prop where
  heap : s'.heap = s.heap
  pools : ∀ l, PoolList s.pools l → PoolList s'.pools l
  mounts : s'.vfs.mountPoints = s.vfs.mountPoints

/-- What `malloc` promises: the blocks are not in use and end below the end of
the memory, and the second does not start inside the head of a registered pool. -/
structure MountGranted (s : MountState) (blockSize : Nat) (mem : MountMallocs) : Prop where
  rmp : ∀ p ∈ mem.rmp, p ∉ s.heap
  memory : ∀ p ∈ mem.memory, p ∉ s.heap ∧ p ∉ mem.rmp
  inside : ∀ p ∈ mem.memory, p + blockSize < 4294967296
  heads : ∀ l, PoolList s.pools l → ∀ p ∈ mem.memory, ∀ q ∈ l, p ≤ q ∨ q + 944 ≤ p

section
variable {s s' : MountState} {l : List Nat} {fuel t blockSize : Nat} {path : List Char}
  {mem : MountMallocs}

theorem ramfsMount_fails
    (hfail : ramfsMount fuel s t path blockSize mem = some (s', losResult false)) :
    (s' = s ∧ (losMaxFileNameLen ≤ path.length ∨ mem.rmp = none)) ∨
    (path.length < losMaxFileNameLen ∧ ∃ rmp ∈ mem.rmp,
      (mem.memory = none ∧ s'.heap = insert rmp s.heap) ∨
      ∃ memory ∈ mem.memory, s'.heap = (insert memory (insert rmp s.heap)).erase memory ∨
        ∃ pools, losMemInit fuel s.pools memory blockSize = some (pools, losOk) ∧
          s'.pools = pools) := by
  unfold ramfsMount at hfail
  split at hfail
  · next hlong =>
    cases hfail
    exact Or.inl ⟨rfl, Or.inl hlong⟩
  · next hshort =>
    cases hrmp : mem.rmp with
    | none =>
      rw [hrmp] at hfail
      cases hfail
      exact Or.inl ⟨rfl, Or.inr rfl⟩
    | some rmp =>
      rw [hrmp] at hfail
      refine Or.inr ⟨Nat.lt_of_not_le hshort, rmp, rfl, ?_⟩
      cases hmem : mem.memory with
      | none =>
        rw [hmem] at hfail
        cases hfail
        exact Or.inl ⟨rfl, rfl⟩
      | some memory =>
        rw [hmem] at hfail
        refine Or.inr ⟨memory, rfl, ?_⟩
        simp only at hfail
        split at hfail
        · cases hfail
        · next pools ret hinit =>
          split at hfail
          · cases hfail
            exact Or.inl rfl
          · next hret =>
            rw [not_not.mp hret] at hinit
            split at hfail
            · cases hfail
            · cases hfail
              exact Or.inr ⟨pools, hinit, rfl⟩

/-- A mount that fails is without a trace if and only if it fails at the length
of the path or at its first `malloc`. -/
theorem ramfsMount_atomic (hl : PoolList s.pools l) (hmem : MountGranted s blockSize mem)
    (hfail : ramfsMount fuel s t path blockSize mem = some (s', losResult false)) :
    MountUntouched s s' ↔ losMaxFileNameLen ≤ path.length ∨ mem.rmp = none := by
  obtain ⟨rfl, hearly⟩ | ⟨hshort, rmp, hrmp, hlate⟩ := ramfsMount_fails hfail
  · exact iff_of_true ⟨rfl, fun l hl => hl, rfl⟩ hearly
  · have hnot : ¬(losMaxFileNameLen ≤ path.length ∨ mem.rmp = none) := by
      intro hearly
      cases hearly with
      | inl hlong => omega
      | inr hnone =>
        rw [hnone] at hrmp
        cases hrmp
    have hfree := hmem.rmp rmp hrmp
    apply iff_of_false _ hnot
    intro hsame
    obtain ⟨-, hheap⟩ | ⟨memory, hmemory, hheap | ⟨pools, hinit, hpools⟩⟩ := hlate
    · -- the second `malloc` failed
      rw [hsame.heap] at hheap
      exact hfree (hheap ▸ Finset.mem_insert_self rmp s.heap)
    · -- `LOS_MemInit` failed
      rw [hsame.heap] at hheap
      have hne : rmp ≠ memory := fun heq => (hmem.memory memory hmemory).2 (heq ▸ hrmp)
      have hin : rmp ∈ (insert memory (insert rmp s.heap)).erase memory := by simp [hne]
      exact hfree (hheap ▸ hin)
    · -- `los_fs_mount` failed
      exact losMemInit_changes hl (hmem.inside memory hmemory)
        (fun q hq => hmem.heads l hl memory hmemory q hq) fuel hinit (hpools ▸ hsame.pools l hl)

end

def unmounted : MountState where
  heap := ∅
  pools := zeroState
  vfs := { smallVfs with fileSystems := [0] }
  rmp := fun _ => ⟨none, { name := [], sibling := none, parent := none, refs := 0, body := .dir none }⟩

/-- The mount point is at 512, and there is no memory for the pool. -/
theorem ramfsMount_atomic_unmounted : ∃ s', ramfsMount 1 unmounted 0 ['/', 'a'] 1024
    ⟨some 512, none, none⟩ = some (s', losResult false) ∧ ¬MountUntouched unmounted s' := by
  have hgranted : MountGranted unmounted 1024 ⟨some 512, none, none⟩ := by
    apply MountGranted.mk
    · intro p _
      exact Finset.notMem_empty p
    all_goals simp
  have hempty : PoolList unmounted.pools [] := rfl
  obtain ⟨s', hrun⟩ : ∃ s', ramfsMount 1 unmounted 0 ['/', 'a'] 1024
      ⟨some 512, none, none⟩ = some (s', losResult false) := ⟨_, rfl⟩
  refine ⟨s', hrun, fun hsame => ?_⟩
  have hearly := (ramfsMount_atomic hempty hgranted hrun).mp hsame
  revert hearly
  decide

/-- The memory of the pool is given back while the pool is registered. -/
theorem ramfsMount_dangling : ∃ s', ramfsMount 1 unmounted 0 ['/', 'a'] 1024
    ⟨some 512, some 4096, none⟩ = some (s', losResult false) ∧
      MountGranted unmounted 1024 ⟨some 512, some 4096, none⟩ ∧
      PoolList s'.pools [4096] ∧ 4096 ∉ s'.heap ∧ ¬MountUntouched unmounted s' := by
  have hgranted : MountGranted unmounted 1024 ⟨some 512, some 4096, none⟩ := by
    apply MountGranted.mk
    · intro p _
      exact Finset.notMem_empty p
    · simp [unmounted]
    · simp
    · intro l hl p _ q hq
      have hnil : l = [] := linked_unique hl (show PoolList zeroState [] from rfl)
      rw [hnil] at hq
      cases hq
  obtain ⟨s', hrun, hpools, hheap⟩ : ∃ s', ramfsMount 1 unmounted 0 ['/', 'a'] 1024
      ⟨some 512, some 4096, none⟩ = some (s', losResult false) ∧ s'.pools = firstPool ∧
      s'.heap = ((insert 4096 {512} : Finset Nat).erase 4096).erase 512 := ⟨_, rfl, rfl, rfl⟩
  have hlist : PoolList s'.pools [4096] := by
    rw [hpools]
    refine ⟨rfl, ?_⟩
    have hnext : nextPool firstPool.mem 4096 = 0 := by decide +kernel
    show pointer (nextPool firstPool.mem 4096) = none
    rw [hnext]
    rfl
  refine ⟨s', hrun, hgranted, hlist, ?_, fun hsame => ?_⟩
  · rw [hheap]
    decide
  · have hnil : [] = [4096] := linked_unique (hsame.pools [] rfl) hlist
    cases hnil

end LiteosM.Ramfs
