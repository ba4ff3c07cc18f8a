import LiteosM.Vfs.Refs
import LiteosM.Vfs.Serial

/-!
# The lifetime of the mount points

A mount point outlives its users in every run where `los_fs_unmount` takes it away only when its
mutex is free and no slot refers to it.
-/

namespace LiteosM.Vfs

open LiteosM.Lib.Counting LiteosM.Lib.Transition

/-- `los_fs_unmount` takes a mount point away while its `m_mutex` is free and no slot refers to it. -/
def UnmountsFree (s : VfsState) : VfsEvent → Prop
  | .run t _ => ∀ path m, InSection s t (.unmount path) → losFsUnmounts s path = some m →
      s.holder m = none ∧ ∀ i < losMaxFiles, (s.files i).fMp ≠ some m
  | _ => True

/-- A directory is used while it is open, and not while it is closed. -/
def DirUse (s : VfsState) : VfsEvent → Prop
  | .call _ c => ∀ a d ret, c.start s = .direct a d ret → (s.dir d).live = true ∧
      ∀ u, dirOf (s.pc u) = some d → a.closesDir = false ∧ closing (s.pc u) = false
  | _ => True

/-- A new reference does not overflow `m_refs`. -/
def RefsFit (s : VfsState) : VfsEvent → Prop
  | .ends t ret _ => ret = 0 → ∀ a m, s.pc t = .callback a m → a.opens = true →
      (s.mp m).mRefs + 1 < 2 ^ 32
  | _ => True

/-- `los_close` has a callback, which returns `0`. -/
def ClosesOk (s : VfsState) : VfsEvent → Prop
  | .run t _ => ∀ i m, s.pc t = .inside (.file .close i) m → hasCallback s (.file .close i) m = true
  | .ends t ret _ => ∀ i m, s.pc t = .callback (.file .close i) m → ret = 0
  | _ => True

def Alive (s : VfsState) (m : Nat) : Prop :=
  m ∈ s.mountPoints ∧ (s.mux (s.mp m).mMutex).muxStat = true

structure MountSafe (s : VfsState) : Prop where
  /-- A call between finding the mount point and its return. -/
  users : ∀ t m, mountOf (s.pc t) = some m → Alive s m
  /-- An open file, and a slot that is not yet put. -/
  files : ∀ i m, (s.files i).fMp = some m → Alive s m
  dirs : ∀ d < s.dirNext, (s.dir d).live = true → Alive s (s.dir d).dMp
  /-- No mutex is left of a mount point that is unmounted. -/
  released : ∀ h, (s.mux h).muxStat = true → h = s.fsMutex ∨ ∃ m ∈ s.mountPoints, (s.mp m).mMutex = h

section

variable {s s' s₁ : VfsState} {held : Nat → Bool} {lost : Nat → Nat} {t u i m : Nat} {event : VfsEvent}

theorem InSection.slotOf {r : Request} (h : InSection s t r) : slotOf (s.pc t) = none := by
  obtain ⟨hpc, _⟩ | ⟨hpc, _⟩ := h <;> rw [hpc] <;> rfl

theorem UserRight.mounted {p : Pc} (h : UserRight s held p) (hm : mountOf p = some m) :
    m ∈ s.mountPoints := by
  cases p with
  | wait a n => cases hm; exact h.1
  | inside a n => cases hm; exact h.1
  | callback a n => cases hm; exact h.1
  | after a n ret => cases hm; exact h.1
  | pathInside op n => cases hm; exact h
  | pathCallback op n => cases hm; exact h
  | _ => cases hm

theorem VfsInv.safe (hi : VfsInv s held lost) : MountSafe s where
  users := fun t m hm => by
    have hmem := (hi.users.tasks t).mounted hm
    exact ⟨hmem, hi.mounts.stat m hmem⟩
  files := fun i m hm => by
    have hmem := hi.users.fileMounted i m hm
    exact ⟨hmem, hi.mounts.stat m hmem⟩
  dirs := fun d hd hlive => by
    have hmem := hi.users.dirMounted d hd hlive
    exact ⟨hmem, hi.mounts.stat _ hmem⟩
  released := hi.mounts.used

theorem VfsInv.move (hi : VfsInv s held lost) (hlocks : LockInv s') (hmounts : MountInv s')
    (hfiles : s'.files = s.files) (hmps : s'.mountPoints = s.mountPoints) (hdirs : s'.dir = s.dir)
    (hnext : s'.dirNext = s.dirNext) (hrefs : ∀ m, (s'.mp m).mRefs = (s.mp m).mRefs)
    (hpc : ∀ u, u ≠ t → s'.pc u = s.pc u) (hright : UserRight s held (s'.pc t))
    (hslot : slotOf (s'.pc t) = slotOf (s.pc t))
    (hdir : ∀ d, dirOf (s'.pc t) = some d → dirOf (s.pc t) = some d ∧
      closing (s'.pc t) = closing (s.pc t)) : VfsInv s' held lost where
  locks := hlocks
  mounts := hmounts
  users := hi.users.move hfiles hmps hdirs hnext hpc hright hslot hdir
  refs := hi.refs.congr hmps hrefs hdirs hnext fun _ _ => ⟨rfl, fun _ => by rw [hfiles]⟩

theorem VfsInv.rest (hi : VfsInv s held lost) (hlocks : LockInv s') (hmounts : MountInv s')
    (hfiles : s'.files = s.files) (hmps : s'.mountPoints = s.mountPoints) (hdirs : s'.dir = s.dir)
    (hnext : s'.dirNext = s.dirNext) (hrefs : ∀ m, (s'.mp m).mRefs = (s.mp m).mRefs)
    (hpc : ∀ u, u ≠ t → s'.pc u = s.pc u) (ht : s'.pc t = .idle) (hslot : slotOf (s.pc t) = none) :
    VfsInv s' held lost := by
  refine hi.move hlocks hmounts hfiles hmps hdirs hnext hrefs hpc ?_ ?_ fun d hd => ?_
  · rw [ht]
    trivial
  · rw [ht, hslot]
    rfl
  · rw [ht] at hd
    cases hd

theorem VfsInv.getFile {file : Nat} {p : Pc} (hi : VfsInv s held lost) (hpc : slotOf (s.pc t) = none)
    (hfile : file < losMaxFiles) (hfree : (s.files file).fStatus = .notUsed)
    (hs₁ : s₁.files = (s.setFile file { s.files file with fStatus := .initing }).files)
    (hmps : s₁.mountPoints = s.mountPoints) (hdirs : s₁.dir = s.dir) (hnext : s₁.dirNext = s.dirNext)
    (hrefs : ∀ m, (s₁.mp m).mRefs = (s.mp m).mRefs) (hpcs : s₁.pc = s.pc) (hslot : slotOf p = some file)
    (hdir : dirOf p = none)
    (hright : held file = false → (s₁.files file).fStatus = .initing → UserRight (s₁.setPc t p) held p) :
    UserInv (s₁.setPc t p) held ∧ RefsInv (s₁.setPc t p) held lost := by
  obtain ⟨hno, hmp⟩ := hi.users.slot_notUsed hfree
  have hself : s₁.files file = { s.files file with fStatus := .initing } := by
    rw [hs₁, setFile_self]
  have hother : ∀ j, j ≠ file → s₁.files j = s.files j := fun j hj => by
    rw [hs₁, setFile_of_ne hj]
  constructor
  · refine hi.users.setSlot hmps hdirs hnext (fun u hu => (setPc_of_ne hu).trans (congrFun hpcs u))
      (fun j hj => ?_) hfile (fun u _ => hi.users.no_user_of_free hfree u) ?_ ?_ (fun j hj => ?_) ?_ ?_
    · unfold SameFile
      rw [setPc_files, hother j hj]
      exact ⟨rfl, rfl, rfl⟩
    · rw [setPc_self]
      exact hright hno (by rw [hself])
    · unfold SlotRight
      rw [setPc_files, hself]
      exact ⟨hno, t, by rw [setPc_self]; exact hslot⟩
    · rw [setPc_self, hslot, hpc]
      exact iff_of_false (fun h => hj (Option.some.inj h).symm) fun h => by cases h
    · rw [setPc_self]
      exact hdir
    · intro n hn
      rw [setPc_files, hself] at hn
      change (s.files file).fMp = some n at hn
      rw [hmp] at hn
      cases hn
  · refine hi.refs.congr hmps hrefs hdirs hnext fun j _ => ⟨rfl, fun hj => ?_⟩
    rw [setPc_files, hother j fun h => by
      rw [h, hno] at hj
      cases hj]

theorem VfsInv.callbackOffset {a : Access} {offset : Int} (hi : VfsInv s held lost) :
    VfsInv (callbackOffset s offset a) held lost := by
  have hset : ∀ file, VfsInv (s.setFile file { s.files file with fOffset := offset }) held lost := by
    intro file
    have hfile : ∀ j, ((s.setFile file { s.files file with fOffset := offset }).files j).fStatus =
        (s.files j).fStatus ∧ ((s.setFile file { s.files file with fOffset := offset }).files j).fMp =
          (s.files j).fMp := by
      intro j
      by_cases hj : j = file
      · rw [hj, setFile_self]
        exact ⟨rfl, rfl⟩
      · rw [setFile_of_ne hj]
        exact ⟨rfl, rfl⟩
    refine ⟨hi.locks.setFile fun n h => h, { hi.mounts with }, ?_, hi.refs.congr rfl (fun _ => rfl) rfl rfl
      fun j _ => ⟨rfl, fun _ => (hfile j).2⟩⟩
    refine ⟨fun u => ?_, fun j => ?_, hi.users.unique, hi.users.dirAlone, fun j m hm => ?_,
      hi.users.dirMounted, fun j hj => (hfile j).1.trans (hi.users.high j hj)⟩
    · exact (hi.users.tasks u).congr (fun n _ hn => hn) (fun j _ => ⟨(hfile j).1, (hfile j).2, rfl⟩)
        fun d _ hlt _ => ⟨hlt, rfl⟩
    · exact (hi.users.slots j).congr ⟨(hfile j).1, (hfile j).2, rfl⟩ fun u hu => ⟨u, hu⟩
    · exact hi.users.fileMounted j m ((hfile j).2.symm.trans hm)
  cases a with
  | «open» file flags => exact hset file
  | file op file => exact hset file
  | _ => exact hi

theorem VfsInv.mount {path : List Char} {f h : Nat} (hi : VfsInv s held lost)
    (hlocks : LockInv ((addMountPoint s f path h).leaves t 0).1) (hslot : slotOf (s.pc t) = none)
    (hnew : (s.mux h).muxStat = false) (hbound : h < 2 ^ 32) :
    VfsInv ((addMountPoint s f path h).leaves t 0).1 held (Function.update lost s.mpNext 0) := by
  have hmem : ∀ n, n ∈ s.mountPoints → n ∈ s.mpNext :: s.mountPoints := fun n hn =>
    List.mem_cons_of_mem _ hn
  refine ⟨hlocks, hi.mounts.mount hi.locks hnew hbound, ?_, ⟨fun n hn => ?_, fun n hn => ?_, hi.refs.dirs⟩⟩
  · refine hi.users.step (t := t) (fun u hu => leaves_of_ne hu) ?_ (fun u _ => ?_) (fun j => ?_) ?_ ?_
      (fun j n hn => hmem n (hi.users.fileMounted j n hn))
      (fun d hd hlive => hmem _ (hi.users.dirMounted d hd hlive)) hi.users.high
    · rw [leaves_self]
      trivial
    · exact (hi.users.tasks u).congr (fun n _ hn => hmem n hn) (fun j _ => ⟨rfl, rfl, rfl⟩)
        fun d _ hlt _ => ⟨hlt, rfl⟩
    · refine (hi.users.slots j).congr ⟨rfl, rfl, rfl⟩ fun u hj => ⟨u, ?_⟩
      by_cases hut : u = t
      · rw [hut, hslot] at hj
        cases hj
      · exact (congrArg slotOf (leaves_of_ne hut)).trans hj
    · intro u j _ hj
      rw [leaves_self] at hj
      cases hj
    · intro u d _ hd
      rw [leaves_self] at hd
      cases hd
  · show ((addMountPoint s f path h).mp n).mRefs =
      openFiles s held n + openDirs s n + Function.update lost s.mpNext 0 n
    obtain rfl | hold := List.mem_cons.mp hn
    · have hfiles : openFiles s held s.mpNext = 0 := countBelow_zero fun j _ => by
        rw [decide_eq_false fun hj => Nat.lt_irrefl _ (hi.locks.files j _ hj), Bool.and_false]
      have hdirs : openDirs s s.mpNext = 0 := countBelow_zero fun d hd => by
        rw [decide_eq_false fun h => Nat.lt_irrefl s.mpNext (by
          have := hi.locks.dirs d hd
          omega), Bool.and_false]
      rw [addMountPoint_self, Function.update_self, hfiles, hdirs]
    · have hne : n ≠ s.mpNext := fun h => by
        have := hi.locks.mounted n hold
        omega
      rw [addMountPoint_mp hne, Function.update_of_ne hne]
      exact hi.refs.refs n hold
  · show ((addMountPoint s f path h).mp n).mRefs < 2 ^ 32
    obtain rfl | hold := List.mem_cons.mp hn
    · rw [addMountPoint_self]
      exact Nat.two_pow_pos 32
    · have hne : n ≠ s.mpNext := fun h => by
        have := hi.locks.mounted n hold
        omega
      rw [addMountPoint_mp hne]
      exact hi.refs.small n hold

/-- A mount point without references, whose mutex is free, has no user but one that has `fs_mutex`. -/
theorem VfsInv.unused (hi : VfsInv s held lost) (hm : m ∈ s.mountPoints) (hrefs : (s.mp m).mRefs = 0)
    (hhas : HasFs s t) (hfree : s.holder m = none) (hut : u ≠ t) :
    mountOf (s.pc u) ≠ some m := by
  intro hmu
  have hright := hi.users.tasks u
  have hlock := hi.locks.tasks u
  have hfs : ¬ HasFs s u := fun h => hut (h.unique hhas)
  have hhold : s.holder m ≠ some u := by
    rw [hfree]
    exact fun h => by cases h
  cases hpc : s.pc u with
  | wait a n =>
    rw [hpc] at hmu hright hlock
    cases hmu
    have hnodir : ∀ d, d < s.dirNext → (s.dir d).dMp = m → (s.dir d).live = true → False := by
      intro d hd hmp hlive
      have hpos : 0 < openDirs s m := countBelow_pos hd (by rw [hlive, hmp, decide_eq_true rfl]; rfl)
      have href := hi.refs.refs m hm
      omega
    cases a with
    | readdir d => exact hnodir d hright.2.1.1 hright.2.1.2.1 hright.2.1.2.2
    | closedir d => exact hnodir d hright.2.1.1 hright.2.1.2.1 hright.2.1.2.2
    | _ => exact hfs (.inl (hlock.2 rfl))
  | inside a n =>
    rw [hpc] at hmu hlock
    cases hmu
    exact hhold hlock.2
  | callback a n =>
    rw [hpc] at hmu hlock
    cases hmu
    exact hhold hlock.2
  | after a n ret =>
    rw [hpc] at hmu hlock
    cases hmu
    exact hhold hlock.2
  | pathInside op n =>
    rw [hpc] at hlock
    exact hfs hlock.2
  | pathCallback op n =>
    rw [hpc] at hlock
    exact hfs hlock.2
  | _ =>
    rw [hpc] at hmu
    cases hmu

theorem VfsInv.unmount (hi : VfsInv s held lost)
    (hlocks : LockInv ((removeMountPoint s m).leaves t 0).1) (hslot : slotOf (s.pc t) = none)
    (hhas : HasFs s t) (hm : m ∈ s.mountPoints) (hrefs : (s.mp m).mRefs = 0)
    (hfree : s.holder m = none) (hslots : ∀ i < losMaxFiles, (s.files i).fMp ≠ some m) :
    VfsInv ((removeMountPoint s m).leaves t 0).1 held lost := by
  have hmem : ∀ n, n ≠ m → n ∈ s.mountPoints → n ∈ s.mountPoints.erase m := fun n hne hn =>
    (hi.mounts.nodup.mem_erase_iff).mpr ⟨hne, hn⟩
  have hold : ∀ n, n ∈ s.mountPoints.erase m → n ∈ s.mountPoints := fun n => List.mem_of_mem_erase
  refine ⟨hlocks, hi.mounts.unmount hi.locks hm hfree, ?_, ⟨fun n hn => hi.refs.refs n (hold n hn),
    fun n hn => hi.refs.small n (hold n hn), hi.refs.dirs⟩⟩
  refine hi.users.step (t := t) (fun u hu => leaves_of_ne hu) ?_ (fun u hu => ?_) (fun j => ?_) ?_ ?_
    (fun j n hn => hmem n ?_ (hi.users.fileMounted j n hn))
    (fun d hd hlive => hmem _ ?_ (hi.users.dirMounted d hd hlive)) hi.users.high
  · rw [leaves_self]
    trivial
  · refine (hi.users.tasks u).congr (fun n hpc hn => hmem n ?_ hn) (fun j _ => ⟨rfl, rfl, rfl⟩)
      fun d _ hlt _ => ⟨hlt, rfl⟩
    rintro rfl
    exact hi.unused hm hrefs hhas hfree hu hpc
  · refine (hi.users.slots j).congr ⟨rfl, rfl, rfl⟩ fun u hj => ⟨u, ?_⟩
    by_cases hut : u = t
    · rw [hut, hslot] at hj
      cases hj
    · exact (congrArg slotOf (leaves_of_ne hut)).trans hj
  · intro u j _ hj
    rw [leaves_self] at hj
    cases hj
  · intro u d _ hd
    rw [leaves_self] at hd
    cases hd
  · rintro rfl
    by_cases hj : j < losMaxFiles
    · exact hslots j hj hn
    · have hnone := (hi.users.slot_notUsed (hi.users.high j (by omega))).2
      exact absurd (hnone.symm.trans hn) fun h => by cases h
  · intro heq
    change (s.dir d).live = true at hlive
    change (s.dir d).dMp = m at heq
    have hpos : 0 < openDirs s m := countBelow_pos hd (by rw [hlive, heq, decide_eq_true rfl]; rfl)
    have href := hi.refs.refs m hm
    omega

theorem VfsInv.starts {a : Access} (hi : VfsInv s held lost)
    (hlocks : LockInv ((losOpenFields s t a m).setPc t (.callback a m))) (hpc : s.pc t = .inside a m) :
    VfsInv ((losOpenFields s t a m).setPc t (.callback a m)) held lost := by
  have hright := hi.users.tasks t
  rw [hpc] at hright
  by_cases hopen : ∃ i flags, a = .open i flags
  · obtain ⟨i, flags, rfl⟩ := hopen
    have hstat : (s.files i).fStatus = .initing := hright.2
    have hno := hi.users.slot_initing hstat
    have hlow : i < losMaxFiles := by
      by_contra h
      rw [hi.users.high i (by omega)] at hstat
      cases hstat
    have hself : ((losOpenFields s t (.open i flags) m).files i).fStatus = .initing ∧
        ((losOpenFields s t (.open i flags) m).files i).fMp = some m := by
      rw [show (losOpenFields s t (.open i flags) m).files i = _ from setFile_self]
      exact ⟨hstat, rfl⟩
    have hother : ∀ j, j ≠ i → (losOpenFields s t (.open i flags) m).files j = s.files j :=
      fun j hj => setFile_of_ne hj
    refine ⟨hlocks, (hi.mounts.inert inert_losOpenFields).setPc, ?_, hi.refs.congr rfl (fun _ => rfl) rfl rfl
      fun j _ => ⟨rfl, fun hj => ?_⟩⟩
    · refine hi.users.setSlot rfl rfl rfl (fun u hu => setPc_of_ne hu) (fun j hj => ?_) hlow
        (fun u hu => hi.users.no_user_of_slot (by rw [hpc]; rfl) hno hu) ?_ ?_ (fun j hj => ?_) ?_ ?_
      · unfold SameFile
        rw [setPc_files, hother j hj]
        exact ⟨rfl, rfl, rfl⟩
      · rw [setPc_self]
        exact ⟨hright.1, hself.1, fun j fl h => by cases h; exact hself.2⟩
      · unfold SlotRight
        rw [setPc_files, hself.1]
        exact ⟨hno, t, by rw [setPc_self]; rfl⟩
      · rw [setPc_self, hpc]
        rfl
      · rw [setPc_self]
        rfl
      · intro n hn
        rw [setPc_files, hself.2] at hn
        cases hn
        exact hright.1
    · rw [setPc_files, hother j fun h => by
        rw [h, hno] at hj
        cases hj]
  · have hsame : losOpenFields s t a m = s := by
      cases a with
      | «open» i flags => exact absurd ⟨i, flags, rfl⟩ hopen
      | _ => rfl
    rw [hsame] at hlocks ⊢
    refine hi.move hlocks hi.mounts.setPc rfl rfl rfl rfl (fun _ => rfl) (fun u hu => setPc_of_ne hu) ?_ ?_
      fun d h => ?_
    · rw [setPc_self]
      exact ⟨hright.1, hright.2, fun i flags h => absurd ⟨i, flags, h⟩ hopen⟩
    · rw [setPc_self, hpc]
      rfl
    · rw [setPc_self] at h ⊢
      rw [hpc]
      exact ⟨h, rfl⟩

theorem VfsInv.puts {ret : Int} (hi : VfsInv s held lost)
    (hlocks : LockInv ((losFilePut s i).setPc t .idle)) (hpc : s.pc t = .put i ret) :
    VfsInv ((losFilePut s i).setPc t .idle) held lost := by
  have hright := hi.users.tasks t
  rw [hpc] at hright
  obtain ⟨hno, hstat⟩ := hright
  have hlow : i < losMaxFiles := by
    by_contra h
    rw [hi.users.high i (by omega)] at hstat
    obtain h | h := hstat <;> cases h
  have hself : ((losFilePut s i).files i).fStatus = .notUsed ∧ ((losFilePut s i).files i).fMp = none := by
    rw [show (losFilePut s i).files i = _ from setFile_self]
    exact ⟨rfl, rfl⟩
  have hother : ∀ j, j ≠ i → (losFilePut s i).files j = s.files j := fun j hj => setFile_of_ne hj
  refine ⟨hlocks, { hi.mounts with }, ?_, hi.refs.congr rfl (fun _ => rfl) rfl rfl
    fun j _ => ⟨rfl, fun hj => ?_⟩⟩
  · refine hi.users.setSlot rfl rfl rfl (fun u hu => setPc_of_ne hu) (fun j hj => ?_) hlow
      (fun u hu => hi.users.no_user_of_slot (by rw [hpc]; rfl) hno hu) ?_ ?_ (fun j hj => ?_) ?_ ?_
    · unfold SameFile
      rw [setPc_files, hother j hj]
      exact ⟨rfl, rfl, rfl⟩
    · rw [setPc_self]
      trivial
    · unfold SlotRight
      rw [setPc_files, hself.1]
      exact ⟨hno, hself.2⟩
    · rw [setPc_self, hpc]
      exact iff_of_false (fun h => by cases h) fun h => hj (Option.some.inj h).symm
    · rw [setPc_self]
      rfl
    · intro n hn
      rw [setPc_files, hself.2] at hn
      cases hn
  · rw [setPc_files, hother j fun h => by
      rw [h, hno] at hj
      cases hj]

/-- A task that has `fs_mutex` closes a slot. The others that work on the slot are past `fs_mutex`. -/
theorem VfsInv.attachClose {fd : Nat} (hi : VfsInv s held lost)
    (hlocks : LockInv ((s.setFile fd { s.files fd with fStatus := .closing }).pends t (.file .close fd) m).1)
    (hpc : slotOf (s.pc t) = none) (hown : (s.mux s.fsMutex).owner = some t)
    (hready : (s.files fd).fStatus = .ready) (hmp : (s.files fd).fMp = some m) :
    VfsInv ((s.setFile fd { s.files fd with fStatus := .closing }).pends t (.file .close fd) m).1
      held lost := by
  have hyes := hi.users.slot_ready hready
  have hm := hi.users.fileMounted fd m hmp
  have hnoslot : ∀ u, slotOf (s.pc u) ≠ some fd := by
    intro u hu
    obtain hst | hst := (hi.users.tasks u).slot_status hu
    · rw [hready] at hst
      cases hst
    · rw [hready] at hst
      cases hst
  have hself : (s.setFile fd { s.files fd with fStatus := .closing }).files fd =
      { s.files fd with fStatus := .closing } := setFile_self
  have hother : ∀ j, j ≠ fd → (s.setFile fd { s.files fd with fStatus := .closing }).files j = s.files j :=
    fun j hj => setFile_of_ne hj
  have hfMp : ∀ j, ((s.setFile fd { s.files fd with fStatus := .closing }).files j).fMp =
      (s.files j).fMp := by
    intro j
    by_cases hj : j = fd
    · rw [hj, hself]
    · rw [hother j hj]
  have hmounts : MountInv (s.setFile fd { s.files fd with fStatus := .closing }) := { hi.mounts with }
  refine ⟨hlocks, hmounts.pend, ?_, hi.refs.congr rfl (fun _ => rfl) rfl rfl fun j _ =>
    ⟨rfl, fun _ => hfMp j⟩⟩
  have hlow : fd < losMaxFiles := by
    by_contra h
    rw [hi.users.high fd (by omega)] at hready
    cases hready
  refine hi.users.step (t := t) (fun u hu => pends_of_ne hu) ?_ (fun u hu => ?_) (fun j => ?_) ?_ ?_ ?_
    hi.users.dirMounted ?_
  · rw [pends_self]
    exact ⟨hm, ⟨by rw [pends_files, hself], (hfMp fd).trans hmp, hyes⟩,
      fun op i h hop => by cases h; exact absurd rfl hop⟩
  · -- only a call that still has `fs_mutex` needs the slot to be ready
    have hright := hi.users.tasks u
    have hlock := hi.locks.tasks u
    by_cases hfile : fileOf (s.pc u) = some fd
    · have hnot := hnoslot u
      cases hpcu : s.pc u with
      | wait a n =>
        rw [hpcu] at hfile hnot hlock
        cases a with
        | «open» j flags => exact absurd hfile hnot
        | file op j =>
          have howner := hlock.2 rfl
          rw [hown] at howner
          exact absurd (Option.some.inj howner).symm hu
        | _ => cases hfile
      | inside a n =>
        rw [hpcu] at hfile hnot hright
        cases a with
        | «open» j flags => exact absurd hfile hnot
        | file op j =>
          cases hfile
          cases op with
          | close => exact absurd rfl hnot
          | _ => exact ⟨hright.1, (hfMp fd).trans hright.2.1, hright.2.2⟩
        | _ => cases hfile
      | callback a n =>
        rw [hpcu] at hfile hnot hright
        cases a with
        | «open» j flags => exact absurd hfile hnot
        | file op j =>
          cases hfile
          cases op with
          | close => exact absurd rfl hnot
          | _ => exact ⟨hright.1, ⟨(hfMp fd).trans hright.2.1.1, hright.2.1.2⟩, fun i flags h => by cases h⟩
        | _ => cases hfile
      | after a n ret =>
        rw [hpcu] at hfile hnot hright
        cases a with
        | «open» j flags =>
          rw [fileOf] at hfile
          split at hfile
          · rename_i hret
            cases hfile
            obtain ⟨heq, h1, h2⟩ := hright.2 hret
            exact ⟨hright.1, fun _ => ⟨heq, (hfMp fd).trans h1, h2⟩⟩
          · cases hfile
        | file op j =>
          cases hfile
          cases op with
          | close => exact absurd rfl hnot
          | _ => exact ⟨hright.1, (hfMp fd).trans hright.2.1, hright.2.2⟩
        | _ => cases hfile
      | put j ret =>
        rw [hpcu] at hfile hnot
        exact absurd hfile hnot
      | _ =>
        rw [hpcu] at hfile
        cases hfile
    · refine hright.congr (fun n _ hn => hn) (fun j hj => ?_) fun d _ hlt _ => ⟨hlt, rfl⟩
      unfold SameFile
      rw [pends_files, hother j fun h => hfile (h ▸ hj)]
      exact ⟨rfl, rfl, rfl⟩
  · by_cases hj : j = fd
    · subst hj
      unfold SlotRight
      rw [pends_files, hself]
      exact ⟨⟨m, hmp⟩, t, by rw [pends_self]; rfl⟩
    · refine (hi.users.slots j).congr ?_ fun u hu => ⟨u, ?_⟩
      · unfold SameFile
        rw [pends_files, hother j hj]
        exact ⟨rfl, rfl, rfl⟩
      · by_cases hut : u = t
        · rw [hut, hpc] at hu
          cases hu
        · exact (congrArg slotOf (pends_of_ne hut)).trans hu
  · intro u j _ ht hu
    rw [pends_self] at ht
    cases ht
    exact hnoslot u hu
  · intro u d _ ht
    rw [pends_self] at ht
    cases ht
  · intro j n hn
    exact hi.users.fileMounted j n ((hfMp j).symm.trans hn)
  · intro j hj
    rw [pends_files, hother j (by omega)]
    exact hi.users.high j hj

theorem Move.vfsInv (hmove : Move s event s') (hi : VfsInv s held lost) (hturn : Turn s event)
    (hu : UnmountsFree s event) (hd : DirUse s event) (hr : RefsFit s event) :
    ∃ held' lost', VfsInv s' held' lost' ∧
      (ClosesOk s event → (∀ n, lost n = 0) → ∀ n, lost' n = 0) := by
  have hlocks := hmove.lockInv hi.locks hturn
  have hkeep : ∀ {s' : VfsState}, VfsInv s' held lost → ∃ held' lost', VfsInv s' held' lost' ∧
      (ClosesOk s event → (∀ n, lost n = 0) → ∀ n, lost' n = 0) := fun h =>
    ⟨held, lost, h, fun _ h0 => h0⟩
  have hgoes : ∀ {t : Nat} {p : Pc} {s₁ : VfsState}, LockInv (s₁.setPc t p) → MountInv (s₁.setPc t p) →
      s₁.files = s.files → s₁.mountPoints = s.mountPoints → s₁.dir = s.dir → s₁.dirNext = s.dirNext →
      s₁.mp = s.mp → s₁.pc = s.pc → slotOf (s.pc t) = none → slotOf p = none → dirOf p = none →
      UserRight s held p → VfsInv (s₁.setPc t p) held lost := by
    intro t p s₁ hl hm hfiles hmps hdirs hnext hmp hpcs hslot hp hdir hright
    refine hi.move (t := t) hl hm hfiles hmps hdirs hnext (fun n => congrArg MountPoint.mRefs (congrFun hmp n))
      (fun u hu => (setPc_of_ne hu).trans (congrFun hpcs u)) ?_ ?_ fun d h => ?_
    · rw [setPc_self]
      exact hright
    · rw [setPc_self, hslot, hp]
    · rw [setPc_self, hdir] at h
      cases h
  cases hmove with
  | stay => exact hkeep hi
  | @enter t c r hpc =>
    exact hkeep (hgoes hlocks hi.mounts.pend rfl rfl rfl rfl rfl rfl (by rw [hpc]; rfl) rfl rfl trivial)
  | @unheld t c r hpc hno =>
    exact hkeep (hgoes hlocks hi.mounts.setPc rfl rfl rfl rfl rfl rfl (by rw [hpc]; rfl) rfl rfl trivial)
  | @spins t c op fd hpc =>
    exact hkeep (hgoes hlocks hi.mounts.setPc rfl rfl rfl rfl rfl rfl (by rw [hpc]; rfl) rfl rfl trivial)
  | @tries t got op fd hpc =>
    exact hkeep (hgoes hlocks hi.mounts.pend rfl rfl rfl rfl rfl rfl (by rw [hpc]; rfl) rfl rfl trivial)
  | locks hpc => exact hkeep ⟨hlocks, { hi.mounts with }, { hi.users with }, { hi.refs with }⟩
  | unlocks hpc => exact hkeep ⟨hlocks, { hi.mounts with }, { hi.users with }, { hi.refs with }⟩
  | @direct t d c a ret hpc hc ha hdn hstat =>
    obtain ⟨hlive, hfree⟩ := hd a d ret hc
    have hm := hi.users.dirMounted d hdn hlive
    have hidx : a.dirIndex = some d := by obtain rfl | rfl := ha <;> rfl
    have hslot : a.slot = none := by obtain rfl | rfl := ha <;> rfl
    refine hkeep ⟨hlocks, hi.mounts.pend, ?_, hi.refs.congr rfl (fun _ => rfl) rfl rfl fun _ _ =>
      ⟨rfl, fun _ => rfl⟩⟩
    refine hi.users.step (t := t) (fun u hu => pends_of_ne hu) ?_ (fun u _ => ?_) (fun j => ?_) ?_ ?_
      hi.users.fileMounted hi.users.dirMounted hi.users.high
    · rw [pends_self]
      obtain rfl | rfl := ha
      · exact ⟨hm, ⟨hdn, rfl, hlive⟩, fun op i h => by cases h⟩
      · exact ⟨hm, ⟨hdn, rfl, hlive⟩, fun op i h => by cases h⟩
    · exact (hi.users.tasks u).congr (fun n _ hn => hn) (fun j _ => ⟨rfl, rfl, rfl⟩)
        fun k _ hlt _ => ⟨hlt, rfl⟩
    · refine (hi.users.slots j).congr ⟨rfl, rfl, rfl⟩ fun u hj => ⟨u, ?_⟩
      by_cases hut : u = t
      · rw [hut, hpc] at hj
        cases hj
      · exact (congrArg slotOf (pends_of_ne hut)).trans hj
    · intro u j _ h
      rw [pends_self] at h
      change a.slot = some j at h
      rw [hslot] at h
      cases h
    · intro u k _ h hk
      rw [pends_self] at h ⊢
      change a.dirIndex = some k at h
      rw [hidx] at h
      cases h
      exact hfree u hk
  | @leave t got r fsl hin =>
    have hmounts : MountInv { s with fileSystems := fsl } := { hi.mounts with }
    exact hkeep (hi.rest hlocks hmounts.post rfl rfl rfl rfl (fun _ => rfl)
      (fun u hu => setPc_of_ne hu) setPc_self hin.slotOf)
  | @openFails t file got r hpc hown hfile hfree =>
    have hmounts : MountInv (s.setFile file { s.files file with fStatus := .initing }) :=
      { hi.mounts with }
    let s₁ := losMuxPost (s.setFile file { s.files file with fStatus := .initing }) s.fsMutex t
    have hparts : UserInv (s₁.setPc t (.put file (-1))) held ∧
        RefsInv (s₁.setPc t (.put file (-1))) held lost :=
      hi.getFile (by rw [hpc]; rfl) hfile hfree rfl rfl rfl rfl (fun _ => rfl) rfl rfl rfl
        fun hno hst => ⟨hno, Or.inl hst⟩
    obtain ⟨h1, h2⟩ := hparts
    exact hkeep ⟨hlocks, hmounts.post, h1, h2⟩
  | @openPends t file flags m got r hpc hown hfile hfree hm hstat =>
    have hmounts : MountInv (s.setFile file { s.files file with fStatus := .initing }) :=
      { hi.mounts with }
    let s₁ := losMuxPend (s.setFile file { s.files file with fStatus := .initing }) (s.mp m).mMutex t
    have hparts : UserInv (s₁.setPc t (.wait (.open file flags) m)) held ∧
        RefsInv (s₁.setPc t (.wait (.open file flags) m)) held lost :=
      hi.getFile (by rw [hpc]; rfl) hfile hfree rfl rfl rfl rfl (fun _ => rfl) rfl rfl rfl
        fun _ hst => ⟨hm, hst, fun op i h => by cases h⟩
    obtain ⟨h1, h2⟩ := hparts
    exact hkeep ⟨hlocks, hmounts.pend, h1, h2⟩
  | @attach t fd m got r op hpc hown hready hmp hstat =>
    split at hlocks
    · rename_i hop
      subst hop
      rw [if_pos rfl]
      exact hkeep (hi.attachClose hlocks (by rw [hpc]; rfl) (owns_iff.mp hown) hready hmp)
    · rename_i hop
      rw [if_neg hop]
      refine hkeep (hi.move hlocks hi.mounts.pend rfl rfl rfl rfl (fun _ => rfl)
        (fun u hu => pends_of_ne hu) ?_ ?_ fun d h => ?_)
      · rw [pends_self]
        refine ⟨hi.users.fileMounted fd m hmp, ?_, fun op' i h _ => by cases h; exact hready⟩
        have hyes := hi.users.slot_ready hready
        cases op with
        | close => exact absurd rfl hop
        | _ => exact ⟨hmp, hyes⟩
      · rw [pends_self, hpc]
        cases op with
        | close => exact absurd rfl hop
        | _ => rfl
      · rw [pends_self] at h
        cases h
  | path hin hm =>
    exact hkeep (hgoes hlocks hi.mounts.setPc rfl rfl rfl rfl rfl rfl hin.slotOf rfl rfl hm)
  | @dirPends t m got r a hpc hown ha hm hstat =>
    refine hkeep (hi.move hlocks hi.mounts.pend rfl rfl rfl rfl (fun _ => rfl)
      (fun u hu => pends_of_ne hu) ?_ ?_ fun d h => ?_)
    · rw [pends_self]
      obtain rfl | rfl := ha
      · exact ⟨hm, trivial, fun op i h => by cases h⟩
      · exact ⟨hm, trivial, fun op i h => by cases h⟩
    · rw [pends_self, hpc]
      obtain rfl | rfl := ha <;> rfl
    · rw [pends_self] at h
      obtain rfl | rfl := ha <;> cases h
  | @mount t f h fsname path hin hfs hfind hbound hnew =>
    refine ⟨held, _, hi.mount hlocks hin.slotOf hnew hbound, fun _ h0 n => ?_⟩
    by_cases hn : n = s.mpNext
    · rw [hn, Function.update_self]
    · rw [Function.update_of_ne hn]
      exact h0 n
  | @unmount t m got path hin hm =>
    obtain ⟨hfree, hslots⟩ := hu path m hin hm
    obtain ⟨hmem, hrefs⟩ := losFsUnmounts_eq hm
    exact hkeep (hi.unmount hlocks hin.slotOf (hi.locks.hasFs hturn hin) hmem hrefs hfree hslots)
  | @granted t m got a hpc hown =>
    have hright := hi.users.tasks t
    rw [hpc] at hright
    split at hlocks
    · rename_i hunder
      rw [if_pos hunder]
      refine hkeep (hi.move hlocks hi.mounts.post rfl rfl rfl rfl (fun _ => rfl)
        (fun u hu => setPc_of_ne hu) ?_ ?_ fun d h => ?_)
      · rw [setPc_self]
        exact ⟨hright.1, hright.2.1⟩
      · rw [setPc_self, hpc]
        rfl
      · rw [setPc_self] at h ⊢
        rw [hpc]
        exact ⟨h, rfl⟩
    · rename_i hunder
      rw [if_neg hunder]
      refine hkeep (hi.move hlocks hi.mounts.setPc rfl rfl rfl rfl (fun _ => rfl)
        (fun u hu => setPc_of_ne hu) ?_ ?_ fun d h => ?_)
      · rw [setPc_self]
        exact ⟨hright.1, hright.2.1⟩
      · rw [setPc_self, hpc]
        rfl
      · rw [setPc_self] at h ⊢
        rw [hpc]
        exact ⟨h, rfl⟩
  | @starts t m got a hpc => exact hkeep (hi.starts hlocks hpc)
  | @skips t m got a s₁ ret hpc hno hfin =>
    have hright := hi.users.tasks t
    have hlock := hi.locks.tasks t
    rw [hpc] at hright hlock
    have hf : Finishing s held t a m :=
      ⟨hright.1, hright.2, fun i flags h => (by subst h; cases hno), by rw [hpc]; rfl, by rw [hpc]; rfl,
        by rw [hpc]; rfl, hlock.2⟩
    obtain ⟨held', lost', h1, h2, h3⟩ := hi.finish hf hfin fun hret hopen => by
      cases a with
      | «open» i flags => cases hno
      | opendir => cases hret
      | _ => cases hopen
    have hin := inert_losFinish hfin
    refine ⟨held', lost', ⟨hlocks, (hi.mounts.inert hin).setPc, h1, h2⟩, fun hok h0 => ?_⟩
    rw [h3 fun i ha => by
      subst ha
      rw [hok i m hpc] at hno
      cases hno]
    exact h0
  | @ends t m a s₁ ret r offset hpc hfin =>
    have hi' : VfsInv (callbackOffset s offset a) held lost := hi.callbackOffset
    have hpc' : (callbackOffset s offset a).pc = s.pc := by cases a <;> rfl
    have hmp' : (callbackOffset s offset a).mp = s.mp := by cases a <;> rfl
    have hright := hi'.users.tasks t
    have hlock := hi'.locks.tasks t
    rw [hpc', hpc] at hright hlock
    have hf : Finishing (callbackOffset s offset a) held t a m :=
      ⟨hright.1, hright.2.1, hright.2.2, by rw [hpc', hpc]; rfl, by rw [hpc', hpc]; rfl,
        by rw [hpc', hpc]; rfl, hlock.2⟩
    obtain ⟨held', lost', h1, h2, h3⟩ := hi'.finish hf hfin fun hret hopen => by
      rw [hmp']
      exact hr hret a m hpc hopen
    have hin := inert_losFinish hfin
    refine ⟨held', lost', ⟨hlocks, (hi'.mounts.inert hin).setPc, h1, h2⟩, fun hok h0 => ?_⟩
    rw [h3 fun i ha => by
      subst ha
      exact hok i m hpc]
    exact h0
  | @posts t m n got a ret hpc hposted ha =>
    exact hkeep (hi.rest hlocks hi.mounts.post rfl rfl rfl rfl (fun _ => rfl)
      (fun u hu => setPc_of_ne hu) setPc_self (by rw [hpc]; exact after_slot ha))
  | @closes t m n i got ret hpc hmp =>
    have hright := hi.users.tasks t
    rw [hpc] at hright
    refine hkeep (hi.move hlocks hi.mounts.post rfl rfl rfl rfl (fun _ => rfl)
      (fun u hu => setPc_of_ne hu) ?_ ?_ fun d h => ?_)
    · rw [setPc_self]
      exact ⟨hright.2.2.2, Or.inr hright.2.1⟩
    · rw [setPc_self, hpc]
      rfl
    · rw [setPc_self] at h
      cases h
  | @puts t i got ret hpc => exact hkeep (hi.puts hlocks hpc)
  | @pathStarts t m got op hpc =>
    have hright := hi.users.tasks t
    rw [hpc] at hright
    refine hkeep (hi.move hlocks hi.mounts.setPc rfl rfl rfl rfl (fun _ => rfl)
      (fun u hu => setPc_of_ne hu) ?_ ?_ fun d h => ?_)
    · rw [setPc_self]
      exact hright
    · rw [setPc_self, hpc]
      rfl
    · rw [setPc_self] at h
      cases h
  | @pathEnds t m op ret offset hpc =>
    refine hkeep (hi.move hlocks hi.mounts.setPc rfl rfl rfl rfl (fun _ => rfl)
      (fun u hu => setPc_of_ne hu) ?_ ?_ fun d h => ?_)
    · rw [setPc_self]
      trivial
    · rw [setPc_self, hpc]
      rfl
    · rw [setPc_self] at h
      cases h
  | @pathLeaves t got ret hpc =>
    exact hkeep (hi.rest hlocks hi.mounts.post rfl rfl rfl rfl (fun _ => rfl)
      (fun u hu => setPc_of_ne hu) setPc_self (by rw [hpc]; rfl))

theorem vfsBooted_inv (hb : VfsBooted s) : VfsInv s (fun _ => false) (fun _ => 0) where
  locks := vfsBooted_lockInv hb
  mounts :=
    { nodup := by rw [hb.mountPoints]; exact List.nodup_nil
      stat := fun m hm => by rw [hb.mountPoints] at hm; cases hm
      bound := fun m hm => by rw [hb.mountPoints] at hm; cases hm
      fsBound := hb.bound
      inj := fun m hm => by rw [hb.mountPoints] at hm; cases hm
      used := fun h hh => by
        by_cases hfs : h = s.fsMutex
        · exact Or.inl hfs
        · rw [hb.mux h hfs] at hh
          cases hh
      calm := fun h _ => by
        by_cases hfs : h = s.fsMutex
        · rw [hfs, hb.fsMutex]
        · rw [hb.mux h hfs]
      fsRefs := fun f => by
        rw [hb.fsRefs, hb.mountPoints]
        rfl }
  users :=
    { tasks := fun t => by rw [hb.pc t]; trivial
      slots := fun i => by
        unfold SlotRight
        rw [(hb.files i).1]
        exact ⟨rfl, (hb.files i).2⟩
      unique := fun t u i ht => by rw [hb.pc t] at ht; cases ht
      dirAlone := fun t u d ht => by rw [hb.pc t] at ht; cases ht
      fileMounted := fun i m hm => by rw [(hb.files i).2] at hm; cases hm
      dirMounted := fun d hd => by rw [hb.dirNext] at hd; omega
      high := fun i _ => (hb.files i).1 }
  refs :=
    { refs := fun m hm => by rw [hb.mountPoints] at hm; cases hm
      small := fun m hm => by rw [hb.mountPoints] at hm; cases hm
      dirs := by
        show countBelow s.dirNext _ < 2 ^ 30
        rw [hb.dirNext]
        exact Nat.two_pow_pos 30 }

/-- What keeps the mount points alive. -/
def Unhurried (s : VfsState) (event : VfsEvent) : Prop :=
  UnmountsFree s event ∧ DirUse s event ∧ RefsFit s event

/-- No mount point is freed while it is in use, and none leaves its mutex behind. -/
theorem losFsUnmount_safe {s₀ : VfsState} {events : List VfsEvent} (hb : VfsBooted s₀)
    (hrun : Run (VfsStep Unhurried) s₀ events s) : MountSafe s := by
  obtain ⟨held, lost, hi⟩ : ∃ held lost, VfsInv s held lost := by
    refine run_invariant (fun s => ∃ held lost, VfsInv s held lost) ?_ hrun ⟨_, _, vfsBooted_inv hb⟩
    rintro s event s' ⟨held, lost, hi⟩ ⟨hfree, ⟨hu, hd, hr⟩, hstep⟩
    have hturn : Turn s event := ⟨vfsNext_runs hstep, hfree⟩
    obtain ⟨held', lost', hi', _⟩ := (vfsNext_move hstep).vfsInv hi hturn hu hd hr
    exact ⟨held', lost', hi'⟩
  exact hi.safe

end

/-- The task `1` opens, reads and closes a file of `/a`, the task `2` opens a directory of `/b`. The
first unmount of `/a` is refused. -/
def smallUnmounted : List VfsEvent :=
  smallMount ++
    [.call 1 (.mount (some "ramfs".toList) (some "/b".toList)), .run 1 (some 2)] ++ smallOpen ++
    [.call 2 (.opendir (some "/b/d".toList) true), .run 2 none, .run 2 none, .run 2 none, .ends 2 0 0,
      .run 2 none, .call 1 (.read 0 true 4), .run 1 none, .run 1 none, .run 1 none,
      .call 2 (.unmount (some "/a".toList)), .run 2 none, .ends 1 4 4, .run 1 none,
      .call 1 (.close 0), .run 1 none, .run 1 none, .run 1 none, .ends 1 0 4, .run 1 none, .run 1 none,
      .call 2 (.unmount (some "/a".toList)), .run 2 none]

/-- What the place of the task shows of `Unhurried`. -/
def unhurriedStep (s : VfsState) : VfsEvent → Bool
  | .call _ c =>
    match c.start s with
    | .direct _ _ _ => false
    | _ => true
  | .run t _ =>
    match s.pc t with
    | .enter (.unmount path) =>
      (losFsUnmounts s path).all fun m =>
        (s.holder m).isNone && (List.range losMaxFiles).all fun i => (s.files i).fMp ≠ some m
    | .unheld _ => false
    | _ => true
  | .ends t _ _ =>
    match s.pc t with
    | .callback _ m => (s.mp m).mRefs + 1 < 2 ^ 32
    | _ => true
  | _ => true

theorem unhurriedStep_unhurried {s : VfsState} {event : VfsEvent} (h : unhurriedStep s event = true) :
    Unhurried s event := by
  cases event with
  | call t c =>
    refine ⟨trivial, fun a d ret hstart => ?_, trivial⟩
    simp only [unhurriedStep, hstart] at h
    cases h
  | run t got =>
    refine ⟨fun path m hin hm => ?_, trivial, trivial⟩
    obtain ⟨hpc, _⟩ | ⟨hpc, _⟩ := hin
    · simp only [unhurriedStep, hpc, hm, Option.all_some, Bool.and_eq_true, List.all_eq_true,
        decide_eq_true_eq, List.mem_range] at h
      exact ⟨Option.isNone_iff_eq_none.mp h.1, h.2⟩
    · simp only [unhurriedStep, hpc] at h
      cases h
  | ends t ret offset =>
    refine ⟨trivial, trivial, fun _ a m hpc _ => ?_⟩
    simpa only [unhurriedStep, hpc, decide_eq_true_eq] using h
  | lock t => exact ⟨trivial, trivial, trivial⟩
  | unlock t => exact ⟨trivial, trivial, trivial⟩

theorem losFsUnmount_safe_small :
    VfsBooted smallVfs ∧ ∀ x ∈ [(24, [1, 0], some 0, true), (35, [1], none, false)],
      ∃ s, Run (VfsStep Unhurried) smallVfs (smallUnmounted.take x.1) s ∧ s.mountPoints = x.2.1 ∧
        mountOf (s.pc 1) = x.2.2.1 ∧ (s.mux 1).muxStat = x.2.2.2 ∧ (s.dir 0).live = true ∧ MountSafe s := by
  refine ⟨smallVfs_booted, fun x hx => ?_⟩
  have hrun : ((smallUnmounted.take x.1).foldlM
      (guarded (fun s event => quietStep s event = true ∧ unhurriedStep s event = true) vfsNext) smallVfs).map
      (fun s => (s.mountPoints, mountOf (s.pc 1), (s.mux 1).muxStat, (s.dir 0).live)) =
        some (x.2.1, x.2.2.1, x.2.2.2, true) := by
    simp only [List.mem_cons, List.not_mem_nil, or_false] at hx
    rcases hx with rfl | rfl <;> decide +kernel
  obtain ⟨s, hs, hval⟩ := Option.map_eq_some_iff.mp hrun
  simp only [Prod.mk.injEq] at hval
  obtain ⟨hmounts, hpc, hstat, hlive⟩ := hval
  have hsteps : Run (VfsStep Unhurried) smallVfs (smallUnmounted.take x.1) s :=
    run_mono (fun _ _ _ h => ⟨quietStep_fsFree h.2.1, unhurriedStep_unhurried h.2.2, h.1⟩)
      (run_of_guarded hs)
  exact ⟨s, hsteps, hmounts, hpc, hstat, hlive, losFsUnmount_safe smallVfs_booted hsteps⟩

/-- The task `2` has found the mount point for its `los_open` when the task `1` unmounts it. -/
def smallUnmount : List VfsEvent :=
  [.call 2 (.open (some "/a/f".toList) 2), .run 2 none, .run 2 none,
    .call 1 (.unmount (some "/a".toList)), .run 1 none]

theorem losFsUnmount_in_use :
    ∃ s, Run (fun s event s' => vfsNext s event = some s') smallVfs (smallMount ++ smallUnmount) s ∧
      mountOf (s.pc 2) = some 0 ∧ s.mountPoints = [] ∧ (s.mux 1).muxStat = true ∧ ¬ MountSafe s := by
  have hrun : ((smallMount ++ smallUnmount).foldlM vfsNext smallVfs).map
      (fun s => (mountOf (s.pc 2), s.mountPoints, (s.mux 1).muxStat)) = some (some 0, [], true) := by
    decide +kernel
  rw [Option.map_eq_some_iff] at hrun
  obtain ⟨s, hs, hval⟩ := hrun
  rw [Prod.mk.injEq, Prod.mk.injEq] at hval
  obtain ⟨hpc, hmounts, hstat⟩ := hval
  refine ⟨s, run_of_foldlM hs, hpc, hmounts, hstat, fun h => ?_⟩
  have hmem := (h.users 2 0 hpc).1
  rw [hmounts] at hmem
  cases hmem

end LiteosM.Vfs
