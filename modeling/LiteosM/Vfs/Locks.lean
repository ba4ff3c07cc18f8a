import LiteosM.Vfs.Steps

/-!
# The locks of the virtual file system

Which mutexes a task has at each place of a call.
-/

namespace LiteosM.Vfs

/-- A task is alone in what `fs_mutex` protects: it has the mutex, or nobody has and the task has
locked the scheduler. -/
def HasFs (s : VfsState) (t : Nat) : Prop :=
  (s.mux s.fsMutex).owner = some t ∨ (s.lockTask = some t ∧ (s.mux s.fsMutex).owner = none)

/-- A call that goes on without `fs_mutex` does so while nobody has it. -/
def FsFree (s : VfsState) : VfsEvent → Prop
  | .run t _ => ∀ r, s.pc t = .unheld r → (s.mux s.fsMutex).owner = none
  | _ => True

/-- What is known of a step before it: the scheduler lets its task run, and `FsFree`. -/
structure Turn (s : VfsState) (event : VfsEvent) : Prop where
  runs : s.lockTask = none ∨ s.lockTask = some event.task
  free : FsFree s event

/-- The mutexes a task has at a place. -/
def PcRight (s : VfsState) (t : Nat) : Pc → Prop
  | .unheld _ => s.lockTask = some t
  | .wait a m => m < s.mpNext ∧ (a.underFs = true → (s.mux s.fsMutex).owner = some t)
  | .inside _ m => m < s.mpNext ∧ s.holder m = some t
  | .callback _ m => m < s.mpNext ∧ s.holder m = some t
  | .after _ m _ => m < s.mpNext ∧ s.holder m = some t
  | .pathInside _ m => m < s.mpNext ∧ HasFs s t
  | .pathCallback _ m => m < s.mpNext ∧ HasFs s t
  | .pathAfter _ => HasFs s t
  | _ => True

structure LockInv (s : VfsState) : Prop where
  alive : ∀ h t, (s.mux h).owner = some t → (s.mux h).muxStat = true
  fsStat : (s.mux s.fsMutex).muxStat = true
  apart : ∀ m < s.mpNext, (s.mp m).mMutex ≠ s.fsMutex
  mounted : ∀ m ∈ s.mountPoints, m < s.mpNext
  files : ∀ i m, (s.files i).fMp = some m → m < s.mpNext
  dirs : ∀ d < s.dirNext, (s.dir d).dMp < s.mpNext
  tasks : ∀ t, PcRight s t (s.pc t)

section Mutex

variable {cb : Mutex} {t u : Nat}

theorem pend_muxStat : (cb.pend t).muxStat = cb.muxStat := by
  unfold Mutex.pend
  split <;> rfl

theorem pend_owner (h : cb.owner = some u) : (cb.pend t).owner = some u := by
  unfold Mutex.pend
  rw [h]

theorem post_muxStat : (cb.post t).muxStat = cb.muxStat := by
  unfold Mutex.post
  split
  · rfl
  · split <;> rfl

theorem post_of_ne (h : cb.owner ≠ some t) : cb.post t = cb := if_pos (Or.inr h)

theorem post_owner (h : cb.owner = some u) (hne : u ≠ t) : (cb.post t).owner = some u := by
  rw [post_of_ne fun h' => hne (Option.some.inj (h.symm.trans h')), h]

theorem delete_owner : cb.delete.owner = cb.owner := by
  unfold Mutex.delete
  split <;> rfl

theorem delete_of_owner (h : cb.owner = some u) : cb.delete = cb :=
  if_pos (Or.inr (Or.inr (by rw [h]; rfl)))

end Mutex

section

variable {s s' s₁ : VfsState} {t u h m : Nat} {event : VfsEvent} {p : Pc}

theorem HasFs.unique (ht : HasFs s t) (hu : HasFs s u) : t = u := by
  obtain ht | ⟨ht, htn⟩ := ht
  · obtain hu | ⟨_, hun⟩ := hu
    · exact Option.some.inj (ht.symm.trans hu)
    · rw [hun] at ht
      cases ht
  · obtain hu | ⟨hu, _⟩ := hu
    · rw [htn] at hu
      cases hu
    · exact Option.some.inj (ht.symm.trans hu)

@[simp] theorem setPc_self : (s.setPc t p).pc t = p := Function.update_self ..

theorem setPc_of_ne (hne : u ≠ t) : (s.setPc t p).pc u = s.pc u := Function.update_of_ne hne ..

theorem setPc_files : (s.setPc t p).files = s.files := rfl

@[simp] theorem leaves_self {ret : Int} : (s.leaves t ret).1.pc t = .idle := Function.update_self ..

theorem leaves_of_ne {ret : Int} (hne : u ≠ t) : (s.leaves t ret).1.pc u = s.pc u :=
  Function.update_of_ne hne ..

theorem pends_files {a : Access} : (s.pends t a m).1.files = s.files := rfl

@[simp] theorem pends_self {a : Access} : (s.pends t a m).1.pc t = .wait a m := Function.update_self ..

theorem pends_of_ne {a : Access} (hne : u ≠ t) : (s.pends t a m).1.pc u = s.pc u :=
  Function.update_of_ne hne ..

@[simp] theorem setMux_self {cb : Mutex} : (s.setMux h cb).mux h = cb := Function.update_self ..

theorem setMux_of_ne {cb : Mutex} {n : Nat} (hne : n ≠ h) : (s.setMux h cb).mux n = s.mux n :=
  Function.update_of_ne hne ..

@[simp] theorem setMp_self {q : MountPoint} : (s.setMp m q).mp m = q := Function.update_self ..

theorem setMp_of_ne {q : MountPoint} {n : Nat} (hne : n ≠ m) : (s.setMp m q).mp n = s.mp n :=
  Function.update_of_ne hne ..

@[simp] theorem setFile_self {i : Nat} {f : File} : (s.setFile i f).files i = f :=
  Function.update_self ..

theorem setFile_of_ne {i j : Nat} {f : File} (hne : j ≠ i) : (s.setFile i f).files j = s.files j :=
  Function.update_of_ne hne ..

theorem setMux_owner {cb : Mutex} (hcb : ∀ v, v ≠ t → (s.mux h).owner = some v → cb.owner = some v)
    (hne : u ≠ t) (n : Nat) (hu : (s.mux n).owner = some u) :
    ((s.setMux h cb).mux n).owner = some u := by
  by_cases hn : n = h
  · subst hn
    rw [setMux_self]
    exact hcb u hne hu
  · rw [setMux_of_ne hn]
    exact hu

/-- The mutexes, the places and the mount points stay. New references are to the mount point `m`. -/
structure Inert (s s₁ : VfsState) (m : Nat) : Prop where
  mux : s₁.mux = s.mux
  pc : s₁.pc = s.pc
  fsMutex : s₁.fsMutex = s.fsMutex
  lockTask : s₁.lockTask = s.lockTask
  mountPoints : s₁.mountPoints = s.mountPoints
  mpNext : s₁.mpNext = s.mpNext
  fs : s₁.fs = s.fs
  mMutex : ∀ n, (s₁.mp n).mMutex = (s.mp n).mMutex
  mFs : ∀ n, (s₁.mp n).mFs = (s.mp n).mFs
  mPath : ∀ n, (s₁.mp n).mPath = (s.mp n).mPath
  fMp : ∀ i n, (s₁.files i).fMp = some n → (s.files i).fMp = some n ∨ n = m
  dMp : ∀ d < s₁.dirNext, (d < s.dirNext ∧ (s₁.dir d).dMp = (s.dir d).dMp) ∨ (s₁.dir d).dMp = m

theorem Inert.refl : Inert s s m where
  mux := rfl
  pc := rfl
  fsMutex := rfl
  lockTask := rfl
  mountPoints := rfl
  mpNext := rfl
  fs := rfl
  mMutex := fun _ => rfl
  mFs := fun _ => rfl
  mPath := fun _ => rfl
  fMp := fun _ _ h => Or.inl h
  dMp := fun _ h => Or.inl ⟨h, rfl⟩

theorem Inert.trans (h₁ : Inert s s₁ m) (h₂ : Inert s₁ s' m) : Inert s s' m where
  mux := h₂.mux.trans h₁.mux
  pc := h₂.pc.trans h₁.pc
  fsMutex := h₂.fsMutex.trans h₁.fsMutex
  lockTask := h₂.lockTask.trans h₁.lockTask
  mountPoints := h₂.mountPoints.trans h₁.mountPoints
  mpNext := h₂.mpNext.trans h₁.mpNext
  fs := h₂.fs.trans h₁.fs
  mMutex := fun n => (h₂.mMutex n).trans (h₁.mMutex n)
  mFs := fun n => (h₂.mFs n).trans (h₁.mFs n)
  mPath := fun n => (h₂.mPath n).trans (h₁.mPath n)
  fMp := fun i n h => (h₂.fMp i n h).elim (h₁.fMp i n) Or.inr
  dMp := fun d hd => by
    obtain ⟨hd₁, heq⟩ | hm := h₂.dMp d hd
    · rw [heq]
      exact h₁.dMp d hd₁
    · exact Or.inr hm

theorem inert_setFile {i : Nat} {f : File}
    (hf : ∀ n, f.fMp = some n → (s.files i).fMp = some n ∨ n = m) : Inert s (s.setFile i f) m where
  mux := rfl
  pc := rfl
  fsMutex := rfl
  lockTask := rfl
  mountPoints := rfl
  mpNext := rfl
  fs := rfl
  mMutex := fun _ => rfl
  mFs := fun _ => rfl
  mPath := fun _ => rfl
  fMp := fun j n h => by
    by_cases hj : j = i
    · subst hj
      rw [setFile_self] at h
      exact hf n h
    · rw [setFile_of_ne hj] at h
      exact Or.inl h
  dMp := fun _ h => Or.inl ⟨h, rfl⟩

theorem inert_setRefs {n r : Nat} : Inert s (s.setMp n { s.mp n with mRefs := r }) m := by
  have hmp : ∀ k, ((s.setMp n { s.mp n with mRefs := r }).mp k).mMutex = (s.mp k).mMutex ∧
      ((s.setMp n { s.mp n with mRefs := r }).mp k).mFs = (s.mp k).mFs ∧
      ((s.setMp n { s.mp n with mRefs := r }).mp k).mPath = (s.mp k).mPath := by
    intro k
    by_cases hk : k = n
    · subst hk
      rw [setMp_self]
      exact ⟨rfl, rfl, rfl⟩
    · rw [setMp_of_ne hk]
      exact ⟨rfl, rfl, rfl⟩
  exact ⟨rfl, rfl, rfl, rfl, rfl, rfl, rfl, fun k => (hmp k).1, fun k => (hmp k).2.1, fun k => (hmp k).2.2,
    fun _ _ h => Or.inl h, fun _ h => Or.inl ⟨h, rfl⟩⟩

theorem inert_losFilePut {i : Nat} : Inert s (losFilePut s i) m :=
  inert_setFile fun _ h => by cases h

theorem inert_losOpenFields {a : Access} : Inert s (losOpenFields s t a m) m := by
  cases a with
  | «open» file flags => exact inert_setFile fun n h => Or.inr (Option.some.inj h).symm
  | _ => exact Inert.refl

theorem inert_callbackOffset {a : Access} {offset : Int} : Inert s (callbackOffset s offset a) m := by
  cases a with
  | «open» file flags => exact inert_setFile fun n h => Or.inl h
  | file op file => exact inert_setFile fun n h => Or.inl h
  | _ => exact Inert.refl

theorem inert_losFinish {a : Access} {ret r : Int} (h : losFinish s m ret a = some (s₁, r)) :
    Inert s s₁ m := by
  cases a with
  | «open» file flags =>
    simp only [losFinish] at h
    split at h
    · cases h
      have hrefs : Inert s (refsInc s m) m := inert_setRefs
      exact hrefs.trans (inert_setFile fun n h => Or.inl h)
    · cases h
      exact inert_losFilePut
  | file op file =>
    cases op with
    | close =>
      simp only [losFinish] at h
      split at h
      · obtain ⟨n, _, hn⟩ := Option.bind_eq_some_iff.mp h
        cases hn
        exact inert_setRefs
      · cases h
        exact Inert.refl
    | _ =>
      cases h
      exact Inert.refl
  | opendir =>
    simp only [losFinish] at h
    split at h
    · split at h
      · cases h
        have hnew : Inert s (dirOpen s m) m := by
          refine ⟨rfl, rfl, rfl, rfl, rfl, rfl, rfl, fun _ => rfl, fun _ => rfl, fun _ => rfl,
            fun _ _ h => Or.inl h, fun d hd => ?_⟩
          change (d < s.dirNext ∧ (Function.update s.dir s.dirNext _ d).dMp = _) ∨
            (Function.update s.dir s.dirNext _ d).dMp = m
          by_cases hdn : d = s.dirNext
          · subst hdn
            rw [Function.update_self]
            exact Or.inr rfl
          · rw [Function.update_of_ne hdn]
            have hlt : d < s.dirNext + 1 := hd
            exact Or.inl ⟨by omega, rfl⟩
        exact hnew.trans inert_setRefs
      · cases h
    · cases h
      exact Inert.refl
  | readdir dir =>
    cases h
    exact Inert.refl
  | closedir dir =>
    simp only [losFinish] at h
    split at h
    · cases h
      have hfree : Inert s (dirFree s dir) m := by
        refine ⟨rfl, rfl, rfl, rfl, rfl, rfl, rfl, fun _ => rfl, fun _ => rfl, fun _ => rfl,
          fun _ _ h => Or.inl h, fun d hd => Or.inl ⟨hd, ?_⟩⟩
        change (Function.update s.dir dir _ d).dMp = _
        by_cases hdn : d = dir
        · subst hdn
          rw [Function.update_self]
        · rw [Function.update_of_ne hdn]
      exact hfree.trans inert_setRefs
    · cases h
      exact Inert.refl
  | mkdir =>
    cases h
    exact Inert.refl

theorem PcRight.congr {p : Pc} (h : PcRight s t p) (hnext : s.mpNext ≤ s'.mpNext)
    (hfs : s'.fsMutex = s.fsMutex) (hmp : ∀ m < s.mpNext, (s'.mp m).mMutex = (s.mp m).mMutex)
    (hmux : ∀ n, (s.mux n).owner = some t → (s'.mux n).owner = some t)
    (hlock : s.lockTask = some t → s'.lockTask = some t ∧
      ((s.mux s.fsMutex).owner = none → (s'.mux s'.fsMutex).owner = none)) : PcRight s' t p := by
  have hhold : ∀ m < s.mpNext, s.holder m = some t → s'.holder m = some t := by
    intro m hm hh
    unfold VfsState.holder at hh ⊢
    rw [hmp m hm]
    exact hmux _ hh
  have howner : (s.mux s.fsMutex).owner = some t → (s'.mux s'.fsMutex).owner = some t := by
    rw [hfs]
    exact hmux _
  have hhas : HasFs s t → HasFs s' t := by
    rintro (hown | ⟨hl, hnone⟩)
    · exact .inl (howner hown)
    · exact .inr ⟨(hlock hl).1, (hlock hl).2 hnone⟩
  cases p with
  | idle => trivial
  | enter r => trivial
  | unheld r => exact (hlock h).1
  | spin op fd => trivial
  | wait a m => exact ⟨by have := h.1; omega, fun ha => howner (h.2 ha)⟩
  | inside a m => exact ⟨by have := h.1; omega, hhold m h.1 h.2⟩
  | callback a m => exact ⟨by have := h.1; omega, hhold m h.1 h.2⟩
  | after a m ret => exact ⟨by have := h.1; omega, hhold m h.1 h.2⟩
  | put file ret => trivial
  | pathInside op m => exact ⟨by have := h.1; omega, hhas h.2⟩
  | pathCallback op m => exact ⟨by have := h.1; omega, hhas h.2⟩
  | pathAfter ret => exact hhas h

theorem PcRight.inert {p : Pc} (h : PcRight s t p) (hin : Inert s s₁ m) : PcRight s₁ t p :=
  h.congr (Nat.le_of_eq hin.mpNext.symm) hin.fsMutex (fun n _ => hin.mMutex n)
    (fun n hn => by rw [hin.mux]; exact hn)
    fun hl => ⟨hin.lockTask.trans hl, fun hn => by rw [hin.mux, hin.fsMutex]; exact hn⟩

theorem LockInv.inert (hi : LockInv s) (h : Inert s s₁ m) (hm : m < s.mpNext) : LockInv s₁ where
  alive := by rw [h.mux]; exact hi.alive
  fsStat := by rw [h.mux, h.fsMutex]; exact hi.fsStat
  apart := by rw [h.mpNext, h.fsMutex]; exact fun n hn => (h.mMutex n).symm ▸ hi.apart n hn
  mounted := by rw [h.mpNext, h.mountPoints]; exact hi.mounted
  files := fun i n hn => by
    rw [h.mpNext]
    obtain hold | rfl := h.fMp i n hn
    · exact hi.files i n hold
    · exact hm
  dirs := fun d hd => by
    rw [h.mpNext]
    obtain ⟨hlt, heq⟩ | heq := h.dMp d hd
    · rw [heq]
      exact hi.dirs d hlt
    · rw [heq]
      exact hm
  tasks := fun t => by
    rw [h.pc]
    exact (hi.tasks t).inert h

theorem LockInv.setFile {i : Nat} {f : File} (hi : LockInv s)
    (hf : ∀ n, f.fMp = some n → (s.files i).fMp = some n) : LockInv (s.setFile i f) :=
  { hi with
    files := fun j n hn => by
      by_cases hj : j = i
      · subst hj
        rw [setFile_self] at hn
        exact hi.files j n (hf n hn)
      · rw [setFile_of_ne hj] at hn
        exact hi.files j n hn
    tasks := fun u => (hi.tasks u).congr (Nat.le_refl _) rfl (fun _ _ => rfl) (fun _ h => h)
      fun h => ⟨h, fun h => h⟩ }

theorem LockInv.setPc (hi : LockInv s) (hp : PcRight s t p) : LockInv (s.setPc t p) where
  alive := hi.alive
  fsStat := hi.fsStat
  apart := hi.apart
  mounted := hi.mounted
  files := hi.files
  dirs := hi.dirs
  tasks := fun u => by
    by_cases hu : u = t
    · subst hu
      rw [setPc_self]
      exact hp.congr (Nat.le_refl _) rfl (fun _ _ => rfl) (fun _ h => h) fun h => ⟨h, fun h => h⟩
    · rw [setPc_of_ne hu]
      exact (hi.tasks u).congr (Nat.le_refl _) rfl (fun _ _ => rfl) (fun _ h => h)
        fun h => ⟨h, fun h => h⟩

theorem not_locked (hruns : s.lockTask = none ∨ s.lockTask = some t) (hne : u ≠ t) :
    s.lockTask ≠ some u := by
  intro hu
  obtain h | h := hruns
  · rw [h] at hu
    cases hu
  · exact hne (Option.some.inj (hu.symm.trans h))

theorem LockInv.setMux {cb : Mutex} (hi : LockInv s)
    (hruns : s.lockTask = none ∨ s.lockTask = some t) (hstat : cb.muxStat = (s.mux h).muxStat)
    (halive : ∀ v, cb.owner = some v → cb.muxStat = true)
    (hcb : ∀ v, v ≠ t → (s.mux h).owner = some v → cb.owner = some v)
    (hp : PcRight (s.setMux h cb) t p) : LockInv ((s.setMux h cb).setPc t p) where
  alive := fun n v hv => by
    by_cases hn : n = h
    · subst hn
      rw [show ((s.setMux n cb).setPc t p).mux n = cb from setMux_self] at hv ⊢
      exact halive v hv
    · rw [show ((s.setMux h cb).setPc t p).mux n = s.mux n from setMux_of_ne hn] at hv ⊢
      exact hi.alive n v hv
  fsStat := by
    show ((s.setMux h cb).mux s.fsMutex).muxStat = true
    by_cases hn : s.fsMutex = h
    · rw [hn, setMux_self, hstat, ← hn]
      exact hi.fsStat
    · rw [setMux_of_ne hn]
      exact hi.fsStat
  apart := hi.apart
  mounted := hi.mounted
  files := hi.files
  dirs := hi.dirs
  tasks := fun u => by
    by_cases hu : u = t
    · subst hu
      rw [setPc_self]
      exact hp.congr (Nat.le_refl _) rfl (fun _ _ => rfl) (fun _ h => h) fun h => ⟨h, fun h => h⟩
    · rw [setPc_of_ne hu]
      exact (hi.tasks u).congr (Nat.le_refl _) rfl (fun _ _ => rfl)
        (fun n hn => setMux_owner hcb hu n hn) fun h => absurd h (not_locked hruns hu)

theorem LockInv.pend (hi : LockInv s) (hruns : s.lockTask = none ∨ s.lockTask = some t)
    (hstat : (s.mux h).muxStat = true) (hp : PcRight (losMuxPend s h t) t p) :
    LockInv ((losMuxPend s h t).setPc t p) :=
  hi.setMux hruns pend_muxStat (fun _ _ => pend_muxStat.trans hstat) (fun _ _ => pend_owner) hp

theorem LockInv.post (hi : LockInv s) (hruns : s.lockTask = none ∨ s.lockTask = some t)
    (hp : PcRight (losMuxPost s h t) t p) : LockInv ((losMuxPost s h t).setPc t p) := by
  refine hi.setMux hruns post_muxStat (fun v hv => post_muxStat.trans ?_)
    (fun _ hne hv => post_owner hv hne) hp
  by_cases hown : (s.mux h).owner = some t
  · exact hi.alive h t hown
  · rw [post_of_ne hown] at hv
    exact hi.alive h v hv

theorem losMuxPend_owner {n : Nat} (hn : (s.mux n).owner = some t) :
    ((losMuxPend s h t).mux n).owner = some t := by
  unfold losMuxPend
  by_cases hnh : n = h
  · subst hnh
    rw [setMux_self]
    exact pend_owner hn
  · rw [setMux_of_ne hnh]
    exact hn

theorem LockInv.pends {a : Access} (hi : LockInv s) (hruns : s.lockTask = none ∨ s.lockTask = some t)
    (hm : m < s.mpNext) (hstat : (s.mux (s.mp m).mMutex).muxStat = true)
    (hfs : a.underFs = true → (s.mux s.fsMutex).owner = some t) : LockInv (s.pends t a m).1 :=
  hi.pend hruns hstat ⟨hm, fun ha => losMuxPend_owner (hfs ha)⟩

theorem LockInv.unmount (hi : LockInv s) (hruns : s.lockTask = none ∨ s.lockTask = some t)
    (hm : m ∈ s.mountPoints) : LockInv ((removeMountPoint s m).leaves t 0).1 := by
  have hfs : (removeMountPoint s m).mux s.fsMutex = s.mux s.fsMutex :=
    setMux_of_ne (hi.apart m (hi.mounted m hm)).symm
  have hmux : ∀ n v, (s.mux n).owner = some v → (removeMountPoint s m).mux n = s.mux n := by
    intro n v hv
    show (s.setMux (s.mp m).mMutex _).mux n = s.mux n
    by_cases hn : n = (s.mp m).mMutex
    · rw [← hn, setMux_self]
      exact delete_of_owner hv
    · exact setMux_of_ne hn
  have howner : ∀ n v, ((removeMountPoint s m).mux n).owner = some v → (s.mux n).owner = some v := by
    intro n v hv
    change ((s.setMux (s.mp m).mMutex _).mux n).owner = some v at hv
    by_cases hn : n = (s.mp m).mMutex
    · rw [← hn, setMux_self, delete_owner] at hv
      exact hv
    · rw [setMux_of_ne hn] at hv
      exact hv
  have hdel : LockInv (removeMountPoint s m) :=
    { alive := fun n v hv => by
        have hold := howner n v hv
        rw [hmux n v hold]
        exact hi.alive n v hold
      fsStat := (congrArg Mutex.muxStat hfs).trans hi.fsStat
      apart := hi.apart
      mounted := fun n hn => hi.mounted n (List.mem_of_mem_erase hn)
      files := hi.files
      dirs := hi.dirs
      tasks := fun u => (hi.tasks u).congr (Nat.le_refl _) rfl (fun _ _ => rfl)
        (fun n hn => by rw [hmux n u hn]; exact hn)
        fun hl => ⟨hl, fun hn => (congrArg Mutex.owner hfs).trans hn⟩ }
  exact hdel.post hruns trivial

theorem addMountPoint_mp {path : List Char} {f : Nat} {n : Nat} (hn : n ≠ s.mpNext) :
    (addMountPoint s f path h).mp n = s.mp n := Function.update_of_ne hn ..

@[simp] theorem addMountPoint_self {path : List Char} {f : Nat} :
    (addMountPoint s f path h).mp s.mpNext = { mFs := f, mPath := path, mRefs := 0, mMutex := h } :=
  Function.update_self ..

theorem addMountPoint_mux {path : List Char} {f : Nat} {n : Nat} (hn : n ≠ h) :
    (addMountPoint s f path h).mux n = s.mux n := Function.update_of_ne hn ..

@[simp] theorem addMountPoint_mux_self {path : List Char} {f : Nat} :
    (addMountPoint s f path h).mux h = { muxStat := true, owner := none, muxList := [] } :=
  Function.update_self ..

theorem ne_of_used {n : Nat} (hnew : (s.mux h).muxStat = false) (hn : (s.mux n).muxStat = true) : n ≠ h := by
  rintro rfl
  rw [hnew] at hn
  cases hn

theorem LockInv.mount {path : List Char} {f : Nat} (hi : LockInv s)
    (hruns : s.lockTask = none ∨ s.lockTask = some t) (hnew : (s.mux h).muxStat = false) :
    LockInv ((addMountPoint s f path h).leaves t 0).1 := by
  have hmp : ∀ n < s.mpNext, ((addMountPoint s f path h).mp n).mMutex = (s.mp n).mMutex := fun n hn => by
    rw [addMountPoint_mp (by omega)]
  have hdone : LockInv (addMountPoint s f path h) :=
    { alive := fun n v hv => by
        by_cases hn : n = h
        · rw [hn, addMountPoint_mux_self]
        · rw [addMountPoint_mux hn] at hv ⊢
          exact hi.alive n v hv
      fsStat := by
        show ((addMountPoint s f path h).mux s.fsMutex).muxStat = true
        rw [addMountPoint_mux (ne_of_used hnew hi.fsStat)]
        exact hi.fsStat
      apart := fun n hn => by
        change n < s.mpNext + 1 at hn
        show ((addMountPoint s f path h).mp n).mMutex ≠ s.fsMutex
        by_cases hlt : n = s.mpNext
        · rw [hlt, addMountPoint_self]
          exact (ne_of_used hnew hi.fsStat).symm
        · rw [hmp n (by omega)]
          exact hi.apart n (by omega)
      mounted := fun n hn => by
        show n < s.mpNext + 1
        obtain rfl | hold := List.mem_cons.mp hn
        · omega
        · have := hi.mounted n hold
          omega
      files := fun i n hn => Nat.lt_succ_of_lt (hi.files i n hn)
      dirs := fun d hd => Nat.lt_succ_of_lt (hi.dirs d hd)
      tasks := fun u => (hi.tasks u).congr (Nat.le_succ _) rfl hmp
        (fun n hn => by rw [addMountPoint_mux (ne_of_used hnew (hi.alive n u hn))]; exact hn)
        fun hl => ⟨hl, fun hn =>
          (congrArg Mutex.owner (addMountPoint_mux (ne_of_used hnew hi.fsStat))).trans hn⟩ }
  exact hdone.post hruns trivial

theorem owns_iff : s.owns h t = true ↔ (s.mux h).owner = some t := decide_eq_true_iff

/-- A refused `LOS_MuxPend` of `fs_mutex` is one under the lock of the scheduler. -/
theorem LockInv.refused (hi : LockInv s) (hruns : s.lockTask = none ∨ s.lockTask = some t)
    (hno : osMuxValidCheck s s.fsMutex = false) : s.lockTask = some t := by
  obtain h | h := hruns
  · unfold osMuxValidCheck at hno
    rw [hi.fsStat, h] at hno
    cases hno
  · exact h

/-- What `fs_mutex` protects is changed by one task at a time. -/
theorem LockInv.hasFs {got : Option Nat} {r : Request} (hi : LockInv s) (hturn : Turn s (.run t got))
    (hin : InSection s t r) : HasFs s t := by
  obtain ⟨_, hown⟩ | ⟨hpc, _⟩ := hin
  · exact .inl (owns_iff.mp hown)
  · have hright := hi.tasks t
    rw [hpc] at hright
    exact .inr ⟨hright, hturn.free r hpc⟩

theorem LockInv.lock {lockTask : Option Nat} (hi : LockInv s)
    (hruns : s.lockTask = none ∨ s.lockTask = some t) (hpc : s.pc t = .idle) :
    LockInv { s with lockTask := lockTask } :=
  { hi with
    tasks := fun u => by
      by_cases hu : u = t
      · show PcRight _ u (s.pc u)
        rw [hu, hpc]
        trivial
      · exact (hi.tasks u).congr (Nat.le_refl _) rfl (fun _ _ => rfl) (fun _ h => h)
          fun h => absurd h (not_locked hruns hu) }

theorem Move.lockInv (hmove : Move s event s') (hi : LockInv s) (hturn : Turn s event) : LockInv s' := by
  have hruns := hturn.runs
  cases hmove with
  | stay => exact hi
  | enter r hpc => exact hi.pend hruns hi.fsStat trivial
  | unheld r hpc hno => exact hi.setPc (hi.refused hruns hno)
  | spins op fd hpc => exact hi.setPc trivial
  | tries op fd hpc => exact hi.pend hruns hi.fsStat trivial
  | locks hpc => exact hi.lock hruns hpc
  | unlocks hpc => exact hi.lock hruns hpc
  | direct hpc hc ha hd hstat =>
    refine hi.pends hruns (hi.dirs _ hd) hstat fun hunder => ?_
    obtain rfl | rfl := ha <;> cases hunder
  | leave fsl hin =>
    have hi' : LockInv { s with fileSystems := fsl } :=
      { hi with
        tasks := fun u => (hi.tasks u).congr (Nat.le_refl _) rfl (fun _ _ => rfl) (fun _ h => h)
          fun h => ⟨h, fun h => h⟩ }
    exact hi'.post hruns trivial
  | @openFails t file got r hpc hown hfile hfree =>
    have hfile : LockInv (s.setFile file { s.files file with fStatus := .initing }) :=
      hi.setFile fun n h => h
    exact hfile.post hruns trivial
  | @openPends t file flags m got r hpc hown hfile hfree hm hstat =>
    have hfile : LockInv (s.setFile file { s.files file with fStatus := .initing }) :=
      hi.setFile fun n h => h
    exact hfile.pends hruns (hi.mounted _ hm) hstat fun _ => owns_iff.mp hown
  | @attach t fd m got r op hpc hown hready hmp hstat =>
    have hm := hi.files _ _ hmp
    split
    · have hfile : LockInv (s.setFile fd { s.files fd with fStatus := .closing }) :=
        hi.setFile fun n h => h
      exact hfile.pends hruns hm hstat fun _ => owns_iff.mp hown
    · exact hi.pends hruns hm hstat fun _ => owns_iff.mp hown
  | path hin hm => exact hi.setPc ⟨hi.mounted _ hm, hi.hasFs hturn hin⟩
  | dirPends hpc hown ha hm hstat =>
    exact hi.pends hruns (hi.mounted _ hm) hstat fun _ => owns_iff.mp hown
  | mount hin hfs hfind hbound hnew => exact hi.mount hruns hnew
  | unmount hin hm => exact hi.unmount hruns (losFsUnmounts_eq hm).1
  | @granted t m got a hpc hown =>
    have hright := hi.tasks t
    rw [hpc] at hright
    have hhold := owns_iff.mp hown
    split
    · refine hi.post hruns ⟨hright.1, ?_⟩
      show ((s.setMux s.fsMutex _).mux (s.mp m).mMutex).owner = some t
      rw [setMux_of_ne (hi.apart m hright.1)]
      exact hhold
    · exact hi.setPc ⟨hright.1, hhold⟩
  | @starts t m got a hpc =>
    have hright := hi.tasks t
    rw [hpc] at hright
    have hin : Inert s (losOpenFields s t a m) m := inert_losOpenFields
    exact (hi.inert hin hright.1).setPc (PcRight.inert (p := .callback a m) hright hin)
  | @skips t m got a s₁ ret hpc hno hfin =>
    have hright := hi.tasks t
    rw [hpc] at hright
    have hin := inert_losFinish hfin
    exact (hi.inert hin hright.1).setPc (PcRight.inert (p := .after a m ret) hright hin)
  | @ends t m a s₁ ret r offset hpc hfin =>
    have hright := hi.tasks t
    rw [hpc] at hright
    have hin := inert_callbackOffset.trans (inert_losFinish hfin)
    exact (hi.inert hin hright.1).setPc (PcRight.inert (p := .after a m r) hright hin)
  | posts hpc hposted ha => exact hi.post hruns trivial
  | closes hpc hmp => exact hi.post hruns trivial
  | @puts t i got ret hpc =>
    have hput : LockInv (losFilePut s i) := hi.setFile fun n h => by cases h
    exact hput.setPc trivial
  | @pathStarts t m got op hpc =>
    have hright := hi.tasks t
    rw [hpc] at hright
    exact hi.setPc hright
  | @pathEnds t m op ret offset hpc =>
    have hright := hi.tasks t
    rw [hpc] at hright
    exact hi.setPc hright.2
  | pathLeaves hpc => exact hi.post hruns trivial

theorem vfsBooted_lockInv (hb : VfsBooted s) : LockInv s where
  alive := fun h t hown => by
    by_cases hh : h = s.fsMutex
    · rw [hh, hb.fsMutex]
    · rw [hb.mux h hh] at hown
      cases hown
  fsStat := by rw [hb.fsMutex]
  apart := fun m hm => by rw [hb.mpNext] at hm; omega
  mounted := fun m hm => by rw [hb.mountPoints] at hm; cases hm
  files := fun i m hm => by rw [(hb.files i).2] at hm; cases hm
  dirs := fun d hd => by rw [hb.dirNext] at hd; omega
  tasks := fun t => by rw [hb.pc t]; trivial

end

end LiteosM.Vfs
