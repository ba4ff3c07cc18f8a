import LiteosM.Vfs.Mounts

/-!
# The users of the mount points

The slots of `files` and the open directories, and what each call knows of those it works on. A slot
is `held` while its reference is counted in `m_refs`.
-/

namespace LiteosM.Vfs

/-- The slot that a call has for itself. -/
def Access.slot : Access → Option Nat
  | .open i _ => some i
  | .file .close i => some i
  | _ => none

def Access.fileIndex : Access → Option Nat
  | .open i _ => some i
  | .file _ i => some i
  | _ => none

def Access.dirIndex : Access → Option Nat
  | .readdir d => some d
  | .closedir d => some d
  | _ => none

def Access.closesDir : Access → Bool
  | .closedir _ => true
  | _ => false

/-- The call adds a reference when its callback returns `0`. -/
def Access.opens : Access → Bool
  | .open _ _ => true
  | .opendir => true
  | _ => false

def slotOf : Pc → Option Nat
  | .wait a _ => a.slot
  | .inside a _ => a.slot
  | .callback a _ => a.slot
  | .after (.file .close i) _ _ => some i
  | .put i _ => some i
  | _ => none

/-- The slot that a call works on. -/
def fileOf : Pc → Option Nat
  | .wait a _ => a.fileIndex
  | .inside a _ => a.fileIndex
  | .callback a _ => a.fileIndex
  | .after (.open i _) _ ret => if 0 ≤ ret then some i else none
  | .after (.file _ i) _ _ => some i
  | .put i _ => some i
  | _ => none

def dirOf : Pc → Option Nat
  | .wait a _ => a.dirIndex
  | .inside a _ => a.dirIndex
  | .callback a _ => a.dirIndex
  | _ => none

def closing : Pc → Bool
  | .wait a _ => a.closesDir
  | .inside a _ => a.closesDir
  | .callback a _ => a.closesDir
  | _ => false

/-- The mount point that a call found and has not yet left. -/
def mountOf : Pc → Option Nat
  | .wait _ m => some m
  | .inside _ m => some m
  | .callback _ m => some m
  | .after _ m _ => some m
  | .pathInside _ m => some m
  | .pathCallback _ m => some m
  | _ => none

/-- What a call knows of the file or the directory it works on, up to the end of its callback. -/
def UseRight (s : VfsState) (held : Nat → Bool) (m : Nat) : Access → Prop
  | .open i _ => (s.files i).fStatus = .initing
  | .file .close i => (s.files i).fStatus = .closing ∧ (s.files i).fMp = some m ∧ held i = true
  | .file _ i => (s.files i).fMp = some m ∧ held i = true
  | .readdir d => d < s.dirNext ∧ (s.dir d).dMp = m ∧ (s.dir d).live = true
  | .closedir d => d < s.dirNext ∧ (s.dir d).dMp = m ∧ (s.dir d).live = true
  | _ => True

/-- What a call knows of its file when its callback has ended. -/
def AfterRight (s : VfsState) (held : Nat → Bool) (m : Nat) (ret : Int) : Access → Prop
  | .open i _ => 0 ≤ ret → ret = i ∧ (s.files i).fMp = some m ∧ held i = true
  | .file .close i => (s.files i).fStatus = .closing ∧ (s.files i).fMp = some m ∧ held i = false
  | .file _ i => (s.files i).fMp = some m ∧ held i = true
  | _ => True

def UserRight (s : VfsState) (held : Nat → Bool) : Pc → Prop
  | .wait a m => m ∈ s.mountPoints ∧ UseRight s held m a ∧
      ∀ op i, a = .file op i → op ≠ .close → (s.files i).fStatus = .ready
  | .inside a m => m ∈ s.mountPoints ∧ UseRight s held m a
  | .callback a m => m ∈ s.mountPoints ∧ UseRight s held m a ∧
      ∀ i flags, a = .open i flags → (s.files i).fMp = some m
  | .after a m ret => m ∈ s.mountPoints ∧ AfterRight s held m ret a
  | .put i _ =>
    held i = false ∧ ((s.files i).fStatus = .initing ∨ (s.files i).fStatus = .closing)
  | .pathInside _ m => m ∈ s.mountPoints
  | .pathCallback _ m => m ∈ s.mountPoints
  | _ => True

def SlotRight (s : VfsState) (held : Nat → Bool) (i : Nat) : Prop :=
  match (s.files i).fStatus with
  | .notUsed => held i = false ∧ (s.files i).fMp = none
  | .initing => held i = false ∧ ∃ t, slotOf (s.pc t) = some i
  | .ready => held i = true ∧ ∃ m, (s.files i).fMp = some m
  | .closing => (∃ m, (s.files i).fMp = some m) ∧ ∃ t, slotOf (s.pc t) = some i

structure UserInv (s : VfsState) (held : Nat → Bool) : Prop where
  tasks : ∀ t, UserRight s held (s.pc t)
  slots : ∀ i, SlotRight s held i
  unique : ∀ t u i, slotOf (s.pc t) = some i → slotOf (s.pc u) = some i → t = u
  dirAlone : ∀ t u d, dirOf (s.pc t) = some d → dirOf (s.pc u) = some d → closing (s.pc t) = true →
    t = u
  fileMounted : ∀ i m, (s.files i).fMp = some m → m ∈ s.mountPoints
  dirMounted : ∀ d < s.dirNext, (s.dir d).live = true → (s.dir d).dMp ∈ s.mountPoints
  high : ∀ i, losMaxFiles ≤ i → (s.files i).fStatus = .notUsed

def SameFile (s s' : VfsState) (held held' : Nat → Bool) (i : Nat) : Prop :=
  (s'.files i).fStatus = (s.files i).fStatus ∧ (s'.files i).fMp = (s.files i).fMp ∧ held' i = held i

section

variable {s s' : VfsState} {held held' : Nat → Bool} {t u i m d : Nat} {a : Access} {p : Pc}

theorem SameFile.refl : SameFile s s held held i := ⟨rfl, rfl, rfl⟩

theorem UseRight.congr (h : UseRight s held m a)
    (hf : ∀ i, a.fileIndex = some i → SameFile s s' held held' i)
    (hd : ∀ d, a.dirIndex = some d → d < s.dirNext → (s.dir d).live = true →
      d < s'.dirNext ∧ s'.dir d = s.dir d) : UseRight s' held' m a := by
  have hdir : ∀ d, a.dirIndex = some d →
      (d < s.dirNext ∧ (s.dir d).dMp = m ∧ (s.dir d).live = true) →
      d < s'.dirNext ∧ (s'.dir d).dMp = m ∧ (s'.dir d).live = true := by
    rintro d hdi ⟨hlt, hmp, hlive⟩
    obtain ⟨hlt', heq⟩ := hd d hdi hlt hlive
    rw [heq]
    exact ⟨hlt', hmp, hlive⟩
  cases a with
  | «open» i flags => exact (hf i rfl).1.trans h
  | file op i =>
    obtain ⟨hstat, hmp, hheld⟩ := hf i rfl
    cases op with
    | close => exact ⟨hstat.trans h.1, hmp.trans h.2.1, hheld.trans h.2.2⟩
    | _ => exact ⟨hmp.trans h.1, hheld.trans h.2⟩
  | opendir => trivial
  | readdir d => exact hdir d rfl h
  | closedir d => exact hdir d rfl h
  | mkdir => trivial

theorem AfterRight.congr {ret : Int} (h : AfterRight s held m ret a)
    (hf : ∀ i, fileOf (.after a m ret) = some i → SameFile s s' held held' i) :
    AfterRight s' held' m ret a := by
  cases a with
  | «open» i flags =>
    intro hret
    obtain ⟨_, hmp, hheld⟩ := hf i (if_pos hret)
    obtain ⟨heq, h1, h2⟩ := h hret
    exact ⟨heq, hmp.trans h1, hheld.trans h2⟩
  | file op i =>
    obtain ⟨hstat, hmp, hheld⟩ := hf i rfl
    cases op with
    | close => exact ⟨hstat.trans h.1, hmp.trans h.2.1, hheld.trans h.2.2⟩
    | _ => exact ⟨hmp.trans h.1, hheld.trans h.2⟩
  | _ => trivial

theorem UserRight.congr (h : UserRight s held p)
    (hm : ∀ m, mountOf p = some m → m ∈ s.mountPoints → m ∈ s'.mountPoints)
    (hf : ∀ i, fileOf p = some i → SameFile s s' held held' i)
    (hd : ∀ d, dirOf p = some d → d < s.dirNext → (s.dir d).live = true →
      d < s'.dirNext ∧ s'.dir d = s.dir d) : UserRight s' held' p := by
  cases p with
  | idle => trivial
  | enter r => trivial
  | unheld r => trivial
  | spin op fd => trivial
  | wait a m =>
    refine ⟨hm m rfl h.1, h.2.1.congr hf hd, fun op i ha hop => ?_⟩
    subst ha
    exact (hf i rfl).1.trans (h.2.2 op i rfl hop)
  | inside a m => exact ⟨hm m rfl h.1, h.2.congr hf hd⟩
  | callback a m =>
    refine ⟨hm m rfl h.1, h.2.1.congr hf hd, fun i flags ha => ?_⟩
    subst ha
    exact (hf i rfl).2.1.trans (h.2.2 i flags rfl)
  | after a m ret => exact ⟨hm m rfl h.1, h.2.congr hf⟩
  | put i ret =>
    obtain ⟨hstat, _, hheld⟩ := hf i rfl
    rw [UserRight, hstat, hheld]
    exact h
  | pathInside op m => exact hm m rfl h
  | pathCallback op m => exact hm m rfl h
  | pathAfter ret => trivial

theorem SlotRight.congr (h : SlotRight s held i) (hf : SameFile s s' held held' i)
    (hslot : ∀ u, slotOf (s.pc u) = some i → ∃ v, slotOf (s'.pc v) = some i) :
    SlotRight s' held' i := by
  obtain ⟨hstat, hmp, hheld⟩ := hf
  unfold SlotRight at h ⊢
  rw [hstat, hmp, hheld]
  cases hst : (s.files i).fStatus with
  | notUsed =>
    rw [hst] at h
    exact h
  | initing =>
    rw [hst] at h
    obtain ⟨hno, u, hu⟩ := h
    exact ⟨hno, hslot u hu⟩
  | ready =>
    rw [hst] at h
    exact h
  | closing =>
    rw [hst] at h
    obtain ⟨hsome, u, hu⟩ := h
    exact ⟨hsome, hslot u hu⟩

/-- A slot in use by a call is its own, or a reference to it is counted. -/
theorem UserRight.file_cases (h : UserRight s held p) (hi : fileOf p = some i) :
    slotOf p = some i ∨ held i = true := by
  have huse : ∀ {a : Access} {m : Nat}, UseRight s held m a → a.fileIndex = some i →
      a.slot = some i ∨ held i = true := by
    intro a m hright hidx
    cases a with
    | «open» j flags => exact Or.inl hidx
    | file op j =>
      cases hidx
      cases op with
      | close => exact Or.inl rfl
      | _ => exact Or.inr hright.2
    | _ => cases hidx
  cases p with
  | wait a m => exact huse h.2.1 hi
  | inside a m => exact huse h.2 hi
  | callback a m => exact huse h.2.1 hi
  | after a m ret =>
    cases a with
    | «open» j flags =>
      rw [fileOf] at hi
      split at hi
      · rename_i hret
        cases hi
        exact Or.inr (h.2 hret).2.2
      · cases hi
    | file op j =>
      cases hi
      cases op with
      | close => exact Or.inl rfl
      | _ => exact Or.inr h.2.2
    | _ => cases hi
  | put j ret => exact Or.inl hi
  | _ => cases hi

theorem UserRight.slot_status (h : UserRight s held p) (hi : slotOf p = some i) :
    (s.files i).fStatus = .initing ∨ (s.files i).fStatus = .closing := by
  have huse : ∀ {a : Access} {m : Nat}, UseRight s held m a → a.slot = some i →
      (s.files i).fStatus = .initing ∨ (s.files i).fStatus = .closing := by
    intro a m hright hidx
    cases a with
    | «open» j flags =>
      cases hidx
      exact Or.inl hright
    | file op j =>
      cases op with
      | close =>
        cases hidx
        exact Or.inr hright.1
      | _ => cases hidx
    | _ => cases hidx
  cases p with
  | wait a m => exact huse h.2.1 hi
  | inside a m => exact huse h.2 hi
  | callback a m => exact huse h.2.1 hi
  | after a m ret =>
    cases a with
    | file op j =>
      cases op with
      | close =>
        cases hi
        exact Or.inr h.2.1
      | _ => cases hi
    | _ => cases hi
  | put j ret =>
    cases hi
    exact h.2
  | _ => cases hi

theorem slotOf_fileOf (h : slotOf p = some i) : fileOf p = some i := by
  have hacc : ∀ a : Access, a.slot = some i → a.fileIndex = some i := by
    intro a ha
    cases a with
    | «open» j flags => exact ha
    | file op j =>
      cases op with
      | close => exact ha
      | _ => cases ha
    | _ => cases ha
  cases p with
  | wait a m => exact hacc a h
  | inside a m => exact hacc a h
  | callback a m => exact hacc a h
  | after a m ret =>
    cases a with
    | file op j =>
      cases op with
      | close => exact h
      | _ => cases h
    | _ => cases h
  | put j ret => exact h
  | _ => cases h

namespace UserInv

theorem slot_notUsed (hi : UserInv s held) (h : (s.files i).fStatus = .notUsed) :
    held i = false ∧ (s.files i).fMp = none := by
  have hs := hi.slots i
  unfold SlotRight at hs
  rw [h] at hs
  exact hs

theorem slot_initing (hi : UserInv s held) (h : (s.files i).fStatus = .initing) : held i = false := by
  have hs := hi.slots i
  unfold SlotRight at hs
  rw [h] at hs
  exact hs.1

theorem slot_ready (hi : UserInv s held) (h : (s.files i).fStatus = .ready) : held i = true := by
  have hs := hi.slots i
  unfold SlotRight at hs
  rw [h] at hs
  exact hs.1

theorem no_user_of_free (hi : UserInv s held) (h : (s.files i).fStatus = .notUsed) (u : Nat) :
    fileOf (s.pc u) ≠ some i := by
  intro hu
  obtain hslot | hheld := (hi.tasks u).file_cases hu
  · obtain hst | hst := (hi.tasks u).slot_status hslot
    · rw [h] at hst
      cases hst
    · rw [h] at hst
      cases hst
  · rw [(hi.slot_notUsed h).1] at hheld
    cases hheld

theorem no_user_of_slot (hi : UserInv s held) (hslot : slotOf (s.pc t) = some i)
    (hheld : held i = false) (hne : u ≠ t) : fileOf (s.pc u) ≠ some i := by
  intro hu
  obtain hown | hyes := (hi.tasks u).file_cases hu
  · exact hne (hi.unique u t i hown hslot)
  · rw [hheld] at hyes
    cases hyes

theorem no_user_of_close (hi : UserInv s held) (hlock : LockInv s) (hslot : slotOf (s.pc t) = some i)
    (hstat : (s.files i).fStatus = .closing) (hmp : (s.files i).fMp = some m)
    (hhold : s.holder m = some t) (hne : u ≠ t) : fileOf (s.pc u) ≠ some i := by
  intro hu
  have hright := hi.tasks u
  have hlocks := hlock.tasks u
  have hown : slotOf (s.pc u) ≠ some i := fun h => hne (hi.unique u t i h hslot)
  have hsame : ∀ {n : Nat}, (s.files i).fMp = some n → s.holder n = some u → False := by
    intro n hn hh
    rw [hmp] at hn
    cases hn
    rw [hhold] at hh
    exact hne (Option.some.inj hh).symm
  cases hpc : s.pc u with
  | wait a n =>
    rw [hpc] at hu hown hright
    cases a with
    | file op j =>
      cases hu
      cases op with
      | close => exact hown rfl
      | _ =>
        have hready := hright.2.2 _ i rfl (by decide)
        rw [hstat] at hready
        cases hready
    | «open» j flags => exact hown hu
    | _ => cases hu
  | inside a n =>
    rw [hpc] at hu hown hright hlocks
    cases a with
    | file op j =>
      cases hu
      cases op with
      | close => exact hown rfl
      | _ => exact hsame hright.2.1 hlocks.2
    | «open» j flags => exact hown hu
    | _ => cases hu
  | callback a n =>
    rw [hpc] at hu hown hright hlocks
    cases a with
    | file op j =>
      cases hu
      cases op with
      | close => exact hown rfl
      | _ => exact hsame hright.2.1.1 hlocks.2
    | «open» j flags => exact hown hu
    | _ => cases hu
  | after a n ret =>
    rw [hpc] at hu hown hright hlocks
    cases a with
    | «open» j flags =>
      rw [fileOf] at hu
      split at hu
      · rename_i hret
        cases hu
        exact hsame (hright.2 hret).2.1 hlocks.2
      · cases hu
    | file op j =>
      cases hu
      cases op with
      | close => exact hown rfl
      | _ => exact hsame hright.2.1 hlocks.2
    | _ => cases hu
  | put j ret =>
    rw [hpc] at hu hown
    exact hown hu
  | _ =>
    rw [hpc] at hu
    cases hu

theorem step (hi : UserInv s held) (hpc : ∀ u, u ≠ t → s'.pc u = s.pc u)
    (ht : UserRight s' held' (s'.pc t)) (hothers : ∀ u, u ≠ t → UserRight s' held' (s.pc u))
    (hslots : ∀ i, SlotRight s' held' i)
    (hunique : ∀ u i, u ≠ t → slotOf (s'.pc t) = some i → slotOf (s.pc u) ≠ some i)
    (hdir : ∀ u d, u ≠ t → dirOf (s'.pc t) = some d → dirOf (s.pc u) = some d →
      closing (s'.pc t) = false ∧ closing (s.pc u) = false)
    (hfiles : ∀ i m, (s'.files i).fMp = some m → m ∈ s'.mountPoints)
    (hdirs : ∀ d < s'.dirNext, (s'.dir d).live = true → (s'.dir d).dMp ∈ s'.mountPoints)
    (hhigh : ∀ i, losMaxFiles ≤ i → (s'.files i).fStatus = .notUsed) : UserInv s' held' where
  tasks := fun u => by
    by_cases hu : u = t
    · rw [hu]
      exact ht
    · rw [hpc u hu]
      exact hothers u hu
  slots := hslots
  unique := fun u v i hu hv => by
    by_cases hut : u = t
    · by_cases hvt : v = t
      · rw [hut, hvt]
      · rw [hut] at hu
        rw [hpc v hvt] at hv
        exact absurd hv (hunique v i hvt hu)
    · by_cases hvt : v = t
      · rw [hvt] at hv
        rw [hpc u hut] at hu
        exact absurd hu (hunique u i hut hv)
      · rw [hpc u hut] at hu
        rw [hpc v hvt] at hv
        exact hi.unique u v i hu hv
  dirAlone := fun u v d hu hv hc => by
    by_cases hut : u = t
    · by_cases hvt : v = t
      · rw [hut, hvt]
      · rw [hut] at hu hc
        rw [hpc v hvt] at hv
        rw [(hdir v d hvt hu hv).1] at hc
        cases hc
    · rw [hpc u hut] at hu hc
      by_cases hvt : v = t
      · rw [hvt] at hv
        rw [(hdir u d hut hv hu).2] at hc
        cases hc
      · rw [hpc v hvt] at hv
        exact hi.dirAlone u v d hu hv hc
  fileMounted := hfiles
  dirMounted := hdirs
  high := hhigh

theorem move (hi : UserInv s held) (hfiles : s'.files = s.files) (hmounts : s'.mountPoints = s.mountPoints)
    (hdirs : s'.dir = s.dir) (hnext : s'.dirNext = s.dirNext) (hpc : ∀ u, u ≠ t → s'.pc u = s.pc u)
    (hright : UserRight s held (s'.pc t)) (hslot : slotOf (s'.pc t) = slotOf (s.pc t))
    (hdir : ∀ d, dirOf (s'.pc t) = some d → dirOf (s.pc t) = some d ∧
      closing (s'.pc t) = closing (s.pc t)) : UserInv s' held := by
  have hsame : ∀ i, SameFile s s' held held i := fun i => by
    unfold SameFile
    rw [hfiles]
    exact ⟨rfl, rfl, rfl⟩
  have hcongr : ∀ {p}, UserRight s held p → UserRight s' held p := fun h =>
    h.congr (fun m _ hm => by rw [hmounts]; exact hm) (fun i _ => hsame i) fun d _ hlt _ => by
      rw [hnext, hdirs]
      exact ⟨hlt, rfl⟩
  refine hi.step hpc (hcongr hright) (fun u _ => hcongr (hi.tasks u)) (fun i => ?_) ?_ ?_ ?_ ?_ ?_
  · refine (hi.slots i).congr (hsame i) fun u hu => ⟨u, ?_⟩
    by_cases hut : u = t
    · rw [hut, hslot, ← hut]
      exact hu
    · rw [hpc u hut]
      exact hu
  · intro u i hne ht hu
    rw [hslot] at ht
    exact hne (hi.unique u t i hu ht)
  · intro u d hne ht hu
    obtain ⟨hd, hc⟩ := hdir d ht
    rw [hc]
    constructor
    · by_contra h
      exact hne (hi.dirAlone t u d hd hu (by simpa using h)).symm
    · by_contra h
      exact hne (hi.dirAlone u t d hu hd (by simpa using h))
  · rw [hfiles, hmounts]
    exact hi.fileMounted
  · rw [hnext, hdirs, hmounts]
    exact hi.dirMounted
  · rw [hfiles]
    exact hi.high

theorem setSlot (hi : UserInv s held) (hmounts : s'.mountPoints = s.mountPoints) (hdirs : s'.dir = s.dir)
    (hnext : s'.dirNext = s.dirNext) (hpc : ∀ u, u ≠ t → s'.pc u = s.pc u)
    (hfile : ∀ j, j ≠ i → SameFile s s' held held' j) (hlow : i < losMaxFiles)
    (hfree : ∀ u, u ≠ t → fileOf (s.pc u) ≠ some i) (hright : UserRight s' held' (s'.pc t))
    (hslot : SlotRight s' held' i)
    (hkeep : ∀ j, j ≠ i → (slotOf (s'.pc t) = some j ↔ slotOf (s.pc t) = some j))
    (hdir : dirOf (s'.pc t) = none) (hmp : ∀ m, (s'.files i).fMp = some m → m ∈ s.mountPoints) :
    UserInv s' held' := by
  refine hi.step hpc hright (fun u hu => ?_) (fun j => ?_) ?_ ?_ ?_ ?_ ?_
  · refine (hi.tasks u).congr (fun m _ hm => by rw [hmounts]; exact hm) (fun j hj => ?_) fun d _ hlt _ => by
      rw [hnext, hdirs]
      exact ⟨hlt, rfl⟩
    exact hfile j fun h => hfree u hu (h ▸ hj)
  · by_cases hj : j = i
    · rw [hj]
      exact hslot
    · refine (hi.slots j).congr (hfile j hj) fun u hu => ⟨u, ?_⟩
      by_cases hut : u = t
      · rw [hut]
        exact (hkeep j hj).mpr (hut ▸ hu)
      · rw [hpc u hut]
        exact hu
  · intro u j hne ht hu
    by_cases hj : j = i
    · exact hfree u hne (hj ▸ slotOf_fileOf hu)
    · exact hne (hi.unique u t j hu ((hkeep j hj).mp ht))
  · intro u d _ ht
    rw [hdir] at ht
    cases ht
  · intro j m hjm
    rw [hmounts]
    by_cases hj : j = i
    · rw [hj] at hjm
      exact hmp m hjm
    · rw [(hfile j hj).2.1] at hjm
      exact hi.fileMounted j m hjm
  · rw [hnext, hdirs, hmounts]
    exact hi.dirMounted
  · intro j hj
    rw [(hfile j (by omega)).1]
    exact hi.high j hj

end UserInv

end

end LiteosM.Vfs
