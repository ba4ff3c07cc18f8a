import LiteosM.Vfs.Find
import LiteosM.Vfs.Lifetime

/-!
# The accounts of the virtual file system

The reference counts and the slots when no call is in progress, against the descriptors that
`los_open` returned and `los_close` did not take back.
-/

namespace LiteosM.Vfs

open LiteosM.Lib.Counting LiteosM.Lib.Path LiteosM.Lib.Transition

/-- `owned` has the descriptors that the callers of `los_open` have. -/
structure Ledger where
  vfs : VfsState
  owned : Nat → Bool

/-- A descriptor is owned from the return of its `los_open` to the return of its `los_close`. -/
def noteAt (owned : Nat → Bool) : Pc → Nat → Bool
  | .after (.open _ _) _ ret => if 0 ≤ ret then Function.update owned ret.toNat true else owned
  | .put i _ => Function.update owned i false
  | _ => owned

def noteOwned (s : VfsState) (owned : Nat → Bool) : VfsEvent → Nat → Bool
  | .run t _ => noteAt owned (s.pc t)
  | _ => owned

def ledgerStep (l : Ledger) (event : VfsEvent) : Option Ledger :=
  (vfsNext l.vfs event).map fun s => ⟨s, noteOwned l.vfs l.owned event⟩

def Quiescent (l : Ledger) : Prop := ∀ t, l.vfs.pc t = .idle

structure Balanced (l : Ledger) : Prop where
  slots : ∀ i < losMaxFiles, (l.vfs.files i).fStatus = if l.owned i then .ready else .notUsed
  refs : ∀ m ∈ l.vfs.mountPoints, (l.vfs.mp m).mRefs =
    (countBelow losMaxFiles fun i => l.owned i && decide ((l.vfs.files i).fMp = some m)) +
      openDirs l.vfs m
  fsRefs : ∀ f, (l.vfs.fs f).fsRefs = l.vfs.mountPoints.countP fun m => (l.vfs.mp m).mFs = f
  /-- A mount point with nothing open can be unmounted. -/
  unmounts : ∀ m ∈ l.vfs.mountPoints,
    (∀ i < losMaxFiles, l.owned i = true → (l.vfs.files i).fMp ≠ some m) →
    (∀ d < l.vfs.dirNext, (l.vfs.dir d).live = true → (l.vfs.dir d).dMp ≠ m) →
    ∀ t, (losFsUnmountEnter l.vfs t (l.vfs.mp m).mPath).2 = some 0

def MountsNamed (s : VfsState) : VfsEvent → Prop
  | .run t _ => ∀ fsname path, InSection s t (.mount fsname path) → components path ≠ []
  | _ => True

def Careful (s : VfsState) (event : VfsEvent) : Prop :=
  ClosesOk s event ∧ MountsNamed s event ∧ UnmountsFree s event ∧ DirUse s event

def LedgerStep (l : Ledger) (event : VfsEvent) (l' : Ledger) : Prop :=
  FsFree l.vfs event ∧ Careful l.vfs event ∧ ledgerStep l event = some l'

/-- The mount points have different components. -/
structure PathInv (s : VfsState) : Prop where
  named : ∀ m ∈ s.mountPoints, components (s.mp m).mPath ≠ []
  unique : ∀ m ∈ s.mountPoints, ∀ n ∈ s.mountPoints,
    components (s.mp m).mPath = components (s.mp n).mPath → m = n

/-- An owned slot is ready or about to be closed, and a ready slot is owned or about to be. -/
structure OwnInv (s : VfsState) (owned : Nat → Bool) : Prop where
  status : ∀ i, owned i = true → (s.files i).fStatus = .ready ∨ (s.files i).fStatus = .closing
  owner : ∀ i, (s.files i).fStatus = .ready →
    owned i = true ∨ ∃ t flags m, s.pc t = .after (.open i flags) m i

section

variable {s s' s₁ : VfsState} {held : Nat → Bool} {lost : Nat → Nat} {owned : Nat → Bool} {t u i m : Nat}
  {event : VfsEvent}

theorem Move.others (hmove : Move s event s') (hu : u ≠ event.task) : s'.pc u = s.pc u := by
  cases hmove with
  | stay => rfl
  | locks => rfl
  | unlocks => rfl
  | direct => exact pends_of_ne hu
  | openPends => exact pends_of_ne hu
  | attach =>
    split
    · exact pends_of_ne hu
    · exact pends_of_ne hu
  | dirPends => exact pends_of_ne hu
  | mount => exact leaves_of_ne hu
  | unmount => exact leaves_of_ne hu
  | granted =>
    split
    · exact setPc_of_ne hu
    · exact setPc_of_ne hu
  | @starts t m got a hpc =>
    refine (setPc_of_ne hu).trans ?_
    cases a <;> rfl
  | skips hpc hno hfin => exact (setPc_of_ne hu).trans (congrFun (inert_losFinish hfin).pc u)
  | ends hpc hfin =>
    exact (setPc_of_ne hu).trans (congrFun (inert_callbackOffset.trans (inert_losFinish hfin)).pc u)
  | _ => exact setPc_of_ne hu

/-- A call whose callback has ended goes on by a `run`. -/
theorem Move.after_kept {flags : Nat} {ret : Int} (hmove : Move s event s')
    (hpc : s.pc t = .after (.open i flags) m ret) :
    s'.pc t = s.pc t ∨ ∃ got, event = .run t got := by
  by_cases ht : t = event.task
  · cases event with
    | call u c =>
      change t = u at ht
      subst ht
      cases hmove with
      | stay => exact Or.inl rfl
      | enter r h => rw [hpc] at h; cases h
      | unheld r h => rw [hpc] at h; cases h
      | spins op fd h => rw [hpc] at h; cases h
      | direct h => rw [hpc] at h; cases h
    | run u got =>
      change t = u at ht
      exact Or.inr ⟨got, by rw [ht]⟩
    | ends u r offset =>
      change t = u at ht
      subst ht
      cases hmove with
      | stay => exact Or.inl rfl
      | ends h => rw [hpc] at h; cases h
      | pathEnds h => rw [hpc] at h; cases h
    | lock u => cases hmove <;> exact Or.inl rfl
    | unlock u => cases hmove <;> exact Or.inl rfl
  · exact Or.inl (hmove.others ht)

/-- How the status of a slot changes in a step. -/
inductive StatusMove (s s' : VfsState) (event : VfsEvent) (i : Nat) : Prop
  | same (h : (s'.files i).fStatus = (s.files i).fStatus)
  | got (h : (s.files i).fStatus = .notUsed) (h' : (s'.files i).fStatus = .initing)
  | closing (h : (s.files i).fStatus = .ready) (h' : (s'.files i).fStatus = .closing)
  | failed (h : (s.files i).fStatus = .initing) (h' : (s'.files i).fStatus = .notUsed)
  | opened {t flags m : Nat} (h : (s.files i).fStatus = .initing)
      (hpc : s'.pc t = .after (.open i flags) m i)
  | put {t : Nat} {got : Option Nat} {ret : Int} (h' : (s'.files i).fStatus = .notUsed)
      (hevent : event = .run t got) (hpc : s.pc t = .put i ret)

theorem fStatus_setFile {j : Nat} {st : FileStatus} :
    ((s.setFile j { s.files j with fStatus := st }).files i).fStatus =
      if i = j then st else (s.files i).fStatus := by
  by_cases hi : i = j
  · rw [hi, setFile_self, if_pos rfl]
  · rw [setFile_of_ne hi, if_neg hi]

theorem losFinish_status {a : Access} {ret r : Int} (huse : UseRight s held m a)
    (h : losFinish s m ret a = some (s₁, r)) :
    StatusMove s (s₁.setPc t (.after a m r)) event i := by
  cases a with
  | «open» file flags =>
    have hstat : (s.files file).fStatus = .initing := huse
    simp only [losFinish] at h
    split at h
    · cases h
      by_cases hi : i = file
      · subst hi
        exact .opened hstat setPc_self
      · refine .same ?_
        rw [setPc_files, setFile_of_ne hi]
        rfl
    · cases h
      by_cases hi : i = file
      · subst hi
        refine .failed hstat ?_
        rw [setPc_files, show (losFilePut s i).files i = _ from setFile_self]
      · refine .same ?_
        rw [setPc_files, show (losFilePut s file).files i = _ from setFile_of_ne hi]
  | file op file =>
    cases op with
    | close =>
      simp only [losFinish] at h
      split at h
      · obtain ⟨n, _, hn⟩ := Option.bind_eq_some_iff.mp h
        cases hn
        exact .same rfl
      · cases h
        exact .same rfl
    | _ =>
      cases h
      exact .same rfl
  | opendir =>
    simp only [losFinish] at h
    split at h
    · split at h
      · cases h
        exact .same rfl
      · cases h
    · cases h
      exact .same rfl
  | closedir d =>
    simp only [losFinish] at h
    split at h
    · cases h
      exact .same rfl
    · cases h
      exact .same rfl
  | _ =>
    cases h
    exact .same rfl

theorem callbackOffset_status {a : Access} {offset : Int} :
    ((callbackOffset s offset a).files i).fStatus = (s.files i).fStatus := by
  have hset : ∀ file, ((s.setFile file { s.files file with fOffset := offset }).files i).fStatus =
      (s.files i).fStatus := by
    intro file
    by_cases hi : i = file
    · rw [hi, setFile_self]
    · rw [setFile_of_ne hi]
  cases a with
  | «open» file flags => exact hset file
  | file op file => exact hset file
  | _ => rfl

theorem Move.status (hmove : Move s event s') (hi : VfsInv s held lost) (i : Nat) :
    StatusMove s s' event i := by
  cases hmove with
  | @openFails t file got r hpc hown hfile hfree =>
    have hst : ((s.setFile file { s.files file with fStatus := .initing }).files i).fStatus = _ :=
      fStatus_setFile
    by_cases h : i = file
    · rw [if_pos h] at hst
      subst h
      exact .got hfree hst
    · rw [if_neg h] at hst
      exact .same hst
  | @openPends t file flags m got r hpc hown hfile hfree hm hstat =>
    have hst : ((s.setFile file { s.files file with fStatus := .initing }).files i).fStatus = _ :=
      fStatus_setFile
    by_cases h : i = file
    · rw [if_pos h] at hst
      subst h
      exact .got hfree hst
    · rw [if_neg h] at hst
      exact .same hst
  | @attach t fd m got r op hpc hown hready hmp hstat =>
    split
    · have hst : ((s.setFile fd { s.files fd with fStatus := .closing }).files i).fStatus = _ :=
        fStatus_setFile
      by_cases h : i = fd
      · rw [if_pos h] at hst
        subst h
        exact .closing hready hst
      · rw [if_neg h] at hst
        exact .same hst
    · exact .same rfl
  | granted hpc hown =>
    split
    · exact .same rfl
    · exact .same rfl
  | @starts t m got a hpc =>
    refine .same ?_
    cases a with
    | «open» file flags =>
      rw [setPc_files]
      by_cases h : i = file
      · rw [h, show (losOpenFields s t (.open file flags) m).files file = _ from setFile_self]
      · rw [show (losOpenFields s t (.open file flags) m).files i = _ from setFile_of_ne h]
    | _ => rfl
  | @skips t m got a s₁ ret hpc hno hfin =>
    have hright := hi.users.tasks t
    rw [hpc] at hright
    exact losFinish_status hright.2 hfin
  | @ends t m a s₁ ret r offset hpc hfin =>
    have hi' : VfsInv (Vfs.callbackOffset s offset a) held lost := hi.callbackOffset
    have hpc' : (Vfs.callbackOffset s offset a).pc = s.pc := by cases a <;> rfl
    have hright := hi'.users.tasks t
    rw [hpc', hpc] at hright
    have hst : ((Vfs.callbackOffset s offset a).files i).fStatus = (s.files i).fStatus :=
      callbackOffset_status
    have hends : StatusMove (Vfs.callbackOffset s offset a) (s₁.setPc t (.after a m r))
        (.ends t ret offset) i := losFinish_status hright.2.1 hfin
    cases hends with
    | same h => exact .same (h.trans hst)
    | got h h' => exact .got (hst.symm.trans h) h'
    | closing h h' => exact .closing (hst.symm.trans h) h'
    | failed h h' => exact .failed (hst.symm.trans h) h'
    | opened h hpc => exact .opened (hst.symm.trans h) hpc
    | put h' hevent hpc => cases hevent
  | @puts t j got ret hpc =>
    by_cases h : i = j
    · subst h
      refine .put ?_ rfl hpc
      rw [setPc_files, show (losFilePut s i).files i = _ from setFile_self]
    · refine .same ?_
      rw [setPc_files, show (losFilePut s j).files i = _ from setFile_of_ne h]
  | _ => exact .same rfl

theorem StatusMove.kept (hm : StatusMove s s' event i)
    (h : (s.files i).fStatus = .ready ∨ (s.files i).fStatus = .closing)
    (hput : ∀ t got ret, event = .run t got → s.pc t ≠ .put i ret) :
    (s'.files i).fStatus = .ready ∨ (s'.files i).fStatus = .closing := by
  have hno : ∀ st, (s.files i).fStatus = st → st = .notUsed ∨ st = .initing → False := by
    rintro st hst (rfl | rfl)
    · rw [hst] at h
      obtain h | h := h <;> cases h
    · rw [hst] at h
      obtain h | h := h <;> cases h
  cases hm with
  | same heq =>
    rw [heq]
    exact h
  | got h0 _ => exact absurd (Or.inl rfl) (hno _ h0)
  | closing _ h' => exact Or.inr h'
  | failed h0 _ => exact absurd (Or.inr rfl) (hno _ h0)
  | opened h0 _ => exact absurd (Or.inr rfl) (hno _ h0)
  | put _ hevent hpc => exact absurd hpc (hput _ _ _ hevent)

theorem UserInv.held_status (hi : UserInv s held) (h : held i = true) :
    (s.files i).fStatus = .ready ∨ (s.files i).fStatus = .closing := by
  cases hst : (s.files i).fStatus with
  | notUsed =>
    rw [(hi.slot_notUsed hst).1] at h
    cases h
  | initing =>
    rw [hi.slot_initing hst] at h
    cases h
  | ready => exact Or.inl rfl
  | closing => exact Or.inr rfl

theorem noteAt_other {p : Pc} (h : ∀ j flags m ret, p = .after (.open j flags) m ret → ¬ 0 ≤ ret)
    (hput : ∀ j ret, p ≠ .put j ret) : noteAt owned p = owned := by
  cases p with
  | after a m ret =>
    cases a with
    | «open» j flags => exact if_neg (h j flags m ret rfl)
    | _ => rfl
  | put j ret => exact absurd rfl (hput j ret)
  | _ => rfl

theorem noteOwned_cases (hi : UserInv s held) (h : noteOwned s owned event i = true) :
    (owned i = true ∨ held i = true) ∧ ∀ t got ret, event = .run t got → s.pc t ≠ .put i ret := by
  cases event with
  | call t c => exact ⟨Or.inl h, fun _ _ _ h => by cases h⟩
  | ends t ret offset => exact ⟨Or.inl h, fun _ _ _ h => by cases h⟩
  | lock t => exact ⟨Or.inl h, fun _ _ _ h => by cases h⟩
  | unlock t => exact ⟨Or.inl h, fun _ _ _ h => by cases h⟩
  | run t got =>
    change noteAt owned (s.pc t) i = true at h
    have hput : ∀ ret, s.pc t ≠ .put i ret := by
      intro ret hpc
      rw [hpc] at h
      change Function.update owned i false i = true at h
      rw [Function.update_self] at h
      cases h
    refine ⟨?_, fun u g ret heq => by cases heq; exact hput ret⟩
    by_cases hnew : ∃ j flags m ret, s.pc t = .after (.open j flags) m ret ∧ 0 ≤ ret
    · obtain ⟨j, flags, m, ret, hpc, hret⟩ := hnew
      have hright := hi.tasks t
      rw [hpc] at hright h
      obtain ⟨heq, _, hheld⟩ := hright.2 hret
      change (if 0 ≤ ret then Function.update owned ret.toNat true else owned) i = true at h
      rw [if_pos hret, heq, Int.toNat_natCast] at h
      by_cases hij : i = j
      · rw [hij]
        exact Or.inr hheld
      · rw [Function.update_of_ne hij] at h
        exact Or.inl h
    · by_cases hslot : ∃ j ret, s.pc t = .put j ret
      · obtain ⟨j, ret, hpc⟩ := hslot
        rw [hpc] at h
        change Function.update owned j false i = true at h
        by_cases hij : i = j
        · rw [hij, Function.update_self] at h
          cases h
        · rw [Function.update_of_ne hij] at h
          exact Or.inl h
      · rw [noteAt_other (fun j flags m ret hpc hret => hnew ⟨j, flags, m, ret, hpc, hret⟩)
          fun j ret hpc => hslot ⟨j, ret, hpc⟩] at h
        exact Or.inl h

theorem noteOwned_kept (h : owned i = true)
    (hput : ∀ t got ret, event = .run t got → s.pc t ≠ .put i ret) : noteOwned s owned event i = true := by
  cases event with
  | call t c => exact h
  | ends t ret offset => exact h
  | lock t => exact h
  | unlock t => exact h
  | run t got =>
    show noteAt owned (s.pc t) i = true
    cases hpc : s.pc t with
    | after a m ret =>
      cases a with
      | «open» j flags =>
        show (if 0 ≤ ret then Function.update owned ret.toNat true else owned) i = true
        split
        · by_cases hij : i = ret.toNat
          · rw [hij, Function.update_self]
          · rw [Function.update_of_ne hij]
            exact h
        · exact h
      | _ => exact h
    | put j ret =>
      show Function.update owned j false i = true
      rw [Function.update_of_ne]
      · exact h
      · rintro rfl
        exact hput t got ret rfl hpc
    | _ => exact h

theorem Move.own (hmove : Move s event s') (hi : VfsInv s held lost) (ho : OwnInv s owned) :
    OwnInv s' (noteOwned s owned event) where
  status := fun i hown => by
    obtain ⟨hbefore, hput⟩ := noteOwned_cases hi.users hown
    refine (hmove.status hi i).kept ?_ hput
    obtain h | h := hbefore
    · exact ho.status i h
    · exact hi.users.held_status h
  owner := fun i hready => by
    have hold : (s.files i).fStatus = .ready → noteOwned s owned event i = true ∨
        ∃ t flags m, s'.pc t = .after (.open i flags) m i := by
      intro hst
      obtain hown | ⟨t, flags, m, hpc⟩ := ho.owner i hst
      · refine Or.inl (noteOwned_kept hown fun t got ret _ hput => ?_)
        have hright := hi.users.tasks t
        rw [hput] at hright
        obtain ⟨_, h | h⟩ := hright
        · rw [hst] at h
          cases h
        · rw [hst] at h
          cases h
      · obtain hkept | ⟨got, rfl⟩ := hmove.after_kept hpc
        · exact Or.inr ⟨t, flags, m, hkept.trans hpc⟩
        · refine Or.inl ?_
          show noteAt owned (s.pc t) i = true
          rw [hpc]
          show (if 0 ≤ (i : Int) then Function.update owned (i : Int).toNat true else owned) i = true
          rw [if_pos (Int.natCast_nonneg i), Int.toNat_natCast, Function.update_self]
    cases hmove.status hi i with
    | same h => exact hold (h.symm.trans hready)
    | got h h' => rw [h'] at hready; cases hready
    | closing h h' => exact hold h
    | failed h h' => rw [h'] at hready; cases hready
    | opened h hpc => exact Or.inr ⟨_, _, _, hpc⟩
    | put h' hevent hpc => rw [h'] at hready; cases hready

theorem Move.pathInv (hmove : Move s event s') (hlock : LockInv s) (hi : PathInv s)
    (hc : MountsNamed s event) : PathInv s' := by
  have hsame : ∀ s₁ : VfsState, (∀ m ∈ s₁.mountPoints, m ∈ s.mountPoints) →
      (∀ m, (s₁.mp m).mPath = (s.mp m).mPath) → PathInv s₁ := by
    intro s₁ hmem hpath
    refine ⟨fun m hm => ?_, fun m hm n hn h => ?_⟩
    · rw [hpath]
      exact hi.named m (hmem m hm)
    · rw [hpath, hpath] at h
      exact hi.unique m (hmem m hm) n (hmem n hn) h
  cases hmove with
  | @mount t f h fsname path hin hfs hfind hbound hnew =>
    have hnamed := hc fsname path hin
    have hold : ∀ m ∈ s.mountPoints, (addMountPoint s f path h).mp m = s.mp m := fun m hm =>
      addMountPoint_mp fun heq => by
        have := hlock.mounted m hm
        omega
    have hnot : ∀ m ∈ s.mountPoints, components (s.mp m).mPath ≠ components path := by
      intro m hm heq
      refine hfind ?_
      rw [losMpFind_self hm heq.symm hnamed fun k hk h => hi.unique k hk m hm (h.trans heq.symm)]
      rfl
    refine ⟨fun m hm => ?_, fun m hm n hn heq => ?_⟩
    · show components ((addMountPoint s f path h).mp m).mPath ≠ []
      obtain rfl | hm := List.mem_cons.mp hm
      · rw [addMountPoint_self]
        exact hnamed
      · rw [hold m hm]
        exact hi.named m hm
    · change components ((addMountPoint s f path h).mp m).mPath =
        components ((addMountPoint s f path h).mp n).mPath at heq
      obtain rfl | hm := List.mem_cons.mp hm
      · obtain rfl | hn := List.mem_cons.mp hn
        · rfl
        · rw [addMountPoint_self, hold n hn] at heq
          exact absurd heq.symm (hnot n hn)
      · obtain rfl | hn := List.mem_cons.mp hn
        · rw [addMountPoint_self, hold m hm] at heq
          exact absurd heq (hnot m hm)
        · rw [hold m hm, hold n hn] at heq
          exact hi.unique m hm n hn heq
  | unmount hin hm => exact hsame _ (fun n hn => List.mem_of_mem_erase hn) fun _ => rfl
  | attach =>
    split
    · exact hsame _ (fun _ h => h) fun _ => rfl
    · exact hsame _ (fun _ h => h) fun _ => rfl
  | granted =>
    split
    · exact hsame _ (fun _ h => h) fun _ => rfl
    · exact hsame _ (fun _ h => h) fun _ => rfl
  | @starts t m got a hpc =>
    have hin : Inert s (losOpenFields s t a m) m := inert_losOpenFields
    exact hsame _ (fun _ h => hin.mountPoints ▸ h) hin.mPath
  | skips hpc hno hfin =>
    have hin := inert_losFinish hfin
    exact hsame _ (fun _ h => hin.mountPoints ▸ h) hin.mPath
  | @ends t m a s₁ ret r offset hpc hfin =>
    have hin : Inert s s₁ m := inert_callbackOffset.trans (inert_losFinish hfin)
    exact hsame _ (fun _ h => hin.mountPoints ▸ h) hin.mPath
  | _ => exact hsame _ (fun _ h => h) fun _ => rfl

/-- References that are not lost stay far from an overflow. -/
theorem VfsInv.refsFit (hi : VfsInv s held lost) (hlost : ∀ m, lost m = 0) : RefsFit s event := by
  cases event with
  | ends t ret offset =>
    intro _ a m hpc _
    have hright := hi.users.tasks t
    rw [hpc] at hright
    have href := hi.refs.refs m hright.1
    have hfiles : openFiles s held m ≤ losMaxFiles := countBelow_le
    have hdirs : openDirs s m ≤ liveDirs s := countBelow_mono fun d _ h => (Bool.and_eq_true_iff.mp h).1
    have hlive := hi.refs.dirs
    rw [href, hlost m]
    unfold losMaxFiles at hfiles
    omega
  | _ => trivial

theorem VfsInv.quiescent (hi : VfsInv s held lost) (ho : OwnInv s owned) (hq : ∀ t, s.pc t = .idle) (i : Nat) :
    held i = owned i ∧ (s.files i).fStatus = if owned i then .ready else .notUsed := by
  have hslot := hi.users.slots i
  unfold SlotRight at hslot
  cases hst : (s.files i).fStatus with
  | notUsed =>
    rw [hst] at hslot
    have hno : owned i = false := by
      by_contra h
      obtain h | h := ho.status i (by simpa using h)
      · rw [hst] at h
        cases h
      · rw [hst] at h
        cases h
    rw [hno]
    exact ⟨hslot.1, rfl⟩
  | initing =>
    rw [hst] at hslot
    obtain ⟨_, t, ht⟩ := hslot
    rw [hq t] at ht
    cases ht
  | ready =>
    rw [hst] at hslot
    have hyes : owned i = true := by
      obtain h | ⟨t, flags, m, hpc⟩ := ho.owner i hst
      · exact h
      · rw [hq t] at hpc
        cases hpc
    rw [hyes]
    exact ⟨hslot.1, rfl⟩
  | closing =>
    rw [hst] at hslot
    obtain ⟨_, t, ht⟩ := hslot
    rw [hq t] at ht
    cases ht

end

/-- The accounts of a run. -/
structure LedgerInv (l : Ledger) (held : Nat → Bool) (lost : Nat → Nat) : Prop where
  vfs : VfsInv l.vfs held lost
  own : OwnInv l.vfs l.owned
  path : PathInv l.vfs
  lost : ∀ m, lost m = 0

section

variable {l l' : Ledger} {held : Nat → Bool} {lost : Nat → Nat} {event : VfsEvent}

theorem LedgerInv.step (hi : LedgerInv l held lost) (hstep : LedgerStep l event l') :
    ∃ held' lost', LedgerInv l' held' lost' := by
  obtain ⟨hfree, ⟨hclose, hnamed, hunmount, hdir⟩, hstep⟩ := hstep
  obtain ⟨s', hs', rfl⟩ := Option.map_eq_some_iff.mp hstep
  have hmove := vfsNext_move hs'
  have hturn : Turn l.vfs event := ⟨vfsNext_runs hs', hfree⟩
  obtain ⟨held', lost', hi', hlost⟩ := hmove.vfsInv hi.vfs hturn hunmount hdir (hi.vfs.refsFit hi.lost)
  exact ⟨held', lost', hi', hmove.own hi.vfs hi.own, hmove.pathInv hi.vfs.locks hi.path hnamed,
    hlost hclose hi.lost⟩

theorem LedgerInv.balanced (hi : LedgerInv l held lost) (hq : Quiescent l) : Balanced l := by
  have hslot := hi.vfs.quiescent hi.own hq
  have hheld : held = l.owned := funext fun i => (hslot i).1
  have hrefs : ∀ m ∈ l.vfs.mountPoints, (l.vfs.mp m).mRefs =
      (countBelow losMaxFiles fun i => l.owned i && decide ((l.vfs.files i).fMp = some m)) +
        openDirs l.vfs m := by
    intro m hm
    have href := hi.vfs.refs.refs m hm
    rw [hi.lost m, hheld] at href
    exact href
  refine ⟨fun i _ => (hslot i).2, hrefs, hi.vfs.mounts.fsRefs, fun m hm hfiles hdirs t => ?_⟩
  have hzero : (l.vfs.mp m).mRefs = 0 := by
    have hnofile : (countBelow losMaxFiles fun i =>
        l.owned i && decide ((l.vfs.files i).fMp = some m)) = 0 := countBelow_zero fun i hlt => by
      cases hown : l.owned i with
      | false => rfl
      | true => rw [Bool.true_and, decide_eq_false (hfiles i hlt hown)]
    have hnodir : openDirs l.vfs m = 0 := countBelow_zero fun d hd => by
      cases hlive : (l.vfs.dir d).live with
      | false => rfl
      | true => rw [Bool.true_and, decide_eq_false (hdirs d hd hlive)]
    rw [hrefs m hm, hnofile, hnodir]
  have hfind : losMpFind l.vfs (l.vfs.mp m).mPath = some (m, []) :=
    losMpFind_self hm rfl (hi.path.named m hm) fun k hk h => hi.path.unique k hk m hm h
  have hunmounts : losFsUnmounts l.vfs (l.vfs.mp m).mPath = some m := by
    unfold losFsUnmounts
    rw [hfind]
    exact if_neg fun h => h.elim (fun h => h rfl) fun h => h hzero
  unfold losFsUnmountEnter
  rw [hunmounts]
  rfl

/-- The accounts are right whenever no call is in progress. -/
theorem losVfs_balanced {s₀ : VfsState} {events : List VfsEvent} (hb : VfsBooted s₀)
    (hrun : Run LedgerStep ⟨s₀, fun _ => false⟩ events l) (hq : Quiescent l) : Balanced l := by
  obtain ⟨held, lost, hi⟩ : ∃ held lost, LedgerInv l held lost := by
    refine run_invariant (fun l => ∃ held lost, LedgerInv l held lost) ?_ hrun ⟨_, _, vfsBooted_inv hb, ?_, ?_,
      fun _ => rfl⟩
    · rintro l event l' ⟨held, lost, hi⟩ hstep
      exact hi.step hstep
    · exact ⟨fun i h => (by cases h), fun i h => by rw [(hb.files i).1] at h; cases h⟩
    · exact ⟨fun m hm => (by rw [hb.mountPoints] at hm; cases hm), fun m hm => by
        rw [hb.mountPoints] at hm
        cases hm⟩
  exact hi.balanced hq

end

theorem ledger_others {l l' : Ledger} {u : Nat} {events : List VfsEvent}
    (hrun : Run (fun l event l' => ledgerStep l event = some l') l events l')
    (hu : ∀ event ∈ events, u ≠ event.task) : l'.vfs.pc u = l.vfs.pc u := by
  induction hrun with
  | nil => rfl
  | snoc _ last ih =>
    obtain ⟨s, hs, rfl⟩ := Option.map_eq_some_iff.mp last
    refine ((vfsNext_move hs).others ?_).trans (ih fun e he => hu e (List.mem_append_left _ he))
    exact hu _ (List.mem_append_right _ (List.mem_singleton_self _))

def Pc.isIdle : Pc → Bool
  | .idle => true
  | _ => false

theorem Pc.isIdle_eq {p : Pc} (h : p.isIdle = true) : p = .idle := by
  unfold Pc.isIdle at h
  split at h
  · rfl
  · cases h

/-- What the place of the task shows of `ClosesOk` and `MountsNamed`. -/
def carefulStep (s : VfsState) : VfsEvent → Bool
  | .run t _ =>
    match s.pc t with
    | .inside (.file .close i) m => hasCallback s (.file .close i) m
    | .enter (.mount _ path) => components path ≠ []
    | .unheld _ => false
    | _ => true
  | .ends t ret _ =>
    match s.pc t with
    | .callback (.file .close _) _ => ret = 0
    | _ => true
  | _ => true

theorem carefulStep_closesOk {s : VfsState} {event : VfsEvent} (h : carefulStep s event = true) :
    ClosesOk s event := by
  cases event with
  | run t got =>
    intro i m hpc
    simpa only [carefulStep, hpc] using h
  | ends t ret offset =>
    intro i m hpc
    simpa only [carefulStep, hpc, decide_eq_true_eq] using h
  | _ => trivial

theorem carefulStep_mountsNamed {s : VfsState} {event : VfsEvent} (h : carefulStep s event = true) :
    MountsNamed s event := by
  cases event with
  | run t got =>
    intro fsname path hin
    obtain ⟨hpc, _⟩ | ⟨hpc, _⟩ := hin
    · simpa only [carefulStep, hpc, decide_eq_true_eq] using h
    · simp only [carefulStep, hpc] at h
      cases h
  | _ => trivial

/-- The files and directories of two mount points are open, then only a directory of the second. -/
theorem losVfs_balanced_small :
    VfsBooted smallVfs ∧ ∀ x ∈ [(18, [1, 0], 1, true), (33, [1, 0], 0, false), (35, [1], 0, false)],
      ∃ l, Run LedgerStep ⟨smallVfs, fun _ => false⟩ (smallUnmounted.take x.1) l ∧ Quiescent l ∧
        l.vfs.mountPoints = x.2.1 ∧ (l.vfs.mp 0).mRefs = x.2.2.1 ∧ l.owned 0 = x.2.2.2 ∧
        (l.vfs.mp 1).mRefs = 1 ∧ Balanced l := by
  refine ⟨smallVfs_booted, fun x hx => ?_⟩
  have hrun : ((smallUnmounted.take x.1).foldlM (guarded (fun l event =>
      (quietStep l.vfs event = true ∧ unhurriedStep l.vfs event = true) ∧ carefulStep l.vfs event = true)
        ledgerStep) ⟨smallVfs, fun _ => false⟩).map
      (fun l => ((l.vfs.mountPoints, (l.vfs.mp 0).mRefs, l.owned 0, (l.vfs.mp 1).mRefs),
        (l.vfs.pc 1).isIdle, (l.vfs.pc 2).isIdle)) =
        some ((x.2.1, x.2.2.1, x.2.2.2, 1), true, true) := by
    simp only [List.mem_cons, List.not_mem_nil, or_false] at hx
    rcases hx with rfl | rfl | rfl <;> decide +kernel
  obtain ⟨l, hl, hval⟩ := Option.map_eq_some_iff.mp hrun
  simp only [Prod.mk.injEq] at hval
  obtain ⟨⟨hmounts, hrefs, howned, hrefs'⟩, hpc, hpc'⟩ := hval
  have hguarded := run_of_guarded hl
  have hsteps : Run LedgerStep ⟨smallVfs, fun _ => false⟩ (smallUnmounted.take x.1) l := by
    refine run_mono (fun l event l' h => ?_) hguarded
    obtain ⟨hstep, ⟨hquiet, hunhurried⟩, hcareful⟩ := h
    obtain ⟨hunmount, hdir, _⟩ := unhurriedStep_unhurried hunhurried
    exact ⟨quietStep_fsFree hquiet, ⟨carefulStep_closesOk hcareful, carefulStep_mountsNamed hcareful,
      hunmount, hdir⟩, hstep⟩
  have hq : Quiescent l := by
    intro u
    by_cases h1 : u = 1
    · exact h1 ▸ Pc.isIdle_eq hpc
    · by_cases h2 : u = 2
      · exact h2 ▸ Pc.isIdle_eq hpc'
      · refine ledger_others (run_mono (fun _ _ _ h => h.1) hguarded) fun event he => ?_
        have htask : ∀ event ∈ smallUnmounted, event.task = 1 ∨ event.task = 2 := by decide +kernel
        obtain h | h := htask event (List.mem_of_mem_take he)
        · exact h ▸ h1
        · exact h ▸ h2
  exact ⟨l, hsteps, hq, hmounts, hrefs, howned, hrefs', losVfs_balanced smallVfs_booted hsteps hq⟩

def smallClose : List VfsEvent :=
  [.call 1 (.close 0), .run 1 none, .run 1 none, .run 1 none, .ends 1 (-1) 0, .run 1 none, .run 1 none]

/-- The reference stays, and the mount point cannot be unmounted. -/
theorem losClose_leaks :
    ∃ l, Run (fun l event l' => ledgerStep l event = some l') ⟨smallVfs, fun _ => false⟩
        (smallMount ++ smallOpen ++ smallClose) l ∧
      Quiescent l ∧ (l.vfs.mp 0).mRefs = 1 ∧ (losFsUnmountEnter l.vfs 1 "/a".toList).2 = some 1 ∧
      ¬ Balanced l := by
  have hrun : ((smallMount ++ smallOpen ++ smallClose).foldlM ledgerStep ⟨smallVfs, fun _ => false⟩).map
      (fun l => ((l.vfs.mp 0).mRefs, (losFsUnmountEnter l.vfs 1 "/a".toList).2, l.vfs.mountPoints,
        (countBelow losMaxFiles fun i => l.owned i && decide ((l.vfs.files i).fMp = some 0)) +
          openDirs l.vfs 0, (l.vfs.pc 1).isIdle)) =
      some (1, some 1, [0], 0, true) := by
    decide +kernel
  rw [Option.map_eq_some_iff] at hrun
  obtain ⟨l, hl, hval⟩ := hrun
  rw [Prod.mk.injEq, Prod.mk.injEq, Prod.mk.injEq, Prod.mk.injEq] at hval
  obtain ⟨hrefs, hunmount, hmounts, hopen, hpc⟩ := hval
  refine ⟨l, run_of_foldlM hl, fun t => ?_, hrefs, hunmount, fun h => ?_⟩
  · by_cases ht : t = 1
    · rw [ht]
      exact Pc.isIdle_eq hpc
    · refine ledger_others (run_of_foldlM hl) fun event he => ?_
      have htask : event.task = 1 := by
        revert event
        decide +kernel
      rw [htask]
      exact ht
  · have href := h.refs 0 (by rw [hmounts]; exact List.mem_singleton.mpr rfl)
    rw [hrefs, hopen] at href
    cases href

end LiteosM.Vfs
