import LiteosM.Vfs.Users

/-!
# The references to the mount points

`m_refs` counts the held slots and the open directories of a mount point, and the references that were
lost by a `los_close` whose callback failed.
-/

namespace LiteosM.Vfs

open LiteosM.Lib.Counting

def openFiles (s : VfsState) (held : Nat → Bool) (m : Nat) : Nat :=
  countBelow losMaxFiles fun i => held i && decide ((s.files i).fMp = some m)

def openDirs (s : VfsState) (m : Nat) : Nat :=
  countBelow s.dirNext fun d => (s.dir d).live && decide ((s.dir d).dMp = m)

structure RefsInv (s : VfsState) (held : Nat → Bool) (lost : Nat → Nat) : Prop where
  refs : ∀ m ∈ s.mountPoints, (s.mp m).mRefs = openFiles s held m + openDirs s m + lost m
  small : ∀ m ∈ s.mountPoints, (s.mp m).mRefs < 2 ^ 32
  dirs : liveDirs s < 2 ^ 30

structure VfsInv (s : VfsState) (held : Nat → Bool) (lost : Nat → Nat) : Prop where
  locks : LockInv s
  mounts : MountInv s
  users : UserInv s held
  refs : RefsInv s held lost

section

variable {s s' s₁ : VfsState} {held held' : Nat → Bool} {lost lost' : Nat → Nat} {t u i m d : Nat}
  {a : Access} {p : Pc}

theorem openFiles_congr (h : ∀ j < losMaxFiles, held' j = held j ∧
    (held j = true → (s'.files j).fMp = (s.files j).fMp)) : openFiles s' held' m = openFiles s held m := by
  refine countBelow_congr fun j hj => ?_
  obtain ⟨hheld, hmp⟩ := h j hj
  rw [hheld]
  cases hb : held j with
  | false => rfl
  | true => rw [hmp hb]

theorem RefsInv.congr (hi : RefsInv s held lost) (hmounts : s'.mountPoints = s.mountPoints)
    (hrefs : ∀ m, (s'.mp m).mRefs = (s.mp m).mRefs) (hdirs : s'.dir = s.dir)
    (hnext : s'.dirNext = s.dirNext) (hfiles : ∀ j < losMaxFiles, held' j = held j ∧
      (held j = true → (s'.files j).fMp = (s.files j).fMp)) : RefsInv s' held' lost where
  refs := fun m hm => by
    rw [hmounts] at hm
    rw [hrefs, openFiles_congr hfiles, hi.refs m hm]
    unfold openDirs
    rw [hnext, hdirs]
  small := fun m hm => by
    rw [hmounts] at hm
    rw [hrefs]
    exact hi.small m hm
  dirs := by
    unfold liveDirs
    rw [hnext, hdirs]
    exact hi.dirs

theorem refsInc_mRefs (hlt : (s.mp m).mRefs + 1 < 2 ^ 32) : ((refsInc s m).mp m).mRefs = (s.mp m).mRefs + 1 := by
  unfold refsInc
  rw [setMp_self]
  exact Nat.mod_eq_of_lt hlt

theorem refsDec_mRefs (hpos : 0 < (s.mp m).mRefs) (hlt : (s.mp m).mRefs < 2 ^ 32) :
    ((refsDec s m).mp m).mRefs = (s.mp m).mRefs - 1 := by
  unfold refsDec
  rw [setMp_self]
  show ((s.mp m).mRefs + (2 ^ 32 - 1)) % 2 ^ 32 = (s.mp m).mRefs - 1
  omega

theorem refsInc_of_ne {n : Nat} (hne : n ≠ m) : (refsInc s m).mp n = s.mp n := setMp_of_ne hne

theorem refsDec_of_ne {n : Nat} (hne : n ≠ m) : (refsDec s m).mp n = s.mp n := setMp_of_ne hne

theorem openFiles_hold (hi : i < losMaxFiles) (hmp : (s'.files i).fMp = some m) (hno : held i = false)
    (hyes : held' i = true) (hother : ∀ j, j ≠ i → held' j = held j ∧ (s'.files j).fMp = (s.files j).fMp)
    (n : Nat) : openFiles s' held' n = openFiles s held n + if n = m then 1 else 0 := by
  by_cases hn : n = m
  · rw [if_pos hn]
    refine countBelow_insert hi ?_ ?_ fun j hj => ?_
    · rw [hno]
      rfl
    · rw [hyes, hmp, hn]
      exact decide_eq_true rfl
    · rw [(hother j hj).1, (hother j hj).2]
  · rw [if_neg hn]
    show openFiles s' held' n = openFiles s held n
    refine countBelow_congr fun j hj => ?_
    by_cases hji : j = i
    · rw [hji, hno, hmp, decide_eq_false fun h => hn (Option.some.inj h).symm, Bool.and_false]
      rfl
    · rw [(hother j hji).1, (hother j hji).2]

theorem openDirs_insert {q q' : Nat → Dir} {k : Nat} (hd : d < k) (hno : (q d).live = false)
    (hyes : (q' d).live = true) (hother : ∀ j, j ≠ d → q' j = q j) (n : Nat) :
    (countBelow k fun j => (q' j).live && decide ((q' j).dMp = n)) =
      (countBelow k fun j => (q j).live && decide ((q j).dMp = n)) +
        if n = (q' d).dMp then 1 else 0 := by
  by_cases hn : n = (q' d).dMp
  · rw [if_pos hn]
    refine countBelow_insert hd ?_ ?_ fun j hj => ?_
    · rw [hno]
      rfl
    · rw [hyes, hn]
      exact decide_eq_true rfl
    · rw [hother j hj]
  · rw [if_neg hn]
    refine countBelow_congr fun j hj => ?_
    by_cases hjd : j = d
    · rw [hjd, hno, decide_eq_false fun h => hn h.symm, Bool.and_false]
      rfl
    · rw [hother j hjd]

theorem liveDirs_insert {q q' : Nat → Dir} {k : Nat} (hd : d < k) (hno : (q d).live = false)
    (hyes : (q' d).live = true) (hother : ∀ j, j ≠ d → q' j = q j) :
    (countBelow k fun j => (q' j).live) = (countBelow k fun j => (q j).live) + 1 :=
  countBelow_insert hd hno hyes fun j hj => by rw [hother j hj]

theorem after_slot (ha : ∀ i, a ≠ .file .close i) {ret : Int} : slotOf (.after a m ret) = none := by
  cases a with
  | file op j =>
    cases op with
    | close => exact absurd rfl (ha j)
    | _ => rfl
  | _ => rfl

/-- The call of a task at the end of its callback, or where there is none. -/
structure Finishing (s : VfsState) (held : Nat → Bool) (t : Nat) (a : Access) (m : Nat) : Prop where
  mounted : m ∈ s.mountPoints
  use : UseRight s held m a
  fMp : ∀ i flags, a = .open i flags → (s.files i).fMp = some m
  slot : slotOf (s.pc t) = a.slot
  dir : dirOf (s.pc t) = a.dirIndex
  closes : closing (s.pc t) = a.closesDir
  holder : s.holder m = some t

theorem VfsInv.finish_same (hi : VfsInv s held lost) (hf : Finishing s held t a m)
    (ha : ∀ i, a ≠ .file .close i) (hslot : a.slot = none) {r : Int} :
    UserInv (s.setPc t (.after a m r)) held ∧ RefsInv (s.setPc t (.after a m r)) held lost := by
  refine ⟨hi.users.move rfl rfl rfl rfl (fun u hu => setPc_of_ne hu) ?_ ?_ ?_,
    hi.refs.congr rfl (fun _ => rfl) rfl rfl fun _ _ => ⟨rfl, fun _ => rfl⟩⟩
  · rw [setPc_self]
    refine ⟨hf.mounted, ?_⟩
    have huse := hf.use
    cases a with
    | «open» j flags => cases hslot
    | file op j =>
      cases op with
      | close => exact absurd rfl (ha j)
      | _ => exact huse
    | _ => trivial
  · rw [setPc_self, hf.slot, hslot, after_slot ha]
  · intro d hd
    rw [setPc_self] at hd
    cases hd

theorem VfsInv.finish_open {flags : Nat} {ret r : Int} (hi : VfsInv s held lost)
    (hf : Finishing s held t (.open i flags) m)
    (hfin : losFinish s m ret (.open i flags) = some (s₁, r))
    (hwrap : ret = 0 → (s.mp m).mRefs + 1 < 2 ^ 32) :
    ∃ held', UserInv (s₁.setPc t (.after (.open i flags) m r)) held' ∧
      RefsInv (s₁.setPc t (.after (.open i flags) m r)) held' lost := by
  have hstat : (s.files i).fStatus = .initing := hf.use
  have hmp : (s.files i).fMp = some m := hf.fMp i flags rfl
  have hno : held i = false := hi.users.slot_initing hstat
  have hlow : i < losMaxFiles := by
    by_contra h
    rw [hi.users.high i (by omega)] at hstat
    cases hstat
  have hslot : slotOf (s.pc t) = some i := hf.slot
  have hfree : ∀ u, u ≠ t → fileOf (s.pc u) ≠ some i := fun u hu =>
    hi.users.no_user_of_slot hslot hno hu
  have hkeep : ∀ j, j ≠ i → (slotOf (.after (.open i flags) m r) = some j ↔ slotOf (s.pc t) = some j) := by
    intro j hj
    rw [hslot]
    exact iff_of_false (fun h => by cases h) fun h => hj (Option.some.inj h).symm
  simp only [losFinish] at hfin
  split at hfin
  · rename_i hret
    cases hfin
    have hother : ∀ j, j ≠ i → Function.update held i true j = held j ∧
        ((((refsInc s m).setFile i { (refsInc s m).files i with fStatus := .ready }).files j).fStatus =
            (s.files j).fStatus ∧
          (((refsInc s m).setFile i { (refsInc s m).files i with fStatus := .ready }).files j).fMp =
            (s.files j).fMp) := by
      intro j hj
      rw [Function.update_of_ne hj, setFile_of_ne hj]
      exact ⟨rfl, rfl, rfl⟩
    have hself : ((refsInc s m).setFile i { (refsInc s m).files i with fStatus := .ready }).files i =
        { s.files i with fStatus := .ready } := setFile_self
    refine ⟨Function.update held i true, ?_, ?_⟩
    · refine hi.users.setSlot rfl rfl rfl (fun u hu => setPc_of_ne hu)
        (fun j hj => ⟨(hother j hj).2.1, (hother j hj).2.2, (hother j hj).1⟩) hlow hfree ?_ ?_
        (fun j hj => by rw [setPc_self]; exact hkeep j hj) (by rw [setPc_self]; rfl) ?_
      · rw [setPc_self]
        exact ⟨hf.mounted, fun _ => ⟨rfl, by rw [setPc_files, hself]; exact hmp, Function.update_self ..⟩⟩
      · unfold SlotRight
        rw [setPc_files, hself]
        exact ⟨Function.update_self .., m, hmp⟩
      · intro n hn
        rw [setPc_files, hself] at hn
        exact hi.users.fileMounted i n hn
    · have hcount : ∀ n, openFiles ((refsInc s m).setFile i
          { (refsInc s m).files i with fStatus := .ready }) (Function.update held i true) n =
          openFiles s held n + if n = m then 1 else 0 :=
        openFiles_hold hlow (by rw [hself]; exact hmp) hno (Function.update_self ..) fun j hj =>
          ⟨(hother j hj).1, (hother j hj).2.2⟩
      refine ⟨fun n hn => ?_, fun n hn => ?_, hi.refs.dirs⟩
      · have href := hi.refs.refs n hn
        show ((refsInc s m).mp n).mRefs = openFiles ((refsInc s m).setFile i _) _ n + openDirs s n + lost n
        rw [hcount n]
        by_cases hnm : n = m
        · subst hnm
          rw [refsInc_mRefs (hwrap hret), if_pos rfl]
          omega
        · rw [refsInc_of_ne hnm, if_neg hnm]
          exact href
      · show ((refsInc s m).mp n).mRefs < 2 ^ 32
        by_cases hnm : n = m
        · subst hnm
          rw [refsInc_mRefs (hwrap hret)]
          exact hwrap hret
        · rw [refsInc_of_ne hnm]
          exact hi.refs.small n hn
  · cases hfin
    have hself : (losFilePut s i).files i =
        { fFops := none, fFlags := 0, fStatus := .notUsed, fOffset := 0, fMp := none, fOwner := none } :=
      setFile_self
    have hother : ∀ j, j ≠ i → (losFilePut s i).files j = s.files j := fun j hj => setFile_of_ne hj
    refine ⟨held, ?_, ?_⟩
    · refine hi.users.setSlot rfl rfl rfl (fun u hu => setPc_of_ne hu) (fun j hj => ?_) hlow hfree ?_ ?_
        (fun j hj => by rw [setPc_self]; exact hkeep j hj) (by rw [setPc_self]; rfl) ?_
      · unfold SameFile
        rw [setPc_files, hother j hj]
        exact ⟨rfl, rfl, rfl⟩
      · rw [setPc_self]
        exact ⟨hf.mounted, fun h => absurd h (by decide)⟩
      · unfold SlotRight
        rw [setPc_files, hself]
        exact ⟨hno, rfl⟩
      · intro n hn
        rw [setPc_files, hself] at hn
        cases hn
    · refine hi.refs.congr rfl (fun _ => rfl) rfl rfl fun j _ => ⟨rfl, fun hj => ?_⟩
      rw [setPc_files, hother j fun h => by
        rw [h, hno] at hj
        cases hj]

theorem VfsInv.finish_close {ret r : Int} (hi : VfsInv s held lost)
    (hf : Finishing s held t (.file .close i) m)
    (hfin : losFinish s m ret (.file .close i) = some (s₁, r)) :
    ∃ held' lost', UserInv (s₁.setPc t (.after (.file .close i) m r)) held' ∧
      RefsInv (s₁.setPc t (.after (.file .close i) m r)) held' lost' ∧ (ret = 0 → lost' = lost) := by
  obtain ⟨hstat, hmp, hyes⟩ : (s.files i).fStatus = .closing ∧ (s.files i).fMp = some m ∧ held i = true :=
    hf.use
  have hlow : i < losMaxFiles := by
    by_contra h
    rw [hi.users.high i (by omega)] at hstat
    cases hstat
  have hslot : slotOf (s.pc t) = some i := hf.slot
  have hfree : ∀ u, u ≠ t → fileOf (s.pc u) ≠ some i := fun u hu =>
    hi.users.no_user_of_close hi.locks hslot hstat hmp hf.holder hu
  have husers : ∀ s₁ : VfsState, s₁.files = s.files → s₁.mountPoints = s.mountPoints → s₁.dir = s.dir →
      s₁.dirNext = s.dirNext → s₁.pc = s.pc →
      UserInv (s₁.setPc t (.after (.file .close i) m r)) (Function.update held i false) := by
    intro s₁ hfiles hmounts hdirs hnext hpc
    refine hi.users.setSlot hmounts hdirs hnext
      (fun u hu => (setPc_of_ne hu).trans (congrFun hpc u)) (fun j hj => ?_) hlow hfree ?_ ?_
      (fun j hj => ?_) (by rw [setPc_self]; rfl) ?_
    · unfold SameFile
      rw [Function.update_of_ne hj, show (VfsState.setPc s₁ t _).files = _ from hfiles]
      exact ⟨rfl, rfl, rfl⟩
    · rw [setPc_self]
      refine ⟨by rw [show (VfsState.setPc s₁ t _).mountPoints = _ from hmounts]; exact hf.mounted, ?_⟩
      unfold AfterRight
      rw [show (VfsState.setPc s₁ t _).files = _ from hfiles]
      exact ⟨hstat, hmp, Function.update_self ..⟩
    · unfold SlotRight
      rw [show (VfsState.setPc s₁ t _).files = _ from hfiles, hstat]
      exact ⟨⟨m, hmp⟩, t, by rw [setPc_self]; rfl⟩
    · rw [setPc_self, hslot]
      rfl
    · intro n hn
      rw [show (VfsState.setPc s₁ t _).files = _ from hfiles] at hn
      exact hi.users.fileMounted i n hn
  have hcount : ∀ n, openFiles s held n = openFiles s (Function.update held i false) n +
      if n = m then 1 else 0 :=
    openFiles_hold hlow hmp (Function.update_self ..) hyes fun j hj =>
      ⟨(Function.update_of_ne hj ..).symm, rfl⟩
  simp only [losFinish] at hfin
  split at hfin
  · rename_i hret
    rw [hmp] at hfin
    cases hfin
    refine ⟨Function.update held i false, lost, husers (refsDec s m) rfl rfl rfl rfl rfl,
      ⟨fun n hn => ?_, fun n hn => ?_, hi.refs.dirs⟩, fun _ => rfl⟩
    · have href := hi.refs.refs n hn
      have hsmall := hi.refs.small n hn
      rw [hcount n] at href
      show ((refsDec s m).mp n).mRefs = openFiles s (Function.update held i false) n + openDirs s n + lost n
      by_cases hnm : n = m
      · subst hnm
        rw [if_pos rfl] at href
        rw [refsDec_mRefs (by omega) hsmall]
        omega
      · rw [if_neg hnm] at href
        rw [refsDec_of_ne hnm]
        exact href
    · have hsmall := hi.refs.small n hn
      have href := hi.refs.refs n hn
      rw [hcount n] at href
      show ((refsDec s m).mp n).mRefs < 2 ^ 32
      by_cases hnm : n = m
      · subst hnm
        rw [if_pos rfl] at href
        rw [refsDec_mRefs (by omega) hsmall]
        omega
      · rw [refsDec_of_ne hnm]
        exact hsmall
  · rename_i hret
    cases hfin
    refine ⟨Function.update held i false, Function.update lost m (lost m + 1), husers s rfl rfl rfl rfl rfl,
      ⟨fun n hn => ?_, hi.refs.small, hi.refs.dirs⟩, fun h => absurd h hret⟩
    have href := hi.refs.refs n hn
    rw [hcount n] at href
    show (s.mp n).mRefs = openFiles s (Function.update held i false) n + openDirs s n +
      Function.update lost m (lost m + 1) n
    by_cases hnm : n = m
    · subst hnm
      rw [if_pos rfl] at href
      rw [Function.update_self]
      omega
    · rw [if_neg hnm] at href
      rw [Function.update_of_ne hnm]
      exact href

theorem UserInv.setDir (hi : UserInv s held) {r : Int} (ha : a = .opendir ∨ a = .closedir d)
    (hm : m ∈ s.mountPoints) (hslot : slotOf (s.pc t) = none) (hfiles : s₁.files = s.files)
    (hmounts : s₁.mountPoints = s.mountPoints) (hpc : s₁.pc = s.pc) (hnext : s.dirNext ≤ s₁.dirNext)
    (hother : ∀ j, j ≠ d → s₁.dir j = s.dir j) (hfree : ∀ u, u ≠ t → dirOf (s.pc u) = some d →
      d < s.dirNext → False)
    (hdirs : ∀ j < s₁.dirNext, (s₁.dir j).live = true → (s₁.dir j).dMp ∈ s.mountPoints) :
    UserInv (s₁.setPc t (.after a m r)) held := by
  have hsame : ∀ j, SameFile s (s₁.setPc t (.after a m r)) held held j := fun j => by
    unfold SameFile
    rw [show (VfsState.setPc s₁ t _).files = _ from hfiles]
    exact ⟨rfl, rfl, rfl⟩
  have hothers : ∀ u, u ≠ t → (s₁.setPc t (.after a m r)).pc u = s.pc u := fun u hu =>
    (setPc_of_ne hu).trans (congrFun hpc u)
  have hafter : slotOf (.after a m r) = none := by
    obtain rfl | rfl := ha <;> rfl
  refine hi.step hothers ?_ (fun u hu => ?_) (fun j => ?_) ?_ ?_ ?_ ?_ ?_
  · rw [setPc_self]
    refine ⟨by rw [show (VfsState.setPc s₁ t _).mountPoints = _ from hmounts]; exact hm, ?_⟩
    obtain rfl | rfl := ha <;> trivial
  · refine (hi.tasks u).congr (fun n _ hn => ?_) (fun j _ => hsame j) fun j hj hlt _ => ?_
    · rw [show (VfsState.setPc s₁ t _).mountPoints = _ from hmounts]
      exact hn
    · refine ⟨Nat.lt_of_lt_of_le hlt hnext, hother j ?_⟩
      rintro rfl
      exact hfree u hu hj hlt
  · refine (hi.slots j).congr (hsame j) fun u hu => ⟨u, ?_⟩
    by_cases hut : u = t
    · rw [hut, hslot] at hu
      cases hu
    · rw [hothers u hut]
      exact hu
  · intro u j _ hj
    rw [setPc_self, hafter] at hj
    cases hj
  · intro u j _ hj
    rw [setPc_self] at hj
    cases hj
  · rw [show (VfsState.setPc s₁ t _).files = _ from hfiles,
      show (VfsState.setPc s₁ t _).mountPoints = _ from hmounts]
    exact hi.fileMounted
  · rw [show (VfsState.setPc s₁ t _).mountPoints = _ from hmounts]
    exact hdirs
  · rw [show (VfsState.setPc s₁ t _).files = _ from hfiles]
    exact hi.high

@[simp] theorem dirOpen_self : (dirOpen s m).dir s.dirNext = ⟨m, true⟩ := Function.update_self ..

theorem dirOpen_of_ne (hne : d ≠ s.dirNext) : (dirOpen s m).dir d = s.dir d :=
  Function.update_of_ne hne ..

@[simp] theorem dirFree_self : (dirFree s d).dir d = { s.dir d with live := false } :=
  Function.update_self ..

theorem dirFree_of_ne {j : Nat} (hne : j ≠ d) : (dirFree s d).dir j = s.dir j :=
  Function.update_of_ne hne ..

theorem openDirs_dirOpen (n : Nat) : openDirs (dirOpen s m) n = openDirs s n + if n = m then 1 else 0 := by
  have hold : (countBelow s.dirNext fun j =>
      ((dirOpen s m).dir j).live && decide (((dirOpen s m).dir j).dMp = n)) = openDirs s n :=
    countBelow_congr fun j hj => by rw [dirOpen_of_ne (by omega)]
  show countBelow (s.dirNext + 1) _ = _
  rw [countBelow_succ, hold, dirOpen_self]
  by_cases hnm : n = m
  · rw [if_pos hnm, hnm]
    simp
  · rw [if_neg hnm, Bool.true_and, decide_eq_false fun h => hnm h.symm]
    simp

theorem liveDirs_dirOpen : liveDirs (dirOpen s m) = liveDirs s + 1 := by
  have hold : (countBelow s.dirNext fun j => ((dirOpen s m).dir j).live) = liveDirs s :=
    countBelow_congr fun j hj => by rw [dirOpen_of_ne (by omega)]
  show countBelow (s.dirNext + 1) _ = _
  rw [countBelow_succ, hold, dirOpen_self]
  rfl

theorem openDirs_dirFree (hd : d < s.dirNext) (hlive : (s.dir d).live = true) (n : Nat) :
    openDirs s n = openDirs (dirFree s d) n + if n = (s.dir d).dMp then 1 else 0 :=
  openDirs_insert hd (by rw [dirFree_self]) hlive (fun _ hj => (dirFree_of_ne hj).symm) n

theorem liveDirs_dirFree (hd : d < s.dirNext) (hlive : (s.dir d).live = true) :
    liveDirs s = liveDirs (dirFree s d) + 1 :=
  liveDirs_insert hd (by rw [dirFree_self]) hlive fun _ hj => (dirFree_of_ne hj).symm

theorem VfsInv.finish_opendir {ret r : Int} (hi : VfsInv s held lost)
    (hf : Finishing s held t .opendir m) (hfin : losFinish s m ret .opendir = some (s₁, r))
    (hwrap : ret = 0 → (s.mp m).mRefs + 1 < 2 ^ 32) :
    UserInv (s₁.setPc t (.after .opendir m r)) held ∧
      RefsInv (s₁.setPc t (.after .opendir m r)) held lost := by
  simp only [losFinish] at hfin
  split at hfin
  · rename_i hret
    split at hfin
    · rename_i hspace
      cases hfin
      constructor
      · refine hi.users.setDir (d := s.dirNext) (Or.inl rfl) hf.mounted hf.slot rfl rfl rfl (Nat.le_succ _)
          (fun j hj => dirOpen_of_ne hj) (fun u _ _ hlt => absurd hlt (Nat.lt_irrefl _))
          fun j hj hlive => ?_
        change ((dirOpen s m).dir j).live = true at hlive
        show ((dirOpen s m).dir j).dMp ∈ s.mountPoints
        by_cases hjd : j = s.dirNext
        · rw [hjd, dirOpen_self]
          exact hf.mounted
        · rw [dirOpen_of_ne hjd] at hlive ⊢
          have hlt : j < s.dirNext + 1 := hj
          exact hi.users.dirMounted j (by omega) hlive
      · have hinc : ((refsInc (dirOpen s m) m).mp m).mRefs = (s.mp m).mRefs + 1 :=
          refsInc_mRefs (s := dirOpen s m) (hwrap hret)
        have hkeep : ∀ n, n ≠ m → (refsInc (dirOpen s m) m).mp n = s.mp n := fun n hn => refsInc_of_ne hn
        refine ⟨fun n hn => ?_, fun n hn => ?_, ?_⟩
        · have href := hi.refs.refs n hn
          show ((refsInc (dirOpen s m) m).mp n).mRefs =
            openFiles s held n + openDirs (dirOpen s m) n + lost n
          rw [openDirs_dirOpen]
          by_cases hnm : n = m
          · subst hnm
            rw [hinc, if_pos rfl]
            omega
          · rw [hkeep n hnm, if_neg hnm]
            exact href
        · show ((refsInc (dirOpen s m) m).mp n).mRefs < 2 ^ 32
          by_cases hnm : n = m
          · subst hnm
            rw [hinc]
            exact hwrap hret
          · rw [hkeep n hnm]
            exact hi.refs.small n hn
        · show liveDirs (dirOpen s m) < 2 ^ 30
          rw [liveDirs_dirOpen]
          exact hspace
    · cases hfin
  · cases hfin
    exact hi.finish_same hf (fun i h => by cases h) rfl

theorem VfsInv.finish_closedir {ret r : Int} (hi : VfsInv s held lost)
    (hf : Finishing s held t (.closedir d) m) (hfin : losFinish s m ret (.closedir d) = some (s₁, r)) :
    UserInv (s₁.setPc t (.after (.closedir d) m r)) held ∧
      RefsInv (s₁.setPc t (.after (.closedir d) m r)) held lost := by
  simp only [losFinish] at hfin
  split at hfin
  · cases hfin
    obtain ⟨hlt, hmp, hlive⟩ : d < s.dirNext ∧ (s.dir d).dMp = m ∧ (s.dir d).live = true := hf.use
    constructor
    · refine hi.users.setDir (Or.inr rfl) hf.mounted hf.slot rfl rfl rfl (Nat.le_refl _)
        (fun j hj => dirFree_of_ne hj)
        (fun u hu hdu _ => hu (hi.users.dirAlone t u d hf.dir hdu hf.closes).symm) fun j hj hjlive => ?_
      change ((dirFree s d).dir j).live = true at hjlive
      show ((dirFree s d).dir j).dMp ∈ s.mountPoints
      by_cases hjd : j = d
      · rw [hjd, dirFree_self] at hjlive
        cases hjlive
      · rw [dirFree_of_ne hjd] at hjlive ⊢
        exact hi.users.dirMounted j hj hjlive
    · have hcount : ∀ n, openDirs s n = openDirs (dirFree s d) n + if n = m then 1 else 0 := by
        rw [← hmp]
        exact openDirs_dirFree hlt hlive
      have hmrefs := hi.refs.refs m hf.mounted
      rw [hcount m, if_pos rfl] at hmrefs
      have hdec : ((refsDec (dirFree s d) m).mp m).mRefs = (s.mp m).mRefs - 1 :=
        refsDec_mRefs (s := dirFree s d) (show 0 < (s.mp m).mRefs by omega) (hi.refs.small m hf.mounted)
      have hkeep : ∀ n, n ≠ m → (refsDec (dirFree s d) m).mp n = s.mp n := fun n hn => refsDec_of_ne hn
      refine ⟨fun n hn => ?_, fun n hn => ?_, ?_⟩
      · have href := hi.refs.refs n hn
        rw [hcount n] at href
        show ((refsDec (dirFree s d) m).mp n).mRefs =
          openFiles s held n + openDirs (dirFree s d) n + lost n
        by_cases hnm : n = m
        · subst hnm
          rw [hdec]
          omega
        · rw [if_neg hnm] at href
          rw [hkeep n hnm]
          exact href
      · have hsmall := hi.refs.small n hn
        show ((refsDec (dirFree s d) m).mp n).mRefs < 2 ^ 32
        by_cases hnm : n = m
        · subst hnm
          rw [hdec]
          omega
        · rw [hkeep n hnm]
          exact hsmall
      · have hdirs := hi.refs.dirs
        rw [liveDirs_dirFree hlt hlive] at hdirs
        show liveDirs (dirFree s d) < 2 ^ 30
        omega
  · cases hfin
    exact hi.finish_same hf (fun i h => by cases h) rfl

theorem VfsInv.finish {ret r : Int} (hi : VfsInv s held lost) (hf : Finishing s held t a m)
    (hfin : losFinish s m ret a = some (s₁, r))
    (hwrap : ret = 0 → a.opens = true → (s.mp m).mRefs + 1 < 2 ^ 32) :
    ∃ held' lost', UserInv (s₁.setPc t (.after a m r)) held' ∧
      RefsInv (s₁.setPc t (.after a m r)) held' lost' ∧
      ((∀ i, a = .file .close i → ret = 0) → lost' = lost) := by
  cases a with
  | «open» i flags =>
    obtain ⟨held', h1, h2⟩ := hi.finish_open hf hfin fun h => hwrap h rfl
    exact ⟨held', lost, h1, h2, fun _ => rfl⟩
  | file op i =>
    cases op with
    | close =>
      obtain ⟨held', lost', h1, h2, h3⟩ := hi.finish_close hf hfin
      exact ⟨held', lost', h1, h2, fun h => h3 (h i rfl)⟩
    | _ =>
      cases hfin
      obtain ⟨h1, h2⟩ := hi.finish_same hf (fun j h => by cases h) rfl
      exact ⟨held, lost, h1, h2, fun _ => rfl⟩
  | opendir =>
    obtain ⟨h1, h2⟩ := hi.finish_opendir hf hfin fun h => hwrap h rfl
    exact ⟨held, lost, h1, h2, fun _ => rfl⟩
  | readdir d =>
    cases hfin
    obtain ⟨h1, h2⟩ := hi.finish_same hf (fun j h => by cases h) rfl
    exact ⟨held, lost, h1, h2, fun _ => rfl⟩
  | closedir d =>
    obtain ⟨h1, h2⟩ := hi.finish_closedir hf hfin
    exact ⟨held, lost, h1, h2, fun _ => rfl⟩
  | mkdir =>
    cases hfin
    obtain ⟨h1, h2⟩ := hi.finish_same hf (fun j h => by cases h) rfl
    exact ⟨held, lost, h1, h2, fun _ => rfl⟩

end

end LiteosM.Vfs
