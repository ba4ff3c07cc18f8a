import LiteosM.Vfs.Source

/-!
# The steps of the virtual file system

What one step can do to the state.
-/

namespace LiteosM.Vfs

open LiteosM.Lib.Path

/-- A task comes to what a call does after its `LOS_MuxPend` of `fs_mutex`. -/
def InSection (s : VfsState) (t : Nat) (r : Request) : Prop :=
  (s.pc t = .enter r ∧ s.owns s.fsMutex t = true) ∨ (s.pc t = .unheld r ∧ r.refused = .goesOn)

/-- `Move s event s'`: the step of the event, with what the code found out before it. -/
inductive Move (s : VfsState) : VfsEvent → VfsState → Prop
  | stay (event : VfsEvent) : Move s event s
  | enter {t : Nat} {c : Call} (r : Request) (hpc : s.pc t = .idle) :
      Move s (.call t c) ((losMuxPend s s.fsMutex t).setPc t (.enter r))
  | unheld {t : Nat} {c : Call} (r : Request) (hpc : s.pc t = .idle)
      (hno : osMuxValidCheck s s.fsMutex = false) : Move s (.call t c) (s.setPc t (.unheld r))
  | spins {t : Nat} {c : Call} (op : Callback) (fd : Nat) (hpc : s.pc t = .idle) :
      Move s (.call t c) (s.setPc t (.spin op fd))
  | tries {t : Nat} {got : Option Nat} (op : Callback) (fd : Nat) (hpc : s.pc t = .spin op fd) :
      Move s (.run t got) ((losMuxPend s s.fsMutex t).setPc t (.enter (.attach op fd)))
  | locks {t : Nat} (hpc : s.pc t = .idle) : Move s (.lock t) { s with lockTask := some t }
  | unlocks {t : Nat} (hpc : s.pc t = .idle) : Move s (.unlock t) { s with lockTask := none }
  | direct {t d : Nat} {c : Call} {a : Access} {ret : Int} (hpc : s.pc t = .idle)
      (hc : c.start s = .direct a d ret) (ha : a = .readdir d ∨ a = .closedir d) (hd : d < s.dirNext)
      (hstat : (s.mux (s.mp (s.dir d).dMp).mMutex).muxStat = true) :
      Move s (.call t c) (s.pends t a (s.dir d).dMp).1
  | leave {t : Nat} {got : Option Nat} {r : Request} (fsl : List Nat) (hin : InSection s t r) :
      Move s (.run t got) ((losMuxPost { s with fileSystems := fsl } s.fsMutex t).setPc t .idle)
  | openFails {t file : Nat} {got : Option Nat} {r : Request} (hpc : s.pc t = .enter r)
      (hown : s.owns s.fsMutex t = true) (hfile : file < losMaxFiles)
      (hfree : (s.files file).fStatus = .notUsed) :
      Move s (.run t got) ((losMuxPost (s.setFile file { s.files file with fStatus := .initing })
        s.fsMutex t).setPc t (.put file (-1)))
  | openPends {t file flags m : Nat} {got : Option Nat} {r : Request} (hpc : s.pc t = .enter r)
      (hown : s.owns s.fsMutex t = true) (hfile : file < losMaxFiles)
      (hfree : (s.files file).fStatus = .notUsed) (hm : m ∈ s.mountPoints)
      (hstat : (s.mux (s.mp m).mMutex).muxStat = true) :
      Move s (.run t got) ((s.setFile file { s.files file with fStatus := .initing }).pends t
        (.open file flags) m).1
  | attach {t fd m : Nat} {got : Option Nat} {r : Request} {op : Callback} (hpc : s.pc t = .enter r)
      (hown : s.owns s.fsMutex t = true) (hready : (s.files fd).fStatus = .ready)
      (hmp : (s.files fd).fMp = some m) (hstat : (s.mux (s.mp m).mMutex).muxStat = true) :
      Move s (.run t got)
        ((if op = .close then s.setFile fd { s.files fd with fStatus := .closing } else s).pends t
          (.file op fd) m).1
  | path {t m : Nat} {got : Option Nat} {r : Request} {op : Callback} (hin : InSection s t r)
      (hm : m ∈ s.mountPoints) :
      Move s (.run t got) (s.setPc t (.pathInside op m))
  | dirPends {t m : Nat} {got : Option Nat} {r : Request} {a : Access} (hpc : s.pc t = .enter r)
      (hown : s.owns s.fsMutex t = true) (ha : a = .opendir ∨ a = .mkdir) (hm : m ∈ s.mountPoints)
      (hstat : (s.mux (s.mp m).mMutex).muxStat = true) :
      Move s (.run t got) (s.pends t a m).1
  | mount {t f h : Nat} {fsname path : List Char} (hin : InSection s t (.mount fsname path))
      (hfs : losFsFind s fsname = some f) (hfind : (losMpFind s path).map Prod.snd ≠ some [])
      (hbound : h < 2 ^ 32) (hnew : (s.mux h).muxStat = false) :
      Move s (.run t (some h)) ((addMountPoint s f path h).leaves t 0).1
  | unmount {t m : Nat} {got : Option Nat} {path : List Char} (hin : InSection s t (.unmount path))
      (hm : losFsUnmounts s path = some m) :
      Move s (.run t got) ((removeMountPoint s m).leaves t 0).1
  | granted {t m : Nat} {got : Option Nat} {a : Access} (hpc : s.pc t = .wait a m)
      (hown : s.owns (s.mp m).mMutex t = true) :
      Move s (.run t got)
        ((if a.underFs then losMuxPost s s.fsMutex t else s).setPc t (.inside a m))
  | starts {t m : Nat} {got : Option Nat} {a : Access} (hpc : s.pc t = .inside a m) :
      Move s (.run t got) ((losOpenFields s t a m).setPc t (.callback a m))
  | skips {t m : Nat} {got : Option Nat} {a : Access} {s₁ : VfsState} {ret : Int}
      (hpc : s.pc t = .inside a m) (hno : hasCallback s a m = false)
      (hfin : losFinish s m (noCallback s a) a = some (s₁, ret)) :
      Move s (.run t got) (s₁.setPc t (.after a m ret))
  | ends {t m : Nat} {a : Access} {s₁ : VfsState} {ret r offset : Int} (hpc : s.pc t = .callback a m)
      (hfin : losFinish (callbackOffset s offset a) m ret a = some (s₁, r)) :
      Move s (.ends t ret offset) (s₁.setPc t (.after a m r))
  | posts {t m n : Nat} {got : Option Nat} {a : Access} {ret : Int} (hpc : s.pc t = .after a m ret)
      (hposted : postedMp s a m = some n) (ha : ∀ i, a ≠ .file .close i) :
      Move s (.run t got) ((losMuxPost s (s.mp n).mMutex t).setPc t .idle)
  | closes {t m n i : Nat} {got : Option Nat} {ret : Int} (hpc : s.pc t = .after (.file .close i) m ret)
      (hmp : (s.files i).fMp = some n) :
      Move s (.run t got) ((losMuxPost s (s.mp n).mMutex t).setPc t (.put i ret))
  | puts {t i : Nat} {got : Option Nat} {ret : Int} (hpc : s.pc t = .put i ret) :
      Move s (.run t got) ((losFilePut s i).setPc t .idle)
  | pathStarts {t m : Nat} {got : Option Nat} {op : Callback} (hpc : s.pc t = .pathInside op m) :
      Move s (.run t got) (s.setPc t (.pathCallback op m))
  | pathEnds {t m : Nat} {op : Callback} {ret offset : Int} (hpc : s.pc t = .pathCallback op m) :
      Move s (.ends t ret offset) (s.setPc t (.pathAfter ret))
  | pathLeaves {t : Nat} {got : Option Nat} {ret : Int} (hpc : s.pc t = .pathAfter ret) :
      Move s (.run t got) ((losMuxPost s s.fsMutex t).setPc t .idle)

section

variable {s s₁ : VfsState} {t m file fd d : Nat} {got : Option Nat} {path rest : List Char} {r : Request}
  {x : Stepped}

theorem losFileGet_eq (h : losFileGet s = some (s₁, file)) :
    file < losMaxFiles ∧ (s.files file).fStatus = .notUsed ∧
      s₁ = s.setFile file { s.files file with fStatus := .initing } := by
  unfold losFileGet at h
  rw [Option.map_eq_some_iff] at h
  obtain ⟨i, hi, heq⟩ := h
  cases heq
  have hmem := List.mem_of_find?_eq_some hi
  have hprop := List.find?_some hi
  exact ⟨List.mem_range.mp hmem, of_decide_eq_true hprop, rfl⟩

/-- The loop of `los_mp_find`. -/
def bestMatch (s : VfsState) (path : List Char) (best : Nat × Option (Nat × List Char)) (m : Nat) :
    Nat × Option (Nat × List Char) :=
  match mpMatches (s.mp m).mPath path 0 with
  | none => best
  | some (count, iPath) => if best.1 < count then (count, some (m, skipSlashes iPath)) else best

theorem losMpFind_eq (s : VfsState) (path : List Char) :
    losMpFind s path = (s.mountPoints.foldl (bestMatch s path) (0, none)).2 := rfl

theorem losMpFind_mem (h : losMpFind s path = some (m, rest)) : m ∈ s.mountPoints := by
  have hfold : ∀ (l : List Nat) (best : Nat × Option (Nat × List Char)),
      (∀ x, best.2 = some x → x.1 ∈ s.mountPoints) → (∀ x ∈ l, x ∈ s.mountPoints) →
      ∀ x, (l.foldl (bestMatch s path) best).2 = some x → x.1 ∈ s.mountPoints := by
    intro l
    induction l with
    | nil => exact fun best hbest _ => hbest
    | cons a l ih =>
      intro best hbest hl
      rw [List.foldl_cons]
      refine ih _ ?_ fun x hx => hl x (List.mem_cons_of_mem _ hx)
      intro x hx
      unfold bestMatch at hx
      split at hx
      · exact hbest x hx
      · split at hx
        · cases hx
          exact hl _ List.mem_cons_self
        · exact hbest x hx
  rw [losMpFind_eq] at h
  exact hfold s.mountPoints (0, none) (fun x hx => by cases hx) (fun x hx => hx) _ h

theorem losMpFindIn_mem (h : losMpFindIn s path = some m) : m ∈ s.mountPoints := by
  unfold losMpFindIn at h
  split at h
  · rename_i m' rest hfind
    split at h
    · cases h
    · cases h
      exact losMpFind_mem hfind
  · cases h

theorem losFsUnmounts_eq (h : losFsUnmounts s path = some m) :
    m ∈ s.mountPoints ∧ (s.mp m).mRefs = 0 := by
  unfold losFsUnmounts at h
  split at h
  · cases h
  · rename_i m' tmp hfind
    split at h
    · cases h
    · rename_i hno
      cases h
      exact ⟨losMpFind_mem hfind, not_not.mp fun h => hno (Or.inr h)⟩

theorem InSection.held (h : InSection s t r) (hr : r.refused ≠ .goesOn) :
    s.pc t = .enter r ∧ s.owns s.fsMutex t = true := by
  obtain h | ⟨_, hgoes⟩ := h
  · exact h
  · exact absurd hgoes hr

theorem osMuxValidCheck_stat {h : Nat} (hcheck : ¬(!osMuxValidCheck s h) = true) :
    (s.mux h).muxStat = true := by
  unfold osMuxValidCheck at hcheck
  simp only [Bool.not_eq_true, Bool.not_eq_false', Bool.and_eq_true] at hcheck
  exact hcheck.1

theorem losOpenEnter_move {flags : Nat} (hin : InSection s t r) (hr : r.refused ≠ .goesOn) :
    Move s (.run t got) (losOpenEnter s t path flags).1 := by
  obtain ⟨hpc, hown⟩ := hin.held hr
  unfold losOpenEnter
  split
  · exact .leave s.fileSystems hin
  · rename_i s₁ file hget
    obtain ⟨hfile, hfree, rfl⟩ := losFileGet_eq hget
    dsimp only
    split
    · exact .openFails hpc hown hfile hfree
    · rename_i m hm
      split
      · exact .openFails hpc hown hfile hfree
      · split
        · exact .openFails hpc hown hfile hfree
        · rename_i hstat
          exact .openPends hpc hown hfile hfree (losMpFindIn_mem hm) (osMuxValidCheck_stat hstat)

theorem losAttachFileEnter_move {op : Callback} (hin : InSection s t r) (hr : r.refused ≠ .goesOn)
    (h : losAttachFileEnter s t op fd = some x) : Move s (.run t got) x.1 := by
  obtain ⟨hpc, hown⟩ := hin.held hr
  unfold losAttachFileEnter at h
  split at h
  · rename_i hready
    cases hmp : (s.files fd).fMp with
    | none => rw [hmp] at h; cases h
    | some m =>
      rw [hmp] at h
      change (if _ then _ else _) = some x at h
      split at h
      · cases h
        exact .stay _
      · rename_i hstat
        cases h
        exact .attach hpc hown hready hmp (osMuxValidCheck_stat hstat)
  · cases h
    exact .leave s.fileSystems hin

theorem losPathEnter_move {op : Callback} {m : Option Nat} (hin : InSection s t r)
    (hm : ∀ n ∈ m, n ∈ s.mountPoints) : Move s (.run t got) (losPathEnter s t op m).1 := by
  unfold losPathEnter
  split
  · exact .leave s.fileSystems hin
  · split
    · exact .path hin (hm _ rfl)
    · exact .leave s.fileSystems hin

theorem losRenameEnter_move {old new : List Char} (hin : InSection s t r) :
    Move s (.run t got) (losRenameEnter s t old new).1 := by
  unfold losRenameEnter
  split
  · rename_i mpOld mpNew hold hnew
    split
    · exact .leave s.fileSystems hin
    · split
      · exact .leave s.fileSystems hin
      · exact losPathEnter_move hin fun n hn => by cases hn; exact losMpFindIn_mem hold
  · exact .leave s.fileSystems hin

theorem losDirEnter_move {a : Access} {ret : Int} {m : Option Nat} (hin : InSection s t r)
    (hr : r.refused ≠ .goesOn) (ha : a = .opendir ∨ a = .mkdir) (hm : ∀ n ∈ m, n ∈ s.mountPoints) :
    Move s (.run t got) (losDirEnter s t a ret m).1 := by
  obtain ⟨hpc, hown⟩ := hin.held hr
  unfold losDirEnter
  split
  · exact .leave s.fileSystems hin
  · split
    · exact .leave s.fileSystems hin
    · rename_i hstat
      exact .dirPends hpc hown ha (hm _ rfl) (osMuxValidCheck_stat hstat)

theorem losFsRegisterEnter_move {f : Nat} (hin : InSection s t r) :
    Move s (.run t got) (losFsRegisterEnter s t f).1 := by
  unfold losFsRegisterEnter
  split
  · exact .leave s.fileSystems hin
  · exact .leave (f :: s.fileSystems) hin

theorem losFsUnregisterEnter_move {f : Nat} (hin : InSection s t r) :
    Move s (.run t got) (losFsUnregisterEnter s t f).1 := by
  unfold losFsUnregisterEnter
  split
  · exact .leave s.fileSystems hin
  · split
    · exact .leave (s.fileSystems.erase f) hin
    · exact .leave s.fileSystems hin

theorem losFsMountEnter_move {fsname : List Char} (hin : InSection s t (.mount fsname path))
    (hgot : ∀ h ∈ got, h < 2 ^ 32 ∧ (s.mux h).muxStat = false) :
    Move s (.run t got) (losFsMountEnter s t fsname path got).1 := by
  unfold losFsMountEnter
  split
  · exact .leave s.fileSystems hin
  · rename_i f hfs
    split
    · exact .leave s.fileSystems hin
    · rename_i hfind
      split
      · exact .leave s.fileSystems hin
      · obtain ⟨hbound, hnew⟩ := hgot _ rfl
        exact .mount hin hfs hfind hbound hnew

theorem losFsUnmountEnter_move (hin : InSection s t (.unmount path)) :
    Move s (.run t got) (losFsUnmountEnter s t path).1 := by
  unfold losFsUnmountEnter
  split
  · exact .leave s.fileSystems hin
  · rename_i m hm
    exact .unmount hin hm

theorem vfsEnter_move (hin : InSection s t r)
    (hgot : ∀ h ∈ got, h < 2 ^ 32 ∧ (s.mux h).muxStat = false) (h : vfsEnter s t got r = some x) :
    Move s (.run t got) x.1 := by
  cases r with
  | «open» path flags => cases h; exact losOpenEnter_move hin Refused.noConfusion
  | attach op fd => exact losAttachFileEnter_move hin Refused.noConfusion h
  | stat path => cases h; exact losPathEnter_move hin fun n hn => losMpFindIn_mem hn
  | unlink path => cases h; exact losPathEnter_move hin fun n hn => losMpFindIn_mem hn
  | rename old new => cases h; exact losRenameEnter_move hin
  | opendir path =>
    cases h
    refine losDirEnter_move hin Refused.noConfusion (Or.inl rfl) fun n hn => ?_
    obtain ⟨y, hy, rfl⟩ := Option.map_eq_some_iff.mp hn
    exact losMpFind_mem hy
  | mkdir path =>
    cases h
    exact losDirEnter_move hin Refused.noConfusion (Or.inr rfl) fun n hn => losMpFindIn_mem hn
  | register f => cases h; exact losFsRegisterEnter_move hin
  | unregister f => cases h; exact losFsUnregisterEnter_move hin
  | mount fsname path => cases h; exact losFsMountEnter_move hin hgot
  | unmount path => cases h; exact losFsUnmountEnter_move hin

theorem start_direct {c : Call} {a : Access} {ret : Int} (h : c.start s = .direct a d ret) :
    a = .readdir d ∨ a = .closedir d := by
  cases c with
  | readdir dir =>
    cases dir with
    | none => cases h
    | some dir => cases h; exact Or.inl rfl
  | closedir dir =>
    cases dir with
    | none => cases h
    | some dir => cases h; exact Or.inr rfl
  | _ =>
    exfalso
    revert h
    simp only [Call.start, losOpen, losClose, losRead, losWrite, losLseek, losIoctl, losSync, losStat,
      losUnlink, losRename, losOpendir, losMkdir, losFsRegister, losFsUnregister, losFsMount,
      losFsUnmount, losAttachFile]
    repeat' split
    all_goals exact fun h => by cases h

theorem enters_move {c : Call} (hpc : s.pc t = .idle) : Move s (.call t c) (s.enters t r).1 := by
  unfold VfsState.enters
  split
  · exact .enter r hpc
  · rename_i hno
    split
    · exact .stay _
    · exact .unheld r hpc (by simpa using hno)
    · exact .spins _ _ hpc

theorem vfsCall_move {c : Call} (h : vfsCall s t c = some x) : Move s (.call t c) x.1 := by
  unfold vfsCall at h
  split at h
  · cases h
    exact .stay _
  · rename_i r hpc hc
    cases h
    exact enters_move hpc
  · rename_i a d ret hpc hc
    dsimp only at h
    split at h
    · cases h
    · rename_i hd
      split at h
      · cases h
        exact .stay _
      · rename_i hstat
        cases h
        exact .direct hpc hc (start_direct hc) (Nat.lt_of_not_le hd) (osMuxValidCheck_stat hstat)
  · cases h

theorem vfsRun_move (hgot : ∀ h ∈ got, h < 2 ^ 32 ∧ (s.mux h).muxStat = false)
    (h : vfsRun s t got = some x) : Move s (.run t got) x.1 := by
  unfold vfsRun at h
  split at h
  · rename_i r hpc
    split at h
    · rename_i hown
      exact vfsEnter_move (.inl ⟨hpc, hown⟩) hgot h
    · cases h
  · rename_i r hpc
    split at h
    · rename_i hgoes
      exact vfsEnter_move (.inr ⟨hpc, hgoes⟩) hgot h
    · cases h
  · rename_i op fd hpc
    split at h
    · cases h
      exact .tries op fd hpc
    · cases h
      exact .stay _
  · rename_i a m hpc
    split at h
    · rename_i hown
      cases h
      exact .granted hpc hown
    · cases h
  · rename_i a m hpc
    split at h
    · cases h
      exact .starts hpc
    · rename_i hno
      obtain ⟨⟨s₁, ret⟩, hfin, rfl⟩ := Option.map_eq_some_iff.mp h
      exact .skips hpc (by simpa using hno) hfin
  · rename_i a m ret hpc
    cases hn : postedMp s a m with
    | none => rw [hn] at h; cases h
    | some n =>
      rw [hn] at h
      dsimp only [bind, Option.bind] at h
      split at h
      · cases h
        exact .closes hpc hn
      · rename_i hne
        cases h
        exact .posts hpc hn fun i hi => hne i hi
  · rename_i i ret hpc
    cases h
    exact .puts hpc
  · rename_i op m hpc
    cases h
    exact .pathStarts hpc
  · rename_i ret hpc
    cases h
    exact .pathLeaves hpc
  · cases h

theorem vfsEnds_move {ret offset : Int} (h : vfsEnds s t ret offset = some x) :
    Move s (.ends t ret offset) x.1 := by
  unfold vfsEnds at h
  split at h
  · rename_i a m hpc
    obtain ⟨⟨s₁, r⟩, hfin, rfl⟩ := Option.map_eq_some_iff.mp h
    exact .ends hpc hfin
  · rename_i op m hpc
    cases h
    exact .pathEnds hpc
  · cases h

theorem vfsLock_eq {lockTask : Option Nat} (h : vfsLock s t lockTask = some x) :
    s.pc t = .idle ∧ x.1 = { s with lockTask := lockTask } := by
  unfold vfsLock at h
  split at h
  · rename_i hpc
    cases h
    exact ⟨hpc, rfl⟩
  · cases h

theorem vfsNext_runs {event : VfsEvent} (h : vfsNext s event = some s₁) :
    s.lockTask = none ∨ s.lockTask = some event.task := by
  obtain ⟨x, hx, rfl⟩ := Option.map_eq_some_iff.mp h
  unfold vfsStep at hx
  split at hx
  · assumption
  · cases hx

theorem vfsNext_move {event : VfsEvent} (h : vfsNext s event = some s₁) : Move s event s₁ := by
  have hruns := vfsNext_runs h
  obtain ⟨x, hx, rfl⟩ := Option.map_eq_some_iff.mp h
  unfold vfsStep at hx
  rw [if_pos hruns] at hx
  cases event with
  | call t c => exact vfsCall_move hx
  | run t got =>
    dsimp only at hx
    split at hx
    · rename_i hgot
      exact vfsRun_move hgot hx
    · cases hx
  | ends t ret offset => exact vfsEnds_move hx
  | lock t =>
    obtain ⟨hpc, heq⟩ := vfsLock_eq hx
    rw [heq]
    exact .locks hpc
  | unlock t =>
    obtain ⟨hpc, heq⟩ := vfsLock_eq hx
    rw [heq]
    exact .unlocks hpc

end

end LiteosM.Vfs
