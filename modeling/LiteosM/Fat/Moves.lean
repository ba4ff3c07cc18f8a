import LiteosM.Fat.Calls
import LiteosM.Fat.Truncate

/-!
# What the critical sections do
-/

namespace LiteosM.Fat

/-- Calls that are not about one file, directory or path. -/
def FatCall.idle : FatCall → Bool
  | .fMount _ _ => true
  | .fCheckopenlock _ _ => true
  | .fChdrive _ => true
  | .fStat _ => true
  | _ => false

variable [FatConfig]

/-- `fatfs_open` comes to `f_open` of the slot. -/
structure Opens (s : FatState) (env : FatEnv) (path : List Char) (oflag openNum : Nat) : Prop where
  lock : env.fsLock = true
  bound : s.gFileNum < fatMaxOpenFiles
  free : freeSlot s = some openNum
  drive : env.fChdrive = .ok
  stat : ¬((hasFlag oflag oCreat && !fsCheckByPath s path) = true ∧ (env.fStat = .noFile ∨ env.fStat = .noPath))

/-- A critical section and its outcome. -/
inductive FatMove (s : FatState) (env : FatEnv) : FatOp → FatOutcome → Prop
  | idle {op : FatOp} {ret : Int} {calls : List FatCall} (hidle : ∀ call ∈ calls, call.idle = true) (hret : ret = -1) :
      FatMove s env op ⟨s, ret, calls⟩
  | remount {target filesystemtype : Option (List Char)} {mountflags index : Nat} {enable : Bool} :
      FatMove s env (.mount target filesystemtype mountflags)
        ⟨{ s with gVolWriteEnable := Function.update s.gVolWriteEnable index enable }, 0, []⟩
  | mount {path : List Char} {mountflags index : Nat} {enable : Bool} (hlock : env.fsLock = true)
      (hflag : hasFlag mountflags msRemount = false) (hfind : fsPartitionMatch path .volumeName = some index)
      (hfree : (s.gFatfs index).mounted = false) (hmount : env.fMount = .ok) :
      FatMove s env (.mount (some path) (some "fat".toList) mountflags)
        ⟨{ s with
            gFatfs := Function.update s.gFatfs index ⟨true, (s.fsid + 1) % 2 ^ 16, env.csize, env.ssize⟩
            gVolWriteEnable := Function.update s.gVolWriteEnable index enable
            fsid := (s.fsid + 1) % 2 ^ 16 },
          0, [.fMount index .ok]⟩
  | umount {path : List Char} {index : Nat} (hfind : fsPartitionMatch path .volumeName = some index)
      (hopen : env.fCheckopenlock = .ok) (hlock : env.fsLock = true) (hmounted : (s.gFatfs index).mounted = true)
      (hmount : env.fMount = .ok) :
      FatMove s env (.umount (some path))
        ⟨{ s with gFatfs := Function.update s.gFatfs index clearedFatfs }, 0,
          [.fCheckopenlock index .ok, .fMount index .ok]⟩
  | umount2 {path : List Char} {flag index : Nat} (hfind : fsPartitionMatch path .volumeName = some index)
      (hforce : hasFlag flag mntForce = false) (hlock : env.fsLock = true)
      (hmounted : (s.gFatfs index).mounted = true) (hmount : env.fMount = .ok) :
      FatMove s env (.umount2 (some path) flag)
        ⟨{ s with gFatfs := Function.update s.gFatfs index clearedFatfs }, 0, [.fMount index .ok]⟩
  | forceStops {path : List Char} {flag index : Nat} {s' : FatState} {calls : List FatCall}
      (hfind : fsPartitionMatch path .volumeName = some index) (hforce : hasFlag flag mntForce = true)
      (hclose : closeAll s index env = (s', calls, false)) (hlock : env.fsLock = true)
      (hmounted : (s.gFatfs index).mounted = true) :
      FatMove s env (.umount2 (some path) flag) ⟨s', -1, calls⟩
  | forceStays {path : List Char} {flag index : Nat} {s' : FatState} {calls : List FatCall} {res : FResult}
      (hfind : fsPartitionMatch path .volumeName = some index) (hforce : hasFlag flag mntForce = true)
      (hclose : closeAll s index env = (s', calls, true)) (hlock : env.fsLock = true)
      (hmounted : (s.gFatfs index).mounted = true) :
      FatMove s env (.umount2 (some path) flag) ⟨s', -1, calls ++ [.fMount index res]⟩
  | force {path : List Char} {flag index : Nat} {s' : FatState} {calls : List FatCall}
      (hfind : fsPartitionMatch path .volumeName = some index) (hforce : hasFlag flag mntForce = true)
      (hclose : closeAll s index env = (s', calls, true)) (hlock : env.fsLock = true)
      (hmounted : (s.gFatfs index).mounted = true) :
      FatMove s env (.umount2 (some path) flag)
        ⟨{ s' with gFatfs := Function.update s'.gFatfs index clearedFatfs }, 0, calls ++ [.fMount index .ok]⟩
  | openFails {path : List Char} {oflag openNum : Nat} {calls : List FatCall} {res : FResult}
      (hopen : Opens s env path oflag openNum) (hidle : ∀ call ∈ calls, call.idle = true) :
      FatMove s env (.open (some path) oflag)
        ⟨s.setHandle openNum ⟨false, { (s.gHandle openNum).fil with fs := none }⟩, -1,
          calls ++ [.fOpen openNum (pathVolume path) (openChanges (fatFsGetMode oflag) env.fileExists) res]⟩
  | opens {path : List Char} {oflag openNum : Nat} {calls : List FatCall}
      (hopen : Opens s env path oflag openNum) (hidle : ∀ call ∈ calls, call.idle = true) :
      FatMove s env (.open (some path) oflag)
        ⟨{ s.setHandle openNum ⟨true, ⟨some (pathVolume path), env.objsize, env.flag, env.fptr, some s.nextBuf⟩⟩ with
            gFileNum := s.gFileNum + 1
            nextBuf := s.nextBuf + 1 },
          openNum,
          calls ++ [.fOpen openNum (pathVolume path) (openChanges (fatFsGetMode oflag) env.fileExists) .ok]⟩
  | closeFails {fd : Nat} {res : FResult} (hlock : env.fsLock = true) :
      FatMove s env (.onFd .close fd) ⟨s, -1, [.fClose fd res]⟩
  | closes {fd : Nat} {frees : List FatCall}
      (hfrees : frees = ((s.gHandle fd).fil.buf.map FatCall.ffMemfree).toList) (hlock : env.fsLock = true) :
      FatMove s env (.onFd .close fd)
        ⟨{ s.setHandle fd clearedHandle with gFileNum := if 0 < s.gFileNum then s.gFileNum - 1 else s.gFileNum }, 0,
          .fClose fd .ok :: frees⟩
  | reads {fd : Nat} {ret : Int} (hlock : env.fsLock = true) :
      FatMove s env (.onFd .read fd) ⟨moveFile s fd env, ret, [.fRead fd]⟩
  | writes {fd fs nbyte : Nat} {ret : Int} (hfs : s.volume fd = some fs)
      (hcheck : fsCheckByID s (s.gFatfs fs).id = true) (hlock : env.fsLock = true) :
      FatMove s env (.onFd (.write nbyte) fd) ⟨moveFile s fd env, ret, [.fWrite fd fs]⟩
  | truncateFails {fd length : Nat} {res : FResult} (hlock : env.fsLock = true) :
      FatMove s env (.onFd (.ftruncate length) fd) ⟨s, -1, [.fGetclustinfo fd res]⟩
  | truncates {fd fs length : Nat} {ret : Int} {fil : Fil} {calls : List FatCall} (hfs : s.volume fd = some fs)
      (hcheck : fsCheckByID s (s.gFatfs fs).id = true)
      (hfil : fil.fs = (s.gHandle fd).fil.fs ∧ fil.buf = (s.gHandle fd).fil.buf)
      (hcalls : ∀ call ∈ calls, call = .fGetclustinfo fd .ok ∨ (∃ res, call = .fExpand fd fs length res) ∨
        ∃ res, call = .fTruncate fd fs length res)
      (hlock : env.fsLock = true) :
      FatMove s env (.onFd (.ftruncate length) fd)
        ⟨s.setHandle fd { s.gHandle fd with fil := fil }, ret, calls⟩
  | unlink {path : List Char} {ret : Int} (hlock : env.fsLock = true) (hdrive : env.fChdrive = .ok)
      (hcheck : fsCheckByPath s path = true) :
      FatMove s env (.unlink (some path)) ⟨s, ret, [.fChdrive .ok, .fUnlink (pathVolume path)]⟩
  | mkdir {path : List Char} {ret : Int} (hlock : env.fsLock = true) (hdrive : env.fChdrive = .ok)
      (hcheck : fsCheckByPath s path = true) :
      FatMove s env (.mkdir (some path)) ⟨s, ret, [.fChdrive .ok, .fMkdir (pathVolume path)]⟩
  | rmdir {path : List Char} {ret : Int} (hlock : env.fsLock = true) (hdrive : env.fChdrive = .ok)
      (hcheck : fsCheckByPath s path = true) :
      FatMove s env (.rmdir (some path)) ⟨s, ret, [.fChdrive .ok, .fRmdir (pathVolume path)]⟩
  | rename {oldName newName : List Char} {ret : Int} (hlock : env.fsLock = true) (hdrive : env.fChdrive = .ok)
      (hold : fsCheckByPath s oldName = true) (hnew : fsCheckByPath s newName = true) :
      FatMove s env (.rename (some oldName) (some newName))
        ⟨s, ret, [.fChdrive .ok, .fRename (pathVolume oldName) (pathVolume newName)]⟩
  | opendirFails {dirName : List Char} {openNum : Nat} {res : FResult} (hfree : freeDir s = some openNum)
      (hres : res ≠ .ok) :
      FatMove s env (.opendir (some dirName))
        ⟨s.setDir openNum clearedDir, -1, [.fChdrive .ok, .fOpendir openNum res]⟩
  | opensDir {dirName : List Char} {openNum : Nat} (hbound : s.gDirNum < fatMaxOpenDirs)
      (hfree : freeDir s = some openNum) :
      FatMove s env (.opendir (some dirName))
        ⟨{ s.setDir openNum ⟨some (pathVolume dirName), true⟩ with gDirNum := s.gDirNum + 1 }, openNum,
          [.fChdrive .ok, .fOpendir openNum .ok]⟩
  | closedirFails {dir : Nat} (hlock : env.fsLock = true) (hres : env.fClosedir dir ≠ .ok) :
      FatMove s env (.closedir dir)
        ⟨{ s with gDirNum := (s.gDirNum + (2 ^ 32 - 1)) % 2 ^ 32 }, -1, [.fClosedir dir (env.fClosedir dir)]⟩
  | closesDir {dir : Nat} :
      FatMove s env (.closedir dir)
        ⟨{ s.setDir dir clearedDir with gDirNum := (s.gDirNum + (2 ^ 32 - 1)) % 2 ^ 32 }, 0,
          [.fClosedir dir .ok]⟩

variable {s : FatState} {env : FatEnv} {o : FatOutcome}

theorem fatMove_fails {op : FatOp} : FatMove s env op (s.fails []) := FatMove.idle (by simp) rfl

theorem fatfsMount_move {target filesystemtype : Option (List Char)} {mountflags : Nat} :
    FatMove s env (.mount target filesystemtype mountflags)
      (fatfsMount s target filesystemtype mountflags env) := by
  unfold fatfsMount
  split
  · rename_i target filesystemtype
    split
    · exact fatMove_fails
    · rename_i hlock
      rw [Bool.not_eq_true', Bool.not_eq_false] at hlock
      split
      · unfold remount
        split
        · exact fatMove_fails
        · split
          · exact fatMove_fails
          · exact FatMove.remount
      · rename_i hflag
        rw [Bool.not_eq_true] at hflag
        split
        · exact fatMove_fails
        · rename_i htype
          rw [not_not.mp htype]
          split
          · exact fatMove_fails
          · rename_i index hfind
            split
            · exact fatMove_fails
            · rename_i hfree
              rw [Bool.not_eq_true] at hfree
              split
              · exact FatMove.idle (by simp [FatCall.idle]) rfl
              · rename_i hmount
                exact FatMove.mount hlock hflag hfind hfree (not_not.mp hmount)
  · exact fatMove_fails

theorem fatfsUmount_move {target : Option (List Char)} :
    FatMove s env (.umount target) (fatfsUmount s target env) := by
  unfold fatfsUmount
  split
  · exact fatMove_fails
  · rename_i target
    split
    · exact fatMove_fails
    · rename_i hlock
      rw [Bool.not_eq_true', Bool.not_eq_false] at hlock
      split
      · exact fatMove_fails
      · rename_i index hfind
        split
        · exact fatMove_fails
        · rename_i hmounted
          rw [Bool.not_eq_true', Bool.not_eq_false] at hmounted
          split
          · exact FatMove.idle (by simp [FatCall.idle]) rfl
          · rename_i hopen
            unfold unmountVolume
            split
            · exact FatMove.idle (by simp [FatCall.idle]) rfl
            · rename_i hmount
              exact FatMove.umount hfind (not_not.mp hopen) hlock hmounted (not_not.mp hmount)

theorem fatfsUmount2_move {target : Option (List Char)} {flag : Nat} :
    FatMove s env (.umount2 target flag) (fatfsUmount2 s target flag env) := by
  unfold fatfsUmount2
  split
  · exact fatMove_fails
  · rename_i target
    split
    · exact fatMove_fails
    · split
      · exact fatMove_fails
      · rename_i hlock
        rw [Bool.not_eq_true', Bool.not_eq_false] at hlock
        split
        · exact fatMove_fails
        · rename_i index hfind
          split
          · exact fatMove_fails
          · rename_i hmounted
            rw [Bool.not_eq_true', Bool.not_eq_false] at hmounted
            split
            · rename_i hforce
              split
              · rename_i s' calls hclose
                exact FatMove.forceStops hfind hforce hclose hlock hmounted
              · rename_i s' calls hclose
                unfold unmountVolume
                split
                · exact FatMove.forceStays hfind hforce hclose hlock hmounted
                · exact FatMove.force hfind hforce hclose hlock hmounted
            · rename_i hforce
              rw [Bool.not_eq_true] at hforce
              unfold unmountVolume
              split
              · exact FatMove.idle (by simp [FatCall.idle]) rfl
              · rename_i hmount
                exact FatMove.umount2 hfind hforce hlock hmounted (not_not.mp hmount)

theorem fatfsOpen_move {path : Option (List Char)} {oflag : Nat} :
    FatMove s env (.open path oflag) (fatfsOpen s path oflag env) := by
  unfold fatfsOpen
  split
  · exact fatMove_fails
  · rename_i path
    dsimp only
    split
    · exact fatMove_fails
    · rename_i hlock
      split
      · exact fatMove_fails
      · rename_i hbound
        split
        · exact fatMove_fails
        · rename_i openNum hfree
          split
          · exact FatMove.idle (by simp [FatCall.idle]) rfl
          · rename_i hdrive
            have hidle : ∀ call ∈ (FatCall.fChdrive .ok ::
                if (hasFlag oflag oCreat && !fsCheckByPath s path) = true then [FatCall.fStat env.fStat] else []),
                call.idle = true := by
              intro call hcall
              obtain rfl | hcall := List.mem_cons.mp hcall
              · rfl
              · split at hcall
                · rw [List.mem_singleton.mp hcall]
                  rfl
                · cases hcall
            split
            · exact FatMove.idle hidle rfl
            · rename_i hstat
              have hopen : Opens s env path oflag openNum :=
                ⟨by simpa using hlock, Nat.not_le.mp hbound, hfree, not_not.mp hdrive, hstat⟩
              split
              · exact FatMove.openFails hopen hidle
              · rename_i hres
                rw [not_not.mp hres]
                exact FatMove.opens hopen hidle

theorem fatfsClose_move {fd : Nat} : FatMove s env (.onFd .close fd) (fatfsClose s fd env) := by
  unfold fatfsClose
  split
  · exact fatMove_fails
  · rename_i hlock
    rw [Bool.not_eq_true', Bool.not_eq_false] at hlock
    split
    · exact FatMove.closeFails hlock
    · refine FatMove.closes ?_ hlock
      cases (s.gHandle fd).fil.buf <;> rfl

theorem fatfsRead_move {fd : Nat} : FatMove s env (.onFd .read fd) (fatfsRead s fd env) := by
  unfold fatfsRead
  split
  · exact fatMove_fails
  · rename_i hlock
    rw [Bool.not_eq_true', Bool.not_eq_false] at hlock
    split
    · exact FatMove.reads hlock
    · exact FatMove.reads hlock

theorem fatfsWrite_move {fd nbyte : Nat} (h : fatfsWrite s fd nbyte env = some o) :
    FatMove s env (.onFd (.write nbyte) fd) o := by
  unfold fatfsWrite at h
  split at h
  · cases h
    exact fatMove_fails
  · rename_i hlock
    rw [Bool.not_eq_true', Bool.not_eq_false] at hlock
    obtain ⟨fs, hfs, h⟩ := Option.bind_eq_some_iff.mp h
    split at h
    · cases h
      exact fatMove_fails
    · rename_i hcheck
      rw [Bool.not_eq_true', Bool.not_eq_false] at hcheck
      split at h
      · cases h
        exact FatMove.writes hfs hcheck hlock
      · cases h
        exact FatMove.writes hfs hcheck hlock

omit [FatConfig] in
theorem fExpand_keeps {fp : Fil} {length allocated : Nat} :
    (fExpand fp length allocated env).1.fs = fp.fs ∧ (fExpand fp length allocated env).1.buf = fp.buf := by
  unfold fExpand
  repeat' split
  all_goals exact ⟨rfl, rfl⟩

omit [FatConfig] in
theorem fTruncate_keeps {fp : Fil} {length : Nat} :
    (fTruncate fp length env).1.fs = fp.fs ∧ (fTruncate fp length env).1.buf = fp.buf := by
  unfold fTruncate
  dsimp only
  repeat' split
  all_goals exact ⟨rfl, rfl⟩

theorem truncated_move {fd fs length : Nat} {fil : Fil} {res : FResult} {calls : List FatCall}
    (hfs : s.volume fd = some fs) (hcheck : fsCheckByID s (s.gFatfs fs).id = true)
    (hfil : fil.fs = (s.gHandle fd).fil.fs ∧ fil.buf = (s.gHandle fd).fil.buf)
    (hcalls : ∀ call ∈ calls, call = .fGetclustinfo fd .ok ∨ (∃ res, call = .fExpand fd fs length res) ∨
      ∃ res, call = .fTruncate fd fs length res)
    (hlock : env.fsLock = true) :
    FatMove s env (.onFd (.ftruncate length) fd) (truncated s fd length fil res calls) := by
  unfold truncated
  split
  · exact FatMove.truncates hfs hcheck hfil hcalls hlock
  · exact FatMove.truncates hfs hcheck hfil hcalls hlock

theorem fatfsFtruncate_move {fd length : Nat} (h : fatfsFtruncate s fd length env = some o) :
    FatMove s env (.onFd (.ftruncate length) fd) o := by
  by_cases hlock : env.fsLock = true
  · cases hfs : s.volume fd with
    | none => simp [fatfsFtruncate, hlock, hfs] at h
    | some fs =>
      by_cases hcheck : fsCheckByID s (s.gFatfs fs).id = true
      · have heq := fatfsFtruncate_eq length env.garbage hlock hfs hcheck
        rw [heq] at h
        split at h
        · cases h
          exact FatMove.truncateFails hlock
        · split at h
          · cases h
            refine truncated_move hfs hcheck fExpand_keeps (fun call hcall => ?_) hlock
            obtain rfl | hcall := List.mem_cons.mp hcall
            · exact .inl rfl
            · exact .inr (.inl ⟨_, List.mem_singleton.mp hcall⟩)
          · split at h
            · cases h
              refine truncated_move hfs hcheck fTruncate_keeps (fun call hcall => ?_) hlock
              obtain rfl | hcall := List.mem_cons.mp hcall
              · exact .inl rfl
              · exact .inr (.inr ⟨_, List.mem_singleton.mp hcall⟩)
            · cases h
              exact truncated_move hfs hcheck ⟨rfl, rfl⟩ (fun call hcall => .inl (List.mem_singleton.mp hcall)) hlock
      · rw [Bool.not_eq_true] at hcheck
        simp [fatfsFtruncate, hlock, hfs, hcheck] at h
        cases h
        exact fatMove_fails
  · rw [Bool.not_eq_true] at hlock
    simp [fatfsFtruncate, hlock] at h
    cases h
    exact fatMove_fails

theorem pathCall_move {path : Option (List Char)} {op : Option (List Char) → FatOp} {call : Nat → FatCall}
    (hmove : ∀ path ret, env.fsLock = true → env.fChdrive = .ok → fsCheckByPath s path = true →
      FatMove s env (op (some path)) ⟨s, ret, [.fChdrive .ok, call (pathVolume path)]⟩) :
    FatMove s env (op path) (pathCall s path call env) := by
  unfold pathCall
  split
  · exact fatMove_fails
  · rename_i path
    split
    · exact fatMove_fails
    · rename_i hlock
      split
      · exact fatMove_fails
      · rename_i hcheck
        split
        · exact FatMove.idle (by simp [FatCall.idle]) rfl
        · rename_i hdrive
          exact hmove path _ (by simpa using hlock) (not_not.mp hdrive) (by simpa using hcheck)

theorem fatfsRename_move {oldName newName : Option (List Char)} :
    FatMove s env (.rename oldName newName) (fatfsRename s oldName newName env) := by
  unfold fatfsRename
  split
  · split
    · exact fatMove_fails
    · rename_i hlock
      split
      · exact fatMove_fails
      · rename_i hcheck
        rw [Bool.or_eq_true, not_or, Bool.not_eq_true', Bool.not_eq_false, Bool.not_eq_true', Bool.not_eq_false]
          at hcheck
        split
        · exact FatMove.idle (by simp [FatCall.idle]) rfl
        · rename_i hdrive
          exact FatMove.rename (by simpa using hlock) (not_not.mp hdrive) hcheck.1 hcheck.2
  · exact fatMove_fails

theorem fatfsOpendir_move {dirName : Option (List Char)} :
    FatMove s env (.opendir dirName) (fatfsOpendir s dirName env) := by
  unfold fatfsOpendir
  split
  · exact fatMove_fails
  · split
    · exact fatMove_fails
    · split
      · exact fatMove_fails
      · rename_i hbound
        split
        · exact fatMove_fails
        · rename_i openNum hfree
          split
          · exact FatMove.idle (by simp [FatCall.idle]) rfl
          · dsimp only
            split
            · rename_i hres
              exact FatMove.opendirFails hfree hres
            · rename_i hres
              rw [not_not.mp hres]
              exact FatMove.opensDir (Nat.not_le.mp hbound) hfree

theorem fatfsClosedir_move {dir : Nat} : FatMove s env (.closedir dir) (fatfsClosedir s dir env) := by
  unfold fatfsClosedir
  split
  · exact fatMove_fails
  · rename_i hlock
    dsimp only
    split
    · rename_i hres
      exact FatMove.closedirFails (by simpa using hlock) hres
    · exact FatMove.closesDir

theorem fatOp_move {op : FatOp} (h : fatOp s env op = some o) : FatMove s env op o := by
  cases op with
  | mount => cases h; exact fatfsMount_move
  | umount => cases h; exact fatfsUmount_move
  | umount2 => cases h; exact fatfsUmount2_move
  | «open» => cases h; exact fatfsOpen_move
  | onFd call fd =>
    cases call with
    | close => cases h; exact fatfsClose_move
    | read => cases h; exact fatfsRead_move
    | write => exact fatfsWrite_move h
    | ftruncate => exact fatfsFtruncate_move h
  | unlink => cases h; exact pathCall_move fun _ _ => FatMove.unlink
  | mkdir => cases h; exact pathCall_move fun _ _ => FatMove.mkdir
  | rmdir => cases h; exact pathCall_move fun _ _ => FatMove.rmdir
  | rename => cases h; exact fatfsRename_move
  | opendir => cases h; exact fatfsOpendir_move
  | closedir => cases h; exact fatfsClosedir_move

end LiteosM.Fat
