import LiteosM.Vfs.Lookup

/-!
# The registered file systems

`los_fs_register` and `los_fs_unregister` keep the list of the file systems, and each mount point
keeps its own in it.
-/

namespace LiteosM.Vfs

open LiteosM.Lib.Transition

structure RegistryInv (s : VfsState) : Prop where
  nodup : s.fileSystems.Nodup
  valid : ∀ f ∈ s.fileSystems, losFsNameCheck (s.fs f).fsName = true
  named : ∀ f ∈ s.fileSystems, ∀ g ∈ s.fileSystems, (s.fs f).fsName = (s.fs g).fsName → f = g
  mounted : ∀ m ∈ s.mountPoints, (s.mp m).mFs ∈ s.fileSystems
  /-- The name was checked before the `LOS_MuxPend`. -/
  checked : ∀ t f, s.pc t = .enter (.register f) → losFsNameCheck (s.fs f).fsName = true
  waits : ∀ t f, s.pc t = .enter (.unregister f) → s.lockTask ≠ some t
  count : MountCount s
  locks : LockInv s

/-- The step in which a call of `los_fs_unregister` returns: at its `LOS_MuxPend`, or behind it. -/
def UnregisterReturns (s : VfsState) (f : Nat) (r : Stepped) : Prop :=
  ∃ t, (vfsStep s (.call t (.unregister f)) = some r ∧ r.2 ≠ none) ∨
    s.pc t = .enter (.unregister f) ∧ ∃ got, vfsStep s (.run t got) = some r

/-- `LOS_OK` says that the file system was registered and is not any more, and nothing else
changes the list. -/
def UnregisterTells (s : VfsState) (f : Nat) (r : Stepped) : Prop :=
  (r.2 = some 0 ↔ f ∈ s.fileSystems ∧ f ∉ r.1.fileSystems) ∧
    (r.2 ≠ some 0 → r.1.fileSystems = s.fileSystems)

section

variable {s s' : VfsState} {t f m : Nat} {event : VfsEvent} {r : Request} {got : Option Nat} {x : Stepped}

theorem losFinish_fileSystems {a : Access} {ret v : Int} (h : losFinish s m ret a = some (s', v)) :
    s'.fileSystems = s.fileSystems := by
  cases a with
  | «open» file flags =>
    simp only [losFinish] at h
    split at h <;> cases h <;> rfl
  | file op i =>
    cases op with
    | close =>
      simp only [losFinish] at h
      split at h
      · obtain ⟨n, _, h⟩ := Option.bind_eq_some_iff.mp h
        cases h
        rfl
      · cases h
        rfl
    | _ =>
      cases h
      rfl
  | opendir =>
    simp only [losFinish] at h
    split at h
    · split at h
      · cases h
        rfl
      · cases h
    · cases h
      rfl
  | readdir d =>
    cases h
    rfl
  | closedir d =>
    simp only [losFinish] at h
    split at h <;> cases h <;> rfl
  | mkdir =>
    cases h
    rfl

theorem vfsEnter_fileSystems (h : vfsEnter s t got r = some x) :
    x.1.fileSystems = s.fileSystems ∨ (∃ f, r = .register f ∧ x = losFsRegisterEnter s t f) ∨
      ∃ f, r = .unregister f ∧ x = losFsUnregisterEnter s t f := by
  cases r with
  | register f => exact .inr (.inl ⟨f, rfl, (Option.some.inj h).symm⟩)
  | unregister f => exact .inr (.inr ⟨f, rfl, (Option.some.inj h).symm⟩)
  | «open» path flags =>
    cases h
    left
    unfold losOpenEnter
    split
    · rfl
    · rename_i s₁ file hget
      obtain ⟨_, _, rfl⟩ := losFileGet_eq hget
      dsimp only
      split
      · rfl
      · split
        · rfl
        · split <;> rfl
  | attach op fd =>
    left
    change losAttachFileEnter s t op fd = some x at h
    unfold losAttachFileEnter at h
    split at h
    · obtain ⟨m, _, h⟩ := Option.bind_eq_some_iff.mp h
      split at h
      · cases h
        rfl
      · cases h
        split <;> rfl
    · cases h
      rfl
  | stat path =>
    cases h
    left
    unfold losPathEnter
    split
    · rfl
    · split <;> rfl
  | unlink path =>
    cases h
    left
    unfold losPathEnter
    split
    · rfl
    · split <;> rfl
  | rename old new =>
    cases h
    left
    unfold losRenameEnter
    split
    · split
      · rfl
      · split
        · rfl
        · unfold losPathEnter
          dsimp only
          split <;> rfl
    · rfl
  | opendir path =>
    cases h
    left
    unfold losDirEnter
    split
    · rfl
    · split <;> rfl
  | mkdir path =>
    cases h
    left
    unfold losDirEnter
    split
    · rfl
    · split <;> rfl
  | mount fsname path =>
    cases h
    left
    unfold losFsMountEnter
    split
    · rfl
    · split
      · rfl
      · split <;> rfl
  | unmount path =>
    cases h
    left
    unfold losFsUnmountEnter
    split <;> rfl

theorem enters_fileSystems : (s.enters t r).1.fileSystems = s.fileSystems := by
  unfold VfsState.enters
  split
  · rfl
  · split <;> rfl

theorem vfsNext_fileSystems (h : vfsNext s event = some s') :
    s'.fileSystems = s.fileSystems ∨ ∃ t f,
      (s.pc t = .enter (.register f) ∧ s' = (losFsRegisterEnter s t f).1) ∨
      (s.pc t = .enter (.unregister f) ∧ s' = (losFsUnregisterEnter s t f).1) := by
  have hruns := vfsNext_runs h
  obtain ⟨x, hx, rfl⟩ := Option.map_eq_some_iff.mp h
  unfold vfsStep at hx
  rw [if_pos hruns] at hx
  cases event with
  | call t c =>
    left
    change vfsCall s t c = some x at hx
    unfold vfsCall at hx
    split at hx
    · cases hx
      rfl
    · cases hx
      exact enters_fileSystems
    · split at hx
      · cases hx
      · dsimp only at hx
        split at hx <;> cases hx <;> rfl
    · cases hx
  | run t got =>
    change (if _ then vfsRun s t got else none) = some x at hx
    split at hx
    · unfold vfsRun at hx
      split at hx
      · rename_i r hpc
        split at hx
        · obtain hsame | ⟨f, rfl, rfl⟩ | ⟨f, rfl, rfl⟩ := vfsEnter_fileSystems hx
          · exact .inl hsame
          · exact .inr ⟨t, f, .inl ⟨hpc, rfl⟩⟩
          · exact .inr ⟨t, f, .inr ⟨hpc, rfl⟩⟩
        · cases hx
      · split at hx
        · rename_i hgoes
          obtain hsame | ⟨f, rfl, _⟩ | ⟨f, rfl, _⟩ := vfsEnter_fileSystems hx
          · exact .inl hsame
          · cases hgoes
          · cases hgoes
        · cases hx
      · left
        split at hx <;> cases hx <;> rfl
      · left
        split at hx
        · cases hx
          split <;> rfl
        · cases hx
      · left
        split at hx
        · cases hx
          rename_i a m _ _
          cases a <;> rfl
        · obtain ⟨r, hr, rfl⟩ := Option.map_eq_some_iff.mp hx
          have hfin : r.1.fileSystems = s.fileSystems := losFinish_fileSystems hr
          exact hfin
      · left
        obtain ⟨n, _, hx⟩ := Option.bind_eq_some_iff.mp hx
        dsimp only at hx
        split at hx <;> cases hx <;> rfl
      · cases hx
        exact .inl rfl
      · cases hx
        exact .inl rfl
      · cases hx
        exact .inl rfl
      · cases hx
    · cases hx
  | ends t ret offset =>
    left
    change vfsEnds s t ret offset = some x at hx
    unfold vfsEnds at hx
    split at hx
    · rename_i a m _
      obtain ⟨r, hr, rfl⟩ := Option.map_eq_some_iff.mp hx
      have hfin : r.1.fileSystems = (callbackOffset s offset a).fileSystems := losFinish_fileSystems hr
      refine Eq.trans hfin ?_
      cases a <;> rfl
    · cases hx
      rfl
    · cases hx
  | lock t =>
    obtain ⟨_, heq⟩ := vfsLock_eq hx
    exact .inl (by rw [heq])
  | unlock t =>
    obtain ⟨_, heq⟩ := vfsLock_eq hx
    exact .inl (by rw [heq])

theorem losMuxPend_stat (s : VfsState) (h t n : Nat) :
    ((losMuxPend s h t).mux n).muxStat = (s.mux n).muxStat := by
  unfold losMuxPend
  by_cases hn : n = h
  · rw [hn, setMux_self, pend_muxStat]
  · rw [setMux_of_ne hn]

theorem losMuxPost_stat (s : VfsState) (h t n : Nat) :
    ((losMuxPost s h t).mux n).muxStat = (s.mux n).muxStat := by
  unfold losMuxPost
  by_cases hn : n = h
  · rw [hn, setMux_self, post_muxStat]
  · rw [setMux_of_ne hn]

theorem MountCount.inert {s₁ : VfsState} {p : Pc} (hi : MountCount s) (h : Inert s s₁ m) :
    MountCount (s₁.setPc t p) :=
  hi.congr h.mountPoints h.mMutex h.mFs (fun n => congrArg (fun mux => (mux n).muxStat) h.mux) h.fsMutex
    h.fs

theorem Move.mountCount (hmove : Move s event s') (hlock : LockInv s) (hi : MountCount s) : MountCount s' := by
  have hpost : ∀ (s₁ : VfsState) (h t : Nat) (p : Pc), MountCount s₁ →
      MountCount ((losMuxPost s₁ h t).setPc t p) := fun s₁ h t p h₁ =>
    h₁.congr rfl (fun _ => rfl) (fun _ => rfl) (losMuxPost_stat s₁ h t) rfl rfl
  have hpend : ∀ (s₁ : VfsState) (h t : Nat) (p : Pc), MountCount s₁ →
      MountCount ((losMuxPend s₁ h t).setPc t p) := fun s₁ h t p h₁ =>
    h₁.congr rfl (fun _ => rfl) (fun _ => rfl) (losMuxPend_stat s₁ h t) rfl rfl
  have hfile : ∀ (i : Nat) (f : File), MountCount (s.setFile i f) := fun i f =>
    hi.congr rfl (fun _ => rfl) (fun _ => rfl) (fun _ => rfl) rfl rfl
  have hpc : ∀ (t : Nat) (p : Pc), MountCount (s.setPc t p) := fun t p =>
    hi.congr rfl (fun _ => rfl) (fun _ => rfl) (fun _ => rfl) rfl rfl
  cases hmove with
  | stay => exact hi
  | enter => exact hpend s _ _ _ hi
  | unheld => exact hpc _ _
  | spins => exact hpc _ _
  | tries => exact hpend s _ _ _ hi
  | locks => exact hi.congr rfl (fun _ => rfl) (fun _ => rfl) (fun _ => rfl) rfl rfl
  | unlocks => exact hi.congr rfl (fun _ => rfl) (fun _ => rfl) (fun _ => rfl) rfl rfl
  | direct => exact hpend s _ _ _ hi
  | leave fsl =>
    exact hpost { s with fileSystems := fsl } _ _ _
      (hi.congr rfl (fun _ => rfl) (fun _ => rfl) (fun _ => rfl) rfl rfl)
  | openFails => exact hpost _ _ _ _ (hfile _ _)
  | openPends => exact hpend _ _ _ _ (hfile _ _)
  | attach =>
    split
    · exact hpend _ _ _ _ (hfile _ _)
    · exact hpend _ _ _ _ hi
  | path => exact hpc _ _
  | dirPends => exact hpend _ _ _ _ hi
  | mount _ _ _ hbound hnew => exact hpost _ _ _ _ (hi.mount _ _ hlock hnew hbound)
  | unmount _ hm => exact hpost _ _ _ _ (hi.unmount hlock (losFsUnmounts_eq hm).1)
  | granted =>
    split
    · exact hpost _ _ _ _ hi
    · exact hpc _ _
  | @starts t m got a => exact hi.inert (inert_losOpenFields (m := m))
  | skips _ _ hfin => exact hi.inert (inert_losFinish hfin)
  | @ends t m a s₁ ret r offset _ hfin =>
    exact hi.inert ((inert_callbackOffset (m := m)).trans (inert_losFinish hfin))
  | posts => exact hpost _ _ _ _ hi
  | closes => exact hpost _ _ _ _ hi
  | puts => exact hi.inert (inert_losFilePut (m := 0))
  | pathStarts => exact hpc _ _
  | pathEnds => exact hpc _ _
  | pathLeaves => exact hpost _ _ _ _ hi

theorem Move.names (hmove : Move s event s') (f : Nat) : (s'.fs f).fsName = (s.fs f).fsName := by
  have hupdate : ∀ (g : Nat) (refs : Nat),
      (Function.update s.fs g { s.fs g with fsRefs := refs } f).fsName = (s.fs f).fsName := by
    intro g refs
    by_cases hg : f = g
    · rw [hg, Function.update_self]
    · rw [Function.update_of_ne hg]
  cases hmove with
  | mount => exact hupdate _ _
  | unmount => exact hupdate _ _
  | attach => split <;> rfl
  | granted => split <;> rfl
  | @starts t m got a =>
    have hin : Inert s (losOpenFields s t a m) m := inert_losOpenFields
    exact congrArg (fun fs => (fs f).fsName) hin.fs
  | skips _ _ hfin => exact congrArg (fun fs => (fs f).fsName) (inert_losFinish hfin).fs
  | @ends t m a s₁ ret r offset _ hfin =>
    have hin : Inert s s₁ m := inert_callbackOffset.trans (inert_losFinish hfin)
    exact congrArg (fun fs => (fs f).fsName) hin.fs
  | _ => rfl

theorem losFsFind_mem {name : List Char} (h : losFsFind s name = some f) : f ∈ s.fileSystems :=
  List.mem_of_find?_eq_some h

theorem vfsNext_mounted (hnext : vfsNext s event = some s')
    (hlock : LockInv s) (hmounted : ∀ m ∈ s.mountPoints, (s.mp m).mFs ∈ s.fileSystems) :
    ∀ m ∈ s'.mountPoints, (s'.mp m).mFs ∈ s.fileSystems := by
  have hinert : ∀ {s₁ : VfsState} {k t : Nat} {p : Pc}, Inert s s₁ k →
      ∀ m ∈ (s₁.setPc t p).mountPoints, ((s₁.setPc t p).mp m).mFs ∈ s.fileSystems := by
    intro s₁ k t p hin m hm
    change m ∈ s₁.mountPoints at hm
    change (s₁.mp m).mFs ∈ s.fileSystems
    rw [hin.mountPoints] at hm
    rw [hin.mFs]
    exact hmounted m hm
  cases vfsNext_move hnext with
  | @mount t f h fsname path hin hfs hfind hbound hnew =>
    intro m hm
    change ((addMountPoint s f path h).mp m).mFs ∈ s.fileSystems
    obtain rfl | hold := List.mem_cons.mp hm
    · rw [addMountPoint_self]
      exact losFsFind_mem hfs
    · have hlt := hlock.mounted m hold
      rw [addMountPoint_mp (by omega)]
      exact hmounted m hold
  | unmount => exact fun m hm => hmounted m (List.mem_of_mem_erase hm)
  | attach =>
    split
    · exact hmounted
    · exact hmounted
  | granted =>
    split
    · exact hmounted
    · exact hmounted
  | @starts t m got a =>
    have hin : Inert s (losOpenFields s t a m) m := inert_losOpenFields
    exact hinert hin
  | skips _ _ hfin => exact hinert (inert_losFinish hfin)
  | @ends t m a s₁ ret r offset _ hfin =>
    have hin : Inert s s₁ m := inert_callbackOffset.trans (inert_losFinish hfin)
    exact hinert hin
  | _ => exact hmounted

theorem start_register {c : Call} (h : c.start s = .enter (.register f)) :
    losFsNameCheck (s.fs f).fsName = true := by
  cases c with
  | register g =>
    change losFsRegister s g = _ at h
    unfold losFsRegister at h
    split at h
    · cases h
    · split at h
      · cases h
      · rename_i hcheck
        cases h
        simpa using hcheck
  | _ =>
    exfalso
    revert h
    simp only [Call.start, losOpen, losClose, losRead, losWrite, losLseek, losIoctl, losSync, losStat,
      losUnlink, losRename, losOpendir, losReaddir, losClosedir, losMkdir, losFsUnregister, losFsMount,
      losFsUnmount, losAttachFile]
    repeat' split
    all_goals exact fun h => by cases h

/-- Only a call brings a task to the `LOS_MuxPend` of `fs_mutex`, or the loop of `_los_attach_file`. -/
theorem Move.enter_kept (hmove : Move s event s') (hno : ∀ t c, event ≠ .call t c)
    (hr : ∀ op fd, r ≠ .attach op fd) (hpc : s'.pc event.task = .enter r) :
    s.pc event.task = .enter r := by
  have hset : ∀ {s₁ : VfsState} {t : Nat} {p : Pc}, (s₁.setPc t p).pc t = .enter r → p = .enter r :=
    fun h => (Function.update_self ..).symm.trans h
  cases hmove with
  | stay => exact hpc
  | enter => exact absurd rfl (hno _ _)
  | direct => exact absurd rfl (hno _ _)
  | tries op fd =>
    have htries := hset hpc
    cases htries
    exact absurd rfl (hr op fd)
  | locks => exact hpc
  | unlocks => exact hpc
  | attach =>
    have hwait := hset hpc
    cases hwait
  | granted =>
    split at hpc
    · have hin := hset hpc
      cases hin
    · have hin := hset hpc
      cases hin
  | _ =>
    have hother := hset hpc
    cases hother

theorem enters_enter {r' : Request} (hidle : s.pc t = .idle) (hpc : (s.enters t r).1.pc t = .enter r') :
    r = r' ∧ osMuxValidCheck s s.fsMutex = true := by
  unfold VfsState.enters at hpc
  split at hpc
  · rename_i hcheck
    cases (Function.update_self ..).symm.trans hpc
    exact ⟨rfl, hcheck⟩
  · split at hpc
    · cases hidle.symm.trans hpc
    · cases (Function.update_self ..).symm.trans hpc
    · cases (Function.update_self ..).symm.trans hpc

theorem vfsNext_enter {u : Nat} (hnext : vfsNext s event = some s') (hr : ∀ op fd, r ≠ .attach op fd)
    (hpc : s'.pc u = .enter r) :
    s.pc u = .enter r ∨
      ∃ c, event = .call u c ∧ c.start s = .enter r ∧ osMuxValidCheck s s.fsMutex = true := by
  have hmove := vfsNext_move hnext
  by_cases hu : u = event.task
  · subst hu
    cases event with
    | call t c =>
      have hruns := vfsNext_runs hnext
      obtain ⟨x, hx, rfl⟩ := Option.map_eq_some_iff.mp hnext
      unfold vfsStep at hx
      rw [if_pos hruns] at hx
      change vfsCall s t c = some x at hx
      change x.1.pc t = .enter r at hpc
      unfold vfsCall at hx
      split at hx
      · cases hx
        exact .inl hpc
      · rename_i r' hidle hstart
        cases hx
        obtain ⟨rfl, hcheck⟩ := enters_enter hidle hpc
        exact .inr ⟨c, rfl, hstart, hcheck⟩
      · dsimp only at hx
        split at hx
        · cases hx
        · split at hx
          · cases hx
            exact .inl hpc
          · cases hx
            have hwait := (Function.update_self ..).symm.trans hpc
            cases hwait
      · cases hx
    | _ => exact .inl (hmove.enter_kept (fun _ _ h => by cases h) hr hpc)
  · rw [hmove.others hu] at hpc
    exact .inl hpc

theorem vfsNext_checked (hnext : vfsNext s event = some s')
    (hchecked : ∀ t f, s.pc t = .enter (.register f) → losFsNameCheck (s.fs f).fsName = true) :
    ∀ t f, s'.pc t = .enter (.register f) → losFsNameCheck (s'.fs f).fsName = true := by
  intro u f hpc
  rw [(vfsNext_move hnext).names]
  obtain hold | ⟨c, _, hstart, _⟩ := vfsNext_enter hnext (fun op fd h => by cases h) hpc
  · exact hchecked u f hold
  · exact start_register hstart

theorem Move.lockTask_kept (hmove : Move s event s') (hlock : ∀ t, event ≠ .lock t)
    (hunlock : ∀ t, event ≠ .unlock t) : s'.lockTask = s.lockTask := by
  cases hmove with
  | locks => exact absurd rfl (hlock _)
  | unlocks => exact absurd rfl (hunlock _)
  | attach => split <;> rfl
  | granted => split <;> rfl
  | @starts t m got a =>
    have hin : Inert s (losOpenFields s t a m) m := inert_losOpenFields
    exact hin.lockTask
  | skips _ _ hfin => exact (inert_losFinish hfin).lockTask
  | @ends t m a s₁ ret r offset _ hfin =>
    have hin : Inert s s₁ m := inert_callbackOffset.trans (inert_losFinish hfin)
    exact hin.lockTask
  | _ => rfl

/-- A task that has locked the scheduler is refused, and does not lock it while it waits. -/
theorem vfsNext_waits (hnext : vfsNext s event = some s')
    (hwaits : ∀ t f, s.pc t = .enter (.unregister f) → s.lockTask ≠ some t) :
    ∀ t f, s'.pc t = .enter (.unregister f) → s'.lockTask ≠ some t := by
  intro u f hpc
  have hmove := vfsNext_move hnext
  by_cases hkeeps : (∀ t, event ≠ .lock t) ∧ ∀ t, event ≠ .unlock t
  · rw [hmove.lockTask_kept hkeeps.1 hkeeps.2]
    obtain hold | ⟨c, _, _, hcheck⟩ := vfsNext_enter hnext (fun op fd h => by cases h) hpc
    · exact hwaits u f hold
    · intro hlocked
      unfold osMuxValidCheck at hcheck
      rw [hlocked, Option.isNone_some, Bool.and_false] at hcheck
      cases hcheck
  · cases hmove with
    | stay => exact hwaits u f hpc
    | locks hidle =>
      intro hlocked
      cases hlocked
      cases hidle.symm.trans hpc
    | unlocks hidle => exact fun h => by cases h
    | _ =>
      refine absurd ⟨fun u hu => ?_, fun u hu => ?_⟩ hkeeps
      · cases hu
      · cases hu

theorem MountCount.unmounted (hi : MountCount s) (hrefs : (s.fs f).fsRefs = 0) :
    ∀ m ∈ s.mountPoints, (s.mp m).mFs ≠ f := by
  intro m hm heq
  rw [hi.fsRefs f, List.countP_eq_zero] at hrefs
  exact hrefs m hm (decide_eq_true heq)

theorem losFsFind_none {name : List Char} (h : losFsFind s name = none) :
    ∀ g ∈ s.fileSystems, (s.fs g).fsName ≠ name := by
  intro g hg heq
  have hno := List.find?_eq_none.mp h g hg
  rw [heq] at hno
  exact hno (decide_eq_true rfl)

theorem RegistryInv.step (hi : RegistryInv s) (hfree : FsFree s event)
    (hnext : vfsNext s event = some s') : RegistryInv s' := by
  have hturn : Turn s event := ⟨vfsNext_runs hnext, hfree⟩
  have hmove := vfsNext_move hnext
  have hname := hmove.names
  have hcount := hmove.mountCount hi.locks hi.count
  have hmounted := vfsNext_mounted hnext hi.locks hi.mounted
  have hchecked := vfsNext_checked hnext hi.checked
  have hwaits := vfsNext_waits hnext hi.waits
  -- it is enough to look at the list
  have hlist : s'.fileSystems.Nodup → (∀ f ∈ s'.fileSystems, losFsNameCheck (s.fs f).fsName = true) →
      (∀ f ∈ s'.fileSystems, ∀ g ∈ s'.fileSystems, (s.fs f).fsName = (s.fs g).fsName → f = g) →
      (∀ m ∈ s'.mountPoints, (s'.mp m).mFs ∈ s'.fileSystems) → RegistryInv s' := by
    intro hnodup hvalid hnamed hmount
    refine ⟨hnodup, fun f hf => ?_, fun f hf g hg h => ?_, hmount, hchecked, hwaits, hcount,
      hmove.lockInv hi.locks hturn⟩
    · rw [hname]
      exact hvalid f hf
    · rw [hname, hname] at h
      exact hnamed f hf g hg h
  have hsame : s'.fileSystems = s.fileSystems → RegistryInv s' := by
    intro h
    rw [h] at hlist
    exact hlist hi.nodup hi.valid hi.named hmounted
  obtain h | ⟨t, f, ⟨hpc, heq⟩ | ⟨hpc, heq⟩⟩ := vfsNext_fileSystems hnext
  · exact hsame h
  · unfold losFsRegisterEnter at heq
    split at heq
    · exact hsame (by rw [heq]; rfl)
    · rename_i hnone
      have hfind := losFsFind_none (Option.not_isSome_iff_eq_none.mp hnone)
      have hcons : s'.fileSystems = f :: s.fileSystems := by
        rw [heq]
        rfl
      rw [hcons] at hlist
      refine hlist (List.nodup_cons.mpr ⟨fun hf => hfind f hf rfl, hi.nodup⟩) ?_ ?_ fun m hm =>
        List.mem_cons_of_mem f (hmounted m hm)
      · intro g hg
        obtain rfl | hold := List.mem_cons.mp hg
        · exact hi.checked t g hpc
        · exact hi.valid g hold
      · intro g hg g' hg' h
        obtain rfl | hold := List.mem_cons.mp hg
        · obtain rfl | hold' := List.mem_cons.mp hg'
          · rfl
          · exact absurd h.symm (hfind g' hold')
        · obtain rfl | hold' := List.mem_cons.mp hg'
          · exact absurd h (hfind g hold)
          · exact hi.named g hold g' hold' h
  · unfold losFsUnregisterEnter at heq
    split at heq
    · exact hsame (by rw [heq]; rfl)
    · rename_i hrefs
      split at heq
      · have herase : s'.fileSystems = s.fileSystems.erase f := by
          rw [heq]
          rfl
        have hfs : s'.fs = s.fs := by
          rw [heq]
          rfl
        rw [herase] at hlist
        have hold : ∀ g ∈ s.fileSystems.erase f, g ∈ s.fileSystems := fun g hg => List.mem_of_mem_erase hg
        refine hlist (hi.nodup.erase f) (fun g hg => hi.valid g (hold g hg))
          (fun g hg g' hg' h => hi.named g (hold g hg) g' (hold g' hg') h) fun m hm => ?_
        have hzero : (s'.fs f).fsRefs = 0 := by
          rw [hfs]
          omega
        exact hi.nodup.mem_erase_iff.mpr ⟨hcount.unmounted hzero m hm, hmounted m hm⟩
      · exact hsame (by rw [heq]; rfl)

/-- Where `los_fs_unregister` returns, and with what. -/
theorem RegistryInv.unregisterReturns (hi : RegistryInv s) (h : UnregisterReturns s f x) :
    (s.lockTask ≠ none ∧ x = (s, some 1)) ∨ s.lockTask = none ∧ ∃ t, x = losFsUnregisterEnter s t f := by
  obtain ⟨t, ⟨hcall, hret⟩ | ⟨hpc, got, hrun⟩⟩ := h
  · unfold vfsStep at hcall
    obtain ⟨_, hcall⟩ := Option.ite_none_right_eq_some.mp hcall
    change vfsCall s t (.unregister f) = some x at hcall
    cases hpc : s.pc t with
    | idle =>
      unfold vfsCall at hcall
      rw [hpc] at hcall
      change some (s.enters t (.unregister f)) = some x at hcall
      cases hcall
      unfold VfsState.enters osMuxValidCheck at hret ⊢
      rw [hi.locks.fsStat, Bool.true_and] at hret ⊢
      cases hlock : s.lockTask with
      | none =>
        rw [hlock] at hret
        exact absurd rfl hret
      | some u => exact .inl ⟨Option.some_ne_none u, rfl⟩
    | _ =>
      unfold vfsCall at hcall
      rw [hpc] at hcall
      cases hcall
  · unfold vfsStep at hrun
    obtain ⟨hruns, hrun⟩ := Option.ite_none_right_eq_some.mp hrun
    dsimp only at hrun
    obtain ⟨_, hrun⟩ := Option.ite_none_right_eq_some.mp hrun
    unfold vfsRun at hrun
    rw [hpc] at hrun
    obtain ⟨_, hrun⟩ := Option.ite_none_right_eq_some.mp hrun
    cases hrun
    exact .inr ⟨hruns.resolve_right (hi.waits t f hpc), t, rfl⟩

/-- The result of `los_fs_unregister` tells the truth of a file system that is not busy, and of every
one while the scheduler is locked. -/
theorem RegistryInv.unregisterTells (hi : RegistryInv s) (h : UnregisterReturns s f x) :
    UnregisterTells s f x ↔ (s.fs f).fsRefs = 0 ∨ s.lockTask ≠ none := by
  unfold UnregisterTells
  obtain ⟨hlock, rfl⟩ | ⟨hlock, t, rfl⟩ := hi.unregisterReturns h
  · refine iff_of_true ?_ (.inr hlock)
    exact ⟨iff_of_false (fun h => by cases h) fun h => h.2 h.1, fun _ => rfl⟩
  · rw [hlock]
    unfold losFsUnregisterEnter
    by_cases hbusy : 0 < (s.fs f).fsRefs
    · rw [if_pos hbusy]
      refine iff_of_false (fun h => ?_) fun h => h.elim (by omega) fun h => h rfl
      obtain ⟨hin, hout⟩ := h.1.mp rfl
      exact hout hin
    · rw [if_neg hbusy]
      refine iff_of_true ?_ (.inl (by omega))
      by_cases hmem : f ∈ s.fileSystems
      · rw [if_pos hmem]
        refine ⟨iff_of_true rfl ⟨hmem, ?_⟩, fun h => absurd rfl h⟩
        exact fun h => (hi.nodup.mem_erase_iff.mp h).1 rfl
      · rw [if_neg hmem]
        exact ⟨iff_of_false (fun h => by cases h) fun h => hmem h.1, fun _ => rfl⟩

theorem vfsBooted_registryInv (hb : VfsBooted s) : RegistryInv s where
  nodup := by rw [hb.fileSystems]; exact List.nodup_nil
  valid := fun f hf => by rw [hb.fileSystems] at hf; cases hf
  named := fun f hf => by rw [hb.fileSystems] at hf; cases hf
  mounted := fun m hm => by rw [hb.mountPoints] at hm; cases hm
  checked := fun t f h => by rw [hb.pc t] at h; cases h
  waits := fun t f h => by rw [hb.pc t] at h; cases h
  count :=
    { nodup := by rw [hb.mountPoints]; exact List.nodup_nil
      stat := fun m hm => by rw [hb.mountPoints] at hm; cases hm
      bound := fun m hm => by rw [hb.mountPoints] at hm; cases hm
      fsBound := hb.bound
      inj := fun m hm => by rw [hb.mountPoints] at hm; cases hm
      fsRefs := fun f => by rw [hb.fsRefs f, hb.mountPoints]; rfl }
  locks := vfsBooted_lockInv hb

end

/-- The registry is sound in every run, and `los_fs_unregister` tells the truth as long as the file
system has no mount point or the scheduler is locked. -/
theorem losFs_registry {s₀ s : VfsState} {events : List VfsEvent} (hb : VfsBooted s₀)
    (hrun : Run (VfsStep fun _ _ => True) s₀ events s) :
    s.fileSystems.Nodup ∧ (∀ f ∈ s.fileSystems, losFsNameCheck (s.fs f).fsName = true) ∧
      (∀ f ∈ s.fileSystems, ∀ g ∈ s.fileSystems, (s.fs f).fsName = (s.fs g).fsName → f = g) ∧
      (∀ m ∈ s.mountPoints, (s.mp m).mFs ∈ s.fileSystems) ∧
      ∀ f r, UnregisterReturns s f r →
        (UnregisterTells s f r ↔ (s.fs f).fsRefs = 0 ∨ s.lockTask ≠ none) := by
  have hi : RegistryInv s :=
    run_invariant RegistryInv (fun s event s' hi hstep => hi.step hstep.1 hstep.2.2) hrun
      (vfsBooted_registryInv hb)
  exact ⟨hi.nodup, hi.valid, hi.named, hi.mounted, fun f r h => hi.unregisterTells h⟩

/-- The unregistration is refused under `LOS_TaskLock`, then the mount point is taken away, and the
file system is taken out of the list. -/
def smallUnregistered : List VfsEvent :=
  smallMount ++
    [.lock 1, .call 1 (.unregister 0), .unlock 1, .call 2 (.register 1), .run 2 none,
      .call 2 (.unmount (some "/a".toList)), .run 2 none, .call 1 (.unregister 0), .run 1 none,
      .call 2 (.register 1), .run 2 none]

theorem losFs_registry_small :
    (VfsBooted smallVfs ∧
      ∃ s r, Run (VfsStep fun _ _ => True) smallVfs (smallUnregistered.take 5) s ∧
        s.fileSystems = [0] ∧ s.lockTask = some 1 ∧ 0 < (s.fs 0).fsRefs ∧ UnregisterReturns s 0 r ∧
        r.2 = some 1 ∧ (∀ m ∈ s.mountPoints, (s.mp m).mFs ∈ s.fileSystems) ∧ UnregisterTells s 0 r) ∧
      ∃ s r, Run (VfsStep fun _ _ => True) smallVfs (smallUnregistered.take 12) s ∧
        s.fileSystems = [0] ∧ s.lockTask = none ∧ (s.fs 0).fsRefs = 0 ∧ UnregisterReturns s 0 r ∧
        r.2 = some 0 ∧ r.1.fileSystems = [] ∧ UnregisterTells s 0 r := by
  have hsteps : ∀ {k s}, (smallUnregistered.take k).foldlM
      (guarded (fun s event => quietStep s event = true) vfsNext) smallVfs = some s →
      Run (VfsStep fun _ _ => True) smallVfs (smallUnregistered.take k) s := fun hs =>
    run_mono (fun _ _ _ h => ⟨quietStep_fsFree h.2, trivial, h.1⟩) (run_of_guarded hs)
  constructor
  · refine ⟨smallVfs_booted, ?_⟩
    have hrun : ((smallUnregistered.take 5).foldlM (guarded (fun s event => quietStep s event = true)
        vfsNext) smallVfs).bind (fun s => (vfsStep s (.call 1 (.unregister 0))).map fun r =>
        (s.fileSystems, s.lockTask, (s.fs 0).fsRefs, r.2)) = some ([0], some 1, 1, some 1) := by
      decide +kernel
    obtain ⟨s, hs, hrun⟩ := Option.bind_eq_some_iff.mp hrun
    obtain ⟨r, hr, hval⟩ := Option.map_eq_some_iff.mp hrun
    simp only [Prod.mk.injEq] at hval
    obtain ⟨hlist, hlock, hrefs, hret⟩ := hval
    have hreturns : UnregisterReturns s 0 r := ⟨1, .inl ⟨hr, by rw [hret]; exact fun h => by cases h⟩⟩
    obtain ⟨_, _, _, hmounted, htells⟩ := losFs_registry smallVfs_booted (hsteps hs)
    refine ⟨s, r, hsteps hs, hlist, hlock, by omega, hreturns, hret, hmounted, ?_⟩
    exact (htells 0 r hreturns).mpr (.inr (by rw [hlock]; exact fun h => by cases h))
  · have hrun : ((smallUnregistered.take 12).foldlM (guarded (fun s event => quietStep s event = true)
        vfsNext) smallVfs).bind (fun s => (vfsStep s (.run 1 none)).map fun r =>
        decide (s.fileSystems = [0] ∧ s.lockTask = none ∧ (s.fs 0).fsRefs = 0 ∧
          s.pc 1 = .enter (.unregister 0) ∧ r.2 = some 0 ∧ r.1.fileSystems = [])) = some true := by
      decide +kernel
    obtain ⟨s, hs, hrun⟩ := Option.bind_eq_some_iff.mp hrun
    obtain ⟨r, hr, hval⟩ := Option.map_eq_some_iff.mp hrun
    obtain ⟨hlist, hlock, hrefs, hpc, hret, hafter⟩ := of_decide_eq_true hval
    have hreturns : UnregisterReturns s 0 r := ⟨1, .inr ⟨hpc, none, hr⟩⟩
    obtain ⟨_, _, _, _, htells⟩ := losFs_registry smallVfs_booted (hsteps hs)
    exact ⟨s, r, hsteps hs, hlist, hlock, hrefs, hreturns, hret, hafter,
      (htells 0 r hreturns).mpr (.inl hrefs)⟩

/-- A file system with a mount point is not taken out of the list, and the caller is told that it
is. -/
theorem losFsUnregister_busy :
    ∃ s r, Run (fun s event s' => vfsNext s event = some s') smallVfs
        (smallMount ++ [.call 1 (.unregister 0)]) s ∧
      s.fileSystems = [0] ∧ UnregisterReturns s 0 r ∧ r.2 = some 0 ∧ r.1.fileSystems = [0] ∧
      ¬UnregisterTells s 0 r := by
  have hrun : ((smallMount ++ [VfsEvent.call 1 (.unregister 0)]).foldlM vfsNext smallVfs).bind (fun s =>
      (vfsStep s (.run 1 none)).map fun r =>
        (s.fileSystems, decide (s.pc 1 = .enter (.unregister 0)), r.2, r.1.fileSystems)) =
      some ([0], true, some 0, [0]) := by
    decide +kernel
  obtain ⟨s, hs, hrun⟩ := Option.bind_eq_some_iff.mp hrun
  obtain ⟨r, hr, hval⟩ := Option.map_eq_some_iff.mp hrun
  simp only [Prod.mk.injEq, decide_eq_true_eq] at hval
  obtain ⟨hlist, hpc, hret, hafter⟩ := hval
  refine ⟨s, r, run_of_foldlM hs, hlist, ⟨1, .inr ⟨hpc, none, hr⟩⟩, hret, hafter, fun h => ?_⟩
  have hgone := (h.1.mp hret).2
  rw [hafter] at hgone
  exact hgone (List.mem_singleton_self 0)

end LiteosM.Vfs
