import LiteosM.Vfs.Locks

/-!
# The mount points and their mutexes

Every mount point has a mutex of its own, no other mutex is left over, and the file systems count
their mount points.
-/

namespace LiteosM.Vfs

open LiteosM.Lib.Counting

structure MountInv (s : VfsState) : Prop where
  nodup : s.mountPoints.Nodup
  stat : ∀ m ∈ s.mountPoints, (s.mux (s.mp m).mMutex).muxStat = true
  bound : ∀ m ∈ s.mountPoints, (s.mp m).mMutex < 2 ^ 32
  fsBound : s.fsMutex < 2 ^ 32
  inj : ∀ m ∈ s.mountPoints, ∀ n ∈ s.mountPoints, (s.mp m).mMutex = (s.mp n).mMutex → m = n
  used : ∀ h, (s.mux h).muxStat = true → h = s.fsMutex ∨ ∃ m ∈ s.mountPoints, (s.mp m).mMutex = h
  calm : ∀ h, (s.mux h).owner = none → (s.mux h).muxList = []
  fsRefs : ∀ f, (s.fs f).fsRefs = s.mountPoints.countP fun m => (s.mp m).mFs = f

/-- The part of it that an unmount keeps even if a task waits for the mutex. -/
structure MountCount (s : VfsState) : Prop where
  nodup : s.mountPoints.Nodup
  stat : ∀ m ∈ s.mountPoints, (s.mux (s.mp m).mMutex).muxStat = true
  bound : ∀ m ∈ s.mountPoints, (s.mp m).mMutex < 2 ^ 32
  fsBound : s.fsMutex < 2 ^ 32
  inj : ∀ m ∈ s.mountPoints, ∀ n ∈ s.mountPoints, (s.mp m).mMutex = (s.mp n).mMutex → m = n
  fsRefs : ∀ f, (s.fs f).fsRefs = s.mountPoints.countP fun m => (s.mp m).mFs = f

section

variable {s s' s₁ : VfsState} {t u h m : Nat} {event : VfsEvent} {p : Pc} {cb : Mutex}

theorem MountInv.count (hi : MountInv s) : MountCount s where
  nodup := hi.nodup
  stat := hi.stat
  bound := hi.bound
  fsBound := hi.fsBound
  inj := hi.inj
  fsRefs := hi.fsRefs

theorem MountCount.congr (hi : MountCount s) (hmounts : s₁.mountPoints = s.mountPoints)
    (hmutex : ∀ m, (s₁.mp m).mMutex = (s.mp m).mMutex) (hfs : ∀ m, (s₁.mp m).mFs = (s.mp m).mFs)
    (hstat : ∀ h, (s₁.mux h).muxStat = (s.mux h).muxStat) (hbound : s₁.fsMutex = s.fsMutex)
    (hrefs : s₁.fs = s.fs) : MountCount s₁ where
  nodup := by rw [hmounts]; exact hi.nodup
  stat := fun m hm => by
    rw [hmounts] at hm
    rw [hstat, hmutex]
    exact hi.stat m hm
  bound := fun m hm => by
    rw [hmounts] at hm
    rw [hmutex]
    exact hi.bound m hm
  fsBound := by rw [hbound]; exact hi.fsBound
  inj := fun m hm n hn hmn => by
    rw [hmounts] at hm hn
    rw [hmutex, hmutex] at hmn
    exact hi.inj m hm n hn hmn
  fsRefs := fun f => by
    rw [hrefs, hmounts, hi.fsRefs f]
    exact List.countP_congr fun m _ => by rw [hfs m]

theorem pend_calm : (cb.pend t).owner = none → (cb.pend t).muxList = [] := by
  unfold Mutex.pend
  split
  · intro h
    cases h
  · rename_i v hv
    intro h
    change cb.owner = none at h
    rw [hv] at h
    cases h

theorem post_calm (hcb : cb.owner = none → cb.muxList = []) :
    (cb.post t).owner = none → (cb.post t).muxList = [] := by
  unfold Mutex.post
  split
  · exact hcb
  · split
    · rename_i hnil
      exact fun _ => hnil
    · intro h
      cases h

theorem delete_free (hcb : cb.owner = none → cb.muxList = []) (hfree : cb.owner = none) :
    cb.delete.muxStat = false := by
  unfold Mutex.delete
  split
  · rename_i h
    obtain hstat | hlist | hown := h
    · exact hstat
    · exact absurd (hcb hfree) hlist
    · rw [hfree] at hown
      cases hown
  · rfl

theorem MountInv.inert (hi : MountInv s) (h : Inert s s₁ m) : MountInv s₁ where
  nodup := by rw [h.mountPoints]; exact hi.nodup
  stat := fun n hn => by
    rw [h.mountPoints] at hn
    rw [h.mux, h.mMutex]
    exact hi.stat n hn
  bound := fun n hn => by
    rw [h.mountPoints] at hn
    rw [h.mMutex]
    exact hi.bound n hn
  fsBound := by rw [h.fsMutex]; exact hi.fsBound
  inj := fun n hn k hk hnk => by
    rw [h.mountPoints] at hn hk
    rw [h.mMutex, h.mMutex] at hnk
    exact hi.inj n hn k hk hnk
  used := fun n hn => by
    rw [h.mux] at hn
    obtain hfs | ⟨k, hk, heq⟩ := hi.used n hn
    · exact Or.inl (hfs.trans h.fsMutex.symm)
    · exact Or.inr ⟨k, by rw [h.mountPoints]; exact hk, (h.mMutex k).trans heq⟩
  calm := by rw [h.mux]; exact hi.calm
  fsRefs := fun f => by
    rw [h.fs, h.mountPoints, hi.fsRefs f]
    exact List.countP_congr fun n _ => by rw [h.mFs]

theorem MountInv.setPc (hi : MountInv s) : MountInv (s.setPc t p) := { hi with }

theorem MountInv.setMux (hi : MountInv s) (hstat : cb.muxStat = (s.mux h).muxStat)
    (hcalm : cb.owner = none → cb.muxList = []) : MountInv (s.setMux h cb) := by
  have hkeep : ∀ n, ((s.setMux h cb).mux n).muxStat = (s.mux n).muxStat := by
    intro n
    by_cases hn : n = h
    · subst hn
      rw [setMux_self, hstat]
    · rw [setMux_of_ne hn]
  exact { hi with
    stat := fun m hm => (hkeep _).trans (hi.stat m hm)
    used := fun n hn => hi.used n ((hkeep n).symm.trans hn)
    calm := fun n hn => by
      by_cases hnh : n = h
      · subst hnh
        rw [setMux_self] at hn ⊢
        exact hcalm hn
      · rw [setMux_of_ne hnh] at hn ⊢
        exact hi.calm n hn }

theorem MountInv.pend (hi : MountInv s) : MountInv ((losMuxPend s h t).setPc t p) :=
  (hi.setMux pend_muxStat pend_calm).setPc

theorem MountInv.post (hi : MountInv s) : MountInv ((losMuxPost s h t).setPc t p) :=
  (hi.setMux post_muxStat (post_calm (hi.calm h))).setPc

theorem MountCount.length_lt (hi : MountCount s) (hlock : LockInv s) : s.mountPoints.length < 2 ^ 32 :=
  length_lt_of_injective hi.nodup hi.inj hi.bound hi.fsBound fun m hm =>
    hlock.apart m (hlock.mounted m hm)

theorem MountCount.mount (hi : MountCount s) (f : Nat) (path : List Char) (hlock : LockInv s)
    (hnew : (s.mux h).muxStat = false) (hbound : h < 2 ^ 32) : MountCount (addMountPoint s f path h) := by
  have hfresh : ∀ m ∈ s.mountPoints, m ≠ s.mpNext := fun m hm heq => by
    have := hlock.mounted m hm
    omega
  have hmp : ∀ m ∈ s.mountPoints, (addMountPoint s f path h).mp m = s.mp m := fun m hm =>
    addMountPoint_mp (hfresh m hm)
  have hnodup : (s.mpNext :: s.mountPoints).Nodup :=
    List.nodup_cons.mpr ⟨fun hm => hfresh _ hm rfl, hi.nodup⟩
  have hbounds : ∀ m ∈ s.mpNext :: s.mountPoints, ((addMountPoint s f path h).mp m).mMutex < 2 ^ 32 := by
    intro m hm
    obtain rfl | hold := List.mem_cons.mp hm
    · rw [addMountPoint_self]
      exact hbound
    · rw [hmp m hold]
      exact hi.bound m hold
  have hinj : ∀ m ∈ s.mpNext :: s.mountPoints, ∀ n ∈ s.mpNext :: s.mountPoints,
      ((addMountPoint s f path h).mp m).mMutex = ((addMountPoint s f path h).mp n).mMutex → m = n := by
    intro m hm n hn hmn
    obtain rfl | hold := List.mem_cons.mp hm
    · obtain rfl | hold' := List.mem_cons.mp hn
      · rfl
      · rw [addMountPoint_self, hmp n hold'] at hmn
        exact absurd hmn.symm (ne_of_used hnew (hi.stat n hold'))
    · obtain rfl | hold' := List.mem_cons.mp hn
      · rw [addMountPoint_self, hmp m hold] at hmn
        exact absurd hmn (ne_of_used hnew (hi.stat m hold))
      · rw [hmp m hold, hmp n hold'] at hmn
        exact hi.inj m hold n hold' hmn
  have hlen : (s.mpNext :: s.mountPoints).length < 2 ^ 32 := by
    refine length_lt_of_injective hnodup hinj hbounds hi.fsBound fun m hm => ?_
    obtain rfl | hold := List.mem_cons.mp hm
    · rw [addMountPoint_self]
      exact (ne_of_used hnew hlock.fsStat).symm
    · rw [hmp m hold]
      exact hlock.apart m (hlock.mounted m hold)
  rw [List.length_cons] at hlen
  exact
    { nodup := hnodup
      stat := fun m hm => by
        obtain rfl | hold := List.mem_cons.mp hm
        · rw [addMountPoint_self, addMountPoint_mux_self]
        · rw [hmp m hold, addMountPoint_mux (ne_of_used hnew (hi.stat m hold))]
          exact hi.stat m hold
      bound := hbounds
      fsBound := hi.fsBound
      inj := hinj
      fsRefs := fun g => by
        show (Function.update s.fs f _ g).fsRefs =
          (s.mpNext :: s.mountPoints).countP fun m => ((addMountPoint s f path h).mp m).mFs = g
        have hcount : (s.mountPoints.countP fun m => decide (((addMountPoint s f path h).mp m).mFs = g)) =
            (s.fs g).fsRefs := by
          rw [hi.fsRefs g]
          exact List.countP_congr fun m hm => by rw [hmp m hm]
        have hle : (s.fs g).fsRefs ≤ s.mountPoints.length := by
          rw [hi.fsRefs g]
          exact List.countP_le_length
        rw [List.countP_cons, hcount, addMountPoint_self]
        by_cases hgf : g = f
        · subst hgf
          rw [Function.update_self, Nat.mod_eq_of_lt (by omega), if_pos (decide_eq_true rfl)]
        · rw [Function.update_of_ne hgf, if_neg (by simpa using fun h => hgf h.symm)]
          rfl }

theorem removeMountPoint_mux {n : Nat} (hn : n ≠ (s.mp m).mMutex) :
    (removeMountPoint s m).mux n = s.mux n :=
  setMux_of_ne hn

theorem MountCount.unmount (hi : MountCount s) (hlock : LockInv s) (hm : m ∈ s.mountPoints) :
    MountCount (removeMountPoint s m) := by
  have hmem : ∀ n, n ∈ s.mountPoints.erase m ↔ n ≠ m ∧ n ∈ s.mountPoints := fun n =>
    hi.nodup.mem_erase_iff
  have hlen := hi.length_lt hlock
  exact
    { nodup := hi.nodup.erase m
      stat := fun n hn => by
        obtain ⟨hne, hold⟩ := (hmem n).mp hn
        show ((removeMountPoint s m).mux (s.mp n).mMutex).muxStat = true
        rw [removeMountPoint_mux fun h => hne (hi.inj n hold m hm h)]
        exact hi.stat n hold
      bound := fun n hn => hi.bound n ((hmem n).mp hn).2
      fsBound := hi.fsBound
      inj := fun n hn k hk => hi.inj n ((hmem n).mp hn).2 k ((hmem k).mp hk).2
      fsRefs := fun g => by
        show (Function.update s.fs (s.mp m).mFs _ g).fsRefs =
          (s.mountPoints.erase m).countP fun n => (s.mp n).mFs = g
        have hcount := (List.perm_cons_erase hm).countP_eq fun n => decide ((s.mp n).mFs = g)
        have hle : (s.mountPoints.countP fun n => decide ((s.mp n).mFs = g)) ≤ s.mountPoints.length :=
          List.countP_le_length
        rw [List.countP_cons] at hcount
        by_cases hg : g = (s.mp m).mFs
        · subst hg
          rw [if_pos (decide_eq_true rfl)] at hcount
          rw [Function.update_self]
          show ((s.fs (s.mp m).mFs).fsRefs + (2 ^ 32 - 1)) % 2 ^ 32 = _
          rw [hi.fsRefs]
          omega
        · rw [if_neg (by simpa using fun h => hg h.symm)] at hcount
          rw [Function.update_of_ne hg, hi.fsRefs, hcount]
          rfl }

theorem MountInv.mount {path : List Char} {f : Nat} (hi : MountInv s) (hlock : LockInv s)
    (hnew : (s.mux h).muxStat = false) (hbound : h < 2 ^ 32) :
    MountInv ((addMountPoint s f path h).leaves t 0).1 := by
  have hcount := hi.count.mount f path hlock hnew hbound
  have hmp : ∀ m ∈ s.mountPoints, (addMountPoint s f path h).mp m = s.mp m := fun m hm =>
    addMountPoint_mp fun heq => by
      have := hlock.mounted m hm
      omega
  have hdone : MountInv (addMountPoint s f path h) :=
    { hcount with
      used := fun n hn => by
        by_cases hnh : n = h
        · exact Or.inr ⟨s.mpNext, List.mem_cons_self, by rw [addMountPoint_self, hnh]⟩
        · rw [addMountPoint_mux hnh] at hn
          obtain hfs | ⟨m, hm, heq⟩ := hi.used n hn
          · exact Or.inl hfs
          · exact Or.inr ⟨m, List.mem_cons_of_mem _ hm, by rw [hmp m hm]; exact heq⟩
      calm := fun n hn => by
        by_cases hnh : n = h
        · rw [hnh, addMountPoint_mux_self]
        · rw [addMountPoint_mux hnh] at hn ⊢
          exact hi.calm n hn }
  exact hdone.post

theorem MountInv.unmount (hi : MountInv s) (hlock : LockInv s) (hm : m ∈ s.mountPoints)
    (hfree : s.holder m = none) : MountInv ((removeMountPoint s m).leaves t 0).1 := by
  have hcount := hi.count.unmount hlock hm
  have hmem : ∀ n, n ∈ s.mountPoints.erase m ↔ n ≠ m ∧ n ∈ s.mountPoints := fun n =>
    hi.nodup.mem_erase_iff
  have hself : (removeMountPoint s m).mux (s.mp m).mMutex = (s.mux (s.mp m).mMutex).delete := setMux_self
  have hgone : ((removeMountPoint s m).mux (s.mp m).mMutex).muxStat = false := by
    rw [hself]
    exact delete_free (hi.calm _) hfree
  have hdone : MountInv (removeMountPoint s m) :=
    { hcount with
      used := fun n hn => by
        have hne : n ≠ (s.mp m).mMutex := by
          rintro rfl
          rw [hgone] at hn
          cases hn
        rw [removeMountPoint_mux hne] at hn
        obtain hfs | ⟨k, hk, heq⟩ := hi.used n hn
        · exact Or.inl hfs
        · refine Or.inr ⟨k, (hmem k).mpr ⟨?_, hk⟩, heq⟩
          rintro rfl
          exact hne heq.symm
      calm := fun n hn => by
        by_cases hne : n = (s.mp m).mMutex
        · rw [hne, hself]
          unfold Mutex.delete
          split <;> exact hi.calm _ hfree
        · rw [removeMountPoint_mux hne] at hn ⊢
          exact hi.calm n hn }
  exact hdone.post

end

end LiteosM.Vfs
