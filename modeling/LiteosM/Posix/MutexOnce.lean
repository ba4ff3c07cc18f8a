import LiteosM.Posix.Mutex

/-!
# A mutex that is created once excludes

The kernel counts its pends and posts; a thread that has locked the mutex has
pended more often than posted, and so it is the owner.
-/

namespace LiteosM.Posix

open LiteosM.Kernel LiteosM.Ipc LiteosM.Lib.DlList LiteosM.Lib.Transition

variable [Config]

/-- At most one thread has the mutex, and one kernel mutex is made for it. -/
structure Exclusive (s : PthreadState) : Prop where
  one : ∀ t u, 0 < s.locked t → 0 < s.locked u → t = u
  created : s.created = [] ∧ s.mutex.handle = muxInvalidHandle ∨
    s.mutex.handle ≠ muxInvalidHandle ∧ s.created = [s.mutex.handle]
  held : ∀ t, 0 < s.locked t → Holds s.muxes.toMuxState s.mutex.handle t

/-- Nobody has stored a handle since the running thread found it invalid. -/
def CreatesFirst (s : PthreadState) : PthreadEvent → Prop
  | .run => ∀ kind, s.pc s.running = .create kind → s.mutex.handle = muxInvalidHandle
  | _ => True

/-- `muxCount` has room for the call of the running thread. -/
def CountFits (s : PthreadState) : PthreadEvent → Prop
  | .run => ∀ h timeout, s.pc s.running = .pend h timeout →
      (s.muxes.mux h).owner = some s.running → (s.muxes.mux h).muxCount < 65535
  | _ => True

/-- Where a thread can be when the kernel mutex is `h`. -/
def PcRight (s : PthreadState) (h t : Nat) : Prop :=
  match s.pc t with
  | .pend h' _ => h' = h
  | .wait => (∀ m, s.muxes.pending t = some m → m = h) ∧ s.locked t = 0
  | _ => True

/-- Before the first kernel mutex. -/
structure Untouched (s : PthreadState) : Prop where
  created : s.created = []
  handle : s.mutex.handle = muxInvalidHandle
  pc : ∀ t, s.pc t = .idle ∨ (∃ kind, s.pc t = .create kind) ∨ ∃ h, s.pc t = .post h
  locked : ∀ t, s.locked t = 0

/-- With the kernel mutex `h`. -/
structure Made (s : PthreadState) (h : Nat) : Prop where
  created : s.created = [h]
  handle : s.mutex.handle = h
  lt : h < Config.muxLimit
  stat : (s.muxes.mux h).muxStat = true
  tally : ∀ t, s.locked t + s.muxes.posts h t ≤ s.muxes.pends h t
  pc : ∀ t, PcRight s h t

section

variable {c c' : CountedState} {s s' : PthreadState} {V : View Node} {event : MuxEvent}
  {m : MuxState} {r : MuxErrno} {h t : Nat}

theorem posts_le (hi : CountInv c V) (h t : Nat) : c.posts h t ≤ c.pends h t := by
  by_cases ho : ∃ o, Holds c.toMuxState h o
  · obtain ⟨o, ho⟩ := ho
    obtain ⟨hself, hothers⟩ := hi.tally.held h o ho
    by_cases hto : t = o
    · rw [hto, hself]
      exact Nat.le_add_right _ _
    · exact Nat.le_of_eq (hothers t hto).symm
  · exact Nat.le_of_eq (hi.tally.rest h (fun o h => ho ⟨o, h⟩) t).symm

theorem holds_of_lt (hi : CountInv c V) (hlt : c.posts h t < c.pends h t) : Holds c.toMuxState h t := by
  by_cases ho : ∃ o, Holds c.toMuxState h o
  · obtain ⟨o, ho⟩ := ho
    obtain ⟨-, hothers⟩ := hi.tally.held h o ho
    by_cases hto : t = o
    · rw [hto]
      exact ho
    · rw [hothers t hto] at hlt
      exact absurd hlt (Nat.lt_irrefl _)
  · rw [hi.tally.rest h (fun o h => ho ⟨o, h⟩) t] at hlt
    exact absurd hlt (Nat.lt_irrefl _)

omit [Config] in
theorem bump_le (f : Nat → Nat → Nat) (m t h u : Nat) : f h u ≤ bump f m t h u := by
  unfold bump
  split
  · rename_i heq
    rw [heq.1, heq.2]
    exact Nat.le_succ _
  · exact Nat.le_refl _

omit [Config] in
theorem notePends_le (h u : Nat) : c.pends h u ≤ notePends c m event r h u := by
  unfold notePends
  split
  · exact bump_le _ _ _ _ _
  · rename_i m₀
    cases handedTo c.toMuxState m m₀ with
    | none => exact Nat.le_refl _
    | some w => exact bump_le _ _ _ _ _
  · exact Nat.le_refl _

omit [Config] in
theorem notePosts_other (hne : event ≠ .post h) (u : Nat) : notePosts c event r h u = c.posts h u := by
  unfold notePosts
  split
  · rename_i m
    unfold bump
    rw [if_neg]
    intro heq
    exact hne (by rw [heq.1])
  · rfl

/-- What a call leaves of a mutex in use and of the tasks that wait. -/
structure MuxKept (c : CountedState) (event : MuxEvent) (m : MuxState) (r : MuxErrno) : Prop where
  stat : ∀ h, event ≠ .delete h → (c.mux h).muxStat = true → (m.mux h).muxStat = true
  pending : ∀ u, m.pending u = none ∨ m.pending u = c.pending u ∨
    u = c.kernel.runTask ∧ r = .blocked ∧ ∃ h timeout, event = .pend h timeout ∧ m.pending u = some h

omit [Config] in
theorem MuxKept.same (hmux : m.mux = c.mux) (hpend : m.pending = c.pending) : MuxKept c event m r where
  stat := fun h _ hstat => by
    rw [hmux]
    exact hstat
  pending := fun u => Or.inr (Or.inl (congrFun hpend u))

omit [Config] in
theorem MuxKept.update {h₀ : Nat} {cb : LosMuxCB} (hmux : m.mux = Function.update c.mux h₀ cb)
    (hcb : (c.mux h₀).muxStat = true → cb.muxStat = true) (hpend : m.pending = c.pending) :
    MuxKept c event m r where
  stat := fun h _ hstat => by
    rw [hmux]
    by_cases hh : h = h₀
    · rw [hh, Function.update_self]
      rw [hh] at hstat
      exact hcb hstat
    · rw [Function.update_of_ne hh]
      exact hstat
  pending := fun u => Or.inr (Or.inl (congrFun hpend u))

theorem muxStep_kept (hi : CountInv c V) (hstep : muxStep c.toMuxState event = some (m, r)) :
    MuxKept c event m r := by
  cases event with
  | create muxHandle =>
    obtain ⟨s1, V1, r1, o, heq, -, hrel, hout⟩ := losMuxCreate_spec hi.mux muxHandle
    simp only [muxStep, heq, Option.map_some, Option.some.injEq, Prod.mk.injEq] at hstep
    rw [← hstep.1]
    obtain ⟨hmux, -⟩ | ⟨-, m₀, -, -, -, hmux⟩ := hout
    · exact .same hmux hrel.pending
    · exact .update hmux (fun _ => rfl) hrel.pending
  | delete m₀ =>
    obtain ⟨V1, -, hrel, hout⟩ := losMuxDelete_spec hi.mux m₀
    simp only [muxStep, Option.some.injEq, Prod.ext_iff] at hstep
    rw [← hstep.1]
    obtain ⟨hsame, -, -⟩ | ⟨-, -, -, -, -, hmux⟩ := hout
    · rw [hsame]
      exact .same rfl rfl
    · refine ⟨fun h hne hstat => ?_, fun u => Or.inr (Or.inl (congrFun hrel.pending u))⟩
      have hh : h ≠ m₀ := fun heq => hne (by rw [heq])
      rw [hmux, Function.update_of_ne hh]
      exact hstat
  | pend m₀ timeout =>
    simp only [muxStep] at hstep
    split at hstep
    · rename_i hfree
      have hcall : c.kernel.calling = true := (Bool.and_eq_true_iff.mp hfree).1
      obtain ⟨s1, V1, r1, heq, -, hpended⟩ := losMuxPend_spec hi.mux hcall m₀ timeout
      cases heq.symm.trans hstep
      cases hpended with
      | refused _ _ => exact .same rfl rfl
      | acquired _ _ _ => exact .update rfl id rfl
      | again _ _ _ _ => exact .update rfl id rfl
      | blocked hb =>
        refine ⟨fun h _ hstat => by rw [hb.mux]; exact hstat, fun u => ?_⟩
        by_cases hu : u = c.kernel.runTask
        · refine Or.inr (Or.inr ⟨hu, rfl, m₀, timeout, rfl, ?_⟩)
          rw [hb.pending, hu, Function.update_self]
        · refine Or.inr (Or.inl ?_)
          rw [hb.pending, Function.update_of_ne hu]
    · cases hstep
  | resume =>
    simp only [muxStep] at hstep
    split at hstep
    · obtain ⟨hmux, hpend, -⟩ := losMuxPendResume_same (Option.some.inj hstep)
      refine ⟨fun h _ hstat => by rw [hmux]; exact hstat, fun u => ?_⟩
      rw [hpend]
      by_cases hu : u = c.kernel.runTask
      · rw [hu, Function.update_self]
        exact Or.inl rfl
      · rw [Function.update_of_ne hu]
        exact Or.inr (Or.inl rfl)
    · cases hstep
  | post m₀ =>
    simp only [muxStep] at hstep
    split at hstep
    · rename_i hfree
      have hcall : c.kernel.calling = true := (Bool.and_eq_true_iff.mp hfree).1
      obtain ⟨s1, V1, r1, heq, -, hposted⟩ := losMuxPost_spec hi.mux hcall m₀
      cases heq.symm.trans hstep
      cases hposted with
      | refused _ => exact .same rfl rfl
      | released _ _ => exact .update rfl id rfl
      | freed _ _ hf => exact .update hf.mux id hf.pending
      | handed _ _ hh => exact .update hh.mux id hh.pending
    · cases hstep
  | kernel event =>
    simp only [muxStep] at hstep
    split at hstep
    · cases hstep
    · rw [Option.map_eq_some_iff] at hstep
      obtain ⟨k, -, heq⟩ := hstep
      cases heq
      refine ⟨fun h _ hstat => hstat, fun u => ?_⟩
      by_cases hun : (k.status u).unused = true
      · exact Or.inl (if_pos hun)
      · exact Or.inr (Or.inl (if_neg hun))

/-- A call of the kernel has been made. -/
structure Called (s : PthreadState) (event : MuxEvent) (s₁ : PthreadState) (r : MuxErrno) : Prop where
  count : ∃ V, CountInv s₁.muxes V
  step : muxStep s.muxes.toMuxState event = some (s₁.muxes.toMuxState, r)
  muxes : s₁.muxes = s.muxes.note event s₁.muxes.toMuxState r
  kept : MuxKept s.muxes event s₁.muxes.toMuxState r
  rest : s₁ = { s with muxes := s₁.muxes }

theorem callMux_called {s₁ : PthreadState} (hi : CountInv s.muxes V)
    (hsh : Shallow s.muxes.toMuxState event) (h : callMux s event = some (s₁, r)) :
    Called s event s₁ r := by
  unfold callMux at h
  rw [Option.map_eq_some_iff] at h
  obtain ⟨⟨m, r'⟩, hstep, heq⟩ := h
  cases heq
  exact ⟨(muxStep_count hi (fun _ _ _ => hsh) hstep).1, hstep, rfl, muxStep_kept hi hstep, rfl⟩

namespace Called

variable {s₁ : PthreadState}

theorem pends_le (hc : Called s event s₁ r) (h u : Nat) : s.muxes.pends h u ≤ s₁.muxes.pends h u := by
  rw [hc.muxes]
  exact notePends_le h u

theorem posts_other (hc : Called s event s₁ r) (hne : event ≠ .post h) (u : Nat) :
    s₁.muxes.posts h u = s.muxes.posts h u := by
  rw [hc.muxes]
  exact notePosts_other hne u

theorem pc (hc : Called s event s₁ r) : s₁.pc = s.pc := by rw [hc.rest]

theorem locked (hc : Called s event s₁ r) : s₁.locked = s.locked := by rw [hc.rest]

theorem untouched (hc : Called s event s₁ r) (hu : Untouched s) : Untouched s₁ := by
  rw [hc.rest]
  exact ⟨hu.created, hu.handle, hu.pc, hu.locked⟩

theorem made (hc : Called s event s₁ r) (hm : Made s h) (hdel : event ≠ .delete h)
    (hpost : event ≠ .post h) (hpend : ∀ h' n, event = .pend h' n → s.pc s.running ≠ .wait) :
    Made s₁ h where
  created := by
    rw [hc.rest]
    exact hm.created
  handle := by
    rw [hc.rest]
    exact hm.handle
  lt := hm.lt
  stat := hc.kept.stat h hdel hm.stat
  tally u := by
    rw [hc.locked, hc.posts_other hpost]
    exact Nat.le_trans (hm.tally u) (hc.pends_le h u)
  pc u := by
    have hright := hm.pc u
    unfold PcRight at hright ⊢
    rw [hc.pc, hc.locked]
    cases hpc : s.pc u with
    | wait =>
      rw [hpc] at hright
      refine ⟨fun m hp => ?_, hright.2⟩
      obtain hnone | hsame | ⟨hu, -, h', n, hev, -⟩ := hc.kept.pending u
      · rw [hnone] at hp
        cases hp
      · rw [hsame] at hp
        exact hright.1 m hp
      · rw [hu] at hpc
        exact absurd hpc (hpend h' n hev)
    | pend h' n =>
      rw [hpc] at hright
      exact hright
    | _ => trivial

end Called

omit [Config] in
theorem PcRight.of_ne {s' : PthreadState} {u : Nat} (h₀ : PcRight s h u) (hpc : s'.pc u = s.pc u)
    (hlocked : s'.locked u = s.locked u) (hmux : s'.muxes = s.muxes) : PcRight s' h u := by
  unfold PcRight at h₀ ⊢
  rw [hpc, hlocked, hmux]
  exact h₀

theorem Made.goto {pc : Pc} (hm : Made s h) (hpend : ∀ h' n, pc = .pend h' n → h' = h)
    (hwait : pc ≠ .wait) : Made (s.goto pc) h where
  created := hm.created
  handle := hm.handle
  lt := hm.lt
  stat := hm.stat
  tally := hm.tally
  pc u := by
    by_cases hu : u = s.running
    · unfold PcRight
      rw [show (s.goto pc).pc u = pc by rw [hu]; exact Function.update_self ..]
      cases pc with
      | pend h' n => exact hpend h' n rfl
      | wait => exact absurd rfl hwait
      | _ => trivial
    · exact (hm.pc u).of_ne (Function.update_of_ne hu _ _) rfl rfl

omit [Config] in
theorem Untouched.move {pc : Pc} (hu : Untouched s)
    (hpc : pc = .idle ∨ (∃ kind, pc = .create kind) ∨ ∃ h, pc = .post h) :
    Untouched { s with pc := Function.update s.pc t pc } where
  created := hu.created
  handle := hu.handle
  pc u := by
    dsimp only
    by_cases hut : u = t
    · rw [hut, Function.update_self]
      exact hpc
    · rw [Function.update_of_ne hut]
      exact hu.pc u
  locked := hu.locked

omit [Config] in
theorem lockReturns_pc (t : Nat) (r : MuxErrno) :
    (lockReturns t (s, r)).pc = Function.update s.pc t (if r = .blocked then .wait else .idle) := by
  unfold lockReturns
  dsimp only
  split
  · rfl
  · rfl

omit [Config] in
theorem lockReturns_locked (t : Nat) (r : MuxErrno) : (lockReturns t (s, r)).locked =
    if r = .losOk then Function.update s.locked t (s.locked t + 1) else s.locked := by
  unfold lockReturns
  dsimp only
  split
  · rfl
  · rfl

omit [Config] in
theorem lockReturns_rest (t : Nat) (r : MuxErrno) : (lockReturns t (s, r)).muxes = s.muxes ∧
    (lockReturns t (s, r)).mutex = s.mutex ∧ (lockReturns t (s, r)).created = s.created := by
  unfold lockReturns
  dsimp only
  split
  · exact ⟨rfl, rfl, rfl⟩
  · exact ⟨rfl, rfl, rfl⟩

theorem Made.lockReturns (hm : Made s h)
    (hok : r = .losOk → s.locked t + 1 + s.muxes.posts h t ≤ s.muxes.pends h t)
    (hblocked : r = .blocked → (∀ m, s.muxes.pending t = some m → m = h) ∧ s.locked t = 0) :
    Made (lockReturns t (s, r)) h := by
  obtain ⟨hmuxes, hmutex, hcreated⟩ := lockReturns_rest (s := s) t r
  have hpc := lockReturns_pc (s := s) t r
  have hlocked := lockReturns_locked (s := s) t r
  constructor
  case created => rw [hcreated, hm.created]
  case handle => rw [hmutex, hm.handle]
  case lt => exact hm.lt
  case stat =>
    rw [hmuxes]
    exact hm.stat
  case tally =>
    intro u
    rw [hlocked, hmuxes]
    split
    · rename_i hr
      by_cases hu : u = t
      · rw [hu, Function.update_self]
        exact hok hr
      · rw [Function.update_of_ne hu]
        exact hm.tally u
    · exact hm.tally u
  case pc =>
    intro u
    by_cases hu : u = t
    · unfold PcRight
      rw [hpc, hu, Function.update_self, hmuxes]
      by_cases hr : r = .blocked
      · rw [if_pos hr, hlocked, if_neg (by rw [hr]; decide)]
        exact hblocked hr
      · rw [if_neg hr]
        trivial
    · apply (hm.pc u).of_ne ?_ ?_ hmuxes
      · rw [hpc, Function.update_of_ne hu]
      · rw [hlocked]
        split
        · rw [Function.update_of_ne hu]
        · rfl

omit [Config] in
theorem unlockReturns_pc (t : Nat) (r : MuxErrno) :
    (unlockReturns t (s, r)).pc = Function.update s.pc t .idle := by
  unfold unlockReturns
  dsimp only
  split
  · rfl
  · rfl

omit [Config] in
theorem unlockReturns_locked (t : Nat) (r : MuxErrno) : (unlockReturns t (s, r)).locked =
    if r = .losOk then Function.update s.locked t (s.locked t - 1) else s.locked := by
  unfold unlockReturns
  dsimp only
  split
  · rfl
  · rfl

omit [Config] in
theorem unlockReturns_rest (t : Nat) (r : MuxErrno) : (unlockReturns t (s, r)).muxes = s.muxes ∧
    (unlockReturns t (s, r)).mutex = s.mutex ∧ (unlockReturns t (s, r)).created = s.created := by
  unfold unlockReturns
  dsimp only
  split
  · exact ⟨rfl, rfl, rfl⟩
  · exact ⟨rfl, rfl, rfl⟩

theorem post_tally {s₁ : PthreadState} {h' : Nat} (hi : CountInv s.muxes V) (hm : Made s h)
    (hc : Called s (.post h') s₁ r) (u : Nat) :
    (if r = .losOk then Function.update s.locked s.running (s.locked s.running - 1) else s.locked) u +
      s₁.muxes.posts h u ≤ s₁.muxes.pends h u := by
  have hle := hc.pends_le h u
  have htally := hm.tally u
  by_cases hother : h' = h ∧ r = .losOk ∧ u = s.running
  · obtain ⟨rfl, hr, rfl⟩ := hother
    have hholds : Holds s.muxes.toMuxState h' s.running := by
      by_contra hno
      exact hi.safe.refused h' _ hno (hr ▸ hc.step)
    have hcount := (hi.tally.held h' _ hholds).1
    have hpos : 0 < (s.muxes.mux h').muxCount := Nat.pos_of_ne_zero hholds.2.2.1
    have hposts : s₁.muxes.posts h' s.running = s.muxes.posts h' s.running + 1 := by
      rw [hc.muxes, hr]
      exact bump_self _ _ _
    rw [if_pos hr, Function.update_self, hposts]
    omega
  · have hposts : s₁.muxes.posts h u = s.muxes.posts h u := by
      rw [hc.muxes]
      show notePosts s.muxes (.post h') r h u = _
      cases r with
      | losOk =>
        show (if h = h' ∧ u = s.running then _ else _) = _
        rw [if_neg fun heq => hother ⟨heq.1.symm, rfl, heq.2⟩]
      | _ => rfl
    rw [hposts]
    split
    · by_cases hu : u = s.running
      · rw [hu, Function.update_self]
        rw [hu] at htally hle
        omega
      · rw [Function.update_of_ne hu]
        omega
    · omega

theorem Made.unlockReturns {s₁ : PthreadState} {h' : Nat} (hi : CountInv s.muxes V) (hm : Made s h)
    (hc : Called s (.post h') s₁ r) : Made (unlockReturns s.running (s₁, r)) h := by
  obtain ⟨hmuxes, hmutex, hcreated⟩ := unlockReturns_rest (s := s₁) s.running r
  have hpc := unlockReturns_pc (s := s₁) s.running r
  have hlocked := unlockReturns_locked (s := s₁) s.running r
  rw [hc.pc] at hpc
  rw [hc.locked] at hlocked
  constructor
  case created =>
    rw [hcreated, hc.rest]
    exact hm.created
  case handle =>
    rw [hmutex, hc.rest]
    exact hm.handle
  case lt => exact hm.lt
  case stat =>
    rw [hmuxes]
    exact hc.kept.stat h (fun h => by cases h) hm.stat
  case tally =>
    intro u
    rw [hlocked, hmuxes]
    exact post_tally hi hm hc u
  case pc =>
    intro u
    unfold PcRight
    by_cases hu : u = s.running
    · rw [hpc, hu, Function.update_self]
      trivial
    · have hright := hm.pc u
      unfold PcRight at hright
      rw [hpc, Function.update_of_ne hu, hmuxes]
      cases hcase : s.pc u with
      | wait =>
        rw [hcase] at hright
        refine ⟨fun m hp => ?_, ?_⟩
        · obtain hnone | hsame | ⟨-, -, _, _, hev, -⟩ := hc.kept.pending u
          · rw [hnone] at hp
            cases hp
          · rw [hsame] at hp
            exact hright.1 m hp
          · cases hev
        · rw [hlocked]
          split
          · rw [Function.update_of_ne hu]
            exact hright.2
          · exact hright.2
      | pend h₁ n =>
        rw [hcase] at hright
        exact hright
      | _ => trivial

theorem blocked_apart {timeout : Nat} (hi : CountInv s.muxes V) (hm : Made s h)
    (hstep : muxStep s.muxes.toMuxState (.pend h timeout) = some (m, .blocked)) :
    m.pending s.running = some h ∧ s.locked s.running = 0 := by
  simp only [muxStep] at hstep
  split at hstep
  · rename_i hfree
    have hcall : s.muxes.kernel.calling = true := (Bool.and_eq_true_iff.mp hfree).1
    obtain ⟨s1, V1, r1, heq, -, hpended⟩ := losMuxPend_spec hi.mux hcall h timeout
    cases heq.symm.trans hstep
    cases hpended with
    | refused _ hne => exact absurd rfl hne
    | @blocked _ _ o hb =>
      have hholds : Holds s.muxes.toMuxState h o := ⟨hb.bound, hb.stat, hb.count, hb.owner⟩
      have hequal := (hi.tally.held h o hholds).2 s.running (Ne.symm hb.other)
      have htally := hm.tally s.running
      constructor
      · rw [hb.pending]
        exact Function.update_self ..
      · omega
  · cases hstep

omit [Config] in
theorem Untouched.unlockReturns (hu : Untouched s) : Untouched (unlockReturns t (s, r)) := by
  obtain ⟨hmuxes, hmutex, hcreated⟩ := unlockReturns_rest (s := s) t r
  have hpc := unlockReturns_pc (s := s) t r
  have hlocked := unlockReturns_locked (s := s) t r
  constructor
  case created => rw [hcreated, hu.created]
  case handle => rw [hmutex, hu.handle]
  case pc =>
    intro u
    rw [hpc]
    by_cases hut : u = t
    · rw [hut, Function.update_self]
      exact Or.inl rfl
    · rw [Function.update_of_ne hut]
      exact hu.pc u
  case locked =>
    intro u
    rw [hlocked]
    split
    · by_cases hut : u = t
      · rw [hut, Function.update_self, hu.locked t]
      · rw [Function.update_of_ne hut]
        exact hu.locked u
    · exact hu.locked u

/-- The counts are right, and the mutex has at most one kernel mutex. -/
def PthreadInv (s : PthreadState) : Prop :=
  (∃ V, CountInv s.muxes V) ∧ (Untouched s ∨ ∃ h, Made s h)

theorem create_inv {kind : LockKind} (hi : CountInv s.muxes V) (hu : Untouched s)
    (hrun : pthreadRun s (.create kind) = some s') :
    PthreadInv s' := by
  obtain ⟨m, V1, r, o, heq, -, -, hout⟩ := losMuxCreate_spec hi.mux true
  have hcall : callMux s (.create true) = some ({ s with muxes := s.muxes.note (.create true) m r }, r) := by
    unfold callMux
    rw [show muxStep s.muxes.toMuxState (.create true) = some (m, r) by
      simp only [muxStep, heq, Option.map_some]]
    rfl
  have hc := callMux_called hi (show Shallow s.muxes.toMuxState (.create true) from trivial) hcall
  have hu₁ := hc.untouched hu
  unfold pthreadRun at hrun
  rw [heq, hcall] at hrun
  have hs' := Option.some.inj hrun
  obtain ⟨-, hr⟩ | ⟨hr, h, hlt, ho, -, hmux⟩ := hout
  · have hidle : s' = { s with
        muxes := s.muxes.note (.create true) m r
        pc := Function.update s.pc s.running .idle } := by
      rw [← hs']
      cases r with
      | losOk => exact absurd rfl hr
      | _ => rfl
    rw [hidle]
    exact ⟨hc.count, Or.inl (hu₁.move (Or.inl rfl))⟩
  · have hmade : s' = { s with
        muxes := s.muxes.note (.create true) m r
        mutex := { s.mutex with handle := h }
        created := h :: s.created
        pc := Function.update s.pc s.running (.fetch kind) } := by
      rw [← hs', hr, ho]
      rfl
    rw [hmade]
    refine ⟨hc.count, Or.inr ⟨h, ?_⟩⟩
    constructor
    case created =>
      show h :: s.created = [h]
      rw [hu.created]
    case handle => rfl
    case lt => exact hlt
    case stat =>
      show (m.mux h).muxStat = true
      rw [hmux, Function.update_self]
    case tally =>
      intro u
      obtain ⟨V', hi'⟩ := hc.count
      have hle := posts_le hi' h u
      show s.locked u + _ ≤ _
      rw [hu.locked u, Nat.zero_add]
      exact hle
    case pc =>
      intro u
      unfold PcRight
      dsimp only
      by_cases hut : u = s.running
      · rw [hut, Function.update_self]
        trivial
      · rw [Function.update_of_ne hut]
        obtain hidle | ⟨k, hcreate⟩ | ⟨h', hpost⟩ := hu.pc u
        · rw [hidle]
          trivial
        · rw [hcreate]
          trivial
        · rw [hpost]
          trivial

theorem pend_inv {timeout : Nat} (hi : CountInv s.muxes V) (hm : Made s h)
    (hpc : s.pc s.running = .pend h timeout) (hfits : CountFits s .run)
    (hrun : pthreadRun s (.pend h timeout) = some s') : PthreadInv s' := by
  unfold pthreadRun at hrun
  dsimp only at hrun
  rw [Option.map_eq_some_iff] at hrun
  obtain ⟨⟨s₁, r⟩, hcall, rfl⟩ := hrun
  have hc := callMux_called hi (show Shallow s.muxes.toMuxState (.pend h timeout) from hfits h timeout hpc) hcall
  have hm₁ : Made s₁ h := by
    apply hc.made hm (fun h => by cases h) (fun h => by cases h)
    intro _ _ _ hwait
    cases hpc.symm.trans hwait
  constructor
  · rw [(lockReturns_rest s.running r).1]
    exact hc.count
  · right
    refine ⟨h, hm₁.lockReturns ?_ ?_⟩
    · intro hr
      have htally := hm.tally s.running
      have hpends : s₁.muxes.pends h s.running = s.muxes.pends h s.running + 1 := by
        rw [hc.muxes, hr]
        exact bump_self _ _ _
      rw [hc.locked, hc.posts_other (fun h => by cases h), hpends]
      omega
    · rintro rfl
      obtain ⟨hpending, hapart⟩ := blocked_apart hi hm hc.step
      rw [hc.locked]
      refine ⟨fun m h => ?_, hapart⟩
      exact (Option.some.inj (hpending.symm.trans h)).symm

theorem wait_inv (hi : CountInv s.muxes V) (hm : Made s h) (hpc : s.pc s.running = .wait)
    (hrun : pthreadRun s .wait = some s') : PthreadInv s' := by
  unfold pthreadRun at hrun
  dsimp only at hrun
  rw [Option.map_eq_some_iff] at hrun
  obtain ⟨⟨s₁, r⟩, hcall, rfl⟩ := hrun
  have hc := callMux_called hi (show Shallow s.muxes.toMuxState .resume from trivial) hcall
  have hm₁ : Made s₁ h := hc.made hm (fun h => by cases h) (fun h => by cases h) (fun _ _ h => by cases h)
  have hright := hm.pc s.running
  unfold PcRight at hright
  rw [hpc] at hright
  obtain ⟨m, hpending⟩ : ∃ m, s.muxes.pending s.running = some m := by
    have hstep := hc.step
    simp only [muxStep] at hstep
    split at hstep
    · rename_i hwaits
      exact Option.isSome_iff_exists.mp hwaits.2
    · cases hstep
  have hmh := hright.1 m hpending
  rw [hmh] at hpending
  constructor
  · rw [(lockReturns_rest s.running r).1]
    exact hc.count
  · right
    refine ⟨h, hm₁.lockReturns ?_ ?_⟩
    · intro hr
      obtain ⟨-, hholds⟩ | ⟨htime, -⟩ := hi.safe.returns h _ _ hpending hc.step
      · have hcount := (hi.tally.held h _ hholds).1
        have hpos : 0 < (s.muxes.mux h).muxCount := Nat.pos_of_ne_zero hholds.2.2.1
        have hle := hc.pends_le h s.running
        rw [hc.locked, hright.2, hc.posts_other (fun h => by cases h)]
        show 0 + 1 + s.muxes.posts h s.muxes.kernel.runTask ≤ _
        have hle' : s.muxes.pends h s.muxes.kernel.runTask ≤ s₁.muxes.pends h s.running := hle
        omega
      · rw [hr] at htime
        cases htime
    · intro hr
      obtain ⟨hok, -⟩ | ⟨htime, -⟩ := hi.safe.returns h _ _ hpending hc.step
      · rw [hr] at hok
        cases hok
      · rw [hr] at htime
        cases htime

omit [Config] in
theorem Untouched.not_inside {P : Prop} (hu : Untouched s)
    (hpc : match s.pc t with
      | .fetch _ | .pend _ _ | .wait => True
      | _ => False) : P := by
  obtain hidle | ⟨kind, hcreate⟩ | ⟨h, hpost⟩ := hu.pc t
  · rw [hidle] at hpc
    exact hpc.elim
  · rw [hcreate] at hpc
    exact hpc.elim
  · rw [hpost] at hpc
    exact hpc.elim

theorem pthreadRun_inv (hlimit : Config.muxLimit ≤ muxInvalidHandle) (hinv : PthreadInv s)
    (hfirst : CreatesFirst s .run) (hfits : CountFits s .run)
    (hrun : pthreadRun s (s.pc s.running) = some s') : PthreadInv s' := by
  obtain ⟨⟨V, hi⟩, hstate⟩ := hinv
  cases hpc : s.pc s.running with
  | idle =>
    rw [hpc] at hrun
    cases hrun
  | create kind =>
    rw [hpc] at hrun
    have hinvalid := hfirst kind hpc
    obtain hu | ⟨h, hm⟩ := hstate
    · exact create_inv hi hu hrun
    · have hlt := hm.lt
      rw [← hm.handle, hinvalid] at hlt
      exact absurd (Nat.lt_of_lt_of_le hlt hlimit) (Nat.lt_irrefl _)
  | fetch kind =>
    rw [hpc] at hrun
    obtain hu | ⟨h, hm⟩ := hstate
    · exact hu.not_inside (by rw [hpc]; trivial)
    · unfold pthreadRun at hrun
      cases htime : kind.timeout with
      | none =>
        simp only [htime, Option.some.injEq] at hrun
        rw [← hrun]
        exact ⟨⟨V, hi⟩, Or.inr ⟨h, hm.goto (fun _ _ h => by cases h) (fun h => by cases h)⟩⟩
      | some timeout =>
        simp only [htime, Option.some.injEq] at hrun
        rw [← hrun]
        refine ⟨⟨V, hi⟩, Or.inr ⟨h, hm.goto (fun h' n heq => ?_) (fun h => by cases h)⟩⟩
        cases heq
        exact hm.handle
  | pend h' timeout =>
    rw [hpc] at hrun
    obtain hu | ⟨h, hm⟩ := hstate
    · exact hu.not_inside (by rw [hpc]; trivial)
    · have hright := hm.pc s.running
      unfold PcRight at hright
      rw [hpc] at hright
      have hh : h' = h := hright
      rw [hh] at hpc hrun
      exact pend_inv hi hm hpc hfits hrun
  | wait =>
    rw [hpc] at hrun
    obtain hu | ⟨h, hm⟩ := hstate
    · exact hu.not_inside (by rw [hpc]; trivial)
    · exact wait_inv hi hm hpc hrun
  | post h' =>
    rw [hpc] at hrun
    unfold pthreadRun at hrun
    dsimp only at hrun
    rw [Option.map_eq_some_iff] at hrun
    obtain ⟨⟨s₁, r⟩, hcall, rfl⟩ := hrun
    have hc := callMux_called hi (show Shallow s.muxes.toMuxState (.post h') from trivial) hcall
    constructor
    · rw [(unlockReturns_rest s.running r).1]
      exact hc.count
    · obtain hu | ⟨h, hm⟩ := hstate
      · exact Or.inl (hc.untouched hu).unlockReturns
      · exact Or.inr ⟨h, hm.unlockReturns hi hc⟩

theorem pthreadNext_inv {e : PthreadEvent} (hlimit : Config.muxLimit ≤ muxInvalidHandle)
    (hinv : PthreadInv s) (hfirst : CreatesFirst s e) (hfits : CountFits s e)
    (hnext : pthreadNext s e = some s') : PthreadInv s' := by
  have hlock : ∀ pc, pc = .idle ∨ (∃ kind, pc = .create kind) ∨ (∃ h, pc = .post h) ∨
      (∃ kind, pc = .fetch kind ∧ s.mutex.handle ≠ muxInvalidHandle) → PthreadInv (s.goto pc) := by
    intro pc hpc
    obtain ⟨hcount, hstate⟩ := hinv
    refine ⟨hcount, ?_⟩
    obtain hu | ⟨h, hm⟩ := hstate
    · obtain hidle | hcreate | hpost | ⟨kind, -, hvalid⟩ := hpc
      · exact Or.inl (hu.move (Or.inl hidle))
      · exact Or.inl (hu.move (Or.inr (Or.inl hcreate)))
      · exact Or.inl (hu.move (Or.inr (Or.inr hpost)))
      · exact absurd hu.handle hvalid
    · refine Or.inr ⟨h, hm.goto ?_ ?_⟩
      · rintro h' n rfl
        obtain hidle | ⟨_, hcreate⟩ | ⟨_, hpost⟩ | ⟨_, hfetch, -⟩ := hpc
        · cases hidle
        · cases hcreate
        · cases hpost
        · cases hfetch
      · rintro rfl
        obtain hidle | ⟨_, hcreate⟩ | ⟨_, hpost⟩ | ⟨_, hfetch, -⟩ := hpc
        · cases hidle
        · cases hcreate
        · cases hpost
        · cases hfetch
  cases e with
  | lock kind =>
    simp only [pthreadNext] at hnext
    split at hnext
    · split at hnext
      · cases hnext
        exact hinv
      · split at hnext
        · cases hnext
          exact hlock _ (Or.inr (Or.inl ⟨kind, rfl⟩))
        · rename_i hvalid
          cases hnext
          exact hlock _ (Or.inr (Or.inr (Or.inr ⟨kind, rfl, hvalid⟩)))
    · cases hnext
  | unlock =>
    simp only [pthreadNext] at hnext
    split at hnext
    · split at hnext
      · cases hnext
        exact hinv
      · cases hnext
        exact hlock _ (Or.inr (Or.inr (Or.inl ⟨_, rfl⟩)))
    · cases hnext
  | run =>
    simp only [pthreadNext] at hnext
    split at hnext
    · exact pthreadRun_inv hlimit hinv hfirst hfits hnext
    · cases hnext
  | kernel event =>
    obtain ⟨⟨V, hi⟩, hstate⟩ := hinv
    have hlive : (∀ t, event ≠ .delete t) ∧ ∃ r, callMux s (.kernel event) = some (s', r) := by
      cases event with
      | delete t => cases hnext
      | _ =>
        simp only [pthreadNext] at hnext
        split at hnext
        · cases hnext
        · rw [Option.map_eq_some_iff] at hnext
          obtain ⟨⟨s₁, r⟩, hcall, rfl⟩ := hnext
          exact ⟨fun _ h => (by cases h), r, hcall⟩
    obtain ⟨hdel, r, hcall⟩ := hlive
    have hsh : Shallow s.muxes.toMuxState (.kernel event) := by
      cases event with
      | delete t => exact absurd rfl (hdel t)
      | _ => trivial
    have hc := callMux_called hi hsh hcall
    refine ⟨hc.count, ?_⟩
    obtain hu | ⟨h, hm⟩ := hstate
    · exact Or.inl (hc.untouched hu)
    · exact Or.inr ⟨h, hc.made hm (fun h => by cases h) (fun h => by cases h) (fun _ _ h => by cases h)⟩
  | other event =>
    obtain ⟨⟨V, hi⟩, hstate⟩ := hinv
    simp only [pthreadNext] at hnext
    split at hnext
    · rename_i hguard
      obtain ⟨-, hidle, hforeign⟩ := hguard
      rw [Option.map_eq_some_iff] at hnext
      obtain ⟨⟨s₁, r⟩, hcall, rfl⟩ := hnext
      have hsh : Shallow s.muxes.toMuxState event := by
        cases event with
        | pend m n => exact hforeign.2
        | kernel event => exact hforeign.elim
        | _ => trivial
      have hc := callMux_called hi hsh hcall
      refine ⟨hc.count, ?_⟩
      obtain hu | ⟨h, hm⟩ := hstate
      · exact Or.inl (hc.untouched hu)
      · refine Or.inr ⟨h, hc.made hm ?_ ?_ ?_⟩
        · rintro rfl
          exact hforeign (by rw [hm.created]; exact List.mem_singleton_self _)
        · rintro rfl
          exact hforeign (by rw [hm.created]; exact List.mem_singleton_self _)
        · intro _ _ _ hwait
          cases hidle.symm.trans hwait
    · cases hnext

theorem PthreadInv.exclusive (hlimit : Config.muxLimit ≤ muxInvalidHandle) (hinv : PthreadInv s) :
    Exclusive s := by
  obtain ⟨⟨V, hi⟩, hu | ⟨h, hm⟩⟩ := hinv
  · have hnone : ∀ t, ¬ 0 < s.locked t := fun t ht => by
      rw [hu.locked t] at ht
      exact absurd ht (Nat.lt_irrefl _)
    exact ⟨fun t _ ht => absurd ht (hnone t), Or.inl ⟨hu.created, hu.handle⟩,
      fun t ht => absurd ht (hnone t)⟩
  · have hheld : ∀ t, 0 < s.locked t → Holds s.muxes.toMuxState h t := by
      intro t ht
      have htally := hm.tally t
      exact holds_of_lt hi (by omega)
    constructor
    · intro t u ht hu
      exact (hheld t ht).unique (hheld u hu)
    · right
      rw [hm.handle]
      refine ⟨fun heq => ?_, hm.created⟩
      have hlt := hm.lt
      rw [heq] at hlt
      exact absurd (Nat.lt_of_lt_of_le hlt hlimit) (Nat.lt_irrefl _)
    · rw [hm.handle]
      exact hheld

/-- A mutex that is created once excludes in every run. -/
theorem pthreadMutex_excludes {s₀ : PthreadState} {events : List PthreadEvent}
    (hmax : gTaskMaxNum ≤ osInvalid) (hlimit : Config.muxLimit ≤ muxInvalidHandle)
    (hb : PthreadBooted s₀)
    (hrun : Run (fun s event s' => pthreadNext s event = some s' ∧ CreatesFirst s event ∧
      CountFits s event) s₀ events s) : Exclusive s := by
  have hstart : PthreadInv s₀ := by
    refine ⟨countBooted_inv hmax hb.muxes, Or.inl ⟨hb.created, ?_, fun t => Or.inl (hb.pc t), hb.locked⟩⟩
    rw [hb.mutex]
    rfl
  have hinv : PthreadInv s := by
    refine run_invariant PthreadInv ?_ hrun hstart
    rintro s event s₁ hinv ⟨hnext, hfirst, hfits⟩
    exact pthreadNext_inv hlimit hinv hfirst hfits hnext
  exact hinv.exclusive hlimit

end

/-- The two conditions, for the step of the running thread. -/
def locksOnce (s : PthreadState) : PthreadEvent → Bool
  | .run =>
    match s.pc s.running with
    | .create _ => s.mutex.handle = muxInvalidHandle
    | .pend h _ => decide ((s.muxes.mux h).owner = some s.running → (s.muxes.mux h).muxCount < 65535)
    | _ => true
  | _ => true

omit [Config] in
theorem locksOnce_allowed {s : PthreadState} {event : PthreadEvent} (h : locksOnce s event = true) :
    CreatesFirst s event ∧ CountFits s event := by
  cases event with
  | run =>
    unfold locksOnce at h
    refine ⟨fun kind hpc => ?_, fun m timeout hpc => ?_⟩
    · rw [hpc] at h
      exact of_decide_eq_true h
    · rw [hpc] at h
      exact of_decide_eq_true h
  | lock | unlock | kernel | other => exact ⟨trivial, trivial⟩

/-- The first thread locks the mutex and sleeps. The second one waits for it, and gets it when the first one is back
and unlocks it. -/
def twoThreads : List PthreadEvent :=
  [.kernel (smallTask 5), .kernel (smallTask 10), .kernel .start, .lock .lock, .run, .run, .run,
    .kernel (.delay 1), .kernel .pendSV, .lock .lock, .run, .run, .kernel .pendSV, .kernel (.elapse 100),
    .kernel (.tick true), .kernel .pendSV, .unlock, .run, .kernel .pendSV, .kernel (.delay 1),
    .kernel .pendSV, .run]

omit [Config] in
/-- While the second thread waits, and when it has the mutex. -/
theorem pthreadMutex_excludes_small :
    letI := smallConfig
    PthreadBooted smallPthread ∧ ∀ x ∈ [(13, 1, 0, Pc.wait), (22, 0, 1, Pc.idle)], ∃ s,
      Run (fun s event s' => pthreadNext s event = some s' ∧ CreatesFirst s event ∧ CountFits s event)
        smallPthread (twoThreads.take x.1) s ∧
      s.locked 1 = x.2.1 ∧ s.locked 2 = x.2.2.1 ∧ s.pc 2 = x.2.2.2 ∧ s.created = [0] ∧ Exclusive s := by
  let := smallConfig
  refine ⟨smallPthread_booted, fun x hx => ?_⟩
  have hrun : ((twoThreads.take x.1).foldlM (guarded (fun s event => locksOnce s event) pthreadNext) smallPthread).map
      (fun s => (s.locked 1, s.locked 2, s.pc 2, s.created)) = some (x.2.1, x.2.2.1, x.2.2.2, [0]) := by
    simp only [List.mem_cons, List.not_mem_nil, or_false] at hx
    rcases hx with rfl | rfl
    · decide +kernel
    · decide +kernel
  obtain ⟨s, hs, hval⟩ := Option.map_eq_some_iff.mp hrun
  simp only [Prod.mk.injEq] at hval
  obtain ⟨hone, htwo, hpc, hcreated⟩ := hval
  have hsteps : Run (fun s event s' => pthreadNext s event = some s' ∧ CreatesFirst s event ∧ CountFits s event)
      smallPthread (twoThreads.take x.1) s :=
    run_mono (fun _ _ _ h => ⟨h.1, locksOnce_allowed h.2⟩) (run_of_guarded hs)
  exact ⟨s, hsteps, hone, htwo, hpc, hcreated, pthreadMutex_excludes (by decide) (by decide) smallPthread_booted hsteps⟩

omit [Config] in
/-- Both threads find the handle invalid: the first is switched away before `LOS_MuxCreate`. Each
makes a kernel mutex and locks it. -/
theorem pthreadMutex_twice :
    letI := smallConfig
    ∃ events s, PthreadBooted smallPthread ∧
      Run (fun s event s' => pthreadNext s event = some s') smallPthread events s ∧
      0 < s.locked 1 ∧ 0 < s.locked 2 ∧ s.created = [1, 0] := by
  let := smallConfig
  let events : List PthreadEvent := [.kernel (smallTask 5), .kernel (smallTask 10), .kernel .start,
    .kernel (.delay 1), .kernel .pendSV, .lock .lock, .kernel (.elapse 100000), .kernel (.tick true),
    .kernel .pendSV, .lock .lock, .run, .run, .run, .kernel (.delay 1), .kernel .pendSV, .run, .run, .run]
  have hrun : (events.foldlM pthreadNext smallPthread).map (fun s =>
      (s.locked 1, s.locked 2, s.created)) = some (1, 1, [1, 0]) := by
    decide +kernel
  rw [Option.map_eq_some_iff] at hrun
  obtain ⟨s, hs, hval⟩ := hrun
  rw [Prod.mk.injEq, Prod.mk.injEq] at hval
  refine ⟨events, s, smallPthread_booted, run_of_foldlM hs, ?_, ?_, hval.2.2⟩
  · rw [hval.1]
    exact Nat.one_pos
  · rw [hval.2.1]
    exact Nat.one_pos

end LiteosM.Posix
