import LiteosM.Ipc.MuxCount

/-!
# Recursion of a mutex

What `muxCount` says of the pends that its owner made more than posts.
-/

namespace LiteosM.Ipc

open LiteosM.Kernel LiteosM.Lib.Transition

variable [Config]

/-- Task `o` made `n` more successful pends on mutex `m` than posts. -/
def Ahead (s : CountedState) (m o n : Nat) : Prop := s.pends m o = s.posts m o + n

structure RecursionExact (s : CountedState) : Prop where
  ahead : ∀ m o, ∃ n, Ahead s m o n
  held : ∀ m o n, Ahead s m o n → 0 < n → Holds s.toMuxState m o ∧ (s.mux m).muxCount = n
  refused : ∀ m o n, Ahead s m o n → 0 < n → s.kernel.runTask ≠ o → ∀ intActive s',
    losMuxPend s.toMuxState intActive m 0 ≠ some (s', .losOk)
  kept : ∀ m o n, Ahead s m o n → 0 < n → losMuxDelete s.toMuxState m = (s.toMuxState, .muxPended)
  free : ∀ m o, Ahead s m o 0 → ¬ Holds s.toMuxState m o

variable {s : CountedState} {V : LiteosM.Lib.DlList.View Node} {m o t n : Nat}

theorem losMuxPend_refused {s : MuxState} (h : Holds s m o) (hne : s.kernel.runTask ≠ o)
    (intActive : Bool) (s' : MuxState) : losMuxPend s intActive m 0 ≠ some (s', .losOk) := by
  obtain ⟨hm, _, hcount, howner⟩ := h
  have hother : ¬(s.mux m).owner = some s.kernel.runTask := by
    rw [howner]
    exact fun heq => hne (Option.some.inj heq).symm
  intro hpend
  unfold losMuxPend at hpend
  rw [if_neg (Nat.not_le.mpr hm)] at hpend
  dsimp only at hpend
  split at hpend
  · next herr => exact herr (Prod.mk.inj (Option.some.inj hpend)).2
  · rw [if_pos rfl] at hpend
    cases hpend

/-- Who is ahead holds the mutex: everybody else is even. -/
theorem CountInv.holds_of_ahead (hi : CountInv s V) (h : Ahead s m o n) (hn : 0 < n) :
    Holds s.toMuxState m o ∧ (s.mux m).muxCount = n := by
  unfold Ahead at h
  by_cases hheld : ∃ w, Holds s.toMuxState m w
  · obtain ⟨w, hw⟩ := hheld
    obtain ⟨hcount, hothers⟩ := hi.tally.held m w hw
    by_cases how : o = w
    · rw [how] at h ⊢
      exact ⟨hw, by omega⟩
    · have heven := hothers o how
      omega
  · have heven := hi.tally.rest m (fun w hw => hheld ⟨w, hw⟩) o
    omega

theorem CountInv.exact (hi : CountInv s V) : RecursionExact s := by
  constructor
  case ahead =>
    intro m o
    by_cases hheld : ∃ w, Holds s.toMuxState m w
    · obtain ⟨w, hw⟩ := hheld
      obtain ⟨hcount, hothers⟩ := hi.tally.held m w hw
      by_cases how : o = w
      · exact ⟨_, how ▸ hcount⟩
      · exact ⟨0, hothers o how⟩
    · exact ⟨0, hi.tally.rest m (fun w hw => hheld ⟨w, hw⟩) o⟩
  case held => exact fun m o n h hn => hi.holds_of_ahead h hn
  case refused =>
    intro m o n h hn hne intActive s'
    exact losMuxPend_refused (hi.holds_of_ahead h hn).1 hne intActive s'
  case kept =>
    intro m o n h hn
    obtain ⟨⟨hm, hstat, hcount, _⟩, _⟩ := hi.holds_of_ahead h hn
    exact hi.safe.delete m hm hstat (.inl hcount)
  case free =>
    intro m o h hheld
    have hcount := (hi.tally.held m o hheld).1
    have hne := hheld.2.2.1
    unfold Ahead at h
    omega

/-- As long as no owner takes a mutex that it holds 65535 times, `muxCount` is what the owner is
ahead. -/
theorem losMux_recursion {s₀ : CountedState} {events : List MuxEvent} (hmax : gTaskMaxNum ≤ osInvalid)
    (hb : CountBooted s₀)
    (hrun : Run (fun s event s' => countedStep s event = some s' ∧ DepthKept s.toMuxState event) s₀
      events s) : RecursionExact s := by
  obtain ⟨V, hi⟩ := muxRun_inv hmax hb hrun
  exact hi.exact

instance instDecidableDepthKept (s : MuxState) : (event : MuxEvent) → Decidable (DepthKept s event)
  | .pend m _ => inferInstanceAs (Decidable ((s.mux m).owner = some s.kernel.runTask → (s.mux m).muxCount < 65535))
  | .kernel _ | .create _ | .delete _ | .resume | .post _ => isTrue trivial

/-- A task takes the mutex three times and posts it three times. Another one comes in between. -/
def nestedEvents : List MuxEvent :=
  [.create true, .kernel (smallTask 10), .kernel .start, .pend 0 0, .pend 0 0, .pend 0 0, .post 0,
    .kernel (smallTask 5), .kernel .pendSV, .pend 0 0, .kernel (.delay 10), .kernel .pendSV, .post 0, .post 0]

omit [Config] in
/-- Two pends ahead, with the other task on the processor; one ahead; even. -/
theorem losMux_recursion_small :
    letI := smallConfig
    CountBooted smallCounted ∧ ∀ x ∈ [(10, 2, 2), (13, 1, 1), (14, 0, 1)], ∃ s,
      Run (fun s event s' => countedStep s event = some s' ∧ DepthKept s.toMuxState event) smallCounted
        (nestedEvents.take x.1) s ∧
      Ahead s 0 1 x.2.1 ∧ (s.mux 0).muxCount = x.2.1 ∧ s.kernel.runTask = x.2.2 ∧ RecursionExact s := by
  let := smallConfig
  have hb : CountBooted smallCounted := ⟨smallMux_booted, fun _ _ => rfl⟩
  refine ⟨hb, fun x hx => ?_⟩
  have hrun : ((nestedEvents.take x.1).foldlM
      (guarded (fun s => DepthKept s.toMuxState) countedStep) smallCounted).map (fun s =>
        (decide (s.pends 0 1 = s.posts 0 1 + x.2.1), (s.mux 0).muxCount, s.kernel.runTask)) =
      some (true, x.2.1, x.2.2) := by
    simp only [List.mem_cons, List.not_mem_nil, or_false] at hx
    rcases hx with rfl | rfl | rfl
    · decide +kernel
    · decide +kernel
    · decide +kernel
  obtain ⟨s, hs, hval⟩ := Option.map_eq_some_iff.mp hrun
  simp only [Prod.mk.injEq, decide_eq_true_eq] at hval
  obtain ⟨hahead, hcount, hrunTask⟩ := hval
  have hsteps := run_of_guarded hs
  exact ⟨s, hsteps, hahead, hcount, hrunTask, losMux_recursion (by decide) hb hsteps⟩

theorem countedStep_again {s : CountedState} (hlimit : 0 < Config.muxLimit) (hfree : s.free = true)
    (hlock : s.kernel.gLosTaskLock = 0) (hstat : (s.mux 0).muxStat = true)
    (howner : (s.mux 0).owner = some s.kernel.runTask) (hcount : (s.mux 0).muxCount ≠ 0) :
    ∃ s', countedStep s (.pend 0 0) = some s' ∧ s'.kernel = s.kernel ∧ s'.pending = s.pending ∧
      s'.mux 0 = { s.mux 0 with muxCount := ((s.mux 0).muxCount + 1) % 2 ^ 16 } ∧
      s'.pends 0 s.kernel.runTask = s.pends 0 s.kernel.runTask + 1 ∧ s'.posts = s.posts := by
  obtain ⟨cb, hcb⟩ : ∃ cb, cb = { s.mux 0 with muxCount := ((s.mux 0).muxCount + 1) % 2 ^ 16 } :=
    ⟨_, rfl⟩
  have hpend : losMuxPend s.toMuxState false 0 0 = some (s.toMuxState.setMux 0 cb, .losOk) := by
    unfold losMuxPend osMuxValidCheck
    rw [if_neg (Nat.not_le.mpr hlimit)]
    simp [hstat, hlock, hcount, howner, hcb]
  refine ⟨s.note (.pend 0 0) (s.toMuxState.setMux 0 cb) .losOk, ?_, rfl, rfl, ?_, ?_, rfl⟩
  · unfold countedStep muxStep
    dsimp only
    rw [if_pos hfree, hpend]
    rfl
  · rw [← hcb]
    exact Function.update_self 0 cb s.mux
  · exact bump_self _ _ _

/-- The state after one pend. -/
def deepEvents : List MuxEvent :=
  [.create true, .kernel (smallTask 5), .kernel .start, .pend 0 0]

omit [Config] in
/-- After 65536 pends the count is 0 again: the owner is ahead, and the mutex can be deleted. -/
theorem losMuxPend_wraps :
    letI := smallConfig
    ∃ events s, Run (fun s event s' => countedStep s event = some s') smallCounted events s ∧
      Ahead s 0 s.kernel.runTask 65536 ∧ (s.mux 0).muxCount = 0 ∧
      (losMuxDelete s.toMuxState 0).2 = .losOk ∧ ¬ RecursionExact s := by
  let := smallConfig
  obtain ⟨s₁, hs₁, hfacts⟩ : ∃ s₁, deepEvents.foldlM countedStep smallCounted = some s₁ ∧
      (s₁.free = true ∧ s₁.kernel.gLosTaskLock = 0 ∧
        losListEmpty s₁.kernel (.wait (.muxList 0)) = true) ∧
      ((s₁.mux 0).muxStat = true ∧ (s₁.mux 0).owner = some s₁.kernel.runTask ∧
        (s₁.mux 0).muxCount = 1) ∧
      s₁.pends 0 s₁.kernel.runTask = 1 ∧ s₁.posts 0 s₁.kernel.runTask = 0 := by
    have hrun : (deepEvents.foldlM countedStep smallCounted).map (fun s =>
        ((s.free, s.kernel.gLosTaskLock, losListEmpty s.kernel (.wait (.muxList 0))),
          ((s.mux 0).muxStat, (s.mux 0).owner == some s.kernel.runTask, (s.mux 0).muxCount),
          s.pends 0 s.kernel.runTask, s.posts 0 s.kernel.runTask)) =
        some ((true, 0, true), (true, true, 1), 1, 0) := by decide +kernel
    rw [Option.map_eq_some_iff] at hrun
    obtain ⟨s₁, hs₁, heq⟩ := hrun
    simp only [Prod.mk.injEq, beq_iff_eq] at heq
    exact ⟨s₁, hs₁, heq⟩
  obtain ⟨⟨hfree, hlock, hempty⟩, ⟨hstat, howner, hone⟩, hpends, hposts⟩ := hfacts
  -- every further pend adds one, up to the one that finds 65535
  have hdeep : ∀ k ≤ 65535, ∃ events s,
      Run (fun s event s' => countedStep s event = some s') smallCounted events s ∧
      s.kernel = s₁.kernel ∧ s.pending = s₁.pending ∧
      s.mux 0 = { s₁.mux 0 with muxCount := (k + 1) % 2 ^ 16 } ∧
      s.pends 0 s₁.kernel.runTask = k + 1 ∧ s.posts = s₁.posts := by
    intro k hk
    induction k with
    | zero =>
      refine ⟨deepEvents, s₁, run_of_foldlM hs₁, rfl, rfl, ?_, hpends, rfl⟩
      show s₁.mux 0 = { s₁.mux 0 with muxCount := 1 }
      rw [← hone]
    | succ k ih =>
      obtain ⟨events, s, hrun, hkernel, hpending, hmux, hs, hps⟩ := ih (by omega)
      have hfree' : s.free = true := by
        unfold MuxState.free at hfree ⊢
        rw [hkernel, hpending]
        exact hfree
      obtain ⟨s', hstep, hk', hp', hm', hc', hps'⟩ := countedStep_again (s := s) (by decide) hfree'
        (by rw [hkernel]; exact hlock) (by rw [hmux]; exact hstat)
        (by rw [hmux, hkernel]; exact howner)
        (by rw [hmux]; show (k + 1) % 2 ^ 16 ≠ 0; omega)
      refine ⟨events ++ [.pend 0 0], s', Run.snoc hrun hstep, hk'.trans hkernel, hp'.trans hpending,
        ?_, ?_, hps'.trans hps⟩
      · rw [hm', hmux]
        show LosMuxCB.mk _ (((k + 1) % 2 ^ 16 + 1) % 2 ^ 16) _ _ = _
        rw [show ((k + 1) % 2 ^ 16 + 1) % 2 ^ 16 = (k + 1 + 1) % 2 ^ 16 by omega]
      · rw [← hkernel, hc', hkernel, hs]
  obtain ⟨events, s, hrun, hkernel, _, hmux, hs, hps⟩ := hdeep 65535 (Nat.le_refl _)
  have hcount : (s.mux 0).muxCount = 0 :=
    (congrArg LosMuxCB.muxCount hmux).trans (Nat.mod_self (2 ^ 16))
  have hahead : Ahead s 0 s.kernel.runTask 65536 := by
    unfold Ahead
    rw [hkernel, hs, hps, hposts]
  have hdelete : (losMuxDelete s.toMuxState 0).2 = .losOk := by
    unfold losMuxDelete
    rw [if_neg (by decide), if_neg (by rw [hmux]; simp [hstat]), if_neg (by rw [hkernel]; simp [hempty, hcount])]
  refine ⟨events, s, hrun, hahead, hcount, hdelete, fun h => ?_⟩
  exact (h.held 0 _ _ hahead (by decide)).1.2.2.1 hcount

end LiteosM.Ipc
