import LiteosM.Ipc.MuxInversion

/-!
# What a mutex counts

`pends` and `posts` count the successful calls of every task on every mutex; a pend that had to
wait succeeds when the mutex is handed over. `since` notes when a task blocked. The count of a
mutex is the difference of the two for its owner, and nobody else holds it.
-/

namespace LiteosM.Ipc

open LiteosM.Kernel LiteosM.Lib.DlList LiteosM.Lib.Transition

structure CountedState extends MuxState where
  pends : Nat → Nat → Nat
  posts : Nat → Nat → Nat
  clock : Nat
  since : Nat → Nat

def bump (f : Nat → Nat → Nat) (m t : Nat) : Nat → Nat → Nat :=
  fun m' u => if m' = m ∧ u = t then f m t + 1 else f m' u

/-- The task that a post hands the mutex to. -/
def handedTo (s s' : MuxState) (m : Nat) : Option Nat :=
  if (s'.mux m).muxCount ≠ 0 ∧ (s'.mux m).owner ≠ some s.kernel.runTask then (s'.mux m).owner else none

def notePends (s : CountedState) (s' : MuxState) : MuxEvent → MuxErrno → Nat → Nat → Nat
  | .pend m _, .losOk => bump s.pends m s.kernel.runTask
  | .post m, .losOk =>
    match handedTo s.toMuxState s' m with
    | some w => bump s.pends m w
    | none => s.pends
  | _, _ => s.pends

def notePosts (s : CountedState) : MuxEvent → MuxErrno → Nat → Nat → Nat
  | .post m, .losOk => bump s.posts m s.kernel.runTask
  | _, _ => s.posts

def noteSince (s : CountedState) : MuxEvent → MuxErrno → Nat → Nat
  | .pend _ _, .blocked => Function.update s.since s.kernel.runTask s.clock
  | _, _ => s.since

def CountedState.note (s : CountedState) (event : MuxEvent) (s' : MuxState) (r : MuxErrno) :
    CountedState :=
  { s' with
    pends := notePends s s' event r
    posts := notePosts s event r
    clock := s.clock + 1
    since := noteSince s event r }

variable [Config]

def countedStep (s : CountedState) (event : MuxEvent) : Option CountedState :=
  (muxStep s.toMuxState event).map fun r => s.note event r.1 r.2

/-- No task is deleted, and no task takes a mutex that it holds 65535 times. -/
def Shallow (s : MuxState) : MuxEvent → Prop
  | .kernel (.delete _) => False
  | .pend m _ => (s.mux m).owner = some s.kernel.runTask → (s.mux m).muxCount < 65535
  | _ => True

/-- No mutex is taken again by an owner that holds it 65535 times. -/
def DepthKept (s : MuxState) : MuxEvent → Prop
  | .pend m _ => (s.mux m).owner = some s.kernel.runTask → (s.mux m).muxCount < 65535
  | _ => True

/-- Task `w` blocked on mutex `m` before all others that are blocked there. -/
def LongestWaiting (s : CountedState) (m w : Nat) : Prop :=
  BlockedOn s.toMuxState m w ∧ ∀ t, BlockedOn s.toMuxState m t → t ≠ w → s.since w < s.since t

/-- The next post of the owner is its last. -/
def LastPost (s : CountedState) (m : Nat) : Prop :=
  s.pends m s.kernel.runTask = s.posts m s.kernel.runTask + 1

structure MutexSafe (s : CountedState) : Prop where
  held : ∀ m o, Holds s.toMuxState m o → s.pends m o = s.posts m o + (s.mux m).muxCount ∧
    ∀ t, t ≠ o → s.pends m t = s.posts m t
  owned : ∀ m < Config.muxLimit, (s.mux m).muxStat = true → (s.mux m).muxCount ≠ 0 →
    ∃ o, Holds s.toMuxState m o
  free : ∀ m < Config.muxLimit, (s.mux m).muxStat = true → (s.mux m).muxCount = 0 →
    (∀ t, s.pends m t = s.posts m t) ∧ losListEmpty s.kernel (.wait (.muxList m))
  refused : ∀ m s', ¬ Holds s.toMuxState m s.kernel.runTask →
    muxStep s.toMuxState (.post m) ≠ some (s', .losOk)
  kept : ∀ m s', muxStep s.toMuxState (.post m) = some (s', .losOk) → ¬ LastPost s m →
    Holds s' m s.kernel.runTask ∧ (s.mux m).muxCount = (s'.mux m).muxCount + 1
  passed : ∀ m s', muxStep s.toMuxState (.post m) = some (s', .losOk) → LastPost s m →
    ((s'.mux m).muxCount = 0 ∧ ∀ t, ¬ BlockedOn s.toMuxState m t) ∨
      ∃ w, LongestWaiting s m w ∧ Holds s' m w ∧ (s'.mux m).muxCount = 1
  stays : ∀ m o event s' r, Holds s.toMuxState m o → Shallow s.toMuxState event →
    muxStep s.toMuxState event = some (s', r) →
      Holds s' m o ∨ (event = .post m ∧ o = s.kernel.runTask ∧ LastPost s m)
  timedOut : ∀ m t, s.pending t = some m → (s.kernel.status t).timeout = true →
    ¬ Holds s.toMuxState m t ∧
      ∀ m' < Config.muxLimit, (s.mux m').muxStat = true → ¬ BlockedOn s.toMuxState m' t
  returns : ∀ m s' r, s.pending s.kernel.runTask = some m → muxStep s.toMuxState .resume = some (s', r) →
    (r = .losOk ∧ Holds s.toMuxState m s.kernel.runTask) ∨
      (r = .muxTimeout ∧ ¬ Holds s.toMuxState m s.kernel.runTask)
  delete : ∀ m < Config.muxLimit, (s.mux m).muxStat = true →
    ((s.mux m).muxCount ≠ 0 ∨ ∃ t, BlockedOn s.toMuxState m t) →
      losMuxDelete s.toMuxState m = (s.toMuxState, .muxPended)

/-- Where task `t` is with its pend. -/
structure WaitRight (s : MuxState) (V : View Node) (t : Nat) : Prop where
  live : ∀ m, s.pending t = some m → (s.kernel.gTaskCBArray t).taskStatus.unused = false
  waiting : ∀ m, V.role (.pendList t) = .member (.wait (.muxList m)) →
    (s.kernel.gTaskCBArray t).taskStatus.timeout = false ∧ ¬ Holds s m t
  woken : ∀ m, s.pending t = some m → (∀ w, V.role (.pendList t) ≠ .member (.wait w)) →
    ((s.kernel.gTaskCBArray t).taskStatus.timeout = true ∧ ¬ Holds s m t) ∨
      ((s.kernel.gTaskCBArray t).taskStatus.timeout = false ∧ Holds s m t)
  calm : s.pending t = none → (s.kernel.gTaskCBArray t).taskStatus.timeout = false

/-- The counts of the calls and of the mutexes agree. -/
structure Tally (s : CountedState) : Prop where
  held : ∀ m o, Holds s.toMuxState m o → s.pends m o = s.posts m o + (s.mux m).muxCount ∧
    ∀ t, t ≠ o → s.pends m t = s.posts m t
  rest : ∀ m, (∀ o, ¬ Holds s.toMuxState m o) → ∀ t, s.pends m t = s.posts m t

/-- The wait lists are in the order in which the tasks blocked. -/
structure Queued (s : CountedState) (V : View Node) : Prop where
  order : ∀ m, (V.content (.wait (.muxList m))).Pairwise fun x y =>
    ∀ t u, x = .pendList t → y = .pendList u → s.since t < s.since u
  past : ∀ t w, V.role (.pendList t) = .member (.wait w) → s.since t < s.clock

structure CountInv (s : CountedState) (V : View Node) : Prop where
  mux : MuxInv s.toMuxState V
  bound : ∀ t m, s.pending t = some m → t < gTaskMaxNum
  right : ∀ t < gTaskMaxNum, WaitRight s.toMuxState V t
  tally : Tally s
  queued : Queued s V
  empty : ∀ m < Config.muxLimit, (s.mux m).muxStat = true → (s.mux m).muxCount = 0 →
    V.content (.wait (.muxList m)) = []

section

variable {s s₁ : CountedState} {s' : MuxState} {V V' : View Node} {event : MuxEvent} {r : MuxErrno}
  {m o t w : Nat} {k : KernelState} {cb : LosMuxCB}

omit [Config] in
theorem bump_self (f : Nat → Nat → Nat) (m t : Nat) : bump f m t m t = f m t + 1 := by
  simp [bump]

omit [Config] in
theorem bump_of_mux {f : Nat → Nat → Nat} {m' u : Nat} (h : m' ≠ m) : bump f m t m' u = f m' u := by
  simp [bump, h]

omit [Config] in
theorem bump_of_task {f : Nat → Nat → Nat} {m' u : Nat} (h : u ≠ t) : bump f m t m' u = f m' u := by
  simp [bump, h]

omit [Config] in
@[simp]
theorem note_toMuxState : (s.note event s' r).toMuxState = s' := rfl

theorem holds_of_mux (hs : s'.mux = s.mux) : Holds s' m t ↔ Holds s.toMuxState m t := by
  unfold Holds
  rw [hs]

theorem holds_update {m' : Nat} (hs : s'.mux = Function.update s.mux m cb) (hne : m' ≠ m) :
    Holds s' m' t ↔ Holds s.toMuxState m' t := by
  unfold Holds
  rw [hs, Function.update_of_ne hne]

theorem holds_self (hs : s'.mux = Function.update s.mux m cb) :
    Holds s' m t ↔ m < Config.muxLimit ∧ cb.muxStat = true ∧ cb.muxCount ≠ 0 ∧ cb.owner = some t := by
  unfold Holds
  rw [hs, Function.update_self]

theorem Holds.unique (h : Holds s.toMuxState m o) (h' : Holds s.toMuxState m t) : o = t :=
  Option.some.inj (h.2.2.2.symm.trans h'.2.2.2)

theorem WaitRight.same (h : WaitRight s.toMuxState V t) (hpend : s'.pending t = s.pending t)
    (hunused : (s'.kernel.gTaskCBArray t).taskStatus.unused =
      (s.kernel.gTaskCBArray t).taskStatus.unused)
    (htime : (s'.kernel.gTaskCBArray t).taskStatus.timeout =
      (s.kernel.gTaskCBArray t).taskStatus.timeout)
    (hplace : ∀ w, V'.role (.pendList t) = .member (.wait w) ↔ V.role (.pendList t) = .member (.wait w))
    (hholds : ∀ m, Holds s' m t ↔ Holds s.toMuxState m t) : WaitRight s' V' t := by
  refine ⟨fun m hm => ?_, fun m hm => ?_, fun m hm hw => ?_, fun hn => ?_⟩
  · rw [hunused]
    exact h.live m (hpend.symm.trans hm)
  · rw [htime, hholds]
    exact h.waiting m ((hplace _).mp hm)
  · rw [htime, hholds]
    exact h.woken m (hpend.symm.trans hm) fun w hx => hw w ((hplace w).mpr hx)
  · rw [htime]
    exact h.calm (hpend.symm.trans hn)

theorem WaitRight.idle (hpend : s'.pending t = none)
    (htime : (s'.kernel.gTaskCBArray t).taskStatus.timeout = false)
    (hgone : ∀ w, V'.role (.pendList t) ≠ .member (.wait w)) : WaitRight s' V' t := by
  refine ⟨fun m hm => ?_, fun m hm => absurd hm (hgone _), fun m hm => ?_, fun _ => htime⟩
  · rw [hpend] at hm
    cases hm
  · rw [hpend] at hm
    cases hm

theorem Tally.same (h : Tally s) (hpends : s₁.pends = s.pends) (hposts : s₁.posts = s.posts)
    (hholds : ∀ m t, Holds s₁.toMuxState m t ↔ Holds s.toMuxState m t)
    (hcount : ∀ m t, Holds s.toMuxState m t → (s₁.mux m).muxCount = (s.mux m).muxCount) : Tally s₁ := by
  constructor
  · intro m o ho
    have ho' := (hholds m o).mp ho
    rw [hpends, hposts, hcount m o ho']
    exact h.held m o ho'
  · intro m hno t
    rw [hpends, hposts]
    exact h.rest m (fun o ho => hno o ((hholds m o).mpr ho)) t

omit [Config] in
theorem Queued.shrink (h : Queued s V) (hsince : s₁.since = s.since) (hclock : s.clock ≤ s₁.clock)
    (hcontent : ∀ w, (V'.content (.wait w)).Sublist (V.content (.wait w)))
    (hplace : ∀ t w, V'.role (.pendList t) = .member (.wait w) → V.role (.pendList t) = .member (.wait w)) :
    Queued s₁ V' := by
  refine ⟨fun m => ?_, fun t w hw => ?_⟩
  · rw [hsince]
    exact (h.order m).sublist (hcontent _)
  · rw [hsince]
    exact Nat.lt_of_lt_of_le (h.past t w (hplace t w hw)) hclock

theorem CountInv.blocked_iff (hi : CountInv s V) (hm : m < Config.muxLimit)
    (hst : (s.mux m).muxStat = true) :
    BlockedOn s.toMuxState m t ↔ V.role (.pendList t) = .member (.wait (.muxList m)) := by
  have hf := hi.mux.machine.inv.core.ready.forest
  have hh := hi.mux.used m hm hst
  constructor
  · exact fun h => (hf.mem _ _).mp (h.mem_content hf hh)
  · exact onList_of_content hf hh

theorem CountInv.relinked (hi : CountInv s V) (hi' : MuxInv s' V')
    (hrel : MuxRelinked s.toMuxState V s' V') (hpends : notePends s s' event r = s.pends)
    (hposts : notePosts s event r = s.posts) (hsince : noteSince s event r = s.since)
    (hholds : ∀ m t, Holds s' m t ↔ Holds s.toMuxState m t)
    (hcount : ∀ m t, Holds s.toMuxState m t → (s'.mux m).muxCount = (s.mux m).muxCount)
    (hempty : ∀ m < Config.muxLimit, (s'.mux m).muxStat = true → (s'.mux m).muxCount = 0 →
      V.content (.wait (.muxList m)) = []) : CountInv (s.note event s' r) V' := by
  refine ⟨hi', fun t m hm => ?_, fun t ht => ?_, ?_, ?_, fun m hm hst hc => ?_⟩
  · exact hi.bound t m ((congrFun hrel.pending t).symm.trans hm)
  · exact (hi.right t ht).same (congrFun hrel.pending t) (by rw [note_toMuxState, hrel.task])
      (by rw [note_toMuxState, hrel.task]) (fun w => by rw [hrel.place]) fun m => hholds m t
  · exact hi.tally.same hpends hposts hholds hcount
  · refine hi.queued.shrink hsince (Nat.le_succ _) (fun w => ?_) fun t w hw => ?_
    · rw [hrel.content]
    · rwa [hrel.place] at hw
  · rw [hrel.content]
    exact hempty m hm hst hc

omit [Config] in
theorem MuxRelinked.refl (s : MuxState) (V : View Node) : MuxRelinked s V s V :=
  ⟨rfl, rfl, rfl, fun _ => rfl, fun _ => rfl⟩

theorem CountInv.refused (hi : CountInv s V)
    (hpends : notePends s s.toMuxState event r = s.pends) (hposts : notePosts s event r = s.posts)
    (hsince : noteSince s event r = s.since) : CountInv (s.note event s.toMuxState r) V :=
  hi.relinked hi.mux (MuxRelinked.refl _ _) hpends hposts hsince (fun _ _ => Iff.rfl)
    (fun _ _ _ => rfl) hi.empty

theorem CountInv.set (hi : CountInv s V) (hi' : MuxInv (s.setMux m cb) V)
    (hsince : noteSince s event r = s.since) (hcount : cb.muxCount ≠ 0)
    (hright : ∀ t < gTaskMaxNum, WaitRight (s.setMux m cb) V t)
    (htally : Tally (s.note event (s.setMux m cb) r)) : CountInv (s.note event (s.setMux m cb) r) V := by
  refine ⟨hi', hi.bound, hright, htally, ?_, fun m' hm hst hc => ?_⟩
  · exact hi.queued.shrink hsince (Nat.le_succ _) (fun w => List.Sublist.refl _) fun _ _ h => h
  · by_cases hmm : m' = m
    · rw [hmm] at hc
      rw [note_toMuxState, setMux_self] at hc
      exact absurd hc hcount
    · rw [note_toMuxState, setMux_of_ne hmm] at hst hc
      exact hi.empty m' hm hst hc

theorem losMuxCreate_count (hi : CountInv s V) (muxHandle : Bool)
    (hstep : muxStep s.toMuxState (.create muxHandle) = some (s', r)) :
    (∃ V', CountInv (s.note (.create muxHandle) s' r) V') ∧
      ∀ m o, Holds s.toMuxState m o → Holds s' m o := by
  obtain ⟨s1, V1, r1, o, heq, hi1, hrel, hout⟩ := losMuxCreate_spec hi.mux muxHandle
  simp only [muxStep, heq, Option.map_some, Option.some.injEq, Prod.mk.injEq] at hstep
  rw [← hstep.1]
  rcases hout with ⟨hmux, _⟩ | ⟨_, m₀, hlt, _, hst₀, hmux⟩
  · have hh : ∀ m t, Holds s1 m t ↔ Holds s.toMuxState m t := fun m t => holds_of_mux hmux
    refine ⟨⟨V1, hi.relinked hi1 hrel rfl rfl rfl hh (fun m t _ => by rw [hmux]) ?_⟩,
      fun m o ho => (hh m o).mpr ho⟩
    rw [hmux]
    exact hi.empty
  · have hno : ∀ t, ¬ Holds s.toMuxState m₀ t := fun t h => by
      rw [h.2.1] at hst₀
      cases hst₀
    have hh : ∀ m t, Holds s1 m t ↔ Holds s.toMuxState m t := by
      intro m t
      by_cases hmm : m = m₀
      · rw [hmm, holds_self hmux]
        exact iff_of_false (fun h => h.2.2.1 rfl) (hno t)
      · exact holds_update hmux hmm
    have hcount : ∀ m t, Holds s.toMuxState m t → (s1.mux m).muxCount = (s.mux m).muxCount := by
      intro m t ht
      have hmm : m ≠ m₀ := by
        rintro rfl
        exact hno t ht
      rw [hmux, Function.update_of_ne hmm]
    refine ⟨⟨V1, hi.relinked hi1 hrel rfl rfl rfl hh hcount fun m hm hst hc => ?_⟩,
      fun m o ho => (hh m o).mpr ho⟩
    by_cases hmm : m = m₀
    · have hrole := (hi.mux.unused (.wait (.muxList m))).mpr ⟨m₀, hlt, by rw [hmm], hst₀⟩
      exact hi.mux.machine.inv.core.ready.forest.content_loose (by rw [hrole]; simp)
    · rw [hmux, Function.update_of_ne hmm] at hst hc
      exact hi.empty m hm hst hc

theorem losMuxDelete_count (hi : CountInv s V) (m₀ : Nat)
    (hstep : muxStep s.toMuxState (.delete m₀) = some (s', r)) :
    (∃ V', CountInv (s.note (.delete m₀) s' r) V') ∧
      ∀ m o, Holds s.toMuxState m o → Holds s' m o := by
  obtain ⟨V1, hi1, hrel, hout⟩ := losMuxDelete_spec hi.mux m₀
  simp only [muxStep, Option.some.injEq] at hstep
  rw [hstep] at hi1 hrel hout
  rcases hout with ⟨hs, _, _⟩ | ⟨hlt, hst₀, hzero, _, _, hmux⟩
  · change s' = s.toMuxState at hs
    rw [hs] at hi1 hrel ⊢
    exact ⟨⟨V1, hi.relinked hi1 hrel rfl rfl rfl (fun _ _ => Iff.rfl) (fun _ _ _ => rfl) hi.empty⟩,
      fun _ _ h => h⟩
  · change s'.mux = _ at hmux
    have hno : ∀ t, ¬ Holds s.toMuxState m₀ t := fun t h => h.2.2.1 hzero
    have hh : ∀ m t, Holds s' m t ↔ Holds s.toMuxState m t := by
      intro m t
      by_cases hmm : m = m₀
      · rw [hmm, holds_self hmux]
        exact iff_of_false (fun h => Bool.false_ne_true h.2.1) (hno t)
      · exact holds_update hmux hmm
    have hcount : ∀ m t, Holds s.toMuxState m t → (s'.mux m).muxCount = (s.mux m).muxCount := by
      intro m t ht
      have hmm : m ≠ m₀ := by
        rintro rfl
        exact hno t ht
      rw [hmux, Function.update_of_ne hmm]
    refine ⟨⟨V1, hi.relinked hi1 hrel rfl rfl rfl hh hcount fun m hm hst hc => ?_⟩,
      fun m o ho => (hh m o).mpr ho⟩
    by_cases hmm : m = m₀
    · rw [hmux, hmm, Function.update_self] at hst
      cases hst
    · rw [hmux, Function.update_of_ne hmm] at hst hc
      exact hi.empty m hm hst hc

theorem WaitRight.caller (hi : CountInv s V) (hfree : s.free = true)
    (hpend : s'.pending s.kernel.runTask = s.pending s.kernel.runTask)
    (htime : (s'.kernel.gTaskCBArray s.kernel.runTask).taskStatus.timeout =
      (s.kernel.gTaskCBArray s.kernel.runTask).taskStatus.timeout)
    (hplace : ∀ w, V'.role (.pendList s.kernel.runTask) = .member (.wait w) ↔
      V.role (.pendList s.kernel.runTask) = .member (.wait w)) :
    WaitRight s' V' s.kernel.runTask := by
  simp only [MuxState.free, Bool.and_eq_true, Option.isNone_iff_eq_none] at hfree
  have hcaller := hi.mux.machine.calling_caller hfree.1
  refine WaitRight.idle (hpend.trans hfree.2) ?_ fun w hw => ?_
  · rw [htime]
    exact (hi.right _ hcaller.bound).calm hfree.2
  · exact hi.mux.machine.caller_gone hfree.1 w ((hplace w).mp hw)

theorem losMuxPend_count (hi : CountInv s V) (hsh : Shallow s.toMuxState (.pend m w))
    (hstep : muxStep s.toMuxState (.pend m w) = some (s', r)) :
    (∃ V', CountInv (s.note (.pend m w) s' r) V') ∧
      ∀ m o, Holds s.toMuxState m o → Holds s' m o := by
  simp only [muxStep] at hstep
  split at hstep
  swap
  · cases hstep
  next hfree =>
  have hfree' := hfree
  simp only [MuxState.free, Bool.and_eq_true, Option.isNone_iff_eq_none] at hfree'
  have hcaller := hi.mux.machine.calling_caller hfree'.1
  obtain ⟨s1, V1, r1, heq, hi1, hout⟩ := losMuxPend_spec hi.mux hfree'.1 m w
  rw [heq, Option.some.injEq, Prod.mk.injEq] at hstep
  rw [← hstep.1, ← hstep.2]
  clear hstep heq
  have hself : ∀ cb, WaitRight (s.setMux m cb) V s.kernel.runTask := fun cb =>
    WaitRight.caller hi hfree rfl rfl fun _ => Iff.rfl
  cases hout with
  | refused h₁ h₂ =>
    refine ⟨⟨V, hi.refused ?_ rfl ?_⟩, fun _ _ h => h⟩
    · cases r1 <;> first | rfl | exact absurd rfl h₁
    · cases r1 <;> first | rfl | exact absurd rfl h₂
  | acquired bound stat count =>
    have hno : ∀ t, ¬ Holds s.toMuxState m t := fun t h => h.2.2.1 count
    generalize hcb : ({ s.mux m with
      muxCount := 1
      owner := some s.kernel.runTask
      priority := (s.kernel.gTaskCBArray s.kernel.runTask).priority } : LosMuxCB) = cb at hi1 ⊢
    have hmux : (s.setMux m cb).mux = Function.update s.mux m cb := rfl
    have hnew : ∀ t, Holds (s.setMux m cb) m t ↔ t = s.kernel.runTask := by
      intro t
      rw [holds_self hmux, ← hcb]
      exact ⟨fun h => (Option.some.inj h.2.2.2).symm, fun h => ⟨bound, stat, Nat.one_ne_zero, by rw [h]⟩⟩
    have hother : ∀ m' o, m' ≠ m → (Holds (s.setMux m cb) m' o ↔ Holds s.toMuxState m' o) :=
      fun m' o hmm => holds_update hmux hmm
    have hone : cb.muxCount = 1 := by rw [← hcb]
    clear hcb
    refine ⟨⟨V, hi.set hi1 rfl (by rw [hone]; exact Nat.one_ne_zero) (fun t ht => ?_)
      ⟨fun m' o ho => ?_, fun m' hnone t => ?_⟩⟩, fun m' o ho => ?_⟩
    · by_cases htr : t = s.kernel.runTask
      · rw [htr]
        exact hself cb
      · refine (hi.right t ht).same rfl rfl rfl (fun _ => Iff.rfl) fun m' => ?_
        by_cases hmm : m' = m
        · rw [hmm, hnew]
          exact iff_of_false htr (hno t)
        · exact hother m' t hmm
    · show bump s.pends m s.kernel.runTask m' o = s.posts m' o + ((s.setMux m cb).mux m').muxCount ∧
        ∀ t, t ≠ o → bump s.pends m s.kernel.runTask m' t = s.posts m' t
      by_cases hmm : m' = m
      · rw [hmm] at ho ⊢
        rw [(hnew o).mp ho, bump_self, setMux_self, hone, hi.tally.rest m hno]
        refine ⟨rfl, fun t ht => ?_⟩
        rw [bump_of_task ht]
        exact hi.tally.rest m hno t
      · have ho' := (hother m' o hmm).mp ho
        rw [bump_of_mux hmm, setMux_of_ne hmm]
        refine ⟨(hi.tally.held m' o ho').1, fun t ht => ?_⟩
        rw [bump_of_mux hmm]
        exact (hi.tally.held m' o ho').2 t ht
    · show bump s.pends m s.kernel.runTask m' t = s.posts m' t
      have hmm : m' ≠ m := by
        rintro rfl
        exact hnone _ ((hnew _).mpr rfl)
      rw [bump_of_mux hmm]
      exact hi.tally.rest m' (fun o ho => hnone o ((hother m' o hmm).mpr ho)) t
    · have hmm : m' ≠ m := by
        rintro rfl
        exact hno o ho
      exact (hother m' o hmm).mpr ho
  | again bound stat count owner =>
    have hheld : Holds s.toMuxState m s.kernel.runTask := ⟨bound, stat, count, owner⟩
    have hdeep := hsh owner
    generalize hcb : ({ s.mux m with muxCount := ((s.mux m).muxCount + 1) % 2 ^ 16 } : LosMuxCB) = cb
      at hi1 ⊢
    have hmux : (s.setMux m cb).mux = Function.update s.mux m cb := rfl
    have hcount : cb.muxCount = (s.mux m).muxCount + 1 := by
      rw [← hcb]
      exact Nat.mod_eq_of_lt (by omega)
    have hsame : ∀ m' o, Holds (s.setMux m cb) m' o ↔ Holds s.toMuxState m' o := by
      intro m' o
      by_cases hmm : m' = m
      · rw [hmm, holds_self hmux, hcount]
        unfold Holds
        rw [← hcb]
        exact ⟨fun h => ⟨h.1, h.2.1, count, h.2.2.2⟩, fun h => ⟨h.1, h.2.1, by omega, h.2.2.2⟩⟩
      · exact holds_update hmux hmm
    clear hcb
    refine ⟨⟨V, hi.set hi1 rfl (by omega) (fun t ht => ?_) ⟨fun m' o ho => ?_, fun m' hnone t => ?_⟩⟩,
      fun m' o ho => (hsame m' o).mpr ho⟩
    · exact (hi.right t ht).same rfl rfl rfl (fun _ => Iff.rfl) fun m' => hsame m' t
    · have ho' := (hsame m' o).mp ho
      obtain ⟨h1, h2⟩ := hi.tally.held m' o ho'
      show bump s.pends m s.kernel.runTask m' o = s.posts m' o + ((s.setMux m cb).mux m').muxCount ∧
        ∀ t, t ≠ o → bump s.pends m s.kernel.runTask m' t = s.posts m' t
      by_cases hmm : m' = m
      · rw [hmm] at ho' h1 h2 ⊢
        have hor := ho'.unique hheld
        rw [hor] at h1 h2 ⊢
        rw [bump_self, setMux_self, hcount, h1]
        refine ⟨rfl, fun t ht => ?_⟩
        rw [bump_of_task ht]
        exact h2 t ht
      · rw [bump_of_mux hmm, setMux_of_ne hmm]
        refine ⟨h1, fun t ht => ?_⟩
        rw [bump_of_mux hmm]
        exact h2 t ht
    · show bump s.pends m s.kernel.runTask m' t = s.posts m' t
      have hmm : m' ≠ m := by
        rintro rfl
        exact hnone _ ((hsame _ _).mpr hheld)
      rw [bump_of_mux hmm]
      exact hi.tally.rest m' (fun o ho => hnone o ((hsame m' o).mpr ho)) t
  | @blocked s1 V1 o h =>
    have hsame : ∀ m' o, Holds s1 m' o ↔ Holds s.toMuxState m' o := fun m' o => holds_of_mux h.mux
    have hon : ∀ t w, V1.role (.pendList t) = .member (.wait w) → t ≠ s.kernel.runTask →
        V.role (.pendList t) = .member (.wait w) := fun t w ht hne => (h.place t w hne).mp ht
    refine ⟨⟨V1, hi1, fun t m' ht => ?_, fun t ht => ?_, ?_, ⟨fun m' => ?_, fun t l hl => ?_⟩,
      fun m' hm hst hc => ?_⟩, fun m' o ho => (hsame m' o).mpr ho⟩
    · rw [note_toMuxState, h.pending] at ht
      by_cases htr : t = s.kernel.runTask
      · rw [htr]
        exact hcaller.bound
      · rw [Function.update_of_ne htr] at ht
        exact hi.bound t m' ht
    · by_cases htr : t = s.kernel.runTask
      · have hpend : s1.pending t = some m := by rw [h.pending, htr, Function.update_self]
        have htime : (s1.kernel.gTaskCBArray t).taskStatus.timeout = false := by
          rw [h.tasks.timeout t ht, htr]
          exact (hi.right _ hcaller.bound).calm hfree'.2
        refine ⟨fun m' _ => ?_, fun m' hm => ⟨htime, fun hh => ?_⟩, fun m' _ hw => ?_, fun hn => ?_⟩
        · rw [note_toMuxState, h.tasks.unused t ht, htr]
          exact hcaller.clean.unused
        · rw [htr] at hm
          have hmm := role_muxList_inj h.joined hm
          have hh' := (hsame m' t).mp hh
          rw [← hmm, htr] at hh'
          exact h.other (Option.some.inj (h.owner.symm.trans hh'.2.2.2))
        · rw [htr] at hw
          exact absurd h.joined (hw _)
        · rw [note_toMuxState, hpend] at hn
          cases hn
      · refine (hi.right t ht).same ?_ (h.tasks.unused t ht) (h.tasks.timeout t ht)
          (fun w => h.place t w htr) fun m' => hsame m' t
        rw [note_toMuxState, h.pending, Function.update_of_ne htr]
    · exact hi.tally.same rfl rfl hsame fun m' t _ => by rw [note_toMuxState, h.mux]
    · -- the caller is the last in its list
      show (V1.content _).Pairwise fun x y => ∀ t u, x = .pendList t → y = .pendList u →
        Function.update s.since s.kernel.runTask s.clock t <
          Function.update s.since s.kernel.runTask s.clock u
      have hf := hi.mux.machine.inv.core.ready.forest
      have hne : ∀ l t, .pendList t ∈ V.content (.wait l) → t ≠ s.kernel.runTask := by
        rintro l t ht rfl
        exact hi.mux.machine.caller_gone hfree'.1 l ((hf.mem _ _).mp ht)
      have hold : (V.content (.wait (.muxList m'))).Pairwise fun x y => ∀ t u, x = .pendList t →
          y = .pendList u → Function.update s.since s.kernel.runTask s.clock t <
            Function.update s.since s.kernel.runTask s.clock u := by
        refine (hi.queued.order m').imp_of_mem fun hx hy hlt t u ht hu => ?_
        rw [ht] at hx
        rw [hu] at hy
        rw [Function.update_of_ne (hne _ t hx), Function.update_of_ne (hne _ u hy)]
        exact hlt t u ht hu
      rw [h.content]
      split
      · refine List.pairwise_append.mpr ⟨hold, List.pairwise_singleton _ _, fun x hx y hy t u ht hu => ?_⟩
        rw [List.mem_singleton] at hy
        rw [hy] at hu
        injection hu with hu
        rw [ht] at hx
        rw [← hu, Function.update_self, Function.update_of_ne (hne _ t hx)]
        exact hi.queued.past t _ ((hf.mem _ _).mp hx)
      · exact hold
    · show Function.update s.since s.kernel.runTask s.clock t < s.clock + 1
      by_cases htr : t = s.kernel.runTask
      · rw [htr, Function.update_self]
        exact Nat.lt_succ_self _
      · rw [Function.update_of_ne htr]
        exact Nat.lt_succ_of_lt (hi.queued.past t l (hon t l hl htr))
    · rw [note_toMuxState, h.mux] at hst hc
      have hmm : m' ≠ m := by
        rintro rfl
        exact h.count hc
      rw [h.content, if_neg (by simpa using hmm)]
      exact hi.empty m' hm hst hc

theorem losMuxPendResume_count (hi : CountInv s V)
    (hstep : muxStep s.toMuxState .resume = some (s', r)) :
    CountInv (s.note .resume s' r) V ∧ ∀ m o, Holds s.toMuxState m o → Holds s' m o := by
  simp only [muxStep] at hstep
  split at hstep
  swap
  · cases hstep
  next hc =>
  have hcaller := hi.mux.machine.calling_caller hc.1
  have hi1 := losMuxPendResume_inv hi.mux hc.1
  rw [Option.some.injEq] at hstep
  rw [hstep] at hi1
  obtain ⟨hmux, hpend, hother, _, hself⟩ := losMuxPendResume_same hstep
  have hsame : ∀ m o, Holds s' m o ↔ Holds s.toMuxState m o := fun m o => holds_of_mux hmux
  refine ⟨⟨hi1, fun t m ht => ?_, fun t ht => ?_, ?_, ?_, fun m hm hst hz => ?_⟩,
    fun m o ho => (hsame m o).mpr ho⟩
  · rw [note_toMuxState, hpend] at ht
    by_cases htr : t = s.kernel.runTask
    · rw [htr]
      exact hcaller.bound
    · rw [Function.update_of_ne htr] at ht
      exact hi.bound t m ht
  · by_cases htr : t = s.kernel.runTask
    · rw [htr]
      refine WaitRight.idle ?_ hself fun w => hi.mux.machine.caller_gone hc.1 w
      rw [note_toMuxState, hpend, Function.update_self]
    · refine (hi.right t ht).same ?_ ?_ ?_ (fun _ => Iff.rfl) fun m => hsame m t
      · rw [note_toMuxState, hpend, Function.update_of_ne htr]
      · rw [note_toMuxState, hother t htr]
      · rw [note_toMuxState, hother t htr]
  · exact hi.tally.same rfl rfl hsame fun m t _ => by rw [note_toMuxState, hmux]
  · exact hi.queued.shrink rfl (Nat.le_succ _) (fun w => List.Sublist.refl _) fun _ _ h => h
  · rw [note_toMuxState, hmux] at hst hz
    exact hi.empty m hm hst hz

theorem CountInv.settle (hi : CountInv s V) {e : KernelEvent}
    (hstep : kernelStep s.kernel e = some k) :
    ∃ V', CountInv (s.note (.kernel e) (s.settle k) r) V' := by
  obtain ⟨V', hi', hq⟩ := hi.mux.settle hstep
  have hsub : ∀ t w, V'.role (.pendList t) = .member (.wait w) →
      V.role (.pendList t) = .member (.wait w) := fun t w h =>
    (hi.mux.machine.inv.core.ready.forest.mem _ _).mp
      ((hq.wait w).subset ((hi'.machine.inv.core.ready.forest.mem _ _).mpr h))
  have hpend : ∀ t m, (s.settle k).pending t = some m → s.pending t = some m := by
    intro t m h
    simp only [MuxState.settle] at h
    split at h
    · cases h
    · exact h
  have hkeep : ∀ t, (k.gTaskCBArray t).taskStatus.unused = (s.kernel.gTaskCBArray t).taskStatus.unused →
      t < gTaskMaxNum → (s.settle k).pending t = s.pending t := by
    intro t hu ht
    simp only [MuxState.settle]
    split
    · next h =>
      cases hp : s.pending t with
      | none => rfl
      | some m =>
        have hlive := (hi.right t ht).live m hp
        rw [← hu] at hlive
        rw [show (k.gTaskCBArray t).taskStatus.unused = true from h] at hlive
        cases hlive
    · rfl
  refine ⟨V', hi', fun t m h => hi.bound t m (hpend t m h), fun t ht => ?_, ?_, ?_, fun m hm hst hc => ?_⟩
  · have hr := hi.right t ht
    rcases hq.waiter hi.mux.machine.inv ht with ⟨h1, h2, h3⟩ | ⟨h1, h2, ⟨w, h3⟩, h4⟩ | ⟨h1, h2, h3⟩
    · exact hr.same (hkeep t h2 ht) h2 h1 h3 fun _ => Iff.rfl
    · -- a waiter times out
      obtain ⟨m, hm, rfl, hp⟩ := hi.mux.waits t w h3
      have hp' : (s.settle k).pending t = some m := (hkeep t h2 ht).trans hp
      refine ⟨fun m' _ => h2.trans (hr.live m hp), fun m' hm' => absurd hm' (h4 _), fun m' hm' _ => ?_,
        fun hn => ?_⟩
      · have hmm : m = m' := Option.some.inj (hp'.symm.trans hm')
        rw [← hmm]
        exact .inl ⟨h1, (hr.waiting m h3).2⟩
      · rw [note_toMuxState, hp'] at hn
        cases hn
    · refine WaitRight.idle ?_ h1 h3
      rcases h2 with h2 | h2
      · cases hp : (s.settle k).pending t with
        | none => exact hp
        | some m =>
          have hlive := hr.live m (hpend t m hp)
          rw [h2] at hlive
          cases hlive
      · exact if_pos h2
  · exact hi.tally.same rfl rfl (fun _ _ => Iff.rfl) fun _ _ _ => rfl
  · exact hi.queued.shrink rfl (Nat.le_succ _) hq.wait hsub
  · have h := hi.empty m hm hst hc
    have hsl := hq.wait (.muxList m)
    rw [h] at hsl
    exact List.sublist_nil.mp hsl

omit [Config] in
theorem notePends_none (h : handedTo s.toMuxState s' m = none) :
    notePends s s' (.post m) .losOk = s.pends := by
  simp only [notePends, h]

omit [Config] in
theorem notePends_some (h : handedTo s.toMuxState s' m = some w) :
    notePends s s' (.post m) .losOk = bump s.pends m w := by
  simp only [notePends, h]

theorem CountInv.lastPost_iff (hi : CountInv s V) (h : Holds s.toMuxState m s.kernel.runTask) :
    LastPost s m ↔ (s.mux m).muxCount = 1 := by
  have hpends := (hi.tally.held m _ h).1
  unfold LastPost
  omega

theorem CountInv.tally_last (hi : CountInv s V) (h : Holds s.toMuxState m s.kernel.runTask)
    (hlast : (s.mux m).muxCount = 1) (hmux : s'.mux = Function.update s.mux m cb)
    (hnext : (cb.muxCount = 0 ∧ handedTo s.toMuxState s' m = none) ∨
      (Holds s' m w ∧ cb.muxCount = 1 ∧ handedTo s.toMuxState s' m = some w)) :
    Tally (s.note (.post m) s' .losOk) := by
  obtain ⟨hpends, hother⟩ := hi.tally.held m _ h
  -- the posts have caught up with the pends of the old owner
  have hbal : ∀ t, s.pends m t = bump s.posts m s.kernel.runTask m t := by
    intro t
    by_cases htr : t = s.kernel.runTask
    · rw [htr, bump_self, hpends, hlast]
    · rw [bump_of_task htr]
      exact hother t htr
  have helse : ∀ m' o, m' ≠ m → (Holds s' m' o ↔ Holds s.toMuxState m' o) := fun m' o hmm =>
    holds_update hmux hmm
  constructor
  · intro m' o ho
    show notePends s s' (.post m) .losOk m' o = bump s.posts m s.kernel.runTask m' o + (s'.mux m').muxCount ∧
      ∀ t, t ≠ o → notePends s s' (.post m) .losOk m' t = bump s.posts m s.kernel.runTask m' t
    by_cases hmm : m' = m
    · rw [hmm] at ho ⊢
      rcases hnext with ⟨hzero, _⟩ | ⟨hw, hone, hto⟩
      · exact absurd hzero ((holds_self hmux).mp ho).2.2.1
      · have hwo : w = o := Option.some.inj (hw.2.2.2.symm.trans ho.2.2.2)
        rw [notePends_some hto, hmux, Function.update_self, hone, ← hwo, bump_self, hbal]
        refine ⟨rfl, fun t ht => ?_⟩
        rw [bump_of_task ht]
        exact hbal t
    · obtain ⟨h1, h2⟩ := hi.tally.held m' o ((helse m' o hmm).mp ho)
      have hp : ∀ t, notePends s s' (.post m) .losOk m' t = s.pends m' t := by
        intro t
        rcases hnext with ⟨_, hto⟩ | ⟨_, _, hto⟩
        · rw [notePends_none hto]
        · rw [notePends_some hto, bump_of_mux hmm]
      rw [hp, bump_of_mux hmm, hmux, Function.update_of_ne hmm]
      refine ⟨h1, fun t ht => ?_⟩
      rw [hp, bump_of_mux hmm]
      exact h2 t ht
  · intro m' hno t
    show notePends s s' (.post m) .losOk m' t = bump s.posts m s.kernel.runTask m' t
    by_cases hmm : m' = m
    · rcases hnext with ⟨_, hto⟩ | ⟨hw, _, _⟩
      · rw [notePends_none hto, hmm]
        exact hbal t
      · rw [hmm] at hno
        exact absurd hw (hno w)
    · have hp : notePends s s' (.post m) .losOk m' t = s.pends m' t := by
        rcases hnext with ⟨_, hto⟩ | ⟨_, _, hto⟩
        · rw [notePends_none hto]
        · rw [notePends_some hto, bump_of_mux hmm]
      rw [hp, bump_of_mux hmm]
      exact hi.tally.rest m' (fun o ho => hno o ((helse m' o hmm).mpr ho)) t

theorem losMuxPost_count (hi : CountInv s V) (hstep : muxStep s.toMuxState (.post m) = some (s', r)) :
    (∃ V', CountInv (s.note (.post m) s' r) V') ∧ ∀ m' o, Holds s.toMuxState m' o →
      Holds s' m' o ∨ (m' = m ∧ o = s.kernel.runTask ∧ LastPost s m) := by
  simp only [muxStep] at hstep
  split at hstep
  swap
  · cases hstep
  next hfree =>
  have hcall := hfree
  simp only [MuxState.free, Bool.and_eq_true] at hcall
  obtain ⟨s1, V1, r1, heq, hi1, hout⟩ := losMuxPost_spec hi.mux hcall.1 m
  rw [heq, Option.some.injEq, Prod.mk.injEq] at hstep
  rw [← hstep.1, ← hstep.2]
  clear hstep heq
  cases hout with
  | refused h => exact ⟨⟨V, hi.refused rfl rfl rfl⟩, fun _ _ ho => .inl ho⟩
  | released held more =>
    have hh : Holds s.toMuxState m s.kernel.runTask := ⟨held.bound, held.stat, held.count, held.owner⟩
    have hcnt := held.count
    generalize hcb : ({ s.mux m with muxCount := (s.mux m).muxCount - 1 } : LosMuxCB) = cb at hi1 ⊢
    have hmux : (s.setMux m cb).mux = Function.update s.mux m cb := rfl
    have hcount : cb.muxCount + 1 = (s.mux m).muxCount := by
      rw [← hcb]
      show (s.mux m).muxCount - 1 + 1 = _
      omega
    have hsame : ∀ m' o, Holds (s.setMux m cb) m' o ↔ Holds s.toMuxState m' o := by
      intro m' o
      by_cases hmm : m' = m
      · rw [hmm, holds_self hmux]
        unfold Holds
        have hne : cb.muxCount ≠ 0 := by omega
        rw [← hcb] at hne ⊢
        exact ⟨fun h => ⟨h.1, h.2.1, hcnt, h.2.2.2⟩, fun h => ⟨h.1, h.2.1, hne, h.2.2.2⟩⟩
      · exact holds_update hmux hmm
    have hto : handedTo s.toMuxState (s.setMux m cb) m = none := by
      unfold handedTo
      rw [setMux_self, if_neg]
      rw [← hcb]
      exact fun h => h.2 held.owner
    clear hcb
    refine ⟨⟨V, hi.set hi1 rfl (by omega) (fun t ht => ?_) ⟨fun m' o ho => ?_, fun m' hno t => ?_⟩⟩,
      fun m' o ho => .inl ((hsame m' o).mpr ho)⟩
    · exact (hi.right t ht).same rfl rfl rfl (fun _ => Iff.rfl) fun m' => hsame m' t
    · have ho' := (hsame m' o).mp ho
      obtain ⟨h1, h2⟩ := hi.tally.held m' o ho'
      show notePends s (s.setMux m cb) (.post m) .losOk m' o =
        bump s.posts m s.kernel.runTask m' o + ((s.setMux m cb).mux m').muxCount ∧
        ∀ t, t ≠ o → notePends s (s.setMux m cb) (.post m) .losOk m' t =
          bump s.posts m s.kernel.runTask m' t
      rw [notePends_none hto]
      by_cases hmm : m' = m
      · rw [hmm] at ho' h1 h2 ⊢
        have hor := ho'.unique hh
        rw [hor] at h1 h2 ⊢
        rw [bump_self, setMux_self]
        refine ⟨by omega, fun t ht => ?_⟩
        rw [bump_of_task ht]
        exact h2 t ht
      · rw [bump_of_mux hmm, setMux_of_ne hmm]
        refine ⟨h1, fun t ht => ?_⟩
        rw [bump_of_mux hmm]
        exact h2 t ht
    · show notePends s (s.setMux m cb) (.post m) .losOk m' t = bump s.posts m s.kernel.runTask m' t
      have hmm : m' ≠ m := by
        rintro rfl
        exact hno _ ((hsame _ _).mpr hh)
      rw [notePends_none hto, bump_of_mux hmm]
      exact hi.tally.rest m' (fun o ho => hno o ((hsame m' o).mpr ho)) t
  | freed held last h =>
    have hh : Holds s.toMuxState m s.kernel.runTask := ⟨held.bound, held.stat, held.count, held.owner⟩
    have hnew : ∀ t, ¬ Holds s1 m t := fun t ht => ((holds_self h.mux).mp ht).2.2.1 rfl
    have hto : handedTo s.toMuxState s1 m = none := by
      unfold handedTo
      rw [h.mux, Function.update_self, if_neg]
      exact fun hx => hx.1 rfl
    refine ⟨⟨V1, hi1, fun t m' ht => ?_, fun t ht => ?_, ?_, ?_, fun m' hm hst hc => ?_⟩,
      fun m' o ho => ?_⟩
    · rw [note_toMuxState, h.pending] at ht
      exact hi.bound t m' ht
    · by_cases htr : t = s.kernel.runTask
      · rw [htr] at ht ⊢
        exact WaitRight.caller hi hfree (by rw [note_toMuxState, h.pending]) (h.tasks.timeout _ ht)
          fun w => h.place _ w
      · refine (hi.right t ht).same (by rw [note_toMuxState, h.pending]) (h.tasks.unused t ht)
          (h.tasks.timeout t ht) (fun w => h.place t w) fun m' => ?_
        by_cases hmm : m' = m
        · rw [hmm]
          exact iff_of_false (hnew t) fun ho => htr (ho.unique hh)
        · exact holds_update h.mux hmm
    · exact hi.tally_last (w := 0) hh last h.mux (.inl ⟨rfl, hto⟩)
    · exact hi.queued.shrink rfl (Nat.le_succ _) (fun w => by rw [h.content]) fun t w hw =>
        (h.place t w).mp hw
    · rw [note_toMuxState] at hst hc
      rw [h.content]
      by_cases hmm : m' = m
      · rw [hmm]
        exact h.empty
      · rw [h.mux, Function.update_of_ne hmm] at hst hc
        exact hi.empty m' hm hst hc
    · by_cases hmm : m' = m
      · rw [hmm] at ho
        exact .inr ⟨hmm, ho.unique hh, (hi.lastPost_iff hh).mpr last⟩
      · exact .inl ((holds_update h.mux hmm).mpr ho)
  | @handed s1 V1 w held last h =>
    have hh : Holds s.toMuxState m s.kernel.runTask := ⟨held.bound, held.stat, held.count, held.owner⟩
    have hnew : ∀ t, Holds s1 m t ↔ t = w := by
      intro t
      rw [holds_self h.mux]
      exact ⟨fun hx => (Option.some.inj hx.2.2.2).symm,
        fun hx => ⟨held.bound, held.stat, Nat.one_ne_zero, by rw [hx]⟩⟩
    have hto : handedTo s.toMuxState s1 m = some w := by
      unfold handedTo
      rw [h.mux, Function.update_self, if_pos]
      exact ⟨Nat.one_ne_zero, fun hx => h.other (Option.some.inj hx)⟩
    refine ⟨⟨V1, hi1, fun t m' ht => ?_, fun t ht => ?_, ?_, ?_, fun m' hm hst hc => ?_⟩,
      fun m' o ho => ?_⟩
    · rw [note_toMuxState, h.pending] at ht
      exact hi.bound t m' ht
    · by_cases htr : t = s.kernel.runTask
      · rw [htr] at ht ⊢
        exact WaitRight.caller hi hfree (by rw [note_toMuxState, h.pending]) (h.tasks.timeout _ ht)
          fun l => (h.place _ l).trans (and_iff_left h.other.symm)
      · by_cases htw : t = w
        · -- the new owner has not run yet
          rw [htw] at ht ⊢
          obtain ⟨m', _, hmm, hp⟩ := hi.mux.waits w _ h.waited
          have hmm' : m = m' := by simpa using hmm
          rw [← hmm'] at hp
          have hp' : s1.pending w = some m := by rw [h.pending, hp]
          refine ⟨fun _ _ => ?_, fun m₁ hm₁ => ?_, fun m₁ hm₁ _ => .inr ⟨?_, ?_⟩, fun hn => ?_⟩
          · exact (h.tasks.unused w ht).trans ((hi.right w ht).live m hp)
          · exact absurd rfl ((h.place w _).mp hm₁).2
          · exact (h.tasks.timeout w ht).trans ((hi.right w ht).waiting m h.waited).1
          · have he : m = m₁ := Option.some.inj (hp'.symm.trans hm₁)
            rw [← he]
            exact (hnew w).mpr rfl
          · rw [note_toMuxState, hp'] at hn
            cases hn
        · refine (hi.right t ht).same (by rw [note_toMuxState, h.pending]) (h.tasks.unused t ht)
            (h.tasks.timeout t ht) (fun l => (h.place t l).trans (and_iff_left htw)) fun m' => ?_
          by_cases hmm : m' = m
          · rw [hmm]
            exact iff_of_false (fun ho => htw ((hnew t).mp ho)) fun ho => htr (ho.unique hh)
          · exact holds_update h.mux hmm
    · exact hi.tally_last (w := w) hh last h.mux (.inr ⟨(hnew w).mpr rfl, rfl, hto⟩)
    · exact hi.queued.shrink rfl (Nat.le_succ _) (fun l => by rw [h.content]; exact List.erase_sublist)
        fun t l hl => ((h.place t l).mp hl).1
    · rw [note_toMuxState] at hst hc
      by_cases hmm : m' = m
      · rw [h.mux, hmm, Function.update_self] at hc
        exact absurd hc Nat.one_ne_zero
      · rw [h.mux, Function.update_of_ne hmm] at hst hc
        rw [h.content, hi.empty m' hm hst hc]
        rfl
    · by_cases hmm : m' = m
      · rw [hmm] at ho
        exact .inr ⟨hmm, ho.unique hh, (hi.lastPost_iff hh).mpr last⟩
      · exact .inl ((holds_update h.mux hmm).mpr ho)

theorem muxStep_count (hi : CountInv s V)
    (hsh : ∀ m timeout, event = .pend m timeout → Shallow s.toMuxState event)
    (hstep : muxStep s.toMuxState event = some (s', r)) :
    (∃ V', CountInv (s.note event s' r) V') ∧ ∀ m o, Holds s.toMuxState m o →
      Holds s' m o ∨ (event = .post m ∧ o = s.kernel.runTask ∧ LastPost s m) := by
  cases event with
  | create muxHandle =>
    obtain ⟨h1, h2⟩ := losMuxCreate_count hi muxHandle hstep
    exact ⟨h1, fun m o ho => .inl (h2 m o ho)⟩
  | delete m₀ =>
    obtain ⟨h1, h2⟩ := losMuxDelete_count hi m₀ hstep
    exact ⟨h1, fun m o ho => .inl (h2 m o ho)⟩
  | pend m₀ timeout =>
    obtain ⟨h1, h2⟩ := losMuxPend_count hi (hsh _ _ rfl) hstep
    exact ⟨h1, fun m o ho => .inl (h2 m o ho)⟩
  | resume =>
    obtain ⟨h1, h2⟩ := losMuxPendResume_count hi hstep
    exact ⟨⟨V, h1⟩, fun m o ho => .inl (h2 m o ho)⟩
  | post m₀ =>
    obtain ⟨h1, h2⟩ := losMuxPost_count hi hstep
    refine ⟨h1, fun m o ho => ?_⟩
    rcases h2 m o ho with h | ⟨rfl, h⟩
    · exact .inl h
    · exact .inr ⟨rfl, h⟩
  | kernel e =>
    simp only [muxStep] at hstep
    split at hstep
    · cases hstep
    · simp only [Option.map_eq_some_iff, Prod.mk.injEq] at hstep
      obtain ⟨k, heq, hs, hr⟩ := hstep
      rw [← hs]
      exact ⟨CountInv.settle hi heq, fun m o ho => .inl ho⟩

theorem CountInv.posted (hi : CountInv s V) (hstep : muxStep s.toMuxState (.post m) = some (s', .losOk)) :
    Holds s.toMuxState m s.kernel.runTask ∧ ∃ V', MuxPosted s.toMuxState V m s' V' .losOk := by
  simp only [muxStep] at hstep
  split at hstep
  · next hfree =>
    simp only [MuxState.free, Bool.and_eq_true] at hfree
    obtain ⟨s1, V1, r1, heq, _, hout⟩ := losMuxPost_spec hi.mux hfree.1 m
    rw [heq, Option.some.injEq, Prod.mk.injEq] at hstep
    rw [hstep.1, hstep.2] at hout
    have hheld : MuxHeld s.toMuxState m := by
      cases hout with
      | released held => exact held
      | freed held => exact held
      | handed held => exact held
    exact ⟨⟨hheld.bound, hheld.stat, hheld.count, hheld.owner⟩, V1, hout⟩
  · cases hstep

theorem CountInv.longest (hi : CountInv s V) (hm : m < Config.muxLimit) (hst : (s.mux m).muxStat = true)
    (hfirst : ∃ l, V.content (.wait (.muxList m)) = .pendList w :: l) : LongestWaiting s m w := by
  obtain ⟨l, hl⟩ := hfirst
  have hf := hi.mux.machine.inv.core.ready.forest
  have hmem : ∀ t, BlockedOn s.toMuxState m t ↔ .pendList t ∈ V.content (.wait (.muxList m)) := fun t =>
    (hi.blocked_iff hm hst).trans (hf.mem _ _).symm
  have horder := hi.queued.order m
  rw [hl] at horder
  refine ⟨(hmem w).mpr (by rw [hl]; exact List.mem_cons_self), fun t ht hne => ?_⟩
  have ht' := (hmem t).mp ht
  rw [hl, List.mem_cons] at ht'
  rcases ht' with h | h
  · injection h with h
    exact absurd h hne
  · exact (List.pairwise_cons.mp horder).1 _ h w t rfl rfl

theorem CountInv.off_list (hi : CountInv s V) (hpend : s.pending t = some m)
    (htime : (s.kernel.status t).timeout = true) : ∀ l, V.role (.pendList t) ≠ .member (.wait l) := by
  intro l hl
  obtain ⟨m', _, rfl, _⟩ := hi.mux.waits t l hl
  have h := ((hi.right t (hi.bound t m hpend)).waiting m' hl).1
  rw [show (s.kernel.gTaskCBArray t).taskStatus.timeout = true from htime] at h
  cases h

theorem CountInv.safe (hi : CountInv s V) : MutexSafe s := by
  have hf := hi.mux.machine.inv.core.ready.forest
  constructor
  case held => exact hi.tally.held
  case owned =>
    intro m hm hst hc
    obtain ⟨o, _, ho⟩ := hi.mux.owner m hm hst hc
    exact ⟨o, hm, hst, hc, ho⟩
  case free =>
    intro m hm hst hc
    refine ⟨hi.tally.rest m fun o ho => ho.2.2.1 hc, ?_⟩
    exact (hf.listEmpty_iff (hi.mux.used m hm hst)).mpr (hi.empty m hm hst hc)
  case refused =>
    intro m s' hno hstep
    exact hno (hi.posted hstep).1
  case kept =>
    intro m s' hstep hmore
    obtain ⟨hh, V', hout⟩ := hi.posted hstep
    rw [hi.lastPost_iff hh] at hmore
    cases hout with
    | released held more =>
      have hcount := held.count
      rw [setMux_self]
      refine ⟨⟨held.bound, ?_, ?_, ?_⟩, ?_⟩
      · rw [setMux_self]
        exact held.stat
      · rw [setMux_self]
        show (s.mux m).muxCount - 1 ≠ 0
        omega
      · rw [setMux_self]
        exact held.owner
      · show (s.mux m).muxCount = (s.mux m).muxCount - 1 + 1
        omega
    | freed _ last => exact absurd last hmore
    | handed _ last => exact absurd last hmore
  case passed =>
    intro m s' hstep hlast
    obtain ⟨hh, V', hout⟩ := hi.posted hstep
    rw [hi.lastPost_iff hh] at hlast
    cases hout with
    | released _ more => exact absurd hlast more
    | freed held _ h =>
      left
      refine ⟨by rw [h.mux, Function.update_self], fun t ht => ?_⟩
      have hmem := (hf.mem _ _).mpr ((hi.blocked_iff held.bound held.stat).mp ht)
      rw [h.empty] at hmem
      cases hmem
    | handed held _ h =>
      refine .inr ⟨_, hi.longest held.bound held.stat h.first, ?_, ?_⟩
      · rw [holds_self h.mux]
        exact ⟨held.bound, held.stat, Nat.one_ne_zero, rfl⟩
      · rw [h.mux, Function.update_self]
  case stays =>
    intro m o event s' r ho hsh hstep
    exact (muxStep_count hi (fun _ _ _ => hsh) hstep).2 m o ho
  case timedOut =>
    intro m t hpend htime
    have hoff := hi.off_list hpend htime
    refine ⟨fun hh => ?_, fun m' hm hst hb => hoff _ ((hi.blocked_iff hm hst).mp hb)⟩
    rcases (hi.right t (hi.bound t m hpend)).woken m hpend hoff with h | h
    · exact h.2 hh
    · rw [show (s.kernel.gTaskCBArray t).taskStatus.timeout = true from htime] at h
      cases h.1
  case returns =>
    intro m s' r hpend hstep
    simp only [muxStep] at hstep
    split at hstep
    · next hc =>
      have hcaller := hi.mux.machine.calling_caller hc.1
      have hright := (hi.right _ hcaller.bound).woken m hpend
        (hi.mux.machine.caller_gone hc.1)
      rw [Option.some.injEq] at hstep
      unfold losMuxPendResume at hstep
      dsimp only at hstep
      unfold KernelState.status at hstep
      rcases hright with ⟨ht, hno⟩ | ⟨ht, hh⟩
      · rw [if_pos ht] at hstep
        exact .inr ⟨(Prod.mk.inj hstep).2.symm, hno⟩
      · rw [if_neg (by rw [ht]; exact Bool.false_ne_true)] at hstep
        exact .inl ⟨(Prod.mk.inj hstep).2.symm, hh⟩
    · cases hstep
  case delete =>
    intro m hm hst hbusy
    unfold losMuxDelete
    rw [if_neg (by omega), if_neg (by simp [hst]), if_pos]
    rcases hbusy with hc | ⟨t, ht⟩
    · simp [hc]
    · have hne : losListEmpty s.kernel (.wait (.muxList m)) = false := by
        cases he : losListEmpty s.kernel (.wait (.muxList m)) with
        | false => rfl
        | true =>
          have hnil := (hf.listEmpty_iff (hi.mux.used m hm hst)).mp he
          have hmem := (hf.mem _ _).mpr ((hi.blocked_iff hm hst).mp ht)
          rw [hnil] at hmem
          cases hmem
      simp [hne]

def CountBooted (s : CountedState) : Prop :=
  MuxBooted s.toMuxState ∧ ∀ m t, s.pends m t = s.posts m t

theorem countBooted_inv {s₀ : CountedState} (hmax : gTaskMaxNum ≤ osInvalid) (hb : CountBooted s₀) :
    ∃ V, CountInv s₀ V := by
  obtain ⟨V, hi, hwait, hstat, hpend, htime⟩ := muxBooted_inv hmax hb.1
  have hno : ∀ m t, ¬ Holds s₀.toMuxState m t := by
    intro m t h
    cases (hstat m h.1).symm.trans h.2.1
  refine ⟨V, hi, fun t m h => ?_, fun t ht => WaitRight.idle (hpend t) (htime t ht) (hwait t),
    ⟨fun m o ho => absurd ho (hno m o), fun m _ => hb.2 m⟩,
    ⟨fun m => ?_, fun t w h => absurd h (hwait t w)⟩, fun m hm hst _ => ?_⟩
  · rw [hpend] at h
    cases h
  · have hnil : V.content (.wait (.muxList m)) = [] := by
      rw [List.eq_nil_iff_forall_not_mem]
      intro x hx
      obtain ⟨t, _, rfl⟩ := hi.machine.inv.core.mem_pendList hx (.inr (.inr (.inr ⟨_, rfl⟩)))
      exact hwait t _ ((hi.machine.inv.core.ready.forest.mem _ _).mp hx)
    rw [hnil]
    exact List.Pairwise.nil
  · rw [hstat m hm] at hst
    cases hst

theorem muxRun_inv {s₀ : CountedState} {events : List MuxEvent} (hmax : gTaskMaxNum ≤ osInvalid)
    (hb : CountBooted s₀)
    (hrun : Run (fun s event s' => countedStep s event = some s' ∧ DepthKept s.toMuxState event) s₀ events s) :
    ∃ V, CountInv s V := by
  refine run_invariant (fun s => ∃ V, CountInv s V) ?_ hrun (countBooted_inv hmax hb)
  rintro s event s₁ ⟨V, hi⟩ ⟨hstep, hdepth⟩
  unfold countedStep at hstep
  rw [Option.map_eq_some_iff] at hstep
  obtain ⟨⟨s', r⟩, hmux, rfl⟩ := hstep
  refine (muxStep_count hi (fun m timeout he => ?_) hmux).1
  rw [he] at hdepth ⊢
  exact hdepth

/-- A mutex excludes, and counts right, in every run without a deletion of a task. -/
theorem losMux_safe {s₀ : CountedState} {events : List MuxEvent} (hmax : gTaskMaxNum ≤ osInvalid)
    (hb : CountBooted s₀)
    (hrun : Run (fun s event s' => countedStep s event = some s' ∧ Shallow s.toMuxState event) s₀
      events s) : MutexSafe s := by
  have hdepth : Run (fun s event s' => countedStep s event = some s' ∧ DepthKept s.toMuxState event) s₀ events s := by
    refine run_mono (fun s event s' h => ⟨h.1, ?_⟩) hrun
    have hsh := h.2
    cases event with
    | pend m timeout => exact hsh
    | create | delete | resume | post | kernel => trivial
  obtain ⟨V, hi⟩ := muxRun_inv hmax hb hdepth
  exact hi.safe

end

def smallCounted : CountedState := ⟨smallMux, fun _ _ => 0, fun _ _ => 0, 0, fun _ => 0⟩

instance instDecidableShallow (s : MuxState) : (event : MuxEvent) → Decidable (Shallow s event)
  | .kernel (.delete _) => isFalse id
  | .pend m _ => inferInstanceAs (Decidable ((s.mux m).owner = some s.kernel.runTask → (s.mux m).muxCount < 65535))
  | .kernel (.create ..) | .kernel (.createOnly ..) | .kernel (.suspend _) | .kernel (.resume _)
  | .kernel (.priSet ..) | .kernel .yield | .kernel (.delay _) | .kernel .lock | .kernel .unlock
  | .kernel .schedule | .kernel .start | .kernel (.tick _) | .kernel .pendSV | .kernel (.elapse _)
  | .create _ | .delete _ | .resume | .post _ => isTrue trivial

/-- The task of priority 10 takes the mutex twice. The one of priority 5 waits for it, first until its time is over
and then until the second post hands it over, and the task of priority 10 finds it taken. -/
def contendedEvents : List MuxEvent :=
  [.create true, .kernel (smallTask 10), .kernel .start, .pend 0 0, .pend 0 0, .kernel (smallTask 5),
    .kernel .pendSV, .pend 0 1, .kernel .pendSV, .kernel (.elapse 10), .kernel (.tick true), .kernel .pendSV, .resume,
    .pend 0 losWaitForever, .kernel .pendSV, .post 0, .post 0, .kernel .pendSV, .resume]

omit [Config] in
/-- After the time-out, after the first post and after the handoff. -/
theorem losMux_safe_small :
    letI := smallConfig
    CountBooted smallCounted ∧
      ∀ x ∈ [(13, 1, 2, 0, 0), (16, 1, 2, 1, 0), (19, 2, 2, 2, 1)], ∃ s,
        Run (fun s event s' => countedStep s event = some s' ∧ Shallow s.toMuxState event) smallCounted
          (contendedEvents.take x.1) s ∧
        (s.mux 0).owner = some x.2.1 ∧ s.pends 0 1 = x.2.2.1 ∧ s.posts 0 1 = x.2.2.2.1 ∧ s.pends 0 2 = x.2.2.2.2 ∧
        MutexSafe s := by
  let := smallConfig
  have hb : CountBooted smallCounted := ⟨smallMux_booted, fun _ _ => rfl⟩
  refine ⟨hb, fun x hx => ?_⟩
  have hrun : ((contendedEvents.take x.1).foldlM
      (guarded (fun s => Shallow s.toMuxState) countedStep) smallCounted).map (fun s =>
        ((s.mux 0).owner, s.pends 0 1, s.posts 0 1, s.pends 0 2)) =
      some (some x.2.1, x.2.2.1, x.2.2.2.1, x.2.2.2.2) := by
    simp only [List.mem_cons, List.not_mem_nil, or_false] at hx
    rcases hx with rfl | rfl | rfl
    · decide +kernel
    · decide +kernel
    · decide +kernel
  obtain ⟨s, hs, hval⟩ := Option.map_eq_some_iff.mp hrun
  simp only [Prod.mk.injEq] at hval
  obtain ⟨howner, hpends, hposts, hother⟩ := hval
  have hsteps := run_of_guarded hs
  exact ⟨s, hsteps, howner, hpends, hposts, hother, losMux_safe (by decide) hb hsteps⟩

end LiteosM.Ipc
