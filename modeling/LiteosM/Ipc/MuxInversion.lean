import LiteosM.Ipc.MuxPriority

/-!
# Priority inversion

A waiter lends its priority to the owner when it blocks, and to nobody later. So an owner
is as urgent as its waiters in the runs in which nothing moves a mutex or takes a priority
away while somebody waits.
-/

namespace LiteosM.Ipc

open LiteosM.Kernel LiteosM.Lib.DlList LiteosM.Lib.Transition

variable [Config]

def BlockedOn (s : MuxState) (m t : Nat) : Prop :=
  OnList s.kernel.links (.wait (.muxList m)) (.pendList t)

/-- The owner of every held mutex is at least as urgent as every task blocked on it. -/
def NoInversion (s : MuxState) : Prop :=
  ∀ m o t, Holds s m o → BlockedOn s m t →
    (s.kernel.gTaskCBArray o).priority ≤ (s.kernel.gTaskCBArray t).priority

def MuxState.prio (s : MuxState) (t : Nat) : Nat := (s.kernel.gTaskCBArray t).priority

/-- A boosted owner waits at most for owners that are as urgent; a mutex that is given up is the
only one with more urgent waiters, and its first waiter is the most urgent one. A pend blocks only with a timeout and
while the scheduler is not locked. -/
def KeepsOrder (s : MuxState) : MuxEvent → Prop
  | .pend m timeout => timeout ≠ 0 → s.kernel.gLosTaskLock = 0 → ∀ o m' o', Holds s m o →
    o ≠ s.kernel.runTask → s.prio s.kernel.runTask < s.prio o → BlockedOn s m' o → Holds s m' o' →
      s.prio o' ≤ s.prio s.kernel.runTask
  | .post m => Holds s m s.kernel.runTask → (s.mux m).muxCount = 1 →
    (∀ m' t, m' ≠ m → Holds s m' s.kernel.runTask → BlockedOn s m' t → (s.mux m).priority ≤ s.prio t) ∧
    ∀ w t, s.kernel.links.next (.wait (.muxList m)) = .pendList w → BlockedOn s m t →
      s.prio w ≤ s.prio t
  | _ => True

structure OrderInv (s : MuxState) (V : View Node) : Prop where
  mux : MuxInv s V
  /-- Nobody waits for a free mutex. -/
  idle : ∀ m < Config.muxLimit, (s.mux m).muxStat = true → (s.mux m).muxCount = 0 →
    ∀ t, V.role (.pendList t) ≠ .member (.wait (.muxList m))
  live : ∀ m t, Holds s m t → (s.kernel.gTaskCBArray t).taskStatus.unused = false
  order : ∀ m o t, Holds s m o → V.role (.pendList t) = .member (.wait (.muxList m)) →
    s.prio o ≤ s.prio t

section

variable {s s' : MuxState} {V V' : View Node} {event : MuxEvent} {t m : Nat} {k : KernelState}

theorem OrderInv.blocked_iff (hi : OrderInv s V) (hm : m < Config.muxLimit)
    (hst : (s.mux m).muxStat = true) :
    BlockedOn s m t ↔ V.role (.pendList t) = .member (.wait (.muxList m)) := by
  have hf := hi.mux.machine.inv.core.ready.forest
  have hh := hi.mux.used m hm hst
  constructor
  · exact fun h => (hf.mem _ _).mp (h.mem_content hf hh)
  · exact onList_of_content hf hh

theorem OrderInv.noInversion (hi : OrderInv s V) : NoInversion s :=
  fun m o t ho ht => hi.order m o t ho ((hi.blocked_iff ho.1 ho.2.1).mp ht)

omit [Config] in
theorem role_muxList_inj {m' : Nat} (h : V.role (.pendList t) = .member (.wait (.muxList m)))
    (h' : V.role (.pendList t) = .member (.wait (.muxList m'))) : m = m' := by
  rw [h] at h'
  injection h' with h'
  injection h' with h'
  injection h'

theorem Holds.bound (hi : MuxInv s V) (h : Holds s m t) : t < gTaskMaxNum := by
  obtain ⟨u, hu, hou⟩ := hi.owner m h.1 h.2.1 h.2.2.1
  have htu : t = u := Option.some.inj (h.2.2.2.symm.trans hou)
  rw [htu]
  exact hu

theorem waiter_bound (hi : MuxInv s V) {w : WaitList} (h : V.role (.pendList t) = .member (.wait w)) :
    t < gTaskMaxNum :=
  (hi.machine.inv.core.fits _ _ h).1

theorem OrderInv.of_same (hi : OrderInv s V) (hi' : MuxInv s' V')
    (hmux : ∀ m t, Holds s' m t → (s.mux m).muxCount = 0 ∨ Holds s m t)
    (hidle : ∀ m < Config.muxLimit, (s'.mux m).muxStat = true → (s'.mux m).muxCount = 0 →
      (s.mux m).muxStat = false ∨ ((s.mux m).muxStat = true ∧ (s.mux m).muxCount = 0))
    (hstat : ∀ m t, Holds s' m t → (s.mux m).muxStat = true)
    (hplace : ∀ t w, V'.role (.pendList t) = .member (.wait w) → V.role (.pendList t) = .member (.wait w))
    (hlive : ∀ m t, Holds s' m t → (s'.kernel.gTaskCBArray t).taskStatus.unused = false)
    (hprio : ∀ m t, Holds s m t ∨ V'.role (.pendList t) = .member (.wait (.muxList m)) →
      s'.prio t = s.prio t) : OrderInv s' V' := by
  refine ⟨hi', fun m hm h1 h2 t ht => ?_, hlive, fun m o t ho ht => ?_⟩
  · rcases hidle m hm h1 h2 with h | ⟨h, h'⟩
    · -- an unused mutex heads no list
      have hrole := (hi.mux.unused (.wait (.muxList m))).mpr ⟨m, hm, rfl, h⟩
      have hown := hi.mux.machine.inv.core.ready.forest.owner _ _ (hplace t _ ht)
      rw [hrole] at hown
      cases hown
    · exact hi.idle m hm h h' t (hplace t _ ht)
  · rcases hmux m o ho with h | h
    · exact absurd (hplace t _ ht) (hi.idle m ho.1 (hstat m o ho) h t)
    · rw [hprio m o (.inl h), hprio m t (.inr ht)]
      exact hi.order m o t h (hplace t _ ht)

omit [Config] in
theorem osMuxValidCheck_unlocked (h : osMuxValidCheck s false m = .losOk) : s.kernel.gLosTaskLock = 0 := by
  unfold osMuxValidCheck at h
  split at h
  · cases h
  · rw [if_neg Bool.false_ne_true] at h
    split at h
    · cases h
    · next hlock => exact Decidable.not_not.mp hlock

theorem losMuxPend_blocked {timeout : Nat} (h : losMuxPend s false m timeout = some (s', .blocked)) :
    timeout ≠ 0 ∧ s.kernel.gLosTaskLock = 0 := by
  unfold losMuxPend at h
  split at h
  · cases h
  dsimp only at h
  split at h
  · next herr =>
    have hret := (Prod.mk.inj (Option.some.inj h)).2
    unfold osMuxValidCheck at hret
    repeat' split at hret
    all_goals cases hret
  · next hok =>
    have hlock := osMuxValidCheck_unlocked (Decidable.not_not.mp hok)
    split at h
    · cases h
    split at h
    · cases h
    split at h
    · cases h
    · next htime => exact ⟨htime, hlock⟩

theorem losMuxPend_order (hi : OrderInv s V) (hcall : s.kernel.calling) (m timeout : Nat)
    (hord : Ordinary s (.pend m timeout)) (hkeep : KeepsOrder s (.pend m timeout)) :
    ∃ s' V' r, losMuxPend s false m timeout = some (s', r) ∧ OrderInv s' V' := by
  have hcaller := hi.mux.machine.calling_caller hcall
  obtain ⟨s1, V1, r, heq, hi1, hout⟩ := losMuxPend_spec hi.mux hcall m timeout
  refine ⟨s1, V1, r, heq, ?_⟩
  cases hout with
  | refused => exact hi
  | acquired bound stat count =>
    refine hi.of_same hi1 (fun m' t h => ?_) (fun m' hm' h1 h2 => ?_) (fun m' t h => ?_)
      (fun _ _ => id) (fun m' t h => ?_) fun _ _ _ => rfl
    · by_cases hmm : m' = m
      · rw [hmm]
        exact .inl count
      · exact .inr ((holds_setMux hmm).mp h)
    · by_cases hmm : m' = m
      · rw [hmm, setMux_self] at h2
        cases h2
      · rw [setMux_of_ne hmm] at h1 h2
        exact .inr ⟨h1, h2⟩
    · by_cases hmm : m' = m
      · rw [hmm]
        exact stat
      · exact ((holds_setMux hmm).mp h).2.1
    · by_cases hmm : m' = m
      · rw [hmm] at h
        have ho := h.2.2.2
        rw [setMux_self] at ho
        rw [← Option.some.inj ho]
        exact hcaller.clean.unused
      · exact hi.live m' t ((holds_setMux hmm).mp h)
  | again bound stat count owner =>
    have hback : ∀ m' t, Holds (s.setMux m { s.mux m with
        muxCount := ((s.mux m).muxCount + 1) % 2 ^ 16 }) m' t → Holds s m' t := by
      intro m' t h
      by_cases hmm : m' = m
      · rw [hmm] at h ⊢
        have ho := h.2.2.2
        rw [setMux_self] at ho
        exact ⟨bound, stat, count, ho⟩
      · exact (holds_setMux hmm).mp h
    refine hi.of_same hi1 (fun m' t h => .inr (hback m' t h)) (fun m' hm' h1 h2 => ?_)
      (fun m' t h => (hback m' t h).2.1) (fun _ _ => id) (fun m' t h => hi.live m' t (hback m' t h))
      fun _ _ _ => rfl
    by_cases hmm : m' = m
    · rw [hmm, setMux_self] at h2
      change ((s.mux m).muxCount + 1) % 2 ^ 16 = 0 at h2
      rw [Nat.mod_eq_of_lt (hord owner)] at h2
      cases h2
    · rw [setMux_of_ne hmm] at h1 h2
      exact .inr ⟨h1, h2⟩
  | blocked h =>
    rename_i o
    obtain ⟨htime, hlock⟩ := losMuxPend_blocked heq
    have hown : Holds s m o := ⟨h.bound, h.stat, h.count, h.owner⟩
    have hob := Holds.bound hi.mux hown
    have hholds : ∀ m' t, Holds s1 m' t ↔ Holds s m' t := fun m' t => by
      unfold Holds
      rw [h.mux]
    have hprio : ∀ u < gTaskMaxNum, s1.prio u = if u = o ∧ s.prio s.kernel.runTask < s.prio o then
        s.prio s.kernel.runTask else s.prio u := h.tasks.priority
    have hle : ∀ u < gTaskMaxNum, s1.prio u ≤ s.prio u := by
      intro u hu
      rw [hprio u hu]
      split
      · next hc =>
        rw [hc.1]
        exact Nat.le_of_lt hc.2
      · exact Nat.le_refl _
    refine ⟨hi1, fun m' hm' h1 h2 t ht => ?_, fun m' t ht => ?_, fun m' o' t ho' ht => ?_⟩
    · rw [h.mux] at h1 h2
      by_cases htr : t = s.kernel.runTask
      · rw [htr] at ht
        have hmm := role_muxList_inj h.joined ht
        rw [← hmm] at h2
        exact h.count h2
      · exact hi.idle m' hm' h1 h2 t ((h.place t _ htr).mp ht)
    · have ht' := (hholds m' t).mp ht
      rw [h.tasks.unused t (Holds.bound hi.mux ht')]
      exact hi.live m' t ht'
    · have ho := (hholds m' o').mp ho'
      have hob' := Holds.bound hi.mux ho
      by_cases htr : t = s.kernel.runTask
      · -- the caller has just lent its priority
        rw [htr] at ht ⊢
        have hmm := role_muxList_inj h.joined ht
        rw [← hmm] at ho
        have hoo : o' = o := Option.some.inj (ho.2.2.2.symm.trans h.owner)
        rw [hprio _ hcaller.bound, if_neg fun hc => h.other hc.1.symm, hoo, hprio o hob]
        split
        · exact Nat.le_refl _
        · next hc => exact Nat.le_of_not_lt fun hlt => hc ⟨rfl, hlt⟩
      · have ht0 := (h.place t _ htr).mp ht
        have htb := waiter_bound hi.mux ht0
        rw [hprio t htb]
        split
        · next hc =>
          -- the boosted owner waits itself
          rw [hc.1] at ht0
          have hbl := (hi.blocked_iff ho.1 ho.2.1).mpr ht0
          exact (hle o' hob').trans (hkeep htime hlock o m' o' hown h.other hc.2 hbl ho)
        · exact (hle o' hob').trans (hi.order m' o' t ho ht0)

theorem losMuxPost_order (hi : OrderInv s V) (hcall : s.kernel.calling) (m : Nat)
    (hkeep : KeepsOrder s (.post m)) :
    ∃ s' V' r, losMuxPost s m = some (s', r) ∧ OrderInv s' V' := by
  have hcaller := hi.mux.machine.calling_caller hcall
  obtain ⟨s1, V1, r, heq, hi1, hout⟩ := losMuxPost_spec hi.mux hcall m
  refine ⟨s1, V1, r, heq, ?_⟩
  cases hout with
  | refused => exact hi
  | released held more =>
    have hback : ∀ m' t, Holds (s.setMux m { s.mux m with
        muxCount := (s.mux m).muxCount - 1 }) m' t → Holds s m' t := by
      intro m' t h
      by_cases hmm : m' = m
      · rw [hmm] at h ⊢
        have ho := h.2.2.2
        rw [setMux_self] at ho
        exact ⟨held.bound, held.stat, held.count, ho⟩
      · exact (holds_setMux hmm).mp h
    refine hi.of_same hi1 (fun m' t h => .inr (hback m' t h)) (fun m' hm' h1 h2 => ?_)
      (fun m' t h => (hback m' t h).2.1) (fun _ _ => id) (fun m' t h => hi.live m' t (hback m' t h))
      fun _ _ _ => rfl
    by_cases hmm : m' = m
    · rw [hmm, setMux_self] at h2
      change (s.mux m).muxCount - 1 = 0 at h2
      have hc := held.count
      omega
    · rw [setMux_of_ne hmm] at h1 h2
      exact .inr ⟨h1, h2⟩
  | freed held last h =>
    have hown : Holds s m s.kernel.runTask := ⟨held.bound, held.stat, held.count, held.owner⟩
    obtain ⟨hothers, _⟩ := hkeep hown last
    have hback : ∀ m' t, Holds s1 m' t → m' ≠ m ∧ Holds s m' t := by
      intro m' t ht
      unfold Holds at ht ⊢
      rw [h.mux] at ht
      by_cases hmm : m' = m
      · rw [hmm, Function.update_self] at ht
        exact absurd rfl ht.2.2.1
      · rw [Function.update_of_ne hmm] at ht
        exact ⟨hmm, ht⟩
    refine ⟨hi1, fun m' hm' h1 h2 t ht => ?_, fun m' t ht => ?_, fun m' o t ho ht => ?_⟩
    · rw [h.mux] at h1 h2
      have ht0 := (h.place t _).mp ht
      by_cases hmm : m' = m
      · rw [hmm, ← hi.mux.machine.inv.core.ready.forest.mem, h.empty] at ht0
        cases ht0
      · rw [Function.update_of_ne hmm] at h1 h2
        exact hi.idle m' hm' h1 h2 t ht0
    · have ht' := (hback m' t ht).2
      rw [h.tasks.unused t (Holds.bound hi.mux ht')]
      exact hi.live m' t ht'
    · obtain ⟨hmm, ho0⟩ := hback m' o ho
      have ht0 := (h.place t _).mp ht
      have htr : t ≠ s.kernel.runTask := by
        rintro rfl
        exact hi.mux.machine.caller_gone hcall _ ht0
      have hpt : s1.prio t = s.prio t :=
        (h.tasks.priority t (waiter_bound hi.mux ht0)).trans (if_neg htr)
      have hpo : s1.prio o = if o = s.kernel.runTask then (s.mux m).priority else s.prio o :=
        h.tasks.priority o (Holds.bound hi.mux ho0)
      rw [hpt, hpo]
      split
      · next hor =>
        rw [hor] at ho0
        exact hothers m' t hmm ho0 ((hi.blocked_iff ho0.1 ho0.2.1).mpr ht0)
      · exact hi.order m' o t ho0 ht0
  | handed held last h =>
    rename_i w
    have hown : Holds s m s.kernel.runTask := ⟨held.bound, held.stat, held.count, held.owner⟩
    obtain ⟨hothers, hfirst⟩ := hkeep hown last
    have hf := hi.mux.machine.inv.core.ready.forest
    obtain ⟨l, hl⟩ := h.first
    have hnext : s.kernel.links.next (.wait (.muxList m)) = .pendList w :=
      hf.next_first (hi.mux.used m held.bound held.stat) hl
    have hback : ∀ m' t, Holds s1 m' t → (m' = m ∧ t = w) ∨ (m' ≠ m ∧ Holds s m' t) := by
      intro m' t ht
      unfold Holds at ht ⊢
      rw [h.mux] at ht
      by_cases hmm : m' = m
      · rw [hmm, Function.update_self] at ht
        exact .inl ⟨hmm, (Option.some.inj ht.2.2.2).symm⟩
      · rw [Function.update_of_ne hmm] at ht
        exact .inr ⟨hmm, ht⟩
    have hwlive := (hi.mux.machine.inv.task w h.bound).of_pend
      (hi.mux.machine.inv.pend_of_wait h.bound h.waited)
    have hpw : s1.prio w = s.prio w := (h.tasks.priority w h.bound).trans (if_neg h.other)
    refine ⟨hi1, fun m' hm' h1 h2 t ht => ?_, fun m' t ht => ?_, fun m' o t ho ht => ?_⟩
    · rw [h.mux] at h1 h2
      have ht0 := ((h.place t _).mp ht).1
      by_cases hmm : m' = m
      · rw [hmm, Function.update_self] at h2
        cases h2
      · rw [Function.update_of_ne hmm] at h1 h2
        exact hi.idle m' hm' h1 h2 t ht0
    · rcases hback m' t ht with ⟨_, htw⟩ | ⟨_, ht'⟩
      · rw [htw, h.tasks.unused w h.bound]
        exact hwlive.1
      · rw [h.tasks.unused t (Holds.bound hi.mux ht')]
        exact hi.live m' t ht'
    · have ht0 := ((h.place t _).mp ht).1
      have htr : t ≠ s.kernel.runTask := by
        rintro rfl
        exact hi.mux.machine.caller_gone hcall _ ht0
      have hpt : s1.prio t = s.prio t :=
        (h.tasks.priority t (waiter_bound hi.mux ht0)).trans (if_neg htr)
      rw [hpt]
      rcases hback m' o ho with ⟨hmm, how⟩ | ⟨hmm, ho0⟩
      · -- the new owner was the first in the list
        rw [hmm] at ht0
        rw [how, hpw]
        exact hfirst w t hnext ((hi.blocked_iff held.bound held.stat).mpr ht0)
      · have hpo : s1.prio o = if o = s.kernel.runTask then (s.mux m).priority else s.prio o :=
          h.tasks.priority o (Holds.bound hi.mux ho0)
        rw [hpo]
        split
        · next hor =>
          rw [hor] at ho0
          exact hothers m' t hmm ho0 ((hi.blocked_iff ho0.1 ho0.2.1).mpr ht0)
        · exact hi.order m' o t ho0 ht0

theorem muxStep_order {r : MuxErrno} (hi : OrderInv s V) (hord : Ordinary s event)
    (hkeep : KeepsOrder s event) (hstep : muxStep s event = some (s', r)) : ∃ V', OrderInv s' V' := by
  cases event with
  | create muxHandle =>
    obtain ⟨s1, V1, r1, o, heq, hi1, hrel, hout⟩ := losMuxCreate_spec hi.mux muxHandle
    simp only [muxStep, heq, Option.map_some, Option.some.injEq, Prod.mk.injEq] at hstep
    rw [← hstep.1]
    have hback : ∀ m t, Holds s1 m t → Holds s m t := by
      intro m t ht
      unfold Holds at ht ⊢
      rcases hout with ⟨hx, _⟩ | ⟨_, m', _, _, _, hx⟩
      · rw [hx] at ht
        exact ht
      · rw [hx] at ht
        by_cases hmm : m = m'
        · rw [hmm, Function.update_self] at ht
          exact absurd rfl ht.2.2.1
        · rw [Function.update_of_ne hmm] at ht
          exact ht
    refine ⟨V1, hi.of_same hi1 (fun m t h => .inr (hback m t h)) (fun m hm h1 h2 => ?_)
      (fun m t h => (hback m t h).2.1) (fun t w h => by rw [← hrel.place t]; exact h) (fun m t h => ?_)
      fun m t _ => ?_⟩
    · rcases hout with ⟨hx, _⟩ | ⟨_, m', _, _, hst, hx⟩
      · rw [hx] at h1 h2
        exact .inr ⟨h1, h2⟩
      · rw [hx] at h1 h2
        by_cases hmm : m = m'
        · rw [hmm]
          exact .inl hst
        · rw [Function.update_of_ne hmm] at h1 h2
          exact .inr ⟨h1, h2⟩
    · rw [hrel.task]
      exact hi.live m t (hback m t h)
    · unfold MuxState.prio
      rw [hrel.task]
  | delete m' =>
    obtain ⟨V1, hi1, hrel, hout⟩ := losMuxDelete_spec hi.mux m'
    simp only [muxStep, Option.some.injEq] at hstep
    rw [hstep] at hi1 hrel hout
    have hmux : ∀ m, (s'.mux m).muxStat = true → s'.mux m = s.mux m := by
      intro m h
      rcases hout with ⟨hx, _, _⟩ | ⟨_, _, _, _, _, hx⟩
      · change s' = s at hx
        rw [hx]
      · change s'.mux = _ at hx
        rw [hx] at h ⊢
        by_cases hmm : m = m'
        · rw [hmm, Function.update_self] at h
          cases h
        · rw [Function.update_of_ne hmm]
    have hback : ∀ m t, Holds s' m t → Holds s m t := by
      intro m t ht
      have hsame := hmux m ht.2.1
      unfold Holds at ht ⊢
      rw [hsame] at ht
      exact ht
    refine ⟨V1, hi.of_same hi1 (fun m t h => .inr (hback m t h)) (fun m hm h1 h2 => ?_)
      (fun m t h => (hback m t h).2.1) (fun t w h => by rw [← hrel.place t]; exact h) (fun m t h => ?_)
      fun m t _ => ?_⟩
    · have hsame := hmux m h1
      change (s'.mux m).muxStat = true at h1
      change (s'.mux m).muxCount = 0 at h2
      rw [hsame] at h1 h2
      exact .inr ⟨h1, h2⟩
    · have htask : s'.kernel.gTaskCBArray = s.kernel.gTaskCBArray := hrel.task
      rw [htask]
      exact hi.live m t (hback m t h)
    · have htask : s'.kernel.gTaskCBArray = s.kernel.gTaskCBArray := hrel.task
      unfold MuxState.prio
      rw [htask]
  | pend m timeout =>
    simp only [muxStep] at hstep
    split at hstep
    · next hfree =>
      simp only [MuxState.free, Bool.and_eq_true] at hfree
      obtain ⟨s1, V1, r1, heq, hi1⟩ := losMuxPend_order hi hfree.1 m timeout hord hkeep
      rw [heq, Option.some.injEq, Prod.mk.injEq] at hstep
      rw [← hstep.1]
      exact ⟨V1, hi1⟩
    · cases hstep
  | resume =>
    simp only [muxStep] at hstep
    split at hstep
    · next hc =>
      have hi1 := losMuxPendResume_inv hi.mux hc.1
      rw [Option.some.injEq] at hstep
      have hsame : s'.mux = s.mux ∧ ∀ u, (s'.kernel.gTaskCBArray u).priority =
          (s.kernel.gTaskCBArray u).priority ∧ (s'.kernel.gTaskCBArray u).taskStatus.unused =
          (s.kernel.gTaskCBArray u).taskStatus.unused := by
        rw [show s' = (losMuxPendResume s).1 by rw [hstep]]
        unfold losMuxPendResume
        dsimp only
        split
        · refine ⟨rfl, fun u => ?_⟩
          by_cases hu : u = s.kernel.runTask
          · rw [hu, modifyStatus_self]
            exact ⟨rfl, rfl⟩
          · rw [show (s.kernel.modifyStatus s.kernel.runTask fun s => { s with timeout := false }).gTaskCBArray
              u = s.kernel.gTaskCBArray u from Function.update_of_ne hu _ _]
            exact ⟨rfl, rfl⟩
        · exact ⟨rfl, fun _ => ⟨rfl, rfl⟩⟩
      rw [hstep] at hi1
      have hholds : ∀ m t, Holds s' m t → Holds s m t := by
        intro m t ht
        unfold Holds at ht ⊢
        rw [hsame.1] at ht
        exact ht
      refine ⟨V, hi.of_same hi1 (fun m t h => .inr (hholds m t h)) (fun m hm h1 h2 => ?_)
        (fun m t h => (hholds m t h).2.1) (fun _ _ => id) (fun m t h => ?_) fun m t _ => (hsame.2 t).1⟩
      · change (s'.mux m).muxStat = true at h1
        change (s'.mux m).muxCount = 0 at h2
        rw [hsame.1] at h1 h2
        exact .inr ⟨h1, h2⟩
      · exact (hsame.2 t).2.trans (hi.live m t (hholds m t h))
    · cases hstep
  | post m =>
    simp only [muxStep] at hstep
    split at hstep
    · next hfree =>
      simp only [MuxState.free, Bool.and_eq_true] at hfree
      obtain ⟨s1, V1, r1, heq, hi1⟩ := losMuxPost_order hi hfree.1 m hkeep
      rw [heq, Option.some.injEq, Prod.mk.injEq] at hstep
      rw [← hstep.1]
      exact ⟨V1, hi1⟩
    · cases hstep
  | kernel e =>
    simp only [muxStep] at hstep
    split at hstep
    · cases hstep
    · simp only [Option.map_eq_some_iff, Prod.mk.injEq] at hstep
      obtain ⟨k, heq, hs, _⟩ := hstep
      obtain ⟨V1, hi1, hq⟩ := hi.mux.settle heq
      rw [← hs]
      have hdel : ∀ u, e ≠ .delete u := by
        rintro u rfl
        exact hord
      have hset : ∀ u p, e ≠ .priSet u p := by
        rintro u p rfl
        exact hord
      have hplace : ∀ t w, V1.role (.pendList t) = .member (.wait w) →
          V.role (.pendList t) = .member (.wait w) := by
        intro t w h
        have hmem := (hi1.machine.inv.core.ready.forest.mem _ _).mpr h
        exact (hi.mux.machine.inv.core.ready.forest.mem _ _).mp ((hq.wait w).subset hmem)
      refine ⟨V1, hi.of_same hi1 (fun m t h => .inr h) (fun m hm h1 h2 => .inr ⟨h1, h2⟩)
        (fun m t h => h.2.1) hplace (fun m t h => ?_) fun m t h => ?_⟩
      · exact Quieted.live hq (fun u he => absurd he (hdel u)) (Holds.bound hi.mux h) (hi.live m t h)
      · rcases h with h | h
        · exact Quieted.priority hq hdel hset (Holds.bound hi.mux h) (hi.live m t h)
        · have hb := waiter_bound hi.mux (hplace t _ h)
          have hlive := ((hi.mux.machine.inv.task t hb).of_pend
            (hi.mux.machine.inv.pend_of_wait hb (hplace t _ h))).1
          exact Quieted.priority hq hdel hset hb hlive

/-- In a run whose steps keep the order, no owner is less urgent than those it blocks. -/
theorem losMuxPend_no_inversion {s₀ : MuxState} {events : List MuxEvent}
    (hmax : gTaskMaxNum ≤ osInvalid) (hb : MuxBooted s₀)
    (hrun : Run (fun s event s' => (∃ r, muxStep s event = some (s', r)) ∧ Ordinary s event ∧
      KeepsOrder s event) s₀ events s) : NoInversion s := by
  have hstart : ∃ V, OrderInv s₀ V := by
    obtain ⟨V, hi, hwait, hstat, _⟩ := muxBooted_inv hmax hb
    refine ⟨V, hi, fun m hm h => ?_, fun m t h => ?_, fun m o t h => ?_⟩
    · rw [hstat m hm] at h
      cases h
    · cases (hstat m h.1).symm.trans h.2.1
    · cases (hstat m h.1).symm.trans h.2.1
  obtain ⟨V, hi⟩ : ∃ V, OrderInv s V := by
    refine run_invariant (fun s => ∃ V, OrderInv s V) ?_ hrun hstart
    rintro s event s' ⟨V, hi⟩ ⟨⟨r, hstep⟩, hord, hkeep⟩
    exact muxStep_order hi hord hkeep hstep
  exact hi.noInversion

end

omit [Config] in
theorem onList_single {l : Store Node} {h x y : Node} (hhead : l.next h = x) (hback : l.next x = h)
    (hy : OnList l h y) : y = x := by
  obtain ⟨hne, n, hn⟩ := hy
  have hwalk : ∀ n, l.next^[n] h = h ∨ l.next^[n] h = x := by
    intro n
    induction n with
    | zero => exact .inl rfl
    | succ n ih =>
      rw [Function.iterate_succ_apply']
      rcases ih with heq | heq
      · rw [heq, hhead]
        exact .inr rfl
      · rw [heq, hback]
        exact .inl rfl
  rcases hwalk n with heq | heq
  · exact absurd (hn.symm.trans heq) hne
  · exact hn.symm.trans heq

omit [Config] in
theorem not_onList_empty {k : KernelState} {h y : Node} (hempty : losListEmpty k h = true) :
    ¬ OnList k.links h y := by
  have hnext : k.links.next h = h := of_decide_eq_true hempty
  exact fun hy => hy.1 (onList_single hnext hnext hy)

/-- Nobody waits when somebody pends, and when mutex `m` is posted at most one task waits, and for `m`. -/
def ordered (s : MuxState) : MuxEvent → Bool
  | .pend _ _ => (List.range Config.muxLimit).all fun m => losListEmpty s.kernel (.wait (.muxList m))
  | .post m => (List.range Config.muxLimit).all fun m' => losListEmpty s.kernel (.wait (.muxList m')) ||
      m' == m && s.kernel.links.next (s.kernel.links.next (.wait (.muxList m))) == .wait (.muxList m)
  | _ => true

theorem keepsOrder_of_ordered {s : MuxState} {event : MuxEvent} (h : ordered s event = true) :
    KeepsOrder s event := by
  cases event with
  | pend m timeout =>
    intro _ _ o m' o' _ _ _ hblocked hholds
    exact absurd hblocked (not_onList_empty (List.all_eq_true.mp h m' (List.mem_range.mpr hholds.1)))
  | post m =>
    intro hheld _
    have hall := fun m' (hm' : m' < Config.muxLimit) => List.all_eq_true.mp h m' (List.mem_range.mpr hm')
    simp only [Bool.or_eq_true, Bool.and_eq_true, beq_iff_eq] at hall
    refine ⟨fun m' t hne hholds hblocked => ?_, fun w t hfirst hblocked => ?_⟩
    · rcases hall m' hholds.1 with hempty | ⟨heq, _⟩
      · exact absurd hblocked (not_onList_empty hempty)
      · exact absurd heq hne
    · rcases hall m hheld.1 with hempty | ⟨_, hsingle⟩
      · exact absurd hblocked (not_onList_empty hempty)
      · have hnode := onList_single rfl hsingle hblocked
        rw [hfirst] at hnode
        injection hnode with htw
        rw [htw]
  | create | delete | resume | kernel => trivial

/-- A task of priority 10 takes two mutexes, inherits priority 5 at the second one and posts that one first: it is
handed over. The new owner delays itself, and the first task posts the other one. -/
def orderlyEvents : List MuxEvent :=
  [.create true, .create true, .kernel (smallTask 10), .kernel .start, .pend 0 0, .pend 1 0,
    .kernel (smallTask 5), .kernel .pendSV, .pend 1 losWaitForever, .kernel .pendSV, .post 1,
    .kernel .pendSV, .resume, .kernel (.delay 10), .kernel .pendSV, .post 0]

omit [Config] in
/-- While the task of priority 5 is blocked its owner has its priority, and after the handoff it has 10 again. -/
theorem losMuxPend_no_inversion_small :
    letI := smallConfig
    ∃ s s', Run (fun s event s' => (∃ r, muxStep s event = some (s', r)) ∧ Ordinary s event ∧ KeepsOrder s event)
        smallMux (orderlyEvents.take 10) s ∧
      Holds s 1 1 ∧ BlockedOn s 1 2 ∧ s.prio 1 = 5 ∧ NoInversion s ∧
      Run (fun s event s' => (∃ r, muxStep s event = some (s', r)) ∧ Ordinary s event ∧ KeepsOrder s event)
        smallMux orderlyEvents s' ∧
      Holds s' 1 2 ∧ s'.prio 1 = 10 ∧ NoInversion s' := by
  let := smallConfig
  have hstep : ∀ events s, events.foldlM (guarded (fun s event => Ordinary s event ∧ ordered s event)
      fun s event => (muxStep s event).map Prod.fst) smallMux = some s →
      Run (fun s event s' => (∃ r, muxStep s event = some (s', r)) ∧ Ordinary s event ∧ KeepsOrder s event)
        smallMux events s := by
    intro events s hs
    refine run_mono (fun s event s' h => ?_) (run_of_guarded hs)
    obtain ⟨⟨_, r⟩, hstep, rfl⟩ := Option.map_eq_some_iff.mp h.1
    exact ⟨⟨r, hstep⟩, h.2.1, keepsOrder_of_ordered h.2.2⟩
  have hblock : ((orderlyEvents.take 10).foldlM (guarded (fun s event => Ordinary s event ∧ ordered s event)
      fun s event => (muxStep s event).map Prod.fst) smallMux).map (fun s => (((s.mux 1).muxStat, (s.mux 1).muxCount,
        (s.mux 1).owner), s.kernel.links.next (.wait (.muxList 1)), s.prio 1)) =
      some ((true, 1, some 1), .pendList 2, 5) := by decide +kernel
  have hhanded : (orderlyEvents.foldlM (guarded (fun s event => Ordinary s event ∧ ordered s event)
      fun s event => (muxStep s event).map Prod.fst) smallMux).map (fun s => ((s.mux 1).muxStat, (s.mux 1).muxCount,
        (s.mux 1).owner, s.prio 1)) = some (true, 1, some 2, 10) := by decide +kernel
  obtain ⟨s, hs, hval⟩ := Option.map_eq_some_iff.mp hblock
  obtain ⟨s', hs', hval'⟩ := Option.map_eq_some_iff.mp hhanded
  simp only [Prod.mk.injEq] at hval hval'
  obtain ⟨⟨hstat, hcount, howner⟩, hnext, hprio⟩ := hval
  obtain ⟨hstat', hcount', howner', hprio'⟩ := hval'
  have hrun := hstep _ s hs
  have hrun' := hstep _ s' hs'
  exact ⟨s, s', hrun, ⟨by decide, hstat, by rw [hcount]; decide, howner⟩, ⟨by simp, 1, hnext⟩, hprio,
    losMuxPend_no_inversion (by decide) smallMux_booted hrun, hrun',
    ⟨by decide, hstat', by rw [hcount']; decide, howner'⟩, hprio',
    losMuxPend_no_inversion (by decide) smallMux_booted hrun'⟩

/-- A task of priority 10 takes two mutexes, inherits priority 5 at the second one and posts the
first one. -/
def invertEvents : List MuxEvent :=
  [.create true, .create true, .kernel (smallTask 10), .kernel .start, .pend 0 0, .pend 1 0,
    .kernel (smallTask 5), .kernel .pendSV, .pend 1 losWaitForever, .kernel .pendSV, .post 0]

omit [Config] in
/-- It loses the priority it inherited while the task of priority 5 still waits. -/
theorem losMuxPost_inverts :
    letI := smallConfig
    ∃ s, MuxBooted smallMux ∧
      Run (fun s event s' => (muxStep s event).map Prod.fst = some s') smallMux invertEvents s ∧
      ¬ NoInversion s := by
  let := smallConfig
  have hrun : (invertEvents.foldlM (fun s event => (muxStep s event).map Prod.fst) smallMux).map (fun s =>
      (((s.mux 1).muxStat, (s.mux 1).muxCount, (s.mux 1).owner),
        s.kernel.links.next (.wait (.muxList 1)), s.prio 1, s.prio 2)) =
      some ((true, 1, some 1), .pendList 2, 10, 5) := by decide +kernel
  rw [Option.map_eq_some_iff] at hrun
  obtain ⟨s, hs, hval⟩ := hrun
  simp only [Prod.mk.injEq] at hval
  obtain ⟨⟨hstat, hcount, hown⟩, hnext, hlow, hhigh⟩ := hval
  refine ⟨s, smallMux_booted, run_of_foldlM hs, fun hno => ?_⟩
  have hholds : Holds s 1 1 := ⟨by decide, hstat, by rw [hcount]; decide, hown⟩
  have hblocked : BlockedOn s 1 2 := ⟨by simp, 1, hnext⟩
  have h : s.prio 1 ≤ s.prio 2 := hno 1 1 2 hholds hblocked
  rw [hlow, hhigh] at h
  omega

end LiteosM.Ipc
