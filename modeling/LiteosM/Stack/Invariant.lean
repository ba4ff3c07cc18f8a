import LiteosM.Stack.Source

/-!
# Whose stack is whose

A control block has a stack from `OsNewTaskInit` until it goes to the free list. `Accounts` is
about the heap and the tasks alone, `StackInv` says where the processor and the saved contexts are.
-/

namespace LiteosM.Stack

open LiteosM.Kernel LiteosM.Lib.DlList

variable [Config]

/-- The heap, the control blocks and the tasks agree. -/
structure Accounts (s : StackState) : Prop where
  live : ∀ t < gTaskMaxNum, ∀ stack, s.topOfStack t = some stack →
    s.heap stack = true ∧ s.life t < s.born ∧ s.returned (s.life t) = 0
  apart : ∀ t < gTaskMaxNum, ∀ u < gTaskMaxNum, ∀ stack, s.topOfStack t = some stack →
    s.topOfStack u = some stack → t = u
  lives : ∀ t < gTaskMaxNum, ∀ u < gTaskMaxNum, s.topOfStack t ≠ none → s.topOfStack u ≠ none →
    s.life t = s.life u → t = u
  gone : ∀ i < s.born, (∀ t < gTaskMaxNum, s.topOfStack t ≠ none → s.life t ≠ i) → s.returned i = 1
  fresh : ∀ i, s.born ≤ i → s.returned i = 0

structure StackInv (s : StackState) (V : View Node) : Prop where
  machine : Machine s.kernel V
  accounts : Accounts s
  free : ∀ t < gTaskMaxNum, V.role (.pendList t) = .member .gLosFreeTask ↔ s.topOfStack t = none
  saved : ∀ t < gTaskMaxNum, (s.kernel.status t).unused = false → t ≠ s.kernel.runTask →
    s.stackPointer t = s.topOfStack t
  psp : s.kernel.gTaskScheduled = true → s.kernel.runTask < gTaskMaxNum →
    s.psp = s.topOfStack s.kernel.runTask
  finished : s.kernel.gTaskScheduled = true → s.kernel.runTask = gTaskMaxNum →
    ∃ t < gTaskMaxNum, V.role (.pendList t) = .member .gTaskRecyleList ∧ s.psp = s.topOfStack t
  calls : ∀ t, .enQueue t ∈ s.calls → t < gTaskMaxNum
  params : ∀ param enQueue, .take param enQueue ∈ s.calls →
    (param.map TskInitParam.usTaskPrio).getD 0 < 32

section

variable {s s' : StackState} {k k' : KernelState} {V V' : View Node} {t u stack : Nat} {l : Node}

omit [Config] in
theorem freeStack_none (h : s.topOfStack t = none) : s.freeStack t = s := by
  unfold StackState.freeStack
  rw [h]

omit [Config] in
theorem freeStack_some (h : s.topOfStack t = some stack) : s.freeStack t = { s with
    heap := Function.update s.heap stack false
    topOfStack := Function.update s.topOfStack t none
    returned := Function.update s.returned (s.life t) (s.returned (s.life t) + 1) } := by
  unfold StackState.freeStack
  rw [h]

omit [Config] in
theorem freeStack_topOfStack (s : StackState) (t : Nat) :
    (s.freeStack t).topOfStack = Function.update s.topOfStack t none := by
  cases h : s.topOfStack t with
  | none => rw [freeStack_none h, ← h, Function.update_eq_self]
  | some stack => rw [freeStack_some h]

omit [Config] in
theorem freeStack_rest (s : StackState) (t : Nat) : (s.freeStack t).kernel = s.kernel ∧
    (s.freeStack t).stackPointer = s.stackPointer ∧ (s.freeStack t).psp = s.psp ∧
    (s.freeStack t).calls = s.calls := by
  cases h : s.topOfStack t with
  | none =>
    rw [freeStack_none h]
    exact ⟨rfl, rfl, rfl, rfl⟩
  | some stack =>
    rw [freeStack_some h]
    exact ⟨rfl, rfl, rfl, rfl⟩

theorem Accounts.freeStack (ha : Accounts s) (ht : t < gTaskMaxNum) : Accounts (s.freeStack t) := by
  cases h : s.topOfStack t with
  | none =>
    rw [freeStack_none h]
    exact ha
  | some stack =>
    obtain ⟨hheap, hlife, hret⟩ := ha.live t ht stack h
    have hold : ∀ u stack', Function.update s.topOfStack t none u = some stack' →
        u ≠ t ∧ s.topOfStack u = some stack' := by
      intro u stack' hu
      by_cases hut : u = t
      · rw [hut, Function.update_self] at hu
        cases hu
      · rw [Function.update_of_ne hut] at hu
        exact ⟨hut, hu⟩
    have hold' : ∀ u, Function.update s.topOfStack t none u ≠ none →
        u ≠ t ∧ s.topOfStack u ≠ none := by
      intro u hu
      obtain ⟨stack', hs⟩ := Option.ne_none_iff_exists'.mp hu
      obtain ⟨hut, hs'⟩ := hold u stack' hs
      exact ⟨hut, by rw [hs']; exact Option.some_ne_none _⟩
    have hne : s.topOfStack t ≠ none := by
      rw [h]
      exact Option.some_ne_none _
    rw [freeStack_some h]
    constructor
    case live =>
      intro u hu stack' hs
      obtain ⟨hut, hs'⟩ := hold u stack' hs
      obtain ⟨hheap', hlife', hret'⟩ := ha.live u hu stack' hs'
      have hstack : stack' ≠ stack := by
        rintro rfl
        exact hut (ha.apart u hu t ht stack' hs' h)
      have hlives : s.life u ≠ s.life t := by
        intro heq
        exact hut (ha.lives u hu t ht (by rw [hs']; exact Option.some_ne_none _) hne heq)
      refine ⟨?_, hlife', ?_⟩
      · show Function.update s.heap stack false stack' = true
        rw [Function.update_of_ne hstack]
        exact hheap'
      · show Function.update s.returned _ _ (s.life u) = 0
        rw [Function.update_of_ne hlives]
        exact hret'
    case apart =>
      intro u hu v hv stack' hsu hsv
      exact ha.apart u hu v hv stack' (hold u stack' hsu).2 (hold v stack' hsv).2
    case lives =>
      intro u hu v hv hnu hnv heq
      exact ha.lives u hu v hv (hold' u hnu).2 (hold' v hnv).2 heq
    case gone =>
      intro i hi hnone
      show Function.update s.returned _ _ i = 1
      by_cases hit : i = s.life t
      · rw [hit, Function.update_self, hret]
      · rw [Function.update_of_ne hit]
        apply ha.gone i hi
        intro u hu hnu heq
        by_cases hut : u = t
        · rw [hut] at heq
          exact hit heq.symm
        · apply hnone u hu ?_ heq
          show Function.update s.topOfStack t none u ≠ none
          rw [Function.update_of_ne hut]
          exact hnu
    case fresh =>
      intro i hi
      show Function.update s.returned _ _ i = 0
      have hit : i ≠ s.life t := by
        rintro rfl
        exact absurd (Nat.lt_of_lt_of_le hlife hi) (Nat.lt_irrefl _)
      rw [Function.update_of_ne hit]
      exact ha.fresh i hi

theorem Accounts.make (ha : Accounts s) (ht : t < gTaskMaxNum) (hstack : s.heap stack = false) (hnone : s.topOfStack t = none)
    (k : KernelState) (sp : Nat → Option Nat) : Accounts { s with
      kernel := k
      stackPointer := sp
      topOfStack := Function.update s.topOfStack t (some stack)
      heap := Function.update s.heap stack true
      born := s.born + 1
      life := Function.update s.life t s.born } := by
  have hother : ∀ u < gTaskMaxNum, ∀ stack', s.topOfStack u = some stack' → stack' ≠ stack := by
    rintro u hu stack' hs rfl
    rw [(ha.live u hu stack' hs).1] at hstack
    cases hstack
  have hlife : ∀ u < gTaskMaxNum, s.topOfStack u ≠ none → s.life u < s.born := by
    intro u hu hne
    obtain ⟨stack', hs⟩ := Option.ne_none_iff_exists'.mp hne
    exact (ha.live u hu stack' hs).2.1
  constructor <;> dsimp only
  case live =>
    intro u hu stack' hs
    by_cases hut : u = t
    · rw [hut, Function.update_self] at hs ⊢
      rw [← Option.some.inj hs, Function.update_self]
      exact ⟨rfl, Nat.lt_succ_self _, ha.fresh _ (Nat.le_refl _)⟩
    · rw [Function.update_of_ne hut] at hs ⊢
      obtain ⟨hheap, hl, hret⟩ := ha.live u hu stack' hs
      rw [Function.update_of_ne (hother u hu stack' hs)]
      exact ⟨hheap, Nat.lt_succ_of_lt hl, hret⟩
  case apart =>
    intro u hu v hv stack' hsu hsv
    by_cases hut : u = t
    · rw [hut, Function.update_self] at hsu
      by_cases hvt : v = t
      · rw [hut, hvt]
      · rw [Function.update_of_ne hvt] at hsv
        exact absurd (Option.some.inj hsu).symm (hother v hv stack' hsv)
    · rw [Function.update_of_ne hut] at hsu
      by_cases hvt : v = t
      · rw [hvt, Function.update_self] at hsv
        exact absurd (Option.some.inj hsv).symm (hother u hu stack' hsu)
      · rw [Function.update_of_ne hvt] at hsv
        exact ha.apart u hu v hv stack' hsu hsv
  case lives =>
    intro u hu v hv hnu hnv heq
    by_cases hut : u = t
    · rw [hut, Function.update_self] at heq
      by_cases hvt : v = t
      · rw [hut, hvt]
      · rw [Function.update_of_ne hvt] at hnv heq
        exact absurd heq (Nat.ne_of_gt (hlife v hv hnv))
    · rw [Function.update_of_ne hut] at hnu heq
      by_cases hvt : v = t
      · rw [hvt, Function.update_self] at heq
        exact absurd heq (Nat.ne_of_lt (hlife u hu hnu))
      · rw [Function.update_of_ne hvt] at hnv heq
        exact ha.lives u hu v hv hnu hnv heq
  case gone =>
    intro i hi hnew
    by_cases hib : i = s.born
    · exfalso
      apply hnew t ht
      · rw [Function.update_self]
        exact Option.some_ne_none _
      · rw [Function.update_self, hib]
    · apply ha.gone i (by omega)
      intro u hu hnu heq
      have hut : u ≠ t := by
        rintro rfl
        exact hnu hnone
      apply hnew u hu
      · rw [Function.update_of_ne hut]
        exact hnu
      · rw [Function.update_of_ne hut]
        exact heq
  case fresh => exact fun i hi => ha.fresh i (by omega)

theorem role_shelf (hm : Machine k V) (hm' : Machine k' V') (hshelf : Shelved k V V')
    (hunused : (k'.status t).unused = (k.status t).unused) (ht : t < gTaskMaxNum)
    (hl : l = .gLosFreeTask ∨ l = .gTaskRecyleList) :
    V'.role (.pendList t) = .member l ↔ V.role (.pendList t) = .member l := by
  cases hcase : (k.status t).unused with
  | true => rw [hshelf t ht hcase]
  | false =>
    have hno : ∀ k V, Machine k V → (k.status t).unused = false → V.role (.pendList t) ≠ .member l := by
      intro k V hm hlive hrole
      have hfree := (hm.inv.task t ht).of_free (by
        obtain rfl | rfl := hl
        · exact Or.inl hrole
        · exact Or.inr hrole)
      rw [show (k.gTaskCBArray t).taskStatus.unused = false from hlive] at hfree
      cases hfree
    exact iff_of_false (hno k' V' hm' (hunused.trans hcase)) (hno k V hm hcase)

theorem plain_unused {event : KernelEvent} (hp : event.plain) (hq : Quieted event k V k' V')
    (hu : u < gTaskMaxNum) : (k'.status u).unused = (k.status u).unused := by
  by_cases haff : Affected k k' V V' event u
  · cases event with
    | priSet taskID taskPrio => exact congrArg TaskStatus.unused haff.2.1
    | tick expired => exact haff.unused.trans haff.live.symm
    | create _ _ _ => exact hp.elim
    | createOnly _ _ _ => exact hp.elim
    | delete _ => exact hp.elim
    | _ => exact haff.elim
  · exact (hq.kept u hu haff).unused

theorem StackInv.plain (hi : StackInv s V) (hm' : Machine k' V') (hshelf : Shelved s.kernel V V')
    (hrun : k'.runTask = s.kernel.runTask) (hsched : k'.gTaskScheduled = s.kernel.gTaskScheduled)
    (hunused : ∀ u < gTaskMaxNum, (k'.status u).unused = (s.kernel.status u).unused) :
    StackInv { s with kernel := k' } V' where
  machine := hm'
  accounts := ⟨hi.accounts.live, hi.accounts.apart, hi.accounts.lives, hi.accounts.gone,
    hi.accounts.fresh⟩
  free t ht := (role_shelf hi.machine hm' hshelf (hunused t ht) ht (Or.inl rfl)).trans (hi.free t ht)
  saved t ht hlive hne := by
    apply hi.saved t ht
    · rw [← hunused t ht]
      exact hlive
    · rw [← hrun]
      exact hne
  psp hs hlt := by
    dsimp only at hs hlt ⊢
    rw [hsched] at hs
    rw [hrun] at hlt ⊢
    exact hi.psp hs hlt
  finished hs hmax := by
    dsimp only at hs hmax
    rw [hsched] at hs
    rw [hrun] at hmax
    obtain ⟨t, ht, hrole, hpsp⟩ := hi.finished hs hmax
    refine ⟨t, ht, ?_, hpsp⟩
    exact (role_shelf hi.machine hm' hshelf (hunused t ht) ht (Or.inr rfl)).mpr hrole
  calls := hi.calls
  params := hi.params

theorem kernel_inv {event : KernelEvent} (hi : StackInv s V) (hp : event.plain)
    (hstep : kernelStep s.kernel event = some k') : ∃ V', StackInv { s with kernel := k' } V' := by
  obtain ⟨V', hm', hq, hplain⟩ := kernelStep_spec hi.machine hstep
  obtain ⟨hshelf, hrun, hsched⟩ := hplain hp
  exact ⟨V', hi.plain hm' hshelf hrun hsched fun u hu => plain_unused hp hq hu⟩

theorem refree_inv (hi : StackInv s V) (hl : l = .gLosFreeTask ∨ l = .gTaskRecyleList)
    (hrun : l = .gTaskRecyleList → s.kernel.gTaskScheduled = true → s.kernel.runTask ≠ gTaskMaxNum)
    {rest : List Node} (hcon : V.content l = .pendList t :: rest)
    (hk : k = losListAdd (losListDelete s.kernel (.pendList t)) .gLosFreeTask (.pendList t)) :
    t < gTaskMaxNum ∧ ∃ V', StackInv (StackState.freeStack { s with kernel := k } t) V' ∧
      Steady s.kernel k ∧ V'.role (.pendList t) = .member .gLosFreeTask := by
  have hmem : Node.pendList t ∈ V.content l := by
    rw [hcon]
    exact List.mem_cons_self
  have hrole := (hi.machine.inv.core.ready.forest.mem _ _).mp hmem
  have ht : t < gTaskMaxNum := by
    obtain ⟨u, hu, heq⟩ := hi.machine.inv.core.mem_pendList hmem (by
      obtain rfl | rfl := hl
      · exact Or.inl rfl
      · exact Or.inr (Or.inl rfl))
    cases heq
    exact hu
  have hunused := (hi.machine.inv.task t ht).of_free (by
    obtain rfl | rfl := hl
    · exact Or.inl hrole
    · exact Or.inr hrole)
  have hother : s.kernel.runTask ≠ t := by
    intro heq
    have hlive := (hi.machine.inv.task t ht).live heq.symm
    rw [hunused] at hlive
    cases hlive
  obtain ⟨V', hinv, hm, -, -, hfree⟩ := refree_one hi.machine.inv hl hcon
  rw [← hk] at hinv hm
  have hcb : k.gTaskCBArray = s.kernel.gTaskCBArray := by
    rw [hk]
    rfl
  obtain ⟨hkernel, hsp, hpsp, hcalls⟩ := freeStack_rest { s with kernel := k } t
  have htop := freeStack_topOfStack { s with kernel := k } t
  have haccounts : Accounts (StackState.freeStack { s with kernel := k } t) :=
    Accounts.freeStack ⟨hi.accounts.live, hi.accounts.apart, hi.accounts.lives, hi.accounts.gone,
      hi.accounts.fresh⟩ ht
  refine ⟨ht, V', ?_, hm.toSteady, hfree⟩
  constructor
  case machine =>
    rw [hkernel]
    refine ⟨hinv, hi.machine.settled.moved hm fun _ _ => hother, ?_⟩
    rw [hm.gIdleTaskID]
    exact hi.machine.idle
  case accounts => exact haccounts
  case free =>
    intro u hu
    rw [htop]
    by_cases hut : u = t
    · rw [hut, Function.update_self]
      exact iff_of_true hfree rfl
    · rw [Function.update_of_ne hut, hm.role _ (by simpa using hut) (by simp)]
      exact hi.free u hu
  case saved =>
    intro u hu hlive hne
    rw [hkernel] at hlive hne
    have hut : u ≠ t := by
      rintro rfl
      rw [show (k.status u).unused = true from by rw [KernelState.status, hcb]; exact hunused] at hlive
      cases hlive
    rw [hsp, htop, Function.update_of_ne hut]
    apply hi.saved u hu
    · rw [KernelState.status, ← hcb]
      exact hlive
    · rw [← hm.runTask]
      exact hne
  case psp =>
    intro hs hlt
    rw [hkernel] at hs hlt ⊢
    rw [hm.gTaskScheduled] at hs
    rw [hm.runTask] at hlt ⊢
    rw [hpsp, htop, Function.update_of_ne hother]
    exact hi.psp hs hlt
  case finished =>
    intro hs hmax
    rw [hkernel] at hs hmax
    rw [hm.gTaskScheduled] at hs
    rw [hm.runTask] at hmax
    obtain rfl | rfl := hl
    · obtain ⟨u, hu, hrecyle, hsame⟩ := hi.finished hs hmax
      have hut : u ≠ t := by
        rintro rfl
        cases hrecyle.symm.trans hrole
      refine ⟨u, hu, ?_, ?_⟩
      · rw [hm.role _ (by simpa using hut) (by simp)]
        exact hrecyle
      · rw [hpsp, htop, Function.update_of_ne hut]
        exact hsame
    · exact absurd hmax (hrun rfl hs)
  case calls =>
    rw [hcalls]
    exact hi.calls
  case params =>
    rw [hcalls]
    exact hi.params

/-- The induction is on the fuel; each round takes one task off the recycle list. -/
theorem osRecyleLoop_inv (fuel : Nat) : ∀ (s : StackState) (V : View Node), StackInv s V →
    (s.kernel.gTaskScheduled = true → s.kernel.runTask ≠ gTaskMaxNum) →
    osRecyleLoop fuel s = some s' → ∃ V', StackInv s' V' ∧ s'.calls = s.calls := by
  induction fuel with
  | zero =>
    intro s V _ _ h
    cases h
  | succ fuel ih =>
    intro s V hi hrun h
    have hhead := hi.machine.inv.core.system .gTaskRecyleList (.inr (.inl rfl))
    unfold osRecyleLoop at h
    cases hcon : V.content .gTaskRecyleList with
    | nil =>
      rw [if_pos ((hi.machine.inv.core.ready.listEmpty_iff hhead).mpr hcon), Option.some.injEq] at h
      rw [← h]
      exact ⟨V, hi, rfl⟩
    | cons y rest =>
      have hne : ¬ losListEmpty s.kernel .gTaskRecyleList = true := by
        rw [hi.machine.inv.core.ready.listEmpty_iff hhead, hcon]
        exact List.cons_ne_nil _ _
      obtain ⟨t, -, rfl⟩ := hi.machine.inv.core.mem_pendList
        (show y ∈ V.content .gTaskRecyleList by rw [hcon]; exact List.mem_cons_self) (.inr (.inl rfl))
      have hfirst : losDlListFirst s.kernel .gTaskRecyleList = .pendList t :=
        hi.machine.inv.core.ready.forest.next_first hhead hcon
      rw [if_neg hne, hfirst] at h
      simp only [osTcbFromPendList, Option.bind_eq_bind, Option.bind_some] at h
      obtain ⟨-, V1, hi1, hsteady, -⟩ := refree_inv hi (Or.inr rfl) (fun _ => hrun) hcon rfl
      obtain ⟨hkernel, -, -, hcalls⟩ := freeStack_rest { s with
        kernel := losListAdd (losListDelete s.kernel (.pendList t)) .gLosFreeTask (.pendList t) } t
      obtain ⟨V', hi', hcalls'⟩ := ih _ V1 hi1 (by
        rw [hkernel, hsteady.gTaskScheduled, hsteady.runTask]
        exact hrun) h
      exact ⟨V', hi', hcalls'.trans hcalls⟩

theorem StackInv.withCalls {calls : List CreateCall} (hi : StackInv s V)
    (hcalls : ∀ t, .enQueue t ∈ calls → t < gTaskMaxNum)
    (hparams : ∀ param enQueue, .take param enQueue ∈ calls →
      (param.map TskInitParam.usTaskPrio).getD 0 < 32) : StackInv { s with calls := calls } V :=
  ⟨hi.machine, ⟨hi.accounts.live, hi.accounts.apart, hi.accounts.lives, hi.accounts.gone,
    hi.accounts.fresh⟩, hi.free, hi.saved, hi.psp, hi.finished, hcalls, hparams⟩

theorem losTaskCreateOnly_inv {param : Option TskInitParam} {top : Option Nat} {r : Errno}
    {o : Option Nat} (hi : StackInv s V) (hp : (param.map TskInitParam.usTaskPrio).getD 0 < 32)
    (htop : ∀ stack, top = some stack → s.heap stack = false)
    (h : losTaskCreateOnly s param top = some (s', r, o)) :
    (∃ V', StackInv s' V') ∧ s'.calls = s.calls ∧ ∀ t, o = some t → t < gTaskMaxNum := by
  have hhead := hi.machine.inv.core.system .gLosFreeTask (.inl rfl)
  unfold losTaskCreateOnly at h
  cases hcon : V.content .gLosFreeTask with
  | nil =>
    rw [if_pos ((hi.machine.inv.core.ready.listEmpty_iff hhead).mpr hcon)] at h
    cases h
    exact ⟨⟨V, hi⟩, rfl, fun t ho => by cases ho⟩
  | cons y rest =>
    have hne : ¬ losListEmpty s.kernel .gLosFreeTask = true := by
      rw [hi.machine.inv.core.ready.listEmpty_iff hhead, hcon]
      exact List.cons_ne_nil _ _
    have hmem : y ∈ V.content .gLosFreeTask := by
      rw [hcon]
      exact List.mem_cons_self
    obtain ⟨t, ht, rfl⟩ := hi.machine.inv.core.mem_pendList hmem (.inl rfl)
    have hrole := (hi.machine.inv.core.ready.forest.mem _ _).mp hmem
    have hnone : s.topOfStack t = none := (hi.free t ht).mp hrole
    have hfirst : losDlListFirst s.kernel .gLosFreeTask = .pendList t :=
      hi.machine.inv.core.ready.forest.next_first hhead hcon
    rw [if_neg hne, hfirst] at h
    simp only [osTcbFromPendList, Option.bind_eq_bind, Option.bind_some] at h
    cases top with
    | none =>
      cases h
      obtain ⟨-, V', hi', -⟩ := refree_inv hi (Or.inl rfl) (fun h => by cases h) hcon rfl
      have hsame := freeStack_none (t := t) (s := { s with
        kernel := losListAdd (losListDelete s.kernel (.pendList t)) .gLosFreeTask (.pendList t) }) hnone
      rw [hsame] at hi'
      exact ⟨⟨V', hi'⟩, rfl, fun t ho => by cases ho⟩
    | some stack =>
      obtain ⟨V', hinv, hm, hcr, -, hpl, -⟩ := newTask_spec hi.machine.inv hp hcon
      have hrun : s.kernel.runTask ≠ t := by
        intro heq
        have hlive := (hi.machine.inv.task t ht).live heq.symm
        rw [hcr.unused] at hlive
        cases hlive
      have hid := (hinv.task t ht).id
      have haccounts := hi.accounts.make ht (htop stack rfl) hnone
        (osNewTaskInit (losListDelete s.kernel (.pendList t)) t ((param.map TskInitParam.usTaskPrio).getD 0))
        (Function.update s.stackPointer t (some stack))
      generalize osNewTaskInit (losListDelete s.kernel (.pendList t)) t
        ((param.map TskInitParam.usTaskPrio).getD 0) = k at hinv hm hid haccounts h
      dsimp only at h
      rw [hid] at h
      cases h
      refine ⟨⟨V', ?_⟩, rfl, fun u ho => by cases ho; exact ht⟩
      constructor
      case machine =>
        refine ⟨hinv, hi.machine.settled.moved hm fun _ _ => hrun, ?_⟩
        rw [hm.gIdleTaskID]
        exact hi.machine.idle
      case accounts => exact haccounts
      case free =>
        intro u hu
        dsimp only
        by_cases hut : u = t
        · rw [hut, Function.update_self, hpl]
          exact iff_of_false (fun h => by cases h) (Option.some_ne_none _)
        · rw [Function.update_of_ne hut, hm.role _ (by simpa using hut) (by simp)]
          exact hi.free u hu
      case saved =>
        intro u hu hlive hne
        dsimp only at hlive hne ⊢
        by_cases hut : u = t
        · rw [hut, Function.update_self, Function.update_self]
        · rw [Function.update_of_ne hut, Function.update_of_ne hut]
          apply hi.saved u hu
          · rw [KernelState.status, ← hm.task u hut]
            exact hlive
          · rw [← hm.runTask]
            exact hne
      case psp =>
        intro hs hlt
        dsimp only at hs hlt ⊢
        rw [hm.gTaskScheduled] at hs
        rw [hm.runTask] at hlt ⊢
        rw [Function.update_of_ne hrun]
        exact hi.psp hs hlt
      case finished =>
        intro hs hmax
        dsimp only at hs hmax ⊢
        rw [hm.gTaskScheduled] at hs
        rw [hm.runTask] at hmax
        obtain ⟨u, hu, hrecyle, hsame⟩ := hi.finished hs hmax
        have hut : u ≠ t := by
          rintro rfl
          cases hrecyle.symm.trans hrole
        refine ⟨u, hu, ?_, ?_⟩
        · rw [hm.role _ (by simpa using hut) (by simp)]
          exact hrecyle
        · rw [Function.update_of_ne hut]
          exact hsame
      case calls => exact hi.calls
      case params => exact hi.params

end

end LiteosM.Stack
