import LiteosM.Lib.Transition
import LiteosM.Exchook.Lists

/-!
# What is registered for an exception

A registry of the functions, as the history of the calls makes it, against the calls of `DoExcHook`.
`LOS_UnRegExcHook` takes out one node.
-/

namespace LiteosM.Exchook

open LiteosM.Lib.NextList LiteosM.Lib.Partition LiteosM.Lib.Transition

/-- The functions of each type, in the order of their registrations. -/
abbrev Registry := Nat → List ExcHookFn

/-- A registration adds the function at the end, and a removal takes out all of its registrations. -/
def register (r : Registry) : ExcOp × ExcErrno → Registry
  | (.reg t (some f), .losOk) => Function.update r t (r t ++ [f])
  | (.unReg t (some f), .losOk) => Function.update r t ((r t).filter fun g => decide (g ≠ f))
  | _ => r

def registered (events : List (ExcOp × ExcErrno)) : Registry := events.foldl register fun _ => []

def Once (s : ExcHooks) (t : Nat) (f : ExcHookFn) : Prop :=
  ∀ l, Linked s.next (s.gExcHeads t) l → (l.filterMap s.fn).count f ≤ 1

/-- A call, where each function to remove is registered at most once. -/
def OnceStep [HookConfig] (s : ExcHooks) (event : ExcOp × ExcErrno) (s' : ExcHooks) : Prop :=
  ExcStep s event s' ∧ ∀ t f, event.1 = .unReg t (some f) → t < excTypeEnd → Once s t f

/-- No node of the list of `t` holds `f`, and the other nodes keep their list, their order and their
function. -/
structure Unregistered [HookConfig] (s s' : ExcHooks) (t : Nat) (f : ExcHookFn) : Prop where
  gone : ∀ l, Linked s'.next (s'.gExcHeads t) l → ∀ n ∈ l, s'.fn n ≠ some f
  kept : ∀ u < excTypeEnd, ∀ l, Linked s.next (s.gExcHeads u) l →
    Linked s'.next (s'.gExcHeads u) (l.filter fun n => decide (u = t → s.fn n ≠ some f))
  holding : ∀ u < excTypeEnd, ∀ l, Linked s.next (s.gExcHeads u) l → ∀ n ∈ l,
    (u = t → s.fn n ≠ some f) → s'.fn n = s.fn n
  free : ∀ l, FreeList s l → ∃ l', FreeList s' (l' ++ l)

/-- What a call can do to the lists. -/
inductive ExcEffect (s : ExcHooks) (lists : Nat → List Nat) :
    ExcOp × ExcErrno → ExcHooks → (Nat → List Nat) → Prop
  | refused {op : ExcOp} {err : ExcErrno} (h : err ≠ .losOk) : ExcEffect s lists (op, err) s lists
  | registered {t n : Nat} {f : ExcHookFn} {rest : List Nat} {s' : ExcHooks}
      (ht : t < excTypeEnd) (hfree : lists excTypeEnd = n :: rest)
      (hfn : s'.fn = Function.update s.fn n (some f)) :
      ExcEffect s lists (.reg t (some f), .losOk) s' (moved lists excTypeEnd t [] rest n)
  | absent {t : Nat} {f : ExcHookFn} (ht : t < excTypeEnd) (hnot : ∀ n ∈ lists t, s.fn n ≠ some f) :
      ExcEffect s lists (.unReg t (some f), .losOk) s lists
  | removed {t x : Nat} {f : ExcHookFn} {l₁ l₂ : List Nat} {s' : ExcHooks}
      (ht : t < excTypeEnd) (hlist : lists t = l₁ ++ x :: l₂)
      (hnot : ∀ n ∈ l₁, s.fn n ≠ some f) (hx : s.fn x = some f)
      (hfn : s'.fn = Function.update s.fn x none) :
      ExcEffect s lists (.unReg t (some f), .losOk) s' (moved lists t excTypeEnd l₁ l₂ x)

section

variable [HookConfig] {s s' : ExcHooks} {lists : Nat → List Nat} {t x : Nat} {f : ExcHookFn}
  {l l₁ l₂ : List Nat} {events : List (ExcOp × ExcErrno)} {event : ExcOp × ExcErrno}

theorem freeList_unique (h : FreeList s l₁) (h' : FreeList s l₂) : l₁ = l₂ := by
  obtain ⟨hmade, hl⟩ | ⟨hunmade, hl⟩ := h
  · obtain ⟨-, hl'⟩ | ⟨hunmade', -⟩ := h'
    · exact linked_unique hl hl'
    · cases hmade with
      | inl hhead => exact absurd hunmade'.1 hhead
      | inr hzero => exact absurd hunmade'.2 hzero
  · obtain ⟨hmade', -⟩ | ⟨-, hl'⟩ := h'
    · cases hmade' with
      | inl hhead => exact absurd hunmade.1 hhead
      | inr hzero => exact absurd hunmade.2 hzero
    · rw [hl, hl']

theorem excStep_effect (hinv : HookInv s lists) (hstep : ExcStep s event s') :
    ∃ lists', HookInv s' lists' ∧ ExcEffect s lists event s' lists' := by
  obtain ⟨op, err⟩ := event
  cases op with
  | reg t f =>
    have hcall : losRegExcHook s t f = (s', err) := Option.some.inj hstep
    cases f with
    | none =>
      cases hcall
      exact ⟨lists, hinv, .refused fun h => (by cases h)⟩
    | some f =>
      by_cases ht : excTypeEnd ≤ t
      · rw [losRegExcHook, if_pos ht] at hcall
        cases hcall
        exact ⟨lists, hinv, .refused fun h => (by cases h)⟩
      · have ht := Nat.lt_of_not_le ht
        obtain ⟨-, hreg⟩ | ⟨n, rest, s₁, hfree, hreg, hfn, hinv'⟩ :=
          losRegExcHook_spec (f := f) hinv ht
        · rw [hreg] at hcall
          cases hcall
          exact ⟨lists, hinv, .refused fun h => (by cases h)⟩
        · rw [hreg] at hcall
          cases hcall
          exact ⟨_, hinv', .registered ht hfree hfn⟩
  | unReg t f =>
    have hcall : losUnRegExcHook s t f = some (s', err) := hstep
    cases f with
    | none =>
      cases hcall
      exact ⟨lists, hinv, .refused fun h => (by cases h)⟩
    | some f =>
      by_cases ht : excTypeEnd ≤ t
      · rw [losUnRegExcHook, if_pos ht] at hcall
        cases hcall
        exact ⟨lists, hinv, .refused fun h => (by cases h)⟩
      · have ht := Nat.lt_of_not_le ht
        obtain ⟨hnot, hnone⟩ | ⟨l₁, x, l₂, s₁, hlist, hnot, hx, hsome, hfn, hinv'⟩ :=
          losUnRegExcHook_spec (f := f) hinv ht
        · rw [hnone] at hcall
          cases hcall
          exact ⟨lists, hinv, .absent ht hnot⟩
        · rw [hsome] at hcall
          cases hcall
          exact ⟨_, hinv', .removed ht hlist hnot hx hfn⟩

theorem excRun_inv (hrun : Run ExcStep excBooted events s) : ∃ lists, HookInv s lists := by
  apply run_invariant (fun s => ∃ lists, HookInv s lists) _ hrun ⟨_, excBooted_inv⟩
  intro s event s' hinv hstep
  obtain ⟨lists, hinv⟩ := hinv
  obtain ⟨lists', hinv', -⟩ := excStep_effect hinv hstep
  exact ⟨lists', hinv'⟩

theorem losRegExcHook_fails (hinv : HookInv s lists) (ht : t < excTypeEnd) :
    (losRegExcHook s t (some f)).2 ≠ .losOk ↔ ∀ n < hookLimit, ∃ u < excTypeEnd, n ∈ lists u := by
  have hused : lists excTypeEnd = [] ↔ ∀ n < hookLimit, ∃ u < excTypeEnd, n ∈ lists u := by
    constructor
    · intro hnil n hn
      obtain ⟨u, hu⟩ := (hinv.parts.cover n).mp hn
      refine ⟨u, ?_, hu⟩
      rcases Nat.lt_trichotomy u excTypeEnd with hlt | heq | hgt
      · exact hlt
      · rw [heq, hnil] at hu
        cases hu
      · rw [hinv.types u hgt] at hu
        cases hu
    · intro hall
      apply List.eq_nil_iff_forall_not_mem.mpr
      intro n hn
      obtain ⟨u, hlt, hu⟩ := hall n ((hinv.parts.cover n).mpr ⟨_, hn⟩)
      have heq := hinv.parts.apart u excTypeEnd n hu hn
      omega
  rw [← hused]
  obtain ⟨hnil, hreg⟩ | ⟨n, rest, s₁, hcons, hreg, -⟩ := losRegExcHook_spec (f := f) hinv ht
  · rw [hreg, hnil]
    exact iff_of_true nofun rfl
  · rw [hreg, hcons]
    exact iff_of_false (fun h => h rfl) nofun

/-! ### One removal -/

omit [HookConfig] in
theorem filterMap_update {g : Option ExcHookFn} (hx : x ∉ l) :
    l.filterMap (Function.update s.fn x g) = l.filterMap s.fn := by
  apply List.filterMap_congr
  intro n hn
  apply Function.update_of_ne
  intro heq
  subst heq
  exact hx hn

theorem once_iff (hinv : HookInv s lists) (ht : t < excTypeEnd) :
    Once s t f ↔ ((lists t).filterMap s.fn).count f ≤ 1 := by
  have hlinked := hinv.linked t (by omega)
  constructor
  · intro h
    exact h _ hlinked
  · intro h l hl
    rw [linked_unique hl hlinked]
    exact h

omit [HookConfig] in
theorem count_first (hnot : ∀ n ∈ l₁, s.fn n ≠ some f) (hx : s.fn x = some f) :
    ((l₁ ++ x :: l₂).filterMap s.fn).count f ≤ 1 ↔ ∀ n ∈ l₂, s.fn n ≠ some f := by
  have hbefore : (l₁.filterMap s.fn).count f = 0 := by
    apply List.count_eq_zero.mpr
    intro hmem
    obtain ⟨n, hn, hf⟩ := List.mem_filterMap.mp hmem
    exact hnot n hn hf
  rw [List.filterMap_append, List.filterMap_cons_some hx, List.count_append, hbefore,
    List.count_cons_self]
  have hzero : (l₂.filterMap s.fn).count f = 0 ↔ ∀ n ∈ l₂, s.fn n ≠ some f := by
    rw [List.count_eq_zero, List.mem_filterMap]
    constructor
    · intro h n hn hf
      exact h ⟨n, hn, hf⟩
    · intro h ⟨n, hn, hf⟩
      exact h n hn hf
  rw [← hzero]
  omega

theorem unregistered_refl (hinv : HookInv s lists) (ht : t < excTypeEnd)
    (hnot : ∀ n ∈ lists t, s.fn n ≠ some f) : Unregistered s s t f := by
  have hlist : ∀ l, Linked s.next (s.gExcHeads t) l → l = lists t := by
    intro l hl
    exact linked_unique hl (hinv.linked t (by omega))
  constructor
  · intro l hl n hn
    rw [hlist l hl] at hn
    exact hnot n hn
  · intro u _ l hl
    rw [List.filter_eq_self.mpr]
    · exact hl
    · intro n hn
      apply decide_eq_true
      intro hut
      subst hut
      rw [hlist l hl] at hn
      exact hnot n hn
  · exact fun _ _ _ _ _ _ _ => rfl
  · exact fun l hl => ⟨[], hl⟩

theorem unregistered_moved (hinv : HookInv s lists) (ht : t < excTypeEnd)
    (hlist : lists t = l₁ ++ x :: l₂) (hnot : ∀ n ∈ l₁, s.fn n ≠ some f) (hx : s.fn x = some f)
    (hfn : s'.fn = Function.update s.fn x none)
    (hinv' : HookInv s' (moved lists t excTypeEnd l₁ l₂ x)) (hrest : ∀ n ∈ l₂, s.fn n ≠ some f) :
    Unregistered s s' t f := by
  have hne : t ≠ excTypeEnd := by omega
  have hother : ∀ u, u ≠ t → x ∉ lists u := by
    intro u hu hn
    apply hu
    apply hinv.parts.apart u t x hn
    rw [hlist]
    exact List.mem_append_right _ List.mem_cons_self
  have hleft : ∀ n ∈ l₁ ++ l₂, s.fn n ≠ some f := by
    intro n hn
    cases List.mem_append.mp hn with
    | inl hn => exact hnot n hn
    | inr hn => exact hrest n hn
  constructor
  · intro l hl n hn
    have hlinked := hinv'.linked t hne
    rw [moved_source hne] at hlinked
    rw [linked_unique hl hlinked] at hn
    rw [hfn]
    intro heq
    by_cases hnx : n = x
    · subst hnx
      rw [Function.update_self] at heq
      cases heq
    · rw [Function.update_of_ne hnx] at heq
      exact hleft n hn heq
  · intro u hu l hl
    have hue : u ≠ excTypeEnd := by omega
    have hlinked := hinv'.linked u hue
    rw [linked_unique hl (hinv.linked u hue)]
    by_cases hut : u = t
    · subst hut
      rw [moved_source hne] at hlinked
      rw [hlist, List.filter_append, List.filter_cons_of_neg, ← List.filter_append,
        List.filter_eq_self.mpr]
      · exact hlinked
      · exact fun n hn => decide_eq_true fun _ => hleft n hn
      · intro h
        exact of_decide_eq_true h rfl hx
    · rw [moved_other hut hue] at hlinked
      rw [List.filter_eq_self.mpr]
      · exact hlinked
      · exact fun n _ => decide_eq_true fun h => absurd h hut
  · intro u hu l hl n hn hkeep
    rw [hfn]
    apply Function.update_of_ne
    intro heq
    subst heq
    rw [linked_unique hl (hinv.linked u (by omega))] at hn
    by_cases hut : u = t
    · exact hkeep hut hx
    · exact hother u hut hn
  · intro l hl
    refine ⟨[x], ?_⟩
    have hfree := hinv'.freeList
    rw [moved_target] at hfree
    rw [freeList_unique hl hinv.freeList]
    exact hfree

theorem losUnRegExcHook_iff (hinv : HookInv s lists) (ht : t < excTypeEnd) :
    ∃ s', losUnRegExcHook s t (some f) = some (s', .losOk) ∧ (Unregistered s s' t f ↔ Once s t f) := by
  rw [once_iff hinv ht]
  obtain ⟨hnot, hcall⟩ | ⟨l₁, x, l₂, s', hlist, hnot, hx, hcall, hfn, hinv'⟩ :=
    losUnRegExcHook_spec (f := f) hinv ht
  · refine ⟨s, hcall, iff_of_true (unregistered_refl hinv ht hnot) ?_⟩
    rw [List.count_eq_zero.mpr]
    · exact Nat.zero_le 1
    · intro hmem
      obtain ⟨n, hn, hf⟩ := List.mem_filterMap.mp hmem
      exact hnot n hn hf
  · refine ⟨s', hcall, ?_⟩
    rw [hlist, count_first hnot hx]
    constructor
    · intro h n hn hf
      have hlinked := hinv'.linked t (by omega)
      rw [moved_source (by omega)] at hlinked
      apply h.gone _ hlinked n (List.mem_append_right _ hn)
      rw [hfn, Function.update_of_ne, hf]
      -- the list of `t` had `x` once
      intro heq
      subst heq
      have hnd := hinv.parts.nodup t
      rw [hlist] at hnd
      exact (List.nodup_cons.mp (List.nodup_middle.mp hnd)).1 (List.mem_append_right _ hn)
    · exact unregistered_moved hinv ht hlist hnot hx hfn hinv'

/-! ### Runs -/

def Matches (s : ExcHooks) (lists : Nat → List Nat) (r : Registry) : Prop :=
  ∀ t < excTypeEnd, ((lists t).filterMap s.fn).reverse = r t

omit [HookConfig] in
theorem register_refused {r : Registry} {op : ExcOp} {err : ExcErrno} (h : err ≠ .losOk) :
    register r (op, err) = r := by
  cases op with
  | reg t f =>
    cases f with
    | none => rfl
    | some f =>
      cases err with
      | losOk => exact absurd rfl h
      | sysPtrNull => rfl
      | sysHookIsFull => rfl
  | unReg t f =>
    cases f with
    | none => rfl
    | some f =>
      cases err with
      | losOk => exact absurd rfl h
      | sysPtrNull => rfl
      | sysHookIsFull => rfl

theorem matches_reg {n : Nat} {rest : List Nat} {r : Registry} (hinv : HookInv s lists)
    (ht : t < excTypeEnd) (hfree : lists excTypeEnd = n :: rest)
    (hfn : s'.fn = Function.update s.fn n (some f)) (h : Matches s lists r) :
    Matches s' (moved lists excTypeEnd t [] rest n) (register r (.reg t (some f), .losOk)) := by
  intro u hu
  have hn : n ∉ lists u := by
    intro hn
    have heq := hinv.parts.apart u excTypeEnd n hn (by rw [hfree]; exact List.mem_cons_self)
    omega
  rw [hfn]
  by_cases hut : u = t
  · subst hut
    have hself : Function.update s.fn n (some f) n = some f := by rw [Function.update_self]
    rw [moved_target, List.filterMap_cons_some hself, filterMap_update hn, List.reverse_cons, h u hu]
    show _ = Function.update r u _ u
    rw [Function.update_self]
  · rw [moved_other (by omega) hut, filterMap_update hn, h u hu]
    exact (Function.update_of_ne hut ..).symm

theorem matches_unReg {r : Registry} (hinv : HookInv s lists) (ht : t < excTypeEnd)
    (hlist : lists t = l₁ ++ x :: l₂) (hnot : ∀ n ∈ l₁, s.fn n ≠ some f) (hx : s.fn x = some f)
    (hfn : s'.fn = Function.update s.fn x none) (hrest : ∀ n ∈ l₂, s.fn n ≠ some f)
    (h : Matches s lists r) :
    Matches s' (moved lists t excTypeEnd l₁ l₂ x) (register r (.unReg t (some f), .losOk)) := by
  intro u hu
  have hxt : x ∈ lists t := by
    rw [hlist]
    exact List.mem_append_right _ List.mem_cons_self
  rw [hfn]
  by_cases hut : u = t
  · subst hut
    have hnd := hinv.parts.nodup u
    rw [hlist] at hnd
    have hout := (List.nodup_cons.mp (List.nodup_middle.mp hnd)).1
    have hkeep : ∀ g ∈ (l₁ ++ l₂).filterMap s.fn, decide (g ≠ f) = true := by
      intro g hg
      obtain ⟨n, hn, hnf⟩ := List.mem_filterMap.mp hg
      apply decide_eq_true
      intro hgf
      subst hgf
      cases List.mem_append.mp hn with
      | inl hn => exact hnot n hn hnf
      | inr hn => exact hrest n hn hnf
    show _ = Function.update r u _ u
    have hcut : ((lists u).filterMap s.fn).filter (fun g => decide (g ≠ f)) =
        (l₁ ++ l₂).filterMap s.fn := by
      rw [hlist, List.filterMap_append, List.filterMap_cons_some hx, List.filter_append,
        List.filter_cons_of_neg (by simp), ← List.filter_append, ← List.filterMap_append]
      exact List.filter_eq_self.mpr hkeep
    rw [Function.update_self, moved_source (by omega), filterMap_update hout, ← h u hu,
      List.filter_reverse, hcut]
  · have hxu : x ∉ lists u := fun hxu => hut (hinv.parts.apart u t x hxu hxt)
    rw [moved_other hut (by omega), filterMap_update hxu, h u hu]
    exact (Function.update_of_ne hut ..).symm

omit [HookConfig] in
theorem matches_absent {r : Registry} (hnot : ∀ n ∈ lists t, s.fn n ≠ some f)
    (h : Matches s lists r) : Matches s lists (register r (.unReg t (some f), .losOk)) := by
  intro u hu
  by_cases hut : u = t
  · subst hut
    show _ = Function.update r u _ u
    rw [Function.update_self, ← h u hu, List.filter_eq_self.mpr]
    intro g hg
    obtain ⟨n, hn, hnf⟩ := List.mem_filterMap.mp (List.mem_reverse.mp hg)
    apply decide_eq_true
    intro hgf
    subst hgf
    exact hnot n hn hnf
  · exact (h u hu).trans (Function.update_of_ne hut ..).symm

theorem onceStep_matches {r : Registry} (hinv : HookInv s lists) (h : Matches s lists r)
    (hstep : OnceStep s event s') :
    ∃ lists', HookInv s' lists' ∧ Matches s' lists' (register r event) := by
  obtain ⟨hstep, honce⟩ := hstep
  obtain ⟨lists', hinv', heffect⟩ := excStep_effect hinv hstep
  refine ⟨lists', hinv', ?_⟩
  cases heffect with
  | refused herr =>
    rw [register_refused herr]
    exact h
  | registered ht hfree hfn => exact matches_reg hinv ht hfree hfn h
  | absent ht hnot => exact matches_absent hnot h
  | removed ht hlist hnot hx hfn =>
    have honce := (once_iff hinv ht).mp (honce _ _ rfl ht)
    rw [hlist, count_first hnot hx] at honce
    exact matches_unReg hinv ht hlist hnot hx hfn honce h

theorem onceRun_matches (hrun : Run OnceStep excBooted events s) :
    ∃ lists, HookInv s lists ∧ Matches s lists (registered events) := by
  induction hrun with
  | nil =>
    refine ⟨_, excBooted_inv, ?_⟩
    intro t ht
    have hne : t ≠ excTypeEnd := Nat.ne_of_lt ht
    dsimp only
    rw [if_neg hne]
    rfl
  | @snoc s₁ s₂ events event run last ih =>
    obtain ⟨lists, hinv, h⟩ := ih
    have hnext := onceStep_matches hinv h last
    rw [registered, List.foldl_append]
    exact hnext

/-- In every run the nodes are in the lists, each in one, and a registration fails if and only if all
of them are in use. A removal removes all that it should if and only if the function is registered
at most once, and with all removals so, the exception calls what is registered. -/
theorem losUnRegExcHook_once (hrun : Run ExcStep excBooted events s) :
    (∃ lists, Partitions lists (· < hookLimit) ∧
      (∀ t < excTypeEnd, Linked s.next (s.gExcHeads t) (lists t)) ∧
      FreeList s (lists excTypeEnd) ∧ (∀ t, excTypeEnd < t → lists t = []) ∧
      ∀ t < excTypeEnd, ∀ f, (losRegExcHook s t (some f)).2 ≠ .losOk ↔
        ∀ n < hookLimit, ∃ u < excTypeEnd, n ∈ lists u) ∧
    (∀ t < excTypeEnd, ∀ f, ∃ s', losUnRegExcHook s t (some f) = some (s', .losOk) ∧
      (Unregistered s s' t f ↔ Once s t f)) ∧
    (Run OnceStep excBooted events s →
      ∀ t < excTypeEnd, doExcHook s t = some ((registered events t).map fun f => (f, t))) := by
  obtain ⟨lists, hinv⟩ := excRun_inv hrun
  refine ⟨⟨lists, hinv.parts, ?_, hinv.freeList, hinv.types, ?_⟩, ?_, ?_⟩
  · exact fun t ht => hinv.linked t (Nat.ne_of_lt ht)
  · exact fun t ht f => losRegExcHook_fails hinv ht
  · exact fun t ht f => losUnRegExcHook_iff hinv ht
  · intro honce t ht
    obtain ⟨lists', hinv', hmatches⟩ := onceRun_matches honce
    rw [doExcHook_eq hinv' ht, hmatches t ht]

end

@[reducible]
def smallHooks : HookConfig where
  hookLimit := 3
  hookLimit_pos := by decide

/-- Two functions, of which the first one is removed. -/
def twoHooks : ExcHooks :=
  let _ := smallHooks
  (losRegExcHook (losRegExcHook excBooted 1 (some 7)).1 1 (some 9)).1

theorem twoHooks_once : Once twoHooks 1 7 := by
  intro l hl
  have htwo : Linked twoHooks.next (twoHooks.gExcHeads 1) [1, 2] := ⟨rfl, rfl, rfl⟩
  rw [linked_unique hl htwo]
  decide

theorem losUnRegExcHook_once_two :
    let _ := smallHooks
    ∃ s, Run OnceStep excBooted [(.reg 1 (some 7), .losOk), (.reg 1 (some 9), .losOk),
        (.unReg 1 (some 7), .losOk)] s ∧
      doExcHook s 1 = some [(9, 1)] := by
  intro _
  have hfirst : Run OnceStep excBooted [(.reg 1 (some 7), .losOk)]
      (losRegExcHook excBooted 1 (some 7)).1 := run_single ⟨rfl, nofun⟩
  have hsecond : Run OnceStep excBooted [(.reg 1 (some 7), .losOk), (.reg 1 (some 9), .losOk)]
      twoHooks := hfirst.snoc ⟨rfl, nofun⟩
  have hthird : Run OnceStep excBooted [(.reg 1 (some 7), .losOk), (.reg 1 (some 9), .losOk),
      (.unReg 1 (some 7), .losOk)] (releaseNode twoHooks 1 (some 1) 2) := by
    apply hsecond.snoc
    refine ⟨rfl, ?_⟩
    intro t f heq _
    cases heq
    exact twoHooks_once
  refine ⟨_, hthird, ?_⟩
  exact (losUnRegExcHook_once (run_mono (fun _ _ _ h => h.1) hthird)).2.2 hthird 1 (by decide)

/-- A function that is registered twice and removed once is still called. -/
theorem losUnRegExcHook_leaves :
    let _ := smallHooks
    ∃ s s', Run ExcStep excBooted [(.reg 0 (some 1), .losOk), (.reg 0 (some 1), .losOk)] s ∧
      losUnRegExcHook s 0 (some 1) = some (s', .losOk) ∧ doExcHook s' 0 = some [(1, 0)] ∧
      ¬ Unregistered s s' 0 1 := by
  intro _
  have hfirst : Run ExcStep excBooted [(.reg 0 (some 1), .losOk)]
      (losRegExcHook excBooted 0 (some 1)).1 := run_single rfl
  have hsecond : Run ExcStep excBooted [(.reg 0 (some 1), .losOk), (.reg 0 (some 1), .losOk)]
      (losRegExcHook (losRegExcHook excBooted 0 (some 1)).1 0 (some 1)).1 := hfirst.snoc rfl
  refine ⟨_, releaseNode _ 0 none 1, hsecond, rfl, rfl, ?_⟩
  intro h
  exact h.gone [2] ⟨rfl, rfl⟩ 2 (List.mem_singleton_self 2) rfl

end LiteosM.Exchook
