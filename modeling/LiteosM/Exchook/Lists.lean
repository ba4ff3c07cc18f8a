import LiteosM.Lib.NextList
import LiteosM.Lib.Partition
import LiteosM.Exchook.Hooks

/-!
# The nodes of the hooks, over the lists

Every node is in the list of one type or in the free list. A node holds a function if and only if
it is in the list of a type.
-/

namespace LiteosM.Exchook

open LiteosM.Lib.NextList LiteosM.Lib.Partition

section

variable {s : ExcHooks} {n t : Nat} {p : Option Nat} {f : Option ExcHookFn}

@[simp] theorem setNext_next : (s.setNext n p).next = Function.update s.next n p := by
  funext m
  by_cases h : m = n
  · subst h
    simp [ExcHooks.setNext, ExcHooks.next]
  · simp [ExcHooks.setNext, ExcHooks.next, h]

@[simp] theorem setNext_fn : (s.setNext n p).fn = s.fn := by
  funext m
  by_cases h : m = n
  · subst h
    simp [ExcHooks.setNext, ExcHooks.fn]
  · simp [ExcHooks.setNext, ExcHooks.fn, h]

@[simp] theorem setNext_heads : (s.setNext n p).gExcHeads = s.gExcHeads := rfl

@[simp] theorem setFn_next : (s.setFn n f).next = s.next := by
  funext m
  by_cases h : m = n
  · subst h
    simp [ExcHooks.setFn, ExcHooks.next]
  · simp [ExcHooks.setFn, ExcHooks.next, h]

@[simp] theorem setFn_fn : (s.setFn n f).fn = Function.update s.fn n f := by
  funext m
  by_cases h : m = n
  · subst h
    simp [ExcHooks.setFn, ExcHooks.fn]
  · simp [ExcHooks.setFn, ExcHooks.fn, h]

@[simp] theorem setFn_heads : (s.setFn n f).gExcHeads = s.gExcHeads := rfl

@[simp] theorem setHead_next : (s.setHead t p).next = s.next := rfl

@[simp] theorem setHead_fn : (s.setHead t p).fn = s.fn := rfl

@[simp] theorem setHead_heads : (s.setHead t p).gExcHeads = Function.update s.gExcHeads t p := rfl

@[simp] theorem push_next : (s.push t n).next = Function.update s.next n (s.gExcHeads t) := by
  simp [ExcHooks.push]

@[simp] theorem push_fn : (s.push t n).fn = s.fn := by simp [ExcHooks.push]

@[simp] theorem push_heads : (s.push t n).gExcHeads = Function.update s.gExcHeads t (some n) := rfl

theorem push_linked {l : List Nat} (h : Linked s.next (s.gExcHeads t) l) (hn : n ∉ l) :
    Linked (s.push t n).next ((s.push t n).gExcHeads t) (n :: l) := by
  rw [push_next, push_heads, Function.update_self]
  refine ⟨rfl, ?_⟩
  rw [Function.update_self]
  apply linked_congr h
  intro a ha
  apply Function.update_of_ne
  intro heq
  subst heq
  exact hn ha

end

section

variable [HookConfig] {s s' : ExcHooks} {lists : Nat → List Nat} {t n : Nat} {f : ExcHookFn}

/-- The free list as the next registration finds it. -/
def FreeList (s : ExcHooks) (l : List Nat) : Prop :=
  (s.gExcHeads excTypeEnd ≠ none ∨ s.fn 0 ≠ none) ∧ Linked s.next (s.gExcHeads excTypeEnd) l ∨
    (s.gExcHeads excTypeEnd = none ∧ s.fn 0 = none) ∧ l = (List.range hookLimit).reverse

structure HookInv (s : ExcHooks) (lists : Nat → List Nat) : Prop where
  parts : Partitions lists (· < hookLimit)
  types : ∀ t, excTypeEnd < t → lists t = []
  linked : ∀ t, t ≠ excTypeEnd → Linked s.next (s.gExcHeads t) (lists t)
  freeList : FreeList s (lists excTypeEnd)
  held : ∀ t, t ≠ excTypeEnd → ∀ n ∈ lists t, s.fn n ≠ none
  empty : ∀ n ∈ lists excTypeEnd, s.fn n = none

theorem freeList_of_linked (hparts : Partitions lists (· < hookLimit))
    (hheld : ∀ t, t ≠ excTypeEnd → ∀ n ∈ lists t, s.fn n ≠ none)
    (h : Linked s.next (s.gExcHeads excTypeEnd) (lists excTypeEnd)) :
    FreeList s (lists excTypeEnd) := by
  refine .inl ⟨?_, h⟩
  cases hfree : lists excTypeEnd with
  | cons n rest =>
    rw [hfree] at h
    left
    rw [h.1]
    nofun
  | nil =>
    right
    obtain ⟨t, ht⟩ := (hparts.cover 0).mp hookLimit_pos
    apply hheld t _ 0 ht
    intro heq
    rw [heq, hfree] at ht
    cases ht

theorem excBooted_inv :
    HookInv excBooted fun t => if t = excTypeEnd then (List.range hookLimit).reverse else [] := by
  constructor
  · constructor
    · intro t
      split
      · exact List.nodup_reverse.mpr List.nodup_range
      · exact List.nodup_nil
    · intro i j a hi hj
      split at hi
      · split at hj
        · omega
        · cases hj
      · cases hi
    · intro a
      constructor
      · intro ha
        refine ⟨excTypeEnd, ?_⟩
        rw [if_pos rfl, List.mem_reverse]
        exact List.mem_range.mpr ha
      · intro ⟨t, ht⟩
        split at ht
        · exact List.mem_range.mp (List.mem_reverse.mp ht)
        · cases ht
  · intro t ht
    exact if_neg (by omega)
  · intro t ht
    rw [if_neg ht]
    exact rfl
  · exact .inr ⟨⟨rfl, rfl⟩, if_pos rfl⟩
  · intro t ht n hn
    rw [if_neg ht] at hn
    cases hn
  · intro n _
    rfl

/-! ### Taking a free node -/

omit [HookConfig] in
theorem foldl_push (hhead : s.gExcHeads excTypeEnd = none) (k : Nat) :
    let r := (List.range k).foldl (fun s i => s.push excTypeEnd i) s
    Linked r.next (r.gExcHeads excTypeEnd) (List.range k).reverse ∧ r.fn = s.fn ∧
      ∀ t, t ≠ excTypeEnd → r.gExcHeads t = s.gExcHeads t := by
  induction k with
  | zero => exact ⟨hhead, rfl, fun t _ => rfl⟩
  | succ k ih =>
    obtain ⟨hlinked, hfn, hheads⟩ := ih
    simp only [List.range_succ, List.foldl_append, List.foldl_cons, List.foldl_nil,
      List.reverse_append, List.reverse_cons, List.reverse_nil, List.nil_append, List.cons_append]
    refine ⟨push_linked hlinked ?_, ?_, ?_⟩
    · rw [List.mem_reverse, List.mem_range]
      omega
    · rw [push_fn, hfn]
    · intro t ht
      rw [push_heads, Function.update_of_ne ht, hheads t ht]

/-- What `GetFreeNode` leaves when it gives the node `n`. -/
structure Took (s : ExcHooks) (lists : Nat → List Nat) (n : Nat) (rest : List Nat) (s' : ExcHooks) :
    Prop where
  fn : s'.fn = s.fn
  linked : ∀ t, t ≠ excTypeEnd → Linked s'.next (s'.gExcHeads t) (lists t)
  free : Linked s'.next (s'.gExcHeads excTypeEnd) rest

omit [HookConfig] in
theorem takeFreeNode_took {rest : List Nat} (hfn : s'.fn = s.fn)
    (hlinked : ∀ t, t ≠ excTypeEnd → Linked s'.next (s'.gExcHeads t) (lists t))
    (h : Linked s'.next (s'.gExcHeads excTypeEnd) (n :: rest)) :
    ∃ s₁, takeFreeNode s' = (s₁, some n) ∧ Took s lists n rest s₁ := by
  obtain ⟨hhead, htail⟩ := h
  refine ⟨s'.setHead excTypeEnd (s'.next n), ?_, ?_, ?_, ?_⟩
  · simp only [takeFreeNode, hhead]
  · rw [setHead_fn, hfn]
  · intro t ht
    rw [setHead_next, setHead_heads, Function.update_of_ne ht]
    exact hlinked t ht
  · rw [setHead_next, setHead_heads, Function.update_self]
    exact htail

theorem lists_unmade (hparts : Partitions lists (· < hookLimit))
    (h : lists excTypeEnd = (List.range hookLimit).reverse) (ht : t ≠ excTypeEnd) :
    lists t = [] := by
  apply List.eq_nil_iff_forall_not_mem.mpr
  intro n hn
  apply ht
  apply hparts.apart t excTypeEnd n hn
  rw [h, List.mem_reverse, List.mem_range]
  exact (hparts.cover n).mpr ⟨t, hn⟩

theorem getFreeNode_spec (hinv : HookInv s lists) :
    (lists excTypeEnd = [] ∧ getFreeNode s = (s, none)) ∨
      ∃ n rest s₁, lists excTypeEnd = n :: rest ∧ getFreeNode s = (s₁, some n) ∧
        Took s lists n rest s₁ := by
  cases hinv.freeList with
  | inl hmade =>
    obtain ⟨hmade, hlinked⟩ := hmade
    cases hfree : lists excTypeEnd with
    | nil =>
      rw [hfree] at hlinked
      left
      refine ⟨rfl, ?_⟩
      have hzero := hmade.resolve_left (fun h => h hlinked)
      have hhead : s.gExcHeads excTypeEnd = none := hlinked
      rw [getFreeNode, if_pos hhead, if_pos hzero]
    | cons n rest =>
      rw [hfree] at hlinked
      right
      obtain ⟨s₁, htake, htook⟩ := takeFreeNode_took (s := s) rfl hinv.linked hlinked
      refine ⟨n, rest, s₁, rfl, ?_, htook⟩
      rw [getFreeNode, if_neg, htake]
      rw [hlinked.1]
      nofun
  | inr hunmade =>
    obtain ⟨⟨hhead, hzero⟩, hall⟩ := hunmade
    right
    obtain ⟨k, hk⟩ : ∃ k, hookLimit = k + 1 := ⟨hookLimit - 1, by have := hookLimit_pos; omega⟩
    obtain ⟨hlinked, hfn, hheads⟩ := foldl_push hhead hookLimit
    have hrev : (List.range hookLimit).reverse = k :: (List.range k).reverse := by
      rw [hk, List.range_succ, List.reverse_append]
      rfl
    have hlists : ∀ t, t ≠ excTypeEnd → Linked (initFreeList s).next ((initFreeList s).gExcHeads t) (lists t) := by
      intro t ht
      have hlist := hinv.linked t ht
      rw [lists_unmade hinv.parts hall ht] at hlist ⊢
      exact (hheads t ht).trans hlist
    rw [hrev] at hlinked
    obtain ⟨s₁, htake, htook⟩ := @takeFreeNode_took s (initFreeList s) _ _ _ hfn hlists hlinked
    refine ⟨k, (List.range k).reverse, s₁, hall.trans hrev, ?_, htook⟩
    rw [getFreeNode, if_pos hhead, if_neg (fun h => h hzero), htake]

/-! ### A node moves -/

variable {i j x : Nat} {l l₁ l₂ : List Nat} {g : Option ExcHookFn}

theorem inv_moved (hinv : HookInv s lists) (hne : i ≠ j) (hi : i ≤ excTypeEnd) (hj : j ≤ excTypeEnd)
    (hlist : lists i = l₁ ++ x :: l₂) (hfn : s'.fn = Function.update s.fn x g)
    (hg : g = none ↔ j = excTypeEnd)
    (hlinked : ∀ u, Linked s'.next (s'.gExcHeads u) (moved lists i j l₁ l₂ x u)) :
    HookInv s' (moved lists i j l₁ l₂ x) := by
  have hparts := partition_moved hinv.parts hne hlist
  have hheld : ∀ u, u ≠ excTypeEnd → ∀ n ∈ moved lists i j l₁ l₂ x u, s'.fn n ≠ none := by
    intro u hu n hn
    rw [hfn]
    obtain ⟨hnx, hn⟩ | ⟨rfl, rfl⟩ := (mem_moved hinv.parts hne hlist).mp hn
    · rw [Function.update_of_ne hnx]
      exact hinv.held u hu n hn
    · rw [Function.update_self]
      exact fun h => hu (hg.mp h)
  constructor
  · exact hparts
  · intro u hu
    rw [moved_other (by omega) (by omega)]
    exact hinv.types u hu
  · exact fun u _ => hlinked u
  · exact freeList_of_linked hparts hheld (hlinked excTypeEnd)
  · exact hheld
  · intro n hn
    rw [hfn]
    obtain ⟨hnx, hn⟩ | ⟨rfl, hend⟩ := (mem_moved hinv.parts hne hlist).mp hn
    · rw [Function.update_of_ne hnx]
      exact hinv.empty n hn
    · rw [Function.update_self]
      exact hg.mpr hend.symm

omit [HookConfig] in
theorem push_other (h : Linked s.next (s.gExcHeads i) l) (hi : i ≠ t) (hn : n ∉ l) :
    Linked (s.push t n).next ((s.push t n).gExcHeads i) l := by
  rw [push_next, push_heads, Function.update_of_ne hi]
  apply linked_congr h
  intro a ha
  apply Function.update_of_ne
  intro heq
  subst heq
  exact hn ha

theorem losRegExcHook_spec (hinv : HookInv s lists) (ht : t < excTypeEnd) :
    (lists excTypeEnd = [] ∧ losRegExcHook s t (some f) = (s, .sysHookIsFull)) ∨
      ∃ n rest s', lists excTypeEnd = n :: rest ∧ losRegExcHook s t (some f) = (s', .losOk) ∧
        s'.fn = Function.update s.fn n (some f) ∧
        HookInv s' (moved lists excTypeEnd t [] rest n) := by
  have hlt : ¬ excTypeEnd ≤ t := by omega
  cases getFreeNode_spec hinv with
  | inl hfull =>
    left
    refine ⟨hfull.1, ?_⟩
    rw [losRegExcHook, if_neg hlt, hfull.2]
  | inr htaken =>
    obtain ⟨n, rest, s₁, hfree, hget, htook⟩ := htaken
    right
    have hne : excTypeEnd ≠ t := by omega
    have hout : ∀ u, u ≠ excTypeEnd → n ∉ lists u := by
      intro u hu hn
      apply hu
      apply hinv.parts.apart u excTypeEnd n hn
      rw [hfree]
      exact List.mem_cons_self
    have hrest : n ∉ rest := by
      have hnd := hinv.parts.nodup excTypeEnd
      rw [hfree] at hnd
      exact (List.nodup_cons.mp hnd).1
    have hfn : ((s₁.setFn n (some f)).push t n).fn = Function.update s.fn n (some f) := by
      rw [push_fn, setFn_fn, htook.fn]
    refine ⟨n, rest, (s₁.setFn n (some f)).push t n, hfree, ?_, hfn, ?_⟩
    · rw [losRegExcHook, if_neg hlt, hget]
    · apply inv_moved hinv hne (Nat.le_refl _) (Nat.le_of_lt ht) hfree hfn
      · constructor
        · intro h
          cases h
        · intro h
          exact absurd h.symm hne
      · intro u
        by_cases hut : u = t
        · subst hut
          rw [moved_target]
          apply push_linked _ (hout u hne.symm)
          rw [setFn_next, setFn_heads]
          exact htook.linked u hne.symm
        · by_cases hue : u = excTypeEnd
          · subst hue
            rw [moved_source hne]
            apply push_other _ hne hrest
            rw [setFn_next, setFn_heads]
            exact htook.free
          · rw [moved_other hue hut]
            apply push_other _ hut (hout u hue)
            rw [setFn_next, setFn_heads]
            exact htook.linked u hue

/-! ### The loop that removes a function -/

omit [HookConfig] in
theorem unRegLoop_none {fuel : Nat} {pre p : Option Nat} (h : Linked s.next p l)
    (hnot : ∀ n ∈ l, s.fn n ≠ some f) (hfuel : l.length ≤ fuel) :
    unRegLoop t f fuel s pre p = some s := by
  induction l generalizing fuel pre p with
  | nil =>
    cases h
    cases fuel <;> rfl
  | cons n l ih =>
    obtain ⟨rfl, htail⟩ := h
    cases fuel with
    | zero => cases hfuel
    | succ fuel =>
      rw [unRegLoop, if_neg (hnot n List.mem_cons_self)]
      exact ih htail (fun m hm => hnot m (List.mem_cons_of_mem _ hm)) (Nat.le_of_succ_le_succ hfuel)

omit [HookConfig] in
theorem unRegLoop_first {fuel : Nat} {pre p : Option Nat} (h : Linked s.next p (l₁ ++ x :: l₂))
    (hnot : ∀ n ∈ l₁, s.fn n ≠ some f) :
    unRegLoop t f (l₁.length + fuel) s pre p = unRegLoop t f fuel s (l₁.getLast?.or pre) (some x) := by
  induction l₁ generalizing pre p with
  | nil =>
    obtain ⟨rfl, -⟩ := h
    rw [List.length_nil, Nat.zero_add]
    rfl
  | cons n l₁ ih =>
    obtain ⟨rfl, htail⟩ := h
    have hfuel : (n :: l₁).length + fuel = (l₁.length + fuel) + 1 := by
      rw [List.length_cons]
      omega
    rw [hfuel, unRegLoop, if_neg (hnot n List.mem_cons_self)]
    rw [ih htail fun m hm => hnot m (List.mem_cons_of_mem _ hm)]
    congr 1
    rw [List.getLast?_cons]
    cases l₁.getLast? <;> rfl

def unlinked (s : ExcHooks) (excType : Nat) (preNode : Option Nat) (node : Nat) : ExcHooks :=
  match preNode with
  | some pre => s.setNext pre (s.next node)
  | none => s.setHead excType (s.next node)

omit [HookConfig] in
theorem unlinked_linked (h : Linked s.next (s.gExcHeads t) (l₁ ++ x :: l₂))
    (hnd : (l₁ ++ x :: l₂).Nodup) :
    Linked (unlinked s t l₁.getLast? x).next ((unlinked s t l₁.getLast? x).gExcHeads t) (l₁ ++ l₂) := by
  cases List.eq_nil_or_concat l₁ with
  | inl hnil =>
    subst hnil
    show Linked (s.setHead t (s.next x)).next ((s.setHead t (s.next x)).gExcHeads t) l₂
    rw [setHead_next, setHead_heads, Function.update_self]
    exact h.2
  | inr hconcat =>
    obtain ⟨l, pre, rfl⟩ := hconcat
    rw [List.concat_eq_append] at h hnd ⊢
    rw [List.append_assoc, List.singleton_append] at h hnd
    have hunlinked : unlinked s t (l ++ [pre]).getLast? x = s.setNext pre (s.next x) := by
      rw [List.getLast?_append]
      rfl
    rw [hunlinked, setNext_next, setNext_heads, List.append_assoc, List.singleton_append]
    exact linked_unlink h hnd

omit [HookConfig] in
theorem unlinked_fn {pre : Option Nat} : (unlinked s t pre x).fn = s.fn := by
  cases pre with
  | none => rfl
  | some pre => exact setNext_fn

omit [HookConfig] in
/-- Another list stays: the node before `x` is not in it. -/
theorem unlinked_other (h : Linked s.next (s.gExcHeads i) l) (hi : i ≠ t)
    (hout : ∀ n ∈ l₁, n ∉ l) :
    Linked (unlinked s t l₁.getLast? x).next ((unlinked s t l₁.getLast? x).gExcHeads i) l := by
  cases hlast : l₁.getLast? with
  | none =>
    show Linked (s.setHead t (s.next x)).next ((s.setHead t (s.next x)).gExcHeads i) l
    rw [setHead_next, setHead_heads, Function.update_of_ne hi]
    exact h
  | some pre =>
    show Linked (s.setNext pre (s.next x)).next ((s.setNext pre (s.next x)).gExcHeads i) l
    rw [setNext_next, setNext_heads]
    apply linked_congr h
    intro a ha
    apply Function.update_of_ne
    intro heq
    subst heq
    exact hout a (List.mem_of_getLast? hlast) ha

omit [HookConfig] in
theorem releaseNode_eq {pre : Option Nat} :
    releaseNode s t pre x = ((unlinked s t pre x).setFn x none).push excTypeEnd x := by
  cases pre <;> rfl

theorem releaseNode_linked (hinv : HookInv s lists) (ht : t < excTypeEnd)
    (hlist : lists t = l₁ ++ x :: l₂) (u : Nat) :
    Linked (releaseNode s t l₁.getLast? x).next ((releaseNode s t l₁.getLast? x).gExcHeads u)
      (moved lists t excTypeEnd l₁ l₂ x u) := by
  have hne : t ≠ excTypeEnd := by omega
  have hin : ∀ n ∈ l₁ ++ x :: l₂, ∀ u, u ≠ t → n ∉ lists u := by
    intro n hn u hu hn'
    rw [← hlist] at hn
    exact hu (hinv.parts.apart u t n hn' hn)
  have hx : x ∈ l₁ ++ x :: l₂ := List.mem_append_right _ List.mem_cons_self
  have hnd := hinv.parts.nodup t
  rw [hlist] at hnd
  rw [releaseNode_eq]
  -- the free list was made when `x` came from it
  have hfree : Linked s.next (s.gExcHeads excTypeEnd) (lists excTypeEnd) := by
    cases hinv.freeList with
    | inl hmade => exact hmade.2
    | inr hunmade =>
      have hnil := lists_unmade hinv.parts hunmade.2 hne
      rw [hlist] at hnil
      exact absurd hnil (List.append_ne_nil_of_right_ne_nil _ nofun)
  have hothers : ∀ u, u ≠ t → Linked s.next (s.gExcHeads u) (lists u) := by
    intro u _
    by_cases hue : u = excTypeEnd
    · subst hue
      exact hfree
    · exact hinv.linked u hue
  have hstay : ∀ u, u ≠ t → Linked ((unlinked s t l₁.getLast? x).setFn x none).next
      (((unlinked s t l₁.getLast? x).setFn x none).gExcHeads u) (lists u) := by
    intro u hu
    rw [setFn_next, setFn_heads]
    apply unlinked_other (hothers u hu) hu
    exact fun n hn => hin n (List.mem_append_left _ hn) u hu
  by_cases hue : u = excTypeEnd
  · subst hue
    rw [moved_target]
    exact push_linked (hstay _ hne.symm) (hin x hx _ hne.symm)
  · by_cases hut : u = t
    · subst hut
      rw [moved_source hne]
      have hcut := hinv.linked u hne
      rw [hlist] at hcut
      apply push_other _ hne (List.nodup_cons.mp (List.nodup_middle.mp hnd)).1
      rw [setFn_next, setFn_heads]
      exact unlinked_linked hcut hnd
    · rw [moved_other hut hue]
      exact push_other (hstay u hut) hue (hin x hx u hut)

/-- Of the nodes that hold the function, only the first one leaves: from it, the loop goes on in the
free list, whose nodes hold nothing. -/
theorem losUnRegExcHook_spec (hinv : HookInv s lists) (ht : t < excTypeEnd) :
    ((∀ n ∈ lists t, s.fn n ≠ some f) ∧ losUnRegExcHook s t (some f) = some (s, .losOk)) ∨
      ∃ l₁ x l₂ s', lists t = l₁ ++ x :: l₂ ∧ (∀ n ∈ l₁, s.fn n ≠ some f) ∧ s.fn x = some f ∧
        losUnRegExcHook s t (some f) = some (s', .losOk) ∧ s'.fn = Function.update s.fn x none ∧
        HookInv s' (moved lists t excTypeEnd l₁ l₂ x) := by
  have hne : t ≠ excTypeEnd := by omega
  have hlt : ¬ excTypeEnd ≤ t := by omega
  have hlinked := hinv.linked t hne
  have hlength := partition_length hinv.parts hne
  cases hfind : (lists t).find? (fun n => decide (s.fn n = some f)) with
  | none =>
    left
    have hnot : ∀ n ∈ lists t, s.fn n ≠ some f := by
      intro n hn
      simpa using List.find?_eq_none.mp hfind n hn
    refine ⟨hnot, ?_⟩
    rw [losUnRegExcHook, if_neg hlt, unRegLoop_none hlinked hnot (by omega)]
  | some x =>
    right
    obtain ⟨hx, l₁, l₂, hlist, hbefore⟩ := List.find?_eq_some_iff_append.mp hfind
    have hx : s.fn x = some f := of_decide_eq_true hx
    have hnot : ∀ n ∈ l₁, s.fn n ≠ some f := by
      intro n hn
      simpa using hbefore n hn
    have hcells := releaseNode_linked hinv ht hlist
    have hfn : (releaseNode s t l₁.getLast? x).fn = Function.update s.fn x none := by
      rw [releaseNode_eq, push_fn, setFn_fn, unlinked_fn]
    have hinv' := inv_moved hinv hne (Nat.le_of_lt ht) (Nat.le_refl _) hlist hfn
      (iff_of_true rfl rfl) hcells
    refine ⟨l₁, x, l₂, releaseNode s t l₁.getLast? x, hlist, hnot, hx, ?_, hfn, hinv'⟩
    -- the rest of the walk is the free list that was there before
    have hrest := hcells excTypeEnd
    rw [moved_target] at hrest
    have hempty : ∀ n ∈ lists excTypeEnd, (releaseNode s t l₁.getLast? x).fn n ≠ some f := by
      intro n hn
      have hnone := hinv'.empty n
      rw [moved_target] at hnone
      rw [hnone (List.mem_cons_of_mem _ hn)]
      intro h
      cases h
    rw [hlist, List.length_append, List.length_cons] at hlength
    obtain ⟨k, hk⟩ : ∃ k, hookLimit = l₁.length + (k + 1) :=
      ⟨hookLimit - l₁.length - 1, by omega⟩
    rw [hlist] at hlinked
    rw [losUnRegExcHook, if_neg hlt, hk, unRegLoop_first hlinked hnot, Option.or_none, unRegLoop, if_pos hx]
    rw [unRegLoop_none hrest.2 hempty (by omega)]

/-! ### The calls -/

omit [HookConfig] in
theorem doExcHookInRegOrder_eq {fuel : Nat} {p : Option Nat} (h : Linked s.next p l)
    (hheld : ∀ n ∈ l, s.fn n ≠ none) (hfuel : l.length ≤ fuel) :
    doExcHookInRegOrder s t fuel p = some ((l.filterMap s.fn).reverse.map fun f => (f, t)) := by
  induction l generalizing fuel p with
  | nil =>
    cases h
    cases fuel <;> rfl
  | cons n l ih =>
    obtain ⟨rfl, htail⟩ := h
    cases fuel with
    | zero => cases hfuel
    | succ fuel =>
      cases hn : s.fn n with
      | none => exact absurd hn (hheld n List.mem_cons_self)
      | some f =>
        rw [doExcHookInRegOrder, ih htail (fun m hm => hheld m (List.mem_cons_of_mem _ hm))
          (Nat.le_of_succ_le_succ hfuel), List.filterMap_cons_some hn, hn]
        simp

theorem doExcHook_eq (hinv : HookInv s lists) (ht : t < excTypeEnd) :
    doExcHook s t = some (((lists t).filterMap s.fn).reverse.map fun f => (f, t)) := by
  have hne : t ≠ excTypeEnd := by omega
  have hlength := partition_length hinv.parts hne
  rw [doExcHook, if_neg (by omega)]
  exact doExcHookInRegOrder_eq (hinv.linked t hne) (hinv.held t hne) (by omega)

end

end LiteosM.Exchook
