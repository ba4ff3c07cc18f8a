import LiteosM.Kernel.Boot
import LiteosM.Kernel.WaitList

/-!
# Pools of control blocks

The control blocks of a kind of object are numbered, and each has a node that is the header of
a wait list while the object exists and a member of the list of unused blocks otherwise.
-/

namespace LiteosM.Kernel

open LiteosM.Lib.DlList

/-- The counts of the objects are `UINT16`. -/
instance uint16_neZero : NeZero 65536 := ⟨by decide⟩

variable [Config]

/-- The lists of unused control blocks. -/
inductive IsPool : Node → Prop
  | sem : IsPool .gUnusedSemList
  | mux : IsPool .gUnusedMuxList
  | queue : IsPool .gFreeQueueList

structure PoolInv (pool : Node) (list : Nat → WaitList) (limit : Nat) (used : Nat → Bool)
    (k : KernelState) (V : View Node) : Prop where
  machine : Machine k V
  head : V.role pool = .head
  taken : ∀ m < limit, used m = true → V.role (.wait (list m)) = .head
  spare : ∀ x, V.role x = .member pool ↔ ∃ m < limit, x = .wait (list m) ∧ used m = false

/-- An object comes or goes, and the tasks do not notice. -/
structure Relinked (k : KernelState) (V : View Node) (k' : KernelState) (V' : View Node) : Prop where
  same : k' = { k with links := k'.links }
  place : ∀ t, V'.role (.pendList t) = V.role (.pendList t)
  content : ∀ l, V'.content (.wait l) = V.content (.wait l)

def Blank (V : View Node) (l : WaitList) : Prop :=
  V.role (.wait l) = .loose ∨ (V.role (.wait l) = .head ∧ V.content (.wait l) = [])

section

variable {pool : Node} {list : Nat → WaitList} {limit m : Nat} {used : Nat → Bool} {k k' : KernelState}
  {V V' : View Node}

omit [Config] in
theorem IsPool.isObject (hp : IsPool pool) : pool.isObject = true := by
  cases hp <;> rfl

omit [Config] in
theorem IsPool.not_wait (hp : IsPool pool) (l : WaitList) : pool ≠ .wait l := by
  cases hp <;> simp

theorem IsPool.not_pendList (hp : IsPool pool) {t : Nat} (hm : Machine k V) :
    V.role (.pendList t) ≠ .member pool := by
  intro h
  have hf := (hm.inv.core.fits _ _ h).2
  cases hp <;> simp at hf

theorem IsPool.not_sortLinkNode (hp : IsPool pool) {t : Nat} (hm : Machine k V) :
    V.role (.sortLinkNode t) ≠ .member pool := by
  intro h
  have hf := (hm.inv.core.fits _ _ h).2
  cases hp <;> cases hf

omit [Config] in
theorem Relinked.refl (k : KernelState) (V : View Node) : Relinked k V k V :=
  ⟨rfl, fun _ => rfl, fun _ => rfl⟩

theorem PoolInv.kernel (hi : PoolInv pool list limit used k V) (hp : IsPool pool) (hm : Machine k' V')
    (hrole : ∀ y, (∀ t, y ≠ .pendList t) → (∀ t, y ≠ .sortLinkNode t) → V'.role y = V.role y) :
    PoolInv pool list limit used k' V' := by
  have hpool : V'.role pool = V.role pool := by
    apply hrole <;> intro t <;> cases hp <;> simp
  have hmem : ∀ x, V'.role x = .member pool ↔ V.role x = .member pool := by
    intro x
    cases x with
    | pendList t => exact iff_of_false (hp.not_pendList hm) (hp.not_pendList hi.machine)
    | sortLinkNode t => exact iff_of_false (hp.not_sortLinkNode hm) (hp.not_sortLinkNode hi.machine)
    | _ => rw [hrole _ (by simp) (by simp)]
  refine ⟨hm, hpool.trans hi.head, fun m hlt hu => ?_, fun x => (hmem x).trans (hi.spare x)⟩
  rw [hrole _ (by simp) (by simp)]
  exact hi.taken m hlt hu

theorem PoolInv.relink (hi : PoolInv pool list limit used k V) (hp : IsPool pool)
    (hinj : ∀ a b, list a = list b → a = b) (hlt : m < limit) (b : Bool) {l : Store Node}
    (hf : Forest l V') (hrole : ∀ y, y ≠ .wait (list m) → V'.role y = V.role y)
    (hself : V'.role (.wait (list m)) = if b then .head else .member pool) :
    PoolInv pool list limit (Function.update used m b) { k with links := l } V' := by
  have hm : Machine { k with links := l } V' := by
    refine hi.machine.relink hf (fun y hy => hrole y fun he => ?_) fun y h hy hyr => ?_
    · rw [he] at hy
      cases hy
    · by_cases hym : y = .wait (list m)
      · rw [hym, hself] at hyr
        cases b with
        | true => cases hyr
        | false =>
          injection hyr with hyr
          rw [hym, ← hyr]
          cases hp with
          | sem => exact .inl rfl
          | mux => exact .inr (.inl rfl)
          | queue => exact .inr (.inr rfl)
      · rw [hrole y hym] at hyr
        exact hi.machine.inv.core.fits y h hyr
  refine ⟨hm, (hrole _ (hp.not_wait _)).trans hi.head, fun m' hlt' hu => ?_, fun x => ?_⟩
  · by_cases hmm : m' = m
    · rw [hmm, Function.update_self] at hu
      rw [hmm, hself, if_pos hu]
    · rw [Function.update_of_ne hmm] at hu
      rw [hrole _ fun he => hmm (hinj _ _ (by simpa using he))]
      exact hi.taken m' hlt' hu
  · by_cases hx : x = .wait (list m)
    · rw [hx, hself]
      constructor
      · intro h
        refine ⟨m, hlt, rfl, ?_⟩
        rw [Function.update_self]
        cases b with
        | false => rfl
        | true => cases h
      · rintro ⟨m', _, he, hu⟩
        have hmm : m = m' := hinj _ _ (by simpa using he)
        rw [← hmm, Function.update_self] at hu
        rw [hu]
        rfl
    · rw [hrole x hx, hi.spare x]
      refine exists_congr fun m' => and_congr_right fun _ => and_congr_right fun he => ?_
      have hmm : m' ≠ m := by
        rintro rfl
        exact hx he
      rw [Function.update_of_ne hmm]

theorem PoolInv.take (hi : PoolInv pool list limit used k V) (hp : IsPool pool)
    (hinj : ∀ a b, list a = list b → a = b) (hne : ¬ losListEmpty k pool = true) :
    ∃ m < limit, used m = false ∧ losDlListFirst k pool = .wait (list m) ∧
      V.content (.wait (list m)) = [] ∧ ∃ V',
      PoolInv pool list limit (Function.update used m true)
        (losListInit (losListDelete k (.wait (list m))) (.wait (list m))) V' ∧
      Relinked k V (losListInit (losListDelete k (.wait (list m))) (.wait (list m))) V' ∧
      ∀ y, y ≠ .wait (list m) → V'.role y = V.role y := by
  have hf := hi.machine.inv.core.ready.forest
  obtain ⟨x, l, hcon⟩ : ∃ x l, V.content pool = x :: l := by
    cases hc : V.content pool with
    | nil => exact absurd ((hf.listEmpty_iff hi.head).mpr hc) hne
    | cons x l => exact ⟨x, l, rfl⟩
  have hx : V.role x = .member pool := by
    rw [← hf.mem, hcon]
    exact List.mem_cons_self
  obtain ⟨m, hlt, rfl, hu⟩ := (hi.spare x).mp hx
  have hf1 := hf.listDelete .null hx
  have hloose : (V.remove (.wait (list m))).role (.wait (list m)) = .loose := by
    rw [View.remove_role, if_pos rfl]
  have hf2 := hf1.listInit hloose
  have hrole : ∀ y, y ≠ .wait (list m) → ((V.remove (.wait (list m))).setRole
      (.wait (list m)) .head).role y = V.role y := by
    intro y hy
    rw [View.setRole_role, if_neg hy, View.remove_role, if_neg hy]
  refine ⟨m, hlt, hu, hf.next_first hi.head hcon, hf.content_loose (by rw [hx]; simp), _,
    hi.relink hp hinj hlt true hf2 hrole ?_, ⟨rfl, fun t => hrole _ (by simp), fun l => ?_⟩, hrole⟩
  · rw [View.setRole_role, if_pos rfl, if_pos rfl]
  · refine List.erase_of_not_mem fun h => ?_
    have hrl := (hf.mem _ _).mp h
    rw [hx] at hrl
    injection hrl with hrl
    exact hp.not_wait _ hrl

omit [Config] in
theorem Blank.content_nil {l : WaitList} (hb : Blank V l) (hf : Forest k.links V) : V.content (.wait l) = [] := by
  rcases hb with h | h
  · exact hf.content_loose (by rw [h]; simp)
  · exact h.2

theorem PoolInv.header {l : WaitList} (hi : PoolInv pool list limit used k V) (hp : IsPool pool)
    (hb : Blank V l) (hl : ∀ m, l ≠ list m) :
    ∃ V', PoolInv pool list limit used (losListInit k (.wait l)) V' ∧
      Relinked k V (losListInit k (.wait l)) V' ∧ V'.role (.wait l) = .head ∧
      ∀ y, y ≠ .wait l → V'.role y = V.role y := by
  have hf := hi.machine.inv.core.ready.forest
  obtain ⟨V1, hm1, hloose, hrole1, hcontent1⟩ : ∃ V1, Machine k V1 ∧ V1.role (.wait l) = .loose ∧
      (∀ y, y ≠ .wait l → V1.role y = V.role y) ∧ V1.content = V.content := by
    rcases hb with h | ⟨h, hnil⟩
    · exact ⟨V, hi.machine, h, fun _ _ => rfl, rfl⟩
    · refine ⟨V.setRole (.wait l) .loose, hi.machine.setRole (by simp) (hf.retire h hnil), ?_,
        fun y hy => ?_, rfl⟩
      · rw [View.setRole_role, if_pos rfl]
      · rw [View.setRole_role, if_neg hy]
  have hf2 := hm1.inv.core.ready.forest.listInit hloose
  have hm2 := hm1.setRole (l := l) (r := .head) (by simp) hf2
  have hrole : ∀ y, y ≠ .wait l → (V1.setRole (.wait l) .head).role y = V.role y := by
    intro y hy
    rw [View.setRole_role, if_neg hy, hrole1 y hy]
  have hself : (V1.setRole (.wait l) .head).role (.wait l) = .head := by
    rw [View.setRole_role, if_pos rfl]
  refine ⟨_, ⟨hm2, (hrole _ (hp.not_wait l)).trans hi.head, fun m hm hu => ?_, fun x => ?_⟩,
    ⟨rfl, fun t => hrole _ (by simp), fun l' => ?_⟩, hself, hrole⟩
  · rw [hrole _ fun he => hl m (by simpa using he.symm)]
    exact hi.taken m hm hu
  · by_cases hx : x = .wait l
    · rw [hx, hself]
      refine iff_of_false (fun h => by cases h) ?_
      rintro ⟨m, _, he, _⟩
      exact hl m (by simpa using he)
    · rw [hrole x hx]
      exact hi.spare x
  · rw [View.setRole_content, hcontent1]

omit [Config] in
theorem losListInit_comm {x y : Node} (h : x ≠ y) :
    losListInit (losListInit k x) y = losListInit (losListInit k y) x := by
  simp only [losListInit, listInit, setNext, setPrev, Function.update_comm h]

omit [Config] in
theorem Relinked.trans {k'' : KernelState} {V'' : View Node} (h₁ : Relinked k V k' V')
    (h₂ : Relinked k' V' k'' V'') : Relinked k V k'' V'' := by
  refine ⟨?_, fun t => (h₂.place t).trans (h₁.place t), fun l => (h₂.content l).trans (h₁.content l)⟩
  have h := h₂.same
  rw [h₁.same] at h
  exact h

theorem PoolInv.give (hi : PoolInv pool list limit used k V) (hp : IsPool pool)
    (hinj : ∀ a b, list a = list b → a = b) (hlt : m < limit) (hu : used m = true)
    (hnil : V.content (.wait (list m)) = []) :
    ∃ V', PoolInv pool list limit (Function.update used m false)
        (losListAdd k pool (.wait (list m))) V' ∧
      Relinked k V (losListAdd k pool (.wait (list m))) V' ∧
      ∀ y, y ≠ .wait (list m) → V'.role y = V.role y := by
  have hf := hi.machine.inv.core.ready.forest
  have hf1 := hf.retire (hi.taken m hlt hu) hnil
  have hpool : (V.setRole (.wait (list m)) .loose).role pool = .head := by
    rw [View.setRole_role, if_neg (hp.not_wait _)]
    exact hi.head
  have hf2 := hf1.listAdd hpool (x := .wait (list m)) (by rw [View.setRole_role, if_pos rfl])
  have hrole : ∀ y, y ≠ .wait (list m) → ((V.setRole (.wait (list m)) .loose).put
      (.wait (list m)) pool (.wait (list m) ::
        (V.setRole (.wait (list m)) .loose).content pool)).role y = V.role y := by
    intro y hy
    rw [View.put_role, if_neg hy, View.setRole_role, if_neg hy]
  refine ⟨_, hi.relink hp hinj hlt false hf2 hrole ?_, ⟨rfl, fun t => hrole _ (by simp), fun l => ?_⟩,
    hrole⟩
  · rw [View.put_role, if_pos rfl]
    rfl
  · rw [View.put_content, if_neg (hp.not_wait _).symm, View.setRole_content]

omit [Config] in
theorem poolInit_forest (hf : Forest k.links V) (hhead : V.role pool = .head) (hp : IsPool pool)
    (hinj : ∀ a b, list a = list b → a = b) (hloose : ∀ m, V.role (.wait (list m)) = .loose) (n : Nat) :
    ∃ V', Forest ((List.range n).foldl (fun k index =>
        losListTailInsert k pool (.wait (list index))) k).links V' ∧
      (List.range n).foldl (fun k index => losListTailInsert k pool (.wait (list index))) k =
        { k with links := ((List.range n).foldl (fun k index =>
          losListTailInsert k pool (.wait (list index))) k).links } ∧
      (∀ m < n, V'.role (.wait (list m)) = .member pool) ∧
      ∀ y, (∀ m < n, y ≠ .wait (list m)) → V'.role y = V.role y := by
  induction n with
  | zero => exact ⟨V, hf, rfl, fun m hm => absurd hm (Nat.not_lt_zero m), fun _ _ => rfl⟩
  | succ n ih =>
    obtain ⟨V1, hf1, hk1, hin1, hout1⟩ := ih
    rw [List.range_succ, List.foldl_append, List.foldl_cons, List.foldl_nil]
    generalize (List.range n).foldl (fun k index => losListTailInsert k pool (.wait (list index))) k = k1
      at hf1 hk1 ⊢
    have hhead1 : V1.role pool = .head := by
      rw [hout1 _ fun _ _ => hp.not_wait _]
      exact hhead
    have hl : V1.role (.wait (list n)) = .loose := by
      rw [hout1 _ fun m hm he => ?_]
      · exact hloose n
      · have hnm : n = m := hinj _ _ (by simpa using he)
        omega
    refine ⟨_, hf1.listTailInsert hhead1 hl, ?_, fun m hm => ?_, fun y hy => ?_⟩
    · exact congrArg (fun k : KernelState => { k with
        links := listTailInsert k1.links pool (.wait (list n)) }) hk1
    · rw [View.put_role]
      by_cases hmn : m = n
      · rw [hmn, if_pos rfl]
      · rw [if_neg fun he => hmn (hinj _ _ (by simpa using he))]
        exact hin1 m (by omega)
    · rw [View.put_role, if_neg (hy n (Nat.lt_succ_self n))]
      exact hout1 y fun m hm => hy m (by omega)

theorem PoolInv.init (hb : Booted k) (hmax : gTaskMaxNum ≤ osInvalid) (hp : IsPool pool)
    (hinj : ∀ a b, list a = list b → a = b) {used : Nat → Bool} (hused : ∀ m < limit, used m = false) :
    ∃ V, PoolInv pool list limit used ((List.range limit).foldl (fun k index =>
        losListTailInsert k pool (.wait (list index))) (losListInit k pool)) V ∧
      (∀ t w, V.role (.pendList t) ≠ .member (.wait w)) ∧
      (∀ y, y.isObject = true → y ≠ pool → (∀ m < limit, y ≠ .wait (list m)) → V.role y = .loose) ∧
      ∀ t < gTaskMaxNum, (((List.range limit).foldl (fun k index =>
        losListTailInsert k pool (.wait (list index))) (losListInit k pool)).gTaskCBArray
          t).taskStatus.timeout = false := by
  obtain ⟨V0, hm0, hloose, _, htime⟩ := booted_machine hmax hb
  have hf0 := hm0.inv.core.ready.forest
  have hf1 := hf0.listInit (hloose pool hp.isObject)
  obtain ⟨V1, hf2, hk1, hin1, hout1⟩ := poolInit_forest (k := losListInit k pool) hf1
    (by rw [View.setRole_role, if_pos rfl]) hp hinj
    (fun m => by rw [View.setRole_role, if_neg (hp.not_wait _).symm]; exact hloose _ rfl) limit
  generalize (List.range limit).foldl (fun k index =>
    losListTailInsert k pool (.wait (list index))) (losListInit k pool) = k1 at hf2 hk1 ⊢
  have hrole : ∀ y, (∀ m < limit, y ≠ .wait (list m)) → y ≠ pool → V1.role y = V0.role y := by
    intro y hy hne
    rw [hout1 y hy, View.setRole_role, if_neg hne]
  have hcases : ∀ y h, y.isObject = true → V1.role y = .member h →
      ∃ m < limit, y = .wait (list m) ∧ h = pool := by
    intro y h hy hyr
    by_cases hex : ∃ m < limit, y = .wait (list m)
    · obtain ⟨m, hm, rfl⟩ := hex
      rw [hin1 m hm] at hyr
      injection hyr with hyr
      exact ⟨m, hm, rfl, hyr.symm⟩
    · have hno : ∀ m < limit, y ≠ .wait (list m) := fun m hm he => hex ⟨m, hm, he⟩
      rw [hout1 y hno, View.setRole_role] at hyr
      split at hyr
      · cases hyr
      · rw [hloose y hy] at hyr
        cases hyr
  have hm1 : Machine k1 V1 := by
    rw [hk1]
    refine hm0.relink hf2 (fun y hy => hrole y (fun m _ he => ?_) fun he => ?_) fun y h hy hyr => ?_
    · rw [he] at hy
      cases hy
    · rw [he, hp.isObject] at hy
      cases hy
    · obtain ⟨m, _, rfl, rfl⟩ := hcases y h hy hyr
      cases hp with
      | sem => exact .inl rfl
      | mux => exact .inr (.inl rfl)
      | queue => exact .inr (.inr rfl)
  refine ⟨V1, ⟨hm1, ?_, fun m hm h => ?_, fun x => ⟨fun h => ?_, ?_⟩⟩, fun t w h => ?_,
    fun y hy hne hno => ?_, fun t ht => ?_⟩
  · rw [hout1 _ fun _ _ => hp.not_wait _, View.setRole_role, if_pos rfl]
  · rw [hused m hm] at h
    cases h
  · have hobj : x.isObject = true := by
      have hfit := hm1.inv.core.fits x _ h
      cases hp <;> cases x <;> simp [Fits, Node.isObject] at hfit ⊢
    obtain ⟨m, hm, hx, _⟩ := hcases x _ hobj h
    exact ⟨m, hm, hx, hused m hm⟩
  · rintro ⟨m, hm, rfl, _⟩
    exact hin1 m hm
  · rw [hrole _ (fun _ _ => by simp) (by cases hp <;> simp)] at h
    have hown := hf0.owner _ _ h
    rw [hloose _ rfl] at hown
    cases hown
  · rw [hrole y hno hne]
    exact hloose y hy
  · rw [hk1]
    exact htime t ht

end

end LiteosM.Kernel
