import LiteosM.Heap.Find

/-!
# Taking, cutting and handing out a node
-/

namespace LiteosM.Heap
open Lib.ByteMemory Lib.Word32 Lib.LinkedList

section
variable {pool size : Nat} {m : Memory} {v : Arena} {P : List Nat} {pre post : List Block}
  {ls : Nat → List Nat} {a b : Block}

theorem Rep.index_get (h : Rep pool size m v P) (hb : b ∈ v.blocks) (hfree : b.owner = none) :
    osMemFreeListIndexGet (sizeAndFlag m b.addr) = sizeClass b.size := by
  have hlt := (h.layout.size_lt b hb).1
  have hr := b.room
  rw [h.free_word hb hfree, osMemFreeListIndexGet_eq _ (by omega) (by omega)]

theorem osMemFreeNodeDelete_spec (h : Rep pool size m v P) (hb : b ∈ v.blocks)
    (hfree : b.owner = none) (hbP : b.addr ∉ P) (Q : Nat → Prop) :
    Rep pool size (osMemFreeNodeDelete m pool b.addr) (v.unlist (sizeClass b.size) b.addr)
        (b.addr :: P) ∧
      Steady pool size Q v m (v.unlist (sizeClass b.size) b.addr)
        (osMemFreeNodeDelete m pool b.addr) := by
  unfold osMemFreeNodeDelete
  rw [h.index_get hb hfree]
  exact osMemListDelete_spec h (h.layout.filed b hb hfree hbP) Q

theorem osMemFreeNodeAdd_spec (h : Rep pool size m v (b.addr :: P)) (hb : b ∈ v.blocks)
    (hfree : b.owner = none) (hbP : b.addr ∉ P) (hapart : v.blocks.IsChain (Separated P))
    (Q : Nat → Prop) :
    Rep pool size (osMemFreeNodeAdd m pool b.addr) (v.list (sizeClass b.size) b.addr) P ∧
      Steady pool size Q v m (v.list (sizeClass b.size) b.addr) (osMemFreeNodeAdd m pool b.addr) := by
  have hcl := sizeClass_lt b.size (h.layout.size_lt b hb).1
  have hn : ¬sizeClass b.size ≥ osMemFreeListCount := by
    rw [osMemFreeListCount_eq]
    omega
  unfold osMemFreeNodeAdd
  simp only [h.index_get hb hfree, if_neg hn]
  exact osMemListAdd_spec h hb hfree hbP hapart Q

theorem touches_osMemFreeNodeAdd (h : Rep pool size m v (b.addr :: P)) (hb : b ∈ v.blocks)
    (hfree : b.owner = none) :
    Touches (fun a => ListWord pool v.lists a ∨ a = b.addr + 8 ∨ a = b.addr + 12) m
      (osMemFreeNodeAdd m pool b.addr) := by
  have hcl := sizeClass_lt b.size (h.layout.size_lt b hb).1
  have hbb := h.layout.bounds b hb
  have hn : ¬sizeClass b.size ≥ osMemFreeListCount := by
    rw [osMemFreeListCount_eq]
    omega
  have hhead : freeList m pool (sizeClass b.size) = (v.lists (sizeClass b.size)).headD 0 :=
    links_head (h.lists.links _ (by omega))
  have hne : b.addr ≠ freeList m pool (sizeClass b.size) := by
    rw [hhead]
    cases hl : v.lists (sizeClass b.size) with
    | nil => simp only [List.headD_nil]; omega
    | cons c l =>
      intro he
      exact (h.layout.member _ b.addr (by rw [hl, he]; exact List.mem_cons_self)).1
        List.mem_cons_self
  unfold osMemFreeNodeAdd
  simp only [h.index_get hb hfree, if_neg hn]
  exact touches_osMemListAdd h.layout h.lists _ (by omega) hb hfree (by omega) hne

theorem touches_osMemFreeNodeDelete (h : Rep pool size m v P) (hb : b ∈ v.blocks)
    (hfree : b.owner = none) (hbP : b.addr ∉ P) :
    Touches (ListWord pool v.lists) m (osMemFreeNodeDelete m pool b.addr) := by
  have hmem := h.layout.filed b hb hfree hbP
  obtain ⟨l₁, l₂, hl⟩ := List.append_of_mem hmem
  unfold osMemFreeNodeDelete
  rw [h.index_get hb hfree]
  exact touches_osMemListDelete h.layout (neighbours_of_split h.layout h.lists _ _ l₁ l₂ hl)

theorem absorb_next_inside (h : Rep pool size m ⟨pre ++ (a :: b :: post), ls⟩ P)
    (ha : a.owner = none) (hb : b.owner = none) (haP : a.addr ∈ P) (hbP : b.addr ∉ P) (x : Nat)
    (h4 : x % 4 = 0) (hlo : a.addr + 8 ≤ x) (hhi : x < a.addr + a.size) :
    load32 (osMemMergeNode (osMemFreeNodeDelete m pool b.addr) b.addr) x = load32 m x := by
  have hadj := h.layout.adjacent
  have hba := b.aligned
  have hbr := b.room
  have hbw := b.whole
  have haa := a.aligned
  obtain ⟨h1, -⟩ := osMemFreeNodeDelete_spec h (b := b) (by simp) hb hbP fun _ => False
  have hkeep := touches_load32 _ _ _ (touches_osMemFreeNodeDelete h (b := b) (by simp) hb hbP) x h4
    (h.layout.inside_not_list (b := a) (by simp) x (Or.inr (Or.inr ⟨haP, by omega, hhi⟩)))
  rw [Rep.mergeNode_eq h1 ha hb, load32_store32_aligned _ _ _ _ (by omega) h4 (by omega),
    load32_store32_aligned _ _ _ _ (by omega) h4 (by omega)]
  exact hkeep

theorem absorb_prev_head (h : Rep pool size m ⟨pre ++ (a :: b :: post), ls⟩ (b.addr :: P))
    (ha : a.owner = none) (hb : b.owner = none) (haP : a.addr ∉ b.addr :: P) :
    sizeAndFlag (osMemMergeNode (osMemFreeNodeDelete m pool a.addr) b.addr) b.addr =
      sizeAndFlag m b.addr := by
  have hadj := h.layout.adjacent
  have hba := b.aligned
  have hbr := b.room
  have hbw := b.whole
  have haa := a.aligned
  have har := a.room
  obtain ⟨h1, -⟩ := osMemFreeNodeDelete_spec h (b := a) (by simp) ha haP fun _ => False
  have hkeep := touches_load32 _ _ _ (touches_osMemFreeNodeDelete h (b := a) (by simp) ha haP)
    (b.addr + 4) (by omega)
    (h.layout.inside_not_list (b := b) (by simp) _ (Or.inl ⟨by omega, by omega⟩))
  unfold sizeAndFlag
  rw [Rep.mergeNode_eq h1 ha hb, load32_store32_aligned _ _ _ _ (by omega) (by omega) (by omega),
    load32_store32_aligned _ _ _ _ (by omega) (by omega) (by omega)]
  exact hkeep

theorem Layout.settle (h : Layout pool size ⟨pre ++ (b :: post), ls⟩ (b.addr :: P))
    (hleft : ∀ c ∈ pre.getLast?, c.owner = none → c.addr ∈ P)
    (hright : ∀ c ∈ post.head?, c.owner = none → c.addr ∈ P) :
    (pre ++ (b :: post)).IsChain (Separated P) := by
  have other := h.other_addr
  have drop : ∀ c ∈ pre ++ post, c.addr ∈ b.addr :: P → c.addr ∈ P := fun c hc hm =>
    (List.mem_cons.mp hm).resolve_left (other c hc)
  have h1 := List.isChain_append.mp h.apart
  have h2 := List.isChain_cons.mp h1.2.1
  have shrink : ∀ l : List Block, (∀ c ∈ l, c ∈ pre ++ post) →
      l.IsChain (Separated (b.addr :: P)) → l.IsChain (Separated P) := by
    intro l hl hc
    refine hc.imp_of_mem_imp fun c d hcm hdm hcd hcf hdf => ?_
    exact (hcd hcf hdf).imp (drop c (hl c hcm)) (drop d (hl d hdm))
  refine List.isChain_append.mpr ⟨shrink pre (fun c hc => by simp [hc]) h1.1, ?_, ?_⟩
  · refine List.isChain_cons.mpr ⟨fun c hc _ hcf => Or.inr (hright c hc hcf), ?_⟩
    exact shrink post (fun c hc => by simp [hc]) h2.2
  · intro c hc d hd hcf _
    exact Or.inl (hleft c hc hcf)

theorem Layout.after_free (h : Layout pool size ⟨pre ++ (a :: post), ls⟩ P) (ha : a.owner = none)
    (haP : a.addr ∉ P) (c : Block) (hc : c ∈ post.head?) (hcfree : c.owner = none) :
    c.addr ∈ P := by
  have h1 := List.isChain_cons.mp (List.isChain_append.mp h.apart).2.1
  exact (h1.1 c hc ha hcfree).resolve_left haP

theorem Layout.before_free (h : Layout pool size ⟨pre ++ (b :: post), ls⟩ P) (hb : b.owner = none)
    (hbP : b.addr ∉ P) (c : Block) (hc : c ∈ pre.getLast?) (hcfree : c.owner = none) :
    c.addr ∈ P :=
  ((List.isChain_append.mp h.apart).2.2 c hc b rfl hcfree hb).resolve_right hbP

theorem absorb_next (h : Rep pool size m ⟨pre ++ (a :: b :: post), ls⟩ P) (ha : a.owner = none)
    (hb : b.owner = none) (haP : a.addr ∈ P) (hbP : b.addr ∉ P) (Q : Nat → Prop) :
    ∃ ls', Rep pool size (osMemMergeNode (osMemFreeNodeDelete m pool b.addr) b.addr)
        ⟨pre ++ (a.join b :: post), ls'⟩ P ∧
      Steady pool size Q ⟨pre ++ (a :: b :: post), ls⟩ m ⟨pre ++ (a.join b :: post), ls'⟩
        (osMemMergeNode (osMemFreeNodeDelete m pool b.addr) b.addr) := by
  obtain ⟨h1, k1⟩ := osMemFreeNodeDelete_spec h (b := b) (by simp) hb hbP Q
  have hlay : Layout pool size ⟨(pre ++ [a]) ++ (b :: post), ls⟩ P := by simpa using h.layout
  have hother := hlay.other_addr
  obtain ⟨h2, k2⟩ := Rep.merge P h1 ha hb (List.mem_cons_of_mem _ haP) List.mem_cons_self
    (fun c hc => by
      have hne : c.addr ≠ b.addr := hother c (by
        simp only [List.mem_append] at hc ⊢
        tauto)
      simp [hne]) haP Q
  exact ⟨_, h2, k1.trans k2⟩

theorem absorb_prev (h : Rep pool size m ⟨pre ++ (a :: b :: post), ls⟩ (b.addr :: P))
    (ha : a.owner = none) (hb : b.owner = none) (haP : a.addr ∉ b.addr :: P)
    (Q : Nat → Prop) :
    ∃ ls', Rep pool size (osMemMergeNode (osMemFreeNodeDelete m pool a.addr) b.addr)
        ⟨pre ++ (a.join b :: post), ls'⟩ (a.addr :: P) ∧
      Steady pool size Q ⟨pre ++ (a :: b :: post), ls⟩ m ⟨pre ++ (a.join b :: post), ls'⟩
        (osMemMergeNode (osMemFreeNodeDelete m pool a.addr) b.addr) := by
  obtain ⟨h1, k1⟩ := osMemFreeNodeDelete_spec h (b := a) (by simp) ha haP Q
  have hlay : Layout pool size ⟨(pre ++ [a]) ++ (b :: post), ls⟩ (b.addr :: P) := by
    simpa using h.layout
  have hother := hlay.other_addr
  obtain ⟨h2, k2⟩ := Rep.merge (a.addr :: P) h1 ha hb List.mem_cons_self (by simp)
    (fun c hc => by
      have hne : c.addr ≠ b.addr := hother c (by
        simp only [List.mem_append] at hc ⊢
        tauto)
      simp [hne]) List.mem_cons_self Q
  exact ⟨_, h2, k1.trans k2⟩

theorem osMemSplitNode_eq (h : Rep pool size m ⟨pre ++ (a :: post), ls⟩ P) (ha : a.owner = none)
    (s : Nat) (h4 : s % 4 = 0) (h16 : 16 ≤ s) (hs : s + 16 ≤ a.size) :
    osMemSplitNode m pool a.addr s =
      osMemFreeNodeAdd
        (if osMemNodeGetUsedFlag (sizeAndFlag (splitWords m a s) (a.addr + a.size)) = 0 then
          osMemMergeNode (osMemFreeNodeDelete (splitWords m a s) pool (a.addr + a.size))
            (a.addr + a.size)
        else splitWords m a s) pool (a.addr + s) := by
  have haa := a.aligned
  have haw := a.whole
  have halt := h.layout.size_lt a (by simp)
  have hsa : sizeAndFlag (setPrev m (a.addr + s) a.addr) a.addr = a.size :=
    (load32_store32_aligned _ _ _ _ (by omega) (by omega) (by omega)).trans
      (h.free_word (b := a) (by simp) ha)
  have hnew : osMemNextNode (setSizeAndFlag (setSizeAndFlag (setPrev m (a.addr + s) a.addr)
      (a.addr + s) (a.size - s)) a.addr s) (a.addr + s) = a.addr + a.size := by
    have hw : sizeAndFlag (setSizeAndFlag (setSizeAndFlag (setPrev m (a.addr + s) a.addr)
        (a.addr + s) (a.size - s)) a.addr s) (a.addr + s) = a.size - s :=
      (load32_store32_aligned _ _ _ _ (by omega) (by omega) (by omega)).trans
        (load32_store32_same _ _ _ (by omega))
    unfold osMemNextNode
    rw [hw, osMemNodeGetSize_eq, add32_of_lt _ _ (by omega)]
    omega
  unfold osMemSplitNode
  rw [add32_of_lt a.addr s (by omega)]
  simp only [hsa, sub32_of_le a.size s (by omega) (by omega), hnew, osMemNodeGetLastFlag_eq,
    ite_true]
  rfl

/-- Cutting a block in transit: its first `s` bytes stay in transit, the rest is
merged with a free successor and filed. -/
theorem osMemSplitNode_spec (h : Rep pool size m ⟨pre ++ (a :: post), ls⟩ [a.addr])
    (ha : a.owner = none) (s : Nat) (h4 : s % 4 = 0) (h16 : 16 ≤ s) (hs : s + 16 ≤ a.size)
    (Q : Nat → Prop) :
    ∃ v', Rep pool size (osMemSplitNode m pool a.addr s) v' [a.addr] ∧
      Steady pool size Q ⟨pre ++ (a :: post), ls⟩ m v' (osMemSplitNode m pool a.addr s) ∧
      a.take s h4 h16 ∈ v'.blocks ∧
      ∀ x, x % 4 = 0 → a.addr + 8 ≤ x → x < a.addr + s →
        load32 (osMemSplitNode m pool a.addr s) x = load32 m x := by
  have har := a.room
  have haa := a.aligned
  have haw := a.whole
  have hother := h.layout.other_addr
  -- the words behind the head that stay with `a`
  have hcut : ∀ x, x % 4 = 0 → a.addr + 8 ≤ x → x < a.addr + s →
      load32 (splitWords m a s) x = load32 m x := by
    intro x hx hlo hhi
    unfold splitWords
    rw [load32_store32_aligned _ _ _ _ (by omega) hx (by omega),
      load32_store32_aligned _ _ _ _ (by omega) hx (by omega),
      load32_store32_aligned _ _ _ _ (by omega) hx (by omega),
      load32_store32_aligned _ _ _ _ (by omega) hx (by omega)]
  obtain ⟨h1, k1⟩ := h.split ha List.mem_cons_self s h4 h16 hs Q
  rw [osMemSplitNode_eq h ha s h4 h16 hs]
  have h1' : Rep pool size (splitWords m a s)
      ⟨(pre ++ [a.take s h4 h16]) ++ (a.drop s h4 hs :: post), ls⟩ [a.addr + s, a.addr] := by
    simpa using h1
  have hend : (a.drop s h4 hs).addr + (a.drop s h4 hs).size = a.addr + a.size := by
    show a.addr + s + (a.size - s) = _
    omega
  have hflag := h1'.next_flag
  rw [hend] at hflag
  have hleft : ∀ c ∈ (pre ++ [a.take s h4 h16]).getLast?, c.owner = none → c.addr ∈ [a.addr] := by
    intro c hc _
    have hc : a.take s h4 h16 = c := by simpa using hc
    rw [← hc]
    exact List.mem_cons_self
  have hsP : a.addr + s ∉ [a.addr] := by
    simp only [List.mem_singleton]
    omega
  by_cases hfree : ∃ c post', post = c :: post' ∧ c.owner = none
  · rw [if_pos (hflag.mpr hfree)]
    obtain ⟨c, post', rfl, hc⟩ := hfree
    have hcadj : c.addr = a.addr + a.size := h.layout.adjacent
    rw [← hcadj]
    have hcP : c.addr ∉ [a.addr + s, a.addr] := by
      simp only [List.mem_cons, List.not_mem_nil, or_false]
      omega
    have h1'' : Rep pool size (splitWords m a s)
        ⟨(pre ++ [a.take s h4 h16]) ++ (a.drop s h4 hs :: c :: post'), ls⟩ [a.addr + s, a.addr] := h1'
    obtain ⟨ls', h2, k2⟩ := absorb_next (a := a.drop s h4 hs) (b := c) h1' rfl hc
      (by simp [Block.drop]) hcP Q
    have hright : ∀ d ∈ post'.head?, d.owner = none → d.addr ∈ [a.addr] := by
      intro d hd hdfree
      have hlay : Layout pool size ⟨(pre ++ [a]) ++ (c :: post'), ls⟩ [a.addr] := by
        simpa using h.layout
      refine hlay.after_free hc ?_ d hd hdfree
      exact fun hm => hcP (List.mem_cons_of_mem _ hm)
    obtain ⟨h3, k3⟩ := osMemFreeNodeAdd_spec (b := (a.drop s h4 hs).join c) h2 (by simp) rfl hsP
      (h2.layout.settle (b := (a.drop s h4 hs).join c) hleft hright) Q
    have k1' : Steady pool size Q ⟨pre ++ (a :: c :: post'), ls⟩ m
        ⟨(pre ++ [a.take s h4 h16]) ++ (a.drop s h4 hs :: c :: post'), ls⟩ (splitWords m a s) := by
      simpa using k1
    refine ⟨_, h3, k1'.trans (k2.trans k3), by simp [Arena.list], fun x hx hlo hhi => ?_⟩
    have hdel := touches_load32 _ _ _ (touches_osMemFreeNodeDelete (b := c) h1'' (by simp) hc hcP) x
      hx (h1''.layout.inside_not_list (b := a.take s h4 h16) (by simp) x
        (Or.inr (Or.inr ⟨by simp [Block.take], by show a.addr ≤ x; omega, hhi⟩)))
    have hadd := touches_load32 _ _ _
      (touches_osMemFreeNodeAdd (b := (a.drop s h4 hs).join c) h2 (by simp) rfl) x hx (by
        rintro (hl | hl)
        · exact h2.layout.inside_not_list (b := a.take s h4 h16) (by simp) x
            (Or.inr (Or.inr ⟨by simp [Block.take], by show a.addr ≤ x; omega, hhi⟩)) hl
        · have hl : x = a.addr + s + 8 ∨ x = a.addr + s + 12 := hl
          omega)
    refine hadd.trans (Eq.trans ?_ (hdel.trans (hcut x hx hlo hhi)))
    obtain ⟨hd, -⟩ := osMemFreeNodeDelete_spec (b := c) h1'' (by simp) hc hcP fun _ => False
    have hmerge := Rep.mergeNode_eq (a := a.drop s h4 hs) (b := c) hd rfl hc
    rw [hmerge]
    have hcr := c.room
    have hcw := c.whole
    have hca := c.aligned
    rw [load32_store32_aligned _ _ _ _ (by omega) hx (by omega), load32_store32_aligned _ _ _ _ ?_ hx ?_]
    · show (a.addr + s + 4) % 4 = 0
      omega
    · show x ≠ a.addr + s + 4
      omega
  · rw [if_neg fun hz => hfree (hflag.mp hz)]
    have hright : ∀ d ∈ post.head?, d.owner = none → d.addr ∈ [a.addr] := by
      intro d hd hdfree
      cases post with
      | nil => cases hd
      | cons c post' =>
        have hcd : c = d := by simpa using hd
        exact absurd ⟨c, post', rfl, hcd ▸ hdfree⟩ hfree
    obtain ⟨h3, k3⟩ := osMemFreeNodeAdd_spec (b := a.drop s h4 hs) h1' (by simp) rfl hsP
      (h1'.layout.settle (b := a.drop s h4 hs) hleft hright) Q
    have k1' : Steady pool size Q ⟨pre ++ (a :: post), ls⟩ m
        ⟨(pre ++ [a.take s h4 h16]) ++ (a.drop s h4 hs :: post), ls⟩ (splitWords m a s) := by
      simpa using k1
    refine ⟨_, h3, k1'.trans k3, by simp [Arena.list], fun x hx hlo hhi => ?_⟩
    refine Eq.trans ?_ (hcut x hx hlo hhi)
    refine touches_load32 _ _ _ (touches_osMemFreeNodeAdd (b := a.drop s h4 hs) h1' (by simp) rfl)
      x hx ?_
    rintro (hl | hl)
    · exact h1'.layout.inside_not_list (b := a.take s h4 h16) (by simp) x
        (Or.inr (Or.inr ⟨by simp [Block.take], by show a.addr ≤ x; omega, hhi⟩)) hl
    · have hl : x = a.addr + s + 8 ∨ x = a.addr + s + 12 := hl
      omega

/-! ### OsMemAlloc -/

theorem osMemFreeNodeGet_spec (h : Rep pool size m v []) (s : Nat) (h4 : s % 4 = 0)
    (h16 : 16 ≤ s) (hs : s < 1140850688) (Q : Nat → Prop) :
    (osMemFreeNodeGet m pool s = (m, 0) ∧ (osMemFindNextSuitableBlock m pool s).1 = 0) ∨
    ∃ b ∈ v.blocks, ∃ ls' m', osMemFreeNodeGet m pool s = (m', b.addr) ∧ b.owner = none ∧
      b.addr ≠ 0 ∧ (osMemFindNextSuitableBlock m pool s).1 = b.addr ∧
      (Orderly size s → s ≤ b.size) ∧ Rep pool size m' ⟨v.blocks, ls'⟩ [b.addr] ∧
      Steady pool size Q v m ⟨v.blocks, ls'⟩ m' := by
  unfold osMemFreeNodeGet
  obtain hz | ⟨b, hb, hbn, hmem, hsize⟩ := osMemFindNextSuitableBlock_spec h s h4 h16 hs
  · exact Or.inl ⟨if_pos hz, hz⟩
  · obtain ⟨c, hc, hcb, hfree, _, h0⟩ := h.layout.listed _ _ hmem
    have hbc := h.layout.addr_inj c b hc hb hcb
    obtain ⟨h1, k1⟩ := osMemListDelete_spec h hmem Q
    refine Or.inr ⟨b, hb, _, _, ?_, hbc ▸ hfree, h0, hbn.symm, hsize, h1, k1⟩
    rw [hbn] at h0 ⊢
    exact if_neg h0

theorem osMemWaterUsedRecord_touches (m : Memory) (hp : pool % 4 = 0) (s : Nat) :
    Touches (StatWord pool) m (osMemWaterUsedRecord m pool s) := by
  have h1 : Touches (StatWord pool) m
      (setCurUsedSize m pool (add32 (curUsedSize m pool) s)) :=
    touches_store32 _ _ _ _ (by omega) (Or.inr (Or.inl rfl))
  unfold osMemWaterUsedRecord
  simp only
  split
  · exact touches_trans _ _ _ _ h1 (touches_store32 _ _ _ _ (by omega) (Or.inl rfl))
  · exact h1

theorem osMemWaterUsedRecord_spec (m : Memory) (hp : pool % 4 = 0) (s : Nat) :
    curUsedSize (osMemWaterUsedRecord m pool s) pool = add32 (curUsedSize m pool) s ∧
      waterLine (osMemWaterUsedRecord m pool s) pool =
        max (waterLine m pool) (add32 (curUsedSize m pool) s) ∧
      nextPool (osMemWaterUsedRecord m pool s) pool = nextPool m pool := by
  have hlt := add32_lt (curUsedSize m pool) s
  generalize hu : add32 (curUsedSize m pool) s = u at hlt
  have hcur : curUsedSize (setCurUsedSize m pool u) pool = u := load32_store32_same _ _ _ hlt
  have hline : waterLine (setCurUsedSize m pool u) pool = waterLine m pool :=
    load32_store32_aligned _ _ _ _ (by omega) (by omega) (by omega)
  have hnext : nextPool (setCurUsedSize m pool u) pool = nextPool m pool :=
    load32_store32_aligned _ _ _ _ (by omega) (by omega) (by omega)
  unfold osMemWaterUsedRecord
  simp only [hu, hcur, hline]
  split
  · refine ⟨?_, ?_, ?_⟩
    · exact (load32_store32_aligned _ _ _ _ (by omega) (by omega) (by omega)).trans hcur
    · rw [max_eq_right (by omega)]
      exact load32_store32_same _ _ _ hlt
    · exact (load32_store32_aligned _ _ _ _ (by omega) (by omega) (by omega)).trans hnext
  · exact ⟨hcur, by rw [max_eq_left (by omega)]; exact hline, hnext⟩

theorem mark_used (h : Rep pool size m v [b.addr]) (hb : b ∈ v.blocks) (hfree : b.owner = none)
    (Q : Nat → Prop) (hq : Q (b.addr + 8)) :
    ∃ v' c, Rep pool size (setSizeAndFlag m b.addr
        (osMemNodeSetUsedFlag (sizeAndFlag m b.addr))) v' [] ∧
      Steady pool size Q v m v'
        (setSizeAndFlag m b.addr (osMemNodeSetUsedFlag (sizeAndFlag m b.addr))) ∧
      c ∈ v'.blocks ∧ c.owner = some (b.addr + 8) ∧ c.addr = b.addr ∧ c.size = b.size := by
  have hlt := h.layout.size_lt b hb
  have hba := b.aligned
  have hbr := b.room
  rw [h.free_word hb hfree, osMemNodeSetUsedFlag_eq _ (by omega)]
  obtain ⟨blocks, ls⟩ := v
  obtain ⟨pre, post, rfl⟩ := List.append_of_mem hb
  obtain ⟨h1, k1⟩ := h.own hfree Q hq ⟨by omega, by omega, by omega⟩
  exact ⟨_, b.own (b.addr + 8) ⟨by omega, by omega, by omega⟩, h1, k1, by simp, rfl, rfl, rfl⟩

theorem cut_tail (h : Rep pool size m v [b.addr]) (hb : b ∈ v.blocks) (hfree : b.owner = none)
    (s : Nat) (h4 : s % 4 = 0) (h16 : 16 ≤ s) (hs : s < 1140850688) (Q : Nat → Prop) :
    ∃ v' c, Rep pool size (if add32 s osMemMinLeftSize ≤ b.size then
        osMemSplitNode m pool b.addr s else m) v' [b.addr] ∧
      Steady pool size Q v m v' (if add32 s osMemMinLeftSize ≤ b.size then
        osMemSplitNode m pool b.addr s else m) ∧
      c ∈ v'.blocks ∧ c.addr = b.addr ∧ c.owner = none ∧
      (c.size = if s + 16 ≤ b.size then s else b.size) ∧
      ∀ x, x % 4 = 0 → b.addr + 8 ≤ x → x < b.addr + s →
        load32 (if add32 s osMemMinLeftSize ≤ b.size then
          osMemSplitNode m pool b.addr s else m) x = load32 m x := by
  have hlt := h.layout.size_lt b hb
  unfold osMemMinLeftSize
  rw [add32_of_lt _ _ (by omega)]
  split
  · next hfit =>
    obtain ⟨blocks, ls⟩ := v
    obtain ⟨pre, post, rfl⟩ := List.append_of_mem hb
    obtain ⟨v', h1, k1, hc, hx⟩ := osMemSplitNode_spec h hfree s h4 h16 hfit Q
    exact ⟨v', _, h1, k1, hc, rfl, rfl, rfl, hx⟩
  · exact ⟨v, b, h, Steady.refl _ _, hb, rfl, hfree, rfl, fun _ _ _ _ => rfl⟩

def allocSizeOf (n : Nat) : Nat := (n + 11) / 4 * 4

theorem allocSizeOf_bounds (n : Nat) :
    n + 8 ≤ allocSizeOf n ∧ allocSizeOf n ≤ n + 11 ∧ allocSizeOf n % 4 = 0 := by
  unfold allocSizeOf
  omega

theorem osMemAlign_request (n : Nat) (hn : n < 4294967280) :
    osMemAlign (add32 n osMemNodeHeadSize) osMemAlignSize = allocSizeOf n := by
  unfold osMemNodeHeadSize osMemAlignSize allocSizeOf
  rw [add32_of_lt _ _ (by omega), osMemAlign_word _ (by omega)]

/-- `OsMemAlloc` for a node of `s` bytes took the free block `a`, cut it down to
`b` and handed out the payload right behind the head. -/
structure Taken (pool size : Nat) (m : Memory) (v : Arena) (s : Nat) (r : Memory × Nat)
    (v' : Arena) (a b : Block) : Prop where
  rep : Rep pool size r.1 v' []
  keeps : Keeps pool size (· = r.2) v m v' r.1
  mem : b ∈ v'.blocks
  owner : b.owner = some r.2
  ptr : r.2 = b.addr + 8
  was : a ∈ v.blocks
  free : a.owner = none
  addr : a.addr = b.addr
  found : (osMemFindNextSuitableBlock m pool s).1 = a.addr
  cut : b.size = if s + 16 ≤ a.size then s else a.size
  fits : Orderly size s → s ≤ a.size
  used : curUsedSize r.1 pool = add32 (curUsedSize m pool) b.size
  line : waterLine r.1 pool = max (waterLine m pool) (add32 (curUsedSize m pool) b.size)
  next : nextPool r.1 pool = nextPool m pool

theorem Taken.size_le {s : Nat} {r : Memory × Nat} {v' : Arena}
    (h : Taken pool size m v s r v' a b) : b.size ≤ a.size := by
  have hcut := h.cut
  split at hcut <;> omega

theorem Taken.size_ge {s : Nat} {r : Memory × Nat} {v' : Arena}
    (h : Taken pool size m v s r v' a b) (ho : Orderly size s) : s ≤ b.size := by
  have hcut := h.cut
  have hfits := h.fits ho
  split at hcut <;> omega

theorem osMemAlloc_base (h : Rep pool size m v []) (n : Nat) (h8 : 8 ≤ n) (hn : n < 1073741824) :
    (osMemAlloc m pool n = (m, 0) ∧ (osMemFindNextSuitableBlock m pool (allocSizeOf n)).1 = 0) ∨
    ∃ v' a b, Taken pool size m v (allocSizeOf n) (osMemAlloc m pool n) v' a b := by
  have hp4 := h.layout.region.aligned
  have hbd := allocSizeOf_bounds n
  have hfound : ∀ Q, _ := fun Q => osMemFreeNodeGet_spec h (allocSizeOf n) (by omega) (by omega)
    (by omega) Q
  unfold osMemAlloc
  simp only [osMemAlign_request n (by omega)]
  generalize allocSizeOf n = s at hbd hfound ⊢
  rw [if_neg (by omega)]
  obtain ⟨hget, hzero⟩ | ⟨a, ha, ls', m', hget, hfree, h0, hfind, hfits, -, -⟩ :=
    hfound fun _ => False
  · rw [hget]
    exact Or.inl ⟨if_pos rfl, hzero⟩
  · obtain ⟨hget', _⟩ | ⟨a', ha', ls', m', hget', hfree', h0', hfind', hfits', h1, k1⟩ :=
      hfound (· = a.addr + 8)
    · rw [hget'] at hget
      exact absurd (congrArg Prod.snd hget).symm h0
    obtain rfl := h.layout.addr_inj a' a ha' ha (hfind'.symm.trans hfind)
    rw [hget']
    refine Or.inr ?_
    simp only [if_neg h0]
    have hlt := h1.layout.size_lt a' ha
    obtain ⟨v₂, c, h2, k2, hc, hca, hcfree, hcs, -⟩ := cut_tail h1 ha hfree s (by omega) (by omega)
      (by omega) (· = a'.addr + 8)
    rw [h1.free_word ha hfree]
    generalize (if add32 s osMemMinLeftSize ≤ a'.size then
      osMemSplitNode m' pool a'.addr s else m') = m₂ at h2 k2 ⊢
    rw [← hca] at h2 ⊢
    obtain ⟨v₃, d, h3, k3, hd, hdo, hda, hds⟩ := mark_used h2 hc hcfree (· = a'.addr + 8)
      (by rw [hca])
    have k : Steady pool size (· = a'.addr + 8) v m v₃ _ := (k1.trans k2).trans k3
    have hdlt := (h3.layout.size_lt d hd).1
    have hsize : osMemNodeGetSize (sizeAndFlag (setSizeAndFlag m₂ c.addr
        (osMemNodeSetUsedFlag (sizeAndFlag m₂ c.addr))) c.addr) = d.size := by
      have hz := (h3.node_flags hd).1
      rwa [hda] at hz
    rw [hsize]
    generalize setSizeAndFlag m₂ c.addr (osMemNodeSetUsedFlag (sizeAndFlag m₂ c.addr)) = m₃
      at h3 k ⊢
    obtain ⟨h4, k4⟩ := h3.stat (osMemWaterUsedRecord_touches m₃ hp4 d.size) (· = a'.addr + 8)
    obtain ⟨hused, hline, hnext⟩ := osMemWaterUsedRecord_spec m₃ hp4 d.size
    have hcur : curUsedSize m₃ pool = curUsedSize m pool := k.stats _ (Or.inr (Or.inl rfl))
    have hwater : waterLine m₃ pool = waterLine m pool := k.stats _ (Or.inl rfl)
    have hnext' : nextPool m₃ pool = nextPool m pool := k.stats _ (Or.inr (Or.inr rfl))
    have hptr : osMemCreateUsedNode c.addr = a'.addr + 8 := by rw [hca]; rfl
    rw [hptr]
    exact ⟨v₃, a', d, {
      rep := h4
      keeps := k.toKeeps.trans k4
      mem := hd
      owner := by rw [hdo, hca]
      ptr := by rw [hda, hca]
      was := ha
      free := hfree
      addr := by rw [hda, hca]
      found := hfind
      cut := by rw [hds, hcs]
      fits := hfits
      used := by rw [hused, hcur]
      line := by rw [hline, hwater, hcur]
      next := hnext.trans hnext' }⟩

def Charged (pool : Nat) (m : Memory) (b : Block) (m' : Memory) : Prop :=
  curUsedSize m' pool = add32 (curUsedSize m pool) b.size ∧
  waterLine m' pool = max (waterLine m pool) (add32 (curUsedSize m pool) b.size)

/-- The outcome of an allocation of `s` bytes: nothing happened, or a free block
was turned into one owned through the pointer returned. -/
def Allocated (pool size : Nat) (m : Memory) (v : Arena) (s : Nat) (r : Memory × Nat) : Prop :=
  r = (m, 0) ∨ ∃ v' b, Rep pool size r.1 v' [] ∧ Keeps pool size (· = r.2) v m v' r.1 ∧
    b ∈ v'.blocks ∧ b.owner = some r.2 ∧ r.2 + s ≤ b.addr + b.size ∧
    (∃ a ∈ v.blocks, a.addr = b.addr ∧ a.owner = none ∧ b.size ≤ a.size) ∧ Charged pool m b r.1

theorem Taken.allocated {n : Nat} {r : Memory × Nat} {v' : Arena}
    (h : Taken pool size m v (allocSizeOf n) r v' a b) (ho : Orderly size (allocSizeOf n)) :
    Allocated pool size m v n r := by
  have hge := h.size_ge ho
  have hbd := allocSizeOf_bounds n
  have hptr := h.ptr
  exact Or.inr ⟨v', b, h.rep, h.keeps, h.mem, h.owner, by omega,
    ⟨a, h.was, h.addr, h.free, h.size_le⟩, h.used, h.line⟩

theorem osMemAlloc_spec (h : Rep pool size m v []) (n : Nat) (h8 : 8 ≤ n) (hn : n < 1073741824)
    (ho : Orderly size (allocSizeOf n)) : Allocated pool size m v n (osMemAlloc m pool n) := by
  obtain ⟨hz, _⟩ | ⟨v', a, b, ht⟩ := osMemAlloc_base h n h8 hn
  · exact Or.inl hz
  · exact ht.allocated ho

theorem allocated_mono (s t : Nat) (r : Memory × Nat) (hst : t ≤ s)
    (h : Allocated pool size m v s r) : Allocated pool size m v t r := by
  obtain hz | ⟨v', b, h1, k1, hb, ho, hp, ha⟩ := h
  · exact Or.inl hz
  · exact Or.inr ⟨v', b, h1, k1, hb, ho, by omega, ha⟩

theorem osMemFlags_zero (x : Nat) (hx : x < 4294967296)
    (h : ¬(osMemNodeGetUsedFlag x ≠ 0 ∨ osMemNodeGetAlignedFlag x ≠ 0)) : x < 1073741824 := by
  rw [osMemNodeGetUsedFlag_eq, osMemNodeGetAlignedFlag_eq] at h
  omega

theorem atLeast_min (s : Nat) (hs : s < 4294967296) :
    (if s < osMemMinAllocSize then osMemMinAllocSize else s) = max s 8 ∧ max s 8 < 4294967296 := by
  unfold osMemMinAllocSize
  split <;> omega

theorem orderly_min (s : Nat) (h : Orderly size (allocSizeOf s)) :
    Orderly size (allocSizeOf (max s 8)) := by
  have h8 := allocSizeOf_bounds 8
  by_cases hs : 8 ≤ s
  · rwa [max_eq_left hs]
  · rw [max_eq_right (by omega)]
    exact Or.inl (by omega)

theorem losMemAlloc_eq (m : Memory) (pool n : Nat) (hpool : pool ≠ 0) (h0 : n ≠ 0)
    (hn : n < 1073741824) : losMemAlloc m pool n = osMemAlloc m pool (max n 8) := by
  have hmin := (atLeast_min n (by omega)).1
  unfold losMemAlloc
  simp only [hmin]
  rw [if_neg (by omega), osMemNodeGetUsedFlag_eq, osMemNodeGetAlignedFlag_eq, if_neg (by omega)]

theorem losMemAlloc_refused (m : Memory) (pool n : Nat) (hn : n < 4294967296)
    (h : n = 0 ∨ 1073741824 ≤ n) : losMemAlloc m pool n = (m, 0) := by
  have hmin := (atLeast_min n hn).1
  unfold losMemAlloc
  simp only [hmin]
  by_cases h0 : pool = 0 ∨ n = 0
  · exact if_pos h0
  · rw [if_neg h0, osMemNodeGetUsedFlag_eq, osMemNodeGetAlignedFlag_eq, if_pos (by omega)]

theorem losMemAlloc_spec (h : Rep pool size m v []) (s : Nat) (hs : s < 4294967296)
    (ho : Orderly size (allocSizeOf s)) : Allocated pool size m v s (losMemAlloc m pool s) := by
  by_cases hok : s = 0 ∨ 1073741824 ≤ s
  · exact Or.inl (losMemAlloc_refused m pool s hs hok)
  · rw [losMemAlloc_eq m pool s h.layout.region.nonzero (by omega) (by omega)]
    exact allocated_mono (max s 8) s _ (by omega)
      (osMemAlloc_spec h _ (by omega) (by omega) (orderly_min s ho))

/-! ### LOS_MemAllocAlign -/

theorem Layout.owner_inj (h : Layout pool size v P) (p : Nat) (ha : a ∈ v.blocks)
    (hb : b ∈ v.blocks) (hap : a.owner = some p) (hbp : b.owner = some p) : a = b := by
  have hia := a.inside p hap
  have hib := b.inside p hbp
  rcases tile_apart _ _ _ h.tile a b ha hb with h1 | h1 | h1
  · exact h1
  all_goals omega

theorem Layout.owner_inside (h : Layout pool size v P) (hb : b ∈ v.blocks) (p : Nat)
    (hp : b.addr ≤ p ∧ p < b.addr + b.size) (hd : a ∈ v.blocks) (ha : a.owner = some p) : a = b := by
  have hin := a.inside p ha
  rcases tile_apart _ _ _ h.tile a b hd hb with h1 | h1 | h1
  · exact h1
  all_goals omega

theorem Layout.fresh_owner (h : Layout pool size v P) (hb : b ∈ v.blocks) (hfree : b.owner = none)
    (p : Nat) (hp : b.addr ≤ p ∧ p < b.addr + b.size) : ∀ c ∈ v.blocks, c.owner ≠ some p := by
  intro c hc hcp
  rw [h.owner_inside hb p hp hc hcp, hfree] at hcp
  cases hcp

theorem round_up_bounds (p n : Nat) (hn : 4 ≤ n) (h4 : n % 4 = 0) (hp : p % 4 = 0) :
    p ≤ (p + n - 1) / n * n ∧ (p + n - 1) / n * n + 4 ≤ p + n ∧
      (p + n - 1) / n * n % 4 = 0 ∧ (p + n - 1) / n * n % n = 0 := by
  have hdm := Nat.div_add_mod (p + n - 1) n
  have hlt := Nat.mod_lt (p + n - 1) (show n > 0 by omega)
  have hm4 : (p + n - 1) / n * n % 4 = 0 := by
    rw [Nat.mul_mod, h4, Nat.mul_zero, Nat.zero_mod]
  have hmn : (p + n - 1) / n * n % n = 0 := Nat.mul_mod_left _ _
  rw [Nat.mul_comm] at hdm
  generalize (p + n - 1) / n * n = x at *
  omega

theorem osMemAlign_zero (k : Nat) (hk : k < 32) : osMemAlign 0 (2 ^ k) = 0 := by
  have hp := Nat.two_pow_pos k
  have hlt : 2 ^ k < 2 ^ 32 := Nat.pow_lt_pow_right (by omega) hk
  rw [osMemAlign_pow 0 k hk (by omega), Nat.div_eq_of_lt (by omega), Nat.zero_mul]

/-- What `LOS_MemAllocAlign` accepts. -/
structure AlignRequest (s boundary : Nat) : Prop where
  size : s ≠ 0
  pow : ∃ k < 32, boundary = 2 ^ k
  word : boundary % 4 = 0
  least : 4 ≤ boundary
  room : max s 8 + boundary - 4 < 1073741824

theorem AlignRequest.passes {s boundary : Nat} (h : AlignRequest s boundary) (hpool : pool ≠ 0) :
    ¬(pool = 0 ∨ s = 0 ∨ boundary = 0 ∨ osMemIsPowTwo boundary = false ∨
      osMemIsAligned boundary 4 = false) := by
  obtain ⟨k, hk, rfl⟩ := h.pow
  have h0 := h.size
  have hp := Nat.two_pow_pos k
  have hlt : 2 ^ k < 2 ^ 32 := Nat.pow_lt_pow_right (by omega) hk
  have hpow : osMemIsPowTwo (2 ^ k) = true := by
    unfold osMemIsPowTwo
    rw [sub32_of_le _ _ hp hlt, and_sub_one_eq_mod, Nat.mod_self]
    rfl
  have hal : osMemIsAligned (2 ^ k) 4 = true := by
    rw [osMemIsAligned_four]
    exact decide_eq_true h.word
  rw [hpow, hal]
  simp only [Bool.true_eq_false, or_false, not_or]
  exact ⟨hpool, h0, by omega⟩

/-- `LOS_MemAllocAlign` fails without a trace, or takes a block and then moves
the pointer up to the boundary. -/
theorem losMemAllocAlign_base (h : Rep pool size m v []) (s boundary : Nat)
    (hs : s < 4294967296) (hbd : boundary < 4294967296) :
    (losMemAllocAlign m pool s boundary = (m, 0) ∧ (AlignRequest s boundary →
      (osMemFindNextSuitableBlock m pool (allocSizeOf (max s 8 + boundary - 4))).1 = 0)) ∨
    AlignRequest s boundary ∧
    ∃ r v' a b, Taken pool size m v (allocSizeOf (max s 8 + boundary - 4)) r v' a b ∧
      losMemAllocAlign m pool s boundary =
        if r.2 = osMemAlign r.2 boundary then r
        else (store32 (setSizeAndFlag r.1 b.addr (b.size + 2147483648 + 1073741824))
            (sub32 (osMemAlign r.2 boundary) 4)
            (osMemSetGapsizeAlignedFlag (sub32 (osMemAlign r.2 boundary) r.2)),
          osMemAlign r.2 boundary) := by
  obtain ⟨hmin, hmax⟩ := atLeast_min s hs
  unfold losMemAllocAlign
  simp only [hmin]
  by_cases h0 : pool = 0 ∨ s = 0 ∨ boundary = 0 ∨ osMemIsPowTwo boundary = false ∨
      osMemIsAligned boundary 4 = false
  · exact Or.inl ⟨if_pos h0, fun hreq => absurd h0 (hreq.passes h.layout.region.nonzero)⟩
  · rw [if_neg h0]
    simp only [not_or, Bool.not_eq_false] at h0
    obtain ⟨hpool, hs0, hb0, hpow, hal⟩ := h0
    obtain ⟨k, hk, hbk⟩ := osMemIsPowTwo_spec boundary hb0 hbd hpow
    have hb4 : boundary % 4 = 0 := by
      rw [osMemIsAligned_four] at hal
      exact of_decide_eq_true hal
    have h8 : 8 ≤ max s 8 := le_max_right s 8
    generalize ht : max s 8 = t at *
    rw [sub32_of_le boundary 4 (by omega) hbd, sub32_of_le 4294967295 t (by omega) (by omega)]
    by_cases hover : boundary - 4 > 4294967295 - t
    · exact Or.inl ⟨if_pos hover, fun hreq => by have := hreq.room; omega⟩
    · rw [if_neg hover]
      have huse : sub32 (add32 t boundary) 4 = t + boundary - 4 := by
        unfold sub32 add32
        omega
      rw [huse]
      by_cases hf : osMemNodeGetUsedFlag (t + boundary - 4) ≠ 0 ∨
          osMemNodeGetAlignedFlag (t + boundary - 4) ≠ 0
      · refine Or.inl ⟨if_pos hf, fun hreq => ?_⟩
        have hroom := hreq.room
        rw [osMemNodeGetUsedFlag_eq, osMemNodeGetAlignedFlag_eq] at hf
        omega
      · rw [if_neg hf]
        have hlt := osMemFlags_zero _ (by omega) hf
        have hreq : AlignRequest s boundary :=
          ⟨hs0, ⟨k, hk, hbk⟩, hb4, by omega, by rw [ht]; exact hlt⟩
        obtain ⟨hz, hzero⟩ | ⟨v', a, b, htaken⟩ :=
          osMemAlloc_base h (t + boundary - 4) (by omega) hlt
        · have halign : osMemAlign 0 boundary = 0 := by rw [hbk, osMemAlign_zero k hk]
          rw [hz]
          exact Or.inl ⟨if_pos halign.symm, fun _ => hzero⟩
        · refine Or.inr ⟨hreq, _, v', a, b, htaken, ?_⟩
          generalize osMemAlloc m pool (t + boundary - 4) = r at htaken ⊢
          obtain ⟨m₁, p⟩ := r
          have hptr : p = b.addr + 8 := htaken.ptr
          have hlt := (htaken.rep.layout.size_lt b htaken.mem)
          have hbr := b.room
          have hnode : sub32 p osMemNodeHeadSize = b.addr := by
            unfold osMemNodeHeadSize
            rw [sub32_of_le _ _ (by omega) (by omega)]
            omega
          have hword : sizeAndFlag m₁ b.addr = b.size + 2147483648 := by
            have hown : b.owner = some p := htaken.owner
            refine (htaken.rep.heads.node b htaken.mem).word.trans ?_
            simp [Block.word, hown, hptr]
          have hflag : osMemNodeSetAlignedFlag (b.size + 2147483648) =
              b.size + 2147483648 + 1073741824 := osMemNodeSetAlignedFlag_eq _ (by omega)
          simp only [hnode, hword, hflag]

theorem losMemAllocAlign_fits (h : Rep pool size m v []) (s boundary : Nat)
    (hreq : AlignRequest s boundary) {r : Memory × Nat} {v' : Arena} {need : Nat}
    (ht : Taken pool size m v need r v' a b) (p' : Nat) (hp' : p' = osMemAlign r.2 boundary)
    (hround : r.2 ≤ p' ∧ p' % boundary = 0) (hfit : p' + 4 ≤ b.addr + b.size)
    (r' : Memory × Nat) (hr' : r' = if r.2 = osMemAlign r.2 boundary then r
        else (store32 (setSizeAndFlag r.1 b.addr (b.size + 2147483648 + 1073741824))
            (sub32 (osMemAlign r.2 boundary) 4)
            (osMemSetGapsizeAlignedFlag (sub32 (osMemAlign r.2 boundary) r.2)),
          osMemAlign r.2 boundary)) :
    ∃ v₂ c, Rep pool size r'.1 v₂ [] ∧ Keeps pool size (· = r'.2) v m v₂ r'.1 ∧
      c ∈ v₂.blocks ∧ c.owner = some r'.2 ∧ c.addr = b.addr ∧ c.size = b.size ∧ r'.2 = p' ∧
      ∀ a, StatWord pool a → load32 r'.1 a = load32 r.1 a := by
  obtain ⟨m₁, p⟩ := r
  have h1 := ht.rep
  have hptr : p = b.addr + 8 := ht.ptr
  have hb4 := hreq.word
  have hal := b.aligned
  have hblt := h1.layout.size_lt b ht.mem
  have hbr := b.room
  have hround1 : p ≤ p' := hround.1
  rw [← hp'] at hr'
  dsimp only at hr'
  by_cases hpp : p = p'
  · rw [if_pos hpp] at hr'
    subst hr'
    exact ⟨v', b, h1, ht.keeps, ht.mem, ht.owner, rfl, rfl, hpp, fun _ _ => rfl⟩
  · have h4 : p' % 4 = 0 := by
      have hd : 4 ∣ boundary := Nat.dvd_of_mod_eq_zero hb4
      exact Nat.mod_eq_zero_of_dvd (hd.trans (Nat.dvd_of_mod_eq_zero hround.2))
    have hin : b.addr + 8 ≤ p' ∧ p' + 4 ≤ b.addr + b.size ∧ p' % 4 = 0 := by omega
    have hgap : osMemSetGapsizeAlignedFlag (p' - p) = p' - (b.addr + 8) + 1073741824 := by
      rw [osMemSetGapsizeAlignedFlag_eq _ (by omega), hptr]
    rw [if_neg hpp, sub32_of_le p' p (by omega) (by omega), sub32_of_le p' 4 (by omega) (by omega),
      hgap] at hr'
    subst hr'
    obtain ⟨blocks, ls⟩ := v'
    obtain ⟨pre, post, rfl⟩ := List.append_of_mem ht.mem
    have hown : b.owner = some (b.addr + 8) := by rw [← hptr]; exact ht.owner
    obtain ⟨h2, k2⟩ := h1.realign hown p' hin (by omega) (fun x => x = p' ∨ x = p) (Or.inr hptr.symm)
      (Or.inl rfl)
    have hfresh := h.layout.fresh_owner ht.was ht.free
    have hle := ht.size_le
    have haddr := ht.addr
    have k : Keeps pool size (fun x => x = p' ∨ x = p) v m _ _ :=
      (ht.keeps.mono fun x hx => Or.inr hx).trans k2.toKeeps
    refine ⟨_, b.own p' hin, h2, ⟨fun c hc q hq hne => ?_, fun c hc q hq hne => ?_, k.outside⟩,
      by simp, rfl, rfl, rfl, rfl, k2.stats⟩
    · refine k.stay c hc q hq fun hor => ?_
      exact hfresh q (by have := hor.resolve_left hne; omega) c hc hq
    · refine k.back c hc q hq fun hor => hne ?_
      have hqp := hor.resolve_left hne
      have hcb := h2.layout.owner_inside (b := b.own p' hin) (by simp) q
        ⟨by show b.addr ≤ q; omega, by show q < b.addr + b.size; omega⟩ hc hq
      rw [hcb] at hq
      exact (Option.some.inj hq).symm

theorem losMemAllocAlign_spec (h : Rep pool size m v []) (s boundary : Nat)
    (hs : s < 4294967296) (hbd : boundary < 4294967296)
    (ho : Orderly size (allocSizeOf (max s 8 + boundary - 4))) :
    Allocated pool size m v s (losMemAllocAlign m pool s boundary) ∧
      (losMemAllocAlign m pool s boundary).2 % boundary = 0 := by
  obtain ⟨hz, _⟩ | ⟨hreq, r, v', a, b, ht, heq⟩ := losMemAllocAlign_base h s boundary hs hbd
  · rw [hz]
    exact ⟨Or.inl rfl, Nat.zero_mod _⟩
  · obtain ⟨k, hk, hbk⟩ := hreq.pow
    have hge := ht.size_ge ho
    have hbds := allocSizeOf_bounds (max s 8 + boundary - 4)
    have hptr := ht.ptr
    have hal := b.aligned
    have hblt := ht.rep.layout.size_lt b ht.mem
    have hleast := hreq.least
    have hround := round_up_bounds r.2 boundary hleast hreq.word (by omega)
    have halign : osMemAlign r.2 boundary = (r.2 + boundary - 1) / boundary * boundary := by
      rw [hbk]
      exact osMemAlign_pow r.2 k hk (by rw [← hbk]; omega)
    obtain ⟨v₂, c, h2, k2, hc, hco, hca, hcs, hp, hstats⟩ :=
      losMemAllocAlign_fits h s boundary hreq ht
      ((r.2 + boundary - 1) / boundary * boundary) halign.symm ⟨hround.1, hround.2.2.2⟩ (by omega)
      _ heq
    have hle := ht.size_le
    refine ⟨Or.inr ⟨v₂, c, h2, k2, hc, hco, by omega,
      ⟨a, ht.was, by rw [hca]; exact ht.addr, ht.free, by omega⟩, ?_, ?_⟩, ?_⟩
    · rw [hcs, ← ht.used]
      exact hstats _ (Or.inr (Or.inl rfl))
    · rw [hcs, ← ht.line]
      exact hstats _ (Or.inl rfl)
    · rw [hp]
      exact hround.2.2.2

end

end LiteosM.Heap
