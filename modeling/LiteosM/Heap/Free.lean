import LiteosM.Heap.Alloc

/-!
# Returning a node

A pointer that is owned passes every check of `OsMemCheckUsedNode`; the node is
then merged with its free neighbours and filed.
-/

namespace LiteosM.Heap
open Lib.ByteMemory Lib.Word32 Lib.LinkedList

section
variable {pool size : Nat} {m : Memory} {v : Arena} {P : List Nat} {pre post : List Block}
  {ls : Nat → List Nat} {a b : Block}

theorem Rep.endNode (h : Rep pool size m v P) :
    osMemFirstNode pool = pool + 944 ∧
      osMemEndNode pool (totalSize m pool) = pool + size - 8 := by
  have hr := h.layout.region
  have := hr.inside
  have := hr.room
  have := hr.limit
  unfold osMemFirstNode osMemEndNode osMemPoolHeadSize osMemNodeHeadSize
  rw [h.heads.total, add32_of_lt _ _ (by omega)]
  refine ⟨rfl, ?_⟩
  unfold add32 sub32
  omega

theorem Rep.prev_bounds (h : Rep pool size m v P) (hb : b ∈ v.blocks) :
    pool + 944 ≤ prevOf m b.addr ∧ prevOf m b.addr < pool + size := by
  have hroom := h.layout.region.room
  obtain ⟨blocks, ls⟩ := v
  obtain ⟨pre, post, rfl⟩ := List.append_of_mem hb
  rcases List.eq_nil_or_concat pre with rfl | ⟨pre, a, rfl⟩
  · rw [(Rep.prev_first (by simpa using h)).2]
    omega
  · have h' : Rep pool size m ⟨pre ++ (a :: b :: post), ls⟩ P := by simpa using h
    have ha := h'.layout.bounds a (by simp)
    have har := a.room
    rw [h'.prev_inner]
    omega

theorem Rep.node_valid (h : Rep pool size m v P) (hend : pool + size < 4294967296)
    (hb : b ∈ v.blocks) :
    osMemIsNodeValid m b.addr (pool + 944) (pool + size - 8) pool = true := by
  have hbb := h.layout.bounds b hb
  have hprev := h.prev_bounds hb
  have hroom := h.layout.region.room
  have hmid : osMemMiddleAddr (pool + 944) b.addr (pool + size - 8) = true := by
    unfold osMemMiddleAddr
    simp only [Bool.and_eq_true, decide_eq_true_eq]
    omega
  unfold osMemIsNodeValid
  rw [hmid, if_neg (by simp)]
  split
  · rfl
  · unfold osMemAddrValidCheck osMemMiddleAddrOpenEnd osMemPoolHeadSize
    rw [h.heads.total, add32_of_lt _ _ (by omega), add32_of_lt _ _ hend]
    simpa using hprev

theorem Rep.next_valid (h : Rep pool size m ⟨pre ++ (b :: post), ls⟩ P)
    (hend : pool + size < 4294967296) :
    osMemIsNodeValid m (b.addr + b.size) (pool + 944) (pool + size - 8) pool = true := by
  cases post with
  | nil =>
    have hlast := h.layout.last_end
    have hbb := h.layout.bounds b (by simp)
    have hroom := h.layout.region.room
    have hmid : osMemMiddleAddr (pool + 944) (pool + size - 8) (pool + size - 8) = true := by
      unfold osMemMiddleAddr
      simp only [Bool.and_eq_true, decide_eq_true_eq]
      omega
    unfold osMemIsNodeValid
    rw [hlast, hmid, if_neg (by simp), h.heads.sentinel, osMemNodeGetUsedFlag_eq]
    exact if_pos (by omega)
  | cons c post =>
    rw [← h.layout.adjacent]
    exact h.node_valid hend (by simp)

theorem osMemCheckUsedNode_owned (h : Rep pool size m ⟨pre ++ (b :: post), ls⟩ P)
    (hend : pool + size < 4294967296) (hown : b.owner ≠ none) :
    osMemCheckUsedNode m pool b.addr = losOk := by
  have hflags := h.node_flags (b := b) (by simp)
  have hback := (h.heads.node b (by simp)).back
  unfold osMemCheckUsedNode
  simp only [h.endNode.1, h.endNode.2]
  rw [if_neg (by rw [h.node_valid hend (by simp)]; simp), if_neg fun hz => hown (hflags.2.mp hz),
    h.next_node (b := b) (by simp), if_neg (by rw [h.next_valid hend]; simp),
    if_neg (by simp [hback])]
  refine if_neg ?_
  rintro ⟨hne, hbad⟩
  rcases List.eq_nil_or_concat pre with rfl | ⟨pre, a, rfl⟩
  · exact hne (Rep.prev_first (by simpa using h)).1
  · have h' : Rep pool size m ⟨pre ++ (a :: b :: post), ls⟩ P := by simpa using h
    rw [h'.prev_inner, h'.node_valid hend (by simp), h'.next_node (b := a) (by simp),
      ← h'.layout.adjacent] at hbad
    simp at hbad

theorem file_merged (h : Rep pool size m ⟨pre ++ (b :: post), ls⟩ [b.addr]) (hb : b.owner = none)
    (hleft : ∀ c ∈ pre.getLast?, c.owner = none → c.addr ∈ ([] : List Nat)) (Q : Nat → Prop)
    (m' : Memory) (hm' : m' = osMemFreeNodeAdd m pool b.addr ∧
        ¬osMemNodeGetUsedFlag (sizeAndFlag m (osMemNextNode m b.addr)) = 0 ∨
      m' = osMemFreeNodeAdd (osMemMergeNode (osMemFreeNodeDelete m pool (osMemNextNode m b.addr))
          (osMemNextNode m b.addr)) pool b.addr ∧
        osMemNodeGetUsedFlag (sizeAndFlag m (osMemNextNode m b.addr)) = 0) :
    ∃ v', Rep pool size m' v' [] ∧ Steady pool size Q ⟨pre ++ (b :: post), ls⟩ m v' m' ∧
      (∃ n ∈ v'.blocks, n.owner = none ∧ n.addr = b.addr ∧ b.size ≤ n.size) ∧
      ∀ x, x % 4 = 0 → b.addr + 16 ≤ x → x < b.addr + b.size → load32 m' x = load32 m x := by
  have hbr := b.room
  rw [h.next_node (b := b) (by simp)] at hm'
  have hflag := h.next_flag
  obtain ⟨rfl, hused⟩ | ⟨rfl, hused⟩ := hm'
  · have hright : ∀ d ∈ post.head?, d.owner = none → d.addr ∈ ([] : List Nat) := by
      intro d hd hdfree
      cases post with
      | nil => cases hd
      | cons c post' =>
        have hcd : c = d := by simpa using hd
        exact absurd (hflag.mpr ⟨c, post', rfl, hcd ▸ hdfree⟩) hused
    obtain ⟨h3, k3⟩ := osMemFreeNodeAdd_spec h (by simp) hb (by simp)
      (h.layout.settle hleft hright) Q
    refine ⟨_, h3, k3, ⟨b, by simp [Arena.list], hb, rfl, le_rfl⟩, fun x h4 hlo hhi => ?_⟩
    refine touches_load32 _ _ _ (touches_osMemFreeNodeAdd h (by simp) hb) x h4 ?_
    rintro (hl | hl)
    · exact h.layout.inside_not_list (b := b) (by simp) x (Or.inr (Or.inl ⟨hlo, hhi⟩)) hl
    · omega
  · obtain ⟨c, post', rfl, hc⟩ := hflag.mp hused
    have hadj : c.addr = b.addr + b.size := h.layout.adjacent
    have hcP : c.addr ∉ [b.addr] := by
      simp only [List.mem_singleton]
      omega
    rw [← hadj]
    obtain ⟨ls', h2, k2⟩ := absorb_next h hb hc List.mem_cons_self hcP Q
    have hinside := absorb_next_inside h hb hc List.mem_cons_self hcP
    have hright : ∀ d ∈ post'.head?, d.owner = none → d.addr ∈ ([] : List Nat) := by
      intro d hd hdfree
      have hlay : Layout pool size ⟨(pre ++ [b]) ++ (c :: post'), ls⟩ [b.addr] := by
        simpa using h.layout
      have hdP := hlay.after_free hc hcP d hd hdfree
      have hdb := h.layout.other_addr d (by
        simp only [List.mem_append, List.mem_cons]
        exact Or.inr (Or.inr (List.mem_of_head? hd)))
      exact absurd (List.mem_singleton.mp hdP) hdb
    obtain ⟨h3, k3⟩ := osMemFreeNodeAdd_spec (b := b.join c) h2 (by simp) rfl (by simp)
      (h2.layout.settle (b := b.join c) hleft hright) Q
    refine ⟨_, h3, k2.trans k3, ⟨b.join c, by simp [Arena.list], rfl, rfl, ?_⟩,
      fun x h4 hlo hhi => ?_⟩
    · show b.size ≤ b.size + c.size
      omega
    · refine Eq.trans ?_ (hinside x h4 (by omega) (by omega))
      refine touches_load32 _ _ _ (touches_osMemFreeNodeAdd (b := b.join c) h2 (by simp) rfl) x h4 ?_
      rintro (hl | hl)
      · refine h2.layout.inside_not_list (b := b.join c) (by simp) x (Or.inr (Or.inl ⟨hlo, ?_⟩)) hl
        show x < b.addr + (b.size + c.size)
        omega
      · have hl : x = b.addr + 8 ∨ x = b.addr + 12 := hl
        omega

theorem merge_prev (h : Rep pool size m ⟨pre ++ (b :: post), ls⟩ [b.addr]) (hb : b.owner = none)
    (r : Memory × Nat) (Q : Nat → Prop)
    (hr : r = if prevOf m b.addr ≠ 0 ∧
        osMemNodeGetUsedFlag (sizeAndFlag m (prevOf m b.addr)) = 0 then
      (osMemMergeNode (osMemFreeNodeDelete m pool (prevOf m b.addr)) b.addr, prevOf m b.addr)
    else (m, b.addr)) :
    ∃ pre' n ls', Rep pool size r.1 ⟨pre' ++ (n :: post), ls'⟩ [n.addr] ∧
      Steady pool size Q ⟨pre ++ (b :: post), ls⟩ m ⟨pre' ++ (n :: post), ls'⟩ r.1 ∧
      r.2 = n.addr ∧ n.owner = none ∧
      (∀ c ∈ pre'.getLast?, c.owner = none → c.addr ∈ ([] : List Nat)) ∧
      b.addr + b.size = n.addr + n.size ∧
      (n.addr = b.addr ∨ n.addr + 16 ≤ b.addr ∧ sizeAndFlag r.1 b.addr = sizeAndFlag m b.addr) := by
  have hroom := h.layout.region.room
  rcases List.eq_nil_or_concat pre with rfl | ⟨pre, a, rfl⟩
  · -- the first node: its back pointer is the sentinel
    have hfirst : prevOf m b.addr = pool + size - 8 :=
      (Rep.prev_first (b := b) (by simpa using h)).2
    have husedflag : osMemNodeGetUsedFlag (sizeAndFlag m (pool + size - 8)) ≠ 0 := by
      rw [h.heads.sentinel, osMemNodeGetUsedFlag_eq]
      omega
    rw [hfirst, if_neg fun hz => husedflag hz.2] at hr
    subst hr
    exact ⟨[], b, ls, h, Steady.refl _ _, rfl, hb, by simp, rfl, Or.inl rfl⟩
  · have h' : Rep pool size m ⟨pre ++ (a :: b :: post), ls⟩ [b.addr] := by simpa using h
    have hflags := (h'.node_flags (b := a) (by simp)).2
    have habb := h'.layout.bounds a (by simp)
    have hadj : b.addr = a.addr + a.size := h'.layout.adjacent
    have har := a.room
    rw [h'.prev_inner] at hr
    by_cases hafree : a.owner = none
    · rw [if_pos ⟨by omega, hflags.mpr hafree⟩] at hr
      subst hr
      have haP : a.addr ∉ [b.addr] := by
        simp only [List.mem_singleton]
        omega
      obtain ⟨ls', h3, k3⟩ := absorb_prev (P := []) h' hafree hb haP Q
      have hhead := absorb_prev_head (P := []) h' hafree hb haP
      refine ⟨pre, a.join b, ls', h3, by simpa using k3, rfl, rfl, fun c hc hcfree => ?_, ?_,
        Or.inr ⟨?_, hhead⟩⟩
      · have hcP := Layout.before_free (b := a) h'.layout hafree haP c hc hcfree
        have hcm : c ∈ pre := List.mem_of_getLast? hc
        have hcb := h.layout.other_addr c (by simp [hcm])
        exact absurd (List.mem_singleton.mp hcP) hcb
      · show b.addr + b.size = a.addr + (a.size + b.size)
        omega
      · show a.addr + 16 ≤ b.addr
        omega
    · rw [if_neg fun hz => hafree (hflags.mp hz.2)] at hr
      subst hr
      refine ⟨_, b, ls, h, Steady.refl _ _, rfl, hb, fun c hc hcfree => ?_, rfl, Or.inl rfl⟩
      have hac : a = c := by simpa using hc
      exact absurd (hac ▸ hcfree) hafree

/-- The block `b` of pointer `p` is free, whatever it was merged with, and its
former head carries no flag. -/
structure Freed (pool size : Nat) (m : Memory) (v : Arena) (b : Block) (p : Nat) (m' : Memory)
    (v' : Arena) : Prop where
  rep : Rep pool size m' v' []
  keeps : Keeps pool size (· = p) v m v' m'
  gone : ∃ n ∈ v'.blocks, n.owner = none ∧ n.addr ≤ b.addr ∧ b.addr + b.size ≤ n.addr + n.size
  stale : sizeAndFlag m' b.addr < 1073741824
  used : curUsedSize m' pool = sub32 (curUsedSize m pool) b.size
  line : waterLine m' pool = waterLine m pool
  next : nextPool m' pool = nextPool m pool

theorem osMemFree_freed (h : Rep pool size m v []) (q : Nat) (hb : b ∈ v.blocks)
    (hown : b.owner = some q) (hret : osMemCheckUsedNode m pool b.addr = losOk) :
    ∃ v', Freed pool size m v b q (osMemFree m pool b.addr).1 v' ∧
      (osMemFree m pool b.addr).2 = losOk := by
  unfold osMemFree
  simp only [hret]
  rw [if_neg (by simp)]
  obtain ⟨blocks, ls⟩ := v
  obtain ⟨pre, post, rfl⟩ := List.append_of_mem hb
  have hp4 := h.layout.region.aligned
  have hblt := h.layout.size_lt b (by simp)
  have hsub := sub32_lt (curUsedSize m pool) b.size
  rw [(h.node_flags (b := b) (by simp)).1]
  have hused : Touches (StatWord pool) m (setCurUsedSize m pool (sub32 (curUsedSize m pool) b.size)) :=
    touches_store32 _ _ _ _ (by omega) (Or.inr (Or.inl rfl))
  obtain ⟨h1, k1⟩ := h.stat hused (· = q)
  have hcur : curUsedSize (setCurUsedSize m pool (sub32 (curUsedSize m pool) b.size)) pool =
      sub32 (curUsedSize m pool) b.size := load32_store32_same _ _ _ hsub
  have hline : waterLine (setCurUsedSize m pool (sub32 (curUsedSize m pool) b.size)) pool =
      waterLine m pool := load32_store32_aligned _ _ _ _ (by omega) (by omega) (by omega)
  have hnext : nextPool (setCurUsedSize m pool (sub32 (curUsedSize m pool) b.size)) pool =
      nextPool m pool := load32_store32_aligned _ _ _ _ (by omega) (by omega) (by omega)
  generalize setCurUsedSize m pool (sub32 (curUsedSize m pool) b.size) = m₁
    at h1 k1 hcur hline hnext ⊢
  rw [(h1.node_flags (b := b) (by simp)).1]
  obtain ⟨h2, k2⟩ := h1.disown q hown (· = q) rfl
  have hword : sizeAndFlag (setSizeAndFlag m₁ b.addr b.size) b.addr = b.size :=
    load32_store32_same _ _ _ (by omega)
  generalize setSizeAndFlag m₁ b.addr b.size = m₂ at h2 k2 hword ⊢
  generalize hr : (if prevOf m₂ b.addr ≠ 0 ∧
      osMemNodeGetUsedFlag (sizeAndFlag m₂ (prevOf m₂ b.addr)) = 0 then
    (osMemMergeNode (osMemFreeNodeDelete m₂ pool (prevOf m₂ b.addr)) b.addr, prevOf m₂ b.addr)
    else (m₂, b.addr)) = r
  have hr' : r = (if prevOf m₂ b.free.addr ≠ 0 ∧
      osMemNodeGetUsedFlag (sizeAndFlag m₂ (prevOf m₂ b.free.addr)) = 0 then
    (osMemMergeNode (osMemFreeNodeDelete m₂ pool (prevOf m₂ b.free.addr)) b.free.addr,
      prevOf m₂ b.free.addr)
    else (m₂, b.free.addr)) := hr.symm
  obtain ⟨pre', n, ls', h3, k3, hn, hnfree, hleft, hend, hhead⟩ :=
    merge_prev (b := b.free) h2 rfl r (· = q) hr'
  rw [hn]
  generalize hm' : osMemFreeNodeAdd (if osMemNextNode r.1 n.addr ≠ 0 ∧
      osMemNodeGetUsedFlag (sizeAndFlag r.1 (osMemNextNode r.1 n.addr)) = 0 then
    osMemMergeNode (osMemFreeNodeDelete r.1 pool (osMemNextNode r.1 n.addr))
      (osMemNextNode r.1 n.addr) else r.1) pool n.addr = m'
  have hnr := n.room
  have hnext0 : osMemNextNode r.1 n.addr ≠ 0 := by
    rw [h3.next_node (b := n) (by simp)]
    omega
  obtain ⟨v', h4, k4, ⟨c, hc, hcfree, hcn, hcs⟩, hinside⟩ := file_merged h3 hnfree hleft (· = q) m' (by
    by_cases hu : osMemNodeGetUsedFlag (sizeAndFlag r.1 (osMemNextNode r.1 n.addr)) = 0
    · rw [if_pos ⟨hnext0, hu⟩] at hm'
      exact Or.inr ⟨hm'.symm, hu⟩
    · rw [if_neg fun hz => hu hz.2] at hm'
      exact Or.inl ⟨hm'.symm, hu⟩)
  have k := (k2.trans k3).trans k4
  have hend : b.addr + b.size = n.addr + n.size := hend
  have hle : n.addr ≤ b.addr := by
    rcases hhead with hhead | ⟨hhead, _⟩
    · exact le_of_eq hhead
    · have hhead : n.addr + 16 ≤ b.addr := hhead
      omega
  refine ⟨v', {
    rep := h4
    keeps := k1.trans k.toKeeps
    gone := ⟨c, hc, hcfree, by omega, by omega⟩
    stale := ?_
    used := (k.stats _ (Or.inr (Or.inl rfl))).trans hcur
    line := (k.stats _ (Or.inl rfl)).trans hline
    next := (k.stats _ (Or.inr (Or.inr rfl))).trans hnext }, rfl⟩
  rcases hhead with hhead | ⟨hlo, hhead⟩
  · have hhead : n.addr = b.addr := hhead
    rw [← hhead, ← hcn, h4.free_word hc hcfree]
    exact (h4.layout.size_lt c hc).1
  · -- the head lies inside the block in front
    have hlo : n.addr + 16 ≤ b.addr := hlo
    have hhead : sizeAndFlag r.1 b.addr = sizeAndFlag m₂ b.addr := hhead
    have hba := b.aligned
    have hbr := b.room
    have hkeep : sizeAndFlag m' b.addr = sizeAndFlag r.1 b.addr :=
      hinside (b.addr + 4) (by omega) (by omega) (by omega)
    rw [hkeep, hhead, hword]
    exact hblt.1

/-- `OsMemFree` on an owned block: refused without change, or the block is free. -/
theorem osMemFree_spec (h : Rep pool size m v []) (q : Nat) (hb : b ∈ v.blocks)
    (hown : b.owner = some q) :
    (osMemFree m pool b.addr = (m, osMemCheckUsedNode m pool b.addr) ∧
      osMemCheckUsedNode m pool b.addr ≠ losOk) ∨
    ∃ v', Freed pool size m v b q (osMemFree m pool b.addr).1 v' ∧
      (osMemFree m pool b.addr).2 = losOk := by
  by_cases hret : osMemCheckUsedNode m pool b.addr = losOk
  · exact Or.inr (osMemFree_freed h q hb hown hret)
  · refine Or.inl ⟨?_, hret⟩
    unfold osMemFree
    exact if_pos hret

/-! ### LOS_MemFree -/

theorem osMemGetAlignedGapsize_eq (g : Nat) (hg : g < 1073741824) :
    osMemGetAlignedGapsize (g + 1073741824) = g := by
  have hor : g + 1 <<< 30 = g ||| 1 <<< 30 :=
    (Nat.or_two_pow_eq_add_of_lt (a := g) (n := 30) hg).symm
  apply Nat.eq_of_testBit_eq
  intro j
  rw [osMemGetAlignedGapsize, osMemGapsizeAlignedFlag, show 0x40000000 = 1 <<< 30 from rfl, hor,
    testBit_and_not_bit _ _ _ (by omega) (or_bit_lt _ _ (by omega) (by omega)), testBit_or_bit]
  by_cases hj : j = 30
  · have hz : g.testBit 30 = false := Nat.testBit_lt_two_pow hg
    simp [hj, hz]
  · simp [hj]

theorem osGetRealPtr_gap (m : Memory) (pool p base : Nat)
    (hgap : load32 m (p - 4) = p - base + 1073741824) (hp : p < 4294967296)
    (hbase : pool + 8 ≤ base ∧ base ≤ p) (h4 : (p - base) % 4 = 0) (hlt : p - base < 1073741824) :
    osGetRealPtr m pool p = base := by
  have hused : osMemGetGapsizeUsedFlag (p - base + 1073741824) = 0 := by
    refine (osMemNodeGetUsedFlag_eq _).trans ?_
    omega
  have hflag : osMemGetGapsizeAlignedFlag (p - base + 1073741824) ≠ 0 := by
    have he := osMemNodeGetAlignedFlag_eq (p - base + 1073741824)
    intro hz
    have hz' : osMemNodeGetAlignedFlag (p - base + 1073741824) = 0 := hz
    omega
  have hmod : (p - base) &&& (osMemAlignSize - 1) = 0 :=
    (Nat.and_two_pow_sub_one_eq_mod _ 2).trans h4
  unfold osGetRealPtr osMemGapsizeCheck
  rw [sub32_of_le p 4 (by omega) hp]
  simp only
  rw [hgap, hused, if_neg (by simp), if_pos hflag, osMemGetAlignedGapsize_eq _ hlt, hmod]
  unfold osMemNodeHeadSize
  rw [sub32_of_le p 8 (by omega) (by omega), sub32_of_le (p - 8) pool (by omega) (by omega),
    sub32_of_le p _ (by omega) (by omega), if_neg (by omega)]
  omega

theorem osGetRealPtr_owned (h : Rep pool size m v P) (p : Nat) (hb : b ∈ v.blocks)
    (hown : b.owner = some p) : osGetRealPtr m pool p = b.addr + 8 := by
  have hin := b.inside p hown
  have hba := b.aligned
  have hbb := h.layout.bounds b hb
  have hlt := h.layout.size_lt b hb
  by_cases hbase : p = b.addr + 8
  · unfold osGetRealPtr osMemGapsizeCheck
    rw [sub32_of_le p 4 (by omega) (by omega)]
    simp only
    have hw : load32 m (p - 4) = b.size + 2147483648 := by
      have hword := (h.heads.node b hb).word
      rw [show p - 4 = b.addr + 4 from by omega]
      refine Eq.trans hword ?_
      simp [Block.word, hown, hbase]
    have hflag : osMemGetGapsizeAlignedFlag (b.size + 2147483648) = 0 := by
      refine (osMemNodeGetAlignedFlag_eq _).trans ?_
      omega
    rw [hw, hflag, if_neg (by simp), if_neg (by simp), hbase]
  · have hgap := (h.heads.node b hb).gap p hown hbase
    exact osGetRealPtr_gap m pool p (b.addr + 8) hgap (by omega) (by omega) (by omega) (by omega)

theorem losMemFree_owned (h : Rep pool size m v []) (p : Nat) (hb : b ∈ v.blocks)
    (hown : b.owner = some p) : losMemFree m pool p = osMemFree m pool b.addr := by
  have hin := b.inside p hown
  have hreal := osGetRealPtr_owned h p hb hown
  have hr := h.layout.region
  have hp4 := hr.aligned
  have hlt := h.layout.size_lt b hb
  unfold losMemFree
  rw [osMemIsAligned_four, osMemIsAligned_four, if_neg]
  · simp only [hreal]
    unfold osMemNodeHeadSize
    rw [if_neg (by omega), sub32_of_le _ _ (by omega) (by omega), Nat.add_sub_cancel]
  · have h0 := hr.nonzero
    simp only [h0, hp4, hin.2.2, decide_true, Bool.true_eq_false, or_false, false_or]
    omega

theorem losMemFree_spec (h : Rep pool size m v []) (p : Nat) (hb : b ∈ v.blocks)
    (hown : b.owner = some p) :
    ((losMemFree m pool p).1 = m ∧ (losMemFree m pool p).2 ≠ losOk ∧
      osMemCheckUsedNode m pool b.addr ≠ losOk) ∨
    ∃ v', Freed pool size m v b p (losMemFree m pool p).1 v' ∧ (losMemFree m pool p).2 = losOk := by
  rw [losMemFree_owned h p hb hown]
  obtain ⟨he, hne⟩ | hok := osMemFree_spec h p hb hown
  · exact Or.inl ⟨by rw [he], by rw [he]; exact hne, hne⟩
  · exact Or.inr hok

/-- Such a release succeeds, provided the pool does not end where addresses do. -/
theorem losMemFree_owned_ok (h : Rep pool size m v []) (hend : pool + size < 4294967296) (p : Nat)
    (hb : b ∈ v.blocks) (hown : b.owner = some p) : (losMemFree m pool p).2 = losOk := by
  obtain ⟨_, _, hne⟩ | ⟨_, _, hok⟩ := losMemFree_spec h p hb hown
  · obtain ⟨blocks, ls⟩ := v
    obtain ⟨pre, post, rfl⟩ := List.append_of_mem hb
    exact absurd (osMemCheckUsedNode_owned h hend (by simp [hown])) hne
  · exact hok

end

end LiteosM.Heap
