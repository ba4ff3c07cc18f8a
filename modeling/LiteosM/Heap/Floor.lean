import LiteosM.Heap.WellFormed

/-!
# The sizes a pool can have

`LOS_MemInit` accepts sizes from the pool head and a used node head on, while
the formatter writes the larger head of a free node, and it accepts sizes whose
node reaches into the flag bits or into the classes that wrap.
-/

namespace LiteosM.Heap
open Lib.ByteMemory Lib.Word32 Lib.LinkedList

/-- A formatted pool: nothing outside of it is written, the head of the free
node ends before the sentinel, it is well formed, and what the first allocation
returns lies inside. -/
structure PoolFormatted (pool size : Nat) (s s' : MemState) : Prop where
  inside : ∀ x, x < pool ∨ pool + size ≤ x → osMemPoolInit s.mem pool size x = s.mem x
  apart : osMemFirstNode pool + osMemMinLeftSize ≤ osMemEndNode pool size
  wellFormed : HeapWf s'.mem pool size
  first : ∀ n < 4294967296, (losMemAlloc s'.mem pool n).2 ≠ 0 →
    pool ≤ (losMemAlloc s'.mem pool n).2 ∧ (losMemAlloc s'.mem pool n).2 + n ≤ pool + size

/-- The sizes served: room for a free node, whose size neither carries flag bits
nor has a class that a larger request starts from. -/
def PoolSizeServed (size : Nat) : Prop :=
  968 ≤ size ∧ (size - 952 < 301989888 ∨ 536870912 ≤ size - 952 ∧ size - 952 < 1073741824)

section
variable {pool size : Nat} {m : Memory}

/-! ### The served sizes -/

theorem Region.search_fits (h : Region pool size) (hrep : Rep pool size m h.arena [])
    (hserved : PoolSizeServed size) (s : Nat) (h4 : s % 4 = 0) (h16 : 16 ≤ s)
    (hs : s < 1140850688) (hne : (osMemFindNextSuitableBlock m pool s).1 ≠ 0) :
    s ≤ size - 952 := by
  have hblock : ∀ b ∈ h.arena.blocks, b.size = size - 952 := fun b hb => by
    rw [List.mem_singleton.mp hb]
    rfl
  by_cases hlow : s < 536870912
  · obtain hz | ⟨b, hb, _, _, hfits⟩ := osMemFindNextSuitableBlock_spec hrep s h4 h16 hs
    · exact absurd hz hne
    · rw [← hblock b hb]
      exact hfits (Or.inl hlow)
  · have hclass : sizeClass s = 191 + s / 67108864 := sizeClass_top s (by omega)
    have hstart : startIndex s = sizeClass s + 1 := if_neg (by omega)
    have hbound := startIndex_lt s hs
    obtain ⟨j, hfirst, _⟩ | ⟨_, hfind⟩ := osMemFindNextSuitableBlock_cases hrep s h16 hs
    · have hm := freeList_mem hrep j hfirst.nonempty
      obtain ⟨_, b, hb, _, _, hcls⟩ := hrep.layout.member j _ hm
      have habove := hfirst.above
      rw [hblock b hb] at hcls
      rcases hserved.2 with hsmall | hbig
      · have hmono := sizeClass_mono (size - 952) 301989887 (by omega) (by omega)
        have h199 : sizeClass 301989887 = 199 := by decide
        omega
      · rw [sizeClass_top (size - 952) (by omega)] at hcls
        omega
    · rw [if_neg (by omega), osMemFindCurSuitableBlock_find hrep _ s (by omega)] at hfind
      cases hf : (h.arena.lists (sizeClass s)).find? (fun n => decide (s ≤ sizeAndFlag m n)) with
      | none =>
        rw [hf] at hfind
        exact absurd (congrArg Prod.fst hfind) hne
      | some n =>
        have hm := List.mem_of_find?_eq_some hf
        have hsize := List.find?_some hf
        obtain ⟨_, b, hb, hbn, hfree, _⟩ := hrep.layout.member _ n hm
        rw [← hbn, hrep.free_word hb hfree, hblock b hb] at hsize
        exact of_decide_eq_true hsize

theorem Region.first_inside (h : Region pool size) (hrep : Rep pool size m h.arena [])
    (hserved : PoolSizeServed size) (n : Nat) (hn : n < 4294967296)
    (hne : (losMemAlloc m pool n).2 ≠ 0) :
    pool ≤ (losMemAlloc m pool n).2 ∧ (losMemAlloc m pool n).2 + n ≤ pool + size := by
  by_cases hok : n = 0 ∨ 1073741824 ≤ n
  · rw [losMemAlloc_refused m pool n hn hok] at hne
    exact absurd rfl hne
  · rw [losMemAlloc_eq m pool n h.nonzero (by omega) (by omega)] at hne ⊢
    have hbds := allocSizeOf_bounds (max n 8)
    obtain ⟨hz, _⟩ | ⟨v', a, b, ht⟩ := osMemAlloc_base hrep (max n 8) (by omega) (by omega)
    · rw [hz] at hne
      exact absurd rfl hne
    · have ha : a.size = size - 952 := by
        rw [List.mem_singleton.mp ht.was]
        rfl
      have hab := hrep.layout.bounds a ht.was
      have hfits := h.search_fits hrep hserved (allocSizeOf (max n 8)) (by omega) (by omega)
        (by omega) (by rw [ht.found]; omega)
      have hcut := ht.cut
      have hptr := ht.ptr
      have hbb := ht.rep.layout.bounds b ht.mem
      have hroom : allocSizeOf (max n 8) ≤ b.size := by
        split at hcut
        · omega
        · omega
      omega

/-! ### The others -/

theorem Region.first_outside (h : Region pool size) (hrep : Rep pool size m h.arena [])
    (hlo : 301989888 ≤ size - 952) (hhi : size - 952 < 536870912) :
    (losMemAlloc m pool 536870912).2 = pool + 952 := by
  have hneed : allocSizeOf (max 536870912 8) = 536870920 := rfl
  have hstart : startIndex 536870920 = 200 := by
    unfold startIndex
    rw [if_neg (by omega), sizeClass_top _ (by omega)]
  have hclass := sizeClass_mono 301989888 (size - 952) hlo hhi
  have h200 : sizeClass 301989888 = 200 := by decide
  have hfind := h.search_fresh hrep 536870920 (by omega) (by omega) (by omega)
  rw [losMemAlloc_eq m pool _ h.nonzero (by omega) (by omega)]
  obtain ⟨_, hz⟩ | ⟨v', a, b, ht⟩ := osMemAlloc_base hrep (max 536870912 8) (by omega) (by omega)
  · rw [hneed] at hz
    omega
  · have hfound := ht.found
    have haddr := ht.addr
    have hptr := ht.ptr
    rw [hneed] at hfound
    omega

theorem osMemListAdd_empty (m : Memory) (i node : Nat) (hp : pool % 4 = 0) (hn : node % 4 = 0)
    (hempty : freeList m pool i = 0) :
    Touches (fun a => a = node + 8 ∨ a = node + 12 ∨ a = pool + 48 + 4 * i ∨
      a = pool + 20 + 4 * (i / 32)) m (osMemListAdd m pool i node) := by
  unfold osMemListAdd osMemSetFreeListBit
  simp only [hempty, Nat.shiftRight_eq_div_pow]
  rw [if_neg (by simp)]
  refine touches_trans _ _ _ _ ?_ (touches_store32 _ _ _ _ (by omega) (by omega))
  refine touches_trans _ _ _ _ ?_ (touches_store32 _ _ _ _ (by omega) (by omega))
  refine touches_trans _ _ _ _ ?_ (touches_store32 _ _ _ _ (by omega) (by omega))
  exact touches_store32 _ _ _ _ (by omega) (by omega)

/-- What the formatter has written before it files the node. -/
def unfiledWords (m : Memory) (pool size w : Nat) : Memory :=
  setPrev (setSizeAndFlag
    (store32 (store32 (store32 (fillBytes m pool 0 944) pool pool) (pool + 4) size) (pool + 8) w)
    (pool + 944) (size - 952)) (pool + 944) (pool + size - 8)

theorem unfiledWords_spec (m : Memory) (w : Nat) (hp : pool % 4 = 0) (hroom : 952 < size)
    (hs : size % 4 = 0) (hsize : size < 4294967296) :
    Touches (fun a => pool ≤ a ∧ a < pool + size) m (unfiledWords m pool size w) ∧
      sizeAndFlag (unfiledWords m pool size w) (pool + 944) = size - 952 ∧
      totalSize (unfiledWords m pool size w) pool = size ∧
      ∀ i < 223, freeList (unfiledWords m pool size w) pool i = 0 := by
  unfold unfiledWords setPrev setSizeAndFlag totalSize
  refine ⟨?_, ?_, ?_, fun i hi => ?_⟩
  · have hfill : Touches (fun a => pool ≤ a ∧ a < pool + size) m (fillBytes m pool 0 944) :=
      fun x hx => fillBytes_outside _ _ _ _ _ (by omega)
    refine touches_trans _ _ _ _ ?_ (touches_store32 _ _ _ _ (by omega) (by omega))
    refine touches_trans _ _ _ _ ?_ (touches_store32 _ _ _ _ (by omega) (by omega))
    refine touches_trans _ _ _ _ ?_ (touches_store32 _ _ _ _ (by omega) (by omega))
    refine touches_trans _ _ _ _ ?_ (touches_store32 _ _ _ _ (by omega) (by omega))
    exact touches_trans _ _ _ _ hfill (touches_store32 _ _ _ _ (by omega) (by omega))
  · exact (load32_store32_aligned _ _ _ _ (by omega) (by omega) (by omega)).trans
      (load32_store32_same _ _ _ (by omega))
  · rw [load32_store32_aligned _ _ _ _ (by omega) (by omega) (by omega),
      load32_store32_aligned _ _ _ _ (by omega) (by omega) (by omega),
      load32_store32_aligned _ _ _ _ (by omega) (by omega) (by omega),
      load32_store32_same _ _ _ hsize]
  · unfold freeList
    rw [load32_store32_aligned _ _ _ _ (by omega) (by omega) (by omega),
      load32_store32_aligned _ _ _ _ (by omega) (by omega) (by omega),
      load32_store32_aligned _ _ _ _ (by omega) (by omega) (by omega),
      load32_store32_aligned _ _ _ _ (by omega) (by omega) (by omega),
      load32_store32_aligned _ _ _ _ (by omega) (by omega) (by omega)]
    exact load32_fillBytes_zero m pool 944 _ (by omega)

theorem osMemFreeNodeAdd_first (k : Memory) (hp : pool % 4 = 0) (hroom : 968 ≤ size)
    (hempty : ∀ i < 223, freeList k pool i = 0) :
    Touches (fun a => pool ≤ a ∧ a < pool + size ∧ a ≠ pool + 948 ∧ a ≠ pool + 4) k
      (osMemFreeNodeAdd k pool (pool + 944)) := by
  unfold osMemFreeNodeAdd
  simp only
  split
  · exact touches_refl _ _
  · next hi =>
    rw [osMemFreeListCount_eq] at hi
    exact touches_mono _ _ _ _ (osMemListAdd_empty k _ (pool + 944) hp (by omega)
      (hempty _ (by omega))) fun a ha => by omega

theorem sentinelWords_spec (k : Memory) (f c w : Nat) (hp : pool % 4 = 0) (hs : size % 4 = 0)
    (hroom : 968 ≤ size) (hinside : pool + size ≤ 4294967296) (m' : Memory)
    (hm' : m' = setWaterLine (setCurUsedSize (setSizeAndFlag (setPrev (setSizeAndFlag k
      (pool + size - 8) 0) (pool + size - 8) (pool + 944)) (pool + size - 8) f) pool c) pool w) :
    Touches (fun a => pool ≤ a ∧ a < pool + size ∧ a ≠ pool + 948 ∧ a ≠ pool + 4) k m' ∧
      prevOf m' (pool + size - 8) = pool + 944 := by
  subst hm'
  unfold setWaterLine setCurUsedSize setSizeAndFlag setPrev prevOf
  refine ⟨?_, ?_⟩
  · refine touches_trans _ _ _ _ ?_ (touches_store32 _ _ _ _ (by omega) (by omega))
    refine touches_trans _ _ _ _ ?_ (touches_store32 _ _ _ _ (by omega) (by omega))
    refine touches_trans _ _ _ _ ?_ (touches_store32 _ _ _ _ (by omega) (by omega))
    refine touches_trans _ _ _ _ ?_ (touches_store32 _ _ _ _ (by omega) (by omega))
    exact touches_store32 _ _ _ _ (by omega) (by omega)
  · rw [load32_store32_aligned _ _ _ _ (by omega) (by omega) (by omega),
      load32_store32_aligned _ _ _ _ (by omega) (by omega) (by omega),
      load32_store32_aligned _ _ _ _ (by omega) (by omega) (by omega),
      load32_store32_same _ _ _ (by omega)]

theorem osMemPoolInit_words (m : Memory) (h0 : pool ≠ 0) (hp : pool % 4 = 0) (hs : size % 4 = 0)
    (hroom : 968 ≤ size) (hinside : pool + size ≤ 4294967296) :
    Touches (fun a => pool ≤ a ∧ a < pool + size) m (osMemPoolInit m pool size) ∧
      sizeAndFlag (osMemPoolInit m pool size) (pool + 944) = size - 952 ∧
      prevOf (osMemPoolInit m pool size) (pool + size - 8) = pool + 944 ∧
      totalSize (osMemPoolInit m pool size) pool = size := by
  obtain ⟨hfirst, hend, hsub⟩ := pool_ends h0 (show 952 ≤ size by omega) hinside
  have hinit : ∃ w f c l, osMemPoolInit m pool size = setWaterLine (setCurUsedSize (setSizeAndFlag
      (setPrev (setSizeAndFlag (osMemFreeNodeAdd (unfiledWords m pool size w) pool (pool + 944))
        (pool + size - 8) 0) (pool + size - 8) (pool + 944)) (pool + size - 8) f) pool c) pool l := by
    unfold osMemPoolInit
    simp only [hfirst, hend, hsub]
    exact ⟨_, _, _, _, rfl⟩
  obtain ⟨w, f, c, l, hinit⟩ := hinit
  obtain ⟨ht, hword, htotal, hempty⟩ := unfiledWords_spec m w hp (by omega) hs (by omega)
  have hadd := osMemFreeNodeAdd_first (unfiledWords m pool size w) hp hroom hempty
  obtain ⟨hlast, hback⟩ := sentinelWords_spec _ f c l hp hs hroom hinside _ hinit
  have hkeep := touches_trans _ _ _ _ hadd hlast
  refine ⟨touches_trans _ _ _ _ ht (touches_mono _ _ _ _ hkeep fun a ha => ⟨ha.1, ha.2.1⟩), ?_,
    hback, ?_⟩
  · exact (touches_load32 _ _ _ hkeep (pool + 944 + 4) (by omega) (by omega)).trans hword
  · exact (touches_load32 _ _ _ hkeep (pool + 4) (by omega) (by omega)).trans htotal

theorem nodeWalk_ge {a e : Nat} {ns : List Nat} (h : NodeWalk m a ns e) : ∀ n ∈ ns, a ≤ n := by
  induction h with
  | done e => exact fun n hn => absurd hn List.not_mem_nil
  | node a ns e hlt rest ih =>
    intro n hn
    rcases List.mem_cons.mp hn with rfl | hn
    · exact le_refl n
    · exact (le_of_lt hlt).trans (ih n hn)

theorem wellFormed_first {ns : List Nat} {ls : Nat → List Nat} (h : WellFormed m pool size ns ls)
    (hne : osMemFirstNode pool ≠ osMemEndNode pool size)
    (hback : prevOf m (osMemEndNode pool size) = osMemFirstNode pool) :
    osMemNextNode m (osMemFirstNode pool) = osMemEndNode pool size := by
  have hwalk := h.walk
  have hprev := h.prev
  generalize osMemFirstNode pool = a at hne hback hwalk ⊢
  generalize osMemEndNode pool size = e at hne hback hwalk hprev ⊢
  cases hwalk with
  | done => exact absurd rfl hne
  | node _ ns _ hlt rest =>
    cases rest with
    | done => rfl
    | node _ ns' _ hlt' rest' =>
      -- the last node of a longer walk lies behind the first
      have hge := nodeWalk_ge (NodeWalk.node _ ns' _ hlt' rest')
      obtain ⟨l, z, hl⟩ := List.eq_nil_or_concat (osMemNextNode m a :: ns') |>.resolve_left (by simp)
      have hz := hge z (by rw [hl]; simp)
      rw [show (a :: osMemNextNode m a :: ns') ++ [e] = (a :: l) ++ [z, e] from by
        rw [hl]; simp] at hprev
      have hlast := (List.isChain_append.mp hprev).2.1
      have hze := (List.isChain_cons_cons.mp hlast).1
      omega

/-- A size with flag bits is cut when it is read back: the pool is not well formed. -/
theorem losMemInit_flagged (fuel : Nat) (s s' : MemState) (hroom : 1073742776 ≤ size)
    (hinside : pool + size ≤ 4294967296)
    (hapart : ∀ q, Registered s.mem s.gPoolHead q → q + 944 ≤ pool ∨ pool + size ≤ q)
    (hinit : losMemInit fuel s pool size = some (s', losOk)) : ¬HeapWf s'.mem pool size := by
  obtain ⟨⟨h0, _, hp, hs⟩, _⟩ := losMemInit_accepts fuel s s' hinit
  obtain ⟨ht, hword, hback, _⟩ := osMemPoolInit_words s.mem h0 hp hs (by omega) hinside
  obtain ⟨hfirst, hend, _⟩ := pool_ends h0 (show 952 ≤ size by omega) hinside
  have hout : ∀ x, x < pool ∨ pool + size ≤ x → osMemPoolInit s.mem pool size x = s.mem x :=
    fun x hx => ht x (by omega)
  have hkeep := losMemInit_words fuel s s' (nextPool_elsewhere s hout hapart) hapart hinit
  intro hwf
  obtain ⟨ns, ls, hwf⟩ := hwf
  have hback' : prevOf s'.mem (pool + size - 8) = pool + 944 :=
    (hkeep _ (by omega) (by omega)).trans hback
  have hword' : sizeAndFlag s'.mem (pool + 944) = size - 952 :=
    (hkeep (pool + 944 + 4) (by omega) (by omega)).trans hword
  have hnext := wellFormed_first hwf (by omega) (by rw [hend, hfirst]; exact hback')
  rw [hfirst, hend] at hnext
  unfold osMemNextNode at hnext
  rw [hword', osMemNodeGetSize_eq, add32_of_lt _ _ (by omega)] at hnext
  omega

/-- Below that size the sentinel lies in the head of the free node. -/
theorem osMemPoolInit_cramped (m : Memory) (h0 : pool ≠ 0) (hp : pool % 4 = 0)
    (hs : size % 4 = 0) (hsmall : 952 < size ∧ size < 968) (hinside : pool + size ≤ 4294967296) :
    Touches (fun a => pool ≤ a ∧ (a < pool + 960 ∨ a < pool + size)) m
        (osMemPoolInit m pool size) ∧
      totalSize (osMemPoolInit m pool size) pool = size ∧
      prevOf (osMemPoolInit m pool size) (pool + size - 8) = pool + 944 ∧
      sizeAndFlag (osMemPoolInit m pool size) (pool + size - 8) = 2147483648 := by
  obtain ⟨hfirst, hend, hsub⟩ := pool_ends h0 (show 952 ≤ size by omega) hinside
  have hinit : ∃ w k c l, k = setPrev (setSizeAndFlag (osMemFreeNodeAdd
        (unfiledWords m pool size w) pool (pool + 944)) (pool + size - 8) 0) (pool + size - 8)
        (pool + 944) ∧ osMemPoolInit m pool size = setWaterLine (setCurUsedSize (setSizeAndFlag k
      (pool + size - 8) (osMemNodeSetUsedFlag (sizeAndFlag k (pool + size - 8)))) pool c) pool l := by
    unfold osMemPoolInit
    simp only [hfirst, hend, hsub]
    exact ⟨_, _, _, _, rfl, rfl⟩
  obtain ⟨w, k, c, l, hk, hinit⟩ := hinit
  obtain ⟨ht, _, htotal, hempty⟩ := unfiledWords_spec m w hp (by omega) hs (by omega)
  have hadd : Touches (fun a => pool + 4 < a ∧ a < pool + 960) (unfiledWords m pool size w)
      (osMemFreeNodeAdd (unfiledWords m pool size w) pool (pool + 944)) := by
    unfold osMemFreeNodeAdd
    simp only
    split
    · exact touches_refl _ _
    · next hi =>
      rw [osMemFreeListCount_eq] at hi
      exact touches_mono _ _ _ _ (osMemListAdd_empty _ _ (pool + 944) hp (by omega)
        (hempty _ (by omega))) fun a ha => by omega
  have hfiled : Touches (fun a => pool ≤ a ∧ (a < pool + 960 ∨ a < pool + size)) m _ :=
    touches_trans _ _ _ _ (touches_mono _ _ _ _ ht fun a ha => ⟨ha.1, Or.inr ha.2⟩)
      (touches_mono _ _ _ _ hadd fun a ha => by omega)
  have htotal := (touches_load32 _ _ _ hadd (pool + 4) (by omega) (by omega)).trans htotal
  generalize osMemFreeNodeAdd (unfiledWords m pool size w) pool (pool + 944) = f at hk hfiled htotal
  have hzero : sizeAndFlag k (pool + size - 8) = 0 := by
    rw [hk]
    exact (load32_store32_aligned _ _ _ _ (by omega) (by omega) (by omega)).trans
      (load32_store32_same _ _ _ (by omega))
  have hflag : osMemNodeSetUsedFlag 0 = 2147483648 := osMemNodeSetUsedFlag_eq 0 (by omega)
  rw [hzero, hflag] at hinit
  rw [hinit, hk]
  unfold setWaterLine setCurUsedSize setSizeAndFlag setPrev prevOf sizeAndFlag
  refine ⟨?_, ?_, ?_, ?_⟩
  · refine touches_trans _ _ _ _ ?_ (touches_store32 _ _ _ _ (by omega) (by omega))
    refine touches_trans _ _ _ _ ?_ (touches_store32 _ _ _ _ (by omega) (by omega))
    refine touches_trans _ _ _ _ ?_ (touches_store32 _ _ _ _ (by omega) (by omega))
    refine touches_trans _ _ _ _ ?_ (touches_store32 _ _ _ _ (by omega) (by omega))
    exact touches_trans _ _ _ _ hfiled (touches_store32 _ _ _ _ (by omega) (by omega))
  · unfold totalSize
    rw [load32_store32_aligned _ _ _ _ (by omega) (by omega) (by omega),
      load32_store32_aligned _ _ _ _ (by omega) (by omega) (by omega),
      load32_store32_aligned _ _ _ _ (by omega) (by omega) (by omega),
      load32_store32_aligned _ _ _ _ (by omega) (by omega) (by omega),
      load32_store32_aligned _ _ _ _ (by omega) (by omega) (by omega)]
    exact htotal
  · rw [load32_store32_aligned _ _ _ _ (by omega) (by omega) (by omega),
      load32_store32_aligned _ _ _ _ (by omega) (by omega) (by omega),
      load32_store32_aligned _ _ _ _ (by omega) (by omega) (by omega),
      load32_store32_same _ _ _ (by omega)]
  · rw [load32_store32_aligned _ _ _ _ (by omega) (by omega) (by omega),
      load32_store32_aligned _ _ _ _ (by omega) (by omega) (by omega),
      load32_store32_same _ _ _ (by omega)]

/-- The formatted pool is what it should be exactly for the sizes served. -/
theorem losMemInit_formats (pool size fuel : Nat) (s s' : MemState)
    (hinside : pool + size ≤ 4294967296)
    (hapart : ∀ q, Registered s.mem s.gPoolHead q → q + 944 ≤ pool ∨ pool + size ≤ q)
    (hinit : losMemInit fuel s pool size = some (s', losOk)) :
    PoolFormatted pool size s s' ↔ PoolSizeServed size := by
  obtain ⟨⟨h0, hmin, hp, hs⟩, _⟩ := losMemInit_accepts fuel s s' hinit
  constructor
  · intro hf
    have hroom : 968 ≤ size := by
      have hheads := hf.apart
      unfold osMemFirstNode osMemEndNode osMemMinLeftSize osMemPoolHeadSize osMemNodeHeadSize
        add32 sub32 at hheads
      omega
    have hflag : size < 1073742776 := by
      by_contra hlarge
      exact losMemInit_flagged fuel s s' (by omega) hinside hapart hinit hf.wellFormed
    refine ⟨hroom, ?_⟩
    by_contra hwrap
    have h : Region pool size := ⟨h0, hp, hs, hroom, hflag, hinside⟩
    have hptr := h.first_outside (losMemInit_arena fuel s s' h hapart hinit) (by omega) (by omega)
    have hin := hf.first 536870912 (by omega) (by omega)
    omega
  · intro hserved
    have hroom := hserved.1
    have h : Region pool size := ⟨h0, hp, hs, hroom, by have := hserved.2; omega, hinside⟩
    have hrep := losMemInit_arena fuel s s' h hapart hinit
    obtain ⟨hfirst, hend, _⟩ := h.ends
    refine ⟨osMemPoolInit_outside h s.mem, ?_, ⟨_, _, hrep.heapWf⟩, h.first_inside hrep hserved⟩
    rw [hfirst, hend]
    unfold osMemMinLeftSize
    omega

end

/-- The first pool is served. -/
theorem losMemInit_formats_firstPool : PoolFormatted 4096 1024 zeroState firstPool :=
  (losMemInit_formats 4096 1024 1 zeroState firstPool (by omega)
    (fun q hq => (zeroState_registered q hq).elim) losMemInit_firstPool).mpr
    ⟨by omega, Or.inl (by omega)⟩

def onesState : MemState := ⟨fun _ => 1, 0⟩

/-- 956 bytes are accepted, and the byte behind them is overwritten. -/
theorem losMemInit_under_floor : ∃ s', losMemInit 1 onesState 4096 956 = some (s', losOk) ∧
    osMemPoolInit onesState.mem 4096 956 (4096 + 956) = 0 ∧
    ¬PoolFormatted 4096 956 onesState s' := by
  have hbyte : osMemPoolInit onesState.mem 4096 956 (4096 + 956) = 0 := by decide +kernel
  refine ⟨_, rfl, hbyte, fun hf => ?_⟩
  have hsame := hf.inside (4096 + 956) (by omega)
  rw [hbyte] at hsame
  cases hsame

end LiteosM.Heap
