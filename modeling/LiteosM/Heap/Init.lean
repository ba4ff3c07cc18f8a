import LiteosM.Heap.Realloc

/-!
# A fresh pool

`LOS_MemInit` leaves one free block between the pool head and the sentinel,
whatever the memory held before.
-/

namespace LiteosM.Heap
open Lib.ByteMemory Lib.Word32 Lib.LinkedList

section
variable {pool size : Nat} {m : Memory} {v : Arena} {P : List Nat}

def Region.block (h : Region pool size) : Block where
  addr := pool + 944
  size := size - 952
  owner := none
  aligned := by have := h.aligned; omega
  whole := by have := h.whole; have := h.room; omega
  room := by have := h.room; omega
  inside := by simp

theorem Region.layout (h : Region pool size) :
    Layout pool size ⟨[h.block], fun _ => []⟩ [pool + 944] where
  region := h
  tile := by
    refine ⟨rfl, ?_⟩
    show pool + 944 + (size - 952) = pool + size - 8
    have := h.room
    omega
  filed := by
    intro b hb _ hP
    rw [List.mem_singleton.mp hb] at hP
    exact absurd (List.mem_singleton_self _) hP
  member := fun _ _ hn => absurd hn List.not_mem_nil
  nodup := fun _ => List.nodup_nil
  apart := List.isChain_singleton _

def poolHeadWords (m : Memory) (pool size : Nat) : Memory :=
  setPrev (setSizeAndFlag
    (store32 (store32 (store32 (fillBytes m pool 0 944) pool pool) (pool + 4) size) (pool + 8) 0)
    (pool + 944) (size - 952)) (pool + 944) (pool + size - 8)

theorem pool_ends (h0 : pool ≠ 0) (hroom : 952 ≤ size) (hinside : pool + size ≤ 4294967296) :
    osMemFirstNode pool = pool + 944 ∧ osMemEndNode pool size = pool + size - 8 ∧
      sub32 (sub32 size osMemPoolHeadSize) osMemNodeHeadSize = size - 952 := by
  unfold osMemFirstNode osMemEndNode osMemPoolHeadSize osMemNodeHeadSize
  refine ⟨add32_of_lt _ _ (by omega), ?_, ?_⟩
  · unfold add32 sub32
    omega
  · rw [sub32_of_le size 944 (by omega) (by omega),
      sub32_of_le (size - 944) 8 (by omega) (by omega)]
    omega

theorem Region.ends (h : Region pool size) :
    osMemFirstNode pool = pool + 944 ∧ osMemEndNode pool size = pool + size - 8 ∧
      sub32 (sub32 size osMemPoolHeadSize) osMemNodeHeadSize = size - 952 :=
  pool_ends h.nonzero (by have := h.room; omega) h.inside

theorem Region.head_zero (h : Region pool size) (m : Memory) (a : Nat) (h4 : a % 4 = 0)
    (hlo : pool + 12 ≤ a) (hhi : a < pool + 944) : load32 (poolHeadWords m pool size) a = 0 := by
  have hp := h.aligned
  unfold poolHeadWords setPrev setSizeAndFlag
  rw [load32_store32_aligned _ _ _ _ (by omega) h4 (by omega),
    load32_store32_aligned _ _ _ _ (by omega) h4 (by omega),
    load32_store32_aligned _ _ _ _ (by omega) h4 (by omega),
    load32_store32_aligned _ _ _ _ (by omega) h4 (by omega),
    load32_store32_aligned _ _ _ _ (by omega) h4 (by omega)]
  exact load32_fillBytes_zero m pool 944 a (by omega)

def filedBlock (m : Memory) (pool size : Nat) : Memory :=
  osMemListAdd (poolHeadWords m pool size) pool (sizeClass (size - 952)) (pool + 944)

theorem Region.load32_filedBlock (h : Region pool size) (m : Memory) (a : Nat) (h4 : a % 4 = 0) :
    load32 (filedBlock m pool size) a =
      if a = pool + 20 + 4 * (sizeClass (size - 952) / 32) then
        load32 (poolHeadWords m pool size) a ||| 1 <<< (sizeClass (size - 952) % 32)
      else if a = pool + 48 + 4 * sizeClass (size - 952) then pool + 944
      else if a = pool + 944 + 12 then 0
      else if a = pool + 944 + 8 then 0
      else load32 (poolHeadWords m pool size) a := by
  have hlim := h.limit
  have hroom := h.room
  have hp := h.aligned
  have hi := sizeClass_lt (size - 952) (by omega)
  have hzero : freeList (poolHeadWords m pool size) pool (sizeClass (size - 952)) = 0 :=
    h.head_zero m _ (by omega) (by omega) (by omega)
  have hn : FreeAddr [h.block] (pool + 944) := Or.inr ⟨h.block, by simp, rfl, rfl⟩
  have hread := load32_osMemListAdd (m := poolHeadWords m pool size) h.layout
    (sizeClass (size - 952)) (pool + 944) a (by omega) hn (by omega)
    (by rw [hzero]; exact Or.inl rfl) (by omega) h4
  rw [hzero] at hread
  simp only [ne_eq, not_true_eq_false, false_and, ite_false] at hread
  exact hread

theorem Region.osMemPoolInit_eq (h : Region pool size) (m : Memory) :
    osMemPoolInit m pool size =
      store32 (store32 (store32 (store32 (store32 (filedBlock m pool size)
        (pool + size - 8 + 4) 0) (pool + size - 8) (pool + 944)) (pool + size - 8 + 4) 2147483648)
        (pool + 16) 952) (pool + 12) 952 := by
  have hlim := h.limit
  have hroom := h.room
  have hp := h.aligned
  have hs := h.whole
  have hattr : load32 (store32 (store32 (fillBytes m pool 0 osMemPoolHeadSize) pool pool)
      (pool + 4) size) (pool + 8) &&& not32 3 = 0 := by
    rw [load32_store32_aligned _ _ _ _ (by omega) (by omega) (by omega),
      load32_store32_aligned _ _ _ _ (by omega) (by omega) (by omega),
      load32_fillBytes_zero m pool _ _ (by unfold osMemPoolHeadSize; omega)]
    exact Nat.zero_and _
  have hfile : osMemFreeNodeAdd (poolHeadWords m pool size) pool (pool + 944) =
      filedBlock m pool size := by
    have hword : sizeAndFlag (poolHeadWords m pool size) (pool + 944) = size - 952 := by
      unfold poolHeadWords
      exact (load32_store32_aligned _ _ _ _ (by omega) (by omega) (by omega)).trans
        (load32_store32_same _ _ _ (by omega))
    have hi := sizeClass_lt (size - 952) (by omega)
    unfold osMemFreeNodeAdd filedBlock
    simp only [hword, osMemFreeListIndexGet_eq (size - 952) (by omega) (by omega)]
    exact if_neg (by rw [osMemFreeListCount_eq]; omega)
  have hused : ∀ k : Memory, osMemNodeSetUsedFlag (sizeAndFlag (setPrev (setSizeAndFlag k
      (pool + size - 8) 0) (pool + size - 8) (pool + 944)) (pool + size - 8)) = 2147483648 := by
    intro k
    have hz : sizeAndFlag (setPrev (setSizeAndFlag k (pool + size - 8) 0) (pool + size - 8)
        (pool + 944)) (pool + size - 8) = 0 :=
      (load32_store32_aligned _ _ _ _ (by omega) (by omega) (by omega)).trans
        (load32_store32_same _ _ _ (by omega))
    rw [hz, osMemNodeSetUsedFlag_eq 0 (by omega)]
  have hcur : ∀ k : Memory,
      curUsedSize (setCurUsedSize k pool (osMemPoolHeadSize + osMemNodeHeadSize)) pool = 952 :=
    fun k => load32_store32_same _ _ _ (by decide)
  unfold osMemPoolInit
  simp only [hattr, h.ends.1, h.ends.2.1, h.ends.2.2]
  rw [show setPrev (setSizeAndFlag (store32 (store32 (store32
    (fillBytes m pool 0 osMemPoolHeadSize) pool pool) (pool + 4) size) (pool + 8) 0)
    (pool + 944) (size - 952)) (pool + 944) (pool + size - 8) = poolHeadWords m pool size from rfl,
    hfile, hused, hcur]
  rfl

def Region.arena (h : Region pool size) : Arena :=
  ⟨[h.block], Function.update (fun _ => []) (sizeClass (size - 952)) [pool + 944]⟩

theorem Region.filed_layout (h : Region pool size) : Layout pool size h.arena [] := by
  have hl := h.layout.list (b := h.block) (by simp) rfl (by simp) (List.isChain_singleton _)
  simpa [Arena.list, Region.arena, Region.block] using hl

theorem Region.filed_lists (h : Region pool size) (m : Memory) :
    Lists (filedBlock m pool size) pool h.arena.lists := by
  have hlim := h.limit
  have hroom := h.room
  have hp := h.aligned
  have hi := sizeClass_lt (size - 952) (by omega)
  have hread := h.load32_filedBlock m
  generalize hc : sizeClass (size - 952) = c at hi hread
  have hnext : freeNext (filedBlock m pool size) (pool + 944) = 0 := by
    unfold freeNext
    rw [hread _ (by omega), if_neg (by omega), if_neg (by omega), if_pos rfl]
  have hprev : freePrev (filedBlock m pool size) (pool + 944) = 0 := by
    unfold freePrev
    rw [hread _ (by omega), if_neg (by omega), if_neg (by omega), if_neg (by omega), if_pos rfl]
  refine ⟨fun i hlt => ?_, fun i hlt => ?_⟩
  · by_cases hic : i = c
    · have hhead : freeList (filedBlock m pool size) pool i = pool + 944 := by
        unfold freeList
        rw [hread _ (by omega), if_neg (by omega), if_pos (by rw [hic])]
      have hl : h.arena.lists i = [pool + 944] := by simp [Region.arena, hc, hic]
      have hne : pool + 944 ≠ 0 := by omega
      rw [hl]
      refine List.isChain_cons_cons.mpr ⟨⟨?_, fun _ => hprev⟩, List.isChain_pair.mpr ⟨?_, ?_⟩⟩
      · rw [freeLinks, if_pos rfl, hhead]
      · rw [freeLinks, if_neg hne, hnext]
      · exact fun h0 => absurd rfl h0
    · have hhead : freeList (filedBlock m pool size) pool i = 0 := by
        unfold freeList
        rw [hread _ (by omega), if_neg (by omega), if_neg (by omega), if_neg (by omega),
          if_neg (by omega), h.head_zero m _ (by omega) (by omega) (by omega)]
      have hl : h.arena.lists i = [] := by simp [Region.arena, hc, hic]
      rw [hl, links_nil]
      refine ⟨?_, fun h0 => absurd rfl h0⟩
      rw [freeLinks, if_pos rfl, hhead]
  · unfold freeListBitmap
    rw [hread _ (by omega), h.head_zero m _ (by omega) (by omega) (by omega)]
    by_cases hw : i / 32 = c / 32
    · rw [if_pos (by omega), (testBit_word 0 c i hw.symm (by omega)).1, Nat.zero_testBit,
        Bool.or_false]
      by_cases hic : i = c
      · simp [Region.arena, hc, hic]
      · simp [Region.arena, hc, hic]
    · have hic : i ≠ c := fun he => hw (by rw [he])
      rw [if_neg (by omega), if_neg (by omega), if_neg (by omega), if_neg (by omega),
        Nat.zero_testBit]
      simp [Region.arena, hc, hic]

theorem osMemPoolInit_rep (h : Region pool size) (m : Memory) :
    Rep pool size (osMemPoolInit m pool size) h.arena [] := by
  have hlim := h.limit
  have hroom := h.room
  have hp := h.aligned
  have hs := h.whole
  have hin := h.inside
  have hlay := h.filed_layout
  have hinit := h.osMemPoolInit_eq m
  rw [hinit]
  have hrep : Rep pool size (store32 (store32 (store32 (filedBlock m pool size)
      (pool + size - 8 + 4) 0) (pool + size - 8) (pool + 944)) (pool + size - 8 + 4) 2147483648)
      h.arena [] := by
    refine ⟨hlay, ⟨?_, ?_, ?_, fun b hb => ?_⟩, ?_⟩
    · unfold totalSize
      rw [load32_store32_aligned _ _ _ _ (by omega) (by omega) (by omega),
        load32_store32_aligned _ _ _ _ (by omega) (by omega) (by omega),
        load32_store32_aligned _ _ _ _ (by omega) (by omega) (by omega),
        h.load32_filedBlock m _ (by omega), if_neg (by omega), if_neg (by omega),
        if_neg (by omega), if_neg (by omega)]
      unfold poolHeadWords setPrev setSizeAndFlag
      rw [load32_store32_aligned _ _ _ _ (by omega) (by omega) (by omega),
        load32_store32_aligned _ _ _ _ (by omega) (by omega) (by omega),
        load32_store32_aligned _ _ _ _ (by omega) (by omega) (by omega),
        load32_store32_same _ _ _ (by omega)]
    · unfold prevOf
      have hi := sizeClass_lt (size - 952) (by omega)
      rw [load32_store32_aligned _ _ _ _ (by omega) (by omega) (by omega),
        load32_store32_aligned _ _ _ _ (by omega) (by omega) (by omega),
        load32_store32_aligned _ _ _ _ (by omega) (by omega) (by omega),
        h.load32_filedBlock m _ (by omega), if_neg (by omega), if_neg (by omega),
        if_neg (by omega), if_neg (by omega)]
      exact load32_store32_same _ _ _ (by omega)
    · exact load32_store32_same _ _ _ (by omega)
    · have hbe : b = h.block := List.mem_singleton.mp hb
      have hi := sizeClass_lt (size - 952) (by omega)
      have hend : h.block.addr + h.block.size = pool + size - 8 := by
        show pool + 944 + (size - 952) = _
        omega
      subst hbe
      refine ⟨?_, ?_, fun p hp => by cases hp⟩
      · show load32 _ (pool + 944 + 4) = size - 952
        rw [load32_store32_aligned _ _ _ _ (by omega) (by omega) (by omega),
          load32_store32_aligned _ _ _ _ (by omega) (by omega) (by omega),
          load32_store32_aligned _ _ _ _ (by omega) (by omega) (by omega),
          h.load32_filedBlock m _ (by omega), if_neg (by omega), if_neg (by omega),
          if_neg (by omega), if_neg (by omega)]
        unfold poolHeadWords setPrev setSizeAndFlag
        rw [load32_store32_aligned _ _ _ _ (by omega) (by omega) (by omega),
          load32_store32_same _ _ _ (by omega)]
      · rw [hend]
        unfold prevOf
        rw [load32_store32_aligned _ _ _ _ (by omega) (by omega) (by omega),
          load32_store32_same _ _ _ (by omega)]
        rfl
    · refine (h.filed_lists m).frame (A := fun a => pool + size - 8 ≤ a) hlay ?_ fun a ha hw => ?_
      · refine touches_trans _ _ _ _ ?_ (touches_store32 _ _ _ _ (by omega) (by omega))
        refine touches_trans _ _ _ _ ?_ (touches_store32 _ _ _ _ (by omega) (by omega))
        exact touches_store32 _ _ _ _ (by omega) (by omega)
      · rcases hw with hw | ⟨i, n, hn, hw⟩
        · omega
        · obtain ⟨_, b, hb, rfl, _⟩ := hlay.member i n hn
          have hbb := hlay.bounds b hb
          have hbr := b.room
          omega
  refine (hrep.stat ?_ fun _ => False).1
  refine touches_trans _ _ _ _ ?_ (touches_store32 _ _ _ _ (by omega) (Or.inl rfl))
  exact touches_store32 _ _ _ _ (by omega) (Or.inr (Or.inl rfl))

theorem Region.search_fresh (h : Region pool size) {m' : Memory} (hrep : Rep pool size m' h.arena [])
    (s : Nat) (h16 : 16 ≤ s) (hs : s < 1140850688) (hle : startIndex s ≤ sizeClass (size - 952)) :
    (osMemFindNextSuitableBlock m' pool s).1 = pool + 944 := by
  have hlists : h.arena.lists (sizeClass (size - 952)) = [pool + 944] := by simp [Region.arena]
  obtain ⟨j, hfirst, hfind⟩ | ⟨hempty, _⟩ := osMemFindNextSuitableBlock_cases hrep s h16 hs
  · have hm := freeList_mem hrep j hfirst.nonempty
    obtain ⟨_, b, hb, hbn, _⟩ := hrep.layout.member j _ hm
    rw [List.mem_singleton.mp hb] at hbn
    rw [hfind]
    exact hbn.symm
  · rw [hempty _ hle] at hlists
    cases hlists

/-! ### LOS_MemInit -/

/-- The pools on the chain of `g_poolHead`. -/
inductive Registered (m : Memory) (gPoolHead : Nat) : Nat → Prop
  | head (h : gPoolHead ≠ 0) : Registered m gPoolHead gPoolHead
  | next {q : Nat} (hq : Registered m gPoolHead q) (h : nextPool m q ≠ 0) :
      Registered m gPoolHead (nextPool m q)

theorem Rep.write_outside {m' : Memory} (h : Rep pool size m v P)
    (hx : ∀ x, pool ≤ x → x < pool + size → m' x = m x) :
    Rep pool size m' v P := by
  have hp := h.layout.region.aligned
  have hs := h.layout.region.whole
  have hroom := h.layout.region.room
  have ht : Touches (fun a => a < pool ∨ pool + size ≤ a) m m' := by
    intro x hnot
    exact hx x (by omega) (by omega)
  refine h.frame ht (fun a ha hh => ?_) fun a ha hl => ?_
  · rcases hh with hh | hh | hh | ⟨b, hb, hh⟩
    · omega
    · omega
    · omega
    · have hbb := h.layout.bounds b hb
      rcases hh with hh | hh | ⟨p, hp, _, hh⟩
      · have := b.room
        omega
      · omega
      · have hin := b.inside p hp
        omega
  · rcases hl with hl | ⟨b, hb, _, hl⟩
    · omega
    · have hbb := h.layout.bounds b hb
      have := b.room
      omega

theorem Region.osMemPoolInit_first (h : Region pool size) (m : Memory) :
    load32 (osMemPoolInit m pool size) pool = pool := by
  have hroom := h.room
  have hp := h.aligned
  have hs := h.whole
  have hin := h.inside
  have hinit := h.osMemPoolInit_eq m
  rw [hinit, load32_store32_aligned _ _ _ _ (by omega) hp (by omega),
    load32_store32_aligned _ _ _ _ (by omega) hp (by omega),
    load32_store32_aligned _ _ _ _ (by omega) hp (by omega),
    load32_store32_aligned _ _ _ _ (by omega) hp (by omega),
    load32_store32_aligned _ _ _ _ (by omega) hp (by omega),
    h.load32_filedBlock m _ hp, if_neg (by omega), if_neg (by omega), if_neg (by omega),
    if_neg (by omega)]
  unfold poolHeadWords setPrev setSizeAndFlag
  rw [load32_store32_aligned _ _ _ _ (by omega) hp (by omega),
    load32_store32_aligned _ _ _ _ (by omega) hp (by omega),
    load32_store32_aligned _ _ _ _ (by omega) hp (by omega),
    load32_store32_aligned _ _ _ _ (by omega) hp (by omega),
    load32_store32_same _ _ _ (by omega)]

theorem store32_outside_region (m : Memory) (a w : Nat) (ha : a + 4 ≤ pool ∨ pool + size ≤ a)
    (x : Nat) (hlo : pool ≤ x) (hhi : x < pool + size) : store32 m a w x = m x :=
  store32_outside m a w x (by omega)

theorem osMemPoolInit_outside (h : Region pool size) (m : Memory) (x : Nat)
    (hx : x < pool ∨ pool + size ≤ x) : osMemPoolInit m pool size x = m x := by
  have hlim := h.limit
  have hroom := h.room
  have hp := h.aligned
  have hs := h.whole
  have hi := sizeClass_lt (size - 952) (by omega)
  have hinit := h.osMemPoolInit_eq m
  have hfile : Touches (fun a => pool ≤ a ∧ a < pool + size) (poolHeadWords m pool size)
      (filedBlock m pool size) := by
    refine touches_of_load32 _ _ _ fun a h4 ha => ?_
    rw [h.load32_filedBlock m a h4, if_neg (by omega), if_neg (by omega), if_neg (by omega),
      if_neg (by omega)]
  rw [hinit, store32_outside _ _ _ _ (by omega), store32_outside _ _ _ _ (by omega),
    store32_outside _ _ _ _ (by omega), store32_outside _ _ _ _ (by omega),
    store32_outside _ _ _ _ (by omega), hfile x (by omega)]
  unfold poolHeadWords setPrev setSizeAndFlag
  rw [store32_outside _ _ _ _ (by omega), store32_outside _ _ _ _ (by omega),
    store32_outside _ _ _ _ (by omega), store32_outside _ _ _ _ (by omega),
    store32_outside _ _ _ _ (by omega), fillBytes_outside _ _ _ _ _ (by omega)]

theorem osMemPoolConflict_registered {m' : Memory} {gPoolHead : Nat}
    (hsame : ∀ q, Registered m gPoolHead q → nextPool m' q = nextPool m q) (fuel next cur r : Nat)
    (hnext : next = 0 ∨ Registered m gPoolHead next) (hcur : Registered m gPoolHead cur)
    (hr : osMemPoolConflict m' pool size fuel next cur = some (false, r)) :
    Registered m gPoolHead r := by
  induction fuel generalizing next cur with
  | zero => cases hr
  | succ fuel ih =>
    unfold osMemPoolConflict at hr
    split at hr
    · cases hr
      exact hcur
    · next h0 =>
      have hreg := hnext.resolve_left h0
      simp only at hr
      split at hr
      · cases hr
      · rw [hsame next hreg] at hr
        refine ih (nextPool m next) next ?_ hreg hr
        by_cases hz : nextPool m next = 0
        · exact Or.inl hz
        · exact Or.inr (Registered.next hreg hz)

theorem losMemInit_accepts (fuel : Nat) (s s' : MemState)
    (hinit : losMemInit fuel s pool size = some (s', losOk)) :
    (pool ≠ 0 ∧ 952 < size ∧ pool % 4 = 0 ∧ size % 4 = 0) ∧
      osMemPoolAdd fuel { s with mem := osMemPoolInit s.mem pool size } pool size =
        some (s', losOk) := by
  unfold losMemInit at hinit
  split at hinit
  · cases hinit
  · next h0 =>
    split at hinit
    · cases hinit
    · next h4 =>
      have hmod : ∀ x, x &&& (osMemAlignSize - 1) = x % 4 := fun x =>
        Nat.and_two_pow_sub_one_eq_mod x 2
      rw [hmod, hmod] at h4
      unfold osMemMinPoolSize osMemNodeHeadSize osMemPoolHeadSize at h0
      refine ⟨by omega, ?_⟩
      cases hadd : osMemPoolAdd fuel { s with mem := osMemPoolInit s.mem pool size } pool size with
      | none => rw [hadd] at hinit; cases hinit
      | some r =>
        obtain ⟨t, ret⟩ := r
        rw [hadd] at hinit
        cases ret with
        | zero => cases hinit; rfl
        | succ ret => cases hinit

theorem osMemPoolAdd_chained (fuel : Nat) (s s' : MemState) (m : Memory)
    (hsame : ∀ q, Registered m s.gPoolHead q → nextPool s.mem q = nextPool m q)
    (hadd : osMemPoolAdd fuel s pool size = some (s', losOk)) :
    s'.mem = setNextPool s.mem pool 0 ∨ ∃ cur, Registered m s.gPoolHead cur ∧
      s'.mem = setNextPool (setNextPool s.mem cur pool) pool 0 := by
  unfold osMemPoolAdd at hadd
  simp only at hadd
  cases hwalk : osMemPoolConflict s.mem pool size fuel s.gPoolHead s.gPoolHead with
  | none => rw [hwalk] at hadd; cases hadd
  | some r =>
    obtain ⟨conflict, cur⟩ := r
    rw [hwalk] at hadd
    cases conflict with
    | true => cases hadd
    | false =>
      by_cases hg : s.gPoolHead = 0
      · simp only [hg, ite_true, losOk] at hadd
        cases hadd
        exact Or.inl rfl
      · simp only [hg, ite_false, losOk] at hadd
        cases hadd
        exact Or.inr ⟨cur, osMemPoolConflict_registered hsame fuel _ _ cur
          (Or.inr (Registered.head hg)) (Registered.head hg) hwalk, rfl⟩

theorem nextPool_elsewhere (s : MemState)
    (hout : ∀ x, x < pool ∨ pool + size ≤ x → osMemPoolInit s.mem pool size x = s.mem x)
    (hapart : ∀ q, Registered s.mem s.gPoolHead q → q + 944 ≤ pool ∨ pool + size ≤ q) (q : Nat)
    (hq : Registered s.mem s.gPoolHead q) :
    nextPool (osMemPoolInit s.mem pool size) q = nextPool s.mem q := by
  have hqa := hapart q hq
  exact load32_congr _ _ _ fun x hlo hhi => hout x (by omega)

theorem losMemInit_words (fuel : Nat) (s s' : MemState)
    (hsame : ∀ q, Registered s.mem s.gPoolHead q →
      nextPool (osMemPoolInit s.mem pool size) q = nextPool s.mem q)
    (hapart : ∀ q, Registered s.mem s.gPoolHead q → q + 944 ≤ pool ∨ pool + size ≤ q)
    (hinit : losMemInit fuel s pool size = some (s', losOk)) (a : Nat) (h4 : a % 4 = 0)
    (ha : pool ≤ a ∧ a < pool + size ∧ a ≠ pool + 940) :
    load32 s'.mem a = load32 (osMemPoolInit s.mem pool size) a := by
  obtain ⟨⟨_, _, hp, _⟩, hadd⟩ := losMemInit_accepts fuel s s' hinit
  obtain hmem | ⟨cur, hcur, hmem⟩ := osMemPoolAdd_chained fuel _ s' s.mem hsame hadd
  · rw [hmem]
    exact load32_store32_apart _ _ _ _ (by omega)
  · have hca := hapart cur hcur
    rw [hmem]
    exact (load32_store32_apart _ _ _ _ (by omega)).trans
      (load32_store32_apart _ _ _ _ (by omega))

theorem losMemInit_arena (fuel : Nat) (s s' : MemState) (h : Region pool size)
    (hapart : ∀ q, Registered s.mem s.gPoolHead q → q + 944 ≤ pool ∨ pool + size ≤ q)
    (hinit : losMemInit fuel s pool size = some (s', losOk)) : Rep pool size s'.mem h.arena [] := by
  have hp := h.aligned
  have hrep := osMemPoolInit_rep h s.mem
  have hsame := nextPool_elsewhere s (osMemPoolInit_outside h s.mem) hapart
  obtain hmem | ⟨cur, hcur, hmem⟩ :=
    osMemPoolAdd_chained fuel _ s' s.mem hsame (losMemInit_accepts fuel s s' hinit).2
  · rw [hmem]
    exact (hrep.stat (touches_store32 _ _ _ _ (by omega) (Or.inr (Or.inr rfl))) fun _ => False).1
  · have hca := hapart cur hcur
    have hlink := hrep.write_outside (store32_outside_region _ (cur + 940) pool (by omega))
    rw [hmem]
    exact (hlink.stat (touches_store32 _ _ _ _ (by omega) (Or.inr (Or.inr rfl))) fun _ => False).1

theorem losMemInit_rep (fuel : Nat) (s s' : MemState) (hroom : 968 ≤ size)
    (hlimit : size < 1073742776) (hinside : pool + size ≤ 4294967296)
    (hapart : ∀ q, Registered s.mem s.gPoolHead q → q + 944 ≤ pool ∨ pool + size ≤ q)
    (hinit : losMemInit fuel s pool size = some (s', losOk)) :
    ∃ v, Rep pool size s'.mem v [] ∧ ∀ b ∈ v.blocks, b.owner = none := by
  have hargs := (losMemInit_accepts fuel s s' hinit).1
  have h : Region pool size := ⟨by omega, by omega, by omega, hroom, hlimit, hinside⟩
  refine ⟨h.arena, losMemInit_arena fuel s s' h hapart hinit, fun b hb => ?_⟩
  rw [List.mem_singleton.mp hb]
  rfl

end

end LiteosM.Heap
