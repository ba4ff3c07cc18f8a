import LiteosM.Heap.Nodes
import Mathlib.Data.List.Perm.Subperm

/-!
# Searching a free node

The bitmap search of `OsMemFindNextSuitableBlock` ends in the first non-empty
list from a start index on, or else in the request's own list. Whether that
list holds large enough nodes is a matter of the order of the classes: see
`Orderly`.
-/

namespace LiteosM.Heap
open Lib.ByteMemory Lib.Word32 Lib.LinkedList

theorem osMemFFS_spec (w : Nat) (h0 : w ≠ 0) (hw : w < 4294967296) :
    osMemFFS w < 32 ∧ w.testBit (osMemFFS w) = true ∧
      ∀ j < osMemFFS w, w.testBit j = false := by
  obtain ⟨k, hk, hlow, hbit, hmin⟩ := and_neg_eq_low_bit w h0 hw
  have hp := Nat.two_pow_pos k
  have hc := clz32_lt (2 ^ k) (by omega)
  have hffs : osMemFFS w = k := by
    unfold osMemFFS osMemBitmapMask
    simp only [hlow]
    rw [sub32_of_le _ _ (by omega) (by omega), clz32_two_pow k hk]
    omega
  rw [hffs]
  exact ⟨hk, hbit, hmin⟩

section
variable {pool size : Nat} {m : Memory} {v : Arena} {P : List Nat}

/-- `j` is the first non-empty list from `index` on. -/
structure FirstList (ls : Nat → List Nat) (index j : Nat) : Prop where
  above : index ≤ j
  lt : j < 224
  nonempty : ls j ≠ []
  first : ∀ k, index ≤ k → k < j → ls k = []

theorem Rep.bit_false (h : Rep pool size m v P) (w k : Nat) (hk : k < 224) (hw : w = k / 32)
    (hbit : (freeListBitmap m pool w).testBit (k % 32) = false) : v.lists k = [] := by
  have hl := h.lists.bit k hk
  rw [← hw, hbit] at hl
  by_contra hne
  rw [decide_eq_true hne] at hl
  cases hl

theorem osMemNotEmptyIndexGet_spec (h : Rep pool size m v P) (index : Nat) (hi : index < 224) :
    (osMemNotEmptyIndexGet m pool index = osMemFreeListCount ∧
      ∀ k, index ≤ k → k / 32 = index / 32 → v.lists k = []) ∨
    (osMemNotEmptyIndexGet m pool index ≠ osMemFreeListCount ∧
      FirstList v.lists index (osMemNotEmptyIndexGet m pool index)) := by
  have hpow : 1 <<< (index % 32) = 2 ^ (index % 32) := Nat.one_shiftLeft _
  have hp := Nat.two_pow_pos (index % 32)
  have hlt : 2 ^ (index % 32) < 2 ^ 32 := Nat.pow_lt_pow_right (by omega) (by omega)
  have hlow : index &&& not32 osMemBitmapMask = index / 32 * 32 :=
    and_not_low_eq index 5 (by omega) (by omega)
  -- bit `j` of the mask is bit `j` of the word, from `index % 32` on
  have hmaskbit : ∀ j, (freeListBitmap m pool (index / 32) &&&
      not32 (2 ^ (index % 32) - 1)).testBit j =
      ((freeListBitmap m pool (index / 32)).testBit j &&
        (decide (j < 32) && !decide (j < index % 32))) := by
    intro j
    rw [Nat.testBit_and, testBit_not32 _ _ (by omega), Nat.testBit_two_pow_sub_one]
  unfold osMemNotEmptyIndexGet
  rw [shiftRight_five, hlow, show osMemBitmapMask = 0x1f from rfl, and_thirty_one, hpow,
    sub32_of_le _ _ hp (by omega)]
  simp only
  have hwlt := and_lt (freeListBitmap m pool (index / 32)) (not32 (2 ^ (index % 32) - 1))
    (load32_lt _ _)
  by_cases hmask : freeListBitmap m pool (index / 32) &&& not32 (2 ^ (index % 32) - 1) = 0
  · refine Or.inl ⟨if_neg (by rw [hmask]; simp), fun k hk hw => ?_⟩
    refine h.bit_false (index / 32) k (by omega) hw.symm ?_
    have hz := hmaskbit (k % 32)
    have h1 : k % 32 < 32 := by omega
    have h2 : ¬k % 32 < index % 32 := by omega
    rw [hmask, Nat.zero_testBit] at hz
    simpa [h1, h2] using hz.symm
  · rw [if_pos hmask]
    obtain ⟨hk, hbit, hmin⟩ := osMemFFS_spec _ hmask hwlt
    generalize osMemFFS (freeListBitmap m pool (index / 32) &&& not32 (2 ^ (index % 32) - 1)) = k
      at hk hbit hmin
    rw [hmaskbit] at hbit
    simp only [Bool.and_eq_true, decide_eq_true_eq, Bool.not_eq_eq_eq_not, Bool.not_true,
      decide_eq_false_iff_not, not_lt] at hbit
    rw [add32_of_lt _ _ (by omega)]
    have hl := h.lists.bit (k + index / 32 * 32) (by omega)
    rw [show (k + index / 32 * 32) / 32 = index / 32 from by omega,
      show (k + index / 32 * 32) % 32 = k from by omega, hbit.1] at hl
    have hne : v.lists (k + index / 32 * 32) ≠ [] := of_decide_eq_true hl.symm
    refine Or.inr ⟨fun he => ?_, ⟨by omega, by omega, hne, fun j hj hjk => ?_⟩⟩
    · obtain ⟨n, l, hnl⟩ := List.exists_cons_of_ne_nil hne
      have hlt := h.layout.index_lt _ n (by rw [hnl]; exact List.mem_cons_self)
      rw [osMemFreeListCount_eq] at he
      omega
    · refine h.bit_false (index / 32) j (by omega) (by omega) ?_
      have hz := hmin (j % 32) (by omega)
      have h1 : j % 32 < 32 := by omega
      have h2 : ¬j % 32 < index % 32 := by omega
      rw [hmaskbit] at hz
      simpa [h1, h2] using hz

theorem osMemScanBitmap_spec (h : Rep pool size m v P) (fuel index : Nat) (hi : index % 32 = 0)
    (hf : 224 ≤ index + 32 * fuel) :
    (osMemScanBitmap m pool fuel index = none ∧ ∀ k, index ≤ k → k < 224 → v.lists k = []) ∨
    ∃ j, osMemScanBitmap m pool fuel index = some j ∧ FirstList v.lists index j := by
  induction fuel generalizing index with
  | zero => exact Or.inl ⟨rfl, fun k hk hlt => by omega⟩
  | succ fuel ih =>
    unfold osMemScanBitmap
    rw [osMemFreeListCount_eq, shiftRight_five]
    by_cases hlt : index < 223
    · rw [if_pos hlt]
      simp only
      by_cases hmask : freeListBitmap m pool (index / 32) = 0
      · rw [if_neg (by simp [hmask])]
        have hword : ∀ k, index ≤ k → k < index + 32 → v.lists k = [] := fun k hk hk' =>
          h.bit_false (index / 32) k (by omega) (by omega) (by rw [hmask, Nat.zero_testBit])
        obtain ⟨hnone, hrest⟩ | ⟨j, hj, hfirst⟩ := ih (index + 32) (by omega) (by omega)
        · refine Or.inl ⟨hnone, fun k hk hk' => ?_⟩
          by_cases hw : k < index + 32
          · exact hword k hk hw
          · exact hrest k (by omega) hk'
        · have habove := hfirst.above
          refine Or.inr ⟨j, hj, ⟨by omega, hfirst.lt, hfirst.nonempty, fun k hk hkj => ?_⟩⟩
          by_cases hw : k < index + 32
          · exact hword k hk hw
          · exact hfirst.first k (by omega) hkj
      · rw [if_pos hmask]
        obtain ⟨hk, hbit, hmin⟩ := osMemFFS_spec _ hmask (load32_lt _ _)
        generalize osMemFFS (freeListBitmap m pool (index / 32)) = b at hk hbit hmin
        have hl := h.lists.bit (b + index) (by omega)
        rw [show (b + index) / 32 = index / 32 from by omega,
          show (b + index) % 32 = b from by omega, hbit] at hl
        refine Or.inr ⟨b + index, by rw [add32_of_lt _ _ (by omega)],
          ⟨by omega, by omega, of_decide_eq_true hl.symm, fun k hk hkb => ?_⟩⟩
        exact h.bit_false (index / 32) k (by omega) (by omega)
          (by rw [show k % 32 = k - index from by omega]; exact hmin _ (by omega))
    · rw [if_neg hlt]
      refine Or.inl ⟨rfl, fun k hk hk' => by omega⟩

theorem freeList_mem (h : Rep pool size m v P) (j : Nat) (hj : v.lists j ≠ []) :
    freeList m pool j ∈ v.lists j := by
  obtain ⟨n, l, hl⟩ := List.exists_cons_of_ne_nil hj
  have hlt := h.layout.index_lt j n (by simp [hl])
  have hhead : freeList m pool j = (v.lists j).headD 0 := links_head (h.lists.links j (by omega))
  rw [hhead, hl]
  exact List.mem_cons_self

/-- The walk sees the whole list: it returns its first node of at least `s` bytes. -/
theorem osMemFindCurSuitableBlockFrom_find (h : Rep pool size m v P) (i s : Nat) (hi : i < 223)
    (l₁ l₂ : List Nat) (hl : v.lists i = l₁ ++ l₂) (fuel : Nat) (hf : l₂.length < fuel) :
    osMemFindCurSuitableBlockFrom m s fuel (l₂.headD 0) =
      (l₂.find? fun n => decide (s ≤ sizeAndFlag m n)).getD 0 := by
  induction l₂ generalizing l₁ fuel with
  | nil =>
    cases fuel with
    | zero => cases hf
    | succ fuel => rfl
  | cons n l₂ ih =>
    cases fuel with
    | zero => cases hf
    | succ fuel =>
      obtain ⟨_, h0⟩ := h.layout.listed_addr i n (by simp [hl])
      have hlinks := h.lists.links i hi
      rw [hl] at hlinks
      have hnext := (links_cell hlinks).1
      rw [freeLinks, if_neg h0] at hnext
      unfold osMemFindCurSuitableBlockFrom
      rw [List.headD_cons, if_neg h0, hnext, List.find?_cons]
      by_cases hs : s ≤ sizeAndFlag m n
      · simp [hs]
      · rw [if_neg hs, decide_eq_false hs]
        exact ih (l₁ ++ [n]) (by simp [hl]) fuel (by simpa using hf)

/-- A list has fewer members than there are addresses, so the fuel suffices. -/
theorem osMemFindCurSuitableBlock_find (h : Rep pool size m v P) (i s : Nat) (hi : i < 223) :
    osMemFindCurSuitableBlock m pool i s =
      ((v.lists i).find? fun n => decide (s ≤ sizeAndFlag m n)).getD 0 := by
  have hhead : freeList m pool i = (v.lists i).headD 0 := links_head (h.lists.links i hi)
  have hsub : v.lists i ⊆ List.range 4294967280 := fun n hn =>
    List.mem_range.mpr (h.layout.free_addr_facts n (h.layout.free_addr i n hn)).2.1
  have hlen := (List.subperm_of_subset (h.layout.nodup i) hsub).length_le
  rw [List.length_range] at hlen
  unfold osMemFindCurSuitableBlock
  rw [hhead]
  exact osMemFindCurSuitableBlockFrom_find h i s hi [] (v.lists i) rfl _
    (lt_of_le_of_lt hlen (by omega))

/-- The list a request of at least 128 bytes belongs to. -/
def largeIndex (s : Nat) : Nat :=
  add32 (add32 (shl32 (sub32 (osMemFlGet s) osMemSmallBucketCount) osMemSli)
    (osMemSlGet s (osMemFlGet s))) osMemSmallBucketCount

theorem largeIndex_over (s : Nat) (h : 1073741824 ≤ s) (hs : s < 1140850688) :
    largeIndex s = 207 := by
  have hlo : 30 ≤ Nat.log2 s := (Nat.le_log2 (by omega)).mpr (by omega)
  have hhi : Nat.log2 s < 31 := (Nat.log2_lt (by omega)).mpr (by omega)
  have hlog : Nat.log2 s = 30 := by omega
  have hfl : osMemFlGet s = 54 := by rw [osMemFlGet_large s (by omega) (by omega), hlog]
  have hn : ¬(54 < 31 ∨ s < 128) := by omega
  have hx : shl32 s 3 = 8 * s - 8589934592 := by
    unfold shl32
    rw [Nat.shiftLeft_eq]
    omega
  have hamt : add32 (sub32 54 31) 7 = 30 := by
    rw [sub32_of_le _ _ (by omega) (by omega), add32_of_lt _ _ (by omega)]
  have hsl : osMemSlGet s 54 = 4294967288 := by
    unfold osMemSlGet osMemSmallBucketCount osMemSmallBucketMaxSize osMemLargeStartBucket osMemSli
    rw [if_neg hn, hx, hamt, Nat.shiftRight_eq_div_pow]
    show sub32 ((8 * s - 8589934592) / 2 ^ 30) (1 <<< 3) = _
    unfold sub32
    rw [Nat.one_shiftLeft]
    omega
  unfold largeIndex osMemSmallBucketCount osMemSli
  rw [hfl, hsl, sub32_of_le _ _ (by omega) (by omega)]
  unfold shl32 add32
  rw [Nat.shiftLeft_eq]

theorem largeIndex_eq (s : Nat) (h : 128 ≤ s) (hs : s < 1140850688) :
    largeIndex s = sizeClass s := by
  by_cases hover : 1073741824 ≤ s
  · rw [largeIndex_over s hover hs, sizeClass_top s (by omega)]
    omega
  · have hn : ¬s < 31 := by omega
    have hb := log2_bounds s h
    have hl : Nat.log2 s < 30 := (Nat.log2_lt (by omega)).mpr (by omega)
    have hindex := osMemFreeListIndexGet_eq s (by omega) (by omega)
    have hfl := osMemFlGet_large s h (by omega)
    have hlarge : ¬osMemFlGet s < osMemSmallBucketCount := by
      unfold osMemSmallBucketCount
      omega
    unfold osMemFreeListIndexGet at hindex
    rw [if_neg hlarge] at hindex
    simp only at hindex
    rw [← hindex]
    unfold largeIndex add32
    omega

/-- Where the search of a request starts: its own list when that holds one size
only, else the next one. -/
def startIndex (s : Nat) : Nat := if s < 128 then sizeClass s else sizeClass s + 1

theorem startIndex_lt (s : Nat) (hs : s < 1140850688) : startIndex s < 209 := by
  unfold startIndex
  split
  · next hsmall =>
    have := sizeClass_lt s (by omega)
    omega
  · by_cases hover : 1073741824 ≤ s
    · rw [sizeClass_top s (by omega)]
      omega
    · have := sizeClass_lt s (by omega)
      omega

theorem losAlign_next (index : Nat) (hi : index < 4096) :
    losAlign (add32 index 1) 32 = (index / 32 + 1) * 32 := by
  rw [add32_of_lt _ _ (by omega), losAlign_word _ (by omega)]
  omega

theorem Layout.lists_above (h : Layout pool size v P) (k : Nat) (hk : 207 ≤ k) :
    v.lists k = [] := by
  cases hl : v.lists k with
  | nil => rfl
  | cons n l =>
    have hlt := h.index_lt k n (by rw [hl]; exact List.mem_cons_self)
    omega

theorem search_cases (h : Rep pool size m v P) (index cur s : Nat) (hi : index < 224)
    (r : Nat × Nat) (hr : r = (if osMemNotEmptyIndexGet m pool index ≠ osMemFreeListCount then
        (freeList m pool (osMemNotEmptyIndexGet m pool index), osMemNotEmptyIndexGet m pool index)
      else
        match osMemScanBitmap m pool 8 (losAlign (add32 index 1) 32) with
        | some index => (freeList m pool index, index)
        | none =>
          if cur = osMemFreeListCount then (0, cur)
          else (osMemFindCurSuitableBlock m pool cur s, cur))) :
    (∃ j, FirstList v.lists index j ∧ r = (freeList m pool j, j)) ∨
    ((∀ k, index ≤ k → v.lists k = []) ∧
      r = if cur = osMemFreeListCount then (0, cur)
        else (osMemFindCurSuitableBlock m pool cur s, cur)) := by
  obtain ⟨hcount, hword⟩ | ⟨hne, hfirst⟩ := osMemNotEmptyIndexGet_spec h index hi
  · rw [if_neg (by simp [hcount]), losAlign_next index (by omega)] at hr
    obtain ⟨hnone, hrest⟩ | ⟨j, hj, hfirst⟩ :=
      osMemScanBitmap_spec h 8 ((index / 32 + 1) * 32) (by omega) (by omega)
    · rw [hnone] at hr
      refine Or.inr ⟨fun k hk => ?_, hr⟩
      by_cases hw : k / 32 = index / 32
      · exact hword k hk hw
      · by_cases hlt : k < 224
        · exact hrest k (by omega) hlt
        · exact h.layout.lists_above k (by omega)
    · rw [hj] at hr
      have habove := hfirst.above
      refine Or.inl ⟨j, ⟨by omega, hfirst.lt, hfirst.nonempty, fun k hk hkj => ?_⟩, hr⟩
      by_cases hw : k / 32 = index / 32
      · exact hword k hk hw
      · exact hfirst.first k (by omega) hkj
  · rw [if_pos hne] at hr
    exact Or.inl ⟨_, hfirst, hr⟩

/-- `OsMemFindNextSuitableBlock`: the head of the first non-empty list from the
start index on, else the first large enough node of the request's own list. -/
theorem osMemFindNextSuitableBlock_cases (h : Rep pool size m v P) (s : Nat) (h16 : 16 ≤ s)
    (hs : s < 1140850688) :
    (∃ j, FirstList v.lists (startIndex s) j ∧
      osMemFindNextSuitableBlock m pool s = (freeList m pool j, j)) ∨
    ((∀ k, startIndex s ≤ k → v.lists k = []) ∧
      osMemFindNextSuitableBlock m pool s = if s < 128 then (0, osMemFreeListCount)
        else (osMemFindCurSuitableBlock m pool (sizeClass s) s, sizeClass s)) := by
  have hstart := startIndex_lt s hs
  unfold osMemFindNextSuitableBlock
  by_cases hsmall : s < 128
  · have hclass := sizeClass_lt s (by omega)
    have hfl : osMemFlGet s = startIndex s := by
      unfold startIndex sizeClass
      rw [if_pos hsmall, if_pos hsmall, osMemFlGet_small s (by omega) hsmall]
    have hlt : startIndex s < osMemSmallBucketCount := by
      unfold osMemSmallBucketCount
      rw [← hfl, osMemFlGet_small s (by omega) hsmall]
      omega
    simp only [hfl, if_pos hlt, if_pos hsmall]
    have hcases := search_cases h (startIndex s) osMemFreeListCount s (by omega) _ rfl
    rwa [if_pos rfl] at hcases
  · have hlt : ¬osMemFlGet s < osMemSmallBucketCount := by
      unfold osMemSmallBucketCount
      rw [osMemFlGet_large s (by omega) (by omega)]
      omega
    have hlarge : add32 (add32 (shl32 (sub32 (osMemFlGet s) osMemSmallBucketCount) osMemSli)
        (osMemSlGet s (osMemFlGet s))) osMemSmallBucketCount = sizeClass s :=
      largeIndex_eq s (by omega) hs
    have hindex : startIndex s = sizeClass s + 1 := if_neg hsmall
    simp only [if_neg hlt, hlarge, if_neg hsmall]
    rw [add32_of_lt _ _ (by omega), ← hindex]
    have hcount : sizeClass s ≠ osMemFreeListCount := by
      rw [osMemFreeListCount_eq]
      omega
    obtain hlist | ⟨hempty, hcur⟩ := search_cases h (startIndex s) (sizeClass s) s (by omega) _ rfl
    · exact Or.inl hlist
    · exact Or.inr ⟨hempty, hcur.trans (if_neg hcount)⟩

/-- The classes a request of `s` bytes may meet are ordered by size: it stays
below `2^29`, or the pool is too small for a class that wraps. -/
def Orderly (size s : Nat) : Prop := s < 536870912 ∨ size ≤ 268435456

/-- A class from the start index of a request on holds large enough nodes only. -/
theorem le_of_startIndex (h : Layout pool size v P) (s : Nat) (h4 : s % 4 = 0) (h16 : 16 ≤ s)
    (hs : Orderly size s) (b : Block) (hb : b ∈ v.blocks)
    (hle : startIndex s ≤ sizeClass b.size) : s ≤ b.size := by
  have hroom := h.region.room
  have hbb := h.bounds b hb
  unfold startIndex at hle
  by_cases hsmall : s < 128
  · rw [if_pos hsmall] at hle
    exact le_of_sizeClass_le_small b.size s b.whole h4 b.room h16 hsmall hle
  · rw [if_neg hsmall] at hle
    rcases hs with hs | hs
    · exact le_of_sizeClass_lt b.size s (by omega) hs
    · by_cases hhuge : s < 536870912
      · exact le_of_sizeClass_lt b.size s (by omega) hhuge
      · have hmono := sizeClass_mono b.size 268435456 (by omega) (by omega)
        have h28 : sizeClass 268435456 = 199 := by decide
        rw [sizeClass_top s (by omega)] at hle
        omega

theorem osMemFindNextSuitableBlock_spec (h : Rep pool size m v P) (s : Nat) (h4 : s % 4 = 0)
    (h16 : 16 ≤ s) (hs : s < 1140850688) :
    (osMemFindNextSuitableBlock m pool s).1 = 0 ∨
    ∃ b ∈ v.blocks, b.addr = (osMemFindNextSuitableBlock m pool s).1 ∧
      b.addr ∈ v.lists (osMemFindNextSuitableBlock m pool s).2 ∧
      (Orderly size s → s ≤ b.size) := by
  obtain ⟨j, hfirst, hfind⟩ | ⟨_, hfind⟩ := osMemFindNextSuitableBlock_cases h s h16 hs
  · have hm := freeList_mem h j hfirst.nonempty
    obtain ⟨_, b, hb, hbn, _, hclass⟩ := h.layout.member j _ hm
    have habove := hfirst.above
    rw [hfind]
    refine Or.inr ⟨b, hb, hbn, by rw [hbn]; exact hm, fun ho => ?_⟩
    exact le_of_startIndex h.layout s h4 h16 ho b hb (by omega)
  · rw [hfind]
    by_cases hsmall : s < 128
    · rw [if_pos hsmall]
      exact Or.inl rfl
    · have hstart := startIndex_lt s hs
      have hindex : startIndex s = sizeClass s + 1 := if_neg hsmall
      rw [if_neg hsmall, osMemFindCurSuitableBlock_find h _ s (by omega)]
      cases hf : (v.lists (sizeClass s)).find? (fun n => decide (s ≤ sizeAndFlag m n)) with
      | none => exact Or.inl rfl
      | some n =>
        have hm := List.mem_of_find?_eq_some hf
        have hsize := List.find?_some hf
        obtain ⟨_, b, hb, hbn, hfree, _⟩ := h.layout.member _ n hm
        rw [← hbn, h.free_word hb hfree] at hsize
        exact Or.inr ⟨b, hb, hbn, by rw [hbn]; exact hm, fun _ => of_decide_eq_true hsize⟩

end

end LiteosM.Heap
