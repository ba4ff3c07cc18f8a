import LiteosM.Heap.WellFormed

/-!
# When an allocation fails

In a pool of up to 256 MiB every class holds larger nodes than the one before
it, so the search finds a node whenever one fits and an allocation fails only
when none does.
-/

namespace LiteosM.Heap
open Lib.ByteMemory Lib.Word32 Lib.LinkedList

section
variable {pool size : Nat} {m : Memory} {v : Arena}

def Arena.Room (v : Arena) (s : Nat) : Prop := ∃ b ∈ v.blocks, b.owner = none ∧ s ≤ b.size

theorem room_listed (h : Rep pool size m v []) (hlimit : size ≤ 268435456) (s : Nat)
    {b : Block} (hb : b ∈ v.blocks) (hfree : b.owner = none) (hsb : s ≤ b.size) :
    b.addr ∈ v.lists (sizeClass b.size) ∧
      (startIndex s ≤ sizeClass b.size ∨ 128 ≤ s ∧ sizeClass b.size = sizeClass s) := by
  have hroom := h.layout.region.room
  have hbb := h.layout.bounds b hb
  have hmono := sizeClass_mono s b.size hsb (by omega)
  refine ⟨h.layout.filed b hb hfree List.not_mem_nil, ?_⟩
  unfold startIndex
  by_cases hsmall : s < 128
  · rw [if_pos hsmall]
    exact Or.inl hmono
  · rw [if_neg hsmall]
    omega

theorem osMemFindNextSuitableBlock_misses (h : Rep pool size m v []) (hlimit : size ≤ 268435456)
    (s : Nat) (h16 : 16 ≤ s) (hs : s < 1140850688)
    (hzero : (osMemFindNextSuitableBlock m pool s).1 = 0) : ¬v.Room s := by
  intro hroom
  obtain ⟨b, hb, hfree, hsb⟩ := hroom
  obtain ⟨hlist, hindex⟩ := room_listed h hlimit s hb hfree hsb
  have hstart := startIndex_lt s hs
  obtain ⟨j, hfirst, hfind⟩ | ⟨hempty, hfind⟩ := osMemFindNextSuitableBlock_cases h s h16 hs
  · rw [hfind] at hzero
    have hm := freeList_mem h j hfirst.nonempty
    obtain ⟨_, h0⟩ := h.layout.listed_addr j _ hm
    exact h0 hzero
  · rcases hindex with hle | ⟨hlarge, hsame⟩
    · rw [hempty _ hle] at hlist
      cases hlist
    · rw [hfind, if_neg (by omega), osMemFindCurSuitableBlock_find h _ s (by
        unfold startIndex at hstart
        rw [if_neg (by omega)] at hstart
        omega)] at hzero
      rw [hsame] at hlist
      cases hf : (v.lists (sizeClass s)).find? (fun n => decide (s ≤ sizeAndFlag m n)) with
      | none =>
        have hno := List.find?_eq_none.mp hf b.addr hlist
        rw [h.free_word hb hfree] at hno
        exact hno (decide_eq_true hsb)
      | some n =>
        rw [hf] at hzero
        obtain ⟨_, h0⟩ := h.layout.listed_addr _ n (List.mem_of_find?_eq_some hf)
        exact h0 hzero

theorem osMemFindNextSuitableBlock_complete (h : Rep pool size m v []) (hlimit : size ≤ 268435456)
    (s : Nat) (h4 : s % 4 = 0) (h16 : 16 ≤ s) (hs : s < 1140850688) :
    ((osMemFindNextSuitableBlock m pool s).1 = 0 ∧ ¬v.Room s) ∨
    ∃ a ∈ v.blocks, a.owner = none ∧ s ≤ a.size ∧
      (osMemFindNextSuitableBlock m pool s).1 = a.addr := by
  obtain hzero | ⟨a, ha, hfound, hlist, hfits⟩ := osMemFindNextSuitableBlock_spec h s h4 h16 hs
  · exact Or.inl ⟨hzero, osMemFindNextSuitableBlock_misses h hlimit s h16 hs hzero⟩
  · obtain ⟨_, b, hb, hbn, hfree, _⟩ := h.layout.member _ _ hlist
    have hab := h.layout.addr_inj b a hb ha hbn
    exact Or.inr ⟨a, ha, hab ▸ hfree, hfits (Or.inr hlimit), hfound.symm⟩

/-- `LOS_MemAlloc` of a positive size fails exactly when no free node fits, and
without a trace. Otherwise it takes one that does. -/
theorem losMemAlloc_complete (h : Rep pool size m v []) (hlimit : size ≤ 268435456) (n : Nat)
    (h0 : n ≠ 0) (hn : n < 1073741824) :
    ((losMemAlloc m pool n).2 = 0 ↔ ¬v.Room (allocSizeOf (max n 8))) ∧
    ((losMemAlloc m pool n).2 = 0 → (losMemAlloc m pool n).1 = m) ∧
    ((losMemAlloc m pool n).2 ≠ 0 → ∃ v' a b, allocSizeOf (max n 8) ≤ a.size ∧
      Taken pool size m v (allocSizeOf (max n 8)) (losMemAlloc m pool n) v' a b) ∧
    ((osMemFindNextSuitableBlock m pool (allocSizeOf (max n 8))).1 = 0 ↔
      ¬v.Room (allocSizeOf (max n 8))) ∧
    ((osMemFindNextSuitableBlock m pool (allocSizeOf (max n 8))).1 ≠ 0 →
      ∃ a ∈ v.blocks, a.owner = none ∧ allocSizeOf (max n 8) ≤ a.size ∧
        (osMemFindNextSuitableBlock m pool (allocSizeOf (max n 8))).1 = a.addr) := by
  have hpool := h.layout.region.nonzero
  have hmax : 8 ≤ max n 8 ∧ max n 8 < 1073741824 := by omega
  have hbds := allocSizeOf_bounds (max n 8)
  rw [losMemAlloc_eq m pool n hpool h0 hn]
  have hsearch := osMemFindNextSuitableBlock_complete h hlimit (allocSizeOf (max n 8)) (by omega)
    (by omega) (by omega)
  have hbase := osMemAlloc_base h (max n 8) hmax.1 hmax.2
  generalize allocSizeOf (max n 8) = need at hsearch hbase ⊢
  generalize osMemAlloc m pool (max n 8) = r at hbase ⊢
  obtain ⟨hzero, hno⟩ | ⟨a, ha, hfree, hfits, hfound⟩ := hsearch
  · obtain ⟨rfl, _⟩ | ⟨v', a, b, ht⟩ := hbase
    · exact ⟨iff_of_true rfl hno, fun _ => rfl, fun hne => absurd rfl hne, iff_of_true hzero hno,
        fun hne => absurd hzero hne⟩
    · have haddr := (h.layout.bounds a ht.was).1
      have hfound := ht.found
      omega
  · have haddr := (h.layout.bounds a ha).1
    have hyes : ¬¬v.Room need := not_not.mpr ⟨a, ha, hfree, hfits⟩
    obtain ⟨_, hzero⟩ | ⟨v', c, b, ht⟩ := hbase
    · omega
    · have hc := h.layout.addr_inj c a ht.was ha (ht.found.symm.trans hfound)
      have hptr := ht.ptr
      have hne : r.2 ≠ 0 := by omega
      exact ⟨iff_of_false hne hyes, fun hz => absurd hz hne,
        fun _ => ⟨v', c, b, by rw [hc]; exact hfits, ht⟩, iff_of_false (by omega) hyes,
        fun _ => ⟨a, ha, hfree, hfits, hfound⟩⟩

end

theorem firstPool_rep : ∃ v, Rep 4096 1024 firstPool.mem v [] ∧ v.Room 72 := by
  have h : Region 4096 1024 := ⟨by omega, by omega, by omega, by omega, by omega, by omega⟩
  have hrep := osMemPoolInit_rep h zeroState.mem
  refine ⟨h.arena, ?_, h.block, by simp [Region.arena], rfl, Nat.le_refl 72⟩
  exact (hrep.stat (touches_store32 _ _ _ _ (by omega) (Or.inr (Or.inr rfl))) fun _ => False).1

/-- A first request of 16 bytes. -/
theorem losMemAlloc_complete_firstPool : ∃ v, Rep 4096 1024 firstPool.mem v [] ∧
    ((losMemAlloc firstPool.mem 4096 16).2 = 0 ↔ ¬v.Room (allocSizeOf 16)) := by
  obtain ⟨v, hv, _⟩ := firstPool_rep
  exact ⟨v, hv, (losMemAlloc_complete hv (by omega) 16 (by omega) (by omega)).1⟩

/-- A request of no bytes fails although the first pool has a free node of 72. -/
theorem losMemAlloc_no_bytes : ∃ v, Rep 4096 1024 firstPool.mem v [] ∧
    ¬((losMemAlloc firstPool.mem 4096 0).2 = 0 ↔ ¬v.Room (allocSizeOf (max 0 8))) := by
  obtain ⟨v, hv, b, hb, hfree, hsize⟩ := firstPool_rep
  refine ⟨v, hv, fun hiff => hiff.mp rfl ⟨b, hb, hfree, ?_⟩⟩
  have hneed : allocSizeOf (max 0 8) = 16 := rfl
  omega

end LiteosM.Heap
