import LiteosM.Heap.WellFormed

/-!
# The classes of two sizes

Below `2^29` the class grows with the size and is narrow. The shift of the
second level loses the top bit of larger sizes, whose classes start again with
those of `2^28`: a search for such a size may meet nodes that are too small.
-/

namespace LiteosM.Heap
open Lib.ByteMemory Lib.Word32 Lib.LinkedList

/-- What the search relies on for two node sizes `s ≤ r`. -/
structure ClassOrder (s r : Nat) : Prop where
  mono : osMemFreeListIndexGet s ≤ osMemFreeListIndexGet r
  bound : osMemFreeListIndexGet s < osMemFreeListCount ∧
    osMemFreeListIndexGet r < osMemFreeListCount
  narrow : osMemFreeListIndexGet s = osMemFreeListIndexGet r →
    osMemSmallBucketCount ≤ osMemFreeListIndexGet s → 8 * (r - s) < s
  later : osMemFreeListIndexGet r < osMemFreeListIndexGet s → r ≤ s

/-- In no heap a search for `s` bytes ends at a smaller node. -/
def SearchSound (s : Nat) : Prop :=
  ∀ pool size m v, Rep pool size m v [] → (osMemFindNextSuitableBlock m pool s).1 ≠ 0 →
    ∃ b ∈ v.blocks, b.owner = none ∧ b.addr = (osMemFindNextSuitableBlock m pool s).1 ∧ s ≤ b.size

theorem sizeClass_small (s : Nat) (h : s < 128) : sizeClass s < 31 := by
  simp only [sizeClass, h, ite_true]
  omega

theorem sizeClass_octave (s : Nat) (h : 268435456 ≤ s) (hs : s < 536870912) :
    sizeClass s = 191 + s / 33554432 := by
  have hn : ¬s < 128 := by omega
  have hlo : 28 ≤ Nat.log2 s := (Nat.le_log2 (by omega)).mpr (by omega)
  have hhi : Nat.log2 s < 29 := (Nat.log2_lt (by omega)).mpr (by omega)
  have hlog : Nat.log2 s = 28 := by omega
  simp only [sizeClass, hn, hs, ite_true, ite_false, hlog]
  omega

theorem sizeClass_narrow (s r : Nat) (hsr : s ≤ r) (hr : r < 536870912)
    (heq : sizeClass s = sizeClass r) (hlarge : 31 ≤ sizeClass s) : 8 * (r - s) < s := by
  have hs : ¬s < 128 := fun hs => by
    have := sizeClass_small s hs
    omega
  have hsb := log2_bounds s (by omega)
  have hrb := log2_bounds r (by omega)
  have hsl := second_level_bounds s (by omega)
  have hrl := second_level_bounds r (by omega)
  have hlog : Nat.log2 s ≤ Nat.log2 r := (Nat.le_log2 (by omega)).mpr (hsb.2.1.trans hsr)
  have hr128 : ¬r < 128 := by omega
  have hs29 : s < 536870912 := by omega
  simp only [sizeClass, hs, hr128, hr, hs29, ite_true, ite_false] at heq
  have hlog : Nat.log2 s = Nat.log2 r := by omega
  have hdiv : 8 * s / 2 ^ Nat.log2 r = 8 * r / 2 ^ Nat.log2 r := by
    rw [hlog] at hsl heq
    omega
  -- both lie between the same two multiples of an eighth of the octave
  have hsm := Nat.div_add_mod (8 * s) (2 ^ Nat.log2 r)
  have hrm := Nat.div_add_mod (8 * r) (2 ^ Nat.log2 r)
  have hlt := Nat.mod_lt (8 * r) (Nat.two_pow_pos (Nat.log2 r))
  rw [hlog] at hsb
  rw [hdiv] at hsm
  generalize 2 ^ Nat.log2 r * (8 * r / 2 ^ Nat.log2 r) = base at hsm hrm
  omega

section
variable {s r : Nat}

theorem classOrder_of (hsr : s ≤ r) (h16 : 16 ≤ s) (hr : r < 1073741824)
    (hmono : sizeClass s ≤ sizeClass r)
    (hnarrow : sizeClass s = sizeClass r → 31 ≤ sizeClass s → 8 * (r - s) < s) :
    ClassOrder s r := by
  have hs := osMemFreeListIndexGet_eq s (by omega) (by omega)
  have hr' := osMemFreeListIndexGet_eq r (by omega) hr
  have hslt := sizeClass_lt s (by omega)
  have hrlt := sizeClass_lt r hr
  refine ⟨by omega, ?_, fun heq hlarge => ?_, fun hlt => by omega⟩
  · rw [osMemFreeListCount_eq]
    omega
  · unfold osMemSmallBucketCount at hlarge
    exact hnarrow (by omega) (by omega)

/-- The order holds for two sizes on the same side of `2^29`, and across it when
the larger one is far enough up its octave. -/
theorem classOrder_iff (hsr : s ≤ r) (h16 : 16 ≤ s) (hr : r < 1073741824) :
    ClassOrder s r ↔ r < 536870912 ∨ 536870912 ≤ s ∨ s / 33554432 < r / 67108864 := by
  by_cases hlow : r < 536870912
  · exact iff_of_true (classOrder_of hsr h16 hr (sizeClass_mono s r hsr hlow)
      (sizeClass_narrow s r hsr hlow)) (Or.inl hlow)
  · have hrtop := sizeClass_top r (by omega)
    by_cases htop : 536870912 ≤ s
    · have hstop := sizeClass_top s htop
      exact iff_of_true (classOrder_of hsr h16 hr (by omega) fun heq _ => by omega)
        (Or.inr (Or.inl htop))
    · by_cases hoct : 268435456 ≤ s
      · have hsoct := sizeClass_octave s hoct (by omega)
        constructor
        · intro h
          have hs := osMemFreeListIndexGet_eq s (by omega) (by omega)
          have hr' := osMemFreeListIndexGet_eq r (by omega) hr
          have hmono := h.mono
          have hne : sizeClass s ≠ sizeClass r := by
            intro heq
            have hgap := h.narrow (by omega) (by unfold osMemSmallBucketCount; omega)
            omega
          omega
        · intro hcond
          exact classOrder_of hsr h16 hr (by omega) fun heq _ => by omega
      · have hbelow := sizeClass_mono s 268435455 (by omega) (by omega)
        have h198 : sizeClass 268435455 = 198 := by decide
        exact iff_of_true (classOrder_of hsr h16 hr (by omega) fun heq _ => by omega)
          (Or.inr (Or.inr (by omega)))

theorem fresh_large : Region 4096 536871860 :=
  ⟨by omega, by omega, by omega, by omega, by omega, by omega⟩

theorem search_too_small (s : Nat) (hs : 536870912 ≤ s) (hlast : s < 1006632960) :
    ¬SearchSound s := by
  intro hsound
  have hrep := osMemPoolInit_rep fresh_large fun _ => 0
  have hclass : sizeClass (536871860 - 952) = 206 := by decide
  have hstart : startIndex s = 192 + s / 67108864 := by
    unfold startIndex
    rw [if_neg (by omega), sizeClass_top s hs]
    omega
  have hfind := fresh_large.search_fresh hrep s (by omega) (by omega) (by omega)
  obtain ⟨b, hb, _, _, hsb⟩ := hsound _ _ _ _ hrep (by omega)
  rw [List.mem_singleton.mp hb] at hsb
  have hsize : fresh_large.block.size = 536870908 := rfl
  omega

/-- Elsewhere every search is sound: in the last class the nodes are compared one by one. -/
theorem search_sound (h4 : s % 4 = 0) (h16 : 16 ≤ s) (hs : s < 1073741824)
    (hcond : s < 536870912 ∨ 1006632960 ≤ s) : SearchSound s := by
  intro pool size m v h hne
  obtain hzero | ⟨b, hb, haddr, hlist, hfits⟩ :=
    osMemFindNextSuitableBlock_spec h s h4 h16 (by omega)
  · exact absurd hzero hne
  · obtain ⟨_, c, hc, hcb, hfree, _⟩ := h.layout.member _ _ hlist
    have hcb := h.layout.addr_inj c b hc hb hcb
    refine ⟨b, hb, hcb ▸ hfree, haddr, ?_⟩
    rcases hcond with hlow | hlast
    · exact hfits (Or.inl hlow)
    · have hclass : sizeClass s = 206 := by
        rw [sizeClass_top s (by omega)]
        omega
      obtain ⟨j, hfirst, _⟩ | ⟨_, hfind⟩ :=
        osMemFindNextSuitableBlock_cases h s h16 (by omega)
      · have habove := hfirst.above
        unfold startIndex at habove
        rw [if_neg (by omega), hclass] at habove
        exact absurd (h.layout.lists_above j habove) hfirst.nonempty
      · rw [if_neg (by omega), osMemFindCurSuitableBlock_find h _ s (by omega)] at hfind
        cases hf : (v.lists (sizeClass s)).find? (fun n => decide (s ≤ sizeAndFlag m n)) with
        | none =>
          rw [hf] at hfind
          exact absurd (congrArg Prod.fst hfind) hne
        | some n =>
          rw [hf] at hfind
          have hsize := List.find?_some hf
          have hn : n = b.addr := by
            rw [haddr, hfind]
            rfl
          rw [hn, h.free_word hb (hcb ▸ hfree)] at hsize
          exact of_decide_eq_true hsize

end

/-- Where the class arithmetic is in order. -/
theorem osMemFreeListIndexGet_order (s r : Nat) (h16 : 16 ≤ s) (hsr : s ≤ r)
    (hr : r < 1073741824) (hs4 : s % 4 = 0) :
    (ClassOrder s r ↔ r < 536870912 ∨ 536870912 ≤ s ∨ s / 33554432 < r / 67108864) ∧
    (SearchSound s ↔ s < 536870912 ∨ 1006632960 ≤ s) := by
  refine ⟨classOrder_iff hsr h16 hr, fun hsound => ?_, search_sound hs4 h16 (by omega)⟩
  by_cases hcond : s < 536870912 ∨ 1006632960 ≤ s
  · exact hcond
  · exact absurd hsound (search_too_small s (by omega) (by omega))

theorem osMemFreeListIndexGet_order_small :
    ClassOrder 128 140 ∧ SearchSound 128 := by
  have h := osMemFreeListIndexGet_order 128 140 (by omega) (by omega) (by omega) (by omega)
  exact ⟨h.1.mpr (Or.inl (by omega)), h.2.mpr (Or.inl (by omega))⟩

/-- The largest size below `2^29` has class 206, `2^29` itself has class 199. -/
theorem osMemFreeListIndexGet_wraps : ¬ClassOrder 536870908 536870912 ∧ ¬SearchSound 536870912 := by
  refine ⟨fun h => ?_, search_too_small _ (by omega) (by omega)⟩
  have hmono := h.mono
  rw [osMemFreeListIndexGet_eq _ (by omega) (by omega), sizeClass_octave _ (by omega) (by omega),
    osMemFreeListIndexGet_eq _ (by omega) (by omega), sizeClass_top _ (by omega)] at hmono
  omega

end LiteosM.Heap
