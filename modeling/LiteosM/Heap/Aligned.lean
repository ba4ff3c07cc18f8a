import LiteosM.Heap.WellFormed

/-!
# Aligned allocation

The pointer of an aligned allocation stands at the boundary, with a gap word
before it when it is not the start of the payload. `OsGetRealPtr` tells the two
cases apart, so a release finds the node.
-/

namespace LiteosM.Heap
open Lib.ByteMemory Lib.Word32 Lib.LinkedList

section
variable {pool size : Nat} {m : Memory} {v v' : Arena} {a b : Block}

/-! ### Rounding up -/

theorem osMemAlign_wrap (p k : Nat) (hk : k < 32) (hp : p < 4294967296)
    (hwrap : 4294967296 < p + 2 ^ k) : osMemAlign p (2 ^ k) = 0 := by
  have hpow := Nat.two_pow_pos k
  have hlt : 2 ^ k < 2 ^ 32 := Nat.pow_lt_pow_right (by omega) hk
  have hone : sub32 (2 ^ k) 1 = 2 ^ k - 1 := sub32_of_le _ _ hpow (by omega)
  have hsum : sub32 (add32 p (2 ^ k)) 1 = p + 2 ^ k - 1 - 4294967296 := by
    simp only [sub32, add32]
    omega
  have hsmall : (p + 2 ^ k - 1 - 4294967296) / 2 ^ k = 0 := Nat.div_eq_of_lt (by omega)
  rw [osMemAlign, hone, hsum, and_not_low_eq _ _ (by omega) (by omega), hsmall, Nat.zero_mul]

theorem osMemAlign_bounds {n boundary : Nat} (hreq : AlignRequest n boundary) (p : Nat)
    (hp : p < 4294967296) (h4 : p % 4 = 0) :
    osMemAlign p boundary = 0 ∨
    p ≤ osMemAlign p boundary ∧ osMemAlign p boundary % boundary = 0 ∧
      osMemAlign p boundary + 4 ≤ p + boundary ∧ osMemAlign p boundary % 4 = 0 ∧
      osMemAlign p boundary < 4294967296 := by
  have hround := round_up_bounds p boundary hreq.least hreq.word h4
  obtain ⟨k, hk, hbk⟩ := hreq.pow
  by_cases hwrap : 4294967296 < p + boundary
  · rw [hbk] at hwrap ⊢
    exact Or.inl (osMemAlign_wrap p k hk hp hwrap)
  · have heq : osMemAlign p boundary = (p + boundary - 1) / boundary * boundary := by
      rw [hbk] at hwrap ⊢
      exact osMemAlign_pow p k hk (by omega)
    rw [heq]
    exact Or.inr ⟨hround.1, hround.2.2.2, hround.2.1, hround.2.2.1, by omega⟩

/-! ### The two kinds of pointer -/

theorem osGetRealPtr_plain (h : Rep pool size m v []) (hb : b ∈ v.blocks)
    (hown : b.owner = some (b.addr + 8)) : osGetRealPtr m pool (b.addr + 8) = b.addr + 8 :=
  osGetRealPtr_owned h _ hb hown

theorem losMemFree_gapped (h : Rep pool size m v []) (hb : b ∈ v.blocks) (p : Nat)
    (hown : b.owner = some p) (hgap : p ≠ b.addr + 8) :
    losMemFree m pool (b.addr + 8) = (m, losNok) := by
  have hlt := h.layout.size_lt b hb
  have hbr := b.room
  have hword : load32 m (b.addr + 4) = b.size + 2147483648 + 1073741824 := by
    refine (h.heads.node b hb).word.trans ?_
    simp [Block.word, hown, hgap]
  have hused : osMemGetGapsizeUsedFlag (b.size + 2147483648 + 1073741824) ≠ 0 := by
    have hflag := osMemNodeGetUsedFlag_eq (b.size + 2147483648 + 1073741824)
    intro hz
    have hz : osMemNodeGetUsedFlag (b.size + 2147483648 + 1073741824) = 0 := hz
    omega
  have hal : osMemGetGapsizeAlignedFlag (b.size + 2147483648 + 1073741824) ≠ 0 := by
    have hflag := osMemNodeGetAlignedFlag_eq (b.size + 2147483648 + 1073741824)
    intro hz
    have hz : osMemNodeGetAlignedFlag (b.size + 2147483648 + 1073741824) = 0 := hz
    omega
  have hreal : osGetRealPtr m pool (b.addr + 8) = 0 := by
    unfold osGetRealPtr osMemGapsizeCheck
    rw [sub32_of_le (b.addr + 8) 4 (by omega) (by omega),
      show b.addr + 8 - 4 = b.addr + 4 from by omega, hword]
    simp [hused, hal]
  unfold losMemFree
  split
  · rfl
  · simp only [hreal, ite_true]

/-! ### The round trip -/

/-- The block `b` was handed out for `n` bytes at `boundary` through the pointer
returned, which leads back to it and releases it. -/
structure AlignedPtr (pool size boundary n : Nat) (r : Memory × Nat) (v' : Arena) (b : Block) :
    Prop where
  rep : Rep pool size r.1 v' []
  mem : b ∈ v'.blocks
  owner : b.owner = some r.2
  aligned : r.2 % boundary = 0
  inside : b.addr + 8 ≤ r.2 ∧ r.2 + n ≤ b.addr + b.size
  gap : r.2 = b.addr + 8 ∨ b.addr + 8 ≤ r.2 - 4
  real : osGetRealPtr r.1 pool r.2 = b.addr + 8
  freed : (losMemFree r.1 pool r.2).2 = losOk ∧
    ∃ v'', Freed pool size r.1 v' b r.2 (losMemFree r.1 pool r.2).1 v''

/-- What an aligned allocation promises. -/
structure AlignRoundTrip (pool size : Nat) (m : Memory) (v : Arena) (n boundary : Nat) : Prop where
  result : (losMemAllocAlign m pool n boundary).2 ≠ 0 →
    ∃ v' b, AlignedPtr pool size boundary n (losMemAllocAlign m pool n boundary) v' b
  plain : ∀ b ∈ v.blocks, b.owner = some (b.addr + 8) →
    osGetRealPtr m pool (b.addr + 8) = b.addr + 8
  gapped : ∀ b ∈ v.blocks, ∀ p, b.owner = some p → p ≠ b.addr + 8 →
    losMemFree m pool (b.addr + 8) = (m, losNok)

/-- The node the search picks has room for `n` bytes behind the boundary. -/
def AlignFits (m : Memory) (pool n boundary : Nat) : Prop :=
  let found := (osMemFindNextSuitableBlock m pool (allocSizeOf (max n 8 + boundary - 4))).1
  let ptr := osMemAlign (found + 8) boundary
  found = 0 ∨ ptr = 0 ∨ ptr + n ≤ found + osMemNodeGetSize (sizeAndFlag m found)

/-- The room behind the boundary in terms of the block taken. -/
theorem alignFits_taken (h : Rep pool size m v []) {n boundary : Nat} {r : Memory × Nat}
    (ht : Taken pool size m v (allocSizeOf (max n 8 + boundary - 4)) r v' a b) :
    AlignFits m pool n boundary ↔
      osMemAlign r.2 boundary = 0 ∨ osMemAlign r.2 boundary + n ≤ a.addr + a.size := by
  have hab := h.layout.bounds a ht.was
  have hptr := ht.ptr
  have haddr := ht.addr
  have hlt := (h.layout.size_lt a ht.was).1
  have hsize : osMemNodeGetSize (sizeAndFlag m a.addr) = a.size := by
    rw [h.free_word ht.was ht.free, osMemNodeGetSize_eq]
    exact Nat.mod_eq_of_lt hlt
  have hne : a.addr ≠ 0 := by omega
  unfold AlignFits
  simp only [ht.found, hsize, hne, false_or]
  rw [haddr, ← hptr]

theorem losMemAllocAlign_sound (h : Rep pool size m v []) (hend : pool + size < 4294967296)
    (n boundary : Nat) (hn : n < 4294967296) (hbd : boundary < 4294967296)
    (hreq : AlignRequest n boundary) (hfits : AlignFits m pool n boundary)
    (hne : (losMemAllocAlign m pool n boundary).2 ≠ 0) :
    ∃ v' b, AlignedPtr pool size boundary n (losMemAllocAlign m pool n boundary) v' b := by
  obtain ⟨hz, _⟩ | ⟨_, r, v', a, b, ht, heq⟩ := losMemAllocAlign_base h n boundary hn hbd
  · rw [hz] at hne
    exact absurd rfl hne
  · have hfits := (alignFits_taken h ht).mp hfits
    have hptr := ht.ptr
    have haddr := ht.addr
    have hcut := ht.cut
    have hba := b.aligned
    have hbw := b.whole
    have hbr := b.room
    have hblt := ht.rep.layout.size_lt b ht.mem
    have hbds := allocSizeOf_bounds (max n 8 + boundary - 4)
    have hleast := hreq.least
    have h0 := hreq.size
    generalize losMemAllocAlign m pool n boundary = r' at heq hne ⊢
    rcases osMemAlign_bounds hreq r.2 (by omega) (by omega) with hzero | hround
    · rw [hzero, if_neg (by omega)] at heq
      rw [heq] at hne
      exact absurd rfl hne
    · have hroom : osMemAlign r.2 boundary + n ≤ b.addr + b.size := by
        have hle := hfits.resolve_left (by omega)
        split at hcut
        · omega
        · omega
      obtain ⟨v₂, c, h2, _, hc, hco, hca, hcs, hp, _⟩ := losMemAllocAlign_fits h n boundary hreq ht
        (osMemAlign r.2 boundary) rfl ⟨hround.1, hround.2.1⟩ (by omega) r' heq
      have hok := losMemFree_owned_ok h2 hend r'.2 hc hco
      obtain ⟨_, hnok, _⟩ | ⟨v₃, hf, _⟩ := losMemFree_spec h2 r'.2 hc hco
      · exact absurd hok hnok
      · exact ⟨v₂, c, {
          rep := h2
          mem := hc
          owner := hco
          aligned := by rw [hp]; exact hround.2.1
          inside := by omega
          gap := by omega
          real := osGetRealPtr_owned h2 r'.2 hc hco
          freed := ⟨hok, v₃, hf⟩ }⟩

theorem losMemAllocAlign_head (n boundary : Nat) (hreq : AlignRequest n boundary) {need : Nat}
    {r r' : Memory × Nat} (ht : Taken pool size m v need r v' a b)
    (heq : r' = if r.2 = osMemAlign r.2 boundary then r
        else (store32 (setSizeAndFlag r.1 b.addr (b.size + 2147483648 + 1073741824))
            (sub32 (osMemAlign r.2 boundary) 4)
            (osMemSetGapsizeAlignedFlag (sub32 (osMemAlign r.2 boundary) r.2)),
          osMemAlign r.2 boundary))
    (hne : osMemAlign r.2 boundary ≠ 0) :
    r'.2 = osMemAlign r.2 boundary ∧ osGetRealPtr r'.1 pool r'.2 = b.addr + 8 ∧
      osMemNodeGetSize (sizeAndFlag r'.1 b.addr) = b.size := by
  have hptr := ht.ptr
  have hba := b.aligned
  have hbr := b.room
  have hblt := ht.rep.layout.size_lt b ht.mem
  have hbb := ht.rep.layout.bounds b ht.mem
  have hround := (osMemAlign_bounds hreq r.2 (by omega) (by omega)).resolve_left hne
  by_cases hplain : r.2 = osMemAlign r.2 boundary
  · rw [if_pos hplain] at heq
    subst heq
    exact ⟨hplain, osGetRealPtr_owned ht.rep r'.2 ht.mem ht.owner, (ht.rep.node_flags ht.mem).1⟩
  · rw [if_neg hplain] at heq
    generalize osMemAlign r.2 boundary = p' at heq hround hplain ⊢
    rw [sub32_of_le p' 4 (by omega) (by omega), sub32_of_le p' r.2 hround.1 (by omega)] at heq
    subst heq
    have h4 := hreq.word
    have hroom := hreq.room
    have hmod : p' % 4 = 0 := hround.2.2.2.1
    have hgap : osMemSetGapsizeAlignedFlag (p' - r.2) = p' - (b.addr + 8) + 1073741824 := by
      rw [osMemSetGapsizeAlignedFlag_eq _ (by omega), hptr]
    rw [hgap]
    refine ⟨rfl, osGetRealPtr_gap _ _ _ _ (load32_store32_same _ _ _ (by omega)) (by omega)
      (by omega) (by omega) (by omega), ?_⟩
    have hword : sizeAndFlag (store32 (setSizeAndFlag r.1 b.addr (b.size + 2147483648 + 1073741824))
        (p' - 4) (p' - (b.addr + 8) + 1073741824)) b.addr = b.size + 2147483648 + 1073741824 :=
      (load32_store32_aligned _ _ _ _ (by omega) (by omega) (by omega)).trans
        (load32_store32_same _ _ _ (by omega))
    show osMemNodeGetSize (sizeAndFlag _ b.addr) = b.size
    rw [hword, osMemNodeGetSize_eq]
    omega

theorem losMemAllocAlign_short (h : Rep pool size m v []) (n boundary : Nat)
    (hn : n < 4294967296) (hbd : boundary < 4294967296) (hreq : AlignRequest n boundary)
    (hshort : ¬AlignFits m pool n boundary) : ¬AlignRoundTrip pool size m v n boundary := by
  intro hround
  obtain ⟨_, hzero⟩ | ⟨_, r, v', a, b, ht, heq⟩ := losMemAllocAlign_base h n boundary hn hbd
  · exact hshort (Or.inl (hzero hreq))
  · rw [alignFits_taken h ht, not_or] at hshort
    obtain ⟨hptr, hreal, hsize⟩ := losMemAllocAlign_head n boundary hreq ht heq hshort.1
    have haddr := ht.addr
    have hle := ht.size_le
    obtain ⟨v₂, c, hc⟩ := hround.result (by rw [hptr]; exact hshort.1)
    have hca : c.addr = b.addr := by
      have hbase := hc.real.symm.trans hreal
      omega
    have hcs : c.size = b.size := by
      rw [← hca] at hsize
      exact ((hc.rep.node_flags hc.mem).1).symm.trans hsize
    have hin := hc.inside
    have hcut := ht.cut
    omega

theorem alignFits_orderly (h : Rep pool size m v []) (n boundary : Nat) (hn : n < 4294967296)
    (hbd : boundary < 4294967296) (hreq : AlignRequest n boundary)
    (ho : Orderly size (allocSizeOf (max n 8 + boundary - 4))) : AlignFits m pool n boundary := by
  obtain ⟨_, hzero⟩ | ⟨_, r, v', a, b, ht, _⟩ := losMemAllocAlign_base h n boundary hn hbd
  · exact Or.inl (hzero hreq)
  · have hfits := ht.fits ho
    have hptr := ht.ptr
    have haddr := ht.addr
    have hba := b.aligned
    have hbr := b.room
    have hblt := ht.rep.layout.size_lt b ht.mem
    have hbds := allocSizeOf_bounds (max n 8 + boundary - 4)
    refine (alignFits_taken h ht).mpr ?_
    rcases osMemAlign_bounds hreq r.2 (by omega) (by omega) with hzero | hround
    · exact Or.inl hzero
    · exact Or.inr (by omega)

/-- Aligned allocation keeps its promises exactly when the node it takes has room. -/
theorem losMemAllocAlign_round_trip (h : Rep pool size m v []) (hend : pool + size < 4294967296)
    (n boundary : Nat) (hn : n < 4294967296) (hbd : boundary < 4294967296)
    (hreq : AlignRequest n boundary) :
    AlignRoundTrip pool size m v n boundary ↔ AlignFits m pool n boundary := by
  constructor
  · intro hround
    by_contra hshort
    exact losMemAllocAlign_short h n boundary hn hbd hreq hshort hround
  · intro hfits
    exact ⟨losMemAllocAlign_sound h hend n boundary hn hbd hreq hfits,
      fun b hb hown => osGetRealPtr_plain h hb hown,
      fun b hb p hown hgap => losMemFree_gapped h hb p hown hgap⟩

end

theorem alignRequest_four (n : Nat) (h0 : n ≠ 0) (hn : n < 1073741824) : AlignRequest n 4 :=
  ⟨h0, ⟨2, by omega, rfl⟩, rfl, le_refl 4, by omega⟩

theorem alignRequest_line (n : Nat) (h0 : n ≠ 0) (hn : n < 1073741792) : AlignRequest n 32 :=
  ⟨h0, ⟨5, by omega, rfl⟩, rfl, by omega, by omega⟩

/-- Eight bytes at a boundary of 32 from the first pool start 8 bytes into their payload. -/
theorem losMemAllocAlign_round_trip_firstPool :
    ((losMemAllocAlign firstPool.mem 4096 8 32).2 = 5056 ∧
      ∃ v, Rep 4096 1024 firstPool.mem v [] ∧ AlignRoundTrip 4096 1024 firstPool.mem v 8 32) ∧
      ∃ v b, Rep 4096 1024 (losMemAllocAlign firstPool.mem 4096 8 32).1 v [] ∧ b ∈ v.blocks ∧
        b.owner = some 5056 ∧ b.addr + 8 = 5048 ∧
        AlignRoundTrip 4096 1024 (losMemAllocAlign firstPool.mem 4096 8 32).1 v 8 32 := by
  have hptr : (losMemAllocAlign firstPool.mem 4096 8 32).2 = 5056 := by decide +kernel
  have hreal : osGetRealPtr (losMemAllocAlign firstPool.mem 4096 8 32).1 4096 5056 = 5048 := by
    decide +kernel
  have hreq := alignRequest_line 8 (by omega) (by omega)
  have hround : ∀ {m v}, Rep 4096 1024 m v [] → AlignRoundTrip 4096 1024 m v 8 32 := fun hv =>
    (losMemAllocAlign_round_trip hv (by omega) 8 32 (by omega) (by omega) hreq).mpr
      (alignFits_orderly hv 8 32 (by omega) (by omega) hreq (Or.inr (by omega)))
  obtain ⟨v, hv, _⟩ := losMemInit_rep 1 zeroState firstPool (by omega) (by omega) (by omega)
    (fun q hq => (zeroState_registered q hq).elim) losMemInit_firstPool
  refine ⟨⟨hptr, v, hv, hround hv⟩, ?_⟩
  obtain ⟨v', b, hb⟩ := (hround hv).result (by rw [hptr]; decide)
  have howner := hb.owner
  have hstart := hb.real
  rw [hptr] at howner hstart
  exact ⟨v', b, hb.rep, hb.mem, howner, hstart.symm.trans hreal, hround hb.rep⟩

/-- A pool of one node of `2^28 + 2^25` bytes. -/
theorem fresh_wide : Region 4096 301990840 :=
  ⟨by omega, by omega, by omega, by omega, by omega, by omega⟩

/-- It serves a request for a node of `2^29` bytes. -/
theorem losMemAllocAlign_overruns : ∃ v, Rep 4096 301990840
      (osMemPoolInit (fun _ => 0) 4096 301990840) v [] ∧
    ¬AlignRoundTrip 4096 301990840 (osMemPoolInit (fun _ => 0) 4096 301990840) v 536870904 4 := by
  have hrep := osMemPoolInit_rep fresh_wide fun _ => 0
  have hneed : allocSizeOf (max 536870904 8 + 4 - 4) = 536870912 := rfl
  have hstart : startIndex 536870912 = 200 := by
    unfold startIndex
    rw [if_neg (by omega), sizeClass_top _ (by omega)]
  have hclass : sizeClass (301990840 - 952) = 200 := by decide
  have hfind := fresh_wide.search_fresh hrep 536870912 (by omega) (by omega) (by omega)
  have hword : sizeAndFlag (osMemPoolInit (fun _ => 0) 4096 301990840) (4096 + 944) = 301989888 :=
    hrep.free_word (b := fresh_wide.block) (List.mem_singleton_self _) rfl
  refine ⟨_, hrep, losMemAllocAlign_short hrep 536870904 4 (by omega) (by omega)
    (alignRequest_four _ (by omega) (by omega)) fun hfits => ?_⟩
  unfold AlignFits at hfits
  simp only [hneed, hfind, hword] at hfits
  rw [osMemAlign_word _ (by omega), osMemNodeGetSize_eq] at hfits
  omega

end LiteosM.Heap
