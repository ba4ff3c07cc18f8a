import LiteosM.Membox.Integrity

/-!
# The geometry of a memory box

Where the blocks lie that are handed out, for every size `LOS_MemboxInit` accepts.
-/

namespace LiteosM.Membox
open Lib.ByteMemory Lib.Word32 Lib.Transition

/-- The blocks a caller gets have `blkSize` bytes each, in the box and apart. -/
structure BlocksOk (pool poolSize blkSize : Nat) (outstanding : List Nat) : Prop where
  inside : ∀ a ∈ outstanding, pool ≤ a ∧ a + blkSize ≤ pool + poolSize
  apart : outstanding.Pairwise fun a b => a + blkSize ≤ b ∨ b + blkSize ≤ a

/-- Calls of tasks that free what they hold. -/
def BoxUse (tskLimit pool poolSize : Nat) (s : BoxState) (op : BoxOp) (t : BoxState) : Prop :=
  (∀ box, op = .free box → box ∈ s.outstanding) ∧ BoxStep tskLimit pool poolSize s op t

/-- The free list and the blocks handed out make up the box. -/
structure Shape (pool bs n : Nat) (m : Memory) (free out : List Nat) : Prop where
  size : uwBlkSize m pool = bs
  walk : FreeWalk m (stFreeList m pool) free
  blocks : (free ++ out).Perm (nodes pool bs n)

structure Fits (pool poolSize bs n : Nat) : Prop where
  nonzero : pool ≠ 0
  size : 8 ≤ bs
  fits : 16 + n * bs ≤ poolSize
  inside : pool + poolSize ≤ 4294967296

section
variable {pool poolSize blkSize tskLimit bs n : Nat} {m m' : Memory} {free out : List Nat}
  {s t : BoxState} {x y : Nat}

theorem Fits.node_bounds (g : Fits pool poolSize bs n) (hx : x ∈ nodes pool bs n) :
    pool + 16 ≤ x ∧ x + bs ≤ pool + poolSize := by
  obtain ⟨i, hi, rfl⟩ := mem_nodes.mp hx
  have hm := mul_apart bs hi
  have hf := g.fits
  omega

theorem Shape.mem_free (h : Shape pool bs n m free out) (hx : x ∈ free) : x ∈ nodes pool bs n :=
  h.blocks.mem_iff.mp (List.mem_append_left _ hx)

theorem Shape.mem_out (h : Shape pool bs n m free out) (hx : x ∈ out) : x ∈ nodes pool bs n :=
  h.blocks.mem_iff.mp (List.mem_append_right _ hx)

theorem Shape.nodup (h : Shape pool bs n m free out) (g : Fits pool poolSize bs n) :
    (free ++ out).Nodup := by
  apply h.blocks.nodup_iff.mpr
  apply List.nodup_range.map_on
  intro i _ j _ hij
  have hs := g.size
  have hij : i * bs = j * bs := by omega
  exact Nat.eq_of_mul_eq_mul_right (by omega) hij

theorem Shape.congr (h : Shape pool bs n m free out) {free' out' : List Nat}
    (hsize : uwBlkSize m' pool = uwBlkSize m pool) (hhead : FreeWalk m' (stFreeList m' pool) free')
    (hblocks : (free' ++ out').Perm (free ++ out)) : Shape pool bs n m' free' out' :=
  ⟨hsize.trans h.size, hhead, hblocks.trans h.blocks⟩

theorem Fits.header (g : Fits pool poolSize bs n) (hx : x ∈ nodes pool bs n) (v : Nat) :
    (∀ i, i + 4 ≤ 16 → load32 (store32 m x v) (pool + i) = load32 m (pool + i)) ∧
      ∀ y ∈ nodes pool bs n, y ≠ x → pstNext (store32 m x v) y = pstNext m y := by
  have hb := g.node_bounds hx
  have hs := g.size
  constructor
  · intro i hi
    exact load32_store32_apart _ _ _ _ (by omega)
  · intro y hy hne
    have ha := node_apart hx hy (Ne.symm hne)
    exact load32_store32_apart _ _ _ _ (by omega)

theorem Fits.control (g : Fits pool poolSize bs n) (hx : x ∈ nodes pool bs n) (i v : Nat)
    (hi : i + 4 ≤ 16) : pstNext (store32 m (pool + i) v) x = pstNext m x := by
  have hb := g.node_bounds hx
  exact load32_store32_apart _ _ _ _ (by omega)

theorem losMemboxAlloc_shape (h : Shape pool bs n m free out) (g : Fits pool poolSize bs n)
    (taskID : Nat) :
    (free = [] ∧ losMemboxAlloc m pool taskID = (m, 0)) ∨
    ∃ x l, free = x :: l ∧ (losMemboxAlloc m pool taskID).2 = x + 4 ∧
      Shape pool bs n (losMemboxAlloc m pool taskID).1 l (x :: out) := by
  unfold losMemboxAlloc
  rw [if_neg g.nonzero]
  cases free with
  | nil =>
    have h0 : stFreeList m pool = 0 := h.walk
    rw [if_neg (by simp [h0])]
    exact Or.inl ⟨rfl, rfl⟩
  | cons x l =>
    obtain ⟨hhead, hx0, hrest⟩ := h.walk
    have hx := h.mem_free List.mem_cons_self
    have hb := g.node_bounds hx
    have hs := g.size
    have hin := g.inside
    have hxl : x ∉ l := fun hm => (List.nodup_cons.mp (h.nodup g)).1 (List.mem_append_left _ hm)
    rw [hhead, if_pos hx0]
    right
    refine ⟨x, l, rfl, add32_of_lt _ _ (by unfold osMemboxNodeHeadSize; omega), ?_⟩
    dsimp only
    unfold osMemBoxSetMagic uwBlkCnt
    generalize osMemboxMagic ||| taskID % 256 = magic
    generalize add32 _ 1 = cnt
    apply h.congr
    · unfold uwBlkSize
      rw [load32_store32_apart _ _ _ _ (by omega), load32_store32_apart _ _ _ _ (by omega),
        load32_store32_apart _ _ _ _ (by omega)]
    · have hnext : pstNext m x < 4294967296 := load32_lt _ _
      unfold stFreeList
      rw [load32_store32_apart _ _ _ _ (by omega), (g.header hx _).1 12 (by omega),
        load32_store32_same _ _ _ hnext]
      apply freeWalk_congr hrest
      intro y hy
      have hyn := h.mem_free (List.mem_cons_of_mem _ hy)
      rw [g.control hyn 8 _ (by omega),
        (g.header hx _).2 y hyn (fun heq => hxl (heq ▸ hy)), g.control hyn 12 _ (by omega)]
    · exact List.perm_middle

theorem losMemboxFree_shape (h : Shape pool bs n m free out) (g : Fits pool poolSize bs n)
    (hxo : x ∈ out) :
    ((losMemboxFree tskLimit m pool (x + 4)).2 ≠ losOk ∧
      (losMemboxFree tskLimit m pool (x + 4)).1 = m) ∨
    ((losMemboxFree tskLimit m pool (x + 4)).2 = losOk ∧
      Shape pool bs n (losMemboxFree tskLimit m pool (x + 4)).1 (x :: free) (out.erase x)) := by
  have hx := h.mem_out hxo
  have hb := g.node_bounds hx
  have hs := g.size
  have hin := g.inside
  have hxf : x ∉ free := fun hm => (List.nodup_append.mp (h.nodup g)).2.2 x hm x hxo rfl
  have haddr : osMemboxNodeAddr (x + 4) = x := by
    unfold osMemboxNodeAddr osMemboxNodeHeadSize
    rw [sub32_of_le _ _ (by omega) (by omega), Nat.add_sub_cancel]
  have hnz := g.nonzero
  unfold losMemboxFree
  rw [if_neg (by omega)]
  dsimp only
  rw [haddr]
  by_cases hcheck : osCheckBoxMem tskLimit m pool x ≠ losOk
  · rw [if_pos hcheck]
    exact Or.inl ⟨Nat.one_ne_zero, rfl⟩
  · rw [if_neg hcheck]
    refine Or.inr ⟨rfl, ?_⟩
    dsimp only
    unfold uwBlkCnt
    generalize sub32 _ 1 = cnt
    apply h.congr
    · unfold uwBlkSize
      rw [load32_store32_apart _ _ _ _ (by omega), load32_store32_apart _ _ _ _ (by omega),
        load32_store32_apart _ _ _ _ (by omega)]
    · have hfree : stFreeList m pool < 4294967296 := load32_lt _ _
      unfold stFreeList at hfree ⊢
      rw [load32_store32_apart _ _ _ _ (by omega), load32_store32_same _ _ _ (by omega)]
      refine ⟨rfl, by omega, ?_⟩
      rw [g.control hx 8 _ (by omega), g.control hx 12 _ (by omega), pstNext,
        load32_store32_same _ _ _ hfree]
      apply freeWalk_congr h.walk
      intro y hy
      have hyn := h.mem_free hy
      rw [g.control hyn 8 _ (by omega), g.control hyn 12 _ (by omega),
        (g.header hx _).2 y hyn fun heq => hxf (heq ▸ hy)]
    · have hp := (List.perm_cons_erase hxo).symm
      exact List.perm_middle.symm.trans (List.Perm.append_left free hp)

theorem Shape.user (h : Shape pool bs n m free out) (g : Fits pool poolSize bs n)
    (hm : ∀ a, m' a ≠ m a → (∃ x ∈ out, x + 4 ≤ a ∧ a < x + bs) ∨ a < pool ∨ pool + poolSize ≤ a) :
    Shape pool bs n m' free out := by
  have hfits := g.fits
  have hsame : ∀ a, pool ≤ a ∧ a < pool + 16 ∧ 16 ≤ poolSize ∨
      (∃ y ∈ nodes pool bs n, y ≤ a ∧ a < y + 4) → m' a = m a := by
    intro a ha
    by_contra hne
    obtain ⟨x, hx, hlo, hhi⟩ | hout := hm a hne
    · have hbx := g.node_bounds (h.mem_out hx)
      obtain ⟨_, hlow, _⟩ | ⟨y, hy, hylo, hyhi⟩ := ha
      · omega
      · by_cases hxy : x = y
        · omega
        · have hap := node_apart (h.mem_out hx) hy hxy
          omega
    · obtain ⟨_, hlow, _⟩ | ⟨y, hy, hylo, hyhi⟩ := ha
      · omega
      · have hby := g.node_bounds hy
        have hs := g.size
        omega
  have hword : ∀ i, i + 4 ≤ 16 → load32 m' (pool + i) = load32 m (pool + i) := by
    intro i hi
    apply load32_congr
    intro x hlo hhi
    exact hsame x (Or.inl (by omega))
  apply h.congr (hword 0 (by omega)) _ (List.Perm.refl _)
  unfold stFreeList
  rw [hword 12 (by omega)]
  apply freeWalk_congr h.walk
  intro y hy
  apply load32_congr
  intro x hlo hhi
  exact hsame x (Or.inr ⟨y, h.mem_free hy, hlo, hhi⟩)

def ShapeInv (pool bs n : Nat) (s : BoxState) : Prop :=
  ∃ free out, Shape pool bs n s.mem free out ∧ s.outstanding = out.map (· + 4)

theorem boxUse_shape (g : Fits pool poolSize bs n) (op : BoxOp) (hinv : ShapeInv pool bs n s)
    (hstep : BoxUse tskLimit pool poolSize s op t) : ShapeInv pool bs n t := by
  obtain ⟨free, out, h, hout⟩ := hinv
  obtain ⟨huse, hstep⟩ := hstep
  have hs := g.size
  cases hstep with
  | alloc taskID ht =>
    obtain ⟨_, he⟩ | ⟨x, l, _, hx, hshape⟩ := losMemboxAlloc_shape h g taskID
    · rw [he, if_pos rfl]
      exact ⟨free, out, h, hout⟩
    · refine ⟨l, x :: out, hshape, ?_⟩
      rw [hx, if_neg (by omega), hout]
      rfl
  | free box hbox =>
    have hmem := huse box rfl
    rw [hout] at hmem
    obtain ⟨x, hx, rfl⟩ := List.mem_map.mp hmem
    obtain ⟨hno, hsame⟩ | ⟨hok, hshape⟩ := losMemboxFree_shape h g hx
    · rw [if_neg hno, hsame]
      exact ⟨free, out, h, hout⟩
    · rw [if_pos hok]
      refine ⟨x :: free, out.erase x, hshape, ?_⟩
      rw [hout, List.map_erase (fun a b hab => by simpa using hab)]
  | clr box hbox =>
    rw [hout] at hbox
    obtain ⟨x, hx, rfl⟩ := List.mem_map.mp hbox
    have hb := g.node_bounds (h.mem_out hx)
    have hin := g.inside
    refine ⟨free, out, h.user g ?_, hout⟩
    intro a ha
    refine Or.inl ⟨x, hx, ?_⟩
    have hsub : sub32 (uwBlkSize s.mem pool) osMemboxNodeHeadSize = bs - 4 := by
      rw [h.size]
      exact sub32_of_le _ _ (by unfold osMemboxNodeHeadSize; omega) (by omega)
    by_contra hno
    apply ha
    unfold losMemboxClr
    rw [if_neg (by have := g.nonzero; omega), hsub]
    exact fillBytes_outside _ _ _ _ _ (by omega)
  | write addr value hmay =>
    refine ⟨free, out, h.user g ?_, hout⟩
    intro a ha
    have haa : a = addr := by
      by_contra hne
      exact ha (store8_outside _ _ _ _ hne)
    rw [haa]
    obtain ⟨box, hbox, hlo, hhi⟩ | hfar := hmay
    · rw [hout] at hbox
      obtain ⟨x, hx, rfl⟩ := List.mem_map.mp hbox
      rw [h.size] at hhi
      exact Or.inl ⟨x, hx, hlo, by omega⟩
    · exact Or.inr hfar

theorem ShapeInv.blocksOk (g : Fits pool poolSize bs n) (hblk : blkSize + 4 ≤ bs)
    (hinv : ShapeInv pool bs n s) : BlocksOk pool poolSize blkSize s.outstanding := by
  obtain ⟨free, out, h, hout⟩ := hinv
  rw [hout]
  constructor
  · intro a ha
    obtain ⟨x, hx, rfl⟩ := List.mem_map.mp ha
    have hb := g.node_bounds (h.mem_out hx)
    omega
  · rw [List.pairwise_map]
    apply (List.nodup_append.mp (h.nodup g)).2.1.imp_of_mem
    intro a b ha hb hne
    have hap := node_apart (h.mem_out ha) (h.mem_out hb) hne
    omega

theorem losMemboxAlloc_first (hrep : BoxRep pool bs n tskLimit m (nodes pool bs n) [])
    (hpool : pool ≠ 0) (hn : 1 ≤ n) (hin : pool + 20 < 4294967296) (taskID : Nat) :
    (losMemboxAlloc m pool taskID).2 = pool + 20 := by
  have hhead : stFreeList m pool = pool + 16 := by
    have hwalk := hrep.walk
    obtain ⟨k, rfl⟩ : ∃ k, n = k + 1 := ⟨n - 1, by omega⟩
    have hnodes : nodes pool bs (k + 1) = (pool + 16 + 0 * bs) ::
        (List.range k).map ((fun i => pool + 16 + i * bs) ∘ Nat.succ) := by
      unfold nodes
      rw [List.range_succ_eq_map, List.map_cons, List.map_map]
    rw [hnodes, Nat.zero_mul] at hwalk
    exact hwalk.1
  unfold losMemboxAlloc
  rw [if_neg hpool, hhead, if_pos (by omega)]
  exact add32_of_lt _ _ (by unfold osMemboxNodeHeadSize; omega)

end

/-- A box `LOS_MemboxInit` accepts has a block, and its blocks are as large as they
should be if and only if the size of a block with its header did not overflow. -/
theorem losMembox_geometry (tskLimit pool poolSize blkSize : Nat) (m : Memory)
    (hpool : pool + poolSize < 4294967296)
    (hinit : (losMemboxInit m pool poolSize blkSize).2 = losOk) :
    1 ≤ uwBlkNum (losMemboxInit m pool poolSize blkSize).1 pool ∧
    ((∀ ops t, Run (BoxUse tskLimit pool poolSize)
      ⟨(losMemboxInit m pool poolSize blkSize).1, []⟩ ops t →
        BlocksOk pool poolSize blkSize t.outstanding) ↔ blkSize + 7 < 4294967296) := by
  obtain ⟨bs, n, hbs, hb0, h0, h4, h1, hfits, hrep⟩ := losMemboxInit_rep tskLimit hpool.le hinit
  have hroom := Nat.mul_le_mul h1 h4
  constructor
  · rw [hrep.num]
    exact h1
  constructor
  · intro hok
    by_contra hlarge
    have hfirst := losMemboxAlloc_first hrep h0 h1 (by omega) 0
    have hstep : BoxUse tskLimit pool poolSize ⟨(losMemboxInit m pool poolSize blkSize).1, []⟩
        (.alloc 0) _ := ⟨fun _ heq => (by cases heq), BoxStep.alloc _ 0 (Nat.zero_le _)⟩
    have hblocks := hok _ _ (run_single hstep)
    rw [hfirst, if_neg (by omega)] at hblocks
    have hinside := (hblocks.inside (pool + 20) List.mem_cons_self).2
    omega
  · intro hsmall ops t hrun
    rw [losMemboxAlligned_eq blkSize hsmall] at hbs
    have g : Fits pool poolSize bs n := ⟨h0, by omega, hfits, hpool.le⟩
    have hinv : ShapeInv pool bs n ⟨(losMemboxInit m pool poolSize blkSize).1, []⟩ :=
      ⟨nodes pool bs n, [], ⟨hrep.size, hrep.walk, hrep.blocks⟩, rfl⟩
    have hend : ShapeInv pool bs n t :=
      run_invariant (ShapeInv pool bs n) (fun _ op _ h hstep => boxUse_shape g op h hstep) hrun hinv
    exact hend.blocksOk g (by omega)

theorem losMembox_geometry_smallBox : 1 ≤ uwBlkNum smallBox 4096 ∧
    ∀ ops t, Run (BoxUse 15 4096 64) ⟨smallBox, []⟩ ops t → BlocksOk 4096 64 12 t.outstanding := by
  have h := losMembox_geometry 15 4096 64 12 (fun _ => 0) (by decide) (by decide +kernel)
  exact ⟨h.1, h.2.mpr (by decide)⟩

/-- The header and the rounding take a block of `2 ^ 32 - 3` bytes down to one word. -/
theorem losMemboxInit_overflows :
    (losMemboxInit (fun _ => 0) 4096 64 4294967293).2 = losOk ∧
    ∃ t, Run (BoxUse 15 4096 64) ⟨(losMemboxInit (fun _ => 0) 4096 64 4294967293).1, []⟩
      [.alloc 0] t ∧ ¬BlocksOk 4096 64 4294967293 t.outstanding := by
  have hstep : BoxUse 15 4096 64 ⟨(losMemboxInit (fun _ => 0) 4096 64 4294967293).1, []⟩
      (.alloc 0) _ := ⟨fun _ heq => (by cases heq), BoxStep.alloc _ 0 (Nat.zero_le _)⟩
  have hgot : (losMemboxAlloc (losMemboxInit (fun _ => 0) 4096 64 4294967293).1 4096 0).2 = 4116 := by
    decide +kernel
  refine ⟨by decide +kernel, _, run_single hstep, fun hblocks => ?_⟩
  rw [hgot, if_neg (by decide)] at hblocks
  have hinside := (hblocks.inside 4116 List.mem_cons_self).2
  omega

end LiteosM.Membox
