import LiteosM.Heap.SizeClass
import Mathlib.Data.List.Chain
import Mathlib.Data.List.Nodup
import Mathlib.Logic.Function.Basic

/-!
# Blocks and their layout

The abstract heap: a list of blocks in address order and, for each size class,
the list of free block addresses. A block is free or owned through the pointer
handed to the user.
-/

namespace LiteosM.Heap

/-- One node of the pool, head included. -/
@[ext] structure Block where
  addr : Nat
  size : Nat
  owner : Option Nat
  aligned : addr % 4 = 0
  whole : size % 4 = 0
  room : 16 ≤ size
  inside : ∀ p ∈ owner, addr + 8 ≤ p ∧ p + 4 ≤ addr + size ∧ p % 4 = 0

/-- The word `sizeAndFlag` of a block. -/
def Block.word (b : Block) : Nat :=
  match b.owner with
  | none => b.size
  | some p => b.size + 2147483648 + if p = b.addr + 8 then 0 else 1073741824

def Block.free (b : Block) : Block := { b with owner := none, inside := by simp }

def Block.own (b : Block) (p : Nat) (h : b.addr + 8 ≤ p ∧ p + 4 ≤ b.addr + b.size ∧ p % 4 = 0) :
    Block :=
  { b with
    owner := some p
    inside := by
      rintro q ⟨⟩
      exact h }

def Block.join (a b : Block) : Block :=
  { a with
    size := a.size + b.size
    owner := none
    whole := by have := a.whole; have := b.whole; omega
    room := by have := a.room; omega
    inside := by simp }

def Block.take (a : Block) (s : Nat) (h4 : s % 4 = 0) (h16 : 16 ≤ s) : Block :=
  { a with size := s, owner := none, whole := h4, room := h16, inside := by simp }

def Block.drop (a : Block) (s : Nat) (h4 : s % 4 = 0) (h16 : s + 16 ≤ a.size) : Block where
  addr := a.addr + s
  size := a.size - s
  owner := none
  aligned := by have := a.aligned; omega
  whole := by have := a.whole; omega
  room := by omega
  inside := by simp

/-- `bs` covers `[a, e)` without gap or overlap. -/
def Tile (a : Nat) : List Block → Nat → Prop
  | [], e => a = e
  | b :: bs, e => b.addr = a ∧ Tile (a + b.size) bs e

theorem tile_append (a e : Nat) (bs cs : List Block) :
    Tile a (bs ++ cs) e ↔ ∃ c, Tile a bs c ∧ Tile c cs e := by
  induction bs generalizing a with
  | nil => simp [Tile]
  | cons b bs ih =>
    simp only [List.cons_append, Tile, ih]
    constructor
    · rintro ⟨h1, c, h2, h3⟩
      exact ⟨c, ⟨h1, h2⟩, h3⟩
    · rintro ⟨c, ⟨h1, h2⟩, h3⟩
      exact ⟨h1, c, h2, h3⟩

theorem tile_le (a e : Nat) (bs : List Block) (h : Tile a bs e) : a ≤ e := by
  induction bs generalizing a with
  | nil => exact le_of_eq h
  | cons b bs ih =>
    have := ih _ h.2
    omega

theorem tile_mem (a e : Nat) (bs : List Block) (h : Tile a bs e) (b : Block) (hb : b ∈ bs) :
    a ≤ b.addr ∧ b.addr + b.size ≤ e := by
  obtain ⟨pre, post, rfl⟩ := List.append_of_mem hb
  obtain ⟨c, h1, h2, h3⟩ := (tile_append ..).mp h
  have hpre := tile_le _ _ _ h1
  have hpost := tile_le _ _ _ h3
  omega

theorem tile_apart (a e : Nat) (bs : List Block) (h : Tile a bs e) (b c : Block) (hb : b ∈ bs)
    (hc : c ∈ bs) : b = c ∨ b.addr + b.size ≤ c.addr ∨ c.addr + c.size ≤ b.addr := by
  induction bs generalizing a with
  | nil => cases hb
  | cons d bs ih =>
    rcases List.mem_cons.mp hb with rfl | hb' <;> rcases List.mem_cons.mp hc with rfl | hc'
    · exact Or.inl rfl
    · have := tile_mem _ _ _ h.2 c hc'
      have := h.1
      omega
    · have := tile_mem _ _ _ h.2 b hb'
      have := h.1
      omega
    · exact ih _ h.2 hb' hc'

theorem tile_addr_inj (a e : Nat) (bs : List Block) (h : Tile a bs e) (b c : Block) (hb : b ∈ bs)
    (hc : c ∈ bs) (heq : b.addr = c.addr) : b = c := by
  have hroom := b.room
  have hroom' := c.room
  rcases tile_apart a e bs h b c hb hc with h1 | h1 | h1
  · exact h1
  all_goals omega

theorem tile_map_addr_nodup (a e : Nat) (bs : List Block) (h : Tile a bs e) :
    (bs.map Block.addr).Nodup := by
  induction bs generalizing a with
  | nil => exact List.nodup_nil
  | cons b bs ih =>
    rw [List.map_cons, List.nodup_cons]
    refine ⟨fun hm => ?_, ih _ h.2⟩
    obtain ⟨c, hc, heq⟩ := List.mem_map.mp hm
    have hge := (tile_mem _ _ _ h.2 c hc).1
    have hroom := b.room
    have hb := h.1
    omega

/-! ### The layout of a pool -/

/-- Blocks in address order, free addresses by size class. -/
structure Arena where
  blocks : List Block
  lists : Nat → List Nat

/-- The memory a caller may hand to `LOS_MemInit`. -/
structure Region (pool size : Nat) : Prop where
  nonzero : pool ≠ 0
  aligned : pool % 4 = 0
  whole : size % 4 = 0
  room : 968 ≤ size
  limit : size < 1073742776
  inside : pool + size ≤ 4294967296

/-- Two neighbours may both be free only while one of them is in transit. -/
def Separated (P : List Nat) (a b : Block) : Prop :=
  a.owner = none → b.owner = none → a.addr ∈ P ∨ b.addr ∈ P

/-- The pure half of the invariant. `P` holds the free blocks in transit: taken
off their list and not yet handed out, merged or filed again. -/
structure Layout (pool size : Nat) (v : Arena) (P : List Nat) : Prop where
  region : Region pool size
  tile : Tile (pool + 944) v.blocks (pool + size - 8)
  filed : ∀ b ∈ v.blocks, b.owner = none → b.addr ∉ P → b.addr ∈ v.lists (sizeClass b.size)
  member : ∀ i, ∀ n ∈ v.lists i, n ∉ P ∧
    ∃ b ∈ v.blocks, b.addr = n ∧ b.owner = none ∧ sizeClass b.size = i
  nodup : ∀ i, (v.lists i).Nodup
  apart : v.blocks.IsChain (Separated P)

def Arena.unlist (v : Arena) (i n : Nat) : Arena :=
  { v with lists := Function.update v.lists i ((v.lists i).erase n) }

def Arena.list (v : Arena) (i n : Nat) : Arena :=
  { v with lists := Function.update v.lists i (n :: v.lists i) }

section
variable {pool size : Nat} {v : Arena} {P : List Nat}

theorem Layout.bounds (h : Layout pool size v P) (b : Block) (hb : b ∈ v.blocks) :
    pool + 944 ≤ b.addr ∧ b.addr + b.size ≤ pool + size - 8 :=
  tile_mem _ _ _ h.tile b hb

theorem Layout.size_lt (h : Layout pool size v P) (b : Block) (hb : b ∈ v.blocks) :
    b.size < 1073741824 ∧ b.addr + b.size + 8 ≤ 4294967296 := by
  have := h.bounds b hb
  have := h.region.limit
  have := h.region.inside
  have := h.region.room
  omega

theorem Layout.addr_inj (h : Layout pool size v P) (b c : Block) (hb : b ∈ v.blocks)
    (hc : c ∈ v.blocks) (heq : b.addr = c.addr) : b = c :=
  tile_addr_inj _ _ _ h.tile b c hb hc heq

theorem Layout.disjoint (h : Layout pool size v P) (b c : Block) (hb : b ∈ v.blocks)
    (hc : c ∈ v.blocks) (hne : b.addr ≠ c.addr) :
    b.addr + b.size ≤ c.addr ∨ c.addr + c.size ≤ b.addr := by
  rcases tile_apart _ _ _ h.tile b c hb hc with rfl | h1
  · exact absurd rfl hne
  · exact h1

theorem Layout.index_lt (h : Layout pool size v P) (i n : Nat) (hn : n ∈ v.lists i) :
    i < 207 := by
  obtain ⟨_, b, hb, _, _, rfl⟩ := h.member i n hn
  exact sizeClass_lt _ (h.size_lt b hb).1

theorem Layout.index_unique (h : Layout pool size v P) (i j n : Nat) (hi : n ∈ v.lists i)
    (hj : n ∈ v.lists j) : i = j := by
  obtain ⟨_, b, hb, hbn, _, hbi⟩ := h.member i n hi
  obtain ⟨_, c, hc, hcn, _, hcj⟩ := h.member j n hj
  have hbc := h.addr_inj b c hb hc (hbn.trans hcn.symm)
  rw [← hbi, ← hcj, hbc]

theorem mem_unlist (hnd : ∀ i, (v.lists i).Nodup) (i n j k : Nat) :
    k ∈ (v.unlist i n).lists j ↔ k ∈ v.lists j ∧ (j = i → k ≠ n) := by
  by_cases hj : j = i
  · subst hj
    simp [Arena.unlist, (hnd j).mem_erase_iff, and_comm]
  · simp [Arena.unlist, hj]

theorem mem_list (i n j k : Nat) :
    k ∈ (v.list i n).lists j ↔ k ∈ v.lists j ∨ (j = i ∧ k = n) := by
  by_cases hj : j = i
  · subst hj
    simp [Arena.list, or_comm]
  · simp [Arena.list, hj]

theorem Layout.unlist (h : Layout pool size v P) (i n : Nat) (hn : n ∈ v.lists i) :
    Layout pool size (v.unlist i n) (n :: P) where
  region := h.region
  tile := h.tile
  filed := by
    intro b hb hfree hP
    have hbP : b.addr ≠ n ∧ b.addr ∉ P := by simpa using hP
    exact (mem_unlist h.nodup ..).mpr ⟨h.filed b hb hfree hbP.2, fun _ => hbP.1⟩
  member := by
    intro j k hk
    obtain ⟨hkj, hne⟩ := (mem_unlist h.nodup ..).mp hk
    obtain ⟨hkP, hblock⟩ := h.member j k hkj
    refine ⟨?_, hblock⟩
    intro hmem
    rcases List.mem_cons.mp hmem with rfl | hmem
    · exact hne (h.index_unique j i k hkj hn) rfl
    · exact hkP hmem
  nodup := by
    intro j
    by_cases hj : j = i
    · subst hj
      simpa [Arena.unlist] using (h.nodup j).erase n
    · simpa [Arena.unlist, Function.update_of_ne hj] using h.nodup j
  apart := h.apart.imp fun a b hab ha hb =>
    (hab ha hb).imp (List.mem_cons_of_mem n) (List.mem_cons_of_mem n)

theorem Layout.list (h : Layout pool size v (b.addr :: P)) (hb : b ∈ v.blocks)
    (hfree : b.owner = none) (hP : b.addr ∉ P) (hapart : v.blocks.IsChain (Separated P)) :
    Layout pool size (v.list (sizeClass b.size) b.addr) P where
  region := h.region
  tile := h.tile
  filed := by
    intro c hc hcfree hcP
    rw [mem_list]
    by_cases hcb : c.addr = b.addr
    · have := h.addr_inj c b hc hb hcb
      subst this
      exact Or.inr ⟨rfl, rfl⟩
    · exact Or.inl (h.filed c hc hcfree (by simp [hcb, hcP]))
  member := by
    intro j k hk
    rcases (mem_list ..).mp hk with hk | ⟨rfl, rfl⟩
    · obtain ⟨hkP, hblock⟩ := h.member j k hk
      exact ⟨fun hmem => hkP (List.mem_cons_of_mem _ hmem), hblock⟩
    · exact ⟨hP, b, hb, rfl, hfree, rfl⟩
  nodup := by
    intro j
    by_cases hj : j = sizeClass b.size
    · subst hj
      have hnot : b.addr ∉ v.lists (sizeClass b.size) := fun hm =>
        (h.member _ _ hm).1 List.mem_cons_self
      simpa [Arena.list, hnot] using h.nodup (sizeClass b.size)
    · simpa [Arena.list, Function.update_of_ne hj] using h.nodup j
  apart := hapart

/-- Blocks in transit may be cut anew: `mid` becomes `mid'`. -/
theorem Layout.replace {pre mid mid' post : List Block} {ls : Nat → List Nat} {P P' : List Nat}
    (h : Layout pool size ⟨pre ++ (mid ++ post), ls⟩ P)
    (htile : ∀ a e, Tile a mid e → Tile a mid' e) (hne : mid' ≠ [])
    (hmid : ∀ b ∈ mid, b.owner = none → b.addr ∈ P)
    (hmid' : ∀ b ∈ mid', b.owner = none → b.addr ∈ P')
    (hP : ∀ b ∈ pre ++ post, b.addr ∈ P' ↔ b.addr ∈ P) :
    Layout pool size ⟨pre ++ (mid' ++ post), ls⟩ P' where
  region := h.region
  tile := by
    obtain ⟨c, h1, h2⟩ := (tile_append ..).mp h.tile
    obtain ⟨d, h3, h4⟩ := (tile_append ..).mp h2
    exact (tile_append ..).mpr ⟨c, h1, (tile_append ..).mpr ⟨d, htile _ _ h3, h4⟩⟩
  filed := by
    intro b hb hfree hbP
    simp only [List.mem_append] at hb
    rcases hb with hb | hb | hb
    · exact h.filed b (by simp [hb]) hfree fun hm => hbP ((hP b (by simp [hb])).mpr hm)
    · exact absurd (hmid' b hb hfree) hbP
    · exact h.filed b (by simp [hb]) hfree fun hm => hbP ((hP b (by simp [hb])).mpr hm)
  member := by
    intro i n hn
    obtain ⟨hnP, b, hb, rfl, hfree, hi⟩ := h.member i n hn
    simp only [List.mem_append] at hb
    rcases hb with hb | hb | hb
    · exact ⟨fun hm => hnP ((hP b (by simp [hb])).mp hm), b, by simp [hb], rfl, hfree, hi⟩
    · exact absurd (hmid b hb hfree) hnP
    · exact ⟨fun hm => hnP ((hP b (by simp [hb])).mp hm), b, by simp [hb], rfl, hfree, hi⟩
  nodup := h.nodup
  apart := by
    have h1 := List.isChain_append.mp h.apart
    have h2 := List.isChain_append.mp h1.2.1
    have keep : ∀ l : List Block, (∀ b ∈ l, b ∈ pre ++ post) → l.IsChain (Separated P) →
        l.IsChain (Separated P') := by
      intro l hl hc
      refine hc.imp_of_mem_imp fun a b ha hb hab hafree hbfree => ?_
      exact (hab hafree hbfree).imp (hP a (hl a ha)).mpr (hP b (hl b hb)).mpr
    have hinner : mid'.IsChain (Separated P') :=
      (List.pairwise_of_forall_mem_list fun a ha b _ hafree _ =>
        Or.inl (hmid' a ha hafree)).isChain
    refine List.isChain_append.mpr ⟨keep pre (by simp_all) h1.1, ?_, ?_⟩
    · refine List.isChain_append.mpr ⟨hinner, keep post (by simp_all) h2.2.1, ?_⟩
      intro a ha b _ hafree _
      exact Or.inl (hmid' a (List.mem_of_getLast? ha) hafree)
    · intro a _ b hb _ hbfree
      cases mid' with
      | nil => exact absurd rfl hne
      | cons c cs =>
        have hbc : c = b := by simpa using hb
        exact Or.inr (hmid' b (by simp [hbc]) hbfree)

end

end LiteosM.Heap
