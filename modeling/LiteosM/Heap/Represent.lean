import LiteosM.Heap.Blocks
import LiteosM.Lib.LinkedList

/-!
# Which memory represents which arena

`Heads` reads the node heads, `Lists` the free lists and their bitmap. The words
either of them reads are disjoint from each other and from every payload, so a
step that writes words of one kind leaves the rest of the picture alone.
-/

namespace LiteosM.Heap
open Lib.ByteMemory Lib.Word32 Lib.LinkedList

/-- `m'` differs from `m` only in words at addresses that satisfy `A`. -/
def Touches (A : Nat → Prop) (m m' : Memory) : Prop := ∀ x, ¬A (x / 4 * 4) → m' x = m x

theorem touches_refl (A : Nat → Prop) (m : Memory) : Touches A m m := fun _ _ => rfl

theorem touches_trans (A : Nat → Prop) (m₁ m₂ m₃ : Memory) (h₁ : Touches A m₁ m₂)
    (h₂ : Touches A m₂ m₃) : Touches A m₁ m₃ := fun x hx => (h₂ x hx).trans (h₁ x hx)

theorem touches_mono (A B : Nat → Prop) (m m' : Memory) (h : Touches A m m') (hAB : ∀ a, A a → B a) :
    Touches B m m' := fun x hx => h x fun ha => hx (hAB _ ha)

theorem touches_store32 (A : Nat → Prop) (m : Memory) (a v : Nat) (h4 : a % 4 = 0) (ha : A a) :
    Touches A m (store32 m a v) := by
  intro x hx
  refine store32_outside m a v x ?_
  by_contra hn
  have hxa : x / 4 * 4 = a := by omega
  exact hx (hxa ▸ ha)

theorem touches_load32 (A : Nat → Prop) (m m' : Memory) (h : Touches A m m') (a : Nat)
    (h4 : a % 4 = 0) (ha : ¬A a) : load32 m' a = load32 m a := by
  refine load32_congr m m' a fun x hlo hhi => h x ?_
  have hxa : x / 4 * 4 = a := by omega
  rwa [hxa]

theorem touches_of_load32 (A : Nat → Prop) (m m' : Memory)
    (h : ∀ a, a % 4 = 0 → ¬A a → load32 m' a = load32 m a) : Touches A m m' := by
  intro x hx
  have hw := h (x / 4 * 4) (by omega) hx
  generalize hb : x / 4 * 4 = b at hw
  have bound := fun (k : Memory) (i : Nat) => (k i).isLt
  have h0 := bound m b
  have h1 := bound m (b + 1)
  have h2 := bound m (b + 2)
  have h3 := bound m (b + 3)
  have h0' := bound m' b
  have h1' := bound m' (b + 1)
  have h2' := bound m' (b + 2)
  have h3' := bound m' (b + 3)
  unfold load32 at hw
  have hx4 : x = b ∨ x = b + 1 ∨ x = b + 2 ∨ x = b + 3 := by omega
  rcases hx4 with rfl | rfl | rfl | rfl <;> exact Fin.ext (by omega)

theorem bytes_of_load32 (m m' : Memory) (lo hi : Nat) (hlo4 : lo % 4 = 0) (hhi4 : hi % 4 = 0)
    (h : ∀ a, a % 4 = 0 → lo ≤ a → a < hi → load32 m' a = load32 m a) (x : Nat) (hlo : lo ≤ x)
    (hhi : x < hi) : m' x = m x := by
  refine touches_of_load32 (fun a => ¬(lo ≤ a ∧ a < hi)) m m' (fun a h4 ha => ?_) x ?_
  · have ha := not_not.mp ha
    exact h a h4 ha.1 ha.2
  · omega

theorem load32_store32 (m : Memory) (a b v : Nat) (ha : a % 4 = 0) (hb : b % 4 = 0)
    (hv : v < 4294967296) : load32 (store32 m a v) b = if b = a then v else load32 m b := by
  split
  · next h => rw [h, load32_store32_same m a v hv]
  · next h => exact load32_store32_aligned m a b v ha hb h

/-- The links of free list `i`, the list head playing the cell at address 0. -/
def freeLinks (m : Memory) (pool i a : Nat) : Nat := if a = 0 then freeList m pool i else freeNext m a

/-- The head of a block, the back pointer to it and its gap word. -/
structure NodeHead (m : Memory) (b : Block) : Prop where
  word : sizeAndFlag m b.addr = b.word
  back : prevOf m (b.addr + b.size) = b.addr
  gap : ∀ p, b.owner = some p → p ≠ b.addr + 8 → load32 m (p - 4) = p - (b.addr + 8) + 1073741824

structure Heads (m : Memory) (pool size : Nat) (bs : List Block) : Prop where
  total : totalSize m pool = size
  first : prevOf m (pool + 944) = pool + size - 8
  sentinel : sizeAndFlag m (pool + size - 8) = 2147483648
  node : ∀ b ∈ bs, NodeHead m b

structure Lists (m : Memory) (pool : Nat) (ls : Nat → List Nat) : Prop where
  links : ∀ i < 223, Links (· ≠ 0) (freeLinks m pool i) (freePrev m) 0 (ls i)
  bit : ∀ i < 224, (freeListBitmap m pool (i / 32)).testBit (i % 32) = decide (ls i ≠ [])

structure Rep (pool size : Nat) (m : Memory) (v : Arena) (P : List Nat) : Prop where
  layout : Layout pool size v P
  heads : Heads m pool size v.blocks
  lists : Lists m pool v.lists

/-- The words `Heads` reads. -/
def HeadWord (pool size : Nat) (bs : List Block) (a : Nat) : Prop :=
  a = pool + 4 ∨ a = pool + 944 ∨ a = pool + size - 4 ∨
  ∃ b ∈ bs, a = b.addr + 4 ∨ a = b.addr + b.size ∨
    ∃ p, b.owner = some p ∧ p ≠ b.addr + 8 ∧ a = p - 4

/-- The words `Lists` reads. -/
def ListWord (pool : Nat) (ls : Nat → List Nat) (a : Nat) : Prop :=
  (pool + 20 ≤ a ∧ a < pool + 940) ∨ ∃ i, ∃ n ∈ ls i, a = n + 8 ∨ a = n + 12

/-- The list words of the pool head and the link fields of every free block. -/
def LinkWord (pool : Nat) (bs : List Block) (a : Nat) : Prop :=
  (pool + 20 ≤ a ∧ a < pool + 940) ∨
  ∃ b ∈ bs, b.owner = none ∧ (a = b.addr + 8 ∨ a = b.addr + 12)

/-- The payload words of the owned blocks, from the user's pointer on. -/
def PayloadWord (bs : List Block) (a : Nat) : Prop :=
  ∃ b ∈ bs, ∃ p, b.owner = some p ∧ p ≤ a ∧ a < b.addr + b.size

section
variable {pool size : Nat} {m m' : Memory} {v : Arena} {P : List Nat} {A : Nat → Prop}

theorem Layout.head_not_link (h : Layout pool size v P) (a : Nat)
    (hh : HeadWord pool size v.blocks a) (hl : LinkWord pool v.blocks a) : False := by
  have hroom := h.region.room
  rcases hl with hl | ⟨c, hc, hcfree, hl⟩
  · rcases hh with hh | hh | hh | ⟨b, hb, hh⟩
    · omega
    · omega
    · omega
    · have hbb := h.bounds b hb
      rcases hh with hh | hh | ⟨p, hp, _, hh⟩
      · omega
      · omega
      · have hin := b.inside p hp
        omega
  · have hcb := h.bounds c hc
    have hcr := c.room
    rcases hh with hh | hh | hh | ⟨b, hb, hh⟩
    · omega
    · omega
    · omega
    · have hbr := b.room
      by_cases heq : b.addr = c.addr
      · have hbc := h.addr_inj b c hb hc heq
        subst hbc
        rcases hh with hh | hh | ⟨p, hp, _, hh⟩
        · omega
        · omega
        · rw [hcfree] at hp
          cases hp
      · have hd := h.disjoint b c hb hc heq
        rcases hh with hh | hh | ⟨p, hp, _, hh⟩
        · omega
        · omega
        · have hin := b.inside p hp
          omega

theorem Layout.owned_not_link (h : Layout pool size v P) {b : Block} (hb : b ∈ v.blocks) (p : Nat)
    (hown : b.owner = some p) (a : Nat) (hlo : b.addr ≤ a) (hhi : a < b.addr + b.size) :
    ¬LinkWord pool v.blocks a := by
  have hbb := h.bounds b hb
  rintro (hl | ⟨c, hc, hcfree, hl⟩)
  · omega
  · have hcr := c.room
    by_cases heq : b.addr = c.addr
    · have hbc := h.addr_inj b c hb hc heq
      subst hbc
      rw [hcfree] at hown
      cases hown
    · have hd := h.disjoint b c hb hc heq
      omega

theorem Layout.link_not_payload (h : Layout pool size v P) (a : Nat)
    (hl : LinkWord pool v.blocks a) (hp : PayloadWord v.blocks a) : False := by
  obtain ⟨b, hb, p, howner, hlo, hhi⟩ := hp
  have hin := b.inside p howner
  exact h.owned_not_link hb p howner a (by omega) hhi hl

theorem Layout.inside_not_link (h : Layout pool size v P) {b : Block} (hb : b ∈ v.blocks) (a : Nat)
    (ha : b.addr ≤ a ∧ a < b.addr + 8 ∨ b.addr + 16 ≤ a ∧ a < b.addr + b.size) :
    ¬LinkWord pool v.blocks a := by
  have hbb := h.bounds b hb
  have hbr := b.room
  rintro (hl | ⟨c, hc, _, hl⟩)
  · omega
  · have hcr := c.room
    by_cases heq : b.addr = c.addr
    · omega
    · have hd := h.disjoint b c hb hc heq
      omega

theorem Layout.head_not_payload (h : Layout pool size v P) (a : Nat)
    (hh : HeadWord pool size v.blocks a) (hp : PayloadWord v.blocks a) : False := by
  obtain ⟨b, hb, p, howner, hlo, hhi⟩ := hp
  have hin := b.inside p howner
  have hbb := h.bounds b hb
  have hroom := h.region.room
  rcases hh with hh | hh | hh | ⟨c, hc, hh⟩
  · omega
  · omega
  · omega
  · have hcr := c.room
    by_cases heq : b.addr = c.addr
    · have hbc := h.addr_inj b c hb hc heq
      subst hbc
      rcases hh with hh | hh | ⟨q, hq, _, hh⟩
      · omega
      · omega
      · have hpq : p = q := by simpa [howner] using hq
        omega
    · have hd := h.disjoint b c hb hc heq
      rcases hh with hh | hh | ⟨q, hq, _, hh⟩
      · omega
      · omega
      · have hin' := c.inside q hq
        omega

/-! ### Frames -/

theorem Layout.end_aligned (h : Layout pool size v P) :
    (pool + size - 8) % 4 = 0 ∧ (pool + size - 4) % 4 = 0 ∧ (pool + 944) % 4 = 0 ∧
      (pool + 4) % 4 = 0 := by
  have := h.region.aligned
  have := h.region.whole
  have := h.region.room
  omega

theorem NodeHead.frame {b : Block} (hb : NodeHead m b) (ht : Touches A m m')
    (hword : ¬A (b.addr + 4)) (hback : ¬A (b.addr + b.size))
    (hgap : ∀ p, b.owner = some p → p ≠ b.addr + 8 → ¬A (p - 4)) : NodeHead m' b := by
  have hba := b.aligned
  have hbw := b.whole
  refine ⟨?_, ?_, fun p hp hne => ?_⟩
  · exact (touches_load32 A m m' ht _ (by omega) hword).trans hb.word
  · exact (touches_load32 A m m' ht _ (by omega) hback).trans hb.back
  · have hin := b.inside p hp
    exact (touches_load32 A m m' ht _ (by omega) (hgap p hp hne)).trans (hb.gap p hp hne)

theorem Heads.frame (hh : Heads m pool size v.blocks) (hl : Layout pool size v P)
    (ht : Touches A m m') (hA : ∀ a, A a → ¬HeadWord pool size v.blocks a) :
    Heads m' pool size v.blocks := by
  have hal := hl.end_aligned
  have hroom := hl.region.room
  have keep : ∀ a, a % 4 = 0 → HeadWord pool size v.blocks a → load32 m' a = load32 m a :=
    fun a h4 hw => touches_load32 A m m' ht a h4 fun ha => hA a ha hw
  refine ⟨?_, ?_, ?_, fun b hb => (hh.node b hb).frame ht ?_ ?_ fun p hp hne => ?_⟩
  · exact (keep _ hal.2.2.2 (Or.inl rfl)).trans hh.total
  · exact (keep _ hal.2.2.1 (Or.inr (Or.inl rfl))).trans hh.first
  · have he : pool + size - 8 + 4 = pool + size - 4 := by omega
    refine (keep _ (by omega) ?_).trans hh.sentinel
    exact Or.inr (Or.inr (Or.inl he))
  · exact fun ha => hA _ ha (Or.inr (Or.inr (Or.inr ⟨b, hb, Or.inl rfl⟩)))
  · exact fun ha => hA _ ha (Or.inr (Or.inr (Or.inr ⟨b, hb, Or.inr (Or.inl rfl)⟩)))
  · exact fun ha => hA _ ha
      (Or.inr (Or.inr (Or.inr ⟨b, hb, Or.inr (Or.inr ⟨p, hp, hne, rfl⟩)⟩)))

theorem Layout.listed (hl : Layout pool size v P) (i n : Nat) (hn : n ∈ v.lists i) :
    ∃ b ∈ v.blocks, b.addr = n ∧ b.owner = none ∧ n % 4 = 0 ∧ n ≠ 0 := by
  obtain ⟨_, b, hb, rfl, hfree, _⟩ := hl.member i n hn
  have hbb := hl.bounds b hb
  exact ⟨b, hb, rfl, hfree, b.aligned, by omega⟩

theorem Layout.list_word_link (hl : Layout pool size v P) (a : Nat)
    (ha : ListWord pool v.lists a) : LinkWord pool v.blocks a := by
  rcases ha with ha | ⟨i, n, hn, ha⟩
  · exact Or.inl ha
  · obtain ⟨b, hb, rfl, hfree, _⟩ := hl.listed i n hn
    exact Or.inr ⟨b, hb, hfree, ha⟩

theorem Layout.inside_not_list (h : Layout pool size v P) {b : Block} (hb : b ∈ v.blocks) (a : Nat)
    (ha : b.addr ≤ a ∧ a < b.addr + 8 ∨ b.addr + 16 ≤ a ∧ a < b.addr + b.size ∨
      b.addr ∈ P ∧ b.addr ≤ a ∧ a < b.addr + b.size) : ¬ListWord pool v.lists a := by
  intro hl
  rcases ha with ha | ha | ⟨hP, hlo, hhi⟩
  · exact h.inside_not_link hb a (Or.inl ha) (h.list_word_link a hl)
  · exact h.inside_not_link hb a (Or.inr ha) (h.list_word_link a hl)
  · have hbb := h.bounds b hb
    rcases hl with hl | ⟨i, n, hn, hl⟩
    · omega
    · obtain ⟨hnP, c, hc, rfl, _⟩ := h.member i n hn
      have hcr := c.room
      have hne : b.addr ≠ c.addr := fun he => hnP (he ▸ hP)
      have hd := h.disjoint b c hb hc hne
      omega

theorem Lists.frame (hs : Lists m pool v.lists) (hl : Layout pool size v P)
    (ht : Touches A m m') (hA : ∀ a, A a → ¬ListWord pool v.lists a) : Lists m' pool v.lists := by
  have h4 := hl.region.aligned
  have keep : ∀ a, a % 4 = 0 → ListWord pool v.lists a → load32 m' a = load32 m a :=
    fun a h4 hw => touches_load32 A m m' ht a h4 fun ha => hA a ha hw
  refine ⟨fun i hi => ?_, fun i hi => ?_⟩
  · refine links_congr (hs.links i hi) (fun a ha => ?_) (fun a ha ha0 => ?_)
    · unfold freeLinks
      split
      · exact keep _ (by omega) (Or.inl (by omega))
      · next ha0 =>
        have hm : a ∈ v.lists i := by simpa [ha0] using ha
        obtain ⟨b, hb, hbn, hfree, h4, _⟩ := hl.listed i a hm
        exact keep _ (by omega) (Or.inr ⟨i, a, hm, Or.inr rfl⟩)
    · have hm : a ∈ v.lists i := by simpa [ha0] using ha
      obtain ⟨b, hb, hbn, hfree, h4, _⟩ := hl.listed i a hm
      exact keep _ (by omega) (Or.inr ⟨i, a, hm, Or.inl rfl⟩)
  · rw [← hs.bit i hi]
    congr 1
    exact keep _ (by omega) (Or.inl (by omega))

/-- The words of the pool head that describe it to others: `waterLine`,
`curUsedSize` and `nextPool`. -/
def StatWord (pool a : Nat) : Prop := a = pool + 12 ∨ a = pool + 16 ∨ a = pool + 940

/-- Apart from those of the pointers in `Q` the owned blocks are the same, with
their bytes, and neither the first word of the pool nor anything outside of it
was written. -/
structure Keeps (pool size : Nat) (Q : Nat → Prop) (v : Arena) (m : Memory) (v' : Arena)
    (m' : Memory) : Prop where
  stay : ∀ b ∈ v.blocks, ∀ p, b.owner = some p → ¬Q p →
    b ∈ v'.blocks ∧ ∀ x, b.addr + 8 ≤ x → x < b.addr + b.size → m' x = m x
  back : ∀ b ∈ v'.blocks, ∀ p, b.owner = some p → ¬Q p → b ∈ v.blocks
  outside : ∀ x, x < pool + 4 ∨ pool + size ≤ x → m' x = m x

/-- And the statistics were not written either. -/
structure Steady (pool size : Nat) (Q : Nat → Prop) (v : Arena) (m : Memory) (v' : Arena)
    (m' : Memory) : Prop extends Keeps pool size Q v m v' m' where
  stats : ∀ a, StatWord pool a → load32 m' a = load32 m a

section
variable {Q Q' : Nat → Prop} {v₁ v₂ v₃ : Arena} {m₁ m₂ m₃ : Memory}

theorem Keeps.trans (h₁ : Keeps pool size Q v₁ m₁ v₂ m₂) (h₂ : Keeps pool size Q v₂ m₂ v₃ m₃) :
    Keeps pool size Q v₁ m₁ v₃ m₃ where
  stay b hb p hp hq := by
    obtain ⟨hb', hx⟩ := h₁.stay b hb p hp hq
    obtain ⟨hb'', hx'⟩ := h₂.stay b hb' p hp hq
    exact ⟨hb'', fun x hlo hhi => (hx' x hlo hhi).trans (hx x hlo hhi)⟩
  back b hb p hp hq := h₁.back b (h₂.back b hb p hp hq) p hp hq
  outside x hx := (h₂.outside x hx).trans (h₁.outside x hx)

theorem Keeps.refl (v : Arena) (m : Memory) : Keeps pool size Q v m v m :=
  ⟨fun _ hb _ _ _ => ⟨hb, fun _ _ _ => rfl⟩, fun _ hb _ _ _ => hb, fun _ _ => rfl⟩

theorem Keeps.mono (h : Keeps pool size Q v₁ m₁ v₂ m₂) (hQ : ∀ p, Q p → Q' p) :
    Keeps pool size Q' v₁ m₁ v₂ m₂ :=
  ⟨fun b hb p hp hq => h.stay b hb p hp fun hq' => hq (hQ p hq'),
    fun b hb p hp hq => h.back b hb p hp fun hq' => hq (hQ p hq'), h.outside⟩

theorem Steady.trans (h₁ : Steady pool size Q v₁ m₁ v₂ m₂) (h₂ : Steady pool size Q v₂ m₂ v₃ m₃) :
    Steady pool size Q v₁ m₁ v₃ m₃ :=
  ⟨h₁.toKeeps.trans h₂.toKeeps, fun a ha => (h₂.stats a ha).trans (h₁.stats a ha)⟩

theorem Steady.refl (v : Arena) (m : Memory) : Steady pool size Q v m v m :=
  ⟨Keeps.refl v m, fun _ _ => rfl⟩

end

theorem keeps_of_touches (h : Layout pool size v P) (Q : Nat → Prop) (v' : Arena)
    (ht : Touches A m m') (hA : ∀ a, A a → pool + 4 ≤ a ∧ a < pool + size)
    (hb : ∀ b ∈ v.blocks, ∀ p, b.owner = some p → ¬Q p →
      b ∈ v'.blocks ∧ ∀ a, b.addr + 8 ≤ a → a < b.addr + b.size → ¬A a)
    (hback : ∀ b ∈ v'.blocks, ∀ p, b.owner = some p → ¬Q p → b ∈ v.blocks) :
    Keeps pool size Q v m v' m' := by
  have h4 := h.region.aligned
  have hw4 := h.region.whole
  refine ⟨fun b hbm p hp hq => ?_, hback, fun x hx => ht x fun ha => ?_⟩
  · obtain ⟨hb', hA'⟩ := hb b hbm p hp hq
    have hin := b.inside p hp
    have hw := b.whole
    have hba := b.aligned
    exact ⟨hb', fun x hlo hhi => ht x (hA' _ (by omega) (by omega))⟩
  · have hin := hA _ ha
    omega

theorem Layout.stat_aligned (h : Layout pool size v P) (a : Nat) (ha : StatWord pool a) :
    a % 4 = 0 := by
  have h4 := h.region.aligned
  unfold StatWord at ha
  omega

/-- A step on the link words alone: the node heads and the payloads stay. -/
theorem Rep.relink (h : Rep pool size m v P) (v' : Arena) (P' : List Nat)
    (hblocks : v'.blocks = v.blocks) (hlay : Layout pool size v' P')
    (ht : Touches (LinkWord pool v.blocks) m m') (hs : Lists m' pool v'.lists) (Q : Nat → Prop) :
    Rep pool size m' v' P' ∧ Steady pool size Q v m v' m' := by
  have hroom := h.layout.region.room
  have hin : ∀ a, LinkWord pool v.blocks a → pool + 20 ≤ a ∧ a + 4 ≤ pool + size ∧
      a ≠ pool + 940 := by
    rintro a (hl | ⟨b, hb, _, hl⟩)
    · omega
    · have hbb := h.layout.bounds b hb
      have hbr := b.room
      omega
  refine ⟨⟨hlay, ?_, hs⟩, keeps_of_touches h.layout Q v' ht (fun a ha => ?_)
    (fun b hb p hp _ => ⟨hblocks ▸ hb, ?_⟩) (fun b hb _ _ _ => hblocks ▸ hb), fun a ha => ?_⟩
  · rw [hblocks]
    exact h.heads.frame h.layout ht fun a hl hh => h.layout.head_not_link a hh hl
  · have := hin a ha
    omega
  · exact fun a hlo hhi => h.layout.owned_not_link hb p hp a (by omega) hhi
  · refine touches_load32 _ _ _ ht a (h.layout.stat_aligned a ha) fun hl => ?_
    have := hin a hl
    unfold StatWord at ha
    omega

/-- A step on words nobody reads. -/
theorem Rep.frame (h : Rep pool size m v P) (ht : Touches A m m')
    (hh : ∀ a, A a → ¬HeadWord pool size v.blocks a) (hl : ∀ a, A a → ¬LinkWord pool v.blocks a) :
    Rep pool size m' v P :=
  ⟨h.layout, h.heads.frame h.layout ht hh,
    h.lists.frame h.layout ht fun a ha hw => hl a ha (h.layout.list_word_link a hw)⟩

theorem Rep.stat (h : Rep pool size m v P) (ht : Touches (StatWord pool) m m') (Q : Nat → Prop) :
    Rep pool size m' v P ∧ Keeps pool size Q v m v m' := by
  have hroom := h.layout.region.room
  refine ⟨h.frame ht (fun a ha hh => ?_) (fun a ha hl => ?_), ?_⟩
  · unfold StatWord at ha
    rcases hh with hh | hh | hh | ⟨b, hb, hh⟩
    · omega
    · omega
    · omega
    · have hbb := h.layout.bounds b hb
      rcases hh with hh | hh | ⟨p, hp, _, hh⟩
      · omega
      · omega
      · have hin := b.inside p hp
        omega
  · unfold StatWord at ha
    rcases hl with hl | ⟨b, hb, _, hl⟩
    · omega
    · have hbb := h.layout.bounds b hb
      omega
  · refine keeps_of_touches h.layout Q v ht (fun a ha => ?_)
      (fun b hb p hp _ => ⟨hb, fun a hlo hhi ha => ?_⟩) (fun b hb _ _ _ => hb)
    · unfold StatWord at ha
      omega
    · unfold StatWord at ha
      have hbb := h.layout.bounds b hb
      have hin := b.inside p hp
      omega

end

end LiteosM.Heap
