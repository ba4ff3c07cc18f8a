import LiteosM.Heap.FreeLists

/-!
# Cutting blocks anew

Marking, merging and splitting rewrite the words from the second word of the
first block up to the back pointer behind the last one; everything else keeps
its place.
-/

namespace LiteosM.Heap
open Lib.ByteMemory Lib.Word32 Lib.LinkedList

section
variable {pool size : Nat} {m m' : Memory} {v : Arena} {P P' : List Nat}
  {pre post : List Block} {ls : Nat → List Nat} {a b : Block}

/-- The words a cut of `[s, e)` may write. -/
def CutWord (s e a : Nat) : Prop := s + 4 ≤ a ∧ a ≤ e

theorem Rep.recut (mid mid' : List Block) (h : Rep pool size m ⟨pre ++ (mid ++ post), ls⟩ P)
    (htile : ∀ a e, Tile a mid e → Tile a mid' e) (hne : mid' ≠ [])
    (hmid : ∀ b ∈ mid, b.owner = none → b.addr ∈ P)
    (hmid' : ∀ b ∈ mid', b.owner = none → b.addr ∈ P')
    (hP : ∀ b ∈ pre ++ post, b.addr ∈ P' ↔ b.addr ∈ P)
    (ht : ∀ s e, Tile s mid e → Touches (CutWord s e) m m')
    (hnode : ∀ b ∈ mid', NodeHead m' b) (Q : Nat → Prop)
    (hQ : ∀ b ∈ mid ++ mid', ∀ p, b.owner = some p → Q p) :
    Rep pool size m' ⟨pre ++ (mid' ++ post), ls⟩ P' ∧
      Steady pool size Q ⟨pre ++ (mid ++ post), ls⟩ m ⟨pre ++ (mid' ++ post), ls⟩ m' := by
  have hlay := h.layout
  have hlay' := hlay.replace htile hne hmid hmid' hP
  obtain ⟨s, hpre, htm⟩ := (tile_append ..).mp hlay.tile
  obtain ⟨e, htm, hpost⟩ := (tile_append ..).mp htm
  have ht := ht s e htm
  have hroom := hlay.region.room
  have hse := tile_le _ _ _ htm
  have hps := tile_le _ _ _ hpre
  have hee := tile_le _ _ _ hpost
  -- The blocks on both sides stay clear of the words written.
  have outside : ∀ b ∈ pre ++ post,
      (b.addr + b.size ≤ s ∨ e ≤ b.addr) ∧ b ∈ pre ++ (mid ++ post) := by
    intro b hb
    rcases List.mem_append.mp hb with hb | hb
    · exact ⟨Or.inl (tile_mem _ _ _ hpre b hb).2, by simp [hb]⟩
    · exact ⟨Or.inr (tile_mem _ _ _ hpost b hb).1, by simp [hb]⟩
  have keep : ∀ a, a % 4 = 0 → ¬CutWord s e a → load32 m' a = load32 m a :=
    fun a h4 ha => touches_load32 _ m m' ht a h4 ha
  have hal := hlay.end_aligned
  refine ⟨⟨hlay', ⟨?_, ?_, ?_, fun b hb => ?_⟩, ?_⟩, ?_, fun a ha => ?_⟩
  · exact (keep _ hal.2.2.2 (by unfold CutWord; omega)).trans h.heads.total
  · exact (keep _ hal.2.2.1 (by unfold CutWord; omega)).trans h.heads.first
  · refine (keep _ (by omega) (by unfold CutWord; omega)).trans h.heads.sentinel
  · have hcases : b ∈ pre ++ post ∨ b ∈ mid' := by
      simp only [List.mem_append] at hb ⊢
      tauto
    rcases hcases with hb | hb
    · obtain ⟨hout, hold⟩ := outside b hb
      have hroom := b.room
      refine (h.heads.node b hold).frame ht ?_ ?_ fun p hp _ => ?_
      · unfold CutWord; omega
      · unfold CutWord; omega
      · have hin := b.inside p hp
        unfold CutWord; omega
    · exact hnode b hb
  · refine h.lists.frame hlay ht fun a ha hw => ?_
    have ha : s + 4 ≤ a ∧ a ≤ e := ha
    rcases hw with hw | ⟨i, n, hn, hw⟩
    · omega
    · obtain ⟨hnP, b, hb, rfl, hfree, _⟩ := hlay.member i n hn
      have hcases : b ∈ pre ++ post ∨ b ∈ mid := by
        simp only [List.mem_append] at hb ⊢
        tauto
      rcases hcases with hb | hb
      · have hout := (outside b hb).1
        have hroom := b.room
        omega
      · exact hnP (hmid b hb hfree)
  · refine keeps_of_touches hlay Q _ ht (fun a ha => ?_) (fun b hb p hp hpQ => ?_)
      (fun b hb p hp hpQ => ?_)
    · have ha : s + 4 ≤ a ∧ a ≤ e := ha
      omega
    · have hcases : b ∈ pre ++ post ∨ b ∈ mid := by
        simp only [List.mem_append] at hb ⊢
        tauto
      rcases hcases with hb | hb
      · refine ⟨by simp only [List.mem_append] at hb ⊢; tauto, fun a hlo hhi ha => ?_⟩
        have ha : s + 4 ≤ a ∧ a ≤ e := ha
        have hin := b.inside p hp
        have hout := (outside b hb).1
        omega
      · exact absurd (hQ b (List.mem_append_left _ hb) p hp) hpQ
    · have hcases : b ∈ pre ++ post ∨ b ∈ mid' := by
        simp only [List.mem_append] at hb ⊢
        tauto
      rcases hcases with hb | hb
      · simp only [List.mem_append] at hb ⊢
        tauto
      · exact absurd (hQ b (List.mem_append_right _ hb) p hp) hpQ
  · refine keep a (hlay.stat_aligned a ha) ?_
    unfold StatWord at ha
    unfold CutWord
    omega

/-! ### Reading the neighbours -/

theorem Rep.prev_first (h : Rep pool size m ⟨b :: post, ls⟩ P) :
    b.addr = pool + 944 ∧ prevOf m b.addr = pool + size - 8 := by
  have hb : b.addr = pool + 944 := h.layout.tile.1
  exact ⟨hb, by rw [hb]; exact h.heads.first⟩

theorem Layout.adjacent (h : Layout pool size ⟨pre ++ (a :: b :: post), ls⟩ P) :
    b.addr = a.addr + a.size := by
  obtain ⟨c, _, h2⟩ := (tile_append ..).mp h.tile
  rw [h2.2.1, h2.1]

theorem Rep.prev_inner (h : Rep pool size m ⟨pre ++ (a :: b :: post), ls⟩ P) :
    prevOf m b.addr = a.addr := by
  rw [h.layout.adjacent]
  exact (h.heads.node a (by simp)).back

theorem Layout.last_end (h : Layout pool size ⟨pre ++ [b], ls⟩ P) :
    b.addr + b.size = pool + size - 8 := by
  obtain ⟨c, _, h2⟩ := (tile_append ..).mp h.tile
  rw [h2.1]
  exact h2.2

theorem word_free (hfree : b.owner = none) : b.word = b.size := by
  unfold Block.word
  rw [hfree]

theorem Rep.free_word (h : Rep pool size m v P) (hb : b ∈ v.blocks) (hfree : b.owner = none) :
    sizeAndFlag m b.addr = b.size := by
  rw [(h.heads.node b hb).word, word_free hfree]

theorem word_used (p : Nat) (hp : b.owner = some p) :
    b.word = b.size + 2147483648 ∨ b.word = b.size + 2147483648 + 1073741824 := by
  unfold Block.word
  rw [hp]
  by_cases hb : p = b.addr + 8 <;> simp [hb]

theorem Rep.node_flags (h : Rep pool size m v P) (hb : b ∈ v.blocks) :
    osMemNodeGetSize (sizeAndFlag m b.addr) = b.size ∧
    (osMemNodeGetUsedFlag (sizeAndFlag m b.addr) = 0 ↔ b.owner = none) := by
  have hlt := (h.layout.size_lt b hb).1
  rw [(h.heads.node b hb).word, osMemNodeGetSize_eq, osMemNodeGetUsedFlag_eq]
  cases ho : b.owner with
  | none =>
    rw [word_free ho]
    exact ⟨by omega, by simp; omega⟩
  | some p =>
    have hw := word_used p ho
    refine ⟨by omega, ?_⟩
    simp only [reduceCtorEq, iff_false]
    omega

theorem Rep.next_node (h : Rep pool size m v P) (hb : b ∈ v.blocks) :
    osMemNextNode m b.addr = b.addr + b.size := by
  have hlt := h.layout.size_lt b hb
  unfold osMemNextNode
  rw [(h.node_flags hb).1, add32_of_lt _ _ (by omega)]

theorem Rep.next_flag (h : Rep pool size m ⟨pre ++ (b :: post), ls⟩ P) :
    osMemNodeGetUsedFlag (sizeAndFlag m (b.addr + b.size)) = 0 ↔
      ∃ c post', post = c :: post' ∧ c.owner = none := by
  cases post with
  | nil =>
    have hend := h.layout.last_end
    rw [hend, h.heads.sentinel, osMemNodeGetUsedFlag_eq]
    simp
  | cons c post =>
    rw [← h.layout.adjacent, (h.node_flags (b := c) (by simp)).2]
    constructor
    · intro hc
      exact ⟨c, post, rfl, hc⟩
    · rintro ⟨c', post', heq, hc⟩
      injection heq with h1 h2
      rw [h1]
      exact hc

/-! ### Marking -/

theorem Layout.other_addr (h : Layout pool size ⟨pre ++ (b :: post), ls⟩ P) (c : Block)
    (hc : c ∈ pre ++ post) : c.addr ≠ b.addr := by
  have hnd := tile_map_addr_nodup _ _ _ h.tile
  rw [List.map_append, List.map_cons] at hnd
  obtain ⟨-, hpost, hdisj⟩ := List.nodup_append.mp hnd
  rcases List.mem_append.mp hc with hc | hc
  · exact hdisj _ (List.mem_map_of_mem hc) _ List.mem_cons_self
  · intro he
    exact (List.nodup_cons.mp hpost).1 (he ▸ List.mem_map_of_mem hc)

theorem Rep.disown (h : Rep pool size m ⟨pre ++ (b :: post), ls⟩ P) (q : Nat)
    (hown : b.owner = some q) (Q : Nat → Prop) (hq : Q q) :
    Rep pool size (setSizeAndFlag m b.addr b.size) ⟨pre ++ (b.free :: post), ls⟩ (b.addr :: P) ∧
      Steady pool size Q ⟨pre ++ (b :: post), ls⟩ m ⟨pre ++ (b.free :: post), ls⟩
        (setSizeAndFlag m b.addr b.size) := by
  have hba := b.aligned
  have hbr := b.room
  have hlt := h.layout.size_lt b (by simp)
  refine h.recut [b] [b.free] (fun _ _ ht => ht) (by simp) ?_ ?_ ?_ ?_ ?_ Q ?_
  · intro c hc hfree
    rw [List.mem_singleton.mp hc, hown] at hfree
    cases hfree
  · intro c hc _
    rw [List.mem_singleton.mp hc]
    exact List.mem_cons_self
  · intro c hc
    simp [h.layout.other_addr c hc]
  · rintro s e ⟨rfl, rfl⟩
    exact touches_store32 _ _ _ _ (by omega) ⟨by omega, by omega⟩
  · intro c hc
    rw [List.mem_singleton.mp hc]
    refine ⟨load32_store32_same _ _ _ (by omega), ?_, fun p hp => by cases hp⟩
    have hback := (h.heads.node b (by simp)).back
    refine (load32_store32_aligned _ _ _ _ (by omega) ?_ ?_).trans hback
    · have := b.whole
      show (b.addr + b.size) % 4 = 0
      omega
    · show b.addr + b.size ≠ b.addr + 4
      omega
  · intro c hc p hp
    rcases List.mem_pair.mp hc with rfl | rfl
    · rw [hown] at hp
      exact Option.some.inj hp ▸ hq
    · cases hp

theorem Rep.own (h : Rep pool size m ⟨pre ++ (b :: post), ls⟩ (b.addr :: P))
    (hfree : b.owner = none) (Q : Nat → Prop) (hq : Q (b.addr + 8))
    (hin : b.addr + 8 ≤ b.addr + 8 ∧ b.addr + 8 + 4 ≤ b.addr + b.size ∧ (b.addr + 8) % 4 = 0) :
    Rep pool size (setSizeAndFlag m b.addr (b.size + 2147483648))
        ⟨pre ++ (b.own (b.addr + 8) hin :: post), ls⟩ P ∧
      Steady pool size Q ⟨pre ++ (b :: post), ls⟩ m ⟨pre ++ (b.own (b.addr + 8) hin :: post), ls⟩
        (setSizeAndFlag m b.addr (b.size + 2147483648)) := by
  have hba := b.aligned
  have hbr := b.room
  have hlt := h.layout.size_lt b (by simp)
  refine h.recut [b] [b.own (b.addr + 8) hin] (fun _ _ ht => ht) (by simp)
    ?_ ?_ ?_ ?_ ?_ Q ?_
  · intro c hc _
    rw [List.mem_singleton.mp hc]
    exact List.mem_cons_self
  · intro c hc hcfree
    rw [List.mem_singleton.mp hc] at hcfree
    cases hcfree
  · intro c hc
    simp [h.layout.other_addr c hc]
  · rintro s e ⟨rfl, rfl⟩
    exact touches_store32 _ _ _ _ (by omega) ⟨by omega, by omega⟩
  · intro c hc
    rw [List.mem_singleton.mp hc]
    refine ⟨?_, ?_, ?_⟩
    · have hw : (b.own (b.addr + 8) hin).word = b.size + 2147483648 := by
        simp [Block.word, Block.own]
      rw [hw]
      exact load32_store32_same _ _ _ (by omega)
    · have hback := (h.heads.node b (by simp)).back
      refine (load32_store32_aligned _ _ _ _ (by omega) ?_ ?_).trans hback
      · have := b.whole
        show (b.addr + b.size) % 4 = 0
        omega
      · show b.addr + b.size ≠ b.addr + 4
        omega
    · rintro p ⟨⟩ hne
      exact absurd rfl hne
  · intro c hc p hp
    rcases List.mem_pair.mp hc with rfl | rfl
    · rw [hfree] at hp
      cases hp
    · cases hp
      exact hq

theorem Rep.realign (h : Rep pool size m ⟨pre ++ (b :: post), ls⟩ P)
    (hown : b.owner = some (b.addr + 8)) (p : Nat)
    (hin : b.addr + 8 ≤ p ∧ p + 4 ≤ b.addr + b.size ∧ p % 4 = 0) (hne : p ≠ b.addr + 8)
    (Q : Nat → Prop) (hq : Q (b.addr + 8)) (hqp : Q p) :
    Rep pool size (store32 (setSizeAndFlag m b.addr (b.size + 2147483648 + 1073741824)) (p - 4)
        (p - (b.addr + 8) + 1073741824)) ⟨pre ++ (b.own p hin :: post), ls⟩ P ∧
      Steady pool size Q ⟨pre ++ (b :: post), ls⟩ m ⟨pre ++ (b.own p hin :: post), ls⟩
        (store32 (setSizeAndFlag m b.addr (b.size + 2147483648 + 1073741824)) (p - 4)
          (p - (b.addr + 8) + 1073741824)) := by
  have hba := b.aligned
  have hbr := b.room
  have hbw := b.whole
  have hlt := h.layout.size_lt b (by simp)
  refine h.recut [b] [b.own p hin] (fun _ _ ht => ht) (by simp)
    ?_ ?_ (fun c hc => Iff.rfl) ?_ ?_ Q ?_
  · intro c hc hfree
    rw [List.mem_singleton.mp hc, hown] at hfree
    cases hfree
  · intro c hc hfree
    rw [List.mem_singleton.mp hc] at hfree
    cases hfree
  · rintro s e ⟨rfl, rfl⟩
    refine touches_trans _ _ _ _ ?_ (touches_store32 _ _ _ _ (by omega) ⟨by omega, by omega⟩)
    exact touches_store32 _ _ _ _ (by omega) ⟨by omega, by omega⟩
  · intro c hc
    rw [List.mem_singleton.mp hc]
    refine ⟨?_, ?_, ?_⟩
    · have hw : (b.own p hin).word = b.size + 2147483648 + 1073741824 := by
        simp [Block.word, Block.own, hne]
      rw [hw]
      refine (load32_store32_aligned _ _ _ _ (by omega) ?_ ?_).trans
        (load32_store32_same _ _ _ (by omega))
      · show (b.addr + 4) % 4 = 0
        omega
      · show b.addr + 4 ≠ p - 4
        omega
    · have hback := (h.heads.node b (by simp)).back
      have h4 : (b.addr + b.size) % 4 = 0 := by omega
      refine (load32_store32_aligned _ _ _ _ (by omega) h4 ?_).trans
        ((load32_store32_aligned _ _ _ _ (by omega) h4 ?_).trans hback)
      · show b.addr + b.size ≠ p - 4
        omega
      · show b.addr + b.size ≠ b.addr + 4
        omega
    · rintro p' ⟨⟩ _
      exact load32_store32_same _ _ _ (by omega)
  · intro c hc p' hp
    rcases List.mem_pair.mp hc with rfl | rfl
    · rw [hown] at hp
      exact Option.some.inj hp ▸ hq
    · cases hp
      exact hqp

/-! ### Merging and cutting -/

theorem Rep.mergeNode_eq (h : Rep pool size m ⟨pre ++ (a :: b :: post), ls⟩ P)
    (ha : a.owner = none) (hb : b.owner = none) :
    osMemMergeNode m b.addr =
      store32 (store32 m (a.addr + 4) (a.size + b.size)) (b.addr + b.size) a.addr := by
  have hadj := h.layout.adjacent
  have haa := a.aligned
  have hba := b.aligned
  have hbw := b.whole
  have har := a.room
  have hbr := b.room
  have halt := h.layout.size_lt a (by simp)
  have hblt := h.layout.size_lt b (by simp)
  have hsa := h.free_word (b := a) (by simp) ha
  have hsb := h.free_word (b := b) (by simp) hb
  have hpb := h.prev_inner
  unfold osMemMergeNode
  rw [hpb, hsa, hsb, add32_of_lt _ _ (by omega)]
  have hsb' : sizeAndFlag (setSizeAndFlag m a.addr (a.size + b.size)) b.addr = b.size :=
    (load32_store32_aligned _ _ _ _ (by omega) (by omega) (by omega)).trans hsb
  have hpb' : prevOf (setSizeAndFlag m a.addr (a.size + b.size)) b.addr = a.addr :=
    (load32_store32_aligned _ _ _ _ (by omega) (by omega) (by omega)).trans hpb
  simp only [hsb', hpb', osMemNodeGetLastFlag_eq, ite_true]
  rw [add32_of_lt _ _ (by omega)]
  rfl

theorem Rep.merge (P' : List Nat) (h : Rep pool size m ⟨pre ++ (a :: b :: post), ls⟩ P) (ha : a.owner = none)
    (hb : b.owner = none) (haP : a.addr ∈ P) (hbP : b.addr ∈ P)
    (hP : ∀ c ∈ pre ++ post, c.addr ∈ P' ↔ c.addr ∈ P) (haP' : a.addr ∈ P')
    (Q : Nat → Prop) :
    Rep pool size (osMemMergeNode m b.addr) ⟨pre ++ (a.join b :: post), ls⟩ P' ∧
      Steady pool size Q ⟨pre ++ (a :: b :: post), ls⟩ m ⟨pre ++ (a.join b :: post), ls⟩
        (osMemMergeNode m b.addr) := by
  have hadj := h.layout.adjacent
  have haa := a.aligned
  have hba := b.aligned
  have haw := a.whole
  have hbw := b.whole
  have har := a.room
  have hbr := b.room
  have halt := h.layout.size_lt a (by simp)
  have hblt := h.layout.size_lt b (by simp)
  rw [h.mergeNode_eq ha hb]
  refine h.recut [a, b] [a.join b] ?_ (by simp) ?_ ?_ hP ?_ ?_ Q ?_
  · rintro s e ⟨h1, h2, h3⟩
    refine ⟨h1, ?_⟩
    show s + (a.size + b.size) = e
    rw [← Nat.add_assoc]
    exact h3
  · intro c hc _
    rcases List.mem_pair.mp hc with rfl | rfl
    · exact haP
    · exact hbP
  · intro c hc _
    rw [List.mem_singleton.mp hc]
    exact haP'
  · rintro s e ⟨rfl, h2, rfl⟩
    refine touches_trans _ _ _ _ ?_ (touches_store32 _ _ _ _ (by omega) ⟨by omega, by omega⟩)
    exact touches_store32 _ _ _ _ (by omega) ⟨by omega, by omega⟩
  · intro c hc
    rw [List.mem_singleton.mp hc]
    refine ⟨?_, ?_, fun p hp => by cases hp⟩
    · show load32 _ (a.addr + 4) = a.size + b.size
      rw [load32_store32_aligned _ _ _ _ (by omega) (by omega) (by omega),
        load32_store32_same _ _ _ (by omega)]
    · show load32 _ (a.addr + (a.size + b.size)) = a.addr
      rw [← Nat.add_assoc, ← hadj]
      exact load32_store32_same _ _ _ (by omega)
  · intro c hc p hp
    have hfree : c.owner = none := by
      rcases List.mem_append.mp hc with hc | hc
      · rcases List.mem_pair.mp hc with rfl | rfl
        · exact ha
        · exact hb
      · rw [List.mem_singleton.mp hc]
        rfl
    rw [hfree] at hp
    cases hp

def splitWords (m : Memory) (a : Block) (s : Nat) : Memory :=
  store32 (store32 (store32 (store32 m (a.addr + s) a.addr) (a.addr + s + 4) (a.size - s))
    (a.addr + 4) s) (a.addr + a.size) (a.addr + s)

theorem Rep.split (h : Rep pool size m ⟨pre ++ (a :: post), ls⟩ P) (ha : a.owner = none)
    (haP : a.addr ∈ P) (s : Nat) (h4 : s % 4 = 0) (h16 : 16 ≤ s) (hs : s + 16 ≤ a.size)
    (Q : Nat → Prop) :
    Rep pool size (splitWords m a s)
        ⟨pre ++ (a.take s h4 h16 :: a.drop s h4 hs :: post), ls⟩ ((a.addr + s) :: P) ∧
      Steady pool size Q ⟨pre ++ (a :: post), ls⟩ m
        ⟨pre ++ (a.take s h4 h16 :: a.drop s h4 hs :: post), ls⟩ (splitWords m a s) := by
  have haa := a.aligned
  have haw := a.whole
  have halt := h.layout.size_lt a (by simp)
  refine h.recut [a] [a.take s h4 h16, a.drop s h4 hs] ?_ (by simp) ?_ ?_ ?_
    ?_ ?_ Q ?_
  · rintro t e ⟨h1, h2⟩
    have h2 : t + a.size = e := h2
    refine ⟨h1, ?_, ?_⟩
    · show a.addr + s = t + s
      rw [h1]
    · show t + s + (a.size - s) = e
      omega
  · intro c hc _
    rw [List.mem_singleton.mp hc]
    exact haP
  · intro c hc _
    rcases List.mem_pair.mp hc with rfl | rfl
    · exact List.mem_cons_of_mem _ haP
    · exact List.mem_cons_self
  · intro c hc
    -- no other block starts inside `a`
    have hne := h.layout.other_addr c hc
    have hmem : c ∈ pre ++ (a :: post) := by
      simp only [List.mem_append, List.mem_cons] at hc ⊢
      tauto
    have hd := h.layout.disjoint c a hmem (by simp) hne
    have hcr := c.room
    have hcs : c.addr ≠ a.addr + s := by omega
    simp [hcs]
  · rintro t e ⟨rfl, h2⟩
    have h2 : a.addr + a.size = e := h2
    unfold splitWords
    refine touches_trans _ _ _ _ (touches_trans _ _ _ _ (touches_trans _ _ _ _
      (touches_store32 _ _ _ _ (by omega) ⟨by omega, by omega⟩)
      (touches_store32 _ _ _ _ (by omega) ⟨by omega, by omega⟩))
      (touches_store32 _ _ _ _ (by omega) ⟨by omega, by omega⟩))
      (touches_store32 _ _ _ _ (by omega) ⟨by omega, by omega⟩)
  · intro c hc
    unfold splitWords
    rcases List.mem_pair.mp hc with rfl | rfl
    · refine ⟨?_, ?_, fun p hp => by cases hp⟩
      · show load32 _ (a.addr + 4) = s
        rw [load32_store32_aligned _ _ _ _ (by omega) (by omega) (by omega),
          load32_store32_same _ _ _ (by omega)]
      · show load32 _ (a.addr + s) = a.addr
        rw [load32_store32_aligned _ _ _ _ (by omega) (by omega) (by omega),
          load32_store32_aligned _ _ _ _ (by omega) (by omega) (by omega),
          load32_store32_aligned _ _ _ _ (by omega) (by omega) (by omega),
          load32_store32_same _ _ _ (by omega)]
    · refine ⟨?_, ?_, fun p hp => by cases hp⟩
      · show load32 _ (a.addr + s + 4) = a.size - s
        rw [load32_store32_aligned _ _ _ _ (by omega) (by omega) (by omega),
          load32_store32_aligned _ _ _ _ (by omega) (by omega) (by omega),
          load32_store32_same _ _ _ (by omega)]
      · show load32 _ (a.addr + s + (a.size - s)) = a.addr + s
        have he : a.addr + s + (a.size - s) = a.addr + a.size := by omega
        rw [he, load32_store32_same _ _ _ (by omega)]
  · intro c hc p hp
    have hfree : c.owner = none := by
      rcases List.mem_append.mp hc with hc | hc
      · rw [List.mem_singleton.mp hc]
        exact ha
      · rcases List.mem_pair.mp hc with rfl | rfl <;> rfl
    rw [hfree] at hp
    cases hp

end

end LiteosM.Heap
