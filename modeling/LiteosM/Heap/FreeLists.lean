import LiteosM.Heap.Represent

/-!
# Filing and unfiling a free block

`OsMemListAdd` and `OsMemListDelete` against the lists of the arena. Two blocks
lie at least sixteen bytes apart, hence the words written are told apart by
arithmetic alone.
-/

namespace LiteosM.Heap
open Lib.ByteMemory Lib.Word32 Lib.LinkedList

section
variable {pool size : Nat} {m : Memory} {v : Arena} {P : List Nat} {b : Block}

theorem shiftRight_five (i : Nat) : i >>> 5 = i / 32 := Nat.shiftRight_eq_div_pow i 5

theorem and_thirty_one (i : Nat) : i &&& 0x1f = i % 32 := Nat.and_two_pow_sub_one_eq_mod i 5

/-- An address that is 0 or that of a free block. -/
def FreeAddr (bs : List Block) (a : Nat) : Prop := a = 0 ∨ ∃ b ∈ bs, b.owner = none ∧ b.addr = a

theorem Layout.free_addr (h : Layout pool size v P) (i n : Nat) (hn : n ∈ v.lists i) :
    FreeAddr v.blocks n := by
  obtain ⟨b, hb, hbn, hfree, _⟩ := h.listed i n hn
  exact Or.inr ⟨b, hb, hfree, hbn⟩

theorem Layout.free_addr_headD (h : Layout pool size v P) (i : Nat) (l : List Nat)
    (hl : ∀ n ∈ l, n ∈ v.lists i) : FreeAddr v.blocks (l.headD 0) := by
  cases l with
  | nil => exact Or.inl rfl
  | cons a l => exact h.free_addr i a (hl a List.mem_cons_self)

theorem Layout.free_addr_facts (h : Layout pool size v P) (a : Nat) (ha : FreeAddr v.blocks a) :
    a % 4 = 0 ∧ a < 4294967280 ∧ (a ≠ 0 → pool + 944 ≤ a) := by
  have h8 := h.region.inside
  rcases ha with rfl | ⟨b, hb, _, rfl⟩
  · exact ⟨rfl, by omega, fun h0 => absurd rfl h0⟩
  · have hbb := h.bounds b hb
    have hbr := b.room
    exact ⟨b.aligned, by omega, fun _ => hbb.1⟩

theorem Layout.free_addr_apart (h : Layout pool size v P) (a b : Nat) (ha : FreeAddr v.blocks a)
    (hb : FreeAddr v.blocks b) (hne : a ≠ b) (ha0 : a ≠ 0) (hb0 : b ≠ 0) :
    a + 16 ≤ b ∨ b + 16 ≤ a := by
  rcases ha with rfl | ⟨c, hc, _, rfl⟩
  · exact absurd rfl ha0
  · rcases hb with rfl | ⟨d, hd, _, rfl⟩
    · exact absurd rfl hb0
    · have := h.disjoint c d hc hd hne
      have := c.room
      have := d.room
      omega

theorem load32_osMemListAdd (h : Layout pool size v P) (i n a : Nat) (hi : i < 223)
    (hn : FreeAddr v.blocks n) (hn0 : n ≠ 0) (hf : FreeAddr v.blocks (freeList m pool i))
    (hne : n ≠ freeList m pool i) (h4 : a % 4 = 0) :
    load32 (osMemListAdd m pool i n) a =
      if a = pool + 20 + 4 * (i / 32) then load32 m a ||| 1 <<< (i % 32)
      else if a = pool + 48 + 4 * i then n
      else if a = n + 12 then freeList m pool i
      else if a = n + 8 then 0
      else if freeList m pool i ≠ 0 ∧ a = freeList m pool i + 8 then n
      else load32 m a := by
  have hp4 := h.region.aligned
  obtain ⟨hn4, hnlt, hnge⟩ := h.free_addr_facts n hn
  obtain ⟨hf4, hflt, hfge⟩ := h.free_addr_facts _ hf
  have hnge := hnge hn0
  have hap := fun hf0 => h.free_addr_apart n _ hn hf hne hn0 hf0
  have hw : i / 32 < 7 := by omega
  unfold osMemListAdd osMemSetFreeListBit setFreeListBitmap freeListBitmap setFreeList setFreeNext
    setFreePrev
  rw [shiftRight_five, and_thirty_one]
  generalize freeList m pool i = first at *
  by_cases h0 : first = 0
  · have hz : ¬(first ≠ 0) := by omega
    simp only [hz, ite_false, false_and]
    have hbit := or_bit_lt _ (i % 32) (by omega) (load32_lt
      (store32 (store32 (store32 m (n + 8) 0) (n + 12) first) (pool + 48 + 4 * i) n)
      (pool + 20 + 4 * (i / 32)))
    rw [load32_store32 _ _ _ _ (by omega) h4 hbit, load32_store32 _ _ a _ (by omega) h4 (by omega),
      load32_store32 _ _ a _ (by omega) h4 (by omega),
      load32_store32 _ _ a _ (by omega) h4 (by omega)]
    by_cases hb : a = pool + 20 + 4 * (i / 32)
    · rw [if_pos hb, if_pos hb, ← hb, load32_store32_aligned _ _ _ _ (by omega) h4 (by omega),
        load32_store32_aligned _ _ _ _ (by omega) h4 (by omega),
        load32_store32_aligned _ _ _ _ (by omega) h4 (by omega)]
    · rw [if_neg hb, if_neg hb]
  · have hfge := hfge h0
    have hap := hap h0
    simp only [ne_eq, h0, not_false_eq_true, ite_true, true_and]
    have hbit := or_bit_lt _ (i % 32) (by omega) (load32_lt
      (store32 (store32 (store32 (store32 m (first + 8) n) (n + 8) 0) (n + 12) first)
        (pool + 48 + 4 * i) n) (pool + 20 + 4 * (i / 32)))
    rw [load32_store32 _ _ _ _ (by omega) h4 hbit, load32_store32 _ _ a _ (by omega) h4 (by omega),
      load32_store32 _ _ a _ (by omega) h4 (by omega),
      load32_store32 _ _ a _ (by omega) h4 (by omega),
      load32_store32 _ _ a _ (by omega) h4 (by omega)]
    by_cases hb : a = pool + 20 + 4 * (i / 32)
    · rw [if_pos hb, if_pos hb, ← hb, load32_store32_aligned _ _ _ _ (by omega) h4 (by omega),
        load32_store32_aligned _ _ _ _ (by omega) h4 (by omega),
        load32_store32_aligned _ _ _ _ (by omega) h4 (by omega),
        load32_store32_aligned _ _ _ _ (by omega) h4 (by omega)]
    · rw [if_neg hb, if_neg hb]

theorem touches_osMemListAdd (h : Layout pool size v P) (hs : Lists m pool v.lists) (i : Nat)
    (hi : i < 223) (hb : b ∈ v.blocks) (hfree : b.owner = none) (hn0 : b.addr ≠ 0)
    (hne : b.addr ≠ freeList m pool i) :
    Touches (fun a => ListWord pool v.lists a ∨ a = b.addr + 8 ∨ a = b.addr + 12) m
      (osMemListAdd m pool i b.addr) := by
  have hp4 := h.region.aligned
  have hhead : freeList m pool i = (v.lists i).headD 0 := links_head (hs.links i hi)
  have hf : FreeAddr v.blocks (freeList m pool i) := by
    rw [hhead]
    exact h.free_addr_headD i _ fun n hn => hn
  refine touches_of_load32 _ _ _ fun a h4 hA => ?_
  rw [load32_osMemListAdd h i b.addr a hi (Or.inr ⟨b, hb, hfree, rfl⟩) hn0 hf hne h4, if_neg,
    if_neg, if_neg, if_neg, if_neg]
  all_goals intro he; apply hA
  · obtain ⟨h0, he⟩ := he
    rw [hhead] at h0 he
    refine Or.inl (Or.inr ⟨i, _, ?_, Or.inl he⟩)
    exact (List.mem_cons.mp (headD_mem 0 (v.lists i))).resolve_left h0
  · exact Or.inr (Or.inl he)
  · exact Or.inr (Or.inr he)
  · exact Or.inl (Or.inl (by omega))
  · exact Or.inl (Or.inl (by omega))

theorem linkword_of_listword (h : Layout pool size v P) (hb : b ∈ v.blocks)
    (hfree : b.owner = none) (a : Nat)
    (ha : ListWord pool v.lists a ∨ a = b.addr + 8 ∨ a = b.addr + 12) :
    LinkWord pool v.blocks a := by
  rcases ha with ha | ha
  · exact h.list_word_link a ha
  · exact Or.inr ⟨b, hb, hfree, ha⟩

theorem testBit_word (w i j : Nat) (hij : i / 32 = j / 32) (hw : w < 4294967296) :
    (w ||| 1 <<< (i % 32)).testBit (j % 32) = (decide (j = i) || w.testBit (j % 32)) ∧
    (w &&& not32 (1 <<< (i % 32))).testBit (j % 32) = (decide (j ≠ i) && w.testBit (j % 32)) := by
  have hiff : (j % 32 = i % 32) = (j = i) := propext (by omega)
  rw [testBit_or_bit, testBit_and_not_bit _ _ _ (by omega) hw]
  simp only [ne_eq, hiff, and_self]

theorem osMemListAdd_spec (h : Rep pool size m v (b.addr :: P)) (hb : b ∈ v.blocks)
    (hfree : b.owner = none) (hP : b.addr ∉ P) (hapart : v.blocks.IsChain (Separated P))
    (Q : Nat → Prop) :
    Rep pool size (osMemListAdd m pool (sizeClass b.size) b.addr)
        (v.list (sizeClass b.size) b.addr) P ∧
      Steady pool size Q v m (v.list (sizeClass b.size) b.addr)
        (osMemListAdd m pool (sizeClass b.size) b.addr) := by
  have hlay := h.layout
  have hlay' := hlay.list hb hfree hP hapart
  have hi := sizeClass_lt b.size (hlay.size_lt b hb).1
  generalize sizeClass b.size = i at *
  have hlinks := h.lists.links i (by omega)
  have hhead : freeList m pool i = (v.lists i).headD 0 := links_head hlinks
  have hn : FreeAddr v.blocks b.addr := Or.inr ⟨b, hb, hfree, rfl⟩
  have hbb := hlay.bounds b hb
  have hf : FreeAddr v.blocks (freeList m pool i) := by
    rw [hhead]
    exact hlay.free_addr_headD i _ fun n hn => hn
  have hnot : ∀ j, b.addr ∉ v.lists j := fun j hm => (hlay.member j _ hm).1 List.mem_cons_self
  have hne : b.addr ≠ freeList m pool i := by
    rw [hhead]
    cases hl : v.lists i with
    | nil => simp only [List.headD_nil]; omega
    | cons c l =>
      intro he
      exact hnot i (by rw [hl, he]; exact List.mem_cons_self)
  have hread := fun a => load32_osMemListAdd hlay i b.addr a (by omega) hn (by omega) hf hne
  have hp4 := hlay.region.aligned
  obtain ⟨hn4, hnlt, _⟩ := hlay.free_addr_facts _ hn
  obtain ⟨hf4, hflt, hfge⟩ := hlay.free_addr_facts _ hf
  have hap := fun c hc h0 hcn => hlay.free_addr_apart b.addr c hn hc hcn (by omega) h0
  refine h.relink (v.list i b.addr) P rfl hlay'
    (touches_mono _ _ _ _ (touches_osMemListAdd hlay h.lists i (by omega) hb hfree (by omega) hne)
      (linkword_of_listword hlay hb hfree))
    ⟨fun j hj => ?_, fun j hj => ?_⟩ Q
  · have keepNext : ∀ a, FreeAddr v.blocks a → a ≠ 0 → a ≠ b.addr →
        freeNext (osMemListAdd m pool i b.addr) a = freeNext m a := by
      intro a ha h0 hab
      obtain ⟨ha4, halt, hage⟩ := hlay.free_addr_facts a ha
      have hage := hage h0
      have hapa := hap a ha h0 (Ne.symm hab)
      have hapf := fun hf0 hne => hlay.free_addr_apart a _ ha hf hne h0 hf0
      unfold freeNext
      rw [hread _ (by omega), if_neg (by omega), if_neg (by omega), if_neg (by omega),
        if_neg (by omega), if_neg]
      rintro ⟨hf0, he⟩
      have := hapf hf0 (by omega)
      omega
    have keepPrev : ∀ a, FreeAddr v.blocks a → a ≠ 0 → a ≠ b.addr → a ≠ freeList m pool i →
        freePrev (osMemListAdd m pool i b.addr) a = freePrev m a := by
      intro a ha h0 hab haf
      obtain ⟨ha4, halt, hage⟩ := hlay.free_addr_facts a ha
      have hage := hage h0
      have hapa := hap a ha h0 (Ne.symm hab)
      unfold freePrev
      rw [hread _ (by omega), if_neg (by omega), if_neg (by omega), if_neg (by omega),
        if_neg (by omega), if_neg (by omega)]
    have ne_of_mem : ∀ j, ∀ a ∈ v.lists j, a ≠ b.addr := fun j a ha he => hnot j (he ▸ ha)
    by_cases hji : j = i
    · subst hji
      have hl : (v.list j b.addr).lists j = b.addr :: v.lists j := by simp [Arena.list]
      rw [hl]
      have h0mem : 0 ∉ v.lists j := fun hm => by
        obtain ⟨_, _, _, _, _, h0⟩ := hlay.listed j 0 hm
        exact h0 rfl
      have hlinks' : Links (· ≠ 0) (freeLinks m pool j) (freePrev m) 0 ([] ++ v.lists j) := hlinks
      refine links_insert hlinks' ?_ ?_ ?_ ?_ ?_ ?_ ?_
      · exact List.nodup_cons.mpr ⟨h0mem, hlay.nodup j⟩
      · show freeLinks _ pool j 0 = b.addr
        simp only [freeLinks, ite_true, freeList]
        rw [hread _ (by omega), if_neg (by omega), if_pos rfl]
      · have hb0 : b.addr ≠ 0 := by omega
        simp only [freeLinks, hb0, ite_false, freeNext]
        rw [hread _ (by omega), if_neg (by omega), if_neg (by omega), if_pos rfl, hhead]
      · intro _
        show freePrev _ b.addr = 0
        unfold freePrev
        rw [hread _ (by omega), if_neg (by omega), if_neg (by omega), if_neg (by omega), if_pos rfl]
      · rw [← hhead]
        intro hf0
        have hapf := hap _ hf hf0 hne
        have hfge := hfge hf0
        unfold freePrev
        rw [hread _ (by omega), if_neg (by omega), if_neg (by omega), if_neg (by omega),
          if_neg (by omega), if_pos ⟨hf0, rfl⟩]
      · intro a ha ha0
        have ha0 : a ≠ 0 := ha0
        have hm : a ∈ v.lists j := by simpa [ha0] using ha
        simp only [freeLinks, ha0, ite_false]
        exact keepNext a (hlay.free_addr j a hm) ha0 (ne_of_mem j a hm)
      · intro a ha ha0 hah
        have hm : a ∈ v.lists j := by simpa [ha0] using ha
        exact keepPrev a (hlay.free_addr j a hm) ha0 (ne_of_mem j a hm) (by rwa [hhead])
    · have hl : (v.list i b.addr).lists j = v.lists j := by simp [Arena.list, hji]
      rw [hl]
      refine links_congr (h.lists.links j hj) (fun a ha => ?_) (fun a ha ha0 => ?_)
      · unfold freeLinks
        split
        · unfold freeList
          rw [hread _ (by omega), if_neg (by omega), if_neg (by omega), if_neg (by omega),
            if_neg (by omega), if_neg (by omega)]
        · next ha0 =>
          have hm : a ∈ v.lists j := by simpa [ha0] using ha
          exact keepNext a (hlay.free_addr j a hm) ha0 (ne_of_mem j a hm)
      · have hm : a ∈ v.lists j := by simpa [ha0] using ha
        refine keepPrev a (hlay.free_addr j a hm) ha0 (ne_of_mem j a hm) fun he => ?_
        have hai : a ∈ v.lists i := by
          rw [he, hhead]
          rw [he, hhead] at ha0
          cases hli : v.lists i with
          | nil => simp [hli] at ha0
          | cons c l => simp
        exact hji (hlay.index_unique j i a hm hai)
  · have hold := h.lists.bit j hj
    unfold freeListBitmap at hold ⊢
    rw [hread _ (by omega)]
    by_cases hw : j / 32 = i / 32
    · rw [if_pos (by omega), (testBit_word _ i j hw.symm (load32_lt _ _)).1, hold]
      by_cases hji : j = i
      · subst hji
        simp [Arena.list]
      · simp [Arena.list, hji]
    · have hji : j ≠ i := fun he => hw (by rw [he])
      rw [if_neg (by omega), if_neg (by omega), if_neg (by omega), if_neg (by omega),
        if_neg (by omega), hold]
      simp [Arena.list, hji]

theorem Layout.listed_addr (h : Layout pool size v P) (i n : Nat) (hn : n ∈ v.lists i) :
    FreeAddr v.blocks n ∧ n ≠ 0 := by
  obtain ⟨b, hb, hbn, hfree, _, h0⟩ := h.listed i n hn
  exact ⟨Or.inr ⟨b, hb, hfree, hbn⟩, h0⟩

theorem Layout.cell_addr (h : Layout pool size v P) (i n : Nat) (hn : n ≠ 0 → n ∈ v.lists i) :
    FreeAddr v.blocks n := by
  by_cases h0 : n = 0
  · exact Or.inl h0
  · exact (h.listed_addr i n (hn h0)).1

theorem Layout.nodup_cons (h : Layout pool size v P) (i : Nat) : (0 :: v.lists i).Nodup := by
  refine List.nodup_cons.mpr ⟨fun hm => ?_, h.nodup i⟩
  obtain ⟨_, _, _, _, _, h0⟩ := h.listed i 0 hm
  exact h0 rfl

theorem erase_split (x : Nat) (l₁ l₂ : List Nat) (hnd : (l₁ ++ x :: l₂).Nodup) :
    (l₁ ++ x :: l₂).erase x = l₁ ++ l₂ := by
  have hx : x ∉ l₁ := fun hm => (List.nodup_append.mp hnd).2.2 x hm x List.mem_cons_self rfl
  rw [List.erase_append_right _ hx, List.erase_cons_head]

/-- The cells `p` and `n` around `x` in list `i`, 0 standing for the list head. -/
structure Neighbours (m : Memory) (pool : Nat) (v : Arena) (i x p n : Nat) : Prop where
  listed : x ∈ v.lists i
  prevListed : p ≠ 0 → p ∈ v.lists i
  nextListed : n ≠ 0 → n ∈ v.lists i
  next : freeNext m x = n
  prev : freePrev m x = p
  head : x = freeList m pool i ↔ p = 0
  prev_ne : p ≠ x
  next_ne : n ≠ x

theorem neighbours_of_split (h : Layout pool size v P) (hs : Lists m pool v.lists) (i x : Nat)
    (l₁ l₂ : List Nat) (hl : v.lists i = l₁ ++ x :: l₂) :
    Neighbours m pool v i x (l₁.getLastD 0) (l₂.headD 0) := by
  have hx : x ∈ v.lists i := by simp [hl]
  have hi := h.index_lt i x hx
  have hnd := h.nodup_cons i
  have hlinks := hs.links i (by omega)
  have hhead : freeList m pool i = (v.lists i).headD 0 := links_head hlinks
  rw [hl] at hnd hlinks hhead
  obtain ⟨hnext, hprev, -, -⟩ := links_cell hlinks
  obtain ⟨h0, hnd'⟩ := List.nodup_cons.mp hnd
  obtain ⟨-, hndx, hdisj⟩ := List.nodup_append.mp hnd'
  have hx0 : x ≠ 0 := fun he => h0 (by simp [he])
  have hlast := getLastD_mem 0 l₁
  have hfirst := headD_mem 0 l₂
  have hpx : l₁.getLastD 0 ≠ x := by
    intro he
    rcases List.mem_cons.mp hlast with h0 | h0
    · exact hx0 (he.symm.trans h0)
    · exact hdisj _ h0 x List.mem_cons_self he
  refine ⟨hx, fun hp => ?_, fun hn => ?_, ?_, hprev hx0, ?_, hpx, fun he => ?_⟩
  · rw [hl]
    exact List.mem_append_left _ ((List.mem_cons.mp hlast).resolve_left hp)
  · rw [hl]
    exact List.mem_append_right _
      (List.mem_cons_of_mem _ ((List.mem_cons.mp hfirst).resolve_left hn))
  · simpa [freeLinks, hx0] using hnext
  · rw [hhead]
    cases l₁ with
    | nil => exact ⟨fun _ => rfl, fun _ => rfl⟩
    | cons c l₁ =>
      have hmem := getLastD_mem c l₁
      rw [← List.getLastD_cons] at hmem
      constructor
      · intro hxc
        exact absurd (hxc ▸ List.mem_cons_self) fun hm => hdisj _ hm x List.mem_cons_self rfl
      · intro hz
        rw [hz] at hmem
        exact absurd (List.mem_append_left (x :: l₂) hmem) h0
  · rcases List.mem_cons.mp hfirst with h0 | h0
    · exact hx0 (he.symm.trans h0)
    · exact (List.nodup_cons.mp hndx).1 (he ▸ h0)

theorem load32_osMemListDelete (h : Layout pool size v P) (i x p n a : Nat)
    (hc : Neighbours m pool v i x p n) (h4 : a % 4 = 0) :
    load32 (osMemListDelete m pool i x) a =
      if a = pool + 20 + 4 * (i / 32) ∧ p = 0 ∧ n = 0 then
        load32 m a &&& not32 (1 <<< (i % 32))
      else if a = (if p = 0 then pool + 48 + 4 * i else p + 12) then n
      else if n ≠ 0 ∧ a = n + 8 then p
      else load32 m a := by
  have hp4 := h.region.aligned
  have hi := h.index_lt i x hc.listed
  obtain ⟨hx, hx0⟩ := h.listed_addr i x hc.listed
  have hp := h.cell_addr i p hc.prevListed
  have hn := h.cell_addr i n hc.nextListed
  obtain ⟨-, -, -, hnext, hprev, hhead, hpx, hnx⟩ := hc
  obtain ⟨hx4, hxlt, hxge⟩ := h.free_addr_facts x hx
  obtain ⟨hp4', hplt, hpge⟩ := h.free_addr_facts p hp
  obtain ⟨hn4, hnlt, hnge⟩ := h.free_addr_facts n hn
  have hxge := hxge hx0
  have hapn := fun hn0 => h.free_addr_apart x n hx hn hnx.symm hx0 hn0
  have happ := fun hp0 => h.free_addr_apart x p hx hp hpx.symm hx0 hp0
  have hw : i / 32 < 7 := by omega
  unfold osMemListDelete osMemClearFreeListBit setFreeListBitmap freeListBitmap setFreeList
    setFreeNext setFreePrev
  rw [shiftRight_five, and_thirty_one]
  by_cases hp0 : p = 0
  · subst hp0
    have hnext' : freeNext (store32 m (pool + 48 + 4 * i) n) x = n := by
      unfold freeNext
      rw [load32_store32_aligned _ _ _ _ (by omega) (by omega) (by omega)]
      exact hnext
    rw [if_pos (hhead.mpr rfl)]
    simp only [ite_true, hnext, hnext', true_and]
    by_cases hn0 : n = 0
    · simp only [hn0, ite_true, and_true, ne_eq, not_true_eq_false, false_and, ite_false]
      have hbit := and_lt (load32 (store32 m (pool + 48 + 4 * i) 0) (pool + 20 + 4 * (i / 32)))
        (not32 (1 <<< (i % 32))) (load32_lt _ _)
      rw [load32_store32 _ _ _ _ (by omega) h4 hbit,
        load32_store32 _ _ a _ (by omega) h4 (by omega)]
      by_cases hb : a = pool + 20 + 4 * (i / 32)
      · rw [if_pos hb, if_pos hb, ← hb, load32_store32_aligned _ _ _ _ (by omega) h4 (by omega)]
      · rw [if_neg hb, if_neg hb]
    · have hnge := hnge hn0
      simp only [hn0, ite_false, and_false, ne_eq, not_false_eq_true, true_and]
      rw [load32_store32 _ _ _ _ (by omega) h4 (by omega),
        load32_store32 _ _ a _ (by omega) h4 (by omega)]
      by_cases ha : a = n + 8
      · rw [if_pos ha, if_pos ha, if_neg (by omega)]
      · rw [if_neg ha, if_neg ha]
  · have hxh : x ≠ freeList m pool i := fun he => hp0 (hhead.mp he)
    have hpge := hpge hp0
    have happ := happ hp0
    have hnext' : freeNext (store32 m (p + 12) n) x = n := by
      unfold freeNext
      rw [load32_store32_aligned _ _ _ _ (by omega) (by omega) (by omega)]
      exact hnext
    have hprev' : freePrev (store32 m (p + 12) n) x = p := by
      unfold freePrev
      rw [load32_store32_aligned _ _ _ _ (by omega) (by omega) (by omega)]
      exact hprev
    simp only [hxh, ite_false, hprev, hnext, hnext', hprev', hp0, false_and, and_false]
    by_cases hn0 : n = 0
    · simp only [hn0, ne_eq, not_true_eq_false, ite_false, false_and]
      rw [load32_store32 _ _ a _ (by omega) h4 (by omega)]
    · have hnge := hnge hn0
      simp only [hn0, ne_eq, not_false_eq_true, ite_true, true_and]
      rw [load32_store32 _ _ _ _ (by omega) h4 (by omega),
        load32_store32 _ _ a _ (by omega) h4 (by omega)]
      by_cases ha : a = n + 8
      · by_cases hpn : a = p + 12
        · have := h.free_addr_apart p n hp hn (by omega) hp0 hn0
          omega
        · rw [if_pos ha, if_neg hpn, if_pos ha]
      · rw [if_neg ha, if_neg ha]


section
variable {i x p n : Nat}

theorem freeNext_osMemListDelete (h : Layout pool size v P) (hc : Neighbours m pool v i x p n)
    (a : Nat) (ha : FreeAddr v.blocks a) (h0 : a ≠ 0) (hap : a ≠ p) :
    freeNext (osMemListDelete m pool i x) a = freeNext m a := by
  have hp4 := h.region.aligned
  have hi := h.index_lt i x hc.listed
  obtain ⟨ha4, halt, hage⟩ := h.free_addr_facts a ha
  have hnf := h.cell_addr i n hc.nextListed
  have hage := hage h0
  unfold freeNext
  rw [load32_osMemListDelete h i x p n _ hc (by omega), if_neg (by omega),
    if_neg (by split <;> omega), if_neg]
  rintro ⟨hn0, he⟩
  have := h.free_addr_apart a n ha hnf (by omega) h0 hn0
  omega

theorem freePrev_osMemListDelete (h : Layout pool size v P) (hc : Neighbours m pool v i x p n)
    (a : Nat) (ha : FreeAddr v.blocks a) (h0 : a ≠ 0) (han : a ≠ n) :
    freePrev (osMemListDelete m pool i x) a = freePrev m a := by
  have hp4 := h.region.aligned
  have hi := h.index_lt i x hc.listed
  obtain ⟨ha4, halt, hage⟩ := h.free_addr_facts a ha
  have hpf := h.cell_addr i p hc.prevListed
  have hage := hage h0
  unfold freePrev
  rw [load32_osMemListDelete h i x p n _ hc (by omega), if_neg (by omega), if_neg,
    if_neg (by omega)]
  split
  · omega
  · next hp0 =>
    intro he
    have := h.free_addr_apart a p ha hpf (by omega) h0 hp0
    omega

theorem freeList_osMemListDelete (h : Layout pool size v P) (hc : Neighbours m pool v i x p n)
    (j : Nat) (hj : j < 223) (hjp : j ≠ i ∨ p ≠ 0) :
    freeList (osMemListDelete m pool i x) pool j = freeList m pool j := by
  have hp4 := h.region.aligned
  have hi := h.index_lt i x hc.listed
  obtain ⟨hn4, hnlt, hnge⟩ := h.free_addr_facts n (h.cell_addr i n hc.nextListed)
  obtain ⟨hp4', hplt, hpge⟩ := h.free_addr_facts p (h.cell_addr i p hc.prevListed)
  unfold freeList
  rw [load32_osMemListDelete h i x p n _ hc (by omega), if_neg (by omega),
    if_neg (by split <;> omega), if_neg (by omega)]

theorem links_osMemListDelete (h : Layout pool size v P) (hs : Lists m pool v.lists)
    (l₁ l₂ : List Nat) (hl : v.lists i = l₁ ++ x :: l₂) :
    Links (· ≠ 0) (freeLinks (osMemListDelete m pool i x) pool i)
      (freePrev (osMemListDelete m pool i x)) 0 (l₁ ++ l₂) := by
  have hc := neighbours_of_split h hs i x l₁ l₂ hl
  have hi := h.index_lt i x hc.listed
  have hp4 := h.region.aligned
  have hnd := h.nodup_cons i
  have hlinks := hs.links i (by omega)
  have hmem : ∀ a ∈ 0 :: (l₁ ++ l₂), a ≠ 0 → FreeAddr v.blocks a := by
    intro a ha h0
    refine h.free_addr i a ?_
    rw [hl]
    simp only [List.mem_cons, List.mem_append] at ha ⊢
    tauto
  rw [hl] at hnd hlinks
  obtain ⟨hp4', hplt, hpge⟩ := h.free_addr_facts _ (h.cell_addr i _ hc.prevListed)
  obtain ⟨hn4, hnlt, hnge⟩ := h.free_addr_facts _ (h.cell_addr i _ hc.nextListed)
  refine links_remove hlinks hnd ?_ (fun hn0 => ?_) (fun a ha hap => ?_) (fun a ha ha0 han => ?_)
  · unfold freeLinks
    split
    · next hp0 =>
      unfold freeList
      rw [load32_osMemListDelete h i x _ _ _ hc (by omega), if_neg (by omega),
        if_pos (by rw [if_pos hp0])]
    · next hp0 =>
      have hpge := hpge hp0
      unfold freeNext
      rw [load32_osMemListDelete h i x _ _ _ hc (by omega), if_neg (by omega),
        if_pos (by rw [if_neg hp0])]
  · have hnge := hnge hn0
    unfold freePrev
    rw [load32_osMemListDelete h i x _ _ _ hc (by omega), if_neg (by omega), if_neg,
      if_pos ⟨hn0, rfl⟩]
    split
    · omega
    · next hp0 =>
      intro he
      have := h.free_addr_apart _ _ (h.cell_addr i _ hc.prevListed)
        (h.cell_addr i _ hc.nextListed) (by omega) hp0 hn0
      omega
  · unfold freeLinks
    split
    · next ha0 =>
      exact freeList_osMemListDelete h hc i (by omega) (Or.inr fun hp0 => hap (ha0.trans hp0.symm))
    · next ha0 => exact freeNext_osMemListDelete h hc a (hmem a ha ha0) ha0 hap
  · exact freePrev_osMemListDelete h hc a (hmem a ha ha0) ha0 han

theorem links_osMemListDelete_other (h : Layout pool size v P) (hs : Lists m pool v.lists)
    (hc : Neighbours m pool v i x p n) (j : Nat) (hj : j < 223) (hji : j ≠ i) :
    Links (· ≠ 0) (freeLinks (osMemListDelete m pool i x) pool j)
      (freePrev (osMemListDelete m pool i x)) 0 (v.lists j) := by
  have apart : ∀ a ∈ v.lists j, ∀ c, (c ≠ 0 → c ∈ v.lists i) → a ≠ c := by
    intro a ha c hci hac
    have h0 := (h.listed_addr j a ha).2
    exact hji (h.index_unique j i c (hac ▸ ha) (hci (hac ▸ h0)))
  refine links_congr (hs.links j hj) (fun a ha => ?_) (fun a ha ha0 => ?_)
  · unfold freeLinks
    split
    · exact freeList_osMemListDelete h hc j hj (Or.inl hji)
    · next ha0 =>
      have hm : a ∈ v.lists j := by simpa [ha0] using ha
      exact freeNext_osMemListDelete h hc a (h.free_addr j a hm) ha0 (apart a hm p hc.prevListed)
  · have hm : a ∈ v.lists j := by simpa [ha0] using ha
    exact freePrev_osMemListDelete h hc a (h.free_addr j a hm) ha0 (apart a hm n hc.nextListed)

theorem ends_zero_iff (l₁ l₂ : List Nat) (h0 : 0 ∉ l₁ ++ l₂) :
    (l₁.getLastD 0 = 0 ∧ l₂.headD 0 = 0) ↔ l₁ ++ l₂ = [] := by
  constructor
  · rintro ⟨hp, hn⟩
    have hlast := (List.mem_cons.mp (getLastD_mem 0 l₁))
    rcases List.eq_nil_or_concat l₁ with rfl | ⟨u, c, rfl⟩
    · cases l₂ with
      | nil => rfl
      | cons c w =>
        have hc : c = 0 := hn
        exact absurd (by simp [hc]) h0
    · have hc : c = 0 := by simpa using hp
      exact absurd (by simp [hc]) h0
  · intro he
    obtain ⟨rfl, rfl⟩ := List.append_eq_nil_iff.mp he
    exact ⟨rfl, rfl⟩

theorem bit_osMemListDelete (h : Layout pool size v P) (hs : Lists m pool v.lists)
    (l₁ l₂ : List Nat) (hl : v.lists i = l₁ ++ x :: l₂) (j : Nat) (hj : j < 224) :
    (freeListBitmap (osMemListDelete m pool i x) pool (j / 32)).testBit (j % 32) =
      decide ((if j = i then l₁ ++ l₂ else v.lists j) ≠ []) := by
  have hc := neighbours_of_split h hs i x l₁ l₂ hl
  have hi := h.index_lt i x hc.listed
  have hp4 := h.region.aligned
  obtain ⟨-, -, hpge⟩ := h.free_addr_facts _ (h.cell_addr i _ hc.prevListed)
  obtain ⟨-, -, hnge⟩ := h.free_addr_facts _ (h.cell_addr i _ hc.nextListed)
  have h0 : 0 ∉ l₁ ++ l₂ := by
    have hnd := (List.nodup_cons.mp (h.nodup_cons i)).1
    rw [hl] at hnd
    intro hm
    exact hnd (by simp only [List.mem_append, List.mem_cons] at hm ⊢; tauto)
  have hends := ends_zero_iff l₁ l₂ h0
  have hold := hs.bit j hj
  unfold freeListBitmap at hold ⊢
  rw [load32_osMemListDelete h i x _ _ _ hc (by omega)]
  by_cases hz : pool + 20 + 4 * (j / 32) = pool + 20 + 4 * (i / 32) ∧
      l₁.getLastD 0 = 0 ∧ l₂.headD 0 = 0
  · rw [if_pos hz, (testBit_word _ i j (by omega) (load32_lt _ _)).2, hold]
    by_cases hji : j = i
    · simp [hji, hends.mp hz.2]
    · simp [hji]
  · rw [if_neg hz, if_neg (by split <;> omega), if_neg (by omega), hold]
    by_cases hji : j = i
    · subst hji
      have hne : l₁ ++ l₂ ≠ [] := fun he => hz ⟨rfl, hends.mpr he⟩
      have hne' : l₁ ++ x :: l₂ ≠ [] := by simp
      rw [if_pos rfl, hl, decide_eq_true hne, decide_eq_true hne']
    · simp [hji]

theorem touches_osMemListDelete (h : Layout pool size v P) (hc : Neighbours m pool v i x p n) :
    Touches (ListWord pool v.lists) m (osMemListDelete m pool i x) := by
  have hi := h.index_lt i x hc.listed
  refine touches_of_load32 _ _ _ fun a h4 hA => ?_
  rw [load32_osMemListDelete h i x p n a hc h4, if_neg, if_neg, if_neg]
  · rintro ⟨hn0, he⟩
    exact hA (Or.inr ⟨i, n, hc.nextListed hn0, Or.inl he⟩)
  · intro he
    split at he
    · exact hA (Or.inl (by omega))
    · next hp0 => exact hA (Or.inr ⟨i, p, hc.prevListed hp0, Or.inr he⟩)
  · rintro ⟨he, _⟩
    exact hA (Or.inl (by omega))

theorem osMemListDelete_spec (h : Rep pool size m v P) (hx : x ∈ v.lists i) (Q : Nat → Prop) :
    Rep pool size (osMemListDelete m pool i x) (v.unlist i x) (x :: P) ∧
      Steady pool size Q v m (v.unlist i x) (osMemListDelete m pool i x) := by
  obtain ⟨l₁, l₂, hl⟩ := List.append_of_mem hx
  have hc := neighbours_of_split h.layout h.lists i x l₁ l₂ hl
  have hlists : ∀ j, (v.unlist i x).lists j = if j = i then l₁ ++ l₂ else v.lists j := by
    intro j
    by_cases hji : j = i
    · subst hji
      have hnd := h.layout.nodup j
      rw [hl] at hnd
      simp only [Arena.unlist, Function.update_self, hl, ite_true]
      exact erase_split x l₁ l₂ hnd
    · simp [Arena.unlist, hji]
  refine h.relink (v.unlist i x) (x :: P) rfl (h.layout.unlist i x hx)
    (touches_mono _ _ _ _ (touches_osMemListDelete h.layout hc) fun a => h.layout.list_word_link a)
    ⟨fun j hj => ?_, fun j hj => ?_⟩ Q
  · rw [hlists j]
    by_cases hji : j = i
    · subst hji
      rw [if_pos rfl]
      exact links_osMemListDelete h.layout h.lists l₁ l₂ hl
    · rw [if_neg hji]
      exact links_osMemListDelete_other h.layout h.lists hc j hj hji
  · rw [bit_osMemListDelete h.layout h.lists l₁ l₂ hl j hj, hlists j]

end

end

end LiteosM.Heap
