import LiteosM.Heap.Free

/-!
# Resizing a node

In place, by shrinking or by absorbing the free block behind, or into a fresh
block followed by a copy and a release. All three start from the payload of the
node, wherever in it the pointer of the caller lies.
-/

namespace LiteosM.Heap
open Lib.ByteMemory Lib.Word32 Lib.LinkedList

section
variable {pool size : Nat} {m : Memory} {v : Arena} {P : List Nat} {pre post : List Block}
  {ls : Nat → List Nat} {a b c : Block}

/-- The block `b` of pointer `p` became `c`, whose payload starts at the result
and holds what that of `b` held. -/
structure Resized (pool size : Nat) (m : Memory) (v : Arena) (b : Block) (p n : Nat)
    (r : Memory × Nat) (v' : Arena) (c : Block) : Prop where
  rep : Rep pool size r.1 v' []
  keeps : Keeps pool size (fun x => x = p ∨ x = r.2) v m v' r.1
  mem : c ∈ v'.blocks
  owner : c.owner = some r.2
  base : r.2 = c.addr + 8
  room : n + 8 ≤ c.size
  fresh : ∀ d ∈ v.blocks, d.owner = some r.2 → d = b
  bytes : ∀ i, i + 8 < b.size → i < n → r.1 (r.2 + i) = m (b.addr + 8 + i)
  gone : pool + size < 4294967296 → ∀ d ∈ v'.blocks, d.owner = some p → d = c
  next : nextPool r.1 pool = nextPool m pool

/-- The statistics of a resize to `n` bytes follow the block: in place they shrink
with it, a move allocates before it releases. -/
def Recorded (pool n : Nat) (m : Memory) (b c : Block) (m' : Memory) : Prop :=
  curUsedSize m' pool = sub32 (add32 (curUsedSize m pool) c.size) b.size ∧
  if allocSizeOf n ≤ b.size then waterLine m' pool = waterLine m pool ∧ c.size ≤ b.size
  else waterLine m' pool = waterLine (osMemAlloc m pool n).1 pool ∧
    curUsedSize (osMemAlloc m pool n).1 pool = add32 (curUsedSize m pool) c.size

theorem Resized.mono {p s n : Nat} {r : Memory × Nat} {v' : Arena} (hsn : n ≤ s)
    (h : Resized pool size m v b p s r v' c) : Resized pool size m v b p n r v' c :=
  { h with room := by have := h.room; omega, bytes := fun i hi hn => h.bytes i hi (by omega) }

theorem hand_over (h : Rep pool size m v []) (hb : b ∈ v.blocks) (p : Nat) {m₂ : Memory} {v₂ : Arena} (h2 : Rep pool size m₂ v₂ [c.addr])
    (k2 : Keeps pool size (· = p) v m v₂ m₂) (hfresh : ∀ d ∈ v₂.blocks, d.owner ≠ some p)
    (hc : c ∈ v₂.blocks) (hcfree : c.owner = none) (hcb : c.addr = b.addr)
    (hnext : nextPool m₂ pool = nextPool m pool) (n : Nat) (hn : n + 8 ≤ c.size)
    (hbytes : ∀ i, i + 8 < b.size → i < n → m₂ (b.addr + 8 + i) = m (b.addr + 8 + i)) :
    ∃ v' d, Resized pool size m v b p n (setSizeAndFlag m₂ c.addr
        (osMemNodeSetUsedFlag (sizeAndFlag m₂ c.addr)), c.addr + 8) v' d ∧ d.size = c.size ∧
      d.addr = c.addr ∧ ∀ a, StatWord pool a → load32 (setSizeAndFlag m₂ c.addr
        (osMemNodeSetUsedFlag (sizeAndFlag m₂ c.addr))) a = load32 m₂ a := by
  have hca := c.aligned
  have hcw := c.whole
  have hbw := b.whole
  have hba := b.aligned
  have hbr := b.room
  obtain ⟨v₃, d, h3, k3, hd, hdo, hda, hds⟩ := mark_used h2 hc hcfree (· = c.addr + 8) rfl
  refine ⟨v₃, d, {
    rep := h3
    keeps := (k2.mono fun x hx => Or.inl hx).trans (k3.toKeeps.mono fun x hx => Or.inr hx)
    mem := hd
    owner := hdo
    base := by rw [hda]
    room := by omega
    fresh := fun e he heo => h.layout.owner_inside hb (c.addr + 8) ⟨by omega, by omega⟩ he heo
    bytes := fun i hi hin => ?_
    gone := fun _ e he heo => ?_
    next := (k3.stats _ (Or.inr (Or.inr rfl))).trans hnext }, hds, hda, k3.stats⟩
  · refine Eq.trans ?_ (hbytes i hi hin)
    show setSizeAndFlag m₂ c.addr _ (c.addr + 8 + i) = m₂ (b.addr + 8 + i)
    rw [hcb]
    exact store32_outside _ _ _ _ (by omega)
  · by_cases hpc : p = c.addr + 8
    · exact h3.layout.owner_inj p he hd heo (by rw [hpc]; exact hdo)
    · exact absurd heo (hfresh e (k3.back e he p heo hpc))

theorem disowned_fresh {v' : Arena} (h : Layout pool size ⟨pre ++ (b.free :: post), ls⟩ P) (p : Nat)
    (hown : b.owner = some p)
    (hback : ∀ d ∈ v'.blocks, ∀ q, d.owner = some q → d ∈ pre ++ (b.free :: post)) :
    ∀ d ∈ v'.blocks, d.owner ≠ some p := by
  have hin := b.inside p hown
  intro d hd hdp
  exact h.fresh_owner (b := b.free) (by simp) rfl p
    ⟨by show b.addr ≤ p; omega, by show p < b.addr + b.size; omega⟩ d (hback d hd p hdp) hdp

/-- `OsMemReAllocSmaller` in three steps: cut, record, mark. -/
theorem osMemReAllocSmaller_eq (m : Memory) (pool s node nodeSize : Nat) (k m₂ : Memory)
    (hk : k = if add32 s osMemMinLeftSize ≤ nodeSize then
        osMemSplitNode (setSizeAndFlag m node nodeSize) pool node s
      else setSizeAndFlag m node nodeSize)
    (hm₂ : m₂ = if add32 s osMemMinLeftSize ≤ nodeSize then
        setCurUsedSize k pool (sub32 (curUsedSize k pool) (sub32 nodeSize s)) else k) :
    osMemReAllocSmaller m pool s node nodeSize =
      setSizeAndFlag m₂ node (osMemNodeSetUsedFlag (sizeAndFlag m₂ node)) := by
  subst hm₂
  subst hk
  unfold osMemReAllocSmaller
  by_cases hfit : add32 s osMemMinLeftSize ≤ nodeSize
  · simp only [if_pos hfit]
  · simp only [if_neg hfit]

theorem record_smaller {k m₂ : Memory} (h : Rep pool size k v P) (s n : Nat) (hs : s ≤ n)
    (hn : n < 1073741824)
    (hm₂ : m₂ = if add32 s osMemMinLeftSize ≤ n then
        setCurUsedSize k pool (sub32 (curUsedSize k pool) (sub32 n s)) else k) (Q : Nat → Prop) :
    Rep pool size m₂ v P ∧ Keeps pool size Q v k v m₂ ∧ Touches (StatWord pool) k m₂ ∧
      curUsedSize m₂ pool =
        sub32 (add32 (curUsedSize k pool) (if s + 16 ≤ n then s else n)) n ∧
      waterLine m₂ pool = waterLine k pool ∧ nextPool m₂ pool = nextPool k pool := by
  have hp4 := h.layout.region.aligned
  have hcur : curUsedSize k pool < 4294967296 := load32_lt _ _
  have hfit : add32 s osMemMinLeftSize = s + 16 := by
    unfold osMemMinLeftSize
    exact add32_of_lt _ _ (by omega)
  rw [hfit] at hm₂
  by_cases hle : s + 16 ≤ n
  · rw [if_pos hle] at hm₂ ⊢
    have hlt := sub32_lt (curUsedSize k pool) (sub32 n s)
    have hval : sub32 (curUsedSize k pool) (sub32 n s) =
        sub32 (add32 (curUsedSize k pool) s) n := by
      rw [sub32_of_le n s hs (by omega)]
      generalize curUsedSize k pool = u at hcur ⊢
      unfold sub32 add32
      omega
    rw [hval] at hm₂ hlt
    generalize sub32 (add32 (curUsedSize k pool) s) n = u at hm₂ hlt ⊢
    subst hm₂
    have ht : Touches (StatWord pool) k (setCurUsedSize k pool u) :=
      touches_store32 _ _ _ _ (by omega) (Or.inr (Or.inl rfl))
    obtain ⟨h3, k3⟩ := h.stat ht Q
    exact ⟨h3, k3, ht, load32_store32_same _ _ _ hlt,
      load32_store32_aligned _ _ _ _ (by omega) (by omega) (by omega),
      load32_store32_aligned _ _ _ _ (by omega) (by omega) (by omega)⟩
  · rw [if_neg hle] at hm₂ ⊢
    subst hm₂
    refine ⟨h, Keeps.refl _ _, touches_refl _ _, ?_, rfl, rfl⟩
    generalize curUsedSize m₂ pool = u at hcur ⊢
    unfold sub32 add32
    omega

theorem osMemReAllocSmaller_spec (h : Rep pool size m v []) (hb : b ∈ v.blocks) (p : Nat)
    (hown : b.owner = some p) (s : Nat) (h4 : s % 4 = 0) (h16 : 16 ≤ s) (hs : s ≤ b.size) :
    ∃ v' c, Resized pool size m v b p (s - 8)
        (osMemReAllocSmaller m pool s b.addr b.size, b.addr + 8) v' c ∧
      curUsedSize (osMemReAllocSmaller m pool s b.addr b.size) pool =
        sub32 (add32 (curUsedSize m pool) c.size) b.size ∧
      waterLine (osMemReAllocSmaller m pool s b.addr b.size) pool = waterLine m pool ∧
      c.size ≤ b.size := by
  have hlt := h.layout.size_lt b hb
  have hbb := h.layout.bounds b hb
  have hp4 := h.layout.region.aligned
  have hba := b.aligned
  obtain ⟨blocks, ls⟩ := v
  obtain ⟨pre, post, rfl⟩ := List.append_of_mem hb
  obtain ⟨h1, k1⟩ := h.disown p hown (· = p) rfl
  obtain ⟨v₂, c, h2, k2, hc, hcb, hcfree, hcs, hwords⟩ :=
    cut_tail (b := b.free) h1 (by simp) rfl s h4 h16 (by omega) fun _ => False
  have hfresh := disowned_fresh h1.layout p hown fun d hd q hq => k2.back d hd q hq not_false
  have k12 := k1.toKeeps.trans (k2.toKeeps.mono fun x hx => hx.elim)
  have hstats := fun a ha => (k2.stats a ha).trans (k1.stats a ha)
  have hdis : ∀ x, x % 4 = 0 → b.addr + 8 ≤ x →
      load32 (setSizeAndFlag m b.addr b.size) x = load32 m x := fun x hx hlo =>
    load32_store32_aligned _ _ _ _ (by omega) hx (by omega)
  generalize hk : (if add32 s osMemMinLeftSize ≤ b.free.size then
    osMemSplitNode (setSizeAndFlag m b.addr b.size) pool b.free.addr s
    else setSizeAndFlag m b.addr b.size) = k at h2 k12 hwords hstats
  generalize hm₂ : (if add32 s osMemMinLeftSize ≤ b.size then
    setCurUsedSize k pool (sub32 (curUsedSize k pool) (sub32 b.size s)) else k) = m₂
  obtain ⟨h3, k3, ht3, hcur, hline, hnext⟩ :=
    record_smaller h2 s b.size hs (by omega) hm₂.symm (· = p)
  have hcb : c.addr = b.addr := hcb
  have hcs : c.size = if s + 16 ≤ b.size then s else b.size := hcs
  have hsize : s ≤ c.size ∧ c.size ≤ b.size := by
    split at hcs <;> omega
  have hx : ∀ x, x % 4 = 0 → b.addr + 8 ≤ x → x < b.addr + s → load32 m₂ x = load32 m x := by
    intro x hx hlo hhi
    have hstatx := touches_load32 _ _ _ ht3 x hx (by unfold StatWord; omega)
    exact hstatx.trans ((hwords x hx hlo hhi).trans (hdis x hx hlo))
  rw [osMemReAllocSmaller_eq m pool s b.addr b.size k m₂ hk.symm hm₂.symm, ← hcb]
  have h3 : Rep pool size m₂ v₂ [b.addr] := h3
  rw [← hcb] at h3
  obtain ⟨v₃, d, hres, hds, hda, hstats'⟩ := hand_over h hb p h3 (k12.trans k3) hfresh hc hcfree hcb
    (hnext.trans (hstats _ (Or.inr (Or.inr rfl)))) (s - 8) (by omega)
    fun i _ hi => bytes_of_load32 m m₂ (b.addr + 8) (b.addr + s) (by omega) (by omega) hx _
      (by omega) (by omega)
  refine ⟨v₃, d, hres, ?_, ?_, by omega⟩
  · have hold : curUsedSize k pool = curUsedSize m pool := hstats _ (Or.inr (Or.inl rfl))
    rw [hold, ← hcs] at hcur
    rw [hds]
    exact (hstats' _ (Or.inr (Or.inl rfl))).trans hcur
  · exact (hstats' _ (Or.inl rfl)).trans (hline.trans (hstats _ (Or.inl rfl)))

theorem Resized.restat {p n t : Nat} {m₁ m₂ : Memory} {v' : Arena}
    (h : Resized pool size m v b p n (m₁, t) v' c) (ht : Touches (StatWord pool) m₁ m₂)
    (hnext : nextPool m₂ pool = nextPool m₁ pool) :
    Resized pool size m v b p n (m₂, t) v' c := by
  have hbase : t = c.addr + 8 := h.base
  have hlt := h.rep.layout.size_lt c h.mem
  have hbb := h.rep.layout.bounds c h.mem
  have hp4 := h.rep.layout.region.aligned
  obtain ⟨h1, k1⟩ := h.rep.stat ht fun x => x = p ∨ x = t
  refine { h with rep := h1, keeps := h.keeps.trans k1, bytes := fun i hi hn => ?_, next := ?_ }
  · refine Eq.trans (ht _ ?_) (h.bytes i hi hn)
    show ¬StatWord pool ((t + i) / 4 * 4)
    unfold StatWord
    omega
  · exact hnext.trans h.next

theorem osMemMergeNodeForReAllocBigger_spec
    (h : Rep pool size m ⟨pre ++ (b :: a :: post), ls⟩ []) (p : Nat) (hown : b.owner = some p)
    (ha : a.owner = none) (s : Nat) (h4 : s % 4 = 0) (hbs : b.size ≤ s)
    (hs : s ≤ b.size + a.size) (hlim : s < 1140850688) :
    ∃ v' c, Resized pool size m ⟨pre ++ (b :: a :: post), ls⟩ b p (s - 8)
      (osMemMergeNodeForReAllocBigger m pool s b.addr b.size a.addr, b.addr + 8) v' c := by
  have hp4 := h.layout.region.aligned
  have hbr := b.room
  have hba := b.aligned
  have hbw := b.whole
  have hadj : a.addr = b.addr + b.size := h.layout.adjacent
  obtain ⟨h1, k1⟩ := h.disown p hown (· = p) rfl
  have haP : a.addr ∉ [b.addr] := by
    simp only [List.mem_singleton]
    omega
  obtain ⟨ls', h2, k2⟩ := absorb_next (a := b.free) h1 rfl ha List.mem_cons_self haP fun _ => False
  have hinside := absorb_next_inside (a := b.free) h1 rfl ha List.mem_cons_self haP
  have hword := h2.free_word (b := b.free.join a) (by simp) rfl
  obtain ⟨v₃, c, h3, k3, hc, hcb, hcfree, hcs, hwords⟩ :=
    cut_tail (b := b.free.join a) h2 (by simp) rfl s h4 (by omega) hlim fun _ => False
  have hfresh := disowned_fresh h1.layout p hown fun d hd q hq =>
    k2.back d (k3.back d hd q hq not_false) q hq not_false
  have k := (k1.toKeeps.trans (k2.toKeeps.mono fun x hx => hx.elim)).trans
    (k3.toKeeps.mono fun x hx => hx.elim)
  have hstats := fun a ha => (k3.stats a ha).trans ((k2.stats a ha).trans (k1.stats a ha))
  have hx : ∀ x, x % 4 = 0 → b.addr + 8 ≤ x → x < b.addr + b.size → load32 _ x = load32 m x :=
    fun x hx hlo hhi => (hwords x hx hlo (by show x < b.addr + s; omega)).trans
      ((hinside x hx hlo hhi).trans
        (load32_store32_aligned _ _ _ _ (by omega) hx (by omega)))
  have hword : sizeAndFlag (osMemMergeNode (osMemFreeNodeDelete
      (setSizeAndFlag m b.addr b.size) pool a.addr) a.addr) b.addr = (b.free.join a).size := hword
  unfold osMemMergeNodeForReAllocBigger
  simp only [hword]
  generalize hm₃ : (if add32 s osMemMinLeftSize ≤ (b.free.join a).size then
    osMemSplitNode (osMemMergeNode (osMemFreeNodeDelete
      (setSizeAndFlag m b.addr b.size) pool a.addr) a.addr) pool (b.free.join a).addr s
    else osMemMergeNode (osMemFreeNodeDelete
      (setSizeAndFlag m b.addr b.size) pool a.addr) a.addr) = m₃ at h3 k hstats hx
  have hm₃ : (if add32 s osMemMinLeftSize ≤ (b.free.join a).size then
    osMemSplitNode (osMemMergeNode (osMemFreeNodeDelete
      (setSizeAndFlag m b.addr b.size) pool a.addr) a.addr) pool b.addr s
    else osMemMergeNode (osMemFreeNodeDelete
      (setSizeAndFlag m b.addr b.size) pool a.addr) a.addr) = m₃ := hm₃
  rw [hm₃]
  have hcb : c.addr = b.addr := hcb
  have hcs : c.size = if s + 16 ≤ b.size + a.size then s else b.size + a.size := hcs
  have hsize : s ≤ c.size := by
    split at hcs <;> omega
  have h3 : Rep pool size m₃ v₃ [b.addr] := h3
  rw [← hcb] at h3 ⊢
  obtain ⟨v₄, d, hres, hds, hda, hstats'⟩ := hand_over h (by simp) p h3 k hfresh hc hcfree hcb
    (hstats _ (Or.inr (Or.inr rfl))) (s - 8) (by omega)
    fun i hi _ => bytes_of_load32 m m₃ (b.addr + 8) (b.addr + b.size) (by omega) (by omega) hx _
      (by omega) (by omega)
  obtain ⟨-, -, hnext⟩ := osMemWaterUsedRecord_spec (setSizeAndFlag m₃ c.addr
    (osMemNodeSetUsedFlag (sizeAndFlag m₃ c.addr))) hp4 (sub32 (sizeAndFlag (setSizeAndFlag m₃ c.addr
      (osMemNodeSetUsedFlag (sizeAndFlag m₃ c.addr))) c.addr) b.size)
  exact ⟨v₄, d, hres.restat (osMemWaterUsedRecord_touches _ hp4 _) hnext⟩

theorem copyBytes_touches (m : Memory) (dst src n : Nat) (hd : dst % 4 = 0) (hn : n % 4 = 0) :
    Touches (fun a => dst ≤ a ∧ a < dst + n) m (copyBytes m dst src n) := by
  intro x hx
  exact copyBytes_outside m dst src n x (by omega)

theorem Rep.write_payload {m' : Memory} {A : Nat → Prop} (h : Rep pool size m v P)
    (hb : b ∈ v.blocks) (p : Nat) (hown : b.owner = some p) (ht : Touches A m m')
    (hA : ∀ a, A a → p ≤ a ∧ a < b.addr + b.size) :
    Rep pool size m' v P ∧ Steady pool size (· = p) v m v m' := by
  have hin := b.inside p hown
  have hbb := h.layout.bounds b hb
  have hroom := h.layout.region.room
  refine ⟨h.frame ht (fun a ha hh => ?_) (fun a ha hl => ?_), ?_, fun a ha => ?_⟩
  · exact h.layout.head_not_payload a hh ⟨b, hb, p, hown, hA a ha⟩
  · exact h.layout.link_not_payload a hl ⟨b, hb, p, hown, hA a ha⟩
  · refine keeps_of_touches h.layout _ v ht (fun a ha => ?_)
      (fun c hc q hq hqp => ⟨hc, fun a hlo hhi ha => ?_⟩) (fun c hc _ _ _ => hc)
    · have hAa := hA a ha
      omega
    · have hAa := hA a ha
      rcases tile_apart _ _ _ h.layout.tile b c hb hc with h1 | h1 | h1
      · subst h1
        rw [hown] at hq
        exact hqp (Option.some.inj hq).symm
      all_goals omega
  · refine touches_load32 _ _ _ ht a (h.layout.stat_aligned a ha) fun hAa => ?_
    have hin' := hA a hAa
    unfold StatWord at ha
    omega

/-- The request reaches past the node and its free right neighbour has room. -/
def growsIntoNext (m : Memory) (node size : Nat) : Prop :=
  osMemNodeGetSize (sizeAndFlag m node) < allocSizeOf size ∧
  osMemNodeGetUsedFlag (sizeAndFlag m (osMemNextNode m node)) = 0 ∧
  allocSizeOf size ≤ add32 (sizeAndFlag m (osMemNextNode m node))
    (osMemNodeGetSize (sizeAndFlag m node))

instance (m : Memory) (node size : Nat) : Decidable (growsIntoNext m node size) :=
  inferInstanceAs (Decidable (_ ∧ _))

/-- The node the search offers for a move has room for the old payload and for `k` bytes. -/
def MoveFits (m : Memory) (v : Arena) (pool n k : Nat) (b : Block) : Prop :=
  ∀ a ∈ v.blocks, a.addr = (osMemFindNextSuitableBlock m pool (allocSizeOf n)).1 →
    b.size ≤ a.size ∧ k + 8 ≤ a.size

theorem moveFits_orderly (h : Rep pool size m v []) (n : Nat) (h8 : 8 ≤ n) (hn : n < 1073741824)
    (hsmall : b.size < allocSizeOf n) (ho : Orderly size (allocSizeOf n)) :
    MoveFits m v pool n n b := by
  have hbds := allocSizeOf_bounds n
  intro a ha haddr
  have hab := h.layout.bounds a ha
  obtain hz | ⟨c, hc, hfound, _, hfits⟩ :=
    osMemFindNextSuitableBlock_spec h (allocSizeOf n) (by omega) (by omega) (by omega)
  · omega
  · have hca := h.layout.addr_inj c a hc ha (hfound.trans haddr.symm)
    have hle := hfits ho
    rw [hca] at hle
    omega

theorem realloc_move (h : Rep pool size m v []) (hb : b ∈ v.blocks) (p : Nat)
    (hown : b.owner = some p) (n : Nat) (h8 : 8 ≤ n) (hn : n < 1073741824)
    (k : Nat) (hk : k ≤ n) (hfit : MoveFits m v pool n k b) (hsmall : b.size < allocSizeOf n)
    (r : Memory × Nat) (hr : r = if (osMemAlloc m pool n).2 ≠ 0 then
        match memcpyS (osMemAlloc m pool n).1 (osMemAlloc m pool n).2 n (b.addr + 8)
            (sub32 b.size osMemNodeHeadSize) with
        | none => ((losMemFree (osMemAlloc m pool n).1 pool (osMemAlloc m pool n).2).1, 0)
        | some m' => ((osMemFree m' pool b.addr).1, (osMemAlloc m pool n).2)
      else ((osMemAlloc m pool n).1, 0)) :
    r = (m, 0) ∧ (osMemFindNextSuitableBlock m pool (allocSizeOf n)).1 = 0 ∨
    (osMemFindNextSuitableBlock m pool (allocSizeOf n)).1 ≠ 0 ∧
    ∃ v' c, Resized pool size m v b p k r v' c ∧
      (pool + size < 4294967296 → Recorded pool n m b c r.1) := by
  have hlt := h.layout.size_lt b hb
  have hbr := b.room
  have hbw := b.whole
  have hba := b.aligned
  have hin := b.inside p hown
  have hbds := allocSizeOf_bounds n
  rw [show osMemNodeHeadSize = 8 from rfl, sub32_of_le b.size 8 (by omega) (by omega)] at hr
  obtain ⟨hz, hzero⟩ | ⟨v₁, a, c, ht⟩ := osMemAlloc_base h n h8 hn
  · rw [hz, if_neg (by simp)] at hr
    exact Or.inl ⟨hr, hzero⟩
  · have hge := hfit a ht.was ht.found.symm
    have hane : a.addr ≠ 0 := by
      have hab := h.layout.bounds a ht.was
      omega
    have hcut := ht.cut
    have hroom : b.size ≤ c.size ∧ k + 8 ≤ c.size := by
      split at hcut
      · omega
      · omega
    have hcp := ht.ptr
    have hco := ht.owner
    have hcm := ht.mem
    have haddr := ht.addr
    have hcr := c.room
    have hca := c.aligned
    have har := a.room
    have hfresh : ∀ d ∈ v.blocks, d.owner ≠ some (osMemAlloc m pool n).2 :=
      h.layout.fresh_owner ht.was ht.free _ (by omega)
    have hnle : ¬allocSizeOf n ≤ b.size := by omega
    simp only [Recorded, if_neg hnle]
    generalize osMemAlloc m pool n = g at ht hr hcp hco hfresh ⊢
    obtain ⟨m₁, t⟩ := g
    have htp : p ≠ t := fun he => hfresh b hb (he ▸ hown)
    have hcp : t = c.addr + 8 := hcp
    obtain ⟨hb₁, hbytes₁⟩ := ht.keeps.stay b hb p hown htp
    have hcopy : memcpyS m₁ t n (b.addr + 8) (b.size - 8) =
        some (copyBytes m₁ t (b.addr + 8) (b.size - 8)) := by
      unfold memcpyS
      exact if_neg (by omega)
    dsimp only at hr
    rw [if_pos (by omega), hcopy] at hr
    have hr : r = ((osMemFree (copyBytes m₁ t (b.addr + 8) (b.size - 8)) pool b.addr).1, t) := hr
    obtain ⟨h2, k2⟩ := ht.rep.write_payload hcm t hco
      (copyBytes_touches m₁ t (b.addr + 8) (b.size - 8) (by omega) (by omega))
      (fun x hx => by omega)
    have hmoved : ∀ i, i + 8 < b.size →
        copyBytes m₁ t (b.addr + 8) (b.size - 8) (t + i) = m (b.addr + 8 + i) := fun i hi =>
      (copyBytes_inside m₁ t (b.addr + 8) (b.size - 8) i (by omega)).trans
        (hbytes₁ _ (by omega) (by omega))
    have hused := (k2.stats _ (Or.inr (Or.inl rfl))).trans ht.used
    have hline := k2.stats _ (Or.inl rfl)
    have hnext := (k2.stats _ (Or.inr (Or.inr rfl))).trans ht.next
    have kk := ht.keeps.trans k2.toKeeps
    generalize copyBytes m₁ t (b.addr + 8) (b.size - 8) = m₂ at h2 k2 kk hr hmoved hused hline hnext
    refine Or.inr ⟨by rw [ht.found]; exact hane, ?_⟩
    obtain ⟨he, hne⟩ | ⟨v₂, hf, _⟩ := osMemFree_spec h2 p hb₁ hown
    · rw [he] at hr
      subst hr
      refine ⟨v₁, c, {
        rep := h2
        keeps := kk.mono fun x hx => Or.inr hx
        mem := hcm
        owner := hco
        base := hcp
        room := by omega
        fresh := fun d hd hdo => absurd hdo (hfresh d hd)
        bytes := fun i hi _ => hmoved i hi
        gone := fun hend => ?_
        next := hnext }, fun hend => ?_⟩
      all_goals
        obtain ⟨blocks, ls⟩ := v₁
        obtain ⟨pre, post, rfl⟩ := List.append_of_mem hb₁
        exact absurd (osMemCheckUsedNode_owned h2 hend (by simp [hown])) hne
    · subst hr
      obtain ⟨hc₂, hbytes₂⟩ := hf.keeps.stay c hcm t hco (Ne.symm htp)
      obtain ⟨e, he, hefree, helo, hehi⟩ := hf.gone
      refine ⟨v₂, c, {
        rep := hf.rep
        keeps := (kk.mono fun x hx => Or.inr hx).trans (hf.keeps.mono fun x hx => Or.inl hx)
        mem := hc₂
        owner := hco
        base := hcp
        room := by omega
        fresh := fun d hd hdo => absurd hdo (hfresh d hd)
        bytes := fun i hi hin => ?_
        gone := fun _ d hd hdo => ?_
        next := hf.next.trans hnext }, fun _ => ⟨?_, ?_, ht.used⟩⟩
      · exact (hbytes₂ (t + i) (by omega) (by omega)).trans (hmoved i hi)
      · exact absurd hdo (hf.rep.layout.fresh_owner he hefree p (by omega) d hd)
      · exact hf.used.trans (congrArg (sub32 · b.size) hused)
      · exact hf.line.trans hline

theorem osMemRealloc_spec (h : Rep pool size m v []) (hb : b ∈ v.blocks) (p : Nat)
    (hown : b.owner = some p) (n : Nat) (h8 : 8 ≤ n) (hn : n < 1073741824) (k : Nat) (hk : k ≤ n)
    (hfit : b.size < allocSizeOf n → ¬growsIntoNext m b.addr n → MoveFits m v pool n k b) :
    (osMemRealloc m pool (b.addr + 8) b.addr n = (m, 0) ∧ b.size < allocSizeOf n ∧
      ¬growsIntoNext m b.addr n ∧ (osMemFindNextSuitableBlock m pool (allocSizeOf n)).1 = 0) ∨
    (allocSizeOf n ≤ b.size ∨ growsIntoNext m b.addr n ∨
      (osMemFindNextSuitableBlock m pool (allocSizeOf n)).1 ≠ 0) ∧
    ∃ v' c, Resized pool size m v b p k (osMemRealloc m pool (b.addr + 8) b.addr n) v' c ∧
      (pool + size < 4294967296 → ¬growsIntoNext m b.addr n →
        Recorded pool n m b c (osMemRealloc m pool (b.addr + 8) b.addr n).1) := by
  have hlt := h.layout.size_lt b hb
  have hbds := allocSizeOf_bounds n
  have hsize := (h.node_flags hb).1
  unfold growsIntoNext at hfit ⊢
  generalize hr : osMemRealloc m pool (b.addr + 8) b.addr n = r
  unfold osMemRealloc at hr
  simp only [hsize, h.next_node hb, osMemAlign_request n (by omega)] at hr hfit ⊢
  by_cases hle : b.size ≥ allocSizeOf n
  · rw [if_pos hle] at hr
    subst hr
    obtain ⟨v', c, hres, hrec⟩ :=
      osMemReAllocSmaller_spec h hb p hown (allocSizeOf n) (by omega) (by omega) hle
    exact Or.inr ⟨Or.inl hle, v', c, hres.mono (by omega), fun _ _ => ⟨hrec.1, by rw [if_pos hle]; exact hrec.2⟩⟩
  · rw [if_neg hle] at hr
    by_cases hnext : osMemNodeGetUsedFlag (sizeAndFlag m (b.addr + b.size)) = 0 ∧
        add32 (sizeAndFlag m (b.addr + b.size)) b.size ≥ allocSizeOf n
    · rw [if_pos hnext] at hr
      subst hr
      obtain ⟨blocks, ls⟩ := v
      obtain ⟨pre, post, rfl⟩ := List.append_of_mem hb
      obtain ⟨a, post, rfl, ha⟩ := h.next_flag.mp hnext.1
      have hadj : a.addr = b.addr + b.size := h.layout.adjacent
      have halt := h.layout.size_lt a (by simp)
      have hsum := hnext.2
      rw [← hadj, h.free_word (b := a) (by simp) ha, add32_of_lt _ _ (by omega)] at hsum
      rw [← hadj]
      obtain ⟨v', c, hres⟩ := osMemMergeNodeForReAllocBigger_spec h p hown ha (allocSizeOf n)
        (by omega) (by omega) (by omega) (by omega)
      have hgrow := And.intro (show b.size < allocSizeOf n by omega) hnext
      rw [← hadj] at hgrow
      exact Or.inr ⟨Or.inr (Or.inl hgrow), v', c, hres.mono (by omega),
        fun _ hnot => absurd hgrow hnot⟩
    · rw [if_neg hnext] at hr
      have hgrow : ¬(b.size < allocSizeOf n ∧
          osMemNodeGetUsedFlag (sizeAndFlag m (b.addr + b.size)) = 0 ∧
          allocSizeOf n ≤ add32 (sizeAndFlag m (b.addr + b.size)) b.size) := fun hg => hnext hg.2
      obtain ⟨hz, hzero⟩ | ⟨hfound, v', c, hres, hrec⟩ :=
        realloc_move h hb p hown n h8 hn k hk (hfit (by omega) hgrow) (by omega) r hr.symm
      · exact Or.inl ⟨hz, by omega, hgrow, hzero⟩
      · exact Or.inr ⟨Or.inr (Or.inr hfound), v', c, hres, fun hend _ => hrec hend⟩

/-- What a resize to `n` bytes of the node at `node` needs: a size without flag
bits, and room in place or elsewhere. -/
def ReallocServes (m : Memory) (pool node n : Nat) : Prop :=
  n ≠ 0 ∧ n < 1073741824 ∧ (allocSizeOf (max n 8) ≤ osMemNodeGetSize (sizeAndFlag m node) ∨
    growsIntoNext m node (max n 8) ∨
    (osMemFindNextSuitableBlock m pool (allocSizeOf (max n 8))).1 ≠ 0)

theorem losMemRealloc_cases (h : Rep pool size m v []) (hb : b ∈ v.blocks) (p : Nat)
    (hown : b.owner = some p) (n : Nat) (hn0 : n ≠ 0) (hn : n < 4294967296) (k : Nat)
    (hk : k ≤ max n 8) (hfit : n < 1073741824 → b.size < allocSizeOf (max n 8) →
      ¬growsIntoNext m b.addr (max n 8) → MoveFits m v pool (max n 8) k b) :
    (losMemRealloc m pool p n = (m, 0) ∧
      (pool + size < 4294967296 → ¬ReallocServes m pool b.addr n)) ∨
    ReallocServes m pool b.addr n ∧ ∃ v' c, Resized pool size m v b p k (losMemRealloc m pool p n) v' c ∧
      (pool + size < 4294967296 → ¬growsIntoNext m b.addr (max n 8) →
        Recorded pool (max n 8) m b c (losMemRealloc m pool p n).1) := by
  have hin := b.inside p hown
  have hlt := h.layout.size_lt b hb
  have hreal := osGetRealPtr_owned h p hb hown
  have hsize := (h.node_flags hb).1
  obtain ⟨hmin, hmax⟩ := atLeast_min n hn
  unfold losMemRealloc
  by_cases hf : pool = 0 ∨ osMemNodeGetUsedFlag n ≠ 0 ∨ osMemNodeGetAlignedFlag n ≠ 0
  · rw [if_pos hf]
    refine Or.inl ⟨rfl, fun _ hserves => ?_⟩
    have hlim := hserves.2.1
    have hpool := h.layout.region.nonzero
    rw [osMemNodeGetUsedFlag_eq, osMemNodeGetAlignedFlag_eq] at hf
    omega
  · have hlim := osMemFlags_zero n hn fun hz => hf (Or.inr hz)
    rw [if_neg hf, if_neg (by omega), if_neg hn0]
    simp only [hreal, hmin]
    unfold osMemNodeHeadSize
    rw [if_neg (by omega), sub32_of_le _ _ (by omega) (by omega), Nat.add_sub_cancel]
    by_cases hcheck : osMemCheckUsedNode m pool b.addr ≠ losOk
    · rw [if_pos hcheck]
      refine Or.inl ⟨rfl, fun hend => ?_⟩
      obtain ⟨blocks, ls⟩ := v
      obtain ⟨pre, post, rfl⟩ := List.append_of_mem hb
      exact absurd (osMemCheckUsedNode_owned h hend (by simp [hown])) hcheck
    · rw [if_neg hcheck]
      obtain ⟨hz, hsmall, hgrow, hzero⟩ | ⟨hroom, hres⟩ :=
        osMemRealloc_spec h hb p hown (max n 8) (by omega) (by omega) k hk (hfit hlim)
      · refine Or.inl ⟨hz, fun _ hserves => ?_⟩
        have hroom := hserves.2.2
        rw [hsize] at hroom
        rcases hroom with hroom | hroom | hroom
        · omega
        · exact hgrow hroom
        · exact hroom hzero
      · rw [← hsize] at hroom
        exact Or.inr ⟨⟨hn0, hlim, hroom⟩, hres⟩

theorem losMemRealloc_spec (h : Rep pool size m v []) (hb : b ∈ v.blocks) (p : Nat)
    (hown : b.owner = some p) (n : Nat) (hn0 : n ≠ 0) (hn : n < 4294967296)
    (ho : Orderly size (allocSizeOf n)) :
    losMemRealloc m pool p n = (m, 0) ∨
    ∃ v' c, Resized pool size m v b p n (losMemRealloc m pool p n) v' c ∧
      (pool + size < 4294967296 → ¬growsIntoNext m b.addr (max n 8) →
        Recorded pool (max n 8) m b c (losMemRealloc m pool p n).1) := by
  obtain ⟨hz, _⟩ | ⟨_, v', c, hres, hrec⟩ := losMemRealloc_cases h hb p hown n hn0 hn (max n 8)
    (le_refl _) fun hlim hsmall _ =>
      moveFits_orderly h (max n 8) (by omega) (by omega) hsmall (orderly_min n ho)
  · exact Or.inl hz
  · exact Or.inr ⟨v', c, hres.mono (by omega), hrec⟩

theorem losMemRealloc_zero (h : Rep pool size m v []) (p : Nat) (hp : p ≠ 0) :
    losMemRealloc m pool p 0 = ((losMemFree m pool p).1, 0) := by
  have h0 := h.layout.region.nonzero
  unfold losMemRealloc
  rw [osMemNodeGetUsedFlag_eq, osMemNodeGetAlignedFlag_eq, if_neg (by omega), if_neg hp, if_pos rfl]

theorem losMemRealloc_null (m : Memory) (pool n : Nat) :
    losMemRealloc m pool 0 n = (m, 0) ∨
      n ≠ 0 ∧ losMemRealloc m pool 0 n = losMemAlloc m pool n := by
  unfold losMemRealloc losMemAlloc
  by_cases hf : pool = 0 ∨ osMemNodeGetUsedFlag n ≠ 0 ∨ osMemNodeGetAlignedFlag n ≠ 0
  · exact Or.inl (if_pos hf)
  · rw [if_neg hf, if_pos rfl]
    by_cases hn : n = 0
    · exact Or.inl (if_pos (Or.inr hn))
    · exact Or.inr ⟨hn, rfl⟩

end

end LiteosM.Heap
