import LiteosM.Heap.Run

/-!
# Well-formedness of the heap

Everything is stated on the memory itself: the walk over the nodes, their back
pointers, the free lists and the bitmap. The arena only appears in the proofs.
-/

namespace LiteosM.Heap
open Lib.ByteMemory Lib.Word32 Lib.LinkedList Lib.Transition

/-- The nodes met when walking from `a` by node size until `e`. -/
inductive NodeWalk (m : Memory) : Nat → List Nat → Nat → Prop
  | done (e : Nat) : NodeWalk m e [] e
  | node (a : Nat) (ns : List Nat) (e : Nat) (hlt : a < osMemNextNode m a)
      (rest : NodeWalk m (osMemNextNode m a) ns e) : NodeWalk m a (a :: ns) e

/-- The nodes met when following `next` from `cur`, each pointing back to the
one before it. -/
def FreeListWalk (m : Memory) : Nat → Nat → List Nat → Prop
  | _, cur, [] => cur = 0
  | prev, cur, n :: ns =>
    cur = n ∧ n ≠ 0 ∧ freePrev m n = prev ∧ FreeListWalk m n (freeNext m n) ns

def IsFreeNode (m : Memory) (node : Nat) : Prop :=
  osMemNodeGetUsedFlag (sizeAndFlag m node) = 0

/-- The list a free node belongs to. -/
def nodeIndex (m : Memory) (node : Nat) : Nat :=
  osMemFreeListIndexGet (osMemNodeGetSize (sizeAndFlag m node))

structure WellFormed (m : Memory) (pool size : Nat) (ns : List Nat) (ls : Nat → List Nat) :
    Prop where
  walk : NodeWalk m (osMemFirstNode pool) ns (osMemEndNode pool size)
  firstPrev : prevOf m (osMemFirstNode pool) = osMemEndNode pool size
  prev : (ns ++ [osMemEndNode pool size]).IsChain fun a b => prevOf m b = a
  apart : ns.IsChain fun a b => ¬(IsFreeNode m a ∧ IsFreeNode m b)
  lists : ∀ i < osMemFreeListCount, FreeListWalk m 0 (freeList m pool i) (ls i)
  once : ∀ i < osMemFreeListCount, (ls i).Nodup
  index : ∀ n ∈ ns, IsFreeNode m n → nodeIndex m n < osMemFreeListCount
  member : ∀ i < osMemFreeListCount, ∀ n, n ∈ ls i ↔ n ∈ ns ∧ IsFreeNode m n ∧ nodeIndex m n = i
  bitmap : ∀ i < osMemFreeListCount,
    (freeListBitmap m pool (i / 32)).testBit (i % 32) = true ↔ freeList m pool i ≠ 0

def HeapWf (m : Memory) (pool size : Nat) : Prop := ∃ ns ls, WellFormed m pool size ns ls

section
variable {pool size : Nat} {m : Memory} {v : Arena} {P : List Nat}

theorem tile_length (bs : List Block) (a e : Nat) (ht : Tile a bs e) : a + 16 * bs.length ≤ e := by
  induction bs generalizing a with
  | nil =>
    have ht : a = e := ht
    simp [ht]
  | cons b bs ih =>
    obtain ⟨rfl, ht⟩ := ht
    have hroom := b.room
    have hle := ih _ ht
    rw [List.length_cons]
    omega

theorem nodeWalk_of_tile (bs : List Block) (a e : Nat) (ht : Tile a bs e)
    (hnext : ∀ b ∈ bs, osMemNextNode m b.addr = b.addr + b.size) :
    NodeWalk m a (bs.map Block.addr) e := by
  induction bs generalizing a with
  | nil =>
    have ht : a = e := ht
    subst ht
    exact NodeWalk.done a
  | cons b bs ih =>
    obtain ⟨rfl, ht⟩ := ht
    have hb := hnext b List.mem_cons_self
    have hroom := b.room
    refine NodeWalk.node _ _ _ (by omega) ?_
    rw [hb]
    exact ih _ ht fun c hc => hnext c (List.mem_cons_of_mem _ hc)

theorem freeListWalk_of_links (pool i : Nat) (l : List Nat) (prev cur : Nat) (h0 : 0 ∉ l)
    (hcur : cur = l.headD 0) (hprev : ∀ n ∈ l.head?, freePrev m n = prev)
    (hc : (l ++ [0]).IsChain fun a b => freeLinks m pool i a = b ∧ (b ≠ 0 → freePrev m b = a)) :
    FreeListWalk m prev cur l := by
  induction l generalizing prev cur with
  | nil => exact hcur
  | cons n l ih =>
    have hn0 : n ≠ 0 := fun he => h0 (by simp [he])
    have hl0 : 0 ∉ l := fun hm => h0 (List.mem_cons_of_mem _ hm)
    have hhead : (l ++ [0]).head? = some (l.headD 0) := by cases l <;> rfl
    obtain ⟨hfirst, hrest⟩ := List.isChain_cons.mp hc
    obtain ⟨hnext, hback⟩ := hfirst _ hhead
    rw [freeLinks, if_neg hn0] at hnext
    refine ⟨hcur, hn0, hprev n rfl, ih n _ hl0 hnext ?_ hrest⟩
    intro k hk
    cases l with
    | nil => cases hk
    | cons c l =>
      have hck : c = k := by simpa using hk
      subst hck
      exact hback fun he : c = 0 => hl0 (by simp [he])

theorem Rep.freeListWalk (h : Rep pool size m v P) (i : Nat) (hi : i < 223) :
    FreeListWalk m 0 (freeList m pool i) (v.lists i) := by
  have hl := h.lists.links i hi
  have h0 := (List.nodup_cons.mp (h.layout.nodup_cons i)).1
  have hhead : freeList m pool i = (v.lists i).headD 0 := links_head hl
  refine freeListWalk_of_links pool i _ 0 _ h0 hhead (fun n hn => ?_) ?_
  · obtain ⟨hn', rest⟩ := List.isChain_cons.mp hl
    cases hli : v.lists i with
    | nil => rw [hli] at hn; cases hn
    | cons c l =>
      rw [hli] at hn hn' h0
      have hcn : c = n := by simpa using hn
      subst hcn
      exact (hn' c rfl).2 fun he => h0 (by simp [he])
  · exact (List.isChain_cons.mp hl).2

theorem Rep.prev_chain (h : Rep pool size m v P) :
    (v.blocks.map Block.addr ++ [pool + size - 8]).IsChain fun a b => prevOf m b = a := by
  have hback : ∀ b ∈ v.blocks, prevOf m (b.addr + b.size) = b.addr :=
    fun b hb => (h.heads.node b hb).back
  have ht := h.layout.tile
  generalize pool + 944 = a at ht
  generalize pool + size - 8 = e at ht
  generalize v.blocks = bs at ht hback
  induction bs generalizing a with
  | nil => exact List.isChain_singleton e
  | cons b bs ih =>
    obtain ⟨rfl, ht⟩ := ht
    have hrest := ih _ ht fun c hc => hback c (List.mem_cons_of_mem _ hc)
    have hb := hback b List.mem_cons_self
    cases bs with
    | nil =>
      have ht : b.addr + b.size = e := ht
      exact List.isChain_pair.mpr (ht ▸ hb)
    | cons c bs =>
      refine List.isChain_cons_cons.mpr ⟨?_, hrest⟩
      rw [ht.1]
      exact hb

theorem Rep.heapWf (h : Rep pool size m v []) :
    WellFormed m pool size (v.blocks.map Block.addr) v.lists := by
  have hends := h.layout.region.ends
  have hroom := h.layout.region.room
  have hfree : ∀ b ∈ v.blocks, IsFreeNode m b.addr ↔ b.owner = none :=
    fun b hb => (h.node_flags hb).2
  have hindex : ∀ b ∈ v.blocks, nodeIndex m b.addr = sizeClass b.size := by
    intro b hb
    have hlt := (h.layout.size_lt b hb).1
    have hr := b.room
    rw [nodeIndex, (h.node_flags hb).1, osMemFreeListIndexGet_eq _ (by omega) (by omega)]
  refine ⟨?_, ?_, ?_, ?_, fun i hi => ?_, fun i _ => h.layout.nodup i, fun n hn _ => ?_,
    fun i hi n => ?_, fun i hi => ?_⟩
  · rw [hends.1, hends.2.1]
    exact nodeWalk_of_tile _ _ _ h.layout.tile fun b hb => h.next_node hb
  · rw [hends.1, hends.2.1]
    exact h.heads.first
  · rw [hends.2.1]
    exact h.prev_chain
  · refine (List.isChain_map _).mpr (h.layout.apart.imp_of_mem_imp fun a b ha hb hab => ?_)
    rintro ⟨h1, h2⟩
    have hmem := hab ((hfree a ha).mp h1) ((hfree b hb).mp h2)
    simp at hmem
  · exact h.freeListWalk i (by rwa [osMemFreeListCount_eq] at hi)
  · obtain ⟨b, hb, rfl⟩ := List.mem_map.mp hn
    have hcl := sizeClass_lt b.size (h.layout.size_lt b hb).1
    rw [hindex b hb, osMemFreeListCount_eq]
    omega
  · constructor
    · intro hn
      obtain ⟨_, b, hb, rfl, ho, hc⟩ := h.layout.member i n hn
      exact ⟨List.mem_map_of_mem hb, (hfree b hb).mpr ho, (hindex b hb).trans hc⟩
    · rintro ⟨hn, hf, hc⟩
      obtain ⟨b, hb, rfl⟩ := List.mem_map.mp hn
      rw [← hc, hindex b hb]
      exact h.layout.filed b hb ((hfree b hb).mp hf) List.not_mem_nil
  · rw [osMemFreeListCount_eq] at hi
    rw [h.lists.bit i (by omega), decide_eq_true_eq]
    constructor
    · intro hne h0
      have hm := freeList_mem h i hne
      rw [h0] at hm
      exact (List.nodup_cons.mp (h.layout.nodup_cons i)).1 hm
    · intro hne hnil
      have hhead : freeList m pool i = (v.lists i).headD 0 := links_head (h.lists.links i hi)
      rw [hnil] at hhead
      exact hne hhead

theorem heapInv_init (fuel : Nat) (s s' : MemState) (hroom : 968 ≤ size)
    (hlimit : size < 1073742776) (hinside : pool + size ≤ 4294967296)
    (hapart : ∀ q, Registered s.mem s.gPoolHead q → q + 944 ≤ pool ∨ pool + size ≤ q)
    (hinit : losMemInit fuel s pool size = some (s', losOk)) :
    HeapInv pool size ⟨s'.mem, fun _ => none⟩ := by
  obtain ⟨v, hv, _⟩ := losMemInit_rep fuel s s' hroom hlimit hinside hapart hinit
  exact ⟨v, hv, fun p r hp => by cases hp⟩

theorem heapInv_run (s t : HeapState) (ops : List HeapOp) (hlimit : size ≤ 268435456)
    (hs : HeapInv pool size s) (hrun : Run (HeapStep pool size) s ops t) : HeapInv pool size t :=
  run_invariant (HeapInv pool size)
    (fun s a t hI hstep => (heapStep_inv s t a (a.orderly_small hlimit) hI hstep).1) hrun hs

end

/-- After `LOS_MemInit` and any sequence of calls the heap is well formed. -/
theorem losMem_well_formed (pool size fuel : Nat) (s s' : MemState) (hroom : 968 ≤ size)
    (hlimit : size ≤ 268435456) (hinside : pool + size ≤ 4294967296)
    (hapart : ∀ q, Registered s.mem s.gPoolHead q → q + 944 ≤ pool ∨ pool + size ≤ q)
    (hinit : losMemInit fuel s pool size = some (s', losOk)) (ops : List HeapOp) (t : HeapState)
    (hrun : Run (HeapStep pool size) ⟨s'.mem, fun _ => none⟩ ops t) : HeapWf t.mem pool size := by
  have hinv := heapInv_init fuel s s' hroom (by omega) hinside hapart hinit
  obtain ⟨v, hv, _⟩ := heapInv_run _ t ops hlimit hinv hrun
  exact ⟨_, _, hv.heapWf⟩

def zeroState : MemState := ⟨fun _ => 0, 0⟩

theorem zeroState_registered (q : Nat) (h : Registered zeroState.mem zeroState.gPoolHead q) :
    False := by
  induction h with
  | head h => exact h rfl
  | next _ _ ih => exact ih

/-- The first pool of all, 1024 bytes at address 4096. -/
def firstPool : MemState :=
  ⟨setNextPool (osMemPoolInit zeroState.mem 4096 1024) 4096 0, 4096⟩

theorem losMemInit_firstPool : losMemInit 1 zeroState 4096 1024 = some (firstPool, losOk) := rfl

/-- The memory after three allocations. -/
theorem losMem_well_formed_firstPool :
    ∃ ops t, ops.length = 3 ∧ Run (HeapStep 4096 1024) ⟨firstPool.mem, fun _ => none⟩ ops t ∧
      HeapWf t.mem 4096 1024 := by
  have hrun := run_append (run_append
    (run_single (HeapStep.alloc ⟨firstPool.mem, fun _ => none⟩ 16 : HeapStep 4096 1024 _ _ _))
    (run_single (HeapStep.allocAlign _ 8 32))) (run_single (HeapStep.reallocNull _ 24))
  exact ⟨_, _, rfl, hrun, losMem_well_formed 4096 1024 1 zeroState firstPool (by omega) (by omega)
    (by omega) (fun q hq => (zeroState_registered q hq).elim) losMemInit_firstPool _ _ hrun⟩

end LiteosM.Heap
