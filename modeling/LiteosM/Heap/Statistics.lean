import LiteosM.Heap.Accounting
import LiteosM.Heap.Complete
import LiteosM.Heap.Integrity
import Mathlib.Algebra.BigOperators.Group.Finset.Basic
import Mathlib.Algebra.GroupWithZero.Nat
import Mathlib.Algebra.Ring.Int.Defs

/-!
# What a pool reports of itself

`LOS_MemInfoGet` adds up the nodes, `LOS_MemFreeNodeShow` counts the free lists. On every heap that the calls
reach they agree with the nodes, with each other, and with what can still be allocated.
-/

namespace LiteosM.Heap

open Lib.ByteMemory Lib.Word32 Lib.LinkedList Lib.Transition

/-- `LOS_MEM_POOL_STATUS` -/
structure MemPoolStatus where
  totalUsedSize : Nat
  totalFreeSize : Nat
  maxFreeNodeSize : Nat
  usedNodeNum : Nat
  freeNodeNum : Nat
  usageWaterLine : Nat

def osMemInfoGet (m : Memory) (node : Nat) (poolStatus : MemPoolStatus) : MemPoolStatus :=
  let size := osMemNodeGetSize (sizeAndFlag m node)
  let free := decide (osMemNodeGetUsedFlag (sizeAndFlag m node) = 0)
  let totalUsedSize := if free then 0 else size
  let totalFreeSize := if free then size else 0
  let usedNodeNum := if free then 0 else 1
  let freeNodeNum := if free then 1 else 0
  let maxFreeSize := if free ∧ 0 < size then size else 0
  { poolStatus with
    totalUsedSize := add32 poolStatus.totalUsedSize totalUsedSize
    totalFreeSize := add32 poolStatus.totalFreeSize totalFreeSize
    maxFreeNodeSize := if poolStatus.maxFreeNodeSize > maxFreeSize then poolStatus.maxFreeNodeSize else maxFreeSize
    usedNodeNum := add32 poolStatus.usedNodeNum usedNodeNum
    freeNodeNum := add32 poolStatus.freeNodeNum freeNodeNum }

def osMemInfoWalk (m : Memory) (endNode : Nat) : Nat → Nat → MemPoolStatus → Option MemPoolStatus
  | 0, _, _ => none
  | fuel + 1, tmpNode, poolStatus =>
    if tmpNode < endNode then
      osMemInfoWalk m endNode fuel (osMemNextNode m tmpNode) (osMemInfoGet m tmpNode poolStatus)
    else some poolStatus

/-- The record behind `poolStatus` afterwards, and what the call returns. -/
def losMemInfoGet (fuel : Nat) (m : Memory) (pool : Nat) (poolStatus : Option MemPoolStatus) :
    Option (Option MemPoolStatus × Nat) :=
  match poolStatus with
  | none => some (none, losNok)
  | some poolStatus =>
    if pool = 0 ∨ load32 m pool ≠ pool then some (some poolStatus, losNok)
    else
      (osMemInfoWalk m (osMemEndNode pool (totalSize m pool)) fuel (osMemFirstNode pool) ⟨0, 0, 0, 0, 0, 0⟩).map
        fun poolStatus => (some { poolStatus with usageWaterLine := waterLine m pool }, losOk)

def countFreeList (m : Memory) : Nat → Nat → Nat → Option Nat
  | 0, _, _ => none
  | fuel + 1, node, countNum =>
    if node = 0 then some countNum else countFreeList m fuel (freeNext m node) (add32 countNum 1)

/-- What is returned and the numbers that are printed. -/
def losMemFreeNodeShow (fuel : Nat) (m : Memory) (pool : Nat) : Option (Nat × List Nat) :=
  if pool = 0 ∨ pool ≠ load32 m pool then some (losNok, [])
  else ((List.range osMemFreeListCount).mapM fun index => countFreeList m fuel (freeList m pool index) 0).map
    fun countNum => (losOk, countNum)

/-! ### The nodes of a pool -/

instance isFreeNodeDecidable (m : Memory) : DecidablePred (IsFreeNode m) :=
  fun node => inferInstanceAs (Decidable (osMemNodeGetUsedFlag (sizeAndFlag m node) = 0))

def nodeSize (m : Memory) (node : Nat) : Nat := osMemNodeGetSize (sizeAndFlag m node)

def freeNodes (m : Memory) (ns : List Nat) : List Nat := ns.filter fun n => IsFreeNode m n

def usedNodes (m : Memory) (ns : List Nat) : List Nat := ns.filter fun n => ¬IsFreeNode m n

def nodeBytes (m : Memory) (ns : List Nat) : Nat := (ns.map (nodeSize m)).sum

def largestNode (m : Memory) (ns : List Nat) : Nat := ns.foldr (fun n largest => max largest (nodeSize m n)) 0

/-- The record that nodes add up to. -/
def statusOf (m : Memory) (ns : List Nat) : MemPoolStatus where
  totalUsedSize := nodeBytes m (usedNodes m ns)
  totalFreeSize := nodeBytes m (freeNodes m ns)
  maxFreeNodeSize := largestNode m (freeNodes m ns)
  usedNodeNum := (usedNodes m ns).length
  freeNodeNum := (freeNodes m ns).length
  usageWaterLine := 0

section

variable {m : Memory} {a e n : Nat} {ns : List Nat}

theorem nodeSize_lt (m : Memory) (n : Nat) : nodeSize m n < 4294967296 :=
  Nat.lt_of_le_of_lt Nat.and_le_left (load32_lt m (n + 4))

theorem nodeWalk_next (h : a < osMemNextNode m a) : osMemNextNode m a = a + nodeSize m a := by
  have hlt := nodeSize_lt m a
  unfold osMemNextNode at h ⊢
  change a < add32 a (nodeSize m a) at h
  change add32 a (nodeSize m a) = a + nodeSize m a
  have hword := add32_lt a (nodeSize m a)
  by_cases hsum : a + nodeSize m a < 4294967296
  · exact add32_of_lt _ _ hsum
  · unfold add32 at h hword ⊢
    omega

theorem NodeWalk.bytes (h : NodeWalk m a ns e) : a + nodeBytes m ns = e := by
  induction h with
  | done e => rfl
  | node a ns e hlt rest ih =>
    have hnext := nodeWalk_next hlt
    unfold nodeBytes at ih ⊢
    rw [List.map_cons, List.sum_cons]
    omega

theorem NodeWalk.length (h : NodeWalk m a ns e) : a + ns.length ≤ e := by
  induction h with
  | done e => exact Nat.le_refl e
  | node a ns e hlt rest ih =>
    rw [List.length_cons]
    omega

theorem NodeWalk.nodup (h : NodeWalk m a ns e) : ns.Nodup := by
  have hge : ∀ {a ns e}, NodeWalk m a ns e → ∀ n ∈ ns, a ≤ n := by
    intro a ns e h
    induction h with
    | done e => exact fun n hn => absurd hn List.not_mem_nil
    | node a ns e hlt rest ih =>
      refine List.forall_mem_cons.mpr ⟨Nat.le_refl a, fun n hn => ?_⟩
      exact hlt.le.trans (ih n hn)
  induction h with
  | done e => exact List.nodup_nil
  | node a ns e hlt rest ih =>
    refine List.nodup_cons.mpr ⟨fun hin => ?_, ih⟩
    exact absurd (hge rest a hin) (Nat.not_le.mpr hlt)

theorem nodeBytes_append (m : Memory) (ns ms : List Nat) :
    nodeBytes m (ns ++ ms) = nodeBytes m ns + nodeBytes m ms := by
  simp [nodeBytes]

theorem nodeBytes_split (m : Memory) (ns : List Nat) :
    nodeBytes m (usedNodes m ns) + nodeBytes m (freeNodes m ns) = nodeBytes m ns := by
  induction ns with
  | nil => rfl
  | cons n ns ih =>
    unfold nodeBytes usedNodes freeNodes at ih ⊢
    by_cases hfree : IsFreeNode m n
    · rw [List.filter_cons_of_neg (by simpa using hfree), List.filter_cons_of_pos (by simpa using hfree)]
      simp only [List.map_cons, List.sum_cons]
      omega
    · rw [List.filter_cons_of_pos (by simpa using hfree), List.filter_cons_of_neg (by simpa using hfree)]
      simp only [List.map_cons, List.sum_cons]
      omega

theorem length_split (m : Memory) (ns : List Nat) :
    (usedNodes m ns).length + (freeNodes m ns).length = ns.length := by
  induction ns with
  | nil => rfl
  | cons n ns ih =>
    unfold usedNodes freeNodes at ih ⊢
    by_cases hfree : IsFreeNode m n
    · rw [List.filter_cons_of_neg (by simpa using hfree), List.filter_cons_of_pos (by simpa using hfree)]
      simp only [List.length_cons]
      omega
    · rw [List.filter_cons_of_pos (by simpa using hfree), List.filter_cons_of_neg (by simpa using hfree)]
      simp only [List.length_cons]
      omega

theorem le_largestNode_iff {k : Nat} (hk : 0 < k) : k ≤ largestNode m ns ↔ ∃ n ∈ ns, k ≤ nodeSize m n := by
  induction ns with
  | nil => simp [largestNode, Nat.not_le.mpr hk]
  | cons n ns ih =>
    have hmax : largestNode m (n :: ns) = max (largestNode m ns) (nodeSize m n) := rfl
    have hle : k ≤ max (largestNode m ns) (nodeSize m n) ↔ k ≤ largestNode m ns ∨ k ≤ nodeSize m n := by omega
    rw [hmax, hle, ih, List.exists_mem_cons_iff]
    exact or_comm

theorem largestNode_append (m : Memory) (ns : List Nat) (n : Nat) :
    largestNode m (ns ++ [n]) = max (largestNode m ns) (nodeSize m n) := by
  induction ns with
  | nil => rfl
  | cons a ns ih =>
    have hmax : largestNode m (a :: ns ++ [n]) = max (largestNode m (ns ++ [n])) (nodeSize m a) := rfl
    have hmax' : largestNode m (a :: ns) = max (largestNode m ns) (nodeSize m a) := rfl
    rw [hmax, hmax', ih, Nat.max_assoc, Nat.max_assoc, Nat.max_comm (nodeSize m n)]

/-! ### The walk -/

theorem osMemInfoGet_statusOf (hbytes : nodeBytes m (ns ++ [n]) < 4294967296)
    (hlength : (ns ++ [n]).length < 4294967296) :
    osMemInfoGet m n (statusOf m ns) = statusOf m (ns ++ [n]) := by
  have hsplit := nodeBytes_split m ns
  have hlen := length_split m ns
  have hsum : nodeBytes m (ns ++ [n]) = nodeBytes m ns + nodeSize m n := by simp [nodeBytes]
  rw [List.length_append, List.length_singleton] at hlength
  have hmax : ∀ x y : Nat, (if x > (if 0 < y then y else 0) then x else if 0 < y then y else 0) = max x y := by
    intro x y
    split <;> split at * <;> omega
  have hsize : osMemNodeGetSize (sizeAndFlag m n) = nodeSize m n := rfl
  unfold osMemInfoGet
  dsimp only
  rw [hsize]
  by_cases hfree : IsFreeNode m n
  · have hused : usedNodes m (ns ++ [n]) = usedNodes m ns := by simp [usedNodes, hfree]
    have hmore : freeNodes m (ns ++ [n]) = freeNodes m ns ++ [n] := by simp [freeNodes, hfree]
    have hlarge := largestNode_append m (freeNodes m ns) n
    have hadd : nodeBytes m (freeNodes m ns ++ [n]) = nodeBytes m (freeNodes m ns) + nodeSize m n := by
      simp [nodeBytes]
    have hflag : decide (osMemNodeGetUsedFlag (sizeAndFlag m n) = 0) = true := decide_eq_true hfree
    unfold statusOf
    rw [hused, hmore, hlarge, hadd, List.length_append, List.length_singleton]
    simp only [hflag, if_true, true_and]
    rw [add32_of_lt _ _ (by omega), add32_of_lt _ _ (by omega), add32_of_lt _ _ (by omega),
      add32_of_lt _ _ (by omega), hmax]
    rfl
  · have hused : usedNodes m (ns ++ [n]) = usedNodes m ns ++ [n] := by simp [usedNodes, hfree]
    have hmore : freeNodes m (ns ++ [n]) = freeNodes m ns := by simp [freeNodes, hfree]
    have hadd : nodeBytes m (usedNodes m ns ++ [n]) = nodeBytes m (usedNodes m ns) + nodeSize m n := by
      simp [nodeBytes]
    have hflag : decide (osMemNodeGetUsedFlag (sizeAndFlag m n) = 0) = false := decide_eq_false hfree
    unfold statusOf
    rw [hused, hmore, hadd, List.length_append, List.length_singleton]
    simp only [hflag, Bool.false_eq_true, if_false, false_and]
    rw [add32_of_lt _ _ (by omega), add32_of_lt _ _ (by omega), add32_of_lt _ _ (by omega),
      add32_of_lt _ _ (by omega)]
    congr 1
    split <;> omega

theorem osMemInfoWalk_eq (h : NodeWalk m a ns e) : ∀ (before : List Nat) (fuel : Nat), ns.length < fuel →
    nodeBytes m (before ++ ns) < 4294967296 → (before ++ ns).length < 4294967296 →
    osMemInfoWalk m e fuel a (statusOf m before) = some (statusOf m (before ++ ns)) := by
  induction h with
  | done e =>
    intro before fuel hfuel _ _
    cases fuel with
    | zero => cases hfuel
    | succ fuel =>
      unfold osMemInfoWalk
      rw [if_neg (Nat.lt_irrefl e), List.append_nil]
  | node a ns e hlt rest ih =>
    intro before fuel hfuel hbytes hlength
    have hend := rest.length
    rw [List.append_cons] at hbytes hlength ⊢
    cases fuel with
    | zero => cases hfuel
    | succ fuel =>
      have hsum := nodeBytes_append m (before ++ [a]) ns
      have hshort : (before ++ [a]).length ≤ (before ++ [a] ++ ns).length :=
        (List.sublist_append_left _ _).length_le
      unfold osMemInfoWalk
      rw [if_pos (by omega), osMemInfoGet_statusOf (by omega) (hshort.trans_lt hlength)]
      exact ih (before ++ [a]) fuel (Nat.lt_of_succ_lt_succ hfuel) hbytes hlength

theorem countFreeList_eq {prev cur : Nat} (l : List Nat) (h : FreeListWalk m prev cur l) (countNum fuel : Nat)
    (hfuel : l.length < fuel) (hcount : countNum + l.length < 4294967296) :
    countFreeList m fuel cur countNum = some (countNum + l.length) := by
  induction l generalizing prev cur countNum fuel with
  | nil =>
    have hzero : cur = 0 := h
    cases fuel with
    | zero => cases hfuel
    | succ fuel =>
      unfold countFreeList
      rw [if_pos hzero]
      rfl
  | cons n l ih =>
    obtain ⟨rfl, hne, _, hrest⟩ := h
    rw [List.length_cons] at hfuel hcount ⊢
    cases fuel with
    | zero => cases hfuel
    | succ fuel =>
      unfold countFreeList
      rw [if_neg hne, add32_of_lt _ _ (by omega), ih hrest (countNum + 1) fuel (by omega) (by omega)]
      congr 1
      omega

theorem mapM_eq_map {α β : Type} {f : α → Option β} {g : α → β} (l : List α) (h : ∀ x ∈ l, f x = some (g x)) :
    l.mapM f = some (l.map g) := by
  induction l with
  | nil => rfl
  | cons x l ih =>
    rw [List.mapM_cons, h x List.mem_cons_self, ih fun y hy => h y (List.mem_cons_of_mem _ hy)]
    rfl

/-! ### A well-formed pool -/

variable {pool size : Nat} {ls : Nat → List Nat}

theorem WellFormed.listed (h : WellFormed m pool size ns ls) :
    ((List.range osMemFreeListCount).map fun i => (ls i).length).sum = (freeNodes m ns).length := by
  have hnodup : (freeNodes m ns).Nodup := h.walk.nodup.filter _
  have hmem : ∀ n, n ∈ freeNodes m ns ↔ n ∈ ns ∧ IsFreeNode m n := fun n => by simp [freeNodes]
  have hmaps : ∀ n ∈ (freeNodes m ns).toFinset, nodeIndex m n ∈ Finset.range osMemFreeListCount := by
    intro n hn
    obtain ⟨hin, hfree⟩ := (hmem n).mp (List.mem_toFinset.mp hn)
    exact Finset.mem_range.mpr (h.index n hin hfree)
  have hfiber : ∀ i ∈ Finset.range osMemFreeListCount,
      ((freeNodes m ns).toFinset.filter fun n => nodeIndex m n = i).card = (ls i).length := by
    intro i hi
    have hi := Finset.mem_range.mp hi
    rw [← List.toFinset_card_of_nodup (h.once i hi)]
    congr 1
    ext n
    rw [Finset.mem_filter, List.mem_toFinset, List.mem_toFinset, hmem, h.member i hi]
    tauto
  have hsum : ∀ (f : Nat → Nat) k, ((List.range k).map f).sum = ∑ i ∈ Finset.range k, f i := by
    intro f k
    induction k with
    | zero => rfl
    | succ k ih => rw [List.range_succ, List.map_append, List.sum_append, Finset.sum_range_succ, ih]; simp
  rw [hsum, ← List.toFinset_card_of_nodup hnodup, Finset.card_eq_sum_card_fiberwise hmaps]
  exact (Finset.sum_congr rfl hfiber).symm

variable {v : Arena}

theorem Rep.isFreeNode (h : Rep pool size m v []) {b : Block} (hb : b ∈ v.blocks) :
    IsFreeNode m b.addr ↔ b.owner = none := (h.node_flags hb).2

theorem Rep.used_eq (h : Rep pool size m v []) :
    nodeBytes m (usedNodes m (v.blocks.map Block.addr)) = v.used := by
  have hfilter : usedNodes m (v.blocks.map Block.addr) =
      (v.blocks.filter fun b => b.owner.any fun _ => decide True).map Block.addr := by
    unfold usedNodes
    rw [List.filter_map]
    congr 1
    refine List.filter_congr fun b hb => ?_
    have hfree := h.isFreeNode hb
    cases ho : b.owner with
    | none => simp [hfree.mpr ho]
    | some q =>
      have hused : ¬IsFreeNode m b.addr := fun hf => by
        rw [hfree.mp hf] at ho
        cases ho
      simp [hused]
  unfold nodeBytes Arena.used usedBy
  rw [hfilter, List.map_map]
  congr 1
  refine List.map_congr_left fun b hb => ?_
  exact (h.node_flags (List.mem_of_mem_filter hb)).1

theorem Rep.room_iff (h : Rep pool size m v []) {s : Nat} (hs : 0 < s) :
    v.Room s ↔ s ≤ largestNode m (freeNodes m (v.blocks.map Block.addr)) := by
  rw [le_largestNode_iff hs]
  constructor
  · rintro ⟨b, hb, hfree, hle⟩
    refine ⟨b.addr, ?_, ?_⟩
    · simp only [freeNodes, List.mem_filter, decide_eq_true_eq]
      exact ⟨List.mem_map_of_mem hb, (h.isFreeNode hb).mpr hfree⟩
    · exact hle.trans_eq (h.node_flags hb).1.symm
  · rintro ⟨n, hn, hle⟩
    simp only [freeNodes, List.mem_filter, decide_eq_true_eq] at hn
    obtain ⟨hin, hfree⟩ := hn
    obtain ⟨b, hb, rfl⟩ := List.mem_map.mp hin
    exact ⟨b, hb, (h.isFreeNode hb).mp hfree, hle.trans_eq (h.node_flags hb).1⟩

theorem Rep.alloc_null_iff (h : Rep pool size m v []) (hlimit : size ≤ 268435456) (hn : n < 4294967296) :
    (losMemAlloc m pool n).2 = 0 ↔
      n = 0 ∨ largestNode m (freeNodes m (v.blocks.map Block.addr)) < allocSizeOf (max n 8) := by
  have hbounds := allocSizeOf_bounds (max n 8)
  rw [← Nat.not_le, ← h.room_iff (by omega)]
  by_cases hrefused : n = 0 ∨ 1073741824 ≤ n
  · refine iff_of_true (congrArg Prod.snd (losMemAlloc_refused m pool n hn hrefused)) ?_
    refine hrefused.imp_right fun hbig => ?_
    rintro ⟨b, hb, _, hle⟩
    have hin := h.layout.bounds b hb
    have hinside := h.layout.region.inside
    have hroom := h.layout.region.room
    omega
  have hpos : n ≠ 0 := fun hz => hrefused (.inl hz)
  rw [losMemAlloc_eq m pool n h.layout.region.nonzero hpos (by omega), or_iff_right hpos]
  rcases osMemFindNextSuitableBlock_complete h hlimit (allocSizeOf (max n 8)) hbounds.2.2 (by omega) (by omega) with
    ⟨hzero, hno⟩ | ⟨a, ha, hfree, hfits, hfound⟩
  · rcases osMemAlloc_base h (max n 8) (by omega) (by omega) with ⟨heq, _⟩ | ⟨v', a, b, ht⟩
    · exact iff_of_true (congrArg Prod.snd heq) hno
    · have hin := (h.layout.bounds a ht.was).1
      have hfound := ht.found
      omega
  · have hin := (h.layout.bounds a ha).1
    refine iff_of_false ?_ (not_not.mpr ⟨a, ha, hfree, hfits⟩)
    rcases osMemAlloc_base h (max n 8) (by omega) (by omega) with ⟨_, hzero⟩ | ⟨v', c, b, ht⟩
    · omega
    · have hptr := ht.ptr
      omega

/-- What the reports say about a heap with the nodes `ns` and the free lists `ls`. -/
structure Observed (m : Memory) (pool size steps : Nat) (ns : List Nat) (ls : Nat → List Nat)
    (poolStatus : MemPoolStatus) (countNum : List Nat) : Prop where
  whole : 952 + poolStatus.totalUsedSize + poolStatus.totalFreeSize = size
  total : losMemTotalUsedGet steps m pool = some poolStatus.totalUsedSize
  nodes : poolStatus.usedNodeNum + poolStatus.freeNodeNum = ns.length
  free : poolStatus.freeNodeNum = (freeNodes m ns).length
  classes : countNum = (List.range osMemFreeListCount).map fun index => (ls index).length
  listed : countNum.sum = poolStatus.freeNodeNum
  fits : ∀ k, 0 < k → (k ≤ poolStatus.maxFreeNodeSize ↔ ∃ n ∈ ns, IsFreeNode m n ∧ k ≤ nodeSize m n)
  refused : ∀ n < 4294967296, (losMemAlloc m pool n).2 = 0 ↔
    n = 0 ∨ poolStatus.maxFreeNodeSize < allocSizeOf (max n 8)
  line : poolStatus.usageWaterLine = waterLine m pool

theorem Rep.observed (h : Rep pool size m v []) (hlimit : size ≤ 268435456) (hself : load32 m pool = pool)
    (poolStatus : MemPoolStatus) {steps : Nat} (hsteps : size ≤ steps) :
    ∃ poolStatus' countNum, losMemInfoGet steps m pool (some poolStatus) = some (some poolStatus', losOk) ∧
      losMemFreeNodeShow steps m pool = some (losOk, countNum) ∧
      Observed m pool size steps (v.blocks.map Block.addr) v.lists poolStatus' countNum := by
  have hwf := h.heapWf
  have hr := h.layout.region
  have hroom := hr.room
  have hinside := hr.inside
  obtain ⟨hfirst, hend⟩ := h.endNode
  have hwalk := hwf.walk
  rw [hfirst, ← h.heads.total, hend] at hwalk
  have hbytes := hwalk.bytes
  have hlength := hwalk.length
  have hstatus := osMemInfoWalk_eq hwalk [] steps (by omega)
    (by rw [List.nil_append]; omega) (by rw [List.nil_append]; omega)
  have hcounts : ∀ index ∈ List.range osMemFreeListCount,
      countFreeList m steps (freeList m pool index) 0 = some (v.lists index).length := by
    intro index hindex
    have hlist := h.layout.list_length index
    rw [List.length_map] at hlength
    have heq := countFreeList_eq (v.lists index) (hwf.lists index (List.mem_range.mp hindex)) 0 steps
      (by omega) (by omega)
    rwa [Nat.zero_add] at heq
  refine ⟨{ statusOf m (v.blocks.map Block.addr) with usageWaterLine := waterLine m pool },
    (List.range osMemFreeListCount).map fun index => (v.lists index).length, ?_, ?_, ?_⟩
  · unfold losMemInfoGet
    dsimp only
    rw [if_neg (by simp [hself, hr.nonzero]), hfirst, hend]
    change (osMemInfoWalk m (pool + size - 8) steps (pool + 944) (statusOf m [])).map _ = _
    rw [hstatus]
    rfl
  · unfold losMemFreeNodeShow
    rw [if_neg (by simp [hself, hr.nonzero]), mapM_eq_map _ hcounts]
    rfl
  have hsplit := nodeBytes_split m (v.blocks.map Block.addr)
  refine ⟨?_, ?_, length_split m _, rfl, rfl, hwf.listed, fun k hk => ?_, fun n hn => h.alloc_null_iff hlimit hn, rfl⟩
  · dsimp only [statusOf]
    omega
  · rw [losMemTotalUsedGet_eq h steps hsteps, ← h.used_eq]
    rfl
  · dsimp only [statusOf]
    rw [le_largestNode_iff hk]
    simp only [freeNodes, List.mem_filter, decide_eq_true_eq, and_assoc]

end

/-- After `LOS_MemInit` and any calls, what the pool reports of itself is right. -/
theorem losMemInfoGet_observed (pool size fuel : Nat) (s s' : MemState) (hroom : 968 ≤ size)
    (hlimit : size ≤ 268435456) (hinside : pool + size ≤ 4294967296)
    (hapart : ∀ q, Registered s.mem s.gPoolHead q → q + 944 ≤ pool ∨ pool + size ≤ q)
    (hinit : losMemInit fuel s pool size = some (s', losOk)) (ops : List HeapOp) (t : HeapState)
    (hrun : Run (HeapStep pool size) ⟨s'.mem, fun _ => none⟩ ops t) (poolStatus : MemPoolStatus) (steps : Nat)
    (hsteps : size ≤ steps) :
    ∃ ns ls poolStatus' countNum, WellFormed t.mem pool size ns ls ∧
      losMemInfoGet steps t.mem pool (some poolStatus) = some (some poolStatus', losOk) ∧
      losMemFreeNodeShow steps t.mem pool = some (losOk, countNum) ∧
      Observed t.mem pool size steps ns ls poolStatus' countNum := by
  obtain ⟨⟨h0, _, hp, hs⟩, _⟩ := losMemInit_accepts fuel s s' hinit
  have h : Region pool size := ⟨h0, hp, hs, hroom, by omega, hinside⟩
  have hself := (losMemInit_words fuel s s' (nextPool_elsewhere s
    (osMemPoolInit_outside h s.mem) hapart) hapart hinit pool hp
    (by omega)).trans (h.osMemPoolInit_first s.mem)
  have hinv := heapInv_init fuel s s' hroom (by omega) hinside hapart hinit
  have horderly : Run (OrderlyStep pool size) ⟨s'.mem, fun _ => none⟩ ops t :=
    run_mono (fun _ op _ hstep => ⟨op.orderly_small hlimit, hstep⟩) hrun
  obtain ⟨⟨v, hv, _⟩, hself⟩ := orderlyRun_inv _ t ops hinv hself horderly
  obtain ⟨poolStatus', countNum, hget, hshow, hobs⟩ := hv.observed hlimit hself poolStatus hsteps
  exact ⟨_, _, poolStatus', countNum, hv.heapWf, hget, hshow, hobs⟩

/-- The first pool with one block of 16 bytes taken. -/
theorem losMemInfoGet_observed_firstPool : ∃ ns ls poolStatus countNum,
    WellFormed (losMemAlloc firstPool.mem 4096 16).1 4096 1024 ns ls ∧
      losMemInfoGet 1024 (losMemAlloc firstPool.mem 4096 16).1 4096 (some ⟨0, 0, 0, 0, 0, 0⟩) =
        some (some poolStatus, losOk) ∧
      losMemFreeNodeShow 1024 (losMemAlloc firstPool.mem 4096 16).1 4096 = some (losOk, countNum) ∧
      Observed (losMemAlloc firstPool.mem 4096 16).1 4096 1024 1024 ns ls poolStatus countNum :=
  losMemInfoGet_observed 4096 1024 1 zeroState firstPool (by omega) (by omega) (by omega)
    (fun q hq => (zeroState_registered q hq).elim) losMemInit_firstPool _ _
    (run_single (HeapStep.alloc ⟨firstPool.mem, fun _ => none⟩ 16 : HeapStep 4096 1024 _ _ _)) _ 1024 (by omega)

end LiteosM.Heap
