import LiteosM.Heap.WellFormed

/-!
# The integrity check

`LOS_MemIntegrityCheck` walks the nodes and the free lists. Where it looks at the
links of a free node it takes the `NULL` at either end of a list for an address
outside the pool, so it panics on every pool that has a free node.
-/

namespace LiteosM.Heap
open Lib.ByteMemory Lib.Word32 Lib.LinkedList Lib.Transition

/-! ### The check -/

def osMemAddrValidCheckPrint (m : Memory) (pool tmpNode : Nat) : Nat :=
  if osMemAddrValidCheck m pool (freePrev m tmpNode) = false then losNok
  else if osMemAddrValidCheck m pool (freeNext m tmpNode) = false then losNok
  else losOk

def osMemIntegrityCheckSub (m : Memory) (tmpNode pool : Nat) : Nat :=
  if osMemAddrValidCheck m pool (prevOf m tmpNode) = false then losNok
  else if osMemNodeGetUsedFlag (sizeAndFlag m tmpNode) = 0 ∧
      osMemAddrValidCheckPrint m pool tmpNode ≠ losOk then losNok
  else losOk

def osMemFreeListNodeCheck (m : Memory) (pool node : Nat) : Nat :=
  if osMemAddrValidCheck m pool node = false ∨
      (freePrev m node ≠ 0 ∧ osMemAddrValidCheck m pool (freePrev m node) = false) ∨
      (freeNext m node ≠ 0 ∧ osMemAddrValidCheck m pool (freeNext m node) = false) ∨
      osMemAddrValidCheck m pool (prevOf m node) = false then losNok
  else if osMemIsAligned node 4 = false ∨ osMemIsAligned (freePrev m node) 4 = false ∨
      osMemIsAligned (freeNext m node) 4 = false ∨ osMemIsAligned (prevOf m node) 4 = false then
    losNok
  else losOk

/-- One free list: whether a node of it was printed, `none` when the fuel runs out. -/
def osMemFreeListCheck (m : Memory) (pool : Nat) : Nat → Nat → Option Bool
  | 0, _ => none
  | fuel + 1, tmpNode =>
    if tmpNode = 0 then some false
    else (osMemFreeListCheck m pool fuel (freeNext m tmpNode)).map fun flag =>
      flag || decide (osMemFreeListNodeCheck m pool tmpNode ≠ losOk)

/-- The check of the pool head only prints. -/
def osMemPoolHeadCheck (fuel : Nat) (m : Memory) (pool : Nat) : Option Bool :=
  if load32 m pool ≠ pool ∨ osMemIsAligned pool 4 = false then some true
  else (List.range osMemFreeListCount).foldlM (fun flag index =>
    (osMemFreeListCheck m pool fuel (freeList m pool index)).map (flag || ·)) false

/-- The loop of `OsMemIntegrityCheck`: the status, and where `tmpNode` and `preNode` stand. -/
def osMemIntegrityWalk (m : Memory) (pool endNode : Nat) : Nat → Nat → Nat → Option (Nat × Nat × Nat)
  | 0, _, _ => none
  | fuel + 1, tmpNode, preNode =>
    if tmpNode < endNode then
      if osMemIntegrityCheckSub m tmpNode pool = losNok then some (losNok, tmpNode, preNode)
      else osMemIntegrityWalk m pool endNode fuel (osMemNextNode m tmpNode) tmpNode
    else some (losOk, tmpNode, preNode)

/-- How the check ends: it returns a status, or it prints the node it stopped at and
the one before it and goes into `LOS_Panic`, from which nothing returns. -/
inductive CheckEnd
  | returned (ret : Nat) (printed : Bool)
  | panicked (tmpNode preNode : Nat)
  deriving DecidableEq

def losMemIntegrityCheck (fuel : Nat) (m : Memory) (pool : Nat) : Option CheckEnd :=
  if pool = 0 then some (.returned losNok false)
  else
    match osMemPoolHeadCheck fuel m pool with
    | none => none
    | some printed =>
      match osMemIntegrityWalk m pool (osMemEndNode pool (totalSize m pool)) fuel
          (osMemFirstNode pool) (osMemFirstNode pool) with
      | none => none
      | some (ret, tmpNode, preNode) =>
        if ret ≠ losOk then some (.panicked tmpNode preNode) else some (.returned losOk printed)

section
variable {pool size : Nat} {m : Memory} {v : Arena} {P : List Nat} {b : Block}

/-! ### One node -/

theorem Rep.addr_valid (h : Rep pool size m v P) (hend : pool + size < 4294967296) (addr : Nat) :
    osMemAddrValidCheck m pool addr = decide (pool + 944 ≤ addr ∧ addr < pool + size) := by
  have hroom := h.layout.region.room
  unfold osMemAddrValidCheck osMemMiddleAddrOpenEnd osMemPoolHeadSize
  rw [h.heads.total, add32_of_lt _ _ (by omega), add32_of_lt _ _ hend, ← Bool.decide_and]

theorem osMemIntegrityCheckSub_used (h : Rep pool size m v P) (hend : pool + size < 4294967296)
    (hb : b ∈ v.blocks) (hused : b.owner ≠ none) : osMemIntegrityCheckSub m b.addr pool = losOk := by
  have hprev := decide_eq_true (h.prev_bounds hb)
  have hflag : osMemNodeGetUsedFlag (sizeAndFlag m b.addr) ≠ 0 :=
    fun hz => hused ((h.node_flags hb).2.mp hz)
  unfold osMemIntegrityCheckSub
  rw [h.addr_valid hend, hprev, if_neg (by simp), if_neg fun hz => hflag hz.1]

/-- The head of a free list does not: its `prev` is `NULL`. -/
theorem osMemIntegrityCheckSub_head (h : Rep pool size m v []) (hend : pool + size < 4294967296)
    (hb : b ∈ v.blocks) (hfree : b.owner = none) (hhead : freePrev m b.addr = 0) :
    osMemIntegrityCheckSub m b.addr pool = losNok := by
  have hprev := decide_eq_true (h.prev_bounds hb)
  have hflag := (h.node_flags hb).2.mpr hfree
  have hnull : osMemAddrValidCheck m pool 0 = false := by
    rw [h.addr_valid hend]
    exact decide_eq_false (by omega)
  have hprint : osMemAddrValidCheckPrint m pool b.addr ≠ losOk := by
    unfold osMemAddrValidCheckPrint
    rw [hhead, hnull, if_pos rfl]
    decide
  unfold osMemIntegrityCheckSub
  rw [h.addr_valid hend, hprev, if_neg (by simp), if_pos ⟨hflag, hprint⟩]

theorem Rep.list_head (h : Rep pool size m v []) (hb : b ∈ v.blocks) (hfree : b.owner = none) :
    ∃ c ∈ v.blocks, c.owner = none ∧ freePrev m c.addr = 0 := by
  have hlt := sizeClass_lt b.size (h.layout.size_lt b hb).1
  have hmem := h.layout.filed b hb hfree List.not_mem_nil
  have hwalk := h.freeListWalk (sizeClass b.size) (by omega)
  cases hl : v.lists (sizeClass b.size) with
  | nil =>
    rw [hl] at hmem
    cases hmem
  | cons n l =>
    rw [hl] at hwalk
    obtain ⟨_, c, hc, hcn, hcfree, _⟩ := h.layout.member (sizeClass b.size) n (by simp [hl])
    exact ⟨c, hc, hcfree, by rw [hcn]; exact hwalk.2.2.1⟩

/-! ### The walks -/

theorem osMemIntegrityWalk_tile (pool : Nat) (bs : List Block) (a e fuel pre : Nat) (ht : Tile a bs e)
    (hf : bs.length < fuel) (hnext : ∀ b ∈ bs, osMemNextNode m b.addr = b.addr + b.size) :
    ∃ ret tmpNode preNode, osMemIntegrityWalk m pool e fuel a pre = some (ret, tmpNode, preNode) ∧
      if ∀ b ∈ bs, osMemIntegrityCheckSub m b.addr pool ≠ losNok then ret = losOk
      else ret = losNok ∧ ∃ b ∈ bs, b.addr = tmpNode ∧ osMemIntegrityCheckSub m b.addr pool = losNok := by
  induction bs generalizing a fuel pre with
  | nil =>
    have ht : a = e := ht
    cases fuel with
    | zero => cases hf
    | succ fuel =>
      unfold osMemIntegrityWalk
      rw [if_neg (by omega)]
      refine ⟨_, _, _, rfl, ?_⟩
      rw [if_pos fun b hb => absurd hb List.not_mem_nil]
  | cons b bs ih =>
    obtain ⟨rfl, ht⟩ := ht
    have hroom := b.room
    have hle := tile_le _ _ _ ht
    cases fuel with
    | zero => cases hf
    | succ fuel =>
      unfold osMemIntegrityWalk
      rw [if_pos (by omega)]
      by_cases hbad : osMemIntegrityCheckSub m b.addr pool = losNok
      · rw [if_pos hbad]
        refine ⟨_, _, _, rfl, ?_⟩
        rw [if_neg fun hall => hall b List.mem_cons_self hbad]
        exact ⟨rfl, b, List.mem_cons_self, rfl, hbad⟩
      · obtain ⟨ret, tmpNode, preNode, hwalk, hret⟩ := ih _ fuel b.addr ht (by simpa using hf)
          fun c hc => hnext c (List.mem_cons_of_mem _ hc)
        rw [if_neg hbad, hnext b List.mem_cons_self, hwalk]
        refine ⟨_, _, _, rfl, ?_⟩
        by_cases hall : ∀ c ∈ bs, osMemIntegrityCheckSub m c.addr pool ≠ losNok
        · rw [if_pos hall] at hret
          rw [if_pos fun c hc => (List.mem_cons.mp hc).elim (fun h => h ▸ hbad) (hall c)]
          exact hret
        · rw [if_neg hall] at hret
          obtain ⟨hret, c, hc, hstop⟩ := hret
          rw [if_neg fun h => hall fun c hc => h c (List.mem_cons_of_mem _ hc)]
          exact ⟨hret, c, List.mem_cons_of_mem _ hc, hstop⟩

theorem osMemFreeListCheck_ends (h : Rep pool size m v P) (i : Nat) (hi : i < 223)
    (l₁ l₂ : List Nat) (hl : v.lists i = l₁ ++ l₂) (fuel : Nat) (hf : l₂.length < fuel) :
    ∃ flag, osMemFreeListCheck m pool fuel (l₂.headD 0) = some flag ∧ (l₂ = [] → flag = false) := by
  induction l₂ generalizing l₁ fuel with
  | nil =>
    cases fuel with
    | zero => cases hf
    | succ fuel => exact ⟨false, rfl, fun _ => rfl⟩
  | cons n l₂ ih =>
    cases fuel with
    | zero => cases hf
    | succ fuel =>
      obtain ⟨_, h0⟩ := h.layout.listed_addr i n (by simp [hl])
      have hlinks := h.lists.links i hi
      rw [hl] at hlinks
      have hnext := (links_cell hlinks).1
      rw [freeLinks, if_neg h0] at hnext
      obtain ⟨flag, hflag, _⟩ := ih (l₁ ++ [n]) (by simp [hl]) fuel (by simpa using hf)
      unfold osMemFreeListCheck
      rw [List.headD_cons, if_neg h0, hnext, hflag]
      exact ⟨_, rfl, fun hnil => by cases hnil⟩

theorem foldlM_printed (f : Nat → Option Bool) (l : List Nat) (hf : ∀ i ∈ l, ∃ flag, f i = some flag)
    (flag : Bool) : ∃ r, l.foldlM (fun flag i => (f i).map (flag || ·)) flag = some r ∧
      (flag = false → (∀ i ∈ l, f i = some false) → r = false) := by
  induction l generalizing flag with
  | nil => exact ⟨flag, rfl, fun hflag _ => hflag⟩
  | cons i l ih =>
    obtain ⟨x, hx⟩ := hf i List.mem_cons_self
    obtain ⟨r, hr, hfalse⟩ := ih (fun j hj => hf j (List.mem_cons_of_mem _ hj)) (flag || x)
    refine ⟨r, ?_, fun hflag hall => ?_⟩
    · rw [List.foldlM_cons, hx]
      exact hr
    · have hxf := hall i List.mem_cons_self
      rw [hx] at hxf
      refine hfalse ?_ fun j hj => hall j (List.mem_cons_of_mem _ hj)
      rw [hflag, Option.some.inj hxf]
      rfl

theorem Layout.list_length (h : Layout pool size v P) (i : Nat) :
    (v.lists i).length ≤ v.blocks.length := by
  have hsub : v.lists i ⊆ v.blocks.map Block.addr := fun n hn => by
    obtain ⟨_, b, hb, rfl, _⟩ := h.member i n hn
    exact List.mem_map_of_mem hb
  have hlen := (List.subperm_of_subset (h.nodup i) hsub).length_le
  rwa [List.length_map] at hlen

/-- The check of a well-formed pool returns exactly when no node is free; else it
panics at a free one. -/
theorem losMemIntegrityCheck_eq (h : Rep pool size m v []) (hend : pool + size < 4294967296)
    (hself : load32 m pool = pool) (fuel : Nat) (hfuel : size ≤ fuel) :
    if ∀ b ∈ v.blocks, b.owner ≠ none then
      losMemIntegrityCheck fuel m pool = some (.returned losOk false)
    else ∃ b ∈ v.blocks, b.owner = none ∧
      ∃ preNode, losMemIntegrityCheck fuel m pool = some (.panicked b.addr preNode) := by
  have hr := h.layout.region
  have hroom := hr.room
  have hlen := tile_length _ _ _ h.layout.tile
  have hends := h.endNode
  have hlists : ∀ i < 223, ∃ flag, osMemFreeListCheck m pool fuel (freeList m pool i) = some flag ∧
      (v.lists i = [] → flag = false) := by
    intro i hi
    have hhead : freeList m pool i = (v.lists i).headD 0 := links_head (h.lists.links i hi)
    have hlist := h.layout.list_length i
    rw [hhead]
    exact osMemFreeListCheck_ends h i hi [] (v.lists i) rfl fuel (by omega)
  have hprinted := foldlM_printed (fun i => osMemFreeListCheck m pool fuel (freeList m pool i))
    (List.range osMemFreeListCount) (fun i hi => by
      obtain ⟨flag, hflag, _⟩ := hlists i (List.mem_range.mp hi)
      exact ⟨flag, hflag⟩) false
  obtain ⟨printed, hprinted, hsilent⟩ := hprinted
  have hhead : osMemPoolHeadCheck fuel m pool = some printed := by
    unfold osMemPoolHeadCheck
    rw [if_neg, hprinted]
    rw [osMemIsAligned_four]
    simp [hself, hr.aligned]
  obtain ⟨ret, tmpNode, preNode, hwalk, hret⟩ := osMemIntegrityWalk_tile pool v.blocks _ _
    fuel (osMemFirstNode pool) h.layout.tile (by omega) fun b hb => h.next_node hb
  have hcheck : losMemIntegrityCheck fuel m pool =
      if ret ≠ losOk then some (.panicked tmpNode preNode) else some (.returned losOk printed) := by
    unfold losMemIntegrityCheck
    rw [if_neg hr.nonzero, hhead]
    rw [← hends.2] at hwalk
    simp only [hends.1] at hwalk ⊢
    rw [hwalk]
  rw [hcheck]
  by_cases hall : ∀ b ∈ v.blocks, b.owner ≠ none
  · have hpass : ∀ b ∈ v.blocks, osMemIntegrityCheckSub m b.addr pool ≠ losNok := fun b hb => by
      rw [osMemIntegrityCheckSub_used h hend hb (hall b hb)]
      decide
    have hempty : ∀ i ∈ List.range osMemFreeListCount,
        osMemFreeListCheck m pool fuel (freeList m pool i) = some false := by
      intro i hi
      obtain ⟨flag, hflag, hnil⟩ := hlists i (List.mem_range.mp hi)
      rw [hflag, hnil ?_]
      cases hl : v.lists i with
      | nil => rfl
      | cons n l =>
        obtain ⟨_, b, hb, _, hfree, _⟩ := h.layout.member i n (by simp [hl])
        exact absurd hfree (hall b hb)
    rw [if_pos hpass] at hret
    rw [if_pos hall, hret, hsilent rfl hempty]
    rfl
  · have hfail : ¬∀ b ∈ v.blocks, osMemIntegrityCheckSub m b.addr pool ≠ losNok := fun hpass => by
      refine hall fun b hb hfree => ?_
      obtain ⟨c, hc, hcfree, hhead⟩ := h.list_head hb hfree
      exact hpass c hc (osMemIntegrityCheckSub_head h hend hc hcfree hhead)
    rw [if_neg hfail] at hret
    obtain ⟨hret, b, hb, rfl, hbad⟩ := hret
    rw [if_neg hall, hret]
    refine ⟨b, hb, by_contra fun hused => ?_, preNode, rfl⟩
    rw [osMemIntegrityCheckSub_used h hend hb hused] at hbad
    cases hbad

theorem orderlyRun_inv (s t : HeapState) (ops : List HeapOp) (hs : HeapInv pool size s)
    (hself : load32 s.mem pool = pool) (hrun : Run (OrderlyStep pool size) s ops t) :
    HeapInv pool size t ∧ load32 t.mem pool = pool :=
  run_invariant (fun s => HeapInv pool size s ∧ load32 s.mem pool = pool)
    (fun s a t hI hstep => ⟨(heapStep_inv s t a hstep.1 hI.1 hstep.2).1,
      (heapStep_first s t a hI.1 hstep).trans hI.2⟩) hrun ⟨hs, hself⟩

end

/-- The check returns `LOS_OK` in silence exactly when no node of the pool is free.
Otherwise it does not return at all. -/
def AlarmsWhenFree (pool size steps : Nat) (m : Memory) : Prop :=
  ∃ ns ls, WellFormed m pool size ns ls ∧
    (losMemIntegrityCheck steps m pool = some (.returned losOk false) ↔
      ∀ n ∈ ns, ¬IsFreeNode m n) ∧
    ∀ n ∈ ns, IsFreeNode m n → ∃ tmpNode ∈ ns, IsFreeNode m tmpNode ∧
      ∃ preNode, losMemIntegrityCheck steps m pool = some (.panicked tmpNode preNode)

/-- So it is after `LOS_MemInit` and any calls. -/
theorem losMemIntegrityCheck_alarm (pool size fuel : Nat) (s s' : MemState) (hroom : 968 ≤ size)
    (hlimit : size < 1073742776) (hend : pool + size < 4294967296)
    (hapart : ∀ q, Registered s.mem s.gPoolHead q → q + 944 ≤ pool ∨ pool + size ≤ q)
    (hinit : losMemInit fuel s pool size = some (s', losOk)) (ops : List HeapOp) (t : HeapState)
    (hrun : Run (OrderlyStep pool size) ⟨s'.mem, fun _ => none⟩ ops t) (steps : Nat)
    (hsteps : size ≤ steps) :
    AlarmsWhenFree pool size steps t.mem := by
  obtain ⟨⟨h0, _, hp, hs⟩, _⟩ := losMemInit_accepts fuel s s' hinit
  have h : Region pool size := ⟨h0, hp, hs, hroom, hlimit, by omega⟩
  have hself := (losMemInit_words fuel s s' (nextPool_elsewhere s
    (osMemPoolInit_outside h s.mem) hapart) hapart hinit pool hp
    (by omega)).trans (h.osMemPoolInit_first s.mem)
  obtain ⟨⟨v, hv, _⟩, hself⟩ := orderlyRun_inv _ t ops
    (heapInv_init fuel s s' hroom hlimit (by omega) hapart hinit) hself hrun
  refine ⟨_, _, hv.heapWf, ?_⟩
  have hfree : (∀ n ∈ v.blocks.map Block.addr, ¬IsFreeNode t.mem n) ↔
      ∀ b ∈ v.blocks, b.owner ≠ none := by
    rw [List.forall_mem_map]
    exact forall₂_congr fun b hb => not_congr (hv.node_flags hb).2
  have hcheck := losMemIntegrityCheck_eq hv hend hself steps hsteps
  rw [hfree]
  by_cases hall : ∀ b ∈ v.blocks, b.owner ≠ none
  · rw [if_pos hall] at hcheck
    exact ⟨iff_of_true hcheck hall, fun n hn hf => absurd hf (hfree.mpr hall n hn)⟩
  · rw [if_neg hall] at hcheck
    obtain ⟨b, hb, hbfree, preNode, hcheck⟩ := hcheck
    refine ⟨iff_of_false (fun hreturns => ?_) hall, fun _ _ _ => ⟨b.addr, List.mem_map_of_mem hb,
      (hv.node_flags hb).2.mpr hbfree, preNode, hcheck⟩⟩
    rw [hcheck] at hreturns
    cases hreturns

/-- The first pool with all of it taken by one block passes. Once the block is freed
the check panics. -/
theorem losMemIntegrityCheck_alarm_firstPool :
    let taken := (losMemAlloc firstPool.mem 4096 64).1
    let given := (losMemFree taken 4096 5048).1
    (AlarmsWhenFree 4096 1024 1024 taken ∧
      losMemIntegrityCheck 1024 taken 4096 = some (.returned losOk false)) ∧
    AlarmsWhenFree 4096 1024 1024 given ∧
      losMemIntegrityCheck 1024 given 4096 = some (.panicked 5040 5040) := by
  have hptr : (losMemAlloc firstPool.mem 4096 64).2 = 5048 := by decide +kernel
  have hlive : grant (fun _ => none) (losMemAlloc firstPool.mem 4096 64).2 ⟨64, 4⟩ 5048 ≠ none := by
    rw [hptr]
    exact Option.some_ne_none _
  have htaken : OrderlyStep 4096 1024 ⟨firstPool.mem, fun _ => none⟩ (.alloc 64) _ :=
    ⟨Or.inr (by omega), HeapStep.alloc _ 64⟩
  have hgiven : OrderlyStep 4096 1024 ⟨(losMemAlloc firstPool.mem 4096 64).1,
      grant (fun _ => none) (losMemAlloc firstPool.mem 4096 64).2 ⟨64, 4⟩⟩ (.free 5048) _ :=
    ⟨trivial, HeapStep.free _ 5048 hlive⟩
  have hright := fun ops t hrun => losMemIntegrityCheck_alarm 4096 1024 1 zeroState firstPool
    (by omega) (by omega) (by omega) (fun q hq => (zeroState_registered q hq).elim)
    losMemInit_firstPool ops t hrun 1024 (le_refl _)
  exact ⟨⟨hright _ _ (run_single htaken), by decide +kernel⟩,
    hright _ _ (run_append (run_single htaken) (run_single hgiven)), by decide +kernel⟩

/-- Freshly formatted, it ends in a panic. -/
theorem losMemIntegrityCheck_firstPool :
    losMemInit 1 zeroState 4096 1024 = some (firstPool, losOk) ∧
      losMemIntegrityCheck 1024 firstPool.mem 4096 = some (.panicked 5040 5040) :=
  ⟨rfl, by decide +kernel⟩

end LiteosM.Heap
