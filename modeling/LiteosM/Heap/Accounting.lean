import LiteosM.Heap.WellFormed

/-!
# The statistics of a pool

`curUsedSize` is adjusted in five places, `LOS_MemTotalUsedGet` adds up the used
nodes. They agree as long as no resize grows a node in place: there the size of
the node is read after its used flag was set.
-/

namespace LiteosM.Heap
open Lib.ByteMemory Lib.Word32 Lib.LinkedList Lib.Transition

/-! ### LOS_MemTotalUsedGet -/

def osMemUsedWalk (m : Memory) (endNode : Nat) : Nat → Nat → Nat → Option Nat
  | 0, _, _ => none
  | fuel + 1, tmpNode, memUsed =>
    if tmpNode < endNode then
      osMemUsedWalk m endNode fuel (osMemNextNode m tmpNode)
        (if osMemNodeGetUsedFlag (sizeAndFlag m tmpNode) ≠ 0 then
          add32 memUsed (osMemNodeGetSize (sizeAndFlag m tmpNode)) else memUsed)
    else some memUsed

def losMemTotalUsedGet (fuel : Nat) (m : Memory) (pool : Nat) : Option Nat :=
  if pool = 0 then some losNok
  else osMemUsedWalk m (osMemEndNode pool (totalSize m pool)) fuel (osMemFirstNode pool) 0

/-! ### The bytes of the owned blocks -/

/-- The bytes of the blocks owned through a pointer in `Q`. -/
def usedBy (Q : Nat → Prop) [DecidablePred Q] (bs : List Block) : Nat :=
  ((bs.filter fun b => b.owner.any fun q => decide (Q q)).map Block.size).sum

def Arena.used (v : Arena) : Nat := usedBy (fun _ => True) v.blocks

section
variable {pool size : Nat} {m m' : Memory} {v v' : Arena} {P P' : List Nat} {b c : Block}
  {Q : Nat → Prop} [DecidablePred Q]

theorem usedBy_cons (bs : List Block) :
    usedBy Q (b :: bs) = (if b.owner.any fun q => decide (Q q) then b.size else 0) + usedBy Q bs := by
  unfold usedBy
  rw [List.filter_cons]
  split
  · rw [List.map_cons, List.sum_cons]
  · rw [Nat.zero_add]

theorem usedBy_split (Q : Nat → Prop) [DecidablePred Q] (bs : List Block) :
    usedBy (fun _ => True) bs = usedBy Q bs + usedBy (fun q => ¬Q q) bs := by
  induction bs with
  | nil => rfl
  | cons b bs ih =>
    rw [usedBy_cons, usedBy_cons, usedBy_cons, ih]
    cases b.owner with
    | none => simp
    | some q =>
      by_cases hq : Q q
      · simp [hq]
        omega
      · simp [hq]
        omega

theorem usedBy_congr (bs cs : List Block) (hb : bs.Nodup) (hc : cs.Nodup)
    (h : ∀ b q, b.owner = some q → Q q → (b ∈ bs ↔ b ∈ cs)) : usedBy Q bs = usedBy Q cs := by
  have hperm : (bs.filter fun b => b.owner.any fun q => decide (Q q)).Perm
      (cs.filter fun b => b.owner.any fun q => decide (Q q)) := by
    refine (List.perm_ext_iff_of_nodup (hb.filter _) (hc.filter _)).mpr fun b => ?_
    rw [List.mem_filter, List.mem_filter]
    cases ho : b.owner with
    | none => simp
    | some q =>
      by_cases hq : Q q
      · simp [hq, h b q ho hq]
      · simp [hq]
  exact (hperm.map Block.size).sum_nat

theorem usedBy_none (bs : List Block) (h : ∀ b ∈ bs, ∀ q, b.owner = some q → ¬Q q) :
    usedBy Q bs = 0 := by
  induction bs with
  | nil => rfl
  | cons b bs ih =>
    rw [usedBy_cons, ih fun c hc => h c (List.mem_cons_of_mem _ hc)]
    cases ho : b.owner with
    | none => rfl
    | some q => simp [h b List.mem_cons_self q ho]

theorem usedBy_one (bs : List Block) (hn : bs.Nodup) (hb : b ∈ bs) (q : Nat)
    (ho : b.owner = some q) (hq : Q q) (hone : ∀ c ∈ bs, ∀ q, c.owner = some q → Q q → c = b) :
    usedBy Q bs = b.size := by
  have hsingle : usedBy Q bs = usedBy Q [b] := by
    refine usedBy_congr bs [b] hn (List.nodup_singleton b) fun c r hc hr => ?_
    rw [List.mem_singleton]
    constructor
    · exact fun hmem => hone c hmem r hc hr
    · rintro rfl
      exact hb
  rw [hsingle, usedBy_cons, ho]
  simp [hq, usedBy]

theorem usedBy_le (bs : List Block) : usedBy Q bs ≤ (bs.map Block.size).sum := by
  induction bs with
  | nil => exact le_refl _
  | cons b bs ih =>
    rw [usedBy_cons, List.map_cons, List.sum_cons]
    split
    · omega
    · omega

theorem tile_sum (bs : List Block) (a e : Nat) (ht : Tile a bs e) :
    a + (bs.map Block.size).sum = e := by
  induction bs generalizing a with
  | nil => exact ht
  | cons b bs ih =>
    obtain ⟨rfl, ht⟩ := ht
    rw [List.map_cons, List.sum_cons, ← ih _ ht]
    omega

theorem Layout.blocks_nodup (h : Layout pool size v P) : v.blocks.Nodup :=
  List.Nodup.of_map _ (tile_map_addr_nodup _ _ _ h.tile)

theorem Layout.used_le (h : Layout pool size v P) : 952 + v.used ≤ size := by
  have hroom := h.region.room
  have hsum := tile_sum _ _ _ h.tile
  have hle : v.used ≤ _ := usedBy_le v.blocks
  omega

theorem Keeps.used (k : Keeps pool size Q v m v' m') (h : Layout pool size v P)
    (h' : Layout pool size v' P') :
    v.used + usedBy Q v'.blocks = v'.used + usedBy Q v.blocks := by
  have hrest : usedBy (fun q => ¬Q q) v.blocks = usedBy (fun q => ¬Q q) v'.blocks :=
    usedBy_congr _ _ h.blocks_nodup h'.blocks_nodup fun b q ho hq =>
      ⟨fun hb => (k.stay b hb q ho hq).1, fun hb => k.back b hb q ho hq⟩
  have hsplit := usedBy_split Q v.blocks
  have hsplit' := usedBy_split Q v'.blocks
  unfold Arena.used
  omega

/-! ### The walk -/

theorem osMemUsedWalk_tile (bs : List Block) (a e fuel u : Nat) (ht : Tile a bs e)
    (hf : bs.length < fuel) (hnext : ∀ b ∈ bs, osMemNextNode m b.addr = b.addr + b.size)
    (hflag : ∀ b ∈ bs, osMemNodeGetSize (sizeAndFlag m b.addr) = b.size ∧
      (osMemNodeGetUsedFlag (sizeAndFlag m b.addr) = 0 ↔ b.owner = none))
    (hu : u + usedBy (fun _ => True) bs < 4294967296) :
    osMemUsedWalk m e fuel a u = some (u + usedBy (fun _ => True) bs) := by
  induction bs generalizing a fuel u with
  | nil =>
    have ht : a = e := ht
    cases fuel with
    | zero => cases hf
    | succ fuel =>
      unfold osMemUsedWalk
      rw [if_neg (by omega)]
      rfl
  | cons b bs ih =>
    obtain ⟨rfl, ht⟩ := ht
    have hroom := b.room
    have hle := tile_le _ _ _ ht
    cases fuel with
    | zero => cases hf
    | succ fuel =>
      obtain ⟨hsize, hfree⟩ := hflag b List.mem_cons_self
      have hrest := fun u hu => ih (b.addr + b.size) fuel u ht (by simpa using hf)
        (fun c hc => hnext c (List.mem_cons_of_mem _ hc))
        (fun c hc => hflag c (List.mem_cons_of_mem _ hc)) hu
      rw [usedBy_cons] at hu ⊢
      unfold osMemUsedWalk
      rw [if_pos (by omega), hnext b List.mem_cons_self, hsize]
      cases ho : b.owner with
      | none =>
        rw [ho] at hu
        have hzero := hfree.mpr ho
        rw [if_neg (by simp [hzero]), hrest u (by simpa using hu)]
        simp
      | some q =>
        rw [ho] at hu
        have hused : osMemNodeGetUsedFlag (sizeAndFlag m b.addr) ≠ 0 := fun hz => by
          rw [hfree.mp hz] at ho
          cases ho
        have hu : u + (b.size + usedBy (fun _ => True) bs) < 4294967296 := by simpa using hu
        rw [if_pos hused, add32_of_lt _ _ (by omega), hrest _ (by omega)]
        simp [Nat.add_assoc]

theorem losMemTotalUsedGet_eq (h : Rep pool size m v []) (steps : Nat) (hsteps : size ≤ steps) :
    losMemTotalUsedGet steps m pool = some v.used := by
  have hr := h.layout.region
  have hroom := hr.room
  have hlimit := hr.limit
  have hlen := tile_length _ _ _ h.layout.tile
  have hle := h.layout.used_le
  have hends := h.endNode
  have hwalk := osMemUsedWalk_tile (m := m) v.blocks (pool + 944) (pool + size - 8) steps 0
    h.layout.tile (by omega) (fun b hb => h.next_node hb) (fun b hb => h.node_flags hb)
    (by unfold Arena.used at hle; omega)
  unfold losMemTotalUsedGet
  rw [if_neg hr.nonzero, hends.1, hends.2, hwalk, Nat.zero_add]
  rfl

theorem rep_used (h : Rep pool size m v []) (h' : Rep pool size m v' []) : v.used = v'.used := by
  have heq := losMemTotalUsedGet_eq h size (le_refl _)
  rw [losMemTotalUsedGet_eq h' size (le_refl _)] at heq
  exact (Option.some.inj heq).symm

/-! ### The counters -/

/-- The counters of a pool whose owned blocks are those of `v`. -/
structure Stats (pool size : Nat) (m : Memory) (v : Arena) (peak : Nat) : Prop where
  used : curUsedSize m pool = 952 + v.used
  line : waterLine m pool = peak
  high : 952 + v.used ≤ peak
  limit : peak ≤ size

theorem Stats.steady {peak : Nat} (hs : Stats pool size m v peak) :
    max peak (curUsedSize m pool) = peak := by
  rw [hs.used]
  exact max_eq_left hs.high

theorem Stats.rename {peak : Nat} (hs : Stats pool size m v peak) (h : Rep pool size m v [])
    (h' : Rep pool size m v' []) : Stats pool size m v' peak := by
  have hu := rep_used h h'
  obtain ⟨hused, hline, hhigh, hlimit⟩ := hs
  rw [hu] at hused hhigh
  exact ⟨hused, hline, hhigh, hlimit⟩

theorem Layout.usedBy_owned (h : Layout pool size v P) (hb : b ∈ v.blocks) (p : Nat)
    (ho : b.owner = some p) : usedBy (· = p) v.blocks = b.size := by
  refine usedBy_one v.blocks h.blocks_nodup hb p ho rfl fun c hc q hq hqp => ?_
  rw [hqp] at hq
  exact h.owner_inj p hc hb hq ho

theorem charged_used (h : Rep pool size m v []) (h' : Rep pool size m' v' []) (p : Nat)
    (k : Keeps pool size (· = p) v m v' m') (hfresh : ∀ c ∈ v.blocks, c.owner ≠ some p)
    (hb : b ∈ v'.blocks) (ho : b.owner = some p) : v'.used = v.used + b.size := by
  have hnone : usedBy (· = p) v.blocks = 0 := usedBy_none v.blocks fun c hc q hq hqp => by
    rw [hqp] at hq
    exact hfresh c hc hq
  have hkept := k.used h.layout h'.layout
  rw [hnone, h'.layout.usedBy_owned hb p ho] at hkept
  omega

theorem allocated_stats {peak n : Nat} (h : Rep pool size m v []) (hs : Stats pool size m v peak)
    (r : Memory × Nat) (hr : Allocated pool size m v n r) :
    ∃ v', Rep pool size r.1 v' [] ∧ Stats pool size r.1 v' (max peak (curUsedSize r.1 pool)) := by
  obtain rfl | ⟨v', b, h1, k, hb, ho, _, ⟨a, ha, hab, hafree, hle⟩, hused, hline⟩ := hr
  · refine ⟨v, h, ?_⟩
    rw [hs.steady]
    exact hs
  · have hin := b.inside r.2 ho
    have hgrown := charged_used h h1 r.2 k
      (h.layout.fresh_owner ha hafree r.2 (by omega)) hb ho
    have hle := h1.layout.used_le
    have hlimit := h.layout.region.limit
    have hpeak := hs.limit
    rw [hs.used, add32_of_lt _ _ (by omega)] at hused hline
    rw [hs.line] at hline
    have hcur : curUsedSize r.1 pool = 952 + v'.used := by omega
    refine ⟨v', h1, hcur, ?_, ?_, ?_⟩
    · omega
    · omega
    · omega

theorem freed_stats {peak p : Nat} (h : Rep pool size m v []) (hs : Stats pool size m v peak)
    (hb : b ∈ v.blocks) (ho : b.owner = some p) (hf : Freed pool size m v b p m' v') :
    Stats pool size m' v' (max peak (curUsedSize m' pool)) := by
  have hnone : usedBy (· = p) v'.blocks = 0 := usedBy_none v'.blocks fun c hc q hq hqp => by
    obtain ⟨n, hn, hnfree, hlo, hhi⟩ := hf.gone
    have hin := b.inside p ho
    rw [hqp] at hq
    exact hf.rep.layout.fresh_owner hn hnfree p (by omega) c hc hq
  have hkept := hf.keeps.used h.layout hf.rep.layout
  rw [hnone, h.layout.usedBy_owned hb p ho] at hkept
  have hle := h.layout.used_le
  have hlimit := h.layout.region.limit
  have hhigh := hs.high
  have hpeak := hs.limit
  have hcur := hf.used
  rw [hs.used, sub32_of_le _ _ (by omega) (by omega)] at hcur
  have hline := hf.line.trans hs.line
  exact ⟨by omega, by omega, by omega, by omega⟩

theorem resized_used {p n : Nat} (h : Rep pool size m v []) (hend : pool + size < 4294967296)
    (hb : b ∈ v.blocks) (ho : b.owner = some p) (r : Memory × Nat)
    (hr : Resized pool size m v b p n r v' c) : v'.used + b.size = v.used + c.size := by
  have hkept := hr.keeps.used h.layout hr.rep.layout
  have hold : usedBy (fun x => x = p ∨ x = r.2) v.blocks = b.size := by
    refine usedBy_one v.blocks h.layout.blocks_nodup hb p ho (Or.inl rfl) fun d hd q hq hqr => ?_
    cases hqr with
    | inl hqp =>
      rw [hqp] at hq
      exact h.layout.owner_inj p hd hb hq ho
    | inr hqr =>
      rw [hqr] at hq
      exact hr.fresh d hd hq
  have hnew : usedBy (fun x => x = p ∨ x = r.2) v'.blocks = c.size := by
    refine usedBy_one v'.blocks hr.rep.layout.blocks_nodup hr.mem r.2 hr.owner (Or.inr rfl)
      fun d hd q hq hqr => ?_
    cases hqr with
    | inl hqp =>
      rw [hqp] at hq
      exact hr.gone hend d hd hq
    | inr hqr =>
      rw [hqr] at hq
      exact hr.rep.layout.owner_inj r.2 hd hr.mem hq hr.owner
  rw [hold, hnew] at hkept
  omega

theorem shrunk_stats {peak p n k : Nat} (h : Rep pool size m v []) (hs : Stats pool size m v peak)
    (hend : pool + size < 4294967296) (hb : b ∈ v.blocks) (ho : b.owner = some p)
    (r : Memory × Nat) (hr : Resized pool size m v b p n r v' c)
    (hrec : Recorded pool k m b c r.1) (hfits : allocSizeOf k ≤ b.size) :
    Stats pool size r.1 v' (max peak (curUsedSize r.1 pool)) := by
  have hused := resized_used h hend hb ho r hr
  obtain ⟨hcur, hrest⟩ := hrec
  rw [if_pos hfits] at hrest
  obtain ⟨hline, hle⟩ := hrest
  have hbig := hs.high
  have hpeak := hs.limit
  have hlimit := h.layout.region.limit
  have hblt := h.layout.size_lt b hb
  rw [hs.used, add32_of_lt _ _ (by omega), sub32_of_le _ _ (by omega) (by omega)] at hcur
  have hline := hline.trans hs.line
  exact ⟨by omega, by omega, by omega, by omega⟩

theorem moved_stats {peak p n k : Nat} (h : Rep pool size m v []) (hs : Stats pool size m v peak)
    (hend : pool + size < 4294967296) (hb : b ∈ v.blocks) (ho : b.owner = some p)
    (r : Memory × Nat) (hr : Resized pool size m v b p n r v' c)
    (hrec : Recorded pool k m b c r.1) (hfits : ¬allocSizeOf k ≤ b.size)
    (hal : Allocated pool size m v k (osMemAlloc m pool k)) :
    Stats pool size r.1 v'
      (max peak (max (curUsedSize (osMemAlloc m pool k).1 pool) (curUsedSize r.1 pool))) := by
  have hused := resized_used h hend hb ho r hr
  obtain ⟨hcur, hrest⟩ := hrec
  rw [if_neg hfits] at hrest
  generalize osMemAlloc m pool k = a at hal hrest ⊢
  obtain ⟨w, hw, hsw⟩ := allocated_stats h hs _ hal
  obtain ⟨hline, hboth⟩ := hrest
  have hlimit := h.layout.region.limit
  have hblt := h.layout.size_lt b hb
  have hclt := hr.rep.layout.size_lt c hr.mem
  have hbig := hs.high
  have hpeak := hs.limit
  have hwline := hsw.line
  have hwlimit := hsw.limit
  rw [hs.used, add32_of_lt _ _ (by omega)] at hcur hboth
  rw [sub32_of_le _ _ (by omega) (by omega)] at hcur
  exact ⟨by omega, by omega, by omega, by omega⟩

/-! ### Runs -/

/-- The resize leaves the node, which allocates before it releases. -/
def reallocMoves (m : Memory) (pool ptr n : Nat) : Prop :=
  ptr ≠ 0 ∧ n ≠ 0 ∧ n < 1073741824 ∧
    osMemNodeGetSize (sizeAndFlag m (sub32 (osGetRealPtr m pool ptr) 8)) < allocSizeOf (max n 8) ∧
    ¬growsIntoNext m (sub32 (osGetRealPtr m pool ptr) 8) (max n 8)

instance (m : Memory) (pool ptr n : Nat) : Decidable (reallocMoves m pool ptr n) :=
  inferInstanceAs (Decidable (_ ∧ _))

def HeapOp.reached (pool : Nat) (m m' : Memory) : HeapOp → Nat
  | .realloc ptr n =>
    if reallocMoves m pool ptr n then
      max (curUsedSize (osMemAlloc m pool (max n.val 8)).1 pool) (curUsedSize m' pool)
    else curUsedSize m' pool
  | .alloc _ => curUsedSize m' pool
  | .allocAlign _ _ => curUsedSize m' pool
  | .free _ => curUsedSize m' pool
  | .write _ _ => curUsedSize m' pool

/-- No resize grows the node into its free right neighbour. -/
def HeapOp.staysPut (pool : Nat) (m : Memory) : HeapOp → Prop
  | .realloc ptr n => ptr ≠ 0 → n.val ≠ 0 →
    ¬growsIntoNext m (sub32 (osGetRealPtr m pool ptr) 8) (max n.val 8)
  | .alloc _ => True
  | .allocAlign _ _ => True
  | .free _ => True
  | .write _ _ => True

/-- A step, and the highest `curUsedSize` up to it. -/
def PeakStep (pool size : Nat) (s : HeapState × Nat) (op : HeapOp) (t : HeapState × Nat) : Prop :=
  OrderlyStep pool size s.1 op t.1 ∧ t.2 = max s.2 (op.reached pool s.1.mem t.1.mem)

theorem OrderlyStep.peak {s t : HeapState} {op : HeapOp} (h : OrderlyStep pool size s op t)
    (peak : Nat) : PeakStep pool size (s, peak) op (t, max peak (op.reached pool s.mem t.mem)) :=
  ⟨h, rfl⟩

def AccountStep (pool size : Nat) (s : HeapState × Nat) (op : HeapOp) (t : HeapState × Nat) :
    Prop :=
  op.staysPut pool s.1.mem ∧ PeakStep pool size s op t

/-- What the counters of a pool are for. -/
structure Accounting (pool size : Nat) (m : Memory) (peak : Nat) : Prop where
  used : ∀ steps, size ≤ steps → ∃ u, losMemTotalUsedGet steps m pool = some u ∧
    curUsedSize m pool = osMemPoolHeadSize + osMemNodeHeadSize + u
  line : waterLine m pool = peak
  limit : waterLine m pool ≤ size

theorem Stats.accounting {peak : Nat} (hs : Stats pool size m v peak) (h : Rep pool size m v []) :
    Accounting pool size m peak where
  used steps hsteps := ⟨v.used, losMemTotalUsedGet_eq h steps hsteps, hs.used⟩
  line := hs.line
  limit := by rw [hs.line]; exact hs.limit

/-- The memory represents an arena, and the counters are those of it. -/
def Counted (pool size : Nat) (m : Memory) (peak : Nat) : Prop :=
  ∃ v, Rep pool size m v [] ∧ Stats pool size m v peak

theorem counted_same {peak : Nat} (h : Rep pool size m' v []) (hs : Stats pool size m v peak)
    (hcur : curUsedSize m' pool = curUsedSize m pool)
    (hline : waterLine m' pool = waterLine m pool) :
    Counted pool size m' (max peak (curUsedSize m' pool)) := by
  rw [hcur, hs.steady]
  exact ⟨v, h, hcur.trans hs.used, hline.trans hs.line, hs.high, hs.limit⟩

theorem reached_stays (m m' : Memory) (ptr : Nat) (n : Fin 4294967296)
    (h : ¬reallocMoves m pool ptr n) :
    (HeapOp.realloc ptr n).reached pool m m' = curUsedSize m' pool := if_neg h

theorem losMemFree_stats {peak p : Nat} (h : Rep pool size m v []) (hs : Stats pool size m v peak)
    (hb : b ∈ v.blocks) (ho : b.owner = some p) : Counted pool size (losMemFree m pool p).1
      (max peak (curUsedSize (losMemFree m pool p).1 pool)) := by
  obtain ⟨hm, _⟩ | ⟨v', hf, _⟩ := losMemFree_spec h p hb ho
  · rw [hm]
    exact counted_same h hs rfl rfl
  · exact ⟨v', hf.rep, freed_stats h hs hb ho hf⟩

theorem owned_node (h : Rep pool size m v []) (p : Nat) (hb : b ∈ v.blocks)
    (ho : b.owner = some p) : sub32 (osGetRealPtr m pool p) 8 = b.addr := by
  have hlt := h.layout.bounds b hb
  have hlimit := h.layout.region.inside
  have hbr := b.room
  rw [osGetRealPtr_owned h p hb ho, sub32_of_le _ _ (by omega) (by omega)]
  omega

theorem losMemRealloc_stats {peak p n : Nat} (h : Rep pool size m v [])
    (hs : Stats pool size m v peak) (hend : pool + size < 4294967296) (hb : b ∈ v.blocks)
    (ho : b.owner = some p) (hn0 : n ≠ 0) (hn : n < 4294967296)
    (hord : Orderly size (allocSizeOf n)) (hput : ¬growsIntoNext m b.addr (max n 8)) :
    Counted pool size (losMemRealloc m pool p n).1
      (max peak (if reallocMoves m pool p n then
        max (curUsedSize (osMemAlloc m pool (max n 8)).1 pool)
          (curUsedSize (losMemRealloc m pool p n).1 pool)
        else curUsedSize (losMemRealloc m pool p n).1 pool)) := by
  have hin := b.inside p ho
  have hsize := (h.node_flags hb).1
  have hmoves : reallocMoves m pool p n ↔ n < 1073741824 ∧ b.size < allocSizeOf (max n 8) := by
    unfold reallocMoves
    rw [owned_node h p hb ho, hsize]
    constructor
    · exact fun hm => ⟨hm.2.2.1, hm.2.2.2.1⟩
    · exact fun hm => ⟨by omega, hn0, hm.1, hm.2, hput⟩
  obtain ⟨hz, hserves⟩ | ⟨⟨_, hlim, _⟩, v', c, hres, hrec⟩ :=
    losMemRealloc_cases h hb p ho n hn0 hn (max n 8) (le_refl _) fun hlim hsmall _ =>
      moveFits_orderly h (max n 8) (by omega) (by omega) hsmall (orderly_min n hord)
  · have hnone : reallocMoves m pool p n → osMemAlloc m pool (max n 8) = (m, 0) := by
      intro hm
      obtain ⟨hnone, _⟩ | ⟨w, a, d, ht⟩ :=
        osMemAlloc_base h (max n 8) (by omega) (by have := (hmoves.mp hm).1; omega)
      · exact hnone
      · have hra := h.layout.bounds a ht.was
        have hfound := ht.found
        exact absurd ⟨hn0, (hmoves.mp hm).1, Or.inr (Or.inr (by omega))⟩ (hserves hend)
    rw [hz]
    split
    · next hm =>
      rw [hnone hm, max_self]
      exact counted_same h hs rfl rfl
    · exact counted_same h hs rfl rfl
  · have hrec := hrec hend hput
    by_cases hfits : allocSizeOf (max n 8) ≤ b.size
    · rw [if_neg fun hm => by have := (hmoves.mp hm).2; omega]
      exact ⟨v', hres.rep, shrunk_stats h hs hend hb ho _ hres hrec hfits⟩
    · rw [if_pos (hmoves.mpr ⟨hlim, by omega⟩)]
      exact ⟨v', hres.rep, moved_stats h hs hend hb ho _ hres hrec hfits
        (osMemAlloc_spec h _ (by omega) (by omega) (orderly_min n hord))⟩

theorem heapStep_stats (s t : HeapState) (op : HeapOp) (hend : pool + size < 4294967296)
    (peak : Nat) (hinv : HeapInv pool size s) (hcount : Counted pool size s.mem peak)
    (hput : op.staysPut pool s.mem) (hstep : OrderlyStep pool size s op t) :
    Counted pool size t.mem (max peak (op.reached pool s.mem t.mem)) := by
  obtain ⟨v, h, hlive⟩ := hinv
  obtain ⟨w, hw, hs⟩ := hcount
  have hs := hs.rename hw h
  obtain ⟨hord, hstep⟩ := hstep
  cases hstep with
  | alloc n => exact allocated_stats h hs _ (losMemAlloc_spec h n n.isLt hord)
  | allocAlign n boundary =>
    exact allocated_stats h hs _ (losMemAllocAlign_spec h n boundary n.isLt boundary.isLt hord).1
  | free ptr hptr =>
    obtain ⟨r₀, hr₀⟩ := Option.ne_none_iff_exists'.mp hptr
    obtain ⟨b, hb, ho, _⟩ := hlive ptr r₀ hr₀
    exact losMemFree_stats h hs hb ho
  | reallocNull n =>
    have hstay : ¬reallocMoves s.mem pool 0 n := fun hm => hm.1 rfl
    rw [reached_stays _ _ _ _ hstay]
    obtain hz | ⟨_, he⟩ := losMemRealloc_null s.mem pool n
    · rw [hz]
      exact counted_same h hs rfl rfl
    · rw [he]
      exact allocated_stats h hs _ (losMemAlloc_spec h n n.isLt hord)
  | reallocZero ptr hptr n hn =>
    obtain ⟨r₀, hr₀⟩ := Option.ne_none_iff_exists'.mp hptr
    have hold := hlive ptr r₀ hr₀
    have hstay : ¬reallocMoves s.mem pool ptr n := fun hm => hm.2.1 hn
    rw [reached_stays _ _ _ _ hstay, hn, losMemRealloc_zero h ptr (holds_ne_zero ptr r₀ hold)]
    obtain ⟨b, hb, ho, _⟩ := hold
    exact losMemFree_stats h hs hb ho
  | realloc ptr hptr n hn =>
    obtain ⟨r₀, hr₀⟩ := Option.ne_none_iff_exists'.mp hptr
    have hold := hlive ptr r₀ hr₀
    have hput := hput (holds_ne_zero ptr r₀ hold) hn
    obtain ⟨b, hb, ho, _⟩ := hold
    rw [owned_node h ptr hb ho] at hput
    exact losMemRealloc_stats h hs hend hb ho hn n.isLt hord hput
  | write addr value hmay =>
    cases hmay with
    | inl hpay =>
      obtain ⟨p, r, hp, hlo, hhi⟩ := hpay
      obtain ⟨b, hb, ho, hsb, _⟩ := hlive p r hp
      have hin := b.inside p ho
      have hba := b.aligned
      have hbw := b.whole
      obtain ⟨hrep, hsteady⟩ := h.write_payload hb p ho (store8_touches s.mem addr value)
        fun a ha => by omega
      exact counted_same hrep hs (hsteady.stats _ (Or.inr (Or.inl rfl)))
        (hsteady.stats _ (Or.inl rfl))
    | inr hout =>
      have hroom := h.layout.region.room
      have hout : ∀ x, pool ≤ x → x < pool + size → store8 s.mem addr value x = s.mem x :=
        fun x _ _ => store8_outside _ _ _ _ (by omega)
      exact counted_same (h.write_outside hout) hs
        (load32_congr _ _ _ fun x hlo hhi => hout x (by omega) (by omega))
        (load32_congr _ _ _ fun x hlo hhi => hout x (by omega) (by omega))

theorem accountRun_stats (s t : HeapState × Nat) (ops : List HeapOp)
    (hend : pool + size < 4294967296) (hinv : HeapInv pool size s.1)
    (hcount : Counted pool size s.1.mem s.2) (hrun : Run (AccountStep pool size) s ops t) :
    Counted pool size t.1.mem t.2 := by
  refine (run_invariant (fun s : HeapState × Nat => HeapInv pool size s.1 ∧
    Counted pool size s.1.mem s.2) (fun s op t hI hstep => ?_) hrun ⟨hinv, hcount⟩).2
  obtain ⟨hput, hstep, hpeak⟩ := hstep
  refine ⟨(heapStep_inv s.1 t.1 op hstep.1 hI.1 hstep.2).1, ?_⟩
  rw [hpeak]
  exact heapStep_stats s.1 t.1 op hend s.2 hI.1 hI.2 hput hstep

theorem Region.osMemPoolInit_stats (h : Region pool size) (m : Memory) :
    curUsedSize (osMemPoolInit m pool size) pool = 952 ∧
      waterLine (osMemPoolInit m pool size) pool = 952 := by
  have hp := h.aligned
  unfold curUsedSize waterLine
  rw [h.osMemPoolInit_eq m]
  constructor
  · rw [load32_store32_aligned _ _ _ _ (by omega) (by omega) (by omega)]
    exact load32_store32_same _ _ _ (by omega)
  · exact load32_store32_same _ _ _ (by omega)

end

/-- After `LOS_MemInit` and calls none of which grows a node in place. -/
theorem losMem_accounting (pool size fuel : Nat) (s s' : MemState) (hroom : 968 ≤ size)
    (hlimit : size < 1073742776) (hend : pool + size < 4294967296)
    (hapart : ∀ q, Registered s.mem s.gPoolHead q → q + 944 ≤ pool ∨ pool + size ≤ q)
    (hinit : losMemInit fuel s pool size = some (s', losOk)) (ops : List HeapOp)
    (t : HeapState × Nat) (hrun : Run (AccountStep pool size)
      (⟨s'.mem, fun _ => none⟩, curUsedSize s'.mem pool) ops t) :
    Accounting pool size t.1.mem t.2 := by
  obtain ⟨⟨h0, _, hp, hs⟩, _⟩ := losMemInit_accepts fuel s s' hinit
  have h : Region pool size := ⟨h0, hp, hs, hroom, hlimit, by omega⟩
  have hword := losMemInit_words fuel s s'
    (nextPool_elsewhere s (osMemPoolInit_outside h s.mem) hapart) hapart hinit
  obtain ⟨hcur, hline⟩ := h.osMemPoolInit_stats s.mem
  have hcur := (hword (pool + 16) (by omega) (by omega)).trans hcur
  have hline := (hword (pool + 12) (by omega) (by omega)).trans hline
  have hcur : curUsedSize s'.mem pool = 952 := hcur
  obtain ⟨v, hv, hfree⟩ := losMemInit_rep fuel s s' hroom hlimit (by omega) hapart hinit
  have hzero : v.used = 0 := usedBy_none v.blocks fun b hb q hq => by
    rw [hfree b hb] at hq
    cases hq
  have hstats : Stats pool size s'.mem v (curUsedSize s'.mem pool) := by
    rw [hcur]
    exact ⟨by omega, hline, by omega, by omega⟩
  obtain ⟨w, hw, hsw⟩ := accountRun_stats _ t ops hend
    (heapInv_init fuel s s' hroom hlimit (by omega) hapart hinit) ⟨v, hv, hstats⟩ hrun
  exact hsw.accounting hw

/-- The counters after one allocation in the first pool. -/
theorem losMem_accounting_firstPool :
    Accounting 4096 1024 (losMemAlloc firstPool.mem 4096 64).1
      (max (curUsedSize firstPool.mem 4096)
        (curUsedSize (losMemAlloc firstPool.mem 4096 64).1 4096)) := by
  have hstep : OrderlyStep 4096 1024 ⟨firstPool.mem, fun _ => none⟩ (.alloc 64) _ :=
    ⟨Or.inr (by omega), HeapStep.alloc _ 64⟩
  have haccount : AccountStep 4096 1024 (_, curUsedSize firstPool.mem 4096) (.alloc 64) _ :=
    ⟨trivial, hstep.peak _⟩
  exact losMem_accounting 4096 1024 1 zeroState firstPool (by omega) (by omega) (by omega)
    (fun q hq => (zeroState_registered q hq).elim) losMemInit_firstPool _ _ (run_single haccount)

/-- A block of 8 bytes resized to 24 grows into the rest of the pool. -/
def grownPool : Memory :=
  (losMemRealloc (losMemAlloc firstPool.mem 4096 8).1 4096 5048 24).1

/-- The flag of the node is counted with the 16 bytes. -/
theorem losMemRealloc_counts_flag :
    losMemInit 1 zeroState 4096 1024 = some (firstPool, losOk) ∧
    ∃ t : HeapState × Nat,
      Run (PeakStep 4096 1024) (⟨firstPool.mem, fun _ => none⟩, curUsedSize firstPool.mem 4096)
        [.alloc 8, .realloc 5048 24] t ∧
      t.1.mem = grownPool ∧ ∀ peak, ¬Accounting 4096 1024 grownPool peak := by
  have hptr : (losMemAlloc firstPool.mem 4096 8).2 = 5048 := by decide +kernel
  have hlive : grant (fun _ => none) (losMemAlloc firstPool.mem 4096 8).2 ⟨8, 4⟩ 5048 ≠ none := by
    rw [hptr]
    decide
  have hfirst : OrderlyStep 4096 1024 ⟨firstPool.mem, fun _ => none⟩ (.alloc 8) _ :=
    ⟨Or.inr (by omega), HeapStep.alloc _ 8⟩
  have hsecond : OrderlyStep 4096 1024 ⟨(losMemAlloc firstPool.mem 4096 8).1,
      grant (fun _ => none) (losMemAlloc firstPool.mem 4096 8).2 ⟨8, 4⟩⟩ (.realloc 5048 24) _ :=
    ⟨Or.inr (by omega), HeapStep.realloc _ 5048 hlive 24 (by decide)⟩
  have hwalk : losMemTotalUsedGet 1024 grownPool 4096 = some 32 := by decide +kernel
  have hcur : curUsedSize grownPool 4096 = 2147484632 := by decide +kernel
  refine ⟨rfl, _, run_append (run_single (hfirst.peak _)) (run_single (hsecond.peak _)), rfl, fun peak hacc => ?_⟩
  obtain ⟨u, hu, hused⟩ := hacc.used 1024 (le_refl _)
  rw [hwalk] at hu
  rw [hcur, ← Option.some.inj hu] at hused
  cases hused

end LiteosM.Heap
