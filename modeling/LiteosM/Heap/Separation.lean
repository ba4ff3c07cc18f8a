import LiteosM.Heap.WellFormed

/-!
# Separation of the live payloads
-/

namespace LiteosM.Heap
open Lib.ByteMemory Lib.Word32 Lib.LinkedList Lib.Transition

/-- The payload of the live pointer `p` against the pool, the nodes `ns` met by
walking it, the sentinel and the other payloads. -/
structure PayloadApart (pool size : Nat) (live : Nat → Option Request) (ns : List Nat) (p : Nat)
    (r : Request) : Prop where
  inPool : pool ≤ p ∧ p + r.size ≤ pool + size
  heads : ∀ n ∈ ns, n + osMemNodeHeadSize ≤ p ∨ p + r.size ≤ n
  sentinel : p + r.size ≤ osMemEndNode pool size
  aligned : p % r.boundary = 0
  disjoint : ∀ q r', live q = some r' → q ≠ p → p + r.size ≤ q ∨ q + r'.size ≤ p

section
variable {pool size : Nat} {m : Memory} {v : Arena} {live : Nat → Option Request}

theorem holds_apart (h : Rep pool size m v []) (hlive : ∀ p r, live p = some r → Holds v p r)
    (p : Nat) (r : Request) (hp : live p = some r) :
    PayloadApart pool size live (v.blocks.map Block.addr) p r := by
  obtain ⟨b, hb, ho, hs, ha⟩ := hlive p r hp
  have hin := b.inside p ho
  have hbb := h.layout.bounds b hb
  have hroom := h.layout.region.room
  have hends := h.layout.region.ends
  have hinside := h.layout.region.inside
  refine ⟨by omega, fun n hn => ?_, by rw [hends.2.1]; omega, ha, fun q r' hq hne => ?_⟩
  · obtain ⟨c, hc, rfl⟩ := List.mem_map.mp hn
    have hcr := c.room
    unfold osMemNodeHeadSize
    rcases tile_apart _ _ _ h.layout.tile b c hb hc with h1 | h1 | h1
    · subst h1
      omega
    all_goals omega
  · obtain ⟨c, hc, hco, hcs, _⟩ := hlive q r' hq
    have hin' := c.inside q hco
    rcases tile_apart _ _ _ h.layout.tile b c hb hc with h1 | h1 | h1
    · subst h1
      rw [ho] at hco
      exact absurd (Option.some.inj hco).symm hne
    all_goals omega

theorem heapRun_spares (s t : HeapState) (ops : List HeapOp) (hlimit : size ≤ 268435456)
    (hs : HeapInv pool size s) (p : Nat)
    (r : Request) (hp : s.live p = some r) (hrun : Run (HeapStep pool size) s ops t)
    (hsp : ∀ op ∈ ops, op.spares p r.size) :
    t.live p = some r ∧ ∀ x, p ≤ x → x < p + r.size → t.mem x = s.mem x := by
  induction hrun with
  | nil => exact ⟨hp, fun x _ _ => rfl⟩
  | snoc run last ih =>
    obtain ⟨hmid, hbytes⟩ := ih fun op hop => hsp op (List.mem_append_left _ hop)
    have hinv := heapInv_run _ _ _ hlimit hs run
    obtain ⟨hlast, hbytes'⟩ := (heapStep_inv _ _ _ (HeapOp.orderly_small hlimit _) hinv last).2 p r (hsp _ (by simp)) hmid
    exact ⟨hlast, fun x hlo hhi => (hbytes' x hlo hhi).trans (hbytes x hlo hhi)⟩

end

/-- In every state of a run the live payloads are apart from each other and from
what the allocator keeps in the pool, and whatever follows without naming a
pointer leaves the bytes behind it alone. -/
theorem losMem_separation (pool size fuel : Nat) (s s' : MemState) (hroom : 968 ≤ size)
    (hlimit : size ≤ 268435456) (hinside : pool + size ≤ 4294967296)
    (hapart : ∀ q, Registered s.mem s.gPoolHead q → q + 944 ≤ pool ∨ pool + size ≤ q)
    (hinit : losMemInit fuel s pool size = some (s', losOk)) (ops : List HeapOp) (t : HeapState)
    (hrun : Run (HeapStep pool size) ⟨s'.mem, fun _ => none⟩ ops t) :
    (∃ ns, NodeWalk t.mem (osMemFirstNode pool) ns (osMemEndNode pool size) ∧
      ∀ p r, t.live p = some r → PayloadApart pool size t.live ns p r) ∧
    ∀ ops' u p r, Run (HeapStep pool size) t ops' u → t.live p = some r →
      (∀ op ∈ ops', op.spares p r.size) →
      u.live p = some r ∧ ∀ x, p ≤ x → x < p + r.size → u.mem x = t.mem x := by
  have hinv := heapInv_run _ t ops hlimit
    (heapInv_init fuel s s' hroom (by omega) hinside hapart hinit) hrun
  refine ⟨?_, fun ops' u p r hrun' hp hsp => heapRun_spares t u ops' hlimit hinv p r hp hrun' hsp⟩
  obtain ⟨v, hv, hlive⟩ := hinv
  exact ⟨_, hv.heapWf.walk, holds_apart hv hlive⟩

/-- Three allocations, then a fourth: the payloads of the first three stay. -/
theorem losMem_separation_firstPool :
    ∃ ops t, Run (HeapStep 4096 1024) ⟨firstPool.mem, fun _ => none⟩ ops t ∧
      (∃ ns, NodeWalk t.mem (osMemFirstNode 4096) ns (osMemEndNode 4096 1024) ∧
        ∀ p r, t.live p = some r → PayloadApart 4096 1024 t.live ns p r) ∧
      ∀ p r, t.live p = some r → ∀ x, p ≤ x → x < p + r.size →
        (losMemAlloc t.mem 4096 12).1 x = t.mem x := by
  have hrun := run_append (run_append
    (run_single (HeapStep.alloc ⟨firstPool.mem, fun _ => none⟩ 16 : HeapStep 4096 1024 _ _ _))
    (run_single (HeapStep.allocAlign _ 8 32))) (run_single (HeapStep.reallocNull _ 24))
  have h := losMem_separation 4096 1024 1 zeroState firstPool (by omega) (by omega)
    (by omega) (fun q hq => (zeroState_registered q hq).elim) losMemInit_firstPool _ _ hrun
  refine ⟨_, _, hrun, h.1, fun p r hp x hlo hhi => ?_⟩
  exact (h.2 _ _ p r (run_single (HeapStep.alloc _ 12)) hp (by simp [HeapOp.spares])).2 x hlo hhi

end LiteosM.Heap
