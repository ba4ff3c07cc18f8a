import LiteosM.Heap.WellFormed

/-!
# Releasing twice

The head of a released node keeps no flag, wherever merging left it. The program
cannot reach it through another pointer, so the next use of the old pointer is
refused.
-/

namespace LiteosM.Heap
open Lib.ByteMemory Lib.Word32 Lib.LinkedList Lib.Transition

section
variable {pool size : Nat} {m : Memory} {v : Arena}

/-! ### A pointer behind a head without flags -/

theorem osGetRealPtr_stale (m : Memory) (pool p : Nat) (hp : 8 ≤ p) (hp32 : p < 4294967296)
    (hw : sizeAndFlag m (p - 8) < 1073741824) : osGetRealPtr m pool p = p := by
  have hword : load32 m (p - 8 + 4) < 1073741824 := hw
  have hp4 : p - 8 + 4 = p - 4 := by omega
  rw [hp4] at hword
  have hused : osMemGetGapsizeUsedFlag (load32 m (p - 4)) = 0 :=
    (osMemNodeGetUsedFlag_eq _).trans (by omega)
  have hal : osMemGetGapsizeAlignedFlag (load32 m (p - 4)) = 0 :=
    (osMemNodeGetAlignedFlag_eq _).trans (by omega)
  unfold osGetRealPtr osMemGapsizeCheck
  rw [sub32_of_le p 4 (by omega) hp32]
  simp [hused, hal]

theorem osMemCheckUsedNode_stale (m : Memory) (pool node : Nat)
    (hw : sizeAndFlag m node < 1073741824) : osMemCheckUsedNode m pool node = losNok := by
  have hused : osMemNodeGetUsedFlag (sizeAndFlag m node) = 0 :=
    (osMemNodeGetUsedFlag_eq _).trans (by omega)
  unfold osMemCheckUsedNode
  simp only [hused, ite_true]
  split
  · rfl
  · rfl

theorem losMemFree_stale (m : Memory) (pool p : Nat) (hp : 8 ≤ p) (hp32 : p < 4294967296)
    (hw : sizeAndFlag m (p - 8) < 1073741824) : losMemFree m pool p = (m, losNok) := by
  have hreal := osGetRealPtr_stale m pool p hp hp32 hw
  have hcheck := osMemCheckUsedNode_stale m pool _ hw
  unfold losMemFree
  split
  · rfl
  · simp only [hreal]
    unfold osMemNodeHeadSize osMemFree
    rw [if_neg (by omega), sub32_of_le p 8 hp hp32]
    simp only [hcheck]
    exact if_pos (by decide)

theorem losMemRealloc_stale (m : Memory) (pool p n : Nat) (hp : 8 ≤ p) (hp32 : p < 4294967296)
    (hw : sizeAndFlag m (p - 8) < 1073741824) : losMemRealloc m pool p n = (m, 0) := by
  have hreal := osGetRealPtr_stale m pool p hp hp32 hw
  have hcheck := osMemCheckUsedNode_stale m pool _ hw
  unfold losMemRealloc
  split
  · rfl
  · rw [if_neg (by omega), losMemFree_stale m pool p hp hp32 hw]
    split
    · rfl
    · simp only [hreal]
      unfold osMemNodeHeadSize
      rw [if_neg (by omega), sub32_of_le p 8 hp hp32, hcheck]
      exact if_pos (by decide)

/-! ### What the program may do in between -/

/-- A store to a live payload or outside the pool misses the heads inside a free block. -/
theorem write_keeps_free (h : Rep pool size m v []) (live : Nat → Option Request)
    (hlive : ∀ p r, live p = some r → Holds v p r) {f : Block} (hf : f ∈ v.blocks)
    (hfree : f.owner = none) (addr : Nat) (value : Byte)
    (hmay : InPayload live addr ∨ addr < pool ∨ pool + size ≤ addr) :
    Rep pool size (store8 m addr value) v [] ∧
      ∀ x, f.addr ≤ x → x < f.addr + f.size → store8 m addr value x = m x := by
  have hfb := h.layout.bounds f hf
  rcases hmay with ⟨p, r, hp, hlo, hhi⟩ | hout
  · obtain ⟨b, hb, ho, hs, _⟩ := hlive p r hp
    have hin := b.inside p ho
    have hba := b.aligned
    have hbw := b.whole
    refine ⟨(h.write_payload hb p ho (store8_touches m addr value) fun a ha => by omega).1,
      fun x hxlo hxhi => store8_outside _ _ _ _ ?_⟩
    rcases tile_apart _ _ _ h.layout.tile b f hb hf with h1 | h1 | h1
    · rw [h1, hfree] at ho
      cases ho
    all_goals omega
  · exact ⟨h.write_outside fun x _ _ => store8_outside _ _ _ _ (by omega),
      fun x hxlo hxhi => store8_outside _ _ _ _ (by omega)⟩

theorem writes_keep_free {t u : HeapState} (ops : List HeapOp)
    (hw : ∀ op ∈ ops, ∃ addr value, op = .write addr value)
    (hrun : Run (HeapStep pool size) t ops u) (h : Rep pool size t.mem v [])
    (hlive : ∀ p r, t.live p = some r → Holds v p r) {f : Block} (hf : f ∈ v.blocks)
    (hfree : f.owner = none) :
    Rep pool size u.mem v [] ∧ u.live = t.live ∧
      ∀ x, f.addr ≤ x → x < f.addr + f.size → u.mem x = t.mem x := by
  induction hrun with
  | nil => exact ⟨h, rfl, fun x _ _ => rfl⟩
  | snoc run last ih =>
    obtain ⟨h1, hsame, hx⟩ := ih fun op hop => hw op (List.mem_append_left _ hop)
    obtain ⟨addr, value, rfl⟩ := hw _ (List.mem_append_right _ (List.mem_singleton_self _))
    cases last with
    | write _ _ hmay =>
      obtain ⟨h2, hx'⟩ := write_keeps_free h1 _ (fun p r hp => hlive p r (hsame ▸ hp)) hf hfree
        addr value hmay
      exact ⟨h2, hsame, fun x hlo hhi => (hx' x hlo hhi).trans (hx x hlo hhi)⟩

end

/-- After a release the pointer is refused until the allocator is called again,
whatever the program writes meanwhile. -/
theorem losMemFree_twice (pool size : Nat) (s t u : HeapState) (p : Nat)
    (hinv : HeapInv pool size s) (hgap : osGetRealPtr s.mem pool p = p)
    (hfree : HeapStep pool size s (.free p) t) (hok : (losMemFree s.mem pool p).2 = losOk)
    (ops : List HeapOp) (hw : ∀ op ∈ ops, ∃ addr value, op = .write addr value)
    (hrun : Run (HeapStep pool size) t ops u) :
    losMemFree u.mem pool p = (u.mem, losNok) ∧
      ∀ n, losMemRealloc u.mem pool p n = (u.mem, 0) := by
  obtain ⟨v, h, hlive⟩ := hinv
  cases hfree with
  | free _ hptr =>
    obtain ⟨r, hr⟩ := Option.ne_none_iff_exists'.mp hptr
    obtain ⟨b, hb, ho, _⟩ := hlive p r hr
    have hbase := (osGetRealPtr_owned h p hb ho).symm.trans hgap
    have hbound := (h.layout.size_lt b hb).2
    have hbr := b.room
    have hba := b.aligned
    rw [if_pos hok] at hrun
    obtain ⟨_, hne, _⟩ | ⟨v', hf, _⟩ := losMemFree_spec h p hb ho
    · exact absurd hok hne
    · obtain ⟨f, hfm, hffree, hflo, hfhi⟩ := hf.gone
      obtain ⟨_, _, hx⟩ :=
        writes_keep_free ops hw hrun hf.rep (released_holds hlive p hf.keeps) hfm hffree
      have hstale : sizeAndFlag u.mem (p - 8) < 1073741824 := by
        have hsame : sizeAndFlag u.mem b.addr = sizeAndFlag (losMemFree s.mem pool p).1 b.addr :=
          load32_congr _ _ _ fun x hlo hhi => hx x (by omega) (by omega)
        have hpb : p - 8 = b.addr := by omega
        rw [hpb, hsame]
        exact hf.stale
      exact ⟨losMemFree_stale _ _ _ (by omega) (by omega) hstale,
        fun n => losMemRealloc_stale _ _ _ n (by omega) (by omega) hstale⟩

/-- The first pointer of the first pool, released twice. -/
theorem losMemFree_twice_firstPool :
    losMemFree (losMemFree (losMemAlloc firstPool.mem 4096 16).1 4096 5048).1 4096 5048 =
      ((losMemFree (losMemAlloc firstPool.mem 4096 16).1 4096 5048).1, losNok) := by
  have hinit := heapInv_init 1 zeroState firstPool (by omega) (by omega) (by omega)
    (fun q hq => (zeroState_registered q hq).elim) losMemInit_firstPool
  have hstep : HeapStep 4096 1024 ⟨firstPool.mem, fun _ => none⟩ (.alloc 16) _ :=
    HeapStep.alloc _ 16
  have hinv := (heapStep_inv _ _ _ (HeapOp.orderly_small (by omega) _) hinit hstep).1
  have hptr : (losMemAlloc firstPool.mem 4096 16).2 = 5048 := by decide +kernel
  have hfree : HeapStep 4096 1024 ⟨(losMemAlloc firstPool.mem 4096 16).1,
      grant (fun _ => none) (losMemAlloc firstPool.mem 4096 16).2 ⟨16, 4⟩⟩ (.free 5048) _ :=
    HeapStep.free _ 5048 (by simp [hptr, grant])
  have htwice := losMemFree_twice 4096 1024 _ _ _ 5048 hinv (by decide +kernel) hfree
    (by decide +kernel) [] (by simp) Run.nil
  exact htwice.1

end LiteosM.Heap
