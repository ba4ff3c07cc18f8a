import LiteosM.Heap.Floor

/-!
# Releasing everything

A pool nobody owns a block of has no two neighbours left to merge, so it is the
pool as it was formatted. And after any calls an owned block has a live pointer.
-/

namespace LiteosM.Heap
open Lib.ByteMemory Lib.Word32 Lib.LinkedList Lib.Transition

def freeAll (m : Memory) (pool : Nat) (ptrs : List Nat) : Memory :=
  ptrs.foldl (fun m p => (losMemFree m pool p).1) m

/-- The free lists, the bitmap and the heads of the first node and the sentinel agree. -/
structure SamePool (pool size : Nat) (m m₀ : Memory) : Prop where
  heads : ∀ i < osMemFreeListCount, freeList m pool i = freeList m₀ pool i
  bitmap : ∀ w < 7, freeListBitmap m pool w = freeListBitmap m₀ pool w
  first : ∀ i < 4, load32 m (osMemFirstNode pool + 4 * i) = load32 m₀ (osMemFirstNode pool + 4 * i)
  last : ∀ i < 2, load32 m (osMemEndNode pool size + 4 * i) =
    load32 m₀ (osMemEndNode pool size + 4 * i)

/-- The pool is as it was in `m₀`: one node, one list entry, one bit. -/
structure Coalesced (pool size : Nat) (m m₀ : Memory) : Prop where
  same : SamePool pool size m m₀
  wellFormed : WellFormed m pool size [osMemFirstNode pool]
    (Function.update (fun _ => []) (osMemFreeListIndexGet (size - 952)) [osMemFirstNode pool])

section
variable {pool size : Nat} {m m₀ m' : Memory} {v v' : Arena} {P : List Nat}
  {live : Nat → Option Request}

/-! ### A pool nobody owns a block of -/

theorem Layout.unowned_blocks (h : Layout pool size v []) (hnone : ∀ b ∈ v.blocks, b.owner = none) :
    v.blocks = [h.region.block] := by
  have hroom := h.region.room
  have htile := h.tile
  have hapart := h.apart
  cases hv : v.blocks with
  | nil =>
    rw [hv] at htile
    have htile : pool + 944 = pool + size - 8 := htile
    omega
  | cons b bs =>
    rw [hv] at htile hapart hnone
    obtain ⟨hb, htile⟩ := htile
    cases bs with
    | nil =>
      have htile : pool + 944 + b.size = pool + size - 8 := htile
      have hsize : b.size = size - 952 := by omega
      rw [Block.ext hb hsize (hnone b List.mem_cons_self) (y := h.region.block)]
    | cons c bs =>
      have hfree := (List.isChain_cons_cons.mp hapart).1 (hnone b List.mem_cons_self)
        (hnone c (List.mem_cons_of_mem _ List.mem_cons_self))
      cases hfree with
      | inl hmem => cases hmem
      | inr hmem => cases hmem

theorem Region.arena_list (h : Region pool size) :
    h.arena.lists (sizeClass (size - 952)) = [pool + 944] := by
  simp only [Region.arena, Function.update_self]

theorem Region.arena_other (h : Region pool size) (i : Nat) (hi : i ≠ sizeClass (size - 952)) :
    h.arena.lists i = [] := by
  simp only [Region.arena, Function.update_of_ne hi]

theorem Layout.unowned_lists (h : Layout pool size v []) (hv : v.blocks = [h.region.block]) :
    v.lists = h.region.arena.lists := by
  have hb : h.region.block ∈ v.blocks := by
    rw [hv]
    exact List.mem_cons_self
  have hfiled := h.filed _ hb rfl List.not_mem_nil
  have hall : ∀ i, ∀ n ∈ v.lists i, n = pool + 944 ∧ sizeClass (size - 952) = i := by
    intro i n hn
    obtain ⟨_, b, hmem, rfl, _, hclass⟩ := h.member i n hn
    rw [hv, List.mem_singleton] at hmem
    rw [hmem] at hclass ⊢
    exact ⟨rfl, hclass⟩
  funext i
  by_cases hi : i = sizeClass (size - 952)
  · rw [hi, h.region.arena_list]
    have hfiled : pool + 944 ∈ v.lists (sizeClass (size - 952)) := hfiled
    refine List.perm_singleton.mp ((List.perm_ext_iff_of_nodup (h.nodup _)
      (List.nodup_singleton _)).mpr fun n => ?_)
    rw [List.mem_singleton]
    constructor
    · exact fun hn => (hall _ n hn).1
    · rintro rfl
      exact hfiled
  · rw [h.region.arena_other i hi]
    refine List.eq_nil_iff_forall_not_mem.mpr fun n hn => ?_
    exact hi (hall i n hn).2.symm

theorem Rep.unowned (h : Rep pool size m v []) (hnone : ∀ b ∈ v.blocks, b.owner = none) :
    Rep pool size m h.layout.region.arena [] := by
  have hblocks := h.layout.unowned_blocks hnone
  have hlists := h.layout.unowned_lists hblocks
  have hv : v = h.layout.region.arena := by
    obtain ⟨bs, ls⟩ := v
    exact congrArg₂ Arena.mk hblocks hlists
  exact hv ▸ h

/-! ### Its words -/

theorem Rep.freeList_eq (h : Rep pool size m v P) (h' : Rep pool size m₀ v P) (i : Nat)
    (hi : i < 223) : freeList m pool i = freeList m₀ pool i := by
  have hhead : freeList m pool i = (v.lists i).headD 0 := links_head (h.lists.links i hi)
  have hhead' : freeList m₀ pool i = (v.lists i).headD 0 := links_head (h'.lists.links i hi)
  exact hhead.trans hhead'.symm

theorem Rep.bitmap_eq (h : Rep pool size m v P) (h' : Rep pool size m₀ v P) (w : Nat) (hw : w < 7) :
    freeListBitmap m pool w = freeListBitmap m₀ pool w := by
  refine Nat.eq_of_testBit_eq fun j => ?_
  by_cases hj : j < 32
  · have hbit := h.lists.bit (32 * w + j) (by omega)
    have hbit' := h'.lists.bit (32 * w + j) (by omega)
    have hdiv : (32 * w + j) / 32 = w := by omega
    have hmod : (32 * w + j) % 32 = j := by omega
    rw [hdiv, hmod] at hbit hbit'
    exact hbit.trans hbit'.symm
  · have hj : 32 ≤ j := by omega
    have hpow : 2 ^ 32 ≤ 2 ^ j := Nat.pow_le_pow_right (n := 2) (by omega) hj
    have hlt := load32_lt m (pool + 20 + 4 * w)
    have hlt' := load32_lt m₀ (pool + 20 + 4 * w)
    unfold freeListBitmap
    rw [Nat.testBit_lt_two_pow (by omega), Nat.testBit_lt_two_pow (by omega)]

theorem Rep.formatted_words (hr : Region pool size) (h : Rep pool size m hr.arena []) :
    prevOf m (pool + 944) = pool + size - 8 ∧ sizeAndFlag m (pool + 944) = size - 952 ∧
      freePrev m (pool + 944) = 0 ∧ freeNext m (pool + 944) = 0 ∧
      prevOf m (pool + size - 8) = pool + 944 ∧ sizeAndFlag m (pool + size - 8) = 2147483648 := by
  have hroom := hr.room
  have hb : hr.block ∈ hr.arena.blocks := List.mem_cons_self
  have hnode := h.heads.node _ hb
  have hclass := sizeClass_lt (size - 952) (by have := hr.limit; omega)
  have hlinks := h.lists.links (sizeClass (size - 952)) (by omega)
  have hlist : hr.arena.lists (sizeClass (size - 952)) = [] ++ (pool + 944) :: [] := hr.arena_list
  rw [hlist] at hlinks
  obtain ⟨hnext, hprev, _⟩ := links_cell hlinks
  rw [freeLinks, if_neg (by omega)] at hnext
  have hback := hnode.back
  have hend : pool + 944 + (size - 952) = pool + size - 8 := by omega
  have hback : prevOf m (pool + 944 + (size - 952)) = pool + 944 := hback
  rw [hend] at hback
  exact ⟨h.heads.first, hnode.word, hprev (by omega), hnext, hback, h.heads.sentinel⟩

theorem Rep.coalesced (hr : Region pool size) (h : Rep pool size m hr.arena [])
    (h' : Rep pool size m₀ hr.arena []) : Coalesced pool size m m₀ := by
  obtain ⟨hfirst, hend, _⟩ := hr.ends
  obtain ⟨h1, h2, h3, h4, h5, h6⟩ := h.formatted_words hr
  obtain ⟨h1', h2', h3', h4', h5', h6'⟩ := h'.formatted_words hr
  have hlim := hr.limit
  have hroom := hr.room
  refine ⟨⟨fun i hi => h.freeList_eq h' i (by rwa [osMemFreeListCount_eq] at hi), h.bitmap_eq h',
    fun i hi => ?_, fun i hi => ?_⟩, ?_⟩
  · rw [hfirst]
    have hcases : i = 0 ∨ i = 1 ∨ i = 2 ∨ i = 3 := by omega
    obtain rfl | rfl | rfl | rfl := hcases
    · exact h1.trans h1'.symm
    · exact h2.trans h2'.symm
    · exact h3.trans h3'.symm
    · exact h4.trans h4'.symm
  · rw [hend]
    have hcases : i = 0 ∨ i = 1 := by omega
    obtain rfl | rfl := hcases
    · exact h5.trans h5'.symm
    · exact h6.trans h6'.symm
  · rw [hfirst, osMemFreeListIndexGet_eq _ (by omega) (by omega)]
    exact h.heapWf

theorem wellFormed_only {ns : List Nat} {ls : Nat → List Nat} (h : WellFormed m pool size ns ls)
    (i n : Nat) (hi : i < osMemFreeListCount) (hls : ls i = [n]) :
    freePrev m n = 0 ∧ freeNext m n = 0 := by
  have hlist := h.lists i hi
  rw [hls] at hlist
  obtain ⟨_, _, hprev, hnext⟩ := hlist
  exact ⟨hprev, hnext⟩

/-- A formatted pool below 968 bytes has no free node to come back to. -/
theorem coalesced_room (fuel : Nat) (s s' : MemState) (hend : pool + size < 4294967296)
    (hapart : ∀ q, Registered s.mem s.gPoolHead q → q + 944 ≤ pool ∨ pool + size ≤ q)
    (hinit : losMemInit fuel s pool size = some (s', losOk)) (h : Coalesced pool size m s'.mem) :
    968 ≤ size := by
  obtain ⟨⟨h0, hmin, hp, hs⟩, _⟩ := losMemInit_accepts fuel s s' hinit
  by_contra hsmall
  obtain ⟨ht, _, hback, hflag⟩ := osMemPoolInit_cramped s.mem h0 hp hs (by omega) (by omega)
  obtain ⟨hfirst, hendNode, hsub⟩ := pool_ends h0 (show 952 ≤ size by omega) (by omega)
  have hsame : ∀ q, Registered s.mem s.gPoolHead q →
      nextPool (osMemPoolInit s.mem pool size) q = nextPool s.mem q := by
    intro q hq
    have hqa := hapart q hq
    exact load32_congr _ _ _ fun x hlo hhi => ht x (by omega)
  have hword := losMemInit_words fuel s s' hsame hapart hinit
  have hindex : osMemFreeListIndexGet (size - 952) < osMemFreeListCount := by
    have hcases : size = 956 ∨ size = 960 ∨ size = 964 := by omega
    obtain rfl | rfl | rfl := hcases
    · decide +kernel
    · decide +kernel
    · decide +kernel
  obtain ⟨hprev, hnext⟩ := wellFormed_only h.wellFormed _ _ hindex (Function.update_self _ _ _)
  rw [hfirst] at hprev hnext
  have hfirstWord := h.same.first
  rw [hfirst] at hfirstWord
  have hprev : load32 s'.mem (pool + 952) = 0 := (hfirstWord 2 (by omega)).symm.trans hprev
  have hnext : load32 s'.mem (pool + 956) = 0 := (hfirstWord 3 (by omega)).symm.trans hnext
  have hback := (hword (pool + size - 8) (by omega) (by omega)).trans hback
  have hflag := (hword (pool + size - 8 + 4) (by omega) (by omega)).trans hflag
  have hcases : size = 956 ∨ size = 960 ∨ size = 964 := by omega
  obtain rfl | rfl | rfl := hcases
  · rw [show pool + 956 - 8 + 4 = pool + 952 by omega, hprev] at hflag
    omega
  · rw [show pool + 960 - 8 = pool + 952 by omega, hprev] at hback
    omega
  · rw [show pool + 964 - 8 = pool + 956 by omega, hnext] at hback
    omega

/-! ### No block is lost -/

/-- Every pointer has its block, and every owned block its pointer. -/
def Tracked (pool size : Nat) (s : HeapState) : Prop :=
  ∃ v, Rep pool size s.mem v [] ∧ (∀ p r, s.live p = some r → Holds v p r) ∧
    ∀ b ∈ v.blocks, ∀ p, b.owner = some p → s.live p ≠ none

theorem Tracked.inv {s : HeapState} (h : Tracked pool size s) : HeapInv pool size s := by
  obtain ⟨v, hv, hlive, _⟩ := h
  exact ⟨v, hv, hlive⟩

theorem granted_owned {Q : Nat → Prop} (q : Nat) (hq : q ≠ 0) (req : Request)
    (k : Keeps pool size Q v m v' m')
    (hback : ∀ b ∈ v.blocks, ∀ p, b.owner = some p → ¬Q p → live p ≠ none)
    (hQ : ∀ c ∈ v'.blocks, ∀ p, c.owner = some p → Q p → p = q) (c : Block) (hc : c ∈ v'.blocks)
    (p : Nat) (ho : c.owner = some p) : grant live q req p ≠ none := by
  by_cases hpq : p = q
  · rw [hpq, grant_self live req hq]
    exact Option.some_ne_none req
  · rw [grant_of_ne live req hq hpq]
    have hnQ : ¬Q p := fun h => hpq (hQ c hc p ho h)
    exact hback c (k.back c hc p ho hnQ) p ho hnQ

theorem allocated_tracked (h : Rep pool size m v []) (hlive : ∀ p r, live p = some r → Holds v p r)
    (hback : ∀ b ∈ v.blocks, ∀ p, b.owner = some p → live p ≠ none) (req : Request)
    (r : Memory × Nat) (hr : Allocated pool size m v req.size r) (hal : r.2 % req.boundary = 0) :
    Tracked pool size ⟨r.1, grant live r.2 req⟩ := by
  obtain rfl | ⟨v', b, h1, k, hb, ho, hs, _⟩ := hr
  · exact ⟨v, h, hlive, hback⟩
  · have hin := b.inside r.2 ho
    have hne : r.2 ≠ 0 := by omega
    exact ⟨v', h1, granted_holds r.2 hne req k hb ho hs hal fun p r' hpr hp => ⟨hpr, hlive p r' hp⟩,
      granted_owned r.2 hne req k (fun c hc p hco _ => hback c hc p hco) fun _ _ _ _ hpr => hpr⟩

theorem freed_tracked {b : Block} {q : Nat} (hlive : ∀ p r, live p = some r → Holds v p r)
    (hback : ∀ b ∈ v.blocks, ∀ p, b.owner = some p → live p ≠ none) (ho : b.owner = some q)
    (hf : Freed pool size m v b q m' v') :
    Tracked pool size ⟨m', Function.update live q none⟩ := by
  refine ⟨v', hf.rep, released_holds hlive q hf.keeps, fun c hc p hco => ?_⟩
  have hin := b.inside q ho
  have hpq : p ≠ q := fun hpq => by
    obtain ⟨n, hn, hnfree, hlo, hhi⟩ := hf.gone
    rw [hpq] at hco
    exact hf.rep.layout.fresh_owner hn hnfree q (by omega) c hc hco
  have hp := hback c (hf.keeps.back c hc p hco hpq) p hco
  show Function.update live q none p ≠ none
  rwa [Function.update_of_ne hpq]

theorem resized_tracked {b c : Block} {q n : Nat} (hend : pool + size < 4294967296)
    (hlive : ∀ p r, live p = some r → Holds v p r)
    (hback : ∀ b ∈ v.blocks, ∀ p, b.owner = some p → live p ≠ none)
    (r : Memory × Nat) (hr : Resized pool size m v b q n r v' c) :
    Tracked pool size ⟨r.1, if r.2 = 0 then live
      else grant (Function.update live q none) r.2 ⟨n, 4⟩⟩ := by
  have hin := c.inside r.2 hr.owner
  have hbase := hr.base
  have hroom := hr.room
  have hne : r.2 ≠ 0 := by omega
  rw [if_neg hne]
  refine ⟨v', hr.rep, granted_holds r.2 hne ⟨n, 4⟩ hr.keeps hr.mem hr.owner
    (by show r.2 + n ≤ c.addr + c.size; omega) hin.2.2 fun p r' hpr hp => ?_,
    granted_owned r.2 hne ⟨n, 4⟩ hr.keeps (fun d hd p hdo hnQ => ?_) fun d hd p hdo hQ => ?_⟩
  · by_cases hpq : p = q
    · rw [hpq, Function.update_self] at hp
      cases hp
    · rw [Function.update_of_ne hpq] at hp
      exact ⟨not_or.mpr ⟨hpq, hpr⟩, hlive p r' hp⟩
  · rw [Function.update_of_ne (not_or.mp hnQ).1]
    exact hback d hd p hdo
  · cases hQ with
    | inl hpq =>
      rw [hpq] at hdo
      rw [hr.gone hend d hd hdo, hr.owner] at hdo
      rw [hpq]
      exact (Option.some.inj hdo).symm
    | inr hpr => exact hpr

theorem heapStep_tracked (s t : HeapState) (op : HeapOp) (hend : pool + size < 4294967296)
    (hinv : Tracked pool size s) (hstep : OrderlyStep pool size s op t) : Tracked pool size t := by
  obtain ⟨v, h, hlive, hback⟩ := hinv
  obtain ⟨hord, hstep⟩ := hstep
  cases hstep with
  | alloc n =>
    have hal := losMemAlloc_spec h n n.isLt hord
    exact allocated_tracked h hlive hback ⟨n, 4⟩ _ hal (allocated_aligned _ _ hal)
  | allocAlign n boundary =>
    obtain ⟨hal, hmod⟩ := losMemAllocAlign_spec h n boundary n.isLt boundary.isLt hord
    exact allocated_tracked h hlive hback ⟨n, boundary⟩ _ hal hmod
  | free ptr hptr =>
    obtain ⟨r₀, hr₀⟩ := Option.ne_none_iff_exists'.mp hptr
    obtain ⟨b, hb, ho, _⟩ := hlive ptr r₀ hr₀
    obtain ⟨_, hne, _⟩ | ⟨v', hf, hok⟩ := losMemFree_spec h ptr hb ho
    · exact absurd (losMemFree_owned_ok h hend ptr hb ho) hne
    · rw [if_pos hok]
      exact freed_tracked hlive hback ho hf
  | reallocNull n =>
    have hal : Allocated pool size s.mem v n (losMemRealloc s.mem pool 0 n) := by
      obtain hz | ⟨_, he⟩ := losMemRealloc_null s.mem pool n
      · exact Or.inl hz
      · rw [he]
        exact losMemAlloc_spec h n n.isLt hord
    exact allocated_tracked h hlive hback ⟨n, 4⟩ _ hal (allocated_aligned _ _ hal)
  | reallocZero ptr hptr n hn =>
    obtain ⟨r₀, hr₀⟩ := Option.ne_none_iff_exists'.mp hptr
    have hold := hlive ptr r₀ hr₀
    rw [hn, losMemRealloc_zero h ptr (holds_ne_zero ptr r₀ hold)]
    obtain ⟨b, hb, ho, _⟩ := hold
    obtain ⟨_, hne, _⟩ | ⟨v', hf, _⟩ := losMemFree_spec h ptr hb ho
    · exact absurd (losMemFree_owned_ok h hend ptr hb ho) hne
    · exact freed_tracked hlive hback ho hf
  | realloc ptr hptr n hn =>
    obtain ⟨r₀, hr₀⟩ := Option.ne_none_iff_exists'.mp hptr
    obtain ⟨b, hb, ho, _⟩ := hlive ptr r₀ hr₀
    obtain hz | ⟨v', c, hres, _⟩ := losMemRealloc_spec h hb ptr ho n hn n.isLt hord
    · rw [hz, if_pos rfl]
      exact ⟨v, h, hlive, hback⟩
    · exact resized_tracked hend hlive hback _ hres
  | write addr value hmay =>
    cases hmay with
    | inl hpay =>
      obtain ⟨p, r, hp, hlo, hhi⟩ := hpay
      obtain ⟨b, hb, ho, hsb, _⟩ := hlive p r hp
      have hin := b.inside p ho
      have hba := b.aligned
      have hbw := b.whole
      exact ⟨v, (h.write_payload hb p ho (store8_touches s.mem addr value) fun a ha => by omega).1,
        hlive, hback⟩
    | inr hout =>
      exact ⟨v, h.write_outside fun x _ _ => store8_outside _ _ _ _ (by omega), hlive, hback⟩

theorem trackedRun (s t : HeapState) (ops : List HeapOp) (hend : pool + size < 4294967296)
    (hs : Tracked pool size s) (hrun : Run (OrderlyStep pool size) s ops t) :
    Tracked pool size t :=
  run_invariant (Tracked pool size)
    (fun s op t hI hstep => heapStep_tracked s t op hend hI hstep) hrun hs

theorem freeAll_tracked (ptrs : List Nat) (hend : pool + size < 4294967296) (hnodup : ptrs.Nodup)
    (hall : ∀ p, p ∈ ptrs ↔ live p ≠ none) (h : Tracked pool size ⟨m, live⟩) :
    Tracked pool size ⟨freeAll m pool ptrs, fun _ => none⟩ := by
  induction ptrs generalizing m live with
  | nil =>
    have hnone : live = fun _ => none := funext fun p => by
      by_contra hp
      cases (hall p).mpr hp
    rw [← hnone]
    exact h
  | cons q ptrs ih =>
    obtain ⟨hq, hnodup⟩ := List.nodup_cons.mp hnodup
    obtain ⟨v, hv, hlive, hback⟩ := h
    obtain ⟨r₀, hr₀⟩ := Option.ne_none_iff_exists'.mp ((hall q).mp List.mem_cons_self)
    obtain ⟨b, hb, ho, _⟩ := hlive q r₀ hr₀
    obtain ⟨_, hne, _⟩ | ⟨v', hf, _⟩ := losMemFree_spec hv q hb ho
    · exact absurd (losMemFree_owned_ok hv hend q hb ho) hne
    · refine ih hnodup (fun p => ?_) (freed_tracked hlive hback ho hf)
      by_cases hpq : p = q
      · rw [hpq, Function.update_self]
        simp [hq]
      · rw [Function.update_of_ne hpq, ← hall p, List.mem_cons]
        simp [hpq]

end

/-- After `LOS_MemInit` and any calls, releasing the live pointers in any order. -/
theorem losMemFree_coalesces (pool size fuel : Nat) (s s' : MemState)
    (hlimit : size ≤ 268435456) (hend : pool + size < 4294967296)
    (hapart : ∀ q, Registered s.mem s.gPoolHead q → q + 944 ≤ pool ∨ pool + size ≤ q)
    (hinit : losMemInit fuel s pool size = some (s', losOk)) (ops : List HeapOp) (t : HeapState)
    (hrun : Run (HeapStep pool size) ⟨s'.mem, fun _ => none⟩ ops t) (ptrs : List Nat)
    (hnodup : ptrs.Nodup) (hall : ∀ p, p ∈ ptrs ↔ t.live p ≠ none) :
    Coalesced pool size (freeAll t.mem pool ptrs) s'.mem ↔ 968 ≤ size := by
  constructor
  · exact coalesced_room fuel s s' hend hapart hinit
  · intro hroom
    obtain ⟨⟨h0, _, hp, hs⟩, _⟩ := losMemInit_accepts fuel s s' hinit
    have h : Region pool size := ⟨h0, hp, hs, hroom, by omega, by omega⟩
    obtain ⟨v₀, hv₀, hfree⟩ := losMemInit_rep fuel s s' hroom (by omega) (by omega) hapart hinit
    have hstart : Tracked pool size ⟨s'.mem, fun _ => none⟩ := by
      refine ⟨v₀, hv₀, fun p r hp => ?_, fun b hb p ho => ?_⟩
      · cases hp
      · rw [hfree b hb] at ho
        cases ho
    have hrun : Run (OrderlyStep pool size) _ ops t :=
      run_mono (fun s op t hstep => ⟨op.orderly_small hlimit, hstep⟩) hrun
    obtain ⟨v, hv, _, hback⟩ := freeAll_tracked ptrs hend hnodup hall
      (trackedRun _ t ops hend hstart hrun)
    have hnone : ∀ b ∈ v.blocks, b.owner = none := fun b hb => by
      cases ho : b.owner with
      | none => rfl
      | some p => exact absurd rfl (hback b hb p ho)
    exact Rep.coalesced h (hv.unowned hnone) (losMemInit_arena fuel s s' h hapart hinit)

/-- One block of the first pool, taken and released. -/
theorem losMemFree_coalesces_firstPool :
    ∃ t, Run (HeapStep 4096 1024) ⟨firstPool.mem, fun _ => none⟩ [.alloc 8] t ∧
      Coalesced 4096 1024 (freeAll t.mem 4096 [5048]) firstPool.mem := by
  have hstep : HeapStep 4096 1024 ⟨firstPool.mem, fun _ => none⟩ (.alloc 8) _ := HeapStep.alloc _ 8
  have hptr : (losMemAlloc firstPool.mem 4096 8).2 = 5048 := by decide +kernel
  refine ⟨_, run_single hstep, (losMemFree_coalesces 4096 1024 1 zeroState firstPool (by omega)
    (by omega) (fun q hq => (zeroState_registered q hq).elim) losMemInit_firstPool _ _
    (run_single hstep) [5048] (List.nodup_singleton _) fun p => ?_).mpr (by omega)⟩
  have hgrant : grant (fun _ => none) (losMemAlloc firstPool.mem 4096 8).2 ⟨8, 4⟩ =
      Function.update (fun _ => none) 5048 (some ⟨8, 4⟩) := by
    rw [hptr]
    rfl
  show p ∈ [5048] ↔ grant (fun _ => none) (losMemAlloc firstPool.mem 4096 8).2 ⟨8, 4⟩ p ≠ none
  rw [hgrant, List.mem_singleton]
  by_cases hp : p = 5048
  · simp [hp]
  · simp [hp]

/-- A pool of 956 bytes is accepted and has no such state, without any call. -/
theorem losMemInit_never_coalesced : ∃ s', losMemInit 1 zeroState 4096 956 = some (s', losOk) ∧
    Run (HeapStep 4096 956) ⟨s'.mem, fun _ => none⟩ [] ⟨s'.mem, fun _ => none⟩ ∧
      ¬Coalesced 4096 956 (freeAll s'.mem 4096 []) s'.mem := by
  refine ⟨_, rfl, Run.nil, fun hc => ?_⟩
  have hroom := coalesced_room 1 zeroState _ (by omega)
    (fun q hq => (zeroState_registered q hq).elim) rfl hc
  omega

end LiteosM.Heap
