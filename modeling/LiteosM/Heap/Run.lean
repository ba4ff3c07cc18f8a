import LiteosM.Heap.Init
import LiteosM.Lib.Transition

/-!
# Every sequence of heap calls

The state of a run is the memory and the pointers handed out and not yet given
back. Between the calls the owner of a pointer writes to what he asked for, and
the rest of the program to what lies outside the pool.
-/

namespace LiteosM.Heap
open Lib.ByteMemory Lib.Word32 Lib.LinkedList Lib.Transition

/-- What was asked for: a size in bytes and an alignment. -/
structure Request where
  size : Nat
  boundary : Nat

structure HeapState where
  mem : Memory
  live : Nat → Option Request

/-- The calls of the interface, with `UINT32` sizes, and the stores of the
program between them. -/
inductive HeapOp
  | alloc (size : Fin 4294967296)
  | allocAlign (size boundary : Fin 4294967296)
  | free (ptr : Nat)
  | realloc (ptr : Nat) (size : Fin 4294967296)
  | write (addr : Nat) (value : Byte)

def grant (live : Nat → Option Request) (ptr : Nat) (r : Request) : Nat → Option Request :=
  if ptr = 0 then live else Function.update live ptr (some r)

def InPayload (live : Nat → Option Request) (addr : Nat) : Prop :=
  ∃ p r, live p = some r ∧ p ≤ addr ∧ addr < p + r.size

inductive HeapStep (pool size : Nat) : HeapState → HeapOp → HeapState → Prop
  | alloc (s : HeapState) (n : Fin 4294967296) :
      HeapStep pool size s (.alloc n)
        ⟨(losMemAlloc s.mem pool n).1, grant s.live (losMemAlloc s.mem pool n).2 ⟨n, 4⟩⟩
  | allocAlign (s : HeapState) (n boundary : Fin 4294967296) :
      HeapStep pool size s (.allocAlign n boundary)
        ⟨(losMemAllocAlign s.mem pool n boundary).1,
          grant s.live (losMemAllocAlign s.mem pool n boundary).2 ⟨n, boundary⟩⟩
  | free (s : HeapState) (ptr : Nat) (hlive : s.live ptr ≠ none) :
      HeapStep pool size s (.free ptr)
        ⟨(losMemFree s.mem pool ptr).1,
          if (losMemFree s.mem pool ptr).2 = losOk then Function.update s.live ptr none else s.live⟩
  | reallocNull (s : HeapState) (n : Fin 4294967296) :
      HeapStep pool size s (.realloc 0 n)
        ⟨(losMemRealloc s.mem pool 0 n).1, grant s.live (losMemRealloc s.mem pool 0 n).2 ⟨n, 4⟩⟩
  | reallocZero (s : HeapState) (ptr : Nat) (hlive : s.live ptr ≠ none) (n : Fin 4294967296)
      (hn : n.val = 0) :
      HeapStep pool size s (.realloc ptr n)
        ⟨(losMemRealloc s.mem pool ptr n).1, Function.update s.live ptr none⟩
  | realloc (s : HeapState) (ptr : Nat) (hlive : s.live ptr ≠ none) (n : Fin 4294967296)
      (hn : n.val ≠ 0) :
      HeapStep pool size s (.realloc ptr n)
        ⟨(losMemRealloc s.mem pool ptr n).1,
          if (losMemRealloc s.mem pool ptr n).2 = 0 then s.live
          else grant (Function.update s.live ptr none) (losMemRealloc s.mem pool ptr n).2 ⟨n, 4⟩⟩
  | write (s : HeapState) (addr : Nat) (value : Byte)
      (hmay : InPayload s.live addr ∨ addr < pool ∨ pool + size ≤ addr) :
      HeapStep pool size s (.write addr value) ⟨store8 s.mem addr value, s.live⟩

/-- The block behind a live pointer has room for the request. -/
def Holds (v : Arena) (p : Nat) (r : Request) : Prop :=
  ∃ b ∈ v.blocks, b.owner = some p ∧ p + r.size ≤ b.addr + b.size ∧ p % r.boundary = 0

def HeapInv (pool size : Nat) (s : HeapState) : Prop :=
  ∃ v, Rep pool size s.mem v [] ∧ ∀ p r, s.live p = some r → Holds v p r

/-- `op` neither gives `p` back nor writes to its `n` bytes. -/
def HeapOp.spares (p n : Nat) : HeapOp → Prop
  | .alloc _ => True
  | .allocAlign _ _ => True
  | .free ptr => ptr ≠ p
  | .realloc ptr _ => ptr ≠ p
  | .write addr _ => ¬(p ≤ addr ∧ addr < p + n)

/-- The block the call needs is of a size the search orders correctly. -/
def HeapOp.orderly (size : Nat) : HeapOp → Prop
  | .alloc n => Orderly size (allocSizeOf n)
  | .allocAlign n boundary => Orderly size (allocSizeOf (max n.val 8 + boundary.val - 4))
  | .realloc _ n => Orderly size (allocSizeOf n)
  | .free _ => True
  | .write _ _ => True

/-- In pools of up to 256 MiB every call is. -/
theorem HeapOp.orderly_small {size : Nat} (h : size ≤ 268435456) (op : HeapOp) :
    op.orderly size := by
  cases op with
  | alloc n => exact Or.inr h
  | allocAlign n boundary => exact Or.inr h
  | free ptr => trivial
  | realloc ptr n => exact Or.inr h
  | write addr value => trivial

section
variable {pool size : Nat} {m m' : Memory} {v v' : Arena} {live : Nat → Option Request}
  {Q : Nat → Prop}

theorem holds_keeps (p : Nat) (r : Request) (hpq : ¬Q p) (k : Keeps pool size Q v m v' m')
    (h : Holds v p r) : Holds v' p r ∧ ∀ x, p ≤ x → x < p + r.size → m' x = m x := by
  obtain ⟨b, hb, ho, hs, ha⟩ := h
  obtain ⟨hb', hx⟩ := k.stay b hb p ho hpq
  have hin := b.inside p ho
  exact ⟨⟨b, hb', ho, hs, ha⟩, fun x hlo hhi => hx x (by omega) (by omega)⟩

theorem holds_ne_zero (p : Nat) (r : Request) (h : Holds v p r) : p ≠ 0 := by
  obtain ⟨b, _, ho, _⟩ := h
  have hin := b.inside p ho
  omega

theorem grant_of_ne {q p : Nat} (live : Nat → Option Request) (req : Request) (hq : q ≠ 0)
    (hpq : p ≠ q) : grant live q req p = live p := by
  unfold grant
  rw [if_neg hq, Function.update_of_ne hpq]

theorem grant_self {q : Nat} (live : Nat → Option Request) (req : Request) (hq : q ≠ 0) :
    grant live q req q = some req := by
  unfold grant
  rw [if_neg hq, Function.update_self]

theorem granted_holds {b : Block} (q : Nat) (hq : q ≠ 0) (req : Request)
    (k : Keeps pool size Q v m v' m') (hb : b ∈ v'.blocks) (ho : b.owner = some q)
    (hs : q + req.size ≤ b.addr + b.size) (hal : q % req.boundary = 0)
    (hrest : ∀ p r, p ≠ q → live p = some r → ¬Q p ∧ Holds v p r) (p : Nat) (r : Request)
    (hp : grant live q req p = some r) : Holds v' p r := by
  by_cases hpq : p = q
  · rw [hpq, grant_self live req hq] at hp
    rw [hpq, ← Option.some.inj hp]
    exact ⟨b, hb, ho, hs, hal⟩
  · rw [grant_of_ne live req hq hpq] at hp
    obtain ⟨hQ, hold⟩ := hrest p r hpq hp
    exact (holds_keeps p r hQ k hold).1

theorem block_aligned_ptr (b : Block) (p : Nat) (h : b.owner = some p) : p % 4 = 0 :=
  (b.inside p h).2.2

theorem allocated_step (h : Rep pool size m v []) (hlive : ∀ p r, live p = some r → Holds v p r)
    (req : Request) (r : Memory × Nat) (hr : Allocated pool size m v req.size r)
    (hal : r.2 % req.boundary = 0) :
    HeapInv pool size ⟨r.1, grant live r.2 req⟩ ∧
      ∀ p r', live p = some r' → grant live r.2 req p = some r' ∧
        ∀ x, p ≤ x → x < p + r'.size → r.1 x = m x := by
  obtain rfl | ⟨v', b, h1, k1, hb, ho, hs, ⟨a, ha, hab, hafree, hle⟩, _⟩ := hr
  · exact ⟨⟨v, h, hlive⟩, fun p r' hp => ⟨hp, fun x _ _ => rfl⟩⟩
  · have hin := b.inside r.2 ho
    have hne : r.2 ≠ 0 := by omega
    have hfresh := h.layout.fresh_owner ha hafree r.2 (by omega)
    have hother : ∀ p r', live p = some r' → p ≠ r.2 := by
      rintro p r' hp rfl
      obtain ⟨c, hc, hco, _⟩ := hlive r.2 r' hp
      exact hfresh c hc hco
    refine ⟨⟨v', h1, granted_holds r.2 hne req k1 hb ho hs hal fun p r' hpr hp =>
      ⟨hpr, hlive p r' hp⟩⟩, fun p r' hp => ⟨?_, ?_⟩⟩
    · rw [grant_of_ne _ _ hne (hother p r' hp)]
      exact hp
    · exact (holds_keeps p r' (hother p r' hp) k1 (hlive p r' hp)).2

theorem allocated_aligned (n : Nat) (r : Memory × Nat) (h : Allocated pool size m v n r) :
    r.2 % 4 = 0 := by
  obtain rfl | ⟨_, b, _, _, _, ho, _⟩ := h
  · rfl
  · exact block_aligned_ptr b r.2 ho

theorem released_holds (hlive : ∀ p r, live p = some r → Holds v p r) (q : Nat)
    (k : Keeps pool size (· = q) v m v' m') (p : Nat) (r : Request)
    (hp : Function.update live q none p = some r) : Holds v' p r := by
  by_cases hpq : p = q
  · rw [hpq, Function.update_self] at hp
    cases hp
  · rw [Function.update_of_ne hpq] at hp
    exact (holds_keeps p r hpq k (hlive p r hp)).1

theorem released_step (hlive : ∀ p r, live p = some r → Holds v p r) (q : Nat)
    (h : Rep pool size m' v' []) (k : Keeps pool size (· = q) v m v' m') :
    HeapInv pool size ⟨m', Function.update live q none⟩ ∧
      ∀ p r', p ≠ q → live p = some r' → Function.update live q none p = some r' ∧
        ∀ x, p ≤ x → x < p + r'.size → m' x = m x := by
  refine ⟨⟨v', h, released_holds hlive q k⟩, fun p r' hpq hp => ⟨?_, ?_⟩⟩
  · rw [Function.update_of_ne hpq]
    exact hp
  · exact (holds_keeps p r' hpq k (hlive p r' hp)).2

theorem resized_step {b c : Block} {q n : Nat} (hlive : ∀ p r, live p = some r → Holds v p r)
    (hq : b.owner = some q) (r : Memory × Nat) (hr : Resized pool size m v b q n r v' c) :
    HeapInv pool size ⟨r.1, if r.2 = 0 then live
        else grant (Function.update live q none) r.2 ⟨n, 4⟩⟩ ∧
      ∀ p r', p ≠ q → live p = some r' →
        (if r.2 = 0 then live else grant (Function.update live q none) r.2 ⟨n, 4⟩) p = some r' ∧
        ∀ x, p ≤ x → x < p + r'.size → r.1 x = m x := by
  have hin := c.inside r.2 hr.owner
  have hbase := hr.base
  have hroom := hr.room
  have hne : r.2 ≠ 0 := by omega
  have hother : ∀ p r', p ≠ q → live p = some r' → p ≠ r.2 := by
    rintro p r' hpq hp rfl
    obtain ⟨d, hd, hdo, _⟩ := hlive r.2 r' hp
    rw [hr.fresh d hd hdo, hq] at hdo
    exact hpq (Option.some.inj hdo).symm
  rw [if_neg hne]
  refine ⟨⟨v', hr.rep, granted_holds r.2 hne ⟨n, 4⟩ hr.keeps hr.mem hr.owner
    (by show r.2 + n ≤ c.addr + c.size; omega) hin.2.2 fun p r' hpr hp => ?_⟩,
    fun p r' hpq hp => ⟨?_, ?_⟩⟩
  · by_cases hpq : p = q
    · rw [hpq, Function.update_self] at hp
      cases hp
    · rw [Function.update_of_ne hpq] at hp
      exact ⟨not_or.mpr ⟨hpq, hpr⟩, hlive p r' hp⟩
  · rw [grant_of_ne _ _ hne (hother p r' hpq hp), Function.update_of_ne hpq]
    exact hp
  · exact (holds_keeps p r' (not_or.mpr ⟨hpq, hother p r' hpq hp⟩) hr.keeps (hlive p r' hp)).2

theorem store8_touches (m : Memory) (addr : Nat) (value : Byte) :
    Touches (fun a => a = addr / 4 * 4) m (store8 m addr value) := by
  intro x hx
  refine store8_outside m addr value x ?_
  rintro rfl
  exact hx rfl

/-- One step preserves the invariant, and every pointer it spares with its bytes. -/
theorem heapStep_inv (s t : HeapState) (op : HeapOp) (hord : op.orderly size)
    (hinv : HeapInv pool size s) (hstep : HeapStep pool size s op t) :
    HeapInv pool size t ∧ ∀ p r, op.spares p r.size → s.live p = some r →
      t.live p = some r ∧ ∀ x, p ≤ x → x < p + r.size → t.mem x = s.mem x := by
  obtain ⟨v, h, hlive⟩ := hinv
  cases hstep with
  | alloc n =>
    have hal := losMemAlloc_spec h n n.isLt hord
    obtain ⟨h1, h2⟩ := allocated_step h hlive ⟨n, 4⟩ _ hal (allocated_aligned _ _ hal)
    exact ⟨h1, fun p r _ hp => h2 p r hp⟩
  | allocAlign n boundary =>
    obtain ⟨hal, hmod⟩ := losMemAllocAlign_spec h n boundary n.isLt boundary.isLt hord
    obtain ⟨h1, h2⟩ := allocated_step h hlive ⟨n, boundary⟩ _ hal hmod
    exact ⟨h1, fun p r _ hp => h2 p r hp⟩
  | free ptr hptr =>
    obtain ⟨r₀, hr₀⟩ := Option.ne_none_iff_exists'.mp hptr
    obtain ⟨b, hb, ho, _⟩ := hlive ptr r₀ hr₀
    obtain ⟨hm, hne, _⟩ | ⟨v', hf, hok⟩ := losMemFree_spec h ptr hb ho
    · rw [hm, if_neg hne]
      exact ⟨⟨v, h, hlive⟩, fun p r _ hp => ⟨hp, fun x _ _ => rfl⟩⟩
    · rw [if_pos hok]
      obtain ⟨h2, h3⟩ := released_step hlive ptr hf.rep hf.keeps
      exact ⟨h2, fun p r hpq hp => h3 p r (Ne.symm hpq) hp⟩
  | reallocNull n =>
    have hal : Allocated pool size s.mem v n (losMemRealloc s.mem pool 0 n) := by
      obtain hz | ⟨_, he⟩ := losMemRealloc_null s.mem pool n
      · exact Or.inl hz
      · rw [he]
        exact losMemAlloc_spec h n n.isLt hord
    obtain ⟨h1, h2⟩ := allocated_step h hlive ⟨n, 4⟩ _ hal (allocated_aligned _ _ hal)
    exact ⟨h1, fun p r _ hp => h2 p r hp⟩
  | reallocZero ptr hptr n hn =>
    obtain ⟨r₀, hr₀⟩ := Option.ne_none_iff_exists'.mp hptr
    have hold := hlive ptr r₀ hr₀
    rw [hn, losMemRealloc_zero h ptr (holds_ne_zero ptr r₀ hold)]
    obtain ⟨b, hb, ho, _⟩ := hold
    obtain ⟨hm, _⟩ | ⟨v', hf, _⟩ := losMemFree_spec h ptr hb ho
    · rw [hm]
      obtain ⟨h2, h3⟩ := released_step hlive ptr h (Keeps.refl v s.mem)
      exact ⟨h2, fun p r hpq hp => h3 p r (Ne.symm hpq) hp⟩
    · obtain ⟨h2, h3⟩ := released_step hlive ptr hf.rep hf.keeps
      exact ⟨h2, fun p r hpq hp => h3 p r (Ne.symm hpq) hp⟩
  | realloc ptr hptr n hn =>
    obtain ⟨r₀, hr₀⟩ := Option.ne_none_iff_exists'.mp hptr
    obtain ⟨b, hb, ho, _⟩ := hlive ptr r₀ hr₀
    obtain hz | ⟨v', c, hres, _⟩ := losMemRealloc_spec h hb ptr ho n hn n.isLt hord
    · rw [hz, if_pos rfl]
      exact ⟨⟨v, h, hlive⟩, fun p r _ hp => ⟨hp, fun x _ _ => rfl⟩⟩
    · obtain ⟨h1, h2⟩ := resized_step hlive ho _ hres
      exact ⟨h1, fun p r hpq hp => h2 p r (Ne.symm hpq) hp⟩
  | write addr value hmay =>
    have ht := store8_touches s.mem addr value
    refine ⟨⟨v, ?_, hlive⟩, fun p r hsp hp => ⟨hp, fun x hlo hhi => ?_⟩⟩
    · rcases hmay with ⟨p, r, hp, hlo, hhi⟩ | hout
      · obtain ⟨b, hb, ho, hs, _⟩ := hlive p r hp
        have hin := b.inside p ho
        have hba := b.aligned
        have hbw := b.whole
        exact (h.write_payload hb p ho ht fun a ha => by omega).1
      · exact h.write_outside fun x _ _ => store8_outside _ _ _ _ (by omega)
    · have hsp : ¬(p ≤ addr ∧ addr < p + r.size) := hsp
      exact store8_outside _ _ _ _ (by omega)

def OrderlyStep (pool size : Nat) (s : HeapState) (op : HeapOp) (t : HeapState) : Prop :=
  op.orderly size ∧ HeapStep pool size s op t

theorem allocated_first (n x : Nat) (hx : x < pool + 4) (r : Memory × Nat)
    (h : Allocated pool size m v n r) : r.1 x = m x := by
  obtain rfl | ⟨_, _, _, k, _⟩ := h
  · rfl
  · exact k.outside x (Or.inl hx)

theorem heapStep_first (s t : HeapState) (op : HeapOp) (hinv : HeapInv pool size s)
    (hstep : OrderlyStep pool size s op t) : load32 t.mem pool = load32 s.mem pool := by
  obtain ⟨v, h, hlive⟩ := hinv
  obtain ⟨hord, hstep⟩ := hstep
  refine load32_congr _ _ _ fun x hlo hhi => ?_
  cases hstep with
  | alloc n => exact allocated_first n x hhi _ (losMemAlloc_spec h n n.isLt hord)
  | allocAlign n boundary =>
    exact allocated_first n x hhi _
      (losMemAllocAlign_spec h n boundary n.isLt boundary.isLt hord).1
  | free ptr hptr =>
    obtain ⟨r₀, hr₀⟩ := Option.ne_none_iff_exists'.mp hptr
    obtain ⟨b, hb, ho, _⟩ := hlive ptr r₀ hr₀
    obtain ⟨hm, _⟩ | ⟨v', hf, _⟩ := losMemFree_spec h ptr hb ho
    · exact congrFun hm x
    · exact hf.keeps.outside x (Or.inl hhi)
  | reallocNull n =>
    obtain hz | ⟨_, he⟩ := losMemRealloc_null s.mem pool n
    · exact congrFun (congrArg Prod.fst hz) x
    · have hsame := allocated_first n x hhi _ (losMemAlloc_spec h n n.isLt hord)
      rwa [← he] at hsame
  | reallocZero ptr hptr n hn =>
    obtain ⟨r₀, hr₀⟩ := Option.ne_none_iff_exists'.mp hptr
    have hold := hlive ptr r₀ hr₀
    rw [hn, losMemRealloc_zero h ptr (holds_ne_zero ptr r₀ hold)]
    obtain ⟨b, hb, ho, _⟩ := hold
    obtain ⟨hm, _⟩ | ⟨v', hf, _⟩ := losMemFree_spec h ptr hb ho
    · exact congrFun hm x
    · exact hf.keeps.outside x (Or.inl hhi)
  | realloc ptr hptr n hn =>
    obtain ⟨r₀, hr₀⟩ := Option.ne_none_iff_exists'.mp hptr
    obtain ⟨b, hb, ho, _⟩ := hlive ptr r₀ hr₀
    obtain hz | ⟨v', c, hres, _⟩ := losMemRealloc_spec h hb ptr ho n hn n.isLt hord
    · exact congrFun (congrArg Prod.fst hz) x
    · exact hres.keeps.outside x (Or.inl hhi)
  | write addr value hmay =>
    refine store8_outside _ _ _ _ ?_
    rcases hmay with ⟨p, r, hp, hplo, _⟩ | hout
    · obtain ⟨b, hb, ho, _⟩ := hlive p r hp
      have hin := b.inside p ho
      have hbb := h.layout.bounds b hb
      omega
    · have hroom := h.layout.region.room
      omega

end

end LiteosM.Heap
