import LiteosM.Heap.Separation
import Mathlib.Algebra.GroupWithZero.Nat
import Mathlib.Algebra.Ring.Int.Defs

/-!
# The heap of the C library

`malloc.c` over the system pool. A run of its calls is a run of the calls of `los_memory.c`, and what `calloc`
and `zalloc` clear is what they hand out.
-/

namespace LiteosM.Malloc

open Lib.ByteMemory Lib.Transition Heap

/-- `SECUREC_MEM_MAX_LEN` -/
def securecMemMaxLen : Nat := 0x7fffffff

def memsetS (m : Memory) (dest destMax : Nat) (c : Byte) (count : Nat) : Memory :=
  if destMax ≤ securecMemMaxLen ∧ dest ≠ 0 ∧ count ≤ destMax then fillBytes m dest c count
  else if destMax = 0 ∨ securecMemMaxLen < destMax ∨ dest = 0 then m
  else fillBytes m dest c destMax

def malloc (m : Memory) (pool size : Nat) : Memory × Nat := if size = 0 then (m, 0) else losMemAlloc m pool size

def zalloc (m : Memory) (pool size : Nat) : Memory × Nat :=
  if size = 0 then (m, 0)
  else
    let r := losMemAlloc m pool size
    let ptr := r.2
    (if ptr ≠ 0 then memsetS r.1 ptr size 0 size else r.1, ptr)

/-- `size_t` has 32 bits. -/
def callocSize (nitems size : Nat) : Nat := nitems * size % 4294967296

def calloc (m : Memory) (pool nitems size : Nat) : Memory × Nat :=
  if nitems = 0 ∨ size = 0 then (m, 0)
  else
    let realSize := callocSize nitems size
    let r := losMemAlloc m pool realSize
    let ptr := r.2
    (if ptr ≠ 0 then memsetS r.1 ptr realSize 0 realSize else r.1, ptr)

def memalign (m : Memory) (pool boundary size : Nat) : Memory × Nat :=
  if size = 0 then (m, 0) else losMemAllocAlign m pool size boundary

def free (m : Memory) (pool ptr : Nat) : Memory := if ptr = 0 then m else (losMemFree m pool ptr).1

def realloc (m : Memory) (pool ptr size : Nat) : Memory × Nat :=
  if ptr = 0 then malloc m pool size
  else if size = 0 then (free m pool ptr, 0)
  else losMemRealloc m pool ptr size

/-! ### Runs of the calls -/

inductive MallocCall
  | malloc (size : Fin 4294967296)
  | zalloc (size : Fin 4294967296)
  | calloc (nitems size : Fin 4294967296)
  | memalign (boundary size : Fin 4294967296)
  | free (ptr : Nat)
  | realloc (ptr : Nat) (size : Fin 4294967296)
  | write (addr : Nat) (value : Byte)

/-- A block that the pool refuses to take back stays live. -/
def released (s : HeapState) (pool ptr : Nat) : Nat → Option Request :=
  if (losMemFree s.mem pool ptr).2 = losOk then Function.update s.live ptr none else s.live

/-- A pointer that is passed in is `NULL` or live. -/
inductive MallocStep (pool size : Nat) : HeapState → MallocCall → HeapState → Prop
  | malloc (s : HeapState) (n : Fin 4294967296) :
      MallocStep pool size s (.malloc n)
        ⟨(malloc s.mem pool n).1, grant s.live (malloc s.mem pool n).2 ⟨n, 4⟩⟩
  | zalloc (s : HeapState) (n : Fin 4294967296) :
      MallocStep pool size s (.zalloc n)
        ⟨(zalloc s.mem pool n).1, grant s.live (zalloc s.mem pool n).2 ⟨n, 4⟩⟩
  | calloc (s : HeapState) (nitems n : Fin 4294967296) :
      MallocStep pool size s (.calloc nitems n)
        ⟨(calloc s.mem pool nitems n).1, grant s.live (calloc s.mem pool nitems n).2 ⟨callocSize nitems n, 4⟩⟩
  | memalign (s : HeapState) (boundary n : Fin 4294967296) :
      MallocStep pool size s (.memalign boundary n)
        ⟨(memalign s.mem pool boundary n).1, grant s.live (memalign s.mem pool boundary n).2 ⟨n, boundary⟩⟩
  | freeNull (s : HeapState) : MallocStep pool size s (.free 0) ⟨free s.mem pool 0, s.live⟩
  | free (s : HeapState) (ptr : Nat) (hptr : ptr ≠ 0) (hlive : s.live ptr ≠ none) :
      MallocStep pool size s (.free ptr) ⟨free s.mem pool ptr, released s pool ptr⟩
  | reallocNull (s : HeapState) (n : Fin 4294967296) :
      MallocStep pool size s (.realloc 0 n)
        ⟨(realloc s.mem pool 0 n).1, grant s.live (realloc s.mem pool 0 n).2 ⟨n, 4⟩⟩
  | reallocZero (s : HeapState) (ptr : Nat) (hptr : ptr ≠ 0) (hlive : s.live ptr ≠ none) :
      MallocStep pool size s (.realloc ptr 0) ⟨(realloc s.mem pool ptr 0).1, released s pool ptr⟩
  | realloc (s : HeapState) (ptr : Nat) (hptr : ptr ≠ 0) (hlive : s.live ptr ≠ none) (n : Fin 4294967296)
      (hn : n.val ≠ 0) :
      MallocStep pool size s (.realloc ptr n)
        ⟨(realloc s.mem pool ptr n).1,
          if (realloc s.mem pool ptr n).2 = 0 then s.live
          else grant (Function.update s.live ptr none) (realloc s.mem pool ptr n).2 ⟨n, 4⟩⟩
  | write (s : HeapState) (addr : Nat) (value : Byte)
      (hmay : InPayload s.live addr ∨ addr < pool ∨ pool + size ≤ addr) :
      MallocStep pool size s (.write addr value) ⟨store8 s.mem addr value, s.live⟩

/-- The call neither gives `p` back nor writes to its `n` bytes. -/
def MallocCall.spares (p n : Nat) : MallocCall → Prop
  | .free ptr => ptr ≠ p
  | .realloc ptr _ => ptr ≠ p
  | .write addr _ => ¬(p ≤ addr ∧ addr < p + n)
  | _ => True

section

variable {pool size : Nat} {m : Memory} {s t : HeapState} {call : MallocCall} {n : Nat}

theorem malloc_eq (m : Memory) (pool n : Nat) : malloc m pool n = losMemAlloc m pool n := by
  unfold malloc
  split
  · next hzero => rw [hzero, losMemAlloc_refused m pool 0 (by omega) (.inl rfl)]
  · rfl

theorem memalign_eq (m : Memory) (pool boundary n : Nat) :
    memalign m pool boundary n = losMemAllocAlign m pool n boundary := by
  unfold memalign
  split
  · next hzero =>
    unfold losMemAllocAlign
    rw [if_pos (.inr (.inl hzero))]
  · rfl

theorem memsetS_eq {dest : Nat} (hdest : dest ≠ 0) (hn : n ≤ securecMemMaxLen) (m : Memory) (c : Byte) :
    memsetS m dest n c n = fillBytes m dest c n := if_pos ⟨hn, hdest, Nat.le_refl n⟩

theorem zalloc_eq (m : Memory) (pool : Nat) (hn : n < 4294967296) :
    zalloc m pool n = (if (losMemAlloc m pool n).2 = 0 then (losMemAlloc m pool n).1
      else fillBytes (losMemAlloc m pool n).1 (losMemAlloc m pool n).2 0 n, (losMemAlloc m pool n).2) := by
  unfold zalloc
  by_cases hrefused : n = 0 ∨ 1073741824 ≤ n
  · rw [losMemAlloc_refused m pool n hn hrefused]
    split <;> rfl
  · rw [if_neg fun hzero => hrefused (.inl hzero)]
    dsimp only
    by_cases hptr : (losMemAlloc m pool n).2 = 0
    · rw [if_neg (not_not.mpr hptr), if_pos hptr]
    · rw [if_pos hptr, if_neg hptr, memsetS_eq hptr (by unfold securecMemMaxLen; omega)]

theorem calloc_eq (m : Memory) (pool nitems n : Nat) : calloc m pool nitems n = zalloc m pool (callocSize nitems n) := by
  unfold calloc zalloc
  by_cases hzero : nitems = 0 ∨ n = 0
  · have hsize : callocSize nitems n = 0 := by
      unfold callocSize
      rcases hzero with rfl | rfl
      · rw [Nat.zero_mul]
      · rw [Nat.mul_zero]
    rw [if_pos hzero, if_pos hsize]
  · rw [if_neg hzero]
    by_cases hsize : callocSize nitems n = 0
    · -- the product has wrapped to nothing
      rw [if_pos hsize, hsize]
      dsimp only
      rw [losMemAlloc_refused m pool 0 (by omega) (.inl rfl)]
      rfl
    · rw [if_neg hsize]

/-! ### The calls as calls of the allocator -/

theorem fillBytes_succ (m : Memory) (dest : Nat) (c : Byte) (n : Nat) :
    fillBytes m dest c (n + 1) = store8 (fillBytes m dest c n) (dest + n) c := by
  funext x
  unfold fillBytes store8
  by_cases hlast : x = dest + n
  · rw [if_pos hlast, if_pos (by omega)]
  · rw [if_neg hlast]
    exact if_congr (by omega) rfl rfl

theorem fill_run (s : HeapState) {ptr : Nat} (c : Byte) : ∀ n, (∀ i < n, InPayload s.live (ptr + i)) →
    ∃ ops, Run (HeapStep pool size) s ops ⟨fillBytes s.mem ptr c n, s.live⟩ := by
  intro n
  induction n with
  | zero =>
    intro _
    have hsame : fillBytes s.mem ptr c 0 = s.mem := by
      funext x
      exact if_neg (by omega)
    rw [hsame]
    exact ⟨[], .nil⟩
  | succ n ih =>
    intro hmay
    obtain ⟨ops, hrun⟩ := ih fun i hi => hmay i (Nat.lt_succ_of_lt hi)
    rw [fillBytes_succ]
    exact ⟨_, run_append hrun (run_single (HeapStep.write _ (ptr + n) c (.inl (hmay n (Nat.lt_succ_self n)))))⟩

theorem inPayload_grant {ptr i : Nat} (live : Nat → Option Request) (hptr : ptr ≠ 0) (hi : i < n) :
    InPayload (grant live ptr ⟨n, 4⟩) (ptr + i) :=
  ⟨ptr, ⟨n, 4⟩, grant_self live _ hptr, Nat.le_add_right .., Nat.add_lt_add_left hi ptr⟩

theorem zalloc_run (s : HeapState) (n : Fin 4294967296) : ∃ ops, Run (HeapStep pool size) s ops
    ⟨(zalloc s.mem pool n).1, grant s.live (zalloc s.mem pool n).2 ⟨n, 4⟩⟩ := by
  have halloc := run_single (HeapStep.alloc s n : HeapStep pool size _ _ _)
  rw [zalloc_eq s.mem pool n.isLt]
  by_cases hptr : (losMemAlloc s.mem pool n).2 = 0
  · rw [if_pos hptr]
    exact ⟨_, halloc⟩
  · rw [if_neg hptr]
    have hinside : ∀ i < n.val, _ := fun i hi => inPayload_grant s.live hptr hi
    obtain ⟨ops, hfill⟩ := fill_run ⟨(losMemAlloc s.mem pool n).1,
      grant s.live (losMemAlloc s.mem pool n).2 ⟨n, 4⟩⟩ 0 n.val hinside
    exact ⟨_, run_append halloc hfill⟩

theorem mallocStep_cases (h : MallocStep pool size s call t) :
    t = s ∨ (∃ op, HeapStep pool size s op t ∧ ∀ p n, call.spares p n → op.spares p n) ∨
      ∃ n : Fin 4294967296, t = ⟨(zalloc s.mem pool n).1, grant s.live (zalloc s.mem pool n).2 ⟨n, 4⟩⟩ := by
  cases h with
  | malloc n =>
    rw [malloc_eq]
    exact .inr (.inl ⟨_, HeapStep.alloc s n, fun _ _ _ => trivial⟩)
  | zalloc n => exact .inr (.inr ⟨n, rfl⟩)
  | calloc nitems n =>
    rw [calloc_eq]
    exact .inr (.inr ⟨⟨callocSize nitems n, Nat.mod_lt _ (by omega)⟩, rfl⟩)
  | memalign boundary n =>
    rw [memalign_eq]
    exact .inr (.inl ⟨_, HeapStep.allocAlign s n boundary, fun _ _ _ => trivial⟩)
  | freeNull => exact .inl rfl
  | free ptr hptr hlive =>
    unfold free
    rw [if_neg hptr]
    exact .inr (.inl ⟨_, HeapStep.free s ptr hlive, fun _ _ hspared => hspared⟩)
  | reallocNull n =>
    have heq : realloc s.mem pool 0 n = losMemAlloc s.mem pool n := by
      unfold realloc
      rw [if_pos rfl, malloc_eq]
    rw [heq]
    exact .inr (.inl ⟨_, HeapStep.alloc s n, fun _ _ _ => trivial⟩)
  | reallocZero ptr hptr hlive =>
    have heq : realloc s.mem pool ptr 0 = ((losMemFree s.mem pool ptr).1, 0) := by
      unfold realloc free
      rw [if_neg hptr, if_pos rfl, if_neg hptr]
    rw [heq]
    exact .inr (.inl ⟨_, HeapStep.free s ptr hlive, fun _ _ hspared => hspared⟩)
  | realloc ptr hptr hlive n hn =>
    have heq : realloc s.mem pool ptr n = losMemRealloc s.mem pool ptr n := by
      unfold realloc
      rw [if_neg hptr, if_neg hn]
    rw [heq]
    exact .inr (.inl ⟨_, HeapStep.realloc s ptr hlive n hn, fun _ _ hspared => hspared⟩)
  | write addr value hmay => exact .inr (.inl ⟨_, HeapStep.write s addr value hmay, fun _ _ hspared => hspared⟩)

theorem mallocStep_run (h : MallocStep pool size s call t) : ∃ ops, Run (HeapStep pool size) s ops t := by
  rcases mallocStep_cases h with rfl | ⟨op, hstep, -⟩ | ⟨n, rfl⟩
  · exact ⟨[], .nil⟩
  · exact ⟨[op], run_single hstep⟩
  · exact zalloc_run s n

theorem mallocRun_heapRun {calls : List MallocCall} (h : Run (MallocStep pool size) s calls t) :
    ∃ ops, Run (HeapStep pool size) s ops t := by
  induction h with
  | nil => exact ⟨[], .nil⟩
  | snoc run last ih =>
    obtain ⟨ops, hops⟩ := ih
    obtain ⟨ops', hops'⟩ := mallocStep_run last
    exact ⟨ops ++ ops', run_append hops hops'⟩

/-! ### What the calls hand out -/

theorem losMemAlloc_fresh (hlimit : size ≤ 268435456) (hinv : HeapInv pool size s) (n : Fin 4294967296)
    (hptr : (losMemAlloc s.mem pool n).2 ≠ 0) : s.live (losMemAlloc s.mem pool n).2 = none := by
  obtain ⟨v, h, hlive⟩ := hinv
  obtain heq | ⟨v', b, _, _, _, ho, _, ⟨a, ha, hab, hafree, hle⟩, _⟩ :=
    losMemAlloc_spec h n n.isLt (Or.inr hlimit)
  · exact absurd (congrArg Prod.snd heq) hptr
  · have hin := b.inside _ ho
    have hfresh := h.layout.fresh_owner ha hafree (losMemAlloc s.mem pool n).2 (by omega)
    by_contra hlived
    obtain ⟨r, hr⟩ := Option.ne_none_iff_exists'.mp hlived
    obtain ⟨c, hc, hco, _⟩ := hlive _ r hr
    exact hfresh c hc hco

theorem losMemAlloc_null (hlimit : size ≤ 268435456) (hinv : HeapInv pool size s) (n : Fin 4294967296)
    (hptr : (losMemAlloc s.mem pool n).2 = 0) : (losMemAlloc s.mem pool n).1 = s.mem := by
  obtain ⟨v, h, hlive⟩ := hinv
  obtain heq | ⟨v', b, _, _, _, ho, _⟩ := losMemAlloc_spec h n n.isLt (Or.inr hlimit)
  · exact congrArg Prod.fst heq
  · have hin := b.inside _ ho
    omega

theorem zalloc_kept (hlimit : size ≤ 268435456) (hinv : HeapInv pool size s) (n : Fin 4294967296) {p : Nat}
    {r : Request} (hp : s.live p = some r) :
    grant s.live (zalloc s.mem pool n).2 ⟨n, 4⟩ p = some r ∧
      ∀ x, p ≤ x → x < p + r.size → (zalloc s.mem pool n).1 x = s.mem x := by
  have hstep : HeapStep pool size s (.alloc n) _ := HeapStep.alloc s n
  obtain ⟨⟨v, h, hlive⟩, hkept⟩ := heapStep_inv s _ _ (HeapOp.orderly_small hlimit _) hinv hstep
  obtain ⟨hp', hbytes⟩ := hkept p r trivial hp
  rw [zalloc_eq s.mem pool n.isLt]
  refine ⟨hp', fun x hlo hhi => ?_⟩
  by_cases hptr : (losMemAlloc s.mem pool n).2 = 0
  · rw [if_pos hptr]
    exact hbytes x hlo hhi
  · rw [if_neg hptr]
    have hne : (losMemAlloc s.mem pool n).2 ≠ p := fun heq => by
      have hfresh := losMemAlloc_fresh hlimit hinv n hptr
      rw [heq, hp] at hfresh
      cases hfresh
    have hapart := (holds_apart h hlive p r hp').disjoint _ _ (grant_self s.live _ hptr) hne
    dsimp only at hapart ⊢
    rw [fillBytes_outside _ _ _ _ _ (by omega)]
    exact hbytes x hlo hhi

/-- What the calls keep and hand out in a state. -/
structure MallocSound (pool size : Nat) (s : HeapState) : Prop where
  wellFormed : HeapWf s.mem pool size
  apart : ∃ ns, NodeWalk s.mem (osMemFirstNode pool) ns (osMemEndNode pool size) ∧
    ∀ p r, s.live p = some r → PayloadApart pool size s.live ns p r
  kept : ∀ call t p r, MallocStep pool size s call t → call.spares p r.size → s.live p = some r →
    t.live p = some r ∧ ∀ x, p ≤ x → x < p + r.size → t.mem x = s.mem x
  zeroed : ∀ n : Fin 4294967296, (zalloc s.mem pool n).2 ≠ 0 → s.live (zalloc s.mem pool n).2 = none ∧
    ∀ i < n.val, (zalloc s.mem pool n).1 ((zalloc s.mem pool n).2 + i) = 0
  array : ∀ nitems n : Fin 4294967296, (calloc s.mem pool nitems n).2 ≠ 0 →
    s.live (calloc s.mem pool nitems n).2 = none ∧
      ∀ i < callocSize nitems n, (calloc s.mem pool nitems n).1 ((calloc s.mem pool nitems n).2 + i) = 0
  null : ∀ nitems n : Fin 4294967296, (calloc s.mem pool nitems n).2 = 0 → (calloc s.mem pool nitems n).1 = s.mem

theorem zalloc_zeroed (hlimit : size ≤ 268435456) (hinv : HeapInv pool size s) (n : Fin 4294967296)
    (hptr : (zalloc s.mem pool n).2 ≠ 0) : s.live (zalloc s.mem pool n).2 = none ∧
      ∀ i < n.val, (zalloc s.mem pool n).1 ((zalloc s.mem pool n).2 + i) = 0 := by
  rw [zalloc_eq s.mem pool n.isLt] at hptr ⊢
  dsimp only at hptr ⊢
  rw [if_neg hptr]
  exact ⟨losMemAlloc_fresh hlimit hinv n hptr, fun i hi => if_pos (by omega)⟩

theorem HeapInv.mallocSound (hlimit : size ≤ 268435456) (hinv : HeapInv pool size s) : MallocSound pool size s := by
  obtain ⟨v, h, hlive⟩ := hinv
  have hinv : HeapInv pool size s := ⟨v, h, hlive⟩
  refine ⟨⟨_, _, h.heapWf⟩, ⟨_, h.heapWf.walk, holds_apart h hlive⟩, fun call t p r hstep hspared hp => ?_,
    fun n hptr => zalloc_zeroed hlimit hinv n hptr, fun nitems n hptr => ?_, fun nitems n hptr => ?_⟩
  · rcases mallocStep_cases hstep with rfl | ⟨op, hop, hspares⟩ | ⟨n, rfl⟩
    · exact ⟨hp, fun x _ _ => rfl⟩
    · exact (heapStep_inv s t op (op.orderly_small hlimit) hinv hop).2 p r (hspares p r.size hspared) hp
    · exact zalloc_kept hlimit hinv n hp
  · rw [calloc_eq] at hptr ⊢
    exact zalloc_zeroed hlimit hinv ⟨callocSize nitems n, Nat.mod_lt _ (by omega)⟩ hptr
  · have hsize : callocSize nitems n < 4294967296 := Nat.mod_lt _ (by omega)
    rw [calloc_eq, zalloc_eq s.mem pool hsize] at hptr ⊢
    dsimp only at hptr ⊢
    rw [if_pos hptr]
    exact losMemAlloc_null hlimit hinv ⟨callocSize nitems n, hsize⟩ hptr

end

/-- After `LOS_MemInit` the calls of the C library are calls of the allocator, keep every block apart and
intact, and clear the arrays they are to clear. -/
theorem malloc_sound (pool size fuel : Nat) (s s' : MemState) (hroom : 968 ≤ size) (hlimit : size ≤ 268435456)
    (hinside : pool + size ≤ 4294967296)
    (hapart : ∀ q, Registered s.mem s.gPoolHead q → q + 944 ≤ pool ∨ pool + size ≤ q)
    (hinit : losMemInit fuel s pool size = some (s', losOk)) (calls : List MallocCall) (t : HeapState)
    (hrun : Run (MallocStep pool size) ⟨s'.mem, fun _ => none⟩ calls t) :
    (∃ ops, Run (HeapStep pool size) ⟨s'.mem, fun _ => none⟩ ops t) ∧ MallocSound pool size t := by
  obtain ⟨ops, hops⟩ := mallocRun_heapRun hrun
  have hinv := heapInv_init fuel s s' hroom (by omega) hinside hapart hinit
  exact ⟨⟨ops, hops⟩, HeapInv.mallocSound hlimit (heapInv_run _ t ops hlimit hinv hops)⟩

/-- An array of three words in the first pool. -/
theorem malloc_sound_firstPool : ∃ t, Run (MallocStep 4096 1024) ⟨firstPool.mem, fun _ => none⟩ [.calloc 3 4] t ∧
    MallocSound 4096 1024 t := by
  have hrun := run_single (MallocStep.calloc ⟨firstPool.mem, fun _ => none⟩ 3 4 : MallocStep 4096 1024 _ _ _)
  exact ⟨_, hrun, (malloc_sound 4096 1024 1 zeroState firstPool (by omega) (by omega) (by omega)
    (fun q hq => (zeroState_registered q hq).elim) losMemInit_firstPool _ _ hrun).2⟩

end LiteosM.Malloc
