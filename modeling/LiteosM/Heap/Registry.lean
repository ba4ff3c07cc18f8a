import LiteosM.Heap.Floor
import LiteosM.Lib.NextList

/-!
# The registered pools

`g_poolHead` starts a chain through the heads of the pools themselves, and
`LOS_MemInit` formats its region before it looks at the chain.
-/

namespace LiteosM.Heap
open Lib.ByteMemory Lib.Word32 Lib.NextList Lib.Transition

/-! ### OsMemPoolDelete, LOS_MemDeInit -/

/-- The pool in front of `pool` on the chain, if it is there; `none` when the fuel runs out. -/
def osMemPoolFind (m : Memory) (pool : Nat) : Nat → Nat → Nat → Option (Option Nat)
  | 0, _, _ => none
  | fuel + 1, nextPtr, curPool =>
    if nextPtr = 0 then some none
    else if pool = nextPtr then some (some curPool)
    else osMemPoolFind m pool fuel (nextPool m nextPtr) nextPtr

def osMemPoolDelete (fuel : Nat) (s : MemState) (pool : Nat) : Option (MemState × Nat) :=
  if pool = s.gPoolHead then
    some ({ s with gPoolHead := nextPool s.mem s.gPoolHead }, losOk)
  else
    match osMemPoolFind s.mem pool fuel s.gPoolHead s.gPoolHead with
    | none => none
    | some none => some (s, losNok)
    | some (some curPool) =>
      some ({ s with mem := setNextPool s.mem curPool (nextPool s.mem pool) }, losOk)

def losMemDeInit (fuel : Nat) (s : MemState) (pool : Nat) : Option (MemState × Nat) :=
  if pool = 0 then some (s, osError)
  else
    match osMemPoolDelete fuel s pool with
    | none => none
    | some (s, 0) => some ({ s with mem := osMemPoolDeinit s.mem pool }, losOk)
    | some (s, _) => some (s, osError)

/-! ### The chain -/

/-- A pointer of the source, `NULL` apart. -/
def pointer (x : Nat) : Option Nat := if x = 0 then none else some x

def PoolList (s : MemState) (l : List Nat) : Prop :=
  Linked (fun q => pointer (nextPool s.mem q)) (pointer s.gPoolHead) l

/-- The bytes of the pool at `q`, as its head has its size. -/
def poolEnd (m : Memory) (q : Nat) : Nat := q + totalSize m q

/-- The region of `n` bytes at `p` is apart from the pool at `q`, or inside its payload. -/
def ClearOf (m : Memory) (p n q : Nat) : Prop :=
  p + n ≤ q ∨ poolEnd m q ≤ p ∨ (q + 944 ≤ p ∧ p + n + 8 ≤ poolEnd m q)

/-- Two registered pools are disjoint or one lies inside the payload of the other. -/
def PoolsApart (m : Memory) (p q : Nat) : Prop :=
  ClearOf m p (totalSize m p) q ∨ ClearOf m q (totalSize m q) p

structure PoolOk (m : Memory) (q : Nat) : Prop where
  nonzero : q ≠ 0
  aligned : q % 4 = 0
  room : 952 < totalSize m q
  inside : poolEnd m q ≤ 4294967296

structure Registry (s : MemState) (l : List Nat) : Prop where
  chain : PoolList s l
  nodup : l.Nodup
  ok : ∀ q ∈ l, PoolOk s.mem q
  apart : ∀ p ∈ l, ∀ q ∈ l, p ≠ q → PoolsApart s.mem p q

section
variable {s s' : MemState} {l : List Nat} {m m' : Memory} {pool size p q : Nat}

theorem pointer_pos (h : p ≠ 0) : pointer p = some p := if_neg h

theorem pointer_some (h : pointer p = some q) : p = q ∧ q ≠ 0 := by
  unfold pointer at h
  split at h
  · cases h
  · next hp =>
    cases h
    exact ⟨rfl, hp⟩

theorem pointer_none (h : pointer p = none) : p = 0 := by
  unfold pointer at h
  split at h
  · next hp => exact hp
  · cases h

/-- The words of the heads the chain and the sizes are read from. -/
structure SameHeads (m m' : Memory) (q : Nat) : Prop where
  size : totalSize m' q = totalSize m q
  next : nextPool m' q = nextPool m q

theorem clearOf_congr (h : totalSize m' q = totalSize m q) :
    ClearOf m' p size q ↔ ClearOf m p size q := by
  unfold ClearOf poolEnd
  rw [h]

theorem poolsApart_congr (hp : totalSize m' p = totalSize m p) (hq : totalSize m' q = totalSize m q) :
    PoolsApart m' p q ↔ PoolsApart m p q := by
  unfold PoolsApart
  rw [hp, hq, clearOf_congr hq, clearOf_congr hp]

theorem PoolOk.congr (h : PoolOk m q) (hs : totalSize m' q = totalSize m q) : PoolOk m' q := by
  refine ⟨h.nonzero, h.aligned, ?_, ?_⟩
  · rw [hs]
    exact h.room
  · unfold poolEnd
    rw [hs]
    exact h.inside

theorem heads_apart (hp : PoolOk m p) (hq : PoolOk m q) (h : PoolsApart m p q) :
    p + 944 ≤ q ∨ q + 944 ≤ p := by
  have hpr := hp.room
  have hqr := hq.room
  unfold PoolsApart ClearOf poolEnd at h
  omega

theorem Registry.heads (h : Registry s l) (hp : p ∈ l) (hq : q ∈ l) (hne : p ≠ q) :
    p + 944 ≤ q ∨ q + 944 ≤ p :=
  heads_apart (h.ok p hp) (h.ok q hq) (h.apart p hp q hq hne)

theorem clearOf_head (hq : PoolOk m q) (h : ClearOf m p size q) :
    p + size ≤ q ∨ q + 944 ≤ p := by
  have hqr := hq.room
  unfold ClearOf poolEnd at h
  omega

theorem clearOf_no_conflict (hq : PoolOk m q) (h : ClearOf m pool size q)
    (hin : pool + size ≤ 4294967296) :
    ¬((pool ≤ q ∧ add32 pool size > q) ∨
      (pool < add32 q (losMemPoolSizeGet m q) ∧ add32 pool size ≥ add32 q (losMemPoolSizeGet m q))) := by
  have hqr := hq.room
  have hqi := hq.inside
  have hsize : losMemPoolSizeGet m q = totalSize m q := if_neg hq.nonzero
  rw [hsize]
  unfold ClearOf poolEnd at *
  unfold add32
  omega

theorem osMemPoolConflict_clear (l : List Nat) (fuel nextPtr cur : Nat) (r : Bool × Nat)
    (h : Linked (fun q => pointer (nextPool m q)) (pointer nextPtr) l)
    (hok : ∀ q ∈ l, PoolOk m q ∧ ClearOf m pool size q) (hin : pool + size ≤ 4294967296)
    (hr : osMemPoolConflict m pool size fuel nextPtr cur = some r) : r = (false, l.getLastD cur) := by
  induction l generalizing fuel nextPtr cur with
  | nil =>
    have hz := pointer_none h
    cases fuel with
    | zero => cases hr
    | succ fuel =>
      unfold osMemPoolConflict at hr
      rw [if_pos hz] at hr
      exact (Option.some.inj hr).symm
  | cons q l ih =>
    obtain ⟨hq, hrest⟩ := h
    obtain ⟨rfl, h0⟩ := pointer_some hq
    obtain ⟨hqok, hclear⟩ := hok _ List.mem_cons_self
    cases fuel with
    | zero => cases hr
    | succ fuel =>
      unfold osMemPoolConflict at hr
      rw [if_neg h0] at hr
      simp only at hr
      rw [if_neg (clearOf_no_conflict hqok hclear hin)] at hr
      rw [ih fuel _ _ hrest (fun q hq => hok q (List.mem_cons_of_mem _ hq)) hr, List.getLastD_cons]

theorem osMemPoolConflict_ends (pool size : Nat) (l : List Nat) (nextPtr cur : Nat)
    (h : Linked (fun q => pointer (nextPool m q)) (pointer nextPtr) l) :
    ∃ r, ∀ fuel, l.length < fuel → osMemPoolConflict m pool size fuel nextPtr cur = some r := by
  induction l generalizing nextPtr cur with
  | nil =>
    have hz := pointer_none h
    refine ⟨(false, cur), fun fuel hf => ?_⟩
    cases fuel with
    | zero => cases hf
    | succ fuel =>
      unfold osMemPoolConflict
      rw [if_pos hz]
  | cons q l ih =>
    obtain ⟨hq, hrest⟩ := h
    obtain ⟨rfl, h0⟩ := pointer_some hq
    obtain ⟨r, hr⟩ := ih _ nextPtr hrest
    let poolEnd := add32 nextPtr (losMemPoolSizeGet m nextPtr)
    by_cases hstop : (pool ≤ nextPtr ∧ add32 pool size > nextPtr) ∨
        (pool < poolEnd ∧ add32 pool size ≥ poolEnd)
    · refine ⟨(true, cur), fun fuel hf => ?_⟩
      cases fuel with
      | zero => cases hf
      | succ fuel =>
        unfold osMemPoolConflict
        rw [if_neg h0]
        exact if_pos hstop
    · refine ⟨r, fun fuel hf => ?_⟩
      cases fuel with
      | zero => cases hf
      | succ fuel =>
        unfold osMemPoolConflict
        rw [if_neg h0]
        exact (if_neg hstop).trans (hr fuel (by simpa using hf))

/-! ### LOS_MemInit -/

/-- A region the parameter checks let pass. -/
structure RegionArgs (pool size : Nat) : Prop where
  nonzero : pool ≠ 0
  room : 952 < size
  aligned : pool % 4 = 0
  whole : size % 4 = 0

def RegionClear (s : MemState) (pool size : Nat) : Prop :=
  ∀ l, PoolList s l → ∀ q ∈ l, ClearOf s.mem pool size q

theorem losMemInit_args (fuel : Nat) (r : Nat)
    (hinit : losMemInit fuel s pool size = some (s', r)) :
    (s' = s ∧ r ≠ losOk) ∨ RegionArgs pool size := by
  unfold losMemInit at hinit
  split at hinit
  · cases hinit
    exact Or.inl ⟨rfl, by decide⟩
  · next h0 =>
    split at hinit
    · cases hinit
      exact Or.inl ⟨rfl, by decide⟩
    · next h4 =>
      have hmod : ∀ x, x &&& (osMemAlignSize - 1) = x % 4 := fun x =>
        Nat.and_two_pow_sub_one_eq_mod x 2
      rw [hmod, hmod] at h4
      have hmin : osMemMinPoolSize = 952 := rfl
      rw [hmin] at h0
      exact Or.inr ⟨by omega, by omega, by omega, by omega⟩

theorem osMemPoolInit_touches (m : Memory) (ha : RegionArgs pool size)
    (hin : pool + size ≤ 4294967296) :
    Touches (fun a => pool ≤ a ∧ (a < pool + 960 ∨ a < pool + size)) m
        (osMemPoolInit m pool size) ∧
      totalSize (osMemPoolInit m pool size) pool = size := by
  by_cases h968 : 968 ≤ size
  · obtain ⟨ht, _, _, htotal⟩ :=
      osMemPoolInit_words m ha.nonzero ha.aligned ha.whole h968 hin
    exact ⟨touches_mono _ _ _ _ ht fun a ha => ⟨ha.1, Or.inr ha.2⟩, htotal⟩
  · obtain ⟨ht, htotal, _⟩ := osMemPoolInit_cramped m ha.nonzero ha.aligned ha.whole
      ⟨ha.room, by omega⟩ hin
    exact ⟨ht, htotal⟩

theorem formatted_heads (ha : RegionArgs pool size) (hin : pool + size ≤ 4294967296)
    (hq : PoolOk m q) (hclear : ClearOf m pool size q) :
    SameHeads m (osMemPoolInit m pool size) q := by
  obtain ⟨ht, _⟩ := osMemPoolInit_touches m ha hin
  have hhead := clearOf_head hq hclear
  have hqa := hq.aligned
  have hroom := ha.room
  have hpa := ha.aligned
  have hs := ha.whole
  exact ⟨touches_load32 _ _ _ ht _ (by omega) (by omega),
    touches_load32 _ _ _ ht _ (by omega) (by omega)⟩

theorem poolList_snoc (h : Registry s l) (hpool : ∀ q ∈ l, q ≠ pool) (h0 : pool ≠ 0)
    (hnew : nextPool s'.mem pool = 0)
    (hhead : s'.gPoolHead = if s.gPoolHead = 0 then pool else s.gPoolHead)
    (hlast : ∀ q ∈ l, nextPool s'.mem q = if q = l.getLastD s.gPoolHead then pool
      else nextPool s.mem q) : PoolList s' (l ++ [pool]) := by
  have hlink : Linked (fun q => pointer (nextPool s'.mem q))
      (some ((pointer s.gPoolHead).getD pool)) (l ++ [pool]) :=
    linked_snoc h.chain (by simp [pointer, hnew]) (fun a ha hnone => ?_) fun a ha hsome => ?_
  · unfold PoolList
    rw [hhead]
    cases hg : pointer s.gPoolHead with
    | none =>
      rw [hg] at hlink
      rw [if_pos (pointer_none hg), pointer_pos h0]
      exact hlink
    | some g =>
      rw [hg] at hlink
      obtain ⟨hgg, hg0⟩ := pointer_some hg
      rw [if_neg (by omega), hg]
      exact hlink
  · have hend : a = l.getLastD s.gPoolHead := by
      obtain rfl | ⟨u, x, rfl⟩ := List.eq_nil_or_concat l
      · cases ha
      · rw [List.concat_eq_append] at ha ⊢
        have hchain := h.chain
        rw [List.concat_eq_append] at hchain
        have hx := linked_end hchain ha hnone
        rw [hx, List.getLastD_concat]
    have hword := hlast a ha
    rw [if_pos hend] at hword
    show pointer (nextPool s'.mem a) = some pool
    rw [hword, pointer_pos h0]
  · have hend : a ≠ l.getLastD s.gPoolHead := by
      obtain rfl | ⟨u, x, rfl⟩ := List.eq_nil_or_concat l
      · cases ha
      · intro hax
        have hchain := h.chain
        rw [List.concat_eq_append] at hchain hax
        rw [List.getLastD_concat] at hax
        rw [hax] at hsome
        exact hsome (@linked_last _ (fun q => pointer (nextPool s.mem q)) _ _ _ hchain)
    have hword := hlast a ha
    rw [if_neg hend] at hword
    show pointer (nextPool s'.mem a) = pointer (nextPool s.mem a)
    rw [hword]

theorem osMemPoolAdd_clear (fuel r : Nat)
    (hchain : Linked (fun q => pointer (nextPool s.mem q)) (pointer s.gPoolHead) l)
    (hok : ∀ q ∈ l, PoolOk s.mem q ∧ ClearOf s.mem pool size q) (hin : pool + size ≤ 4294967296)
    (hadd : osMemPoolAdd fuel s pool size = some (s', r)) :
    r = losOk ∧ s'.gPoolHead = (if s.gPoolHead = 0 then pool else s.gPoolHead) ∧
      s'.mem = setNextPool (if s.gPoolHead = 0 then s.mem
        else setNextPool s.mem (l.getLastD s.gPoolHead) pool) pool 0 := by
  unfold osMemPoolAdd at hadd
  cases hwalk : osMemPoolConflict s.mem pool size fuel s.gPoolHead s.gPoolHead with
  | none =>
    rw [hwalk] at hadd
    cases hadd
  | some c =>
    rw [hwalk, osMemPoolConflict_clear l fuel _ _ c hchain hok hin hwalk] at hadd
    obtain ⟨rfl, rfl⟩ := Prod.mk.inj (Option.some.inj hadd)
    by_cases hg : s.gPoolHead = 0
    · simp only [hg, if_true]
      exact ⟨trivial, trivial, trivial⟩
    · simp only [hg, if_false]
      exact ⟨trivial, trivial, trivial⟩

theorem losMemInit_passed (ha : RegionArgs pool size) (fuel r : Nat)
    (hinit : losMemInit fuel s pool size = some (s', r)) :
    ∃ s₁ r₁, osMemPoolAdd fuel { s with mem := osMemPoolInit s.mem pool size } pool size =
      some (s₁, r₁) ∧ (r₁ = losOk → s' = s₁ ∧ r = losOk) := by
  have hmod : ∀ x, x &&& (osMemAlignSize - 1) = x % 4 := fun x => Nat.and_two_pow_sub_one_eq_mod x 2
  have hmin : osMemMinPoolSize = 952 := rfl
  have h0 := ha.nonzero
  have hroom := ha.room
  have hp := ha.aligned
  have hs := ha.whole
  unfold losMemInit at hinit
  rw [if_neg (by omega), hmod, hmod, if_neg (by omega)] at hinit
  cases hadd : osMemPoolAdd fuel { s with mem := osMemPoolInit s.mem pool size } pool size with
  | none =>
    rw [hadd] at hinit
    cases hinit
  | some c =>
    obtain ⟨s₁, r₁⟩ := c
    refine ⟨s₁, r₁, rfl, fun hr₁ => ?_⟩
    rw [hadd, hr₁] at hinit
    obtain ⟨rfl, rfl⟩ := Prod.mk.inj (Option.some.inj hinit)
    exact ⟨rfl, rfl⟩

theorem Registry.resized (h : Registry s l) (l' : List Nat) (hsub : ∀ q ∈ l', q ∈ l)
    (hsize : ∀ q ∈ l', totalSize m' q = totalSize s.mem q) :
    (∀ q ∈ l', PoolOk m' q) ∧ ∀ p ∈ l', ∀ q ∈ l', p ≠ q → PoolsApart m' p q :=
  ⟨fun q hq => (h.ok q (hsub q hq)).congr (hsize q hq), fun p hp q hq hne =>
    (poolsApart_congr (hsize p hp) (hsize q hq)).mpr (h.apart p (hsub p hp) q (hsub q hq) hne)⟩

theorem linked_words (h : Registry s l) (ha : RegionArgs pool size)
    (hin : pool + size ≤ 4294967296) (hclear : ∀ q ∈ l, ClearOf s.mem pool size q)
    (hmem : s'.mem = setNextPool (if s.gPoolHead = 0 then m
      else setNextPool m (l.getLastD s.gPoolHead) pool) pool 0) (hpool : ∀ q ∈ l, q ≠ pool) :
    nextPool s'.mem pool = 0 ∧ totalSize s'.mem pool = totalSize m pool ∧
      (∀ q ∈ l, totalSize s'.mem q = totalSize m q) ∧
      ∀ q ∈ l, nextPool s'.mem q = if q = l.getLastD s.gPoolHead then pool else nextPool m q := by
  have hpa := ha.aligned
  have hroom := ha.room
  have hchain := h.chain
  unfold nextPool totalSize
  rw [hmem]
  unfold setNextPool
  obtain rfl | ⟨u, x, rfl⟩ := List.eq_nil_or_concat l
  · have hg : s.gPoolHead = 0 := pointer_none hchain
    rw [if_pos hg]
    refine ⟨load32_store32_same _ _ _ (by omega), load32_store32_apart _ _ _ _ (by omega),
      fun q hq => ?_, fun q hq => ?_⟩
    · cases hq
    · cases hq
  · have hg : s.gPoolHead ≠ 0 := fun hg => by
      have hhead := linked_head hchain
      rw [hg] at hhead
      cases u with
      | nil => cases hhead
      | cons a u => cases hhead
    rw [if_neg hg, List.concat_eq_append, List.getLastD_concat]
    have hx : x ∈ u.concat x := by simp
    have hxa := (h.ok x hx).aligned
    have hxp := hpool x hx
    have hxhead := clearOf_head (h.ok x hx) (hclear x hx)
    refine ⟨load32_store32_same _ _ _ (by omega), ?_, fun q hq => ?_, fun q hq => ?_⟩
    · rw [load32_store32_apart _ _ _ _ (by omega), load32_store32_apart _ _ _ _ (by omega)]
    · have hq : q ∈ u.concat x := by simpa using hq
      have hqhead := clearOf_head (h.ok q hq) (hclear q hq)
      rw [load32_store32_apart _ _ _ _ (by omega)]
      by_cases hqx : q = x
      · rw [hqx, load32_store32_apart _ _ _ _ (by omega)]
      · have hheads := h.heads hq hx hqx
        rw [load32_store32_apart _ _ _ _ (by omega)]
    · have hq : q ∈ u.concat x := by simpa using hq
      have hqp := hpool q hq
      have hqa := (h.ok q hq).aligned
      rw [load32_store32_aligned _ _ _ _ (by omega) (by omega) (by omega)]
      by_cases hqx : q = x
      · rw [if_pos hqx, hqx, load32_store32_same _ _ _ (by omega)]
      · rw [if_neg hqx, load32_store32_aligned _ _ _ _ (by omega) (by omega) (by omega)]

/-- `LOS_MemInit` on a clear region: refused without a trace by the parameter
checks, or the region is the last registered pool. -/
theorem losMemInit_clear (h : Registry s l) (hin : pool + size ≤ 4294967296)
    (hclear : RegionArgs pool size → RegionClear s pool size) (fuel r : Nat)
    (hinit : losMemInit fuel s pool size = some (s', r)) :
    (s' = s ∧ r ≠ losOk) ∨ (r = losOk ∧ Registry s' (l ++ [pool])) := by
  obtain hargs | ha := losMemInit_args fuel r hinit
  · exact Or.inl hargs
  have hclear := hclear ha l h.chain
  have hroom := ha.room
  obtain ⟨ht, htotal⟩ := osMemPoolInit_touches s.mem ha hin
  have hheads : ∀ q ∈ l, SameHeads s.mem (osMemPoolInit s.mem pool size) q := fun q hq =>
    formatted_heads ha hin (h.ok q hq) (hclear q hq)
  have hpool : ∀ q ∈ l, q ≠ pool := fun q hq => by
    have hhead := clearOf_head (h.ok q hq) (hclear q hq)
    omega
  obtain ⟨s₁, r₁, hadd, hdone⟩ := losMemInit_passed ha fuel r hinit
  generalize osMemPoolInit s.mem pool size = m at ht htotal hheads hadd
  have hchain : Linked (fun q => pointer (nextPool m q)) (pointer s.gPoolHead) l :=
    linked_congr h.chain fun q hq => congrArg pointer (hheads q hq).next
  obtain ⟨hr₁, hhead, hmem⟩ := osMemPoolAdd_clear fuel r₁ hchain (fun q hq =>
    ⟨(h.ok q hq).congr (hheads q hq).size, (clearOf_congr (hheads q hq).size).mpr (hclear q hq)⟩)
    hin hadd
  obtain ⟨rfl, hr⟩ := hdone hr₁
  have hpa := ha.aligned
  obtain ⟨hnew, hsizeNew, hsizes, hlast⟩ := linked_words h ha hin hclear hmem hpool
  have hold : ∀ q ∈ l, totalSize s'.mem q = totalSize s.mem q := fun q hq =>
    (hsizes q hq).trans (hheads q hq).size
  have hsizePool := hsizeNew.trans htotal
  have hend : poolEnd s'.mem pool = pool + size := by
    unfold poolEnd
    rw [hsizePool]
  obtain ⟨hoks, haparts⟩ := h.resized l (fun q hq => hq) hold
  have hself : ∀ q ∈ l, ClearOf s'.mem pool (totalSize s'.mem pool) q := fun q hq => by
    rw [hsizePool]
    exact (clearOf_congr (hold q hq)).mpr (hclear q hq)
  have hokPool : PoolOk s'.mem pool := by
    refine ⟨ha.nonzero, hpa, ?_, ?_⟩
    · rw [hsizePool]
      exact hroom
    · rw [hend]
      exact hin
  have hmem : ∀ q ∈ l ++ [pool], q ∈ l ∨ q = pool := fun q hq => by simpa using hq
  refine Or.inr ⟨hr, ?_, ?_, fun q hq => ?_, fun p hp q hq hne => ?_⟩
  · refine poolList_snoc h hpool ha.nonzero hnew hhead fun q hq => ?_
    rw [hlast q hq, (hheads q hq).next]
  · refine List.nodup_append.mpr ⟨h.nodup, List.nodup_singleton pool, fun q hq p hp => ?_⟩
    rw [List.mem_singleton.mp hp]
    exact hpool q hq
  · cases hmem q hq with
    | inl hq => exact hoks q hq
    | inr hq => rw [hq]; exact hokPool
  · cases hmem p hp with
    | inl hp =>
      cases hmem q hq with
      | inl hq => exact haparts p hp q hq hne
      | inr hq =>
        rw [hq]
        exact Or.inr (hself p hp)
    | inr hp =>
      cases hmem q hq with
      | inl hq =>
        rw [hp]
        exact Or.inl (hself q hq)
      | inr hq => exact absurd (hp.trans hq.symm) hne

theorem losMemInit_formatted (ha : RegionArgs pool size) (fuel : Nat) (c : MemState × Nat)
    (hadd : osMemPoolAdd fuel { s with mem := osMemPoolInit s.mem pool size } pool size = some c) :
    losMemInit fuel s pool size = some (if c.2 = losOk then c
      else ({ c.1 with mem := osMemPoolDeinit c.1.mem pool }, osError)) := by
  have hmod : ∀ x, x &&& (osMemAlignSize - 1) = x % 4 := fun x => Nat.and_two_pow_sub_one_eq_mod x 2
  have hmin : osMemMinPoolSize = 952 := rfl
  have h0 := ha.nonzero
  have hroom := ha.room
  have hp := ha.aligned
  have hs := ha.whole
  obtain ⟨s₁, r⟩ := c
  unfold losMemInit
  rw [if_neg (by omega), hmod, hmod, if_neg (by omega), hadd]
  cases r <;> rfl

theorem osMemPoolAdd_ends (pool size : Nat) (s : MemState)
    (h : Linked (fun q => pointer (nextPool s.mem q)) (pointer s.gPoolHead) l) :
    ∃ c, ∀ fuel, l.length < fuel → osMemPoolAdd fuel s pool size = some c := by
  obtain ⟨⟨conflict, curPool⟩, hwalk⟩ :=
    osMemPoolConflict_ends pool size l _ s.gPoolHead h
  unfold osMemPoolAdd
  cases conflict with
  | true => exact ⟨(s, losNok), fun fuel hf => by rw [hwalk fuel hf]⟩
  | false => exact ⟨_, fun fuel hf => by rw [hwalk fuel hf]⟩

theorem losMemInit_ends (h : Registry s l) (hin : pool + size ≤ 4294967296)
    (hclear : RegionArgs pool size → RegionClear s pool size) :
    ∃ r, ∀ fuel, l.length < fuel → losMemInit fuel s pool size = some r := by
  by_cases ha : RegionArgs pool size
  · have hchain : Linked (fun q => pointer (nextPool (osMemPoolInit s.mem pool size) q))
        (pointer s.gPoolHead) l :=
      linked_congr h.chain fun q hq =>
        congrArg pointer (formatted_heads ha hin (h.ok q hq) (hclear ha l h.chain q hq)).next
    obtain ⟨c, hadd⟩ := osMemPoolAdd_ends pool size
      { s with mem := osMemPoolInit s.mem pool size } hchain
    exact ⟨_, fun fuel hf => losMemInit_formatted ha fuel c (hadd fuel hf)⟩
  · have hmod : ∀ x, x &&& (osMemAlignSize - 1) = x % 4 :=
      fun x => Nat.and_two_pow_sub_one_eq_mod x 2
    have hmin : osMemMinPoolSize = 952 := rfl
    refine ⟨(s, osError), fun fuel _ => ?_⟩
    unfold losMemInit
    rw [hmod, hmod]
    by_cases hroom : pool = 0 ∨ size ≤ osMemMinPoolSize
    · rw [if_pos hroom]
    · rw [if_neg hroom, if_pos (by_contra fun halign => ha ⟨by omega, by omega, by omega, by omega⟩)]

/-! ### A pool that the list did not have -/

theorem osMemPoolConflict_last (fuel nextPtr cur r : Nat)
    (hr : osMemPoolConflict m pool size fuel nextPtr cur = some (false, r)) :
    (nextPtr = 0 ∧ r = cur) ∨
      (nextPool m r = 0 ∧ ¬(pool ≤ r ∧ add32 pool size > r)) := by
  induction fuel generalizing nextPtr cur with
  | zero => cases hr
  | succ fuel ih =>
    unfold osMemPoolConflict at hr
    split at hr
    · next h0 =>
      cases hr
      exact Or.inl ⟨h0, rfl⟩
    · simp only at hr
      split at hr
      · cases hr
      · next hno =>
        cases ih _ _ hr with
        | inr hlast => exact Or.inr hlast
        | inl hend =>
          obtain ⟨hz, rfl⟩ := hend
          exact Or.inr ⟨hz, fun hin => hno (Or.inl hin)⟩

theorem osMemPoolConflict_member (fuel nextPtr cur r : Nat)
    (hchain : Linked (fun q => pointer (nextPool m' q)) (pointer nextPtr) l)
    (hsame : ∀ q ∈ l, ¬(pool ≤ q ∧ add32 pool size > q) → nextPool m' q = nextPool m q)
    (hr : osMemPoolConflict m pool size fuel nextPtr cur = some (false, r)) :
    (nextPtr = 0 ∧ r = cur) ∨ r ∈ l := by
  induction l generalizing fuel nextPtr cur with
  | nil =>
    have hz := pointer_none hchain
    cases fuel with
    | zero => cases hr
    | succ fuel =>
      unfold osMemPoolConflict at hr
      rw [if_pos hz] at hr
      cases hr
      exact Or.inl ⟨hz, rfl⟩
  | cons q l ih =>
    obtain ⟨hq, hrest⟩ := hchain
    obtain ⟨rfl, h0⟩ := pointer_some hq
    cases fuel with
    | zero => cases hr
    | succ fuel =>
      unfold osMemPoolConflict at hr
      rw [if_neg h0] at hr
      simp only at hr
      split at hr
      · cases hr
      · next hno =>
        right
        have hword := hsame _ List.mem_cons_self fun hin => hno (Or.inl hin)
        have hrest : Linked _ (pointer (nextPool m' nextPtr)) l := hrest
        rw [hword] at hrest
        have hwalk := ih fuel _ _ hrest (fun q hq => hsame q (List.mem_cons_of_mem _ hq)) hr
        cases hwalk with
        | inl hend =>
          rw [hend.2]
          exact List.mem_cons_self
        | inr hmem => exact List.mem_cons_of_mem _ hmem

/-- `LOS_MemInit` that returns `LOS_OK` has changed the list, also where the
region covers registered pools. -/
theorem losMemInit_changes (hl : PoolList s l) (hin : pool + size < 4294967296)
    (hheads : ∀ q ∈ l, pool ≤ q ∨ q + 944 ≤ pool) (fuel : Nat)
    (hinit : losMemInit fuel s pool size = some (s', losOk)) : ¬PoolList s' l := by
  intro hl'
  obtain hargs | ha := losMemInit_args fuel _ hinit
  · exact hargs.2 rfl
  have h0 := ha.nonzero
  have hroom := ha.room
  obtain ⟨ht, -⟩ := osMemPoolInit_touches s.mem ha hin.le
  obtain ⟨-, hadd⟩ := losMemInit_accepts fuel s s' hinit
  generalize osMemPoolInit s.mem pool size = m at ht hadd
  unfold osMemPoolAdd at hadd
  simp only at hadd
  cases hwalk : osMemPoolConflict m pool size fuel s.gPoolHead s.gPoolHead with
  | none =>
    rw [hwalk] at hadd
    cases hadd
  | some c =>
    obtain ⟨conflict, r⟩ := c
    rw [hwalk] at hadd
    cases conflict with
    | true => cases hadd
    | false =>
      by_cases hg : s.gPoolHead = 0
      · -- the list was empty and now starts with the pool
        simp only [hg, if_true, losOk] at hadd
        cases hadd
        have hhead := linked_head hl
        rw [hg] at hhead
        have hnew := linked_head hl'
        rw [← hhead] at hnew
        exact h0 (pointer_none hnew)
      · simp only [hg, if_false, losOk] at hadd
        cases hadd
        obtain hend | ⟨hz, hout⟩ := osMemPoolConflict_last fuel _ _ _ hwalk
        · exact hg hend.1
        have hsame : ∀ q ∈ l, ¬(pool ≤ q ∧ add32 pool size > q) →
            nextPool s.mem q = nextPool m q := by
          intro q hq hno
          have hhead := hheads q hq
          unfold add32 at hno
          exact load32_congr _ _ _ fun x _ _ => (ht x (by omega)).symm
        have hr : r ∈ l := by
          cases osMemPoolConflict_member fuel _ _ _ hl hsame hwalk with
          | inl hend => exact absurd hend.1 hg
          | inr hr => exact hr
        have hnone : nextPool s.mem r = 0 := (hsame r hr hout).trans hz
        -- the last of the list is linked to the pool
        have hword : nextPool (setNextPool (setNextPool m r pool) pool 0) r = pool := by
          have hhead := hheads r hr
          unfold add32 at hout
          exact (load32_store32_apart _ _ _ _ (by omega)).trans
            (load32_store32_same _ _ _ (by omega))
        obtain ⟨a, b, rfl⟩ := List.append_of_mem hr
        have hold := linked_head (linked_tail hl)
        have hnew := linked_head (linked_tail hl')
        rw [← hold] at hnew
        simp only [hword, hnone, pointer_pos h0] at hnew
        cases hnew

/-! ### LOS_MemDeInit -/

theorem osMemPoolFind_spec (l : List Nat) (fuel nextPtr cur : Nat) (r : Option Nat)
    (h : Linked (fun q => pointer (nextPool m q)) (pointer nextPtr) l)
    (hr : osMemPoolFind m pool fuel nextPtr cur = some r) :
    (r = none ∧ pool ∉ l) ∨ ∃ c l₁ l₂, r = some c ∧ cur :: l = l₁ ++ c :: pool :: l₂ := by
  induction l generalizing fuel nextPtr cur with
  | nil =>
    have hz := pointer_none h
    cases fuel with
    | zero => cases hr
    | succ fuel =>
      unfold osMemPoolFind at hr
      rw [if_pos hz] at hr
      exact Or.inl ⟨(Option.some.inj hr).symm, List.not_mem_nil⟩
  | cons q l ih =>
    obtain ⟨hq, hrest⟩ := h
    obtain ⟨rfl, h0⟩ := pointer_some hq
    cases fuel with
    | zero => cases hr
    | succ fuel =>
      unfold osMemPoolFind at hr
      rw [if_neg h0] at hr
      by_cases hp : pool = nextPtr
      · rw [if_pos hp] at hr
        exact Or.inr ⟨cur, [], l, (Option.some.inj hr).symm, by rw [hp]; rfl⟩
      · rw [if_neg hp] at hr
        obtain ⟨hnone, hnot⟩ | ⟨c, l₁, l₂, hc, hl⟩ := ih fuel _ _ hrest hr
        · exact Or.inl ⟨hnone, fun hm => (List.mem_cons.mp hm).elim hp hnot⟩
        · exact Or.inr ⟨c, cur :: l₁, l₂, hc, by rw [hl]; rfl⟩

theorem osMemPoolFind_ends (pool : Nat) (l : List Nat) (nextPtr cur : Nat)
    (h : Linked (fun q => pointer (nextPool m q)) (pointer nextPtr) l) :
    ∃ r, ∀ fuel, l.length < fuel → osMemPoolFind m pool fuel nextPtr cur = some r := by
  induction l generalizing nextPtr cur with
  | nil =>
    have hz := pointer_none h
    refine ⟨none, fun fuel hf => ?_⟩
    cases fuel with
    | zero => cases hf
    | succ fuel =>
      unfold osMemPoolFind
      rw [if_pos hz]
  | cons q l ih =>
    obtain ⟨hq, hrest⟩ := h
    obtain ⟨rfl, h0⟩ := pointer_some hq
    obtain ⟨r, hr⟩ := ih _ nextPtr hrest
    refine ⟨if pool = nextPtr then some cur else r, fun fuel hf => ?_⟩
    cases fuel with
    | zero => cases hf
    | succ fuel =>
      unfold osMemPoolFind
      rw [if_neg h0, hr fuel (by simpa using hf)]
      split <;> rfl

theorem losMemDeInit_ends (h : PoolList s l) (pool : Nat) :
    ∃ r, ∀ fuel, l.length < fuel → losMemDeInit fuel s pool = some r := by
  obtain ⟨found, hfind⟩ := osMemPoolFind_ends pool l s.gPoolHead s.gPoolHead h
  unfold losMemDeInit osMemPoolDelete
  by_cases h0 : pool = 0
  · exact ⟨_, fun fuel _ => if_pos h0⟩
  simp only [if_neg h0]
  by_cases hg : pool = s.gPoolHead
  · exact ⟨_, fun fuel _ => by simp only [if_pos hg]; rfl⟩
  simp only [if_neg hg]
  cases found with
  | none => exact ⟨_, fun fuel hf => by simp only [hfind fuel hf]; rfl⟩
  | some curPool => exact ⟨_, fun fuel hf => by simp only [hfind fuel hf]; rfl⟩

theorem deinit_heads (h : Registry s l) (hp : pool ∈ l) (hq : q ∈ l) (hne : q ≠ pool) (m : Memory) :
    SameHeads m (osMemPoolDeinit m pool) q := by
  have hheads := h.heads hq hp hne
  unfold osMemPoolDeinit osMemPoolHeadSize
  exact ⟨load32_congr _ _ _ fun x _ _ => fillBytes_outside _ _ _ _ _ (by omega),
    load32_congr _ _ _ fun x _ _ => fillBytes_outside _ _ _ _ _ (by omega)⟩

theorem before_found {c : Nat} {l₁ l₂ : List Nat}
    (h : Linked (fun q => pointer (nextPool s.mem q)) (pointer s.gPoolHead) l)
    (hg : pool ≠ s.gPoolHead) (hl : s.gPoolHead :: l = l₁ ++ c :: pool :: l₂) :
    ∃ u, l = u ++ c :: pool :: l₂ := by
  cases l₁ with
  | nil =>
    obtain ⟨_, rfl⟩ := List.cons.inj hl
    exact absurd (pointer_some h.1).1.symm hg
  | cons a u => exact ⟨u, (List.cons.inj hl).2⟩

theorem erase_middle {c : Nat} {u l₂ : List Nat} (h : (u ++ c :: pool :: l₂).Nodup) :
    (u ++ c :: pool :: l₂).erase pool = u ++ c :: l₂ := by
  obtain ⟨_, hnd, hdisjoint⟩ := List.nodup_append.mp h
  have hu : pool ∉ u := fun hm => hdisjoint pool hm pool (by simp) rfl
  have hc : c ≠ pool := fun hcp => (List.nodup_cons.mp hnd).1 (by rw [hcp]; exact List.mem_cons_self)
  rw [List.erase_append_right _ hu, List.erase_cons_tail (by simpa using hc), List.erase_cons_head]

theorem linked_one {c : Nat} (h : Registry s l) (hc : c ∈ l) (hq : q ∈ l) (x : Nat)
    (hx : x < 4294967296) : totalSize (setNextPool s.mem c x) q = totalSize s.mem q ∧
      nextPool (setNextPool s.mem c x) q = if q = c then x else nextPool s.mem q := by
  have hqa := (h.ok q hq).aligned
  have hca := (h.ok c hc).aligned
  unfold totalSize nextPool setNextPool
  by_cases hqc : q = c
  · rw [if_pos hqc, hqc]
    exact ⟨load32_store32_apart _ _ _ _ (by omega), load32_store32_same _ _ _ hx⟩
  · have hheads := h.heads hq hc hqc
    rw [if_neg hqc]
    exact ⟨load32_store32_apart _ _ _ _ (by omega),
      load32_store32_aligned _ _ _ _ (by omega) (by omega) (by omega)⟩

/-- `LOS_MemDeInit`: refused without a trace for anything that is not registered,
else exactly the pool named leaves the chain. -/
theorem losMemDeInit_spec (h : Registry s l) (fuel r : Nat)
    (hdel : losMemDeInit fuel s pool = some (s', r)) :
    (s' = s ∧ r ≠ losOk ∧ pool ∉ l) ∨ (r = losOk ∧ pool ∈ l ∧ Registry s' (l.erase pool)) := by
  have hchain := h.chain
  unfold losMemDeInit at hdel
  by_cases h0 : pool = 0
  · rw [if_pos h0] at hdel
    obtain ⟨rfl, rfl⟩ := Prod.mk.inj (Option.some.inj hdel)
    exact Or.inl ⟨rfl, by decide, fun hp => (h.ok pool hp).nonzero h0⟩
  rw [if_neg h0] at hdel
  unfold osMemPoolDelete at hdel
  have hsub : ∀ q ∈ l.erase pool, q ∈ l := fun q hq => List.mem_of_mem_erase hq
  have hne : ∀ q ∈ l.erase pool, q ≠ pool := fun q hq hqp => by
    rw [hqp] at hq
    exact h.nodup.not_mem_erase hq
  by_cases hg : pool = s.gPoolHead
  · rw [if_pos hg] at hdel
    obtain ⟨rfl, rfl⟩ := Prod.mk.inj (Option.some.inj hdel)
    cases l with
    | nil =>
      have hz := pointer_none hchain
      omega
    | cons a l =>
      obtain ⟨ha, hrest⟩ := hchain
      obtain ⟨hga, _⟩ := pointer_some ha
      have hap : a = pool := by omega
      have hp : pool ∈ a :: l := by rw [hap]; exact List.mem_cons_self
      rw [hap, List.erase_cons_head] at hsub hne ⊢
      rw [hap] at hp h hrest
      have hsize : ∀ q ∈ l, totalSize (osMemPoolDeinit s.mem pool) q = totalSize s.mem q :=
        fun q hq => (deinit_heads h hp (hsub q hq) (hne q hq) s.mem).size
      obtain ⟨hok, hapart⟩ := h.resized l hsub hsize
      refine Or.inr ⟨rfl, hp, ?_, h.nodup.of_cons, hok, hapart⟩
      show Linked _ (pointer (nextPool s.mem s.gPoolHead)) l
      rw [← hg]
      exact linked_congr hrest fun q hq =>
        congrArg pointer (deinit_heads h hp (hsub q hq) (hne q hq) s.mem).next
  · rw [if_neg hg] at hdel
    cases hfind : osMemPoolFind s.mem pool fuel s.gPoolHead s.gPoolHead with
    | none =>
      rw [hfind] at hdel
      cases hdel
    | some c =>
      rw [hfind] at hdel
      obtain ⟨rfl, hnot⟩ | ⟨c, l₁, l₂, rfl, hl⟩ := osMemPoolFind_spec l fuel _ _ c hchain hfind
      · obtain ⟨rfl, rfl⟩ := Prod.mk.inj (Option.some.inj hdel)
        exact Or.inl ⟨rfl, by decide, hnot⟩
      · obtain ⟨rfl, rfl⟩ := Prod.mk.inj (Option.some.inj hdel)
        obtain ⟨u, rfl⟩ := before_found hchain hg hl
        have hp : pool ∈ u ++ c :: pool :: l₂ := by simp
        have hc : c ∈ u ++ c :: pool :: l₂ := by simp
        have herase := erase_middle (u := u) (c := c) h.nodup
        obtain ⟨_, hnd, _⟩ := List.nodup_append.mp h.nodup
        rw [herase] at hsub hne ⊢
        have hwords : ∀ q ∈ u ++ c :: l₂, totalSize (osMemPoolDeinit
            (setNextPool s.mem c (nextPool s.mem pool)) pool) q = totalSize s.mem q ∧
            nextPool (osMemPoolDeinit (setNextPool s.mem c (nextPool s.mem pool)) pool) q =
              if q = c then nextPool s.mem pool else nextPool s.mem q := by
          intro q hq
          obtain ⟨hsize, hnext⟩ := deinit_heads h hp (hsub q hq) (hne q hq)
            (setNextPool s.mem c (nextPool s.mem pool))
          rw [hsize, hnext]
          exact linked_one h hc (hsub q hq) _ (load32_lt _ _)
        obtain ⟨hok, hapart⟩ := h.resized _ hsub fun q hq => (hwords q hq).1
        refine Or.inr ⟨rfl, hp, ?_, herase ▸ h.nodup.erase pool, hok, hapart⟩
        refine linked_congr (linked_unlink hchain h.nodup) fun q hq => ?_
        rw [(hwords q hq).2]
        by_cases hqc : q = c
        · rw [if_pos hqc, hqc, Function.update_self]
        · rw [if_neg hqc, Function.update_of_ne hqc]

end

/-! ### Every sequence of LOS_MemInit and LOS_MemDeInit -/

/-- The calls, and whatever the program does in its pools between them. -/
inductive PoolOp
  | init (pool size : Nat)
  | deinit (pool : Nat)
  | use

inductive PoolStep : MemState → PoolOp → MemState → Prop
  | init (s s' : MemState) (pool size fuel r : Nat) (hin : pool + size ≤ 4294967296)
      (h : losMemInit fuel s pool size = some (s', r)) : PoolStep s (.init pool size) s'
  | deinit (s s' : MemState) (pool fuel r : Nat) (h : losMemDeInit fuel s pool = some (s', r)) :
      PoolStep s (.deinit pool) s'
  | use (s : MemState) (m : Memory)
      (h : ∀ l, PoolList s l → ∀ q ∈ l, SameHeads s.mem m q) : PoolStep s .use ⟨m, s.gPoolHead⟩

/-- A region that passes the parameter checks is clear of every registered pool. -/
def PoolOp.clear (s : MemState) : PoolOp → Prop
  | .init pool size => RegionArgs pool size → RegionClear s pool size
  | .deinit _ => True
  | .use => True

def ClearStep (s : MemState) (op : PoolOp) (s' : MemState) : Prop := op.clear s ∧ PoolStep s op s'

def KeepsPools (s s' : MemState) : Prop :=
  ∀ l, PoolList s l → PoolList s' l ∧
    ∀ q ∈ l, ∀ x, q ≤ x → x < poolEnd s.mem q → s'.mem x = s.mem x

/-- What the registry of a state with the pools `l` promises, and what the next call
does to it. Both calls come back, after as many turns of their loops as there are
pools. -/
structure RegistrySafe (s : MemState) (l : List Nat) : Prop where
  chain : PoolList s l
  apart : ∀ p ∈ l, ∀ q ∈ l, p ≠ q → PoolsApart s.mem p q
  initReturns : ∀ pool size, pool + size ≤ 4294967296 → (PoolOp.init pool size).clear s →
    ∃ r, ∀ fuel, l.length < fuel → losMemInit fuel s pool size = some r
  init : ∀ fuel pool size s' r, pool + size ≤ 4294967296 → (PoolOp.init pool size).clear s →
    losMemInit fuel s pool size = some (s', r) →
    if r = losOk then PoolList s' (l ++ [pool]) else KeepsPools s s'
  deinitReturns : ∀ pool, ∃ r, ∀ fuel, l.length < fuel → losMemDeInit fuel s pool = some r
  deinit : ∀ fuel pool s' r, losMemDeInit fuel s pool = some (s', r) →
    if pool ∈ l then r = losOk ∧ PoolList s' (l.erase pool) else r ≠ losOk ∧ s' = s

section
variable {s s' : MemState} {l : List Nat}

theorem Registry.safe (h : Registry s l) : RegistrySafe s l := by
  refine ⟨h.chain, h.apart, fun pool size hin hclear => losMemInit_ends h hin hclear,
    fun fuel pool size s' r hin hclear hinit => ?_, losMemDeInit_ends h.chain,
    fun fuel pool s' r hdel => ?_⟩
  · obtain ⟨rfl, hr⟩ | ⟨hr, hreg⟩ := losMemInit_clear h hin hclear fuel r hinit
    · rw [if_neg hr]
      exact fun l hl => ⟨hl, fun _ _ _ _ _ => rfl⟩
    · rw [if_pos hr]
      exact hreg.chain
  · obtain ⟨hs, hr, hnot⟩ | ⟨hr, hp, hreg⟩ := losMemDeInit_spec h fuel r hdel
    · rw [if_neg hnot]
      exact ⟨hr, hs⟩
    · rw [if_pos hp]
      exact ⟨hr, hreg.chain⟩

theorem clearStep_registry (op : PoolOp) (h : Registry s l) (hstep : ClearStep s op s') :
    ∃ l', Registry s' l' := by
  obtain ⟨hclear, hstep⟩ := hstep
  cases hstep with
  | init s' pool size fuel r hin hinit =>
    obtain ⟨rfl, _⟩ | ⟨_, hreg⟩ := losMemInit_clear h hin hclear fuel r hinit
    · exact ⟨l, h⟩
    · exact ⟨_, hreg⟩
  | deinit s' pool fuel r hdel =>
    obtain ⟨rfl, _⟩ | ⟨_, _, hreg⟩ := losMemDeInit_spec h fuel r hdel
    · exact ⟨l, h⟩
    · exact ⟨_, hreg⟩
  | use m hsame =>
    have hsame := hsame l h.chain
    obtain ⟨hok, hapart⟩ := h.resized l (fun q hq => hq) fun q hq => (hsame q hq).size
    exact ⟨l, linked_congr h.chain fun q hq => congrArg pointer (hsame q hq).next, h.nodup, hok,
      hapart⟩

end

/-- From a start without pools, as long as every region is clear of the pools there are. -/
theorem losMem_registry (m : Memory) (ops : List PoolOp) (s : MemState)
    (hrun : Run ClearStep ⟨m, 0⟩ ops s) : ∃ l, RegistrySafe s l := by
  have hempty : Registry ⟨m, 0⟩ [] := by
    refine ⟨rfl, List.nodup_nil, fun q hq => ?_, fun p hp => ?_⟩
    · cases hq
    · cases hp
  obtain ⟨l, hreg⟩ := run_invariant (fun s => ∃ l, Registry s l)
    (fun s op s' hI hstep => by
      obtain ⟨l, h⟩ := hI
      exact clearStep_registry op h hstep) hrun ⟨[], hempty⟩
  exact ⟨l, hreg.safe⟩

def twoPools : MemState :=
  ⟨setNextPool (setNextPool (osMemPoolInit firstPool.mem 8192 4096) 4096 8192) 8192 0, 4096⟩

def threePools : MemState :=
  ⟨setNextPool (setNextPool (osMemPoolInit twoPools.mem 9144 1024) 8192 9144) 9144 0, 4096⟩

def outerPools : MemState :=
  ⟨osMemPoolDeinit (setNextPool threePools.mem 4096 (nextPool threePools.mem 8192)) 8192, 4096⟩

theorem losMemInit_appends (s : MemState) (fuel pool size curPool : Nat) (ha : RegionArgs pool size)
    (hg : s.gPoolHead ≠ 0)
    (hwalk : osMemPoolConflict (osMemPoolInit s.mem pool size) pool size fuel s.gPoolHead
      s.gPoolHead = some (false, curPool)) : losMemInit fuel s pool size =
        some (⟨setNextPool (setNextPool (osMemPoolInit s.mem pool size) curPool pool) pool 0,
          s.gPoolHead⟩, losOk) := by
  refine losMemInit_formatted ha fuel (_, losOk) ?_
  unfold osMemPoolAdd
  simp only [hwalk, if_neg hg]

theorem losMemInit_twoPools : losMemInit 3 firstPool 8192 4096 = some (twoPools, losOk) :=
  losMemInit_appends firstPool 3 8192 4096 4096 ⟨by omega, by omega, by omega, by omega⟩
    (by decide) (by decide +kernel)

theorem losMemInit_threePools : losMemInit 3 twoPools 9144 1024 = some (threePools, losOk) :=
  losMemInit_appends twoPools 3 9144 1024 8192 ⟨by omega, by omega, by omega, by omega⟩
    (by decide) (by decide +kernel)

theorem losMemDeInit_outerPools : losMemDeInit 4 threePools 8192 = some (outerPools, losOk) ∧
    losMemDeInit 4 outerPools 8192 = some (outerPools, osError) := by
  have hfound : osMemPoolFind threePools.mem 8192 4 4096 4096 = some (some 4096) := by
    decide +kernel
  have hgone : osMemPoolFind outerPools.mem 8192 4 4096 4096 = some none := by decide +kernel
  unfold losMemDeInit osMemPoolDelete
  rw [if_neg (by decide), if_neg (by decide), if_neg (by decide), if_neg (by decide),
    show threePools.gPoolHead = 4096 from rfl, show outerPools.gPoolHead = 4096 from rfl, hfound,
    hgone]
  exact ⟨rfl, rfl⟩

theorem regionClear_of_list {s : MemState} {l : List Nat} {pool size : Nat} (hl : PoolList s l)
    (hclear : ∀ q ∈ l, ClearOf s.mem pool size q) : (PoolOp.init pool size).clear s := by
  intro _ l' hl' q hq
  rw [linked_unique hl' hl] at hq
  exact hclear q hq

/-- Three pools, a refused fourth, and the second given up twice. -/
theorem losMem_registry_regions : ∃ s, Run ClearStep zeroState [.init 4096 1024, .init 8192 4096,
    .init 9144 1024, .init 4096 100, .deinit 8192, .deinit 8192] s ∧ PoolList s [4096, 9144] ∧
      ∃ l, RegistrySafe s l := by
  have hone : PoolList firstPool [4096] :=
    ⟨by decide +kernel, show pointer (nextPool firstPool.mem 4096) = none by decide +kernel⟩
  have htwo : PoolList twoPools [4096, 8192] :=
    ⟨by decide +kernel, by decide +kernel,
      show pointer (nextPool twoPools.mem 8192) = none by decide +kernel⟩
  have hlast : PoolList outerPools [4096, 9144] :=
    ⟨by decide +kernel, by decide +kernel,
      show pointer (nextPool outerPools.mem 9144) = none by decide +kernel⟩
  have hsizes : totalSize firstPool.mem 4096 = 1024 ∧ totalSize twoPools.mem 4096 = 1024 ∧
      totalSize twoPools.mem 8192 = 4096 := by decide +kernel
  have hinit : ClearStep zeroState (.init 4096 1024) firstPool :=
    ⟨regionClear_of_list (l := []) rfl fun q hq => absurd hq List.not_mem_nil,
      PoolStep.init _ _ _ _ 1 losOk (by omega) losMemInit_firstPool⟩
  have hsecond : ClearStep firstPool (.init 8192 4096) twoPools := by
    refine ⟨regionClear_of_list hone fun q hq => ?_,
      PoolStep.init _ _ _ _ 3 losOk (by omega) losMemInit_twoPools⟩
    rw [List.mem_singleton.mp hq]
    unfold ClearOf poolEnd
    omega
  have hthird : ClearStep twoPools (.init 9144 1024) threePools := by
    refine ⟨regionClear_of_list htwo fun q hq => ?_,
      PoolStep.init _ _ _ _ 3 losOk (by omega) losMemInit_threePools⟩
    simp only [List.mem_cons, List.not_mem_nil, or_false] at hq
    unfold ClearOf poolEnd
    rcases hq with rfl | rfl <;> omega
  have hrefused : ClearStep threePools (.init 4096 100) threePools :=
    ⟨fun ha => absurd ha.room (by omega), PoolStep.init _ _ _ _ 1 osError (by omega) rfl⟩
  have hdel : ClearStep threePools (.deinit 8192) outerPools :=
    ⟨trivial, PoolStep.deinit _ _ _ 4 losOk losMemDeInit_outerPools.1⟩
  have hagain : ClearStep outerPools (.deinit 8192) outerPools :=
    ⟨trivial, PoolStep.deinit _ _ _ 4 osError losMemDeInit_outerPools.2⟩
  have hrun := run_append (run_append (run_append (run_append (run_append (run_single hinit)
    (run_single hsecond)) (run_single hthird)) (run_single hrefused)) (run_single hdel))
    (run_single hagain)
  exact ⟨outerPools, hrun, hlast, losMem_registry _ _ _ hrun⟩

theorem losMemInit_again (m : Memory) : losMemInit 2 ⟨m, 4096⟩ 4096 1024 =
    some (⟨osMemPoolDeinit (osMemPoolInit m 4096 1024) 4096, 4096⟩, osError) := by
  have hconflict : ∀ m, osMemPoolConflict m 4096 1024 2 4096 4096 = some (true, 4096) := by
    intro m
    unfold osMemPoolConflict
    rw [if_neg (by omega)]
    exact if_pos (Or.inl ⟨le_refl _, by decide +kernel⟩)
  have hadd : ∀ m, osMemPoolAdd 2 ⟨m, 4096⟩ 4096 1024 = some (⟨m, 4096⟩, losNok) := by
    intro m
    unfold osMemPoolAdd
    rw [hconflict m]
  unfold losMemInit
  rw [if_neg (by decide), if_neg (by decide), hadd]
  rfl

/-- Registering it again fails and wipes its head. -/
theorem losMemInit_wipes_registered : losMemInit 1 zeroState 4096 1024 = some (firstPool, losOk) ∧
    ∃ s', losMemInit 2 firstPool 4096 1024 = some (s', osError) ∧ ¬KeepsPools firstPool s' := by
  refine ⟨rfl, _, losMemInit_again firstPool.mem, fun hkeeps => ?_⟩
  have hnext : nextPool firstPool.mem 4096 = 0 := by decide +kernel
  have hlist : PoolList firstPool [4096] := by
    refine ⟨rfl, ?_⟩
    show pointer (nextPool firstPool.mem 4096) = none
    rw [hnext]
    rfl
  have hsize : totalSize firstPool.mem 4096 = 1024 := by decide +kernel
  have hbyte := (hkeeps [4096] hlist).2 4096 List.mem_cons_self 4097 (by omega)
    (by unfold poolEnd; omega)
  revert hbyte
  decide +kernel

end LiteosM.Heap
