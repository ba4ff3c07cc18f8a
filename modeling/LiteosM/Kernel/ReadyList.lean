import LiteosM.Kernel.Sched

/-!
# The ready queue

What the 32 lists and the bitmap say about each other, and what the enqueue and dequeue
operations do to them.
-/

namespace LiteosM.Kernel

open LiteosM.Lib.DlList

section

variable {x : BitVec 32} {p i : Nat}

theorem priorityBit_getMsbD (p i : Nat) (hi : i < 32) :
    (priqueuePrior0Bit >>> p).getMsbD i = decide (i = p) := by
  rw [BitVec.getMsbD_ushiftRight, show priqueuePrior0Bit = BitVec.intMin 32 from rfl,
    BitVec.getMsbD_intMin]
  by_cases h : i < p
  · simp [h]
    omega
  · simp [h, hi]
    omega

theorem clz_spec (hx : x ≠ 0#32) :
    clz x < 32 ∧ x.getMsbD (clz x) = true ∧ ∀ i < clz x, x.getMsbD i = false := by
  unfold clz
  cases hf : (List.range 32).find? fun i => x.getMsbD i with
  | none =>
    rw [List.find?_eq_none] at hf
    exfalso
    apply hx
    apply BitVec.eq_of_getMsbD_eq
    intro i hi
    simpa using hf i (List.mem_range.mpr hi)
  | some p =>
    have h1 := List.find?_some hf
    have h2 := List.mem_range.mp (List.mem_of_find?_eq_some hf)
    have h3 := (List.find?_range_eq_some.mp hf).2.2
    refine ⟨h2, h1, fun i hi => ?_⟩
    simpa using h3 i hi

end

section

variable {k k' : KernelState} {V : View Node} {x h : Node} {l : List Node} {p t : Nat}

structure ReadyQueue (k : KernelState) (V : View Node) : Prop where
  forest : Forest k.links V
  head : ∀ p < 32, V.role (.gPriQueueList p) = .head
  bit : ∀ p < 32, k.gQueueBitmap.getMsbD p = true ↔ V.content (.gPriQueueList p) ≠ []

theorem ReadyQueue.congr (hr : ReadyQueue k V) (hl : k'.links = k.links)
    (hb : k'.gQueueBitmap = k.gQueueBitmap) : ReadyQueue k' V := by
  refine ⟨?_, hr.head, ?_⟩
  · rw [hl]
    exact hr.forest
  · rw [hb]
    exact hr.bit

theorem ReadyQueue.listEmpty_iff (hr : ReadyQueue k V) (hh : V.role h = .head) :
    losListEmpty k h = true ↔ V.content h = [] :=
  hr.forest.listEmpty_iff hh

theorem ReadyQueue.put_head (hr : ReadyQueue k V) (hx : V.role x = .loose) (q : Nat)
    (hq : q < 32) : (V.put x h l).role (.gPriQueueList q) = .head := by
  rw [View.put_role, if_neg, hr.head q hq]
  intro he
  have hh := hr.head q hq
  rw [he, hx] at hh
  cases hh

theorem ReadyQueue.remove_head (hr : ReadyQueue k V) (hx : V.role x = .member h) (q : Nat)
    (hq : q < 32) : (V.remove x).role (.gPriQueueList q) = .head := by
  rw [View.remove_role, if_neg, hr.head q hq]
  intro he
  have hh := hr.head q hq
  rw [he, hx] at hh
  cases hh

theorem ReadyQueue.bit_put (hr : ReadyQueue k V) (hp : p < 32) (hl : l ≠ []) (q : Nat)
    (hq : q < 32) :
    (if losListEmpty k (.gPriQueueList p) then k.gQueueBitmap ||| (priqueuePrior0Bit >>> p)
      else k.gQueueBitmap).getMsbD q = true ↔
      (V.put x (.gPriQueueList p) l).content (.gPriQueueList q) ≠ [] := by
  have hempty := hr.listEmpty_iff (hr.head p hp)
  have hbit := hr.bit q hq
  rw [View.put_content]
  by_cases hqp : q = p
  · subst hqp
    rw [if_pos rfl]
    by_cases he : losListEmpty k (.gPriQueueList q) = true
    · rw [if_pos he, BitVec.getMsbD_or, priorityBit_getMsbD _ _ hq]
      simp [hl]
    · rw [if_neg he, hbit]
      simp [hl, mt hempty.mpr he]
  · have hne : Node.gPriQueueList q ≠ .gPriQueueList p := by simp [hqp]
    rw [if_neg hne]
    by_cases he : losListEmpty k (.gPriQueueList p) = true
    · rw [if_pos he, BitVec.getMsbD_or, priorityBit_getMsbD _ _ hq]
      simpa [hqp] using hbit
    · rw [if_neg he]
      exact hbit

theorem ReadyQueue.enHead (hr : ReadyQueue k V) (hp : p < 32) (hx : V.role x = .loose) :
    ReadyQueue (osSchedPriQueueEnHead k x p)
      (V.put x (.gPriQueueList p) (x :: V.content (.gPriQueueList p))) :=
  ⟨hr.forest.listAdd (hr.head p hp) hx, fun q hq => hr.put_head hx q hq,
    fun q hq => hr.bit_put hp (List.cons_ne_nil _ _) q hq⟩

theorem ReadyQueue.enTail (hr : ReadyQueue k V) (hp : p < 32) (hx : V.role x = .loose) :
    ReadyQueue (osSchedPriQueueEnTail k x p)
      (V.put x (.gPriQueueList p) (V.content (.gPriQueueList p) ++ [x])) :=
  ⟨hr.forest.listTailInsert (hr.head p hp) hx, fun q hq => hr.put_head hx q hq,
    fun q hq => hr.bit_put hp (by simp) q hq⟩

theorem ReadyQueue.delete (hr : ReadyQueue k V) (hp : p < 32)
    (hx : V.role x = .member (.gPriQueueList p)) :
    ReadyQueue (osSchedPriQueueDelete k x p) (V.remove x) := by
  have hf : Forest (losListDelete k x).links (V.remove x) := hr.forest.listDelete .null hx
  have hhead := fun q hq => hr.remove_head hx q hq
  have hempty : losListEmpty (losListDelete k x) (.gPriQueueList p) = true ↔
      (V.remove x).content (.gPriQueueList p) = [] := hf.listEmpty_iff (hhead p hp)
  refine ⟨hf, hhead, fun q hq => ?_⟩
  have hbit := hr.bit q hq
  show (if losListEmpty (losListDelete k x) (.gPriQueueList p) then
    k.gQueueBitmap &&& ~~~(priqueuePrior0Bit >>> p) else k.gQueueBitmap).getMsbD q = true ↔ _
  by_cases hqp : q = p
  · subst hqp
    by_cases he : losListEmpty (losListDelete k x) (.gPriQueueList q) = true
    · rw [if_pos he, BitVec.getMsbD_and, BitVec.getMsbD_not, priorityBit_getMsbD _ _ hq,
        hempty.mp he]
      simp
    · have hmem := (hr.forest.mem _ _).mpr hx
      rw [if_neg he, hbit]
      exact iff_of_true (List.ne_nil_of_mem hmem) (mt hempty.mpr he)
  · have hne : x ∉ V.content (.gPriQueueList q) := by
      rw [hr.forest.mem, hx]
      simp [Ne.symm hqp]
    rw [View.remove_content, List.erase_of_not_mem hne, ← hbit]
    split
    · rw [BitVec.getMsbD_and, BitVec.getMsbD_not, priorityBit_getMsbD _ _ hq]
      simp [hqp, hq]
    · exact Iff.rfl

theorem ReadyQueue.put_other (hr : ReadyQueue k V) (hx : V.role x = .loose)
    (hh : ∀ p, h ≠ .gPriQueueList p) (hf : Forest k'.links (V.put x h l))
    (hb : k'.gQueueBitmap = k.gQueueBitmap) : ReadyQueue k' (V.put x h l) := by
  refine ⟨hf, fun q hq => hr.put_head hx q hq, fun q hq => ?_⟩
  rw [hb, View.put_content, if_neg (hh q).symm]
  exact hr.bit q hq

theorem ReadyQueue.remove_other (hr : ReadyQueue k V) (hx : V.role x = .member h)
    (hh : ∀ p, h ≠ .gPriQueueList p) : ReadyQueue (losListDelete k x) (V.remove x) := by
  refine ⟨hr.forest.listDelete .null hx, fun q hq => hr.remove_head hx q hq, fun q hq => ?_⟩
  have hne : x ∉ V.content (.gPriQueueList q) := by
    rw [hr.forest.mem, hx]
    simp [hh q]
  rw [View.remove_content, List.erase_of_not_mem hne]
  exact hr.bit q hq

theorem ReadyQueue.bitmap_eq_zero (hr : ReadyQueue k V) :
    k.gQueueBitmap = 0#32 ↔ ∀ p < 32, V.content (.gPriQueueList p) = [] := by
  constructor
  · intro h0 p hp
    have hbit := hr.bit p hp
    rw [h0] at hbit
    simpa using hbit
  · intro hall
    apply BitVec.eq_of_getMsbD_eq
    intro p hp
    have hbit := hr.bit p hp
    rw [hall p hp] at hbit
    simpa using hbit

theorem ReadyQueue.top (hr : ReadyQueue k V) (hb : k.gQueueBitmap ≠ 0#32) :
    ∃ x l, clz k.gQueueBitmap < 32 ∧ V.content (.gPriQueueList (clz k.gQueueBitmap)) = x :: l ∧
      losDlListFirst k (.gPriQueueList (clz k.gQueueBitmap)) = x ∧
      ∀ p < clz k.gQueueBitmap, V.content (.gPriQueueList p) = [] := by
  obtain ⟨hlt, hset, hclear⟩ := clz_spec hb
  generalize clz k.gQueueBitmap = q at *
  cases hc : V.content (.gPriQueueList q) with
  | nil => exact absurd hc ((hr.bit q hlt).mp hset)
  | cons x l =>
    refine ⟨x, l, hlt, rfl, hr.forest.next_first (hr.head q hlt) hc, fun p hp => ?_⟩
    have hbit := hr.bit p (by omega)
    rw [hclear p hp] at hbit
    simpa using hbit

end

end LiteosM.Kernel
