import Mathlib.Data.Nat.ModEq
import Mathlib.Data.List.Basic

/-!
# Bounded double-ended queues in a circle of cells

`cell p a` says that cell `p` holds the value `a`. A list is held from the cell `head` on, around
a circle of `len` cells.
-/

namespace LiteosM.Lib.Ring

variable {α : Type*} {cell cell' : Nat → α → Prop} {head head' len i j : Nat} {a : α} {d : List α}

structure RingHolds (cell : Nat → α → Prop) (head len : Nat) (d : List α) : Prop where
  room : d.length ≤ len
  spot : ∀ i a, d[i]? = some a → cell ((head + i) % len) a

theorem position_inj (hi : i < len) (hj : j < len) (h : (head + i) % len = (head + j) % len) : i = j := by
  have hmod : i ≡ j [MOD len] := Nat.ModEq.add_left_cancel' head h
  rw [Nat.ModEq, Nat.mod_eq_of_lt hi, Nat.mod_eq_of_lt hj] at hmod
  exact hmod

theorem RingHolds.nil : RingHolds cell head len [] :=
  ⟨Nat.zero_le _, fun _ _ h => by simp at h⟩

theorem RingHolds.congr (h : RingHolds cell head len d) (hcell : ∀ p a, cell p a → cell' p a) :
    RingHolds cell' head len d :=
  ⟨h.room, fun i a hi => hcell _ _ (h.spot i a hi)⟩

theorem RingHolds.popFront (h : RingHolds cell head len (a :: d)) :
    cell (head % len) a ∧ RingHolds cell ((head + 1) % len) len d := by
  refine ⟨h.spot 0 a rfl, ?_, fun i b hi => ?_⟩
  · have hroom := h.room
    rw [List.length_cons] at hroom
    omega
  · have hcell := h.spot (i + 1) b hi
    rw [Nat.mod_add_mod, Nat.add_right_comm]
    exact hcell

theorem RingHolds.pushBack (h : RingHolds cell head len d) (hroom : d.length < len)
    (hnew : cell' ((head + d.length) % len) a)
    (hframe : ∀ p b, p ≠ (head + d.length) % len → cell p b → cell' p b) :
    RingHolds cell' head len (d ++ [a]) := by
  refine ⟨?_, fun i b hi => ?_⟩
  · rw [List.length_append, List.length_singleton]
    exact hroom
  · rcases Nat.lt_trichotomy i d.length with hlt | rfl | hgt
    · rw [List.getElem?_append_left hlt] at hi
      refine hframe _ b (fun heq => ?_) (h.spot i b hi)
      have hij := position_inj (Nat.lt_trans hlt hroom) hroom heq
      omega
    · rw [List.getElem?_append_right (Nat.le_refl _), Nat.sub_self, List.getElem?_cons_zero,
        Option.some.injEq] at hi
      rw [← hi]
      exact hnew
    · rw [List.getElem?_eq_none] at hi
      · cases hi
      · rw [List.length_append, List.length_singleton]
        exact hgt

theorem RingHolds.pushFront (h : RingHolds cell head len d) (hroom : d.length < len) (hlt : head' < len)
    (hhead : (head' + 1) % len = head % len) (hnew : cell' head' a)
    (hframe : ∀ p b, p ≠ head' → cell p b → cell' p b) : RingHolds cell' head' len (a :: d) := by
  refine ⟨?_, fun i b hi => ?_⟩
  · rw [List.length_cons]
    exact hroom
  · cases i with
    | zero =>
      rw [List.getElem?_cons_zero, Option.some.injEq] at hi
      rw [Nat.add_zero, Nat.mod_eq_of_lt hlt, ← hi]
      exact hnew
    | succ i =>
      rw [List.getElem?_cons_succ] at hi
      have hpos : (head' + (i + 1)) % len = (head + i) % len := by
        calc (head' + (i + 1)) % len = (head' + 1 + i) % len := by rw [Nat.add_right_comm, Nat.add_assoc]
          _ = ((head' + 1) % len + i) % len := (Nat.mod_add_mod _ _ _).symm
          _ = (head + i) % len := by rw [hhead, Nat.mod_add_mod]
      have hi' := List.getElem?_eq_some_iff.mp hi
      obtain ⟨hil, _⟩ := hi'
      rw [hpos]
      refine hframe _ b (fun heq => ?_) (h.spot i b hi)
      -- the old head is the cell after the new one, and the list does not reach around to it
      have hcell : (head' + (i + 1)) % len = (head' + 0) % len := by
        rw [hpos, heq, Nat.add_zero, Nat.mod_eq_of_lt hlt]
      have hij := position_inj (by omega) (by omega) hcell
      omega

end LiteosM.Lib.Ring
