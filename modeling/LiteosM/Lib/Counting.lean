import Mathlib.Data.List.Nodup
import Mathlib.Data.List.Perm.Subperm

/-!
# Counting the indices of a table
-/

namespace LiteosM.Lib.Counting

/-- How many of the first `n` indices satisfy `p`. -/
def countBelow (n : Nat) (p : Nat → Bool) : Nat := (List.range n).countP p

variable {n i : Nat} {p q : Nat → Bool}

theorem countBelow_succ : countBelow (n + 1) p = countBelow n p + if p n then 1 else 0 := by
  unfold countBelow
  rw [List.range_succ, List.countP_append, List.countP_singleton]

theorem countBelow_congr (h : ∀ j < n, p j = q j) : countBelow n p = countBelow n q :=
  List.countP_congr fun j hj => by rw [h j (List.mem_range.mp hj)]

theorem countBelow_le : countBelow n p ≤ n :=
  Nat.le_trans List.countP_le_length (Nat.le_of_eq List.length_range)

theorem countBelow_pos (hi : i < n) (hp : p i = true) : 0 < countBelow n p :=
  List.countP_pos_iff.mpr ⟨i, List.mem_range.mpr hi, hp⟩

theorem countBelow_mono (h : ∀ j < n, p j = true → q j = true) : countBelow n p ≤ countBelow n q :=
  List.countP_mono_left fun j hj => h j (List.mem_range.mp hj)

theorem countBelow_zero (h : ∀ j < n, p j = false) : countBelow n p = 0 :=
  List.countP_eq_zero.mpr fun j hj => by
    rw [h j (List.mem_range.mp hj)]
    exact Bool.false_ne_true

/-- One index more. The induction is on the length of the table. -/
theorem countBelow_insert (hi : i < n) (hp : p i = false) (hq : q i = true)
    (hother : ∀ j, j ≠ i → q j = p j) : countBelow n q = countBelow n p + 1 := by
  induction n with
  | zero => omega
  | succ n ih =>
    rw [countBelow_succ, countBelow_succ]
    by_cases hin : i = n
    · subst hin
      rw [hp, hq, countBelow_congr fun j hj => hother j (by omega)]
      rfl
    · rw [ih (by omega), hother n (fun h => hin h.symm)]
      omega

/-- A list is shorter than the range of an injection of it that leaves a value out. -/
theorem length_lt_of_injective {l : List Nat} {f : Nat → Nat} {x bound : Nat} (hl : l.Nodup)
    (hinj : ∀ a ∈ l, ∀ b ∈ l, f a = f b → a = b) (hbound : ∀ a ∈ l, f a < bound) (hx : x < bound)
    (hout : ∀ a ∈ l, f a ≠ x) : l.length < bound := by
  have hnodup : (x :: l.map f).Nodup := by
    refine List.nodup_cons.mpr ⟨fun h => ?_, List.Nodup.map_on hinj hl⟩
    obtain ⟨a, ha, hfa⟩ := List.mem_map.mp h
    exact hout a ha hfa
  have hsub : (x :: l.map f) ⊆ List.range bound := by
    intro y hy
    obtain rfl | hmem := List.mem_cons.mp hy
    · exact List.mem_range.mpr hx
    · obtain ⟨a, ha, rfl⟩ := List.mem_map.mp hmem
      exact List.mem_range.mpr (hbound a ha)
  have hlen := (hnodup.subperm hsub).length_le
  rw [List.length_cons, List.length_map, List.length_range] at hlen
  exact hlen

end LiteosM.Lib.Counting
