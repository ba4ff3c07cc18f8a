import Mathlib.Data.List.DropRight
import Mathlib.Order.Lattice

/-!
# Insertion into a sorted list
-/

namespace LiteosM.Lib.SortedList

theorem pairwise_insert {α : Type} {R : α → α → Prop} {x : α} {a b : List α}
    (htrans : ∀ x y z, R x y → R y z → R x z) (h : (a ++ b).Pairwise R)
    (ha : ∀ y l, a = l ++ [y] → R y x) (hb : ∀ y l, b = y :: l → R x y) :
    (a ++ x :: b).Pairwise R := by
  obtain ⟨hpa, hpb, hab⟩ := List.pairwise_append.mp h
  have hbefore : ∀ z ∈ a, R z x := by
    intro z hz
    obtain rfl | ⟨l, y, rfl⟩ := List.eq_nil_or_concat a
    · cases hz
    · rw [List.concat_eq_append] at hz hpa ha
      have hyx := ha y l rfl
      cases List.mem_append.mp hz with
      | inl hzl => exact htrans _ _ _ ((List.pairwise_append.mp hpa).2.2 z hzl y (by simp)) hyx
      | inr hzy =>
        rw [List.mem_singleton.mp hzy]
        exact hyx
  have hbehind : ∀ z ∈ b, R x z := by
    intro z hz
    cases b with
    | nil => cases hz
    | cons y l =>
      have hxy := hb y l rfl
      cases hz with
      | head => exact hxy
      | tail _ hz => exact htrans _ _ _ hxy ((List.pairwise_cons.mp hpb).1 z hz)
  apply List.pairwise_append.mpr
  refine ⟨hpa, List.pairwise_cons.mpr ⟨hbehind, hpb⟩, fun y hy z hz => ?_⟩
  cases hz with
  | head => exact hbefore y hy
  | tail _ hz => exact hab y hy z hz

theorem insert_place {α β : Type} [LinearOrder β] {key : α → β} {l : List α} (k : β)
    (h : l.Pairwise fun a b => key a ≤ key b) :
    (∀ u ∈ l.rdropWhile fun u => decide (k < key u), key u ≤ k) ∧
      ∀ u ∈ l.rtakeWhile fun u => decide (k < key u), k < key u := by
  refine ⟨fun u hu => ?_, fun u hu => by simpa using List.mem_rtakeWhile_imp hu⟩
  have hne := List.ne_nil_of_mem hu
  have hlast : ¬k < key ((l.rdropWhile fun u => decide (k < key u)).getLast hne) := fun h =>
    List.rdropWhile_last_not _ _ hne (decide_eq_true h)
  have hsorted := h.sublist (List.rdropWhile_prefix (p := fun u => decide (k < key u)) (l := l)).sublist
  refine le_trans ?_ (not_lt.mp hlast)
  rw [← List.dropLast_append_getLast hne] at hsorted hu
  rcases List.mem_append.mp hu with hu | hu
  · exact (List.pairwise_append.mp hsorted).2.2 u hu _ (List.mem_singleton_self _)
  · rw [List.mem_singleton.mp hu]

end LiteosM.Lib.SortedList
