import Mathlib.Data.List.Perm.Subperm
import Mathlib.Data.List.Nodup
import Mathlib.Logic.Function.Basic

/-!
# Cells partitioned over a family of lists

Each cell of a set is in exactly one of the lists, and there once.
-/

namespace LiteosM.Lib.Partition

variable {ι α : Type*} {lists : ι → List α} {S : α → Prop} {i j k : ι} {a x : α} {l₁ l₂ : List α}

structure Partitions (lists : ι → List α) (S : α → Prop) : Prop where
  nodup : ∀ i, (lists i).Nodup
  apart : ∀ i j a, a ∈ lists i → a ∈ lists j → i = j
  cover : ∀ a, S a ↔ ∃ i, a ∈ lists i

def moved [DecidableEq ι] (lists : ι → List α) (i j : ι) (l₁ l₂ : List α) (x : α) : ι → List α :=
  Function.update (Function.update lists i (l₁ ++ l₂)) j (x :: lists j)

section

variable [DecidableEq ι]

@[simp] theorem moved_target : moved lists i j l₁ l₂ x j = x :: lists j := Function.update_self ..

theorem moved_source (hne : i ≠ j) : moved lists i j l₁ l₂ x i = l₁ ++ l₂ := by
  rw [moved, Function.update_of_ne hne, Function.update_self]

theorem moved_other (hi : k ≠ i) (hj : k ≠ j) : moved lists i j l₁ l₂ x k = lists k := by
  rw [moved, Function.update_of_ne hj, Function.update_of_ne hi]

theorem mem_moved (h : Partitions lists S) (hne : i ≠ j) (hi : lists i = l₁ ++ x :: l₂) :
    a ∈ moved lists i j l₁ l₂ x k ↔ (a ≠ x ∧ a ∈ lists k) ∨ (a = x ∧ k = j) := by
  have hx : ∀ k, x ∈ lists k → i = k := by
    intro k hk
    apply h.apart i k x _ hk
    rw [hi]
    exact List.mem_append_right _ List.mem_cons_self
  have hnd := h.nodup i
  rw [hi] at hnd
  have hout : x ∉ l₁ ++ l₂ := (List.nodup_middle.mp hnd |> List.nodup_cons.mp).1
  by_cases hkj : k = j
  · subst hkj
    rw [moved_target, List.mem_cons]
    have hxk : x ∉ lists k := fun hk => hne (hx k hk)
    grind
  · by_cases hki : k = i
    · subst hki
      rw [moved_source hne, hi]
      grind
    · rw [moved_other hki hkj]
      have hxk : x ∉ lists k := fun hk => hki (hx k hk).symm
      grind

theorem partition_moved (h : Partitions lists S) (hne : i ≠ j) (hi : lists i = l₁ ++ x :: l₂) :
    Partitions (moved lists i j l₁ l₂ x) S := by
  have hmem : ∀ a k, a ∈ moved lists i j l₁ l₂ x k ↔ (a ≠ x ∧ a ∈ lists k) ∨ (a = x ∧ k = j) :=
    fun a k => mem_moved h hne hi
  have hxi : x ∈ lists i := by
    rw [hi]
    exact List.mem_append_right _ List.mem_cons_self
  constructor
  · intro k
    by_cases hkj : k = j
    · subst hkj
      rw [moved_target]
      exact List.nodup_cons.mpr ⟨fun hk => hne (h.apart i k x hxi hk), h.nodup k⟩
    · by_cases hki : k = i
      · subst hki
        rw [moved_source hne]
        have hnd := h.nodup k
        rw [hi] at hnd
        exact (List.nodup_cons.mp (List.nodup_middle.mp hnd)).2
      · rw [moved_other hki hkj]
        exact h.nodup k
  · intro k m a hk hm
    rw [hmem] at hk hm
    obtain ⟨hax, hk⟩ | ⟨hax, hk⟩ := hk <;> obtain ⟨hax', hm⟩ | ⟨hax', hm⟩ := hm
    · exact h.apart k m a hk hm
    · exact absurd hax' hax
    · exact absurd hax hax'
    · rw [hk, hm]
  · intro a
    simp only [hmem]
    rw [h.cover a]
    constructor
    · intro ⟨k, hk⟩
      by_cases hax : a = x
      · exact ⟨j, .inr ⟨hax, rfl⟩⟩
      · exact ⟨k, .inl ⟨hax, hk⟩⟩
    · intro ⟨k, hk⟩
      obtain ⟨-, hk⟩ | ⟨rfl, -⟩ := hk
      · exact ⟨k, hk⟩
      · exact ⟨i, hxi⟩

end

theorem partition_length {lists : ι → List Nat} {n : Nat} (h : Partitions lists (· < n))
    (hne : i ≠ j) : (lists i).length + (lists j).length ≤ n := by
  have hnd : (lists i ++ lists j).Nodup :=
    (h.nodup i).append (h.nodup j) fun a hi hj => hne (h.apart i j a hi hj)
  have hsub : lists i ++ lists j ⊆ List.range n := by
    intro a ha
    rw [List.mem_range]
    apply (h.cover a).mpr
    cases List.mem_append.mp ha with
    | inl ha => exact ⟨i, ha⟩
    | inr ha => exact ⟨j, ha⟩
  have hle := (hnd.subperm hsub).length_le
  rwa [List.length_append, List.length_range] at hle

end LiteosM.Lib.Partition
