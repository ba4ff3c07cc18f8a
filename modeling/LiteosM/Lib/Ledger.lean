import Mathlib.Logic.Function.Basic
import Mathlib.Tactic.TypeStar

/-!
# Blocks and those who hold them

A heap maps the address of each block that is allocated to its size. An owner may hold one block.
-/

namespace LiteosM.Lib.Ledger

variable {Owner Addr Size : Type*} {heap : Addr → Option Size} {owns owns' : Owner → Addr → Prop} {o : Owner} {a : Addr}

/-- Every block that is held is allocated, and held once. -/
structure Held (heap : Addr → Option Size) (owns : Owner → Addr → Prop) : Prop where
  live : ∀ o a, owns o a → heap a ≠ none
  apart : ∀ o o' a, owns o a → owns o' a → o = o'

theorem Held.fresh (h : Held heap owns) (ha : heap a = none) : ¬owns o a := fun ho => h.live o a ho ha

theorem Held.mono (h : Held heap owns) (hsub : ∀ o a, owns' o a → owns o a) : Held heap owns' :=
  ⟨fun o a ho => h.live o a (hsub o a ho), fun o o' a ho ho' => h.apart o o' a (hsub o a ho) (hsub o' a ho')⟩

variable [DecidableEq Addr]

theorem Held.alloc (h : Held heap owns) (ha : heap a = none) (n : Size)
    (hnew : ∀ o' a', owns' o' a' → owns o' a' ∨ o' = o ∧ a' = a) : Held (Function.update heap a (some n)) owns' := by
  refine ⟨fun o' a' ho' => ?_, fun o₁ o₂ a' h₁ h₂ => ?_⟩
  · rcases hnew o' a' ho' with hold | ⟨_, rfl⟩
    · have hne : a' ≠ a := fun he => h.fresh ha (he ▸ hold)
      rw [Function.update_of_ne hne]
      exact h.live o' a' hold
    · rw [Function.update_self]
      exact Option.some_ne_none n
  · rcases hnew o₁ a' h₁ with hold₁ | ⟨rfl, rfl⟩
    · rcases hnew o₂ a' h₂ with hold₂ | ⟨_, rfl⟩
      · exact h.apart o₁ o₂ a' hold₁ hold₂
      · exact absurd hold₁ (h.fresh ha)
    · rcases hnew o₂ a' h₂ with hold₂ | ⟨rfl, _⟩
      · exact absurd hold₂ (h.fresh ha)
      · rfl

theorem Held.free (h : Held heap owns) (ho : owns o a) (hold : ∀ o' a', owns' o' a' → owns o' a' ∧ o' ≠ o) :
    Held (Function.update heap a none) owns' := by
  refine ⟨fun o' a' ho' => ?_, fun o₁ o₂ a' h₁ h₂ => h.apart o₁ o₂ a' (hold o₁ a' h₁).1 (hold o₂ a' h₂).1⟩
  obtain ⟨hown, hne⟩ := hold o' a' ho'
  have ha : a' ≠ a := fun he => hne (h.apart o' o a (he ▸ hown) ho)
  rw [Function.update_of_ne ha]
  exact h.live o' a' hown

end LiteosM.Lib.Ledger
