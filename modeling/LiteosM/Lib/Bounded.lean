import Mathlib.Data.List.Basic

/-!
# Bounded queues

A queue of at most `n` entries that drops what comes when it is full.
-/

namespace LiteosM.Lib.Bounded

variable {α : Type}

def push (n : Nat) (q : List α) (a : α) : List α := if q.length < n then q ++ [a] else q

theorem foldl_push (n : Nat) (l : List α) : ∀ q, l.foldl (push n) q = q ++ l.take (n - q.length) := by
  induction l with
  | nil =>
    intro q
    rw [List.take_nil, List.append_nil]
    rfl
  | cons a l ih =>
    intro q
    rw [List.foldl_cons, ih]
    unfold push
    split
    · next hroom =>
      rw [List.length_append, List.length_singleton, show n - q.length = (n - (q.length + 1)) + 1 by omega,
        List.take_succ_cons, List.append_assoc]
      rfl
    · next hfull =>
      rw [show n - q.length = 0 by omega, List.take_zero, List.take_zero]

theorem not_mem_take_of_mem_drop {l : List α} (h : l.Nodup) {k : Nat} {a : α} (ha : a ∈ l.drop k) :
    a ∉ l.take k := fun htake => List.disjoint_take_drop h (Nat.le_refl k) htake ha

theorem filter_take {l : List α} (h : l.Nodup) {k : Nat} {p : α → Bool} (hp : ∀ a ∈ l, p a = true → a ∈ l.take k) :
    (l.take k).filter p = l.filter p := by
  have hdrop : (l.drop k).filter p = [] := by
    rw [List.filter_eq_nil_iff]
    intro a ha hpa
    exact not_mem_take_of_mem_drop h ha (hp a (List.mem_of_mem_drop ha) hpa)
  have hsplit := congrArg (List.filter p) (List.take_append_drop k l)
  rw [List.filter_append, hdrop, List.append_nil] at hsplit
  exact hsplit

end LiteosM.Lib.Bounded
