import Mathlib.Algebra.GroupWithZero.Nat
import Mathlib.Data.List.TakeWhile

/-!
# Paths

A path is read as the list of its components, with slashes between them.
-/

namespace LiteosM.Lib.Path

/-- `while (*p == '/') p++` -/
def skipSlashes (p : List Char) : List Char := p.dropWhile (· = '/')

/-- The component at the head of a path that does not start with a slash. -/
def headName (p : List Char) : List Char := p.takeWhile (· ≠ '/')

def afterName (p : List Char) : List Char := p.dropWhile (· ≠ '/')

variable {p q name rest : List Char}

theorem headName_append_afterName : headName p ++ afterName p = p := List.takeWhile_append_dropWhile

theorem skipSlashes_length_le : (skipSlashes p).length ≤ p.length :=
  (List.dropWhile_sublist _).length_le

theorem skipSlashes_head : (skipSlashes p).head? ≠ some '/' := by
  intro h
  have hnot := List.head?_dropWhile_not (fun c => decide (c = '/')) p
  unfold skipSlashes at h
  rw [h] at hnot
  simp at hnot

theorem skipSlashes_of_head (h : p.head? ≠ some '/') : skipSlashes p = p := by
  cases p with
  | nil => rfl
  | cons c p => exact List.dropWhile_cons_of_neg (by simpa using h)

theorem headName_nil_iff (h : p.head? ≠ some '/') : headName p = [] ↔ p = [] := by
  cases p with
  | nil => exact iff_of_true rfl rfl
  | cons c p =>
    refine iff_of_false ?_ (List.cons_ne_nil c p)
    unfold headName
    rw [List.takeWhile_cons_of_pos (by simpa using h)]
    exact List.cons_ne_nil _ _

theorem headName_no_slash : '/' ∉ headName p := fun h => by
  have hne := List.mem_takeWhile_imp h
  simp at hne

theorem headName_of_no_slash (h : '/' ∉ p) : headName p = p :=
  List.takeWhile_eq_self_iff.mpr fun c hc => by
    refine decide_eq_true fun heq => ?_
    rw [heq] at hc
    exact h hc

theorem afterName_head : afterName p = [] ∨ (afterName p).head? = some '/' := by
  cases h : afterName p with
  | nil => exact Or.inl rfl
  | cons c q =>
    have hnot := List.head?_dropWhile_not (fun c => decide (c ≠ '/')) p
    unfold afterName at h
    rw [h] at hnot
    exact Or.inr (by simpa using hnot)

theorem headName_append (hname : '/' ∉ name) (hrest : rest = [] ∨ rest.head? = some '/') :
    headName (name ++ rest) = name ∧ afterName (name ++ rest) = rest := by
  have hall : ∀ c ∈ name, decide (c ≠ '/') = true := fun c hc => by
    refine decide_eq_true fun h => ?_
    rw [h] at hc
    exact hname hc
  have hend : headName rest = [] ∧ afterName rest = rest := by
    obtain rfl | hslash := hrest
    · exact ⟨rfl, rfl⟩
    · cases rest with
      | nil => cases hslash
      | cons c q =>
        cases hslash
        exact ⟨rfl, rfl⟩
  unfold headName afterName at *
  rw [List.takeWhile_append_of_pos hall, List.dropWhile_append_of_pos hall, hend.1, hend.2,
    List.append_nil]
  exact ⟨rfl, rfl⟩

theorem afterName_shorter (h : skipSlashes p ≠ []) :
    (afterName (skipSlashes p)).length < p.length := by
  have hname : headName (skipSlashes p) ≠ [] := fun heq =>
    h ((headName_nil_iff skipSlashes_head).mp heq)
  have hpos : 0 < (headName (skipSlashes p)).length := List.length_pos_iff.mpr hname
  have hsplit := congrArg List.length (headName_append_afterName (p := skipSlashes p))
  have hle := skipSlashes_length_le (p := p)
  rw [List.length_append] at hsplit
  omega

theorem skipSlashes_ne_nil (h : afterName (skipSlashes p) ≠ []) : skipSlashes p ≠ [] := by
  intro heq
  rw [heq] at h
  exact h rfl

def components (p : List Char) : List (List Char) :=
  if _ : skipSlashes p = [] then []
  else headName (skipSlashes p) :: components (afterName (skipSlashes p))
termination_by p.length
decreasing_by exact afterName_shorter ‹_›

theorem components_of_ne (h : skipSlashes p ≠ []) :
    components p = headName (skipSlashes p) :: components (afterName (skipSlashes p)) := by
  rw [components, dif_neg h]

theorem components_nil_iff : components p = [] ↔ skipSlashes p = [] := by
  rw [components]
  split
  · rename_i h
    exact iff_of_true rfl h
  · rename_i h
    exact iff_of_false (List.cons_ne_nil _ _) h

theorem components_skipSlashes : components (skipSlashes p) = components p := by
  rw [components, skipSlashes_of_head skipSlashes_head, ← components]

theorem components_ne_nil : ∀ name ∈ components p, name ≠ [] := by
  fun_induction components p with
  | case1 p h => exact fun name hn => by cases hn
  | case2 p h ih =>
    intro name hn
    obtain rfl | hmem := List.mem_cons.mp hn
    · exact fun heq => h ((headName_nil_iff skipSlashes_head).mp heq)
    · exact ih name hmem

def size (names : List (List Char)) : Nat := (names.map List.length).sum

theorem size_append (xs ys : List (List Char)) : size (xs ++ ys) = size xs + size ys := by
  unfold size
  rw [List.map_append, List.sum_append]

theorem size_pos {names : List (List Char)} (hne : names ≠ []) (hall : ∀ name ∈ names, name ≠ []) :
    0 < size names := by
  cases names with
  | nil => exact absurd rfl hne
  | cons x xs =>
    have hx : 0 < x.length := List.length_pos_iff.mpr (hall x List.mem_cons_self)
    show 0 < (x.length :: xs.map List.length).sum
    rw [List.sum_cons]
    omega

end LiteosM.Lib.Path
