import Mathlib.Data.List.Nodup

/-!
# Null-terminated singly linked lists

`Linked next p l`: from the pointer `p` the cells of `l` follow one another
through `next`, and the last one points nowhere.
-/

namespace LiteosM.Lib.NextList

variable {ν : Type*} {next next' : ν → Option ν} {p : Option ν} {x y : ν} {l l' l₁ l₂ : List ν}

def Linked (next : ν → Option ν) : Option ν → List ν → Prop
  | p, [] => p = none
  | p, x :: l => p = some x ∧ Linked next (next x) l

theorem linked_unique (h : Linked next p l) (h' : Linked next p l') : l = l' := by
  induction l generalizing p l' with
  | nil =>
    cases l' with
    | nil => rfl
    | cons y l' =>
      cases h
      cases h'.1
  | cons x l ih =>
    cases l' with
    | nil =>
      cases h'
      cases h.1
    | cons y l' =>
      obtain ⟨rfl, hrest⟩ := h
      obtain ⟨heq, hrest'⟩ := h'
      cases heq
      rw [ih hrest hrest']

theorem linked_head (h : Linked next p l) : p = l.head? := by
  cases l with
  | nil => exact h
  | cons x l => exact h.1

theorem linked_congr (h : Linked next p l) (heq : ∀ a ∈ l, next' a = next a) :
    Linked next' p l := by
  induction l generalizing p with
  | nil => exact h
  | cons x l ih =>
    obtain ⟨hx, hrest⟩ := h
    refine ⟨hx, ?_⟩
    rw [heq x List.mem_cons_self]
    exact ih hrest fun a ha => heq a (List.mem_cons_of_mem _ ha)

theorem linked_next (h : Linked next p (l₁ ++ x :: y :: l₂)) : next x = some y := by
  induction l₁ generalizing p with
  | nil => exact h.2.1
  | cons a l₁ ih => exact ih h.2

theorem linked_tail (h : Linked next p (l₁ ++ x :: l₂)) : Linked next (next x) l₂ := by
  induction l₁ generalizing p with
  | nil => exact h.2
  | cons a l₁ ih => exact ih h.2

/-- `x->next = y->next` takes the cell after `x` out. -/
theorem linked_unlink [DecidableEq ν] (h : Linked next p (l₁ ++ x :: y :: l₂))
    (hnd : (l₁ ++ x :: y :: l₂).Nodup) :
    Linked (Function.update next x (next y)) p (l₁ ++ x :: l₂) := by
  induction l₁ generalizing p with
  | nil =>
    obtain ⟨hp, -, htail⟩ := h
    refine ⟨hp, ?_⟩
    rw [Function.update_self]
    apply linked_congr htail
    intro a ha
    apply Function.update_of_ne
    intro heq
    subst heq
    exact (List.nodup_cons.mp hnd).1 (List.mem_cons_of_mem _ ha)
  | cons a l₁ ih =>
    obtain ⟨hp, hrest⟩ := h
    obtain ⟨hnot, hnd'⟩ := List.nodup_cons.mp hnd
    refine ⟨hp, ?_⟩
    have hne : a ≠ x := fun heq => hnot (by rw [heq]; exact List.mem_append_right _ List.mem_cons_self)
    rw [Function.update_of_ne hne]
    exact ih hrest hnd'

theorem linked_snoc (h : Linked next p l) (hy : next' y = none)
    (hlast : ∀ a ∈ l, next a = none → next' a = some y)
    (hrest : ∀ a ∈ l, next a ≠ none → next' a = next a) :
    Linked next' (some (p.getD y)) (l ++ [y]) := by
  induction l generalizing p with
  | nil =>
    cases h
    exact ⟨rfl, hy⟩
  | cons x l ih =>
    obtain ⟨rfl, htail⟩ := h
    have htail := ih htail (fun a ha => hlast a (List.mem_cons_of_mem _ ha))
      fun a ha => hrest a (List.mem_cons_of_mem _ ha)
    refine ⟨rfl, ?_⟩
    cases hx : next x with
    | none =>
      rw [hx] at htail
      rw [hlast x List.mem_cons_self hx]
      exact htail
    | some z =>
      rw [hx] at htail
      rw [hrest x List.mem_cons_self (by simp [hx]), hx]
      exact htail

theorem linked_last (h : Linked next p (l ++ [x])) : next x = none := by
  induction l generalizing p with
  | nil => exact h.2
  | cons a l ih => exact ih h.2

theorem linked_end {a : ν} (h : Linked next p (l ++ [x])) (ha : a ∈ l ++ [x]) (hn : next a = none) :
    a = x := by
  induction l generalizing p with
  | nil => exact List.mem_singleton.mp ha
  | cons b l ih =>
    obtain ⟨-, htail⟩ := h
    cases ha with
    | head =>
      rw [hn] at htail
      cases l with
      | nil => cases htail.1
      | cons c l => cases htail.1
    | tail _ ha => exact ih htail ha

theorem exists_before (hy : y ∈ l) (hne : l.head? ≠ some y) :
    ∃ l₁ x l₂, l = l₁ ++ x :: y :: l₂ := by
  obtain ⟨u, w, rfl⟩ := List.append_of_mem hy
  rcases List.eq_nil_or_concat u with rfl | ⟨v, a, rfl⟩
  · exact absurd rfl hne
  · exact ⟨v, a, w, by rw [List.concat_eq_append, List.append_assoc]; rfl⟩

/-- The loop that looks for a cell that satisfies a test, for at most `fuel` cells. -/
def search (next : ν → Option ν) (test : ν → Bool) : Nat → Option ν → Option (Option ν)
  | _, none => some none
  | 0, some _ => none
  | fuel + 1, some t => if test t then some (some t) else search next test fuel (next t)

theorem search_eq {test : ν → Bool} {fuel : Nat} (h : Linked next p l) (hlen : l.length ≤ fuel) :
    search next test fuel p = some (l.find? test) := by
  induction l generalizing p fuel with
  | nil =>
    cases h
    cases fuel <;> rfl
  | cons x l ih =>
    obtain ⟨rfl, hrest⟩ := h
    cases fuel with
    | zero => cases hlen
    | succ fuel =>
      rw [search, List.find?_cons]
      cases htest : test x with
      | true => rfl
      | false => exact ih hrest (Nat.le_of_succ_le_succ hlen)

/-- The search for the cell whose successor is `y` finds the cell before `y`. -/
theorem search_before [DecidableEq ν] {fuel : Nat} (h : Linked next p (l₁ ++ x :: y :: l₂))
    (hnd : (l₁ ++ x :: y :: l₂).Nodup) (hlen : (l₁ ++ x :: y :: l₂).length ≤ fuel) :
    search next (fun t => decide (next t = some y)) fuel p = some (some x) := by
  have hbefore : ∀ (p : Option ν), Linked next p (l₁ ++ x :: y :: l₂) → ∀ a ∈ l₁, next a ≠ some y := by
    intro p hp a ha heq
    obtain ⟨u, w, rfl⟩ := List.append_of_mem ha
    -- the cell after `a` is both `y` and a cell before `y`
    rw [List.append_assoc] at hp hnd
    have hafter := linked_tail hp
    rw [heq] at hafter
    obtain ⟨-, hnd', -⟩ := List.nodup_append.mp hnd
    obtain ⟨-, hnd''⟩ := List.nodup_cons.mp hnd'
    cases w with
    | nil =>
      cases hafter.1
      exact (List.nodup_cons.mp hnd'').1 List.mem_cons_self
    | cons b w =>
      cases hafter.1
      apply (List.nodup_cons.mp hnd'').1
      exact List.mem_append_right _ (List.mem_cons_of_mem _ List.mem_cons_self)
  rw [search_eq h hlen]
  congr 1
  rw [List.find?_append, List.find?_eq_none.mpr fun a ha => by simpa using hbefore p h a ha,
    List.find?_cons_of_pos (by simpa using linked_next h)]
  rfl

end LiteosM.Lib.NextList
