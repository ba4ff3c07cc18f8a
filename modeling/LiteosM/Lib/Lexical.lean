import Mathlib.Data.List.Basic
import Mathlib.Algebra.Order.BigOperators.Group.List

/-!
# Lexical normal forms

A text of names with a separator before each, and what it is after its empty names, its dots and
its steps upwards have been worked off.
-/

namespace LiteosM.Lib.Lexical

variable {α : Type} [DecidableEq α]

def strstr (pat : List α) : List α → Option Nat
  | [] => if pat = [] then some 0 else none
  | c :: s => if pat.isPrefixOf (c :: s) then some 0 else (strstr pat s).map (· + 1)

omit [DecidableEq α] in
def joined (sep : α) : List (List α) → List α
  | [] => []
  | name :: names => sep :: (name ++ joined sep names)

def render (sep : α) (names : List (List α)) : List α :=
  if names = [] then [sep] else joined sep names

def down (dotdot : List α) (names : List (List α)) (name : List α) : List (List α) :=
  if name = dotdot then names.dropLast else names ++ [name]

def normalNames (dot dotdot : List α) (names : List (List α)) : List (List α) :=
  (names.filter fun name => name ≠ [] ∧ name ≠ dot).foldl (down dotdot) []

def IsCanonical (sep : α) (dot dotdot : List α) (text : List α) : Prop :=
  ∃ names, text = render sep names ∧ ∀ name ∈ names, name ≠ [] ∧ name ≠ dot ∧ name ≠ dotdot ∧ sep ∉ name

variable {sep : α} {pat s name : List α} {names l r : List (List α)} {dot dotdot : List α}

theorem strstr_bound {p : Nat} (h : strstr pat s = some p) : p + pat.length ≤ s.length := by
  induction s generalizing p with
  | nil =>
    unfold strstr at h
    split at h
    · rename_i hpat
      cases h
      rw [hpat]
      exact Nat.le_refl _
    · cases h
  | cons c s ih =>
    unfold strstr at h
    split at h
    · rename_i hpre
      cases h
      have hle := (List.isPrefixOf_iff_prefix.mp hpre).length_le
      omega
    · obtain ⟨q, hq, rfl⟩ := Option.map_eq_some_iff.mp h
      have hle := ih hq
      rw [List.length_cons]
      omega

theorem strstr_skip (h : sep ∉ name) :
    strstr (sep :: pat) (name ++ s) = (strstr (sep :: pat) s).map (· + name.length) := by
  induction name with
  | nil => simp
  | cons c name ih =>
    have hne : c ≠ sep := fun heq => h (heq ▸ List.mem_cons_self)
    have hpre : ¬(sep :: pat).isPrefixOf (c :: (name ++ s)) = true := by
      rw [List.isPrefixOf_iff_prefix, List.cons_prefix_cons]
      exact fun hboth => hne hboth.1.symm
    rw [List.cons_append, strstr, if_neg hpre, ih fun hmem => h (List.mem_cons_of_mem c hmem), Option.map_map]
    rfl

omit [DecidableEq α] in
theorem joined_append : joined sep (l ++ r) = joined sep l ++ joined sep r := by
  induction l with
  | nil => rfl
  | cons name names ih => simp [joined, ih]

omit [DecidableEq α] in
theorem joined_length_sublist (sep : α) (h : l.Sublist r) : (joined sep l).length ≤ (joined sep r).length := by
  induction h with
  | slnil => exact Nat.le_refl _
  | cons name _ ih =>
    simp only [joined, List.length_cons, List.length_append]
    omega
  | cons_cons name _ ih =>
    simp only [joined, List.length_cons, List.length_append]
    omega

omit [DecidableEq α] in
theorem length_le_joined (sep : α) (names : List (List α)) : names.length ≤ (joined sep names).length := by
  induction names with
  | nil => exact Nat.le_refl _
  | cons name names ih =>
    simp only [joined, List.length_cons, List.length_append]
    omega

omit [DecidableEq α] in
theorem joined_length_filter (sep : α) (h : [] ∈ names) :
    (joined sep (names.filter (· ≠ []))).length < (joined sep names).length := by
  obtain ⟨l, r, rfl⟩ := List.append_of_mem h
  have hsub : ((l ++ [] :: r).filter (· ≠ [])).Sublist (l ++ r) := by
    rw [List.filter_append, List.filter_cons_of_neg (by simp), ← List.filter_append]
    exact List.filter_sublist
  have hle := joined_length_sublist sep hsub
  have hmore : (joined sep (l ++ [] :: r)).length = (joined sep (l ++ r)).length + 1 := by
    simp only [joined_append, joined, List.length_append, List.length_cons, List.nil_append]
    omega
  omega

omit [DecidableEq α] in
theorem joined_end (sep : α) (names : List (List α)) : ∃ rest, joined sep names ++ [sep] = sep :: rest := by
  cases names with
  | nil => exact ⟨[], rfl⟩
  | cons name names => exact ⟨_, rfl⟩

theorem isPrefixOf_name {name' rest : List α} (h : sep ∉ name) (h' : sep ∉ name') :
    (name ++ [sep]).isPrefixOf (name' ++ sep :: rest) = true ↔ name = name' := by
  rw [List.isPrefixOf_iff_prefix]
  constructor
  · intro ⟨t, ht⟩
    rw [List.append_assoc, List.singleton_append] at ht
    have hsplit := congrArg (List.splitOn sep) ht
    rw [List.splitOn_append_cons_self_of_not_mem h, List.splitOn_append_cons_self_of_not_mem h'] at hsplit
    exact (List.cons.inj hsplit).1
  · intro heq
    exact ⟨rest, by rw [heq, List.append_assoc, List.singleton_append]⟩

/-- A name between separators that is not one of the names. -/
theorem strstr_joined_none (hname : sep ∉ name) (hsep : ∀ n ∈ names, sep ∉ n) (h : name ∉ names) :
    strstr (sep :: (name ++ [sep])) (joined sep names ++ [sep]) = none := by
  induction names with
  | nil => simp [joined, strstr]
  | cons n names ih =>
    obtain ⟨hn, hnames⟩ := List.forall_mem_cons.mp hsep
    obtain ⟨rest, hrest⟩ := joined_end sep names
    have hne : name ≠ n := fun heq => h (heq ▸ List.mem_cons_self)
    have hpre : ¬(sep :: (name ++ [sep])).isPrefixOf (sep :: (n ++ (joined sep names ++ [sep]))) = true := by
      rw [hrest, List.isPrefixOf_iff_prefix, List.cons_prefix_cons, ← List.isPrefixOf_iff_prefix,
        isPrefixOf_name hname hn]
      exact fun hboth => hne hboth.2
    rw [joined, List.cons_append, List.append_assoc, strstr, if_neg hpre, strstr_skip hn,
      ih hnames fun hmem => h (List.mem_cons_of_mem n hmem)]
    rfl

/-- The first of the names that is the one between separators. -/
theorem strstr_joined_some (hname : sep ∉ name) (hsep : ∀ n ∈ l, sep ∉ n) (h : name ∉ l) :
    strstr (sep :: (name ++ [sep])) (joined sep (l ++ name :: r) ++ [sep]) = some (joined sep l).length := by
  induction l with
  | nil =>
    obtain ⟨rest, hrest⟩ := joined_end sep r
    show strstr (sep :: (name ++ [sep])) (joined sep (name :: r) ++ [sep]) = some 0
    rw [joined, List.cons_append, List.append_assoc, hrest, strstr, if_pos]
    rw [List.isPrefixOf_iff_prefix, List.cons_prefix_cons, ← List.isPrefixOf_iff_prefix,
      isPrefixOf_name hname hname]
    exact ⟨rfl, rfl⟩
  | cons n names ih =>
    obtain ⟨hn, hnames⟩ := List.forall_mem_cons.mp hsep
    obtain ⟨rest, hrest⟩ := joined_end sep (names ++ name :: r)
    have hne : name ≠ n := fun heq => h (heq ▸ List.mem_cons_self)
    have hpre : ¬(sep :: (name ++ [sep])).isPrefixOf
        (sep :: (n ++ (joined sep (names ++ name :: r) ++ [sep]))) = true := by
      rw [hrest, List.isPrefixOf_iff_prefix, List.cons_prefix_cons, ← List.isPrefixOf_iff_prefix,
        isPrefixOf_name hname hn]
      exact fun hboth => hne hboth.2
    rw [List.cons_append, joined, List.cons_append, List.append_assoc, strstr, if_neg hpre, strstr_skip hn,
      ih hnames fun hmem => h (List.mem_cons_of_mem n hmem)]
    simp [joined]
    omega

theorem joined_splitOn (s : List α) : joined sep (s.splitOn sep) = sep :: s := by
  induction s with
  | nil => rfl
  | cons c s ih =>
    rw [List.splitOn_cons_eq_if_modifyHead]
    split
    · rename_i heq
      rw [joined, ih, eq_of_beq heq]
      rfl
    · obtain ⟨n, names, hsplit⟩ := List.exists_cons_of_ne_nil (List.splitOn_ne_nil sep s)
      rw [hsplit, joined] at ih
      rw [hsplit, List.modifyHead_cons, joined, List.cons_append, (List.cons.inj ih).2]

theorem sep_not_mem_splitOn (s : List α) : ∀ n ∈ s.splitOn sep, sep ∉ n := by
  induction s with
  | nil => simp
  | cons c s ih =>
    rw [List.splitOn_cons_eq_if_modifyHead]
    split
    · exact List.forall_mem_cons.mpr ⟨List.not_mem_nil, ih⟩
    · rename_i hne
      obtain ⟨n, names, hsplit⟩ := List.exists_cons_of_ne_nil (List.splitOn_ne_nil sep s)
      rw [hsplit] at ih ⊢
      obtain ⟨hn, hnames⟩ := List.forall_mem_cons.mp ih
      rw [List.modifyHead_cons]
      refine List.forall_mem_cons.mpr ⟨fun hmem => ?_, hnames⟩
      obtain heq | hmem := List.mem_cons.mp hmem
      · exact hne (beq_iff_eq.mpr heq.symm)
      · exact hn hmem

theorem splitOn_joined (hname : sep ∉ name) (hsep : ∀ n ∈ names, sep ∉ n) :
    (name ++ joined sep names).splitOn sep = name :: names := by
  induction names generalizing name with
  | nil =>
    rw [joined, List.append_nil]
    exact List.splitOn_eq_singleton hname
  | cons n names ih =>
    obtain ⟨hn, hnames⟩ := List.forall_mem_cons.mp hsep
    rw [joined, List.splitOn_append_cons_self_of_not_mem hname, ih hn hnames]

theorem foldl_down (h : dotdot ∉ r) : r.foldl (down dotdot) l = l ++ r := by
  induction r generalizing l with
  | nil => rw [List.append_nil]; rfl
  | cons name names ih =>
    have hne : name ≠ dotdot := fun heq => h (heq ▸ List.mem_cons_self)
    rw [List.foldl_cons, down, if_neg hne, ih fun hmem => h (List.mem_cons_of_mem name hmem), List.append_assoc,
      List.singleton_append]

theorem mem_foldl_down {n : List α} (h : n ∈ r.foldl (down dotdot) l) : n ∈ l ∨ n ∈ r ∧ n ≠ dotdot := by
  induction r generalizing l with
  | nil => exact .inl h
  | cons name names ih =>
    obtain hmem | hmem := ih h
    · unfold down at hmem
      split at hmem
      · exact .inl (List.dropLast_subset _ hmem)
      · rename_i hne
        obtain hmem | hmem := List.mem_append.mp hmem
        · exact .inl hmem
        · rw [List.mem_singleton.mp hmem]
          exact .inr ⟨List.mem_cons_self, hne⟩
    · exact .inr ⟨List.mem_cons_of_mem name hmem.1, hmem.2⟩

theorem normalNames_canonical (hsep : ∀ n ∈ names, sep ∉ n) :
    IsCanonical sep dot dotdot (render sep (normalNames dot dotdot names)) := by
  refine ⟨_, rfl, fun name hname => ?_⟩
  obtain hmem | ⟨hmem, hne⟩ := mem_foldl_down hname
  · cases hmem
  · obtain ⟨hin, hkeep⟩ := List.mem_filter.mp hmem
    have hboth := of_decide_eq_true hkeep
    exact ⟨hboth.1, hboth.2, hne, hsep name hin⟩

theorem normalNames_ordinary (h : ∀ name ∈ names, name ≠ [] ∧ name ≠ dot ∧ name ≠ dotdot) :
    normalNames dot dotdot names = names := by
  unfold normalNames
  have hkeep : (names.filter fun name => name ≠ [] ∧ name ≠ dot) = names :=
    List.filter_eq_self.mpr fun name hname => decide_eq_true ⟨(h name hname).1, (h name hname).2.1⟩
  rw [hkeep, foldl_down fun hmem => (h dotdot hmem).2.2 rfl, List.nil_append]

theorem normalNames_nil_cons : normalNames dot dotdot ([] :: names) = normalNames dot dotdot names := by
  unfold normalNames
  rw [List.filter_cons_of_neg (by simp)]

theorem IsCanonical.normal {text : List α} (h : IsCanonical sep dot dotdot text) :
    render sep (normalNames dot dotdot (text.splitOn sep)) = text := by
  obtain ⟨names, rfl, hnames⟩ := h
  have hordinary := normalNames_ordinary fun name hname =>
    ⟨(hnames name hname).1, (hnames name hname).2.1, (hnames name hname).2.2.1⟩
  unfold render
  split
  · rename_i hnil
    rw [hnil] at hordinary
    have hsplit : [sep].splitOn sep = [[], []] := by simp [List.splitOn_cons_eq_if_modifyHead]
    rw [hsplit, normalNames_nil_cons, normalNames_nil_cons, hordinary, if_pos rfl]
  · rename_i hne
    rw [← List.nil_append (joined sep names), splitOn_joined List.not_mem_nil fun n hn => (hnames n hn).2.2.2,
      normalNames_nil_cons, hordinary, if_neg hne]
    rfl

end LiteosM.Lib.Lexical
