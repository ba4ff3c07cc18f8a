import LiteosM.Lib.SiblingTree
import LiteosM.Ramfs.Source

/-!
# The path walker

`ramfs_file_find` follows the components of the path as far as they lead.
-/

namespace LiteosM.Ramfs

open LiteosM.Lib.NextList LiteosM.Lib.Path LiteosM.Lib.SiblingTree

def childOf : RamfsBody → Option (Option Nat)
  | .file _ _ => none
  | .dir child => some child

def nodeOf (e : RamfsElement) : Node Nat (List Char) where
  name := e.name
  parent := e.parent
  sibling := e.sibling
  child := childOf e.body

def RamfsState.node (s : RamfsState) (a : Nat) : Node Nat (List Char) := nodeOf (s.element a)

variable {s : RamfsState} {kids : Nat → List Nat} {d e walk : Nat} {path left name : List Char}
  {child : Option Nat}

theorem childOf_dir {body : RamfsBody} : childOf body = some child ↔ body = .dir child := by
  cases body with
  | file size content => exact iff_of_false (fun h => by cases h) (fun h => by cases h)
  | dir c =>
    constructor
    · intro h
      cases h
      rfl
    · intro h
      cases h
      rfl

theorem node_child (h : (s.element d).body = .dir child) : (s.node d).child = some child :=
  childOf_dir.mpr h

theorem ramfsSearch_eq (ht : IsTree s.node s.live s.root kids) (hd : d ∈ s.live)
    (hbody : (s.element d).body = .dir child) :
    ramfsSearch s child name = some ((kids d).find? fun t => decide ((s.element t).name = name)) :=
  search_eq (ht.children d hd child (node_child hbody)) (ht.length_le hd)

/-- What the walker reports: the element of the whole path, or the last directory on the way and a
rest that starts with a name it does not have. -/
structure FindRight (s : RamfsState) (kids : Nat → List Nat) (walk : Nat) (path : List Char)
    (e : Nat) (left : List Char) : Prop where
  mem : e ∈ s.live
  leads : ∃ front, components path = front ++ components left ∧ Leads s.node kids walk front e
  missing : left ≠ [] → left.head? ≠ some '/' ∧ (headName left).length < losMaxFileNameLen ∧
    (∃ child, (s.element e).body = .dir child) ∧ ∀ x ∈ kids e, (s.element x).name ≠ headName left

/-- The walker comes back from every path. The induction is on the length of the path. -/
theorem ramfsFileFind_right (ht : IsTree s.node s.live s.root kids)
    (hnames : ∀ d ∈ s.live, ∀ x ∈ kids d, (s.element x).name ≠ []) (n : Nat) :
    ∀ (walk : Nat) (path : List Char), path.length < n → walk ∈ s.live →
      ∃ r, ramfsFileFind s walk path = some r ∧
        ∀ e left, r = some (e, left) → FindRight s kids walk path e left := by
  induction n with
  | zero => exact fun _ path hlen => absurd hlen (Nat.not_lt_zero path.length)
  | succ n ih =>
    intro walk path hlen hwalk
    rw [ramfsFileFind]
    cases hbody : (s.element walk).body with
    | file size content => exact ⟨none, rfl, fun e left h => by cases h⟩
    | dir child =>
      show ∃ r, (if losMaxFileNameLen ≤ (headName (skipSlashes path)).length then some none else _) =
        some r ∧ _
      by_cases hlong : losMaxFileNameLen ≤ (headName (skipSlashes path)).length
      · rw [if_pos hlong]
        exact ⟨none, rfl, fun e left h => by cases h⟩
      rw [if_neg hlong, ramfsSearch_eq ht hwalk hbody]
      cases hfind : (kids walk).find? fun t => decide ((s.element t).name = headName (skipSlashes path)) with
      | none =>
        refine ⟨some (walk, skipSlashes path), rfl, fun e left h => ?_⟩
        cases h
        refine ⟨hwalk, ⟨[], components_skipSlashes.symm, .here⟩, fun _ => ?_⟩
        exact ⟨skipSlashes_head, by omega, ⟨child, hbody⟩, fun x hx heq => by
          simpa [heq] using List.find?_eq_none.mp hfind x hx⟩
      | some t =>
        have hkid : t ∈ kids walk := List.mem_of_find?_eq_some hfind
        have hname : (s.element t).name = headName (skipSlashes path) := by
          simpa using List.find?_some hfind
        have hne : skipSlashes path ≠ [] := by
          intro heq
          rw [heq] at hname
          exact hnames walk hwalk t hkid hname
        have hmem := (ht.kid walk hwalk t hkid).1
        have hdown : ∀ names x, Leads s.node kids t names x →
            Leads s.node kids walk (headName (skipSlashes path) :: names) x := by
          intro names x h
          rw [← hname]
          exact .down hkid h
        show ∃ r, (if _ : afterName (skipSlashes path) = [] then some (some (t, [])) else _) = some r ∧ _
        by_cases hend : afterName (skipSlashes path) = []
        · rw [dif_pos hend]
          refine ⟨some (t, []), rfl, fun e left h => ?_⟩
          cases h
          refine ⟨hmem, ⟨[headName (skipSlashes path)], ?_, hdown [] t .here⟩, fun h => absurd rfl h⟩
          rw [components_of_ne hne, hend]
          rfl
        · rw [dif_neg hend]
          have hshort := afterName_shorter hne
          obtain ⟨r, hr, hright⟩ := ih t (afterName (skipSlashes path)) (by omega) hmem
          refine ⟨r, hr, fun e left h => ?_⟩
          obtain ⟨hlive, ⟨front, hfront, hleads⟩, hmissing⟩ := hright e left h
          refine ⟨hlive, ⟨_, ?_, hdown front e hleads⟩, hmissing⟩
          rw [components_of_ne hne, hfront]
          rfl

end LiteosM.Ramfs
