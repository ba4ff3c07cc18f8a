import Mathlib.Data.List.Nodup
import Mathlib.Data.List.Perm.Subperm
import LiteosM.Lib.NextList

/-!
# Trees kept by parent, first child and next sibling

A node names its parent, the node after it among its siblings and, when it can
have children, the first of them. `IsTree node live root kids` says that the
nodes of `live` form a tree in which `kids d` are the children of `d`.
-/

namespace LiteosM.Lib.SiblingTree

open LiteosM.Lib.NextList

structure Node (ν κ : Type*) where
  name : κ
  parent : Option ν
  sibling : Option ν
  /-- `none` for a node that cannot have children. -/
  child : Option (Option ν)

variable {ν κ : Type*} {node node' : ν → Node ν κ} {live : List ν} {root a d e x : ν}
  {kids : ν → List ν} {c : Option ν} {n : κ}

/-- Going up from the node one comes to the root. -/
inductive Rooted (node : ν → Node ν κ) (root : ν) : ν → Prop
  | root : Rooted node root root
  | step {d e : ν} (parent : (node e).parent = some d) (rooted : Rooted node root d) :
      Rooted node root e

/-- The names lead from a node down to another one. -/
inductive Leads (node : ν → Node ν κ) (kids : ν → List ν) : ν → List κ → ν → Prop
  | here {d : ν} : Leads node kids d [] d
  | down {d e x : ν} {names : List κ} (kid : e ∈ kids d) (rest : Leads node kids e names x) :
      Leads node kids d ((node e).name :: names) x

structure IsTree (node : ν → Node ν κ) (live : List ν) (root : ν) (kids : ν → List ν) : Prop where
  once : live.Nodup
  root_mem : root ∈ live
  root_dir : (node root).child.isSome = true
  root_parent : (node root).parent = none
  leaf : ∀ d ∈ live, (node d).child = none → kids d = []
  children : ∀ d ∈ live, ∀ c, (node d).child = some c →
    Linked (fun e => (node e).sibling) c (kids d)
  nodup : ∀ d ∈ live, (kids d).Nodup
  kid : ∀ d ∈ live, ∀ e ∈ kids d, e ∈ live ∧ (node e).parent = some d
  has_parent : ∀ e ∈ live, e ≠ root → ∃ d ∈ live, e ∈ kids d
  distinct : ∀ d ∈ live, ∀ e ∈ kids d, ∀ e' ∈ kids d, (node e).name = (node e').name → e = e'
  rooted : ∀ e ∈ live, Rooted node root e

namespace IsTree

theorem kid_ne_root (ht : IsTree node live root kids) (hd : d ∈ live) (he : e ∈ kids d) : e ≠ root := by
  intro heq
  have hparent := (ht.kid d hd e he).2
  rw [heq, ht.root_parent] at hparent
  cases hparent

theorem of_parent (ht : IsTree node live root kids) (he : e ∈ live) (hp : (node e).parent = some d) :
    d ∈ live ∧ e ∈ kids d := by
  have hne : e ≠ root := by
    intro heq
    rw [heq, ht.root_parent] at hp
    cases hp
  obtain ⟨d', hd', hmem⟩ := ht.has_parent e he hne
  have hparent := (ht.kid d' hd' e hmem).2
  rw [hp] at hparent
  cases hparent
  exact ⟨hd', hmem⟩

theorem child_of_kid (ht : IsTree node live root kids) (hd : d ∈ live) (he : e ∈ kids d) :
    ∃ c, (node d).child = some c := by
  cases hc : (node d).child with
  | none =>
    rw [ht.leaf d hd hc] at he
    cases he
  | some c => exact ⟨c, rfl⟩

theorem length_le (ht : IsTree node live root kids) (hd : d ∈ live) : (kids d).length ≤ live.length :=
  ((ht.nodup d hd).subperm fun e he => (ht.kid d hd e he).1).length_le

/-- The list of one directory is the only one that a change of one of its nodes can reach. -/
theorem kids_apart (ht : IsTree node live root kids) (hd : d ∈ live) (hx : x ∈ live) (he : e ∈ kids d)
    (hne : x ≠ d) : e ∉ kids x := by
  intro hmem
  have h1 := (ht.kid d hd e he).2
  have h2 := (ht.kid x hx e hmem).2
  rw [h1] at h2
  cases h2
  exact hne rfl

variable [DecidableEq ν]

def insertNode (node : ν → Node ν κ) (a d : ν) (n : κ) (c : Option ν) (child : Option (Option ν)) :
    ν → Node ν κ :=
  Function.update (Function.update node d { node d with child := some (some a) }) a
    { name := n, parent := some d, sibling := c, child := child }

def insertKids (kids : ν → List ν) (a d : ν) : ν → List ν :=
  Function.update (Function.update kids d (a :: kids d)) a []

variable {child : Option (Option ν)}

theorem insertNode_self : insertNode node a d n c child a =
    { name := n, parent := some d, sibling := c, child := child } := Function.update_self ..

theorem insertNode_dir (hne : d ≠ a) :
    insertNode node a d n c child d = { node d with child := some (some a) } := by
  unfold insertNode
  rw [Function.update_of_ne hne, Function.update_self]

theorem insertNode_of_ne (hne : x ≠ a) (hne' : x ≠ d) : insertNode node a d n c child x = node x := by
  unfold insertNode
  rw [Function.update_of_ne hne, Function.update_of_ne hne']

theorem insertNode_old (hne : x ≠ a) :
    (insertNode node a d n c child x).name = (node x).name ∧
    (insertNode node a d n c child x).parent = (node x).parent ∧
    (insertNode node a d n c child x).sibling = (node x).sibling := by
  by_cases hd : x = d
  · subst hd
    rw [insertNode_dir hne]
    exact ⟨rfl, rfl, rfl⟩
  · rw [insertNode_of_ne hne hd]
    exact ⟨rfl, rfl, rfl⟩

theorem insertKids_self : insertKids kids a d a = [] := Function.update_self ..

theorem insertKids_dir (hne : d ≠ a) : insertKids kids a d d = a :: kids d := by
  unfold insertKids
  rw [Function.update_of_ne hne, Function.update_self]

theorem insertKids_of_ne (hne : x ≠ a) (hne' : x ≠ d) : insertKids kids a d x = kids x := by
  unfold insertKids
  rw [Function.update_of_ne hne, Function.update_of_ne hne']

theorem mem_insertKids (ha : a ∉ live) (hx : x ∈ live) (he : e ∈ insertKids kids a d x) :
    e = a ∧ x = d ∨ e ∈ kids x := by
  have hxa : x ≠ a := fun h => ha (h ▸ hx)
  by_cases hd : x = d
  · subst hd
    rw [insertKids_dir hxa] at he
    obtain rfl | hmem := List.mem_cons.mp he
    · exact Or.inl ⟨rfl, rfl⟩
    · exact Or.inr hmem
  · rw [insertKids_of_ne hxa hd] at he
    exact Or.inr he

theorem insert (ht : IsTree node live root kids) (ha : a ∉ live) (hd : d ∈ live)
    (hc : (node d).child = some c) (hname : ∀ e ∈ kids d, (node e).name ≠ n)
    (hchild : child = none ∨ child = some none) :
    IsTree (insertNode node a d n c child) (a :: live) root (insertKids kids a d) := by
  have hne : ∀ x ∈ live, x ≠ a := fun x hx h => ha (h ▸ hx)
  have hkids : ∀ x ∈ live, ∀ e ∈ kids x, e ≠ a := fun x hx e he => hne e (ht.kid x hx e he).1
  have hdir : ∀ x ∈ live, x ≠ d → (insertNode node a d n c child x).child = (node x).child :=
    fun x hx hxd => by rw [insertNode_of_ne (hne x hx) hxd]
  have hlist : ∀ x ∈ live, ∀ p, Linked (fun e => (node e).sibling) p (kids x) →
      Linked (fun e => (insertNode node a d n c child e).sibling) p (kids x) :=
    fun x hx p h => linked_congr h fun e he => (insertNode_old (hkids x hx e he)).2.2
  have hrooted : ∀ x, Rooted node root x → x ∈ live → Rooted (insertNode node a d n c child) root x := by
    intro x hr
    induction hr with
    | root => exact fun _ => .root
    | step hp _ ih =>
      intro hx
      have hmem := (ht.of_parent hx hp).1
      exact .step ((insertNode_old (hne _ hx)).2.1.trans hp) (ih hmem)
  constructor
  case once => exact List.nodup_cons.mpr ⟨ha, ht.once⟩
  case root_mem => exact List.mem_cons_of_mem _ ht.root_mem
  case root_dir =>
    by_cases h : root = d
    · rw [h, insertNode_dir (h ▸ hne root ht.root_mem)]
      rfl
    · rw [hdir root ht.root_mem h]
      exact ht.root_dir
  case root_parent => rw [(insertNode_old (hne root ht.root_mem)).2.1, ht.root_parent]
  case leaf =>
    intro x hx hleaf
    obtain rfl | hx := List.mem_cons.mp hx
    · exact insertKids_self
    · by_cases h : x = d
      · subst h
        rw [insertNode_dir (hne x hx)] at hleaf
        cases hleaf
      · rw [insertKids_of_ne (hne x hx) h]
        rw [hdir x hx h] at hleaf
        exact ht.leaf x hx hleaf
  case children =>
    intro x hx p hp
    obtain rfl | hx := List.mem_cons.mp hx
    · rw [insertNode_self] at hp
      rw [insertKids_self]
      obtain h | h := hchild
      · rw [h] at hp
        cases hp
      · rw [h] at hp
        cases hp
        rfl
    · by_cases h : x = d
      · subst h
        rw [insertNode_dir (hne x hx)] at hp
        cases hp
        rw [insertKids_dir (hne x hx)]
        refine ⟨rfl, ?_⟩
        show Linked _ (insertNode node a x n c child a).sibling _
        rw [insertNode_self]
        exact hlist x hx c (ht.children x hx c hc)
      · rw [insertKids_of_ne (hne x hx) h]
        rw [hdir x hx h] at hp
        exact hlist x hx p (ht.children x hx p hp)
  case nodup =>
    intro x hx
    obtain rfl | hx := List.mem_cons.mp hx
    · rw [insertKids_self]
      exact List.nodup_nil
    · by_cases h : x = d
      · subst h
        rw [insertKids_dir (hne x hx)]
        exact List.nodup_cons.mpr ⟨fun h => hkids x hx a h rfl, ht.nodup x hx⟩
      · rw [insertKids_of_ne (hne x hx) h]
        exact ht.nodup x hx
  case kid =>
    intro x hx0 e he
    obtain rfl | hx := List.mem_cons.mp hx0
    · rw [insertKids_self] at he
      cases he
    · obtain ⟨rfl, rfl⟩ | hmem := mem_insertKids ha hx he
      · rw [insertNode_self]
        exact ⟨List.mem_cons_self, rfl⟩
      · obtain ⟨hlive, hparent⟩ := ht.kid x hx e hmem
        exact ⟨List.mem_cons_of_mem _ hlive, (insertNode_old (hne e hlive)).2.1.trans hparent⟩
  case has_parent =>
    intro e he hroot
    obtain rfl | he := List.mem_cons.mp he
    · refine ⟨d, List.mem_cons_of_mem _ hd, ?_⟩
      rw [insertKids_dir (hne d hd)]
      exact List.mem_cons_self
    · obtain ⟨x, hx, hmem⟩ := ht.has_parent e he hroot
      refine ⟨x, List.mem_cons_of_mem _ hx, ?_⟩
      by_cases h : x = d
      · subst h
        rw [insertKids_dir (hne x hx)]
        exact List.mem_cons_of_mem _ hmem
      · rw [insertKids_of_ne (hne x hx) h]
        exact hmem
  case distinct =>
    intro x hx0 e he e' he' heq
    obtain rfl | hx := List.mem_cons.mp hx0
    · rw [insertKids_self] at he
      cases he
    · obtain ⟨rfl, hxd⟩ | hmem := mem_insertKids ha hx he
      · obtain ⟨rfl, -⟩ | hmem' := mem_insertKids ha hx he'
        · rfl
        · rw [insertNode_self, (insertNode_old (hkids x hx e' hmem')).1] at heq
          exact absurd heq.symm (hname e' (hxd ▸ hmem'))
      · obtain ⟨rfl, hxd⟩ | hmem' := mem_insertKids ha hx he'
        · rw [insertNode_self, (insertNode_old (hkids x hx e hmem)).1] at heq
          exact absurd heq (hname e (hxd ▸ hmem))
        · rw [(insertNode_old (hkids x hx e hmem)).1, (insertNode_old (hkids x hx e' hmem')).1] at heq
          exact ht.distinct x hx e hmem e' hmem' heq
  case rooted =>
    intro x hx0
    obtain rfl | hx := List.mem_cons.mp hx0
    · refine .step ?_ (hrooted d (ht.rooted d hd) hd)
      rw [insertNode_self]
    · exact hrooted x (ht.rooted x hx) hx

/-- A node without children may leave: `node'` differs from `node` in the list of `d` alone. -/
theorem remove (ht : IsTree node live root kids) (hd : d ∈ live) (he : e ∈ kids d) (hleaf : kids e = [])
    (hold : ∀ x, (node' x).name = (node x).name ∧ (node' x).parent = (node x).parent)
    (hchild : ∀ x, x ≠ d → (node' x).child = (node x).child)
    (hsib : ∀ x, x ∉ kids d → (node' x).sibling = (node x).sibling)
    (hlist : ∃ c, (node' d).child = some c ∧
      Linked (fun x => (node' x).sibling) c ((kids d).erase e)) :
    IsTree node' (live.erase e) root (Function.update kids d ((kids d).erase e)) := by
  have hne : e ≠ root := ht.kid_ne_root hd he
  have hmem : ∀ x, x ∈ live.erase e → x ∈ live ∧ x ≠ e := fun x hx =>
    ⟨List.mem_of_mem_erase hx, (ht.once.mem_erase_iff.mp hx).1⟩
  have hkeep : ∀ x, x ∈ live → x ≠ e → x ∈ live.erase e := fun x hx hxe =>
    ht.once.mem_erase_iff.mpr ⟨hxe, hx⟩
  have hsub : ∀ x ∈ live, ∀ y ∈ Function.update kids d ((kids d).erase e) x, y ∈ kids x ∧ y ≠ e := by
    intro x hx y hy
    by_cases h : x = d
    · subst h
      rw [Function.update_self] at hy
      exact ⟨List.mem_of_mem_erase hy, ((ht.nodup x hx).mem_erase_iff.mp hy).1⟩
    · rw [Function.update_of_ne h] at hy
      exact ⟨hy, fun heq => ht.kids_apart hd hx he h (heq ▸ hy)⟩
  obtain ⟨c, hc, hlinked⟩ := hlist
  have hrooted : ∀ x, Rooted node root x → x ∈ live → Rooted node' root x := by
    intro x hr
    induction hr with
    | root => exact fun _ => .root
    | step hp _ ih =>
      intro hx
      exact .step ((hold _).2.trans hp) (ih (ht.of_parent hx hp).1)
  constructor
  case once => exact ht.once.erase e
  case root_mem => exact hkeep root ht.root_mem (Ne.symm hne)
  case root_dir =>
    by_cases h : root = d
    · rw [h, hc]
      rfl
    · rw [hchild root h]
      exact ht.root_dir
  case root_parent => exact (hold root).2.trans ht.root_parent
  case leaf =>
    intro x hx hnone
    have hxd : x ≠ d := by
      intro heq
      rw [heq, hc] at hnone
      cases hnone
    rw [hchild x hxd] at hnone
    rw [Function.update_of_ne hxd]
    exact ht.leaf x (hmem x hx).1 hnone
  case children =>
    intro x hx p hp
    by_cases h : x = d
    · subst h
      rw [hc] at hp
      cases hp
      rw [Function.update_self]
      exact hlinked
    · rw [hchild x h] at hp
      rw [Function.update_of_ne h]
      have hlive := (hmem x hx).1
      apply linked_congr (ht.children x hlive p hp)
      intro y hy
      exact hsib y (ht.kids_apart hlive hd hy (Ne.symm h))
  case nodup =>
    intro x hx
    by_cases h : x = d
    · subst h
      rw [Function.update_self]
      exact (ht.nodup x hd).erase e
    · rw [Function.update_of_ne h]
      exact ht.nodup x (hmem x hx).1
  case kid =>
    intro x hx y hy
    obtain ⟨hy, hye⟩ := hsub x (hmem x hx).1 y hy
    obtain ⟨hlive, hparent⟩ := ht.kid x (hmem x hx).1 y hy
    exact ⟨hkeep y hlive hye, (hold y).2.trans hparent⟩
  case has_parent =>
    intro y hy hroot
    obtain ⟨hy, hye⟩ := hmem y hy
    obtain ⟨x, hx, hkid⟩ := ht.has_parent y hy hroot
    -- `e` has no children, so it is not the parent that goes
    have hxe : x ≠ e := by
      intro heq
      rw [heq, hleaf] at hkid
      cases hkid
    refine ⟨x, hkeep x hx hxe, ?_⟩
    by_cases h : x = d
    · subst h
      rw [Function.update_self]
      exact (ht.nodup x hx).mem_erase_iff.mpr ⟨hye, hkid⟩
    · rw [Function.update_of_ne h]
      exact hkid
  case distinct =>
    intro x hx y hy y' hy' heq
    have hlive := (hmem x hx).1
    rw [(hold y).1, (hold y').1] at heq
    exact ht.distinct x hlive y (hsub x hlive y hy).1 y' (hsub x hlive y' hy').1 heq
  case rooted =>
    intro x hx
    have hlive := (hmem x hx).1
    exact hrooted x (ht.rooted x hlive) hlive

theorem remove_first (ht : IsTree node live root kids) (hd : d ∈ live)
    (hc : (node d).child = some (some e)) (hleaf : kids e = []) :
    IsTree (Function.update node d { node d with child := some (node e).sibling }) (live.erase e) root
      (Function.update kids d ((kids d).erase e)) := by
  have hlist := ht.children d hd _ hc
  cases hkids : kids d with
  | nil =>
    rw [hkids] at hlist
    cases hlist
  | cons y l =>
    rw [hkids] at hlist
    obtain ⟨heq, hrest⟩ := hlist
    cases heq
    have hkeep : ∀ x, (Function.update node d { node d with child := some (node e).sibling } x).name =
        (node x).name ∧
        (Function.update node d { node d with child := some (node e).sibling } x).parent =
          (node x).parent ∧
        (Function.update node d { node d with child := some (node e).sibling } x).sibling =
          (node x).sibling := by
      intro x
      by_cases h : x = d
      · subst h
        rw [Function.update_self]
        exact ⟨rfl, rfl, rfl⟩
      · rw [Function.update_of_ne h]
        exact ⟨rfl, rfl, rfl⟩
    rw [← hkids]
    apply ht.remove hd (by rw [hkids]; exact List.mem_cons_self) hleaf
    · exact fun x => ⟨(hkeep x).1, (hkeep x).2.1⟩
    · intro x hx
      rw [Function.update_of_ne hx]
    · exact fun x _ => (hkeep x).2.2
    · refine ⟨(node e).sibling, by rw [Function.update_self], ?_⟩
      rw [hkids, List.erase_cons_head]
      exact linked_congr hrest fun x _ => (hkeep x).2.2

theorem remove_after {l₁ l₂ : List ν} (ht : IsTree node live root kids) (hd : d ∈ live)
    (hkids : kids d = l₁ ++ x :: e :: l₂) (hleaf : kids e = []) :
    IsTree (Function.update node x { node x with sibling := (node e).sibling }) (live.erase e) root
      (Function.update kids d ((kids d).erase e)) := by
  have he : e ∈ kids d := by
    rw [hkids]
    exact List.mem_append_right _ (List.mem_cons_of_mem _ List.mem_cons_self)
  have hx : x ∈ kids d := by
    rw [hkids]
    exact List.mem_append_right _ List.mem_cons_self
  obtain ⟨c, hc⟩ := ht.child_of_kid hd he
  have hlist := ht.children d hd c hc
  have hnd := ht.nodup d hd
  have hkeep : ∀ y, (Function.update node x { node x with sibling := (node e).sibling } y).name =
      (node y).name ∧
      (Function.update node x { node x with sibling := (node e).sibling } y).parent = (node y).parent ∧
      (Function.update node x { node x with sibling := (node e).sibling } y).child =
        (node y).child := by
    intro y
    by_cases h : y = x
    · subst h
      rw [Function.update_self]
      exact ⟨rfl, rfl, rfl⟩
    · rw [Function.update_of_ne h]
      exact ⟨rfl, rfl, rfl⟩
  apply ht.remove hd he hleaf
  · exact fun y => ⟨(hkeep y).1, (hkeep y).2.1⟩
  · exact fun y _ => (hkeep y).2.2
  · intro y hy
    rw [Function.update_of_ne fun h => hy (by rw [h]; exact hx)]
  · refine ⟨c, (hkeep d).2.2.trans hc, ?_⟩
    rw [hkids] at hlist hnd ⊢
    have hsib : (fun y => (Function.update node x { node x with sibling := (node e).sibling } y).sibling) =
        Function.update (fun y => (node y).sibling) x (node e).sibling := by
      funext y
      by_cases h : y = x
      · subst h
        rw [Function.update_self, Function.update_self]
      · rw [Function.update_of_ne h, Function.update_of_ne h]
    have herase : (l₁ ++ x :: e :: l₂).erase e = l₁ ++ x :: l₂ := by
      obtain ⟨-, hnd', hdisj⟩ := List.nodup_append.mp hnd
      have hnot : e ∉ l₁ := fun h =>
        hdisj e h e (List.mem_cons_of_mem _ List.mem_cons_self) rfl
      have hxe : x ≠ e := fun h => (List.nodup_cons.mp hnd').1 (h ▸ List.mem_cons_self)
      rw [List.erase_append_right _ hnot, List.erase_cons_tail (by simpa using hxe),
        List.erase_cons_head]
    rw [hsib, herase]
    exact linked_unlink hlist hnd

theorem rename (ht : IsTree node live root kids) (hd : d ∈ live) (he : e ∈ kids d)
    (hname : ∀ x ∈ kids d, (node x).name ≠ n) :
    IsTree (Function.update node e { node e with name := n }) live root kids := by
  have hkeep : ∀ x, (Function.update node e { node e with name := n } x).parent = (node x).parent ∧
      (Function.update node e { node e with name := n } x).sibling = (node x).sibling ∧
      (Function.update node e { node e with name := n } x).child = (node x).child := by
    intro x
    by_cases h : x = e
    · subst h
      rw [Function.update_self]
      exact ⟨rfl, rfl, rfl⟩
    · rw [Function.update_of_ne h]
      exact ⟨rfl, rfl, rfl⟩
  have hrooted : ∀ x, Rooted node root x →
      Rooted (Function.update node e { node e with name := n }) root x := by
    intro x hr
    induction hr with
    | root => exact .root
    | step hp _ ih => exact .step ((hkeep _).1.trans hp) ih
  constructor
  case once => exact ht.once
  case root_mem => exact ht.root_mem
  case root_dir =>
    rw [(hkeep root).2.2]
    exact ht.root_dir
  case root_parent => exact (hkeep root).1.trans ht.root_parent
  case leaf =>
    intro x hx hleaf
    rw [(hkeep x).2.2] at hleaf
    exact ht.leaf x hx hleaf
  case children =>
    intro x hx p hp
    rw [(hkeep x).2.2] at hp
    exact linked_congr (ht.children x hx p hp) fun y _ => (hkeep y).2.1
  case nodup => exact ht.nodup
  case kid =>
    intro x hx y hy
    obtain ⟨hlive, hparent⟩ := ht.kid x hx y hy
    exact ⟨hlive, (hkeep y).1.trans hparent⟩
  case has_parent => exact ht.has_parent
  case distinct =>
    intro x hx y hy y' hy' heq
    have hother : ∀ z ∈ kids x, z ≠ e →
        (Function.update node e { node e with name := n } z).name = (node z).name :=
      fun z _ hz => by rw [Function.update_of_ne hz]
    -- the two can only clash when one of them is `e`, and then `x` is `d`
    have hclash : ∀ z ∈ kids x, z ≠ e → e ∈ kids x → (node z).name ≠ n := by
      intro z hz _ hex
      by_cases h : x = d
      · exact hname z (h ▸ hz)
      · exact absurd hex (ht.kids_apart hd hx he h)
    by_cases h : y = e
    · by_cases h' : y' = e
      · rw [h, h']
      · rw [h, Function.update_self, hother y' hy' h'] at heq
        exact absurd heq.symm (hclash y' hy' h' (h ▸ hy))
    · by_cases h' : y' = e
      · rw [h', Function.update_self, hother y hy h] at heq
        exact absurd heq (hclash y hy h (h' ▸ hy'))
      · rw [hother y hy h, hother y' hy' h'] at heq
        exact ht.distinct x hx y hy y' hy' heq
  case rooted => exact fun x hx => hrooted x (ht.rooted x hx)

end IsTree

end LiteosM.Lib.SiblingTree
