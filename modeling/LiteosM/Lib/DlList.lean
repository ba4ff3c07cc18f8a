import LiteosM.Lib.LinkedList
import Mathlib.Logic.Function.Basic

/-!
# Circular lists of embedded nodes

A `Store` holds the two pointers of every node. A `View` says what the lists are: every
node is either loose, the head of a list, or a member of exactly one list, and
`content h` is what one meets when walking from the head `h`. `Forest s V` connects them.
-/

namespace LiteosM.Lib.DlList

open LiteosM.Lib.LinkedList

structure Store (ν : Type) where
  next : ν → ν
  prev : ν → ν

inductive Role (ν : Type)
  | loose
  | head
  | member (h : ν)
deriving DecidableEq

section

variable {ν : Type} [DecidableEq ν]

def setNext (s : Store ν) (a b : ν) : Store ν := { s with next := Function.update s.next a b }

def setPrev (s : Store ν) (a b : ν) : Store ν := { s with prev := Function.update s.prev a b }

def listInit (s : Store ν) (list : ν) : Store ν :=
  setPrev (setNext s list list) list list

def listAdd (s : Store ν) (list node : ν) : Store ν :=
  let s := setNext s node (s.next list)
  let s := setPrev s node list
  let s := setPrev s (s.next list) node
  setNext s list node

def listTailInsert (s : Store ν) (list node : ν) : Store ν :=
  listAdd s (s.prev list) node

def listDelete (null : ν) (s : Store ν) (node : ν) : Store ν :=
  let s := setPrev s (s.next node) (s.prev node)
  let s := setNext s (s.prev node) (s.next node)
  let s := setNext s node null
  setPrev s node null

def listEmpty (s : Store ν) (list : ν) : Bool := s.next list = list

end

structure View (ν : Type) where
  role : ν → Role ν
  content : ν → List ν

section

variable {ν : Type} [DecidableEq ν] (V : View ν) (x y h g : ν) (l : List ν) (r : Role ν)

def View.setRole : View ν := { V with role := Function.update V.role x r }

/-- `x` joins the list of `h`, which becomes `l`. -/
def View.put : View ν :=
  ⟨Function.update V.role x (.member h), Function.update V.content h l⟩

def View.remove : View ν := ⟨Function.update V.role x .loose, fun g => (V.content g).erase x⟩

@[simp]
theorem View.setRole_role : (V.setRole x r).role y = if y = x then r else V.role y := by
  simp [View.setRole, Function.update_apply]

@[simp]
theorem View.setRole_content : (V.setRole x r).content = V.content := rfl

@[simp]
theorem View.put_role : (V.put x h l).role y = if y = x then .member h else V.role y := by
  simp [View.put, Function.update_apply]

@[simp]
theorem View.put_content : (V.put x h l).content g = if g = h then l else V.content g := by
  simp [View.put, Function.update_apply]

@[simp]
theorem View.remove_role : (V.remove x).role y = if y = x then .loose else V.role y := by
  simp [View.remove, Function.update_apply]

@[simp]
theorem View.remove_content : (V.remove x).content g = (V.content g).erase x := rfl

end

structure Forest {ν : Type} (s : Store ν) (V : View ν) : Prop where
  links : ∀ h, V.role h = .head → Links (fun _ => True) s.next s.prev h (V.content h)
  nodup : ∀ h, (V.content h).Nodup
  mem : ∀ h x, x ∈ V.content h ↔ V.role x = .member h
  owner : ∀ h x, V.role x = .member h → V.role h = .head

section

variable {ν : Type} {s : Store ν} {V : View ν} {h x y : ν}
  {l₁ l₂ : List ν}

theorem Forest.cons_nodup (hf : Forest s V) (hh : V.role h = .head) :
    (h :: V.content h).Nodup := by
  refine List.nodup_cons.mpr ⟨fun hm => ?_, hf.nodup h⟩
  rw [hf.mem, hh] at hm
  cases hm

theorem Forest.content_loose (hf : Forest s V) (hx : V.role x ≠ .head) :
    V.content x = [] := by
  cases hc : V.content x with
  | nil => rfl
  | cons y l =>
    have hy : y ∈ V.content x := by simp [hc]
    exact absurd (hf.owner x y ((hf.mem x y).mp hy)) hx

theorem Forest.cell_ne (hf : Forest s V) (hh : V.role h = .head) (hx : V.role x = .loose)
    (hy : y ∈ h :: V.content h) : y ≠ x := by
  intro he
  subst he
  rcases List.mem_cons.mp hy with rfl | hy
  · rw [hx] at hh
    cases hh
  · rw [hf.mem, hx] at hy
    cases hy

theorem Forest.apart (hf : Forest s V) {h' : ν} (hne : h ≠ h') (hh : V.role h = .head)
    (hh' : V.role h' = .head) (hx : x ∈ h :: V.content h) (hy : y ∈ h' :: V.content h') : x ≠ y := by
  intro he
  subst he
  rcases List.mem_cons.mp hx with rfl | hx
  · rcases List.mem_cons.mp hy with rfl | hy
    · exact hne rfl
    · rw [hf.mem, hh] at hy
      cases hy
  · rw [hf.mem] at hx
    rcases List.mem_cons.mp hy with rfl | hy
    · rw [hh'] at hx
      cases hx
    · rw [hf.mem, hx] at hy
      injection hy with hy
      exact hne hy

theorem Forest.next_head (hf : Forest s V) (hh : V.role h = .head) :
    s.next h = (V.content h).headD h :=
  links_head (hf.links h hh)

theorem Forest.prev_head (hf : Forest s V) (hh : V.role h = .head) :
    s.prev h = (V.content h).getLastD h := by
  have hl := hf.links h hh
  have hl' : Links (fun _ => True) s.next s.prev h (V.content h ++ []) := by
    rw [List.append_nil]
    exact hl
  exact (links_append.mp hl').2.1.2 trivial

theorem Forest.next_first (hf : Forest s V) (hh : V.role h = .head) {l : List ν}
    (hc : V.content h = x :: l) : s.next h = x := by
  rw [hf.next_head hh, hc]
  rfl

theorem Forest.cell (hf : Forest s V) (hh : V.role h = .head)
    (hc : V.content h = l₁ ++ x :: l₂) : s.next x = l₂.headD h ∧ s.prev x = l₁.getLastD h := by
  have hl := hf.links h hh
  rw [hc] at hl
  obtain ⟨h1, h2, _⟩ := links_cell hl
  exact ⟨h1, h2 trivial⟩

/-- The content of a list, read off the forward pointers. -/
theorem Forest.content_of_next (hf : Forest s V) (hh : V.role h = .head) (hx : h ∉ l₁)
    (hc : List.IsChain (fun a b => s.next a = b) (h :: (l₁ ++ [h]))) : V.content h = l₁ :=
  isChain_unique ((hf.links h hh).imp fun _ _ h => h.1) hc (List.nodup_cons.mp (hf.cons_nodup hh)).1 hx

/-- A walk along a list meets one cell after the other. The induction is on how far it has come. -/
theorem Forest.iterate_cell (hf : Forest s V) (hh : V.role h = .head) :
    ∀ (l₁ : List ν) (y : ν) (l₂ : List ν), V.content h = l₁ ++ y :: l₂ →
      s.next^[l₁.length + 1] h = y := by
  intro l₁
  induction l₁ using List.reverseRecOn with
  | nil =>
    intro y l₂ hc
    exact hf.next_first hh hc
  | append_singleton l₁ z ih =>
    intro y l₂ hc
    have hc' : V.content h = l₁ ++ z :: (y :: l₂) := by
      rw [hc, List.append_assoc]
      rfl
    rw [List.length_append, List.length_singleton, Function.iterate_succ_apply', ih z _ hc']
    exact (hf.cell hh hc').1

theorem Forest.iterate_mem (hf : Forest s V) (hh : V.role h = .head) (hx : x ∈ h :: V.content h)
    (n : Nat) : s.next^[n] x ∈ h :: V.content h := by
  induction n with
  | zero => exact hx
  | succ n ih =>
    rw [Function.iterate_succ_apply']
    cases List.mem_cons.mp ih with
    | inl hhead =>
      rw [hhead, hf.next_head hh]
      exact headD_mem h (V.content h)
    | inr hmem => exact List.mem_cons.mpr (links_next_mem (hf.links h hh) hmem)

theorem Forest.iterate_end (hf : Forest s V) (hh : V.role h = .head) :
    s.next^[(V.content h).length + 1] h = h := by
  cases List.eq_nil_or_concat (V.content h) with
  | inl hnil =>
    rw [hnil]
    show s.next h = h
    rw [hf.next_head hh, hnil]
    rfl
  | inr hlast =>
    obtain ⟨l, y, hl⟩ := hlast
    rw [List.concat_eq_append] at hl
    rw [hl, List.length_append, List.length_singleton, Function.iterate_succ_apply',
      hf.iterate_cell hh l y [] hl]
    exact (hf.cell hh hl).1

theorem Forest.iterate_head (hf : Forest s V) (hx : V.role x = .member h) : ∃ n, s.next^[n] x = h := by
  have hh := hf.owner h x hx
  obtain ⟨l₁, l₂, hc⟩ := List.append_of_mem ((hf.mem h x).mpr hx)
  have hend := hf.iterate_end hh
  have hlen : (V.content h).length + 1 = (l₂.length + 1) + (l₁.length + 1) := by
    rw [hc, List.length_append, List.length_cons]
    omega
  rw [hlen, Function.iterate_add_apply, hf.iterate_cell hh l₁ x l₂ hc] at hend
  exact ⟨l₂.length + 1, hend⟩

end

section

variable {ν : Type} [DecidableEq ν] {s : Store ν} {V : View ν}
  {h x : ν} {l₁ l₂ : List ν}

theorem listInit_next (s : Store ν) (n y : ν) :
    (listInit s n).next y = if y = n then n else s.next y := by
  simp [listInit, setNext, setPrev, Function.update_apply]

theorem listInit_prev (s : Store ν) (n y : ν) :
    (listInit s n).prev y = if y = n then n else s.prev y := by
  simp [listInit, setNext, setPrev, Function.update_apply]

theorem listAdd_next (s : Store ν) (a n y : ν) :
    (listAdd s a n).next y = if y = a then n else if y = n then s.next a else s.next y := by
  simp [listAdd, setNext, setPrev, Function.update_apply]

theorem listAdd_prev (s : Store ν) (a n y : ν) (hne : n ≠ a) :
    (listAdd s a n).prev y = if y = s.next a then n else if y = n then a else s.prev y := by
  simp [listAdd, setNext, setPrev, Function.update_apply, hne.symm]

theorem listDelete_next (null : ν) (s : Store ν) (n y : ν) (hn : s.next n ≠ n) :
    (listDelete null s n).next y =
      if y = n then null else if y = s.prev n then s.next n else s.next y := by
  simp [listDelete, setNext, setPrev, Function.update_apply, hn.symm]

theorem listDelete_prev (null : ν) (s : Store ν) (n y : ν) :
    (listDelete null s n).prev y =
      if y = n then null else if y = s.next n then s.prev n else s.prev y := by
  simp [listDelete, setNext, setPrev, Function.update_apply]

theorem Forest.listEmpty_iff (hf : Forest s V) (hh : V.role h = .head) :
    listEmpty s h = true ↔ V.content h = [] := by
  unfold listEmpty
  rw [decide_eq_true_eq, hf.next_head hh]
  cases hc : V.content h with
  | nil => simp
  | cons y l =>
    have hnd := hf.cons_nodup hh
    rw [hc] at hnd
    have hne : y ≠ h := fun he => (List.nodup_cons.mp hnd).1 (by simp [he])
    simp [hne]

/-- Linking a loose node behind any cell of a list. -/
theorem Forest.insert (hf : Forest s V) (hh : V.role h = .head) (hx : V.role x = .loose)
    (hc : V.content h = l₁ ++ l₂) :
    Forest (listAdd s (l₁.getLastD h) x) (V.put x h (l₁ ++ x :: l₂)) := by
  have hnd := hf.cons_nodup hh
  have hcell : ∀ y ∈ h :: V.content h, y ≠ x := fun y hy => hf.cell_ne hh hx hy
  have hlast : l₁.getLastD h ∈ h :: V.content h := by
    have hm := getLastD_mem h l₁
    rw [hc]
    exact List.mem_append_left l₂ hm
  have hhx : h ≠ x := hcell h List.mem_cons_self
  have hxl : x ≠ l₁.getLastD h := (hcell _ hlast).symm
  have hnx : s.next (l₁.getLastD h) = l₂.headD h := by
    have hl := hf.links h hh
    rw [hc] at hl
    exact (links_append.mp hl).2.1.1
  have hfirst : l₂.headD h ∈ h :: V.content h := by
    rw [hc]
    rcases List.mem_cons.mp (headD_mem h l₂) with he | hm
    · rw [he]
      exact List.mem_cons_self
    · exact List.mem_cons_of_mem _ (List.mem_append_right l₁ hm)
  have hfx : l₂.headD h ≠ x := hcell _ hfirst
  refine ⟨fun g hg => ?_, fun g => ?_, fun g y => ?_, fun g y hy => ?_⟩
  · have hgx : g ≠ x := by
      intro he
      simp [he] at hg
    rw [View.put_role, if_neg hgx] at hg
    rw [View.put_content]
    by_cases hgh : g = h
    · subst hgh
      rw [if_pos rfl]
      have hl := hf.links g hh
      rw [hc] at hl hnd hcell
      apply links_insert hl hnd
      · rw [listAdd_next, if_pos rfl]
      · rw [listAdd_next, if_neg hxl, if_pos rfl, hnx]
      · intro _
        rw [listAdd_prev _ _ _ _ hxl, hnx, if_neg hfx.symm, if_pos rfl]
      · intro _
        rw [listAdd_prev _ _ _ _ hxl, hnx, if_pos rfl]
      · intro a ha hal
        rw [listAdd_next, if_neg hal, if_neg (hcell a ha)]
      · intro a ha _ hal
        rw [listAdd_prev _ _ _ _ hxl, hnx, if_neg hal, if_neg (hcell a ha)]
    · rw [if_neg hgh]
      apply links_congr (hf.links g hg)
      · intro a ha
        rw [listAdd_next, if_neg (hf.apart hgh hg hh ha hlast), if_neg (hf.cell_ne hg hx ha)]
      · intro a ha _
        rw [listAdd_prev _ _ _ _ hxl, hnx, if_neg (hf.apart hgh hg hh ha hfirst),
          if_neg (hf.cell_ne hg hx ha)]
  · rw [View.put_content]
    by_cases hgh : g = h
    · subst hgh
      rw [if_pos rfl]
      have hxc : x ∉ V.content g := fun hm => hcell x (List.mem_cons_of_mem _ hm) rfl
      have hndc := hf.nodup g
      rw [hc] at hndc hxc
      exact List.nodup_middle.mpr (List.nodup_cons.mpr ⟨hxc, hndc⟩)
    · rw [if_neg hgh]
      exact hf.nodup g
  · rw [View.put_content, View.put_role]
    by_cases hyx : y = x
    · subst hyx
      by_cases hgh : g = h
      · simp [hgh]
      · rw [if_neg hgh, hf.mem, hx]
        simpa using Ne.symm hgh
    · rw [if_neg hyx, ← hf.mem]
      by_cases hgh : g = h
      · subst hgh
        rw [if_pos rfl, hc]
        simp [hyx]
      · rw [if_neg hgh]
  · have hgh : V.role g = .head := by
      rw [View.put_role] at hy
      by_cases hyx : y = x
      · rw [if_pos hyx] at hy
        injection hy with hy
        rw [← hy]
        exact hh
      · rw [if_neg hyx] at hy
        exact hf.owner g y hy
    have hgx : g ≠ x := by
      intro he
      rw [he, hx] at hgh
      cases hgh
    rw [View.put_role, if_neg hgx]
    exact hgh

theorem Forest.listAdd (hf : Forest s V) (hh : V.role h = .head) (hx : V.role x = .loose) :
    Forest (listAdd s h x) (V.put x h (x :: V.content h)) :=
  by
  have hc : V.content h = [] ++ V.content h := rfl
  exact hf.insert hh hx hc

theorem Forest.listTailInsert (hf : Forest s V) (hh : V.role h = .head)
    (hx : V.role x = .loose) :
    Forest (listTailInsert s h x) (V.put x h (V.content h ++ [x])) := by
  unfold DlList.listTailInsert
  rw [hf.prev_head hh]
  exact hf.insert hh hx (List.append_nil _).symm

theorem Forest.listDelete (hf : Forest s V) (null : ν) (hx : V.role x = .member h) :
    Forest (listDelete null s x) (V.remove x) := by
  have hh := hf.owner h x hx
  obtain ⟨l₁, l₂, hc⟩ := List.append_of_mem ((hf.mem h x).mpr hx)
  have hnd := hf.cons_nodup hh
  obtain ⟨hnx, hpx⟩ := hf.cell hh hc
  have hnin : x ∉ h :: (l₁ ++ l₂) := by
    rw [hc] at hnd
    have hperm : (h :: l₁ ++ x :: l₂).Perm (x :: (h :: l₁ ++ l₂)) := List.perm_middle
    have hp : (x :: h :: (l₁ ++ l₂)).Nodup := hperm.nodup_iff.mp hnd
    exact (List.nodup_cons.mp hp).1
  have herase : (V.content h).erase x = l₁ ++ l₂ := by
    rw [hc, List.erase_append_right, List.erase_cons_head]
    exact fun hm => hnin (List.mem_cons_of_mem _ (List.mem_append_left _ hm))
  have hfirst : l₂.headD h ∈ h :: (l₁ ++ l₂) := by
    rcases List.mem_cons.mp (headD_mem h l₂) with he | hm
    · rw [he]
      exact List.mem_cons_self
    · exact List.mem_cons_of_mem _ (List.mem_append_right l₁ hm)
  have hlast : l₁.getLastD h ∈ h :: (l₁ ++ l₂) :=
    List.mem_append_left l₂ (getLastD_mem h l₁)
  have hcell : ∀ a ∈ h :: (l₁ ++ l₂), a ≠ x ∧ a ∈ h :: V.content h := by
    intro a ha
    refine ⟨fun he => hnin (he ▸ ha), ?_⟩
    rw [hc]
    exact ((List.Sublist.append_left (List.sublist_cons_self x l₂) l₁).cons_cons h).mem ha
  have hnn : s.next x ≠ x := hnx ▸ (hcell _ hfirst).1
  refine ⟨fun g hg => ?_, fun g => (hf.nodup g).erase x, fun g y => ?_, fun g y hy => ?_⟩
  · have hgx : g ≠ x := by
      intro he
      simp [he] at hg
    rw [View.remove_role, if_neg hgx] at hg
    rw [View.remove_content]
    by_cases hgh : g = h
    · subst hgh
      rw [herase]
      have hl := hf.links g hh
      rw [hc] at hl hnd
      apply links_remove hl hnd
      · rw [listDelete_next _ _ _ _ hnn, if_neg (hcell _ hlast).1, hpx, if_pos rfl, hnx]
      · intro _
        rw [listDelete_prev, if_neg (hcell _ hfirst).1, hnx, if_pos rfl, hpx]
      · intro a ha hal
        rw [listDelete_next _ _ _ _ hnn, if_neg (hcell a ha).1, hpx, if_neg hal]
      · intro a ha _ hal
        rw [listDelete_prev, if_neg (hcell a ha).1, hnx, if_neg hal]
    · have hne : ∀ a ∈ g :: V.content g, a ≠ x := fun a ha =>
        hf.apart hgh hg hh ha (List.mem_cons_of_mem _ ((hf.mem h x).mpr hx))
      rw [List.erase_of_not_mem fun hm => hne x (List.mem_cons_of_mem _ hm) rfl]
      apply links_congr (hf.links g hg)
      · intro a ha
        rw [listDelete_next _ _ _ _ hnn, if_neg (hne a ha), hpx,
          if_neg (hf.apart hgh hg hh ha (hcell _ hlast).2)]
      · intro a ha _
        rw [listDelete_prev, if_neg (hne a ha), hnx,
          if_neg (hf.apart hgh hg hh ha (hcell _ hfirst).2)]
  · rw [View.remove_content, View.remove_role, (hf.nodup g).mem_erase_iff, hf.mem]
    by_cases hyx : y = x
    · simp [hyx]
    · simp [hyx]
  · have hyx : y ≠ x := by
      intro he
      simp [he] at hy
    rw [View.remove_role, if_neg hyx] at hy
    have hg := hf.owner g y hy
    have hgx : g ≠ x := by
      intro he
      rw [he, hx] at hg
      cases hg
    rw [View.remove_role, if_neg hgx]
    exact hg

theorem Forest.listInit (hf : Forest s V) (hx : V.role x = .loose) :
    Forest (listInit s x) (V.setRole x .head) := by
  have hnil : V.content x = [] := hf.content_loose (by simp [hx])
  refine ⟨fun g hg => ?_, hf.nodup, fun g y => ?_, fun g y hy => ?_⟩
  · rw [View.setRole_content]
    by_cases hgx : g = x
    · subst hgx
      rw [hnil, links_nil, listInit_next, listInit_prev]
      simp
    · rw [View.setRole_role, if_neg hgx] at hg
      apply links_congr (hf.links g hg)
      · intro a ha
        rw [listInit_next, if_neg (hf.cell_ne hg hx ha)]
      · intro a ha _
        rw [listInit_prev, if_neg (hf.cell_ne hg hx ha)]
  · rw [View.setRole_content, hf.mem, View.setRole_role]
    by_cases hyx : y = x
    · simp [hyx, hx]
    · rw [if_neg hyx]
  · rw [View.setRole_role] at hy ⊢
    by_cases hgx : g = x
    · rw [if_pos hgx]
    · by_cases hyx : y = x
      · rw [if_pos hyx] at hy
        cases hy
      · rw [if_neg hyx] at hy
        rw [if_neg hgx]
        exact hf.owner g y hy

/-- The head of an empty list can be put to other use. -/
theorem Forest.retire (hf : Forest s V) (hx : V.role x = .head) (hnil : V.content x = []) :
    Forest s (V.setRole x .loose) := by
  refine ⟨fun g hg => ?_, hf.nodup, fun g y => ?_, fun g y hy => ?_⟩
  · rw [View.setRole_role] at hg
    by_cases hgx : g = x
    · rw [if_pos hgx] at hg
      cases hg
    · rw [if_neg hgx] at hg
      exact hf.links g hg
  · rw [View.setRole_content, hf.mem, View.setRole_role]
    by_cases hyx : y = x
    · simp [hyx, hx]
    · rw [if_neg hyx]
  · rw [View.setRole_role] at hy ⊢
    by_cases hyx : y = x
    · rw [if_pos hyx] at hy
      cases hy
    · rw [if_neg hyx] at hy
      have hgx : g ≠ x := by
        intro he
        have hm := (hf.mem g y).mpr hy
        rw [he, hnil] at hm
        cases hm
      rw [if_neg hgx]
      exact hf.owner g y hy

end

end LiteosM.Lib.DlList
