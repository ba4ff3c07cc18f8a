import LiteosM.Ramfs.Invariant

/-!
# Updates that keep the invariant

A new element, an element less, another name, other bytes.
-/

namespace LiteosM.Ramfs

open LiteosM.Lib.NextList LiteosM.Lib.Path LiteosM.Lib.SiblingTree LiteosM.Lib.Word32

variable {s s' : RamfsState} {kids : Nat → List Nat} {fd d e a walk : Nat} {name : List Char}
  {child : Option Nat} {body : RamfsBody}

theorem setElement_update {e' : RamfsElement} :
    (s.setElement a e').node = Function.update s.node a (nodeOf e') := by
  funext x
  show nodeOf (Function.update s.element a e' x) = _
  by_cases hx : x = a
  · rw [hx, Function.update_self, Function.update_self]
  · rw [Function.update_of_ne hx, Function.update_of_ne hx]
    rfl

theorem ramfsLink_node {e' : RamfsElement} (hparent : e'.parent = some walk) :
    (ramfsLink s walk a e').node =
      IsTree.insertNode s.node a walk e'.name e'.sibling (childOf e'.body) := by
  show ((s.setElement walk _).setElement a e').node = _
  rw [setElement_update, setElement_update]
  show Function.update _ a _ = Function.update _ a _
  congr 1
  show nodeOf e' = Node.mk _ _ _ _
  rw [← hparent]
  rfl

theorem ramfsLink_self {e' : RamfsElement} : (ramfsLink s walk a e').element a = e' :=
  Function.update_self ..

theorem ramfsLink_refs {e' : RamfsElement} {x : Nat} (hx : x ≠ a) :
    ((ramfsLink s walk a e').element x).refs = (s.element x).refs := by
  show (Function.update (Function.update s.element walk _) a e' x).refs = _
  rw [Function.update_of_ne hx]
  by_cases hw : x = walk
  · rw [hw, Function.update_self]
  · rw [Function.update_of_ne hw]

/-- The state after `ramfs_del`. -/
structure Freed (s s' : RamfsState) (e : Nat) : Prop where
  stays : ∀ x ∈ s.live, x ≠ e → x ∈ s'.live
  sub : ∀ x ∈ s'.live, x ∈ s.live
  gone : (s.element e).parent ≠ none → e ∉ s'.live
  body : ∀ x, IsFile (s.element x) → (s'.element x).body = (s.element x).body
  dir : ∀ x, IsDir (s.element x) → IsDir (s'.element x)
  file : s'.file = s.file
  openFiles : s'.openFiles = s.openFiles

theorem freed_setElement {t : Nat} {t' : RamfsElement} (honce : s.live.Nodup)
    (hbody : t'.body = (s.element t).body ∨ IsDir (s.element t) ∧ IsDir t') :
    Freed s (freeElement (s.setElement t t') e) e where
  stays x hx hne := honce.mem_erase_iff.mpr ⟨hne, hx⟩
  sub x hx := List.mem_of_mem_erase hx
  gone := fun _ h => (honce.mem_erase_iff.mp h).1 rfl
  body x hx := by
    show (Function.update s.element t t' x).body = _
    by_cases h : x = t
    · rw [h, Function.update_self]
      obtain heq | ⟨⟨c, hdir⟩, -⟩ := hbody
      · exact heq
      · obtain ⟨size, content, hfile⟩ := hx
        rw [h, hdir] at hfile
        cases hfile
    · rw [Function.update_of_ne h]
  dir x hx := by
    show IsDir (Function.update s.element t t' x)
    by_cases h : x = t
    · rw [h, Function.update_self]
      obtain heq | ⟨-, hdir⟩ := hbody
      · obtain ⟨c, hc⟩ := hx
        exact ⟨c, by rw [heq, ← h, hc]⟩
      · exact hdir
    · rw [Function.update_of_ne h]
      exact hx
  file := rfl
  openFiles := rfl

namespace RamfsInv

theorem link (hi : RamfsInv s kids) (ha : a ∉ s.live) (hwalk : walk ∈ s.live)
    (hbody : (s.element walk).body = .dir child) (hname : NameOk name)
    (hnew : ∀ x ∈ kids walk, (s.element x).name ≠ name)
    (hchild : childOf body = none ∨ childOf body = some none) :
    RamfsInv (ramfsLink s walk a
      { name := name, sibling := child, parent := some walk, refs := 0, body := body })
      (IsTree.insertKids kids a walk) := by
  have htree := hi.tree.insert ha hwalk (node_child hbody) hnew hchild
  have hne : ∀ x ∈ s.live, x ≠ a := fun x hx => ne_of_mem_of_not_mem hx ha
  have hnode : (ramfsLink s walk a
      { name := name, sibling := child, parent := some walk, refs := 0, body := body }).node =
      IsTree.insertNode s.node a walk name child (childOf body) := ramfsLink_node rfl
  apply hi.retree
  case htree =>
    rw [hnode]
    exact htree
  case hnames =>
    intro x hx hroot
    show NameOk ((ramfsLink s walk a _).node x).name
    rw [hnode]
    obtain rfl | hx := List.mem_cons.mp hx
    · rw [IsTree.insertNode_self]
      exact hname
    · rw [(IsTree.insertNode_old (hne x hx)).1]
      exact hi.names x hx hroot
  case hlive => exact fun x hx _ => List.mem_cons_of_mem _ hx
  case hkind =>
    intro x hx
    rw [hnode]
    by_cases hw : x = walk
    · rw [hw, IsTree.insertNode_dir (hne walk hwalk), node_child hbody]
      exact iff_of_false (fun h => by cases h) (fun h => by cases h)
    · rw [IsTree.insertNode_of_ne (hne x hx) hw]
  case hrefs =>
    intro x hx
    obtain rfl | hx := List.mem_cons.mp hx
    · rw [hi.handles_zero ha, ramfsLink_self]
    · rw [ramfsLink_refs (hne x hx)]
      exact hi.refs x hx
  all_goals rfl

theorem setBody {size : Nat} {content : Option Block} (hi : RamfsInv s kids) (size' : Nat)
    (content' : Option Block) (hbody : (s.element e).body = .file size content) :
    RamfsInv (s.setElement e { s.element e with body := .file size' content' }) kids := by
  have hnode : (s.setElement e { s.element e with body := .file size' content' }).node = s.node := by
    apply setElement_node
    show Node.mk _ _ _ _ = Node.mk _ _ _ (childOf (s.element e).body)
    rw [hbody]
    rfl
  exact hi.same hnode rfl rfl (setElement_refs (by rfl)) rfl rfl (fun _ => rfl) fun _ => rfl

theorem unlinked {t : Nat} {t' : RamfsElement} {kids' : Nat → List Nat} (hi : RamfsInv s kids)
    (hrefs : (s.element e).refs = 0) (hname : t'.name = (s.element t).name)
    (hrefs' : t'.refs = (s.element t).refs)
    (hkind : childOf t'.body = none ↔ childOf (s.element t).body = none)
    (htree : IsTree (Function.update s.node t (nodeOf t')) (s.live.erase e) s.root kids') :
    RamfsInv (freeElement (s.setElement t t') e) kids' := by
  have hmem : ∀ x, x ∈ s.live.erase e → x ∈ s.live := fun x hx => List.mem_of_mem_erase hx
  apply hi.retree
  case htree =>
    show IsTree (s.setElement t t').node _ _ _
    rw [setElement_update]
    exact htree
  case hnames =>
    intro x hx hroot
    show NameOk (Function.update s.element t t' x).name
    have hold := hi.names x (hmem x hx) hroot
    by_cases hxt : x = t
    · rw [hxt, Function.update_self, hname]
      exact hxt ▸ hold
    · rw [Function.update_of_ne hxt]
      exact hold
  case hlive =>
    intro x hx hne
    refine hi.tree.once.mem_erase_iff.mpr ⟨fun h => ?_, hx⟩
    rw [h] at hne
    exact hne hrefs
  case hkind =>
    intro x _
    show childOf (Function.update s.element t t' x).body = none ↔ childOf (s.element x).body = none
    by_cases hxt : x = t
    · rw [hxt, Function.update_self]
      exact hkind
    · rw [Function.update_of_ne hxt]
  case hrefs =>
    intro x hx
    show ((s.setElement t t').element x).refs = _
    rw [setElement_refs hrefs']
    exact hi.refs x (hmem x hx)
  all_goals rfl

theorem ramfsDel_kids {dir : Nat} (hi : RamfsInv s kids) (he : e ∈ s.live) (hleaf : kids e = [])
    (hrefs : (s.element e).refs = 0) (hparent : (s.element e).parent = some dir) :
    ∃ s', ramfsDel s e = some s' ∧ RamfsInv s' (Function.update kids dir ((kids dir).erase e)) ∧
      Freed s s' e ∧ s'.dir = s.dir ∧ s'.openDirs = s.openDirs := by
  unfold Ramfs.ramfsDel
  rw [hparent]
  obtain ⟨hdir, hkid⟩ := hi.tree.of_parent he hparent
  obtain ⟨c, hc⟩ := hi.tree.child_of_kid hdir hkid
  have hbody : (s.element dir).body = .dir c := childOf_dir.mp hc
  have hlist := hi.tree.children dir hdir c hc
  have hlen := hi.tree.length_le hdir
  have hnd := hi.tree.nodup dir hdir
  dsimp only
  rw [hbody]
  dsimp only
  by_cases hfirst : c = some e
  · rw [if_pos hfirst]
    subst hfirst
    have htree := hi.tree.remove_first hdir hc hleaf
    refine ⟨_, rfl, hi.unlinked hrefs rfl rfl ?_ htree, ?_, rfl, rfl⟩
    · rw [hbody]
      exact iff_of_false (fun h => by cases h) (fun h => by cases h)
    · exact freed_setElement hi.tree.once (Or.inr ⟨⟨_, hbody⟩, ⟨_, rfl⟩⟩)
  · rw [if_neg hfirst]
    have hhead : (kids dir).head? ≠ some e := fun h => hfirst ((linked_head hlist).trans h)
    obtain ⟨l₁, x, l₂, hsplit⟩ := exists_before hkid hhead
    have htree := hi.tree.remove_after hdir hsplit hleaf
    rw [hsplit] at hlist hlen hnd
    have hsearch := search_before hlist hnd hlen
    have hloop : search (siblingOf s) (fun t => decide ((s.element t).sibling = some e)) s.live.length
        c = some (some x) := hsearch
    rw [hloop]
    exact ⟨_, rfl, hi.unlinked hrefs rfl rfl Iff.rfl htree, freed_setElement hi.tree.once (Or.inl rfl), rfl, rfl⟩

theorem ramfsDel (hi : RamfsInv s kids) (he : e ∈ s.live) (hleaf : kids e = [])
    (hrefs : (s.element e).refs = 0) :
    ∃ s', ramfsDel s e = some s' ∧ (∃ kids', RamfsInv s' kids') ∧ Freed s s' e := by
  cases hparent : (s.element e).parent with
  | none =>
    refine ⟨s, ?_, ⟨kids, hi⟩, fun _ hx _ => hx, fun _ hx => hx, fun h => absurd hparent h,
      fun _ _ => rfl, fun _ h => h, rfl, rfl⟩
    unfold Ramfs.ramfsDel
    rw [hparent]
  | some dir =>
    obtain ⟨s', hdel, hinv, hfreed, _⟩ := hi.ramfsDel_kids he hleaf hrefs hparent
    exact ⟨s', hdel, ⟨_, hinv⟩, hfreed⟩

theorem rename (hi : RamfsInv s kids) (hd : d ∈ s.live) (he : e ∈ kids d) (hname : NameOk name)
    (hnew : ∀ x ∈ kids d, (s.element x).name ≠ name) :
    RamfsInv (s.setElement e { s.element e with name := name }) kids := by
  apply hi.retree
  case htree =>
    rw [setElement_update]
    exact hi.tree.rename hd he hnew
  case hnames =>
    intro x hx hroot
    show NameOk (Function.update s.element e { s.element e with name := name } x).name
    by_cases hxe : x = e
    · rw [hxe, Function.update_self]
      exact hname
    · rw [Function.update_of_ne hxe]
      exact hi.names x hx hroot
  case hlive => exact fun x hx _ => hx
  case hkind =>
    intro x _
    rw [setElement_update]
    by_cases hxe : x = e
    · rw [hxe, Function.update_self]
      exact Iff.rfl
    · rw [Function.update_of_ne hxe]
  case hrefs =>
    intro x hx
    have hkeep : ((s.setElement e { s.element e with name := name }).element x).refs =
        (s.element x).refs := setElement_refs (by rfl) x
    exact hkeep.trans (hi.refs x hx)
  all_goals rfl

theorem withFile_link (hi : RamfsInv (ramfsLink s walk a
      { name := name, sibling := child, parent := some walk, refs := 0, body := body }) kids)
    (hfd : HandleOk s.openFiles fd) (ha : a ∈ a :: s.live) (hfile : IsFile
      { name := name, sibling := child, parent := some walk, refs := 0, body := body }) :
    RamfsInv { (ramfsLink s walk a
      { name := name, sibling := child, parent := some walk, refs := 1, body := body }).setFile fd
        { fOffset := 0, fData := a } with openFiles := fd :: s.openFiles } kids := by
  have hinc : refsInc (ramfsLink s walk a
      { name := name, sibling := child, parent := some walk, refs := 0, body := body }) a =
      ramfsLink s walk a
        { name := name, sibling := child, parent := some walk, refs := 1, body := body } := by
    unfold refsInc
    rw [ramfsLink_self]
    unfold ramfsLink RamfsState.setElement
    simp only [Function.update_idem]
    rw [add32_of_lt 0 1 (by decide)]
  have hopen : RamfsInv (Ramfs.withFile (ramfsLink s walk a
      { name := name, sibling := child, parent := some walk, refs := 0, body := body }) fd a 0) kids :=
    hi.withFile ha (by rw [ramfsLink_self]; exact hfile) hfd
  unfold Ramfs.withFile at hopen
  rw [hinc] at hopen
  exact hopen

theorem setOffset (hi : RamfsInv s kids) (fd : Nat) (offset : Int) :
    RamfsInv (s.setFile fd { s.file fd with fOffset := offset }) kids := by
  refine hi.same rfl rfl rfl (fun _ => rfl) rfl rfl (fun g => ?_) fun _ => rfl
  show (Function.update s.file fd _ g).fData = _
  by_cases hg : g = fd
  · rw [hg, Function.update_self]
  · rw [Function.update_of_ne hg]

end RamfsInv

end LiteosM.Ramfs
