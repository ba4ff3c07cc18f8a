import LiteosM.Ramfs.Tree

/-!
# Reading a directory

`ramfs_readdir` counts the entries of the list in front of the next one.
-/

namespace LiteosM.Ramfs

open LiteosM.Lib.NextList LiteosM.Lib.SiblingTree LiteosM.Lib.Transition

def IsEntry (s : RamfsState) (dir e : Nat) : Prop := e ∈ s.live ∧ (s.element e).parent = some dir

instance (s : RamfsState) (dir e : Nat) : Decidable (IsEntry s dir e) := instDecidableAnd

/-- The entry that the loop of `ramfs_readdir` stops at. -/
def entryAt (s : RamfsState) (dir n : Nat) : Option Nat :=
  match (s.element dir).body with
  | .file _ _ => none
  | .dir child => ramfsNth s n child

def returned (s : RamfsState) (d : Nat) : RamfsOp × RamfsResult → List Nat
  | (.readdir d', r) =>
    if d' = d ∧ r.ret = 0 then (entryAt s (s.dir d).dData (s.dir d).dOffset.toNat).toList else []
  | _ => []

/-- The file system while a directory is read, and the entries returned so far. -/
structure Enumeration where
  fs : RamfsState
  seen : List Nat

def closes (d : Nat) : RamfsOp → Bool
  | .closedir d' => d' = d
  | _ => false

def enumNext (d : Nat) (x : Enumeration) (event : RamfsOp × RamfsResult) : Option Enumeration :=
  if closes d event.1 then none
  else (ramfsNext x.fs event).map fun s => ⟨s, x.seen ++ returned x.fs d event⟩

def LastingStep (d dir e : Nat) (x : Enumeration) (event : RamfsOp × RamfsResult) (y : Enumeration) : Prop :=
  enumNext d x event = some y ∧ IsEntry y.fs dir e

/-- No entry is made in the directory when the handle has returned one, and no entry that is in front of its
position goes. -/
structure Undisturbed (d : Nat) (s s' : RamfsState) : Prop where
  created : (s.dir d).dOffset = 0 ∨ ∀ e, IsEntry s' (s.dir d).dData e → IsEntry s (s.dir d).dData e
  unlinked : ∀ n < (s.dir d).dOffset.toNat, ∀ e, entryAt s (s.dir d).dData n = some e →
    IsEntry s' (s.dir d).dData e

instance (d : Nat) (s s' : RamfsState) : Decidable (Undisturbed d s s') :=
  decidable_of_iff
    (((s.dir d).dOffset = 0 ∨
      ∀ e ∈ s'.live, (s'.element e).parent = some (s.dir d).dData → IsEntry s (s.dir d).dData e) ∧
      ∀ n < (s.dir d).dOffset.toNat, ∀ e ∈ entryAt s (s.dir d).dData n, IsEntry s' (s.dir d).dData e)
    ⟨fun h => ⟨h.1.imp_right fun hnew e he => hnew e he.1 he.2, h.2⟩,
      fun h => ⟨h.created.imp_right fun hnew e he hparent => hnew e ⟨he, hparent⟩, h.unlinked⟩⟩

variable {s s' : RamfsState} {kids : Nat → List Nat} {d dir e a : Nat} {path : List Char} {r : RamfsResult}
  {op : RamfsOp}

theorem ramfsNth_linked {n : Nat} {child : Option Nat} {l : List Nat} (h : Linked (siblingOf s) child l) :
    ramfsNth s n child = l[n]? := by
  induction n generalizing child l with
  | zero =>
    unfold ramfsNth
    rw [linked_head h]
    cases l <;> rfl
  | succ n ih =>
    cases l with
    | nil =>
      rw [h]
      rfl
    | cons x l =>
      obtain ⟨rfl, hrest⟩ := h
      exact ih hrest

theorem entryAt_dir {n : Nat} {child : Option Nat} (hbody : (s.element dir).body = .dir child) :
    entryAt s dir n = ramfsNth s n child := by
  unfold entryAt
  rw [hbody]

theorem RamfsInv.entryAt (hi : RamfsInv s kids) (hdir : dir ∈ s.live) (n : Nat) :
    entryAt s dir n = (kids dir)[n]? := by
  cases hbody : (s.element dir).body with
  | file size content =>
    have hleaf := hi.tree.leaf dir hdir (isFile_iff.mp ⟨size, content, hbody⟩)
    unfold Ramfs.entryAt
    rw [hleaf, hbody]
    rfl
  | dir child =>
    rw [entryAt_dir hbody]
    exact ramfsNth_linked (hi.tree.children dir hdir child (node_child hbody))

theorem RamfsInv.isEntry (hi : RamfsInv s kids) (hdir : dir ∈ s.live) : IsEntry s dir e ↔ e ∈ kids dir := by
  constructor
  · intro h
    exact (hi.tree.of_parent h.1 h.2).2
  · intro h
    exact hi.tree.kid dir hdir e h

/-- How the list of a directory changes in a call. -/
inductive ListStep (live live' : List Nat) (l : List Nat) : List Nat → Prop
  | same : ListStep live live' l l
  | link {a : Nat} (hnew : a ∉ live) : ListStep live live' l (a :: l)
  | unlink {e : Nat} (hgone : e ∉ live') : ListStep live live' l (l.erase e)

theorem RamfsInv.ramfsDel_list (hi : RamfsInv s kids) (he : e ∈ s.live) (hleaf : kids e = [])
    (hrefs : (s.element e).refs = 0) : ∃ s' kids', Ramfs.ramfsDel s e = some s' ∧ RamfsInv s' kids' ∧
      (∀ dir ∈ s.live, ListStep s.live s'.live (kids dir) (kids' dir)) ∧ s'.dir = s.dir ∧
        s'.openDirs = s.openDirs := by
  cases hparent : (s.element e).parent with
  | none =>
    refine ⟨s, kids, ?_, hi, fun _ _ => .same, rfl, rfl⟩
    unfold Ramfs.ramfsDel
    rw [hparent]
  | some parent =>
    obtain ⟨s', hdel, hinv, hfreed, hdirs⟩ := hi.ramfsDel_kids he hleaf hrefs hparent
    refine ⟨s', _, hdel, hinv, fun dir _ => ?_, hdirs⟩
    by_cases heq : dir = parent
    · rw [heq, Function.update_self]
      refine .unlink (hfreed.gone ?_)
      rw [hparent]
      exact Option.some_ne_none _
    · rw [Function.update_of_ne heq]
      exact .same

theorem RamfsInv.ramfsUnlink_list (hi : RamfsInv s kids) (hcall : ramfsCall s (.unlink path) = some (s', r)) :
    ∃ kids', RamfsInv s' kids' ∧ (∀ dir ∈ s.live, ListStep s.live s'.live (kids dir) (kids' dir)) ∧
      s'.dir = s.dir ∧ s'.openDirs = s.openDirs := by
  change Ramfs.ramfsUnlink s path = some (s', r) at hcall
  obtain hno | ⟨e, he, hidle, hleaf, ⟨_, hdone⟩ | ⟨size, content, hbody, hdone⟩⟩ := hi.ramfsUnlink_del path
  · cases hcall.symm.trans hno
    exact ⟨kids, hi, fun _ _ => .same, rfl, rfl⟩
  · obtain ⟨s₁, kids', hdel, hinv, hlist, hdirs⟩ := hi.ramfsDel_list he hleaf hidle
    rw [hdel] at hdone
    cases hcall.symm.trans hdone
    exact ⟨kids', hinv, hlist, hdirs⟩
  · have hkeep : ((s.setElement e { s.element e with body := .file size none }).element e).refs =
        (s.element e).refs := setElement_refs (by rfl) e
    obtain ⟨s₁, kids', hdel, hinv, hlist, hdirs⟩ :=
      (hi.setBody size none hbody).ramfsDel_list he hleaf (hkeep.trans hidle)
    rw [hdel] at hdone
    cases hcall.symm.trans hdone
    exact ⟨kids', hinv, hlist, hdirs⟩

theorem RamfsInv.step_list (hi : RamfsInv s kids) (hstep : RamfsStep s (op, r) s') :
    ∃ kids', RamfsInv s' kids' ∧ ∀ dir ∈ s.live, ListStep s.live s'.live (kids dir) (kids' dir) := by
  obtain ⟨hvalid, hcall⟩ := ramfsStep_iff.mp hstep
  have hsame : ∀ {s₁ : RamfsState}, RamfsInv s₁ kids →
      ∃ kids', RamfsInv s₁ kids' ∧ ∀ dir ∈ s.live, ListStep s.live s₁.live (kids dir) (kids' dir) :=
    fun h => ⟨kids, h, fun _ _ => .same⟩
  have hlink : ∀ {s₁ : RamfsState} {walk a : Nat}, a ∉ s.live →
      RamfsInv s₁ (IsTree.insertKids kids a walk) →
        ∃ kids', RamfsInv s₁ kids' ∧ ∀ dir ∈ s.live, ListStep s.live s₁.live (kids dir) (kids' dir) := by
    intro s₁ walk a hfresh h
    refine ⟨_, h, fun dir hdir => ?_⟩
    have hne : dir ≠ a := ne_of_mem_of_not_mem hdir hfresh
    by_cases heq : dir = walk
    · rw [← heq, IsTree.insertKids_dir hne]
      exact .link hfresh
    · rw [IsTree.insertKids_of_ne hne heq]
      exact .same
  cases step_move hi hstep with
  | refused => exact hsame hi
  | opened hfd he hbody => exact hsame (hi.withFile he ⟨_, _, hbody⟩ hfd)
  | created hfd hm =>
    have hchild : childOf (.file 0 none) = none := rfl
    have hnew := hi.link hm.fresh hm.mem hm.body hm.nameOk hm.new (Or.inl hchild)
    exact hlink hm.fresh (hnew.withFile_link hfd List.mem_cons_self ⟨0, none, rfl⟩)
  | closed hfd => exact hsame (hi.ramfsClose hfd)
  | unlinkedDir =>
    obtain ⟨kids', hinv, hlist, _⟩ := hi.ramfsUnlink_list hcall
    exact ⟨kids', hinv, hlist⟩
  | unlinkedFile =>
    obtain ⟨kids', hinv, hlist, _⟩ := hi.ramfsUnlink_list hcall
    exact ⟨kids', hinv, hlist⟩
  | renamed hd he hname hnew => exact hsame (hi.rename hd he hname hnew)
  | opendir hd he hdir => exact hsame (hi.withDir he hdir hd)
  | closedir hd => exact hsame (hi.ramfsClosedir hd)
  | mkdir hm =>
    have hchild : childOf (.dir none) = some none := rfl
    exact hlink hm.fresh (hi.link hm.fresh hm.mem hm.body hm.nameOk hm.new (Or.inr hchild))
  | data hop hdone =>
    obtain ⟨s₁, r₁, hdata, _, hinv, _⟩ := hi.onData hvalid hop
    cases hdone.symm.trans hdata
    exact hsame hinv

theorem ramfsReaddir_eq (h : ramfsReaddir s d = some (s', r)) :
    (r.ret = -1 ∧ entryAt s (s.dir d).dData (s.dir d).dOffset.toNat = none ∧ s' = s) ∨
      (r.ret = 0 ∧ (∃ e, entryAt s (s.dir d).dData (s.dir d).dOffset.toNat = some e) ∧
        s' = s.setDir d { s.dir d with dOffset := (s.dir d).dOffset + 1 }) := by
  unfold ramfsReaddir at h
  dsimp only at h
  split at h
  · cases h
  · rename_i child hbody
    rw [entryAt_dir hbody]
    split at h
    · rename_i hnone
      cases h
      exact .inl ⟨rfl, hnone, rfl⟩
    · rename_i e hsome
      cases h
      exact .inr ⟨rfl, ⟨e, hsome⟩, rfl⟩

theorem onData_handles (hop : op.OnData) (hread : ∀ d, op ≠ .readdir d) (hcall : ramfsCall s op = some (s', r)) :
    s'.dir = s.dir ∧ s'.openDirs = s.openDirs := by
  cases op with
  | read fd addr bytes =>
    change ramfsRead s fd bytes = some (s', r) at hcall
    unfold ramfsRead at hcall
    dsimp only at hcall
    split at hcall
    · cases hcall
    · split at hcall
      · cases hcall
        exact ⟨rfl, rfl⟩
      · cases hcall
        exact ⟨rfl, rfl⟩
  | write fd buff mem =>
    change ramfsWrite s fd buff.bytes mem = some (s', r) at hcall
    unfold ramfsWrite at hcall
    dsimp only at hcall
    split at hcall
    · cases hcall
    · split at hcall
      · split at hcall
        · cases hcall
          exact ⟨rfl, rfl⟩
        · split at hcall
          · cases hcall
            exact ⟨rfl, rfl⟩
          · cases hcall
            exact ⟨rfl, rfl⟩
      · cases hcall
        exact ⟨rfl, rfl⟩
  | lseek fd off whence =>
    change ramfsLseek s fd off whence = some (s', r) at hcall
    unfold ramfsLseek at hcall
    dsimp only at hcall
    split at hcall
    · cases hcall
    · split at hcall
      · cases hcall
        exact ⟨rfl, rfl⟩
      · cases hcall
        exact ⟨rfl, rfl⟩
  | readdir d => exact absurd rfl (hread d)
  | _ => cases hop

theorem RamfsInv.step_handle (hi : RamfsInv s kids) (hstep : RamfsStep s (op, r) s') (hd : d ∈ s.openDirs)
    (hclose : closes d op = false) :
    d ∈ s'.openDirs ∧ (op = .readdir d ∧ r.ret = 0 ∨ returned s d (op, r) = [] ∧ s'.dir d = s.dir d) := by
  obtain ⟨hvalid, hcall⟩ := ramfsStep_iff.mp hstep
  cases step_move hi hstep with
  | refused hop =>
    refine ⟨hd, .inr ⟨?_, rfl⟩⟩
    cases op with
    | readdir => exact absurd trivial hop
    | _ => rfl
  | opened => exact ⟨hd, .inr ⟨rfl, rfl⟩⟩
  | created => exact ⟨hd, .inr ⟨rfl, rfl⟩⟩
  | closed => exact ⟨hd, .inr ⟨rfl, rfl⟩⟩
  | unlinkedDir =>
    obtain ⟨_, _, _, hdir, hopen⟩ := hi.ramfsUnlink_list hcall
    rw [hopen, hdir]
    exact ⟨hd, .inr ⟨rfl, rfl⟩⟩
  | unlinkedFile =>
    obtain ⟨_, _, _, hdir, hopen⟩ := hi.ramfsUnlink_list hcall
    rw [hopen, hdir]
    exact ⟨hd, .inr ⟨rfl, rfl⟩⟩
  | renamed => exact ⟨hd, .inr ⟨rfl, rfl⟩⟩
  | opendir hfree =>
    refine ⟨List.mem_cons_of_mem _ hd, .inr ⟨rfl, ?_⟩⟩
    exact Function.update_of_ne (ne_of_mem_of_not_mem hd hfree.2.2) _ _
  | closedir =>
    have hne : d ≠ _ := fun heq => of_decide_eq_false hclose heq.symm
    exact ⟨(List.mem_erase_of_ne hne).mpr hd, .inr ⟨rfl, rfl⟩⟩
  | mkdir => exact ⟨hd, .inr ⟨rfl, rfl⟩⟩
  | data hop hdone =>
    cases op with
    | readdir d' =>
      obtain ⟨hret, _, rfl⟩ | ⟨hret, _, rfl⟩ := ramfsReaddir_eq hdone
      · refine ⟨hd, .inr ⟨if_neg fun h => ?_, rfl⟩⟩
        rw [hret] at h
        cases h.2
      · by_cases heq : d' = d
        · exact ⟨hd, .inl ⟨by rw [heq], hret⟩⟩
        · exact ⟨hd, .inr ⟨if_neg fun h => heq h.1, Function.update_of_ne (Ne.symm heq) _ _⟩⟩
    | _ =>
      obtain ⟨hdir, hopen⟩ := onData_handles hop (fun _ h => by cases h) hdone
      rw [hopen, hdir]
      exact ⟨hd, .inr ⟨rfl, rfl⟩⟩

/-- What has been returned is the front of the list, and the position is behind it. -/
structure EnumInv (d dir : Nat) (x : Enumeration) (kids : Nat → List Nat) : Prop where
  inv : RamfsInv x.fs kids
  isOpen : d ∈ x.fs.openDirs
  data : (x.fs.dir d).dData = dir
  offset : (x.fs.dir d).dOffset = x.seen.length
  seen : x.seen <+: kids dir

theorem EnumInv.live {x : Enumeration} (h : EnumInv d dir x kids) : dir ∈ x.fs.live := by
  rw [← h.data]
  exact (h.inv.dirs d h.isOpen).1

theorem prefix_snoc {seen l : List Nat} (h : seen <+: l) (hget : l[seen.length]? = some e) : seen ++ [e] <+: l := by
  obtain ⟨rest, rfl⟩ := h
  rw [List.getElem?_append_right (Nat.le_refl _), Nat.sub_self] at hget
  cases rest with
  | nil => cases hget
  | cons e' rest =>
    cases hget
    exact ⟨rest, by rw [List.append_assoc, List.singleton_append]⟩

theorem prefix_erase {seen l : List Nat} (h : seen <+: l) (hmem : e ∉ seen) : seen <+: l.erase e := by
  obtain ⟨rest, rfl⟩ := h
  rw [List.erase_append_right _ hmem]
  exact List.prefix_append _ _

theorem ListStep.seen {seen l l' live : List Nat} (hlist : ListStep live s'.live l l')
    (hnew : seen = [] ∨ ∀ a ∈ l', a ∈ live) (hgone : ∀ e ∈ seen, e ∈ s'.live) (h : seen <+: l) : seen <+: l' := by
  cases hlist with
  | same => exact h
  | link hfresh =>
    obtain rfl | hold := hnew
    · exact List.nil_prefix
    · exact absurd (hold _ List.mem_cons_self) hfresh
  | unlink hfreed => exact prefix_erase h fun hmem => hfreed (hgone _ hmem)

theorem EnumInv.next {x y : Enumeration} {event : RamfsOp × RamfsResult} (h : EnumInv d dir x kids)
    (hnext : enumNext d x event = some y) (hquiet : Undisturbed d x.fs y.fs) : ∃ kids', EnumInv d dir y kids' := by
  obtain ⟨op, r⟩ := event
  unfold enumNext at hnext
  split at hnext
  · cases hnext
  · rename_i hclose
    rw [Bool.not_eq_true] at hclose
    obtain ⟨s', hstep, rfl⟩ := Option.map_eq_some_iff.mp hnext
    obtain ⟨hvalid, hcall⟩ := ramfsStep_iff.mp hstep
    obtain ⟨hopen, ⟨rfl, hret⟩ | ⟨hnone, hdir⟩⟩ := h.inv.step_handle hstep h.isOpen hclose
    · obtain ⟨hfails, _⟩ | ⟨_, ⟨e, hentry⟩, hs'⟩ := ramfsReaddir_eq hcall
      · rw [hret] at hfails
        cases hfails
      obtain ⟨s₁, r₁, hdone, _, hinv, _⟩ := h.inv.onData hvalid trivial
      cases hcall.symm.trans hdone
      have hreturned : returned x.fs d (.readdir d, r) = [e] := by
        change (if d = d ∧ r.ret = 0 then _ else []) = [e]
        rw [if_pos ⟨rfl, hret⟩, hentry]
        rfl
      have hhandle : s'.dir d = { x.fs.dir d with dOffset := (x.fs.dir d).dOffset + 1 } := by
        rw [hs']
        exact Function.update_self ..
      rw [h.data, h.offset, h.inv.entryAt h.live] at hentry
      refine ⟨kids, hinv, hopen, ?_, ?_, ?_⟩
      · dsimp only
        rw [hhandle]
        exact h.data
      · dsimp only
        rw [hhandle, hreturned, List.length_append]
        dsimp only
        rw [h.offset]
        rfl
      · dsimp only
        rw [hreturned]
        exact prefix_snoc h.seen hentry
    · obtain ⟨kids', hinv, hlist⟩ := h.inv.step_list hstep
      have hdir' : (s'.dir d).dData = dir := by
        rw [hdir]
        exact h.data
      have hlive : dir ∈ s'.live := hdir' ▸ (hinv.dirs d hopen).1
      refine ⟨kids', hinv, hopen, hdir', ?_, ?_⟩
      · dsimp only
        rw [hdir, hnone, List.append_nil]
        exact h.offset
      · dsimp only
        rw [hnone, List.append_nil]
        refine (hlist dir h.live).seen ?_ ?_ h.seen
        · obtain hzero | hold := hquiet.created
          · rw [h.offset] at hzero
            exact .inl (List.length_eq_zero_iff.mp (Int.natCast_eq_zero.mp hzero))
          · rw [h.data] at hold
            exact .inr fun a ha => (hold a ((hinv.isEntry hlive).mpr ha)).1
        · intro e he
          obtain ⟨n, hn, hget⟩ := List.getElem_of_mem he
          have hentry : Ramfs.entryAt x.fs dir n = some e := by
            rw [h.inv.entryAt h.live, List.prefix_iff_getElem?.mp h.seen n hn, hget]
          have hstays := hquiet.unlinked n (by rw [h.offset]; exact hn) e (by rw [h.data]; exact hentry)
          exact hstays.1

/-- Calls that leave the list undisturbed until `ramfs_readdir` fails: every entry that lasts is returned
once. -/
theorem ramfsReaddir_once {root : Nat} {mount : List Char} {before events : List (RamfsOp × RamfsResult)}
    {s₀ s' : RamfsState} {x : Enumeration} (hbefore : Run RamfsStep (ramfsMounted root mount) before s₀)
    (hopen : d ∈ s₀.openDirs) (hstart : (s₀.dir d).dOffset = 0)
    (hrun : Run (fun x event y => enumNext d x event = some y ∧ Undisturbed d x.fs y.fs) ⟨s₀, []⟩ events x)
    (hend : RamfsStep x.fs (.readdir d, r) s') (hfails : r.ret = -1)
    (hlasts : Run (LastingStep d (s₀.dir d).dData e) ⟨s₀, []⟩ events x)
    (hentry : IsEntry s₀ (s₀.dir d).dData e) : x.seen.count e = 1 := by
  obtain ⟨kids₀, hinv₀⟩ := ramfsRun_inv hbefore
  obtain ⟨kids, hi⟩ : ∃ kids, EnumInv d (s₀.dir d).dData x kids := by
    refine run_invariant (fun x => ∃ kids, EnumInv d (s₀.dir d).dData x kids) ?_ hrun
      ⟨kids₀, hinv₀, hopen, rfl, hstart, List.nil_prefix⟩
    intro x event y ⟨kids, hi⟩ ⟨hnext, hquiet⟩
    exact hi.next hnext hquiet
  have hlast : IsEntry x.fs (s₀.dir d).dData e :=
    run_invariant (fun x : Enumeration => IsEntry x.fs (s₀.dir d).dData e) (fun _ _ _ _ hstep => hstep.2) hlasts
      hentry
  -- where `ramfs_readdir` fails the whole list has been returned
  have hall : x.seen = kids (s₀.dir d).dData := by
    obtain ⟨_, hcall⟩ := ramfsStep_iff.mp hend
    obtain ⟨_, hnone, _⟩ | ⟨hret, _⟩ := ramfsReaddir_eq hcall
    · rw [hi.data, hi.offset, hi.inv.entryAt hi.live] at hnone
      exact hi.seen.eq_of_length_le (List.getElem?_eq_none_iff.mp hnone)
    · rw [hfails] at hret
      cases hret
  rw [hall]
  exact List.count_eq_one_of_mem (hi.inv.tree.nodup _ hi.live) ((hi.inv.isEntry hi.live).mp hlast)

def lastingNext (d dir e : Nat) (x : Enumeration) (event : RamfsOp × RamfsResult) : Option Enumeration :=
  (enumNext d x event).filter fun y => decide (IsEntry y.fs dir e)

theorem lastingNext_step {x y : Enumeration} {event : RamfsOp × RamfsResult}
    (h : lastingNext d dir e x event = some y) : LastingStep d dir e x event y := by
  obtain ⟨hnext, hstays⟩ := Option.filter_eq_some_iff.mp h
  exact ⟨hnext, of_decide_eq_true hstays⟩

/-- `ramfs_readdir`, where it returns an empty file. -/
def reads (name : List Char) : RamfsOp × RamfsResult :=
  (.readdir 1, { ret := 0, buff := [], dent := some { name := name, isDir := false, size := 0 } })

/-- The root with two files, and a handle on it. -/
def twoFiles : List (RamfsOp × RamfsResult) :=
  [(.open 1 ['a'] oCreat (some 2), status 0), (.close 1, status 0), (.open 1 ['b'] oCreat (some 3), status 0),
    (.close 1, status 0), (.opendir 1 [], status 0)]

/-- A third file is made before the first entry is read, and one behind the position of the handle goes. -/
def changedBetween : List (RamfsOp × RamfsResult) :=
  [(.open 1 ['c'] oCreat (some 4), status 0), reads ['c'], (.unlink ['a'], status 0), reads ['b']]

/-- The third file and the one that stays are returned, each once. -/
theorem ramfsReaddir_once_changed : ∃ s₀ s' x, Run RamfsStep (ramfsMounted 1 ['/', 'r']) twoFiles s₀ ∧
    IsEntry s₀ (s₀.dir 1).dData 2 ∧ Run (LastingStep 1 (s₀.dir 1).dData 3) ⟨s₀, []⟩ changedBetween x ∧
      RamfsStep x.fs (.readdir 1, status (-1)) s' ∧ x.seen = [4, 3] ∧ x.seen.count 3 = 1 := by
  have hruns : ((twoFiles.foldlM ramfsNext (ramfsMounted 1 ['/', 'r'])).bind fun s₀ =>
      (changedBetween.foldlM (fun x event => (lastingNext 1 (s₀.dir 1).dData 3 x event).filter fun y =>
        decide (Undisturbed 1 x.fs y.fs)) ⟨s₀, []⟩).bind fun x =>
        (ramfsNext x.fs (.readdir 1, status (-1))).map fun _ =>
          decide ((1 ∈ s₀.openDirs ∧ (s₀.dir 1).dOffset = 0 ∧ IsEntry s₀ (s₀.dir 1).dData 3) ∧
            IsEntry s₀ (s₀.dir 1).dData 2 ∧ x.seen = [4, 3])) = some true := by
    decide +kernel
  obtain ⟨s₀, hs₀, hruns⟩ := Option.bind_eq_some_iff.mp hruns
  obtain ⟨x, hx, hruns⟩ := Option.bind_eq_some_iff.mp hruns
  obtain ⟨s', hend, hruns⟩ := Option.map_eq_some_iff.mp hruns
  obtain ⟨⟨hopen, hstart, hentry⟩, hgone, hseen⟩ := of_decide_eq_true hruns
  have hbefore : Run RamfsStep (ramfsMounted 1 ['/', 'r']) twoFiles s₀ := run_of_foldlM hs₀
  have hsteps := run_of_foldlM hx
  have hlasts : Run (LastingStep 1 (s₀.dir 1).dData 3) ⟨s₀, []⟩ changedBetween x :=
    run_mono (fun _ _ _ h => lastingNext_step (Option.filter_eq_some_iff.mp h).1) hsteps
  have hrun : Run (fun x event y => enumNext 1 x event = some y ∧ Undisturbed 1 x.fs y.fs) ⟨s₀, []⟩
      changedBetween x := by
    refine run_mono (fun x event y h => ?_) hsteps
    obtain ⟨hnext, hquiet⟩ := Option.filter_eq_some_iff.mp h
    exact ⟨(lastingNext_step hnext).1, of_decide_eq_true hquiet⟩
  exact ⟨s₀, s', x, hbefore, hgone, hlasts, hend, hseen,
    ramfsReaddir_once hbefore hopen hstart hrun hend rfl hlasts hentry⟩

/-- The root with one file, and a handle on it. -/
def oneFile : List (RamfsOp × RamfsResult) :=
  [(.open 1 ['a'] oCreat (some 2), status 0), (.opendir 1 [], status 0)]

/-- A second file, made when the first has been returned. -/
def secondFile : List (RamfsOp × RamfsResult) :=
  [reads ['a'], (.open 2 ['b'] oCreat (some 3), status 0), reads ['a']]

/-- The list grows at its head, so the index of the handle is that of the entry it has returned. -/
theorem ramfsReaddir_repeats : ∃ s₀ s' x, Run RamfsStep (ramfsMounted 1 ['/', 'r']) oneFile s₀ ∧
    1 ∈ s₀.openDirs ∧ (s₀.dir 1).dOffset = 0 ∧ IsEntry s₀ (s₀.dir 1).dData 2 ∧
      Run (LastingStep 1 (s₀.dir 1).dData 2) ⟨s₀, []⟩ secondFile x ∧
        RamfsStep x.fs (.readdir 1, status (-1)) s' ∧ x.seen.count 2 = 2 ∧ x.seen.count 3 = 0 := by
  have hruns : ((oneFile.foldlM ramfsNext (ramfsMounted 1 ['/', 'r'])).bind fun s₀ =>
      (secondFile.foldlM (lastingNext 1 (s₀.dir 1).dData 2) ⟨s₀, []⟩).bind fun x =>
        (ramfsNext x.fs (.readdir 1, status (-1))).map fun _ =>
          decide ((1 ∈ s₀.openDirs ∧ (s₀.dir 1).dOffset = 0 ∧ IsEntry s₀ (s₀.dir 1).dData 2) ∧
            x.seen.count 2 = 2 ∧ x.seen.count 3 = 0)) = some true := by
    decide +kernel
  obtain ⟨s₀, hs₀, hruns⟩ := Option.bind_eq_some_iff.mp hruns
  obtain ⟨x, hx, hruns⟩ := Option.bind_eq_some_iff.mp hruns
  obtain ⟨s', hend, hruns⟩ := Option.map_eq_some_iff.mp hruns
  obtain ⟨⟨hopen, hstart, hentry⟩, hcount⟩ := of_decide_eq_true hruns
  have hlasts : Run (LastingStep 1 (s₀.dir 1).dData 2) ⟨s₀, []⟩ secondFile x :=
    run_mono (fun _ _ _ h => lastingNext_step h) (run_of_foldlM hx)
  exact ⟨s₀, s', x, run_of_foldlM hs₀, hopen, hstart, hentry, hlasts, hend, hcount⟩

end LiteosM.Ramfs
