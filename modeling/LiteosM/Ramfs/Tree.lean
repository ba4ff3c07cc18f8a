import LiteosM.Lib.Transition
import LiteosM.Ramfs.Moves

/-!
# The tree of a mount point

Every call keeps the tree, a call that fails changes no element, and only idle
elements are freed.
-/

namespace LiteosM.Ramfs

open LiteosM.Lib.SiblingTree LiteosM.Lib.Transition

/-- What holds of a call that was made: the tree is kept, a call that fails changes no element, and
only elements without handles and without children are freed. -/
structure Outcome (s : RamfsState) (op : RamfsOp) (s' : RamfsState) (r : RamfsResult) : Prop where
  inv : ∃ kids, RamfsInv s' kids
  refused : r.ret = -1 → (∀ fd buff mem, op ≠ .write fd buff mem) →
    s'.element = s.element ∧ s'.live = s.live
  freed : ∀ e ∈ s.live, e ∉ s'.live →
    (s.element e).refs = 0 ∧ ∀ child, (s.element e).body = .dir child → child = none

variable {s s' : RamfsState} {kids : Nat → List Nat} {path : List Char} {r : RamfsResult} {op : RamfsOp}

theorem Outcome.done (hi : RamfsInv s' kids) (hlive : ∀ e ∈ s.live, e ∈ s'.live) :
    Outcome s op s' (status 0) where
  inv := ⟨kids, hi⟩
  refused := fun h => by cases h
  freed := fun e he hnot => absurd (hlive e he) hnot

theorem Outcome.unlinked {e : Nat} (hinv : ∃ kids, RamfsInv s' kids) (hrefs : (s.element e).refs = 0)
    (hchild : ∀ child, (s.element e).body = .dir child → child = none)
    (hstays : ∀ x ∈ s.live, x ≠ e → x ∈ s'.live) : Outcome s op s' (status 0) where
  inv := hinv
  refused := fun h => by cases h
  freed := by
    intro x hx hnot
    have heq : x = e := by
      by_contra hne
      exact hnot (hstays x hx hne)
    rw [heq]
    exact ⟨hrefs, hchild⟩

theorem Move.outcome (hi : RamfsInv s kids) (hvalid : op.Valid s) (hm : Move s kids op s' r) :
    Outcome s op s' r := by
  cases hm with
  | refused hop => exact ⟨⟨kids, hi⟩, fun _ _ => ⟨rfl, rfl⟩, fun e he hnot => absurd he hnot⟩
  | opened hfd he hbody => exact .done (hi.withFile he ⟨_, _, hbody⟩ hfd) fun x hx => hx
  | created hfd hm =>
    have hchild : childOf (.file 0 none) = none := rfl
    have hlink := hi.link hm.fresh hm.mem hm.body hm.nameOk hm.new (Or.inl hchild)
    have hopen := hlink.withFile_link hfd List.mem_cons_self ⟨0, none, rfl⟩
    exact .done hopen fun x hx => List.mem_cons_of_mem _ hx
  | closed hfd => exact .done (hi.ramfsClose hfd) fun x hx => hx
  | unlinkedDir he hrefs hbody hinv hfreed =>
    refine .unlinked hinv hrefs (fun child hchild => ?_) hfreed.stays
    rw [hbody] at hchild
    cases hchild
    rfl
  | unlinkedFile he hrefs hbody hinv hfreed =>
    refine .unlinked hinv hrefs (fun child hchild => ?_) hfreed.stays
    rw [hbody] at hchild
    cases hchild
  | renamed hd he hname hnew => exact .done (hi.rename hd he hname hnew) fun x hx => hx
  | opendir hd he hdir => exact .done (hi.withDir he hdir hd) fun x hx => hx
  | closedir hd => exact .done (hi.ramfsClosedir hd) fun x hx => hx
  | mkdir hm =>
    have hchild : childOf (.dir none) = some none := rfl
    have hlink := hi.link hm.fresh hm.mem hm.body hm.nameOk hm.new (Or.inr hchild)
    exact .done hlink fun x hx => List.mem_cons_of_mem _ hx
  | data hop hcall =>
    obtain ⟨s₁, r₁, hdone, hlive, hinv, hrefused⟩ := hi.onData hvalid hop
    cases hcall.symm.trans hdone
    refine ⟨⟨kids, hinv⟩, fun h hno => ⟨hrefused h hno, hlive⟩, fun e he hnot => ?_⟩
    rw [hlive] at hnot
    exact absurd he hnot

theorem ramfsStep_outcome (hi : RamfsInv s kids) (h : RamfsStep s (op, r) s') : Outcome s op s' r :=
  (step_move hi h).outcome hi (ramfsStep_iff.mp h).1

theorem ramfsMounted_inv {root : Nat} : RamfsInv (ramfsMounted root path) fun _ => [] where
  tree :=
    { once := List.nodup_singleton root
      root_mem := List.mem_singleton_self root
      root_dir := rfl
      root_parent := rfl
      leaf := fun _ _ _ => rfl
      children := fun d _ c hc => by
        cases hc
        rfl
      nodup := fun _ _ => List.nodup_nil
      kid := fun d _ e he => by cases he
      has_parent := fun e he hne => absurd (List.mem_singleton.mp he) hne
      distinct := fun d _ e he => by cases he
      rooted := fun e he => by
        rw [List.mem_singleton.mp he]
        exact .root }
  names := fun e he hne => absurd (List.mem_singleton.mp he) hne
  files := fun fd hfd => by cases hfd
  dirs := fun d hd => by cases hd
  openFiles := ⟨List.nodup_nil, fun fd hfd => by cases hfd⟩
  openDirs := ⟨List.nodup_nil, fun d hd => by cases hd⟩
  refs := fun _ _ => rfl

theorem ramfsRun_inv {root : Nat} {mount : List Char} {events : List (RamfsOp × RamfsResult)}
    (hrun : Run RamfsStep (ramfsMounted root mount) events s) : ∃ kids, RamfsInv s kids := by
  refine run_invariant (fun s => ∃ kids, RamfsInv s kids) ?_ hrun ⟨_, ramfsMounted_inv⟩
  intro s event s' hi hstep
  obtain ⟨kids, hi⟩ := hi
  exact (ramfsStep_outcome hi hstep).inv

/-- In every run from the mount the elements form a tree and `refs` counts the open handles, every
call returns, a call frees only elements without handles and without children, and a call that
fails changes no element. -/
theorem ramfs_tree {root : Nat} {mount : List Char} {events : List (RamfsOp × RamfsResult)}
    (hrun : Run RamfsStep (ramfsMounted root mount) events s) :
    (∃ kids, RamfsInv s kids) ∧
    (∀ op : RamfsOp, op.Valid s → ∃ s' r, ramfsCall s op = some (s', r)) ∧
    ∀ op r s', RamfsStep s (op, r) s' →
      (∀ e ∈ s.live, e ∉ s'.live →
        (s.element e).refs = 0 ∧ ∀ child, (s.element e).body = .dir child → child = none) ∧
      (r.ret = -1 → (∀ fd buff mem, op ≠ .write fd buff mem) →
        s'.element = s.element ∧ s'.live = s.live) := by
  obtain ⟨kids, hi⟩ := ramfsRun_inv hrun
  refine ⟨⟨kids, hi⟩, fun op hvalid => ?_, fun op r s' hstep => ?_⟩
  · obtain ⟨s', r, hcall, -⟩ := hi.call_move hvalid
    exact ⟨s', r, hcall⟩
  · have hout := ramfsStep_outcome hi hstep
    exact ⟨hout.freed, hout.refused⟩

/-- A directory with a file that is open. -/
def smallRamfs : List (RamfsOp × RamfsResult) :=
  [(.mkdir ['a', '/'] (some 2), status 0), (.open 1 ['a', '/', '/', 'f'] oCreat (some 3), status 0),
    (.unlink ['a', '/', 'f'], status (-1))]

theorem ramfs_tree_small : ∃ s, Run RamfsStep (ramfsMounted 1 ['/', 'r']) smallRamfs s ∧
    ((∃ kids, RamfsInv s kids) ∧
    (∀ op : RamfsOp, op.Valid s → ∃ s' r, ramfsCall s op = some (s', r)) ∧
    ∀ op r s', RamfsStep s (op, r) s' →
      (∀ e ∈ s.live, e ∉ s'.live →
        (s.element e).refs = 0 ∧ ∀ child, (s.element e).body = .dir child → child = none) ∧
      (r.ret = -1 → (∀ fd buff mem, op ≠ .write fd buff mem) →
        s'.element = s.element ∧ s'.live = s.live)) := by
  have hsome : (smallRamfs.foldlM ramfsNext (ramfsMounted 1 ['/', 'r'])).isSome = true := by
    decide +kernel
  obtain ⟨s, hs⟩ := Option.isSome_iff_exists.mp hsome
  have hrun : Run RamfsStep (ramfsMounted 1 ['/', 'r']) smallRamfs s := run_of_foldlM hs
  exact ⟨s, hrun, ramfs_tree hrun⟩

end LiteosM.Ramfs
