import LiteosM.Ramfs.Updates

/-!
# What a call can do

Every call comes back, and `Move` lists the states it can leave behind.
-/

namespace LiteosM.Ramfs

open LiteosM.Lib.NextList LiteosM.Lib.Path LiteosM.Lib.SiblingTree

/-- The calls that read or write a file or move an offset. -/
def RamfsOp.OnData : RamfsOp → Prop
  | .read _ _ _ => True
  | .write _ _ _ => True
  | .lseek _ _ _ => True
  | .readdir _ => True
  | _ => False

/-- What a call finds before it puts a new element under `walk`. -/
structure Missing (s : RamfsState) (kids : Nat → List Nat) (walk a : Nat) (child : Option Nat)
    (name : List Char) : Prop where
  fresh : a ∉ s.live
  mem : walk ∈ s.live
  body : (s.element walk).body = .dir child
  nameOk : NameOk name
  new : ∀ x ∈ kids walk, (s.element x).name ≠ name

inductive Move (s : RamfsState) (kids : Nat → List Nat) : RamfsOp → RamfsState → RamfsResult → Prop
  | refused {op : RamfsOp} (hop : ¬ op.OnData) : Move s kids op s (status (-1))
  | opened {fd e flags size : Nat} {path : List Char} {mem : Option Nat} {content : Option Block}
      (hfd : HandleOk s.openFiles fd) (he : e ∈ s.live)
      (hbody : (s.element e).body = .file size content) :
      Move s kids (.open fd path flags mem)
        (withFile s fd e (if flags &&& oAppend ≠ 0 then size else 0)) (status 0)
  | created {fd walk a flags : Nat} {path name : List Char} {child : Option Nat}
      (hfd : HandleOk s.openFiles fd) (hm : Missing s kids walk a child name) :
      Move s kids (.open fd path flags (some a))
        { (ramfsLink s walk a
            { name := name, sibling := child, parent := some walk, refs := 1, body := .file 0 none }).setFile
          fd { fOffset := 0, fData := a } with openFiles := fd :: s.openFiles } (status 0)
  | closed {fd : Nat} (hfd : fd ∈ s.openFiles) : Move s kids (.close fd) (ramfsClose s fd).1 (status 0)
  | unlinkedDir {e : Nat} {path : List Char} {s' : RamfsState} (he : e ∈ s.live) (hrefs : (s.element e).refs = 0)
      (hbody : (s.element e).body = .dir none) (hinv : ∃ kids', RamfsInv s' kids')
      (hfreed : Freed s s' e) : Move s kids (.unlink path) s' (status 0)
  | unlinkedFile {e size : Nat} {content : Option Block} {path : List Char} {s' : RamfsState}
      (he : e ∈ s.live)
      (hrefs : (s.element e).refs = 0) (hbody : (s.element e).body = .file size content)
      (hinv : ∃ kids', RamfsInv s' kids')
      (hfreed : Freed (s.setElement e { s.element e with body := .file size none }) s' e) :
      Move s kids (.unlink path) s' (status 0)
  | renamed {d e : Nat} {pathOld pathNew name : List Char} (hd : d ∈ s.live) (he : e ∈ kids d) (hname : NameOk name)
      (hnew : ∀ x ∈ kids d, (s.element x).name ≠ name) :
      Move s kids (.rename pathOld pathNew) (s.setElement e { s.element e with name := name }) (status 0)
  | opendir {d e : Nat} {path : List Char} (hd : HandleOk s.openDirs d) (he : e ∈ s.live) (hdir : IsDir (s.element e)) :
      Move s kids (.opendir d path) (withDir s d e) (status 0)
  | closedir {d : Nat} (hd : d ∈ s.openDirs) : Move s kids (.closedir d) (ramfsClosedir s d).1 (status 0)
  | mkdir {walk a : Nat} {path name : List Char} {child : Option Nat}
      (hm : Missing s kids walk a child name) :
      Move s kids (.mkdir path (some a)) (ramfsLink s walk a
        { name := name, sibling := child, parent := some walk, refs := 0, body := .dir none }) (status 0)
  | data {op : RamfsOp} {s' : RamfsState} {r : RamfsResult} (hop : op.OnData) (hcall : ramfsCall s op = some (s', r)) : Move s kids op s' r

variable {s s' : RamfsState} {kids : Nat → List Nat} {fd d flags : Nat}
  {path pathOld pathNew : List Char} {r : RamfsResult} {op : RamfsOp}

namespace RamfsInv

theorem ramfsOpen {mem : Option Nat} (hi : RamfsInv s kids) (hfd : HandleOk s.openFiles fd)
    (hmem : ∀ a ∈ mem, a ∉ s.live) : ∃ s' r, ramfsOpen s fd path flags mem = some (s', r) ∧
      Move s kids (.open fd path flags mem) s' r := by
  have hno : ∃ s' r, some (s, status (-1)) = some (s', r) ∧ Move s kids (.open fd path flags mem) s' r :=
    ⟨s, status (-1), rfl, .refused id⟩
  unfold Ramfs.ramfsOpen
  split
  · exact hno
  obtain ⟨found, hfind, hright⟩ := hi.find path
  rw [hfind]
  cases found with
  | none => exact hno
  | some x =>
    obtain ⟨walk, left⟩ := x
    have hw := hright walk left rfl
    dsimp only
    cases hbody : (s.element walk).body with
    | file size content =>
      show ∃ s' r, (if left = [] then _ else _) = some (s', r) ∧ _
      split
      · split
        · exact hno
        · exact ⟨_, _, rfl, .opened hfd hw.mem hbody⟩
      · exact hno
    | dir child =>
      show ∃ s' r, (if left = [] then _ else _) = some (s', r) ∧ _
      by_cases hleft : left = []
      · rw [if_pos hleft]
        exact hno
      rw [if_neg hleft]
      split
      · exact hno
      split
      · exact hno
      rename_i hslash
      split
      · exact hno
      rename_i hlen
      cases mem with
      | none => exact hno
      | some a =>
        obtain ⟨-, -, -, hmissing⟩ := hw.missing hleft
        rw [headName_of_no_slash hslash] at hmissing
        exact ⟨_, _, rfl, .created hfd
          ⟨hmem a rfl, hw.mem, hbody, ⟨hleft, Nat.lt_of_not_le hlen⟩, hmissing⟩⟩

theorem ramfsMkdir {mem : Option Nat} (hi : RamfsInv s kids) (hmem : ∀ a ∈ mem, a ∉ s.live) :
    ∃ s' r, ramfsMkdir s path mem = some (s', r) ∧ Move s kids (.mkdir path mem) s' r := by
  have hno : ∃ s' r, some (s, status (-1)) = some (s', r) ∧ Move s kids (.mkdir path mem) s' r :=
    ⟨s, status (-1), rfl, .refused id⟩
  unfold Ramfs.ramfsMkdir
  obtain ⟨found, hfind, hright⟩ := hi.find path
  rw [hfind]
  cases found with
  | none => exact hno
  | some x =>
    obtain ⟨walk, left⟩ := x
    have hw := hright walk left rfl
    show ∃ s' r, (if left = [] then _ else _) = some (s', r) ∧ _
    by_cases hleft : left = []
    · rw [if_pos hleft]
      exact hno
    rw [if_neg hleft]
    split
    · exact hno
    split
    · exact hno
    rename_i hlen
    cases mem with
    | none => exact hno
    | some a =>
      obtain ⟨hhead, -, ⟨child, hbody⟩, hmissing⟩ := hw.missing hleft
      rw [hbody]
      have hname : headName left ≠ [] := fun h => hleft ((headName_nil_iff hhead).mp h)
      exact ⟨_, _, rfl, .mkdir ⟨hmem a rfl, hw.mem, hbody, ⟨hname, Nat.lt_of_not_le hlen⟩, hmissing⟩⟩

theorem ramfsUnlink_del (hi : RamfsInv s kids) (path : List Char) : Ramfs.ramfsUnlink s path = some (s, status (-1)) ∨
    ∃ e ∈ s.live, (s.element e).refs = 0 ∧ kids e = [] ∧
      ((s.element e).body = .dir none ∧ Ramfs.ramfsUnlink s path = (Ramfs.ramfsDel s e).map (fun s => (s, status 0)) ∨
        ∃ size content, (s.element e).body = .file size content ∧ Ramfs.ramfsUnlink s path =
          (Ramfs.ramfsDel (s.setElement e { s.element e with body := .file size none }) e).map
            (fun s => (s, status 0))) := by
  unfold Ramfs.ramfsUnlink
  obtain ⟨found, hfind, hright⟩ := hi.find path
  rw [hfind]
  cases found with
  | none => exact .inl rfl
  | some x =>
    obtain ⟨e, left⟩ := x
    have hw := hright e left rfl
    dsimp only
    split
    · exact .inl rfl
    split
    · exact .inl rfl
    rename_i hrefs
    have hidle : (s.element e).refs = 0 := Classical.not_not.mp hrefs
    cases hbody : (s.element e).body with
    | dir child =>
      dsimp only
      split
      · exact .inl rfl
      rename_i hchild
      have hnone : child = none := Classical.not_not.mp hchild
      subst hnone
      have hleaf : kids e = [] := by
        have hlist := hi.tree.children e hw.mem none (node_child hbody)
        cases hkids : kids e with
        | nil => rfl
        | cons y l =>
          rw [hkids] at hlist
          cases hlist.1
      exact .inr ⟨e, hw.mem, hidle, hleaf, .inl ⟨hbody, rfl⟩⟩
    | file size content =>
      have hleaf : kids e = [] := by
        apply hi.tree.leaf e hw.mem
        show childOf (s.element e).body = none
        rw [hbody]
        rfl
      exact .inr ⟨e, hw.mem, hidle, hleaf, .inr ⟨size, content, hbody, rfl⟩⟩

theorem ramfsUnlink (hi : RamfsInv s kids) :
    ∃ s' r, ramfsUnlink s path = some (s', r) ∧ Move s kids (.unlink path) s' r := by
  obtain hno | ⟨e, he, hidle, hleaf, ⟨hbody, hcall⟩ | ⟨size, content, hbody, hcall⟩⟩ :=
    hi.ramfsUnlink_del path
  · exact ⟨s, status (-1), hno, .refused id⟩
  · obtain ⟨s', hdel, hinv, hfreed⟩ := hi.ramfsDel he hleaf hidle
    rw [hcall, hdel]
    exact ⟨s', status 0, rfl, .unlinkedDir he hidle hbody hinv hfreed⟩
  · have hkeep : ((s.setElement e { s.element e with body := .file size none }).element e).refs =
        (s.element e).refs := setElement_refs (by rfl) e
    obtain ⟨s', hdel, hinv, hfreed⟩ := (hi.setBody size none hbody).ramfsDel he hleaf (hkeep.trans hidle)
    rw [hcall, hdel]
    exact ⟨s', status 0, rfl, .unlinkedFile he hidle hbody hinv hfreed⟩

theorem ramfsRename (hi : RamfsInv s kids) :
    ∃ s' r, ramfsRename s pathOld pathNew = some (s', r) ∧ Move s kids (.rename pathOld pathNew) s' r := by
  have hno : ∃ s' r, some (s, status (-1)) = some (s', r) ∧ Move s kids (.rename pathOld pathNew) s' r :=
    ⟨s, status (-1), rfl, .refused id⟩
  unfold Ramfs.ramfsRename
  obtain ⟨found, hfind, hright⟩ := hi.find pathOld
  rw [hfind]
  cases found with
  | none => exact hno
  | some x =>
    obtain ⟨old, leftOld⟩ := x
    have hold := hright old leftOld rfl
    show ∃ s' r, (if leftOld ≠ [] then _ else _) = some (s', r) ∧ _
    split
    · exact hno
    obtain ⟨found, hfind, hright⟩ := hi.find pathNew
    rw [hfind]
    cases found with
    | none => exact hno
    | some x =>
      obtain ⟨new, leftNew⟩ := x
      have hnew := hright new leftNew rfl
      show ∃ s' r, (if leftNew = [] then _ else _) = some (s', r) ∧ _
      by_cases hleft : leftNew = []
      · rw [if_pos hleft]
        exact hno
      rw [if_neg hleft]
      split
      · exact hno
      rename_i hslash
      split
      · exact hno
      rename_i hparent
      split
      · exact hno
      rename_i hlen
      have hdir : (s.element old).parent = some new := (Classical.not_not.mp hparent).symm
      obtain ⟨hd, hkid⟩ := hi.tree.of_parent hold.mem hdir
      obtain ⟨-, -, -, hmissing⟩ := hnew.missing hleft
      rw [headName_of_no_slash hslash] at hmissing
      exact ⟨_, _, rfl, .renamed hd hkid ⟨hleft, Nat.lt_of_not_le hlen⟩ hmissing⟩

theorem ramfsOpendir (hi : RamfsInv s kids) (hd : HandleOk s.openDirs d) :
    ∃ s' r, ramfsOpendir s d path = some (s', r) ∧ Move s kids (.opendir d path) s' r := by
  have hno : ∃ s' r, some (s, status (-1)) = some (s', r) ∧ Move s kids (.opendir d path) s' r :=
    ⟨s, status (-1), rfl, .refused id⟩
  unfold Ramfs.ramfsOpendir
  obtain ⟨found, hfind, hright⟩ := hi.find path
  rw [hfind]
  cases found with
  | none => exact hno
  | some x =>
    obtain ⟨e, left⟩ := x
    have hw := hright e left rfl
    show ∃ s' r, (if left ≠ [] then _ else _) = some (s', r) ∧ _
    split
    · exact hno
    cases hbody : (s.element e).body with
    | file size content => exact hno
    | dir child => exact ⟨_, _, rfl, .opendir hd hw.mem ⟨child, hbody⟩⟩

theorem onData (hi : RamfsInv s kids) (hvalid : op.Valid s) (hop : op.OnData) :
    ∃ s' r, ramfsCall s op = some (s', r) ∧ s'.live = s.live ∧ RamfsInv s' kids ∧
      (r.ret = -1 → (∀ fd buff mem, op ≠ .write fd buff mem) → s'.element = s.element) := by
  cases op with
  | read fd addr bytes =>
    obtain ⟨size, content, hbody⟩ := (hi.files fd hvalid.1).2
    show ∃ s' r, Ramfs.ramfsRead s fd bytes = some (s', r) ∧ _
    unfold Ramfs.ramfsRead
    dsimp only
    rw [hbody]
    dsimp only
    split
    · exact ⟨_, _, rfl, rfl, hi.setOffset fd _, fun _ _ => rfl⟩
    · exact ⟨_, _, rfl, rfl, hi.setOffset fd _, fun _ _ => rfl⟩
  | lseek fd off whence =>
    obtain ⟨size, content, hbody⟩ := (hi.files fd hvalid.1).2
    show ∃ s' r, Ramfs.ramfsLseek s fd off whence = some (s', r) ∧ _
    unfold Ramfs.ramfsLseek
    dsimp only
    rw [hbody]
    dsimp only
    split
    · exact ⟨s, status (-1), rfl, rfl, hi, fun _ _ => rfl⟩
    · exact ⟨_, _, rfl, rfl, hi.setOffset fd _, fun _ _ => rfl⟩
  | write fd buff mem =>
    obtain ⟨size, content, hbody⟩ := (hi.files fd hvalid.1).2
    have hno : (∀ fd' buff' mem', RamfsOp.write fd buff mem ≠ .write fd' buff' mem') → False :=
      fun h => h fd buff mem rfl
    have hstore : ∀ size' content' offset, RamfsInv ((s.setElement (s.file fd).fData
        { s.element (s.file fd).fData with body := .file size' content' }).setFile fd
          { s.file fd with fOffset := offset }) kids :=
      fun size' content' offset => (hi.setBody size' content' hbody).setOffset fd offset
    show ∃ s' r, Ramfs.ramfsWrite s fd buff.bytes mem = some (s', r) ∧ _
    unfold Ramfs.ramfsWrite
    dsimp only
    rw [hbody]
    dsimp only
    split
    · cases mem with
      | some p => exact ⟨_, _, rfl, rfl, hstore _ _ _, fun _ h => (hno h).elim⟩
      | none =>
        dsimp only
        split
        · exact ⟨_, _, rfl, rfl, hi.setOffset fd _, fun _ h => (hno h).elim⟩
        · exact ⟨_, _, rfl, rfl, hstore _ _ _, fun _ h => (hno h).elim⟩
    · exact ⟨_, _, rfl, rfl, hstore _ _ _, fun _ h => (hno h).elim⟩
  | readdir d =>
    obtain ⟨child, hbody⟩ := (hi.dirs d hvalid).2
    show ∃ s' r, Ramfs.ramfsReaddir s d = some (s', r) ∧ _
    unfold Ramfs.ramfsReaddir
    dsimp only
    rw [hbody]
    dsimp only
    split
    · exact ⟨s, status (-1), rfl, rfl, hi, fun _ _ => rfl⟩
    · refine ⟨_, _, rfl, rfl, hi.same rfl rfl rfl (fun _ => rfl) rfl rfl (fun _ => rfl) fun g => ?_,
        fun _ _ => rfl⟩
      show (Function.update s.dir d _ g).dData = _
      by_cases hg : g = d
      · rw [hg, Function.update_self]
      · rw [Function.update_of_ne hg]
  | _ => cases hop

theorem call_move (hi : RamfsInv s kids) (hvalid : op.Valid s) :
    ∃ s' r, ramfsCall s op = some (s', r) ∧ Move s kids op s' r := by
  have hdata : op.OnData → ∃ s' r, ramfsCall s op = some (s', r) ∧ Move s kids op s' r := by
    intro hop
    obtain ⟨s', r, hcall, -⟩ := hi.onData hvalid hop
    exact ⟨s', r, hcall, .data hop hcall⟩
  cases op with
  | «open» fd path flags mem => exact hi.ramfsOpen hvalid.1 hvalid.2
  | close fd => exact ⟨_, _, rfl, .closed hvalid⟩
  | unlink path => exact hi.ramfsUnlink
  | rename pathOld pathNew => exact hi.ramfsRename
  | opendir d path => exact hi.ramfsOpendir hvalid
  | closedir d => exact ⟨_, _, rfl, .closedir hvalid⟩
  | mkdir path mem => exact hi.ramfsMkdir hvalid
  | _ => exact hdata trivial

end RamfsInv

theorem step_move (hi : RamfsInv s kids) (h : RamfsStep s (op, r) s') : Move s kids op s' r := by
  obtain ⟨hvalid, hcall⟩ := ramfsStep_iff.mp h
  obtain ⟨s₁, r₁, hdone, hmove⟩ := hi.call_move hvalid
  cases hcall.symm.trans hdone
  exact hmove

end LiteosM.Ramfs
