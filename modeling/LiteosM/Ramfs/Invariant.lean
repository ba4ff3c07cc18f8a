import Mathlib.Data.List.Count
import LiteosM.Lib.Counting
import LiteosM.Ramfs.Walk

/-!
# The invariant of a mount point

The elements form a tree with different names in each directory, and `refs`
counts the handles open on an element.
-/

namespace LiteosM.Ramfs

open LiteosM.Lib.NextList LiteosM.Lib.Path LiteosM.Lib.SiblingTree LiteosM.Lib.Word32
open LiteosM.Lib.Counting

def NameOk (name : List Char) : Prop := name ≠ [] ∧ name.length < losMaxFileNameLen

def IsDir (e : RamfsElement) : Prop := ∃ child, e.body = .dir child

def IsFile (e : RamfsElement) : Prop := ∃ size content, e.body = .file size content

def handles (s : RamfsState) (e : Nat) : Nat :=
  s.openFiles.countP (fun fd => decide ((s.file fd).fData = e)) +
    s.openDirs.countP (fun d => decide ((s.dir d).dData = e))

structure RamfsInv (s : RamfsState) (kids : Nat → List Nat) : Prop where
  tree : IsTree s.node s.live s.root kids
  names : ∀ e ∈ s.live, e ≠ s.root → NameOk (s.element e).name
  files : ∀ fd ∈ s.openFiles, (s.file fd).fData ∈ s.live ∧ IsFile (s.element (s.file fd).fData)
  dirs : ∀ d ∈ s.openDirs, (s.dir d).dData ∈ s.live ∧ IsDir (s.element (s.dir d).dData)
  openFiles : s.openFiles.Nodup ∧ ∀ fd ∈ s.openFiles, 0 < fd ∧ fd < 4294967296
  openDirs : s.openDirs.Nodup ∧ ∀ d ∈ s.openDirs, 0 < d ∧ d < 4294967296
  refs : ∀ e ∈ s.live, (s.element e).refs = handles s e

variable {s s' : RamfsState} {kids : Nat → List Nat} {fd d e a walk : Nat} {path left name : List Char}

theorem nodup_lt {l : List Nat} (hl : l.Nodup) (hrange : ∀ x ∈ l, 0 < x ∧ x < 4294967296) :
    l.length < 4294967296 :=
  length_lt_of_injective (f := id) (x := 0) hl (fun _ _ _ _ h => h) (fun x hx => (hrange x hx).2)
    (by decide) fun x hx => Nat.ne_of_gt (hrange x hx).1

theorem HandleOk.cons {used : List Nat} (h : HandleOk used d)
    (hused : used.Nodup ∧ ∀ x ∈ used, 0 < x ∧ x < 4294967296) :
    (d :: used).Nodup ∧ ∀ x ∈ d :: used, 0 < x ∧ x < 4294967296 := by
  refine ⟨List.nodup_cons.mpr ⟨h.2.2, hused.1⟩, fun x hx => ?_⟩
  obtain rfl | hx := List.mem_cons.mp hx
  · exact ⟨h.1, h.2.1⟩
  · exact hused.2 x hx

theorem HandleOk.room {used : List Nat} {p : Nat → Bool} (h : HandleOk used d)
    (hused : used.Nodup ∧ ∀ x ∈ used, 0 < x ∧ x < 4294967296) : used.countP p + 1 < 4294967296 := by
  obtain ⟨hnodup, hrange⟩ := h.cons hused
  have hlen := nodup_lt hnodup hrange
  have hcount : used.countP p ≤ used.length := List.countP_le_length
  rw [List.length_cons] at hlen
  omega

namespace RamfsInv

theorem find (hi : RamfsInv s kids) (path : List Char) :
    ∃ r, ramfsFileFind s s.root path = some r ∧
      ∀ e left, r = some (e, left) → FindRight s kids s.root path e left := by
  apply ramfsFileFind_right hi.tree ?_ (path.length + 1) s.root path (Nat.lt_succ_self _) hi.tree.root_mem
  intro d hd x hx
  exact (hi.names x (hi.tree.kid d hd x hx).1 (hi.tree.kid_ne_root hd hx)).1

theorem not_dir (hi : RamfsInv s kids) (hfile : IsFile (s.element e)) :
    s.openDirs.countP (fun d => decide ((s.dir d).dData = e)) = 0 := by
  rw [List.countP_eq_zero]
  intro d hd h
  obtain ⟨child, hdir⟩ := (hi.dirs d hd).2
  obtain ⟨size, content, hbody⟩ := hfile
  rw [of_decide_eq_true h, hbody] at hdir
  cases hdir

theorem not_file (hi : RamfsInv s kids) (hdir : IsDir (s.element e)) :
    s.openFiles.countP (fun fd => decide ((s.file fd).fData = e)) = 0 := by
  rw [List.countP_eq_zero]
  intro fd hfd h
  obtain ⟨size, content, hbody⟩ := (hi.files fd hfd).2
  obtain ⟨child, hdir⟩ := hdir
  rw [of_decide_eq_true h, hdir] at hbody
  cases hbody

theorem files_lt (hi : RamfsInv s kids) (e : Nat) :
    s.openFiles.countP (fun fd => decide ((s.file fd).fData = e)) < 4294967296 :=
  Nat.lt_of_le_of_lt List.countP_le_length (nodup_lt hi.openFiles.1 hi.openFiles.2)

theorem dirs_lt (hi : RamfsInv s kids) (e : Nat) :
    s.openDirs.countP (fun d => decide ((s.dir d).dData = e)) < 4294967296 :=
  Nat.lt_of_le_of_lt List.countP_le_length (nodup_lt hi.openDirs.1 hi.openDirs.2)

theorem handles_lt (hi : RamfsInv s kids) (e : Nat) : handles s e < 4294967296 := by
  cases hbody : (s.element e).body with
  | file size content =>
    have hzero := hi.not_dir ⟨size, content, hbody⟩
    have hlt := hi.files_lt e
    unfold handles
    omega
  | dir child =>
    have hzero := hi.not_file ⟨child, hbody⟩
    have hlt := hi.dirs_lt e
    unfold handles
    omega

end RamfsInv

theorem setElement_node {e' : RamfsElement} (h : nodeOf e' = nodeOf (s.element a)) :
    (s.setElement a e').node = s.node := by
  funext x
  show nodeOf (Function.update s.element a e' x) = nodeOf (s.element x)
  by_cases hx : x = a
  · rw [hx, Function.update_self, h]
  · rw [Function.update_of_ne hx]

theorem setElement_refs {e' : RamfsElement} (h : e'.refs = (s.element a).refs) (x : Nat) :
    ((s.setElement a e').element x).refs = (s.element x).refs := by
  show (Function.update s.element a e' x).refs = _
  by_cases hx : x = a
  · rw [hx, Function.update_self, h]
  · rw [Function.update_of_ne hx]

theorem isDir_iff : IsDir (s.element e) ↔ ∃ child, (s.node e).child = some child :=
  exists_congr fun _ => childOf_dir.symm

theorem isFile_iff : IsFile (s.element e) ↔ (s.node e).child = none := by
  show _ ↔ childOf (s.element e).body = none
  cases hbody : (s.element e).body with
  | file size content => exact iff_of_true ⟨size, content, hbody⟩ rfl
  | dir child =>
    refine iff_of_false ?_ (fun h => by cases h)
    intro h
    obtain ⟨size, content, h⟩ := h
    rw [hbody] at h
    cases h

namespace RamfsInv

theorem rehandle (hi : RamfsInv s kids) (hnode : s'.node = s.node) (hlive : s'.live = s.live)
    (hroot : s'.root = s.root)
    (hfiles : ∀ fd ∈ s'.openFiles, (s'.file fd).fData ∈ s.live ∧ IsFile (s.element (s'.file fd).fData))
    (hdirs : ∀ d ∈ s'.openDirs, (s'.dir d).dData ∈ s.live ∧ IsDir (s.element (s'.dir d).dData))
    (hopen : s'.openFiles.Nodup ∧ ∀ fd ∈ s'.openFiles, 0 < fd ∧ fd < 4294967296)
    (hopen' : s'.openDirs.Nodup ∧ ∀ d ∈ s'.openDirs, 0 < d ∧ d < 4294967296)
    (hrefs : ∀ e ∈ s.live, (s'.element e).refs = handles s' e) : RamfsInv s' kids where
  tree := by
    rw [hnode, hlive, hroot]
    exact hi.tree
  names e he hne := by
    rw [hlive] at he
    rw [hroot] at hne
    show NameOk (s'.node e).name
    rw [hnode]
    exact hi.names e he hne
  files fd hfd := by
    rw [hlive, isFile_iff, hnode, ← isFile_iff]
    exact hfiles fd hfd
  dirs d hd := by
    rw [hlive, isDir_iff, hnode, ← isDir_iff]
    exact hdirs d hd
  openFiles := hopen
  openDirs := hopen'
  refs e he := by
    rw [hlive] at he
    exact hrefs e he

theorem same (hi : RamfsInv s kids) (hnode : s'.node = s.node) (hlive : s'.live = s.live)
    (hroot : s'.root = s.root) (hrefs : ∀ e, (s'.element e).refs = (s.element e).refs)
    (hfiles : s'.openFiles = s.openFiles) (hdirs : s'.openDirs = s.openDirs)
    (hdata : ∀ fd, (s'.file fd).fData = (s.file fd).fData)
    (hdata' : ∀ d, (s'.dir d).dData = (s.dir d).dData) : RamfsInv s' kids := by
  apply hi.rehandle hnode hlive hroot
  · intro fd hfd
    rw [hdata]
    rw [hfiles] at hfd
    exact hi.files fd hfd
  · intro d hd
    rw [hdata']
    rw [hdirs] at hd
    exact hi.dirs d hd
  · rw [hfiles]
    exact hi.openFiles
  · rw [hdirs]
    exact hi.openDirs
  · intro e he
    rw [hrefs, hi.refs e he]
    unfold handles
    simp only [hfiles, hdirs, hdata, hdata']

end RamfsInv

def withFile (s : RamfsState) (fd e : Nat) (offset : Int) : RamfsState :=
  { (refsInc s e).setFile fd { fOffset := offset, fData := e } with openFiles := fd :: s.openFiles }

def withDir (s : RamfsState) (d e : Nat) : RamfsState :=
  { (refsInc s e).setDir d { dOffset := 0, dData := e } with openDirs := d :: s.openDirs }

theorem handles_withFile {offset : Int} (hfd : fd ∉ s.openFiles) (x : Nat) :
    handles (withFile s fd e offset) x = handles s x + if e = x then 1 else 0 := by
  have hold : s.openFiles.countP
      (fun g => decide ((Function.update s.file fd { fOffset := offset, fData := e } g).fData = x)) =
      s.openFiles.countP (fun g => decide ((s.file g).fData = x)) :=
    List.countP_congr fun g hg => by rw [Function.update_of_ne (ne_of_mem_of_not_mem hg hfd)]
  show (fd :: s.openFiles).countP
      (fun g => decide ((Function.update s.file fd { fOffset := offset, fData := e } g).fData = x)) +
    s.openDirs.countP (fun d => decide ((s.dir d).dData = x)) = _
  rw [List.countP_cons, hold, Function.update_self]
  unfold handles
  simp only [decide_eq_true_eq]
  omega

theorem handles_withDir (hd : d ∉ s.openDirs) (x : Nat) :
    handles (withDir s d e) x = handles s x + if e = x then 1 else 0 := by
  have hold : s.openDirs.countP
      (fun g => decide ((Function.update s.dir d { dOffset := 0, dData := e } g).dData = x)) =
      s.openDirs.countP (fun g => decide ((s.dir g).dData = x)) :=
    List.countP_congr fun g hg => by rw [Function.update_of_ne (ne_of_mem_of_not_mem hg hd)]
  show s.openFiles.countP (fun fd => decide ((s.file fd).fData = x)) + (d :: s.openDirs).countP
      (fun g => decide ((Function.update s.dir d { dOffset := 0, dData := e } g).dData = x)) = _
  rw [List.countP_cons, hold, Function.update_self]
  unfold handles
  simp only [decide_eq_true_eq]
  omega

theorem nodeOf_refs {x : RamfsElement} {n : Nat} : nodeOf { x with refs := n } = nodeOf x := rfl

theorem refsInc_node : (refsInc s e).node = s.node := setElement_node nodeOf_refs

theorem refsDec_node : (refsDec s e).node = s.node := setElement_node nodeOf_refs

theorem refsInc_refs (x : Nat) (hroom : (s.element e).refs + 1 < 4294967296) :
    ((refsInc s e).element x).refs = (s.element x).refs + if e = x then 1 else 0 := by
  show (Function.update s.element e { s.element e with refs := add32 (s.element e).refs 1 } x).refs = _
  by_cases hx : x = e
  · subst hx
    rw [Function.update_self, if_pos rfl]
    exact add32_of_lt _ _ hroom
  · rw [Function.update_of_ne hx, if_neg (Ne.symm hx), Nat.add_zero]

theorem refsDec_refs (x : Nat) (hpos : 0 < (s.element e).refs)
    (hroom : (s.element e).refs < 4294967296) :
    ((refsDec s e).element x).refs = (s.element x).refs - if e = x then 1 else 0 := by
  show (Function.update s.element e { s.element e with refs := sub32 (s.element e).refs 1 } x).refs = _
  by_cases hx : x = e
  · subst hx
    rw [Function.update_self, if_pos rfl]
    exact sub32_of_le _ _ hpos hroom
  · rw [Function.update_of_ne hx, if_neg (Ne.symm hx), Nat.sub_zero]

namespace RamfsInv

theorem withFile {offset : Int} (hi : RamfsInv s kids) (he : e ∈ s.live) (hfile : IsFile (s.element e))
    (hfd : HandleOk s.openFiles fd) : RamfsInv (withFile s fd e offset) kids := by
  have hroom : (s.element e).refs + 1 < 4294967296 := by
    rw [hi.refs e he]
    unfold handles
    rw [hi.not_dir hfile]
    exact hfd.room hi.openFiles
  have hnode : (Ramfs.withFile s fd e offset).node = s.node := refsInc_node
  apply hi.rehandle hnode rfl rfl
  · intro g hg
    show (Function.update s.file fd _ g).fData ∈ _ ∧ IsFile (s.element (Function.update s.file fd _ g).fData)
    obtain rfl | hg := List.mem_cons.mp hg
    · rw [Function.update_self]
      exact ⟨he, hfile⟩
    · rw [Function.update_of_ne (ne_of_mem_of_not_mem hg hfd.2.2)]
      exact hi.files g hg
  · exact hi.dirs
  · exact hfd.cons hi.openFiles
  · exact hi.openDirs
  · intro x hx
    rw [handles_withFile hfd.2.2, ← hi.refs x hx]
    exact refsInc_refs x hroom

theorem withDir (hi : RamfsInv s kids) (he : e ∈ s.live) (hdir : IsDir (s.element e))
    (hd : HandleOk s.openDirs d) : RamfsInv (withDir s d e) kids := by
  have hroom : (s.element e).refs + 1 < 4294967296 := by
    rw [hi.refs e he]
    unfold handles
    rw [hi.not_file hdir, Nat.zero_add]
    exact hd.room hi.openDirs
  have hnode : (Ramfs.withDir s d e).node = s.node := refsInc_node
  apply hi.rehandle hnode rfl rfl
  · exact hi.files
  · intro g hg
    show (Function.update s.dir d _ g).dData ∈ _ ∧ IsDir (s.element (Function.update s.dir d _ g).dData)
    obtain rfl | hg := List.mem_cons.mp hg
    · rw [Function.update_self]
      exact ⟨he, hdir⟩
    · rw [Function.update_of_ne (ne_of_mem_of_not_mem hg hd.2.2)]
      exact hi.dirs g hg
  · exact hi.openFiles
  · exact hd.cons hi.openDirs
  · intro x hx
    rw [handles_withDir hd.2.2, ← hi.refs x hx]
    exact refsInc_refs x hroom

theorem ramfsClose (hi : RamfsInv s kids) (hfd : fd ∈ s.openFiles) :
    RamfsInv (ramfsClose s fd).1 kids := by
  obtain ⟨hlive, -⟩ := hi.files fd hfd
  have hpos : 0 < (s.element (s.file fd).fData).refs := by
    rw [hi.refs _ hlive]
    have hone : 0 < s.openFiles.countP (fun g => decide ((s.file g).fData = (s.file fd).fData)) :=
      List.countP_pos_iff.mpr ⟨fd, hfd, decide_eq_true rfl⟩
    exact Nat.lt_of_lt_of_le hone (Nat.le_add_right _ _)
  have hroom : (s.element (s.file fd).fData).refs < 4294967296 := by
    rw [hi.refs _ hlive]
    exact hi.handles_lt _
  have hnode : (Ramfs.ramfsClose s fd).1.node = s.node := refsDec_node
  apply hi.rehandle hnode rfl rfl
  · exact fun g hg => hi.files g (List.mem_of_mem_erase hg)
  · exact hi.dirs
  · exact ⟨hi.openFiles.1.erase fd, fun g hg => hi.openFiles.2 g (List.mem_of_mem_erase hg)⟩
  · exact hi.openDirs
  · intro x hx
    show ((refsDec s (s.file fd).fData).element x).refs =
      (s.openFiles.erase fd).countP (fun g => decide ((s.file g).fData = x)) +
        s.openDirs.countP (fun d => decide ((s.dir d).dData = x))
    rw [refsDec_refs x hpos hroom, hi.refs x hx, List.countP_erase]
    have hcount : (s.file fd).fData = x →
        0 < s.openFiles.countP (fun g => decide ((s.file g).fData = x)) :=
      fun h => List.countP_pos_iff.mpr ⟨fd, hfd, decide_eq_true h⟩
    unfold handles
    by_cases hx : (s.file fd).fData = x
    · have hpos := hcount hx
      rw [if_pos hx, if_pos ⟨hfd, decide_eq_true hx⟩]
      omega
    · rw [if_neg hx, if_neg fun h => hx (of_decide_eq_true h.2)]
      omega

theorem ramfsClosedir (hi : RamfsInv s kids) (hd : d ∈ s.openDirs) :
    RamfsInv (ramfsClosedir s d).1 kids := by
  obtain ⟨hlive, -⟩ := hi.dirs d hd
  have hpos : 0 < (s.element (s.dir d).dData).refs := by
    rw [hi.refs _ hlive]
    have hone : 0 < s.openDirs.countP (fun g => decide ((s.dir g).dData = (s.dir d).dData)) :=
      List.countP_pos_iff.mpr ⟨d, hd, decide_eq_true rfl⟩
    exact Nat.lt_of_lt_of_le hone (Nat.le_add_left _ _)
  have hroom : (s.element (s.dir d).dData).refs < 4294967296 := by
    rw [hi.refs _ hlive]
    exact hi.handles_lt _
  have hnode : (Ramfs.ramfsClosedir s d).1.node = s.node := refsDec_node
  apply hi.rehandle hnode rfl rfl
  · exact hi.files
  · exact fun g hg => hi.dirs g (List.mem_of_mem_erase hg)
  · exact hi.openFiles
  · exact ⟨hi.openDirs.1.erase d, fun g hg => hi.openDirs.2 g (List.mem_of_mem_erase hg)⟩
  · intro x hx
    show ((refsDec s (s.dir d).dData).element x).refs =
      s.openFiles.countP (fun g => decide ((s.file g).fData = x)) +
        (s.openDirs.erase d).countP (fun g => decide ((s.dir g).dData = x))
    rw [refsDec_refs x hpos hroom, hi.refs x hx, List.countP_erase]
    have hcount : (s.dir d).dData = x →
        0 < s.openDirs.countP (fun g => decide ((s.dir g).dData = x)) :=
      fun h => List.countP_pos_iff.mpr ⟨d, hd, decide_eq_true h⟩
    unfold handles
    by_cases hx : (s.dir d).dData = x
    · have hpos := hcount hx
      rw [if_pos hx, if_pos ⟨hd, decide_eq_true hx⟩]
      omega
    · rw [if_neg hx, if_neg fun h => hx (of_decide_eq_true h.2)]
      omega

theorem handles_zero (hi : RamfsInv s kids) (ha : a ∉ s.live) : handles s a = 0 := by
  have hfiles : s.openFiles.countP (fun fd => decide ((s.file fd).fData = a)) = 0 :=
    List.countP_eq_zero.mpr fun fd hfd h => ha (of_decide_eq_true h ▸ (hi.files fd hfd).1)
  have hdirs : s.openDirs.countP (fun d => decide ((s.dir d).dData = a)) = 0 :=
    List.countP_eq_zero.mpr fun d hd h => ha (of_decide_eq_true h ▸ (hi.dirs d hd).1)
  unfold handles
  omega

theorem no_handle (hi : RamfsInv s kids) (he : e ∈ s.live) (hrefs : (s.element e).refs = 0) :
    (∀ fd ∈ s.openFiles, (s.file fd).fData ≠ e) ∧ ∀ d ∈ s.openDirs, (s.dir d).dData ≠ e := by
  rw [hi.refs e he] at hrefs
  unfold handles at hrefs
  obtain ⟨hfiles, hdirs⟩ := Nat.add_eq_zero_iff.mp hrefs
  constructor
  · intro fd hfd h
    exact List.countP_eq_zero.mp hfiles fd hfd (decide_eq_true h)
  · intro d hd h
    exact List.countP_eq_zero.mp hdirs d hd (decide_eq_true h)

theorem retree {kids' : Nat → List Nat} (hi : RamfsInv s kids)
    (htree : IsTree s'.node s'.live s'.root kids')
    (hnames : ∀ e ∈ s'.live, e ≠ s'.root → NameOk (s'.element e).name)
    (hfile : s'.file = s.file) (hfiles : s'.openFiles = s.openFiles) (hdir : s'.dir = s.dir)
    (hdirs : s'.openDirs = s.openDirs)
    (hlive : ∀ e ∈ s.live, (s.element e).refs ≠ 0 → e ∈ s'.live)
    (hkind : ∀ e ∈ s.live, ((s'.node e).child = none ↔ (s.node e).child = none))
    (hrefs : ∀ e ∈ s'.live, (s'.element e).refs = handles s e) : RamfsInv s' kids' where
  tree := htree
  names := hnames
  files fd hfd := by
    rw [hfiles] at hfd
    rw [hfile]
    obtain ⟨hmem, hisFile⟩ := hi.files fd hfd
    refine ⟨hlive _ hmem fun h => (hi.no_handle hmem h).1 fd hfd rfl, ?_⟩
    exact isFile_iff.mpr ((hkind _ hmem).mpr (isFile_iff.mp hisFile))
  dirs d hd := by
    rw [hdirs] at hd
    rw [hdir]
    obtain ⟨hmem, hisDir⟩ := hi.dirs d hd
    refine ⟨hlive _ hmem fun h => (hi.no_handle hmem h).2 d hd rfl, ?_⟩
    obtain ⟨child, hchild⟩ := isDir_iff.mp hisDir
    refine isDir_iff.mpr (Option.ne_none_iff_exists'.mp fun hnone => ?_)
    rw [(hkind _ hmem).mp hnone] at hchild
    cases hchild
  openFiles := by
    rw [hfiles]
    exact hi.openFiles
  openDirs := by
    rw [hdirs]
    exact hi.openDirs
  refs e he := by
    rw [hrefs e he]
    unfold handles
    rw [hfile, hfiles, hdir, hdirs]

end RamfsInv

end LiteosM.Ramfs
