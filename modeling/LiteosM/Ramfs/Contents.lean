import LiteosM.Lib.ByteFile
import LiteosM.Lib.Transition
import LiteosM.Ramfs.Tree

/-!
# The contents of the files

The bytes of the files and the descriptors as an abstract model, and the calls
on the tree as steps of it.
-/

namespace LiteosM.Ramfs

open LiteosM.Lib.ByteFile LiteosM.Lib.Transition LiteosM.Lib.SiblingTree

def blockBytes : Option Block → List UInt8
  | none => []
  | some block => block.bytes

/-- What an element stores. A directory and memory that is not an element store nothing. -/
def bytesOf (s : RamfsState) (e : Nat) : List UInt8 :=
  if e ∈ s.live then blockBytes (contentOf s e) else []

/-- The files and descriptors as lists of bytes with offsets. -/
def bytesView (s : RamfsState) : ByteFiles Nat Nat UInt8 where
  bytes := bytesOf s
  desc := fun fd =>
    if fd ∈ s.openFiles then some ((s.file fd).fData, (s.file fd).fOffset.toNat) else none

def seekPlace (pos : Int) (size : Nat) : Nat := min pos.toNat size

/-- What a call may do to files of bytes, and what it returns. -/
inductive ByteStep (B : ByteFiles Nat Nat UInt8) :
    RamfsOp → RamfsResult → ByteFiles Nat Nat UInt8 → Prop
  | refused {op : RamfsOp} (hop : ¬ op.OnData) : ByteStep B op (status (-1)) B
  | opened {fd flags f : Nat} {path : List Char} {mem : Option Nat} (hno : B.desc fd = none) :
      ByteStep B (.open fd path flags mem) (status 0)
        (B.setDesc fd (some (f, if flags &&& oAppend ≠ 0 then (B.bytes f).length else 0)))
  | closed {fd : Nat} : ByteStep B (.close fd) (status 0) (B.setDesc fd none)
  | read {fd addr n f offset : Nat} (hdesc : B.desc fd = some (f, offset)) :
      ByteStep B (.read fd addr n)
        { ret := (readAt (B.bytes f) offset n).length, buff := readAt (B.bytes f) offset n, dent := none }
        (B.setDesc fd (some (f, offset + (readAt (B.bytes f) offset n).length)))
  | wrote {fd f offset : Nat} {buff : Block} {mem : Option Block} {data : List UInt8}
      (hdesc : B.desc fd = some (f, offset))
      (hdata : data = buff.bytes ∨ data <+: buff.bytes ∧ 0 < data.length ∧
        offset + data.length = (B.bytes f).length) :
      ByteStep B (.write fd buff mem) (status data.length)
        ((B.setBytes f (writeAt (B.bytes f) offset data)).setDesc fd (some (f, offset + data.length)))
  | full {fd f offset : Nat} {buff : Block} {mem : Option Block} (hdesc : B.desc fd = some (f, offset))
      (hend : offset = (B.bytes f).length) (hne : buff.bytes ≠ []) :
      ByteStep B (.write fd buff mem) (status (-1)) B
  | sought {fd f offset whence : Nat} {off pos : Int} (hdesc : B.desc fd = some (f, offset))
      (hpos : seekTo offset (B.bytes f).length off whence = some pos) :
      ByteStep B (.lseek fd off whence) (status (seekPlace pos (B.bytes f).length))
        (B.setDesc fd (some (f, seekPlace pos (B.bytes f).length)))
  | badWhence {fd whence : Nat} {off : Int} (hwhence : 2 < whence) :
      ByteStep B (.lseek fd off whence) (status (-1)) B
  | unlinked {f : Nat} {path : List Char} (hno : ∀ fd offset, B.desc fd ≠ some (f, offset)) :
      ByteStep B (.unlink path) (status 0) (B.setBytes f [])
  | renamed {pathOld pathNew : List Char} : ByteStep B (.rename pathOld pathNew) (status 0) B
  | opendir {d : Nat} {path : List Char} : ByteStep B (.opendir d path) (status 0) B
  | readdir {d : Nat} {r : RamfsResult} : ByteStep B (.readdir d) r B
  | closedir {d : Nat} : ByteStep B (.closedir d) (status 0) B
  | mkdir {path : List Char} {mem : Option Nat} : ByteStep B (.mkdir path mem) (status 0) B

def sizeOf (s : RamfsState) (e : Nat) : Nat :=
  match (s.element e).body with
  | .file size _ => size
  | .dir _ => 0

/-- The comparison of `ramfs_lseek`, cut to 32 bits, agrees with the one on the whole offset. -/
def SeekInRange (s : RamfsState) : RamfsOp → Prop
  | .lseek fd off whence =>
      ∀ pos ∈ seekTo (s.file fd).fOffset (sizeOf s (s.file fd).fData) off whence,
        pos < 4294967296 ∨ sizeOf s (s.file fd).fData < sizeT pos
  | _ => True

instance (s : RamfsState) : (op : RamfsOp) → Decidable (SeekInRange s op)
  | .lseek fd off whence =>
    inferInstanceAs (Decidable (∀ pos ∈ seekTo (s.file fd).fOffset (sizeOf s (s.file fd).fData) off whence,
      pos < 4294967296 ∨ sizeOf s (s.file fd).fData < sizeT pos))
  | .open .. | .close _ | .read .. | .write .. | .unlink _ | .rename .. | .opendir .. | .readdir _
  | .closedir _ | .mkdir .. => isTrue trivial

def FileFits (size : Nat) : Option Block → Prop
  | none => size = 0
  | some block => block.bytes.length = size ∧ InMemory block.addr size

structure ContentInv (s : RamfsState) : Prop where
  fits : ∀ e ∈ s.live, ∀ size content, (s.element e).body = .file size content → FileFits size content
  offset : ∀ fd ∈ s.openFiles, 0 ≤ (s.file fd).fOffset ∧
    (s.file fd).fOffset ≤ sizeOf s (s.file fd).fData

variable {s s' : RamfsState} {kids : Nat → List Nat} {fd d e a walk size : Nat} {content : Option Block}
  {r : RamfsResult} {op : RamfsOp}

theorem sizeT_of_lt {off : Int} (h0 : 0 ≤ off) (h : off < 4294967296) : sizeT off = off.toNat := by
  unfold sizeT
  rw [Int.emod_eq_of_lt h0 h]

theorem ssizeT_of_lt {n : Nat} (h : n < 2147483648) : ssizeT n = n := by
  unfold ssizeT
  apply Int.bmod_eq_of_le <;> omega

theorem clampOffset_of_nonneg {off : Int} (h : 0 ≤ off) : clampOffset off = off :=
  if_neg (Int.not_lt.mpr h)

theorem FileFits.length (h : FileFits size content) : (blockBytes content).length = size := by
  cases content with
  | none => exact h.symm
  | some block => exact h.1

theorem FileFits.lt (h : FileFits size content) : size < 4294967296 := by
  cases content with
  | none =>
    rw [show size = 0 from h]
    decide
  | some block =>
    obtain ⟨-, hpos, hend⟩ := h
    omega

theorem apart_lt {a n b m : Nat} (ha : InMemory a n) (hb : InMemory b m) (h : Apart a n b m) :
    n + m < 4294967296 := by
  obtain ⟨ha, ha'⟩ := ha
  obtain ⟨hb, hb'⟩ := hb
  obtain h | h := h
  · omega
  · omega

theorem FileFits.buffer (h : FileFits size content) {addr n : Nat} (hmem : InMemory addr n)
    (hapart : ∀ block ∈ content, Apart addr n block.addr block.bytes.length) :
    n + size < 4294967296 := by
  cases content with
  | none =>
    rw [show size = 0 from h]
    obtain ⟨hpos, hend⟩ := hmem
    omega
  | some block =>
    have hb := hapart block rfl
    rw [h.1] at hb
    exact apart_lt hmem h.2 hb

theorem contentOf_file (h : (s.element e).body = .file size content) : contentOf s e = content := by
  unfold contentOf
  rw [h]

theorem sizeOf_file (h : (s.element e).body = .file size content) : sizeOf s e = size := by
  unfold sizeOf
  rw [h]

theorem bytesOf_file (he : e ∈ s.live) (h : (s.element e).body = .file size content) :
    bytesOf s e = blockBytes content := by
  unfold bytesOf
  rw [if_pos he, contentOf_file h]

theorem bytesOf_nil (h : ∀ size content, e ∈ s.live → (s.element e).body ≠ .file size content) :
    bytesOf s e = [] := by
  unfold bytesOf
  split
  · rename_i he
    cases hbody : (s.element e).body with
    | file size content => exact absurd hbody (h size content he)
    | dir child =>
      unfold contentOf
      rw [hbody]
      rfl
  · rfl

/-- The files are the same, but for the ones in `gone` and new ones that are empty. -/
structure SameFiles (gone : Nat → Prop) (s s' : RamfsState) : Prop where
  old : ∀ x ∈ s.live, ¬ gone x → ∀ size content, (s.element x).body = .file size content →
    x ∈ s'.live ∧ (s'.element x).body = .file size content
  new : ∀ x ∈ s'.live, ∀ size content, (s'.element x).body = .file size content →
    ¬ gone x ∧ x ∈ s.live ∧ (s.element x).body = .file size content ∨
      x ∉ s.live ∧ size = 0 ∧ content = none

namespace SameFiles

variable {gone : Nat → Prop}

theorem of_body (hlive : s'.live = s.live) (h : ∀ x, (s'.element x).body = (s.element x).body) :
    SameFiles (fun _ => False) s s' where
  old x hx _ size content hbody := by
    rw [hlive, h]
    exact ⟨hx, hbody⟩
  new x hx size content hbody := by
    rw [hlive] at hx
    rw [h] at hbody
    exact Or.inl ⟨id, hx, hbody⟩

theorem bytesOf_old (h : SameFiles gone s s') (hx : ¬ gone e) : bytesOf s' e = bytesOf s e := by
  by_cases hfile : ∃ size content, e ∈ s.live ∧ (s.element e).body = .file size content
  · obtain ⟨size, content, hmem, hbody⟩ := hfile
    obtain ⟨hmem', hbody'⟩ := h.old e hmem hx size content hbody
    rw [bytesOf_file hmem hbody, bytesOf_file hmem' hbody']
  · have hnil : bytesOf s e = [] := bytesOf_nil fun size content hmem hbody =>
      hfile ⟨size, content, hmem, hbody⟩
    rw [hnil]
    unfold bytesOf
    split
    · rename_i hmem
      cases hbody : (s'.element e).body with
      | file size content =>
        obtain ⟨-, hmem', hbody'⟩ | ⟨-, -, hnone⟩ := h.new e hmem size content hbody
        · exact absurd ⟨size, content, hmem', hbody'⟩ hfile
        · rw [contentOf_file hbody, hnone]
          rfl
      | dir child =>
        unfold contentOf
        rw [hbody]
        rfl
    · rfl

theorem bytesOf_gone (h : SameFiles gone s s') (hx : gone e) (hmem : e ∈ s.live) : bytesOf s' e = [] := by
  apply bytesOf_nil
  intro size content hmem' hbody
  obtain ⟨hno, -⟩ | ⟨hno, -⟩ := h.new e hmem' size content hbody
  · exact hno hx
  · exact hno hmem

theorem contentInv (h : SameFiles gone s s') (hi : RamfsInv s kids) (hc : ContentInv s)
    (hgone : ∀ fd ∈ s.openFiles, ¬ gone (s.file fd).fData)
    (hfiles : ∀ fd ∈ s'.openFiles, fd ∈ s.openFiles ∧ s'.file fd = s.file fd ∨
      0 ≤ (s'.file fd).fOffset ∧ (s'.file fd).fOffset ≤ sizeOf s' (s'.file fd).fData) :
    ContentInv s' where
  fits x hx size content hbody := by
    obtain ⟨-, hmem, hold⟩ | ⟨-, hsize, hnone⟩ := h.new x hx size content hbody
    · exact hc.fits x hmem size content hold
    · rw [hsize, hnone]
      rfl
  offset fd hfd := by
    obtain ⟨hmem, heq⟩ | hnew := hfiles fd hfd
    · rw [heq]
      obtain ⟨hlive, size, content, hbody⟩ := hi.files fd hmem
      obtain ⟨-, hbody'⟩ := h.old _ hlive (hgone fd hmem) size content hbody
      have hoff := hc.offset fd hmem
      rw [sizeOf_file hbody] at hoff
      rw [sizeOf_file hbody']
      exact hoff
    · exact hnew

end SameFiles

theorem refsInc_body (x : Nat) : ((refsInc s e).element x).body = (s.element x).body := by
  show (Function.update s.element e _ x).body = _
  by_cases hx : x = e
  · rw [hx, Function.update_self]
  · rw [Function.update_of_ne hx]

theorem refsDec_body (x : Nat) : ((refsDec s e).element x).body = (s.element x).body := by
  show (Function.update s.element e _ x).body = _
  by_cases hx : x = e
  · rw [hx, Function.update_self]
  · rw [Function.update_of_ne hx]

theorem sameFiles_link {e' : RamfsElement} {child : Option Nat} (ha : a ∉ s.live)
    (hbody : (s.element walk).body = .dir child)
    (hnew : ∀ size content, e'.body = .file size content → size = 0 ∧ content = none) :
    SameFiles (fun _ => False) s (ramfsLink s walk a e') where
  old x hx _ size content hfile := by
    refine ⟨List.mem_cons_of_mem _ hx, ?_⟩
    show (Function.update (Function.update s.element walk _) a e' x).body = _
    rw [Function.update_of_ne (ne_of_mem_of_not_mem hx ha), Function.update_of_ne, hfile]
    intro h
    rw [h, hbody] at hfile
    cases hfile
  new x hx size content hfile := by
    obtain rfl | hx := List.mem_cons.mp hx
    · rw [ramfsLink_self] at hfile
      exact Or.inr ⟨ha, hnew size content hfile⟩
    · have hne : x ≠ a := ne_of_mem_of_not_mem hx ha
      refine Or.inl ⟨id, hx, ?_⟩
      have hfile' : (Function.update (Function.update s.element walk
          { s.element walk with body := .dir (some a) }) a e' x).body = .file size content := hfile
      rw [Function.update_of_ne hne] at hfile'
      by_cases hw : x = walk
      · rw [hw, Function.update_self] at hfile'
        cases hfile'
      · rw [Function.update_of_ne hw] at hfile'
        exact hfile'

theorem sameFiles_freed (h : Freed s s' e)
    (hbody : ∀ size content, (s.element e).body = .file size content → (s.element e).parent ≠ none) :
    SameFiles (· = e) s s' where
  old x hx hne size content hfile :=
    ⟨h.stays x hx hne, (h.body x ⟨size, content, hfile⟩).trans hfile⟩
  new x hx size content hfile := by
    have hmem := h.sub x hx
    have hold : (s.element x).body = .file size content := by
      cases hbody : (s.element x).body with
      | file size' content' =>
        have hsame := h.body x ⟨size', content', hbody⟩
        exact hbody.symm.trans (hsame.symm.trans hfile)
      | dir child =>
        obtain ⟨child', hdir⟩ := h.dir x ⟨child, hbody⟩
        rw [hdir] at hfile
        cases hfile
    refine Or.inl ⟨fun heq => ?_, hmem, hold⟩
    rw [heq] at hx hold
    exact h.gone (hbody size content hold) hx

theorem sameFiles_emptied
    (h : SameFiles (· = e) (s.setElement e { s.element e with body := .file size none }) s') :
    SameFiles (· = e) s s' := by
  have hother : ∀ x, x ≠ e →
      ((s.setElement e { s.element e with body := .file size none }).element x).body =
        (s.element x).body := by
    intro x hx
    show (Function.update s.element e _ x).body = _
    rw [Function.update_of_ne hx]
  constructor
  case old =>
    intro x hx hne n c hbody
    exact h.old x hx hne n c ((hother x hne).trans hbody)
  case new =>
    intro x hx n c hbody
    obtain ⟨hne, hmem, hold⟩ | hnew := h.new x hx n c hbody
    · exact Or.inl ⟨hne, hmem, (hother x hne).symm.trans hold⟩
    · exact Or.inr hnew

section desc

variable {file : RamfsFile}

theorem desc_same (hfile : s'.file = s.file) (hopen : s'.openFiles = s.openFiles) :
    (bytesView s').desc = (bytesView s).desc := by
  unfold bytesView
  rw [hfile, hopen]

theorem desc_open (hfile : s'.file = Function.update s.file fd file)
    (hopen : s'.openFiles = fd :: s.openFiles) : (bytesView s').desc =
      Function.update (bytesView s).desc fd (some (file.fData, file.fOffset.toNat)) := by
  funext g
  show (if g ∈ s'.openFiles then some ((s'.file g).fData, (s'.file g).fOffset.toNat) else none) = _
  rw [hfile, hopen]
  by_cases hg : g = fd
  · rw [hg, if_pos List.mem_cons_self, Function.update_self, Function.update_self]
  · rw [Function.update_of_ne hg, Function.update_of_ne hg]
    show _ = if g ∈ s.openFiles then _ else _
    by_cases hmem : g ∈ s.openFiles
    · rw [if_pos hmem, if_pos (List.mem_cons_of_mem _ hmem)]
    · rw [if_neg hmem, if_neg (fun h => (List.mem_cons.mp h).elim hg hmem)]

theorem desc_set (hfile : s'.file = Function.update s.file fd file) (hopen : s'.openFiles = s.openFiles)
    (hfd : fd ∈ s.openFiles) : (bytesView s').desc =
      Function.update (bytesView s).desc fd (some (file.fData, file.fOffset.toNat)) := by
  funext g
  show (if g ∈ s'.openFiles then some ((s'.file g).fData, (s'.file g).fOffset.toNat) else none) = _
  rw [hfile, hopen]
  by_cases hg : g = fd
  · rw [hg, if_pos hfd, Function.update_self, Function.update_self]
  · rw [Function.update_of_ne hg, Function.update_of_ne hg]
    rfl

theorem desc_close (hfile : s'.file = s.file) (hopen : s'.openFiles = s.openFiles.erase fd)
    (honce : s.openFiles.Nodup) :
    (bytesView s').desc = Function.update (bytesView s).desc fd none := by
  funext g
  show (if g ∈ s'.openFiles then some ((s'.file g).fData, (s'.file g).fOffset.toNat) else none) = _
  rw [hfile, hopen]
  by_cases hg : g = fd
  · rw [hg, if_neg fun h => (honce.mem_erase_iff.mp h).1 rfl, Function.update_self]
  · rw [Function.update_of_ne hg]
    show _ = if g ∈ s.openFiles then _ else _
    by_cases hmem : g ∈ s.openFiles
    · rw [if_pos hmem, if_pos (honce.mem_erase_iff.mpr ⟨hg, hmem⟩)]
    · rw [if_neg hmem, if_neg fun h => hmem (List.mem_of_mem_erase h)]

end desc

theorem view_eq {B : ByteFiles Nat Nat UInt8} (hbytes : bytesOf s = B.bytes)
    (hdesc : (bytesView s).desc = B.desc) : bytesView s = B := by
  cases B with
  | mk bytes desc =>
    rw [← show bytesOf s = bytes from hbytes, ← show (bytesView s).desc = desc from hdesc]
    rfl

theorem SameFiles.bytes (h : SameFiles (fun _ => False) s s') : bytesOf s' = bytesOf s := by
  funext x
  exact h.bytesOf_old id

theorem SameFiles.bytes_gone (h : SameFiles (· = e) s s') (he : e ∈ s.live) :
    bytesOf s' = Function.update (bytesOf s) e [] := by
  funext x
  by_cases hx : x = e
  · rw [hx, Function.update_self]
    exact h.bytesOf_gone rfl he
  · rw [Function.update_of_ne hx]
    exact h.bytesOf_old hx

theorem SameFiles.keep (h : SameFiles (fun _ => False) s s') (hi : RamfsInv s kids) (hc : ContentInv s)
    (hfile : s'.file = s.file) (hopen : s'.openFiles = s.openFiles) :
    ContentInv s' ∧ bytesView s' = bytesView s := by
  refine ⟨h.contentInv hi hc (fun _ _ => id) fun fd hfd => ?_, view_eq h.bytes (desc_same hfile hopen)⟩
  rw [hopen] at hfd
  exact Or.inl ⟨hfd, by rw [hfile]⟩

theorem SameFiles.free (h : SameFiles (· = e) s s') (hi : RamfsInv s kids) (hc : ContentInv s)
    (he : e ∈ s.live) (hrefs : (s.element e).refs = 0) (hfile : s'.file = s.file)
    (hopen : s'.openFiles = s.openFiles) :
    ContentInv s' ∧ bytesView s' = (bytesView s).setBytes e [] ∧
      ∀ fd offset, (bytesView s).desc fd ≠ some (e, offset) := by
  have hidle := (hi.no_handle he hrefs).1
  refine ⟨h.contentInv hi hc hidle fun fd hfd => ?_,
    view_eq (h.bytes_gone he) (desc_same hfile hopen), fun fd offset hdesc => ?_⟩
  · rw [hopen] at hfd
    exact Or.inl ⟨hfd, by rw [hfile]⟩
  · have hdesc' : (if fd ∈ s.openFiles then some ((s.file fd).fData, (s.file fd).fOffset.toNat)
        else none) = some (e, offset) := hdesc
    split at hdesc'
    · rename_i hfd
      cases hdesc'
      exact hidle fd hfd rfl
    · cases hdesc'

theorem SameFiles.opens {offset : Nat} (h : SameFiles (fun _ => False) s s') (hi : RamfsInv s kids)
    (hc : ContentInv s) (hfd : HandleOk s.openFiles fd)
    (hfile : s'.file = Function.update s.file fd { fOffset := offset, fData := e })
    (hopen : s'.openFiles = fd :: s.openFiles) (hle : offset ≤ sizeOf s' e) :
    ContentInv s' ∧ bytesView s' = (bytesView s).setDesc fd (some (e, offset)) := by
  refine ⟨h.contentInv hi hc (fun _ _ => id) fun g hg => ?_, view_eq h.bytes (desc_open hfile hopen)⟩
  rw [hopen] at hg
  obtain rfl | hmem := List.mem_cons.mp hg
  · refine Or.inr ?_
    rw [hfile, Function.update_self]
    exact ⟨Int.natCast_nonneg offset, Int.ofNat_le.mpr hle⟩
  · refine Or.inl ⟨hmem, ?_⟩
    rw [hfile]
    exact Function.update_of_ne (ne_of_mem_of_not_mem hmem hfd.2.2) _ _

theorem no_desc (hfd : HandleOk s.openFiles fd) : (bytesView s).desc fd = none := if_neg hfd.2.2

theorem Move.bytes (hi : RamfsInv s kids) (hc : ContentInv s) (hop : ¬ op.OnData)
    (hm : Move s kids op s' r) :
    ContentInv s' ∧ ByteStep (bytesView s) op r (bytesView s') := by
  cases hm with
  | refused hop => exact ⟨hc, .refused hop⟩
  | @opened fd e flags size path mem content hfd he hbody =>
    have hlen : ((bytesView s).bytes e).length = size := by
      show (bytesOf s e).length = size
      rw [bytesOf_file he hbody]
      exact (hc.fits e he size content hbody).length
    have hsize : sizeOf (withFile s fd e (if flags &&& oAppend ≠ 0 then size else 0)) e = size :=
      sizeOf_file ((refsInc_body e).trans hbody)
    have hsame : SameFiles (fun _ => False) s
        (withFile s fd e (if flags &&& oAppend ≠ 0 then size else 0)) := .of_body rfl refsInc_body
    have hopens : ByteStep (bytesView s) (.open fd path flags mem) (status 0) _ :=
      .opened (f := e) (no_desc hfd)
    rw [hlen] at hopens
    by_cases hflag : flags &&& oAppend ≠ 0
    · rw [if_pos hflag] at hopens hsame hsize ⊢
      obtain ⟨hc', hview⟩ := hsame.opens hi hc hfd rfl rfl (Nat.le_of_eq hsize.symm)
      rw [hview]
      exact ⟨hc', hopens⟩
    · rw [if_neg hflag] at hopens hsame ⊢
      have hopened : ContentInv _ ∧
          bytesView (withFile s fd e 0) = (bytesView s).setDesc fd (some (e, 0)) :=
        hsame.opens hi hc hfd rfl rfl (Nat.zero_le _)
      rw [hopened.2]
      exact ⟨hopened.1, hopens⟩
  | @created fd walk a flags path name child hfd hm =>
    have hsame : SameFiles (fun _ => False) s (ramfsLink s walk a
        { name := name, sibling := child, parent := some walk, refs := 1, body := .file 0 none }) := by
      apply sameFiles_link hm.fresh hm.body
      intro size content h
      cases h
      exact ⟨rfl, rfl⟩
    have hsame' : SameFiles (fun _ => False) s { (ramfsLink s walk a
        { name := name, sibling := child, parent := some walk, refs := 1, body := .file 0 none }).setFile
          fd { fOffset := 0, fData := a } with openFiles := fd :: s.openFiles } :=
      ⟨hsame.old, hsame.new⟩
    have hnil : (bytesView s).bytes a = [] := bytesOf_nil fun _ _ hmem => absurd hmem hm.fresh
    have hopens : ByteStep (bytesView s) (.open fd path flags (some a)) (status 0) _ :=
      .opened (f := a) (no_desc hfd)
    rw [hnil, List.length_nil, ite_self] at hopens
    have hopened : ContentInv _ ∧ bytesView _ = (bytesView s).setDesc fd (some (a, 0)) :=
      hsame'.opens hi hc hfd rfl rfl (Nat.zero_le _)
    rw [hopened.2]
    exact ⟨hopened.1, hopens⟩
  | @closed fd hfd =>
    have hsame : SameFiles (fun _ => False) s (ramfsClose s fd).1 := .of_body rfl refsDec_body
    have hview : bytesView (ramfsClose s fd).1 = (bytesView s).setDesc fd none :=
      view_eq hsame.bytes (desc_close rfl rfl hi.openFiles.1)
    rw [hview]
    exact ⟨hsame.contentInv hi hc (fun _ _ => id)
      fun g hg => Or.inl ⟨List.mem_of_mem_erase hg, rfl⟩, .closed⟩
  | @unlinkedDir e path s' he hrefs hbody hinv hfreed =>
    have hsame : SameFiles (· = e) s s' := by
      apply sameFiles_freed hfreed
      intro size content h
      rw [hbody] at h
      cases h
    obtain ⟨hc', hview, hno⟩ := hsame.free hi hc he hrefs hfreed.file hfreed.openFiles
    rw [hview]
    exact ⟨hc', .unlinked hno⟩
  | @unlinkedFile e size content path s' he hrefs hbody hinv hfreed =>
    have hne : e ≠ s.root := by
      intro heq
      have hdir := hi.tree.root_dir
      rw [← heq, isFile_iff.mp ⟨size, content, hbody⟩] at hdir
      cases hdir
    obtain ⟨d, hd, hkid⟩ := hi.tree.has_parent e he hne
    have hparent : (s.element e).parent = some d := (hi.tree.kid d hd e hkid).2
    have hsame : SameFiles (· = e) s s' := by
      apply sameFiles_emptied
      apply sameFiles_freed hfreed
      intro _ _ _
      show (Function.update s.element e _ e).parent ≠ none
      rw [Function.update_self, hparent]
      exact Option.some_ne_none d
    obtain ⟨hc', hview, hno⟩ := hsame.free hi hc he hrefs hfreed.file hfreed.openFiles
    rw [hview]
    exact ⟨hc', .unlinked hno⟩
  | @renamed d e pathOld pathNew name hd he hname hnew =>
    have hbody : ∀ x, ((s.setElement e { s.element e with name := name }).element x).body =
        (s.element x).body := by
      intro x
      show (Function.update s.element e _ x).body = _
      by_cases hx : x = e
      · rw [hx, Function.update_self]
      · rw [Function.update_of_ne hx]
    have hsame : SameFiles (fun _ => False) s (s.setElement e { s.element e with name := name }) :=
      .of_body rfl hbody
    obtain ⟨hc', hview⟩ := hsame.keep hi hc rfl rfl
    rw [hview]
    exact ⟨hc', .renamed⟩
  | @opendir d e path hd he hdir =>
    have hsame : SameFiles (fun _ => False) s (withDir s d e) := .of_body rfl refsInc_body
    obtain ⟨hc', hview⟩ := hsame.keep hi hc rfl rfl
    rw [hview]
    exact ⟨hc', .opendir⟩
  | @closedir d hd =>
    have hsame : SameFiles (fun _ => False) s (ramfsClosedir s d).1 := .of_body rfl refsDec_body
    obtain ⟨hc', hview⟩ := hsame.keep hi hc rfl rfl
    rw [hview]
    exact ⟨hc', .closedir⟩
  | @mkdir walk a path name child hm =>
    have hsame : SameFiles (fun _ => False) s (ramfsLink s walk a
        { name := name, sibling := child, parent := some walk, refs := 0, body := .dir none }) := by
      apply sameFiles_link hm.fresh hm.body
      intro size content h
      cases h
    obtain ⟨hc', hview⟩ := hsame.keep hi hc rfl rfl
    rw [hview]
    exact ⟨hc', .mkdir⟩
  | data hdata _ => exact absurd hdata hop

end LiteosM.Ramfs
