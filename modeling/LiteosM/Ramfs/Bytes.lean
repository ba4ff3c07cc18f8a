import LiteosM.Ramfs.Contents

/-!
# Reading and writing

The files of a mount point refine lists of bytes, as long as no seek goes past
`2 ^ 32` to a place that `(size_t)` maps into the file.
-/

namespace LiteosM.Ramfs

open LiteosM.Lib.ByteFile LiteosM.Lib.Transition

variable {s s' : RamfsState} {kids : Nat → List Nat} {fd e size : Nat} {content : Option Block}
  {r : RamfsResult} {op : RamfsOp}

/-- A descriptor of the file `e` at an offset. -/
structure OpenAt (s : RamfsState) (fd e size : Nat) (content : Option Block) (offset : Nat) : Prop where
  mem : fd ∈ s.openFiles
  file : s.file fd = { fOffset := offset, fData := e }
  live : e ∈ s.live
  body : (s.element e).body = .file size content
  fits : FileFits size content
  le : offset ≤ size

theorem openAt (hi : RamfsInv s kids) (hc : ContentInv s) (hfd : fd ∈ s.openFiles) :
    ∃ e size content offset, OpenAt s fd e size content offset := by
  obtain ⟨hlive, size, content, hbody⟩ := hi.files fd hfd
  obtain ⟨hpos, hle⟩ := hc.offset fd hfd
  obtain ⟨offset, hoff⟩ := Int.eq_ofNat_of_zero_le hpos
  rw [sizeOf_file hbody] at hle
  refine ⟨_, size, content, offset, hfd, ?_, hlive, hbody, hc.fits _ hlive size content hbody, by omega⟩
  cases hfile : s.file fd with
  | mk fOffset fData =>
    rw [hfile] at hoff
    rw [show fOffset = _ from hoff]

namespace OpenAt

variable {offset : Nat}

theorem desc (h : OpenAt s fd e size content offset) : (bytesView s).desc fd = some (e, offset) := by
  show (if fd ∈ s.openFiles then _ else _) = _
  rw [if_pos h.mem, h.file]
  rfl

theorem bytes (h : OpenAt s fd e size content offset) : (bytesView s).bytes e = blockBytes content :=
  bytesOf_file h.live h.body

theorem length (h : OpenAt s fd e size content offset) : ((bytesView s).bytes e).length = size := by
  rw [h.bytes]
  exact h.fits.length

theorem clamp (h : OpenAt s fd e size content offset) : sizeT (clampOffset offset) = offset := by
  have hlt := h.fits.lt
  have hle := h.le
  rw [clampOffset_of_nonneg (Int.natCast_nonneg offset), sizeT_of_lt (by omega) (by omega)]
  rfl

theorem move {place : Nat} (h : OpenAt s fd e size content offset) (hc : ContentInv s) (hle : place ≤ size) :
    ContentInv (s.setFile fd { fOffset := place, fData := e }) ∧
      bytesView (s.setFile fd { fOffset := place, fData := e }) =
        (bytesView s).setDesc fd (some (e, place)) := by
  have hfile : (s.setFile fd { fOffset := place, fData := e }).file =
      Function.update s.file fd { fOffset := place, fData := e } := rfl
  refine ⟨⟨hc.fits, fun g hg => ?_⟩, view_eq rfl (desc_set hfile rfl h.mem)⟩
  show 0 ≤ (Function.update s.file fd _ g).fOffset ∧
    (Function.update s.file fd _ g).fOffset ≤ (sizeOf s (Function.update s.file fd _ g).fData : Int)
  by_cases hgfd : g = fd
  · rw [hgfd, Function.update_self, sizeOf_file h.body]
    exact ⟨Int.natCast_nonneg place, Int.ofNat_le.mpr hle⟩
  · rw [Function.update_of_ne hgfd]
    exact hc.offset g hg

theorem store {size' place : Nat} {content' : Option Block} (h : OpenAt s fd e size content offset)
    (hi : RamfsInv s kids) (hc : ContentInv s) (hfits : FileFits size' content') (hsize : size ≤ size')
    (hle : place ≤ size') :
    ContentInv ((s.setElement e { s.element e with body := .file size' content' }).setFile fd
        { fOffset := place, fData := e }) ∧
      bytesView ((s.setElement e { s.element e with body := .file size' content' }).setFile fd
        { fOffset := place, fData := e }) =
        ((bytesView s).setBytes e (blockBytes content')).setDesc fd (some (e, place)) := by
  have hself : ((s.setElement e { s.element e with body := .file size' content' }).element e).body =
      .file size' content' := by
    show (Function.update s.element e _ e).body = _
    rw [Function.update_self]
  have hother : ∀ x, x ≠ e →
      ((s.setElement e { s.element e with body := .file size' content' }).element x).body =
        (s.element x).body := by
    intro x hx
    show (Function.update s.element e _ x).body = _
    rw [Function.update_of_ne hx]
  have hc' : ContentInv (s.setElement e { s.element e with body := .file size' content' }) := by
    constructor
    case fits =>
      intro x hx n c hbody
      by_cases hxe : x = e
      · rw [hxe, hself] at hbody
        cases hbody
        exact hfits
      · exact hc.fits x hx n c ((hother x hxe).symm.trans hbody)
    case offset =>
      intro g hg
      have hold := hc.offset g hg
      obtain ⟨hlive, n, c, hbody⟩ := hi.files g hg
      rw [sizeOf_file hbody] at hold
      show 0 ≤ (s.file g).fOffset ∧ (s.file g).fOffset ≤
        (sizeOf (s.setElement e { s.element e with body := .file size' content' }) (s.file g).fData : Int)
      by_cases hge : (s.file g).fData = e
      · rw [hge, sizeOf_file hself]
        rw [hge, h.body] at hbody
        cases hbody
        omega
      · rw [sizeOf_file ((hother _ hge).trans hbody)]
        exact hold
  have hbytes : bytesOf (s.setElement e { s.element e with body := .file size' content' }) =
      Function.update (bytesOf s) e (blockBytes content') := by
    funext x
    by_cases hx : x = e
    · rw [hx, Function.update_self]
      exact bytesOf_file h.live hself
    · rw [Function.update_of_ne hx]
      unfold bytesOf contentOf
      rw [hother x hx]
      rfl
  have hopen : OpenAt (s.setElement e { s.element e with body := .file size' content' }) fd e size'
      content' offset := ⟨h.mem, h.file, h.live, hself, hfits, Nat.le_trans h.le hsize⟩
  obtain ⟨hmoved, hview⟩ := hopen.move hc' hle
  refine ⟨hmoved, hview.trans ?_⟩
  congr 1
  exact view_eq hbytes rfl

theorem room {addr n : Nat} (h : OpenAt s fd e size content offset) (hbuff : BufferOk s fd addr n) :
    n + size < 4294967296 := by
  have hcontent : contentOf s (s.file fd).fData = content := by
    rw [h.file]
    exact contentOf_file h.body
  obtain ⟨hmem, hapart⟩ := hbuff
  rw [hcontent] at hapart
  exact h.fits.buffer hmem hapart

end OpenAt

theorem bytesAt_eq {offset : Int} {n : Nat} :
    bytesAt content offset n = ((blockBytes content).drop (sizeT offset)).take n := by
  cases content with
  | none =>
    show [] = ([].drop _).take n
    rw [List.drop_nil, List.take_nil]
  | some block => rfl

theorem storeAt_bytes (content : Option Block) {offset : Nat} (data : List UInt8) (hlt : offset < 4294967296)
    (h : content = none → data = []) :
    blockBytes (storeAt content offset data) = writeAt (blockBytes content) offset data := by
  have hoff : sizeT (offset : Int) = offset := by
    rw [sizeT_of_lt (by omega) (by omega)]
    rfl
  cases content with
  | none =>
    rw [h rfl]
    show [] = writeAt [] offset []
    unfold writeAt
    rw [List.take_nil, List.drop_nil]
    rfl
  | some block =>
    unfold storeAt
    rw [hoff]
    rfl

theorem readCount {offset n : Nat} (hle : offset ≤ size) (hlt : size < 4294967296) :
    (if (size : Int) - offset < n then sizeT ((size : Int) - offset) else n) = min n (size - offset) := by
  split
  · rw [sizeT_of_lt (by omega) (by omega)]
    omega
  · omega

theorem ramfsRead_bytes {addr n : Nat} (hi : RamfsInv s kids) (hc : ContentInv s)
    (hvalid : (RamfsOp.read fd addr n).Valid s) (h : ramfsRead s fd n = some (s', r)) :
    ContentInv s' ∧ ByteStep (bytesView s) (.read fd addr n) r (bytesView s') := by
  obtain ⟨e, size, content, offset, ho⟩ := openAt hi hc hvalid.1
  have hlt := ho.fits.lt
  have hle := ho.le
  have hstep : ByteStep (bytesView s) (.read fd addr n) _ _ := .read ho.desc
  have hlen : (readAt ((bytesView s).bytes e) offset n).length = min n (size - offset) := by
    rw [readAt_length, ho.length]
  unfold ramfsRead at h
  dsimp only at h
  rw [ho.file] at h
  dsimp only at h
  rw [ho.body] at h
  dsimp only at h
  rw [ho.clamp, clampOffset_of_nonneg (Int.natCast_nonneg offset), readCount hle hlt] at h
  obtain ⟨hc', hview⟩ := ho.move hc (show offset + min n (size - offset) ≤ size by omega)
  by_cases hend : size ≤ offset
  · rw [if_pos hend] at h
    cases h
    have hnone : min n (size - offset) = 0 := by omega
    rw [hnone] at hc' hview hlen
    rw [List.length_eq_zero_iff.mp hlen] at hstep
    have hsame : bytesView (s.setFile fd { fOffset := offset, fData := e }) =
        (bytesView s).setDesc fd (some (e, offset + 0)) := hview
    rw [hsame]
    exact ⟨hc', hstep⟩
  · rw [if_neg hend] at h
    cases h
    have hbuff : bytesAt content (offset : Int) (min n (size - offset)) =
        readAt ((bytesView s).bytes e) offset n := by
      have hoff := ho.clamp
      rw [clampOffset_of_nonneg (Int.natCast_nonneg offset)] at hoff
      have hdrop : ((blockBytes content).drop offset).length = size - offset := by
        rw [List.length_drop, ho.fits.length]
      rw [bytesAt_eq, hoff, ho.bytes]
      unfold readAt
      rw [← List.take_take, ← hdrop, List.take_length]
    have hroom := ho.room hvalid.2
    rw [hbuff, ssizeT_of_lt (by omega), ← hlen]
    rw [← hlen] at hview hc'
    have hmoved : bytesView (s.setFile fd
        { fOffset := (offset : Int) + (readAt ((bytesView s).bytes e) offset n).length, fData := e }) = _ :=
      hview
    rw [hmoved]
    exact ⟨hc', hstep⟩

/-- The place a seek comes to when its comparison is not misled. -/
theorem seek_place {pos : Int} (hlt : size < 4294967296)
    (hrange : pos < 4294967296 ∨ size < sizeT pos) :
    (if size < sizeT (clampOffset pos) then (size : Int) else clampOffset pos) = seekPlace pos size := by
  unfold seekPlace
  obtain hneg | hpos := Int.lt_or_le pos 0
  · rw [show clampOffset pos = 0 from if_pos hneg, sizeT_of_lt (by omega) (by omega)]
    rw [if_neg (by omega)]
    omega
  · rw [clampOffset_of_nonneg hpos]
    obtain hsmall | hbig := Int.lt_or_le pos 4294967296
    · rw [sizeT_of_lt hpos hsmall]
      split
      · omega
      · omega
    · have hcut : size < sizeT pos := hrange.resolve_left (by omega)
      rw [if_pos hcut]
      omega

theorem ramfsLseek_bytes {off : Int} {whence : Nat} (hi : RamfsInv s kids) (hc : ContentInv s)
    (hvalid : (RamfsOp.lseek fd off whence).Valid s) (hrange : SeekInRange s (.lseek fd off whence))
    (h : ramfsLseek s fd off whence = some (s', r)) :
    ContentInv s' ∧ ByteStep (bytesView s) (.lseek fd off whence) r (bytesView s') := by
  obtain ⟨e, size, content, offset, ho⟩ := openAt hi hc hvalid.1
  have hrange' : ∀ pos, seekTo offset size off whence = some pos →
      pos < 4294967296 ∨ size < sizeT pos := by
    intro pos hpos
    have hcond := hrange pos
    rw [ho.file, sizeOf_file ho.body] at hcond
    exact hcond hpos
  unfold ramfsLseek at h
  dsimp only at h
  rw [ho.file] at h
  dsimp only at h
  rw [ho.body] at h
  dsimp only at h
  cases hseek : seekTo offset size off whence with
  | none =>
    rw [hseek] at h
    cases h
    refine ⟨hc, .badWhence ?_⟩
    by_contra hle
    obtain rfl | rfl | rfl : whence = 0 ∨ whence = 1 ∨ whence = 2 := by omega
    · cases hseek
    · cases hseek
    · cases hseek
  | some pos =>
    rw [hseek] at h
    dsimp only at h
    rw [seek_place ho.fits.lt (hrange' pos hseek)] at h
    cases h
    obtain ⟨hc', hview⟩ := ho.move hc (Nat.min_le_right pos.toNat size)
    have hstep : ByteStep (bytesView s) (.lseek fd off whence) _ _ :=
      .sought ho.desc (by rw [ho.length]; exact hseek)
    rw [ho.length] at hstep
    have hmoved : bytesView (s.setFile fd { fOffset := (seekPlace pos size : Int), fData := e }) = _ := hview
    rw [hmoved]
    exact ⟨hc', hstep⟩

theorem grown_bytes {p : Block} (offset : Nat) (data : List UInt8) (hfits : FileFits size content)
    (hle : offset ≤ size) (hgrow : size < offset + data.length)
    (hp : Reallocated content (offset + data.length) p) :
    FileFits (offset + data.length) (storeAt (some p) offset data) ∧
      blockBytes (storeAt (some p) offset data) = writeAt (blockBytes content) offset data := by
  obtain ⟨hlen, hmem, hkeep⟩ := hp
  have hlt : offset < 4294967296 := Nat.lt_of_le_of_lt hle hfits.lt
  have hstore := storeAt_bytes (some p) data hlt (fun h => by cases h)
  have hpre : p.bytes.take offset = (blockBytes content).take offset := by
    cases content with
    | none =>
      have hzero : offset = 0 := Nat.le_zero.mp (Nat.le_trans hle (Nat.le_of_eq hfits))
      rw [hzero]
      rfl
    | some block =>
      have hblock := hkeep block rfl
      have hwhole : block.bytes.take (offset + data.length) = block.bytes :=
        List.take_of_length_le (by rw [hfits.1]; omega)
      rw [hfits.1, hwhole] at hblock
      show p.bytes.take offset = block.bytes.take offset
      rw [← hblock, List.take_take, Nat.min_eq_left hle]
  have hall := writeAt_congr hpre (by rw [hfits.length]; omega) (Nat.le_of_eq hlen)
  constructor
  · show (blockBytes (storeAt (some p) offset data)).length = _ ∧ InMemory p.addr _
    rw [hstore]
    refine ⟨?_, hmem⟩
    show (writeAt p.bytes offset data).length = _
    rw [writeAt_length (by omega), hlen]
    omega
  · exact hstore.trans hall

theorem stored_bytes (offset : Nat) (data : List UInt8) (hfits : FileFits size content)
    (hle : offset + data.length ≤ size) :
    FileFits size (storeAt content offset data) ∧
      blockBytes (storeAt content offset data) = writeAt (blockBytes content) offset data := by
  have hlt := hfits.lt
  have hstore : blockBytes (storeAt content offset data) = writeAt (blockBytes content) offset data := by
    apply storeAt_bytes content data (by omega)
    intro hnone
    rw [hnone] at hfits
    have hzero : size = 0 := hfits
    exact List.length_eq_zero_iff.mp (by omega)
  refine ⟨?_, hstore⟩
  cases content with
  | none => exact hfits
  | some block =>
    show (blockBytes (storeAt (some block) offset data)).length = _ ∧ InMemory block.addr _
    rw [hstore]
    refine ⟨?_, hfits.2⟩
    show (writeAt block.bytes offset data).length = _
    rw [writeAt_length (by rw [hfits.1]; omega), hfits.1]
    omega

theorem ramfsWrite_bytes {buff : Block} {mem : Option Block} (hi : RamfsInv s kids) (hc : ContentInv s)
    (hvalid : (RamfsOp.write fd buff mem).Valid s) (h : ramfsWrite s fd buff.bytes mem = some (s', r)) :
    ContentInv s' ∧ ByteStep (bytesView s) (.write fd buff mem) r (bytesView s') := by
  obtain ⟨hfd, hbuff, hmem⟩ := hvalid
  obtain ⟨e, size, content, offset, ho⟩ := openAt hi hc hfd
  have hle := ho.le
  have hroom := ho.room hbuff
  have hcontent : contentOf s e = content := contentOf_file ho.body
  have hoff := clampOffset_of_nonneg (Int.natCast_nonneg offset)
  have hsum : sizeT ((offset : Int) + buff.bytes.length) = offset + buff.bytes.length := by
    rw [sizeT_of_lt (by omega) (by omega)]
    rfl
  rw [ho.file] at hmem
  dsimp only at hmem
  rw [hoff, hsum, hcontent] at hmem
  unfold ramfsWrite at h
  dsimp only at h
  rw [ho.file] at h
  dsimp only at h
  rw [ho.body] at h
  dsimp only at h
  rw [ho.clamp, hoff, hsum] at h
  -- the data that is stored, and the file after it
  have hwrote : ∀ {data : List UInt8} {size' : Nat} {content' : Option Block},
      FileFits size' content' → blockBytes content' = writeAt (blockBytes content) offset data →
      size ≤ size' → offset + data.length ≤ size' →
      (data = buff.bytes ∨ data <+: buff.bytes ∧ 0 < data.length ∧ offset + data.length = size) →
      ContentInv ((s.setElement e { s.element e with body := .file size' content' }).setFile fd
          { fOffset := (offset : Int) + data.length, fData := e }) ∧
        ByteStep (bytesView s) (.write fd buff mem) (status data.length)
          (bytesView ((s.setElement e { s.element e with body := .file size' content' }).setFile fd
            { fOffset := (offset : Int) + data.length, fData := e })) := by
    intro data size' content' hfits hbytes hsize hend hdata
    obtain ⟨hc', hview⟩ := ho.store hi hc hfits hsize hend
    rw [hbytes, ← ho.bytes] at hview
    have hmoved : bytesView ((s.setElement e { s.element e with body := .file size' content' }).setFile
        fd { fOffset := (offset : Int) + data.length, fData := e }) = _ := hview
    rw [hmoved]
    refine ⟨hc', .wrote ho.desc ?_⟩
    rw [ho.length]
    exact hdata
  by_cases hgrow : (size : Int) < offset + buff.bytes.length
  · rw [if_pos hgrow] at h
    cases mem with
    | some p =>
      cases h
      obtain ⟨hp, hapart⟩ := hmem p rfl
      obtain ⟨hfits, hbytes⟩ := grown_bytes offset buff.bytes ho.fits hle (by omega) hp
      have hboth := apart_lt hbuff.1 hp.2.1 (hp.1 ▸ hapart)
      rw [ssizeT_of_lt (by omega)]
      exact hwrote hfits hbytes (by omega) (Nat.le_refl _) (Or.inl rfl)
    | none =>
      dsimp only at h
      by_cases hend : size ≤ offset
      · rw [if_pos hend] at h
        cases h
        obtain ⟨hc', hview⟩ := ho.move hc hle
        have hsame : (bytesView s).setDesc fd (some (e, offset)) = bytesView s := by
          show ByteFiles.mk _ _ = bytesView s
          rw [← ho.desc, Function.update_eq_self]
        rw [hview, hsame]
        refine ⟨hc', .full ho.desc (by rw [ho.length]; omega) ?_⟩
        intro hnil
        rw [hnil, List.length_nil] at hgrow
        omega
      · rw [if_neg hend] at h
        cases h
        have hcount : sizeT ((size : Int) - offset) = size - offset := by
          rw [sizeT_of_lt (by omega) (by omega)]
          omega
        have hlen : (buff.bytes.take (size - offset)).length = size - offset := by
          rw [List.length_take]
          omega
        obtain ⟨hfits, hbytes⟩ := stored_bytes offset (buff.bytes.take (size - offset)) ho.fits
          (by omega)
        have hdone := hwrote hfits hbytes (Nat.le_refl size) (by omega)
          (Or.inr ⟨List.take_prefix _ _, by omega, by omega⟩)
        rw [hlen] at hdone
        rw [hcount, ssizeT_of_lt (by omega)]
        exact hdone
  · rw [if_neg hgrow] at h
    cases h
    obtain ⟨hfits, hbytes⟩ := stored_bytes offset buff.bytes ho.fits (by omega)
    rw [ssizeT_of_lt (by omega)]
    exact hwrote hfits hbytes (Nat.le_refl size) (by omega) (Or.inl rfl)

theorem ramfsReaddir_files {d : Nat} (h : ramfsReaddir s d = some (s', r)) :
    (∀ x, (s'.element x).body = (s.element x).body) ∧ s'.live = s.live ∧ s'.file = s.file ∧
      s'.openFiles = s.openFiles := by
  unfold ramfsReaddir at h
  dsimp only at h
  split at h
  · cases h
  · split at h
    · cases h
      exact ⟨fun _ => rfl, rfl, rfl, rfl⟩
    · cases h
      exact ⟨fun _ => rfl, rfl, rfl, rfl⟩

theorem ramfsStep_bytes (hi : RamfsInv s kids) (hc : ContentInv s) (h : RamfsStep s (op, r) s')
    (hrange : SeekInRange s op) :
    ContentInv s' ∧ ByteStep (bytesView s) op r (bytesView s') := by
  obtain ⟨hvalid, hcall⟩ := ramfsStep_iff.mp h
  have hmove := step_move hi h
  cases op with
  | read fd addr n => exact ramfsRead_bytes hi hc hvalid hcall
  | write fd buff mem => exact ramfsWrite_bytes hi hc hvalid hcall
  | lseek fd off whence => exact ramfsLseek_bytes hi hc hvalid hrange hcall
  | readdir d =>
    obtain ⟨hbody, hlive, hfile, hopen⟩ := ramfsReaddir_files hcall
    obtain ⟨hc', hview⟩ := (SameFiles.of_body hlive hbody).keep hi hc hfile hopen
    rw [hview]
    exact ⟨hc', .readdir⟩
  | _ => exact hmove.bytes hi hc id

/-- A step whose seek, if it is one, stays where `(size_t)` does not cut it. -/
def SeekStep (s : RamfsState) (event : RamfsOp × RamfsResult) (s' : RamfsState) : Prop :=
  SeekInRange s event.1 ∧ RamfsStep s event s'

theorem ramfsMounted_contents {root : Nat} {path : List Char} : ContentInv (ramfsMounted root path) where
  fits := fun _ _ _ _ h => by cases h
  offset := fun _ h => by cases h

theorem bytesView_inRange (hi : RamfsInv s kids) (hc : ContentInv s) : (bytesView s).InRange := by
  intro fd f place hdesc
  have hdesc' : (if fd ∈ s.openFiles then some ((s.file fd).fData, (s.file fd).fOffset.toNat)
      else none) = some (f, place) := hdesc
  split at hdesc'
  · rename_i hfd
    obtain ⟨e, size, content, offset, ho⟩ := openAt hi hc hfd
    rw [ho.file] at hdesc'
    cases hdesc'
    rw [ho.length]
    exact ho.le
  · cases hdesc'

/-- In every run whose seeks stay where `(size_t)` does not cut them, the files are lists of bytes:
each call is a step of the abstract files, and every descriptor is inside its file. -/
theorem ramfs_refines_bytes {root : Nat} {mount : List Char} {events : List (RamfsOp × RamfsResult)}
    (hrun : Run SeekStep (ramfsMounted root mount) events s) :
    Run (fun B event B' => ByteStep B event.1 event.2 B') (bytesView (ramfsMounted root mount)) events
      (bytesView s) ∧ (bytesView s).InRange := by
  have hinv : (∃ kids, RamfsInv s kids ∧ ContentInv s) ∧
      Run (fun B event B' => ByteStep B event.1 event.2 B') (bytesView (ramfsMounted root mount)) events
        (bytesView s) := by
    induction hrun with
    | nil => exact ⟨⟨_, ramfsMounted_inv, ramfsMounted_contents⟩, .nil⟩
    | snoc run last ih =>
      obtain ⟨⟨kids, hi, hc⟩, habs⟩ := ih
      obtain ⟨hrange, hstep⟩ := last
      obtain ⟨kids', hi'⟩ := (ramfsStep_outcome hi hstep).inv
      obtain ⟨hc', hbyte⟩ := ramfsStep_bytes hi hc hstep hrange
      exact ⟨⟨kids', hi', hc'⟩, .snoc habs hbyte⟩
  obtain ⟨⟨kids, hi, hc⟩, habs⟩ := hinv
  exact ⟨habs, bytesView_inRange hi hc⟩

def smallFile : List (RamfsOp × RamfsResult) :=
  [(.open 1 ['f'] oCreat (some 2), status 0),
    (.write 1 { addr := 100, bytes := [1, 2, 3] } (some { addr := 200, bytes := [0, 0, 0] }), status 3)]

/-- A seek to the second byte, and what a read finds there. -/
def smallRead : List (RamfsOp × RamfsResult) :=
  [(.lseek 1 1 0, status 1), (.read 1 300 5, { ret := 2, buff := [2, 3], dent := none })]

theorem ramfs_refines_bytes_small : ∃ s,
    Run SeekStep (ramfsMounted 1 ['/', 'r']) (smallFile ++ smallRead) s ∧
      Run (fun B event B' => ByteStep B event.1 event.2 B') (bytesView (ramfsMounted 1 ['/', 'r']))
        (smallFile ++ smallRead) (bytesView s) ∧ (bytesView s).InRange := by
  have hsome : ((smallFile ++ smallRead).foldlM
      (fun s event => if SeekInRange s event.1 then ramfsNext s event else none)
      (ramfsMounted 1 ['/', 'r'])).isSome = true := by
    decide +kernel
  obtain ⟨s, hs⟩ := Option.isSome_iff_exists.mp hsome
  have hrun : Run SeekStep (ramfsMounted 1 ['/', 'r']) (smallFile ++ smallRead) s := by
    apply run_mono ?_ (run_of_foldlM hs)
    intro s event s' h
    split at h
    · rename_i hrange
      exact ⟨hrange, h⟩
    · cases h
  exact ⟨s, hrun, ramfs_refines_bytes hrun⟩

def smallSeek : List (RamfsOp × RamfsResult) := [(.lseek 1 4294967296 0, status 4294967296)]

/-- After a seek to `2 ^ 32` a read of one byte copies the whole file. -/
theorem ramfsLseek_past_end : ∃ s s',
    Run RamfsStep (ramfsMounted 1 ['/', 'r']) (smallFile ++ smallSeek) s ∧
    RamfsStep s (.read 1 300 1, { ret := 3, buff := [1, 2, 3], dent := none }) s' ∧
    ¬ (bytesView s).InRange ∧
    ∀ B, ¬ ByteStep (bytesView s) (.read 1 300 1) { ret := 3, buff := [1, 2, 3], dent := none } B := by
  have hval : ((smallFile ++ smallSeek).foldlM ramfsNext (ramfsMounted 1 ['/', 'r'])).map
      (fun s => ((bytesView s).desc 1, bytesOf s 2,
        (ramfsNext s (.read 1 300 1, { ret := 3, buff := [1, 2, 3], dent := none })).isSome)) =
      some (some (2, 4294967296), ([1, 2, 3] : List UInt8), true) := by
    decide +kernel
  rw [Option.map_eq_some_iff] at hval
  obtain ⟨s, hs, hval⟩ := hval
  rw [Prod.mk.injEq, Prod.mk.injEq] at hval
  obtain ⟨hdesc, hbytes, hnext⟩ := hval
  obtain ⟨s', hread⟩ := Option.isSome_iff_exists.mp hnext
  refine ⟨s, s', run_of_foldlM hs, hread, fun hin => ?_, fun B hstep => ?_⟩
  · have hle := hin 1 2 4294967296 hdesc
    have hle' : 4294967296 ≤ (bytesOf s 2).length := hle
    rw [hbytes] at hle'
    exact absurd hle' (by decide)
  · generalize hr : ({ ret := 3, buff := [1, 2, 3], dent := none } : RamfsResult) = r at hstep
    cases hstep with
    | refused hop => exact hop trivial
    | @read _ _ _ f offset hdesc =>
      have hlen : (readAt ((bytesView s).bytes f) offset 1).length = 3 := by
        rw [← (RamfsResult.mk.inj hr).2.1]
        rfl
      rw [readAt_length] at hlen
      omega

end LiteosM.Ramfs
