import LiteosM.Membox.Invariant
import LiteosM.Lib.Transition

/-!
# Every sequence of memory box calls

Tasks allocate, write to what they hold, clear it and free arbitrary addresses.
-/

namespace LiteosM.Membox
open Lib.ByteMemory Lib.Word32 Lib.Transition

/-- `outstanding` are the addresses handed out and not yet taken back. -/
structure BoxState where
  mem : Memory
  outstanding : List Nat

inductive BoxOp
  | alloc (curTaskID : Nat)
  | free (box : Nat)
  | clr (box : Nat)
  | write (addr : Nat) (value : Byte)

inductive BoxStep (tskLimit pool poolSize : Nat) : BoxState → BoxOp → BoxState → Prop
  | alloc (s : BoxState) (curTaskID : Nat) (htask : curTaskID ≤ tskLimit) :
      BoxStep tskLimit pool poolSize s (.alloc curTaskID)
        ⟨(losMemboxAlloc s.mem pool curTaskID).1,
          if (losMemboxAlloc s.mem pool curTaskID).2 = 0 then s.outstanding
          else (losMemboxAlloc s.mem pool curTaskID).2 :: s.outstanding⟩
  | free (s : BoxState) (box : Nat) (hbox : box < 4294967296) :
      BoxStep tskLimit pool poolSize s (.free box)
        ⟨(losMemboxFree tskLimit s.mem pool box).1,
          if (losMemboxFree tskLimit s.mem pool box).2 = losOk then s.outstanding.erase box
          else s.outstanding⟩
  | clr (s : BoxState) (box : Nat) (hout : box ∈ s.outstanding) :
      BoxStep tskLimit pool poolSize s (.clr box) ⟨losMemboxClr s.mem pool box, s.outstanding⟩
  | write (s : BoxState) (addr : Nat) (value : Byte)
      (hmay : (∃ box ∈ s.outstanding, box ≤ addr ∧ addr < box + (uwBlkSize s.mem pool - 4)) ∨
        addr < pool ∨ pool + poolSize ≤ addr) :
      BoxStep tskLimit pool poolSize s (.write addr value) ⟨store8 s.mem addr value, s.outstanding⟩

/-- What the control words, the headers and the outstanding blocks say of each other. -/
structure Integrity (tskLimit pool poolSize : Nat) (s : BoxState) (free : List Nat) : Prop where
  walk : FreeWalk s.mem (stFreeList s.mem pool) free
  once : free.Nodup
  own : ∀ x ∈ free, x ∈ nodes pool (uwBlkSize s.mem pool) (uwBlkNum s.mem pool)
  count : uwBlkCnt s.mem pool + free.length = uwBlkNum s.mem pool
  apart : s.outstanding.Pairwise fun a b =>
    a + (uwBlkSize s.mem pool - 4) ≤ b ∨ b + (uwBlkSize s.mem pool - 4) ≤ a
  inside : ∀ a ∈ s.outstanding, pool + 16 ≤ a ∧ a + (uwBlkSize s.mem pool - 4) ≤ pool + poolSize
  accepted : ∀ box < 4294967296,
    (losMemboxFree tskLimit s.mem pool box).2 = losOk ↔ box ∈ s.outstanding
  rejected : ∀ box < 4294967296, box ∉ s.outstanding →
    (losMemboxFree tskLimit s.mem pool box).1 = s.mem

def BoxInv (pool blkSize blkNum tskLimit : Nat) (s : BoxState) : Prop :=
  ∃ free out, BoxRep pool blkSize blkNum tskLimit s.mem free out ∧
    s.outstanding = out.map (· + 4)

section

variable {pool poolSize blkSize blkNum tskLimit : Nat} {m : Memory} {free out l : List Nat}
  {s t : BoxState}

theorem Geometry.control_apart (g : Geometry pool poolSize blkSize blkNum tskLimit) {x : Nat}
    (hx : x ∈ nodes pool blkSize blkNum) (i v : Nat) (hi : i + 4 ≤ 16) (m : Memory) :
    load32 (store32 m (pool + i) v) x = load32 m x ∧
      load32 (store32 m x v) (pool + i) = load32 m (pool + i) := by
  have hb := g.node_bounds hx
  exact ⟨load32_store32_apart _ _ _ _ (by omega), load32_store32_apart _ _ _ _ (by omega)⟩

theorem Geometry.header_apart (g : Geometry pool poolSize blkSize blkNum tskLimit) {x y : Nat}
    (hx : x ∈ nodes pool blkSize blkNum) (hy : y ∈ nodes pool blkSize blkNum) (hne : y ≠ x)
    (m : Memory) (v : Nat) : load32 (store32 m x v) y = load32 m y := by
  have hs := g.size
  have ha := node_apart hx hy (Ne.symm hne)
  exact load32_store32_apart _ _ _ _ (by omega)

theorem BoxRep.count_lt (h : BoxRep pool blkSize blkNum tskLimit m free out)
    (g : Geometry pool poolSize blkSize blkNum tskLimit) : out.length < 4294967295 := by
  have hl := h.length
  have hs := g.size
  have hf := g.fits
  have hin := g.inside
  have hm := Nat.mul_le_mul_left blkNum hs
  omega

theorem losMemboxAlloc_spec (h : BoxRep pool blkSize blkNum tskLimit m free out)
    (g : Geometry pool poolSize blkSize blkNum tskLimit) (taskID : Nat) (ht : taskID ≤ tskLimit) :
    (free = [] ∧ losMemboxAlloc m pool taskID = (m, 0)) ∨
    ∃ x l, free = x :: l ∧ (losMemboxAlloc m pool taskID).2 = x + 4 ∧
      BoxRep pool blkSize blkNum tskLimit (losMemboxAlloc m pool taskID).1 l (x :: out) := by
  have hcnt := h.count_lt g
  have hlim := g.limit
  unfold losMemboxAlloc
  rw [if_neg g.nonzero]
  cases free with
  | nil =>
    have h0 : stFreeList m pool = 0 := h.walk
    rw [if_neg (by simp [h0])]
    exact Or.inl ⟨rfl, rfl⟩
  | cons x l =>
    obtain ⟨hhead, hx0, hrest⟩ := h.walk
    have hx := h.mem_free List.mem_cons_self
    have hb := g.node_bounds hx
    have hsz := g.size
    have hin := g.inside
    have hnd := h.nodup g
    have hxl : x ∉ l ++ out := (List.nodup_cons.mp hnd).1
    rw [hhead, if_pos hx0]
    right
    refine ⟨x, l, rfl, ?_, ?_⟩
    · exact add32_of_lt _ _ (by unfold osMemboxNodeHeadSize; omega)
    · -- the three stores: list head, header of `x`, count
      have hmagic : osMemboxMagic ||| taskID % 256 < 4294967296 := by
        rw [magic_or _ (Nat.mod_lt _ (by omega))]
        omega
      have hnextlt : pstNext m x < 4294967296 := load32_lt _ _
      have hc : load32 (osMemBoxSetMagic (store32 m (pool + 12) (pstNext m x)) x taskID)
          (pool + 8) = out.length := by
        rw [osMemBoxSetMagic, (g.control_apart hx 8 _ (by omega) _).2,
          load32_store32_apart _ _ _ _ (by omega)]
        exact h.cnt
      have hadd : add32 out.length 1 = out.length + 1 := add32_of_lt _ _ (by omega)
      dsimp only
      rw [uwBlkCnt, hc, hadd, osMemBoxSetMagic]
      have hother : ∀ y ∈ nodes pool blkSize blkNum, y ≠ x →
          pstNext (store32 (store32 (store32 m (pool + 12) (pstNext m x)) x
            (osMemboxMagic ||| taskID % 256)) (pool + 8) (out.length + 1)) y = pstNext m y := by
        intro y hy hyx
        rw [pstNext, (g.control_apart hy 8 _ (by omega) _).1, g.header_apart hx hy hyx,
          (g.control_apart hy 12 _ (by omega) _).1]
        rfl
      refine ⟨?_, ?_, ?_, ?_, ?_, fun y hy => ?_⟩
      · rw [uwBlkSize, load32_store32_apart _ _ _ _ (by omega),
          load32_store32_apart _ _ _ _ (by omega), load32_store32_apart _ _ _ _ (by omega)]
        exact h.size
      · rw [uwBlkNum, load32_store32_apart _ _ _ _ (by omega),
          (g.control_apart hx 4 _ (by omega) _).2, load32_store32_apart _ _ _ _ (by omega)]
        exact h.num
      · rw [uwBlkCnt, load32_store32_same _ _ _ (by omega), List.length_cons]
      · rw [stFreeList, load32_store32_apart _ _ _ _ (by omega),
          (g.control_apart hx 12 _ (by omega) _).2, load32_store32_same _ _ _ hnextlt]
        refine freeWalk_congr hrest fun y hy => hother y ?_ fun he => hxl (by simp [← he, hy])
        exact h.mem_free (List.mem_cons_of_mem _ hy)
      · exact List.perm_middle.trans h.blocks
      · rcases List.mem_cons.mp hy with rfl | hy
        · refine ⟨taskID, ht, ?_⟩
          rw [pstNext, (g.control_apart hx 8 _ (by omega) _).1, load32_store32_same _ _ _ hmagic,
            Nat.mod_eq_of_lt (by omega)]
        · obtain ⟨tid, htid, hn⟩ := h.owned y hy
          refine ⟨tid, htid, ?_⟩
          rw [hother y (h.mem_out hy) fun he => hxl (by simp [← he, hy])]
          exact hn

theorem losMemboxFree_spec (h : BoxRep pool blkSize blkNum tskLimit m free out)
    (g : Geometry pool poolSize blkSize blkNum tskLimit) {x : Nat} (hxo : x ∈ out) :
    BoxRep pool blkSize blkNum tskLimit (losMemboxFree tskLimit m pool (x + 4)).1 (x :: free)
      (out.erase x) := by
  have hcnt := h.count_lt g
  have hx := h.mem_out hxo
  have hb := g.node_bounds hx
  have hsz := g.size
  have hin := g.inside
  have hnd := h.nodup g
  have hxf : x ∉ free := fun hm => (List.nodup_append.mp hnd).2.2 x hm x hxo rfl
  have hndo := (List.nodup_append.mp hnd).2.1
  have hlen := List.length_erase_of_mem hxo
  have hpos := List.length_pos_of_mem hxo
  have haddr : osMemboxNodeAddr (x + 4) = x := by
    unfold osMemboxNodeAddr osMemboxNodeHeadSize
    rw [sub32_of_le _ _ (by omega) (by omega), Nat.add_sub_cancel]
  have hok := (h.osCheckBoxMem_iff g (by omega)).mpr hxo
  unfold losMemboxFree
  rw [if_neg (by have := g.nonzero; omega)]
  dsimp only
  rw [haddr, if_neg (fun hne => hne hok)]
  have hfl : stFreeList m pool < 4294967296 := load32_lt _ _
  have hc : load32 (store32 (store32 m x (stFreeList m pool)) (pool + 12) x) (pool + 8) =
      out.length := by
    rw [load32_store32_apart _ _ _ _ (by omega), (g.control_apart hx 8 _ (by omega) _).2]
    exact h.cnt
  have hsub : sub32 out.length 1 = out.length - 1 := sub32_of_le _ _ (by omega) (by omega)
  rw [uwBlkCnt, hc, hsub]
  have hother : ∀ y ∈ nodes pool blkSize blkNum, y ≠ x →
      pstNext (store32 (store32 (store32 m x (stFreeList m pool)) (pool + 12) x) (pool + 8)
        (out.length - 1)) y = pstNext m y := by
    intro y hy hyx
    rw [pstNext, (g.control_apart hy 8 _ (by omega) _).1, (g.control_apart hy 12 _ (by omega) _).1,
      g.header_apart hx hy hyx]
    rfl
  refine ⟨?_, ?_, ?_, ⟨?_, by omega, ?_⟩, ?_, fun y hy => ?_⟩
  · rw [uwBlkSize, load32_store32_apart _ _ _ _ (by omega), load32_store32_apart _ _ _ _ (by omega),
      load32_store32_apart _ _ _ _ (by omega)]
    exact h.size
  · rw [uwBlkNum, load32_store32_apart _ _ _ _ (by omega), load32_store32_apart _ _ _ _ (by omega),
      (g.control_apart hx 4 _ (by omega) _).2]
    exact h.num
  · rw [uwBlkCnt, load32_store32_same _ _ _ (by omega), hlen]
  · rw [stFreeList, load32_store32_apart _ _ _ _ (by omega), load32_store32_same _ _ _ (by omega)]
  · rw [pstNext, load32_store32_apart _ _ _ _ (by omega), load32_store32_apart _ _ _ _ (by omega),
      load32_store32_same _ _ _ hfl]
    exact freeWalk_congr h.walk fun y hy => hother y (h.mem_free hy) fun he => hxf (he ▸ hy)
  · refine List.Perm.trans ?_ h.blocks
    have hp := (List.perm_cons_erase hxo).symm
    exact (List.perm_middle.symm).trans (List.Perm.append_left free hp)
  · have hyo := List.mem_of_mem_erase hy
    have hyx : y ≠ x := (List.Nodup.mem_erase_iff hndo).mp hy |>.1
    obtain ⟨tid, htid, hn⟩ := h.owned y hyo
    refine ⟨tid, htid, ?_⟩
    rw [hother y (h.mem_out hyo) hyx]
    exact hn

theorem BoxRep.user (h : BoxRep pool blkSize blkNum tskLimit m free out)
    (g : Geometry pool poolSize blkSize blkNum tskLimit) {m' : Memory}
    (hm : ∀ a, m' a ≠ m a → (∃ x ∈ out, x + 4 ≤ a ∧ a < x + blkSize) ∨ a < pool ∨
      pool + poolSize ≤ a) :
    BoxRep pool blkSize blkNum tskLimit m' free out := by
  have hsz := g.size
  have hf := g.fits
  refine h.frame (fun a h1 h2 => ?_) fun n hn a h1 h2 => ?_
  · by_contra hne
    rcases hm a hne with ⟨x, hx, hlo, hhi⟩ | hout
    · have hb := g.node_bounds (h.mem_out hx)
      omega
    · omega
  · by_contra hne
    have hb := g.node_bounds hn
    rcases hm a hne with ⟨x, hx, hlo, hhi⟩ | hout
    · by_cases hxn : x = n
      · omega
      · have ha := node_apart (h.mem_out hx) hn hxn
        omega
    · omega

theorem boxStep_inv (g : Geometry pool poolSize blkSize blkNum tskLimit) (op : BoxOp)
    (hinv : BoxInv pool blkSize blkNum tskLimit s) (hstep : BoxStep tskLimit pool poolSize s op t) :
    BoxInv pool blkSize blkNum tskLimit t := by
  obtain ⟨free, out, h, hout⟩ := hinv
  have hsz := g.size
  cases hstep with
  | alloc taskID ht =>
    obtain ⟨_, he⟩ | ⟨x, l, rfl, hx, hrep⟩ := losMemboxAlloc_spec h g taskID ht
    · rw [he, if_pos rfl]
      exact ⟨free, out, h, hout⟩
    · refine ⟨l, x :: out, hrep, ?_⟩
      show (if (losMemboxAlloc s.mem pool taskID).2 = 0 then s.outstanding
        else (losMemboxAlloc s.mem pool taskID).2 :: s.outstanding) = _
      rw [hx, if_neg (by omega), hout]
      rfl
  | free box hbox =>
    obtain ⟨hiff, hkeep⟩ := h.losMemboxFree_ok g hbox
    by_cases hok : (losMemboxFree tskLimit s.mem pool box).2 = losOk
    · obtain ⟨x, hx, rfl⟩ := hiff.mp hok
      rw [if_pos hok]
      refine ⟨x :: free, out.erase x, losMemboxFree_spec h g hx, ?_⟩
      show s.outstanding.erase (x + 4) = _
      rw [hout, List.map_erase (fun a b hab => by simpa using hab)]
    · rw [if_neg hok, hkeep hok]
      exact ⟨free, out, h, hout⟩
  | clr box hbox =>
    refine ⟨free, out, h.user g fun a ha => ?_, hout⟩
    rw [hout] at hbox
    obtain ⟨x, hx, rfl⟩ := List.mem_map.mp hbox
    left
    refine ⟨x, hx, ?_⟩
    have hsub : sub32 (uwBlkSize s.mem pool) osMemboxNodeHeadSize = blkSize - 4 := by
      rw [h.size]
      refine sub32_of_le _ _ (by unfold osMemboxNodeHeadSize; omega) ?_
      have hb := g.node_bounds (h.mem_out hx)
      have hin := g.inside
      omega
    by_contra hout'
    apply ha
    show losMemboxClr s.mem pool (x + 4) a = s.mem a
    unfold losMemboxClr
    rw [if_neg (by have := g.nonzero; omega), hsub]
    exact fillBytes_outside _ _ _ _ _ (by omega)
  | write addr value hmay =>
    refine ⟨free, out, h.user g fun a ha => ?_, hout⟩
    have haa : a = addr := by
      by_contra hne
      exact ha (store8_outside _ _ _ _ hne)
    subst haa
    rcases hmay with ⟨box, hbox, hlo, hhi⟩ | hout'
    · rw [hout] at hbox
      obtain ⟨x, hx, rfl⟩ := List.mem_map.mp hbox
      rw [h.size] at hhi
      exact Or.inl ⟨x, hx, hlo, by omega⟩
    · exact Or.inr hout'

theorem BoxInv.integrity (g : Geometry pool poolSize blkSize blkNum tskLimit)
    (hinv : BoxInv pool blkSize blkNum tskLimit s) :
    ∃ free, Integrity tskLimit pool poolSize s free := by
  obtain ⟨free, out, h, hout⟩ := hinv
  have hsz := g.size
  have hnd := List.nodup_append.mp (h.nodup g)
  have hacc : ∀ box < 4294967296,
      ((losMemboxFree tskLimit s.mem pool box).2 = losOk ↔ box ∈ s.outstanding) := by
    intro box hbox
    rw [(h.losMemboxFree_ok g hbox).1, hout, List.mem_map]
    simp [eq_comm]
  refine ⟨free, h.walk, hnd.1, fun x hx => ?_, ?_, ?_, fun a ha => ?_, hacc, fun box hbox hn => ?_⟩
  · rw [h.size, h.num]
    exact h.mem_free hx
  · have hl := h.length
    rw [h.cnt, h.num]
    omega
  · rw [hout, h.size, List.pairwise_map]
    refine hnd.2.1.imp_of_mem fun ha hb hne => ?_
    have hap := node_apart (h.mem_out ha) (h.mem_out hb) hne
    omega
  · rw [hout] at ha
    obtain ⟨x, hx, rfl⟩ := List.mem_map.mp ha
    have hb := g.node_bounds (h.mem_out hx)
    rw [h.size]
    omega
  · exact (h.losMemboxFree_ok g hbox).2 fun hok => hn ((hacc box hbox).mp hok)

end

end LiteosM.Membox
