import Mathlib.Tactic.Ring
import Mathlib.Tactic.SplitIfs

/-!
# Byte-addressed memory with little-endian 32-bit words

Addresses are natural numbers and a memory is total: what lies at an address
nobody owns is left arbitrary, so a statement about every memory also covers
uninitialised bytes. Words are read and written byte by byte; two accesses
interact exactly when their four-byte windows overlap.
-/

namespace LiteosM.Lib.ByteMemory

instance byte_neZero : NeZero 256 := ⟨by decide⟩

abbrev Byte := Fin 256
abbrev Memory := Nat → Byte

def load32 (m : Memory) (a : Nat) : Nat :=
  (m a).val + 256 * (m (a + 1)).val + 65536 * (m (a + 2)).val + 16777216 * (m (a + 3)).val

/-- Byte `i` of a word, least significant first. -/
def byteOf (v i : Nat) : Byte := ⟨v / 256 ^ i % 256, Nat.mod_lt _ (by omega)⟩

def store32 (m : Memory) (a v : Nat) : Memory := fun x =>
  if a ≤ x ∧ x < a + 4 then byteOf v (x - a) else m x

def store8 (m : Memory) (a : Nat) (b : Byte) : Memory := fun x => if x = a then b else m x

/-- `n` bytes from `src` to `dst`, all read before any is written. -/
def copyBytes (m : Memory) (dst src n : Nat) : Memory := fun x =>
  if dst ≤ x ∧ x < dst + n then m (src + (x - dst)) else m x

def fillBytes (m : Memory) (dst : Nat) (b : Byte) (n : Nat) : Memory := fun x =>
  if dst ≤ x ∧ x < dst + n then b else m x

theorem load32_lt (m : Memory) (a : Nat) : load32 m a < 4294967296 := by
  have h0 := (m a).isLt
  have h1 := (m (a + 1)).isLt
  have h2 := (m (a + 2)).isLt
  have h3 := (m (a + 3)).isLt
  simp only [load32]
  omega

theorem load32_congr (m m' : Memory) (a : Nat) (h : ∀ x, a ≤ x → x < a + 4 → m' x = m x) :
    load32 m' a = load32 m a := by
  simp only [load32]
  rw [h a (by omega) (by omega), h (a + 1) (by omega) (by omega),
    h (a + 2) (by omega) (by omega), h (a + 3) (by omega) (by omega)]

theorem store32_outside (m : Memory) (a v x : Nat) (h : x < a ∨ a + 4 ≤ x) :
    store32 m a v x = m x := by
  have hn : ¬(a ≤ x ∧ x < a + 4) := by omega
  simp only [store32, hn, ite_false]

theorem load32_store32_same (m : Memory) (a v : Nat) (hv : v < 4294967296) :
    load32 (store32 m a v) a = v := by
  have h0 : a ≤ a ∧ a < a + 4 := by omega
  have h1 : a ≤ a + 1 ∧ a + 1 < a + 4 := by omega
  have h2 : a ≤ a + 2 ∧ a + 2 < a + 4 := by omega
  have h3 : a ≤ a + 3 ∧ a + 3 < a + 4 := by omega
  simp only [load32, store32, h0, h1, h2, h3, and_self, ite_true, byteOf, Nat.sub_self,
    Nat.add_sub_cancel_left]
  norm_num
  omega

theorem load32_store32_apart (m : Memory) (a b v : Nat) (h : b + 4 ≤ a ∨ a + 4 ≤ b) :
    load32 (store32 m a v) b = load32 m b :=
  load32_congr _ _ _ fun x _ _ => store32_outside m a v x (by omega)

/-- Word-aligned accesses either coincide or do not interact. -/
theorem load32_store32_aligned (m : Memory) (a b v : Nat) (ha : a % 4 = 0) (hb : b % 4 = 0)
    (hne : b ≠ a) : load32 (store32 m a v) b = load32 m b :=
  load32_store32_apart m a b v (by omega)

theorem store8_outside (m : Memory) (a : Nat) (b : Byte) (x : Nat) (h : x ≠ a) :
    store8 m a b x = m x := by simp only [store8, h, ite_false]

theorem copyBytes_inside (m : Memory) (dst src n i : Nat) (h : i < n) :
    copyBytes m dst src n (dst + i) = m (src + i) := by
  have hi : dst ≤ dst + i ∧ dst + i < dst + n := by omega
  simp only [copyBytes, hi, and_self, ite_true, Nat.add_sub_cancel_left]

theorem copyBytes_outside (m : Memory) (dst src n x : Nat) (h : x < dst ∨ dst + n ≤ x) :
    copyBytes m dst src n x = m x := by
  have hn : ¬(dst ≤ x ∧ x < dst + n) := by omega
  simp only [copyBytes, hn, ite_false]

theorem fillBytes_outside (m : Memory) (dst : Nat) (b : Byte) (n x : Nat)
    (h : x < dst ∨ dst + n ≤ x) : fillBytes m dst b n x = m x := by
  have hn : ¬(dst ≤ x ∧ x < dst + n) := by omega
  simp only [fillBytes, hn, ite_false]

theorem load32_fillBytes_zero (m : Memory) (dst n a : Nat) (h : dst ≤ a ∧ a + 4 ≤ dst + n) :
    load32 (fillBytes m dst 0 n) a = 0 := by
  have h0 : dst ≤ a ∧ a < dst + n := by omega
  have h1 : dst ≤ a + 1 ∧ a + 1 < dst + n := by omega
  have h2 : dst ≤ a + 2 ∧ a + 2 < dst + n := by omega
  have h3 : dst ≤ a + 3 ∧ a + 3 < dst + n := by omega
  simp only [load32, fillBytes, h0, h1, h2, h3, and_self, ite_true]
  rfl

end LiteosM.Lib.ByteMemory
