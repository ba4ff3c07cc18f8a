import Mathlib.Logic.Function.Basic
import Mathlib.Data.List.Basic

/-!
# Files of bytes with descriptors

A file is a list of bytes, a descriptor a file with an offset.
-/

namespace LiteosM.Lib.ByteFile

def readAt {β : Type*} (bytes : List β) (offset n : Nat) : List β := (bytes.drop offset).take n

/-- The data replaces what is stored at the offset, and the rest stays. -/
def writeAt {β : Type*} (bytes : List β) (offset : Nat) (data : List β) : List β :=
  bytes.take offset ++ data ++ bytes.drop (offset + data.length)

structure ByteFiles (ν δ β : Type*) where
  bytes : ν → List β
  desc : δ → Option (ν × Nat)

variable {ν δ β : Type*} {bytes data : List β} {offset n : Nat}

theorem readAt_length : (readAt bytes offset n).length = min n (bytes.length - offset) := by
  unfold readAt
  rw [List.length_take, List.length_drop]

theorem writeAt_length (h : offset ≤ bytes.length) :
    (writeAt bytes offset data).length = max bytes.length (offset + data.length) := by
  unfold writeAt
  rw [List.length_append, List.length_append, List.length_take, List.length_drop]
  omega

theorem writeAt_congr {bytes' : List β} (hpre : bytes'.take offset = bytes.take offset)
    (hend : bytes.length ≤ offset + data.length) (hend' : bytes'.length ≤ offset + data.length) :
    writeAt bytes' offset data = writeAt bytes offset data := by
  unfold writeAt
  rw [hpre, List.drop_eq_nil_of_le hend, List.drop_eq_nil_of_le hend']

namespace ByteFiles

variable [DecidableEq ν] [DecidableEq δ]

def setBytes (B : ByteFiles ν δ β) (f : ν) (bytes : List β) : ByteFiles ν δ β :=
  { B with bytes := Function.update B.bytes f bytes }

def setDesc (B : ByteFiles ν δ β) (fd : δ) (desc : Option (ν × Nat)) : ByteFiles ν δ β :=
  { B with desc := Function.update B.desc fd desc }

/-- Every descriptor is inside its file. -/
def InRange (B : ByteFiles ν δ β) : Prop :=
  ∀ fd f offset, B.desc fd = some (f, offset) → offset ≤ (B.bytes f).length

end ByteFiles

end LiteosM.Lib.ByteFile
