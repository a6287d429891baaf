import Iouxx.Cpp.Memory
import Mathlib.Logic.Equiv.Defs

/-!
# Structs as bytes

The bytes of signed integers are those of the unsigned ones, and a struct without padding has the
bytes of its members one after the other. A struct is given by an equivalence to the product of its
members (`ObjectRep.ofEquiv`).
-/

namespace Iouxx.Cpp.Memory

open ObjectRep (size bytes ofBytes length_bytes ofBytes_bytes bytes_ofBytes)

variable {α β : Type}

/-- A type whose values have the bytes of the values of another type. -/
@[reducible] def ObjectRep.ofEquiv [ObjectRep β] (e : α ≃ β) : ObjectRep α where
  size := size β
  bytes native x := bytes native (e x)
  ofBytes native l := e.symm (ofBytes native l)
  length_bytes native x := length_bytes native (e x)
  ofBytes_bytes native x := by rw [ofBytes_bytes, e.symm_apply_apply]
  bytes_ofBytes native l h := by rw [e.apply_symm_apply, bytes_ofBytes native l h]

instance : ObjectRep UInt64 where
  size := 8
  bytes native x := numBytes native 8 x.toNat
  ofBytes native l := UInt64.ofNat (ofNumBytes native l)
  length_bytes native x := length_numBytes native 8 _
  ofBytes_bytes native x := by
    rw [ofNumBytes_numBytes native x.toNat_lt, UInt64.ofNat_toNat]
  bytes_ofBytes native l h := by
    rw [UInt64.toNat_ofNat_of_lt' (ofNumBytes_lt native h), numBytes_ofNumBytes native h]

instance : ObjectRep Int32 :=
  .ofEquiv ⟨Int32.toUInt32, UInt32.toInt32, fun _ => rfl, fun _ => rfl⟩

instance : ObjectRep Int64 :=
  .ofEquiv ⟨Int64.toUInt64, UInt64.toInt64, fun _ => rfl, fun _ => rfl⟩

/-- Two members without padding between them. -/
instance [ObjectRep α] [ObjectRep β] : ObjectRep (α × β) where
  size := size α + size β
  bytes native x := bytes native x.1 ++ bytes native x.2
  ofBytes native l := (ofBytes native (l.take (size α)), ofBytes native (l.drop (size α)))
  length_bytes native x := by rw [List.length_append, length_bytes, length_bytes]
  ofBytes_bytes native x := by
    rw [List.take_left' (length_bytes native x.1), List.drop_left' (length_bytes native x.1),
      ofBytes_bytes, ofBytes_bytes]
  bytes_ofBytes native l h := by
    rw [bytes_ofBytes native (l.take (size α)) (by rw [List.length_take]; omega),
      bytes_ofBytes native (l.drop (size α)) (by rw [List.length_drop]; omega),
      List.take_append_drop]

end Iouxx.Cpp.Memory
