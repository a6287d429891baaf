import Mathlib.Data.List.OfFn
import Mathlib.Tactic.Ring

/-!
# Objects as bytes: `std::endian`, `std::byteswap`, `std::bit_cast`

A trivially copyable type has an object representation: the bytes of its values in memory, which
for the unsigned integers depend on the byte order of the machine. `bitCast` reads the bytes of a
value as a value of another type. The bytes of an integer in network order are its bytes on a
big-endian machine, so a swapped integer on a little-endian machine has these bytes
(`bytes_byteswap`).
-/

namespace Iouxx.Cpp.Memory

/-- `std::endian`. -/
inductive Endian
  | little | big
  deriving DecidableEq, Repr

/-! ### Numbers as bytes -/

/-- The low `n` bytes of a number, the least significant first. -/
def lowBytes : ℕ → ℕ → List UInt8
  | 0, _ => []
  | n + 1, x => UInt8.ofNat x :: lowBytes n (x / 256)

/-- The number with these bytes, the least significant first. -/
def ofLowBytes : List UInt8 → ℕ
  | [] => 0
  | b :: l => b.toNat + 256 * ofLowBytes l

/-- The low `n` bytes of a number as a machine of the given byte order stores them. -/
def numBytes (native : Endian) (n x : ℕ) : List UInt8 :=
  match native with
  | .little => lowBytes n x
  | .big => (lowBytes n x).reverse

/-- The number a machine of the given byte order reads. -/
def ofNumBytes (native : Endian) (l : List UInt8) : ℕ :=
  match native with
  | .little => ofLowBytes l
  | .big => ofLowBytes l.reverse

@[simp] theorem length_lowBytes : ∀ n x : ℕ, (lowBytes n x).length = n
  | 0, _ => rfl
  | n + 1, x => by rw [lowBytes, List.length_cons, length_lowBytes n]

@[simp] theorem length_numBytes (native : Endian) (n x : ℕ) :
    (numBytes native n x).length = n := by
  cases native <;> simp [numBytes]

theorem ofLowBytes_lowBytes : ∀ n x : ℕ, ofLowBytes (lowBytes n x) = x % 256 ^ n
  | 0, x => by simp [lowBytes, ofLowBytes, Nat.mod_one]
  | n + 1, x => by
    rw [lowBytes, ofLowBytes, ofLowBytes_lowBytes n, UInt8.toNat_ofNat', pow_succ' 256 n]
    exact Nat.mod_mul.symm

theorem lowBytes_ofLowBytes : ∀ l : List UInt8, lowBytes l.length (ofLowBytes l) = l
  | [] => rfl
  | b :: l => by
    have hb := b.toNat_lt
    rw [List.length_cons, lowBytes, ofLowBytes,
      show (b.toNat + 256 * ofLowBytes l) / 256 = ofLowBytes l by omega, lowBytes_ofLowBytes l]
    congr 1
    apply UInt8.toNat_inj.mp
    rw [UInt8.toNat_ofNat']
    omega

theorem ofLowBytes_lt : ∀ l : List UInt8, ofLowBytes l < 256 ^ l.length
  | [] => by simp [ofLowBytes]
  | b :: l => by
    have hb := b.toNat_lt
    have ih := ofLowBytes_lt l
    rw [ofLowBytes, List.length_cons, pow_succ]
    omega

theorem ofNumBytes_lt (native : Endian) {n : ℕ} {l : List UInt8} (h : l.length = n) :
    ofNumBytes native l < 256 ^ n := by
  subst h
  cases native
  · exact ofLowBytes_lt l
  · rw [← List.length_reverse]; exact ofLowBytes_lt l.reverse

theorem ofNumBytes_numBytes (native : Endian) {n x : ℕ} (h : x < 256 ^ n) :
    ofNumBytes native (numBytes native n x) = x := by
  cases native <;> simp [ofNumBytes, numBytes, ofLowBytes_lowBytes, Nat.mod_eq_of_lt h]

theorem numBytes_ofNumBytes (native : Endian) {n : ℕ} {l : List UInt8} (h : l.length = n) :
    numBytes native n (ofNumBytes native l) = l := by
  subst h
  cases native
  · exact lowBytes_ofLowBytes l
  · have := lowBytes_ofLowBytes l.reverse
    rw [List.length_reverse] at this
    simp [ofNumBytes, numBytes, this]

/-! ### Object representations -/

/-- **A trivially copyable type**: its size, the bytes of a value and the value with given bytes,
on a machine of either byte order. -/
class ObjectRep (α : Type) where
  size : ℕ
  bytes : Endian → α → List UInt8
  ofBytes : Endian → List UInt8 → α
  length_bytes : ∀ native x, (bytes native x).length = size
  ofBytes_bytes : ∀ native x, ofBytes native (bytes native x) = x
  bytes_ofBytes : ∀ native l, l.length = size → bytes native (ofBytes native l) = l

open ObjectRep (size bytes ofBytes length_bytes ofBytes_bytes bytes_ofBytes)

instance : ObjectRep UInt8 where
  size := 1
  bytes _ x := [x]
  ofBytes _ l := l.headD 0
  length_bytes _ _ := rfl
  ofBytes_bytes _ _ := rfl
  bytes_ofBytes _ l h := by
    obtain ⟨b, rfl⟩ := List.length_eq_one_iff.mp h
    rfl

instance : ObjectRep UInt16 where
  size := 2
  bytes native x := numBytes native 2 x.toNat
  ofBytes native l := UInt16.ofNat (ofNumBytes native l)
  length_bytes native x := length_numBytes native 2 _
  ofBytes_bytes native x := by
    rw [ofNumBytes_numBytes native x.toNat_lt, UInt16.ofNat_toNat]
  bytes_ofBytes native l h := by
    rw [UInt16.toNat_ofNat_of_lt' (ofNumBytes_lt native h), numBytes_ofNumBytes native h]

instance : ObjectRep UInt32 where
  size := 4
  bytes native x := numBytes native 4 x.toNat
  ofBytes native l := UInt32.ofNat (ofNumBytes native l)
  length_bytes native x := length_numBytes native 4 _
  ofBytes_bytes native x := by
    rw [ofNumBytes_numBytes native x.toNat_lt, UInt32.ofNat_toNat]
  bytes_ofBytes native l h := by
    rw [UInt32.toNat_ofNat_of_lt' (ofNumBytes_lt native h), numBytes_ofNumBytes native h]

section Arrays
variable {α : Type} [ObjectRep α]

/-- The bytes of the elements, one after the other. -/
def bytesOfList (native : Endian) (l : List α) : List UInt8 := l.flatMap (bytes native)

/-- The element at position `i`. -/
def elem (native : Endian) (l : List UInt8) (i : ℕ) : α :=
  ofBytes native ((l.drop (i * size α)).take (size α))

theorem length_bytesOfList (native : Endian) : ∀ l : List α,
    (bytesOfList native l).length = l.length * size α
  | [] => by simp [bytesOfList]
  | x :: l => by
    have ih := length_bytesOfList native l
    unfold bytesOfList at ih ⊢
    rw [List.flatMap_cons, List.length_append, ih, length_bytes, List.length_cons]
    ring

theorem elem_bytesOfList (native : Endian) : ∀ (l : List α) (i : ℕ) (h : i < l.length),
    elem native (bytesOfList native l) i = l[i]
  | x :: l, 0, _ => by
    rw [elem, bytesOfList, List.flatMap_cons, Nat.zero_mul, List.drop_zero,
      List.take_left' (length_bytes native x), ofBytes_bytes]
    rfl
  | x :: l, i + 1, h => by
    have ih := elem_bytesOfList native l i (by simpa using h)
    rw [elem] at ih ⊢
    rw [bytesOfList, List.flatMap_cons, Nat.add_mul, Nat.one_mul, Nat.add_comm,
      ← List.drop_drop, List.drop_left' (length_bytes native x), List.getElem_cons_succ]
    exact ih

theorem bytesOfList_elem (native : Endian) : ∀ (n : ℕ) (l : List UInt8), l.length = n * size α →
    bytesOfList native (List.ofFn fun i : Fin n => elem (α := α) native l i) = l
  | 0, l, h => by
    rw [Nat.zero_mul] at h
    rw [List.length_eq_zero_iff.mp h]
    rfl
  | n + 1, l, h => by
    have hdrop : (l.drop (size α)).length = n * size α := by
      rw [List.length_drop, h, Nat.add_mul]; omega
    have hhead : bytes native (elem (α := α) native l 0) = l.take (size α) := by
      rw [elem, Nat.zero_mul, List.drop_zero, bytes_ofBytes]
      rw [List.length_take, h, Nat.add_mul]; omega
    have htail : ∀ i : Fin n, elem (α := α) native l (i + 1) = elem native (l.drop (size α)) i := by
      intro i
      rw [elem, elem, List.drop_drop, Nat.add_mul, Nat.one_mul, Nat.add_comm]
    have ih := bytesOfList_elem native n (l.drop (size α)) hdrop
    rw [bytesOfList] at ih ⊢
    rw [List.ofFn_succ, List.flatMap_cons]
    simp only [Fin.val_zero, Fin.val_succ, htail]
    rw [hhead, ih, List.take_append_drop]

variable {n : ℕ}

instance : ObjectRep (Vector α n) where
  size := n * size α
  bytes native v := bytesOfList native v.toList
  ofBytes native l := ⟨(List.ofFn fun i : Fin n => elem native l i).toArray, by simp⟩
  length_bytes native v := by rw [length_bytesOfList, Vector.length_toList]
  ofBytes_bytes native v := by
    apply Vector.toList_inj.mp
    refine List.ext_getElem (by simp) fun i h1 h2 => ?_
    simp [elem_bytesOfList native v.toList i h2]
  bytes_ofBytes native l h := bytesOfList_elem native n l h

theorem bytes_vector (native : Endian) (v : Vector α n) :
    bytes native v = v.toList.flatMap (bytes native) := rfl

end Arrays

/-! ### `std::bit_cast` -/

section BitCast
variable {α β γ : Type} [ObjectRep α] [ObjectRep β] [ObjectRep γ]

/-- **`std::bit_cast`** between types of the same size. -/
def bitCast (β : Type) [ObjectRep β] (native : Endian) (x : α) : β :=
  ofBytes native (bytes native x)

theorem bytes_bitCast (native : Endian) (h : size α = size β) (x : α) :
    bytes native (bitCast β native x) = bytes native x :=
  bytes_ofBytes native _ (by rw [length_bytes, h])

theorem bitCast_self (native : Endian) (x : α) : bitCast α native x = x := ofBytes_bytes native x

theorem bitCast_bitCast (native : Endian) (h : size α = size β) (x : α) :
    bitCast γ native (bitCast β native x) = bitCast γ native x := by
  rw [bitCast, bytes_bitCast native h]; rfl

theorem bitCast_cancel (native : Endian) (h : size α = size β) (x : α) :
    bitCast α native (bitCast β native x) = x := by
  rw [bitCast_bitCast native h, bitCast_self]

theorem bytes_inj (native : Endian) {x y : α} (h : bytes native x = bytes native y) : x = y := by
  rw [← ofBytes_bytes native x, h, ofBytes_bytes]

end BitCast

/-! ### `std::byteswap` -/

/-- The value with the bytes in the other order. -/
def byteswap {α : Type} [ObjectRep α] (x : α) : α := ofBytes .little (bytes .little x).reverse

theorem bytes_byteswap_little {α : Type} [ObjectRep α] (x : α) :
    bytes .little (byteswap x) = (bytes .little x).reverse :=
  bytes_ofBytes .little _ (by rw [List.length_reverse, length_bytes])

theorem byteswap_byteswap {α : Type} [ObjectRep α] (x : α) : byteswap (byteswap x) = x := by
  apply bytes_inj .little
  rw [bytes_byteswap_little, bytes_byteswap_little, List.reverse_reverse]

/-- **A swapped integer has, on a little-endian machine, the bytes in network order.** -/
theorem bytes_byteswap (x : UInt16) : bytes .little (byteswap x) = bytes .big x :=
  bytes_byteswap_little x

/-- The bytes in network order: the more significant one first. -/
theorem bytes_big (x : UInt16) :
    bytes .big x = [UInt8.ofNat (x.toNat / 256), UInt8.ofNat x.toNat] := rfl

example : byteswap (0x1234 : UInt16) = 0x3412 := by decide

example : bitCast UInt32 .little (#v[1, 2, 3, 4] : Vector UInt8 4) = 0x04030201 := by decide

end Iouxx.Cpp.Memory
