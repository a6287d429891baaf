import Iouxx.Cpp.CharConv
import Iouxx.Cpp.Memory
import Iouxx.Lib.Loop
import Iouxx.Utility

/-!
# Byte order and ports (`ip.hpp`, `hton_16`, `hton`, `port`)

* `bytes_hton16`: a converted integer has the bytes of network order in memory;
* `Port.fromString_eq_ok_iff`: **the checked parser accepts exactly the text of a port**, the decimal
  numeral of its number;
* `Port.fromStringUncheck_of_fromString`: the unchecked parser agrees on what the checked one accepts.
-/

namespace Iouxx.Ip

open Iouxx.Cpp.Error Iouxx.Cpp.CharConv Iouxx.Cpp.Memory
open Iouxx.Utility

/-! ### Byte order -/

/-- `hton_16`. -/
def hton16 (native : Endian) (host : UInt16) : UInt16 :=
  match native with
  | .little => byteswap host
  | .big => host

/-- `hton` of eight groups, and the effect of `hton_inplace`. -/
def hton (native : Endian) (host : Vector UInt16 8) : Vector UInt16 8 :=
  match native with
  | .little => host.map byteswap
  | .big => host

@[simp] theorem hton16_hton16 (native : Endian) (x : UInt16) :
    hton16 native (hton16 native x) = x := by
  cases native
  · exact byteswap_byteswap x
  · rfl

theorem hton_eq_map (native : Endian) (v : Vector UInt16 8) :
    hton native v = v.map (hton16 native) := by
  cases native
  · rfl
  · exact (Vector.map_id v).symm

@[simp] theorem hton_hton (native : Endian) (v : Vector UInt16 8) :
    hton native (hton native v) = v := by
  rw [hton_eq_map, hton_eq_map, Vector.map_map]
  ext i hi
  rw [Vector.getElem_map, Function.comp_apply, hton16_hton16]

theorem bytes_hton16 (native : Endian) (x : UInt16) :
    ObjectRep.bytes native (hton16 native x) = ObjectRep.bytes .big x := by
  cases native
  · exact bytes_byteswap x
  · rfl

theorem bytes_big_hton16 (native : Endian) (x : UInt16) :
    ObjectRep.bytes .big (hton16 native x) = ObjectRep.bytes native x := by
  rw [← bytes_hton16 native, hton16_hton16]

/-! ### Ports -/

/-- `port`: the number in network byte order. -/
structure Port where
  raw : UInt16
  deriving DecidableEq, Repr

namespace Port

/-- The number of a port, in the byte order of the machine. -/
def number (native : Endian) (p : Port) : ℕ := (hton16 native p.raw).toNat

/-- The port with this number. -/
def ofNumber (native : Endian) (portNum : ℕ) : Port := ⟨hton16 native (UInt16.ofNat portNum)⟩

/-- `port::from_string`. -/
def fromString (native : Endian) (portStr : List Char) : Except ErrorCode Port :=
  if portStr.length > 1 ∧ portStr.head? = some '0' then
    failInvalidArgument -- leading zero
  else
    match fromChars 10 65535 portStr with
    | .error ec => failErrc ec
    | .ok (portNum, ptr) =>
      if ptr ≠ [] then failInvalidArgument -- not fully consumed
      else .ok (ofNumber native portNum)

/-- `port::from_string_uncheck`; `none` is an assumption that is false. -/
def fromStringUncheck (native : Endian) (portStr : List Char) : Option Port :=
  match fromChars 10 65535 portStr with
  | .ok (portNum, []) => some (ofNumber native portNum)
  | _ => none

/-- `formatter<port>::format`. -/
def format (native : Endian) (p : Port) : List Char := toChars 10 false (hton16 native p.raw).toNat

/-- `port::to_string`. -/
def toString (native : Endian) (p : Port) : List Char := p.format native

theorem number_lt (native : Endian) (p : Port) : p.number native < 65536 :=
  (hton16 native p.raw).toNat_lt

@[simp] theorem ofNumber_number (native : Endian) (p : Port) :
    ofNumber native (p.number native) = p := by
  rw [ofNumber, number, UInt16.ofNat_toNat, hton16_hton16]

theorem number_ofNumber (native : Endian) {v : ℕ} (h : v < 65536) :
    (ofNumber native v).number native = v := by
  rw [ofNumber, number, hton16_hton16]
  exact UInt16.toNat_ofNat_of_lt' h

theorem toString_eq (native : Endian) (p : Port) :
    p.toString native = toChars 10 false (p.number native) := rfl

theorem isDigit_toString (native : Endian) (p : Port) :
    ∀ c ∈ p.toString native, isDigit 10 c = true :=
  isDigit_toChars (by omega) (by omega) false _

/-- **The checked parser accepts exactly the text of a port.** -/
theorem fromString_eq_ok_iff {native : Endian} {s : List Char} {p : Port} :
    fromString native s = .ok p ↔ s = p.toString native := by
  constructor
  · intro h
    unfold fromString at h
    split_ifs at h with h0
    · exact absurd h (failInvalidArgument_ne_ok p)
    · cases hf : fromChars 10 65535 s with
      | error ec => rw [hf] at h; exact absurd h (failErrc_ne_ok ec p)
      | ok r =>
        obtain ⟨v, ptr⟩ := r
        rw [hf] at h
        simp only at h
        split_ifs at h with h1
        · exact absurd h (failInvalidArgument_ne_ok p)
        · rw [not_not] at h1
          subst h1
          obtain ⟨hs, hmax⟩ := fromChars_decimal_iff.mp ⟨h0, hf⟩
          rw [← Except.ok.inj h, toString_eq, number_ofNumber native (by omega)]
          exact hs
  · intro hs
    have hlt := p.number_lt native
    obtain ⟨h0, hf⟩ := fromChars_decimal_iff.mpr ⟨hs.trans (toString_eq native p),
      (Nat.le_of_lt_succ hlt : p.number native ≤ 65535)⟩
    unfold fromString
    rw [if_neg h0, hf]
    simp

/-- **The unchecked parser agrees** on what the checked one accepts. -/
theorem fromStringUncheck_of_fromString {native : Endian} {s : List Char} {p : Port}
    (h : fromString native s = .ok p) : fromStringUncheck native s = some p := by
  have hlt := p.number_lt native
  have hs := fromString_eq_ok_iff.mp h
  obtain ⟨-, hf⟩ := fromChars_decimal_iff.mpr ⟨hs.trans (toString_eq native p),
    (Nat.le_of_lt_succ hlt : p.number native ≤ 65535)⟩
  unfold fromStringUncheck
  rw [hf]
  simp

example : fromString .little "8080".toList = .ok ⟨0x901f⟩ := by decide

end Port

end Iouxx.Ip
