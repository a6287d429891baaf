import Iouxx.Ip.AddressV4
import Iouxx.Ip.Port

/-!
# IPv6 addresses (`ip.hpp`, `address_v6`)

An address holds its eight groups in network byte order. Both parsers split the string at `::` and
each of the parts at `:`, and count the groups they have written; the unchecked one has undefined
behaviour where the checked one reports an error.
-/

namespace Iouxx.Ip

open Iouxx.Cpp.Error Iouxx.Cpp.CharConv Iouxx.Cpp.Memory Iouxx.Cpp.Split
open Iouxx.Lib.Fill Iouxx.Utility

/-- `address_v6`: the eight groups in network byte order. -/
structure AddressV6 where
  raw : Vector UInt16 8
  deriving DecidableEq, Repr

namespace AddressV6

/-- The groups in the byte order of the machine. -/
def groups (native : Endian) (a : AddressV6) : Vector UInt16 8 := hton native a.raw

/-- The address with these groups. -/
def ofGroups (native : Endian) (local_ : Vector UInt16 8) : AddressV6 := ⟨hton native local_⟩

@[simp] theorem groups_ofGroups (native : Endian) (v : Vector UInt16 8) :
    (ofGroups native v).groups native = v :=
  hton_hton native v

@[simp] theorem ofGroups_groups (native : Endian) (a : AddressV6) :
    ofGroups native (a.groups native) = a := by
  rw [ofGroups, groups, hton_hton]

theorem eq_ofGroups_iff {native : Endian} {a : AddressV6} {v : Vector UInt16 8} :
    a = ofGroups native v ↔ a.groups native = v :=
  ⟨fun h => by rw [h, groups_ofGroups], fun h => by rw [← h, ofGroups_groups]⟩

/-- `bit_cast` of an IPv4 address to two 16-bit integers. -/
def v4Parts (native : Endian) (v4 : AddressV4) : Vector UInt16 2 := bitCast _ native v4.raw

/-- The two groups of an IPv4 address, in the byte order of the machine. -/
def v4Groups (native : Endian) (v4 : AddressV4) : List UInt16 :=
  [hton16 native (v4Parts native v4)[0], hton16 native (v4Parts native v4)[1]]

/-- The local variables of the parsers. -/
structure SectionState where
  partResults : Vector UInt16 8
  partCount : ℕ
  doubleColonCount : ℕ
  seenIpv4 : Bool

def SectionState.init : SectionState := ⟨Vector.replicate 8 0, 0, 0, false⟩

theorem SectionState.lt_of_le_six {st : SectionState} (h : ¬ st.partCount > 6) :
    st.partCount < 8 := by omega

theorem SectionState.succ_lt_of_le_six {st : SectionState} (h : ¬ st.partCount > 6) :
    st.partCount + 1 < 8 := by omega

theorem SectionState.lt_of_not_ge {st : SectionState} (h : ¬ st.partCount ≥ 8) :
    st.partCount < 8 := by omega

/-! ### The checked parser -/

/-- `parse_one_section`. -/
def parseOneSection (native : Endian) (st : SectionState) (sub : List Char) :
    Except Errc SectionState :=
  if '.' ∈ sub then
    if h : st.partCount > 6 then
      .error .invalidArgument -- not enough space for IPv4
    else
      match AddressV4.fromString native sub with
      | .error _ => .error .invalidArgument
      | .ok v4 =>
        .ok { st with
          partResults := (st.partResults.set st.partCount (hton16 native (v4Parts native v4)[0])
            (SectionState.lt_of_le_six h)).set (st.partCount + 1)
            (hton16 native (v4Parts native v4)[1]) (SectionState.succ_lt_of_le_six h)
          partCount := st.partCount + 2
          seenIpv4 := true }
  else if h : st.partCount ≥ 8 then
    .error .invalidArgument -- too many parts
  else if sub.length > 4 then
    .error .invalidArgument -- too long
  else
    match fromChars 16 65535 sub with
    | .error ec => .error ec
    | .ok (v, ptr) =>
      if ptr ≠ [] then .error .invalidArgument -- not fully consumed
      else
        .ok { st with
          partResults := st.partResults.set st.partCount (UInt16.ofNat v)
            (SectionState.lt_of_not_ge h)
          partCount := st.partCount + 1 }

/-- The body of the two inner loops, which go over the parts between colons. -/
def colonBody (native : Endian) (st : SectionState) (sub : List Char) :
    Except ErrorCode SectionState :=
  if st.seenIpv4 then
    failInvalidArgument -- IPv4 part must be at the end
  else if sub = [] then
    failInvalidArgument -- a single colon at either end, or a pattern like ":::"
  else
    match parseOneSection native st sub with
    | .error ec => failErrc ec
    | .ok st => .ok st

/-- The body of the outer loop, after the counter was increased: the parts between double
colons. -/
def doubleColonBody' (native : Endian) (st : SectionState) (sub : List Char) :
    Except ErrorCode SectionState := do
  if st.doubleColonCount = 1 then
    if sub = [] then .ok st -- leading "::"
    else (split [':'] sub).foldlM (colonBody native) st
  else if st.doubleColonCount = 2 then
    if st.seenIpv4 then failInvalidArgument
    else if sub = [] then .ok { st with partCount := 8 } -- trailing "::"
    else
      let firstPartCount := st.partCount
      let st ← (split [':'] sub).foldlM (colonBody native) st
      if st.partCount ≥ 8 then
        failInvalidArgument -- no space for zeros
      else
        .ok { st with
          partResults := rotate st.partResults firstPartCount st.partCount
          partCount := 8 }
  else
    failInvalidArgument -- more than one "::"

/-- The body of the outer loop. -/
def doubleColonBody (native : Endian) (st : SectionState) (sub : List Char) :
    Except ErrorCode SectionState :=
  doubleColonBody' native { st with doubleColonCount := st.doubleColonCount + 1 } sub

/-- `address_v6::from_string`. -/
def fromString (native : Endian) (ipv6Str : List Char) : Except ErrorCode AddressV6 := do
  if ipv6Str = [] ∨ ipv6Str.length > 45 then failInvalidArgument
  else
    let st ← (split [':', ':'] ipv6Str).foldlM (doubleColonBody native) .init
    if st.partCount ≠ 8 then
      failInvalidArgument -- not enough parts
    else .ok ⟨hton native st.partResults⟩

/-! ### The unchecked parser -/

/-- `parse_one_section` of the unchecked parser; `none` is undefined behaviour: an assumption that
is false or an index out of the array. -/
def parseOneSectionUncheck (native : Endian) (st : SectionState) (sub : List Char) :
    Option SectionState := do
  if h : st.partCount < 8 then
    if '.' ∈ sub then
      let v4 ← AddressV4.fromStringUncheck native sub
      if h' : st.partCount + 1 < 8 then
        some { st with
          partResults := (st.partResults.set st.partCount (hton16 native (v4Parts native v4)[0])
            h).set (st.partCount + 1) (hton16 native (v4Parts native v4)[1]) h'
          partCount := st.partCount + 2
          seenIpv4 := true }
      else none
    else
      match fromChars 16 65535 sub with
      | .ok (v, []) =>
        some { st with
          partResults := st.partResults.set st.partCount (UInt16.ofNat v) h
          partCount := st.partCount + 1 }
      | _ => none
  else none

/-- The body of the outer loop of the unchecked parser, after the counter was increased. -/
def doubleColonBodyUncheck' (native : Endian) (st : SectionState) (sub : List Char) :
    Option SectionState := do
  if st.doubleColonCount = 1 then
    if sub = [] then some st
    else (split [':'] sub).foldlM (parseOneSectionUncheck native) st
  else if st.doubleColonCount = 2 then
    if sub = [] then some st
    else
      let firstPartCount := st.partCount
      let st ← (split [':'] sub).foldlM (parseOneSectionUncheck native) st
      some { st with partResults := rotate st.partResults firstPartCount st.partCount }
  else none -- `std::unreachable`

/-- The body of the outer loop of the unchecked parser. -/
def doubleColonBodyUncheck (native : Endian) (st : SectionState) (sub : List Char) :
    Option SectionState :=
  doubleColonBodyUncheck' native { st with doubleColonCount := st.doubleColonCount + 1 } sub

/-- `address_v6::from_string_uncheck`. -/
def fromStringUncheck (native : Endian) (ipv6Str : List Char) : Option AddressV6 := do
  let st ← (split [':', ':'] ipv6Str).foldlM (doubleColonBodyUncheck native) .init
  return ⟨hton native st.partResults⟩

example : (fromString .little "1::2.3.4.5".toList).map (groups .little) =
    .ok #v[1, 0, 0, 0, 0, 0, 0x203, 0x405] := by decide +kernel

end AddressV6

end Iouxx.Ip
