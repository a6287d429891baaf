import Iouxx.Ip.FormatV6

/-!
# IPv4-mapped addresses (`ip.hpp`, `is_ipv4_mapped`, `to_ipv4_mapped`)

An address in `::ffff:0:0/96` is one whose groups are `mappedGroups` of an IPv4 address. The predicate
and the extraction look at the raw groups (`groups_eq_mappedGroups_iff`), the parser and the formatter
go through the text (`fromString_mappedText`, `toString_of_groups`).

* `isIpv4Mapped_iff_text`: **the predicate, the formatter and the parser agree** on the mapped
  addresses.
-/

namespace Iouxx.Ip.AddressV6

open Iouxx.Cpp.CharConv Iouxx.Cpp.Memory
open Iouxx.Lib.Fill Iouxx.Lib.LongestRun
open Iouxx.Ip.Text

/-- `address_v6::is_ipv4_mapped`. -/
def isIpv4Mapped (a : AddressV6) : Bool :=
  a.raw.get 0 == 0 && a.raw.get 1 == 0 && a.raw.get 2 == 0 && a.raw.get 3 == 0 && a.raw.get 4 == 0 &&
    a.raw.get 5 == 0xffff

/-- `address_v6::to_ipv4_mapped`; `none` is an assertion that fails. -/
def toIpv4Mapped (native : Endian) (a : AddressV6) : Option AddressV4 :=
  if a.isIpv4Mapped then
    let rawV4Part : Vector UInt16 2 := #v[a.raw.get 6, a.raw.get 7]
    some ⟨bitCast _ native rawV4Part⟩
  else none

/-- The groups of the mapped address of `b`. -/
def mappedGroups (native : Endian) (b : AddressV4) : List UInt16 :=
  [0, 0, 0, 0, 0, 0xffff] ++ v4Groups native b

/-- The text of the mapped address of `b`. -/
def mappedText (native : Endian) (b : AddressV4) : List Char :=
  "::ffff:".toList ++ b.toString native

/-! ### The raw groups -/

theorem toList_raw (a : AddressV6) :
    a.raw.toList = [a.raw.get 0, a.raw.get 1, a.raw.get 2, a.raw.get 3, a.raw.get 4, a.raw.get 5, a.raw.get 6,
      a.raw.get 7] := by
  obtain ⟨⟨⟨l⟩, hl⟩⟩ := a
  match l, hl with
  | [x0, x1, x2, x3, x4, x5, x6, x7], _ => rfl

theorem isIpv4Mapped_iff (a : AddressV6) :
    a.isIpv4Mapped = true ↔ a.raw.toList.take 6 = [0, 0, 0, 0, 0, 0xffff] := by
  rw [toList_raw]
  simp [isIpv4Mapped, and_assoc]

theorem eq_bitCast_iff (native : Endian) (b : AddressV4) (v : Vector UInt16 2) :
    b = ⟨bitCast _ native v⟩ ↔ v4Parts native b = v := by
  constructor
  · rintro rfl
    exact bitCast_cancel (α := Vector UInt16 2) (β := UInt32) native rfl v
  · rintro rfl
    rw [v4Parts, bitCast_cancel (α := UInt32) (β := Vector UInt16 2) native rfl]

theorem hton16_injective (native : Endian) : Function.Injective (hton16 native) :=
  Function.Involutive.injective (hton16_hton16 native)

theorem mappedGroups_eq_map (native : Endian) (b : AddressV4) :
    mappedGroups native b = ([0, 0, 0, 0, 0, 0xffff] ++ (v4Parts native b).toList).map
      (hton16 native) := by
  have h0 : hton16 native 0 = 0 := by cases native <;> decide
  have hf : hton16 native 0xffff = 0xffff := by cases native <;> decide
  have hlist : (v4Parts native b).toList = [(v4Parts native b)[0], (v4Parts native b)[1]] := by
    obtain ⟨⟨l⟩, hl⟩ := v4Parts native b
    obtain ⟨x, y, rfl⟩ := List.length_eq_two.mp hl
    rfl
  rw [hlist]
  simp [mappedGroups, v4Groups, h0, hf]

/-- **The raw groups**: predicate and extraction name the mapped address of `b`. -/
theorem groups_eq_mappedGroups_iff (native : Endian) (a : AddressV6) (b : AddressV4) :
    (a.groups native).toList = mappedGroups native b ↔
      a.isIpv4Mapped = true ∧ a.toIpv4Mapped native = some b := by
  have hraw : (a.groups native).toList = mappedGroups native b ↔
      a.raw.toList = [0, 0, 0, 0, 0, 0xffff] ++ (v4Parts native b).toList := by
    rw [mappedGroups_eq_map, groups, hton_eq_map, Vector.toList_map]
    exact (List.map_injective_iff.mpr (hton16_injective native)).eq_iff
  have htail : a.raw.toList = [0, 0, 0, 0, 0, 0xffff] ++ (v4Parts native b).toList ↔
      a.isIpv4Mapped = true ∧ v4Parts native b = #v[a.raw.get 6, a.raw.get 7] := by
    have hdrop : a.raw.toList.drop 6 = (#v[a.raw.get 6, a.raw.get 7] : Vector UInt16 2).toList := by
      rw [toList_raw]; rfl
    rw [isIpv4Mapped_iff, ← Vector.toList_inj, ← hdrop]
    constructor
    · intro h
      rw [h]
      exact ⟨rfl, rfl⟩
    · rintro ⟨htake, hv⟩
      rw [← htake, hv, List.take_append_drop]
  rw [hraw, htail]
  constructor
  · rintro ⟨hm, hv⟩
    refine ⟨hm, ?_⟩
    rw [toIpv4Mapped, if_pos hm, (eq_bitCast_iff native b _).mpr hv]
  · rintro ⟨hm, hb⟩
    rw [toIpv4Mapped, if_pos hm] at hb
    exact ⟨hm, (eq_bitCast_iff native b _).mp (Option.some.inj hb).symm⟩

/-! ### The text -/

theorem lowerHexGroup_zero : LowerHexGroup ['0'] 0 := lowerHexGroup_iff.mpr (by decide)

theorem lowerHexGroup_ffff : LowerHexGroup ['f', 'f', 'f', 'f'] 0xffff :=
  lowerHexGroup_iff.mpr (by decide)

theorem mappedText_eq (native : Endian) (b : AddressV4) :
    mappedText native b = [':', ':'] ++ joined [['f', 'f', 'f', 'f'], b.toString native] := by
  unfold mappedText joined
  generalize b.toString native = t
  rw [List.intercalate_cons_cons, List.intercalate_singleton]
  rfl

theorem isText_mappedText (native : Endian) (b : AddressV4) :
    IsText (mappedText native b) (mappedGroups native b) := by
  have hhex : HexGroup ['f', 'f', 'f', 'f'] 0xffff := lowerHexGroup_ffff.toHexGroup
  have hquad : DottedQuad (b.toString native) (b.octets native) := dottedQuad_iff.mpr rfl
  have h := IsText.compressed .nil (.hex hhex (.quad hquad)) (by simp [length_quadGroups])
  rw [List.length_cons, length_quadGroups, ← v4Groups_ofOctets native,
    AddressV4.ofOctets_octets] at h
  rw [mappedText_eq]
  exact h

/-- **The parser** reads the text as the mapped address. -/
theorem fromString_mappedText (native : Endian) (a : AddressV6) (b : AddressV4) :
    fromString native (mappedText native b) = .ok a ↔
      (a.groups native).toList = mappedGroups native b := by
  have htext := isText_mappedText native b
  have hlen := htext.length_groups
  have hok : fromString native (mappedText native b) =
      .ok (ofGroups native (fill (mappedGroups native b))) := by
    rw [fromString_eq_ok_iff, groups_ofGroups, toList_fill hlen]
    exact Or.inl htext
  rw [hok, ← eq_ofGroups_fill_iff hlen, Except.ok.injEq, eq_comm]

/-- **The formatter** writes the text for the mapped address. -/
theorem toString_of_groups {native : Endian} {a : AddressV6} {b : AddressV4}
    (h : (a.groups native).toList = mappedGroups native b) :
    a.toString native = mappedText native b := by
  have hdrop : (a.groups native).toList.drop 6 = quadGroups (b.octets native) := by
    rw [h, ← v4Groups_ofOctets native, AddressV4.ofOctets_octets]; rfl
  have htake : (a.groups native).toList.take 6 = [0, 0, 0, 0, 0, 0xffff] := by rw [h]; rfl
  have huses : UsesQuad (a.groups native) := Or.inl htake
  have hhex : hexPart (a.groups native) = [0, 0, 0, 0, 0, 0xffff] := by
    rw [hexPart, if_pos huses, htake]
  have hrun : LeftmostLongest (· == 0) (hexPart (a.groups native)) 0 5 := by
    rw [hhex]
    exact scan_spec (· == 0) ([0, 0, 0, 0, 0, 0xffff] : List UInt16)
  refine (isCanonicalText_toString native a).unique
    ⟨[['0'], ['0'], ['0'], ['0'], ['0'], ['f', 'f', 'f', 'f']], [b.toString native], 0, 5, ?_, ?_,
      hrun, ?_⟩
  · rw [hhex]
    exact .cons lowerHexGroup_zero (.cons lowerHexGroup_zero (.cons lowerHexGroup_zero
      (.cons lowerHexGroup_zero (.cons lowerHexGroup_zero (.cons lowerHexGroup_ffff .nil)))))
  · rw [QuadPart, if_pos huses]
    exact ⟨_, b.octets native, rfl, dottedQuad_iff.mpr rfl, hdrop.symm⟩
  · rw [mappedText_eq]
    rfl

/-- **The predicate, the formatter and the parser agree**: `a` is the mapped address of `b` exactly
when its text is `::ffff:` and the text of `b`, and exactly when the parser reads this text as `a`. -/
theorem isIpv4Mapped_iff_text (native : Endian) (a : AddressV6) (b : AddressV4) :
    ((a.isIpv4Mapped = true ∧ a.toIpv4Mapped native = some b) ↔
      a.toString native = "::ffff:".toList ++ b.toString native) ∧
    (a.toString native = "::ffff:".toList ++ b.toString native ↔
      fromString native ("::ffff:".toList ++ b.toString native) = .ok a) := by
  have hparse := fromString_mappedText native a b
  have hformat : a.toString native = mappedText native b ↔
      fromString native (mappedText native b) = .ok a := by
    constructor
    · intro h
      rw [← h]
      exact fromString_format .recommended native a
    · intro h
      exact toString_of_groups (hparse.mp h)
  rw [← groups_eq_mappedGroups_iff]
  exact ⟨hparse.symm.trans hformat.symm, hformat⟩

example : toIpv4Mapped .little (ofGroups .little #v[0, 0, 0, 0, 0, 0xffff, 0xc000, 0x201]) =
    some (AddressV4.ofOctets .little #v[192, 0, 2, 1]) := by decide +kernel

end Iouxx.Ip.AddressV6
