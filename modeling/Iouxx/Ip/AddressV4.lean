import Iouxx.Cpp.CharConv
import Iouxx.Cpp.Memory
import Iouxx.Cpp.Split
import Iouxx.Lib.Fill
import Iouxx.Lib.Loop
import Iouxx.Utility

/-!
# IPv4 addresses (`ip.hpp`, `address_v4`)

An address holds its 32 bits in network byte order; its four octets are the bytes of this word in
memory. Functions that look at single bytes take the byte order `native` of the machine. A C++
string is a list of characters, the bytes being the characters up to 255.

* `parts_ok_iff`: the loop over the parts accepts decimal octets and writes them one after another;
* `fromString_eq_ok_iff`: **the checked parser accepts exactly the text of an address**;
* `fromStringUncheck_of_fromString`: the unchecked parser agrees on what the checked one accepts.
-/

namespace Iouxx.Ip

open Iouxx.Cpp.Error Iouxx.Cpp.CharConv Iouxx.Cpp.Memory Iouxx.Cpp.Split
open Iouxx.Lib.Fill Iouxx.Lib.Loop Iouxx.Utility

/-- `address_v4`: the address in network byte order. -/
structure AddressV4 where
  raw : UInt32
  deriving DecidableEq, Repr

namespace AddressV4

/-- The four octets, as they stand in memory. -/
def octets (native : Endian) (a : AddressV4) : Vector UInt8 4 := bitCast _ native a.raw

/-- The address with these octets in memory. -/
def ofOctets (native : Endian) (v : Vector UInt8 4) : AddressV4 := ⟨bitCast _ native v⟩

/-! ### The parsers -/

/-- The local variables of the parsers. -/
structure PartState where
  partResults : Vector UInt8 4
  count : ℕ

/-- Both parsers start with zeros. -/
def PartState.init : PartState := ⟨Vector.replicate 4 0, 0⟩

/-- The loop body of `from_string`. -/
def parsePart (st : PartState) (sub : List Char) : Except ErrorCode PartState :=
  if h : st.count ≥ 4 then failInvalidArgument
  else if sub = [] ∨ sub.length > 3 then
    failInvalidArgument -- empty part or too long
  else if sub.length > 1 ∧ sub.head? = some '0' then
    failInvalidArgument -- leading zero
  else
    match fromChars 10 255 sub with
    | .error ec => failErrc ec
    | .ok (v, ptr) =>
      if ptr ≠ [] then failInvalidArgument -- not fully consumed
      else .ok ⟨st.partResults.set st.count (UInt8.ofNat v) (Nat.lt_of_not_le h),
        st.count + 1⟩

/-- `address_v4::from_string`: `d.d.d.d`, where `d` is 0-255, without leading zeros. -/
def fromString (native : Endian) (ipv4Str : List Char) : Except ErrorCode AddressV4 := do
  if ipv4Str = [] ∨ ipv4Str.length > 15 then failInvalidArgument
  else
    let st ← (split ['.'] ipv4Str).foldlM parsePart .init
    if st.count ≠ 4 then failInvalidArgument
    else .ok (ofOctets native st.partResults)

/-- The loop body of `from_string_uncheck`; `none` is undefined behaviour, here an index out of the
array or an assumption that is false. -/
def parsePartUncheck (st : PartState) (sub : List Char) : Option PartState :=
  if h : st.count < 4 then
    match fromChars 10 255 sub with
    | .ok (v, []) => some ⟨st.partResults.set st.count (UInt8.ofNat v) h, st.count + 1⟩
    | _ => none
  else none

/-- `address_v4::from_string_uncheck`. -/
def fromStringUncheck (native : Endian) (ipv4Str : List Char) : Option AddressV4 := do
  let st ← (split ['.'] ipv4Str).foldlM parsePartUncheck .init
  return ofOctets native st.partResults

/-! ### The formatter -/

/-- The text of an octet. -/
def octetText (b : UInt8) : List Char := toChars 10 false b.toNat

/-- The format string `{}.{}.{}.{}`. -/
def quadText (v : Vector UInt8 4) : List Char :=
  octetText v[0] ++ ['.'] ++ octetText v[1] ++ ['.'] ++ octetText v[2] ++ ['.'] ++ octetText v[3]

/-- `formatter<address_v4>::format`. -/
def format (native : Endian) (a : AddressV4) : List Char := quadText (a.octets native)

/-- `address_v4::to_string`. -/
def toString (native : Endian) (a : AddressV4) : List Char := a.format native

@[simp] theorem octets_ofOctets (native : Endian) (v : Vector UInt8 4) :
    (ofOctets native v).octets native = v :=
  bitCast_cancel (α := Vector UInt8 4) (β := UInt32) native rfl v

@[simp] theorem ofOctets_octets (native : Endian) (a : AddressV4) :
    ofOctets native (a.octets native) = a := by
  unfold ofOctets octets
  rw [bitCast_cancel (α := UInt32) (β := Vector UInt8 4) native rfl]

theorem bytes_raw (native : Endian) (a : AddressV4) :
    ObjectRep.bytes native a.raw = (a.octets native).toList := by
  have h := bytes_bitCast (α := UInt32) (β := Vector UInt8 4) native rfl a.raw
  rw [← h, bytes_vector]
  exact List.flatMap_singleton' _

/-! ### The text of the octets -/

theorem octetText_ne_nil (b : UInt8) : octetText b ≠ [] := toChars_ne_nil false _

theorem length_octetText_le (b : UInt8) : (octetText b).length ≤ 3 := by
  have := b.toNat_lt
  exact length_toChars_le (by omega) false (by omega) (by omega)

theorem not_mem_octetText {c : Char} (hc : digitValue c = none) (b : UInt8) : c ∉ octetText b :=
  fun h => isDigit_ne (isDigit_toChars (by omega) (by omega) false _ c h) hc rfl

theorem toList_eq (v : Vector UInt8 4) : v.toList = [v[0], v[1], v[2], v[3]] := by
  obtain ⟨⟨l⟩, hl⟩ := v
  obtain ⟨a, b, c, d, rfl⟩ := List.length_eq_four.mp hl
  rfl

theorem quadText_eq_intercalate (v : Vector UInt8 4) :
    quadText v = ['.'].intercalate (v.toList.map octetText) := by
  rw [toList_eq]
  simp [quadText]

theorem length_quadText_le (v : Vector UInt8 4) : (quadText v).length ≤ 15 := by
  have h0 := length_octetText_le v[0]
  have h1 := length_octetText_le v[1]
  have h2 := length_octetText_le v[2]
  have h3 := length_octetText_le v[3]
  simp only [quadText, List.length_append, List.length_singleton]
  omega

theorem quadText_ne_nil (v : Vector UInt8 4) : quadText v ≠ [] := by simp [quadText]

theorem mem_quadText {v : Vector UInt8 4} {c : Char} (h : c ∈ quadText v) :
    c = '.' ∨ isDigit 10 c = true := by
  rw [quadText_eq_intercalate] at h
  rcases mem_intercalate h with h | ⟨t, ht, h⟩
  · exact Or.inl (List.mem_singleton.mp h)
  · obtain ⟨b, -, rfl⟩ := List.mem_map.mp ht
    exact Or.inr (isDigit_toChars (by omega) (by omega) false _ c h)

theorem split_quadText (v : Vector UInt8 4) :
    split ['.'] (quadText v) = v.toList.map octetText := by
  have hne := quadText_ne_nil v
  rw [quadText_eq_intercalate] at hne ⊢
  refine split_intercalate hne fun t ht => ?_
  obtain ⟨b, -, rfl⟩ := List.mem_map.mp ht
  exact not_mem_octetText (by decide) b

/-! ### What the parser accepts -/

/-- **The loop body accepts the text of an octet**, as long as there is room. -/
theorem parsePart_eq_ok_iff {bs : List UInt8} {sub : List Char} {st : PartState} :
    parsePart ⟨fill bs, bs.length⟩ sub = .ok st ↔
      bs.length < 4 ∧ ∃ b, sub = octetText b ∧ st = ⟨fill (bs ++ [b]), bs.length + 1⟩ := by
  constructor
  · intro h
    unfold parsePart at h
    split_ifs at h with h1 h2 h3
    · exact absurd h (failInvalidArgument_ne_ok st)
    · exact absurd h (failInvalidArgument_ne_ok st)
    · exact absurd h (failInvalidArgument_ne_ok st)
    · cases hf : fromChars 10 255 sub with
      | error ec => rw [hf] at h; exact absurd h (failErrc_ne_ok ec st)
      | ok r =>
        obtain ⟨v, ptr⟩ := r
        rw [hf] at h
        simp only at h
        split_ifs at h with h4
        · exact absurd h (failInvalidArgument_ne_ok st)
        · rw [not_not] at h4
          subst h4
          obtain ⟨hsub, hmax⟩ := fromChars_decimal_iff.mp ⟨h3, hf⟩
          have hlt : v < 256 := by omega
          have hnat : (UInt8.ofNat v).toNat = v := UInt8.toNat_ofNat_of_lt' hlt
          refine ⟨by simpa using h1, UInt8.ofNat v, by rw [octetText, hnat]; exact hsub, ?_⟩
          rw [← Except.ok.inj h, set_fill]
  · rintro ⟨hlt, b, rfl, rfl⟩
    have hb := b.toNat_lt
    obtain ⟨h3, hf⟩ := fromChars_decimal_iff.mpr ⟨(rfl : octetText b = _), Nat.le_of_lt_succ hb⟩
    have h2 : ¬ (octetText b = [] ∨ (octetText b).length > 3) := by
      have := length_octetText_le b
      rintro (h | h)
      · exact octetText_ne_nil b h
      · omega
    unfold parsePart
    rw [dif_neg (by simpa using hlt), if_neg h2, if_neg h3, hf]
    simp only [ne_eq, not_true_eq_false, if_false, UInt8.ofNat_toNat]
    rw [set_fill]

theorem parts_ok_iff : ∀ {parts : List (List Char)} {bs : List UInt8} {st : PartState},
    bs.length ≤ 4 → (parts.foldlM parsePart ⟨fill bs, bs.length⟩ = .ok st ↔
      ∃ new : List UInt8, parts = new.map octetText ∧ (bs ++ new).length ≤ 4 ∧
        st = ⟨fill (bs ++ new), (bs ++ new).length⟩)
  | [], bs, st, hbs => by
    rw [foldlM_nil_ok_iff]
    constructor
    · rintro rfl; exact ⟨[], rfl, by simpa using hbs, by simp⟩
    · rintro ⟨new, hnew, -, rfl⟩
      rw [List.map_eq_nil_iff.mp hnew.symm]; simp
  | sub :: parts, bs, st, hbs => by
    rw [foldlM_cons_ok_iff]
    constructor
    · rintro ⟨st1, h1, h2⟩
      obtain ⟨hlt, b, rfl, rfl⟩ := parsePart_eq_ok_iff.mp h1
      have hlen : (bs ++ [b]).length = bs.length + 1 := by simp
      rw [← hlen, parts_ok_iff (by omega)] at h2
      obtain ⟨new, rfl, hle, rfl⟩ := h2
      exact ⟨b :: new, rfl, by simpa using hle, by simp⟩
    · rintro ⟨new, hnew, hle, rfl⟩
      rcases new with _ | ⟨b, new⟩
      · simp at hnew
      · rw [List.map_cons, List.cons.injEq] at hnew
        obtain ⟨rfl, rfl⟩ := hnew
        have hlt : bs.length < 4 := by
          simp only [List.length_append, List.length_cons] at hle; omega
        refine ⟨_, parsePart_eq_ok_iff.mpr ⟨hlt, b, rfl, rfl⟩, ?_⟩
        have hlen : (bs ++ [b]).length = bs.length + 1 := by simp
        rw [← hlen, parts_ok_iff (by omega)]
        exact ⟨new, rfl, by simpa using hle, by simp⟩

theorem init_eq_fill : PartState.init = ⟨fill [], ([] : List UInt8).length⟩ := by
  rw [fill_nil]; rfl

theorem fromString_eq_ok_iff_quadText {native : Endian} {s : List Char} {a : AddressV4} :
    fromString native s = .ok a ↔ ∃ v, s = quadText v ∧ a = ofOctets native v := by
  unfold fromString
  constructor
  · intro h
    split_ifs at h with h1
    · exact absurd h (failInvalidArgument_ne_ok a)
    · obtain ⟨st, hst, h2⟩ := bind_eq_ok_iff.mp h
      rw [init_eq_fill, parts_ok_iff (by simp)] at hst
      obtain ⟨new, hnew, -, rfl⟩ := hst
      split_ifs at h2 with h3
      · exact absurd h2 (failInvalidArgument_ne_ok a)
      · have hlen : new.length = 4 := by simpa using h3
        refine ⟨fill new, ?_, (Except.ok.inj h2).symm⟩
        rw [quadText_eq_intercalate, toList_fill hlen, ← hnew, intercalate_split (by simp)]
  · rintro ⟨v, rfl, rfl⟩
    have hlen := length_quadText_le v
    have h1 : ¬ (quadText v = [] ∨ (quadText v).length > 15) := by
      rintro (h | h)
      · exact quadText_ne_nil v h
      · omega
    rw [if_neg h1, bind_eq_ok_iff]
    refine ⟨⟨fill v.toList, v.toList.length⟩, ?_, ?_⟩
    · rw [init_eq_fill, parts_ok_iff (by simp)]
      exact ⟨v.toList, split_quadText v, by simp, by simp⟩
    · rw [if_neg (by simp), fill_toList]

/-- **The checked parser accepts exactly the text of an address.** -/
theorem fromString_eq_ok_iff {native : Endian} {s : List Char} {a : AddressV4} :
    fromString native s = .ok a ↔ s = a.toString native := by
  rw [fromString_eq_ok_iff_quadText]
  constructor
  · rintro ⟨v, rfl, rfl⟩
    rw [toString, format, octets_ofOctets]
  · rintro rfl
    exact ⟨a.octets native, rfl, (ofOctets_octets native a).symm⟩

/-! ### The unchecked parser -/

theorem parsePartUncheck_of_parsePart {st st' : PartState} {sub : List Char}
    (h : parsePart st sub = .ok st') : parsePartUncheck st sub = some st' := by
  unfold parsePart at h
  split_ifs at h with h1 h2 h3
  · exact absurd h (failInvalidArgument_ne_ok st')
  · exact absurd h (failInvalidArgument_ne_ok st')
  · exact absurd h (failInvalidArgument_ne_ok st')
  · cases hf : fromChars 10 255 sub with
    | error ec => rw [hf] at h; exact absurd h (failErrc_ne_ok ec st')
    | ok r =>
      obtain ⟨v, ptr⟩ := r
      rw [hf] at h
      simp only at h
      split_ifs at h with h4
      · exact absurd h (failInvalidArgument_ne_ok st')
      · rw [not_not] at h4
        subst h4
        unfold parsePartUncheck
        rw [dif_pos (by omega), hf, ← Except.ok.inj h]

/-- **The unchecked parser agrees** on what the checked one accepts. -/
theorem fromStringUncheck_of_fromString {native : Endian} {s : List Char} {a : AddressV4}
    (h : fromString native s = .ok a) : fromStringUncheck native s = some a := by
  unfold fromString at h
  split_ifs at h with h1
  · exact absurd h (failInvalidArgument_ne_ok a)
  · obtain ⟨st, hst, h2⟩ := bind_eq_ok_iff.mp h
    obtain ⟨st', hst', rfl⟩ := foldlM_simulate (g := parsePartUncheck) (R := Eq)
      (fun s t x s' hR hs => ⟨s', hR ▸ parsePartUncheck_of_parsePart hs, rfl⟩) _ rfl hst
    split_ifs at h2 with h3
    · exact absurd h2 (failInvalidArgument_ne_ok a)
    · unfold fromStringUncheck
      rw [hst', ← Except.ok.inj h2]
      rfl

end AddressV4

end Iouxx.Ip
