import Iouxx.Ip.Socket

/-!
# The byte order of the machine (`ip.hpp`)

Parsers and formatters take the byte order of the machine as a parameter, and what they do must not
depend on it: a text denotes bytes in network order (`DenotesV4` and the other relations, which
know no machine), these are the bytes of the parsed value in memory, and equal bytes in memory have
one text.

* `NetworkType.IndependentOfByteOrder.of_parses`: it is enough that the parser accepts what denotes
  some bytes, on each machine;
* `FormatterV6.format_congr`: the texts of an IPv6 address are given by its groups;
* `byteOrder_independent`: **all five types are independent of the byte order**.
-/

namespace Iouxx.Ip

open Iouxx.Cpp.Error Iouxx.Cpp.CharConv Iouxx.Cpp.Memory
open Iouxx.Lib.Fill Iouxx.Lib.Loop
open Iouxx.Ip.Text
open ObjectRep (bytes ofBytes length_bytes bytes_ofBytes)

/-! ### Independence of the byte order -/

/-- A type with a parser and a formatter, on machines of either byte order, the bytes of its raw
values in memory, and the bytes a text denotes. -/
structure NetworkType (A : Type) where
  size : ℕ
  memory : Endian → A → List UInt8
  fromString : Endian → List Char → Except ErrorCode A
  formatWith : Endian → List Char → A → Except SpecError (List Char)
  Denotes : List Char → List UInt8 → Prop

namespace NetworkType
variable {A : Type}

/-- **The byte order of the machine does not matter**: an accepted text denotes one sequence of
bytes, which the parsed value has in memory, on both machines; and every sequence of bytes has the
same text on both, under every format spec. -/
structure IndependentOfByteOrder (T : NetworkType A) : Prop where
  denoted : ∀ {native s a}, T.fromString native s = .ok a →
    ∀ l, T.Denotes s l ↔ l = T.memory native a
  same_memory : ∀ {native s a}, T.fromString native s = .ok a → ∀ native',
    ∃ a', T.fromString native' s = .ok a' ∧ T.memory native' a' = T.memory native a
  memory_onto : ∀ native l, l.length = T.size → ∃ a, T.memory native a = l
  same_text : ∀ {native native' a a'}, T.memory native a = T.memory native' a' →
    ∀ spec, T.formatWith native spec a = T.formatWith native' spec a'

theorem IndependentOfByteOrder.of_parses {T : NetworkType A}
    (hparses : ∀ native s l,
      (∃ a, T.fromString native s = .ok a ∧ T.memory native a = l) ↔ T.Denotes s l)
    (honto : ∀ native l, l.length = T.size → ∃ a, T.memory native a = l)
    (htext : ∀ {native native' a a'}, T.memory native a = T.memory native' a' →
      ∀ spec, T.formatWith native spec a = T.formatWith native' spec a') :
    T.IndependentOfByteOrder where
  denoted := by
    intro native s a h l
    rw [← hparses native]
    constructor
    · rintro ⟨b, hb, rfl⟩
      rw [Except.ok.inj (h.symm.trans hb)]
    · rintro rfl
      exact ⟨a, h, rfl⟩
  same_memory := by
    intro native s a h native'
    exact (hparses native' s _).mpr ((hparses native s _).mp ⟨a, h, rfl⟩)
  memory_onto := honto
  same_text := htext

end NetworkType

/-! ### IPv4 addresses -/

/-- The bytes of a dotted quad are its octets. -/
def DenotesV4 (s : List Char) (l : List UInt8) : Prop := ∃ v, DottedQuad s v ∧ l = v.toList

namespace AddressV4

/-- The bytes of the raw value. -/
def memory (native : Endian) (a : AddressV4) : List UInt8 := bytes native a.raw

def network : NetworkType AddressV4 := ⟨4, memory, fromString, formatWith, DenotesV4⟩

theorem memory_ofOctets (native : Endian) (v : Vector UInt8 4) :
    (ofOctets native v).memory native = v.toList := by
  rw [memory, bytes_raw, octets_ofOctets]

theorem exists_fromString_iff (native : Endian) (s : List Char) (l : List UInt8) :
    (∃ a, fromString native s = .ok a ∧ a.memory native = l) ↔ DenotesV4 s l := by
  constructor
  · rintro ⟨a, ha, rfl⟩
    obtain ⟨v, hs, rfl⟩ := fromString_eq_ok_iff_quadText.mp ha
    exact ⟨v, dottedQuad_iff.mpr hs, memory_ofOctets native v⟩
  · rintro ⟨v, hv, rfl⟩
    exact ⟨ofOctets native v,
      fromString_eq_ok_iff_quadText.mpr ⟨v, dottedQuad_iff.mp hv, rfl⟩, memory_ofOctets native v⟩

theorem memory_onto (native : Endian) (l : List UInt8) (h : l.length = 4) :
    ∃ a : AddressV4, a.memory native = l :=
  ⟨⟨ofBytes native l⟩, bytes_ofBytes native l h⟩

theorem format_congr {native native' : Endian} {a a' : AddressV4}
    (h : a.memory native = a'.memory native') : a.format native = a'.format native' := by
  rw [memory, memory, bytes_raw, bytes_raw, Vector.toList_inj] at h
  rw [format, format, h]

theorem independentOfByteOrder : network.IndependentOfByteOrder := by
  refine .of_parses exists_fromString_iff memory_onto ?_
  intro native native' a a' h spec
  change formatWith native spec a = formatWith native' spec a'
  rw [formatWith, formatWith, format_congr h]

end AddressV4

/-! ### Ports -/

/-- The bytes of a decimal numeral below 65536, the more significant first. -/
def DenotesPort (s : List Char) (l : List UInt8) : Prop :=
  ∃ n < 65536, (s ≠ [] ∧ (∀ c ∈ s, isDigit 10 c = true) ∧ NoLeadingZero s ∧ value 10 s = n) ∧
    l = [UInt8.ofNat (n / 256), UInt8.ofNat n]

namespace Port

/-- The bytes of the raw value. -/
def memory (native : Endian) (p : Port) : List UInt8 := bytes native p.raw

def network : NetworkType Port := ⟨2, memory, fromString, formatWith, DenotesPort⟩

theorem memory_eq (native : Endian) (p : Port) :
    p.memory native = [UInt8.ofNat (p.number native / 256), UInt8.ofNat (p.number native)] := by
  rw [memory, ← bytes_big_hton16, bytes_big, number]

theorem exists_fromString_iff (native : Endian) (s : List Char) (l : List UInt8) :
    (∃ p, fromString native s = .ok p ∧ p.memory native = l) ↔ DenotesPort s l := by
  constructor
  · rintro ⟨p, hp, rfl⟩
    exact ⟨_, p.number_lt native, decimal_iff.mpr (fromString_eq_ok_iff.mp hp), memory_eq native p⟩
  · rintro ⟨n, hn, hs, rfl⟩
    refine ⟨ofNumber native n, fromString_eq_ok_iff.mpr ?_, ?_⟩
    · rw [toString_eq, number_ofNumber native hn]
      exact decimal_iff.mp hs
    · rw [memory_eq, number_ofNumber native hn]

theorem memory_onto (native : Endian) (l : List UInt8) (h : l.length = 2) :
    ∃ p : Port, p.memory native = l :=
  ⟨⟨ofBytes native l⟩, bytes_ofBytes native l h⟩

theorem format_congr {native native' : Endian} {p p' : Port}
    (h : p.memory native = p'.memory native') : p.format native = p'.format native' := by
  rw [memory, memory, ← bytes_big_hton16 native, ← bytes_big_hton16 native'] at h
  have hraw : hton16 native p.raw = hton16 native' p'.raw := bytes_inj .big h
  rw [format, format, hraw]

theorem independentOfByteOrder : network.IndependentOfByteOrder := by
  refine .of_parses exists_fromString_iff memory_onto ?_
  intro native native' p p' h spec
  change formatWith native spec p = formatWith native' spec p'
  rw [formatWith, formatWith, format_congr h]

end Port

/-! ### IPv6 addresses -/

/-- The bytes of the eight groups of a text, the more significant byte of a group first. The `::`
after eight groups, which the parser lets pass, stands for no group. -/
def DenotesV6 (s : List Char) (l : List UInt8) : Prop :=
  ∃ gs, AddressV6.Accepted s gs ∧ l = gs.flatMap (bytes .big)

namespace AddressV6

/-- The bytes of the raw value. -/
def memory (native : Endian) (a : AddressV6) : List UInt8 := bytes native a.raw

def network : NetworkType AddressV6 := ⟨16, memory, fromString, formatWith, DenotesV6⟩

theorem memory_eq (native : Endian) (a : AddressV6) :
    a.memory native = bytes .big (a.groups native) := by
  rw [memory, bytes_vector, bytes_vector, groups, hton_eq_map, Vector.toList_map, List.flatMap_map]
  simp only [bytes_big_hton16]

theorem exists_fromString_iff (native : Endian) (s : List Char) (l : List UInt8) :
    (∃ a, fromString native s = .ok a ∧ a.memory native = l) ↔ DenotesV6 s l := by
  constructor
  · rintro ⟨a, ha, rfl⟩
    exact ⟨_, fromString_eq_ok_iff.mp ha, memory_eq native a⟩
  · rintro ⟨gs, hgs, rfl⟩
    have hlen : gs.length = 8 := by
      rcases hgs with h | ⟨-, -, h, -⟩
      · exact h.length_groups
      · exact h
    have hgroups : ((ofGroups native (fill gs)).groups native).toList = gs := by
      rw [groups_ofGroups, toList_fill hlen]
    refine ⟨ofGroups native (fill gs), ?_, ?_⟩
    · rw [fromString_eq_ok_iff, hgroups]
      exact hgs
    · rw [memory_eq, bytes_vector, hgroups]

theorem memory_onto (native : Endian) (l : List UInt8) (h : l.length = 16) :
    ∃ a : AddressV6, a.memory native = l :=
  ⟨⟨ofBytes native l⟩, bytes_ofBytes native l h⟩

end AddressV6

/-- **The texts of an IPv6 address are given by its groups**, the dotted quad included. -/
theorem FormatterV6.format_congr (f : FormatterV6) {native native' : Endian} {a a' : AddressV6}
    (h : a.memory native = a'.memory native') : f.format native a = f.format native' a' := by
  rw [AddressV6.memory_eq, AddressV6.memory_eq] at h
  have hgroups : a.groups native = a'.groups native' := bytes_inj .big h
  have hquad : ipv4Part native a = ipv4Part native' a' := by
    obtain ⟨v, ht, hv⟩ := ipv4Part_spec native a
    obtain ⟨v', ht', hv'⟩ := ipv4Part_spec native' a'
    rw [hgroups, ← hv'] at hv
    rw [dottedQuad_iff.mp ht, dottedQuad_iff.mp ht', quadGroups_inj hv]
  rw [format_eq, format_eq, hgroups, hquad]

theorem AddressV6.independentOfByteOrder : network.IndependentOfByteOrder := by
  refine .of_parses exists_fromString_iff memory_onto ?_
  intro native native' a a' h spec
  change formatWith native spec a = formatWith native' spec a'
  simp only [formatWith, FormatterV6.format_congr _ h]

/-! ### Socket addresses -/

theorem exists_append_eq {A B : Type} {m : A → List UInt8} {m' : B → List UInt8} {k n : ℕ}
    (hA : ∀ l, l.length = k → ∃ a, m a = l) (hB : ∀ l, l.length = n → ∃ b, m' b = l)
    {l : List UInt8} (h : l.length = k + n) : ∃ a b, m a ++ m' b = l := by
  have htake : (l.take k).length = k := by rw [List.length_take]; omega
  have hdrop : (l.drop k).length = n := by rw [List.length_drop]; omega
  obtain ⟨a, ha⟩ := hA _ htake
  obtain ⟨b, hb⟩ := hB _ hdrop
  exact ⟨a, b, by rw [ha, hb, List.take_append_drop]⟩

/-- The bytes of an address and a port with a colon or a slash between them. -/
def DenotesSocketV4 (s : List Char) (l : List UInt8) : Prop :=
  ∃ t u lt lu, DenotesV4 t lt ∧ DenotesPort u lu ∧ l = lt ++ lu ∧
    (s = t ++ [':'] ++ u ∨ s = t ++ ['/'] ++ u)

/-- The bytes of an address and a port in one of the forms `[t]:u`, `t/u` and `t#u`. -/
def DenotesSocketV6 (s : List Char) (l : List UInt8) : Prop :=
  ∃ t u lt lu, DenotesV6 t lt ∧ DenotesPort u lu ∧ l = lt ++ lu ∧
    (s = ['['] ++ t ++ [']', ':'] ++ u ∨ s = t ++ ['/'] ++ u ∨ s = t ++ ['#'] ++ u)

namespace SocketV4Info

/-- The bytes of the raw address and of the raw port. -/
def memory (native : Endian) (s : SocketV4Info) : List UInt8 :=
  s.addr.memory native ++ s.p.memory native

def network : NetworkType SocketV4Info := ⟨6, memory, fromString, formatWith, DenotesSocketV4⟩

theorem exists_fromString_iff (native : Endian) (s : List Char) (l : List UInt8) :
    (∃ i, fromString native s = .ok i ∧ i.memory native = l) ↔ DenotesSocketV4 s l := by
  constructor
  · rintro ⟨i, hi, rfl⟩
    exact ⟨i.addr.toString native, i.p.toString native, _, _,
      (AddressV4.exists_fromString_iff native _ _).mp
        ⟨i.addr, AddressV4.fromString_eq_ok_iff.mpr rfl, rfl⟩,
      (Port.exists_fromString_iff native _ _).mp ⟨i.p, Port.fromString_eq_ok_iff.mpr rfl, rfl⟩,
      rfl, fromString_eq_ok_iff.mp hi⟩
  · rintro ⟨t, u, lt, lu, ht, hu, rfl, hs⟩
    obtain ⟨a, ha, rfl⟩ := (AddressV4.exists_fromString_iff native t lt).mpr ht
    obtain ⟨p, hp, rfl⟩ := (Port.exists_fromString_iff native u lu).mpr hu
    rw [AddressV4.fromString_eq_ok_iff.mp ha, Port.fromString_eq_ok_iff.mp hp] at hs
    exact ⟨⟨a, p⟩, fromString_eq_ok_iff.mpr hs, rfl⟩

theorem memory_onto (native : Endian) (l : List UInt8) (h : l.length = 6) :
    ∃ i : SocketV4Info, i.memory native = l := by
  obtain ⟨a, p, hmemory⟩ :=
    exists_append_eq (AddressV4.memory_onto native) (Port.memory_onto native) h
  exact ⟨⟨a, p⟩, hmemory⟩

theorem format_congr (f : FormatterSocketV4) {native native' : Endian} {i i' : SocketV4Info}
    (h : i.memory native = i'.memory native') : f.format native i = f.format native' i' := by
  obtain ⟨ha, hp⟩ := List.append_inj h
    ((length_bytes native i.addr.raw).trans (length_bytes native' i'.addr.raw).symm)
  rw [FormatterSocketV4.format, FormatterSocketV4.format, AddressV4.format_congr ha,
    Port.format_congr hp]

theorem independentOfByteOrder : network.IndependentOfByteOrder := by
  refine .of_parses exists_fromString_iff memory_onto ?_
  intro native native' i i' h spec
  change formatWith native spec i = formatWith native' spec i'
  simp only [formatWith, format_congr _ h]

end SocketV4Info

namespace SocketV6Info

/-- The bytes of the raw address and of the raw port. -/
def memory (native : Endian) (s : SocketV6Info) : List UInt8 :=
  s.addr.memory native ++ s.p.memory native

def network : NetworkType SocketV6Info := ⟨18, memory, fromString, formatWith, DenotesSocketV6⟩

theorem exists_fromString_iff (native : Endian) (s : List Char) (l : List UInt8) :
    (∃ i, fromString native s = .ok i ∧ i.memory native = l) ↔ DenotesSocketV6 s l := by
  constructor
  · rintro ⟨i, hi, rfl⟩
    obtain ⟨t, ht, hs⟩ := fromString_eq_ok_iff.mp hi
    exact ⟨t, i.p.toString native, _, _,
      (AddressV6.exists_fromString_iff native _ _).mp ⟨i.addr, ht, rfl⟩,
      (Port.exists_fromString_iff native _ _).mp ⟨i.p, Port.fromString_eq_ok_iff.mpr rfl, rfl⟩,
      rfl, hs⟩
  · rintro ⟨t, u, lt, lu, ht, hu, rfl, hs⟩
    obtain ⟨a, ha, rfl⟩ := (AddressV6.exists_fromString_iff native t lt).mpr ht
    obtain ⟨p, hp, rfl⟩ := (Port.exists_fromString_iff native u lu).mpr hu
    rw [Port.fromString_eq_ok_iff.mp hp] at hs
    exact ⟨⟨a, p⟩, fromString_eq_ok_iff.mpr ⟨t, ha, hs⟩, rfl⟩

theorem memory_onto (native : Endian) (l : List UInt8) (h : l.length = 18) :
    ∃ i : SocketV6Info, i.memory native = l := by
  obtain ⟨a, p, hmemory⟩ :=
    exists_append_eq (AddressV6.memory_onto native) (Port.memory_onto native) h
  exact ⟨⟨a, p⟩, hmemory⟩

theorem format_congr (f : FormatterSocketV6) {native native' : Endian} {i i' : SocketV6Info}
    (h : i.memory native = i'.memory native') : f.format native i = f.format native' i' := by
  obtain ⟨ha, hp⟩ := List.append_inj h
    ((length_bytes native i.addr.raw).trans (length_bytes native' i'.addr.raw).symm)
  rw [FormatterSocketV6.format, FormatterSocketV6.format, FormatterV6.format_congr _ ha,
    Port.format_congr hp]

theorem independentOfByteOrder : network.IndependentOfByteOrder := by
  refine .of_parses exists_fromString_iff memory_onto ?_
  intro native native' i i' h spec
  change formatWith native spec i = formatWith native' spec i'
  simp only [formatWith, format_congr _ h]

end SocketV6Info

/-- **Byte order independence**: for each of the five types, an accepted text denotes the bytes in
memory, and these are the same on little-endian and big-endian machines, as is the text of bytes. -/
theorem byteOrder_independent :
    AddressV4.network.IndependentOfByteOrder ∧ AddressV6.network.IndependentOfByteOrder ∧
      Port.network.IndependentOfByteOrder ∧ SocketV4Info.network.IndependentOfByteOrder ∧
      SocketV6Info.network.IndependentOfByteOrder :=
  ⟨AddressV4.independentOfByteOrder, AddressV6.independentOfByteOrder, Port.independentOfByteOrder,
    SocketV4Info.independentOfByteOrder, SocketV6Info.independentOfByteOrder⟩

example : DenotesV4 "192.0.2.1".toList [192, 0, 2, 1] :=
  (AddressV4.exists_fromString_iff .little _ _).mp
    ⟨⟨0x010200c0⟩, by decide +kernel, by decide +kernel⟩

end Iouxx.Ip
