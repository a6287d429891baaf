import Iouxx.Ip.Socket

/-!
# The texts of ports and socket addresses

* `SocketV6Info.fromString_iff`: **what the parser of IPv6 socket addresses accepts**, and that it
  reads every text of the formatter;
* `ipv4_text`: **IPv4 text is a bijection**, for addresses, ports and socket addresses.
-/

namespace Iouxx.Ip

open Iouxx.Cpp.CharConv Iouxx.Cpp.Memory
open Iouxx.Lib.Loop

theorem Port.eq_toString_iff {native : Endian} {s : List Char} {p : Port} :
    s = p.toString native ↔ Numeral 10 s ∧ value 10 s = p.number native := by
  rw [Port.toString_eq, numeral_iff (by omega) (by omega)]

/-! ### IPv6 -/

namespace FormatterSocketV6

theorem seperator_of_parse {spec it : List Char} {f : FormatterSocketV6}
    (h : parse {} spec = .ok (f, it)) :
    f.seperator = '\x00' ∨ f.seperator = '/' ∨ f.seperator = '#' := by
  unfold parse at h
  obtain ⟨⟨f1, it1⟩, h1, h⟩ := bind_eq_ok_iff.mp h
  obtain ⟨⟨f2, it2⟩, h2, h⟩ := bind_eq_ok_iff.mp h
  obtain ⟨it3, -, h⟩ := bind_eq_ok_iff.mp h
  obtain ⟨rfl, rfl⟩ := Prod.mk.inj (Except.ok.inj h)
  have hsep1 : f1.seperator = '\x00' ∨ f1.seperator = '/' ∨ f1.seperator = '#' := by
    unfold parseSeperator at h1
    rcases spec with _ | ⟨c, rest⟩
    · cases h1
    · simp only at h1
      split_ifs at h1 with hc
      · rw [← (Prod.mk.inj (Except.ok.inj h1)).1]
        exact Or.inr hc
      · rw [← (Prod.mk.inj (Except.ok.inj h1)).1]
        exact Or.inl rfl
  have hsep2 : f2.seperator = f1.seperator := by
    unfold parseNested at h2
    rcases it1 with _ | ⟨c, rest⟩
    · cases h2
    · simp only at h2
      split_ifs at h2 with hc
      · obtain ⟨⟨g, it4⟩, -, h2⟩ := bind_eq_ok_iff.mp h2
        rw [← (Prod.mk.inj (Except.ok.inj h2)).1]
      · rw [← (Prod.mk.inj (Except.ok.inj h2)).1]
  rw [hsep2]
  exact hsep1

end FormatterSocketV6

namespace SocketV6Info

theorem fromString_format {f : FormatterSocketV6} (native : Endian) (i : SocketV6Info)
    (h : f.seperator = '\x00' ∨ f.seperator = '/' ∨ f.seperator = '#') :
    fromString native (f.format native i) = .ok i := by
  have haddr := AddressV6.fromString_format f.addrFormatter native i.addr
  rw [fromString_eq_ok_iff]
  refine ⟨_, haddr, ?_⟩
  unfold FormatterSocketV6.format
  rcases h with h | h | h
  · rw [if_pos h]
    exact Or.inl rfl
  · rw [if_neg (by rw [h]; decide), h]
    exact Or.inr (Or.inl rfl)
  · rw [if_neg (by rw [h]; decide), h]
    exact Or.inr (Or.inr rfl)

/-- **The parser accepts `[t]:p`, `t/p` and `t#p`**, where `t` is read as the address and `p` is the
numeral of the port, and it reads every text of the formatter. -/
theorem fromString_iff (native : Endian) :
    (∀ s (i : SocketV6Info), fromString native s = .ok i ↔
      ∃ t p, AddressV6.fromString native t = .ok i.addr ∧
        (Numeral 10 p ∧ value 10 p = i.p.number native) ∧
        (s = ['['] ++ t ++ [']', ':'] ++ p ∨ s = t ++ ['/'] ++ p ∨ s = t ++ ['#'] ++ p)) ∧
    (∀ spec t (i : SocketV6Info), formatWith native spec i = .ok t →
      fromString native t = .ok i) := by
  constructor
  · intro s i
    simp only [← Port.eq_toString_iff]
    rw [fromString_eq_ok_iff]
    constructor
    · rintro ⟨t, ht, h⟩
      exact ⟨t, _, ht, rfl, h⟩
    · rintro ⟨t, _, ht, rfl, h⟩
      exact ⟨t, ht, h⟩
  · intro spec t i h
    unfold formatWith at h
    obtain ⟨⟨f, it⟩, hf, h⟩ := bind_eq_ok_iff.mp h
    rw [← Except.ok.inj h]
    exact fromString_format native i (FormatterSocketV6.seperator_of_parse hf)

/-- The text of `::1` and port 80 under the spec `#:f`. -/
theorem fromString_iff_hash_full :
    fromString .little "0:0:0:0:0:0:0:1#80".toList =
      .ok ⟨.ofGroups .little #v[0, 0, 0, 0, 0, 0, 0, 1], .ofNumber .little 80⟩ :=
  (fromString_iff .little).2 ['#', ':', 'f', '}'] _ _ (by decide +kernel)

end SocketV6Info

/-! ### IPv4 -/

/-- **IPv4 text is a bijection**: the parsers accept exactly the texts the formatters write; for
ports these are the decimal numerals up to 65535 without leading zeros. -/
theorem ipv4_text (native : Endian) :
    (∀ s a, AddressV4.fromString native s = .ok a ↔ s = a.toString native) ∧
    (∀ s i, SocketV4Info.fromString native s = .ok i ↔
      i.formatWith native ['}'] = .ok s ∨ i.formatWith native ['/', '}'] = .ok s) ∧
    (∀ s n, (∃ p, Port.fromString native s = .ok p ∧ p.number native = n) ↔
      Numeral 10 s ∧ value 10 s = n ∧ n ≤ 65535) := by
  refine ⟨fun s a => AddressV4.fromString_eq_ok_iff, fun s i => ?_, fun s n => ?_⟩
  · have hcolon : i.formatWith native ['}'] =
        .ok (i.addr.toString native ++ [':'] ++ i.p.toString native) := rfl
    have hslash : i.formatWith native ['/', '}'] =
        .ok (i.addr.toString native ++ ['/'] ++ i.p.toString native) := rfl
    rw [SocketV4Info.fromString_eq_ok_iff, hcolon, hslash, Except.ok.injEq, Except.ok.injEq,
      eq_comm, @eq_comm _ s (_ ++ ['/'] ++ _)]
  · constructor
    · rintro ⟨p, hp, rfl⟩
      have hlt := p.number_lt native
      obtain ⟨hs, hv⟩ := Port.eq_toString_iff.mp (Port.fromString_eq_ok_iff.mp hp)
      exact ⟨hs, hv, by omega⟩
    · rintro ⟨hs, hv, hle⟩
      have hn := Port.number_ofNumber native (v := n) (by omega)
      refine ⟨.ofNumber native n, ?_, hn⟩
      rw [Port.fromString_eq_ok_iff, Port.eq_toString_iff, hn]
      exact ⟨hs, hv⟩

end Iouxx.Ip
