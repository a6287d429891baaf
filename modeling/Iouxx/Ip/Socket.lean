import Iouxx.Ip.FormatV6

/-!
# Socket addresses (`ip.hpp`, `socket_v4_info`, `socket_v6_info`)

Both parsers choose a separator by looking at the whole string, split there, and read an address and
a port. Their loops are one, with the parser of the address as a parameter (`parseParts`).

* `parseParts_eq_ok_iff`: the loop accepts an address and a port;
* `SocketV4Info.fromString_eq_ok_iff`, `SocketV6Info.fromString_eq_ok_iff`: **what the checked parsers
  accept**.
-/

namespace Iouxx.Ip

open Iouxx.Cpp.Error Iouxx.Cpp.CharConv Iouxx.Cpp.Memory Iouxx.Cpp.Split
open Iouxx.Lib.Loop Iouxx.Utility
open Iouxx.Ip.Text

instance : Inhabited AddressV4 := ⟨⟨0⟩⟩
instance : Inhabited AddressV6 := ⟨⟨Vector.replicate 8 0⟩⟩
instance : Inhabited Port := ⟨⟨0⟩⟩

/-! ### The loop over the parts -/

section Parts
variable {A : Type} [Inhabited A]

/-- The local variables of the parsers. -/
structure SocketState (A : Type) where
  partCount : ℕ
  addr : A
  p : Port

def SocketState.init : SocketState A := ⟨0, default, default⟩

/-- The loop body of `from_string`, after the counter was increased. -/
def partsBody' (parseAddr : List Char → Except ErrorCode A) (native : Endian) (st : SocketState A)
    (sub : List Char) : Except ErrorCode (SocketState A) := do
  if st.partCount > 2 then failInvalidArgument
  else if st.partCount = 1 then
    let addr ← parseAddr sub
    return { st with addr }
  else
    let p ← Port.fromString native sub
    return { st with p }

/-- The loop body of `from_string`. -/
def partsBody (parseAddr : List Char → Except ErrorCode A) (native : Endian) (st : SocketState A)
    (sub : List Char) : Except ErrorCode (SocketState A) :=
  partsBody' parseAddr native { st with partCount := st.partCount + 1 } sub

/-- The part of `from_string` after the choice of the separator. -/
def parseParts (parseAddr : List Char → Except ErrorCode A) (native : Endian)
    (seperator str : List Char) : Except ErrorCode (A × Port) := do
  let st ← (split seperator str).foldlM (partsBody parseAddr native) .init
  if st.partCount ≠ 2 then failInvalidArgument
  else return (st.addr, st.p)

/-- The loop body of `from_string_uncheck`, after the counter was increased. -/
def partsBodyUncheck' (parseAddr : List Char → Option A) (native : Endian) (st : SocketState A)
    (sub : List Char) : Option (SocketState A) := do
  if st.partCount = 1 then
    let addr ← parseAddr sub
    return { st with addr }
  else
    let p ← Port.fromStringUncheck native sub
    return { st with p }

/-- The loop body of `from_string_uncheck`. -/
def partsBodyUncheck (parseAddr : List Char → Option A) (native : Endian) (st : SocketState A)
    (sub : List Char) : Option (SocketState A) :=
  partsBodyUncheck' parseAddr native { st with partCount := st.partCount + 1 } sub

/-- The part of `from_string_uncheck` after the choice of the separator. -/
def parsePartsUncheck (parseAddr : List Char → Option A) (native : Endian)
    (seperator str : List Char) : Option (A × Port) := do
  let st ← (split seperator str).foldlM (partsBodyUncheck parseAddr native) .init
  return (st.addr, st.p)

variable {parseAddr : List Char → Except ErrorCode A} {native : Endian}

theorem partsBody_first {sub : List Char} {st : SocketState A} :
    partsBody parseAddr native .init sub = .ok st ↔
      ∃ a, parseAddr sub = .ok a ∧ st = ⟨1, a, default⟩ := by
  have hbody : partsBody parseAddr native .init sub =
      parseAddr sub >>= fun addr => .ok ⟨1, addr, default⟩ := rfl
  rw [hbody, bind_eq_ok_iff]
  simp only [Except.ok.injEq, eq_comm]

omit [Inhabited A] in
theorem partsBody_second {sub : List Char} {a : A} {q : Port} {st : SocketState A} :
    partsBody parseAddr native ⟨1, a, q⟩ sub = .ok st ↔
      ∃ p, Port.fromString native sub = .ok p ∧ st = ⟨2, a, p⟩ := by
  have hbody : partsBody parseAddr native ⟨1, a, q⟩ sub =
      Port.fromString native sub >>= fun p => .ok ⟨2, a, p⟩ := rfl
  rw [hbody, bind_eq_ok_iff]
  simp only [Except.ok.injEq, eq_comm]

omit [Inhabited A] in
theorem partsBody_third {sub : List Char} {a : A} {q : Port} {st : SocketState A} :
    partsBody parseAddr native ⟨2, a, q⟩ sub ≠ .ok st :=
  failInvalidArgument_ne_ok st

theorem foldlM_partsBody_pair {t u : List Char} {rest : List (List Char)} {st : SocketState A} :
    (t :: u :: rest).foldlM (partsBody parseAddr native) .init = .ok st ↔
      ∃ a p, parseAddr t = .ok a ∧ Port.fromString native u = .ok p ∧
        rest.foldlM (partsBody parseAddr native) ⟨2, a, p⟩ = .ok st := by
  rw [foldlM_cons_ok_iff]
  constructor
  · rintro ⟨st1, h1, h⟩
    obtain ⟨a, ha, rfl⟩ := partsBody_first.mp h1
    obtain ⟨st2, h2, h⟩ := foldlM_cons_ok_iff.mp h
    obtain ⟨p, hp, rfl⟩ := partsBody_second.mp h2
    exact ⟨a, p, ha, hp, h⟩
  · rintro ⟨a, p, ha, hp, h⟩
    refine ⟨_, partsBody_first.mpr ⟨a, ha, rfl⟩, ?_⟩
    rw [foldlM_cons_ok_iff]
    exact ⟨_, partsBody_second.mpr ⟨p, hp, rfl⟩, h⟩

/-- **The loop accepts an address and a port.** -/
theorem parseParts_eq_ok_iff {seperator str : List Char} {a : A} {p : Port} :
    parseParts parseAddr native seperator str = .ok (a, p) ↔
      ∃ t u, split seperator str = [t, u] ∧ parseAddr t = .ok a ∧
        Port.fromString native u = .ok p := by
  unfold parseParts
  rw [bind_eq_ok_iff]
  constructor
  · rintro ⟨st, hst, h⟩
    split_ifs at h with h2
    · exact absurd h (failInvalidArgument_ne_ok _)
    · rw [not_not] at h2
      rcases hparts : split seperator str with _ | ⟨t, _ | ⟨u, _ | ⟨x, rest⟩⟩⟩
      · rw [hparts, foldlM_nil_ok_iff] at hst
        rw [hst] at h2; cases h2
      · rw [hparts, foldlM_cons_ok_iff] at hst
        obtain ⟨st1, h1, hst⟩ := hst
        obtain ⟨b, -, rfl⟩ := partsBody_first.mp h1
        rw [foldlM_nil_ok_iff] at hst
        rw [hst] at h2; cases h2
      · rw [hparts, foldlM_partsBody_pair] at hst
        obtain ⟨b, q, hb, hq, hst⟩ := hst
        rw [foldlM_nil_ok_iff] at hst
        subst hst
        obtain ⟨rfl, rfl⟩ := Prod.mk.inj (Except.ok.inj h)
        exact ⟨t, u, rfl, hb, hq⟩
      · rw [hparts, foldlM_partsBody_pair] at hst
        obtain ⟨b, q, -, -, hst⟩ := hst
        obtain ⟨st3, h3, -⟩ := foldlM_cons_ok_iff.mp hst
        exact absurd h3 partsBody_third
  · rintro ⟨t, u, hparts, ha, hp⟩
    refine ⟨⟨2, a, p⟩, ?_, rfl⟩
    rw [hparts, foldlM_partsBody_pair]
    exact ⟨a, p, ha, hp, rfl⟩

/-- **The unchecked loop agrees** where the parser of the address does. -/
theorem parsePartsUncheck_of_parseParts {parseAddrUncheck : List Char → Option A}
    (hagree : ∀ t a, parseAddr t = .ok a → parseAddrUncheck t = some a)
    {seperator str : List Char} {r : A × Port}
    (h : parseParts parseAddr native seperator str = .ok r) :
    parsePartsUncheck parseAddrUncheck native seperator str = some r := by
  obtain ⟨a, p⟩ := r
  obtain ⟨t, u, hparts, ha, hp⟩ := parseParts_eq_ok_iff.mp h
  have h1 : partsBodyUncheck parseAddrUncheck native .init t =
      parseAddrUncheck t >>= fun addr => some ⟨1, addr, default⟩ := rfl
  have h2 : partsBodyUncheck parseAddrUncheck native ⟨1, a, default⟩ u =
      Port.fromStringUncheck native u >>= fun p => some ⟨2, a, p⟩ := rfl
  rw [hagree t a ha] at h1
  rw [Port.fromStringUncheck_of_fromString hp] at h2
  unfold parsePartsUncheck
  rw [hparts, List.foldlM_cons, h1]
  change (([u].foldlM (partsBodyUncheck parseAddrUncheck native) ⟨1, a, default⟩) >>= _) = _
  rw [List.foldlM_cons, h2]
  rfl

theorem eq_append_of_split {seperator str t u : List Char} (hsep : seperator ≠ [])
    (h : split seperator str = [t, u]) : str = t ++ seperator ++ u := by
  have hjoin := intercalate_split hsep str
  rw [h, List.intercalate_cons_cons, List.intercalate_singleton] at hjoin
  exact hjoin.symm

theorem split_char_append {c : Char} {t u : List Char} (ht : c ∉ t) (hu : c ∉ u) :
    split [c] (t ++ [c] ++ u) = [t, u] := by
  refine split_pair (by simp) (fun h => ht ?_) (fun h => hu ?_)
  · simpa using h.subset List.mem_cons_self
  · exact h.subset List.mem_cons_self

/-- Parsing with a separator at which the text is split into the two parts. -/
theorem parseParts_iff_of_split {seperator str : List Char} {a : A} {p : Port}
    (hsep : seperator ≠ []) (hsplit : ∀ t, parseAddr t = .ok a →
      split seperator (t ++ seperator ++ p.toString native) = [t, p.toString native]) :
    parseParts parseAddr native seperator str = .ok (a, p) ↔
      ∃ t, parseAddr t = .ok a ∧ str = t ++ seperator ++ p.toString native := by
  rw [parseParts_eq_ok_iff]
  constructor
  · rintro ⟨t, u, hstr, ht, hu⟩
    rw [eq_append_of_split hsep hstr, Port.fromString_eq_ok_iff.mp hu]
    exact ⟨t, ht, rfl⟩
  · rintro ⟨t, ht, rfl⟩
    exact ⟨t, _, hsplit t ht, ht, Port.fromString_eq_ok_iff.mpr rfl⟩

theorem parseParts_char_iff {c : Char} {str : List Char} {a : A} {p : Port}
    (hp : c ∉ p.toString native) (ha : ∀ t, parseAddr t = .ok a → c ∉ t) :
    parseParts parseAddr native [c] str = .ok (a, p) ↔
      ∃ t, parseAddr t = .ok a ∧ str = t ++ [c] ++ p.toString native :=
  parseParts_iff_of_split (by simp) fun t ht => split_char_append (ha t ht) hp

end Parts

theorem Port.not_mem_toString {native : Endian} {p : Port} {c : Char} (hc : digitValue c = none) :
    c ∉ p.toString native :=
  fun h => isDigit_ne (p.isDigit_toString native c h) hc rfl

theorem AddressV4.not_mem_toString {native : Endian} {a : AddressV4} {c : Char}
    (hc : digitValue c = none) (hdot : c ≠ '.') : c ∉ a.toString native := by
  intro h
  rcases mem_quadText h with h | h
  · exact hdot h
  · exact isDigit_ne h hc rfl

theorem AddressV6.not_mem_of_fromString {native : Endian} {a : AddressV6} {c : Char}
    (hc : digitValue c = none) (hdot : c ≠ '.') (hcolon : c ≠ ':') {t : List Char}
    (h : fromString native t = .ok a) : c ∉ t := by
  have htext : ∀ {t : List Char} {gs : List UInt16}, IsText t gs → c ∉ t := by
    intro t gs ht hm
    rcases ht.mem hm with h | h | h
    · exact hcolon h
    · exact hdot h
    · exact isDigit_ne h hc rfl
  rcases fromString_eq_ok_iff.mp h with h | ⟨ts, hts, hlen, rfl⟩
  · exact htext h
  · rw [List.mem_append, not_or]
    exact ⟨htext (.full (sections_of_forall hts) hlen), by simpa using hcolon⟩

/-! ### IPv4 -/

namespace SocketV4Info

/-- The value of a successful loop. -/
def ofParts (r : AddressV4 × Port) : SocketV4Info := ⟨r.1, r.2⟩

/-- `socket_v4_info::from_string`: `ddd.ddd.ddd.ddd:ppppp` or `ddd.ddd.ddd.ddd/ppppp`. -/
def fromString (native : Endian) (str : List Char) : Except ErrorCode SocketV4Info :=
  if ':' ∈ str then
    (parseParts (AddressV4.fromString native) native [':'] str).map ofParts
  else if '/' ∈ str then
    (parseParts (AddressV4.fromString native) native ['/'] str).map ofParts
  else failInvalidArgument

/-- `socket_v4_info::from_string_uncheck`. -/
def fromStringUncheck (native : Endian) (str : List Char) : Option SocketV4Info :=
  let seperator := if '/' ∈ str then '/' else ':'
  (parsePartsUncheck (AddressV4.fromStringUncheck native) native [seperator] str).map ofParts

theorem map_ofParts_eq_ok_iff {r : Except ErrorCode (AddressV4 × Port)} {i : SocketV4Info} :
    r.map ofParts = .ok i ↔ r = .ok (i.addr, i.p) := by
  rcases r with e | ⟨a, p⟩
  · exact ⟨fun h => (by cases h), fun h => (by cases h)⟩
  · obtain ⟨b, q⟩ := i
    simp [Except.map, ofParts]

/-- **What the checked parser accepts**: the text of an address, a colon or a slash, and the text of
a port. -/
theorem fromString_eq_ok_iff {native : Endian} {s : List Char} {i : SocketV4Info} :
    fromString native s = .ok i ↔
      s = i.addr.toString native ++ [':'] ++ i.p.toString native ∨
      s = i.addr.toString native ++ ['/'] ++ i.p.toString native := by
  have haddr : ∀ c, digitValue c = none → c ≠ '.' →
      ∀ t, AddressV4.fromString native t = .ok i.addr → c ∉ t := by
    intro c hc hdot t ht
    rw [AddressV4.fromString_eq_ok_iff.mp ht]
    exact AddressV4.not_mem_toString hc hdot
  have hparts : ∀ c, digitValue c = none → c ≠ '.' →
      (parseParts (AddressV4.fromString native) native [c] s = .ok (i.addr, i.p) ↔
        s = i.addr.toString native ++ [c] ++ i.p.toString native) := by
    intro c hc hdot
    rw [parseParts_char_iff (Port.not_mem_toString hc) (haddr c hc hdot)]
    simp only [AddressV4.fromString_eq_ok_iff, exists_eq_left]
  have hcolon := hparts ':' (by decide) (by decide)
  have hslash := hparts '/' (by decide) (by decide)
  -- the text with a slash holds no colon
  have hno : ':' ∉ i.addr.toString native ++ ['/'] ++ i.p.toString native := by
    rw [List.mem_append, List.mem_append, not_or, not_or]
    exact ⟨⟨AddressV4.not_mem_toString (by decide) (by decide), by simp⟩,
      Port.not_mem_toString (by decide)⟩
  unfold fromString
  split_ifs with h1 h2
  · rw [map_ofParts_eq_ok_iff, hcolon]
    constructor
    · exact Or.inl
    · rintro (h | h)
      · exact h
      · rw [h] at h1; exact absurd h1 hno
  · rw [map_ofParts_eq_ok_iff, hslash]
    constructor
    · exact Or.inr
    · rintro (h | h)
      · rw [h] at h1; simp at h1
      · exact h
  · constructor
    · exact fun h => absurd h (failInvalidArgument_ne_ok i)
    · rintro (h | h)
      · rw [h] at h1; simp at h1
      · rw [h] at h2; simp at h2

end SocketV4Info

/-! ### IPv6 -/

namespace SocketV6Info

/-- The value of a successful loop. -/
def ofParts (r : AddressV6 × Port) : SocketV6Info := ⟨r.1, r.2⟩

/-- `socket_v6_info::from_string`: `[ipv6]:port`, `ipv6/port` or `ipv6#port`. -/
def fromString (native : Endian) (str : List Char) : Except ErrorCode SocketV6Info :=
  if [']', ':'] <:+: str then
    if str.head? ≠ some '[' then failInvalidArgument
    else (parseParts (AddressV6.fromString native) native [']', ':'] (str.drop 1)).map ofParts
  else if '/' ∈ str then
    (parseParts (AddressV6.fromString native) native ['/'] str).map ofParts
  else if '#' ∈ str then
    (parseParts (AddressV6.fromString native) native ['#'] str).map ofParts
  else failInvalidArgument

/-- `socket_v6_info::from_string_uncheck`. -/
def fromStringUncheck (native : Endian) (str : List Char) : Option SocketV6Info :=
  if [']', ':'] <:+: str then
    (parsePartsUncheck (AddressV6.fromStringUncheck native) native [']', ':'] (str.drop 1)).map
      ofParts
  else if '/' ∈ str then
    (parsePartsUncheck (AddressV6.fromStringUncheck native) native ['/'] str).map ofParts
  else if '#' ∈ str then
    (parsePartsUncheck (AddressV6.fromStringUncheck native) native ['#'] str).map ofParts
  else none -- `std::unreachable`

theorem map_ofParts_eq_ok_iff {r : Except ErrorCode (AddressV6 × Port)} {i : SocketV6Info} :
    r.map ofParts = .ok i ↔ r = .ok (i.addr, i.p) := by
  rcases r with e | ⟨a, p⟩
  · exact ⟨fun h => (by cases h), fun h => (by cases h)⟩
  · obtain ⟨b, q⟩ := i
    simp [Except.map, ofParts]

theorem not_infix_bracket {t : List Char} (ht : ']' ∉ t) : ¬ [']', ':'] <:+: t ++ [']'] := by
  rintro ⟨l, r, h⟩
  rcases List.eq_nil_or_concat' r with rfl | ⟨r, x, rfl⟩
  · rw [List.append_nil, show [']', ':'] = [']'] ++ [':'] from rfl, ← List.append_assoc] at h
    have := List.append_inj_right' h rfl
    simp at this
  · rw [← List.append_assoc] at h
    have := List.append_inj_left' h rfl
    exact ht (this ▸ by simp)

theorem not_mem_parts {native : Endian} {a : AddressV6} {p : Port} {t : List Char} {c d : Char}
    (ht : AddressV6.fromString native t = .ok a) (hc : digitValue c = none) (hdot : c ≠ '.')
    (hcolon : c ≠ ':') (hcd : c ≠ d) : c ∉ t ++ [d] ++ p.toString native := by
  rw [List.mem_append, List.mem_append, not_or, not_or]
  exact ⟨⟨AddressV6.not_mem_of_fromString hc hdot hcolon ht, by simpa using hcd⟩,
    Port.not_mem_toString hc⟩

theorem parseParts_bracket_iff {native : Endian} {s : List Char} {a : AddressV6} {p : Port} :
    parseParts (AddressV6.fromString native) native [']', ':'] s = .ok (a, p) ↔
      ∃ t, AddressV6.fromString native t = .ok a ∧ s = t ++ [']', ':'] ++ p.toString native := by
  refine parseParts_iff_of_split (by simp) fun t ht => ?_
  have htb : ']' ∉ t := AddressV6.not_mem_of_fromString (by decide) (by decide) (by decide) ht
  have hpb : ']' ∉ p.toString native := Port.not_mem_toString (by decide)
  exact split_pair (by simp) (not_infix_bracket htb) fun h => hpb (h.subset List.mem_cons_self)

/-- **What the checked parser accepts**: `[t]:p`, `t/p` or `t#p`, where `t` is read as the address
and `p` is the text of the port. -/
theorem fromString_eq_ok_iff {native : Endian} {s : List Char} {i : SocketV6Info} :
    fromString native s = .ok i ↔ ∃ t, AddressV6.fromString native t = .ok i.addr ∧
      (s = ['['] ++ t ++ [']', ':'] ++ i.p.toString native ∨
        s = t ++ ['/'] ++ i.p.toString native ∨ s = t ++ ['#'] ++ i.p.toString native) := by
  have hparts : ∀ c, digitValue c = none → c ≠ '.' → c ≠ ':' →
      (parseParts (AddressV6.fromString native) native [c] s = .ok (i.addr, i.p) ↔
        ∃ t, AddressV6.fromString native t = .ok i.addr ∧ s = t ++ [c] ++ i.p.toString native) :=
    fun c hc hdot hcolon => parseParts_char_iff (Port.not_mem_toString hc) fun t ht =>
      AddressV6.not_mem_of_fromString hc hdot hcolon ht
  -- the form a separator belongs to is the only one it occurs in
  have hbracket : ∀ t, s = ['['] ++ t ++ [']', ':'] ++ i.p.toString native →
      [']', ':'] <:+: s := fun t h => h ▸ ⟨['['] ++ t, i.p.toString native, rfl⟩
  have hno_bracket : ∀ d t, AddressV6.fromString native t = .ok i.addr → ']' ≠ d →
      s = t ++ [d] ++ i.p.toString native → ¬ [']', ':'] <:+: s := fun d t ht hd h hin =>
    not_mem_parts ht (by decide) (by decide) (by decide) hd (h ▸ hin.subset List.mem_cons_self)
  have hno_slash : ∀ t, AddressV6.fromString native t = .ok i.addr →
      s = t ++ ['#'] ++ i.p.toString native → '/' ∉ s := fun t ht h hin =>
    not_mem_parts ht (by decide) (by decide) (by decide) (by decide) (h ▸ hin)
  unfold fromString
  split_ifs with h1 h2 h3 h4
  · constructor
    · exact fun h => absurd h (failInvalidArgument_ne_ok i)
    · rintro ⟨t, ht, h | h | h⟩
      · rw [h] at h2; simp at h2
      · exact absurd h1 (hno_bracket _ t ht (by decide) h)
      · exact absurd h1 (hno_bracket _ t ht (by decide) h)
  · rw [not_not] at h2
    have hs : s = '[' :: s.drop 1 := by
      rcases s with _ | ⟨c, s⟩
      · cases h2
      · rw [Option.some.inj h2]; rfl
    rw [map_ofParts_eq_ok_iff, parseParts_bracket_iff]
    constructor
    · rintro ⟨t, ht, h⟩
      refine ⟨t, ht, Or.inl ?_⟩
      rw [hs, h]
      simp
    · rintro ⟨t, ht, h | h | h⟩
      · exact ⟨t, ht, by rw [h]; simp⟩
      · exact absurd h1 (hno_bracket _ t ht (by decide) h)
      · exact absurd h1 (hno_bracket _ t ht (by decide) h)
  · rw [map_ofParts_eq_ok_iff, hparts '/' (by decide) (by decide) (by decide)]
    constructor
    · rintro ⟨t, ht, h⟩
      exact ⟨t, ht, Or.inr (Or.inl h)⟩
    · rintro ⟨t, ht, h | h | h⟩
      · exact absurd (hbracket t h) h1
      · exact ⟨t, ht, h⟩
      · exact absurd h3 (hno_slash t ht h)
  · rw [map_ofParts_eq_ok_iff, hparts '#' (by decide) (by decide) (by decide)]
    constructor
    · rintro ⟨t, ht, h⟩
      exact ⟨t, ht, Or.inr (Or.inr h)⟩
    · rintro ⟨t, ht, h | h | h⟩
      · exact absurd (hbracket t h) h1
      · rw [h] at h3; simp at h3
      · exact ⟨t, ht, h⟩
  · constructor
    · exact fun h => absurd h (failInvalidArgument_ne_ok i)
    · rintro ⟨t, ht, h | h | h⟩
      · exact absurd (hbracket t h) h1
      · rw [h] at h3; simp at h3
      · rw [h] at h4; simp at h4

end SocketV6Info

end Iouxx.Ip
