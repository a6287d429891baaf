import Iouxx.Ip.SocketText
import Mathlib.Data.List.Count

/-!
# Telling the texts apart (`ip.hpp`, the five `from_string`)

Ports, addresses and socket addresses are written with the same characters. Still no text is accepted by
two of the parsers: the brackets, the number sign and the slash, the number of colons and the dot tell
which one accepts it (`kindOf`).

* `count_joined`, `two_le_count_of_accepted`: the colons of a text of an IPv6 address;
* `kindOf_of_reads`: **an accepted text has the kind of its parser**, on each machine;
* `reads_unique`: **at most one parser accepts a text**.
-/

namespace Iouxx.Ip

open Iouxx.Cpp.CharConv Iouxx.Cpp.Memory
open Iouxx.Ip.Text

/-- What a text can be read as. -/
inductive TextKind
  | port
  | addressV4
  | addressV6
  | socketV4
  | socketV6
  deriving DecidableEq, Repr

/-- The parser of the kind accepts the text. -/
def Reads (native : Endian) (s : List Char) : TextKind → Prop
  | .port => ∃ p, Port.fromString native s = .ok p
  | .addressV4 => ∃ a, AddressV4.fromString native s = .ok a
  | .addressV6 => ∃ a, AddressV6.fromString native s = .ok a
  | .socketV4 => ∃ i, SocketV4Info.fromString native s = .ok i
  | .socketV6 => ∃ i, SocketV6Info.fromString native s = .ok i

/-- The kind a text has by its characters. -/
def kindOf (s : List Char) : TextKind :=
  if ']' ∈ s ∨ '#' ∈ s then .socketV6
  else if '/' ∈ s then (if 2 ≤ s.count ':' then .socketV6 else .socketV4)
  else if 2 ≤ s.count ':' then .addressV6
  else if ':' ∈ s then .socketV4
  else if '.' ∈ s then .addressV4
  else .port

/-! ### Colons -/

theorem count_joined : ∀ {ts : List (List Char)}, (∀ t ∈ ts, ':' ∉ t) →
    ts.length ≤ (joined ts).count ':' + 1
  | [], _ => Nat.zero_le _
  | [t], _ => Nat.le_add_left 1 _
  | t :: u :: ts, h => by
    have ih : (u :: ts).length ≤ (joined (u :: ts)).count ':' + 1 :=
      count_joined fun v hv => h v (List.mem_cons_of_mem t hv)
    unfold joined at ih ⊢
    rw [List.intercalate_cons_cons, List.count_append, List.count_append, List.count_singleton_self,
      List.length_cons]
    omega

theorem length_le_sections : ∀ {ts : List (List Char)} {gs : List UInt16} {q : Bool},
    Sections ts gs q → gs.length ≤ ts.length + 1
  | _, _, _, .nil => Nat.zero_le _
  | _, _, _, .hex _ hs => by
    have ih := length_le_sections hs
    rw [List.length_cons, List.length_cons]
    omega
  | _, _, _, .quad _ => by
    rw [length_quadGroups, List.length_singleton]

theorem two_le_count_append {s t : List Char} : 2 ≤ (s ++ [':', ':'] ++ t).count ':' := by
  have htwo : [':', ':'].count ':' = 2 := by decide
  rw [List.count_append, List.count_append, htwo]
  omega

theorem two_le_count_of_isText {s : List Char} {gs : List UInt16} (h : IsText s gs) :
    2 ≤ s.count ':' := by
  cases h with
  | @full ts _ _ hs hlen =>
    have hcount := count_joined fun t ht => (hs.section_ok t ht).1
    have hsections := length_le_sections hs
    omega
  | compressed _ _ _ => exact two_le_count_append

theorem two_le_count_of_accepted {s : List Char} {gs : List UInt16} (h : AddressV6.Accepted s gs) :
    2 ≤ s.count ':' := by
  rcases h with h | ⟨ts, -, -, rfl⟩
  · exact two_le_count_of_isText h
  · simp

theorem two_le_count_of_fromString {native : Endian} {s : List Char} {a : AddressV6}
    (h : AddressV6.fromString native s = .ok a) : 2 ≤ s.count ':' :=
  two_le_count_of_accepted (AddressV6.fromString_eq_ok_iff.mp h)

/-! ### The kind of an accepted text -/

section Kinds
variable {native : Endian} {s : List Char}

theorem kindOf_port {p : Port} (h : Port.fromString native s = .ok p) : kindOf s = .port := by
  have hnot : ∀ c, digitValue c = none → c ∉ s := by
    intro c hc
    rw [Port.fromString_eq_ok_iff.mp h]
    exact Port.not_mem_toString hc
  have hcount : s.count ':' = 0 := List.count_eq_zero.mpr (hnot ':' (by decide))
  unfold kindOf
  rw [if_neg (not_or.mpr ⟨hnot ']' (by decide), hnot '#' (by decide)⟩), if_neg (hnot '/' (by decide)),
    hcount, if_neg (by decide), if_neg (hnot ':' (by decide)), if_neg (hnot '.' (by decide))]

theorem kindOf_addressV4 {a : AddressV4} (h : AddressV4.fromString native s = .ok a) :
    kindOf s = .addressV4 := by
  have hs := AddressV4.fromString_eq_ok_iff.mp h
  have hnot : ∀ c, digitValue c = none → c ≠ '.' → c ∉ s := by
    intro c hc hdot
    rw [hs]
    exact AddressV4.not_mem_toString hc hdot
  have hdot : '.' ∈ s := by
    rw [hs]
    exact (dottedQuad_iff.mpr rfl : DottedQuad (a.toString native) (a.octets native)).dot_mem
  have hcount : s.count ':' = 0 :=
    List.count_eq_zero.mpr (hnot ':' (by decide) (by decide))
  unfold kindOf
  rw [if_neg (not_or.mpr ⟨hnot ']' (by decide) (by decide), hnot '#' (by decide) (by decide)⟩),
    if_neg (hnot '/' (by decide) (by decide)), hcount, if_neg (by decide),
    if_neg (hnot ':' (by decide) (by decide)), if_pos hdot]

theorem kindOf_addressV6 {a : AddressV6} (h : AddressV6.fromString native s = .ok a) :
    kindOf s = .addressV6 := by
  have hnot : ∀ c, digitValue c = none → c ≠ '.' → c ≠ ':' → c ∉ s :=
    fun c hc hdot hcolon => AddressV6.not_mem_of_fromString hc hdot hcolon h
  unfold kindOf
  rw [if_neg (not_or.mpr ⟨hnot ']' (by decide) (by decide) (by decide),
    hnot '#' (by decide) (by decide) (by decide)⟩), if_neg (hnot '/' (by decide) (by decide) (by decide)),
    if_pos (two_le_count_of_fromString h)]

theorem kindOf_socketV4 {i : SocketV4Info} (h : SocketV4Info.fromString native s = .ok i) :
    kindOf s = .socketV4 := by
  have haddr : ∀ c, digitValue c = none → c ≠ '.' → c ∉ i.addr.toString native :=
    fun c hc hdot => AddressV4.not_mem_toString hc hdot
  have hport : ∀ c, digitValue c = none → c ∉ i.p.toString native :=
    fun c hc => Port.not_mem_toString hc
  have hnot : ∀ c d, digitValue c = none → c ≠ '.' → c ≠ d →
      c ∉ i.addr.toString native ++ [d] ++ i.p.toString native := by
    intro c d hc hdot hd
    rw [List.mem_append, List.mem_append, List.mem_singleton, not_or, not_or]
    exact ⟨⟨haddr c hc hdot, hd⟩, hport c hc⟩
  unfold kindOf
  rcases SocketV4Info.fromString_eq_ok_iff.mp h with rfl | rfl
  · have hcount : (i.addr.toString native ++ [':'] ++ i.p.toString native).count ':' = 1 := by
      rw [List.count_append, List.count_append,
        List.count_eq_zero.mpr (haddr ':' (by decide) (by decide)),
        List.count_eq_zero.mpr (hport ':' (by decide))]
      rfl
    rw [if_neg (not_or.mpr ⟨hnot ']' ':' (by decide) (by decide) (by decide),
      hnot '#' ':' (by decide) (by decide) (by decide)⟩),
      if_neg (hnot '/' ':' (by decide) (by decide) (by decide)), hcount, if_neg (by decide),
      if_pos (by simp)]
  · have hcount : (i.addr.toString native ++ ['/'] ++ i.p.toString native).count ':' = 0 :=
      List.count_eq_zero.mpr (hnot ':' '/' (by decide) (by decide) (by decide))
    rw [if_neg (not_or.mpr ⟨hnot ']' '/' (by decide) (by decide) (by decide),
      hnot '#' '/' (by decide) (by decide) (by decide)⟩), if_pos (by simp), hcount,
      if_neg (by decide)]

theorem kindOf_socketV6 {i : SocketV6Info} (h : SocketV6Info.fromString native s = .ok i) :
    kindOf s = .socketV6 := by
  obtain ⟨t, ht, hs⟩ := SocketV6Info.fromString_eq_ok_iff.mp h
  unfold kindOf
  rcases hs with rfl | rfl | rfl
  · exact if_pos (Or.inl (by simp))
  · have hcount : 2 ≤ (t ++ ['/'] ++ i.p.toString native).count ':' := by
      have htwo := two_le_count_of_fromString ht
      rw [List.count_append, List.count_append]
      omega
    split_ifs with hmem hslash
    · rfl
    · rfl
    · exact absurd (by simp) hslash
  · exact if_pos (Or.inr (by simp))

end Kinds

/-- **An accepted text has the kind of its parser**, on each machine. -/
theorem kindOf_of_reads {native : Endian} {s : List Char} {k : TextKind} (h : Reads native s k) :
    kindOf s = k := by
  cases k with
  | port => exact h.elim fun _ => kindOf_port
  | addressV4 => exact h.elim fun _ => kindOf_addressV4
  | addressV6 => exact h.elim fun _ => kindOf_addressV6
  | socketV4 => exact h.elim fun _ => kindOf_socketV4
  | socketV6 => exact h.elim fun _ => kindOf_socketV6

/-- **At most one parser accepts a text**, also where the machines have different byte orders, and the
characters tell which. -/
theorem reads_unique {native : Endian} {s : List Char} {k : TextKind} (h : Reads native s k) :
    kindOf s = k ∧ ∀ native' k', Reads native' s k' → k' = k := by
  have hkind := kindOf_of_reads h
  refine ⟨hkind, fun native' k' h' => ?_⟩
  rw [← hkind, kindOf_of_reads h']

theorem reads_unique_socketV4 :
    kindOf "192.0.2.1:80".toList = .socketV4 ∧
      ∀ native' k', Reads native' "192.0.2.1:80".toList k' → k' = .socketV4 :=
  reads_unique (show Reads .little "192.0.2.1:80".toList .socketV4 from
    ⟨⟨⟨0x010200c0⟩, ⟨0x5000⟩⟩, by decide +kernel⟩)

end Iouxx.Ip
