import Iouxx.Ip.AddressV4
import Iouxx.Lib.LongestRun
import Mathlib.Data.List.Forall2

/-!
# The text forms of IPv6 addresses

RFC 4291, section 2.2, as a grammar that names no function of the source: sections between colons
are groups of hex digits, the last of them may be a dotted quad, and one `::` may stand for groups
of zeros (`IsText`). RFC 5952 chooses one of the texts of an address (`IsCanonicalText`).

* `dottedQuad_iff`: the dotted quads are the texts the formatter of IPv4 addresses writes;
* `IsText.length_le`: **no text is longer than 45 characters**;
* `IsText.mem`: the characters of a text.
-/

namespace Iouxx.Ip.Text

open Iouxx.Cpp.CharConv Iouxx.Cpp.Split Iouxx.Lib.LongestRun
open Iouxx.Ip.AddressV4 (octetText quadText)

/-! ### Sections -/

/-- `t` is 1 to 4 hex digits with the value `g`. -/
structure HexGroup (t : List Char) (g : UInt16) : Prop where
  ne_nil : t ≠ []
  length_le : t.length ≤ 4
  digits : ∀ c ∈ t, isDigit 16 c = true
  value_eq : value 16 t = g.toNat

instance (t : List Char) (g : UInt16) : Decidable (HexGroup t g) :=
  decidable_of_iff (t ≠ [] ∧ t.length ≤ 4 ∧ t.all (isDigit 16) = true ∧ value 16 t = g.toNat)
    ⟨fun ⟨h1, h2, h3, h4⟩ => ⟨h1, h2, List.all_eq_true.mp h3, h4⟩,
      fun ⟨h1, h2, h3, h4⟩ => ⟨h1, h2, List.all_eq_true.mpr h3, h4⟩⟩

/-- `t` is a decimal octet without leading zeros. -/
structure DecOctet (t : List Char) (b : UInt8) : Prop where
  ne_nil : t ≠ []
  digits : ∀ c ∈ t, isDigit 10 c = true
  noLeadingZero : NoLeadingZero t
  value_eq : value 10 t = b.toNat

/-- `t` is four decimal octets with dots between them. -/
def DottedQuad (t : List Char) (v : Vector UInt8 4) : Prop :=
  ∃ t0 t1 t2 t3, t = t0 ++ ['.'] ++ t1 ++ ['.'] ++ t2 ++ ['.'] ++ t3 ∧
    List.Forall₂ DecOctet [t0, t1, t2, t3] v.toList

/-- Octets in pairs, the first of a pair the more significant. -/
def octetPairs : List UInt8 → List UInt16
  | a :: b :: l => UInt16.ofNat (256 * a.toNat + b.toNat) :: octetPairs l
  | _ => []

/-- The two groups a dotted quad counts as. -/
def quadGroups (v : Vector UInt8 4) : List UInt16 := octetPairs v.toList

/-- **Sections between colons**, the groups they stand for and whether they end in a dotted
quad. -/
inductive Sections : List (List Char) → List UInt16 → Bool → Prop
  | nil : Sections [] [] false
  | hex {t g ts gs q} : HexGroup t g → Sections ts gs q → Sections (t :: ts) (g :: gs) q
  | quad {t v} : DottedQuad t v → Sections [t] (quadGroups v) true

/-- The sections with colons between them. -/
def joined (ts : List (List Char)) : List Char := [':'].intercalate ts

/-- **The text forms of RFC 4291, section 2.2**, and the eight groups a text stands for. -/
inductive IsText : List Char → List UInt16 → Prop
  | full {ts gs q} : Sections ts gs q → gs.length = 8 → IsText (joined ts) gs
  | compressed {ts gs ts' gs' q} : Sections ts gs false → Sections ts' gs' q →
      gs.length + gs'.length ≤ 7 →
      IsText (joined ts ++ [':', ':'] ++ joined ts')
        (gs ++ List.replicate (8 - gs.length - gs'.length) 0 ++ gs')

/-! ### Canonical texts -/

/-- `t` is a hex group in lower case without leading zeros. -/
structure LowerHexGroup (t : List Char) (g : UInt16) : Prop extends HexGroup t g where
  noLeadingZero : NoLeadingZero t
  lower : ∀ c ∈ t, c.isUpper = false

/-- The address is in `::ffff:0:0/96`, or its first six groups are zero and its seventh is not. -/
def UsesQuad (g : Vector UInt16 8) : Prop :=
  g.toList.take 6 = List.replicate 5 0 ++ [0xffff] ∨
    (g.toList.take 6 = List.replicate 6 0 ∧ g.toList[6]? ≠ some 0)

instance (g : Vector UInt16 8) : Decidable (UsesQuad g) := by unfold UsesQuad; infer_instance

/-- The groups written in hex. -/
def hexPart (g : Vector UInt16 8) : List UInt16 := if UsesQuad g then g.toList.take 6 else g.toList

/-- The sections after the hex groups: the dotted quad of the last 32 bits, if it is used. -/
def QuadPart (g : Vector UInt16 8) (q : List (List Char)) : Prop :=
  if UsesQuad g then ∃ t v, q = [t] ∧ DottedQuad t v ∧ quadGroups v = g.toList.drop 6 else q = []

/-- The sections `ts ++ q`, where `::` replaces the stretch `start, …, start + len - 1` of `ts` if
this has two sections at least. -/
def compressRun (ts q : List (List Char)) (start len : ℕ) : List Char :=
  if 2 ≤ len then joined (ts.take start) ++ [':', ':'] ++ joined (ts.drop (start + len) ++ q)
  else joined (ts ++ q)

/-- **The canonical text of RFC 5952**: hex groups in lower case without leading zeros, `::` for the
leftmost longest run of zeros among them if it has two groups at least, and the dotted quad. -/
def IsCanonicalText (g : Vector UInt16 8) (t : List Char) : Prop :=
  ∃ ts q start len, List.Forall₂ LowerHexGroup ts (hexPart g) ∧ QuadPart g q ∧
    LeftmostLongest (· == 0) (hexPart g) start len ∧ t = compressRun ts q start len

/-! ### Characters and lengths -/

theorem HexGroup.not_mem {t : List Char} {g : UInt16} (h : HexGroup t g) {c : Char}
    (hc : digitValue c = none) : c ∉ t :=
  fun hm => isDigit_ne (h.digits c hm) hc rfl

theorem lowerHexGroup_iff {t : List Char} {g : UInt16} :
    LowerHexGroup t g ↔ t = toChars 16 false g.toNat := by
  have hg := g.toNat_lt
  rw [← numeral_iff (by omega) (by omega)]
  constructor
  · exact fun h => ⟨⟨h.ne_nil, h.digits, h.lower, h.noLeadingZero⟩, h.value_eq⟩
  · rintro ⟨h, hv⟩
    refine ⟨⟨h.ne_nil, ?_, h.digits, hv⟩, h.noLeadingZero, h.lower⟩
    rw [← h.toChars_value (by omega) (by omega), hv]
    exact length_toChars_le (by omega) false (by omega) hg

theorem decOctet_iff {t : List Char} {b : UInt8} : DecOctet t b ↔ t = octetText b := by
  rw [octetText, ← decimal_iff]
  constructor
  · rintro ⟨h1, h2, h3, h4⟩
    exact ⟨h1, h2, h3, h4⟩
  · rintro ⟨h1, h2, h3, h4⟩
    exact ⟨h1, h2, h3, h4⟩

/-- **The dotted quads are the texts the formatter of IPv4 addresses writes.** -/
theorem dottedQuad_iff {t : List Char} {v : Vector UInt8 4} : DottedQuad t v ↔ t = quadText v := by
  constructor
  · rintro ⟨t0, t1, t2, t3, rfl, h⟩
    rw [AddressV4.toList_eq] at h
    simp only [List.forall₂_cons, List.forall₂_nil_right_iff, and_true] at h
    obtain ⟨h0, h1, h2, h3⟩ := h
    rw [decOctet_iff.mp h0, decOctet_iff.mp h1, decOctet_iff.mp h2, decOctet_iff.mp h3, quadText]
  · rintro rfl
    refine ⟨_, _, _, _, rfl, ?_⟩
    rw [AddressV4.toList_eq]
    simp only [List.forall₂_cons, List.forall₂_nil_right_iff, and_true]
    exact ⟨decOctet_iff.mpr rfl, decOctet_iff.mpr rfl, decOctet_iff.mpr rfl, decOctet_iff.mpr rfl⟩

theorem length_quadGroups (v : Vector UInt8 4) : (quadGroups v).length = 2 := by
  rw [quadGroups, AddressV4.toList_eq]
  rfl

theorem DottedQuad.mem {t : List Char} {v : Vector UInt8 4} (h : DottedQuad t v) {c : Char}
    (hc : c ∈ t) : c = '.' ∨ isDigit 10 c = true := by
  rw [dottedQuad_iff.mp h] at hc
  exact AddressV4.mem_quadText hc

theorem DottedQuad.dot_mem {t : List Char} {v : Vector UInt8 4} (h : DottedQuad t v) : '.' ∈ t := by
  obtain ⟨t0, t1, t2, t3, rfl, -⟩ := h
  simp

theorem Sections.section_ok : ∀ {ts : List (List Char)} {gs : List UInt16} {q : Bool},
    Sections ts gs q → ∀ t ∈ ts, ':' ∉ t ∧ t ≠ []
  | _, _, _, .nil, t, ht => absurd ht (List.not_mem_nil)
  | _, _, _, .hex h hs, t, ht => by
    rcases List.mem_cons.mp ht with rfl | ht
    · exact ⟨h.not_mem (by decide), h.ne_nil⟩
    · exact hs.section_ok t ht
  | _, _, _, .quad h, t, ht => by
    rw [List.mem_singleton] at ht
    subst ht
    refine ⟨fun hc => ?_, List.ne_nil_of_mem h.dot_mem⟩
    rcases h.mem hc with hc | hc
    · cases hc
    · exact isDigit_ne hc (by decide : digitValue ':' = none) rfl

theorem Sections.mem_ok : ∀ {ts : List (List Char)} {gs : List UInt16} {q : Bool},
    Sections ts gs q → ∀ t ∈ ts, ∀ c ∈ t, c = '.' ∨ isDigit 16 c = true
  | _, _, _, .nil, t, ht, _, _ => absurd ht (List.not_mem_nil)
  | _, _, _, .hex h hs, t, ht, c, hc => by
    rcases List.mem_cons.mp ht with rfl | ht
    · exact Or.inr (h.digits c hc)
    · exact hs.mem_ok t ht c hc
  | _, _, _, .quad h, t, ht, c, hc => by
    rw [List.mem_singleton] at ht
    subst ht
    rcases h.mem hc with hc | hc
    · exact Or.inl hc
    · obtain ⟨d, hd, hc⟩ := isDigit_iff.mp hc
      exact Or.inr (isDigit_iff.mpr ⟨d, by omega, hc⟩)

theorem joined_cons_length (t : List Char) (ts : List (List Char)) :
    (joined (t :: ts)).length ≤ t.length + 1 + (joined ts).length := by
  unfold joined
  rcases ts with _ | ⟨u, us⟩
  · simp
  · rw [List.intercalate_cons_cons]
    simp only [List.length_append, List.length_singleton]; omega

/-- Sections have at most five characters for each group, a dotted quad five more. -/
theorem Sections.length_le : ∀ {ts : List (List Char)} {gs : List UInt16} {q : Bool},
    Sections ts gs q → (joined ts).length ≤ 5 * gs.length + (if q then 5 else 0)
  | _, _, _, .nil => by simp [joined]
  | t :: ts, g :: gs, q, .hex h hs => by
    have h1 := joined_cons_length t ts
    have h2 := h.length_le
    have h3 := hs.length_le
    rw [List.length_cons]
    omega
  | [t], _, _, .quad h => by
    have hlen := AddressV4.length_quadText_le
    rw [dottedQuad_iff.mp h]
    simpa [joined, length_quadGroups] using hlen _

/-- **No text is longer than 45 characters.** -/
theorem IsText.length_le {s : List Char} {gs : List UInt16} (h : IsText s gs) : s.length ≤ 45 := by
  cases h with
  | full hs hlen =>
    have := hs.length_le
    split_ifs at this <;> omega
  | compressed hs hs' hlen =>
    have h1 := hs.length_le
    have h2 := hs'.length_le
    rw [if_neg (by simp)] at h1
    simp only [List.length_append, List.length_cons, List.length_nil]
    split_ifs at h2 <;> omega

theorem IsText.length_groups {s : List Char} {gs : List UInt16} (h : IsText s gs) :
    gs.length = 8 := by
  cases h with
  | full hs hlen => exact hlen
  | compressed hs hs' hlen =>
    simp only [List.length_append, List.length_replicate]; omega

theorem joined_eq_nil {ts : List (List Char)} (h : ∀ t ∈ ts, t ≠ []) :
    joined ts = [] ↔ ts = [] := by
  constructor
  · intro he
    rcases ts with _ | ⟨t, ts⟩
    · rfl
    · exfalso
      have hlen : t.length ≤ (joined (t :: ts)).length := by
        unfold joined
        rcases ts with _ | ⟨u, us⟩
        · simp
        · rw [List.intercalate_cons_cons]
          simp only [List.length_append]; omega
      rw [he] at hlen
      exact h t List.mem_cons_self (List.length_eq_zero_iff.mp (Nat.le_zero.mp hlen))
  · rintro rfl; rfl

theorem IsText.mem {s : List Char} {gs : List UInt16} (h : IsText s gs) {c : Char} (hc : c ∈ s) :
    c = ':' ∨ c = '.' ∨ isDigit 16 c = true := by
  have hjoined : ∀ {ts : List (List Char)} {gs : List UInt16} {q : Bool}, Sections ts gs q →
      c ∈ joined ts → c = ':' ∨ c = '.' ∨ isDigit 16 c = true := by
    intro ts gs q hs hm
    rcases mem_intercalate hm with h | ⟨t, ht, h⟩
    · exact Or.inl (List.mem_singleton.mp h)
    · exact Or.inr (hs.mem_ok t ht c h)
  cases h with
  | full hs hlen => exact hjoined hs hc
  | compressed hs hs' hlen =>
    rw [List.append_assoc, List.mem_append, List.mem_append] at hc
    rcases hc with hc | hc | hc
    · exact hjoined hs hc
    · simp only [List.mem_cons, List.not_mem_nil, or_false, or_self] at hc
      exact Or.inl hc
    · exact hjoined hs' hc

theorem sections_of_forall {ts : List (List Char)} {gs : List UInt16}
    (h : List.Forall₂ HexGroup ts gs) : Sections ts gs false := by
  induction h with
  | nil => exact .nil
  | cons h _ ih => exact .hex h ih

theorem Sections.forall {ts : List (List Char)} {gs : List UInt16} (h : Sections ts gs false) :
    List.Forall₂ HexGroup ts gs := by
  generalize hq : false = q at h
  induction h with
  | nil => exact .nil
  | hex h _ ih => exact .cons h (ih hq)
  | quad h => cases hq

theorem Sections.append {ts ts' : List (List Char)} {gs gs' : List UInt16} {q : Bool}
    (h : List.Forall₂ HexGroup ts gs) (h' : Sections ts' gs' q) :
    Sections (ts ++ ts') (gs ++ gs') q := by
  induction h with
  | nil => exact h'
  | cons h _ ih => exact .hex h ih

/-! ### Replacing a run of zeros -/

/-- **Replacing a run of zeros by `::`** gives a text of the same groups. -/
theorem isText_compressRun {ts q : List (List Char)} {gs qgs : List UInt16} {b : Bool}
    {start len : ℕ} (hts : List.Forall₂ HexGroup ts gs) (hq : Sections q qgs b)
    (h8 : gs.length + qgs.length = 8) (hrun : IsRun (· == 0) gs start len)
    (hbound : start + len ≤ gs.length) :
    IsText (compressRun ts q start len) (gs ++ qgs) := by
  unfold compressRun
  by_cases h2 : 2 ≤ len
  · have hzeros : (gs.drop start).take len = List.replicate len 0 := by
      rw [List.eq_replicate_iff]
      refine ⟨by rw [List.length_take, List.length_drop]; omega, fun g hg => ?_⟩
      simpa using hrun.mem g hg
    have hgs : gs = gs.take start ++ List.replicate len 0 ++ gs.drop (start + len) := by
      rw [← hzeros, ← List.drop_drop, List.append_assoc, List.take_append_drop,
        List.take_append_drop]
    have hbefore := sections_of_forall (List.forall₂_take start hts)
    have hafter := Sections.append (List.forall₂_drop (start + len) hts) hq
    have hl1 : (gs.take start).length = start := by rw [List.length_take]; omega
    have hl2 : (gs.drop (start + len) ++ qgs).length = 8 - start - len := by
      rw [List.length_append, List.length_drop]; omega
    have ht := IsText.compressed hbefore hafter (by omega)
    rw [hl1, hl2, show 8 - start - (8 - start - len) = len by omega, ← List.append_assoc,
      ← hgs] at ht
    rw [if_pos h2]
    exact ht
  · rw [if_neg h2]
    exact .full (Sections.append hts hq) (by rw [List.length_append, h8])

/-! ### The canonical text -/

theorem quadGroups_inj {v w : Vector UInt8 4} (h : quadGroups v = quadGroups w) : v = w := by
  have hpair : ∀ a b c d : UInt8, UInt16.ofNat (256 * a.toNat + b.toNat) =
      UInt16.ofNat (256 * c.toNat + d.toNat) → a = c ∧ b = d := by
    intro a b c d he
    have ha := a.toNat_lt
    have hb := b.toNat_lt
    have hc := c.toNat_lt
    have hd := d.toNat_lt
    have hn := congrArg UInt16.toNat he
    rw [UInt16.toNat_ofNat_of_lt' (by change _ < 65536; omega),
      UInt16.toNat_ofNat_of_lt' (by change _ < 65536; omega)] at hn
    exact ⟨UInt8.toNat_inj.mp (by omega), UInt8.toNat_inj.mp (by omega)⟩
  rw [quadGroups, quadGroups, AddressV4.toList_eq, AddressV4.toList_eq] at h
  simp only [octetPairs, List.cons.injEq] at h
  obtain ⟨h0, h1⟩ := hpair _ _ _ _ h.1
  obtain ⟨h2, h3⟩ := hpair _ _ _ _ h.2.1
  apply Vector.toList_inj.mp
  rw [AddressV4.toList_eq, AddressV4.toList_eq, h0, h1, h2, h3]

/-- **There is one canonical text.** -/
theorem IsCanonicalText.unique {g : Vector UInt16 8} {t t' : List Char} (h : IsCanonicalText g t)
    (h' : IsCanonicalText g t') : t = t' := by
  obtain ⟨ts, q, start, len, hts, hq, hrun, rfl⟩ := h
  obtain ⟨ts', q', start', len', hts', hq', hrun', rfl⟩ := h'
  have htexts : ∀ {ts : List (List Char)}, List.Forall₂ LowerHexGroup ts (hexPart g) →
      ts = (hexPart g).map fun g => toChars 16 false g.toNat := by
    intro ts h
    rw [← List.forall₂_eq_eq_eq, List.forall₂_map_right_iff]
    exact h.imp fun t g h => lowerHexGroup_iff.mp h
  have hquad : q = q' := by
    unfold QuadPart at hq hq'
    split_ifs at hq hq'
    · obtain ⟨t, v, rfl, ht, hv⟩ := hq
      obtain ⟨t', v', rfl, ht', hv'⟩ := hq'
      rw [dottedQuad_iff.mp ht, dottedQuad_iff.mp ht', quadGroups_inj (hv.trans hv'.symm)]
    · rw [hq, hq']
  obtain ⟨rfl, rfl⟩ := hrun.unique hrun'
  rw [htexts hts, htexts hts', hquad]

end Iouxx.Ip.Text
