import Iouxx.Ip.Formatter
import Iouxx.Ip.ParseV6

/-!
# The texts of IPv6 addresses

Every layout of the formatter is a list of hex sections, perhaps a dotted quad, and perhaps `::` in
place of the leftmost longest run of zeros (`format_eq`). So each of its texts is a text of the
RFC for the groups of the address (`isText_format`), and the recommended one is the canonical text.

* `fromString_formatWith`: **formatting and parsing gives back the address**, under every spec;
* `toString_eq_iff`: **`to_string` writes the canonical text of RFC 5952**.
-/

namespace Iouxx.Ip

open Iouxx.Cpp.CharConv Iouxx.Cpp.Memory Iouxx.Cpp.Split
open Iouxx.Lib.Fill Iouxx.Lib.LongestRun Iouxx.Lib.Loop
open Iouxx.Ip.Text

/-! ### Sections with colons -/

theorem flatMap_colon_append (u : List Char) (us : List (List Char)) :
    ∀ ts : List (List Char), (ts.flatMap fun t => t ++ [':']) ++ joined (u :: us) =
      joined (ts ++ u :: us)
  | [] => rfl
  | t :: ts => by
    have hne : ts ++ u :: us ≠ [] := by simp
    obtain ⟨v, vs, hv⟩ := List.exists_cons_of_ne_nil hne
    have ih := flatMap_colon_append u us ts
    rw [List.flatMap_cons, List.append_assoc, ih, List.cons_append, hv]
    unfold joined
    rw [List.intercalate_cons_cons, List.append_assoc]

theorem flatMap_colon (ts : List (List Char)) :
    (ts.flatMap fun t => t ++ [':']) ++ (if ts = [] then [':'] else []) = joined ts ++ [':'] := by
  rcases List.eq_nil_or_concat' ts with rfl | ⟨l, t, rfl⟩
  · rfl
  · have h := flatMap_colon_append t [] l
    rw [if_neg (by simp), List.flatMap_append, ← h]
    simp [joined]

theorem colon_flatMap : ∀ ts : List (List Char), ts ≠ [] →
    (ts.flatMap fun t => ':' :: t) = ':' :: joined ts
  | [t], _ => by simp [joined]
  | t :: u :: us, _ => by
    have ih := colon_flatMap (u :: us) (by simp)
    rw [List.flatMap_cons, ih]
    unfold joined
    rw [List.intercalate_cons_cons]
    simp

/-- The section after the hex groups. -/
def quadTexts (quad : List Char) (mixed : Bool) : List (List Char) := if mixed then [quad] else []

theorem colon_flatMap_quad (ts : List (List Char)) (quad : List Char) (mixed : Bool) :
    (ts.flatMap fun t => ':' :: t) ++ (if ts = [] ∨ mixed then [':'] else []) ++
      (if mixed then quad else []) = ':' :: joined (ts ++ quadTexts quad mixed) := by
  unfold quadTexts
  by_cases hm : mixed = true
  · have h := colon_flatMap (ts ++ [quad]) (by simp)
    rw [if_pos (Or.inr hm), if_pos hm, if_pos hm, ← h]
    simp
  · rw [if_neg hm, if_neg hm, List.append_nil, List.append_nil]
    by_cases hts : ts = []
    · rw [if_pos (Or.inl hts), hts]; rfl
    · rw [if_neg (not_or.mpr ⟨hts, hm⟩), List.append_nil, colon_flatMap ts hts]

/-! ### The layouts -/

namespace FormatterV6

variable {removed uppercase : Bool}

theorem hexGroup_groupText (removed uppercase : Bool) (g : UInt16) :
    HexGroup (groupText removed uppercase g) g := by
  have hg : g.toNat < 16 ^ 4 := g.toNat_lt
  unfold groupText
  split_ifs
  · exact ⟨toChars_ne_nil uppercase _, length_toChars_le (by omega) uppercase (by omega) hg,
      isDigit_toChars (by omega) (by omega) uppercase _,
      value_toChars (by omega) (by omega) uppercase _⟩
  · have hlen : (toChars4 16 uppercase g.toNat).length = 4 :=
      length_toChars4 (by omega) uppercase hg
    refine ⟨fun h => ?_, hlen.le, isDigit_toChars4 (by omega) (by omega) uppercase _,
      value_toChars4 (by omega) (by omega) uppercase _⟩
    rw [h] at hlen; cases hlen

/-- The groups written in hex. -/
def hexGroups (local_ : Vector UInt16 8) (mixed : Bool) : List UInt16 :=
  local_.toList.take (if mixed then 6 else 8)

/-- The texts of these groups. -/
def hexTexts (local_ : Vector UInt16 8) (removed mixed uppercase : Bool) : List (List Char) :=
  (hexGroups local_ mixed).map (groupText removed uppercase)

theorem length_hexGroups (local_ : Vector UInt16 8) (mixed : Bool) :
    (hexGroups local_ mixed).length = if mixed then 6 else 8 := by
  unfold hexGroups
  rw [List.length_take, Vector.length_toList]
  split_ifs <;> rfl

theorem forall_hexTexts (local_ : Vector UInt16 8) (removed mixed uppercase : Bool) :
    List.Forall₂ HexGroup (hexTexts local_ removed mixed uppercase) (hexGroups local_ mixed) := by
  unfold hexTexts
  rw [List.forall₂_map_left_iff, List.forall₂_same]
  exact fun g _ => hexGroup_groupText removed uppercase g

theorem full_eq (local_ : Vector UInt16 8) (removed mixed uppercase : Bool) (quad : List Char) :
    (if mixed then mixedFullIpv6 local_ removed uppercase ++ quad
      else fullIpv6 local_ removed uppercase) =
      joined (hexTexts local_ removed mixed uppercase ++ quadTexts quad mixed) := by
  unfold hexTexts hexGroups quadTexts
  by_cases h : mixed = true
  · have hj := flatMap_colon_append quad []
      ((local_.toList.take 6).map (groupText removed uppercase))
    rw [List.flatMap_map] at hj
    rw [if_pos h, if_pos h, if_pos h, ← hj]
    simp [mixedFullIpv6, joined]
  · rw [if_neg h, if_neg h, if_neg h, List.append_nil, List.take_of_length_le (by simp)]
    rfl

/-- **The compressed layouts**: the leftmost longest run of zeros becomes `::`. -/
theorem compressed_eq (local_ : Vector UInt16 8) (removed mixed uppercase : Bool)
    (quad : List Char) :
    compressedIpv6 local_ removed mixed uppercase ++ (if mixed then quad else []) =
      compressRun (hexTexts local_ removed mixed uppercase) (quadTexts quad mixed)
        (scan (· == 0) (hexGroups local_ mixed)).bestStart
        (scan (· == 0) (hexGroups local_ mixed)).bestLen := by
  have hbound := (scan_spec (· == 0) (hexGroups local_ mixed)).bound
  have hlen := length_hexGroups local_ mixed
  unfold compressRun compressedIpv6
  simp only
  rw [show local_.toList.take (if mixed then 6 else 8) = hexGroups local_ mixed from rfl]
  generalize (scan (· == 0) (hexGroups local_ mixed)).bestStart = start at *
  generalize (scan (· == 0) (hexGroups local_ mixed)).bestLen = len at *
  by_cases h2 : len < 2
  · rw [if_pos h2, if_neg (Nat.not_le.mpr h2), ← full_eq]
    split_ifs
    · rfl
    · exact List.append_nil _
  · rw [if_neg h2, if_pos (Nat.not_lt.mp h2)]
    have htexts : (hexTexts local_ removed mixed uppercase).length = if mixed then 6 else 8 := by
      rw [hexTexts, List.length_map, hlen]
    by_cases hall : start = 0 ∧ len = if mixed then 6 else 8
    · have hdrop : (hexTexts local_ removed mixed uppercase).drop (start + len) = [] := by
        rw [List.drop_eq_nil_iff, htexts]; omega
      rw [if_pos hall, hall.1, List.take_zero, ← hall.1, hdrop]
      unfold quadTexts
      split_ifs <;> simp [joined]
    · have htake : local_.toList.take start = (hexGroups local_ mixed).take start := by
        unfold hexGroups
        rw [List.take_take, Nat.min_eq_left (by omega)]
      have hbefore := flatMap_colon ((hexTexts local_ removed mixed uppercase).take start)
      have hafter := colon_flatMap_quad
        ((hexTexts local_ removed mixed uppercase).drop (start + len)) quad mixed
      have hstart : (hexTexts local_ removed mixed uppercase).take start = [] ↔ start = 0 := by
        rw [← List.length_eq_zero_iff, List.length_take, htexts]
        split_ifs <;> omega
      have hend : (hexTexts local_ removed mixed uppercase).drop (start + len) = [] ↔
          start + len = if mixed then 6 else 8 := by
        rw [List.drop_eq_nil_iff, htexts]; omega
      simp only [hstart] at hbefore
      simp only [hend] at hafter
      unfold hexTexts at hbefore hafter ⊢
      rw [← List.map_take, List.flatMap_map] at hbefore
      rw [← List.map_drop, List.flatMap_map] at hafter
      rw [if_neg hall, htake, hbefore]
      rw [List.append_assoc, List.append_assoc, ← List.append_assoc (List.flatMap _ _), hafter]
      rw [← List.map_take, ← List.map_drop]
      simp

/-! ### The texts and the RFC -/

theorem drop_six {l : List UInt16} (h : l.length = 8) : l.drop 6 = [l[6], l[7]] := by
  rw [List.drop_eq_getElem_cons (by omega), List.drop_eq_getElem_cons (by omega),
    List.drop_of_length_le (by omega)]

theorem ipv4Part_spec (native : Endian) (a : AddressV6) :
    ∃ v, DottedQuad (ipv4Part native a) v ∧
      quadGroups v = (a.groups native).toList.drop 6 := by
  obtain ⟨w, hw⟩ : ∃ w : Vector UInt16 2, w = #v[a.raw[6], a.raw[7]] := ⟨_, rfl⟩
  obtain ⟨v4, hv4⟩ : ∃ v4 : AddressV4, v4 = ⟨bitCast _ native w⟩ := ⟨_, rfl⟩
  have hparts : AddressV6.v4Parts native v4 = w := by
    rw [AddressV6.v4Parts, hv4]
    exact bitCast_cancel (α := Vector UInt16 2) (β := UInt32) native rfl w
  refine ⟨v4.octets native, dottedQuad_iff.mpr ?_, ?_⟩
  · rw [hv4, hw]; rfl
  · rw [← AddressV6.v4Groups_ofOctets native, AddressV4.ofOctets_octets, AddressV6.v4Groups, hparts,
      hw, AddressV6.groups]
    rw [hton_eq_map, Vector.toList_map, ← List.map_drop, drop_six (Vector.length_toList)]
    rfl

/-- The groups behind the hex groups. -/
def quadPart (local_ : Vector UInt16 8) (mixed : Bool) : List UInt16 :=
  if mixed then local_.toList.drop 6 else []

theorem sections_quadTexts (native : Endian) (a : AddressV6) (mixed : Bool) :
    Sections (quadTexts (ipv4Part native a) mixed) (quadPart (a.groups native) mixed) mixed := by
  unfold quadTexts quadPart
  by_cases hm : mixed = true
  · obtain ⟨v, ht, hv⟩ := ipv4Part_spec native a
    rw [if_pos hm, if_pos hm, hm, ← hv]
    exact .quad ht
  · rw [Bool.not_eq_true] at hm
    subst hm
    exact .nil

theorem hexGroups_append (local_ : Vector UInt16 8) (mixed : Bool) :
    hexGroups local_ mixed ++ quadPart local_ mixed = local_.toList := by
  unfold hexGroups quadPart
  by_cases hm : mixed = true
  · rw [if_pos hm, if_pos hm]
    exact List.take_append_drop 6 local_.toList
  · rw [if_neg hm, if_neg hm, List.append_nil, List.take_of_length_le (by simp)]

/-- The choice of the formatter between the mixed layouts and the others. -/
def mixed (f : FormatterV6) (local_ : Vector UInt16 8) : Bool :=
  if f.seenR then !f.seenN && checkMixed local_ else f.seenM

/-- **The layouts of the formatter**: all groups, or `::` for the leftmost longest run of zeros. -/
theorem format_eq (f : FormatterV6) (native : Endian) (a : AddressV6) :
    f.format native a =
      let mixed := f.mixed (a.groups native)
      let ts := hexTexts (a.groups native) (!f.seenZ) mixed f.seenU
      let q := quadTexts (ipv4Part native a) mixed
      let best := scan (· == 0) (hexGroups (a.groups native) mixed)
      if f.seenF then joined (ts ++ q) else compressRun ts q best.bestStart best.bestLen := by
  simp only
  rw [← full_eq, ← compressed_eq]
  unfold format doFormat mixed AddressV6.groups
  rfl

/-- **Every text of the formatter is a text of the RFC** for the groups of the address. -/
theorem isText_format (f : FormatterV6) (native : Endian) (a : AddressV6) :
    IsText (f.format native a) (a.groups native).toList := by
  rw [format_eq]
  simp only
  generalize f.mixed (a.groups native) = mixed
  have hts := forall_hexTexts (a.groups native) (!f.seenZ) mixed f.seenU
  have hq := sections_quadTexts native a mixed
  have happ := hexGroups_append (a.groups native) mixed
  have h8 : (hexGroups (a.groups native) mixed).length +
      (quadPart (a.groups native) mixed).length = 8 := by
    rw [← List.length_append, happ, Vector.length_toList]
  have hbest := scan_spec (· == 0) (hexGroups (a.groups native) mixed)
  rw [← happ]
  split_ifs
  · exact .full (Sections.append hts hq) (by rw [List.length_append, h8])
  · exact isText_compressRun hts hq h8 hbest.run hbest.bound

end FormatterV6

namespace AddressV6

theorem fromString_format (f : FormatterV6) (native : Endian) (a : AddressV6) :
    fromString native (f.format native a) = .ok a := by
  rw [fromString_eq_ok_iff]
  exact Or.inl (FormatterV6.isText_format f native a)

/-- **Formatting and parsing gives back the address**, whatever the format spec, and no text is
too long for the parser. -/
theorem fromString_formatWith {native : Endian} {spec : List Char} {a : AddressV6} {t : List Char}
    (h : formatWith native spec a = .ok t) : fromString native t = .ok a ∧ t.length ≤ 45 := by
  unfold formatWith at h
  obtain ⟨⟨f, it⟩, -, hf⟩ := bind_eq_ok_iff.mp h
  rw [← Except.ok.inj hf]
  exact ⟨fromString_format f native a, (FormatterV6.isText_format f native a).length_le⟩

/-- The mixed layout of `::ffff:192.0.2.1` in upper case, with leading zeros kept. -/
theorem fromString_formatWith_zMu :
    fromString .little "::FFFF:192.0.2.1".toList =
      .ok (ofGroups .little #v[0, 0, 0, 0, 0, 0xffff, 0xc000, 0x201]) ∧
      "::FFFF:192.0.2.1".toList.length ≤ 45 :=
  fromString_formatWith (show formatWith _ ['z', 'M', 'u', '}'] _ = _ by decide +kernel)

/-- The formatter uses the dotted quad where the canonical text does. -/
theorem checkMixed_eq (local_ : Vector UInt16 8) :
    FormatterV6.checkMixed local_ = decide (UsesQuad local_) := by
  have h5 : (local_.toList.take 5).any (· ≠ 0) = true ↔
      local_.toList.take 5 ≠ List.replicate 5 0 := by
    rw [ne_eq, List.eq_replicate_iff]
    simp
  have h6 : ∀ g : UInt16, local_.toList.take 6 = List.replicate 5 0 ++ [g] ↔
      local_.toList.take 5 = List.replicate 5 0 ∧ local_[5] = g := by
    intro g
    have htake : local_.toList.take 6 = local_.toList.take 5 ++ [local_[5]] :=
      List.take_succ_eq_append_getElem (by simp)
    rw [htake, List.append_singleton_inj]
  have h7 : local_.toList[6]? ≠ some 0 ↔ local_[6] ≠ 0 := by
    rw [List.getElem?_eq_getElem (by simp), ne_eq, Option.some.injEq, Vector.getElem_toList]
  have huses : UsesQuad local_ ↔ local_.toList.take 5 = List.replicate 5 0 ∧
      (local_[5] = 0xffff ∨ local_[5] = 0 ∧ local_[6] ≠ 0) := by
    unfold UsesQuad
    rw [List.replicate_succ' (n := 5), h6, h6, h7, and_assoc, ← and_or_left]
  rw [Bool.eq_iff_iff, decide_eq_true_iff, huses]
  unfold FormatterV6.checkMixed
  split_ifs with h h'
  · rw [h5] at h
    exact ⟨fun he => he.elim, fun he => absurd he.1 h⟩
  · refine ⟨fun he => he.elim, fun he => ?_⟩
    rcases he.2 with h | ⟨h, h0⟩
    · exact absurd h h'.1
    · exact absurd (h'.2.resolve_left (not_not.mpr h)) h0
  · rw [h5, not_not] at h
    refine ⟨fun _ => ⟨h, ?_⟩, fun _ => rfl⟩
    rw [not_and_or, not_not, not_or, not_not] at h'
    exact h'

/-- **`to_string` writes a canonical text.** -/
theorem isCanonicalText_toString (native : Endian) (a : AddressV6) :
    IsCanonicalText (a.groups native) (a.toString native) := by
  have hmixed : FormatterV6.recommended.mixed (a.groups native) =
      decide (UsesQuad (a.groups native)) := by
    rw [← checkMixed_eq]; rfl
  have hhex : hexPart (a.groups native) =
      FormatterV6.hexGroups (a.groups native) (decide (UsesQuad (a.groups native))) := by
    unfold hexPart FormatterV6.hexGroups
    by_cases h : UsesQuad (a.groups native)
    · rw [if_pos h, if_pos (decide_eq_true h)]
    · rw [if_neg h, if_neg (by simpa using h), List.take_of_length_le (by simp)]
  unfold IsCanonicalText
  rw [hhex]
  refine ⟨FormatterV6.hexTexts (a.groups native) true (decide (UsesQuad (a.groups native))) false,
    quadTexts (FormatterV6.ipv4Part native a) (decide (UsesQuad (a.groups native))), _, _, ?_, ?_,
    scan_spec _ _, ?_⟩
  · unfold FormatterV6.hexTexts
    rw [List.forall₂_map_left_iff, List.forall₂_same]
    exact fun g _ => lowerHexGroup_iff.mpr rfl
  · unfold QuadPart quadTexts
    obtain ⟨v, ht, hv⟩ := FormatterV6.ipv4Part_spec native a
    by_cases h : UsesQuad (a.groups native)
    · rw [if_pos h, if_pos (decide_eq_true h)]
      exact ⟨_, v, rfl, ht, hv⟩
    · rw [if_neg h, if_neg (by simpa using h)]
  · unfold toString
    rw [FormatterV6.format_eq]
    simp only [hmixed]
    rfl

/-- **`to_string` writes the canonical text of RFC 5952**, and no other text is canonical. -/
theorem toString_eq_iff (native : Endian) (a : AddressV6) (t : List Char) :
    t = a.toString native ↔ IsCanonicalText (a.groups native) t := by
  have hcanon := isCanonicalText_toString native a
  constructor
  · rintro rfl; exact hcanon
  · exact fun h => h.unique hcanon

end AddressV6

end Iouxx.Ip
