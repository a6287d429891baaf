import Iouxx.Ip.AddressV6
import Iouxx.Ip.Text

/-!
# What the IPv6 parsers accept

The state of a parser that has written the groups `gs` is `written gs …`. Each body of the inner
loop adds the groups of one section (`colonBody_eq_ok_iff`), so an inner loop reads a list of
sections (`sections_ok_iff`).

* `fromString_eq_ok_iff`: **the checked parser accepts the texts of RFC 4291**, and also eight hex
  groups followed by `::`;
* `parsesAsRfc4291_iff`: **on all other strings it does what the RFC says**.
-/

namespace Iouxx.Ip.AddressV6

open Iouxx.Cpp.Error Iouxx.Cpp.CharConv Iouxx.Cpp.Memory Iouxx.Cpp.Split
open Iouxx.Lib.Fill Iouxx.Lib.Loop Iouxx.Utility
open Iouxx.Ip.Text

/-! ### The groups of an IPv4 address -/

theorem bytes_big_ofNat (a b : UInt8) :
    ObjectRep.bytes .big (UInt16.ofNat (256 * a.toNat + b.toNat)) = [a, b] := by
  have ha := a.toNat_lt
  have hb := b.toNat_lt
  have hn : (UInt16.ofNat (256 * a.toNat + b.toNat)).toNat = 256 * a.toNat + b.toNat :=
    UInt16.toNat_ofNat_of_lt' (by change _ < 65536; omega)
  rw [bytes_big, hn, show (256 * a.toNat + b.toNat) / 256 = a.toNat by omega]
  congr 1
  · exact UInt8.ofNat_toNat
  · congr 1
    apply UInt8.toNat_inj.mp
    rw [UInt8.toNat_ofNat']
    omega

/-- **The groups of an IPv4 address** are its octets in pairs, the first octet the more
significant. -/
theorem v4Groups_ofOctets (native : Endian) (v : Vector UInt8 4) :
    v4Groups native (AddressV4.ofOctets native v) = quadGroups v := by
  obtain ⟨p, hp⟩ : ∃ p, v4Parts native (AddressV4.ofOctets native v) = p := ⟨_, rfl⟩
  have hbytes : ObjectRep.bytes native p = v.toList := by
    rw [← hp, v4Parts, bytes_bitCast (α := UInt32) (β := Vector UInt16 2) native rfl,
      AddressV4.bytes_raw, AddressV4.octets_ofOctets]
  have hlist : p.toList = [p[0], p[1]] := by
    obtain ⟨⟨l⟩, hl⟩ := p
    obtain ⟨a, b, rfl⟩ := List.length_eq_two.mp hl
    rfl
  rw [bytes_vector, hlist, AddressV4.toList_eq] at hbytes
  simp only [List.flatMap_cons, List.flatMap_nil, List.append_nil] at hbytes
  have hpairs : ObjectRep.bytes native p[0] ++ ObjectRep.bytes native p[1] =
      [v[0], v[1]] ++ [v[2], v[3]] := hbytes
  obtain ⟨h0, h1⟩ := List.append_inj hpairs (ObjectRep.length_bytes native p[0])
  rw [v4Groups, hp, quadGroups, AddressV4.toList_eq]
  congr 1
  · apply bytes_inj .big
    rw [bytes_big_hton16, bytes_big_ofNat, h0]
  · congr 1
    apply bytes_inj .big
    rw [bytes_big_hton16, bytes_big_ofNat, h1]

/-! ### One section -/

/-- The state when the groups `gs` are written. -/
def written (gs : List UInt16) (doubleColonCount : ℕ) (seenIpv4 : Bool) : SectionState :=
  ⟨fill gs, gs.length, doubleColonCount, seenIpv4⟩

theorem init_eq_written : SectionState.init = written [] 0 false := by
  unfold written
  rw [fill_nil]; rfl

theorem parseOneSection_dot {native : Endian} {gs : List UInt16} {dc : ℕ} {q : Bool}
    {sub : List Char} {st : SectionState} (hdot : '.' ∈ sub) :
    parseOneSection native (written gs dc q) sub = .ok st ↔
      ∃ v, DottedQuad sub v ∧ gs.length ≤ 6 ∧ st = written (gs ++ quadGroups v) dc true := by
  have hset : ∀ (v : Vector UInt8 4) (h : gs.length ≤ 6),
      (((fill gs : Vector UInt16 8).set gs.length
        (hton16 native (v4Parts native (AddressV4.ofOctets native v))[0]) (by omega)).set
        (gs.length + 1) (hton16 native (v4Parts native (AddressV4.ofOctets native v))[1])
        (by omega)) = fill (gs ++ quadGroups v) := by
    intro v h
    have h1 := set_fill (n := 8) (gs ++ [hton16 native
      (v4Parts native (AddressV4.ofOctets native v))[0]])
      (hton16 native (v4Parts native (AddressV4.ofOctets native v))[1]) (by simp; omega)
    rw [set_fill (n := 8), ← v4Groups_ofOctets native v, v4Groups]
    simpa using h1
  unfold parseOneSection
  rw [if_pos hdot]
  constructor
  · intro h
    split_ifs at h with h1
    cases hf : AddressV4.fromString native sub with
    | error e => rw [hf] at h; cases h
    | ok v4 =>
      rw [hf] at h
      obtain ⟨v, rfl, rfl⟩ := AddressV4.fromString_eq_ok_iff_quadText.mp hf
      have hle : gs.length ≤ 6 := by simpa [written] using h1
      refine ⟨v, dottedQuad_iff.mpr rfl, hle, ?_⟩
      rw [← Except.ok.inj h]
      unfold written
      simp only [hset v hle, List.length_append, length_quadGroups]
  · rintro ⟨v, hv, hle, rfl⟩
    have hf : AddressV4.fromString native sub = .ok (AddressV4.ofOctets native v) :=
      AddressV4.fromString_eq_ok_iff_quadText.mpr ⟨v, dottedQuad_iff.mp hv, rfl⟩
    rw [dif_neg (by simpa [written] using hle), hf]
    unfold written
    simp only [hset v hle, List.length_append, length_quadGroups]

theorem parseOneSection_hex {native : Endian} {gs : List UInt16} {dc : ℕ} {q : Bool}
    {sub : List Char} {st : SectionState} (hdot : '.' ∉ sub) :
    parseOneSection native (written gs dc q) sub = .ok st ↔
      ∃ g, HexGroup sub g ∧ gs.length < 8 ∧ st = written (gs ++ [g]) dc q := by
  unfold parseOneSection
  rw [if_neg hdot]
  constructor
  · intro h
    split_ifs at h with h1 h2
    cases hf : fromChars 16 65535 sub with
    | error ec => rw [hf] at h; cases h
    | ok r =>
      obtain ⟨v, ptr⟩ := r
      rw [hf] at h
      simp only at h
      split_ifs at h with h3
      rw [not_not] at h3
      subst h3
      obtain ⟨hne, hall, hv, hmax⟩ := fromChars_eq_ok_iff.mp hf
      have hlt : gs.length < 8 := by simpa [written] using h1
      have hnat : (UInt16.ofNat v).toNat = v :=
        UInt16.toNat_ofNat_of_lt' (by change v < 65536; omega)
      refine ⟨UInt16.ofNat v, ⟨hne, by omega, hall, by rw [hnat, hv]⟩, hlt, ?_⟩
      rw [← Except.ok.inj h]
      unfold written
      simp only [set_fill (n := 8) gs (UInt16.ofNat v) hlt, List.length_append,
        List.length_singleton]
  · rintro ⟨g, hg, hlt, rfl⟩
    have hmax := g.toNat_lt
    have hlen := hg.length_le
    have hf : fromChars 16 65535 sub = .ok (g.toNat, []) :=
      fromChars_eq_ok_iff.mpr ⟨hg.ne_nil, hg.digits, hg.value_eq, by omega⟩
    rw [dif_neg (by simpa [written] using hlt), if_neg (by omega), hf]
    unfold written
    simp only [ne_eq, not_true_eq_false, if_false, UInt16.ofNat_toNat,
      set_fill (n := 8) gs g hlt, List.length_append, List.length_singleton]

/-- **The body of the inner loops accepts a section** that fits. -/
theorem colonBody_eq_ok_iff {native : Endian} {gs : List UInt16} {dc : ℕ} {sub : List Char}
    {st : SectionState} :
    colonBody native (written gs dc false) sub = .ok st ↔
      (∃ g, HexGroup sub g ∧ gs.length < 8 ∧ st = written (gs ++ [g]) dc false) ∨
      (∃ v, DottedQuad sub v ∧ gs.length ≤ 6 ∧ st = written (gs ++ quadGroups v) dc true) := by
  have hdigit : digitValue '.' = none := by decide
  have hbody : colonBody native (written gs dc false) sub = .ok st ↔
      sub ≠ [] ∧ parseOneSection native (written gs dc false) sub = .ok st := by
    unfold colonBody
    rw [if_neg (by simp [written])]
    split_ifs with h
    · exact ⟨fun he => absurd he (failInvalidArgument_ne_ok st), fun he => absurd h he.1⟩
    · cases parseOneSection native (written gs dc false) sub with
      | error ec => exact ⟨fun he => absurd he (failErrc_ne_ok ec st), fun he => by cases he.2⟩
      | ok st' =>
        exact ⟨fun he => ⟨h, congrArg Except.ok (Except.ok.inj he)⟩,
          fun he => congrArg Except.ok (Except.ok.inj he.2)⟩
  rw [hbody]
  by_cases hdot : '.' ∈ sub
  · rw [parseOneSection_dot hdot]
    constructor
    · rintro ⟨-, h⟩; exact Or.inr h
    · rintro (⟨g, hg, -⟩ | h)
      · exact absurd hdot (hg.not_mem hdigit)
      · exact ⟨List.ne_nil_of_mem hdot, h⟩
  · rw [parseOneSection_hex hdot]
    constructor
    · rintro ⟨-, h⟩; exact Or.inl h
    · rintro (⟨g, hg, h⟩ | ⟨v, hv, -⟩)
      · exact ⟨hg.ne_nil, g, hg, h⟩
      · exact absurd hv.dot_mem hdot

theorem colonBody_seen {native : Endian} {gs : List UInt16} {dc : ℕ} {sub : List Char}
    {st : SectionState} : colonBody native (written gs dc true) sub ≠ .ok st :=
  failInvalidArgument_ne_ok st

/-! ### The inner loops -/

/-- **An inner loop reads sections** and writes their groups. -/
theorem sections_ok_iff {native : Endian} {dc : ℕ} :
    ∀ {ts : List (List Char)} {gs : List UInt16} {st : SectionState}, gs.length ≤ 8 →
      (ts.foldlM (colonBody native) (written gs dc false) = .ok st ↔
        ∃ new q, Sections ts new q ∧ gs.length + new.length ≤ 8 ∧ st = written (gs ++ new) dc q)
  | [], gs, st, hgs => by
    rw [foldlM_nil_ok_iff]
    constructor
    · rintro rfl; exact ⟨[], false, .nil, by simpa using hgs, by rw [List.append_nil]⟩
    · rintro ⟨new, q, hs, -, rfl⟩
      cases hs
      rw [List.append_nil]
  | t :: ts, gs, st, hgs => by
    rw [foldlM_cons_ok_iff]
    constructor
    · rintro ⟨st1, h1, h2⟩
      rcases colonBody_eq_ok_iff.mp h1 with ⟨g, hg, hlt, rfl⟩ | ⟨v, hv, hle, rfl⟩
      · obtain ⟨new, q, hs, hlen, rfl⟩ := (sections_ok_iff (by simp; omega)).mp h2
        refine ⟨g :: new, q, .hex hg hs, ?_, by simp⟩
        simp only [List.length_append, List.length_cons, List.length_nil] at hlen ⊢; omega
      · rcases ts with _ | ⟨u, us⟩
        · rw [foldlM_nil_ok_iff] at h2
          exact ⟨quadGroups v, true, .quad hv, by rw [length_quadGroups]; omega, h2⟩
        · obtain ⟨st2, h3, -⟩ := foldlM_cons_ok_iff.mp h2
          exact absurd h3 colonBody_seen
    · rintro ⟨new, q, hs, hlen, rfl⟩
      cases hs with
      | @hex _ g _ gs' _ hg hs =>
        rw [List.length_cons] at hlen
        refine ⟨written (gs ++ [g]) dc false,
          colonBody_eq_ok_iff.mpr (Or.inl ⟨g, hg, by omega, rfl⟩), ?_⟩
        refine (sections_ok_iff (by simp; omega)).mpr ⟨gs', q, hs, ?_, by simp⟩
        simp only [List.length_append, List.length_singleton]; omega
      | @quad _ v hv =>
        have hle : gs.length ≤ 6 := by
          rw [length_quadGroups] at hlen; omega
        exact ⟨_, colonBody_eq_ok_iff.mpr (Or.inr ⟨v, hv, hle, rfl⟩), rfl⟩

theorem joined_ok_iff {native : Endian} {dc : ℕ} {sub : List Char} {gs : List UInt16}
    {st : SectionState} (hsub : sub ≠ []) (hgs : gs.length ≤ 8) :
    (split [':'] sub).foldlM (colonBody native) (written gs dc false) = .ok st ↔
      ∃ ts new q, Sections ts new q ∧ sub = joined ts ∧ gs.length + new.length ≤ 8 ∧
        st = written (gs ++ new) dc q := by
  rw [sections_ok_iff hgs]
  constructor
  · rintro ⟨new, q, hs, hlen, hst⟩
    exact ⟨_, new, q, hs, (intercalate_split (by simp) sub).symm, hlen, hst⟩
  · rintro ⟨ts, new, q, hs, rfl, hlen, hst⟩
    refine ⟨new, q, ?_, hlen, hst⟩
    have hsplit : split [':'] (joined ts) = ts :=
      split_intercalate hsub fun t ht => (hs.section_ok t ht).1
    rwa [hsplit]

/-! ### The outer loop -/

theorem doubleColonBody_first {native : Endian} {sub : List Char} {st : SectionState} :
    doubleColonBody native (written [] 0 false) sub = .ok st ↔
      ∃ ts gs q, Sections ts gs q ∧ sub = joined ts ∧ gs.length ≤ 8 ∧ st = written gs 1 q := by
  have hbody : doubleColonBody native (written [] 0 false) sub =
      if sub = [] then .ok (written [] 1 false)
      else (split [':'] sub).foldlM (colonBody native) (written [] 1 false) := rfl
  rw [hbody]
  split_ifs with h
  · subst h
    constructor
    · intro he
      exact ⟨[], [], false, .nil, rfl, Nat.zero_le 8, (Except.ok.inj he).symm⟩
    · rintro ⟨ts, gs, q, hs, hj, -, rfl⟩
      rw [eq_comm, joined_eq_nil fun t ht => (hs.section_ok t ht).2] at hj
      subst hj
      cases hs
      rfl
  · rw [joined_ok_iff h (by simp)]
    constructor
    · rintro ⟨ts, new, q, hs, hj, hlen, hst⟩
      exact ⟨ts, new, q, hs, hj, by simpa using hlen, hst⟩
    · rintro ⟨ts, gs, q, hs, hj, hlen, hst⟩
      exact ⟨ts, gs, q, hs, hj, by simpa using hlen, hst⟩

/-- The state after the part behind `::`. -/
def expanded (gs gs' : List UInt16) (seenIpv4 : Bool) : SectionState :=
  ⟨fill (gs ++ List.replicate (8 - gs.length - gs'.length) 0 ++ gs'), 8, 2, seenIpv4⟩

theorem expanded_nil (gs : List UInt16) :
    expanded gs [] false = { written gs 2 false with partCount := 8 } := by
  have hzero : (fill (gs ++ List.replicate (8 - gs.length - ([] : List UInt16).length) 0) :
      Vector UInt16 8) = fill gs := fill_append_replicate gs _
  unfold expanded written
  rw [List.append_nil, hzero]

/-- The groups that were written behind `::` are moved to the end. -/
theorem expanded_rotate {gs new : List UInt16} (q : Bool) (h : gs.length + new.length ≤ 7) :
    ({ written (gs ++ new) 2 q with
      partResults := rotate (fill (gs ++ new)) gs.length (gs ++ new).length
      partCount := 8 } : SectionState) = expanded gs new q := by
  unfold expanded written
  rw [List.length_append, rotate_fill gs new (by omega)]
  rfl

/-- **The part behind `::`.** It is empty, or there is room for a group of zeros. -/
theorem doubleColonBody_second {native : Endian} {gs : List UInt16} {q : Bool} {sub : List Char}
    {st : SectionState} (hgs : gs.length ≤ 8) :
    doubleColonBody native (written gs 1 q) sub = .ok st ↔
      q = false ∧ ∃ ts gs' q', Sections ts gs' q' ∧ sub = joined ts ∧
        (ts = [] ∨ gs.length + gs'.length ≤ 7) ∧ st = expanded gs gs' q' := by
  have hbody : doubleColonBody native (written gs 1 q) sub =
      if q then failInvalidArgument
      else if sub = [] then .ok { written gs 2 q with partCount := 8 }
      else (split [':'] sub).foldlM (colonBody native) (written gs 2 q) >>= fun st =>
        if st.partCount ≥ 8 then failInvalidArgument
        else .ok { st with
          partResults := rotate st.partResults gs.length st.partCount
          partCount := 8 } := rfl
  rw [hbody]
  cases q with
  | true => exact ⟨fun h => absurd h (failInvalidArgument_ne_ok st), fun h => by cases h.1⟩
  | false =>
    rw [if_neg Bool.false_ne_true]
    split_ifs with h
    · subst h
      constructor
      · intro he
        refine ⟨rfl, [], [], false, .nil, rfl, Or.inl rfl, ?_⟩
        rw [expanded_nil]; exact (Except.ok.inj he).symm
      · rintro ⟨-, ts, gs', q', hs, hj, -, rfl⟩
        rw [eq_comm, joined_eq_nil fun t ht => (hs.section_ok t ht).2] at hj
        subst hj
        cases hs
        rw [expanded_nil]
    · rw [bind_eq_ok_iff]
      constructor
      · rintro ⟨st1, h1, h2⟩
        obtain ⟨ts, new, q', hs, hj, hlen, rfl⟩ := (joined_ok_iff h hgs).mp h1
        split_ifs at h2 with h3
        · exact absurd h2 (failInvalidArgument_ne_ok st)
        · have hle : gs.length + new.length ≤ 7 := by
            simp only [written, List.length_append] at h3; omega
          refine ⟨rfl, ts, new, q', hs, hj, Or.inr hle, ?_⟩
          rw [← expanded_rotate q' hle]; exact (Except.ok.inj h2).symm
      · rintro ⟨-, ts, new, q', hs, hj, hle, rfl⟩
        have hne : ts ≠ [] := fun he => h (by rw [hj, he]; rfl)
        have hle : gs.length + new.length ≤ 7 := hle.resolve_left hne
        refine ⟨_, (joined_ok_iff h hgs).mpr ⟨ts, new, q', hs, hj, by omega, rfl⟩, ?_⟩
        rw [if_neg (by simp only [written, List.length_append]; omega), ← expanded_rotate q' hle]
        rfl

theorem doubleColonBody_third {native : Endian} {gs gs' : List UInt16} {q : Bool} {sub : List Char}
    {st : SectionState} : doubleColonBody native (expanded gs gs' q) sub ≠ .ok st :=
  failInvalidArgument_ne_ok st

theorem foldlM_doubleColonBody_pair {native : Endian} {p r : List Char} {rest : List (List Char)}
    {st : SectionState} :
    (p :: r :: rest).foldlM (doubleColonBody native) (written [] 0 false) = .ok st ↔
      ∃ ts gs ts' gs' q', (Sections ts gs false ∧ p = joined ts ∧ gs.length ≤ 8) ∧
        (Sections ts' gs' q' ∧ r = joined ts' ∧ (ts' = [] ∨ gs.length + gs'.length ≤ 7)) ∧
        rest.foldlM (doubleColonBody native) (expanded gs gs' q') = .ok st := by
  rw [foldlM_cons_ok_iff]
  constructor
  · rintro ⟨st1, h1, h⟩
    obtain ⟨ts, gs, q, hs, hp, hle, rfl⟩ := doubleColonBody_first.mp h1
    obtain ⟨st2, h2, h⟩ := foldlM_cons_ok_iff.mp h
    obtain ⟨rfl, ts', gs', q', hs', hr, hor, rfl⟩ := (doubleColonBody_second hle).mp h2
    exact ⟨ts, gs, ts', gs', q', ⟨hs, hp, hle⟩, ⟨hs', hr, hor⟩, h⟩
  · rintro ⟨ts, gs, ts', gs', q', ⟨hs, hp, hle⟩, ⟨hs', hr, hor⟩, h⟩
    refine ⟨written gs 1 false, doubleColonBody_first.mpr ⟨ts, gs, false, hs, hp, hle, rfl⟩, ?_⟩
    rw [foldlM_cons_ok_iff]
    exact ⟨_, (doubleColonBody_second hle).mpr ⟨rfl, ts', gs', q', hs', hr, hor, rfl⟩, h⟩

/-! ### What the parser accepts -/

/-- Eight hex groups and then `::`. -/
def FullThenDoubleColon (s : List Char) (gs : List UInt16) : Prop :=
  ∃ ts, List.Forall₂ HexGroup ts gs ∧ gs.length = 8 ∧ s = joined ts ++ [':', ':']

/-- The strings the parser accepts, and the groups. -/
def Accepted (s : List Char) (gs : List UInt16) : Prop := IsText s gs ∨ FullThenDoubleColon s gs

/-- Two lists of sections around `::`, where the second may be empty or there is room for zeros. -/
theorem accepted_of_sections {ts ts' : List (List Char)} {gs gs' : List UInt16} {q : Bool}
    (hs : Sections ts gs false) (hs' : Sections ts' gs' q) (hgs : gs.length ≤ 8)
    (h : ts' = [] ∨ gs.length + gs'.length ≤ 7) :
    Accepted (joined ts ++ [':', ':'] ++ joined ts')
      (gs ++ List.replicate (8 - gs.length - gs'.length) 0 ++ gs') := by
  rcases Nat.lt_or_ge (gs.length + gs'.length) 8 with hlt | hge
  · exact Or.inl (.compressed hs hs' (by omega))
  · have hts' : ts' = [] := h.resolve_right (by omega)
    subst hts'
    cases hs'
    rw [List.length_nil, Nat.add_zero] at hge
    right
    refine ⟨ts, ?_, ?_, ?_⟩
    · rw [show 8 - gs.length - ([] : List UInt16).length = 0 by omega]
      simpa using hs.forall
    · simp; omega
    · simp [joined]

theorem length_le_of_accepted {s : List Char} {gs : List UInt16} (h : Accepted s gs) :
    s.length ≤ 45 := by
  rcases h with h | ⟨ts, hts, hlen, rfl⟩
  · exact h.length_le
  · have := (sections_of_forall hts).length_le
    simp only [List.length_append, List.length_cons, List.length_nil]
    rw [if_neg Bool.false_ne_true] at this
    omega

theorem split_joined_pair {ts ts' : List (List Char)} {gs gs' : List UInt16} {q q' : Bool}
    (hs : Sections ts gs q) (hs' : Sections ts' gs' q') :
    split [':', ':'] (joined ts ++ [':', ':'] ++ joined ts') = [joined ts, joined ts'] := by
  refine split_pair (by simp) (not_double_intercalate hs.section_ok) fun hin => ?_
  exact not_double_intercalate hs'.section_ok (hin.trans (List.prefix_append _ _).isInfix)

theorem fromString_joined {native : Endian} {ts : List (List Char)} {gs : List UInt16} {q : Bool}
    (hs : Sections ts gs q) (hgs : gs.length = 8) :
    fromString native (joined ts) = .ok (ofGroups native (fill gs)) := by
  have hlen := (IsText.full hs hgs).length_le
  have hne : joined ts ≠ [] := by
    rw [ne_eq, joined_eq_nil fun t ht => (hs.section_ok t ht).2]
    rintro rfl
    cases hs
    cases hgs
  have hinfix : ¬ [':', ':'] <:+: joined ts := fun hin =>
    not_double_intercalate hs.section_ok (hin.trans (List.prefix_append _ _).isInfix)
  unfold fromString
  rw [if_neg (not_or.mpr ⟨hne, by omega⟩), bind_eq_ok_iff, split_eq_singleton hne hinfix,
    init_eq_written]
  refine ⟨written gs 1 q, ?_, if_neg (not_not.mpr hgs)⟩
  rw [foldlM_cons_ok_iff]
  exact ⟨_, doubleColonBody_first.mpr ⟨ts, gs, q, hs, rfl, by omega, rfl⟩, rfl⟩

theorem fromString_joined_pair {native : Endian} {ts ts' : List (List Char)} {gs gs' : List UInt16}
    {q : Bool} (hs : Sections ts gs false) (hs' : Sections ts' gs' q) (hgs : gs.length ≤ 8)
    (h : ts' = [] ∨ gs.length + gs'.length ≤ 7) :
    fromString native (joined ts ++ [':', ':'] ++ joined ts') = .ok (ofGroups native
      (fill (gs ++ List.replicate (8 - gs.length - gs'.length) 0 ++ gs'))) := by
  have hlen := length_le_of_accepted (accepted_of_sections hs hs' hgs h)
  unfold fromString
  rw [if_neg (not_or.mpr ⟨by simp, by omega⟩), bind_eq_ok_iff, split_joined_pair hs hs',
    init_eq_written]
  refine ⟨expanded gs gs' q, ?_, rfl⟩
  rw [foldlM_doubleColonBody_pair]
  exact ⟨ts, gs, ts', gs', q, ⟨hs, rfl, hgs⟩, ⟨hs', rfl, h⟩, rfl⟩

theorem eq_ofGroups_fill_iff {native : Endian} {a : AddressV6} {gs : List UInt16}
    (hlen : gs.length = 8) : a = ofGroups native (fill gs) ↔ (a.groups native).toList = gs := by
  rw [eq_ofGroups_iff]
  exact ⟨fun h => by rw [h, toList_fill hlen], fun h => by rw [← h, fill_toList]⟩

theorem accepted_of_fromString {native : Endian} {s : List Char} {a : AddressV6}
    (h : fromString native s = .ok a) : Accepted s (a.groups native).toList := by
  unfold fromString at h
  split_ifs at h with h0
  · exact absurd h (failInvalidArgument_ne_ok a)
  · rw [not_or] at h0
    obtain ⟨st, hst, h2⟩ := bind_eq_ok_iff.mp h
    have hjoin : [':', ':'].intercalate (split [':', ':'] s) = s := intercalate_split (by simp) s
    rw [init_eq_written] at hst
    -- one case for each number of parts between double colons
    rcases hparts : split [':', ':'] s with _ | ⟨p, _ | ⟨r, _ | ⟨x, rest⟩⟩⟩
    · rw [hparts] at hjoin
      exact absurd hjoin.symm h0.1
    · rw [hparts, foldlM_cons_ok_iff] at hst
      obtain ⟨st1, h1, hst⟩ := hst
      obtain ⟨ts, gs, q, hs, rfl, hle, rfl⟩ := doubleColonBody_first.mp h1
      rw [foldlM_nil_ok_iff] at hst
      subst hst
      split_ifs at h2 with h3
      · exact absurd h2 (failInvalidArgument_ne_ok a)
      · rw [not_not] at h3
        have ha := (eq_ofGroups_fill_iff h3).mp (Except.ok.inj h2).symm
        rw [hparts, List.intercalate_singleton] at hjoin
        rw [ha, ← hjoin]
        exact Or.inl (.full hs h3)
    · rw [hparts, foldlM_doubleColonBody_pair] at hst
      obtain ⟨ts, gs, ts', gs', q', ⟨hs, rfl, hle⟩, ⟨hs', rfl, hor⟩, hst⟩ := hst
      rw [foldlM_nil_ok_iff] at hst
      subst hst
      have hacc := accepted_of_sections hs hs' hle hor
      have hlen8 : (gs ++ List.replicate (8 - gs.length - gs'.length) 0 ++ gs').length = 8 := by
        rcases hacc with h | ⟨-, -, h, -⟩
        · exact h.length_groups
        · exact h
      rw [if_neg (by simp [expanded])] at h2
      have ha := (eq_ofGroups_fill_iff hlen8).mp (Except.ok.inj h2).symm
      rw [hparts] at hjoin
      rw [ha, ← hjoin]
      simpa using hacc
    · rw [hparts, foldlM_doubleColonBody_pair] at hst
      obtain ⟨ts, gs, ts', gs', q', -, -, hst⟩ := hst
      obtain ⟨st3, h4, -⟩ := foldlM_cons_ok_iff.mp hst
      exact absurd h4 doubleColonBody_third

theorem fromString_of_accepted {native : Endian} {s : List Char} {a : AddressV6}
    (h : Accepted s (a.groups native).toList) : fromString native s = .ok a := by
  rcases h with h | ⟨ts, hts, hlen, hs⟩
  · have hlen := h.length_groups
    have ha := (eq_ofGroups_fill_iff hlen).mpr rfl
    generalize (a.groups native).toList = gs at h ha
    subst ha
    cases h with
    | full hs hgs => exact fromString_joined hs hgs
    | compressed hs hs' hle => exact fromString_joined_pair hs hs' (by omega) (Or.inr hle)
  · have ha := (eq_ofGroups_fill_iff hlen).mpr rfl
    generalize (a.groups native).toList = gs at hts hlen ha
    subst ha
    have hnil : 8 - gs.length - ([] : List UInt16).length = 0 := by omega
    have h : fromString native (joined ts ++ [':', ':'] ++ joined []) = _ :=
      fromString_joined_pair (sections_of_forall hts) .nil hlen.le (Or.inl rfl)
    rw [hnil] at h
    rw [hs]
    simpa [joined] using h

/-- **The checked parser accepts the texts of RFC 4291**, and eight hex groups followed by `::`. -/
theorem fromString_eq_ok_iff {native : Endian} {s : List Char} {a : AddressV6} :
    fromString native s = .ok a ↔ Accepted s (a.groups native).toList :=
  ⟨accepted_of_fromString, fromString_of_accepted⟩

/-! ### The parser and the RFC -/

theorem isText_unique {s : List Char} {gs gs' : List UInt16} (h : IsText s gs) (h' : IsText s gs') :
    gs = gs' := by
  have hok : ∀ {gs : List UInt16}, IsText s gs →
      fromString .big s = .ok (ofGroups .big (fill gs)) := by
    intro gs h
    rw [fromString_eq_ok_iff, groups_ofGroups, toList_fill h.length_groups]
    exact Or.inl h
  have he := Except.ok.inj ((hok h).symm.trans (hok h'))
  rw [eq_ofGroups_iff, groups_ofGroups] at he
  exact fill_inj h.length_groups h'.length_groups he

/-- Eight hex groups followed by `::` are no text of the RFC. -/
theorem not_isText_of_fullThenDoubleColon {s : List Char} {gs gs' : List UInt16}
    (h : FullThenDoubleColon s gs) : ¬ IsText s gs' := by
  obtain ⟨ts, hts, hlen, rfl⟩ := h
  have hs := sections_of_forall hts
  have hsplit : split [':', ':'] (joined ts ++ [':', ':']) = [joined ts, []] := by
    simpa [joined] using split_joined_pair hs .nil
  intro h
  generalize hs0 : joined ts ++ [':', ':'] = s at h
  rw [hs0] at hsplit
  cases h with
  | @full ts2 _ q hs2 hlen2 =>
    have hne : joined ts2 ≠ [] := by rw [← hs0]; simp
    rw [split_eq_singleton hne fun hin =>
      not_double_intercalate hs2.section_ok (hin.trans (List.prefix_append _ _).isInfix)] at hsplit
    have := congrArg List.length hsplit
    simp at this
  | @compressed ts2 gs2 ts2' gs2' q hs2 hs2' hle =>
    rw [split_joined_pair hs2 hs2'] at hsplit
    have hj : joined ts2 = joined ts := (List.cons.inj hsplit).1
    have hne : joined ts ≠ [] := by
      rw [ne_eq, joined_eq_nil fun t ht => (hs.section_ok t ht).2]
      rintro rfl
      cases hts
      cases hlen
    have hne2 : joined ts2 ≠ [] := by rw [hj]; exact hne
    have hts2 : ts2 = ts := by
      rw [← split_intercalate (c := ':') hne fun t ht => (hs.section_ok t ht).1,
        ← split_intercalate (c := ':') hne2 fun t ht => (hs2.section_ok t ht).1]
      exact congrArg (split [':']) hj
    have h1 := hs2.forall.length_eq
    have h2 := hts.length_eq
    rw [hts2] at h1
    omega

/-- The parser does with `s` what the RFC says. -/
def ParsesAsRfc4291 (native : Endian) (s : List Char) : Prop :=
  ∀ a : AddressV6, fromString native s = .ok a ↔ IsText s (a.groups native).toList

/-- **Where the parser follows the RFC**: on every string but eight hex groups followed by `::`,
which it takes for the eight groups. -/
theorem parsesAsRfc4291_iff (native : Endian) (s : List Char) :
    ParsesAsRfc4291 native s ↔
      ¬ ∃ ts gs, List.Forall₂ HexGroup ts gs ∧ gs.length = 8 ∧ s = joined ts ++ [':', ':'] := by
  constructor
  · rintro h ⟨ts, gs, hts, hlen, hs⟩
    have hg : ((ofGroups native (fill gs)).groups native).toList = gs := by
      rw [groups_ofGroups, toList_fill hlen]
    have hok : fromString native s = .ok (ofGroups native (fill gs)) := by
      rw [fromString_eq_ok_iff, hg]
      exact Or.inr ⟨ts, hts, hlen, hs⟩
    exact not_isText_of_fullThenDoubleColon ⟨ts, hts, hlen, hs⟩ ((h _).mp hok)
  · intro h a
    rw [fromString_eq_ok_iff]
    constructor
    · rintro (ht | ⟨ts, hts, hlen, hs⟩)
      · exact ht
      · exact absurd ⟨ts, _, hts, hlen, hs⟩ h
    · exact Or.inl

/-- The parser accepts `1:2:3:4:5:6:7:8::`, which is no text of the RFC. -/
theorem not_parsesAsRfc4291_full : ¬ ParsesAsRfc4291 .little "1:2:3:4:5:6:7:8::".toList := by
  intro h
  have hok : fromString .little "1:2:3:4:5:6:7:8::".toList =
      .ok (ofGroups .little #v[1, 2, 3, 4, 5, 6, 7, 8]) := by decide +kernel
  have hgroups : List.Forall₂ HexGroup [['1'], ['2'], ['3'], ['4'], ['5'], ['6'], ['7'], ['8']]
      [1, 2, 3, 4, 5, 6, 7, 8] := by decide
  exact not_isText_of_fullThenDoubleColon ⟨_, hgroups, rfl, rfl⟩ ((h _).mp hok)

end Iouxx.Ip.AddressV6
