import Iouxx.Ip.Socket

/-!
# The unchecked parsers

An unchecked parser takes the same steps as the checked one, but sets no counter for a trailing
`::`. So its state is the one of the checked parser up to that counter (`Follows`).

* `AddressV6.fromStringUncheck_of_fromString`: the unchecked parser of IPv6 addresses agrees on what
  the checked one accepts;
* `uncheck_of_fromString`: **all five unchecked parsers do**.
-/

namespace Iouxx.Ip

open Iouxx.Cpp.Error Iouxx.Cpp.CharConv Iouxx.Cpp.Memory Iouxx.Cpp.Split
open Iouxx.Lib.Loop Iouxx.Utility

namespace AddressV6

variable {native : Endian}

/-! ### The inner loops -/

theorem parseOneSectionUncheck_of_parseOneSection {st st' : SectionState} {sub : List Char}
    (h : parseOneSection native st sub = .ok st') :
    parseOneSectionUncheck native st sub = some st' ∧
      st'.doubleColonCount = st.doubleColonCount := by
  unfold parseOneSection at h
  unfold parseOneSectionUncheck
  split_ifs at h with hdot h6 h8 hlen
  · rcases hv : AddressV4.fromString native sub with e | v4
    · rw [hv] at h; cases h
    · rw [hv] at h
      rw [← Except.ok.inj h, dif_pos (by omega), if_pos hdot,
        AddressV4.fromStringUncheck_of_fromString hv]
      refine ⟨?_, rfl⟩
      change (if h' : st.partCount + 1 < 8 then _ else _) = _
      rw [dif_pos (by omega)]
  · rcases hf : fromChars 16 65535 sub with ec | ⟨v, ptr⟩
    · rw [hf] at h; cases h
    · rw [hf] at h
      simp only at h
      split_ifs at h with hptr
      rw [not_not] at hptr
      subst hptr
      rw [← Except.ok.inj h, dif_pos (by omega), if_neg hdot]
      exact ⟨rfl, rfl⟩

theorem parseOneSectionUncheck_of_colonBody {st st' : SectionState} {sub : List Char}
    (h : colonBody native st sub = .ok st') :
    parseOneSectionUncheck native st sub = some st' ∧
      st'.doubleColonCount = st.doubleColonCount := by
  unfold colonBody at h
  split_ifs at h with h1 h2
  · exact absurd h (failInvalidArgument_ne_ok st')
  · exact absurd h (failInvalidArgument_ne_ok st')
  · rcases hp : parseOneSection native st sub with ec | st1
    · rw [hp] at h; exact absurd h (failErrc_ne_ok ec st')
    · rw [hp] at h
      rw [← Except.ok.inj h]
      exact parseOneSectionUncheck_of_parseOneSection hp

theorem uncheck_of_sections {st st' : SectionState} {ts : List (List Char)}
    (h : ts.foldlM (colonBody native) st = .ok st') :
    ts.foldlM (parseOneSectionUncheck native) st = some st' ∧
      st'.doubleColonCount = st.doubleColonCount := by
  obtain ⟨t', ht', rfl, hdc⟩ := foldlM_simulate (g := parseOneSectionUncheck native)
    (R := fun s t => s = t ∧ s.doubleColonCount = st.doubleColonCount)
    (fun s t x s' hR hs => by
      obtain ⟨rfl, hdc⟩ := hR
      obtain ⟨h1, h2⟩ := parseOneSectionUncheck_of_colonBody hs
      exact ⟨s', h1, rfl, h2.trans hdc⟩) ts ⟨rfl, rfl⟩ h
  exact ⟨ht', hdc⟩

/-! ### The outer loop -/

/-- The state of the unchecked parser is the state of the checked one; after `::` only the counter
of groups may be another. -/
def Follows (st st' : SectionState) : Prop :=
  (st.doubleColonCount < 2 ∧ st' = st) ∨
    (st.doubleColonCount = 2 ∧ ∃ n, st' = { st with partCount := n })

theorem follows_doubleColonBody {st st' st1 : SectionState} {sub : List Char}
    (hR : Follows st st') (h : doubleColonBody native st sub = .ok st1) :
    ∃ st1', doubleColonBodyUncheck native st' sub = some st1' ∧ Follows st1 st1' := by
  unfold doubleColonBody doubleColonBody' at h
  rcases hR with ⟨hlt, rfl⟩ | ⟨h2, n, rfl⟩
  · unfold doubleColonBodyUncheck doubleColonBodyUncheck'
    simp only at h ⊢
    by_cases h0 : st'.doubleColonCount = 0
    · -- the part before `::`
      rw [if_pos (by omega)] at h ⊢
      split_ifs at h ⊢ with hsub
      · rw [← Except.ok.inj h]
        exact ⟨_, rfl, Or.inl ⟨by simp only; omega, rfl⟩⟩
      · obtain ⟨hu, hdc⟩ := uncheck_of_sections h
        exact ⟨_, hu, Or.inl ⟨by rw [hdc]; simp only; omega, rfl⟩⟩
    · -- the part behind `::`
      rw [if_neg (by omega), if_pos (by omega)] at h ⊢
      split_ifs at h with hseen hsub
      · exact absurd h (failInvalidArgument_ne_ok st1)
      · rw [← Except.ok.inj h, if_pos hsub]
        exact ⟨_, rfl, Or.inr ⟨by simp only; omega, st'.partCount, rfl⟩⟩
      · obtain ⟨st2, hst2, h⟩ := bind_eq_ok_iff.mp h
        obtain ⟨hu, hdc⟩ := uncheck_of_sections hst2
        split_ifs at h with h8
        · exact absurd h (failInvalidArgument_ne_ok st1)
        · rw [← Except.ok.inj h, if_neg hsub, hu]
          refine ⟨_, rfl, Or.inr ⟨?_, st2.partCount, rfl⟩⟩
          simp only at hdc ⊢
          omega
  · simp only at h
    rw [if_neg (by omega), if_neg (by omega)] at h
    exact absurd h (failInvalidArgument_ne_ok st1)

/-- **The unchecked parser agrees** on what the checked one accepts. -/
theorem fromStringUncheck_of_fromString {s : List Char} {a : AddressV6}
    (h : fromString native s = .ok a) : fromStringUncheck native s = some a := by
  unfold fromString at h
  split_ifs at h with h0
  · exact absurd h (failInvalidArgument_ne_ok a)
  · obtain ⟨st, hst, h⟩ := bind_eq_ok_iff.mp h
    obtain ⟨st', hst', hR⟩ := foldlM_simulate (g := doubleColonBodyUncheck native) (R := Follows)
      (fun _ _ _ _ hR hs => follows_doubleColonBody hR hs) _ (Or.inl ⟨by decide, rfl⟩) hst
    split_ifs at h with h8
    · exact absurd h (failInvalidArgument_ne_ok a)
    · have hres : st'.partResults = st.partResults := by
        rcases hR with ⟨-, rfl⟩ | ⟨-, n, rfl⟩ <;> rfl
      unfold fromStringUncheck
      rw [hst', ← Except.ok.inj h, ← hres]
      rfl

end AddressV6

/-! ### Socket addresses -/

theorem SocketV4Info.fromStringUncheck_of_fromString {native : Endian} {s : List Char}
    {i : SocketV4Info} (h : fromString native s = .ok i) : fromStringUncheck native s = some i := by
  have hslash : '/' ∈ s ↔ ':' ∉ s := by
    have hno : ∀ {c}, digitValue c = none → c ≠ '.' → c ∉ i.addr.toString native ∧
        c ∉ i.p.toString native := fun hc hdot =>
      ⟨AddressV4.not_mem_toString hc hdot, Port.not_mem_toString hc⟩
    obtain ⟨h1, h2⟩ := hno (by decide : digitValue ':' = none) (by decide)
    obtain ⟨h3, h4⟩ := hno (by decide : digitValue '/' = none) (by decide)
    rcases fromString_eq_ok_iff.mp h with rfl | rfl
    · simp [h3, h4]
    · simp [h1, h2]
  unfold fromString at h
  unfold fromStringUncheck
  simp only
  split_ifs at h with hc hs
  · rw [if_neg (by rw [hslash]; exact not_not.mpr hc)]
    rw [parsePartsUncheck_of_parseParts
      (fun _ _ => AddressV4.fromStringUncheck_of_fromString) (map_ofParts_eq_ok_iff.mp h)]
    rfl
  · rw [if_pos hs]
    rw [parsePartsUncheck_of_parseParts
      (fun _ _ => AddressV4.fromStringUncheck_of_fromString) (map_ofParts_eq_ok_iff.mp h)]
    rfl
  · exact absurd h (failInvalidArgument_ne_ok i)

theorem SocketV6Info.fromStringUncheck_of_fromString {native : Endian} {s : List Char}
    {i : SocketV6Info} (h : fromString native s = .ok i) : fromStringUncheck native s = some i := by
  have hparts : ∀ {sep str : List Char},
      (parseParts (AddressV6.fromString native) native sep str).map ofParts = .ok i →
      (parsePartsUncheck (AddressV6.fromStringUncheck native) native sep str).map ofParts =
        some i := by
    intro sep str h
    rw [parsePartsUncheck_of_parseParts
      (fun _ _ => AddressV6.fromStringUncheck_of_fromString) (map_ofParts_eq_ok_iff.mp h)]
    rfl
  unfold fromString at h
  unfold fromStringUncheck
  split_ifs at h ⊢ with h1 h2 h3
  · exact absurd h (failInvalidArgument_ne_ok i)
  · exact hparts h
  · exact hparts h
  · exact hparts h
  · exact absurd h (failInvalidArgument_ne_ok i)

/-- **The unchecked parsers agree** with the checked ones on what these accept, and have no
undefined behaviour there. -/
theorem uncheck_of_fromString (native : Endian) (s : List Char) :
    (∀ a, AddressV4.fromString native s = .ok a →
      AddressV4.fromStringUncheck native s = some a) ∧
    (∀ a, AddressV6.fromString native s = .ok a →
      AddressV6.fromStringUncheck native s = some a) ∧
    (∀ p, Port.fromString native s = .ok p → Port.fromStringUncheck native s = some p) ∧
    (∀ i, SocketV4Info.fromString native s = .ok i →
      SocketV4Info.fromStringUncheck native s = some i) ∧
    (∀ i, SocketV6Info.fromString native s = .ok i →
      SocketV6Info.fromStringUncheck native s = some i) :=
  ⟨fun _ => AddressV4.fromStringUncheck_of_fromString,
    fun _ => AddressV6.fromStringUncheck_of_fromString,
    fun _ => Port.fromStringUncheck_of_fromString,
    fun _ => SocketV4Info.fromStringUncheck_of_fromString,
    fun _ => SocketV6Info.fromStringUncheck_of_fromString⟩

/-- The unchecked parsers on `10.0.0.1`, `1::`, `80`, `10.0.0.1/80` and `[1::]:80`. -/
theorem uncheck_of_fromString_examples :
    AddressV4.fromStringUncheck .little "10.0.0.1".toList =
      some (.ofOctets .little #v[10, 0, 0, 1]) ∧
    AddressV6.fromStringUncheck .little "1::".toList =
      some (.ofGroups .little #v[1, 0, 0, 0, 0, 0, 0, 0]) ∧
    Port.fromStringUncheck .little "80".toList = some (.ofNumber .little 80) ∧
    SocketV4Info.fromStringUncheck .little "10.0.0.1/80".toList =
      some ⟨.ofOctets .little #v[10, 0, 0, 1], .ofNumber .little 80⟩ ∧
    SocketV6Info.fromStringUncheck .little "[1::]:80".toList =
      some ⟨.ofGroups .little #v[1, 0, 0, 0, 0, 0, 0, 0], .ofNumber .little 80⟩ :=
  ⟨(uncheck_of_fromString .little _).1 _ (by decide +kernel),
    (uncheck_of_fromString .little _).2.1 _ (by decide +kernel),
    (uncheck_of_fromString .little _).2.2.1 _ (by decide +kernel),
    (uncheck_of_fromString .little _).2.2.2.1 _ (by decide +kernel),
    (uncheck_of_fromString .little _).2.2.2.2 _ (by decide +kernel)⟩

end Iouxx.Ip
