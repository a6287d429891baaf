import Iouxx.Ip.SocketSpec
import Iouxx.Ring.Version

/-!
# Versions as text (`iouringxx.hpp`, `formatter<ring::version_info>`)

The formatter of versions takes one character as its format spec, which is written between the numbers;
without one it writes a dot, as `from_string` expects it.

* `formatWith_eq_ok_iff`: the format specs that are accepted, and what they give;
* `fromString_formatWith_iff`: **which formatted versions are read back**, under every format spec.
-/

namespace Iouxx.Ring

open Iouxx.Cpp.CharConv Iouxx.Ip

/-- The text of an `int`. -/
def toCharsInt32 (n : Int32) : List Char :=
  if n < 0 then '-' :: toChars 10 false n.toInt.natAbs else toChars 10 false n.toInt.natAbs

/-- `formatter<ring::version_info>`. -/
structure FormatterVersion where
  seperator : Char := '.'
  deriving DecidableEq, Repr

namespace FormatterVersion

/-- `parse`. -/
def parse (f : FormatterVersion) (spec : List Char) :
    Except SpecError (FormatterVersion × List Char) := do
  let (f, it) := match spec with
    | [] => (f, [])
    | c :: it => if c = '}' then (f, c :: it) else ({ f with seperator := c }, it)
  let it ← expectEnd ("Invalid format for iouxx::ring::version_info, " ++
    "expect up to one character as seperator") it
  return (f, it)

/-- `format`. -/
def format (f : FormatterVersion) (ver : VersionInfo) : List Char :=
  toCharsInt32 ver.major ++ [f.seperator] ++ toCharsInt32 ver.minor

end FormatterVersion

/-- `std::format` of a version with the format spec that `spec` begins with. -/
def VersionInfo.formatWith (spec : List Char) (ver : VersionInfo) :
    Except SpecError (List Char) := do
  let (f, _) ← FormatterVersion.parse {} spec
  return f.format ver

/-! ### Numbers -/

theorem digits_toCharsInt32 {n : Int32} (h : 0 ≤ n.toInt) : Digits (toCharsInt32 n) n := by
  have hneg : ¬ n < 0 := by
    rw [Int32.lt_iff_toInt_lt]
    change ¬ n.toInt < 0
    omega
  rw [toCharsInt32, if_neg hneg]
  refine ⟨toChars_ne_nil false _, isDigit_toChars (by omega) (by omega) false _, ?_⟩
  rw [value_toChars (by omega) (by omega)]
  omega

theorem dot_notMem_toCharsInt32 (n : Int32) : '.' ∉ toCharsInt32 n := by
  have hdigits : '.' ∉ toChars 10 false n.toInt.natAbs :=
    fun h => isDigit_ne (isDigit_toChars (by omega) (by omega) false _ '.' h) (by decide) rfl
  unfold toCharsInt32
  split_ifs
  · rw [List.mem_cons, not_or]
    exact ⟨by decide, hdigits⟩
  · exact hdigits

theorem dot_mem_format_iff {c : Char} {v : VersionInfo} :
    '.' ∈ FormatterVersion.format ⟨c⟩ v ↔ c = '.' := by
  rw [FormatterVersion.format, List.mem_append, List.mem_append, List.mem_singleton]
  constructor
  · rintro ((hdot | hdot) | hdot)
    · exact absurd hdot (dot_notMem_toCharsInt32 _)
    · exact hdot.symm
    · exact absurd hdot (dot_notMem_toCharsInt32 _)
  · rintro rfl
    exact Or.inl (Or.inr rfl)

/-! ### Format specs -/

/-- **What is formatted**: a spec has one character at most, which is the separator. -/
theorem formatWith_eq_ok_iff {spec t : List Char} {v : VersionInfo} :
    VersionInfo.formatWith spec v = .ok t ↔ (specOf spec).length ≤ 1 ∧
      FormatterVersion.format ⟨(specOf spec).head?.getD '.'⟩ v = t := by
  have hends : ∀ {it : List Char}, Ends it → specOf it = [] := by
    intro it h
    rcases it with _ | ⟨c, it⟩
    · rfl
    · rcases h with h | h
      · cases h
      · rw [Option.some.inj h]
        rfl
  rcases spec with _ | ⟨c, it⟩
  · change Except.ok _ = Except.ok t ↔ _
    rw [Except.ok.injEq]
    exact (and_iff_right (Nat.zero_le 1)).symm
  · by_cases hc : c = '}'
    · subst hc
      change Except.ok _ = Except.ok t ↔ _
      rw [Except.ok.injEq]
      exact (and_iff_right (Nat.zero_le 1)).symm
    · have hparse : FormatterVersion.parse {} (c :: it) =
          (expectEnd ("Invalid format for iouxx::ring::version_info, " ++
            "expect up to one character as seperator") it).map fun it => (⟨c⟩, it) := by
        unfold FormatterVersion.parse
        simp only [if_neg hc]
        rcases expectEnd _ it with e | it
        · rfl
        · rfl
      have hspec : specOf (c :: it) = c :: specOf it :=
        List.takeWhile_cons_of_pos (by simpa using hc)
      rw [hspec, VersionInfo.formatWith, hparse]
      rcases it with _ | ⟨c', it⟩
      · change Except.ok _ = Except.ok t ↔ _
        rw [Except.ok.injEq]
        exact (and_iff_right le_rfl).symm
      · by_cases hc' : c' = '}'
        · subst hc'
          rw [expectEnd_of_ends (Or.inr rfl), hends (Or.inr rfl)]
          change Except.ok _ = Except.ok t ↔ _
          rw [Except.ok.injEq]
          exact (and_iff_right le_rfl).symm
        · have hlong : specOf (c' :: it) = c' :: specOf it :=
            List.takeWhile_cons_of_pos (by simpa using hc')
          rw [expectEnd, if_neg hc', hlong]
          refine iff_of_false (fun h => by cases h) fun h => ?_
          exact absurd h.1 (by simp)

/-! ### Reading a text back -/

theorem Accepted.nonneg {t : List Char} {n : Int32} (h : Accepted t n) : 0 ≤ n.toInt :=
  (fromCharsInt32_iff.mpr h).2

/-- **Which texts are read back**: with a dot those of versions without a negative number, and with
any separator that of the invalid version. -/
theorem fromString_format_iff (c : Char) (v : VersionInfo) :
    VersionInfo.fromString (FormatterVersion.format ⟨c⟩ v) = v ↔
      v = .invalid ∨ c = '.' ∧ 0 ≤ v.major.toInt ∧ 0 ≤ v.minor.toInt := by
  have hdotted : c = '.' → 0 ≤ v.major.toInt → 0 ≤ v.minor.toInt →
      VersionInfo.fromString (FormatterVersion.format ⟨c⟩ v) = v := by
    rintro rfl hmajor hminor
    exact fromString_of_accepted (Or.inl (digits_toCharsInt32 hmajor))
      (Or.inl (digits_toCharsInt32 hminor))
  -- a text that is read has a dot
  have hcases : VersionInfo.fromString (FormatterVersion.format ⟨c⟩ v) = .invalid ∨
      c = '.' ∧ ∃ M m : Int32, 0 ≤ M.toInt ∧ 0 ≤ m.toInt ∧
        VersionInfo.fromString (FormatterVersion.format ⟨c⟩ v) = ⟨M, m⟩ := by
    rcases fromString_cases (FormatterVersion.format ⟨c⟩ v) with h | ⟨p, q, M, m, heq, hp, hq⟩
    · exact Or.inl h
    · refine Or.inr ⟨dot_mem_format_iff.mp (by rw [heq]; simp), M, m, hp.nonneg, hq.nonneg, ?_⟩
      rw [heq, fromString_of_accepted hp hq]
  constructor
  · intro hread
    rcases hcases with hinvalid | ⟨hc, M, m, hM, hm, hversion⟩
    · exact Or.inl (hread.symm.trans hinvalid)
    · rw [← hread, hversion]
      exact Or.inr ⟨hc, hM, hm⟩
  · rintro (rfl | ⟨hc, hmajor, hminor⟩)
    · by_cases hc : c = '.'
      · exact hdotted hc (by decide) (by decide)
      · exact hcases.resolve_right fun h => hc h.1
    · exact hdotted hc hmajor hminor

/-- **Which formatted versions are read back**, under every format spec that is accepted: the invalid
one, and where the spec is empty or a dot those without a negative number. -/
theorem fromString_formatWith_iff {spec t : List Char} {v : VersionInfo}
    (h : VersionInfo.formatWith spec v = .ok t) :
    VersionInfo.fromString t = v ↔ v = .invalid ∨
      (specOf spec = [] ∨ specOf spec = ['.']) ∧ 0 ≤ v.major.toInt ∧ 0 ≤ v.minor.toInt := by
  obtain ⟨hlen, rfl⟩ := formatWith_eq_ok_iff.mp h
  rw [fromString_format_iff]
  refine or_congr_right (and_congr_left fun _ => ?_)
  rcases hspec : specOf spec with _ | ⟨c, l⟩
  · exact iff_of_true rfl (Or.inl rfl)
  · rw [hspec, List.length_cons] at hlen
    obtain rfl : l = [] := List.length_eq_zero_iff.mp (by omega)
    simp

theorem fromString_formatWith_iff_dash : VersionInfo.fromString "2-11".toList = ⟨2, 11⟩ ↔
    (⟨2, 11⟩ : VersionInfo) = .invalid ∨
      (specOf ['-', '}'] = [] ∨ specOf ['-', '}'] = ['.']) ∧ 0 ≤ (2 : Int32).toInt ∧
        0 ≤ (11 : Int32).toInt :=
  fromString_formatWith_iff (show VersionInfo.formatWith ['-', '}'] ⟨2, 11⟩ = .ok "2-11".toList from
    by decide +kernel)

end Iouxx.Ring
