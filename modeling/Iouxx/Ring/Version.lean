import Iouxx.Cpp.CharConv
import Iouxx.Cpp.Split
import Mathlib.Data.List.Basic

/-!
# Versions of liburing (`iouringxx.hpp`, `ring::version_info`)

A requirement such as `2.11` is parsed into a version; what cannot be parsed becomes the largest
version, so that no library fulfils it. The version functions of liburing are a parameter.

* `number?_eq_some_iff`: the parts that are accepted;
* `fromString_of_accepted`, `fromString_cases`: **what is parsed**;
* `exact_iff`: **requirements are parsed exactly and ordered correctly if and only if there is no zero
  with a minus sign**.
-/

namespace Iouxx.Ring

open Iouxx.Cpp.CharConv Iouxx.Cpp.Split

/-! ### Versions -/

/-- `version_info`. -/
structure VersionInfo where
  major : Int32 := Int32.maxValue
  minor : Int32 := Int32.maxValue
  deriving DecidableEq, Repr

namespace VersionInfo

/-- `version_info::invalid`. -/
def invalid : VersionInfo := {}

/-- A part of a version string: to be read to its end, and not negative. -/
def number? (num : List Char) : Option Int32 :=
  match fromCharsInt32 num with
  | .error _ => none
  | .ok (n, ptr) => if ptr ≠ [] then none else if n < 0 then none else some n

/-- The loop of `from_string` over the parts; a number is -1 as long as it was not read. -/
def fromParts : List (List Char) → Int32 → Int32 → VersionInfo
  | [], major, minor => if major = -1 ∨ minor = -1 then invalid else ⟨major, minor⟩
  | num :: parts, major, minor =>
    if major = -1 then
      match number? num with
      | none => invalid
      | some major => fromParts parts major minor
    else if minor = -1 then
      match number? num with
      | none => invalid
      | some minor => fromParts parts major minor
    else invalid

/-- `version_info::from_string`. -/
def fromString (version : List Char) : VersionInfo := fromParts (split ['.'] version) (-1) (-1)

/-- `operator<=>`. -/
def cmp (lhs rhs : VersionInfo) : Ordering :=
  (compare lhs.major rhs.major).then (compare lhs.minor rhs.minor)

/-- `operator<=>` with a string. -/
def cmpString (ver : VersionInfo) (str : List Char) : Ordering := ver.cmp (fromString str)

end VersionInfo

/-- `version_compat_with`, where `check` is `io_uring_check_version`. -/
def versionCompatWith (check : Int32 → Int32 → Bool) (requirement : VersionInfo) : Bool :=
  !check requirement.major requirement.minor

/-- `version_compat_with` of a string. -/
def versionCompatWithString (check : Int32 → Int32 → Bool) (requirement : List Char) : Bool :=
  versionCompatWith check (.fromString requirement)

/-! ### Requirements -/

/-- The lexicographic order. -/
def VersionInfo.LexLE (a b : VersionInfo) : Prop :=
  a.major < b.major ∨ a.major = b.major ∧ a.minor ≤ b.minor

/-- What `io_uring_check_version` is documented to do, in a library of the version `v`: it returns
false if the version of the library is at least the one that is asked for. -/
def ChecksVersion (v : VersionInfo) (check : Int32 → Int32 → Bool) : Prop :=
  ∀ major minor, check major minor = false ↔ VersionInfo.LexLE ⟨major, minor⟩ v

/-- The string denotes the version: digits, a dot, digits. -/
def Denotes (s : List Char) (r : VersionInfo) : Prop :=
  ∃ p q, s = p ++ ['.'] ++ q ∧ Digits p r.major ∧ Digits q r.minor

/-- **A requirement is parsed exactly and ordered correctly**, where `check v` is
`io_uring_check_version` of the version `v`. -/
structure Exact (check : VersionInfo → Int32 → Int32 → Bool) (s : List Char) : Prop where
  denoted : ∀ r, Denotes s r → VersionInfo.fromString s = r
  returned : ∀ r, r ≠ .invalid → VersionInfo.fromString s = r → Denotes s r
  malformed : (∀ r, ¬ Denotes s r) → VersionInfo.fromString s = .invalid
  compat : ∀ v : VersionInfo, v.cmp .invalid = .lt →
    (versionCompatWithString (check v) s = true ↔ ∃ r, Denotes s r ∧ r.LexLE v)
  less : ∀ v : VersionInfo, v.cmp .invalid = .lt → (∀ r, ¬ Denotes s r) → v.cmpString s = .lt

/-- A part that is accepted. -/
def Accepted (t : List Char) (n : Int32) : Prop := Digits t n ∨ (MinusZero t ∧ n = 0)

/-- Both parts are accepted, and one of them is a zero with a minus sign. -/
def HasMinusZero (s : List Char) : Prop :=
  ∃ p q, s = p ++ ['.'] ++ q ∧ (∃ n, Accepted p n) ∧ (∃ n, Accepted q n) ∧
    (MinusZero p ∨ MinusZero q)

/-! ### Parts -/

variable {s t p q : List Char} {n M m : Int32}

theorem VersionInfo.number?_eq_some_iff : VersionInfo.number? t = some n ↔ Accepted t n := by
  rw [Accepted, ← fromCharsInt32_iff]
  unfold VersionInfo.number?
  have hneg : ∀ n' : Int32, n' < 0 ↔ ¬ 0 ≤ n'.toInt := by
    intro n'
    rw [Int32.lt_iff_toInt_lt]
    change n'.toInt < 0 ↔ _
    omega
  rcases fromCharsInt32 t with ec | ⟨n', ptr⟩
  · exact ⟨fun h => (by cases h), fun h => (by cases h.1)⟩
  · simp only [hneg, Except.ok.injEq, Prod.mk.injEq]
    split_ifs with hptr hn'
    · exact ⟨fun h => (by cases h), fun h => absurd h.1.2 hptr⟩
    · rw [not_not] at hptr
      rw [Option.some.injEq]
      constructor
      · rintro rfl
        exact ⟨⟨rfl, hptr⟩, hn'⟩
      · exact fun h => h.1.1
    · refine ⟨fun h => (by cases h), ?_⟩
      rintro ⟨⟨rfl, -⟩, h⟩
      exact absurd h hn'

/-- A number that was read is not the mark of one that was not. -/
theorem Accepted.ne (h : Accepted t n) : n ≠ -1 := by
  rintro rfl
  have hn := (fromCharsInt32_iff.mpr h).2
  exact absurd hn (by decide)

theorem Accepted.dot_notMem (h : Accepted t n) : '.' ∉ t := by
  intro hdot
  rcases h with h | ⟨⟨k, rfl⟩, -⟩
  · exact absurd (h.digits '.' hdot) (by decide)
  · rw [List.mem_cons] at hdot
    rcases hdot with hdot | hdot
    · exact absurd hdot (by decide)
    · exact absurd (List.eq_of_mem_replicate hdot) (by decide)

/-- A zero with a minus sign is accepted as zero. -/
theorem Accepted.eq_zero (h : Accepted t n) (hm : MinusZero t) : n = 0 := by
  rcases h with h | h
  · obtain ⟨k, rfl⟩ := hm
    exact absurd (h.digits '-' List.mem_cons_self) (by decide)
  · exact h.2

/-! ### Parsing -/

theorem fromString_of_accepted (hp : Accepted p M) (hq : Accepted q m) :
    VersionInfo.fromString (p ++ ['.'] ++ q) = ⟨M, m⟩ := by
  have hsplit : split ['.'] (p ++ ['.'] ++ q) = [p, q] := by
    refine split_pair (List.cons_ne_nil _ _) ?_ ?_
    · rw [List.singleton_infix_iff]
      simpa using hp.dot_notMem
    · rw [List.singleton_infix_iff]
      exact hq.dot_notMem
  have hM := VersionInfo.number?_eq_some_iff.mpr hp
  have hm := VersionInfo.number?_eq_some_iff.mpr hq
  rw [VersionInfo.fromString, hsplit, VersionInfo.fromParts, if_pos rfl, hM]
  simp only
  rw [VersionInfo.fromParts, if_neg hp.ne, if_pos rfl, hm]
  simp only
  rw [VersionInfo.fromParts, if_neg (not_or.mpr ⟨hp.ne, hq.ne⟩)]

theorem fromString_cases (s : List Char) :
    VersionInfo.fromString s = .invalid ∨
      ∃ p q M m, s = p ++ ['.'] ++ q ∧ Accepted p M ∧ Accepted q m := by
  have hjoin := intercalate_split (List.cons_ne_nil '.' []) s
  unfold VersionInfo.fromString
  rcases hs : split ['.'] s with _ | ⟨p, parts⟩
  · exact Or.inl rfl
  · rw [VersionInfo.fromParts, if_pos rfl]
    rcases hM : VersionInfo.number? p with _ | M
    · exact Or.inl rfl
    · have hp := VersionInfo.number?_eq_some_iff.mp hM
      simp only
      rcases parts with _ | ⟨q, parts⟩
      · exact Or.inl (if_pos (Or.inr rfl))
      · rw [VersionInfo.fromParts, if_neg hp.ne, if_pos rfl]
        rcases hm : VersionInfo.number? q with _ | m
        · exact Or.inl rfl
        · have hq := VersionInfo.number?_eq_some_iff.mp hm
          simp only
          rcases parts with _ | ⟨r, parts⟩
          · refine Or.inr ⟨p, q, M, m, ?_, hp, hq⟩
            rw [← hjoin, hs]
            simp [List.intercalate_cons_cons]
          · left
            rw [VersionInfo.fromParts, if_neg hp.ne, if_neg hq.ne]

theorem invalid_or_denotes (h : ¬ HasMinusZero s) :
    VersionInfo.fromString s = .invalid ∨ Denotes s (.fromString s) := by
  rcases fromString_cases s with hs | ⟨p, q, M, m, rfl, hp, hq⟩
  · exact Or.inl hs
  · right
    rw [fromString_of_accepted hp hq]
    have hsign : ¬ (MinusZero p ∨ MinusZero q) := fun hz => h ⟨p, q, rfl, ⟨M, hp⟩, ⟨m, hq⟩, hz⟩
    rw [not_or] at hsign
    exact ⟨p, q, rfl, hp.resolve_right fun hz => hsign.1 hz.1,
      hq.resolve_right fun hz => hsign.2 hz.1⟩

theorem Denotes.fromString {r : VersionInfo} (h : Denotes s r) : VersionInfo.fromString s = r := by
  obtain ⟨p, q, rfl, hp, hq⟩ := h
  exact fromString_of_accepted (Or.inl hp) (Or.inl hq)

/-! ### Comparing -/

theorem VersionInfo.cmp_eq_lt_iff (a b : VersionInfo) : a.cmp b = .lt ↔ ¬ b.LexLE a := by
  unfold VersionInfo.cmp VersionInfo.LexLE
  rw [Ordering.then_eq_lt, Std.compare_eq_lt, Std.compare_eq_lt, Std.compare_eq_iff_eq,
    Int32.lt_iff_toInt_lt, Int32.lt_iff_toInt_lt, Int32.lt_iff_toInt_lt, Int32.le_iff_toInt_le,
    ← Int32.toInt_inj, ← Int32.toInt_inj]
  omega

/-- What a library fulfils. -/
theorem versionCompatWith_iff {v r : VersionInfo} {check : Int32 → Int32 → Bool}
    (h : ChecksVersion v check) : versionCompatWith check r = true ↔ r.LexLE v := by
  rw [versionCompatWith, Bool.not_eq_true', h]

/-! ### Requirements that are parsed exactly -/

variable {check : VersionInfo → Int32 → Int32 → Bool}

theorem exact_of_not_hasMinusZero (hcheck : ∀ v, ChecksVersion v (check v))
    (h : ¬ HasMinusZero s) : Exact check s where
  denoted _ hr := hr.fromString
  returned r hr hs := by
    rcases invalid_or_denotes h with hinv | hd
    · exact absurd (hs.symm.trans hinv) hr
    · exact hs ▸ hd
  malformed hr := (invalid_or_denotes h).resolve_right (hr _)
  compat v hv := by
    rw [versionCompatWithString, versionCompatWith_iff (hcheck v)]
    constructor
    · intro hle
      rcases invalid_or_denotes h with hinv | hd
      · rw [hinv] at hle
        exact absurd hle ((VersionInfo.cmp_eq_lt_iff v .invalid).mp hv)
      · exact ⟨_, hd, hle⟩
    · rintro ⟨r, hd, hle⟩
      rw [hd.fromString]
      exact hle
  less v hv hr := by
    rw [VersionInfo.cmpString, (invalid_or_denotes h).resolve_right (hr _)]
    exact hv

theorem HasMinusZero.not_exact (h : HasMinusZero s) : ¬ Exact check s := by
  obtain ⟨p, q, rfl, ⟨M, hp⟩, ⟨m, hq⟩, hz⟩ := h
  intro he
  have hne : (⟨M, m⟩ : VersionInfo) ≠ .invalid := by
    intro heq
    injection heq with hM hm
    rcases hz with hz | hz
    · exact absurd ((hp.eq_zero hz).symm.trans hM) (by decide)
    · exact absurd ((hq.eq_zero hz).symm.trans hm) (by decide)
  obtain ⟨p', q', heq, hp', hq'⟩ := he.returned _ hne (fromString_of_accepted hp hq)
  have hmem : '-' ∈ p ++ ['.'] ++ q := by
    rcases hz with ⟨k, rfl⟩ | ⟨k, rfl⟩
    · exact List.mem_append_left _ (List.mem_append_left _ List.mem_cons_self)
    · exact List.mem_append_right _ List.mem_cons_self
  rw [heq, List.mem_append, List.mem_append, List.mem_singleton] at hmem
  rcases hmem with (hmem | hmem) | hmem
  · exact absurd (hp'.digits '-' hmem) (by decide)
  · exact absurd hmem (by decide)
  · exact absurd (hq'.digits '-' hmem) (by decide)

/-- **Requirements are parsed exactly and ordered correctly** if and only if there is no zero with a
minus sign. -/
theorem exact_iff (hcheck : ∀ v, ChecksVersion v (check v)) (s : List Char) :
    Exact check s ↔ ¬ HasMinusZero s :=
  ⟨fun he hz => hz.not_exact he, exact_of_not_hasMinusZero hcheck⟩

instance (a b : VersionInfo) : Decidable (a.LexLE b) := by
  unfold VersionInfo.LexLE; infer_instance

/-- `io_uring_check_version`, as it is documented. -/
def ioUringCheckVersion (v : VersionInfo) (major minor : Int32) : Bool :=
  !decide (VersionInfo.LexLE ⟨major, minor⟩ v)

theorem checksVersion_ioUringCheckVersion (v : VersionInfo) :
    ChecksVersion v (ioUringCheckVersion v) := by
  intro major minor
  rw [ioUringCheckVersion, Bool.not_eq_false', decide_eq_true_eq]

theorem exact_iff_ioUringCheckVersion :
    Exact ioUringCheckVersion "2.11".toList ↔ ¬ HasMinusZero "2.11".toList :=
  exact_iff checksVersion_ioUringCheckVersion _

/-- **`-0.5` is parsed as `0.5`**, though it denotes no version. -/
theorem not_exact_minusZero : ¬ Exact ioUringCheckVersion "-0.5".toList :=
  HasMinusZero.not_exact ⟨"-0".toList, "5".toList, by decide, ⟨0, Or.inr ⟨⟨0, by decide⟩, rfl⟩⟩,
    ⟨5, VersionInfo.number?_eq_some_iff.mp (by decide)⟩, Or.inl ⟨0, by decide⟩⟩

end Iouxx.Ring
