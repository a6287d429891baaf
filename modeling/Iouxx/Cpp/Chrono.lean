import Iouxx.Cpp.Checked

/-!
# Durations (`std::chrono`)

A duration is a number of units of `k` nanoseconds, counted in 64 bits. A duration in nanoseconds can
be cast to coarser units, which truncates it toward zero; in sums and differences with nanoseconds the
coarser duration is converted to nanoseconds first. `none` is an overflow.

* `cast_sub_iff`: **a duration is split into units and nanoseconds** in one way only, without overflow;
* `add_of_splits`: units and nanoseconds make up the duration again.
-/

namespace Iouxx.Cpp.Chrono

open Iouxx.Cpp.Checked Iouxx.Lib.Truncated

/-- `std::chrono::duration<std::int64_t, std::ratio<k, 1000000000>>`. -/
structure Duration (k : Int64) where
  count : Int64
  deriving DecidableEq, Repr

/-- `std::chrono::nanoseconds`. -/
abbrev Nanoseconds := Duration 1

/-- `std::chrono::seconds`. -/
abbrev Seconds := Duration 1000000000

namespace Duration

/-- `std::chrono::duration_cast` of nanoseconds to coarser units. -/
def cast (k : Int64) (d : Nanoseconds) : Option (Duration k) := (div? d.count k).map mk

/-- The conversion to nanoseconds. -/
def toNanoseconds {k : Int64} (d : Duration k) : Option Nanoseconds := (mul? d.count k).map mk

/-- `lhs - rhs`. -/
def sub {k : Int64} (lhs : Nanoseconds) (rhs : Duration k) : Option Nanoseconds := do
  let rhs ← rhs.toNanoseconds
  let count ← sub? lhs.count rhs.count
  return ⟨count⟩

/-- `lhs + rhs`. -/
def add {k : Int64} (lhs : Duration k) (rhs : Nanoseconds) : Option Nanoseconds := do
  let lhs ← lhs.toNanoseconds
  let count ← add? lhs.count rhs.count
  return ⟨count⟩

variable {k : Int64} {d r : Nanoseconds} {q : Duration k}

theorem cast_eq_some_iff (hk : 0 < k.toInt) :
    d.cast k = some q ↔ q.count.toInt = d.count.toInt.tdiv k.toInt := by
  rw [cast, Option.map_eq_some_iff, ← div?_eq_some_iff hk]
  constructor
  · rintro ⟨c, hc, rfl⟩
    exact hc
  · exact fun h => ⟨q.count, h, rfl⟩

theorem toNanoseconds_eq_some_iff :
    q.toNanoseconds = some r ↔ r.count.toInt = q.count.toInt * k.toInt := by
  rw [toNanoseconds, Option.map_eq_some_iff, ← mul?_eq_some_iff]
  constructor
  · rintro ⟨c, hc, rfl⟩
    exact hc
  · exact fun h => ⟨r.count, h, rfl⟩

theorem toNanoseconds_bind_iff {f : Int64 → Option Int64} {n : ℤ → ℤ}
    (hf : ∀ {a c : Int64}, f a = some c ↔ c.toInt = n a.toInt) :
    (do let p ← q.toNanoseconds; let count ← f p.count; return ⟨count⟩) = some r ↔
      Fits (q.count.toInt * k.toInt) ∧ r.count.toInt = n (q.count.toInt * k.toInt) := by
  constructor
  · intro h
    obtain ⟨p, hp, h⟩ := Option.bind_eq_some_iff.mp h
    obtain ⟨c, hc, h⟩ := Option.bind_eq_some_iff.mp h
    obtain rfl := Option.some.inj h
    rw [← toNanoseconds_eq_some_iff.mp hp]
    exact ⟨fits_toInt p.count, hf.mp hc⟩
  · rintro ⟨hfits, hr⟩
    obtain ⟨c, -, hc⟩ := exists_ofInt? hfits
    have hp : q.toNanoseconds = some ⟨c⟩ := toNanoseconds_eq_some_iff.mpr hc
    have hcount : f c = some r.count := hf.mpr (by rw [hr, hc])
    rw [hp, Option.bind_eq_bind, Option.bind_some, hcount]
    rfl

theorem sub_eq_some_iff : sub d q = some r ↔
    Fits (q.count.toInt * k.toInt) ∧ r.count.toInt = d.count.toInt - q.count.toInt * k.toInt :=
  toNanoseconds_bind_iff (n := fun x => d.count.toInt - x) sub?_eq_some_iff

theorem add_eq_some_iff : add q r = some d ↔
    Fits (q.count.toInt * k.toInt) ∧ d.count.toInt = q.count.toInt * k.toInt + r.count.toInt :=
  toNanoseconds_bind_iff (n := fun x => x + r.count.toInt) add?_eq_some_iff

/-! ### Splitting a duration -/

section Positive
variable (hk : 0 < k.toInt)
include hk

/-- The units that are split off a duration are not more nanoseconds than the duration. -/
theorem fits_of_splits (h : Splits k.toInt d.count.toInt q.count.toInt r.count.toInt) :
    Fits (q.count.toInt * k.toInt) := by
  have hbetween := h.between hk
  refine (fits_toInt d.count).of_between ?_
  omega

/-- **A duration is split in one way only**: units and nanoseconds without opposite signs. -/
theorem cast_sub_iff : (d.cast k = some q ∧ sub d q = some r) ↔
    Splits k.toInt d.count.toInt q.count.toInt r.count.toInt := by
  constructor
  · rintro ⟨hq, hr⟩
    have hquot := (cast_eq_some_iff hk).mp hq
    have hrest := (sub_eq_some_iff.mp hr).2
    have hsum := Int.tdiv_mul_add_tmod d.count.toInt k.toInt
    rw [splits_iff hk]
    rw [hquot] at hrest
    exact ⟨hquot, by omega⟩
  · intro h
    have hsum := h.sum
    exact ⟨(cast_eq_some_iff hk).mpr ((splits_iff hk).mp h).1,
      sub_eq_some_iff.mpr ⟨fits_of_splits hk h, by omega⟩⟩

theorem add_of_splits (h : Splits k.toInt d.count.toInt q.count.toInt r.count.toInt) :
    add q r = some d :=
  add_eq_some_iff.mpr ⟨fits_of_splits hk h, h.sum.symm⟩

theorem exists_splits (d : Nanoseconds) : ∃ (q : Duration k) (r : Nanoseconds),
    Splits k.toInt d.count.toInt q.count.toInt r.count.toInt := by
  have hsplits := splits_tdiv_tmod hk d.count.toInt
  have hquot := fits_tdiv hk d.count
  have hrest : Fits (d.count.toInt.tmod k.toInt) := by
    have hsum := hsplits.sum
    have hbetween := hsplits.between hk
    refine (fits_toInt d.count).of_between ?_
    omega
  obtain ⟨q, -, hq⟩ := exists_ofInt? hquot
  obtain ⟨r, -, hr⟩ := exists_ofInt? hrest
  refine ⟨⟨q⟩, ⟨r⟩, ?_⟩
  rw [hq, hr]
  exact hsplits

end Positive

end Duration

end Iouxx.Cpp.Chrono
