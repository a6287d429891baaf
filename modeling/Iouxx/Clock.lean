import Iouxx.Cpp.Chrono
import Iouxx.Uring.Prep

/-!
# Times of the system (`util/utility.hpp`, `clock.hpp`)

The kernel takes a time as seconds and nanoseconds. `to_kernel_timespec` casts to seconds and subtracts,
`to_timespec` of the boot time clock divides and takes the remainder; `time_t` has 64 bits. `none` is an
overflow.

* `toKernelTimespec_eq_some_iff`, `toTimespec_eq_some_iff`: **both split a duration**, so they agree;
* `converts_iff`: the pairs that are converted to a duration and back;
* `timespec_roundTrip`: **every duration comes back, and every time that the system reports**.
-/

namespace Iouxx.Clock

open Iouxx.Cpp.Checked Iouxx.Cpp.Chrono Iouxx.Lib.Truncated Iouxx.Uring

/-! ### The conversions -/

/-- `utility::to_kernel_timespec`. -/
def toKernelTimespec (stdtime : Nanoseconds) : Option KernelTimespec := do
  let sec : Seconds ← stdtime.cast 1000000000
  let nsec ← stdtime.sub sec
  return ⟨sec.count, nsec.count⟩

/-- `utility::from_kernel_timespec`. -/
def fromKernelTimespec (ts : KernelTimespec) : Option Nanoseconds :=
  (⟨ts.tvSec⟩ : Seconds).add ⟨ts.tvNsec⟩

/-- `timespec`. -/
structure Timespec where
  tvSec : Int64
  tvNsec : Int64
  deriving DecidableEq, Repr

/-- `to_timespec` of a duration. -/
def toTimespec (d : Nanoseconds) : Option Timespec := do
  let totalNs := d.count
  let tvSec ← div? totalNs 1000000000
  let tvNsec ← mod? totalNs 1000000000
  return ⟨tvSec, tvNsec⟩

/-- `from_timespec_duration`. -/
def fromTimespecDuration (ts : Timespec) : Option Nanoseconds :=
  (⟨ts.tvSec⟩ : Seconds).add ⟨ts.tvNsec⟩

/-- **The duration and the pair are converted into each other**, by both implementations and without
overflow. -/
structure Converts (d : Nanoseconds) (sec nsec : Int64) : Prop where
  toKernel : toKernelTimespec d = some ⟨sec, nsec⟩
  toSystem : toTimespec d = some ⟨sec, nsec⟩
  fromKernel : fromKernelTimespec ⟨sec, nsec⟩ = some d
  fromSystem : fromTimespecDuration ⟨sec, nsec⟩ = some d

/-- **Less than a second of nanoseconds**, and no opposite signs. -/
structure Normalized (sec nsec : Int64) : Prop where
  small : nsec.toInt.natAbs < 1000000000
  sameSign : (0 ≤ sec.toInt ∧ 0 ≤ nsec.toInt) ∨ (sec.toInt ≤ 0 ∧ nsec.toInt ≤ 0)

/-! ### Seconds and nanoseconds -/

variable {d : Nanoseconds} {sec nsec : Int64}

theorem toInt_second : (1000000000 : Int64).toInt = 1000000000 := by decide

theorem second_pos : 0 < (1000000000 : Int64).toInt := by decide

theorem toKernelTimespec_eq_some_iff : toKernelTimespec d = some ⟨sec, nsec⟩ ↔
    Splits 1000000000 d.count.toInt sec.toInt nsec.toInt := by
  have hsplit := Duration.cast_sub_iff (d := d) (q := ⟨sec⟩) (r := ⟨nsec⟩) second_pos
  rw [toInt_second] at hsplit
  rw [← hsplit, toKernelTimespec]
  constructor
  · intro h
    obtain ⟨q, hq, h⟩ := Option.bind_eq_some_iff.mp h
    obtain ⟨r, hr, h⟩ := Option.bind_eq_some_iff.mp h
    obtain ⟨rfl, rfl⟩ := KernelTimespec.mk.inj (Option.some.inj h)
    exact ⟨hq, hr⟩
  · rintro ⟨hq, hr⟩
    rw [hq, Option.bind_eq_bind, Option.bind_some, hr]
    rfl

theorem toTimespec_eq_some_iff : toTimespec d = some ⟨sec, nsec⟩ ↔
    Splits 1000000000 d.count.toInt sec.toInt nsec.toInt := by
  have hsplit := splits_iff (x := d.count.toInt) (q := sec.toInt) (r := nsec.toInt) second_pos
  rw [← div?_eq_some_iff second_pos, ← mod?_eq_some_iff second_pos, toInt_second] at hsplit
  rw [hsplit, toTimespec]
  constructor
  · intro h
    obtain ⟨q, hq, h⟩ := Option.bind_eq_some_iff.mp h
    obtain ⟨r, hr, h⟩ := Option.bind_eq_some_iff.mp h
    obtain ⟨rfl, rfl⟩ := Timespec.mk.inj (Option.some.inj h)
    exact ⟨hq, hr⟩
  · rintro ⟨hq, hr⟩
    simp only [hq, hr, Option.bind_eq_bind, Option.bind_some]
    rfl

/-- **Both ways**: the pairs that a duration is split into. -/
theorem converts_iff :
    Converts d sec nsec ↔ Splits 1000000000 d.count.toInt sec.toInt nsec.toInt := by
  constructor
  · exact fun h => toKernelTimespec_eq_some_iff.mp h.toKernel
  · intro h
    have hadd : (⟨sec⟩ : Seconds).add ⟨nsec⟩ = some d :=
      Duration.add_of_splits second_pos (by rw [toInt_second]; exact h)
    exact ⟨toKernelTimespec_eq_some_iff.mpr h, toTimespec_eq_some_iff.mpr h, hadd, hadd⟩

theorem exists_converts (d : Nanoseconds) : ∃ sec nsec, Converts d sec nsec := by
  obtain ⟨q, r, h⟩ := Duration.exists_splits second_pos d
  rw [toInt_second] at h
  exact ⟨q.count, r.count, converts_iff.mpr h⟩

theorem Converts.normalized (h : Converts d sec nsec) : Normalized sec nsec := by
  obtain ⟨-, hlower, hupper, hsign⟩ := converts_iff.mp h
  exact ⟨by omega, hsign⟩

theorem exists_converts_of_nonneg (hsec : 0 ≤ sec.toInt) (hnsec : 0 ≤ nsec.toInt)
    (hlt : nsec.toInt < 1000000000) (hfits : Fits (sec.toInt * 1000000000 + nsec.toInt)) :
    ∃ d, Converts d sec nsec := by
  obtain ⟨c, -, hc⟩ := exists_ofInt? hfits
  exact ⟨⟨c⟩, converts_iff.mpr ⟨hc.symm, by omega, hlt, Or.inl ⟨hsec, hnsec⟩⟩⟩

/-- **Times of the system and durations**: every duration, the least and the greatest included, is
converted without overflow to a pair with less than a second of nanoseconds and without opposite signs,
the same one in both implementations, and this comes back as the duration; and every pair that is not
negative and whose total fits comes back as it was. -/
theorem timespec_roundTrip (d : Nanoseconds) (sec nsec : Int64) :
    (∃ sec nsec, Converts d sec nsec ∧ Normalized sec nsec ∧
      (0 ≤ d.count.toInt → 0 ≤ nsec.toInt)) ∧
    (0 ≤ sec.toInt → 0 ≤ nsec.toInt → nsec.toInt < 1000000000 →
      Fits (sec.toInt * 1000000000 + nsec.toInt) → ∃ d, Converts d sec nsec) := by
  refine ⟨?_, exists_converts_of_nonneg⟩
  obtain ⟨sec, nsec, h⟩ := exists_converts d
  refine ⟨sec, nsec, h, h.normalized, fun hd => ?_⟩
  exact ((converts_iff.mp h).nonneg (by omega) hd).2

/-- The greatest duration. -/
theorem timespec_roundTrip_max : ∃ d, Converts d 9223372036 854775807 :=
  (timespec_roundTrip ⟨0⟩ 9223372036 854775807).2 (by decide) (by decide) (by decide) (by decide)

example : toKernelTimespec ⟨Int64.minValue⟩ = some ⟨-9223372036, -854775808⟩ := by decide

end Iouxx.Clock
