import Iouxx.Lib.Truncated

/-!
# Signed arithmetic

Arithmetic on `std::int64_t` is undefined where the result does not fit the type, and where it
divides by zero: the operations here are `none` then, and otherwise the exact result
(`add?_eq_some_iff` and the others). Quotients and remainders are truncated toward zero; by a positive
number they are always defined (`fits_tdiv`).
-/

namespace Iouxx.Cpp.Checked

open Iouxx.Lib.Truncated

/-- A number fits `std::int64_t`. -/
def Fits (n : ℤ) : Prop := -9223372036854775808 ≤ n ∧ n < 9223372036854775808

instance (n : ℤ) : Decidable (Fits n) := by unfold Fits; infer_instance

/-- The value of type `std::int64_t`, if the number fits. -/
def ofInt? (n : ℤ) : Option Int64 := if Fits n then some (Int64.ofInt n) else none

/-- `a + b`. -/
def add? (a b : Int64) : Option Int64 := ofInt? (a.toInt + b.toInt)

/-- `a - b`. -/
def sub? (a b : Int64) : Option Int64 := ofInt? (a.toInt - b.toInt)

/-- `a * b`. -/
def mul? (a b : Int64) : Option Int64 := ofInt? (a.toInt * b.toInt)

/-- `a / b`. -/
def div? (a b : Int64) : Option Int64 := if b = 0 then none else ofInt? (a.toInt.tdiv b.toInt)

/-- `a % b`, which is also undefined where `a / b` does not fit. -/
def mod? (a b : Int64) : Option Int64 :=
  if b = 0 ∨ ¬ Fits (a.toInt.tdiv b.toInt) then none else ofInt? (a.toInt.tmod b.toInt)

theorem fits_toInt (a : Int64) : Fits a.toInt := ⟨a.le_toInt, a.toInt_lt⟩

variable {a b c : Int64} {n m : ℤ}

theorem Fits.of_between (h : Fits n) (hm : (0 ≤ m ∧ m ≤ n) ∨ (n ≤ m ∧ m ≤ 0)) : Fits m := by
  obtain ⟨hlower, hupper⟩ := h
  unfold Fits
  omega

theorem Fits.bmod_eq (h : Fits n) : n.bmod 18446744073709551616 = n := by
  obtain ⟨hlower, hupper⟩ := h
  exact Int.bmod_eq_of_le (by omega) (by omega)

theorem ofInt?_eq_some_iff : ofInt? n = some c ↔ c.toInt = n := by
  unfold ofInt?
  split_ifs with h
  · rw [Option.some.injEq]
    constructor
    · rintro rfl
      exact Int64.toInt_ofInt_of_le h.1 h.2
    · rintro rfl
      exact Int64.ofInt_toInt c
  · refine ⟨fun he => (by cases he), ?_⟩
    rintro rfl
    exact absurd (fits_toInt c) h

theorem exists_ofInt? (h : Fits n) : ∃ c, ofInt? n = some c ∧ c.toInt = n :=
  ⟨Int64.ofInt n, if_pos h, Int64.toInt_ofInt_of_le h.1 h.2⟩

theorem add?_eq_some_iff : add? a b = some c ↔ c.toInt = a.toInt + b.toInt := ofInt?_eq_some_iff

theorem sub?_eq_some_iff : sub? a b = some c ↔ c.toInt = a.toInt - b.toInt := ofInt?_eq_some_iff

theorem mul?_eq_some_iff : mul? a b = some c ↔ c.toInt = a.toInt * b.toInt := ofInt?_eq_some_iff

/-! ### Dividing by a positive number -/

section Positive
variable (hb : 0 < b.toInt)
include hb

theorem ne_zero_of_pos : b ≠ 0 := by
  rintro rfl
  exact absurd hb (by decide)

theorem fits_tdiv (a : Int64) : Fits (a.toInt.tdiv b.toInt) := by
  have hsplits := splits_tdiv_tmod hb a.toInt
  have habs := Int.natAbs_tdiv_le_natAbs a.toInt b.toInt
  refine (fits_toInt a).of_between ?_
  rcases Int.le_total 0 a.toInt with ha | ha
  · have hq := (hsplits.nonneg hb ha).1
    omega
  · have hq := (hsplits.neg.nonneg hb (by omega)).1
    omega

theorem div?_eq_some_iff : div? a b = some c ↔ c.toInt = a.toInt.tdiv b.toInt := by
  rw [div?, if_neg (ne_zero_of_pos hb)]
  exact ofInt?_eq_some_iff

theorem mod?_eq_some_iff : mod? a b = some c ↔ c.toInt = a.toInt.tmod b.toInt := by
  have hdefined : ¬ (b = 0 ∨ ¬ Fits (a.toInt.tdiv b.toInt)) :=
    not_or.mpr ⟨ne_zero_of_pos hb, not_not.mpr (fits_tdiv hb a)⟩
  rw [mod?, if_neg hdefined]
  exact ofInt?_eq_some_iff

end Positive

end Iouxx.Cpp.Checked
