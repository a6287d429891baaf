import Mathlib.Data.Int.Notation
import Mathlib.Order.Basic

/-!
# Quotients and remainders that are truncated toward zero

A number is split into units and a rest: the rest is smaller than a unit, and units and rest have no
opposite signs. The quotient and the remainder of truncated division are the only such pair
(`splits_iff`), so two ways to split a number can be compared without dividing.

* `Splits.between`: the units alone are between zero and the number;
* `Splits.trans`: a rest can be split again into smaller units.
-/

namespace Iouxx.Lib.Truncated

/-- **`x` is `q` units of `k` and the rest `r`.** -/
structure Splits (k x q r : ℤ) : Prop where
  sum : q * k + r = x
  lower : -k < r
  upper : r < k
  sameSign : (0 ≤ q ∧ 0 ≤ r) ∨ (q ≤ 0 ∧ r ≤ 0)

variable {k x q r : ℤ}

theorem Splits.neg (h : Splits k x q r) : Splits k (-x) (-q) (-r) := by
  obtain ⟨hsum, hlower, hupper, hsign⟩ := h
  refine ⟨?_, by omega, by omega, by omega⟩
  rw [Int.neg_mul, ← hsum]
  omega

theorem Splits.between (hk : 0 < k) (h : Splits k x q r) :
    (0 ≤ x ∧ 0 ≤ q * k ∧ q * k ≤ x) ∨ (x ≤ 0 ∧ x ≤ q * k ∧ q * k ≤ 0) := by
  have hsum := h.sum
  rcases h.sameSign with ⟨hq, hr⟩ | ⟨hq, hr⟩
  · have hqk : 0 ≤ q * k := Int.mul_nonneg hq (Int.le_of_lt hk)
    omega
  · have hqk : q * k ≤ 0 := Int.mul_nonpos_of_nonpos_of_nonneg hq (Int.le_of_lt hk)
    omega

theorem Splits.nonneg (hk : 0 < k) (h : Splits k x q r) (hx : 0 ≤ x) : 0 ≤ q ∧ 0 ≤ r := by
  have hsum := h.sum
  rcases h.sameSign with hsign | ⟨hq, hr⟩
  · exact hsign
  · -- both parts are zero
    have hqk : q * k ≤ 0 := Int.mul_nonpos_of_nonpos_of_nonneg hq (Int.le_of_lt hk)
    have hzero : q * k = 0 := by omega
    have hq0 : q = 0 := (Int.mul_eq_zero.mp hzero).resolve_right (Int.ne_of_gt hk)
    omega

theorem splits_tdiv_tmod (hk : 0 < k) (x : ℤ) : Splits k x (x.tdiv k) (x.tmod k) := by
  have hnonneg : ∀ y : ℤ, 0 ≤ y → Splits k y (y.tdiv k) (y.tmod k) := by
    intro y hy
    exact ⟨Int.tdiv_mul_add_tmod y k, Int.lt_tmod_of_pos y hk, Int.tmod_lt_of_pos y hk,
      Or.inl ⟨Int.tdiv_nonneg hy (Int.le_of_lt hk), Int.tmod_nonneg k hy⟩⟩
  rcases Int.le_total 0 x with hx | hx
  · exact hnonneg x hx
  · -- a negative number is split as the opposite of its absolute value
    have h := (hnonneg (-x) (by omega)).neg
    rw [Int.neg_tdiv, Int.neg_tmod, Int.neg_neg, Int.neg_neg, Int.neg_neg] at h
    exact h

/-- **Truncated division is the only way** to split a number. -/
theorem splits_iff (hk : 0 < k) : Splits k x q r ↔ q = x.tdiv k ∧ r = x.tmod k := by
  have hnonneg : ∀ {y q r : ℤ}, 0 ≤ y → Splits k y q r → y.tdiv k = q ∧ y.tmod k = r := by
    intro y q r hy h
    have hsum := h.sum
    have hupper := h.upper
    rw [Int.mul_comm] at hsum
    exact (Int.tdiv_tmod_unique hy (Int.ne_of_gt hk)).mpr
      ⟨by omega, (h.nonneg hk hy).2, by omega⟩
  constructor
  · intro h
    rcases Int.le_total 0 x with hx | hx
    · obtain ⟨hq, hr⟩ := hnonneg hx h
      exact ⟨hq.symm, hr.symm⟩
    · obtain ⟨hq, hr⟩ := hnonneg (by omega) h.neg
      rw [Int.neg_tdiv] at hq
      rw [Int.neg_tmod] at hr
      exact ⟨by omega, by omega⟩
  · rintro ⟨rfl, rfl⟩
    exact splits_tdiv_tmod hk x

/-- **In two steps**: units of `j * k`, and the rest in units of `k`. -/
theorem Splits.trans {j u t : ℤ} (hk : 0 < k) (h : Splits (j * k) x q r) (hj : 0 < j)
    (h' : Splits k r u t) : Splits k x (q * j + u) t := by
  have hsum := h.sum
  have hsum' := h'.sum
  refine ⟨?_, h'.lower, h'.upper, ?_⟩
  · rw [Int.add_mul, Int.mul_assoc]
    omega
  · rcases h.sameSign with ⟨hq, hr⟩ | ⟨hq, hr⟩
    · obtain ⟨hu, ht⟩ := h'.nonneg hk hr
      have hqj : 0 ≤ q * j := Int.mul_nonneg hq (Int.le_of_lt hj)
      exact Or.inl ⟨by omega, ht⟩
    · obtain ⟨hu, ht⟩ := h'.neg.nonneg hk (by omega)
      have hqj : q * j ≤ 0 := Int.mul_nonpos_of_nonpos_of_nonneg hq (Int.le_of_lt hj)
      exact Or.inr ⟨by omega, by omega⟩

end Iouxx.Lib.Truncated
