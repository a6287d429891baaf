import Mathlib.Data.Nat.Notation

/-!
# Flag words

The bits of a mask `f` are set in a word by `w ||| f`, cleared by `w &&& ~~~f` and tested by
`w &&& f`. Setting and clearing a mask without bits of `f` does not change the test of `f`.
-/

namespace Iouxx.Lib.Flags

variable (w : UInt32) {f g : UInt32}

@[simp] theorem set_test : (w ||| f) &&& f = f := by
  rw [← UInt32.toBitVec_inj]
  simp [BitVec.and_or_distrib_right]
  ext i hi
  simp

@[simp] theorem clear_test : w &&& ~~~f &&& f = 0 := by
  rw [UInt32.and_assoc, UInt32.not_and_self]
  simp

theorem set_test_of_disjoint (h : g &&& f = 0) : (w ||| g) &&& f = w &&& f := by
  rw [← UInt32.toBitVec_inj] at h ⊢
  rw [UInt32.toBitVec_and] at h
  rw [UInt32.toBitVec_and, UInt32.toBitVec_or, BitVec.and_or_distrib_right, h]
  simp

theorem clear_test_of_disjoint (h : g &&& f = 0) : w &&& ~~~g &&& f = w &&& f := by
  rw [← UInt32.toBitVec_inj] at h ⊢
  ext i hi
  have hi' : (g.toBitVec[i] && f.toBitVec[i]) = false := by
    rw [← BitVec.getElem_and, ← UInt32.toBitVec_and, h]
    simp
  simp only [UInt32.toBitVec_and, UInt32.toBitVec_not, BitVec.getElem_and, BitVec.getElem_not]
  cases hf : f.toBitVec[i]
  · simp
  · rw [hf, Bool.and_true] at hi'
    simp [hi']

theorem clear_set_of_disjoint (h : g &&& f = 0) : (w ||| g) &&& ~~~f = (w &&& ~~~f) ||| g := by
  rw [← UInt32.toBitVec_inj] at h ⊢
  ext i hi
  have hi' : (g.toBitVec[i] && f.toBitVec[i]) = false := by
    rw [← BitVec.getElem_and, ← UInt32.toBitVec_and, h]
    simp
  simp only [UInt32.toBitVec_and, UInt32.toBitVec_or, UInt32.toBitVec_not, BitVec.getElem_and,
    BitVec.getElem_or, BitVec.getElem_not]
  revert hi'
  cases g.toBitVec[i] <;> cases f.toBitVec[i] <;> simp

end Iouxx.Lib.Flags
