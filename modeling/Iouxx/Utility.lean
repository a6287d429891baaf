import Iouxx.Cpp.Error
import Mathlib.Data.Int.Notation
import Mathlib.Tactic.SplitIfs

/-!
# Error results and buffers (`util/utility.hpp`)

The helpers every operation reports its errors with: `fail` for a number of the kernel, `failErrc`
for a condition of `std::errc`. A buffer of the user is an address and a size.
-/

namespace Iouxx.Utility

open Iouxx.Cpp.Error

variable {α : Type*}

/-- `make_system_error_code`. -/
def makeSystemErrorCode (ev : ℤ) : ErrorCode := if ev ≠ 0 then ⟨ev, .system⟩ else .none

/-- `fail(int)`. -/
def fail (ev : ℤ) : Except ErrorCode α := .error (makeSystemErrorCode ev)

/-- `fail(std::errc)`. -/
def failErrc (ec : Errc) : Except ErrorCode α := .error (makeErrorCode ec)

def failInvalidArgument : Except ErrorCode α := failErrc .invalidArgument

@[simp] theorem isError_makeSystemErrorCode (ev : ℤ) :
    (makeSystemErrorCode ev).isError = decide (ev ≠ 0) := by
  unfold makeSystemErrorCode ErrorCode.isError
  split_ifs with h
  · rfl
  · have h0 : ev = 0 := by omega
    simp [ErrorCode.none, h0]

theorem value_makeSystemErrorCode (ev : ℤ) : (makeSystemErrorCode ev).value = ev := by
  unfold makeSystemErrorCode
  split_ifs with h
  · rfl
  · have h0 : ev = 0 := by omega
    exact h0.symm

@[simp] theorem fail_ne_ok (ev : ℤ) (x : α) : (fail ev : Except ErrorCode α) ≠ .ok x := by
  intro h; cases h

@[simp] theorem failErrc_ne_ok (ec : Errc) (x : α) :
    (failErrc ec : Except ErrorCode α) ≠ .ok x := by
  intro h; cases h

@[simp] theorem failInvalidArgument_ne_ok (x : α) :
    (failInvalidArgument : Except ErrorCode α) ≠ .ok x := by
  intro h; cases h

/-! ### Buffers -/

/-- A `std::span` of bytes, which `to_buffer` and `to_readonly_buffer` make of a buffer. -/
structure Buffer where
  data : UInt64
  size : UInt64
  deriving DecidableEq, Repr

/-- `iovec`. -/
structure Iovec where
  iovBase : UInt64
  iovLen : UInt64
  deriving DecidableEq, Repr

/-- `to_iovec`. -/
def toIovec (buffer : Buffer) : Iovec := ⟨buffer.data, buffer.size⟩

end Iouxx.Utility
