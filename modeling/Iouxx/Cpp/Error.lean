import Mathlib.Data.Int.Notation

/-!
# `std::errc` and `std::error_code`

An error code is a number together with its category; it stands for an error exactly when the
number is not zero. `make_error_code` puts a condition of `std::errc` into the generic category,
`make_system_error_code` a number of the kernel into the system category.
-/

namespace Iouxx.Cpp.Error

/-- The conditions of `std::errc` that occur. -/
inductive Errc
  | invalidArgument | resultOutOfRange | fileExists | resourceUnavailableTryAgain
  | functionNotSupported | notEnoughMemory | operationCanceled
  deriving DecidableEq, Repr

/-- The number of a condition (Linux). -/
def Errc.number : Errc → ℤ
  | invalidArgument => 22
  | resultOutOfRange => 34
  | fileExists => 17
  | resourceUnavailableTryAgain => 11
  | functionNotSupported => 38
  | notEnoughMemory => 12
  | operationCanceled => 125

inductive Category
  | generic | system
  deriving DecidableEq, Repr

/-- `std::error_code`. -/
structure ErrorCode where
  value : ℤ
  category : Category
  deriving DecidableEq, Repr

/-- `std::error_code()`: no error. -/
def ErrorCode.none : ErrorCode := ⟨0, .system⟩

instance : Inhabited ErrorCode := ⟨ErrorCode.none⟩

/-- `operator bool`. -/
def ErrorCode.isError (ec : ErrorCode) : Bool := ec.value ≠ 0

/-- `std::make_error_code`. -/
def makeErrorCode (ec : Errc) : ErrorCode := ⟨ec.number, .generic⟩

@[simp] theorem isError_none : ErrorCode.none.isError = false := rfl

@[simp] theorem isError_makeErrorCode (ec : Errc) : (makeErrorCode ec).isError = true := by
  cases ec <;> rfl

end Iouxx.Cpp.Error
