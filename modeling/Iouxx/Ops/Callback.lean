import Iouxx.Ops.Handle
import Iouxx.Ops.SendZc

/-!
# Invoking the callback (`utility.hpp`, `iouringxx.hpp`)

`do_callback` of an operation turns the result `ev` of a completion into an invocation of the user's
callback: with the value of the operation, or with `std::unexpected` of an error. A callback of an
operation without a value may take an error code instead, which is the no-error value for a success.

`I` is what an address of the kernel is decoded to, and `V` is the value of a socket option.
-/

namespace Iouxx.Ops

open Iouxx.Cpp.Error Iouxx.Utility Iouxx.Ops.SendZc

/-- What the operations have as their `result_type`. -/
inductive Value (I V : Type)
  | void
  | file (f : File)
  | fixedFile (f : FixedFile)
  | directory (d : Directory)
  | size (n : ℕ)
  | ptrdiff (n : ℤ)
  | pollEvent (events : UInt32)
  | multishotPoll (events : UInt32) (more : Bool)
  | multishotTimeout (more : Bool)
  | registerBatch (allocated : ℕ) (fileIndex : List Int32)
  | socket (s : Socket)
  | fixedSocket (s : FixedSocket)
  | connection (c : Connection)
  | fixedConnection (c : FixedConnection)
  | accept (conn : Connection) (peer : I)
  | fixedAccept (conn : FixedConnection) (peer : I)
  | multishotAccept (conn : Connection) (more : Bool)
  | multishotFixedAccept (conn : FixedConnection) (more : Bool)
  | sendZc (r : SendZcResult)
  | span (data : UInt64) (size : ℕ)
  | multishotRecv (data : UInt64) (size : ℕ) (more : Bool)
  | option (v : V)
  | info (i : I)
  | management (ev : Int32) (cqeFlags : UInt32)
  deriving DecidableEq, Repr

variable {I V : Type}

/-- An invocation of a callback. -/
inductive Delivery (I V : Type)
  | value (v : Value I V)
  | unexpected (ec : ErrorCode)
  | errorCode (ec : ErrorCode)
  deriving DecidableEq, Repr

/-- Whether the callback is told of a success. -/
def Delivery.success : Delivery I V → Bool
  | value _ => true
  | unexpected _ => false
  | errorCode ec => !ec.isError

/-- The number of the error the callback is told. -/
def Delivery.error : Delivery I V → ℤ
  | value _ => 0
  | unexpected ec => ec.value
  | errorCode ec => ec.value

/-- The two kinds of callbacks of an operation without a value: `stdexpected_callback` and
`errorcode_callback`. -/
inductive VoidCallback
  | stdexpected
  | errorcode
  deriving DecidableEq, Repr

/-- `std::invoke_r<void>(callback, utility::fail(-ev))`; for the least value of `ev` the source
overflows, here the negation wraps. -/
def invokeFail (ev : Int32) : Delivery I V := .unexpected (makeSystemErrorCode (-ev).toInt)

/-- `do_callback` with the test `ev >= 0`. -/
def invokeValue (ev : Int32) (v : Value I V) : List (Delivery I V) :=
  if ev ≥ 0 then [.value v] else [invokeFail ev]

/-- The same for a value that is decoded; `none` is an assertion of the decoder that fails and ends the
program, before the callback is invoked. -/
def invokeDecoded (ev : Int32) (v : Option (Value I V)) : List (Delivery I V) :=
  if ev ≥ 0 then (v.map .value).toList else [invokeFail ev]

/-- `do_callback` of an operation without a value, with the test `ev == 0`. -/
def invokeVoid (callback : VoidCallback) (ev : Int32) : List (Delivery I V) :=
  match callback with
  | .stdexpected => if ev = 0 then [.value .void] else [invokeFail ev]
  | .errorcode => [.errorCode (makeSystemErrorCode (-ev).toInt)]

/-- `cqe_flags & IORING_CQE_F_MORE`. -/
def more (cqeFlags : UInt32) : Bool := cqeFlags &&& cqeFMore ≠ 0

end Iouxx.Ops
