import Iouxx.Cpp.Access
import Iouxx.Ops.Callback

/-!
# Noop, timeouts, futexes and cancellation (`noop.hpp`, `timeout.hpp`, `futex.hpp`, `cancel.hpp`)

A class is the structure of its members; `opcode`, `build` and `doCallback` are what the class
declares and implements. The specialisations for `void` of some classes have no callback.

The setters of the cancel operations are templates of their bases, and name the members of the object
they are called on. `cancel_fd_base::target` names a member of another base, to which it has no access:
a program that calls it does not compile, unless the compiler is told not to control access.
-/

namespace Iouxx.Ops

open Iouxx.Cpp.Error Iouxx.Utility Iouxx.Uring

variable {I V : Type} (prep : Prep → Sqe)

/-! ### `ring_management_operation` -/

namespace RingManagementOperation

def opcode : Opcode := .nop

def build : Sqe := prep .nop

def doCallback (ev : Int32) (cqeFlags : UInt32) : List (Delivery I V) :=
  [.value (.management ev cqeFlags)]

end RingManagementOperation

/-! ### `noop.hpp` -/

/-- `noop_operation`. -/
structure NoopOperation where
  resultCode : Int32 := 0
  deriving DecidableEq, Repr

/-- `IORING_NOP_INJECT_RESULT`. -/
def nopInjectResult : UInt32 := 1

namespace NoopOperation

def opcode : Opcode := .nop

def build (op : NoopOperation) : Sqe :=
  let sqe := prep .nop
  if op.resultCode ≠ 0 then
    { sqe with opFlags := sqe.opFlags ||| nopInjectResult, len := op.resultCode.toUInt32 }
  else sqe

def doCallback (callback : VoidCallback) (ev : Int32) : List (Delivery I V) :=
  invokeVoid callback ev

/-- `noop_operation<void>::build`. -/
def buildVoid : Sqe := prep .nop

end NoopOperation

/-! ### `timeout.hpp` -/

/-- `details::timeout_base`. -/
structure TimeoutBase where
  ts : KernelTimespec
  flags : UInt32 := 0
  deriving DecidableEq, Repr

/-- `timeout_operation`. -/
structure TimeoutOperation extends TimeoutBase
  deriving DecidableEq, Repr

/-- `-ETIME`. -/
def negEtime : Int32 := -62

namespace TimeoutOperation

def opcode : Opcode := .timeout

def build (op : TimeoutOperation) : Sqe := prep (.timeout op.ts 0 op.flags)

def doCallback (callback : VoidCallback) (ev : Int32) : List (Delivery I V) :=
  -- not an error for pure timeout
  let ev := if ev = negEtime then 0 else ev
  invokeVoid callback ev

end TimeoutOperation

/-- `multishot_timeout_operation`. -/
structure MultishotTimeoutOperation extends TimeoutBase where
  count : UInt64 := 1
  deriving DecidableEq, Repr

/-- `IORING_TIMEOUT_MULTISHOT`. -/
def timeoutMultishot : UInt32 := 64

namespace MultishotTimeoutOperation

def opcode : Opcode := .timeout

/-- `build` also sets the flag in the operation. -/
def build (op : MultishotTimeoutOperation) : Sqe :=
  let flags := op.flags ||| timeoutMultishot
  prep (.timeout op.ts op.count.toUInt32 flags)

def doCallback (ev : Int32) (cqeFlags : UInt32) : List (Delivery I V) :=
  let ev := if ev = negEtime then 0 else ev
  if ev = 0 then [.value (.multishotTimeout (more cqeFlags))] else [invokeFail ev]

end MultishotTimeoutOperation

/-- `timeout_cancel_operation`; `id` is the `user_data` of the target. -/
structure TimeoutCancelOperation where
  id : UInt64 := 0
  deriving DecidableEq, Repr

namespace TimeoutCancelOperation

def opcode : Opcode := .timeoutRemove

def build (op : TimeoutCancelOperation) : Sqe := prep (.timeoutRemove op.id 0)

def doCallback (callback : VoidCallback) (ev : Int32) : List (Delivery I V) :=
  invokeVoid callback ev

/-- `timeout_cancel_operation<void>::build`. -/
def buildVoid (op : TimeoutCancelOperation) : Sqe := prep (.timeoutRemove op.id 0)

end TimeoutCancelOperation

/-! ### `futex.hpp` -/

/-- `details::futex_operation_base`. -/
structure FutexOperationBase where
  futexAddr : UInt64 := 0
  mask : UInt32 := 0xffffffff
  isPrivate : Bool := true
  deriving DecidableEq, Repr

/-- `details::build_futex2_flags`. -/
def buildFutex2Flags (isPrivate : Bool) : UInt32 := (if isPrivate then 128 else 0) ||| 2

/-- `futex_wait_operation`. -/
structure FutexWaitOperation extends FutexOperationBase where
  lastValue : UInt32 := 0
  deriving DecidableEq, Repr

namespace FutexWaitOperation

def opcode : Opcode := .futexWait

def build (op : FutexWaitOperation) : Sqe :=
  prep (.futexWait op.futexAddr op.lastValue.toUInt64 op.mask.toUInt64
    (buildFutex2Flags op.isPrivate) 0)

def doCallback (callback : VoidCallback) (ev : Int32) : List (Delivery I V) :=
  invokeVoid callback ev

end FutexWaitOperation

/-- `futex_wake_operation`. -/
structure FutexWakeOperation extends FutexOperationBase where
  wakeups : UInt64 := 1
  deriving DecidableEq, Repr

namespace FutexWakeOperation

def opcode : Opcode := .futexWake

def build (op : FutexWakeOperation) : Sqe :=
  prep (.futexWake op.futexAddr op.wakeups op.mask.toUInt64 (buildFutex2Flags op.isPrivate) 0)

def doCallback (ev : Int32) : List (Delivery I V) := invokeValue ev (.size ev.toInt.toNat)

end FutexWakeOperation

/-- `futex_waitv_operation`. -/
structure FutexWaitvOperation where
  waitvArgs : List FutexWaitv := []
  deriving DecidableEq, Repr

namespace FutexWaitvOperation

def opcode : Opcode := .futexWaitv

def build (op : FutexWaitvOperation) : Sqe :=
  prep (.futexWaitv op.waitvArgs (UInt32.ofNat op.waitvArgs.length) 0)

def doCallback (ev : Int32) : List (Delivery I V) := invokeValue ev (.size ev.toInt.toNat)

end FutexWaitvOperation

/-! ### `cancel.hpp` -/

/-- How a program is compiled: whether `IOUXX_ASSERT` is enabled, and whether the compiler controls the
access to members (not with `-fno-access-control`). -/
structure BuildConfig where
  asserts : Bool := true
  accessControl : Bool := true
  deriving DecidableEq, Repr

/-- The bases of the cancel operations, and the operations. -/
inductive CancelClass
  | operationBase
  | cancelIdBase
  | cancelFdBase
  | cancelBase
  | cancelOperation
  | cancelFdOperation
  deriving DecidableEq, Repr

/-- The members that their setters name. -/
inductive CancelMember
  | id
  | fd
  | flags
  deriving DecidableEq, Repr

/-- The classes as they are declared. -/
def cancelClasses : Cpp.Access.Classes CancelClass CancelMember where
  bases
    | .cancelOperation => [.operationBase, .cancelBase, .cancelIdBase]
    | .cancelFdOperation => [.operationBase, .cancelBase, .cancelFdBase]
    | _ => []
  declares
    | .cancelIdBase, .id => some .isProtected
    | .cancelFdBase, .fd => some .isProtected
    | .cancelBase, .flags => some .isProtected
    | _, _ => none

/-- A setter of the base `site` that names these members can be called on an object of `self`. -/
def BuildConfig.compiles (cfg : BuildConfig) (site self : CancelClass) (names : List CancelMember) :
    Bool :=
  !cfg.accessControl || names.all fun m => Cpp.Access.accessible cancelClasses site self m

/-- `details::cancel_base`. -/
structure CancelBase where
  flags : UInt32 := asyncCancelUserdata
  deriving DecidableEq, Repr

/-- `cancel_base::cancel_one`. -/
def CancelBase.cancelOne (op : CancelBase) : CancelBase := ⟨op.flags &&& ~~~asyncCancelAll⟩

/-- `cancel_base::cancel_all`. -/
def CancelBase.cancelAll (op : CancelBase) : CancelBase := ⟨op.flags ||| asyncCancelAll⟩

/-- The body of both `do_callback`: the number of operations that were cancelled. -/
def CancelBase.doCallback (op : CancelBase) (ev : Int32) : List (Delivery I V) :=
  let (cancelledCount, ev) :=
    if ev ≥ 0 then (if op.flags &&& asyncCancelAll ≠ 0 then ev.toInt.toNat else 1, 0) else (0, ev)
  if ev = 0 then [.value (.size cancelledCount)] else [invokeFail ev]

/-- `cancel_operation`, with `details::cancel_id_base`. -/
structure CancelOperation extends CancelBase where
  id : UInt64 := 0
  deriving DecidableEq, Repr

namespace CancelOperation

def opcode : Opcode := .asyncCancel

/-- `cancel_id_base::target`. -/
def target (op : CancelOperation) (identifier : UInt64) : CancelOperation :=
  { op with id := identifier }

def build (op : CancelOperation) : Sqe := prep (.cancel op.id op.flags)

def doCallback (op : CancelOperation) (ev : Int32) : List (Delivery I V) :=
  op.toCancelBase.doCallback ev

/-- `cancel_operation<void>::build`. -/
def buildVoid (op : CancelOperation) : Sqe := prep (.cancel op.id op.flags)

end CancelOperation

/-- `cancel_fd_operation`, with `details::cancel_fd_base`. -/
structure CancelFdOperation extends CancelBase where
  fd : Int32 := -1
  deriving DecidableEq, Repr

namespace CancelFdOperation

def opcode : Opcode := .asyncCancel

/-- `cancel_fd_base::target(file)`. -/
def targetFile (op : CancelFdOperation) (file : File) : CancelFdOperation :=
  ⟨⟨op.flags &&& ~~~asyncCancelFdFixed⟩, file.nativeHandle⟩

/-- `cancel_fd_base::target(fixed_file)`. -/
def targetFixedFile (op : CancelFdOperation) (file : FixedFile) : CancelFdOperation :=
  ⟨⟨op.flags ||| asyncCancelFdFixed⟩, file.index⟩

/-- The overload of `target` for a handle; `none` where the call does not compile. -/
def target (cfg : BuildConfig) (op : CancelFdOperation) (h : Handle) : Option CancelFdOperation :=
  if cfg.compiles .cancelFdBase .cancelFdOperation [.fd, .flags] then
    match h with
    | .file f => some (op.targetFile f)
    | .socket s => some (op.targetFile s.toFile)
    | .connection c => some (op.targetFile c.toFile)
    | .fixedFile f => some (op.targetFixedFile f)
    | .fixedSocket s => some (op.targetFixedFile s.toFixedFile)
    | .fixedConnection c => some (op.targetFixedFile c.toFixedFile)
  else none

def build (op : CancelFdOperation) : Sqe := prep (.cancelFd op.fd op.flags)

def doCallback (op : CancelFdOperation) (ev : Int32) : List (Delivery I V) :=
  op.toCancelBase.doCallback ev

/-- `cancel_fd_operation<void>::build`. -/
def buildVoid (op : CancelFdOperation) : Sqe := prep (.cancelFd op.fd op.flags)

end CancelFdOperation

end Iouxx.Ops
