import Iouxx.Ops.Callback

/-!
# Files and directories (`openclose.hpp`, `fileio.hpp`, `poll.hpp`, `directory.hpp`)

A class is the structure of its members; `opcode`, `build` and `doCallback` are what the class
declares and implements.
-/

namespace Iouxx.Ops

open Iouxx.Cpp.Error Iouxx.Utility Iouxx.Uring

variable {I V : Type} (prep : Prep → Sqe)

/-! ### `openclose.hpp` -/

/-- `file_open_operation_base`. -/
structure FileOpenOperationBase where
  pathstr : String := ""
  dirfd : Int32 := currentDirectory.nativeHandle
  how : OpenHow := ⟨0, 0, 0⟩
  deriving DecidableEq, Repr

/-- `O_NONBLOCK`. -/
def oNonblock : UInt64 := 0x800

/-- `O_CLOEXEC`. -/
def oCloexec : UInt64 := 0x80000

/-- `O_DIRECTORY`. -/
def oDirectory : UInt64 := 0x10000

/-- `file_open_operation`. -/
structure FileOpenOperation extends FileOpenOperationBase
  deriving DecidableEq, Repr

namespace FileOpenOperation

def opcode : Opcode := .openat2

/-- `build` also sets the flags in the operation. -/
def build (op : FileOpenOperation) : Sqe :=
  let how := { op.how with flags := op.how.flags ||| (oNonblock ||| oCloexec) }
  prep (.openat2 op.dirfd op.pathstr how)

def doCallback (ev : Int32) : List (Delivery I V) := invokeValue ev (.file ⟨ev⟩)

end FileOpenOperation

/-- `alloc_index`: `IORING_FILE_INDEX_ALLOC`. -/
def allocIndex : Int32 := -1

/-- `fixed_file_open_operation`. -/
structure FixedFileOpenOperation extends FileOpenOperationBase where
  fileIndex : Int32 := allocIndex
  deriving DecidableEq, Repr

namespace FixedFileOpenOperation

def opcode : Opcode := .openat2

/-- `build` also sets the flags in the operation. -/
def build (op : FixedFileOpenOperation) : Sqe :=
  -- O_CLOEXEC is not compatible with fixed file
  let how := { op.how with flags := (op.how.flags ||| oNonblock) &&& ~~~oCloexec }
  prep (.openat2Direct op.dirfd op.pathstr how op.fileIndex.toUInt32)

def doCallback (ev : Int32) : List (Delivery I V) := invokeValue ev (.fixedFile ⟨ev⟩)

end FixedFileOpenOperation

/-- `directory_open_operation`. -/
structure DirectoryOpenOperation extends FileOpenOperationBase
  deriving DecidableEq, Repr

namespace DirectoryOpenOperation

def opcode : Opcode := .openat2

/-- `build` also sets the flags in the operation. -/
def build (op : DirectoryOpenOperation) : Sqe :=
  let how := { op.how with flags := op.how.flags ||| (oDirectory ||| oNonblock) }
  prep (.openat2 op.dirfd op.pathstr how)

def doCallback (ev : Int32) : List (Delivery I V) := invokeValue ev (.directory ⟨⟨ev⟩⟩)

end DirectoryOpenOperation

/-- `build` of `file_close_operation` and `socket_close_operation`. -/
def buildClose (target : Target) : Sqe :=
  if target.isFixed then prep (.closeDirect target.fd.toUInt32) else prep (.close target.fd)

/-- `file_close_operation`. -/
structure FileCloseOperation extends Target
  deriving DecidableEq, Repr

namespace FileCloseOperation

def opcode : Opcode := .close

def build (op : FileCloseOperation) : Sqe := buildClose prep op.toTarget

def doCallback (callback : VoidCallback) (ev : Int32) : List (Delivery I V) :=
  invokeVoid callback ev

end FileCloseOperation

/-- `fixed_file_register_operation`. -/
structure FixedFileRegisterOperation where
  fd : Int32 := -1
  off : Int32 := allocIndex
  deriving DecidableEq, Repr

namespace FixedFileRegisterOperation

def opcode : Opcode := .filesUpdate

def build (op : FixedFileRegisterOperation) : Sqe := prep (.filesUpdate [op.fd] 1 op.off)

/-- The member `fd` holds the index that was allocated when the callback is invoked. -/
def doCallback (op : FixedFileRegisterOperation) (ev : Int32) : List (Delivery I V) :=
  invokeValue ev (.fixedFile ⟨if op.off = allocIndex then op.fd else op.off⟩)

end FixedFileRegisterOperation

/-- `fixed_file_register_batch_operation`; `fds` is the memory of the span. -/
structure FixedFileRegisterBatchOperation where
  fds : List Int32 := []
  off : Int32 := allocIndex
  deriving DecidableEq, Repr

namespace FixedFileRegisterBatchOperation

def opcode : Opcode := .filesUpdate

def build (op : FixedFileRegisterBatchOperation) : Sqe :=
  prep (.filesUpdate op.fds (UInt32.ofNat op.fds.length) op.off)

/-- The loop of `do_callback` over the span. -/
def writeIndexes (fds : List Int32) (off : Int32) : List Int32 :=
  (List.range fds.length).foldl (fun fds i => fds.set i (off + Int32.ofNat i)) fds

/-- What `do_callback` leaves in the span. -/
def afterCallback (op : FixedFileRegisterBatchOperation) (ev : Int32) : List Int32 :=
  if ev ≥ 0 then (if op.off ≠ allocIndex then writeIndexes op.fds op.off else op.fds) else op.fds

def doCallback (op : FixedFileRegisterBatchOperation) (ev : Int32) : List (Delivery I V) :=
  invokeValue ev (.registerBatch ev.toInt.toNat (op.afterCallback ev))

end FixedFileRegisterBatchOperation

/-- `fixed_file_install_operation`. -/
structure FixedFileInstallOperation where
  fileIndex : Int32 := -1
  noCloexecFlag : Bool := false
  deriving DecidableEq, Repr

namespace FixedFileInstallOperation

def opcode : Opcode := .filesUpdate

/-- The flag is `IORING_FIXED_FD_NO_CLOEXEC`. -/
def build (op : FixedFileInstallOperation) : Sqe :=
  prep (.fixedFdInstall op.fileIndex (if op.noCloexecFlag then 1 else 0))

def doCallback (ev : Int32) : List (Delivery I V) := invokeValue ev (.file ⟨ev⟩)

end FixedFileInstallOperation

/-! ### `fileio.hpp` -/

/-- `details::file_read_buffer_operation_base` and `details::file_write_buffer_operation_base`. -/
structure FileBufferOperationBase where
  buf : UInt64 := 0
  len : UInt64 := 0
  deriving DecidableEq, Repr

/-- `details::file_read_write_operation_base`. -/
structure FileReadWriteOperationBase extends Target where
  off : UInt64 := 0
  deriving DecidableEq, Repr

/-- `details::rw_flag_base` and `details::vectored_read_base` or `details::vectored_write_base`. -/
structure VectoredBase where
  flags : Int32 := 0
  iovecs : List Iovec := []
  deriving DecidableEq, Repr

/-- `details::fixed_buffer_base`. -/
structure FixedBufferBase where
  bufIndex : Int32 := -1
  deriving DecidableEq, Repr

/-- `file_read_operation`. -/
structure FileReadOperation extends FileReadWriteOperationBase, FileBufferOperationBase
  deriving DecidableEq, Repr

namespace FileReadOperation

def opcode : Opcode := .read

def build (op : FileReadOperation) : Sqe :=
  (prep (.read op.fd op.buf op.len.toUInt32 op.off)).markFixed op.isFixed

def doCallback (ev : Int32) : List (Delivery I V) := invokeValue ev (.ptrdiff ev.toInt)

end FileReadOperation

/-- `file_read_fixed_operation`. -/
structure FileReadFixedOperation extends FileReadWriteOperationBase, FixedBufferBase,
    FileBufferOperationBase
  deriving DecidableEq, Repr

namespace FileReadFixedOperation

def opcode : Opcode := .readFixed

def build (op : FileReadFixedOperation) : Sqe :=
  (prep (.readFixed op.fd op.buf op.len.toUInt32 op.off op.bufIndex)).markFixed op.isFixed

def doCallback (ev : Int32) : List (Delivery I V) := invokeValue ev (.ptrdiff ev.toInt)

end FileReadFixedOperation

/-- `file_readv::operation`. -/
structure FileReadv extends FileReadWriteOperationBase, VectoredBase
  deriving DecidableEq, Repr

namespace FileReadv

def opcode : Opcode := .readv

def build (op : FileReadv) : Sqe :=
  (prep (.readv2 op.fd op.iovecs (UInt32.ofNat op.iovecs.length) op.off op.flags)).markFixed
    op.isFixed

def doCallback (ev : Int32) : List (Delivery I V) := invokeValue ev (.ptrdiff ev.toInt)

end FileReadv

/-- `file_readv_fixed::operation`. -/
structure FileReadvFixed extends FileReadWriteOperationBase, FixedBufferBase, VectoredBase
  deriving DecidableEq, Repr

namespace FileReadvFixed

def opcode : Opcode := .readvFixed

def build (op : FileReadvFixed) : Sqe :=
  (prep (.readvFixed op.fd op.iovecs (UInt32.ofNat op.iovecs.length) op.off op.flags
    op.bufIndex)).markFixed op.isFixed

def doCallback (ev : Int32) : List (Delivery I V) := invokeValue ev (.ptrdiff ev.toInt)

end FileReadvFixed

/-- `file_write_operation`. -/
structure FileWriteOperation extends FileReadWriteOperationBase, FileBufferOperationBase
  deriving DecidableEq, Repr

namespace FileWriteOperation

def opcode : Opcode := .write

def build (op : FileWriteOperation) : Sqe :=
  (prep (.write op.fd op.buf op.len.toUInt32 op.off)).markFixed op.isFixed

def doCallback (ev : Int32) : List (Delivery I V) := invokeValue ev (.ptrdiff ev.toInt)

end FileWriteOperation

/-- `file_write_fixed_operation`. -/
structure FileWriteFixedOperation extends FileReadWriteOperationBase, FixedBufferBase,
    FileBufferOperationBase
  deriving DecidableEq, Repr

namespace FileWriteFixedOperation

def opcode : Opcode := .writeFixed

def build (op : FileWriteFixedOperation) : Sqe :=
  (prep (.writeFixed op.fd op.buf op.len.toUInt32 op.off op.bufIndex)).markFixed op.isFixed

def doCallback (ev : Int32) : List (Delivery I V) := invokeValue ev (.ptrdiff ev.toInt)

end FileWriteFixedOperation

/-- `file_writev::operation`. -/
structure FileWritev extends FileReadWriteOperationBase, VectoredBase
  deriving DecidableEq, Repr

namespace FileWritev

def opcode : Opcode := .writev

def build (op : FileWritev) : Sqe :=
  (prep (.writev2 op.fd op.iovecs (UInt32.ofNat op.iovecs.length) op.off op.flags)).markFixed
    op.isFixed

def doCallback (ev : Int32) : List (Delivery I V) := invokeValue ev (.ptrdiff ev.toInt)

end FileWritev

/-- `file_writev_fixed::operation`. -/
structure FileWritevFixed extends FileReadWriteOperationBase, FixedBufferBase, VectoredBase
  deriving DecidableEq, Repr

namespace FileWritevFixed

def opcode : Opcode := .writevFixed

def build (op : FileWritevFixed) : Sqe :=
  (prep (.writevFixed op.fd op.iovecs (UInt32.ofNat op.iovecs.length) op.off op.flags
    op.bufIndex)).markFixed op.isFixed

def doCallback (ev : Int32) : List (Delivery I V) := invokeValue ev (.ptrdiff ev.toInt)

end FileWritevFixed

/-! ### `poll.hpp` -/

/-- `details::poll_base` and `details::poll_event_base`. -/
structure PollBase extends Target where
  mask : UInt32 := 0
  deriving DecidableEq, Repr

/-- `file_poll_add_operation`. -/
structure FilePollAddOperation extends PollBase
  deriving DecidableEq, Repr

namespace FilePollAddOperation

def opcode : Opcode := .pollAdd

def build (op : FilePollAddOperation) : Sqe :=
  (prep (.pollAdd op.fd op.mask)).markFixed op.isFixed

def doCallback (ev : Int32) : List (Delivery I V) := invokeValue ev (.pollEvent ev.toUInt32)

end FilePollAddOperation

/-- `file_poll_multishot_operation`. -/
structure FilePollMultishotOperation extends PollBase
  deriving DecidableEq, Repr

namespace FilePollMultishotOperation

def opcode : Opcode := .pollAdd

def build (op : FilePollMultishotOperation) : Sqe :=
  (prep (.pollMultishot op.fd op.mask)).markFixed op.isFixed

def doCallback (ev : Int32) (cqeFlags : UInt32) : List (Delivery I V) :=
  invokeValue ev (.multishotPoll ev.toUInt32 (more cqeFlags))

end FilePollMultishotOperation

/-- `file_poll_remove_operation`; `id` is the `user_data` of the target. -/
structure FilePollRemoveOperation where
  id : UInt64 := 0
  deriving DecidableEq, Repr

namespace FilePollRemoveOperation

def opcode : Opcode := .pollRemove

def build (op : FilePollRemoveOperation) : Sqe := prep (.pollRemove op.id)

def doCallback (callback : VoidCallback) (ev : Int32) : List (Delivery I V) :=
  invokeVoid callback ev

end FilePollRemoveOperation

/-- `IORING_POLL_UPDATE_EVENTS`. -/
def pollUpdateEvents : UInt32 := 2

/-- `file_poll_update_operation`. -/
structure FilePollUpdateOperation where
  mask : UInt32 := 0
  id : UInt64 := 0
  flags : UInt32 := pollUpdateEvents
  deriving DecidableEq, Repr

namespace FilePollUpdateOperation

def opcode : Opcode := .pollRemove

def build (op : FilePollUpdateOperation) : Sqe := prep (.pollUpdate op.id 0 op.mask op.flags)

def doCallback (callback : VoidCallback) (ev : Int32) : List (Delivery I V) :=
  invokeVoid callback ev

end FilePollUpdateOperation

/-! ### `directory.hpp` -/

/-- `details::single_path_directory_operation_base`. -/
structure SinglePathDirectoryOperationBase where
  pathstr : String := ""
  dirfd : Int32 := currentDirectory.nativeHandle
  deriving DecidableEq, Repr

/-- `details::dual_path_directory_operation_base`. -/
structure DualPathDirectoryOperationBase where
  oldpathstr : String := ""
  olddirfd : Int32 := currentDirectory.nativeHandle
  newpathstr : String := ""
  newdirfd : Int32 := currentDirectory.nativeHandle
  deriving DecidableEq, Repr

/-- `unlink_operation`. -/
structure UnlinkOperation extends SinglePathDirectoryOperationBase where
  unlinkFlags : Int32 := 0
  deriving DecidableEq, Repr

namespace UnlinkOperation

def opcode : Opcode := .unlinkat

def build (op : UnlinkOperation) : Sqe := prep (.unlinkat op.dirfd op.pathstr op.unlinkFlags)

def doCallback (callback : VoidCallback) (ev : Int32) : List (Delivery I V) :=
  invokeVoid callback ev

end UnlinkOperation

/-- `rename_operation`. -/
structure RenameOperation extends DualPathDirectoryOperationBase where
  renameFlags : UInt32 := 0
  deriving DecidableEq, Repr

namespace RenameOperation

def opcode : Opcode := .renameat

def build (op : RenameOperation) : Sqe :=
  prep (.renameat op.olddirfd op.oldpathstr op.newdirfd op.newpathstr op.renameFlags)

def doCallback (callback : VoidCallback) (ev : Int32) : List (Delivery I V) :=
  invokeVoid callback ev

end RenameOperation

/-- `mkdir_operation`. -/
structure MkdirOperation extends SinglePathDirectoryOperationBase where
  dirMode : UInt32 := 0
  deriving DecidableEq, Repr

namespace MkdirOperation

def opcode : Opcode := .mkdirat

def build (op : MkdirOperation) : Sqe := prep (.mkdirat op.dirfd op.pathstr op.dirMode)

def doCallback (callback : VoidCallback) (ev : Int32) : List (Delivery I V) :=
  invokeVoid callback ev

end MkdirOperation

/-- `symlink_operation`. -/
structure SymlinkOperation where
  targetstr : String := ""
  linkpathstr : String := ""
  newdirfd : Int32 := currentDirectory.nativeHandle
  deriving DecidableEq, Repr

namespace SymlinkOperation

def opcode : Opcode := .symlinkat

def build (op : SymlinkOperation) : Sqe :=
  prep (.symlinkat op.targetstr op.newdirfd op.linkpathstr)

def doCallback (callback : VoidCallback) (ev : Int32) : List (Delivery I V) :=
  invokeVoid callback ev

end SymlinkOperation

/-- `link_operation`. -/
structure LinkOperation extends DualPathDirectoryOperationBase where
  linkFlags : Int32 := 0
  deriving DecidableEq, Repr

namespace LinkOperation

def opcode : Opcode := .linkat

def build (op : LinkOperation) : Sqe :=
  prep (.linkat op.olddirfd op.oldpathstr op.newdirfd op.newpathstr op.linkFlags)

def doCallback (callback : VoidCallback) (ev : Int32) : List (Delivery I V) :=
  invokeVoid callback ev

end LinkOperation

end Iouxx.Ops
