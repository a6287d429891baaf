import Iouxx.Utility
import Mathlib.Data.Nat.Notation

/-!
# Submission queue entries (liburing)

The `build` of an operation calls one `io_uring_prep_*` function and may then change the entry. Such a
call is a `Prep`, with the arguments in the order of the function; a pointer argument is what it
points to, but for the addresses of buffers. The functions are not part of the repository: entries
are made by any `prep : Prep → Sqe`, and what is documented of it is said by `WritesOpcode`,
`WritesHandle`, `WritesCancel`, `WritesLength` and `WritesFileIndex`; `documented` is such a `prep`, but
for the slots of direct descriptors, which `documentedSlots` has as well.
-/

namespace Iouxx.Uring

open Iouxx.Utility

/-- `io_uring_op`, as far as the operations of the library use it. -/
inductive Opcode
  | nop | readv | writev | readFixed | writeFixed | pollAdd | pollRemove | sendmsg | timeout
  | timeoutRemove | accept | asyncCancel | connect | close | filesUpdate | read | write | send | recv
  | openat2 | shutdown | renameat | unlinkat | mkdirat | symlinkat | linkat | socket | uringCmd
  | sendZc | sendmsgZc | futexWait | futexWake | futexWaitv | fixedFdInstall | bind | listen
  | readvFixed | writevFixed
  deriving DecidableEq, Repr

/-- `IOSQE_FIXED_FILE`. -/
def iosqeFixedFile : UInt8 := 1

/-- `IORING_ASYNC_CANCEL_ALL`. -/
def asyncCancelAll : UInt32 := 1

/-- `IORING_ASYNC_CANCEL_FD`. -/
def asyncCancelFd : UInt32 := 2

/-- `IORING_ASYNC_CANCEL_FD_FIXED`. -/
def asyncCancelFdFixed : UInt32 := 8

/-- `IORING_ASYNC_CANCEL_USERDATA`. -/
def asyncCancelUserdata : UInt32 := 16

/-- `IORING_ASYNC_CANCEL_OP`. -/
def asyncCancelOp : UInt32 := 32

/-- `open_how`. -/
structure OpenHow where
  flags : UInt64
  mode : UInt64
  resolve : UInt64
  deriving DecidableEq, Repr

/-- `__kernel_timespec`. -/
structure KernelTimespec where
  tvSec : Int64
  tvNsec : Int64
  deriving DecidableEq, Repr

/-- `msghdr`. -/
structure Msghdr where
  msgName : UInt64
  msgNamelen : UInt32
  msgIov : UInt64
  msgIovlen : UInt64
  msgControl : UInt64
  msgControllen : UInt64
  msgFlags : Int32
  deriving DecidableEq, Repr

/-- `futex_waitv`. -/
structure FutexWaitv where
  val : UInt64
  uaddr : UInt64
  flags : UInt32
  deriving DecidableEq, Repr

/-- A call of an `io_uring_prep_*` function. -/
inductive Prep
  | nop
  | openat2 (dfd : Int32) (path : String) (how : OpenHow)
  | openat2Direct (dfd : Int32) (path : String) (how : OpenHow) (fileIndex : UInt32)
  | close (fd : Int32)
  | closeDirect (fileIndex : UInt32)
  | filesUpdate (fds : List Int32) (nrFds : UInt32) (offset : Int32)
  | fixedFdInstall (fd : Int32) (flags : UInt32)
  | read (fd : Int32) (buf : UInt64) (nbytes : UInt32) (offset : UInt64)
  | readFixed (fd : Int32) (buf : UInt64) (nbytes : UInt32) (offset : UInt64) (bufIndex : Int32)
  | readv2 (fd : Int32) (iovecs : List Iovec) (nrVecs : UInt32) (offset : UInt64) (flags : Int32)
  | readvFixed (fd : Int32) (iovecs : List Iovec) (nrVecs : UInt32) (offset : UInt64)
    (flags bufIndex : Int32)
  | write (fd : Int32) (buf : UInt64) (nbytes : UInt32) (offset : UInt64)
  | writeFixed (fd : Int32) (buf : UInt64) (nbytes : UInt32) (offset : UInt64) (bufIndex : Int32)
  | writev2 (fd : Int32) (iovecs : List Iovec) (nrVecs : UInt32) (offset : UInt64) (flags : Int32)
  | writevFixed (fd : Int32) (iovecs : List Iovec) (nrVecs : UInt32) (offset : UInt64)
    (flags bufIndex : Int32)
  | pollAdd (fd : Int32) (pollMask : UInt32)
  | pollMultishot (fd : Int32) (pollMask : UInt32)
  | pollRemove (userData : UInt64)
  | pollUpdate (oldUserData newUserData : UInt64) (pollMask flags : UInt32)
  | unlinkat (dfd : Int32) (path : String) (flags : Int32)
  | renameat (olddfd : Int32) (oldpath : String) (newdfd : Int32) (newpath : String) (flags : UInt32)
  | mkdirat (dfd : Int32) (path : String) (mode : UInt32)
  | symlinkat (target : String) (newdirfd : Int32) (linkpath : String)
  | linkat (olddfd : Int32) (oldpath : String) (newdfd : Int32) (newpath : String) (flags : Int32)
  | timeout (ts : KernelTimespec) (count flags : UInt32)
  | timeoutRemove (userData : UInt64) (flags : UInt32)
  | cancel (userData : UInt64) (flags : UInt32)
  | cancelFd (fd : Int32) (flags : UInt32)
  | futexWait (futex val mask : UInt64) (futexFlags flags : UInt32)
  | futexWake (futex val mask : UInt64) (futexFlags flags : UInt32)
  | futexWaitv (futexv : List FutexWaitv) (nrFutex flags : UInt32)
  | socket (domain type protocol : Int32) (flags : UInt32)
  | socketDirect (domain type protocol : Int32) (fileIndex flags : UInt32)
  | bind (fd : Int32) (addr : List UInt8) (addrlen : UInt32)
  | listen (fd backlog : Int32)
  | connect (fd : Int32) (addr : List UInt8) (addrlen : UInt32)
  | accept (fd : Int32) (addr : Option (List UInt8)) (addrlen : Option UInt32) (flags : Int32)
  | acceptDirect (fd : Int32) (addr : Option (List UInt8)) (addrlen : Option UInt32) (flags : Int32)
    (fileIndex : UInt32)
  | multishotAccept (fd : Int32) (addr : Option (List UInt8)) (addrlen : Option UInt32)
    (flags : Int32)
  | multishotAcceptDirect (fd : Int32) (addr : Option (List UInt8)) (addrlen : Option UInt32)
    (flags : Int32)
  | shutdown (fd how : Int32)
  | send (sockfd : Int32) (buf len : UInt64) (flags : Int32)
  | sendZc (sockfd : Int32) (buf len : UInt64) (flags : Int32) (zcFlags : UInt32)
  | sendmsg (fd : Int32) (msg : Msghdr) (flags : UInt32)
  | sendmsgZc (fd : Int32) (msg : Msghdr) (flags : UInt32)
  | recv (sockfd : Int32) (buf len : UInt64) (flags : Int32)
  | recvMultishot (sockfd : Int32) (buf len : UInt64) (flags : Int32)
  | cmdSock (cmdOp fd level optname : Int32) (optval : List UInt8) (optlen : Int32)
  | cmdGetsockname (fd : Int32) (sockaddr : List UInt8) (sockaddrLen : UInt32) (peer : Int32)
  deriving DecidableEq, Repr

/-- `io_uring_sqe`, as far as it is read or changed; `fds` is the array that `addr` points to. -/
structure Sqe where
  opcode : Opcode
  flags : UInt8
  ioprio : UInt16
  fd : Int32
  off : UInt64
  addr : UInt64
  len : UInt32
  opFlags : UInt32
  bufIndex : UInt16
  fileIndex : UInt32
  fds : List Int32
  deriving DecidableEq, Repr

/-- `if (is_fixed) sqe->flags |= IOSQE_FIXED_FILE`. -/
def Sqe.markFixed (sqe : Sqe) (isFixed : Bool) : Sqe :=
  if isFixed then { sqe with flags := sqe.flags ||| iosqeFixedFile } else sqe

@[simp] theorem Sqe.opcode_markFixed (sqe : Sqe) (isFixed : Bool) :
    (sqe.markFixed isFixed).opcode = sqe.opcode := by
  cases isFixed <;> rfl

/-! ### What is documented -/

/-- The opcode that a function is documented to write. -/
def Prep.opcode : Prep → Opcode
  | nop => .nop
  | openat2 .. | openat2Direct .. => .openat2
  | close _ | closeDirect _ => .close
  | filesUpdate .. => .filesUpdate
  | fixedFdInstall .. => .fixedFdInstall
  | read .. => .read
  | readFixed .. => .readFixed
  | readv2 .. => .readv
  | readvFixed .. => .readvFixed
  | write .. => .write
  | writeFixed .. => .writeFixed
  | writev2 .. => .writev
  | writevFixed .. => .writevFixed
  | pollAdd .. | pollMultishot .. => .pollAdd
  | pollRemove _ | pollUpdate .. => .pollRemove
  | unlinkat .. => .unlinkat
  | renameat .. => .renameat
  | mkdirat .. => .mkdirat
  | symlinkat .. => .symlinkat
  | linkat .. => .linkat
  | timeout .. => .timeout
  | timeoutRemove .. => .timeoutRemove
  | cancel .. | cancelFd .. => .asyncCancel
  | futexWait .. => .futexWait
  | futexWake .. => .futexWake
  | futexWaitv .. => .futexWaitv
  | socket .. | socketDirect .. => .socket
  | bind .. => .bind
  | listen .. => .listen
  | connect .. => .connect
  | accept .. | acceptDirect .. | multishotAccept .. | multishotAcceptDirect .. => .accept
  | shutdown .. => .shutdown
  | send .. => .send
  | sendZc .. => .sendZc
  | sendmsg .. => .sendmsg
  | sendmsgZc .. => .sendmsgZc
  | recv .. | recvMultishot .. => .recv
  | cmdSock .. | cmdGetsockname .. => .uringCmd

/-- The file descriptor among the arguments of a function. -/
def Prep.fd? : Prep → Option Int32
  | close fd | fixedFdInstall fd _ | read fd .. | readFixed fd .. | readv2 fd .. | readvFixed fd ..
  | write fd .. | writeFixed fd .. | writev2 fd .. | writevFixed fd .. | pollAdd fd _
  | pollMultishot fd _ | cancelFd fd _ | bind fd .. | listen fd _ | connect fd .. | accept fd ..
  | acceptDirect fd .. | multishotAccept fd .. | multishotAcceptDirect fd .. | shutdown fd _
  | send fd .. | sendZc fd .. | sendmsg fd .. | sendmsgZc fd .. | recv fd .. | recvMultishot fd ..
  | cmdSock _ fd .. | cmdGetsockname fd .. => some fd
  | _ => none

/-- **How the functions write the opcode.** -/
def WritesOpcode (prep : Prep → Sqe) : Prop := ∀ p, (prep p).opcode = p.opcode

/-- **How the functions write descriptors**: a descriptor goes to `fd`, no flags are set but by
`io_uring_prep_fixed_fd_install`, a direct descriptor to close goes to `file_index` with one added,
and the descriptors to register are read through `addr`. -/
structure WritesHandle (prep : Prep → Sqe) : Prop where
  fd : ∀ p fd, p.fd? = some fd → (prep p).fd = fd
  flags : ∀ p, (∀ fd flags, p ≠ .fixedFdInstall fd flags) → (prep p).flags = 0
  fixedFdInstall : ∀ fd flags, (prep (.fixedFdInstall fd flags)).flags = iosqeFixedFile
  close : ∀ fd, (prep (.close fd)).fileIndex = 0
  closeDirect : ∀ i, (prep (.closeDirect i)).fd = 0 ∧ (prep (.closeDirect i)).fileIndex = i + 1
  filesUpdate : ∀ fds n offset, (prep (.filesUpdate fds n offset)).fds = fds

/-- **How the functions write a cancel request**: by `user_data`, or by the descriptor and the key for
it, with `addr` left 0. -/
structure WritesCancel (prep : Prep → Sqe) : Prop where
  cancel : ∀ userData flags, (prep (.cancel userData flags)).addr = userData ∧
    (prep (.cancel userData flags)).opFlags = flags
  cancelFd : ∀ fd flags, (prep (.cancelFd fd flags)).fd = fd ∧
    (prep (.cancelFd fd flags)).addr = 0 ∧
    (prep (.cancelFd fd flags)).opFlags = flags ||| asyncCancelFd

/-- The length among the arguments of a function that reads, writes, sends or receives. -/
def Prep.length? : Prep → Option UInt32
  | read _ _ nbytes _ | readFixed _ _ nbytes .. | write _ _ nbytes _ | writeFixed _ _ nbytes .. =>
    some nbytes
  | send _ _ len _ | sendZc _ _ len .. | recv _ _ len _ | recvMultishot _ _ len _ =>
    some len.toUInt32
  | _ => none

/-- **How the functions write a length**: to `len`, of 32 bits, and the count of a timeout to `off`. -/
structure WritesLength (prep : Prep → Sqe) : Prop where
  length : ∀ p n, p.length? = some n → (prep p).len = n
  count : ∀ ts count flags, (prep (.timeout ts count flags)).off = count.toUInt64

/-- `IORING_FILE_INDEX_ALLOC`. -/
def fileIndexAlloc : UInt32 := 0xFFFFFFFF

/-- The field for the slot of a direct descriptor: the index with one added, and
`IORING_FILE_INDEX_ALLOC` as it is. -/
def slotField (fileIndex : UInt32) : UInt32 :=
  if fileIndex = fileIndexAlloc then fileIndexAlloc else fileIndex + 1

/-- What a function that opens a descriptor writes to `file_index`. -/
def Prep.fileIndex? : Prep → Option UInt32
  | openat2 .. | fixedFdInstall .. | socket .. | accept .. | multishotAccept .. => some 0
  | openat2Direct _ _ _ fileIndex | socketDirect _ _ _ fileIndex _
  | acceptDirect _ _ _ _ fileIndex => some (slotField fileIndex)
  | multishotAcceptDirect .. => some fileIndexAlloc
  | _ => none

/-- **How the functions write the slot of a direct descriptor.** -/
def WritesFileIndex (prep : Prep → Sqe) : Prop :=
  ∀ p fileIndex, p.fileIndex? = some fileIndex → (prep p).fileIndex = fileIndex

/-- The value that a function writes to `fd`. -/
def Prep.fdField : Prep → Int32
  | openat2 dfd .. | openat2Direct dfd .. | unlinkat dfd .. | mkdirat dfd .. => dfd
  | renameat olddfd .. | linkat olddfd .. => olddfd
  | symlinkat _ newdirfd _ => newdirfd
  | socket domain .. | socketDirect domain .. => domain
  | futexWait _ _ _ futexFlags _ | futexWake _ _ _ futexFlags _ => futexFlags.toInt32
  | closeDirect _ | futexWaitv .. => 0
  | p => p.fd?.getD (-1)

/-- **The functions as documented**, in the fields that are read here. -/
def documented (p : Prep) : Sqe where
  opcode := p.opcode
  flags := match p with
    | .fixedFdInstall .. => iosqeFixedFile
    | _ => 0
  ioprio := 0
  fd := p.fdField
  off := match p with
    | .read _ _ _ offset | .readFixed _ _ _ offset _ => offset
    | .write _ _ _ offset | .writeFixed _ _ _ offset _ => offset
    | .timeout _ count _ => count.toUInt64
    | _ => 0
  addr := match p with
    | .cancel userData _ | .pollRemove userData | .timeoutRemove userData _ => userData
    | .read _ buf .. | .readFixed _ buf .. | .write _ buf .. | .writeFixed _ buf .. => buf
    | .send _ buf .. | .sendZc _ buf .. | .recv _ buf .. | .recvMultishot _ buf .. => buf
    | _ => 0
  len := match p with
    | .read _ _ nbytes _ | .readFixed _ _ nbytes .. => nbytes
    | .write _ _ nbytes _ | .writeFixed _ _ nbytes .. => nbytes
    | .send _ _ len _ | .sendZc _ _ len .. => len.toUInt32
    | .recv _ _ len _ | .recvMultishot _ _ len _ => len.toUInt32
    | .filesUpdate _ nrFds _ => nrFds
    | _ => 0
  opFlags := match p with
    | .cancel _ flags => flags
    | .cancelFd _ flags => flags ||| asyncCancelFd
    | _ => 0
  bufIndex := 0
  fileIndex := match p with
    | .closeDirect i => i + 1
    | _ => 0
  fds := match p with
    | .filesUpdate fds .. => fds
    | _ => []

theorem writesOpcode_documented : WritesOpcode documented := fun _ => rfl

theorem writesHandle_documented : WritesHandle documented where
  fd p fd h := by cases p <;> first | exact Option.some.inj h | cases h
  flags p h := by
    cases p with
    | fixedFdInstall fd flags => exact absurd rfl (h fd flags)
    | _ => rfl
  fixedFdInstall _ _ := rfl
  close _ := rfl
  closeDirect _ := ⟨rfl, rfl⟩
  filesUpdate _ _ _ := rfl

theorem writesCancel_documented : WritesCancel documented where
  cancel _ _ := ⟨rfl, rfl⟩
  cancelFd _ _ := ⟨rfl, rfl, rfl⟩

theorem writesLength_documented : WritesLength documented where
  length p n h := by cases p <;> first | exact Option.some.inj h | cases h
  count _ _ _ := rfl

/-- `documented`, and the field `file_index` of the functions that open a descriptor. -/
def documentedSlots (p : Prep) : Sqe :=
  { documented p with fileIndex := p.fileIndex?.getD (documented p).fileIndex }

theorem writesFileIndex_documentedSlots : WritesFileIndex documentedSlots := fun p i h => by
  unfold documentedSlots
  rw [h]
  rfl

theorem writesOpcode_documentedSlots : WritesOpcode documentedSlots := fun _ => rfl

theorem writesCancel_documentedSlots : WritesCancel documentedSlots where
  cancel _ _ := ⟨rfl, rfl⟩
  cancelFd _ _ := ⟨rfl, rfl, rfl⟩

theorem writesHandle_documentedSlots : WritesHandle documentedSlots where
  fd p fd h := writesHandle_documented.fd p fd h
  flags p h := writesHandle_documented.flags p h
  fixedFdInstall _ _ := rfl
  close _ := rfl
  closeDirect _ := ⟨rfl, rfl⟩
  filesUpdate _ _ _ := rfl

end Iouxx.Uring
