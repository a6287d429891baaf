import Iouxx.Ops.Callback
import Iouxx.Ops.File

/-!
# Sockets (`sockprep.hpp`, `connection.hpp`, `sendrecv.hpp`, `sockcmd.hpp`)

A class is the structure of its members; `opcode`, `build` and `doCallback` are what the class
declares and implements. An address is the bytes of the system's address struct; the template
parameters of some classes are the values `SocketInfo` and `SockOpt`.
-/

namespace Iouxx.Ops

open Iouxx.Cpp.Error Iouxx.Utility Iouxx.Uring Iouxx.Ops.SendZc

/-- The parameter `Info` of a class: its domain and `from_system_sockaddr`; `none` is an assertion that
fails. -/
structure SocketInfo (I : Type) where
  domain : Int32
  fromSystemSockaddr : List UInt8 → UInt32 → Option I

/-- The parameter `SockOpt` of a class: the option, and `result` of its value. -/
structure SockOpt (V : Type) where
  level : Int32
  optname : Int32
  result : List UInt8 → V

variable {I V : Type} (prep : Prep → Sqe)

/-! ### `sockprep.hpp` -/

/-- `SOCK_NONBLOCK`. -/
def sockNonblock : Int32 := 0x800

/-- `SOCK_CLOEXEC`. -/
def sockCloexec : Int32 := 0x80000

/-- `socket_open_operation`, with `details::socket_prep_base`. -/
structure SocketOpenOperation extends SocketConfig
  deriving DecidableEq, Repr

namespace SocketOpenOperation

def opcode : Opcode := .socket

def build (op : SocketOpenOperation) : Sqe := prep (.socket op.d (op.t ||| sockCloexec) op.p 0)

def doCallback (op : SocketOpenOperation) (ev : Int32) : List (Delivery I V) :=
  invokeValue ev (.socket ⟨⟨ev⟩, op.toSocketConfig⟩)

end SocketOpenOperation

/-- `fixed_socket_open_operation`, with `details::socket_prep_base`. -/
structure FixedSocketOpenOperation extends SocketConfig where
  fileIndex : Int32 := allocIndex
  deriving DecidableEq, Repr

namespace FixedSocketOpenOperation

def opcode : Opcode := .socket

def build (op : FixedSocketOpenOperation) : Sqe :=
  prep (.socketDirect op.d op.t op.p op.fileIndex.toUInt32 0)

def doCallback (op : FixedSocketOpenOperation) (ev : Int32) : List (Delivery I V) :=
  invokeValue ev (.fixedSocket ⟨⟨ev⟩, op.toSocketConfig⟩)

end FixedSocketOpenOperation

/-- `socket_close_operation`. -/
structure SocketCloseOperation extends Target
  deriving DecidableEq, Repr

namespace SocketCloseOperation

def opcode : Opcode := .close

def build (op : SocketCloseOperation) : Sqe := buildClose prep op.toTarget

def doCallback (callback : VoidCallback) (ev : Int32) : List (Delivery I V) :=
  invokeVoid callback ev

end SocketCloseOperation

/-- `build` of the classes with a `socket_variant`: the call for a socket, and the same call for the
index of a fixed socket with `IOSQE_FIXED_FILE`. -/
def buildVariant (sock : SocketVariant) (call : Int32 → Prep) : Sqe :=
  match sock with
  | .socket s => prep (call s.nativeHandle)
  | .fixedSocket s => (prep (call s.index)).markFixed true

/-- `socket_bind::operation`. -/
structure SocketBind where
  sock : SocketVariant := .socket {}
  sockaddr : List UInt8
  deriving DecidableEq, Repr

namespace SocketBind

def opcode : Opcode := .bind

def build (op : SocketBind) : Sqe :=
  buildVariant prep op.sock fun fd => .bind fd op.sockaddr (UInt32.ofNat op.sockaddr.length)

def doCallback (callback : VoidCallback) (ev : Int32) : List (Delivery I V) :=
  invokeVoid callback ev

end SocketBind

/-! ### `connection.hpp` -/

/-- `socket_listen_operation`. -/
structure SocketListenOperation where
  sock : SocketVariant := .socket {}
  bl : Int32 := 4096
  deriving DecidableEq, Repr

namespace SocketListenOperation

def opcode : Opcode := .listen

def build (op : SocketListenOperation) : Sqe :=
  buildVariant prep op.sock fun fd => .listen fd op.bl

def doCallback (callback : VoidCallback) (ev : Int32) : List (Delivery I V) :=
  invokeVoid callback ev

end SocketListenOperation

/-- `socket_connect::operation`, with `details::peer_socket_info_base`. -/
structure SocketConnect where
  sock : SocketVariant := .socket {}
  sockaddr : List UInt8
  deriving DecidableEq, Repr

namespace SocketConnect

def opcode : Opcode := .connect

def build (op : SocketConnect) : Sqe :=
  buildVariant prep op.sock fun fd => .connect fd op.sockaddr (UInt32.ofNat op.sockaddr.length)

def doCallback (callback : VoidCallback) (ev : Int32) : List (Delivery I V) :=
  invokeVoid callback ev

end SocketConnect

/-- `socket_accept::operation`, with `details::peer_socket_info_base`. -/
structure SocketAccept where
  sock : Socket := {}
  sockaddr : List UInt8
  addrlenOut : UInt32 := UInt32.ofNat sockaddr.length
  deriving DecidableEq, Repr

namespace SocketAccept

def opcode : Opcode := .accept

def build (op : SocketAccept) : Sqe :=
  let flags := sockNonblock ||| sockCloexec
  prep (.accept op.sock.nativeHandle (some op.sockaddr) (some op.addrlenOut) flags)

def doCallback (info : SocketInfo I) (op : SocketAccept) (ev : Int32) : List (Delivery I V) :=
  invokeDecoded ev
    ((info.fromSystemSockaddr op.sockaddr op.addrlenOut).map (.accept ⟨op.sock, ev⟩))

end SocketAccept

/-- `socket_accept_operation`. -/
structure SocketAcceptOperation where
  sock : Socket := {}
  deriving DecidableEq, Repr

namespace SocketAcceptOperation

def opcode : Opcode := .accept

def build (op : SocketAcceptOperation) : Sqe :=
  let flags := sockNonblock ||| sockCloexec
  prep (.accept op.sock.nativeHandle none none flags)

def doCallback (op : SocketAcceptOperation) (ev : Int32) : List (Delivery I V) :=
  invokeValue ev (.connection ⟨op.sock, ev⟩)

end SocketAcceptOperation

/-- `fixed_socket_accept::operation`, with `details::peer_socket_info_base`. -/
structure FixedSocketAccept where
  fileIndex : Int32 := allocIndex
  sock : FixedSocket := {}
  sockaddr : List UInt8
  addrlenOut : UInt32 := UInt32.ofNat sockaddr.length
  deriving DecidableEq, Repr

namespace FixedSocketAccept

def opcode : Opcode := .accept

def build (op : FixedSocketAccept) : Sqe :=
  let flags := sockNonblock
  (prep (.acceptDirect op.sock.index (some op.sockaddr) (some op.addrlenOut) flags
    op.fileIndex.toUInt32)).markFixed true

def doCallback (info : SocketInfo I) (op : FixedSocketAccept) (ev : Int32) :
    List (Delivery I V) :=
  invokeDecoded ev
    ((info.fromSystemSockaddr op.sockaddr op.addrlenOut).map (.fixedAccept ⟨op.sock, ev⟩))

end FixedSocketAccept

/-- `fixed_socket_accept_operation`. -/
structure FixedSocketAcceptOperation where
  fileIndex : Int32 := allocIndex
  sock : FixedSocket := {}
  deriving DecidableEq, Repr

namespace FixedSocketAcceptOperation

def opcode : Opcode := .accept

def build (op : FixedSocketAcceptOperation) : Sqe :=
  let flags := sockNonblock
  (prep (.acceptDirect op.sock.index none none flags op.fileIndex.toUInt32)).markFixed true

def doCallback (op : FixedSocketAcceptOperation) (ev : Int32) : List (Delivery I V) :=
  invokeValue ev (.fixedConnection ⟨op.sock, ev⟩)

end FixedSocketAcceptOperation

/-- `socket_multishot_accept_operation`. -/
structure SocketMultishotAcceptOperation where
  sock : Socket := {}
  deriving DecidableEq, Repr

namespace SocketMultishotAcceptOperation

def opcode : Opcode := .accept

def build (op : SocketMultishotAcceptOperation) : Sqe :=
  let flags := sockNonblock ||| sockCloexec
  prep (.multishotAccept op.sock.nativeHandle none none flags)

def doCallback (op : SocketMultishotAcceptOperation) (ev : Int32) (cqeFlags : UInt32) :
    List (Delivery I V) :=
  invokeValue ev (.multishotAccept ⟨op.sock, ev⟩ (more cqeFlags))

end SocketMultishotAcceptOperation

/-- `fixed_socket_multishot_accept_operation`. -/
structure FixedSocketMultishotAcceptOperation where
  sock : FixedSocket := {}
  deriving DecidableEq, Repr

namespace FixedSocketMultishotAcceptOperation

def opcode : Opcode := .accept

def build (op : FixedSocketMultishotAcceptOperation) : Sqe :=
  let flags := sockNonblock
  (prep (.multishotAcceptDirect op.sock.index none none flags)).markFixed true

def doCallback (op : FixedSocketMultishotAcceptOperation) (ev : Int32) (cqeFlags : UInt32) :
    List (Delivery I V) :=
  invokeValue ev (.multishotFixedAccept ⟨op.sock, ev⟩ (more cqeFlags))

end FixedSocketMultishotAcceptOperation

/-- `socket_shutdown_operation`; the default is `SHUT_RDWR`. -/
structure SocketShutdownOperation extends Target where
  howOpt : Int32 := 2
  deriving DecidableEq, Repr

namespace SocketShutdownOperation

def opcode : Opcode := .shutdown

def build (op : SocketShutdownOperation) : Sqe :=
  (prep (.shutdown op.fd op.howOpt)).markFixed op.isFixed

def doCallback (callback : VoidCallback) (ev : Int32) : List (Delivery I V) :=
  invokeVoid callback ev

end SocketShutdownOperation

/-! ### `sendrecv.hpp` -/

/-- `if (buf_index >= 0)`: the entry is for a registered buffer. -/
def useFixedBuf (sqe : Sqe) (bufIndex : Int32) : Sqe :=
  if bufIndex ≥ 0 then
    { sqe with bufIndex := bufIndex.toUInt32.toUInt16, ioprio := sqe.ioprio ||| recvsendFixedBuf }
  else sqe

/-- `details::send_recv_socket_base` and `details::send_op_base`. -/
structure SendOpBase extends Target where
  buf : UInt64 := 0
  len : UInt64 := 0
  bufIndex : Int32 := -1
  flags : Int32 := 0
  ringFlags : UInt16 := 0
  deriving DecidableEq, Repr

/-- `details::send_recv_socket_base` and `details::recv_op_base`. -/
structure RecvOpBase extends Target where
  buf : UInt64 := 0
  len : UInt64 := 0
  bufIndex : Int32 := -1
  flags : Int32 := 0
  deriving DecidableEq, Repr

/-- `details::send_recv_socket_base` and `details::sendmsg_base`. -/
structure SendmsgBase extends Target where
  msg : Msghdr := ⟨0, 0, 0, 0, 0, 0, 0⟩
  flags : Int32 := 0
  deriving DecidableEq, Repr

/-- `socket_send_operation`. -/
structure SocketSendOperation extends SendOpBase
  deriving DecidableEq, Repr

namespace SocketSendOperation

def opcode : Opcode := .send

def build (op : SocketSendOperation) : Sqe :=
  let sqe := prep (.send op.fd op.buf op.len op.flags)
  let sqe := { sqe with ioprio := op.ringFlags }
  let sqe := sqe.markFixed op.isFixed
  useFixedBuf sqe op.bufIndex

def doCallback (ev : Int32) : List (Delivery I V) := invokeValue ev (.size ev.toInt.toNat)

end SocketSendOperation

/-- `socket_send_zc_operation`. -/
structure SocketSendZcOperation extends SendOpBase
  deriving DecidableEq, Repr

/-- The callback of a zero-copy send gets the result that was decoded. -/
def invokeZc (r : Except ErrorCode SendZcResult) : Delivery I V :=
  match r with
  | .ok r => .value (.sendZc r)
  | .error ec => .unexpected ec

namespace SocketSendZcOperation

def opcode : Opcode := .sendZc

def build (op : SocketSendZcOperation) : Sqe :=
  let sqe := prep (.sendZc op.fd op.buf op.len op.flags op.ringFlags.toUInt32)
  let sqe := sqe.markFixed op.isFixed
  useFixedBuf sqe op.bufIndex

def doCallback (ev : Int32) (cqeFlags : UInt32) : List (Delivery I V) :=
  [invokeZc (sendZcCallback ev cqeFlags)]

end SocketSendZcOperation

/-- `socket_sendmsg_operation`. -/
structure SocketSendmsgOperation extends SendmsgBase
  deriving DecidableEq, Repr

namespace SocketSendmsgOperation

def opcode : Opcode := .sendmsg

def build (op : SocketSendmsgOperation) : Sqe :=
  (prep (.sendmsg op.fd op.msg op.flags.toUInt32)).markFixed op.isFixed

def doCallback (ev : Int32) : List (Delivery I V) := invokeValue ev (.size ev.toInt.toNat)

end SocketSendmsgOperation

/-- `socket_sendmsg_zc_operation`. -/
structure SocketSendmsgZcOperation extends SendmsgBase
  deriving DecidableEq, Repr

namespace SocketSendmsgZcOperation

def opcode : Opcode := .sendmsgZc

def build (op : SocketSendmsgZcOperation) : Sqe :=
  (prep (.sendmsgZc op.fd op.msg op.flags.toUInt32)).markFixed op.isFixed

def doCallback (ev : Int32) (cqeFlags : UInt32) : List (Delivery I V) :=
  [invokeZc (sendmsgZcCallback ev cqeFlags)]

end SocketSendmsgZcOperation

/-- `socket_recv_operation`. -/
structure SocketRecvOperation extends RecvOpBase
  deriving DecidableEq, Repr

namespace SocketRecvOperation

def opcode : Opcode := .recv

def build (op : SocketRecvOperation) : Sqe :=
  let sqe := (prep (.recv op.fd op.buf op.len op.flags)).markFixed op.isFixed
  useFixedBuf sqe op.bufIndex

def doCallback (op : SocketRecvOperation) (ev : Int32) : List (Delivery I V) :=
  invokeValue ev (.span op.buf ev.toInt.toNat)

end SocketRecvOperation

/-- `socket_multishot_recv_operation`. -/
structure SocketMultishotRecvOperation extends RecvOpBase
  deriving DecidableEq, Repr

namespace SocketMultishotRecvOperation

def opcode : Opcode := .recv

def build (op : SocketMultishotRecvOperation) : Sqe :=
  let sqe := (prep (.recvMultishot op.fd op.buf op.len op.flags)).markFixed op.isFixed
  useFixedBuf sqe op.bufIndex

def doCallback (op : SocketMultishotRecvOperation) (ev : Int32) (cqeFlags : UInt32) :
    List (Delivery I V) :=
  invokeValue ev (.multishotRecv op.buf ev.toInt.toNat (more cqeFlags))

end SocketMultishotRecvOperation

/-! ### `sockcmd.hpp` -/

/-- `details::sockopt_base`; `val` is the value of the option in memory. -/
structure SockoptBase extends Target where
  val : List UInt8
  deriving DecidableEq, Repr

/-- `SOCKET_URING_OP_GETSOCKOPT`. -/
def socketUringOpGetsockopt : Int32 := 2

/-- `SOCKET_URING_OP_SETSOCKOPT`. -/
def socketUringOpSetsockopt : Int32 := 3

/-- `build` of both classes, for the command. -/
def SockoptBase.build (opt : SockOpt V) (cmdOp : Int32) (op : SockoptBase) : Sqe :=
  (prep (.cmdSock cmdOp op.fd opt.level opt.optname op.val
    (Int32.ofNat op.val.length))).markFixed op.isFixed

/-- `socket_setoption::operation`. -/
structure SocketSetoption extends SockoptBase
  deriving DecidableEq, Repr

namespace SocketSetoption

def opcode : Opcode := .uringCmd

def build (opt : SockOpt V) (op : SocketSetoption) : Sqe :=
  op.toSockoptBase.build prep opt socketUringOpSetsockopt

/-- Callbacks that take an error code are not supported. -/
def doCallback (ev : Int32) : List (Delivery I V) :=
  if ev = 0 then [.value .void] else [invokeFail ev]

end SocketSetoption

/-- `socket_getoption::operation`. -/
structure SocketGetoption extends SockoptBase
  deriving DecidableEq, Repr

namespace SocketGetoption

def opcode : Opcode := .uringCmd

def build (opt : SockOpt V) (op : SocketGetoption) : Sqe :=
  op.toSockoptBase.build prep opt socketUringOpGetsockopt

def doCallback (opt : SockOpt V) (op : SocketGetoption) (ev : Int32) : List (Delivery I V) :=
  -- updated optlen is in ev, discard it
  if ev > 0 then [.value (.option (opt.result op.val))] else [invokeFail ev]

end SocketGetoption

/-- `socket_getsockname::operation`. -/
structure SocketGetsockname extends Target where
  sockaddr : List UInt8
  socklenOut : UInt32 := UInt32.ofNat sockaddr.length
  isPeer : Bool := false
  deriving DecidableEq, Repr

namespace SocketGetsockname

def opcode : Opcode := .uringCmd

def build (op : SocketGetsockname) : Sqe :=
  (prep (.cmdGetsockname op.fd op.sockaddr op.socklenOut (if op.isPeer then 1 else 0))).markFixed
    op.isFixed

def doCallback (info : SocketInfo I) (op : SocketGetsockname) (ev : Int32) : List (Delivery I V) :=
  invokeDecoded ev ((info.fromSystemSockaddr op.sockaddr op.socklenOut).map .info)

end SocketGetsockname

end Iouxx.Ops
