import Iouxx.Ops.Basic
import Iouxx.Ops.File
import Iouxx.Ops.Network

/-!
# The operations of the library

An operation is an object of one of the operation classes, with the kind of its callback where the
class admits both kinds. The functions here choose the one of the class: its `opcode`, its `build`,
its `do_callback` and its handle setters.

`I` is what an address of the kernel is decoded to, and `V` is the value of a socket option.
-/

namespace Iouxx.Ops

open Iouxx.Uring

/-- An operation object. -/
inductive Operation (I V : Type)
  | ringManagement
  | noop (callback : VoidCallback) (op : NoopOperation)
  | noopVoid
  | timeout (callback : VoidCallback) (op : TimeoutOperation)
  | multishotTimeout (op : MultishotTimeoutOperation)
  | timeoutCancel (callback : VoidCallback) (op : TimeoutCancelOperation)
  | timeoutCancelVoid (op : TimeoutCancelOperation)
  | futexWait (callback : VoidCallback) (op : FutexWaitOperation)
  | futexWake (op : FutexWakeOperation)
  | futexWaitv (op : FutexWaitvOperation)
  | cancel (op : CancelOperation)
  | cancelVoid (op : CancelOperation)
  | cancelFd (op : CancelFdOperation)
  | cancelFdVoid (op : CancelFdOperation)
  | fileOpen (op : FileOpenOperation)
  | fixedFileOpen (op : FixedFileOpenOperation)
  | directoryOpen (op : DirectoryOpenOperation)
  | fileClose (callback : VoidCallback) (op : FileCloseOperation)
  | fixedFileRegister (op : FixedFileRegisterOperation)
  | fixedFileRegisterBatch (op : FixedFileRegisterBatchOperation)
  | fixedFileInstall (op : FixedFileInstallOperation)
  | fileRead (op : FileReadOperation)
  | fileReadFixed (op : FileReadFixedOperation)
  | fileReadv (op : FileReadv)
  | fileReadvFixed (op : FileReadvFixed)
  | fileWrite (op : FileWriteOperation)
  | fileWriteFixed (op : FileWriteFixedOperation)
  | fileWritev (op : FileWritev)
  | fileWritevFixed (op : FileWritevFixed)
  | filePollAdd (op : FilePollAddOperation)
  | filePollMultishot (op : FilePollMultishotOperation)
  | filePollRemove (callback : VoidCallback) (op : FilePollRemoveOperation)
  | filePollUpdate (callback : VoidCallback) (op : FilePollUpdateOperation)
  | unlink (callback : VoidCallback) (op : UnlinkOperation)
  | rename (callback : VoidCallback) (op : RenameOperation)
  | mkdir (callback : VoidCallback) (op : MkdirOperation)
  | symlink (callback : VoidCallback) (op : SymlinkOperation)
  | link (callback : VoidCallback) (op : LinkOperation)
  | socketOpen (op : SocketOpenOperation)
  | fixedSocketOpen (op : FixedSocketOpenOperation)
  | socketClose (callback : VoidCallback) (op : SocketCloseOperation)
  | socketBind (info : SocketInfo I) (callback : VoidCallback) (op : SocketBind)
  | socketListen (callback : VoidCallback) (op : SocketListenOperation)
  | socketConnect (info : SocketInfo I) (callback : VoidCallback) (op : SocketConnect)
  | socketAccept (info : SocketInfo I) (op : SocketAccept)
  | socketAcceptOperation (op : SocketAcceptOperation)
  | fixedSocketAccept (info : SocketInfo I) (op : FixedSocketAccept)
  | fixedSocketAcceptOperation (op : FixedSocketAcceptOperation)
  | socketMultishotAccept (op : SocketMultishotAcceptOperation)
  | fixedSocketMultishotAccept (op : FixedSocketMultishotAcceptOperation)
  | socketShutdown (callback : VoidCallback) (op : SocketShutdownOperation)
  | socketSend (op : SocketSendOperation)
  | socketSendZc (op : SocketSendZcOperation)
  | socketSendmsg (op : SocketSendmsgOperation)
  | socketSendmsgZc (op : SocketSendmsgZcOperation)
  | socketRecv (op : SocketRecvOperation)
  | socketMultishotRecv (op : SocketMultishotRecvOperation)
  | socketSetoption (opt : SockOpt V) (op : SocketSetoption)
  | socketGetoption (opt : SockOpt V) (op : SocketGetoption)
  | socketGetsockname (info : SocketInfo I) (op : SocketGetsockname)

namespace Operation

variable {I V : Type}

/-- The static `opcode` of the class. -/
def opcode : Operation I V → Opcode
  | ringManagement => RingManagementOperation.opcode
  | noop .. | noopVoid => NoopOperation.opcode
  | timeout .. => TimeoutOperation.opcode
  | multishotTimeout _ => MultishotTimeoutOperation.opcode
  | timeoutCancel .. | timeoutCancelVoid _ => TimeoutCancelOperation.opcode
  | futexWait .. => FutexWaitOperation.opcode
  | futexWake _ => FutexWakeOperation.opcode
  | futexWaitv _ => FutexWaitvOperation.opcode
  | cancel _ | cancelVoid _ => CancelOperation.opcode
  | cancelFd _ | cancelFdVoid _ => CancelFdOperation.opcode
  | fileOpen _ => FileOpenOperation.opcode
  | fixedFileOpen _ => FixedFileOpenOperation.opcode
  | directoryOpen _ => DirectoryOpenOperation.opcode
  | fileClose .. => FileCloseOperation.opcode
  | fixedFileRegister _ => FixedFileRegisterOperation.opcode
  | fixedFileRegisterBatch _ => FixedFileRegisterBatchOperation.opcode
  | fixedFileInstall _ => FixedFileInstallOperation.opcode
  | fileRead _ => FileReadOperation.opcode
  | fileReadFixed _ => FileReadFixedOperation.opcode
  | fileReadv _ => FileReadv.opcode
  | fileReadvFixed _ => FileReadvFixed.opcode
  | fileWrite _ => FileWriteOperation.opcode
  | fileWriteFixed _ => FileWriteFixedOperation.opcode
  | fileWritev _ => FileWritev.opcode
  | fileWritevFixed _ => FileWritevFixed.opcode
  | filePollAdd _ => FilePollAddOperation.opcode
  | filePollMultishot _ => FilePollMultishotOperation.opcode
  | filePollRemove .. => FilePollRemoveOperation.opcode
  | filePollUpdate .. => FilePollUpdateOperation.opcode
  | unlink .. => UnlinkOperation.opcode
  | rename .. => RenameOperation.opcode
  | mkdir .. => MkdirOperation.opcode
  | symlink .. => SymlinkOperation.opcode
  | link .. => LinkOperation.opcode
  | socketOpen _ => SocketOpenOperation.opcode
  | fixedSocketOpen _ => FixedSocketOpenOperation.opcode
  | socketClose .. => SocketCloseOperation.opcode
  | socketBind .. => SocketBind.opcode
  | socketListen .. => SocketListenOperation.opcode
  | socketConnect .. => SocketConnect.opcode
  | socketAccept .. => SocketAccept.opcode
  | socketAcceptOperation _ => SocketAcceptOperation.opcode
  | fixedSocketAccept .. => FixedSocketAccept.opcode
  | fixedSocketAcceptOperation _ => FixedSocketAcceptOperation.opcode
  | socketMultishotAccept _ => SocketMultishotAcceptOperation.opcode
  | fixedSocketMultishotAccept _ => FixedSocketMultishotAcceptOperation.opcode
  | socketShutdown .. => SocketShutdownOperation.opcode
  | socketSend _ => SocketSendOperation.opcode
  | socketSendZc _ => SocketSendZcOperation.opcode
  | socketSendmsg _ => SocketSendmsgOperation.opcode
  | socketSendmsgZc _ => SocketSendmsgZcOperation.opcode
  | socketRecv _ => SocketRecvOperation.opcode
  | socketMultishotRecv _ => SocketMultishotRecvOperation.opcode
  | socketSetoption .. => SocketSetoption.opcode
  | socketGetoption .. => SocketGetoption.opcode
  | socketGetsockname .. => SocketGetsockname.opcode

/-- `build`: the entry that is submitted. -/
def build (prep : Prep → Sqe) : Operation I V → Sqe
  | ringManagement => RingManagementOperation.build prep
  | noop _ op => op.build prep
  | noopVoid => NoopOperation.buildVoid prep
  | timeout _ op => op.build prep
  | multishotTimeout op => op.build prep
  | timeoutCancel _ op => op.build prep
  | timeoutCancelVoid op => op.buildVoid prep
  | futexWait _ op => op.build prep
  | futexWake op => op.build prep
  | futexWaitv op => op.build prep
  | cancel op => op.build prep
  | cancelVoid op => op.buildVoid prep
  | cancelFd op => op.build prep
  | cancelFdVoid op => op.buildVoid prep
  | fileOpen op => op.build prep
  | fixedFileOpen op => op.build prep
  | directoryOpen op => op.build prep
  | fileClose _ op => op.build prep
  | fixedFileRegister op => op.build prep
  | fixedFileRegisterBatch op => op.build prep
  | fixedFileInstall op => op.build prep
  | fileRead op => op.build prep
  | fileReadFixed op => op.build prep
  | fileReadv op => op.build prep
  | fileReadvFixed op => op.build prep
  | fileWrite op => op.build prep
  | fileWriteFixed op => op.build prep
  | fileWritev op => op.build prep
  | fileWritevFixed op => op.build prep
  | filePollAdd op => op.build prep
  | filePollMultishot op => op.build prep
  | filePollRemove _ op => op.build prep
  | filePollUpdate _ op => op.build prep
  | unlink _ op => op.build prep
  | rename _ op => op.build prep
  | mkdir _ op => op.build prep
  | symlink _ op => op.build prep
  | link _ op => op.build prep
  | socketOpen op => op.build prep
  | fixedSocketOpen op => op.build prep
  | socketClose _ op => op.build prep
  | socketBind _ _ op => op.build prep
  | socketListen _ op => op.build prep
  | socketConnect _ _ op => op.build prep
  | socketAccept _ op => op.build prep
  | socketAcceptOperation op => op.build prep
  | fixedSocketAccept _ op => op.build prep
  | fixedSocketAcceptOperation op => op.build prep
  | socketMultishotAccept op => op.build prep
  | fixedSocketMultishotAccept op => op.build prep
  | socketShutdown _ op => op.build prep
  | socketSend op => op.build prep
  | socketSendZc op => op.build prep
  | socketSendmsg op => op.build prep
  | socketSendmsgZc op => op.build prep
  | socketRecv op => op.build prep
  | socketMultishotRecv op => op.build prep
  | socketSetoption opt op => op.build prep opt
  | socketGetoption opt op => op.build prep opt
  | socketGetsockname _ op => op.build prep

/-- `do_callback`: the invocations of the user's callback for one completion. -/
def doCallback (ev : Int32) (cqeFlags : UInt32) : Operation I V → List (Delivery I V)
  | ringManagement => RingManagementOperation.doCallback ev cqeFlags
  | noop callback _ => NoopOperation.doCallback callback ev
  | noopVoid | timeoutCancelVoid _ | cancelVoid _ | cancelFdVoid _ => []
  | timeout callback _ => TimeoutOperation.doCallback callback ev
  | multishotTimeout _ => MultishotTimeoutOperation.doCallback ev cqeFlags
  | timeoutCancel callback _ => TimeoutCancelOperation.doCallback callback ev
  | futexWait callback _ => FutexWaitOperation.doCallback callback ev
  | futexWake _ => FutexWakeOperation.doCallback ev
  | futexWaitv _ => FutexWaitvOperation.doCallback ev
  | cancel op => op.doCallback ev
  | cancelFd op => op.doCallback ev
  | fileOpen _ => FileOpenOperation.doCallback ev
  | fixedFileOpen _ => FixedFileOpenOperation.doCallback ev
  | directoryOpen _ => DirectoryOpenOperation.doCallback ev
  | fileClose callback _ => FileCloseOperation.doCallback callback ev
  | fixedFileRegister op => op.doCallback ev
  | fixedFileRegisterBatch op => op.doCallback ev
  | fixedFileInstall _ => FixedFileInstallOperation.doCallback ev
  | fileRead _ => FileReadOperation.doCallback ev
  | fileReadFixed _ => FileReadFixedOperation.doCallback ev
  | fileReadv _ => FileReadv.doCallback ev
  | fileReadvFixed _ => FileReadvFixed.doCallback ev
  | fileWrite _ => FileWriteOperation.doCallback ev
  | fileWriteFixed _ => FileWriteFixedOperation.doCallback ev
  | fileWritev _ => FileWritev.doCallback ev
  | fileWritevFixed _ => FileWritevFixed.doCallback ev
  | filePollAdd _ => FilePollAddOperation.doCallback ev
  | filePollMultishot _ => FilePollMultishotOperation.doCallback ev cqeFlags
  | filePollRemove callback _ => FilePollRemoveOperation.doCallback callback ev
  | filePollUpdate callback _ => FilePollUpdateOperation.doCallback callback ev
  | unlink callback _ => UnlinkOperation.doCallback callback ev
  | rename callback _ => RenameOperation.doCallback callback ev
  | mkdir callback _ => MkdirOperation.doCallback callback ev
  | symlink callback _ => SymlinkOperation.doCallback callback ev
  | link callback _ => LinkOperation.doCallback callback ev
  | socketOpen op => op.doCallback ev
  | fixedSocketOpen op => op.doCallback ev
  | socketClose callback _ => SocketCloseOperation.doCallback callback ev
  | socketBind _ callback _ => SocketBind.doCallback callback ev
  | socketListen callback _ => SocketListenOperation.doCallback callback ev
  | socketConnect _ callback _ => SocketConnect.doCallback callback ev
  | socketAccept info op => op.doCallback info ev
  | socketAcceptOperation op => op.doCallback ev
  | fixedSocketAccept info op => op.doCallback info ev
  | fixedSocketAcceptOperation op => op.doCallback ev
  | socketMultishotAccept op => op.doCallback ev cqeFlags
  | fixedSocketMultishotAccept op => op.doCallback ev cqeFlags
  | socketShutdown callback _ => SocketShutdownOperation.doCallback callback ev
  | socketSend _ => SocketSendOperation.doCallback ev
  | socketSendZc _ => SocketSendZcOperation.doCallback ev cqeFlags
  | socketSendmsg _ => SocketSendmsgOperation.doCallback ev
  | socketSendmsgZc _ => SocketSendmsgZcOperation.doCallback ev cqeFlags
  | socketRecv op => op.doCallback ev
  | socketMultishotRecv op => op.doCallback ev cqeFlags
  | socketSetoption _ _ => SocketSetoption.doCallback ev
  | socketGetoption opt op => op.doCallback opt ev
  | socketGetsockname info op => op.doCallback info ev

/-- The assertions of `from_system_sockaddr` hold for the address the operation has. -/
def decodes : Operation I V → Bool
  | socketAccept info op => (info.fromSystemSockaddr op.sockaddr op.addrlenOut).isSome
  | fixedSocketAccept info op => (info.fromSystemSockaddr op.sockaddr op.addrlenOut).isSome
  | socketGetsockname info op => (info.fromSystemSockaddr op.sockaddr op.socklenOut).isSome
  | _ => true

end Operation

end Iouxx.Ops
