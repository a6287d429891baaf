import Iouxx.Uring.Prep

/-!
# Files, sockets and connections (`file.hpp`, `socket.hpp`)

The classes wrap a descriptor or the index of a fixed file. A connection is a socket, namely the
listening one, and has the accepted descriptor besides: `native_handle` and `index` of a connection
hide those of its base. Where a function takes a base class, a connection is passed as its listening
socket.
-/

namespace Iouxx.Ops

/-- `file`. -/
structure File where
  fd : Int32 := -1
  deriving DecidableEq, Repr

/-- `file::native_handle`. -/
def File.nativeHandle (f : File) : Int32 := f.fd

/-- `directory`. -/
structure Directory extends File
  deriving DecidableEq, Repr

/-- `current_directory`: `AT_FDCWD`. -/
def currentDirectory : Directory := ⟨⟨-100⟩⟩

/-- `fixed_file`. -/
structure FixedFile where
  fdIndex : Int32 := -1
  deriving DecidableEq, Repr

/-- `fixed_file::index`. -/
def FixedFile.index (f : FixedFile) : Int32 := f.fdIndex

/-- `socket_config`, with the numbers of the enumerators. -/
structure SocketConfig where
  d : Int32 := 0
  t : Int32 := 1
  p : Int32 := -1
  deriving DecidableEq, Repr

/-- `socket`. -/
structure Socket extends File, SocketConfig
  deriving DecidableEq, Repr

/-- `socket::native_handle`, the one of `file`. -/
def Socket.nativeHandle (s : Socket) : Int32 := s.toFile.nativeHandle

/-- `fixed_socket`. -/
structure FixedSocket extends FixedFile, SocketConfig
  deriving DecidableEq, Repr

/-- `fixed_socket::index`, the one of `fixed_file`. -/
def FixedSocket.index (s : FixedSocket) : Int32 := s.toFixedFile.index

/-- `connection`. -/
structure Connection extends Socket where
  connFd : Int32 := -1
  deriving DecidableEq, Repr

/-- `connection::native_handle`. -/
def Connection.nativeHandle (c : Connection) : Int32 := c.connFd

/-- `fixed_connection`. -/
structure FixedConnection extends FixedSocket where
  connIndex : Int32 := -1
  deriving DecidableEq, Repr

/-- `fixed_connection::index`. -/
def FixedConnection.index (c : FixedConnection) : Int32 := c.connIndex

/-- `socket_variant`. -/
inductive SocketVariant
  | socket (s : Socket)
  | fixedSocket (s : FixedSocket)
  deriving DecidableEq, Repr

/-- The members `fd` and `is_fixed` that an operation on a file or a socket has. -/
structure Target where
  fd : Int32 := -1
  isFixed : Bool := false
  deriving DecidableEq, Repr

/-- What a handle setter is called with. -/
inductive Handle
  | file (f : File)
  | fixedFile (f : FixedFile)
  | socket (s : Socket)
  | fixedSocket (s : FixedSocket)
  | connection (c : Connection)
  | fixedConnection (c : FixedConnection)
  deriving DecidableEq, Repr

namespace Handle

/-- **The descriptor of a handle**, as its own accessor reports it. -/
def target : Handle → Target
  | file f => ⟨f.nativeHandle, false⟩
  | fixedFile f => ⟨f.index, true⟩
  | socket s => ⟨s.nativeHandle, false⟩
  | fixedSocket s => ⟨s.index, true⟩
  | connection c => ⟨c.nativeHandle, false⟩
  | fixedConnection c => ⟨c.index, true⟩

/-- The handle as a `file`, where it is one. -/
def toFile? : Handle → Option File
  | file f => some f
  | socket s => some s.toFile
  | connection c => some c.toFile
  | fixedFile _ | fixedSocket _ | fixedConnection _ => none

/-- The handle as a `fixed_file`, where it is one. -/
def toFixedFile? : Handle → Option FixedFile
  | fixedFile f => some f
  | fixedSocket s => some s.toFixedFile
  | fixedConnection c => some c.toFixedFile
  | file _ | socket _ | connection _ => none

/-- The handle as a `socket`, where it is one. -/
def toSocket? : Handle → Option Socket
  | socket s => some s
  | connection c => some c.toSocket
  | file _ | fixedFile _ | fixedSocket _ | fixedConnection _ => none

/-- The handle as a `fixed_socket`, where it is one. -/
def toFixedSocket? : Handle → Option FixedSocket
  | fixedSocket s => some s
  | fixedConnection c => some c.toFixedSocket
  | file _ | fixedFile _ | socket _ | connection _ => none

/-- The setters `file(file)` and `file(fixed_file)`. -/
def setFile : Handle → Target
  | file f => ⟨f.nativeHandle, false⟩
  | socket s => ⟨s.toFile.nativeHandle, false⟩
  | connection c => ⟨c.toFile.nativeHandle, false⟩
  | fixedFile f => ⟨f.index, true⟩
  | fixedSocket s => ⟨s.toFixedFile.index, true⟩
  | fixedConnection c => ⟨c.toFixedFile.index, true⟩

/-- The setters `socket(socket)`, `socket(fixed_socket)`, `socket(connection)` and
`socket(fixed_connection)`. -/
def setSocket : Handle → Option Target
  | socket s => some ⟨s.nativeHandle, false⟩
  | fixedSocket s => some ⟨s.index, true⟩
  | connection c => some ⟨c.nativeHandle, false⟩
  | fixedConnection c => some ⟨c.index, true⟩
  | file _ | fixedFile _ => none

/-- The setters `socket(socket)` and `socket(fixed_socket)` of a class with a `socket_variant`. -/
def setVariant : Handle → Option SocketVariant
  | socket s => some (.socket s)
  | connection c => some (.socket c.toSocket)
  | fixedSocket s => some (.fixedSocket s)
  | fixedConnection c => some (.fixedSocket c.toFixedSocket)
  | file _ | fixedFile _ => none

/-- The domain of a socket. -/
def socketDomain? : Handle → Option Int32
  | socket s => some s.d
  | fixedSocket s => some s.d
  | connection c => some c.d
  | fixedConnection c => some c.d
  | file _ | fixedFile _ => none

end Handle

end Iouxx.Ops
