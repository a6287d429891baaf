import Iouxx.Cpp.Split
import Iouxx.Cpp.Error
import Iouxx.Cpp.CharConv
import Iouxx.Cpp.Memory
import Iouxx.Cpp.Access
import Iouxx.Lib.LongestRun
import Iouxx.Lib.Fill
import Iouxx.Utility
import Iouxx.Ip.AddressV4
import Iouxx.Ip.Port
import Iouxx.Ip.AddressV6
import Iouxx.Ip.ParseV6
import Iouxx.Ip.Formatter
import Iouxx.Ip.FormatV6
import Iouxx.Ip.Socket
import Iouxx.Ip.SocketText
import Iouxx.Ip.Unchecked
import Iouxx.Ip.SocketSpec
import Iouxx.Ip.Mapped
import Iouxx.Ip.ByteOrder
import Iouxx.Lib.Trace
import Iouxx.Ring.Queue
import Iouxx.Ring.Submission
import Iouxx.Ring.SyncWait
import Iouxx.Lib.Ledger
import Iouxx.Ops.SendZc
import Iouxx.Ring.Objects
import Iouxx.Ring.Accounting
import Iouxx.Ring.Leaks
import Iouxx.Ring.Lifetime
import Iouxx.Ring.BufferRing
import Iouxx.Uring.Prep
import Iouxx.Ops.Handle
import Iouxx.Ops.Callback
import Iouxx.Ops.Basic
import Iouxx.Ops.File
import Iouxx.Ops.Network
import Iouxx.Ops.Operation
import Iouxx.Ops.FeatureTest
import Iouxx.Ops.Results
import Iouxx.Lib.Flags
import Iouxx.Ops.Targets
import Iouxx.Ops.Cancel
import Iouxx.Ops.RegisterBatch
import Iouxx.Ops.Resubmit
import Iouxx.Ops.Lengths
import Iouxx.Lib.Truncated
import Iouxx.Cpp.Struct
import Iouxx.Ops.SockOpt
import Iouxx.Net.Uds
import Iouxx.Net.ProtocolDatabase
import Iouxx.Lib.SparseWalk
import Iouxx.Net.ProtocolIterator
import Iouxx.Ring.Awaiter
import Iouxx.Lib.KeyedLog
import Iouxx.Ring.BufferGroups
import Iouxx.Ring.GroupHandles
import Iouxx.Ring.Registration
import Iouxx.Ring.Version
import Iouxx.Cpp.Checked
import Iouxx.Cpp.Chrono
import Iouxx.Clock
import Iouxx.Lib.Simulation
import Iouxx.Lib.Fifo
import Iouxx.Ring.BufferQueue
import Iouxx.Lib.Stream
import Iouxx.Ring.Delivery
import Iouxx.Ops.Multishot
import Iouxx.Ring.Coroutines
import Iouxx.Ops.Timeout
import Iouxx.Ring.Options
import Iouxx.Ip.Sockaddr
import Iouxx.Ops.Peers
import Iouxx.Ip.Kinds
import Iouxx.Net.ProtocolNames
import Iouxx.Ring.VersionText
import Iouxx.Ring.Affinity
import Iouxx.Ring.BufferBytes
import Iouxx.Ring.Unregistration
import Iouxx.Ops.PseudoResult
import Iouxx.Ops.Requests
import Iouxx.Ops.Descriptors
