import Mathlib

/-! # The modelled kernel state of a tracee

Descriptors, virtual files, pipes, sockets, epoll instances, futex queues, unfinished system calls and
threads, as they are saved with a tracee. Machine integers keep their widths, ordered maps are compared
by their entries, and byte strings are lists.
-/

namespace DetSim.Kernel

abbrev Bytes := List UInt8

/-- An ordered map of the source. -/
abbrev Map (κ ν : Type) [Ord κ] := Std.ExtTreeMap κ ν

/-! The arguments of a system call. -/

abbrev arg0 : Fin 6 := 0
abbrev arg1 : Fin 6 := 1
abbrev arg2 : Fin 6 := 2
abbrev arg3 : Fin 6 := 3
abbrev arg4 : Fin 6 := 4
abbrev arg5 : Fin 6 := 5

structure SyscallInfo where
  nr : Int32
  rval : UInt64
  args : Vector UInt64 6
deriving DecidableEq, Inhabited

inductive PendingPhase
  | waiting | retry | ready
deriving DecidableEq, Repr

inductive PendingReason
  | futex | io | timer
deriving DecidableEq, Repr

/-- An absolute deadline in the model clock domain. -/
structure PendingDeadline where
  clockId : Int32
  sec : Int64
  nsec : Int32
  timeoutResult : Int64
deriving DecidableEq

structure PendingSyscall where
  phase : PendingPhase
  reason : PendingReason
  nr : Int32
  args : Vector UInt64 6
  result : Int64
  deadline : Option PendingDeadline
deriving DecidableEq

/-- A logical thread. `physicalTid` is the carrier it is bound to in this run. -/
structure ThreadState where
  tid : Int32
  physicalTid : Int32 := 0
  alive : Bool := false
  comm : Vector UInt8 16 := Vector.replicate 16 0
  exitCode : Int32 := 0
  regs : Vector UInt64 27 := Vector.replicate 27 0
  cloneFlags : UInt64 := 0
  stackAddr : UInt64 := 0
  ptid : Int32 := 0
  isMain : Bool := false
  pendingSyscall : Option PendingSyscall := none
  robustListHead : UInt64 := 0
  altstackSp : UInt64 := 0
  altstackSize : UInt64 := 0
  altstackFlags : UInt32 := 2
  signalMask : UInt64 := 0
  clearChildTid : UInt64 := 0
  pendingChildSettid : UInt64 := 0
  childSettidPending : Bool := false
deriving DecidableEq

inductive FdType
  | file | socket | epoll | pipe | stdio
deriving DecidableEq, Repr

structure FdEntry where
  kind : FdType
  statusFlags : Int32
  descriptorFlags : Int32
deriving DecidableEq

abbrev FdManager := Map Int32 FdEntry

/-- The contents of a virtual file. -/
structure FileContent where
  bytes : Bytes := []
deriving DecidableEq

structure Metadata where
  stSize : Int64
  stMode : UInt32
  stIno : UInt64
  mtimSec : Int64
  mtimNsec : Int64
deriving DecidableEq

structure VFSNode where
  content : FileContent
  metadata : Metadata
deriving DecidableEq

structure OpenFileDescription where
  path : Bytes
  offset : Int64
deriving DecidableEq

structure Pipe where
  buffer : Bytes
  readClosed : Bool
  writeClosed : Bool
deriving DecidableEq

@[ext] structure FileSystemState where
  filesystem : Map Bytes VFSNode := ∅
  openFiles : Map Int32 OpenFileDescription := ∅
  cwd : Bytes := []
  mappings : List (Bytes × Bytes) := []
  pipes : Map Int32 Pipe := ∅
  pipeFds : Map Int32 Int32 := ∅
  creationMask : UInt32 := 0o22
  virtualFileMappingSources : Map UInt64 (UInt64 × Bytes) := ∅
  nextInode : UInt64 := 1
deriving DecidableEq

structure SockaddrIn where
  family : UInt16 := 0
  port : UInt16 := 0
  addr : UInt32 := 0
deriving DecidableEq

structure TcpConnection where
  localFd : Int32
  localAddr : SockaddrIn
  peerAddr : SockaddrIn
  recvBuffer : List Bytes
deriving DecidableEq

structure UdpDatagram where
  content : Bytes
  source : SockaddrIn
deriving DecidableEq

structure Socket where
  fd : Int32
  domain : Int32
  type : Int32
  protocol : Int32 := 0
  bound : Bool := false
  localAddr : SockaddrIn := {}
  connected : Bool := false
  listening : Bool := false
  peerAddr : SockaddrIn := {}
  backlog : Int32 := 0
  pendingConnections : List UInt64 := []
  establishedConnections : Map UInt64 TcpConnection := ∅
  reuseAddress : Bool := false
  noDelay : Bool := false
  keepAlive : Bool := false
  keepIdle : Int32 := 7200
  keepInterval : Int32 := 75
  keepCount : Int32 := 9
deriving DecidableEq

structure EpollWatch where
  events : UInt32
  data : UInt64
deriving DecidableEq

structure EpollInstance where
  epollFd : Int32
  watchedFds : Map Int32 EpollWatch
deriving DecidableEq

@[ext] structure SockState where
  sockets : Map Int32 Socket := ∅
  udpRecvBuffers : Map Int32 (List UdpDatagram) := ∅
  tcpConnections : Map Int32 TcpConnection := ∅
  epollInstances : Map Int32 EpollInstance := ∅
deriving DecidableEq

structure FutexWaiter where
  tid : Int32
  uaddr : UInt64
  val : Int32
  bitset : UInt32
  privateWait : Bool
deriving DecidableEq

/-- Wait queues by address, and the address each waiting thread is queued at. -/
structure FutexState where
  waiters : Map UInt64 (List FutexWaiter) := ∅
  waiterMap : Map Int32 UInt64 := ∅
deriving DecidableEq

@[ext] structure TraceeState where
  fsState : FileSystemState := {}
  sockState : SockState := {}
  fdManagerState : FdManager := ∅
  threads : List ThreadState := []
  mainTid : Int32 := 0
  futexState : Option FutexState := none
deriving DecidableEq

end DetSim.Kernel
