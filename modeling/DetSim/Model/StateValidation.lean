import DetSim.Model.KernelState

/-! # Validators of saved tracees

A tracee is validated before it is captured and again after it is loaded: its unfinished system calls
agree with the futex queues, and every descriptor, file, pipe, socket and epoll instance refers to
existing resources of its kind. The archives of its parts carry further checks of their own.
-/

namespace DetSim.Kernel

/-- The address of the page the tracer reserves in every tracee. -/
def scratchPage : UInt64 := 0x600000000000

section Constants

def sysRead : Int32 := 0
def sysWrite : Int32 := 1
def sysPoll : Int32 := 7
def sysNanosleep : Int32 := 35
def sysAccept : Int32 := 43
def sysRecvfrom : Int32 := 45
def sysFutex : Int32 := 202
def sysClockNanosleep : Int32 := 230
def sysEpollWait : Int32 := 232
def sysPselect6 : Int32 := 270
def sysEpollPwait : Int32 := 281
def sysAccept4 : Int32 := 288
def sysEpollPwait2 : Int32 := 441

def clockRealtime : Int32 := 0
def clockMonotonic : Int32 := 1

def afInet : Int32 := 2
def sockStream : Int32 := 1
def sockDgram : Int32 := 2

def oWronly : Int32 := 1
def oAccmode : Int32 := 3

end Constants

/-- A register argument read as a C `int`. -/
def toInt (word : UInt64) : Int32 := Int32.ofUInt32 word.toUInt32

section Pending

def epollCall (nr : Int32) : Bool := nr == sysEpollWait || nr == sysEpollPwait || nr == sysEpollPwait2

def dataCall (nr : Int32) : Bool :=
  nr == sysRead || nr == sysWrite || nr == sysRecvfrom || nr == sysAccept || nr == sysAccept4

def supportsPendingIo (nr : Int32) : Bool := epollCall nr || dataCall nr

def validateDeadline (deadline : PendingDeadline) : Bool :=
  (deadline.clockId == clockRealtime || deadline.clockId == clockMonotonic) &&
    0 ≤ deadline.sec && 0 ≤ deadline.nsec && deadline.nsec < 1000000000

/-- The deadlines that each kind of unfinished call may carry. -/
def timedPendingAllowed (pending : PendingSyscall) (deadline : PendingDeadline) : Bool :=
  match pending.reason with
  | .futex =>
    let operation := toInt pending.args[1]
    let command := operation &&& ~~~ (128 ||| 256)
    let realtime := operation &&& 256 != 0
    (command == 0 || command == 9) && (!realtime || command == 9) &&
      (command != 9 || pending.args[5].toUInt32 != 0) && pending.args[3] != 0 &&
      deadline.timeoutResult == -110 &&
      deadline.clockId == if realtime then clockRealtime else clockMonotonic
  | .timer =>
    deadline.timeoutResult == 0 &&
      if pending.nr == sysNanosleep then pending.args[0] != 0 && deadline.clockId == clockMonotonic
      else if pending.nr == sysClockNanosleep then
        pending.args[2] != 0 && toInt pending.args[1] &&& ~~~ 1 == 0 &&
          deadline.clockId == toInt pending.args[0]
      else pending.nr == sysPselect6 && pending.args[4] != 0 && deadline.clockId == clockMonotonic
  | .io =>
    deadline.timeoutResult == 0 && deadline.clockId == clockMonotonic &&
      ((pending.nr == sysEpollPwait2 && pending.args[3] != 0) ||
        ((pending.nr == sysEpollWait || pending.nr == sysEpollPwait) && (0 : Int32) < toInt pending.args[3]) ||
        (pending.nr == sysPoll && (0 : Int32) < toInt pending.args[2]) || dataCall pending.nr)

def validateTimedPending (pending : PendingSyscall) (deadline : PendingDeadline) : Bool :=
  timedPendingAllowed pending deadline && validateDeadline deadline &&
    decide (deadline.sec.toInt * 1000000000 + deadline.nsec.toInt < 2 ^ 63)

/-- A `timespec` at the address overlaps the scratch page. -/
def overlapsScratch (address : UInt64) : Bool :=
  address < scratchPage + 4096 && scratchPage - 16 < address

/-- The checks of one unfinished call of a live thread. -/
def validatePending (pending : PendingSyscall) : Bool :=
  0 ≤ pending.nr && (pending.phase == .ready || pending.result == 0) &&
  (pending.reason != .futex || (pending.nr == sysFutex && pending.phase != .retry)) &&
  (pending.reason != .timer ||
    ((pending.nr == sysNanosleep || pending.nr == sysClockNanosleep || pending.nr == sysPselect6) &&
      pending.phase != .retry && (pending.deadline.isSome || pending.nr == sysPselect6))) &&
  (pending.nr != sysPselect6 ||
    (pending.reason == .timer && (0 : Int32) ≤ toInt pending.args[0] &&
      pending.deadline.isSome == (pending.args[4] != 0) && !overlapsScratch pending.args[4] &&
      pending.deadline.all fun deadline =>
        deadline.clockId == clockMonotonic && deadline.timeoutResult == 0)) &&
  (pending.reason != .io || supportsPendingIo pending.nr) &&
  pending.deadline.all (validateTimedPending pending)

def FutexState.isThreadWaiting (state : FutexState) (tid : Int32) : Bool :=
  state.waiterMap[tid]?.any (· != 0)

/-- The unfinished call of a thread agrees with the futex queues. -/
def ThreadState.validatePending (futexState : Option FutexState) (thread : ThreadState) : Bool :=
  let queued := futexState.any (·.isThreadWaiting thread.tid)
  match thread.pendingSyscall with
  | none => !queued
  | some pending =>
    thread.alive && Kernel.validatePending pending &&
      queued == (pending.reason == .futex && pending.phase == .waiting)

def validatePendingSyscalls (state : TraceeState) : Bool :=
  state.threads.all (·.validatePending state.futexState) &&
  state.futexState.all fun futex => futex.waiters.toList.all fun (_, waiters) =>
    waiters.all fun waiter => state.threads.any fun thread => thread.tid == waiter.tid && thread.alive

end Pending

section Resources

variable (state : TraceeState)

/-- The descriptor is allocated and of one of the given kinds. -/
def FdManager.isKind (manager : FdManager) (fd : Int32) (kinds : List FdType) : Bool :=
  manager[fd]?.any fun entry => kinds.contains entry.kind

/-- Unfinished I/O refers to a descriptor its call can wait on. -/
def validatePendingDescriptors : Bool :=
  state.threads.all fun thread => thread.pendingSyscall.all fun call =>
    call.reason != .io || call.phase == .ready ||
      state.fdManagerState.isKind (toInt call.args[0])
        (if call.nr == sysRead || call.nr == sysWrite then [.pipe, .socket]
          else if call.nr == sysRecvfrom || call.nr == sysAccept || call.nr == sysAccept4 then [.socket]
          else [.epoll])

/-- Every descriptor has exactly one resource, of its own kind. -/
def validateDescriptors : Bool :=
  state.fdManagerState.toList.all fun (fd, entry) =>
    let file := state.fsState.openFiles.contains fd
    let socket := state.sockState.sockets.contains fd
    let epoll := state.sockState.epollInstances.contains fd
    let pipe := state.fsState.pipeFds.contains fd
    file.toNat + socket.toNat + epoll.toNat + pipe.toNat == 1 &&
      ((file && (entry.kind == .file || entry.kind == .stdio)) || (socket && entry.kind == .socket) ||
        (epoll && entry.kind == .epoll) || (pipe && entry.kind == .pipe))

def validateOpenFiles : Bool :=
  state.fsState.openFiles.toList.all fun (fd, file) =>
    state.fdManagerState.isKind fd [.file, .stdio] && 0 ≤ file.offset &&
      state.fsState.filesystem.contains file.path

/-- The number of descriptors of one end of a pipe: the reading end is the positive identifier. -/
def pipeEnds (signedId : Int32) : ℕ :=
  state.fsState.pipeFds.toList.countP fun (_, other) => other == signedId

def validatePipes : Bool :=
  (state.fsState.pipeFds.toList.all fun (fd, signedId) =>
    state.fdManagerState.isKind fd [.pipe] && signedId != 0 && signedId != Int32.minValue &&
      state.fsState.pipes.contains (if 0 < signedId then signedId else -signedId) &&
      state.fdManagerState[fd]?.any fun entry =>
        entry.statusFlags &&& oAccmode == if 0 < signedId then 0 else oWronly) &&
  state.fsState.pipes.toList.all fun (id, pipe) =>
    decide (pipe.buffer.length ≤ 65536) && 0 < id && !(pipe.readClosed && pipe.writeClosed) &&
      pipeEnds state id == (!pipe.readClosed).toNat && pipeEnds state (-id) == (!pipe.writeClosed).toNat

/-- The key a listener files a client under. -/
def endpointKey (address : SockaddrIn) : UInt64 := address.addr.toUInt64 <<< 32 ||| address.port.toUInt64

def validateBacklog (socket : Socket) : Bool :=
  decide socket.pendingConnections.Nodup &&
  (socket.pendingConnections.all fun endpoint =>
    socket.establishedConnections[endpoint]?.any fun connection =>
      0 ≤ connection.localFd && connection.localAddr.family == 2 && connection.peerAddr.family == 2 &&
        endpoint == endpointKey connection.localAddr) &&
  socket.pendingConnections.length == socket.establishedConnections.size

def validateSockets : Bool :=
  state.sockState.sockets.toList.all fun (fd, socket) =>
    state.fdManagerState.isKind fd [.socket] && socket.fd == fd && socket.domain == afInet &&
      (socket.type == sockStream || socket.type == sockDgram) &&
      0 < socket.keepIdle && socket.keepIdle ≤ 32767 && 0 < socket.keepInterval &&
      socket.keepInterval ≤ 32767 && 0 < socket.keepCount && socket.keepCount ≤ 127 &&
      state.sockState.tcpConnections.contains fd == socket.connected &&
      (!socket.connected || (socket.type == sockStream && !socket.listening)) &&
      (!socket.listening || (socket.type == sockStream && socket.bound && 0 ≤ socket.backlog)) &&
      (socket.listening ||
        (socket.pendingConnections.isEmpty && socket.establishedConnections.isEmpty)) &&
      validateBacklog socket

def validateConnections : Bool :=
  (state.sockState.tcpConnections.toList.all fun (fd, connection) =>
    state.sockState.sockets[fd]?.any fun socket =>
      socket.type == sockStream && socket.connected && connection.localFd == fd &&
        connection.localAddr == socket.localAddr && connection.peerAddr == socket.peerAddr) &&
  state.sockState.udpRecvBuffers.toList.all fun (fd, _) =>
    state.sockState.sockets[fd]?.any (·.type == sockDgram)

def validateEpolls : Bool :=
  state.sockState.epollInstances.toList.all fun (fd, epoll) =>
    state.fdManagerState.isKind fd [.epoll] && epoll.epollFd == fd &&
      epoll.watchedFds.toList.all fun (watched, watch) =>
        watched != fd && state.fdManagerState.isKind watched [.socket, .pipe] &&
          watch.events &&& ~~~ 0x201d == 0

def validateIoState : Bool :=
  validatePendingSyscalls state && validatePendingDescriptors state && validateDescriptors state &&
    validateOpenFiles state && validatePipes state && validateSockets state &&
    validateConnections state && validateEpolls state

end Resources

end DetSim.Kernel
