import DetSim.Model.SocketReceive

/-! # Virtual sockets and epoll instances

Sockets of all nodes are connected through their tables: a connect files the client at the listener it finds,
an accept takes it from there, and a send finds the other end by the two addresses of the connection. A
connection has a queue of messages at each end; the end of the stream is an empty message.
-/

namespace DetSim.Kernel

section Constants

def sockNonblock : Int32 := 0o4000
def sockCloexec : Int32 := 0o2000000
def ipprotoTcp : Int32 := 6
def ipprotoUdp : Int32 := 17
def msgNosignal : UInt32 := 0x4000

def solSocket : Int32 := 1
def soReuseaddr : Int32 := 2
def soKeepalive : Int32 := 9
def tcpNodelay : Int32 := 1
def tcpKeepidle : Int32 := 4
def tcpKeepintvl : Int32 := 5
def tcpKeepcnt : Int32 := 6

def epollin : UInt32 := 0x1
def epollout : UInt32 := 0x4
def epollerr : UInt32 := 0x8
def epollhup : UInt32 := 0x10
def epollrdhup : UInt32 := 0x2000
def epollCtlAdd : Int32 := 1
def epollCtlDel : Int32 := 2
def epollCtlMod : Int32 := 3

/-- The first port given to a socket that is not bound, and the number of such ports. -/
def firstPort : ℕ := 10000
def portCount : ℕ := 50000

end Constants

/-- An address in the memory of a tracee. -/
def parseSockaddr (bytes : Bytes) : SockaddrIn where
  family := UInt16.ofNat (wordNat 2 bytes)
  port := UInt16.ofNat (wordNat 2 (bytes.drop 2))
  addr := UInt32.ofNat (wordNat 4 (bytes.drop 4))

/-- Ports are kept in network order. -/
def ntohs (port : UInt16) : UInt16 := port <<< 8 ||| port >>> 8

def SockaddrIn.sameEndpoint (first second : SockaddrIn) : Bool :=
  first.addr == second.addr && first.port == second.port

namespace SockState

variable (state : SockState)

def setSocket (fd : Int32) (socket : Socket) : SockState := { state with sockets := state.sockets.insert fd socket }

/-- Add a message at the end of a connection. -/
def pushMessage (fd : Int32) (message : Bytes) : SockState :=
  match state.tcpConnections[fd]? with
  | none => state
  | some connection =>
    { state with
      tcpConnections := state.tcpConnections.insert fd
        { connection with recvBuffer := connection.recvBuffer ++ [message] } }

/-- Add a message to a connection that is not accepted yet. -/
def pushPending (fd : Int32) (key : UInt64) (message : Bytes) : SockState :=
  match state.sockets[fd]? with
  | none => state
  | some listener =>
    match listener.establishedConnections[key]? with
    | none => state
    | some connection =>
      state.setSocket fd { listener with
        establishedConnections := listener.establishedConnections.insert key
          { connection with recvBuffer := connection.recvBuffer ++ [message] } }

/-- A closed descriptor is watched no longer. -/
def forgetFd (fd : Int32) : SockState :=
  { state with
    epollInstances := state.epollInstances.map fun _ instance_ =>
      { instance_ with watchedFds := instance_.watchedFds.erase fd } }

/-- What a wait would report of a descriptor. -/
def readyEvents (fd : Int32) (files : FileSystemState) : UInt32 :=
  match state.sockets[fd]? with
  | some socket =>
    if socket.type = sockDgram then
      (if state.udpRecvBuffers[fd]?.getD [] = [] then 0 else epollin) ||| epollout
    else if socket.listening then
      if socket.pendingConnections = [] then 0 else epollin
    else if socket.connected then
      match state.tcpConnections[fd]? with
      | none => 0
      | some connection =>
        (if connection.recvBuffer = [] then 0 else epollin) |||
          (if connection.recvBuffer.getLast? = some [] then epollrdhup else 0) ||| epollout
    else 0
  | none =>
    match files.pipeFds[fd]? with
    | none => 0
    | some signedId =>
      match files.pipes[if 0 < signedId then signedId else -signedId]? with
      | none => 0
      | some pipe =>
        if 0 < signedId then
          (if pipe.buffer = [] ∧ !pipe.writeClosed then 0 else epollin) ||| if pipe.writeClosed then epollhup else 0
        else if pipe.readClosed then epollerr
        else if pipe.buffer.length < pipeCapacity then epollout
        else 0

/-- The events of a watched descriptor that a wait reports now. -/
def watchedEvents (files : FileSystemState) (fd : Int32) (watch : EpollWatch) : UInt32 :=
  state.readyEvents fd files &&& (watch.events ||| epollerr ||| epollhup)

def epollReady (epfd : Int32) (files : FileSystemState) : Bool :=
  match state.epollInstances[epfd]? with
  | none => true
  | some instance_ => instance_.watchedFds.toList.any fun entry => state.watchedEvents files entry.1 entry.2 != 0

end SockState

namespace NodeIo

variable {G : Type} (guest : GuestMemory G) (node : NodeIo G)

def withSocket (fd : Int32) (socket : Socket) : NodeIo G :=
  { node with sockState := node.sockState.setSocket fd socket }

/-! ## Addresses and options -/

def doSocket (domain type protocol : Int32) : Except String (Int × NodeIo G) :=
  let baseType := type &&& ~~~(sockNonblock ||| sockCloexec)
  let effectiveProtocol := if baseType = sockStream then ipprotoTcp else ipprotoUdp
  if domain ≠ afInet then node.answer eAfnosupport
  else if baseType ≠ sockStream ∧ baseType ≠ sockDgram then node.answer eProtonosupport
  else if protocol ≠ 0 ∧ protocol ≠ effectiveProtocol then node.answer eProtonosupport
  else do
    let status := oRdwr ||| if type &&& sockNonblock ≠ 0 then oNonblock else 0
    let (fd, manager) ← node.fdManager.allocateFd .socket status (if type &&& sockCloexec ≠ 0 then fdCloexec else 0)
    match fd with
    | none => node.answer eMfile
    | some fd =>
      let socket : Socket := { fd := fd, domain := domain, type := baseType, protocol := effectiveProtocol }
      .ok (fd.toInt, { node with fdManager := manager, sockState := node.sockState.setSocket fd socket })

/-- Another socket of the kind has the address already. -/
def addressInUse (fd : Int32) (socket : Socket) (address : SockaddrIn) : Bool :=
  node.sockState.sockets.toList.any fun entry =>
    let other := entry.2
    entry.1 != fd && other.bound && other.type == socket.type && other.localAddr.port == address.port &&
      address.port != 0 && (address.addr == 0 || other.localAddr.addr == 0 || address.addr == other.localAddr.addr)

def doBind (fd : Int32) (addr : UInt64) (addrlen : UInt32) : Except String (Int × NodeIo G) :=
  match node.sockState.sockets[fd]? with
  | none => node.answer (SockState.invalidSocketError node.fdManager fd)
  | some socket =>
    if socket.bound then node.answer eInval
    else if addrlen < 16 then node.answer eInval
    else match guest.readExact node.memory addr 16 with
      | none => node.answer eFault
      | some bytes =>
        let address := parseSockaddr bytes
        if address.family ≠ 2 then node.answer eAfnosupport
        else if node.addressInUse fd socket address then node.answer eAddrinuse
        else .ok (0, node.withSocket fd { socket with localAddr := address, bound := true })

def doListen (fd backlog : Int32) : Except String (Int × NodeIo G) :=
  match node.sockState.sockets[fd]? with
  | none => node.answer (SockState.invalidSocketError node.fdManager fd)
  | some socket =>
    if socket.type ≠ sockStream then node.answer eOpnotsupp
    else if !socket.bound then node.answer eDestaddrreq
    else .ok (0, node.withSocket fd { socket with listening := true, backlog := max 0 backlog })

/-- The socket with an option set, as far as it has the option and the value is in its range. -/
def setOption (socket : Socket) (level optname : Int32) : Option (Int32 → Option Socket) :=
  let numeric (maximum : Int32) (update : Int32 → Socket) (value : Int32) : Option Socket :=
    if value < 1 ∨ maximum < value then none else some (update value)
  let boolean (update : Bool → Socket) (value : Int32) : Option Socket := some (update (value != 0))
  if level = solSocket ∧ optname = soReuseaddr then some (boolean fun value => { socket with reuseAddress := value })
  else if level = solSocket ∧ optname = soKeepalive then
    some (boolean fun value => { socket with keepAlive := value })
  else if level = ipprotoTcp ∧ socket.type = sockStream then
    if optname = tcpNodelay then some (boolean fun value => { socket with noDelay := value })
    else if optname = tcpKeepidle then some (numeric 32767 fun value => { socket with keepIdle := value })
    else if optname = tcpKeepintvl then some (numeric 32767 fun value => { socket with keepInterval := value })
    else if optname = tcpKeepcnt then some (numeric 127 fun value => { socket with keepCount := value })
    else none
  else none

def doSetsockopt (fd level optname : Int32) (optval : UInt64) (optlen : UInt32) : Except String (Int × NodeIo G) :=
  match node.sockState.sockets[fd]? with
  | none => node.answer (SockState.invalidSocketError node.fdManager fd)
  | some socket =>
    match setOption socket level optname with
    | none => .error "Unsupported setsockopt option"
    | some update =>
      if optlen < 4 then node.answer eInval
      else match guest.readExact node.memory optval 4 with
        | none => node.answer eFault
        | some word =>
          match update (Int32.ofNat (wordNat 4 word)) with
          | none => node.answer eInval
          | some socket => .ok (0, node.withSocket fd socket)

/-! ## Accepting -/

/-- Copy the address of a peer, cut to the room the caller offers, and its length. -/
def copyPeer (memory : G) (addr addrlen : UInt64) (peer : SockaddrIn) : Int × G :=
  if addr = 0 then (0, memory)
  else match guest.readExact memory addrlen 4 with
    | none => (eFault, memory)
    | some word =>
      if 2 ^ 31 - 1 < wordNat 4 word then (eInval, memory)
      else match guest.writeExact memory addr ((SockState.sockaddrBytes peer).take (min (wordNat 4 word) 16)) with
        | (memory, false) => (eFault, memory)
        | (memory, true) =>
          match guest.writeExact memory addrlen (Codec.natBytes 4 16) with
          | (memory, false) => (eFault, memory)
          | (memory, true) => (0, memory)

/-- The socket of an accepted connection. -/
def acceptedSocket (listener : Socket) (fd : Int32) (pending : TcpConnection) : Socket where
  fd := fd
  domain := listener.domain
  type := sockStream
  protocol := listener.protocol
  bound := true
  localAddr := pending.peerAddr
  connected := true
  peerAddr := pending.localAddr
  reuseAddress := listener.reuseAddress
  noDelay := listener.noDelay
  keepAlive := listener.keepAlive
  keepIdle := listener.keepIdle
  keepInterval := listener.keepInterval
  keepCount := listener.keepCount

/-- The sockets after the oldest connection of a listener got a descriptor. -/
def adoptConnection (fd newFd : Int32) (listener : Socket) (key : UInt64) (rest : List UInt64)
    (pending : TcpConnection) : SockState :=
  let state := node.sockState
  let served : Socket := { listener with
    pendingConnections := rest, establishedConnections := listener.establishedConnections.erase key }
  let adopted : TcpConnection := { pending with
    localFd := newFd, localAddr := pending.peerAddr, peerAddr := pending.localAddr }
  { state with
    sockets := (state.sockets.insert fd served).insert newFd (acceptedSocket listener newFd pending)
    tcpConnections := state.tcpConnections.insert newFd adopted }

def doAccept (fd : Int32) (addr addrlen : UInt64) : Except String (Int × NodeIo G) :=
  match node.sockState.sockets[fd]? with
  | none => node.answer (SockState.invalidSocketError node.fdManager fd)
  | some listener =>
    if listener.type ≠ sockStream then node.answer eOpnotsupp
    else if !listener.listening then node.answer eInval
    else match listener.pendingConnections with
      | [] => node.answer eAgain
      | key :: rest =>
        match listener.establishedConnections[key]? with
        | none => .ok (eConnreset, node.withSocket fd { listener with pendingConnections := rest })
        | some pending =>
          match copyPeer guest node.memory addr addrlen pending.localAddr with
          | (errno, memory) =>
            if errno ≠ 0 then .ok (errno, { node with memory })
            else do
              let (newFd, manager) ← node.fdManager.allocateFd .socket oRdwr 0
              match newFd with
              | none => .ok (eMfile, { node with memory })
              | some newFd =>
                .ok (newFd.toInt, { node with
                  memory
                  fdManager := manager
                  sockState := node.adoptConnection fd newFd listener key rest pending })

/-- Change the flags of a descriptor if it is asked for. -/
def acceptFlag (manager : FdManager) (fd : Int32) (asked : Bool) (command argument : Int32) : Except String FdManager :=
  if asked then (manager.doFcntl fd command argument).map Prod.snd else .ok manager

/-- The flags of an accepted descriptor. -/
def acceptFlags (manager : FdManager) (fd flags : Int32) : Except String FdManager := do
  let nonblocking ← acceptFlag manager fd (flags &&& sockNonblock != 0) fSetfl oNonblock
  acceptFlag nonblocking fd (flags &&& sockCloexec != 0) fSetfd fdCloexec

def doAccept4 (fd : Int32) (addr addrlen : UInt64) (flags : Int32) : Except String (Int × NodeIo G) :=
  if flags &&& ~~~(sockNonblock ||| sockCloexec) ≠ 0 then node.answer eInval
  else do
    let (result, accepted) ← node.doAccept guest fd addr addrlen
    if result < 0 then .ok (result, accepted)
    else do
      let manager ← acceptFlags accepted.fdManager (Int32.ofInt result) flags
      .ok (result, { accepted with fdManager := manager })

/-! ## Receiving -/

/-- The reply of the sockets to a process. -/
def receive (reply : Except String (Reply G)) : Except String (Int × NodeIo G) :=
  reply.map fun reply => (reply.result, { node with memory := reply.memory, sockState := reply.sockets })

def doRecv (fd : Int32) (buf len : UInt64) (flags : UInt32) : Except String (Int × NodeIo G) :=
  node.receive (node.sockState.doRecv guest node.fdManager node.memory fd buf len flags)

def doRecvfrom (fd : Int32) (buf len : UInt64) (flags : UInt32) (srcAddr addrlen : UInt64) (choice : Int32) :
    Except String (Int × NodeIo G) :=
  node.receive
    (node.sockState.doRecvfromWithChoice guest node.fdManager node.memory fd buf len flags srcAddr addrlen choice)

/-! ## Waiting -/

def doEpollCreate1 (flags : Int32) : Except String (Int × NodeIo G) :=
  if flags &&& ~~~oCloexec ≠ 0 then node.answer eInval
  else do
    let (fd, manager) ← node.fdManager.allocateFd .epoll oRdwr (if flags ≠ 0 then fdCloexec else 0)
    match fd with
    | none => node.answer eMfile
    | some fd =>
      .ok (fd.toInt, { node with
        fdManager := manager
        sockState := { node.sockState with epollInstances := node.sockState.epollInstances.insert fd ⟨fd, ∅⟩ } })

def doEpollCreate (size : Int32) : Except String (Int × NodeIo G) :=
  if size ≤ 0 then node.answer eInval else node.doEpollCreate1 0

def setEpoll (epfd : Int32) (instance_ : EpollInstance) : NodeIo G :=
  { node with
    sockState := { node.sockState with epollInstances := node.sockState.epollInstances.insert epfd instance_ } }

/-- Why a watch is refused, before its event is read. -/
def watchRefused (instance_ : EpollInstance) (op fd : Int32) : Option Int :=
  if op ≠ epollCtlAdd ∧ op ≠ epollCtlMod ∧ op ≠ epollCtlDel then some eInval
  else if op = epollCtlAdd ∧ instance_.watchedFds.contains fd then some eExist
  else if op ≠ epollCtlAdd ∧ !instance_.watchedFds.contains fd then some eNoent
  else none

def doEpollCtl (epfd op fd : Int32) (event : UInt64) : Except String (Int × NodeIo G) :=
  match node.sockState.epollInstances[epfd]? with
  | none => node.answer eBadf
  | some instance_ =>
    match node.fdManager.getFdType fd with
    | none => node.answer eBadf
    | some kind =>
      if fd = epfd then node.answer eInval
      else if kind = .epoll then .error "Nested epoll is unsupported"
      else if kind ≠ .socket ∧ kind ≠ .pipe then node.answer ePerm
      else match watchRefused instance_ op fd with
        | some errno => node.answer errno
        | none =>
          if op = epollCtlDel then
            .ok (0, node.setEpoll epfd { instance_ with watchedFds := instance_.watchedFds.erase fd })
          else match guest.readExact node.memory event 12 with
            | none => node.answer eFault
            | some bytes =>
              let events := UInt32.ofNat (wordNat 4 bytes)
              if events &&& 0xf0000000 ≠ 0 then .error "Unsupported epoll watch mode"
              else if events &&& ~~~(epollin ||| epollout ||| epollerr ||| epollhup ||| epollrdhup) ≠ 0 then
                .error "Unsupported epoll readiness mask"
              else
                let watch : EpollWatch := ⟨events, UInt64.ofNat (wordNat 8 (bytes.drop 4))⟩
                .ok (0, node.setEpoll epfd { instance_ with watchedFds := instance_.watchedFds.insert fd watch })

/-- The events a wait reports, in the order of the descriptors. -/
def epollOutput (instance_ : EpollInstance) (maxevents : ℕ) : List (UInt32 × UInt64) :=
  (instance_.watchedFds.toList.filterMap fun entry =>
    let ready := node.sockState.watchedEvents node.fsState entry.1 entry.2
    if ready ≠ 0 then some (ready, entry.2.data) else none).take maxevents

def doEpollWait (epfd : Int32) (events : UInt64) (maxevents : Int32) : Except String (Int × NodeIo G) :=
  match node.sockState.epollInstances[epfd]? with
  | none => node.answer eBadf
  | some instance_ =>
    if maxevents ≤ 0 ∨ 178956970 < maxevents then node.answer eInval
    else
      let output := node.epollOutput instance_ maxevents.toInt.toNat
      let bytes := output.flatMap fun event => Codec.natBytes 4 event.1.toNat ++ Codec.natBytes 8 event.2.toNat
      match guest.writeExact node.memory events bytes with
      | (memory, false) => .ok (eFault, { node with memory })
      | (memory, true) => .ok (output.length, { node with memory })

def doEpollClose (fd : Int32) : Except String (Int × NodeIo G) :=
  if !node.sockState.epollInstances.contains fd then node.answer eBadf
  else .ok (0, { node with
    fdManager := node.fdManager.releaseFd fd
    sockState := SockState.forgetFd
      { node.sockState with epollInstances := node.sockState.epollInstances.erase fd } fd })

end NodeIo

/-! ## The nodes together -/

/-- What is fixed for a run: the configured addresses of the nodes, where they are readable. -/
abbrev Addresses (np : ℕ) := Fin np → Option UInt32

abbrev Nodes (G : Type) (np : ℕ) := Fin np → NodeIo G

/-- The least index from the given one on that is not taken. -/
def freeIndex (taken : ℕ → Bool) : ℕ → ℕ → Option ℕ
  | 0, _ => none
  | rest + 1, index => if taken index then freeIndex taken rest (index + 1) else some index

namespace Nodes

variable {G : Type} {np : ℕ} (guest : GuestMemory G) (addrs : Addresses np) (nodes : Nodes G np) (cursor : Fin np)

/-- A call on the tables of the calling node only. -/
def local_ (call : NodeIo G → Except String (Int × NodeIo G)) : Except String (Int × Nodes G np) :=
  (call (nodes cursor)).map fun reply => (reply.1, Function.update nodes cursor reply.2)

/-- A call that changes nothing. -/
def answer (result : Int) : Except String (Int × Nodes G np) := .ok (result, nodes)

/-- All sockets, node by node. -/
def allSockets : List (Fin np × Int32 × Socket) :=
  (List.finRange np).flatMap fun other => (nodes other).sockState.sockets.toList.map fun entry => (other, entry)

/-- The address a socket is reached under. -/
def effectiveAddr (other : Fin np) (address : UInt32) : UInt32 :=
  if address = 0 then (addrs other).getD 0 else address

/-! ### Connecting -/

/-- The address a socket connects from, up to its port. -/
def sourceAddr (socket : Socket) : Option SockaddrIn :=
  let staged : SockaddrIn := { (if socket.bound then socket.localAddr else {}) with family := 2 }
  if staged.addr ≠ 0 then some staged
  else match addrs cursor with
    | none => none
    | some own => if own = 0 then none else some { staged with addr := own }

/-- The other end of an earlier connection between the two addresses. -/
def reciprocalTuple (source peer : SockaddrIn) (candidate : Socket) : Bool :=
  candidate.type == sockStream && candidate.connected && candidate.localAddr.sameEndpoint peer &&
    candidate.peerAddr.addr == source.addr

/-- An earlier connection between the two addresses that is not accepted yet. -/
def pendingTuple (source peer : SockaddrIn) (connection : TcpConnection) : Bool :=
  connection.localAddr.addr == source.addr && connection.peerAddr.sameEndpoint peer

/-- A port with this index is bound on the calling node, or an earlier connection to the peer still has it. -/
def portTaken (source peer : SockaddrIn) (index : ℕ) : Bool :=
  let named (port : UInt16) : Bool := (ntohs port).toNat == firstPort + index
  ((nodes cursor).sockState.sockets.toList.any fun entry => entry.2.bound && named entry.2.localAddr.port) ||
  nodes.allSockets.any fun entry =>
    let remote := entry.2.2
    (reciprocalTuple source peer remote && named remote.peerAddr.port) ||
      (remote.listening && remote.establishedConnections.toList.any fun pending =>
        pendingTuple source peer pending.2 && named pending.2.localAddr.port)

/-- A bound port is not used again while the other end of an earlier connection lives. -/
def reuseError (source peer : SockaddrIn) : Option String :=
  nodes.allSockets.findSome? fun entry =>
    let remote := entry.2.2
    if reciprocalTuple source peer remote && remote.peerAddr.port == source.port then
      some "TCP bound endpoint reuse with a surviving peer is unsupported"
    else if remote.listening && remote.establishedConnections.toList.any fun pending =>
        pendingTuple source peer pending.2 && pending.2.localAddr.port == source.port then
      some "TCP bound endpoint reuse with a pending peer is unsupported"
    else none

/-- The listeners that are reached under an address. -/
def listeners (peer : SockaddrIn) : List (Fin np × Int32 × Socket) :=
  nodes.allSockets.filter fun entry =>
    let candidate := entry.2.2
    candidate.listening && candidate.type == sockStream && candidate.localAddr.port == peer.port &&
      (candidate.localAddr.addr != 0 || (addrs entry.1).isSome) &&
      effectiveAddr addrs entry.1 candidate.localAddr.addr == peer.addr

/-- The source with its port: the bound one, or the least free one. -/
def sourcePort (socket : Socket) (source peer : SockaddrIn) : Except String (Option SockaddrIn) :=
  if socket.bound ∧ source.port ≠ 0 then
    match nodes.reuseError source peer with
    | some message => .error message
    | none => .ok (some source)
  else .ok ((freeIndex (nodes.portTaken cursor source peer) portCount 0).map fun index =>
    { source with port := ntohs (UInt16.ofNat (firstPort + index)) })

/-- Both ends of a new connection: the client, and the entry of the listener. -/
def establish (fd : Int32) (socket : Socket) (source peer : SockaddrIn) (server : Fin np) (listenFd : Int32) :
    Nodes G np :=
  let connection : TcpConnection := ⟨fd, source, peer, []⟩
  let client := (nodes cursor).sockState.setSocket fd { socket with
    bound := true, localAddr := source, connected := true, peerAddr := peer }
  let connected := Function.update nodes cursor { nodes cursor with
    sockState := { client with tcpConnections := client.tcpConnections.insert fd connection } }
  match (connected server).sockState.sockets[listenFd]? with
  | none => connected
  | some listener =>
    Function.update connected server ((connected server).withSocket listenFd { listener with
      pendingConnections := listener.pendingConnections ++ [endpointKey source]
      establishedConnections := listener.establishedConnections.insertIfNew (endpointKey source) connection })

/-- Connect from a complete source. -/
def connectFrom (fd : Int32) (socket : Socket) (source peer : SockaddrIn) : Except String (Int × Nodes G np) :=
  match nodes.listeners addrs peer with
  | [] => nodes.answer eConnrefused
  | [(server, listenFd, listener)] =>
    if listener.backlog.toInt ≤ listener.establishedConnections.size then
      .error "TCP backlog overflow requires unsupported blocking/connect state"
    else if listener.establishedConnections.contains (endpointKey source) then
      .error "TCP endpoint reuse while an older connection is pending is unsupported"
    else .ok (0, nodes.establish cursor fd socket source peer server listenFd)
  | _ => .error "Ambiguous TCP listener endpoint"

def doConnect (fd : Int32) (addr : UInt64) (addrlen : UInt32) : Except String (Int × Nodes G np) :=
  match (nodes cursor).sockState.sockets[fd]? with
  | none => nodes.answer (SockState.invalidSocketError (nodes cursor).fdManager fd)
  | some socket =>
    if socket.type ≠ sockStream then nodes.answer eOpnotsupp
    else if socket.connected then nodes.answer eIsconn
    else if socket.listening then nodes.answer eInval
    else if addrlen < 16 then nodes.answer eInval
    else match guest.readExact (nodes cursor).memory addr 16 with
      | none => nodes.answer eFault
      | some bytes =>
        let peer := parseSockaddr bytes
        if peer.family ≠ 2 then nodes.answer eAfnosupport
        else match sourceAddr addrs cursor socket with
          | none => nodes.answer eAddrnotavail
          | some source => do
            match ← nodes.sourcePort cursor socket source peer with
            | none => nodes.answer eAddrnotavail
            | some source => nodes.connectFrom addrs cursor fd socket source peer

/-! ### Sending -/

/-- Where a message goes on one node: to a connected socket, or to a connection that is not accepted yet. -/
inductive Route
  | accepted (fd : Int32)
  | pending (fd : Int32)
deriving DecidableEq, Repr

/-- The other end of a socket on one node. -/
def routeAt (socket : Socket) (other : Fin np) : Option Route :=
  let state := (nodes other).sockState
  let accepted := state.sockets.toList.find? fun entry =>
    let remote := entry.2
    remote.connected && effectiveAddr addrs other remote.localAddr.addr == socket.peerAddr.addr &&
      remote.localAddr.port == socket.peerAddr.port && remote.peerAddr.sameEndpoint socket.localAddr &&
      state.tcpConnections.contains entry.1
  let pending := state.sockets.toList.find? fun entry =>
    entry.2.listening && entry.2.establishedConnections[endpointKey socket.localAddr]?.any fun connection =>
      connection.peerAddr.sameEndpoint socket.peerAddr
  match accepted with
  | some entry => some (.accepted entry.1)
  | none => pending.map fun entry => .pending entry.1

def deliverTo (socket : Socket) (data : Bytes) (other : Fin np) (route : Route) : Nodes G np :=
  if data = [] then nodes
  else
    let state := (nodes other).sockState
    Function.update nodes other { nodes other with
      sockState := match route with
        | .accepted fd => state.pushMessage fd data
        | .pending fd => state.pushPending fd (endpointKey socket.localAddr) data }

/-- The first node that has the other end, and where. -/
def route (socket : Socket) : Option (Fin np × Route) :=
  (List.finRange np).findSome? fun other => (nodes.routeAt addrs socket other).map fun route => (other, route)

def doSendBuffer (fd : Int32) (data : Bytes) : Except String (Int × Nodes G np) :=
  match (nodes cursor).sockState.sockets[fd]? with
  | none => .error "TCP payload route has no validated socket"
  | some socket =>
    match nodes.route addrs socket with
    | none => nodes.answer eConnreset
    | some (other, route) => .ok (data.length, nodes.deliverTo socket data other route)

def doSend (fd : Int32) (buf len : UInt64) (flags : UInt32) : Except String (Int × Nodes G np) :=
  if flags &&& ~~~(msgDontwait ||| msgNosignal) ≠ 0 then .error "Unsupported TCP send flags"
  else match (nodes cursor).sockState.sockets[fd]? with
    | none => nodes.answer (SockState.invalidSocketError (nodes cursor).fdManager fd)
    | some socket =>
      if !socket.connected then nodes.answer eNotconn
      else if len = 0 then nodes.answer 0
      else match guest.readExact (nodes cursor).memory buf len.toNat with
        | none => nodes.answer eFault
        | some data => nodes.doSendBuffer addrs cursor fd data

/-- The node an address belongs to. -/
def addrToNode (address : SockaddrIn) : Option (Fin np) :=
  if address.addr = 0xff000001 ∨ address.addr = 0 then some cursor
  else (List.finRange np).find? fun other => addrs other == some address.addr

/-- The socket that a datagram for an address reaches on its node. -/
def datagramReceiver (other : Fin np) (destination : SockaddrIn) : Option Int32 :=
  ((nodes other).sockState.sockets.toList.find? fun entry =>
    entry.2.type == sockDgram && entry.2.bound && entry.2.localAddr.port == destination.port &&
      (entry.2.localAddr.addr == 0 || entry.2.localAddr.addr == destination.addr)).map Prod.fst

/-- Send a datagram to a known address. -/
def sendDatagram (socket : Socket) (buf len : UInt64) (destination : SockaddrIn) : Except String (Int × Nodes G np) :=
  match addrToNode addrs cursor destination with
  | none => nodes.answer eNetunreach
  | some other =>
    if destination.port = 0 then nodes.answer eInval
    else match guest.readExact (nodes cursor).memory buf len.toNat with
      | none => nodes.answer eFault
      | some data =>
        match nodes.datagramReceiver other destination with
        -- a datagram that nobody receives is lost
        | none => nodes.answer len.toNat
        | some recvFd =>
          if socket.localAddr.addr = 0 ∧ addrs cursor = none then nodes.answer eAddrnotavail
          else
            let source : SockaddrIn := {
              family := 2
              port := if socket.bound then socket.localAddr.port else 0
              addr := effectiveAddr addrs cursor socket.localAddr.addr }
            let delivered := ((nodes other).sockState.deliverUdpDatagram recvFd ⟨data, source⟩).1
            .ok (len.toNat, Function.update nodes other { nodes other with sockState := delivered })

def doSendto (fd : Int32) (buf len : UInt64) (flags : UInt32) (destAddr : UInt64) (addrlen : UInt32) :
    Except String (Int × Nodes G np) :=
  if flags &&& ~~~(msgDontwait ||| msgNosignal) ≠ 0 then .error "Unsupported UDP send flags"
  else match (nodes cursor).sockState.sockets[fd]? with
    | none => nodes.answer (SockState.invalidSocketError (nodes cursor).fdManager fd)
    | some socket =>
      if socket.type = sockStream then
        if destAddr ≠ 0 then .error "TCP sendto with explicit destination is unsupported"
        else nodes.doSend guest addrs cursor fd buf len flags
      else if socket.type ≠ sockDgram then nodes.answer eOpnotsupp
      else if destAddr ≠ 0 then
        if addrlen < 16 then nodes.answer eInval
        else match guest.readExact (nodes cursor).memory destAddr 16 with
          | none => nodes.answer eFault
          | some bytes =>
            if (parseSockaddr bytes).family ≠ 2 then nodes.answer eAfnosupport
            else nodes.sendDatagram guest addrs cursor socket buf len (parseSockaddr bytes)
      else if socket.connected then nodes.sendDatagram guest addrs cursor socket buf len socket.peerAddr
      else nodes.answer eDestaddrreq

/-! ### Closing -/

/-- The connections at listeners whose client is the socket learn of its end. -/
def endPending (endpoint : UInt64) (socket : Socket) (state : SockState) : SockState :=
  { state with
    sockets := state.sockets.map fun _ listener =>
      if !listener.listening then listener
      else match listener.establishedConnections[endpoint]? with
        | none => listener
        | some pending =>
          if pending.peerAddr.sameEndpoint socket.peerAddr then
            { listener with
              establishedConnections := listener.establishedConnections.insert endpoint
                { pending with recvBuffer := pending.recvBuffer ++ [[]] } }
          else listener }

/-- The first connected socket of a node that is the other end learns of the end. -/
def endAccepted (localEnd : SockaddrIn) (socket : Socket) (state : SockState) : SockState :=
  match state.sockets.toList.find? fun entry =>
    entry.2.connected && entry.2.peerAddr.sameEndpoint localEnd &&
      entry.2.localAddr.sameEndpoint socket.peerAddr with
  | none => state
  | some entry => state.pushMessage entry.1 []

/-- The end of a connection is announced on every node. -/
def announceEnd (socket : Socket) : Nodes G np :=
  let localEnd : SockaddrIn := { socket.localAddr with addr := effectiveAddr addrs cursor socket.localAddr.addr }
  fun other => { nodes other with
    sockState := endAccepted localEnd socket (endPending (endpointKey localEnd) socket (nodes other).sockState) }

/-- The tables of a node without one of its sockets. -/
def dropSocket (fd : Int32) (node : NodeIo G) : NodeIo G :=
  { node with
    fdManager := node.fdManager.releaseFd fd
    sockState := SockState.forgetFd { node.sockState with
      sockets := node.sockState.sockets.erase fd
      udpRecvBuffers := node.sockState.udpRecvBuffers.erase fd
      tcpConnections := node.sockState.tcpConnections.erase fd } fd }

def doCloseSocket (fd : Int32) : Except String (Int × Nodes G np) :=
  match (nodes cursor).sockState.sockets[fd]? with
  | none => nodes.answer eBadf
  | some socket =>
    let told := if socket.connected && socket.type == sockStream then nodes.announceEnd addrs cursor socket else nodes
    .ok (0, Function.update told cursor (dropSocket fd (told cursor)))

end Nodes

end DetSim.Kernel
