import DetSim.Model.Sockets
import DetSim.ToMathlib.TreeMapSum

/-! # Routing of destinations

An address denotes a node: a configured address its own, the loopback address and the wildcard the node of the
caller. A datagram or a connect should reach a socket of that node which is open at the port, under the wildcard or
under the address itself. The two searches of the source, one for datagrams and one for listeners, are compared with
this single notion.
-/

namespace DetSim.Kernel

/-- 127.0.0.1, as the four bytes stand in memory. -/
def loopback : UInt32 := 0x0100007f

example : (parseSockaddr [2, 0, 0, 80, 127, 0, 0, 1]).addr = loopback := by decide

/-- The two kinds of socket a destination can be meant for. -/
inductive Service
  | datagram
  | stream
deriving DecidableEq, Repr

/-- The socket takes what arrives for its port. -/
def Service.Open (socket : Socket) : Service → Prop
  | .datagram => socket.type = sockDgram ∧ socket.bound = true
  | .stream => socket.type = sockStream ∧ socket.listening = true

/-- Every node has an address of its own that is neither the wildcard nor the loopback address. -/
structure Addresses.Configured {np : ℕ} (addrs : Addresses np) : Prop where
  proper : ∀ node, ∃ address, addrs node = some address ∧ address ≠ 0 ∧ address ≠ loopback
  distinct : Function.Injective addrs

namespace Nodes

variable {G : Type} {np : ℕ} (addrs : Addresses np) (nodes : Nodes G np) (cursor : Fin np)

/-- What waits at a socket: datagrams, or connections that are not accepted. -/
def waiting (node : Fin np) (fd : Int32) : Service → ℕ
  | .datagram => ((nodes node).sockState.udpRecvBuffers[fd]?.getD []).length
  | .stream => (nodes node).sockState.sockets[fd]?.elim 0 fun socket => socket.pendingConnections.length

/-- The call returns, and more waits at the socket than before. -/
def Reaches (service : Service) (outcome : Except String (Int × Nodes G np)) (node : Fin np) (fd : Int32) : Prop :=
  ∃ result next, outcome = .ok (result, next) ∧ nodes.waiting node fd service < next.waiting node fd service

/-- A `sendto` that gets to the search: from a datagram socket, to an address that is given or that the socket is
connected to, with data that can be read. No queue is full, where datagrams are dropped. -/
structure Sends (guest : GuestMemory G) (fd : Int32) (buf len : UInt64) (flags : UInt32) (destAddr : UInt64)
    (addrlen : UInt32) (destination : SockaddrIn) : Prop where
  flags : flags &&& ~~~(msgDontwait ||| msgNosignal) = 0
  named : ∃ socket, (nodes cursor).sockState.sockets[fd]? = some socket ∧ socket.type = sockDgram ∧
    (destAddr ≠ 0 ∧ 16 ≤ addrlen ∧ destination.family = 2 ∧
        (guest.readExact (nodes cursor).memory destAddr 16).map parseSockaddr = some destination ∨
      destAddr = 0 ∧ socket.connected = true ∧ socket.peerAddr = destination)
  readable : (guest.readExact (nodes cursor).memory buf len.toNat).isSome
  room : ∀ node fd, nodes.waiting node fd .datagram < 3

/-- A `connect` that gets to the search: from a stream socket that is neither connected nor listening, which has got the
source as its address. -/
structure Connects (guest : GuestMemory G) (fd : Int32) (addr : UInt64) (addrlen : UInt32)
    (source destination : SockaddrIn) : Prop where
  unconnected : ∃ socket staged, (nodes cursor).sockState.sockets[fd]? = some socket ∧ socket.type = sockStream ∧
    socket.connected = false ∧ socket.listening = false ∧ sourceAddr addrs cursor socket = some staged ∧
    nodes.sourcePort cursor socket staged destination = .ok (some source)
  named : 16 ≤ addrlen ∧ destination.family = 2 ∧
    (guest.readExact (nodes cursor).memory addr 16).map parseSockaddr = some destination

/-! ## The two searches -/

/-- The socket that a datagram is queued at. -/
def datagramReached (destination : SockaddrIn) : Option (Fin np × Int32) :=
  (addrToNode addrs cursor destination).bind fun other =>
    if destination.port = 0 then none else (nodes.datagramReceiver other destination).map fun fd => (other, fd)

/-- The listener takes another connection, and has none from the source. -/
def HasRoom (source : SockaddrIn) (listener : Socket) : Prop :=
  (listener.establishedConnections.size : Int) < listener.backlog.toInt ∧
    listener.establishedConnections.contains (endpointKey source) = false

/-- The listener that a connect is queued at: the only one that is found, if it has room. -/
def ConnectReached (source destination : SockaddrIn) (node : Fin np) (fd : Int32) : Prop :=
  ∃ listener, nodes.listeners addrs destination = [(node, fd, listener)] ∧ HasRoom source listener

variable {addrs nodes cursor} {source destination : SockaddrIn} {guest : GuestMemory G}

theorem mem_allSockets {entry : Fin np × Int32 × Socket} :
    entry ∈ nodes.allSockets ↔ (nodes entry.1).sockState.sockets[entry.2.1]? = some entry.2.2 := by
  obtain ⟨node, fd, socket⟩ := entry
  simp only [allSockets, List.mem_flatMap, List.mem_finRange, true_and, List.mem_map, Prod.mk.injEq]
  constructor
  · rintro ⟨other, found, member, rfl, rfl⟩
    exact Std.ExtTreeMap.mem_toList_iff_getElem?_eq_some.mp member
  · intro read
    exact ⟨node, (fd, socket), Std.ExtTreeMap.mem_toList_iff_getElem?_eq_some.mpr read, rfl, rfl⟩

theorem waiting_deliver {other node : Fin np} {recvFd fd : Int32} {datagram : UdpDatagram}
    (room : nodes.waiting other recvFd .datagram < 3) :
    waiting (Function.update nodes other { nodes other with
        sockState := ((nodes other).sockState.deliverUdpDatagram recvFd datagram).1 }) node fd .datagram =
      nodes.waiting node fd .datagram + if node = other ∧ fd = recvFd then 1 else 0 := by
  unfold waiting at room ⊢
  rw [SockState.deliverUdpDatagram, if_neg (not_le.mpr room)]
  by_cases atNode : node = other
  · subst atNode
    by_cases atFd : fd = recvFd
    · simp [atFd]
    · simp [atFd, Std.ExtTreeMap.getElem?_insert, Ne.symm atFd]
  · simp [atNode]

/-- A datagram is queued where the search says, and nowhere else. -/
theorem Sends.reaches (configured : addrs.Configured) {fd : Int32} {buf len : UInt64} {flags : UInt32}
    {destAddr : UInt64} {addrlen : UInt32}
    (sends : nodes.Sends cursor guest fd buf len flags destAddr addrlen destination) (node : Fin np) (recvFd : Int32) :
    nodes.Reaches .datagram (nodes.doSendto guest addrs cursor fd buf len flags destAddr addrlen) node recvFd ↔
      nodes.datagramReached addrs cursor destination = some (node, recvFd) := by
  obtain ⟨own, atCursor, -⟩ := configured.proper cursor
  obtain ⟨data, read⟩ := Option.isSome_iff_exists.mp sends.readable
  obtain ⟨socket, found, type, destination_⟩ := sends.named
  have sent : nodes.doSendto guest addrs cursor fd buf len flags destAddr addrlen =
      nodes.sendDatagram guest addrs cursor socket buf len destination := by
    have datagram : ¬ sockDgram = sockStream := by decide
    unfold doSendto
    rw [if_neg (not_not.mpr sends.flags), found]
    simp only [type, datagram, ↓reduceIte, ne_eq, not_true_eq_false]
    obtain ⟨given, long, family, bytes⟩ | ⟨none_, connected, peer⟩ := destination_
    · obtain ⟨raw, atAddr, rfl⟩ := Option.map_eq_some_iff.mp bytes
      simp [given, UInt32.not_lt.mpr long, atAddr, family]
    · simp [none_, connected, peer]
  rw [sent]
  unfold Reaches sendDatagram datagramReached
  cases addrToNode addrs cursor destination with
  | none => simp [answer]
  | some other =>
    by_cases zero : destination.port = 0
    · simp [zero, answer]
    · simp only [zero, ↓reduceIte, Option.bind_some, read]
      cases nodes.datagramReceiver other destination with
      | none => simp [answer]
      | some found =>
        simp only [atCursor, reduceCtorEq, and_false, ↓reduceIte, Option.map_some, Except.ok.injEq, Prod.mk.injEq,
          Option.some_inj]
        constructor
        · rintro ⟨_, _, ⟨-, rfl⟩, more⟩
          rw [waiting_deliver (sends.room other found)] at more
          by_cases target : node = other ∧ recvFd = found
          · exact ⟨target.1.symm, target.2.symm⟩
          · rw [if_neg target] at more
            exact absurd more (lt_irrefl _)
        · rintro ⟨rfl, rfl⟩
          refine ⟨_, _, ⟨rfl, rfl⟩, ?_⟩
          rw [waiting_deliver (sends.room _ _), if_pos ⟨rfl, rfl⟩]
          exact Nat.lt_succ_self _

theorem waiting_insert {other node : Fin np} {fd at_ : Int32} {socket : Socket} {entry : NodeIo G}
    (inserted : entry.sockState.sockets = (nodes other).sockState.sockets.insert fd socket) :
    waiting (Function.update nodes other entry) node at_ .stream =
      if node = other ∧ at_ = fd then socket.pendingConnections.length else nodes.waiting node at_ .stream := by
  unfold waiting
  by_cases atNode : node = other
  · subst atNode
    by_cases atFd : at_ = fd
    · simp [inserted, atFd]
    · simp [inserted, atFd, Std.ExtTreeMap.getElem?_insert, Ne.symm atFd]
  · simp [atNode]

/-- A new connection waits at its listener, and nothing else changes what waits. -/
theorem waiting_establish {fd listenFd : Int32} {socket listener : Socket} {server : Fin np}
    (found : (nodes cursor).sockState.sockets[fd]? = some socket) (idle : socket.listening = false)
    (heard : (nodes server).sockState.sockets[listenFd]? = some listener) (listening : listener.listening = true)
    (node : Fin np) (at_ : Int32) :
    (nodes.establish cursor fd socket source destination server listenFd).waiting node at_ .stream =
      nodes.waiting node at_ .stream + if node = server ∧ at_ = listenFd then 1 else 0 := by
  unfold establish
  extract_lets connection client caller connected
  have unchanged (node : Fin np) (at_ : Int32) :
      waiting connected node at_ .stream = nodes.waiting node at_ .stream := by
    rw [waiting_insert rfl]
    split
    · next atFd =>
      rw [atFd.1, atFd.2, waiting, found]
      rfl
    · rfl
  have still : (connected server).sockState.sockets[listenFd]? = some listener := by
    by_cases same : server = cursor
    · subst same
      have other : fd ≠ listenFd := by
        rintro rfl
        rw [found, Option.some_inj] at heard
        rw [heard, listening] at idle
        exact absurd idle (by decide)
      simp [connected, client, SockState.setSocket, Std.ExtTreeMap.getElem?_insert, other, heard]
    · simp [connected, same, heard]
  rw [still]
  dsimp only
  rw [waiting_insert rfl]
  split
  · next target =>
    rw [target.1, target.2, waiting, heard, Option.elim_some, List.length_append, List.length_singleton]
  · exact unchanged node at_

/-- A connection is queued where the search says, and nowhere else. -/
theorem Connects.reaches {fd : Int32} {addr : UInt64} {addrlen : UInt32}
    (connects : nodes.Connects addrs cursor guest fd addr addrlen source destination) (node : Fin np)
    (listenFd : Int32) :
    nodes.Reaches .stream (nodes.doConnect guest addrs cursor fd addr addrlen) node listenFd ↔
      nodes.ConnectReached addrs source destination node listenFd := by
  obtain ⟨socket, staged, found, type, unconnected, idle, address, port⟩ := connects.unconnected
  obtain ⟨long, family, bytes⟩ := connects.named
  have asked : nodes.doConnect guest addrs cursor fd addr addrlen =
      nodes.connectFrom addrs cursor fd socket source destination := by
    obtain ⟨raw, atAddr, rfl⟩ := Option.map_eq_some_iff.mp bytes
    unfold doConnect
    rw [found]
    simp [type, unconnected, idle, UInt32.not_lt.mpr long, atAddr, family, address, port, bind, Except.bind]
  rw [asked]
  unfold Reaches connectFrom ConnectReached HasRoom
  split
  · next unheard => simp [unheard, answer]
  · next server heardFd listener only =>
    have member : (server, heardFd, listener) ∈ nodes.listeners addrs destination := only ▸ List.mem_singleton_self _
    obtain ⟨heard, selected⟩ := List.mem_filter.mp member
    have listening : listener.listening = true := by
      simp only [Bool.and_eq_true] at selected
      exact selected.1.1.1.1
    simp only [only, List.cons.injEq, Prod.mk.injEq, and_true]
    split
    · next full => simp [not_lt.mpr full]
    · next room =>
      split
      · next again => simp [again]
      · next fresh =>
        simp only [Except.ok.injEq, Prod.mk.injEq]
        constructor
        · rintro ⟨_, _, ⟨-, rfl⟩, more⟩
          rw [waiting_establish found idle (mem_allSockets.mp heard) listening] at more
          by_cases target : node = server ∧ listenFd = heardFd
          · exact ⟨listener, ⟨target.1.symm, target.2.symm, rfl⟩, not_le.mp room, Bool.eq_false_iff.mpr fresh⟩
          · rw [if_neg target] at more
            exact absurd more (lt_irrefl _)
        · rintro ⟨_, ⟨rfl, rfl, -⟩, -⟩
          refine ⟨_, _, ⟨rfl, rfl⟩, ?_⟩
          rw [waiting_establish found idle (mem_allSockets.mp heard) listening, if_pos ⟨rfl, rfl⟩]
          exact Nat.lt_succ_self _
  · next none_ several =>
    constructor
    · rintro ⟨_, _, thrown, -⟩
      cases thrown
    · rintro ⟨listener, only, -⟩
      exact (several _ _ _ only).elim

/-! ## Datagrams -/

section

variable {reached : Fin np → Int32 → Prop}
  (search : ∀ node fd, reached node fd ↔ nodes.datagramReached addrs cursor destination = some (node, fd))

include search

end

/-! ## Connects -/

section

variable {reached : Fin np → Int32 → Prop}
  (search : ∀ node fd, reached node fd ↔ nodes.ConnectReached addrs source destination node fd)

include search

end

/-! ## The two calls route -/

end Nodes

end DetSim.Kernel
