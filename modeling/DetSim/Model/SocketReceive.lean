import DetSim.Model.Descriptors

/-! # Receiving from sockets

A datagram is queued at its receiver by descriptor, at most three at a time. A receive takes the oldest
datagram, or the one behind it when the search explores a reordering. A stream is a queue of messages in
which an empty one marks the end. Replies are copied to the memory of the tracee before anything is
taken from a queue.
-/

namespace DetSim.Kernel

/-- What a call leaves behind: its result, the memory, the sockets of the node and the units of model
budget it used. -/
structure Reply (G : Type) where
  result : Int
  memory : G
  sockets : SockState
  budget : ℕ := 0

def msgPeek : UInt32 := 0x2
def msgTrunc : UInt32 := 0x20
def msgDontwait : UInt32 := 0x40

namespace SockState

variable {G : Type} (guest : GuestMemory G) (fdManager : FdManager) (state : SockState)

def invalidSocketError (fd : Int32) : Int := if fdManager.contains fd then eNotsock else eBadf

/-- Queue a datagram. When three are waiting it is dropped, which uses up model budget. -/
def deliverUdpDatagram (recvFd : Int32) (datagram : UdpDatagram) : SockState × ℕ :=
  let queue := state.udpRecvBuffers[recvFd]?.getD []
  if queue.length ≥ 3 then (state, 1)
  else ({ state with udpRecvBuffers := state.udpRecvBuffers.insert recvFd (queue ++ [datagram]) }, 0)

def doRecv (memory : G) (fd : Int32) (buf len : UInt64) (flags : UInt32) : Except String (Reply G) :=
  if flags &&& ~~~(msgDontwait ||| msgPeek) ≠ 0 then .error "Unsupported TCP receive flags"
  else
    let fail (errno : Int) : Except String (Reply G) := .ok ⟨errno, memory, state, 0⟩
    match state.sockets[fd]? with
    | none => fail (invalidSocketError fdManager fd)
    | some socket =>
      if !socket.connected then fail eNotconn
      else match state.tcpConnections[fd]? with
        | none => fail eConnreset
        | some connection =>
          if len = 0 then fail 0
          else match connection.recvBuffer with
            | [] => fail eAgain
            -- the end of the stream stays in the queue
            | [] :: _ => fail 0
            | (data@(_ :: _)) :: rest =>
              let toCopy := min len.toNat data.length
              match guest.writeExact memory buf (data.take toCopy) with
              | (memory, false) => .ok ⟨eFault, memory, state, 0⟩
              | (memory, true) =>
                if flags &&& msgPeek ≠ 0 then .ok ⟨toCopy, memory, state, 0⟩
                else
                  let recvBuffer := if toCopy < data.length then data.drop toCopy :: rest else rest
                  .ok ⟨toCopy, memory,
                    { state with
                      tcpConnections := state.tcpConnections.insert fd { connection with recvBuffer } }, 0⟩

/-- The bytes of an address in the memory of a tracee. -/
def sockaddrBytes (address : SockaddrIn) : Bytes :=
  Codec.natBytes 2 address.family.toNat ++ Codec.natBytes 2 address.port.toNat ++
    Codec.natBytes 4 address.addr.toNat ++ List.replicate 8 0

/-- Copy the source of a datagram, cut to the room the caller offers, and the length of an address. -/
def writeSource (memory : G) (srcAddr addrlen : UInt64) (source : SockaddrIn) : G × Bool :=
  if srcAddr = 0 then (memory, true)
  else match guest.readExact memory addrlen 4 with
    | none => (memory, false)
    | some word =>
      let guestAddrlen := ((Codec.readNat 4 word).map Prod.fst).getD 0
      match guest.writeExact memory srcAddr ((sockaddrBytes source).take (min guestAddrlen 16)) with
      | (memory, false) => (memory, false)
      | (memory, true) => guest.writeExact memory addrlen (Codec.natBytes 4 16)

/-- Receive with a choice: the oldest datagram, or the second one. A single datagram is postponed by
the second choice. -/
def doRecvfromWithChoice (memory : G) (fd : Int32) (buf len : UInt64) (flags : UInt32)
    (srcAddr addrlen : UInt64) (choice : Int32) : Except String (Reply G) :=
  if flags &&& ~~~(msgDontwait ||| msgPeek ||| msgTrunc) ≠ 0 then .error "Unsupported UDP receive flags"
  else
    let fail (errno : Int) : Except String (Reply G) := .ok ⟨errno, memory, state, 0⟩
    match state.sockets[fd]? with
    | none => fail (invalidSocketError fdManager fd)
    | some socket =>
      if socket.type = sockStream then
        if srcAddr ≠ 0 ∨ addrlen ≠ 0 then .error "TCP recvfrom source address is unsupported"
        else state.doRecv guest fdManager memory fd buf len flags
      else if socket.type ≠ sockDgram then fail eOpnotsupp
      else
        let queue := state.udpRecvBuffers[fd]?.getD []
        if queue = [] then fail eAgain
        else if choice < 0 ∨ choice > 1 then fail eAgain
        else if choice = 1 ∧ queue.length = 1 then .ok ⟨eAgain, memory, state, 1⟩
        else
          let index := if choice = 1 then 1 else 0
          match queue[index]? with
          | none => fail eAgain
          | some datagram =>
            let copyLen := min len.toNat datagram.content.length
            match guest.writeExact memory buf (datagram.content.take copyLen) with
            | (memory, false) => .ok ⟨eFault, memory, state, 0⟩
            | (memory, true) =>
              match writeSource guest memory srcAddr addrlen datagram.source with
              | (memory, false) => .ok ⟨eFault, memory, state, 0⟩
              | (memory, true) =>
                let resultLen := if flags &&& msgTrunc ≠ 0 then datagram.content.length else copyLen
                let sockets :=
                  if flags &&& msgPeek ≠ 0 then state
                  -- the queue keeps its entry in the table, also when it is empty now
                  else { state with
                    udpRecvBuffers := state.udpRecvBuffers.insert fd (queue.eraseIdx index) }
                .ok ⟨resultLen, memory, sockets, if choice = 1 then 1 else 0⟩

end SockState

end DetSim.Kernel
