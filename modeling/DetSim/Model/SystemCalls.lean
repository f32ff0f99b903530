import DetSim.Model.Files
import DetSim.Model.Sockets

/-! # Calls on descriptors

Reads, writes and closes go to the file system or to the sockets by the kind of the descriptor. A descriptor on
which a thread of the process has an unfinished call is not closed, and its status flags do not change.
-/

namespace DetSim.Kernel

/-- The descriptors on which threads have calls to be issued again. -/
def pendingFds (threads : List ThreadState) : List Int32 :=
  threads.filterMap fun thread =>
    if thread.alive then
      thread.pendingSyscall.bind fun pending =>
        if pending.reason = .io ∧ pending.phase ≠ .ready then some (toInt (pending.args.get arg0)) else none
    else none

def requireNoPendingFd (threads : List ThreadState) (fd : Int32) : Except String Unit :=
  if (pendingFds threads).contains fd then
    .error "Mutating a descriptor retained by pending I/O is unsupported"
  else .ok ()

namespace NodeIo

variable {G : Type} (guest : GuestMemory G) (node : NodeIo G)

def socketPayload (fd : Int32) : Except String Socket :=
  match node.sockState.sockets[fd]? with
  | none => .error "Socket descriptor has no payload"
  | some socket => .ok socket

def emuRead (fd : Int32) (destination count : UInt64) : Except String (Int × NodeIo G) :=
  match node.fdManager.getFdType fd with
  | none => node.answer eBadf
  | some .socket => do
    let socket ← node.socketPayload fd
    if socket.type = sockDgram then node.doRecvfrom guest fd destination count 0 0 0 0
    else node.doRecv guest fd destination count 0
  | some .pipe => node.doPipeRead guest fd destination count
  | some .epoll => node.answer eInval
  | some .file => node.readFile guest fd destination count
  | some .stdio => node.readFile guest fd destination count

def emuFcntl (threads : List ThreadState) (fd command argument : Int32) : Except String (Int × NodeIo G) := do
  if command = fSetfl then requireNoPendingFd threads fd
  let (result, manager) ← node.fdManager.doFcntl fd command argument
  .ok (result, { node with fdManager := manager })

/-- A descriptor of a file has a description. -/
def requireFile (fd : Int32) : Except String Unit :=
  if node.fsState.openFiles.contains fd then .ok ()
  else .error "Descriptor registry has no corresponding file payload"

/-- How many bytes a read finds without waiting. -/
def readableBytes (fd : Int32) (kind : FdType) : Except String (Option ℕ) :=
  match kind with
  | .pipe =>
    match node.pipeEnd fd with
    | none => .error "map::at"
    | some (_, pipe) => .ok (some pipe.buffer.length)
  | .socket => do
    let socket ← node.socketPayload fd
    if socket.listening then .ok none
    else if socket.type = sockDgram then
      .ok (some ((node.sockState.udpRecvBuffers[fd]?.bind List.head?).elim 0 fun datagram => datagram.content.length))
    else
      .ok (some (node.sockState.tcpConnections[fd]?.elim 0 fun connection =>
        (connection.recvBuffer.map List.length).sum))
  | .file => do
    let (description, file) ← node.openedFile fd
    .ok (some (file.content.bytes.length - description.offset.toUInt64.toNat))
  | .stdio => .ok none
  | .epoll => .error "Unsupported virtual ioctl descriptor kind"

def emuIoctl (threads : List ThreadState) (fd : Int32) (request : UInt32) (argument : UInt64) :
    Except String (Int × NodeIo G) :=
  match node.fdManager[fd]? with
  | none => node.answer eBadf
  | some entry =>
    if request = 0x5451 ∨ request = 0x5450 then
      node.emuFcntl threads fd fSetfd (if request = 0x5451 then fdCloexec else 0)
    else if request = 0x5401 ∨ request = 0x5413 then node.answer eNotty
    else if request = 0x5421 then do
      requireNoPendingFd threads fd
      match guest.readExact node.memory argument 4 with
      | none => node.answer eFault
      | some word =>
        let status := entry.statusFlags
        node.emuFcntl threads fd fSetfl (if wordNat 4 word ≠ 0 then status ||| oNonblock else status &&& ~~~oNonblock)
    else if request = 0x541b then do
      match ← node.readableBytes fd entry.kind with
      | none => node.answer (if entry.kind = .stdio then eNotty else eInval)
      | some bytes =>
        let (memory, written) := guest.writeExact node.memory argument (Codec.natBytes 4 (min bytes (2 ^ 31 - 1)))
        .ok (if written then 0 else eFault, { node with memory })
    else .error "Unsupported virtual ioctl request"

/-! ## Waiting for several descriptors -/

/-- The bits of a set of 1024 descriptors in memory. -/
def setBit (set : Bytes) (fd : ℕ) : Bool := (set[fd / 8]?.getD 0).toNat.testBit (fd % 8)

def putBit (set : Bytes) (fd : ℕ) : Bytes := set.modify (fd / 8) fun byte => byte ||| (1 <<< UInt8.ofNat (fd % 8))

def emptySet : Bytes := List.replicate 128 0

/-- What can be done with a descriptor without waiting. -/
def descriptorReadiness (fd : Int32) : Except String UInt32 :=
  match node.fdManager.getFdType fd with
  | some .file => (node.requireFile fd).map fun _ => epollin ||| epollout
  | some .stdio => (node.requireFile fd).map fun _ => epollin ||| epollout
  | some .epoll => .ok (if node.sockState.epollReady fd node.fsState then epollin else 0)
  | some .socket => do
    let socket ← node.socketPayload fd
    let ready := node.sockState.readyEvents fd node.fsState
    .ok (if socket.type = sockStream ∧ !socket.connected ∧ !socket.listening then ready ||| epollout ||| epollhup
      else ready)
  | some .pipe =>
    match node.pipeEnd fd with
    | none => .error "map::at"
    | some (signedId, pipe) =>
      let ready := node.sockState.readyEvents fd node.fsState
      let readable := if 0 < signedId ∧ pipe.buffer = [] then ready &&& ~~~epollin else ready
      .ok (if signedId < 0 ∧ pipe.buffer.length < pipeCapacity then readable ||| epollout else readable)
  | none => .error "Unsupported select descriptor kind"

/-- The sets of a select, those asked for and those found ready. -/
structure SelectSets where
  readable : Option Bytes
  writable : Option Bytes
  exceptional : Option Bytes

def SelectSets.wants (set : Option Bytes) (fd : ℕ) : Bool := set.any fun set => setBit set fd

/-- Look at one descriptor of a select: the sets with what was found, and the number of ready ones. -/
def selectOne (asked : SelectSets) (found : Bytes × Bytes × ℕ) (fd : ℕ) :
    Except (String ⊕ Int) (Bytes × Bytes × ℕ) :=
  let wantRead := SelectSets.wants asked.readable fd
  let wantWrite := SelectSets.wants asked.writable fd
  if !wantRead && !wantWrite && !SelectSets.wants asked.exceptional fd then .ok found
  else if !node.fdManager.contains (Int32.ofNat fd) then .error (.inr eBadf)
  else match node.descriptorReadiness (Int32.ofNat fd) with
    | .error message => .error (.inl message)
    | .ok ready =>
      let readNow := wantRead && ready &&& (epollin ||| epollhup ||| epollerr) != 0
      let writeNow := wantWrite && ready &&& (epollout ||| epollerr) != 0
      .ok (if readNow then putBit found.1 fd else found.1, if writeNow then putBit found.2.1 fd else found.2.1,
        found.2.2 + (readNow || writeNow).toNat)

/-- Read the set at an address, if there is one. -/
def stageGuestSet (pointer : UInt64) : Option (Option Bytes) :=
  if pointer = 0 then some none else (guest.readExact node.memory pointer 128).map some

/-- Write the sets that were asked for. -/
def writeSets (memory : G) : List (UInt64 × Option Bytes × Bytes) → G × Bool
  | [] => (memory, true)
  | (_, none, _) :: rest => writeSets memory rest
  | (pointer, some _, found) :: rest =>
    match guest.writeExact memory pointer found with
    | (memory, false) => (memory, false)
    | (memory, true) => writeSets memory rest

def emuSelectScan (nfds : Int32) (readfds writefds exceptfds : UInt64) : Except String (Int × NodeIo G) :=
  if nfds < 0 then node.answer eInval
  else match node.stageGuestSet guest readfds, node.stageGuestSet guest writefds,
      node.stageGuestSet guest exceptfds with
    | some readable, some writable, some exceptional =>
      match (List.range (min nfds.toInt.toNat 1024)).foldlM (node.selectOne ⟨readable, writable, exceptional⟩)
          (emptySet, emptySet, 0) with
      | .error (.inl message) => .error message
      | .error (.inr errno) => node.answer errno
      | .ok (readOut, writeOut, ready) =>
        match writeSets guest node.memory
            [(readfds, readable, readOut), (writefds, writable, writeOut), (exceptfds, exceptional, emptySet)] with
        | (memory, written) => .ok (if written then (ready : Int) else eFault, { node with memory })
    | _, _, _ => node.answer eFault

/-- A timed-out wait reports no ready descriptor. -/
def emuSelectClear (pointers : List UInt64) : NodeIo G :=
  { node with
    memory := pointers.foldl (fun memory pointer =>
      if pointer = 0 then memory else (guest.writeExact memory pointer emptySet).1) node.memory }

end NodeIo

namespace Nodes

variable {G : Type} {np : ℕ} (guest : GuestMemory G) (addrs : Addresses np) (now : FileTime) (nodes : Nodes G np)
  (cursor : Fin np)

def emuWrite (fd : Int32) (source count : UInt64) : Except String (Int × Nodes G np) :=
  match (nodes cursor).fdManager.getFdType fd with
  | none => nodes.answer eBadf
  | some .socket => do
    let socket ← (nodes cursor).socketPayload fd
    if socket.type = sockDgram then nodes.doSendto guest addrs cursor fd source count 0 0 0
    else nodes.doSend guest addrs cursor fd source count 0
  | some .pipe => nodes.local_ cursor fun node => node.doPipeWrite guest fd source count
  | some .epoll => nodes.answer eInval
  | some .file => nodes.local_ cursor fun node => node.writeFileFrom guest now fd source count
  | some .stdio => nodes.local_ cursor fun node => node.writeFileFrom guest now fd source count

/-- Close a descriptor of the calling node, by its kind. -/
def closeKind (fd : Int32) : Except String (Int × Nodes G np) :=
  match (nodes cursor).fdManager.getFdType fd with
  | none => nodes.answer eBadf
  | some .socket => nodes.doCloseSocket addrs cursor fd
  | some .pipe => nodes.local_ cursor fun node => node.doPipeClose fd
  | some .epoll => nodes.local_ cursor fun node => node.doEpollClose fd
  | some .file => nodes.local_ cursor fun node => do node.requireFile fd; node.doClose fd
  | some .stdio => nodes.local_ cursor fun node => do node.requireFile fd; node.doClose fd

def emuClose (threads : List ThreadState) (fd : Int32) : Except String (Int × Nodes G np) := do
  requireNoPendingFd threads fd
  let (result, closed) ← nodes.closeKind addrs cursor fd
  if result = 0 then
    .ok (0, Function.update closed cursor
      { closed cursor with sockState := (closed cursor).sockState.forgetFd fd })
  else .ok (result, closed)

/-- A new pipe, whose descriptors are written to memory. Without that it is closed again. -/
def emuPipe (threads : List ThreadState) (pipefd : UInt64) (flags : Int32) : Except String (Int × Nodes G np) := do
  let ((result, ends), node) ← (nodes cursor).doPipe flags
  let opened := Function.update nodes cursor node
  match ends with
  | none => .ok (result, opened)
  | some (readFd, writeFd) =>
    let bytes := Codec.natBytes 4 readFd.toInt.toNat ++ Codec.natBytes 4 writeFd.toInt.toNat
    match guest.writeExact node.memory pipefd bytes with
    | (memory, true) => .ok (0, Function.update opened cursor { node with memory })
    | (memory, false) => do
      let failed := Function.update opened cursor { node with memory }
      let (_, failed) ← emuClose addrs failed cursor threads readFd
      let (_, failed) ← emuClose addrs failed cursor threads writeFd
      .ok (eFault, failed)

/-! ## Gathered writes -/

/-- The parts of a gathered write: address and length. -/
abbrev Iovec := UInt64 × ℕ

/-- A range of addresses is looked at. Beyond the low half it is no range at all, near its end unsupported. -/
def writevRangeOk (address : UInt64) (length : ℕ) : Except String Bool :=
  if 2 ^ 63 ≤ address.toNat ∨ 2 ^ 63 - 1 < address.toNat + length then .ok false
  else if 2 ^ 47 - 4096 ≤ address.toNat ∨ 2 ^ 47 - 4096 < address.toNat + length then
    .error "Unsupported writev high user address range"
  else .ok true

/-- Look at ranges up to the first that is none. -/
def writevRangesOk : List Iovec → Except String Bool
  | [] => .ok true
  | (base, length) :: rest => do
    match ← writevRangeOk base length with
    | false => .ok false
    | true => writevRangesOk rest

/-- Import the descriptions of the parts, in order. -/
def importIovecs (memory : G) (metadata : UInt64) : ℕ → List Iovec → Except Int (List Iovec)
  | 0, entries => .ok entries.reverse
  | count + 1, entries =>
    let item := metadata + 16 * UInt64.ofNat entries.length
    match guest.readExact memory (item + 8) 8, guest.readExact memory item 8 with
    | some length, some base =>
      if 2 ^ 63 - 1 < wordNat 8 length then .error eInval
      else importIovecs memory metadata count ((UInt64.ofNat (wordNat 8 base), wordNat 8 length) :: entries)
    | _, _ => .error eFault

/-- Cut the parts to what one call writes. -/
def clipIovecs : ℕ → List Iovec → List Iovec
  | _, [] => []
  | room, (base, length) :: rest => (base, min length room) :: clipIovecs (room - min length room) rest

def maxRwCount : ℕ := 0x7ffff000

/-- The bytes of all parts. -/
def gather (memory : G) : List Iovec → Option Bytes
  | [] => some []
  | (base, length) :: rest => do
    let bytes ← guest.readExact memory base length
    let others ← gather memory rest
    some (bytes ++ others)

/-- The kinds of descriptors that take gathered writes. -/
def writevTarget (fd : Int32) (kind : FdType) (total : ℕ) : Except String Unit :=
  match kind with
  | .socket => do
    let socket ← (nodes cursor).socketPayload fd
    if socket.domain ≠ afInet ∨ socket.type ≠ sockStream ∨ !socket.connected then
      .error "Unsupported writev socket; requires connected modeled TCP"
    else .ok ()
  | .file | .stdio =>
    match (nodes cursor).fsState.openFiles[fd]? with
    | none => .error "Descriptor registry has no corresponding file payload"
    | some description =>
      if total ≠ 0 ∧ (nodes cursor).fsState.mapped description.path then
        .error "Modification of a mapped virtual file is unsupported"
      else .ok ()
  | _ => .error "Unsupported writev descriptor kind"

/-- Write the gathered bytes. -/
def commitWritev (fd : Int32) (kind : FdType) (payload : Bytes) : Except String (Int × Nodes G np) :=
  if kind = .socket then do
    let (result, sent) ← nodes.doSendBuffer addrs cursor fd payload
    if result < 0 then .error "Unsupported writev non-routable TCP endpoint" else .ok (result, sent)
  else nodes.local_ cursor fun node => node.writeFile now fd payload

/-- The parts of a gathered write after the checks of their ranges, or an error number. -/
def stageParts (metadata : UInt64) (count : ℕ) : Except String (Except Int (List Iovec)) :=
  match importIovecs guest (nodes cursor).memory metadata count [] with
  | .error errno => .ok (.error errno)
  | .ok imported => do
    -- one part is cut before its range is looked at, several parts after it
    let entries := if count = 1 then clipIovecs maxRwCount imported else imported
    match ← writevRangesOk entries with
    | false => .ok (.error eFault)
    | true => .ok (.ok (clipIovecs maxRwCount entries))

def stageIovecs (metadata : UInt64) (count : ℕ) : Except String (Except Int (List Iovec)) :=
  if count = 0 then nodes.stageParts guest cursor metadata 0
  else do
    match ← writevRangeOk metadata (count * 16) with
    | false => .ok (.error eFault)
    | true => nodes.stageParts guest cursor metadata count

/-- A gathered write whose parts are known. -/
def writeParts (fd : Int32) (kind : FdType) (entries : List Iovec) : Except String (Int × Nodes G np) :=
  let total := (entries.map Prod.snd).sum
  if 64 * 1024 * 1024 < total then .error "writev staging exceeds 64MiB model limit"
  else do
    nodes.writevTarget cursor fd kind total
    match gather guest (nodes cursor).memory entries with
    | none => .error "Unsupported writev payload fault before resource commit"
    | some payload => nodes.commitWritev addrs now cursor fd kind payload

/-- The descriptor of a file has its description before anything else is looked at. -/
def writevPayload (fd : Int32) (kind : FdType) : Except String Unit :=
  if kind = .file ∨ kind = .stdio then (nodes cursor).requireFile fd else .ok ()

def emuWritev (fd : Int32) (iov : UInt64) (rawCount : UInt64) : Except String (Int × Nodes G np) :=
  let manager := (nodes cursor).fdManager
  let count := rawCount.toUInt32.toNat
  match manager.getFdType fd with
  | none => nodes.answer eBadf
  | some kind =>
    if kind = .epoll then nodes.answer eInval
    else do
      nodes.writevPayload cursor fd kind
      if kind ≠ .socket ∧ manager.getStatusFlags fd &&& oAccmode = 0 then nodes.answer eBadf
      else if 1024 < count then nodes.answer eInval
      else do
        match ← nodes.stageIovecs guest cursor iov count with
        | .error errno => nodes.answer errno
        | .ok entries => nodes.writeParts guest addrs now cursor fd kind entries

end Nodes

end DetSim.Kernel
