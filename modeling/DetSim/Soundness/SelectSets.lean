import Mathlib
import DetSim.Model.SystemCalls
import DetSim.Model.StateValidation
import DetSim.Soundness.PipeStreams

/-! # What a select reports

A select reports the descriptors that are ready among those it is asked about, and no others. A socket or the reading end
of a pipe is ready when a read, or an accept of a listener, would find something. The number it returns counts each
descriptor once, also one that is asked for and ready for both, so it is the number of bits in the sets only when there
is none.
-/

namespace DetSim.Kernel

open Std.ExtTreeMap

namespace NodeIo

/-! ## Sets of bits -/

theorem testBit_or_shift (byte : UInt8) {shift bit : ℕ} (small : shift < 8) (inside : bit < 8) :
    (byte ||| (1 <<< UInt8.ofNat shift)).toNat.testBit bit = (byte.toNat.testBit bit || decide (bit = shift)) := by
  have mask : ∀ shift bit : Fin 8,
      ((1 : UInt8) <<< UInt8.ofNat shift.val).toNat.testBit bit.val = decide (bit.val = shift.val) := by decide
  rw [UInt8.toNat_or, Nat.testBit_or, mask ⟨shift, small⟩ ⟨bit, inside⟩]

theorem length_putBit (set : Bytes) (fd : ℕ) : (putBit set fd).length = set.length := List.length_modify ..

theorem setBit_putBit {set : Bytes} {fd : ℕ} (inside : fd < 8 * set.length) (other : ℕ) :
    setBit (putBit set fd) other = (setBit set other || decide (other = fd)) := by
  unfold setBit putBit
  rw [List.getElem?_modify]
  by_cases byte : fd / 8 = other / 8
  · have bound : other / 8 < set.length := by omega
    rw [List.getElem?_eq_getElem bound]
    simp only [byte, if_true, Option.map_eq_map, Option.map_some, Option.getD_some]
    rw [testBit_or_shift _ (by omega) (by omega)]
    congr 1
    exact decide_eq_decide.mpr (by omega)
  · rw [decide_eq_false (by omega : ¬other = fd), Bool.or_false]
    simp [byte]

theorem setBit_emptySet (fd : ℕ) : setBit emptySet fd = false := by
  unfold setBit emptySet
  rw [List.getElem?_replicate]
  split <;> simp

/-- The number of bits of a set of 1024 descriptors. -/
def bits (set : Bytes) : ℕ := (List.range 1024).countP (setBit set)

/-- Counting each of two kinds counts those of both kinds twice. -/
theorem countP_add_countP {α : Type*} (first second : α → Bool) (list : List α) :
    list.countP first + list.countP second =
      (list.countP fun item => first item || second item) + list.countP fun item => first item && second item := by
  induction list with
  | nil => rfl
  | cons item rest ih =>
    simp only [List.countP_cons]
    cases first item <;> cases second item <;> simp <;> omega

/-- A property that stops at a bound is counted below it. -/
theorem countP_range_of_le {holds : ℕ → Bool} {limit most : ℕ} (le : limit ≤ most)
    (outside : ∀ fd, limit ≤ fd → holds fd = false) : (List.range most).countP holds = (List.range limit).countP holds := by
  induction most, le using Nat.le_induction with
  | base => rfl
  | succ most le ih => rw [List.range_succ, List.countP_append, ih, List.countP_singleton, outside most le]; rfl

variable {G : Type} (node : NodeIo G)

/-! ## The scan -/

/-- A descriptor can be read, or written, without waiting. -/
def readable (fd : Int32) : Bool :=
  match node.descriptorReadiness fd with
  | .ok ready => ready &&& (epollin ||| epollhup ||| epollerr) != 0
  | .error _ => false

def writable (fd : Int32) : Bool :=
  match node.descriptorReadiness fd with
  | .ok ready => ready &&& (epollout ||| epollerr) != 0
  | .error _ => false

variable (asked : SelectSets)

/-- A descriptor is in one of the sets. -/
def SelectSets.asks (fd : ℕ) : Bool :=
  SelectSets.wants asked.readable fd || SelectSets.wants asked.writable fd || SelectSets.wants asked.exceptional fd

def readNow (fd : ℕ) : Bool := SelectSets.wants asked.readable fd && node.readable (Int32.ofNat fd)

def writeNow (fd : ℕ) : Bool := SelectSets.wants asked.writable fd && node.writable (Int32.ofNat fd)

variable {node asked}

theorem selectOne_eq {fd : ℕ} (known : SelectSets.asks asked fd = true → node.fdManager.contains (Int32.ofNat fd) = true ∧
      ∃ ready, node.descriptorReadiness (Int32.ofNat fd) = .ok ready) (found : Bytes × Bytes × ℕ) :
    node.selectOne asked found fd = .ok (if node.readNow asked fd then putBit found.1 fd else found.1,
      if node.writeNow asked fd then putBit found.2.1 fd else found.2.1,
      found.2.2 + (node.readNow asked fd || node.writeNow asked fd).toNat) := by
  unfold selectOne
  dsimp only
  split
  next none =>
    simp only [Bool.and_eq_true, Bool.not_eq_true'] at none
    simp [readNow, writeNow, none.1.1, none.1.2]
  next some =>
    have wanted : SelectSets.asks asked fd = true := by
      unfold SelectSets.asks
      cases first : SelectSets.wants asked.readable fd <;> cases second : SelectSets.wants asked.writable fd <;>
        cases third : SelectSets.wants asked.exceptional fd <;> simp_all
    obtain ⟨opened, ready, answers⟩ := known wanted
    rw [opened, answers]
    simp [readNow, writeNow, readable, writable, answers]

/-- The scan of the first descriptors: exactly the ready ones are in the sets, and each is counted once. -/
theorem scan_eq {limit : ℕ} (small : limit ≤ 1024) (known : ∀ fd < limit, SelectSets.asks asked fd = true →
      node.fdManager.contains (Int32.ofNat fd) = true ∧ ∃ ready, node.descriptorReadiness (Int32.ofNat fd) = .ok ready) :
    ∃ readOut writeOut : Bytes, (List.range limit).foldlM (node.selectOne asked) (emptySet, emptySet, 0) =
        .ok (readOut, writeOut,
          (List.range limit).countP fun fd => node.readNow asked fd || node.writeNow asked fd) ∧
      readOut.length = 128 ∧ writeOut.length = 128 ∧
      (∀ fd, setBit readOut fd = (decide (fd < limit) && node.readNow asked fd)) ∧
      ∀ fd, setBit writeOut fd = (decide (fd < limit) && node.writeNow asked fd) := by
  have marks : ∀ {set : Bytes} {limit : ℕ} (now : ℕ → Bool), limit < 1024 → set.length = 128 →
      (∀ fd, setBit set fd = (decide (fd < limit) && now fd)) →
      (if now limit then putBit set limit else set).length = 128 ∧
        ∀ fd, setBit (if now limit then putBit set limit else set) fd = (decide (fd < limit + 1) && now fd) := by
    intro set limit now below sized all
    have next : ∀ fd, decide (fd < limit + 1) = (decide (fd < limit) || decide (fd = limit)) := by
      intro fd
      rw [← Bool.decide_or, decide_eq_decide]
      omega
    cases here : now limit
    · refine ⟨sized, fun fd => ?_⟩
      rw [if_neg Bool.false_ne_true, all, next]
      by_cases same : fd = limit
      · rw [same, here, Bool.and_false, Bool.and_false]
      · rw [decide_eq_false same, Bool.or_false]
    · refine ⟨by rw [if_pos rfl, length_putBit, sized], fun fd => ?_⟩
      rw [if_pos rfl, setBit_putBit (by omega), all, next]
      by_cases same : fd = limit
      · rw [same, here]
        simp
      · rw [decide_eq_false same, Bool.or_false, Bool.or_false]
  induction limit with
  | zero => exact ⟨emptySet, emptySet, rfl, rfl, rfl, by simp [setBit_emptySet], by simp [setBit_emptySet]⟩
  | succ limit ih =>
    obtain ⟨readOut, writeOut, scanned, readSized, writeSized, reads, writes⟩ :=
      ih (by omega) fun fd below => known fd (by omega)
    obtain ⟨readSized, reads⟩ := marks (node.readNow asked) (by omega) readSized reads
    obtain ⟨writeSized, writes⟩ := marks (node.writeNow asked) (by omega) writeSized writes
    refine ⟨_, _, ?_, readSized, writeSized, reads, writes⟩
    rw [List.range_succ, List.foldlM_append, scanned, List.countP_append, List.countP_singleton]
    change List.foldlM (node.selectOne asked) _ [limit] = _
    rw [List.foldlM_cons, selectOne_eq (known limit (by omega))]
    change Except.ok _ = _
    cases node.readNow asked limit <;> cases node.writeNow asked limit <;> rfl

/-- Descriptors beyond the limit are not looked at. -/
theorem scan_congr {other : SelectSets} {limit : ℕ} (same : ∀ fd < limit,
      SelectSets.wants asked.readable fd = SelectSets.wants other.readable fd ∧
      SelectSets.wants asked.writable fd = SelectSets.wants other.writable fd ∧
      SelectSets.wants asked.exceptional fd = SelectSets.wants other.exceptional fd) (found : Bytes × Bytes × ℕ) :
    (List.range limit).foldlM (node.selectOne asked) found = (List.range limit).foldlM (node.selectOne other) found := by
  have each : ∀ fds : List ℕ, (∀ fd ∈ fds, fd < limit) → ∀ found,
      fds.foldlM (node.selectOne asked) found = fds.foldlM (node.selectOne other) found := by
    intro fds below
    induction fds with
    | nil => exact fun _ => rfl
    | cons fd rest ih =>
      intro found
      obtain ⟨reads, writes, excepts⟩ := same fd (below fd List.mem_cons_self)
      rw [List.foldlM_cons, List.foldlM_cons]
      have one : node.selectOne asked found fd = node.selectOne other found fd := by
        unfold selectOne
        rw [reads, writes, excepts]
      rw [one]
      congr 1
      funext next
      exact ih (fun fd member => below fd (List.mem_cons_of_mem _ member)) next
  exact each _ (fun fd member => List.mem_range.mp member) found

/-! ## Ready descriptors -/

/-- The descriptors of a process are those of a valid state. -/
structure Valid (node : NodeIo G) (state : TraceeState) : Prop where
  fds : state.fdManagerState = node.fdManager
  files : state.fsState = node.fsState
  sockets : state.sockState = node.sockState
  checked : validateIoState state = true

section Valid

variable {state : TraceeState} (valid : node.Valid state) {fd : Int32}
include valid

theorem Valid.parts : validateDescriptors state = true ∧ validatePipes state = true ∧ validateSockets state = true := by
  have checked := valid.checked
  unfold validateIoState at checked
  simp only [Bool.and_eq_true] at checked
  tauto

/-- A descriptor has the resource of its kind. -/
theorem Valid.resource {entry : FdEntry} (opened : node.fdManager[fd]? = some entry) :
    (entry.kind = .file ∨ entry.kind = .stdio → node.fsState.openFiles.contains fd = true) ∧
    (entry.kind = .socket → ∃ socket, node.sockState.sockets[fd]? = some socket) ∧
    (entry.kind = .pipe → node.sockState.sockets[fd]? = none ∧ ∃ signedId, node.fsState.pipeFds[fd]? = some signedId) := by
  have all := valid.parts.1
  unfold validateDescriptors at all
  rw [valid.fds, valid.files, valid.sockets] at all
  have one := List.all_eq_true.mp all _ (mem_toList_iff_getElem?_eq_some.mpr opened)
  simp only [Bool.and_eq_true, beq_iff_eq, Bool.or_eq_true] at one
  have ofSocket : node.sockState.sockets.contains fd = (node.sockState.sockets[fd]?).isSome := contains_eq_isSome_getElem?
  have ofPipe : node.fsState.pipeFds.contains fd = (node.fsState.pipeFds[fd]?).isSome := contains_eq_isSome_getElem?
  rw [ofSocket, ofPipe] at one
  obtain ⟨count, kinds⟩ := one
  refine ⟨fun kind => ?_, fun kind => ?_, fun kind => ?_⟩
  · rcases kind with kind | kind <;> simp only [kind, reduceCtorEq, or_false, or_true, and_false, and_true] at kinds <;>
      exact kinds
  · simp only [kind, reduceCtorEq, or_false, false_or, and_false, and_true] at kinds
    exact Option.isSome_iff_exists.mp kinds
  · simp only [kind, reduceCtorEq, or_false, false_or, and_false, and_true] at kinds
    refine ⟨?_, Option.isSome_iff_exists.mp kinds⟩
    rw [kinds] at count
    cases socket : node.sockState.sockets[fd]? with
    | none => rfl
    | some socket =>
      rw [socket] at count
      simp at count

theorem Valid.pipe {signedId : Int32} (named : node.fsState.pipeFds[fd]? = some signedId) :
    signedId ≠ 0 ∧ ∃ pipe, node.fsState.pipes[if 0 < signedId then signedId else -signedId]? = some pipe := by
  have all := valid.parts.2.1
  unfold validatePipes at all
  rw [valid.fds, valid.files] at all
  have one := List.all_eq_true.mp (Bool.and_eq_true_iff.mp all).1 _ (mem_toList_iff_getElem?_eq_some.mpr named)
  simp only [Bool.and_eq_true, bne_iff_ne] at one
  obtain ⟨⟨⟨⟨-, nonzero⟩, -⟩, there⟩, -⟩ := one
  rw [contains_eq_isSome_getElem?] at there
  exact ⟨nonzero, Option.isSome_iff_exists.mp there⟩

theorem Valid.socket {socket : Socket} (there : node.sockState.sockets[fd]? = some socket) :
    (socket.type = sockStream ∨ socket.type = sockDgram) ∧
      (node.sockState.tcpConnections[fd]?).isSome = socket.connected ∧
      (socket.connected = true → socket.type = sockStream ∧ socket.listening = false) ∧
      (socket.listening = true → socket.type = sockStream) := by
  have all := valid.parts.2.2
  unfold validateSockets at all
  rw [valid.fds, valid.sockets] at all
  have one := List.all_eq_true.mp all _ (mem_toList_iff_getElem?_eq_some.mpr there)
  simp only [Bool.and_eq_true, Bool.or_eq_true, beq_iff_eq, Bool.not_eq_true', contains_eq_isSome_getElem?,
    and_assoc] at one
  obtain ⟨-, -, -, kind, -, -, -, -, -, -, connection, connected, listening, -⟩ := one
  refine ⟨kind, connection, fun is => ?_, fun is => ?_⟩
  · exact connected.resolve_left (by rw [is]; decide)
  · exact (listening.resolve_left (by rw [is]; decide)).1

/-- The readiness of an open descriptor of a valid state is known. -/
theorem Valid.readiness (opened : node.fdManager.contains fd = true) :
    ∃ ready, node.descriptorReadiness fd = .ok ready := by
  obtain ⟨entry, found⟩ := Option.isSome_iff_exists.mp (contains_eq_isSome_getElem?.symm.trans opened)
  obtain ⟨file, socket, pipe⟩ := valid.resource found
  have type : node.fdManager.getFdType fd = some entry.kind := by rw [FdManager.getFdType, found]; rfl
  unfold descriptorReadiness
  rw [type]
  cases kind : entry.kind with
  | file => simp [requireFile, file (.inl kind), Except.map]
  | stdio => simp [requireFile, file (.inr kind), Except.map]
  | epoll => exact ⟨_, rfl⟩
  | socket =>
    obtain ⟨socket, there⟩ := socket kind
    simp [socketPayload, there, bind, Except.bind]
  | pipe =>
    obtain ⟨-, signedId, named⟩ := pipe kind
    obtain ⟨-, pipe, there⟩ := valid.pipe named
    have ends : node.pipeEnd fd = some (signedId, pipe) := by
      simp [pipeEnd, type, kind, named, there]
    simp [ends]

/-- A listener is readable when it has connections to accept. -/
theorem Valid.readable_listener (opened : node.fdManager.getFdType fd = some .socket) {socket : Socket}
    (there : node.sockState.sockets[fd]? = some socket) (listening : socket.listening = true) :
    node.readable fd = true ↔ socket.pendingConnections ≠ [] := by
  have stream := (valid.socket there).2.2.2 listening
  have events : node.sockState.readyEvents fd node.fsState = if socket.pendingConnections = [] then 0 else epollin := by
    simp [SockState.readyEvents, there, stream, listening, show sockStream ≠ sockDgram by decide]
  unfold readable descriptorReadiness
  simp only [opened, socketPayload, there, listening, bind, Except.bind, events]
  by_cases none : socket.pendingConnections = []
  · simp [none]
  · simp [none]
    decide

/-- Another socket is readable when a read does not find it empty: there is a message, or no connection at all. -/
theorem Valid.readable_socket (opened : node.fdManager.getFdType fd = some .socket) {socket : Socket}
    (there : node.sockState.sockets[fd]? = some socket) (plain : socket.listening = false) :
    node.readable fd = true ↔ if socket.type = sockDgram then node.sockState.udpRecvBuffers[fd]?.getD [] ≠ []
      else ∀ connection, node.sockState.tcpConnections[fd]? = some connection → connection.recvBuffer ≠ [] := by
  obtain ⟨type, connection, connected, -⟩ := valid.socket there
  have apart : sockStream ≠ sockDgram := by decide
  unfold readable descriptorReadiness
  simp only [opened, socketPayload, there, bind, Except.bind]
  rcases type with stream | datagram
  · have notDatagram : socket.type ≠ sockDgram := stream ▸ apart
    rw [if_neg notDatagram]
    cases is : socket.connected with
    | false =>
      rw [is] at connection
      have none := Option.isSome_eq_false_iff.mp connection
      rw [Option.isNone_iff_eq_none] at none
      simp [SockState.readyEvents, there, apart, stream, plain, is, none]
      decide
    | true =>
      rw [is] at connection
      obtain ⟨found, known⟩ := Option.isSome_iff_exists.mp connection
      simp only [SockState.readyEvents, there, notDatagram, plain, is, known]
      by_cases none : found.recvBuffer = [] <;> simp [none]
      · decide
      · split <;> decide
  · simp only [SockState.readyEvents, there, datagram]
    by_cases none : node.sockState.udpRecvBuffers[fd]?.getD [] = [] <;> simp [none, apart.symm] <;> decide

/-- The reading end of a pipe is readable when there is something in it or nobody can write to it. -/
theorem Valid.readable_pipe (opened : node.fdManager.getFdType fd = some .pipe) {signedId : Int32}
    (reading : 0 < signedId) {pipe : Pipe} (ends : node.pipeEnd fd = some (signedId, pipe)) :
    node.readable fd = true ↔ pipe.buffer ≠ [] ∨ pipe.writeClosed = true := by
  obtain ⟨entry, found, kind⟩ := Option.map_eq_some_iff.mp opened
  obtain ⟨noSocket, -⟩ := (valid.resource found).2.2 kind
  have located := ends
  unfold pipeEnd at located
  rw [if_pos opened] at located
  obtain ⟨other, named, located⟩ := Option.bind_eq_some_iff.mp located
  obtain ⟨found, there, same⟩ := Option.map_eq_some_iff.mp located
  obtain ⟨rfl, rfl⟩ := Prod.mk.inj same
  rw [if_pos reading] at there
  have notWriting : ¬other < 0 := Int32.lt_asymm reading
  have events : node.sockState.readyEvents fd node.fsState =
      (if found.buffer = [] ∧ !found.writeClosed then 0 else epollin) ||| if found.writeClosed then epollhup else 0 := by
    simp only [SockState.readyEvents, noSocket, named, there, reading, if_true]
  unfold readable descriptorReadiness
  simp only [opened, ends, events, reading, notWriting, true_and, false_and, if_false]
  by_cases none : found.buffer = [] <;> cases closed : found.writeClosed <;> simp [none] <;> decide

omit valid

/-! ## Reads and accepts -/

theorem copyPeer_ne_eagain (guest : GuestMemory G) (memory : G) (addr addrlen : UInt64) (peer : SockaddrIn) :
    (copyPeer guest memory addr addrlen peer).1 ≠ eAgain := by
  unfold copyPeer
  repeat' split
  all_goals dsimp only; decide

/-- An accept would have to wait exactly if the listener has no connection. -/
theorem doAccept_eagain_iff (guest : GuestMemory G) {socket : Socket}
    (there : node.sockState.sockets[fd]? = some socket) (stream : socket.type = sockStream)
    (listening : socket.listening = true) (addr addrlen : UInt64) :
    (∃ after, node.doAccept guest fd addr addrlen = .ok (eAgain, after)) ↔ socket.pendingConnections = [] := by
  unfold doAccept
  simp only [there, stream, listening, ne_eq, not_true_eq_false, if_false, Bool.not_true, Bool.false_eq_true]
  cases socket.pendingConnections with
  | nil => simp [answer]
  | cons key rest =>
    refine iff_of_false ?_ (List.cons_ne_nil _ _)
    rintro ⟨after, accepted⟩
    dsimp only at accepted
    split at accepted
    · simp [show eConnreset ≠ eAgain by decide] at accepted
    next pending _ =>
      have peer := copyPeer_ne_eagain guest node.memory addr addrlen pending.localAddr
      split at accepted
      · exact peer (Prod.mk.inj (Except.ok.inj accepted)).1
      · rcases allocated : node.fdManager.allocateFd .socket oRdwr 0 with _ | ⟨newFd, manager⟩ <;>
          rw [allocated] at accepted
        · cases accepted
        · cases newFd with
          | none => simp [bind, Except.bind, show eMfile ≠ eAgain by decide] at accepted
          | some newFd =>
            have value : newFd.toInt = eAgain := (Prod.mk.inj (Except.ok.inj accepted)).1
            have nonneg := FdManager.scanFds_ge (FdManager.allocateFd_ok allocated).1
            rw [Int32.le_iff_toInt_le, value] at nonneg
            exact absurd nonneg (by decide)

/-- A read of a pipe would have to wait exactly if it is empty and can still be written. -/
theorem doPipeRead_eagain_iff (guest : GuestMemory G) {signedId : Int32} (reading : 0 < signedId) {pipe : Pipe}
    (ends : node.pipeEnd fd = some (signedId, pipe)) (buf : UInt64) {count : UInt64} (some : count ≠ 0) :
    (∃ after, node.doPipeRead guest fd buf count = .ok (eAgain, after)) ↔
      pipe.buffer = [] ∧ pipe.writeClosed = false := by
  have notWriting : ¬signedId < 0 := Int32.lt_asymm reading
  unfold doPipeRead
  simp only [ends, notWriting, some, if_false]
  split
  next none => cases pipe.writeClosed <;> simp [none, answer, show (0 : ℤ) ≠ eAgain by decide]
  next filled =>
    refine iff_of_false ?_ fun all => filled all.1
    rintro ⟨after, read⟩
    split at read
    · simp [show eFault ≠ eAgain by decide] at read
    · have value := (Prod.mk.inj (Except.ok.inj read)).1
      have negative : eAgain < 0 := by decide
      omega

include valid

/-- A read of a socket would have to wait exactly if it has a queue and nothing is in it. -/
theorem Valid.emuRead_eagain_iff (guest : GuestMemory G) (opened : node.fdManager.getFdType fd = some .socket)
    {socket : Socket} (there : node.sockState.sockets[fd]? = some socket) (buf : UInt64) {count : UInt64}
    (some : count ≠ 0) :
    (∃ after, node.emuRead guest fd buf count = .ok (eAgain, after)) ↔
      if socket.type = sockDgram then node.sockState.udpRecvBuffers[fd]?.getD [] = []
      else ∃ connection, node.sockState.tcpConnections[fd]? = Option.some connection ∧ connection.recvBuffer = [] := by
  obtain ⟨type, connection, -, -⟩ := valid.socket there
  have apart : sockStream ≠ sockDgram := by decide
  unfold emuRead
  simp only [opened, socketPayload, there, bind, Except.bind]
  rcases type with stream | datagram
  · simp only [stream, apart, if_false]
    unfold doRecv SockState.doRecv receive
    simp only [there, some, if_false, show ¬((0 : UInt32) &&& ~~~(msgDontwait ||| msgPeek) ≠ 0) by decide]
    cases known : node.sockState.tcpConnections[fd]? with
    | none =>
      rw [known] at connection
      simp [← connection, Except.map, show eNotconn ≠ eAgain by decide]
    | some found =>
      rw [known] at connection
      simp only [← connection, Option.isSome_some, Bool.not_true, Bool.false_eq_true, if_false, Option.some.injEq,
        exists_eq_left']
      rcases found.recvBuffer with _ | ⟨_ | ⟨byte, data⟩, rest⟩
      · simp [Except.map]
      · simp [Except.map, show (0 : ℤ) ≠ eAgain by decide]
      · refine iff_of_false ?_ (List.cons_ne_nil _ _)
        rintro ⟨after, read⟩
        dsimp only at read
        split at read
        · simp [Except.map, show eFault ≠ eAgain by decide] at read
        · simp only [show ¬((0 : UInt32) &&& msgPeek ≠ 0) by decide, if_false] at read
          have value : ((min count.toNat (byte :: data).length : ℕ) : ℤ) = eAgain :=
            (Prod.mk.inj (Except.ok.inj read)).1
          have negative : eAgain < 0 := by decide
          omega
  · simp only [datagram, if_true]
    unfold doRecvfrom SockState.doRecvfromWithChoice receive
    simp only [there, datagram, apart.symm, if_false, ne_eq, not_true_eq_false,
      show (0 : UInt32) &&& ~~~(msgDontwait ||| msgPeek ||| msgTrunc) = 0 by decide]
    generalize node.sockState.udpRecvBuffers[fd]?.getD [] = queue
    cases queue with
    | nil => simp [Except.map]
    | cons first rest =>
      refine iff_of_false ?_ (List.cons_ne_nil _ _)
      rintro ⟨after, read⟩
      simp only [reduceCtorEq, if_false, show ¬((0 : Int32) < 0 ∨ (0 : Int32) > 1) by decide,
        show ¬((0 : Int32) = 1) by decide, false_and, List.getElem?_cons_zero, SockState.writeSource, if_true,
        show (0 : UInt32) &&& msgTrunc = 0 by decide, not_true_eq_false] at read
      rcases written : guest.writeExact node.memory buf (first.content.take (min count.toNat first.content.length)) with
        ⟨memory, _ | _⟩ <;> rw [written] at read
      · simp [Except.map, show eFault ≠ eAgain by decide] at read
      · have value : ((min count.toNat first.content.length : ℕ) : ℤ) = eAgain :=
          (Prod.mk.inj (Except.ok.inj read)).1
        have negative : eAgain < 0 := by decide
        omega

/-- What a select of descriptors of a valid state does. Its sets have exactly the ready descriptors below the limit that
were asked for, the third one is empty, and what was asked for beyond the limit does not matter. It returns the number of
ready descriptors, which is the number of bits in the sets exactly if none is asked for in two sets and ready for both.
A listener is readable unless an accept would have to wait, another socket and the reading end of a pipe unless a read
would. -/
theorem select_reports_iff (guest : GuestMemory G) {nfds : Int32} (nonneg : 0 ≤ nfds)
    {readfds writefds exceptfds : UInt64}
    {asked : SelectSets} (reads : node.stageGuestSet guest readfds = some asked.readable)
    (writes : node.stageGuestSet guest writefds = some asked.writable)
    (excepts : node.stageGuestSet guest exceptfds = some asked.exceptional)
    (opened : ∀ fd < min nfds.toInt.toNat 1024, SelectSets.asks asked fd = true →
      node.fdManager.contains (Int32.ofNat fd) = true) :
    (∃ (readOut writeOut : Bytes) (ready : ℕ) (written : G × Bool),
      written = writeSets guest node.memory [(readfds, asked.readable, readOut), (writefds, asked.writable, writeOut),
        (exceptfds, asked.exceptional, emptySet)] ∧
      node.emuSelectScan guest nfds readfds writefds exceptfds =
        .ok (if written.2 then (ready : ℤ) else eFault, { node with memory := written.1 }) ∧
      readOut.length = 128 ∧ writeOut.length = 128 ∧
      (∀ fd, setBit readOut fd = true ↔ fd < min nfds.toInt.toNat 1024 ∧
        SelectSets.wants asked.readable fd = true ∧ node.readable (Int32.ofNat fd) = true) ∧
      (∀ fd, setBit writeOut fd = true ↔ fd < min nfds.toInt.toNat 1024 ∧
        SelectSets.wants asked.writable fd = true ∧ node.writable (Int32.ofNat fd) = true) ∧
      bits emptySet = 0 ∧ ready = ((List.range 1024).countP fun fd => setBit readOut fd || setBit writeOut fd) ∧
      (ready = bits readOut + bits writeOut + bits emptySet ↔
        ∀ fd < min nfds.toInt.toNat 1024,
          ¬(SelectSets.wants asked.readable fd = true ∧ node.readable (Int32.ofNat fd) = true ∧
            SelectSets.wants asked.writable fd = true ∧ node.writable (Int32.ofNat fd) = true))) ∧
    (∀ (memory : G) (other : SelectSets), (∀ fd < min nfds.toInt.toNat 1024,
        SelectSets.wants asked.readable fd = SelectSets.wants other.readable fd ∧
        SelectSets.wants asked.writable fd = SelectSets.wants other.writable fd ∧
        SelectSets.wants asked.exceptional fd = SelectSets.wants other.exceptional fd) →
      (List.range (min nfds.toInt.toNat 1024)).foldlM (node.selectOne asked) (emptySet, emptySet, 0) =
        (List.range (min nfds.toInt.toNat 1024)).foldlM (selectOne { node with memory } other) (emptySet, emptySet, 0)) ∧
    (∀ fd socket, node.fdManager.getFdType fd = some .socket → node.sockState.sockets[fd]? = some socket →
      socket.listening = true → ∀ addr addrlen, (node.readable fd = true ↔
        ¬∃ after, node.doAccept guest fd addr addrlen = .ok (eAgain, after))) ∧
    (∀ fd socket, node.fdManager.getFdType fd = some .socket → node.sockState.sockets[fd]? = some socket →
      socket.listening = false → ∀ buf count, count ≠ 0 → (node.readable fd = true ↔
        ¬∃ after, node.emuRead guest fd buf count = .ok (eAgain, after))) ∧
    ∀ fd signedId pipe, node.fdManager.getFdType fd = some .pipe → node.pipeEnd fd = some (signedId, pipe) →
      0 < signedId → ∀ buf count, count ≠ 0 → (node.readable fd = true ↔
        ¬∃ after, node.emuRead guest fd buf count = .ok (eAgain, after)) := by
  refine ⟨?_, fun memory other same => scan_congr same _, ?_, ?_, ?_⟩
  · obtain ⟨readOut, writeOut, scanned, sized, writeSized, reported, writeReported⟩ :=
      scan_eq (min_le_right nfds.toInt.toNat 1024)
      fun fd below wanted => ⟨opened fd below wanted, valid.readiness (opened fd below wanted)⟩
    have empty : bits emptySet = 0 := by simp [bits, setBit_emptySet]
    have either : ((List.range (min nfds.toInt.toNat 1024)).countP fun fd =>
        node.readNow asked fd || node.writeNow asked fd) =
          (List.range 1024).countP fun fd => setBit readOut fd || setBit writeOut fd := by
      rw [countP_range_of_le (min_le_right nfds.toInt.toNat 1024) fun fd above => by
        rw [reported, writeReported, decide_eq_false (not_lt.mpr above)]; rfl]
      refine List.countP_congr fun fd member => ?_
      rw [reported, writeReported, decide_eq_true (List.mem_range.mp member), Bool.true_and, Bool.true_and]
    refine ⟨readOut, writeOut, _, _, rfl, ?_, sized, writeSized, ?_, ?_, empty, either, ?_⟩
    · have notNegative : ¬nfds < 0 := Int32.not_lt.mpr nonneg
      unfold emuSelectScan
      rw [if_neg notNegative, reads, writes, excepts]
      dsimp only
      rw [scanned]
    · intro fd
      rw [reported, Bool.and_eq_true, decide_eq_true_iff, readNow, Bool.and_eq_true]
    · intro fd
      rw [writeReported, Bool.and_eq_true, decide_eq_true_iff, writeNow, Bool.and_eq_true]
    · rw [either, empty, add_zero, bits, bits, countP_add_countP, left_eq_add, List.countP_eq_zero]
      simp only [List.mem_range, reported, writeReported, readNow, writeNow, Bool.and_eq_true, decide_eq_true_iff]
      constructor
      · rintro none fd below ⟨asks, can, also, both⟩
        exact none fd (by omega) ⟨⟨below, asks, can⟩, below, also, both⟩
      · rintro none fd _ ⟨⟨below, asks, can⟩, _, also, both⟩
        exact none fd below ⟨asks, can, also, both⟩
  · intro fd socket type there listening addr addrlen
    rw [valid.readable_listener type there listening,
      doAccept_eagain_iff guest there ((valid.socket there).2.2.2 listening) listening]
  · intro fd socket type there plain buf count some
    rw [valid.readable_socket type there plain, valid.emuRead_eagain_iff guest type there buf some]
    split <;> simp
  · intro fd signedId pipe type ends reading buf count some
    have read : node.emuRead guest fd buf count = node.doPipeRead guest fd buf count := by
      unfold emuRead
      rw [type]
    rw [valid.readable_pipe type reading ends, read, doPipeRead_eagain_iff guest reading ends buf some]
    simp [or_iff_not_imp_left]

end Valid

/-! ## A descriptor that is ready for both -/

/-- A process with its standard input and output, and a pipe that is empty. -/
def consoleState : TraceeState :=
  { fdManagerState := FdManager.initial.insert 3 ⟨.pipe, 0, 0⟩ |>.insert 4 ⟨.pipe, 1, 0⟩
    fsState :=
      { openFiles := (∅ : Map Int32 OpenFileDescription).insert 0 ⟨[47], 0⟩ |>.insert 1 ⟨[47], 0⟩ |>.insert 2 ⟨[47], 0⟩
        filesystem := (∅ : Map Bytes VFSNode).insert [47] ⟨{}, ⟨0, 0, 1, 0, 0⟩⟩
        pipes := (∅ : Map Int32 Pipe).insert 1 ⟨[], false, false⟩
        pipeFds := (∅ : Map Int32 Int32).insert 3 1 |>.insert 4 (-1) } }

def console : NodeIo Unit :=
  ⟨consoleState.fdManagerState, consoleState.fsState, consoleState.sockState, ()⟩

/-- A set of descriptors below eight. -/
def lowSet (mask : UInt8) : Bytes := mask :: List.replicate 127 0

/-- Memory with a set at every address, by its number. -/
def lowSets : GuestMemory Unit :=
  ⟨fun _ address _ => some (lowSet (UInt8.ofNat address.toNat)), fun memory _ _ => (memory, true)⟩

theorem stage_lowSets : console.stageGuestSet lowSets 9 = some (some (lowSet 9)) ∧
    console.stageGuestSet lowSets 1 = some (some (lowSet 1)) ∧
    console.stageGuestSet lowSets 18 = some (some (lowSet 18)) ∧ console.stageGuestSet lowSets 0 = some none :=
  ⟨rfl, rfl, rfl, rfl⟩

/-- The standard input can be read and the pipe cannot, the standard output and the pipe can be written. -/
theorem select_reports_iff_console : ∃ (readOut writeOut : Bytes) (ready : ℕ),
    console.emuSelectScan lowSets 5 9 18 0 = .ok (ready, console) ∧
    (∀ fd, setBit readOut fd = true ↔ fd < 5 ∧ setBit (lowSet 9) fd = true ∧ console.readable (Int32.ofNat fd) = true) ∧
    (∀ fd, setBit writeOut fd = true ↔
      fd < 5 ∧ setBit (lowSet 18) fd = true ∧ console.writable (Int32.ofNat fd) = true) ∧
    setBit readOut 0 = true ∧ setBit readOut 3 = false ∧ setBit writeOut 1 = true ∧ setBit writeOut 4 = true ∧
    ready = bits readOut + bits writeOut + bits emptySet := by
  have valid : console.Valid consoleState := ⟨rfl, rfl, rfl, by decide +kernel⟩
  have opened : ∀ fd < min (Int32.toInt 5).toNat 1024,
      SelectSets.asks ⟨some (lowSet 9), some (lowSet 18), none⟩ fd = true →
      console.fdManager.contains (Int32.ofNat fd) = true := by decide +kernel
  obtain ⟨⟨readOut, writeOut, ready, written, rfl, returned, sized, writeSized, reported, writeReported, _, _, exact⟩, _⟩ :=
    select_reports_iff valid lowSets (by decide) stage_lowSets.1 stage_lowSets.2.2.1 stage_lowSets.2.2.2 opened
  have kept : writeSets lowSets console.memory [(9, some (lowSet 9), readOut), (18, some (lowSet 18), writeOut),
      (0, none, emptySet)] = ((), true) := by
    have room : GuestMemory.transferable 9 128 = true ∧ GuestMemory.transferable 18 128 = true := by decide
    have filled : readOut ≠ [] ∧ writeOut ≠ [] :=
      ⟨List.ne_nil_of_length_pos (by omega), List.ne_nil_of_length_pos (by omega)⟩
    simp only [writeSets, lowSets, GuestMemory.writeExact, sized, writeSized, room, filled, if_true, if_false]
  rw [kept] at returned
  refine ⟨readOut, writeOut, ready, returned, reported, writeReported, ?_, ?_, ?_, ?_, exact.mpr (by decide +kernel)⟩
  · exact (reported 0).mpr (by decide +kernel)
  · exact Bool.eq_false_iff.mpr fun set => absurd ((reported 3).mp set) (by decide +kernel)
  · exact (writeReported 1).mpr (by decide +kernel)
  · exact (writeReported 4).mpr (by decide +kernel)

/-- The standard input is in both sets, but the return value is 1. -/
theorem select_counts_once :
    (List.range 1).foldlM (console.selectOne ⟨some (lowSet 1), some (lowSet 1), none⟩) (emptySet, emptySet, 0) =
      .ok (lowSet 1, lowSet 1, 1) ∧
    console.emuSelectScan lowSets 1 1 1 0 = .ok (1, console) ∧
    bits (lowSet 1) + bits (lowSet 1) + bits emptySet = 2 := by
  have scanned : (List.range 1).foldlM (console.selectOne ⟨some (lowSet 1), some (lowSet 1), none⟩)
      (emptySet, emptySet, 0) = .ok (lowSet 1, lowSet 1, 1) := by decide +kernel
  refine ⟨scanned, ?_, by decide +kernel⟩
  unfold emuSelectScan
  rw [if_neg (by decide), stage_lowSets.2.1, stage_lowSets.2.2.2]
  dsimp only
  have written : lowSets.writeExact () 1 (lowSet 1) = ((), true) := by decide +kernel
  have outputs : writeSets lowSets console.memory
      [(1, some (lowSet 1), lowSet 1), (1, some (lowSet 1), lowSet 1), (0, none, emptySet)] = ((), true) := by
    simp only [writeSets, show console.memory = () from rfl, written]
  rw [show min (Int32.toInt 1).toNat 1024 = 1 by decide, scanned]
  dsimp only
  rw [outputs]
  rfl

end NodeIo

end DetSim.Kernel
