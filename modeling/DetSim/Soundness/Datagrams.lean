import Mathlib
import DetSim.Model.Sockets
import DetSim.ToMathlib.Except
import DetSim.ToMathlib.TreeMapSum

/-! # Datagrams are received once

The queue of a descriptor is followed through a run of sends and receives of all nodes: what was accepted into it, and
what was taken out of it. A send appends one datagram or none, and a receive takes the first or the second one, so
that nothing is lost, repeated or changed, and at most one older datagram is overtaken.
-/

namespace DetSim.Kernel

open Std ExtTreeMap

/-- A send or a receive of a node. -/
inductive UdpCall (np : ℕ)
  | send (cursor : Fin np) (fd : Int32) (buf len : UInt64) (flags : UInt32) (destAddr : UInt64) (addrlen : UInt32)
  | receive (cursor : Fin np) (fd : Int32) (buf len : UInt64) (flags : UInt32) (srcAddr addrlen : UInt64)
      (choice : Int32)

/-- The position of the datagram that a choice stands for. -/
def choiceIndex (choice : Int32) : ℕ := if choice = 1 then 1 else 0

/-- The descriptor is a datagram socket. -/
def NodeIo.datagramAt {G : Type} (node : NodeIo G) (fd : Int32) : Bool :=
  node.sockState.sockets[fd]?.any fun socket => socket.type == sockDgram

/-- A receive has copied the beginning of a datagram and its source to the memory of the tracee. -/
structure Copied {G : Type} (guest : GuestMemory G) (before after : G) (buf len : UInt64) (flags : UInt32)
    (srcAddr addrlen : UInt64) (result : Int) (datagram : UdpDatagram) : Prop where
  memory : ∃ middle, guest.writeExact before buf (datagram.content.take len.toNat) = (middle, true) ∧
    SockState.writeSource guest middle srcAddr addrlen datagram.source = (after, true)
  length : result = if flags &&& msgTrunc ≠ 0 then datagram.content.length else min len.toNat datagram.content.length

namespace Nodes

variable {G : Type} {np : ℕ} {guest : GuestMemory G} {addrs : Addresses np} {nodes next : Nodes G np}
  {node cursor : Fin np} {fd own : Int32} {result : Int}

/-- The datagrams that wait at a descriptor, the oldest first. -/
def udpQueue (nodes : Nodes G np) (node : Fin np) (fd : Int32) : List UdpDatagram :=
  (nodes node).sockState.udpRecvBuffers[fd]?.getD []

/-- A datagram is delivered to a descriptor of a node. -/
def deliverDatagram (nodes : Nodes G np) (other : Fin np) (recvFd : Int32) (datagram : UdpDatagram) : Nodes G np :=
  Function.update nodes other { nodes other with
    sockState := ((nodes other).sockState.deliverUdpDatagram recvFd datagram).1 }

/-! ## Sends -/

theorem udpRecvBuffers_deliverTo (socket : Socket) (data : Bytes) (other : Fin np) (route : Route) (node : Fin np) :
    (nodes.deliverTo socket data other route node).sockState.udpRecvBuffers =
      (nodes node).sockState.udpRecvBuffers := by
  unfold deliverTo
  split
  · rfl
  · by_cases same : node = other
    · subst same
      rw [Function.update_self]
      cases route with
      | accepted fd =>
        dsimp only [SockState.pushMessage]
        split <;> rfl
      | pending fd =>
        dsimp only [SockState.pushPending, SockState.setSocket]
        split
        · rfl
        · split <;> rfl
    · rw [Function.update_of_ne same]

theorem doSend_queues {buf len : UInt64} {flags : UInt32}
    (returned : nodes.doSend guest addrs cursor own buf len flags = .ok (result, next)) (node : Fin np) :
    (next node).sockState.udpRecvBuffers = (nodes node).sockState.udpRecvBuffers := by
  simp only [doSend, doSendBuffer, answer] at returned
  repeat' split at returned
  all_goals cases returned
  all_goals first
    | rfl
    | exact udpRecvBuffers_deliverTo ..

/-- A send of a datagram fails and changes nothing, or it succeeds; then it delivers one datagram or none. -/
theorem sendDatagram_cases {socket : Socket} {buf len : UInt64} {destination : SockaddrIn}
    (returned : nodes.sendDatagram guest addrs cursor socket buf len destination = .ok (result, next)) :
    next = nodes ∨ 0 ≤ result ∧ ∃ other recvFd datagram, next = nodes.deliverDatagram other recvFd datagram := by
  simp only [sendDatagram, answer] at returned
  repeat' split at returned
  all_goals cases returned
  all_goals first
    | exact .inl rfl
    | exact .inr ⟨Int.natCast_nonneg _, _, _, _, rfl⟩

/-- The queue of a descriptor after a delivery to any descriptor. -/
theorem udpQueue_deliver (other : Fin np) (recvFd : Int32) (datagram : UdpDatagram) :
    (nodes.deliverDatagram other recvFd datagram).udpQueue node fd = nodes.udpQueue node fd ∨
      (nodes.udpQueue node fd).length < 3 ∧
        (nodes.deliverDatagram other recvFd datagram).udpQueue node fd = nodes.udpQueue node fd ++ [datagram] := by
  unfold udpQueue deliverDatagram
  by_cases same : node = other
  · subst same
    rw [Function.update_self]
    dsimp only [SockState.deliverUdpDatagram]
    split
    · exact .inl rfl
    · next room =>
      dsimp only
      rw [getElem?_insert_eq]
      split
      · next here => exact .inr ⟨by rw [← here]; omega, by rw [← here]; rfl⟩
      · exact .inl rfl
  · rw [Function.update_of_ne same]
    exact .inl rfl

/-- A send appends at most one datagram to a queue, and none when it fails. -/
theorem doSendto_queue {buf len destAddr : UInt64} {flags addrlen : UInt32}
    (returned : nodes.doSendto guest addrs cursor own buf len flags destAddr addrlen = .ok (result, next)) :
    next.udpQueue node fd = nodes.udpQueue node fd ∨
      0 ≤ result ∧ (nodes.udpQueue node fd).length < 3 ∧
        ∃ datagram, next.udpQueue node fd = nodes.udpQueue node fd ++ [datagram] := by
  have sent {socket : Socket} {destination : SockaddrIn}
      (sent : nodes.sendDatagram guest addrs cursor socket buf len destination = .ok (result, next)) :
      next.udpQueue node fd = nodes.udpQueue node fd ∨ 0 ≤ result ∧ (nodes.udpQueue node fd).length < 3 ∧
        ∃ datagram, next.udpQueue node fd = nodes.udpQueue node fd ++ [datagram] := by
    obtain rfl | ⟨succeeds, other, recvFd, datagram, rfl⟩ := sendDatagram_cases sent
    · exact .inl rfl
    · exact (udpQueue_deliver other recvFd datagram).imp_right fun delivered =>
        ⟨succeeds, delivered.1, datagram, delivered.2⟩
  simp only [doSendto, answer] at returned
  repeat' split at returned
  all_goals first
    | exact sent returned
    | exact .inl (congrArg (·[fd]?.getD []) (doSend_queues returned node))
    | cases returned <;> exact .inl rfl

/-! ## Receives -/

theorem doRecv_queues {state : SockState} {manager : FdManager} {memory : G} {buf len : UInt64} {flags : UInt32}
    {reply : Reply G} (returned : state.doRecv guest manager memory fd buf len flags = .ok reply) :
    reply.sockets.udpRecvBuffers = state.udpRecvBuffers := by
  simp only [SockState.doRecv] at returned
  repeat' split at returned
  all_goals cases returned
  all_goals rfl

/-- A receive leaves the queues as they are when it fails or peeks; otherwise it takes the datagram of its choice. -/
theorem doRecvfrom_cases {io after : NodeIo G} {buf len srcAddr addrlen : UInt64} {flags : UInt32} {choice : Int32}
    (returned : io.doRecvfrom guest fd buf len flags srcAddr addrlen choice = .ok (result, after)) :
    (result < 0 ∨ io.datagramAt fd = false) ∧ after.sockState.udpRecvBuffers = io.sockState.udpRecvBuffers ∨
    io.datagramAt fd = true ∧ ∃ datagram,
      (io.sockState.udpRecvBuffers[fd]?.getD [])[choiceIndex choice]? = some datagram ∧
      Copied guest io.memory after.memory buf len flags srcAddr addrlen result datagram ∧
      after.sockState.udpRecvBuffers = if flags &&& msgPeek ≠ 0 then io.sockState.udpRecvBuffers
        else io.sockState.udpRecvBuffers.insert fd
          ((io.sockState.udpRecvBuffers[fd]?.getD []).eraseIdx (choiceIndex choice)) := by
  obtain ⟨reply, received, same⟩ := Except.map_eq_ok.mp returned
  cases same
  dsimp only
  simp only [SockState.doRecvfromWithChoice] at received
  split at received
  · cases received
  split at received
  · next absent =>
    cases received
    exact .inl ⟨.inr (by rw [NodeIo.datagramAt, absent]; rfl), rfl⟩
  next socket found =>
  have kind : io.datagramAt fd = (socket.type == sockDgram) := by rw [NodeIo.datagramAt, found, Option.any_some]
  split at received
  · next stream =>
    split at received
    · cases received
    · exact .inl ⟨.inr (by rw [kind, stream]; rfl), doRecv_queues received⟩
  have failed : ∀ {errno : Int} {memory : G} {budget : ℕ}, errno < 0 →
      (Except.ok ⟨errno, memory, io.sockState, budget⟩ : Except String (Reply G)) = .ok reply →
      (reply.result < 0 ∨ io.datagramAt fd = false) ∧
        reply.sockets.udpRecvBuffers = io.sockState.udpRecvBuffers := by
    intro errno memory budget negative same
    cases same
    exact ⟨.inl negative, rfl⟩
  -- every failure comes before the queue is written
  split at received
  · exact .inl (failed (by decide) received)
  next datagrams =>
  split at received
  · exact .inl (failed (by decide) received)
  split at received
  · exact .inl (failed (by decide) received)
  split at received
  · exact .inl (failed (by decide) received)
  split at received
  · exact .inl (failed (by decide) received)
  next datagram chosen =>
  split at received
  · exact .inl (failed (by decide) received)
  next copied written =>
  split at received
  · exact .inl (failed (by decide) received)
  next final sourced =>
  cases received
  refine .inr ⟨?_, datagram, chosen, ⟨⟨copied, ?_, sourced⟩, ?_⟩, ?_⟩
  · rw [kind, beq_iff_eq]
    exact not_not.mp datagrams
  · rw [← written, List.take_eq_take_min]
  · rfl
  · dsimp only
    split <;> rfl

/-! ## Runs -/

end Nodes

namespace UdpCall

variable {G : Type} {np : ℕ} (guest : GuestMemory G) (addrs : Addresses np) (nodes : Nodes G np) (node : Fin np)
  (fd : Int32)

def issue : UdpCall np → Except String (Int × Nodes G np)
  | .send cursor own buf len flags destAddr addrlen =>
    nodes.doSendto guest addrs cursor own buf len flags destAddr addrlen
  | .receive cursor own buf len flags srcAddr addrlen choice =>
    nodes.local_ cursor fun io => io.doRecvfrom guest own buf len flags srcAddr addrlen choice

/-- The datagram that a call with a result takes from the queue of a descriptor: a receive that does not fail or peek
takes the one of its choice. -/
def takes (result : Int) : UdpCall np → Option UdpDatagram
  | .send .. => none
  | .receive cursor own _ _ flags _ _ choice =>
    if cursor = node ∧ own = fd ∧ (nodes node).datagramAt fd ∧ 0 ≤ result ∧ flags &&& msgPeek = 0 then
      (nodes.udpQueue node fd)[choiceIndex choice]?
    else none

/-- A call that takes no datagram by its arguments. -/
def peeks : UdpCall np → Prop
  | .send .. => False
  | .receive _ _ _ _ flags _ _ _ => flags &&& msgPeek ≠ 0

/-- A receive takes the oldest datagram. -/
def inOrder : UdpCall np → Prop
  | .send .. => True
  | .receive _ _ _ _ _ _ _ choice => choice = 0

variable {guest addrs nodes node fd} {result : Int} {next : Nodes G np}

/-- A call leaves a queue alone, or appends a datagram, or takes the first or second one. -/
theorem issue_queue {call : UdpCall np} (returned : call.issue guest addrs nodes = .ok (result, next)) :
    call.takes nodes node fd result = none ∧
      (next.udpQueue node fd = nodes.udpQueue node fd ∨
        0 ≤ result ∧ ¬call.peeks ∧ (nodes.udpQueue node fd).length < 3 ∧
          ∃ datagram, next.udpQueue node fd = nodes.udpQueue node fd ++ [datagram]) ∨
    ∃ older datagram newer, call.takes nodes node fd result = some datagram ∧ 0 ≤ result ∧ ¬call.peeks ∧
      nodes.udpQueue node fd = older ++ datagram :: newer ∧ next.udpQueue node fd = older ++ newer ∧
      older.length ≤ 1 ∧ (call.inOrder → older = []) := by
  cases call with
  | send cursor own buf len flags destAddr addrlen =>
    refine .inl ⟨rfl, (Nodes.doSendto_queue returned).imp_right fun sent => ⟨sent.1, id, sent.2⟩⟩
  | receive cursor own buf len flags srcAddr addrlen choice =>
    obtain ⟨⟨value, after⟩, received, same⟩ := Except.map_eq_ok.mp returned
    cases same
    unfold Nodes.udpQueue takes
    by_cases here : cursor = node ∧ own = fd
    · obtain ⟨rfl, rfl⟩ := here
      rw [Function.update_self]
      obtain ⟨fails, same⟩ | ⟨datagrams, datagram, chosen, copied, tables⟩ := Nodes.doRecvfrom_cases received
      · rw [same]
        refine .inl ⟨if_neg fun taken => ?_, .inl rfl⟩
        rcases fails with negative | other
        · exact absurd taken.2.2.2.1 (by omega)
        · rw [other] at taken
          exact Bool.false_ne_true taken.2.2.1
      · by_cases peek : flags &&& msgPeek = 0
        · have succeeds : 0 ≤ value := by
            rw [copied.length]
            split <;> exact Int.natCast_nonneg _
          rw [if_neg (not_not.mpr peek)] at tables
          have divided : (nodes cursor).sockState.udpRecvBuffers[own]?.getD [] =
              ((nodes cursor).sockState.udpRecvBuffers[own]?.getD []).take (choiceIndex choice) ++ datagram ::
                ((nodes cursor).sockState.udpRecvBuffers[own]?.getD []).drop (choiceIndex choice + 1) := by
            obtain ⟨inside, rfl⟩ := List.getElem?_eq_some_iff.mp chosen
            rw [List.getElem_cons_drop, List.take_append_drop]
          refine .inr ⟨_, datagram, _, ?_, succeeds, fun peeks => peeks peek, divided, ?_, ?_, ?_⟩
          · exact (if_pos ⟨rfl, rfl, datagrams, succeeds, peek⟩).trans chosen
          · rw [tables, getElem?_insert_self, Option.getD_some, List.eraseIdx_eq_take_drop_succ]
          · rw [List.length_take, choiceIndex]
            split <;> omega
          · intro zero
            rw [choiceIndex, show choice = 0 from zero]
            rfl
        · rw [if_pos peek] at tables
          rw [tables]
          exact .inl ⟨if_neg fun taken => peek taken.2.2.2.2, .inl rfl⟩
    · refine .inl ⟨if_neg fun taken => here ⟨taken.1, taken.2.1⟩, .inl ?_⟩
      by_cases same : node = cursor
      · subst same
        rw [Function.update_self]
        have different : own ≠ fd := fun equal => here ⟨rfl, equal⟩
        obtain ⟨-, tables⟩ | ⟨-, _, -, -, tables⟩ := Nodes.doRecvfrom_cases received
        · rw [tables]
        · rw [tables]
          split
          · rfl
          · rw [getElem?_insert_eq, if_neg different]
      · rw [Function.update_of_ne same]

end UdpCall

section Runs

variable {G : Type} {np : ℕ} {guest : GuestMemory G} {addrs : Addresses np} {node : Fin np} {fd : Int32}
  {calls : List (UdpCall np)} {nodes : Nodes G np} {accepted received : List UdpDatagram}

/-- The runs of sends and receives of all nodes, and what was accepted into the queue of a new descriptor and taken
out of it. Between the calls the nodes may write their memory. -/
inductive UdpRun (guest : GuestMemory G) (addrs : Addresses np) (node : Fin np) (fd : Int32) :
    List (UdpCall np) → Nodes G np → List UdpDatagram → List UdpDatagram → Prop
  | start {nodes : Nodes G np} (empty : nodes.udpQueue node fd = []) : UdpRun guest addrs node fd [] nodes [] []
  | write {calls : List (UdpCall np)} {nodes : Nodes G np} {accepted received : List UdpDatagram}
      (run : UdpRun guest addrs node fd calls nodes accepted received) (other : Fin np) (memory : G) :
      UdpRun guest addrs node fd calls (Function.update nodes other { nodes other with memory }) accepted received
  | threw {calls : List (UdpCall np)} {nodes : Nodes G np} {accepted received : List UdpDatagram} {call : UdpCall np}
      {message : String} (run : UdpRun guest addrs node fd calls nodes accepted received)
      (threw : call.issue guest addrs nodes = .error message) :
      UdpRun guest addrs node fd (call :: calls) nodes accepted received
  | call {calls : List (UdpCall np)} {nodes next : Nodes G np} {accepted received : List UdpDatagram}
      {call : UdpCall np} {result : Int} (run : UdpRun guest addrs node fd calls nodes accepted received)
      (returned : call.issue guest addrs nodes = .ok (result, next)) :
      UdpRun guest addrs node fd (call :: calls) next
        (accepted ++ (next.udpQueue node fd).drop (nodes.udpQueue node fd).length)
        (received ++ (call.takes nodes node fd result).toList)

/-- What is known of a queue and of its past. -/
structure Accounted (calls : List (UdpCall np)) (queue accepted received : List UdpDatagram) : Prop where
  conserved : (received ++ queue).Perm accepted
  ordered : queue.Sublist accepted
  bounded : queue.length ≤ 3
  fifo : (∀ call ∈ calls, call.inOrder) → received ++ queue = accepted

theorem UdpRun.accounted (run : UdpRun guest addrs node fd calls nodes accepted received) :
    Accounted calls (nodes.udpQueue node fd) accepted received := by
  induction run with
  | start empty =>
    rw [empty]
    exact ⟨.refl _, .refl _, by decide, fun _ => rfl⟩
  | @write calls nodes accepted received run other memory ih =>
    have same : Nodes.udpQueue (Function.update nodes other { nodes other with memory }) node fd =
        nodes.udpQueue node fd := by
      unfold Nodes.udpQueue
      by_cases here : node = other
      · rw [here, Function.update_self]
      · rw [Function.update_of_ne here]
    rw [same]
    exact ih
  | threw run threw ih =>
    exact ⟨ih.conserved, ih.ordered, ih.bounded, fun all => ih.fifo (List.forall_mem_cons.mp all).2⟩
  | @call calls nodes next accepted received call result run returned ih =>
    obtain ⟨conserved, ordered, bounded, fifo⟩ := ih
    obtain ⟨none_, same | ⟨-, -, room, datagram, added⟩⟩ |
      ⟨older, datagram, newer, taken, -, -, queue, left, -, first⟩ := UdpCall.issue_queue returned
    · rw [none_, same, List.drop_length, Option.toList_none, List.append_nil, List.append_nil]
      exact ⟨conserved, ordered, bounded, fun all => fifo (List.forall_mem_cons.mp all).2⟩
    · rw [none_, added, List.drop_left, Option.toList_none, List.append_nil]
      refine ⟨?_, ordered.append (.refl _), by rw [List.length_append, List.length_singleton]; omega, fun all => ?_⟩
      · rw [← List.append_assoc]
        exact conserved.append_right _
      · rw [← List.append_assoc, fifo (List.forall_mem_cons.mp all).2]
    · have short : (next.udpQueue node fd).drop (nodes.udpQueue node fd).length = [] := by
        rw [left, queue, List.drop_eq_nil_iff, List.length_append, List.length_append, List.length_cons]
        omega
      rw [short, taken, left, List.append_nil, Option.toList_some]
      rw [queue] at conserved ordered bounded fifo
      refine ⟨?_, ((List.sublist_cons_self ..).append_left _).trans ordered, ?_, fun all => ?_⟩
      · rw [List.append_assoc, List.singleton_append]
        exact (List.perm_middle.symm.append_left received).trans conserved
      · rw [List.length_append, List.length_cons] at bounded
        rw [List.length_append]
        omega
      · obtain ⟨now, before⟩ := List.forall_mem_cons.mp all
        rw [first now, List.nil_append] at fifo ⊢
        rw [List.append_assoc, List.singleton_append, fifo before]

end Runs

end DetSim.Kernel
