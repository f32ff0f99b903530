import DetSim.Model.Wire

/-! # Frames over a stream socket

A channel sends and receives messages as frames: a header of sixteen bytes, then the payload. The
socket takes and delivers bytes in pieces of any size. The sender collects small writes in a buffer and
passes large ones on directly; the receiver fetches as much as its buffer holds, or reads a large field
directly, and keeps what it has fetched for later frames. What the socket does at each call is a
schedule. A call that waits for more events than its schedule has is blocked.
-/

namespace DetSim.Search.Wire

open Kernel (Bytes)
open Packed (natOfBytes)

abbrev Outcome := ReadProgram.Outcome String

/-- The size of the buffers of both directions. -/
def bufferBytes : ℕ := 64 * 1024

def deadlineError : String := "Worker protocol frame deadline exceeded"

def truncatedError : String := "Truncated worker protocol frame"

def unusableError : String := "Worker protocol stream is unusable"

/-! ## Sending -/

/-- What one `send` does: it is interrupted, has to wait, fails, takes nothing, or takes at most
`size + 1` bytes. The deadline may pass before it. -/
inductive SendEvent
  | interrupted
  | wouldBlock
  | failed (reason : String)
  | nothing
  | accept (size : ℕ)
  | expired
deriving DecidableEq, Repr

/-- The send buffer, the bytes handed to the socket, and what the socket will do. -/
structure Output where
  buffer : Bytes := []
  wire : Bytes := []
  schedule : List SendEvent
deriving DecidableEq, Repr

/-- `write_exact`: the outcome, the bytes the socket took, and the rest of the schedule. -/
def writeExact : List SendEvent → Bytes → Outcome Unit × Bytes × List SendEvent
  | schedule, [] => (.returned (), [], schedule)
  | [], _ :: _ => (.blocked, [], [])
  | event :: rest, byte :: data =>
    match event with
    | .expired => (.failed deadlineError, [], rest)
    | .interrupted | .wouldBlock => writeExact rest (byte :: data)
    | .failed reason => (.failed reason, [], rest)
    | .nothing => (.failed "Worker protocol write made no progress", [], rest)
    | .accept size =>
      let (outcome, sent, rest) := writeExact rest (data.drop size)
      (outcome, byte :: data.take size ++ sent, rest)

namespace Output

def write (out : Output) (data : Bytes) : Outcome Unit × Output :=
  let (outcome, sent, schedule) := writeExact out.schedule data
  (outcome, { out with wire := out.wire ++ sent, schedule })

def flush (out : Output) : Outcome Unit × Output :=
  match out.write out.buffer with
  | (.returned _, out) => (.returned (), { out with buffer := [] })
  | (outcome, out) => (outcome, out)

/-- Copy into the buffer, which is flushed whenever it is full. -/
def copy (out : Output) : Bytes → Outcome Unit × Output
  | [] => (.returned (), out)
  | byte :: data =>
    let out := { out with buffer := out.buffer ++ [byte] }
    if out.buffer.length = bufferBytes then
      match out.flush with
      | (.returned _, out) => out.copy data
      | (outcome, out) => (outcome, out)
    else out.copy data

def append (out : Output) (data : Bytes) : Outcome Unit × Output :=
  if bufferBytes ≤ data.length then
    match out.flush with
    | (.returned _, out) => out.write data
    | (outcome, out) => (outcome, out)
  else out.copy data

/-- Append one piece after the other, and flush. -/
def appendAll (out : Output) : List Bytes → Outcome Unit × Output
  | [] => out.flush
  | data :: rest =>
    match out.append data with
    | (.returned _, out) => out.appendAll rest
    | (outcome, out) => (outcome, out)

end Output

def magic : ℕ := 0x50575344

def bundleOf : Message → Option Bundle
  | .task task => some task.bundle
  | .edge edge => some edge.bundle
  | _ => none

def header (shared : Bool) (type : MessageType) (size : ℕ) : Bytes :=
  little 4 magic ++ (little 2 (if shared then 2 else 1) ++ (little 2 type.toNat ++ little 8 size))

/-- The total of a frame of version 2 with all its objects stays within the frame limit. -/
def logicalFits (limits : Limits) (logical : ℕ) : List BlobSpec → Bool
  | [] => true
  | spec :: rest =>
    spec.size.toNat ≤ limits.maxFrameBytes.toNat - logical && logicalFits limits (logical + spec.size.toNat) rest

/-- Whether a subtraction of that loop wraps. -/
def logicalWraps (limits : Limits) (logical : ℕ) : List BlobSpec → Bool
  | [] => false
  | spec :: rest => limits.maxFrameBytes.toNat < logical ||
      spec.size.toNat ≤ limits.maxFrameBytes.toNat - logical && logicalWraps limits (logical + spec.size.toNat) rest

/-- The appends of a frame. The message is encoded once to measure it and once more, with the same
result, to write it. -/
def frame (limits : Limits) (plan : Option (List BlobSpec)) (message : Message) : Except String (List Bytes) := do
  let (_, measure) ← (encode limits plan message).run {}
  if logicalWraps limits measure.size (plan.getD []) then .error wrapError
  else if !logicalFits limits measure.size (plan.getD []) then .error "Shared worker frame exceeds transfer limit"
  else return header plan.isSome (messageType message) measure.size :: measure.output

/-- What the object channel of a receiver does for a frame of version 2. -/
structure ObjectChannel where
  pending : Bool := false
  receive : List BlobSpec → Except String (List Blob)

/-- The checks of `ObjectTransport::receive`, which goes through the specifications with a running total. -/
def receiveBound (limits : Limits) (total : ℕ) : List BlobSpec → Except String Unit
  | [] => .ok ()
  | spec :: rest =>
    if limits.maxFrameBytes.toNat < total then .error wrapError
    else if limits.maxBlobBytes < spec.size ∨ limits.maxFrameBytes.toNat - total < spec.size.toNat then
      .error "Snapshot object receive exceeds transfer bound"
    else receiveBound limits (total + spec.size.toNat) rest

/-- An object channel with the limits of its transport, whatever else it does. -/
def ObjectChannel.bounded (limits : Limits) (channel : ObjectChannel) : ObjectChannel :=
  { channel with
    receive := fun specs => do
      if limits.maxBlobs.toNat < specs.length then .error "Unconfirmed or invalid snapshot object receive"
      receiveBound limits 0 specs
      channel.receive specs }

/-- The sending end of a channel, with all bytes its socket has taken. -/
structure Sender where
  failed : Bool := false
  wire : Bytes := []
  schedule : List SendEvent
deriving DecidableEq, Repr

/-- A message with what the object channels do for it: the plan the sender makes if the message goes out in
a frame of version 2, how the transfer of the objects ends there, and the receiver's object channel. -/
structure Transfer where
  message : Message
  plan : Option (List BlobSpec) := none
  transferred : Except String Unit := .ok ()
  objects : Option ObjectChannel := none

/-- `Channel::send`. -/
def send (limits : Limits) (transfer : Transfer) (sender : Sender) : Outcome Unit × Sender :=
  if sender.failed then (.failed unusableError, sender)
  else match frame limits transfer.plan transfer.message with
    | .error reason => (.failed reason, { sender with failed := true })
    | .ok pieces =>
      match ({ wire := sender.wire, schedule := sender.schedule } : Output).appendAll pieces with
      | (.failed reason, out) => (.failed reason, { failed := true, wire := out.wire, schedule := out.schedule })
      | (.blocked, out) => (.blocked, { wire := out.wire, schedule := out.schedule })
      | (.returned _, out) =>
        match if transfer.plan.isSome then transfer.transferred else .ok () with
        | .error reason => (.failed reason, { failed := true, wire := out.wire, schedule := out.schedule })
        | .ok _ =>
          if out.schedule.head? = some .expired then
            (.failed deadlineError, { failed := true, wire := out.wire, schedule := out.schedule })
          else (.returned (), { wire := out.wire, schedule := out.schedule })

/-- Send one message after the other, as long as that succeeds. -/
def sendAll (limits : Limits) : List Transfer → Sender → Outcome Unit × Sender
  | [], sender => (.returned (), sender)
  | transfer :: rest, sender =>
    match send limits transfer sender with
    | (.returned _, sender) => sendAll limits rest sender
    | (outcome, sender) => (outcome, sender)

/-! ## Receiving -/

/-- What one `recv` does: it is interrupted, has to wait, fails, or delivers at most `size + 1` bytes. The
deadline may pass before it. -/
inductive RecvEvent
  | interrupted
  | wouldBlock
  | failed (reason : String)
  | deliver (size : ℕ)
  | expired
deriving DecidableEq, Repr

/-- The fetched bytes, the bytes still to come on the stream, and what the socket will do. -/
structure Input where
  buffer : Bytes := []
  incoming : Bytes
  schedule : List RecvEvent
deriving DecidableEq, Repr

/-- `Input::read`, after `got`: the bytes asked for, or nothing at the end of a stream that the peer has
closed. -/
def readLoop (closed allowEof : Bool) :
    List RecvEvent → Bytes → ℕ → Bytes → Bytes → Outcome (Option Bytes) × Input
  | [], got, need, buffer, incoming =>
    if need ≤ buffer.length then (.returned (some (got ++ buffer.take need)), ⟨buffer.drop need, incoming, []⟩)
    else (.blocked, ⟨[], incoming, []⟩)
  | event :: rest, got, need, buffer, incoming =>
    if need = 0 then (.returned (some got), ⟨buffer, incoming, event :: rest⟩)
    else if event = .expired then (.failed deadlineError, ⟨buffer, incoming, rest⟩)
    else if need ≤ buffer.length then
      (.returned (some (got ++ buffer.take need)), ⟨buffer.drop need, incoming, event :: rest⟩)
    else
      let got := got ++ buffer
      let need := need - buffer.length
      match event with
      | .failed reason => (.failed reason, ⟨[], incoming, rest⟩)
      | .deliver size =>
        let capacity := if bufferBytes ≤ need then need else bufferBytes
        let received := incoming.take (min (size + 1) capacity)
        if received = [] then
          if !closed then readLoop closed allowEof rest got need [] incoming
          else if got = [] ∧ allowEof then (.returned none, ⟨[], incoming, rest⟩)
          else (.failed truncatedError, ⟨[], incoming, rest⟩)
        else if bufferBytes ≤ need then
          readLoop closed allowEof rest (got ++ received) (need - received.length) [] (incoming.drop received.length)
        else readLoop closed allowEof rest got need received (incoming.drop received.length)
      | _ => readLoop closed allowEof rest got need [] incoming

def Input.read (closed allowEof : Bool) (input : Input) (count : ℕ) : Outcome (Option Bytes) × Input :=
  readLoop closed allowEof input.schedule [] count input.buffer input.incoming

/-- The bytes of a field; the stream must not end there. -/
def Input.pull (closed : Bool) (input : Input) (count : ℕ) : Outcome Bytes × Input :=
  match input.read closed false count with
  | (.returned data, input) => (.returned (data.getD []), input)
  | (.failed reason, input) => (.failed reason, input)
  | (.blocked, input) => (.blocked, input)

def MessageType.ofNat? : ℕ → Option MessageType
  | 1 => some .hello
  | 2 => some .task
  | 3 => some .edge
  | 4 => some .done
  | 5 => some .error
  | 6 => some .shutdown
  | _ => none

def withBlobs (blobs : List Blob) : Message → Message
  | .task task => .task { task with bundle := { task.bundle with blobs } }
  | .edge edge => .edge { edge with bundle := { edge.bundle with blobs } }
  | message => message

/-- The message of a frame of version 2, once the object channel has returned its blobs. -/
def fetchBlobs (limits : Limits) (objects : Option ObjectChannel) (size : ℕ) (specs : List BlobSpec)
    (message : Message) : ReadProgram UInt8 String Message :=
  match objects with
  | none => return message
  | some objects =>
    if logicalWraps limits size specs then .fail wrapError
    else if !logicalFits limits size specs then .fail "Shared worker frame exceeds transfer limit"
    else match objects.receive specs with
      | .error reason => .fail reason
      | .ok blobs => return withBlobs blobs message

/-- A frame after its header. -/
def frameProgram (limits : Limits) (objects : Option ObjectChannel) (head : Bytes) :
    ReadProgram UInt8 String Message :=
  let frameVersion := natOfBytes ((head.drop 4).take 2)
  let size := natOfBytes ((head.drop 8).take 8)
  let shared : Bool := frameVersion = 2
  if natOfBytes (head.take 4) ≠ magic ∨ (frameVersion ≠ 1 ∧ frameVersion ≠ 2) then
    .fail "Worker protocol magic/version mismatch"
  else match MessageType.ofNat? (natOfBytes ((head.drop 6).take 2)) with
    | none => .fail "Unknown worker protocol message type"
    | some type =>
      if limits.maxFrameBytes.toNat < size then .fail "Worker protocol frame exceeds transfer limit"
      else if shared ∧ (objects.isNone ∨ (type ≠ .task ∧ type ≠ .edge)) then
        .fail "Shared worker frame requires object channel and bundle message"
      else if objects.any (·.pending) then .fail "Previous shared worker bundle was not confirmed"
      else do
        let decoded ← decodePayload limits shared type size
        if shared then fetchBlobs limits objects size decoded.2 decoded.1 else return decoded.1

/-- The receiving end of a channel. -/
structure Receiver where
  failed : Bool := false
  input : Input
deriving DecidableEq, Repr

/-- How a call of `receive` ends, once its frame is read. -/
def endReceive : Outcome Message × Input → Outcome (Option Message) × Receiver
  | (.failed reason, input) => (.failed reason, { failed := true, input })
  | (.blocked, input) => (.blocked, { input })
  | (.returned message, input) =>
    if input.schedule.head? = some .expired then (.failed deadlineError, { failed := true, input })
    else (.returned (some message), { input })

/-- `Channel::receive`: a message, nothing when the peer has closed the stream between two frames, or an
exception, after which the channel cannot be used. -/
def receive (limits : Limits) (closed : Bool) (objects : Option ObjectChannel) (receiver : Receiver) :
    Outcome (Option Message) × Receiver :=
  if receiver.failed then (.failed unusableError, receiver)
  else match receiver.input.read closed true 16 with
    | (.returned none, input) => (.returned none, { failed := true, input })
    | (.failed reason, input) => (.failed reason, { failed := true, input })
    | (.blocked, input) => (.blocked, { input })
    | (.returned (some head), input) =>
      endReceive ((frameProgram limits objects head).runOn (Input.pull closed) input)

/-- Successive calls of `receive`, up to one that does not return. -/
def receiveAll (limits : Limits) (closed : Bool) :
    List (Option ObjectChannel) → Receiver → List (Outcome (Option Message)) × Receiver
  | [], receiver => ([], receiver)
  | objects :: rest, receiver =>
    match receive limits closed objects receiver with
    | (.blocked, receiver) => ([.blocked], receiver)
    | (outcome, receiver) =>
      let (outcomes, receiver) := receiveAll limits closed rest receiver
      (outcome :: outcomes, receiver)

end DetSim.Search.Wire
