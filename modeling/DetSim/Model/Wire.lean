import DetSim.Model.Protocol
import DetSim.ToMathlib.Packed
import DetSim.ToMathlib.ReadProgram

/-! # The wire format of the worker protocol

A frame's payload is written field by field, little endian, with a length before every variable part.
The writer counts what it has written against the transfer limits; every call that has something to
write is one append to the output. The reader counts down what is left of the payload and checks every
length before it reads. A frame of version 1 holds the blobs of a bundle; a frame of version 2 holds
only their specifications, and the objects travel beside it.
-/

namespace DetSim.Search.Wire

open Kernel (Bytes)
open Packed (natOfBytes)
open Scheduler (ActorAction TransitionAction)

structure Limits where
  maxFrameBytes : UInt64 := 8 * 2 ^ 30
  maxBlobBytes : UInt64 := 2 * 2 ^ 30
  maxMetadataBytes : UInt64 := 64 * 2 ^ 20
  maxBlobs : UInt64 := 1000000
  maxTextBytes : UInt64 := 2 ^ 20
  ioTimeoutMs : ℤ := 30000
deriving DecidableEq, Repr

/-- A blob in a frame of version 2: its bytes are sent apart, or the peer is thought to have them. -/
structure BlobSpec where
  key : UInt64
  size : UInt64
  reference : Bool
deriving DecidableEq, Repr

inductive MessageType
  | hello | task | edge | done | error | shutdown
deriving DecidableEq, Repr

def MessageType.toNat : MessageType → ℕ
  | .hello => 1
  | .task => 2
  | .edge => 3
  | .done => 4
  | .error => 5
  | .shutdown => 6

def messageType : Message → MessageType
  | .hello _ => .hello
  | .task _ => .task
  | .edge _ => .edge
  | .done _ => .done
  | .error _ => .error
  | .shutdown => .shutdown

def int32Max : ℕ := 2 ^ 31 - 1

def sizeMax : ℕ := 2 ^ 64 - 1

/-- The totals are unsigned 64-bit numbers. Where the code subtracts one from the frame limit, the model has an
error of its own for a difference that wraps. -/
def wrapError : String := "Unsigned subtraction wraps"

/-- The bytes of an unsigned number of the given width, least significant first. -/
def little (width value : ℕ) : Bytes := Codec.natBytes width value

def actionByte : TransitionAction → ℕ
  | .normal => 0
  | .timeout => 1

def doneByte : DoneKind → ℕ
  | .expanded => 0
  | .terminal => 1
  | .depthCut => 2
  | .modelBudget => 3
  | .violation => 4

/-! ## Writing -/

/-- The bytes written so far, and the appends to the output. -/
structure Writer where
  size : ℕ := 0
  output : List Bytes := []
deriving DecidableEq, Repr

abbrev WriterM := StateT Writer (Except String)

namespace Writer

variable (limits : Limits)

def fail {α : Type} (message : String) : WriterM α := fun _ => .error message

def bytes (data : Bytes) : WriterM Unit := fun out =>
  if limits.maxFrameBytes.toNat < out.size then .error wrapError
  else if limits.maxFrameBytes.toNat - out.size < data.length ∨ sizeMax < data.length then
    .error "Worker protocol frame exceeds transfer limit"
  else .ok ((), { size := out.size + data.length, output := if data = [] then out.output else out.output ++ [data] })

def scalar (width value : ℕ) : WriterM Unit := bytes limits (little width value)

def text (data : Bytes) : WriterM Unit := do
  if limits.maxTextBytes.toNat < data.length then fail "Worker protocol text exceeds transfer limit"
  scalar limits 8 data.length
  bytes limits data

/-- The blobs of a bundle, each with its specification in a frame of version 2. -/
def blobs (rawTotal : ℕ) : List (Blob × Option BlobSpec) → WriterM Unit
  | [] => return ()
  | (blob, spec) :: rest => do
    if limits.maxFrameBytes.toNat < rawTotal then fail wrapError
    if limits.maxBlobBytes.toNat < blob.bytes.length ∨ limits.maxFrameBytes.toNat - rawTotal < blob.bytes.length then
      fail "Worker bundle blob exceeds transfer limit"
    scalar limits 8 blob.key.toNat
    scalar limits 8 blob.bytes.length
    match spec with
    | some spec => scalar limits 1 spec.reference.toNat
    | none => bytes limits blob.bytes
    blobs (rawTotal + blob.bytes.length) rest

/-- The specifications go with the blobs one by one; `at` throws when there are too few. -/
def withSpecs (list : List Blob) : Option (List BlobSpec) → Option (List (Blob × Option BlobSpec))
  | none => some (list.map fun blob => (blob, none))
  | some specs => if list.length ≤ specs.length then some (list.zip (specs.map some)) else none

def bundle (specs : Option (List BlobSpec)) (bundle : Bundle) : WriterM Unit := do
  if limits.maxMetadataBytes.toNat < bundle.metadata.length ∨ limits.maxBlobs.toNat < bundle.blobs.length then
    fail "Worker bundle metadata/object count exceeds transfer limit"
  scalar limits 4 bundle.version.toNat
  scalar limits 8 bundle.systemKey.toNat
  scalar limits 8 bundle.metadata.length
  bytes limits bundle.metadata
  scalar limits 8 bundle.blobs.length
  let out ← get
  match withSpecs bundle.blobs specs with
  | none => fail "vector::_M_range_check"
  | some list => blobs limits out.size list

end Writer

/-- A choice goes onto the wire as the unsigned number with the same bits. -/
def choiceBits (choice : ℤ) : ℕ := (choice % 2 ^ 32).toNat

open Writer in
def encode (limits : Limits) (specs : Option (List BlobSpec)) : Message → WriterM Unit
  | .hello hello => do
    text limits hello.modelIdentity
    text limits hello.compatibility
  | .task task => do
    scalar limits 8 task.ticket.state.toNat
    scalar limits 8 task.ticket.worker.toNat
    scalar limits 8 task.ticket.leaseId.toNat
    scalar limits 8 task.ticket.depth.toNat
    scalar limits 1 task.ticket.mayExpand.toNat
    bundle limits specs task.bundle
  | .edge edge => do
    scalar limits 8 edge.leaseId.toNat
    scalar limits 8 edge.source.toNat
    scalar limits 8 edge.target.toNat
    scalar limits 4 edge.actor.process
    scalar limits 4 edge.actor.thread
    scalar limits 1 (actionByte edge.actor.action)
    scalar limits 4 (choiceBits edge.choice)
    scalar limits 4 edge.choiceCount
    scalar limits 1 edge.propertyViolation.toNat
    scalar limits 1 edge.resultCode.toNat
    bundle limits specs edge.bundle
  | .done done => do
    scalar limits 8 done.leaseId.toNat
    scalar limits 8 done.source.toNat
    scalar limits 1 (doneByte done.kind)
    scalar limits 8 done.emitted
  | .error error => do
    scalar limits 8 error.leaseId.toNat
    scalar limits 8 error.source.toNat
    text limits error.reason
  | .shutdown => return ()

/-- The payload of a frame, as the writer measures and then writes it. -/
def encodePayload (limits : Limits) (specs : Option (List BlobSpec)) (message : Message) : Except String Bytes := do
  let (_, out) ← (encode limits specs message).run {}
  return out.output.flatten

/-! ## Reading -/

/-- What is left of the payload, and the specifications found in a frame of version 2. -/
structure Reader where
  remaining : ℕ
  specs : List BlobSpec := []
deriving DecidableEq, Repr

abbrev ReaderM := StateT Reader (ReadProgram UInt8 String)

namespace Reader

def check (condition : Prop) [Decidable condition] (message : String) : ReaderM Unit := fun reader =>
  if condition then .done ((), reader) else .fail message

/-- Nothing is read from the input for an empty field. -/
def bytes (length : ℕ) : ReaderM Bytes := fun reader =>
  if reader.remaining < length ∨ sizeMax < length then .fail "Worker protocol payload length mismatch"
  else
    let reader := { reader with remaining := reader.remaining - length }
    if length = 0 then .done ([], reader) else .read length fun data => .done (data, reader)

def scalar (width : ℕ) : ReaderM ℕ := do
  let encoded ← bytes width
  return natOfBytes encoded

def uint64 : ReaderM UInt64 := do
  let value ← scalar 8
  return UInt64.ofNat value

def boolean : ReaderM Bool := do
  let value ← scalar 1
  check (value ≤ 1) "Invalid worker protocol boolean"
  return value = 1

def length (limit : UInt64) : ReaderM ℕ := do
  let length ← scalar 8
  let reader ← get
  check (length ≤ limit.toNat ∧ length ≤ reader.remaining ∧ length ≤ sizeMax)
    "Worker protocol length exceeds transfer limit or payload"
  return length

/-- A length and as many bytes. -/
def sized (limit : UInt64) : ReaderM Bytes := do
  let count ← length limit
  bytes count

variable (limits : Limits)

def text : ReaderM Bytes := sized limits.maxTextBytes

def blobs : ℕ → ReaderM (List Blob)
  | 0 => return []
  | count + 1 => do
    let key ← uint64
    let data ← sized limits.maxBlobBytes
    let rest ← blobs count
    return ⟨key, data⟩ :: rest

/-- The specifications of a frame of version 2. -/
def sharedBlobs (total : ℕ) : ℕ → ReaderM Unit
  | 0 => return ()
  | count + 1 => do
    let key ← uint64
    let size ← uint64
    check (total ≤ limits.maxFrameBytes.toNat) wrapError
    check (size ≤ limits.maxBlobBytes ∧ size.toNat ≤ limits.maxFrameBytes.toNat - total)
      "Shared worker bundle exceeds transfer limit"
    let reference ← boolean
    modify fun reader => { reader with specs := reader.specs ++ [⟨key, size, reference⟩] }
    sharedBlobs (total + size.toNat) count

/-- The size of a blob in memory: its key and a vector. -/
def sizeofBlob : ℕ := 32

def bundle (shared : Bool) : ReaderM Bundle := do
  let version ← scalar 4
  let systemKey ← uint64
  let metadata ← sized limits.maxMetadataBytes
  let count ← scalar 8
  let reader ← get
  check (count ≤ limits.maxBlobs.toNat ∧ count ≤ reader.remaining / (if shared then 17 else 16) ∧
    count ≤ sizeMax / sizeofBlob) "Worker bundle object count exceeds transfer limit or payload"
  if shared then
    sharedBlobs limits metadata.length count
    return { version := UInt32.ofNat version, systemKey, metadata }
  else
    let list ← blobs limits count
    return { version := UInt32.ofNat version, systemKey, metadata, blobs := list }

end Reader

def byteAction : ℕ → TransitionAction
  | 0 => .normal
  | _ => .timeout

def byteDone : ℕ → DoneKind
  | 0 => .expanded
  | 1 => .terminal
  | 2 => .depthCut
  | 3 => .modelBudget
  | _ => .violation

def byteResult : ℕ → TransitionResultCode
  | 0 => .ckptNo
  | 1 => .ckptYes
  | 2 => .ckptExit
  | 3 => .ckptStop
  | _ => .ckptDiscard

def bitsChoice (bits : ℕ) : ℤ :=
  if bits = 2 ^ 32 - 1 then -1 else if bits = 2 ^ 32 - 2 then -2 else bits

open Reader in
def decode (limits : Limits) (shared : Bool) : MessageType → ReaderM Message
  | .hello => do
    let modelIdentity ← text limits
    let compatibility ← text limits
    return .hello { modelIdentity, compatibility }
  | .task => do
    let state ← uint64
    let worker ← uint64
    let leaseId ← uint64
    let depth ← uint64
    let mayExpand ← boolean
    let bundle ← bundle limits shared
    return .task { ticket := { state, worker, leaseId, depth, mayExpand }, bundle }
  | .edge => do
    let leaseId ← uint64
    let source ← uint64
    let target ← uint64
    let process ← scalar 4
    let thread ← scalar 4
    check (process ≤ int32Max ∧ thread ≤ int32Max) "Invalid worker protocol actor"
    let action ← scalar 1
    check (action ≤ 1) "Invalid worker protocol action"
    let choice ← scalar 4
    check (choice ≤ int32Max ∨ choice = 2 ^ 32 - 1 ∨ choice = 2 ^ 32 - 2) "Invalid worker protocol choice"
    let choiceCount ← scalar 4
    check (choiceCount ≤ int32Max) "Invalid worker protocol choice count"
    let propertyViolation ← boolean
    let resultCode ← scalar 1
    check (resultCode ≤ TransitionResultCode.ckptDiscard.toNat) "Invalid worker protocol transition result code"
    let bundle ← bundle limits shared
    return .edge {
      leaseId, source, target
      actor := ⟨process, thread, byteAction action⟩
      choice := bitsChoice choice
      choiceCount, propertyViolation
      resultCode := byteResult resultCode
      bundle }
  | .done => do
    let leaseId ← uint64
    let source ← uint64
    let kind ← scalar 1
    check (kind ≤ doneByte .violation) "Invalid worker protocol completion kind"
    let emitted ← scalar 8
    return .done { leaseId, source, kind := byteDone kind, emitted }
  | .error => do
    let leaseId ← uint64
    let source ← uint64
    let reason ← text limits
    return .error { leaseId, source, reason }
  | .shutdown => return .shutdown

/-- Decode a payload of known size, and require that nothing of it is left. -/
def decodePayload (limits : Limits) (shared : Bool) (type : MessageType) (size : ℕ) :
    ReadProgram UInt8 String (Message × List BlobSpec) := do
  let (message, reader) ← (decode limits shared type).run { remaining := size }
  if reader.remaining ≠ 0 then .fail "Trailing worker protocol payload bytes"
  else return (message, reader.specs)

end DetSim.Search.Wire
