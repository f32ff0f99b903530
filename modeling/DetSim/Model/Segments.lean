import DetSim.Model.ObjectCache
import DetSim.Model.PageSnapshot
import DetSim.Model.Protocol

/-! # Segments of shared objects

Objects travel in sealed files. A segment starts with a header, its magic number, the number of objects and the size of
the file, followed by a table with a row for each object and by the contents in the order of the rows. The sender puts
as many objects into a segment as its own estimate of the size allows; the receiver believes nothing that it reads.
Arithmetic and accesses to a mapping are checked as in a snapshot.
-/

namespace DetSim.Search.Wire

open Kernel (Bytes)
open Scheduler (HashType)
open Snapshot (Checked add64 sub64 mul64 slice copyInto)

def segmentMagic : UInt64 := 0x314745534d495344
def headerBytes : ℕ := 24
def rowBytes : ℕ := 24
def maxObjects : ℕ := 256

/-- A regular file that is sealed. Its size is an offset. -/
structure SealedFile where
  bytes : Bytes
  sized : bytes.length < 2 ^ 63
deriving DecidableEq

/-- The header: the magic number, the number of objects and the size. -/
def segmentHeader : Packed (UInt64 × UInt64 × UInt64) := Packed.uint64.prod (Packed.uint64.prod Packed.uint64)

/-- A row: key, offset and size. -/
def segmentRow : Packed (UInt64 × UInt64 × UInt64) := Packed.uint64.prod (Packed.uint64.prod Packed.uint64)

/-- Where the row of an object is. -/
def rowOffset (index : ℕ) : ℕ := headerBytes + index * rowBytes

/-- Overwrite some bytes of a mapping. -/
def store (bytes : Bytes) (offset : ℕ) (data : Bytes) : Checked Bytes :=
  if offset + data.length ≤ bytes.length then .ok (copyInto bytes offset data) else .error .outside

section

variable (hash : Bytes → HashType) (limits : Limits) (segmentBytes : ℕ)

/-! ## Reading -/

/-- The range of a row is the next one, and it fits. -/
def rangeOk (size next : ℕ) (row : UInt64 × UInt64 × UInt64) : Checked Bool :=
  pure (decide (row.1 ≠ 0 ∧ row.2.2 ≠ 0 ∧ row.2.2 ≤ limits.maxBlobBytes ∧ row.2.1.toNat = next)) <&&> (do
    let room ← sub64 size next
    return row.2.2.toNat ≤ room)

/-- One row of the table, with its contents, and the end of them. -/
def parseRow (bytes : Bytes) (size next index : ℕ) : Checked (SegmentRow × ℕ) := do
  let row := segmentRow.unpack (← slice bytes (rowOffset index) rowBytes)
  Snapshot.require ((← rangeOk limits size next row) = true) "Invalid snapshot segment object range"
  let contents ← slice bytes row.2.1.toNat row.2.2.toNat
  Snapshot.require (hash contents = row.1) "Snapshot segment object hash mismatch"
  let next ← add64 next row.2.2.toNat
  return (⟨row.1, contents⟩, next)

/-- The rows from an index on, and the end of the last one. -/
def parseRows (bytes : Bytes) (size : ℕ) : ℕ → ℕ → ℕ → Checked (List SegmentRow × ℕ)
  | 0, _, next => pure ([], next)
  | rest + 1, index, next => do
    let row ← parseRow hash limits bytes size next index
    let rows ← parseRows bytes size rest (index + 1) row.2
    return (row.1 :: rows.1, rows.2)

/-- There are objects, and not more than the table can have. -/
def countOk (size count : ℕ) : Checked Bool :=
  pure (decide (count ≠ 0 ∧ count ≤ maxObjects)) <&&> (do
    let room ← sub64 size headerBytes
    return count ≤ room / rowBytes)

/-- The constructor of `Segment`, for a file that can be mapped. -/
def openSegment (file : SealedFile) : Checked Segment := do
  let bytes := file.bytes
  let size := bytes.length
  Snapshot.require (headerBytes ≤ size) "Invalid immutable snapshot descriptor"
  Snapshot.require (size ≤ segmentBytes ∧ size ≤ limits.maxFrameBytes.toNat)
    "Snapshot segment exceeds hard size bound"
  let header := segmentHeader.unpack (← slice bytes 0 headerBytes)
  Snapshot.require (header.1 = segmentMagic ∧ header.2.2.toNat = size) "Invalid snapshot segment header"
  let count := header.2.1.toNat
  Snapshot.require ((← countOk size count) = true) "Invalid snapshot segment object count"
  let table ← mul64 count rowBytes
  let first ← add64 headerBytes table
  let rows ← parseRows hash limits bytes size count 0 first
  Snapshot.require (rows.2 = size) "Trailing snapshot segment bytes"
  return ⟨UInt64.ofNat size, rows.1⟩

/-! ## Writing -/

/-- The size of a segment with one more object. -/
def growSegment (size : ℕ) (blob : Blob) : Checked ℕ := do
  Snapshot.require ((← pure (decide (blob.bytes ≠ [])) <&&> (do
    let room ← sub64 segmentBytes size
    return blob.bytes.length ≤ room)) = true) "Snapshot segment batch exceeds hard size bound"
  add64 size blob.bytes.length

/-- Write the row of an object and its contents. -/
def writeObject (bytes : Bytes) (index offset : ℕ) (blob : Blob) : Checked (Bytes × ℕ) := do
  let row := segmentRow.pack (blob.key, UInt64.ofNat offset, UInt64.ofNat blob.bytes.length)
  let bytes ← store bytes (rowOffset index) row
  let bytes ← store bytes offset blob.bytes
  let offset ← add64 offset blob.bytes.length
  return (bytes, offset)

/-- Write the objects from an index on. -/
def writeObjects : List Blob → ℕ → Bytes → ℕ → Checked Bytes
  | [], _, bytes, _ => pure bytes
  | blob :: blobs, index, bytes, offset => do
    let written ← writeObject bytes index offset blob
    writeObjects blobs (index + 1) written.1 written.2

/-- The file gets its size when it is allocated, which must be an offset. -/
def sealFile (bytes : Bytes) : Checked SealedFile :=
  if sized : bytes.length < 2 ^ 63 then pure ⟨bytes, sized⟩
  else .error (.thrown "Cannot allocate immutable snapshot segment")

/-- The file of a segment. -/
def segmentFile (blobs : List Blob) : Checked SealedFile := do
  Snapshot.require (blobs ≠ [] ∧ blobs.length ≤ maxObjects) "Invalid snapshot segment batch"
  let table ← mul64 blobs.length rowBytes
  let first ← add64 headerBytes table
  let size ← blobs.foldlM (growSegment segmentBytes) first
  let file ← sealFile (List.replicate size 0)
  let bytes ← store file.bytes 0 (segmentHeader.pack (segmentMagic, UInt64.ofNat blobs.length, UInt64.ofNat size))
  let bytes ← writeObjects blobs 0 bytes first
  sealFile bytes

/-- Write a segment and open it. -/
def makeSegment (blobs : List Blob) : Checked (SealedFile × Segment) := do
  let file ← segmentFile segmentBytes blobs
  let segment ← openSegment hash limits segmentBytes file
  return (file, segment)

/-! ## Batches -/

/-- Take objects off the list as long as the estimate allows. -/
def fillBatch : List Blob → ℕ → List Blob → Checked (List Blob × List Blob)
  | batch, _, [] => pure (batch, [])
  | batch, bytes, blob :: fresh =>
    if maxObjects ≤ batch.length then pure (batch, blob :: fresh)
    else do
      let wanted ← add64 rowBytes blob.bytes.length
      let room ← sub64 segmentBytes bytes
      if room < wanted then pure (batch, blob :: fresh)
      else do
        let bytes ← add64 bytes wanted
        fillBatch (batch ++ [blob]) bytes fresh

/-- The batches that are formed of the objects in so many rounds, and how that ends. -/
def formBatches : ℕ → List Blob → List (List Blob) × Checked Unit
  | 0, _ => ([], pure ())
  | _ + 1, [] => ([], pure ())
  | rounds + 1, fresh =>
    match fillBatch segmentBytes [] headerBytes fresh with
    | .error abort => ([], .error abort)
    | .ok (batch, rest) =>
      if batch = [] then ([], .error (.thrown "Snapshot object requires raw transfer fallback"))
      else
        let others := formBatches rounds rest
        (batch :: others.1, others.2)

/-- The batches that `send` forms of the objects the cache does not have. Every round takes an object. -/
def sendBatches (fresh : List Blob) : List (List Blob) × Checked Unit := formBatches segmentBytes fresh.length fresh

end

/-! ## The hash of a short object

`XXHash64::hash` is `XXH3_64bits` of the library. Of its branches only the two for objects of one to eight bytes are
written down, which is enough to compute keys.
-/

def xxh64Avalanche (hash : UInt64) : UInt64 :=
  let hash := (hash ^^^ hash >>> 33) * 0xC2B2AE3D27D4EB4F
  let hash := (hash ^^^ hash >>> 29) * 0x165667B19E3779F9
  hash ^^^ hash >>> 32

def rotateLeft (word bits : UInt64) : UInt64 := word <<< bits ||| word >>> (64 - bits)

def xxh3Rrmxmx (hash length : UInt64) : UInt64 :=
  let hash := (hash ^^^ rotateLeft hash 49 ^^^ rotateLeft hash 24) * 0x9FB21C651E98DF25
  let hash := (hash ^^^ ((hash >>> 35) + length)) * 0x9FB21C651E98DF25
  hash ^^^ hash >>> 28

/-- `XXH3_64bits` of one to eight bytes. The masks are the words of the default secret that the branch mixes in. -/
def xxh3Short (bytes : Bytes) : HashType :=
  let word (data : Bytes) := UInt64.ofNat (Packed.natOfBytes data)
  let length := UInt64.ofNat bytes.length
  if bytes.length < 4 then
    let byte (index : ℕ) := word [bytes.getD index 0]
    xxh64Avalanche ((byte 0 <<< 16 ||| byte (bytes.length / 2) <<< 24 ||| byte (bytes.length - 1) ||| length <<< 8) ^^^
      0x87275A9B)
  else
    xxh3Rrmxmx ((word (bytes.drop (bytes.length - 4)) + word (bytes.take 4) <<< 32) ^^^ 0xC73AB174C5ECD5A2) length

end DetSim.Search.Wire
