import DetSim.Model.Wire
import DetSim.ToMathlib.Except
import DetSim.ToMathlib.Packed

/-! # The wire codec is a canonical bijection

Every reader is described by what it accepts between two positions of a payload: the bytes of the value
it returns, and nothing else. Since the writer writes exactly those bytes, decoding inverts encoding, and
what is decoded can only have been written in one way.
-/

namespace DetSim.Search.Wire

open Kernel (Bytes)
open Scheduler (TransitionAction)
open Except (bind_eq_ok)
open Packed (natOfBytes natOfBytes_lt natOfBytes_natBytes natBytes_natOfBytes)

variable {data : Bytes} {limits : Limits} {message : Message} {s : Position} {fits : Prop} {action : WriterM Unit}
  {bits : ℕ}

/-! ## Numbers -/

theorem little_natOfBytes (data : Bytes) : little data.length (natOfBytes data) = data := natBytes_natOfBytes data

theorem length_little (width value : ℕ) : (little width value).length = width := Codec.length_natBytes width value

theorem natOfBytes_little {width value : ℕ} (fits : value < 256 ^ width) : natOfBytes (little width value) = value :=
  natOfBytes_natBytes fits

/-! ## Positions in a payload -/

/-- A position: the state of the reader and the bytes still to come. -/
abbrev Position := Reader × Bytes

/-- The given bytes lie between two positions. -/
def Spans (data : Bytes) (s t : Position) : Prop :=
  s.2 = data ++ t.2 ∧ s.1 = { t.1 with remaining := data.length + t.1.remaining }

theorem spans_nil {t : Position} : Spans [] s t ↔ s = t := by
  rw [Spans, List.nil_append, List.length_nil, Nat.zero_add, Prod.ext_iff, and_comm]

theorem exists_spans {first second : Bytes} {u : Position} :
    (∃ t, Spans first s t ∧ Spans second t u) ↔ Spans (first ++ second) s u := by
  constructor
  · rintro ⟨t, ⟨word, reader⟩, ⟨word', reader'⟩⟩
    refine ⟨by rw [word, word', List.append_assoc], ?_⟩
    rw [reader, reader', List.length_append, Nat.add_assoc]
  · rintro ⟨word, reader⟩
    refine ⟨({ u.1 with remaining := second.length + u.1.remaining }, second ++ u.2), ⟨?_, ?_⟩, rfl, rfl⟩
    · rw [word, List.append_assoc]
    · rw [reader, List.length_append, Nat.add_assoc]

theorem Spans.append {first second : Bytes} {t u : Position} (left : Spans first s t) (right : Spans second t u) :
    Spans (first ++ second) s u := exists_spans.mp ⟨t, left, right⟩

/-- What a reader returns between two positions. -/
def Accepts {α : Type} (reader : ReaderM α) (s : Position) (value : α) (t : Position) : Prop :=
  (reader s.1).run "Truncated worker protocol frame" s.2 = .ok ((value, t.1), t.2)

section Readers

variable {α β : Type} {s t : Position}

theorem accepts_bind {reader : ReaderM α} {next : α → ReaderM β} {value : β} :
    Accepts (reader >>= next) s value t ↔ ∃ first middle, Accepts reader s first middle ∧
      Accepts (next first) middle value t := by
  unfold Accepts
  change ((reader s.1 >>= fun result => next result.1 result.2).run _ _) = _ ↔ _
  rw [ReadProgram.run_bind, bind_eq_ok]
  constructor
  · rintro ⟨⟨⟨first, state⟩, word⟩, run, rest⟩
    exact ⟨first, (state, word), run, rest⟩
  · rintro ⟨first, ⟨state, word⟩, run, rest⟩
    exact ⟨⟨⟨first, state⟩, word⟩, run, rest⟩

theorem accepts_of_done {reader : ReaderM α} {value : α} (returned : α) (after : Reader)
    (returns : reader s.1 = .done (returned, after)) :
    Accepts reader s value t ↔ value = returned ∧ t = (after, s.2) := by
  rw [Accepts, returns, ReadProgram.run, Except.ok.injEq, Prod.ext_iff, Prod.ext_iff, Prod.ext_iff, and_assoc]
  exact ⟨fun same => ⟨same.1.symm, same.2.1.symm, same.2.2.symm⟩, fun same => ⟨same.1.symm, same.2.1.symm, same.2.2.symm⟩⟩

theorem accepts_pure {value result : α} : Accepts (pure value) s result t ↔ result = value ∧ t = s :=
  accepts_of_done _ _ rfl

theorem accepts_get {value : Reader} : Accepts get s value t ↔ value = s.1 ∧ t = s :=
  accepts_of_done _ _ rfl

theorem accepts_check {condition : Prop} [Decidable condition] {message : String} {value : Unit} :
    Accepts (Reader.check condition message) s value t ↔ condition ∧ t = s := by
  by_cases holds : condition
  · rw [accepts_of_done _ _ (if_pos holds)]
    simp [holds]
  · simp [Accepts, Reader.check, holds, ReadProgram.run]

theorem accepts_bytes {length : ℕ} :
    Accepts (Reader.bytes length) s data t ↔ data.length = length ∧ length ≤ sizeMax ∧ Spans data s t := by
  obtain ⟨⟨remaining, specs⟩, word⟩ := s
  obtain ⟨⟨left, kept⟩, rest⟩ := t
  by_cases fits : remaining < length ∨ sizeMax < length
  · simp only [Accepts, Reader.bytes, fits, if_true, ReadProgram.run, reduceCtorEq, Spans, Reader.mk.injEq, false_iff]
    rintro ⟨rfl, small, _, rfl, _⟩
    omega
  rw [not_or, Nat.not_lt, Nat.not_lt] at fits
  by_cases empty : length = 0
  · subst empty
    rw [accepts_of_done [] ⟨remaining, specs⟩ (by simp [Reader.bytes])]
    simp only [List.length_eq_zero_iff, Spans]
    constructor
    · rintro ⟨rfl, same⟩
      cases same
      simp
    · rintro ⟨rfl, _, word, reader⟩
      simp_all
  · simp only [Accepts, Reader.bytes, Nat.not_lt.mpr fits.1, Nat.not_lt.mpr fits.2, or_self, if_false, empty,
      ReadProgram.run, Spans]
    split
    · next available =>
      simp only [Except.ok.injEq, Prod.mk.injEq, Reader.mk.injEq]
      constructor
      · rintro ⟨⟨rfl, rfl, rfl⟩, rfl⟩
        simp only [List.length_take, List.take_append_drop, and_true, true_and]
        omega
      · rintro ⟨rfl, _, rfl, rfl, rfl⟩
        simp
    · next short =>
      simp only [reduceCtorEq, false_iff]
      rintro ⟨rfl, _, rfl, _⟩
      simp at short

theorem accepts_scalar {width value : ℕ} (small : width ≤ sizeMax) :
    Accepts (Reader.scalar width) s value t ↔ value < 256 ^ width ∧ Spans (little width value) s t := by
  simp only [Reader.scalar, accepts_bind, accepts_bytes, accepts_pure]
  constructor
  · rintro ⟨data, middle, ⟨rfl, _, spans⟩, rfl, rfl⟩
    exact ⟨natOfBytes_lt data, by rwa [little_natOfBytes]⟩
  · rintro ⟨fits, spans⟩
    exact ⟨little width value, t, ⟨length_little _ _, small, spans⟩, (natOfBytes_little fits).symm, rfl⟩

theorem accepts_uint64 {value : UInt64} :
    Accepts Reader.uint64 s value t ↔ Spans (little 8 value.toNat) s t := by
  simp only [Reader.uint64, accepts_bind, accepts_scalar (show 8 ≤ sizeMax by decide), accepts_pure]
  constructor
  · rintro ⟨bits, middle, ⟨fits, spans⟩, rfl, rfl⟩
    rwa [UInt64.toNat_ofNat_of_lt' fits]
  · intro spans
    exact ⟨value.toNat, t, ⟨value.toNat_lt, spans⟩, by simp, rfl⟩

theorem accepts_boolean {value : Bool} :
    Accepts Reader.boolean s value t ↔ Spans (little 1 value.toNat) s t := by
  simp only [Reader.boolean, accepts_bind, accepts_scalar (show 1 ≤ sizeMax by decide), accepts_check, accepts_pure]
  constructor
  · rintro ⟨bits, middle, ⟨_, spans⟩, _, _, ⟨bounded, rfl⟩, rfl, rfl⟩
    have : bits = 0 ∨ bits = 1 := by omega
    rcases this with rfl | rfl <;> exact spans
  · intro spans
    refine ⟨value.toNat, t, ⟨?_, spans⟩, (), t, ⟨?_, rfl⟩, ?_, rfl⟩ <;> cases value <;> decide

/-- The bytes of a variable part. -/
def sizedBytes (data : Bytes) : Bytes := little 8 data.length ++ data

theorem accepts_sized {limit : UInt64} :
    Accepts (Reader.sized limit) s data t ↔ data.length ≤ limit.toNat ∧ Spans (sizedBytes data) s t := by
  have bound := limit.toNat_lt
  simp only [Reader.sized, Reader.length, accepts_bind, accepts_scalar (show 8 ≤ sizeMax by decide), accepts_get,
    accepts_check, accepts_pure, accepts_bytes, sizedBytes]
  constructor
  · rintro ⟨count, _, ⟨_, _, ⟨_, counted⟩, _, _, ⟨rfl, rfl⟩, _, _, ⟨⟨within, _⟩, rfl⟩, rfl, rfl⟩, rfl, _, spans⟩
    exact ⟨within, counted.append spans⟩
  · rintro ⟨within, spans⟩
    obtain ⟨middle, counted, spans⟩ := exists_spans.mpr spans
    have left : middle.1.remaining = data.length + t.1.remaining := congrArg Reader.remaining spans.2
    have small : data.length ≤ sizeMax := by
      unfold sizeMax
      omega
    refine ⟨data.length, middle, ⟨data.length, middle, ⟨by omega, counted⟩, middle.1, middle, ⟨rfl, rfl⟩, (), middle,
      ⟨⟨within, by omega, small⟩, rfl⟩, rfl, rfl⟩, rfl, small, spans⟩

/-! ## Bundles -/

def blobBytes (blob : Blob) : Bytes := little 8 blob.key.toNat ++ sizedBytes blob.bytes

def bundleHead (bundle : Bundle) (count : ℕ) : Bytes :=
  little 4 bundle.version.toNat ++ (little 8 bundle.systemKey.toNat ++ (sizedBytes bundle.metadata ++ little 8 count))

def bundleBytes (bundle : Bundle) : Bytes :=
  bundleHead bundle bundle.blobs.length ++ bundle.blobs.flatMap blobBytes

variable (limits : Limits)

/-- The limits a bundle has to respect. -/
structure BundleFits (bundle : Bundle) : Prop where
  metadata : bundle.metadata.length ≤ limits.maxMetadataBytes.toNat
  count : bundle.blobs.length ≤ limits.maxBlobs.toNat
  blobs : ∀ blob ∈ bundle.blobs, blob.bytes.length ≤ limits.maxBlobBytes.toNat

theorem accepts_blobs {count : ℕ} {blobs : List Blob} :
    Accepts (Reader.blobs limits count) s blobs t ↔ blobs.length = count ∧
      (∀ blob ∈ blobs, blob.bytes.length ≤ limits.maxBlobBytes.toNat) ∧ Spans (blobs.flatMap blobBytes) s t := by
  induction count generalizing blobs s t with
  | zero =>
    simp only [Reader.blobs, accepts_pure, List.length_eq_zero_iff]
    constructor
    · rintro ⟨rfl, rfl⟩
      exact ⟨rfl, by simp, spans_nil.mpr rfl⟩
    · rintro ⟨rfl, _, spans⟩
      exact ⟨rfl, (spans_nil.mp spans).symm⟩
  | succ count ih =>
    simp only [Reader.blobs, accepts_bind, accepts_uint64, accepts_sized, ih, accepts_pure]
    constructor
    · rintro ⟨key, _, keySpans, data, _, ⟨within, dataSpans⟩, rest, _, ⟨rfl, fits, spans⟩, rfl, rfl⟩
      refine ⟨rfl, ?_, ?_⟩
      · simpa [within] using fits
      · rw [List.flatMap_cons, blobBytes]
        exact (keySpans.append dataSpans).append spans
    · rintro ⟨counted, fits, spans⟩
      obtain ⟨blob, rest, rfl⟩ := List.exists_cons_of_length_eq_add_one counted
      rw [List.flatMap_cons] at spans
      obtain ⟨afterBlob, blobSpans, spans⟩ := exists_spans.mpr spans
      obtain ⟨afterKey, keySpans, dataSpans⟩ := exists_spans.mpr blobSpans
      rw [List.forall_mem_cons] at fits
      exact ⟨blob.key, afterKey, keySpans, blob.bytes, afterBlob, ⟨fits.1, dataSpans⟩, rest, t,
        ⟨by simpa using counted, fits.2, spans⟩, rfl, rfl⟩

theorem length_blobBytes (blob : Blob) : (blobBytes blob).length = 16 + blob.bytes.length := by
  simp only [blobBytes, sizedBytes, List.length_append, length_little]
  omega

theorem sixteen_mul_le (blobs : List Blob) : 16 * blobs.length ≤ (blobs.flatMap blobBytes).length := by
  induction blobs with
  | nil => simp
  | cons blob rest ih =>
    rw [List.flatMap_cons, List.length_append, length_blobBytes, List.length_cons]
    omega

theorem accepts_bundle {bundle : Bundle} :
    Accepts (Reader.bundle limits false) s bundle t ↔ BundleFits limits bundle ∧
      bundle.blobs.length ≤ sizeMax / Reader.sizeofBlob ∧ Spans (bundleBytes bundle) s t := by
  simp only [Reader.bundle, accepts_bind, accepts_scalar (show 4 ≤ sizeMax by decide),
    accepts_scalar (show 8 ≤ sizeMax by decide), accepts_uint64, accepts_sized, accepts_get, accepts_check,
    accepts_blobs, accepts_pure, Bool.false_eq_true, if_false, bundleBytes, bundleHead]
  constructor
  · rintro ⟨version, _, ⟨fits, versionSpans⟩, key, _, keySpans, metadata, _, ⟨within, metadataSpans⟩, count, _,
      ⟨_, countSpans⟩, _, _, ⟨rfl, rfl⟩, _, _, ⟨⟨few, _, small⟩, rfl⟩, blobs, _, ⟨rfl, each, spans⟩, rfl, rfl⟩
    refine ⟨⟨within, few, each⟩, small, ?_⟩
    rw [UInt32.toNat_ofNat_of_lt' fits]
    exact (versionSpans.append (keySpans.append (metadataSpans.append countSpans))).append spans
  · rintro ⟨fits, small, spans⟩
    obtain ⟨counted, headSpans, spans⟩ := exists_spans.mpr spans
    obtain ⟨afterVersion, versionSpans, headSpans⟩ := exists_spans.mpr headSpans
    obtain ⟨afterKey, keySpans, headSpans⟩ := exists_spans.mpr headSpans
    obtain ⟨afterMetadata, metadataSpans, countSpans⟩ := exists_spans.mpr headSpans
    have left : counted.1.remaining = (bundle.blobs.flatMap blobBytes).length + t.1.remaining :=
      congrArg Reader.remaining spans.2
    have enough := sixteen_mul_le bundle.blobs
    have bound := limits.maxBlobs.toNat_lt
    have few := fits.count
    exact ⟨bundle.version.toNat, afterVersion, ⟨bundle.version.toNat_lt, versionSpans⟩, bundle.systemKey, afterKey,
      keySpans, bundle.metadata, afterMetadata, ⟨fits.metadata, metadataSpans⟩, bundle.blobs.length, counted,
      ⟨by omega, countSpans⟩, counted.1, counted, ⟨rfl, rfl⟩, (), counted, ⟨⟨few, by omega, small⟩, rfl⟩,
      bundle.blobs, t, ⟨rfl, fits.blobs, spans⟩, by simp, rfl⟩

/-! ## Messages -/

def ticketBytes (ticket : Ticket) : Bytes :=
  little 8 ticket.state.toNat ++ (little 8 ticket.worker.toNat ++ (little 8 ticket.leaseId.toNat ++
    (little 8 ticket.depth.toNat ++ little 1 ticket.mayExpand.toNat)))

def edgeHead (edge : Edge) : Bytes :=
  little 8 edge.leaseId.toNat ++ (little 8 edge.source.toNat ++ (little 8 edge.target.toNat ++
    (little 4 edge.actor.process ++ (little 4 edge.actor.thread ++ (little 1 (actionByte edge.actor.action) ++
      (little 4 (choiceBits edge.choice) ++ (little 4 edge.choiceCount ++
        (little 1 edge.propertyViolation.toNat ++ little 1 edge.resultCode.toNat))))))))

/-- The integers of an edge that the wire format can carry. -/
structure EdgeRange (edge : Edge) : Prop where
  process : edge.actor.process ≤ int32Max
  thread : edge.actor.thread ≤ int32Max
  choice : -2 ≤ edge.choice ∧ edge.choice ≤ int32Max
  choiceCount : edge.choiceCount ≤ int32Max

theorem byteAction_eq_iff {action : TransitionAction} (bounded : bits ≤ 1) :
    action = byteAction bits ↔ bits = actionByte action := by
  have : bits = 0 ∨ bits = 1 := by omega
  rcases this with rfl | rfl <;> cases action <;> decide

theorem byteDone_eq_iff {kind : DoneKind} (bounded : bits ≤ 4) :
    kind = byteDone bits ↔ bits = doneByte kind := by
  have : bits = 0 ∨ bits = 1 ∨ bits = 2 ∨ bits = 3 ∨ bits = 4 := by omega
  rcases this with rfl | rfl | rfl | rfl | rfl <;> cases kind <;> decide

theorem byteResult_eq_iff {code : TransitionResultCode} (bounded : bits ≤ 4) :
    code = byteResult bits ↔ bits = code.toNat := by
  have : bits = 0 ∨ bits = 1 ∨ bits = 2 ∨ bits = 3 ∨ bits = 4 := by omega
  rcases this with rfl | rfl | rfl | rfl | rfl <;> cases code <;> decide

theorem choiceBits_of_range {choice : ℤ} (range : -2 ≤ choice ∧ choice ≤ int32Max) :
    choiceBits choice < 256 ^ 4 ∧ (choiceBits choice ≤ int32Max ∨ choiceBits choice = 2 ^ 32 - 1 ∨
      choiceBits choice = 2 ^ 32 - 2) ∧ bitsChoice (choiceBits choice) = choice := by
  unfold choiceBits bitsChoice int32Max at *
  refine ⟨by omega, by omega, ?_⟩
  split_ifs <;> omega

theorem choiceBits_bitsChoice (valid : bits ≤ int32Max ∨ bits = 2 ^ 32 - 1 ∨ bits = 2 ^ 32 - 2) :
    choiceBits (bitsChoice bits) = bits ∧ -2 ≤ bitsChoice bits ∧ bitsChoice bits ≤ int32Max := by
  unfold choiceBits bitsChoice int32Max at *
  split_ifs <;> omega

theorem accepts_task {shared : Bool} :
    Accepts (decode limits shared .task) s message t ↔ ∃ task middle, message = .task task ∧
      Spans (ticketBytes task.ticket) s middle ∧ Accepts (Reader.bundle limits shared) middle task.bundle t := by
  simp only [decode, accepts_bind, accepts_uint64, accepts_boolean, accepts_pure, ticketBytes]
  constructor
  · rintro ⟨state, _, first, worker, _, second, leaseId, _, third, depth, _, fourth, mayExpand, middle, fifth, bundle,
      _, accepted, rfl, rfl⟩
    exact ⟨⟨⟨state, worker, leaseId, depth, mayExpand⟩, bundle⟩, middle, rfl,
      first.append (second.append (third.append (fourth.append fifth))), accepted⟩
  · rintro ⟨task, middle, rfl, spans, accepted⟩
    obtain ⟨_, first, spans⟩ := exists_spans.mpr spans
    obtain ⟨_, second, spans⟩ := exists_spans.mpr spans
    obtain ⟨_, third, spans⟩ := exists_spans.mpr spans
    obtain ⟨_, fourth, fifth⟩ := exists_spans.mpr spans
    exact ⟨_, _, first, _, _, second, _, _, third, _, _, fourth, _, _, fifth, _, _, accepted, rfl, rfl⟩

theorem accepts_edge {shared : Bool} :
    Accepts (decode limits shared .edge) s message t ↔ ∃ edge middle, message = .edge edge ∧ EdgeRange edge ∧
      Spans (edgeHead edge) s middle ∧ Accepts (Reader.bundle limits shared) middle edge.bundle t := by
  simp only [decode, accepts_bind, accepts_uint64, accepts_boolean, accepts_scalar (show 4 ≤ sizeMax by decide),
    accepts_scalar (show 1 ≤ sizeMax by decide), accepts_check, accepts_pure, edgeHead]
  constructor
  · rintro ⟨leaseId, _, first, source, _, second, target, _, third, process, _, ⟨_, fourth⟩, thread, _, ⟨_, fifth⟩,
      _, _, ⟨⟨processRange, threadRange⟩, rfl⟩, action, _, ⟨_, sixth⟩, _, _, ⟨actionRange, rfl⟩,
      choice, _, ⟨_, seventh⟩, _, _, ⟨choiceRange, rfl⟩, choiceCount, _, ⟨_, eighth⟩, _, _, ⟨countRange, rfl⟩,
      violation, _, ninth, code, _, ⟨_, tenth⟩, _, _, ⟨codeRange, rfl⟩, bundle, _, accepted, rfl, rfl⟩
    obtain ⟨bits, range⟩ := choiceBits_bitsChoice choiceRange
    refine ⟨_, _, rfl, ⟨processRange, threadRange, range, countRange⟩, ?_, accepted⟩
    dsimp only
    rw [bits, ← (byteAction_eq_iff actionRange).mp rfl, ← (byteResult_eq_iff codeRange).mp rfl]
    exact first.append (second.append (third.append (fourth.append (fifth.append (sixth.append (seventh.append
      (eighth.append (ninth.append tenth))))))))
  · rintro ⟨edge, middle, rfl, range, spans, accepted⟩
    obtain ⟨_, first, spans⟩ := exists_spans.mpr spans
    obtain ⟨_, second, spans⟩ := exists_spans.mpr spans
    obtain ⟨_, third, spans⟩ := exists_spans.mpr spans
    obtain ⟨_, fourth, spans⟩ := exists_spans.mpr spans
    obtain ⟨_, fifth, spans⟩ := exists_spans.mpr spans
    obtain ⟨_, sixth, spans⟩ := exists_spans.mpr spans
    obtain ⟨_, seventh, spans⟩ := exists_spans.mpr spans
    obtain ⟨_, eighth, spans⟩ := exists_spans.mpr spans
    obtain ⟨_, ninth, tenth⟩ := exists_spans.mpr spans
    obtain ⟨bits, choiceRange, choice⟩ := choiceBits_of_range range.choice
    have small : int32Max < 256 ^ 4 := by decide
    have action : actionByte edge.actor.action ≤ 1 := by cases edge.actor.action <;> decide
    have code : edge.resultCode.toNat ≤ 4 := by cases edge.resultCode <;> decide
    refine ⟨_, _, first, _, _, second, _, _, third, _, _, ⟨range.process.trans_lt small, fourth⟩,
      _, _, ⟨range.thread.trans_lt small, fifth⟩, (), _, ⟨⟨range.process, range.thread⟩, rfl⟩,
      _, _, ⟨by omega, sixth⟩, (), _, ⟨action, rfl⟩, _, _, ⟨bits, seventh⟩, (), _, ⟨choiceRange, rfl⟩,
      _, _, ⟨range.choiceCount.trans_lt small, eighth⟩, (), _, ⟨range.choiceCount, rfl⟩, _, _, ninth,
      _, _, ⟨by omega, tenth⟩, (), _, ⟨code, rfl⟩, _, _, accepted, ?_, rfl⟩
    rw [choice, ← (byteAction_eq_iff action).mpr rfl, ← (byteResult_eq_iff code).mpr rfl]

/-- The messages the reader accepts in a frame of version 1. -/
def Readable : Message → Prop
  | .hello hello => hello.modelIdentity.length ≤ limits.maxTextBytes.toNat ∧
      hello.compatibility.length ≤ limits.maxTextBytes.toNat
  | .task task => BundleFits limits task.bundle ∧ task.bundle.blobs.length ≤ sizeMax / Reader.sizeofBlob
  | .edge edge => EdgeRange edge ∧ BundleFits limits edge.bundle ∧
      edge.bundle.blobs.length ≤ sizeMax / Reader.sizeofBlob
  | .done done => done.emitted < 2 ^ 64
  | .error error => error.reason.length ≤ limits.maxTextBytes.toNat
  | .shutdown => True

/-- The payload of a message in a frame of version 1. -/
def payload : Message → Bytes
  | .hello hello => sizedBytes hello.modelIdentity ++ sizedBytes hello.compatibility
  | .task task => ticketBytes task.ticket ++ bundleBytes task.bundle
  | .edge edge => edgeHead edge ++ bundleBytes edge.bundle
  | .done done => little 8 done.leaseId.toNat ++ (little 8 done.source.toNat ++ (little 1 (doneByte done.kind) ++
      little 8 done.emitted))
  | .error error => little 8 error.leaseId.toNat ++ (little 8 error.source.toNat ++ sizedBytes error.reason)
  | .shutdown => []

/-- The decoder accepts exactly the payloads of readable messages. -/
theorem accepts_decode {type : MessageType} :
    Accepts (decode limits false type) s message t ↔
      messageType message = type ∧ Readable limits message ∧ Spans (payload message) s t := by
  cases type with
  | hello =>
    simp only [decode, Reader.text, accepts_bind, accepts_sized, accepts_pure]
    constructor
    · rintro ⟨modelIdentity, _, ⟨left, first⟩, compatibility, _, ⟨right, second⟩, rfl, rfl⟩
      exact ⟨rfl, ⟨left, right⟩, first.append second⟩
    · rintro ⟨same, fits, spans⟩
      cases message <;> cases same
      obtain ⟨_, first, second⟩ := exists_spans.mpr spans
      exact ⟨_, _, ⟨fits.1, first⟩, _, _, ⟨fits.2, second⟩, rfl, rfl⟩
  | task =>
    simp only [accepts_task, accepts_bundle]
    constructor
    · rintro ⟨task, _, rfl, first, fits, small, second⟩
      exact ⟨rfl, ⟨fits, small⟩, first.append second⟩
    · rintro ⟨same, fits, spans⟩
      cases message <;> cases same
      obtain ⟨_, first, second⟩ := exists_spans.mpr spans
      exact ⟨_, _, rfl, first, fits.1, fits.2, second⟩
  | edge =>
    simp only [accepts_edge, accepts_bundle]
    constructor
    · rintro ⟨edge, _, rfl, range, first, fits, small, second⟩
      exact ⟨rfl, ⟨range, fits, small⟩, first.append second⟩
    · rintro ⟨same, fits, spans⟩
      cases message <;> cases same
      obtain ⟨_, first, second⟩ := exists_spans.mpr spans
      exact ⟨_, _, rfl, fits.1, first, fits.2.1, fits.2.2, second⟩
  | done =>
    simp only [decode, accepts_bind, accepts_uint64, accepts_scalar (show 1 ≤ sizeMax by decide),
      accepts_scalar (show 8 ≤ sizeMax by decide), accepts_check, accepts_pure]
    constructor
    · rintro ⟨leaseId, _, first, source, _, second, kind, _, ⟨_, third⟩, _, _, ⟨kindRange, rfl⟩, emitted, _,
        ⟨small, fourth⟩, rfl, rfl⟩
      refine ⟨rfl, small, ?_⟩
      rw [payload, ← (byteDone_eq_iff kindRange).mp rfl]
      exact first.append (second.append (third.append fourth))
    · rintro ⟨same, fits, spans⟩
      cases message <;> cases same
      next done =>
      obtain ⟨_, first, spans⟩ := exists_spans.mpr spans
      obtain ⟨_, second, spans⟩ := exists_spans.mpr spans
      obtain ⟨_, third, fourth⟩ := exists_spans.mpr spans
      have kind : doneByte done.kind ≤ 4 := by cases done.kind <;> decide
      refine ⟨_, _, first, _, _, second, _, _, ⟨by omega, third⟩, (), _, ⟨kind, rfl⟩, _, _, ⟨fits, fourth⟩, ?_, rfl⟩
      rw [← (byteDone_eq_iff kind).mpr rfl]
  | error =>
    simp only [decode, Reader.text, accepts_bind, accepts_uint64, accepts_sized, accepts_pure]
    constructor
    · rintro ⟨leaseId, _, first, source, _, second, reason, _, ⟨within, third⟩, rfl, rfl⟩
      exact ⟨rfl, within, first.append (second.append third)⟩
    · rintro ⟨same, fits, spans⟩
      cases message <;> cases same
      obtain ⟨_, first, spans⟩ := exists_spans.mpr spans
      obtain ⟨_, second, third⟩ := exists_spans.mpr spans
      exact ⟨_, _, first, _, _, second, _, _, ⟨fits, third⟩, rfl, rfl⟩
  | shutdown =>
    simp only [decode, accepts_pure]
    constructor
    · rintro ⟨rfl, rfl⟩
      exact ⟨rfl, trivial, spans_nil.mpr rfl⟩
    · rintro ⟨same, _, spans⟩
      cases message <;> cases same
      exact ⟨rfl, (spans_nil.mp spans).symm⟩

end Readers

/-! ## Writing -/

section Writers

variable (limits : Limits)

/-- Once at least `base` bytes are written, an action writes the given bytes, and fails exactly when a
limit is exceeded. -/
structure Writes (base : ℕ) (action : WriterM Unit) (fits : Prop) (data : Bytes) : Prop where
  accepts : ∀ out : Writer, base ≤ out.size → out.size ≤ limits.maxFrameBytes.toNat →
    ((∃ after, action out = .ok ((), after)) ↔ fits ∧ out.size + data.length ≤ limits.maxFrameBytes.toNat)
  effect : ∀ out after, action out = .ok ((), after) →
    after.size = out.size + data.length ∧ after.output.flatten = out.output.flatten ++ data

variable {limits} {base : ℕ}

theorem writer_bind_eq_ok {α : Type} {first : WriterM α} {second : α → WriterM Unit} {out after : Writer} :
    (first >>= second) out = .ok ((), after) ↔
      ∃ value middle, first out = .ok (value, middle) ∧ second value middle = .ok ((), after) := by
  change (first out >>= fun result => second result.1 result.2) = _ ↔ _
  rw [bind_eq_ok]
  constructor
  · rintro ⟨⟨value, middle⟩, run, rest⟩
    exact ⟨value, middle, run, rest⟩
  · rintro ⟨value, middle, run, rest⟩
    exact ⟨(value, middle), run, rest⟩

theorem Writes.bind {first second : WriterM Unit} {also : Prop} {left right : Bytes}
    (writesFirst : Writes limits base first fits left)
    (writesSecond : Writes limits (base + left.length) second also right) :
    Writes limits base (first >>= fun _ => second) (fits ∧ also) (left ++ right) := by
  constructor
  · intro out started bounded
    simp only [writer_bind_eq_ok, List.length_append]
    constructor
    · rintro ⟨after, _, middle, run, rest⟩
      have size := (writesFirst.effect out middle run).1
      obtain ⟨holds, room⟩ := (writesFirst.accepts out started bounded).mp ⟨middle, run⟩
      obtain ⟨more, enough⟩ := (writesSecond.accepts middle (by omega) (by omega)).mp ⟨after, rest⟩
      exact ⟨⟨holds, more⟩, by omega⟩
    · rintro ⟨⟨holds, more⟩, enough⟩
      obtain ⟨middle, run⟩ := (writesFirst.accepts out started bounded).mpr ⟨holds, by omega⟩
      have size := (writesFirst.effect out middle run).1
      obtain ⟨after, rest⟩ := (writesSecond.accepts middle (by omega) (by omega)).mpr ⟨more, by omega⟩
      exact ⟨after, (), middle, run, rest⟩
  · intro out after
    rw [writer_bind_eq_ok]
    rintro ⟨_, middle, run, rest⟩
    obtain ⟨size, output⟩ := writesFirst.effect out middle run
    obtain ⟨sizeAfter, outputAfter⟩ := writesSecond.effect middle after rest
    refine ⟨?_, by rw [outputAfter, output, List.append_assoc]⟩
    rw [sizeAfter, size, List.length_append, Nat.add_assoc]

/-- Only what fits into the frame needs to be looked at. -/
theorem Writes.congr {also : Prop} {left right : Bytes}
    (writes : Writes limits base action fits left)
    (same : base + left.length ≤ limits.maxFrameBytes.toNat → (also ↔ fits)) (data : right = left) :
    Writes limits base action also right := by
  subst data
  refine ⟨fun out started bounded => (writes.accepts out started bounded).trans (and_congr_left fun room => ?_),
    writes.effect⟩
  exact (same (by omega)).symm

/-- A check that comes first. -/
theorem Writes.unless
    (writes : Writes limits base action fits data) (condition : Prop) [Decidable condition] (message : String) :
    Writes limits base (if condition then Writer.fail message >>= fun _ : Unit => action else action)
      (¬condition ∧ fits) data := by
  split
  · next holds =>
    have stops : ∀ out after, (Writer.fail message >>= fun _ : Unit => action) out ≠ .ok ((), after) := by
      rintro out after ⟨⟩
    exact ⟨fun out _ _ => by simp [stops, holds], fun out after run => absurd run (stops out after)⟩
  · next fails => exact writes.congr (fun _ => and_iff_right fails) rfl

/-- What is written so far is known to what comes next. -/
theorem writes_get {action : ℕ → WriterM Unit}
    (writes : ∀ size, Writes limits size (action size) fits data) :
    Writes limits base (get >>= fun out => action out.size) fits data :=
  ⟨fun out _ bounded => (writes out.size).accepts out (Nat.le_refl _) bounded,
    fun out after run => (writes out.size).effect out after run⟩

theorem writes_pure : Writes limits base (pure ()) True [] := by
  constructor
  · intro out _ bounded
    exact ⟨fun _ => ⟨trivial, bounded⟩, fun _ => ⟨out, rfl⟩⟩
  · rintro out after ⟨⟩
    simp

theorem writes_bytes (data : Bytes) : Writes limits base (Writer.bytes limits data) True data := by
  have bound := limits.maxFrameBytes.toNat_lt
  constructor
  · intro out _ bounded
    unfold Writer.bytes
    rw [if_neg (Nat.not_lt.mpr bounded)]
    split
    · next exceeds =>
      unfold sizeMax at exceeds
      simp only [reduceCtorEq, exists_false, true_and, false_iff]
      omega
    · simp only [Except.ok.injEq, Prod.mk.injEq, true_and, exists_eq', true_iff]
      omega
  · intro out after
    unfold Writer.bytes
    split_ifs with wraps exceeds empty
    · rintro ⟨⟩
    · rintro ⟨⟩
    · rintro ⟨⟩
      simp [empty]
    · rintro ⟨⟩
      simp

theorem writes_scalar (width value : ℕ) :
    Writes limits base (Writer.scalar limits width value) True (little width value) :=
  writes_bytes _

/-- A scalar in front adds its bytes and no condition. -/
theorem Writes.scalar (width value : ℕ)
    (writes : Writes limits (base + width) action fits data) :
    Writes limits base (Writer.scalar limits width value >>= fun _ => action) fits (little width value ++ data) := by
  have second : Writes limits (base + (little width value).length) action fits data := by rwa [length_little]
  exact ((writes_scalar width value).bind second).congr (by simp) rfl

theorem writes_text (data : Bytes) :
    Writes limits base (Writer.text limits data) (data.length ≤ limits.maxTextBytes.toNat) (sizedBytes data) :=
  (((writes_bytes data).scalar 8 data.length).unless _ _).congr (by simp) rfl

/-- The running total of the blobs stays below what is written, so its bound adds nothing. -/
theorem writes_blobs (blobs : List Blob) {rawTotal : ℕ} (total : rawTotal ≤ base) :
    Writes limits base (Writer.blobs limits rawTotal (blobs.map fun blob => (blob, none)))
      (∀ blob ∈ blobs, blob.bytes.length ≤ limits.maxBlobBytes.toNat) (blobs.flatMap blobBytes) := by
  induction blobs generalizing base rawTotal with
  | nil => exact writes_pure.congr (by simp) rfl
  | cons blob rest ih =>
    rw [List.map_cons, Writer.blobs]
    have total' : rawTotal + blob.bytes.length ≤ base + 8 + 8 + blob.bytes.length := by omega
    have written := ((((writes_bytes blob.bytes).bind (ih total')).scalar 8 blob.bytes.length).scalar 8
      blob.key.toNat).unless (limits.maxBlobBytes.toNat < blob.bytes.length ∨
        limits.maxFrameBytes.toNat - rawTotal < blob.bytes.length) "Worker bundle blob exceeds transfer limit"
    refine (written.unless (limits.maxFrameBytes.toNat < rawTotal) wrapError).congr ?_ ?_
    · intro room
      simp only [List.length_append, length_little] at room
      have : ¬limits.maxFrameBytes.toNat - rawTotal < blob.bytes.length := by omega
      have : ¬limits.maxFrameBytes.toNat < rawTotal := by omega
      simp [*]
    · simp [blobBytes, sizedBytes]

theorem writes_bundle (bundle : Bundle) :
    Writes limits base (Writer.bundle limits none bundle) (BundleFits limits bundle) (bundleBytes bundle) := by
  have counted : Writes limits (base + 4 + 8 + 8 + bundle.metadata.length) _ _ _ :=
    (writes_get fun size => writes_blobs bundle.blobs (Nat.le_refl size)).scalar 8 bundle.blobs.length
  have written := (((((writes_bytes bundle.metadata).bind counted).scalar 8 bundle.metadata.length).scalar 8
    bundle.systemKey.toNat).scalar 4 bundle.version.toNat).unless
      (limits.maxMetadataBytes.toNat < bundle.metadata.length ∨ limits.maxBlobs.toNat < bundle.blobs.length)
      "Worker bundle metadata/object count exceeds transfer limit"
  refine written.congr ?_ ?_
  · intro _
    rw [not_or, Nat.not_lt, Nat.not_lt]
    exact ⟨fun fits => ⟨⟨fits.metadata, fits.count⟩, trivial, fits.blobs⟩, fun fits => ⟨fits.1.1, fits.1.2, fits.2.2⟩⟩
  · simp [bundleBytes, bundleHead, sizedBytes]

variable (limits) in
/-- The messages the writer accepts, given room in the frame. -/
def Writable : Message → Prop
  | .hello hello => hello.modelIdentity.length ≤ limits.maxTextBytes.toNat ∧
      hello.compatibility.length ≤ limits.maxTextBytes.toNat
  | .task task => BundleFits limits task.bundle
  | .edge edge => BundleFits limits edge.bundle
  | .done _ => True
  | .error error => error.reason.length ≤ limits.maxTextBytes.toNat
  | .shutdown => True

theorem writes_encode (message : Message) :
    Writes limits base (encode limits none message) (Writable limits message) (payload message) := by
  cases message with
  | hello hello => exact (writes_text hello.modelIdentity).bind (writes_text hello.compatibility)
  | task task =>
    simp only [payload, ticketBytes, List.append_assoc]
    exact .scalar _ _ (.scalar _ _ (.scalar _ _ (.scalar _ _ (.scalar _ _ (writes_bundle _)))))
  | edge edge =>
    simp only [payload, edgeHead, List.append_assoc]
    exact .scalar _ _ (.scalar _ _ (.scalar _ _ (.scalar _ _ (.scalar _ _ (.scalar _ _ (.scalar _ _ (.scalar _ _
      (.scalar _ _ (.scalar _ _ (writes_bundle _))))))))))
  | done done => exact .scalar _ _ (.scalar _ _ (.scalar _ _ (writes_scalar _ _)))
  | error error =>
    exact ((writes_text error.reason).scalar 8 error.source.toNat).scalar 8 error.leaseId.toNat
  | shutdown => exact writes_pure

/-- What the writer produces for a message. -/
theorem encodePayload_eq_ok :
    encodePayload limits none message = .ok data ↔
      data = payload message ∧ Writable limits message ∧ data.length ≤ limits.maxFrameBytes.toNat := by
  have writes : Writes limits 0 _ _ _ := writes_encode message
  have accepts := writes.accepts {} (Nat.le_refl 0) (Nat.zero_le _)
  rw [Nat.zero_add] at accepts
  rw [encodePayload, bind_eq_ok]
  constructor
  · rintro ⟨⟨_, out⟩, run, ⟨⟩⟩
    obtain ⟨fits, room⟩ := accepts.mp ⟨out, run⟩
    have written := (writes.effect {} out run).2
    rw [List.flatten_nil, List.nil_append] at written
    rw [written]
    exact ⟨rfl, fits, room⟩
  · rintro ⟨rfl, fits, room⟩
    obtain ⟨out, run⟩ := accepts.mpr ⟨fits, room⟩
    have written := (writes.effect {} out run).2
    exact ⟨((), out), run, congrArg Except.ok written⟩

end Writers

/-- What the reader makes of a payload. -/
theorem decodePayload_eq_ok {type : MessageType} {rest : Bytes}
    {specs : List BlobSpec} :
    (decodePayload limits false type data.length).run "Truncated worker protocol frame" (data ++ rest) =
        .ok ((message, specs), rest) ↔
      messageType message = type ∧ Readable limits message ∧ data = payload message ∧ specs = [] := by
  rw [decodePayload, ReadProgram.run_bind, bind_eq_ok]
  constructor
  · rintro ⟨⟨⟨decoded, reader⟩, word⟩, run, finished⟩
    have accepted : Accepts (decode limits false type) ({ remaining := data.length }, data ++ rest) decoded
      (reader, word) := run
    obtain ⟨same, fits, spans, counted⟩ := (accepts_decode limits).mp accepted
    dsimp only at finished spans counted
    split at finished
    · cases finished
    next nothing =>
    cases finished
    rw [not_not] at nothing
    rw [nothing, Nat.add_zero, Reader.mk.injEq] at counted
    exact ⟨same, fits, List.append_inj_left spans counted.1, counted.2.symm⟩
  · rintro ⟨same, fits, rfl, rfl⟩
    have accepted : Accepts (decode limits false type) ({ remaining := (payload message).length }, payload message ++ rest)
      message ({ remaining := 0 }, rest) := (accepts_decode limits).mpr ⟨same, fits, rfl, rfl⟩
    exact ⟨((message, { remaining := 0 }), rest), accepted, rfl⟩

/-- What the C++ types can hold: an edge with the integers its sender uses, a 64-bit counter, and a vector
of blobs that fits into memory. -/
def Representable : Message → Prop
  | .task task => task.bundle.blobs.length ≤ sizeMax / Reader.sizeofBlob
  | .edge edge => EdgeRange edge ∧ edge.bundle.blobs.length ≤ sizeMax / Reader.sizeofBlob
  | .done done => done.emitted < 2 ^ 64
  | _ => True

theorem readable_iff :
    Readable limits message ↔ Writable limits message ∧ Representable message := by
  cases message with
  | hello => exact (and_iff_left trivial).symm
  | task => exact Iff.rfl
  | edge => exact ⟨fun fits => ⟨fits.2.1, fits.1, fits.2.2⟩, fun fits => ⟨fits.2.1, fits.1, fits.2.2⟩⟩
  | done => exact (and_iff_right trivial).symm
  | error => exact (and_iff_left trivial).symm
  | shutdown => exact (and_iff_left trivial).symm

theorem Writable.withFrame (fits : Writable limits message) (frame : UInt64) :
    Writable { limits with maxFrameBytes := frame } message := by
  cases message with
  | task => exact ⟨fits.metadata, fits.count, fits.blobs⟩
  | edge => exact ⟨fits.metadata, fits.count, fits.blobs⟩
  | hello => exact fits
  | done => exact fits
  | error => exact fits
  | shutdown => exact fits

/-- The version-1 codec is a bijection between representable messages within the limits and the payloads
the reader accepts. A payload that is larger than the frame limit, which no frame can hold, is written
again once the limit admits it. -/
theorem wire_codec_canonical (limits : Limits) :
    (∀ message data, Representable message → encodePayload limits none message = .ok data → ∀ rest,
      (decodePayload limits false (messageType message) data.length).run "Truncated worker protocol frame"
        (data ++ rest) = .ok ((message, []), rest)) ∧
    (∀ type data message specs, data.length < 2 ^ 64 →
      (decodePayload limits false type data.length).run "Truncated worker protocol frame" data =
        .ok ((message, specs), []) →
      messageType message = type ∧ (data.length ≤ limits.maxFrameBytes.toNat →
        encodePayload limits none message = .ok data) ∧
      encodePayload { limits with maxFrameBytes := UInt64.ofNat (max limits.maxFrameBytes.toNat data.length) } none
        message = .ok data) := by
  refine ⟨?_, ?_⟩
  · intro message data representable encoded rest
    obtain ⟨same, fits, _⟩ := encodePayload_eq_ok.mp encoded
    exact decodePayload_eq_ok.mpr ⟨rfl, readable_iff.mpr ⟨fits, representable⟩, same, rfl⟩
  · intro type data message specs small decoded
    have whole : (decodePayload limits false type data.length).run "Truncated worker protocol frame" (data ++ []) =
      .ok ((message, specs), []) := by rwa [List.append_nil]
    obtain ⟨sameType, readable, same, _⟩ := decodePayload_eq_ok.mp whole
    have fits := (readable_iff.mp readable).1
    refine ⟨sameType, fun room => encodePayload_eq_ok.mpr ⟨same, fits, room⟩, ?_⟩
    refine encodePayload_eq_ok.mpr ⟨same, fits.withFrame _, ?_⟩
    have frame := limits.maxFrameBytes.toNat_lt
    rw [UInt64.toNat_ofNat_of_lt' (Nat.max_lt.mpr ⟨frame, small⟩)]
    exact Nat.le_max_right _ _

/-- An edge with a bundle of two blobs, one of them empty. -/
def sampleEdge : Message :=
  .edge {
    leaseId := 3, source := 7, target := 9, actor := ⟨1, 0, .timeout⟩, choice := -2
    resultCode := .ckptStop
    bundle := { systemKey := 9, metadata := [5, 6], blobs := [⟨11, [1, 2, 3]⟩, ⟨12, []⟩] } }

theorem wire_codec_canonical_sampleEdge :
    encodePayload {} none sampleEdge = .ok (payload sampleEdge) ∧
    (decodePayload {} false .edge (payload sampleEdge).length).run "Truncated worker protocol frame"
      (payload sampleEdge ++ [0, 1]) = .ok ((sampleEdge, []), [0, 1]) := by
  have encoded : encodePayload {} none sampleEdge = .ok (payload sampleEdge) := by decide +kernel
  refine ⟨encoded, (wire_codec_canonical {}).1 sampleEdge _ ⟨⟨?_, ?_, ?_, ?_⟩, ?_⟩ encoded [0, 1]⟩ <;> decide

end DetSim.Search.Wire
