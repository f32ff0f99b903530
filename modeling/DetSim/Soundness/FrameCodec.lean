import DetSim.Model.Channel
import DetSim.Soundness.WireCodec

/-! # What a frame says

The program that reads a frame after its header recovers the message from the bytes the sender writes, in
both versions. A frame of version 2 holds the specifications of the blobs in place of their bytes; the
receiver's object channel turns them into the blobs again.
-/

namespace DetSim.Search.Wire

open Kernel (Bytes)
open Packed (natOfBytes)
open Except (bind_eq_ok)

variable {bundle : Bundle} {specs : List BlobSpec} {message : Message} {logical : ℕ} {limits : Limits}

/-! ## The header -/

theorem length_header (shared : Bool) (type : MessageType) (size : ℕ) : (header shared type size).length = 16 := by
  simp only [header, List.length_append, length_little]

/-- The four fields of a header. -/
theorem header_fields (shared : Bool) (type : MessageType) (size : ℕ) (fits : size < 2 ^ 64) :
    natOfBytes ((header shared type size).take 4) = magic ∧
    natOfBytes (((header shared type size).drop 4).take 2) = (if shared then 2 else 1) ∧
    natOfBytes (((header shared type size).drop 6).take 2) = type.toNat ∧
    natOfBytes (((header shared type size).drop 8).take 8) = size := by
  have afterMagic : (header shared type size).drop 4 =
      little 2 (if shared then 2 else 1) ++ (little 2 type.toNat ++ little 8 size) :=
    List.drop_left' (length_little _ _)
  have afterVersion : (header shared type size).drop 6 = little 2 type.toNat ++ little 8 size := by
    rw [show 6 = 4 + 2 from rfl, ← List.drop_drop, afterMagic]
    exact List.drop_left' (length_little _ _)
  have afterType : (header shared type size).drop 8 = little 8 size := by
    rw [show 8 = 6 + 2 from rfl, ← List.drop_drop, afterVersion]
    exact List.drop_left' (length_little _ _)
  refine ⟨?_, ?_, ?_, ?_⟩
  · rw [header, List.take_left' (length_little _ _)]
    exact natOfBytes_little (by decide)
  · rw [afterMagic, List.take_left' (length_little _ _)]
    exact natOfBytes_little (by cases shared <;> decide)
  · rw [afterVersion, List.take_left' (length_little _ _)]
    exact natOfBytes_little (by cases type <;> decide)
  · rw [afterType, List.take_of_length_le (Nat.le_of_eq (length_little _ _))]
    exact natOfBytes_little fits

theorem ofNat?_toNat (type : MessageType) : MessageType.ofNat? type.toNat = some type := by
  cases type <;> rfl

/-! ## Specifications of blobs -/

def specBytes (spec : BlobSpec) : Bytes :=
  little 8 spec.key.toNat ++ (little 8 spec.size.toNat ++ little 1 spec.reference.toNat)

/-- The specification names the blob and its size. -/
def Describes (spec : BlobSpec) (blob : Blob) : Prop :=
  spec.key = blob.key ∧ spec.size.toNat = blob.bytes.length

theorem length_specBytes (spec : BlobSpec) : (specBytes spec).length = 17 := by
  simp only [specBytes, List.length_append, length_little]

theorem length_flatMap_specBytes (specs : List BlobSpec) : (specs.flatMap specBytes).length = 17 * specs.length := by
  simp only [List.length_flatMap, length_specBytes, List.map_const', List.sum_replicate, smul_eq_mul, Nat.mul_comm]

/-- What an action writes if it succeeds, and what is known then. -/
structure Emits.Effect (limits : Limits) (out after : Writer) (data : Bytes) : Prop where
  room : out.size + data.length ≤ limits.maxFrameBytes.toNat
  size : after.size = out.size + data.length
  output : after.output.flatten = out.output.flatten ++ data

def Emits (limits : Limits) (action : WriterM Unit) (facts : Prop) (data : Bytes) : Prop :=
  ∀ out after, out.size ≤ limits.maxFrameBytes.toNat → action out = .ok ((), after) →
    facts ∧ Emits.Effect limits out after data

section Emits

variable {action first : WriterM Unit} {facts : Prop} {data rest : Bytes}

theorem Emits.after {fits : Prop} (emits : Emits limits action facts rest) (writes : Writes limits 0 first fits data) :
    Emits limits (first >>= fun _ => action) facts (data ++ rest) := by
  intro out after bounded run
  obtain ⟨_, middle, head, tail⟩ := writer_bind_eq_ok.mp run
  obtain ⟨size, output⟩ := writes.effect out middle head
  have room := ((writes.accepts out (Nat.zero_le _) bounded).mp ⟨middle, head⟩).2
  obtain ⟨known, roomAfter, sizeAfter, outputAfter⟩ := emits middle after (by omega) tail
  refine ⟨known, ?_, ?_, by rw [outputAfter, output, List.append_assoc]⟩
  · rw [List.length_append]
    omega
  · rw [sizeAfter, size, List.length_append, Nat.add_assoc]

theorem Emits.scalar (width value : ℕ) (emits : Emits limits action facts data) :
    Emits limits (Writer.scalar limits width value >>= fun _ => action) facts (little width value ++ data) :=
  emits.after (writes_scalar width value)

theorem Emits.unless (emits : Emits limits action facts data) (condition : Prop) [Decidable condition]
    (message : String) :
    Emits limits (if condition then Writer.fail message >>= fun _ : Unit => action else action) (¬condition ∧ facts)
      data := by
  split
  · rintro out after _ ⟨⟩
  · next fails =>
    intro out after bounded run
    obtain ⟨known, effect⟩ := emits out after bounded run
    exact ⟨⟨fails, known⟩, effect⟩

theorem emits_blobs {blobs : List Blob} (described : List.Forall₂ Describes specs blobs)
    (rawTotal : ℕ) :
    Emits limits (Writer.blobs limits rawTotal (blobs.zip (specs.map some)))
      (∀ spec ∈ specs, spec.size ≤ limits.maxBlobBytes) (specs.flatMap specBytes) := by
  induction described generalizing rawTotal with
  | nil =>
    rintro out after bounded ⟨⟩
    exact ⟨by simp, by simpa using bounded, by simp, by simp⟩
  | @cons spec blob specs blobs same _ ih =>
    intro out after bounded run
    have emits := ((((ih (rawTotal + blob.bytes.length)).scalar 1 spec.reference.toNat).scalar 8
      blob.bytes.length).scalar 8 blob.key.toNat).unless (limits.maxBlobBytes.toNat < blob.bytes.length ∨
        limits.maxFrameBytes.toNat - rawTotal < blob.bytes.length) "Worker bundle blob exceeds transfer limit"
    obtain ⟨⟨_, within, each⟩, effect⟩ :=
      (emits.unless (limits.maxFrameBytes.toNat < rawTotal) wrapError) out after bounded run
    refine ⟨List.forall_mem_cons.mpr ⟨?_, each⟩, ?_⟩
    · rw [UInt64.le_iff_toNat_le, same.2]
      omega
    · rw [List.flatMap_cons, specBytes, same.1, same.2]
      simpa only [List.append_assoc] using effect

/-- What the writer has checked of a bundle in a frame of version 2. -/
structure SharedFits (limits : Limits) (bundle : Bundle) (specs : List BlobSpec) : Prop where
  metadata : bundle.metadata.length ≤ limits.maxMetadataBytes.toNat
  count : specs.length ≤ limits.maxBlobs.toNat
  blobs : ∀ spec ∈ specs, spec.size ≤ limits.maxBlobBytes

theorem emits_bundle (described : List.Forall₂ Describes specs bundle.blobs) :
    Emits limits (Writer.bundle limits (some specs) bundle) (SharedFits limits bundle specs)
      (bundleHead bundle specs.length ++ specs.flatMap specBytes) := by
  have length := described.length_eq
  have counted : Emits limits (get >>= fun out => Writer.blobs limits out.size (bundle.blobs.zip (specs.map some)))
      (∀ spec ∈ specs, spec.size ≤ limits.maxBlobBytes) (specs.flatMap specBytes) :=
    fun out after bounded run => emits_blobs described out.size out after bounded run
  have emits := (((((counted.scalar 8 bundle.blobs.length).after (writes_bytes bundle.metadata)).scalar 8
    bundle.metadata.length).scalar 8 bundle.systemKey.toNat).scalar 4 bundle.version.toNat).unless
      (limits.maxMetadataBytes.toNat < bundle.metadata.length ∨ limits.maxBlobs.toNat < bundle.blobs.length)
      "Worker bundle metadata/object count exceeds transfer limit"
  intro out after bounded run
  have available : Writer.withSpecs bundle.blobs (some specs) = some (bundle.blobs.zip (specs.map some)) :=
    if_pos (Nat.le_of_eq length.symm)
  rw [Writer.bundle, available] at run
  obtain ⟨⟨within, each⟩, effect⟩ := emits out after bounded run
  refine ⟨⟨by omega, by omega, each⟩, ?_⟩
  simpa only [bundleHead, sizedBytes, length, List.append_assoc] using effect

/-- The payload of a message in a frame of version 2. -/
def sharedPayload (specs : List BlobSpec) : Message → Bytes
  | .task task => ticketBytes task.ticket ++ (bundleHead task.bundle specs.length ++ specs.flatMap specBytes)
  | .edge edge => edgeHead edge ++ (bundleHead edge.bundle specs.length ++ specs.flatMap specBytes)
  | _ => []

theorem emits_encode
    (carries : bundleOf message = some bundle) (described : List.Forall₂ Describes specs bundle.blobs) :
    Emits limits (encode limits (some specs) message) (SharedFits limits bundle specs) (sharedPayload specs message) := by
  cases message <;> cases carries
  · simp only [sharedPayload, ticketBytes, List.append_assoc]
    exact .scalar _ _ (.scalar _ _ (.scalar _ _ (.scalar _ _ (.scalar _ _ (emits_bundle described)))))
  · simp only [sharedPayload, edgeHead, List.append_assoc]
    exact .scalar _ _ (.scalar _ _ (.scalar _ _ (.scalar _ _ (.scalar _ _ (.scalar _ _ (.scalar _ _
      (.scalar _ _ (.scalar _ _ (.scalar _ _ (emits_bundle described))))))))))

end Emits

/-! ## Reading specifications -/

section Readers

variable {s t : Position}

/-- The position with more specifications found. -/
def Position.found (t : Position) (specs : List BlobSpec) : Position :=
  ({ t.1 with specs := t.1.specs ++ specs }, t.2)

theorem accepts_modify {change : Reader → Reader} {value : Unit} :
    Accepts (modify change) s value t ↔ t = (change s.1, s.2) := by
  rw [accepts_of_done () (change s.1) rfl]
  exact and_iff_right rfl

/-- Specifications whose total stays within the frame limit are read. The reader starts its total from the
metadata alone. -/
theorem accepts_sharedBlobs {total : ℕ} (start : total ≤ logical)
    (room : logical ≤ limits.maxFrameBytes.toNat)
    (fits : logicalFits limits logical specs = true) (each : ∀ spec ∈ specs, spec.size ≤ limits.maxBlobBytes)
    (spans : Spans (specs.flatMap specBytes) s t) :
    Accepts (Reader.sharedBlobs limits total specs.length) s () (t.found specs) := by
  induction specs generalizing total logical s t with
  | nil =>
    rw [List.flatMap_nil, spans_nil] at spans
    subst spans
    exact accepts_pure.mpr ⟨rfl, by simp [Position.found]⟩
  | cons spec rest ih =>
    rw [logicalFits, Bool.and_eq_true, decide_eq_true_eq] at fits
    rw [List.forall_mem_cons] at each
    rw [List.flatMap_cons] at spans
    obtain ⟨middle, specSpans, spans⟩ := exists_spans.mpr spans
    obtain ⟨afterKey, keySpans, specSpans⟩ := exists_spans.mpr specSpans
    obtain ⟨afterSize, sizeSpans, referenceSpans⟩ := exists_spans.mpr specSpans
    simp only [List.length_cons, Reader.sharedBlobs, accepts_bind, accepts_uint64, accepts_check, accepts_boolean,
      accepts_modify]
    have moved : Spans (rest.flatMap specBytes) (middle.found [spec]) (t.found [spec]) := by
      obtain ⟨word, reader⟩ := spans
      refine ⟨word, ?_⟩
      simp only [Position.found, reader]
    have last := ih (Nat.add_le_add_right start spec.size.toNat) (by omega) fits.2 each.2 moved
    have same : (t.found [spec]).found rest = t.found (spec :: rest) := by simp [Position.found]
    rw [same] at last
    exact ⟨spec.key, afterKey, keySpans, spec.size, afterSize, sizeSpans, (), afterSize,
      ⟨start.trans room, rfl⟩, (), afterSize, ⟨⟨each.1, by omega⟩, rfl⟩, spec.reference, middle, referenceSpans, (), _,
      rfl, last⟩

theorem accepts_bundle_shared
    (start : bundle.metadata.length ≤ logical) (room : logical ≤ limits.maxFrameBytes.toNat)
    (logically : logicalFits limits logical specs = true)
    (fits : SharedFits limits bundle specs) (small : specs.length ≤ sizeMax / Reader.sizeofBlob)
    (spans : Spans (bundleHead bundle specs.length ++ specs.flatMap specBytes) s t) :
    Accepts (Reader.bundle limits true) s { bundle with blobs := [] } (t.found specs) := by
  simp only [Reader.bundle, accepts_bind, accepts_scalar (show 4 ≤ sizeMax by decide),
    accepts_scalar (show 8 ≤ sizeMax by decide), accepts_uint64, accepts_sized, accepts_get, accepts_check,
    accepts_pure, if_true]
  obtain ⟨counted, headSpans, spans⟩ := exists_spans.mpr spans
  obtain ⟨afterVersion, versionSpans, headSpans⟩ := exists_spans.mpr headSpans
  obtain ⟨afterKey, keySpans, headSpans⟩ := exists_spans.mpr headSpans
  obtain ⟨afterMetadata, metadataSpans, countSpans⟩ := exists_spans.mpr headSpans
  have left : counted.1.remaining = (specs.flatMap specBytes).length + t.1.remaining := congrArg Reader.remaining spans.2
  rw [length_flatMap_specBytes] at left
  have bound := limits.maxBlobs.toNat_lt
  have few := fits.count
  exact ⟨bundle.version.toNat, afterVersion, ⟨bundle.version.toNat_lt, versionSpans⟩, bundle.systemKey, afterKey,
    keySpans, bundle.metadata, afterMetadata, ⟨fits.metadata, metadataSpans⟩, specs.length, counted,
    ⟨by omega, countSpans⟩, counted.1, counted, ⟨rfl, rfl⟩, (), counted, ⟨⟨few, by omega, small⟩, rfl⟩,
    (), _, accepts_sharedBlobs start room logically fits.blobs spans, by simp, rfl⟩

theorem accepts_shared
    (carries : bundleOf message = some bundle) (representable : Representable message)
    (start : bundle.metadata.length ≤ logical) (room : logical ≤ limits.maxFrameBytes.toNat)
    (logically : logicalFits limits logical specs = true)
    (fits : SharedFits limits bundle specs) (count : specs.length = bundle.blobs.length)
    (spans : Spans (sharedPayload specs message) s t) :
    Accepts (decode limits true (messageType message)) s (withBlobs [] message) (t.found specs) := by
  cases message <;> cases carries
  · next task =>
    obtain ⟨middle, head, spans⟩ := exists_spans.mpr spans
    refine (accepts_task limits).mpr ⟨{ task with bundle := { task.bundle with blobs := [] } }, middle, rfl, head, ?_⟩
    exact accepts_bundle_shared start room logically fits (count.trans_le representable) spans
  · next edge =>
    obtain ⟨middle, head, spans⟩ := exists_spans.mpr spans
    obtain ⟨range, small⟩ := representable
    refine (accepts_edge limits).mpr ⟨{ edge with bundle := { edge.bundle with blobs := [] } }, middle, rfl,
      ⟨range.process, range.thread, range.choice, range.choiceCount⟩, head, ?_⟩
    exact accepts_bundle_shared start room logically fits (count.trans_le small) spans

end Readers

/-! ## Frames -/

/-- What the object channels have to do for a message. The receiver has confirmed the bundle before it. For
a frame of version 2 the plan describes the blobs of the bundle, and the receiver's channel returns them. -/
structure Transfer.Honest (transfer : Transfer) : Prop where
  confirmed : ∀ objects ∈ transfer.objects, objects.pending = false
  delivered : ∀ specs ∈ transfer.plan, ∃ bundle, bundleOf transfer.message = some bundle ∧
    List.Forall₂ Describes specs bundle.blobs ∧
      ∃ objects, transfer.objects = some objects ∧ objects.receive specs = .ok bundle.blobs

/-- The loop over the specifications starts within the limit and stays there. -/
theorem logicalWraps_eq_false (room : logical ≤ limits.maxFrameBytes.toNat) (specs : List BlobSpec) :
    logicalWraps limits logical specs = false := by
  induction specs generalizing logical with
  | nil => rfl
  | cons spec rest ih =>
    rw [logicalWraps, decide_eq_false (Nat.not_lt.mpr room), Bool.false_or, Bool.and_eq_false_iff, decide_eq_false_iff_not]
    by_cases fits : spec.size.toNat ≤ limits.maxFrameBytes.toNat - logical
    · exact .inr (ih (by omega))
    · exact .inl fits

theorem withBlobs_withBlobs (carries : bundleOf message = some bundle) :
    withBlobs bundle.blobs (withBlobs [] message) = message := by
  cases message <;> cases carries <;> rfl

theorem messageType_of_bundle (carries : bundleOf message = some bundle) :
    messageType message = .task ∨ messageType message = .edge := by
  cases message <;> cases carries
  · exact .inl rfl
  · exact .inr rfl

theorem metadata_le_sharedPayload
    (carries : bundleOf message = some bundle) : bundle.metadata.length ≤ (sharedPayload specs message).length := by
  cases message <;> cases carries <;> simp only [sharedPayload, bundleHead, sizedBytes, List.length_append] <;> omega

/-- What a frame's header makes the receiver do. -/
theorem frameProgram_eq {shared : Bool} {type : MessageType} {size : ℕ} (objects : Option ObjectChannel)
    (room : size ≤ limits.maxFrameBytes.toNat) :
    frameProgram limits objects (header shared type size) =
      if shared = true ∧ (objects.isNone = true ∨ type ≠ .task ∧ type ≠ .edge) then
        .fail "Shared worker frame requires object channel and bundle message"
      else if objects.any (·.pending) = true then .fail "Previous shared worker bundle was not confirmed"
      else decodePayload limits shared type size >>= fun decoded =>
        if shared then fetchBlobs limits objects size decoded.2 decoded.1 else return decoded.1 := by
  have bound := limits.maxFrameBytes.toNat_lt
  obtain ⟨magicField, versionField, typeField, sizeField⟩ := header_fields shared type size (by omega)
  have version : decide ((if shared then 2 else 1) = 2) = shared := by cases shared <;> rfl
  have known : ¬(magic ≠ magic ∨ (if shared then 2 else 1) ≠ 1 ∧ (if shared then 2 else 1) ≠ 2) := by
    cases shared <;> decide
  rw [frameProgram]
  simp only [magicField, versionField, typeField, sizeField, version, known, ofNat?_toNat, Nat.not_lt.mpr room, if_false]

/-- A frame's header makes the receiver decode its payload, and fetch the blobs in version 2. -/
theorem frameProgram_header {shared : Bool} {type : MessageType} {size : ℕ} {objects : Option ObjectChannel}
    (room : size ≤ limits.maxFrameBytes.toNat) (confirmed : ∀ channel ∈ objects, channel.pending = false)
    (bundled : shared = true → objects.isSome = true ∧ (type = .task ∨ type = .edge)) :
    frameProgram limits objects (header shared type size) = decodePayload limits shared type size >>= fun decoded =>
      if shared then fetchBlobs limits objects size decoded.2 decoded.1 else return decoded.1 := by
  have allowed : ¬(shared = true ∧ (objects.isNone = true ∨ type ≠ .task ∧ type ≠ .edge)) := by
    rintro ⟨isShared, none | other⟩
    · simp_all
    · rcases (bundled isShared).2 with same | same
      · exact other.1 same
      · exact other.2 same
  have free : objects.any (·.pending) = false := by
    cases objects with
    | none => rfl
    | some channel => exact confirmed channel rfl
  rw [frameProgram_eq objects room, if_neg allowed, if_neg (by simp [free])]

/-- The plan of a frame of version 2 describes the blobs of its bundle. -/
def Planned (plan : Option (List BlobSpec)) (message : Message) : Prop :=
  ∀ specs ∈ plan, ∃ bundle, bundleOf message = some bundle ∧ List.Forall₂ Describes specs bundle.blobs

/-- What the sender has checked of a message with this payload. -/
def Sent (limits : Limits) (message : Message) (body : Bytes) : Option (List BlobSpec) → Prop
  | none => body = payload message ∧ Writable limits message
  | some specs => body = sharedPayload specs message ∧ logicalFits limits body.length specs = true ∧
      ∀ bundle, bundleOf message = some bundle → SharedFits limits bundle specs

/-- The bytes the sender writes for a message: a header and the payload. -/
theorem frame_sent {plan : Option (List BlobSpec)} {pieces : List Bytes}
    (planned : Planned plan message) (framed : frame limits plan message = .ok pieces) :
    ∃ body, pieces.flatten = header plan.isSome (messageType message) body.length ++ body ∧
      body.length ≤ limits.maxFrameBytes.toNat ∧ Sent limits message body plan := by
  obtain ⟨⟨_, measure⟩, encoded, framed⟩ := bind_eq_ok.mp framed
  dsimp only at framed
  split_ifs at framed with wraps logically
  cases framed
  rw [Bool.not_eq_true, Bool.not_eq_false'] at logically
  cases plan with
  | none =>
    have writes : Writes limits 0 _ _ _ := writes_encode message
    obtain ⟨fits, room⟩ := (writes.accepts {} (Nat.le_refl 0) (Nat.zero_le _)).mp ⟨measure, encoded⟩
    obtain ⟨size, output⟩ := writes.effect {} measure encoded
    rw [Nat.zero_add] at room size
    rw [List.flatten_nil, List.nil_append] at output
    exact ⟨payload message, by rw [List.flatten_cons, size, output], room, rfl, fits⟩
  | some specs =>
    obtain ⟨bundle, carries, described⟩ := planned specs rfl
    obtain ⟨fits, room, size, output⟩ := emits_encode carries described {} measure (Nat.zero_le _) encoded
    rw [Nat.zero_add] at room size
    rw [List.flatten_nil, List.nil_append] at output
    rw [size, Option.getD_some] at logically
    refine ⟨sharedPayload specs message, by rw [List.flatten_cons, size, output], room, rfl, logically, ?_⟩
    rw [carries]
    rintro _ ⟨⟩
    exact fits

/-- The receiver decodes what the sender has checked; in version 2 the blobs are missing and their
specifications are found. -/
theorem decodePayload_sent {plan : Option (List BlobSpec)} {body : Bytes}
    (representable : Representable message) (planned : Planned plan message)
    (room : body.length ≤ limits.maxFrameBytes.toNat) (sent : Sent limits message body plan) (rest : Bytes) :
    (decodePayload limits plan.isSome (messageType message) body.length).run truncatedError (body ++ rest) =
      .ok ((if plan.isSome then withBlobs [] message else message, plan.getD []), rest) := by
  cases plan with
  | none =>
    obtain ⟨rfl, fits⟩ := sent
    exact decodePayload_eq_ok.mpr ⟨rfl, readable_iff.mpr ⟨fits, representable⟩, rfl, rfl⟩
  | some specs =>
    obtain ⟨rfl, logically, fits⟩ := sent
    obtain ⟨bundle, carries, described⟩ := planned specs rfl
    have spans : Spans (sharedPayload specs message)
        ({ remaining := (sharedPayload specs message).length }, sharedPayload specs message ++ rest)
        ({ remaining := 0 }, rest) := ⟨rfl, rfl⟩
    have accepted := accepts_shared carries representable (metadata_le_sharedPayload carries) room logically
      (fits bundle carries) described.length_eq spans
    rw [decodePayload, ReadProgram.run_bind, bind_eq_ok]
    exact ⟨_, accepted, rfl⟩

/-- The bytes the sender writes for a message, after the header, and what the receiver's program makes of
them. -/
theorem frame_eq_ok {transfer : Transfer} {pieces : List Bytes} (representable : Representable transfer.message)
    (honest : transfer.Honest) (framed : frame limits transfer.plan transfer.message = .ok pieces) :
    ∃ body, pieces.flatten = header transfer.plan.isSome (messageType transfer.message) body.length ++ body ∧
      ∀ rest, (frameProgram limits transfer.objects
          (header transfer.plan.isSome (messageType transfer.message) body.length)).run truncatedError (body ++ rest) =
            .ok (transfer.message, rest) := by
  have planned : Planned transfer.plan transfer.message := fun specs mem =>
    (honest.delivered specs mem).imp fun _ given => ⟨given.1, given.2.1⟩
  obtain ⟨body, written, room, sent⟩ := frame_sent planned framed
  refine ⟨body, written, fun rest => ?_⟩
  have decoded := decodePayload_sent representable planned room sent rest
  cases plan : transfer.plan with
  | none =>
    rw [plan] at decoded
    rw [frameProgram_header room honest.confirmed (by simp), ReadProgram.run_bind, bind_eq_ok]
    exact ⟨_, decoded, rfl⟩
  | some specs =>
    obtain ⟨bundle, carries, described, objects, provided, received⟩ := honest.delivered specs plan
    rw [plan] at decoded sent
    obtain ⟨-, logically, -⟩ := sent
    rw [frameProgram_header room honest.confirmed fun _ => ⟨by simp [provided], messageType_of_bundle carries⟩,
      ReadProgram.run_bind, bind_eq_ok]
    refine ⟨_, decoded, ?_⟩
    simp only [Option.isSome_some, if_true, Option.getD_some, fetchBlobs, provided, logicalWraps_eq_false room,
      logically, received, Bool.not_true, Bool.false_eq_true, if_false, withBlobs_withBlobs carries]
    rfl

end DetSim.Search.Wire
