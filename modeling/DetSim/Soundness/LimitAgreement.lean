import DetSim.Soundness.FrameCodec

/-! # Sender and receiver agree on the limits

A frame whose sender has passed its checks is refused by a receiver with the same limits only for what the
limits do not decide: an integer of an edge that the format has no room for, a missing object channel, a bundle
that is still to be confirmed, or the transfer of the objects itself. And whatever a receiver is given, no total
exceeds the frame limit that it is subtracted from.
-/

namespace DetSim.Search.Wire

open Kernel (Bytes)
open Packed (natOfBytes)
open Except (bind_eq_ok)

variable {limits : Limits} {specs : List BlobSpec} {condition : Prop} {message : String} {total : ℕ}

/-! ## How a reader stops -/

/-- The reader throws at this position. -/
def Stops {α : Type} (reader : ReaderM α) (s : Position) (reason : String) : Prop :=
  (reader s.1).run truncatedError s.2 = .error reason

section Stops

variable {α β : Type} {s t : Position} {reason : String}

theorem stops_bind {reader : ReaderM α} {next : α → ReaderM β} :
    Stops (reader >>= next) s reason ↔
      Stops reader s reason ∨ ∃ first middle, Accepts reader s first middle ∧ Stops (next first) middle reason := by
  unfold Stops Accepts
  change ((reader s.1 >>= fun result => next result.1 result.2).run _ _) = _ ↔ _
  rw [ReadProgram.run_bind]
  have same : truncatedError = "Truncated worker protocol frame" := rfl
  rw [same]
  cases run : (reader s.1).run "Truncated worker protocol frame" s.2 with
  | error other => simp [bind, Except.bind]
  | ok result =>
    obtain ⟨⟨first, state⟩, word⟩ := result
    simp only [bind, Except.bind, reduceCtorEq, false_or, Except.ok.injEq, Prod.mk.injEq]
    constructor
    · exact fun stops => ⟨first, (state, word), ⟨⟨rfl, rfl⟩, rfl⟩, stops⟩
    · rintro ⟨_, ⟨_, _⟩, ⟨⟨rfl, rfl⟩, rfl⟩, stops⟩
      exact stops

theorem stops_pure {value : α} : Stops (pure value) s reason ↔ False := by
  simp [Stops, pure, StateT.pure, ReadProgram.run]

theorem stops_get : Stops get s reason ↔ False := by
  simp [Stops, get, getThe, MonadStateOf.get, StateT.get, pure, ReadProgram.run]

theorem stops_modify {change : Reader → Reader} : Stops (modify change) s reason ↔ False := by
  simp [Stops, modify, modifyGet, MonadStateOf.modifyGet, StateT.modifyGet, pure, ReadProgram.run]

theorem stops_check [Decidable condition] :
    Stops (Reader.check condition message) s reason ↔ ¬condition ∧ reason = message := by
  by_cases holds : condition <;> simp [Stops, Reader.check, holds, ReadProgram.run, eq_comm]

/-- Past what is accepted, the reader stops with some listed reason. -/
theorem stops_after {reader : ReaderM α} {next : α → ReaderM β} {value : α} {middle : Position} {reasons : List String}
    (accepted : Accepts reader s value middle) (stops : ∃ reason ∈ reasons, Stops (next value) middle reason) :
    ∃ reason ∈ reasons, Stops (reader >>= next) s reason :=
  stops.imp fun _ stops => ⟨stops.1, stops_bind.mpr (.inr ⟨value, middle, accepted, stops.2⟩)⟩

/-- A check stops with its message, or the reader goes on. -/
theorem stops_at_check [Decidable condition] {next : Unit → ReaderM β}
    {reasons : List String} (listed : message ∈ reasons)
    (stops : condition → ∃ reason ∈ reasons, Stops (next ()) s reason) :
    ∃ reason ∈ reasons, Stops (Reader.check condition message >>= next) s reason := by
  by_cases holds : condition
  · exact stops_after (accepts_check.mpr ⟨holds, rfl⟩) (stops holds)
  · exact ⟨message, listed, stops_bind.mpr (.inl (stops_check.mpr ⟨holds, rfl⟩))⟩

end Stops

/-! ## No subtraction wraps -/

/-- With a payload within the frame limit left, the reader meets no subtraction that wraps. -/
structure Unwrapped {α : Type} (limits : Limits) (reader : ReaderM α) : Prop where
  clean : ∀ s : Position, s.1.remaining ≤ limits.maxFrameBytes.toNat → ¬Stops reader s wrapError
  left : ∀ (s : Position) value t, s.1.remaining ≤ limits.maxFrameBytes.toNat → Accepts reader s value t →
    t.1.remaining ≤ limits.maxFrameBytes.toNat

namespace Unwrapped

variable {α β : Type}

theorem bind_of {reader : ReaderM α} {next : α → ReaderM β} (first : Unwrapped limits reader)
    (second : ∀ value s t, s.1.remaining ≤ limits.maxFrameBytes.toNat → Accepts reader s value t →
      Unwrapped limits (next value)) : Unwrapped limits (reader >>= next) := by
  constructor
  · intro s room stops
    obtain stops | ⟨value, middle, accepted, stops⟩ := stops_bind.mp stops
    · exact first.clean s room stops
    · exact (second value s middle room accepted).clean middle (first.left s value middle room accepted) stops
  · intro s value t room accepted
    obtain ⟨found, middle, read, accepted⟩ := accepts_bind.mp accepted
    exact (second found s middle room read).left middle value t (first.left s found middle room read) accepted

theorem bind {reader : ReaderM α} {next : α → ReaderM β} (first : Unwrapped limits reader)
    (second : ∀ value, Unwrapped limits (next value)) : Unwrapped limits (reader >>= next) :=
  first.bind_of fun value _ _ _ _ => second value

theorem pure (value : α) : Unwrapped limits (pure value : ReaderM α) := by
  refine ⟨fun _ _ stops => stops_pure.mp stops, fun s _ t room accepted => ?_⟩
  rwa [(accepts_pure.mp accepted).2]

theorem get : Unwrapped limits (get : ReaderM Reader) := by
  refine ⟨fun _ _ stops => stops_get.mp stops, fun s _ t room accepted => ?_⟩
  rwa [(accepts_get.mp accepted).2]

theorem check [Decidable condition] (other : condition ∨ wrapError ≠ message) :
    Unwrapped limits (Reader.check condition message) := by
  refine ⟨fun _ _ stops => ?_, fun s _ t room accepted => ?_⟩
  · obtain ⟨fails, same⟩ := stops_check.mp stops
    exact other.elim fails fun different => different same
  · rwa [(accepts_check.mp accepted).2]

theorem found (spec : BlobSpec) :
    Unwrapped limits (modify fun reader => { reader with specs := reader.specs ++ [spec] }) := by
  refine ⟨fun _ _ stops => stops_modify.mp stops, fun s _ t room accepted => ?_⟩
  rwa [accepts_modify.mp accepted]

theorem bytes (length : ℕ) : Unwrapped limits (Reader.bytes length) := by
  constructor
  · intro s _ stops
    unfold Stops Reader.bytes at stops
    split_ifs at stops
    · simp [ReadProgram.run, wrapError] at stops
    · simp [ReadProgram.run] at stops
    · simp only [ReadProgram.run] at stops
      split_ifs at stops
      simp [truncatedError, wrapError] at stops
  · intro s data t room accepted
    obtain ⟨-, -, -, reader⟩ := accepts_bytes.mp accepted
    have total : s.1.remaining = data.length + t.1.remaining := congrArg Reader.remaining reader
    omega

theorem scalar (width : ℕ) : Unwrapped limits (Reader.scalar width) := (bytes width).bind fun _ => .pure _

theorem uint64 : Unwrapped limits Reader.uint64 := (scalar 8).bind fun _ => .pure _

theorem boolean : Unwrapped limits Reader.boolean :=
  (scalar 1).bind fun _ => (check (.inr (by decide))).bind fun _ => .pure _

theorem sized (limit : UInt64) : Unwrapped limits (Reader.sized limit) :=
  ((scalar 8).bind fun _ => get.bind fun _ => (check (.inr (by decide))).bind fun _ => .pure _).bind fun _ => bytes _

theorem blobs (count : ℕ) : Unwrapped limits (Reader.blobs limits count) := by
  induction count with
  | zero => exact .pure _
  | succ count ih => exact uint64.bind fun _ => (sized _).bind fun _ => ih.bind fun _ => .pure _

/-- Every check leaves the total of the specifications within the limit. -/
theorem sharedBlobs (room : total ≤ limits.maxFrameBytes.toNat) (count : ℕ) :
    Unwrapped limits (Reader.sharedBlobs limits total count) := by
  induction count generalizing total with
  | zero => exact .pure _
  | succ count ih =>
    refine uint64.bind fun _ => uint64.bind fun size => (check (.inl room)).bind fun _ => ?_
    refine (check (.inr (by decide))).bind_of fun _ s t _ accepted => ?_
    obtain ⟨⟨-, fits⟩, -⟩ := accepts_check.mp accepted
    exact boolean.bind fun _ => (found _).bind fun _ => ih (by omega)

theorem bundle (shared : Bool) : Unwrapped limits (Reader.bundle limits shared) := by
  refine (scalar 4).bind fun _ => uint64.bind fun _ => (sized _).bind_of fun metadata s t room accepted => ?_
  have small : metadata.length ≤ limits.maxFrameBytes.toNat := by
    obtain ⟨-, -, reader⟩ := accepts_sized.mp accepted
    have total : s.1.remaining = (sizedBytes metadata).length + t.1.remaining := congrArg Reader.remaining reader
    rw [sizedBytes, List.length_append] at total
    omega
  refine (scalar 8).bind fun count => get.bind fun _ => (check (.inr (by decide))).bind fun _ => ?_
  cases shared with
  | false => exact (blobs _).bind fun _ => .pure _
  | true => exact (sharedBlobs small count).bind fun _ => .pure _

theorem decode (shared : Bool) (type : MessageType) : Unwrapped limits (decode limits shared type) := by
  cases type with
  | hello => exact (sized _).bind fun _ => (sized _).bind fun _ => .pure _
  | task =>
    exact uint64.bind fun _ => uint64.bind fun _ => uint64.bind fun _ => uint64.bind fun _ => boolean.bind fun _ =>
      (bundle shared).bind fun _ => .pure _
  | edge =>
    exact uint64.bind fun _ => uint64.bind fun _ => uint64.bind fun _ => (scalar 4).bind fun _ =>
      (scalar 4).bind fun _ => (check (.inr (by decide))).bind fun _ => (scalar 1).bind fun _ =>
      (check (.inr (by decide))).bind fun _ => (scalar 4).bind fun _ => (check (.inr (by decide))).bind fun _ => (scalar 4).bind fun _ =>
      (check (.inr (by decide))).bind fun _ => boolean.bind fun _ => (scalar 1).bind fun _ =>
      (check (.inr (by decide))).bind fun _ => (bundle shared).bind fun _ => .pure _
  | done =>
    exact uint64.bind fun _ => uint64.bind fun _ => (scalar 1).bind fun _ => (check (.inr (by decide))).bind fun _ =>
      (scalar 8).bind fun _ => .pure _
  | error => exact uint64.bind fun _ => uint64.bind fun _ => (sized _).bind fun _ => .pure _
  | shutdown => exact .pure _

end Unwrapped

theorem receiveBound_ne_wrap (room : total ≤ limits.maxFrameBytes.toNat) (specs : List BlobSpec) :
    receiveBound limits total specs ≠ .error wrapError := by
  induction specs generalizing total with
  | nil => simp [receiveBound]
  | cons spec rest ih =>
    rw [receiveBound, if_neg (Nat.not_lt.mpr room)]
    split_ifs with exceeds
    · simp [wrapError]
    · rw [not_or, Nat.not_lt] at exceeds
      exact ih (by omega)

/-- An object channel throws this only if its transport does, beyond the limits. -/
theorem bounded_receive_wrap {channel : ObjectChannel}
    (thrown : (channel.bounded limits).receive specs = .error wrapError) :
    channel.receive specs = .error wrapError := by
  simp only [ObjectChannel.bounded] at thrown
  split_ifs at thrown
  · simp [bind, Except.bind, wrapError] at thrown
  · cases bound : receiveBound limits 0 specs with
    | error reason =>
      simp only [bound, bind, Except.bind, Except.error.injEq] at thrown
      subst thrown
      exact absurd bound (receiveBound_ne_wrap (Nat.zero_le _) specs)
    | ok _ => simpa [bound, bind, Except.bind] using thrown

theorem decodePayload_ne_wrap (shared : Bool) (type : MessageType) {size : ℕ}
    (room : size ≤ limits.maxFrameBytes.toNat) (word : Bytes) :
    (decodePayload limits shared type size).run truncatedError word ≠ .error wrapError := by
  rw [decodePayload, ReadProgram.run_bind]
  have unwrapped : Unwrapped limits (decode limits shared type) := .decode shared type
  have clean := unwrapped.clean ({ remaining := size }, word) room
  unfold Stops at clean
  cases run : (decode limits shared type { remaining := size }).run truncatedError word with
  | error reason =>
    rw [run] at clean
    change (ReadProgram.run truncatedError (decode limits shared type { remaining := size }) word >>= _) ≠ _
    rw [run]
    simpa [bind, Except.bind] using clean
  | ok result =>
    change (ReadProgram.run truncatedError (decode limits shared type { remaining := size }) word >>= _) ≠ _
    rw [run]
    simp only [bind, Except.bind]
    split_ifs
    · simp [ReadProgram.run, wrapError]
    · simp [ReadProgram.run, pure]

/-- Whatever a receiver is given, no total of its own exceeds the limit it is subtracted from. -/
theorem frameProgram_wrap {objects : Option ObjectChannel} {head word : Bytes}
    (thrown : (frameProgram limits (objects.map (·.bounded limits)) head).run truncatedError word = .error wrapError) :
    ∃ channel specs, objects = some channel ∧ channel.receive specs = .error wrapError := by
  unfold frameProgram at thrown
  dsimp only at thrown
  split at thrown
  · simp [ReadProgram.run, wrapError] at thrown
  split at thrown
  · simp [ReadProgram.run, wrapError] at thrown
  rename_i type _
  split at thrown
  · simp [ReadProgram.run, wrapError] at thrown
  next large =>
  have room := Nat.not_lt.mp large
  split at thrown
  · simp [ReadProgram.run, wrapError] at thrown
  split at thrown
  · simp [ReadProgram.run, wrapError] at thrown
  rw [ReadProgram.run_bind] at thrown
  have clean := decodePayload_ne_wrap (decide (natOfBytes ((head.drop 4).take 2) = 2)) type room word
  cases run : (decodePayload limits (decide (natOfBytes ((head.drop 4).take 2) = 2)) type
      (natOfBytes ((head.drop 8).take 8))).run truncatedError word with
  | error reason =>
    rw [run] at thrown clean
    exact absurd (congrArg Except.error (Except.error.inj thrown)) clean
  | ok decoded =>
    rw [run] at thrown
    simp only [bind, Except.bind] at thrown
    split at thrown
    · unfold fetchBlobs at thrown
      cases objects with
      | none => simp [ReadProgram.run, pure] at thrown
      | some channel =>
        simp only [Option.map_some, logicalWraps_eq_false room, Bool.false_eq_true, if_false] at thrown
        split at thrown
        · simp [ReadProgram.run, wrapError] at thrown
        · split at thrown
          · rename_i reason received
            simp only [ReadProgram.run, Except.error.injEq] at thrown
            subst thrown
            exact ⟨channel, _, rfl, bounded_receive_wrap received⟩
          · simp [ReadProgram.run, pure] at thrown
    · simp [ReadProgram.run, pure] at thrown

/-! ## The sender -/

/-- Within the frame limit an action of the writer meets no subtraction that wraps, and stays within it. -/
structure Counted (limits : Limits) (action : WriterM Unit) : Prop where
  clean : ∀ out : Writer, out.size ≤ limits.maxFrameBytes.toNat → action out ≠ .error wrapError
  within : ∀ out after : Writer, out.size ≤ limits.maxFrameBytes.toNat → action out = .ok ((), after) →
    after.size ≤ limits.maxFrameBytes.toNat

namespace Counted

variable {first action : WriterM Unit}

theorem bind (counted : Counted limits first) (next : Counted limits action) :
    Counted limits (first >>= fun _ => action) := by
  constructor
  · intro out room thrown
    change (first out >>= fun result => action result.2) = _ at thrown
    cases run : first out with
    | error reason =>
      rw [run] at thrown
      exact counted.clean out room (run.trans thrown)
    | ok result =>
      obtain ⟨_, middle⟩ := result
      rw [run] at thrown
      exact next.clean middle (counted.within out middle room run) thrown
  · intro out after room run
    obtain ⟨_, middle, head, tail⟩ := writer_bind_eq_ok.mp run
    exact next.within middle after (counted.within out middle room head) tail

theorem pure : Counted limits (pure () : WriterM Unit) := by
  refine ⟨fun _ _ => ?_, fun out after room run => ?_⟩
  · simp [Pure.pure, StateT.pure, Except.pure]
  · cases run
    exact room

/-- A check in front; what follows may rely on it. -/
theorem guarded [Decidable condition] (other : wrapError ≠ message ∨ ¬condition)
    (counted : ¬condition → Counted limits action) :
    Counted limits (if condition then Writer.fail message >>= fun _ : Unit => action else action) := by
  split_ifs with holds
  · have different := other.resolve_right (not_not.mpr holds)
    exact ⟨fun _ _ thrown => different (Except.error.inj thrown).symm, fun _ _ _ run => by cases run⟩
  · exact counted holds

theorem bytes (data : Bytes) : Counted limits (Writer.bytes limits data) := by
  constructor
  · intro out room
    rw [Writer.bytes, if_neg (Nat.not_lt.mpr room)]
    split_ifs <;> simp [wrapError]
  · intro out after room run
    rw [Writer.bytes, if_neg (Nat.not_lt.mpr room)] at run
    split at run
    · cases run
    · next exceeds =>
      cases run
      rw [not_or, Nat.not_lt] at exceeds
      change out.size + data.length ≤ _
      omega

theorem scalar (width value : ℕ) : Counted limits (Writer.scalar limits width value) := bytes _

theorem text (data : Bytes) : Counted limits (Writer.text limits data) :=
  guarded (.inl (by decide)) fun _ => (scalar 8 _).bind (bytes _)

theorem blobs {rawTotal : ℕ} (room : rawTotal ≤ limits.maxFrameBytes.toNat) (list : List (Blob × Option BlobSpec)) :
    Counted limits (Writer.blobs limits rawTotal list) := by
  induction list generalizing rawTotal with
  | nil => exact .pure
  | cons pair rest ih =>
    obtain ⟨blob, spec⟩ := pair
    refine guarded (.inr (Nat.not_lt.mpr room)) fun _ => guarded (.inl (by decide)) fun fits => ?_
    rw [not_or, Nat.not_lt, Nat.not_lt] at fits
    have later : Counted limits (Writer.blobs limits (rawTotal + blob.bytes.length) rest) := ih (by omega)
    refine (scalar 8 _).bind ((scalar 8 _).bind ?_)
    cases spec with
    | none => exact (bytes _).bind later
    | some spec => exact (scalar 1 _).bind later

theorem bundle (specs : Option (List BlobSpec)) (bundle : Bundle) :
    Counted limits (Writer.bundle limits specs bundle) := by
  refine guarded (.inl (by decide)) fun _ =>
    (scalar 4 _).bind ((scalar 8 _).bind ((scalar 8 _).bind ((bytes _).bind ((scalar 8 _).bind ?_))))
  cases Writer.withSpecs bundle.blobs specs with
  | none =>
    refine ⟨fun _ _ thrown => ?_, fun _ _ _ run => by cases run⟩
    exact absurd (Except.error.inj thrown) (by decide)
  | some list =>
    exact ⟨fun out room => (blobs room list).clean out room,
      fun out after room => (blobs room list).within out after room⟩

theorem encode (specs : Option (List BlobSpec)) (message : Message) : Counted limits (encode limits specs message) := by
  cases message with
  | hello hello => exact (text _).bind (text _)
  | task task =>
    exact (scalar 8 _).bind ((scalar 8 _).bind ((scalar 8 _).bind ((scalar 8 _).bind ((scalar 1 _).bind
      (bundle specs _)))))
  | edge edge =>
    exact (scalar 8 _).bind ((scalar 8 _).bind ((scalar 8 _).bind ((scalar 4 _).bind ((scalar 4 _).bind
      ((scalar 1 _).bind ((scalar 4 _).bind ((scalar 4 _).bind ((scalar 1 _).bind ((scalar 1 _).bind
        (bundle specs _))))))))))
  | done done => exact (scalar 8 _).bind ((scalar 8 _).bind ((scalar 1 _).bind (scalar 8 _)))
  | error error => exact (scalar 8 _).bind ((scalar 8 _).bind (text _))
  | shutdown => exact .pure

end Counted

theorem frame_ne_wrap (plan : Option (List BlobSpec)) (message : Message) :
    frame limits plan message ≠ .error wrapError := by
  intro thrown
  have counted : Counted limits (encode limits plan message) := .encode plan message
  rw [frame] at thrown
  cases run : (encode limits plan message).run {} with
  | error reason =>
    rw [run] at thrown
    have same : reason = wrapError := Except.error.inj thrown
    exact counted.clean {} (Nat.zero_le _) (run.trans (congrArg Except.error same))
  | ok result =>
    obtain ⟨_, measure⟩ := result
    have room := counted.within {} measure (Nat.zero_le _) run
    rw [run] at thrown
    simp only [bind, Except.bind, logicalWraps_eq_false room, Bool.false_eq_true, if_false] at thrown
    split at thrown
    · simp [wrapError] at thrown
    · simp [pure, Except.pure] at thrown

/-! ## What the receiver makes of a frame that was sent -/

theorem little_mod (width value : ℕ) : little width (value % 256 ^ width) = little width value := by
  unfold little
  induction width generalizing value with
  | zero => rfl
  | succ width ih =>
    have low : UInt8.ofNat (value % 256 ^ (width + 1)) = UInt8.ofNat value := by
      rw [← UInt8.toNat_inj, UInt8.toNat_ofNat', UInt8.toNat_ofNat', pow_succ, Nat.mul_comm,
        show 2 ^ 8 = 256 from rfl, Nat.mod_mul_right_mod]
    have high : value % 256 ^ (width + 1) / 256 = value / 256 % 256 ^ width := by
      rw [pow_succ, Nat.mul_comm, Nat.mod_mul_right_div_self]
    rw [Codec.natBytes, Codec.natBytes, low, high, ih]

/-- The message that the bytes on the wire stand for: its integers cut to the width of their fields. -/
def wireMessage : Message → Message
  | .edge edge => .edge { edge with
      actor := ⟨edge.actor.process % 2 ^ 32, edge.actor.thread % 2 ^ 32, edge.actor.action⟩
      choice := edge.choice.bmod (2 ^ 32)
      choiceCount := edge.choiceCount % 2 ^ 32 }
  | .done done => .done { done with emitted := done.emitted % 2 ^ 64 }
  | message => message

theorem choiceBits_bmod (choice : ℤ) : choiceBits (choice.bmod (2 ^ 32)) = choiceBits choice := by
  unfold choiceBits
  rw [show ((2 : ℤ) ^ 32) = ((2 ^ 32 : ℕ) : ℤ) by norm_num, Int.bmod_emod]

theorem encode_wireMessage (specs : Option (List BlobSpec)) (message : Message) :
    encode limits specs (wireMessage message) = encode limits specs message := by
  have four (value : ℕ) : little 4 (value % 2 ^ 32) = little 4 value := little_mod 4 value
  have eight (value : ℕ) : little 8 (value % 2 ^ 64) = little 8 value := little_mod 8 value
  cases message with
  | edge edge => simp only [wireMessage, encode, Writer.scalar, four, choiceBits_bmod]
  | done done => simp only [wireMessage, encode, Writer.scalar, eight]
  | hello hello => rfl
  | task task => rfl
  | error error => rfl
  | shutdown => rfl

theorem frame_wireMessage (plan : Option (List BlobSpec)) (message : Message) :
    frame limits plan (wireMessage message) = frame limits plan message := by
  have type : messageType (wireMessage message) = messageType message := by cases message <;> rfl
  rw [frame, frame, encode_wireMessage, type]

/-- The errors for an edge whose integers the format has no room for. -/
def fieldErrors : List String :=
  ["Invalid worker protocol actor", "Invalid worker protocol choice", "Invalid worker protocol choice count"]

theorem stops_edge {shared : Bool} {s t : Position} {edge : Edge}
    (process : edge.actor.process < 2 ^ 32) (thread : edge.actor.thread < 2 ^ 32)
    (choice : -2 ^ 31 ≤ edge.choice ∧ edge.choice < 2 ^ 31) (choiceCount : edge.choiceCount < 2 ^ 32)
    (outside : ¬EdgeRange edge) (spans : Spans (edgeHead edge) s t) :
    ∃ reason ∈ fieldErrors, Stops (decode limits shared .edge) s reason := by
  obtain ⟨_, first, spans⟩ := exists_spans.mpr spans
  obtain ⟨_, second, spans⟩ := exists_spans.mpr spans
  obtain ⟨_, third, spans⟩ := exists_spans.mpr spans
  obtain ⟨_, fourth, spans⟩ := exists_spans.mpr spans
  obtain ⟨_, fifth, spans⟩ := exists_spans.mpr spans
  obtain ⟨_, sixth, spans⟩ := exists_spans.mpr spans
  obtain ⟨_, seventh, spans⟩ := exists_spans.mpr spans
  obtain ⟨_, eighth, spans⟩ := exists_spans.mpr spans
  have four : 4 ≤ sizeMax := by decide
  have one : 1 ≤ sizeMax := by decide
  have action : actionByte edge.actor.action ≤ 1 := by cases edge.actor.action <;> decide
  have bits : choiceBits edge.choice < 256 ^ 4 := by unfold choiceBits; omega
  refine stops_after (accepts_uint64.mpr first) <| stops_after (accepts_uint64.mpr second) <|
    stops_after (accepts_uint64.mpr third) <| stops_after ((accepts_scalar four).mpr ⟨process, fourth⟩) <|
    stops_after ((accepts_scalar four).mpr ⟨thread, fifth⟩) <| stops_at_check (by decide) fun actor =>
    stops_after ((accepts_scalar one).mpr ⟨by omega, sixth⟩) <|
    stops_after (show Accepts _ _ () _ from accepts_check.mpr ⟨action, rfl⟩) <|
    stops_after ((accepts_scalar four).mpr ⟨bits, seventh⟩) <| stops_at_check (by decide) fun chosen =>
    stops_after ((accepts_scalar four).mpr ⟨choiceCount, eighth⟩) <|
    stops_at_check (by decide) fun count => absurd ⟨actor.1, actor.2, ?_, count⟩ outside
  unfold choiceBits int32Max at chosen
  unfold int32Max
  omega

/-- The vector of the blobs of a message fits into memory. -/
def Held (message : Message) : Prop :=
  ∀ bundle, bundleOf message = some bundle → bundle.blobs.length ≤ sizeMax / Reader.sizeofBlob

theorem wireMessage_fields {message : Message} (held : Held message) :
    Representable (wireMessage message) ∨ ∃ edge, wireMessage message = .edge edge ∧ ¬EdgeRange edge ∧
      edge.actor.process < 2 ^ 32 ∧ edge.actor.thread < 2 ^ 32 ∧ (-2 ^ 31 ≤ edge.choice ∧ edge.choice < 2 ^ 31) ∧
        edge.choiceCount < 2 ^ 32 := by
  cases message with
  | edge edge =>
    by_cases range : EdgeRange { edge with
        actor := ⟨edge.actor.process % 2 ^ 32, edge.actor.thread % 2 ^ 32, edge.actor.action⟩
        choice := edge.choice.bmod (2 ^ 32)
        choiceCount := edge.choiceCount % 2 ^ 32 }
    · exact .inl ⟨range, held edge.bundle rfl⟩
    · refine .inr ⟨_, rfl, range, Nat.mod_lt _ (by norm_num), Nat.mod_lt _ (by norm_num), ⟨?_, ?_⟩,
        Nat.mod_lt _ (by norm_num)⟩
      · exact Int.le_bmod (by norm_num)
      · exact Int.bmod_lt (by norm_num)
  | done done => exact .inl (Nat.mod_lt _ (by norm_num))
  | task task => exact .inl (held task.bundle rfl)
  | hello hello => exact .inl trivial
  | error error => exact .inl trivial
  | shutdown => exact .inl trivial

theorem receiveBound_of_fits {logical : ℕ} (start : total ≤ logical)
    (room : logical ≤ limits.maxFrameBytes.toNat) (fits : logicalFits limits logical specs = true)
    (each : ∀ spec ∈ specs, spec.size ≤ limits.maxBlobBytes) : receiveBound limits total specs = .ok () := by
  induction specs generalizing total logical with
  | nil => rfl
  | cons spec rest ih =>
    rw [logicalFits, Bool.and_eq_true, decide_eq_true_eq] at fits
    rw [List.forall_mem_cons] at each
    have small : ¬(limits.maxBlobBytes < spec.size ∨ limits.maxFrameBytes.toNat - total < spec.size.toNat) := by
      rw [not_or, UInt64.not_lt]
      exact ⟨each.1, by omega⟩
    rw [receiveBound, if_neg (by omega), if_neg small]
    exact ih (Nat.add_le_add_right start _) (by omega) fits.2 each.2

/-- The transport's own limits add nothing to what the sender has checked. -/
theorem bounded_receive_of_sent (channel : ObjectChannel) {bundle : Bundle} {logical : ℕ}
    (room : logical ≤ limits.maxFrameBytes.toNat) (logically : logicalFits limits logical specs = true)
    (fits : SharedFits limits bundle specs) : (channel.bounded limits).receive specs = channel.receive specs := by
  have few := fits.count
  simp only [ObjectChannel.bounded, receiveBound_of_fits (Nat.zero_le _) room logically fits.blobs, Nat.not_lt.mpr few,
    if_false]
  rfl

/-- The errors of a receiver that no limit is behind. -/
def otherErrors : List String :=
  fieldErrors ++
    ["Shared worker frame requires object channel and bundle message",
     "Previous shared worker bundle was not confirmed"]

theorem bundleOf_wireMessage (message : Message) : bundleOf (wireMessage message) = bundleOf message := by
  cases message <;> rfl

/-- The payload of an edge that the format has no room for is refused for that. -/
theorem decodePayload_edge {plan : Option (List BlobSpec)} {edge : Edge} {body : Bytes} (rest : Bytes)
    (outside : ¬EdgeRange edge) (process : edge.actor.process < 2 ^ 32) (thread : edge.actor.thread < 2 ^ 32)
    (choice : -2 ^ 31 ≤ edge.choice ∧ edge.choice < 2 ^ 31) (choiceCount : edge.choiceCount < 2 ^ 32)
    (sent : Sent limits (.edge edge) body plan) :
    ∃ reason ∈ fieldErrors,
      (decodePayload limits plan.isSome .edge body.length).run truncatedError (body ++ rest) = .error reason := by
  obtain ⟨tail, split⟩ : ∃ tail, body = edgeHead edge ++ tail := by
    cases plan with
    | none => exact ⟨_, sent.1⟩
    | some specs => exact ⟨_, sent.1⟩
  have spans : Spans (edgeHead edge) ({ remaining := body.length }, body ++ rest)
      ({ remaining := tail.length }, tail ++ rest) := by
    constructor
    · rw [split, List.append_assoc]
    · rw [split, List.length_append]
  obtain ⟨reason, listed, stops⟩ : ∃ reason ∈ fieldErrors, Stops (decode limits plan.isSome .edge)
      ({ remaining := body.length }, body ++ rest) reason :=
    stops_edge process thread choice choiceCount outside spans
  refine ⟨reason, listed, ?_⟩
  rw [decodePayload, ReadProgram.run_bind]
  change (ReadProgram.run truncatedError (decode limits plan.isSome .edge { remaining := body.length }) (body ++ rest)
    >>= _) = _
  rw [show ReadProgram.run truncatedError _ _ = _ from stops]
  rfl

/-- Sender and receiver agree on the limits, and no subtraction of a total from the frame limit wraps: not when
sending any message, and not when receiving any bytes, whatever the object channel does beyond its limits. A frame whose
sender has passed its checks is refused only for an error that no limit is behind, or because the transfer of its objects
fails. -/
theorem limits_agree (limits : Limits) :
    (∀ plan message pieces, frame limits plan message = .ok pieces → Planned plan message → Held message →
      ∃ body, pieces.flatten = header plan.isSome (messageType message) body.length ++ body ∧
        ∀ (objects : Option ObjectChannel) (rest : Bytes) (reason : String),
          (frameProgram limits (objects.map (·.bounded limits))
            (header plan.isSome (messageType message) body.length)).run truncatedError (body ++ rest) = .error reason →
          reason ∈ otherErrors ∨ ∃ channel specs, objects = some channel ∧ plan = some specs ∧
            channel.receive specs = .error reason) ∧
    (∀ plan message, frame limits plan message ≠ .error wrapError) ∧
    ∀ (objects : Option ObjectChannel) (head word : Bytes),
      (frameProgram limits (objects.map (·.bounded limits)) head).run truncatedError word = .error wrapError →
      ∃ channel specs, objects = some channel ∧ channel.receive specs = .error wrapError := by
  refine ⟨fun plan message pieces framed planned held => ?_, frame_ne_wrap, fun _ _ _ thrown => frameProgram_wrap thrown⟩
  have type : messageType (wireMessage message) = messageType message := by cases message <;> rfl
  have planned' : Planned plan (wireMessage message) := by
    intro specs mem
    rw [bundleOf_wireMessage]
    exact planned specs mem
  obtain ⟨body, written, room, sent⟩ := frame_sent planned' ((frame_wireMessage plan message).trans framed)
  rw [type] at written
  refine ⟨body, written, fun objects rest reason thrown => ?_⟩
  rw [frameProgram_eq _ room] at thrown
  split at thrown
  · rw [← Except.error.inj thrown]
    exact .inl (by decide)
  next bundled =>
  split at thrown
  · rw [← Except.error.inj thrown]
    exact .inl (by decide)
  rw [ReadProgram.run_bind] at thrown
  obtain representable | ⟨edge, same, outside, process, thread, choice, count⟩ := wireMessage_fields held
  · have decoded := decodePayload_sent representable planned' room sent rest
    rw [type] at decoded
    rw [decoded] at thrown
    simp only [bind, Except.bind] at thrown
    cases plan with
    | none => simp [ReadProgram.run, pure] at thrown
    | some specs =>
      obtain ⟨-, logically, fits⟩ := sent
      obtain ⟨bundle, carries, -⟩ := planned' specs rfl
      cases objects with
      | none => simp at bundled
      | some channel =>
        simp only [Option.isSome_some, if_true, Option.getD_some, fetchBlobs, Option.map_some,
          logicalWraps_eq_false room, logically, Bool.not_true, Bool.false_eq_true, if_false,
          bounded_receive_of_sent channel room logically (fits bundle carries)] at thrown
        cases received : channel.receive specs with
        | error what =>
          rw [received] at thrown
          exact .inr ⟨channel, specs, rfl, rfl, received.trans (congrArg Except.error (Except.error.inj thrown))⟩
        | ok blobs =>
          rw [received] at thrown
          simp [ReadProgram.run, pure] at thrown
  · rw [same] at sent
    obtain ⟨what, listed, stopped⟩ := decodePayload_edge rest outside process thread choice count sent
    have edgeType : messageType message = .edge := by rw [← type, same]; rfl
    rw [edgeType, stopped] at thrown
    rw [← Except.error.inj thrown]
    exact .inl (List.mem_append_left _ listed)

/-- A task with one blob, sent in a frame of version 2 under limits that it just meets. -/
def sampleTask : Message :=
  .task ⟨⟨7, 1, 3, 0, true⟩, { systemKey := 7, metadata := [5], blobs := [⟨11, [1, 2, 3]⟩] }⟩

theorem limits_agree_sampleTask :
    ∃ pieces body, frame { maxFrameBytes := 82 } (some [⟨11, 3, false⟩]) sampleTask = .ok pieces ∧
      pieces.flatten = header true .task body.length ++ body ∧
      ∀ (channel : ObjectChannel) (reason : String),
        (frameProgram { maxFrameBytes := 82 } (some (channel.bounded { maxFrameBytes := 82 }))
          (header true .task body.length)).run truncatedError (body ++ []) = .error reason →
        reason ∈ otherErrors ∨ channel.receive [⟨11, 3, false⟩] = .error reason := by
  have planned : Planned (some [⟨11, 3, false⟩]) sampleTask := by
    rintro specs ⟨⟩
    exact ⟨_, rfl, .cons ⟨rfl, rfl⟩ .nil⟩
  have held : Held sampleTask := by
    rintro bundle ⟨⟩
    decide
  have passes : (frame { maxFrameBytes := 82 } (some [⟨11, 3, false⟩]) sampleTask).toBool = true := by decide +kernel
  cases framed : frame { maxFrameBytes := 82 } (some [⟨11, 3, false⟩]) sampleTask with
  | error reason => simp [framed, Except.toBool] at passes
  | ok pieces =>
    obtain ⟨body, written, refused⟩ := (limits_agree { maxFrameBytes := 82 }).1 _ _ pieces framed planned held
    refine ⟨pieces, body, rfl, written, fun channel reason thrown => ?_⟩
    refine (refused (some channel) [] reason thrown).imp_right ?_
    rintro ⟨_, _, ⟨⟩, ⟨⟩, failed⟩
    exact failed

end DetSim.Search.Wire
