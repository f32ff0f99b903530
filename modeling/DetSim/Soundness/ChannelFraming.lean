import DetSim.Soundness.FrameCodec

/-! # Framing does not depend on how the stream is chopped

Whatever the socket does to the calls of both ends, what arrives is the sequence of frames. The sender
hands over its pieces in order, buffered or not. The receiver's buffer and the rest of the stream are
together the word that its reading program runs on, so each call of `receive` does what it would do on
that word. A stream that ends inside a frame is too short for the program that reads it.
-/

namespace DetSim.Search.Wire

open Kernel (Bytes)
open Except (bind_eq_ok)
open ReadProgram (Delivers)

/-! ## Sending -/

/-- Sending takes a word to the socket: all of it, or an initial part. -/
theorem writeExact_spec (schedule : List SendEvent) (data : Bytes) :
    (writeExact schedule data).2.1 <+: data ∧
      ((writeExact schedule data).1 = .returned () → (writeExact schedule data).2.1 = data) := by
  induction schedule generalizing data with
  | nil => cases data <;> simp [writeExact]
  | cons event rest ih =>
    cases data with
    | nil => simp [writeExact]
    | cons byte data =>
      cases event with
      | interrupted => exact ih _
      | wouldBlock => exact ih _
      | accept size =>
        obtain ⟨initial, whole⟩ := ih (data.drop size)
        simp only [writeExact, List.cons_append, List.cons_prefix_cons, true_and, List.cons.injEq]
        constructor
        · conv_rhs => rw [← List.take_append_drop size data]
          exact (List.prefix_append_right_inj _).mpr initial
        · intro returned
          rw [whole returned, List.take_append_drop]
      | expired => simp [writeExact]
      | failed => simp [writeExact]
      | nothing => simp [writeExact]

namespace Output

variable {out after : Output}

theorem write_returned {data : Bytes} (returned : out.write data = (.returned (), after)) :
    after.wire = out.wire ++ data ∧ after.buffer = out.buffer := by
  obtain ⟨_, whole⟩ := writeExact_spec out.schedule data
  simp only [write, Prod.mk.injEq] at returned
  obtain ⟨done, rfl⟩ := returned
  exact ⟨by rw [whole done], rfl⟩

theorem flush_returned (returned : out.flush = (.returned (), after)) :
    after.wire = out.wire ++ out.buffer ∧ after.buffer = [] := by
  unfold flush at returned
  split at returned
  · next flushed written =>
    cases returned
    exact ⟨(write_returned written).1, rfl⟩
  · next outcome flushed unfinished written =>
    cases returned
    exact absurd rfl (unfinished ())

theorem copy_returned {data : Bytes} (returned : out.copy data = (.returned (), after)) :
    after.wire ++ after.buffer = out.wire ++ out.buffer ++ data := by
  induction data generalizing out with
  | nil =>
    cases returned
    simp
  | cons byte data ih =>
    simp only [copy] at returned
    split at returned
    · split at returned
      · next flushed written =>
        obtain ⟨wire, buffer⟩ := flush_returned written
        rw [ih returned, wire, buffer]
        simp
      · next unfinished _ => cases returned; exact absurd rfl (unfinished ())
    · rw [ih returned]
      simp

/-- Buffered or direct, the bytes reach the socket in order. -/
theorem append_returned {data : Bytes} (returned : out.append data = (.returned (), after)) :
    after.wire ++ after.buffer = out.wire ++ out.buffer ++ data := by
  unfold append at returned
  split at returned
  · split at returned
    · next flushed written =>
      obtain ⟨wire, buffer⟩ := flush_returned written
      obtain ⟨direct, kept⟩ := write_returned returned
      rw [direct, kept, wire, buffer, List.append_nil]
    · next unfinished _ =>
      cases returned
      exact absurd rfl (unfinished ())
  · exact copy_returned returned

theorem appendAll_returned {pieces : List Bytes} (returned : out.appendAll pieces = (.returned (), after)) :
    after.wire = out.wire ++ out.buffer ++ pieces.flatten := by
  induction pieces generalizing out with
  | nil => rw [(flush_returned returned).1, List.flatten_nil, List.append_nil]
  | cons data rest ih =>
    simp only [appendAll] at returned
    split at returned
    · next appended written => rw [ih returned, append_returned written, List.flatten_cons, List.append_assoc]
    · next unfinished _ =>
      cases returned
      exact absurd rfl (unfinished ())

end Output

/-- The bytes of a frame. -/
def frameBytes (limits : Limits) (transfer : Transfer) : Bytes :=
  match frame limits transfer.plan transfer.message with
  | .ok pieces => pieces.flatten
  | .error _ => []

variable {limits : Limits}

theorem send_returned {transfer : Transfer} {sender after : Sender}
    (returned : send limits transfer sender = (.returned (), after)) :
    after.wire = sender.wire ++ frameBytes limits transfer ∧
      ∃ pieces, frame limits transfer.plan transfer.message = .ok pieces := by
  unfold send at returned
  split at returned
  · cases returned
  cases framed : frame limits transfer.plan transfer.message with
  | error reason => simp [framed] at returned
  | ok pieces =>
    refine ⟨?_, pieces, rfl⟩
    simp only [framed] at returned
    split at returned
    · cases returned
    · cases returned
    · next out appended =>
      have wire := Output.appendAll_returned appended
      rw [List.append_nil] at wire
      split at returned
      · cases returned
      · split at returned
        · cases returned
        · cases returned
          rw [wire, frameBytes, framed]

/-- The wire carries the frames of the messages, in order. -/
theorem sendAll_returned {transfers : List Transfer} {sender after : Sender}
    (returned : sendAll limits transfers sender = (.returned (), after)) :
    after.wire = sender.wire ++ transfers.flatMap (frameBytes limits) ∧
      ∀ transfer ∈ transfers, ∃ pieces, frame limits transfer.plan transfer.message = .ok pieces := by
  induction transfers generalizing sender with
  | nil =>
    cases returned
    simp
  | cons transfer rest ih =>
    simp only [sendAll] at returned
    split at returned
    · next middle sent =>
      obtain ⟨wire, framed⟩ := send_returned sent
      obtain ⟨laterWire, laterFramed⟩ := ih returned
      refine ⟨by rw [laterWire, wire, List.flatMap_cons, List.append_assoc], ?_⟩
      exact List.forall_mem_cons.mpr ⟨framed, laterFramed⟩
    · next unfinished _ =>
      cases returned
      exact absurd rfl (unfinished ())

/-! ## Receiving -/

/-- The socket neither fails nor runs into the deadline. -/
def Benign (schedule : List RecvEvent) : Prop :=
  ∀ event ∈ schedule, event ≠ .expired ∧ ∀ reason, event ≠ .failed reason

/-- How often the socket will deliver something. -/
def deliveries : List RecvEvent → ℕ
  | [] => 0
  | .deliver _ :: rest => deliveries rest + 1
  | _ :: rest => deliveries rest

/-- What an input will still read. -/
def Input.word (input : Input) : Bytes := input.buffer ++ input.incoming

/-- The socket is asked often enough to deliver the rest of the stream, one byte at a time if need be, and
to notice its end. -/
def Input.Ready (input : Input) : Prop := input.incoming.length < deliveries input.schedule

/-- What a read does, in terms of the bytes that are left. -/
inductive ReadSpec (closed allowEof : Bool) (ready : Prop) (got : Bytes) (need : ℕ) (word : Bytes) :
    Outcome (Option Bytes) × Input → Prop
  | blocked (stuck : ready → closed = false ∧ word.length < need) (input : Input) :
      ReadSpec closed allowEof ready got need word (.blocked, input)
  | returned (enough : need ≤ word.length) (input : Input) (rest : input.word = word.drop need)
      (benign : Benign input.schedule) (again : ready → input.Ready) :
      ReadSpec closed allowEof ready got need word (.returned (some (got ++ word.take need)), input)
  | eof (close : closed = true) (allowed : allowEof = true) (empty : got ++ word = []) (needed : 0 < need)
      (input : Input) : ReadSpec closed allowEof ready got need word (.returned none, input)
  | truncated (close : closed = true) (short : word.length < need) (inside : ¬(got ++ word = [] ∧ allowEof = true))
      (input : Input) : ReadSpec closed allowEof ready got need word (.failed truncatedError, input)

section Reading

variable {closed allowEof : Bool} {ready : Prop} {got : Bytes} {need : ℕ}

/-- Bytes that are read first only move. -/
theorem ReadSpec.shift {later : Prop} {first rest : Bytes} {result : Outcome (Option Bytes) × Input}
    (spec : ReadSpec closed allowEof later (got ++ first) (need - first.length) rest result)
    (within : first.length ≤ need) (still : ready → later) :
    ReadSpec closed allowEof ready got need (first ++ rest) result := by
  cases spec with
  | blocked stuck input =>
    refine .blocked (fun isReady => ?_) input
    obtain ⟨isOpen, short⟩ := stuck (still isReady)
    refine ⟨isOpen, ?_⟩
    rw [List.length_append]
    omega
  | returned enough input remaining benign again =>
    have taken : (first ++ rest).take need = first ++ rest.take (need - first.length) := by
      rw [List.take_append, List.take_of_length_le within]
    rw [List.append_assoc, ← taken]
    refine .returned ?_ input ?_ benign fun isReady => again (still isReady)
    · rw [List.length_append]
      omega
    · rw [remaining, List.drop_append, List.drop_of_length_le within, List.nil_append]
  | eof close allowed empty needed input =>
    rw [List.append_assoc] at empty
    exact .eof close allowed empty (by omega) input
  | truncated close short inside input =>
    rw [List.append_assoc] at inside
    refine .truncated close ?_ inside input
    rw [List.length_append]
    omega

theorem readSpec_of_buffered {buffer incoming : Bytes} {schedule : List RecvEvent} (benign : Benign schedule)
    (enough : need ≤ buffer.length) :
    ReadSpec closed allowEof (incoming.length < deliveries schedule) got need (buffer ++ incoming)
      (.returned (some (got ++ buffer.take need)), ⟨buffer.drop need, incoming, schedule⟩) := by
  have taken : (buffer ++ incoming).take need = buffer.take need := List.take_append_of_le_length enough
  rw [← taken]
  refine .returned ?_ _ ?_ benign id
  · rw [List.length_append]
    omega
  · rw [Input.word, List.drop_append_of_le_length enough]

/-- A peer that keeps the stream open and sends nothing more leaves the read waiting. -/
theorem ReadSpec.waiting {later : Prop} {result : Outcome (Option Bytes) × Input} (isOpen : closed = false)
    (needed : 0 < need) (spec : ReadSpec closed allowEof later got need [] result) :
    ReadSpec closed allowEof ready got need [] result := by
  cases spec with
  | blocked _ input => exact .blocked (fun _ => ⟨isOpen, needed⟩) input
  | returned enough => exact absurd enough (Nat.not_le.mpr needed)
  | eof close => simp [isOpen] at close
  | truncated close => simp [isOpen] at close

theorem readLoop_spec (schedule : List RecvEvent) (benign : Benign schedule) (got : Bytes) (need : ℕ)
    (buffer incoming : Bytes) :
    ReadSpec closed allowEof (incoming.length < deliveries schedule) got need (buffer ++ incoming)
      (readLoop closed allowEof schedule got need buffer incoming) := by
  induction schedule generalizing got need buffer incoming with
  | nil =>
    unfold readLoop
    split
    · next enough => exact readSpec_of_buffered benign enough
    · exact .blocked (fun isReady => absurd isReady (Nat.not_lt_zero _)) _
  | cons event rest ih =>
    have later : Benign rest := fun other member => benign other (List.mem_cons_of_mem _ member)
    obtain ⟨onTime, sound⟩ := benign event List.mem_cons_self
    rw [readLoop, if_neg onTime]
    split
    · next none =>
      subst none
      have spec : ReadSpec closed allowEof (incoming.length < deliveries (event :: rest)) got 0 (buffer ++ incoming) _ :=
        readSpec_of_buffered benign (Nat.zero_le _)
      simpa using spec
    by_cases enough : need ≤ buffer.length
    · rw [if_pos enough]
      exact readSpec_of_buffered benign enough
    rw [if_neg enough]
    have within : buffer.length ≤ need := by omega
    cases event with
    | interrupted => exact (ih later _ _ [] incoming).shift within id
    | wouldBlock => exact (ih later _ _ [] incoming).shift within id
    | failed reason => exact absurd rfl (sound reason)
    | expired => exact absurd rfl onTime
    | deliver size =>
      dsimp only
      generalize capacity : min (size + 1)
        (if bufferBytes ≤ need - buffer.length then need - buffer.length else bufferBytes) = limit
      have positive : limit ≠ 0 := by
        unfold bufferBytes at capacity
        split at capacity <;> omega
      split
      · next nothing =>
        -- The stream has nothing more to deliver.
        obtain rfl : incoming = [] := (List.take_eq_nil_iff.mp nothing).resolve_left positive
        split
        · next isOpen =>
          have spec := ih later (got ++ buffer) (need - buffer.length) [] []
          exact (spec.waiting (by simpa using isOpen) (by omega)).shift within id
        next isClosed =>
        have close : closed = true := by simpa using isClosed
        split
        · next atStart =>
          refine .eof close atStart.2 ?_ (by omega) _
          rw [List.append_nil]
          exact atStart.1
        · next inside =>
          refine .truncated close ?_ ?_ _
          · rw [List.append_nil]
            omega
          · rwa [List.append_nil]
      · next some =>
        have whole : incoming.take limit ++ incoming.drop (incoming.take limit).length = incoming := by
          rw [List.length_take, List.drop_eq_drop_min, Nat.min_assoc, Nat.min_self, ← List.drop_eq_drop_min,
            List.take_append_drop]
        have progress : incoming.length < deliveries (.deliver size :: rest) →
            (incoming.drop (incoming.take limit).length).length < deliveries rest := by
          have taken := List.length_pos_of_ne_nil some
          have most := List.length_take_le' limit incoming
          rw [List.length_drop, deliveries]
          omega
        split
        · next direct =>
          have fits : (incoming.take limit).length ≤ need - buffer.length := by
            rw [List.length_take, ← capacity, if_pos direct]
            omega
          have spec := (ih later (got ++ buffer ++ incoming.take limit)
            (need - buffer.length - (incoming.take limit).length) []
            (incoming.drop (incoming.take limit).length)).shift fits progress
          rw [List.nil_append, whole] at spec
          exact spec.shift within id
        · have spec := ih later (got ++ buffer) (need - buffer.length) (incoming.take limit)
            (incoming.drop (incoming.take limit).length)
          rw [whole] at spec
          exact spec.shift within progress

/-- The input delivers the rest of the stream. -/
theorem delivers_pull :
    Delivers (Input.pull closed) truncatedError Input.word (fun input => Benign input.schedule) Input.Ready
      (closed = true) := by
  have reads : ∀ (input : Input) (count : ℕ), Benign input.schedule →
      ReadSpec closed false input.Ready [] count input.word (input.read closed false count) :=
    fun _ _ benign => readLoop_spec _ benign ..
  constructor
  · intro input count benign enough
    have spec := reads input count benign
    unfold Input.pull
    generalize input.read closed false count = result at spec
    cases spec with
    | blocked stuck => exact .inl ⟨rfl, fun isReady => absurd (stuck isReady).2 (Nat.not_lt.mpr enough)⟩
    | returned _ next rest kept again => exact .inr ⟨next, by simp, kept, rest, again⟩
    | eof _ allowed => cases allowed
    | truncated _ short => exact absurd enough (Nat.not_le.mpr short)
  · intro input count benign short
    have spec := reads input count benign
    unfold Input.pull
    generalize input.read closed false count = result at spec
    cases spec with
    | blocked stuck => exact .inl ⟨rfl, fun isReady => by simp [(stuck isReady).1]⟩
    | returned enough => exact absurd enough (Nat.not_le.mpr short)
    | eof _ allowed => cases allowed
    | truncated => exact .inr rfl

end Reading

/-! ## Frames -/

section Frames

variable {closed : Bool} {input : Input} {transfer : Transfer} {pieces : List Bytes}

theorem head?_ne_expired {schedule : List RecvEvent} (benign : Benign schedule) : schedule.head? ≠ some .expired := by
  intro expired
  exact (benign _ (List.mem_of_mem_head? expired)).1 rfl

/-- What the program that reads a frame after its header makes of the rest of the stream. -/
theorem endReceive_runOn (closed : Bool) (program : ReadProgram UInt8 String Message) {input : Input}
    (benign : Benign input.schedule) :
    ((endReceive (program.runOn (Input.pull closed) input)).1 = .blocked ∧
      (input.Ready → closed = false ∧ ∀ result, program.run truncatedError input.word ≠ .ok result)) ∨
    (∃ message next, endReceive (program.runOn (Input.pull closed) input) = (.returned (some message), { input := next }) ∧
      Benign next.schedule ∧ program.run truncatedError input.word = .ok (message, next.word) ∧
        (input.Ready → next.Ready)) ∨
    ∃ error next, endReceive (program.runOn (Input.pull closed) input) =
        (.failed error, { failed := true, input := next }) ∧ program.run truncatedError input.word = .error error := by
  rcases ReadProgram.runOn_eq delivers_pull program input benign with
    ⟨blocked, stuck⟩ | ⟨message, next, ran, kept, same, ready⟩ | ⟨error, failed, same⟩
  · left
    refine ⟨?_, fun isReady => ⟨by simpa using (stuck isReady).1, (stuck isReady).2⟩⟩
    generalize program.runOn (Input.pull closed) input = result at blocked
    obtain ⟨outcome, next⟩ := result
    cases blocked
    rfl
  · right
    left
    refine ⟨message, next, ?_, kept, same, ready⟩
    rw [ran, endReceive, if_neg (head?_ne_expired kept)]
  · right
    right
    generalize program.runOn (Input.pull closed) input = result at failed
    obtain ⟨outcome, next⟩ := result
    cases failed
    exact ⟨error, next, rfl, same⟩

/-- The header of the next frame, as the receiver reads it. -/
theorem read_header (benign : Benign input.schedule) :
    ReadSpec closed true input.Ready [] 16 input.word (input.read closed true 16) :=
  readLoop_spec _ benign ..

/-- The bytes of a frame and what the receiver makes of them. -/
theorem exists_body (representable : Representable transfer.message) (honest : transfer.Honest)
    (framed : frame limits transfer.plan transfer.message = .ok pieces) :
    ∃ head body, frameBytes limits transfer = head ++ body ∧ head.length = 16 ∧ ∀ rest,
      (frameProgram limits transfer.objects head).run truncatedError (body ++ rest) = .ok (transfer.message, rest) := by
  obtain ⟨body, written, program⟩ := frame_eq_ok representable honest framed
  refine ⟨header transfer.plan.isSome (messageType transfer.message) body.length, body, ?_, length_header .., program⟩
  rw [frameBytes, framed]
  exact written

/-- A frame is received whatever the socket does. -/
theorem receive_frame (closed : Bool) (representable : Representable transfer.message) (honest : transfer.Honest)
    (framed : frame limits transfer.plan transfer.message = .ok pieces) (benign : Benign input.schedule) {rest : Bytes}
    (word : input.word = frameBytes limits transfer ++ rest) :
    ((receive limits closed transfer.objects { input }).1 = .blocked ∧ ¬input.Ready) ∨
      ∃ next, receive limits closed transfer.objects { input } = (.returned (some transfer.message), { input := next }) ∧
        Benign next.schedule ∧ next.word = rest ∧ (input.Ready → next.Ready) := by
  obtain ⟨head, body, bytes, length, program⟩ := exists_body representable honest framed
  have spec : ReadSpec closed true _ [] 16 _ _ := read_header benign
  rw [word, bytes, List.append_assoc] at spec
  rw [receive, if_neg Bool.false_ne_true]
  generalize input.read closed true 16 = result at spec
  have enough : 16 ≤ (head ++ (body ++ rest)).length := by
    rw [List.length_append]
    omega
  cases spec with
  | blocked stuck => exact .inl ⟨rfl, fun isReady => absurd (stuck isReady).2 (Nat.not_lt.mpr enough)⟩
  | eof _ _ empty => simp [← List.length_eq_zero_iff, length] at empty
  | truncated _ short => exact absurd enough (Nat.not_le.mpr short)
  | returned _ after remaining later again =>
    rw [List.take_left' length, List.nil_append]
    rw [List.drop_left' length] at remaining
    have ends := endReceive_runOn closed (frameProgram limits transfer.objects head) later
    rw [remaining, program rest] at ends
    rcases ends with ⟨blocked, stuck⟩ | ⟨message, next, ran, kept, same, ready⟩ | ⟨_, _, _, failed⟩
    · exact .inl ⟨blocked, fun isReady => (stuck (again isReady)).2 _ rfl⟩
    · cases same
      exact .inr ⟨next, ran, kept, rfl, fun isReady => ready (again isReady)⟩
    · cases failed

/-- A stream that the peer closes inside a frame makes the receiver fail. -/
theorem receive_cut (representable : Representable transfer.message) (honest : transfer.Honest)
    (framed : frame limits transfer.plan transfer.message = .ok pieces) (benign : Benign input.schedule) {count : ℕ}
    (started : 0 < count) (inside : count < (frameBytes limits transfer).length) (close : closed = true)
    (word : input.word = (frameBytes limits transfer).take count) :
    ((receive limits closed transfer.objects { input }).1 = .blocked ∧ ¬input.Ready) ∨
      ∃ next, receive limits closed transfer.objects { input } =
        (.failed truncatedError, { failed := true, input := next }) := by
  obtain ⟨head, body, bytes, length, program⟩ := exists_body representable honest framed
  have spec : ReadSpec closed true _ [] 16 _ _ := read_header benign
  rw [bytes, List.length_append] at inside
  rw [word, bytes] at spec
  rw [receive, if_neg Bool.false_ne_true]
  generalize input.read closed true 16 = result at spec
  cases spec with
  | blocked stuck => exact .inl ⟨rfl, fun isReady => by simp [close] at stuck; exact stuck isReady⟩
  | eof _ _ empty =>
    rw [List.nil_append, List.take_eq_nil_iff, ← List.length_eq_zero_iff, List.length_append] at empty
    omega
  | truncated _ _ _ after => exact .inr ⟨after, rfl⟩
  | returned enough after remaining later again =>
    rw [List.length_take] at enough
    have cut : (head ++ body).take count = head ++ body.take (count - 16) := by
      rw [List.take_append, List.take_of_length_le (by omega), length]
    rw [cut, List.take_left' length, List.nil_append]
    rw [cut, List.drop_left' length] at remaining
    have short : (frameProgram limits transfer.objects head).run truncatedError (body.take (count - 16)) =
      .error truncatedError := ReadProgram.run_take (program []) (by omega)
    have ends := endReceive_runOn closed (frameProgram limits transfer.objects head) later
    rw [remaining, short] at ends
    rcases ends with ⟨blocked, stuck⟩ | ⟨_, _, _, _, same, _⟩ | ⟨_, next, ran, failed⟩
    · refine .inl ⟨blocked, fun isReady => ?_⟩
      simpa [close] using (stuck (again isReady)).1
    · cases same
    · cases failed
      exact .inr ⟨next, ran⟩

/-- Only the end of the stream makes a call return nothing. -/
theorem receive_none (limits : Limits) (closed : Bool) (objects : Option ObjectChannel)
    (benign : Benign input.schedule) :
    ((receive limits closed objects { input }).1 = .returned none → closed = true ∧ input.word = []) ∧
    (closed = true → input.word = [] → ((receive limits closed objects { input }).1 = .blocked ∧ ¬input.Ready) ∨
      (receive limits closed objects { input }).1 = .returned none) := by
  have spec : ReadSpec closed true _ [] 16 _ _ := read_header benign
  rw [receive, if_neg Bool.false_ne_true]
  generalize input.read closed true 16 = result at spec
  cases spec with
  | blocked stuck =>
    refine ⟨nofun, fun close _ => .inl ⟨rfl, fun isReady => ?_⟩⟩
    simpa [close] using (stuck isReady).1
  | eof close _ empty => exact ⟨fun _ => ⟨close, empty⟩, fun _ _ => .inr rfl⟩
  | truncated _ _ inside => exact ⟨nofun, fun _ empty => absurd ⟨empty, rfl⟩ inside⟩
  | returned enough after remaining later again =>
    refine ⟨fun returned => ?_, fun _ empty => by simp [empty] at enough⟩
    dsimp only at returned
    rcases endReceive_runOn closed (frameProgram limits objects ([] ++ input.word.take 16)) later with
      ⟨blocked, _⟩ | ⟨_, _, ran, _⟩ | ⟨_, _, ran, _⟩
    · rw [blocked] at returned
      cases returned
    · rw [ran] at returned
      cases returned
    · rw [ran] at returned
      cases returned

theorem receive_failed {objects : Option ObjectChannel} {receiver : Receiver} (unusable : receiver.failed = true) :
    receive limits closed objects receiver = (.failed unusableError, receiver) := if_pos unusable

/-- The frames of several messages are received one after the other. -/
theorem receiveAll_frames (closed : Bool) {transfers : List Transfer} (input : Input) (benign : Benign input.schedule)
    {rest : Bytes} (honest : ∀ transfer ∈ transfers, Representable transfer.message ∧ transfer.Honest)
    (framed : ∀ transfer ∈ transfers, ∃ pieces, frame limits transfer.plan transfer.message = .ok pieces)
    (word : input.word = transfers.flatMap (frameBytes limits) ++ rest) :
    (.blocked ∈ (receiveAll limits closed (transfers.map Transfer.objects) { input }).1 ∧ ¬input.Ready) ∨
      ∃ next, receiveAll limits closed (transfers.map Transfer.objects) { input } =
          (transfers.map fun transfer => .returned (some transfer.message), { input := next }) ∧
        Benign next.schedule ∧ next.word = rest ∧ (input.Ready → next.Ready) := by
  induction transfers generalizing input with
  | nil => exact .inr ⟨input, rfl, benign, word, id⟩
  | cons transfer transfers ih =>
    rw [List.forall_mem_cons] at honest framed
    rw [List.flatMap_cons, List.append_assoc] at word
    obtain ⟨pieces, framedFirst⟩ := framed.1
    simp only [List.map_cons, receiveAll]
    rcases receive_frame closed honest.1.1 honest.1.2 framedFirst benign word with
      ⟨blocked, stuck⟩ | ⟨next, received, kept, remaining, again⟩
    · left
      generalize receive limits closed transfer.objects { input } = result at blocked
      obtain ⟨outcome, next⟩ := result
      cases blocked
      exact ⟨List.mem_singleton_self _, stuck⟩
    · rw [received]
      rcases ih next kept honest.2 framed.2 remaining with
        ⟨blocked, stuck⟩ | ⟨last, all, keptLast, remainingLast, againLast⟩
      · exact .inl ⟨List.mem_cons_of_mem _ blocked, fun isReady => stuck (again isReady)⟩
      · exact .inr ⟨last, by simp only [all], keptLast, remainingLast, fun isReady => againLast (again isReady)⟩

end Frames

/-- Where the frame of a message begins in the stream. -/
def boundary (limits : Limits) (transfers : List Transfer) (k : ℕ) : ℕ :=
  ((transfers.take k).flatMap (frameBytes limits)).length

theorem boundary_succ {transfers : List Transfer} {k : ℕ} {transfer : Transfer} (member : transfers[k]? = some transfer) :
    boundary limits transfers (k + 1) = boundary limits transfers k + (frameBytes limits transfer).length := by
  rw [boundary, boundary, List.take_add_one, member, List.flatMap_append, List.length_append]
  simp

/-- The stream after the first messages, cut somewhere behind them. -/
theorem take_flatMap_frameBytes {transfers : List Transfer} {k n : ℕ} (arrived : boundary limits transfers k ≤ n) :
    (transfers.flatMap (frameBytes limits)).take n = (transfers.take k).flatMap (frameBytes limits) ++
      ((transfers.drop k).flatMap (frameBytes limits)).take (n - boundary limits transfers k) := by
  conv_lhs => rw [← List.take_append_drop k transfers, List.flatMap_append, List.take_append,
    List.take_of_length_le arrived]
  rfl

/-- Framing does not depend on how the stream is chopped. Of the bytes of the messages that were sent, the
first `n` arrive, and then the peer may close the stream. The calls of `receive` for the messages that have
arrived return exactly these messages in order. The call after them returns nothing only at the end of a
stream that was closed between two frames, and a stream closed inside a frame makes it fail and the channel
unusable. A call waits only if the socket is not asked often enough. -/
theorem channel_framing (limits : Limits) (transfers : List Transfer)
    (honest : ∀ transfer ∈ transfers, Representable transfer.message ∧ transfer.Honest)
    (sending : List SendEvent) (sender : Sender)
    (sent : sendAll limits transfers { schedule := sending } = (.returned (), sender))
    (n : ℕ) (part : n ≤ sender.wire.length) (closed : Bool) (schedule : List RecvEvent) (benign : Benign schedule)
    (k : ℕ) (arrived : boundary limits transfers k ≤ n) :
    let run := receiveAll limits closed ((transfers.take k).map Transfer.objects)
      { input := { incoming := sender.wire.take n, schedule } }
    (.blocked ∈ run.1 ∧ deliveries schedule ≤ n) ∨
    (run.1 = ((transfers.take k).map fun transfer => .returned (some transfer.message)) ∧
      (∀ objects, (receive limits closed objects run.2).1 = .returned none →
        closed = true ∧ n = boundary limits transfers k) ∧
      (closed = true → n = boundary limits transfers k → ∀ objects,
        ((receive limits closed objects run.2).1 = .blocked ∧ deliveries schedule ≤ n) ∨
          (receive limits closed objects run.2).1 = .returned none) ∧
      (closed = true → ∀ transfer, transfers[k]? = some transfer → boundary limits transfers k < n →
        n < boundary limits transfers (k + 1) →
        ((receive limits closed transfer.objects run.2).1 = .blocked ∧ deliveries schedule ≤ n) ∨
        ∃ unusable, receive limits closed transfer.objects run.2 = (.failed truncatedError, unusable) ∧
          ∀ objects, receive limits closed objects unusable = (.failed unusableError, unusable))) := by
  obtain ⟨wire, framed⟩ := sendAll_returned sent
  rw [List.nil_append] at wire
  have lengths : ((transfers.drop k).flatMap (frameBytes limits)).length + boundary limits transfers k =
      sender.wire.length := by
    rw [wire, boundary, Nat.add_comm, ← List.length_append, ← List.flatMap_append, List.take_append_drop]
  have incoming := take_flatMap_frameBytes arrived
  rw [← wire] at incoming
  have seldom : ¬({ incoming := sender.wire.take n, schedule } : Input).Ready → deliveries schedule ≤ n := by
    intro stuck
    rwa [Input.Ready, List.length_take, Nat.min_eq_left part, Nat.not_lt] at stuck
  intro run
  have frames := receiveAll_frames closed { incoming := sender.wire.take n, schedule } benign
    (fun transfer member => honest transfer (List.mem_of_mem_take member))
    (fun transfer member => framed transfer (List.mem_of_mem_take member)) incoming
  rcases frames with ⟨blocked, stuck⟩ | ⟨input, received, kept, remaining, again⟩
  · exact .inl ⟨blocked, seldom stuck⟩
  simp only [run, received]
  refine .inr ⟨trivial, ?_, ?_, ?_⟩
  · intro objects nothing
    obtain ⟨close, empty⟩ := (receive_none limits closed objects kept).1 nothing
    refine ⟨close, ?_⟩
    rw [remaining, ← List.length_eq_zero_iff, List.length_take] at empty
    omega
  · intro close whole objects
    have empty : input.word = [] := by rw [remaining, whole, Nat.sub_self, List.take_zero]
    rcases (receive_none limits closed objects kept).2 close empty with ⟨blocked, stuck⟩ | nothing
    · exact .inl ⟨blocked, seldom fun isReady => stuck (again isReady)⟩
    · exact .inr nothing
  · intro close transfer member started inside
    have present : transfer ∈ transfers := List.mem_of_getElem? member
    obtain ⟨representable, honestly⟩ := honest transfer present
    obtain ⟨pieces, framedNext⟩ := framed transfer present
    have next : transfers.drop k = transfer :: transfers.drop (k + 1) := by
      obtain ⟨bound, rfl⟩ := List.getElem?_eq_some_iff.mp member
      exact List.drop_eq_getElem_cons bound
    rw [boundary_succ member] at inside
    rw [next, List.flatMap_cons, List.take_append_of_le_length (by omega)] at remaining
    rcases receive_cut representable honestly framedNext kept (by omega) (by omega) close remaining with
      ⟨blocked, stuck⟩ | ⟨last, failed⟩
    · exact .inl ⟨blocked, seldom fun isReady => stuck (again isReady)⟩
    · exact .inr ⟨_, failed, fun objects => receive_failed rfl⟩

/-- An edge whose blobs travel beside its frame. -/
def sampleTransfer : Transfer where
  message := sampleEdge
  plan := some [⟨11, 3, true⟩, ⟨12, 0, false⟩]
  objects := some { receive := fun _ => .ok [⟨11, [1, 2, 3]⟩, ⟨12, []⟩] }

def sampleSending : List SendEvent := [.accept 5, .interrupted, .accept 99, .accept 999]

def sampleSender : Sender :=
  (sendAll {} [{ message := .shutdown }, sampleTransfer] { schedule := sampleSending }).2

def sampleSchedule : List RecvEvent := .wouldBlock :: List.replicate 37 (.deliver 9)

/-- A shutdown arrives, and then the stream is closed twenty bytes into the frame of an edge. -/
theorem channel_framing_cut :
    (receiveAll {} true [none] { input := { incoming := sampleSender.wire.take 36, schedule := sampleSchedule } }).1 =
      [.returned (some .shutdown)] ∧
    ∃ unusable, receive {} true sampleTransfer.objects
      (receiveAll {} true [none] { input := { incoming := sampleSender.wire.take 36, schedule := sampleSchedule } }).2 =
        (.failed truncatedError, unusable) := by
  have honest : ∀ transfer ∈ [{ message := .shutdown }, sampleTransfer],
      Representable transfer.message ∧ transfer.Honest := by
    refine List.forall_mem_cons.mpr ⟨⟨trivial, nofun, nofun⟩, List.forall_mem_cons.mpr ⟨⟨?_, ?_, ?_⟩, nofun⟩⟩
    · refine ⟨⟨?_, ?_, ?_, ?_⟩, ?_⟩ <;> decide
    · rintro objects ⟨⟩
      rfl
    · rintro specs ⟨⟩
      refine ⟨_, rfl, ?_, _, rfl, rfl⟩
      refine .cons ?_ (.cons ?_ .nil) <;> exact ⟨rfl, by decide⟩
  have sent : sendAll {} [{ message := .shutdown }, sampleTransfer] { schedule := sampleSending } =
      (.returned (), sampleSender) := by
    refine Prod.ext (by decide +kernel) ?_
    rw [sampleSender]
  have benign : Benign sampleSchedule := by
    intro event member
    rcases List.mem_cons.mp member with rfl | member
    · exact ⟨nofun, nofun⟩
    · obtain rfl := List.eq_of_mem_replicate member
      exact ⟨nofun, nofun⟩
  have often : ¬deliveries sampleSchedule ≤ 36 := by decide
  have framing := channel_framing {} [{ message := .shutdown }, sampleTransfer] honest sampleSending sampleSender sent
    36 (by decide +kernel) true sampleSchedule benign 1 (by decide +kernel)
  rw [List.take_one] at framing
  rcases framing with ⟨_, seldom⟩ | ⟨messages, _, _, cut⟩
  · exact absurd seldom often
  · rcases cut rfl sampleTransfer rfl (by decide +kernel) (by decide +kernel) with ⟨_, seldom⟩ | ⟨unusable, failed, _⟩
    · exact absurd seldom often
    · exact ⟨messages, unusable, failed⟩

def foreignChoice : Transfer where
  message := .edge {
    leaseId := 3, source := 7, target := 9, actor := ⟨1, 0, .normal⟩, choice := -3, bundle := { systemKey := 9 } }

/-- The writer takes a choice below -2, which the reader of the other end refuses. -/
theorem foreign_choice_refused :
    (sendAll {} [foreignChoice] { schedule := [.accept 99] }).1 = .returned () ∧
    (receive {} false none
      { input := { incoming := (sendAll {} [foreignChoice] { schedule := [.accept 99] }).2.wire, schedule := [.deliver 99] }
      }).1 = .failed "Invalid worker protocol choice" := by
  decide +kernel

end DetSim.Search.Wire
