import Vee.Websocket.Async

/-!
# When an asynchronous read completes once

The completions of an asynchronous read that delivers whole frames: pings and
pongs, after each of which the transport read is armed again, and the first one
that is anything else. A data frame is handed to the callback once, unless the
reader takes its length for negative; `async_read_all` leaves old bytes behind
it. A close throws past the callback. After an error the handler decodes what
the buffer happens to hold, which is harmless only when that throws.
-/

namespace Vee

open Endian Memory XwebsocketStream

/-- A ping or a pong. -/
def Frame.Heartbeat (f : Frame) : Prop := f.header.opcode = 0x9 ∨ f.header.opcode = 0xA

instance (f : Frame) : Decidable f.Heartbeat := by
  unfold Frame.Heartbeat
  infer_instance

/-- The second contents are the first ones with the frame at their start decoded. -/
structure Frame.Decoded (f : Frame) (before after : Nat → Byte) : Prop where
  payload : Stored after f.header.size f.payload
  kept : ∀ j, j < f.header.size ∨ f.encode.length ≤ j → after j = before j

/-- Decoding a frame gives the same bytes wherever it is done. -/
theorem Frame.Decoded.agree {f : Frame} {before before' after after' : Nat → Byte}
    (h : f.Decoded before after) (h' : f.Decoded before' after') (holds : Stored before 0 f.encode)
    (holds' : Stored before' 0 f.encode) (j : Nat) (inside : j < f.encode.length) :
    after j = after' j := by
  have total := f.encode_length
  obtain front | back := Nat.lt_or_ge j f.header.size
  · have byte := holds.cell_eq inside
    have byte' := holds'.cell_eq inside
    rw [Nat.zero_add] at byte byte'
    rw [h.kept j (.inl front), h'.kept j (.inl front), byte, byte']
  · obtain ⟨i, rfl⟩ := Nat.exists_eq_add_of_le back
    have within : i < f.payload.length := by omega
    rw [h.payload.cell_eq within, h'.payload.cell_eq within]

/-- The contents of a buffer after frames have been received into it. -/
def overlaid (cell : Nat → Byte) (frames : List Frame) : Nat → Byte :=
  frames.foldl (fun cell f => (Memory.put ⟨cell, []⟩ 0 f.encode).cell) cell

/-- The first completion that is not a ping or a pong. -/
inductive Ending where
  | failed (message : String) (bytesTransferred : Nat)
  | frame (message : String) (f : Frame)

namespace Ending

def completion : Ending → Completion
  | failed message bytesTransferred => .failed message bytesTransferred
  | frame message f => .received message f.encode

/-- A frame that fits the buffer and is not a ping or a pong. -/
def Admissible (bufCapacity : BitVec 32) : Ending → Prop
  | failed _ _ => True
  | frame _ f => ¬ f.Heartbeat ∧ f.encode.length ≤ bufCapacity.toNat

end Ending

/-- The completions of a read: the socket is open when a ping or a pong is handled,
as otherwise no completion follows. -/
def completions (message : String) (beats : List Frame) (isOpen : Bool) (ending : Ending) :
    List (Bool × Completion) :=
  beats.map (fun f => (true, .received message f.encode)) ++ [(isOpen, ending.completion)]

/-- What the callback is to be called with. `count` is what is taken for the payload
count of a result of the synchronous read. -/
def Prescribed (boost : BoostEndian) (fuel : Nat) (variant : ReadVariant) (bufCapacity : BitVec 32)
    (count : IoResult → BitVec 32) (m : Memory Byte) (beats : List Frame) (inv : Invocation) :
    Ending → Prop
  | .failed message _ => inv.functionResult = ⟨.streamReadFailure, message⟩
  | .frame _ f =>
      if f.header.opcode = 0x8 then inv.functionResult.error = .streamDisconnectedByHost
      else
        inv.functionResult.error = .success ∧
        ∃ result m', variant.read boost fuel bufCapacity
            ((beats ++ [f]).map fun f => .received f.encode) m = some (.ok result, m', []) ∧
          inv.bytesTransferred = count result ∧
          ∀ j < bufCapacity.toNat, inv.buffer j = m'.cell j

/-- All completions are handled, and the callback has been called once, as prescribed. -/
def Completes (boost : BoostEndian) (variant : ReadVariant) (e : Callback)
    (bufCapacity : BitVec 32) (count : IoResult → BitVec 32) (m : Memory Byte) (message : String)
    (beats : List Frame) (isOpen : Bool) (ending : Ending) : Prop :=
  ∃ fuel s, AsyncRead.handleAll boost fuel variant e bufCapacity (.call true m)
      (completions message beats isOpen ending) = some s ∧
    ∃ inv, s.calls = [inv] ∧
      Prescribed boost fuel variant bufCapacity count m beats inv ending

/-- The call that reports a failed read. -/
def Invocation.failure (text : String) (transferred : Nat) (bufCapacity : BitVec 32)
    (cell : Nat → Byte) : Invocation where
  functionResult := ⟨.streamReadFailure, text⟩
  buffer := cell
  bufCapacity
  bytesTransferred := BitVec.ofNat 32 transferred

/-- When they are: `cell` is the buffer as the last completion finds it. -/
def Settles (variant : ReadVariant) (e : Callback) (bufCapacity : BitVec 32)
    (count : IoResult → BitVec 32) (cell : Nat → Byte) : Ending → Prop
  | .failed message bytesTransferred =>
      let answer := e [.failure message bytesTransferred bufCapacity cell]
      answer.1.isSome ∨ (HeaderLayout.of answer.2 0).Control
  | .frame _ f =>
      f.header.opcode ≠ 0x8 ∧ f.header.length.negative = false ∧
        match variant with
        | .payloadOnly => count f.sizes = f.sizes.payloadSize
        | .all => count f.sizes = BitVec.ofNat 32 f.encode.length ∧
            ∀ j, f.encode.length ≤ j → j < bufCapacity.toNat → cell j = 0

namespace AsyncRead

variable {boost : BoostEndian} {fuel : Nat} {variant : ReadVariant} {e : Callback}
variable {bufCapacity : BitVec 32} {isOpen : Bool} {functionResult : OperationResult}
variable {bytesTransferred : BitVec 32} {s s' : AsyncRead} {layout : HeaderLayout} {f : Frame}

/-- Catching an exception calls nobody. -/
theorem catchException_calls (isOpen : Bool) (s : AsyncRead) (thrown : Thrown) :
    (s.catchException isOpen thrown).calls = s.calls := by
  cases thrown with
  | other => rfl
  | exception ex =>
      simp only [catchException, tcpAsyncRead]
      split_ifs <;> rfl

/-- A control frame at the start of the buffer is what the handler catches. -/
theorem tryDecode_control (holds : Stored s.buffer.cell 0 layout.encode)
    (control : layout.Control) :
    tryDecode boost fuel variant e bufCapacity isOpen functionResult bytesTransferred s =
      some ({ s with buffer := s.buffer.record ((List.range' 0 layout.size).map .read) }
        |>.catchException isOpen (.exception (controlException layout.opcode))) := by
  simp only [tryDecode, preprocess_control boost fuel bytesTransferred holds control]

/-- Anything else makes it call the callback, if it gets through the payload. -/
theorem tryDecode_data (data : ¬ (HeaderLayout.of s.buffer.cell 0).Control)
    (finished : tryDecode boost fuel variant e bufCapacity isOpen functionResult
      bytesTransferred s = some s') : s'.calls.length = s.calls.length + 1 := by
  obtain ⟨_, _, loop⟩ := preprocess_data boost fuel bytesTransferred
    (HeaderLayout.stored_of s.buffer.cell 0) data
  simp only [tryDecode, loop] at finished
  split at finished
  · cases finished
  · rename_i decoded
    obtain ⟨_, _, same⟩ := Option.map_eq_some_iff.mp decoded
    cases same
  · split at finished
    · rename_i called
      obtain rfl := Option.some.inj finished
      have calls := congrArg (·.2.calls.length) called
      exact calls.symm.trans List.length_append
    · rename_i called
      obtain rfl := Option.some.inj finished
      have calls := congrArg (·.2.calls.length) called
      rw [catchException_calls]
      exact calls.symm.trans List.length_append

/-- A whole data frame whose length the reader understands is handed over. -/
theorem tryDecode_frame (data : ¬ f.header.Control) (understood : f.header.length.negative = false)
    (small : f.encode.length < 2 ^ 32) (holds : Stored s.buffer.cell 0 f.encode)
    (enough : f.payload.length ≤ fuel) :
    ∃ m' s', tryDecode boost fuel variant e bufCapacity isOpen functionResult
        (BitVec.ofNat 32 f.encode.length) s = some s' ∧
      s'.calls = s.calls ++ [⟨functionResult,
        (handOver bufCapacity f.sizes (BitVec.ofNat 32 f.encode.length) m' variant).1.cell,
        bufCapacity,
        (handOver bufCapacity f.sizes (BitVec.ofNat 32 f.encode.length) m' variant).2⟩] ∧
      f.Decoded s.buffer.cell m'.cell := by
  obtain ⟨header, m', returned, _, payload, kept⟩ :=
    preprocess_frame boost f data understood small holds enough
  refine ⟨m', ?_⟩
  simp only [tryDecode, returned]
  split
  · rename_i called
    exact ⟨_, rfl, (congrArg (·.2.calls) called).symm, ⟨payload, kept⟩⟩
  · rename_i called
    refine ⟨_, rfl, ?_, ⟨payload, kept⟩⟩
    rw [catchException_calls]
    exact (congrArg (·.2.calls) called).symm

/-- A negative length keeps the handler in the loop, and so does a payload longer
than the fuel. -/
theorem tryDecode_unfinished (data : ¬ f.header.Control) (small : f.encode.length < 2 ^ 32)
    (holds : Stored s.buffer.cell 0 f.encode)
    (endless : f.header.length.negative = true ∨ fuel < f.payload.length) :
    tryDecode boost fuel variant e bufCapacity isOpen functionResult bytesTransferred s = none := by
  have total := f.encode_length
  rw [Frame.encode, stored_append] at holds
  obtain ⟨w, w', loop⟩ := preprocess_data boost fuel bytesTransferred holds.1 data
  cases sign : f.header.length.negative with
  | true =>
      rw [unmask_eq_none (LengthField.read_of_negative sign)] at loop
      simp only [tryDecode, loop, Option.map_none]
  | false =>
      have payloadLen : (DataFrameHeader.analyzed {} f.header w w').payloadLen.toNat =
          f.payload.length := (LengthField.read_of_not_negative sign).trans f.length_eq
      simp only [sign, Bool.false_eq_true, false_or] at endless
      rw [unmask_eq (by omega), payloadLen, if_neg (by omega)] at loop
      simp only [tryDecode, loop, Option.map_none]

/-- The completion of an armed read, with its bytes in the buffer. -/
theorem handleRead_received (armed : s.armed = true) (message : String) (bytes : List Byte) :
    handleRead boost fuel variant e bufCapacity isOpen s (.received message bytes) =
      tryDecode boost fuel variant e bufCapacity isOpen ⟨.success, message⟩
        (BitVec.ofNat 32 bytes.length)
        { s with armed := false, thrown := none, buffer := s.buffer.put 0 bytes } := by
  simp only [handleRead, armed, if_true, preprocess, ne_eq, not_true_eq_false, if_false]

/-- The completion with a data frame that can be decoded calls the callback with it. -/
theorem handleRead_frame {cell : Nat → Byte} (armed : s.armed = true) (fresh : s.calls = [])
    (buffer : s.buffer.cell = cell) (data : ¬ f.header.Control)
    (understood : f.header.length.negative = false) (small : f.encode.length < 2 ^ 32)
    (enough : f.payload.length ≤ fuel) (message : String) :
    ∃ decoded s', handleRead boost fuel variant e bufCapacity isOpen s
        (.received message f.encode) = some s' ∧
      s'.calls = [⟨⟨.success, message⟩,
        (handOver bufCapacity f.sizes (BitVec.ofNat 32 f.encode.length) decoded variant).1.cell,
        bufCapacity,
        (handOver bufCapacity f.sizes (BitVec.ofNat 32 f.encode.length) decoded variant).2⟩] ∧
      f.Decoded (Memory.put ⟨cell, []⟩ 0 f.encode).cell decoded.cell := by
  obtain ⟨s₁, handled, calls, received⟩ : ∃ s₁, handleRead boost fuel variant e bufCapacity isOpen
      s (.received message f.encode) = tryDecode boost fuel variant e bufCapacity isOpen
        ⟨.success, message⟩ (BitVec.ofNat 32 f.encode.length) s₁ ∧ s₁.calls = [] ∧
      s₁.buffer.cell = (Memory.put ⟨cell, []⟩ 0 f.encode).cell :=
    ⟨_, handleRead_received armed message f.encode, fresh, by rw [← buffer]; rfl⟩
  have holds : Stored s₁.buffer.cell 0 f.encode := by
    rw [received]
    exact stored_put
  obtain ⟨decoded, s', finished, calls', h⟩ := tryDecode_frame data understood small holds enough
  rw [calls, List.nil_append] at calls'
  rw [received] at h
  exact ⟨decoded, s', handled.trans finished, calls', h⟩

variable (boost fuel variant e bufCapacity)

/-- After a ping or a pong the read is armed again. -/
theorem handleRead_heartbeat (armed : s.armed = true) (beats : f.Heartbeat) (message : String) :
    ∃ s', handleRead boost fuel variant e bufCapacity true s (.received message f.encode) =
        some s' ∧
      s'.armed = true ∧ s'.calls = s.calls ∧
      s'.buffer.cell = (Memory.put ⟨s.buffer.cell, []⟩ 0 f.encode).cell := by
  have holds : Stored (s.buffer.put 0 f.encode).cell 0 f.encode := stored_put
  rw [Frame.encode, stored_append] at holds
  have thrown : controlException f.header.opcode =
      ⟨"Websocket heartbeat", ErrorCode.rfc6455WebsocketHeartbeat.toInt⟩ := by
    obtain code | code := beats
    all_goals
      rw [code]
      rfl
  rw [handleRead_received armed, tryDecode_control holds.1 (.inr beats), thrown]
  exact ⟨_, rfl, rfl, rfl, rfl⟩

/-- Any number of them changes nothing but the buffer. -/
theorem handleAll_heartbeats {beats : List Frame} (armed : s.armed = true)
    (beating : ∀ f ∈ beats, f.Heartbeat) (message : String) (later : List (Bool × Completion)) :
    ∃ s', handleAll boost fuel variant e bufCapacity s
        (beats.map (fun f => (true, .received message f.encode)) ++ later) =
        handleAll boost fuel variant e bufCapacity s' later ∧
      s'.armed = true ∧ s'.calls = s.calls ∧ s'.buffer.cell = overlaid s.buffer.cell beats := by
  induction beats generalizing s with
  | nil => exact ⟨s, rfl, armed, rfl, rfl⟩
  | cons f beats ih =>
      obtain ⟨s₁, handled, armed₁, calls₁, buffer₁⟩ := handleRead_heartbeat boost fuel variant e
        bufCapacity armed (beating f List.mem_cons_self) message
      obtain ⟨s', rest, armed', calls', buffer'⟩ :=
        ih armed₁ fun other member => beating other (List.mem_cons_of_mem _ member)
      refine ⟨s', ?_, armed', calls'.trans calls₁, ?_⟩
      · simp only [List.map_cons, List.cons_append, handleAll, handled]
        exact rest
      · rw [buffer', buffer₁]
        rfl

variable {boost fuel variant e bufCapacity}

/-- A read that fails is reported, and the handler goes on unless that throws. -/
theorem handleRead_failed {cell : Nat → Byte} (armed : s.armed = true) (fresh : s.calls = [])
    (buffer : s.buffer.cell = cell) (text : String) (transferred : Nat) :
    ∃ s₁, handleRead boost fuel variant e bufCapacity isOpen s (.failed text transferred) =
        (match (e [.failure text transferred bufCapacity cell]).1 with
        | some thrown => some { s₁ with thrown := some thrown }
        | none => tryDecode boost fuel variant e bufCapacity isOpen ⟨.streamReadFailure, text⟩
            (BitVec.ofNat 32 transferred) s₁) ∧
      s₁.calls = [.failure text transferred bufCapacity cell] ∧
      s₁.buffer.cell = (e [.failure text transferred bufCapacity cell]).2 := by
  have failure : ErrorCode.streamReadFailure ≠ .success := by decide
  refine ⟨(invoke e bufCapacity ⟨.streamReadFailure, text⟩ (BitVec.ofNat 32 transferred)
    { s with armed := false, thrown := none }).2, ?_, ?_, ?_⟩
  · simp only [handleRead, armed, if_true, preprocess, if_pos failure, invoke, fresh, buffer,
      List.nil_append, Invocation.failure]
    generalize e _ = answer
    obtain ⟨thrown, left⟩ := answer
    cases thrown <;> rfl
  · simp only [invoke, fresh, buffer, List.nil_append, Invocation.failure]
  · simp only [invoke, fresh, buffer, List.nil_append, Invocation.failure]

end AsyncRead

open AsyncRead

variable {boost : BoostEndian} {variant : ReadVariant} {e : Callback} {bufCapacity : BitVec 32}
variable {count : IoResult → BitVec 32} {m : Memory Byte} {message : String} {beats : List Frame}
variable {isOpen : Bool} {ending : Ending}

/-- The last completion finds the buffer as the pings and pongs have left it. -/
theorem handleAll_completions (boost : BoostEndian) (fuel : Nat) (variant : ReadVariant)
    (e : Callback) (bufCapacity : BitVec 32) (m : Memory Byte) (message : String) (isOpen : Bool)
    (ending : Ending) (beating : ∀ f ∈ beats, f.Heartbeat) :
    ∃ s, handleAll boost fuel variant e bufCapacity (.call true m)
        (completions message beats isOpen ending) =
        handleRead boost fuel variant e bufCapacity isOpen s ending.completion ∧
      s.armed = true ∧ s.calls = [] ∧ s.buffer.cell = overlaid m.cell beats := by
  obtain ⟨s, handled, rest⟩ := handleAll_heartbeats boost fuel variant e bufCapacity
    (s := .call true m) rfl beating message [(isOpen, ending.completion)]
  refine ⟨s, ?_, rest⟩
  rw [completions, handled]
  simp only [handleAll]
  cases handleRead boost fuel variant e bufCapacity isOpen s ending.completion <;> rfl

/-- The synchronous read passes over them. -/
theorem readAll_heartbeats (boost : BoostEndian) (fuel : Nat) (bufCapacity : BitVec 32)
    (reports : List ReadSome) (m : Memory Byte) (beating : ∀ f ∈ beats, f.Heartbeat) :
    ∃ m', readAll boost fuel bufCapacity (beats.map (fun f => .received f.encode) ++ reports) m =
      readAll boost fuel bufCapacity reports m' := by
  induction beats generalizing m with
  | nil => exact ⟨m, rfl⟩
  | cons f beats ih =>
      obtain ⟨m₁, again⟩ := readAll_heartbeat boost fuel bufCapacity
        (beats.map (fun f => .received f.encode) ++ reports) m (beating f List.mem_cons_self)
      obtain ⟨m', rest⟩ := ih m₁ fun other member => beating other (List.mem_cons_of_mem _ member)
      exact ⟨m', again.trans rest⟩

/-- What the callback is to be called with for a data frame, when it gets what the
handler has decoded in place. -/
theorem prescribed_data_iff {fuel : Nat} {f : Frame} {cell : Nat → Byte} {decoded : Memory Byte}
    (beating : ∀ f ∈ beats, f.Heartbeat) (data : ¬ f.header.Control)
    (understood : f.header.length.negative = false)
    (fits : f.encode.length ≤ bufCapacity.toNat) (enough : f.payload.length ≤ fuel)
    (h : f.Decoded (Memory.put ⟨cell, []⟩ 0 f.encode).cell decoded.cell) :
    Prescribed boost fuel variant bufCapacity count m beats
        ⟨⟨.success, message⟩,
          (handOver bufCapacity f.sizes (BitVec.ofNat 32 f.encode.length) decoded variant).1.cell,
          bufCapacity,
          (handOver bufCapacity f.sizes (BitVec.ofNat 32 f.encode.length) decoded variant).2⟩
        (.frame message f) ↔
      match variant with
      | .payloadOnly => count f.sizes = f.sizes.payloadSize
      | .all => count f.sizes = BitVec.ofNat 32 f.encode.length ∧
          ∀ j, f.encode.length ≤ j → j < bufCapacity.toNat → cell j = 0 := by
  have open_ : ¬ f.header.opcode = 0x8 := fun close => data (.inl close)
  obtain ⟨m₁, skipped⟩ := readAll_heartbeats boost fuel bufCapacity [.received f.encode] m beating
  obtain ⟨m', returned, payload, kept⟩ :=
    readAll_frame boost bufCapacity f [] m₁ data understood fits enough
  have sync : f.Decoded ((m₁.fill 0 0 bufCapacity.toNat).put 0 f.encode).cell m'.cell :=
    ⟨payload, kept⟩
  simp only [Prescribed, if_neg open_, true_and, List.map_append, List.map_cons, List.map_nil]
  cases variant with
  | payloadOnly =>
      obtain ⟨front, zeros⟩ := extractPayload_frame bufCapacity f fits h.payload
      obtain ⟨front', zeros'⟩ := extractPayload_frame bufCapacity f fits payload
      simp only [ReadVariant.read, readPayloadOnly, skipped, returned, handOver]
      constructor
      · rintro ⟨_, _, same, counted, _⟩
        cases same
        exact counted.symm
      · intro counted
        refine ⟨_, _, rfl, counted.symm, ?_⟩
        intro j inside
        obtain within | beyond := Nat.lt_or_ge j f.payload.length
        · have byte := front.cell_eq within
          have byte' := front'.cell_eq within
          rw [Nat.zero_add] at byte byte'
          rw [byte, byte']
        · rw [zeros j beyond inside, zeros' j beyond inside]
  | all =>
      have behind (j : Nat) (beyond : f.encode.length ≤ j) (inside : j < bufCapacity.toNat) :
          decoded.cell j = cell j ∧ m'.cell j = 0 := by
        rw [h.kept j (.inr beyond), sync.kept j (.inr beyond), put_cell_outside (by omega),
          put_cell_outside (by omega), fill_cell_inside (Nat.zero_le j) (by omega)]
        exact ⟨rfl, rfl⟩
      simp only [ReadVariant.read, skipped, returned, handOver]
      constructor
      · rintro ⟨_, _, same, counted, buffer⟩
        cases same
        refine ⟨counted.symm, ?_⟩
        intro j beyond inside
        obtain ⟨left, cleared⟩ := behind j beyond inside
        rw [← left, buffer j inside, cleared]
      · rintro ⟨counted, zeros⟩
        refine ⟨_, _, rfl, counted.symm, ?_⟩
        intro j inside
        obtain within | beyond := Nat.lt_or_ge j f.encode.length
        · exact h.agree sync stored_put stored_put j within
        · obtain ⟨left, cleared⟩ := behind j beyond inside
          rw [left, cleared, zeros j beyond inside]

/-- A transport error is reported once exactly when the callback throws, or what
the buffer then holds makes the handler throw. -/
theorem failed_completes_iff {text : String} {transferred : Nat}
    (beating : ∀ f ∈ beats, f.Heartbeat) :
    Completes boost variant e bufCapacity count m message beats isOpen
        (.failed text transferred) ↔
      Settles variant e bufCapacity count (overlaid m.cell beats) (.failed text transferred) := by
  have last (fuel : Nat) := handleAll_completions boost fuel variant e bufCapacity m message isOpen
    (.failed text transferred) beating
  simp only [Completes, Settles, Prescribed]
  constructor
  · rintro ⟨fuel, s', handled, inv, calls, _⟩
    obtain ⟨s, last, armed, fresh, buffer⟩ := last fuel
    obtain ⟨s₁, failed, calls₁, left⟩ := handleRead_failed armed fresh buffer text transferred
    rw [last, Ending.completion, failed] at handled
    cases thrown : (e [.failure text transferred bufCapacity (overlaid m.cell beats)]).1 with
    | some thrown => exact .inl rfl
    | none =>
        -- the handler goes on, and a second call would be one too many
        right
        by_contra data
        rw [thrown] at handled
        rw [← left] at data
        have length := tryDecode_data data handled
        rw [calls, calls₁] at length
        cases length
  · intro settles
    obtain ⟨s, last, armed, fresh, buffer⟩ := last 0
    obtain ⟨s₁, failed, calls₁, left⟩ := handleRead_failed armed fresh buffer text transferred
    rw [Ending.completion, failed] at last
    cases thrown : (e [.failure text transferred bufCapacity (overlaid m.cell beats)]).1 with
    | some thrown' =>
        rw [thrown] at last
        exact ⟨0, _, last, _, calls₁, rfl⟩
    | none =>
        rw [thrown] at last
        simp only [thrown, Option.isSome_none, Bool.false_eq_true, false_or] at settles
        rw [← left] at settles
        have caught := last.trans (tryDecode_control (HeaderLayout.stored_of _ 0) settles)
        exact ⟨0, _, caught, _, (catchException_calls _ _ _).trans calls₁, rfl⟩

/-- A close is never reported. -/
theorem close_not_completes {f : Frame} {text : String} (beating : ∀ f ∈ beats, f.Heartbeat)
    (close : f.header.opcode = 0x8) :
    ¬ Completes boost variant e bufCapacity count m message beats isOpen (.frame text f) := by
  rintro ⟨fuel, s', handled, inv, calls, _⟩
  obtain ⟨s, last, armed, fresh, _⟩ := handleAll_completions boost fuel variant e bufCapacity m
    message isOpen (.frame text f) beating
  have holds : Stored (s.buffer.put 0 f.encode).cell 0 f.encode := stored_put
  rw [Frame.encode, stored_append] at holds
  rw [last, Ending.completion, handleRead_received armed, tryDecode_control holds.1 (.inl close)]
    at handled
  rw [← Option.some.inj handled, catchException_calls] at calls
  cases fresh.symm.trans calls

/-- A data frame is handed over once exactly when the reader understands its length
and finds what the synchronous read would leave. -/
theorem data_completes_iff {f : Frame} {text : String} (beating : ∀ f ∈ beats, f.Heartbeat)
    (data : ¬ f.header.Control) (fits : f.encode.length ≤ bufCapacity.toNat) :
    Completes boost variant e bufCapacity count m message beats isOpen (.frame text f) ↔
      Settles variant e bufCapacity count (overlaid m.cell beats) (.frame text f) := by
  have bound := bufCapacity.isLt
  have open_ : f.header.opcode ≠ 0x8 := fun close => data (.inl close)
  have last (fuel : Nat) := handleAll_completions boost fuel variant e bufCapacity m message isOpen
    (.frame text f) beating
  simp only [Completes, Settles, open_, ne_eq, not_false_eq_true, true_and]
  constructor
  · rintro ⟨fuel, s', handled, inv, calls, prescribed⟩
    obtain ⟨s, last, armed, fresh, buffer⟩ := last fuel
    rw [last, Ending.completion, handleRead_received armed] at handled
    have finished : ¬ (f.header.length.negative = true ∨ fuel < f.payload.length) := by
      intro endless
      rw [tryDecode_unfinished data (by omega) stored_put endless] at handled
      cases handled
    rw [not_or, Bool.not_eq_true, Nat.not_lt] at finished
    obtain ⟨understood, enough⟩ := finished
    obtain ⟨decoded, s₁, handled', calls', h⟩ := handleRead_frame armed fresh buffer data understood
      (by omega) enough text
    rw [handleRead_received armed, handled] at handled'
    obtain rfl := Option.some.inj handled'
    rw [calls] at calls'
    obtain rfl := (List.cons.inj calls').1
    exact ⟨understood,
      (prescribed_data_iff beating data understood fits enough h).mp prescribed⟩
  · rintro ⟨understood, settles⟩
    obtain ⟨s, last, armed, fresh, buffer⟩ := last f.payload.length
    obtain ⟨decoded, s', handled, calls, h⟩ := handleRead_frame armed fresh buffer data understood
      (by omega) (Nat.le_refl _) text
    refine ⟨f.payload.length, s', last.trans handled, _, calls, ?_⟩
    exact (prescribed_data_iff beating data understood fits (Nat.le_refl _) h).mpr settles

/-- An asynchronous read calls its callback exactly once, and as it should, exactly
when its last completion settles it. -/
theorem async_read_completes_iff (beating : ∀ f ∈ beats, f.Heartbeat)
    (admissible : ending.Admissible bufCapacity) :
    Completes boost variant e bufCapacity count m message beats isOpen ending ↔
      Settles variant e bufCapacity count (overlaid m.cell beats) ending := by
  cases ending with
  | failed text transferred => exact failed_completes_iff beating
  | frame text f =>
      obtain ⟨not_beats, fits⟩ := admissible
      by_cases close : f.header.opcode = 0x8
      · exact iff_of_false (close_not_completes beating close) fun settles => settles.1 close
      · have data : ¬ f.header.Control := by
          rintro (code | code)
          · exact close code
          · exact not_beats code
        exact data_completes_iff beating data fits

/-- The count `async_read_all` gives its callback is that of the whole frame. -/
theorem Frame.sizes_count {f : Frame} (small : f.encode.length < 2 ^ 32) :
    f.sizes.headerSize + f.sizes.payloadSize = BitVec.ofNat 32 f.encode.length ∧
      f.sizes.payloadSize ≠ BitVec.ofNat 32 f.encode.length := by
  obtain ⟨header, payload⟩ := f.sizes_toNat small
  have total := f.encode_length
  have whole : (BitVec.ofNat 32 f.encode.length).toNat = f.encode.length := Nat.mod_eq_of_lt small
  constructor
  · apply BitVec.eq_of_toNat_eq
    rw [BitVec.toNat_add, header, payload, whole, ← total, Nat.mod_eq_of_lt small]
  · intro same
    have length := congrArg BitVec.toNat same
    have size := f.header.size_eq
    rw [payload, whole] at length
    omega

/-- A callback that returns and leaves the buffer alone. -/
def Callback.silent : Callback := fun calls =>
  (none, calls.getLast?.elim (fun _ => 0) (·.buffer))

def oneByteFrame (opcode : BitVec 4) : Frame where
  header := { fin := true, reserved := 0, opcode, length := .short 1, key := none }
  payload := [0xaa]
  length_eq := rfl

/-- A binary frame after a ping. -/
theorem async_read_completes_ping :
    Completes .reversing .payloadOnly .silent 16 (·.payloadSize) ⟨fun _ => 0x55, []⟩ ""
      [oneByteFrame 0x9] true (.frame "" (oneByteFrame 0x2)) := by
  have admissible : (Ending.frame "" (oneByteFrame 0x2)).Admissible 16 := ⟨by decide, by decide⟩
  apply (async_read_completes_iff (by decide) admissible).mpr
  exact ⟨by decide, rfl, rfl⟩

/-- After an error on a cleared buffer the callback is called twice. -/
theorem async_read_failed_twice :
    (∃ s, AsyncRead.handleAll .reversing 0 .payloadOnly .silent 16 (.call true ⟨fun _ => 0, []⟩)
        (completions "" [] true (.failed "End of file" 0)) = some s ∧ s.calls.length = 2) ∧
      ¬ Completes .reversing .payloadOnly .silent 16 (·.payloadSize) ⟨fun _ => 0, []⟩ "" [] true
        (.failed "End of file" 0) := by
  refine ⟨⟨_, rfl, rfl⟩, ?_⟩
  rw [failed_completes_iff (by decide)]
  change ¬ (false = true ∨ (HeaderLayout.of (fun _ => 0) 0).Control)
  decide

end Vee
