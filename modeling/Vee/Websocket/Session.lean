import Vee.Websocket.Delivery

/-!
# Reading among control frames

`read_payload_only` on a sequence of written frames of any opcode. A ping or a
pong is passed over and the read starts again, a close ends the call with an
exception, and every other frame is returned. One call takes the frames up to
the first that is neither a ping nor a pong and leaves the others to later calls.
-/

namespace Vee

open Endian Memory XwebsocketStream

namespace XwebsocketStream

variable (boost : BoostEndian) (fuel : Nat) (bufCapacity : BitVec 32) {f : Frame}
variable (reports : List ReadSome) (m : Memory Byte)

/-- A control frame is decoded far enough to throw. -/
theorem readFrame_control (control : f.header.Control) :
    ∃ m', readFrame boost fuel bufCapacity (.received f.encode) m =
      some (.error (controlException f.header.opcode), m') := by
  obtain ⟨m', filled⟩ : ∃ m', (m.fill 0 0 bufCapacity.toNat).put 0 f.encode = m' := ⟨_, rfl⟩
  have stored : Stored m'.cell 0 (f.header.encode ++ masked f.header.mask f.payload) := by
    rw [← filled]
    exact stored_put
  have thrown := preprocess_control boost fuel (BitVec.ofNat 32 f.encode.length)
    (stored_append.mp stored).1 control
  refine ⟨m'.record ((List.range' 0 f.header.size).map .read), ?_⟩
  simp only [readFrame, tcpRead, filled, thrown]

/-- The loop of `read_all` goes on after a ping or a pong. -/
theorem readAll_heartbeat (beats : f.header.opcode = 0x9 ∨ f.header.opcode = 0xA) :
    ∃ m', readAll boost fuel bufCapacity (.received f.encode :: reports) m =
      readAll boost fuel bufCapacity reports m' := by
  obtain ⟨m', thrown⟩ := readFrame_control boost fuel bufCapacity m (.inr beats)
  refine ⟨m', ?_⟩
  simp only [readAll, thrown]
  obtain code | code := beats
  all_goals
    rw [code]
    rfl

/-- It ends after a close. -/
theorem readAll_close (close : f.header.opcode = 0x8) :
    ∃ m', readAll boost fuel bufCapacity (.received f.encode :: reports) m =
      some (.error ⟨"Connection is closed by host", ErrorCode.streamDisconnectedByHost.toInt⟩,
        m', reports) := by
  obtain ⟨m', thrown⟩ := readFrame_control boost fuel bufCapacity m (.inl close)
  refine ⟨m', ?_⟩
  simp only [readAll, thrown]
  rw [close]
  rfl

end XwebsocketStream

namespace Message

/-- A ping or a pong. -/
def Heartbeat (msg : Message) : Prop := msg.opcode = .ping ∨ msg.opcode = .pong

instance (msg : Message) : Decidable msg.Heartbeat := by
  unfold Heartbeat
  infer_instance

/-- The report of a read that delivers the packet whole. -/
def received (boost : BoostEndian) (msg : Message) : Option ReadSome :=
  (msg.packet boost).map .received

variable {msg : Message}

theorem received_eq (boost : BoostEndian) (small : msg.frameLength < 2 ^ 32) :
    msg.received boost = some msg.frame.received := by
  rw [received, packet_eq boost small]
  rfl

/-- Packets that fit a buffer are delivered as frames. -/
theorem map_received (boost : BoostEndian) {messages : List Message} {bufCapacity : BitVec 32}
    (fits : ∀ msg ∈ messages, msg.frameLength ≤ bufCapacity.toNat) :
    (messages.map fun msg => msg.frame.received).map some = messages.map (received boost) := by
  rw [List.map_map]
  apply List.map_congr_left
  intro msg member
  exact (received_eq boost (Nat.lt_of_le_of_lt (fits msg member) bufCapacity.isLt)).symm

theorem Heartbeat.opcode (beats : msg.Heartbeat) :
    msg.frame.header.opcode = 0x9 ∨ msg.frame.header.opcode = 0xA := by
  change msg.opcode.code = 0x9 ∨ msg.opcode.code = 0xA
  obtain kind | kind := beats
  · rw [kind]
    exact .inl rfl
  · rw [kind]
    exact .inr rfl

theorem frame_not_control (not_beats : ¬ msg.Heartbeat) (open_ : msg.opcode ≠ .connnectionClose) :
    ¬ msg.frame.header.Control := by
  change ¬ (msg.opcode.code = 0x8 ∨ msg.opcode.code = 0x9 ∨ msg.opcode.code = 0xA)
  simp only [Heartbeat] at not_beats
  cases kind : msg.opcode with
  | connnectionClose => exact absurd kind open_
  | ping => exact absurd (.inl kind) not_beats
  | pong => exact absurd (.inr kind) not_beats
  | _ => decide

end Message

/-- What one call of `read_payload_only` makes of these frames, each the report
of one read. Without a frame to return it waits. -/
def ReadsBack (boost : BoostEndian) (bufCapacity : BitVec 32) : List Message →
    Option (Except Exception IoResult × Memory Byte × List ReadSome) → Prop
  | [], outcome => outcome = none
  | msg :: later, outcome =>
      if msg.Heartbeat then ReadsBack boost bufCapacity later outcome
      else if msg.opcode = .connnectionClose then
        ∃ m' reports, outcome = some (.error
          ⟨"Connection is closed by host", ErrorCode.streamDisconnectedByHost.toInt⟩, m',
          reports) ∧ reports.map some = later.map (Message.received boost)
      else
        ∃ result m' reports, outcome = some (.ok result, m', reports) ∧
          reports.map some = later.map (Message.received boost) ∧
          result.payloadSize.toNat = msg.len.toNat ∧
          result.headerSize.toNat = msg.frameLength - result.payloadSize.toNat ∧
          Stored m'.cell 0 msg.payload ∧
          ∀ j, msg.len.toNat ≤ j → j < bufCapacity.toNat → m'.cell j = 0

/-- The frames as reports of reads. -/
theorem frames_read_back (boost : BoostEndian) (bufCapacity : BitVec 32)
    (messages : List Message) (m : Memory Byte) (fuel : Nat)
    (fits : ∀ msg ∈ messages, msg.frameLength ≤ bufCapacity.toNat)
    (enough : ∀ msg ∈ messages, msg.len.toNat ≤ fuel) :
    ReadsBack boost bufCapacity messages (readPayloadOnly boost fuel bufCapacity
      (messages.map fun msg => msg.frame.received) m) := by
  induction messages generalizing m with
  | nil => rfl
  | cons msg later ih =>
      have fits_msg := fits msg List.mem_cons_self
      have fits_later : ∀ other ∈ later, other.frameLength ≤ bufCapacity.toNat :=
        fun other member => fits other (List.mem_cons_of_mem _ member)
      have delivered := Message.map_received boost fits_later
      simp only [ReadsBack, List.map_cons, Frame.received]
      split
      · rename_i beats
        obtain ⟨m', again⟩ := readAll_heartbeat boost fuel bufCapacity
          (later.map fun msg => msg.frame.received) m beats.opcode
        have rest := ih m' fits_later fun other member =>
          enough other (List.mem_cons_of_mem _ member)
        simp only [Frame.received] at again rest
        simp only [readPayloadOnly, again]
        exact rest
      · split
        · rename_i close
          obtain ⟨m', ended⟩ := readAll_close boost fuel bufCapacity (f := msg.frame)
            (later.map fun msg => msg.frame.received) m (by
              change msg.opcode.code = 0x8
              rw [close]
              rfl)
          refine ⟨m', _, ?_, delivered⟩
          simp only [Frame.received] at ended
          simp only [readPayloadOnly, ended, Frame.received]
        · rename_i not_beats not_close
          have length : msg.frame.payload.length = msg.len.toNat := slice_length
          obtain ⟨result, m', returned, header, size, payload, zeros⟩ := readPayloadOnly_frame
            boost bufCapacity msg.frame (later.map fun msg => msg.frame.received) m
            (Message.frame_not_control not_beats not_close) msg.frame_understood
            (by rwa [msg.frame_length]) (length.trans_le (enough msg List.mem_cons_self))
          rw [length] at size zeros
          refine ⟨result, m', _, returned, delivered, size, ?_, payload, zeros⟩
          rw [header, size, ← msg.frame_length, Frame.encode_length, length]
          omega

/-- Written frames of all opcodes, each delivered whole, read back; `fuel` bounds the
iterations over one payload. -/
theorem written_frames_read_back (boost : BoostEndian) (bufCapacity : BitVec 32)
    (messages : List Message) (m : Memory Byte) (fuel : Nat)
    (fits : ∀ msg ∈ messages, msg.frameLength ≤ bufCapacity.toNat)
    (enough : ∀ msg ∈ messages, msg.len.toNat ≤ fuel) :
    ∃ reports : List ReadSome, reports.map some = messages.map (Message.received boost) ∧
      ReadsBack boost bufCapacity messages (readPayloadOnly boost fuel bufCapacity reports m) :=
  ⟨_, Message.map_received boost fits, frames_read_back boost bufCapacity messages m fuel fits
    enough⟩

/-- A ping in front of a message and another message behind it. -/
theorem written_frames_read_back_three :
    ReadsBack .reversing 16
      [⟨.ping, fun _ => 0xcc, 1⟩, ⟨.textFrame, fun _ => 0xbb, 2⟩, ⟨.binaryFrame, fun _ => 0xaa, 1⟩]
      (readPayloadOnly .reversing 2 16
        [.received [0x89, 1, 0xcc], .received [0x81, 2, 0xbb, 0xbb], .received [0x82, 1, 0xaa]]
        ⟨fun _ => 0xff, []⟩) := by
  obtain ⟨reports, delivered, back⟩ := written_frames_read_back .reversing 16
    [⟨.ping, fun _ => 0xcc, 1⟩, ⟨.textFrame, fun _ => 0xbb, 2⟩, ⟨.binaryFrame, fun _ => 0xaa, 1⟩]
    ⟨fun _ => 0xff, []⟩ 2 (by decide) (by decide)
  have packets : reports =
      [.received [0x89, 1, 0xcc], .received [0x81, 2, 0xbb, 0xbb], .received [0x82, 1, 0xaa]] := by
    apply List.map_injective_iff.mpr (Option.some_injective ReadSome)
    rw [delivered]
    decide
  rwa [packets] at back

end Vee
