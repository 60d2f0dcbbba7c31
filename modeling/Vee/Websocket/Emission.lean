import Vee.Websocket.Session

/-!
# Emitted frames

The packets of `_convert_to_websocket_form` against the encoding of RFC 6455,
which asks for the shortest form of the length. `binary_pack` compares the length
with INT16_MAX, so it takes the 64-bit form for a range of lengths for which the
16-bit form is due.
-/

namespace Vee

open Endian Memory XwebsocketStream

/-- The opcodes of RFC 6455. -/
def OpcodeId.rfcCode : OpcodeId → Option (BitVec 4)
  | .continuationFrame => some 0x0
  | .textFrame => some 0x1
  | .binaryFrame => some 0x2
  | .connnectionClose => some 0x8
  | .ping => some 0x9
  | .pong => some 0xA
  | .undefined | .reservedForFurther => none

theorem OpcodeId.code_of_rfcCode {opcode : OpcodeId} {code : BitVec 4}
    (defined : opcode.rfcCode = some code) : opcode.code = code := by
  cases opcode <;> cases defined <;> rfl

namespace Frame

/-- The header found at the start of a frame is its own. -/
theorem of_eq_header {f : Frame} {cell : Nat → Byte} {i : Nat} (holds : Stored cell i f.encode) :
    HeaderLayout.of cell i = f.header := by
  rw [encode, stored_append] at holds
  exact HeaderLayout.of_eq holds.1

/-- Frames that are encoded alike have the same header. -/
theorem header_eq_of_encode {f g : Frame} (same : f.encode = g.encode) : f.header = g.header := by
  have stored := stored_getD g.encode 0
  rw [← of_eq_header stored, ← same]
  exact (of_eq_header (stored_getD f.encode 0)).symm

end Frame

namespace DataFrameHeader

/-- The forms the writer chooses are the shortest ones up to INT16_MAX and above
the lengths of 16 bits. -/
theorem sentLength_eq_minimal_iff (payloadLen : BitVec 64) :
    sentLength payloadLen = .minimal payloadLen.toNat ↔
      ¬ (32768 ≤ payloadLen.toNat ∧ payloadLen.toNat ≤ 65535) := by
  simp only [sentLength, LengthField.minimal]
  split
  · rename_i short
    exact ⟨fun _ => by omega, fun _ => rfl⟩
  · split
    · rename_i medium
      rw [if_pos (by omega)]
      constructor
      · intro _
        omega
      · intro _
        rfl
    · split
      · constructor
        · intro same
          cases same
        · intro outside
          omega
      · constructor
        · intro _
          omega
        · intro _
          rw [BitVec.ofNat_toNat, BitVec.setWidth_eq]

end DataFrameHeader

namespace Message

variable {msg : Message}

/-- The unmasked frame that RFC 6455 asks for. -/
def rfcFrame (msg : Message) (code : BitVec 4) : Frame where
  header :=
    { fin := true, reserved := 0, opcode := code, length := .minimal msg.len.toNat, key := none }
  payload := msg.payload
  length_eq := by
    have bound := msg.len.isLt
    have length : msg.payload.length = msg.len.toNat := slice_length
    rw [length]
    exact LengthField.minimal_value (by omega)

/-- The packet is this frame, of the size that was reserved for it, and both
`write` and `async_write` hand it over as it is. -/
structure Emits (boost : BoostEndian) (msg : Message) (f : Frame) : Prop where
  packet : msg.packet boost = some f.encode
  size : ∀ result packet,
    convertToWebsocketForm boost msg.opcode msg.data msg.len = some (result, packet) →
      packet.length = result.headerSize.toNat + msg.len.toNat
  written : ∀ accepted wire,
    (write boost msg.opcode msg.data msg.len accepted wire).map Prod.snd =
      some (wire ++ f.encode.take accepted)
  asyncWritten : asyncWrite boost msg.opcode msg.data msg.len true = some (.ok f.encode)

theorem frameLength_le (msg : Message) : msg.frameLength ≤ msg.len.toNat + 10 := by
  have size := msg.frame.header.size_eq
  have extended := msg.frame.header.length.extended_length
  have key : msg.frame.header.keyBytes = [] := rfl
  rw [key, extended] at size
  simp only [frameLength]
  rw [msg.headerSize_eq, size, List.length_nil]
  split
  · omega
  · split <;> omega

/-- What is emitted is always the frame of the writer's own choice. -/
theorem emits_frame (boost : BoostEndian) (small : msg.frameLength < 2 ^ 32) :
    msg.Emits boost msg.frame := by
  have converted := convert_eq boost small
  refine ⟨packet_eq boost small, fun result packet returned => ?_, fun accepted wire => ?_, ?_⟩
  · cases converted.symm.trans returned
    exact msg.frame_length
  · simp only [write, converted, tcpWrite, Option.map_some]
  · have whole : (msg.header.binaryPackSize + msg.len).toNat = msg.frame.encode.length := by
      rw [frame_length, BitVec.toNat_add]
      exact Nat.mod_eq_of_lt small
    simp only [asyncWrite, converted, tcpAsyncWrite, if_true, whole, List.take_length]

theorem frame_eq_rfcFrame_iff {code : BitVec 4} (defined : msg.opcode.rfcCode = some code) :
    msg.frame = msg.rfcFrame code ↔ ¬ (32768 ≤ msg.len.toNat ∧ msg.len.toNat ≤ 65535) := by
  have length : (msg.len.setWidth 64).toNat = msg.len.toNat :=
    BitVec.toNat_setWidth_of_le (by decide)
  have chosen := DataFrameHeader.sentLength_eq_minimal_iff (msg.len.setWidth 64)
  rw [length] at chosen
  rw [← chosen]
  constructor
  · intro same
    exact congrArg (fun f => f.header.length) same
  · intro form
    have header : msg.frame.header = (msg.rfcFrame code).header := by
      change HeaderLayout.mk true 0 msg.opcode.code
        (DataFrameHeader.sentLength (msg.len.setWidth 64)) none = _
      rw [form, OpcodeId.code_of_rfcCode defined]
      rfl
    exact Frame.ext header rfl

/-- A packet that is the frame of RFC 6455 shows that the writer chose its form. -/
theorem Emits.frame_eq {boost : BoostEndian} {code : BitVec 4}
    (emits : msg.Emits boost (msg.rfcFrame code)) (small : msg.frameLength < 2 ^ 32) :
    msg.frame = msg.rfcFrame code := by
  have same := Option.some.inj ((emits_frame boost small).packet.symm.trans emits.packet)
  exact Frame.ext (Frame.header_eq_of_encode same) rfl

/-- The emitted packet is the frame of RFC 6455 exactly outside the range. -/
theorem emits_rfcFrame_iff (boost : BoostEndian) (msg : Message) {code : BitVec 4}
    (defined : msg.opcode.rfcCode = some code) (small : msg.len.toNat < 2 ^ 32 - 10) :
    msg.Emits boost (msg.rfcFrame code) ↔
      ¬ (32768 ≤ msg.len.toNat ∧ msg.len.toNat ≤ 65535) := by
  have length := msg.frameLength_le
  have fits : msg.frameLength < 2 ^ 32 := by omega
  rw [← frame_eq_rfcFrame_iff defined]
  constructor
  · intro emits
    exact emits.frame_eq fits
  · intro same
    rw [← same]
    exact emits_frame boost fits

theorem emits_rfcFrame_iff_text :
    Message.Emits .reversing ⟨.textFrame, fun _ => 0x61, 3⟩
      (Message.rfcFrame ⟨.textFrame, fun _ => 0x61, 3⟩ 0x1) :=
  (emits_rfcFrame_iff .reversing ⟨.textFrame, fun _ => 0x61, 3⟩ rfl (by decide)).mpr (by decide)

/-- The first length that a signed number of 16 bits does not hold. -/
theorem long_form_emitted_early : ¬ ∀ boost (msg : Message) (code : BitVec 4),
    msg.opcode.rfcCode = some code → msg.len.toNat < 2 ^ 32 - 10 →
    (msg.opcode = .connnectionClose ∨ msg.Heartbeat → msg.len.toNat ≤ 125) →
    msg.Emits boost (msg.rfcFrame code) := by
  intro all
  let msg : Message := ⟨.binaryFrame, fun _ => 0, 32768⟩
  have emits := all .reversing msg 0x2 rfl (by decide) (by decide)
  have length := msg.frameLength_le
  have small : msg.len.toNat = 32768 := by decide
  have form := (frame_eq_rfcFrame_iff rfl).mp (emits.frame_eq (by omega))
  exact form (by omega)

end Message
end Vee
