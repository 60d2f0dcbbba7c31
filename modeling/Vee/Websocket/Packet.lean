import Vee.Websocket.Delivery

/-!
# The size of a header and the packet around it

`binary_pack_size` repeats the computations of `binary_pack` without its writes.
It is the number of cells that `binary_pack` writes, so a packet allocated with
it holds the header and, directly behind it, the payload.
-/

namespace Vee

open Endian Memory

namespace DataFrameHeader

/-- `binary_pack` returns the size computed by `binary_pack_size`; it writes so many
cells from the start of the buffer on, each once, and touches no other one. -/
structure WritesItsSize (boost : BoostEndian) (h : DataFrameHeader) (opcode : OpcodeId)
    (outBuffer : Nat) (m : Memory Byte) : Prop where
  returned : (h.binaryPack boost opcode outBuffer m).1 = h.binaryPackSize
  accesses : (h.binaryPack boost opcode outBuffer m).2.accesses =
    m.accesses ++ (List.range' outBuffer h.binaryPackSize.toNat).map .write
  outside : ∀ j, j < outBuffer ∨ outBuffer + h.binaryPackSize.toNat ≤ j →
    (h.binaryPack boost opcode outBuffer m).2.cell j = m.cell j

theorem packed_length_le (h : DataFrameHeader) (opcode : OpcodeId) :
    (h.packed opcode).length ≤ (h.sentLayout opcode).size := by
  by_cases plain : h.useMask = true → h.payloadLen.toNat < 126
  · rw [packed_eq_encode plain]
    exact Nat.le_refl _
  · obtain ⟨useMask, extended⟩ := Classical.not_imp.mp plain
    exact Nat.le_of_lt (packed_length_lt opcode useMask extended)

/-- The predicted size is the number of bytes. -/
theorem binaryPackSize_toNat (h : DataFrameHeader) (opcode : OpcodeId) :
    h.binaryPackSize.toNat = (h.packed opcode).length := by
  have written := h.packed_length_le opcode
  have small := (h.sentLayout opcode).size_le
  rw [binaryPackSize_eq opcode, BitVec.toNat_ofNat]
  exact Nat.mod_eq_of_lt (by omega)

theorem writesItsSize (boost : BoostEndian) (h : DataFrameHeader) (opcode : OpcodeId)
    (outBuffer : Nat) (m : Memory Byte) : WritesItsSize boost h opcode outBuffer m where
  returned := by
    rw [binaryPack_eq, binaryPackSize_eq opcode]
  accesses := by
    rw [binaryPack_eq, h.binaryPackSize_toNat opcode]
    exact put_accesses
  outside := by
    intro j beyond
    rw [h.binaryPackSize_toNat opcode] at beyond
    rw [binaryPack_eq]
    exact put_cell_outside beyond

end DataFrameHeader

namespace XwebsocketStream

/-- What `_convert_to_websocket_form` allocates is exactly what it writes: the
header, and the payload directly behind it. -/
def FillsPacket (boost : BoostEndian) (opcode : OpcodeId) (data : Nat → Byte)
    (len : BitVec 32) : Prop :=
  ∃ result packet packetData,
    convertToWebsocketForm boost opcode data len = some (result, packet) ∧
    fillPacket boost { payloadLen := len.setWidth 64 } opcode data len
      (len + result.headerSize) = some packetData ∧
    packet.length = result.headerSize.toNat + len.toNat ∧
    packetData.accesses = (List.range' 0 packet.length).map .write ∧
    packet.drop result.headerSize.toNat = slice data 0 len.toNat

theorem fillsPacket (boost : BoostEndian) (opcode : OpcodeId) (data : Nat → Byte)
    {len : BitVec 32} (room : len.toNat + 14 < 2 ^ 32) : FillsPacket boost opcode data len := by
  let msg : Message := ⟨opcode, data, len⟩
  have header : msg.header.binaryPackSize.toNat = msg.frame.header.size := msg.headerSize_eq
  have header_le := msg.frame.header.size_le
  have small : msg.frameLength < 2 ^ 32 := by
    simp only [Message.frameLength]
    rw [header]
    change msg.frame.header.size + len.toNat < 2 ^ 32
    omega
  have payload : slice data 0 len.toNat = msg.payload := rfl
  refine ⟨_, _, _, msg.convert_eq boost small, (msg.fillPacket_eq boost).trans (if_pos small),
    ?_, ?_, ?_⟩
  · exact msg.frame_length
  · rw [put_accesses]
    exact List.nil_append _
  · rw [header, msg.frame_encode, payload]
    exact List.drop_left

/-- The predicted size is right for every header, so every packet whose size does
not wrap is filled exactly. -/
theorem header_size_matches_writer (boost : BoostEndian) :
    (∀ (h : DataFrameHeader) opcode outBuffer m,
      h.WritesItsSize boost opcode outBuffer m) ∧
    ∀ opcode data (len : BitVec 32), len.toNat + 14 < 2 ^ 32 →
      FillsPacket boost opcode data len :=
  ⟨fun h => h.writesItsSize boost, fun opcode data _ room => fillsPacket boost opcode data room⟩

theorem header_size_matches_writer_masked :
    DataFrameHeader.WritesItsSize .reversing { useMask := true, payloadLen := 200 } .textFrame 5
      ⟨fun _ => 0xAA, []⟩ ∧
    FillsPacket .reversing .textFrame (fun _ => 0x41) 200 :=
  ⟨(header_size_matches_writer .reversing).1 _ _ _ _,
    (header_size_matches_writer .reversing).2 _ _ 200 (by decide)⟩

end XwebsocketStream
end Vee
