import Vee.Websocket.Receive

/-!
# Messages from one end to the other

What `write` puts on the wire, as frames, and what successive calls of
`read_payload_only` return at the other end. Each call of `read_some` is taken
for exactly one frame: when the bytes arrive so, every payload is returned, and
in order; when they arrive in other pieces, messages can be lost.
-/

namespace Vee

open Endian Memory XwebsocketStream

/-- A call of `write`. -/
structure Message where
  opcode : OpcodeId
  data : Nat → Byte
  len : BitVec 32

namespace Message

def payload (msg : Message) : List Byte := slice msg.data 0 msg.len.toNat

/-- A binary, text or continuation message. -/
def IsData (msg : Message) : Prop :=
  msg.opcode = .binaryFrame ∨ msg.opcode = .textFrame ∨ msg.opcode = .continuationFrame

instance (msg : Message) : Decidable msg.IsData := by
  unfold IsData
  infer_instance

/-- The header object in `_convert_to_websocket_form`. -/
def header (msg : Message) : DataFrameHeader := { payloadLen := msg.len.setWidth 64 }

def frameLength (msg : Message) : Nat := msg.header.binaryPackSize.toNat + msg.len.toNat

/-- The packet of `_convert_to_websocket_form`, where it fits the vector. -/
def packet (boost : BoostEndian) (msg : Message) : Option (List Byte) :=
  (convertToWebsocketForm boost msg.opcode msg.data msg.len).map Prod.snd

end Message

/-- The wire after a list of messages of which every byte is accepted. -/
def sendAll (boost : BoostEndian) : List Message → List Byte → Option (List Byte)
  | [], wire => some wire
  | msg :: messages, wire =>
      match write boost msg.opcode msg.data msg.len msg.frameLength wire with
      | none => none
      | some (_, wire) => sendAll boost messages wire

/-- Successive calls of `read_payload_only` on one buffer return these payloads,
and no call returns another one. -/
def Delivers (boost : BoostEndian) (bufCapacity : BitVec 32) :
    List (List Byte) → List ReadSome → Memory Byte → Prop
  | [], reports, m => ∀ fuel, readPayloadOnly boost fuel bufCapacity reports m = none
  | payload :: payloads, reports, m => ∃ fuel result m' reports',
      readPayloadOnly boost fuel bufCapacity reports m = some (.ok result, m', reports') ∧
      result.payloadSize.toNat = payload.length ∧ Stored m'.cell 0 payload ∧
      Delivers boost bufCapacity payloads reports' m'

/-- Masking with the zero key. -/
theorem masked_zero (payload : List Byte) : masked (.replicate 4 0) payload = payload := by
  simp only [masked]
  apply List.ext_getElem
  · rw [List.length_mapIdx]
  · intro i _ _
    rw [List.getElem_mapIdx, Vector.getElem_replicate]
    exact BitVec.xor_zero

namespace Message

variable {msg : Message}

/-- The frame of a message. -/
def frame (msg : Message) : Frame where
  header := msg.header.sentLayout msg.opcode
  payload := msg.payload
  length_eq := by
    change (DataFrameHeader.sentLength (msg.len.setWidth 64)).value = _
    rw [DataFrameHeader.sentLength_value, BitVec.toNat_setWidth_of_le (by decide)]
    exact slice_length.symm

theorem frame_encode (msg : Message) :
    msg.frame.encode = (msg.header.sentLayout msg.opcode).encode ++ msg.payload := by
  change _ ++ masked (.replicate 4 0) msg.payload = _
  rw [masked_zero]
  rfl

/-- The header is written without a mask, so all of it is. -/
theorem packed_eq (msg : Message) :
    msg.header.packed msg.opcode = (msg.header.sentLayout msg.opcode).encode :=
  DataFrameHeader.packed_eq_encode fun masked => absurd masked Bool.false_ne_true

theorem headerSize_eq (msg : Message) :
    msg.header.binaryPackSize.toNat = msg.frame.header.size := by
  have small := msg.frame.header.size_le
  rw [DataFrameHeader.binaryPackSize_eq msg.opcode, packed_eq]
  change (BitVec.ofNat 32 msg.frame.header.size).toNat = msg.frame.header.size
  exact Nat.mod_eq_of_lt (by omega)

theorem frame_length (msg : Message) : msg.frame.encode.length = msg.frameLength := by
  have length : msg.frame.payload.length = msg.len.toNat := slice_length
  rw [Frame.encode_length, length]
  simp only [frameLength]
  rw [headerSize_eq]

/-- The size of the vector is that of the frame, in 32 bits. -/
theorem packetSize_toNat (msg : Message) :
    (msg.len + msg.header.binaryPackSize).toNat = msg.frameLength % 2 ^ 32 := by
  rw [BitVec.toNat_add, Nat.add_comm]
  rfl

/-- `_convert_to_websocket_form` fills the vector with the frame, if it fits. -/
theorem fillPacket_eq (boost : BoostEndian) (msg : Message) :
    fillPacket boost msg.header msg.opcode msg.data msg.len
        (msg.len + msg.header.binaryPackSize) =
      if msg.frameLength < 2 ^ 32 then
        some (Memory.put ({ cell := fun _ => 0 } : Memory Byte) 0 msg.frame.encode)
      else none := by
  have filled : (Memory.put ({ cell := fun _ => 0 } : Memory Byte) 0
        (msg.header.packed msg.opcode)).put msg.header.binaryPackSize.toNat msg.payload =
      Memory.put ({ cell := fun _ => 0 } : Memory Byte) 0 msg.frame.encode := by
    rw [msg.headerSize_eq, packed_eq, frame_encode, ← put_put, Nat.zero_add]
    rfl
  have fits : (Memory.put ({ cell := fun _ => 0 } : Memory Byte) 0 msg.frame.encode).Inside
      (msg.len + msg.header.binaryPackSize).toNat ↔ msg.frameLength < 2 ^ 32 := by
    rw [put_inside_iff rfl, frame_length, packetSize_toNat]
    omega
  unfold fillPacket
  dsimp only
  rw [DataFrameHeader.binaryPack_eq, ← DataFrameHeader.binaryPackSize_eq]
  dsimp only
  change (if Inside (put _ _ msg.payload) _ then some (put _ _ msg.payload) else none) = _
  rw [filled]
  exact if_congr fits rfl rfl

/-- What `_convert_to_websocket_form` returns is the frame, with its sizes. -/
theorem convert_eq (boost : BoostEndian) (small : msg.frameLength < 2 ^ 32) :
    convertToWebsocketForm boost msg.opcode msg.data msg.len =
      some ({ headerSize := msg.header.binaryPackSize, payloadSize := msg.len },
        msg.frame.encode) := by
  have size : (msg.len + msg.header.binaryPackSize).toNat = msg.frame.encode.length := by
    rw [packetSize_toNat, frame_length]
    exact Nat.mod_eq_of_lt small
  have len : (msg.len.setWidth 64).setWidth 32 = msg.len := by
    rw [BitVec.setWidth_setWidth_of_le _ (by decide), BitVec.setWidth_eq]
  have filled := (msg.fillPacket_eq boost).trans (if_pos small)
  simp only [header] at filled size ⊢
  simp only [convertToWebsocketForm, filled, len, size]
  rw [show slice _ 0 _ = msg.frame.encode from stored_put]

/-- A frame of `2 ^ 32` bytes or more overruns the vector. -/
theorem convert_eq_none (boost : BoostEndian) (large : 2 ^ 32 ≤ msg.frameLength) :
    convertToWebsocketForm boost msg.opcode msg.data msg.len = none := by
  have filled := (msg.fillPacket_eq boost).trans (if_neg (Nat.not_lt.mpr large))
  simp only [header] at filled
  simp only [convertToWebsocketForm, filled]

/-- The packet is the frame. -/
theorem packet_eq (boost : BoostEndian) (small : msg.frameLength < 2 ^ 32) :
    msg.packet boost = some msg.frame.encode := by
  rw [packet, convert_eq boost small]
  rfl

/-- The writer never chooses a length that is negative to the reader. -/
theorem frame_understood (msg : Message) : msg.frame.header.length.negative = false := by
  change (DataFrameHeader.sentLength (msg.len.setWidth 64)).negative = false
  simp only [DataFrameHeader.sentLength]
  split
  · rfl
  · split
    · change BitVec.msb _ = false
      rw [BitVec.msb_eq_false_iff_two_mul_lt, BitVec.toNat_setWidth]
      omega
    · rfl

theorem frame_data (data : msg.IsData) : ¬ msg.frame.header.Control := by
  change ¬ (msg.opcode.code = 0x8 ∨ msg.opcode.code = 0x9 ∨ msg.opcode.code = 0xA)
  obtain kind | kind | kind := data
  all_goals
    rw [kind]
    decide

end Message

/-- The report of a read that delivers the frame whole. -/
def Frame.received (f : Frame) : ReadSome := .received f.encode

/-- The sizes that a read of the frame returns. -/
def Frame.sizes (f : Frame) : IoResult where
  headerSize := BitVec.ofNat 32 f.header.size
  payloadSize := BitVec.ofNat 32 f.payload.length

theorem Frame.sizes_toNat {f : Frame} (small : f.encode.length < 2 ^ 32) :
    f.sizes.headerSize.toNat = f.header.size ∧ f.sizes.payloadSize.toNat = f.payload.length := by
  rw [f.encode_length] at small
  exact ⟨Nat.mod_eq_of_lt (by omega), Nat.mod_eq_of_lt (by omega)⟩

/-- The decoded payload is moved to the front, and the rest of the buffer cleared. -/
theorem extractPayload_frame (bufCapacity : BitVec 32) (f : Frame) {m : Memory Byte}
    (fits : f.encode.length ≤ bufCapacity.toNat) (payload : Stored m.cell f.header.size f.payload) :
    Stored (extractPayload bufCapacity f.sizes m).cell 0 f.payload ∧
      ∀ j, f.payload.length ≤ j → j < bufCapacity.toNat →
        (extractPayload bufCapacity f.sizes m).cell j = 0 := by
  have bound := bufCapacity.isLt
  have total := f.encode_length
  obtain ⟨size, length⟩ := f.sizes_toNat (by omega)
  have rest : (bufCapacity - f.sizes.payloadSize).toNat =
      bufCapacity.toNat - f.payload.length := by
    rw [BitVec.toNat_sub, length]
    omega
  simp only [extractPayload]
  rw [size, length, rest]
  constructor
  · rw [stored_iff]
    intro j inside
    rw [fill_cell_outside (by omega), move_cell_inside inside]
    exact payload.cell_eq inside
  · intro j lower upper
    exact fill_cell_inside lower (by omega)

/-- A call of `read_all` whose first report is exactly one frame returns its sizes,
with the payload decoded in its place behind the header. -/
theorem readAll_frame (boost : BoostEndian) (bufCapacity : BitVec 32) (f : Frame)
    (reports : List ReadSome) (m : Memory Byte) {fuel : Nat} (data : ¬ f.header.Control)
    (understood : f.header.length.negative = false)
    (fits : f.encode.length ≤ bufCapacity.toNat) (enough : f.payload.length ≤ fuel) :
    ∃ m', readAll boost fuel bufCapacity (.received f.encode :: reports) m =
        some (.ok f.sizes, m', reports) ∧
      Stored m'.cell f.header.size f.payload ∧
      ∀ j, j < f.header.size ∨ f.encode.length ≤ j →
        m'.cell j = ((m.fill 0 0 bufCapacity.toNat).put 0 f.encode).cell j := by
  have bound := bufCapacity.isLt
  obtain ⟨header, m', returned, _, payload, kept⟩ :=
    preprocess_frame boost f (m := (m.fill 0 0 bufCapacity.toNat).put 0 f.encode)
      data understood (by omega) stored_put enough
  refine ⟨m', ?_, payload, kept⟩
  simp only [readAll, readFrame, tcpRead, returned]
  rfl

/-- A call whose first report is exactly one frame returns its payload, and the
rest of the buffer is cleared. -/
theorem readPayloadOnly_frame (boost : BoostEndian) (bufCapacity : BitVec 32) (f : Frame)
    (reports : List ReadSome) (m : Memory Byte) {fuel : Nat} (data : ¬ f.header.Control)
    (understood : f.header.length.negative = false)
    (fits : f.encode.length ≤ bufCapacity.toNat) (enough : f.payload.length ≤ fuel) :
    ∃ result m', readPayloadOnly boost fuel bufCapacity
        (.received f.encode :: reports) m = some (.ok result, m', reports) ∧
      result.headerSize.toNat = f.header.size ∧
      result.payloadSize.toNat = f.payload.length ∧ Stored m'.cell 0 f.payload ∧
      ∀ j, f.payload.length ≤ j → j < bufCapacity.toNat → m'.cell j = 0 := by
  have bound := bufCapacity.isLt
  obtain ⟨m', returned, decoded, _⟩ :=
    readAll_frame boost bufCapacity f reports m data understood fits enough
  obtain ⟨size, length⟩ := f.sizes_toNat (by omega)
  obtain ⟨payload, zeros⟩ := extractPayload_frame bufCapacity f fits decoded
  refine ⟨f.sizes, _, ?_, size, length, payload, zeros⟩
  simp only [readPayloadOnly, returned]

/-- Every call takes at least one report. -/
theorem readAll_consumes {boost : BoostEndian} {fuel : Nat} {bufCapacity : BitVec 32}
    {reports reports' : List ReadSome} {m m' : Memory Byte} {result : Except Exception IoResult}
    (returned : readAll boost fuel bufCapacity reports m = some (result, m', reports')) :
    reports'.length < reports.length := by
  induction reports generalizing m with
  | nil => cases returned
  | cons report reports ih =>
      simp only [readAll] at returned
      split at returned
      · cases returned
      · cases returned
        exact Nat.lt_succ_self _
      · split at returned
        · exact Nat.lt_succ_of_lt (ih returned)
        · cases returned
          exact Nat.lt_succ_self _

theorem readPayloadOnly_consumes {boost : BoostEndian} {fuel : Nat} {bufCapacity : BitVec 32}
    {reports reports' : List ReadSome} {m m' : Memory Byte} {result : Except Exception IoResult}
    (returned : readPayloadOnly boost fuel bufCapacity reports m = some (result, m', reports')) :
    reports'.length < reports.length := by
  simp only [readPayloadOnly] at returned
  split at returned
  · cases returned
  all_goals
    cases returned
    exact readAll_consumes ‹_›

/-- As many payloads as reports can be returned, no more. -/
theorem Delivers.length_le {boost : BoostEndian} {bufCapacity : BitVec 32}
    {payloads : List (List Byte)} {reports : List ReadSome} {m : Memory Byte}
    (h : Delivers boost bufCapacity payloads reports m) : payloads.length ≤ reports.length := by
  induction payloads generalizing reports m with
  | nil => exact Nat.zero_le _
  | cons payload payloads ih =>
      obtain ⟨_, _, _, _, returned, _, _, rest⟩ := h
      have consumed := readPayloadOnly_consumes returned
      have following := ih rest
      rw [List.length_cons]
      omega

/-- The wire carries the frames, one behind the other. -/
theorem sendAll_eq (boost : BoostEndian) (messages : List Message) (wire : List Byte)
    (small : ∀ msg ∈ messages, msg.frameLength < 2 ^ 32) :
    sendAll boost messages wire =
      some (wire ++ (messages.map fun msg => msg.frame.encode).flatten) := by
  induction messages generalizing wire with
  | nil => rw [List.map_nil, List.flatten_nil, List.append_nil, sendAll]
  | cons msg messages ih =>
      have converted := Message.convert_eq boost (small msg List.mem_cons_self)
      simp only [sendAll, write, converted, tcpWrite]
      rw [ih _ fun other member => small other (List.mem_cons_of_mem _ member),
        ← msg.frame_length, List.take_length, List.map_cons, List.flatten_cons, List.append_assoc]

/-- Messages whose frames are received one by one are delivered. -/
theorem delivers_frames (boost : BoostEndian) (bufCapacity : BitVec 32) (messages : List Message)
    (m : Memory Byte) (data : ∀ msg ∈ messages, msg.IsData)
    (fits : ∀ msg ∈ messages, msg.frameLength ≤ bufCapacity.toNat) :
    Delivers boost bufCapacity (messages.map Message.payload)
      (messages.map fun msg => msg.frame.received) m := by
  induction messages generalizing m with
  | nil => exact fun fuel => rfl
  | cons msg messages ih =>
      have fits_msg := fits msg List.mem_cons_self
      obtain ⟨result, m', returned, _, size, payload, _⟩ := readPayloadOnly_frame boost bufCapacity
        msg.frame (messages.map fun msg => msg.frame.received) m
        (Message.frame_data (data msg List.mem_cons_self)) msg.frame_understood
        (by rwa [msg.frame_length]) (Nat.le_refl _)
      refine ⟨_, result, m', _, returned, size, payload, ?_⟩
      exact ih m' (fun other member => data other (List.mem_cons_of_mem _ member))
        fun other member => fits other (List.mem_cons_of_mem _ member)

/-- When the bytes of the wire arrive in pieces of the lengths of the frames,
the reads return the payloads that were written. -/
theorem frame_wise_reads_deliver (boost : BoostEndian) (bufCapacity : BitVec 32)
    (messages : List Message) (chunks : List (List Byte)) (m : Memory Byte)
    (data : ∀ msg ∈ messages, msg.IsData)
    (fits : ∀ msg ∈ messages, msg.frameLength ≤ bufCapacity.toNat)
    (cut : sendAll boost messages [] = some chunks.flatten)
    (frameWise : chunks.map List.length = messages.map Message.frameLength) :
    Delivers boost bufCapacity (messages.map Message.payload) (chunks.map .received) m := by
  have bound := bufCapacity.isLt
  have sent := sendAll_eq boost messages [] fun msg member =>
    Nat.lt_of_le_of_lt (fits msg member) bound
  have lengths : messages.map Message.frameLength =
      (messages.map fun msg => msg.frame.encode).map List.length := by
    rw [List.map_map]
    exact List.map_congr_left fun msg _ => msg.frame_length.symm
  have frames : chunks = messages.map fun msg => msg.frame.encode := by
    rw [List.eq_iff_flatten_eq]
    exact ⟨Option.some.inj (cut.symm.trans sent), frameWise.trans lengths⟩
  rw [frames, List.map_map]
  exact delivers_frames boost bufCapacity messages m data fits

theorem frame_wise_reads_deliver_two :
    Delivers .reversing 16 [[0xaa], [0xbb, 0xbb]]
      [.received [0x82, 1, 0xaa], .received [0x81, 2, 0xbb, 0xbb]] ⟨fun _ => 0, []⟩ :=
  frame_wise_reads_deliver .reversing 16
    [⟨.binaryFrame, fun _ => 0xaa, 1⟩, ⟨.textFrame, fun _ => 0xbb, 2⟩]
    [[0x82, 1, 0xaa], [0x81, 2, 0xbb, 0xbb]] ⟨fun _ => 0, []⟩
    (by decide) (by decide) (by decide) (by decide)

/-- Two frames that arrive together are taken for one. -/
theorem coalesced_frames_not_delivered : ¬ ∀ boost (bufCapacity : BitVec 32)
    (messages : List Message) (chunks : List (List Byte)) m,
    (∀ msg ∈ messages, msg.IsData) →
    (∀ msg ∈ messages, msg.frameLength ≤ bufCapacity.toNat) →
    sendAll boost messages [] = some chunks.flatten →
    (∀ chunk ∈ chunks, chunk ≠ [] ∧ chunk.length ≤ bufCapacity.toNat) →
    Delivers boost bufCapacity (messages.map Message.payload) (chunks.map .received) m := by
  intro all
  have delivered := all .reversing 16
    [⟨.binaryFrame, fun _ => 0xaa, 1⟩, ⟨.binaryFrame, fun _ => 0xbb, 1⟩]
    [[0x82, 1, 0xaa, 0x82, 1, 0xbb]] ⟨fun _ => 0, []⟩
    (by decide) (by decide) (by decide) (by decide)
  exact absurd delivered.length_le (by decide)

end Vee
