import Vee.Websocket.Receive

/-!
# Which cells a received message touches

The footprint of `_preprocess_received_data` and of the end of
`read_payload_only` on whatever one read has delivered. A call that throws has
read a header, which may go on behind the received bytes and even behind the
buffer. Nothing is touched that should not be exactly when the bytes start with a
control frame whose header the buffer has room for, or with a whole frame with a
length that the reader understands.
-/

namespace Vee

open Endian Memory

/-- Whether an access to a buffer is admissible after a read of `len` bytes. -/
def Within (len cap : Nat) : Memory.Access → Prop
  | .read i => i < len
  | .write i => i < len
  | .clear i => i < cap

/-- The bytes start with a frame, all of it, that the reader understands; or with
the first byte of a control frame whose header fits a buffer of `cap` bytes. What
is missing of the header is zero there. -/
def Acceptable (cap : Nat) (bytes : List Byte) : Prop :=
  let layout := HeaderLayout.of (bytes.getD · 0) 0
  (layout.Control ∧ layout.size ≤ cap) ∨
    layout.size + layout.length.value ≤ bytes.length ∧ layout.length.negative = false

instance (cap : Nat) (bytes : List Byte) : Decidable (Acceptable cap bytes) := by
  unfold Acceptable
  infer_instance

namespace XwebsocketStream

/-- The memory after a successful read, before any other access. -/
def received (bufCapacity : BitVec 32) (bytes : List Byte) (m : Memory Byte) : Memory Byte :=
  (tcpRead bufCapacity (.received bytes) m).2.quiet

/-- The call throws and has stayed inside the buffer; or it finishes, with at most
as many iterations of the loop as bytes were received, no subtraction wraps, and it
and the extraction of the payload touch received cells only. -/
def Confined (boost : BoostEndian) (bufCapacity : BitVec 32) (bytes : List Byte)
    (m : Memory Byte) : Prop :=
  (∃ e m', preprocessReceivedData boost bytes.length (BitVec.ofNat 32 bytes.length)
      (received bufCapacity bytes m) = some (.error e, m') ∧
    m'.Inside bufCapacity.toNat) ∨
  ∃ result header m', preprocessReceivedData boost bytes.length (BitVec.ofNat 32 bytes.length)
      (received bufCapacity bytes m) = some (.ok (result, header), m') ∧
    header.payloadLen.toNat ≤ bytes.length ∧
    result.payloadSize.toNat ≤ bufCapacity.toNat ∧
    ∀ a ∈ (extractPayload bufCapacity result m').accesses,
      Within bytes.length bufCapacity.toNat a

variable {bufCapacity : BitVec 32} {bytes : List Byte} {m : Memory Byte}

/-- The buffer holds the received bytes, and zeros behind them. -/
theorem received_cell (bytes : List Byte) (m : Memory Byte) {j : Nat}
    (inside : j < bufCapacity.toNat) :
    (received bufCapacity bytes m).cell j = bytes.getD j 0 := by
  by_cases within : j < bytes.length
  · have stored := put_cell_inside (m := m.fill 0 0 bufCapacity.toNat) (i := 0) within
    rw [List.getD_eq_getElem _ _ within]
    rwa [Nat.zero_add] at stored
  · rw [List.getD_eq_default _ _ (Nat.not_lt.mp within)]
    have kept : ((m.fill 0 0 bufCapacity.toNat).put 0 bytes).cell j =
        (m.fill 0 0 bufCapacity.toNat).cell j := put_cell_outside (by omega)
    exact kept.trans (fill_cell_inside (Nat.zero_le j) (by omega))

/-- The received bytes decide about a header that lies within the buffer. -/
theorem stored_received {layout : HeaderLayout} (inside : layout.size ≤ bufCapacity.toNat) :
    Stored (received bufCapacity bytes m).cell 0 layout.encode ↔
      Stored (bytes.getD · 0) 0 layout.encode := by
  have same : ∀ j < layout.encode.length,
      (received bufCapacity bytes m).cell (0 + j) = bytes.getD (0 + j) 0 := by
    intro j before
    have within : j < bufCapacity.toNat := Nat.lt_of_lt_of_le before inside
    rw [Nat.zero_add, received_cell bytes m within]
  constructor
  · intro h
    exact h.congr fun j before => (same j before).symm
  · intro h
    exact h.congr same

/-- The opcode is in the first byte. -/
theorem control_received (bytes : List Byte) (m : Memory Byte) (room : 0 < bufCapacity.toNat) :
    (HeaderLayout.of (received bufCapacity bytes m).cell 0).Control ↔
      (HeaderLayout.of (bytes.getD · 0) 0).Control := by
  simp only [HeaderLayout.Control, HeaderLayout.of]
  rw [received_cell bytes m room]

/-- Whether a header fits the buffer is in the second one. -/
theorem size_received (bufCapacity : BitVec 32) (bytes : List Byte) (m : Memory Byte) :
    (HeaderLayout.of (received bufCapacity bytes m).cell 0).size ≤ bufCapacity.toNat ↔
      (HeaderLayout.of (bytes.getD · 0) 0).size ≤ bufCapacity.toNat := by
  by_cases room : 1 < bufCapacity.toNat
  · have same : (HeaderLayout.of (received bufCapacity bytes m).cell 0).secondByte =
        (HeaderLayout.of (bytes.getD · 0) 0).secondByte := by
      rw [HeaderLayout.of_secondByte, HeaderLayout.of_secondByte]
      exact received_cell bytes m room
    rw [HeaderLayout.size_eq_of_secondByte same]
  · have stored := (HeaderLayout.of (received bufCapacity bytes m).cell 0).size_eq
    have given := (HeaderLayout.of (bytes.getD · 0) 0).size_eq
    omega

/-- The accesses of one message. -/
theorem accesses_eq (header : DataFrameHeader) (result : IoResult) (size n : Nat)
    (m : Memory Byte) (start : m.accesses = []) :
    (extractPayload bufCapacity result
      (unmasked header (m.record ((List.range' 0 size).map .read)) n)).accesses =
    (List.range' 0 size).map .read ++
      ((List.range n).flatMap fun i =>
        [.read (unmaskSlot header i), .write (unmaskSlot header i)]) ++
      (List.range' result.headerSize.toNat result.payloadSize.toNat).map .read ++
      (List.range' 0 result.payloadSize.toNat).map .write ++
      (List.range' result.payloadSize.toNat
        (bufCapacity - result.payloadSize).toNat).map .clear := by
  simp only [extractPayload]
  rw [fill_accesses, move_accesses, unmasked_accesses, record_accesses, start, List.nil_append]

/-- A whole frame is received: all accesses are within it. -/
theorem confined_of_whole (boost : BoostEndian) {layout : HeaderLayout}
    (fits : bytes.length ≤ bufCapacity.toNat) (data : ¬ layout.Control)
    (holds : Stored (received bufCapacity bytes m).cell 0 layout.encode)
    (whole : layout.size + layout.length.value ≤ bytes.length)
    (understood : layout.length.negative = false) : Confined boost bufCapacity bytes m := by
  have bound := bufCapacity.isLt
  obtain ⟨e, e', loop⟩ := preprocess_data boost bytes.length (BitVec.ofNat 32 bytes.length) holds
    data
  have payloadLen : (DataFrameHeader.analyzed {} layout e e').payloadLen.toNat =
      layout.length.value := LengthField.read_of_not_negative understood
  have payloadPos := DataFrameHeader.analyzed_payloadPos {} layout e e'
  rw [unmask_eq (by omega), payloadLen, if_pos (by omega)] at loop
  have value : layout.length.read.toNat = layout.length.value := payloadLen
  have payloadSize : (layout.length.read.setWidth 32).toNat = layout.length.value := by
    rw [BitVec.toNat_setWidth, value]
    exact Nat.mod_eq_of_lt (by omega)
  have headerSize : (BitVec.ofNat 32 bytes.length - layout.length.read.setWidth 32).toNat =
      bytes.length - layout.length.value := by
    rw [BitVec.toNat_sub, payloadSize, BitVec.toNat_ofNat]
    omega
  have cleared : (bufCapacity - layout.length.read.setWidth 32).toNat =
      bufCapacity.toNat - layout.length.value := by
    rw [BitVec.toNat_sub, payloadSize]
    omega
  refine .inr ⟨_, _, _, loop, by omega, by dsimp only; omega, ?_⟩
  intro a member
  rw [accesses_eq _ _ _ _ _ rfl] at member
  simp only [List.mem_append, List.mem_map, List.mem_flatMap, List.mem_cons, List.mem_range,
    List.mem_range'_1, List.not_mem_nil, or_false] at member
  obtain (((⟨j, inside, rfl⟩ | ⟨j, inside, rfl | rfl⟩) | ⟨j, inside, rfl⟩) | ⟨j, inside, rfl⟩) |
    ⟨j, inside, rfl⟩ := member
  · change j < bytes.length
    omega
  · change unmaskSlot _ j < bytes.length
    rw [unmaskSlot_eq (by omega) inside]
    omega
  · change unmaskSlot _ j < bytes.length
    rw [unmaskSlot_eq (by omega) inside]
    omega
  · change j < bytes.length
    omega
  · change j < bytes.length
    omega
  · change j < bufCapacity.toNat
    omega

/-- A call that finishes and touches received cells only has received a whole
frame with a length it understands. -/
theorem whole_of_confined (boost : BoostEndian) {layout : HeaderLayout}
    (fits : bytes.length ≤ bufCapacity.toNat) (data : ¬ layout.Control)
    (holds : Stored (received bufCapacity bytes m).cell 0 layout.encode)
    (confined : Confined boost bufCapacity bytes m) :
    layout.size + layout.length.value ≤ bytes.length ∧ layout.length.negative = false := by
  have bound := bufCapacity.isLt
  have size_le := layout.size_le
  obtain ⟨e, e', loop⟩ := preprocess_data boost bytes.length (BitVec.ofNat 32 bytes.length) holds
    data
  obtain ⟨error, m', returned, _⟩ | ⟨result, header, m', returned, _, _, inside⟩ := confined
  · rw [returned] at loop
    obtain ⟨_, _, impossible⟩ := Option.map_eq_some_iff.mp loop.symm
    cases impossible
  · rw [returned] at loop
    obtain ⟨m'', finished, same⟩ := Option.map_eq_some_iff.mp loop.symm
    cases same
    have understood : layout.length.negative = false := by
      by_contra negative
      rw [Bool.not_eq_false] at negative
      rw [unmask_eq_none (LengthField.read_of_negative negative)] at finished
      cases finished
    have value : layout.length.read.toNat = layout.length.value :=
      LengthField.read_of_not_negative understood
    have payloadLen : (DataFrameHeader.analyzed {} layout e e').payloadLen.toNat =
        layout.length.value := value
    have payloadPos := DataFrameHeader.analyzed_payloadPos {} layout e e'
    have small : layout.length.value < 2 ^ 32 := by
      by_contra large
      rw [unmask_eq_none (by omega)] at finished
      cases finished
    rw [unmask_eq (by omega), payloadLen] at finished
    split at finished
    · rename_i enough
      obtain rfl := Option.some.inj finished
      rw [accesses_eq _ _ _ _ _ rfl] at inside
      simp only [List.mem_append, List.mem_map, List.mem_flatMap, List.mem_cons, List.mem_range,
        List.mem_range'_1, List.not_mem_nil, or_false] at inside
      refine ⟨?_, understood⟩
      -- otherwise the first byte that was not received is read
      have header_received : layout.size ≤ bytes.length := by
        by_contra beyond
        have touched := inside (.read bytes.length)
          (.inl (.inl (.inl (.inl ⟨bytes.length, by omega, rfl⟩))))
        exact Nat.lt_irrefl _ touched
      by_contra beyond
      have slot : unmaskSlot (.analyzed {} layout e e') (bytes.length - layout.size) =
          bytes.length := by
        rw [unmaskSlot_eq (n := bytes.length - layout.size + 1) (by omega) (by omega)]
        omega
      have touched := inside (.read bytes.length)
        (.inl (.inl (.inl (.inr ⟨bytes.length - layout.size, by omega, .inl (by rw [slot])⟩))))
      exact Nat.lt_irrefl _ touched
    · cases finished

/-- A control frame ends the call, which stays inside the buffer exactly if its
header does. -/
theorem confined_control_iff (boost : BoostEndian) (bufCapacity : BitVec 32) (bytes : List Byte)
    (m : Memory Byte)
    (control : (HeaderLayout.of (received bufCapacity bytes m).cell 0).Control) :
    Confined boost bufCapacity bytes m ↔
      (HeaderLayout.of (received bufCapacity bytes m).cell 0).size ≤ bufCapacity.toNat := by
  have holds := HeaderLayout.stored_of (received bufCapacity bytes m).cell 0
  have thrown := preprocess_control boost bytes.length (BitVec.ofNat 32 bytes.length) holds control
  constructor
  · rintro (⟨e, m', returned, inside⟩ | ⟨result, header, m', returned, _⟩)
    · cases thrown.symm.trans returned
      have two := (HeaderLayout.of (received bufCapacity bytes m).cell 0).size_eq
      have last := inside (.read ((HeaderLayout.of (received bufCapacity bytes m).cell 0).size - 1))
        (List.mem_map.mpr ⟨_, List.mem_range'_1.mpr (by omega), rfl⟩)
      simp only [Access.index] at last
      omega
    · cases thrown.symm.trans returned
  · intro fits
    refine .inl ⟨_, _, thrown, fun a member => ?_⟩
    obtain ⟨j, listed, rfl⟩ := List.mem_map.mp member
    have before := List.mem_range'_1.mp listed
    change j < bufCapacity.toNat
    omega

/-- What one read delivers is handled within the received bytes, or thrown at
without leaving the buffer, exactly when it is acceptable. -/
theorem confined_iff_acceptable (boost : BoostEndian) (bufCapacity : BitVec 32)
    (bytes : List Byte) (m : Memory Byte) (nonempty : bytes ≠ [])
    (fits : bytes.length ≤ bufCapacity.toNat) :
    Confined boost bufCapacity bytes m ↔ Acceptable bufCapacity.toNat bytes := by
  simp only [Acceptable]
  have start : 0 < bytes.length := List.length_pos_iff.mpr nonempty
  have control := control_received bytes m (Nat.lt_of_lt_of_le start fits)
  by_cases beats : (HeaderLayout.of (bytes.getD · 0) 0).Control
  · rw [confined_control_iff boost bufCapacity bytes m (control.mpr beats), size_received]
    constructor
    · intro room
      exact .inl ⟨beats, room⟩
    · rintro (⟨_, room⟩ | ⟨whole, _⟩)
      · exact room
      · omega
  · constructor
    · intro confined
      have holds := HeaderLayout.stored_of (received bufCapacity bytes m).cell 0
      have whole := whole_of_confined boost fits (fun h => beats (control.mp h)) holds confined
      have same := HeaderLayout.of_eq ((stored_received (by omega)).mp holds)
      rw [same]
      exact .inr whole
    · rintro (⟨beats', _⟩ | ⟨whole, understood⟩)
      · exact absurd beats' beats
      · have holds := HeaderLayout.stored_of (bytes.getD · 0) 0
        exact confined_of_whole boost fits beats ((stored_received (by omega)).mpr holds) whole
          understood

/-- A masked frame of 3 bytes, followed by the start of another one. -/
theorem confined_iff_acceptable_masked :
    Confined .reversing 16 [0x82, 0x83, 1, 2, 3, 4, 0xa, 0xb, 0xc, 0x81] ⟨fun _ => 0x55, []⟩ :=
  (confined_iff_acceptable .reversing 16 [0x82, 0x83, 1, 2, 3, 4, 0xa, 0xb, 0xc, 0x81]
    ⟨fun _ => 0x55, []⟩ (by decide) (by decide)).mpr (by decide)

/-- One byte of a data frame: the second one is read all the same. -/
theorem truncated_header_not_confined : ¬ ∀ boost (bufCapacity : BitVec 32) bytes m, bytes ≠ [] →
    bytes.length ≤ bufCapacity.toNat → Confined boost bufCapacity bytes m := by
  intro all
  have holds := HeaderLayout.stored_of (received 1 [0x82] ⟨fun _ => 0, []⟩).cell 0
  have whole := whole_of_confined .reversing (by decide) (by decide) holds
    (all .reversing 1 [0x82] ⟨fun _ => 0, []⟩ (by decide) (by decide))
  exact absurd whole (by decide)

end XwebsocketStream
end Vee
