import Vee.Websocket.Codec
import Vee.Websocket.Stream

/-!
# Receiving a frame

The unmask loop as an iteration of its body, with the cells it changes and those
it accesses, and `_preprocess_received_data` on a buffer that starts with a given
header. A 16-bit length with its top bit set is negative to the reader: it
becomes a number far above any buffer and the loop does not end. All other
frames of RFC 6455 are decoded.
-/

namespace Vee

open Endian Memory

namespace LengthField

variable {l : LengthField}

/-- A 16-bit length that does not fit a signed integer. -/
def negative : LengthField → Bool
  | medium n => n.msb
  | _ => false

theorem read_of_not_negative (h : l.negative = false) : l.read.toNat = l.value := by
  cases l with
  | short n =>
      have bound := n.isLt
      exact Nat.mod_eq_of_lt (by omega)
  | medium n =>
      change (n.signExtend 64).toNat = n.toNat
      rw [BitVec.signExtend_eq_setWidth_of_msb_false h, BitVec.toNat_setWidth_of_le (by decide)]
  | long n => rfl

theorem read_of_negative (h : l.negative = true) : 2 ^ 32 ≤ l.read.toNat := by
  cases l with
  | short n => cases h
  | medium n =>
      change 2 ^ 32 ≤ (n.signExtend 64).toNat
      rw [BitVec.toNat_signExtend, if_pos (show n.msb = true from h)]
      omega
  | long n => cases h

theorem minimal_negative (n : Nat) :
    (minimal n).negative = true ↔ 32768 ≤ n ∧ n ≤ 65535 := by
  simp only [minimal]
  split
  · constructor
    · intro h
      cases h
    · omega
  · split
    · change (BitVec.ofNat 16 n).msb = true ↔ _
      rw [BitVec.msb_eq_true_iff_two_mul_ge, BitVec.toNat_ofNat]
      omega
    · constructor
      · intro h
        cases h
      · omega

end LengthField

namespace XwebsocketStream

variable {header : DataFrameHeader} {m : Memory Byte} {fuel i j n : Nat}

/-- The cell that iteration `i` of the unmask loop changes. -/
def unmaskSlot (header : DataFrameHeader) (i : Nat) : Nat :=
  (BitVec.ofNat 32 i + header.payloadPos).toNat

/-- The memory after `n` iterations. -/
def unmasked (header : DataFrameHeader) (m : Memory Byte) : Nat → Memory Byte
  | 0 => m
  | n + 1 => unmaskByte header (BitVec.ofNat 32 n) (unmasked header m n)

theorem lt_payloadLen_iff (header : DataFrameHeader) (small : i < 2 ^ 32) :
    (BitVec.ofNat 32 i).setWidth 64 < header.payloadLen ↔ i < header.payloadLen.toNat := by
  rw [BitVec.lt_def, BitVec.toNat_setWidth_of_le (by decide), BitVec.toNat_ofNat,
    Nat.mod_eq_of_lt small]

/-- The loop from iteration `i` on. -/
theorem unmask_from (small : header.payloadLen.toNat < 2 ^ 32) (m : Memory Byte) (fuel i : Nat)
    (le : i ≤ header.payloadLen.toNat) :
    unmask header fuel (BitVec.ofNat 32 i) (unmasked header m i) =
      if header.payloadLen.toNat ≤ i + fuel then some (unmasked header m header.payloadLen.toNat)
      else none := by
  induction fuel generalizing i with
  | zero =>
      have more := lt_payloadLen_iff header (show i < 2 ^ 32 by omega)
      simp only [unmask]
      obtain before | rfl := Nat.lt_or_eq_of_le le
      · rw [if_pos (more.mpr before), if_neg (by omega)]
      · rw [if_neg (fun h => Nat.lt_irrefl _ (more.mp h)), if_pos (Nat.le_add_right _ _)]
  | succ fuel ih =>
      have more := lt_payloadLen_iff header (show i < 2 ^ 32 by omega)
      simp only [unmask]
      obtain before | rfl := Nat.lt_or_eq_of_le le
      · have next : (BitVec.ofNat 32 i + 1 : BitVec 32) = BitVec.ofNat 32 (i + 1) :=
          (BitVec.ofNat_add i 1).symm
        rw [if_pos (more.mpr before), next]
        change unmask header fuel _ (unmasked header m (i + 1)) = _
        rw [ih (i + 1) before, Nat.add_assoc, Nat.add_comm 1 fuel]
      · rw [if_neg (fun h => Nat.lt_irrefl _ (more.mp h)), if_pos (Nat.le_add_right _ _)]

/-- The loop makes as many iterations as the payload has bytes. -/
theorem unmask_eq (small : header.payloadLen.toNat < 2 ^ 32) (fuel : Nat) (m : Memory Byte) :
    unmask header fuel 0 m =
      if header.payloadLen.toNat ≤ fuel then some (unmasked header m header.payloadLen.toNat)
      else none := by
  have whole := unmask_from small m fuel 0 (Nat.zero_le _)
  rwa [Nat.zero_add] at whole

/-- A 32-bit counter never reaches a larger bound. -/
theorem unmask_eq_none (large : 2 ^ 32 ≤ header.payloadLen.toNat) (fuel : Nat) (i : BitVec 32)
    (m : Memory Byte) : unmask header fuel i m = none := by
  have below (i : BitVec 32) : i.setWidth 64 < header.payloadLen := by
    have bound := i.isLt
    rw [BitVec.lt_def, BitVec.toNat_setWidth_of_le (by decide)]
    omega
  induction fuel generalizing i m with
  | zero =>
      simp only [unmask]
      rw [if_pos (below i)]
  | succ fuel ih =>
      simp only [unmask]
      rw [if_pos (below i)]
      exact ih (i + 1) (unmaskByte header i m)

theorem unmasked_accesses (header : DataFrameHeader) (m : Memory Byte) (n : Nat) :
    (unmasked header m n).accesses = m.accesses ++ (List.range n).flatMap fun i =>
      [.read (unmaskSlot header i), .write (unmaskSlot header i)] := by
  induction n with
  | zero => exact (List.append_nil _).symm
  | succ n ih =>
      change (unmasked header m n).accesses ++ [.read _] ++ [.write _] = _
      rw [ih, List.range_succ, List.flatMap_append, List.append_assoc, List.append_assoc]
      rfl

theorem unmaskSlot_eq (inside : header.payloadPos.toNat + n ≤ 2 ^ 32) (before : i < n) :
    unmaskSlot header i = header.payloadPos.toNat + i := by
  simp only [unmaskSlot]
  rw [BitVec.toNat_add, BitVec.toNat_ofNat, Nat.mod_eq_of_lt (show i < 2 ^ 32 by omega)]
  omega

/-- The iterations change the cells of the payload only. -/
theorem unmasked_cell_outside (inside : header.payloadPos.toNat + n ≤ 2 ^ 32)
    (outside : j < header.payloadPos.toNat ∨ header.payloadPos.toNat + n ≤ j) :
    (unmasked header m n).cell j = m.cell j := by
  induction n with
  | zero => rfl
  | succ n ih =>
      have slot := unmaskSlot_eq inside (Nat.lt_succ_self n)
      simp only [unmaskSlot] at slot
      change (Memory.put _ _ [_]).cell j = m.cell j
      rw [put_cell_outside (by rw [slot, List.length_singleton]; omega)]
      exact ih (by omega) (by omega)

/-- Each cell of the payload is combined with its byte of the key. -/
theorem unmasked_cell_inside (inside : header.payloadPos.toNat + n ≤ 2 ^ 32) (before : j < n) :
    (unmasked header m n).cell (header.payloadPos.toNat + j) =
      m.cell (header.payloadPos.toNat + j) ^^^ header.maskingKey[j % 4] := by
  induction n with
  | zero => omega
  | succ n ih =>
      have slot := unmaskSlot_eq inside (Nat.lt_succ_self n)
      simp only [unmaskSlot] at slot
      obtain earlier | rfl := Nat.lt_succ_iff_lt_or_eq.mp before
      · change (Memory.put _ _ [_]).cell _ = _
        rw [put_cell_outside (by rw [slot]; omega)]
        exact ih (by omega) earlier
      · have index : (BitVec.ofNat 32 j).toNat = j := Nat.mod_eq_of_lt (by omega)
        have last : (unmasked header m j).cell (header.payloadPos.toNat + j) =
            m.cell (header.payloadPos.toNat + j) :=
          unmasked_cell_outside (by omega) (.inr (Nat.le_refl _))
        change (unmaskByte header (BitVec.ofNat 32 j) (unmasked header m j)).cell _ = _
        simp only [unmaskByte, Vector.head, slot, index, fetch, Vector.getElem_ofFn, Nat.add_zero,
          last]
        exact put_cell_self

variable {layout : HeaderLayout}

/-- What the call throws for a control frame with this opcode. -/
def controlException (opcode : BitVec 4) : Exception :=
  if opcode = 0x8 then
    ⟨"Connection is closed by host", ErrorCode.streamDisconnectedByHost.toInt⟩
  else ⟨"Websocket heartbeat", ErrorCode.rfc6455WebsocketHeartbeat.toInt⟩

/-- A control frame ends the call after its header has been read. -/
theorem preprocess_control (boost : BoostEndian) (fuel : Nat) (len : BitVec 32)
    (holds : Stored m.cell 0 layout.encode) (control : layout.Control) :
    preprocessReceivedData boost fuel len m = some (.error (controlException layout.opcode),
      m.record ((List.range' 0 layout.size).map .read)) := by
  obtain ⟨e, e', analyzed⟩ := DataFrameHeader.analyze_eq boost {} len holds
  have opcode : (DataFrameHeader.analyzed {} layout e e').opcode = .ofCode layout.opcode := rfl
  simp only [preprocessReceivedData, analyzed, opcode]
  obtain code | code | code := control
  all_goals
    rw [code]
    rfl

/-- Otherwise what the call does is up to the unmask loop. -/
theorem preprocess_data (boost : BoostEndian) (fuel : Nat) (len : BitVec 32)
    (holds : Stored m.cell 0 layout.encode) (data : ¬ layout.Control) :
    ∃ e e', preprocessReceivedData boost fuel len m =
      (unmask (.analyzed {} layout e e') fuel 0
        (m.record ((List.range' 0 layout.size).map .read))).map fun m =>
          (.ok ({ headerSize := len - layout.length.read.setWidth 32
                  payloadSize := layout.length.read.setWidth 32 },
            .analyzed {} layout e e'), m) := by
  obtain ⟨e, e', analyzed⟩ := DataFrameHeader.analyze_eq boost {} len holds
  refine ⟨e, e', ?_⟩
  have opcode : (DataFrameHeader.analyzed {} layout e e').opcode = .ofCode layout.opcode := rfl
  have others : ∀ code : BitVec 4, ¬ (code = 0x8 ∨ code = 0x9 ∨ code = 0xA) →
      OpcodeId.ofCode code ≠ .ping ∧ OpcodeId.ofCode code ≠ .pong ∧
        OpcodeId.ofCode code ≠ .connnectionClose := by decide
  obtain ⟨not_ping, not_pong, not_close⟩ := others layout.opcode data
  simp only [preprocessReceivedData, analyzed, opcode]
  cases found : OpcodeId.ofCode layout.opcode with
  | ping => exact absurd found not_ping
  | pong => exact absurd found not_pong
  | connnectionClose => exact absurd found not_close
  | _ =>
      cases unmask (.analyzed {} layout e e') fuel 0
        (m.record ((List.range' 0 layout.size).map .read)) <;> rfl

/-- Masking twice with one key. -/
theorem unmasked_stored {payload : List Byte}
    (inside : header.payloadPos.toNat + payload.length ≤ 2 ^ 32)
    (holds : Stored m.cell header.payloadPos.toNat (masked header.maskingKey payload)) :
    Stored (unmasked header m payload.length).cell header.payloadPos.toNat payload := by
  rw [stored_iff]
  intro j before
  have stored := holds.cell_eq (j := j) (by rwa [masked, List.length_mapIdx])
  rw [unmasked_cell_inside inside before, stored]
  simp only [masked, List.getElem_mapIdx]
  rw [BitVec.xor_assoc, BitVec.xor_self, BitVec.xor_zero]

/-- The call on a buffer with a whole data frame whose length the reader
understands. -/
theorem preprocess_frame (boost : BoostEndian) (f : Frame) {m : Memory Byte} {fuel : Nat}
    (data : ¬ f.header.Control) (fits : f.header.length.negative = false)
    (small : f.encode.length < 2 ^ 32) (holds : Stored m.cell 0 f.encode)
    (enough : f.payload.length ≤ fuel) :
    ∃ header m', preprocessReceivedData boost fuel (BitVec.ofNat 32 f.encode.length) m =
        some (.ok ({ headerSize := BitVec.ofNat 32 f.header.size
                     payloadSize := BitVec.ofNat 32 f.payload.length }, header), m') ∧
      header.payloadPos.toNat = f.header.size ∧ Stored m'.cell f.header.size f.payload ∧
      ∀ j, j < f.header.size ∨ f.encode.length ≤ j → m'.cell j = m.cell j := by
  have total := f.encode_length
  rw [Frame.encode, stored_append, Nat.zero_add] at holds
  obtain ⟨front, back⟩ := holds
  obtain ⟨e, e', loop⟩ :=
    preprocess_data boost fuel (BitVec.ofNat 32 f.encode.length) front data
  have value : f.header.length.read.toNat = f.payload.length :=
    (LengthField.read_of_not_negative fits).trans f.length_eq
  have payloadLen : (DataFrameHeader.analyzed {} f.header e e').payloadLen.toNat =
      f.payload.length := value
  have payloadPos := DataFrameHeader.analyzed_payloadPos {} f.header e e'
  have payloadSize : f.header.length.read.setWidth 32 = BitVec.ofNat 32 f.payload.length := by
    apply BitVec.eq_of_toNat_eq
    rw [BitVec.toNat_setWidth, value, BitVec.toNat_ofNat]
  have headerSize : BitVec.ofNat 32 f.encode.length - BitVec.ofNat 32 f.payload.length =
      BitVec.ofNat 32 f.header.size := by
    apply BitVec.eq_of_toNat_eq
    rw [BitVec.toNat_sub]
    simp only [BitVec.toNat_ofNat]
    omega
  rw [unmask_eq (by omega), payloadLen, if_pos enough, payloadSize, headerSize] at loop
  refine ⟨_, _, loop, payloadPos, ?_, ?_⟩
  · rw [← payloadPos]
    apply unmasked_stored (by omega)
    rw [payloadPos]
    exact back
  · intro j outside
    rw [unmasked_cell_outside (by omega) (by omega)]
    rfl

/-- What the decoding of a frame is to achieve when the buffer holds exactly
that frame. -/
def Decodes (boost : BoostEndian) (f : Frame) (m : Memory Byte) : Prop :=
  ∃ fuel result header m',
    preprocessReceivedData boost fuel (BitVec.ofNat 32 f.encode.length) m =
      some (.ok (result, header), m') ∧
    Stored m'.cell header.payloadPos.toNat f.payload ∧
    (∀ j < f.header.size, m'.cell j = m.cell j) ∧
    result.payloadSize.toNat = f.payload.length ∧
    result.headerSize.toNat = f.header.size

/-- The loop over a negative length does not end. -/
theorem not_decodes (boost : BoostEndian) (f : Frame) (data : ¬ f.header.Control)
    (negative : f.header.length.negative = true) (holds : Stored m.cell 0 f.encode) :
    ¬ Decodes boost f m := by
  rintro ⟨fuel, result, header, m', returned, _⟩
  rw [Frame.encode, stored_append] at holds
  obtain ⟨e, e', loop⟩ := preprocess_data boost fuel (BitVec.ofNat 32 f.encode.length) holds.1 data
  rw [returned, unmask_eq_none (LengthField.read_of_negative negative)] at loop
  cases loop

/-- A data frame is decoded exactly when its length is not a negative 16-bit
number. -/
theorem decodes_iff (boost : BoostEndian) (f : Frame) (m : Memory Byte) (data : f.PlainData)
    (small : f.encode.length < 2 ^ 32) (holds : Stored m.cell 0 f.encode) :
    Decodes boost f m ↔ ¬ (32768 ≤ f.payload.length ∧ f.payload.length ≤ 65535) := by
  rw [← LengthField.minimal_negative, ← data.length, Bool.not_eq_true]
  constructor
  · intro decodes
    by_contra negative
    rw [Bool.not_eq_false] at negative
    exact not_decodes boost f data.not_control negative holds decodes
  · intro fits
    obtain ⟨header, m', returned, payloadPos, payload, kept⟩ :=
      preprocess_frame boost f data.not_control fits small holds (Nat.le_refl _)
    rw [Frame.encode_length] at small
    refine ⟨_, _, header, m', returned, ?_, fun j before => kept j (.inl before), ?_, ?_⟩
    · rw [payloadPos]
      exact payload
    · exact Nat.mod_eq_of_lt (by omega)
    · exact Nat.mod_eq_of_lt (by omega)

/-- A masked text frame. -/
theorem decodes_iff_hello : ∃ f : Frame, f.payload = [0x48, 0x65, 0x6c, 0x6c, 0x6f] ∧
    f.header.key = some #v[0x37, 0xfa, 0x21, 0x3d] ∧
    Decodes .reversing f ⟨(f.encode.getD · 0), []⟩ := by
  let f : Frame :=
    { header :=
        { fin := true, reserved := 0, opcode := 1, length := .short 5,
          key := some #v[0x37, 0xfa, 0x21, 0x3d] }
      payload := [0x48, 0x65, 0x6c, 0x6c, 0x6f]
      length_eq := rfl }
  refine ⟨f, rfl, rfl, ?_⟩
  have data : f.PlainData := ⟨rfl, .inr (.inl rfl), rfl⟩
  apply (decodes_iff .reversing f _ data (by decide) (stored_getD _ 0)).mpr
  decide

/-- The first length whose top bit is set. -/
theorem long_medium_frame_not_decoded : ¬ ∀ boost (f : Frame) (m : Memory Byte), f.PlainData →
    f.encode.length < 2 ^ 32 → Stored m.cell 0 f.encode → Decodes boost f m := by
  intro all
  obtain ⟨payload, length⟩ : ∃ payload : List Byte, payload.length = 32768 :=
    ⟨.replicate 32768 0, List.length_replicate⟩
  let f : Frame :=
    { header := { fin := true, reserved := 0, opcode := 2, length := .medium 32768, key := none }
      payload
      length_eq := length.symm }
  have form : LengthField.minimal payload.length = .medium 32768 := by
    rw [length]
    exact (dif_neg (by decide)).trans (if_pos (by decide))
  have data : f.PlainData := ⟨rfl, .inr (.inr rfl), form.symm⟩
  have small : f.encode.length < 2 ^ 32 := by
    have size := f.header.size_le
    have total : f.encode.length = f.header.size + payload.length := f.encode_length
    omega
  have holds := stored_getD f.encode 0
  exact not_decodes .reversing f data.not_control rfl holds
    (all .reversing f ⟨(f.encode.getD · 0), []⟩ data small holds)

end XwebsocketStream
end Vee
