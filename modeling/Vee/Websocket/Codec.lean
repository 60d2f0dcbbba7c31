import Vee.Websocket.Frame
import Vee.Websocket.Header

/-!
# The header codec

What `analyze` makes of the header of a frame, and the bytes `binary_pack`
writes, in terms of the layout of RFC 6455. The length of 16 bits passes through
a signed field and is sign extended, and a mask bit keeps the writer from
writing an extended length; apart from this the two agree with the layout.
-/

namespace Vee

open Endian Memory

/-- The opcode that `analyze` finds. -/
def OpcodeId.ofCode (code : BitVec 4) : OpcodeId :=
  if code = 0x0 then .continuationFrame
  else if code = 0x1 then .textFrame
  else if code = 0x2 then .binaryFrame
  else if code = 0x8 then .connnectionClose
  else if code = 0x9 then .ping
  else if code = 0xA then .pong
  else .reservedForFurther

/-- The code that `binary_pack` writes. -/
def OpcodeId.code : OpcodeId → BitVec 4
  | .continuationFrame => 0x0
  | .textFrame => 0x1
  | .binaryFrame => 0x2
  | .connnectionClose => 0x8
  | .ping => 0x9
  | .pong => 0xA
  | .reservedForFurther => 0x2
  | .undefined => 0x2

/-- One of the six opcodes of RFC 6455. -/
def OpcodeId.Defined (opcode : OpcodeId) : Prop :=
  opcode ≠ .undefined ∧ opcode ≠ .reservedForFurther

instance (opcode : OpcodeId) : Decidable opcode.Defined := by
  unfold OpcodeId.Defined
  infer_instance

theorem OpcodeId.ofCode_code {opcode : OpcodeId} (h : opcode.Defined) :
    ofCode opcode.code = opcode := by
  cases opcode with
  | undefined => exact absurd rfl h.1
  | reservedForFurther => exact absurd rfl h.2
  | _ => rfl

/-- The payload length that `analyze` obtains. -/
def LengthField.read : LengthField → BitVec 64
  | short n => BitVec.ofNat 64 n
  | medium n => n.signExtend 64
  | long n => n

namespace BoostEndian

variable (boost : BoostEndian)

/-- A big-endian number, transferred to a word and converted. -/
theorem bigToNative_toBig (n : Nat) (x : BitVec (8 * n)) :
    boost.bigToNative (BitVec.ofNat (8 * n) (ofLittle (toBig n x.toNat))) = x := by
  have fits : x.toNat < 256 ^ n := by
    rw [show 256 ^ n = 2 ^ (8 * n) from (Nat.pow_mul 2 8 n).symm]
    exact x.isLt
  rw [boost.bigToNative_eq, reverse_ofLittle toBig_length, ofBig_toBig fits, BitVec.ofNat_toNat,
    BitVec.setWidth_eq]

/-- A word, converted and transferred to memory. -/
theorem toLittle_nativeToBig (n : Nat) (x : BitVec (8 * n)) :
    toLittle n (boost.nativeToBig x).toNat = toBig n x.toNat := by
  rw [boost.nativeToBig_eq, toLittle_reverse]

end BoostEndian

namespace DataFrameHeader

theorem highBit_append (bit : Bool) (low : BitVec 7) :
    highBit (BitVec.ofBool bit ++ low) = bit := by
  revert bit low
  decide

theorem lowBits_append (bit : Bool) (low : BitVec 7) :
    lowBits (BitVec.ofBool bit ++ low) = low.setWidth 64 := by
  revert bit low
  decide

theorem highBit_firstByte (h : HeaderLayout) : highBit h.firstByte = h.fin := by
  have checked : ∀ (fin : Bool) (reserved : BitVec 3) (opcode : BitVec 4),
      highBit (BitVec.ofBool fin ++ reserved ++ opcode) = fin := by decide
  exact checked h.fin h.reserved h.opcode

theorem opcodeOf_firstByte (h : HeaderLayout) :
    opcodeOf h.firstByte = OpcodeId.ofCode h.opcode := by
  have checked : ∀ (fin : Bool) (reserved : BitVec 3) (opcode : BitVec 4),
      opcodeOf (BitVec.ofBool fin ++ reserved ++ opcode) = OpcodeId.ofCode opcode := by
    decide
  exact checked h.fin h.reserved h.opcode

/-- The header object after the first two bytes of a layout. -/
def blocksRead (initial : DataFrameHeader) (layout : HeaderLayout) : DataFrameHeader :=
  { initial with
    fin := layout.fin
    useMask := layout.key.isSome
    payloadLen := layout.length.code.setWidth 64
    finOpcode := layout.firstByte
    maskPayloadLen := layout.secondByte
    opcode := OpcodeId.ofCode layout.opcode }

/-- The header object after the whole layout; the two fields for an extended
length keep what they had unless the layout has such a length. -/
def analyzed (initial : DataFrameHeader) (layout : HeaderLayout)
    (extendedPayloadLen16 : BitVec 16) (extendedPayloadLen64 : BitVec 64) : DataFrameHeader :=
  { initial.blocksRead layout with
    payloadLen := layout.length.read
    payloadPos := BitVec.ofNat 32 layout.size
    extendedPayloadLen16
    extendedPayloadLen64
    maskingKey := layout.key.getD initial.maskingKey }

variable {h : DataFrameHeader} {layout : HeaderLayout} {m : Memory Byte}
variable {i : Nat}

theorem analyzed_payloadPos (h : DataFrameHeader) (layout : HeaderLayout) (e : BitVec 16)
    (e' : BitVec 64) : (h.analyzed layout e e').payloadPos.toNat = layout.size := by
  have small := layout.size_le
  exact Nat.mod_eq_of_lt (by omega)

theorem analyzeBlocks_eq (first : m.cell i = layout.firstByte)
    (second : m.cell (i + 1) = layout.secondByte) :
    h.analyzeBlocks i m = (h.blocksRead layout, 2, m.record [.read i, .read (i + 1)]) := by
  have mask := highBit_append layout.key.isSome layout.length.code
  have low := lowBits_append layout.key.isSome layout.length.code
  rw [← HeaderLayout.secondByte] at mask low
  simp only [analyzeBlocks, fetch, Vector.getElem_ofFn, record_cell, Nat.add_zero, Nat.zero_add,
    first, second, highBit_firstByte, opcodeOf_firstByte, mask, low, record_record]
  rfl

theorem analyzeExtended_eq (boost : BoostEndian) (shift : Nat) (l : LengthField)
    (length : h.payloadLen = l.code.setWidth 64)
    (holds : Stored m.cell (i + shift) l.extended) :
    ∃ e e', h.analyzeExtended boost i shift m = ({ h with
      payloadLen := l.read
      extendedPayloadLen16 := e
      extendedPayloadLen64 := e' }, shift + l.extended.length,
      m.record ((List.range' (i + shift) l.extended.length).map .read)) := by
  simp only [analyzeExtended]
  cases l with
  | short n =>
      have checked : ∀ n : Fin 126, (BitVec.ofNat 7 n).setWidth 64 = BitVec.ofNat 64 n ∧
          BitVec.ofNat 64 n ≠ 0x7e#64 ∧ BitVec.ofNat 64 n ≠ 0x7f#64 := by decide
      obtain ⟨widened, not_medium, not_long⟩ := checked n
      have payloadLen : h.payloadLen = BitVec.ofNat 64 n := length.trans widened
      refine ⟨h.extendedPayloadLen16, h.extendedPayloadLen64, ?_⟩
      rw [payloadLen, if_neg not_medium, if_neg not_long]
      change (h, shift, m) = ({ h with payloadLen := BitVec.ofNat 64 n }, shift, m.record [])
      rw [record_nil, ← payloadLen]
  | medium n =>
      have bytes : slice m.cell (i + shift) 2 = toBig 2 n.toNat := holds
      have value := boost.bigToNative_toBig 2 n
      refine ⟨BitVec.ofNat 16 (ofLittle (toBig 2 n.toNat)), h.extendedPayloadLen64, ?_⟩
      rw [if_pos (show h.payloadLen = 0x7e#64 from length)]
      simp only [fetch_toList, fetch_memory, bytes, value, LengthField.read, LengthField.extended,
        toBig_length]
  | long n =>
      have bytes : slice m.cell (i + shift) 8 = toBig 8 n.toNat := holds
      have value := boost.bigToNative_toBig 8 n
      refine ⟨h.extendedPayloadLen16, BitVec.ofNat 64 (ofLittle (toBig 8 n.toNat)), ?_⟩
      have payloadLen : h.payloadLen = 0x7f#64 := length
      rw [if_neg (by rw [payloadLen]; decide), if_pos payloadLen]
      simp only [fetch_toList, fetch_memory, bytes, value, LengthField.read, LengthField.extended,
        toBig_length]

theorem analyzeMaskingKey_eq (shift : Nat) (key : Option (Vector Byte 4))
    (useMask : h.useMask = key.isSome)
    (holds : Stored m.cell (i + shift) (key.elim [] Vector.toList)) :
    h.analyzeMaskingKey i shift m = ({ h with maskingKey := key.getD h.maskingKey },
      shift + (key.elim [] Vector.toList).length,
      m.record ((List.range' (i + shift) (key.elim [] Vector.toList).length).map .read)) := by
  simp only [analyzeMaskingKey]
  cases key with
  | none =>
      rw [if_neg (by rw [useMask]; decide)]
      change (h, shift, m) = (h, shift, m.record [])
      rw [record_nil]
  | some key =>
      have bytes : (m.fetch (i + shift) 4).1 = key := by
        apply Vector.toList_inj.mp
        rw [fetch_toList]
        have length : key.toList.length = 4 := Vector.length_toList
        simp only [Stored] at holds
        rwa [Option.elim_some, length] at holds
      rw [if_pos (show h.useMask = true from useMask)]
      simp only [bytes, fetch_memory, Option.getD_some, Option.elim_some, Vector.length_toList]

/-- The header of a frame, wherever it is in memory, is read entirely and
nothing else is. -/
theorem analyze_eq (boost : BoostEndian) (initial : DataFrameHeader) (length : BitVec 32)
    (holds : Stored m.cell i layout.encode) :
    ∃ e e', initial.analyze boost (some i) length m =
      (initial.analyzed layout e e', m.record ((List.range' i layout.size).map .read)) := by
  simp only [HeaderLayout.encode] at holds
  rw [stored_cons, stored_cons, stored_append] at holds
  obtain ⟨first, second, extended, key⟩ := holds
  obtain ⟨e, e', extension⟩ := analyzeExtended_eq (h := initial.blocksRead layout)
    (m := m.record [.read i, .read (i + 1)]) boost 2 layout.length rfl extended
  refine ⟨e, e', ?_⟩
  simp only [analyze, analyzeBlocks_eq first second, extension]
  have masking := analyzeMaskingKey_eq (h := { initial.blocksRead layout with
      payloadLen := layout.length.read
      extendedPayloadLen16 := e
      extendedPayloadLen64 := e' })
    (m := (m.record [.read i, .read (i + 1)]).record
      ((List.range' (i + 2) layout.length.extended.length).map .read))
    (i := i) (2 + layout.length.extended.length) layout.key rfl (by
      rw [← Nat.add_assoc]
      exact key)
  have reads : (List.range' i layout.size).map Memory.Access.read = [.read i, .read (i + 1)] ++
      (List.range' (i + 2) layout.length.extended.length).map .read ++
      (List.range' (i + (2 + layout.length.extended.length)) layout.keyBytes.length).map .read := by
    rw [layout.size_eq, ← List.range'_append_1, ← List.range'_append_1, List.map_append,
      List.map_append]
    rfl
  simp only [masking]
  rw [record_record, record_record, reads]
  simp only [analyzed]
  rw [layout.size_eq]
  rfl

/-- The length field `binary_pack` chooses: the 16-bit form only up to INT16_MAX. -/
def sentLength (payloadLen : BitVec 64) : LengthField :=
  if h : payloadLen.toNat < 126 then .short ⟨payloadLen.toNat, h⟩
  else if payloadLen.toNat ≤ 32767 then .medium (payloadLen.setWidth 16)
  else .long payloadLen

/-- The layout `binary_pack` aims at. -/
def sentLayout (h : DataFrameHeader) (opcode : OpcodeId) : HeaderLayout where
  fin := h.fin
  reserved := 0
  opcode := opcode.code
  length := sentLength h.payloadLen
  key := if h.useMask then some h.maskingKey else none

/-- The bytes `binary_pack` writes. -/
def packed (h : DataFrameHeader) (opcode : OpcodeId) : List Byte :=
  (h.sentLayout opcode).firstByte :: (h.sentLayout opcode).secondByte ::
    ((if h.useMask then [] else (h.sentLayout opcode).length.extended) ++
      (h.sentLayout opcode).keyBytes)

theorem sentLength_value (payloadLen : BitVec 64) :
    (sentLength payloadLen).value = payloadLen.toNat := by
  simp only [sentLength]
  split
  · rfl
  · split
    · change (payloadLen.setWidth 16).toNat = payloadLen.toNat
      rw [BitVec.toNat_setWidth]
      exact Nat.mod_eq_of_lt (by omega)
    · rfl

theorem finOpcodeBlock_eq (h : DataFrameHeader) (opcode : OpcodeId) :
    finOpcodeBlock h.fin opcode = (h.sentLayout opcode).firstByte := by
  change finOpcodeBlock h.fin opcode = BitVec.ofBool h.fin ++ 0#3 ++ opcode.code
  generalize h.fin = fin
  cases fin <;> cases opcode <;> decide

theorem orAssign_high (low : BitVec 7) :
    orAssign (BitVec.ofBool false ++ low) 0x80#32 = BitVec.ofBool true ++ low := by
  revert low
  decide

theorem orAssign_zero (low : BitVec 7) :
    orAssign (BitVec.ofBool false ++ low) 0x00#32 = BitVec.ofBool false ++ low := by
  revert low
  decide

theorem sentLayout_secondByte (h : DataFrameHeader) (opcode : OpcodeId) :
    (h.sentLayout opcode).secondByte =
      BitVec.ofBool h.useMask ++ (sentLength h.payloadLen).code := by
  simp only [HeaderLayout.secondByte, sentLayout]
  cases h.useMask <;> rfl

theorem maskPayloadLenBlock_eq (opcode : OpcodeId) :
    h.maskPayloadLenBlock = (h.sentLayout opcode).secondByte := by
  have block : (if 0x7e#64 ≤ h.payloadLen then
        if h.payloadLen ≤ 32767#64 then 0x7e#8 else 0x7f#8
      else h.payloadLen.setWidth 8) =
      (BitVec.ofBool false ++ (sentLength h.payloadLen).code : BitVec 8) := by
    simp only [BitVec.le_def, BitVec.toNat_ofNat, sentLength]
    split
    · rw [dif_neg (by omega)]
      split
      · change 126#8 = BitVec.ofBool false ++ 126#7
        decide
      · change 127#8 = BitVec.ofBool false ++ 127#7
        decide
    · have small : h.payloadLen.toNat < 126 := by omega
      have checked : ∀ n : Fin 126, BitVec.ofNat 8 n =
          (BitVec.ofBool false ++ BitVec.ofNat 7 n : BitVec 8) := by decide
      rw [dif_pos small]
      exact checked ⟨_, small⟩
  rw [sentLayout_secondByte]
  simp only [maskPayloadLenBlock, block]
  cases h.useMask with
  | false => exact orAssign_zero _
  | true => exact orAssign_high _

/-- With the mask bit the test for an extended length never succeeds. -/
theorem clearHighBit_masked (low : BitVec 7) :
    clearHighBit (BitVec.ofBool true ++ low) ≠ 0x7e#32 ∧
      clearHighBit (BitVec.ofBool true ++ low) ≠ 0x7f#32 := by
  revert low
  decide

theorem clearHighBit_unmasked (low : BitVec 7) :
    clearHighBit (BitVec.ofBool false ++ low) = low.setWidth 32 := by
  revert low
  decide

theorem eq_of_sentLength_medium {payloadLen : BitVec 64} {n : BitVec 16}
    (eq : sentLength payloadLen = .medium n) : n = payloadLen.setWidth 16 := by
  simp only [sentLength] at eq
  split at eq
  · cases eq
  · split at eq
    · cases eq
      rfl
    · cases eq

theorem eq_of_sentLength_long {payloadLen n : BitVec 64}
    (eq : sentLength payloadLen = .long n) : n = payloadLen := by
  simp only [sentLength] at eq
  split at eq
  · cases eq
  · split at eq
    · cases eq
    · cases eq
      rfl

/-- Two bytes and the rest of a header. -/
theorem put_blocks (first second : Byte) {rest : List Byte} {n : Nat} (length : rest.length = n) :
    (BitVec.ofNat 32 (2 + n), (m.put i [first, second]).put (i + 2) rest) =
      (BitVec.ofNat 32 (first :: second :: rest).length, m.put i (first :: second :: rest)) := by
  have stored : (m.put i [first, second]).put (i + 2) rest = m.put i (first :: second :: rest) :=
    put_put
  rw [stored, List.length_cons, List.length_cons, length, Nat.add_comm 2 n]

/-- `binary_pack` writes consecutive bytes from the start of the buffer and
returns how many. -/
theorem binaryPack_eq (boost : BoostEndian) (opcode : OpcodeId) :
    h.binaryPack boost opcode i m =
      (BitVec.ofNat 32 (h.packed opcode).length, m.put i (h.packed opcode)) := by
  have first := finOpcodeBlock_eq h opcode
  have second := maskPayloadLenBlock_eq (h := h) opcode
  have blocks : (m.put (i + 0) [(h.sentLayout opcode).firstByte]).put (i + (0 + 1))
      [(h.sentLayout opcode).secondByte] =
      m.put i [(h.sentLayout opcode).firstByte, (h.sentLayout opcode).secondByte] :=
    put_put
  have code := h.sentLayout_secondByte opcode
  simp only [binaryPack, packed, first, second, blocks, HeaderLayout.keyBytes]
  cases useMask : h.useMask with
  | true =>
      rw [useMask] at code
      have key : (h.sentLayout opcode).key = some h.maskingKey := if_pos useMask
      obtain ⟨not_medium, not_long⟩ := clearHighBit_masked (sentLength h.payloadLen).code
      rw [← code] at not_medium not_long
      simp only [if_neg not_medium, if_neg not_long, if_true, key, Option.elim_some,
        List.nil_append]
      exact put_blocks _ _ Vector.length_toList
  | false =>
      rw [useMask] at code
      have key : (h.sentLayout opcode).key = none := if_neg (Bool.eq_false_iff.mp useMask)
      have cleared := clearHighBit_unmasked (sentLength h.payloadLen).code
      rw [← code] at cleared
      simp only [key, Option.elim_none, List.append_nil, Bool.false_eq_true, if_false]
      change _ = (BitVec.ofNat 32 (_ :: _ :: (sentLength h.payloadLen).extended).length,
        m.put i (_ :: _ :: (sentLength h.payloadLen).extended))
      cases length : sentLength h.payloadLen with
      | short n =>
          have checked : ∀ n : Fin 126, (BitVec.ofNat 7 n).setWidth 32 ≠ 0x7e#32 ∧
              (BitVec.ofNat 7 n).setWidth 32 ≠ 0x7f#32 := by decide
          obtain ⟨not_medium, not_long⟩ := checked n
          rw [length] at cleared
          rw [← LengthField.code, ← cleared] at not_medium not_long
          simp only [if_neg not_medium, if_neg not_long]
          rfl
      | medium n =>
          rw [length] at cleared
          have written := boost.toLittle_nativeToBig 2 n
          have medium : clearHighBit (h.sentLayout opcode).secondByte = 0x7e#32 := cleared
          rw [eq_of_sentLength_medium length] at written ⊢
          simp only [if_pos medium, written]
          exact put_blocks _ _ toBig_length
      | long n =>
          rw [length] at cleared
          have written := boost.toLittle_nativeToBig 8 n
          have long : clearHighBit (h.sentLayout opcode).secondByte = 0x7f#32 := cleared
          have not_medium : clearHighBit (h.sentLayout opcode).secondByte ≠ 0x7e#32 := by
            rw [long]
            decide
          rw [eq_of_sentLength_long length] at written ⊢
          simp only [if_neg not_medium, if_pos long, written]
          exact put_blocks _ _ toBig_length

theorem binaryPackSize_eq (opcode : OpcodeId) :
    h.binaryPackSize = BitVec.ofNat 32 (h.packed opcode).length := by
  have written := binaryPack_eq (h := h) (i := 0) (m := ⟨fun _ => 0, []⟩) .reversing opcode
  have returned : _ = BitVec.ofNat 32 (h.packed opcode).length := congrArg Prod.fst written
  rw [← returned]
  unfold binaryPack binaryPackSize
  dsimp only
  by_cases medium : clearHighBit h.maskPayloadLenBlock = 0x7e#32
  · simp only [if_pos medium]
    split <;> rfl
  · by_cases long : clearHighBit h.maskPayloadLenBlock = 0x7f#32
    · simp only [if_neg medium, if_pos long]
      split <;> rfl
    · simp only [if_neg medium, if_neg long]
      split <;> rfl

/-- The reader gets the length back from the form the writer chose. -/
theorem sentLength_read (payloadLen : BitVec 64) : (sentLength payloadLen).read = payloadLen := by
  simp only [sentLength]
  split
  · exact BitVec.ofNat_toNat .. |>.trans (BitVec.setWidth_eq _)
  · split
    · have value : (payloadLen.setWidth 16).toNat = payloadLen.toNat := by
        rw [BitVec.toNat_setWidth]
        exact Nat.mod_eq_of_lt (by omega)
      have positive : (payloadLen.setWidth 16).msb = false := by
        rw [BitVec.msb_eq_false_iff_two_mul_lt, value]
        omega
      change (payloadLen.setWidth 16).signExtend 64 = payloadLen
      rw [BitVec.signExtend_eq_setWidth_of_msb_false positive]
      apply BitVec.eq_of_toNat_eq
      rw [BitVec.toNat_setWidth_of_le (by decide), value]
    · rfl

/-- Without a mask, or with a short length, the layout is written completely. -/
theorem packed_eq_encode {opcode : OpcodeId} (plain : h.useMask = true → h.payloadLen.toNat < 126) :
    h.packed opcode = (h.sentLayout opcode).encode := by
  simp only [packed, HeaderLayout.encode]
  cases useMask : h.useMask with
  | false => rfl
  | true =>
      have length : (h.sentLayout opcode).length.extended = [] := by
        change (sentLength h.payloadLen).extended = []
        simp only [sentLength]
        rw [dif_pos (plain useMask)]
        rfl
      rw [length]
      rfl

/-- A masked header with a longer payload lacks the extended length. -/
theorem packed_length_lt (opcode : OpcodeId) (useMask : h.useMask = true)
    (extended : ¬ h.payloadLen.toNat < 126) :
    (h.packed opcode).length < (h.sentLayout opcode).size := by
  have length : 0 < (sentLength h.payloadLen).extended.length := by
    simp only [sentLength]
    rw [dif_neg extended]
    split <;> exact toBig_length.symm ▸ by decide
  simp only [packed]
  rw [if_pos useMask, HeaderLayout.size_eq]
  simp only [List.length_cons, List.nil_append]
  change _ < 2 + (sentLength h.payloadLen).extended.length + _
  omega

/-- Reading back, into any header object, what was written into any memory. -/
def RoundTrips (boost : BoostEndian) (h : DataFrameHeader) (opcode : OpcodeId)
    (outBuffer : Nat) (m : Memory Byte) (initial : DataFrameHeader) (length : BitVec 32) : Prop :=
  let (size, written) := h.binaryPack boost opcode outBuffer m
  let (read, _) := initial.analyze boost (some outBuffer) length written
  read.fin = h.fin ∧ read.useMask = h.useMask ∧ read.opcode = opcode ∧
    read.payloadLen = h.payloadLen ∧ (h.useMask = true → read.maskingKey = h.maskingKey) ∧
    read.payloadPos = size

/-- A header survives the round trip exactly when it has no mask or a payload
length that needs no extension. -/
theorem roundTrips_iff (boost : BoostEndian) (h : DataFrameHeader) (opcode : OpcodeId)
    (outBuffer : Nat) (m : Memory Byte) (initial : DataFrameHeader) (length : BitVec 32)
    (defined : opcode.Defined) :
    RoundTrips boost h opcode outBuffer m initial length ↔
      (h.useMask = true → h.payloadLen.toNat < 126) := by
  simp only [RoundTrips]
  rw [binaryPack_eq]
  dsimp only
  constructor
  · rintro ⟨_, _, _, _, _, payloadPos⟩ useMask
    by_contra extended
    -- the reader takes the key, and what follows it, for the length that is missing
    let cell := (m.put outBuffer (h.packed opcode)).cell
    obtain ⟨e, e', analyzed⟩ :=
      analyze_eq boost initial length (HeaderLayout.stored_of cell outBuffer)
    rw [analyzed] at payloadPos
    have second :
        (HeaderLayout.of cell outBuffer).secondByte = (h.sentLayout opcode).secondByte := by
      rw [HeaderLayout.of_secondByte]
      exact put_cell_inside (show 1 < (h.packed opcode).length by simp [packed])
    have size := HeaderLayout.size_eq_of_secondByte second
    have returned : BitVec.ofNat 32 (h.sentLayout opcode).size =
        BitVec.ofNat 32 (h.packed opcode).length := by
      rw [← size]
      exact payloadPos
    have shorter := packed_length_lt opcode useMask extended
    have small := (h.sentLayout opcode).size_le
    have values := congrArg BitVec.toNat returned
    rw [BitVec.toNat_ofNat, BitVec.toNat_ofNat] at values
    omega
  · intro plain
    have holds : Stored (m.put outBuffer (h.packed opcode)).cell outBuffer (h.packed opcode) :=
      stored_put
    rw [packed_eq_encode plain] at holds ⊢
    obtain ⟨e, e', analyzed⟩ := analyze_eq boost initial length holds
    rw [analyzed]
    refine ⟨rfl, ?_, ?_, ?_, ?_, rfl⟩
    · change (h.sentLayout opcode).key.isSome = h.useMask
      simp only [sentLayout]
      cases h.useMask <;> rfl
    · exact OpcodeId.ofCode_code defined
    · exact sentLength_read h.payloadLen
    · intro useMask
      change (h.sentLayout opcode).key.getD initial.maskingKey = h.maskingKey
      simp only [sentLayout]
      rw [if_pos useMask]
      rfl

/-- A text header for 200 bytes, unmasked, in the middle of other data. -/
theorem roundTrips_iff_text :
    RoundTrips .reversing { payloadLen := 200 } .textFrame 3 ⟨fun _ => 0xAA, []⟩ {} 16 :=
  (roundTrips_iff .reversing { payloadLen := 200 } .textFrame 3 ⟨fun _ => 0xAA, []⟩ {} 16
    (by decide)).mpr (by decide)

/-- A masked header for 126 bytes is read back with another size. -/
theorem masked_header_not_roundTrips : ¬ ∀ boost h opcode outBuffer m initial length,
    opcode.Defined → RoundTrips boost h opcode outBuffer m initial length := by
  intro all
  have trip := all .reversing { useMask := true, payloadLen := 126 } .binaryFrame 0
    ⟨fun _ => 0, []⟩ {} 10 (by decide)
  obtain ⟨_, _, _, _, _, payloadPos⟩ := trip
  exact absurd payloadPos (by decide)

end DataFrameHeader
end Vee
