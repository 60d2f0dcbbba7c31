import Vee.Bytes.Endian
import Vee.Memory.Basic

/-!
# The data frame header

`data_frame_header` with its reader and its writer. A C++ integer is a bit
vector of its width; an operand narrower than `int` is sign extended before an
operation and the result truncated when it is stored back, as the promotions of
the source do. The host is little-endian, so `memmove` between a field and a
buffer transfers the bytes of the field in this order.
-/

namespace Vee

open Endian

inductive OpcodeId where
  | undefined
  | continuationFrame
  | textFrame
  | binaryFrame
  | connnectionClose
  | ping
  | pong
  | reservedForFurther
  deriving DecidableEq, Repr

/-- `boost::endian` on a little-endian host, where both conversions are
documented to reverse the bytes. -/
structure BoostEndian where
  bigToNative : {w : Nat} → BitVec w → BitVec w
  nativeToBig : {w : Nat} → BitVec w → BitVec w
  bigToNative_eq : ∀ n (x : BitVec (8 * n)), bigToNative x = Endian.reverse x
  nativeToBig_eq : ∀ n (x : BitVec (8 * n)), nativeToBig x = Endian.reverse x

/-- An implementation of the conversions. -/
def BoostEndian.reversing : BoostEndian where
  bigToNative := Endian.reverse
  nativeToBig := Endian.reverse
  bigToNative_eq _ _ := rfl
  nativeToBig_eq _ _ := rfl

/-- Value-initialisation makes `masking_key` zero, which has no initialiser of
its own. -/
structure DataFrameHeader where
  fin : Bool := true
  useMask : Bool := false
  payloadLen : BitVec 64 := 0
  payloadPos : BitVec 32 := 0
  finOpcode : BitVec 8 := 0
  maskPayloadLen : BitVec 8 := 0
  extendedPayloadLen16 : BitVec 16 := 0
  extendedPayloadLen64 : BitVec 64 := 0
  opcode : OpcodeId := .undefined
  maskingKey : Vector Byte 4 := .replicate 4 0
  deriving DecidableEq, Repr

namespace DataFrameHeader

/-- `((block & 0x80) >> 7) ? true : false` -/
def highBit (block : BitVec 8) : Bool :=
  (block.signExtend 32 &&& 0x80#32).sshiftRight 7 ≠ 0#32

/-- `block & 0x7f`, assigned to a 64-bit field -/
def lowBits (block : BitVec 8) : BitVec 64 :=
  (block.signExtend 32 &&& 0x7f#32).signExtend 64

/-- `switch ((fin_opcode & 0x0f))` -/
def opcodeOf (finOpcode : BitVec 8) : OpcodeId :=
  match (finOpcode.signExtend 32 &&& 0x0f#32).toNat with
  | 0x0 => .continuationFrame
  | 0x1 => .textFrame
  | 0x2 => .binaryFrame
  | 0x8 => .connnectionClose
  | 0x9 => .ping
  | 0xA => .pong
  | _ => .reservedForFurther

/-- The first two bytes. -/
def analyzeBlocks (h : DataFrameHeader) (rawData : Nat) (m : Memory Byte) :
    DataFrameHeader × Nat × Memory Byte :=
  let shift := 0
  let (block, m) := m.fetch (rawData + shift) 1
  let shift := shift + 1
  let finOpcode := block[0]
  let h := { h with finOpcode, fin := highBit finOpcode, opcode := opcodeOf finOpcode }
  let (block, m) := m.fetch (rawData + shift) 1
  let shift := shift + 1
  let maskPayloadLen := block[0]
  let h := { h with
    maskPayloadLen
    useMask := highBit maskPayloadLen
    payloadLen := lowBits maskPayloadLen }
  (h, shift, m)

/-- The extended payload length, a signed field of 16 or 64 bits. -/
def analyzeExtended (boost : BoostEndian) (h : DataFrameHeader) (rawData shift : Nat)
    (m : Memory Byte) : DataFrameHeader × Nat × Memory Byte :=
  if h.payloadLen = 0x7e#64 then
    let (bytes, m) := m.fetch (rawData + shift) 2
    let extendedPayloadLen16 := BitVec.ofNat 16 (ofLittle bytes.toList)
    let h := { h with
      extendedPayloadLen16
      payloadLen := (boost.bigToNative extendedPayloadLen16).signExtend 64 }
    (h, shift + 2, m)
  else if h.payloadLen = 0x7f#64 then
    let (bytes, m) := m.fetch (rawData + shift) 8
    let extendedPayloadLen64 := BitVec.ofNat 64 (ofLittle bytes.toList)
    let h := { h with
      extendedPayloadLen64
      payloadLen := boost.bigToNative extendedPayloadLen64 }
    (h, shift + 8, m)
  else (h, shift, m)

def analyzeMaskingKey (h : DataFrameHeader) (rawData shift : Nat) (m : Memory Byte) :
    DataFrameHeader × Nat × Memory Byte :=
  if h.useMask then
    let (maskingKey, m) := m.fetch (rawData + shift) 4
    ({ h with maskingKey }, shift + 4, m)
  else (h, shift, m)

/-- `analyze(raw_data, length)`; the length is not used. `raw_data` is null or a
position in memory. -/
def analyze (boost : BoostEndian) (h : DataFrameHeader) (rawData : Option Nat)
    (_length : BitVec 32) (m : Memory Byte) : DataFrameHeader × Memory Byte :=
  match rawData with
  | none => (h, m)
  | some rawData =>
      let (h, shift, m) := h.analyzeBlocks rawData m
      let (h, shift, m) := h.analyzeExtended boost rawData shift m
      let (h, shift, m) := h.analyzeMaskingKey rawData shift m
      ({ h with payloadPos := BitVec.ofNat 32 shift }, m)

/-- `block |= bits` -/
def orAssign (block : BitVec 8) (bits : BitVec 32) : BitVec 8 :=
  (block.signExtend 32 ||| bits).setWidth 8

def finOpcodeBlock (fin : Bool) (opcode : OpcodeId) : BitVec 8 :=
  let block := match opcode with
    | .continuationFrame => 0x0#8
    | .textFrame => 0x1#8
    | .binaryFrame => 0x2#8
    | .connnectionClose => 0x8#8
    | .ping => 0x9#8
    | .pong => 0xA#8
    | .reservedForFurther => 0x2#8
    | .undefined => 0x2#8
  if fin then orAssign block 0x80#32 else orAssign block 0x00#32

def maskPayloadLenBlock (h : DataFrameHeader) : BitVec 8 :=
  let block :=
    if 0x7e#64 ≤ h.payloadLen then
      if h.payloadLen ≤ 32767#64 then 0x7e#8 else 0x7f#8
    else h.payloadLen.setWidth 8
  if h.useMask then orAssign block 0x80#32 else orAssign block 0x00#32

/-- `block & (~0x80)`, which as an int keeps the sign of a block with the mask bit. -/
def clearHighBit (block : BitVec 8) : BitVec 32 :=
  block.signExtend 32 &&& ~~~0x80#32

/-- `binary_pack(opcode, out_buffer)` with the position of the buffer in memory. -/
def binaryPack (boost : BoostEndian) (h : DataFrameHeader) (opcode : OpcodeId)
    (outBuffer : Nat) (m : Memory Byte) : BitVec 32 × Memory Byte :=
  let shift := 0
  let m := m.put (outBuffer + shift) [finOpcodeBlock h.fin opcode]
  let shift := shift + 1
  let block := h.maskPayloadLenBlock
  let m := m.put (outBuffer + shift) [block]
  let shift := shift + 1
  let (shift, m) :=
    if clearHighBit block = 0x7e#32 then
      let extendedPayloadLen16 : BitVec 16 := boost.nativeToBig (h.payloadLen.setWidth 16)
      (shift + 2, m.put (outBuffer + shift) (toLittle 2 extendedPayloadLen16.toNat))
    else if clearHighBit block = 0x7f#32 then
      let extendedPayloadLen64 : BitVec 64 := boost.nativeToBig h.payloadLen
      (shift + 8, m.put (outBuffer + shift) (toLittle 8 extendedPayloadLen64.toNat))
    else (shift, m)
  let (shift, m) :=
    if h.useMask then (shift + 4, m.put (outBuffer + shift) h.maskingKey.toList)
    else (shift, m)
  (BitVec.ofNat 32 shift, m)

def binaryPackSize (h : DataFrameHeader) : BitVec 32 :=
  let shift := 1
  let block := h.maskPayloadLenBlock
  let shift := shift + 1
  let shift :=
    if clearHighBit block = 0x7e#32 then shift + 2
    else if clearHighBit block = 0x7f#32 then shift + 8
    else shift
  let shift := if h.useMask then shift + 4 else shift
  BitVec.ofNat 32 shift

end DataFrameHeader
end Vee
