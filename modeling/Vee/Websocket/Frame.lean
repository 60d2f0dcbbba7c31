import Vee.Bytes.Endian
import Vee.Memory.Basic

/-!
# WebSocket frames

The framing of RFC 6455: a header with one of three forms of the payload length
and an optional masking key, followed by the payload, which is masked when there
is a key. Every sequence of bytes that is long enough starts with exactly one
header; `HeaderLayout.of` is the header found at a position in memory.
-/

namespace Vee

open Endian Memory

/-- The payload length, in 7 bits or extended to 16 or 64 bits. -/
inductive LengthField where
  | short (n : Fin 126)
  | medium (n : BitVec 16)
  | long (n : BitVec 64)
  deriving DecidableEq, Repr

namespace LengthField

/-- The number of payload bytes that the field stands for. -/
def value : LengthField → Nat
  | short n => n
  | medium n => n.toNat
  | long n => n.toNat

/-- The 7-bit part. -/
def code : LengthField → BitVec 7
  | short n => BitVec.ofNat 7 n
  | medium _ => 126
  | long _ => 127

def extended : LengthField → List Byte
  | short _ => []
  | medium n => toBig 2 n.toNat
  | long n => toBig 8 n.toNat

/-- The shortest form for a length, for lengths of at most 64 bits. -/
def minimal (n : Nat) : LengthField :=
  if h : n < 126 then .short ⟨n, h⟩
  else if n < 2 ^ 16 then .medium (BitVec.ofNat 16 n)
  else .long (BitVec.ofNat 64 n)

theorem minimal_value {n : Nat} (fits : n < 2 ^ 64) : (minimal n).value = n := by
  simp only [minimal]
  split
  · rfl
  · split
    · exact Nat.mod_eq_of_lt (by omega)
    · exact Nat.mod_eq_of_lt fits

end LengthField

structure HeaderLayout where
  fin : Bool
  reserved : BitVec 3
  opcode : BitVec 4
  length : LengthField
  key : Option (Vector Byte 4)
  deriving DecidableEq, Repr

namespace HeaderLayout

def firstByte (h : HeaderLayout) : Byte :=
  BitVec.ofBool h.fin ++ h.reserved ++ h.opcode

def secondByte (h : HeaderLayout) : Byte :=
  BitVec.ofBool h.key.isSome ++ h.length.code

def keyBytes (h : HeaderLayout) : List Byte :=
  h.key.elim [] Vector.toList

def encode (h : HeaderLayout) : List Byte :=
  h.firstByte :: h.secondByte :: (h.length.extended ++ h.keyBytes)

def size (h : HeaderLayout) : Nat := h.encode.length

/-- A connection close, a ping or a pong. -/
def Control (h : HeaderLayout) : Prop := h.opcode = 0x8 ∨ h.opcode = 0x9 ∨ h.opcode = 0xA

instance (h : HeaderLayout) : Decidable h.Control := by
  unfold Control
  infer_instance

/-- The key that masks the payload, zero when there is none. -/
def mask (h : HeaderLayout) : Vector Byte 4 := h.key.getD (.replicate 4 0)

end HeaderLayout

/-- Masking, which is its own inverse. -/
def masked (key : Vector Byte 4) (payload : List Byte) : List Byte :=
  payload.mapIdx fun i b => b ^^^ key[i % 4]

/-- A frame whose length field is right. -/
@[ext]
structure Frame where
  header : HeaderLayout
  payload : List Byte
  length_eq : header.length.value = payload.length

namespace Frame

def encode (f : Frame) : List Byte := f.header.encode ++ masked f.header.mask f.payload

/-- A data frame without extensions, its length in the shortest form. -/
structure PlainData (f : Frame) : Prop where
  reserved : f.header.reserved = 0
  opcode : f.header.opcode = 0x0 ∨ f.header.opcode = 0x1 ∨ f.header.opcode = 0x2
  length : f.header.length = .minimal f.payload.length

theorem encode_length (f : Frame) : f.encode.length = f.header.size + f.payload.length := by
  simp only [encode, masked]
  rw [List.length_append, List.length_mapIdx]
  rfl

/-- Every payload whose length fits a length field has a plain data frame. -/
theorem exists_plainData {payload : List Byte} (fits : payload.length < 2 ^ 64) :
    ∃ f : Frame, f.PlainData ∧ f.payload = payload := by
  let header : HeaderLayout :=
    { fin := true, reserved := 0, opcode := 2, length := .minimal payload.length, key := none }
  exact ⟨⟨header, payload, LengthField.minimal_value fits⟩, ⟨rfl, .inr (.inr rfl), rfl⟩, rfl⟩

theorem PlainData.not_control {f : Frame} (h : f.PlainData) : ¬ f.header.Control := by
  rintro (code | code | code) <;> obtain other | other | other := h.opcode <;>
    exact absurd (code.symm.trans other) (by decide)

end Frame

namespace LengthField

variable {l : LengthField}

/-- The 7-bit part tells how many bytes follow. -/
theorem extended_length :
    l.extended.length = if l.code = 126 then 2 else if l.code = 127 then 8 else 0 := by
  cases l with
  | short n =>
      have checked : ∀ n : Fin 126, BitVec.ofNat 7 n ≠ 126#7 ∧ BitVec.ofNat 7 n ≠ 127#7 := by
        decide
      obtain ⟨not_medium, not_long⟩ := checked n
      exact (if_neg not_medium).trans (if_neg not_long) |>.symm
  | medium n => exact toBig_length
  | long n => exact toBig_length

/-- The field that starts with the given 7 bits and continues as the bytes say. -/
def parse (code : BitVec 7) (bytes : Nat → List Byte) : LengthField :=
  if h : code.toNat < 126 then .short ⟨code.toNat, h⟩
  else if code = 126 then .medium (BitVec.ofNat 16 (ofBig (bytes 2)))
  else .long (BitVec.ofNat 64 (ofBig (bytes 8)))

theorem parse_code (code : BitVec 7) (bytes : Nat → List Byte) :
    (parse code bytes).code = code := by
  simp only [parse]
  split
  · apply BitVec.eq_of_toNat_eq
    exact Nat.mod_eq_of_lt code.isLt
  · split
    · exact Eq.symm ‹_›
    · have bound := code.isLt
      apply BitVec.eq_of_toNat_eq
      change 127 = code.toNat
      have : code.toNat ≠ 126 := fun h => ‹¬ code = 126› (BitVec.eq_of_toNat_eq h)
      omega

/-- A field that memory holds is found again. -/
theorem parse_eq {cell : Nat → Byte} {i : Nat} (holds : Stored cell i l.extended) :
    parse l.code (slice cell i) = l := by
  simp only [parse]
  cases l with
  | short n =>
      have code : (BitVec.ofNat 7 n).toNat = n := Nat.mod_eq_of_lt (by omega)
      change (if h : (BitVec.ofNat 7 n).toNat < 126 then short ⟨_, h⟩ else _) = _
      rw [dif_pos (by omega)]
      congr 1
      exact Fin.ext code
  | medium n =>
      have bytes : slice cell i 2 = toBig 2 n.toNat := holds
      change medium (BitVec.ofNat 16 (ofBig (slice cell i 2))) = _
      rw [bytes, ofBig_toBig n.isLt, BitVec.ofNat_toNat, BitVec.setWidth_eq]
  | long n =>
      have bytes : slice cell i 8 = toBig 8 n.toNat := holds
      change long (BitVec.ofNat 64 (ofBig (slice cell i 8))) = _
      rw [bytes, ofBig_toBig n.isLt, BitVec.ofNat_toNat, BitVec.setWidth_eq]

theorem parse_extended (code : BitVec 7) (bytes : Nat → List Byte)
    (length : ∀ n, (bytes n).length = n) :
    (parse code bytes).extended = bytes (parse code bytes).extended.length := by
  have whole (n : Nat) : toBig n (ofBig (bytes n)) = bytes n := by
    have recovered := toBig_ofBig (bytes n)
    rwa [length n] at recovered
  have bound (n : Nat) : ofBig (bytes n) < 256 ^ n := by
    have bound := ofBig_lt (bytes n)
    rwa [length n] at bound
  simp only [parse]
  split
  · exact (List.length_eq_zero_iff.mp (length 0)).symm
  · split
    · have small : ofBig (bytes 2) < 2 ^ 16 := bound 2
      simp only [extended, toBig_length, BitVec.toNat_ofNat]
      rw [Nat.mod_eq_of_lt small, whole]
    · have small : ofBig (bytes 8) < 2 ^ 64 := bound 8
      simp only [extended, toBig_length, BitVec.toNat_ofNat]
      rw [Nat.mod_eq_of_lt small, whole]

end LengthField

namespace HeaderLayout

variable {h : HeaderLayout}

theorem keyBytes_length : h.keyBytes.length = if h.key.isSome then 4 else 0 := by
  simp only [keyBytes]
  cases h.key with
  | none => rfl
  | some key => exact Vector.length_toList

theorem size_eq : h.size = 2 + h.length.extended.length + h.keyBytes.length := by
  simp only [size, encode, List.length_cons, List.length_append]
  omega

theorem secondByte_parts (h : HeaderLayout) :
    h.secondByte.msb = h.key.isSome ∧ h.secondByte.extractLsb' 0 7 = h.length.code := by
  have parts : ∀ (bit : Bool) (low : BitVec 7), (BitVec.ofBool bit ++ low : BitVec 8).msb = bit ∧
      (BitVec.ofBool bit ++ low : BitVec 8).extractLsb' 0 7 = low := by decide
  exact parts h.key.isSome h.length.code

/-- The second byte tells the size of a header. -/
theorem size_eq_of_secondByte {h' : HeaderLayout} (same : h.secondByte = h'.secondByte) :
    h.size = h'.size := by
  obtain ⟨mask, code⟩ := h.secondByte_parts
  obtain ⟨mask', code'⟩ := h'.secondByte_parts
  rw [same, mask'] at mask
  rw [same, code'] at code
  rw [size_eq, size_eq, keyBytes_length, keyBytes_length, LengthField.extended_length,
    LengthField.extended_length, mask, code]

theorem size_le (h : HeaderLayout) : h.size ≤ 14 := by
  rw [size_eq, keyBytes_length, LengthField.extended_length]
  split <;> split <;> (try split) <;> omega

/-- The header at a position in memory. -/
def of (cell : Nat → Byte) (i : Nat) : HeaderLayout :=
  let length := LengthField.parse ((cell (i + 1)).extractLsb' 0 7) (slice cell (i + 2))
  { fin := (cell i).msb
    reserved := (cell i).extractLsb' 4 3
    opcode := (cell i).extractLsb' 0 4
    length
    key :=
      if (cell (i + 1)).msb then some (.ofFn fun j => cell (i + 2 + length.extended.length + j))
      else none }

theorem of_firstByte (cell : Nat → Byte) (i : Nat) : (of cell i).firstByte = cell i := by
  have split : ∀ b : BitVec 8,
      BitVec.ofBool b.msb ++ b.extractLsb' 4 3 ++ b.extractLsb' 0 4 = b := by decide
  exact split (cell i)

theorem of_secondByte (cell : Nat → Byte) (i : Nat) :
    (of cell i).secondByte = cell (i + 1) := by
  have split : ∀ b : BitVec 8, BitVec.ofBool b.msb ++ b.extractLsb' 0 7 = b := by decide
  simp only [secondByte]
  conv_rhs => rw [← split (cell (i + 1))]
  congr 1
  · simp only [of]
    cases (cell (i + 1)).msb <;> rfl
  · exact LengthField.parse_code _ _

/-- Every memory starts with a header. -/
theorem stored_of (cell : Nat → Byte) (i : Nat) : Stored cell i (of cell i).encode := by
  simp only [encode]
  rw [stored_cons, stored_cons, stored_append]
  refine ⟨(of_firstByte cell i).symm, (of_secondByte cell i).symm, ?_, ?_⟩
  · have extended := LengthField.parse_extended ((cell (i + 1)).extractLsb' 0 7)
      (slice cell (i + 2)) fun n => slice_length
    exact extended.symm
  · simp only [keyBytes, of]
    cases (cell (i + 1)).msb with
    | false => rfl
    | true =>
        change Stored cell _ (Vector.toList _)
        rw [toList_ofFn]
        exact stored_slice

/-- And with only one. -/
theorem of_eq {cell : Nat → Byte} {i : Nat} (holds : Stored cell i h.encode) : of cell i = h := by
  simp only [encode] at holds
  rw [stored_cons, stored_cons, stored_append] at holds
  obtain ⟨first, second, extended, key⟩ := holds
  have firstParts : ∀ (bit : Bool) (reserved : BitVec 3) (low : BitVec 4),
      (BitVec.ofBool bit ++ reserved ++ low : BitVec 8).msb = bit ∧
      (BitVec.ofBool bit ++ reserved ++ low : BitVec 8).extractLsb' 4 3 = reserved ∧
      (BitVec.ofBool bit ++ reserved ++ low : BitVec 8).extractLsb' 0 4 = low := by decide
  obtain ⟨fin, reserved, opcode⟩ := firstParts h.fin h.reserved h.opcode
  obtain ⟨mask, code⟩ := secondByte_parts h
  rw [← firstByte, ← first] at fin reserved opcode
  rw [← second] at mask code
  have length := LengthField.parse_eq extended
  simp only [of]
  have found : (if h.key.isSome = true then
      some (Vector.ofFn fun j : Fin 4 => cell (i + 2 + h.length.extended.length + j))
      else none) = h.key := by
    simp only [keyBytes] at key
    cases stored : h.key with
    | none => rfl
    | some k =>
        rw [stored] at key
        change some _ = some k
        congr 1
        apply Vector.toList_inj.mp
        have size : k.toList.length = 4 := Vector.length_toList
        simp only [Stored] at key
        rw [Option.elim_some, size] at key
        rw [toList_ofFn]
        exact key
  simp only [fin, reserved, opcode, mask, code, length, found]

end HeaderLayout
end Vee
