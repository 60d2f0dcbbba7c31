import Mathlib.Data.List.DropRight
import Vee.Handshake.Accept

/-!
# The encoders and the decoder

`base64.cpp` has an encoder for strings, one for vectors of bytes, which breaks
its output into lines, and a decoder that removes every zero at the end of what
it decodes. Boost's iterators are again given by their documentation.
-/

namespace Vee.Base64

open Endian Rfc4648

/-- `encode(const string&)` -/
def encodeString (dst : List Byte) : List Byte :=
  let tmp := base64FromBinary (transformWidth dst)
  tmp ++ List.replicate ((3 - dst.length % 3) % 3) pad

/-- `encode(const std::vector<unsigned char>&)`, undefined where `buff[0]` is not
an element of `buff`. -/
def encodeVector (data : List Byte) : Option (List Byte) :=
  let numberOfPaddChars := if data.length % 3 ≠ 0 then 3 - data.length % 3 else 0
  let buff := data ++ List.replicate numberOfPaddChars 0
  match buff[0]? with
  | none => none
  | some _ =>
      -- the iterators run from `&buff[0]` to `&buff[0] + data.size()`
      let range := buff.take data.length
      let result := insertLinebreaks 72 0 (base64FromBinary (transformWidth range))
      some (result ++ List.replicate numberOfPaddChars pad)

/-- `binary_from_base64`: its table has zero for `=`, and it throws for a character
that the table does not have. -/
def binaryFromBase64 (c : Byte) : Option (BitVec 6) :=
  if c = pad then some 0
  else if c ∈ alphabet then some (BitVec.ofNat 6 (alphabet.idxOf c))
  else none

/-- `decode`, which ends with an exception if the iterator throws. -/
def decode (dst : List Byte) : Option (List Byte) :=
  (dst.mapM binaryFromBase64).map fun words =>
    (regroup 8 [] (words.flatMap bits)).rdropWhile fun c => c = 0

section Table

theorem binaryFromBase64_symbol (x : BitVec 6) : binaryFromBase64 (symbol x) = some x := by
  have other : symbol x ≠ pad := by
    intro same
    exact pad_not_mem_alphabet (same ▸ symbol_mem x)
  have index : alphabet.idxOf (symbol x) = x.toNat := by
    rw [symbol_eq_getElem x (index_lt x)]
    exact alphabet_nodup.idxOf_getElem _ _
  simp only [binaryFromBase64]
  rw [if_neg other, if_pos (symbol_mem x), index, BitVec.ofNat_toNat, BitVec.setWidth_eq]

theorem mapM_symbols (words : List (BitVec 6)) :
    (words.map symbol).mapM binaryFromBase64 = some words := by
  induction words with
  | nil => rfl
  | cons x words ih =>
      rw [List.map_cons, List.mapM_cons, binaryFromBase64_symbol, ih]
      rfl

theorem mapM_padding (n : Nat) :
    (List.replicate n pad).mapM binaryFromBase64 = some (List.replicate n 0) := by
  induction n with
  | zero => rfl
  | succ n ih =>
      rw [List.replicate_succ, List.mapM_cons, ih]
      rfl

/-- The iterator throws for a text with a line break. -/
theorem decode_linebreak {dst : List Byte} (broken : 0x0a ∈ dst) : decode dst = none := by
  have fails : dst.mapM binaryFromBase64 = none := by
    induction dst with
    | nil => cases broken
    | cons c dst ih =>
        rw [List.mapM_cons]
        obtain rfl | later := List.mem_cons.mp broken
        · rfl
        · rw [ih later]
          cases binaryFromBase64 c <;> rfl
  simp only [decode, fails, Option.map_none]

end Table

variable {data : List Byte}

/-- The encoder for strings is that of RFC 4648. -/
theorem encodeString_eq (dst : List Byte) : encodeString dst = Rfc4648.encode dst :=
  (Rfc4648.encode_eq dst).symm

theorem encodeVector_nil : encodeVector [] = none := rfl

theorem encodeVector_eq (nonempty : data ≠ []) : encodeVector data = some (encode data) := by
  simp only [encodeVector, List.take_left]
  cases data with
  | nil => exact absurd rfl nonempty
  | cons c data => rfl

/-- More characters than one line holds are broken. -/
theorem mem_insertLinebreaks {n count : Nat} {s : List Byte} (within : count ≤ n)
    (long : n < count + s.length) : 0x0a ∈ insertLinebreaks n count s := by
  induction s generalizing count with
  | nil =>
      rw [List.length_nil] at long
      omega
  | cons c cs ih =>
      rw [List.length_cons] at long
      simp only [insertLinebreaks]
      split
      · exact List.mem_cons_self
      · exact List.mem_cons_of_mem _ (ih (by omega) (by omega))

/-- The encoder for vectors breaks a line behind 54 bytes. -/
theorem encode_broken (long : 54 < data.length) : 0x0a ∈ encode data := by
  have total := Rfc4648.encode_length data
  rw [Rfc4648.encode_eq, List.length_append, List.length_replicate] at total
  have line : 72 < 0 + (base64FromBinary (transformWidth data)).length := by
    simp only [base64FromBinary, transformWidth]
    omega
  simp only [encode]
  exact List.mem_append_left _ (mem_insertLinebreaks (Nat.zero_le 72) line)

theorem linebreak_not_mem_encode : 0x0a ∉ Rfc4648.encode data := by
  intro member
  obtain symbol | padding := Rfc4648.mem_encode member
  · revert symbol
    decide
  · revert padding
    decide

/-- The encoder for vectors is that of RFC 4648 for what fits on one line. -/
theorem encodeVector_eq_rfc4648_iff :
    encodeVector data = some (Rfc4648.encode data) ↔ 0 < data.length ∧ data.length ≤ 54 := by
  constructor
  · intro same
    have nonempty : data ≠ [] := by
      rintro rfl
      cases same
    refine ⟨List.length_pos_iff.mpr nonempty, ?_⟩
    rw [encodeVector_eq nonempty, Option.some.injEq] at same
    apply Nat.le_of_not_lt
    intro long
    exact linebreak_not_mem_encode (same ▸ encode_broken long)
  · rintro ⟨nonempty, short⟩
    rw [encodeVector_eq (List.length_pos_iff.mp nonempty), encode_eq_rfc4648 short]

/-- The encoders agree, on the encoding of RFC 4648 and within the vector, exactly
for 1 to 54 bytes. -/
theorem encoders_agree_iff (data : List Byte) :
    (encodeVector data = some (encodeString data) ∧ encodeString data = Rfc4648.encode data) ↔
      0 < data.length ∧ data.length ≤ 54 := by
  rw [encodeString_eq, encodeVector_eq_rfc4648_iff]
  exact and_iff_left rfl

/-- There is no first element whose address could be taken. -/
theorem empty_vector_addressed :
    ¬(encodeVector [] = some (encodeString []) ∧ encodeString [] = Rfc4648.encode []) := by
  rw [encodeVector_nil]
  exact fun same => nomatch same.1

/-- Decoding the encoding drops the zeros at the end of the data. -/
theorem decode_encode (data : List Byte) :
    decode (Rfc4648.encode data) = some (data.rdropWhile fun c => c = 0) := by
  have words : (Rfc4648.encode data).mapM binaryFromBase64 =
      some (regroup 6 [] (data.flatMap bits) ++
        List.replicate ((3 - data.length % 3) % 3) 0#6) := by
    rw [Rfc4648.encode_eq, List.mapM_append, mapM_symbols, mapM_padding]
    rfl
  have zeros (n : Nat) : (data ++ List.replicate n 0#8).rdropWhile (fun c => c = 0) =
      data.rdropWhile fun c => c = 0 := by
    induction n with
    | zero => rw [List.replicate_zero, List.append_nil]
    | succ n ih =>
        rw [List.replicate_succ', ← List.append_assoc, List.rdropWhile_concat_pos _ _ _ (by decide),
          ih]
  simp only [decode, words, Option.map_some]
  rw [regroup_encoded, zeros]

example : decode (ascii "TWFuAA==") = some (ascii "Man") := by
  simp only [ascii]
  decide

theorem rdropWhile_zero_iff (data : List Byte) :
    (data.rdropWhile fun c => c = 0) = data ↔ data.getLast? ≠ some 0 := by
  rw [List.rdropWhile_eq_self_iff]
  cases data using List.reverseRecOn with
  | nil => simp
  | append_singleton data c => simp

/-- Decoding undoes the encoder for strings exactly for data that do not end with
a zero, and that for vectors if they also fit on one line and are not empty. -/
theorem decode_undoes_encode_iff (data : List Byte) :
    (decode (encodeString data) = some data ↔ data.getLast? ≠ some 0) ∧
      ((encodeVector data).bind decode = some data ↔
        0 < data.length ∧ data.length ≤ 54 ∧ data.getLast? ≠ some 0) := by
  have ending : decode (Rfc4648.encode data) = some data ↔ data.getLast? ≠ some 0 := by
    rw [decode_encode, Option.some.injEq, rdropWhile_zero_iff]
  refine ⟨?_, ?_⟩
  · rw [encodeString_eq]
    exact ending
  · constructor
    · intro undone
      have nonempty : data ≠ [] := by
        rintro rfl
        cases undone
      have short : data.length ≤ 54 := by
        apply Nat.le_of_not_lt
        intro long
        rw [encodeVector_eq nonempty, Option.bind_some,
          decode_linebreak (encode_broken long)] at undone
        cases undone
      rw [encodeVector_eq nonempty, encode_eq_rfc4648 short, Option.bind_some] at undone
      exact ⟨List.length_pos_iff.mpr nonempty, short, ending.mp undone⟩
    · rintro ⟨nonempty, short, last⟩
      rw [encodeVector_eq (List.length_pos_iff.mp nonempty), encode_eq_rfc4648 short,
        Option.bind_some]
      exact ending.mpr last

/-- A zero at the end is taken for padding. -/
theorem decode_loses_zero : ¬(decode (encodeString [0x41, 0]) = some [0x41, 0] ∧
    (encodeVector [0x41, 0]).bind decode = some [0x41, 0]) := by
  intro undone
  have lost := decode_encode [0x41, 0]
  rw [← encodeString_eq, undone.1] at lost
  revert lost
  decide

end Vee.Base64
