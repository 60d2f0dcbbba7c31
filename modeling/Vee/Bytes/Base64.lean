import Mathlib.Data.List.GetD
import Mathlib.Data.List.Nodup
import Vee.Bytes.Endian

/-!
# Base 64

The encoding of RFC 4648, which takes three bytes at a time, and its description
as a stream: all bits in a row, cut into words of 6 bits of which zeros fill the
last, translated one by one, with the padding computed from the length alone.
-/

namespace Rfc4648

open Endian

variable {k m n w : Nat} {pending group more : List Bool} {data data' : List Byte}

/-- The bits of a word, the highest one first. -/
def bits (x : BitVec w) : List Bool := (List.range w).map x.getMsbD

/-- The word with these bits. -/
def ofBits (m : Nat) (bits : List Bool) : BitVec m := (BitVec.ofBoolListBE bits).setWidth m

/-- The words of `m` bits that a word consists of, the highest one first. -/
def words (m : Nat) : (k : Nat) → BitVec (m * k) → List (BitVec m)
  | 0, _ => []
  | k + 1, x => x.extractLsb' (m * k) m :: words m k (x.extractLsb' 0 (m * k))

/-- Cut a sequence of bits into words of `m` bits. Zeros fill the last one. -/
def regroup (m : Nat) (pending : List Bool) : List Bool → List (BitVec m)
  | [] =>
      if pending = [] then []
      else [ofBits m (pending ++ List.replicate (m - pending.length) false)]
  | b :: more =>
      if pending.length + 1 = m then ofBits m (pending ++ [b]) :: regroup m [] more
      else regroup m (pending ++ [b]) more

/-- The characters `A` to `Z`, `a` to `z`, `0` to `9`, `+` and `/`. -/
def alphabet : List Byte :=
  (List.range 26).map (fun i => BitVec.ofNat 8 (0x41 + i)) ++
  (List.range 26).map (fun i => BitVec.ofNat 8 (0x61 + i)) ++
  (List.range 10).map (fun i => BitVec.ofNat 8 (0x30 + i)) ++ [0x2b, 0x2f]

def symbol (x : BitVec 6) : Byte := alphabet.getD x.toNat 0

/-- The character `=` -/
def pad : Byte := 0x3d

/-- The encoding of RFC 4648, section 4. -/
def encode : List Byte → List Byte
  | a :: b :: c :: rest => (words 6 4 (a ++ b ++ c)).map symbol ++ encode rest
  | [a, b] => (words 6 3 (a ++ b ++ 0#2)).map symbol ++ [pad]
  | [a] => (words 6 2 (a ++ 0#4)).map symbol ++ [pad, pad]
  | [] => []

@[simp] theorem bits_length (x : BitVec w) : (bits x).length = w := by
  simp only [bits]
  rw [List.length_map, List.length_range]

theorem bits_append (x : BitVec n) (y : BitVec k) : bits (x ++ y) = bits x ++ bits y := by
  apply List.ext_getElem
  · simp only [bits_length, List.length_append]
  · intro i inside _
    rw [bits_length] at inside
    simp only [bits, List.getElem_map, List.getElem_range, BitVec.getMsbD_append,
      List.getElem_append, List.length_map, List.length_range]
    by_cases first : i < n
    · rw [dif_pos first, if_neg (Nat.not_le.mpr first)]
    · rw [dif_neg first, if_pos (Nat.not_lt.mp first)]

theorem getElem_bits (x : BitVec w) {i : Nat} (inside : i < (bits x).length) :
    (bits x)[i] = x.getMsbD i := by
  simp only [bits, List.getElem_map, List.getElem_range]

theorem bits_zero : bits (0#n) = List.replicate n false := by
  apply List.ext_getElem
  · rw [bits_length, List.length_replicate]
  · intro i _ _
    rw [getElem_bits, List.getElem_replicate, BitVec.getMsbD_zero]

theorem ofBits_bits (x : BitVec w) : ofBits w (bits x) = x := by
  apply BitVec.eq_of_getMsbD_eq
  intro i inside
  have index : i + (bits x).length - w = i := by
    rw [bits_length, Nat.add_sub_cancel]
  simp only [ofBits]
  rw [BitVec.getMsbD_setWidth, BitVec.getMsbD_ofBoolListBE]
  simp [bits, inside]

/-- A word as its highest bits and the rest. -/
theorem bits_extract (x : BitVec (n + m)) :
    bits (x.extractLsb' n m) ++ bits (x.extractLsb' 0 n) = bits x := by
  rw [← bits_append]
  apply List.ext_getElem
  · rw [bits_length, bits_length, Nat.add_comm]
  · intro i inside _
    rw [bits_length] at inside
    simp only [getElem_bits, BitVec.getMsbD_append, BitVec.getMsbD_extractLsb']
    split
    · have position : n + m - (0 + n - (i - m)) = i := by omega
      have fits : i - m < n ∧ 0 + n - (i - m) ≤ n + m := by omega
      rw [position, decide_eq_true fits.1, decide_eq_true fits.2, Bool.true_and, Bool.true_and]
    · have position : n + m - (n + m - i) = i := by omega
      have fits : i < m ∧ n + m - i ≤ n + m := by omega
      rw [position, decide_eq_true fits.1, decide_eq_true fits.2, Bool.true_and, Bool.true_and]

/-- A group of bits that fills up a word. -/
theorem regroup_group (filled : pending.length + group.length = m) (more_to_come : group ≠ []) :
    regroup m pending (group ++ more) = ofBits m (pending ++ group) :: regroup m [] more := by
  induction group generalizing pending with
  | nil => exact absurd rfl more_to_come
  | cons b group ih =>
      rw [List.length_cons] at filled
      simp only [List.cons_append, regroup]
      cases group with
      | nil => rw [if_pos (by simpa using filled), List.nil_append]
      | cons b' group =>
          have shorter : (pending ++ [b]).length + (b' :: group).length = m := by
            rw [List.length_append, List.length_singleton]
            omega
          rw [List.length_cons] at filled
          rw [if_neg (by omega), ih shorter (List.cons_ne_nil _ _), List.append_assoc]
          rfl

theorem bits_ofBits {group : List Bool} (filled : group.length = m) :
    bits (ofBits m group) = group := by
  apply List.ext_getElem
  · rw [bits_length, filled]
  · intro i inside _
    rw [bits_length] at inside
    have index : i + group.length - m = i := by
      rw [filled, Nat.add_sub_cancel]
    rw [getElem_bits]
    simp only [ofBits]
    rw [BitVec.getMsbD_setWidth, BitVec.getMsbD_ofBoolListBE]
    simp [inside, filled]

/-- Words are regrouped into themselves. -/
theorem regroup_flatMap_bits (positive : 0 < m) (xs : List (BitVec m)) :
    regroup m [] (xs.flatMap bits) = xs := by
  induction xs with
  | nil => rfl
  | cons x xs ih =>
      have nonempty : bits x ≠ [] := by
        rw [← List.length_pos_iff, bits_length]
        exact positive
      have filled : ([] : List Bool).length + (bits x).length = m := by
        rw [List.length_nil, Nat.zero_add, bits_length]
      rw [List.flatMap_cons, regroup_group filled nonempty, List.nil_append, ofBits_bits, ih]

/-- Regrouping keeps the bits. Zeros may follow them. -/
theorem flatMap_bits_regroup (open_ : pending.length < m) :
    ∃ n, (regroup m pending group).flatMap bits = pending ++ group ++ List.replicate n false := by
  induction group generalizing pending with
  | nil =>
      simp only [regroup]
      split
      · rename_i begun
        rw [begun]
        exact ⟨0, rfl⟩
      · have filled : (pending ++ List.replicate (m - pending.length) false).length = m := by
          rw [List.length_append, List.length_replicate]
          omega
        refine ⟨m - pending.length, ?_⟩
        rw [List.flatMap_singleton, bits_ofBits filled, List.append_nil]
  | cons b group ih =>
      have longer : (pending ++ [b]).length = pending.length + 1 := by
        rw [List.length_append, List.length_singleton]
      simp only [regroup]
      split
      · rename_i full
        have empty : ([] : List Bool).length < m := by
          rw [List.length_nil]
          omega
        obtain ⟨n, rest⟩ := ih empty
        refine ⟨n, ?_⟩
        rw [List.flatMap_cons, bits_ofBits (longer.trans full), rest]
        simp only [List.nil_append, List.append_assoc, List.cons_append]
      · rename_i unfilled
        have still_open : (pending ++ [b]).length < m := by
          rw [longer]
          omega
        obtain ⟨n, rest⟩ := ih still_open
        refine ⟨n, ?_⟩
        rw [rest]
        simp only [List.nil_append, List.append_assoc, List.cons_append]

/-- Regrouping the bits of a word and more. -/
theorem regroup_bits (positive : 0 < m) (x : BitVec (m * k)) (more : List Bool) :
    regroup m [] (bits x ++ more) = words m k x ++ regroup m [] more := by
  induction k with
  | zero => rfl
  | succ k ih =>
      have high : (bits (x.extractLsb' (m * k) m)).length = m := bits_length _
      have nonempty : bits (x.extractLsb' (m * k) m) ≠ [] := by
        rw [← List.length_pos_iff, high]
        exact positive
      have parts : bits x = bits (x.extractLsb' (m * k) m) ++ bits (x.extractLsb' 0 (m * k)) :=
        (bits_extract x).symm
      rw [parts, List.append_assoc,
        regroup_group (by rw [List.length_nil, Nat.zero_add, high]) nonempty, ih,
        List.nil_append, ofBits_bits]
      rfl

/-- The zeros that fill the last word may be there already. -/
theorem regroup_zeros (open_ : pending.length < m) (few : n < m)
    (filled : (pending.length + group.length + n) % m = 0) :
    regroup m pending (group ++ List.replicate n false) = regroup m pending group := by
  induction group generalizing pending with
  | nil =>
      rw [List.length_nil, Nat.add_zero] at filled
      rw [List.nil_append]
      by_cases begun : pending = []
      · rw [begun, List.length_nil, Nat.zero_add, Nat.mod_eq_of_lt few] at filled
        rw [filled]
        rfl
      · have some_bits : 0 < pending.length := List.length_pos_iff.mpr begun
        have total : pending.length + n = m := by
          obtain ⟨q, total⟩ := Nat.dvd_of_mod_eq_zero filled
          have one : q = 1 := by
            have low : 0 < m * q := by omega
            have high : m * q < m * 2 := by omega
            have := Nat.lt_of_mul_lt_mul_left high
            have := Nat.pos_of_mul_pos_left low
            omega
          rw [total, one, Nat.mul_one]
        have zeros : List.replicate n false ≠ [] := by
          rw [ne_eq, List.replicate_eq_nil_iff]
          omega
        have last : regroup m pending (List.replicate n false ++ []) =
            ofBits m (pending ++ List.replicate n false) :: regroup m [] [] :=
          regroup_group (by rw [List.length_replicate, total]) zeros
        have missing : m - pending.length = n := by omega
        rw [List.append_nil] at last
        rw [last]
        simp only [regroup, if_true, if_neg begun, missing]
  | cons b group ih =>
      rw [List.length_cons] at filled
      simp only [List.cons_append, regroup]
      split
      · rename_i full
        rw [ih]
        · exact Nat.lt_of_le_of_lt (Nat.zero_le n) few
        · rw [List.length_nil, Nat.zero_add, ← Nat.add_mod_right, ← filled, ← full]
          congr 1
          omega
      · rw [ih]
        · rw [List.length_append, List.length_singleton]
          omega
        · rw [List.length_append, List.length_singleton, ← filled]
          congr 1
          omega

@[simp] theorem words_length (x : BitVec (m * k)) : (words m k x).length = k := by
  induction k with
  | zero => rfl
  | succ k ih => exact congrArg (· + 1) (ih _)

theorem alphabet_length : alphabet.length = 64 := by decide

theorem alphabet_nodup : alphabet.Nodup := by decide

theorem symbol_eq_getElem (x : BitVec 6) (inside : x.toNat < alphabet.length) :
    symbol x = alphabet[x.toNat] :=
  List.getD_eq_getElem _ _ inside

theorem index_lt (x : BitVec 6) : x.toNat < alphabet.length := by
  rw [alphabet_length]
  exact x.isLt

theorem symbol_mem (x : BitVec 6) : symbol x ∈ alphabet := by
  rw [symbol_eq_getElem x (index_lt x)]
  exact List.getElem_mem _

theorem symbol_injective : Function.Injective symbol := by
  intro x y same
  rw [symbol_eq_getElem x (index_lt x), symbol_eq_getElem y (index_lt y)] at same
  exact BitVec.eq_of_toNat_eq (alphabet_nodup.getElem_inj_iff.mp same)

theorem pad_not_mem_alphabet : pad ∉ alphabet := by decide

/-- The bits of bytes, and zeros that complete the last of their words. -/
theorem regroup_data (positive : 0 < m) (few : n < m) (x : BitVec (m * k))
    (same : bits x = data.flatMap bits ++ List.replicate n false) :
    regroup m [] (data.flatMap bits) = words m k x := by
  have total : (data.flatMap bits).length + n = m * k := by
    have lengths := congrArg List.length same
    rw [bits_length, List.length_append, List.length_replicate] at lengths
    exact lengths.symm
  have filled : (0 + (data.flatMap bits).length + n) % m = 0 := by
    rw [Nat.zero_add, total, Nat.mul_mod_right]
  have zeros : regroup m [] (data.flatMap bits ++ List.replicate n false) =
      regroup m [] (data.flatMap bits) := regroup_zeros positive few filled
  have recovered := regroup_bits positive x []
  rw [List.append_nil, same, zeros] at recovered
  rw [recovered]
  exact List.append_nil _

/-- The encoding as a stream. -/
theorem encode_eq (data : List Byte) : encode data =
    (regroup 6 [] (data.flatMap bits)).map symbol ++
      List.replicate ((3 - data.length % 3) % 3) pad := by
  induction data using encode.induct with
  | case1 a b c rest ih =>
      have count : (3 - (rest.length + 3) % 3) % 3 = (3 - rest.length % 3) % 3 := by omega
      have group : bits (a ++ b ++ c) ++ rest.flatMap bits =
          (a :: b :: c :: rest).flatMap bits := by
        rw [bits_append, bits_append]
        simp only [List.flatMap_cons, List.append_assoc]
      have regrouped := regroup_bits (k := 4) (Nat.succ_pos 5) (a ++ b ++ c) (rest.flatMap bits)
      rw [group] at regrouped
      rw [regrouped, List.map_append, List.append_assoc, encode, ih]
      simp only [List.length_cons]
      rw [count]
  | case2 a b =>
      have group : bits (a ++ b ++ 0#2) = [a, b].flatMap bits ++ List.replicate 2 false := by
        rw [bits_append, bits_append, bits_zero]
        simp only [List.flatMap_cons, List.flatMap_nil, List.append_nil]
      rw [regroup_data (k := 3) (by decide) (by decide) _ group]
      rfl
  | case3 a =>
      have group : bits (a ++ 0#4) = [a].flatMap bits ++ List.replicate 4 false := by
        rw [bits_append, bits_zero]
        simp only [List.flatMap_cons, List.flatMap_nil, List.append_nil]
      rw [regroup_data (k := 2) (by decide) (by decide) _ group]
      rfl
  | case4 => rfl

theorem encode_length (data : List Byte) : (encode data).length = (data.length + 2) / 3 * 4 := by
  induction data using encode.induct with
  | case1 a b c rest ih =>
      simp only [encode, List.length_append, List.length_map, words_length, ih, List.length_cons]
      omega
  | case2 a b =>
      simp only [encode, List.length_append, List.length_map, words_length, List.length_cons,
        List.length_nil]
  | case3 a =>
      simp only [encode, List.length_append, List.length_map, words_length, List.length_cons,
        List.length_nil]
  | case4 => rfl

/-- The words behind an encoding are the data and a zero for every padding
character, when that stands for zeros. -/
theorem regroup_encoded (data : List Byte) :
    regroup 8 [] ((regroup 6 [] (data.flatMap bits) ++
        List.replicate ((3 - data.length % 3) % 3) 0#6).flatMap bits) =
      data ++ List.replicate ((3 - data.length % 3) % 3) 0#8 := by
  have zero_bits {w n : Nat} :
      (List.replicate n 0#w).flatMap bits = List.replicate (n * w) false := by
    rw [List.flatMap_replicate, bits_zero, List.flatten_replicate_replicate]
  have bits_count {w : Nat} (xs : List (BitVec w)) : (xs.flatMap bits).length = w * xs.length := by
    simp [List.length_flatMap, Nat.mul_comm]
  obtain ⟨n, kept⟩ : ∃ n, (regroup 6 [] (data.flatMap bits)).flatMap bits =
      [] ++ data.flatMap bits ++ List.replicate n false :=
    flatMap_bits_regroup (by decide)
  -- an encoding has as many bits as the data and a byte for every padding character
  have total := encode_length data
  rw [encode_eq, List.length_append, List.length_map, List.length_replicate] at total
  have length := congrArg List.length kept
  rw [bits_count, List.length_append, List.nil_append, bits_count,
    List.length_replicate] at length
  have zeros : n + (3 - data.length % 3) % 3 * 6 = (3 - data.length % 3) % 3 * 8 := by omega
  have same : (regroup 6 [] (data.flatMap bits) ++
        List.replicate ((3 - data.length % 3) % 3) 0#6).flatMap bits =
      (data ++ List.replicate ((3 - data.length % 3) % 3) 0#8).flatMap bits := by
    rw [List.flatMap_append, List.flatMap_append, kept, zero_bits, zero_bits, List.nil_append,
      List.append_assoc, ← List.replicate_add, zeros]
  rw [same, regroup_flatMap_bits (by decide)]

/-- Only the characters of the alphabet, and padding behind them. -/
theorem mem_encode {c : Byte} (h : c ∈ encode data) : c ∈ alphabet ∨ c = pad := by
  rw [encode_eq] at h
  obtain symbols | padding := List.mem_append.mp h
  · obtain ⟨x, _, rfl⟩ := List.mem_map.mp symbols
    exact .inl (symbol_mem x)
  · exact .inr (List.eq_of_mem_replicate padding)

theorem count_pad (data : List Byte) : (encode data).count pad = (3 - data.length % 3) % 3 := by
  have none_before : ((regroup 6 [] (data.flatMap bits)).map symbol).count pad = 0 := by
    rw [List.count_eq_zero]
    intro member
    obtain ⟨x, _, same⟩ := List.mem_map.mp member
    exact pad_not_mem_alphabet (same ▸ symbol_mem x)
  rw [encode_eq, List.count_append, none_before, Nat.zero_add, List.count_replicate_self]

/-- Data of one length have different encodings. -/
theorem encode_injective (length : data.length = data'.length)
    (same : encode data = encode data') : data = data' := by
  rw [encode_eq, encode_eq, ← length] at same
  have symbols := List.append_cancel_right same
  have words : regroup 6 [] (data.flatMap bits) = regroup 6 [] (data'.flatMap bits) :=
    List.map_injective_iff.mpr symbol_injective symbols
  have back := regroup_encoded data
  have back' := regroup_encoded data'
  rw [words, length] at back
  rw [back'] at back
  exact (List.append_cancel_right back).symm

end Rfc4648
