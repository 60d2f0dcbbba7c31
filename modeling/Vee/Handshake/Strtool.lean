import Vee.Handshake.Lines
import Vee.Text.Search

/-!
# The two searches that ignore case

`find_case_insensitive` copies both strings into buffers of a fixed size, turns
them into capitals and subtracts the position of the match from the start of the
buffer, so its result has the wrong sign. `ci_find_substr` is `std::search` with
a comparison of capitals. The two agree where there is nothing to find, or where
it is found at the very beginning.
-/

namespace Vee

open Endian Text

namespace Strtool

/-- `find_case_insensitive<BUFFER_SIZE>` -/
def findCaseInsensitiveIn (bufferSize : Nat) (src substr : List Byte) : Option Int :=
  if bufferSize ≤ (cString src).length ∨ bufferSize ≤ (cString substr).length then none
  else
    match strstr ((cString src).map toUpper) ((cString substr).map toUpper) with
    | none => some notFound
    | some ret => some (-ret)

/-- The size 512 is the default. -/
theorem findCaseInsensitive_eq (src substr : List Byte) :
    findCaseInsensitive src substr = findCaseInsensitiveIn bufferSize src substr := rfl

/-- `my_equal` in the "C" locale -/
def myEqual (ch1 ch2 : Byte) : Bool := toUpper ch1 = toUpper ch2

def ciFindSubstr (str1 str2 : List Byte) : Int :=
  let it := search myEqual str1 str2
  if it ≠ str1.length then it else notFound

/-- What a search that ignores case returns. -/
structure IsSearch (src substr : List Byte) (result : Int) : Prop where
  first : ∀ i, FirstAt (substr.map toUpper) (src.map toUpper) i → result = i
  missing : result = notFound ↔ ∀ i, ¬ OccursAt (substr.map toUpper) (src.map toUpper) i

variable {src substr : List Byte} {bufferSize : Nat}

theorem toUpper_ne_zero {c : Byte} (nonzero : c ≠ 0) : toUpper c ≠ 0 := by
  simp only [toUpper]
  split
  · intro zero
    have value := congrArg BitVec.toNat zero
    rw [BitVec.toNat_sub] at value
    simp at value
    omega
  · exact nonzero

/-- On strings that fit the buffers. -/
theorem findCaseInsensitiveIn_eq (free : ∀ c ∈ src, c ≠ 0) (free' : ∀ c ∈ substr, c ≠ 0)
    (fits : src.length < bufferSize) (fits' : substr.length < bufferSize) :
    findCaseInsensitiveIn bufferSize src substr =
      match find (substr.map toUpper) (src.map toUpper) with
      | none => some notFound
      | some ret => some (-ret) := by
  have capitals {s : List Byte} (free : ∀ c ∈ s, c ≠ 0) : ∀ c ∈ s.map toUpper, c ≠ 0 := by
    intro c member
    obtain ⟨d, inside, rfl⟩ := List.mem_map.mp member
    exact toUpper_ne_zero (free d inside)
  simp only [findCaseInsensitiveIn, cString_eq_self free, cString_eq_self free', strstr,
    cString_eq_self (capitals free), cString_eq_self (capitals free')]
  rw [if_neg (by omega)]

theorem ciFindSubstr_eq (nonempty : substr ≠ []) :
    ciFindSubstr src substr =
      match find (substr.map toUpper) (src.map toUpper) with
      | none => notFound
      | some ret => ret := by
  have pattern : substr.map toUpper ≠ [] := by simpa using nonempty
  have searched : search myEqual src substr =
      (find (substr.map toUpper) (src.map toUpper)).getD src.length :=
    search_eq_find toUpper nonempty
  simp only [ciFindSubstr, searched]
  cases found : find (substr.map toUpper) (src.map toUpper) with
  | none => simp
  | some ret =>
      have inside := (find_eq_some_iff.mp found).1.lt_length pattern
      rw [List.length_map] at inside
      simp only [Option.getD_some]
      rw [if_pos (by omega)]

/-- `ci_find_substr` is a search. -/
theorem ciFindSubstr_isSearch (nonempty : substr ≠ []) :
    IsSearch src substr (ciFindSubstr src substr) := by
  rw [ciFindSubstr_eq nonempty]
  cases found : find (substr.map toUpper) (src.map toUpper) with
  | none =>
      have nowhere := find_eq_none_iff.mp found
      exact ⟨fun i first => absurd first.1 (nowhere i), fun _ => nowhere, fun _ => rfl⟩
  | some ret =>
      have first := find_eq_some_iff.mp found
      refine ⟨fun i first' => congrArg Nat.cast (first.unique first'), ?_, ?_⟩
      · intro same
        simp only [notFound] at same
        omega
      · intro nowhere
        exact absurd first.1 (nowhere ret)

/-- `find_case_insensitive` is a search, and agrees with `ci_find_substr`, exactly
on the strings in which the first occurrence, if any, is at the beginning. -/
theorem find_case_insensitive_searches_iff (free : ∀ c ∈ src, c ≠ 0)
    (free' : ∀ c ∈ substr, c ≠ 0) (fits : src.length < bufferSize)
    (fits' : substr.length < bufferSize) (nonempty : substr ≠ []) :
    (∃ result, findCaseInsensitiveIn bufferSize src substr = some result ∧
        IsSearch src substr result ∧ result = ciFindSubstr src substr) ↔
      ∀ i, FirstAt (substr.map toUpper) (src.map toUpper) i → i = 0 := by
  have other : IsSearch src substr (ciFindSubstr src substr) := ciFindSubstr_isSearch nonempty
  rw [findCaseInsensitiveIn_eq free free' fits fits']
  rw [ciFindSubstr_eq nonempty] at other ⊢
  cases found : find (substr.map toUpper) (src.map toUpper) with
  | none =>
      have nowhere := find_eq_none_iff.mp found
      simp only [found] at other
      constructor
      · intro _ i first
        exact absurd first.1 (nowhere i)
      · intro _
        exact ⟨_, rfl, other, rfl⟩
  | some ret =>
      have first := find_eq_some_iff.mp found
      simp only [found] at other
      constructor
      · rintro ⟨result, returned, _, agrees⟩ i first'
        obtain rfl := Option.some.inj returned
        obtain rfl := first.unique first'
        simp only at agrees
        omega
      · intro beginning
        obtain rfl := beginning ret first
        exact ⟨_, rfl, other, rfl⟩

theorem find_case_insensitive_searches_iff_get :
    ∃ result, findCaseInsensitiveIn 512 (ascii "get / HTTP/1.1") (ascii "GET") = some result ∧
      IsSearch (ascii "get / HTTP/1.1") (ascii "GET") result ∧
        result = ciFindSubstr (ascii "get / HTTP/1.1") (ascii "GET") := by
  refine (find_case_insensitive_searches_iff ?_ ?_ ?_ ?_ ?_).mpr ?_
  · simp [ascii]
  · simp [ascii]
  · simp [ascii]
  · simp [ascii]
  · simp [ascii]
  · intro i first
    refine first.unique (firstAt_zero_iff.mpr ?_)
    simp only [ascii]
    decide

/-- A match behind the first character is reported as none. -/
theorem match_at_one_not_found :
    ¬ ∀ (bufferSize : Nat) (src substr : List Byte), (∀ c ∈ src, c ≠ 0 ∧ c.toNat < 128) →
      (∀ c ∈ substr, c ≠ 0 ∧ c.toNat < 128) → src.length < bufferSize →
        substr.length < bufferSize → substr ≠ [] →
          ∃ result, findCaseInsensitiveIn bufferSize src substr = some result ∧
            IsSearch src substr result ∧ result = ciFindSubstr src substr := by
  intro searches
  obtain ⟨result, returned, search, _⟩ :=
    searches 512 [0x20, 0x31] [0x31] (by decide) (by decide) (by decide) (by decide) (by decide)
  have missed : findCaseInsensitiveIn 512 [0x20, 0x31] [0x31] = some (-1) := by decide
  obtain rfl := Option.some.inj (missed.symm.trans returned)
  have nowhere := search.missing.mp rfl
  have occurs : [0x31].map toUpper <+: ([0x20, 0x31].map toUpper).drop 1 := by decide
  exact nowhere 1 occurs

end Strtool
end Vee
