import Mathlib.Data.Int.ConditionallyCompleteOrder
import Mathlib.Data.Nat.ModEq
import Mathlib.Data.Set.Function
import Mathlib.Order.ConditionallyCompleteLattice.Basic
import Mathlib.Order.Interval.Set.Defs

/-!
# Places picked by a counter that wraps

A signed counter with the range from `-half` to `half - 1` is incremented again
and again, from 0 on, and its remainder modulo `c` picks one of `c` places. The
division truncates, so the remainder has the sign of the counter: as long as the
counter is not negative the places come one after the other, and a negative
counter picks a place only where `c` divides it.
-/

namespace WrappingCounter

/-- The counter after `n` increments. -/
def value (half n : Nat) : Int := (n : Int).bmod (2 * half)

/-- What the counter picks from `c` places. -/
def place (half c n : Nat) : Int := (value half n).tmod c

variable {half c n k r : Nat}

theorem value_low (low : n % (2 * half) < half) : value half n = (n % (2 * half) : Nat) := by
  rw [value, Int.bmod_eq_emod_of_lt (by omega)]
  rfl

theorem value_high (high : half ≤ n % (2 * half)) :
    value half n = (n % (2 * half) : Nat) - (2 * half : Nat) := by
  rw [value, Int.bmod_neg _ _ (by omega)]
  rfl

/-- A counter that is not negative picks a place. -/
theorem place_low (c : Nat) (low : n % (2 * half) < half) :
    place half c n = (n % (2 * half) % c : Nat) := by
  rw [place, value_low low]
  rfl

/-- A negative one picks the negative of what its absolute value does. -/
theorem place_high (c : Nat) (positive : 0 < half) (high : half ≤ n % (2 * half)) :
    place half c n = -((2 * half - n % (2 * half)) % c : Nat) := by
  have below := Nat.mod_lt n (show 0 < 2 * half by omega)
  have negated : value half n = -((2 * half - n % (2 * half) : Nat) : Int) := by
    rw [value_high high]
    omega
  rw [place, negated, Int.neg_tmod]
  rfl

theorem place_high_nonneg_iff (positive : 0 < half) (high : half ≤ n % (2 * half)) :
    0 ≤ place half c n ↔ c ∣ 2 * half - n % (2 * half) := by
  rw [place_high c positive high, Nat.dvd_iff_mod_eq_zero]
  omega

theorem place_lt (half n : Nat) (places : 0 < c) : place half c n < c :=
  Int.tmod_lt_of_pos _ (by omega)

/-- When a place is picked at all. -/
theorem place_mem_iff (positive : 0 < half) (places : 0 < c) :
    place half c n ∈ Set.Ico (0 : Int) c ↔
      n % (2 * half) < half ∨ c ∣ 2 * half - n % (2 * half) := by
  rw [Set.mem_Ico]
  obtain low | high := Nat.lt_or_ge (n % (2 * half)) half
  · have small := Nat.mod_lt (n % (2 * half)) places
    rw [place_low c low]
    exact iff_of_true (by omega) (.inl low)
  · rw [place_high_nonneg_iff positive high, or_iff_right (Nat.not_lt.mpr high)]
    apply and_iff_left_of_imp
    intro divides
    rw [place_high c positive high]
    omega

/-- `c` consecutive numbers have each remainder once. -/
theorem remainders_bijOn (r : Nat) (places : 0 < c) :
    Set.BijOn (fun k => (((r + k) % c : Nat) : Int)) (Set.Iio c) (Set.Ico (0 : Int) c) := by
  refine ⟨?_, ?_, ?_⟩
  · intro k _
    have small := Nat.mod_lt (r + k) places
    rw [Set.mem_Ico]
    dsimp only
    omega
  · intro i inside j inside' same
    have congruent : i % c = j % c := Nat.ModEq.add_left_cancel' r (Int.natCast_inj.mp same)
    rw [Nat.mod_eq_of_lt inside, Nat.mod_eq_of_lt inside'] at congruent
    exact congruent
  · intro i member
    obtain ⟨nonneg, below⟩ := Set.mem_Ico.mp member
    obtain ⟨i, rfl⟩ := Int.eq_ofNat_of_zero_le nonneg
    have small := Nat.mod_lt r places
    have whole := Nat.div_add_mod r c
    have sum : r + (i + (c - r % c)) = i + c * (r / c + 1) := by
      rw [Nat.mul_add, Nat.mul_one]
      omega
    refine ⟨(i + (c - r % c)) % c, Nat.mod_lt _ places, ?_⟩
    dsimp only
    rw [Nat.add_mod_mod, sum, Nat.add_mul_mod_self_left, Nat.mod_eq_of_lt (by omega)]

theorem add_mod_of_lt {m : Nat} (within : n % m + k < m) : (n + k) % m = n % m + k := by
  rw [← Nat.mod_add_mod, Nat.mod_eq_of_lt within]

/-- Consecutive numbers have no common divisor. -/
theorem eq_one_of_dvd_succ {a : Nat} (first : c ∣ a) (second : c ∣ a + 1) : c = 1 :=
  Nat.dvd_one.mp ((Nat.dvd_add_right first).mp second)

/-- When `c` consecutive increments pick every place once: the counter does not
become negative between them, or only for the last one, at which a place is
picked if `c` divides `half`. -/
theorem places_bijOn_iff (places : 0 < c) (fits : c ≤ half) :
    Set.BijOn (fun k => place half c (n + k)) (Set.Iio c) (Set.Ico (0 : Int) c) ↔
      c = 1 ∨ n % (2 * half) + c ≤ half ∨ n % (2 * half) + c = half + 1 ∧ c ∣ half := by
  have positive : 0 < half := by omega
  constructor
  · intro bij
    have picked (k : Nat) (inside : k < c) (within : n % (2 * half) + k < 2 * half)
        (high : half ≤ n % (2 * half) + k) : c ∣ 2 * half - (n % (2 * half) + k) := by
      have member := (place_mem_iff positive places).mp (bij.mapsTo (Set.mem_Iio.mpr inside))
      rw [add_mod_of_lt within] at member
      exact member.resolve_left (Nat.not_lt.mpr high)
    have below := Nat.mod_lt n (show 0 < 2 * half by omega)
    by_contra none
    obtain low | high := Nat.lt_or_ge (n % (2 * half)) half
    · -- the counter gets to `-half`, and on
      have first := picked (half - n % (2 * half)) (by omega) (by omega) (by omega)
      rw [show 2 * half - (n % (2 * half) + (half - n % (2 * half))) = half by omega] at first
      have second := picked (half - n % (2 * half) + 1) (by omega) (by omega) (by omega)
      have next : half = 2 * half - (n % (2 * half) + (half - n % (2 * half) + 1)) + 1 := by omega
      rw [next] at first
      exact none (.inl (eq_one_of_dvd_succ second first))
    · have first := picked 0 places (by omega) (by omega)
      obtain last | more := Nat.eq_or_lt_of_le (Nat.succ_le_of_lt below)
      · rw [show 2 * half - (n % (2 * half) + 0) = 1 by omega] at first
        exact none (.inl (Nat.dvd_one.mp first))
      · have second := picked 1 (by omega) (by omega) (by omega)
        have next : 2 * half - (n % (2 * half) + 0) = 2 * half - (n % (2 * half) + 1) + 1 := by
          omega
        rw [next] at first
        exact none (.inl (eq_one_of_dvd_succ second first))
  · intro cases
    refine (remainders_bijOn (n % (2 * half)) places).congr ?_
    intro k inside
    have inside' : k < c := inside
    dsimp only
    obtain single | several := Nat.eq_or_lt_of_le (show 1 ≤ c from places)
    · rw [← single, place, Nat.mod_one, Int.natCast_one, Int.tmod_one]
      rfl
    · have within : n % (2 * half) + k < 2 * half := by omega
      have sum := add_mod_of_lt within
      obtain low | high := Nat.lt_or_ge (n % (2 * half) + k) half
      · rw [place_low c (by omega), sum]
      · have last : n % (2 * half) + k = half := by omega
        have divides : c ∣ half := by omega
        rw [place_high c positive (by omega), sum, last,
          show 2 * half - half = half by omega, Nat.mod_eq_zero_of_dvd divides]
        rfl

end WrappingCounter
