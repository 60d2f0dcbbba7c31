import Mathlib.Data.List.Basic

/-!
# Windows of a circular array

The `size` cells of an array that follow the position `front`, going round at
the end of the array. Storing in the cell behind a window that is not full
extends it, advancing `front` drops its first member, and a store outside leaves
it alone. A window as large as the array is rotated by a store at its front.
-/

namespace Circular

universe u

variable {α : Type u} {cells : List α} {front size i j : Nat} {x : α}

/-- The `size` cells from `front` on. -/
def window (cells : List α) (front size : Nat) : List α :=
  (List.range size).filterMap fun i => cells[(front + i) % cells.length]?

theorem window_succ (cells : List α) (front size : Nat) :
    window cells front (size + 1) =
      window cells front size ++ (cells[(front + size) % cells.length]?).toList := by
  simp only [window]
  rw [List.range_succ, List.filterMap_append]
  congr 1

/-- No cell of a window is missing. -/
theorem window_length (positive : 0 < cells.length) (front size : Nat) :
    (window cells front size).length = size := by
  induction size with
  | zero => rfl
  | succ size ih =>
      have bound := Nat.mod_lt (front + size) positive
      rw [window_succ, List.getElem?_eq_getElem bound, List.length_append, ih]
      rfl

/-- The members of a window in terms of the array. -/
theorem window_getElem? (positive : 0 < cells.length) (inside : i < size) :
    (window cells front size)[i]? = cells[(front + i) % cells.length]? := by
  induction size with
  | zero => omega
  | succ size ih =>
      have length := window_length positive front size
      rw [window_succ]
      obtain before | rfl := Nat.lt_succ_iff_lt_or_eq.mp inside
      · rw [List.getElem?_append_left (by omega)]
        exact ih before
      · have bound := Nat.mod_lt (front + i) positive
        rw [List.getElem?_append_right (by omega), List.getElem?_eq_getElem bound, length,
          Nat.sub_self]
        rfl

theorem window_getElem?_none (positive : 0 < cells.length) (outside : size ≤ i) :
    (window cells front size)[i]? = none := by
  rw [List.getElem?_eq_none]
  rw [window_length positive]
  exact outside

/-- Two windows are equal when their cells are. -/
theorem window_eq_iff (positive : 0 < cells.length) (first second : Nat) :
    window cells first size = window cells second size ↔
      ∀ i < size, cells[(first + i) % cells.length]? = cells[(second + i) % cells.length]? := by
  constructor
  · intro same i inside
    rw [← window_getElem? positive inside, ← window_getElem? positive inside, same]
  · intro same
    apply List.ext_getElem?
    intro i
    by_cases inside : i < size
    · rw [window_getElem? positive inside, window_getElem? positive inside]
      exact same i inside
    · have outside := Nat.le_of_not_lt inside
      rw [window_getElem?_none positive outside, window_getElem?_none positive outside]

/-- Positions less than a turn apart are different. -/
theorem position_ne (front : Nat) {capacity : Nat} (apart : i < j) (turn : j < i + capacity) :
    (front + i) % capacity ≠ (front + j) % capacity := by
  intro same
  have multiple := Nat.sub_mod_eq_zero_of_mod_eq same.symm
  rw [Nat.add_sub_add_left, Nat.mod_eq_of_lt (by omega)] at multiple
  omega

/-- A store outside a window leaves it alone. -/
theorem window_set_outside {position : Nat}
    (outside : ∀ i < size, (front + i) % cells.length ≠ position) :
    window (cells.set position x) front size = window cells front size := by
  induction size with
  | zero => rfl
  | succ size ih =>
      have before : ∀ i < size, (front + i) % cells.length ≠ position :=
        fun i inside => outside i (by omega)
      rw [window_succ, window_succ, ih before, List.length_set,
        List.getElem?_set_ne (outside size (by omega)).symm]

/-- Storing behind a window that is not full extends it. -/
theorem window_push (front : Nat) (x : α) (room : size < cells.length) :
    window (cells.set ((front + size) % cells.length) x) front (size + 1) =
      window cells front size ++ [x] := by
  have bound := Nat.mod_lt (front + size) (by omega : 0 < cells.length)
  rw [window_succ, List.length_set, List.getElem?_set_self bound, window_set_outside]
  · rfl
  · intro i inside
    exact position_ne front inside (by omega)

/-- Advancing the front drops the first member. -/
theorem window_advance (positive : 0 < cells.length) :
    window cells ((front + 1) % cells.length) size = (window cells front (size + 1)).tail := by
  apply List.ext_getElem?
  intro i
  rw [List.getElem?_tail]
  by_cases inside : i < size
  · rw [window_getElem? positive inside, window_getElem? positive (by omega), Nat.mod_add_mod]
    congr 2
    omega
  · rw [window_getElem?_none positive (by omega), window_getElem?_none positive (by omega)]

/-- The first member of a nonempty window. -/
theorem window_cons (inside : front < cells.length) :
    window cells front (size + 1) =
      cells[front] :: window cells ((front + 1) % cells.length) size := by
  have positive : 0 < cells.length := by omega
  have first : (window cells front (size + 1))[0]? = some cells[front] := by
    rw [window_getElem? positive (by omega), Nat.add_zero, Nat.mod_eq_of_lt inside,
      List.getElem?_eq_getElem inside]
  rw [window_advance positive]
  cases content : window cells front (size + 1) with
  | nil => simp [content] at first
  | cons y rest =>
      rw [content, List.getElem?_cons_zero] at first
      rw [Option.some.inj first]
      rfl

/-- A store at the front of a window as large as the array rotates it. -/
theorem window_rotate (inside : front < cells.length) :
    window (cells.set front x) ((front + 1) % cells.length) cells.length =
      (window cells front cells.length).tail ++ [x] := by
  obtain ⟨size, full⟩ : ∃ size, cells.length = size + 1 := ⟨cells.length - 1, by omega⟩
  have last : ((front + 1) % cells.length + size) % cells.length = front := by
    rw [Nat.mod_add_mod, full, show front + 1 + size = front + (size + 1) by omega,
      Nat.add_mod_right, Nat.mod_eq_of_lt (by omega)]
  have pushed := window_push ((front + 1) % cells.length) x (show size < cells.length by omega)
  rw [last] at pushed
  rw [show window cells front cells.length = window cells front (size + 1) by rw [full],
    ← window_advance (by omega), ← pushed]
  congr 1

end Circular
