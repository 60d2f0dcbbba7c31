import Mathlib.Data.List.GetD
import Mathlib.Data.List.OfFn

/-!
# Memory with a record of its use

The cells from some address on, together with the accesses made so far. Every
operation says which cells it changes and which accesses it records, so that a
program over this memory has both a result and a footprint. Cells are addressed
by their distance from the start; a memory has no end, and whether an access was
admissible is a question about the record.
-/

universe u

namespace Memory

/-- An access to one cell. A cell is cleared when it is overwritten by a
constant rather than by data. -/
inductive Access where
  | read (i : Nat)
  | write (i : Nat)
  | clear (i : Nat)
  deriving DecidableEq, Repr

/-- The cell that an access is about. -/
def Access.index : Access → Nat
  | read i => i
  | write i => i
  | clear i => i

end Memory

structure Memory (β : Type u) where
  cell : Nat → β
  accesses : List Memory.Access := []

namespace Memory

variable {β : Type u}

def record (m : Memory β) (accesses : List Access) : Memory β :=
  { m with accesses := m.accesses ++ accesses }

/-- Forget the accesses made so far. -/
def quiet (m : Memory β) : Memory β := { m with accesses := [] }

/-- No access was made to a cell from `n` on. -/
def Inside (m : Memory β) (n : Nat) : Prop := ∀ a ∈ m.accesses, a.index < n

instance (m : Memory β) (n : Nat) : Decidable (m.Inside n) := by
  unfold Inside
  infer_instance

/-- The contents of `n` cells. -/
def slice (cell : Nat → β) (i n : Nat) : List β :=
  (List.range n).map fun j => cell (i + j)

/-- The cells from `i` on contain `xs`. -/
def Stored (cell : Nat → β) (i : Nat) (xs : List β) : Prop :=
  slice cell i xs.length = xs

/-- Read `n` cells. -/
def fetch (m : Memory β) (i n : Nat) : Vector β n × Memory β :=
  (.ofFn fun j => m.cell (i + j), m.record ((List.range' i n).map .read))

/-- Write data into cells. -/
def put (m : Memory β) (i : Nat) (xs : List β) : Memory β where
  cell j := if i ≤ j then xs.getD (j - i) (m.cell j) else m.cell j
  accesses := m.accesses ++ (List.range' i xs.length).map .write

/-- Copy `n` cells, which may overlap. -/
def move (m : Memory β) (target source n : Nat) : Memory β :=
  (m.fetch source n).2.put target (m.fetch source n).1.toList

/-- Set `n` cells to a constant. -/
def fill (m : Memory β) (i : Nat) (x : β) (n : Nat) : Memory β where
  cell j := if i ≤ j ∧ j < i + n then x else m.cell j
  accesses := m.accesses ++ (List.range' i n).map .clear

variable {m : Memory β} {cell cell' : Nat → β} {i j k n : Nat} {x : β} {xs ys : List β}

@[simp] theorem record_cell (as : List Access) : (m.record as).cell = m.cell := rfl

@[simp] theorem record_accesses (as : List Access) :
    (m.record as).accesses = m.accesses ++ as := rfl

theorem record_nil : m.record [] = m := by
  simp only [record]
  rw [List.append_nil]

theorem record_record (as bs : List Access) : (m.record as).record bs = m.record (as ++ bs) := by
  simp only [record]
  rw [List.append_assoc]

@[simp] theorem slice_length : (slice cell i n).length = n := by
  simp only [slice]
  rw [List.length_map, List.length_range]

theorem slice_getElem (inside : j < (slice cell i n).length) :
    (slice cell i n)[j] = cell (i + j) := by
  simp only [slice, List.getElem_map, List.getElem_range]

theorem slice_append : slice cell i (n + k) = slice cell i n ++ slice cell (i + n) k := by
  simp only [slice]
  rw [List.range_add, List.map_append, List.map_map]
  congr 1
  apply List.map_congr_left
  intro j _
  change cell (i + (n + j)) = cell (i + n + j)
  rw [Nat.add_assoc]

/-- Any slice is held where it was taken. -/
theorem stored_slice : Stored cell i (slice cell i n) := by
  simp only [Stored]
  rw [slice_length]

theorem stored_iff : Stored cell i xs ↔ ∀ j (inside : j < xs.length), cell (i + j) = xs[j] := by
  constructor
  · intro h j inside
    have bound : j < (slice cell i xs.length).length := by rwa [slice_length]
    rw [← slice_getElem bound]
    exact List.getElem_of_eq h _
  · intro h
    apply List.ext_getElem slice_length
    intro j _ inside
    rw [slice_getElem]
    exact h j inside

theorem Stored.cell_eq (h : Stored cell i xs) (inside : j < xs.length) : cell (i + j) = xs[j] :=
  stored_iff.mp h j inside

/-- A memory that starts with given data. -/
theorem stored_getD (xs : List β) (x : β) : Stored (xs.getD · x) 0 xs := by
  rw [stored_iff]
  intro j inside
  rw [Nat.zero_add]
  exact List.getD_eq_getElem xs x inside

/-- What the cells hold does not depend on others. -/
theorem Stored.congr (h : Stored cell i xs) (same : ∀ j < xs.length, cell' (i + j) = cell (i + j)) :
    Stored cell' i xs := by
  rw [stored_iff] at h ⊢
  intro j inside
  rw [same j inside]
  exact h j inside

theorem stored_append :
    Stored cell i (xs ++ ys) ↔ Stored cell i xs ∧ Stored cell (i + xs.length) ys := by
  simp only [Stored]
  rw [List.length_append, slice_append]
  constructor
  · intro h
    exact List.append_inj h slice_length
  · rintro ⟨front, back⟩
    rw [front, back]

theorem stored_cons : Stored cell i (x :: xs) ↔ cell i = x ∧ Stored cell (i + 1) xs := by
  rw [show x :: xs = [x] ++ xs from rfl, stored_append]
  apply and_congr_left'
  simp only [Stored, slice]
  simp

theorem toList_ofFn : (Vector.ofFn fun j : Fin n => cell (i + j)).toList = slice cell i n := by
  apply List.ext_getElem
  · rw [Vector.length_toList, slice_length]
  · intro j _ _
    rw [slice_getElem]
    simp only [Vector.toList_ofFn, List.getElem_ofFn]

@[simp] theorem fetch_toList : (m.fetch i n).1.toList = slice m.cell i n := toList_ofFn

@[simp] theorem fetch_memory : (m.fetch i n).2 = m.record ((List.range' i n).map .read) := rfl

theorem put_cell_inside (inside : j < xs.length) : (m.put i xs).cell (i + j) = xs[j] := by
  unfold put
  dsimp only
  rw [if_pos (Nat.le_add_right i j), Nat.add_sub_cancel_left, List.getD_eq_getElem _ _ inside]

theorem put_cell_self : (m.put i [x]).cell i = x := by
  have inside : 0 < [x].length := Nat.one_pos
  exact put_cell_inside inside

theorem put_cell_outside (outside : j < i ∨ i + xs.length ≤ j) :
    (m.put i xs).cell j = m.cell j := by
  unfold put
  dsimp only
  split
  · exact List.getD_eq_default _ _ (by omega)
  · rfl

@[simp] theorem put_accesses :
    (m.put i xs).accesses = m.accesses ++ (List.range' i xs.length).map .write := rfl

/-- Storing data piece by piece. -/
theorem put_put : (m.put i xs).put (i + xs.length) ys = m.put i (xs ++ ys) := by
  unfold put
  congr 1
  · funext j
    dsimp only
    split
    · rw [if_pos (show i ≤ j by omega), if_pos (show i ≤ j by omega),
        List.getD_append_right _ _ _ _ (by omega), List.getD_eq_default xs _ (by omega)]
      congr 1
      omega
    · split
      · rw [List.getD_append _ _ _ _ (by omega)]
      · rfl
  · rw [List.append_assoc, ← List.map_append, List.length_append, List.range'_append_1]

/-- Data stored at the start of a new memory stay inside it if they fit. -/
theorem put_inside_iff (unused : m.accesses = []) :
    (m.put 0 xs).Inside n ↔ xs.length ≤ n := by
  simp only [Inside]
  rw [put_accesses, unused, List.nil_append]
  constructor
  · intro inside
    by_contra longer
    have last := inside (.write n) (List.mem_map.mpr ⟨n, List.mem_range'_1.mpr (by omega), rfl⟩)
    exact Nat.lt_irrefl n last
  · intro room a member
    obtain ⟨j, listed, rfl⟩ := List.mem_map.mp member
    have before := List.mem_range'_1.mp listed
    change j < n
    omega

theorem stored_put : Stored (m.put i xs).cell i xs :=
  stored_iff.mpr fun _ inside => put_cell_inside inside

theorem move_cell_inside (inside : j < n) :
    (m.move i k n).cell (i + j) = m.cell (k + j) := by
  have length : ((m.fetch k n).1.toList).length = n := by rw [Vector.length_toList]
  simp only [move]
  rw [put_cell_inside (by rw [length]; exact inside)]
  simp only [fetch_toList]
  exact slice_getElem _

@[simp] theorem move_accesses : (m.move i k n).accesses = m.accesses ++
    (List.range' k n).map .read ++ (List.range' i n).map .write := by
  simp only [move]
  rw [put_accesses, Vector.length_toList]
  rfl

theorem fill_cell_inside (lower : i ≤ j) (upper : j < i + n) : (m.fill i x n).cell j = x :=
  if_pos ⟨lower, upper⟩

theorem fill_cell_outside (outside : j < i ∨ i + n ≤ j) : (m.fill i x n).cell j = m.cell j :=
  if_neg (by omega)

@[simp] theorem fill_accesses :
    (m.fill i x n).accesses = m.accesses ++ (List.range' i n).map .clear := rfl

end Memory
