import Vee.Circular.Window
import Vee.Queue.Basic
import Vee.Transition.Basic

/-!
# The ring queue refines a bounded FIFO

Used by one caller at a time, the queue behaves as a list of at most `_capacity`
items. `Layout` names the positions of front and size as natural numbers; every
call moves from layout to layout, and the window of the container between the
two changes as the list does.
-/

namespace Vee

open Transition

variable {α : Type}

/-- What the queue is for: a list of at most `bound` items, oldest first. -/
def Fifo.enqueue (bound : Nat) (overwrite : Bool) (items : List α) (data : α) : Bool × List α :=
  if items.length < bound then (true, items ++ [data])
  else if overwrite then (true, items.tail ++ [data])
  else (false, items)

/-- The effect of a call on the list. -/
def Fifo.call (bound : Nat) (overwrite : Bool) (items : List α) : RingQueue.Call α → List α
  | .enqueue data => (Fifo.enqueue bound overwrite items data).2
  | .dequeueInto _ => items.tail
  | .dequeue => items.tail
  | .shallowDequeue => items.tail
  | .clear _ => []

theorem toSize_natCast {n : Nat} (bound : n < 2 ^ 64) : toSize (n : Int) = n := by
  simp only [toSize]
  omega

theorem toInt32_natCast {n : Nat} (bound : n < 2 ^ 31) : toInt32 (n : Int) = n := by
  unfold toInt32
  rw [Int.bmod_def]
  omega

theorem toInt32_succ {n : Nat} (bound : n + 1 < 2 ^ 31) : toInt32 (n + 1) = (n + 1 : Nat) := by
  rw [← toInt32_natCast bound, Int.natCast_add, Int.natCast_one]

theorem toInt32_pred {n : Nat} (bound : n < 2 ^ 31) : toInt32 ((n + 1 : Nat) - 1) = n := by
  rw [← toInt32_natCast bound, Int.natCast_add, Int.natCast_one, Int.add_sub_cancel]

namespace RingQueue

/-- Without overflow of the int, `++x %= _capacity` is the next position. -/
theorem bump_natCast {capacity n : Nat} (bound : n + 1 < 2 ^ 31) :
    bump capacity (n : Int) = ((n + 1) % capacity : Nat) := by
  have small := Nat.mod_le (n + 1) capacity
  simp only [bump]
  rw [toInt32_succ bound, toSize_natCast (by omega), toInt32_natCast (by omega)]

attribute [local irreducible] bump toInt32 toSize

/-- The items in the queue, oldest first. -/
def contents (q : RingQueue α) : List α :=
  Circular.window q.itemContainer q.front.toNat q.size.toNat

/-- Indices up to `last` are ints, or the queue goes round before. -/
abbrev InRange (capacity last : Nat) : Prop := capacity < 2 ^ 31 ∨ last < 2 ^ 31

/-- The increments of an enqueue do not overflow an int; a capacity below `2 ^ 31`
is enough for it. -/
def Fits (q : RingQueue α) : Call α → Prop
  | .enqueue _ => q.isFull = false → q.rear + 1 < 2 ^ 31 ∧ q.size + 1 < 2 ^ 31
  | _ => True

/-- The queue has `size` items starting at position `front`. -/
structure Layout (q : RingQueue α) (capacity : Nat) (mode : Bool) (front size : Nat) : Prop where
  capacity_eq : q.capacity = capacity
  mode_eq : q.overwriteMode = mode
  container_length : q.itemContainer.length = capacity
  guards_length : q.itemGuards.length = capacity
  front_eq : q.front = front
  size_eq : q.size = size
  rear_eq : q.rear = ((front + size) % capacity : Nat)
  front_lt : front < capacity
  size_le : size ≤ capacity

variable {q q' : RingQueue α} {capacity front size : Nat} {mode : Bool} {moved : α → α}

namespace Layout

theorem create [Inhabited α] (positive : 0 < capacity) (mode : Bool) :
    Layout (RingQueue.create (α := α) capacity mode) capacity mode 0 0 where
  capacity_eq := rfl
  mode_eq := rfl
  container_length := List.length_replicate
  guards_length := List.length_replicate
  front_eq := rfl
  size_eq := rfl
  rear_eq := by simp [RingQueue.create]
  front_lt := positive
  size_le := Nat.zero_le _

theorem contents_eq (h : Layout q capacity mode front size) :
    q.contents = Circular.window q.itemContainer front size := by
  simp only [contents]
  rw [h.front_eq, h.size_eq, Int.toNat_natCast, Int.toNat_natCast]

theorem contents_length (h : Layout q capacity mode front size) : q.contents.length = size := by
  have := h.front_lt
  rw [h.contents_eq, Circular.window_length (by rw [h.container_length]; omega)]

theorem isFull_iff (h : Layout q capacity mode front size) (bound : InRange capacity size) :
    q.isFull = true ↔ size = capacity := by
  have := h.size_le
  simp only [isFull]
  rw [decide_eq_true_iff, h.size_eq, h.capacity_eq, toSize_natCast (by omega)]

/-- An enqueue into a queue that is not full appends the item. -/
theorem enqueue_room (h : Layout q capacity mode front size)
    (bound : InRange capacity (front + size + 1)) (room : size < capacity) (data : α) :
    ∃ q', q.enqueue data = some (true, q') ∧ Layout q' capacity mode front (size + 1) ∧
      q'.contents = q.contents ++ [data] := by
  have notFull : ¬ q.isFull = true := by
    rw [h.isFull_iff (by omega)]
    omega
  have slot := Nat.mod_lt (front + size) (by omega : 0 < capacity)
  have whole := Nat.mod_le (front + size) capacity
  have rear : toSize q.rear = (front + size) % capacity := by
    rw [h.rear_eq, toSize_natCast (by omega)]
  have inside : toSize q.rear < q.itemContainer.length := by
    rw [rear, h.container_length]
    exact slot
  refine ⟨{ q with
    rear := bump q.capacity q.rear
    size := toInt32 (q.size + 1)
    itemContainer := q.itemContainer.set (toSize q.rear) data
    itemGuards := q.itemGuards.set (toSize q.rear) false }, ?_, ?layout, ?_⟩
  case layout =>
    refine ⟨h.capacity_eq, h.mode_eq, ?_, ?_, h.front_eq, ?_, ?_, h.front_lt, by omega⟩
    · rw [List.length_set, h.container_length]
    · rw [List.length_set, h.guards_length]
    · change toInt32 (q.size + 1) = _
      rw [h.size_eq, toInt32_succ (by omega)]
    · dsimp only
      rw [h.rear_eq, h.capacity_eq, bump_natCast (by omega), Nat.mod_add_mod, Nat.add_assoc]
  · simp only [enqueue, enqueueIndex, if_neg notFull, store, if_pos inside, Option.map_some]
  · have room' : size < q.itemContainer.length := by
      rw [h.container_length]
      exact room
    change Circular.window _ q.front.toNat (toInt32 (q.size + 1)).toNat = _
    rw [h.contents_eq, ← Circular.window_push front data room', rear, h.container_length, h.size_eq,
      h.front_eq, toInt32_succ (by omega), Int.toNat_natCast, Int.toNat_natCast]

/-- An enqueue into a full queue is refused, and nothing changes. -/
theorem enqueue_refused (h : Layout q capacity false front capacity) (bound : capacity < 2 ^ 31)
    (data : α) : q.enqueue data = some (false, q) := by
  have full : q.isFull = true := (h.isFull_iff (.inl bound)).mpr rfl
  simp [enqueue, enqueueIndex, full, h.mode_eq]

/-- In overwrite mode it takes the place of the oldest item. -/
theorem enqueue_overwrites (h : Layout q capacity true front capacity) (bound : capacity < 2 ^ 31)
    (data : α) :
    ∃ q', q.enqueue data = some (true, q') ∧
      Layout q' capacity true ((front + 1) % capacity) capacity ∧
      q'.contents = q.contents.tail ++ [data] := by
  have positive : 0 < capacity := by
    have := h.front_lt
    omega
  have full : q.isFull = true := (h.isFull_iff (.inl bound)).mpr rfl
  have same : (front + capacity) % capacity = front := by
    rw [Nat.add_mod_right, Nat.mod_eq_of_lt h.front_lt]
  have front_lt := h.front_lt
  have rear : toSize q.rear = front := by
    rw [h.rear_eq, same, toSize_natCast (by omega)]
  have inside : toSize q.rear < q.itemContainer.length := by
    rw [rear, h.container_length]
    exact front_lt
  have next : bump q.capacity q.front = ((front + 1) % capacity : Nat) := by
    rw [h.front_eq, h.capacity_eq, bump_natCast (by omega)]
  refine ⟨{ q with
    rear := bump q.capacity q.rear
    front := bump q.capacity q.front
    itemContainer := q.itemContainer.set (toSize q.rear) data
    itemGuards := q.itemGuards.set (toSize q.rear) false }, ?_, ?layout, ?_⟩
  case layout =>
    refine ⟨h.capacity_eq, h.mode_eq, ?_, ?_, next, h.size_eq, ?_, Nat.mod_lt _ positive,
      Nat.le_refl _⟩
    · rw [List.length_set, h.container_length]
    · rw [List.length_set, h.guards_length]
    · dsimp only
      rw [h.rear_eq, h.capacity_eq, bump_natCast (by omega), same, Nat.add_mod_right, Nat.mod_mod]
  · simp only [enqueue, enqueueIndex, if_pos full, h.mode_eq, Bool.not_true, Bool.false_eq_true,
      if_false, store, if_pos inside, Option.map_some]
  · have front_lt' : front < q.itemContainer.length := by
      rw [h.container_length]
      exact front_lt
    have rotated := Circular.window_rotate (x := data) front_lt'
    rw [h.container_length] at rotated
    change Circular.window _ (bump q.capacity q.front).toNat q.size.toNat = _
    rw [h.contents_eq, ← rotated, rear, next, h.size_eq, Int.toNat_natCast, Int.toNat_natCast]

/-- The index section of a dequeue finds the oldest slot. -/
theorem dequeueIndex_eq (h : Layout q capacity mode front (size + 1))
    (bound : InRange capacity (front + size + 1)) :
    ∃ q', q.dequeueIndex = some ((front : Int), q') ∧ q'.itemContainer = q.itemContainer ∧
      Layout q' capacity mode ((front + 1) % capacity) size ∧
      q'.contents = q.contents.tail := by
  have size_le := h.size_le
  have front_lt := h.front_lt
  have positive : 0 < capacity := by omega
  have nonempty : ¬ q.size = 0 := by
    rw [h.size_eq]
    omega
  have less : toInt32 (q.size - 1) = size := by
    rw [h.size_eq, toInt32_pred (by omega)]
  have next : bump q.capacity q.front = ((front + 1) % capacity : Nat) := by
    rw [h.front_eq, h.capacity_eq, bump_natCast (by omega)]
  refine ⟨{ q with
    size := toInt32 (q.size - 1)
    front := bump q.capacity q.front }, ?_, rfl, ?layout, ?_⟩
  case layout =>
    refine ⟨h.capacity_eq, h.mode_eq, h.container_length, h.guards_length, next, less, ?_,
      Nat.mod_lt _ positive, by omega⟩
    rw [Nat.mod_add_mod, show front + 1 + size = front + (size + 1) by omega]
    exact h.rear_eq
  · simp only [dequeueIndex, if_neg nonempty, h.front_eq]
  · change Circular.window q.itemContainer (bump q.capacity q.front).toNat
      (toInt32 (q.size - 1)).toNat = _
    rw [h.contents_eq, next, less, Int.toNat_natCast, Int.toNat_natCast, ← h.container_length,
      Circular.window_advance (by rw [h.container_length]; exact positive)]

theorem dequeueIndex_empty (h : Layout q capacity mode front 0) : q.dequeueIndex = none := by
  have empty : q.size = 0 := h.size_eq
  simp [dequeueIndex, empty]

/-- A dequeue from a nonempty queue takes the oldest item. -/
theorem dequeueInto_cons (h : Layout q capacity mode front (size + 1))
    (bound : InRange capacity (front + size + 1)) (moved : α → α) (out : α) :
    ∃ item q', q.dequeueInto moved out = some (true, item, q') ∧
      Layout q' capacity mode ((front + 1) % capacity) size ∧
      q.contents = item :: q'.contents := by
  obtain ⟨q₁, taken, container, h₁, rest⟩ := h.dequeueIndex_eq bound
  have front_lt := h.front_lt
  have size_le := h.size_le
  have inside : front < q.itemContainer.length := by
    rw [h.container_length]
    exact front_lt
  have slot : toSize (front : Int) = front := toSize_natCast (by omega)
  have item : q₁.itemContainer[toSize (front : Int)]? = some q.itemContainer[front] := by
    rw [container, slot, List.getElem?_eq_getElem inside]
  refine ⟨q.itemContainer[front], { q₁ with
    itemContainer := q₁.itemContainer.set (toSize front) (moved q.itemContainer[front])
    itemGuards := q₁.itemGuards.set (toSize front) false }, ?_, ?layout, ?_⟩
  case layout =>
    refine ⟨h₁.capacity_eq, h₁.mode_eq, ?_, ?_, h₁.front_eq, h₁.size_eq, h₁.rear_eq,
      h₁.front_lt, h₁.size_le⟩
    · rw [List.length_set, h₁.container_length]
    · rw [List.length_set, h₁.guards_length]
  · simp only [dequeueInto, taken, load, item, Option.map_some]
  · have kept : Circular.window
        (q₁.itemContainer.set (toSize front) (moved q.itemContainer[front]))
        q₁.front.toNat q₁.size.toNat = q₁.contents := by
      apply Circular.window_set_outside
      intro i before
      rw [h₁.size_eq, Int.toNat_natCast] at before
      have apart := Circular.position_ne front (show 0 < i + 1 by omega)
        (show i + 1 < 0 + capacity by omega)
      rw [Nat.add_zero, Nat.mod_eq_of_lt front_lt] at apart
      rw [h₁.front_eq, Int.toNat_natCast, h₁.container_length, slot, Nat.mod_add_mod,
        show front + 1 + i = front + (i + 1) by omega]
      exact apart.symm
    change q.contents = _ :: Circular.window _ _ _
    rw [kept, rest, h.contents_eq, Circular.window_cons inside, List.tail_cons]

theorem dequeueInto_empty (h : Layout q capacity mode front 0) (moved : α → α) (out : α) :
    q.dequeueInto moved out = some (false, out, q) := by
  simp [dequeueInto, h.dequeueIndex_empty]

variable [Inhabited α]

theorem dequeue_cons (h : Layout q capacity mode front (size + 1))
    (bound : InRange capacity (front + size + 1)) (moved : α → α) :
    ∃ item q', q.dequeue moved = some (true, q') ∧
      Layout q' capacity mode ((front + 1) % capacity) size ∧
      q.contents = item :: q'.contents := by
  obtain ⟨item, q', taken, h', rest⟩ := h.dequeueInto_cons bound moved default
  refine ⟨item, q', ?_, h', rest⟩
  rw [dequeue, taken, Option.map_some]

theorem dequeue_empty (h : Layout q capacity mode front 0) (moved : α → α) :
    q.dequeue moved = some (false, q) := by
  rw [dequeue, h.dequeueInto_empty, Option.map_some]

omit [Inhabited α] in
theorem shallowDequeue_cons (h : Layout q capacity mode front (size + 1))
    (bound : InRange capacity (front + size + 1)) :
    ∃ q', q.shallowDequeue = (true, q') ∧
      Layout q' capacity mode ((front + 1) % capacity) size ∧
      q'.contents = q.contents.tail := by
  obtain ⟨q', taken, _, h', rest⟩ := h.dequeueIndex_eq bound
  refine ⟨q', ?_, h', rest⟩
  simp only [shallowDequeue, taken]

omit [Inhabited α] in
theorem shallowDequeue_empty (h : Layout q capacity mode front 0) :
    q.shallowDequeue = (false, q) := by
  simp only [shallowDequeue, h.dequeueIndex_empty]

/-- `clear` ends after as many turns as there are items, and one more. -/
theorem clear_eq (h : Layout q capacity mode front size) (bound : InRange capacity (front + size))
    (moved : α → α) {fuel : Nat} (enough : size < fuel) :
    ∃ q', q.clear moved fuel = some q' ∧
      Layout q' capacity mode ((front + size) % capacity) 0 := by
  induction size generalizing q front fuel with
  | zero =>
      obtain ⟨turns, rfl⟩ : ∃ turns, fuel = turns + 1 := ⟨fuel - 1, by omega⟩
      refine ⟨q, ?_, ?_⟩
      · simp only [clear, h.dequeue_empty]
      · rw [Nat.add_zero, Nat.mod_eq_of_lt h.front_lt]
        exact h
  | succ size ih =>
      obtain ⟨turns, rfl⟩ : ∃ turns, fuel = turns + 1 := ⟨fuel - 1, by omega⟩
      obtain ⟨_, q₁, taken, h₁, _⟩ := h.dequeue_cons bound moved
      have next := Nat.mod_le (front + 1) capacity
      obtain ⟨q', cleared, h'⟩ := ih h₁ (by omega) (show size < turns by omega)
      refine ⟨q', ?_, ?_⟩
      · simp only [clear, taken, cleared]
      · rw [Nat.mod_add_mod, Nat.add_assoc, Nat.add_comm 1 size] at h'
        exact h'

/-- With too little fuel the loop is not through. -/
theorem clear_eq_none (h : Layout q capacity mode front size)
    (bound : InRange capacity (front + size)) (moved : α → α) {fuel : Nat} (short : fuel ≤ size) :
    q.clear moved fuel = none := by
  induction fuel generalizing q front size with
  | zero => rfl
  | succ fuel ih =>
      obtain ⟨rest, rfl⟩ : ∃ rest, size = rest + 1 := ⟨size - 1, by omega⟩
      obtain ⟨_, q₁, taken, h₁, _⟩ := h.dequeue_cons bound moved
      have next := Nat.mod_le (front + 1) capacity
      simp only [clear, taken]
      exact ih h₁ (by omega) (by omega)

omit [Inhabited α] in
theorem contents_empty (h : Layout q capacity mode front 0) : q.contents = [] :=
  List.eq_nil_of_length_eq_zero h.contents_length

omit [Inhabited α] in
/-- The int that an enqueue increments next is in range. -/
theorem inRange_enqueue (h : Layout q capacity mode front size)
    (bound : InRange capacity (front + size)) {data : α}
    (fits : capacity < 2 ^ 31 ∨ q.Fits (.enqueue data)) (room : size < capacity) :
    InRange capacity (front + size + 1) := by
  by_cases small : capacity < 2 ^ 31
  · exact .inl small
  · have notFull : q.isFull = false := by
      rw [← Bool.not_eq_true, h.isFull_iff (by omega)]
      omega
    obtain ⟨rear, _⟩ := fits.resolve_left small notFull
    rw [h.rear_eq, Nat.mod_eq_of_lt (by omega)] at rear
    exact .inr (by omega)

omit [Inhabited α] in
/-- A call that takes the oldest item, if there is one. -/
theorem step_of_taken (h : Layout q capacity mode front size)
    (bound : InRange capacity (front + size)) (empty : size = 0 → q' = q)
    (taken : ∀ rest, size = rest + 1 → Layout q' capacity mode ((front + 1) % capacity) rest ∧
      q'.contents = q.contents.tail) :
    (∃ front' size', Layout q' capacity mode front' size' ∧ InRange capacity (front' + size')) ∧
      q'.contents = q.contents.tail := by
  cases size with
  | zero =>
      obtain rfl := empty rfl
      refine ⟨⟨front, 0, h, bound⟩, ?_⟩
      rw [h.contents_empty, List.tail_nil]
  | succ rest =>
      have next := Nat.mod_le (front + 1) capacity
      obtain ⟨layout, items⟩ := taken rest rfl
      exact ⟨⟨_, rest, layout, by omega⟩, items⟩

/-- Every call moves from layout to layout and does to the contents what it does
to the list. -/
theorem step (h : Layout q capacity mode front size) (bound : InRange capacity (front + size))
    {call : Call α} (fits : capacity < 2 ^ 31 ∨ q.Fits call)
    (enabled : q.step moved call = some q') :
    (∃ front' size', Layout q' capacity mode front' size' ∧ InRange capacity (front' + size')) ∧
      q'.contents = Fifo.call capacity mode q.contents call := by
  have length := h.contents_length
  have size_le := h.size_le
  cases call with
  | enqueue data =>
      change _ ∧ _ = (Fifo.enqueue capacity mode q.contents data).2
      rw [Fifo.enqueue, length]
      obtain room | rfl := Nat.lt_or_eq_of_le size_le
      · have bound' := h.inRange_enqueue bound fits room
        obtain ⟨q₁, stored, h₁, appended⟩ := h.enqueue_room bound' room data
        simp only [RingQueue.step, stored, Option.map_some, Option.some.injEq] at enabled
        subst enabled
        rw [if_pos room]
        exact ⟨⟨_, _, h₁, bound'⟩, appended⟩
      · have small : size < 2 ^ 31 := by omega
        rw [if_neg (Nat.lt_irrefl _)]
        cases mode with
        | true =>
            obtain ⟨q₁, stored, h₁, rotated⟩ := h.enqueue_overwrites small data
            simp only [RingQueue.step, stored, Option.map_some, Option.some.injEq] at enabled
            subst enabled
            exact ⟨⟨_, _, h₁, .inl small⟩, rotated⟩
        | false =>
            simp only [RingQueue.step, h.enqueue_refused small, Option.map_some,
              Option.some.injEq] at enabled
            subst enabled
            exact ⟨⟨_, _, h, bound⟩, rfl⟩
  | dequeueInto out =>
      refine h.step_of_taken bound ?_ ?_
      · rintro rfl
        simp only [RingQueue.step, h.dequeueInto_empty, Option.map_some, Option.some.injEq]
          at enabled
        exact enabled.symm
      · rintro size rfl
        obtain ⟨item, q₁, taken, h₁, rest⟩ := h.dequeueInto_cons bound moved out
        simp only [RingQueue.step, taken, Option.map_some, Option.some.injEq] at enabled
        subst enabled
        refine ⟨h₁, ?_⟩
        rw [rest, List.tail_cons]
  | dequeue =>
      refine h.step_of_taken bound ?_ ?_
      · rintro rfl
        simp only [RingQueue.step, h.dequeue_empty, Option.map_some, Option.some.injEq]
          at enabled
        exact enabled.symm
      · rintro size rfl
        obtain ⟨item, q₁, taken, h₁, rest⟩ := h.dequeue_cons bound moved
        simp only [RingQueue.step, taken, Option.map_some, Option.some.injEq] at enabled
        subst enabled
        refine ⟨h₁, ?_⟩
        rw [rest, List.tail_cons]
  | shallowDequeue =>
      refine h.step_of_taken bound ?_ ?_
      · rintro rfl
        simp only [RingQueue.step, h.shallowDequeue_empty, Option.some.injEq] at enabled
        exact enabled.symm
      · rintro size rfl
        obtain ⟨q₁, taken, h₁, rest⟩ := h.shallowDequeue_cons bound
        simp only [RingQueue.step, taken, Option.some.injEq] at enabled
        subst enabled
        exact ⟨h₁, rest⟩
  | clear fuel =>
      have enough : size < fuel := by
        by_contra short
        simp only [RingQueue.step, h.clear_eq_none bound moved (Nat.le_of_not_lt short)] at enabled
        cases enabled
      obtain ⟨q₁, cleared, h₁⟩ := h.clear_eq bound moved enough
      have last := Nat.mod_le (front + size) capacity
      simp only [RingQueue.step, cleared, Option.some.injEq] at enabled
      subst enabled
      exact ⟨⟨_, _, h₁, by omega⟩, h₁.contents_empty⟩

end Layout

/-- The indices are in range and fit together. -/
structure Valid (q : RingQueue α) : Prop where
  size : 0 ≤ q.size ∧ q.size ≤ q.capacity
  front : 0 ≤ q.front ∧ q.front < q.capacity
  rear : 0 ≤ q.rear ∧ q.rear < q.capacity
  closes : q.rear = (q.front + q.size) % q.capacity

/-- Each call does to the queue what its name says about the list of its items. -/
structure RefinesFifo [Inhabited α] (moved : α → α) (q : RingQueue α) : Prop where
  length : q.contents.length = q.size.toNat
  member : ∀ i < q.size.toNat,
    q.contents[i]? = q.itemContainer[(q.front.toNat + i) % q.capacity]?
  enqueue : ∀ data, ∃ q', q.enqueue data =
      some ((Fifo.enqueue q.capacity q.overwriteMode q.contents data).1, q') ∧
    q'.contents = (Fifo.enqueue q.capacity q.overwriteMode q.contents data).2
  refused : q.size = q.capacity → q.overwriteMode = false →
    ∀ data, q.enqueue data = some (false, q)
  dequeueInto : ∀ item rest, q.contents = item :: rest → ∀ out, ∃ q',
    q.dequeueInto moved out = some (true, item, q') ∧ q'.contents = rest
  dequeue : ∀ item rest, q.contents = item :: rest → ∃ q',
    q.dequeue moved = some (true, q') ∧ q'.contents = rest
  shallowDequeue : ∀ item rest, q.contents = item :: rest → ∃ q',
    q.shallowDequeue = (true, q') ∧ q'.contents = rest
  empty : q.contents = [] → (∀ out, q.dequeueInto moved out = some (false, out, q)) ∧
    q.dequeue moved = some (false, q) ∧ q.shallowDequeue = (false, q)
  clear : ∃ turns, ∀ fuel ≥ turns, ∃ q', q.clear moved fuel = some q' ∧ q'.contents = []

namespace Layout

theorem valid (h : Layout q capacity mode front size) : q.Valid := by
  have front_lt := h.front_lt
  have size_le := h.size_le
  have rear_lt := Nat.mod_lt (front + size) (show 0 < capacity by omega)
  have rear := h.rear_eq
  refine ⟨?_, ?_, ?_, ?_⟩
  · rw [h.size_eq, h.capacity_eq]
    omega
  · rw [h.front_eq, h.capacity_eq]
    omega
  · rw [rear, h.capacity_eq]
    omega
  · rw [rear, h.front_eq, h.size_eq, h.capacity_eq, Int.natCast_emod, Int.natCast_add]

theorem refinesFifo [Inhabited α] (h : Layout q capacity mode front size)
    (bound : capacity < 2 ^ 31) (moved : α → α) : q.RefinesFifo moved := by
  have front_lt := h.front_lt
  have size_le := h.size_le
  have length := h.contents_length
  have sizeNat : q.size.toNat = size := by rw [h.size_eq, Int.toNat_natCast]
  have frontNat : q.front.toNat = front := by rw [h.front_eq, Int.toNat_natCast]
  have nonempty : ∀ item rest, q.contents = item :: rest → ∃ size', size = size' + 1 := by
    intro item rest content
    refine ⟨rest.length, ?_⟩
    rw [← length, content, List.length_cons]
  refine ⟨?_, ?_, ?_, ?_, ?_, ?_, ?_, ?_, ?_⟩
  · rw [length, sizeNat]
  · intro i inside
    rw [sizeNat] at inside
    rw [h.contents_eq, frontNat, h.capacity_eq, ← h.container_length]
    apply Circular.window_getElem? _ inside
    rw [h.container_length]
    omega
  · intro data
    rw [Fifo.enqueue, length, h.capacity_eq, h.mode_eq]
    obtain room | rfl := Nat.lt_or_eq_of_le size_le
    · obtain ⟨q', stored, _, appended⟩ := h.enqueue_room (.inl bound) room data
      rw [if_pos room]
      exact ⟨q', stored, appended⟩
    · rw [if_neg (Nat.lt_irrefl _)]
      cases mode with
      | true =>
          obtain ⟨q', stored, _, rotated⟩ := h.enqueue_overwrites bound data
          exact ⟨q', stored, rotated⟩
      | false => exact ⟨q, h.enqueue_refused bound data, rfl⟩
  · intro full off data
    obtain rfl : size = capacity := by
      rw [h.size_eq, h.capacity_eq] at full
      omega
    obtain rfl : mode = false := h.mode_eq.symm.trans off
    exact h.enqueue_refused bound data
  · intro item rest content out
    obtain ⟨size', rfl⟩ := nonempty item rest content
    obtain ⟨item', q', taken, _, rest'⟩ := h.dequeueInto_cons (.inl bound) moved out
    obtain ⟨rfl, rfl⟩ := List.cons.inj (content.symm.trans rest')
    exact ⟨q', taken, rfl⟩
  · intro item rest content
    obtain ⟨size', rfl⟩ := nonempty item rest content
    obtain ⟨item', q', taken, _, rest'⟩ := h.dequeue_cons (.inl bound) moved
    obtain ⟨_, rfl⟩ := List.cons.inj (content.symm.trans rest')
    exact ⟨q', taken, rfl⟩
  · intro item rest content
    obtain ⟨size', rfl⟩ := nonempty item rest content
    obtain ⟨q', taken, _, rest'⟩ := h.shallowDequeue_cons (.inl bound)
    refine ⟨q', taken, ?_⟩
    rw [rest', content, List.tail_cons]
  · intro content
    obtain rfl : size = 0 := by
      rw [← length, content, List.length_nil]
    exact ⟨h.dequeueInto_empty moved, h.dequeue_empty moved, h.shallowDequeue_empty⟩
  · refine ⟨size + 1, ?_⟩
    intro fuel enough
    obtain ⟨q', cleared, h'⟩ := h.clear_eq (.inl bound) moved enough
    exact ⟨q', cleared, h'.contents_empty⟩

end Layout

/-- Along every sequence of calls on a new queue, none of which overflows an int,
its contents are those of the list, and it stays laid out. -/
theorem run_layout [Inhabited α] (positive : 0 < capacity)
    {guard : RingQueue α → Call α → Prop}
    (fits : capacity < 2 ^ 31 ∨ ∀ q call, guard q call → Fits q call) {calls : List (Call α)}
    (run : Run (RingQueue.step moved) guard (create capacity mode) calls q) :
    (∃ front size, Layout q capacity mode front size ∧ InRange capacity (front + size)) ∧
      q.contents = calls.foldl (Fifo.call capacity mode) [] := by
  suffices general : ∀ {q₀ : RingQueue α} {front size}, Layout q₀ capacity mode front size →
      InRange capacity (front + size) → Run (RingQueue.step moved) guard q₀ calls q →
      (∃ front size, Layout q capacity mode front size ∧ InRange capacity (front + size)) ∧
        q.contents = calls.foldl (Fifo.call capacity mode) q₀.contents from by
    have start : Layout (create (α := α) capacity mode) capacity mode 0 0 := .create positive mode
    rw [← start.contents_empty]
    exact general start (.inr (by decide)) run
  clear run
  intro q₀ front size h bound run
  induction run generalizing front size with
  | nil => exact ⟨⟨_, _, h, bound⟩, rfl⟩
  | cons admitted enabled _ ih =>
      obtain ⟨⟨front', size', h', bound'⟩, contents⟩ :=
        h.step bound (fits.imp_right fun all => all _ _ admitted) enabled
      rw [List.foldl_cons, ← contents]
      exact ih h' bound'

end RingQueue

/-- In every state reached from a new queue the indices are valid, and every call
acts on the items as on a bounded FIFO. -/
theorem ringqueue_refines_fifo [Inhabited α] {moved : α → α} {capacity : Nat} {mode : Bool}
    {calls : List (RingQueue.Call α)} {q : RingQueue α} (positive : 0 < capacity)
    (bound : capacity < 2 ^ 31)
    (run : Run (RingQueue.step moved) unguarded (.create capacity mode) calls q) :
    q.Valid ∧ q.capacity = capacity ∧ q.overwriteMode = mode ∧ q.RefinesFifo moved ∧
      q.contents = calls.foldl (Fifo.call capacity mode) [] := by
  obtain ⟨⟨front, size, h, _⟩, contents⟩ := RingQueue.run_layout positive (.inl bound) run
  exact ⟨h.valid, h.capacity_eq, h.mode_eq, h.refinesFifo bound moved, contents⟩

theorem ringqueue_refines_fifo_three :
    ∃ q, Run (RingQueue.step id) unguarded (.create 3 true)
        [.enqueue 1, .enqueue 2, .enqueue 3, .enqueue 4, .dequeue] q ∧
      q.contents = [3, 4] := by
  have run : Run (RingQueue.step id) unguarded (.create 3 true)
      [.enqueue 1, .enqueue 2, .enqueue 3, .enqueue 4, .dequeue] _ :=
    Run.of_exec (by decide)
  obtain ⟨_, _, _, _, contents⟩ := ringqueue_refines_fifo (by decide) (by decide) run
  exact ⟨_, run, contents⟩

end Vee
