import Vee.Queue.Refinement

/-!
# A ring queue of items with their own assignment

`enqueue` and `dequeue` assign into objects that exist already: the slot of the
ring, and the caller's `out`. The operations of `RingQueue` take the assigned
value as it is. Here the item type says what `target = std::move(source)` does to
both sides. A slot is written only while it is vacant, so when a vacant slot
keeps nothing of its own the queue holds exactly the items passed to it; `out`
is the caller's affair.
-/

namespace Vee

/-- Move assignment of an item type. `Blank` targets keep nothing of their own,
and a moved-from item is one. -/
structure MoveAssign (α : Type) where
  /-- the target and the source after `target = std::move(source)` -/
  assign : α → α → α × α
  /-- what a moved-from item is left with -/
  moved : α → α
  Blank : α → Prop
  source_eq : ∀ target source, (assign target source).2 = moved source
  blank_moved : ∀ source, Blank (moved source)
  target_eq : ∀ target source, Blank target → (assign target source).1 = source

namespace RingQueue

variable {α : Type}

/-- `enqueue(data)` for an rvalue: the slot is the target of an assignment. -/
def enqueueBy (m : MoveAssign α) (q : RingQueue α) (data : α) : Option (Bool × RingQueue α) :=
  match q.enqueueIndex with
  | none => some (false, q)
  | some (rear, q') =>
      match q'.itemContainer[toSize rear]? with
      | none => none
      | some slot => (q'.store rear (m.assign slot data).1).map fun q'' => (true, q'')

/-- `dequeue(out)`, with `out` the target and the slot the source of an assignment. -/
def dequeueBy (m : MoveAssign α) (q : RingQueue α) (out : α) : Option (Bool × α × RingQueue α) :=
  match q.dequeueIndex with
  | none => some (false, out, q)
  | some (front, q') =>
      match q'.itemContainer[toSize front]? with
      | none => none
      | some item =>
          (q'.store front (m.assign out item).2).map fun q'' => (true, (m.assign out item).1, q'')

variable {m : MoveAssign α} {q q' : RingQueue α} {capacity front size : Nat} {mode : Bool}
  {data out item : α}

/-- Into a blank slot, the assigned item is the stored one. -/
theorem enqueueBy_eq (inside : toSize q.rear < q.itemContainer.length)
    (blank : m.Blank q.itemContainer[toSize q.rear]) :
    q.enqueueBy m data = q.enqueue data := by
  have slot : q.itemContainer[toSize q.rear]? = some q.itemContainer[toSize q.rear] :=
    List.getElem?_eq_getElem inside
  simp only [enqueueBy, enqueue, enqueueIndex]
  split_ifs <;> simp only [slot, m.target_eq _ _ blank]

/-- The queue does not depend on what `out` held before. -/
theorem dequeueBy_eq (m : MoveAssign α) (q : RingQueue α) (out : α) :
    q.dequeueBy m out = (q.dequeueInto m.moved out).map fun (result, item, q') =>
      (result, if result then (m.assign out item).1 else item, q') := by
  simp only [dequeueBy, dequeueInto]
  cases q.dequeueIndex with
  | none => rfl
  | some taken =>
      obtain ⟨front, q₁⟩ := taken
      dsimp only [load]
      cases found : q₁.itemContainer[toSize front]? with
      | none => rfl
      | some item =>
          obtain ⟨inside, _⟩ := List.getElem?_eq_some_iff.mp found
          simp only [store, if_pos inside, m.source_eq, Option.map_some, if_true]

/-- What an accepted item leaves in the slots. -/
theorem enqueue_itemContainer (taken : q.enqueue data = some (true, q')) :
    q'.itemContainer = q.itemContainer.set (toSize q.rear) data := by
  simp only [enqueue, enqueueIndex, store] at taken
  split_ifs at taken with full refused <;> simp at taken
  all_goals
    obtain ⟨_, rfl⟩ := taken
    rfl

/-- What a taken item leaves in the slots. -/
theorem dequeueInto_itemContainer {moved : α → α}
    (taken : q.dequeueInto moved out = some (true, item, q')) :
    q'.itemContainer = q.itemContainer.set (toSize q.front) (moved item) := by
  simp only [dequeueInto, dequeueIndex] at taken
  split_ifs at taken with empty
  · simp at taken
  · simp only [load] at taken
    cases found : q.itemContainer[toSize q.front]? with
    | none => simp [found] at taken
    | some held =>
        simp only [found, Option.map_some, Option.some.injEq, Prod.mk.injEq] at taken
        obtain ⟨_, rfl, rfl⟩ := taken
        rfl

/-- A queue of items with assignment, none of whose vacant slots keeps anything. -/
structure Vacated (m : MoveAssign α) (q : RingQueue α) (capacity front size : Nat) : Prop
    extends Layout q capacity false front size where
  vacant : ∀ i, size ≤ i → i < capacity →
    ∀ item, q.itemContainer[(front + i) % capacity]? = some item → m.Blank item

namespace Vacated

theorem create [Inhabited α] (m : MoveAssign α) (blank : m.Blank default)
    (positive : 0 < capacity) : Vacated m (RingQueue.create capacity false) capacity 0 0 where
  toLayout := Layout.create positive false
  vacant i _ _ item found := by
    change (List.replicate capacity default)[_]? = some item at found
    rw [List.eq_of_mem_replicate (List.mem_of_getElem? found)]
    exact blank

theorem toSize_rear (h : Vacated m q capacity front size) (bound : capacity < 2 ^ 31) :
    toSize q.rear = (front + size) % capacity := by
  have slot := Nat.mod_lt (front + size) (show 0 < capacity by have := h.front_lt; omega)
  rw [h.toLayout.rear_eq, toSize_natCast (by omega)]

theorem toSize_front (h : Vacated m q capacity front size) (bound : capacity < 2 ^ 31) :
    toSize q.front = front := by
  have := h.front_lt
  rw [h.toLayout.front_eq, toSize_natCast (by omega)]

/-- With room, the item is appended as it was passed. -/
theorem enqueue_room (h : Vacated m q capacity front size) (bound : capacity < 2 ^ 31)
    (room : size < capacity) (data : α) :
    ∃ q', q.enqueueBy m data = some (true, q') ∧ Vacated m q' capacity front (size + 1) ∧
      q'.contents = q.contents ++ [data] := by
  have slot := Nat.mod_lt (front + size) (show 0 < capacity by omega)
  have inside : toSize q.rear < q.itemContainer.length := by
    rw [h.toSize_rear bound, h.container_length]
    exact slot
  have blank : m.Blank q.itemContainer[toSize q.rear] := by
    apply h.vacant size (Nat.le_refl size) room
    rw [← h.toSize_rear bound]
    exact List.getElem?_eq_getElem inside
  obtain ⟨q', taken, h', appended⟩ := h.toLayout.enqueue_room (.inl bound) room data
  refine ⟨q', (enqueueBy_eq inside blank).trans taken, ⟨h', ?_⟩, appended⟩
  intro i after below item found
  rw [enqueue_itemContainer taken, h.toSize_rear bound,
    List.getElem?_set_ne (Circular.position_ne front after (by omega))] at found
  exact h.vacant i (by omega) below item found

/-- A full queue refuses the item. -/
theorem enqueue_full (h : Vacated m q capacity front capacity) (bound : capacity < 2 ^ 31)
    (data : α) : q.enqueueBy m data = some (false, q) := by
  have full : q.isFull = true := (h.isFull_iff (.inl bound)).mpr rfl
  simp [enqueueBy, enqueueIndex, full, h.mode_eq]

/-- The oldest item is assigned to `out`, and its slot is blank again. -/
theorem dequeue_cons (h : Vacated m q capacity front (size + 1)) (bound : capacity < 2 ^ 31)
    (out : α) :
    ∃ item q', q.dequeueBy m out = some (true, (m.assign out item).1, q') ∧
      Vacated m q' capacity ((front + 1) % capacity) size ∧ q.contents = item :: q'.contents := by
  obtain ⟨item, q', taken, h', rest⟩ := h.dequeueInto_cons (.inl bound) m.moved out
  refine ⟨item, q', ?_, ⟨h', ?_⟩, rest⟩
  · rw [dequeueBy_eq, taken]
    rfl
  · intro i after below held found
    have size_le := h.size_le
    have front_lt := h.front_lt
    rw [Nat.mod_add_mod, Nat.add_assoc, Nat.add_comm 1 i, dequeueInto_itemContainer taken,
      h.toSize_front bound] at found
    obtain last | before := Nat.lt_or_eq_of_le (Nat.succ_le_of_lt below) |>.symm
    · rw [show i + 1 = capacity from last, Nat.add_mod_right, Nat.mod_eq_of_lt front_lt,
        List.getElem?_set_self (by rw [h.container_length]; exact front_lt)] at found
      rw [← Option.some.inj found]
      exact m.blank_moved item
    · have apart := Circular.position_ne front (show 0 < i + 1 by omega)
        (show i + 1 < 0 + capacity by omega)
      rw [Nat.add_zero, Nat.mod_eq_of_lt front_lt] at apart
      rw [List.getElem?_set_ne apart] at found
      exact h.vacant (i + 1) (by omega) before held found

theorem dequeue_empty (h : Vacated m q capacity front 0) (out : α) :
    q.dequeueBy m out = some (false, out, q) := by
  rw [dequeueBy_eq, h.dequeueInto_empty]
  rfl

end Vacated

/-- The queue as its user sees it: at most `capacity` items, oldest first. A
queue of capacity 0 has no slot, and is full and empty at once. -/
def Holds [Inhabited α] (m : MoveAssign α) (capacity : Nat) (q : RingQueue α)
    (items : List α) : Prop :=
  (∃ front size, Vacated m q capacity front size ∧ q.contents = items) ∨
    (capacity = 0 ∧ items = [] ∧ q = RingQueue.create 0 false)

namespace Holds

variable [Inhabited α] {items : List α}

theorem create (blank : m.Blank default) (capacity : Nat) :
    Holds m capacity (RingQueue.create capacity false) [] := by
  obtain rfl | positive := Nat.eq_zero_or_pos capacity
  · exact .inr ⟨rfl, rfl, rfl⟩
  · have vacated := Vacated.create m blank positive
    exact .inl ⟨0, 0, vacated, vacated.contents_empty⟩

/-- The items are the contents of the queue. -/
theorem contents_eq (h : Holds m capacity q items) : q.contents = items := by
  obtain ⟨_, _, _, same⟩ | ⟨_, rfl, rfl⟩ := h
  · exact same
  · rfl

/-- An item is refused by a full queue, or appended as it was passed. -/
theorem enqueue (h : Holds m capacity q items) (bound : capacity < 2 ^ 31) (data : α) :
    (q.isFull = true ∧ q.enqueueBy m data = some (false, q)) ∨
      (q.isFull = false ∧
        ∃ q', q.enqueueBy m data = some (true, q') ∧ Holds m capacity q' (items ++ [data])) := by
  obtain ⟨front, size, vacated, rfl⟩ | ⟨_, _, rfl⟩ := h
  · have isFull_iff := vacated.isFull_iff (.inl bound)
    obtain room | full := Nat.lt_or_eq_of_le vacated.size_le
    · obtain ⟨q', taken, vacated', appended⟩ := vacated.enqueue_room bound room data
      refine .inr ⟨?_, q', taken, .inl ⟨front, size + 1, vacated', appended⟩⟩
      rw [← Bool.not_eq_true, isFull_iff]
      exact Nat.ne_of_lt room
    · subst full
      exact .inl ⟨isFull_iff.mpr rfl, vacated.enqueue_full bound data⟩
  · exact .inl ⟨rfl, rfl⟩

/-- The oldest item is assigned to `out`, if there is one. -/
theorem dequeue (h : Holds m capacity q items) (bound : capacity < 2 ^ 31) (out : α) :
    (items = [] ∧ q.dequeueBy m out = some (false, out, q)) ∨
      ∃ item rest q', items = item :: rest ∧
        q.dequeueBy m out = some (true, (m.assign out item).1, q') ∧ Holds m capacity q' rest := by
  obtain ⟨front, size, vacated, rfl⟩ | ⟨_, empty, rfl⟩ := h
  · cases size with
    | zero => exact .inl ⟨vacated.contents_empty, vacated.dequeue_empty out⟩
    | succ size =>
        obtain ⟨item, q', taken, vacated', rest⟩ := vacated.dequeue_cons bound out
        exact .inr ⟨item, q'.contents, q', rest, taken, .inl ⟨_, size, vacated', rfl⟩⟩
  · exact .inl ⟨empty, rfl⟩

end Holds
end RingQueue
end Vee
