import Mathlib.Data.Option.Basic
import Mathlib.Logic.Function.Basic
import Vee.Queue.Refinement

/-!
# Copying a ring queue

`operator=` clears its target, compares the capacities and then enqueues items of
the source one by one, from the slot `_rear` on. The queues of a program are
objects with names, since a queue may be assigned to itself.

A queue laid out in the ring has its oldest item at `_front`, so the copy is
right when the slots from `_rear` on happen to hold the same items; in a full
queue they are the same slots.
-/

namespace Vee

open Transition

/-- With enough fuel a loop ends, and with a result that satisfies `P`. -/
def Yields {β : Type} (result : Nat → Option β) (P : β → Prop) : Prop :=
  ∃ turns, ∀ fuel ≥ turns, ∃ x, result fuel = some x ∧ P x

namespace Yields

variable {β γ : Type} {result : Nat → Option β} {P Q : β → Prop} {R : γ → Prop}

theorem mono (h : Yields result P) (weaker : ∀ x, P x → Q x) : Yields result Q := by
  obtain ⟨turns, ends⟩ := h
  refine ⟨turns, ?_⟩
  intro fuel enough
  obtain ⟨x, returned, holds⟩ := ends fuel enough
  exact ⟨x, returned, weaker x holds⟩

/-- What comes after the loop. -/
theorem bind {f : β → Option γ} (h : Yields result P)
    (after : ∀ x, P x → ∃ y, f x = some y ∧ R y) :
    Yields (fun fuel => (result fuel).bind f) R := by
  obtain ⟨turns, ends⟩ := h
  refine ⟨turns, ?_⟩
  intro fuel enough
  obtain ⟨x, returned, holds⟩ := ends fuel enough
  obtain ⟨y, followed, holds'⟩ := after x holds
  exact ⟨y, Option.bind_eq_some_iff.mpr ⟨x, returned, followed⟩, holds'⟩

/-- What is known of the result twice holds of one result. -/
theorem both (h : Yields result P) (h' : Yields result Q) : ∃ x, P x ∧ Q x := by
  obtain ⟨turns, ends⟩ := h
  obtain ⟨turns', ends'⟩ := h'
  obtain ⟨x, returned, holds⟩ := ends (max turns turns') (Nat.le_max_left _ _)
  obtain ⟨y, returned', holds'⟩ := ends' (max turns turns') (Nat.le_max_right _ _)
  rw [returned] at returned'
  cases returned'
  exact ⟨x, holds, holds'⟩

end Yields

/-- A type, or a reference to it. -/
inductive RefType where
  | object
  | lvalueReference
  | rvalueReference
  deriving DecidableEq, Repr

/-- What `SyncronizedQueue` is deduced as for a parameter `SyncronizedQueue&&`. -/
def ValueCategory.deduced : ValueCategory → RefType
  | .lvalue => .lvalueReference
  | .rvalue => .object

namespace RingQueue

variable {α ι : Type}

/-- The type to which `operator=` casts an item of its argument. -/
def requestType (moveAssignable : Bool) (syncronizedQueue : RefType) : RefType :=
  if syncronizedQueue = .rvalueReference ∧ moveAssignable then .rvalueReference
  else .lvalueReference

/-- The deduced type is never an rvalue reference, so items are copied. -/
theorem requestType_deduced (moveAssignable : Bool) (category : ValueCategory) :
    requestType moveAssignable category.deduced = .lvalueReference := by
  cases category <;> rfl

/-- `std::lock_guard` on an item guard, which spins for ever on one that is set. -/
def lockItem (q : RingQueue α) (slot : Int) : Option (RingQueue α) :=
  if q.itemGuards[toSize slot]? = some false then
    some { q with itemGuards := q.itemGuards.set (toSize slot) true }
  else none

def unlockItem (q : RingQueue α) (slot : Int) : RingQueue α :=
  { q with itemGuards := q.itemGuards.set (toSize slot) false }

/-- What is left of a queue when the item of a slot was moved out. -/
def moveOut (moved : α → α) (q : RingQueue α) (slot : Int) : RingQueue α :=
  { q with itemContainer := q.itemContainer.modify (toSize slot) moved }

variable [DecidableEq ι]

/-- One turn of the loop in `operator=`. `rhs._index_guard` is held, so that an
`enqueue` into the same queue would not return. -/
def copyItem (moved : α → α) (request : RefType) (lhs rhs : ι) (rear : Int)
    (queues : ι → RingQueue α) : Option (ι → RingQueue α) := do
  let source ← (queues rhs).lockItem rear
  let item ← source.itemContainer[toSize rear]?
  guard (lhs ≠ rhs)
  let (stored, target) ← (queues lhs).enqueue item
  let source := if stored ∧ request = .rvalueReference then source.moveOut moved rear else source
  some (Function.update (Function.update queues lhs target) rhs (source.unlockItem rear))

/-- `turns` turns of the loop. -/
def copyItems (moved : α → α) (request : RefType) (lhs rhs : ι) :
    Nat → Int → (ι → RingQueue α) → Option (ι → RingQueue α)
  | 0, _, queues => some queues
  | turns + 1, rear, queues => do
      let queues' ← copyItem moved request lhs rhs rear queues
      copyItems moved request lhs rhs turns (bump (queues' rhs).capacity rear) queues'

/-- `operator=`, with `fuel` for its `clear`. -/
def assign [Inhabited α] (moved : α → α) (moveAssignable : Bool) (category : ValueCategory)
    (fuel : Nat) (lhs rhs : ι) (queues : ι → RingQueue α) : Option (Bool × (ι → RingQueue α)) := do
  let cleared ← (queues lhs).clear moved fuel
  let queues := Function.update queues lhs cleared
  if (queues lhs).capacity < (queues rhs).capacity then
    some (false, queues)
  else
    let request := requestType moveAssignable category.deduced
    let queues' ← copyItems moved request lhs rhs (queues rhs).size.toNat (queues rhs).rear queues
    some (true, queues')

/-- The copy and the move constructor of a new object `lhs`, with the result of
the `operator=` they call. -/
def construct [Inhabited α] (moved : α → α) (moveAssignable : Bool) (category : ValueCategory)
    (fuel : Nat) (lhs rhs : ι) (queues : ι → RingQueue α) : Option (Bool × (ι → RingQueue α)) :=
  assign moved moveAssignable category fuel lhs rhs
    (Function.update queues lhs (create (queues rhs).capacity false))

/-- All item guards are free, as they are between the calls of one user. -/
def Unlocked (q : RingQueue α) : Prop := ∀ flag ∈ q.itemGuards, flag = false

/-- The slots from `_rear` on hold what those from `_front` on hold. -/
def Aligned (q : RingQueue α) : Prop :=
  ∀ i < q.size.toNat, q.itemContainer[(q.rear.toNat + i) % q.capacity]? =
    q.itemContainer[(q.front.toNat + i) % q.capacity]?

instance [DecidableEq α] (q : RingQueue α) : Decidable q.Aligned :=
  inferInstanceAs (Decidable (∀ i < _, _))

/-- `turns` increments of an index that starts at `_rear` do not overflow an int. -/
def Advances (q : RingQueue α) (turns : Int) : Prop :=
  (q.capacity : Int) < 2 ^ 31 ∨ q.rear + turns < 2 ^ 31

/-- What `clear` makes of a queue `q`. -/
structure Cleared (q : RingQueue α) (capacity : Nat) (mode : Bool) (q' : RingQueue α) :
    Prop where
  contents_eq : q'.contents = []
  unchanged : q.contents = [] → q' = q
  size_eq : q'.size = 0
  capacity_eq : q'.capacity = capacity
  layout : 0 < capacity → ∃ rear : Nat, q.rear = rear ∧ Layout q' capacity mode rear 0

/-- A call returns true and leaves the items of `rhs` in `lhs`, with `rhs`
unchanged if it was an lvalue. -/
def Copies (result : Nat → Option (Bool × (ι → RingQueue α))) (category : ValueCategory)
    (lhs rhs : ι) (queues : ι → RingQueue α) : Prop :=
  Yields result fun (returned, queues') => returned = true ∧
    (queues' lhs).contents = (queues rhs).contents ∧
    (category = .lvalue → queues' rhs = queues rhs)

variable {q q' : RingQueue α} {capacity capacity' front front' size size' p : Nat}
  {mode mode' : Bool} {moved : α → α} {slot : Int} {data item out : α}

namespace Unlocked

theorem of_eq (h : Unlocked q) (guards : q'.itemGuards = q.itemGuards) : Unlocked q' := by
  rw [Unlocked, guards]
  exact h

theorem of_set (h : Unlocked q) (guards : q'.itemGuards = q.itemGuards.set p false) :
    Unlocked q' := by
  intro flag member
  rw [guards] at member
  obtain before | rfl := List.mem_or_eq_of_mem_set member
  · exact h flag before
  · rfl

theorem create [Inhabited α] (capacity : Nat) (mode : Bool) :
    Unlocked (RingQueue.create (α := α) capacity mode) :=
  fun _ => List.eq_of_mem_replicate

theorem store (h : Unlocked q) (stored : q.store slot data = some q') : Unlocked q' := by
  simp only [RingQueue.store] at stored
  split_ifs at stored with inside
  cases stored
  exact h.of_set rfl

theorem enqueue {result : Bool} (h : Unlocked q) (stored : q.enqueue data = some (result, q')) :
    Unlocked q' := by
  simp only [RingQueue.enqueue] at stored
  cases taken : q.enqueueIndex with
  | none =>
      simp only [taken, Option.some.injEq, Prod.mk.injEq] at stored
      rw [← stored.2]
      exact h
  | some next =>
      obtain ⟨rear, q₁⟩ := next
      have guards : q₁.itemGuards = q.itemGuards := by
        simp only [enqueueIndex] at taken
        split_ifs at taken <;> cases taken <;> rfl
      simp only [taken, Option.map_eq_some_iff] at stored
      obtain ⟨q₂, put, same⟩ := stored
      cases same
      exact (h.of_eq guards).store put

theorem dequeueIndex (h : Unlocked q) (taken : q.dequeueIndex = some (slot, q')) :
    Unlocked q' := by
  simp only [RingQueue.dequeueIndex] at taken
  split_ifs at taken with empty
  cases taken
  exact h.of_eq rfl

theorem dequeueInto {result : Bool} (h : Unlocked q)
    (removed : q.dequeueInto moved out = some (result, item, q')) : Unlocked q' := by
  simp only [RingQueue.dequeueInto] at removed
  cases taken : q.dequeueIndex with
  | none =>
      simp only [taken, Option.some.injEq, Prod.mk.injEq] at removed
      rw [← removed.2.2]
      exact h
  | some next =>
      obtain ⟨position, q₁⟩ := next
      simp only [taken, Option.map_eq_some_iff, load] at removed
      obtain ⟨⟨held, q₂⟩, loaded, same⟩ := removed
      cases same
      cases found : q₁.itemContainer[toSize position]? with
      | none => simp [found] at loaded
      | some value =>
          simp only [found, Option.some.injEq, Prod.mk.injEq] at loaded
          rw [← loaded.2]
          exact (h.dequeueIndex taken).of_set rfl

variable [Inhabited α]

theorem dequeue {result : Bool} (h : Unlocked q)
    (removed : q.dequeue moved = some (result, q')) : Unlocked q' := by
  simp only [RingQueue.dequeue, Option.map_eq_some_iff] at removed
  obtain ⟨⟨_, _, _⟩, removed, same⟩ := removed
  cases same
  exact h.dequeueInto removed

theorem clear {fuel : Nat} (h : Unlocked q) (cleared : q.clear moved fuel = some q') :
    Unlocked q' := by
  induction fuel generalizing q with
  | zero => cases cleared
  | succ fuel ih =>
      simp only [RingQueue.clear] at cleared
      cases removed : q.dequeue moved with
      | none => simp [removed] at cleared
      | some next =>
          obtain ⟨result, q₁⟩ := next
          have h₁ := h.dequeue removed
          cases result with
          | false =>
              simp only [removed, Option.some.injEq] at cleared
              rw [← cleared]
              exact h₁
          | true =>
              simp only [removed] at cleared
              exact ih h₁ cleared

/-- No call leaves an item guard locked. -/
theorem step {call : Call α} (h : Unlocked q) (enabled : q.step moved call = some q') :
    Unlocked q' := by
  cases call with
  | enqueue data =>
      obtain ⟨⟨_, _⟩, stored, rfl⟩ := Option.map_eq_some_iff.mp enabled
      exact h.enqueue stored
  | dequeueInto out =>
      obtain ⟨⟨_, _, _⟩, removed, rfl⟩ := Option.map_eq_some_iff.mp enabled
      exact h.dequeueInto removed
  | dequeue =>
      obtain ⟨⟨_, _⟩, removed, rfl⟩ := Option.map_eq_some_iff.mp enabled
      exact h.dequeue removed
  | shallowDequeue =>
      cases enabled
      simp only [shallowDequeue]
      cases taken : q.dequeueIndex with
      | none => exact h
      | some next => exact h.dequeueIndex taken
  | clear fuel => exact h.clear enabled

end Unlocked

/-- A free item guard is locked and unlocked again. -/
theorem lockItem_eq (h : Unlocked q) (inside : toSize slot < q.itemGuards.length) :
    ∃ locked, q.lockItem slot = some locked ∧ locked.itemContainer = q.itemContainer ∧
      locked.unlockItem slot = q := by
  have free : q.itemGuards[toSize slot] = false := h _ (List.getElem_mem inside)
  have found : q.itemGuards[toSize slot]? = some false := by
    rw [List.getElem?_eq_getElem inside, free]
  have back : (q.itemGuards.set (toSize slot) true).set (toSize slot) false = q.itemGuards := by
    rw [List.set_set, ← free, List.set_getElem_self]
  refine ⟨{ q with itemGuards := q.itemGuards.set (toSize slot) true }, if_pos found, rfl, ?_⟩
  simp only [unlockItem, back]

/-- In a queue laid out in its ring, the copy is right when the two windows agree. -/
theorem Layout.aligned_iff (h : Layout q capacity mode front size) :
    q.Aligned ↔
      Circular.window q.itemContainer ((front + size) % capacity) size = q.contents := by
  have positive : 0 < q.itemContainer.length := by
    have := h.front_lt
    rw [h.container_length]
    omega
  rw [h.contents_eq, Circular.window_eq_iff positive, Aligned, h.size_eq, h.rear_eq, h.front_eq,
    Int.toNat_natCast, Int.toNat_natCast, Int.toNat_natCast, h.capacity_eq, h.container_length]

/-- An empty queue is aligned. -/
theorem aligned_of_empty (empty : q.size = 0) : q.Aligned := by
  intro i inside
  rw [empty] at inside
  cases inside

/-- So is a full one. -/
theorem Layout.aligned_of_full (h : Layout q capacity mode front capacity) : q.Aligned := by
  intro i _
  rw [h.rear_eq, Nat.add_mod_right, Nat.mod_eq_of_lt h.front_lt, h.front_eq]

variable {queues : ι → RingQueue α} {lhs rhs : ι}

section

variable [Inhabited α] {calls : List (Call α)}

/-- A queue without slots stays as it is. -/
theorem step_zero {call : Call α} (enabled : (create 0 mode).step moved call = some q') :
    q' = create 0 mode := by
  have taken : (create (α := α) 0 mode).dequeueIndex = none := rfl
  have dequeued : (create (α := α) 0 mode).dequeue moved = some (false, create 0 mode) := rfl
  cases call with
  | enqueue data =>
      cases mode with
      | true => cases enabled
      | false => cases enabled; rfl
  | dequeueInto out => cases enabled; rfl
  | dequeue => cases enabled; rfl
  | shallowDequeue => cases enabled; rfl
  | clear fuel =>
      cases fuel with
      | zero => cases enabled
      | succ fuel =>
          simp only [RingQueue.step, RingQueue.clear, dequeued, Option.some.injEq] at enabled
          exact enabled.symm

/-- A queue used by one caller is laid out in its ring, or has no slots. -/
theorem run_cases (run : Run (RingQueue.step moved) Fits (create capacity mode) calls q) :
    Unlocked q ∧
      ((∃ front size, Layout q capacity mode front size ∧ InRange capacity (front + size)) ∨
        (capacity = 0 ∧ q = create 0 mode)) := by
  refine ⟨run.invariant (.create capacity mode) fun _ _ _ h _ enabled => h.step enabled, ?_⟩
  obtain rfl | positive := Nat.eq_zero_or_pos capacity
  · refine .inr ⟨rfl, run.invariant (I := fun u => u = create 0 mode) rfl ?_⟩
    rintro _ call t rfl _ enabled
    exact step_zero enabled
  · exact .inl (run_layout positive (.inr fun _ _ fits => fits) run).1

end

/-- A turn of the loop appends the item of one slot. -/
theorem copyItem_eq (moved : α → α) (distinct : lhs ≠ rhs) (unlocked : Unlocked (queues rhs))
    (source : Layout (queues rhs) capacity mode front size)
    (target : Layout (queues lhs) capacity' mode' front' size')
    (bound : InRange capacity' (front' + size' + 1)) (room : size' < capacity')
    (inside : p < (queues rhs).itemContainer.length) (slot : toSize p = p) :
    ∃ q', copyItem moved .lvalueReference lhs rhs p queues =
        some (Function.update queues lhs q') ∧
      Layout q' capacity' mode' front' (size' + 1) ∧
      q'.contents = (queues lhs).contents ++ [(queues rhs).itemContainer[p]] := by
  have guards : toSize p < (queues rhs).itemGuards.length := by
    rw [slot, source.guards_length, ← source.container_length]
    exact inside
  obtain ⟨locked, taken, container, back⟩ := lockItem_eq unlocked guards
  obtain ⟨q', stored, layout, appended⟩ :=
    target.enqueue_room bound room (queues rhs).itemContainer[p]
  refine ⟨q', ?_, layout, appended⟩
  have kept : Function.update (Function.update queues lhs q') rhs (queues rhs) =
      Function.update queues lhs q' := by
    rw [Function.update_comm distinct, Function.update_eq_self]
  simp [copyItem, taken, container, slot, List.getElem?_eq_getElem inside, distinct, stored, back,
    kept]

/-- The loop appends a window of the slots of its source. -/
theorem copyItems_eq (moved : α → α) (turns : Nat) (distinct : lhs ≠ rhs)
    (unlocked : Unlocked (queues rhs)) (source : Layout (queues rhs) capacity mode front size)
    (target : Layout (queues lhs) capacity' mode' front' size')
    (bound : InRange capacity' (front' + size' + turns)) (room : size' + turns ≤ capacity')
    (inside : p < capacity) (advances : InRange capacity (p + turns)) :
    ∃ q', copyItems moved .lvalueReference lhs rhs turns p queues =
        some (Function.update queues lhs q') ∧
      q'.contents =
        (queues lhs).contents ++ Circular.window (queues rhs).itemContainer p turns := by
  induction turns generalizing queues p size' with
  | zero =>
      refine ⟨queues lhs, ?_, (List.append_nil _).symm⟩
      rw [Function.update_eq_self]
      rfl
  | succ turns ih =>
      have within : p < (queues rhs).itemContainer.length := by
        rw [source.container_length]
        exact inside
      obtain ⟨q₁, copied, target₁, appended⟩ := copyItem_eq moved distinct unlocked source
        target (by omega) (by omega) within (toSize_natCast (by omega))
      have kept : Function.update queues lhs q₁ rhs = queues rhs :=
        Function.update_of_ne distinct.symm _ _
      have changed : Function.update queues lhs q₁ lhs = q₁ := Function.update_self _ _ _
      have small := Nat.mod_le (p + 1) capacity
      have advances' : InRange capacity ((p + 1) % capacity + turns) := by omega
      have next : bump capacity p = ((p + 1) % capacity : Nat) := bump_natCast (by omega)
      rw [← kept] at unlocked source
      rw [← changed] at target₁
      obtain ⟨q', rest, contents⟩ := ih unlocked source target₁ (by omega) (by omega)
        (Nat.mod_lt _ (by omega)) advances'
      refine ⟨q', ?_, ?_⟩
      · simp only [copyItems, copied, Option.bind_eq_bind, Option.bind_some, source.capacity_eq,
          next, rest, Function.update_idem]
      · rw [contents, changed, kept, appended, List.append_assoc, Circular.window_cons within]
        rw [kept] at source
        rw [source.container_length]
        rfl

variable [Inhabited α] {calls calls' : List (Call α)} {category : ValueCategory}
  {moveAssignable : Bool}

theorem run_capacity (run : Run (RingQueue.step moved) Fits (create capacity mode) calls q) :
    q.capacity = capacity := by
  obtain ⟨_, ⟨_, _, layout, _⟩ | ⟨rfl, rfl⟩⟩ := run_cases run
  · exact layout.capacity_eq
  · rfl

/-- `clear` ends, with a queue in which the next item goes where it went before. -/
theorem run_clear (run : Run (RingQueue.step moved) Fits (create capacity mode) calls q) :
    Yields (fun fuel => q.clear moved fuel) (Cleared q capacity mode) := by
  obtain ⟨_, ⟨front, size, layout, bound⟩ | ⟨rfl, rfl⟩⟩ := run_cases run
  · refine ⟨size + 1, ?_⟩
    intro fuel enough
    obtain ⟨q', cleared, layout'⟩ := layout.clear_eq bound moved enough
    refine ⟨q', cleared, layout'.contents_empty, ?_, layout'.size_eq, layout'.capacity_eq,
      fun _ => ⟨_, layout.rear_eq, layout'⟩⟩
    intro empty
    obtain rfl : size = 0 := by
      rw [← layout.contents_length, empty, List.length_nil]
    obtain ⟨turns, rfl⟩ : ∃ turns, fuel = turns + 1 := ⟨fuel - 1, by omega⟩
    simp only [clear, layout.dequeue_empty, Option.some.injEq] at cleared
    exact cleared.symm
  · refine ⟨1, ?_⟩
    intro fuel enough
    obtain ⟨turns, rfl⟩ : ∃ turns, fuel = turns + 1 := ⟨fuel - 1, by omega⟩
    refine ⟨create 0 mode, rfl, rfl, fun _ => rfl, rfl, rfl, ?_⟩
    intro positive
    cases positive

/-- What `operator=` leaves in its target, when it is another queue than the
source and has room for it. -/
theorem assign_yields (moveAssignable : Bool) (category : ValueCategory) (distinct : lhs ≠ rhs)
    (source : Run (RingQueue.step moved) Fits (create capacity mode) calls (queues rhs))
    (target : Run (RingQueue.step moved) Fits (create capacity' mode') calls' (queues lhs))
    (room : capacity ≤ capacity') (here : (queues rhs).Advances (queues rhs).size)
    (there : (queues lhs).Advances (queues rhs).size) :
    Yields (fun fuel => assign moved moveAssignable category fuel lhs rhs queues) fun result =>
      ∃ q', result = (true, Function.update queues lhs q') ∧
        (q'.contents = (queues rhs).contents ↔ (queues rhs).Aligned) := by
  simp only [assign, Option.bind_eq_bind]
  refine (run_clear target).bind ?_
  intro cleared h
  have kept : Function.update queues lhs cleared rhs = queues rhs :=
    Function.update_of_ne distinct.symm _ _
  have changed : Function.update queues lhs cleared lhs = cleared := Function.update_self _ _ _
  have enough_room : ¬ cleared.capacity < (queues rhs).capacity := by
    rw [h.capacity_eq, run_capacity source]
    exact Nat.not_lt.mpr room
  simp only [changed, kept, if_neg enough_room, requestType_deduced]
  obtain ⟨unlocked, ⟨front, size, layout, bound⟩ | ⟨rfl, none⟩⟩ := run_cases source
  · have positive : 0 < capacity := by
      have := layout.front_lt
      omega
    obtain ⟨rear, rear_eq, layout'⟩ := h.layout (by omega)
    have size_le := layout.size_le
    rw [Advances, layout.capacity_eq, layout.rear_eq, layout.size_eq] at here
    rw [Advances, run_capacity target, rear_eq, layout.size_eq] at there
    rw [layout.size_eq, layout.rear_eq, Int.toNat_natCast]
    rw [← kept] at unlocked layout
    rw [← changed] at layout'
    obtain ⟨q', copied, contents⟩ := copyItems_eq moved size distinct unlocked
      layout layout' (by omega) (by omega) (Nat.mod_lt (front + size) positive) (by omega)
    rw [kept] at layout contents
    rw [changed, h.contents_eq, List.nil_append] at contents
    rw [Function.update_idem] at copied
    refine ⟨_, by rw [copied, Option.bind_some], q', rfl, ?_⟩
    rw [contents, layout.aligned_iff]
  · have aligned : (queues rhs).Aligned := by
      apply aligned_of_empty
      rw [none]
      rfl
    have same : cleared.contents = (queues rhs).contents := by
      rw [h.contents_eq, none]
      rfl
    have no_turns : (queues rhs).size.toNat = 0 := by
      rw [none]
      rfl
    rw [no_turns]
    exact ⟨_, rfl, cleared, rfl, iff_of_true same aligned⟩

/-- A queue assigned to itself is cleared. -/
theorem assign_self_yields (moveAssignable : Bool) (category : ValueCategory)
    (run : Run (RingQueue.step moved) Fits (create capacity mode) calls (queues rhs)) :
    Yields (fun fuel => assign moved moveAssignable category fuel rhs rhs queues) fun result =>
      ∃ q', result = (true, Function.update queues rhs q') ∧
        Cleared (queues rhs) capacity mode q' := by
  simp only [assign, Option.bind_eq_bind]
  refine (run_clear run).bind ?_
  intro cleared h
  have changed : Function.update queues rhs cleared rhs = cleared := Function.update_self _ _ _
  refine ⟨_, ?_, cleared, rfl, h⟩
  simp only [changed, Nat.lt_irrefl, if_false, h.size_eq, Int.toNat_zero, copyItems,
    Option.bind_some]

/-- A queue that does not have the room is cleared, too. -/
theorem assign_refused (moveAssignable : Bool) (category : ValueCategory)
    (target : Run (RingQueue.step moved) Fits (create capacity mode) calls (queues lhs))
    (short : (queues lhs).capacity < (queues rhs).capacity) :
    Yields (fun fuel => assign moved moveAssignable category fuel lhs rhs queues) fun result =>
      ∃ q', result = (false, Function.update queues lhs q') ∧ q'.contents = [] := by
  have distinct : lhs ≠ rhs := by
    rintro rfl
    exact Nat.lt_irrefl _ short
  simp only [assign, Option.bind_eq_bind]
  refine (run_clear target).bind ?_
  intro cleared h
  have kept : Function.update queues lhs cleared rhs = queues rhs :=
    Function.update_of_ne distinct.symm _ _
  have changed : Function.update queues lhs cleared lhs = cleared := Function.update_self _ _ _
  rw [run_capacity target, ← h.capacity_eq] at short
  refine ⟨_, ?_, cleared, rfl, h.contents_eq⟩
  simp only [changed, kept, if_pos short]

omit [Inhabited α] in
/-- Only what is left in the target decides, when nothing else changes. -/
theorem copies_iff {result : Nat → Option (Bool × (ι → RingQueue α))} {P : Prop}
    (distinct : lhs ≠ rhs)
    (yields : Yields result fun x => ∃ q', x = (true, Function.update queues lhs q') ∧
      (q'.contents = (queues rhs).contents ↔ P)) :
    Copies result category lhs rhs queues ↔ P := by
  constructor
  · intro copies
    obtain ⟨_, ⟨q', rfl, same_iff⟩, _, same, _⟩ := yields.both copies
    rw [Function.update_self] at same
    exact same_iff.mp same
  · intro holds
    refine yields.mono ?_
    rintro _ ⟨q', rfl, same_iff⟩
    refine ⟨rfl, ?_, fun _ => Function.update_of_ne distinct.symm _ _⟩
    rw [Function.update_self]
    exact same_iff.mpr holds

/-- Assignment to another queue. -/
theorem assign_copies_iff (distinct : lhs ≠ rhs)
    (source : Run (RingQueue.step moved) Fits (create capacity mode) calls (queues rhs))
    (target : Run (RingQueue.step moved) Fits (create capacity' mode') calls' (queues lhs))
    (room : capacity ≤ capacity') (here : (queues rhs).Advances (queues rhs).size)
    (there : (queues lhs).Advances (queues rhs).size) :
    Copies (fun fuel => assign moved moveAssignable category fuel lhs rhs queues) category lhs rhs
      queues ↔ (queues rhs).Aligned :=
  copies_iff distinct (assign_yields moveAssignable category distinct source target room here there)

/-- Assignment of a queue to itself. -/
theorem assign_self_copies_iff
    (run : Run (RingQueue.step moved) Fits (create capacity mode) calls (queues rhs)) :
    Copies (fun fuel => assign moved moveAssignable category fuel rhs rhs queues) category rhs rhs
      queues ↔ (queues rhs).contents = [] := by
  have yields := assign_self_yields moveAssignable category run
  constructor
  · intro copies
    obtain ⟨_, ⟨q', rfl, cleared⟩, _, same, _⟩ := yields.both copies
    rw [Function.update_self, cleared.contents_eq] at same
    exact same.symm
  · intro nothing
    refine yields.mono ?_
    rintro _ ⟨q', rfl, cleared⟩
    rw [cleared.unchanged nothing, Function.update_eq_self]
    exact ⟨rfl, rfl, fun _ => rfl⟩

/-- Construction of a new queue. -/
theorem construct_copies_iff (distinct : lhs ≠ rhs)
    (source : Run (RingQueue.step moved) Fits (create capacity mode) calls (queues rhs))
    (here : (queues rhs).Advances (queues rhs).size) :
    Copies (fun fuel => construct moved moveAssignable category fuel lhs rhs queues) category lhs
      rhs queues ↔ (queues rhs).Aligned := by
  have kept : Function.update queues lhs (create (queues rhs).capacity false) rhs = queues rhs :=
    Function.update_of_ne distinct.symm _ _
  have fresh : Function.update queues lhs (create (queues rhs).capacity false) lhs =
      create capacity false := by
    rw [Function.update_self, run_capacity source]
  have nonneg : 0 ≤ (queues rhs).rear := by
    obtain ⟨_, ⟨_, _, layout, _⟩ | ⟨rfl, none⟩⟩ := run_cases source
    · exact layout.valid.rear.1
    · rw [none]
      exact Int.le_refl 0
  have there : (create (α := α) capacity false).Advances (queues rhs).size := by
    have capacity_eq := run_capacity source
    simp only [Advances, create] at here ⊢
    omega
  have idem (q' : RingQueue α) : Function.update
      (Function.update queues lhs (create (queues rhs).capacity false)) lhs q' =
        Function.update queues lhs q' := Function.update_idem _ _ _
  apply copies_iff distinct
  simp only [construct]
  generalize Function.update queues lhs (create (queues rhs).capacity false) = opened
    at kept fresh idem ⊢
  rw [← kept] at source here there ⊢
  rw [← fresh] at there
  have start : Run (RingQueue.step moved) Fits (create capacity false) [] (opened lhs) := by
    rw [fresh]
    exact .nil _
  have yields := assign_yields moveAssignable category distinct source start (Nat.le_refl capacity)
    here there
  simp only [idem] at yields
  exact yields

/-- Assignment and construction copy exactly the aligned queues, and an
assignment to the queue itself keeps only an empty one. -/
theorem copies_iff_aligned
    (source : Run (RingQueue.step moved) Fits (create capacity mode) calls (queues rhs)) :
    (∀ lhs capacity' mode' calls', lhs ≠ rhs →
      Run (RingQueue.step moved) Fits (create capacity' mode') calls' (queues lhs) →
      capacity ≤ capacity' → (queues rhs).Advances (queues rhs).size →
      (queues lhs).Advances (queues rhs).size →
      (Copies (fun fuel => assign moved moveAssignable category fuel lhs rhs queues) category lhs
        rhs queues ↔ (queues rhs).Aligned)) ∧
    (Copies (fun fuel => assign moved moveAssignable category fuel rhs rhs queues) category rhs rhs
      queues ↔ (queues rhs).contents = []) ∧
    ∀ lhs, lhs ≠ rhs → (queues rhs).Advances (queues rhs).size →
      (Copies (fun fuel => construct moved moveAssignable category fuel lhs rhs queues) category lhs
        rhs queues ↔ (queues rhs).Aligned) :=
  ⟨fun _ _ _ _ distinct target => assign_copies_iff distinct source target,
    assign_self_copies_iff source, fun _ distinct => construct_copies_iff distinct source⟩

/-- Capacity 2, after two items. -/
def fullOfTwo : RingQueue Nat where
  capacity := 2
  itemGuards := [false, false]
  itemContainer := [7, 8]
  overwriteMode := false
  rear := 0
  front := 0
  size := 2

/-- Capacity 2, after one item. -/
def oneOfTwo : RingQueue Nat where
  capacity := 2
  itemGuards := [false, false]
  itemContainer := [7, 0]
  overwriteMode := false
  rear := 1
  front := 0
  size := 1

theorem run_oneOfTwo : Run (RingQueue.step id) Fits (create 2 false) [.enqueue 7] oneOfTwo :=
  .single (fun _ => by decide) (by decide)

theorem run_fullOfTwo :
    Run (RingQueue.step id) Fits (create 2 false) [.enqueue 7, .enqueue 8] fullOfTwo :=
  run_oneOfTwo.trans (.single (fun _ => by decide) (by decide))

/-- A new queue beside a full one. -/
def emptyAndFull : Bool → RingQueue Nat
  | false => create 2 false
  | true => fullOfTwo

theorem copies_iff_aligned_full :
    Copies (fun fuel => assign id true .rvalue fuel false true emptyAndFull) .rvalue false true
      emptyAndFull := by
  have source : Run (RingQueue.step id) Fits (create 2 false) _ (emptyAndFull true) := run_fullOfTwo
  have target : Run (RingQueue.step id) Fits (create 2 false) [] (emptyAndFull false) := .nil _
  have here : (emptyAndFull true).Advances (emptyAndFull true).size := .inl (by decide)
  have there : (emptyAndFull false).Advances (emptyAndFull true).size := .inl (by decide)
  have aligned : (emptyAndFull true).Aligned := by decide
  exact ((copies_iff_aligned source).1 false 2 false [] (by decide) target (Nat.le_refl 2) here
    there).mpr aligned

/-- The item of a queue that is not full is replaced by what a vacant slot holds. -/
theorem copy_starts_at_rear :
    Run (RingQueue.step id) Fits (create 2 false) [.enqueue 7] oneOfTwo ∧
      ¬ Copies (fun fuel => assign id true .lvalue fuel false true fun _ => oneOfTwo) .lvalue false
        true fun _ => oneOfTwo := by
  have advances : oneOfTwo.Advances oneOfTwo.size := .inl (by decide)
  have misaligned : ¬ oneOfTwo.Aligned := by decide
  refine ⟨run_oneOfTwo, mt (Iff.mp ?_) misaligned⟩
  exact assign_copies_iff (by decide) run_oneOfTwo run_oneOfTwo (Nat.le_refl 2) advances advances

/-- A call returns false and leaves the items of both queues as they were. -/
def Refuses (result : Nat → Option (Bool × (ι → RingQueue α))) (lhs rhs : ι)
    (queues : ι → RingQueue α) : Prop :=
  Yields result fun (returned, queues') => returned = false ∧
    (queues' lhs).contents = (queues lhs).contents ∧
    (queues' rhs).contents = (queues rhs).contents

/-- A refused assignment loses the items of its target. -/
theorem contents_of_refuses
    (target : Run (RingQueue.step moved) Fits (create capacity mode) calls (queues lhs))
    (short : (queues lhs).capacity < (queues rhs).capacity)
    (refuses : Refuses (fun fuel => assign moved moveAssignable category fuel lhs rhs queues) lhs
      rhs queues) : (queues lhs).contents = [] := by
  have yields := assign_refused moveAssignable category target short
  obtain ⟨_, ⟨q', rfl, empty⟩, _, same, _⟩ := yields.both refuses
  rw [Function.update_self, empty] at same
  exact same.symm

/-- A refused assignment leaves both queues as they were exactly when there was
nothing to lose. -/
theorem refused_assign_iff
    (target : Run (RingQueue.step moved) Fits (create capacity mode) calls (queues lhs))
    (short : (queues lhs).capacity < (queues rhs).capacity) :
    Refuses (fun fuel => assign moved moveAssignable category fuel lhs rhs queues) lhs rhs queues ↔
      (queues lhs).contents = [] := by
  constructor
  · exact contents_of_refuses target short
  · intro nothing
    have distinct : rhs ≠ lhs := by
      rintro rfl
      exact Nat.lt_irrefl _ short
    refine (assign_refused moveAssignable category target short).mono ?_
    rintro _ ⟨q', rfl, empty⟩
    refine ⟨rfl, ?_, ?_⟩
    · rw [Function.update_self, empty, nothing]
    · rw [Function.update_of_ne distinct]

/-- A new queue, and a larger one. -/
def emptyAndLarge : Bool → RingQueue Nat
  | false => create 2 false
  | true => create 3 false

theorem refused_assign_iff_empty :
    Refuses (fun fuel => assign id true .lvalue fuel false true emptyAndLarge) false true
      emptyAndLarge := by
  have target : Run (RingQueue.step id) Fits (create 2 false) [] (emptyAndLarge false) := .nil _
  have short : (emptyAndLarge false).capacity < (emptyAndLarge true).capacity := by decide
  have nothing : (emptyAndLarge false).contents = [] := by decide
  exact (refused_assign_iff target short).mpr nothing

/-- A queue with an item, and a larger new one. -/
def oneAndLarge : Bool → RingQueue Nat
  | false => oneOfTwo
  | true => create 3 false

/-- The item of a queue is lost although the assignment is refused. -/
theorem refused_assign_clears :
    Run (RingQueue.step id) Fits (create 2 false) [.enqueue 7] (oneAndLarge false) ∧
      Run (RingQueue.step id) Fits (create 3 false) [] (oneAndLarge true) ∧
      ¬ Refuses (fun fuel => assign id true .lvalue fuel false true oneAndLarge) false true
        oneAndLarge := by
  have target : Run (RingQueue.step id) Fits (create 2 false) _ (oneAndLarge false) := run_oneOfTwo
  have short : (oneAndLarge false).capacity < (oneAndLarge true).capacity := by decide
  have something : (oneAndLarge false).contents ≠ [] := by decide
  exact ⟨target, .nil _, mt (contents_of_refuses target short) something⟩

end RingQueue
end Vee
