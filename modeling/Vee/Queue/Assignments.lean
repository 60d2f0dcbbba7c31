import Mathlib.Algebra.BigOperators.Group.Finset.Piecewise
import Mathlib.Logic.Function.Basic
import Vee.Pool.Basic
import Vee.Queue.Concurrent
import Vee.Queue.Copy

/-!
# Queues that are assigned to each other

The queues of a program, with assignments between them and calls of `enqueue` and
`dequeue` on them, all at the same time. A section under `_index_guard` is one step,
possible while the guard is free; the loop of `operator=` takes many steps under the
guard of its argument, and each of its `enqueue` calls takes the guard of the target.

A guard that is taken is held by one assignment inside its loop, and only that one
may have locked an item guard of the queue. When no new call begins, the calls that
have begun take a bounded number of steps.
-/

namespace Vee

open Transition

variable {α ι : Type}

/-- Program points of `lhs = rhs`. -/
inductive Assignment where
  /-- `dequeue()` in `lhs.clear()` -/
  | clear
  /-- the item of a slot is moved out of `lhs` -/
  | discard (slot : Int)
  | compare
  /-- `rhs_index_guard` is constructed -/
  | lock
  /-- the loop condition; `left` turns are left -/
  | turn (rear : Int) (left : Nat)
  /-- `lhs.enqueue`, with the item guard of `rear` held -/
  | enqueue (rear : Int) (left : Nat)
  | store (slot rear : Int) (left : Nat)
  /-- the end of the loop body -/
  | advance (rear : Int) (left : Nat)
  | returned (result : Bool)
  deriving DecidableEq, Repr

/-- Queues, the flags of their `_index_guard`, and all calls on them. -/
structure Queues (ι α : Type) where
  queues : ι → RingQueue α
  indexGuards : ι → Bool := fun _ => false
  assignments : List (ι × ι × Assignment) := []
  producers : List (ι × Producer α) := []
  consumers : List (ι × Consumer α) := []

/-- Begin a call, or let a call take its next step. -/
inductive QueuesAction (ι α : Type) where
  | callAssign (lhs rhs : ι)
  | callEnqueue (queue : ι) (data : α)
  | callDequeue (queue : ι)
  | assignment (i : Nat)
  | producer (p : Nat)
  | consumer (c : Nat)

namespace Queues

variable [DecidableEq ι]

/-- New queues. -/
def create [Inhabited α] (capacity : ι → Nat) : Queues ι α where
  queues q := .create (capacity q) false

def put (s : Queues ι α) (q : ι) (queue : RingQueue α) : Queues ι α :=
  { s with queues := Function.update s.queues q queue }

def setGuard (s : Queues ι α) (q : ι) (flag : Bool) : Queues ι α :=
  { s with indexGuards := Function.update s.indexGuards q flag }

/-- One step of `lhs = rhs`. An item of `rhs` is copied, as it is passed as an lvalue. -/
def assignmentStep (moved : α → α) (lhs rhs : ι) (s : Queues ι α) :
    Assignment → Option (Queues ι α × Assignment)
  | .clear =>
      if s.indexGuards lhs then none else
        match (s.queues lhs).dequeueIndex with
        | none => some (s, .compare)
        | some (slot, queue) => some (s.put lhs queue, .discard slot)
  | .discard slot =>
      match (s.queues lhs).load moved slot with
      | none => none
      | some (_, queue) => some (s.put lhs queue, .clear)
  | .compare =>
      if (s.queues lhs).capacity < (s.queues rhs).capacity then some (s, .returned false)
      else some (s, .lock)
  | .lock =>
      if s.indexGuards rhs then none
      else some (s.setGuard rhs true, .turn (s.queues rhs).rear (s.queues rhs).size.toNat)
  | .turn _ 0 => some (s.setGuard rhs false, .returned true)
  | .turn rear (left + 1) =>
      match (s.queues rhs).lockItem rear with
      | none => none
      | some queue => some (s.put rhs queue, .enqueue rear left)
  | .enqueue rear left =>
      if s.indexGuards lhs then none else
        match (s.queues lhs).enqueueIndex with
        | none => some (s, .advance rear left)
        | some (slot, queue) => some (s.put lhs queue, .store slot rear left)
  | .store slot rear left =>
      match (s.queues rhs).itemContainer[toSize rear]? with
      | none => none
      | some item =>
          match (s.queues lhs).store slot item with
          | none => none
          | some queue => some (s.put lhs queue, .advance rear left)
  | .advance rear left =>
      some (s.put rhs ((s.queues rhs).unlockItem rear),
        .turn (RingQueue.bump (s.queues rhs).capacity rear) left)
  | .returned _ => none

def producerStep (q : ι) (s : Queues ι α) : Producer α → Option (Queues ι α × Producer α)
  | .reserve data =>
      if s.indexGuards q then none else
        match (s.queues q).enqueueIndex with
        | none => some (s, .returned false)
        | some (slot, queue) => some (s.put q queue, .store data slot)
  | .store data slot =>
      match (s.queues q).store slot data with
      | none => none
      | some queue => some (s.put q queue, .returned true)
  | .returned _ => none

def consumerStep (moved : α → α) (q : ι) (s : Queues ι α) :
    Consumer α → Option (Queues ι α × Consumer α)
  | .reserve =>
      if s.indexGuards q then none else
        match (s.queues q).dequeueIndex with
        | none => some (s, .returned none)
        | some (slot, queue) => some (s.put q queue, .load slot)
  | .load slot =>
      match (s.queues q).load moved slot with
      | none => none
      | some (item, queue) => some (s.put q queue, .returned (some item))
  | .returned _ => none

def step (moved : α → α) (s : Queues ι α) : QueuesAction ι α → Option (Queues ι α)
  | .callAssign lhs rhs => some { s with assignments := s.assignments ++ [(lhs, rhs, .clear)] }
  | .callEnqueue q data => some { s with producers := s.producers ++ [(q, .reserve data)] }
  | .callDequeue q => some { s with consumers := s.consumers ++ [(q, .reserve)] }
  | .assignment i =>
      match s.assignments[i]? with
      | none => none
      | some (lhs, rhs, pc) =>
          (s.assignmentStep moved lhs rhs pc).map fun (s', pc') =>
            { s' with assignments := s.assignments.set i (lhs, rhs, pc') }
  | .producer p =>
      match s.producers[p]? with
      | none => none
      | some (q, pc) =>
          (s.producerStep q pc).map fun (s', pc') =>
            { s' with producers := s.producers.set p (q, pc') }
  | .consumer c =>
      match s.consumers[c]? with
      | none => none
      | some (q, pc) =>
          (s.consumerStep moved q pc).map fun (s', pc') =>
            { s' with consumers := s.consumers.set c (q, pc') }

/-- The assignments that are in use. -/
def InUse (inUse : ι → ι → Prop) (_ : Queues ι α) : QueuesAction ι α → Prop
  | .callAssign lhs rhs => inUse lhs rhs
  | _ => True

/-- No call begins. -/
def Working (_ : Queues ι α) : QueuesAction ι α → Prop
  | .callAssign _ _ | .callEnqueue _ _ | .callDequeue _ => False
  | .assignment _ | .producer _ | .consumer _ => True


end Queues

/-- An index of a queue that has slots. -/
def InRing (capacity : Nat) (x : Int) : Prop := 0 < capacity → ∃ n < capacity, x = (n : Nat)

theorem InRing.toSize_lt {capacity : Nat} {x : Int} (h : InRing capacity x)
    (positive : 0 < capacity) (small : capacity < 2 ^ 31) : toSize x < capacity := by
  obtain ⟨n, less, rfl⟩ := h positive
  rw [toSize_natCast (by omega)]
  exact less

theorem InRing.bump {capacity : Nat} {x : Int} (h : InRing capacity x) (small : capacity < 2 ^ 31) :
    InRing capacity (RingQueue.bump capacity x) := by
  intro positive
  obtain ⟨n, less, rfl⟩ := h positive
  exact ⟨(n + 1) % capacity, Nat.mod_lt _ positive, RingQueue.bump_natCast (by omega)⟩

namespace RingQueue

variable {q q' : RingQueue α} {capacity : Nat} {slot : Int} {item : α} {moved : α → α}

/-- What all calls keep, in whatever order their sections and accesses come. -/
structure Bounded (q : RingQueue α) (capacity : Nat) : Prop where
  capacity_eq : q.capacity = capacity
  mode_eq : q.overwriteMode = false
  container_length : q.itemContainer.length = capacity
  guards_length : q.itemGuards.length = capacity
  size : ∃ n ≤ capacity, q.size = (n : Nat)
  rear : InRing capacity q.rear
  front : InRing capacity q.front

namespace Bounded

attribute [local irreducible] RingQueue.bump toInt32 toSize

theorem create [Inhabited α] (capacity : Nat) :
    Bounded (RingQueue.create (α := α) capacity false) capacity where
  capacity_eq := rfl
  mode_eq := rfl
  container_length := List.length_replicate
  guards_length := List.length_replicate
  size := ⟨0, Nat.zero_le _, rfl⟩
  rear := fun positive => ⟨0, positive, rfl⟩
  front := fun positive => ⟨0, positive, rfl⟩

/-- Items and item guards may change. -/
theorem access (h : Bounded q capacity) {container : List α} {guards : List Bool}
    (items : container.length = q.itemContainer.length)
    (flags : guards.length = q.itemGuards.length) :
    Bounded { q with itemContainer := container, itemGuards := guards } capacity where
  capacity_eq := h.capacity_eq
  mode_eq := h.mode_eq
  container_length := items.trans h.container_length
  guards_length := flags.trans h.guards_length
  size := h.size
  rear := h.rear
  front := h.front

theorem enqueueIndex (h : Bounded q capacity) (small : capacity < 2 ^ 31)
    (taken : q.enqueueIndex = some (slot, q')) :
    toSize slot < capacity ∧ Bounded q' capacity ∧ q'.itemGuards = q.itemGuards ∧
      q'.size.toNat = q.size.toNat + 1 := by
  obtain ⟨n, le, size⟩ := h.size
  cases full : q.isFull with
  | true => simp [RingQueue.enqueueIndex, full, h.mode_eq] at taken
  | false =>
      simp only [RingQueue.enqueueIndex, full, Bool.false_eq_true, if_false, Option.some.injEq,
        Prod.mk.injEq] at taken
      obtain ⟨rfl, rfl⟩ := taken
      have room : n < capacity := by
        rw [isFull, size, h.capacity_eq, toSize_natCast (by omega)] at full
        exact Nat.lt_of_le_of_ne le (of_decide_eq_false full)
      have next : toInt32 (q.size + 1) = (n + 1 : Nat) := by
        rw [size, toInt32_succ (by omega)]
      refine ⟨h.rear.toSize_lt (by omega) small, ⟨h.capacity_eq, h.mode_eq, h.container_length,
        h.guards_length, ⟨n + 1, room, next⟩, ?_, h.front⟩, rfl, ?_⟩
      · rw [h.capacity_eq]
        exact h.rear.bump small
      · rw [next, size, Int.toNat_natCast, Int.toNat_natCast]

theorem dequeueIndex (h : Bounded q capacity) (small : capacity < 2 ^ 31)
    (taken : q.dequeueIndex = some (slot, q')) :
    toSize slot < capacity ∧ Bounded q' capacity ∧ q'.itemGuards = q.itemGuards ∧
      q'.size.toNat + 1 = q.size.toNat := by
  obtain ⟨n, le, size⟩ := h.size
  by_cases empty : q.size = 0
  · simp [RingQueue.dequeueIndex, empty] at taken
  · simp only [RingQueue.dequeueIndex, if_neg empty, Option.some.injEq, Prod.mk.injEq] at taken
    obtain ⟨rfl, rfl⟩ := taken
    obtain ⟨m, rfl⟩ : ∃ m, n = m + 1 := Nat.exists_eq_succ_of_ne_zero (by omega)
    have previous : toInt32 (q.size - 1) = m := by
      rw [size, toInt32_pred (by omega)]
    refine ⟨h.front.toSize_lt (by omega) small, ⟨h.capacity_eq, h.mode_eq, h.container_length,
      h.guards_length, ⟨m, by omega, previous⟩, h.rear, ?_⟩, rfl, ?_⟩
    · rw [h.capacity_eq]
      exact h.front.bump small
    · rw [previous, size, Int.toNat_natCast, Int.toNat_natCast]

/-- An access to a slot can be made; it frees the guard of the slot. -/
theorem store (h : Bounded q capacity) (inside : toSize slot < capacity) (item : α) :
    ∃ q', q.store slot item = some q' ∧ Bounded q' capacity ∧ q'.size = q.size ∧
      q'.itemGuards = q.itemGuards.set (toSize slot) false := by
  rw [← h.container_length] at inside
  exact ⟨_, if_pos inside, h.access List.length_set List.length_set, rfl, rfl⟩

theorem load (h : Bounded q capacity) (inside : toSize slot < capacity) (moved : α → α) :
    ∃ item q', q.load moved slot = some (item, q') ∧ Bounded q' capacity ∧ q'.size = q.size ∧
      q'.itemGuards = q.itemGuards.set (toSize slot) false := by
  rw [← h.container_length] at inside
  obtain ⟨item, found⟩ : ∃ item, q.itemContainer[toSize slot]? = some item :=
    ⟨_, List.getElem?_eq_getElem inside⟩
  refine ⟨item, { q with
    itemContainer := q.itemContainer.set (toSize slot) (moved item)
    itemGuards := q.itemGuards.set (toSize slot) false }, ?_,
    h.access List.length_set List.length_set, rfl, rfl⟩
  simp only [RingQueue.load, found]

/-- With all item guards free any of them can be locked. -/
theorem lockItem (h : Bounded q capacity) (unlocked : Unlocked q)
    (inside : toSize slot < capacity) :
    ∃ q', q.lockItem slot = some q' ∧ Bounded q' capacity ∧ q'.size = q.size ∧
      q'.itemGuards = q.itemGuards.set (toSize slot) true := by
  rw [← h.guards_length] at inside
  have free : q.itemGuards[toSize slot] = false := unlocked _ (List.getElem_mem inside)
  exact ⟨_, if_pos (by rw [List.getElem?_eq_getElem inside, free]), h.access rfl List.length_set,
    rfl, rfl⟩

theorem unlockItem (h : Bounded q capacity) : Bounded (q.unlockItem slot) capacity :=
  h.access rfl List.length_set

end Bounded
/-- No item guard is set that was not set before. -/
def Released (old new : RingQueue α) : Prop :=
  ∀ k : Nat, new.itemGuards[k]? = some true → old.itemGuards[k]? = some true

theorem Released.of_eq {old new : RingQueue α} (same : new.itemGuards = old.itemGuards) :
    Released old new := by
  intro k
  rw [same]
  exact id

theorem Released.of_set {old new : RingQueue α} {p : Nat}
    (cleared : new.itemGuards = old.itemGuards.set p false) : Released old new := by
  intro k locked
  rw [cleared, List.getElem?_set] at locked
  split_ifs at locked with same inside
  · cases locked
  · exact locked

theorem Unlocked.released {old new : RingQueue α} (h : Unlocked old) (released : Released old new) :
    Unlocked new := by
  intro flag member
  obtain ⟨k, at_k⟩ := List.getElem?_of_mem member
  cases flag with
  | false => rfl
  | true => exact h true (List.mem_of_getElem? (released k at_k))

end RingQueue

namespace Assignment

/-- `rhs._index_guard` is held. -/
def holds : Assignment → Bool
  | .turn _ _ | .enqueue _ _ | .store _ _ _ | .advance _ _ => true
  | _ => false

/-- The slot of `rhs` whose item guard is held. -/
def locked : Assignment → Option Int
  | .enqueue rear _ | .store _ rear _ | .advance rear _ => some rear
  | _ => none

/-- The loop is reached when `rhs` is not the larger queue, and its slots are slots
of the queues. -/
def Sane (lhsCapacity rhsCapacity : Nat) : Assignment → Prop
  | .clear | .compare | .returned _ => True
  | .discard slot => toSize slot < lhsCapacity
  | .lock => rhsCapacity ≤ lhsCapacity
  | .turn rear left => rhsCapacity ≤ lhsCapacity ∧ left ≤ rhsCapacity ∧ InRing rhsCapacity rear
  | .enqueue rear left | .advance rear left =>
      rhsCapacity ≤ lhsCapacity ∧ left < rhsCapacity ∧ InRing rhsCapacity rear
  | .store slot rear left =>
      (rhsCapacity ≤ lhsCapacity ∧ left < rhsCapacity ∧ InRing rhsCapacity rear) ∧
        toSize slot < lhsCapacity

/-- Bounds the steps that are left, where each item in a queue counts twice. -/
def togo (rhsCapacity : Nat) : Assignment → Nat
  | .discard _ => 6 * rhsCapacity + 5
  | .clear => 6 * rhsCapacity + 4
  | .compare => 6 * rhsCapacity + 3
  | .lock => 6 * rhsCapacity + 2
  | .turn _ left => 6 * left + 1
  | .enqueue _ left => 6 * left + 6
  | .store _ _ left => 6 * left + 3
  | .advance _ left => 6 * left + 2
  | .returned _ => 0

end Assignment

def Producer.togo : Producer α → Nat
  | .reserve _ => 4
  | .store _ _ => 1
  | .returned _ => 0

def Consumer.togo : Consumer α → Nat
  | .reserve => 1
  | .load _ => 2
  | .returned _ => 0

namespace Queues

variable {s s' : Queues ι α} {inUse : ι → ι → Prop} {capacity : ι → Nat}
  {lhs rhs q : ι} {pc pc' : Assignment} {queue : RingQueue α} {i : Nat} {moved : α → α}

/-- The call does not hold the guard of `q`. -/
def Idle (q : ι) (call : ι × ι × Assignment) : Prop := call.2.1 = q → call.2.2.holds = false

/-- The guard of `q` is free, or held by one assignment, which may have locked the
item guard of one slot. -/
inductive Guarded (s : Queues ι α) (q : ι) : Prop where
  | free : s.indexGuards q = false → Pool.All (Idle q) s.assignments →
      RingQueue.Unlocked (s.queues q) → Guarded s q
  | held {i : Nat} {lhs : ι} {pc : Assignment} : s.indexGuards q = true →
      Pool.Only (Idle q) i (lhs, q, pc) s.assignments → pc.holds = true →
      (∀ k : Nat, (s.queues q).itemGuards[k]? = some true →
        ∃ slot, pc.locked = some slot ∧ toSize slot = k) → Guarded s q

namespace Guarded

/-- Calls that do not hold the guard come, go on and free item guards. -/
theorem passive (h : Guarded s q) (guard : s'.indexGuards q = s.indexGuards q)
    (all : Pool.All (Idle q) s.assignments → Pool.All (Idle q) s'.assignments)
    (only : ∀ i call, ¬ Idle q call → Pool.Only (Idle q) i call s.assignments →
      Pool.Only (Idle q) i call s'.assignments)
    (released : RingQueue.Released (s.queues q) (s'.queues q)) : Guarded s' q := by
  cases h with
  | free open_ idle unlocked =>
      exact .free (guard.trans open_) (all idle) (unlocked.released released)
  | @held i lhs pc closed held holds items =>
      have busy : ¬ Idle q (lhs, q, pc) := fun idle => by simp [idle rfl] at holds
      exact .held (guard.trans closed) (only i _ busy held) holds
        fun k locked => items k (released k locked)

/-- The step of an assignment that does not hold the guard before and after it. -/
theorem passive_set (h : Guarded s q) (at_i : s.assignments[i]? = some (lhs, rhs, pc))
    (before : Idle q (lhs, rhs, pc)) (after : Idle q (lhs, rhs, pc'))
    (guard : s'.indexGuards q = s.indexGuards q)
    (assignments : s'.assignments = s.assignments.set i (lhs, rhs, pc'))
    (released : RingQueue.Released (s.queues q) (s'.queues q)) : Guarded s' q := by
  refine h.passive guard ?_ ?_ released
  · intro idle
    rw [assignments]
    exact idle.set after
  · intro j call busy only
    rw [assignments]
    refine only.set_other ?_ after
    rintro rfl
    obtain rfl := Option.some.inj (at_i.symm.trans only.here)
    exact busy before

/-- The holder of the guard. -/
theorem eq_holder (h : Guarded s rhs) (at_i : s.assignments[i]? = some (lhs, rhs, pc))
    (holds : pc.holds = true) :
    s.indexGuards rhs = true ∧ Pool.Only (Idle rhs) i (lhs, rhs, pc) s.assignments ∧
      ∀ k : Nat, (s.queues rhs).itemGuards[k]? = some true →
        ∃ slot, pc.locked = some slot ∧ toSize slot = k := by
  have busy : ¬ Idle rhs (lhs, rhs, pc) := fun idle => by simp [idle rfl] at holds
  cases h with
  | free _ idle _ => exact absurd (idle.get at_i) busy
  | held closed only _ items =>
      obtain ⟨rfl, same⟩ := only.eq_of_not at_i busy
      cases same
      exact ⟨closed, only, items⟩

/-- The holder takes a step and goes on holding the guard. -/
theorem hold (h : Guarded s rhs) (at_i : s.assignments[i]? = some (lhs, rhs, pc))
    (holds : pc.holds = true) (holds' : pc'.holds = true)
    (guard : s'.indexGuards rhs = s.indexGuards rhs)
    (assignments : s'.assignments = s.assignments.set i (lhs, rhs, pc'))
    (items : (∀ k : Nat, (s.queues rhs).itemGuards[k]? = some true →
        ∃ slot, pc.locked = some slot ∧ toSize slot = k) →
      ∀ k : Nat, (s'.queues rhs).itemGuards[k]? = some true →
        ∃ slot, pc'.locked = some slot ∧ toSize slot = k) : Guarded s' rhs := by
  obtain ⟨closed, only, before⟩ := h.eq_holder at_i holds
  have only' : Pool.Only (Idle rhs) i (lhs, rhs, pc') s'.assignments := by
    rw [assignments]
    exact only.set
  exact .held (guard.trans closed) only' holds' (items before)

/-- While the holder has locked no item guard, all of them are free. -/
theorem unlocked (h : Guarded s rhs) (at_i : s.assignments[i]? = some (lhs, rhs, pc))
    (holds : pc.holds = true) (none_ : pc.locked = none) : RingQueue.Unlocked (s.queues rhs) := by
  obtain ⟨_, _, items⟩ := h.eq_holder at_i holds
  intro flag member
  obtain ⟨k, at_k⟩ := List.getElem?_of_mem member
  cases flag with
  | false => rfl
  | true =>
      obtain ⟨_, locked, _⟩ := items k at_k
      rw [none_] at locked
      cases locked

end Guarded

/-- What every run keeps. -/
structure Sound (inUse : ι → ι → Prop) (capacity : ι → Nat) (s : Queues ι α) : Prop where
  bounded : ∀ q, (s.queues q).Bounded (capacity q)
  guarded : ∀ q, Guarded s q
  assignments : ∀ lhs rhs pc, (lhs, rhs, pc) ∈ s.assignments →
    inUse lhs rhs ∧ pc.Sane (capacity lhs) (capacity rhs)
  producers : ∀ q data slot, (q, .store data slot) ∈ s.producers → toSize slot < capacity q
  consumers : ∀ q slot, (q, .load slot) ∈ s.consumers → toSize slot < capacity q

namespace Sound

/-- What is to be shown of a step of an assignment. -/
theorem assignment (h : Sound inUse capacity s) (at_i : s.assignments[i]? = some (lhs, rhs, pc))
    (producers : s'.producers = s.producers) (consumers : s'.consumers = s.consumers)
    (assignments : s'.assignments = s.assignments.set i (lhs, rhs, pc'))
    (bounded : ∀ q, (s'.queues q).Bounded (capacity q))
    (guards : ∀ q, q ≠ rhs → s'.indexGuards q = s.indexGuards q)
    (released : ∀ q, q ≠ rhs → RingQueue.Released (s.queues q) (s'.queues q))
    (own : Guarded s' rhs) (sane : pc'.Sane (capacity lhs) (capacity rhs)) :
    Sound inUse capacity s' where
  bounded := bounded
  guarded := by
    intro q
    by_cases same : q = rhs
    · subst same
      exact own
    · have idle (pc : Assignment) : Idle q (lhs, rhs, pc) := fun eq => absurd eq.symm same
      exact (h.guarded q).passive_set at_i (idle pc) (idle pc') (guards q same) assignments
        (released q same)
  assignments := by
    intro lhs' rhs' pc'' member
    rw [assignments] at member
    obtain old | new := List.mem_or_eq_of_mem_set member
    · exact h.assignments lhs' rhs' pc'' old
    · cases new
      exact ⟨(h.assignments lhs rhs pc (List.mem_of_getElem? at_i)).1, sane⟩
  producers := by
    rw [producers]
    exact h.producers
  consumers := by
    rw [consumers]
    exact h.consumers

/-- What is to be shown of a step of a producer or a consumer. -/
theorem access (h : Sound inUse capacity s) (guards : s'.indexGuards = s.indexGuards)
    (assignments : s'.assignments = s.assignments)
    (bounded : ∀ q, (s'.queues q).Bounded (capacity q))
    (released : ∀ q, RingQueue.Released (s.queues q) (s'.queues q))
    (stores : ∀ q data slot, (q, .store data slot) ∈ s'.producers → toSize slot < capacity q)
    (loads : ∀ q slot, (q, .load slot) ∈ s'.consumers → toSize slot < capacity q) :
    Sound inUse capacity s' where
  bounded := bounded
  guarded := by
    intro q
    refine (h.guarded q).passive (congrFun guards q) ?_ ?_ (released q)
    · rw [assignments]
      exact id
    · rw [assignments]
      exact fun _ _ _ => id
  assignments := by
    rw [assignments]
    exact h.assignments
  producers := stores
  consumers := loads

/-- A producer that is to store into a slot has been given it. -/
theorem stores_set (h : Sound inUse capacity s) (p : Nat) (q : ι) (pc : Producer α)
    (given : ∀ data slot, pc = .store data slot → toSize slot < capacity q) :
    ∀ q' data slot, (q', .store data slot) ∈ s.producers.set p (q, pc) →
      toSize slot < capacity q' := by
  intro q' data slot member
  obtain old | new := List.mem_or_eq_of_mem_set member
  · exact h.producers q' data slot old
  · cases new
    exact given data slot rfl

theorem loads_set (h : Sound inUse capacity s) (c : Nat) (q : ι) (pc : Consumer α)
    (given : ∀ slot, pc = .load slot → toSize slot < capacity q) :
    ∀ q' slot, (q', .load slot) ∈ s.consumers.set c (q, pc) → toSize slot < capacity q' := by
  intro q' slot member
  obtain old | new := List.mem_or_eq_of_mem_set member
  · exact h.consumers q' slot old
  · cases new
    exact given slot rfl

theorem create [Inhabited α] (inUse : ι → ι → Prop) (capacity : ι → Nat) :
    Sound inUse capacity (Queues.create (α := α) capacity) where
  bounded q := .create (capacity q)
  guarded q := .free rfl Pool.all_nil (.create (capacity q) false)
  assignments := nofun
  producers := nofun
  consumers := nofun

/-- A new call is idle. -/
theorem callAssign (h : Sound inUse capacity s) (used : inUse lhs rhs) :
    Sound inUse capacity { s with assignments := s.assignments ++ [(lhs, rhs, .clear)] } where
  bounded := h.bounded
  guarded := by
    intro q
    refine (h.guarded q).passive rfl ?_ ?_ (.of_eq rfl)
    · exact fun idle => Pool.all_append_singleton.mpr ⟨idle, fun _ => rfl⟩
    · exact fun _ _ _ only => only.append fun _ => rfl
  assignments := by
    intro lhs' rhs' pc member
    obtain old | new := List.mem_append.mp member
    · exact h.assignments lhs' rhs' pc old
    · cases List.mem_singleton.mp new
      exact ⟨used, trivial⟩
  producers := h.producers
  consumers := h.consumers

theorem callEnqueue (h : Sound inUse capacity s) (q : ι) (data : α) :
    Sound inUse capacity { s with producers := s.producers ++ [(q, .reserve data)] } := by
  refine h.access rfl rfl h.bounded (fun _ => .of_eq rfl) ?_ h.consumers
  intro q' data' slot member
  obtain old | new := List.mem_append.mp member
  · exact h.producers q' data' slot old
  · cases List.mem_singleton.mp new

theorem callDequeue (h : Sound inUse capacity s) (q : ι) :
    Sound inUse capacity { s with consumers := s.consumers ++ [(q, .reserve)] } := by
  refine h.access rfl rfl h.bounded (fun _ => .of_eq rfl) h.producers ?_
  intro q' slot member
  obtain old | new := List.mem_append.mp member
  · exact h.consumers q' slot old
  · cases List.mem_singleton.mp new

end Sound

variable [DecidableEq ι]

@[simp] theorem put_queues (s : Queues ι α) (q : ι) (queue : RingQueue α) :
    (s.put q queue).queues = Function.update s.queues q queue := rfl

@[simp] theorem put_indexGuards (s : Queues ι α) (q : ι) (queue : RingQueue α) :
    (s.put q queue).indexGuards = s.indexGuards := rfl

@[simp] theorem put_assignments (s : Queues ι α) (q : ι) (queue : RingQueue α) :
    (s.put q queue).assignments = s.assignments := rfl

@[simp] theorem put_producers (s : Queues ι α) (q : ι) (queue : RingQueue α) :
    (s.put q queue).producers = s.producers := rfl

@[simp] theorem put_consumers (s : Queues ι α) (q : ι) (queue : RingQueue α) :
    (s.put q queue).consumers = s.consumers := rfl

@[simp] theorem setGuard_queues (s : Queues ι α) (q : ι) (flag : Bool) :
    (s.setGuard q flag).queues = s.queues := rfl

@[simp] theorem setGuard_indexGuards (s : Queues ι α) (q : ι) (flag : Bool) :
    (s.setGuard q flag).indexGuards = Function.update s.indexGuards q flag := rfl

@[simp] theorem setGuard_assignments (s : Queues ι α) (q : ι) (flag : Bool) :
    (s.setGuard q flag).assignments = s.assignments := rfl

@[simp] theorem setGuard_producers (s : Queues ι α) (q : ι) (flag : Bool) :
    (s.setGuard q flag).producers = s.producers := rfl

@[simp] theorem setGuard_consumers (s : Queues ι α) (q : ι) (flag : Bool) :
    (s.setGuard q flag).consumers = s.consumers := rfl

/-- The items in all queues. -/
def stored [Fintype ι] (s : Queues ι α) : Nat := ∑ q, (s.queues q).size.toNat

/-- Bounds the steps that the calls have before them. -/
def togo [Fintype ι] (capacity : ι → Nat) (s : Queues ι α) : Nat :=
  2 * s.stored + (s.assignments.map fun call => call.2.2.togo (capacity call.2.1)).sum +
    (s.producers.map fun call => call.2.togo).sum + (s.consumers.map fun call => call.2.togo).sum

theorem bounded_put (h : ∀ q, (s.queues q).Bounded (capacity q))
    (here : queue.Bounded (capacity q)) (q' : ι) :
    ((s.put q queue).queues q').Bounded (capacity q') := by
  rw [put_queues]
  by_cases same : q' = q
  · subst same
    rw [Function.update_self]
    exact here
  · rw [Function.update_of_ne same]
    exact h q'

theorem released_put (here : RingQueue.Released (s.queues q) queue) (q' : ι) :
    RingQueue.Released (s.queues q') ((s.put q queue).queues q') := by
  rw [put_queues]
  by_cases same : q' = q
  · subst same
    rw [Function.update_self]
    exact here
  · rw [Function.update_of_ne same]
    exact .of_eq rfl

theorem stored_put [Fintype ι] (s : Queues ι α) (q : ι) (queue : RingQueue α) :
    (s.put q queue).stored + (s.queues q).size.toNat = s.stored + queue.size.toNat := by
  have sizes : (fun q' => ((s.put q queue).queues q').size.toNat) =
      Function.update (fun q' => (s.queues q').size.toNat) q queue.size.toNat :=
    Function.comp_update (fun queue : RingQueue α => queue.size.toNat) s.queues q queue
  have rest := Finset.sum_eq_add_sum_sdiff_singleton_of_mem (Finset.mem_univ q)
    fun q' => (s.queues q').size.toNat
  rw [stored, stored, sizes, Finset.sum_update_of_mem (Finset.mem_univ q), rest]
  omega

theorem stored_put_eq [Fintype ι] (same : queue.size = (s.queues q).size) :
    (s.put q queue).stored = s.stored := by
  have items := stored_put s q queue
  rw [same] at items
  exact Nat.add_right_cancel items

namespace Sound

/-- A step that puts back a queue with fewer item guards set, in or out of the loop. -/
theorem put_lhs (h : Sound inUse capacity s) (at_i : s.assignments[i]? = some (lhs, rhs, pc))
    (bounded : queue.Bounded (capacity lhs))
    (released : RingQueue.Released (s.queues lhs) queue) (holds : pc'.holds = pc.holds)
    (locked : pc'.locked = pc.locked) (sane : pc'.Sane (capacity lhs) (capacity rhs)) :
    Sound inUse capacity
      { s.put lhs queue with assignments := s.assignments.set i (lhs, rhs, pc') } := by
  have freed := released_put (s := s) released
  refine h.assignment at_i rfl rfl rfl (bounded_put h.bounded bounded) (fun _ _ => rfl)
    (fun q _ => freed q) ?_ sane
  cases busy : pc.holds with
  | false =>
      refine (h.guarded rhs).passive_set at_i (fun _ => busy) (fun _ => holds.trans busy) ?_ ?_ ?_
      · rfl
      · rfl
      · exact freed rhs
  | true =>
      refine (h.guarded rhs).hold at_i busy (holds.trans busy) ?_ ?_ ?_
      · rfl
      · rfl
      · intro items k flag
        rw [locked]
        exact items k (freed rhs k flag)

/-- A step that changes the program point only. -/
theorem move (h : Sound inUse capacity s) (at_i : s.assignments[i]? = some (lhs, rhs, pc))
    (holds : pc'.holds = pc.holds) (locked : pc'.locked = pc.locked)
    (sane : pc'.Sane (capacity lhs) (capacity rhs)) :
    Sound inUse capacity { s with assignments := s.assignments.set i (lhs, rhs, pc') } := by
  have same : s.put lhs (s.queues lhs) = s := by
    rw [put, Function.update_eq_self]
  have moved := h.put_lhs at_i (h.bounded lhs) (.of_eq rfl) holds locked sane
  rwa [same] at moved

/-- A step of the loop on the queue whose guard is held. -/
theorem put_rhs (h : Sound inUse capacity s) (at_i : s.assignments[i]? = some (lhs, rhs, pc))
    (bounded : queue.Bounded (capacity rhs)) (holds : pc.holds = true) (holds' : pc'.holds = true)
    (items : (∀ k : Nat, (s.queues rhs).itemGuards[k]? = some true →
        ∃ slot, pc.locked = some slot ∧ toSize slot = k) →
      ∀ k : Nat, queue.itemGuards[k]? = some true →
        ∃ slot, pc'.locked = some slot ∧ toSize slot = k)
    (sane : pc'.Sane (capacity lhs) (capacity rhs)) :
    Sound inUse capacity
      { s.put rhs queue with assignments := s.assignments.set i (lhs, rhs, pc') } := by
  refine h.assignment at_i rfl rfl rfl (bounded_put h.bounded bounded) (fun _ _ => rfl) ?_ ?_ sane
  · intro q other
    rw [put_queues, Function.update_of_ne other]
    exact .of_eq rfl
  · refine (h.guarded rhs).hold at_i holds holds' ?_ ?_ ?_
    · rfl
    · rfl
    · rw [put_queues, Function.update_self]
      exact items

/-- The guard is taken. -/
theorem lock (h : Sound inUse capacity s) (at_i : s.assignments[i]? = some (lhs, rhs, .lock))
    (open_ : s.indexGuards rhs = false) :
    Sound inUse capacity { s.setGuard rhs true with
      assignments := s.assignments.set i
        (lhs, rhs, .turn (s.queues rhs).rear (s.queues rhs).size.toNat) } := by
  obtain ⟨_, small⟩ := h.assignments lhs rhs .lock (List.mem_of_getElem? at_i)
  have right_ := h.bounded rhs
  obtain ⟨n, le, size⟩ := right_.size
  refine h.assignment at_i rfl rfl rfl h.bounded ?_ (fun _ _ => .of_eq rfl) ?_ ?_
  · intro q other
    rw [setGuard_indexGuards, Function.update_of_ne other]
  · cases h.guarded rhs with
    | held closed _ _ _ => exact absurd (open_.symm.trans closed) Bool.noConfusion
    | free _ idle unlocked =>
        refine .held (Function.update_self ..) (idle.only at_i) rfl ?_
        intro k flag
        exact absurd (unlocked true (List.mem_of_getElem? flag)) Bool.noConfusion
  · rw [size, Int.toNat_natCast]
    exact ⟨small, le, right_.rear⟩

/-- The guard is released. -/
theorem release {rear : Int} {left : Nat} {result : Bool} (h : Sound inUse capacity s)
    (at_i : s.assignments[i]? = some (lhs, rhs, .turn rear left)) :
    Sound inUse capacity { s.setGuard rhs false with
      assignments := s.assignments.set i (lhs, rhs, .returned result) } := by
  obtain ⟨_, only, _⟩ := (h.guarded rhs).eq_holder at_i rfl
  have unlocked := (h.guarded rhs).unlocked at_i rfl rfl
  have idle := only.all_set (y := (lhs, rhs, .returned result)) fun _ => rfl
  refine h.assignment at_i rfl rfl rfl h.bounded ?_ (fun _ _ => .of_eq rfl)
    (.free (Function.update_self ..) idle unlocked) trivial
  intro q other
  rw [setGuard_indexGuards, Function.update_of_ne other]

/-- Every step of an assignment is paid for. -/
theorem step_assignment [Fintype ι] (h : Sound inUse capacity s) (small : ∀ q, capacity q < 2 ^ 31)
    (at_i : s.assignments[i]? = some (lhs, rhs, pc))
    (taken : s.assignmentStep moved lhs rhs pc = some (s', pc')) :
    Sound inUse capacity { s' with assignments := s.assignments.set i (lhs, rhs, pc') } ∧
      2 * s'.stored + pc'.togo (capacity rhs) < 2 * s.stored + pc.togo (capacity rhs) ∧
      s'.producers = s.producers ∧ s'.consumers = s.consumers := by
  obtain ⟨used, sane⟩ := h.assignments lhs rhs pc (List.mem_of_getElem? at_i)
  have left_ := h.bounded lhs
  have right_ := h.bounded rhs
  cases pc with
  | clear =>
      simp only [assignmentStep] at taken
      split_ifs at taken
      cases index : (s.queues lhs).dequeueIndex with
      | none =>
          simp only [index, Option.some.injEq, Prod.mk.injEq] at taken
          obtain ⟨rfl, rfl⟩ := taken
          exact ⟨h.move at_i rfl rfl trivial, by simp only [Assignment.togo]; omega, rfl, rfl⟩
      | some next =>
          obtain ⟨slot, queue⟩ := next
          simp only [index, Option.some.injEq, Prod.mk.injEq] at taken
          obtain ⟨rfl, rfl⟩ := taken
          obtain ⟨inside, bounded, guards, size⟩ := left_.dequeueIndex (small lhs) index
          have items := stored_put s lhs queue
          refine ⟨h.put_lhs at_i bounded (.of_eq guards) rfl rfl inside, ?_, rfl, rfl⟩
          simp only [Assignment.togo]
          omega
  | discard slot =>
      obtain ⟨item, queue, loaded, bounded, size, guards⟩ := left_.load sane moved
      simp only [assignmentStep, loaded, Option.some.injEq, Prod.mk.injEq] at taken
      obtain ⟨rfl, rfl⟩ := taken
      refine ⟨h.put_lhs at_i bounded (.of_set guards) rfl rfl trivial, ?_, rfl, rfl⟩
      rw [stored_put_eq size]
      simp only [Assignment.togo]
      omega
  | compare =>
      simp only [assignmentStep, left_.capacity_eq, right_.capacity_eq] at taken
      split_ifs at taken with larger
      · cases taken
        exact ⟨h.move at_i rfl rfl trivial, by simp only [Assignment.togo]; omega, rfl, rfl⟩
      · cases taken
        exact ⟨h.move at_i rfl rfl (Nat.le_of_not_lt larger), by simp only [Assignment.togo]; omega,
          rfl, rfl⟩
  | lock =>
      obtain ⟨n, le, size⟩ := right_.size
      simp only [assignmentStep] at taken
      split_ifs at taken with closed
      simp only [Option.some.injEq, Prod.mk.injEq] at taken
      obtain ⟨rfl, rfl⟩ := taken
      refine ⟨h.lock at_i (Bool.eq_false_of_not_eq_true closed), ?_, rfl, rfl⟩
      rw [size, Int.toNat_natCast]
      simp only [Assignment.togo, stored, setGuard_queues]
      omega
  | turn rear left =>
      cases left with
      | zero =>
          simp only [assignmentStep, Option.some.injEq, Prod.mk.injEq] at taken
          obtain ⟨rfl, rfl⟩ := taken
          refine ⟨h.release at_i, ?_, rfl, rfl⟩
          simp only [Assignment.togo, stored, setGuard_queues]
          omega
      | succ left =>
          obtain ⟨le, less, within⟩ := sane
          have inside := within.toSize_lt (by omega) (small rhs)
          obtain ⟨queue, locked, bounded, size, guards⟩ :=
            right_.lockItem ((h.guarded rhs).unlocked at_i rfl rfl) inside
          simp only [assignmentStep, locked, Option.some.injEq, Prod.mk.injEq] at taken
          obtain ⟨rfl, rfl⟩ := taken
          refine ⟨h.put_rhs at_i bounded rfl rfl ?_ ⟨le, less, within⟩, ?_, rfl, rfl⟩
          · intro before k flag
            rw [guards, List.getElem?_set] at flag
            split_ifs at flag with same
            · exact ⟨rear, rfl, same⟩
            · obtain ⟨_, none, _⟩ := before k flag
              cases none
          · rw [stored_put_eq size]
            simp only [Assignment.togo]
            omega
  | enqueue rear left =>
      obtain ⟨closed, only, items⟩ := (h.guarded rhs).eq_holder at_i rfl
      simp only [assignmentStep] at taken
      split_ifs at taken
      cases index : (s.queues lhs).enqueueIndex with
      | none =>
          simp only [index, Option.some.injEq, Prod.mk.injEq] at taken
          obtain ⟨rfl, rfl⟩ := taken
          exact ⟨h.move at_i rfl rfl sane, by simp only [Assignment.togo]; omega, rfl, rfl⟩
      | some next =>
          obtain ⟨slot, queue⟩ := next
          simp only [index, Option.some.injEq, Prod.mk.injEq] at taken
          obtain ⟨rfl, rfl⟩ := taken
          obtain ⟨inside, bounded, guards, size⟩ := left_.enqueueIndex (small lhs) index
          have items := stored_put s lhs queue
          refine ⟨h.put_lhs at_i bounded (.of_eq guards) rfl rfl ⟨sane, inside⟩, ?_, rfl, rfl⟩
          simp only [Assignment.togo]
          omega
  | store slot rear left =>
      obtain ⟨sane, inside⟩ := sane
      simp only [assignmentStep] at taken
      cases found : (s.queues rhs).itemContainer[toSize rear]? with
      | none => simp [found] at taken
      | some item =>
          obtain ⟨queue, stored, bounded, size, guards⟩ := left_.store inside item
          simp only [found, stored, Option.some.injEq, Prod.mk.injEq] at taken
          obtain ⟨rfl, rfl⟩ := taken
          refine ⟨h.put_lhs at_i bounded (.of_set guards) rfl rfl sane, ?_, rfl, rfl⟩
          rw [stored_put_eq size]
          simp only [Assignment.togo]
          omega
  | advance rear left =>
      obtain ⟨le, less, within⟩ := sane
      simp only [assignmentStep, Option.some.injEq, Prod.mk.injEq] at taken
      obtain ⟨rfl, rfl⟩ := taken
      refine ⟨h.put_rhs at_i right_.unlockItem rfl rfl ?_ ?_, ?_, rfl, rfl⟩
      · intro before k flag
        simp only [RingQueue.unlockItem, List.getElem?_set] at flag
        split_ifs at flag with same
        · cases flag
        · obtain ⟨slot, held, at_k⟩ := before k flag
          cases held
          exact absurd at_k same
      · rw [right_.capacity_eq]
        exact ⟨le, Nat.le_of_lt less, within.bump (small rhs)⟩
      · have size : ((s.queues rhs).unlockItem rear).size = (s.queues rhs).size := rfl
        rw [stored_put_eq size]
        simp only [Assignment.togo]
        omega
  | returned result => cases taken

theorem step_producer [Fintype ι] (h : Sound inUse capacity s) (small : ∀ q, capacity q < 2 ^ 31)
    {p : Nat} {pc pc' : Producer α} (at_p : s.producers[p]? = some (q, pc))
    (taken : s.producerStep q pc = some (s', pc')) :
    Sound inUse capacity { s' with producers := s.producers.set p (q, pc') } ∧
      2 * s'.stored + pc'.togo < 2 * s.stored + pc.togo ∧
      s'.assignments = s.assignments ∧ s'.consumers = s.consumers := by
  cases pc with
  | reserve data =>
      simp only [producerStep] at taken
      split_ifs at taken
      cases index : (s.queues q).enqueueIndex with
      | none =>
          simp only [index, Option.some.injEq, Prod.mk.injEq] at taken
          obtain ⟨rfl, rfl⟩ := taken
          exact ⟨h.access rfl rfl h.bounded (fun _ => .of_eq rfl) (h.stores_set p q _ nofun)
            h.consumers, by simp only [Producer.togo]; omega, rfl, rfl⟩
      | some next =>
          obtain ⟨slot, queue⟩ := next
          simp only [index, Option.some.injEq, Prod.mk.injEq] at taken
          obtain ⟨rfl, rfl⟩ := taken
          obtain ⟨inside, bounded, guards, size⟩ := (h.bounded q).enqueueIndex (small q) index
          have items := stored_put s q queue
          refine ⟨h.access rfl rfl (bounded_put h.bounded bounded) (released_put (.of_eq guards))
            (h.stores_set p q _ ?_) h.consumers, ?_, rfl, rfl⟩
          · rintro _ _ ⟨⟩
            exact inside
          · simp only [Producer.togo]
            omega
  | store data slot =>
      have inside := h.producers q data slot (List.mem_of_getElem? at_p)
      obtain ⟨queue, stored, bounded, size, guards⟩ := (h.bounded q).store inside data
      simp only [producerStep, stored, Option.some.injEq, Prod.mk.injEq] at taken
      obtain ⟨rfl, rfl⟩ := taken
      refine ⟨h.access rfl rfl (bounded_put h.bounded bounded) (released_put (.of_set guards))
        (h.stores_set p q _ nofun) h.consumers, ?_, rfl, rfl⟩
      rw [stored_put_eq size]
      simp only [Producer.togo]
      omega
  | returned result => cases taken

theorem step_consumer [Fintype ι] (h : Sound inUse capacity s) (small : ∀ q, capacity q < 2 ^ 31)
    {c : Nat} {pc pc' : Consumer α} (at_c : s.consumers[c]? = some (q, pc))
    (taken : s.consumerStep moved q pc = some (s', pc')) :
    Sound inUse capacity { s' with consumers := s.consumers.set c (q, pc') } ∧
      2 * s'.stored + pc'.togo < 2 * s.stored + pc.togo ∧
      s'.assignments = s.assignments ∧ s'.producers = s.producers := by
  cases pc with
  | reserve =>
      simp only [consumerStep] at taken
      split_ifs at taken
      cases index : (s.queues q).dequeueIndex with
      | none =>
          simp only [index, Option.some.injEq, Prod.mk.injEq] at taken
          obtain ⟨rfl, rfl⟩ := taken
          exact ⟨h.access rfl rfl h.bounded (fun _ => .of_eq rfl) h.producers
            (h.loads_set c q _ nofun), by simp only [Consumer.togo]; omega, rfl, rfl⟩
      | some next =>
          obtain ⟨slot, queue⟩ := next
          simp only [index, Option.some.injEq, Prod.mk.injEq] at taken
          obtain ⟨rfl, rfl⟩ := taken
          obtain ⟨inside, bounded, guards, size⟩ := (h.bounded q).dequeueIndex (small q) index
          have items := stored_put s q queue
          refine ⟨h.access rfl rfl (bounded_put h.bounded bounded) (released_put (.of_eq guards))
            h.producers (h.loads_set c q _ ?_), ?_, rfl, rfl⟩
          · rintro _ ⟨⟩
            exact inside
          · simp only [Consumer.togo]
            omega
  | load slot =>
      have inside := h.consumers q slot (List.mem_of_getElem? at_c)
      obtain ⟨item, queue, loaded, bounded, size, guards⟩ := (h.bounded q).load inside moved
      simp only [consumerStep, loaded, Option.some.injEq, Prod.mk.injEq] at taken
      obtain ⟨rfl, rfl⟩ := taken
      refine ⟨h.access rfl rfl (bounded_put h.bounded bounded) (released_put (.of_set guards))
        h.producers (h.loads_set c q _ nofun), ?_, rfl, rfl⟩
      rw [stored_put_eq size]
      simp only [Consumer.togo]
      omega
  | returned item => cases taken

/-- Every step keeps the invariant, and lowers the bound unless it begins a call. -/
theorem step [Fintype ι] (h : Sound inUse capacity s) (small : ∀ q, capacity q < 2 ^ 31)
    {a : QueuesAction ι α} (admitted : InUse inUse s a) (enabled : s.step moved a = some s') :
    Sound inUse capacity s' ∧ (Working s a → s'.togo capacity < s.togo capacity) := by
  cases a with
  | callAssign lhs rhs =>
      obtain rfl := Option.some.inj enabled
      exact ⟨h.callAssign admitted, False.elim⟩
  | callEnqueue q data =>
      obtain rfl := Option.some.inj enabled
      exact ⟨h.callEnqueue q data, False.elim⟩
  | callDequeue q =>
      obtain rfl := Option.some.inj enabled
      exact ⟨h.callDequeue q, False.elim⟩
  | assignment i =>
      simp only [Queues.step] at enabled
      cases at_i : s.assignments[i]? with
      | none => simp [at_i] at enabled
      | some call =>
          obtain ⟨lhs, rhs, pc⟩ := call
          simp only [at_i, Option.map_eq_some_iff] at enabled
          obtain ⟨⟨s', pc'⟩, taken, rfl⟩ := enabled
          obtain ⟨sound, less, producers, consumers⟩ := h.step_assignment small at_i taken
          refine ⟨sound, fun _ => ?_⟩
          have sum := Pool.sum_map_set (y := (lhs, rhs, pc'))
            (f := fun call : ι × ι × Assignment => call.2.2.togo (capacity call.2.1)) at_i
          simp only [togo, stored] at sum less ⊢
          rw [producers, consumers]
          omega
  | producer p =>
      simp only [Queues.step] at enabled
      cases at_p : s.producers[p]? with
      | none => simp [at_p] at enabled
      | some call =>
          obtain ⟨q, pc⟩ := call
          simp only [at_p, Option.map_eq_some_iff] at enabled
          obtain ⟨⟨s', pc'⟩, taken, rfl⟩ := enabled
          obtain ⟨sound, less, assignments, consumers⟩ := h.step_producer small at_p taken
          refine ⟨sound, fun _ => ?_⟩
          have sum := Pool.sum_map_set (y := (q, pc'))
            (f := fun call : ι × Producer α => call.2.togo) at_p
          simp only [togo, stored] at sum less ⊢
          rw [assignments, consumers]
          omega
  | consumer c =>
      simp only [Queues.step] at enabled
      cases at_c : s.consumers[c]? with
      | none => simp [at_c] at enabled
      | some call =>
          obtain ⟨q, pc⟩ := call
          simp only [at_c, Option.map_eq_some_iff] at enabled
          obtain ⟨⟨s', pc'⟩, taken, rfl⟩ := enabled
          obtain ⟨sound, less, assignments, producers⟩ := h.step_consumer small at_c taken
          refine ⟨sound, fun _ => ?_⟩
          have sum := Pool.sum_map_set (y := (q, pc'))
            (f := fun call : ι × Consumer α => call.2.togo) at_c
          simp only [togo, stored] at sum less ⊢
          rw [assignments, producers]
          omega

theorem run [Fintype ι] {actions : List (QueuesAction ι α)} (h : Sound inUse capacity s)
    (small : ∀ q, capacity q < 2 ^ 31) (run : Run (Queues.step moved) (InUse inUse) s actions s') :
    Sound inUse capacity s' :=
  run.invariant h fun _ _ _ sound admitted enabled => (sound.step small admitted enabled).1

/-- Without new calls a run is no longer than the bound. -/
theorem working_run [Fintype ι] {actions : List (QueuesAction ι α)} (h : Sound inUse capacity s)
    (small : ∀ q, capacity q < 2 ^ 31) (run : Run (Queues.step moved) Working s actions s') :
    Sound inUse capacity s' ∧ actions.length ≤ s.togo capacity := by
  have used : ∀ (u : Queues ι α) a, Working u a → InUse inUse u a := by
    intro u a working
    cases a with
    | callAssign => exact working.elim
    | _ => trivial
  refine ⟨h.run small (run.mono used), ?_⟩
  have length := run.length_le (togo capacity) h fun u a v sound working enabled => by
    obtain ⟨next, less⟩ := sound.step small (used u a working) enabled
    exact ⟨next, less working⟩
  omega

end Sound
end Queues
end Vee
