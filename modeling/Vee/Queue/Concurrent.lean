import Vee.Queue.Refinement

/-!
# The ring queue under concurrent use

Any number of producers and consumers on one queue, where the section under
`_index_guard` and the access to `_item_container` are separate steps. The item
guard is adopted without being locked, so nothing orders the accesses of calls
that were given the same slot. The `k`-th item is delivered to the `k`-th
dequeue exactly when these accesses happen in the order of the index sections;
in runs in which they do, every dequeue returns the item of its enqueue.
-/

namespace Vee

open Transition

variable {α : Type}

/-- Program points of `enqueue(data)`. -/
inductive Producer (α : Type) where
  | reserve (data : α)
  | store (data : α) (slot : Int)
  | returned (result : Bool)
  deriving DecidableEq, Repr

/-- Program points of `dequeue(out)`. The result is `out`, or nothing for false. -/
inductive Consumer (α : Type) where
  | reserve
  | load (slot : Int)
  | returned (item : Option α)
  deriving DecidableEq, Repr

/-- One queue with all calls on it, in order of creation, and two history
variables: the calls whose index section succeeded, in order. -/
structure Shared (α : Type) where
  queue : RingQueue α
  producers : List (Producer α) := []
  consumers : List (Consumer α) := []
  enqueued : List (Nat × α) := []
  dequeued : List Nat := []
  deriving DecidableEq, Repr

/-- Begin a call, or let a call take its next step. -/
inductive Access (α : Type) where
  | callEnqueue (data : α)
  | callDequeue
  | producer (p : Nat)
  | consumer (c : Nat)
  deriving DecidableEq, Repr

namespace Shared

def create [Inhabited α] (capacity : Nat) : Shared α where
  queue := .create capacity false

def step (moved : α → α) (s : Shared α) : Access α → Option (Shared α)
  | .callEnqueue data => some { s with producers := s.producers ++ [.reserve data] }
  | .callDequeue => some { s with consumers := s.consumers ++ [.reserve] }
  | .producer p =>
      match s.producers[p]? with
      | some (.reserve data) =>
          match s.queue.enqueueIndex with
          | none => some { s with producers := s.producers.set p (.returned false) }
          | some (slot, queue) => some { s with
              queue
              producers := s.producers.set p (.store data slot)
              enqueued := s.enqueued ++ [(p, data)] }
      | some (.store data slot) =>
          match s.queue.store slot data with
          | none => none
          | some queue => some { s with
              queue
              producers := s.producers.set p (.returned true) }
      | _ => none
  | .consumer c =>
      match s.consumers[c]? with
      | some .reserve =>
          match s.queue.dequeueIndex with
          | none => some { s with consumers := s.consumers.set c (.returned none) }
          | some (slot, queue) => some { s with
              queue
              consumers := s.consumers.set c (.load slot)
              dequeued := s.dequeued ++ [c] }
      | some (.load slot) =>
          match s.queue.load moved slot with
          | none => none
          | some (item, queue) => some { s with
              queue
              consumers := s.consumers.set c (.returned (some item)) }
      | _ => none

/-- The `k`-th dequeue returns the item of the `k`-th enqueue, and no access
leaves the container. -/
structure Delivers (s : Shared α) : Prop where
  paired : s.dequeued.length ≤ s.enqueued.length
  item : ∀ (k c : Nat) item, s.dequeued[k]? = some c →
    s.consumers[c]? = some (.returned (some item)) → ∃ p, s.enqueued[k]? = some (p, item)
  store : ∀ data slot, Producer.store data slot ∈ s.producers →
    toSize slot < s.queue.itemContainer.length
  load : ∀ slot, Consumer.load slot ∈ s.consumers →
    toSize slot < s.queue.itemContainer.length

/-- The `k`-th enqueue has returned. -/
def given (s : Shared α) (k : Nat) : Bool :=
  s.enqueued[k]?.any fun (p, _) => s.producers[p]?.any (· matches .returned true)

/-- The `k`-th dequeue has returned. -/
def taken (s : Shared α) (k : Nat) : Bool :=
  s.dequeued[k]?.any fun c => s.consumers[c]?.any (· matches .returned (some _))

end Shared

/-- A producer stores its item only after the dequeue of the item that had the
slot before, a consumer loads its item only after the enqueue of it, and no
index section overflows an int. -/
def InTurn (s : Shared α) : Access α → Prop
  | .producer p =>
      (s.producers[p]?.any (· matches .reserve _) → s.queue.isFull = false →
        s.queue.rear + 1 < 2 ^ 31 ∧ s.queue.size + 1 < 2 ^ 31) ∧
      ∀ k < s.enqueued.length, s.enqueued[k]?.map (·.1) = some p → s.queue.capacity ≤ k →
        s.taken (k - s.queue.capacity)
  | .consumer c =>
      (s.consumers[c]?.any (· matches .reserve) → s.queue.size ≠ 0 →
        s.queue.front + 1 < 2 ^ 31) ∧
      ∀ k < s.dequeued.length, s.dequeued[k]? = some c → s.given k
  | _ => True

instance (s : Shared α) (a : Access α) : Decidable (InTurn s a) := by
  cases a <;> simp only [InTurn] <;> infer_instance

namespace Shared

variable {s t : Shared α} {capacity k p c : Nat} {moved : α → α}

theorem given_iff : s.given k = true ↔
    ∃ p item, s.enqueued[k]? = some (p, item) ∧ s.producers[p]? = some (.returned true) := by
  simp only [given]
  grind

theorem taken_iff : s.taken k = true ↔
    ∃ c item, s.dequeued[k]? = some c ∧ s.consumers[c]? = some (.returned (some item)) := by
  simp only [taken]
  grind

/-- The queue after `enq` and `deq` successful index sections. -/
structure Tickets (q : RingQueue α) (capacity enq deq : Nat) : Prop where
  positive : 0 < capacity
  capacity_eq : q.capacity = capacity
  mode_eq : q.overwriteMode = false
  container_length : q.itemContainer.length = capacity
  deq_le : deq ≤ enq
  enq_le : enq ≤ deq + capacity
  rear_eq : q.rear = (enq % capacity : Nat)
  front_eq : q.front = (deq % capacity : Nat)
  size_eq : q.size = (enq - deq : Nat)
  slot_lt : ∀ k ≤ enq, k % capacity < 2 ^ 31
  size_lt : enq - deq < 2 ^ 31

/-- The `k`-th successful enqueue was given the slot `k % capacity`. -/
structure Enqueues (producers : List (Producer α)) (enqueued : List (Nat × α))
    (capacity : Nat) : Prop where
  located : ∀ (k p : Nat) (item : α), enqueued[k]? = some (p, item) →
    producers[p]? = some (.store item (k % capacity : Nat)) ∨
      producers[p]? = some (.returned true)
  ticket : ∀ (p : Nat) item slot, producers[p]? = some (.store item slot) →
    ∃ k : Nat, enqueued[k]? = some (p, item)
  once : ∀ (j k p : Nat) (x y : α), enqueued[j]? = some (p, x) → enqueued[k]? = some (p, y) →
    j = k

/-- The `k`-th successful dequeue was given the slot `k % capacity`, and returns
the item of the `k`-th enqueue. -/
structure Dequeues (consumers : List (Consumer α)) (dequeued : List Nat)
    (enqueued : List (Nat × α)) (capacity : Nat) : Prop where
  located : ∀ k c : Nat, dequeued[k]? = some c →
    consumers[c]? = some (.load (k % capacity : Nat)) ∨
      ∃ p item, enqueued[k]? = some (p, item) ∧ consumers[c]? = some (.returned (some item))
  ticket : ∀ (c : Nat) slot, consumers[c]? = some (.load slot) →
    ∃ k : Nat, dequeued[k]? = some c
  once : ∀ j k c : Nat, dequeued[j]? = some c → dequeued[k]? = some c → j = k

namespace Enqueues

variable {producers : List (Producer α)} {enqueued : List (Nat × α)} {item : α} {slot : Int}

theorem call (h : Enqueues producers enqueued capacity) :
    Enqueues (producers ++ [.reserve item]) enqueued capacity := by
  refine ⟨?_, ?_, h.once⟩
  · intro k p x at_k
    have placed := h.located k p x at_k
    grind
  · intro p x slot at_p
    have known := h.ticket p x slot
    grind

theorem refuse (h : Enqueues producers enqueued capacity)
    (at_p : producers[p]? = some (.reserve item)) :
    Enqueues (producers.set p (.returned false)) enqueued capacity := by
  refine ⟨?_, ?_, h.once⟩
  · intro k p' x at_k
    have placed := h.located k p' x at_k
    grind
  · intro p' x slot at_p'
    have known := h.ticket p' x slot
    grind

/-- A call that reserves has no ticket yet. -/
theorem fresh (h : Enqueues producers enqueued capacity)
    (at_p : producers[p]? = some (.reserve item)) (k : Nat) (x : α) :
    enqueued[k]? ≠ some (p, x) := by
  intro at_k
  have placed := h.located k p x at_k
  grind

/-- It gets the next one. -/
theorem reserve (h : Enqueues producers enqueued capacity)
    (at_p : producers[p]? = some (.reserve item)) :
    Enqueues (producers.set p (.store item (enqueued.length % capacity : Nat)))
      (enqueued ++ [(p, item)]) capacity := by
  have fresh := h.fresh at_p
  refine ⟨?_, ?_, ?_⟩
  · intro k p' x at_k
    have placed := h.located k p' x
    have other := fresh k x
    grind
  · intro p' x slot at_p'
    by_cases same : p = p'
    · refine ⟨enqueued.length, ?_⟩
      grind
    · rw [List.getElem?_set_ne same] at at_p'
      obtain ⟨k, at_k⟩ := h.ticket p' x slot at_p'
      refine ⟨k, ?_⟩
      grind
  · intro j k p' x y at_j at_k
    have known := h.once j k p' x y
    have other := fresh j x
    have other' := fresh k y
    grind

theorem stored (h : Enqueues producers enqueued capacity)
    (at_p : producers[p]? = some (.store item slot)) :
    Enqueues (producers.set p (.returned true)) enqueued capacity := by
  refine ⟨?_, ?_, h.once⟩
  · intro k p' x at_k
    have placed := h.located k p' x at_k
    grind
  · intro p' x slot at_p'
    have known := h.ticket p' x slot
    grind

/-- The slot of a call that is about to store is that of its ticket. -/
theorem slot_eq (h : Enqueues producers enqueued capacity)
    (at_p : producers[p]? = some (.store item slot)) :
    ∃ k : Nat, enqueued[k]? = some (p, item) ∧ slot = (k % capacity : Nat) := by
  obtain ⟨k, at_k⟩ := h.ticket p item slot at_p
  have placed := h.located k p item at_k
  refine ⟨k, at_k, ?_⟩
  grind

end Enqueues

namespace Dequeues

variable {consumers : List (Consumer α)} {dequeued : List Nat} {enqueued : List (Nat × α)}
variable {item : α} {slot : Int}

theorem call (h : Dequeues consumers dequeued enqueued capacity) :
    Dequeues (consumers ++ [.reserve]) dequeued enqueued capacity := by
  refine ⟨?_, ?_, h.once⟩
  · intro k c at_k
    have placed := h.located k c at_k
    grind
  · intro c slot at_c
    have known := h.ticket c slot
    grind

theorem refuse (h : Dequeues consumers dequeued enqueued capacity)
    (at_c : consumers[c]? = some .reserve) :
    Dequeues (consumers.set c (.returned none)) dequeued enqueued capacity := by
  refine ⟨?_, ?_, h.once⟩
  · intro k c' at_k
    have placed := h.located k c' at_k
    grind
  · intro c' slot at_c'
    have known := h.ticket c' slot
    grind

theorem fresh (h : Dequeues consumers dequeued enqueued capacity)
    (at_c : consumers[c]? = some .reserve) (k : Nat) : dequeued[k]? ≠ some c := by
  intro at_k
  have placed := h.located k c at_k
  grind

theorem reserve (h : Dequeues consumers dequeued enqueued capacity)
    (at_c : consumers[c]? = some .reserve) :
    Dequeues (consumers.set c (.load (dequeued.length % capacity : Nat)))
      (dequeued ++ [c]) enqueued capacity := by
  have fresh := h.fresh at_c
  refine ⟨?_, ?_, ?_⟩
  · intro k c' at_k
    have placed := h.located k c'
    have other := fresh k
    grind
  · intro c' slot at_c'
    by_cases same : c = c'
    · refine ⟨dequeued.length, ?_⟩
      grind
    · rw [List.getElem?_set_ne same] at at_c'
      obtain ⟨k, at_k⟩ := h.ticket c' slot at_c'
      refine ⟨k, ?_⟩
      grind
  · intro j k c' at_j at_k
    have known := h.once j k c'
    have other := fresh j
    have other' := fresh k
    grind

/-- A call that loads the item of its ticket's enqueue returns it. -/
theorem loaded (h : Dequeues consumers dequeued enqueued capacity)
    (at_k : dequeued[k]? = some c) (at_c : consumers[c]? = some (.load slot))
    (given : enqueued[k]? = some (p, item)) :
    Dequeues (consumers.set c (.returned (some item))) dequeued enqueued capacity := by
  refine ⟨?_, ?_, h.once⟩
  · intro j c' at_j
    have placed := h.located j c' at_j
    have same := h.once j k c
    grind
  · intro c' slot at_c'
    have known := h.ticket c' slot
    grind

theorem slot_eq (h : Dequeues consumers dequeued enqueued capacity)
    (at_c : consumers[c]? = some (.load slot)) :
    ∃ k : Nat, dequeued[k]? = some c ∧ slot = (k % capacity : Nat) := by
  obtain ⟨k, at_k⟩ := h.ticket c slot at_c
  have placed := h.located k c at_k
  refine ⟨k, at_k, ?_⟩
  grind

/-- A new enqueue changes nothing for the dequeues. -/
theorem enqueue (h : Dequeues consumers dequeued enqueued capacity) (entry : Nat × α) :
    Dequeues consumers dequeued (enqueued ++ [entry]) capacity := by
  refine ⟨?_, h.ticket, h.once⟩
  intro k c at_k
  obtain loading | ⟨p, item, given, returned⟩ := h.located k c at_k
  · exact .inl loading
  · refine .inr ⟨p, item, ?_, returned⟩
    rw [List.getElem?_append_left (List.getElem?_eq_some_iff.mp given).1]
    exact given

end Dequeues

/-- The accesses at each slot have been made in the order of the tickets, and an
item that has been stored but not loaded is in its slot. -/
structure Ordered (s : Shared α) (capacity : Nat) : Prop where
  given : ∀ k, s.given k → capacity ≤ k → s.taken (k - capacity)
  taken : ∀ k, s.taken k → s.given k
  content : ∀ (k p : Nat) (item : α), s.enqueued[k]? = some (p, item) → s.given k →
    s.taken k = false → s.queue.itemContainer[k % capacity]? = some item

/-- Two tickets for one slot are at least a lap apart. -/
theorem lap_le {j k : Nat} (before : j < k) (slot : j % capacity = k % capacity) :
    j + capacity ≤ k := by
  by_contra near
  have ne := Circular.position_ne 0 before (show k < j + capacity by omega)
  rw [Nat.zero_add, Nat.zero_add] at ne
  exact ne slot

/-- When the last item of a slot has been taken, all earlier ones have been. -/
theorem Ordered.taken_of_served (h : Ordered s capacity) {j k : Nat} (positive : 0 < capacity)
    (served : capacity ≤ k → s.taken (k - capacity)) (before : j < k)
    (slot : j % capacity = k % capacity) : s.taken j := by
  induction k using Nat.strongRecOn with
  | ind k ih =>
      have apart := lap_le before slot
      have last := served (by omega)
      have slot' : (k - capacity) % capacity = k % capacity := by
        conv_rhs => rw [show k = k - capacity + capacity by omega, Nat.add_mod_right]
      obtain earlier | rfl := Nat.lt_or_eq_of_le (show j ≤ k - capacity by omega)
      · apply ih (k - capacity) (by omega) _ earlier (slot.trans slot'.symm)
        exact h.given _ (h.taken _ last)
      · exact last

/-- So earlier tickets for the slot of a stored item have been served. -/
theorem Ordered.taken_of_before (h : Ordered s capacity) {j k : Nat} (positive : 0 < capacity)
    (given : s.given k) (before : j < k) (slot : j % capacity = k % capacity) : s.taken j :=
  h.taken_of_served positive (h.given k given) before slot

namespace Tickets

variable {q q' : RingQueue α} {enq deq : Nat} {slot : Int}

theorem create [Inhabited α] (positive : 0 < capacity) :
    Tickets (RingQueue.create (α := α) capacity false) capacity 0 0 where
  positive := positive
  capacity_eq := rfl
  mode_eq := rfl
  container_length := List.length_replicate
  deq_le := Nat.le_refl 0
  enq_le := Nat.zero_le _
  rear_eq := by simp [RingQueue.create]
  front_eq := by simp [RingQueue.create]
  size_eq := rfl
  slot_lt := by
    intro k start
    rw [Nat.le_zero.mp start, Nat.zero_mod]
    decide
  size_lt := by decide

theorem isFull_iff (h : Tickets q capacity enq deq) :
    q.isFull = true ↔ enq - deq = capacity := by
  have := h.size_lt
  simp only [RingQueue.isFull]
  rw [decide_eq_true_iff, h.size_eq, h.capacity_eq, toSize_natCast (by omega)]

/-- The index section of an enqueue gives out the next ticket. -/
theorem enqueueIndex (h : Tickets q capacity enq deq)
    (taken : q.enqueueIndex = some (slot, q'))
    (fits : q.isFull = false → q.rear + 1 < 2 ^ 31 ∧ q.size + 1 < 2 ^ 31) :
    slot = (enq % capacity : Nat) ∧ q'.itemContainer = q.itemContainer ∧
      Tickets q' capacity (enq + 1) deq := by
  have deq_le := h.deq_le
  have enq_le := h.enq_le
  cases full : q.isFull with
  | true => simp [RingQueue.enqueueIndex, full, h.mode_eq] at taken
  | false =>
      have room : enq - deq ≠ capacity := by
        intro eq
        rw [h.isFull_iff.mpr eq] at full
        cases full
      obtain ⟨rear_fits, size_fits⟩ := fits full
      rw [h.rear_eq] at rear_fits
      rw [h.size_eq] at size_fits
      simp only [RingQueue.enqueueIndex, full, Bool.false_eq_true, if_false, Option.some.injEq,
        Prod.mk.injEq] at taken
      obtain ⟨rfl, rfl⟩ := taken
      have small := Nat.mod_le (enq % capacity + 1) capacity
      rw [Nat.mod_add_mod] at small
      refine ⟨h.rear_eq, rfl, h.positive, h.capacity_eq, h.mode_eq, h.container_length,
        by omega, by omega, ?_, h.front_eq, ?_, ?_, by omega⟩
      · dsimp only
        rw [h.rear_eq, h.capacity_eq, RingQueue.bump_natCast (by omega), Nat.mod_add_mod]
      · dsimp only
        rw [h.size_eq, toInt32_succ (by omega), show enq + 1 - deq = enq - deq + 1 by omega]
      · intro k le
        obtain before | rfl := Nat.lt_or_eq_of_le le
        · exact h.slot_lt k (by omega)
        · omega

/-- The index section of a dequeue gives out the next ticket, if there is an
enqueue for it. -/
theorem dequeueIndex (h : Tickets q capacity enq deq)
    (taken : q.dequeueIndex = some (slot, q')) (fits : q.size ≠ 0 → q.front + 1 < 2 ^ 31) :
    slot = (deq % capacity : Nat) ∧ q'.itemContainer = q.itemContainer ∧ deq < enq ∧
      Tickets q' capacity enq (deq + 1) := by
  have deq_le := h.deq_le
  have enq_le := h.enq_le
  have size_lt := h.size_lt
  by_cases empty : q.size = 0
  · simp [RingQueue.dequeueIndex, empty] at taken
  · have front_fits := fits empty
    rw [h.front_eq] at front_fits
    rw [h.size_eq] at empty
    simp only [RingQueue.dequeueIndex, h.size_eq, if_neg empty, Option.some.injEq,
      Prod.mk.injEq] at taken
    obtain ⟨rfl, rfl⟩ := taken
    have small := Nat.mod_le (deq % capacity + 1) capacity
    rw [Nat.mod_add_mod] at small
    refine ⟨h.front_eq, rfl, by omega, h.positive, h.capacity_eq, h.mode_eq, h.container_length,
      by omega, by omega, h.rear_eq, ?_, ?_, h.slot_lt, by omega⟩
    · dsimp only
      rw [h.front_eq, h.capacity_eq, RingQueue.bump_natCast (by omega), Nat.mod_add_mod]
    · dsimp only
      rw [show enq - deq = enq - (deq + 1) + 1 by omega, toInt32_pred (by omega)]

/-- The accesses leave the indices alone. -/
theorem store {item : α} (h : Tickets q capacity enq deq) (stored : q.store slot item = some q') :
    toSize slot < capacity ∧ q'.itemContainer = q.itemContainer.set (toSize slot) item ∧
      Tickets q' capacity enq deq := by
  simp only [RingQueue.store] at stored
  split at stored
  · rename_i inside
    obtain rfl := Option.some.inj stored
    rw [h.container_length] at inside
    refine ⟨inside, rfl, { h with container_length := ?_ }⟩
    rw [List.length_set, h.container_length]
  · cases stored

theorem load {item : α} (h : Tickets q capacity enq deq)
    (loaded : q.load moved slot = some (item, q')) :
    q.itemContainer[toSize slot]? = some item ∧
      q'.itemContainer = q.itemContainer.set (toSize slot) (moved item) ∧
      Tickets q' capacity enq deq := by
  simp only [RingQueue.load] at loaded
  split at loaded
  · cases loaded
  · rename_i found
    obtain ⟨rfl, rfl⟩ := Prod.mk.inj (Option.some.inj loaded)
    refine ⟨found, rfl, { h with container_length := ?_ }⟩
    rw [List.length_set, h.container_length]

end Tickets

/-- What a step of a producer is. -/
theorem step_producer (h : s.step moved (.producer p) = some t) :
    (∃ item, s.producers[p]? = some (.reserve item) ∧
      t = { s with producers := s.producers.set p (.returned false) }) ∨
    (∃ item slot queue, s.producers[p]? = some (.reserve item) ∧
      s.queue.enqueueIndex = some (slot, queue) ∧
      t = { s with
        queue
        producers := s.producers.set p (.store item slot)
        enqueued := s.enqueued ++ [(p, item)] }) ∨
    (∃ item slot queue, s.producers[p]? = some (.store item slot) ∧
      s.queue.store slot item = some queue ∧
      t = { s with queue, producers := s.producers.set p (.returned true) }) := by
  simp only [step] at h
  split at h
  · split at h <;> obtain rfl := Option.some.inj h
    · exact .inl ⟨_, ‹_›, rfl⟩
    · exact .inr (.inl ⟨_, _, _, ‹_›, ‹_›, rfl⟩)
  · split at h
    · cases h
    · obtain rfl := Option.some.inj h
      exact .inr (.inr ⟨_, _, _, ‹_›, ‹_›, rfl⟩)
  · cases h

theorem step_consumer (h : s.step moved (.consumer c) = some t) :
    (s.consumers[c]? = some .reserve ∧
      t = { s with consumers := s.consumers.set c (.returned none) }) ∨
    (∃ slot queue, s.consumers[c]? = some .reserve ∧
      s.queue.dequeueIndex = some (slot, queue) ∧
      t = { s with
        queue
        consumers := s.consumers.set c (.load slot)
        dequeued := s.dequeued ++ [c] }) ∨
    (∃ slot item queue, s.consumers[c]? = some (.load slot) ∧
      s.queue.load moved slot = some (item, queue) ∧
      t = { s with queue, consumers := s.consumers.set c (.returned (some item)) }) := by
  simp only [step] at h
  split at h
  · split at h <;> obtain rfl := Option.some.inj h
    · exact .inl ⟨‹_›, rfl⟩
    · exact .inr (.inl ⟨_, _, ‹_›, ‹_›, rfl⟩)
  · split at h
    · cases h
    · obtain rfl := Option.some.inj h
      exact .inr (.inr ⟨_, _, _, ‹_›, ‹_›, rfl⟩)
  · cases h

/-- The order only depends on which calls have returned and on the slots of the
items in the container. -/
theorem Ordered.congr (h : Ordered s capacity) (given : ∀ k, t.given k = s.given k)
    (taken : ∀ k, t.taken k = s.taken k)
    (content : ∀ (k p : Nat) (item : α), t.enqueued[k]? = some (p, item) → s.given k →
      s.enqueued[k]? = some (p, item))
    (container : t.queue.itemContainer = s.queue.itemContainer) : Ordered t capacity := by
  refine ⟨?_, ?_, ?_⟩
  · intro k
    rw [given, taken]
    exact h.given k
  · intro k
    rw [given, taken]
    exact h.taken k
  · intro k p item at_k
    rw [given, taken, container]
    intro stored left
    exact h.content k p item (content k p item at_k stored) stored left

/-- The invariant of concurrent use in turn. -/
structure Invariant (s : Shared α) (capacity : Nat) : Prop where
  tickets : Tickets s.queue capacity s.enqueued.length s.dequeued.length
  enqueues : Enqueues s.producers s.enqueued capacity
  dequeues : Dequeues s.consumers s.dequeued s.enqueued capacity
  ordered : Ordered s capacity

namespace Invariant

theorem create [Inhabited α] (positive : 0 < capacity) :
    Invariant (Shared.create (α := α) capacity) capacity where
  tickets := .create positive
  enqueues := by constructor <;> simp [Shared.create]
  dequeues := by constructor <;> simp [Shared.create]
  ordered := by constructor <;> simp [Shared.create, Shared.given, Shared.taken]

theorem callEnqueue (h : Invariant s capacity) (item : α) :
    Invariant { s with producers := s.producers ++ [.reserve item] } capacity := by
  refine ⟨h.tickets, h.enqueues.call, h.dequeues, h.ordered.congr ?_ ?_ ?_ rfl⟩
  · intro k
    rw [Bool.eq_iff_iff, given_iff, given_iff]
    grind
  · exact fun k => rfl
  · exact fun k p item at_k _ => at_k

theorem callDequeue (h : Invariant s capacity) :
    Invariant { s with consumers := s.consumers ++ [.reserve] } capacity := by
  refine ⟨h.tickets, h.enqueues, h.dequeues.call, h.ordered.congr ?_ ?_ ?_ rfl⟩
  · exact fun k => rfl
  · intro k
    rw [Bool.eq_iff_iff, taken_iff, taken_iff]
    grind
  · exact fun k p item at_k _ => at_k

/-- A refused enqueue gets no ticket. -/
theorem refuseEnqueue (h : Invariant s capacity) {item : α}
    (at_p : s.producers[p]? = some (.reserve item)) :
    Invariant { s with producers := s.producers.set p (.returned false) } capacity := by
  refine ⟨h.tickets, h.enqueues.refuse at_p, h.dequeues, h.ordered.congr ?_ ?_ ?_ rfl⟩
  · intro k
    rw [Bool.eq_iff_iff, given_iff, given_iff]
    grind
  · exact fun k => rfl
  · exact fun k p item at_k _ => at_k

theorem refuseDequeue (h : Invariant s capacity) (at_c : s.consumers[c]? = some .reserve) :
    Invariant { s with consumers := s.consumers.set c (.returned none) } capacity := by
  refine ⟨h.tickets, h.enqueues, h.dequeues.refuse at_c, h.ordered.congr ?_ ?_ ?_ rfl⟩
  · exact fun k => rfl
  · intro k
    rw [Bool.eq_iff_iff, taken_iff, taken_iff]
    grind
  · exact fun k p item at_k _ => at_k

/-- An enqueue that has only been given its slot has not returned. -/
theorem given_reserve (h : Invariant s capacity) {item : α} (slot : Int) (queue : RingQueue α)
    (at_p : s.producers[p]? = some (.reserve item)) (k : Nat) :
    Shared.given { s with
      queue
      producers := s.producers.set p (.store item slot)
      enqueued := s.enqueued ++ [(p, item)] } k = s.given k := by
  have fresh := h.enqueues.fresh at_p
  rw [Bool.eq_iff_iff, given_iff, given_iff]
  grind

theorem taken_reserve (h : Invariant s capacity) (slot : Int) (queue : RingQueue α)
    (at_c : s.consumers[c]? = some .reserve) (k : Nat) :
    Shared.taken { s with
      queue
      consumers := s.consumers.set c (.load slot)
      dequeued := s.dequeued ++ [c] } k = s.taken k := by
  have fresh := h.dequeues.fresh at_c k
  rw [Bool.eq_iff_iff, taken_iff, taken_iff]
  obtain old | new := Nat.lt_or_ge k s.dequeued.length
  · rw [List.getElem?_append_left old]
    grind
  · rw [List.getElem?_append_right new, List.getElem?_eq_none new]
    grind

theorem reserveEnqueue (h : Invariant s capacity) {item : α} {slot : Int} {queue : RingQueue α}
    (at_p : s.producers[p]? = some (.reserve item))
    (reserved : s.queue.enqueueIndex = some (slot, queue))
    (fits : s.queue.isFull = false → s.queue.rear + 1 < 2 ^ 31 ∧ s.queue.size + 1 < 2 ^ 31) :
    Invariant { s with
      queue
      producers := s.producers.set p (.store item slot)
      enqueued := s.enqueued ++ [(p, item)] } capacity := by
  have given := h.given_reserve slot queue at_p
  obtain ⟨rfl, container, tickets⟩ := h.tickets.enqueueIndex reserved fits
  refine ⟨?_, h.enqueues.reserve at_p, h.dequeues.enqueue _, h.ordered.congr given ?_ ?_ container⟩
  · rw [List.length_append, List.length_singleton]
    exact tickets
  · exact fun k => rfl
  · intro k p' x at_k stored
    obtain ⟨_, _, at_k', _⟩ := given_iff.mp stored
    have bound := (List.getElem?_eq_some_iff.mp at_k').1
    rwa [List.getElem?_append_left bound] at at_k

theorem reserveDequeue (h : Invariant s capacity) {slot : Int} {queue : RingQueue α}
    (at_c : s.consumers[c]? = some .reserve)
    (reserved : s.queue.dequeueIndex = some (slot, queue))
    (fits : s.queue.size ≠ 0 → s.queue.front + 1 < 2 ^ 31) :
    Invariant { s with
      queue
      consumers := s.consumers.set c (.load slot)
      dequeued := s.dequeued ++ [c] } capacity := by
  have taken := h.taken_reserve slot queue at_c
  obtain ⟨rfl, container, _, tickets⟩ := h.tickets.dequeueIndex reserved fits
  refine ⟨?_, h.enqueues, h.dequeues.reserve at_c, h.ordered.congr ?_ taken ?_ container⟩
  · rw [List.length_append, List.length_singleton]
    exact tickets
  · exact fun k => rfl
  · exact fun k p item at_k _ => at_k

/-- Returning from an enqueue adds its ticket to the stored ones. -/
theorem given_store (h : Invariant s capacity) {item : α} {slot : Int} (queue : RingQueue α)
    (at_p : s.producers[p]? = some (.store item slot)) (at_k : s.enqueued[k]? = some (p, item))
    (j : Nat) :
    Shared.given { s with queue, producers := s.producers.set p (.returned true) } j = true ↔
      s.given j = true ∨ j = k := by
  have once := fun x => h.enqueues.once j k p x item
  rw [given_iff, given_iff]
  grind

theorem taken_load (h : Invariant s capacity) (item : α) {slot : Int} (queue : RingQueue α)
    (at_c : s.consumers[c]? = some (.load slot)) (at_k : s.dequeued[k]? = some c) (j : Nat) :
    Shared.taken { s with queue, consumers := s.consumers.set c (.returned (some item)) } j =
        true ↔ s.taken j = true ∨ j = k := by
  have once := h.dequeues.once j k c
  rw [taken_iff, taken_iff]
  grind

/-- The slot of a ticket as an index of the container. -/
theorem toSize_slot (h : Invariant s capacity) (before : k < s.enqueued.length) :
    toSize (k % capacity : Nat) = k % capacity := by
  have bound := h.tickets.slot_lt k (by omega)
  exact toSize_natCast (by omega)

/-- A store in turn fills the slot of its ticket and touches no other item. -/
theorem store (h : Invariant s capacity) {item : α} {slot : Int} {queue : RingQueue α}
    (at_p : s.producers[p]? = some (.store item slot))
    (stored : s.queue.store slot item = some queue)
    (inTurn : ∀ k : Nat, s.enqueued[k]?.map (·.1) = some p → capacity ≤ k →
      s.taken (k - capacity)) :
    Invariant { s with queue, producers := s.producers.set p (.returned true) } capacity := by
  obtain ⟨k, at_k, slot_eq⟩ := h.enqueues.slot_eq at_p
  obtain ⟨inside, container, tickets⟩ := h.tickets.store stored
  have given := h.given_store queue at_p at_k
  have notGiven : ¬ s.given k = true := by
    rw [given_iff]
    rintro ⟨p', x, at_k', returned⟩
    grind
  have served : capacity ≤ k → s.taken (k - capacity) = true :=
    inTurn k (by rw [at_k, Option.map_some])
  have positive := h.tickets.positive
  have before : k < s.enqueued.length := (List.getElem?_eq_some_iff.mp at_k).1
  have notTaken : ¬ s.taken k = true := fun taken => notGiven (h.ordered.taken k taken)
  rw [slot_eq, h.toSize_slot before] at container inside
  refine ⟨tickets, h.enqueues.stored at_p, h.dequeues, ?_, ?_, ?_⟩
  · intro j
    rw [given]
    rintro (old | rfl)
    · exact h.ordered.given j old
    · exact served
  · intro j taken
    rw [given]
    exact .inl (h.ordered.taken j taken)
  · intro j p' x at_j
    rw [given]
    rintro (old | rfl) left
    · -- an item that waits in the same slot belongs to an earlier or a later lap
      have apart : k % capacity ≠ j % capacity := by
        intro same
        obtain earlier | rfl | later := Nat.lt_trichotomy j k
        · have taken := h.ordered.taken_of_served positive served earlier same.symm
          exact absurd taken (by rw [show s.taken j = false from left]; decide)
        · exact notGiven old
        · exact notTaken (h.ordered.taken_of_before positive old later same)
      dsimp only
      rw [container, List.getElem?_set_ne apart]
      exact h.ordered.content j p' x at_j old left
    · have same : x = item := by grind
      dsimp only
      rw [container, List.getElem?_set_self (by rw [h.tickets.container_length]; exact inside),
        same]

/-- A load in turn finds the item of its ticket's enqueue. -/
theorem load (h : Invariant s capacity) {item : α} {slot : Int} {queue : RingQueue α}
    (at_c : s.consumers[c]? = some (.load slot))
    (loaded : s.queue.load moved slot = some (item, queue))
    (inTurn : ∀ k : Nat, s.dequeued[k]? = some c → s.given k) :
    Invariant { s with queue, consumers := s.consumers.set c (.returned (some item)) }
      capacity := by
  obtain ⟨k, at_k, slot_eq⟩ := h.dequeues.slot_eq at_c
  obtain ⟨found, container, tickets⟩ := h.tickets.load loaded
  have taken := h.taken_load item queue at_c at_k
  have given : s.given k = true := inTurn k at_k
  obtain ⟨p, x, at_k', _⟩ := given_iff.mp given
  have positive := h.tickets.positive
  have notTaken : ¬ s.taken k = true := by
    rw [taken_iff]
    rintro ⟨c', y, at_c', returned⟩
    grind
  rw [slot_eq, h.toSize_slot (List.getElem?_eq_some_iff.mp at_k').1] at container found
  have stored := h.ordered.content k p x at_k' given (Bool.eq_false_iff.mpr notTaken)
  obtain rfl : x = item := Option.some.inj (stored.symm.trans found)
  refine ⟨tickets, h.enqueues, h.dequeues.loaded at_k at_c at_k', ?_, ?_, ?_⟩
  · intro j old lap
    rw [taken]
    exact .inl (h.ordered.given j old lap)
  · intro j
    rw [taken]
    rintro (old | rfl)
    · exact h.ordered.taken j old
    · exact given
  · intro j p' y at_j old left
    rw [← Bool.not_eq_true, taken, not_or, Bool.not_eq_true] at left
    obtain ⟨left, other⟩ := left
    have apart : k % capacity ≠ j % capacity := by
      intro same
      obtain earlier | rfl | later := Nat.lt_trichotomy j k
      · have served := h.ordered.taken_of_before positive given earlier same.symm
        rw [served] at left
        cases left
      · exact other rfl
      · exact notTaken (h.ordered.taken_of_before positive old later same)
    dsimp only
    rw [container, List.getElem?_set_ne apart]
    exact h.ordered.content j p' y at_j old left

/-- Every step in turn keeps the invariant. -/
theorem step (h : Invariant s capacity) {a : Access α} (inTurn : InTurn s a)
    (performed : s.step moved a = some t) : Invariant t capacity := by
  cases a with
  | callEnqueue item =>
      obtain rfl := Option.some.inj performed
      exact h.callEnqueue item
  | callDequeue =>
      obtain rfl := Option.some.inj performed
      exact h.callDequeue
  | producer p =>
      obtain ⟨fits, order⟩ := inTurn
      obtain ⟨item, at_p, rfl⟩ | ⟨item, slot, queue, at_p, reserved, rfl⟩ |
        ⟨item, slot, queue, at_p, stored, rfl⟩ := step_producer performed
      · exact h.refuseEnqueue at_p
      · exact h.reserveEnqueue at_p reserved (fits (by rw [at_p]; rfl))
      · apply h.store at_p stored
        intro k at_k lap
        rw [← h.tickets.capacity_eq] at lap ⊢
        have before : k < s.enqueued.length := by grind
        exact order k before at_k lap
  | consumer c =>
      obtain ⟨fits, order⟩ := inTurn
      obtain ⟨at_c, rfl⟩ | ⟨slot, queue, at_c, reserved, rfl⟩ |
        ⟨slot, item, queue, at_c, loaded, rfl⟩ := step_consumer performed
      · exact h.refuseDequeue at_c
      · exact h.reserveDequeue at_c reserved (fits (by rw [at_c]; rfl))
      · apply h.load at_c loaded
        intro k at_k
        exact order k (List.getElem?_eq_some_iff.mp at_k).1 at_k

theorem of_run [Inhabited α] (positive : 0 < capacity) {accesses : List (Access α)}
    (run : Run (Shared.step moved) InTurn (.create capacity) accesses s) :
    Invariant s capacity := by
  apply run.invariant (I := fun s => Invariant s capacity) (create positive)
  intro s a t h inTurn performed
  exact h.step inTurn performed

/-- In a state of the invariant the items come out as they went in. -/
theorem delivers (h : Invariant s capacity) : s.Delivers := by
  have positive := h.tickets.positive
  refine ⟨h.tickets.deq_le, ?_, ?_, ?_⟩
  · intro k c item at_k returned
    obtain loading | ⟨p, x, given, returned'⟩ := h.dequeues.located k c at_k
    · rw [loading] at returned
      cases returned
    · rw [returned'] at returned
      cases returned
      exact ⟨p, given⟩
  · intro item slot inside
    obtain ⟨p, at_p⟩ := List.mem_iff_getElem?.mp inside
    obtain ⟨k, at_k, rfl⟩ := h.enqueues.slot_eq at_p
    rw [h.toSize_slot (List.getElem?_eq_some_iff.mp at_k).1, h.tickets.container_length]
    exact Nat.mod_lt k positive
  · intro slot inside
    obtain ⟨c, at_c⟩ := List.mem_iff_getElem?.mp inside
    obtain ⟨k, at_k, rfl⟩ := h.dequeues.slot_eq at_c
    have before := (List.getElem?_eq_some_iff.mp at_k).1
    have le := h.tickets.deq_le
    rw [h.toSize_slot (by omega), h.tickets.container_length]
    exact Nat.mod_lt k positive

end Invariant

/-- The concurrent ring queue delivers what was enqueued, in every run whose
accesses are in turn. -/
theorem accesses_in_turn_deliver [Inhabited α] (positive : 0 < capacity)
    {accesses : List (Access α)}
    (run : Run (Shared.step moved) InTurn (.create capacity) accesses s) : s.Delivers :=
  (Invariant.of_run positive run).delivers

/-- A queue of one slot that is used twice, the second enqueue reserving before
the first dequeue has returned. -/
theorem accesses_in_turn_deliver_lap : ∃ s : Shared Nat,
    Run (Shared.step id) InTurn (.create 1) [.callEnqueue 7, .callDequeue, .producer 0,
      .callEnqueue 8, .consumer 0, .producer 0, .consumer 0, .producer 1, .producer 1] s ∧
    s.Delivers := by
  have run : Run (Shared.step id) InTurn (Shared.create (α := Nat) 1) [.callEnqueue 7,
      .callDequeue, .producer 0, .callEnqueue 8, .consumer 0, .producer 0, .consumer 0,
      .producer 1, .producer 1] _ :=
    Run.of_exec (by decide)
  exact ⟨_, run, accesses_in_turn_deliver (by decide) run⟩

/-- A consumer that is given the slot of an enqueue before the item is stored
returns what the slot held before. -/
theorem early_load_delivers_stale : ¬ ∀ (capacity : Nat) (accesses : List (Access Nat)) s,
    0 < capacity → Run (Shared.step id) unguarded (.create capacity) accesses s →
    s.Delivers := by
  intro all
  have run : Run (Shared.step id) unguarded (Shared.create (α := Nat) 4)
      [.callEnqueue 7, .callDequeue, .producer 0, .consumer 0, .consumer 0] _ :=
    Run.of_exec (by decide)
  obtain ⟨p, enqueued⟩ := (all 4 _ _ (by decide) run).item 0 0 0 (by decide) (by decide)
  have first : (some (0, 7) : Option (Nat × Nat)) = some (p, 0) := enqueued
  cases first

end Shared

end Vee
