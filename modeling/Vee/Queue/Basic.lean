import Mathlib.Algebra.Group.Int.Defs
import Mathlib.Algebra.Group.Nat.Defs
import Mathlib.Data.List.Basic

/-!
# The ring queue

`syncronized_ringqueue` over an arbitrary item type. Each of `enqueue` and
`dequeue` is a section under `_index_guard`, which picks a slot, followed by an
access to `_item_container` at this slot; the two parts are separate here so
that they can be run one after another or interleaved with other calls.

`_rear`, `_front` and `_size` are ints. Arithmetic on them wraps at 32 bits, and
an int used together with `_capacity` is converted to a 64-bit `std::size_t`. An
index outside a vector is undefined behaviour and makes the result `none`.
-/

namespace Vee

/-- The value of an `int` after arithmetic. -/
def toInt32 (x : Int) : Int := x.bmod (2 ^ 32)

/-- Conversion of an `int` to `std::size_t`. -/
def toSize (x : Int) : Nat := (x % 2 ^ 64).toNat

/-- What a forwarding reference is bound to. -/
inductive ValueCategory where
  | lvalue
  | rvalue
  deriving DecidableEq, Repr

structure RingQueue (α : Type) where
  capacity : Nat
  /-- the flag of each item's spin lock -/
  itemGuards : List Bool
  itemContainer : List α
  overwriteMode : Bool
  rear : Int
  front : Int
  size : Int
  deriving DecidableEq, Repr

namespace RingQueue

variable {α : Type}

/-- The constructor. Derived classes may set `_overwrite_mode`. -/
def create [Inhabited α] (capacity : Nat) (overwriteMode : Bool) : RingQueue α where
  capacity
  itemGuards := List.replicate capacity false
  itemContainer := List.replicate capacity default
  overwriteMode
  rear := 0
  front := 0
  size := 0

def isEmpty (q : RingQueue α) : Bool := q.size = 0

def isFull (q : RingQueue α) : Bool := toSize q.size = q.capacity

/-- `++x %= _capacity` -/
def bump (capacity : Nat) (x : Int) : Int :=
  toInt32 (toSize (toInt32 (x + 1)) % capacity : Nat)

/-- The section of `enqueue` under `_index_guard`; `none` where it returns false.
The item guard is adopted, which does not lock it. -/
def enqueueIndex (q : RingQueue α) : Option (Int × RingQueue α) :=
  let rear := q.rear
  if q.isFull then
    if !q.overwriteMode then none
    else some (rear, { q with
      rear := bump q.capacity q.rear
      front := bump q.capacity q.front })
  else some (rear, { q with
    rear := bump q.capacity q.rear
    size := toInt32 (q.size + 1) })

/-- The section of `dequeue` under `_index_guard`; `none` where it returns false. -/
def dequeueIndex (q : RingQueue α) : Option (Int × RingQueue α) :=
  if q.size = 0 then none
  else some (q.front, { q with
    size := toInt32 (q.size - 1)
    front := bump q.capacity q.front })

/-- `_item_container[slot] = data`, then the adopted item guard is unlocked. -/
def store (q : RingQueue α) (slot : Int) (data : α) : Option (RingQueue α) :=
  if toSize slot < q.itemContainer.length then
    some { q with
      itemContainer := q.itemContainer.set (toSize slot) data
      itemGuards := q.itemGuards.set (toSize slot) false }
  else none

/-- `out = std::move(_item_container[slot])`, then the adopted item guard is
unlocked. `moved` is the value a moved-from item is left with. -/
def load (moved : α → α) (q : RingQueue α) (slot : Int) : Option (α × RingQueue α) :=
  match q.itemContainer[toSize slot]? with
  | none => none
  | some item => some (item, { q with
      itemContainer := q.itemContainer.set (toSize slot) (moved item)
      itemGuards := q.itemGuards.set (toSize slot) false })

def enqueue (q : RingQueue α) (data : α) : Option (Bool × RingQueue α) :=
  match q.enqueueIndex with
  | none => some (false, q)
  | some (rear, q') => (q'.store rear data).map fun q'' => (true, q'')

def shallowDequeue (q : RingQueue α) : Bool × RingQueue α :=
  match q.dequeueIndex with
  | none => (false, q)
  | some (_, q') => (true, q')

/-- `dequeue(data_type& out)`; the second component is `out` afterwards. -/
def dequeueInto (moved : α → α) (q : RingQueue α) (out : α) : Option (Bool × α × RingQueue α) :=
  match q.dequeueIndex with
  | none => some (false, out, q)
  | some (front, q') => (q'.load moved front).map fun (item, q'') => (true, item, q'')

/-- `dequeue()` -/
def dequeue [Inhabited α] (moved : α → α) (q : RingQueue α) : Option (Bool × RingQueue α) :=
  (q.dequeueInto moved default).map fun (result, _, q') => (result, q')

/-- `while (this->dequeue());`, for at most `fuel` evaluations of the condition. -/
def clear [Inhabited α] (moved : α → α) : Nat → RingQueue α → Option (RingQueue α)
  | 0, _ => none
  | fuel + 1, q =>
      match q.dequeue moved with
      | none => none
      | some (false, q') => some q'
      | some (true, q') => clear moved fuel q'

/-- The calls of a sequential user. -/
inductive Call (α : Type) where
  | enqueue (data : α)
  | dequeueInto (out : α)
  | dequeue
  | shallowDequeue
  | clear (fuel : Nat)
  deriving DecidableEq, Repr

/-- The effect of a call on the queue. -/
def step [Inhabited α] (moved : α → α) (q : RingQueue α) : Call α → Option (RingQueue α)
  | .enqueue data => (q.enqueue data).map (·.2)
  | .dequeueInto out => (q.dequeueInto moved out).map (·.2.2)
  | .dequeue => (q.dequeue moved).map (·.2)
  | .shallowDequeue => some q.shallowDequeue.2
  | .clear fuel => q.clear moved fuel

end RingQueue
end Vee
