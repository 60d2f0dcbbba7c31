import Mathlib.Data.List.Basic

/-!
# The signal channel

`signal_channel<T>` hands one value from a sender to a receiver through a state
word and a pointer to the receiver's promise. `recvStep` and `trySendStep`
perform one atomic step of a `recv` or `try_send` call at a given program point;
any number of calls may be interleaved on one channel.

A promise is a local object of the `recv` call that creates it. Promises are
numbered in order of creation and the pointer holds such a number, so a second
use of a promise and a use after the channel moved on both stay visible.
-/

namespace Vee

/-- What can end a call abnormally. -/
inductive Fault where
  /-- a `std::runtime_error` with its text -/
  | runtimeError (what : String)
  /-- `std::promise::set_value` on a promise that already holds a value -/
  | promiseAlreadySatisfied
  /-- a null or dangling pointer is dereferenced -/
  | invalidPointer
  /-- `std::thread::detach` on an object that owns no thread -/
  | notJoinable
  /-- `std::terminate`, for a thread object destroyed while it owns a thread -/
  | terminate
  deriving DecidableEq, Repr

/-- The result of one step of a call whose program points are `P`. -/
inductive Outcome (P R : Type) where
  | running (pc : P)
  | returned (result : R)
  | threw (fault : Fault)
  deriving DecidableEq, Repr

/-- The values of `signal_channel::_state`. -/
inductive ChannelState where
  | idle
  | wait
  | sig
  deriving DecidableEq, Repr

structure SignalChannel (T : Type) where
  receiverPtr : Option Nat := none
  state : ChannelState := .idle
  /-- every promise created so far, with the value set into it -/
  promises : List (Option T) := []
  deriving DecidableEq, Repr

namespace SignalChannel

variable {T : Type}

/-- Program points of `recv`. -/
inductive Recv (T : Type) where
  /-- the test of `_state == WAIT` -/
  | check
  /-- the loop `while (!_compare_and_swap_weak(_state, IDLE, WAIT))` -/
  | acquire
  /-- construction of the promise and `_receiver_ptr = &receiver` -/
  | publish
  /-- `future.get()` on the call's own promise -/
  | get (receiver : Nat)
  /-- `_receiver_ptr = nullptr` -/
  | retract (result : T)
  /-- the loop `while (!_compare_and_swap_weak(_state, SIG, IDLE))` -/
  | release (result : T)
  deriving DecidableEq, Repr

/-- Program points of `try_send`. -/
inductive Send where
  /-- the single attempt `_compare_and_swap_weak(_state, WAIT, SIG)` -/
  | acquire
  /-- the loop `while (_receiver_ptr == nullptr)` -/
  | spin
  /-- `_receiver_ptr->set_value(value)` -/
  | set
  deriving DecidableEq, Repr

/-- `compare_exchange_weak`; `spurious` lets it fail on the expected value. -/
def compareAndSwapWeak (ch : SignalChannel T) (exp value : ChannelState) (spurious : Bool) :
    Option (SignalChannel T) :=
  if ch.state = exp ∧ spurious = false then some { ch with state := value } else none

def alreadyWaiting : Fault :=
  .runtimeError "This signal object is already on waiting state!"

/-- One step of `recv`. It is blocked only in `future.get()`. -/
def recvStep (ch : SignalChannel T) (spurious : Bool) :
    Recv T → Option (SignalChannel T × Outcome (Recv T) T)
  | .check => some (ch, if ch.state = .wait then .threw alreadyWaiting else .running .acquire)
  | .acquire =>
      match ch.compareAndSwapWeak .idle .wait spurious with
      | some ch' => some (ch', .running .publish)
      | none => some (ch, .running .acquire)
  | .publish =>
      let receiver := ch.promises.length
      some ({ ch with receiverPtr := some receiver, promises := ch.promises ++ [none] },
        .running (.get receiver))
  | .get receiver =>
      match ch.promises[receiver]? with
      | some (some result) => some (ch, .running (.retract result))
      | _ => none
  | .retract result => some ({ ch with receiverPtr := none }, .running (.release result))
  | .release result =>
      match ch.compareAndSwapWeak .sig .idle spurious with
      | some ch' => some (ch', .returned result)
      | none => some (ch, .running (.release result))

/-- One step of `try_send(value)`. -/
def trySendStep (ch : SignalChannel T) (spurious : Bool) (value : T) :
    Send → SignalChannel T × Outcome Send Bool
  | .acquire =>
      match ch.compareAndSwapWeak .wait .sig spurious with
      | some ch' => (ch', .running .spin)
      | none => (ch, .returned false)
  | .spin => (ch, if ch.receiverPtr = none then .running .spin else .running .set)
  | .set =>
      match ch.receiverPtr with
      | none => (ch, .threw .invalidPointer)
      | some receiver =>
          match ch.promises[receiver]? with
          | some none =>
              ({ ch with promises := ch.promises.set receiver (some value) }, .returned true)
          | some (some _) => (ch, .threw .promiseAlreadySatisfied)
          | none => (ch, .threw .invalidPointer)

/-- No call is between its two exchanges of the state word. -/
structure Closed (ch : SignalChannel T) : Prop where
  state : ch.state = .idle
  receiver : ch.receiverPtr = none

/-- A sender that has not passed its exchange, or no sender at all. -/
def Outside (sender : Option Send) : Prop := sender = none ∨ sender = some .acquire

/-- The joint positions of the one receiver and the at most one sender that use
a channel before the value is set. -/
inductive Link (ch : SignalChannel T) : Recv T → Option Send → Prop where
  | closed {receiver sender} : ch.Closed → receiver = .check ∨ receiver = .acquire →
      Outside sender → Link ch receiver sender
  | opened {sender} : ch.state = .wait → ch.receiverPtr = none → Outside sender →
      Link ch .publish sender
  | published {p sender} : ch.state = .wait → ch.receiverPtr = some p →
      ch.promises[p]? = some none → Outside sender → Link ch (.get p) sender
  | caught : ch.state = .sig → ch.receiverPtr = none → Link ch .publish (some .spin)
  | answered {p sender} : ch.state = .sig → ch.receiverPtr = some p →
      ch.promises[p]? = some none → sender = some .spin ∨ sender = some .set →
      Link ch (.get p) sender

/-- The positions of the receiver after the value is set. -/
inductive Delivered (ch : SignalChannel T) (value : T) : Recv T → Prop where
  | get {p} : ch.state = .sig → ch.promises[p]? = some (some value) → Delivered ch value (.get p)
  | retract : ch.state = .sig → Delivered ch value (.retract value)
  | release : ch.state = .sig → ch.receiverPtr = none → Delivered ch value (.release value)

/-- A receiver that has not passed its first exchange. -/
def Entering (receiver : Recv T) : Prop := receiver = .check ∨ receiver = .acquire

end SignalChannel
end Vee
