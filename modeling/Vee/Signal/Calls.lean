import Vee.Pool.Log
import Vee.Signal.Progress
import Vee.Transition.Basic

/-!
# All calls on one signal channel

One channel with every call of `recv` and of `try_send` made on it so far. The
specialisation for `void` is the same code over a promise of an int, in which a
sender sets 1; what a caller passes and gets is translated by `encode` and
`decode`.
-/

namespace Vee

open SignalChannel

/-- The type of the promise, what `try_send` takes and what `recv` returns. -/
structure Specialisation (T A R : Type) where
  encode : A → T
  decode : T → R

namespace Specialisation

/-- `signal_channel<T>` -/
def primary (T : Type) : Specialisation T T T := ⟨id, id⟩

/-- `signal_channel<void>`, with `_receiver_ptr->set_value(1)` -/
def void : Specialisation Int Unit Unit := ⟨fun _ => 1, fun _ => ()⟩

end Specialisation

def Outcome.map {P R R' : Type} (f : R → R') : Outcome P R → Outcome P R'
  | .running pc => .running pc
  | .returned result => .returned (f result)
  | .threw fault => .threw fault

def Outcome.isReturned {P R : Type} : Outcome P R → Bool
  | .returned _ => true
  | _ => false

/-- A channel with all calls made on it, each kind in order of creation, followed
by history variables. -/
structure SignalSystem (T A R : Type) where
  channel : SignalChannel T := {}
  recvs : List (Outcome (Recv T) R) := []
  sends : List (A × Outcome Send Bool) := []
  /-- the `recv` that last exchanged IDLE by WAIT -/
  opener : Option Nat := none
  /-- the calls of `try_send` that have returned true -/
  sent : List Nat := []
  /-- the calls of `recv` that have returned -/
  received : List Nat := []

/-- Begin a call, or let the `i`-th call of its kind take a step. -/
inductive SignalAction (A : Type) where
  | callRecv
  | callTrySend (value : A)
  | recv (i : Nat) (spurious : Bool)
  | trySend (i : Nat) (spurious : Bool)
  deriving DecidableEq, Repr

namespace SignalSystem

variable {T A R : Type}

/-- The exchange of IDLE by WAIT has succeeded. -/
def opens (pc : Recv T) (o : Outcome (Recv T) T) : Bool :=
  match pc, o with
  | .acquire, .running .publish => true
  | _, _ => false

/-- The state after a step of receiver `i`. -/
def afterRecv (spec : Specialisation T A R) (s : SignalSystem T A R) (i : Nat) (pc : Recv T)
    (channel : SignalChannel T) (o : Outcome (Recv T) T) : SignalSystem T A R :=
  { s with
    channel
    recvs := s.recvs.set i (o.map spec.decode)
    opener := if opens pc o then some i else s.opener
    received := if o.isReturned then s.received ++ [i] else s.received }

/-- The state after a step of sender `i`. -/
def afterSend (s : SignalSystem T A R) (i : Nat) (value : A) (channel : SignalChannel T)
    (o : Outcome Send Bool) : SignalSystem T A R :=
  { s with
    channel
    sends := s.sends.set i (value, o)
    sent := if o = .returned true then s.sent ++ [i] else s.sent }

def step (spec : Specialisation T A R) (s : SignalSystem T A R) :
    SignalAction A → Option (SignalSystem T A R)
  | .callRecv => some { s with recvs := s.recvs ++ [.running .check] }
  | .callTrySend value => some { s with sends := s.sends ++ [(value, .running .acquire)] }
  | .recv i spurious =>
      match s.recvs[i]? with
      | some (.running pc) =>
          match s.channel.recvStep spurious pc with
          | none => none
          | some (channel, o) => some (s.afterRecv spec i pc channel o)
      | _ => none
  | .trySend i spurious =>
      match s.sends[i]? with
      | some (value, .running pc) =>
          let (channel, o) := s.channel.trySendStep spurious (spec.encode value) pc
          some (s.afterSend i value channel o)
      | _ => none

variable {spec : Specialisation T A R} {s t : SignalSystem T A R} {i : Nat} {spurious : Bool}

theorem recv_step {pc : Recv T} {channel : SignalChannel T} {o : Outcome (Recv T) T}
    (at_i : s.recvs[i]? = some (.running pc))
    (taken : s.channel.recvStep spurious pc = some (channel, o)) :
    s.step spec (.recv i spurious) = some (s.afterRecv spec i pc channel o) := by
  simp only [step, at_i, taken]

theorem step_recv (enabled : s.step spec (.recv i spurious) = some t) :
    ∃ pc channel o, s.recvs[i]? = some (.running pc) ∧
      s.channel.recvStep spurious pc = some (channel, o) ∧ t = s.afterRecv spec i pc channel o := by
  simp only [step] at enabled
  split at enabled
  · rename_i pc at_i
    split at enabled
    · cases enabled
    · rename_i channel o taken
      exact ⟨pc, channel, o, at_i, taken, (Option.some.inj enabled).symm⟩
  · cases enabled

theorem step_trySend (enabled : s.step spec (.trySend i spurious) = some t) :
    ∃ value pc channel o, s.sends[i]? = some (value, .running pc) ∧
      s.channel.trySendStep spurious (spec.encode value) pc = (channel, o) ∧
      t = s.afterSend i value channel o := by
  simp only [step] at enabled
  split at enabled
  · rename_i value pc at_i
    exact ⟨value, pc, _, _, at_i, rfl, (Option.some.inj enabled).symm⟩
  · cases enabled

end SignalSystem

namespace SignalChannel

variable {T : Type} {ch ch' : SignalChannel T} {spurious : Bool} {value : T} {pc : Recv T}
variable {o : Outcome (Recv T) T}

/-- Only the test at the beginning of `recv` throws, and it changes nothing. -/
theorem recvStep_threw {fault : Fault}
    (step : ch.recvStep spurious pc = some (ch', .threw fault)) :
    fault = alreadyWaiting ∧ ch' = ch := by
  cases pc with
  | check =>
      obtain ⟨rfl, threw⟩ := Prod.mk.inj (Option.some.inj step)
      split at threw
      · exact ⟨(Outcome.threw.inj threw).symm, rfl⟩
      · cases threw
  | acquire | release =>
      simp only [recvStep] at step
      split at step <;> cases step
  | publish | retract => cases step
  | get =>
      simp only [recvStep] at step
      split at step <;> cases step

/-- A receiver that enters while the channel is in use has no effect on it. -/
theorem recv_entering_busy (busy : ch.state ≠ .idle) (entering : Entering pc)
    (step : ch.recvStep spurious pc = some (ch', o)) :
    ch' = ch ∧ (o = .running .acquire ∨ o = .threw alreadyWaiting) := by
  obtain rfl | rfl := entering
  · obtain ⟨rfl, rfl⟩ := Prod.mk.inj (Option.some.inj step)
    refine ⟨rfl, ?_⟩
    split
    · exact .inr rfl
    · exact .inl rfl
  · simp only [recvStep, compareAndSwapWeak] at step
    rw [if_neg fun taken => busy taken.1] at step
    obtain ⟨rfl, rfl⟩ := Prod.mk.inj (Option.some.inj step)
    exact ⟨rfl, .inl rfl⟩

/-- On an unused channel it goes on or opens the channel. -/
theorem Closed.recv_entering (closed : ch.Closed) (entering : Entering pc)
    (step : ch.recvStep spurious pc = some (ch', o)) :
    ch' = ch ∧ o = .running .acquire ∨
      pc = .acquire ∧ o = .running .publish ∧ Link ch' .publish none := by
  obtain rfl | rfl := entering
  · obtain ⟨rfl, rfl⟩ := Prod.mk.inj (Option.some.inj step)
    rw [if_neg (by rw [closed.state]; decide)]
    exact .inl ⟨rfl, rfl⟩
  · simp only [recvStep] at step
    split at step
    · rename_i opened taken
      obtain ⟨_, rfl⟩ := compareAndSwapWeak_eq_some taken
      obtain ⟨rfl, rfl⟩ := Prod.mk.inj (Option.some.inj step)
      exact .inr ⟨rfl, rfl, .opened rfl closed.receiver (.inl rfl)⟩
    · obtain ⟨rfl, rfl⟩ := Prod.mk.inj (Option.some.inj step)
      exact .inl ⟨rfl, rfl⟩

/-- A sender only gets past its exchange while a receiver waits. -/
theorem trySend_refused {o : Outcome Send Bool} (not_wait : ch.state ≠ .wait)
    (step : ch.trySendStep spurious value .acquire = (ch', o)) :
    ch' = ch ∧ o = .returned false := by
  simp only [trySendStep, compareAndSwapWeak] at step
  rw [if_neg fun taken => not_wait taken.1] at step
  obtain ⟨rfl, rfl⟩ := Prod.mk.inj step
  exact ⟨rfl, rfl⟩

/-- A receiver without a sender is past its exchange, or the channel unused. -/
theorem Link.state_eq_wait (h : Link ch pc none) (inside : ¬ Entering pc) : ch.state = .wait := by
  cases h with
  | closed _ entering => exact absurd entering inside
  | opened state => exact state
  | published state => exact state
  | answered _ _ _ sender => obtain absent | absent := sender <;> cases absent

/-- A sender at its exchange is refused or caught by the receiver that waits. -/
theorem Link.trySend_acquire {o : Outcome Send Bool} (h : Link ch pc none)
    (step : ch.trySendStep spurious value .acquire = (ch', o)) :
    ch' = ch ∧ o = .returned false ∨ o = .running .spin ∧ Link ch' pc (some .spin) := by
  have link := h.change_sender (.inl rfl) (.inr rfl)
  obtain ⟨send, rfl, link'⟩ | ⟨rfl, _, rfl⟩ | ⟨rfl, _⟩ := link.trySend step
  · have next : send = .spin := by
      simp only [trySendStep] at step
      split at step <;> cases step
      rfl
    subst next
    exact .inr ⟨rfl, link'⟩
  · exact .inl ⟨rfl, rfl⟩
  · simp only [trySendStep] at step
    split at step <;> cases step

/-- With a sender past its exchange the state is SIG. -/
theorem Link.state_eq_sig {send : Send} (h : Link ch pc (some send)) (inside : send ≠ .acquire) :
    ch.state = .sig ∧ ¬ Entering pc := by
  have past : ¬ Outside (some send) := by
    rintro (absent | same)
    · cases absent
    · exact inside (Option.some.inj same)
  cases h with
  | closed _ _ outside => exact absurd outside past
  | opened _ _ outside => exact absurd outside past
  | published _ _ _ outside => exact absurd outside past
  | caught state => exact ⟨state, by simp [Entering]⟩
  | answered state => exact ⟨state, by simp [Entering]⟩

theorem Delivered.not_entering (h : Delivered ch value pc) : ¬ Entering pc := by
  rintro (rfl | rfl) <;> cases h

/-- No step of a receiver past its exchange leads back before it. -/
theorem recvStep_inside {next : Recv T} (inside : ¬ Entering pc)
    (step : ch.recvStep spurious pc = some (ch', .running next)) :
    ¬ Entering next ∧ pc ≠ .acquire := by
  have past : pc ≠ .acquire := fun same => inside (.inr same)
  refine ⟨?_, past⟩
  rintro (rfl | rfl)
  all_goals
    cases pc with
    | check => exact inside (.inl rfl)
    | acquire => exact past rfl
    | publish | retract => cases step
    | get | release =>
        simp only [recvStep] at step
        split at step <;> cases step

/-- No step of a sender past its exchange leads back before it. -/
theorem trySendStep_inside {pc next : Send} (inside : pc ≠ .acquire)
    (step : ch.trySendStep spurious value pc = (ch', .running next)) : next ≠ .acquire := by
  rintro rfl
  cases pc with
  | acquire => exact inside rfl
  | spin =>
      simp only [trySendStep] at step
      split at step <;> cases step
  | set =>
      simp only [trySendStep] at step
      split at step
      · cases step
      · split at step <;> cases step

end SignalChannel
end Vee
