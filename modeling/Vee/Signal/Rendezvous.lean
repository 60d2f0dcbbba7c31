import Vee.Signal.Channel

/-!
# One receiver and one sender on a signal channel

The step lemmas of the channel protocol, for users whose discipline lets at most
one `recv` and one `try_send` be past their first exchange. `Link` is kept by
every step of either call until the value is set; from then on `Delivered`
holds until the receiver has closed the channel again. No fault is reachable
from either, and the received value is the sent one.
-/

namespace Vee.SignalChannel

variable {T : Type} {ch ch' : SignalChannel T} {spurious : Bool} {value : T}
variable {receiver : Recv T} {sender sender' : Option Send}

theorem compareAndSwapWeak_eq_some {exp next : ChannelState}
    (h : ch.compareAndSwapWeak exp next spurious = some ch') :
    ch.state = exp ∧ ch' = { ch with state := next } := by
  simp only [compareAndSwapWeak] at h
  split at h
  · rename_i taken
    exact ⟨taken.1, (Option.some.inj h).symm⟩
  · cases h

@[simp] theorem compareAndSwapWeak_false {exp next : ChannelState} (taken : ch.state = exp) :
    ch.compareAndSwapWeak exp next false = some { ch with state := next } := by
  simp [compareAndSwapWeak, taken]

/-- A channel without calls in progress lets a receiver and a sender enter. -/
theorem Closed.link (h : ch.Closed) (entering : Entering receiver) (outside : Outside sender) :
    Link ch receiver sender := .closed h entering outside

/-- A sender may appear or give up as long as it has not passed its exchange. -/
theorem Link.change_sender (h : Link ch receiver sender) (outside : Outside sender)
    (outside' : Outside sender') : Link ch receiver sender' := by
  cases h with
  | closed closed entering => exact .closed closed entering outside'
  | opened state pointer => exact .opened state pointer outside'
  | published state pointer empty => exact .published state pointer empty outside'
  | caught => simp [Outside] at outside
  | answered _ _ _ inside => obtain rfl | rfl := inside <;> simp [Outside] at outside

/-- While a link is up the receiver neither returns nor throws. -/
theorem Link.recv {o : Outcome (Recv T) T} (h : Link ch receiver sender)
    (step : ch.recvStep spurious receiver = some (ch', o)) :
    ∃ receiver', o = .running receiver' ∧ Link ch' receiver' sender := by
  cases h with
  | closed closed entering outside =>
      obtain rfl | rfl := entering
      · simp only [recvStep, closed.state, reduceCtorEq, if_false, Option.some.injEq,
          Prod.mk.injEq] at step
        obtain ⟨rfl, rfl⟩ := step
        exact ⟨_, rfl, .closed closed (.inr rfl) outside⟩
      · simp only [recvStep] at step
        cases taken : ch.compareAndSwapWeak .idle .wait spurious with
        | none =>
            simp only [taken, Option.some.injEq, Prod.mk.injEq] at step
            obtain ⟨rfl, rfl⟩ := step
            exact ⟨_, rfl, .closed closed (.inr rfl) outside⟩
        | some opened =>
            obtain ⟨_, rfl⟩ := compareAndSwapWeak_eq_some taken
            simp only [taken, Option.some.injEq, Prod.mk.injEq] at step
            obtain ⟨rfl, rfl⟩ := step
            exact ⟨_, rfl, .opened rfl closed.receiver outside⟩
  | opened state pointer outside =>
      simp only [recvStep, Option.some.injEq, Prod.mk.injEq] at step
      obtain ⟨rfl, rfl⟩ := step
      exact ⟨_, rfl, .published state rfl (by simp) outside⟩
  | caught state pointer =>
      simp only [recvStep, Option.some.injEq, Prod.mk.injEq] at step
      obtain ⟨rfl, rfl⟩ := step
      exact ⟨_, rfl, .answered state rfl (by simp) (.inl rfl)⟩
  | published _ _ empty => simp [recvStep, empty] at step
  | answered _ _ empty => simp [recvStep, empty] at step

/-- A send either proceeds, reports failure without effect, or has delivered its
value to the linked receiver. -/
theorem Link.trySend {send : Send} {o : Outcome Send Bool} (h : Link ch receiver (some send))
    (step : ch.trySendStep spurious value send = (ch', o)) :
    (∃ send', o = .running send' ∧ Link ch' receiver (some send')) ∨
      (o = .returned false ∧ send = .acquire ∧ ch' = ch) ∨
      (o = .returned true ∧ Delivered ch' value receiver) := by
  cases h with
  | closed closed entering outside =>
      obtain rfl : send = .acquire := by simpa [Outside] using outside
      simp only [trySendStep, compareAndSwapWeak, closed.state, reduceCtorEq, false_and, if_false,
        Prod.mk.injEq] at step
      exact .inr (.inl ⟨step.2.symm, rfl, step.1.symm⟩)
  | opened state pointer outside =>
      obtain rfl : send = .acquire := by simpa [Outside] using outside
      simp only [trySendStep] at step
      cases taken : ch.compareAndSwapWeak .wait .sig spurious with
      | none =>
          simp only [taken, Prod.mk.injEq] at step
          exact .inr (.inl ⟨step.2.symm, rfl, step.1.symm⟩)
      | some signalled =>
          obtain ⟨_, rfl⟩ := compareAndSwapWeak_eq_some taken
          simp only [taken, Prod.mk.injEq] at step
          obtain ⟨rfl, rfl⟩ := step
          exact .inl ⟨_, rfl, .caught rfl pointer⟩
  | published state pointer empty outside =>
      obtain rfl : send = .acquire := by simpa [Outside] using outside
      simp only [trySendStep] at step
      cases taken : ch.compareAndSwapWeak .wait .sig spurious with
      | none =>
          simp only [taken, Prod.mk.injEq] at step
          exact .inr (.inl ⟨step.2.symm, rfl, step.1.symm⟩)
      | some signalled =>
          obtain ⟨_, rfl⟩ := compareAndSwapWeak_eq_some taken
          simp only [taken, Prod.mk.injEq] at step
          obtain ⟨rfl, rfl⟩ := step
          exact .inl ⟨_, rfl, .answered rfl pointer empty (.inl rfl)⟩
  | caught state pointer =>
      simp only [trySendStep, pointer, if_true, Prod.mk.injEq] at step
      obtain ⟨rfl, rfl⟩ := step
      exact .inl ⟨_, rfl, .caught state pointer⟩
  | answered state pointer empty inside =>
      have bound := (List.getElem?_eq_some_iff.mp empty).1
      obtain inside | inside := inside <;> obtain rfl := Option.some.inj inside
      · simp only [trySendStep, pointer, reduceCtorEq, if_false, Prod.mk.injEq] at step
        obtain ⟨rfl, rfl⟩ := step
        exact .inl ⟨_, rfl, .answered state pointer empty (.inr rfl)⟩
      · simp only [trySendStep, pointer, empty, Prod.mk.injEq] at step
        obtain ⟨rfl, rfl⟩ := step
        exact .inr (.inr ⟨rfl, .get state (by simp [bound])⟩)

/-- After the value is set the receiver returns exactly this value, and leaves
the channel closed. -/
theorem Delivered.recv {o : Outcome (Recv T) T} (h : Delivered ch value receiver)
    (step : ch.recvStep spurious receiver = some (ch', o)) :
    (∃ receiver', o = .running receiver' ∧ Delivered ch' value receiver') ∨
      (o = .returned value ∧ ch'.Closed) := by
  cases h with
  | get state full =>
      simp only [recvStep, full, Option.some.injEq, Prod.mk.injEq] at step
      obtain ⟨rfl, rfl⟩ := step
      exact .inl ⟨_, rfl, .retract state⟩
  | retract state =>
      simp only [recvStep, Option.some.injEq, Prod.mk.injEq] at step
      obtain ⟨rfl, rfl⟩ := step
      exact .inl ⟨_, rfl, .release state rfl⟩
  | release state pointer =>
      simp only [recvStep] at step
      cases taken : ch.compareAndSwapWeak .sig .idle spurious with
      | none =>
          simp only [taken, Option.some.injEq, Prod.mk.injEq] at step
          obtain ⟨rfl, rfl⟩ := step
          exact .inl ⟨_, rfl, .release state pointer⟩
      | some closed =>
          obtain ⟨_, rfl⟩ := compareAndSwapWeak_eq_some taken
          simp only [taken, Option.some.injEq, Prod.mk.injEq] at step
          obtain ⟨rfl, rfl⟩ := step
          exact .inr ⟨rfl, rfl, pointer⟩

theorem Delivered.state (h : Delivered ch value receiver) : ch.state = .sig := by
  cases h <;> assumption

/-- A second receiver neither throws nor enters before the first one is done. -/
theorem Delivered.recv_entering {o : Outcome (Recv T) T} {other : Recv T}
    (h : Delivered ch value receiver) (entering : Entering other)
    (step : ch.recvStep spurious other = some (ch', o)) : ch' = ch ∧ o = .running .acquire := by
  have busy := h.state
  obtain rfl | rfl := entering
  · simp only [recvStep, busy, reduceCtorEq, if_false, Option.some.injEq, Prod.mk.injEq] at step
    exact ⟨step.1.symm, step.2.symm⟩
  · simp only [recvStep, compareAndSwapWeak, busy, reduceCtorEq, false_and, if_false,
      Option.some.injEq, Prod.mk.injEq] at step
    exact ⟨step.1.symm, step.2.symm⟩

end Vee.SignalChannel
