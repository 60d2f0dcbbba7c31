import Vee.Signal.Rendezvous

/-!
# A rendezvous can always be completed

From every joint position of a receiver and a sender some step of one of them,
with no exchange failing spuriously, brings the delivery closer; after the
delivery the receiver can finish alone. The ranks below count the steps left.
-/

namespace Vee.SignalChannel

variable {T : Type} {ch : SignalChannel T} {value : T}
variable {receiver : Recv T} {send : Send}

/-- Steps until the receiver waits for its value. -/
def Recv.entryRank : Recv T → Nat
  | .check => 3
  | .acquire => 2
  | .publish => 1
  | _ => 0

/-- Steps until an answered receiver returns. -/
def Recv.exitRank : Recv T → Nat
  | .get _ => 3
  | .retract _ => 2
  | .release _ => 1
  | _ => 0

/-- Steps until the value is set, once the receiver waits. -/
def Send.rank : Send → Nat
  | .acquire => 3
  | .spin => 2
  | .set => 1

theorem Recv.entryRank_le (receiver : Recv T) : receiver.entryRank ≤ 3 := by
  cases receiver <;> simp [entryRank]

theorem Recv.exitRank_le (receiver : Recv T) : receiver.exitRank ≤ 3 := by
  cases receiver <;> simp [exitRank]

theorem Send.rank_pos (send : Send) : 0 < send.rank := by
  cases send <;> decide

/-- While a link is up, the receiver or the sender can take a step closer to the
delivery, or the sender can deliver. -/
theorem Link.progress (h : Link ch receiver (some send)) (value : T) :
    (∃ ch' receiver', ch.recvStep false receiver = some (ch', .running receiver') ∧
      receiver'.entryRank < receiver.entryRank) ∨
    (∃ ch' send', ch.trySendStep false value send = (ch', .running send') ∧
      send'.rank < send.rank) ∨
    (∃ ch', ch.trySendStep false value send = (ch', .returned true)) := by
  cases h with
  | closed closed entering _ =>
      left
      obtain rfl | rfl := entering
      · refine ⟨ch, .acquire, ?_, by simp [Recv.entryRank]⟩
        simp [recvStep, closed.state]
      · refine ⟨{ ch with state := .wait }, .publish, ?_, by simp [Recv.entryRank]⟩
        simp [recvStep, closed.state]
  | opened => exact .inl ⟨_, _, rfl, by simp [Recv.entryRank]⟩
  | caught => exact .inl ⟨_, _, rfl, by simp [Recv.entryRank]⟩
  | published state _ _ outside =>
      obtain rfl : send = .acquire := by simpa [Outside] using outside
      refine .inr (.inl ⟨{ ch with state := .sig }, .spin, ?_, by decide⟩)
      simp [trySendStep, state]
  | @answered p _ _ pointer empty inside =>
      obtain inside | inside := inside <;> obtain rfl := Option.some.inj inside
      · refine .inr (.inl ⟨ch, .set, ?_, by decide⟩)
        simp [trySendStep, pointer]
      · refine .inr (.inr ⟨{ ch with promises := ch.promises.set p (some value) }, ?_⟩)
        simp [trySendStep, pointer, empty]

/-- An answered receiver can take its next step on the way to its return. -/
theorem Delivered.progress (h : Delivered ch value receiver) :
    (∃ ch' receiver', ch.recvStep false receiver = some (ch', .running receiver') ∧
      receiver'.exitRank < receiver.exitRank) ∨
    (∃ ch', ch.recvStep false receiver = some (ch', .returned value)) := by
  cases h with
  | get _ full =>
      refine .inl ⟨ch, .retract value, ?_, by simp [Recv.exitRank]⟩
      simp [recvStep, full]
  | retract => exact .inl ⟨_, _, rfl, by simp [Recv.exitRank]⟩
  | release state =>
      refine .inr ⟨{ ch with state := .idle }, ?_⟩
      simp [recvStep, state]

theorem Delivered.exitRank_pos (h : Delivered ch value receiver) : 0 < receiver.exitRank := by
  cases h <;> simp [Recv.exitRank]

end Vee.SignalChannel
