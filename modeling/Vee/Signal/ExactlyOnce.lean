import Vee.Signal.Calls

/-!
# Every value sent is received once

The invariant of a channel used by any number of receivers and senders. At most
one receiver, the one that opened the channel, is past its first exchange, and at
most one sender, the one it caught; all other calls leave the channel alone. The
`Ledger` records that values are received in the order in which they are sent.
-/

namespace Vee

open SignalChannel Transition

namespace SignalSystem

variable {T A R : Type} {spec : Specialisation T A R} {s t : SignalSystem T A R}
variable {recvs recvs' : List (Outcome (Recv T) R)} {sends sends' : List (A × Outcome Send Bool)}
variable {sent sent' received : List Nat} {i j r : Nat} {a : A} {spurious : Bool}

/-- A receiver that is not past its first exchange, or has finished. -/
def RecvPassive : Outcome (Recv T) R → Prop
  | .running pc => Entering pc
  | _ => True

/-- A sender that is not past its exchange, or has returned. -/
def SendPassive : A × Outcome Send Bool → Prop
  | (_, .running pc) => pc = .acquire
  | (_, .returned _) => True
  | (_, .threw _) => False

def Returned (o : Outcome (Recv T) R) : Prop := o.isReturned = true

def Sent (x : A × Outcome Send Bool) : Prop := x.2 = .returned true

/-- The `k`-th receiver has got what the `k`-th sender passed. -/
def Paired (spec : Specialisation T A R) (recvs : List (Outcome (Recv T) R))
    (sends : List (A × Outcome Send Bool)) (sent received : List Nat) : Prop :=
  ∀ k r : Nat, received[k]? = some r → ∃ (i : Nat) (a : A), sent[k]? = some i ∧
    sends[i]? = some (a, .returned true) ∧
    recvs[r]? = some (.returned (spec.decode (spec.encode a)))

structure Ledger (spec : Specialisation T A R) (recvs : List (Outcome (Recv T) R))
    (sends : List (A × Outcome Send Bool)) (sent received : List Nat) : Prop where
  sentLog : Pool.Logged Sent sent sends
  receivedLog : Pool.Logged Returned received recvs
  paired : Paired spec recvs sends sent received

/-- The joint positions of all calls and the channel. -/
inductive Phase (spec : Specialisation T A R) (s : SignalSystem T A R) : Prop where
  /-- no call is past its first exchange -/
  | free : s.channel.Closed → Pool.All RecvPassive s.recvs → Pool.All SendPassive s.sends →
      s.sent.length = s.received.length → Phase spec s
  | opened {r pc} : Link s.channel pc none → ¬ Entering pc → s.opener = some r →
      Pool.Only RecvPassive r (.running pc) s.recvs → Pool.All SendPassive s.sends →
      s.sent.length = s.received.length → Phase spec s
  /-- a sender has exchanged WAIT by SIG -/
  | caught {r pc i a send} : Link s.channel pc (some send) → send ≠ .acquire →
      s.opener = some r → Pool.Only RecvPassive r (.running pc) s.recvs →
      Pool.Only SendPassive i (a, .running send) s.sends →
      s.sent.length = s.received.length → Phase spec s
  | delivered {r pc i a} : Delivered s.channel (spec.encode a) pc → s.opener = some r →
      Pool.Only RecvPassive r (.running pc) s.recvs → Pool.All SendPassive s.sends →
      s.sent[s.received.length]? = some i → s.sent.length = s.received.length + 1 →
      s.sends[i]? = some (a, .returned true) → Phase spec s

namespace Ledger

theorem nil : Ledger spec [] [] [] [] :=
  ⟨.nil, .nil, fun _ _ found => by cases found⟩

/-- What has returned stays so. -/
theorem paired_mono (h : Paired spec recvs sends sent received)
    (recvs_kept : ∀ (r : Nat) v, recvs[r]? = some (.returned v) → recvs'[r]? = some (.returned v))
    (sends_kept : ∀ (i : Nat) a, sends[i]? = some (a, .returned true) →
      sends'[i]? = some (a, .returned true))
    (grows : sent <+: sent') : Paired spec recvs' sends' sent' received := by
  intro k r at_k
  obtain ⟨i, a, at_k', at_i, at_r⟩ := h k r at_k
  obtain ⟨more, rfl⟩ := grows
  exact ⟨i, a, Pool.get_append at_k' more, sends_kept i a at_i, recvs_kept r _ at_r⟩

theorem callRecv (h : Ledger spec recvs sends sent received) :
    Ledger spec (recvs ++ [.running .check]) sends sent received where
  sentLog := h.sentLog
  receivedLog := h.receivedLog.append Bool.false_ne_true
  paired := paired_mono h.paired (fun _ _ at_r => Pool.get_append at_r _) (fun _ _ at_i => at_i)
    (List.prefix_refl sent)

theorem callTrySend (h : Ledger spec recvs sends sent received) (value : A) :
    Ledger spec recvs (sends ++ [(value, .running .acquire)]) sent received where
  sentLog := h.sentLog.append (by rintro ⟨⟩)
  receivedLog := h.receivedLog
  paired := paired_mono h.paired (fun _ _ at_r => at_r) (fun _ _ at_i => Pool.get_append at_i _)
    (List.prefix_refl sent)

/-- A receiver takes a step and does not return. -/
theorem recv {pc : Recv T} {o : Outcome (Recv T) R} (h : Ledger spec recvs sends sent received)
    (at_i : recvs[i]? = some (.running pc)) (quiet : o.isReturned = false) :
    Ledger spec (recvs.set i o) sends sent received where
  sentLog := h.sentLog
  receivedLog := h.receivedLog.set at_i Bool.false_ne_true (by rw [Returned, quiet]; decide)
  paired := paired_mono h.paired
    (fun _ _ at_r => Pool.get_set_of_ne at_r at_i (P := Returned) rfl Bool.false_ne_true o)
    (fun _ _ at_j => at_j) (List.prefix_refl sent)

/-- A sender takes a step and does not return true. -/
theorem trySend {pc : Send} {o : Outcome Send Bool} (h : Ledger spec recvs sends sent received)
    (at_i : sends[i]? = some (a, .running pc)) (quiet : o ≠ .returned true) :
    Ledger spec recvs (sends.set i (a, o)) sent received where
  sentLog := h.sentLog.set at_i (by rintro ⟨⟩) quiet
  receivedLog := h.receivedLog
  paired := paired_mono h.paired (fun _ _ at_r => at_r)
    (fun _ _ at_j => Pool.get_set_of_ne at_j at_i (P := Sent) rfl (by rintro ⟨⟩) (a, o))
    (List.prefix_refl sent)

/-- A sender has set its value. -/
theorem send {pc : Send} (h : Ledger spec recvs sends sent received)
    (at_i : sends[i]? = some (a, .running pc)) :
    Ledger spec recvs (sends.set i (a, .returned true)) (sent ++ [i]) received where
  sentLog := h.sentLog.record at_i (by rintro ⟨⟩) rfl
  receivedLog := h.receivedLog
  paired := paired_mono h.paired (fun _ _ at_r => at_r)
    (fun _ _ at_j => Pool.get_set_of_ne at_j at_i (P := Sent) rfl (by rintro ⟨⟩) _)
    (List.prefix_append sent [i])

/-- The receiver of the value sent last returns it. -/
theorem receive {pc : Recv T} (h : Ledger spec recvs sends sent received)
    (at_r : recvs[r]? = some (.running pc)) (next : sent[received.length]? = some i)
    (at_i : sends[i]? = some (a, .returned true)) :
    Ledger spec (recvs.set r (.returned (spec.decode (spec.encode a)))) sends sent
      (received ++ [r]) where
  sentLog := h.sentLog
  receivedLog := h.receivedLog.record at_r Bool.false_ne_true rfl
  paired := by
    have bound := (List.getElem?_eq_some_iff.mp at_r).1
    intro k r' at_k
    rw [List.getElem?_append] at at_k
    split at at_k
    · obtain ⟨i', a', at_k', at_i', at_r'⟩ := h.paired k r' at_k
      exact ⟨i', a', at_k', at_i',
        Pool.get_set_of_ne at_r' at_r (P := Returned) rfl Bool.false_ne_true _⟩
    · have last : k = received.length := by
        have small := (List.getElem?_eq_some_iff.mp at_k).1
        rw [List.length_singleton] at small
        omega
      obtain rfl := List.mem_singleton.mp (List.mem_of_getElem? at_k)
      subst last
      exact ⟨i, a, next, at_i, List.getElem?_set_self bound⟩

end Ledger

/-- The distinguished receiver is not one that has yet to enter. -/
theorem ne_of_entering {pc pc' : Recv T} (only : Pool.Only RecvPassive r (.running pc') recvs)
    (inside : ¬ Entering pc') (at_i : recvs[i]? = some (.running pc)) (entering : Entering pc) :
    i ≠ r := by
  rintro rfl
  have same := Outcome.running.inj (Option.some.inj (at_i.symm.trans only.here))
  exact inside (same ▸ entering)

theorem opens_eq_false {pc : Recv T} {o : Outcome (Recv T) T}
    (not_opened : pc ≠ .acquire ∨ o ≠ .running .publish) : opens pc o = false := by
  simp only [opens]
  split
  · simp at not_opened
  · rfl

/-- A step that neither opens the channel nor returns. -/
theorem afterRecv_eq {pc : Recv T} {channel : SignalChannel T} {o : Outcome (Recv T) T}
    (not_opened : pc ≠ .acquire ∨ o ≠ .running .publish) (quiet : o.isReturned = false) :
    s.afterRecv spec i pc channel o =
      { s with channel, recvs := s.recvs.set i (o.map spec.decode) } := by
  simp only [afterRecv, opens_eq_false not_opened, quiet, Bool.false_eq_true, if_false]

/-- A receiver that stays outside changes nothing but itself. -/
theorem Phase.recv_outside {pc : Recv T} {o : Outcome (Recv T) T} (h : Phase spec s)
    (at_i : s.recvs[i]? = some (.running pc)) (entering : Entering pc)
    (quiet : o = .running .acquire ∨ o = .threw alreadyWaiting) :
    Phase spec (s.afterRecv spec i pc s.channel o) := by
  have passive : RecvPassive (o.map spec.decode) := by
    obtain rfl | rfl := quiet
    · exact .inr rfl
    · trivial
  rw [afterRecv_eq (.inr (by obtain rfl | rfl := quiet <;> nofun))
    (by obtain rfl | rfl := quiet <;> rfl)]
  cases h with
  | free closed recvs sends balance => exact .free closed (recvs.set passive) sends balance
  | opened link inside opener recvs sends balance =>
      have ne := ne_of_entering recvs inside at_i entering
      exact .opened link inside opener (recvs.set_other ne passive) sends balance
  | caught link inside opener recvs sends balance =>
      have ne := ne_of_entering recvs (link.state_eq_sig inside).2 at_i entering
      exact .caught link inside opener (recvs.set_other ne passive) sends balance
  | delivered delivered opener recvs sends next balance sent =>
      have ne := ne_of_entering recvs delivered.not_entering at_i entering
      exact .delivered delivered opener (recvs.set_other ne passive) sends next balance sent

/-- A step of a receiver. -/
theorem Phase.recv {pc : Recv T} {channel : SignalChannel T} {o : Outcome (Recv T) T}
    (h : Phase spec s) (ledger : Ledger spec s.recvs s.sends s.sent s.received)
    (at_i : s.recvs[i]? = some (.running pc))
    (taken : s.channel.recvStep spurious pc = some (channel, o)) :
    Phase spec (s.afterRecv spec i pc channel o) ∧
      Ledger spec (s.recvs.set i (o.map spec.decode)) s.sends s.sent
        (if o.isReturned then s.received ++ [i] else s.received) := by
  -- a receiver outside a channel in use
  have outside (busy : s.channel.state ≠ .idle) (entering : Entering pc) :
      Phase spec (s.afterRecv spec i pc channel o) ∧
        Ledger spec (s.recvs.set i (o.map spec.decode)) s.sends s.sent
          (if o.isReturned then s.received ++ [i] else s.received) := by
    obtain ⟨rfl, quiet⟩ := recv_entering_busy busy entering taken
    refine ⟨h.recv_outside at_i entering quiet, ?_⟩
    obtain rfl | rfl := quiet <;> exact ledger.recv at_i rfl
  cases id h with
  | free closed recvs sends balance =>
      obtain ⟨rfl, rfl⟩ | ⟨rfl, rfl, link⟩ := closed.recv_entering (recvs.get at_i) taken
      · exact ⟨h.recv_outside at_i (recvs.get at_i) (.inl rfl), ledger.recv at_i rfl⟩
      · refine ⟨?_, ledger.recv at_i rfl⟩
        exact .opened link (by simp [Entering]) rfl (recvs.only at_i) sends balance
  | opened link inside opener recvs sends balance =>
      by_cases entering : Entering pc
      · exact outside (by rw [link.state_eq_wait inside]; decide) entering
      · obtain ⟨rfl, same⟩ := recvs.eq_of_not at_i entering
        cases same
        obtain ⟨pc', rfl, link'⟩ := link.recv taken
        obtain ⟨inside', not_acquire⟩ := recvStep_inside inside taken
        refine ⟨?_, ledger.recv at_i rfl⟩
        rw [afterRecv_eq (.inl not_acquire) rfl]
        exact .opened link' inside' opener recvs.set sends balance
  | caught link inside opener recvs sends balance =>
      obtain ⟨busy, past⟩ := link.state_eq_sig inside
      by_cases entering : Entering pc
      · exact outside (by rw [busy]; decide) entering
      · obtain ⟨rfl, same⟩ := recvs.eq_of_not at_i entering
        cases same
        obtain ⟨pc', rfl, link'⟩ := link.recv taken
        obtain ⟨_, not_acquire⟩ := recvStep_inside past taken
        refine ⟨?_, ledger.recv at_i rfl⟩
        rw [afterRecv_eq (.inl not_acquire) rfl]
        exact .caught link' inside opener recvs.set sends balance
  | delivered delivered opener recvs sends next balance sent =>
      by_cases entering : Entering pc
      · exact outside (by rw [delivered.state]; decide) entering
      · obtain ⟨rfl, same⟩ := recvs.eq_of_not at_i entering
        cases same
        obtain ⟨pc', rfl, delivered'⟩ | ⟨rfl, closed⟩ := delivered.recv taken
        · have not_acquire : pc ≠ .acquire := fun same => entering (.inr same)
          refine ⟨?_, ledger.recv at_i rfl⟩
          rw [afterRecv_eq (.inl not_acquire) rfl]
          exact .delivered delivered' opener recvs.set sends next balance sent
        · refine ⟨?_, ledger.receive at_i next sent⟩
          refine .free closed (recvs.all_set trivial) sends ?_
          change s.sent.length = (s.received ++ [i]).length
          rw [balance, List.length_append, List.length_singleton]

/-- A sender that is refused changes nothing but itself. -/
theorem Phase.trySend_refused (h : Phase spec s)
    (at_i : s.sends[i]? = some (a, .running .acquire)) :
    Phase spec (s.afterSend i a s.channel (.returned false)) := by
  cases h with
  | free closed recvs sends balance => exact .free closed recvs (sends.set trivial) balance
  | opened link inside opener recvs sends balance =>
      exact .opened link inside opener recvs (sends.set trivial) balance
  | @caught r pc j b send link inside opener recvs sends balance =>
      have ne : i ≠ j := by
        rintro rfl
        have same := Option.some.inj (at_i.symm.trans sends.here)
        exact inside (Outcome.running.inj (Prod.mk.inj same).2).symm
      exact .caught link inside opener recvs (sends.set_other ne trivial) balance
  | delivered delivered opener recvs sends next balance sent =>
      have kept := Pool.get_set_of_ne sent at_i (P := Sent) rfl (by rintro ⟨⟩) (a, .returned false)
      exact .delivered delivered opener recvs (sends.set trivial) next balance kept

/-- A step of a sender. -/
theorem Phase.trySend {pc : Send} {channel : SignalChannel T} {o : Outcome Send Bool}
    (h : Phase spec s) (ledger : Ledger spec s.recvs s.sends s.sent s.received)
    (at_i : s.sends[i]? = some (a, .running pc))
    (taken : s.channel.trySendStep spurious (spec.encode a) pc = (channel, o)) :
    Phase spec (s.afterSend i a channel o) ∧
      Ledger spec s.recvs (s.sends.set i (a, o))
        (if o = .returned true then s.sent ++ [i] else s.sent) s.received := by
  -- a sender at its exchange while no receiver waits
  have refused (not_wait : s.channel.state ≠ .wait) (entering : pc = .acquire) :
      Phase spec (s.afterSend i a channel o) ∧
        Ledger spec s.recvs (s.sends.set i (a, o))
          (if o = .returned true then s.sent ++ [i] else s.sent) s.received := by
    subst entering
    obtain ⟨rfl, rfl⟩ := SignalChannel.trySend_refused not_wait taken
    exact ⟨h.trySend_refused at_i, ledger.trySend at_i nofun⟩
  cases id h with
  | free closed recvs sends balance =>
      exact refused (by rw [closed.state]; decide) (sends.get at_i)
  | opened link inside opener recvs sends balance =>
      obtain rfl : pc = .acquire := sends.get at_i
      obtain ⟨rfl, rfl⟩ | ⟨rfl, link'⟩ := link.trySend_acquire taken
      · exact ⟨h.trySend_refused at_i, ledger.trySend at_i nofun⟩
      · refine ⟨?_, ledger.trySend at_i nofun⟩
        exact .caught link' nofun opener recvs (sends.only at_i) balance
  | caught link inside opener recvs sends balance =>
      by_cases entering : pc = .acquire
      · exact refused (by rw [(link.state_eq_sig inside).1]; decide) entering
      · obtain ⟨rfl, same⟩ := sends.eq_of_not at_i entering
        cases same
        obtain ⟨pc', rfl, link'⟩ | ⟨_, same, _⟩ | ⟨rfl, delivered⟩ := link.trySend taken
        · refine ⟨?_, ledger.trySend at_i nofun⟩
          exact .caught link' (trySendStep_inside inside taken) opener recvs sends.set balance
        · exact absurd same inside
        · have bound := (List.getElem?_eq_some_iff.mp at_i).1
          refine ⟨?_, ledger.send at_i⟩
          refine .delivered delivered opener recvs (sends.all_set trivial) ?_ ?_
            (List.getElem?_set_self bound)
          · change (s.sent ++ [i])[s.received.length]? = some i
            rw [← balance, List.getElem?_concat_length]
          · change (s.sent ++ [i]).length = s.received.length + 1
            rw [List.length_append, balance, List.length_singleton]
  | delivered delivered opener recvs sends next balance sent =>
      exact refused (by rw [delivered.state]; decide) (sends.get at_i)

/-- The invariant of a channel under any use. -/
structure Invariant (spec : Specialisation T A R) (s : SignalSystem T A R) : Prop where
  phase : Phase spec s
  ledger : Ledger spec s.recvs s.sends s.sent s.received

namespace Invariant

theorem initial : Invariant spec {} where
  phase := .free ⟨rfl, rfl⟩ Pool.all_nil Pool.all_nil rfl
  ledger := .nil

theorem step {action : SignalAction A} (h : Invariant spec s)
    (enabled : s.step spec action = some t) : Invariant spec t := by
  cases action with
  | callRecv =>
      obtain rfl := Option.some.inj enabled
      refine ⟨?_, h.ledger.callRecv⟩
      have passive : RecvPassive (.running .check : Outcome (Recv T) R) := .inl rfl
      cases h.phase with
      | free closed recvs sends balance =>
          exact .free closed (Pool.all_append_singleton.mpr ⟨recvs, passive⟩) sends balance
      | opened link inside opener recvs sends balance =>
          exact .opened link inside opener (recvs.append passive) sends balance
      | caught link inside opener recvs sends balance =>
          exact .caught link inside opener (recvs.append passive) sends balance
      | delivered delivered opener recvs sends next balance sent =>
          exact .delivered delivered opener (recvs.append passive) sends next balance sent
  | callTrySend value =>
      obtain rfl := Option.some.inj enabled
      refine ⟨?_, h.ledger.callTrySend value⟩
      have passive : SendPassive (value, .running .acquire) := rfl
      cases h.phase with
      | free closed recvs sends balance =>
          exact .free closed recvs (Pool.all_append_singleton.mpr ⟨sends, passive⟩) balance
      | opened link inside opener recvs sends balance =>
          exact .opened link inside opener recvs (Pool.all_append_singleton.mpr ⟨sends, passive⟩)
            balance
      | caught link inside opener recvs sends balance =>
          exact .caught link inside opener recvs (sends.append passive) balance
      | delivered delivered opener recvs sends next balance sent =>
          exact .delivered delivered opener recvs (Pool.all_append_singleton.mpr ⟨sends, passive⟩)
            next balance (Pool.get_append sent _)
  | recv i spurious =>
      obtain ⟨pc, channel, o, at_i, taken, rfl⟩ := step_recv enabled
      obtain ⟨phase, ledger⟩ := h.phase.recv h.ledger at_i taken
      exact ⟨phase, ledger⟩
  | trySend i spurious =>
      obtain ⟨value, pc, channel, o, at_i, taken, rfl⟩ := step_trySend enabled
      obtain ⟨phase, ledger⟩ := h.phase.trySend h.ledger at_i taken
      exact ⟨phase, ledger⟩

theorem of_run {actions : List (SignalAction A)}
    (run : Run (SignalSystem.step spec) unguarded {} actions s) : Invariant spec s :=
  run.invariant initial fun _ _ _ h _ enabled => h.step enabled

end Invariant

/-- Receiver `r` has returned `result`, after the receivers that had returned before. -/
def Receives (received : List Nat) (r : Nat) (result : R) (t : SignalSystem T A R) : Prop :=
  t.recvs[r]? = some (.returned result) ∧ t.received = received ++ [r]

/-- A value that has been set is returned, by steps of its receiver alone. -/
theorem canReceive {pc : Recv T} (delivered : Delivered s.channel (spec.encode a) pc)
    (at_r : s.recvs[r]? = some (.running pc)) :
    CanReach (SignalSystem.step spec) (fun _ action => ∃ spurious, action = .recv r spurious)
      (Receives s.received r (spec.decode (spec.encode a))) s := by
  apply CanReach.of_rank (n := pc.exitRank) (I := fun n t =>
    (t.received = s.received ∧ ∃ pc, t.recvs[r]? = some (.running pc) ∧
      Delivered t.channel (spec.encode a) pc ∧ pc.exitRank = n) ∨
    Receives s.received r (spec.decode (spec.encode a)) t)
  · rintro n t inside unfinished
    obtain ⟨same, pc, at_r, delivered, rfl⟩ := inside.resolve_right unfinished
    have bound := (List.getElem?_eq_some_iff.mp at_r).1
    obtain ⟨channel, pc', taken, closer⟩ | ⟨channel, taken⟩ := delivered.progress
    · refine ⟨.recv r false, _, pc'.exitRank, ⟨false, rfl⟩, recv_step at_r taken, ?_, closer⟩
      · obtain ⟨_, running, delivered'⟩ | ⟨returned, _⟩ := delivered.recv taken
        · cases running
          exact .inl ⟨same, pc', List.getElem?_set_self bound, delivered', rfl⟩
        · cases returned
    · refine ⟨.recv r false, _, 0, ⟨false, rfl⟩, recv_step at_r taken, .inr ⟨?_, ?_⟩,
        delivered.exitRank_pos⟩
      · exact List.getElem?_set_self bound
      · exact congrArg (· ++ [r]) same
  · exact .inl ⟨rfl, pc, at_r, delivered, rfl⟩

/-- What the users of a channel can rely on. -/
structure ExactlyOnce (spec : Specialisation T A R) (s : SignalSystem T A R) : Prop where
  sentLog : Pool.Logged Sent s.sent s.sends
  receivedLog : Pool.Logged Returned s.received s.recvs
  paired : Paired spec s.recvs s.sends s.sent s.received
  /-- at most one value is set and not returned yet; its receiver will return it -/
  underWay : s.sent.length = s.received.length ∨ s.sent.length = s.received.length + 1 ∧
    ∃ (i r : Nat) (a : A) (pc : Recv T), s.sent[s.received.length]? = some i ∧
      s.sends[i]? = some (a, .returned true) ∧ s.opener = some r ∧
      s.recvs[r]? = some (.running pc) ∧
      CanReach (SignalSystem.step spec) (fun _ action => ∃ spurious, action = .recv r spurious)
        (Receives s.received r (spec.decode (spec.encode a))) s
  /-- neither is a promise set twice nor an invalid pointer used -/
  sends : ∀ (i : Nat) (a : A) fault, s.sends[i]? ≠ some (a, .threw fault)
  /-- the pointer is to the promise of the receiver that opened the channel, which waits on it -/
  pointer : ∀ (i : Nat) (a : A), s.sends[i]? = some (a, .running .set) → ∃ r p,
    s.opener = some r ∧ s.recvs[r]? = some (.running (.get p)) ∧
    s.channel.receiverPtr = some p ∧ s.channel.promises[p]? = some none
  throws : ∀ r spurious t fault, s.step spec (.recv r spurious) = some t →
    t.recvs[r]? = some (.threw fault) → fault = alreadyWaiting ∧ t.channel = s.channel

theorem Phase.not_threw (h : Phase spec s) (fault : Fault) :
    s.sends[i]? ≠ some (a, .threw fault) := by
  intro at_i
  cases h with
  | free _ _ sends | opened _ _ _ _ sends | delivered _ _ _ sends => exact sends.get at_i
  | caught _ _ _ _ sends => cases (sends.eq_of_not at_i nofun).2

theorem Phase.pointer (h : Phase spec s) (at_i : s.sends[i]? = some (a, .running .set)) :
    ∃ r p, s.opener = some r ∧ s.recvs[r]? = some (.running (.get p)) ∧
      s.channel.receiverPtr = some p ∧ s.channel.promises[p]? = some none := by
  cases h with
  | free _ _ sends | opened _ _ _ _ sends | delivered _ _ _ sends => cases sends.get at_i
  | caught link _ opener recvs sends =>
      cases (sends.eq_of_not at_i nofun).2
      cases link with
      | closed _ _ outside | opened _ _ outside | published _ _ _ outside =>
          simp [Outside] at outside
      | answered _ pointer empty => exact ⟨_, _, opener, recvs.here, pointer, empty⟩

theorem throws_unchanged {fault : Fault} (enabled : s.step spec (.recv r spurious) = some t)
    (threw : t.recvs[r]? = some (.threw fault)) :
    fault = alreadyWaiting ∧ t.channel = s.channel := by
  obtain ⟨pc, channel, o, at_r, taken, rfl⟩ := step_recv enabled
  have bound := (List.getElem?_eq_some_iff.mp at_r).1
  have outcome := Option.some.inj ((List.getElem?_set_self bound).symm.trans threw)
  cases o with
  | threw fault' =>
      cases outcome
      exact recvStep_threw taken
  | running => cases outcome
  | returned => cases outcome

theorem Invariant.exactlyOnce (h : Invariant spec s) : s.ExactlyOnce spec where
  sentLog := h.ledger.sentLog
  receivedLog := h.ledger.receivedLog
  paired := h.ledger.paired
  underWay := by
    cases h.phase with
    | free _ _ _ balance => exact .inl balance
    | opened _ _ _ _ _ balance => exact .inl balance
    | caught _ _ _ _ _ balance => exact .inl balance
    | delivered delivered opener recvs _ next balance sent =>
        exact .inr ⟨balance, _, _, _, _, next, sent, opener, recvs.here,
          canReceive delivered recvs.here⟩
  sends := fun _ _ fault => h.phase.not_threw fault
  pointer := fun _ _ at_i => h.phase.pointer at_i
  throws := fun _ _ _ _ enabled threw => throws_unchanged enabled threw

end SignalSystem

/-- Any use of a channel, of either kind, is an exactly-once rendezvous. -/
theorem signal_channel_exactly_once :
    (∀ (T : Type) actions s, Run (SignalSystem.step (.primary T)) unguarded {} actions s →
      s.ExactlyOnce (.primary T)) ∧
    ∀ actions s, Run (SignalSystem.step .void) unguarded {} actions s → s.ExactlyOnce .void :=
  ⟨fun _ _ _ run => (SignalSystem.Invariant.of_run run).exactlyOnce,
    fun _ _ run => (SignalSystem.Invariant.of_run run).exactlyOnce⟩

/-- A sender that is refused, and one that is caught while a second receiver finds
the channel in use. -/
def oneRendezvous : List (SignalAction Unit) :=
  [.callRecv, .callTrySend (), .callTrySend (), .trySend 0 false, .recv 0 false, .recv 0 true,
    .recv 0 false, .callRecv, .recv 1 false, .trySend 1 false, .trySend 1 false, .recv 0 false,
    .trySend 1 false, .trySend 1 false, .recv 0 false, .recv 0 false, .recv 0 false]

theorem signal_channel_exactly_once_one :
    ∃ s, Run (SignalSystem.step .void) unguarded {} oneRendezvous s ∧
      s.recvs = [.returned (), .threw alreadyWaiting] ∧ s.received = [0] ∧ s.sent = [1] ∧
      s.ExactlyOnce .void := by
  have run : Run (SignalSystem.step .void) unguarded {} oneRendezvous _ :=
    Run.of_exec (by decide)
  exact ⟨_, run, by decide, by decide, by decide, signal_channel_exactly_once.2 _ _ run⟩

end Vee
