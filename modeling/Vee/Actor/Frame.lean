import Vee.Actor.Basic

/-!
# What a step does and leaves alone

The channel calls change nothing but `_sigch`, and neither `kill` nor `respawn`
touches the mailbox, the counter or the history. A step of the system is a step
of one call or thread.
-/

namespace Vee

open SignalChannel

/-- Mailbox, counter and history agree. -/
structure SameMails (a a' : Actor) : Prop where
  mailbox : a'.mailbox = a.mailbox
  mailboxCounter : a'.mailboxCounter = a.mailboxCounter
  accepted : a'.accepted = a.accepted
  ran : a'.ran = a.ran

namespace Actor

variable {P : Type} {a a' : Actor} {spurious : Bool} {p : P}

/-- What a step of a sending loop is. -/
theorem trySendLoop_inv {value : Sigid} {pc : Send} {running : Send → P} {sent : P}
    {threw : Fault → P} (h : a.trySendLoop spurious value pc running sent threw = (a', p)) :
    ∃ sigch, a' = { a with sigch } ∧
      ((∃ pc', p = running pc') ∨ p = sent ∨ ∃ fault, p = threw fault) := by
  simp only [trySendLoop] at h
  split at h <;> obtain ⟨rfl, rfl⟩ := Prod.mk.inj h
  · exact ⟨_, rfl, .inl ⟨_, rfl⟩⟩
  · exact ⟨_, rfl, .inl ⟨_, rfl⟩⟩
  · exact ⟨_, rfl, .inr (.inl rfl)⟩
  · exact ⟨_, rfl, .inr (.inr ⟨_, rfl⟩)⟩

/-- What a step of a receiving call is. -/
theorem recvCall_inv {pc : Recv Sigid} {running : Recv Sigid → P} {received : Sigid → P}
    {threw : Fault → P} (h : a.recvCall spurious pc running received threw = some (a', p)) :
    ∃ sigch, a' = { a with sigch } ∧
      ((∃ pc', p = running pc') ∨ (∃ value, p = received value) ∨ ∃ fault, p = threw fault) := by
  simp only [recvCall] at h
  split at h
  · cases h
  · obtain ⟨rfl, rfl⟩ := Prod.mk.inj (Option.some.inj h)
    exact ⟨_, rfl, .inl ⟨_, rfl⟩⟩
  · obtain ⟨rfl, rfl⟩ := Prod.mk.inj (Option.some.inj h)
    exact ⟨_, rfl, .inr (.inl ⟨_, rfl⟩)⟩
  · obtain ⟨rfl, rfl⟩ := Prod.mk.inj (Option.some.inj h)
    exact ⟨_, rfl, .inr (.inr ⟨_, rfl⟩)⟩

/-- A kill changes the state word only by its exchange, from IDLE to DEAD. -/
theorem killStep_frame {pc pc' : Kill} (h : a.killStep spurious pc = some (a', pc')) :
    SameMails a a' ∧
      (a'.state = a.state ∨ pc = .casDead ∧ a.state = .idle ∧ a'.state = .dead) := by
  cases pc with
  | storeWorkable =>
      obtain ⟨rfl, rfl⟩ := Prod.mk.inj (Option.some.inj h)
      exact ⟨⟨rfl, rfl, rfl, rfl⟩, .inl rfl⟩
  | casDead =>
      simp only [killStep] at h
      split at h <;> obtain ⟨rfl, rfl⟩ := Prod.mk.inj (Option.some.inj h)
      · exact ⟨⟨rfl, rfl, rfl, rfl⟩, .inr ⟨rfl, ‹_›, rfl⟩⟩
      · exact ⟨⟨rfl, rfl, rfl, rfl⟩, .inl rfl⟩
  | detach =>
      simp only [killStep] at h
      split at h <;> obtain ⟨rfl, rfl⟩ := Prod.mk.inj (Option.some.inj h)
      all_goals exact ⟨⟨rfl, rfl, rfl, rfl⟩, .inl rfl⟩
  | sendGoExit send =>
      obtain ⟨sigch, rfl, _⟩ := trySendLoop_inv (Option.some.inj h)
      exact ⟨⟨rfl, rfl, rfl, rfl⟩, .inl rfl⟩
  | recvExitOk ack =>
      obtain ⟨sigch, rfl, _⟩ := recvCall_inv h
      exact ⟨⟨rfl, rfl, rfl, rfl⟩, .inl rfl⟩
  | returned => simp [killStep] at h
  | threw => simp [killStep] at h

/-- A spawn changes the state word only from DEAD to SPAWN. -/
theorem spawnStep_frame {fresh : Nat} {pc pc' : Spawn}
    (h : a.spawnStep fresh spurious pc = some (a', pc')) :
    SameMails a a' ∧ (a'.state = a.state ∨ a.state = .dead ∧ a'.state = .spawn) := by
  cases pc with
  | casSpawn =>
      simp only [spawnStep] at h
      split at h <;> obtain ⟨rfl, rfl⟩ := Prod.mk.inj (Option.some.inj h)
      · exact ⟨⟨rfl, rfl, rfl, rfl⟩, .inr ⟨‹_›, rfl⟩⟩
      · exact ⟨⟨rfl, rfl, rfl, rfl⟩, .inl rfl⟩
  | start =>
      obtain ⟨rfl, rfl⟩ := Prod.mk.inj (Option.some.inj h)
      exact ⟨⟨rfl, rfl, rfl, rfl⟩, .inl rfl⟩
  | recvSpawn t ack =>
      obtain ⟨sigch, rfl, _⟩ := recvCall_inv h
      exact ⟨⟨rfl, rfl, rfl, rfl⟩, .inl rfl⟩
  | swap t =>
      simp only [spawnStep] at h
      split at h <;> obtain ⟨rfl, rfl⟩ := Prod.mk.inj (Option.some.inj h)
      all_goals exact ⟨⟨rfl, rfl, rfl, rfl⟩, .inl rfl⟩
  | returned => simp [spawnStep] at h
  | threw => simp [spawnStep] at h

/-- A request changes the state word only by its exchange, from IDLE to PROC. -/
theorem requestStep_state {mail : Mail} {pc pc' : Request}
    (h : a.requestStep mail spurious pc = some (a', pc')) :
    a'.state = a.state ∨ a'.state = .proc := by
  cases pc with
  | enqueue =>
      simp only [requestStep] at h
      split at h <;> obtain ⟨rfl, rfl⟩ := Prod.mk.inj (Option.some.inj h)
      all_goals exact .inl rfl
  | casProc =>
      simp only [requestStep] at h
      split at h <;> obtain ⟨rfl, rfl⟩ := Prod.mk.inj (Option.some.inj h)
      · exact .inr rfl
      · exact .inl rfl
  | sendActive send =>
      obtain ⟨sigch, rfl, _⟩ := trySendLoop_inv (Option.some.inj h)
      exact .inl rfl
  | checkWorkable | checkDead | count =>
      obtain ⟨rfl, rfl⟩ := Prod.mk.inj (Option.some.inj h)
      exact .inl rfl
  | returned => simp [requestStep] at h
  | threw => simp [requestStep] at h

/-- A thread step takes mails out of the mailbox only, and the state word is DEAD
after it only if it stored DEAD or found it. -/
theorem mainStep_frame {pc pc' : Main}
    (h : a.mainStep spurious pc = some (a', pc')) :
    (∀ mail ∈ a'.mailbox, mail ∈ a.mailbox) ∧
      (a'.state = .dead → a.state = .dead ∨ pc = .storeDead) := by
  cases pc with
  | checkSpawn =>
      simp only [mainStep] at h
      split at h <;> obtain ⟨rfl, rfl⟩ := Prod.mk.inj (Option.some.inj h)
      all_goals exact ⟨fun _ mem => mem, fun dead => .inl dead⟩
  | storeLoaded | storeIdle =>
      obtain ⟨rfl, rfl⟩ := Prod.mk.inj (Option.some.inj h)
      exact ⟨fun _ mem => mem, fun dead => by cases dead⟩
  | storeDead =>
      obtain ⟨rfl, rfl⟩ := Prod.mk.inj (Option.some.inj h)
      exact ⟨fun _ mem => mem, fun _ => .inr rfl⟩
  | sendSpawn send | sendExitOk send =>
      obtain ⟨sigch, rfl, _⟩ := trySendLoop_inv (Option.some.inj h)
      exact ⟨fun _ mem => mem, fun dead => .inl dead⟩
  | recv wait =>
      obtain ⟨sigch, rfl, _⟩ := recvCall_inv h
      exact ⟨fun _ mem => mem, fun dead => .inl dead⟩
  | dequeue =>
      cases mailbox : a.mailbox with
      | nil =>
          simp only [mainStep, mailbox, Option.some.injEq, Prod.mk.injEq] at h
          obtain ⟨rfl, rfl⟩ := h
          exact ⟨fun _ mem => mailbox ▸ mem, fun dead => .inl dead⟩
      | cons job rest =>
          simp only [mainStep, mailbox, Option.some.injEq, Prod.mk.injEq] at h
          obtain ⟨rfl, rfl⟩ := h
          exact ⟨fun _ mem => List.mem_cons_of_mem _ mem, fun dead => .inl dead⟩
  | storeWorkable | run | uncount =>
      obtain ⟨rfl, rfl⟩ := Prod.mk.inj (Option.some.inj h)
      exact ⟨fun _ mem => mem, fun dead => .inl dead⟩
  | casIdle =>
      simp only [mainStep] at h
      split at h <;> obtain ⟨rfl, rfl⟩ := Prod.mk.inj (Option.some.inj h)
      · exact ⟨fun _ mem => mem, fun dead => by cases dead⟩
      · exact ⟨fun _ mem => mem, fun dead => .inl dead⟩
  | ended => simp [mainStep] at h
  | threw => simp [mainStep] at h

end Actor

namespace System

variable {s t : System} {i : Nat} {spurious : Bool}

/-- What a request step of the system is. -/
theorem step_request (h : s.step (.request i spurious) = some t) :
    ∃ pc a' pc', s.requests[i]? = some pc ∧ s.actor.requestStep i spurious pc = some (a', pc') ∧
      t = { s with actor := a', requests := s.requests.set i pc' } := by
  simp only [step] at h
  split at h
  · cases h
  · split at h
    · cases h
    · exact ⟨_, _, _, ‹_›, ‹_›, (Option.some.inj h).symm⟩

theorem step_kill (h : s.step (.kill i spurious) = some t) :
    ∃ pc a' pc', s.kills[i]? = some pc ∧ s.actor.killStep spurious pc = some (a', pc') ∧
      t = { s with actor := a', kills := s.kills.set i pc' } := by
  simp only [step] at h
  split at h
  · cases h
  · split at h
    · cases h
    · exact ⟨_, _, _, ‹_›, ‹_›, (Option.some.inj h).symm⟩

theorem step_spawn (h : s.step (.spawn i spurious) = some t) :
    ∃ pc a' pc', s.spawns[i]? = some pc ∧
      s.actor.spawnStep s.mains.length spurious pc = some (a', pc') ∧
      t = { s with
        actor := a'
        spawns := s.spawns.set i pc'
        mains := if pc = .start then s.mains ++ [.checkSpawn] else s.mains } := by
  simp only [step] at h
  split at h
  · cases h
  · split at h
    · cases h
    · exact ⟨_, _, _, ‹_›, ‹_›, (Option.some.inj h).symm⟩

theorem step_main (h : s.step (.main i spurious) = some t) :
    ∃ pc a' pc', s.mains[i]? = some pc ∧ s.actor.mainStep spurious pc = some (a', pc') ∧
      t = { s with actor := a', mains := s.mains.set i pc' } := by
  simp only [step] at h
  split at h
  · cases h
  · split at h
    · cases h
    · exact ⟨_, _, _, ‹_›, ‹_›, (Option.some.inj h).symm⟩

end System
end Vee
