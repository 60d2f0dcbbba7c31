import Vee.Actor.Control
import Vee.Actor.Frame

/-!
# Orderly steps keep the control invariant

One lemma for each party. A step at a passive point moves one call and leaves
the phase alone; a step of the holder or of the current thread moves the phase
along. The only step that needs more than control is `_epoch`'s dequeue, whose
empty branch the accounting of mails excludes.
-/

namespace Vee

open SignalChannel

namespace Actor

variable {P : Type} {a a' : Actor} {spurious : Bool} {value : Sigid}

/-- A linked sending loop goes on or has delivered its value. -/
theorem trySendLoop_cases {receiver : Recv Sigid} {pc : Send} {running : Send → P} {sent p : P}
    {threw : Fault → P} (link : Link a.sigch receiver (some pc))
    (h : a.trySendLoop spurious value pc running sent threw = (a', p)) :
    ∃ sigch, a' = { a with sigch } ∧
      ((∃ pc', p = running pc' ∧ Link sigch receiver (some pc')) ∨
        p = sent ∧ Delivered sigch value receiver) := by
  simp only [trySendLoop] at h
  rcases step : a.sigch.trySendStep spurious value pc with ⟨sigch, o⟩
  obtain ⟨pc', rfl, link'⟩ | ⟨rfl, rfl, rfl⟩ | ⟨rfl, delivered⟩ := link.trySend step
  · simp only [step, Prod.mk.injEq] at h
    exact ⟨sigch, h.1.symm, .inl ⟨pc', h.2.symm, link'⟩⟩
  · simp only [step, Prod.mk.injEq] at h
    exact ⟨_, h.1.symm, .inl ⟨.acquire, h.2.symm, link⟩⟩
  · simp only [step, Prod.mk.injEq] at h
    exact ⟨sigch, h.1.symm, .inr ⟨h.2.symm, delivered⟩⟩

variable {running : Recv Sigid → P} {received : Sigid → P} {threw : Fault → P} {p : P}
variable {pc other : Recv Sigid} {sender : Option Send}

/-- A linked receiver keeps waiting. -/
theorem recvCall_link (link : Link a.sigch pc sender)
    (h : a.recvCall spurious pc running received threw = some (a', p)) :
    ∃ sigch pc', a' = { a with sigch } ∧ p = running pc' ∧ Link sigch pc' sender := by
  simp only [recvCall] at h
  cases step : a.sigch.recvStep spurious pc with
  | none => simp [step] at h
  | some result =>
      obtain ⟨sigch, o⟩ := result
      obtain ⟨pc', rfl, link'⟩ := link.recv step
      simp only [step, Option.some.injEq, Prod.mk.injEq] at h
      exact ⟨sigch, pc', h.1.symm, h.2.symm, link'⟩

/-- A receiver that has been answered goes on to return the value. -/
theorem recvCall_delivered (delivered : Delivered a.sigch value pc)
    (h : a.recvCall spurious pc running received threw = some (a', p)) :
    ∃ sigch, a' = { a with sigch } ∧
      ((∃ pc', p = running pc' ∧ Delivered sigch value pc') ∨
        p = received value ∧ sigch.Closed) := by
  simp only [recvCall] at h
  cases step : a.sigch.recvStep spurious pc with
  | none => simp [step] at h
  | some result =>
      obtain ⟨sigch, o⟩ := result
      obtain ⟨pc', rfl, delivered'⟩ | ⟨rfl, closed⟩ := delivered.recv step
      · simp only [step, Option.some.injEq, Prod.mk.injEq] at h
        exact ⟨sigch, h.1.symm, .inl ⟨pc', h.2.symm, delivered'⟩⟩
      · simp only [step, Option.some.injEq, Prod.mk.injEq] at h
        exact ⟨sigch, h.1.symm, .inr ⟨h.2.symm, closed⟩⟩

/-- A second receiver spins until the first is done. -/
theorem recvCall_entering (delivered : Delivered a.sigch value other) (entering : Entering pc)
    (h : a.recvCall spurious pc running received threw = some (a', p)) :
    a' = a ∧ p = running .acquire := by
  simp only [recvCall] at h
  cases step : a.sigch.recvStep spurious pc with
  | none => simp [step] at h
  | some result =>
      obtain ⟨sigch, o⟩ := result
      obtain ⟨rfl, rfl⟩ := delivered.recv_entering entering step
      simp only [step, Option.some.injEq, Prod.mk.injEq] at h
      exact ⟨h.1.symm, h.2.symm⟩

end Actor

variable {a a' : Actor} {cur cur' : Main} {holder : Holder} {s : System} {i : Nat}
variable {spurious : Bool}

/-- A listening thread does not depend on the sender while it is outside. -/
theorem Listening.change_sender {sender sender' : Option Send} (h : Listening a cur sender)
    (outside : Outside sender) (outside' : Outside sender') : Listening a cur sender' := by
  cases h with
  | storeIdle closed => exact .storeIdle closed outside'
  | storeWorkable closed => exact .storeWorkable closed outside'
  | recv link => exact .recv (link.change_sender outside outside')

theorem Listening.congr {sender : Option Send} (h : Listening a cur sender)
    (sigch : a'.sigch = a.sigch) : Listening a' cur sender := by
  cases h with
  | storeIdle closed outside => exact .storeIdle (sigch ▸ closed) outside
  | storeWorkable closed outside => exact .storeWorkable (sigch ▸ closed) outside
  | recv link => exact .recv (sigch ▸ link)

/-- A sender that is entitled to the channel goes on sending until the current
thread has its value. -/
theorem Listening.trySendLoop {P : Type} {pc : Send} {value : Sigid} {running : Send → P}
    {sent p : P} {threw : Fault → P} (h : Listening a cur (some pc))
    (step : a.trySendLoop spurious value pc running sent threw = (a', p)) :
    ∃ sigch, a' = { a with sigch } ∧
      ((∃ pc', p = running pc' ∧ Listening { a with sigch } cur (some pc')) ∨
        p = sent ∧ ∃ receiver, cur = .recv receiver ∧ Delivered sigch value receiver) := by
  cases h with
  | recv link =>
      obtain ⟨sigch, same, ⟨pc', rfl, link'⟩ | ⟨rfl, delivered⟩⟩ :=
        Actor.trySendLoop_cases link step
      · exact ⟨sigch, same, .inl ⟨pc', rfl, .recv link'⟩⟩
      · exact ⟨sigch, same, .inr ⟨rfl, _, rfl, delivered⟩⟩
  | storeIdle closed outside =>
      obtain ⟨sigch, same, ⟨pc', rfl, link'⟩ | ⟨_, delivered⟩⟩ :=
        Actor.trySendLoop_cases (closed.link (.inl rfl) outside) step
      · cases link' with
        | closed closed' _ outside' =>
            exact ⟨sigch, same, .inl ⟨pc', rfl, .storeIdle closed' outside'⟩⟩
      · cases delivered
  | storeWorkable closed outside =>
      obtain ⟨sigch, same, ⟨pc', rfl, link'⟩ | ⟨_, delivered⟩⟩ :=
        Actor.trySendLoop_cases (closed.link (.inl rfl) outside) step
      · cases link' with
        | closed closed' _ outside' =>
            exact ⟨sigch, same, .inl ⟨pc', rfl, .storeWorkable closed' outside'⟩⟩
      · cases delivered

/-- A thread step between the greeting and the next signal. Only the store of
IDLE changes the state word. -/
theorem Listening.main {sender : Option Send} (h : Listening a cur sender)
    (step : a.mainStep spurious cur = some (a', cur')) :
    Listening a' cur' sender ∧ cur' ≠ .storeIdle ∧ a'.thread = a.thread ∧
      a'.state = if cur = .storeIdle then .idle else a.state := by
  cases h with
  | storeIdle closed outside =>
      simp only [Actor.mainStep, Option.some.injEq, Prod.mk.injEq] at step
      obtain ⟨rfl, rfl⟩ := step
      exact ⟨.storeWorkable closed outside, by simp, rfl, rfl⟩
  | storeWorkable closed outside =>
      simp only [Actor.mainStep, Option.some.injEq, Prod.mk.injEq] at step
      obtain ⟨rfl, rfl⟩ := step
      exact ⟨.recv (closed.link (.inl rfl) outside), by simp, rfl, rfl⟩
  | recv link =>
      obtain ⟨sigch, pc', rfl, rfl, link'⟩ := Actor.recvCall_link link step
      exact ⟨.recv link', by simp, rfl, rfl⟩

/-- The phase only depends on the channel, the state word and `_thread`. -/
theorem Phase.congr (h : Phase a cur holder) (sigch : a'.sigch = a.sigch)
    (state : a'.state = a.state) (thread : a'.thread = a.thread) : Phase a' cur holder := by
  have owned : a'.thread.isSome = a.thread.isSome := by rw [thread]
  cases h with
  | ready st th li => exact .ready (state.trans st) (owned.trans th) (li.congr sigch)
  | activating st ne th li =>
      exact .activating (state.trans st) ne (owned.trans th) (li.congr sigch)
  | activated st th d => exact .activated (state.trans st) (owned.trans th) (sigch ▸ d)
  | epoch st th c e => exact .epoch (state.trans st) (owned.trans th) (sigch ▸ c) e
  | claimed st ne th li => exact .claimed (state.trans st) ne (owned.trans th) (li.congr sigch)
  | stopping st ne th li => exact .stopping (state.trans st) ne (thread.trans th) (li.congr sigch)
  | stopped st th d e => exact .stopped (state.trans st) (thread.trans th) (sigch ▸ d) e
  | exiting st th l => exact .exiting (state.trans st) (thread.trans th) (sigch ▸ l)
  | exited st th d e => exact .exited (state.trans st) (thread.trans th) (sigch ▸ d) e
  | dead st th c e => exact .dead (state.trans st) (thread.trans th) (sigch ▸ c) e
  | starting st th c => exact .starting (state.trans st) (thread.trans th) (sigch ▸ c)
  | entering st th l e => exact .entering (state.trans st) (thread.trans th) (sigch ▸ l) e
  | greeting st th l => exact .greeting (state.trans st) (thread.trans th) (sigch ▸ l)
  | greeted st th d e => exact .greeted (state.trans st) (thread.trans th) (sigch ▸ d) e
  | swapping st th li => exact .swapping (state.trans st) (thread.trans th) (li.congr sigch)

theorem restState_eq_idle {cur : Main} : restState cur = .idle ↔ cur ≠ .storeIdle := by
  simp only [restState]
  split <;> simp_all

theorem restState_ne_proc (cur : Main) : restState cur ≠ .proc := by
  simp only [restState]
  split <;> simp

theorem restState_ne_dead (cur : Main) : restState cur ≠ .dead := by
  simp only [restState]
  split <;> simp

theorem Listening.not_inEpoch {sender : Option Send} (h : Listening a cur sender) :
    ¬ cur.InEpoch := by
  cases h <;> exact fun point => point

/-- Inside `_epoch` the state word is PROC, the channel is closed and nobody
holds the actor. -/
theorem Phase.inEpoch (h : Phase a cur holder) (point : cur.InEpoch) :
    a.state = .proc ∧ a.thread.isSome ∧ a.sigch.Closed ∧ holder = .nobody := by
  cases h with
  | epoch state thread closed => exact ⟨state, thread, closed, rfl⟩
  | ready _ _ listening => exact absurd point listening.not_inEpoch
  | activating _ _ _ listening => exact absurd point listening.not_inEpoch
  | claimed _ _ _ listening => exact absurd point listening.not_inEpoch
  | stopping _ _ _ listening => exact absurd point listening.not_inEpoch
  | swapping _ _ listening => exact absurd point listening.not_inEpoch
  | activated | stopped | exiting | starting | greeting => exact point.elim
  | exited _ _ _ gone => obtain rfl | rfl := gone <;> exact point.elim
  | dead _ _ _ gone => obtain rfl | rfl := gone <;> exact point.elim
  | entering _ _ _ gone => obtain rfl | rfl := gone <;> exact point.elim
  | greeted _ _ _ gone => obtain rfl | rfl | ⟨_, rfl, _⟩ := gone <;> exact point.elim

/-- The thread stores into the state word only while it is not PROC. -/
theorem Phase.not_proc (h : Phase a cur holder)
    (point : cur = .storeLoaded ∨ cur = .storeIdle ∨ cur = .storeDead) : a.state ≠ .proc := by
  intro proc
  cases h with
  | ready state | greeted state | swapping state =>
      exact restState_ne_proc cur (state.symm.trans proc)
  | activating _ started _ listening => cases listening <;> simp_all
  | activated => simp at point
  | epoch _ _ _ inside => obtain rfl | rfl | rfl := point <;> exact inside
  | claimed state | stopping state | stopped state | exiting state | exited state | dead state
  | starting state | entering state | greeting state => simp [proc] at state

/-- A thread about to store DEAD finds the actor DEAD. -/
theorem Phase.dead_of_storeDead (h : Phase a .storeDead holder) : a.state = .dead := by
  cases h with
  | exited dead => exact dead
  | dead dead => exact dead
  | ready _ _ listening => cases listening
  | activating _ _ _ listening => cases listening
  | claimed _ _ _ listening => cases listening
  | stopping _ _ _ listening => cases listening
  | swapping _ _ listening => cases listening
  | epoch _ _ _ point => exact point.elim
  | entering _ _ _ point => simp at point
  | greeted _ _ _ point => simp at point

/-- A step of the current thread keeps the holder and moves the phase along. -/
theorem Phase.main (h : Phase a cur holder) (nonempty : cur = .dequeue → a.mailbox ≠ [])
    (step : a.mainStep spurious cur = some (a', cur')) : Phase a' cur' holder := by
  cases h with
  | ready state thread listening =>
      obtain ⟨listening', started, sameThread, state'⟩ := listening.main step
      refine .ready ?_ (sameThread ▸ thread) listening'
      rw [state', state, restState_eq_idle.mpr started]
      simp only [restState]
      split <;> rfl
  | activating state started thread listening =>
      obtain ⟨listening', started', sameThread, state'⟩ := listening.main step
      rw [if_neg started] at state'
      exact .activating (state'.trans state) started' (sameThread ▸ thread) listening'
  | activated state thread delivered =>
      obtain ⟨sigch, rfl, ⟨pc', rfl, delivered'⟩ | ⟨rfl, closed⟩⟩ :=
        Actor.recvCall_delivered delivered step
      · exact .activated state thread delivered'
      · exact .epoch state thread closed trivial
  | epoch state thread closed point =>
      cases cur with
      | dequeue =>
          cases mailbox : a.mailbox with
          | nil => exact absurd mailbox (nonempty rfl)
          | cons job rest =>
              simp only [Actor.mainStep, mailbox, Option.some.injEq, Prod.mk.injEq] at step
              obtain ⟨rfl, rfl⟩ := step
              exact .epoch state thread closed trivial
      | run job =>
          simp only [Actor.mainStep, Option.some.injEq, Prod.mk.injEq] at step
          obtain ⟨rfl, rfl⟩ := step
          exact .epoch state thread closed trivial
      | uncount =>
          simp only [Actor.mainStep, Option.some.injEq, Prod.mk.injEq] at step
          obtain ⟨rfl, rfl⟩ := step
          exact .epoch state thread closed (by split <;> trivial)
      | casIdle =>
          simp only [Actor.mainStep, if_pos state, Option.some.injEq, Prod.mk.injEq] at step
          obtain ⟨rfl, rfl⟩ := step
          exact .ready rfl thread (.recv (closed.link (.inl rfl) (.inl rfl)))
      | _ => exact point.elim
  | claimed state started thread listening =>
      obtain ⟨listening', started', sameThread, state'⟩ := listening.main step
      rw [if_neg started] at state'
      exact .claimed (state'.trans state) started' (sameThread ▸ thread) listening'
  | stopping state started thread listening =>
      obtain ⟨listening', started', sameThread, state'⟩ := listening.main step
      rw [if_neg started] at state'
      exact .stopping (state'.trans state) started' (sameThread.trans thread) listening'
  | stopped state thread delivered ack =>
      obtain ⟨sigch, rfl, ⟨pc', rfl, delivered'⟩ | ⟨rfl, closed⟩⟩ :=
        Actor.recvCall_delivered delivered step
      · exact .stopped state thread delivered' ack
      · exact .exiting state thread (closed.link ack (.inr rfl))
  | exiting state thread link =>
      simp only [Actor.mainStep, Option.some.injEq] at step
      obtain ⟨sigch, rfl, ⟨send', rfl, link'⟩ | ⟨rfl, delivered⟩⟩ :=
        Actor.trySendLoop_cases link step
      · exact .exiting state thread link'
      · exact .exited state thread delivered (.inl rfl)
  | exited state thread delivered gone =>
      obtain rfl | rfl := gone
      · simp only [Actor.mainStep, Option.some.injEq, Prod.mk.injEq] at step
        obtain ⟨rfl, rfl⟩ := step
        exact .exited rfl thread delivered (.inr rfl)
      · simp [Actor.mainStep] at step
  | dead state thread closed gone =>
      obtain rfl | rfl := gone
      · simp only [Actor.mainStep, Option.some.injEq, Prod.mk.injEq] at step
        obtain ⟨rfl, rfl⟩ := step
        exact .dead rfl thread closed (.inr rfl)
      · simp [Actor.mainStep] at step
  | starting => simp [Actor.mainStep] at step
  | entering state thread link point =>
      obtain rfl | rfl := point
      · simp only [Actor.mainStep, if_pos state, Option.some.injEq, Prod.mk.injEq] at step
        obtain ⟨rfl, rfl⟩ := step
        exact .entering state thread link (.inr rfl)
      · simp only [Actor.mainStep, Option.some.injEq, Prod.mk.injEq] at step
        obtain ⟨rfl, rfl⟩ := step
        exact .greeting rfl thread (link.change_sender (.inl rfl) (.inr rfl))
  | greeting state thread link =>
      simp only [Actor.mainStep, Option.some.injEq] at step
      obtain ⟨sigch, rfl, ⟨send', rfl, link'⟩ | ⟨rfl, delivered⟩⟩ :=
        Actor.trySendLoop_cases link step
      · exact .greeting state thread link'
      · exact .greeted state thread delivered (.inl rfl)
  | greeted state thread delivered point =>
      obtain rfl | rfl | ⟨wait, rfl, entering⟩ := point
      · simp only [Actor.mainStep, Option.some.injEq, Prod.mk.injEq] at step
        obtain ⟨rfl, rfl⟩ := step
        exact .greeted rfl thread delivered (.inr (.inl rfl))
      · simp only [Actor.mainStep, Option.some.injEq, Prod.mk.injEq] at step
        obtain ⟨rfl, rfl⟩ := step
        exact .greeted state thread delivered (.inr (.inr ⟨_, rfl, .inl rfl⟩))
      · obtain ⟨rfl, rfl⟩ := Actor.recvCall_entering delivered entering step
        exact .greeted state thread delivered (.inr (.inr ⟨_, rfl, .inr rfl⟩))
  | swapping state thread listening =>
      obtain ⟨listening', started, sameThread, state'⟩ := listening.main step
      refine .swapping ?_ (sameThread.trans thread) listening'
      rw [state', state, restState_eq_idle.mpr started]
      simp only [restState]
      split <;> rfl

namespace Holds

/-- A passive step of a request that stays passive. -/
theorem request {pc pc' : Request} (h : Holds s holder) (at_i : s.requests[i]? = some pc)
    (passive : pc.Passive) (passive' : pc'.Passive) :
    Holds { s with actor := a, requests := s.requests.set i pc' } holder := by
  cases holder with
  | nobody => exact ⟨h.1.set passive', h.2⟩
  | kill => exact ⟨h.1.set passive', h.2⟩
  | spawn => exact ⟨h.1.set passive', h.2⟩
  | request j send =>
      refine ⟨h.1.set_other ?_ passive', h.2⟩
      rintro rfl
      have same := Option.some.inj (at_i.symm.trans h.1.here)
      rw [same] at passive
      exact passive

/-- A passive step of a kill that stays passive. -/
theorem kill {pc' : Kill} (h : Holds s holder) (passive' : pc'.Passive)
    (other : ∀ q, holder ≠ .kill i q) :
    Holds { s with actor := a, kills := s.kills.set i pc' } holder := by
  cases holder with
  | nobody => exact ⟨h.1, h.2.1.set passive', h.2.2⟩
  | request => exact ⟨h.1, h.2.1.set passive', h.2.2⟩
  | spawn => exact ⟨h.1, h.2.1.set passive', h.2.2⟩
  | kill j q =>
      refine ⟨h.1, h.2.1.set_other ?_ passive', h.2.2⟩
      rintro rfl
      exact other q rfl

/-- A passive step of a spawn that stays passive. -/
theorem spawn {pc' : Spawn} (h : Holds s holder) (passive' : pc'.Passive)
    (other : ∀ q, holder ≠ .spawn i q) :
    Holds { s with actor := a, spawns := s.spawns.set i pc' } holder := by
  cases holder with
  | nobody => exact ⟨h.1, h.2.1, h.2.2.set passive'⟩
  | request => exact ⟨h.1, h.2.1, h.2.2.set passive'⟩
  | kill => exact ⟨h.1, h.2.1, h.2.2.set passive'⟩
  | spawn j q =>
      refine ⟨h.1, h.2.1, h.2.2.set_other ?_ passive'⟩
      rintro rfl
      exact other q rfl

/-- The call that is not passive is the holder. -/
theorem eq_request {send : Send} (h : Holds s holder)
    (at_i : s.requests[i]? = some (.sendActive send)) : holder = .request i send := by
  cases holder with
  | request j q =>
      obtain ⟨rfl, same⟩ := h.1.eq_of_not at_i (fun passive => passive)
      rw [Request.sendActive.inj same]
  | nobody => exact (h.1.get at_i).elim
  | kill => exact (h.1.get at_i).elim
  | spawn => exact (h.1.get at_i).elim

theorem eq_kill {pc : Kill} (h : Holds s holder) (at_i : s.kills[i]? = some pc)
    (active : ¬ pc.Passive) : holder = .kill i pc := by
  cases holder with
  | kill j q =>
      obtain ⟨rfl, rfl⟩ := h.2.1.eq_of_not at_i active
      rfl
  | nobody => exact absurd (h.2.1.get at_i) active
  | request => exact absurd (h.2.1.get at_i) active
  | spawn => exact absurd (h.2.1.get at_i) active

theorem eq_spawn {pc : Spawn} (h : Holds s holder) (at_i : s.spawns[i]? = some pc)
    (active : ¬ pc.Passive) : holder = .spawn i pc := by
  cases holder with
  | spawn j q =>
      obtain ⟨rfl, rfl⟩ := h.2.2.eq_of_not at_i active
      rfl
  | nobody => exact absurd (h.2.2.get at_i) active
  | request => exact absurd (h.2.2.get at_i) active
  | kill => exact absurd (h.2.2.get at_i) active

end Holds

namespace Control

/-- Outside `_spawn` the holder is a request, a kill or nobody. -/
theorem not_spawn (h : Control s cur holder) (spawns : Pool.All (·.finished) s.spawns)
    (k : Nat) (q : Spawn) : holder ≠ .spawn k q := by
  rintro rfl
  have finished : q.finished := spawns.get h.holds.2.2.here
  cases h.phase <;> simp [Spawn.finished] at finished

/-- An unfinished request or kill keeps `_spawn` away. -/
theorem spawns_finished_of_request {pc : Request} (h : Control s cur holder)
    (at_i : s.requests[i]? = some pc) (unfinished : pc.finished = false) :
    Pool.All (·.finished) s.spawns := by
  obtain spawns | ⟨requests, _⟩ := h.apart
  · exact spawns
  · simp [requests.get at_i] at unfinished

theorem spawns_finished_of_kill {pc : Kill} (h : Control s cur holder)
    (at_i : s.kills[i]? = some pc) (unfinished : pc.finished = false) :
    Pool.All (·.finished) s.spawns := by
  obtain spawns | ⟨_, kills⟩ := h.apart
  · exact spawns
  · simp [kills.get at_i] at unfinished

/-- An idle actor outside `_spawn` is claimed by nobody. -/
theorem ready_of_idle (h : Control s cur holder) (spawns : Pool.All (·.finished) s.spawns)
    (idle : s.actor.state = .idle) :
    holder = .nobody ∧ cur ≠ .storeIdle ∧ s.actor.thread.isSome ∧
      Listening s.actor cur none := by
  have noSpawn := h.not_spawn spawns
  cases h.phase with
  | ready state thread listening =>
      exact ⟨rfl, restState_eq_idle.mp (state.symm.trans idle), thread, listening⟩
  | activating state | activated state | epoch state | claimed state | stopping state
  | stopped state | exiting state | exited state | dead state =>
      simp [idle] at state
  | starting | entering | greeting | greeted | swapping => exact absurd rfl (noSpawn _ _)

/-- A request step keeps control. -/
theorem request {pc pc' : Request} (h : Control s cur holder) (at_i : s.requests[i]? = some pc)
    (step : s.actor.requestStep i spurious pc = some (a', pc')) :
    ∃ holder', Control { s with actor := a', requests := s.requests.set i pc' } cur holder' ∧
      (¬ pc.Passive → holder' = pc'.holder i) := by
  have unfinished : pc.finished = false := by
    cases pc <;> first | rfl | simp [Actor.requestStep] at step
  have spawns := h.spawns_finished_of_request at_i unfinished
  -- the passive steps leave channel, state word and thread alone
  have quiet : pc.Passive → pc'.Passive → a'.sigch = s.actor.sigch → a'.state = s.actor.state →
      a'.thread = s.actor.thread →
      ∃ holder', Control { s with actor := a', requests := s.requests.set i pc' } cur holder' ∧
        (¬ pc.Passive → holder' = pc'.holder i) :=
    fun passive passive' sigch state thread => ⟨holder, ⟨.inl spawns, h.current,
      h.holds.request at_i passive passive', h.phase.congr sigch state thread⟩,
      fun active => absurd passive active⟩
  cases pc with
  | checkWorkable =>
      simp only [Actor.requestStep, Option.some.injEq, Prod.mk.injEq] at step
      obtain ⟨rfl, rfl⟩ := step
      exact quiet trivial (by split <;> trivial) rfl rfl rfl
  | checkDead =>
      simp only [Actor.requestStep, Option.some.injEq, Prod.mk.injEq] at step
      obtain ⟨rfl, rfl⟩ := step
      exact quiet trivial (by split <;> trivial) rfl rfl rfl
  | enqueue =>
      simp only [Actor.requestStep] at step
      split at step <;> obtain ⟨rfl, rfl⟩ := Prod.mk.inj (Option.some.inj step)
      · exact quiet trivial trivial rfl rfl rfl
      · exact quiet trivial trivial rfl rfl rfl
  | count =>
      simp only [Actor.requestStep, Option.some.injEq, Prod.mk.injEq] at step
      obtain ⟨rfl, rfl⟩ := step
      exact quiet trivial (by split <;> trivial) rfl rfl rfl
  | casProc =>
      simp only [Actor.requestStep] at step
      split at step <;> obtain ⟨rfl, rfl⟩ := Prod.mk.inj (Option.some.inj step)
      · rename_i idle
        obtain ⟨rfl, started, thread, listening⟩ := h.ready_of_idle spawns idle
        refine ⟨.request i .acquire, ⟨.inl spawns, h.current, ?_, ?_⟩, fun _ => rfl⟩
        · exact ⟨h.holds.1.only at_i, h.holds.2⟩
        · exact .activating rfl started thread
            ((listening.change_sender (.inl rfl) (.inr rfl)).congr rfl)
      · exact quiet trivial trivial rfl rfl rfl
  | sendActive send =>
      obtain rfl := h.holds.eq_request at_i
      simp only [Actor.requestStep, Option.some.injEq] at step
      cases h.phase with
      | activating state started thread listening =>
          obtain ⟨sigch, rfl, ⟨send', rfl, listening'⟩ | ⟨rfl, receiver, rfl, delivered⟩⟩ :=
            listening.trySendLoop step
          · exact ⟨.request i send', ⟨.inl spawns, h.current, ⟨h.holds.1.set, h.holds.2⟩,
              .activating state started thread listening'⟩, fun _ => rfl⟩
          · exact ⟨.nobody, ⟨.inl spawns, h.current, ⟨h.holds.1.all_set trivial, h.holds.2⟩,
              .activated state thread delivered⟩, fun _ => rfl⟩
  | returned => simp [Actor.requestStep] at step
  | threw => simp [Actor.requestStep] at step

/-- A kill step keeps control. -/
theorem kill {pc pc' : Kill} (h : Control s cur holder) (at_i : s.kills[i]? = some pc)
    (step : s.actor.killStep spurious pc = some (a', pc')) :
    ∃ holder', Control { s with actor := a', kills := s.kills.set i pc' } cur holder' ∧
      (¬ pc.Passive → holder' = pc'.holder i) := by
  have unfinished : pc.finished = false := by
    cases pc <;> first | rfl | simp [Actor.killStep] at step
  have spawns := h.spawns_finished_of_kill at_i unfinished
  have notMine : pc = .storeWorkable ∨ pc = .casDead → ∀ q, holder ≠ .kill i q := by
    rintro passive q rfl
    obtain rfl := Option.some.inj (at_i.symm.trans h.holds.2.1.here)
    cases h.phase <;> simp at passive
  cases pc with
  | storeWorkable =>
      simp only [Actor.killStep, Option.some.injEq, Prod.mk.injEq] at step
      obtain ⟨rfl, rfl⟩ := step
      exact ⟨holder, ⟨.inl spawns, h.current, h.holds.kill trivial (notMine (.inl rfl)),
        h.phase.congr rfl rfl rfl⟩, fun active => absurd trivial active⟩
  | casDead =>
      simp only [Actor.killStep] at step
      split at step <;> obtain ⟨rfl, rfl⟩ := Prod.mk.inj (Option.some.inj step)
      · rename_i idle
        obtain ⟨rfl, started, thread, listening⟩ := h.ready_of_idle spawns idle
        exact ⟨.kill i .detach, ⟨.inl spawns, h.current,
          ⟨h.holds.1, h.holds.2.1.only at_i, h.holds.2.2⟩,
          .claimed rfl started thread (listening.congr rfl)⟩, fun _ => rfl⟩
      · exact ⟨holder, ⟨.inl spawns, h.current, h.holds.kill trivial (notMine (.inr rfl)), h.phase⟩,
          fun active => absurd trivial active⟩
  | detach =>
      obtain rfl := h.holds.eq_kill at_i (fun passive => passive)
      cases h.phase with
      | claimed state started thread listening =>
          simp only [Actor.killStep, if_pos thread, Option.some.injEq, Prod.mk.injEq] at step
          obtain ⟨rfl, rfl⟩ := step
          exact ⟨.kill i (.sendGoExit .acquire), ⟨.inl spawns, h.current,
            ⟨h.holds.1, h.holds.2.1.set, h.holds.2.2⟩,
            .stopping state started rfl
              ((listening.change_sender (.inl rfl) (.inr rfl)).congr rfl)⟩, fun _ => rfl⟩
  | sendGoExit send =>
      obtain rfl := h.holds.eq_kill at_i (fun passive => passive)
      simp only [Actor.killStep, Option.some.injEq] at step
      cases h.phase with
      | stopping state started thread listening =>
          obtain ⟨sigch, rfl, ⟨send', rfl, listening'⟩ | ⟨rfl, receiver, rfl, delivered⟩⟩ :=
            listening.trySendLoop step
          · exact ⟨.kill i (.sendGoExit send'), ⟨.inl spawns, h.current,
              ⟨h.holds.1, h.holds.2.1.set, h.holds.2.2⟩,
              .stopping state started thread listening'⟩, fun _ => rfl⟩
          · exact ⟨.kill i (.recvExitOk .check), ⟨.inl spawns, h.current,
              ⟨h.holds.1, h.holds.2.1.set, h.holds.2.2⟩,
              .stopped state thread delivered (.inl rfl)⟩, fun _ => rfl⟩
  | recvExitOk ack =>
      obtain rfl := h.holds.eq_kill at_i (fun passive => passive)
      simp only [Actor.killStep] at step
      cases h.phase with
      | stopped state thread delivered entering =>
          obtain ⟨rfl, rfl⟩ := Actor.recvCall_entering delivered entering step
          exact ⟨.kill i (.recvExitOk .acquire), ⟨.inl spawns, h.current,
            ⟨h.holds.1, h.holds.2.1.set, h.holds.2.2⟩,
            .stopped state thread delivered (.inr rfl)⟩, fun _ => rfl⟩
      | exiting state thread link =>
          obtain ⟨sigch, ack', rfl, rfl, link'⟩ := Actor.recvCall_link link step
          exact ⟨.kill i (.recvExitOk ack'), ⟨.inl spawns, h.current,
            ⟨h.holds.1, h.holds.2.1.set, h.holds.2.2⟩, .exiting state thread link'⟩, fun _ => rfl⟩
      | exited state thread delivered gone =>
          obtain ⟨sigch, rfl, ⟨ack', rfl, delivered'⟩ | ⟨rfl, closed⟩⟩ :=
            Actor.recvCall_delivered delivered step
          · exact ⟨.kill i (.recvExitOk ack'), ⟨.inl spawns, h.current,
              ⟨h.holds.1, h.holds.2.1.set, h.holds.2.2⟩,
              .exited state thread delivered' gone⟩, fun _ => rfl⟩
          · exact ⟨.nobody, ⟨.inl spawns, h.current,
              ⟨h.holds.1, h.holds.2.1.all_set trivial, h.holds.2.2⟩,
              .dead state thread closed gone⟩, fun _ => rfl⟩
  | returned => simp [Actor.killStep] at step
  | threw => simp [Actor.killStep] at step

/-- When all threads have ended, so has the current one. -/
theorem cur_eq_ended (h : Control s cur holder) (ended : Pool.All (· = .ended) s.mains) :
    cur = .ended := by
  obtain ⟨g, _, only⟩ | ⟨_, gone⟩ := h.current
  · exact ended.get only.here
  · exact gone

theorem mains_ended (h : Control s .ended holder) : Pool.All (· = .ended) s.mains := by
  obtain ⟨g, _, only⟩ | ⟨all, _⟩ := h.current
  · exact only.all rfl
  · exact all

/-- While every kill has returned, a dead actor is claimed by nobody. -/
theorem dead_of_state (h : Control s cur holder) (kills : Pool.All (·.finished) s.kills)
    (dead : s.actor.state = .dead) :
    holder = .nobody ∧ s.actor.thread = none ∧ s.actor.sigch.Closed := by
  have noKill : ∀ i q, holder = .kill i q → q.finished = true := by
    rintro i q rfl
    exact kills.get h.holds.2.1.here
  cases h.phase with
  | dead _ thread closed => exact ⟨rfl, thread, closed⟩
  | ready state | greeted state | swapping state =>
      exact absurd (state.symm.trans dead) (restState_ne_dead cur)
  | activating state | activated state | epoch state | starting state | entering state
  | greeting state => simp [dead] at state
  | claimed | stopping | stopped | exiting | exited =>
      simpa [Kill.finished] using noKill _ _ rfl

/-- A step of `respawn` or of `_spawn` keeps control. The current thread is
replaced only when `start` creates its successor. -/
theorem spawn {pc pc' : Spawn} (h : Control s cur holder) (at_i : s.spawns[i]? = some pc)
    (orderly : Orderly s (.spawn i spurious))
    (step : s.actor.spawnStep s.mains.length spurious pc = some (a', pc')) :
    ∃ cur' holder', Control { s with
        actor := a'
        spawns := s.spawns.set i pc'
        mains := if pc = .start then s.mains ++ [.checkSpawn] else s.mains } cur' holder' ∧
      (¬ pc.Passive → holder' = pc'.holder i) ∧
      (cur' = cur ∧ pc ≠ .start ∨ cur = .ended ∧ cur' = .checkSpawn ∧ pc = .start) := by
  have unfinished : pc.finished = false := by
    cases pc <;> first | rfl | simp [Actor.spawnStep] at step
  have others : Pool.All (·.finished) s.requests ∧ Pool.All (·.finished) s.kills := by
    obtain spawns | others := h.apart
    · simp [spawns.get at_i] at unfinished
    · exact others
  cases pc with
  | casSpawn =>
      simp only [Actor.spawnStep] at step
      split at step <;> obtain ⟨rfl, rfl⟩ := Prod.mk.inj (Option.some.inj step)
      · rename_i dead
        have ended := orderly at_i dead
        obtain rfl := h.cur_eq_ended ended
        obtain ⟨rfl, thread, closed⟩ := h.dead_of_state others.2 dead
        exact ⟨.ended, .spawn i .start, ⟨.inr others, h.current,
          ⟨h.holds.1, h.holds.2.1, h.holds.2.2.only at_i⟩, .starting rfl thread closed⟩,
          fun _ => rfl, .inl ⟨rfl, by simp⟩⟩
      · refine ⟨cur, holder, ⟨.inr others, h.current, h.holds.spawn trivial ?_, h.phase⟩,
          fun active => absurd trivial active, .inl ⟨rfl, by simp⟩⟩
        rintro q rfl
        obtain rfl := Option.some.inj (at_i.symm.trans h.holds.2.2.here)
        cases h.phase
  | start =>
      obtain rfl := h.holds.eq_spawn at_i (fun passive => passive)
      simp only [Actor.spawnStep, Option.some.injEq, Prod.mk.injEq] at step
      obtain ⟨rfl, rfl⟩ := step
      cases h.phase with
      | starting state thread closed =>
          refine ⟨.checkSpawn, .spawn i (.recvSpawn s.mains.length .check), ⟨.inr others, ?_,
            ⟨h.holds.1, h.holds.2.1, h.holds.2.2.set⟩,
            .entering state thread (closed.link (.inl rfl) (.inl rfl)) (.inl rfl)⟩,
            fun _ => rfl, .inr ⟨rfl, rfl, rfl⟩⟩
          exact .inl ⟨s.mains.length, by simp, h.mains_ended.only_append⟩
  | recvSpawn t ack =>
      obtain rfl := h.holds.eq_spawn at_i (fun passive => passive)
      simp only [Actor.spawnStep] at step
      cases h.phase with
      | entering state thread link point =>
          obtain ⟨sigch, ack', rfl, rfl, link'⟩ := Actor.recvCall_link link step
          exact ⟨cur, .spawn i (.recvSpawn t ack'), ⟨.inr others, h.current,
            ⟨h.holds.1, h.holds.2.1, h.holds.2.2.set⟩, .entering state thread link' point⟩,
            fun _ => rfl, .inl ⟨rfl, by simp⟩⟩
      | greeting state thread link =>
          obtain ⟨sigch, ack', rfl, rfl, link'⟩ := Actor.recvCall_link link step
          exact ⟨_, .spawn i (.recvSpawn t ack'), ⟨.inr others, h.current,
            ⟨h.holds.1, h.holds.2.1, h.holds.2.2.set⟩, .greeting state thread link'⟩,
            fun _ => rfl, .inl ⟨rfl, by simp⟩⟩
      | greeted state thread delivered point =>
          obtain ⟨sigch, rfl, ⟨ack', rfl, delivered'⟩ | ⟨rfl, closed⟩⟩ :=
            Actor.recvCall_delivered delivered step
          · exact ⟨cur, .spawn i (.recvSpawn t ack'), ⟨.inr others, h.current,
              ⟨h.holds.1, h.holds.2.1, h.holds.2.2.set⟩,
              .greeted state thread delivered' point⟩, fun _ => rfl, .inl ⟨rfl, by simp⟩⟩
          · refine ⟨cur, .spawn i (.swap t), ⟨.inr others, h.current,
              ⟨h.holds.1, h.holds.2.1, h.holds.2.2.set⟩, .swapping state thread ?_⟩,
              fun _ => rfl, .inl ⟨rfl, by simp⟩⟩
            obtain rfl | rfl | ⟨wait, rfl, entering⟩ := point
            · exact .storeIdle closed (.inl rfl)
            · exact .storeWorkable closed (.inl rfl)
            · exact .recv (closed.link entering (.inl rfl))
  | swap t =>
      obtain rfl := h.holds.eq_spawn at_i (fun passive => passive)
      cases h.phase with
      | swapping state thread listening =>
          simp only [Actor.spawnStep, if_pos thread, Option.some.injEq, Prod.mk.injEq] at step
          obtain ⟨rfl, rfl⟩ := step
          exact ⟨cur, .nobody, ⟨.inr others, h.current,
            ⟨h.holds.1, h.holds.2.1, h.holds.2.2.all_set trivial⟩,
            .ready state rfl (listening.congr rfl)⟩, fun _ => rfl, .inl ⟨rfl, by simp⟩⟩
  | returned => simp [Actor.spawnStep] at step
  | threw => simp [Actor.spawnStep] at step

/-- A current thread that has not ended is one of the threads. -/
theorem exists_main (h : Control s cur holder) (running : cur ≠ .ended) :
    ∃ g : Nat, s.mains[g]? = some cur := by
  obtain ⟨g, _, only⟩ | ⟨_, gone⟩ := h.current
  · exact ⟨g, only.here⟩
  · exact absurd gone running

/-- Only the current thread can take a step. -/
theorem main_eq_cur {pc : Main} (h : Control s cur holder) (at_i : s.mains[i]? = some pc)
    (running : pc ≠ .ended) : pc = cur ∧ i + 1 = s.mains.length := by
  obtain ⟨g, last, only⟩ | ⟨ended, _⟩ := h.current
  · obtain ⟨rfl, rfl⟩ := only.eq_of_not at_i running
    exact ⟨rfl, last⟩
  · exact absurd (ended.get at_i) running

/-- A thread step keeps control and the holder. -/
theorem main {pc pc' : Main} (h : Control s cur holder) (at_i : s.mains[i]? = some pc)
    (nonempty : cur = .dequeue → s.actor.mailbox ≠ [])
    (step : s.actor.mainStep spurious pc = some (a', pc')) :
    Control { s with actor := a', mains := s.mains.set i pc' } pc' holder := by
  have running : pc ≠ .ended := by
    rintro rfl
    simp [Actor.mainStep] at step
  obtain ⟨rfl, last⟩ := h.main_eq_cur at_i running
  refine ⟨h.apart, ?_, by cases holder <;> exact h.holds, h.phase.main nonempty step⟩
  obtain ⟨g, gLast, only⟩ | ⟨ended, _⟩ := h.current
  · obtain ⟨rfl, _⟩ := only.eq_of_not at_i running
    exact .inl ⟨i, by simpa using last, only.set⟩
  · exact absurd (ended.get at_i) running

/-- Beginning a call in orderly use keeps control. -/
theorem call {t : System} {action : Action} (h : Control s cur holder)
    (begins : action = .callRequest ∨ action = .callKill ∨ action = .callRespawn)
    (orderly : Orderly s action) (step : s.step action = some t) : Control t cur holder := by
  obtain rfl | rfl | rfl := begins
  · obtain rfl := Option.some.inj step
    refine ⟨.inl orderly, h.current, ?_, h.phase⟩
    cases holder with
    | request => exact ⟨h.holds.1.append trivial, h.holds.2⟩
    | _ => exact ⟨Pool.all_append_singleton.mpr ⟨h.holds.1, trivial⟩, h.holds.2⟩
  · obtain rfl := Option.some.inj step
    refine ⟨.inl orderly, h.current, ?_, h.phase⟩
    cases holder with
    | kill => exact ⟨h.holds.1, h.holds.2.1.append trivial, h.holds.2.2⟩
    | _ =>
        exact ⟨h.holds.1, Pool.all_append_singleton.mpr ⟨h.holds.2.1, trivial⟩, h.holds.2.2⟩
  · obtain rfl := Option.some.inj step
    refine ⟨.inr ⟨orderly.1, orderly.2.1⟩, h.current, ?_, h.phase⟩
    cases holder with
    | spawn => exact ⟨h.holds.1, h.holds.2.1, h.holds.2.2.append trivial⟩
    | _ =>
        exact ⟨h.holds.1, h.holds.2.1, Pool.all_append_singleton.mpr ⟨h.holds.2.2, trivial⟩⟩

/-- The constructor starts in control. -/
theorem constructing (mailboxSize : Nat) :
    Control (System.constructing mailboxSize) .ended (.spawn 0 .start) where
  apart := .inr ⟨Pool.all_nil, Pool.all_nil⟩
  current := .inr ⟨Pool.all_nil, rfl⟩
  holds := by
    refine ⟨Pool.all_nil, Pool.all_nil, rfl, ?_⟩
    intro j y at_j ne
    cases j with
    | zero => exact absurd rfl ne
    | succ => simp [System.constructing] at at_j
  phase := .starting rfl rfl ⟨rfl, rfl⟩

end Control

end Vee
