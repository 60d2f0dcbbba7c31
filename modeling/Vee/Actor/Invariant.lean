import Vee.Actor.History
import Vee.Transition.Basic

/-!
# The invariant of an actor in orderly use

Control, account and history together are kept by every orderly step, so they
hold at the end of every orderly run from the constructor. This is the only
place where the steps of the different parties are put together.
-/

namespace Vee

open SignalChannel Transition

variable {cur : Main} {holder : Holder} {total : Nat}

/-- The invariant of an actor in orderly use. -/
structure Invariant (s : System) (cur : Main) (holder : Holder) (total : Nat) : Prop where
  control : Control s cur holder
  account : Account s.actor s.requests cur total
  history : History s.actor s.requests cur

theorem Invariant.constructing (mailboxSize : Nat) :
    Invariant (System.constructing mailboxSize) .ended (.spawn 0 .start) 0 where
  control := .constructing mailboxSize
  account := ⟨rfl, rfl, by simp, by simp [tickets, waiting, activation, System.constructing]⟩
  history :=
    ⟨rfl, List.nodup_nil, by simp [System.constructing], by simp [System.constructing]⟩

namespace Invariant

variable {s : System} {a' : Actor} {i : Nat} {spurious : Bool}

theorem request {pc pc' : Request} (h : Invariant s cur holder total)
    (at_i : s.requests[i]? = some pc)
    (step : s.actor.requestStep i spurious pc = some (a', pc')) :
    ∃ holder' total',
      Invariant { s with actor := a', requests := s.requests.set i pc' } cur holder' total' ∧
      (¬ pc.Passive → holder' = pc'.holder i) := by
  obtain ⟨holder', control, held⟩ := h.control.request at_i step
  have rest : s.actor.state = .idle → cur ≠ .casIdle := by
    rintro idle rfl
    simp [(h.control.phase.inEpoch trivial).1] at idle
  obtain ⟨total', account⟩ := h.account.request at_i rest step
  exact ⟨holder', total', ⟨control, account, h.history.request at_i step⟩, held⟩

theorem kill {pc pc' : Kill} (h : Invariant s cur holder total) (at_i : s.kills[i]? = some pc)
    (step : s.actor.killStep spurious pc = some (a', pc')) :
    ∃ holder', Invariant { s with actor := a', kills := s.kills.set i pc' } cur holder' total ∧
      (¬ pc.Passive → holder' = pc'.holder i) := by
  obtain ⟨holder', control, held⟩ := h.control.kill at_i step
  exact ⟨holder', ⟨control, h.account.kill step,
    h.history.sameMails (Actor.killStep_frame step).1⟩, held⟩

theorem spawn {pc pc' : Spawn} (h : Invariant s cur holder total) (at_i : s.spawns[i]? = some pc)
    (orderly : Orderly s (.spawn i spurious))
    (step : s.actor.spawnStep s.mains.length spurious pc = some (a', pc')) :
    ∃ cur' holder', Invariant { s with
        actor := a'
        spawns := s.spawns.set i pc'
        mains := if pc = .start then s.mains ++ [.checkSpawn] else s.mains } cur' holder' total ∧
      (¬ pc.Passive → holder' = pc'.holder i) ∧
      (cur' = cur ∧ pc ≠ .start ∨ cur = .ended ∧ cur' = .checkSpawn ∧ pc = .start) := by
  obtain ⟨cur', holder', control, held, point⟩ := h.control.spawn at_i orderly step
  have account := h.account.spawn step
  have history := h.history.sameMails (Actor.spawnStep_frame step).1
  refine ⟨cur', holder', ⟨control, ?_, ?_⟩, held, point⟩
  · obtain ⟨rfl, _⟩ | ⟨rfl, rfl, _⟩ := point
    · exact account
    · exact account.checkSpawn
  · obtain ⟨rfl, _⟩ | ⟨rfl, rfl, _⟩ := point
    · exact history
    · exact history.congr rfl rfl rfl

theorem main {pc pc' : Main} (h : Invariant s cur holder total) (at_i : s.mains[i]? = some pc)
    (step : s.actor.mainStep spurious pc = some (a', pc')) :
    pc = cur ∧ ∃ total',
      Invariant { s with actor := a', mains := s.mains.set i pc' } pc' holder total' := by
  have running : pc ≠ .ended := by
    rintro rfl
    simp [Actor.mainStep] at step
  obtain ⟨rfl, _⟩ := h.control.main_eq_cur at_i running
  have nonempty : pc = .dequeue → s.actor.mailbox ≠ [] := by
    rintro rfl
    exact h.account.mailbox_ne_nil (h.control.phase.inEpoch trivial).1
  obtain ⟨total', account⟩ := h.account.main h.control.phase step
  exact ⟨rfl, total', h.control.main at_i nonempty step, account, h.history.main step⟩

/-- Every step in orderly use keeps the invariant. -/
theorem step {t : System} {action : Action} (h : Invariant s cur holder total)
    (orderly : Orderly s action) (enabled : s.step action = some t) :
    ∃ cur' holder' total', Invariant t cur' holder' total' := by
  cases action with
  | callRequest =>
      have control := h.control.call (.inl rfl) orderly enabled
      obtain rfl := Option.some.inj enabled
      exact ⟨cur, holder, total, control, h.account.callRequest, h.history.callRequest⟩
  | callKill =>
      have control := h.control.call (.inr (.inl rfl)) orderly enabled
      obtain rfl := Option.some.inj enabled
      exact ⟨cur, holder, total, control, h.account, h.history⟩
  | callRespawn =>
      have control := h.control.call (.inr (.inr rfl)) orderly enabled
      obtain rfl := Option.some.inj enabled
      exact ⟨cur, holder, total, control, h.account, h.history⟩
  | request i spurious =>
      obtain ⟨pc, a', pc', at_i, taken, rfl⟩ := System.step_request enabled
      obtain ⟨holder', total', h', _⟩ := h.request at_i taken
      exact ⟨cur, holder', total', h'⟩
  | kill i spurious =>
      obtain ⟨pc, a', pc', at_i, taken, rfl⟩ := System.step_kill enabled
      obtain ⟨holder', h', _⟩ := h.kill at_i taken
      exact ⟨cur, holder', total, h'⟩
  | spawn i spurious =>
      obtain ⟨pc, a', pc', at_i, taken, rfl⟩ := System.step_spawn enabled
      obtain ⟨cur', holder', h', _⟩ := h.spawn at_i orderly taken
      exact ⟨cur', holder', total, h'⟩
  | main i spurious =>
      obtain ⟨pc, a', pc', at_i, taken, rfl⟩ := System.step_main enabled
      obtain ⟨_, total', h'⟩ := h.main at_i taken
      exact ⟨pc', holder, total', h'⟩

/-- When a kill returns, the actor is dead and its thread has no more than the
last store to do. -/
theorem kill_returns {pc : Kill} {result : Bool}
    (h : Invariant s cur holder total) (at_i : s.kills[i]? = some pc)
    (step : s.actor.killStep spurious pc = some (a', .returned result)) :
    s.actor.state = .dead ∧ (cur = .storeDead ∨ cur = .ended) := by
  cases pc with
  | recvExitOk ack =>
      obtain rfl := h.control.holds.eq_kill at_i (fun passive => passive)
      simp only [Actor.killStep] at step
      cases h.control.phase with
      | stopped _ _ delivered entering =>
          cases (Actor.recvCall_entering delivered entering step).2
      | exiting _ _ link =>
          obtain ⟨_, _, _, same, _⟩ := Actor.recvCall_link link step
          cases same
      | exited dead _ _ gone => exact ⟨dead, gone⟩
  | sendGoExit send =>
      obtain ⟨_, _, ⟨_, same⟩ | same | ⟨_, same⟩⟩ := Actor.trySendLoop_inv (Option.some.inj step)
      all_goals cases same
  | _ =>
      simp only [Actor.killStep] at step
      grind

end Invariant

/-- The invariant holds after every orderly run. -/
theorem Invariant.of_run {mailboxSize : Nat} {s : System} {actions : List Action}
    (run : Run System.step Orderly (.constructing mailboxSize) actions s) :
    ∃ cur holder total, Invariant s cur holder total := by
  refine run.invariant (I := fun s => ∃ cur holder total, Invariant s cur holder total)
    ⟨_, _, _, Invariant.constructing mailboxSize⟩ ?_
  rintro s a t ⟨cur, holder, total, h⟩ orderly enabled
  exact h.step orderly enabled

/-- Requests and kills begin once the constructor has returned, and there is no
respawn. -/
def NoRespawn (s : System) : Action → Prop
  | .callRequest => Pool.All (·.finished) s.spawns
  | .callKill => Pool.All (·.finished) s.spawns
  | .callRespawn => False
  | _ => True

/-- `_spawn` is entered by the constructor alone. -/
theorem casSpawn_of_spawnStep {a a' : Actor} {fresh : Nat} {spurious : Bool} {pc pc' : Spawn}
    (step : a.spawnStep fresh spurious pc = some (a', pc')) : pc' ≠ .casSpawn := by
  rintro rfl
  cases pc with
  | recvSpawn t ack =>
      obtain ⟨_, _, ⟨_, same⟩ | ⟨_, same⟩ | ⟨_, same⟩⟩ := Actor.recvCall_inv step
      · cases same
      · split at same <;> cases same
      · cases same
  | _ =>
      simp only [Actor.spawnStep] at step
      grind

/-- Use without respawn is orderly. -/
theorem NoRespawn.orderly {mailboxSize : Nat} {s : System} {actions : List Action}
    (run : Run System.step NoRespawn (.constructing mailboxSize) actions s) :
    Run System.step Orderly (.constructing mailboxSize) actions s := by
  refine run.strengthen (I := fun s => Pool.All (· ≠ .casSpawn) s.spawns) ?_ ?_
  · simp [System.constructing, Pool.All]
  · intro s a t entered admitted enabled
    cases a with
    | callRequest =>
        obtain rfl := Option.some.inj enabled
        exact ⟨admitted, entered⟩
    | callKill =>
        obtain rfl := Option.some.inj enabled
        exact ⟨admitted, entered⟩
    | callRespawn => exact admitted.elim
    | request i spurious =>
        obtain ⟨_, _, _, _, _, rfl⟩ := System.step_request enabled
        exact ⟨trivial, entered⟩
    | kill i spurious =>
        obtain ⟨_, _, _, _, _, rfl⟩ := System.step_kill enabled
        exact ⟨trivial, entered⟩
    | main i spurious =>
        obtain ⟨_, _, _, _, _, rfl⟩ := System.step_main enabled
        exact ⟨trivial, entered⟩
    | spawn i spurious =>
        obtain ⟨_, _, _, _, taken, rfl⟩ := System.step_spawn enabled
        exact ⟨fun at_i => absurd rfl (entered.get at_i),
          entered.set (casSpawn_of_spawnStep taken)⟩

end Vee
