import Vee.Actor.Invariant
import Vee.Signal.Progress

/-!
# An actor comes to rest

Left to its current thread and to the call that holds it, an actor comes to rest:
nobody holds it, and its thread either waits for the next signal with the actor
IDLE or has ended with the actor DEAD. `rank` counts the steps that are left; in
every other state the invariant provides a step to a smaller rank.
-/

namespace Vee

open SignalChannel Transition

variable {s t : System} {cur cur' : Main} {holder : Holder} {total i : Nat} {a' : Actor}
variable {spurious : Bool}

/-- Steps of the actor threads and of calls that are past their claim on the actor. -/
def Drives (s : System) : Action → Prop
  | .request i _ => ∃ pc, s.requests[i]? = some pc ∧ ¬ pc.Passive
  | .kill i _ => ∃ pc, s.kills[i]? = some pc ∧ ¬ pc.Passive
  | .spawn i _ => ∃ pc, s.spawns[i]? = some pc ∧ ¬ pc.Passive
  | .main _ _ => True
  | _ => False

theorem Drives.orderly (s : System) (a : Action) (h : Drives s a) : Orderly s a := by
  cases a with
  | spawn i spurious =>
      obtain ⟨pc, at_i, active⟩ := h
      intro at_i'
      obtain rfl := Option.some.inj (at_i.symm.trans at_i')
      exact absurd trivial active
  | callRequest | callKill | callRespawn => exact h.elim
  | request | kill | main => trivial

/-- Steps until a started thread waits for its next signal. -/
def Main.listenRank : Main → Nat
  | .storeWorkable => 4
  | .recv pc => pc.entryRank
  | _ => 0

theorem Main.listenRank_le (cur : Main) : cur.listenRank ≤ 4 := by
  cases cur with
  | recv pc => exact Nat.le_trans pc.entryRank_le (by decide)
  | _ => simp [listenRank]

/-- Steps until the actor is at rest. Each mail takes three. -/
def Actor.rank (a : Actor) (cur : Main) : Holder → Nat
  | .nobody =>
      match cur with
      | .storeIdle => 2
      | .storeWorkable => 1
      | .recv pc => if a.state = .idle then 0 else pc.exitRank + 3 * a.mailbox.length + 2
      | .dequeue => 3 * a.mailbox.length + 2
      | .run _ => 3 * a.mailbox.length + 4
      | .uncount => 3 * a.mailbox.length + 3
      | .casIdle => 1
      | .storeDead => 1
      | _ => 0
  | .request _ send => send.rank + cur.listenRank + 3 * a.mailbox.length + 6
  | .kill _ (.sendGoExit send) => send.rank + cur.listenRank + 14
  | .kill _ (.recvExitOk ack) =>
      match cur with
      | .recv pc => pc.exitRank + 11
      | .sendExitOk send => send.rank + ack.entryRank + 5
      | _ => ack.exitRank + 2
  | .kill _ _ => 24
  | .spawn _ (.recvSpawn _ ack) =>
      match cur with
      | .checkSpawn => 19
      | .storeLoaded => 18
      | .sendSpawn send => send.rank + ack.entryRank + 10
      | _ => ack.exitRank + 6
  | .spawn _ (.swap _) => 4
  | .spawn _ _ => 20

/-- Nobody holds the actor, and its thread waits for a signal or has ended. -/
def AtRest (a : Actor) (cur : Main) (holder : Holder) : Prop :=
  holder = .nobody ∧ (a.state = .idle ∧ (∃ pc, cur = .recv pc) ∨ a.state = .dead ∧ cur = .ended)

/-- Some driving step leads to a rank below `n`. -/
def Closer (s : System) (n : Nat) : Prop :=
  ∃ a t cur' holder' total', Drives s a ∧ s.step a = some t ∧
    Invariant t cur' holder' total' ∧ t.actor.rank cur' holder' < n

namespace Actor

variable {P : Type} {a : Actor} {pc pc' : Recv Sigid} {send send' : Send} {value : Sigid}
variable {ch : SignalChannel Sigid}

theorem recvCall_running {running : Recv Sigid → P} {received : Sigid → P} {threw : Fault → P}
    (next : a.sigch.recvStep spurious pc = some (ch, .running pc')) :
    a.recvCall spurious pc running received threw = some ({ a with sigch := ch }, running pc') := by
  simp [recvCall, next]

theorem recvCall_returned {running : Recv Sigid → P} {received : Sigid → P} {threw : Fault → P}
    (next : a.sigch.recvStep spurious pc = some (ch, .returned value)) :
    a.recvCall spurious pc running received threw =
      some ({ a with sigch := ch }, received value) := by
  simp [recvCall, next]

theorem trySendLoop_running {running : Send → P} {sent : P} {threw : Fault → P}
    (next : a.sigch.trySendStep spurious value send = (ch, .running send')) :
    a.trySendLoop spurious value send running sent threw =
      ({ a with sigch := ch }, running send') := by
  simp [trySendLoop, next]

theorem trySendLoop_sent {running : Send → P} {sent : P} {threw : Fault → P}
    (next : a.sigch.trySendStep spurious value send = (ch, .returned true)) :
    a.trySendLoop spurious value send running sent threw = ({ a with sigch := ch }, sent) := by
  simp [trySendLoop, next]

end Actor

/-- A thread that listens and a sender that has claimed the actor: the thread comes
closer to its wait, or the sender comes closer to the delivery, or it delivers. -/
theorem Listening.progress {a : Actor} {send : Send} (h : Listening a cur (some send))
    (started : cur ≠ .storeIdle) (value : Sigid) :
    (∃ a' cur', a.mainStep false cur = some (a', cur') ∧ a'.mailbox = a.mailbox ∧
      cur'.listenRank < cur.listenRank) ∨
    (∃ ch' send', a.sigch.trySendStep false value send = (ch', .running send') ∧
      send'.rank < send.rank) ∨
    (∃ ch' pc, a.sigch.trySendStep false value send = (ch', .returned true) ∧ cur = .recv pc) := by
  cases h with
  | storeIdle => exact absurd rfl started
  | storeWorkable =>
      exact .inl ⟨_, _, rfl, rfl, by simp [Main.listenRank, Recv.entryRank]⟩
  | @recv pc _ link =>
      obtain ⟨ch', pc', next, less⟩ | ⟨ch', send', next, less⟩ | ⟨ch', next⟩ :=
        link.progress value
      · exact .inl ⟨_, _, Actor.recvCall_running next, rfl, less⟩
      · exact .inr (.inl ⟨ch', send', next, less⟩)
      · exact .inr (.inr ⟨ch', pc, next, rfl⟩)

namespace Invariant

theorem main_closer (h : Invariant s cur holder total)
    (step : s.actor.mainStep false cur = some (a', cur'))
    (less : a'.rank cur' holder < s.actor.rank cur holder) :
    Closer s (s.actor.rank cur holder) := by
  have running : cur ≠ .ended := by
    rintro rfl
    simp [Actor.mainStep] at step
  obtain ⟨g, at_g⟩ := h.control.exists_main running
  obtain ⟨_, total', h'⟩ := h.main at_g step
  refine ⟨.main g false, _, cur', holder, total', trivial, ?_, h', less⟩
  simp [System.step, at_g, step]

theorem request_closer {send : Send} {pc' : Request}
    (h : Invariant s cur (.request i send) total)
    (step : s.actor.requestStep i false (.sendActive send) = some (a', pc'))
    (less : a'.rank cur (pc'.holder i) < s.actor.rank cur (.request i send)) :
    Closer s (s.actor.rank cur (.request i send)) := by
  have at_i := h.control.holds.1.here
  obtain ⟨holder', total', h', held⟩ := h.request at_i step
  obtain rfl := held fun passive => passive
  refine ⟨.request i false, _, cur, _, total', ⟨_, at_i, fun passive => passive⟩, ?_, h', less⟩
  simp [System.step, at_i, step]

theorem kill_closer {pc pc' : Kill} (h : Invariant s cur (.kill i pc) total)
    (active : ¬ pc.Passive) (step : s.actor.killStep false pc = some (a', pc'))
    (less : a'.rank cur (pc'.holder i) < s.actor.rank cur (.kill i pc)) :
    Closer s (s.actor.rank cur (.kill i pc)) := by
  have at_i := h.control.holds.2.1.here
  obtain ⟨holder', h', held⟩ := h.kill at_i step
  obtain rfl := held active
  refine ⟨.kill i false, _, cur, _, total, ⟨_, at_i, active⟩, ?_, h', less⟩
  simp [System.step, at_i, step]

theorem spawn_closer {pc pc' : Spawn} (h : Invariant s cur (.spawn i pc) total)
    (active : ¬ pc.Passive) (step : s.actor.spawnStep s.mains.length false pc = some (a', pc'))
    (less : a'.rank (if pc = .start then .checkSpawn else cur) (pc'.holder i) <
      s.actor.rank cur (.spawn i pc)) :
    Closer s (s.actor.rank cur (.spawn i pc)) := by
  have at_i := h.control.holds.2.2.here
  have driving : Drives s (.spawn i false) := ⟨_, at_i, active⟩
  obtain ⟨cur', holder', h', held, point⟩ :=
    h.spawn at_i (Drives.orderly s (.spawn i false) driving) step
  obtain rfl := held active
  have thread : cur' = if pc = .start then .checkSpawn else cur := by
    obtain ⟨rfl, other⟩ | ⟨_, rfl, same⟩ := point
    · rw [if_neg other]
    · rw [if_pos same]
  refine ⟨.spawn i false, _, cur', _, total, driving, ?_, h', thread ▸ less⟩
  simp [System.step, at_i, step]

/-- `_epoch` settles one mail after the other. -/
theorem epoch_closer (h : Invariant s cur .nobody total) (state : s.actor.state = .proc)
    (point : cur.InEpoch) : Closer s (s.actor.rank cur .nobody) := by
  cases cur with
  | dequeue =>
      have nonempty := h.account.mailbox_ne_nil state
      cases mailbox : s.actor.mailbox with
      | nil => exact absurd mailbox nonempty
      | cons job rest =>
          have step : s.actor.mainStep false .dequeue =
              some ({ s.actor with mailbox := rest }, .run job) := by
            simp [Actor.mainStep, mailbox]
          refine h.main_closer step ?_
          simp only [Actor.rank, mailbox, List.length_cons]
          omega
  | run job =>
      refine h.main_closer rfl ?_
      simp [Actor.rank]
  | uncount =>
      refine h.main_closer rfl ?_
      split <;> simp [Actor.rank]
  | casIdle =>
      have step : s.actor.mainStep false .casIdle =
          some ({ s.actor with state := .idle }, .recv .check) := by
        simp [Actor.mainStep, state]
      refine h.main_closer step ?_
      simp [Actor.rank]
  | _ => exact point.elim

/-- In every state that is not at rest the current thread or the holder has a
step that brings the actor closer to rest. -/
theorem closer (h : Invariant s cur holder total) (busy : ¬ AtRest s.actor cur holder) :
    Closer s (s.actor.rank cur holder) := by
  cases h.control.phase with
  | ready state thread listening =>
      cases listening with
      | storeIdle =>
          refine h.main_closer rfl ?_
          simp [Actor.rank]
      | storeWorkable =>
          refine h.main_closer rfl ?_
          simp [Actor.rank, state, restState]
      | recv => exact absurd ⟨rfl, .inl ⟨by simpa [restState] using state, _, rfl⟩⟩ busy
  | activating state started thread listening =>
      obtain ⟨a', cur', next, mailbox, less⟩ | ⟨ch', send', next, less⟩ | ⟨ch', pc, next, rfl⟩ :=
        listening.progress started .active
      · refine h.main_closer next ?_
        simpa [Actor.rank, mailbox] using less
      · refine h.request_closer (congrArg some (Actor.trySendLoop_running next)) ?_
        simpa [Actor.rank, Request.holder] using less
      · refine h.request_closer (congrArg some (Actor.trySendLoop_sent next)) ?_
        have := pc.exitRank_le
        simp only [Actor.rank, Request.holder, state, reduceCtorEq, if_false]
        omega
  | activated state thread delivered =>
      have pos := delivered.exitRank_pos
      obtain ⟨ch', pc', next, less⟩ | ⟨ch', next⟩ := delivered.progress
      · refine h.main_closer (Actor.recvCall_running next) ?_
        simpa [Actor.rank, state] using less
      · refine h.main_closer (Actor.recvCall_returned next) ?_
        simp only [Actor.rank, state, reduceCtorEq, if_false]
        omega
  | epoch state thread closed point => exact h.epoch_closer state point
  | claimed state started thread listening =>
      have step : s.actor.killStep false .detach =
          some ({ s.actor with thread := none }, .sendGoExit .acquire) := by
        simp [Actor.killStep, thread]
      refine h.kill_closer (fun passive => passive) step ?_
      have := cur.listenRank_le
      simp only [Actor.rank, Kill.holder, Send.rank]
      omega
  | stopping state started thread listening =>
      rename_i i send
      obtain ⟨a', cur', next, _, less⟩ | ⟨ch', send', next, less⟩ | ⟨ch', pc, next, rfl⟩ :=
        listening.progress started .goExit
      · refine h.main_closer next ?_
        simpa [Actor.rank] using less
      · refine h.kill_closer (fun passive => passive)
          (congrArg some (Actor.trySendLoop_running next)) ?_
        simpa [Actor.rank, Kill.holder] using less
      · refine h.kill_closer (fun passive => passive)
          (congrArg some (Actor.trySendLoop_sent next)) ?_
        have := pc.exitRank_le
        have := send.rank_pos
        simp only [Actor.rank, Kill.holder]
        omega
  | stopped state thread delivered ack =>
      rename_i pc i ack'
      have pos := delivered.exitRank_pos
      have := ack'.entryRank_le
      obtain ⟨ch', pc', next, less⟩ | ⟨ch', next⟩ := delivered.progress
      · refine h.main_closer (Actor.recvCall_running next) ?_
        simpa [Actor.rank] using less
      · refine h.main_closer (Actor.recvCall_returned next) ?_
        simp only [Actor.rank, Send.rank]
        omega
  | exiting state thread link =>
      rename_i send i ack
      rcases link.progress .exitOk with
        ⟨ch', ack', next, less⟩ | ⟨ch', send', next, less⟩ | ⟨ch', next⟩
      · refine h.kill_closer (fun passive => passive) (Actor.recvCall_running next) ?_
        simpa [Actor.rank, Kill.holder] using less
      · refine h.main_closer (congrArg some (Actor.trySendLoop_running next)) ?_
        simpa [Actor.rank] using less
      · refine h.main_closer (congrArg some (Actor.trySendLoop_sent next)) ?_
        have := ack.exitRank_le
        have := send.rank_pos
        simp only [Actor.rank]
        omega
  | exited state thread delivered gone =>
      have pos := delivered.exitRank_pos
      obtain ⟨ch', ack', next, less⟩ | ⟨ch', next⟩ := delivered.progress
      · refine h.kill_closer (fun passive => passive) (Actor.recvCall_running next) ?_
        obtain rfl | rfl := gone <;> simpa [Actor.rank, Kill.holder] using less
      · refine h.kill_closer (fun passive => passive) (Actor.recvCall_returned next) ?_
        obtain rfl | rfl := gone <;> simp only [Actor.rank, Kill.holder, if_true] <;> omega
  | dead state thread closed gone =>
      obtain rfl | rfl := gone
      · refine h.main_closer rfl ?_
        simp [Actor.rank]
      · exact absurd ⟨rfl, .inr ⟨state, rfl⟩⟩ busy
  | starting =>
      refine h.spawn_closer (fun passive => passive) rfl ?_
      simp [Actor.rank, Spawn.holder]
  | entering state thread link point =>
      rename_i i t ack
      obtain rfl | rfl := point
      · have step : s.actor.mainStep false .checkSpawn = some (s.actor, .storeLoaded) := by
          simp [Actor.mainStep, state]
        refine h.main_closer step ?_
        simp [Actor.rank]
      · refine h.main_closer rfl ?_
        have := ack.entryRank_le
        simp only [Actor.rank, Send.rank]
        omega
  | greeting state thread link =>
      rename_i send i t ack
      rcases link.progress .spawn with
        ⟨ch', ack', next, less⟩ | ⟨ch', send', next, less⟩ | ⟨ch', next⟩
      · refine h.spawn_closer (fun passive => passive) (Actor.recvCall_running next) ?_
        simpa [Actor.rank, Spawn.holder] using less
      · refine h.main_closer (congrArg some (Actor.trySendLoop_running next)) ?_
        simpa [Actor.rank] using less
      · refine h.main_closer (congrArg some (Actor.trySendLoop_sent next)) ?_
        have := ack.exitRank_le
        have := send.rank_pos
        simp only [Actor.rank]
        omega
  | greeted state thread delivered point =>
      have pos := delivered.exitRank_pos
      obtain ⟨ch', ack', next, less⟩ | ⟨ch', next⟩ := delivered.progress
      · refine h.spawn_closer (fun passive => passive) (Actor.recvCall_running next) ?_
        obtain rfl | rfl | ⟨wait, rfl, _⟩ := point <;>
          simpa [Actor.rank, Spawn.holder] using less
      · refine h.spawn_closer (fun passive => passive) (Actor.recvCall_returned next) ?_
        obtain rfl | rfl | ⟨wait, rfl, _⟩ := point <;>
          simp only [Actor.rank, Spawn.holder, if_true] <;> omega
  | swapping state thread listening =>
      rename_i i t
      have step : s.actor.spawnStep s.mains.length false (.swap t) =
          some ({ s.actor with thread := some t }, .returned true) := by
        simp [Actor.spawnStep, thread]
      refine h.spawn_closer (fun passive => passive) step ?_
      cases listening with
      | storeIdle | storeWorkable => simp [Actor.rank, Spawn.holder]
      | recv => simp [Actor.rank, Spawn.holder, state, restState]

/-- From every state in orderly use, driving steps lead the actor to rest. -/
theorem comes_to_rest (h : Invariant s cur holder total) :
    CanReach System.step Drives (fun t => ∃ cur holder total,
      Invariant t cur holder total ∧ AtRest t.actor cur holder) s := by
  refine CanReach.of_rank (I := fun n s => ∃ cur holder total, Invariant s cur holder total ∧
    s.actor.rank cur holder = n) ?_ ⟨cur, holder, total, h, rfl⟩
  rintro n s ⟨cur, holder, total, h, rfl⟩ missed
  have busy : ¬ AtRest s.actor cur holder := fun rest => missed ⟨cur, holder, total, h, rest⟩
  obtain ⟨a, t, cur', holder', total', driving, enabled, h', less⟩ := h.closer busy
  exact ⟨a, t, _, driving, enabled, ⟨cur', holder', total', h', rfl⟩, less⟩

end Invariant

theorem Actor.requestStep_active {a : Actor} {pc pc' : Request}
    (step : a.requestStep i spurious pc = some (a', pc')) (active : ¬ pc.Passive) :
    ¬ pc'.Passive ∨ pc'.finished := by
  cases pc with
  | sendActive send =>
      simp only [requestStep, trySendLoop, Option.some.injEq] at step
      split at step <;> obtain ⟨rfl, rfl⟩ := Prod.mk.inj step
      · exact .inl fun passive => passive
      · exact .inl fun passive => passive
      · exact .inr rfl
      · exact .inl fun passive => passive
  | threw => simp [requestStep] at step
  | _ => exact absurd trivial active

theorem Actor.killStep_active {a : Actor} {pc pc' : Kill}
    (step : a.killStep spurious pc = some (a', pc')) (active : ¬ pc.Passive) :
    ¬ pc'.Passive ∨ pc'.finished := by
  cases pc with
  | detach | sendGoExit | recvExitOk =>
      simp only [killStep, trySendLoop, recvCall] at step
      grind [Kill.Passive, Kill.finished]
  | threw => simp [killStep] at step
  | _ => exact absurd trivial active

theorem Actor.spawnStep_active {a : Actor} {fresh : Nat} {pc pc' : Spawn}
    (step : a.spawnStep fresh spurious pc = some (a', pc')) (active : ¬ pc.Passive) :
    ¬ pc'.Passive ∨ pc'.finished := by
  cases pc with
  | start | recvSpawn | swap =>
      simp only [spawnStep, recvCall] at step
      grind [Spawn.Passive, Spawn.finished]
  | threw => simp [spawnStep] at step
  | _ => exact absurd trivial active

/-- Between the two states no call has begun, and passive calls stayed. -/
structure Settled (s t : System) : Prop where
  requests : Pool.Settles Request.Passive (·.finished) s.requests t.requests
  kills : Pool.Settles Kill.Passive (·.finished) s.kills t.kills
  spawns : Pool.Settles Spawn.Passive (·.finished) s.spawns t.spawns

namespace Drives

variable {actions : List Action}

/-- Driving steps only settle calls. -/
theorem settled (run : Run System.step Drives s actions t) : Settled s t := by
  refine run.invariant (I := Settled s) ⟨.refl _, .refl _, .refl _⟩ ?_
  intro u a v before driving enabled
  cases a with
  | callRequest | callKill | callRespawn => exact driving.elim
  | request i spurious =>
      obtain ⟨pc, a', pc', at_i, taken, rfl⟩ := System.step_request enabled
      obtain ⟨_, at_i', active⟩ := driving
      obtain rfl := Option.some.inj (at_i.symm.trans at_i')
      exact ⟨before.requests.trans (.set at_i active (Actor.requestStep_active taken active)),
        before.kills, before.spawns⟩
  | kill i spurious =>
      obtain ⟨pc, a', pc', at_i, taken, rfl⟩ := System.step_kill enabled
      obtain ⟨_, at_i', active⟩ := driving
      obtain rfl := Option.some.inj (at_i.symm.trans at_i')
      exact ⟨before.requests,
        before.kills.trans (.set at_i active (Actor.killStep_active taken active)), before.spawns⟩
  | spawn i spurious =>
      obtain ⟨pc, a', pc', at_i, taken, rfl⟩ := System.step_spawn enabled
      obtain ⟨_, at_i', active⟩ := driving
      obtain rfl := Option.some.inj (at_i.symm.trans at_i')
      exact ⟨before.requests, before.kills,
        before.spawns.trans (.set at_i active (Actor.spawnStep_active taken active))⟩
  | main i spurious =>
      obtain ⟨pc, a', pc', at_i, taken, rfl⟩ := System.step_main enabled
      exact ⟨before.requests, before.kills, before.spawns⟩

/-- Driving steps do not kill the actor. -/
theorem not_dead (run : Run System.step Drives s actions t) (h : Invariant s cur holder total)
    (alive : s.actor.state ≠ .dead) : t.actor.state ≠ .dead := by
  refine (run.invariant (I := fun u => (∃ cur holder total, Invariant u cur holder total) ∧
    u.actor.state ≠ .dead) ⟨⟨cur, holder, total, h⟩, alive⟩ ?_).2
  rintro u a v ⟨⟨cur, holder, total, h⟩, alive⟩ driving enabled
  refine ⟨h.step (Drives.orderly u a driving) enabled, ?_⟩
  cases a with
  | callRequest | callKill | callRespawn => exact driving.elim
  | request i spurious =>
      obtain ⟨pc, a', pc', _, taken, rfl⟩ := System.step_request enabled
      obtain same | proc := Actor.requestStep_state taken
      · exact same ▸ alive
      · simp [proc]
  | kill i spurious =>
      obtain ⟨pc, a', pc', at_i, taken, rfl⟩ := System.step_kill enabled
      obtain ⟨_, at_i', active⟩ := driving
      obtain rfl := Option.some.inj (at_i.symm.trans at_i')
      obtain same | ⟨rfl, _⟩ := (Actor.killStep_frame taken).2
      · exact same ▸ alive
      · exact absurd trivial active
  | spawn i spurious =>
      obtain ⟨pc, a', pc', _, taken, rfl⟩ := System.step_spawn enabled
      obtain same | ⟨_, starting⟩ := (Actor.spawnStep_frame taken).2
      · exact same ▸ alive
      · simp [starting]
  | main i spurious =>
      obtain ⟨pc, a', pc', at_i, taken, rfl⟩ := System.step_main enabled
      intro dead
      obtain before | rfl := (Actor.mainStep_frame taken).2 dead
      · exact alive before
      · obtain ⟨rfl, _⟩ := h.main at_i taken
        exact alive h.control.phase.dead_of_storeDead

end Drives
end Vee
