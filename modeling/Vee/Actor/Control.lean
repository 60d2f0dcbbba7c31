import Vee.Actor.Basic
import Vee.Pool.Basic
import Vee.Signal.Rendezvous

/-!
# Who may act on the state word and the channel

`Control` relates `_state`, the signal channel and the program points of all
calls and threads. At most one call, the `Holder`, is past the exchange on
`_state` (or inside `_spawn`) that entitles it to use the channel; all other
calls are at points where they touch neither. The phase of the actor is fixed by
the holder and the current thread, whose joint positions `Phase` lists.

The relation is kept by every step of every party in orderly use: calls of
`request` and `kill` do not overlap `_spawn`, and `respawn` finds the threads
started before it ended.
-/

namespace Vee

open SignalChannel

/-- The call has returned. -/
def Request.finished : Request → Bool
  | .returned _ => true
  | _ => false

def Kill.finished : Kill → Bool
  | .returned _ => true
  | _ => false

def Spawn.finished : Spawn → Bool
  | .returned _ => true
  | _ => false

/-- Points at which a call uses neither the channel nor a claim on `_state`. -/
def Request.Passive : Request → Prop
  | .sendActive _ => False
  | .threw _ => False
  | _ => True

def Kill.Passive : Kill → Prop
  | .storeWorkable => True
  | .casDead => True
  | .returned _ => True
  | _ => False

def Spawn.Passive : Spawn → Prop
  | .casSpawn => True
  | .returned _ => True
  | _ => False

/-- Orderly use of an actor: requests and kills begin when no `_spawn` is under
way, `respawn` begins when every call has returned, and its exchange of DEAD by
SPAWN finds every thread started before it ended. -/
def Orderly (s : System) : Action → Prop
  | .callRequest => Pool.All (·.finished) s.spawns
  | .callKill => Pool.All (·.finished) s.spawns
  | .callRespawn => Pool.All (·.finished) s.requests ∧ Pool.All (·.finished) s.kills ∧
      Pool.All (·.finished) s.spawns
  | .spawn i _ => s.spawns[i]? = some .casSpawn → s.actor.state = .dead →
      Pool.All (· = .ended) s.mains
  | _ => True

/-- The call that is entitled to use the channel, with its program point. -/
inductive Holder where
  | nobody
  | request (i : Nat) (pc : Send)
  | kill (i : Nat) (pc : Kill)
  | spawn (i : Nat) (pc : Spawn)
  deriving DecidableEq, Repr

/-- The holder, once the call that held the actor has got to the given point. -/
def Request.holder (i : Nat) : Request → Holder
  | .sendActive pc => .request i pc
  | _ => .nobody

def Kill.holder (i : Nat) : Kill → Holder
  | .returned _ => .nobody
  | pc => .kill i pc

def Spawn.holder (i : Nat) : Spawn → Holder
  | .returned _ => .nobody
  | pc => .spawn i pc

/-- The holder is where it is and all other calls are passive. -/
def Holds (s : System) : Holder → Prop
  | .nobody => Pool.All Request.Passive s.requests ∧ Pool.All Kill.Passive s.kills ∧
      Pool.All Spawn.Passive s.spawns
  | .request i pc => Pool.Only Request.Passive i (.sendActive pc) s.requests ∧
      Pool.All Kill.Passive s.kills ∧ Pool.All Spawn.Passive s.spawns
  | .kill i pc => Pool.All Request.Passive s.requests ∧
      Pool.Only Kill.Passive i pc s.kills ∧ Pool.All Spawn.Passive s.spawns
  | .spawn i pc => Pool.All Request.Passive s.requests ∧ Pool.All Kill.Passive s.kills ∧
      Pool.Only Spawn.Passive i pc s.spawns

/-- The newest thread is at `cur` and all earlier ones have ended. Before the
first thread is started `cur` is `ended`. -/
def Current (mains : List Main) (cur : Main) : Prop :=
  (∃ g, g + 1 = mains.length ∧ Pool.Only (· = .ended) g cur mains) ∨
    Pool.All (· = .ended) mains ∧ cur = .ended

/-- Positions of a started thread that has yet to get its next signal. -/
inductive Listening (a : Actor) : Main → Option Send → Prop where
  | storeIdle {sender} : a.sigch.Closed → Outside sender → Listening a .storeIdle sender
  | storeWorkable {sender} : a.sigch.Closed → Outside sender → Listening a .storeWorkable sender
  | recv {pc sender} : Link a.sigch pc sender → Listening a (.recv pc) sender

/-- `_state` while nobody has claimed the actor. -/
def restState (cur : Main) : ActorState := if cur = .storeIdle then .loaded else .idle

/-- Points of `_epoch`. -/
def Main.InEpoch : Main → Prop
  | .dequeue => True
  | .run _ => True
  | .uncount => True
  | .casIdle => True
  | _ => False

/-- The joint positions of the actor, its current thread and the holder. -/
inductive Phase (a : Actor) : Main → Holder → Prop where
  /-- started, and claimed by nobody -/
  | ready {cur} : a.state = restState cur → a.thread.isSome → Listening a cur none →
      Phase a cur .nobody
  /-- a request has taken the actor out of IDLE and sends `active` -/
  | activating {cur i pc} : a.state = .proc → cur ≠ .storeIdle → a.thread.isSome →
      Listening a cur (some pc) → Phase a cur (.request i pc)
  | activated {pc} : a.state = .proc → a.thread.isSome → Delivered a.sigch .active pc →
      Phase a (.recv pc) .nobody
  | epoch {cur} : a.state = .proc → a.thread.isSome → a.sigch.Closed → cur.InEpoch →
      Phase a cur .nobody
  /-- a kill has taken the actor out of IDLE -/
  | claimed {cur i} : a.state = .dead → cur ≠ .storeIdle → a.thread.isSome →
      Listening a cur none → Phase a cur (.kill i .detach)
  | stopping {cur i pc} : a.state = .dead → cur ≠ .storeIdle → a.thread = none →
      Listening a cur (some pc) → Phase a cur (.kill i (.sendGoExit pc))
  | stopped {pc i ack} : a.state = .dead → a.thread = none → Delivered a.sigch .goExit pc →
      Entering ack → Phase a (.recv pc) (.kill i (.recvExitOk ack))
  | exiting {pc i ack} : a.state = .dead → a.thread = none → Link a.sigch ack (some pc) →
      Phase a (.sendExitOk pc) (.kill i (.recvExitOk ack))
  | exited {cur i ack} : a.state = .dead → a.thread = none → Delivered a.sigch .exitOk ack →
      cur = .storeDead ∨ cur = .ended → Phase a cur (.kill i (.recvExitOk ack))
  /-- the kill has returned; the thread may still have to store DEAD -/
  | dead {cur} : a.state = .dead → a.thread = none → a.sigch.Closed →
      cur = .storeDead ∨ cur = .ended → Phase a cur .nobody
  | starting {i} : a.state = .spawn → a.thread = none → a.sigch.Closed →
      Phase a .ended (.spawn i .start)
  | entering {cur i t pc} : a.state = .spawn → a.thread = none → Link a.sigch pc none →
      cur = .checkSpawn ∨ cur = .storeLoaded → Phase a cur (.spawn i (.recvSpawn t pc))
  | greeting {send i t pc} : a.state = .loaded → a.thread = none → Link a.sigch pc (some send) →
      Phase a (.sendSpawn send) (.spawn i (.recvSpawn t pc))
  /-- the creator has its answer but is not back from `recv` -/
  | greeted {cur i t pc} : a.state = restState cur → a.thread = none →
      Delivered a.sigch .spawn pc →
      cur = .storeIdle ∨ cur = .storeWorkable ∨ (∃ wait, cur = .recv wait ∧ Entering wait) →
      Phase a cur (.spawn i (.recvSpawn t pc))
  | swapping {cur i t} : a.state = restState cur → a.thread = none → Listening a cur none →
      Phase a cur (.spawn i (.swap t))

/-- `_spawn` does not overlap other calls. -/
def Apart (s : System) : Prop :=
  Pool.All (·.finished) s.spawns ∨
    Pool.All (·.finished) s.requests ∧ Pool.All (·.finished) s.kills

structure Control (s : System) (cur : Main) (holder : Holder) : Prop where
  apart : Apart s
  current : Current s.mains cur
  holds : Holds s holder
  phase : Phase s.actor cur holder

end Vee
