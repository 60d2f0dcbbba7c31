import Vee.Signal.Channel

/-!
# The actor

The shared object of `vee::actor` and one atomic step of each of its calls. A
`System` is one actor with every call of `request`, `kill` and `respawn` made on
it so far and every thread started for it; an `Action` either begins a call or
lets one call or thread take its next step, so the runs of `System.step` are
all interleavings of any number of callers.

Exchanges on `_state` are the strong ones and never fail spuriously. The
exchanges inside the signal channel are weak: the flag of an action makes the
attempt of that step fail. The mailbox is the bounded FIFO of the ring queue,
each operation one step. Running a mail calls code outside the actor and leaves
the actor's own members alone.
-/

namespace Vee

open SignalChannel

/-- The signals exchanged over `_sigch`. -/
inductive Sigid where
  | spawn
  | active
  | goExit
  | exitOk
  deriving DecidableEq, Repr

/-- The values of `actor::_state`. -/
inductive ActorState where
  | spawn
  | loaded
  | idle
  | proc
  | dead
  deriving DecidableEq, Repr

/-- A mail is named by the request call that makes it. -/
abbrev Mail := Nat

/-- The data members of an actor, followed by two history variables that record
the mails put in the mailbox and the mails run, in order. -/
structure Actor where
  queueSize : Nat
  sigch : SignalChannel Sigid := {}
  mailbox : List Mail := []
  mailboxCounter : BitVec 32 := 0
  /-- the thread owned by the member `_thread` -/
  thread : Option Nat := none
  state : ActorState := .spawn
  workable : Bool := false
  accepted : List Mail := []
  ran : List Mail := []
  deriving DecidableEq, Repr

/-- Program points of `request_with_argstuple`. -/
inductive Request where
  | checkWorkable
  | checkDead
  | enqueue
  | count
  /-- the loop on the exchange of IDLE by PROC -/
  | casProc
  | sendActive (pc : Send)
  | returned (result : Int)
  | threw (fault : Fault)
  deriving DecidableEq, Repr

/-- Program points of `kill`. -/
inductive Kill where
  | storeWorkable
  /-- the loop on the exchange of IDLE by DEAD -/
  | casDead
  | detach
  | sendGoExit (pc : Send)
  | recvExitOk (pc : Recv Sigid)
  | returned (result : Bool)
  | threw (fault : Fault)
  deriving DecidableEq, Repr

/-- Program points of `respawn`; the constructor begins at `start`, in `_spawn`.
`t` is the local thread object of `_spawn`. -/
inductive Spawn where
  | casSpawn
  | start
  | recvSpawn (t : Nat) (pc : Recv Sigid)
  | swap (t : Nat)
  | returned (result : Bool)
  | threw (fault : Fault)
  deriving DecidableEq, Repr

/-- Program points of `_actormain`, with those of `_epoch` from `dequeue` to `casIdle`. -/
inductive Main where
  | checkSpawn
  | storeLoaded
  | sendSpawn (pc : Send)
  | storeIdle
  | storeWorkable
  | recv (pc : Recv Sigid)
  | dequeue
  | run (currentJob : Mail)
  | uncount
  | casIdle
  | sendExitOk (pc : Send)
  | storeDead
  | ended
  | threw (fault : Fault)
  deriving DecidableEq, Repr

namespace Actor

variable {P : Type}

/-- One step of the loop `while (!_sigch.try_send(value));`. -/
def trySendLoop (a : Actor) (spurious : Bool) (value : Sigid) (pc : Send)
    (running : Send → P) (sent : P) (threw : Fault → P) : Actor × P :=
  match a.sigch.trySendStep spurious value pc with
  | (sigch, .running pc') => ({ a with sigch }, running pc')
  | (sigch, .returned false) => ({ a with sigch }, running .acquire)
  | (sigch, .returned true) => ({ a with sigch }, sent)
  | (sigch, .threw fault) => ({ a with sigch }, threw fault)

/-- One step of `_sigch.recv()`; `received` is where the caller goes on. -/
def recvCall (a : Actor) (spurious : Bool) (pc : Recv Sigid)
    (running : Recv Sigid → P) (received : Sigid → P) (threw : Fault → P) : Option (Actor × P) :=
  match a.sigch.recvStep spurious pc with
  | none => none
  | some (sigch, .running pc') => some ({ a with sigch }, running pc')
  | some (sigch, .returned value) => some ({ a with sigch }, received value)
  | some (sigch, .threw fault) => some ({ a with sigch }, threw fault)

/-- One step of `request_with_argstuple` for the mail `mail`. -/
def requestStep (a : Actor) (mail : Mail) (spurious : Bool) : Request → Option (Actor × Request)
  | .checkWorkable => some (a, if a.workable then .checkDead else .returned (-1))
  | .checkDead => some (a, if a.state = .dead then .returned (-1) else .enqueue)
  | .enqueue =>
      if a.mailbox.length = a.queueSize then some (a, .returned (-2))
      else some ({ a with
        mailbox := a.mailbox ++ [mail]
        accepted := a.accepted ++ [mail] }, .count)
  | .count =>
      let oldCounter := a.mailboxCounter
      some ({ a with mailboxCounter := oldCounter + 1 },
        if oldCounter = 0 then .casProc else .returned oldCounter.toInt)
  | .casProc =>
      if a.state = .idle then some ({ a with state := .proc }, .sendActive .acquire)
      else some (a, .casProc)
  -- only the call that saw the counter at 0 gets here
  | .sendActive pc =>
      some (a.trySendLoop spurious .active pc .sendActive (.returned 0) .threw)
  | .returned _ => none
  | .threw _ => none

/-- One step of `kill`. -/
def killStep (a : Actor) (spurious : Bool) : Kill → Option (Actor × Kill)
  | .storeWorkable => some ({ a with workable := false }, .casDead)
  | .casDead =>
      if a.state = .idle then some ({ a with state := .dead }, .detach)
      else some (a, .casDead)
  | .detach =>
      if a.thread.isSome then some ({ a with thread := none }, .sendGoExit .acquire)
      else some (a, .threw .notJoinable)
  | .sendGoExit pc =>
      some (a.trySendLoop spurious .goExit pc .sendGoExit (.recvExitOk .check) .threw)
  | .recvExitOk pc =>
      a.recvCall spurious pc .recvExitOk
        (fun value => if value = .exitOk then .returned true else .recvExitOk .check) .threw
  | .returned _ => none
  | .threw _ => none

/-- One step of `respawn` and of `_spawn`. `fresh` identifies the thread that
`start` creates. -/
def spawnStep (a : Actor) (fresh : Nat) (spurious : Bool) : Spawn → Option (Actor × Spawn)
  | .casSpawn =>
      if a.state = .dead then some ({ a with state := .spawn }, .start)
      else some (a, .returned false)
  | .start => some (a, .recvSpawn fresh .check)
  | .recvSpawn t pc =>
      a.recvCall spurious pc (.recvSpawn t)
        (fun value => if value = .spawn then .swap t
          else .threw (.runtimeError "actor constructor receives invalid signal!")) .threw
  -- the local object then owns the former `_thread` and is destroyed
  | .swap t =>
      if a.thread = none then some ({ a with thread := some t }, .returned true)
      else some ({ a with thread := some t }, .threw .terminate)
  | .returned _ => none
  | .threw _ => none

/-- One step of `_actormain`, including `_epoch`. -/
def mainStep (a : Actor) (spurious : Bool) : Main → Option (Actor × Main)
  | .checkSpawn =>
      if a.state = .spawn then some (a, .storeLoaded)
      else some (a, .threw
        (.runtimeError "actor thread creation failure! actor state has wrong value."))
  | .storeLoaded => some ({ a with state := .loaded }, .sendSpawn .acquire)
  | .sendSpawn pc => some (a.trySendLoop spurious .spawn pc .sendSpawn .storeIdle .threw)
  | .storeIdle => some ({ a with state := .idle }, .storeWorkable)
  | .storeWorkable => some ({ a with workable := true }, .recv .check)
  | .recv pc =>
      a.recvCall spurious pc .recv
        (fun value => match value with
          | .active => .dequeue
          | .goExit => .sendExitOk .acquire
          | _ => .threw (.runtimeError "wrong signal received!")) .threw
  | .dequeue =>
      match a.mailbox with
      -- `_epoch` returns false and the main loop goes on
      | [] => some (a, .recv .check)
      | job :: rest => some ({ a with mailbox := rest }, .run job)
  | .run job => some ({ a with ran := a.ran ++ [job] }, .uncount)
  | .uncount =>
      let counter := a.mailboxCounter - 1
      some ({ a with mailboxCounter := counter }, if counter = 0 then .casIdle else .dequeue)
  | .casIdle =>
      if a.state = .proc then some ({ a with state := .idle }, .recv .check)
      else some (a, .threw (.runtimeError "actor::_epoch CAS failure!!"))
  | .sendExitOk pc => some (a.trySendLoop spurious .exitOk pc .sendExitOk .storeDead .threw)
  | .storeDead => some ({ a with state := .dead }, .ended)
  | .ended => none
  | .threw _ => none

end Actor

/-- One actor with all calls made on it and all threads started for it, each in
order of creation. -/
structure System where
  actor : Actor
  requests : List Request := []
  kills : List Kill := []
  spawns : List Spawn := []
  mains : List Main := []
  deriving DecidableEq, Repr

/-- Begin a call, or let the `i`-th call or thread of its kind take a step. -/
inductive Action where
  | callRequest
  | callKill
  | callRespawn
  | request (i : Nat) (spurious : Bool)
  | kill (i : Nat) (spurious : Bool)
  | spawn (i : Nat) (spurious : Bool)
  | main (i : Nat) (spurious : Bool)
  deriving DecidableEq, Repr

namespace System

/-- The constructor has initialised the members and is about to call `_spawn`. -/
def constructing (mailboxSize : Nat) : System where
  actor := { queueSize := mailboxSize }
  spawns := [.start]

def step (s : System) : Action → Option System
  | .callRequest => some { s with requests := s.requests ++ [.checkWorkable] }
  | .callKill => some { s with kills := s.kills ++ [.storeWorkable] }
  | .callRespawn => some { s with spawns := s.spawns ++ [.casSpawn] }
  | .request i spurious =>
      match s.requests[i]? with
      | none => none
      | some pc =>
          match s.actor.requestStep i spurious pc with
          | none => none
          | some (actor, pc') => some { s with actor, requests := s.requests.set i pc' }
  | .kill i spurious =>
      match s.kills[i]? with
      | none => none
      | some pc =>
          match s.actor.killStep spurious pc with
          | none => none
          | some (actor, pc') => some { s with actor, kills := s.kills.set i pc' }
  | .spawn i spurious =>
      match s.spawns[i]? with
      | none => none
      | some pc =>
          match s.actor.spawnStep s.mains.length spurious pc with
          | none => none
          | some (actor, pc') => some { s with
              actor
              spawns := s.spawns.set i pc'
              -- `std::thread t(&actor::_actormain, this)`
              mains := if pc = .start then s.mains ++ [.checkSpawn] else s.mains }
  | .main i spurious =>
      match s.mains[i]? with
      | none => none
      | some pc =>
          match s.actor.mainStep spurious pc with
          | none => none
          | some (actor, pc') => some { s with actor, mains := s.mains.set i pc' }

/-- One complete run of the constructor, after which the thread waits in `recv`. -/
def constructorActions : List Action :=
  [.spawn 0 false, .main 0 false, .main 0 false] ++ List.replicate 3 (.spawn 0 false) ++
    List.replicate 3 (.main 0 false) ++ List.replicate 4 (.spawn 0 false) ++
    List.replicate 2 (.main 0 false)

end System
end Vee
