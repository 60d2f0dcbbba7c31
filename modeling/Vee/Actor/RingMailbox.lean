import Vee.Actor.Results
import Vee.Queue.Concurrent

/-!
# The actor on its ring queue

In `System` each operation of the mailbox is one step. Here the mailbox is the
ring queue itself, whose calls take two: `request` makes a call of `enqueue` on
it and `_epoch` one of `dequeue`, and other calls and threads go on between the
index section of a call and its access to the slot. The other members of the
actor are those of `Actor`, of which `mailbox` and the records stay empty.

What is in the ring queue is the list of a `System`, and a call has taken its
effect there once its index section is over. As long as the accesses are in
turn, every step of the one is a step of the other or leaves it alone.

An item is a mail, or nothing for the contents of a slot that has not been used
or has been moved from.
-/

namespace Vee

open SignalChannel Transition

/-- Program points of `request_with_argstuple`; its call of `enqueue` is the `p`-th one. -/
inductive RingRequest where
  | own (pc : Request)
  | inEnqueue (p : Nat)
  deriving DecidableEq, Repr

/-- Program points of `_actormain` and `_epoch`; its call of `dequeue` is the `c`-th one. -/
inductive RingMain where
  | own (pc : Main)
  | inDequeue (c : Nat)
  | run (currentJob : Option Mail)
  deriving DecidableEq, Repr

structure RingSystem where
  actor : Actor
  mailbox : Shared (Option Mail)
  requests : List RingRequest := []
  kills : List Kill := []
  spawns : List Spawn := []
  mains : List RingMain := []
  ran : List (Option Mail) := []

namespace RingSystem

def constructing (mailboxSize : Nat) : RingSystem where
  actor := { queueSize := mailboxSize }
  mailbox := .create mailboxSize
  spawns := [.start]

/-- Where the request goes on behind a step of its call of `enqueue`. -/
def enqueued (mailbox : Shared (Option Mail)) (p : Nat) : RingRequest :=
  match mailbox.producers[p]? with
  | some (.returned true) => .own .count
  | some (.returned false) => .own (.returned (-2))
  | _ => .inEnqueue p

/-- Where `_epoch` goes on behind a step of its call of `dequeue`. -/
def dequeued (mailbox : Shared (Option Mail)) (c : Nat) : RingMain :=
  match mailbox.consumers[c]? with
  | some (.returned (some currentJob)) => .run currentJob
  | some (.returned none) => .own (.recv .check)
  | _ => .inDequeue c

variable (moved : Option Mail → Option Mail)

def requestStep (s : RingSystem) (mail : Mail) (spurious : Bool) :
    RingRequest → Option (Actor × Shared (Option Mail) × RingRequest)
  | .own pc =>
      if pc = .enqueue then
        (s.mailbox.step moved (.callEnqueue (some mail))).map fun mailbox =>
          (s.actor, mailbox, .inEnqueue s.mailbox.producers.length)
      else
        (s.actor.requestStep mail spurious pc).map fun (actor, pc') =>
          (actor, s.mailbox, .own pc')
  | .inEnqueue p =>
      (s.mailbox.step moved (.producer p)).map fun mailbox =>
        (s.actor, mailbox, enqueued mailbox p)

def mainStep (s : RingSystem) (spurious : Bool) :
    RingMain → Option (Actor × Shared (Option Mail) × List (Option Mail) × RingMain)
  | .own pc =>
      if pc = .dequeue then
        (s.mailbox.step moved .callDequeue).map fun mailbox =>
          (s.actor, mailbox, s.ran, .inDequeue s.mailbox.consumers.length)
      else
        (s.actor.mainStep spurious pc).map fun (actor, pc') =>
          (actor, s.mailbox, s.ran, .own pc')
  | .inDequeue c =>
      (s.mailbox.step moved (.consumer c)).map fun mailbox =>
        (s.actor, mailbox, s.ran, dequeued mailbox c)
  | .run currentJob => some (s.actor, s.mailbox, s.ran ++ [currentJob], .own .uncount)

def step (s : RingSystem) : Action → Option RingSystem
  | .callRequest => some { s with requests := s.requests ++ [.own .checkWorkable] }
  | .callKill => some { s with kills := s.kills ++ [.storeWorkable] }
  | .callRespawn => some { s with spawns := s.spawns ++ [.casSpawn] }
  | .request i spurious =>
      match s.requests[i]? with
      | none => none
      | some pc =>
          match s.requestStep moved i spurious pc with
          | none => none
          | some (actor, mailbox, pc') =>
              some { s with actor, mailbox, requests := s.requests.set i pc' }
  | .kill i spurious =>
      match s.kills[i]? with
      | none => none
      | some pc =>
          match s.actor.killStep spurious pc with
          | none => none
          | some (actor, pc') => some { s with actor, kills := s.kills.set i pc' }
  | .spawn i spurious =>
      match s.spawns[i]? with
      | none => none
      | some pc =>
          match s.actor.spawnStep s.mains.length spurious pc with
          | none => none
          | some (actor, pc') => some { s with
              actor
              spawns := s.spawns.set i pc'
              mains := if pc = .start then s.mains ++ [.own .checkSpawn] else s.mains }
  | .main g spurious =>
      match s.mains[g]? with
      | none => none
      | some pc =>
          match s.mainStep moved spurious pc with
          | none => none
          | some (actor, mailbox, ran, pc') =>
              some { s with actor, mailbox, ran, mains := s.mains.set g pc' }

/-- The accesses to the ring queue are in turn. -/
def AccessesInTurn (s : RingSystem) : Action → Prop
  | .request i _ =>
      match s.requests[i]? with
      | some (.inEnqueue p) => InTurn s.mailbox (.producer p)
      | _ => True
  | .main g _ =>
      match s.mains[g]? with
      | some (.inDequeue c) => InTurn s.mailbox (.consumer c)
      | _ => True
  | _ => True

/-- The mail of an item; nothing is never met where the accesses are in turn. -/
def mailOf (item : Option Mail) : Mail := item.getD 0

/-- The mails that were put in the ring queue. -/
def accepted (s : RingSystem) : List (Option Mail) := s.mailbox.enqueued.map (·.2)

/-- The item that the dequeue `c` was given. -/
def ticketItem (mailbox : Shared (Option Mail)) (c : Nat) : Option Mail :=
  (mailbox.enqueued[mailbox.dequeued.idxOf c]?).bind (·.2)

end RingSystem

open RingSystem

def RingRequest.erase (mailbox : Shared (Option Mail)) : RingRequest → Request
  | .own pc => pc
  | .inEnqueue p =>
      match mailbox.producers[p]? with
      | some (.store _ _) => .count
      | _ => .enqueue

def RingMain.erase (mailbox : Shared (Option Mail)) : RingMain → Main
  | .own pc => pc
  | .inDequeue c =>
      match mailbox.consumers[c]? with
      | some (.load _) => .run (mailOf (ticketItem mailbox c))
      | _ => .dequeue
  | .run currentJob => .run (mailOf currentJob)

namespace Actor

variable {P : Type} {a : Actor} {spurious : Bool}

/-- A list in place of the ring queue. -/
def withMails (mailbox accepted ran : List Mail) (a : Actor) : Actor :=
  { a with mailbox, accepted, ran }

section

variable (mailbox accepted ran : List Mail)

theorem trySendLoop_withMails (value : Sigid) (pc : Send) (running : Send → P) (sent : P)
    (threw : Fault → P) :
    (a.withMails mailbox accepted ran).trySendLoop spurious value pc running sent threw =
      ((a.trySendLoop spurious value pc running sent threw).1.withMails mailbox accepted ran,
        (a.trySendLoop spurious value pc running sent threw).2) := by
  simp only [trySendLoop, withMails]
  split <;> rfl

theorem recvCall_withMails (pc : Recv Sigid) (running : Recv Sigid → P) (received : Sigid → P)
    (threw : Fault → P) :
    (a.withMails mailbox accepted ran).recvCall spurious pc running received threw =
      (a.recvCall spurious pc running received threw).map fun (a', p) =>
        (a'.withMails mailbox accepted ran, p) := by
  simp only [recvCall, withMails]
  split <;> rfl

/-- Outside the mailbox's operations a step does not depend on the mails. -/
theorem requestStep_withMails {pc : Request} (mail : Mail) (outside : pc ≠ .enqueue) :
    (a.withMails mailbox accepted ran).requestStep mail spurious pc =
      (a.requestStep mail spurious pc).map fun (a', pc') =>
        (a'.withMails mailbox accepted ran, pc') := by
  cases pc with
  | enqueue => exact absurd rfl outside
  | casProc =>
      by_cases idle : a.state = .idle <;> simp [requestStep, withMails, idle]
  | sendActive send =>
      simp only [requestStep, trySendLoop_withMails]
      rfl
  | _ => rfl

theorem killStep_withMails (pc : Kill) :
    (a.withMails mailbox accepted ran).killStep spurious pc =
      (a.killStep spurious pc).map fun (a', pc') =>
        (a'.withMails mailbox accepted ran, pc') := by
  cases pc with
  | casDead =>
      by_cases idle : a.state = .idle <;> simp [killStep, withMails, idle]
  | detach =>
      by_cases joinable : a.thread.isSome <;> simp [killStep, withMails, joinable]
  | sendGoExit send =>
      simp only [killStep, trySendLoop_withMails]
      rfl
  | recvExitOk ack => exact recvCall_withMails ..
  | _ => rfl

theorem spawnStep_withMails (fresh : Nat) (pc : Spawn) :
    (a.withMails mailbox accepted ran).spawnStep fresh spurious pc =
      (a.spawnStep fresh spurious pc).map fun (a', pc') =>
        (a'.withMails mailbox accepted ran, pc') := by
  cases pc with
  | casSpawn =>
      by_cases dead : a.state = .dead <;> simp [spawnStep, withMails, dead]
  | swap t =>
      by_cases vacant : a.thread = none <;> simp [spawnStep, withMails, vacant]
  | recvSpawn t ack => exact recvCall_withMails ..
  | _ => rfl

theorem mainStep_withMails {pc : Main} (outside : pc ≠ .dequeue) (idle : ∀ job, pc ≠ .run job) :
    (a.withMails mailbox accepted ran).mainStep spurious pc =
      (a.mainStep spurious pc).map fun (a', pc') =>
        (a'.withMails mailbox accepted ran, pc') := by
  cases pc with
  | dequeue => exact absurd rfl outside
  | run job => exact absurd rfl (idle job)
  | checkSpawn =>
      by_cases starting : a.state = .spawn <;> simp [mainStep, withMails, starting]
  | casIdle =>
      by_cases working : a.state = .proc <;> simp [mainStep, withMails, working]
  | sendSpawn send | sendExitOk send =>
      simp only [mainStep, trySendLoop_withMails]
      rfl
  | recv wait => exact recvCall_withMails ..
  | _ => rfl

end

end Actor

namespace System

variable {s : System} {i : Nat} {spurious : Bool} {a' : Actor}

theorem request_taken {pc pc' : Request} (at_i : s.requests[i]? = some pc)
    (taken : s.actor.requestStep i spurious pc = some (a', pc')) :
    s.step (.request i spurious) =
      some { s with actor := a', requests := s.requests.set i pc' } := by
  simp only [step, at_i, taken]

theorem kill_taken {pc pc' : Kill} (at_i : s.kills[i]? = some pc)
    (taken : s.actor.killStep spurious pc = some (a', pc')) :
    s.step (.kill i spurious) = some { s with actor := a', kills := s.kills.set i pc' } := by
  simp only [step, at_i, taken]

theorem spawn_taken {pc pc' : Spawn} (at_i : s.spawns[i]? = some pc)
    (taken : s.actor.spawnStep s.mains.length spurious pc = some (a', pc')) :
    s.step (.spawn i spurious) = some { s with
      actor := a'
      spawns := s.spawns.set i pc'
      mains := if pc = .start then s.mains ++ [.checkSpawn] else s.mains } := by
  simp only [step, at_i, taken]

theorem main_taken {pc pc' : Main} (at_i : s.mains[i]? = some pc)
    (taken : s.actor.mainStep spurious pc = some (a', pc')) :
    s.step (.main i spurious) = some { s with actor := a', mains := s.mains.set i pc' } := by
  simp only [step, at_i, taken]

end System

namespace RingSystem

/-- The actor with a list for its mailbox. -/
def erase (s : RingSystem) : System where
  actor := s.actor.withMails
    ((s.accepted.drop s.mailbox.dequeued.length).map mailOf) (s.accepted.map mailOf)
    (s.ran.map mailOf)
  requests := s.requests.map (·.erase s.mailbox)
  kills := s.kills
  spawns := s.spawns
  mains := s.mains.map (·.erase s.mailbox)

/-- Orderly use of the actor, with the accesses to its ring queue in turn. -/
def OrderlyInTurn (s : RingSystem) (a : Action) : Prop := s.AccessesInTurn a ∧ Orderly s.erase a

instance (s : RingSystem) (a : Action) : Decidable (s.AccessesInTurn a) := by
  unfold AccessesInTurn
  split
  · split <;> infer_instance
  · split <;> infer_instance
  · infer_instance

instance (s : RingSystem) (a : Action) : Decidable (s.OrderlyInTurn a) :=
  inferInstanceAs (Decidable (s.AccessesInTurn a ∧ Orderly s.erase a))

variable {s t : RingSystem} {a : Action} {mailboxSize i g p c : Nat} {spurious : Bool}
variable {mailbox : Shared (Option Mail)} {moved}

/-- The calls under way agree with those of the ring queue, and no item is missing. -/
structure Linked (mailboxSize : Nat) (s : RingSystem) : Prop where
  shared : s.mailbox.Invariant mailboxSize
  size : s.actor.queueSize = mailboxSize
  genuine : ∀ item ∈ s.accepted, item ≠ none
  enqueues : ∀ i p : Nat, s.requests[i]? = some (.inEnqueue p) →
    s.mailbox.producers[p]? = some (.reserve (some i)) ∨
      ∃ slot, s.mailbox.producers[p]? = some (.store (some i) slot)
  dequeues : ∀ g c : Nat, s.mains[g]? = some (.inDequeue c) →
    s.mailbox.consumers[c]? = some .reserve ∨ ∃ slot, s.mailbox.consumers[c]? = some (.load slot)
  apart : ∀ g g' c : Nat, s.mains[g]? = some (.inDequeue c) → s.mains[g']? = some (.inDequeue c) →
    g = g'
  idle : ∀ job, .own (.run job) ∉ s.mains
  atHand : ∀ item, .run item ∈ s.mains → item ≠ none
  ran : ∀ item ∈ s.ran, item ≠ none

section Shared

variable {item : Option Mail} {slot : Int} {mailbox' : Shared (Option Mail)}

theorem reserveEnqueue_cases (at_p : mailbox.producers[p]? = some (.reserve item))
    (stepped : mailbox.step moved (.producer p) = some mailbox') :
    (mailbox.queue.enqueueIndex = none ∧
      mailbox' = { mailbox with producers := mailbox.producers.set p (.returned false) }) ∨
    ∃ slot queue, mailbox.queue.enqueueIndex = some (slot, queue) ∧
      mailbox' = { mailbox with
        queue
        producers := mailbox.producers.set p (.store item slot)
        enqueued := mailbox.enqueued ++ [(p, item)] } := by
  simp only [Shared.step, at_p] at stepped
  split at stepped <;> obtain rfl := Option.some.inj stepped
  · exact .inl ⟨‹_›, rfl⟩
  · exact .inr ⟨_, _, ‹_›, rfl⟩

theorem storeEnqueue_cases (at_p : mailbox.producers[p]? = some (.store item slot))
    (stepped : mailbox.step moved (.producer p) = some mailbox') :
    ∃ queue, mailbox' = { mailbox with
      queue
      producers := mailbox.producers.set p (.returned true) } := by
  simp only [Shared.step, at_p] at stepped
  split at stepped
  · cases stepped
  · exact ⟨_, (Option.some.inj stepped).symm⟩

theorem reserveDequeue_cases (at_c : mailbox.consumers[c]? = some .reserve)
    (stepped : mailbox.step moved (.consumer c) = some mailbox') :
    (mailbox.queue.dequeueIndex = none ∧
      mailbox' = { mailbox with consumers := mailbox.consumers.set c (.returned none) }) ∨
    ∃ slot queue, mailbox.queue.dequeueIndex = some (slot, queue) ∧
      mailbox' = { mailbox with
        queue
        consumers := mailbox.consumers.set c (.load slot)
        dequeued := mailbox.dequeued ++ [c] } := by
  simp only [Shared.step, at_c] at stepped
  split at stepped <;> obtain rfl := Option.some.inj stepped
  · exact .inl ⟨‹_›, rfl⟩
  · exact .inr ⟨_, _, ‹_›, rfl⟩

theorem loadDequeue_cases (at_c : mailbox.consumers[c]? = some (.load slot))
    (stepped : mailbox.step moved (.consumer c) = some mailbox') :
    ∃ item queue, mailbox' = { mailbox with
      queue
      consumers := mailbox.consumers.set c (.returned (some item)) } := by
  simp only [Shared.step, at_c] at stepped
  split at stepped
  · cases stepped
  · exact ⟨_, _, (Option.some.inj stepped).symm⟩

/-- An enqueue is refused when all the places are given away. -/
theorem enqueueIndex_eq_none_iff (h : mailbox.Invariant mailboxSize) :
    mailbox.queue.enqueueIndex = none ↔
      mailbox.enqueued.length - mailbox.dequeued.length = mailboxSize := by
  rw [← h.tickets.isFull_iff]
  simp only [RingQueue.enqueueIndex, h.tickets.mode_eq]
  cases mailbox.queue.isFull <;> simp

theorem dequeueIndex_eq_none_iff (h : mailbox.Invariant mailboxSize) :
    mailbox.queue.dequeueIndex = none ↔
      mailbox.enqueued.length ≤ mailbox.dequeued.length := by
  simp only [RingQueue.dequeueIndex, h.tickets.size_eq]
  split
  · rename_i empty
    exact iff_of_true rfl (by omega)
  · rename_i rest
    exact iff_of_false (Option.some_ne_none _) (by omega)

end Shared

/-- What a step of a request is. -/
theorem step_request (h : s.step moved (.request i spurious) = some t) :
    ∃ pc actor mailbox pc', s.requests[i]? = some pc ∧
      s.requestStep moved i spurious pc = some (actor, mailbox, pc') ∧
      t = { s with actor, mailbox, requests := s.requests.set i pc' } := by
  simp only [step] at h
  split at h
  · cases h
  · split at h
    · cases h
    · exact ⟨_, _, _, _, ‹_›, ‹_›, (Option.some.inj h).symm⟩

theorem step_main (h : s.step moved (.main g spurious) = some t) :
    ∃ pc actor mailbox ran pc', s.mains[g]? = some pc ∧
      s.mainStep moved spurious pc = some (actor, mailbox, ran, pc') ∧
      t = { s with actor, mailbox, ran, mains := s.mains.set g pc' } := by
  simp only [step] at h
  split at h
  · cases h
  · split at h
    · cases h
    · exact ⟨_, _, _, _, _, ‹_›, ‹_›, (Option.some.inj h).symm⟩

theorem step_kill (h : s.step moved (.kill i spurious) = some t) :
    ∃ pc actor pc', s.kills[i]? = some pc ∧ s.actor.killStep spurious pc = some (actor, pc') ∧
      t = { s with actor, kills := s.kills.set i pc' } := by
  simp only [step] at h
  split at h
  · cases h
  · split at h
    · cases h
    · exact ⟨_, _, _, ‹_›, ‹_›, (Option.some.inj h).symm⟩

theorem step_spawn (h : s.step moved (.spawn i spurious) = some t) :
    ∃ pc actor pc', s.spawns[i]? = some pc ∧
      s.actor.spawnStep s.mains.length spurious pc = some (actor, pc') ∧
      t = { s with
        actor
        spawns := s.spawns.set i pc'
        mains := if pc = .start then s.mains ++ [.own .checkSpawn] else s.mains } := by
  simp only [step] at h
  split at h
  · cases h
  · split at h
    · cases h
    · exact ⟨_, _, _, ‹_›, ‹_›, (Option.some.inj h).symm⟩

end RingSystem
end Vee
