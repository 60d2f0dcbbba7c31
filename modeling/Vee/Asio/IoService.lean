import Vee.Signal.Progress
import Vee.Transition.Basic

/-!
# The thread of the io_service singleton

The constructor of `io_service_sigleton` starts a thread that runs the service
and then sends a signal; the destructor stops the service, detaches the thread
and receives the signal. `_sigch` is declared after `_thread`, so the thread is
running before its channel is constructed, and no join keeps it from outliving
the object.

`_worker` keeps `run` from returning before the service is stopped. As long as
nobody stops the service during the constructor, the thread comes to the channel
only after its construction, and the destructor gets past `recv` only after the
last access of the thread to it.
-/

namespace Vee

open SignalChannel Transition

/-- Program points of the thread. -/
inductive ServiceThread where
  /-- `_io_service.run()` -/
  | run
  /-- `while (!_sigch.try_send());` -/
  | trySend (pc : Send)
  | ended
  | threw (fault : Fault)
  deriving DecidableEq, Repr

/-- Program points of the constructor, after it has started the thread, and of
the destructor. -/
inductive ServiceOwner where
  /-- initialisation of `_sigch` -/
  | construct
  /-- the object is in use -/
  | live
  | stop
  | detach
  | recv (pc : Recv Int)
  /-- destruction of the members -/
  | destroy
  | destroyed
  | threw (fault : Fault)
  deriving DecidableEq, Repr

/-- The singleton, with its thread and the program point of its owner. -/
structure IoServiceSigleton where
  stopped : Bool := false
  /-- the thread that `_thread` owns is joinable -/
  joinable : Bool := true
  /-- `none` before the construction and after the destruction of the member -/
  sigch : Option (SignalChannel Int) := none
  thread : ServiceThread := .run
  owner : ServiceOwner := .construct
  deriving DecidableEq, Repr

inductive ServiceAction where
  /-- the program destroys the singleton -/
  | destroy
  /-- somebody stops the service that `io_service()` returns -/
  | stop
  | owner (spurious : Bool)
  | thread (spurious : Bool)
  deriving DecidableEq, Repr

namespace IoServiceSigleton

/-- A step of the thread. -/
def threadStep (s : IoServiceSigleton) (spurious : Bool) : Option IoServiceSigleton :=
  match s.thread with
  | .run => if s.stopped then some { s with thread := .trySend .acquire } else none
  | .trySend pc =>
      match s.sigch with
      | none => some { s with thread := .threw .invalidPointer }
      | some ch =>
          match ch.trySendStep spurious 1 pc with
          | (ch', .running pc') => some { s with sigch := some ch', thread := .trySend pc' }
          | (ch', .returned false) => some { s with sigch := some ch', thread := .trySend .acquire }
          | (ch', .returned true) => some { s with sigch := some ch', thread := .ended }
          | (ch', .threw fault) => some { s with sigch := some ch', thread := .threw fault }
  | .ended => none
  | .threw _ => none

/-- A step of the constructor or of the destructor. -/
def ownerStep (s : IoServiceSigleton) (spurious : Bool) : Option IoServiceSigleton :=
  match s.owner with
  | .construct => some { s with sigch := some {}, owner := .live }
  | .live => none
  | .stop => some { s with stopped := true, owner := .detach }
  | .detach =>
      if s.joinable then some { s with joinable := false, owner := .recv .check }
      else some { s with owner := .threw .notJoinable }
  | .recv pc =>
      match s.sigch with
      | none => some { s with owner := .threw .invalidPointer }
      | some ch =>
          match ch.recvStep spurious pc with
          | none => none
          | some (ch', .running pc') => some { s with sigch := some ch', owner := .recv pc' }
          | some (ch', .returned _) => some { s with sigch := some ch', owner := .destroy }
          | some (ch', .threw fault) => some { s with sigch := some ch', owner := .threw fault }
  | .destroy => some { s with sigch := none, owner := .destroyed }
  | .destroyed => none
  | .threw _ => none

def step (s : IoServiceSigleton) : ServiceAction → Option IoServiceSigleton
  | .destroy => if s.owner = .live then some { s with owner := .stop } else none
  | .stop => some { s with stopped := true }
  | .owner spurious => s.ownerStep spurious
  | .thread spurious => s.threadStep spurious

/-- Others stop the service only once the object has been constructed. -/
def StoppedLater (s : IoServiceSigleton) : ServiceAction → Prop
  | .stop => s.owner ≠ .construct
  | _ => True

instance (s : IoServiceSigleton) (a : ServiceAction) : Decidable (StoppedLater s a) :=
  match a with
  | .stop => inferInstanceAs (Decidable (s.owner ≠ .construct))
  | .destroy | .owner _ | .thread _ => inferInstanceAs (Decidable True)

/-- The thread has not sent its signal: it is in `run`, or outside the section of
`try_send` that its exchange opens. -/
def Waiting (thread : ServiceThread) : Prop := thread = .run ∨ thread = .trySend .acquire

/-- The joint positions of the owner, the thread and the channel. -/
inductive Phase (s : IoServiceSigleton) : Prop where
  | constructing : s.owner = .construct → s.sigch = none → s.thread = .run →
      s.stopped = false → s.joinable = true → Phase s
  | live {ch} : s.owner = .live ∨ s.owner = .stop → s.sigch = some ch → ch.Closed →
      Waiting s.thread → s.joinable = true → Phase s
  | detaching {ch} : s.owner = .detach → s.sigch = some ch → ch.Closed →
      Waiting s.thread → s.joinable = true → s.stopped = true → Phase s
  | waiting {ch pc} : s.owner = .recv pc → s.sigch = some ch → Link ch pc (some .acquire) →
      s.thread = .run → s.stopped = true → Phase s
  | sending {ch pc send} : s.owner = .recv pc → s.sigch = some ch → Link ch pc (some send) →
      s.thread = .trySend send → s.stopped = true → Phase s
  | sent {ch pc} : s.owner = .recv pc → s.sigch = some ch → Delivered ch 1 pc →
      s.thread = .ended → Phase s
  | gone : s.owner = .destroy ∨ s.owner = .destroyed → s.thread = .ended → Phase s

variable {s t : IoServiceSigleton} {actions : List ServiceAction} {spurious : Bool}

theorem Phase.thread (h : Phase s) (taken : s.threadStep spurious = some t) : Phase t := by
  simp only [threadStep] at taken
  -- in `run` the thread waits for the stop, behind it the channel is closed
  have closedSend : ∀ {ch}, s.sigch = some ch → ch.Closed → Waiting s.thread →
      (t.owner = s.owner ∧ t.sigch = some ch ∧ Waiting t.thread ∧ t.joinable = s.joinable ∧
        t.stopped = s.stopped) := by
    intro ch at_ch closed waiting
    obtain run | send := waiting
    · simp only [run] at taken
      split_ifs at taken
      obtain rfl := Option.some.inj taken
      exact ⟨rfl, at_ch, .inr rfl, rfl, rfl⟩
    · have refused : ch.trySendStep spurious 1 .acquire = (ch, .returned false) := by
        simp [trySendStep, compareAndSwapWeak, closed.state]
      simp only [send, at_ch, refused] at taken
      obtain rfl := Option.some.inj taken
      exact ⟨rfl, rfl, .inr rfl, rfl, rfl⟩
  cases h with
  | constructing _ _ run stopped =>
      simp [run, stopped] at taken
  | live owner at_ch closed waiting joinable =>
      obtain ⟨owner', at_ch', waiting', joinable', _⟩ := closedSend at_ch closed waiting
      exact .live (owner' ▸ owner) at_ch' closed waiting' (joinable'.trans joinable)
  | detaching owner at_ch closed waiting joinable stopped =>
      obtain ⟨owner', at_ch', waiting', joinable', stopped'⟩ := closedSend at_ch closed waiting
      exact .detaching (owner'.trans owner) at_ch' closed waiting' (joinable'.trans joinable)
        (stopped'.trans stopped)
  | waiting owner at_ch link run stopped =>
      simp only [run, stopped, if_true] at taken
      obtain rfl := Option.some.inj taken
      exact .sending owner at_ch link rfl rfl
  | @sending ch _ send owner at_ch link at_send stopped =>
      simp only [at_send, at_ch] at taken
      rcases sent : ch.trySendStep spurious 1 send with ⟨ch', o⟩
      obtain ⟨send', rfl, link'⟩ | ⟨rfl, rfl, rfl⟩ | ⟨rfl, delivered⟩ := link.trySend sent
      · simp only [sent] at taken
        obtain rfl := Option.some.inj taken
        exact .sending owner rfl link' rfl stopped
      · simp only [sent] at taken
        obtain rfl := Option.some.inj taken
        exact .sending owner rfl link rfl stopped
      · simp only [sent] at taken
        obtain rfl := Option.some.inj taken
        exact .sent owner rfl delivered rfl
  | sent _ _ _ ended | gone _ ended => simp [ended] at taken

theorem Phase.owner (h : Phase s) (taken : s.ownerStep spurious = some t) : Phase t := by
  simp only [ownerStep] at taken
  cases h with
  | constructing owner _ run stopped joinable =>
      simp only [owner] at taken
      obtain rfl := Option.some.inj taken
      exact .live (.inl rfl) rfl ⟨rfl, rfl⟩ (.inl run) joinable
  | live owner at_ch closed waiting joinable =>
      obtain owner | owner := owner
      · simp [owner] at taken
      · simp only [owner] at taken
        obtain rfl := Option.some.inj taken
        exact .detaching rfl at_ch closed waiting joinable rfl
  | detaching owner at_ch closed waiting joinable stopped =>
      simp only [owner, joinable, if_true] at taken
      obtain rfl := Option.some.inj taken
      have link : Link _ .check (some .acquire) := closed.link (.inl rfl) (.inr rfl)
      obtain run | send := waiting
      · exact .waiting rfl at_ch link run stopped
      · exact .sending rfl at_ch link send stopped
  | @waiting ch pc owner at_ch link run stopped =>
      simp only [owner, at_ch] at taken
      cases received : ch.recvStep spurious pc with
      | none => simp [received] at taken
      | some result =>
          obtain ⟨ch', o⟩ := result
          obtain ⟨pc', rfl, link'⟩ := link.recv received
          simp only [received] at taken
          obtain rfl := Option.some.inj taken
          exact .waiting rfl rfl link' run stopped
  | @sending ch pc send owner at_ch link at_send stopped =>
      simp only [owner, at_ch] at taken
      cases received : ch.recvStep spurious pc with
      | none => simp [received] at taken
      | some result =>
          obtain ⟨ch', o⟩ := result
          obtain ⟨pc', rfl, link'⟩ := link.recv received
          simp only [received] at taken
          obtain rfl := Option.some.inj taken
          exact .sending rfl rfl link' at_send stopped
  | @sent ch pc owner at_ch delivered ended =>
      simp only [owner, at_ch] at taken
      cases received : ch.recvStep spurious pc with
      | none => simp [received] at taken
      | some result =>
          obtain ⟨ch', o⟩ := result
          obtain ⟨pc', rfl, delivered'⟩ | ⟨rfl, _⟩ := delivered.recv received
          · simp only [received] at taken
            obtain rfl := Option.some.inj taken
            exact .sent rfl rfl delivered' ended
          · simp only [received] at taken
            obtain rfl := Option.some.inj taken
            exact .gone (.inl rfl) ended
  | gone owner ended =>
      obtain owner | owner := owner
      · simp only [owner] at taken
        obtain rfl := Option.some.inj taken
        exact .gone (.inr rfl) ended
      · simp [owner] at taken

/-- Every step keeps the phase. -/
theorem Phase.step {action : ServiceAction} (h : Phase s) (admitted : StoppedLater s action)
    (enabled : s.step action = some t) : Phase t := by
  cases action with
  | thread spurious => exact h.thread enabled
  | owner spurious => exact h.owner enabled
  | destroy =>
      simp only [IoServiceSigleton.step] at enabled
      split_ifs at enabled with live
      obtain rfl := Option.some.inj enabled
      cases h with
      | live _ at_ch closed waiting joinable => exact .live (.inr rfl) at_ch closed waiting joinable
      | gone owner => simp [live] at owner
      | constructing owner | detaching owner | waiting owner | sending owner | sent owner =>
          simp [live] at owner
  | stop =>
      obtain rfl := Option.some.inj enabled
      have constructed : s.owner ≠ .construct := admitted
      cases h with
      | constructing owner => exact absurd owner constructed
      | live owner at_ch closed waiting joinable => exact .live owner at_ch closed waiting joinable
      | detaching owner at_ch closed waiting joinable =>
          exact .detaching owner at_ch closed waiting joinable rfl
      | waiting owner at_ch link run => exact .waiting owner at_ch link run rfl
      | sending owner at_ch link at_send => exact .sending owner at_ch link at_send rfl
      | sent owner at_ch delivered ended => exact .sent owner at_ch delivered ended
      | gone owner ended => exact .gone owner ended

/-- The destructor has been called. -/
def Destructing (s : IoServiceSigleton) : Prop := s.owner ≠ .construct ∧ s.owner ≠ .live

/-- Steps until the destructor is done. -/
def rank (s : IoServiceSigleton) : Nat :=
  match s.owner with
  | .stop => 20
  | .detach => 19
  | .recv pc =>
      match s.thread with
      | .run => pc.entryRank + 12
      | .trySend send => pc.entryRank + send.rank + 5
      | _ => pc.exitRank + 1
  | .destroy => 1
  | _ => 0

/-- The owner or the thread has a step towards the end of the destructor. -/
theorem Phase.progress (h : Phase s) (destructing : Destructing s) (busy : s.owner ≠ .destroyed) :
    ∃ a t, StoppedLater s a ∧ s.step a = some t ∧ Destructing t ∧ t.rank < s.rank := by
  have byOwner : ∀ t, s.ownerStep false = some t → Destructing t → t.rank < s.rank →
      ∃ a t, StoppedLater s a ∧ s.step a = some t ∧ Destructing t ∧ t.rank < s.rank :=
    fun t taken still less => ⟨.owner false, t, trivial, taken, still, less⟩
  have byThread : ∀ t, s.threadStep false = some t → Destructing t → t.rank < s.rank →
      ∃ a t, StoppedLater s a ∧ s.step a = some t ∧ Destructing t ∧ t.rank < s.rank :=
    fun t taken still less => ⟨.thread false, t, trivial, taken, still, less⟩
  cases h with
  | constructing owner => exact absurd owner destructing.1
  | live owner at_ch closed waiting joinable =>
      have owner := owner.resolve_left destructing.2
      refine byOwner { s with stopped := true, owner := .detach } (by simp [ownerStep, owner])
        (by simp [Destructing]) ?_
      simp [rank, owner]
  | detaching owner at_ch closed waiting joinable stopped =>
      refine byOwner { s with joinable := false, owner := .recv .check }
        (by simp [ownerStep, owner, joinable]) (by simp [Destructing]) ?_
      obtain run | send := waiting <;>
        simp [rank, *, Recv.entryRank, Send.rank]
  | @waiting ch pc owner at_ch link run stopped =>
      refine byThread { s with thread := .trySend .acquire } (by simp [threadStep, run, stopped])
        destructing ?_
      simp [rank, owner, run, Send.rank]
  | @sending ch pc send owner at_ch link at_send stopped =>
      rcases link.progress 1 with
        ⟨ch', pc', next, less⟩ | ⟨ch', send', next, less⟩ | ⟨ch', next⟩
      · refine byOwner { s with sigch := some ch', owner := .recv pc' }
          (by simp [ownerStep, owner, at_ch, next]) (by simp [Destructing]) ?_
        simpa [rank, owner, at_send] using less
      · refine byThread { s with sigch := some ch', thread := .trySend send' }
          (by simp [threadStep, at_send, at_ch, next]) destructing ?_
        simpa [rank, owner, at_send] using less
      · refine byThread { s with sigch := some ch', thread := .ended }
          (by simp [threadStep, at_send, at_ch, next]) destructing ?_
        have := pc.exitRank_le
        have := send.rank_pos
        simp only [rank, owner, at_send]
        omega
  | @sent ch pc owner at_ch delivered ended =>
      have pos := delivered.exitRank_pos
      obtain ⟨ch', pc', next, less⟩ | ⟨ch', next⟩ := delivered.progress
      · refine byOwner { s with sigch := some ch', owner := .recv pc' }
          (by simp [ownerStep, owner, at_ch, next]) (by simp [Destructing]) ?_
        simpa [rank, owner, ended] using less
      · refine byOwner { s with sigch := some ch', owner := .destroy }
          (by simp [ownerStep, owner, at_ch, next]) (by simp [Destructing]) ?_
        simp only [rank, owner, ended]
        omega
  | gone owner ended =>
      have owner := owner.resolve_right busy
      refine byOwner { s with sigch := none, owner := .destroyed } (by simp [ownerStep, owner])
        (by simp [Destructing]) ?_
      simp [rank, owner]

end IoServiceSigleton
end Vee
