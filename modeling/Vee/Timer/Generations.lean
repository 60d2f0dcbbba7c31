import Vee.Delegate.Basic
import Vee.Transition.Basic

/-!
# The waits of a timer

`xasync_timer` over the steady timer of the transport. A wait is pending until
its time has come; then its handler is queued with success. `expires_from_now`
aborts the pending waits, but not those that are queued. `run`, `stop` and the
handlers are single steps in any order, and the callback may call `run` and
`stop` itself or throw. A timer starts in IDLE here, although the constructor leaves
`_running_state` as it finds it.

`stop` leaves the pending wait alone and `run` cannot abort a queued one, so the
waits of two runs mix as soon as a `run` succeeds while a wait is queued, and
only then.
-/

namespace Vee

open Transition

/-- `xasync_timer::_state_id` -/
inductive TimerState where
  | idle
  | run
  deriving DecidableEq, Repr

/-- The history of a timer. A wait is a number, in the order of arming. -/
inductive TimerEvent (F : Type) where
  | run (callback : Delegate F)
  | stop
  | armed (wait : Nat)
  | called (wait : Nat) (e : Delegate F) (tick : BitVec 32)
  deriving DecidableEq, Repr

structure XasyncTimer (F : Type) where
  e : Delegate F := {}
  tick : BitVec 32 := 0
  runningState : TimerState := .idle
  /-- in milliseconds -/
  period : BitVec 32 := 0
  /-- waits that have not completed -/
  pending : List Nat := []
  /-- waits that completed with success, before their handlers -/
  queued : List Nat := []
  /-- waits that were aborted, before their handlers -/
  aborted : List Nat := []
  waits : Nat := 0
  events : List (TimerEvent F) := []
  deriving DecidableEq, Repr

def TimerEvent.isRun {F : Type} : TimerEvent F → Bool
  | run _ => true
  | _ => false

/-- The argument of the overloads of `run`. -/
inductive TimePeriod where
  | timePeriodMs (value : BitVec 32)
  | second (value : BitVec 32)
  | millisecond (value : BitVec 32)
  deriving DecidableEq, Repr

def TimePeriod.milliseconds : TimePeriod → BitVec 32
  | timePeriodMs value => value
  | second value => value * 1000
  | millisecond value => value

inductive TimerCall (F : Type) where
  | run (timePeriod : TimePeriod) (callback : Delegate F)
  | stop
  deriving DecidableEq, Repr

/-- `throws` says that the callback does not return normally. -/
inductive TimerAction (F : Type) where
  | call (c : TimerCall F)
  | complete (wait : Nat)
  | handle (wait : Nat) (calls : List (TimerCall F)) (throws : Bool)
  | handleAborted (wait : Nat)
  deriving DecidableEq, Repr

namespace XasyncTimer

variable {F : Type}

def log (event : TimerEvent F) (s : XasyncTimer F) : XasyncTimer F :=
  { s with events := s.events ++ [event] }

def isRunning (s : XasyncTimer F) : Bool := s.runningState = .run

/-- `expires_from_now` and `async_wait` -/
def setTimer (s : XasyncTimer F) : XasyncTimer F :=
  { s with
    pending := [s.waits]
    aborted := s.aborted ++ s.pending
    waits := s.waits + 1 }.log (.armed s.waits)

/-- The overloads of `run`; `_e = callback` keeps what `callback` has nothing for. -/
def run (timePeriod : TimePeriod) (callback : Delegate F) (s : XasyncTimer F) :
    Bool × XasyncTimer F :=
  match s.runningState with
  | .run => (false, s)
  | .idle => (true, ({ s with
      runningState := .run
      e := s.e.deepCopy callback
      tick := 0
      period := timePeriod.milliseconds }.log (.run callback)).setTimer)

def stop (s : XasyncTimer F) : Bool × XasyncTimer F :=
  match s.runningState with
  | .idle => (false, s)
  | .run => (true, { s with runningState := .idle }.log .stop)

def perform (s : XasyncTimer F) : TimerCall F → XasyncTimer F
  | .run timePeriod callback => (s.run timePeriod callback).2
  | .stop => s.stop.2

/-- `_on_timer` of a wait that completed with success; the callback makes `calls`. -/
def onTimer (wait : Nat) (calls : List (TimerCall F)) (throws : Bool) (s : XasyncTimer F) :
    XasyncTimer F :=
  if s.isRunning then
    let s := { s with tick := s.tick + 1 }
    let s := calls.foldl perform (s.log (.called wait s.e s.tick))
    if throws then s else s.setTimer
  else s

def step (s : XasyncTimer F) : TimerAction F → Option (XasyncTimer F)
  | .call c => some (s.perform c)
  | .complete wait =>
      if wait ∈ s.pending then some { s with
        pending := s.pending.erase wait
        queued := s.queued ++ [wait] }
      else none
  | .handle wait calls throws =>
      if wait ∈ s.queued then
        some ({ s with queued := s.queued.erase wait }.onTimer wait calls throws)
      else none
  | .handleAborted wait =>
      if wait ∈ s.aborted then some { s with aborted := s.aborted.erase wait } else none

/-- The events since the last successful `run`, when no `stop` is among them. -/
def Since (events since : List (TimerEvent F)) : Prop :=
  ∃ before callback, events = before ++ .run callback :: since ∧
    ∀ event ∈ since, event.isRun = false ∧ event ≠ .stop

/-- The wait was armed after the last successful `run`, and the timer has not been
stopped since. -/
def Current (events : List (TimerEvent F)) (wait : Nat) : Prop :=
  ∃ since, Since events since ∧ .armed wait ∈ since

/-- At most one wait can still call back, and the waits that did were current. -/
structure Separate (s : XasyncTimer F) : Prop where
  single : (s.pending ++ s.queued).length ≤ 1
  caused : ∀ before wait e tick after, s.events = before ++ .called wait e tick :: after →
    Current before wait

/-- A `run` that will succeed meets no queued wait. -/
def Settled (s : XasyncTimer F) : TimerAction F → Prop
  | .call (.run _ _) => s.runningState = .idle → s.queued = []
  | _ => True

variable {s t : XasyncTimer F} {a : TimerAction F} {as : List (TimerAction F)}
variable {events since : List (TimerEvent F)} {event : TimerEvent F} {wait : Nat}

/-- What the steps keep. While the timer runs, every wait that can still call back is
current. -/
structure Sound (s : XasyncTimer F) : Prop extends Separate s where
  active : s.runningState = .run → ∃ since, Since s.events since
  current : s.runningState = .run → ∀ wait ∈ s.pending ++ s.queued, Current s.events wait

theorem sound_init : Sound ({} : XasyncTimer F) where
  single := Nat.zero_le 1
  caused := by
    intro before wait e tick after same
    cases before <;> cases same
  active := nofun
  current := nofun

theorem Since.log (h : Since events since) (other : event.isRun = false ∧ event ≠ .stop) :
    Since (events ++ [event]) (since ++ [event]) := by
  obtain ⟨before, callback, rfl, none_since⟩ := h
  refine ⟨before, callback, by rw [List.append_assoc, List.cons_append], ?_⟩
  exact List.forall_mem_append.mpr ⟨none_since, by simpa using other⟩

theorem Current.log (h : Current events wait) (other : event.isRun = false ∧ event ≠ .stop) :
    Current (events ++ [event]) wait := by
  obtain ⟨since, current, armed⟩ := h
  exact ⟨since ++ [event], current.log other, List.mem_append_left _ armed⟩

/-- The waits that called back were current when they did. -/
def Caused (events : List (TimerEvent F)) : Prop :=
  ∀ before wait e tick after, events = before ++ .called wait e tick :: after →
    Current before wait

theorem Caused.log (h : Caused events)
    (last : ∀ wait e tick, event = .called wait e tick → Current events wait) :
    Caused (events ++ [event]) := by
  intro before wait e tick after same
  obtain ⟨rest, rfl, tail⟩ | ⟨rest, rfl, tail⟩ := List.append_eq_append_iff.mp same
  · cases rest with
    | nil =>
        rw [List.append_nil]
        exact last wait e tick (List.cons.inj tail).1
    | cons x rest => cases rest <;> cases tail
  · cases rest with
    | nil =>
        rw [List.append_nil] at last
        exact last wait e tick (List.cons.inj tail).1.symm
    | cons x rest =>
        obtain ⟨rfl, _⟩ := List.cons.inj tail
        exact h before wait e tick rest rfl

/-- Arming aborts what is pending, so it leaves one wait if none is queued. -/
theorem sound_setTimer (caused : Caused s.events)
    (active : s.runningState = .run → ∃ since, Since s.events since) (empty : s.queued = []) :
    Sound s.setTimer where
  single := by
    change ([s.waits] ++ s.queued).length ≤ 1
    rw [empty]
    exact Nat.le_refl 1
  caused := caused.log nofun
  active running := by
    obtain ⟨since, active⟩ := active running
    exact ⟨_, active.log ⟨rfl, nofun⟩⟩
  current running := by
    intro wait member
    change wait ∈ [s.waits] ++ s.queued at member
    rw [empty, List.append_nil, List.mem_singleton] at member
    obtain ⟨since, active⟩ := active running
    exact ⟨_, active.log ⟨rfl, nofun⟩, List.mem_append_right _ (by rw [member]; exact .head _)⟩

theorem Sound.stop (sound : Sound s) : Sound s.stop.2 := by
  cases state : s.runningState with
  | idle =>
      simp only [XasyncTimer.stop, state]
      exact sound
  | run =>
      simp only [XasyncTimer.stop, state]
      exact {
        single := sound.single
        caused := Caused.log sound.caused nofun
        active := nofun
        current := nofun }

theorem Sound.run (sound : Sound s) (timePeriod : TimePeriod) (callback : Delegate F)
    (settled : s.runningState = .idle → s.queued = []) : Sound (s.run timePeriod callback).2 := by
  cases state : s.runningState with
  | run =>
      simp only [XasyncTimer.run, state]
      exact sound
  | idle =>
      simp only [XasyncTimer.run, state]
      refine sound_setTimer (Caused.log sound.caused nofun) (fun _ => ⟨[], ?_⟩) (settled state)
      exact ⟨s.events, callback, rfl, nofun⟩

theorem Sound.perform (sound : Sound s) (c : TimerCall F) (settled : Settled s (.call c)) :
    Sound (s.perform c) := by
  cases c with
  | run timePeriod callback => exact sound.run timePeriod callback settled
  | stop => exact sound.stop

theorem perform_queued (s : XasyncTimer F) (c : TimerCall F) : (s.perform c).queued = s.queued := by
  cases c with
  | run timePeriod callback =>
      simp only [XasyncTimer.perform, XasyncTimer.run]
      cases s.runningState <;> rfl
  | stop =>
      simp only [XasyncTimer.perform, XasyncTimer.stop]
      cases s.runningState <;> rfl

/-- The calls of a callback while no other wait is queued. -/
theorem Sound.foldl (sound : Sound s) (empty : s.queued = []) (calls : List (TimerCall F)) :
    Sound (calls.foldl XasyncTimer.perform s) ∧
      (calls.foldl XasyncTimer.perform s).queued = [] := by
  induction calls generalizing s with
  | nil => exact ⟨sound, empty⟩
  | cons c calls ih =>
      have settled : Settled s (.call c) := by
        cases c with
        | run timePeriod callback => exact fun _ => empty
        | stop => trivial
      exact ih (sound.perform c settled) ((perform_queued s c).trans empty)

/-- Two lists with one element in all. -/
theorem singleton_of_mem {α : Type} {x : α} {xs ys : List α} (single : (xs ++ ys).length ≤ 1)
    (member : x ∈ xs) : xs = [x] ∧ ys = [] := by
  rw [List.length_append] at single
  have some_element := List.length_pos_of_mem member
  obtain ⟨y, rfl⟩ := List.length_eq_one_iff.mp (show xs.length = 1 by omega)
  rw [List.mem_singleton.mp member]
  exact ⟨rfl, List.length_eq_zero_iff.mp (by omega)⟩

/-- The handler of the only wait. -/
theorem Sound.onTimer (sound : Sound s) (empty : s.queued = [])
    (current : s.runningState = .run → Current s.events wait) (calls : List (TimerCall F))
    (throws : Bool) : Sound (s.onTimer wait calls throws) := by
  simp only [XasyncTimer.onTimer, isRunning]
  split
  · rename_i running
    rw [decide_eq_true_eq] at running
    have called : Sound ({ s with tick := s.tick + 1 }.log (.called wait s.e (s.tick + 1))) := {
      single := sound.single
      caused := by
        refine Caused.log sound.caused ?_
        intro wait' e tick same
        cases same
        exact current running
      active := by
        intro _
        obtain ⟨since, active⟩ := sound.active running
        exact ⟨_, active.log ⟨rfl, nofun⟩⟩
      current := by
        intro _ wait' member
        exact (sound.current running wait' member).log ⟨rfl, nofun⟩ }
    obtain ⟨after, none_queued⟩ := called.foldl empty calls
    split
    · exact after
    · exact sound_setTimer after.caused after.active none_queued
  · exact sound

theorem Sound.step (sound : Sound s) (settled : Settled s a) (h : XasyncTimer.step s a = some t) :
    Sound t := by
  cases a with
  | call c =>
      cases h
      exact sound.perform c settled
  | complete wait =>
      simp only [XasyncTimer.step] at h
      split at h
      · rename_i member
        cases h
        obtain ⟨pending, queued⟩ := singleton_of_mem sound.single member
        have moved : s.pending.erase wait ++ (s.queued ++ [wait]) = s.pending ++ s.queued := by
          rw [pending, queued, List.erase_cons_head]
          rfl
        exact {
          single := by
            change (s.pending.erase wait ++ (s.queued ++ [wait])).length ≤ 1
            rw [moved]
            exact sound.single
          caused := sound.caused
          active := sound.active
          current := by
            intro running wait' member'
            change wait' ∈ s.pending.erase wait ++ (s.queued ++ [wait]) at member'
            rw [moved] at member'
            exact sound.current running wait' member' }
      · cases h
  | handle wait calls throws =>
      simp only [XasyncTimer.step] at h
      split at h
      · rename_i member
        cases h
        have swapped : (s.queued ++ s.pending).length ≤ 1 := by
          rw [List.length_append, Nat.add_comm, ← List.length_append]
          exact sound.single
        obtain ⟨queued, pending⟩ := singleton_of_mem swapped member
        have empty : s.queued.erase wait = [] := by
          rw [queued, List.erase_cons_head]
        have taken : Sound { s with queued := s.queued.erase wait } := {
          single := by
            change (s.pending ++ s.queued.erase wait).length ≤ 1
            rw [pending, empty]
            exact Nat.zero_le 1
          caused := sound.caused
          active := sound.active
          current := by
            intro _ wait' member'
            change wait' ∈ s.pending ++ s.queued.erase wait at member'
            rw [pending, empty] at member'
            cases member' }
        exact taken.onTimer empty
          (fun running => sound.current running wait (List.mem_append_right _ member)) calls throws
      · cases h
  | handleAborted wait =>
      simp only [XasyncTimer.step] at h
      split at h
      · cases h
        exact ⟨⟨sound.single, sound.caused⟩, sound.active, sound.current⟩
      · cases h

/-- A `run` that meets a queued wait leaves two waits that can call back. -/
theorem settled_of_separate (h : XasyncTimer.step s a = some t) (separate : Separate t) :
    Settled s a := by
  cases a with
  | call c =>
      cases c with
      | run timePeriod callback =>
          intro idle
          simp only [XasyncTimer.step, XasyncTimer.perform, XasyncTimer.run, idle] at h
          cases h
          have single : ([s.waits] ++ s.queued).length ≤ 1 := separate.single
          exact (singleton_of_mem single (List.mem_singleton.mpr rfl)).2
      | stop => trivial
  | complete wait => trivial
  | handle wait calls throws => trivial
  | handleAborted wait => trivial

/-- In every run of an idle timer: at most one wait can call back, and the waits that
call back are current, in all its states, exactly if no `run` succeeds while a
wait is queued. -/
theorem separate_iff_settled (run : Run XasyncTimer.step unguarded {} as t) :
    Throughout XasyncTimer.step Separate {} as ↔
      Run XasyncTimer.step Settled ({} : XasyncTimer F) as t :=
  run.throughout_iff sound_init (fun _ sound => sound.toSeparate)
    (fun _ _ _ sound settled enabled => sound.step settled enabled)
    fun _ _ _ _ enabled separate => settled_of_separate enabled separate

/-- A delegate with one subscriber. -/
def subscriber : Delegate Unit := { container := [()] }

/-- A period ends while the timer is stopped and run again. -/
def hurriedRun : List (TimerAction Unit) :=
  [.call (.run (.timePeriodMs 10) subscriber), .complete 0, .call .stop,
    .call (.run (.timePeriodMs 10) subscriber), .handle 0 [] false]

/-- The new callback was called for the old wait. -/
def mixed : XasyncTimer Unit where
  e := subscriber
  tick := 1
  runningState := .run
  period := 10
  pending := [2]
  aborted := [1]
  waits := 3
  events := [.run subscriber, .armed 0, .stop, .run subscriber, .armed 1,
    .called 0 subscriber 1, .armed 2]

theorem run_hurriedRun : Run XasyncTimer.step unguarded {} hurriedRun mixed :=
  Run.iff_exec.mpr rfl

theorem mixed_not_separate : ¬ Separate mixed := by
  intro separate
  have caused : Current [.run subscriber, .armed 0, .stop, .run subscriber, .armed 1] 0 :=
    separate.caused _ 0 subscriber 1 [.armed 2] rfl
  obtain ⟨since, ⟨before, callback, same, none_since⟩, armed⟩ := caused
  obtain rfl | later :
      since = [.armed 0, .stop, .run subscriber, .armed 1] ∨ since = [.armed 1] := by
    rcases before with _ | ⟨_, _ | ⟨_, _ | ⟨_, _ | ⟨_, _ | ⟨_, before⟩⟩⟩⟩⟩ <;> simp at same
    · exact .inl same.2.symm
    · exact .inr same.2.2.2.2.symm
  · exact (none_since .stop (by decide)).2 rfl
  · rw [later] at armed
    revert armed
    decide

theorem separate_iff_settled_hurriedRun :
    ¬ Run XasyncTimer.step Settled {} hurriedRun mixed := by
  intro settled
  exact mixed_not_separate
    ((separate_iff_settled run_hurriedRun).mpr settled hurriedRun [] mixed rfl run_hurriedRun)

/-- A wait of the run before calls the callback of the run after it. -/
theorem generations_mix : ¬ ∀ (as : List (TimerAction Unit)) t,
    Run XasyncTimer.step unguarded {} as t → Separate t :=
  fun all => mixed_not_separate (all _ _ run_hurriedRun)

end XasyncTimer
end Vee
