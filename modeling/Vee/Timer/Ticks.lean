import Mathlib.Data.List.DropRight
import Mathlib.Data.List.Nodup
import Vee.Timer.Generations

/-!
# What the callback of a timer is called with

The calls of a timer from the point of view of its user, in every run, also where the
waits of two generations mix. Behind a successful `run` they are calls of its
callback, with the ticks 1, 2, 3 and so on; where the callback has no subscriber with
a key, or none without one, those of an earlier callback are called as well. Behind a
`stop` there are none until the next `run`; and no wait calls twice.

A callback that throws ends the chain of waits but not the state `RUN`. The timer is
then dead: it calls no more, and `run` fails until somebody calls `stop`.
-/

namespace Vee

open Transition

variable {F : Type}

namespace TimerEvent

/-- The callback of a successful `run`. -/
def callback : TimerEvent F → Option (Delegate F)
  | run callback => some callback
  | _ => none

/-- The delegate and the tick of a call. -/
def call : TimerEvent F → Option (Delegate F × BitVec 32)
  | called _ e tick => some (e, tick)
  | _ => none

/-- The wait behind a call. -/
def caller : TimerEvent F → Option Nat
  | called wait _ _ => some wait
  | _ => none

end TimerEvent

/-- The callback does not return normally. -/
def TimerAction.Throws : TimerAction F → Prop
  | .handle _ _ throws => throws = true
  | _ => False

namespace XasyncTimer

def callsOf (events : List (TimerEvent F)) : List (Delegate F × BitVec 32) :=
  events.filterMap TimerEvent.call

/-- The callbacks that successful calls of `run` were given. -/
def callbacksOf (events : List (TimerEvent F)) : List (Delegate F) :=
  events.filterMap TimerEvent.callback

/-- What the assignments of these callbacks have made of a new delegate. -/
def held (callbacks : List (Delegate F)) : Delegate F :=
  callbacks.foldl Delegate.deepCopy default

def callersOf (events : List (TimerEvent F)) : List Nat := events.filterMap TimerEvent.caller

/-- What has happened since the last successful `run`. -/
def latest (events : List (TimerEvent F)) : List (TimerEvent F) :=
  events.rtakeWhile (! ·.isRun)

/-- Calls of one delegate with the ticks in order. -/
def ticks (e : Delegate F) (n : Nat) : List (Delegate F × BitVec 32) :=
  (List.range n).map fun i => (e, BitVec.ofNat 32 (i + 1))

/-- The waits that can still call back. -/
def outstanding (s : XasyncTimer F) : List Nat := s.pending ++ s.queued

/-- Every `stop` has a `run` behind it, or no call. -/
def Quiet (P : List (TimerEvent F) → Prop) (events : List (TimerEvent F)) : Prop :=
  ∀ before after, events = before ++ .stop :: after →
    (∃ callback, .run callback ∈ after) ∨ P after

/-- What the steps keep, in any order of them. -/
structure Ticking (s : XasyncTimer F) : Prop where
  known : ∀ wait ∈ callersOf s.events ++ s.outstanding, wait < s.waits
  once : (callersOf s.events ++ s.outstanding).Nodup
  assigned : s.e = held (callbacksOf s.events)
  counted : ∃ n, callsOf (latest s.events) = ticks s.e n ∧ s.tick = BitVec.ofNat 32 n
  stopped : Quiet (fun after => callsOf after = []) s.events
  resumed : s.runningState = .run → Quiet (fun _ => False) s.events

variable {s t : XasyncTimer F} {a : TimerAction F} {as : List (TimerAction F)}
variable {events : List (TimerEvent F)} {event : TimerEvent F} {wait : Nat}
variable {P : List (TimerEvent F) → Prop}

theorem callsOf_log : callsOf (events ++ [event]) = callsOf events ++ event.call.toList := by
  rw [callsOf, List.filterMap_append, List.filterMap_cons, List.filterMap_nil]
  cases event.call <;> rfl

theorem callersOf_log :
    callersOf (events ++ [event]) = callersOf events ++ event.caller.toList := by
  rw [callersOf, List.filterMap_append, List.filterMap_cons, List.filterMap_nil]
  cases event.caller <;> rfl

theorem callsOf_silent (silent : event.call = none) :
    callsOf (events ++ [event]) = callsOf events := by
  rw [callsOf_log, silent]
  exact List.append_nil _

theorem callersOf_silent (silent : event.caller = none) :
    callersOf (events ++ [event]) = callersOf events := by
  rw [callersOf_log, silent]
  exact List.append_nil _

theorem callbacksOf_silent (other : event.isRun = false) :
    callbacksOf (events ++ [event]) = callbacksOf events := by
  rw [callbacksOf, List.filterMap_append]
  cases event with
  | run callback => cases other
  | _ => exact List.append_nil _

theorem callbacksOf_run (events : List (TimerEvent F)) (callback : Delegate F) :
    callbacksOf (events ++ [.run callback]) = callbacksOf events ++ [callback] :=
  List.filterMap_append

/-- The callbacks before and the last one. -/
theorem held_concat (callbacks : List (Delegate F)) (callback : Delegate F) :
    held (callbacks ++ [callback]) = (held callbacks).deepCopy callback :=
  List.foldl_append

/-- A callback that lacks no kind of subscriber that one of the callbacks has lacks
none that all of them have left. -/
theorem covers_held {callbacks : List (Delegate F)} {callback : Delegate F}
    (covers : ∀ e ∈ callbacks, e.Covers callback) : (held callbacks).Covers callback := by
  induction callbacks using List.reverseRecOn with
  | nil => exact .empty callback
  | append_singleton callbacks last ih =>
      have before := ih fun e member => covers e (List.mem_append_left _ member)
      rw [held_concat]
      exact before.deepCopy (covers last (List.mem_append_right _ (List.mem_singleton_self _)))

theorem latest_log (other : event.isRun = false) :
    latest (events ++ [event]) = latest events ++ [event] :=
  List.rtakeWhile_concat_pos _ _ _ (by rw [other]; rfl)

theorem latest_run (callback : Delegate F) : latest (events ++ [.run callback]) = [] :=
  List.rtakeWhile_concat_neg _ _ _ Bool.false_ne_true

theorem ticks_succ (e : Delegate F) (n : Nat) :
    ticks e (n + 1) = ticks e n ++ [(e, BitVec.ofNat 32 (n + 1))] := by
  simp only [ticks, List.range_succ, List.map_append, List.map_cons, List.map_nil]

/-- An event behind a part that is cut at a `stop`. -/
theorem cut_log {before after : List (TimerEvent F)}
    (cut : events ++ [event] = before ++ .stop :: after) :
    (after = [] ∧ event = .stop) ∨
      ∃ front, after = front ++ [event] ∧ events = before ++ .stop :: front := by
  obtain rfl | ⟨front, last, rfl⟩ := List.eq_nil_or_concat' after
  · obtain ⟨_, same⟩ := List.append_inj' cut rfl
    exact .inl ⟨rfl, (List.cons.inj same).1⟩
  · rw [← List.cons_append, ← List.append_assoc] at cut
    obtain ⟨parts, same⟩ := List.append_inj' cut rfl
    exact .inr ⟨front, congrArg (front ++ ·) same.symm, parts⟩

theorem Quiet.log (quiet : Quiet P events) (more : ∀ front, P front → P (front ++ [event]))
    (alone : event = .stop → P []) : Quiet P (events ++ [event]) := by
  intro before after cut
  obtain ⟨rfl, rfl⟩ | ⟨front, rfl, parts⟩ := cut_log cut
  · exact .inr (alone rfl)
  · refine (quiet before front parts).imp ?_ (more front)
    rintro ⟨callback, member⟩
    exact ⟨callback, List.mem_append_left _ member⟩

/-- A `run` stands behind every `stop` then. -/
theorem quiet_run (callback : Delegate F) : Quiet P (events ++ [.run callback]) := by
  intro before after cut
  obtain ⟨_, other⟩ | ⟨front, rfl, _⟩ := cut_log cut
  · cases other
  · exact .inl ⟨callback, List.mem_append_right _ (List.mem_singleton_self _)⟩

/-- An event that is no call. -/
theorem Quiet.silent (quiet : Quiet (fun after => callsOf after = []) events)
    (silent : event.call = none) :
    Quiet (fun after => callsOf after = []) (events ++ [event]) :=
  quiet.log (fun _ none => (callsOf_silent silent).trans none) fun _ => rfl

theorem counted_silent {e : Delegate F} {tick : BitVec 32} (silent : event.call = none)
    (other : event.isRun = false)
    (counted : ∃ n, callsOf (latest events) = ticks e n ∧ tick = BitVec.ofNat 32 n) :
    ∃ n, callsOf (latest (events ++ [event])) = ticks e n ∧ tick = BitVec.ofNat 32 n := by
  obtain ⟨n, calls, tick⟩ := counted
  refine ⟨n, ?_, tick⟩
  rw [latest_log other, callsOf_silent silent, calls]

/-- Arming takes a new wait. -/
theorem Ticking.setTimer (ticking : Ticking s) : Ticking s.setTimer := by
  have callers : callersOf (s.events ++ [.armed s.waits]) = callersOf s.events :=
    callersOf_silent rfl
  have fewer : (callersOf s.events ++ s.queued).Sublist (callersOf s.events ++ s.outstanding) :=
    (List.Sublist.refl _).append (List.sublist_append_right _ _)
  have new : s.waits ∉ callersOf s.events ++ s.queued := fun member =>
    Nat.lt_irrefl _ (ticking.known _ (fewer.subset member))
  exact {
    known := by
      intro wait member
      change wait ∈ callersOf (s.events ++ [.armed s.waits]) ++ ([s.waits] ++ s.queued) at member
      rw [callers, List.mem_append, List.mem_append, List.mem_singleton] at member
      change wait < s.waits + 1
      obtain called | rfl | queued := member
      · exact Nat.lt_succ_of_lt (ticking.known _ (List.mem_append_left _ called))
      · exact Nat.lt_succ_self _
      · exact Nat.lt_succ_of_lt (ticking.known _ (fewer.subset (List.mem_append_right _ queued)))
    once := by
      change (callersOf (s.events ++ [.armed s.waits]) ++ (s.waits :: s.queued)).Nodup
      rw [callers, List.nodup_middle]
      exact List.nodup_cons.mpr ⟨new, ticking.once.sublist fewer⟩
    assigned := ticking.assigned.trans (congrArg held (callbacksOf_silent rfl).symm)
    counted := counted_silent rfl rfl ticking.counted
    stopped := ticking.stopped.silent rfl
    resumed := fun running =>
      (ticking.resumed running).log (fun _ => id) fun same => by cases same }

theorem Ticking.run (ticking : Ticking s) (timePeriod : TimePeriod) (callback : Delegate F) :
    Ticking (s.run timePeriod callback).2 := by
  cases state : s.runningState with
  | run =>
      simp only [XasyncTimer.run, state]
      exact ticking
  | idle =>
      simp only [XasyncTimer.run, state]
      have callers : callersOf (s.events ++ [.run callback]) = callersOf s.events :=
        callersOf_silent rfl
      apply Ticking.setTimer
      exact {
        known := by
          change ∀ wait ∈ callersOf (s.events ++ [.run callback]) ++ s.outstanding, wait < s.waits
          rw [callers]
          exact ticking.known
        once := by
          change (callersOf (s.events ++ [.run callback]) ++ s.outstanding).Nodup
          rw [callers]
          exact ticking.once
        assigned := by
          change s.e.deepCopy callback = held (callbacksOf (s.events ++ [.run callback]))
          rw [callbacksOf_run, held_concat, ← ticking.assigned]
        counted := by
          refine ⟨0, ?_, rfl⟩
          change callsOf (latest (s.events ++ [.run callback])) = _
          rw [latest_run]
          rfl
        stopped := quiet_run callback
        resumed := fun _ => quiet_run callback }

theorem Ticking.stop (ticking : Ticking s) : Ticking s.stop.2 := by
  cases state : s.runningState with
  | idle =>
      simp only [XasyncTimer.stop, state]
      exact ticking
  | run =>
      simp only [XasyncTimer.stop, state]
      have callers : callersOf (s.events ++ [.stop]) = callersOf s.events := callersOf_silent rfl
      exact {
        known := by
          change ∀ wait ∈ callersOf (s.events ++ [.stop]) ++ s.outstanding, wait < s.waits
          rw [callers]
          exact ticking.known
        once := by
          change (callersOf (s.events ++ [.stop]) ++ s.outstanding).Nodup
          rw [callers]
          exact ticking.once
        assigned := ticking.assigned.trans (congrArg held (callbacksOf_silent rfl).symm)
        counted := counted_silent rfl rfl ticking.counted
        stopped := ticking.stopped.silent rfl
        resumed := fun running => by cases running }

theorem Ticking.perform (ticking : Ticking s) (c : TimerCall F) : Ticking (s.perform c) := by
  cases c with
  | run timePeriod callback => exact ticking.run timePeriod callback
  | stop => exact ticking.stop

theorem Ticking.foldl (ticking : Ticking s) (calls : List (TimerCall F)) :
    Ticking (calls.foldl XasyncTimer.perform s) := by
  induction calls generalizing s with
  | nil => exact ticking
  | cons c calls ih => exact ih (ticking.perform c)

/-- The waits that can call back are taken as they are in some order. -/
theorem Ticking.perm {pending queued aborted : List Nat} (ticking : Ticking s)
    (same : (pending ++ queued).Perm s.outstanding) :
    Ticking { s with pending, queued, aborted } where
  known := by
    intro wait member
    apply ticking.known
    exact ((List.Perm.refl _).append same).mem_iff.mp member
  once := ((List.Perm.refl _).append same).nodup_iff.mpr ticking.once
  assigned := ticking.assigned
  counted := ticking.counted
  stopped := ticking.stopped
  resumed := ticking.resumed

/-- The handler of a wait. The callback is called only while the timer runs. -/
theorem Ticking.onTimer (ticking : Ticking s) (member : wait ∈ s.queued)
    (calls : List (TimerCall F)) (throws : Bool) :
    Ticking ({ s with queued := s.queued.erase wait }.onTimer wait calls throws) := by
  have taken : (s.pending ++ s.queued.erase wait).Sublist s.outstanding :=
    (List.Sublist.refl _).append List.erase_sublist
  have moved : ((callersOf s.events ++ [wait]) ++ (s.pending ++ s.queued.erase wait)).Perm
      (callersOf s.events ++ s.outstanding) := by
    rw [List.append_assoc, List.singleton_append]
    have back : (s.pending ++ wait :: s.queued.erase wait).Perm s.outstanding :=
      (List.Perm.refl _).append (List.perm_cons_erase member).symm
    exact (List.Perm.refl _).append (List.perm_middle.symm.trans back)
  simp only [XasyncTimer.onTimer, isRunning]
  split
  · rename_i running
    rw [decide_eq_true_eq] at running
    have resumed : Quiet (fun _ => False) (s.events ++ [.called wait s.e (s.tick + 1)]) :=
      (ticking.resumed running).log (fun _ => id) fun same => by cases same
    have callers : callersOf (s.events ++ [.called wait s.e (s.tick + 1)]) =
        callersOf s.events ++ [wait] := callersOf_log
    have called : Ticking ({ s with
        queued := s.queued.erase wait
        tick := s.tick + 1 }.log (.called wait s.e (s.tick + 1))) := {
      known := by
        change ∀ wait' ∈ callersOf (s.events ++ [.called wait s.e (s.tick + 1)]) ++
          (s.pending ++ s.queued.erase wait), wait' < s.waits
        rw [callers]
        exact fun wait' listed => ticking.known wait' (moved.mem_iff.mp listed)
      once := by
        change (callersOf (s.events ++ [.called wait s.e (s.tick + 1)]) ++
          (s.pending ++ s.queued.erase wait)).Nodup
        rw [callers]
        exact moved.nodup_iff.mpr ticking.once
      assigned := ticking.assigned.trans (congrArg held (callbacksOf_silent rfl).symm)
      counted := by
        obtain ⟨n, calls, tick⟩ := ticking.counted
        have next : s.tick + 1 = BitVec.ofNat 32 (n + 1) := by
          rw [tick]
          exact (BitVec.ofNat_add n 1).symm
        refine ⟨n + 1, ?_, next⟩
        change callsOf (latest (s.events ++ [.called wait s.e (s.tick + 1)])) = _
        rw [latest_log rfl, callsOf_log, calls, ticks_succ, ← next]
        rfl
      stopped := fun before after cut => .inl ((resumed before after cut).resolve_right id)
      resumed := fun _ => resumed }
    have after := called.foldl calls
    split
    · exact after
    · exact after.setTimer
  · exact {
      known := fun wait' listed =>
        ticking.known wait' (((List.Sublist.refl _).append taken).subset listed)
      once := ticking.once.sublist ((List.Sublist.refl _).append taken)
      assigned := ticking.assigned
      counted := ticking.counted
      stopped := ticking.stopped
      resumed := ticking.resumed }

theorem perm_complete (member : wait ∈ s.pending) :
    (s.pending.erase wait ++ (s.queued ++ [wait])).Perm s.outstanding := by
  have front : (s.pending.erase wait ++ (s.queued ++ [wait])).Perm
      (s.pending.erase wait ++ wait :: s.queued) :=
    (List.Perm.refl _).append (List.perm_append_singleton wait s.queued)
  have whole : (wait :: s.pending.erase wait ++ s.queued).Perm s.outstanding :=
    (List.perm_cons_erase member).symm.append_right s.queued
  exact front.trans (List.perm_middle.trans whole)

theorem Ticking.step (ticking : Ticking s) (h : XasyncTimer.step s a = some t) : Ticking t := by
  cases a with
  | call c =>
      cases h
      exact ticking.perform c
  | complete wait =>
      simp only [XasyncTimer.step] at h
      split at h
      · rename_i member
        cases h
        exact ticking.perm (perm_complete member)
      · cases h
  | handle wait calls throws =>
      simp only [XasyncTimer.step] at h
      split at h
      · rename_i member
        cases h
        exact ticking.onTimer member calls throws
      · cases h
  | handleAborted wait =>
      simp only [XasyncTimer.step] at h
      split at h
      · cases h
        exact ticking.perm (List.Perm.refl _)
      · cases h

theorem ticking_init : Ticking ({} : XasyncTimer F) where
  known := fun _ member => absurd member List.not_mem_nil
  once := List.nodup_nil
  assigned := rfl
  counted := ⟨0, rfl, rfl⟩
  stopped := fun before after cut => by cases before <;> cases cut
  resumed := fun running => by cases running

/-- A timer that runs has a wait that will call. -/
def Alive (s : XasyncTimer F) : Prop := s.runningState = .run → s.outstanding ≠ []

/-- `_set_timer` is the last step of every handler whose callback returns. -/
theorem Alive.step (alive : Alive s) (returns : ¬ a.Throws)
    (h : XasyncTimer.step s a = some t) : Alive t := by
  cases a with
  | call c =>
      cases h
      cases c with
      | run timePeriod callback =>
          simp only [perform, XasyncTimer.run]
          split
          · exact alive
          · exact fun _ => List.cons_ne_nil _ _
      | stop =>
          simp only [perform, XasyncTimer.stop]
          split
          · exact alive
          · exact fun running => by cases running
  | complete wait =>
      simp only [XasyncTimer.step] at h
      split at h
      · rename_i member
        cases h
        exact fun _ => List.append_ne_nil_of_right_ne_nil _
          (List.append_ne_nil_of_right_ne_nil _ (List.cons_ne_nil _ _))
      · cases h
  | handle wait calls throws =>
      simp only [XasyncTimer.step] at h
      split at h
      · cases h
        cases throws with
        | true => exact absurd rfl returns
        | false =>
            simp only [onTimer, isRunning, Bool.false_eq_true, if_false]
            split
            · exact fun _ => List.cons_ne_nil _ _
            · rename_i idle
              exact fun running => absurd (decide_eq_true running) idle
      · cases h
  | handleAborted wait =>
      simp only [XasyncTimer.step] at h
      split at h
      · cases h
        exact alive
      · cases h

/-- Running, and without a wait. -/
structure Dead (s : XasyncTimer F) : Prop where
  running : s.runningState = .run
  idle : s.outstanding = []

theorem Dead.step (dead : Dead s) (unstopped : a ≠ .call .stop)
    (h : XasyncTimer.step s a = some t) : Dead t ∧ t.events = s.events := by
  obtain ⟨pending, queued⟩ := List.append_eq_nil_iff.mp dead.idle
  cases a with
  | call c =>
      cases h
      cases c with
      | run timePeriod callback =>
          simp only [perform, XasyncTimer.run, dead.running]
          exact ⟨dead, trivial⟩
      | stop => exact absurd rfl unstopped
  | complete wait =>
      simp only [XasyncTimer.step, pending, List.not_mem_nil, if_false] at h
      cases h
  | handle wait calls throws =>
      simp only [XasyncTimer.step, queued, List.not_mem_nil, if_false] at h
      cases h
  | handleAborted wait =>
      simp only [XasyncTimer.step] at h
      split at h
      · cases h
        exact ⟨⟨dead.running, dead.idle⟩, rfl⟩
      · cases h

/-- Some `run` stands behind a `stop`. -/
def restarts : List (TimerCall F) → Bool
  | [] => false
  | .run _ _ :: calls => restarts calls
  | .stop :: calls => calls.any fun
      | .run _ _ => true
      | .stop => false

/-- A callback does not start the timer again once it has stopped it: `_e` is not
assigned to while it is called. -/
def Steady (_ : XasyncTimer F) : TimerAction F → Prop
  | .handle _ calls _ => restarts calls = false
  | _ => True

instance (s : XasyncTimer F) (a : TimerAction F) : Decidable (Steady s a) :=
  match a with
  | .handle _ calls _ => inferInstanceAs (Decidable (restarts calls = false))
  | .call _ | .complete _ | .handleAborted _ => inferInstanceAs (Decidable True)

/-- Behind a `run` that no other one has followed. -/
theorem latest_since {before after : List (TimerEvent F)} {callback : Delegate F}
    (last : ∀ event ∈ after, event.isRun = false) :
    latest (before ++ .run callback :: after) = after := by
  induction after using List.reverseRecOn with
  | nil => exact latest_run callback
  | append_singleton after event ih =>
      have earlier := ih fun other member => last other (List.mem_append_left _ member)
      have whole : before ++ .run callback :: (after ++ [event]) =
          (before ++ .run callback :: after) ++ [event] := by
        rw [List.append_assoc, List.cons_append]
      rw [whole, latest_log (last event (List.mem_append_right _ (List.mem_singleton_self _))),
        earlier]

/-- A callback that lacks no kind of subscriber that an earlier one has is called
itself. -/
theorem Ticking.own (ticking : Ticking s) {before after : List (TimerEvent F)}
    {callback : Delegate F} (cut : s.events = before ++ .run callback :: after)
    (last : ∀ event ∈ after, event.isRun = false)
    (covers : ∀ e ∈ callbacksOf before, e.Covers callback) :
    ∃ n, callsOf after = ticks callback n := by
  obtain ⟨n, calls, _⟩ := ticking.counted
  have later : callbacksOf after = [] := by
    rw [callbacksOf, List.filterMap_eq_nil_iff]
    intro event member
    cases event with
    | run callback => cases last _ member
    | _ => rfl
  have parts : callbacksOf s.events = callbacksOf before ++ [callback] := by
    rw [cut, List.append_cons before, callbacksOf, List.filterMap_append]
    change callbacksOf (before ++ [.run callback]) ++ callbacksOf after = _
    rw [later, List.append_nil, callbacksOf_run]
  have own : s.e = callback := by
    rw [ticking.assigned, parts, held_concat]
    exact Delegate.deepCopy_of_covers (covers_held covers)
  rw [cut, latest_since last, own] at calls
  exact ⟨n, calls⟩

/-- In every run of an idle timer, also where the waits of two runs mix: the calls since
the last successful `run` are calls of what the callbacks given to `run` have left in
`_e`, with the ticks 1, 2, 3 and so on, and so of the last callback if it lacks no kind
of subscriber that an earlier one has; no call stands behind a `stop` that no `run` has
followed; no wait has called twice; while no callback throws, a running timer has a wait
that will call; and a running timer that has none neither calls nor can be run until it
is stopped. -/
theorem callback_told_ticks (run : Run XasyncTimer.step Steady {} as t) :
    (∃ n, callsOf (latest t.events) = ticks (held (callbacksOf t.events)) n) ∧
    (∀ before callback after, t.events = before ++ .run callback :: after →
      (∀ event ∈ after, event.isRun = false) →
        (∀ e ∈ callbacksOf before, e.Covers callback) → ∃ n, callsOf after = ticks callback n) ∧
    (∀ before after, t.events = before ++ .stop :: after →
      (∀ callback, .run callback ∉ after) → callsOf after = []) ∧
    (callersOf t.events).Nodup ∧
    (Run XasyncTimer.step (fun _ a => ¬ a.Throws) {} as t → Alive t) ∧
    (Dead t → ∀ bs u, Run XasyncTimer.step (fun _ a => a ≠ .call .stop) t bs u →
      u.events = t.events ∧ ∀ timePeriod callback, (u.run timePeriod callback).1 = false) := by
  have ticking : Ticking t :=
    run.invariant ticking_init fun _ _ _ ticking _ enabled => ticking.step enabled
  refine ⟨?_, fun before callback after cut last covers => ticking.own cut last covers,
    fun before after cut unresumed => ?_, (List.nodup_append.mp ticking.once).1,
    fun returning => ?_, fun dead bs u later => ?_⟩
  · obtain ⟨n, calls, _⟩ := ticking.counted
    rw [ticking.assigned] at calls
    exact ⟨n, calls⟩
  · refine (ticking.stopped before after cut).resolve_left ?_
    rintro ⟨callback, member⟩
    exact unresumed callback member
  · refine returning.invariant (I := Alive) (fun running => by cases running) ?_
    exact fun _ _ _ alive returns enabled => alive.step returns enabled
  · obtain ⟨still, same⟩ := later.invariant (I := fun u => Dead u ∧ u.events = t.events)
      ⟨dead, rfl⟩ fun _ _ _ inside unstopped enabled => by
        obtain ⟨still, same⟩ := inside.1.step unstopped enabled
        exact ⟨still, same.trans inside.2⟩
    refine ⟨same, fun timePeriod callback => ?_⟩
    simp only [XasyncTimer.run, still.running]

/-- A callback that stops the timer when it is called for the second time. -/
def stoppedBySecond : List (TimerAction Unit) :=
  [.call (.run (.second 1) subscriber), .complete 0, .handle 0 [] false, .complete 1,
    .handle 1 [.stop] false]

theorem callback_told_ticks_twice : ∃ t : XasyncTimer Unit,
    Run XasyncTimer.step Steady {} stoppedBySecond t ∧
    callsOf t.events = [(subscriber, 1), (subscriber, 2)] ∧
    (∃ n, callsOf (latest t.events) = ticks (held (callbacksOf t.events)) n) ∧
    (callersOf t.events).Nodup := by
  have run : Run XasyncTimer.step Steady {} stoppedBySecond _ := Run.iff_exec.mpr rfl
  obtain ⟨ticks, _, _, once, _⟩ := callback_told_ticks run
  exact ⟨_, run, rfl, ticks, once⟩

end XasyncTimer
end Vee
