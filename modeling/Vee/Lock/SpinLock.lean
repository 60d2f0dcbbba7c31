import Mathlib.Logic.Function.Basic
import Vee.Transition.Basic

/-!
# The spin lock

`spin_lock` and any number of threads that call its operations in any order. The
flag is atomic, so every `test_and_set` and every `clear` is one step; `lock`
repeats its step until the flag was clear. A thread is a holder after `lock` has
returned or `try_lock` has returned true, and calls `unlock` only as a holder.

`try_lock` returns what `test_and_set` returns, which is true when the lock is
taken. It is harmless only for the thread that has the lock already.
-/

namespace Vee

open Transition

/-- `std::atomic_flag`, and the threads. -/
structure SpinLock (T : Type) where
  /-- `spin_lock()` clears the flag -/
  flag : Bool := false
  holds : T → Bool := fun _ => false
  /-- in the loop of `lock` -/
  spinning : T → Bool := fun _ => false
  /-- the calls of `try_lock`: the flag before, the result and the flag after -/
  tries : List (Bool × Bool × Bool) := []

inductive LockAction (T : Type) where
  | lock (thread : T)
  | spin (thread : T)
  | tryLock (thread : T)
  | unlock (thread : T)
  deriving DecidableEq, Repr

namespace SpinLock

variable {T : Type} [DecidableEq T]

/-- `test_and_set`: the value before, and the flag after. -/
def testAndSet (flag : Bool) : Bool × Bool := (flag, true)

def step (s : SpinLock T) : LockAction T → Option (SpinLock T)
  | .lock thread =>
      if s.spinning thread then none
      else some { s with spinning := Function.update s.spinning thread true }
  | .spin thread =>
      if s.spinning thread then
        match testAndSet s.flag with
        | (true, flag) => some { s with flag }
        | (false, flag) => some { s with
            flag
            holds := Function.update s.holds thread true
            spinning := Function.update s.spinning thread false }
      else none
  | .tryLock thread =>
      if s.spinning thread then none
      else
        match testAndSet s.flag with
        | (result, flag) => some { s with
            flag
            holds := if result then Function.update s.holds thread true else s.holds
            tries := s.tries ++ [(s.flag, result, flag)] }
  | .unlock thread =>
      if s.holds thread ∧ ¬ s.spinning thread then
        some { s with flag := false, holds := Function.update s.holds thread false }
      else none

/-- At most one thread is a holder, and a `try_lock` that returned false did not set
a clear flag. -/
structure Exclusive (s : SpinLock T) : Prop where
  single : ∀ t u, s.holds t = true → s.holds u = true → t = u
  refused : ∀ before result after, (before, result, after) ∈ s.tries → result = false →
    ¬ (before = false ∧ after = true)

/-- `try_lock` is called only by the thread that has the lock. -/
def Holding (s : SpinLock T) : LockAction T → Prop
  | .tryLock thread => s.holds thread = true
  | _ => True

/-- The flag is set exactly while there is a holder. -/
structure Sound (s : SpinLock T) : Prop extends Exclusive s where
  flagged : s.flag = true ↔ ∃ t, s.holds t = true

variable {s t : SpinLock T} {a : LockAction T} {as : List (LockAction T)} {thread : T}

omit [DecidableEq T] in
theorem sound_init : Sound ({} : SpinLock T) where
  single := nofun
  refused := nofun
  flagged := by simp

omit [DecidableEq T] in
theorem Sound.wait (sound : Sound s) (spinning : T → Bool) : Sound { s with spinning } where
  single := sound.single
  refused := sound.refused
  flagged := sound.flagged

/-- The first thread that finds the flag clear is the only holder. -/
theorem Sound.acquire (sound : Sound s) (clear : s.flag = false) (thread : T)
    (spinning : T → Bool) : Sound { s with
      flag := true
      holds := Function.update s.holds thread true
      spinning } where
  single := by
    have nobody (u : T) : s.holds u = false := by
      rw [← Bool.not_eq_true]
      intro holds
      have flagged := sound.flagged.mpr ⟨u, holds⟩
      rw [clear] at flagged
      cases flagged
    have only {u : T} (holds : Function.update s.holds thread true u = true) : u = thread := by
      by_contra other
      rw [Function.update_of_ne other, nobody] at holds
      cases holds
    intro t u first second
    rw [only first, only second]
  refused := sound.refused
  flagged := iff_of_true rfl ⟨thread, Function.update_self _ _ _⟩

theorem Sound.unlock (sound : Sound s) (holds : s.holds thread = true) :
    Sound { s with flag := false, holds := Function.update s.holds thread false } := by
  have nobody (u : T) : Function.update s.holds thread false u = false := by
    by_cases same : u = thread
    · rw [same, Function.update_self]
    · rw [Function.update_of_ne same, ← Bool.not_eq_true]
      exact fun other => same (sound.single u thread other holds)
  have none_holds (u : T) (h : Function.update s.holds thread false u = true) : False := by
    rw [nobody] at h
    cases h
  exact {
    single := fun t _ first => (none_holds t first).elim
    refused := sound.refused
    flagged := iff_of_false Bool.false_ne_true fun ⟨u, other⟩ => none_holds u other }

/-- The call of the holder returns true and changes nothing. -/
theorem Sound.tryLock (sound : Sound s) (holds : s.holds thread = true)
    (h : SpinLock.step s (.tryLock thread) = some t) : Sound t := by
  have set : s.flag = true := sound.flagged.mpr ⟨thread, holds⟩
  have same : Function.update s.holds thread true = s.holds := by
    rw [← holds, Function.update_eq_self]
  simp only [SpinLock.step, testAndSet, set, same] at h
  split at h
  · cases h
  · cases h
    exact {
      single := sound.single
      refused := by
        intro before result after member refused
        obtain earlier | last := List.mem_append.mp member
        · exact sound.refused before result after earlier refused
        · cases List.mem_singleton.mp last
          cases refused
      flagged := iff_of_true rfl ⟨thread, holds⟩ }

theorem Sound.step (sound : Sound s) (holding : Holding s a) (h : SpinLock.step s a = some t) :
    Sound t := by
  cases a with
  | lock thread =>
      simp only [SpinLock.step] at h
      split at h
      · cases h
      · cases h
        exact sound.wait _
  | spin thread =>
      simp only [SpinLock.step, testAndSet] at h
      split at h
      · cases clear : s.flag with
        | true =>
            rw [clear] at h
            cases h
            exact ⟨⟨sound.single, sound.refused⟩, iff_of_true rfl (sound.flagged.mp clear)⟩
        | false =>
            rw [clear] at h
            cases h
            exact sound.acquire clear thread _
      · cases h
  | tryLock thread => exact sound.tryLock holding h
  | unlock thread =>
      simp only [SpinLock.step] at h
      split at h
      · rename_i enabled
        cases h
        exact sound.unlock enabled.1
      · cases h

/-- Any other call of `try_lock` makes a second holder, or takes the lock and
returns false. -/
theorem holding_of_exclusive (sound : Sound s) (h : SpinLock.step s a = some t)
    (exclusive : Exclusive t) : Holding s a := by
  cases a with
  | tryLock thread =>
      simp only [SpinLock.step, testAndSet] at h
      split at h
      · cases h
      · cases flag : s.flag with
        | false =>
            rw [flag] at h
            cases h
            have taken : (false, false, true) ∈ s.tries ++ [(false, false, true)] :=
              List.mem_append_right _ (.head _)
            exact absurd ⟨rfl, rfl⟩ (exclusive.refused _ _ _ taken rfl)
        | true =>
            rw [flag] at h
            cases h
            obtain ⟨u, holds⟩ := sound.flagged.mp flag
            by_cases same : u = thread
            · rw [same] at holds
              exact holds
            · have both : Function.update s.holds thread true u = true := by
                rw [Function.update_of_ne same]
                exact holds
              exact absurd (exclusive.single u thread both (Function.update_self _ _ _)) same
  | _ => trivial

/-- In every run of the threads: at most one is a holder, and no `try_lock` that
returns false takes the lock, in all states, exactly if `try_lock` is called only
by the thread that has the lock. -/
theorem exclusive_iff_holding (run : Run SpinLock.step unguarded {} as t) :
    Throughout SpinLock.step Exclusive {} as ↔
      Run SpinLock.step Holding ({} : SpinLock T) as t :=
  run.throughout_iff sound_init (fun _ sound => sound.toExclusive)
    (fun _ _ _ sound holding enabled => sound.step holding enabled)
    fun _ _ _ sound enabled exclusive => holding_of_exclusive sound enabled exclusive

/-- One thread locks, another one tries. -/
def twoHolders : List (LockAction Nat) := [.lock 0, .spin 0, .tryLock 1]

theorem run_twoHolders : ∃ t : SpinLock Nat, Run SpinLock.step unguarded {} twoHolders t ∧
    t.holds 0 = true ∧ t.holds 1 = true :=
  ⟨_, .cons trivial rfl (.cons trivial rfl (.cons trivial rfl (.nil _))), rfl, rfl⟩

theorem exclusive_iff_holding_twoHolders :
    ¬ ∃ t : SpinLock Nat, Run SpinLock.step Holding {} twoHolders t := by
  rintro ⟨u, holding⟩
  obtain ⟨t, run, first, second⟩ := run_twoHolders
  have exclusive : Exclusive t := (exclusive_iff_holding run).mpr
    (run.functional holding ▸ holding) twoHolders [] t rfl run
  cases exclusive.single 0 1 first second

/-- `try_lock` lets a second thread in. -/
theorem try_lock_breaks_exclusion : ¬ ∀ (as : List (LockAction Nat)) t,
    Run SpinLock.step unguarded {} as t → Exclusive t := by
  intro all
  obtain ⟨t, run, first, second⟩ := run_twoHolders
  cases (all _ _ run).single 0 1 first second

end SpinLock
end Vee
