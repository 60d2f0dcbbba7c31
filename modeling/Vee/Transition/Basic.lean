import Mathlib.Logic.Basic

/-!
# Guarded runs of a transition system

`step s a = some t` means that action `a` is enabled in `s` and leads to `t`.
A guard restricts which enabled actions a run may perform: it expresses how an
environment uses a system without changing what the system itself can do.

`Run` is the relation used in statements and `exec` its executable form. The
invariant rule packages the only induction on runs; the measure rule packages
the only induction that constructs one.
-/

namespace Transition

universe u v

variable {σ : Type u} {α : Type v}

/-- The guard that admits every action. -/
def unguarded (_ : σ) (_ : α) : Prop := True

instance (s : σ) (a : α) : Decidable (unguarded s a) := .isTrue trivial

/-- `Run step guard s as t` performs the actions `as` in order from `s` to `t`,
each of them enabled and admitted by the guard in the state it starts from. -/
inductive Run (step : σ → α → Option σ) (guard : σ → α → Prop) : σ → List α → σ → Prop where
  | nil (s) : Run step guard s [] s
  | cons {s a u as t} : guard s a → step s a = some u → Run step guard u as t →
      Run step guard s (a :: as) t

/-- Perform the actions in order; `none` when one is disabled or not admitted. -/
def exec (step : σ → α → Option σ) (guard : σ → α → Prop) [∀ s a, Decidable (guard s a)] :
    σ → List α → Option σ
  | s, [] => some s
  | s, a :: as => if guard s a then (step s a).bind (exec step guard · as) else none

variable {step : σ → α → Option σ} {guard guard' : σ → α → Prop}

namespace Run

/-- The executable runner and the relation agree. -/
theorem iff_exec [∀ s a, Decidable (guard s a)] {s t : σ} {as : List α} :
    Run step guard s as t ↔ exec step guard s as = some t := by
  constructor
  · intro h
    induction h with
    | nil => rfl
    | cons admitted enabled _ ih => simp only [exec, if_pos admitted, enabled, Option.bind_some, ih]
  · intro h
    induction as generalizing s with
    | nil =>
        cases h
        exact .nil _
    | cons a as ih =>
        by_cases admitted : guard s a
        · simp only [exec, if_pos admitted] at h
          obtain ⟨u, enabled, rest⟩ := Option.bind_eq_some_iff.mp h
          exact .cons admitted enabled (ih rest)
        · simp [exec, if_neg admitted] at h

/-- An action list that can be performed is a run to the computed state. -/
theorem of_exec [∀ s a, Decidable (guard s a)] {s : σ} {as : List α}
    (h : (exec step guard s as).isSome) : Run step guard s as ((exec step guard s as).get h) :=
  iff_exec.mpr (Option.some_get h).symm

/-- The same for a run and one more step to a state that satisfies `P`. -/
theorem of_exec_step [∀ s a, Decidable (guard s a)] {s : σ} {as : List α} {a : α} (P : σ → Prop)
    [DecidablePred P] (h : ((exec step guard s as).bind (step · a)).any (P ·) = true) :
    ∃ u t, Run step guard s as u ∧ step u a = some t ∧ P t := by
  obtain ⟨t, performed, holds⟩ := (Option.any_eq_true _ _).mp h
  obtain ⟨u, run, last⟩ := Option.bind_eq_some_iff.mp performed
  exact ⟨u, t, iff_exec.mpr run, last, of_decide_eq_true holds⟩

theorem single {s t : σ} {a : α} (admitted : guard s a) (enabled : step s a = some t) :
    Run step guard s [a] t := .cons admitted enabled (.nil t)

/-- Runs compose; their action lists append. -/
theorem trans {s u t : σ} {as bs : List α} (h₁ : Run step guard s as u)
    (h₂ : Run step guard u bs t) : Run step guard s (as ++ bs) t := by
  induction h₁ with
  | nil => exact h₂
  | cons admitted enabled _ ih => exact .cons admitted enabled (ih h₂)

/-- A run of two lists of actions passes through a state between them. -/
theorem split {s t : σ} {as bs : List α} (h : Run step guard s (as ++ bs) t) :
    ∃ u, Run step guard s as u ∧ Run step guard u bs t := by
  induction as generalizing s with
  | nil => exact ⟨s, .nil s, h⟩
  | cons a as ih =>
      cases h with
      | cons admitted enabled rest =>
          obtain ⟨u, first, second⟩ := ih rest
          exact ⟨u, .cons admitted enabled first, second⟩

/-- The actions determine the last state. -/
theorem functional {s t t' : σ} {as : List α} (h : Run step guard s as t)
    (h' : Run step guard' s as t') : t = t' := by
  induction h with
  | nil =>
      cases h'
      rfl
  | cons _ enabled _ ih =>
      cases h' with
      | cons _ enabled' rest =>
          rw [enabled] at enabled'
          cases enabled'
          exact ih rest

/-- A weaker guard admits every run of a stronger one. -/
theorem mono {s t : σ} {as : List α} (h : Run step guard s as t)
    (weaker : ∀ s a, guard s a → guard' s a) : Run step guard' s as t := by
  induction h with
  | nil => exact .nil _
  | cons admitted enabled _ ih => exact .cons (weaker _ _ admitted) enabled ih

/-- What holds initially and is preserved by every admitted step from a reached
state holds at the end of every run. -/
theorem invariant_along {I : σ → Prop} {s t : σ} {as : List α} (h : Run step guard s as t)
    (initial : I s)
    (preserved : ∀ bs u a v, Run step guard s bs u → I u → guard u a → step u a = some v → I v) :
    I t := by
  suffices extend : ∀ bs u, Run step guard s bs u → I u → Run step guard u as t → I t from
    extend [] s (.nil s) initial h
  intro bs u before inside rest
  clear h initial
  induction rest generalizing bs with
  | nil => exact inside
  | cons admitted enabled _ ih =>
      exact ih (bs ++ [_]) (before.trans (.single admitted enabled))
        (preserved bs _ _ _ before inside admitted enabled)

/-- The invariant rule, for properties that are preserved from any state. -/
theorem invariant {I : σ → Prop} {s t : σ} {as : List α} (h : Run step guard s as t)
    (initial : I s) (preserved : ∀ s a t, I s → guard s a → step s a = some t → I t) : I t :=
  h.invariant_along initial fun _ u a v _ => preserved u a v

/-- A guard that follows from the given one in every state of an invariant
admits the run too. -/
theorem strengthen {I : σ → Prop} {s t : σ} {as : List α} (h : Run step guard s as t)
    (initial : I s)
    (preserved : ∀ s a t, I s → guard s a → step s a = some t → guard' s a ∧ I t) :
    Run step guard' s as t := by
  induction h with
  | nil => exact .nil _
  | cons admitted enabled _ ih =>
      obtain ⟨admitted', initial'⟩ := preserved _ _ _ initial admitted enabled
      exact .cons admitted' enabled (ih initial')

/-- A run in which each step lowers a rank is no longer than the rank. -/
theorem length_le {I : σ → Prop} {s t : σ} {as : List α} (h : Run step guard s as t)
    (rank : σ → Nat) (initial : I s)
    (paid : ∀ s a t, I s → guard s a → step s a = some t → I t ∧ rank t < rank s) :
    as.length + rank t ≤ rank s := by
  induction h with
  | nil => simp
  | cons admitted enabled _ ih =>
      obtain ⟨next, less⟩ := paid _ _ _ initial admitted enabled
      have rest := ih next
      rw [List.length_cons]
      omega

end Run

/-- `P` holds in every state that the actions pass through, whatever the guard. -/
def Throughout (step : σ → α → Option σ) (P : σ → Prop) (s : σ) (as : List α) : Prop :=
  ∀ bs cs u, as = bs ++ cs → Run step unguarded s bs u → P u

/-- Inside the runs that `guard` admits, a stronger guard that keeps an invariant
and without which a step breaks `P` is the exact condition for `P` to hold
throughout a run. -/
theorem Run.throughout_iff_within {P I : σ → Prop} {s t : σ} {as : List α}
    (run : Run step guard s as t) (initial : I s) (sound : ∀ u, I u → P u)
    (preserved : ∀ u a v, I u → guard' u a → step u a = some v → I v)
    (exact_guard : ∀ u a v, I u → guard u a → step u a = some v → P v → guard' u a) :
    Throughout step P s as ↔ Run step guard' s as t := by
  constructor
  · intro all
    induction run with
    | nil => exact .nil _
    | cons admitted enabled rest ih =>
        have next := all [_] _ _ rfl (.single trivial enabled)
        have guarded := exact_guard _ _ _ initial admitted enabled next
        refine .cons guarded enabled (ih (preserved _ _ _ initial guarded enabled) ?_)
        rintro bs cs u rfl later
        exact all (_ :: bs) cs u rfl (.cons trivial enabled later)
  · rintro guarded bs cs u rfl reached
    obtain ⟨v, first, _⟩ := guarded.split
    rw [reached.functional first]
    exact sound v (first.invariant initial preserved)

/-- A guard that keeps an invariant and without which a step breaks `P` is the
exact condition for `P` to hold throughout a run. -/
theorem Run.throughout_iff {P I : σ → Prop} {s t : σ} {as : List α}
    (run : Run step unguarded s as t) (initial : I s) (sound : ∀ u, I u → P u)
    (preserved : ∀ u a v, I u → guard u a → step u a = some v → I v)
    (exact_guard : ∀ u a v, I u → step u a = some v → P v → guard u a) :
    Throughout step P s as ↔ Run step guard s as t :=
  run.throughout_iff_within initial sound preserved
    fun u a v inside _ => exact_guard u a v inside

/-- Some admitted run leads from `s` to a state satisfying `P`. -/
def CanReach (step : σ → α → Option σ) (guard : σ → α → Prop) (P : σ → Prop) (s : σ) : Prop :=
  ∃ as t, Run step guard s as t ∧ P t

namespace CanReach

variable {P Q : σ → Prop} {s : σ}

theorem here (h : P s) : CanReach step guard P s := ⟨[], s, .nil s, h⟩

theorem after {t : σ} {a : α} (admitted : guard s a) (enabled : step s a = some t)
    (rest : CanReach step guard P t) : CanReach step guard P s := by
  obtain ⟨as, u, run, hu⟩ := rest
  exact ⟨a :: as, u, .cons admitted enabled run, hu⟩

/-- Continue from every state of an intermediate set. -/
theorem andThen (first : CanReach step guard P s)
    (second : ∀ t, P t → CanReach step guard Q t) : CanReach step guard Q s := by
  obtain ⟨as, u, run, hu⟩ := first
  obtain ⟨bs, t, run', ht⟩ := second u hu
  exact ⟨as ++ bs, t, run.trans run', ht⟩

theorem mono (h : CanReach step guard P s) (weaker : ∀ t, P t → Q t) :
    CanReach step guard Q s := by
  obtain ⟨as, t, run, ht⟩ := h
  exact ⟨as, t, run, weaker t ht⟩

/-- A weaker guard reaches as much. -/
theorem mono_guard (h : CanReach step guard P s) (weaker : ∀ s a, guard s a → guard' s a) :
    CanReach step guard' P s := by
  obtain ⟨as, t, run, ht⟩ := h
  exact ⟨as, t, run.mono weaker, ht⟩

/-- If every state of a rank that misses the goal has an admitted step to a
state of smaller rank, then the goal can be reached from every ranked state. -/
theorem of_rank {I : Nat → σ → Prop} {goal : σ → Prop} {n : Nat}
    (progress : ∀ n s, I n s → ¬ goal s →
      ∃ a t m, guard s a ∧ step s a = some t ∧ I m t ∧ m < n) (h : I n s) :
    CanReach step guard goal s := by
  induction n using Nat.strongRecOn generalizing s with
  | ind n ih =>
      by_cases done : goal s
      · exact here done
      · obtain ⟨a, t, m, admitted, enabled, inside, decreases⟩ := progress n s h done
        exact .after admitted enabled (ih m decreases inside)

end CanReach

end Transition
