import Mathlib.Data.List.Basic
import Vee.Transition.Basic

/-!
# Runs of one system inside the runs of another

`Run.simulates` turns a relation that every step respects into one that runs
respect. A system made of components, of which a step moves at most one, is the
case `Run.component`: what each component does in a run of the whole is a run of
its own, so the results about one component hold of each of them.
-/

namespace Transition

universe u v u' v'

variable {σ : Type u} {α : Type v} {σ' : Type u'} {α' : Type v'}
variable {step : σ → α → Option σ} {guard : σ → α → Prop}
variable {step' : σ' → α' → Option σ'} {guard' : σ' → α' → Prop}

/-- If every step from a related state is answered by a run to a related state,
so is every run. -/
theorem Run.simulates {R : σ → σ' → Prop} {s t : σ} {as : List α} {s' : σ'}
    (run : Run step guard s as t) (related : R s s')
    (answered : ∀ s a t s', R s s' → guard s a → step s a = some t →
      ∃ bs t', Run step' guard' s' bs t' ∧ R t t') :
    ∃ bs t', Run step' guard' s' bs t' ∧ R t t' := by
  induction run generalizing s' with
  | nil => exact ⟨[], s', .nil s', related⟩
  | cons admitted enabled _ ih =>
      obtain ⟨bs, u', first, related'⟩ := answered _ _ _ _ related admitted enabled
      obtain ⟨cs, t', rest, related''⟩ := ih related'
      exact ⟨bs ++ cs, t', first.trans rest, related''⟩

/-- What can be reached from a state, the other system can answer. -/
theorem CanReach.simulates {R : σ → σ' → Prop} {P : σ → Prop} {s : σ} {s' : σ'}
    (reaches : CanReach step guard P s) (related : R s s')
    (answered : ∀ s a t s', R s s' → guard s a → step s a = some t →
      ∃ bs t', Run step' guard' s' bs t' ∧ R t t') :
    CanReach step' guard' (fun t' => ∃ t, R t t' ∧ P t) s' := by
  obtain ⟨as, t, run, holds⟩ := reaches
  obtain ⟨bs, t', run', related'⟩ := run.simulates related answered
  exact ⟨bs, t', run', t, related', holds⟩

/-- At most one of the components takes a step. -/
inductive Moves (step : σ → α → Option σ) (guard : σ → α → Prop) (us : List σ) :
    List σ → Prop where
  | none : Moves step guard us us
  | one {i : Nat} {u v : σ} {a : α} : us[i]? = some u → guard u a → step u a = some v →
      Moves step guard us (us.set i v)

namespace Moves

variable {us vs : List σ} {i : Nat} {u : σ}

theorem length_eq (h : Moves step guard us vs) : vs.length = us.length := by
  cases h with
  | none => rfl
  | one => exact List.length_set

/-- What a component does is a run, of no step or of one. -/
theorem run (h : Moves step guard us vs) (at_i : us[i]? = some u) :
    ∃ as v, vs[i]? = some v ∧ Run step guard u as v := by
  cases h with
  | none => exact ⟨[], u, at_i, .nil u⟩
  | @one j u' v a at_j admitted enabled =>
      have bound := (List.getElem?_eq_some_iff.mp at_j).1
      by_cases same : j = i
      · subst same
        obtain rfl := Option.some.inj (at_i.symm.trans at_j)
        exact ⟨[a], v, List.getElem?_set_self bound, .single admitted enabled⟩
      · exact ⟨[], u, by rw [List.getElem?_set_ne same]; exact at_i, .nil u⟩

end Moves

section

variable (parts : σ → List σ') {s t : σ} {as : List α}

theorem Run.length_parts (run : Run step guard s as t)
    (moves : ∀ s a t, guard s a → step s a = some t → Moves step' guard' (parts s) (parts t)) :
    (parts t).length = (parts s).length := by
  refine run.invariant (I := fun u => (parts u).length = (parts s).length) rfl ?_
  intro u a v same admitted enabled
  exact (moves u a v admitted enabled).length_eq.trans same

/-- Each component of a system performs a run of its own. -/
theorem Run.component {i : Nat} {u : σ'} (run : Run step guard s as t)
    (moves : ∀ s a t, guard s a → step s a = some t → Moves step' guard' (parts s) (parts t))
    (at_i : (parts s)[i]? = some u) :
    ∃ bs v, (parts t)[i]? = some v ∧ Run step' guard' u bs v := by
  obtain ⟨bs, v, own, at_v⟩ := run.simulates (R := fun s u => (parts s)[i]? = some u) at_i
    fun s a t u at_u admitted enabled => by
      obtain ⟨bs, v, at_v, own⟩ := (moves s a t admitted enabled).run at_u
      exact ⟨bs, v, own, at_v⟩
  exact ⟨bs, v, at_v, own⟩

end

end Transition
