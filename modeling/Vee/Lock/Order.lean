import Mathlib.Data.Fintype.Card
import Mathlib.Data.Set.Basic
import Mathlib.Logic.Relation
import Mathlib.Order.WellFounded

/-!
# Locks that are held while others are waited for

`waits a b` means that lock `a` may be held by somebody who waits for lock `b`. A
deadlock is a set of locks, all of them held, of which each one is held by somebody
who waits for a lock of the set. Among finitely many locks there is no such set
when `waits` has no cycle, and along a cycle there is one.
-/

namespace LockOrder

open Relation

universe u

variable {ι : Type u} {waits : ι → ι → Prop}

/-- Every lock of the set waits for one of the set. -/
def Closed (waits : ι → ι → Prop) (locks : Set ι) : Prop :=
  ∀ a ∈ locks, ∃ b ∈ locks, waits a b

/-- Waiting ends somewhere. -/
theorem wellFounded_of_acyclic [Finite ι] (acyclic : ∀ a, ¬ TransGen waits a a) :
    WellFounded fun b a => waits a b := by
  have irrefl : Std.Irrefl (TransGen fun b a => waits a b) :=
    ⟨fun a cycle => acyclic a (transGen_swap.mp cycle)⟩
  have whole : WellFounded (TransGen fun b a => waits a b) :=
    Finite.wellFounded_of_trans_of_irrefl _
  have part : Subrelation (fun b a => waits a b) (TransGen fun b a => waits a b) :=
    fun next => .single next
  exact part.wf whole

/-- The locks on cycles. -/
theorem closed_cycles : Closed waits {a | TransGen waits a a} := by
  intro a cycle
  obtain ⟨b, next, back⟩ := TransGen.head'_iff.mp cycle
  exact ⟨b, TransGen.tail' back next, next⟩

/-- There is no deadlock if and only if there is no cycle. -/
theorem acyclic_iff [Finite ι] :
    (∀ a, ¬ TransGen waits a a) ↔ ∀ locks, Closed waits locks → locks = ∅ := by
  constructor
  · intro acyclic locks closed
    apply Set.not_nonempty_iff_eq_empty.mp
    intro nonempty
    obtain ⟨a, inside, last⟩ := (wellFounded_of_acyclic acyclic).has_min locks nonempty
    obtain ⟨b, inside', next⟩ := closed a inside
    exact last b inside' next
  · intro none a cycle
    have empty := none _ closed_cycles
    exact Set.eq_empty_iff_forall_notMem.mp empty a cycle

end LockOrder
