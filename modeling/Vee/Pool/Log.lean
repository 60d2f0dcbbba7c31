import Mathlib.Data.List.Nodup
import Vee.Pool.Basic

/-!
# Logs of a pool

A log lists the members of a pool that have reached a final set `P`, in the
order in which they did. It grows by one whenever a member enters `P`, and no
member leaves `P`.
-/

namespace Pool

universe u

variable {α : Type u} {P : α → Prop} {entries : List Nat} {pool : List α} {i j : Nat} {x y : α}

/-- The log lists the members in `P`, each once. -/
structure Logged (P : α → Prop) (entries : List Nat) (pool : List α) : Prop where
  nodup : entries.Nodup
  mem_iff : ∀ i, i ∈ entries ↔ ∃ x, pool[i]? = some x ∧ P x

/-- An entry of the pool is still there after a step of another kind of entry. -/
theorem get_set_of_ne (at_j : pool[j]? = some x) (at_i : pool[i]? = some y) (differ : P x)
    (other : ¬ P y) (z : α) : (pool.set i z)[j]? = some x := by
  have ne : i ≠ j := by
    rintro rfl
    obtain rfl := Option.some.inj (at_i.symm.trans at_j)
    exact other differ
  rwa [List.getElem?_set_ne ne]

theorem get_append (at_j : pool[j]? = some x) (more : List α) :
    (pool ++ more)[j]? = some x := by
  rwa [List.getElem?_append_left (List.getElem?_eq_some_iff.mp at_j).1]

namespace Logged

theorem nil : Logged P [] ([] : List α) := by
  refine ⟨List.nodup_nil, fun i => ?_⟩
  simp

/-- A new member outside `P`. -/
theorem append (h : Logged P entries pool) (outside : ¬ P x) : Logged P entries (pool ++ [x]) := by
  refine ⟨h.nodup, fun i => ?_⟩
  rw [h.mem_iff]
  constructor
  · rintro ⟨y, at_i, inside⟩
    exact ⟨y, get_append at_i [x], inside⟩
  · rintro ⟨y, at_i, inside⟩
    rw [List.getElem?_append] at at_i
    split at at_i
    · exact ⟨y, at_i, inside⟩
    · obtain rfl := List.mem_singleton.mp (List.mem_of_getElem? at_i)
      exact absurd inside outside

/-- A step from outside `P`, to where it leads. -/
theorem set_iff (h : Logged P entries pool) (at_i : pool[i]? = some x) (outside : ¬ P x) :
    (∃ z, (pool.set i y)[j]? = some z ∧ P z) ↔ j ∈ entries ∨ j = i ∧ P y := by
  have bound := (List.getElem?_eq_some_iff.mp at_i).1
  rw [h.mem_iff]
  by_cases same : j = i
  · subst same
    rw [List.getElem?_set_self bound, at_i]
    constructor
    · rintro ⟨z, found, inside⟩
      obtain rfl := Option.some.inj found
      exact .inr ⟨rfl, inside⟩
    · rintro (⟨z, found, inside⟩ | ⟨_, inside⟩)
      · obtain rfl := Option.some.inj found
        exact absurd inside outside
      · exact ⟨y, rfl, inside⟩
  · rw [List.getElem?_set_ne (Ne.symm same)]
    exact ⟨.inl, fun h => h.resolve_right fun there => same there.1⟩

/-- A step outside `P`. -/
theorem set (h : Logged P entries pool) (at_i : pool[i]? = some x) (outside : ¬ P x)
    (outside' : ¬ P y) : Logged P entries (pool.set i y) := by
  refine ⟨h.nodup, fun j => ?_⟩
  rw [h.set_iff at_i outside]
  exact ⟨.inl, fun found => found.resolve_right fun there => outside' there.2⟩

/-- A step into `P` is logged. -/
theorem record (h : Logged P entries pool) (at_i : pool[i]? = some x) (outside : ¬ P x)
    (inside : P y) :
    Logged P (entries ++ [i]) (pool.set i y) := by
  have fresh : i ∉ entries := by
    intro mem
    obtain ⟨z, found, reached⟩ := (h.mem_iff i).mp mem
    obtain rfl := Option.some.inj (at_i.symm.trans found)
    exact outside reached
  refine ⟨List.nodup_append.mpr ⟨h.nodup, List.nodup_singleton i, ?_⟩, fun j => ?_⟩
  · intro a mem b mem'
    obtain rfl := List.mem_singleton.mp mem'
    rintro rfl
    exact fresh mem
  · rw [h.set_iff at_i outside, List.mem_append, List.mem_singleton]
    exact or_congr_right ⟨fun same => ⟨same, inside⟩, fun there => there.1⟩

end Logged
end Pool
