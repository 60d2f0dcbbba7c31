import Mathlib.Algebra.GroupWithZero.Nat
import Mathlib.Data.List.Basic

/-!
# Pools of threads with a distinguished member

A pool is a list of program points, one for each thread in order of creation. A
thread takes a step by `List.set` and a new one is appended. Protocol invariants
distinguish at most one member: `All P` says that every member is in the passive
set `P`, and `Only P i x` that member `i` is at `x` and all others are in `P`.
-/

namespace Pool

universe u

variable {α : Type u} {P Q : α → Prop} {pool : List α} {i j : Nat} {x y : α}

/-- Every member satisfies `P`. -/
def All (P : α → Prop) (pool : List α) : Prop := ∀ x ∈ pool, P x

/-- Member `i` is `x`; every other member satisfies `P`. -/
structure Only (P : α → Prop) (i : Nat) (x : α) (pool : List α) : Prop where
  here : pool[i]? = some x
  others : ∀ j y, pool[j]? = some y → j ≠ i → P y

instance [DecidablePred P] : Decidable (All P pool) :=
  inferInstanceAs (Decidable (∀ x ∈ pool, P x))

theorem All.get (h : All P pool) (at_i : pool[i]? = some x) : P x :=
  h x (List.mem_of_getElem? at_i)

theorem All.mono (h : All P pool) (weaker : ∀ x, P x → Q x) : All Q pool :=
  fun x mem => weaker x (h x mem)

@[simp] theorem all_nil : All P ([] : List α) := by simp [All]

@[simp] theorem all_append_singleton : All P (pool ++ [x]) ↔ All P pool ∧ P x := by
  simp only [All, List.mem_append, List.mem_singleton]
  constructor
  · intro h
    exact ⟨fun y mem => h y (.inl mem), h x (.inr rfl)⟩
  · rintro ⟨h, hx⟩ y (mem | rfl)
    · exact h y mem
    · exact hx

/-- A passive step of one member. -/
theorem All.set (h : All P pool) (hx : P x) : All P (pool.set i x) := by
  intro y mem
  obtain old | rfl := List.mem_or_eq_of_mem_set mem
  · exact h y old
  · exact hx

/-- One member becomes the distinguished one. -/
theorem All.only (h : All P pool) (at_i : pool[i]? = some y) : Only P i x (pool.set i x) := by
  have bound := (List.getElem?_eq_some_iff.mp at_i).1
  refine ⟨by simp [bound], ?_⟩
  intro j z at_j ne
  rw [List.getElem?_set_ne (Ne.symm ne)] at at_j
  exact h.get at_j

/-- A new member becomes the distinguished one. -/
theorem All.only_append (h : All P pool) : Only P pool.length x (pool ++ [x]) := by
  refine ⟨by simp, ?_⟩
  intro j y at_j ne
  have bound := (List.getElem?_eq_some_iff.mp at_j).1
  rw [List.length_append, List.length_singleton] at bound
  rw [List.getElem?_append_left (by omega)] at at_j
  exact h.get at_j

namespace Only

/-- The distinguished member takes a step and stays distinguished. -/
theorem set (h : Only P i x pool) : Only P i y (pool.set i y) := by
  have bound := (List.getElem?_eq_some_iff.mp h.here).1
  refine ⟨by simp [bound], ?_⟩
  intro j z at_j ne
  rw [List.getElem?_set_ne (Ne.symm ne)] at at_j
  exact h.others j z at_j ne

/-- The distinguished member becomes passive. -/
theorem all_set (h : Only P i x pool) (hy : P y) : All P (pool.set i y) := by
  intro z mem
  obtain ⟨j, at_j⟩ := List.getElem?_of_mem mem
  by_cases same : j = i
  · have bound := (List.getElem?_eq_some_iff.mp h.here).1
    subst same
    rw [List.getElem?_set_self bound] at at_j
    exact Option.some.inj at_j ▸ hy
  · rw [List.getElem?_set_ne (Ne.symm same)] at at_j
    exact h.others j z at_j same

/-- If the distinguished member is passive then all are. -/
theorem all (h : Only P i x pool) (hx : P x) : All P pool := by
  intro y mem
  obtain ⟨j, at_j⟩ := List.getElem?_of_mem mem
  by_cases same : j = i
  · subst same
    exact Option.some.inj (h.here.symm.trans at_j) ▸ hx
  · exact h.others j y at_j same

/-- Another member takes a passive step. -/
theorem set_other (h : Only P i x pool) (ne : j ≠ i) (hy : P y) : Only P i x (pool.set j y) := by
  refine ⟨by rw [List.getElem?_set_ne ne]; exact h.here, ?_⟩
  intro k z at_k nek
  obtain rfl | differ := eq_or_ne k j
  · rw [List.getElem?_set] at at_k
    grind
  · rw [List.getElem?_set_ne (Ne.symm differ)] at at_k
    exact h.others k z at_k nek

theorem append (h : Only P i x pool) (hy : P y) : Only P i x (pool ++ [y]) := by
  have bound := (List.getElem?_eq_some_iff.mp h.here).1
  refine ⟨by rw [List.getElem?_append_left bound]; exact h.here, ?_⟩
  intro j z at_j ne
  obtain old | new := List.mem_append.mp (List.mem_of_getElem? at_j)
  · rw [List.getElem?_append] at at_j
    split at at_j
    · exact h.others j z at_j ne
    · rw [List.getElem?_singleton] at at_j
      grind
  · exact List.mem_singleton.mp new ▸ hy

/-- A member outside the passive set is the distinguished one. -/
theorem eq_of_not (h : Only P i x pool) (at_j : pool[j]? = some y) (active : ¬ P y) :
    j = i ∧ y = x := by
  have same : j = i := by
    by_contra ne
    exact active (h.others j y at_j ne)
  subst same
  exact ⟨rfl, Option.some.inj (at_j.symm.trans h.here)⟩

end Only

/-- Members of `pool` that are passive stay where they are in `pool'`, and the
others are either still active or done. -/
structure Settles (P done : α → Prop) (pool pool' : List α) : Prop where
  length : pool'.length = pool.length
  each : ∀ (i : Nat) x, pool[i]? = some x →
    ∃ y, pool'[i]? = some y ∧ (y = x ∨ ¬ P x ∧ (¬ P y ∨ done y))

namespace Settles

variable {done : α → Prop} {pool' pool'' : List α}

theorem refl (pool : List α) : Settles P done pool pool :=
  ⟨rfl, fun _ x at_i => ⟨x, at_i, .inl rfl⟩⟩

theorem trans (h₁ : Settles P done pool pool') (h₂ : Settles P done pool' pool'') :
    Settles P done pool pool'' := by
  refine ⟨h₂.length.trans h₁.length, ?_⟩
  intro i x at_x
  obtain ⟨y, at_y, same | ⟨active, still⟩⟩ := h₁.each i x at_x
  · subst same
    exact h₂.each i y at_y
  · obtain ⟨z, at_z, rfl | ⟨active', still'⟩⟩ := h₂.each i y at_y
    · exact ⟨z, at_z, .inr ⟨active, still⟩⟩
    · exact ⟨z, at_z, .inr ⟨active, still'⟩⟩

/-- An active member takes a step. -/
theorem set (at_i : pool[i]? = some x) (active : ¬ P x) (next : ¬ P y ∨ done y) :
    Settles P done pool (pool.set i y) := by
  have bound := (List.getElem?_eq_some_iff.mp at_i).1
  refine ⟨List.length_set, ?_⟩
  intro j z at_j
  by_cases same : i = j
  · subst same
    obtain rfl := Option.some.inj (at_i.symm.trans at_j)
    exact ⟨y, List.getElem?_set_self bound, .inr ⟨active, next⟩⟩
  · exact ⟨z, by rw [List.getElem?_set_ne same]; exact at_j, .inl rfl⟩

/-- A passive member stays. -/
theorem stays (h : Settles P done pool pool') (at_i : pool[i]? = some x) (passive : P x) :
    pool'[i]? = some x := by
  obtain ⟨y, at_y, rfl | ⟨active, _⟩⟩ := h.each i x at_i
  · exact at_y
  · exact absurd passive active

/-- When all members are passive, an active one is done. -/
theorem done_of_active (h : Settles P done pool pool') (rest : All P pool')
    (at_i : pool[i]? = some x) (active : ¬ P x) : ∃ y, pool'[i]? = some y ∧ done y := by
  obtain ⟨y, at_y, rfl | ⟨_, active' | finished⟩⟩ := h.each i x at_i
  · exact absurd (rest.get at_y) active
  · exact absurd (rest.get at_y) active'
  · exact ⟨y, at_y, finished⟩

/-- When all members are passive, all are done unless one was passive before
without being done. -/
theorem all_done (h : Settles P done pool pool') (rest : All P pool')
    (passive : ∀ x ∈ pool, P x → done x) : All done pool' := by
  intro y mem
  obtain ⟨i, at_i⟩ := List.getElem?_of_mem mem
  have bound := (List.getElem?_eq_some_iff.mp at_i).1
  rw [h.length] at bound
  have at_x := List.getElem?_eq_getElem bound
  obtain ⟨y', at_y', same | ⟨_, active | finished⟩⟩ := h.each i _ at_x
  · obtain rfl := Option.some.inj (at_i.symm.trans at_y')
    rw [same] at mem ⊢
    exact passive _ (List.getElem_mem bound) (rest _ mem)
  · obtain rfl := Option.some.inj (at_i.symm.trans at_y')
    exact absurd (rest _ mem) active
  · obtain rfl := Option.some.inj (at_i.symm.trans at_y')
    exact finished

end Settles

/-- One member takes a step, and the view of the others stays. -/
theorem map_set {β : Type u} {f f' : α → β}
    (same : ∀ (j : Nat) z, pool[j]? = some z → j ≠ i → f' z = f z) :
    (pool.set i y).map f' = (pool.map f).set i (f' y) := by
  refine List.ext_getElem? fun j => ?_
  rw [List.getElem?_map, List.getElem?_set, List.getElem?_set, List.getElem?_map, List.length_map]
  by_cases here : i = j
  · rw [if_pos here, if_pos here]
    split <;> rfl
  · rw [if_neg here, if_neg here]
    cases at_j : pool[j]? with
    | none => rfl
    | some z => rw [Option.map_some, Option.map_some, same j z at_j (Ne.symm here)]

/-- What is found in a pool with one more member, other than the new one, was there before. -/
theorem getElem?_of_concat (found : (pool ++ [x])[i]? = some y) (other : x ≠ y) :
    pool[i]? = some y := by
  rw [List.getElem?_append] at found
  split at found
  · exact found
  · have same := List.mem_singleton.mp (List.mem_of_getElem? found)
    exact absurd same.symm other

/-- The counting rule for a step of one member. -/
theorem countP_set {p : α → Bool} (at_i : pool[i]? = some x) :
    (pool.set i y).countP p + (p x).toNat = pool.countP p + (p y).toNat := by
  obtain ⟨bound, rfl⟩ := List.getElem?_eq_some_iff.mp at_i
  have positive : p pool[i] = true → 0 < pool.countP p := fun h =>
    List.countP_pos_iff.mpr ⟨_, List.getElem_mem bound, h⟩
  rw [List.countP_set bound]
  cases old : p pool[i] with
  | false => cases p y <;> simp
  | true =>
      have := positive old
      cases p y <;> simp <;> omega

/-- The summing rule. -/
theorem sum_map_set {f : α → Nat} (at_i : pool[i]? = some x) :
    ((pool.set i y).map f).sum + f x = (pool.map f).sum + f y := by
  induction pool generalizing i with
  | nil => cases at_i
  | cons z pool ih =>
      cases i with
      | zero =>
          obtain rfl := Option.some.inj at_i
          simp only [List.set_cons_zero, List.map_cons, List.sum_cons]
          omega
      | succ i =>
          have rest := ih at_i
          simp only [List.set_cons_succ, List.map_cons, List.sum_cons]
          omega

end Pool
