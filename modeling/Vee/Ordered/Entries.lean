import Mathlib.Data.List.Pairwise
import Mathlib.Order.Lattice

/-!
# Association lists in ascending order of their keys

A finite map as the list of its entries, each key once and in ascending order.
Insertion leaves a key alone that has an entry already; erasure takes out the
entry of a key. What either operation does is said by the entries of its result.
-/

namespace Ordered

universe u v

variable {K : Type u} {V : Type v} [LinearOrder K] {l l' : List (K × V)}
variable {key : K} {value : V} {entry : K × V}

/-- Each key once, in ascending order. -/
abbrev Ascending (l : List (K × V)) : Prop := l.Pairwise (·.1 < ·.1)

/-- Add an entry for `key` unless there is one. -/
def insertNew (key : K) (value : V) : List (K × V) → List (K × V)
  | [] => [(key, value)]
  | (k, v) :: rest =>
      if key < k then (key, value) :: (k, v) :: rest
      else if key = k then (k, v) :: rest
      else (k, v) :: insertNew key value rest

/-- Take out the first entry of `key`; `none` when there is none. -/
def eraseKey (key : K) : List (K × V) → Option (List (K × V))
  | [] => none
  | (k, v) :: rest =>
      if k = key then some rest
      else (eraseKey key rest).map ((k, v) :: ·)

/-- A key has one value. -/
theorem Ascending.functional (h : Ascending l) {v w : V} (first : (key, v) ∈ l)
    (second : (key, w) ∈ l) : v = w := by
  induction l with
  | nil => cases first
  | cons e rest ih =>
      obtain ⟨before, ascending⟩ := List.pairwise_cons.mp h
      obtain rfl | later := List.mem_cons.mp first
      · obtain same | later' := List.mem_cons.mp second
        · exact (Prod.mk.inj same).2.symm
        · exact absurd (before _ later') (lt_irrefl _)
      · obtain rfl | later' := List.mem_cons.mp second
        · exact absurd (before _ later) (lt_irrefl _)
        · exact ih ascending later later'

/-- The entries after an insertion: the old ones, and the new one if its key is new. -/
theorem mem_insertNew (h : Ascending l) :
    entry ∈ insertNew key value l ↔
      entry ∈ l ∨ entry = (key, value) ∧ ∀ v, (key, v) ∉ l := by
  induction l with
  | nil => simp [insertNew]
  | cons e rest ih =>
      obtain ⟨k, v⟩ := e
      obtain ⟨before, ascending⟩ := List.pairwise_cons.mp h
      simp only [insertNew]
      split_ifs with less same
      · have new : ∀ w, (key, w) ∉ (k, v) :: rest := by
          intro w mem
          obtain same | later := List.mem_cons.mp mem
          · exact absurd (Prod.mk.inj same).1 less.ne
          · exact absurd (less.trans (before _ later)) (lt_irrefl _)
        simp [new, or_comm]
      · subst same
        have held : ¬ ∀ w, (key, w) ∉ (key, v) :: rest := fun new => new v List.mem_cons_self
        simp only [held, and_false, or_false]
      · have other : ∀ w, (key, w) ∉ (k, v) :: rest ↔ (key, w) ∉ rest := by
          intro w
          simp [same]
        simp only [other]
        simp only [List.mem_cons, ih ascending, or_assoc]

theorem insertNew_ascending (h : Ascending l) : Ascending (insertNew key value l) := by
  induction l with
  | nil => simp [insertNew]
  | cons e rest ih =>
      obtain ⟨k, v⟩ := e
      obtain ⟨before, ascending⟩ := List.pairwise_cons.mp h
      simp only [insertNew]
      split_ifs with less same
      · refine List.pairwise_cons.mpr ⟨?_, h⟩
        intro e mem
        obtain rfl | later := List.mem_cons.mp mem
        · exact less
        · exact less.trans (before e later)
      · exact h
      · refine List.pairwise_cons.mpr ⟨?_, ih ascending⟩
        intro e mem
        obtain old | ⟨rfl, _⟩ := (mem_insertNew ascending).mp mem
        · exact before e old
        · exact lt_of_le_of_ne (not_lt.mp less) (Ne.symm same)

/-- Erasure finds the keys that have an entry. -/
theorem eraseKey_eq_none_iff : eraseKey key l = none ↔ ∀ v, (key, v) ∉ l := by
  induction l with
  | nil => simp [eraseKey]
  | cons e rest ih =>
      obtain ⟨k, v⟩ := e
      simp only [eraseKey]
      split_ifs with same
      · subst same
        simp only [false_iff]
        exact fun new => new v List.mem_cons_self
      · simp [ih, Ne.symm same]

theorem eraseKey_sublist (found : eraseKey key l = some l') : List.Sublist l' l := by
  induction l generalizing l' with
  | nil => cases found
  | cons e rest ih =>
      obtain ⟨k, v⟩ := e
      simp only [eraseKey] at found
      split_ifs at found
      · obtain rfl := Option.some.inj found
        exact List.sublist_cons_self _ _
      · obtain ⟨rest', inner, rfl⟩ := Option.map_eq_some_iff.mp found
        exact (ih inner).cons_cons _

/-- The entries after an erasure: those of the other keys. -/
theorem mem_eraseKey (h : Ascending l) (found : eraseKey key l = some l') :
    entry ∈ l' ↔ entry ∈ l ∧ entry.1 ≠ key := by
  induction l generalizing l' with
  | nil => cases found
  | cons e rest ih =>
      obtain ⟨k, v⟩ := e
      obtain ⟨before, ascending⟩ := List.pairwise_cons.mp h
      simp only [eraseKey] at found
      split_ifs at found with same
      · obtain rfl := Option.some.inj found
        subst same
        constructor
        · intro mem
          exact ⟨List.mem_cons_of_mem _ mem, (before entry mem).ne'⟩
        · rintro ⟨mem, ne⟩
          obtain rfl | later := List.mem_cons.mp mem
          · exact absurd rfl ne
          · exact later
      · obtain ⟨rest', inner, rfl⟩ := Option.map_eq_some_iff.mp found
        simp only [List.mem_cons, ih ascending inner]
        constructor
        · rintro (rfl | ⟨mem, ne⟩)
          · exact ⟨.inl rfl, same⟩
          · exact ⟨.inr mem, ne⟩
        · rintro ⟨rfl | mem, ne⟩
          · exact .inl rfl
          · exact .inr ⟨mem, ne⟩

end Ordered
