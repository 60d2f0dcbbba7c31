import Mathlib.Data.List.Basic
import Mathlib.Logic.ExistsUnique
import Mathlib.Logic.Function.Basic

/-!
# Single ownership of resources

A ledger of which owner holds which resource, with the history of the resources
that were entered, of the attempts to release them, and of those that were given
up after a failed attempt. Entering, moving, releasing and giving up keep every
open resource with exactly one owner, provided that nothing is put where a
resource is held already.
-/

namespace Ownership

universe u v

structure Ledger (ι : Type u) (κ : Type v) where
  held : ι → Option κ
  entered : List κ := []
  /-- attempts to release a resource, and whether they succeeded -/
  attempts : List (κ × Bool) := []
  abandoned : List κ := []

namespace Ledger

variable {ι : Type u} {κ : Type v} {l : Ledger ι κ} {i j : ι} {x : κ}

/-- Every resource that is open has one owner, and none is released again. -/
structure Exact (l : Ledger ι κ) : Prop where
  owned : ∀ x ∈ l.entered, (x, true) ∉ l.attempts → x ∉ l.abandoned → ∃! i, l.held i = some x
  once : l.attempts.Pairwise fun first later => first.2 = true → later.1 ≠ first.1

/-- What the operations keep. -/
structure Sound (l : Ledger ι κ) : Prop where
  is_open : ∀ {i x}, l.held i = some x →
    x ∈ l.entered ∧ (x, true) ∉ l.attempts ∧ x ∉ l.abandoned
  exclusive : ∀ {i j x}, l.held i = some x → l.held j = some x → i = j
  covered : ∀ x ∈ l.entered, (x, true) ∉ l.attempts → x ∉ l.abandoned → ∃ i, l.held i = some x
  once : l.attempts.Pairwise fun first later => first.2 = true → later.1 ≠ first.1
  known : ∀ attempt ∈ l.attempts, attempt.1 ∈ l.entered
  known_abandoned : ∀ x ∈ l.abandoned, x ∈ l.entered

theorem Sound.exact (sound : Sound l) : Exact l where
  owned := by
    intro x member unreleased kept
    obtain ⟨i, holds⟩ := sound.covered x member unreleased kept
    exact ⟨i, holds, fun j other => sound.exclusive other holds⟩
  once := sound.once

theorem sound_empty : Sound ({ held := fun _ => none } : Ledger ι κ) where
  is_open := nofun
  exclusive := nofun
  covered := nofun
  once := .nil
  known := nofun
  known_abandoned := nofun

/-- An attempt that fails. -/
def fail (x : κ) (l : Ledger ι κ) : Ledger ι κ :=
  { l with attempts := l.attempts ++ [(x, false)] }

/-- A resource that is entered without an owner is lost. -/
def lose (x : κ) (l : Ledger ι κ) : Ledger ι κ := { l with entered := l.entered ++ [x] }

theorem Sound.not_exact_lose (sound : Sound l) (new : x ∉ l.entered) : ¬ Exact (l.lose x) := by
  intro exact_after
  obtain ⟨i, holds, _⟩ := exact_after.owned x (List.mem_append_right _ (.head _))
    (fun attempt => new (sound.known _ attempt))
    fun given_up => new (sound.known_abandoned x given_up)
  exact new (sound.is_open holds).1

/-- No resource is released before another attempt on it. -/
theorem Sound.once_append (sound : Sound l) (holds : l.held i = some x) (ok : Bool) :
    (l.attempts ++ [(x, ok)]).Pairwise fun first later => first.2 = true → later.1 ≠ first.1 := by
  rw [List.pairwise_append]
  refine ⟨sound.once, List.pairwise_singleton _ _, ?_⟩
  rintro ⟨y, result⟩ earlier later last succeeded same
  rw [List.mem_singleton.mp last] at same
  obtain ⟨_, unreleased, _⟩ := sound.is_open holds
  apply unreleased
  cases succeeded
  cases same
  exact earlier

theorem Sound.known_append (sound : Sound l) (holds : l.held i = some x) (ok : Bool) :
    ∀ attempt ∈ l.attempts ++ [(x, ok)], attempt.1 ∈ l.entered := by
  intro attempt member
  obtain earlier | last := List.mem_append.mp member
  · exact sound.known attempt earlier
  · rw [List.mem_singleton.mp last]
    exact (sound.is_open holds).1

theorem Sound.fail (sound : Sound l) (holds : l.held i = some x) : Sound (l.fail x) where
  is_open := by
    intro j y holds'
    obtain ⟨member, unreleased, kept⟩ := sound.is_open holds'
    refine ⟨member, fun attempt => ?_, kept⟩
    obtain earlier | last := List.mem_append.mp attempt
    · exact unreleased earlier
    · cases List.mem_singleton.mp last
  exclusive := sound.exclusive
  covered := by
    intro y member unreleased kept
    exact sound.covered y member (fun attempt => unreleased (List.mem_append_left _ attempt)) kept
  once := sound.once_append holds false
  known := sound.known_append holds false
  known_abandoned := sound.known_abandoned

variable [DecidableEq ι]

/-- A resource comes to an owner. -/
def enter (i : ι) (x : κ) (l : Ledger ι κ) : Ledger ι κ :=
  { l with held := Function.update l.held i (some x), entered := l.entered ++ [x] }

/-- What one owner holds goes to another one. -/
def move (i j : ι) (l : Ledger ι κ) : Ledger ι κ :=
  { l with held := Function.update (Function.update l.held i (l.held j)) j none }

/-- A successful attempt to release what an owner holds. -/
def release (i : ι) (x : κ) (l : Ledger ι κ) : Ledger ι κ :=
  { l with held := Function.update l.held i none, attempts := l.attempts ++ [(x, true)] }

/-- An owner gives up what it holds. -/
def abandon (i : ι) (x : κ) (l : Ledger ι κ) : Ledger ι κ :=
  { l with held := Function.update l.held i none, abandoned := l.abandoned ++ [x] }

theorem update_eq_some_iff {held : ι → Option κ} {y : Option κ} :
    Function.update held i y j = some x ↔ (j = i ∧ y = some x) ∨ (j ≠ i ∧ held j = some x) := by
  by_cases same : j = i
  · rw [same, Function.update_self]
    simp
  · rw [Function.update_of_ne same]
    simp [same]

theorem Sound.enter (sound : Sound l) (vacant : l.held i = none) (new : x ∉ l.entered) :
    Sound (l.enter i x) where
  is_open := by
    intro j y holds
    obtain ⟨_, same⟩ | ⟨_, before⟩ := update_eq_some_iff.mp holds
    · cases same
      exact ⟨List.mem_append_right _ (.head _), fun attempt => new (sound.known _ attempt),
        fun abandoned => new (sound.known_abandoned x abandoned)⟩
    · obtain ⟨member, others⟩ := sound.is_open before
      exact ⟨List.mem_append_left _ member, others⟩
  exclusive := by
    intro j k y holds holds'
    have apart {j : ι} (before : l.held j = some x) : False := new (sound.is_open before).1
    obtain ⟨rfl, same⟩ | ⟨_, before⟩ := update_eq_some_iff.mp holds
    · cases same
      obtain ⟨rfl, _⟩ | ⟨_, before⟩ := update_eq_some_iff.mp holds'
      · rfl
      · exact (apart before).elim
    · obtain ⟨_, same⟩ | ⟨_, before'⟩ := update_eq_some_iff.mp holds'
      · cases same
        exact (apart before).elim
      · exact sound.exclusive before before'
  covered := by
    intro y member unreleased kept
    obtain member | same := List.mem_append.mp member
    · obtain ⟨j, holds⟩ := sound.covered y member unreleased kept
      refine ⟨j, update_eq_some_iff.mpr (.inr ⟨?_, holds⟩)⟩
      rintro rfl
      rw [vacant] at holds
      cases holds
    · rw [List.mem_singleton.mp same]
      exact ⟨i, update_eq_some_iff.mpr (.inl ⟨rfl, rfl⟩)⟩
  once := sound.once
  known attempt member := List.mem_append_left _ (sound.known attempt member)
  known_abandoned y member := List.mem_append_left _ (sound.known_abandoned y member)

theorem held_move_iff {k : ι} : (l.move i j).held k = some x ↔
    k ≠ j ∧ ((k = i ∧ l.held j = some x) ∨ (k ≠ i ∧ l.held k = some x)) := by
  simp only [move]
  rw [update_eq_some_iff, update_eq_some_iff]
  constructor
  · rintro (⟨_, nothing⟩ | holds)
    · cases nothing
    · exact holds
  · exact .inr

theorem Sound.move (sound : Sound l) (vacant : l.held i = none) (j : ι) : Sound (l.move i j) where
  is_open := by
    intro k y holds
    obtain ⟨_, ⟨_, moved⟩ | ⟨_, kept⟩⟩ := held_move_iff.mp holds
    · exact sound.is_open moved
    · exact sound.is_open kept
  exclusive := by
    intro k k' y holds holds'
    obtain ⟨apart, ⟨rfl, moved⟩ | ⟨_, kept⟩⟩ := held_move_iff.mp holds
    · obtain ⟨_, ⟨rfl, _⟩ | ⟨_, kept'⟩⟩ := held_move_iff.mp holds'
      · rfl
      · obtain ⟨apart', _⟩ := held_move_iff.mp holds'
        exact absurd (sound.exclusive kept' moved) apart'
    · obtain ⟨_, ⟨rfl, moved'⟩ | ⟨_, kept'⟩⟩ := held_move_iff.mp holds'
      · exact absurd (sound.exclusive kept moved') apart
      · exact sound.exclusive kept kept'
  covered := by
    intro y member unreleased kept
    obtain ⟨k, holds⟩ := sound.covered y member unreleased kept
    have occupied : k ≠ i := by
      rintro rfl
      rw [vacant] at holds
      cases holds
    by_cases source : k = j
    · subst source
      exact ⟨i, held_move_iff.mpr ⟨occupied.symm, .inl ⟨rfl, holds⟩⟩⟩
    · exact ⟨k, held_move_iff.mpr ⟨source, .inr ⟨occupied, holds⟩⟩⟩
  once := sound.once
  known := sound.known
  known_abandoned := sound.known_abandoned

/-- What an owner holds is lost when something is moved there, also its own. -/
theorem Sound.not_exact_move (sound : Sound l) (holds : l.held i = some x) (j : ι) :
    ¬ Exact (l.move i j) := by
  intro exact_after
  obtain ⟨member, unreleased, kept⟩ := sound.is_open holds
  obtain ⟨k, holds', _⟩ := exact_after.owned x member unreleased kept
  obtain ⟨apart, ⟨rfl, moved⟩ | ⟨elsewhere, stayed⟩⟩ := held_move_iff.mp holds'
  · exact apart (sound.exclusive holds moved)
  · exact elsewhere (sound.exclusive stayed holds)

theorem Sound.exclusive_update_none (sound : Sound l) {k : ι}
    (holds : Function.update l.held i none j = some x)
    (holds' : Function.update l.held i none k = some x) : j = k := by
  obtain ⟨_, nothing⟩ | ⟨_, before⟩ := update_eq_some_iff.mp holds
  · cases nothing
  · obtain ⟨_, nothing⟩ | ⟨_, before'⟩ := update_eq_some_iff.mp holds'
    · cases nothing
    · exact sound.exclusive before before'

theorem Sound.release (sound : Sound l) (holds : l.held i = some x) :
    Sound (l.release i x) where
  is_open := by
    intro j y holds'
    obtain ⟨_, nothing⟩ | ⟨apart, before⟩ := update_eq_some_iff.mp holds'
    · cases nothing
    · obtain ⟨member, unreleased, kept⟩ := sound.is_open before
      refine ⟨member, fun attempt => ?_, kept⟩
      obtain earlier | last := List.mem_append.mp attempt
      · exact unreleased earlier
      · cases List.mem_singleton.mp last
        exact apart (sound.exclusive before holds)
  exclusive := sound.exclusive_update_none
  covered := by
    intro y member unreleased kept
    obtain ⟨j, before⟩ := sound.covered y member
      (fun attempt => unreleased (List.mem_append_left _ attempt)) kept
    refine ⟨j, update_eq_some_iff.mpr (.inr ⟨?_, before⟩)⟩
    rintro rfl
    rw [holds] at before
    cases before
    exact unreleased (List.mem_append_right _ (.head _))
  once := sound.once_append holds true
  known := sound.known_append holds true
  known_abandoned := sound.known_abandoned

/-- What an owner held before something is moved there does not matter. -/
theorem move_release : (l.release i x).move i j =
    { l.move i j with attempts := l.attempts ++ [(x, true)] } := by
  have held : Function.update (Function.update l.held i none) i
      (Function.update l.held i none j) =
        Function.update l.held i (Function.update l.held i none j) :=
    Function.update_idem _ _ _
  simp only [move, release, held]
  by_cases same : j = i
  · subst same
    rw [Function.update_idem, Function.update_idem]
  · rw [Function.update_of_ne same]

theorem Sound.abandon (sound : Sound l) (holds : l.held i = some x) :
    Sound (l.abandon i x) where
  is_open := by
    intro j y holds'
    obtain ⟨_, nothing⟩ | ⟨apart, before⟩ := update_eq_some_iff.mp holds'
    · cases nothing
    · obtain ⟨member, unreleased, kept⟩ := sound.is_open before
      refine ⟨member, unreleased, fun given_up => ?_⟩
      obtain earlier | last := List.mem_append.mp given_up
      · exact kept earlier
      · cases List.mem_singleton.mp last
        exact apart (sound.exclusive before holds)
  exclusive := sound.exclusive_update_none
  covered := by
    intro y member unreleased kept
    obtain ⟨j, before⟩ := sound.covered y member unreleased
      fun given_up => kept (List.mem_append_left _ given_up)
    refine ⟨j, update_eq_some_iff.mpr (.inr ⟨?_, before⟩)⟩
    rintro rfl
    rw [holds] at before
    cases before
    exact kept (List.mem_append_right _ (.head _))
  once := sound.once
  known := sound.known
  known_abandoned := by
    intro y given_up
    obtain earlier | last := List.mem_append.mp given_up
    · exact sound.known_abandoned y earlier
    · rw [List.mem_singleton.mp last]
      exact (sound.is_open holds).1

end Ledger
end Ownership
