import Vee.Queue.Assign

/-!
# Delegates and mails

A delegate keeps its unkeyed subscribers in a vector and the keyed ones in a
map. Assignment treats the two apart, and replaces one only where the source has
something to put there. A mail is a delegate with the arguments to call it with,
as it is made for a mailbox, stored in a slot and taken out again.

A moved-from vector or map is empty. `moved` gives what a moved-from argument
tuple is left with. Calling a subscriber runs code outside the delegate; what is
recorded of it is the function and the arguments it gets.
-/

namespace Vee

/-- `std::map<key_t, _binder_t>`: entries in ascending order of their keys. -/
structure IndexingContainer (F : Type) where
  entries : List (Int × F) := []
  ascending : entries.Pairwise (·.1 < ·.1) := by simp
  deriving DecidableEq, Repr

def IndexingContainer.size {F : Type} (c : IndexingContainer F) : Nat := c.entries.length

structure Delegate (F : Type) where
  container : List F := []
  idxContainer : IndexingContainer F := {}
  deriving DecidableEq, Repr

namespace Delegate

variable {F A : Type}

/-- The default constructor. -/
instance : Inhabited (Delegate F) := ⟨{}⟩

/-- `_deep_copy(const delegate&)` -/
def deepCopy (target rhs : Delegate F) : Delegate F where
  container := if rhs.container.length > 0 then rhs.container else target.container
  idxContainer := if rhs.idxContainer.size > 0 then rhs.idxContainer else target.idxContainer

/-- `_deep_copy(delegate&&)`: the target, and `rhs` afterwards. -/
def deepCopyMove (target rhs : Delegate F) : Delegate F × Delegate F :=
  let (container, container') :=
    if rhs.container.length > 0 then (rhs.container, []) else (target.container, rhs.container)
  let (idxContainer, idxContainer') :=
    if rhs.idxContainer.size > 0 then (rhs.idxContainer, {})
    else (target.idxContainer, rhs.idxContainer)
  ({ container, idxContainer }, { container := container', idxContainer := idxContainer' })

/-- The copy and move constructors, on members that are still empty: the new
delegate, and `rhs` afterwards. -/
def construct (rhs : Delegate F) : ValueCategory → Delegate F × Delegate F
  | .lvalue => (deepCopy {} rhs, rhs)
  | .rvalue => deepCopyMove {} rhs

/-- `operator()(argstuple_t&)`: the functions it calls, in order, with their arguments. -/
def call (e : Delegate F) (args : A) : List (F × A) :=
  e.container.map (·, args) ++ e.idxContainer.entries.map fun it => (it.2, args)

theorem size_eq_zero {c : IndexingContainer F} : c.size = 0 ↔ c = {} := by
  obtain ⟨entries, ascending⟩ := c
  simp [IndexingContainer.size]

/-- Both ways of assigning give the target the same value. -/
theorem deepCopyMove_fst (target rhs : Delegate F) :
    (target.deepCopyMove rhs).1 = target.deepCopy rhs := by
  simp only [deepCopyMove, deepCopy]
  split_ifs <;> rfl

/-- Nothing is left in the source of a move. -/
theorem deepCopyMove_snd (target rhs : Delegate F) : (target.deepCopyMove rhs).2 = {} := by
  have unkeyed : ¬ rhs.container.length > 0 → rhs.container = [] := by simp
  have keyed : ¬ rhs.idxContainer.size > 0 → rhs.idxContainer = {} := by simp [size_eq_zero]
  simp only [deepCopyMove]
  split_ifs with some_unkeyed some_keyed some_keyed
  · rfl
  · rw [keyed some_keyed]
  · rw [unkeyed some_unkeyed]
  · rw [unkeyed some_unkeyed, keyed some_keyed]

/-- `later` has subscribers of every kind that `earlier` has. -/
def Covers (earlier later : Delegate F) : Prop :=
  (earlier.container ≠ [] → later.container ≠ []) ∧
    (earlier.idxContainer ≠ {} → later.idxContainer ≠ {})

instance [DecidableEq F] (earlier later : Delegate F) : Decidable (Covers earlier later) :=
  inferInstanceAs (Decidable (_ ∧ _))

theorem Covers.empty (later : Delegate F) : Covers {} later :=
  ⟨fun some => absurd rfl some, fun some => absurd rfl some⟩

theorem Covers.trans {e₁ e₂ e₃ : Delegate F} (h : Covers e₁ e₂) (h' : Covers e₂ e₃) :
    Covers e₁ e₃ :=
  ⟨h'.1 ∘ h.1, h'.2 ∘ h.2⟩

/-- What an assignment leaves has no kind of subscriber that neither had. -/
theorem Covers.deepCopy {target rhs later : Delegate F} (h : Covers target later)
    (h' : Covers rhs later) : Covers (target.deepCopy rhs) later := by
  constructor
  · intro some
    simp only [Delegate.deepCopy] at some
    split_ifs at some
    · exact h'.1 some
    · exact h.1 some
  · intro some
    simp only [Delegate.deepCopy] at some
    split_ifs at some
    · exact h'.2 some
    · exact h.2 some

/-- Assignment replaces exactly the targets that have nothing the source lacks. -/
theorem deepCopy_of_covers {target rhs : Delegate F} (h : Covers target rhs) :
    target.deepCopy rhs = rhs := by
  have unkeyed : ¬ rhs.container.length > 0 → target.container = rhs.container := by
    intro none
    have empty : rhs.container = [] := by simpa using none
    rw [empty]
    exact not_not.mp fun some => h.1 some empty
  have keyed : ¬ rhs.idxContainer.size > 0 → target.idxContainer = rhs.idxContainer := by
    intro none
    have empty : rhs.idxContainer = {} := size_eq_zero.mp (by omega)
    rw [empty]
    exact not_not.mp fun some => h.2 some empty
  obtain ⟨container, idxContainer⟩ := rhs
  simp only [deepCopy, mk.injEq]
  constructor
  · exact ite_eq_left_iff.mpr unkeyed
  · exact ite_eq_left_iff.mpr keyed

theorem deepCopy_empty (rhs : Delegate F) : deepCopy {} rhs = rhs :=
  deepCopy_of_covers (.empty rhs)

/-- A new delegate is the one it is constructed from. -/
theorem construct_fst (rhs : Delegate F) (category : ValueCategory) :
    (rhs.construct category).1 = rhs := by
  cases category with
  | lvalue => exact deepCopy_empty rhs
  | rvalue => exact (deepCopyMove_fst {} rhs).trans (deepCopy_empty rhs)

theorem call_length (e : Delegate F) (args : A) :
    (e.call args).length = e.container.length + e.idxContainer.size := by
  simp [call, IndexingContainer.size]

/-- What the target of an assignment calls tells whether it was replaced. -/
theorem call_deepCopy_iff (target rhs : Delegate F) (args : A) :
    (target.deepCopy rhs).call args = rhs.call args ↔ Covers target rhs := by
  constructor
  · intro same
    have lengths := congrArg List.length same
    simp only [call_length, deepCopy] at lengths
    constructor
    · intro held none
      have positive := List.length_pos_iff.mpr held
      simp only [none, List.length_nil] at lengths
      split_ifs at lengths <;> omega
    · intro held none
      have positive : 0 < target.idxContainer.size :=
        Nat.pos_of_ne_zero fun empty => held (size_eq_zero.mp empty)
      simp only [size_eq_zero.mpr none] at lengths
      split_ifs at lengths <;> omega
  · intro covers
    rw [deepCopy_of_covers covers]

end Delegate

/-- `actor::mail_t` -/
abbrev MailT (F A : Type) := Delegate F × A

namespace MailT

variable {F A : Type}

/-- `std::make_pair(std::forward<Delegate>(_delegate), std::forward<ArgsTuple>(_tuple))`:
the mail, and the two arguments afterwards. -/
def makePair (moved : A → A) (e : Delegate F) (delegateCategory : ValueCategory) (args : A)
    (tupleCategory : ValueCategory) : MailT F A × Delegate F × A :=
  let (first, e') := e.construct delegateCategory
  let args' := match tupleCategory with
    | .lvalue => args
    | .rvalue => moved args
  ((first, args), e', args')

/-- A mail has the subscribers and arguments it is made of. -/
theorem makePair_fst (moved : A → A) (e : Delegate F) (delegateCategory : ValueCategory)
    (args : A) (tupleCategory : ValueCategory) :
    (makePair moved e delegateCategory args tupleCategory).1 = (e, args) := by
  simp only [makePair, Delegate.construct_fst]

/-- Assignment of mails is that of their members. -/
def moveAssign (moved : A → A) : MoveAssign (MailT F A) where
  assign target source :=
    let (first, left) := target.1.deepCopyMove source.1
    ((first, source.2), (left, moved source.2))
  moved source := ({}, moved source.2)
  Blank mail := mail.1 = {}
  source_eq target source := by simp only [Delegate.deepCopyMove_snd]
  blank_moved _ := rfl
  target_eq target source blank := by
    simp only [Delegate.deepCopyMove_fst, blank, Delegate.deepCopy_empty]

/-- The mail taken into an object that held another one. -/
theorem assign_fst (moved : A → A) (target source : MailT F A) :
    ((moveAssign moved).assign target source).1 = (target.1.deepCopy source.1, source.2) := by
  simp only [moveAssign, Delegate.deepCopyMove_fst]

end MailT
end Vee
