import Mathlib.Data.List.FinRange
import Vee.Delegate.Basic
import Vee.Ordered.Entries

/-!
# Subscribing to a delegate and calling it

Functions are added to a delegate with and without a key, removed again, and
called in one of three forms. A subscriber is a function of the delegate's own
type, passed as a pointer to it, and all parameters are passed by value. What
the delegate is for is said by `Subscribers`: the unkeyed functions in order of
addition, and a partial map from keys to functions.
-/

namespace Vee

/-- The types by which a `std::function` can be asked for its target: the
signature `RTy(Args ...)`, the pointer to such a function, or another one. -/
inductive CallableType where
  | signature
  | functionPointer
  | other (id : Nat)
  deriving DecidableEq, Repr

/-- `target_type`: a function type is replaced by the pointer to it. -/
def CallableType.targetType : CallableType → CallableType
  | .signature => .functionPointer
  | .functionPointer => .functionPointer
  | .other id => .other id

/-- `_binder_t`: a callable object of some type that calls a function. -/
structure Binder (F : Type) where
  type : CallableType
  function : F
  deriving DecidableEq, Repr

namespace Binder

variable {F : Type}

/-- `binder(func)` for a function pointer. -/
def ofPointer (func : F) : Binder F := { type := .functionPointer, function := func }

/-- `target<target_type>()` -/
def target (binder : Binder F) (type : CallableType) : Option F :=
  if binder.type = type then some binder.function else none

variable [DecidableEq F]

/-- `compare_functions<FuncSig>` -/
def compareFunctions (funcSig : CallableType) (lhs rhs : Binder F) : Bool :=
  match lhs.target funcSig.targetType with
  | none => false
  | some lhsInternal =>
      match rhs.target funcSig.targetType with
      | none => false
      | some rhsInternal => rhsInternal = lhsInternal

/-- Both types under which function pointers are compared find their targets. -/
theorem compareFunctions_ofPointer {funcSig : CallableType}
    (compared : funcSig = .functionPointer ∨ funcSig = .signature) (f g : F) :
    compareFunctions funcSig (ofPointer f) (ofPointer g) = decide (f = g) := by
  obtain rfl | rfl := compared <;>
    simp [compareFunctions, target, ofPointer, CallableType.targetType, eq_comm]

end Binder

namespace IndexingContainer

variable {F : Type}

/-- `insert(std::make_pair(key, binder))` -/
def insert (c : IndexingContainer F) (key : Int) (binder : F) : IndexingContainer F where
  entries := Ordered.insertNew key binder c.entries
  ascending := Ordered.insertNew_ascending c.ascending

/-- The search for an entry and its erasure. -/
def erase (c : IndexingContainer F) (key : Int) : Option (IndexingContainer F) :=
  match found : Ordered.eraseKey key c.entries with
  | none => none
  | some entries => some
      { entries, ascending := c.ascending.sublist (Ordered.eraseKey_sublist found) }

theorem erase_cases (c : IndexingContainer F) (key : Int) :
    (c.erase key = none ∧ ∀ f, (key, f) ∉ c.entries) ∨
      ∃ c', c.erase key = some c' ∧ (∃ f, (key, f) ∈ c.entries) ∧
        ∀ entry, entry ∈ c'.entries ↔ entry ∈ c.entries ∧ entry.1 ≠ key := by
  simp only [erase]
  split
  · rename_i missing
    exact .inl ⟨rfl, Ordered.eraseKey_eq_none_iff.mp missing⟩
  · rename_i entries found
    refine .inr ⟨_, rfl, ?_, fun entry => Ordered.mem_eraseKey c.ascending found⟩
    by_contra missing
    rw [Ordered.eraseKey_eq_none_iff.mpr (not_exists.mp missing)] at found
    cases found

end IndexingContainer

/-- One call of `+=` or `-=`. -/
inductive Subscription (F : Type) where
  | add (func : F)
  | addKey (key : Int) (func : F)
  /-- `-=` with a function pointer -/
  | remove (func : F)
  /-- `-=` with a `std::function` that holds the function pointer -/
  | removeBinder (func : F)
  | removeKey (key : Int)
  deriving DecidableEq, Repr

namespace Delegate

variable {F : Type} [DecidableEq F]

omit [DecidableEq F] in
/-- `operator+=(CallableObj)` -/
def addAssign (e : Delegate (Binder F)) (func : F) : Delegate (Binder F) :=
  { e with container := e.container ++ [.ofPointer func] }

omit [DecidableEq F] in
/-- `operator+=(std::pair<key_t, CallableObj>)` -/
def addAssignKey (e : Delegate (Binder F)) (key : Int) (func : F) : Delegate (Binder F) :=
  { e with idxContainer := e.idxContainer.insert key (.ofPointer func) }

/-- The loop over `_container`, with the erasure that ends it. -/
def eraseFirst (funcSig : CallableType) (binder : Binder F) :
    List (Binder F) → Option (List (Binder F))
  | [] => none
  | it :: rest =>
      if it.compareFunctions funcSig binder then some rest
      else (eraseFirst funcSig binder rest).map (it :: ·)

/-- `-=` on `_container` with the type under which the binders are compared. -/
def subAssignAs (funcSig : CallableType) (e : Delegate (Binder F)) (binder : Binder F) :
    Delegate (Binder F) × Bool :=
  match eraseFirst funcSig binder e.container with
  | some container => ({ e with container }, true)
  | none => (e, false)

/-- `operator-=(CallableObj)` -/
def subAssign (e : Delegate (Binder F)) (func : F) : Delegate (Binder F) × Bool :=
  e.subAssignAs .functionPointer (.ofPointer func)

/-- `operator-=(_binder_t)` -/
def subAssignBinder (e : Delegate (Binder F)) (binder : Binder F) : Delegate (Binder F) × Bool :=
  e.subAssignAs .signature binder

omit [DecidableEq F] in
/-- `operator-=(const key_t)` -/
def subAssignKey (e : Delegate (Binder F)) (key : Int) : Delegate (Binder F) × Bool :=
  match e.idxContainer.erase key with
  | some idxContainer => ({ e with idxContainer }, true)
  | none => (e, false)

/-- One call, with what it returns; `+=` returns nothing. -/
def perform (e : Delegate (Binder F)) : Subscription F → Delegate (Binder F) × Option Bool
  | .add func => (e.addAssign func, none)
  | .addKey key func => (e.addAssignKey key func, none)
  | .remove func => (e.subAssign func).map id some
  | .removeBinder func => (e.subAssignBinder (.ofPointer func)).map id some
  | .removeKey key => (e.subAssignKey key).map id some

/-- The calls in order, with what each of them returns. -/
def performAll (e : Delegate (Binder F)) :
    List (Subscription F) → Delegate (Binder F) × List (Option Bool)
  | [] => (e, [])
  | op :: ops =>
      let (e, result) := e.perform op
      let (e, results) := e.performAll ops
      (e, result :: results)

end Delegate

/-- What a delegate stands for. -/
structure Subscribers (F : Type) where
  unkeyed : List F := []
  keyed : Int → Option F := fun _ => none

namespace Subscribers

variable {F : Type} [DecidableEq F]

/-- A function is removed where it was added first, and a key keeps the function
it is bound to until the key is removed. -/
def perform (s : Subscribers F) : Subscription F → Subscribers F × Option Bool
  | .add f => ({ s with unkeyed := s.unkeyed ++ [f] }, none)
  | .addKey key f =>
      ({ s with keyed := Function.update s.keyed key ((s.keyed key).or (some f)) }, none)
  | .remove f => ({ s with unkeyed := s.unkeyed.erase f }, some (decide (f ∈ s.unkeyed)))
  | .removeBinder f => ({ s with unkeyed := s.unkeyed.erase f }, some (decide (f ∈ s.unkeyed)))
  | .removeKey key =>
      ({ s with keyed := Function.update s.keyed key none }, some (s.keyed key).isSome)

def performAll (s : Subscribers F) :
    List (Subscription F) → Subscribers F × List (Option Bool)
  | [] => (s, [])
  | op :: ops =>
      let (s, result) := s.perform op
      let (s, results) := s.performAll ops
      (s, result :: results)

end Subscribers

/-- The delegate holds these subscribers. -/
structure Delegate.Holds {F : Type} (e : Delegate (Binder F)) (s : Subscribers F) : Prop where
  unkeyed : e.container = s.unkeyed.map .ofPointer
  keyed : ∀ key b, (key, b) ∈ e.idxContainer.entries ↔ (s.keyed key).map .ofPointer = some b

namespace Delegate

variable {F : Type} [DecidableEq F] {e : Delegate (Binder F)} {s : Subscribers F}

/-- The loop erases the first function equal to the given one. -/
theorem eraseFirst_ofPointer {funcSig : CallableType}
    (compared : funcSig = .functionPointer ∨ funcSig = .signature) (f : F) (unkeyed : List F) :
    eraseFirst funcSig (.ofPointer f) (unkeyed.map .ofPointer) =
      if f ∈ unkeyed then some ((unkeyed.erase f).map .ofPointer) else none := by
  induction unkeyed with
  | nil => rfl
  | cons g rest ih =>
      simp only [List.map_cons, eraseFirst, Binder.compareFunctions_ofPointer compared,
        decide_eq_true_eq]
      by_cases same : g = f
      · simp [same]
      · rw [if_neg same, ih]
        by_cases later : f ∈ rest
        · have differ : ¬ (g == f) = true := by simpa using same
          simp [later, List.erase_cons_tail differ]
        · simp [later, Ne.symm same]

theorem Holds.subAssignAs (h : e.Holds s) {funcSig : CallableType}
    (compared : funcSig = .functionPointer ∨ funcSig = .signature) (f : F) :
    (e.subAssignAs funcSig (.ofPointer f)).1.Holds { s with unkeyed := s.unkeyed.erase f } ∧
      (e.subAssignAs funcSig (.ofPointer f)).2 = decide (f ∈ s.unkeyed) := by
  simp only [Delegate.subAssignAs, h.unkeyed, eraseFirst_ofPointer compared]
  by_cases member : f ∈ s.unkeyed
  · simp only [member, if_true, decide_true, and_true]
    exact ⟨rfl, h.keyed⟩
  · simp only [member, if_false, decide_false, and_true]
    exact ⟨by rw [List.erase_of_not_mem member]; exact h.unkeyed, h.keyed⟩

omit [DecidableEq F] in
theorem Holds.addAssignKey (h : e.Holds s) (key : Int) (f : F) :
    (e.addAssignKey key f).Holds
      { s with keyed := Function.update s.keyed key ((s.keyed key).or (some f)) } := by
  refine ⟨h.unkeyed, ?_⟩
  intro k b
  have bound : ∀ v, (key, v) ∉ e.idxContainer.entries ↔ (s.keyed key).map .ofPointer ≠ some v :=
    fun v => not_congr (h.keyed key v)
  change (k, b) ∈ Ordered.insertNew key (Binder.ofPointer f) e.idxContainer.entries ↔ _
  rw [Ordered.mem_insertNew e.idxContainer.ascending, h.keyed]
  simp only [bound]
  by_cases same : k = key
  · subst same
    rw [Function.update_self]
    cases held : s.keyed k with
    | none => simp [eq_comm]
    | some g => simp
  · rw [Function.update_of_ne same]
    simp [same]

omit [DecidableEq F] in
theorem Holds.subAssignKey (h : e.Holds s) (key : Int) :
    (e.subAssignKey key).1.Holds { s with keyed := Function.update s.keyed key none } ∧
      (e.subAssignKey key).2 = (s.keyed key).isSome := by
  simp only [Delegate.subAssignKey]
  obtain ⟨missing, absent⟩ | ⟨c', found, ⟨b, mem⟩, entries⟩ := e.idxContainer.erase_cases key
  · have unbound : s.keyed key = none := by
      cases held : s.keyed key with
      | none => rfl
      | some g => exact absurd ((h.keyed key (.ofPointer g)).mpr (by rw [held]; rfl)) (absent _)
    rw [missing, ← unbound, Function.update_eq_self, unbound]
    exact ⟨h, rfl⟩
  · rw [found]
    obtain ⟨g, held, _⟩ := Option.map_eq_some_iff.mp ((h.keyed key b).mp mem)
    refine ⟨⟨h.unkeyed, ?_⟩, by rw [held]; rfl⟩
    intro k b
    rw [entries, h.keyed]
    by_cases same : k = key
    · subst same
      simp
    · simp [same]

/-- Every call of `+=` and `-=` does what it is for. -/
theorem Holds.perform (h : e.Holds s) (op : Subscription F) :
    (e.perform op).1.Holds (s.perform op).1 ∧ (e.perform op).2 = (s.perform op).2 := by
  cases op with
  | add f =>
      refine ⟨⟨?_, h.keyed⟩, rfl⟩
      change e.container ++ [Binder.ofPointer f] = (s.unkeyed ++ [f]).map .ofPointer
      rw [h.unkeyed, List.map_append]
      rfl
  | addKey key f => exact ⟨h.addAssignKey key f, rfl⟩
  | remove f =>
      obtain ⟨holds, result⟩ := h.subAssignAs (.inl rfl) f
      exact ⟨holds, congrArg some result⟩
  | removeBinder f =>
      obtain ⟨holds, result⟩ := h.subAssignAs (.inr rfl) f
      exact ⟨holds, congrArg some result⟩
  | removeKey key =>
      obtain ⟨holds, result⟩ := h.subAssignKey key
      exact ⟨holds, congrArg some result⟩

theorem Holds.performAll (h : e.Holds s) (ops : List (Subscription F)) :
    (e.performAll ops).1.Holds (s.performAll ops).1 ∧
      (e.performAll ops).2 = (s.performAll ops).2 := by
  induction ops generalizing e s with
  | nil => exact ⟨h, rfl⟩
  | cons op ops ih =>
      obtain ⟨holds, result⟩ := h.perform op
      obtain ⟨holds', results⟩ := ih holds
      exact ⟨holds', congrArg₂ List.cons result results⟩

omit [DecidableEq F] in
theorem Holds.empty : Holds ({} : Delegate (Binder F)) {} :=
  ⟨rfl, by simp⟩

omit [DecidableEq F] in
/-- The keyed functions a delegate holds, in ascending order of their keys. -/
theorem Holds.keyed_functions (h : e.Holds s) :
    ∃ keyed : List (Int × F), Ordered.Ascending keyed ∧
      (∀ key f, (key, f) ∈ keyed ↔ s.keyed key = some f) ∧
      e.idxContainer.entries = keyed.map fun it => (it.1, .ofPointer it.2) := by
  have pointers : ∀ entry ∈ e.idxContainer.entries,
      entry.2 = .ofPointer entry.2.function ∧ s.keyed entry.1 = some entry.2.function := by
    rintro ⟨key, b⟩ mem
    obtain ⟨f, held, rfl⟩ := Option.map_eq_some_iff.mp ((h.keyed key b).mp mem)
    exact ⟨rfl, held⟩
  refine ⟨e.idxContainer.entries.map fun it => (it.1, it.2.function), ?_, ?_, ?_⟩
  · exact List.Pairwise.map _ (fun _ _ less => less) e.idxContainer.ascending
  · intro key f
    constructor
    · intro mem
      obtain ⟨entry, held, same⟩ := List.mem_map.mp mem
      obtain ⟨rfl, rfl⟩ := Prod.mk.inj same
      exact (pointers entry held).2
    · intro held
      have mem := (h.keyed key (.ofPointer f)).mpr (by rw [held]; rfl)
      exact List.mem_map.mpr ⟨_, mem, rfl⟩
  · rw [List.map_map]
    refine (List.map_id _).symm.trans (List.map_congr_left ?_)
    rintro ⟨key, b⟩ mem
    exact congrArg (Prod.mk key) (pointers _ mem).1

end Delegate

/-! ### Calling -/

variable {V : Type} {n : Nat}

/-- A parameter passed by value is initialised from an argument: the parameter,
and the argument afterwards. -/
def initialise (moved : V → V) (argument : ValueCategory) (value : V) : V × V :=
  match argument with
  | .lvalue => (value, value)
  | .rvalue => (value, moved value)

/-- The parameters initialised from the given arguments, and all arguments afterwards. -/
def passAll (moved : V → V) (argument : ValueCategory) :
    List (Fin n) → (Fin n → V) → List V × (Fin n → V)
  | [], args => ([], args)
  | i :: rest, args =>
      let (value, left) := initialise moved argument (args i)
      let (values, args') := passAll moved argument rest (Function.update args i left)
      (value :: values, args')

/-- `sequence_generator<N, S...>::type`, for an `N` not above `n`. -/
def sequenceGenerator : (k : Nat) → k ≤ n → List (Fin n) → List (Fin n)
  | 0, _, sequence => sequence
  | k + 1, bound, sequence =>
      sequenceGenerator k (Nat.le_of_succ_le bound) (⟨k, bound⟩ :: sequence)

/-- The name of a parameter is an lvalue, whatever the parameter is bound to. -/
def ValueCategory.named (_bound : ValueCategory) : ValueCategory := .lvalue

/-- `std::get<S>(tuple)` has the category of `tuple`, and
`std::forward<decltype(std::get<S>(tuple))>` leaves it that. -/
def ValueCategory.forwardGet (tuple : ValueCategory) : ValueCategory := tuple

/-- `_do_call` with its parameter `Tuple&& tuple` bound to a tuple. -/
def doCall (moved : V → V) (category : ValueCategory) (tuple : Fin n → V)
    (sequence : List (Fin n)) : List V × (Fin n → V) :=
  passAll moved category.named.forwardGet sequence tuple

/-- `call_by_tuple` -/
def callByTuple (moved : V → V) (category : ValueCategory) (tuple : Fin n → V) :
    List V × (Fin n → V) :=
  doCall moved category tuple (sequenceGenerator n (Nat.le_refl n) [])

/-- `operator()(FwdArgs&& ...)`, and `operator()` with an argument tuple. -/
inductive CallForm where
  | arguments (category : ValueCategory)
  | tuple (category : ValueCategory)
  deriving DecidableEq, Repr

/-- What one subscriber is called with, and the arguments afterwards. -/
def CallForm.invoke (moved : V → V) (args : Fin n → V) : CallForm → List V × (Fin n → V)
  | .arguments category => passAll moved category.named (List.finRange n) args
  | .tuple category => callByTuple moved category args

/-- One loop of the call operator, over the functions of either container. -/
def CallForm.loop {F : Type} (form : CallForm) (moved : V → V) :
    List F → (Fin n → V) → List (F × List V) × (Fin n → V)
  | [], args => ([], args)
  | it :: rest, args =>
      let (values, args) := form.invoke moved args
      let (calls, args) := form.loop moved rest args
      ((it, values) :: calls, args)

/-- The call operator in one of its forms: the functions it calls, in order, with
their arguments, and the caller's arguments afterwards. -/
def Delegate.operatorCall {F : Type} (e : Delegate F) (form : CallForm) (moved : V → V)
    (args : Fin n → V) : List (F × List V) × (Fin n → V) :=
  let (calls, args) := form.loop moved e.container args
  let (calls', args) := form.loop moved (e.idxContainer.entries.map (·.2)) args
  (calls ++ calls', args)

/-- Arguments passed from lvalues are copied. -/
theorem passAll_lvalue (moved : V → V) (indices : List (Fin n)) (args : Fin n → V) :
    passAll moved .lvalue indices args = (indices.map args, args) := by
  induction indices with
  | nil => rfl
  | cons i rest ih => simp only [passAll, initialise, Function.update_eq_self, ih, List.map_cons]

theorem sequenceGenerator_eq (k : Nat) (bound : k ≤ n) (sequence : List (Fin n)) :
    sequenceGenerator k bound sequence =
      (List.finRange k).map (Fin.castLE bound) ++ sequence := by
  induction k generalizing sequence with
  | zero => rfl
  | succ k ih =>
      rw [sequenceGenerator, ih, List.finRange_succ_last, List.map_append, List.map_map,
        List.append_assoc]
      rfl

/-- In every form a subscriber gets all arguments and leaves them as they were. -/
theorem CallForm.invoke_eq (form : CallForm) (moved : V → V) (args : Fin n → V) :
    form.invoke moved args = (List.ofFn args, args) := by
  cases form with
  | arguments category =>
      rw [invoke, ValueCategory.named, passAll_lvalue, List.ofFn_eq_map]
  | tuple category =>
      have all : sequenceGenerator n (Nat.le_refl n) [] = List.finRange n := by
        rw [sequenceGenerator_eq, List.append_nil]
        exact List.map_id _
      rw [invoke, callByTuple, doCall, ValueCategory.forwardGet, ValueCategory.named,
        passAll_lvalue, all, List.ofFn_eq_map]

theorem CallForm.loop_eq {F : Type} (form : CallForm) (moved : V → V) (functions : List F)
    (args : Fin n → V) :
    form.loop moved functions args = (functions.map (·, List.ofFn args), args) := by
  induction functions with
  | nil => rfl
  | cons it rest ih => simp only [loop, form.invoke_eq, ih, List.map_cons]

/-- All forms call the subscribers alike. -/
theorem Delegate.operatorCall_eq {F : Type} (e : Delegate F) (form : CallForm) (moved : V → V)
    (args : Fin n → V) :
    e.operatorCall form moved args = (e.call (List.ofFn args), args) := by
  simp only [operatorCall, form.loop_eq, call, List.map_map]
  rfl

variable {F : Type} [DecidableEq F]

/-- A delegate calls the unkeyed functions left, in order of addition, and then
the keyed ones in ascending order of their keys, each with the caller's
arguments, which it does not consume. -/
theorem delegate_calls_subscribers (ops : List (Subscription F)) (form : CallForm)
    (moved : V → V) (args : Fin n → V) :
    let (e, results) := Delegate.performAll {} ops
    let (s, results') := Subscribers.performAll {} ops
    results = results' ∧
      ∃ keyed : List (Int × F), Ordered.Ascending keyed ∧
        (∀ key f, (key, f) ∈ keyed ↔ s.keyed key = some f) ∧
        e.operatorCall form moved args =
          ((s.unkeyed ++ keyed.map (·.2)).map fun f => (.ofPointer f, List.ofFn args), args) := by
  obtain ⟨holds, results⟩ := Delegate.Holds.empty.performAll ops
  obtain ⟨keyed, ascending, bound, functions⟩ := holds.keyed_functions
  refine ⟨results, keyed, ascending, bound, ?_⟩
  rw [Delegate.operatorCall_eq, Delegate.call, holds.unkeyed, functions, List.map_append]
  simp only [List.map_map]
  rfl

/-! ### Assigning -/

namespace Delegate

omit [DecidableEq F]

/-- `operator=` for either kind of argument: the target, and `rhs` afterwards. -/
def assign (target rhs : Delegate F) : ValueCategory → Delegate F × Delegate F
  | .lvalue => (target.deepCopy rhs, rhs)
  | .rvalue => target.deepCopyMove rhs

/-- After the assignment the target is what the source was, and calls what the
source would have called; a copied source is unchanged. -/
structure Replaces (target rhs : Delegate F) (category : ValueCategory) : Prop where
  same : (target.assign rhs category).1 = rhs
  source : category = .lvalue → (target.assign rhs category).2 = rhs
  calls : ∀ (V : Type) (n : Nat) (form : CallForm) (moved : V → V) (args : Fin n → V),
    (target.assign rhs category).1.operatorCall form moved args =
      rhs.operatorCall form moved args

theorem assign_fst (target rhs : Delegate F) (category : ValueCategory) :
    (target.assign rhs category).1 = target.deepCopy rhs := by
  cases category with
  | lvalue => rfl
  | rvalue => exact deepCopyMove_fst target rhs

theorem replaces_of_same {target rhs : Delegate F} {category : ValueCategory}
    (same : (target.assign rhs category).1 = rhs) : target.Replaces rhs category where
  same := same
  source := by
    rintro rfl
    rfl
  calls := by
    intro V n form moved args
    rw [same]

/-- Assignment replaces the target exactly if the source has subscribers of every
kind that the target has. -/
theorem assign_replaces_iff [DecidableEq F] (ops ops' : List (Subscription F))
    (category : ValueCategory) :
    (performAll {} ops).1.Replaces (performAll {} ops').1 category ↔
      (performAll {} ops).1.Covers (performAll {} ops').1 := by
  constructor
  · intro replaces
    have same := replaces.same
    rw [assign_fst] at same
    exact (call_deepCopy_iff _ _ ()).mp (congrArg (·.call ()) same)
  · intro covers
    exact replaces_of_same ((assign_fst _ _ _).trans (deepCopy_of_covers covers))

/-- A delegate keeps its subscriber when an empty one is assigned to it. -/
theorem assign_empty_keeps :
    ¬ ∀ (ops ops' : List (Subscription Nat)) (category : ValueCategory),
      (performAll {} ops).1.Replaces (performAll {} ops').1 category := by
  intro replaces
  have same := (replaces [.add 1] [] .lvalue).same
  exact absurd same (by decide)

end Delegate
end Vee
