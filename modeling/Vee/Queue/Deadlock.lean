import Mathlib.Data.Fintype.EquivFin
import Vee.Lock.Order
import Vee.Queue.Assignments

/-!
# Assignments that wait for each other

An assignment holds `_index_guard` of its argument while it waits for that of its
target. All calls come to an end, in whatever order their steps come, if and only if
no cycle of assignments is in use, where those that copy nothing, because the argument
is larger than the target or has no slots, do not count. A queue that is assigned to
itself is a cycle of one: another thread may put an item into it behind `clear`.
-/

namespace Vee

open Relation Transition

variable {α ι : Type}

namespace Queues

variable [DecidableEq ι] {s s' : Queues ι α} {inUse : ι → ι → Prop} {capacity : ι → Nat}
  {lhs rhs q : ι} {pc pc' : Assignment} {queue : RingQueue α} {i : Nat} {moved : α → α}

/-- Every call has returned. -/
structure Returned (s : Queues ι α) : Prop where
  assignments : ∀ lhs rhs pc, (lhs, rhs, pc) ∈ s.assignments → ∃ result, pc = .returned result
  producers : ∀ q pc, (q, pc) ∈ s.producers → ∃ result, pc = .returned result
  consumers : ∀ q pc, (q, pc) ∈ s.consumers → ∃ item, pc = .returned item

/-- No call can go on. -/
def Halted (moved : α → α) (s : Queues ι α) : Prop :=
  ∀ a, Working s a → s.step moved a = none

/-- Without new calls all calls return within a bounded number of steps, in whatever
order these come. -/
def Ends (moved : α → α) (s : Queues ι α) : Prop :=
  ∃ bound, ∀ actions t, Run (step moved) Working s actions t →
    actions.length ≤ bound ∧ (Halted moved t → Returned t)

/-- An assignment in use holds the guard of `rhs` and then takes that of `lhs`. -/
def Waits (inUse : ι → ι → Prop) (capacity : ι → Nat) (rhs lhs : ι) : Prop :=
  inUse lhs rhs ∧ capacity rhs ≤ capacity lhs ∧ 0 < capacity rhs

namespace Sound

/-- An assignment that cannot go on has returned or waits for a guard; inside its
loop it waits for that of `lhs`. -/
theorem waits (h : Sound inUse capacity s) (small : ∀ q, capacity q < 2 ^ 31)
    (at_i : s.assignments[i]? = some (lhs, rhs, pc))
    (stuck : s.assignmentStep moved lhs rhs pc = none) :
    (∃ result, pc = .returned result) ∨
      pc.holds = false ∧ (s.indexGuards lhs = true ∨ s.indexGuards rhs = true) ∨
        ∃ rear left, pc = .enqueue rear left ∧ s.indexGuards lhs = true := by
  obtain ⟨used, sane⟩ := h.assignments lhs rhs pc (List.mem_of_getElem? at_i)
  have left_ := h.bounded lhs
  have right_ := h.bounded rhs
  cases pc with
  | clear =>
      simp only [assignmentStep] at stuck
      split_ifs at stuck with closed
      · exact .inr (.inl ⟨rfl, .inl closed⟩)
      · cases index : (s.queues lhs).dequeueIndex <;> simp [index] at stuck
  | discard slot =>
      obtain ⟨_, _, loaded, _⟩ := left_.load sane moved
      simp [assignmentStep, loaded] at stuck
  | compare =>
      simp only [assignmentStep] at stuck
      split_ifs at stuck
  | lock =>
      simp only [assignmentStep] at stuck
      split_ifs at stuck with closed
      exact .inr (.inl ⟨rfl, .inr closed⟩)
  | turn rear left =>
      cases left with
      | zero => cases stuck
      | succ left =>
          obtain ⟨_, less, within⟩ := sane
          have inside := within.toSize_lt (by omega) (small rhs)
          obtain ⟨_, locked, _⟩ :=
            right_.lockItem ((h.guarded rhs).unlocked at_i rfl rfl) inside
          simp [assignmentStep, locked] at stuck
  | enqueue rear left =>
      simp only [assignmentStep] at stuck
      split_ifs at stuck with closed
      · exact .inr (.inr ⟨rear, left, rfl, closed⟩)
      · cases index : (s.queues lhs).enqueueIndex <;> simp [index] at stuck
  | store slot rear left =>
      obtain ⟨⟨_, less, within⟩, inside⟩ := sane
      have found := within.toSize_lt (by omega) (small rhs)
      rw [← right_.container_length] at found
      obtain ⟨_, stored, _⟩ := left_.store inside (s.queues rhs).itemContainer[toSize rear]
      simp [assignmentStep, List.getElem?_eq_getElem found, stored] at stuck
  | advance rear left => cases stuck
  | returned result => exact .inl ⟨result, rfl⟩

/-- The guards that are held when no call can go on are those of a deadlock. -/
theorem closed_of_halted (h : Sound inUse capacity s) (small : ∀ q, capacity q < 2 ^ 31)
    (halted : Halted moved s) :
    LockOrder.Closed (Waits inUse capacity) {q | s.indexGuards q = true} := by
  intro q closed
  cases h.guarded q with
  | free open_ _ _ => exact absurd (closed.symm.trans open_) Bool.noConfusion
  | @held i lhs pc _ only holds _ =>
      have at_i := only.here
      have stuck := halted (.assignment i) trivial
      simp only [Queues.step, at_i, Option.map_eq_none_iff] at stuck
      obtain ⟨result, rfl⟩ | ⟨passive, _⟩ | ⟨rear, left, rfl, taken⟩ := h.waits small at_i stuck
      · cases holds
      · exact absurd (holds.symm.trans passive) Bool.noConfusion
      · obtain ⟨used, le, less, _⟩ := h.assignments lhs q _ (List.mem_of_getElem? at_i)
        exact ⟨lhs, taken, used, le, by omega⟩

/-- Without a cycle of assignments the calls that cannot go on have returned. -/
theorem returned_of_halted [Finite ι] (h : Sound inUse capacity s)
    (small : ∀ q, capacity q < 2 ^ 31) (acyclic : ∀ q, ¬ TransGen (Waits inUse capacity) q q)
    (halted : Halted moved s) : Returned s := by
  have nobody := LockOrder.acyclic_iff.mp acyclic _ (h.closed_of_halted small halted)
  have open_ : ∀ q, s.indexGuards q = false := by
    intro q
    apply Bool.eq_false_of_not_eq_true
    exact Set.eq_empty_iff_forall_notMem.mp nobody q
  constructor
  · intro lhs rhs pc member
    obtain ⟨i, at_i⟩ := List.getElem?_of_mem member
    have stuck := halted (.assignment i) trivial
    simp only [Queues.step, at_i, Option.map_eq_none_iff] at stuck
    obtain returned | ⟨_, closed | closed⟩ | ⟨_, _, _, closed⟩ := h.waits small at_i stuck
    · exact returned
    · simp [open_] at closed
    · simp [open_] at closed
    · simp [open_] at closed
  · intro q pc member
    obtain ⟨p, at_p⟩ := List.getElem?_of_mem member
    have stuck := halted (.producer p) trivial
    simp only [Queues.step, at_p, Option.map_eq_none_iff] at stuck
    cases pc with
    | reserve data =>
        simp only [producerStep, open_, Bool.false_eq_true, if_false] at stuck
        cases index : (s.queues q).enqueueIndex <;> simp [index] at stuck
    | store data slot =>
        obtain ⟨_, stored, _⟩ := (h.bounded q).store (h.producers q data slot member) data
        simp [producerStep, stored] at stuck
    | returned result => exact ⟨result, rfl⟩
  · intro q pc member
    obtain ⟨c, at_c⟩ := List.getElem?_of_mem member
    have stuck := halted (.consumer c) trivial
    simp only [Queues.step, at_c, Option.map_eq_none_iff] at stuck
    cases pc with
    | reserve =>
        simp only [consumerStep, open_, Bool.false_eq_true, if_false] at stuck
        cases index : (s.queues q).dequeueIndex <;> simp [index] at stuck
    | load slot =>
        obtain ⟨_, _, loaded, _⟩ := (h.bounded q).load (h.consumers q slot member) moved
        simp [consumerStep, loaded] at stuck
    | returned item => exact ⟨item, rfl⟩

end Sound

section

variable {waiting : List ι} {target : ι → ι}

/-- The calls that a deadlock is made of, each before it takes its first guard. -/
def atLock (waiting : List ι) (target : ι → ι) : List (ι × ι × Assignment) :=
  waiting.map fun rhs => (target rhs, rhs, .lock)

/-- An assignment between empty queues comes to the guard of `rhs`. -/
theorem run_to_lock (moved : α → α) (used : inUse lhs rhs) (empty : (s.queues lhs).size = 0)
    (open_ : s.indexGuards lhs = false)
    (fits : (s.queues rhs).capacity ≤ (s.queues lhs).capacity) :
    Run (step moved) (InUse inUse) s
      [.callAssign lhs rhs, .assignment s.assignments.length, .assignment s.assignments.length]
      { s with assignments := s.assignments ++ [(lhs, rhs, .lock)] } := by
  have none_ : (s.queues lhs).dequeueIndex = none := by
    simp [RingQueue.dequeueIndex, empty]
  refine .cons (u := { s with assignments := s.assignments ++ [(lhs, rhs, .clear)] }) used rfl
    (.cons (u := { s with assignments := s.assignments ++ [(lhs, rhs, .compare)] }) trivial ?_
      (.single trivial ?_))
  · simp [step, assignmentStep, open_, none_]
  · simp [step, assignmentStep, Nat.not_lt.mpr fits]

/-- All calls of the deadlock come there. -/
theorem run_to_locks [Inhabited α] (moved : α → α)
    (waits : ∀ rhs ∈ waiting, Waits inUse capacity rhs (target rhs)) :
    ∃ actions, Run (step moved) (InUse inUse) (create (α := α) capacity) actions
      { create capacity with assignments := atLock waiting target } := by
  induction waiting using List.reverseRecOn with
  | nil => exact ⟨[], .nil _⟩
  | append_singleton waiting rhs ih =>
      obtain ⟨actions, run⟩ := ih fun rhs member => waits rhs (List.mem_append_left _ member)
      obtain ⟨used, le, _⟩ := waits rhs List.mem_concat_self
      have more := run_to_lock moved (s :=
        { create (α := α) capacity with assignments := atLock waiting target }) used rfl rfl le
      have whole : atLock (waiting ++ [rhs]) target =
          atLock waiting target ++ [(target rhs, rhs, .lock)] := List.map_append
      rw [whole]
      exact ⟨_, run.trans more⟩

/-- An item comes into a queue whose guard is free, unless it is full already. -/
theorem run_to_item [Inhabited α] (moved : α → α) (h : Sound inUse capacity s)
    (small : ∀ q, capacity q < 2 ^ 31)
    (open_ : s.indexGuards q = false) (positive : 0 < capacity q) :
    ∃ actions queues result, Run (step moved) (InUse inUse) s actions
        { s with queues, producers := s.producers ++ [(q, .returned result)] } ∧
      0 < (queues q).size.toNat ∧
      ∀ q', (s.queues q').size.toNat ≤ (queues q').size.toNat := by
  cases index : (s.queues q).enqueueIndex with
  | none =>
      refine ⟨[.callEnqueue q default, .producer s.producers.length], s.queues, false, ?_, ?_,
        fun _ => Nat.le_refl _⟩
      · refine .cons (u := { s with producers := s.producers ++ [(q, .reserve default)] })
          trivial rfl (.single trivial ?_)
        simp [step, producerStep, open_, index]
      · obtain ⟨n, le, size⟩ := (h.bounded q).size
        have fits := small q
        have full : n = capacity q := by
          by_contra room
          have notFull : (s.queues q).isFull = false := by
            rw [RingQueue.isFull, size, (h.bounded q).capacity_eq, toSize_natCast (by omega)]
            exact decide_eq_false room
          simp [RingQueue.enqueueIndex, notFull] at index
        rw [size, Int.toNat_natCast, full]
        exact positive
  | some next =>
      obtain ⟨slot, queue⟩ := next
      obtain ⟨inside, bounded, _, size⟩ := (h.bounded q).enqueueIndex (small q) index
      obtain ⟨queue', stored, _, size', _⟩ := bounded.store inside default
      refine ⟨[.callEnqueue q default, .producer s.producers.length, .producer s.producers.length],
        Function.update s.queues q queue', true, ?_, ?_, ?_⟩
      · refine .cons (u := { s with producers := s.producers ++ [(q, .reserve default)] })
          trivial rfl (.cons (u := { s.put q queue with
            producers := s.producers ++ [(q, .store default slot)] }) trivial ?_ (.single trivial ?_))
        · simp [step, producerStep, open_, index, put]
        · simp [step, producerStep, put, stored]
      · rw [Function.update_self, size', size]
        omega
      · intro q'
        by_cases same : q' = q
        · subst same
          rw [Function.update_self, size', size]
          omega
        · rw [Function.update_of_ne same]

/-- The call takes the guard of `rhs` and comes to that of `lhs`. -/
theorem run_to_wait (moved : α → α) (h : Sound inUse capacity s) (small : ∀ q, capacity q < 2 ^ 31)
    (at_i : s.assignments[i]? = some (lhs, rhs, .lock)) (open_ : s.indexGuards rhs = false)
    (items : 0 < (s.queues rhs).size.toNat) :
    ∃ rear left queue, queue.size = (s.queues rhs).size ∧
      Run (step moved) (InUse inUse) s [.assignment i, .assignment i] { s with
        queues := Function.update s.queues rhs queue
        indexGuards := Function.update s.indexGuards rhs true
        assignments := s.assignments.set i (lhs, rhs, .enqueue rear left) } := by
  have bound := (List.getElem?_eq_some_iff.mp at_i).1
  obtain ⟨left, turns⟩ := Nat.exists_eq_succ_of_ne_zero (Nat.ne_of_gt items)
  obtain ⟨n, le, size⟩ := (h.bounded rhs).size
  rw [size, Int.toNat_natCast] at items
  have unlocked : RingQueue.Unlocked (s.queues rhs) := by
    cases h.guarded rhs with
    | free _ _ unlocked => exact unlocked
    | held closed _ _ _ => exact absurd (open_.symm.trans closed) Bool.noConfusion
  have inside := (h.bounded rhs).rear.toSize_lt (by omega) (small rhs)
  obtain ⟨queue, locked, _, size', _⟩ := (h.bounded rhs).lockItem unlocked inside
  refine ⟨(s.queues rhs).rear, left, queue, size', .cons (u := { s.setGuard rhs true with
    assignments := s.assignments.set i (lhs, rhs, .turn (s.queues rhs).rear (left + 1)) })
    trivial ?_ (.single trivial ?_)⟩
  · simp [step, at_i, assignmentStep, open_, turns]
  · simp [step, List.getElem?_set_self bound, assignmentStep, locked, put, setGuard]

/-- Only assignments have not returned. -/
structure OnlyAssignments (s : Queues ι α) : Prop where
  producers : ∀ q pc, (q, pc) ∈ s.producers → ∃ result, pc = .returned result
  consumers : s.consumers = []

/-- There are items in all queues of the deadlock. -/
theorem run_to_items [Fintype ι] [Inhabited α] (moved : α → α) (h : Sound inUse capacity s)
    (small : ∀ q, capacity q < 2 ^ 31)
    (open_ : ∀ q, s.indexGuards q = false) (only : OnlyAssignments s)
    (positive : ∀ q ∈ waiting, 0 < capacity q) :
    ∃ actions t, Run (step moved) (InUse inUse) s actions t ∧ t.assignments = s.assignments ∧
      t.indexGuards = s.indexGuards ∧ OnlyAssignments t ∧
      (∀ q ∈ waiting, 0 < (t.queues q).size.toNat) ∧
      ∀ q, (s.queues q).size.toNat ≤ (t.queues q).size.toNat := by
  induction waiting generalizing s with
  | nil => exact ⟨[], s, .nil s, rfl, rfl, only, nofun, fun _ => Nat.le_refl _⟩
  | cons q waiting ih =>
      obtain ⟨actions, queues, result, run, item, grows⟩ :=
        run_to_item moved h small (open_ q) (positive q List.mem_cons_self)
      have returned : OnlyAssignments
          { s with queues, producers := s.producers ++ [(q, .returned result)] } := by
        refine ⟨?_, only.consumers⟩
        intro q' pc member
        obtain old | new := List.mem_append.mp member
        · exact only.producers q' pc old
        · cases List.mem_singleton.mp new
          exact ⟨result, rfl⟩
      obtain ⟨more, t, rest, assignments, guards, only', items, grows'⟩ :=
        ih (h.run small run) open_ returned fun q member =>
          positive q (List.mem_cons_of_mem _ member)
      refine ⟨_, t, run.trans rest, assignments, guards, only', ?_, fun q' =>
        Nat.le_trans (grows q') (grows' q')⟩
      intro q' member
      obtain rfl | later := List.mem_cons.mp member
      · exact Nat.lt_of_lt_of_le item (grows' q')
      · exact items q' later

/-- The first `k` calls of the deadlock hold their guards and wait, and the others are
before theirs. -/
structure Reaching (waiting : List ι) (target : ι → ι) (k : Nat) (s : Queues ι α) : Prop where
  length : s.assignments.length = waiting.length
  taken : ∀ (i : Nat) rhs, i < k → waiting[i]? = some rhs →
    ∃ rear left, s.assignments[i]? = some (target rhs, rhs, .enqueue rear left)
  ahead : ∀ (i : Nat) rhs, k ≤ i → waiting[i]? = some rhs →
    s.assignments[i]? = some (target rhs, rhs, .lock)
  guards : ∀ q, s.indexGuards q = true ↔ q ∈ waiting.take k
  items : ∀ q ∈ waiting, 0 < (s.queues q).size.toNat
  only : OnlyAssignments s

/-- One after the other takes its guard. -/
theorem Reaching.run [Fintype ι] {k : Nat} (moved : α → α) (distinct : waiting.Nodup)
    (h : Sound inUse capacity s)
    (small : ∀ q, capacity q < 2 ^ 31) (reaching : Reaching waiting target 0 s)
    (le : k ≤ waiting.length) :
    ∃ actions t, Run (step moved) (InUse inUse) s actions t ∧ Reaching waiting target k t := by
  induction k with
  | zero => exact ⟨[], s, .nil s, reaching⟩
  | succ k ih =>
      obtain ⟨actions, t, run, before⟩ := ih (Nat.le_of_succ_le le)
      have at_k : waiting[k]? = some waiting[k] := List.getElem?_eq_getElem le
      have open_ : t.indexGuards waiting[k] = false := by
        apply Bool.eq_false_of_not_eq_true
        intro closed
        obtain ⟨j, at_j⟩ := List.getElem?_of_mem ((before.guards _).mp closed)
        rw [List.getElem?_take] at at_j
        split_ifs at at_j with earlier
        obtain ⟨inside, same⟩ := List.getElem?_eq_some_iff.mp at_j
        exact Nat.ne_of_lt earlier ((distinct.getElem_inj_iff).mp same)
      obtain ⟨rear, left, queue, size, waits⟩ := run_to_wait moved (h.run small run) small
        (before.ahead k _ (Nat.le_refl k) at_k) open_ (before.items _ (List.getElem_mem le))
      refine ⟨_, _, run.trans waits, ?_, ?_, ?_, ?_, ?_, ?_⟩
      · exact List.length_set.trans before.length
      · intro i rhs less at_i
        obtain earlier | rfl := Nat.lt_or_eq_of_le (Nat.le_of_lt_succ less)
        · obtain ⟨rear', left', waits'⟩ := before.taken i rhs earlier at_i
          exact ⟨rear', left', (List.getElem?_set_ne (Nat.ne_of_gt earlier)).trans waits'⟩
        · obtain rfl := Option.some.inj (at_k.symm.trans at_i)
          exact ⟨rear, left, List.getElem?_set_self (before.length.symm ▸ le)⟩
      · intro i rhs later at_i
        exact (List.getElem?_set_ne (Nat.ne_of_lt later)).trans
          (before.ahead i rhs (Nat.le_of_succ_le later) at_i)
      · intro q
        rw [List.take_succ_eq_append_getElem le, List.mem_append, List.mem_singleton]
        by_cases same : q = waiting[k]
        · simp [same]
        · simp only [Function.update_of_ne same, before.guards, same, or_false]
      · intro q member
        dsimp only
        by_cases same : q = waiting[k]
        · subst same
          rw [Function.update_self, size]
          exact before.items _ member
        · rw [Function.update_of_ne same]
          exact before.items q member
      · exact ⟨before.only.producers, before.only.consumers⟩

/-- When all of them wait nobody can go on. -/
theorem Reaching.halted (reaching : Reaching waiting target waiting.length s)
    (closed : ∀ rhs ∈ waiting, target rhs ∈ waiting) : Halted moved s := by
  intro a working
  cases a with
  | callAssign | callEnqueue | callDequeue => exact working.elim
  | assignment i =>
      simp only [step]
      cases at_i : s.assignments[i]? with
      | none => rfl
      | some call =>
          have bound := (List.getElem?_eq_some_iff.mp at_i).1
          rw [reaching.length] at bound
          obtain ⟨rear, left, waits⟩ := reaching.taken i waiting[i] bound
            (List.getElem?_eq_getElem bound)
          obtain rfl := Option.some.inj (at_i.symm.trans waits)
          have held : s.indexGuards (target waiting[i]) = true := by
            rw [reaching.guards, List.take_length]
            exact closed _ (List.getElem_mem bound)
          simp [assignmentStep, held]
  | producer p =>
      simp only [step]
      cases at_p : s.producers[p]? with
      | none => rfl
      | some call =>
          obtain ⟨q, pc⟩ := call
          obtain ⟨result, rfl⟩ := reaching.only.producers q pc (List.mem_of_getElem? at_p)
          rfl
  | consumer c => simp [step, reaching.only.consumers]

/-- Along a cycle of assignments there is a deadlock. -/
theorem exists_deadlock [Fintype ι] [Inhabited α] (moved : α → α) (small : ∀ q, capacity q < 2 ^ 31)
    (cycle : TransGen (Waits inUse capacity) q q) :
    ∃ actions s, Run (step moved) (InUse inUse) (create (α := α) capacity) actions s ∧
      Halted moved s ∧ ¬ Returned s := by
  classical
  choose! target inside waits using
    (LockOrder.closed_cycles : LockOrder.Closed (Waits inUse capacity) _)
  let waiting := (Finset.univ.filter fun q => TransGen (Waits inUse capacity) q q).toList
  have member : ∀ q, q ∈ waiting ↔ TransGen (Waits inUse capacity) q q := by
    intro q
    simp [waiting]
  have used : ∀ q ∈ waiting, Waits inUse capacity q (target q) :=
    fun q on => waits q ((member q).mp on)
  obtain ⟨first, called⟩ := run_to_locks moved used
  obtain ⟨second, s, filled, assignments, guards, only, items, _⟩ := run_to_items moved
    ((Sound.create inUse capacity).run small called) small (fun _ => rfl) ⟨nofun, rfl⟩
    fun q on => (used q on).2.2
  have sound := ((Sound.create inUse capacity).run small called).run small filled
  have reaching : Reaching waiting target 0 s := by
    refine ⟨?_, nofun, ?_, ?_, items, only⟩
    · rw [assignments]
      exact List.length_map ..
    · intro i rhs _ at_i
      rw [assignments]
      simp [atLock, at_i]
    · simp [guards, create]
  obtain ⟨third, t, taken, all⟩ := reaching.run moved (Finset.nodup_toList _) sound small
    (Nat.le_refl _)
  refine ⟨_, t, called.trans (filled.trans taken), all.halted fun q on =>
    (member _).mpr (inside q ((member q).mp on)), ?_⟩
  intro returned
  have on := (member q).mpr cycle
  obtain ⟨i, at_i⟩ := List.getElem?_of_mem on
  obtain ⟨rear, left, waits'⟩ := all.taken i q (List.getElem?_eq_some_iff.mp at_i).1 at_i
  obtain ⟨result, impossible⟩ := returned.assignments _ _ _ (List.mem_of_getElem? waits')
  cases impossible

end

/-- From every state that is reached the calls that are there come to an end if and
only if no cycle of assignments is in use. -/
theorem assignments_end_iff [Fintype ι] [Inhabited α] (moved : α → α) (inUse : ι → ι → Prop)
    (capacity : ι → Nat) (small : ∀ q, capacity q < 2 ^ 31) :
    (∀ actions s, Run (step moved) (InUse inUse) (create (α := α) capacity) actions s →
      Ends moved s) ↔ ∀ q, ¬ TransGen (Waits inUse capacity) q q := by
  constructor
  · intro ends q cycle
    obtain ⟨actions, s, run, halted, unfinished⟩ :=
      exists_deadlock moved small cycle
    obtain ⟨_, returns⟩ := ends actions s run
    exact unfinished ((returns [] s (.nil s)).2 halted)
  · intro acyclic actions s run
    have sound := (Sound.create inUse capacity).run small run
    refine ⟨s.togo capacity, ?_⟩
    intro later t working
    obtain ⟨sound', length⟩ := sound.working_run small working
    exact ⟨length, sound'.returned_of_halted small acyclic⟩

/-- Two queues that are assigned to each other, and two of which only one is assigned. -/
theorem assignments_end_iff_two :
    (¬ ∀ actions s, Run (step id) (InUse fun lhs rhs : Bool => lhs ≠ rhs)
      (create (α := Nat) fun _ => 1) actions s → Ends id s) ∧
    ∀ actions s, Run (step id) (InUse fun lhs rhs : Bool => lhs = true ∧ rhs = false)
      (create (α := Nat) fun _ => 1) actions s → Ends id s := by
  constructor
  · intro ends
    have acyclic := (assignments_end_iff id (fun lhs rhs : Bool => lhs ≠ rhs) (fun _ => 1)
      fun _ => by decide).mp ends
    exact acyclic true (.tail (.single ⟨by decide, by decide, by decide⟩ : TransGen _ true false)
      ⟨by decide, by decide, by decide⟩)
  · apply (assignments_end_iff id (fun lhs rhs : Bool => lhs = true ∧ rhs = false)
      (fun _ => 1) fun _ => by decide).mpr
    have ascends : ∀ a b, TransGen (Waits (fun lhs rhs : Bool => lhs = true ∧ rhs = false)
        fun _ => 1) a b → a = false ∧ b = true := by
      intro a b path
      induction path with
      | single next => exact ⟨next.1.2, next.1.1⟩
      | tail _ next before => exact ⟨before.1, next.1.1⟩
    intro q cycle
    obtain ⟨low, high⟩ := ascends q q cycle
    exact absurd (low.symm.trans high) Bool.noConfusion

end Queues
end Vee
