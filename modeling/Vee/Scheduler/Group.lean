import Vee.Scheduler.Handover
import Vee.Transition.Basic

/-!
# Groups of actors

`actor_group` counts its actors a second time, in the atomic int `_size`. No
constructor initialises this member, so it counts on from what the memory of the
object held before. The vector of actors is what `at` goes by.
-/

namespace Vee

open Transition

/-- The calls that change the number of actors. -/
inductive GroupCall where
  | addActor (mailboxSize : Nat)
  | removeActor
  deriving DecidableEq, Repr

/-- How many of `n` actors there are after some calls; `none` if one of them is
to remove an actor where there is none. -/
def GroupCall.remaining : Nat → List GroupCall → Option Nat
  | n, [] => some n
  | n, .addActor _ :: calls => remaining (n + 1) calls
  | 0, .removeActor :: _ => none
  | n + 1, .removeActor :: calls => remaining n calls

namespace ActorGroup

variable {F A : Type}

/-- `remove_actor`: its result, and the group afterwards. `pop_back` of an empty
vector is undefined. -/
def removeActor (g : ActorGroup F A) : Option (Nat × ActorGroup F A) :=
  let ret := toInt32 (g.size - 1)
  if g.actorPointers.isEmpty then none
  else some (toSize ret, { actorPointers := g.actorPointers.dropLast, size := ret })

def capacity (g : ActorGroup F A) : Int := g.size

/-- The number that `capacity` returns is that of the actors, and `at` finds the
actors below it. -/
structure Counted (g : ActorGroup F A) : Prop where
  capacity_eq : g.capacity = g.actorPointers.length
  nonneg : 0 ≤ g.capacity
  at_iff : ∀ idx : Nat, (g.at idx).isSome ↔ (idx : Int) < g.capacity

/-- The count that started from the memory. -/
def Tallied (memory : BitVec 32) (g : ActorGroup F A) : Prop :=
  g.size = toInt32 (memory.toInt + g.actorPointers.length)

section

variable [Inhabited A]

/-- `std::make_shared<actor>(mailbox_size)` -/
def makeActor (mailboxSize : Nat) : ActorBox F A where
  queueSize := mailboxSize
  mailbox := .create mailboxSize false

/-- `add_actor`: its result, and the group afterwards. -/
def addActor (g : ActorGroup F A) (mailboxSize : Nat) : Nat × ActorGroup F A :=
  let ret := toInt32 (g.size + 1)
  (toSize ret, { actorPointers := g.actorPointers ++ [makeActor mailboxSize], size := ret })

/-- The constructor, in memory with the given content at the place of `_size`. -/
def create (memory : BitVec 32) (count mailboxSize : Nat) : ActorGroup F A :=
  (fun g => (g.addActor mailboxSize).2)^[count] { actorPointers := [], size := memory.toInt }

def step (g : ActorGroup F A) : GroupCall → Option (ActorGroup F A)
  | .addActor mailboxSize => some (g.addActor mailboxSize).2
  | .removeActor => g.removeActor.map (·.2)

end

variable {g g' : ActorGroup F A} {memory : BitVec 32} {count mailboxSize n : Nat}
  {calls : List GroupCall} {call : GroupCall}

theorem counted_iff : g.Counted ↔ g.size = g.actorPointers.length := by
  constructor
  · intro counted
    exact counted.capacity_eq
  · intro size
    refine ⟨size, ?_, ?_⟩
    · rw [capacity, size]
      omega
    · intro idx
      rw [capacity, size, ActorGroup.at, isSome_getElem?, Int.ofNat_lt]

theorem toInt32_toInt32_add (x y : Int) : toInt32 (toInt32 x + y) = toInt32 (x + y) :=
  Int.bmod_add_bmod

namespace Tallied

theorem addActor [Inhabited A] (h : Tallied memory g) (mailboxSize : Nat) :
    Tallied memory (g.addActor mailboxSize).2 := by
  simp only [Tallied, ActorGroup.addActor] at h ⊢
  rw [h, toInt32_toInt32_add, List.length_append, List.length_singleton, Int.natCast_add,
    Int.natCast_one, Int.add_assoc]

theorem removeActor {ret : Nat} (h : Tallied memory g)
    (removed : g.removeActor = some (ret, g')) :
    Tallied memory g' ∧ g.actorPointers.length = g'.actorPointers.length + 1 := by
  simp only [ActorGroup.removeActor] at removed
  split_ifs at removed with empty
  cases removed
  have length : g.actorPointers.length = g.actorPointers.dropLast.length + 1 := by
    have := List.length_pos_iff.mpr (mt List.isEmpty_iff.mpr empty)
    rw [List.length_dropLast]
    omega
  refine ⟨?_, length⟩
  simp only [Tallied] at h ⊢
  rw [h, Int.sub_eq_add_neg, toInt32_toInt32_add, length]
  congr 1
  omega

/-- The tally is the number of actors if it started from 0 and did not overflow. -/
theorem counted_iff (h : Tallied memory g) :
    g.Counted ↔ memory = 0 ∧ g.actorPointers.length < 2 ^ 31 := by
  rw [ActorGroup.counted_iff, h]
  have low := memory.le_toInt
  have high := memory.toInt_lt
  constructor
  · intro tally
    have zero : memory.toInt = 0 := by
      simp only [toInt32] at tally
      rw [Int.bmod_def] at tally
      omega
    refine ⟨BitVec.eq_of_toInt_eq (by rw [zero]; rfl), ?_⟩
    simp only [toInt32] at tally
    rw [Int.bmod_def] at tally
    omega
  · rintro ⟨rfl, bound⟩
    change toInt32 (0 + _) = _
    rw [Int.zero_add, toInt32_natCast bound]

end Tallied

section

variable [Inhabited A]

theorem create_succ (memory : BitVec 32) (count mailboxSize : Nat) :
    create (F := F) (A := A) memory (count + 1) mailboxSize =
      ((create memory count mailboxSize).addActor mailboxSize).2 :=
  Function.iterate_succ_apply' _ _ _

/-- The constructor makes as many actors as it is asked for. -/
theorem create_tallied (memory : BitVec 32) (count mailboxSize : Nat) :
    Tallied memory (create (F := F) (A := A) memory count mailboxSize) ∧
      (create (F := F) (A := A) memory count mailboxSize).actorPointers.length = count := by
  induction count with
  | zero =>
      refine ⟨?_, rfl⟩
      change memory.toInt = (memory.toInt + 0).bmod (2 ^ 32)
      rw [Int.add_zero, BitVec.toInt_bmod_cancel]
  | succ count ih =>
      obtain ⟨tallied, length⟩ := ih
      rw [create_succ]
      refine ⟨tallied.addActor mailboxSize, ?_⟩
      simp only [addActor]
      rw [List.length_append, length, List.length_singleton]

theorem makeActor_sound {moved : A → A} (bound : mailboxSize < 2 ^ 31) :
    (makeActor mailboxSize : ActorBox F A).Sound moved where
  queueSize_lt := bound
  mailbox := .create rfl mailboxSize
  mailboxCounter := Int.le_refl 0

/-- The actors of a new group are as a request expects them. -/
theorem create_sound {moved : A → A} (memory : BitVec 32) (count : Nat)
    (bound : mailboxSize < 2 ^ 31) :
    ∀ a ∈ (create (F := F) memory count mailboxSize).actorPointers, a.Sound moved := by
  induction count with
  | zero => exact nofun
  | succ count ih =>
      rw [create_succ]
      exact List.forall_mem_append.mpr ⟨ih, List.forall_mem_singleton.mpr (makeActor_sound bound)⟩

/-- A call keeps the tally and does to the number of actors what it says. -/
theorem Tallied.step (h : Tallied memory g) (enabled : g.step call = some g') :
    Tallied memory g' ∧ GroupCall.remaining g.actorPointers.length [call] =
      some g'.actorPointers.length := by
  cases call with
  | addActor mailboxSize =>
      cases enabled
      refine ⟨h.addActor mailboxSize, ?_⟩
      simp only [ActorGroup.addActor, GroupCall.remaining]
      rw [List.length_append, List.length_singleton]
  | removeActor =>
      obtain ⟨⟨ret, _⟩, removed, rfl⟩ := Option.map_eq_some_iff.mp enabled
      obtain ⟨tallied, length⟩ := h.removeActor removed
      refine ⟨tallied, ?_⟩
      rw [length]
      rfl

/-- Only a removal from an empty group has no outcome. -/
theorem step_isSome (g : ActorGroup F A) (call : GroupCall) :
    (g.step call).isSome = (GroupCall.remaining g.actorPointers.length [call]).isSome := by
  cases call with
  | addActor mailboxSize => rfl
  | removeActor =>
      simp only [ActorGroup.step, removeActor]
      cases g.actorPointers with
      | nil => rfl
      | cons a actors => rfl

end

end ActorGroup

theorem GroupCall.remaining_cons (n : Nat) (call : GroupCall) (calls : List GroupCall) :
    remaining n (call :: calls) = (remaining n [call]).bind (remaining · calls) := by
  cases call with
  | addActor mailboxSize => rfl
  | removeActor =>
      cases n with
      | zero => rfl
      | succ n => rfl

namespace ActorGroup

variable {F A : Type} [Inhabited A] {g g' : ActorGroup F A} {memory : BitVec 32}
  {calls : List GroupCall} {n : Nat}

/-- What a sequence of calls leads to. -/
theorem Tallied.run (h : Tallied memory g) (run : Run ActorGroup.step unguarded g calls g') :
    Tallied memory g' ∧
      GroupCall.remaining g.actorPointers.length calls = some g'.actorPointers.length := by
  induction run with
  | nil => exact ⟨h, rfl⟩
  | cons _ enabled _ ih =>
      obtain ⟨tallied, first⟩ := h.step enabled
      obtain ⟨tallied', rest⟩ := ih tallied
      refine ⟨tallied', ?_⟩
      rw [GroupCall.remaining_cons, first, Option.bind_some, rest]

/-- A sequence of calls that removes no actor where there is none has an outcome. -/
theorem Tallied.exists_run (h : Tallied memory g)
    (remaining : GroupCall.remaining g.actorPointers.length calls = some n) :
    ∃ g', Run ActorGroup.step unguarded g calls g' := by
  induction calls generalizing g with
  | nil => exact ⟨g, .nil g⟩
  | cons call calls ih =>
      rw [GroupCall.remaining_cons] at remaining
      obtain ⟨m, first, rest⟩ := Option.bind_eq_some_iff.mp remaining
      have some_step := step_isSome g call
      rw [first, Option.isSome_some, Option.isSome_iff_exists] at some_step
      obtain ⟨g₁, enabled⟩ := some_step
      obtain ⟨tallied, length⟩ := h.step enabled
      rw [first] at length
      cases length
      obtain ⟨g', run⟩ := ih tallied rest
      exact ⟨g', .cons trivial enabled run⟩

/-- The group is counted right after all calls exactly when its memory was zero,
no call removes an actor where there is none, and an int holds their number. -/
theorem counted_iff_zeroed (memory : BitVec 32) (count mailboxSize : Nat)
    (calls : List GroupCall) :
    (∃ g : ActorGroup F A, Run ActorGroup.step unguarded (create memory count mailboxSize) calls g ∧
      g.Counted) ↔
      memory = 0 ∧ ∃ n < 2 ^ 31, GroupCall.remaining count calls = some n := by
  obtain ⟨tallied, length⟩ := create_tallied (F := F) (A := A) memory count mailboxSize
  constructor
  · rintro ⟨g, run, counted⟩
    obtain ⟨tallied', remaining⟩ := tallied.run run
    rw [length] at remaining
    obtain ⟨zero, bound⟩ := tallied'.counted_iff.mp counted
    exact ⟨zero, _, bound, remaining⟩
  · rintro ⟨zero, n, bound, remaining⟩
    rw [← length] at remaining
    obtain ⟨g, run⟩ := tallied.exists_run remaining
    obtain ⟨tallied', same⟩ := tallied.run run
    rw [remaining] at same
    cases same
    exact ⟨g, run, tallied'.counted_iff.mpr ⟨zero, bound⟩⟩

/-- In memory that held 5, an empty group has the capacity 5. -/
theorem empty_group_has_capacity : ¬ ∀ memory count mailboxSize calls,
    ∃ g : ActorGroup Unit Unit,
      Run ActorGroup.step unguarded (create memory count mailboxSize) calls g ∧ g.Counted := by
  intro all
  obtain ⟨g, run, counted⟩ := all 5 0 1 []
  cases run
  have capacity_eq := counted.capacity_eq
  cases capacity_eq

end ActorGroup
end Vee
