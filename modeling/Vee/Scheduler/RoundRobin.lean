import Vee.Counter.Wrapping
import Vee.Scheduler.Group

/-!
# Picking actors in turn

`_get_current_actor_index` takes the remainder of a static counter modulo the
number of actors. The counter is an int that wraps after `2 ^ 32` picks, and it
is negative for the second half of them.
-/

namespace Vee
namespace Scheduler

variable {F A : Type} [Inhabited A] {moved : A → A}

/-- What the picks of a program find, one after the other: the counter, and a
group with always the same number of actors. -/
structure Picks (moments : Nat → Moment F moved) (capacity : Nat) : Prop where
  start : (moments 0).counter = 0
  next : ∀ p, (moments (p + 1)).counter = (moments p).counter + 1
  capacity_eq : ∀ p, (moments p).actorGroup.capacity = capacity
  capacity_lt : capacity < 2 ^ 31

/-- The counter is not negative after `p` picks, or divided by the capacity. -/
def Picked (capacity p : Nat) : Prop :=
  p % 2 ^ 32 < 2 ^ 31 ∨ capacity ∣ 2 ^ 32 - p % 2 ^ 32

namespace Picks

variable {moments : Nat → Moment F moved} {capacity p : Nat}

theorem counter_eq (picks : Picks moments capacity) (p : Nat) :
    (moments p).counter = BitVec.ofNat 32 p := by
  induction p with
  | zero => exact picks.start
  | succ p ih =>
      rw [picks.next, ih, BitVec.ofNat_add]
      rfl

/-- The index of a pick is the place that the counter picks. -/
theorem index_eq (picks : Picks moments capacity) (positive : 0 < capacity) (p : Nat) :
    getCurrentActorIndex (moments p) = WrappingCounter.place (2 ^ 31) capacity p := by
  have size : (moments p).actorGroup.size = capacity := picks.capacity_eq p
  have nonempty : ¬ (capacity : Int) = 0 := by omega
  rw [getCurrentActorIndex, size, if_neg nonempty, picks.counter_eq, BitVec.toInt_ofNat']
  rfl

theorem index_mem_iff (picks : Picks moments capacity) (positive : 0 < capacity) (p : Nat) :
    getCurrentActorIndex (moments p) ∈ Set.Ico (0 : Int) capacity ↔ Picked capacity p := by
  rw [picks.index_eq positive]
  exact WrappingCounter.place_mem_iff (by decide) positive

theorem index_nonneg_iff (picks : Picks moments capacity) (positive : 0 < capacity) (p : Nat) :
    0 ≤ getCurrentActorIndex (moments p) ↔ Picked capacity p := by
  have below := WrappingCounter.place_lt (2 ^ 31) p positive
  rw [← picks.index_mem_iff positive, picks.index_eq positive, Set.mem_Ico, and_iff_left below]

/-- The indices of consecutive picks are those of all actors when the counter does
not pass `2 ^ 31` between them, or only for the last one and the capacity divides it. -/
theorem indices_bijOn_iff (picks : Picks moments capacity) (positive : 0 < capacity) (p : Nat) :
    Set.BijOn (fun k => getCurrentActorIndex (moments (p + k))) (Set.Iio capacity)
        (Set.Ico (0 : Int) capacity) ↔
      capacity = 1 ∨ p % 2 ^ 32 + capacity ≤ 2 ^ 31 ∨
        p % 2 ^ 32 + capacity = 2 ^ 31 + 1 ∧ capacity ∣ 2 ^ 31 := by
  simp only [picks.index_eq positive]
  exact WrappingCounter.places_bijOn_iff positive (Nat.le_of_lt picks.capacity_lt)

end Picks

/-- Some attempt gets a negative index, and no actor has taken the job before. -/
def ComesToNothing (moments : List (Moment F moved)) : Prop :=
  ∃ earlier m later, moments = earlier ++ m :: later ∧
    (∀ n ∈ earlier, (currentActor n).any (·.takes) = false) ∧ getCurrentActorIndex m < 0

theorem comesToNothing_cons {m : Moment F moved} {later : List (Moment F moved)} :
    ComesToNothing (m :: later) ↔ getCurrentActorIndex m < 0 ∨
      (currentActor m).any (·.takes) = false ∧ ComesToNothing later := by
  constructor
  · rintro ⟨earlier, n, rest, same, before, negative⟩
    cases earlier with
    | nil =>
        cases same
        exact .inl negative
    | cons first earlier =>
        cases same
        obtain ⟨refused, before⟩ := List.forall_mem_cons.mp before
        exact .inr ⟨refused, earlier, n, rest, rfl, before, negative⟩
  · rintro (negative | ⟨refused, earlier, n, rest, rfl, before, negative⟩)
    · exact ⟨[], m, later, rfl, nofun, negative⟩
    · exact ⟨m :: earlier, n, rest, rfl, List.forall_mem_cons.mpr ⟨refused, before⟩, negative⟩

/-- When a call returns false. -/
theorem returns_false_iff {delegateCategory tupleCategory : ValueCategory}
    {moments : List (Moment F moved)} {e : Delegate F} {args : A} :
    (∃ log, requestWithArgstuple delegateCategory tupleCategory moments e args =
      some (false, log)) ↔ ComesToNothing moments := by
  induction moments generalizing e args with
  | nil =>
      refine iff_of_false ?_ ?_
      · rintro ⟨log, returned⟩
        cases returned
      · rintro ⟨earlier, m, later, none, _⟩
        cases earlier <;> cases none
  | cons m later ih =>
      rw [comesToNothing_cons]
      simp only [requestWithArgstuple]
      by_cases negative : getCurrentActorIndex m < 0
      · rw [if_pos negative]
        exact iff_of_true ⟨[], rfl⟩ (.inl negative)
      rw [if_neg negative, or_iff_right negative]
      cases found : currentActor m with
      | none =>
          simp only [Option.any_none, true_and]
          exact ih
      | some a =>
          have sound := currentActor_sound found
          simp only [Option.any_some]
          cases takes : a.takes with
          | true =>
              obtain ⟨a', answered, _⟩ :=
                ActorBox.request_takes delegateCategory tupleCategory sound takes e args
              have counter := sound.mailboxCounter
              simp [answered, counter]
          | false =>
              obtain ⟨answer, refused, answered⟩ :=
                ActorBox.request_refuses delegateCategory tupleCategory sound takes e args
              have refused' : ¬ answer ≥ 0 := Int.not_le.mpr refused
              generalize (if a.refusesFull then _ else _) = job at answered
              obtain ⟨e', args'⟩ := job
              have rest := @ih e' args'
              simp only [answered, if_neg refused', true_and, Option.map_eq_some_iff]
              rw [← rest]
              constructor
              · rintro ⟨log, ⟨result, log'⟩, returned, same⟩
                cases same
                exact ⟨log', returned⟩
              · rintro ⟨log, returned⟩
                exact ⟨_, _, returned, rfl⟩

theorem comesToNothing_map {moments : Nat → Moment F moved} {attempts : List Nat} :
    ComesToNothing (attempts.map moments) ↔ ∃ earlier p later, attempts = earlier ++ p :: later ∧
      (∀ q ∈ earlier, (currentActor (moments q)).any (·.takes) = false) ∧
      getCurrentActorIndex (moments p) < 0 := by
  constructor
  · rintro ⟨earlier, m, later, same, before, negative⟩
    obtain ⟨earlier, rest, rfl, rfl, tail⟩ := List.map_eq_append_iff.mp same
    obtain ⟨p, later, rfl, rfl, rfl⟩ := List.map_eq_cons_iff.mp tail
    exact ⟨earlier, p, later, rfl, List.forall_mem_map.mp before, negative⟩
  · rintro ⟨earlier, p, later, rfl, before, negative⟩
    refine ⟨earlier.map moments, moments p, later.map moments, ?_, List.forall_mem_map.mpr before,
      negative⟩
    rw [List.map_append, List.map_cons]

/-- When a pick is in range, when consecutive picks get to each actor once, and
when a call does not return false: all its attempts up to the one that hands the
job over get a pick in range. -/
theorem round_robin_iff {moments : Nat → Moment F moved} {capacity : Nat}
    (picks : Picks moments capacity) (positive : 0 < capacity) :
    (∀ p, getCurrentActorIndex (moments p) ∈ Set.Ico (0 : Int) capacity ↔ Picked capacity p) ∧
    (∀ p, Set.BijOn (fun k => getCurrentActorIndex (moments (p + k))) (Set.Iio capacity)
        (Set.Ico (0 : Int) capacity) ↔
      capacity = 1 ∨ p % 2 ^ 32 + capacity ≤ 2 ^ 31 ∨
        p % 2 ^ 32 + capacity = 2 ^ 31 + 1 ∧ capacity ∣ 2 ^ 31) ∧
    ∀ attempts delegateCategory tupleCategory e args,
      (∀ log, requestWithArgstuple delegateCategory tupleCategory (attempts.map moments) e args ≠
        some (false, log)) ↔
      ∀ earlier p later, attempts = earlier ++ p :: later →
        (∀ q ∈ earlier, (currentActor (moments q)).any (·.takes) = false) →
        Picked capacity p := by
  refine ⟨picks.index_mem_iff positive, picks.indices_bijOn_iff positive, ?_⟩
  intro attempts delegateCategory tupleCategory e args
  rw [← not_exists, returns_false_iff, comesToNothing_map]
  constructor
  · intro none earlier p later split before
    rw [← picks.index_nonneg_iff positive]
    apply Int.not_lt.mp
    intro negative
    exact none ⟨earlier, p, later, split, before, negative⟩
  · rintro all ⟨earlier, p, later, split, before, negative⟩
    have picked := all earlier p later split before
    rw [← picks.index_nonneg_iff positive] at picked
    exact absurd negative (Int.not_lt.mpr picked)

/-- Three idle actors, and the counter after `p` picks. -/
def threeIdle (p : Nat) : Moment Unit (id : Unit → Unit) where
  counter := BitVec.ofNat 32 p
  actorGroup := .create 0 3 1
  sound := ActorGroup.create_sound 0 3 (by decide)

theorem picks_threeIdle : Picks threeIdle 3 where
  start := rfl
  next p := by
    simp only [threeIdle]
    rw [BitVec.ofNat_add]
    rfl
  capacity_eq _ := rfl
  capacity_lt := by decide

theorem round_robin_iff_threeIdle :
    getCurrentActorIndex (threeIdle 4) ∈ Set.Ico (0 : Int) 3 ∧
      ¬ getCurrentActorIndex (threeIdle (2 ^ 31)) ∈ Set.Ico (0 : Int) 3 := by
  have in_range := (round_robin_iff picks_threeIdle (by decide)).1
  refine ⟨(in_range 4).mpr (.inl (by decide)), mt (in_range (2 ^ 31)).mp ?_⟩
  rw [Picked]
  decide

/-- The pick after `2 ^ 31` others is not an actor, and the call returns false. -/
theorem pick_is_negative :
    Picks threeIdle 3 ∧ getCurrentActorIndex (threeIdle (2 ^ 31)) = -2 ∧
      requestWithArgstuple .lvalue .lvalue [threeIdle (2 ^ 31)] {} () = some (false, []) := by
  have index : getCurrentActorIndex (threeIdle (2 ^ 31)) = -2 := by decide
  have negative : getCurrentActorIndex (threeIdle (2 ^ 31)) < 0 := by decide
  refine ⟨picks_threeIdle, index, ?_⟩
  simp only [requestWithArgstuple, if_pos negative]

end Scheduler
end Vee
