import Mathlib.Data.List.Nodup
import Vee.Actor.RingCalls

/-!
# The actor on its ring queue refines the actor on a list

Every step is one of the actor on a list, or leaves it as it is, and so is every run; what
holds of the one holds of the other. This is so as long as the accesses to the slots are
in turn. The guards that the calls adopt do not see to it; where they are not in turn, a
thread may run what it finds in a slot whose mail is still to come.
-/

namespace Vee

open SignalChannel Transition

namespace RingSystem

variable {s t : RingSystem} {a : Action} {mailboxSize i : Nat} {spurious : Bool}
variable {moved} {actions : List Action}

/-- Steps that leave the ring queue and the calls in it alone. -/
theorem Linked.outside {actor : Actor} {kills : List Kill} {spawns : List Spawn}
    (linked : Linked mailboxSize s) (size : actor.queueSize = s.actor.queueSize) :
    Linked mailboxSize { s with actor, kills, spawns } :=
  { linked with size := size.trans linked.size }

theorem Linked.callRequest (linked : Linked mailboxSize s) :
    Linked mailboxSize { s with requests := s.requests ++ [.own .checkWorkable] } :=
  { linked with
    enqueues := fun i p at_i =>
      linked.enqueues i p (Pool.getElem?_of_concat at_i RingRequest.noConfusion) }

theorem Linked.start (linked : Linked mailboxSize s) :
    Linked mailboxSize { s with mains := s.mains ++ [.own .checkSpawn] } :=
  { linked with
    dequeues := fun g c at_g =>
      linked.dequeues g c (Pool.getElem?_of_concat at_g RingMain.noConfusion)
    apart := fun g g' c at_g at_g' =>
      linked.apart g g' c (Pool.getElem?_of_concat at_g RingMain.noConfusion)
        (Pool.getElem?_of_concat at_g' RingMain.noConfusion)
    idle := by
      intro job member
      obtain old | new := List.mem_append.mp member
      · exact linked.idle job old
      · cases RingMain.own.inj (List.mem_singleton.mp new)
    atHand := by
      intro item member
      obtain old | new := List.mem_append.mp member
      · exact linked.atHand item old
      · cases List.mem_singleton.mp new }

theorem erase_step_kill (linked : Linked mailboxSize s)
    (stepped : s.step moved (.kill i spurious) = some t) :
    s.erase.step (.kill i spurious) = some t.erase ∧ Linked mailboxSize t := by
  obtain ⟨pc, actor, pc', at_i, taken, rfl⟩ := step_kill stepped
  refine ⟨?_, linked.outside (Actor.killStep_queueSize taken)⟩
  have erased : s.erase.actor.killStep spurious pc = some (actor.withMails
      s.erase.actor.mailbox s.erase.actor.accepted s.erase.actor.ran, pc') := by
    refine (Actor.killStep_withMails _ _ _ pc).trans ?_
    rw [taken]
    rfl
  have at_erased : s.erase.kills[i]? = some pc := at_i
  rw [System.kill_taken at_erased erased]
  rfl

theorem erase_step_spawn (linked : Linked mailboxSize s)
    (stepped : s.step moved (.spawn i spurious) = some t) :
    s.erase.step (.spawn i spurious) = some t.erase ∧ Linked mailboxSize t := by
  obtain ⟨pc, actor, pc', at_i, taken, rfl⟩ := step_spawn stepped
  have same := Actor.spawnStep_queueSize taken
  have erased : s.erase.actor.spawnStep s.erase.mains.length spurious pc = some (actor.withMails
      s.erase.actor.mailbox s.erase.actor.accepted s.erase.actor.ran, pc') := by
    refine (Actor.spawnStep_withMails _ _ _ _ pc).trans ?_
    rw [erase, List.length_map, taken]
    rfl
  have at_erased : s.erase.spawns[i]? = some pc := at_i
  rw [System.spawn_taken at_erased erased]
  by_cases starting : pc = .start
  · rw [if_pos starting, if_pos starting]
    refine ⟨?_, linked.start.outside same⟩
    simp only [erase, List.map_append, List.map_cons, List.map_nil]
    rfl
  · rw [if_neg starting, if_neg starting]
    exact ⟨rfl, linked.outside same⟩

/-- As long as the accesses are in turn, a step on the ring queue is a step on the list,
or leaves it alone. -/
theorem erase_step (linked : Linked mailboxSize s) (turn : s.AccessesInTurn a)
    (stepped : s.step moved a = some t) :
    (t.erase = s.erase ∨ s.erase.step a = some t.erase) ∧ Linked mailboxSize t := by
  cases a with
  | callRequest =>
      cases stepped
      refine ⟨.inr ?_, linked.callRequest⟩
      simp only [erase, List.map_append, List.map_cons, List.map_nil]
      rfl
  | callKill =>
      cases stepped
      exact ⟨.inr rfl, linked.outside rfl⟩
  | callRespawn =>
      cases stepped
      exact ⟨.inr rfl, linked.outside rfl⟩
  | request i spurious => exact erase_step_request linked turn stepped
  | kill i spurious =>
      obtain ⟨simulated, linked'⟩ := erase_step_kill linked stepped
      exact ⟨.inr simulated, linked'⟩
  | spawn i spurious =>
      obtain ⟨simulated, linked'⟩ := erase_step_spawn linked stepped
      exact ⟨.inr simulated, linked'⟩
  | main g spurious => exact erase_step_main linked turn stepped

theorem Linked.constructing (positive : 0 < mailboxSize) :
    Linked mailboxSize (RingSystem.constructing mailboxSize) where
  shared := .create positive
  size := rfl
  genuine := fun item none_yet => absurd none_yet List.not_mem_nil
  enqueues := fun i p nowhere => by cases nowhere
  dequeues := fun g c nowhere => by cases nowhere
  apart := fun g g' c nowhere => by cases nowhere
  idle := fun job => List.not_mem_nil
  atHand := fun item none_yet => absurd none_yet List.not_mem_nil
  ran := fun item none_yet => absurd none_yet List.not_mem_nil

/-- The run lemma: the same steps in the same order, without those that the list has no
counterpart of. -/
theorem erase_run {actions : List Action} (linked : Linked mailboxSize s)
    (run : Run (step moved) OrderlyInTurn s actions t) :
    (∃ as : List Action, as.Sublist actions ∧ Run System.step Orderly s.erase as t.erase) ∧
      Linked mailboxSize t := by
  induction run with
  | nil => exact ⟨⟨[], .slnil, .nil _⟩, linked⟩
  | @cons s a u actions t admitted stepped _ ih =>
      obtain ⟨simulated, linked'⟩ := erase_step linked admitted.1 stepped
      obtain ⟨⟨as, within, rest⟩, linked''⟩ := ih linked'
      refine ⟨?_, linked''⟩
      obtain same | taken := simulated
      · rw [same] at rest
        exact ⟨as, within.cons a, rest⟩
      · exact ⟨a :: as, within.cons_cons a, .cons admitted.2 taken rest⟩

/-- Nothing is lost of items that are all mails. -/
theorem some_mailOf {items : List (Option Mail)} (genuine : ∀ item ∈ items, item ≠ none) :
    (items.map mailOf).map some = items := by
  have same : ∀ item ∈ items, some (mailOf item) = id item := by
    intro item member
    obtain ⟨mail, rfl⟩ := Option.ne_none_iff_exists'.mp (genuine item member)
    rfl
  rw [List.map_map]
  exact (List.map_congr_left same).trans (List.map_id items)

theorem mem_mailOf {items : List (Option Mail)} (genuine : ∀ item ∈ items, item ≠ none)
    (mail : Mail) : mail ∈ items.map mailOf ↔ some mail ∈ items := by
  conv_rhs => rw [← some_mailOf genuine]
  exact (List.mem_map_of_injective fun _ _ => Option.some.inj).symm

/-- In every orderly run in which the accesses to the ring queue are in turn, the actor
takes the steps that it takes on a list, in the same order; the other steps of the calls
in the ring queue leave the list alone. So its threads run the first of the mails that
were put in the queue, in this order and each once, and a result tells whether its mail
was put there. -/
theorem ring_mailbox_refines
    (run : Run (step moved) OrderlyInTurn (.constructing mailboxSize) actions s)
    (positive : 0 < mailboxSize) (small : mailboxSize < 2 ^ 31) :
    (∃ as : List Action, as.Sublist actions ∧
      Run System.step Orderly (.constructing mailboxSize) as s.erase) ∧
    s.ran <+: s.accepted ∧ s.accepted.Nodup ∧ none ∉ s.accepted ∧
    ∀ (mail : Nat) result, s.requests[mail]? = some (.own (.returned result)) →
      (result = -1 ∨ result = -2) ∧ some mail ∉ s.accepted ∨
        0 ≤ result ∧ result ≤ mailboxSize ∧ some mail ∈ s.accepted := by
  obtain ⟨⟨as, within, listed⟩, linked⟩ := erase_run (.constructing positive) run
  obtain ⟨_, _, _, inside⟩ := Invariant.of_run listed
  obtain ⟨_, tells⟩ := request_result_tells listed small
  refine ⟨⟨as, within, listed⟩, ?_, ?_, fun member => linked.genuine none member rfl, ?_⟩
  · have served : s.ran.map mailOf <+: s.accepted.map mailOf := inside.history.ran_isPrefix
    rw [← some_mailOf linked.ran, ← some_mailOf linked.genuine]
    exact served.map some
  · exact List.Nodup.of_map mailOf inside.history.nodup
  · intro mail result returned
    have at_mail : s.erase.requests[mail]? = some (.returned result) :=
      erase_request_at returned
    have told := tells mail result at_mail
    rwa [show s.erase.actor.accepted = s.accepted.map mailOf from rfl,
      mem_mailOf linked.genuine] at told

/-- A mail that is put in the queue of an actor at rest, and run. -/
def served : List Action :=
  System.constructorActions ++ [.callRequest] ++ List.replicate 7 (.request 0 false) ++
    List.replicate 3 (.main 0 false) ++ List.replicate 3 (.request 0 false) ++
    List.replicate 9 (.main 0 false)

theorem ring_mailbox_refines_served :
    ∃ s, Run (step id) OrderlyInTurn (.constructing 1) served s ∧ s.ran = [some 0] ∧
      some 0 ∈ s.accepted := by
  obtain ⟨s, run, returned, ran⟩ : ∃ s, Run (step id) OrderlyInTurn (.constructing 1) served s ∧
      s.requests[0]? = some (.own (.returned 0)) ∧ s.ran = [some 0] :=
    ⟨_, Run.of_exec (by decide), by decide, by decide⟩
  obtain ⟨_, _, _, _, tells⟩ := ring_mailbox_refines run (by decide) (by decide)
  obtain ⟨impossible, _⟩ | ⟨_, _, known⟩ := tells 0 0 returned
  · omega
  · exact ⟨s, run, ran, known⟩

/-- A request that has its place in the queue but has not stored its mail there, while
another one wakes the thread up. -/
def unstored : List Action :=
  System.constructorActions ++ [.callRequest] ++ List.replicate 4 (.request 0 false) ++
    [.callRequest] ++ List.replicate 7 (.request 1 false) ++
    List.replicate 3 (.main 0 false) ++ List.replicate 3 (.request 1 false) ++
    List.replicate 7 (.main 0 false)

/-- Where the accesses are not in turn, the thread runs what the slot held before. -/
theorem stale_item_run : ¬ ∀ (mailboxSize : Nat) (actions : List Action) s, 0 < mailboxSize →
    Run (step id) (fun s a => Orderly s.erase a) (.constructing mailboxSize) actions s →
      s.ran <+: s.accepted := by
  intro all
  obtain ⟨s, run, ran, accepted⟩ : ∃ s,
      Run (step id) (fun s a => Orderly s.erase a) (.constructing 2) unstored s ∧
        s.ran = [none] ∧ s.accepted = [some 0, some 1] :=
    ⟨_, Run.of_exec (by decide), by decide, by decide⟩
  have first := all 2 unstored s (by decide) run
  rw [ran, accepted, List.cons_prefix_cons] at first
  cases first.1

end RingSystem
end Vee
