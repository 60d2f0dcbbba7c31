import Vee.Actor.Results
import Vee.Actor.Startup

/-!
# An actor that is never killed

Used by requests alone, an actor stays alive, and left to its own thread and to the
request that holds it, it comes to stand by: it is idle, takes requests, and its
thread waits for a signal. Every request that is under way then has a step of its own
that brings it nearer to its return. The mailbox is empty unless a request is between
its enqueue and the activation it owes, so a request is refused only while another
one has still to wake the actor up.
-/

namespace Vee

open SignalChannel Transition

variable {s t : System} {cur : Main} {holder : Holder} {total mailboxSize i : Nat}
variable {actions : List Action} {spurious : Bool} {pc : Request}

/-- What the steps of an actor keep that is used by requests alone. -/
structure Unkilled (s : System) : Prop where
  kills : s.kills = []
  alive : s.actor.state ≠ .dead
  workable : ∀ pc ∈ s.mains, pc.serves → s.actor.workable = true
  entered : Spawn.casSpawn ∉ s.spawns
  /-- the constructor -/
  single : s.spawns.length = 1

/-- The actor can be used, and no request holds it. -/
structure Standby (s : System) : Prop extends s.Usable where
  requests : Pool.All Request.Passive s.requests

theorem Drives.requestsOnly (s : System) (a : Action) (h : Drives s a) : RequestsOnly s a := by
  cases a with
  | callRequest | callKill | callRespawn => exact h.elim
  | request | kill | spawn | main => trivial

namespace Unkilled

theorem constructing (mailboxSize : Nat) : Unkilled (.constructing mailboxSize) where
  kills := rfl
  alive := by simp [System.constructing]
  workable := by simp [System.constructing]
  entered := by simp [System.constructing]
  single := rfl

/-- No step of its requests, of its constructor or of its thread kills it. -/
theorem step {action : Action} (h : Unkilled s) (invariant : Invariant s cur holder total)
    (admitted : RequestsOnly s action) (enabled : s.step action = some t) : Unkilled t := by
  cases action with
  | callRequest =>
      obtain rfl := Option.some.inj enabled
      exact ⟨h.kills, h.alive, h.workable, h.entered, h.single⟩
  | callKill | callRespawn => exact admitted.elim
  | request i spurious =>
      obtain ⟨_, a', _, _, taken, rfl⟩ := System.step_request enabled
      refine ⟨h.kills, ?_, ?_, h.entered, h.single⟩
      · obtain same | proc := Actor.requestStep_state taken
        · exact same ▸ h.alive
        · simp [proc]
      · change ∀ pc ∈ s.mains, pc.serves → a'.workable = true
        rw [(Actor.requestStep_workable taken).1]
        exact h.workable
  | kill i spurious =>
      obtain ⟨_, _, _, at_i, _⟩ := System.step_kill enabled
      simp [h.kills] at at_i
  | spawn i spurious =>
      obtain ⟨pc, a', pc', at_i, taken, rfl⟩ := System.step_spawn enabled
      refine ⟨h.kills, ?_, ?_, ?_, List.length_set.trans h.single⟩
      · obtain same | ⟨_, starting⟩ := (Actor.spawnStep_frame taken).2
        · exact same ▸ h.alive
        · simp [starting]
      · intro pc'' mem serves
        refine (Actor.spawnStep_workable taken).trans (h.workable pc'' ?_ serves)
        split at mem
        · obtain old | rfl := List.mem_append.mp mem |>.imp_right List.mem_singleton.mp
          · exact old
          · cases serves
        · exact mem
      · intro mem
        obtain old | rfl := List.mem_or_eq_of_mem_set mem
        · exact h.entered old
        · exact casSpawn_of_spawnStep taken rfl
  | main g spurious =>
      obtain ⟨pc, a', pc', at_g, taken, rfl⟩ := System.step_main enabled
      obtain ⟨flag, fresh⟩ := Actor.mainStep_workable taken
      have kept : s.actor.workable = true → a'.workable = true := by
        intro before
        obtain same | set := flag
        · exact same.trans before
        · exact set
      refine ⟨h.kills, ?_, ?_, h.entered, h.single⟩
      · intro dead
        obtain before | rfl := (Actor.mainStep_frame taken).2 dead
        · exact h.alive before
        · obtain ⟨rfl, _⟩ := invariant.main at_g taken
          exact h.alive invariant.control.phase.dead_of_storeDead
      · intro pc'' mem serves
        obtain old | rfl := List.mem_or_eq_of_mem_set mem
        · exact kept (h.workable pc'' old serves)
        · obtain before | set := fresh serves
          · exact kept (h.workable pc (List.mem_of_getElem? at_g) before)
          · exact set

/-- In every run of requests the actor stays alive. -/
theorem of_run (run : Run System.step RequestsOnly (.constructing mailboxSize) actions s) :
    Unkilled s ∧ ∃ cur holder total, Invariant s cur holder total := by
  refine ⟨?_, Invariant.of_run (NoRespawn.orderly (run.mono RequestsOnly.noRespawn))⟩
  refine run.invariant_along (constructing mailboxSize) ?_
  intro bs u a v before inside admitted enabled
  obtain ⟨_, _, _, h⟩ :=
    Invariant.of_run (NoRespawn.orderly (before.mono RequestsOnly.noRespawn))
  exact inside.step h admitted enabled

/-- Driving steps lead to an actor that stands by. -/
theorem comes_to_standby (h : Unkilled s) (invariant : Invariant s cur holder total) :
    CanReach System.step Drives Standby s := by
  obtain ⟨as, t, run, cur', holder', total', invariant', rest⟩ := invariant.comes_to_rest
  have h' : Unkilled t ∧ ∃ cur holder total, Invariant t cur holder total := by
    refine run.invariant (I := fun u => Unkilled u ∧
      ∃ cur holder total, Invariant u cur holder total) ⟨h, _, _, _, invariant⟩ ?_
    rintro u a v ⟨inside, cur, holder, total, within⟩ driving enabled
    exact ⟨inside.step within (Drives.requestsOnly u a driving) enabled,
      within.step (Drives.orderly u a driving) enabled⟩
  have holds := invariant'.control.holds
  rw [rest.1] at holds
  have spawns : Pool.All (·.finished) t.spawns := by
    intro pc mem
    have passive := holds.2.2 pc mem
    cases pc with
    | casSpawn => exact absurd mem h'.1.entered
    | returned => rfl
    | _ => exact passive.elim
  refine ⟨as, t, run, ?_⟩
  obtain ⟨idle, pc, waiting⟩ | ⟨dead, _⟩ := rest.2
  · obtain ⟨link, mem⟩ := invariant'.control.waits idle spawns waiting
    refine ⟨⟨idle, h'.1.workable _ mem rfl, ⟨pc, mem, link.unanswered⟩, ?_, spawns⟩, holds.1⟩
    rw [h'.1.kills]
    exact Pool.all_nil
  · exact absurd dead h'.1.alive

end Unkilled

/-- Steps of its own that a request has before it, when none is in vain. -/
def Request.togo : Request → Nat
  | .checkWorkable => 6
  | .checkDead => 5
  | .enqueue => 4
  | .count => 3
  | .casProc => 2
  | .sendActive _ => 1
  | .returned _ => 0
  | .threw _ => 0

/-- Between the enqueue and the activation of the actor. -/
def Request.owes (pc : Request) : Bool := pc.uncounted || pc.activates

namespace Standby

/-- The mailbox of an actor that stands by holds the mails of such requests. -/
theorem mailbox_eq_nil (h : Standby s) (invariant : Invariant s cur holder total)
    (settled : Pool.All (·.owes = false) s.requests) : s.actor.mailbox = [] := by
  have covered := invariant.account.covered
  have balance := invariant.account.balance
  have none_pending : pending s.requests = 0 := by
    refine List.countP_eq_zero.mpr fun pc mem => ?_
    rw [(Bool.or_eq_false_iff.mp (settled pc mem)).1]
    exact Bool.false_ne_true
  have none_waiting : waiting s.requests = 0 := by
    refine List.countP_eq_zero.mpr fun pc mem => ?_
    rw [(Bool.or_eq_false_iff.mp (settled pc mem)).2]
    exact Bool.false_ne_true
  have inactive : activation s.actor cur = 0 := by simp [activation, h.idle]
  rw [tickets, none_waiting, inactive] at covered
  rw [none_pending] at balance
  exact List.eq_nil_of_length_eq_zero (by omega)

/-- A request that is under way has a step towards its return, which is not a
refusal unless the mailbox is full. -/
theorem request_nearer (h : Standby s) (invariant : Invariant s cur holder total)
    (bounds : s.WithinBounds mailboxSize) (small : mailboxSize < 2 ^ 31)
    (at_i : s.requests[i]? = some pc) (under_way : pc.finished = false)
    (room : pc = .enqueue → s.actor.mailbox.length ≠ s.actor.queueSize) :
    ∃ a' pc', s.actor.requestStep i false pc = some (a', pc') ∧ pc'.togo < pc.togo ∧
      ∀ result, pc' = .returned result → 0 ≤ result := by
  have passive := h.requests.get at_i
  cases pc with
  | checkWorkable =>
      refine ⟨s.actor, .checkDead, ?_, by decide, fun _ returned => by cases returned⟩
      simp [Actor.requestStep, h.workable]
  | checkDead =>
      refine ⟨s.actor, .enqueue, ?_, by decide, fun _ returned => by cases returned⟩
      simp [Actor.requestStep, h.idle]
  | enqueue =>
      exact ⟨_, .count, if_neg (room rfl), by decide, fun _ returned => by cases returned⟩
  | count =>
      obtain ⟨nonneg, _⟩ := invariant.counter_bounds bounds at_i small
      refine ⟨_, _, rfl, ?_, ?_⟩
      · split
        · exact Nat.lt_succ_self 2
        · exact Nat.zero_lt_succ 2
      · intro result returned
        split at returned
        · cases returned
        · rw [← Request.returned.inj returned]
          exact nonneg
  | casProc =>
      refine ⟨{ s.actor with state := .proc }, .sendActive .acquire, ?_, by decide,
        fun _ returned => by cases returned⟩
      simp [Actor.requestStep, h.idle]
  | sendActive | threw => exact passive.elim
  | returned => cases under_way

end Standby
end Vee
