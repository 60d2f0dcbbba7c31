import Vee.Actor.Mailbox
import Vee.Actor.Rest

/-!
# Calls that never return

`request` and `kill` wait for IDLE in loops on exchanges, and after a kill the
actor never is IDLE again. A call hangs when it is past its checks at the moment
a kill succeeds, or when it is a kill that comes later, such as the destructor's
after an explicit one. In runs where a succeeding kill finds the other calls
finished or before their checks, and no kill begins on a dead actor, every call
that has begun can return.
-/

namespace Vee

open SignalChannel Transition

variable {s t : System} {cur : Main} {holder : Holder} {total mailboxSize i : Nat}
variable {actions : List Action} {spurious : Bool}

/-- The thread has accepted `go_exit` or has ended. -/
def Main.gone : Main → Bool
  | .sendExitOk _ => true
  | .storeDead => true
  | .ended => true
  | _ => false

/-- No call waits for IDLE in vain, and every call that has begun has a
continuation in which it returns. -/
structure System.NoneStuck (s : System) : Prop where
  spinning : s.actor.state = .dead → Pool.All (·.gone) s.mains →
    Request.casProc ∉ s.requests ∧ Kill.casDead ∉ s.kills
  request : ∀ (i : Nat) pc, s.requests[i]? = some pc → CanReach System.step NoRespawn
    (fun t => ∃ result, t.requests[i]? = some (.returned result)) s
  kill : ∀ (i : Nat) pc, s.kills[i]? = some pc → CanReach System.step NoRespawn
    (fun t => ∃ result, t.kills[i]? = some (.returned result)) s

/-- The call has seen the actor workable and not DEAD, and may come to wait for IDLE. -/
def Request.pastChecks : Request → Bool
  | .enqueue => true
  | .count => true
  | .casProc => true
  | _ => false

/-- Use without respawn in which a kill succeeds only while no request is past
its checks and no other kill is in progress, and no kill begins on a dead actor. -/
def UndisturbedKill (s : System) : Action → Prop
  | .callKill => Pool.All (·.finished) s.spawns ∧ s.actor.state ≠ .dead
  | .kill i _ => s.kills[i]? = some .casDead → s.actor.state = .idle →
      Pool.All (·.pastChecks = false) s.requests ∧
        ∀ j < s.kills.length, j ≠ i → s.kills[j]?.all (·.finished)
  | action => NoRespawn s action

instance (s : System) (a : Action) : Decidable (NoRespawn s a) :=
  match a with
  | .callRequest | .callKill => inferInstanceAs (Decidable (Pool.All (·.finished) s.spawns))
  | .callRespawn => inferInstanceAs (Decidable False)
  | .request _ _ | .kill _ _ | .spawn _ _ | .main _ _ => inferInstanceAs (Decidable True)

instance (s : System) (a : Action) : Decidable (UndisturbedKill s a) :=
  match a with
  | .callKill => inferInstanceAs
      (Decidable (Pool.All (·.finished) s.spawns ∧ s.actor.state ≠ .dead))
  | .kill i _ => inferInstanceAs (Decidable (s.kills[i]? = some .casDead →
      s.actor.state = .idle → Pool.All (·.pastChecks = false) s.requests ∧
        ∀ j < s.kills.length, j ≠ i → s.kills[j]?.all (·.finished)))
  | .callRequest => inferInstanceAs (Decidable (NoRespawn s .callRequest))
  | .callRespawn => inferInstanceAs (Decidable (NoRespawn s .callRespawn))
  | .request i spurious => inferInstanceAs (Decidable (NoRespawn s (.request i spurious)))
  | .spawn i spurious => inferInstanceAs (Decidable (NoRespawn s (.spawn i spurious)))
  | .main i spurious => inferInstanceAs (Decidable (NoRespawn s (.main i spurious)))

theorem UndisturbedKill.noRespawn (s : System) (a : Action) (h : UndisturbedKill s a) :
    NoRespawn s a := by
  cases a with
  | callKill => exact h.1
  | kill => trivial
  | _ => exact h

theorem Drives.noRespawn (s : System) (a : Action) (h : Drives s a) : NoRespawn s a := by
  cases a with
  | callRequest | callKill | callRespawn => exact h.elim
  | _ => trivial

/-- The call has yet to wait for IDLE, or is waiting. -/
def Kill.wants : Kill → Bool
  | .storeWorkable => true
  | .casDead => true
  | _ => false

/-- On a dead actor no call waits for IDLE or is going to. -/
structure System.NoneDoomed (s : System) : Prop where
  requests : s.actor.state = .dead → Pool.All (·.pastChecks = false) s.requests
  kills : s.actor.state = .dead → Pool.All (·.wants = false) s.kills

theorem Actor.requestStep_pastChecks {a a' : Actor} {pc pc' : Request}
    (step : a.requestStep i spurious pc = some (a', pc')) (dead : a.state = .dead)
    (outside : pc.pastChecks = false) : pc'.pastChecks = false := by
  cases pc with
  | checkWorkable =>
      obtain ⟨rfl, rfl⟩ := Prod.mk.inj (Option.some.inj step)
      split <;> rfl
  | checkDead =>
      obtain ⟨rfl, rfl⟩ := Prod.mk.inj (Option.some.inj step)
      rw [if_pos dead]
      rfl
  | sendActive send =>
      simp only [requestStep, trySendLoop, Option.some.injEq] at step
      split at step <;> obtain ⟨rfl, rfl⟩ := Prod.mk.inj step <;> rfl
  | enqueue | count | casProc => cases outside
  | returned | threw => simp [requestStep] at step

theorem Actor.killStep_wants {a a' : Actor} {pc pc' : Kill}
    (step : a.killStep spurious pc = some (a', pc'))
    (outside : pc.wants = false ∨ pc = .casDead ∧ a.state = .idle) : pc'.wants = false := by
  cases pc with
  | casDead =>
      obtain outside | ⟨_, idle⟩ := outside
      · cases outside
      · simp only [killStep, if_pos idle] at step
        obtain ⟨rfl, rfl⟩ := Prod.mk.inj (Option.some.inj step)
        rfl
  | storeWorkable => simp [Kill.wants] at outside
  | detach | sendGoExit | recvExitOk =>
      simp only [killStep, trySendLoop, recvCall] at step
      grind [Kill.wants]
  | returned | threw => simp [killStep] at step

/-- Every step of undisturbed use keeps a dead actor free of doomed calls. -/
theorem Invariant.noneDoomed_step {action : Action} (h : Invariant s cur holder total)
    (none : s.NoneDoomed) (admitted : UndisturbedKill s action)
    (enabled : s.step action = some t) : t.NoneDoomed := by
  cases action with
  | callRequest =>
      obtain rfl := Option.some.inj enabled
      exact ⟨fun dead => Pool.all_append_singleton.mpr ⟨none.requests dead, rfl⟩, none.kills⟩
  | callKill =>
      obtain rfl := Option.some.inj enabled
      exact ⟨none.requests, fun dead => absurd dead admitted.2⟩
  | callRespawn => exact admitted.elim
  | request i spurious =>
      obtain ⟨pc, a', pc', at_i, taken, rfl⟩ := System.step_request enabled
      have before : a'.state = .dead → s.actor.state = .dead := by
        intro dead
        obtain same | proc := Actor.requestStep_state taken
        · exact same.symm.trans dead
        · exact absurd (proc.symm.trans dead) (by decide)
      refine ⟨fun dead => ?_, fun dead => none.kills (before dead)⟩
      have outside := none.requests (before dead)
      exact outside.set (Actor.requestStep_pastChecks taken (before dead) (outside.get at_i))
  | kill i spurious =>
      obtain ⟨pc, a', pc', at_i, taken, rfl⟩ := System.step_kill enabled
      obtain same | ⟨rfl, idle, _⟩ := (Actor.killStep_frame taken).2
      · refine ⟨fun dead => none.requests (same.symm.trans dead), fun dead => ?_⟩
        have outside := none.kills (same.symm.trans dead)
        exact outside.set (Actor.killStep_wants taken (.inl (outside.get at_i)))
      · obtain ⟨requests, others⟩ := admitted at_i idle
        refine ⟨fun _ => requests, fun _ => ?_⟩
        intro q mem
        obtain ⟨j, at_j⟩ := List.getElem?_of_mem mem
        by_cases same : j = i
        · subst same
          have bound := (List.getElem?_eq_some_iff.mp at_i).1
          rw [List.getElem?_set_self bound] at at_j
          obtain rfl := Option.some.inj at_j
          exact Actor.killStep_wants taken (.inr ⟨rfl, idle⟩)
        · rw [List.getElem?_set_ne (Ne.symm same)] at at_j
          have finished := others j (List.getElem?_eq_some_iff.mp at_j).1 same
          rw [at_j] at finished
          cases q <;> first | rfl | cases finished
  | spawn i spurious =>
      obtain ⟨pc, a', pc', _, taken, rfl⟩ := System.step_spawn enabled
      have before : a'.state = .dead → s.actor.state = .dead := by
        intro dead
        obtain same | ⟨before, _⟩ := (Actor.spawnStep_frame taken).2
        · exact same.symm.trans dead
        · exact before
      exact ⟨fun dead => none.requests (before dead), fun dead => none.kills (before dead)⟩
  | main i spurious =>
      obtain ⟨pc, a', pc', at_i, taken, rfl⟩ := System.step_main enabled
      have before : a'.state = .dead → s.actor.state = .dead := by
        intro dead
        obtain before | rfl := (Actor.mainStep_frame taken).2 dead
        · exact before
        · obtain ⟨rfl, _⟩ := h.main at_i taken
          exact h.control.phase.dead_of_storeDead
      exact ⟨fun dead => none.requests (before dead), fun dead => none.kills (before dead)⟩

/-- Some continuation without respawn lets the `i`-th request return. -/
abbrev RequestReturns (i : Nat) : System → Prop :=
  CanReach System.step NoRespawn fun t => ∃ result, t.requests[i]? = some (.returned result)

abbrev KillReturns (i : Nat) : System → Prop :=
  CanReach System.step NoRespawn fun t => ∃ result, t.kills[i]? = some (.returned result)

theorem AtRest.passive (rest : AtRest s.actor cur holder) (holds : Holds s holder) :
    Pool.All Request.Passive s.requests ∧ Pool.All Kill.Passive s.kills := by
  obtain ⟨rfl, _⟩ := rest
  exact ⟨holds.1, holds.2.1⟩

namespace Invariant

/-- The actor can come to rest with all passive calls where they were. -/
theorem rests_alive (h : Invariant s cur holder total) (alive : s.actor.state ≠ .dead) :
    CanReach System.step NoRespawn (fun t => (∃ cur holder total, Invariant t cur holder total) ∧
      Settled s t ∧ t.actor.state = .idle) s := by
  obtain ⟨as, t, run, cur', holder', total', h', rest⟩ := h.comes_to_rest
  refine ⟨as, t, run.mono Drives.noRespawn, ⟨_, _, _, h'⟩, Drives.settled run, ?_⟩
  obtain ⟨idle, _⟩ | ⟨dead, _⟩ := rest.2
  · exact idle
  · exact absurd dead (Drives.not_dead run h alive)

/-- One step of the request itself, on the way to its return. -/
theorem request_after {pc pc' : Request} {a' : Actor} (h : Invariant s cur holder total)
    (at_i : s.requests[i]? = some pc)
    (taken : s.actor.requestStep i false pc = some (a', pc'))
    (rest : ∀ {t holder' total'}, Invariant t cur holder' total' → t.actor = a' →
      t.requests[i]? = some pc' → RequestReturns i t) : RequestReturns i s := by
  obtain ⟨holder', total', h', _⟩ := h.request at_i taken
  have bound := (List.getElem?_eq_some_iff.mp at_i).1
  refine .after (a := .request i false) trivial ?_ (rest h' rfl (List.getElem?_set_self bound))
  simp [System.step, at_i, taken]

theorem kill_after {pc pc' : Kill} {a' : Actor} (h : Invariant s cur holder total)
    (at_i : s.kills[i]? = some pc) (taken : s.actor.killStep false pc = some (a', pc'))
    (rest : ∀ {t holder'}, Invariant t cur holder' total → t.actor = a' →
      t.kills[i]? = some pc' → KillReturns i t) : KillReturns i s := by
  obtain ⟨holder', h', _⟩ := h.kill at_i taken
  have bound := (List.getElem?_eq_some_iff.mp at_i).1
  refine .after (a := .kill i false) trivial ?_ (rest h' rfl (List.getElem?_set_self bound))
  simp [System.step, at_i, taken]

/-- A request that holds the actor returns while the actor comes to rest. -/
theorem active_request_returns {pc : Request} (h : Invariant s cur holder total)
    (at_i : s.requests[i]? = some pc) (active : ¬ pc.Passive) : RequestReturns i s := by
  obtain ⟨as, t, run, cur', holder', total', h', rest⟩ := h.comes_to_rest
  have passive := (rest.passive h'.control.holds).1
  obtain ⟨pc', at_i', finished⟩ :=
    (Drives.settled run).requests.done_of_active passive at_i active
  refine ⟨as, t, run.mono Drives.noRespawn, ?_⟩
  cases pc' with
  | returned result => exact ⟨result, at_i'⟩
  | _ => cases finished

theorem active_kill_returns {pc : Kill} (h : Invariant s cur holder total)
    (at_i : s.kills[i]? = some pc) (active : ¬ pc.Passive) : KillReturns i s := by
  obtain ⟨as, t, run, cur', holder', total', h', rest⟩ := h.comes_to_rest
  have passive := (rest.passive h'.control.holds).2
  obtain ⟨pc', at_i', finished⟩ :=
    (Drives.settled run).kills.done_of_active passive at_i active
  refine ⟨as, t, run.mono Drives.noRespawn, ?_⟩
  cases pc' with
  | returned result => exact ⟨result, at_i'⟩
  | _ => cases finished

/-- Unless the actor is dead, a request that waits for IDLE gets it. -/
theorem casProc_returns (h : Invariant s cur holder total)
    (at_i : s.requests[i]? = some .casProc) (alive : s.actor.state ≠ .dead) :
    RequestReturns i s := by
  refine (h.rests_alive alive).andThen ?_
  rintro t ⟨⟨cur', holder', total', h'⟩, settled, idle⟩
  have at_i' := settled.requests.stays at_i trivial
  have taken : t.actor.requestStep i false .casProc =
      some ({ t.actor with state := .proc }, .sendActive .acquire) := by
    simp [Actor.requestStep, idle]
  refine h'.request_after at_i' taken ?_
  intro u _ _ h'' _ at_i''
  exact h''.active_request_returns at_i'' fun passive => passive

theorem count_returns (h : Invariant s cur holder total)
    (at_i : s.requests[i]? = some .count) (alive : s.actor.state ≠ .dead) :
    RequestReturns i s := by
  refine h.request_after at_i rfl ?_
  intro t _ _ h' actor at_i'
  by_cases zero : s.actor.mailboxCounter = 0
  · rw [if_pos zero] at at_i'
    refine h'.casProc_returns at_i' ?_
    rw [actor]
    exact alive
  · rw [if_neg zero] at at_i'
    exact .here ⟨_, at_i'⟩

theorem enqueue_returns (h : Invariant s cur holder total)
    (at_i : s.requests[i]? = some .enqueue) (alive : s.actor.state ≠ .dead) :
    RequestReturns i s := by
  by_cases full : s.actor.mailbox.length = s.actor.queueSize
  · refine h.request_after at_i (if_pos full) ?_
    intro t _ _ _ _ at_i'
    exact .here ⟨_, at_i'⟩
  · refine h.request_after at_i (if_neg full) ?_
    intro t _ _ h' actor at_i'
    refine h'.count_returns at_i' ?_
    rw [actor]
    exact alive

theorem checkDead_returns (h : Invariant s cur holder total)
    (at_i : s.requests[i]? = some .checkDead) : RequestReturns i s := by
  refine h.request_after at_i rfl ?_
  intro t _ _ h' actor at_i'
  by_cases dead : s.actor.state = .dead
  · rw [if_pos dead] at at_i'
    exact .here ⟨_, at_i'⟩
  · rw [if_neg dead] at at_i'
    exact h'.enqueue_returns at_i' (actor ▸ dead)

theorem checkWorkable_returns (h : Invariant s cur holder total)
    (at_i : s.requests[i]? = some .checkWorkable) : RequestReturns i s := by
  refine h.request_after at_i rfl ?_
  intro t _ _ h' _ at_i'
  cases workable : s.actor.workable with
  | true =>
      rw [if_pos workable] at at_i'
      exact h'.checkDead_returns at_i'
  | false =>
      rw [if_neg (by simp [workable])] at at_i'
      exact .here ⟨_, at_i'⟩

/-- A request that is not past its checks on a dead actor can return. -/
theorem request_returns {pc : Request} (h : Invariant s cur holder total)
    (at_i : s.requests[i]? = some pc)
    (undoomed : s.actor.state = .dead → pc.pastChecks = false) : RequestReturns i s := by
  have alive : pc.pastChecks = true → s.actor.state ≠ .dead := by
    intro past dead
    exact absurd ((undoomed dead).symm.trans past) (by decide)
  cases pc with
  | checkWorkable => exact h.checkWorkable_returns at_i
  | checkDead => exact h.checkDead_returns at_i
  | enqueue => exact h.enqueue_returns at_i (alive rfl)
  | count => exact h.count_returns at_i (alive rfl)
  | casProc => exact h.casProc_returns at_i (alive rfl)
  | sendActive | threw => exact h.active_request_returns at_i fun passive => passive
  | returned result => exact .here ⟨result, at_i⟩

/-- Unless the actor is dead, a kill that waits for IDLE gets it. -/
theorem casDead_returns (h : Invariant s cur holder total)
    (at_i : s.kills[i]? = some .casDead) (alive : s.actor.state ≠ .dead) : KillReturns i s := by
  refine (h.rests_alive alive).andThen ?_
  rintro t ⟨⟨cur', holder', total', h'⟩, settled, idle⟩
  have at_i' := settled.kills.stays at_i trivial
  have taken : t.actor.killStep false .casDead =
      some ({ t.actor with state := .dead }, .detach) := by
    simp [Actor.killStep, idle]
  refine h'.kill_after at_i' taken ?_
  intro u _ h'' _ at_i''
  exact h''.active_kill_returns at_i'' fun passive => passive

/-- A kill that does not begin on a dead actor can return. -/
theorem kill_can_return {pc : Kill} (h : Invariant s cur holder total)
    (at_i : s.kills[i]? = some pc) (undoomed : s.actor.state = .dead → pc.wants = false) :
    KillReturns i s := by
  have alive : pc.wants = true → s.actor.state ≠ .dead := by
    intro wants dead
    exact absurd ((undoomed dead).symm.trans wants) (by decide)
  cases pc with
  | storeWorkable =>
      refine h.kill_after at_i rfl ?_
      intro t _ h' actor at_i'
      refine h'.casDead_returns at_i' ?_
      rw [actor]
      exact alive rfl
  | casDead => exact h.casDead_returns at_i (alive rfl)
  | detach | sendGoExit | recvExitOk | threw =>
      exact h.active_kill_returns at_i fun passive => passive
  | returned result => exact .here ⟨result, at_i⟩

end Invariant

/-- In undisturbed use no call is ever stuck. -/
theorem undisturbed_kill_none_stuck
    (run : Run System.step UndisturbedKill (.constructing mailboxSize) actions s) :
    s.NoneStuck := by
  have invariant : ∀ {bs u}, Run System.step UndisturbedKill (.constructing mailboxSize) bs u →
      ∃ cur holder total, Invariant u cur holder total := by
    intro bs u before
    exact Invariant.of_run (NoRespawn.orderly (before.mono UndisturbedKill.noRespawn))
  have none : s.NoneDoomed := by
    refine run.invariant_along ⟨fun _ => Pool.all_nil, fun _ => Pool.all_nil⟩ ?_
    intro bs u a v before inside admitted enabled
    obtain ⟨cur, holder, total, h⟩ := invariant before
    exact h.noneDoomed_step inside admitted enabled
  obtain ⟨cur, holder, total, h⟩ := invariant run
  refine ⟨?_, ?_, ?_⟩
  · intro dead _
    constructor
    · intro mem
      cases none.requests dead _ mem
    · intro mem
      cases none.kills dead _ mem
  · intro i pc at_i
    exact h.request_returns at_i fun dead => (none.requests dead).get at_i
  · intro i pc at_i
    exact h.kill_can_return at_i fun dead => (none.kills dead).get at_i

/-- A request and a kill that both wait for IDLE. -/
def bothWaiting : List Action :=
  System.constructorActions ++ [.callRequest, .callKill] ++
    List.replicate 4 (.request 0 false) ++ [.kill 0 false]

theorem undisturbed_kill_none_stuck_waiting :
    ∃ s, Run System.step UndisturbedKill (.constructing 4) bothWaiting s ∧
      s.requests = [.casProc] ∧ s.kills = [.casDead] ∧ s.NoneStuck := by
  have run : Run System.step UndisturbedKill (.constructing 4) bothWaiting _ :=
    Run.of_exec (by decide)
  exact ⟨_, run, by decide, by decide, undisturbed_kill_none_stuck run⟩

/-- A complete kill, and the destructor's own kill after it. -/
def killedTwice : List Action :=
  System.constructorActions ++ List.replicate 3 (.main 0 false) ++ [.callKill] ++
    List.replicate 6 (.kill 0 false) ++ List.replicate 3 (.main 0 false) ++
    List.replicate 3 (.kill 0 false) ++ List.replicate 3 (.main 0 false) ++
    List.replicate 3 (.kill 0 false) ++ [.main 0 false, .callKill] ++
    List.replicate 2 (.kill 1 false)

theorem second_kill_is_stuck :
    ¬ ∀ mailboxSize actions s, Run System.step NoRespawn (.constructing mailboxSize) actions s →
      s.NoneStuck := by
  intro free
  have run : Run System.step NoRespawn (.constructing 4) killedTwice _ :=
    Run.of_exec (by decide)
  have waits := ((free _ _ _ run).spinning (by decide) (by decide)).2
  exact absurd waits (by decide)

end Vee
