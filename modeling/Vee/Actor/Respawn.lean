import Vee.Actor.Mailbox
import Vee.Actor.Rest

/-!
# Rounds of kill and respawn

One caller alternates `kill` and `respawn`. A killed thread acknowledges before
its last store of DEAD, so a respawn may begin while that store is still to come
and lose its own SPAWN or LOADED to it. In runs where each respawn makes its
exchange only after the threads before it have ended, the rounds do not disturb
each other: the new thread finds SPAWN, and the actor becomes usable again and
stays so until the next kill.
-/

namespace Vee

open SignalChannel Transition

variable {s t : System} {cur : Main} {holder : Holder} {total mailboxSize i : Nat}
variable {actions : List Action} {spurious : Bool}

/-- One caller calls `kill` and `respawn` in turn, each after the call before it
has returned. The constructor counts as the first spawn. -/
def Alternating (s : System) : Action → Prop
  | .callRequest => False
  | .callKill => Pool.All (·.finished) s.kills ∧ Pool.All (·.finished) s.spawns ∧
      s.spawns.length = s.kills.length + 1
  | .callRespawn => Pool.All (·.finished) s.kills ∧ Pool.All (·.finished) s.spawns ∧
      s.spawns.length = s.kills.length
  | _ => True

/-- Moreover the exchange of DEAD by SPAWN finds all threads ended. -/
def AlternatingAfterExit (s : System) : Action → Prop
  | .spawn i _ => s.spawns[i]? = some .casSpawn → s.actor.state = .dead →
      Pool.All (· = .ended) s.mains
  | action => Alternating s action

instance (s : System) (a : Action) : Decidable (Alternating s a) :=
  match a with
  | .callRequest => inferInstanceAs (Decidable False)
  | .callKill => inferInstanceAs (Decidable (Pool.All (·.finished) s.kills ∧
      Pool.All (·.finished) s.spawns ∧ s.spawns.length = s.kills.length + 1))
  | .callRespawn => inferInstanceAs (Decidable (Pool.All (·.finished) s.kills ∧
      Pool.All (·.finished) s.spawns ∧ s.spawns.length = s.kills.length))
  | .request _ _ | .kill _ _ | .spawn _ _ | .main _ _ => inferInstanceAs (Decidable True)

instance (s : System) (a : Action) : Decidable (AlternatingAfterExit s a) :=
  match a with
  | .spawn i _ => inferInstanceAs (Decidable (s.spawns[i]? = some .casSpawn →
      s.actor.state = .dead → Pool.All (· = .ended) s.mains))
  | .callRequest => inferInstanceAs (Decidable (Alternating s .callRequest))
  | .callKill => inferInstanceAs (Decidable (Alternating s .callKill))
  | .callRespawn => inferInstanceAs (Decidable (Alternating s .callRespawn))
  | .request i spurious => inferInstanceAs (Decidable (Alternating s (.request i spurious)))
  | .kill i spurious => inferInstanceAs (Decidable (Alternating s (.kill i spurious)))
  | .main i spurious => inferInstanceAs (Decidable (Alternating s (.main i spurious)))

/-- The actor is idle and takes requests, and its thread waits for them. -/
structure System.Usable (s : System) : Prop where
  idle : s.actor.state = .idle
  workable : s.actor.workable = true
  waits : s.WaitsInRecv
  kills : Pool.All (·.finished) s.kills
  spawns : Pool.All (·.finished) s.spawns

/-- While a `_spawn` is about to start its thread all threads are earlier ones,
and afterwards all but the newest. -/
def System.Earlier (s : System) (g : Nat) : Prop :=
  Spawn.start ∈ s.spawns ∨ g + 1 < s.mains.length

structure System.Isolated (s : System) : Prop where
  /-- no step of an earlier thread changes the state word -/
  earlier : ∀ g spurious t, s.Earlier g → s.step (.main g spurious) = some t →
    t.actor.state = s.actor.state
  /-- the entry check of a new thread succeeds -/
  entry : Main.checkSpawn ∈ s.mains → s.actor.state = .spawn
  faultless : s.Faultless
  /-- after a respawn the actor can become usable -/
  reaches : s.spawns.length = s.kills.length + 1 →
    CanReach System.step Alternating System.Usable s
  /-- and stays so until the next kill -/
  stays : s.Usable → ∀ action t, Alternating s action → action ≠ .callKill →
    s.step action = some t → t.Usable

/-- The thread is past its `_workable = true`. -/
def Main.serves : Main → Bool
  | .recv _ => true
  | .dequeue => true
  | .run _ => true
  | .uncount => true
  | .casIdle => true
  | _ => false

/-- What the alternation of calls keeps. -/
structure Rounds (s : System) : Prop where
  requests : s.requests = []
  killed : s.spawns.length = s.kills.length → Pool.All (·.finished) s.spawns
  respawned : s.spawns.length = s.kills.length + 1 → Pool.All (·.finished) s.kills
  last : ∀ (i : Nat) pc, s.spawns[i]? = some pc → i + 1 < s.spawns.length → pc.finished
  dead : s.spawns.length = s.kills.length → Pool.All (·.finished) s.kills →
    s.actor.state = .dead
  waiting : s.spawns.length = s.kills.length + 1 → s.actor.state = .dead →
    Spawn.casSpawn ∈ s.spawns
  workable : Pool.All (·.finished) s.kills → ∀ pc ∈ s.mains, pc.serves → s.actor.workable = true

theorem AlternatingAfterExit.orderly {action : Action} (h : AlternatingAfterExit s action)
    (rounds : Rounds s) : Orderly s action := by
  cases action with
  | callRequest => exact h.elim
  | callKill => exact h.2.1
  | callRespawn =>
      refine ⟨?_, h.1, h.2.1⟩
      rw [rounds.requests]
      exact Pool.all_nil
  | spawn i spurious => exact h
  | request | kill | main => trivial

theorem Drives.alternatingAfterExit (s : System) (a : Action) (h : Drives s a) :
    AlternatingAfterExit s a := by
  cases a with
  | callRequest | callKill | callRespawn => exact h.elim
  | spawn i spurious => exact Drives.orderly s (.spawn i spurious) h
  | request | kill | main => trivial

theorem AlternatingAfterExit.alternating (s : System) (a : Action)
    (h : AlternatingAfterExit s a) : Alternating s a := by
  cases a with
  | spawn => trivial
  | _ => exact h

theorem Rounds.constructing (mailboxSize : Nat) : Rounds (System.constructing mailboxSize) where
  requests := rfl
  killed := by simp [System.constructing]
  respawned := fun _ => Pool.all_nil
  last := by
    intro i pc at_i before
    simp [System.constructing] at before
  dead := by simp [System.constructing]
  waiting := by simp [System.constructing]
  workable := by simp [System.constructing]

theorem Actor.spawnStep_workable {a a' : Actor} {fresh : Nat} {pc pc' : Spawn}
    (step : a.spawnStep fresh spurious pc = some (a', pc')) : a'.workable = a.workable := by
  cases pc with
  | recvSpawn t ack =>
      obtain ⟨sigch, rfl, _⟩ := recvCall_inv step
      rfl
  | _ =>
      simp only [spawnStep] at step
      grind

/-- A thread serves only after its store of `_workable`, and no thread step
resets the flag. -/
theorem Actor.mainStep_workable {a a' : Actor} {pc pc' : Main}
    (step : a.mainStep spurious pc = some (a', pc')) :
    (a'.workable = a.workable ∨ a'.workable = true) ∧
      (pc'.serves → pc.serves ∨ a'.workable = true) := by
  cases pc with
  | sendSpawn send | sendExitOk send =>
      simp only [mainStep, trySendLoop, Option.some.injEq] at step
      split at step <;> obtain ⟨rfl, rfl⟩ := Prod.mk.inj step <;> simp [Main.serves]
  | recv wait =>
      obtain ⟨sigch, rfl, _⟩ := recvCall_inv step
      exact ⟨.inl rfl, fun _ => .inl rfl⟩
  | dequeue =>
      simp only [mainStep] at step
      split at step <;> obtain ⟨rfl, rfl⟩ := Prod.mk.inj (Option.some.inj step) <;>
        simp [Main.serves]
  | checkSpawn | casIdle =>
      simp only [mainStep] at step
      split at step <;> obtain ⟨rfl, rfl⟩ := Prod.mk.inj (Option.some.inj step) <;>
        simp [Main.serves]
  | storeLoaded | storeIdle | storeWorkable | storeDead | run | uncount =>
      obtain ⟨rfl, rfl⟩ := Prod.mk.inj (Option.some.inj step)
      simp [Main.serves]
  | ended | threw => simp [mainStep] at step

namespace Rounds

/-- A step of a kill keeps the rounds. -/
theorem kill {pc pc' : Kill} {a' : Actor} (rounds : Rounds s) (h : Invariant s cur holder total)
    (at_i : s.kills[i]? = some pc) (step : s.actor.killStep spurious pc = some (a', pc')) :
    Rounds { s with actor := a', kills := s.kills.set i pc' } := by
  have unfinished : pc.finished = false := by
    cases pc <;> first | rfl | simp [Actor.killStep] at step
  have odd : s.spawns.length ≠ s.kills.length + 1 := by
    intro even
    simp [(rounds.respawned even).get at_i] at unfinished
  have bound := (List.getElem?_eq_some_iff.mp at_i).1
  -- only the step that returns leaves all kills finished
  have returns : Pool.All (·.finished) (s.kills.set i pc') →
      s.actor.state = .dead ∧ (cur = .storeDead ∨ cur = .ended) := by
    intro finished
    have done : pc'.finished := finished.get (List.getElem?_set_self bound)
    cases pc' with
    | returned result => exact h.kill_returns at_i step
    | _ => cases done
  refine ⟨rounds.requests, ?_, ?_, rounds.last, ?_, ?_, ?_⟩
  · intro lengths
    exact rounds.killed (by simpa using lengths)
  · intro lengths
    exact absurd (by simpa using lengths) odd
  · intro _ finished
    have dead := (returns finished).1
    obtain same | ⟨_, _, dead'⟩ := (Actor.killStep_frame step).2
    · exact same.trans dead
    · exact dead'
  · intro lengths
    exact absurd (by simpa using lengths) odd
  · intro finished q mem serves
    obtain ⟨g, at_g⟩ := List.getElem?_of_mem mem
    have running : q ≠ .ended := by
      rintro rfl
      cases serves
    obtain ⟨rfl, _⟩ := h.control.main_eq_cur at_g running
    obtain rfl | rfl := (returns finished).2 <;> cases serves

/-- A step of a spawn keeps the rounds. -/
theorem spawn {pc pc' : Spawn} {a' : Actor} (rounds : Rounds s)
    (at_i : s.spawns[i]? = some pc)
    (step : s.actor.spawnStep s.mains.length spurious pc = some (a', pc')) :
    Rounds { s with
      actor := a'
      spawns := s.spawns.set i pc'
      mains := if pc = .start then s.mains ++ [.checkSpawn] else s.mains } := by
  have unfinished : pc.finished = false := by
    cases pc <;> first | rfl | simp [Actor.spawnStep] at step
  have uneven : s.spawns.length ≠ s.kills.length := by
    intro lengths
    simp [(rounds.killed lengths).get at_i] at unfinished
  refine ⟨rounds.requests, ?_, ?_, ?_, ?_, ?_, ?_⟩
  · intro lengths
    exact absurd (by simpa using lengths) uneven
  · intro lengths
    exact rounds.respawned (by simpa using lengths)
  · intro j q at_j before
    have before' : j + 1 < s.spawns.length := by simpa using before
    by_cases same : i = j
    · subst same
      simp [rounds.last i pc at_i before'] at unfinished
    · rw [List.getElem?_set_ne same] at at_j
      exact rounds.last j q at_j before'
  · intro lengths
    exact absurd (by simpa using lengths) uneven
  · intro lengths dead
    obtain same | ⟨_, starting⟩ := (Actor.spawnStep_frame step).2
    · have before := same.symm.trans dead
      have mem := rounds.waiting (by simpa using lengths) before
      obtain ⟨k, at_k⟩ := List.getElem?_of_mem mem
      by_cases self : i = k
      · subst self
        obtain rfl := Option.some.inj (at_i.symm.trans at_k)
        simp only [Actor.spawnStep, if_pos before, Option.some.injEq, Prod.mk.injEq] at step
        obtain ⟨rfl, rfl⟩ := step
        cases dead
      · refine List.mem_of_getElem? (i := k) ?_
        rw [List.getElem?_set_ne self]
        exact at_k
    · exact absurd (starting.symm.trans dead) (by decide)
  · intro finished q mem serves
    rw [Actor.spawnStep_workable step]
    refine rounds.workable finished q ?_ serves
    change q ∈ ite _ _ _ at mem
    split at mem
    · obtain old | new := List.mem_append.mp mem
      · exact old
      · rw [List.mem_singleton.mp new] at serves
        cases serves
    · exact mem

/-- A step of a thread keeps the rounds. -/
theorem main {pc pc' : Main} {a' : Actor} (rounds : Rounds s) (h : Invariant s cur holder total)
    (at_i : s.mains[i]? = some pc) (step : s.actor.mainStep spurious pc = some (a', pc')) :
    Rounds { s with actor := a', mains := s.mains.set i pc' } := by
  obtain ⟨rfl, _⟩ := h.main at_i step
  refine ⟨rounds.requests, rounds.killed, rounds.respawned, rounds.last, ?_, ?_, ?_⟩
  · intro lengths finished
    have dead := rounds.dead lengths finished
    obtain ⟨rfl, _⟩ := h.control.dead_of_state finished dead
    cases h.control.phase with
    | dead _ _ _ gone =>
        obtain rfl | rfl := gone
        · simp only [Actor.mainStep, Option.some.injEq, Prod.mk.injEq] at step
          obtain ⟨rfl, rfl⟩ := step
          rfl
        · simp [Actor.mainStep] at step
    | activated state | epoch state => simp [dead] at state
    | ready state => exact absurd (state.symm.trans dead) (restState_ne_dead pc)
  · intro lengths dead
    refine rounds.waiting lengths ?_
    obtain before | rfl := (Actor.mainStep_frame step).2 dead
    · exact before
    · exact h.control.phase.dead_of_storeDead
  · intro finished q mem serves
    obtain ⟨flag, fresh⟩ := Actor.mainStep_workable step
    have kept : ∀ p ∈ s.mains, p.serves → a'.workable = true := by
      intro p old serves'
      obtain same | set := flag
      · exact same.trans (rounds.workable finished p old serves')
      · exact set
    obtain old | rfl := List.mem_or_eq_of_mem_set mem
    · exact kept q old serves
    · obtain before | set := fresh serves
      · exact kept pc (List.mem_of_getElem? at_i) before
      · exact set

/-- Every step of the guarded alternation keeps the rounds. -/
theorem step {action : Action} (rounds : Rounds s) (h : Invariant s cur holder total)
    (admitted : AlternatingAfterExit s action) (enabled : s.step action = some t) :
    Rounds t := by
  cases action with
  | callRequest => exact admitted.elim
  | callKill =>
      obtain rfl := Option.some.inj enabled
      obtain ⟨_, spawns, lengths⟩ := admitted
      have pending : ¬ Pool.All (·.finished) (s.kills ++ [.storeWorkable]) := by
        intro finished
        cases (Pool.all_append_singleton.mp finished).2
      refine ⟨rounds.requests, fun _ => spawns, ?_, rounds.last, ?_, ?_, ?_⟩
      · intro impossible
        simp only [List.length_append, List.length_singleton] at impossible
        omega
      · exact fun _ finished => absurd finished pending
      · intro impossible
        simp only [List.length_append, List.length_singleton] at impossible
        omega
      · exact fun finished => absurd finished pending
  | callRespawn =>
      obtain rfl := Option.some.inj enabled
      obtain ⟨kills, spawns, lengths⟩ := admitted
      refine ⟨rounds.requests, ?_, fun _ => kills, ?_, ?_, ?_, rounds.workable⟩
      · intro impossible
        simp only [List.length_append, List.length_singleton] at impossible
        omega
      · intro i pc at_i before
        simp only [List.length_append, List.length_singleton] at before
        rw [List.getElem?_append_left (by omega)] at at_i
        exact spawns.get at_i
      · intro impossible
        simp only [List.length_append, List.length_singleton] at impossible
        omega
      · exact fun _ _ => List.mem_append_right _ (List.mem_singleton.mpr rfl)
  | request i spurious =>
      obtain ⟨_, _, _, at_i, _⟩ := System.step_request enabled
      simp [rounds.requests] at at_i
  | kill i spurious =>
      obtain ⟨pc, a', pc', at_i, taken, rfl⟩ := System.step_kill enabled
      exact rounds.kill h at_i taken
  | spawn i spurious =>
      obtain ⟨pc, a', pc', at_i, taken, rfl⟩ := System.step_spawn enabled
      exact rounds.spawn at_i taken
  | main i spurious =>
      obtain ⟨pc, a', pc', at_i, taken, rfl⟩ := System.step_main enabled
      exact rounds.main h at_i taken

/-- Rounds and invariant together hold along every guarded run. -/
theorem of_run (run : Run System.step AlternatingAfterExit s actions t) (rounds : Rounds s)
    (h : ∃ cur holder total, Invariant s cur holder total) :
    Rounds t ∧ ∃ cur holder total, Invariant t cur holder total := by
  refine run.invariant (I := fun u => Rounds u ∧ ∃ cur holder total, Invariant u cur holder total)
    ⟨rounds, h⟩ ?_
  rintro u a v ⟨rounds, cur, holder, total, h⟩ admitted enabled
  exact ⟨rounds.step h admitted enabled, h.step (admitted.orderly rounds) enabled⟩

end Rounds
theorem SignalChannel.Link.unanswered {ch : SignalChannel Sigid} {pc : Recv Sigid}
    (link : Link ch pc none) : Unanswered ch pc := by
  cases link with
  | closed _ entering => obtain rfl | rfl := entering <;> trivial
  | opened => trivial
  | published _ _ empty => exact empty
  | answered _ _ _ inside => simp at inside

/-- An idle actor between two calls is ready for the next signal. -/
theorem Control.waits (h : Control s cur holder) (idle : s.actor.state = .idle)
    (spawns : Pool.All (·.finished) s.spawns) {pc : Recv Sigid} (waiting : cur = .recv pc) :
    Link s.actor.sigch pc none ∧ Main.recv pc ∈ s.mains := by
  subst waiting
  obtain ⟨_, _, _, listening⟩ := h.ready_of_idle spawns idle
  obtain ⟨g, at_g⟩ := h.exists_main (by simp)
  cases listening with
  | recv link => exact ⟨link, List.mem_of_getElem? at_g⟩

namespace Rounds

/-- Without a pending exchange the actor comes to rest usable. -/
theorem reaches_usable (rounds : Rounds s) (h : Invariant s cur holder total)
    (lengths : s.spawns.length = s.kills.length + 1) (alive : s.actor.state ≠ .dead)
    (none : Spawn.casSpawn ∉ s.spawns) :
    CanReach System.step AlternatingAfterExit System.Usable s := by
  obtain ⟨as, t, run, cur', holder', total', h', rest⟩ := h.comes_to_rest
  have settled := Drives.settled run
  have run' := run.mono Drives.alternatingAfterExit
  obtain ⟨rounds', _⟩ := of_run run' rounds ⟨_, _, _, h⟩
  have lengths' : t.spawns.length = t.kills.length + 1 := by
    rw [settled.spawns.length, settled.kills.length]
    exact lengths
  have kills := rounds'.respawned lengths'
  have spawns : Pool.All (·.finished) t.spawns := by
    refine settled.spawns.all_done ?_ ?_
    · have holds := h'.control.holds
      rw [rest.1] at holds
      exact holds.2.2
    · intro pc mem passive
      cases pc with
      | casSpawn => exact absurd mem none
      | returned => rfl
      | _ => exact passive.elim
  refine ⟨as, t, run', ?_⟩
  obtain ⟨idle, pc, waiting⟩ | ⟨dead, _⟩ := rest.2
  · obtain ⟨link, mem⟩ := h'.control.waits idle spawns waiting
    exact ⟨idle, rounds'.workable kills _ mem rfl, ⟨pc, mem, link.unanswered⟩, kills, spawns⟩
  · exact absurd dead (Drives.not_dead run h alive)

/-- Only the newest spawn call can be waiting for its exchange. -/
theorem casSpawn_set (rounds : Rounds s) (at_i : s.spawns[i]? = some .casSpawn) {pc' : Spawn}
    (moved : pc' ≠ .casSpawn) : Spawn.casSpawn ∉ s.spawns.set i pc' := by
  intro mem
  obtain ⟨j, at_j⟩ := List.getElem?_of_mem mem
  have bound := (List.getElem?_eq_some_iff.mp at_i).1
  by_cases same : i = j
  · subst same
    rw [List.getElem?_set_self bound] at at_j
    exact moved (Option.some.inj at_j)
  · rw [List.getElem?_set_ne same] at at_j
    have bound' := (List.getElem?_eq_some_iff.mp at_j).1
    have both : i + 1 < s.spawns.length ∨ j + 1 < s.spawns.length := by omega
    obtain before | before := both
    · cases rounds.last i _ at_i before
    · cases rounds.last j _ at_j before

/-- After a respawn has been called the actor can become usable. -/
theorem reaches (rounds : Rounds s) (h : Invariant s cur holder total)
    (lengths : s.spawns.length = s.kills.length + 1) :
    CanReach System.step AlternatingAfterExit System.Usable s := by
  by_cases pending : Spawn.casSpawn ∈ s.spawns
  · -- the exchange waits for the last thread to end
    obtain ⟨i, at_i⟩ := List.getElem?_of_mem pending
    obtain ⟨as, t, run, cur', holder', total', h', rest⟩ := h.comes_to_rest
    have settled := Drives.settled run
    have run' := run.mono Drives.alternatingAfterExit
    obtain ⟨rounds', _⟩ := of_run run' rounds ⟨_, _, _, h⟩
    have at_i' := settled.spawns.stays at_i trivial
    have admitted : AlternatingAfterExit t (.spawn i false) := by
      intro _ dead
      obtain ⟨idle, _⟩ | ⟨_, ended⟩ := rest.2
      · exact absurd (idle.symm.trans dead) (by decide)
      · rw [ended] at h'
        exact h'.control.mains_ended
    have exchange : ∃ a' pc', t.actor.spawnStep t.mains.length false .casSpawn = some (a', pc') ∧
        pc' ≠ .casSpawn ∧ a'.state ≠ .dead := by
      by_cases dead : t.actor.state = .dead
      · exact ⟨_, _, if_pos dead, by simp, by simp⟩
      · exact ⟨_, _, if_neg dead, by simp, dead⟩
    obtain ⟨a', pc', taken, moved, alive⟩ := exchange
    have enabled : t.step (.spawn i false) = some { t with
        actor := a', spawns := t.spawns.set i pc', mains := t.mains } := by
      simp [System.step, at_i', taken]
    obtain ⟨cur'', holder'', total'', h''⟩ := h'.step (admitted.orderly rounds') enabled
    have rounds'' := rounds'.step h' admitted enabled
    have lengths'' : (t.spawns.set i pc').length = t.kills.length + 1 := by
      rw [List.length_set, settled.spawns.length, settled.kills.length]
      exact lengths
    obtain ⟨bs, u, run'', usable⟩ :=
      rounds''.reaches_usable h'' lengths'' alive (rounds'.casSpawn_set at_i' moved)
    exact ⟨_, u, run'.trans (.cons admitted enabled run''), usable⟩
  · exact rounds.reaches_usable h lengths (fun dead => pending (rounds.waiting lengths dead))
      pending

/-- No step but the next kill makes a usable actor unusable. -/
theorem stays (rounds : Rounds s) (h : Invariant s cur holder total) (usable : s.Usable)
    {action : Action} (admitted : Alternating s action) (noKill : action ≠ .callKill)
    (enabled : s.step action = some t) : t.Usable := by
  cases action with
  | callRequest => exact admitted.elim
  | callKill => exact absurd rfl noKill
  | callRespawn =>
      have dead := rounds.dead admitted.2.2 usable.kills
      exact absurd (usable.idle.symm.trans dead) (by decide)
  | request i spurious =>
      obtain ⟨_, _, _, at_i, _⟩ := System.step_request enabled
      simp [rounds.requests] at at_i
  | kill i spurious =>
      obtain ⟨pc, _, _, at_i, taken, _⟩ := System.step_kill enabled
      have finished := usable.kills.get at_i
      cases pc with
      | returned => simp [Actor.killStep] at taken
      | _ => cases finished
  | spawn i spurious =>
      obtain ⟨pc, _, _, at_i, taken, _⟩ := System.step_spawn enabled
      have finished := usable.spawns.get at_i
      cases pc with
      | returned => simp [Actor.spawnStep] at taken
      | _ => cases finished
  | main i spurious =>
      obtain ⟨pc, a', pc', at_i, taken, rfl⟩ := System.step_main enabled
      obtain ⟨rfl, _⟩ := h.main at_i taken
      obtain ⟨wait, mem, _⟩ := usable.waits
      obtain ⟨g, at_g⟩ := List.getElem?_of_mem mem
      obtain ⟨waiting, _⟩ := h.control.main_eq_cur at_g (by simp)
      obtain ⟨link, _⟩ := h.control.waits usable.idle usable.spawns waiting.symm
      subst waiting
      obtain ⟨sigch, wait', rfl, rfl, link'⟩ := Actor.recvCall_link link taken
      have bound := (List.getElem?_eq_some_iff.mp at_i).1
      exact ⟨usable.idle, usable.workable,
        ⟨wait', List.mem_iff_getElem?.mpr ⟨i, List.getElem?_set_self bound⟩, link'.unanswered⟩,
        usable.kills, usable.spawns⟩

end Rounds

/-- When every respawn finds the earlier threads ended, the rounds are isolated. -/
theorem rounds_after_exit_isolated
    (run : Run System.step AlternatingAfterExit (.constructing mailboxSize) actions s) :
    s.Isolated := by
  obtain ⟨rounds, cur, holder, total, h⟩ :=
    Rounds.of_run run (.constructing mailboxSize) ⟨_, _, _, .constructing mailboxSize⟩
  refine ⟨?_, ?_, h.control.faultless, ?_, ?_⟩
  · intro g spurious t earlier enabled
    obtain ⟨pc, a', pc', at_g, taken, rfl⟩ := System.step_main enabled
    have running : pc ≠ .ended := by
      rintro rfl
      simp [Actor.mainStep] at taken
    obtain ⟨rfl, newest⟩ := h.control.main_eq_cur at_g running
    obtain starting | older := earlier
    · obtain ⟨i, at_i⟩ := List.getElem?_of_mem starting
      obtain rfl := h.control.holds.eq_spawn at_i fun passive => passive
      cases h.control.phase with
      | starting => exact absurd rfl running
    · omega
  · intro mem
    obtain ⟨g, at_g⟩ := List.getElem?_of_mem mem
    obtain ⟨rfl, _⟩ := h.control.main_eq_cur at_g (by simp)
    cases h.control.phase with
    | entering state => exact state
    | ready _ _ listening => cases listening
    | activating _ _ _ listening => cases listening
    | claimed _ _ _ listening => cases listening
    | stopping _ _ _ listening => cases listening
    | swapping _ _ listening => cases listening
    | epoch _ _ _ point => exact point.elim
    | exited _ _ _ gone => simp at gone
    | dead _ _ _ gone => simp at gone
    | greeted _ _ _ point => simp at point
  · intro lengths
    exact (rounds.reaches h lengths).mono_guard AlternatingAfterExit.alternating
  · intro usable action t admitted noKill enabled
    exact rounds.stays h usable admitted noKill enabled

/-- A kill that has returned while its thread is about to store DEAD. -/
def killedOnce : List Action :=
  System.constructorActions ++ List.replicate 3 (.main 0 false) ++ [.callKill] ++
    List.replicate 6 (.kill 0 false) ++ List.replicate 3 (.main 0 false) ++
    List.replicate 3 (.kill 0 false) ++ List.replicate 3 (.main 0 false) ++
    List.replicate 3 (.kill 0 false)

theorem rounds_after_exit_isolated_once :
    ∃ s, Run System.step AlternatingAfterExit (.constructing 4)
        (killedOnce ++ [.main 0 false, .callRespawn, .spawn 1 false, .spawn 1 false]) s ∧
      s.mains = [.ended, .checkSpawn] ∧ s.Isolated := by
  have run : Run System.step AlternatingAfterExit (.constructing 4)
      (killedOnce ++ [.main 0 false, .callRespawn, .spawn 1 false, .spawn 1 false]) _ :=
    Run.of_exec (by decide)
  exact ⟨_, run, by decide, rounds_after_exit_isolated run⟩

/-- The old thread stores DEAD over SPAWN, and the entry check of the new one fails. -/
theorem respawn_before_exit_fails :
    ¬ ∀ mailboxSize actions s,
      Run System.step Alternating (.constructing mailboxSize) actions s → s.Isolated := by
  intro isolated
  have run : Run System.step Alternating (.constructing 4)
      (killedOnce ++ [.callRespawn, .spawn 1 false, .spawn 1 false, .main 0 false,
        .main 1 false]) _ :=
    Run.of_exec (by decide)
  have noThrow := (isolated _ _ _ run).faultless.mains
    (.runtimeError "actor thread creation failure! actor state has wrong value.")
  exact absurd noThrow (by decide)

end Vee
