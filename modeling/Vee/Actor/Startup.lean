import Vee.Actor.Respawn

/-!
# The start of an actor

A constructor or a respawn returns as soon as its thread has sent `spawn`, and
only then does the thread store IDLE and set `_workable`. A request made in
between reads the flag too early and is refused. In one life of an actor, from
the start of its thread to the next kill, the requests that are refused are
exactly those that read the flag before the thread has stored it.
-/

namespace Vee

open SignalChannel Transition

variable {s t : System} {cur : Main} {holder : Holder} {total mailboxSize i k n : Nat}
variable {history actions : List Action} {spurious stale : Bool}

/-- One life of the actor: requests are made once the `k`-th spawn call has
returned true, and neither kill nor respawn is called. -/
def Life (k : Nat) (s : System) : Action → Prop
  | .callRequest => s.spawns[k]? = some (.returned true)
  | .callKill => False
  | .callRespawn => False
  | _ => True

/-- A thread of the actor is past its `_workable = true`. -/
def System.Serves (s : System) : Prop := ∃ pc ∈ s.mains, pc.serves

/-- Moreover a request reads `_workable` only once the thread has stored it,
unless the flag was set when the life began (`stale`), and does not count its
mail as the 2^32nd. -/
def Served (stale : Bool) (k : Nat) (s : System) : Action → Prop
  | .request i _ =>
      (s.requests[i]? = some .checkWorkable → stale = true ∨ s.Serves) ∧
        (s.requests[i]? = some .count → s.actor.mailboxCounter ≠ BitVec.allOnes 32)
  | action => Life k s action

/-- No request from the `n`-th on has returned -1. -/
def System.Accepts (n : Nat) (s : System) : Prop :=
  ∀ i pc, n ≤ i → s.requests[i]? = some pc → pc ≠ .returned (-1)

instance (k : Nat) (s : System) (a : Action) : Decidable (Life k s a) :=
  match a with
  | .callRequest => inferInstanceAs (Decidable (s.spawns[k]? = some (.returned true)))
  | .callKill | .callRespawn => inferInstanceAs (Decidable False)
  | .request _ _ | .kill _ _ | .spawn _ _ | .main _ _ => inferInstanceAs (Decidable True)

instance (s : System) : Decidable s.Serves :=
  inferInstanceAs (Decidable (∃ pc ∈ s.mains, pc.serves))

instance (stale : Bool) (k : Nat) (s : System) (a : Action) : Decidable (Served stale k s a) :=
  match a with
  | .request i _ => inferInstanceAs (Decidable
      ((s.requests[i]? = some .checkWorkable → stale = true ∨ s.Serves) ∧
        (s.requests[i]? = some .count → s.actor.mailboxCounter ≠ BitVec.allOnes 32)))
  | .callRequest => inferInstanceAs (Decidable (Life k s .callRequest))
  | .callKill => inferInstanceAs (Decidable (Life k s .callKill))
  | .callRespawn => inferInstanceAs (Decidable (Life k s .callRespawn))
  | .kill i spurious => inferInstanceAs (Decidable (Life k s (.kill i spurious)))
  | .spawn i spurious => inferInstanceAs (Decidable (Life k s (.spawn i spurious)))
  | .main i spurious => inferInstanceAs (Decidable (Life k s (.main i spurious)))

/-- The spawn call is past its exchange of DEAD by SPAWN and has not failed. -/
def Spawn.proceeds : Spawn → Bool
  | .start => true
  | .recvSpawn _ _ => true
  | .swap _ => true
  | .returned true => true
  | _ => false

/-- What one life keeps. -/
structure Living (k n : Nat) (stale : Bool) (s : System) (cur : Main) : Prop where
  kills : Pool.All (·.finished) s.kills
  spawns : ∃ pc, pc.proceeds ∧ Pool.Only (·.finished) k pc s.spawns
  owned : s.spawns[k]? = some (.returned true) → s.actor.thread.isSome
  flag : s.actor.workable = true ↔ stale = true ∨ cur.serves
  length : n ≤ s.requests.length
  earlier : ∀ i pc, i < n → s.requests[i]? = some pc → pc.finished
  accepts : s.Accepts n

theorem Served.life (s : System) (a : Action) (h : Served stale k s a) : Life k s a := by
  cases a with
  | request => trivial
  | _ => exact h

/-- Only the current thread can be past its store. -/
theorem Control.serves_iff (h : Control s cur holder) : s.Serves ↔ cur.serves := by
  constructor
  · rintro ⟨pc, mem, serves⟩
    obtain ⟨g, at_g⟩ := List.getElem?_of_mem mem
    have running : pc ≠ .ended := by
      rintro rfl
      cases serves
    obtain ⟨rfl, _⟩ := h.main_eq_cur at_g running
    exact serves
  · intro serves
    have running : cur ≠ .ended := by
      rintro rfl
      cases serves
    obtain ⟨g, at_g⟩ := h.exists_main running
    exact ⟨cur, List.mem_of_getElem? at_g, serves⟩

/-- Only a kill makes the thread exit. -/
theorem Phase.exits {a : Actor} {send : Send} (h : Phase a (.sendExitOk send) holder) :
    ∃ j q, holder = .kill j q ∧ q.finished = false := by
  cases h with
  | exiting => exact ⟨_, _, rfl, rfl⟩
  | ready _ _ listening | swapping _ _ listening => cases listening
  | activating _ _ _ listening | claimed _ _ _ listening | stopping _ _ _ listening =>
      cases listening
  | epoch _ _ _ point => exact point.elim
  | exited _ _ _ gone | dead _ _ _ gone | entering _ _ _ gone | greeted _ _ _ gone =>
      simp at gone

theorem Actor.requestStep_workable {a a' : Actor} {mail : Mail} {pc pc' : Request}
    (step : a.requestStep mail spurious pc = some (a', pc')) :
    a'.workable = a.workable ∧ a'.thread = a.thread := by
  cases pc with
  | sendActive send =>
      obtain ⟨sigch, rfl, _⟩ := trySendLoop_inv (Option.some.inj step)
      exact ⟨rfl, rfl⟩
  | enqueue | casProc =>
      simp only [requestStep] at step
      split at step <;> obtain ⟨rfl, rfl⟩ := Prod.mk.inj (Option.some.inj step) <;>
        exact ⟨rfl, rfl⟩
  | checkWorkable | checkDead | count =>
      obtain ⟨rfl, rfl⟩ := Prod.mk.inj (Option.some.inj step)
      exact ⟨rfl, rfl⟩
  | returned | threw => simp [requestStep] at step

/-- The flag is set by the step that lets the thread serve, and a serving thread
stops only to exit or by a fault. -/
theorem Actor.mainStep_serves {a a' : Actor} {pc pc' : Main}
    (step : a.mainStep spurious pc = some (a', pc')) :
    (a'.workable = true → a.workable = true ∨ pc'.serves) ∧ a'.thread = a.thread ∧
      (pc.serves → pc'.serves ∨ pc' = .sendExitOk .acquire ∨ ∃ fault, pc' = .threw fault) := by
  cases pc with
  | sendSpawn send | sendExitOk send =>
      obtain ⟨sigch, rfl, _⟩ := trySendLoop_inv (Option.some.inj step)
      exact ⟨.inl, rfl, by simp [Main.serves]⟩
  | recv wait =>
      obtain ⟨sigch, rfl, ⟨wait', rfl⟩ | ⟨value, rfl⟩ | ⟨fault, rfl⟩⟩ := recvCall_inv step
      · exact ⟨.inl, rfl, fun _ => .inl rfl⟩
      · refine ⟨.inl, rfl, fun _ => ?_⟩
        cases value with
        | active => exact .inl rfl
        | goExit => exact .inr (.inl rfl)
        | spawn | exitOk => exact .inr (.inr ⟨_, rfl⟩)
      · exact ⟨.inl, rfl, fun _ => .inr (.inr ⟨fault, rfl⟩)⟩
  | dequeue =>
      simp only [mainStep] at step
      split at step <;> obtain ⟨rfl, rfl⟩ := Prod.mk.inj (Option.some.inj step) <;>
        exact ⟨.inl, rfl, fun _ => .inl rfl⟩
  | casIdle =>
      simp only [mainStep] at step
      split at step <;> obtain ⟨rfl, rfl⟩ := Prod.mk.inj (Option.some.inj step)
      · exact ⟨.inl, rfl, fun _ => .inl rfl⟩
      · exact ⟨.inl, rfl, fun _ => .inr (.inr ⟨_, rfl⟩)⟩
  | checkSpawn =>
      simp only [mainStep] at step
      split at step <;> obtain ⟨rfl, rfl⟩ := Prod.mk.inj (Option.some.inj step) <;>
        exact ⟨.inl, rfl, by simp [Main.serves]⟩
  | uncount =>
      obtain ⟨rfl, rfl⟩ := Prod.mk.inj (Option.some.inj step)
      refine ⟨.inl, rfl, fun _ => .inl ?_⟩
      split <;> rfl
  | run | storeWorkable =>
      obtain ⟨rfl, rfl⟩ := Prod.mk.inj (Option.some.inj step)
      exact ⟨fun _ => .inr rfl, rfl, fun _ => .inl rfl⟩
  | storeLoaded | storeIdle | storeDead =>
      obtain ⟨rfl, rfl⟩ := Prod.mk.inj (Option.some.inj step)
      exact ⟨.inl, rfl, by simp [Main.serves]⟩
  | ended | threw => simp [mainStep] at step

/-- At most one spawn call is under way. -/
def OneSpawn (s : System) : Prop :=
  ∀ (i j : Nat) (pc pc' : Spawn), s.spawns[i]? = some pc → s.spawns[j]? = some pc' →
    pc.finished = false → pc'.finished = false → i = j

theorem OneSpawn.constructing (mailboxSize : Nat) :
    OneSpawn (System.constructing mailboxSize) := by
  intro i j pc pc' at_i at_j _ _
  have first := (List.getElem?_eq_some_iff.mp at_i).1
  have second := (List.getElem?_eq_some_iff.mp at_j).1
  simp only [System.constructing, List.length_singleton] at first second
  omega

theorem OneSpawn.step {action : Action} (h : OneSpawn s) (orderly : Orderly s action)
    (enabled : s.step action = some t) : OneSpawn t := by
  cases action with
  | callRequest | callKill =>
      obtain rfl := Option.some.inj enabled
      exact h
  | callRespawn =>
      obtain rfl := Option.some.inj enabled
      -- every call before the new one has returned
      have last : ∀ (i : Nat) pc, (s.spawns ++ [Spawn.casSpawn])[i]? = some pc →
          pc.finished = false → i = s.spawns.length := by
        intro i pc at_i unfinished
        have bound := (List.getElem?_eq_some_iff.mp at_i).1
        rw [List.length_append, List.length_singleton] at bound
        by_contra ne
        rw [List.getElem?_append_left (by omega)] at at_i
        simp [orderly.2.2.get at_i] at unfinished
      intro i j pc pc' at_i at_j active active'
      exact (last i pc at_i active).trans (last j pc' at_j active').symm
  | request | kill | main =>
      have same : t.spawns = s.spawns := by
        first
          | obtain ⟨_, _, _, _, _, rfl⟩ := System.step_request enabled; rfl
          | obtain ⟨_, _, _, _, _, rfl⟩ := System.step_kill enabled; rfl
          | obtain ⟨_, _, _, _, _, rfl⟩ := System.step_main enabled; rfl
      simpa only [OneSpawn, same] using h
  | spawn m spurious =>
      obtain ⟨pc, a', pc', at_m, taken, rfl⟩ := System.step_spawn enabled
      have unfinished : pc.finished = false := by
        cases pc <;> first | rfl | simp [Actor.spawnStep] at taken
      -- a call that is under way after the step was so before it
      have before : ∀ (i : Nat) q, (s.spawns.set m pc')[i]? = some q → q.finished = false →
          ∃ q', s.spawns[i]? = some q' ∧ q'.finished = false := by
        intro i q at_i active
        by_cases same : m = i
        · subst same
          exact ⟨pc, at_m, unfinished⟩
        · rw [List.getElem?_set_ne same] at at_i
          exact ⟨q, at_i, active⟩
      intro i j q q' at_i at_j active active'
      obtain ⟨p, at_p, first⟩ := before i q at_i active
      obtain ⟨p', at_p', second⟩ := before j q' at_j active'
      exact h i j p p' at_p at_p' first second

namespace Living

/-- A life begins when a spawn call is about to start its thread. -/
theorem start (h : Invariant s cur holder total) (one : OneSpawn s)
    (born : s.spawns[k]? = some .start) :
    Living k s.requests.length s.actor.workable s cur := by
  obtain rfl := h.control.holds.eq_spawn born (fun passive => passive)
  have calls := h.control.apart.resolve_left fun finished => by
    cases finished.get born
  have ended : cur = .ended := by
    cases h.control.phase
    rfl
  refine ⟨calls.2, ⟨.start, rfl, born, ?_⟩, ?_, ?_, Nat.le_refl _, ?_, ?_⟩
  · intro j pc at_j ne
    by_contra unfinished
    exact ne (one j k pc .start at_j born (Bool.not_eq_true _ ▸ unfinished) rfl)
  · intro returned
    rw [born] at returned
    cases returned
  · simp [ended, Main.serves]
  · intro i pc _ at_i
    exact calls.1.get at_i
  · intro i pc outside at_i
    have inside := (List.getElem?_eq_some_iff.mp at_i).1
    omega

/-- A spawn call that may take a step in this life is the one that began it. -/
theorem spawn_eq (living : Living k n stale s cur) {pc : Spawn} (at_i : s.spawns[i]? = some pc)
    (unfinished : pc.finished = false) : i = k ∧ pc.proceeds := by
  obtain ⟨q, proceeds, only⟩ := living.spawns
  obtain ⟨rfl, rfl⟩ := only.eq_of_not at_i (by simp [unfinished])
  exact ⟨rfl, proceeds⟩

theorem orderly (living : Living k n stale s cur) {action : Action} (life : Life k s action) :
    Orderly s action := by
  cases action with
  | callRequest =>
      obtain ⟨q, _, only⟩ := living.spawns
      obtain rfl := Option.some.inj (only.here.symm.trans life)
      exact only.all rfl
  | callKill | callRespawn => exact life.elim
  | spawn i spurious =>
      intro waiting _
      cases (living.spawn_eq waiting rfl).2
  | request | kill | main => trivial

/-- After the spawn call has returned the actor is not dead. -/
theorem not_dead (living : Living k n stale s cur) (h : Invariant s cur holder total)
    (spawns : Pool.All (·.finished) s.spawns) : s.actor.state ≠ .dead := by
  intro dead
  obtain ⟨_, thread, _⟩ := h.control.dead_of_state living.kills dead
  obtain ⟨q, proceeds, only⟩ := living.spawns
  have finished : q.finished := spawns.get only.here
  cases q with
  | returned result =>
      cases result with
      | true => simpa [thread] using living.owned only.here
      | false => cases proceeds
  | _ => cases finished

/-- A new request keeps the life. -/
theorem callRequest (living : Living k n stale s cur) :
    Living k n stale { s with requests := s.requests ++ [.checkWorkable] } cur := by
  have length := living.length
  refine ⟨living.kills, living.spawns, living.owned, living.flag, ?_, ?_, ?_⟩
  · rw [List.length_append]
    omega
  · intro i pc before at_i
    rw [List.getElem?_append_left (by omega)] at at_i
    exact living.earlier i pc before at_i
  · intro i pc after at_i
    rw [List.getElem?_append] at at_i
    split at at_i
    · exact living.accepts i pc after at_i
    · rw [List.mem_singleton.mp (List.mem_of_getElem? at_i)]
      simp

/-- A request step keeps the life. -/
theorem request (living : Living k n stale s cur) (h : Invariant s cur holder total)
    {pc pc' : Request} {a' : Actor} (at_i : s.requests[i]? = some pc)
    (admitted : Served stale k s (.request i spurious))
    (step : s.actor.requestStep i spurious pc = some (a', pc')) :
    Living k n stale { s with actor := a', requests := s.requests.set i pc' } cur := by
  have unfinished : pc.finished = false := by
    cases pc <;> first | rfl | simp [Actor.requestStep] at step
  have spawns := h.control.spawns_finished_of_request at_i unfinished
  obtain ⟨workable, thread⟩ := Actor.requestStep_workable step
  have bound := (List.getElem?_eq_some_iff.mp at_i).1
  have accepted : pc' ≠ .returned (-1) := by
    rintro rfl
    cases pc with
    | checkWorkable =>
        have set : s.actor.workable = true :=
          living.flag.mpr ((admitted.1 at_i).imp id h.control.serves_iff.mp)
        simp [Actor.requestStep, set] at step
    | checkDead => simp [Actor.requestStep, living.not_dead h spawns] at step
    | enqueue =>
        simp only [Actor.requestStep] at step
        split at step <;> simp at step
    | count =>
        have counter := admitted.2 at_i
        simp only [Actor.requestStep, Option.some.injEq, Prod.mk.injEq] at step
        split at step
        · cases step.2
        · refine counter (BitVec.eq_of_toInt_eq ?_)
          simpa using step.2
    | casProc =>
        simp only [Actor.requestStep] at step
        split at step <;> simp at step
    | sendActive send =>
        obtain ⟨_, _, ⟨_, same⟩ | same | ⟨_, same⟩⟩ :=
          Actor.trySendLoop_inv (Option.some.inj step) <;> cases same
    | returned | threw => simp [Actor.requestStep] at step
  refine ⟨living.kills, living.spawns, ?_, ?_, by simpa using living.length, ?_, ?_⟩
  · intro returned
    exact thread ▸ living.owned returned
  · rw [workable]
    exact living.flag
  · intro j q before at_j
    by_cases same : i = j
    · subst same
      simp [living.earlier i pc before at_i] at unfinished
    · rw [List.getElem?_set_ne same] at at_j
      exact living.earlier j q before at_j
  · intro j q after at_j
    by_cases same : i = j
    · subst same
      rw [List.getElem?_set_self bound] at at_j
      exact Option.some.inj at_j ▸ accepted
    · rw [List.getElem?_set_ne same] at at_j
      exact living.accepts j q after at_j

/-- A step of the spawn call keeps the life. -/
theorem spawn (living : Living k n stale s cur) {pc pc' : Spawn} {a' : Actor} {cur' : Main}
    (at_i : s.spawns[i]? = some pc)
    (point : cur' = cur ∧ pc ≠ .start ∨ cur = .ended ∧ cur' = .checkSpawn ∧ pc = .start)
    (safe : ∀ fault, pc' ≠ .threw fault)
    (step : s.actor.spawnStep s.mains.length spurious pc = some (a', pc')) :
    Living k n stale { s with
      actor := a'
      spawns := s.spawns.set i pc'
      mains := if pc = .start then s.mains ++ [.checkSpawn] else s.mains } cur' := by
  have unfinished : pc.finished = false := by
    cases pc <;> first | rfl | simp [Actor.spawnStep] at step
  obtain ⟨rfl, proceeds⟩ := living.spawn_eq at_i unfinished
  obtain ⟨q, _, only⟩ := living.spawns
  have bound := (List.getElem?_eq_some_iff.mp at_i).1
  have next : pc'.proceeds ∧ (pc' = .returned true → a'.thread.isSome) := by
    cases pc with
    | start =>
        obtain ⟨rfl, rfl⟩ := Prod.mk.inj (Option.some.inj step)
        exact ⟨rfl, by simp⟩
    | recvSpawn t ack =>
        obtain ⟨sigch, rfl, ⟨wait, rfl⟩ | ⟨value, rfl⟩ | ⟨fault, rfl⟩⟩ :=
          Actor.recvCall_inv step
        · exact ⟨rfl, by simp⟩
        · by_cases greeted : value = .spawn
          · simp [greeted, Spawn.proceeds]
          · simp [greeted] at safe
        · exact absurd rfl (safe fault)
    | swap t =>
        simp only [Actor.spawnStep] at step
        split at step <;> obtain ⟨rfl, rfl⟩ := Prod.mk.inj (Option.some.inj step)
        · exact ⟨rfl, fun _ => rfl⟩
        · exact absurd rfl (safe .terminate)
    | casSpawn | threw => cases proceeds
    | returned => cases unfinished
  refine ⟨living.kills, ⟨pc', next.1, only.set⟩, ?_, ?_, living.length, living.earlier,
    living.accepts⟩
  · intro returned
    rw [List.getElem?_set_self bound] at returned
    exact next.2 (Option.some.inj returned)
  · rw [Actor.spawnStep_workable step]
    obtain ⟨rfl, _⟩ | ⟨rfl, rfl, _⟩ := point
    · exact living.flag
    · exact living.flag

/-- A thread step keeps the life. -/
theorem main (living : Living k n stale s cur) (h : Invariant s cur holder total)
    {pc pc' : Main} {a' : Actor} (at_i : s.mains[i]? = some pc)
    (step : s.actor.mainStep spurious pc = some (a', pc')) :
    Living k n stale { s with actor := a', mains := s.mains.set i pc' } pc' := by
  obtain ⟨rfl, total', h'⟩ := h.main at_i step
  obtain ⟨kept, fresh⟩ := Actor.mainStep_workable step
  obtain ⟨sets, thread, stops⟩ := Actor.mainStep_serves step
  have noKill : ∀ j q, holder = .kill j q → q.finished = true := by
    rintro j q rfl
    exact living.kills.get h.control.holds.2.1.here
  -- without a kill the thread is not told to exit
  have goesOn : pc.serves → pc'.serves := by
    intro serves
    obtain on | rfl | ⟨fault, rfl⟩ := stops serves
    · exact on
    · obtain ⟨j, q, kill, active⟩ := h'.control.phase.exits
      simp [noKill j q kill] at active
    · have bound := (List.getElem?_eq_some_iff.mp at_i).1
      have here : (s.mains.set i (.threw fault))[i]? = some (.threw fault) :=
        List.getElem?_set_self bound
      exact absurd (List.mem_of_getElem? here) (h'.control.faultless.mains fault)
  refine ⟨living.kills, living.spawns, ?_, ?_, living.length, living.earlier, living.accepts⟩
  · intro returned
    exact thread ▸ living.owned returned
  · constructor
    · intro set
      obtain before | serves := sets set
      · exact (living.flag.mp before).imp id goesOn
      · exact .inr serves
    · intro reason
      have before : s.actor.workable = true → a'.workable = true := by
        obtain same | set := kept
        · exact fun flagged => same.trans flagged
        · exact fun _ => set
      obtain old | serves := reason
      · exact before (living.flag.mpr (.inl old))
      · obtain served | set := fresh serves
        · exact before (living.flag.mpr (.inr served))
        · exact set

/-- Every step that the condition admits keeps the life and the invariant. -/
theorem step (living : Living k n stale s cur) (h : Invariant s cur holder total)
    {action : Action} (admitted : Served stale k s action) (enabled : s.step action = some t) :
    ∃ cur' holder' total', Living k n stale t cur' ∧ Invariant t cur' holder' total' := by
  cases action with
  | callRequest =>
      have life : Life k s .callRequest := admitted
      have control := h.control.call (.inl rfl) (living.orderly life) enabled
      obtain rfl := Option.some.inj enabled
      exact ⟨cur, holder, total, living.callRequest,
        control, h.account.callRequest, h.history.callRequest⟩
  | callKill | callRespawn => exact admitted.elim
  | request i spurious =>
      obtain ⟨pc, a', pc', at_i, taken, rfl⟩ := System.step_request enabled
      obtain ⟨holder', total', h', _⟩ := h.request at_i taken
      exact ⟨cur, holder', total', living.request h at_i admitted taken, h'⟩
  | kill i spurious =>
      obtain ⟨pc, a', pc', at_i, taken, rfl⟩ := System.step_kill enabled
      have finished := living.kills.get at_i
      cases pc with
      | returned => simp [Actor.killStep] at taken
      | _ => cases finished
  | spawn i spurious =>
      obtain ⟨pc, a', pc', at_i, taken, rfl⟩ := System.step_spawn enabled
      have life : Life k s (.spawn i spurious) := admitted
      obtain ⟨cur', holder', h', _, point⟩ := h.spawn at_i (living.orderly life) taken
      refine ⟨cur', holder', total, living.spawn at_i point ?_ taken, h'⟩
      rintro fault rfl
      have bound := (List.getElem?_eq_some_iff.mp at_i).1
      have here : (s.spawns.set i (.threw fault))[i]? = some (.threw fault) :=
        List.getElem?_set_self bound
      exact h'.control.faultless.spawns fault (List.mem_of_getElem? here)
  | main i spurious =>
      obtain ⟨pc, a', pc', at_i, taken, rfl⟩ := System.step_main enabled
      obtain ⟨rfl, total', h'⟩ := h.main at_i taken
      exact ⟨pc', holder, total', living.main h at_i taken, h'⟩

/-- A request that reads the flag too early is refused by that step, and one that
fetches 2^32 - 1 returns it as -1. -/
theorem served_of_accepts (living : Living k n stale s cur) (h : Invariant s cur holder total)
    {action : Action} (life : Life k s action) (enabled : s.step action = some t)
    (accepts : t.Accepts n) : Served stale k s action := by
  cases action with
  | request i spurious =>
      obtain ⟨pc, a', pc', at_i, taken, rfl⟩ := System.step_request enabled
      have unfinished : pc.finished = false := by
        cases pc <;> first | rfl | simp [Actor.requestStep] at taken
      have bound := (List.getElem?_eq_some_iff.mp at_i).1
      have later : n ≤ i := by
        by_contra before
        simp [living.earlier i pc (by omega) at_i] at unfinished
      have accepted := accepts i pc' later (List.getElem?_set_self bound)
      constructor
      · intro reads
        obtain rfl := Option.some.inj (at_i.symm.trans reads)
        have set : s.actor.workable = true := by
          by_contra unset
          simp only [Actor.requestStep, unset] at taken
          exact accepted (Prod.mk.inj (Option.some.inj taken)).2.symm
        exact (living.flag.mp set).imp id h.control.serves_iff.mpr
      · rintro counts full
        obtain rfl := Option.some.inj (at_i.symm.trans counts)
        simp only [Actor.requestStep, full] at taken
        exact accepted (Prod.mk.inj (Option.some.inj taken)).2.symm
  | _ => exact life

end Living

/-- In one life of an actor no request returns -1 exactly if each of them reads
`_workable` after the thread has stored it. -/
theorem startup_accepts_iff_served
    (before : Run System.step Orderly (.constructing mailboxSize) history s)
    (born : s.spawns[k]? = some .start) (life : Run System.step (Life k) s actions t) :
    Throughout System.step (System.Accepts s.requests.length) s actions ↔
      Run System.step (Served s.actor.workable k) s actions t := by
  obtain ⟨cur, holder, total, h⟩ := Invariant.of_run before
  have one : OneSpawn s := before.invariant (OneSpawn.constructing mailboxSize)
    fun _ _ _ inside orderly enabled => inside.step orderly enabled
  refine life.throughout_iff_within
    (I := fun u => ∃ cur holder total,
      Living k s.requests.length s.actor.workable u cur ∧ Invariant u cur holder total)
    ⟨cur, holder, total, .start h one born, h⟩ ?_ ?_ ?_
  · rintro u ⟨_, _, _, living, _⟩
    exact living.accepts
  · rintro u action v ⟨_, _, _, living, h⟩ admitted enabled
    exact living.step h admitted enabled
  · rintro u action v ⟨_, _, _, living, h⟩ admitted enabled accepts
    exact living.served_of_accepts h admitted enabled accepts

/-- The constructor has returned; the thread has still to store IDLE and the flag. -/
def released : List Action :=
  [.spawn 0 false, .main 0 false, .main 0 false] ++ List.replicate 3 (.spawn 0 false) ++
    List.replicate 3 (.main 0 false) ++ List.replicate 4 (.spawn 0 false)

theorem startup_accepts_iff_served_released :
    Throughout System.step (System.Accepts 0) (.constructing 4)
      (released ++ [.main 0 false, .main 0 false, .callRequest, .request 0 false]) := by
  have served : Run System.step (Served false 0) (.constructing 4)
      (released ++ [.main 0 false, .main 0 false, .callRequest, .request 0 false]) _ :=
    Run.of_exec (by decide)
  have life := served.mono Served.life
  exact (startup_accepts_iff_served (.nil _) rfl life).mpr served

/-- The first request of a constructed actor reads the flag before the thread
has stored it. -/
theorem startup_refuses_request :
    ¬ ∀ mailboxSize history s k actions t,
      Run System.step Orderly (.constructing mailboxSize) history s →
        s.spawns[k]? = some .start → Run System.step (Life k) s actions t →
          t.Accepts s.requests.length := by
  intro accepts
  have life : Run System.step (Life 0) (.constructing 4)
      (released ++ [.callRequest, .request 0 false]) _ :=
    Run.of_exec (by decide)
  have accepted := accepts 4 [] _ 0 _ _ (.nil _) rfl life
  exact accepted 0 (.returned (-1)) (Nat.le_refl 0) (by decide) rfl

end Vee
