import Vee.Actor.Results
import Vee.Actor.Startup
import Vee.Actor.Stuck

/-!
# What is left of an actor after a kill

A kill returns once the thread has sent `exit_ok`. The thread has then one store
into the actor left to do, and nothing else of it or of any other call runs a
mail or uses the channel again; but this store may come after the kill has
returned, and the destructor does not wait for it.

Neither does `waiting_for_exit`. `_thread` owns the newest thread until a kill
detaches it, and until then the thread cannot end, so a call that finds the
thread joinable is not released by its end.
-/

namespace Vee

open SignalChannel Transition

variable {s t : System} {cur : Main} {holder : Holder} {total mailboxSize i : Nat}
variable {actions later : List Action} {spurious : Bool}

/-- The thread in the local object of `_spawn`. -/
def Spawn.fresh : Spawn → Option Nat
  | .recvSpawn t _ => some t
  | .swap t => some t
  | _ => none

/-- A step of an actor thread. -/
def Action.ofMain : Action → Bool
  | .main _ _ => true
  | _ => false

/-- Steps that are left to a thread that has sent `exit_ok`. -/
def Main.left : Main → Nat
  | .storeDead => 1
  | _ => 0

/-- The actor is dead, and nothing but the last store of its thread is to come. -/
structure Silent (s : System) (cur : Main) (holder : Holder) : Prop where
  nobody : holder = .nobody
  dead : s.actor.state = .dead
  thread : s.actor.thread = none
  closed : s.actor.sigch.Closed
  gone : cur = .storeDead ∨ cur = .ended
  spawns : Pool.All (· ≠ .casSpawn) s.spawns

/-- No respawn is ever called. -/
theorem NoRespawn.not_casSpawn
    (run : Run System.step NoRespawn (.constructing mailboxSize) actions s) :
    Pool.All (· ≠ .casSpawn) s.spawns := by
  refine run.invariant (I := fun s => Pool.All (· ≠ .casSpawn) s.spawns) ?_ ?_
  · simp [System.constructing, Pool.All]
  · intro s a t entered admitted enabled
    cases a with
    | callRespawn => exact admitted.elim
    | callRequest | callKill =>
        obtain rfl := Option.some.inj enabled
        exact entered
    | request i spurious =>
        obtain ⟨_, _, _, _, _, rfl⟩ := System.step_request enabled
        exact entered
    | kill i spurious =>
        obtain ⟨_, _, _, _, _, rfl⟩ := System.step_kill enabled
        exact entered
    | main i spurious =>
        obtain ⟨_, _, _, _, _, rfl⟩ := System.step_main enabled
        exact entered
    | spawn i spurious =>
        obtain ⟨_, _, _, _, taken, rfl⟩ := System.step_spawn enabled
        exact entered.set (casSpawn_of_spawnStep taken)

/-- What a request does to a dead actor that it has no claim on. -/
theorem Actor.requestStep_dead {a a' : Actor} {mail : Mail} {pc pc' : Request}
    (step : a.requestStep mail spurious pc = some (a', pc')) (passive : pc.Passive)
    (dead : a.state = .dead) : pc'.Passive ∧ a'.sigch = a.sigch ∧ a'.state = a.state ∧
      a'.thread = a.thread ∧ a'.ran = a.ran := by
  cases pc with
  | checkWorkable | checkDead | count =>
      obtain ⟨rfl, rfl⟩ := Prod.mk.inj (Option.some.inj step)
      exact ⟨by split <;> trivial, rfl, rfl, rfl, rfl⟩
  | enqueue =>
      simp only [requestStep] at step
      split at step <;> obtain ⟨rfl, rfl⟩ := Prod.mk.inj (Option.some.inj step)
      all_goals exact ⟨trivial, rfl, rfl, rfl, rfl⟩
  | casProc =>
      simp only [requestStep, dead, reduceCtorEq, if_false] at step
      obtain ⟨rfl, rfl⟩ := Prod.mk.inj (Option.some.inj step)
      exact ⟨trivial, rfl, rfl, rfl, rfl⟩
  | sendActive => exact passive.elim
  | returned => simp [requestStep] at step
  | threw => exact passive.elim

theorem Actor.killStep_dead {a a' : Actor} {pc pc' : Kill}
    (step : a.killStep spurious pc = some (a', pc')) (passive : pc.Passive)
    (dead : a.state = .dead) : pc'.Passive ∧ a'.sigch = a.sigch ∧ a'.state = a.state ∧
      a'.thread = a.thread := by
  cases pc with
  | storeWorkable =>
      obtain ⟨rfl, rfl⟩ := Prod.mk.inj (Option.some.inj step)
      exact ⟨trivial, rfl, rfl, rfl⟩
  | casDead =>
      simp only [killStep, dead, reduceCtorEq, if_false] at step
      obtain ⟨rfl, rfl⟩ := Prod.mk.inj (Option.some.inj step)
      exact ⟨trivial, rfl, rfl, rfl⟩
  | returned => simp [killStep] at step
  | _ => exact passive.elim

namespace Silent

/-- A dead actor that nobody holds is silent. -/
theorem of_control (h : Control s cur .nobody) (dead : s.actor.state = .dead)
    (spawns : Pool.All (· ≠ .casSpawn) s.spawns) : Silent s cur .nobody := by
  cases h.phase with
  | dead _ thread closed gone => exact ⟨rfl, dead, thread, closed, gone, spawns⟩
  | ready state => exact absurd (state.symm.trans dead) (restState_ne_dead cur)
  | activated state | epoch state => simp [dead] at state

theorem request {pc pc' : Request} {a' : Actor} (silent : Silent s cur holder)
    (h : Invariant s cur holder total) (at_i : s.requests[i]? = some pc)
    (step : s.actor.requestStep i spurious pc = some (a', pc')) :
    a'.ran = s.actor.ran ∧ ∃ total',
      Invariant { s with actor := a', requests := s.requests.set i pc' } cur holder total' ∧
      Silent { s with actor := a', requests := s.requests.set i pc' } cur holder := by
  obtain rfl := silent.nobody
  have passive : pc.Passive := h.control.holds.1.get at_i
  have unfinished : pc.finished = false := by
    cases pc <;> first | rfl | simp [Actor.requestStep] at step
  obtain ⟨passive', sigch, state, thread, ran⟩ :=
    Actor.requestStep_dead step passive silent.dead
  have notEpoch : s.actor.state = .idle → cur ≠ .casIdle := by
    intro idle
    simp [silent.dead] at idle
  obtain ⟨total', account⟩ := h.account.request at_i notEpoch step
  have control : Control { s with actor := a', requests := s.requests.set i pc' } cur .nobody :=
    ⟨.inl (h.control.spawns_finished_of_request at_i unfinished), h.control.current,
      h.control.holds.request at_i passive passive', h.control.phase.congr sigch state thread⟩
  exact ⟨ran, total', ⟨control, account, h.history.request at_i step⟩,
    of_control control (state.trans silent.dead) silent.spawns⟩

theorem kill {pc pc' : Kill} {a' : Actor} (silent : Silent s cur holder)
    (h : Invariant s cur holder total) (at_i : s.kills[i]? = some pc)
    (step : s.actor.killStep spurious pc = some (a', pc')) :
    Invariant { s with actor := a', kills := s.kills.set i pc' } cur holder total ∧
      Silent { s with actor := a', kills := s.kills.set i pc' } cur holder := by
  obtain rfl := silent.nobody
  have unfinished : pc.finished = false := by
    cases pc <;> first | rfl | simp [Actor.killStep] at step
  obtain ⟨passive', sigch, state, thread⟩ :=
    Actor.killStep_dead step (h.control.holds.2.1.get at_i) silent.dead
  have control : Control { s with actor := a', kills := s.kills.set i pc' } cur .nobody :=
    ⟨.inl (h.control.spawns_finished_of_kill at_i unfinished), h.control.current,
      h.control.holds.kill passive' (fun _ => Holder.noConfusion),
      h.control.phase.congr sigch state thread⟩
  exact ⟨⟨control, h.account.kill step, h.history.sameMails (Actor.killStep_frame step).1⟩,
    of_control control (state.trans silent.dead) silent.spawns⟩

/-- No step of a call or thread breaks the silence. A thread step is the store of
DEAD, after which no thread takes a step. -/
theorem step {action : Action} (silent : Silent s cur holder)
    (h : Invariant s cur holder total) (admitted : NoRespawn s action)
    (enabled : s.step action = some t) :
    t.actor.ran = s.actor.ran ∧ ∃ cur' total', Invariant t cur' holder total' ∧
      Silent t cur' holder ∧
      if action.ofMain then cur = .storeDead ∧ cur' = .ended else cur' = cur := by
  obtain ⟨nobody, dead, thread, closed, gone, spawns⟩ := silent
  cases action with
  | callRespawn => exact admitted.elim
  | callRequest =>
      have control := h.control.call (.inl rfl) admitted enabled
      obtain rfl := Option.some.inj enabled
      exact ⟨rfl, cur, total, ⟨control, h.account.callRequest, h.history.callRequest⟩,
        ⟨nobody, dead, thread, closed, gone, spawns⟩, rfl⟩
  | callKill =>
      have control := h.control.call (.inr (.inl rfl)) admitted enabled
      obtain rfl := Option.some.inj enabled
      exact ⟨rfl, cur, total, ⟨control, h.account, h.history⟩,
        ⟨nobody, dead, thread, closed, gone, spawns⟩, rfl⟩
  | request i spurious =>
      obtain ⟨pc, a', pc', at_i, taken, rfl⟩ := System.step_request enabled
      obtain ⟨ran, total', h', silent'⟩ :=
        Silent.request ⟨nobody, dead, thread, closed, gone, spawns⟩ h at_i taken
      exact ⟨ran, cur, total', h', silent', rfl⟩
  | kill i spurious =>
      obtain ⟨pc, a', pc', at_i, taken, rfl⟩ := System.step_kill enabled
      obtain ⟨h', silent'⟩ :=
        Silent.kill ⟨nobody, dead, thread, closed, gone, spawns⟩ h at_i taken
      exact ⟨(Actor.killStep_frame taken).1.ran, cur, total, h', silent', rfl⟩
  | spawn i spurious =>
      obtain ⟨pc, a', pc', at_i, taken, rfl⟩ := System.step_spawn enabled
      have passive : pc.Passive := by
        subst nobody
        exact h.control.holds.2.2.get at_i
      cases pc with
      | casSpawn => exact absurd rfl (spawns.get at_i)
      | returned => simp [Actor.spawnStep] at taken
      | _ => exact passive.elim
  | main i spurious =>
      obtain ⟨pc, a', pc', at_i, taken, rfl⟩ := System.step_main enabled
      obtain ⟨rfl, total', h'⟩ := h.main at_i taken
      obtain rfl | rfl := gone
      · obtain ⟨rfl, rfl⟩ := Prod.mk.inj (Option.some.inj taken)
        exact ⟨rfl, .ended, total', h', ⟨nobody, rfl, thread, closed, .inr rfl, spawns⟩, rfl, rfl⟩
      · simp [Actor.mainStep] at taken

/-- A silent actor stays silent, and its threads take no more steps than are left. -/
theorem run (silent : Silent s cur holder) (h : Invariant s cur holder total)
    (run : Run System.step NoRespawn s later t) :
    t.actor.ran = s.actor.ran ∧ ∃ cur' total', Invariant t cur' holder total' ∧
      Silent t cur' holder ∧ later.countP (·.ofMain) + cur'.left = cur.left := by
  induction run generalizing cur total with
  | nil => exact ⟨rfl, cur, total, h, silent, Nat.zero_add _⟩
  | @cons s a u later t admitted enabled _ ih =>
      obtain ⟨ran, cur₁, total₁, h₁, silent₁, moved⟩ := silent.step h admitted enabled
      obtain ⟨ran', cur', total', h', silent', count⟩ := ih silent₁ h₁
      refine ⟨ran'.trans ran, cur', total', h', silent', ?_⟩
      rw [List.countP_cons]
      split_ifs at moved ⊢ with ofMain
      · obtain ⟨rfl, rfl⟩ := moved
        simp only [Main.left] at count ⊢
        omega
      · rw [← moved]
        exact count

end Silent

/-- The kill that returns leaves a silent actor. -/
theorem Invariant.silent_of_kill {pc : Kill} {result : Bool} {a' : Actor}
    (h : Invariant s cur holder total) (spawns : Pool.All (· ≠ .casSpawn) s.spawns)
    (at_i : s.kills[i]? = some pc)
    (step : s.actor.killStep spurious pc = some (a', .returned result)) :
    ∃ holder', Invariant { s with actor := a', kills := s.kills.set i (.returned result) }
        cur holder' total ∧
      Silent { s with actor := a', kills := s.kills.set i (.returned result) } cur holder' := by
  obtain ⟨dead, _⟩ := h.kill_returns at_i step
  have active : ¬ pc.Passive := by
    intro passive
    cases pc with
    | storeWorkable | returned => simp [Actor.killStep] at step
    | casDead => simp [Actor.killStep, dead] at step
    | _ => exact passive.elim
  obtain ⟨holder', h', held⟩ := h.kill at_i step
  obtain rfl := held active
  refine ⟨_, h', .of_control h'.control ?_ spawns⟩
  obtain same | ⟨rfl, _⟩ := (Actor.killStep_frame step).2
  · exact same.trans dead
  · exact absurd trivial active

/-- Once a kill has returned the actor is silent. -/
theorem silent_of_returned {result : Bool}
    (run : Run System.step NoRespawn (.constructing mailboxSize) actions s)
    (returned : s.kills[i]? = some (.returned result)) :
    ∃ cur holder total, Invariant s cur holder total ∧ Silent s cur holder := by
  suffices kept : ∃ cur holder total, Invariant s cur holder total ∧
      ((∃ pc ∈ s.kills, pc.finished) → Silent s cur holder) by
    obtain ⟨cur, holder, total, h, silent⟩ := kept
    exact ⟨cur, holder, total, h, silent ⟨_, List.mem_of_getElem? returned, rfl⟩⟩
  refine run.invariant_along (I := fun s => ∃ cur holder total, Invariant s cur holder total ∧
    ((∃ pc ∈ s.kills, pc.finished) → Silent s cur holder))
    ⟨_, _, _, .constructing mailboxSize, nofun⟩ ?_
  rintro bs u a v before ⟨cur, holder, total, h, silent⟩ admitted enabled
  by_cases already : ∃ pc ∈ u.kills, pc.finished
  · obtain ⟨_, cur', total', h', silent', _⟩ := (silent already).step h admitted enabled
    exact ⟨cur', holder, total', h', fun _ => silent'⟩
  -- no kill has returned before this step
  have spawns := NoRespawn.not_casSpawn before
  have orderly : Orderly u a := by
    cases a with
    | callRequest | callKill => exact admitted
    | callRespawn => exact admitted.elim
    | spawn j spurious => exact fun at_j => absurd rfl (spawns.get at_j)
    | _ => trivial
  have still : v.kills = u.kills → ∃ cur holder total, Invariant v cur holder total ∧
      ((∃ pc ∈ v.kills, pc.finished) → Silent v cur holder) := by
    intro same
    obtain ⟨cur', holder', total', h'⟩ := h.step orderly enabled
    exact ⟨cur', holder', total', h', fun finished => absurd (same ▸ finished) already⟩
  cases a with
  | callRequest =>
      obtain rfl := Option.some.inj enabled
      exact still rfl
  | callRespawn => exact admitted.elim
  | callKill =>
      obtain ⟨cur', holder', total', h'⟩ := h.step orderly enabled
      obtain rfl := Option.some.inj enabled
      refine ⟨cur', holder', total', h', ?_⟩
      rintro ⟨pc, mem, finished⟩
      obtain old | new := List.mem_append.mp mem
      · exact absurd ⟨pc, old, finished⟩ already
      · rw [List.mem_singleton.mp new] at finished
        cases finished
  | request j spurious =>
      obtain ⟨_, _, _, _, _, rfl⟩ := System.step_request enabled
      exact still rfl
  | spawn j spurious =>
      obtain ⟨_, _, _, _, _, rfl⟩ := System.step_spawn enabled
      exact still rfl
  | main j spurious =>
      obtain ⟨_, _, _, _, _, rfl⟩ := System.step_main enabled
      exact still rfl
  | kill j spurious =>
      obtain ⟨pc, a', pc', at_j, taken, rfl⟩ := System.step_kill enabled
      by_cases done : pc'.finished
      · cases pc' with
        | returned result =>
            obtain ⟨holder', h', silent'⟩ := h.silent_of_kill spawns at_j taken
            exact ⟨cur, holder', total, h', fun _ => silent'⟩
        | _ => cases done
      · obtain ⟨holder', h', _⟩ := h.kill at_j taken
        refine ⟨cur, holder', total, h', ?_⟩
        rintro ⟨q, mem, finished⟩
        obtain old | rfl := List.mem_or_eq_of_mem_set mem
        · exact absurd ⟨q, old, finished⟩ already
        · exact absurd finished done

/-- On an actor that is never respawned, after a kill has returned no mail is run
and the actor stays dead, whatever else is called; its threads take at most one
more step between them, the store of DEAD. -/
theorem killed_actor_is_silent {result : Bool}
    (before : Run System.step NoRespawn (.constructing mailboxSize) actions s)
    (returned : s.kills[i]? = some (.returned result))
    (run : Run System.step NoRespawn s later t) :
    t.actor.ran = s.actor.ran ∧ t.actor.state = .dead ∧ t.actor.thread = none ∧
      t.actor.sigch.Closed ∧ later.countP (·.ofMain) ≤ 1 ∧
      Pool.All (fun pc => pc = .storeDead ∨ pc = .ended) t.mains := by
  obtain ⟨cur, holder, total, h, silent⟩ := silent_of_returned before returned
  obtain ⟨ran, cur', total', h', silent', count⟩ := silent.run h run
  have start : cur.left ≤ 1 := by cases cur <;> simp [Main.left]
  refine ⟨ran, silent'.dead, silent'.thread, silent'.closed, by omega, ?_⟩
  intro pc mem
  obtain ⟨g, at_g⟩ := List.getElem?_of_mem mem
  by_cases ended : pc = .ended
  · exact .inr ended
  · obtain ⟨rfl, _⟩ := h'.control.main_eq_cur at_g ended
    exact silent'.gone

/-- A kill that has returned, before its thread stores DEAD. -/
def killReturned : List Action :=
  System.constructorActions ++ List.replicate 3 (.main 0 false) ++ [.callKill] ++
    List.replicate 6 (.kill 0 false) ++ List.replicate 3 (.main 0 false) ++
    List.replicate 3 (.kill 0 false) ++ List.replicate 3 (.main 0 false) ++
    List.replicate 3 (.kill 0 false)

/-- A request that comes too late, and the last store. -/
def afterKill : List Action :=
  [.callRequest, .request 0 false, .main 0 false, .callKill, .kill 1 false, .kill 1 false]

theorem killed_actor_is_silent_late :
    ∃ s t, Run System.step NoRespawn (.constructing 4) killReturned s ∧
      s.mains = [.storeDead] ∧ Run System.step NoRespawn s afterKill t ∧
      t.mains = [.ended] ∧ t.actor.ran = s.actor.ran ∧ t.actor.state = .dead := by
  have before : Run System.step NoRespawn (.constructing 4) killReturned _ :=
    Run.of_exec (by decide)
  have run : Run System.step NoRespawn
      ((exec System.step NoRespawn (.constructing 4) killReturned).get (by decide)) afterKill _ :=
    Run.of_exec (by decide)
  have returned : ((exec System.step NoRespawn (.constructing 4) killReturned).get
      (by decide)).kills[0]? = some (.returned true) := by decide
  obtain ⟨ran, dead, _⟩ := killed_actor_is_silent before returned run
  exact ⟨_, _, before, by decide, run, by decide, ran, dead⟩

/-- `waiting_for_exit`, called in the given state: whether it returns, and then
whether it has joined the thread. It does not return while `join` blocks. -/
def System.waitingForExit (s : System) : Option Bool :=
  match s.actor.thread with
  | none => some false
  | some t => if s.mains[t]? = some .ended then some true else none

/-- `_thread` and the local thread objects of `_spawn` own the newest thread. -/
structure Owned (s : System) : Prop where
  thread : ∀ t, s.actor.thread = some t → t + 1 = s.mains.length
  spawns : ∀ (i : Nat) pc t, s.spawns[i]? = some pc → pc.fresh = some t → t + 1 = s.mains.length

theorem Owned.constructing (mailboxSize : Nat) : Owned (.constructing mailboxSize) where
  thread := nofun
  spawns := by
    intro i pc t at_i local_
    obtain rfl := List.mem_singleton.mp (List.mem_of_getElem? at_i)
    cases local_

namespace Actor

variable {a a' : Actor}

/-- A kill gives the thread up or leaves it where it is. -/
theorem killStep_thread {pc pc' : Kill} (step : a.killStep spurious pc = some (a', pc')) :
    a'.thread = a.thread ∨ a'.thread = none := by
  cases pc with
  | storeWorkable =>
      obtain ⟨rfl, rfl⟩ := Prod.mk.inj (Option.some.inj step)
      exact .inl rfl
  | casDead | detach =>
      simp only [killStep] at step
      split at step <;> obtain ⟨rfl, rfl⟩ := Prod.mk.inj (Option.some.inj step)
      · first | exact .inl rfl | exact .inr rfl
      · exact .inl rfl
  | sendGoExit send =>
      obtain ⟨sigch, rfl, _⟩ := trySendLoop_inv (Option.some.inj step)
      exact .inl rfl
  | recvExitOk ack =>
      obtain ⟨sigch, rfl, _⟩ := recvCall_inv step
      exact .inl rfl
  | returned => simp [killStep] at step
  | threw => simp [killStep] at step

/-- `_spawn` passes its thread on: from `start` to its local object, and from there
to `_thread`. -/
theorem spawnStep_thread {fresh : Nat} {pc pc' : Spawn}
    (step : a.spawnStep fresh spurious pc = some (a', pc')) :
    (a'.thread = a.thread ∨ a'.thread = pc.fresh) ∧
      (pc'.fresh = none ∨ pc'.fresh = pc.fresh ∨ pc = .start ∧ pc'.fresh = some fresh) := by
  cases pc with
  | casSpawn =>
      simp only [spawnStep] at step
      split at step <;> obtain ⟨rfl, rfl⟩ := Prod.mk.inj (Option.some.inj step)
      all_goals exact ⟨.inl rfl, .inl rfl⟩
  | start =>
      obtain ⟨rfl, rfl⟩ := Prod.mk.inj (Option.some.inj step)
      exact ⟨.inl rfl, .inr (.inr ⟨rfl, rfl⟩)⟩
  | recvSpawn t ack =>
      obtain ⟨sigch, rfl, ⟨ack', rfl⟩ | ⟨value, rfl⟩ | ⟨fault, rfl⟩⟩ := recvCall_inv step
      · exact ⟨.inl rfl, .inr (.inl rfl)⟩
      · exact ⟨.inl rfl, by split <;> simp [Spawn.fresh]⟩
      · exact ⟨.inl rfl, .inl rfl⟩
  | swap t =>
      simp only [spawnStep] at step
      split at step <;> obtain ⟨rfl, rfl⟩ := Prod.mk.inj (Option.some.inj step)
      all_goals exact ⟨.inr rfl, .inl rfl⟩
  | returned => simp [spawnStep] at step
  | threw => simp [spawnStep] at step

end Actor

namespace Owned

/-- Every orderly step keeps the threads where they belong. -/
theorem step {action : Action} (owned : Owned s) (h : Invariant s cur holder total)
    (enabled : s.step action = some t) : Owned t := by
  cases action with
  | callRequest | callKill =>
      obtain rfl := Option.some.inj enabled
      exact ⟨owned.thread, owned.spawns⟩
  | callRespawn =>
      obtain rfl := Option.some.inj enabled
      refine ⟨owned.thread, ?_⟩
      intro i pc t at_i local_
      obtain old | new := Nat.lt_or_ge i s.spawns.length
      · rw [List.getElem?_append_left old] at at_i
        exact owned.spawns i pc t at_i local_
      · rw [List.getElem?_append_right new, List.getElem?_singleton] at at_i
        split at at_i <;> cases at_i
        cases local_
  | request i spurious =>
      obtain ⟨pc, a', pc', _, taken, rfl⟩ := System.step_request enabled
      refine ⟨?_, owned.spawns⟩
      intro t thread
      exact owned.thread t ((Actor.requestStep_workable taken).2.symm.trans thread)
  | kill i spurious =>
      obtain ⟨pc, a', pc', _, taken, rfl⟩ := System.step_kill enabled
      refine ⟨?_, owned.spawns⟩
      intro t thread
      obtain same | none := Actor.killStep_thread taken
      · exact owned.thread t (same.symm.trans thread)
      · cases none.symm.trans thread
  | main i spurious =>
      obtain ⟨pc, a', pc', _, taken, rfl⟩ := System.step_main enabled
      refine ⟨?_, ?_⟩
      · intro t thread
        rw [List.length_set]
        exact owned.thread t ((Actor.mainStep_serves taken).2.1.symm.trans thread)
      · intro j q t at_j local_
        rw [List.length_set]
        exact owned.spawns j q t at_j local_
  | spawn i spurious =>
      obtain ⟨pc, a', pc', at_i, taken, rfl⟩ := System.step_spawn enabled
      have bound := (List.getElem?_eq_some_iff.mp at_i).1
      obtain ⟨object, passed⟩ := Actor.spawnStep_thread taken
      by_cases start : pc = .start
      · -- the new thread is the only one that anybody owns
        subst start
        obtain rfl := h.control.holds.eq_spawn at_i fun passive => passive
        cases h.control.phase with
        | starting _ thread _ =>
            refine ⟨?_, ?_⟩
            · intro t owns
              obtain same | same := object
              · cases (same.trans thread).symm.trans owns
              · cases same.symm.trans owns
            · intro j q t at_j local_
              rw [if_pos rfl, List.length_append, List.length_singleton]
              by_cases same : i = j
              · subst same
                rw [List.getElem?_set_self bound] at at_j
                obtain rfl := Option.some.inj at_j
                obtain none | none | ⟨_, fresh⟩ := passed
                · cases none.symm.trans local_
                · cases none.symm.trans local_
                · rw [Option.some.inj (fresh.symm.trans local_)]
              · rw [List.getElem?_set_ne same] at at_j
                have passive := h.control.holds.2.2.others j q at_j (Ne.symm same)
                cases q <;> first | exact passive.elim | cases local_
      · refine ⟨?_, ?_⟩
        · intro t owns
          rw [if_neg start]
          obtain same | same := object
          · exact owned.thread t (same.symm.trans owns)
          · exact owned.spawns i pc t at_i (same.symm.trans owns)
        · intro j q t at_j local_
          rw [if_neg start]
          by_cases same : i = j
          · subst same
            rw [List.getElem?_set_self bound] at at_j
            obtain rfl := Option.some.inj at_j
            obtain none | same | ⟨begins, _⟩ := passed
            · cases none.symm.trans local_
            · exact owned.spawns i pc t at_i (same.symm.trans local_)
            · exact absurd begins start
          · rw [List.getElem?_set_ne same] at at_j
            exact owned.spawns j q t at_j local_

end Owned

/-- A thread that `_thread` owns has not ended. -/
theorem Phase.not_ended {a : Actor} (h : Phase a cur holder) (owns : a.thread.isSome) :
    cur ≠ .ended := by
  rintro rfl
  cases h with
  | ready _ _ listening | activating _ _ _ listening | claimed _ _ _ listening =>
      cases listening
  | epoch _ _ _ point => exact point
  | stopping _ _ none | exited _ none | dead _ none | starting _ none | entering _ none
  | greeted _ none | swapping _ none => simp [none] at owns

/-- In orderly use `waiting_for_exit` never returns by joining the thread: while
`_thread` owns a thread, this is the newest one and has not ended, and once a kill
has detached it the call does not wait. -/
theorem waiting_for_exit_never_joins
    (run : Run System.step Orderly (.constructing mailboxSize) actions s) :
    (∀ t, s.actor.thread = some t → t + 1 = s.mains.length ∧
      ∃ pc, s.mains[t]? = some pc ∧ pc ≠ .ended) ∧
    s.waitingForExit = if s.actor.thread = none then some false else none := by
  have owned : Owned s := run.invariant_along (I := Owned) (.constructing mailboxSize)
    fun bs u a v before owned _ enabled => by
      obtain ⟨_, _, _, h⟩ := Invariant.of_run before
      exact owned.step h enabled
  obtain ⟨cur, holder, total, h⟩ := Invariant.of_run run
  have alive : ∀ t, s.actor.thread = some t → t + 1 = s.mains.length ∧
      ∃ pc, s.mains[t]? = some pc ∧ pc ≠ .ended := by
    intro t owns
    have newest := owned.thread t owns
    have running := h.control.phase.not_ended (by rw [owns]; rfl)
    obtain ⟨g, last, only⟩ | ⟨_, ended⟩ := h.control.current
    · obtain rfl : g = t := by omega
      exact ⟨newest, cur, only.here, running⟩
    · exact absurd ended running
  refine ⟨alive, ?_⟩
  simp only [System.waitingForExit]
  cases owns : s.actor.thread with
  | none => rfl
  | some t =>
      obtain ⟨_, pc, at_t, running⟩ := alive t owns
      simp [at_t, running]

theorem waiting_for_exit_never_joins_constructed :
    ∃ s, Run System.step Orderly (.constructing 4) System.constructorActions s ∧
      s.actor.thread = some 0 ∧ s.waitingForExit = none := by
  have run : Run System.step Orderly (.constructing 4) System.constructorActions _ :=
    Run.of_exec (by decide)
  have owns : ((exec System.step Orderly (.constructing 4) System.constructorActions).get
      (by decide)).actor.thread = some 0 := by decide
  refine ⟨_, run, owns, ?_⟩
  rw [(waiting_for_exit_never_joins run).2, owns]
  rfl

end Vee
