import Vee.Actor.Standby
import Vee.Scheduler.Dispatch

/-!
# Every call of a scheduler can return

From every state that a scheduler and its actors reach, the calls, constructors and
threads that are there can go on until every call has returned and every actor thread
waits for a signal; then each mail that was taken has been run. `togo` bounds the steps
of the calls. A step towards it is chosen among actors that stand by: first for the
requests that owe their actor an activation, and only then for one that may find a
mailbox full.

A call picks until its index is below 0 or is that of an actor. The counter comes to
0, whose index is 0, after fewer than 2^32 picks. A `_size` of -1, which the garbage in
its place may make it, leaves one of them undefined.
-/

namespace Vee

open SignalChannel Transition

namespace Request

variable {index : Nat} {mail : Mail} {pc : Request}

theorem dispatch_eq_ask (under_way : pc.finished = false) (sane : ∀ fault, pc ≠ .threw fault) :
    pc.dispatch index mail = .ask index mail := by
  cases pc with
  | returned => cases under_way
  | threw fault => exact absurd rfl (sane fault)
  | _ => rfl

/-- A request that is not refused does not make its call pick again. -/
theorem dispatch_ne_pick (index : Nat) (mail : Mail)
    (taken : ∀ result, pc = .returned result → 0 ≤ result) :
    pc.dispatch index mail ≠ .pick := by
  intro pick
  obtain ⟨result, returned, negative⟩ := negative_of_dispatch pick
  have nonneg := taken result returned
  omega

end Request

namespace Workshop

variable {w u : Workshop} {d index g : Nat} {mail : Mail} {spurious : Bool} {a b : System}
variable {pc pc' : Request} {memory : BitVec 32} {initActors mailboxSize : Nat}
variable {actions : List WorkshopAction}

/-- Steps of the calls that have begun, of constructors and of actor threads. -/
def Working (_ : Workshop) : WorkshopAction → Prop
  | .call => False
  | .pickElsewhere => False
  | _ => True

/-- Steps of their own that the calls have before them, when none is in vain. -/
def togo (w : Workshop) : Nat :=
  (w.actors.map fun a => (a.requests.map Request.togo).sum).sum +
    8 * w.calls.countP (decide <| · = .pick)

/-- Every actor stands by. -/
def Standing (w : Workshop) : Prop := ∀ a ∈ w.actors, Standby a

/-- Nobody has picked an actor since, or is further from the return of its call. -/
structure Kept (w u : Workshop) : Prop where
  counter : u.counter = w.counter
  calls : u.calls.length = w.calls.length
  togo : u.togo ≤ w.togo

/-- A state of a run after the construction. -/
def Reached (memory : BitVec 32) (initActors mailboxSize : Nat) (w : Workshop) : Prop :=
  ∃ actions, Run step AfterConstruction (.constructing memory initActors mailboxSize) actions w

namespace Reached

/-- Working leads to states that are reached too. -/
theorem run (h : Reached memory initActors mailboxSize w) (work : Run step Working w actions u) :
    Reached memory initActors mailboxSize u := by
  obtain ⟨before, reached⟩ := h
  refine ⟨before ++ actions, reached.trans (work.mono ?_)⟩
  intro w action working
  cases action with
  | call => exact working.elim
  | _ => trivial

theorem dealt (h : Reached memory initActors mailboxSize w) : Dealt w := by
  obtain ⟨_, reached⟩ := h
  exact dealt_of_run reached

theorem unkilled (h : Reached memory initActors mailboxSize w) (at_i : w.actors[index]? = some a) :
    Unkilled a ∧ ∃ cur holder total, Invariant a cur holder total := by
  obtain ⟨_, reached⟩ := h
  obtain ⟨_, own⟩ := actor_run reached at_i
  exact Unkilled.of_run own

theorem withinBounds (h : Reached memory initActors mailboxSize w)
    (at_i : w.actors[index]? = some a) : a.WithinBounds mailboxSize := by
  obtain ⟨_, reached⟩ := h
  obtain ⟨_, own⟩ := actor_run reached at_i
  exact System.WithinBounds.of_run own

theorem serves (h : Reached memory initActors mailboxSize w) (small : mailboxSize < 2 ^ 31) :
    ∀ a ∈ w.actors, Serves a := by
  obtain ⟨_, reached⟩ := h
  exact fun a mem => Workshop.serves reached small mem

/-- `_size` is what the constructors of the actors have made it. -/
theorem size_eq (h : Reached memory initActors mailboxSize w) :
    w.size = toInt32 (memory.toInt + initActors) := by
  obtain ⟨_, reached⟩ := h
  refine reached.invariant (I := fun w => w.size = toInt32 (memory.toInt + initActors)) rfl ?_
  intro u action v same _ enabled
  cases action with
  | call | pickElsewhere =>
      obtain rfl := Option.some.inj enabled
      exact same
  | dispatch d spurious =>
      cases steps_of_dispatch enabled with
      | refuse | skip | ask | proceed => exact same
  | construct index spurious | main index g spurious =>
      obtain ⟨_, _, _, _, rfl⟩ := actorStep_eq enabled
      exact same

theorem actors_length (h : Reached memory initActors mailboxSize w) :
    w.actors.length = initActors := by
  obtain ⟨_, reached⟩ := h
  have length := (ready_of_run reached).length_parts actors fun _ _ _ => moves
  exact length.trans List.length_replicate

end Reached

namespace Kept

theorem refl (w : Workshop) : Kept w w := ⟨rfl, rfl, Nat.le_refl _⟩

theorem trans {v : Workshop} (first : Kept w u) (second : Kept u v) : Kept w v :=
  ⟨second.counter.trans first.counter, second.calls.trans first.calls,
    Nat.le_trans second.togo first.togo⟩

end Kept

/-- The call that has made a request under way. -/
theorem Dealt.caller (h : Dealt w) (at_i : w.actors[index]? = some a)
    (at_mail : a.requests[mail]? = some pc) (asks : pc.dispatch index mail = .ask index mail) :
    ∃ d : Nat, w.calls[d]? = some (.ask index mail) := by
  have made : (⟨0, index, mail⟩ : Attempt).request? w.actors = some pc :=
    Attempt.request?_eq_some.mpr ⟨a, at_i, at_mail⟩
  obtain ⟨⟨d, i, m⟩, asked, same⟩ := h.covered _ (by rw [made]; rfl)
  obtain ⟨rfl, rfl⟩ := Prod.mk.inj same
  obtain ⟨called, _⟩ := h.known _ asked
  obtain ⟨point, at_d⟩ : ∃ point, w.calls[d]? = some point :=
    ⟨_, List.getElem?_eq_getElem called⟩
  have own : (⟨d, i, m⟩ : Attempt).request? w.actors = some pc := made
  have live : (⟨d, i, m⟩ : Attempt) ∈ w.live d := by
    refine List.mem_filter.mpr ⟨List.mem_filter.mpr ⟨asked, decide_eq_true rfl⟩, ?_⟩
    cases refused : (⟨d, i, m⟩ : Attempt).refused w.actors with
    | false => rfl
    | true =>
        obtain ⟨result, returned, _⟩ := Attempt.refused_iff.mp refused
        rw [own] at returned
        obtain rfl := Option.some.inj returned
        simp only [Request.dispatch] at asks
        split_ifs at asks
  refine ⟨d, at_d.trans ?_⟩
  cases h.answers d point at_d with
  | none empty =>
      rw [empty] at live
      cases live
  | @one i' m' pc'' only at_m =>
      rw [only] at live
      obtain ⟨_, rfl, rfl⟩ := Attempt.mk.inj (List.mem_singleton.mp live)
      rw [own] at at_m
      obtain rfl := Option.some.inj at_m
      exact congrArg some asks

/-- A call takes the next step of its request. -/
theorem step_proceed {b : Actor} (at_d : w.calls[d]? = some (.ask index mail))
    (at_i : w.actors[index]? = some a) (at_mail : a.requests[mail]? = some pc)
    (taken : a.actor.requestStep mail spurious pc = some (b, pc')) :
    w.step (.dispatch d spurious) = some { w with
      actors := w.actors.set index { a with actor := b, requests := a.requests.set mail pc' }
      calls := w.calls.set d (pc'.dispatch index mail) } := by
  have bound := (List.getElem?_eq_some_iff.mp at_mail).1
  have stepped : a.step (.request mail spurious) =
      some { a with actor := b, requests := a.requests.set mail pc' } := by
    simp only [System.step, at_mail, taken]
  simp only [step, at_d, dispatchStep, at_i, stepped, List.getElem?_set_self bound]

/-- The step of a request counts, unless it is refused. -/
theorem togo_proceed {b : Actor} (at_d : w.calls[d]? = some (.ask index mail))
    (at_i : w.actors[index]? = some a) (at_mail : a.requests[mail]? = some pc)
    (taken : pc'.dispatch index mail ≠ .pick) :
    togo { w with
      actors := w.actors.set index { a with actor := b, requests := a.requests.set mail pc' }
      calls := w.calls.set d (pc'.dispatch index mail) } + pc.togo = w.togo + pc'.togo := by
  have actors := Pool.sum_map_set (y := { a with
    actor := b
    requests := a.requests.set mail pc' }) (f := fun a => (a.requests.map Request.togo).sum) at_i
  have requests := Pool.sum_map_set (y := pc') (f := Request.togo) at_mail
  have calls := Pool.countP_set (y := pc'.dispatch index mail) (p := (decide <| · = .pick)) at_d
  have asked : decide (Dispatch.ask index mail = .pick) = false := by simp
  rw [asked, decide_eq_false taken] at calls
  simp only [togo] at actors ⊢
  simp only [Bool.toNat_false, Nat.add_zero] at calls
  rw [calls]
  omega

/-- Steps that are not of a request do not count. -/
theorem togo_set (at_i : w.actors[index]? = some a) (same : b.requests = a.requests) :
    togo { w with actors := w.actors.set index b } = w.togo := by
  have actors := Pool.sum_map_set (y := b) (f := fun a => (a.requests.map Request.togo).sum) at_i
  simp only [same] at actors
  simp only [togo]
  omega

theorem step_actor {action : Action} (at_i : w.actors[index]? = some a)
    (taken : a.step action = some b) :
    w.actorStep index action = some { w with actors := w.actors.set index b } := by
  simp only [actorStep, at_i, taken]

/-- A request that holds its actor is on the way to its acceptance. -/
theorem active_step {a b : Actor} (index : Nat)
    (taken : a.requestStep mail spurious pc = some (b, pc'))
    (active : ¬ pc.Passive) : pc.dispatch index mail = .ask index mail ∧
      pc'.dispatch index mail ≠ .pick ∧ pc'.togo ≤ pc.togo := by
  cases pc with
  | sendActive send =>
      refine ⟨rfl, ?_⟩
      obtain ⟨sigch, rfl, ⟨send', rfl⟩ | rfl | ⟨fault, rfl⟩⟩ :=
        Actor.trySendLoop_inv (Option.some.inj taken)
      · exact ⟨Dispatch.noConfusion, Nat.le_refl 1⟩
      · exact ⟨Dispatch.noConfusion, Nat.zero_le 1⟩
      · exact ⟨Dispatch.noConfusion, Nat.zero_le 1⟩
  | threw => simp [Actor.requestStep] at taken
  | _ => exact absurd trivial active

/-- What drives one actor is work of the whole. -/
theorem drive {as : List Action} (h : Reached memory initActors mailboxSize w)
    (at_i : w.actors[index]? = some a) (run : Run System.step Drives a as b) :
    ∃ actions u, Run step Working w actions u ∧ u.actors = w.actors.set index b ∧ Kept w u := by
  have bound := (List.getElem?_eq_some_iff.mp at_i).1
  have start : w.actors = w.actors.set index a := by
    obtain ⟨_, rfl⟩ := List.getElem?_eq_some_iff.mp at_i
    exact List.set_getElem_self bound |>.symm
  suffices simulated : ∃ actions u, Run step Working w actions u ∧
      u.actors = w.actors.set index b ∧ Kept w u ∧ Reached memory initActors mailboxSize u by
    obtain ⟨actions, u, work, actors, kept, _⟩ := simulated
    exact ⟨actions, u, work, actors, kept⟩
  refine run.simulates (R := fun c u =>
    u.actors = w.actors.set index c ∧ Kept w u ∧ Reached memory initActors mailboxSize u)
    ⟨start, .refl w, h⟩ ?_
  rintro c action c' u ⟨actors, kept, reached⟩ driving enabled
  have at_c : u.actors[index]? = some c := by
    rw [actors]
    exact List.getElem?_set_self bound
  have replaced : u.actors.set index c' = w.actors.set index c' := by
    rw [actors, List.set_set]
  obtain ⟨unkilled, _⟩ := reached.unkilled at_c
  suffices answer : ∃ move v, Working u move ∧ u.step move = some v ∧
      v.actors = u.actors.set index c' ∧ Kept u v by
    obtain ⟨move, v, working, taken, same, further⟩ := answer
    have work := Run.single working taken
    exact ⟨[move], v, work, same.trans replaced, kept.trans further, reached.run work⟩
  cases action with
  | callRequest | callKill | callRespawn => exact driving.elim
  | request mail spurious =>
      obtain ⟨pc, b', pc', at_mail, taken, rfl⟩ := System.step_request enabled
      obtain ⟨_, at_mail', active⟩ := driving
      obtain rfl := Option.some.inj (at_mail.symm.trans at_mail')
      obtain ⟨asks, goes_on, less⟩ := active_step index taken active
      obtain ⟨d, at_d⟩ := reached.dealt.caller at_c at_mail asks
      refine ⟨.dispatch d spurious, _, trivial, step_proceed at_d at_c at_mail taken, rfl,
        rfl, List.length_set, ?_⟩
      have counted := togo_proceed (b := b') at_d at_c at_mail goes_on
      omega
  | kill i spurious =>
      obtain ⟨_, _, _, at_kill, _⟩ := System.step_kill enabled
      simp [unkilled.kills] at at_kill
  | spawn i spurious =>
      obtain ⟨_, _, _, at_spawn, _, same⟩ := System.step_spawn enabled
      have only := (List.getElem?_eq_some_iff.mp at_spawn).1
      rw [unkilled.single] at only
      obtain rfl := Nat.lt_one_iff.mp only
      refine ⟨.construct index spurious, _, trivial, step_actor at_c enabled, rfl, rfl, rfl, ?_⟩
      exact Nat.le_of_eq (togo_set at_c (by rw [same]))
  | main g spurious =>
      obtain ⟨_, _, _, _, _, same⟩ := System.step_main enabled
      refine ⟨.main index g spurious, _, trivial, step_actor at_c enabled, rfl, rfl, rfl, ?_⟩
      exact Nat.le_of_eq (togo_set at_c (by rw [same]))

/-- All actors come to stand by, one after the other. -/
theorem comes_to_stand (h : Reached memory initActors mailboxSize w) :
    CanReach step Working (fun u => Standing u ∧ Kept w u) w := by
  suffices first : ∀ n, CanReach step Working (fun u => Kept w u ∧
      ∀ (index : Nat) a, index < n → u.actors[index]? = some a → Standby a) w by
    obtain ⟨actions, u, work, kept, stands⟩ := first initActors
    refine ⟨actions, u, work, ?_, kept⟩
    intro a mem
    obtain ⟨index, at_i⟩ := List.getElem?_of_mem mem
    have bound := (List.getElem?_eq_some_iff.mp at_i).1
    rw [(h.run work).actors_length] at bound
    exact stands index a bound at_i
  intro n
  induction n with
  | zero => exact .here ⟨.refl w, fun _ _ none => absurd none (Nat.not_lt_zero _)⟩
  | succ n ih =>
      obtain ⟨actions, u, work, kept, stands⟩ := ih
      have reached := h.run work
      cases at_n : u.actors[n]? with
      | none =>
          refine ⟨actions, u, work, kept, ?_⟩
          intro index a below at_i
          obtain before | rfl := Nat.lt_succ_iff_lt_or_eq.mp below
          · exact stands index a before at_i
          · rw [at_n] at at_i
            cases at_i
      | some a =>
          obtain ⟨unkilled, _, _, _, invariant⟩ := reached.unkilled at_n
          obtain ⟨as, b, run, standby⟩ := unkilled.comes_to_standby invariant
          obtain ⟨more, v, work', actors, further⟩ := drive reached at_n run
          refine ⟨actions ++ more, v, work.trans work', kept.trans further, ?_⟩
          intro index c below at_i
          rw [actors] at at_i
          by_cases same : n = index
          · subst same
            have bound := (List.getElem?_eq_some_iff.mp at_n).1
            rw [List.getElem?_set_self bound] at at_i
            obtain rfl := Option.some.inj at_i
            exact standby
          · rw [List.getElem?_set_ne same] at at_i
            exact stands index c (by omega) at_i

/-- Some step of the work leads nearer to the return of all calls, or to the counter 0. -/
def Nearer (w : Workshop) : Prop :=
  ∃ action u, Working w action ∧ w.step action = some u ∧ u.calls.length = w.calls.length ∧
    (u.togo < w.togo ∨ u.togo = w.togo ∧ (-u.counter).toNat < (-w.counter).toNat)

/-- A request under way takes a step that is not in vain. -/
theorem request_nearer (h : Reached memory initActors mailboxSize w) (standing : Standing w)
    (small : mailboxSize < 2 ^ 31) (at_i : w.actors[index]? = some a)
    (at_mail : a.requests[mail]? = some pc) (under_way : pc.finished = false)
    (room : pc = .enqueue → a.actor.mailbox.length ≠ a.actor.queueSize) : Nearer w := by
  have mem := List.mem_of_getElem? at_i
  have sane (fault : Fault) : pc ≠ .threw fault := by
    rintro rfl
    exact (h.serves small a mem).faultless.requests fault (List.mem_of_getElem? at_mail)
  obtain ⟨_, _, _, _, invariant⟩ := h.unkilled at_i
  obtain ⟨b, pc', taken, less, accepted⟩ := (standing a mem).request_nearer invariant
    (h.withinBounds at_i) small at_mail under_way room
  obtain ⟨d, at_d⟩ := h.dealt.caller at_i at_mail (Request.dispatch_eq_ask under_way sane)
  refine ⟨.dispatch d false, _, trivial, step_proceed at_d at_i at_mail taken,
    List.length_set, .inl ?_⟩
  have counted := togo_proceed (b := b) at_d at_i at_mail
    (Request.dispatch_ne_pick index mail accepted)
  omega

/-- A pick is defined, and has the index 0 when the counter is 0. -/
theorem actorIndex_isSome (counter : BitVec 32) {size : Int} (sane : size ≠ -1) :
    ∃ i, actorIndex counter size = some i ∧ (counter = 0 → i.toNat = 0) := by
  simp only [actorIndex]
  by_cases none : size = 0
  · exact ⟨-1, if_pos none, fun _ => rfl⟩
  · refine ⟨counter.toInt.tmod size, ?_, ?_⟩
    · rw [if_neg none, if_neg fun undefined => sane undefined.2]
    · rintro rfl
      simp

/-- A pick ends its call, finds an actor, or brings the counter nearer to 0. -/
theorem pick_nearer (nonempty : w.actors ≠ []) (sane : w.size ≠ -1)
    (at_d : w.calls[d]? = some .pick) : Nearer w := by
  have calls (x : Dispatch) (goes_on : x ≠ .pick) :
      (w.calls.set d x).countP (decide <| · = .pick) + 1 =
        w.calls.countP (decide <| · = .pick) := by
    have counted := Pool.countP_set (y := x) (p := (decide <| · = .pick)) at_d
    rwa [decide_eq_true rfl, decide_eq_false goes_on] at counted
  obtain ⟨i, picked, first⟩ := actorIndex_isSome w.counter sane
  by_cases negative : i < 0
  · refine ⟨.dispatch d false, { w with
        counter := w.counter + 1
        calls := w.calls.set d (.returned false) }, trivial, ?_, List.length_set, .inl ?_⟩
    · simp only [step, at_d, dispatchStep, picked, if_pos negative]
    · have fewer := calls (.returned false) Dispatch.noConfusion
      simp only [togo]
      omega
  · cases at_i : w.actors[i.toNat]? with
    | none =>
        refine ⟨.dispatch d false, { w with counter := w.counter + 1 }, trivial, ?_, rfl,
          .inr ⟨rfl, ?_⟩⟩
        · simp only [step, at_d, dispatchStep, picked, if_neg negative, at_i]
        · have positive : w.counter ≠ 0 := by
            intro zero
            rw [first zero, List.getElem?_eq_none_iff] at at_i
            exact nonempty (List.length_eq_zero_iff.mp (Nat.le_zero.mp at_i))
          bv_omega
    | some a =>
        refine ⟨.dispatch d false, { w with
          counter := w.counter + 1
          actors := w.actors.set i.toNat { a with requests := a.requests ++ [.checkWorkable] }
          calls := w.calls.set d (.ask i.toNat a.requests.length)
          asked := w.asked ++ [⟨d, i.toNat, a.requests.length⟩] },
          trivial, ?_, List.length_set, .inl ?_⟩
        · simp only [step, at_d, dispatchStep, picked, if_neg negative, at_i, System.step]
        · have fewer := calls (.ask i.toNat a.requests.length) Dispatch.noConfusion
          have actors := Pool.sum_map_set (y := { a with
            requests := a.requests ++ [.checkWorkable] })
            (f := fun a => (a.requests.map Request.togo).sum) at_i
          have new : ((a.requests ++ [Request.checkWorkable]).map Request.togo).sum =
              (a.requests.map Request.togo).sum + 6 := by
            rw [List.map_append, List.sum_append]
            rfl
          simp only [new] at actors
          simp only [togo]
          omega

/-- While a call has not returned, actors that stand by let one come nearer to its
return. -/
theorem progress (h : Reached memory initActors mailboxSize w) (standing : Standing w)
    (nonempty : 0 < initActors) (sane : toInt32 (memory.toInt + initActors) ≠ -1)
    (room : 0 < mailboxSize) (small : mailboxSize < 2 ^ 31)
    (unfinished : ¬ Pool.All (fun pc => ∃ result, pc = .returned result) w.calls) :
    Nearer w := by
  by_cases late : ∃ (index : Nat) (a : System) (mail : Nat) (pc : Request),
      w.actors[index]? = some a ∧ a.requests[mail]? = some pc ∧ pc.owes = true
  · obtain ⟨index, a, mail, pc, at_i, at_mail, owes⟩ := late
    refine request_nearer h standing small at_i at_mail ?_ ?_
    · cases pc with
      | returned => cases owes
      | _ => rfl
    · rintro rfl
      cases owes
  have settled (index : Nat) (a : System) (at_i : w.actors[index]? = some a) :
      Pool.All (·.owes = false) a.requests := by
    intro pc mem
    obtain ⟨mail, at_mail⟩ := List.getElem?_of_mem mem
    rw [← Bool.not_eq_true]
    exact fun owes => late ⟨index, a, mail, pc, at_i, at_mail, owes⟩
  have each := h.serves small
  obtain ⟨point, mem, open_⟩ : ∃ point ∈ w.calls, ¬ ∃ result, point = .returned result := by
    by_contra none
    exact unfinished fun point mem => not_not.mp fun open_ => none ⟨point, mem, open_⟩
  obtain ⟨d, at_d⟩ := List.getElem?_of_mem mem
  cases point with
  | returned result => exact absurd ⟨result, rfl⟩ open_
  | threw fault => exact absurd mem (h.dealt.not_threw each fault)
  | pick =>
      refine pick_nearer ?_ (by rwa [h.size_eq]) at_d
      rintro empty
      have length := h.actors_length
      rw [empty] at length
      exact absurd length.symm (Nat.ne_of_gt nonempty)
  | ask index mail =>
      obtain ⟨a, pc, at_i, at_mail, under_way⟩ : ∃ a pc, w.actors[index]? = some a ∧
          a.requests[mail]? = some pc ∧ pc.finished = false := by
        have answer := h.dealt.answers d _ at_d
        generalize same : Dispatch.ask index mail = point at answer
        cases answer with
        | none _ other => obtain rfl | rfl := other <;> cases same
        | @one i m pc only at_m =>
            obtain ⟨rfl, rfl⟩ := Request.ask_of_dispatch same.symm
            obtain ⟨a, at_i, at_mail⟩ := Attempt.request?_eq_some.mp at_m
            refine ⟨a, pc, at_i, at_mail, ?_⟩
            cases pc with
            | returned result =>
                simp only [Request.dispatch] at same
                split_ifs at same
            | _ => rfl
      refine request_nearer h standing small at_i at_mail under_way fun _ => ?_
      obtain ⟨_, _, _, _, invariant⟩ := h.unkilled at_i
      have empty := (standing a (List.mem_of_getElem? at_i)).mailbox_eq_nil invariant
        (settled index a at_i)
      rw [empty, (h.withinBounds at_i).1]
      exact Nat.ne_of_lt room

/-- The work can go on until all calls have returned and all actors stand by. -/
theorem Reached.comes_to_rest (h : Reached memory initActors mailboxSize w)
    (nonempty : 0 < initActors) (sane : toInt32 (memory.toInt + initActors) ≠ -1)
    (room : 0 < mailboxSize) (small : mailboxSize < 2 ^ 31) :
    CanReach step Working (fun u => AtRest u ∧ u.calls.length = w.calls.length) w := by
  obtain ⟨n, rank⟩ : ∃ n, w.togo * 2 ^ 32 + (-w.counter).toNat = n := ⟨_, rfl⟩
  induction n using Nat.strongRecOn generalizing w with
  | ind n ih =>
      obtain ⟨actions, u, work, standing, kept⟩ := comes_to_stand h
      have reached := h.run work
      by_cases done : Pool.All (fun pc => ∃ result, pc = .returned result) u.calls
      · exact ⟨actions, u, work, ⟨done, fun a mem => (standing a mem).waits⟩, kept.calls⟩
      obtain ⟨action, v, working, taken, calls, nearer⟩ :=
        progress reached standing nonempty sane room small done
      have no_further := kept.togo
      have same := kept.counter
      have below := (-v.counter).isLt
      have less : v.togo * 2 ^ 32 + (-v.counter).toNat < n := by
        rw [← rank, ← same]
        omega
      have further := work.trans (.single working taken)
      obtain ⟨more, x, rest, at_rest, length⟩ := ih _ less (h.run further) rfl
      exact ⟨_, x, further.trans rest, at_rest, length.trans (calls.trans kept.calls)⟩

end Workshop
end Vee
