import Vee.Actor.Invariant

/-!
# No mail is stranded

An actor used by `request` alone, from its constructor on. A sender that saw the
counter at 0 owes the actor an activation, and the thread leaves `_epoch` only
with the counter back at 0; so a thread that waits for the next signal while no
request is under way has run every mail, whatever the order in which mails were
enqueued, counted, run and discounted.
-/

namespace Vee

open SignalChannel Transition

variable {s : System} {cur : Main} {holder : Holder} {total mailboxSize : Nat}
variable {actions : List Action}

/-- No signal has been handed to this `recv` call. -/
def Unanswered (ch : SignalChannel Sigid) : Recv Sigid → Prop
  | .check => True
  | .acquire => True
  | .publish => True
  | .get receiver => ch.promises[receiver]? = some none
  | .retract _ => False
  | .release _ => False

/-- An actor thread is inside the `recv` of its main loop and no signal has been
handed to it. -/
def System.WaitsInRecv (s : System) : Prop :=
  ∃ pc, Main.recv pc ∈ s.mains ∧ Unanswered s.actor.sigch pc

/-- No call and no thread has ended in an exception. -/
structure System.Faultless (s : System) : Prop where
  requests : ∀ fault, Request.threw fault ∉ s.requests
  kills : ∀ fault, Kill.threw fault ∉ s.kills
  spawns : ∀ fault, Spawn.threw fault ∉ s.spawns
  mains : ∀ fault, Main.threw fault ∉ s.mains

/-- Only requests are called, after the constructor has returned. -/
def RequestsOnly (s : System) : Action → Prop
  | .callRequest => Pool.All (·.finished) s.spawns
  | .callKill => False
  | .callRespawn => False
  | _ => True

instance (s : System) (a : Action) : Decidable (RequestsOnly s a) :=
  match a with
  | .callRequest => inferInstanceAs (Decidable (Pool.All (·.finished) s.spawns))
  | .callKill | .callRespawn => inferInstanceAs (Decidable False)
  | .request _ _ | .kill _ _ | .spawn _ _ | .main _ _ => inferInstanceAs (Decidable True)

theorem RequestsOnly.noRespawn (s : System) (a : Action) (h : RequestsOnly s a) :
    NoRespawn s a := by
  cases a with
  | callKill => exact h.elim
  | callRequest => exact h
  | callRespawn => exact h
  | _ => trivial

/-- No kill call is ever in progress. -/
theorem RequestsOnly.kills_eq_nil
    (run : Run System.step RequestsOnly (.constructing mailboxSize) actions s) : s.kills = [] := by
  refine run.invariant (I := fun s => s.kills = []) rfl ?_
  intro s a t none admitted enabled
  cases a with
  | callRequest =>
      obtain rfl := Option.some.inj enabled
      exact none
  | callKill => exact admitted.elim
  | callRespawn => exact admitted.elim
  | request i spurious =>
      obtain ⟨_, _, _, _, _, rfl⟩ := System.step_request enabled
      exact none
  | kill i spurious =>
      obtain ⟨_, _, _, at_i, _⟩ := System.step_kill enabled
      simp [none] at at_i
  | spawn i spurious =>
      obtain ⟨_, _, _, _, _, rfl⟩ := System.step_spawn enabled
      exact none
  | main i spurious =>
      obtain ⟨_, _, _, _, _, rfl⟩ := System.step_main enabled
      exact none

theorem SignalChannel.Delivered.not_unanswered {ch : SignalChannel Sigid} {value : Sigid}
    {pc : Recv Sigid} (delivered : Delivered ch value pc) : ¬ Unanswered ch pc := by
  intro unanswered
  cases delivered with
  | get _ full => simp [Unanswered, full] at unanswered
  | retract => exact unanswered
  | release => exact unanswered

/-- Control rules out every exception of the actor's own calls and threads. -/
theorem Control.faultless (h : Control s cur holder) : s.Faultless where
  requests := by
    intro fault mem
    obtain ⟨i, at_i⟩ := List.getElem?_of_mem mem
    have holds := h.holds
    cases holder with
    | request j send => cases (holds.1.eq_of_not at_i (fun passive => passive)).2
    | _ => exact (holds.1.get at_i).elim
  kills := by
    intro fault mem
    obtain ⟨i, at_i⟩ := List.getElem?_of_mem mem
    obtain rfl := h.holds.eq_kill at_i (fun passive => passive)
    cases h.phase
  spawns := by
    intro fault mem
    obtain ⟨i, at_i⟩ := List.getElem?_of_mem mem
    obtain rfl := h.holds.eq_spawn at_i (fun passive => passive)
    cases h.phase
  mains := by
    intro fault mem
    obtain ⟨i, at_i⟩ := List.getElem?_of_mem mem
    obtain ⟨rfl, _⟩ := h.main_eq_cur at_i (by simp)
    cases h.phase with
    | ready _ _ listening => cases listening
    | activating _ _ _ listening => cases listening
    | claimed _ _ _ listening => cases listening
    | stopping _ _ _ listening => cases listening
    | swapping _ _ listening => cases listening
    | epoch _ _ _ point => exact point
    | exited _ _ _ gone => simp at gone
    | dead _ _ _ gone => simp at gone
    | entering _ _ _ gone => simp at gone
    | greeted _ _ _ gone => simp at gone

namespace Invariant

/-- A thread that waits unanswered while no request or kill is under way has an
idle actor. -/
theorem idle_of_waits (h : Invariant s cur holder total)
    (requests : Pool.All (·.finished) s.requests) (kills : Pool.All (·.finished) s.kills)
    (waits : s.WaitsInRecv) : s.actor.state = .idle ∧ ∃ pc, cur = .recv pc := by
  obtain ⟨pc, mem, unanswered⟩ := waits
  obtain ⟨g, at_g⟩ := List.getElem?_of_mem mem
  obtain ⟨rfl, _⟩ := h.control.main_eq_cur at_g (by simp)
  refine ⟨?_, pc, rfl⟩
  have holds := h.control.holds
  cases h.control.phase with
  | ready state => simpa [restState] using state
  | greeted state => simpa [restState] using state
  | swapping state => simpa [restState] using state
  | activating => simpa [Request.finished] using requests.get holds.1.here
  | claimed | stopping => simpa [Kill.finished] using kills.get holds.2.1.here
  | activated _ _ delivered => exact absurd unanswered delivered.not_unanswered
  | stopped _ _ delivered => exact absurd unanswered delivered.not_unanswered
  | epoch _ _ _ point => exact point.elim
  | exited _ _ _ gone => simp at gone
  | dead _ _ _ gone => simp at gone
  | entering _ _ _ gone => simp at gone

/-- With nothing under way the thread has run every accepted mail. -/
theorem quiescent (h : Invariant s cur holder total)
    (requests : Pool.All (·.finished) s.requests) (kills : Pool.All (·.finished) s.kills)
    (waits : s.WaitsInRecv) :
    s.actor.ran = s.actor.accepted ∧ s.actor.mailbox = [] ∧ s.actor.mailboxCounter = 0 ∧
      s.actor.state = .idle := by
  obtain ⟨idle, pc, rfl⟩ := h.idle_of_waits requests kills waits
  obtain ⟨counter, mailbox⟩ := h.account.settled (by simp [activation, idle]) requests rfl
  refine ⟨?_, mailbox, counter, idle⟩
  simpa [Main.job, mailbox] using h.history.order.symm

end Invariant

/-- Every accepted mail is run at most once and in the order of the mailbox, no
call or thread throws, and none is stranded: when no request is under way and
the actor thread waits in `recv`, every accepted mail has been run. -/
theorem request_runs_every_mail
    (run : Run System.step RequestsOnly (.constructing mailboxSize) actions s) :
    s.actor.accepted.Nodup ∧ s.actor.ran <+: s.actor.accepted ∧ s.Faultless ∧
      (Pool.All (·.finished) s.requests → s.WaitsInRecv →
        s.actor.ran = s.actor.accepted ∧ s.actor.mailbox = [] ∧ s.actor.mailboxCounter = 0 ∧
          s.actor.state = .idle) := by
  obtain ⟨cur, holder, total, h⟩ :=
    Invariant.of_run (NoRespawn.orderly (run.mono RequestsOnly.noRespawn))
  refine ⟨h.history.nodup, h.history.ran_isPrefix, h.control.faultless, ?_⟩
  intro requests waits
  refine h.quiescent requests ?_ waits
  rw [RequestsOnly.kills_eq_nil run]
  exact Pool.all_nil

/-- Two overlapping requests, of which the later one wakes the actor. -/
def twoRequests : List Action :=
  System.constructorActions ++ [.callRequest, .callRequest] ++
    (List.replicate 3 [.request 0 false, .request 1 false]).flatten ++
    [.request 1 false, .request 0 false, .request 1 false] ++ List.replicate 3 (.main 0 false) ++
    List.replicate 3 (.request 1 false) ++ List.replicate 10 (.main 0 false)

theorem request_runs_every_mail_two :
    ∃ s, Run System.step RequestsOnly (.constructing 4) twoRequests s ∧
      s.actor.accepted = [0, 1] ∧ s.actor.ran = s.actor.accepted := by
  have run : Run System.step RequestsOnly (.constructing 4) twoRequests _ :=
    Run.of_exec (by decide)
  obtain ⟨_, _, _, drained⟩ := request_runs_every_mail run
  refine ⟨_, run, by decide, (drained ?_ ?_).1⟩
  · decide
  · exact ⟨.check, by decide, trivial⟩

end Vee
