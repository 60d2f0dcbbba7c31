import Vee.Actor.Kill

/-!
# The error branches of the actor

What the branches of `_epoch`, of the main loop and of `kill` that give up are
there for never happens to an actor that is used by any number of requests and
one kill. Two requests can find the counter at 0 only when it has wrapped, with
2^32 mails in the mailbox, so otherwise at most one of them is about to activate.
-/

namespace Vee

open SignalChannel Transition

/-- The call has found the counter at 0 and has not delivered its signal. -/
def Request.Activating : Request → Prop
  | .casProc => True
  | .sendActive _ => True
  | _ => False

/-- No error branch of the actor is taken in the next step of any party. -/
structure System.NoErrors (s : System) : Prop where
  faultless : s.Faultless
  dequeues : .dequeue ∈ s.mains → s.actor.mailbox ≠ []
  exchanges : .casIdle ∈ s.mains → s.actor.state = .proc
  mainReceives : ∀ pc spurious ch value, .recv pc ∈ s.mains →
    s.actor.sigch.recvStep spurious pc = some (ch, .returned value) →
    value = .active ∨ value = .goExit
  killReceives : ∀ pc spurious ch value, .recvExitOk pc ∈ s.kills →
    s.actor.sigch.recvStep spurious pc = some (ch, .returned value) → value = .exitOk
  /-- `_size` of the mailbox is an int, so it never holds that many mails. -/
  activates : s.actor.mailbox.length < 2 ^ 32 → ∀ (i j : Nat) (pc pc' : Request),
    s.requests[i]? = some pc → s.requests[j]? = some pc' → pc.Activating → pc'.Activating → i = j

variable {s : System} {a : Actor} {ch : SignalChannel Sigid} {value : Sigid} {cur : Main}
variable {holder : Holder} {total mailboxSize i j : Nat} {actions : List Action} {spurious : Bool}

/-- Nothing is returned over a link. -/
theorem SignalChannel.Link.not_returned {pc : Recv Sigid} {sender : Option Send}
    (link : Link a.sigch pc sender)
    (step : a.sigch.recvStep spurious pc = some (ch, .returned value)) : False := by
  obtain ⟨_, running, _⟩ := link.recv step
  cases running

theorem SignalChannel.Delivered.returned {pc : Recv Sigid} {sent : Sigid}
    (delivered : Delivered a.sigch sent pc)
    (step : a.sigch.recvStep spurious pc = some (ch, .returned value)) : value = sent := by
  obtain ⟨_, running, _⟩ | ⟨returned, _⟩ := delivered.recv step
  · cases running
  · cases returned
    rfl

theorem SignalChannel.Delivered.entering_not_returned {pc other : Recv Sigid} {sent : Sigid}
    (delivered : Delivered a.sigch sent pc) (entering : Entering other)
    (step : a.sigch.recvStep spurious other = some (ch, .returned value)) : False := by
  cases (delivered.recv_entering entering step).2

/-- The main loop is signalled by requests and by the kill only. -/
theorem Phase.main_receives {pc : Recv Sigid} (h : Phase a (.recv pc) holder)
    (step : a.sigch.recvStep spurious pc = some (ch, .returned value)) :
    value = .active ∨ value = .goExit := by
  cases h with
  | ready _ _ listening | swapping _ _ listening =>
      cases listening with
      | recv link => exact (link.not_returned step).elim
  | activating _ _ _ listening | claimed _ _ _ listening | stopping _ _ _ listening =>
      cases listening with
      | recv link => exact (link.not_returned step).elim
  | activated _ _ delivered => exact .inl (delivered.returned step)
  | stopped _ _ delivered => exact .inr (delivered.returned step)
  | greeted _ _ delivered gone =>
      obtain same | same | ⟨wait, same, entering⟩ := gone
      · cases same
      · cases same
      · cases same
        exact (delivered.entering_not_returned entering step).elim
  | epoch _ _ _ point => exact point.elim
  | exited _ _ _ gone => simp at gone
  | dead _ _ _ gone => simp at gone
  | entering _ _ _ gone => simp at gone

/-- The kill is answered by the exiting thread only. -/
theorem Phase.kill_receives {pc : Recv Sigid} (h : Phase a cur (.kill i (.recvExitOk pc)))
    (step : a.sigch.recvStep spurious pc = some (ch, .returned value)) : value = .exitOk := by
  cases h with
  | stopped _ _ delivered entering =>
      exact (delivered.entering_not_returned entering step).elim
  | exiting _ _ link => exact (link.not_returned step).elim
  | exited _ _ delivered => exact delivered.returned step

/-- Two calls that wait to activate are counted twice. -/
theorem two_le_waiting {requests : List Request} (at_i : requests[i]? = some .casProc)
    (at_j : requests[j]? = some .casProc) (ne : i ≠ j) : 2 ≤ waiting requests := by
  have less : waiting (requests.set i (.returned 0)) + 1 = waiting requests :=
    waiting_set at_i (.returned 0)
  have other : (requests.set i (.returned 0))[j]? = some .casProc := by
    rwa [List.getElem?_set_ne ne]
  have counted : 0 < waiting (requests.set i (.returned 0)) :=
    List.countP_pos_iff.mpr ⟨_, List.mem_of_getElem? other, rfl⟩
  omega

theorem one_le_waiting {requests : List Request} (at_i : requests[i]? = some .casProc) :
    1 ≤ waiting requests :=
  List.countP_pos_iff.mpr ⟨_, List.mem_of_getElem? at_i, rfl⟩

/-- While a request sends its signal the activation is in progress. -/
theorem Phase.activation_eq_one {send : Send} (h : Phase a cur (.request i send)) :
    activation a cur = 1 := by
  cases h with
  | activating state _ _ listening =>
      have outside : cur ≠ .casIdle := by
        rintro rfl
        exact listening.not_inEpoch trivial
      exact if_pos ⟨state, outside⟩

namespace Invariant

/-- A second ticket would need more mails than a counter of 32 bits counts. -/
theorem tickets_le_one (h : Invariant s cur holder total)
    (held : s.actor.mailbox.length < 2 ^ 32) : tickets s.actor s.requests cur ≤ 1 := by
  have balance := h.account.balance
  have tight := h.account.tight
  have share : cur.undiscounted ≤ 1 := by
    cases cur <;> simp [Main.undiscounted]
  omega

theorem activating_unique (h : Invariant s cur holder total)
    (held : s.actor.mailbox.length < 2 ^ 32) {pc pc' : Request} (at_i : s.requests[i]? = some pc)
    (at_j : s.requests[j]? = some pc') (active : pc.Activating) (active' : pc'.Activating) :
    i = j := by
  have few := h.tickets_le_one held
  simp only [tickets] at few
  cases pc with
  | casProc =>
      have one := one_le_waiting at_i
      cases pc' with
      | casProc =>
          by_contra ne
          have two := two_le_waiting at_i at_j ne
          omega
      | sendActive send =>
          obtain rfl := h.control.holds.eq_request at_j
          have busy := h.control.phase.activation_eq_one
          omega
      | _ => exact active'.elim
  | sendActive send =>
      obtain rfl := h.control.holds.eq_request at_i
      have busy := h.control.phase.activation_eq_one
      cases pc' with
      | casProc =>
          have one := one_le_waiting at_j
          omega
      | sendActive send' =>
          cases h.control.holds.eq_request at_j
          rfl
      | _ => exact active'.elim
  | _ => exact active.elim

theorem noErrors (h : Invariant s cur holder total) : s.NoErrors where
  faultless := h.control.faultless
  dequeues := by
    intro mem
    obtain ⟨g, at_g⟩ := List.getElem?_of_mem mem
    obtain ⟨rfl, _⟩ := h.control.main_eq_cur at_g (by simp)
    exact h.account.mailbox_ne_nil (h.control.phase.inEpoch trivial).1
  exchanges := by
    intro mem
    obtain ⟨g, at_g⟩ := List.getElem?_of_mem mem
    obtain ⟨rfl, _⟩ := h.control.main_eq_cur at_g (by simp)
    exact (h.control.phase.inEpoch trivial).1
  mainReceives := by
    intro pc spurious ch value mem step
    obtain ⟨g, at_g⟩ := List.getElem?_of_mem mem
    obtain ⟨rfl, _⟩ := h.control.main_eq_cur at_g (by simp)
    exact h.control.phase.main_receives step
  killReceives := by
    intro pc spurious ch value mem step
    obtain ⟨i, at_i⟩ := List.getElem?_of_mem mem
    obtain rfl := h.control.holds.eq_kill at_i (fun passive => passive)
    exact h.control.phase.kill_receives step
  activates := fun held _ _ _ _ at_i at_j active active' =>
    h.activating_unique held at_i at_j active active'

end Invariant

/-- No run of requests and one kill takes an error branch of the actor. -/
theorem error_branches_unreachable
    (run : Run System.step OneKill (.constructing mailboxSize) actions s) : s.NoErrors := by
  obtain ⟨cur, holder, total, h⟩ :=
    Invariant.of_run (NoRespawn.orderly (run.mono OneKill.noRespawn))
  exact h.noErrors

theorem error_branches_unreachable_killed :
    ∃ s, Run System.step OneKill (.constructing 4) servedThenKilled s ∧ s.NoErrors := by
  have run : Run System.step OneKill (.constructing 4) servedThenKilled _ :=
    Run.of_exec (by decide)
  exact ⟨_, run, error_branches_unreachable run⟩

end Vee
