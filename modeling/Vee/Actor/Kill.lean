import Mathlib.Data.List.Nodup
import Vee.Actor.Mailbox

/-!
# Mails that a kill strands

A kill takes the actor out of IDLE as soon as it can, and from then on no mail
is run. Between the last increment that activates the actor and the activation
itself the actor is IDLE with mails in its mailbox, and other callers may have
been told that theirs were accepted. So a kill loses a mail exactly when its
exchange finds such a mail in the mailbox, or a caller is told afterwards; in
runs without these two kinds of step it loses none.
-/

namespace Vee

open SignalChannel Transition

variable {s t : System} {cur : Main} {holder : Holder} {total mailboxSize i : Nat}
variable {actions : List Action} {spurious : Bool}

/-- The call has told its caller that the mail was accepted. -/
def Request.told : Request → Bool
  | .returned result => decide (0 ≤ result)
  | _ => false

def System.told (s : System) (mail : Mail) : Bool := s.requests[mail]?.any (·.told)

/-- Every mail that was reported as accepted has been run exactly once. -/
def System.Lossless (s : System) : Prop :=
  ∀ mail result, s.requests[mail]? = some (.returned result) → 0 ≤ result →
    s.actor.ran.count mail = 1

/-- Any number of requests and one kill, called after the constructor has returned. -/
def OneKill (s : System) : Action → Prop
  | .callRequest => Pool.All (·.finished) s.spawns
  | .callKill => Pool.All (·.finished) s.spawns ∧ s.kills = []
  | .callRespawn => False
  | _ => True

/-- Moreover the exchange of the kill finds no reported mail in the mailbox, and
while the actor is DEAD no `_mailbox_counter++` reports a mail still in there. -/
def DrainedKill (s : System) : Action → Prop
  | .kill i _ => s.kills[i]? = some .casDead → s.actor.state = .idle →
      ∀ mail ∈ s.actor.mailbox, s.told mail = false
  | .request i _ => s.requests[i]? = some .count → s.actor.state = .dead → i ∈ s.actor.mailbox →
      ¬ 0 < s.actor.mailboxCounter.toInt
  | action => OneKill s action

instance (s : System) (a : Action) : Decidable (OneKill s a) :=
  match a with
  | .callRequest => inferInstanceAs (Decidable (Pool.All (·.finished) s.spawns))
  | .callKill => inferInstanceAs (Decidable (Pool.All (·.finished) s.spawns ∧ s.kills = []))
  | .callRespawn => inferInstanceAs (Decidable False)
  | .request _ _ | .kill _ _ | .spawn _ _ | .main _ _ => inferInstanceAs (Decidable True)

instance (s : System) (a : Action) : Decidable (DrainedKill s a) :=
  match a with
  | .kill i _ => inferInstanceAs (Decidable (s.kills[i]? = some .casDead →
      s.actor.state = .idle → ∀ mail ∈ s.actor.mailbox, s.told mail = false))
  | .request i _ => inferInstanceAs (Decidable (s.requests[i]? = some .count →
      s.actor.state = .dead → i ∈ s.actor.mailbox → ¬ 0 < s.actor.mailboxCounter.toInt))
  | .callRequest => inferInstanceAs (Decidable (OneKill s .callRequest))
  | .callKill => inferInstanceAs (Decidable (OneKill s .callKill))
  | .callRespawn => inferInstanceAs (Decidable (OneKill s .callRespawn))
  | .spawn i spurious => inferInstanceAs (Decidable (OneKill s (.spawn i spurious)))
  | .main i spurious => inferInstanceAs (Decidable (OneKill s (.main i spurious)))

theorem OneKill.noRespawn (s : System) (a : Action) (h : OneKill s a) : NoRespawn s a := by
  cases a with
  | callRequest => exact h
  | callKill => exact h.1
  | callRespawn => exact h
  | _ => trivial

theorem DrainedKill.oneKill (s : System) (a : Action) (h : DrainedKill s a) : OneKill s a := by
  cases a with
  | request => trivial
  | kill => trivial
  | _ => exact h

/-- A dead actor holds no mail that was reported as accepted. -/
def System.NoneReported (s : System) : Prop :=
  s.actor.state = .dead → ∀ mail ∈ s.actor.mailbox, s.told mail = false

/-- A request adds at most its own mail, before it can report it. -/
theorem Actor.requestStep_mailbox {a a' : Actor} {mail : Mail} {pc pc' : Request}
    (h : a.requestStep mail spurious pc = some (a', pc')) :
    a'.mailbox = a.mailbox ∨ a'.mailbox = a.mailbox ++ [mail] ∧ pc'.told = false := by
  cases pc with
  | enqueue =>
      simp only [requestStep] at h
      split at h <;> obtain ⟨rfl, rfl⟩ := Prod.mk.inj (Option.some.inj h)
      · exact .inl rfl
      · exact .inr ⟨rfl, rfl⟩
  | casProc =>
      simp only [requestStep] at h
      split at h <;> obtain ⟨rfl, rfl⟩ := Prod.mk.inj (Option.some.inj h)
      all_goals exact .inl rfl
  | sendActive send =>
      obtain ⟨sigch, rfl, _⟩ := trySendLoop_inv (Option.some.inj h)
      exact .inl rfl
  | checkWorkable | checkDead | count =>
      obtain ⟨rfl, rfl⟩ := Prod.mk.inj (Option.some.inj h)
      exact .inl rfl
  | returned => simp [requestStep] at h
  | threw => simp [requestStep] at h

/-- The only report of a mail while the actor is not activated is made by the
increment, of a counter above 0. -/
theorem Actor.requestStep_told {a a' : Actor} {mail : Mail} {pc pc' : Request}
    (h : a.requestStep mail spurious pc = some (a', pc')) (told : pc'.told = true)
    (outside : ∀ send, pc ≠ .sendActive send) : pc = .count ∧ 0 < a.mailboxCounter.toInt := by
  cases pc with
  | sendActive send => exact absurd rfl (outside send)
  | count =>
      obtain ⟨rfl, rfl⟩ := Prod.mk.inj (Option.some.inj h)
      refine ⟨rfl, ?_⟩
      split at told
      · cases told
      · rename_i nonzero
        have reported : 0 ≤ a.mailboxCounter.toInt := of_decide_eq_true told
        have differs : a.mailboxCounter.toInt ≠ 0 := by
          intro zero
          exact nonzero (BitVec.eq_of_toInt_eq (by simpa using zero))
        omega
  | checkWorkable | checkDead =>
      obtain ⟨rfl, rfl⟩ := Prod.mk.inj (Option.some.inj h)
      split at told <;> cases told
  | enqueue | casProc =>
      simp only [requestStep] at h
      split at h <;> obtain ⟨rfl, rfl⟩ := Prod.mk.inj (Option.some.inj h) <;> cases told
  | returned => simp [requestStep] at h
  | threw => simp [requestStep] at h

theorem System.told_set {requests : List Request} {pc pc' : Request} {mail : Mail}
    (at_i : requests[i]? = some pc) :
    (requests.set i pc')[mail]?.any (·.told) =
      if mail = i then pc'.told else requests[mail]?.any (·.told) := by
  have bound := (List.getElem?_eq_some_iff.mp at_i).1
  split
  · rename_i same
    rw [same, List.getElem?_set_self bound]
    rfl
  · rename_i ne
    rw [List.getElem?_set_ne (Ne.symm ne)]

namespace Invariant

/-- A request step reports no mail of a dead actor, under the guard. -/
theorem noneReported_request (h : Invariant s cur holder total) (none : s.NoneReported)
    {pc pc' : Request} {a' : Actor} (admitted : DrainedKill s (.request i spurious))
    (at_i : s.requests[i]? = some pc)
    (step : s.actor.requestStep i spurious pc = some (a', pc')) :
    System.NoneReported { s with actor := a', requests := s.requests.set i pc' } := by
  have mailbox := Actor.requestStep_mailbox step
  intro dead mail mem
  have before : s.actor.state = .dead := by
    obtain same | proc := Actor.requestStep_state step
    · exact same.symm.trans dead
    · exact absurd (proc.symm.trans dead) (by decide)
  have outside : ∀ send, pc ≠ .sendActive send := by
    rintro send rfl
    obtain rfl := h.control.holds.eq_request at_i
    cases h.control.phase with
    | activating proc => simp [before] at proc
  change (s.requests.set i pc')[mail]?.any (·.told) = false
  rw [System.told_set at_i]
  split
  · rename_i same
    subst same
    obtain kept | ⟨_, untold⟩ := mailbox
    · by_contra told
      obtain ⟨rfl, positive⟩ := Actor.requestStep_told step (by simpa using told) outside
      exact admitted at_i before (kept ▸ mem) positive
    · exact untold
  · rename_i ne
    refine none before mail ?_
    obtain kept | ⟨grown, _⟩ := mailbox
    · exact kept ▸ mem
    · have old : mail ∈ s.actor.mailbox ++ [i] := grown ▸ mem
      obtain old | new := List.mem_append.mp old
      · exact old
      · exact absurd (List.mem_singleton.mp new) ne

/-- Every step under the guard leaves a dead actor without reported mails. -/
theorem noneReported_step {action : Action} (h : Invariant s cur holder total)
    (none : s.NoneReported) (admitted : DrainedKill s action) (enabled : s.step action = some t) :
    t.NoneReported := by
  cases action with
  | callRequest =>
      obtain rfl := Option.some.inj enabled
      intro dead mail mem
      have accepted : mail ∈ s.actor.accepted := by
        rw [h.history.order]
        exact List.mem_append_right _ (List.mem_append_right _ mem)
      obtain ⟨pc, at_mail, _⟩ := h.history.began mail accepted
      have bound := (List.getElem?_eq_some_iff.mp at_mail).1
      have untold := none dead mail mem
      change (s.requests ++ [.checkWorkable])[mail]?.any (·.told) = false
      rw [List.getElem?_append_left bound]
      exact untold
  | callKill =>
      obtain rfl := Option.some.inj enabled
      exact none
  | callRespawn => exact admitted.elim
  | request i spurious =>
      obtain ⟨pc, a', pc', at_i, taken, rfl⟩ := System.step_request enabled
      exact h.noneReported_request none admitted at_i taken
  | kill i spurious =>
      obtain ⟨pc, a', pc', at_i, taken, rfl⟩ := System.step_kill enabled
      obtain ⟨mails, state⟩ := Actor.killStep_frame taken
      intro dead mail mem
      have mem' : mail ∈ s.actor.mailbox := mails.mailbox ▸ mem
      obtain same | ⟨rfl, idle, _⟩ := state
      · exact none (same.symm.trans dead) mail mem'
      · exact admitted at_i idle mail mem'
  | spawn i spurious =>
      obtain ⟨pc, a', pc', at_i, taken, rfl⟩ := System.step_spawn enabled
      obtain ⟨mails, state⟩ := Actor.spawnStep_frame taken
      intro dead mail mem
      obtain same | ⟨_, starting⟩ := state
      · exact none (same.symm.trans dead) mail (mails.mailbox ▸ mem)
      · exact absurd (starting.symm.trans dead) (by decide)
  | main i spurious =>
      obtain ⟨pc, a', pc', at_i, taken, rfl⟩ := System.step_main enabled
      obtain ⟨kept, state⟩ := Actor.mainStep_frame taken
      intro dead mail mem
      refine none ?_ mail (kept mail mem)
      obtain before | rfl := state dead
      · exact before
      · obtain ⟨rfl, _⟩ := h.main at_i taken
        exact h.control.phase.dead_of_storeDead

end Invariant

/-- At the moment the kill returns, every mail whose request has returned a
value of at least 0 has been run exactly once. -/
theorem kill_loses_no_reported_mail
    (run : Run System.step DrainedKill (.constructing mailboxSize) actions s)
    (step : s.step (.kill 0 spurious) = some t) (returns : t.kills[0]? = some (.returned true)) :
    t.Lossless := by
  have invariant : ∀ {bs u}, Run System.step DrainedKill (.constructing mailboxSize) bs u →
      ∃ cur holder total, Invariant u cur holder total := by
    intro bs u before
    exact Invariant.of_run
      (NoRespawn.orderly ((before.mono DrainedKill.oneKill).mono OneKill.noRespawn))
  have none : s.NoneReported := by
    refine run.invariant_along (by intro dead; cases dead) ?_
    intro bs u a v before inside admitted enabled
    obtain ⟨cur, holder, total, h⟩ := invariant before
    exact h.noneReported_step inside admitted enabled
  obtain ⟨cur, holder, total, h⟩ := invariant run
  obtain ⟨pc, a', pc', at_0, taken, rfl⟩ := System.step_kill step
  have bound := (List.getElem?_eq_some_iff.mp at_0).1
  obtain rfl : pc' = .returned true := by simpa [bound] using returns
  obtain ⟨dead, gone⟩ := h.kill_returns at_0 taken
  have job : cur.job = [] := by obtain rfl | rfl := gone <;> rfl
  intro mail result at_mail reported
  have accepted := h.history.enqueued mail _ at_mail reported
  have left : mail ∉ s.actor.mailbox := by
    intro mem
    have untold := none dead mail mem
    simp [System.told, at_mail, Request.told, reported] at untold
  have ran : mail ∈ s.actor.ran := by
    rw [h.history.order, job] at accepted
    simpa [left] using accepted
  have once : s.actor.ran.Nodup := h.history.nodup.sublist h.history.ran_isPrefix.sublist
  change a'.ran.count mail = 1
  rw [(Actor.killStep_frame taken).1.ran]
  exact List.count_eq_one_of_mem once ran

/-- A request that is run before the kill begins. -/
def servedThenKilled : List Action :=
  System.constructorActions ++ [.callRequest] ++ List.replicate 5 (.request 0 false) ++
    List.replicate 3 (.main 0 false) ++ List.replicate 3 (.request 0 false) ++
    List.replicate 10 (.main 0 false) ++ [.callKill] ++ List.replicate 6 (.kill 0 false) ++
    List.replicate 3 (.main 0 false) ++ List.replicate 3 (.kill 0 false) ++
    List.replicate 3 (.main 0 false) ++ List.replicate 2 (.kill 0 false)

theorem kill_loses_no_reported_mail_served :
    ∃ s t, Run System.step DrainedKill (.constructing 4) servedThenKilled s ∧
      s.step (.kill 0 false) = some t ∧ t.requests = [.returned 0] ∧ t.Lossless := by
  obtain ⟨s, t, run, step, requests, returns⟩ : ∃ s t,
      Run System.step DrainedKill (.constructing 4) servedThenKilled s ∧
        s.step (.kill 0 false) = some t ∧ t.requests = [.returned 0] ∧
        t.kills[0]? = some (.returned true) := Run.of_exec_step _ (by decide)
  exact ⟨s, t, run, step, requests, kill_loses_no_reported_mail run step returns⟩

/-- The second of two requests is told that its mail is accepted, and the kill
takes the actor out of IDLE before the first one does. -/
def killBeforeActivation : List Action :=
  System.constructorActions ++ List.replicate 3 (.main 0 false) ++
    [.callRequest, .callRequest, .callKill] ++ List.replicate 4 (.request 0 false) ++
    List.replicate 4 (.request 1 false) ++ List.replicate 6 (.kill 0 false) ++
    List.replicate 3 (.main 0 false) ++ List.replicate 3 (.kill 0 false) ++
    List.replicate 3 (.main 0 false) ++ List.replicate 2 (.kill 0 false)

theorem kill_loses_reported_mail :
    ¬ ∀ mailboxSize actions s t spurious,
      Run System.step OneKill (.constructing mailboxSize) actions s →
      s.step (.kill 0 spurious) = some t → t.kills[0]? = some (.returned true) → t.Lossless := by
  intro lossless
  obtain ⟨s, t, run, step, returns, reported, unrun⟩ : ∃ s t,
      Run System.step OneKill (.constructing 4) killBeforeActivation s ∧
        s.step (.kill 0 false) = some t ∧ t.kills[0]? = some (.returned true) ∧
        t.requests[1]? = some (.returned 1) ∧ t.actor.ran.count 1 ≠ 1 :=
    Run.of_exec_step _ (by decide)
  exact unrun (lossless _ _ _ _ _ run step returns 1 1 reported (by decide))

end Vee
