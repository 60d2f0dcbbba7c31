import Vee.Actor.Invariant

/-!
# What a request tells its caller, and in which order mails are run

The mailbox never holds more mails than it was made for, so at most that many
are counted, and below `2 ^ 31` of them the counter is never negative: the sign
of the result tells whether the mail was accepted. Mails are accepted at the
end of the record of those accepted before, so two requests of which one returns
before the other is called keep their order, whoever else sends mails.
-/

namespace Vee

open SignalChannel Transition

variable {s t : System} {cur : Main} {holder : Holder} {total mailboxSize i : Nat}
variable {actions later : List Action} {spurious : Bool}

namespace Actor

variable {a a' : Actor}

theorem requestStep_queueSize {mail : Mail} {pc pc' : Request}
    (h : a.requestStep mail spurious pc = some (a', pc')) : a'.queueSize = a.queueSize := by
  cases pc with
  | enqueue | casProc =>
      simp only [requestStep] at h
      split at h <;> obtain ⟨rfl, rfl⟩ := Prod.mk.inj (Option.some.inj h) <;> rfl
  | sendActive send =>
      obtain ⟨sigch, rfl, _⟩ := trySendLoop_inv (Option.some.inj h)
      rfl
  | checkWorkable | checkDead | count =>
      obtain ⟨rfl, rfl⟩ := Prod.mk.inj (Option.some.inj h)
      rfl
  | returned => simp [requestStep] at h
  | threw => simp [requestStep] at h

theorem killStep_queueSize {pc pc' : Kill} (h : a.killStep spurious pc = some (a', pc')) :
    a'.queueSize = a.queueSize := by
  cases pc with
  | casDead | detach =>
      simp only [killStep] at h
      split at h <;> obtain ⟨rfl, rfl⟩ := Prod.mk.inj (Option.some.inj h) <;> rfl
  | storeWorkable =>
      obtain ⟨rfl, rfl⟩ := Prod.mk.inj (Option.some.inj h)
      rfl
  | sendGoExit send =>
      obtain ⟨sigch, rfl, _⟩ := trySendLoop_inv (Option.some.inj h)
      rfl
  | recvExitOk ack =>
      obtain ⟨sigch, rfl, _⟩ := recvCall_inv h
      rfl
  | returned => simp [killStep] at h
  | threw => simp [killStep] at h

theorem spawnStep_queueSize {fresh : Nat} {pc pc' : Spawn}
    (h : a.spawnStep fresh spurious pc = some (a', pc')) : a'.queueSize = a.queueSize := by
  cases pc with
  | casSpawn | swap =>
      simp only [spawnStep] at h
      split at h <;> obtain ⟨rfl, rfl⟩ := Prod.mk.inj (Option.some.inj h) <;> rfl
  | start =>
      obtain ⟨rfl, rfl⟩ := Prod.mk.inj (Option.some.inj h)
      rfl
  | recvSpawn t ack =>
      obtain ⟨sigch, rfl, _⟩ := recvCall_inv h
      rfl
  | returned => simp [spawnStep] at h
  | threw => simp [spawnStep] at h

/-- A thread takes mails from the front of the mailbox and accepts none. -/
theorem mainStep_mailbox {pc pc' : Main} (h : a.mainStep spurious pc = some (a', pc')) :
    a'.queueSize = a.queueSize ∧ a'.mailbox <:+ a.mailbox ∧ a'.accepted = a.accepted := by
  cases pc with
  | checkSpawn | casIdle =>
      simp only [mainStep] at h
      split at h <;> obtain ⟨rfl, rfl⟩ := Prod.mk.inj (Option.some.inj h)
      all_goals exact ⟨rfl, List.suffix_rfl, rfl⟩
  | dequeue =>
      simp only [mainStep] at h
      split at h <;> obtain ⟨rfl, rfl⟩ := Prod.mk.inj (Option.some.inj h)
      · exact ⟨rfl, List.suffix_rfl, rfl⟩
      · rename_i job rest mailbox
        exact ⟨rfl, mailbox ▸ List.suffix_cons job rest, rfl⟩
  | sendSpawn send | sendExitOk send =>
      obtain ⟨sigch, rfl, _⟩ := trySendLoop_inv (Option.some.inj h)
      exact ⟨rfl, List.suffix_rfl, rfl⟩
  | recv wait =>
      obtain ⟨sigch, rfl, _⟩ := recvCall_inv h
      exact ⟨rfl, List.suffix_rfl, rfl⟩
  | storeLoaded | storeIdle | storeWorkable | run | uncount | storeDead =>
      obtain ⟨rfl, rfl⟩ := Prod.mk.inj (Option.some.inj h)
      exact ⟨rfl, List.suffix_rfl, rfl⟩
  | ended => simp [mainStep] at h
  | threw => simp [mainStep] at h

/-- A request accepts its own mail or none, within the bound of the mailbox. -/
theorem requestStep_accepted {mail : Mail} {pc pc' : Request}
    (h : a.requestStep mail spurious pc = some (a', pc')) :
    a'.accepted = a.accepted ∧ a'.mailbox = a.mailbox ∨
      a'.accepted = a.accepted ++ [mail] ∧ a'.mailbox = a.mailbox ++ [mail] ∧
        a.mailbox.length ≠ a.queueSize ∧ pc' = .count := by
  cases pc with
  | enqueue =>
      simp only [requestStep] at h
      split at h <;> obtain ⟨rfl, rfl⟩ := Prod.mk.inj (Option.some.inj h)
      · exact .inl ⟨rfl, rfl⟩
      · exact .inr ⟨rfl, rfl, ‹_›, rfl⟩
  | casProc =>
      simp only [requestStep] at h
      split at h <;> obtain ⟨rfl, rfl⟩ := Prod.mk.inj (Option.some.inj h)
      all_goals exact .inl ⟨rfl, rfl⟩
  | sendActive send =>
      obtain ⟨sigch, rfl, _⟩ := trySendLoop_inv (Option.some.inj h)
      exact .inl ⟨rfl, rfl⟩
  | checkWorkable | checkDead | count =>
      obtain ⟨rfl, rfl⟩ := Prod.mk.inj (Option.some.inj h)
      exact .inl ⟨rfl, rfl⟩
  | returned => simp [requestStep] at h
  | threw => simp [requestStep] at h

end Actor

instance (s : System) (a : Action) : Decidable (Orderly s a) :=
  match a with
  | .callRequest | .callKill => inferInstanceAs (Decidable (Pool.All (·.finished) s.spawns))
  | .callRespawn => inferInstanceAs (Decidable (Pool.All (·.finished) s.requests ∧
      Pool.All (·.finished) s.kills ∧ Pool.All (·.finished) s.spawns))
  | .spawn i _ => inferInstanceAs (Decidable (s.spawns[i]? = some .casSpawn →
      s.actor.state = .dead → Pool.All (· = .ended) s.mains))
  | .request _ _ | .kill _ _ | .main _ _ => inferInstanceAs (Decidable True)

/-- No more mails are in the mailbox than it was made for. -/
def System.WithinBounds (mailboxSize : Nat) (s : System) : Prop :=
  s.actor.queueSize = mailboxSize ∧ s.actor.mailbox.length ≤ mailboxSize

theorem System.WithinBounds.step {action : Action} (h : s.WithinBounds mailboxSize)
    (enabled : s.step action = some t) : t.WithinBounds mailboxSize := by
  obtain ⟨size, bound⟩ := h
  cases action with
  | callRequest | callKill | callRespawn =>
      obtain rfl := Option.some.inj enabled
      exact ⟨size, bound⟩
  | request i spurious =>
      obtain ⟨pc, a', pc', _, taken, rfl⟩ := System.step_request enabled
      refine ⟨(Actor.requestStep_queueSize taken).trans size, ?_⟩
      obtain ⟨_, same⟩ | ⟨_, grown, room, _⟩ := Actor.requestStep_accepted taken
      · rw [same]
        exact bound
      · rw [grown, List.length_append, List.length_singleton]
        omega
  | kill i spurious =>
      obtain ⟨pc, a', pc', _, taken, rfl⟩ := System.step_kill enabled
      refine ⟨(Actor.killStep_queueSize taken).trans size, ?_⟩
      rw [(Actor.killStep_frame taken).1.mailbox]
      exact bound
  | spawn i spurious =>
      obtain ⟨pc, a', pc', _, taken, rfl⟩ := System.step_spawn enabled
      refine ⟨(Actor.spawnStep_queueSize taken).trans size, ?_⟩
      rw [(Actor.spawnStep_frame taken).1.mailbox]
      exact bound
  | main i spurious =>
      obtain ⟨pc, a', pc', _, taken, rfl⟩ := System.step_main enabled
      obtain ⟨sameSize, fewer, _⟩ := Actor.mainStep_mailbox taken
      exact ⟨sameSize.trans size, Nat.le_trans fewer.length_le bound⟩

/-- The bound holds in every run, whoever uses the actor. -/
theorem System.WithinBounds.of_run {guard : System → Action → Prop}
    (run : Run System.step guard (.constructing mailboxSize) actions s) :
    s.WithinBounds mailboxSize :=
  run.invariant (I := (·.WithinBounds mailboxSize)) ⟨rfl, Nat.zero_le _⟩
    fun _ _ _ inside _ enabled => inside.step enabled

/-- The result of a request is negative if and only if its mail was not accepted,
and no result counts more mails than fit into the mailbox. -/
def System.Truthful (s : System) : Prop :=
  ∀ (mail : Nat) result, s.requests[mail]? = some (.returned result) →
    (result = -1 ∨ result = -2) ∧ mail ∉ s.actor.accepted ∨
      0 ≤ result ∧ result ≤ s.actor.queueSize ∧ mail ∈ s.actor.accepted

namespace Invariant

/-- What a request that has accepted its mail finds in the counter. -/
theorem counter_bounds (h : Invariant s cur holder total) (bounds : s.WithinBounds mailboxSize)
    (at_i : s.requests[i]? = some .count) (small : mailboxSize < 2 ^ 31) :
    0 ≤ s.actor.mailboxCounter.toInt ∧ s.actor.mailboxCounter.toInt ≤ s.actor.queueSize := by
  have owed : 0 < pending s.requests :=
    List.countP_pos_iff.mpr ⟨_, List.mem_of_getElem? at_i, rfl⟩
  have balance := h.account.balance
  have share : cur.undiscounted ≤ 1 := by cases cur <;> simp [Main.undiscounted]
  obtain ⟨size, bound⟩ := bounds
  have counted : total ≤ mailboxSize := by omega
  have counter : s.actor.mailboxCounter.toInt = total := by
    rw [h.account.counter, BitVec.toInt_ofNat', Int.bmod_def]
    omega
  rw [counter, size]
  omega

/-- A request step keeps the results truthful. -/
theorem truthful_request {pc pc' : Request} {a' : Actor} (h : Invariant s cur holder total)
    (bounds : s.WithinBounds mailboxSize) (small : mailboxSize < 2 ^ 31) (truthful : s.Truthful)
    (at_i : s.requests[i]? = some pc)
    (step : s.actor.requestStep i spurious pc = some (a', pc')) :
    System.Truthful { s with actor := a', requests := s.requests.set i pc' } := by
  have bound := (List.getElem?_eq_some_iff.mp at_i).1
  have size := Actor.requestStep_queueSize step
  have fresh : pc.Before → i ∉ s.actor.accepted := by
    intro before mem
    obtain ⟨pc'', at_i', past⟩ := h.history.began i mem
    obtain rfl := Option.some.inj (at_i.symm.trans at_i')
    exact past before
  intro mail result at_mail
  change (s.requests.set i pc')[mail]? = _ at at_mail
  change _ ∧ mail ∉ a'.accepted ∨ 0 ≤ result ∧ result ≤ a'.queueSize ∧ mail ∈ a'.accepted
  rw [size]
  by_cases same : i = mail
  · subst same
    rw [List.getElem?_set_self bound] at at_mail
    obtain rfl := Option.some.inj at_mail
    obtain ⟨accepted, _⟩ | ⟨_, _, _, impossible⟩ := Actor.requestStep_accepted step
    · rw [accepted]
      cases pc with
      | checkWorkable | checkDead =>
          obtain ⟨_, returned⟩ := Prod.mk.inj (Option.some.inj step)
          split at returned <;> cases returned
          exact .inl ⟨.inl rfl, fresh trivial⟩
      | enqueue =>
          simp only [Actor.requestStep] at step
          split at step <;> cases (Prod.mk.inj (Option.some.inj step)).2
          exact .inl ⟨.inr rfl, fresh trivial⟩
      | count =>
          obtain ⟨_, returned⟩ := Prod.mk.inj (Option.some.inj step)
          split at returned <;> cases returned
          obtain ⟨low, high⟩ := h.counter_bounds bounds at_i small
          exact .inr ⟨low, high, h.history.enqueued i _ at_i trivial⟩
      | casProc =>
          simp only [Actor.requestStep] at step
          split at step <;> cases (Prod.mk.inj (Option.some.inj step)).2
      | sendActive send =>
          obtain ⟨_, _, ⟨_, returned⟩ | returned | ⟨_, returned⟩⟩ :=
            Actor.trySendLoop_inv (Option.some.inj step)
          all_goals cases returned
          exact .inr ⟨Int.le_refl 0, Int.natCast_nonneg _,
            h.history.enqueued i _ at_i trivial⟩
      | returned => simp [Actor.requestStep] at step
      | threw => simp [Actor.requestStep] at step
    · cases impossible
  · rw [List.getElem?_set_ne same] at at_mail
    have before := truthful mail result at_mail
    obtain ⟨accepted, _⟩ | ⟨grown, _⟩ := Actor.requestStep_accepted step
    · rw [accepted]
      exact before
    · rw [grown, List.mem_append, List.mem_singleton, or_iff_left (Ne.symm same)]
      exact before

/-- Every orderly step does. -/
theorem truthful_step {action : Action} (h : Invariant s cur holder total)
    (bounds : s.WithinBounds mailboxSize) (small : mailboxSize < 2 ^ 31) (truthful : s.Truthful)
    (enabled : s.step action = some t) : t.Truthful := by
  have kept : ∀ {a' : Actor}, a'.queueSize = s.actor.queueSize →
      a'.accepted = s.actor.accepted → ∀ {kills spawns mains},
      System.Truthful { actor := a', requests := s.requests, kills, spawns, mains } := by
    intro a' size accepted kills spawns mains mail result at_mail
    change _ ∧ mail ∉ a'.accepted ∨ 0 ≤ result ∧ result ≤ a'.queueSize ∧ mail ∈ a'.accepted
    rw [size, accepted]
    exact truthful mail result at_mail
  cases action with
  | callRequest =>
      obtain rfl := Option.some.inj enabled
      intro mail result at_mail
      have inside : mail < s.requests.length := by
        by_contra outside
        rw [List.getElem?_append_right (Nat.not_lt.mp outside), List.getElem?_singleton] at at_mail
        split at at_mail <;> cases at_mail
      rw [List.getElem?_append_left inside] at at_mail
      exact truthful mail result at_mail
  | callKill | callRespawn =>
      obtain rfl := Option.some.inj enabled
      exact kept rfl rfl
  | request i spurious =>
      obtain ⟨pc, a', pc', at_i, taken, rfl⟩ := System.step_request enabled
      exact h.truthful_request bounds small truthful at_i taken
  | kill i spurious =>
      obtain ⟨pc, a', pc', _, taken, rfl⟩ := System.step_kill enabled
      exact kept (Actor.killStep_queueSize taken) (Actor.killStep_frame taken).1.accepted
  | spawn i spurious =>
      obtain ⟨pc, a', pc', _, taken, rfl⟩ := System.step_spawn enabled
      exact kept (Actor.spawnStep_queueSize taken) (Actor.spawnStep_frame taken).1.accepted
  | main i spurious =>
      obtain ⟨pc, a', pc', _, taken, rfl⟩ := System.step_main enabled
      exact kept (Actor.mainStep_mailbox taken).1 (Actor.mainStep_mailbox taken).2.2

/-- The results are truthful after every orderly run. -/
theorem truthful_of_run (run : Run System.step Orderly (.constructing mailboxSize) actions s)
    (small : mailboxSize < 2 ^ 31) : s.Truthful := by
  refine run.invariant_along (I := System.Truthful) ?_ ?_
  · intro mail result at_mail
    cases at_mail
  · intro bs u a v before truthful _ enabled
    obtain ⟨cur, holder, total, h⟩ := Invariant.of_run before
    exact h.truthful_step (.of_run before) small truthful enabled

end Invariant

/-- In every orderly run the mailbox stays within its size, and the sign of a
result tells whether the mail was accepted. -/
theorem request_result_tells
    (run : Run System.step Orderly (.constructing mailboxSize) actions s)
    (small : mailboxSize < 2 ^ 31) :
    s.actor.mailbox.length ≤ mailboxSize ∧ ∀ (mail : Nat) result,
      s.requests[mail]? = some (.returned result) →
        (result = -1 ∨ result = -2) ∧ mail ∉ s.actor.accepted ∨
          0 ≤ result ∧ result ≤ mailboxSize ∧ mail ∈ s.actor.accepted := by
  obtain ⟨size, bound⟩ := System.WithinBounds.of_run run
  refine ⟨bound, ?_⟩
  rw [← size]
  exact Invariant.truthful_of_run run small

/-- The first of two mails fills the mailbox. -/
def mailboxFilled : List Action :=
  System.constructorActions ++ [.callRequest, .callRequest] ++
    List.replicate 4 (.request 0 false) ++ List.replicate 3 (.request 1 false)

theorem request_result_tells_filled :
    ∃ s, Run System.step Orderly (.constructing 1) mailboxFilled s ∧
      s.requests[1]? = some (.returned (-2)) ∧ s.actor.mailbox.length ≤ 1 ∧
      1 ∉ s.actor.accepted := by
  obtain ⟨s, run, refused⟩ : ∃ s, Run System.step Orderly (.constructing 1) mailboxFilled s ∧
      s.requests[1]? = some (.returned (-2)) := ⟨_, Run.of_exec (by decide), by decide⟩
  obtain ⟨bound, results⟩ := request_result_tells run (by decide)
  obtain ⟨_, out⟩ | ⟨impossible, _⟩ := results 1 (-2) refused
  · exact ⟨s, run, refused, bound, out⟩
  · cases impossible

end Vee
