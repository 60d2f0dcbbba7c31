import Vee.Actor.Account

/-!
# The mails accepted and run

`History` relates the two history variables to the mailbox: the mails accepted
so far are those run, the one at hand and those in the mailbox, in this order.
A request call has its mail accepted at most once.
-/

namespace Vee

open SignalChannel

/-- The mail at hand, dequeued but not run. -/
def Main.job : Main → List Mail
  | .run job => [job]
  | _ => []

/-- The call has not reached the end of its enqueue. -/
def Request.Before : Request → Prop
  | .checkWorkable => True
  | .checkDead => True
  | .enqueue => True
  | _ => False

/-- The call's enqueue has succeeded. A returned count below 0 does not tell,
since the counter may have wrapped. -/
def Request.Accepted : Request → Prop
  | .count => True
  | .casProc => True
  | .sendActive _ => True
  | .returned result => 0 ≤ result
  | _ => False

structure History (a : Actor) (requests : List Request) (cur : Main) : Prop where
  order : a.accepted = a.ran ++ (cur.job ++ a.mailbox)
  nodup : a.accepted.Nodup
  enqueued : ∀ i pc, requests[i]? = some pc → pc.Accepted → i ∈ a.accepted
  began : ∀ i ∈ a.accepted, ∃ pc, requests[i]? = some pc ∧ ¬ pc.Before

variable {a a' : Actor} {requests : List Request} {cur cur' : Main} {holder : Holder}
variable {total i : Nat} {spurious : Bool}

namespace History

/-- No mail is run twice, and mails are run in the order of the mailbox. -/
theorem ran_isPrefix (h : History a requests cur) : a.ran <+: a.accepted :=
  ⟨_, h.order.symm⟩

/-- The history only depends on the mailbox, the two records and the mail at hand. -/
theorem congr (h : History a requests cur) (accepted : a'.accepted = a.accepted)
    (ran : a'.ran = a.ran) (rest : cur'.job ++ a'.mailbox = cur.job ++ a.mailbox) :
    History a' requests cur' where
  order := by rw [accepted, ran, rest]; exact h.order
  nodup := accepted ▸ h.nodup
  enqueued := by rw [accepted]; exact h.enqueued
  began := by rw [accepted]; exact h.began

/-- A request step outside the enqueue keeps the class of the call. -/
theorem request_quiet {pc pc' : Request} (h : History a requests cur)
    (at_i : requests[i]? = some pc) (accepted : a'.accepted = a.accepted) (ran : a'.ran = a.ran)
    (mailbox : a'.mailbox = a.mailbox) (accepts : pc'.Accepted → pc.Accepted)
    (before : pc'.Before → pc.Before) : History a' (requests.set i pc') cur := by
  have bound := (List.getElem?_eq_some_iff.mp at_i).1
  refine ⟨by rw [accepted, ran, mailbox]; exact h.order, accepted ▸ h.nodup, ?_, ?_⟩
  · intro j pc'' at_j
    rw [accepted]
    by_cases same : i = j
    · subst same
      rw [List.getElem?_set_self bound] at at_j
      obtain rfl := Option.some.inj at_j
      exact fun acc => h.enqueued i pc at_i (accepts acc)
    · rw [List.getElem?_set_ne same] at at_j
      exact h.enqueued j pc'' at_j
  · intro j mem
    rw [accepted] at mem
    obtain ⟨pc'', at_j, past⟩ := h.began j mem
    by_cases same : i = j
    · subst same
      obtain rfl := Option.some.inj (at_i.symm.trans at_j)
      exact ⟨pc', List.getElem?_set_self bound, mt before past⟩
    · exact ⟨pc'', by rw [List.getElem?_set_ne same]; exact at_j, past⟩

/-- A successful enqueue records a mail that was not recorded before. -/
theorem enqueue (h : History a requests cur) (at_i : requests[i]? = some .enqueue) :
    History { a with mailbox := a.mailbox ++ [i], accepted := a.accepted ++ [i] }
      (requests.set i .count) cur := by
  have bound := (List.getElem?_eq_some_iff.mp at_i).1
  have fresh : i ∉ a.accepted := by
    intro mem
    obtain ⟨pc, at_i', past⟩ := h.began i mem
    obtain rfl := Option.some.inj (at_i.symm.trans at_i')
    exact past trivial
  refine ⟨by simp [h.order], ?_, ?_, ?_⟩
  · simpa [List.nodup_append, h.nodup] using fun j mem => ne_of_mem_of_not_mem mem fresh
  · intro j pc at_j acc
    by_cases same : i = j
    · simp [same]
    · rw [List.getElem?_set_ne same] at at_j
      exact List.mem_append_left _ (h.enqueued j pc at_j acc)
  · intro j mem
    by_cases same : i = j
    · subst same
      exact ⟨.count, List.getElem?_set_self bound, fun before => before⟩
    · have old : j ∈ a.accepted := by
        obtain old | new := List.mem_append.mp mem
        · exact old
        · exact absurd (List.mem_singleton.mp new).symm same
      obtain ⟨pc, at_j, past⟩ := h.began j old
      exact ⟨pc, by rw [List.getElem?_set_ne same]; exact at_j, past⟩

theorem request {pc pc' : Request} (h : History a requests cur) (at_i : requests[i]? = some pc)
    (step : a.requestStep i spurious pc = some (a', pc')) :
    History a' (requests.set i pc') cur := by
  cases pc with
  | checkWorkable =>
      obtain ⟨rfl, rfl⟩ := Prod.mk.inj (Option.some.inj step)
      exact h.request_quiet at_i rfl rfl rfl (by split <;> simp [Request.Accepted])
        (by simp [Request.Before])
  | checkDead =>
      obtain ⟨rfl, rfl⟩ := Prod.mk.inj (Option.some.inj step)
      exact h.request_quiet at_i rfl rfl rfl (by split <;> simp [Request.Accepted])
        (by simp [Request.Before])
  | enqueue =>
      simp only [Actor.requestStep] at step
      split at step <;> obtain ⟨rfl, rfl⟩ := Prod.mk.inj (Option.some.inj step)
      · exact h.request_quiet at_i rfl rfl rfl (by simp [Request.Accepted])
          (by simp [Request.Before])
      · exact h.enqueue at_i
  | count =>
      obtain ⟨rfl, rfl⟩ := Prod.mk.inj (Option.some.inj step)
      exact h.request_quiet at_i rfl rfl rfl (by simp [Request.Accepted])
        (by split <;> simp [Request.Before])
  | casProc =>
      simp only [Actor.requestStep] at step
      split at step <;> obtain ⟨rfl, rfl⟩ := Prod.mk.inj (Option.some.inj step)
      all_goals
        exact h.request_quiet at_i rfl rfl rfl (by simp [Request.Accepted])
          (by simp [Request.Before])
  | sendActive send =>
      obtain ⟨sigch, rfl, ⟨pc', rfl⟩ | rfl | ⟨fault, rfl⟩⟩ :=
        Actor.trySendLoop_inv (Option.some.inj step)
      all_goals
        exact h.request_quiet at_i rfl rfl rfl (by simp [Request.Accepted])
          (by simp [Request.Before])
  | returned => simp [Actor.requestStep] at step
  | threw => simp [Actor.requestStep] at step

theorem callRequest (h : History a requests cur) :
    History a (requests ++ [.checkWorkable]) cur where
  order := h.order
  nodup := h.nodup
  enqueued := by
    intro i pc at_i acc
    obtain old | new := Nat.lt_or_ge i requests.length
    · rw [List.getElem?_append_left old] at at_i
      exact h.enqueued i pc at_i acc
    · rw [List.getElem?_append_right new, List.getElem?_singleton] at at_i
      split at at_i
      · obtain rfl := Option.some.inj at_i
        exact acc.elim
      · cases at_i
  began := by
    intro i mem
    obtain ⟨pc, at_i, past⟩ := h.began i mem
    have bound := (List.getElem?_eq_some_iff.mp at_i).1
    exact ⟨pc, by rw [List.getElem?_append_left bound]; exact at_i, past⟩

/-- Neither a kill nor a spawn touches the mailbox or the records. -/
theorem sameMails (h : History a requests cur) (mails : SameMails a a') :
    History a' requests cur :=
  h.congr mails.accepted mails.ran (by rw [mails.mailbox])

/-- The thread moves a mail from the mailbox to its hand and from there to the
record of mails run. -/
theorem main (h : History a requests cur) (step : a.mainStep spurious cur = some (a', cur')) :
    History a' requests cur' := by
  cases cur with
  | checkSpawn =>
      simp only [Actor.mainStep] at step
      split at step <;> obtain ⟨rfl, rfl⟩ := Prod.mk.inj (Option.some.inj step)
      all_goals exact h.congr rfl rfl rfl
  | storeLoaded | storeIdle | storeWorkable | storeDead =>
      obtain ⟨rfl, rfl⟩ := Prod.mk.inj (Option.some.inj step)
      exact h.congr rfl rfl rfl
  | sendSpawn | sendExitOk =>
      obtain ⟨sigch, rfl, ⟨pc', rfl⟩ | rfl | ⟨fault, rfl⟩⟩ :=
        Actor.trySendLoop_inv (Option.some.inj step)
      all_goals exact h.congr rfl rfl rfl
  | recv pc =>
      obtain ⟨sigch, rfl, ⟨pc', rfl⟩ | ⟨value, rfl⟩ | ⟨fault, rfl⟩⟩ := Actor.recvCall_inv step
      · exact h.congr rfl rfl rfl
      · cases value <;> exact h.congr rfl rfl rfl
      · exact h.congr rfl rfl rfl
  | dequeue =>
      cases mailbox : a.mailbox with
      | nil =>
          simp only [Actor.mainStep, mailbox, Option.some.injEq, Prod.mk.injEq] at step
          obtain ⟨rfl, rfl⟩ := step
          exact h.congr rfl rfl rfl
      | cons job rest =>
          simp only [Actor.mainStep, mailbox, Option.some.injEq, Prod.mk.injEq] at step
          obtain ⟨rfl, rfl⟩ := step
          exact h.congr rfl rfl (by rw [mailbox]; rfl)
  | run job =>
      obtain ⟨rfl, rfl⟩ := Prod.mk.inj (Option.some.inj step)
      refine ⟨?_, h.nodup, h.enqueued, h.began⟩
      simpa [Main.job] using h.order
  | uncount =>
      obtain ⟨rfl, rfl⟩ := Prod.mk.inj (Option.some.inj step)
      exact h.congr rfl rfl (by split <;> rfl)
  | casIdle =>
      simp only [Actor.mainStep] at step
      split at step <;> obtain ⟨rfl, rfl⟩ := Prod.mk.inj (Option.some.inj step)
      all_goals exact h.congr rfl rfl rfl
  | ended => simp [Actor.mainStep] at step
  | threw => simp [Actor.mainStep] at step

end History

end Vee
