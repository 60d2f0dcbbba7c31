import Mathlib.Algebra.Group.Nat.Defs
import Vee.Actor.Steps

/-!
# Counting mails

A sender increments `_mailbox_counter` after its enqueue, so the counter lags
behind the mailbox and the thread may run a mail nobody has counted. `Account`
ties the counter, the length of the mailbox and the pending increments together
through the number `total` of counted mails the thread has not yet discounted.

The counter is a 32-bit word. A request activates the actor whenever it finds
the word at 0, and the thread leaves `_epoch` whenever it brings the word back
to 0; so the tickets, requests waiting to activate plus the activation in
progress, are `total / 2 ^ 32` rounded up, however far the counter wraps.
-/

namespace Vee

open SignalChannel

/-- The mail is in the mailbox or taken from it, but not counted. -/
def Request.uncounted : Request → Bool
  | .count => true
  | _ => false

/-- The call waits to move the actor from IDLE to PROC. -/
def Request.activates : Request → Bool
  | .casProc => true
  | _ => false

/-- Increments that the mails already enqueued are owed. -/
def pending (requests : List Request) : Nat := requests.countP (·.uncounted)

/-- Calls that wait to move the actor from IDLE to PROC. -/
def waiting (requests : List Request) : Nat := requests.countP (·.activates)

theorem pending_set {requests : List Request} {i : Nat} {pc : Request}
    (at_i : requests[i]? = some pc) (pc' : Request) :
    pending (requests.set i pc') + pc.uncounted.toNat = pending requests + pc'.uncounted.toNat :=
  Pool.countP_set at_i

theorem waiting_set {requests : List Request} {i : Nat} {pc : Request}
    (at_i : requests[i]? = some pc) (pc' : Request) :
    waiting (requests.set i pc') + pc.activates.toNat = waiting requests + pc'.activates.toNat :=
  Pool.countP_set at_i

theorem pending_eq_zero {requests : List Request} (h : Pool.All (·.finished) requests) :
    pending requests = 0 := by
  refine List.countP_eq_zero.mpr fun pc mem => ?_
  have := h pc mem
  cases pc <;> simp_all [Request.uncounted, Request.finished]

theorem waiting_eq_zero {requests : List Request} (h : Pool.All (·.finished) requests) :
    waiting requests = 0 := by
  refine List.countP_eq_zero.mpr fun pc mem => ?_
  have := h pc mem
  cases pc <;> simp_all [Request.activates, Request.finished]

/-- Mails taken from the mailbox and not yet discounted. -/
def Main.undiscounted : Main → Nat
  | .run _ => 1
  | .uncount => 1
  | _ => 0

/-- An activation is in progress until the thread has brought the counter to 0. -/
def activation (a : Actor) (cur : Main) : Nat :=
  if a.state = .proc ∧ cur ≠ .casIdle then 1 else 0

/-- Activations owed to the counted mails. -/
def tickets (a : Actor) (requests : List Request) (cur : Main) : Nat :=
  waiting requests + activation a cur

structure Account (a : Actor) (requests : List Request) (cur : Main) (total : Nat) : Prop where
  counter : a.mailboxCounter = BitVec.ofNat 32 total
  balance : a.mailbox.length + cur.undiscounted = total + pending requests
  covered : total ≤ 2 ^ 32 * tickets a requests cur
  tight : 2 ^ 32 * tickets a requests cur < total + 2 ^ 32

variable {a a' : Actor} {requests : List Request} {cur cur' : Main} {holder : Holder}
variable {total i : Nat} {spurious : Bool} {pc' : Request}

namespace Account

/-- The account only depends on the mailbox, the counter, the threads' share in
both and on whether an activation is in progress. -/
theorem congr (h : Account a requests cur total) (mailbox : a'.mailbox = a.mailbox)
    (counter : a'.mailboxCounter = a.mailboxCounter)
    (share : cur'.undiscounted = cur.undiscounted)
    (active : activation a' cur' = activation a cur) : Account a' requests cur' total where
  counter := counter.trans h.counter
  balance := by rw [mailbox, share]; exact h.balance
  covered := by unfold tickets; rw [active]; exact h.covered
  tight := by unfold tickets; rw [active]; exact h.tight

/-- The word is 0 exactly at the multiples of its range. -/
theorem counter_eq_zero (h : Account a requests cur total) :
    a.mailboxCounter = 0 ↔ total % 2 ^ 32 = 0 := by
  rw [h.counter, BitVec.toNat_eq]
  simp

/-- While an activation is in progress some counted mail is left. -/
theorem total_pos (h : Account a requests cur total) (active : activation a cur = 1) :
    0 < total := by
  have := h.tight
  simp only [tickets] at this
  omega

/-- `_epoch` never finds the mailbox empty. -/
theorem mailbox_ne_nil (h : Account a requests .dequeue total) (state : a.state = .proc) :
    a.mailbox ≠ [] := by
  have pos := h.total_pos (by simp [activation, state])
  have balance := h.balance
  intro empty
  simp only [empty, List.length_nil, Main.undiscounted] at balance
  omega

/-- Without pending requests and without an activation nothing is outstanding. -/
theorem settled (h : Account a requests cur total) (idle : activation a cur = 0)
    (returned : Pool.All (·.finished) requests) (share : cur.undiscounted = 0) :
    a.mailboxCounter = 0 ∧ a.mailbox = [] := by
  have covered := h.covered
  have balance := h.balance
  rw [tickets, waiting_eq_zero returned, idle] at covered
  rw [pending_eq_zero returned, share] at balance
  exact ⟨h.counter_eq_zero.mpr (by omega), List.eq_nil_of_length_eq_zero (by omega)⟩

/-- A request step that touches neither the mailbox nor the counter and keeps
its class. -/
theorem request_quiet {pc : Request} (h : Account a requests cur total)
    (at_i : requests[i]? = some pc) (uncounted : pc'.uncounted = pc.uncounted)
    (activates : pc'.activates = pc.activates) (mailbox : a'.mailbox = a.mailbox)
    (counter : a'.mailboxCounter = a.mailboxCounter) (state : a'.state = a.state) :
    Account a' (requests.set i pc') cur total := by
  have samePending : pending (requests.set i pc') = pending requests := by
    have := pending_set at_i pc'
    rw [uncounted] at this
    omega
  have sameTickets : tickets a' (requests.set i pc') cur = tickets a requests cur := by
    have := waiting_set at_i pc'
    rw [activates] at this
    simp only [tickets, activation]
    rw [state]
    omega
  exact ⟨counter.trans h.counter, by rw [mailbox, samePending]; exact h.balance,
    by rw [sameTickets]; exact h.covered, by rw [sameTickets]; exact h.tight⟩

/-- The increment settles one enqueue and, at a multiple of the word's range,
owes one more activation. -/
theorem count (h : Account a requests cur total) (at_i : requests[i]? = some .count)
    (step : a.requestStep i spurious .count = some (a', pc')) :
    Account a' (requests.set i pc') cur (total + 1) := by
  obtain ⟨rfl, rfl⟩ := Prod.mk.inj (Option.some.inj step)
  have balance := h.balance
  have covered := h.covered
  have tight := h.tight
  have increment : a.mailboxCounter + 1 = BitVec.ofNat 32 (total + 1) := by
    rw [h.counter, BitVec.ofNat_add]
    rfl
  simp only [tickets] at covered tight
  by_cases wrapped : a.mailboxCounter = 0
  · have multiple := h.counter_eq_zero.mp wrapped
    have settled := pending_set at_i .casProc
    have owed := waiting_set at_i .casProc
    simp only [Request.uncounted, Request.activates, Bool.toNat_true, Bool.toNat_false]
      at settled owed
    rw [if_pos wrapped]
    refine ⟨increment, ?_, ?_, ?_⟩
    · change a.mailbox.length + cur.undiscounted = _
      omega
    · change _ ≤ 2 ^ 32 * (waiting _ + activation a cur)
      omega
    · change 2 ^ 32 * (waiting _ + activation a cur) < _
      omega
  · have noMultiple := mt h.counter_eq_zero.mpr wrapped
    have settled := pending_set at_i (.returned a.mailboxCounter.toInt)
    have owed := waiting_set at_i (.returned a.mailboxCounter.toInt)
    simp only [Request.uncounted, Request.activates, Bool.toNat_true, Bool.toNat_false]
      at settled owed
    rw [if_neg wrapped]
    refine ⟨increment, ?_, ?_, ?_⟩
    · change a.mailbox.length + cur.undiscounted = _
      omega
    · change _ ≤ 2 ^ 32 * (waiting _ + activation a cur)
      omega
    · change 2 ^ 32 * (waiting _ + activation a cur) < _
      omega

/-- A request step keeps the account. -/
theorem request {pc : Request} (h : Account a requests cur total)
    (at_i : requests[i]? = some pc) (rest : a.state = .idle → cur ≠ .casIdle)
    (step : a.requestStep i spurious pc = some (a', pc')) :
    ∃ total', Account a' (requests.set i pc') cur total' := by
  cases pc with
  | checkWorkable =>
      obtain ⟨rfl, rfl⟩ := Prod.mk.inj (Option.some.inj step)
      exact ⟨total, h.request_quiet at_i (by split <;> rfl) (by split <;> rfl) rfl rfl rfl⟩
  | checkDead =>
      obtain ⟨rfl, rfl⟩ := Prod.mk.inj (Option.some.inj step)
      exact ⟨total, h.request_quiet at_i (by split <;> rfl) (by split <;> rfl) rfl rfl rfl⟩
  | enqueue =>
      simp only [Actor.requestStep] at step
      split at step <;> obtain ⟨rfl, rfl⟩ := Prod.mk.inj (Option.some.inj step)
      · exact ⟨total, h.request_quiet at_i rfl rfl rfl rfl rfl⟩
      · have owed := pending_set at_i .count
        have kept := waiting_set at_i .count
        simp only [Request.uncounted, Request.activates, Bool.toNat_true, Bool.toNat_false]
          at owed kept
        have same : tickets { a with mailbox := a.mailbox ++ [i], accepted := a.accepted ++ [i] }
            (requests.set i .count) cur = tickets a requests cur := by
          simp only [tickets]
          rw [Nat.add_right_cancel kept]
          rfl
        refine ⟨total, h.counter, ?_, same ▸ h.covered, same ▸ h.tight⟩
        have := h.balance
        simp only [List.length_append, List.length_singleton]
        omega
  | count => exact ⟨total + 1, h.count at_i step⟩
  | casProc =>
      simp only [Actor.requestStep] at step
      split at step <;> obtain ⟨rfl, rfl⟩ := Prod.mk.inj (Option.some.inj step)
      · rename_i idle
        have kept := pending_set at_i (.sendActive .acquire)
        have redeemed := waiting_set at_i (.sendActive .acquire)
        simp only [Request.uncounted, Request.activates, Bool.toNat_true, Bool.toNat_false]
          at kept redeemed
        have before : activation a cur = 0 := by simp [activation, idle]
        have after : activation { a with state := .proc } cur = 1 := by
          simp [activation, rest idle]
        have same : tickets { a with state := .proc } (requests.set i (.sendActive .acquire)) cur =
            tickets a requests cur := by
          simp only [tickets]
          omega
        refine ⟨total, h.counter, ?_, same ▸ h.covered, same ▸ h.tight⟩
        rw [Nat.add_right_cancel kept]
        exact h.balance
      · exact ⟨total, h.request_quiet at_i rfl rfl rfl rfl rfl⟩
  | sendActive send =>
      obtain ⟨sigch, rfl, ⟨pc', rfl⟩ | rfl | ⟨fault, rfl⟩⟩ :=
        Actor.trySendLoop_inv (Option.some.inj step)
      all_goals exact ⟨total, h.request_quiet at_i rfl rfl rfl rfl rfl⟩
  | returned => simp [Actor.requestStep] at step
  | threw => simp [Actor.requestStep] at step

/-- Beginning a request owes nothing. -/
theorem callRequest (h : Account a requests cur total) :
    Account a (requests ++ [.checkWorkable]) cur total where
  counter := h.counter
  balance := by simpa [pending, Request.uncounted] using h.balance
  covered := by simpa [tickets, waiting, Request.activates] using h.covered
  tight := by simpa [tickets, waiting, Request.activates] using h.tight

/-- Kill and spawn steps leave the mails alone and move the state word between
states without an activation. -/
theorem sameMails (h : Account a requests cur total) (mails : SameMails a a')
    (share : cur'.undiscounted = cur.undiscounted)
    (active : activation a' cur' = activation a cur) : Account a' requests cur' total :=
  h.congr mails.mailbox mails.mailboxCounter share active

theorem kill {pc pc' : Kill} (h : Account a requests cur total)
    (step : a.killStep spurious pc = some (a', pc')) : Account a' requests cur total := by
  obtain ⟨mails, same | ⟨_, idle, dead⟩⟩ := Actor.killStep_frame step
  · exact h.sameMails mails rfl (by unfold activation; rw [same])
  · exact h.sameMails mails rfl (by simp [activation, idle, dead])

theorem spawn {pc pc' : Spawn} {fresh : Nat} (h : Account a requests cur total)
    (step : a.spawnStep fresh spurious pc = some (a', pc')) : Account a' requests cur total := by
  obtain ⟨mails, same | ⟨dead, starting⟩⟩ := Actor.spawnStep_frame step
  · exact h.sameMails mails rfl (by unfold activation; rw [same])
  · exact h.sameMails mails rfl (by simp [activation, dead, starting])

/-- The successor of an ended thread has no share in the mails. -/
theorem checkSpawn (h : Account a requests .ended total) :
    Account a requests .checkSpawn total :=
  h.congr rfl rfl rfl (by simp [activation])

/-- `--_mailbox_counter` settles the mail just run, and ends the activation at a
multiple of the word's range. -/
theorem uncount (h : Account a requests .uncount total) (state : a.state = .proc)
    (step : a.mainStep spurious .uncount = some (a', cur')) :
    Account a' requests cur' (total - 1) := by
  obtain ⟨rfl, rfl⟩ := Prod.mk.inj (Option.some.inj step)
  have active : activation a .uncount = 1 := by simp [activation, state]
  have pos := h.total_pos active
  have balance := h.balance
  have covered := h.covered
  have tight := h.tight
  have decrement : a.mailboxCounter - 1 = BitVec.ofNat 32 (total - 1) := by
    rw [h.counter]
    conv_lhs => rw [show total = (total - 1) + 1 by omega, BitVec.ofNat_add]
    exact BitVec.add_sub_cancel _ _
  have zero : a.mailboxCounter - 1 = 0 ↔ (total - 1) % 2 ^ 32 = 0 := by
    rw [decrement, BitVec.toNat_eq]
    simp
  simp only [tickets] at covered tight
  rw [active] at covered tight
  simp only [Main.undiscounted] at balance
  by_cases done : a.mailboxCounter - 1 = 0
  · have multiple := zero.mp done
    rw [if_pos done]
    have idle : activation { a with mailboxCounter := a.mailboxCounter - 1 } .casIdle = 0 := by
      simp [activation]
    refine ⟨decrement, ?_, ?_, ?_⟩
    · change a.mailbox.length + 0 = _
      omega
    · simp only [tickets]
      rw [idle]
      omega
    · simp only [tickets]
      rw [idle]
      omega
  · have noMultiple := mt zero.mpr done
    rw [if_neg done]
    have still : activation { a with mailboxCounter := a.mailboxCounter - 1 } .dequeue = 1 := by
      simp [activation, state]
    refine ⟨decrement, ?_, ?_, ?_⟩
    · change a.mailbox.length + 0 = _
      omega
    · simp only [tickets]
      rw [still]
      omega
    · simp only [tickets]
      rw [still]
      omega

/-- A thread step keeps the account; only the decrement changes the total. -/
theorem main (h : Account a requests cur total) (phase : Phase a cur holder)
    (step : a.mainStep spurious cur = some (a', cur')) :
    ∃ total', Account a' requests cur' total' := by
  -- a store of another state word while no activation is in progress
  have store : ∀ state next, a.state ≠ .proc → state ≠ .proc → cur.undiscounted = 0 →
      next.undiscounted = 0 → Account { a with state } requests next total := by
    intro state next before after share share'
    exact h.congr rfl rfl (by rw [share, share']) (by simp [activation, before, after])
  cases cur with
  | checkSpawn =>
      simp only [Actor.mainStep] at step
      split at step <;> obtain ⟨rfl, rfl⟩ := Prod.mk.inj (Option.some.inj step)
      all_goals exact ⟨total, h.congr rfl rfl rfl (by simp [activation])⟩
  | storeLoaded =>
      obtain ⟨rfl, rfl⟩ := Prod.mk.inj (Option.some.inj step)
      exact ⟨total, store _ _ (phase.not_proc (.inl rfl)) (by simp) rfl rfl⟩
  | sendSpawn send =>
      obtain ⟨sigch, rfl, ⟨pc', rfl⟩ | rfl | ⟨fault, rfl⟩⟩ :=
        Actor.trySendLoop_inv (Option.some.inj step)
      all_goals exact ⟨total, h.congr rfl rfl rfl (by simp [activation])⟩
  | storeIdle =>
      obtain ⟨rfl, rfl⟩ := Prod.mk.inj (Option.some.inj step)
      exact ⟨total, store _ _ (phase.not_proc (.inr (.inl rfl))) (by simp) rfl rfl⟩
  | storeWorkable =>
      obtain ⟨rfl, rfl⟩ := Prod.mk.inj (Option.some.inj step)
      exact ⟨total, h.congr rfl rfl rfl (by simp [activation])⟩
  | recv pc =>
      obtain ⟨sigch, rfl, ⟨pc', rfl⟩ | ⟨value, rfl⟩ | ⟨fault, rfl⟩⟩ := Actor.recvCall_inv step
      · exact ⟨total, h.congr rfl rfl rfl (by simp [activation])⟩
      · cases value <;> exact ⟨total, h.congr rfl rfl rfl (by simp [activation])⟩
      · exact ⟨total, h.congr rfl rfl rfl (by simp [activation])⟩
  | dequeue =>
      cases mailbox : a.mailbox with
      | nil => exact absurd mailbox (h.mailbox_ne_nil (phase.inEpoch trivial).1)
      | cons job rest =>
          simp only [Actor.mainStep, mailbox, Option.some.injEq, Prod.mk.injEq] at step
          obtain ⟨rfl, rfl⟩ := step
          have same : tickets { a with mailbox := rest } requests (.run job) =
              tickets a requests .dequeue := by simp [tickets, activation]
          refine ⟨total, h.counter, ?_, same ▸ h.covered, same ▸ h.tight⟩
          have := h.balance
          simp only [mailbox, List.length_cons, Main.undiscounted] at this ⊢
          omega
  | run job =>
      obtain ⟨rfl, rfl⟩ := Prod.mk.inj (Option.some.inj step)
      exact ⟨total, h.congr rfl rfl rfl (by simp [activation])⟩
  | uncount => exact ⟨total - 1, h.uncount (phase.inEpoch trivial).1 step⟩
  | casIdle =>
      simp only [Actor.mainStep, if_pos (phase.inEpoch trivial).1, Option.some.injEq,
        Prod.mk.injEq] at step
      obtain ⟨rfl, rfl⟩ := step
      exact ⟨total, h.congr rfl rfl rfl (by simp [activation])⟩
  | sendExitOk send =>
      obtain ⟨sigch, rfl, ⟨pc', rfl⟩ | rfl | ⟨fault, rfl⟩⟩ :=
        Actor.trySendLoop_inv (Option.some.inj step)
      all_goals exact ⟨total, h.congr rfl rfl rfl (by simp [activation])⟩
  | storeDead =>
      obtain ⟨rfl, rfl⟩ := Prod.mk.inj (Option.some.inj step)
      exact ⟨total, store _ _ (phase.not_proc (.inr (.inr rfl))) (by simp) rfl rfl⟩
  | ended => simp [Actor.mainStep] at step
  | threw => simp [Actor.mainStep] at step

end Account
end Vee
