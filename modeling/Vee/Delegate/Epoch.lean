import Vee.Delegate.Basic
import Vee.Transition.Basic

/-!
# What one epoch of an actor calls

The mailbox of an actor, the requests that put mails into it and the loop of
`_epoch`, which takes every mail into the one local `current_job`. Requests come
at any moment, and an epoch is entered at any moment another one is not under
way; the signals that bring it about are left out here. The steps are those of
the mailbox and of the counter. Subscribers return normally.

Assignment keeps what the local holds where the next mail has nothing, so an
epoch calls each mail's own subscribers, and only these, exactly when no mail
lacks a kind of subscribers that an earlier one has.
-/

namespace Vee

open Transition

/-- The mailbox side of an actor. The last four members are history: the mails
accepted since the mailbox was made, the number run before the last epoch was
entered and by it, and the calls it has made for each. -/
structure Postman (F A : Type) where
  mailbox : RingQueue (MailT F A)
  mailboxCounter : BitVec 32 := 0
  /-- requests between the return of `enqueue` and the increment of the counter -/
  uncounted : Nat := 0
  inEpoch : Bool := false
  currentJob : MailT F A
  accepted : List (MailT F A) := []
  before : Nat := 0
  ran : Nat := 0
  calls : List (List (F × A)) := []

/-- A request enqueues its mail and counts it; an epoch is entered and takes a turn. -/
inductive MailAction (F A : Type) where
  | request (e : Delegate F) (delegateCategory : ValueCategory) (args : A)
      (tupleCategory : ValueCategory)
  | count
  | enterEpoch
  | turn

namespace Postman

variable {F A : Type} [Inhabited A]

def create (capacity : Nat) : Postman F A where
  mailbox := .create capacity false
  currentJob := default

/-- `moved` is what a moved-from tuple is left with. -/
def step (moved : A → A) (s : Postman F A) : MailAction F A → Option (Postman F A)
  | .request e delegateCategory args tupleCategory =>
      let mail := (MailT.makePair moved e delegateCategory args tupleCategory).1
      match s.mailbox.enqueueBy (MailT.moveAssign moved) mail with
      | none => none
      | some (false, mailbox) => some { s with mailbox }
      | some (true, mailbox) => some { s with
          mailbox
          uncounted := s.uncounted + 1
          accepted := s.accepted ++ [(e, args)] }
  | .count =>
      if s.uncounted = 0 then none
      else some { s with
        uncounted := s.uncounted - 1
        mailboxCounter := s.mailboxCounter + 1 }
  | .enterEpoch =>
      if s.inEpoch then none
      else some { s with
        inEpoch := true
        currentJob := default
        before := s.before + s.ran
        ran := 0
        calls := [] }
  | .turn =>
      if s.inEpoch then
        match s.mailbox.dequeueBy (MailT.moveAssign moved) s.currentJob with
        | none => none
        | some (false, currentJob, mailbox) =>
            some { s with mailbox, currentJob, inEpoch := false }
        | some (true, currentJob, mailbox) =>
            let counter := s.mailboxCounter - 1
            some { s with
              mailbox
              currentJob
              mailboxCounter := counter
              inEpoch := counter ≠ 0
              ran := s.ran + 1
              calls := s.calls ++ [currentJob.1.call currentJob.2] }
      else none

/-- The mails run by the last epoch, as they were passed to their requests. -/
def jobs (s : Postman F A) : List (MailT F A) := (s.accepted.drop s.before).take s.ran

end Postman

namespace MailT

variable {F A : Type}

/-- The delegate in the local that has taken the mails, in order. -/
def held (current : Delegate F) (jobs : List (MailT F A)) : Delegate F :=
  jobs.foldl (fun e mail => e.deepCopy mail.1) current

/-- The calls made for each of them. -/
def calls (current : Delegate F) : List (MailT F A) → List (List (F × A))
  | [] => []
  | mail :: rest =>
      (current.deepCopy mail.1).call mail.2 :: calls (current.deepCopy mail.1) rest

/-- No later mail lacks a kind of subscribers that an earlier one has. -/
def Uniform (jobs : List (MailT F A)) : Prop :=
  jobs.Pairwise fun earlier later => earlier.1.Covers later.1

instance [DecidableEq F] (jobs : List (MailT F A)) : Decidable (Uniform jobs) :=
  inferInstanceAs (Decidable (jobs.Pairwise fun earlier later => earlier.1.Covers later.1))

theorem held_append (current : Delegate F) (jobs : List (MailT F A)) (mail : MailT F A) :
    held current (jobs ++ [mail]) = (held current jobs).deepCopy mail.1 := by
  simp only [held, List.foldl_append, List.foldl_cons, List.foldl_nil]

theorem calls_append (current : Delegate F) (jobs : List (MailT F A)) (mail : MailT F A) :
    calls current (jobs ++ [mail]) =
      calls current jobs ++ [((held current jobs).deepCopy mail.1).call mail.2] := by
  induction jobs generalizing current with
  | nil => rfl
  | cons first rest ih =>
      simp only [List.cons_append, calls, ih]
      rfl

/-- Each mail has its own subscribers called exactly when neither the local nor
an earlier mail has a kind of them that it lacks. -/
theorem calls_eq_iff (current : Delegate F) (jobs : List (MailT F A)) :
    calls current jobs = jobs.map (fun mail => mail.1.call mail.2) ↔
      (∀ mail ∈ jobs, current.Covers mail.1) ∧ Uniform jobs := by
  induction jobs generalizing current with
  | nil => simp [calls, Uniform]
  | cons first rest ih =>
      simp only [calls, List.map_cons, List.cons.injEq, Delegate.call_deepCopy_iff, Uniform,
        List.pairwise_cons, List.forall_mem_cons]
      constructor
      · rintro ⟨covers, same⟩
        rw [Delegate.deepCopy_of_covers covers, ih] at same
        exact ⟨⟨covers, fun mail later => covers.trans (same.1 mail later)⟩, same⟩
      · rintro ⟨⟨covers, _⟩, same⟩
        rw [Delegate.deepCopy_of_covers covers, ih]
        exact ⟨covers, same⟩

end MailT

namespace Postman

variable {F A : Type} {s s' : Postman F A}

/-- Mails accepted after those of the last epoch are not its jobs. -/
theorem jobs_accept (ran_le : s.before + s.ran ≤ s.accepted.length) (mail : MailT F A) :
    ((s.accepted ++ [mail]).drop s.before).take s.ran = s.jobs := by
  rw [List.drop_append_of_le_length (by omega), List.take_append_of_le_length]
  · rfl
  · rw [List.length_drop]
    omega

/-- The next mail in the mailbox is the next job. -/
theorem jobs_next {mail : MailT F A} {rest : List (MailT F A)}
    (next : s.accepted.drop (s.before + s.ran) = mail :: rest) :
    (s.accepted.drop s.before).take (s.ran + 1) = s.jobs ++ [mail] := by
  rw [List.take_add_one]
  congr 1
  rw [List.getElem?_drop, ← List.head?_drop, next]
  rfl

variable [Inhabited A] {moved : A → A} {capacity : Nat} {actions : List (MailAction F A)}

/-- The mailbox holds the mails that no epoch has taken, and the local and the
calls are those of the mails taken by the last one. -/
structure Sorted (moved : A → A) (capacity : Nat) (s : Postman F A) : Prop where
  mailbox : s.mailbox.Holds (MailT.moveAssign moved) capacity
    (s.accepted.drop (s.before + s.ran))
  ran_le : s.before + s.ran ≤ s.accepted.length
  currentJob : s.currentJob.1 = MailT.held {} s.jobs
  calls : s.calls = MailT.calls {} s.jobs

namespace Sorted

theorem create (moved : A → A) (capacity : Nat) :
    Sorted moved capacity (Postman.create (F := F) capacity) where
  mailbox := .create rfl capacity
  ran_le := Nat.le_refl 0
  currentJob := rfl
  calls := rfl

theorem request (h : Sorted moved capacity s) (bound : capacity < 2 ^ 31) {e : Delegate F}
    {args : A} {delegateCategory tupleCategory : ValueCategory}
    (enabled : s.step moved (.request e delegateCategory args tupleCategory) = some s') :
    Sorted moved capacity s' := by
  simp only [step, MailT.makePair_fst] at enabled
  obtain ⟨_, refused⟩ | ⟨_, mailbox, taken, holds⟩ := h.mailbox.enqueue bound (e, args)
  · rw [refused] at enabled
    obtain rfl := Option.some.inj enabled
    exact ⟨h.mailbox, h.ran_le, h.currentJob, h.calls⟩
  · rw [taken] at enabled
    obtain rfl := Option.some.inj enabled
    have ran_le := h.ran_le
    have jobs := jobs_accept ran_le (e, args)
    refine ⟨?_, ?_, ?_, ?_⟩
    · dsimp only
      rw [List.drop_append_of_le_length ran_le]
      exact holds
    · simp only [List.length_append]
      omega
    · exact h.currentJob.trans (congrArg _ jobs.symm)
    · exact h.calls.trans (congrArg _ jobs.symm)

theorem turn (h : Sorted moved capacity s) (bound : capacity < 2 ^ 31)
    (enabled : s.step moved .turn = some s') : Sorted moved capacity s' := by
  simp only [step] at enabled
  split_ifs at enabled
  obtain ⟨_, stopped⟩ | ⟨mail, rest, mailbox, next, taken, holds⟩ :=
    h.mailbox.dequeue bound s.currentJob
  · rw [stopped] at enabled
    obtain rfl := Option.some.inj enabled
    exact ⟨h.mailbox, h.ran_le, h.currentJob, h.calls⟩
  · rw [taken, MailT.assign_fst] at enabled
    obtain rfl := Option.some.inj enabled
    have jobs := jobs_next next
    have length := congrArg List.length next
    rw [List.length_drop, List.length_cons] at length
    refine ⟨?_, ?_, ?_, ?_⟩
    · dsimp only
      rw [← Nat.add_assoc, ← List.tail_drop, next]
      exact holds
    · dsimp only
      omega
    · change s.currentJob.1.deepCopy mail.1 = MailT.held {} (List.take (s.ran + 1) _)
      rw [jobs, MailT.held_append, h.currentJob]
    · change s.calls ++ _ = MailT.calls {} (List.take (s.ran + 1) _)
      rw [jobs, MailT.calls_append, h.calls, h.currentJob]

theorem step (h : Sorted moved capacity s) (bound : capacity < 2 ^ 31) {action : MailAction F A}
    (enabled : s.step moved action = some s') : Sorted moved capacity s' := by
  cases action with
  | request => exact h.request bound enabled
  | turn => exact h.turn bound enabled
  | count =>
      simp only [Postman.step] at enabled
      split_ifs at enabled
      obtain rfl := Option.some.inj enabled
      exact ⟨h.mailbox, h.ran_le, h.currentJob, h.calls⟩
  | enterEpoch =>
      simp only [Postman.step] at enabled
      split_ifs at enabled
      obtain rfl := Option.some.inj enabled
      exact ⟨h.mailbox, h.ran_le, rfl, rfl⟩

theorem of_run (bound : capacity < 2 ^ 31)
    (run : Run (Postman.step moved) unguarded (.create capacity) actions s) :
    Sorted moved capacity s :=
  run.invariant (create moved capacity) fun _ _ _ inside _ enabled => inside.step bound enabled

end Sorted

/-- An epoch calls, for each mail it runs, the subscribers of the delegate passed
with its request, with the arguments passed with it, exactly when no mail it runs
lacks a kind of subscribers that an earlier one has. -/
theorem epoch_runs_own_subscribers_iff (bound : capacity < 2 ^ 31)
    (run : Run (step moved) unguarded (create capacity) actions s) :
    s.calls = s.jobs.map (fun mail => mail.1.call mail.2) ↔ MailT.Uniform s.jobs := by
  have sorted := Sorted.of_run bound run
  rw [sorted.calls, MailT.calls_eq_iff]
  exact and_iff_right fun mail _ => .empty mail.1

/-- One subscriber under a key, then another under the same key. -/
theorem epoch_of_keyed_mails :
    ∃ s : Postman Char Nat,
      Run (step id) unguarded (create 2)
        [.request { idxContainer := { entries := [(1, 'f')] } } .rvalue 10 .rvalue,
          .request { idxContainer := { entries := [(1, 'g')] } } .lvalue 20 .rvalue,
          .count, .enterEpoch, .count, .turn, .turn] s ∧
      s.jobs.length = 2 ∧ s.calls = s.jobs.map (fun mail => mail.1.call mail.2) := by
  refine ⟨_, Run.of_exec (by decide), by decide, ?_⟩
  exact (epoch_runs_own_subscribers_iff (by decide) (Run.of_exec _)).mpr (by decide)

/-- A mail without subscribers calls those of the mail before it. -/
theorem epoch_calls_leftover :
    ∃ s : Postman Char Nat,
      Run (step id) unguarded (create 2)
        [.request { container := ['f'] } .lvalue 10 .rvalue, .request {} .lvalue 20 .rvalue,
          .count, .count, .enterEpoch, .turn, .turn] s ∧
      s.jobs = [({ container := ['f'] }, 10), ({}, 20)] ∧
      s.calls = [[('f', 10)], [('f', 20)]] ∧
      s.calls ≠ s.jobs.map (fun mail => mail.1.call mail.2) :=
  ⟨_, Run.of_exec (by decide), by decide, by decide, by decide⟩

end Postman
end Vee
