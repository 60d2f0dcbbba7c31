import Mathlib.Data.Prod.Basic
import Vee.Actor.Basic
import Vee.Delegate.Basic

/-!
# Handing a job over to an actor

`scheduler::request_with_argstuple` asks one actor after another until one takes
the job. Between two attempts everything else goes on, so each attempt finds a
group of actors and a counter of its own, about which nothing is assumed but
what holds of every actor: its mailbox is a ring queue in use and its counter
counts mails.

Every attempt forwards the caller's delegate and tuple, and an actor makes the
mail before its mailbox can refuse it. An rvalue is therefore consumed by the
first full mailbox; an actor that is dead or not workable leaves it alone.
-/

namespace Vee

/-- The members of an actor that a request for a mail finds and changes. -/
structure ActorBox (F A : Type) where
  queueSize : Nat
  mailbox : RingQueue (MailT F A)
  mailboxCounter : Int := 0
  state : ActorState := .idle
  workable : Bool := true

namespace ActorBox

variable {F A : Type}

/-- `actor::request_with_argstuple`: its result, the actor, and the caller's
delegate and tuple afterwards; the exchange of signals by the first request is
left out. -/
def requestWithArgstuple (moved : A → A) (a : ActorBox F A) (e : Delegate F)
    (delegateCategory : ValueCategory) (args : A) (tupleCategory : ValueCategory) :
    Option (Int × ActorBox F A × Delegate F × A) :=
  if !a.workable || a.state = .dead then some (-1, a, e, args)
  else
    let (mail, left) := MailT.makePair moved e delegateCategory args tupleCategory
    match a.mailbox.enqueueBy (MailT.moveAssign moved) mail with
    | none => none
    | some (false, mailbox) => some (-2, { a with mailbox }, left)
    | some (true, mailbox) =>
        let oldCounter := a.mailboxCounter
        some (oldCounter, { a with mailbox, mailboxCounter := toInt32 (oldCounter + 1) }, left)

/-- What holds of every actor: the mailbox is in use and the counter counts mails. -/
structure Sound [Inhabited A] (moved : A → A) (a : ActorBox F A) : Prop where
  queueSize_lt : a.queueSize < 2 ^ 31
  mailbox : a.mailbox.Holds (MailT.moveAssign moved) a.queueSize a.mailbox.contents
  mailboxCounter : 0 ≤ a.mailboxCounter

/-- The actor gets as far as its mailbox. -/
def serves (a : ActorBox F A) : Bool := a.workable && a.state ≠ .dead

/-- Its mailbox has no room for the mail. -/
def refusesFull (a : ActorBox F A) : Bool := a.serves && a.mailbox.isFull

/-- Its mailbox has room. -/
def takes (a : ActorBox F A) : Bool := a.serves && !a.mailbox.isFull

theorem guard_eq (a : ActorBox F A) : (!a.workable || a.state = .dead) = !a.serves := by
  simp only [serves, decide_not, Bool.not_and, Bool.not_not]

variable [Inhabited A] {moved : A → A} {a : ActorBox F A}
variable (delegateCategory tupleCategory : ValueCategory)

/-- An actor with room returns its counter and has the job appended to its mailbox. -/
theorem request_takes (sound : a.Sound moved) (takes : a.takes = true) (e : Delegate F)
    (args : A) :
    ∃ a', a.requestWithArgstuple moved e delegateCategory args tupleCategory =
        some (a.mailboxCounter, a',
          (MailT.makePair moved e delegateCategory args tupleCategory).2) ∧
      a'.mailbox.contents = a.mailbox.contents ++ [(e, args)] := by
  simp only [ActorBox.takes, Bool.and_eq_true, Bool.not_eq_true'] at takes
  obtain ⟨serves, room⟩ := takes
  obtain ⟨full, _⟩ | ⟨_, mailbox, taken, holds⟩ :=
    sound.mailbox.enqueue sound.queueSize_lt (e, args)
  · simp [room] at full
  · refine ⟨{ a with mailbox, mailboxCounter := toInt32 (a.mailboxCounter + 1) }, ?_,
      holds.contents_eq⟩
    simp [requestWithArgstuple, guard_eq, serves, MailT.makePair_fst, taken]

/-- A full one keeps what was moved into the mail it refuses. -/
theorem request_refusesFull (sound : a.Sound moved) (full : a.refusesFull = true)
    (e : Delegate F) (args : A) :
    a.requestWithArgstuple moved e delegateCategory args tupleCategory =
      some (-2, a, (MailT.makePair moved e delegateCategory args tupleCategory).2) := by
  simp only [refusesFull, Bool.and_eq_true] at full
  obtain ⟨serves, full⟩ := full
  obtain ⟨_, refused⟩ | ⟨room, _⟩ := sound.mailbox.enqueue sound.queueSize_lt (e, args)
  · simp [requestWithArgstuple, guard_eq, serves, MailT.makePair_fst, refused]
  · simp [room] at full

omit [Inhabited A] in
/-- Any other touches nothing. -/
theorem request_declines (closed : a.takes = false) (notFull : a.refusesFull = false)
    (e : Delegate F) (args : A) :
    a.requestWithArgstuple moved e delegateCategory args tupleCategory =
      some (-1, a, e, args) := by
  have unavailable : a.serves = false := by
    cases serving : a.serves with
    | false => rfl
    | true =>
        simp only [ActorBox.takes, serving, Bool.true_and, Bool.not_eq_false'] at closed
        simp only [refusesFull, serving, Bool.true_and, closed, Bool.true_eq_false] at notFull
  simp [requestWithArgstuple, guard_eq, unavailable]

/-- An actor that does not take the job stays as it is, and answers with a negative
number. -/
theorem request_refuses (sound : a.Sound moved) (refuses : a.takes = false) (e : Delegate F)
    (args : A) :
    ∃ answer, answer < 0 ∧ a.requestWithArgstuple moved e delegateCategory args tupleCategory =
      some (answer, a, if a.refusesFull then
        (MailT.makePair moved e delegateCategory args tupleCategory).2 else (e, args)) := by
  cases full : a.refusesFull with
  | true =>
      refine ⟨-2, by decide, ?_⟩
      rw [if_pos rfl]
      exact request_refusesFull delegateCategory tupleCategory sound full e args
  | false =>
      refine ⟨-1, by decide, ?_⟩
      rw [if_neg Bool.false_ne_true]
      exact request_declines delegateCategory tupleCategory refuses full e args

end ActorBox

structure ActorGroup (F A : Type) where
  actorPointers : List (ActorBox F A)
  /-- the member `_size`, which the constructor counts up from what it was -/
  size : Int

/-- `actor_group::at` -/
def ActorGroup.at {F A : Type} (g : ActorGroup F A) (idx : Nat) : Option (ActorBox F A) :=
  g.actorPointers[idx]?

/-- What one attempt finds: the static counter and the group of actors. -/
structure Moment {A : Type} [Inhabited A] (F : Type) (moved : A → A) where
  counter : BitVec 32
  actorGroup : ActorGroup F A
  sound : ∀ a ∈ actorGroup.actorPointers, a.Sound moved

/-- An actor that was asked, and its place in the group. -/
structure Asked (F A : Type) where
  index : Nat
  before : ActorBox F A
  after : ActorBox F A

namespace Scheduler

variable {F A : Type} [Inhabited A] {moved : A → A}

/-- `_get_current_actor_index`; the remainder of ints has the sign of the counter. -/
def getCurrentActorIndex (m : Moment F moved) : Int :=
  if m.actorGroup.size = 0 then -1 else m.counter.toInt.tmod m.actorGroup.size

/-- The actor of an attempt. -/
def currentActor (m : Moment F moved) : Option (ActorBox F A) :=
  m.actorGroup.at (getCurrentActorIndex m).toNat

/-- `request_with_argstuple`, where one attempt after the other finds the given
moments: the result and the actors asked. It is `none` when the loop goes on after
the last of them. -/
def requestWithArgstuple (delegateCategory tupleCategory : ValueCategory) :
    List (Moment F moved) → Delegate F → A → Option (Bool × List (Asked F A))
  | [], _, _ => none
  | m :: later, e, args =>
      let i := getCurrentActorIndex m
      if i < 0 then some (false, [])
      else
        match currentActor m with
        | none => requestWithArgstuple delegateCategory tupleCategory later e args
        | some a =>
            match a.requestWithArgstuple moved e delegateCategory args tupleCategory with
            | none => none
            | some (answer, a', e', args') =>
                let asked := { index := i.toNat, before := a, after := a' }
                if answer ≥ 0 then some (true, [asked])
                else
                  (requestWithArgstuple delegateCategory tupleCategory later e' args').map
                    fun (result, log) => (result, asked :: log)

/-- The mails that have come into mailboxes, with the places of their actors. -/
def posted (log : List (Asked F A)) : List (Nat × MailT F A) :=
  log.flatMap fun asked =>
    (asked.after.mailbox.contents.drop asked.before.mailbox.contents.length).map (asked.index, ·)

/-- Mails have only been added, and one has: the given job, in one actor. -/
def Delivered (log : List (Asked F A)) (e : Delegate F) (args : A) : Prop :=
  (∀ asked ∈ log, asked.before.mailbox.contents <+: asked.after.mailbox.contents) ∧
    ∃ i, posted log = [(i, e, args)]

/-- The attempts that find a full mailbox before one finds room. -/
def fullBefore (moments : List (Moment F moved)) : Nat :=
  (moments.takeWhile fun m => !(currentActor m).any (·.takes)).countP fun m =>
    (currentActor m).any (·.refusesFull)

/-- What a refused attempt leaves of the caller's delegate and tuple. -/
def leftOver (moved : A → A) (delegateCategory tupleCategory : ValueCategory)
    (job : MailT F A) : MailT F A :=
  (MailT.makePair moved job.1 delegateCategory job.2 tupleCategory).2

variable {delegateCategory tupleCategory : ValueCategory} {m : Moment F moved}
variable {later moments : List (Moment F moved)} {e : Delegate F} {args : A}
variable {log : List (Asked F A)}

theorem currentActor_sound {a : ActorBox F A} (found : currentActor m = some a) :
    a.Sound moved :=
  m.sound a (List.mem_of_getElem? found)

omit [Inhabited A] in
theorem posted_cons (asked : Asked F A) (log : List (Asked F A)) :
    posted (asked :: log) =
      (asked.after.mailbox.contents.drop asked.before.mailbox.contents.length).map
        (asked.index, ·) ++ posted log :=
  List.flatMap_cons

/-- What an attempt finds in a call that returns true: no actor at its place, one that
takes the job and ends the call, or one that refuses it. -/
theorem request_cons (returned : requestWithArgstuple delegateCategory tupleCategory
      (m :: later) e args = some (true, log)) :
    (currentActor m = none ∧
      requestWithArgstuple delegateCategory tupleCategory later e args = some (true, log)) ∨
    (∃ i a a', currentActor m = some a ∧ a.takes = true ∧ log = [⟨i, a, a'⟩] ∧
      a'.mailbox.contents = a.mailbox.contents ++ [(e, args)]) ∨
    ∃ i a log', currentActor m = some a ∧ a.takes = false ∧ log = ⟨i, a, a⟩ :: log' ∧
      ∃ job, job = (if a.refusesFull then
          leftOver moved delegateCategory tupleCategory (e, args) else (e, args)) ∧
        requestWithArgstuple delegateCategory tupleCategory later job.1 job.2 =
          some (true, log') := by
  simp only [requestWithArgstuple] at returned
  split_ifs at returned with negative
  · cases returned
  cases found : currentActor m with
  | none =>
      simp only [found] at returned
      exact .inl ⟨rfl, returned⟩
  | some a =>
      have sound := currentActor_sound found
      simp only [found] at returned
      cases takes : a.takes with
      | true =>
          obtain ⟨a', answered, appended⟩ :=
            ActorBox.request_takes delegateCategory tupleCategory sound takes e args
          simp only [answered, ge_iff_le, sound.mailboxCounter, if_true, Option.some.injEq,
            Prod.mk.injEq, true_and] at returned
          exact .inr (.inl ⟨_, a, a', rfl, takes, returned.symm, appended⟩)
      | false =>
          obtain ⟨answer, negative, answered⟩ :=
            ActorBox.request_refuses delegateCategory tupleCategory sound takes e args
          simp only [answered, ge_iff_le, Int.not_le.mpr negative, if_false,
            Option.map_eq_some_iff] at returned
          obtain ⟨⟨result, log'⟩, rest, same⟩ := returned
          obtain ⟨rfl, rfl⟩ := Prod.mk.inj same
          exact .inr (.inr ⟨_, a, log', rfl, takes, rfl, _, rfl, rest⟩)

/-- The count of full mailboxes, attempt by attempt. -/
theorem fullBefore_cons (m : Moment F moved) (later : List (Moment F moved)) :
    fullBefore (m :: later) = if (currentActor m).any (·.takes) then 0
      else fullBefore later + if (currentActor m).any (·.refusesFull) then 1 else 0 := by
  simp only [fullBefore]
  cases takes : (currentActor m).any (·.takes) with
  | true => rw [List.takeWhile_cons_of_neg (by simp [takes]), List.countP_nil, if_pos rfl]
  | false =>
      rw [List.takeWhile_cons_of_pos (by simp [takes]), List.countP_cons,
        if_neg Bool.false_ne_true]

/-- A call that returns true has put one mail in a mailbox: what the full mailboxes
asked before have left of the job. -/
theorem posted_of_returned (returned : requestWithArgstuple delegateCategory tupleCategory
      moments e args = some (true, log)) :
    Delivered log ((leftOver moved delegateCategory tupleCategory)^[fullBefore moments] (e, args)).1
      ((leftOver moved delegateCategory tupleCategory)^[fullBefore moments] (e, args)).2 := by
  induction moments generalizing e args log with
  | nil => cases returned
  | cons m later ih =>
      rw [fullBefore_cons]
      obtain ⟨nobody, rest⟩ | ⟨i, a, a', found, takes, rfl, appended⟩ |
        ⟨i, a, log', found, refuses, rfl, job, left, rest⟩ := request_cons returned
      · simp only [nobody, Option.any_none, Bool.false_eq_true, if_false, Nat.add_zero]
        exact ih rest
      · simp only [found, Option.any_some, takes, if_true, Function.iterate_zero_apply]
        constructor
        · intro asked member
          rw [List.mem_singleton.mp member, appended]
          exact List.prefix_append _ _
        · refine ⟨i, ?_⟩
          rw [posted_cons, appended, List.drop_left]
          rfl
      · have delivered := ih rest
        have unposted : posted (⟨i, a, a⟩ :: log') = posted log' := by
          rw [posted_cons, List.drop_length]
          rfl
        have more : (leftOver moved delegateCategory tupleCategory)^[fullBefore later +
            if a.refusesFull then 1 else 0] (e, args) =
            (leftOver moved delegateCategory tupleCategory)^[fullBefore later] job := by
          rw [left]
          split_ifs <;> rfl
        simp only [found, Option.any_some, refuses, Bool.false_eq_true, if_false, more]
        refine ⟨List.forall_mem_cons.mpr ⟨List.prefix_rfl, delivered.1⟩, ?_⟩
        rw [unposted]
        exact delivered.2

omit [Inhabited A] in
/-- When the job survives so many refusals. -/
theorem leftOver_iterate_iff (n : Nat) :
    (leftOver moved delegateCategory tupleCategory)^[n] (e, args) = (e, args) ↔
      (delegateCategory = .lvalue ∨ n = 0 ∨ e = {}) ∧
        (tupleCategory = .lvalue ∨ moved^[n] args = args) := by
  have apart : leftOver moved delegateCategory tupleCategory =
      Prod.map (fun e : Delegate F => (e.construct delegateCategory).2)
        (if tupleCategory = .lvalue then id else moved) := by
    funext job
    cases tupleCategory <;> rfl
  rw [apart, Prod.map_iterate, Prod.map_apply, Prod.mk.injEq]
  apply and_congr
  · cases delegateCategory with
    | lvalue => simp [Delegate.construct, Function.iterate_fixed]
    | rvalue =>
        have emptied : (fun e : Delegate F => (e.construct .rvalue).2) = fun _ => {} := by
          funext e
          exact Delegate.deepCopyMove_snd {} e
        rw [emptied]
        cases n with
        | zero => simp
        | succ n => simp [Function.iterate_succ_apply', eq_comm]
  · cases tupleCategory <;> simp

/-- A call that returns true has delivered the job exactly when no full mailbox
was asked with a part of it that it could consume: the delegate or the tuple is
passed as an lvalue, or has nothing to lose by a move. -/
theorem handover_iff (returned : requestWithArgstuple delegateCategory tupleCategory
      moments e args = some (true, log)) :
    Delivered log e args ↔
      (delegateCategory = .lvalue ∨ fullBefore moments = 0 ∨ e = {}) ∧
        (tupleCategory = .lvalue ∨ moved^[fullBefore moments] args = args) := by
  have delivered := posted_of_returned returned
  rw [← leftOver_iterate_iff]
  constructor
  · intro own
    obtain ⟨_, i, posted⟩ := own
    obtain ⟨_, j, posted'⟩ := delivered
    rw [posted] at posted'
    simp only [List.cons.injEq, Prod.mk.injEq, and_true] at posted'
    exact (Prod.ext posted'.2.1 posted'.2.2).symm
  · intro survived
    rw [survived] at delivered
    exact delivered

/-- A group of an actor whose mailbox is full and an idle one. -/
def busyAndIdle : ActorGroup Char (List Nat) where
  actorPointers := [
    { queueSize := 1
      mailbox := {
        capacity := 1
        itemGuards := [false]
        itemContainer := [({}, [7])]
        overwriteMode := false
        rear := 0
        front := 0
        size := 1 }
      mailboxCounter := 1
      state := .proc },
    { queueSize := 1, mailbox := .create 1 false }]
  size := 2

theorem busyAndIdle_sound (a : ActorBox Char (List Nat)) (member : a ∈ busyAndIdle.actorPointers) :
    a.Sound fun _ => [] := by
  simp only [busyAndIdle, List.mem_cons, List.not_mem_nil, or_false] at member
  obtain rfl | rfl := member
  · refine ⟨by decide, .inl ⟨0, 1, ⟨?_, ?_⟩, rfl⟩, by decide⟩
    · exact ⟨rfl, rfl, rfl, rfl, rfl, rfl, rfl, by decide, by decide⟩
    · intro i above below
      exact absurd above (Nat.not_le.mpr below)
  · exact ⟨by decide, .create rfl 1, by decide⟩

/-- Two attempts, which come to the full mailbox first. -/
def busyFirst : List (Moment Char fun _ : List Nat => []) :=
  [⟨0, busyAndIdle, busyAndIdle_sound⟩, ⟨1, busyAndIdle, busyAndIdle_sound⟩]

/-- Passed as lvalues, the job is delivered all the same. -/
theorem handover_busyFirst :
    ∃ log, requestWithArgstuple .lvalue .lvalue busyFirst { container := ['f'] } [1] =
        some (true, log) ∧
      Delivered log { container := ['f'] } [1] := by
  obtain ⟨log, returned⟩ : ∃ log, requestWithArgstuple .lvalue .lvalue busyFirst
      { container := ['f'] } [1] = some (true, log) := ⟨_, rfl⟩
  exact ⟨log, returned, (handover_iff returned).mpr (by decide)⟩

/-- Passed as rvalues, an empty job is. -/
theorem handover_consumed :
    ∃ log, requestWithArgstuple .rvalue .rvalue busyFirst { container := ['f'] } [1] =
        some (true, log) ∧
      posted log = [(1, {}, [])] ∧ ¬ Delivered log { container := ['f'] } [1] := by
  obtain ⟨log, returned, consumed⟩ : ∃ log, requestWithArgstuple .rvalue .rvalue busyFirst
      { container := ['f'] } [1] = some (true, log) ∧ posted log = [(1, {}, [])] := ⟨_, rfl, rfl⟩
  refine ⟨log, returned, consumed, ?_⟩
  rintro ⟨_, i, own⟩
  simp [consumed] at own

end Scheduler
end Vee
