import Mathlib.Data.List.Nodup
import Vee.Actor.Mailbox
import Vee.Actor.Results
import Vee.Scheduler.Handover
import Vee.Transition.Simulation

/-!
# A scheduler and its actors

A scheduler with the actors of its group, each with its thread and the requests
made on it, and all calls of `scheduler::request_with_argstuple`. A call picks
an actor, makes a request on it and goes on to the next one when it is refused;
its steps interleave with those of other calls, of the actor threads and of the
schedulers of the same type, which share the static counter.

Every actor of the system performs a run of its own in which only requests are
made, so what holds of one actor holds of each. What a call adds is that at most
one of its requests is accepted: one of its mails is run, once, or, when the call
returns false, none. What the mails hold, and so which function a run of one calls,
is left out here.
-/

namespace Vee

open SignalChannel Transition

/-- Program points of `scheduler::request_with_argstuple`. -/
inductive Dispatch where
  | pick
  /-- in the request for the mail `mail` of the actor at `index` -/
  | ask (index : Nat) (mail : Mail)
  | returned (result : Bool)
  | threw (fault : Fault)
  deriving DecidableEq, Repr

/-- A request that a call of the scheduler has made of one of the actors. -/
structure Attempt where
  call : Nat
  index : Nat
  mail : Mail
  deriving DecidableEq, Repr

/-- The actor of an attempt and the request made there. -/
def Attempt.place (at_ : Attempt) : Nat × Mail := (at_.index, at_.mail)

namespace Attempt

/-- The program point of the request that the attempt has made. -/
def request? (actors : List System) (at_ : Attempt) : Option Request :=
  (actors[at_.index]?).bind fun a => a.requests[at_.mail]?

def refused (actors : List System) (at_ : Attempt) : Bool :=
  match at_.request? actors with
  | some (.returned result) => decide (result < 0)
  | _ => false

/-- How often the mail of the attempt has been run. -/
def runs (actors : List System) (at_ : Attempt) : Nat :=
  match actors[at_.index]? with
  | some a => a.actor.ran.count at_.mail
  | none => 0

end Attempt

/-- A scheduler with its actors and all calls made on it. `asked` is a history
variable. -/
structure Workshop where
  /-- `static std::atomic<int> counter` -/
  counter : BitVec 32 := 0
  /-- the member `_size` of the group -/
  size : Int
  actors : List System
  calls : List Dispatch := []
  asked : List Attempt := []
  deriving DecidableEq, Repr

inductive WorkshopAction where
  | call
  /-- a scheduler of the same type picks an actor of its own -/
  | pickElsewhere
  | dispatch (d : Nat) (spurious : Bool)
  /-- the constructor of the actor at `index` -/
  | construct (index : Nat) (spurious : Bool)
  /-- a thread of the actor at `index` -/
  | main (index g : Nat) (spurious : Bool)
  deriving DecidableEq, Repr

/-- The actor index of a pick, from the static counter and `_size`. The remainder of
the least int modulo -1 is not defined. -/
def actorIndex (counter : BitVec 32) (size : Int) : Option Int :=
  if size = 0 then some (-1)
  else if counter = BitVec.intMin 32 ∧ size = -1 then none
  else some (counter.toInt.tmod size)

/-- It is the one of `_get_current_actor_index`. -/
theorem getCurrentActorIndex_eq {F A : Type} [Inhabited A] {moved : A → A}
    (m : Moment F moved) {i : Int} (picked : actorIndex m.counter m.actorGroup.size = some i) :
    Scheduler.getCurrentActorIndex m = i := by
  simp only [actorIndex] at picked
  change (if m.actorGroup.size = 0 then -1 else m.counter.toInt.tmod m.actorGroup.size) = i
  split_ifs at picked ⊢
  · exact Option.some.inj picked
  · exact Option.some.inj picked

/-- Where the call goes on, once its request has got to the given point. -/
def Request.dispatch (index : Nat) (mail : Mail) : Request → Dispatch
  | .returned result => if result ≥ 0 then .returned true else .pick
  | .threw fault => .threw fault
  | _ => .ask index mail

namespace Request

variable {index i : Nat} {mail m : Mail} {pc : Request}

/-- A call returns when its request has been accepted, and then returns true. -/
theorem returned_of_dispatch {result : Bool} (h : pc.dispatch index mail = .returned result) :
    ∃ value, pc = .returned value ∧ 0 ≤ value ∧ result = true := by
  cases pc with
  | returned value =>
      simp only [dispatch] at h
      split_ifs at h with taken
      exact ⟨value, rfl, taken, (Dispatch.returned.inj h).symm⟩
  | _ => cases h

theorem threw_of_dispatch {fault : Fault} (h : pc.dispatch index mail = .threw fault) :
    pc = .threw fault := by
  cases pc with
  | threw fault' => rw [Dispatch.threw.inj h]
  | returned value =>
      simp only [dispatch] at h
      split_ifs at h
  | _ => cases h

theorem negative_of_dispatch (h : pc.dispatch index mail = .pick) :
    ∃ value, pc = .returned value ∧ value < 0 := by
  cases pc with
  | returned value =>
      simp only [dispatch] at h
      split_ifs at h with taken
      exact ⟨value, rfl, Int.not_le.mp taken⟩
  | _ => cases h

theorem ask_of_dispatch (h : pc.dispatch index mail = .ask i m) : index = i ∧ mail = m := by
  cases pc with
  | returned value =>
      simp only [dispatch] at h
      split_ifs at h
  | threw => cases h
  | _ => exact Dispatch.ask.inj h

end Request

namespace Workshop

/-- The scheduler has allocated its actors, whose constructors are about to run.
`memory` is what the memory of the group held at the place of `_size`. -/
def constructing (memory : BitVec 32) (initActors mailboxSize : Nat) : Workshop where
  size := toInt32 (memory.toInt + initActors)
  actors := List.replicate initActors (.constructing mailboxSize)

/-- A step of the call `d`. -/
def dispatchStep (w : Workshop) (d : Nat) (spurious : Bool) : Dispatch → Option Workshop
  | .pick =>
      match actorIndex w.counter w.size with
      | none => none
      | some i =>
          let w := { w with counter := w.counter + 1 }
          if i < 0 then some { w with calls := w.calls.set d (.returned false) }
          else
            match w.actors[i.toNat]? with
            -- `at` returns a null pointer and the loop goes on
            | none => some w
            | some a =>
                match a.step .callRequest with
                | none => none
                | some a' =>
                    some { w with
                      actors := w.actors.set i.toNat a'
                      calls := w.calls.set d (.ask i.toNat a.requests.length)
                      asked := w.asked ++ [⟨d, i.toNat, a.requests.length⟩] }
  | .ask index mail =>
      match w.actors[index]? with
      | none => none
      | some a =>
          match a.step (.request mail spurious) with
          | none => none
          | some a' =>
              match a'.requests[mail]? with
              | none => none
              | some pc =>
                  some { w with
                    actors := w.actors.set index a'
                    calls := w.calls.set d (pc.dispatch index mail) }
  | .returned _ => none
  | .threw _ => none

/-- A step of the constructor or of a thread of one actor. -/
def actorStep (w : Workshop) (index : Nat) (action : Action) : Option Workshop :=
  match w.actors[index]? with
  | none => none
  | some a =>
      match a.step action with
      | none => none
      | some a' => some { w with actors := w.actors.set index a' }

def step (w : Workshop) : WorkshopAction → Option Workshop
  | .call => some { w with calls := w.calls ++ [.pick] }
  | .pickElsewhere => some { w with counter := w.counter + 1 }
  | .dispatch d spurious =>
      match w.calls[d]? with
      | none => none
      | some pc => w.dispatchStep d spurious pc
  | .construct index spurious => w.actorStep index (.spawn 0 spurious)
  | .main index g spurious => w.actorStep index (.main g spurious)

/-- The constructors of all actors have returned. -/
def Constructed (w : Workshop) : Prop := ∀ a ∈ w.actors, Pool.All (·.finished) a.spawns

/-- Nothing is called on a scheduler before its constructor has returned. -/
def AfterConstruction (w : Workshop) : WorkshopAction → Prop
  | .call => w.Constructed
  | _ => True

instance (w : Workshop) : Decidable w.Constructed :=
  inferInstanceAs (Decidable (∀ a ∈ w.actors, Pool.All (·.finished) a.spawns))

instance (w : Workshop) (a : WorkshopAction) : Decidable (AfterConstruction w a) :=
  match a with
  | .call => inferInstanceAs (Decidable w.Constructed)
  | .pickElsewhere | .dispatch _ _ | .construct _ _ | .main _ _ _ =>
      inferInstanceAs (Decidable True)

/-- How often mails that a call has made have been run. -/
def mailsRun (w : Workshop) (d : Nat) : Nat :=
  ((w.asked.filter (·.call = d)).map (·.runs w.actors)).sum

/-- The requests of a call that were not refused. -/
def live (w : Workshop) (d : Nat) : List Attempt :=
  (w.asked.filter (·.call = d)).filter (!·.refused w.actors)

/-- All calls have returned, and all actor threads wait for a signal. -/
structure AtRest (w : Workshop) : Prop where
  calls : Pool.All (fun pc => ∃ result, pc = .returned result) w.calls
  waiting : ∀ a ∈ w.actors, a.WaitsInRecv

variable {w w' : Workshop} {d index g : Nat} {mail : Mail} {spurious : Bool} {a a' : System}
variable {at_ : Attempt} {pc : Request}

/-- What a step of a call is: the pick of an index below 0, of one without an
actor, or of an actor, or a step of the request that the call has made. -/
inductive Steps (w : Workshop) (d : Nat) (spurious : Bool) : Workshop → Prop where
  | refuse : w.calls[d]? = some .pick → Steps w d spurious
      { w with counter := w.counter + 1, calls := w.calls.set d (.returned false) }
  | skip : w.calls[d]? = some .pick → Steps w d spurious { w with counter := w.counter + 1 }
  | ask {i a} : w.calls[d]? = some .pick → w.actors[i]? = some a → Steps w d spurious
      { w with
        counter := w.counter + 1
        actors := w.actors.set i { a with requests := a.requests ++ [.checkWorkable] }
        calls := w.calls.set d (.ask i a.requests.length)
        asked := w.asked ++ [⟨d, i, a.requests.length⟩] }
  | proceed {i mail a pc a' pc'} : w.calls[d]? = some (.ask i mail) → w.actors[i]? = some a →
      a.requests[mail]? = some pc → a.actor.requestStep mail spurious pc = some (a', pc') →
      Steps w d spurious
        { w with
          actors := w.actors.set i { a with actor := a', requests := a.requests.set mail pc' }
          calls := w.calls.set d (pc'.dispatch i mail) }

theorem steps_of_dispatch (h : w.step (.dispatch d spurious) = some w') :
    Steps w d spurious w' := by
  simp only [step] at h
  cases at_d : w.calls[d]? with
  | none => simp [at_d] at h
  | some pc =>
      simp only [at_d] at h
      cases pc with
      | pick =>
          simp only [dispatchStep] at h
          split at h
          · cases h
          · split_ifs at h with negative
            · obtain rfl := Option.some.inj h
              exact .refuse at_d
            · split at h
              · obtain rfl := Option.some.inj h
                exact .skip at_d
              · rename_i a at_i
                obtain rfl := Option.some.inj h
                exact .ask at_d at_i
      | ask i mail =>
          simp only [dispatchStep] at h
          cases at_i : w.actors[i]? with
          | none => simp [at_i] at h
          | some a =>
              simp only [at_i] at h
              cases taken : a.step (.request mail spurious) with
              | none => simp [taken] at h
              | some b =>
                  obtain ⟨pc, a', pc', at_mail, own, rfl⟩ := System.step_request taken
                  have bound := (List.getElem?_eq_some_iff.mp at_mail).1
                  simp only [taken, List.getElem?_set_self bound, Option.some.injEq] at h
                  subst h
                  exact .proceed at_d at_i at_mail own
      | returned => simp [dispatchStep] at h
      | threw => simp [dispatchStep] at h

theorem actorStep_eq {action : Action} (h : w.actorStep index action = some w') :
    ∃ a a', w.actors[index]? = some a ∧ a.step action = some a' ∧
      w' = { w with actors := w.actors.set index a' } := by
  simp only [actorStep] at h
  split at h
  · cases h
  · split at h
    · cases h
    · exact ⟨_, _, ‹_›, ‹_›, (Option.some.inj h).symm⟩

end Workshop

namespace Attempt

variable {actors : List System} {at_ : Attempt} {a b : System} {index : Nat} {pc : Request}

theorem request?_eq_some : at_.request? actors = some pc ↔
    ∃ a, actors[at_.index]? = some a ∧ a.requests[at_.mail]? = some pc :=
  Option.bind_eq_some_iff

theorem refused_iff : at_.refused actors = true ↔
    ∃ result, at_.request? actors = some (.returned result) ∧ result < 0 := by
  simp only [refused]
  split
  · rename_i result returned
    simp [returned]
  · rename_i other
    simp only [Bool.false_eq_true, false_iff]
    rintro ⟨result, returned, _⟩
    exact other result returned

theorem refused_congr {actors' : List System}
    (same : at_.request? actors' = at_.request? actors) :
    at_.refused actors' = at_.refused actors := by
  simp only [refused, same]

/-- A step of one actor shows in the requests made of it alone. -/
theorem request?_set (at_i : actors[index]? = some a) :
    at_.request? (actors.set index b) =
      if at_.index = index then b.requests[at_.mail]? else at_.request? actors := by
  have bound := (List.getElem?_eq_some_iff.mp at_i).1
  split
  · rename_i same
    simp only [request?, same, List.getElem?_set_self bound, Option.bind_some]
  · rename_i ne
    simp only [request?, List.getElem?_set_ne (Ne.symm ne)]

theorem request?_of_getElem? (at_i : actors[at_.index]? = some a) :
    at_.request? actors = a.requests[at_.mail]? := by
  simp only [request?, at_i, Option.bind_some]

end Attempt

namespace Workshop

variable {w w' : Workshop} {d index g : Nat} {mail : Mail} {spurious : Bool} {a a' : System}
variable {at_ : Attempt} {pc : Request}

/-- What a call has come to: all its requests were refused, or all but one. -/
inductive Answers (w : Workshop) (d : Nat) : Dispatch → Prop where
  | none {point : Dispatch} : w.live d = [] → point = .pick ∨ point = .returned false →
      Answers w d point
  | one {i : Nat} {m : Mail} {pc : Request} : w.live d = [⟨d, i, m⟩] →
      (⟨d, i, m⟩ : Attempt).request? w.actors = some pc → Answers w d (pc.dispatch i m)

/-- Each request was made by one call, and no call has two requests that were
not refused. -/
structure Dealt (w : Workshop) : Prop where
  known : ∀ at_ ∈ w.asked, at_.call < w.calls.length ∧ (at_.request? w.actors).isSome
  covered : ∀ at_ : Attempt, (at_.request? w.actors).isSome →
    ∃ own ∈ w.asked, own.place = at_.place
  apart : (w.asked.map Attempt.place).Nodup
  answers : ∀ (d : Nat) point, w.calls[d]? = some point → Answers w d point

/-- A step after which no refused request is anything else. -/
theorem live_eq (w w' : Workshop) (asked : w'.asked = w.asked)
    (kept : ∀ at_ ∈ w.asked, at_.refused w.actors → at_.refused w'.actors) (d : Nat) :
    w'.live d = (w.live d).filter (!·.refused w'.actors) := by
  simp only [live, asked]
  conv_rhs => rw [List.filter_filter]
  refine List.filter_congr fun at_ mem => ?_
  cases before : at_.refused w.actors with
  | false => simp
  | true => simp [kept at_ (List.mem_of_mem_filter mem) before]

/-- A step that leaves all requests where they are keeps the calls' answers. -/
theorem Answers.congr {point : Dispatch} (h : Answers w d point) (asked : w'.asked = w.asked)
    (same : ∀ at_ ∈ w.asked, at_.call = d → at_.request? w'.actors = at_.request? w.actors) :
    Answers w' d point := by
  have live : w'.live d = w.live d := by
    simp only [Workshop.live, asked]
    refine List.filter_congr fun at_ mem => ?_
    obtain ⟨inside, own⟩ := List.mem_filter.mp mem
    rw [Attempt.refused_congr (same at_ inside (of_decide_eq_true own))]
  cases h with
  | none empty => exact .none (live.trans empty) ‹_›
  | one only at_ =>
      refine .one (live.trans only) ((same _ ?_ rfl).trans at_)
      have mem : _ ∈ w.live d := only ▸ List.mem_singleton_self _
      exact List.mem_of_mem_filter (List.mem_of_mem_filter mem)

/-- A request that was not refused sends its call on elsewhere than to `pick`. -/
theorem Answers.live_eq_nil {point : Dispatch} (h : Answers w d point) (pick : point = .pick) :
    w.live d = [] := by
  cases h with
  | none empty => exact empty
  | @one i m pc only at_ =>
      have mem : (⟨d, i, m⟩ : Attempt) ∈ w.live d := only ▸ List.mem_singleton_self _
      have open_ : (⟨d, i, m⟩ : Attempt).refused w.actors = false := by
        simpa using (List.mem_filter.mp mem).2
      obtain ⟨value, rfl, negative⟩ := Request.negative_of_dispatch pick
      rw [Attempt.refused_iff.mpr ⟨value, at_, negative⟩] at open_
      cases open_

/-- The request of a call that is in it. -/
theorem Answers.asks {point : Dispatch} (h : Answers w d point)
    (ask : point = .ask index mail) : w.live d = [⟨d, index, mail⟩] := by
  cases h with
  | none _ other => obtain rfl | rfl := other <;> cases ask
  | @one i m pc only at_ =>
      obtain ⟨rfl, rfl⟩ := Request.ask_of_dispatch ask
      exact only

namespace Dealt

theorem asked_of_live (h : w.live d = [⟨d, index, mail⟩]) :
    (⟨d, index, mail⟩ : Attempt) ∈ w.asked := by
  have mem : (⟨d, index, mail⟩ : Attempt) ∈ w.live d := h ▸ List.mem_singleton_self _
  exact List.mem_of_mem_filter (List.mem_of_mem_filter mem)

/-- Steps that leave calls and requests where they are. -/
theorem quiet (h : Dealt w) (asked : w'.asked = w.asked) (calls : w'.calls = w.calls)
    (same : ∀ at_ : Attempt, at_.request? w'.actors = at_.request? w.actors) : Dealt w' where
  known := by
    intro at_ mem
    rw [calls, same]
    exact h.known at_ (asked ▸ mem)
  covered := by
    intro at_ made
    rw [same] at made
    rw [asked]
    exact h.covered at_ made
  apart := asked ▸ h.apart
  answers := by
    intro d point at_d
    rw [calls] at at_d
    exact (h.answers d point at_d).congr asked fun at_ _ _ => same at_

theorem call (h : Dealt w) : Dealt { w with calls := w.calls ++ [.pick] } where
  known := by
    intro at_ mem
    obtain ⟨known, made⟩ := h.known at_ mem
    refine ⟨?_, made⟩
    rw [List.length_append]
    exact Nat.lt_add_right _ known
  covered := h.covered
  apart := h.apart
  answers := by
    intro d point at_d
    obtain old | new := Nat.lt_or_ge d w.calls.length
    · rw [List.getElem?_append_left old] at at_d
      exact (h.answers d point at_d).congr rfl fun _ _ _ => rfl
    · rw [List.getElem?_append_right new, List.getElem?_singleton] at at_d
      split at at_d
      · refine .none ?_ (.inl (Option.some.inj at_d).symm)
        refine List.filter_eq_nil_iff.mpr fun at_ mem => ?_
        obtain ⟨inside, own⟩ := List.mem_filter.mp mem
        have := (h.known at_ inside).1
        have := of_decide_eq_true own
        omega
      · cases at_d

/-- The pick of an index below 0 ends the call. -/
theorem refuse (h : Dealt w) (at_d : w.calls[d]? = some .pick) :
    Dealt { w with counter := w.counter + 1, calls := w.calls.set d (.returned false) } where
  known := by
    intro at_ mem
    rw [List.length_set]
    exact h.known at_ mem
  covered := h.covered
  apart := h.apart
  answers := by
    intro j point at_j
    have bound := (List.getElem?_eq_some_iff.mp at_d).1
    by_cases same : d = j
    · subst same
      rw [List.getElem?_set_self bound] at at_j
      exact .none ((h.answers d _ at_d).live_eq_nil rfl) (.inr (Option.some.inj at_j).symm)
    · rw [List.getElem?_set_ne same] at at_j
      exact (h.answers j point at_j).congr rfl fun _ _ _ => rfl

/-- A call makes a request of the actor it has picked. -/
theorem ask (h : Dealt w) (at_d : w.calls[d]? = some .pick) (at_i : w.actors[index]? = some a) :
    Dealt { w with
      counter := w.counter + 1
      actors := w.actors.set index { a with requests := a.requests ++ [.checkWorkable] }
      calls := w.calls.set d (.ask index a.requests.length)
      asked := w.asked ++ [⟨d, index, a.requests.length⟩] } := by
  have bound := (List.getElem?_eq_some_iff.mp at_d).1
  let b : System := { a with requests := a.requests ++ [.checkWorkable] }
  -- the requests made before stay as they are
  have kept : ∀ at_ : Attempt, (at_.request? w.actors).isSome →
      at_.request? (w.actors.set index b) = at_.request? w.actors := by
    intro at_ made
    rw [Attempt.request?_set at_i]
    split
    · rename_i same
      subst same
      rw [Attempt.request?_of_getElem? at_i] at made ⊢
      obtain ⟨pc, at_mail⟩ := Option.isSome_iff_exists.mp made
      have inside := (List.getElem?_eq_some_iff.mp at_mail).1
      exact List.getElem?_append_left inside
    · rfl
  have new : (⟨d, index, a.requests.length⟩ : Attempt).request? (w.actors.set index b) =
      some .checkWorkable := by
    rw [Attempt.request?_set at_i, if_pos rfl]
    simp [b]
  have unmade : (⟨d, index, a.requests.length⟩ : Attempt).request? w.actors = none := by
    rw [Attempt.request?_of_getElem? at_i]
    exact List.getElem?_eq_none (Nat.le_refl _)
  refine ⟨?_, ?_, ?_, ?_⟩
  · intro at_ mem
    rw [List.length_set]
    obtain old | rfl := List.mem_append.mp mem |>.imp_right List.mem_singleton.mp
    · obtain ⟨known, made⟩ := h.known at_ old
      exact ⟨known, (kept at_ made).symm ▸ made⟩
    · exact ⟨bound, by rw [new]; rfl⟩
  · intro at_ made
    by_cases before : (at_.request? w.actors).isSome
    · obtain ⟨own, mem, same⟩ := h.covered at_ before
      exact ⟨own, List.mem_append_left _ mem, same⟩
    · refine ⟨_, List.mem_append_right _ (List.mem_singleton_self _), ?_⟩
      change (at_.request? (w.actors.set index b)).isSome at made
      rw [Attempt.request?_set at_i] at made
      split_ifs at made with same
      · rw [← same] at at_i
        rw [Attempt.request?_of_getElem? at_i, Option.isSome_iff_exists] at before
        obtain ⟨pc, at_mail⟩ := Option.isSome_iff_exists.mp made
        have inside := (List.getElem?_eq_some_iff.mp at_mail).1
        have outside : a.requests.length ≤ at_.mail := by
          by_contra less
          exact before ⟨_, List.getElem?_eq_getElem (Nat.not_le.mp less)⟩
        simp only [b, List.length_append, List.length_singleton] at inside
        have last := Nat.le_antisymm (Nat.le_of_lt_succ inside) outside
        rw [Attempt.place, Attempt.place, same, last]
      · exact absurd made before
  · rw [List.map_append, List.nodup_append]
    refine ⟨h.apart, by simp, ?_⟩
    intro place mem place' last same
    obtain ⟨at_, inside, rfl⟩ := List.mem_map.mp mem
    obtain rfl := List.mem_singleton.mp last
    obtain ⟨_, made⟩ := h.known at_ inside
    have equal : at_.request? w.actors =
        (⟨d, index, a.requests.length⟩ : Attempt).request? w.actors := by
      obtain ⟨index_eq, mail_eq⟩ := Prod.mk.inj same
      simp only [Attempt.request?]
      rw [index_eq, mail_eq]
    rw [equal, unmade] at made
    cases made
  · intro j point at_j
    have others : ∀ at_ ∈ w.asked, at_.refused (w.actors.set index b) = at_.refused w.actors :=
      fun at_ mem => Attempt.refused_congr (kept at_ (h.known at_ mem).2)
    by_cases same : d = j
    · subst same
      rw [List.getElem?_set_self bound] at at_j
      obtain rfl := Option.some.inj at_j
      have empty := (h.answers d _ at_d).live_eq_nil rfl
      change Answers _ d (Request.checkWorkable.dispatch index a.requests.length)
      refine .one ?_ new
      simp only [live] at empty ⊢
      rw [List.filter_append, List.filter_append]
      have rest : (w.asked.filter (·.call = d)).filter
          (!·.refused (w.actors.set index b)) = [] := by
        rw [← empty]
        exact List.filter_congr fun at_ mem => by rw [others at_ (List.mem_of_mem_filter mem)]
      have last : (⟨d, index, a.requests.length⟩ : Attempt).refused
          (w.actors.set index b) = false := by
        simp only [Attempt.refused, new]
      rw [rest]
      simp [last, b]
    · rw [List.getElem?_set_ne same] at at_j
      have before := h.answers j point at_j
      have live : Workshop.live { w with
          counter := w.counter + 1
          actors := w.actors.set index b
          calls := w.calls.set d (.ask index a.requests.length)
          asked := w.asked ++ [⟨d, index, a.requests.length⟩] } j = w.live j := by
        simp only [Workshop.live]
        rw [List.filter_append, List.filter_cons_of_neg (by simpa using same), List.filter_nil,
          List.append_nil]
        exact List.filter_congr fun at_ mem => by rw [others at_ (List.mem_of_mem_filter mem)]
      cases before with
      | none empty other => exact .none (live.trans empty) other
      | one only at_m =>
          refine .one (live.trans only) ((kept _ ?_).trans at_m)
          rw [at_m]
          rfl

/-- The request of a call takes a step. -/
theorem proceed {b : Actor} {pc' : Request} (h : Dealt w)
    (at_d : w.calls[d]? = some (.ask index mail)) (at_i : w.actors[index]? = some a)
    (at_mail : a.requests[mail]? = some pc)
    (taken : a.actor.requestStep mail spurious pc = some (b, pc')) :
    Dealt { w with
      actors := w.actors.set index { a with actor := b, requests := a.requests.set mail pc' }
      calls := w.calls.set d (pc'.dispatch index mail) } := by
  have bound := (List.getElem?_eq_some_iff.mp at_d).1
  have inside := (List.getElem?_eq_some_iff.mp at_mail).1
  let c : System := { a with actor := b, requests := a.requests.set mail pc' }
  have only := (h.answers d _ at_d).asks rfl
  have mine := asked_of_live only
  have stepped : ∀ at_ : Attempt, at_.place = (index, mail) →
      at_.request? w.actors = some pc ∧ at_.request? (w.actors.set index c) = some pc' := by
    rintro ⟨e, i, m⟩ same
    obtain ⟨rfl, rfl⟩ := Prod.mk.inj same
    refine ⟨Attempt.request?_eq_some.mpr ⟨a, at_i, at_mail⟩, ?_⟩
    rw [Attempt.request?_set at_i, if_pos rfl]
    exact List.getElem?_set_self inside
  have others : ∀ at_ : Attempt, at_.place ≠ (index, mail) →
      at_.request? (w.actors.set index c) = at_.request? w.actors := by
    intro at_ ne
    rw [Attempt.request?_set at_i]
    split
    · rename_i same
      rw [Attempt.request?_of_getElem? (same ▸ at_i)]
      refine List.getElem?_set_ne fun equal => ne ?_
      rw [Attempt.place, same, equal]
    · rfl
  have made : ∀ at_ : Attempt, (at_.request? (w.actors.set index c)).isSome =
      (at_.request? w.actors).isSome := by
    intro at_
    by_cases same : at_.place = (index, mail)
    · obtain ⟨before, after⟩ := stepped at_ same
      rw [before, after]
      rfl
    · rw [others at_ same]
  -- a request that takes a step had not returned
  have kept : ∀ at_ ∈ w.asked, at_.refused w.actors → at_.refused (w.actors.set index c) := by
    intro at_ _ refused
    by_cases same : at_.place = (index, mail)
    · obtain ⟨result, returned, _⟩ := Attempt.refused_iff.mp refused
      rw [(stepped at_ same).1] at returned
      obtain rfl := Option.some.inj returned
      simp [Actor.requestStep] at taken
    · rw [Attempt.refused_congr (others at_ same)]
      exact refused
  refine ⟨?_, ?_, h.apart, ?_⟩
  · intro at_ mem
    rw [List.length_set, made]
    exact h.known at_ mem
  · intro at_ requested
    rw [made] at requested
    exact h.covered at_ requested
  · intro j point at_j
    by_cases same : d = j
    · subst same
      rw [List.getElem?_set_self bound] at at_j
      obtain rfl := Option.some.inj at_j
      have live := live_eq w { w with
        actors := w.actors.set index c
        calls := w.calls.set d (pc'.dispatch index mail) } rfl kept d
      rw [only] at live
      have after := (stepped ⟨d, index, mail⟩ rfl).2
      cases refused : (⟨d, index, mail⟩ : Attempt).refused (w.actors.set index c) with
      | false => exact .one (live.trans (List.filter_cons_of_pos (by simp [refused]))) after
      | true =>
          refine .none (live.trans (List.filter_cons_of_neg (by simp [refused]))) (.inl ?_)
          obtain ⟨result, returned, negative⟩ := Attempt.refused_iff.mp refused
          rw [after] at returned
          obtain rfl := Option.some.inj returned
          exact if_neg (Int.not_le.mpr negative)
    · rw [List.getElem?_set_ne same] at at_j
      refine (h.answers j point at_j).congr rfl fun at_ mem own => others at_ fun equal => same ?_
      have unique := List.inj_on_of_nodup_map h.apart mine mem equal.symm
      exact (congrArg Attempt.call unique).trans own

/-- Every step keeps the calls' answers. -/
theorem step {action : WorkshopAction} (h : Dealt w) (enabled : w.step action = some w') :
    Dealt w' := by
  have still : ∀ {index action}, w.actorStep index action = some w' →
      (∀ a a' : System, a.step action = some a' → a'.requests = a.requests) → Dealt w' := by
    intro index action enabled same
    obtain ⟨a, a', at_i, taken, rfl⟩ := actorStep_eq enabled
    refine h.quiet rfl rfl fun at_ => ?_
    rw [Attempt.request?_set at_i]
    split
    · rename_i equal
      rw [same a a' taken, Attempt.request?_of_getElem? (equal ▸ at_i)]
    · rfl
  cases action with
  | call =>
      obtain rfl := Option.some.inj enabled
      exact h.call
  | pickElsewhere =>
      obtain rfl := Option.some.inj enabled
      exact h.quiet rfl rfl fun _ => rfl
  | dispatch d spurious =>
      cases steps_of_dispatch enabled with
      | refuse at_d => exact h.refuse at_d
      | skip at_d => exact h.quiet rfl rfl fun _ => rfl
      | ask at_d at_i => exact h.ask at_d at_i
      | proceed at_d at_i at_mail taken => exact h.proceed at_d at_i at_mail taken
  | construct index spurious =>
      refine still enabled fun a a' taken => ?_
      obtain ⟨_, _, _, _, _, rfl⟩ := System.step_spawn taken
      rfl
  | main index g spurious =>
      refine still enabled fun a a' taken => ?_
      obtain ⟨_, _, _, _, _, rfl⟩ := System.step_main taken
      rfl

theorem constructing (memory : BitVec 32) (initActors mailboxSize : Nat) :
    Dealt (.constructing memory initActors mailboxSize) where
  known := nofun
  covered := by
    intro at_ made
    obtain ⟨pc, requested⟩ := Option.isSome_iff_exists.mp made
    obtain ⟨a, at_i, at_mail⟩ := Attempt.request?_eq_some.mp requested
    obtain rfl := List.eq_of_mem_replicate (List.mem_of_getElem? at_i)
    cases at_mail
  apart := List.nodup_nil
  answers := nofun

end Dealt

/-- Moreover the calls take their steps after the construction. -/
def Ready (w : Workshop) : WorkshopAction → Prop
  | .call => w.Constructed
  | .dispatch _ _ => w.Constructed
  | _ => True

theorem constructed_set {b : System} (h : w.Constructed) (at_i : w.actors[index]? = some a)
    (same : b.spawns = a.spawns) : ∀ c ∈ w.actors.set index b, Pool.All (·.finished) c.spawns := by
  intro c mem
  obtain old | rfl := List.mem_or_eq_of_mem_set mem
  · exact h c old
  · rw [same]
    exact h a (List.mem_of_getElem? at_i)

/-- What is constructed stays so. -/
theorem Constructed.step {action : WorkshopAction} (h : w.Constructed)
    (enabled : w.step action = some w') : w'.Constructed := by
  cases action with
  | call | pickElsewhere =>
      obtain rfl := Option.some.inj enabled
      exact h
  | dispatch d spurious =>
      cases steps_of_dispatch enabled with
      | refuse | skip => exact h
      | ask _ at_i => exact constructed_set h at_i rfl
      | proceed _ at_i => exact constructed_set h at_i rfl
  | construct index spurious =>
      obtain ⟨a, a', at_i, taken, rfl⟩ := actorStep_eq enabled
      obtain ⟨pc, _, _, at_0, own, _⟩ := System.step_spawn taken
      have finished := (h a (List.mem_of_getElem? at_i)).get at_0
      cases pc with
      | returned => simp [Actor.spawnStep] at own
      | _ => cases finished
  | main index g spurious =>
      obtain ⟨a, a', at_i, taken, rfl⟩ := actorStep_eq enabled
      obtain ⟨_, _, _, _, _, rfl⟩ := System.step_main taken
      exact constructed_set h at_i rfl

/-- A call that takes a step was made after the construction. -/
theorem ready_of_run {memory : BitVec 32} {initActors mailboxSize : Nat}
    {actions : List WorkshopAction}
    (run : Run step AfterConstruction (.constructing memory initActors mailboxSize) actions w) :
    Run step Ready (.constructing memory initActors mailboxSize) actions w := by
  refine run.strengthen (I := fun w => w.calls ≠ [] → w.Constructed)
    (fun nonempty => absurd rfl nonempty) ?_
  intro u action v built admitted enabled
  cases action with
  | call => exact ⟨admitted, fun _ => Constructed.step admitted enabled⟩
  | dispatch d spurious =>
      have called : u.calls ≠ [] := by
        intro none
        simp only [step, none, List.getElem?_nil] at enabled
        cases enabled
      exact ⟨built called, fun _ => (built called).step enabled⟩
  | pickElsewhere =>
      obtain rfl := Option.some.inj enabled
      exact ⟨trivial, built⟩
  | construct index spurious | main index g spurious =>
      refine ⟨trivial, fun called => Constructed.step (built ?_) enabled⟩
      obtain ⟨_, _, _, _, rfl⟩ := actorStep_eq enabled
      exact called

/-- A step of the whole moves at most one actor, and makes requests of it only. -/
theorem moves {action : WorkshopAction} (ready : Ready w action)
    (enabled : w.step action = some w') :
    Moves System.step RequestsOnly w.actors w'.actors := by
  cases action with
  | call | pickElsewhere =>
      obtain rfl := Option.some.inj enabled
      exact .none
  | dispatch d spurious =>
      cases steps_of_dispatch enabled with
      | refuse | skip => exact .none
      | ask _ at_i => exact .one (a := .callRequest) at_i (ready _ (List.mem_of_getElem? at_i)) rfl
      | @proceed _ mail _ _ _ _ _ at_i at_mail taken =>
          refine .one (a := .request mail spurious) at_i trivial ?_
          simp [System.step, at_mail, taken]
  | construct index spurious =>
      obtain ⟨a, a', at_i, taken, rfl⟩ := actorStep_eq enabled
      exact .one (a := .spawn 0 spurious) at_i trivial taken
  | main index g spurious =>
      obtain ⟨a, a', at_i, taken, rfl⟩ := actorStep_eq enabled
      exact .one (a := .main g spurious) at_i trivial taken

variable {memory : BitVec 32} {initActors mailboxSize : Nat} {actions : List WorkshopAction}

/-- Each actor performs a run of its own. -/
theorem actor_run
    (run : Run step AfterConstruction (.constructing memory initActors mailboxSize) actions w)
    (at_i : w.actors[index]? = some a) :
    ∃ own, Run System.step RequestsOnly (.constructing mailboxSize) own a := by
  have ready := ready_of_run run
  have length := ready.length_parts actors fun _ _ _ => moves
  have bound := (List.getElem?_eq_some_iff.mp at_i).1
  rw [length] at bound
  have start : (constructing memory initActors mailboxSize).actors[index]? =
      some (.constructing mailboxSize) := by
    rw [List.getElem?_eq_getElem bound]
    exact congrArg some (List.eq_of_mem_replicate (List.getElem_mem bound))
  obtain ⟨own, a', at_i', performed⟩ :=
    ready.component actors (fun _ _ _ => moves) start
  obtain rfl := Option.some.inj (at_i.symm.trans at_i')
  exact ⟨own, performed⟩

/-- What holds of an actor that performs a run of its own. -/
structure Serves (a : System) : Prop where
  faultless : a.Faultless
  truthful : a.Truthful
  once : a.actor.ran.Nodup
  accepted : ∀ mail ∈ a.actor.ran, mail ∈ a.actor.accepted
  known : ∀ mail ∈ a.actor.accepted, ∃ pc, a.requests[mail]? = some pc
  drained : Pool.All (·.finished) a.requests → a.WaitsInRecv → a.actor.ran = a.actor.accepted

theorem serves
    (run : Run step AfterConstruction (.constructing memory initActors mailboxSize) actions w)
    (small : mailboxSize < 2 ^ 31) (mem : a ∈ w.actors) : Serves a := by
  obtain ⟨index, at_i⟩ := List.getElem?_of_mem mem
  obtain ⟨own, performed⟩ := actor_run run at_i
  have orderly := NoRespawn.orderly (performed.mono RequestsOnly.noRespawn)
  obtain ⟨cur, holder, total, h⟩ := Invariant.of_run orderly
  refine ⟨h.control.faultless, Invariant.truthful_of_run orderly small,
    h.history.nodup.sublist h.history.ran_isPrefix.sublist,
    fun mail ran => h.history.ran_isPrefix.subset ran, ?_, ?_⟩
  · intro mail accepted
    obtain ⟨pc, at_mail, _⟩ := h.history.began mail accepted
    exact ⟨pc, at_mail⟩
  · intro requests waits
    refine (h.quiescent requests ?_ waits).1
    rw [RequestsOnly.kills_eq_nil performed]
    exact Pool.all_nil

/-- A refused request is not run. -/
theorem runs_refused (each : ∀ a ∈ w.actors, Serves a) (refused : at_.refused w.actors = true) :
    at_.runs w.actors = 0 := by
  obtain ⟨result, returned, negative⟩ := Attempt.refused_iff.mp refused
  obtain ⟨a, at_i, at_mail⟩ := Attempt.request?_eq_some.mp returned
  have serves := each a (List.mem_of_getElem? at_i)
  have out : at_.mail ∉ a.actor.accepted := by
    obtain ⟨_, out⟩ | ⟨nonneg, _⟩ := serves.truthful _ _ at_mail
    · exact out
    · omega
  simp only [Attempt.runs, at_i]
  exact List.count_eq_zero.mpr fun ran => out (serves.accepted _ ran)

/-- Only the requests that were not refused count. -/
theorem mailsRun_eq (each : ∀ a ∈ w.actors, Serves a) (d : Nat) :
    w.mailsRun d = ((w.live d).map (·.runs w.actors)).sum := by
  simp only [mailsRun, live]
  induction w.asked.filter (·.call = d) with
  | nil => rfl
  | cons at_ rest ih =>
      cases refused : at_.refused w.actors with
      | true =>
          rw [List.filter_cons_of_neg (by simp [refused]), List.map_cons, List.sum_cons,
            runs_refused each refused, Nat.zero_add]
          exact ih
      | false =>
          rw [List.filter_cons_of_pos (by simp [refused]), List.map_cons, List.map_cons,
            List.sum_cons, List.sum_cons, ih]

theorem runs_le_one (each : ∀ a ∈ w.actors, Serves a) : at_.runs w.actors ≤ 1 := by
  simp only [Attempt.runs]
  split
  · rename_i a at_i
    exact List.nodup_iff_count_le_one.mp (each a (List.mem_of_getElem? at_i)).once _
  · exact Nat.zero_le 1

/-- Where a call has returned, so have its requests. -/
theorem Answers.returned {point : Dispatch} (h : Answers w d point) {result : Bool}
    (done : point = .returned result) (mem : at_ ∈ w.asked) (own : at_.call = d) :
    ∃ value, at_.request? w.actors = some (.returned value) := by
  have refused_or : at_.refused w.actors = true ∨ at_ ∈ w.live d := by
    cases refused : at_.refused w.actors with
    | true => exact .inl rfl
    | false =>
        exact .inr (List.mem_filter.mpr
          ⟨List.mem_filter.mpr ⟨mem, decide_eq_true own⟩, by simp [refused]⟩)
  obtain refused | live := refused_or
  · obtain ⟨value, returned, _⟩ := Attempt.refused_iff.mp refused
    exact ⟨value, returned⟩
  · cases h with
    | none empty =>
        rw [empty] at live
        cases live
    | @one i m pc only at_m =>
        rw [only] at live
        obtain rfl := List.mem_singleton.mp live
        obtain ⟨value, rfl, _⟩ := Request.returned_of_dispatch done
        exact ⟨value, at_m⟩

/-- At rest every actor has run the mails it accepted. -/
theorem Dealt.drained (h : Dealt w) (each : ∀ a ∈ w.actors, Serves a) (rest : w.AtRest)
    (at_i : w.actors[index]? = some a) : a.actor.ran = a.actor.accepted := by
  have mem := List.mem_of_getElem? at_i
  refine (each a mem).drained ?_ (rest.waiting a mem)
  intro pc requested
  obtain ⟨mail, at_mail⟩ := List.getElem?_of_mem requested
  have at_place : (⟨0, index, mail⟩ : Attempt).request? w.actors = some pc :=
    Attempt.request?_eq_some.mpr ⟨a, at_i, at_mail⟩
  obtain ⟨own, asked, same⟩ := h.covered ⟨0, index, mail⟩ (by rw [at_place]; rfl)
  obtain ⟨called, _⟩ := h.known own asked
  have at_call := List.getElem?_eq_getElem called
  obtain ⟨result, done⟩ := rest.calls.get at_call
  obtain ⟨value, returned⟩ := (h.answers own.call _ at_call).returned done asked rfl
  have equal : own.request? w.actors = (⟨0, index, mail⟩ : Attempt).request? w.actors := by
    obtain ⟨index_eq, mail_eq⟩ := Prod.mk.inj same
    simp only [Attempt.request?]
    rw [index_eq, mail_eq]
  rw [← equal, returned] at at_place
  obtain rfl := Option.some.inj at_place
  rfl

theorem dealt_of_run
    (run : Run step AfterConstruction (.constructing memory initActors mailboxSize) actions w) :
    Dealt w :=
  run.invariant (I := Dealt) (.constructing memory initActors mailboxSize)
    fun _ _ _ h _ enabled => h.step enabled

/-- No call throws, since no request does. -/
theorem Dealt.not_threw (h : Dealt w) (each : ∀ a ∈ w.actors, Serves a) (fault : Fault) :
    Dispatch.threw fault ∉ w.calls := by
  intro mem
  obtain ⟨d, at_d⟩ := List.getElem?_of_mem mem
  have answer := h.answers d _ at_d
  generalize same : Dispatch.threw fault = point at answer
  cases answer with
  | none _ other => obtain rfl | rfl := other <;> cases same
  | one _ at_m =>
      obtain ⟨a, at_i, at_mail⟩ := Attempt.request?_eq_some.mp at_m
      obtain rfl := Request.threw_of_dispatch same.symm
      exact (each a (List.mem_of_getElem? at_i)).faultless.requests fault
        (List.mem_of_getElem? at_mail)

/-- What the result of a call says about its mails. -/
theorem Dealt.counts (h : Dealt w) (each : ∀ a ∈ w.actors, Serves a) {point : Dispatch}
    (at_d : w.calls[d]? = some point) : w.mailsRun d ≤ 1 ∧
      (point = .returned false → w.mailsRun d = 0) ∧
      (point = .returned true → w.AtRest → w.mailsRun d = 1) := by
  rw [mailsRun_eq each]
  cases h.answers d point at_d with
  | none empty other =>
      rw [empty]
      refine ⟨Nat.zero_le 1, fun _ => rfl, ?_⟩
      obtain rfl | rfl := other <;> exact nofun
  | @one i m pc only at_m =>
      rw [only, List.map_singleton, List.sum_singleton]
      obtain ⟨a, at_i, at_mail⟩ := Attempt.request?_eq_some.mp at_m
      refine ⟨runs_le_one each, ?_, ?_⟩
      · intro refused
        obtain ⟨_, _, _, impossible⟩ := Request.returned_of_dispatch refused
        cases impossible
      · intro returned rest
        obtain ⟨value, rfl, taken, _⟩ := Request.returned_of_dispatch returned
        have serves := each a (List.mem_of_getElem? at_i)
        obtain ⟨negative, _⟩ | ⟨_, _, accepted⟩ := serves.truthful _ _ at_mail
        · omega
        · rw [← h.drained each rest at_i] at accepted
          simp only [Attempt.runs, at_i]
          exact List.count_eq_one_of_mem serves.once accepted

end Workshop
end Vee
