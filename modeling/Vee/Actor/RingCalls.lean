import Vee.Actor.RingMailbox

/-!
# The calls of the ring queue on a list

A call of `enqueue` or `dequeue` takes its effect on the list with its index section. To
enter the call and to access the slot changes nothing there: before the index section the
caller is shown in front of the operation, and behind it as one that has performed it.
-/

namespace Vee

open SignalChannel Transition

namespace Actor

variable {a a' : Actor} {spurious : Bool}

/-- Only a dequeue leads to a job. -/
theorem mainStep_ne_run {pc pc' : Main} (outside : pc ≠ .dequeue)
    (h : a.mainStep spurious pc = some (a', pc')) (job : Mail) : pc' ≠ .run job := by
  rintro rfl
  cases pc with
  | dequeue => exact outside rfl
  | sendSpawn send | sendExitOk send =>
      obtain ⟨_, _, ⟨_, running⟩ | sent | ⟨_, threw⟩⟩ := trySendLoop_inv (Option.some.inj h)
      · cases running
      · cases sent
      · cases threw
  | recv wait =>
      obtain ⟨_, _, ⟨_, running⟩ | ⟨value, received⟩ | ⟨_, threw⟩⟩ := recvCall_inv h
      · cases running
      · cases value <;> cases received
      · cases threw
  | checkSpawn | casIdle =>
      simp only [mainStep] at h
      split at h <;> cases h
  | uncount =>
      simp only [mainStep] at h
      split at h <;> cases h
  | _ => cases h

end Actor

namespace RingSystem

variable {s t : RingSystem} {a : Action} {mailboxSize i g p c : Nat} {spurious : Bool}
variable {mailbox : Shared (Option Mail)} {moved}

section Requests

variable {mailbox' : Shared (Option Mail)} {actor : Actor} {pc' : RingRequest}

/-- A request takes a step, and the calls of the others in the ring queue stay. -/
theorem Linked.request (linked : Linked mailboxSize s) (shared : mailbox'.Invariant mailboxSize)
    (size : actor.queueSize = s.actor.queueSize)
    (genuine : ∀ item ∈ mailbox'.enqueued.map (·.2), item ≠ none)
    (own : ∀ p, pc' = .inEnqueue p → mailbox'.producers[p]? = some (.reserve (some i)) ∨
      ∃ slot, mailbox'.producers[p]? = some (.store (some i) slot))
    (others : ∀ j p : Nat, s.requests[j]? = some (.inEnqueue p) → j ≠ i →
      mailbox'.producers[p]? = s.mailbox.producers[p]?)
    (consumers : mailbox'.consumers = s.mailbox.consumers) :
    Linked mailboxSize
      { s with actor, mailbox := mailbox', requests := s.requests.set i pc' } where
  shared := shared
  size := size.trans linked.size
  genuine := genuine
  enqueues := by
    intro j p at_j
    rw [List.getElem?_set] at at_j
    split at at_j
    · subst i
      split at at_j
      · exact own p (Option.some.inj at_j)
      · cases at_j
    · rename_i differ
      rw [others j p at_j (Ne.symm differ)]
      exact linked.enqueues j p at_j
  dequeues := by
    rw [consumers]
    exact linked.dequeues
  apart := linked.apart
  idle := linked.idle
  atHand := linked.atHand
  ran := linked.ran

/-- A thread sees its own call of the ring queue only. -/
theorem erase_main_congr (consumers : mailbox'.consumers = mailbox.consumers)
    (tickets : ∀ c : Nat, (∃ slot, mailbox.consumers[c]? = some (.load slot)) →
      ticketItem mailbox' c = ticketItem mailbox c) (pc : RingMain) :
    pc.erase mailbox' = pc.erase mailbox := by
  cases pc with
  | inDequeue c =>
      simp only [RingMain.erase, consumers]
      split
      · rename_i slot loading
        rw [tickets c ⟨slot, loading⟩]
      · rfl
  | _ => rfl

/-- The list does not change with a step of a request that leaves the tickets alone. -/
theorem erase_request (actor : Actor) (dequeued : mailbox'.dequeued = s.mailbox.dequeued)
    (others : ∀ j p : Nat, s.requests[j]? = some (.inEnqueue p) → j ≠ i →
      mailbox'.producers[p]? = s.mailbox.producers[p]?)
    (mains : ∀ pc ∈ s.mains, pc.erase mailbox' = pc.erase s.mailbox) :
    erase { s with actor, mailbox := mailbox', requests := s.requests.set i pc' } =
      { s.erase with
        actor := actor.withMails
          (((mailbox'.enqueued.map (·.2)).drop s.mailbox.dequeued.length).map mailOf)
          ((mailbox'.enqueued.map (·.2)).map mailOf) (s.ran.map mailOf)
        requests := s.erase.requests.set i (pc'.erase mailbox') } := by
  have requests : (s.requests.set i pc').map (·.erase mailbox') =
      (s.requests.map (·.erase s.mailbox)).set i (pc'.erase mailbox') := by
    apply Pool.map_set
    intro j pc at_j differ
    cases pc with
    | own pc => rfl
    | inEnqueue p => simp only [RingRequest.erase, others j p at_j differ]
  simp only [erase, accepted, dequeued, requests, List.map_congr_left mains]

theorem erase_request_at {pc : RingRequest} (at_i : s.requests[i]? = some pc) :
    s.erase.requests[i]? = some (pc.erase s.mailbox) := by
  simp only [erase, List.getElem?_map, at_i, Option.map_some]

theorem erase_main_at {pc : RingMain} (at_g : s.mains[g]? = some pc) :
    s.erase.mains[g]? = some (pc.erase s.mailbox) := by
  simp only [erase, List.getElem?_map, at_g, Option.map_some]

/-- A request at rest in the ring queue leaves the list as it is. -/
theorem erase_request_stays {pc : RingRequest} (at_i : s.requests[i]? = some pc)
    (enqueued : mailbox'.enqueued = s.mailbox.enqueued)
    (dequeued : mailbox'.dequeued = s.mailbox.dequeued)
    (consumers : mailbox'.consumers = s.mailbox.consumers)
    (others : ∀ j p : Nat, s.requests[j]? = some (.inEnqueue p) → j ≠ i →
      mailbox'.producers[p]? = s.mailbox.producers[p]?)
    (same : pc'.erase mailbox' = pc.erase s.mailbox) :
    erase { s with mailbox := mailbox', requests := s.requests.set i pc' } = s.erase := by
  have mains (pc : RingMain) : pc.erase mailbox' = pc.erase s.mailbox := by
    apply erase_main_congr consumers
    intro c _
    simp only [ticketItem, enqueued, dequeued]
  have unmoved : s.erase.requests.set i (pc.erase s.mailbox) = s.erase.requests := by
    obtain ⟨bound, here⟩ := List.getElem?_eq_some_iff.mp (erase_request_at at_i)
    rw [← here, List.set_getElem_self]
  rw [erase_request s.actor dequeued others fun pc _ => mains pc, enqueued, same, unmoved]
  rfl

theorem accepted_length : s.accepted.length = s.mailbox.enqueued.length := List.length_map _

/-- The calls of the other requests in the ring queue are other ones. -/
theorem Linked.others_request (linked : Linked mailboxSize s)
    (at_i : s.requests[i]? = some (.inEnqueue p)) {pc : Producer (Option Mail)}
    (producers : mailbox'.producers = s.mailbox.producers.set p pc) (j p' : Nat)
    (at_j : s.requests[j]? = some (.inEnqueue p')) (differ : j ≠ i) :
    mailbox'.producers[p']? = s.mailbox.producers[p']? := by
  have apart : p ≠ p' := by
    rintro rfl
    apply differ
    obtain at_p | ⟨slot, at_p⟩ := linked.enqueues i p at_i <;>
      obtain at_p' | ⟨slot', at_p'⟩ := linked.enqueues j p at_j <;>
      rw [at_p] at at_p' <;> cases at_p' <;> rfl
  rw [producers, List.getElem?_set_ne apart]

theorem erase_mailbox_length (s : RingSystem) : s.erase.actor.mailbox.length =
    s.mailbox.enqueued.length - s.mailbox.dequeued.length := by
  simp only [erase, Actor.withMails, List.length_map, List.length_drop, accepted_length]

/-- The enqueue of a request is refused. -/
theorem erase_enqueue_refused (linked : Linked mailboxSize s)
    (at_i : s.requests[i]? = some (.inEnqueue p))
    (at_p : s.mailbox.producers[p]? = some (.reserve (some i)))
    (full : s.mailbox.queue.enqueueIndex = none)
    (made : mailbox' = { s.mailbox with
      producers := s.mailbox.producers.set p (.returned false) })
    (shared : mailbox'.Invariant mailboxSize) :
    s.erase.step (.request i spurious) = some (erase { s with
        mailbox := mailbox', requests := s.requests.set i (.own (.returned (-2))) }) ∧
    Linked mailboxSize { s with
      mailbox := mailbox', requests := s.requests.set i (.own (.returned (-2))) } := by
  have others (j p' : Nat) (at_j : s.requests[j]? = some (.inEnqueue p')) (differ : j ≠ i) :
      mailbox'.producers[p']? = s.mailbox.producers[p']? :=
    linked.others_request at_i (by rw [made]) j p' at_j differ
  have mains (pc : RingMain) : pc.erase mailbox' = pc.erase s.mailbox := by
    rw [made]
    rfl
  have at_erased : s.erase.requests[i]? = some .enqueue := by
    rw [erase_request_at at_i]
    simp only [RingRequest.erase, at_p]
  have taken : s.erase.actor.requestStep i spurious .enqueue =
      some (s.erase.actor, .returned (-2)) := by
    have length := erase_mailbox_length s
    rw [(enqueueIndex_eq_none_iff linked.shared).mp full, ← linked.size] at length
    exact if_pos length
  constructor
  · rw [System.request_taken at_erased taken,
      erase_request s.actor (by rw [made]) others fun pc _ => mains pc, made]
    rfl
  · apply linked.request shared rfl _ (fun p' same => by cases same) others
    · rw [made]
    · rw [made]
      exact linked.genuine

/-- The enqueue of a request is given a place behind the mails that wait. -/
theorem erase_enqueue_reserved (linked : Linked mailboxSize s)
    (at_i : s.requests[i]? = some (.inEnqueue p))
    (at_p : s.mailbox.producers[p]? = some (.reserve (some i))) {slot : Int}
    {queue : RingQueue (Option Mail)}
    (reserved : s.mailbox.queue.enqueueIndex = some (slot, queue))
    (made : mailbox' = { s.mailbox with
      queue
      producers := s.mailbox.producers.set p (.store (some i) slot)
      enqueued := s.mailbox.enqueued ++ [(p, some i)] })
    (shared : mailbox'.Invariant mailboxSize) :
    s.erase.step (.request i spurious) = some (erase { s with
        mailbox := mailbox', requests := s.requests.set i (.inEnqueue p) }) ∧
    Linked mailboxSize { s with
      mailbox := mailbox', requests := s.requests.set i (.inEnqueue p) } := by
  have bound := (List.getElem?_eq_some_iff.mp at_p).1
  have others (j p' : Nat) (at_j : s.requests[j]? = some (.inEnqueue p')) (differ : j ≠ i) :
      mailbox'.producers[p']? = s.mailbox.producers[p']? :=
    linked.others_request at_i (by rw [made]) j p' at_j differ
  have storing : mailbox'.producers[p]? = some (.store (some i) slot) := by
    rw [made]
    exact List.getElem?_set_self bound
  have given : mailbox'.enqueued = s.mailbox.enqueued ++ [(p, some i)] := by
    rw [made]
  have shown : RingRequest.erase mailbox' (.inEnqueue p) = .count := by
    simp only [RingRequest.erase, storing]
  have deq_le := linked.shared.tickets.deq_le
  -- a dequeue that has got its item has a ticket before the new one
  have mains (pc : RingMain) : pc.erase mailbox' = pc.erase s.mailbox := by
    refine erase_main_congr (by rw [made]) (fun c loading => ?_) pc
    obtain ⟨slot', at_c⟩ := loading
    obtain ⟨k, at_k⟩ := linked.shared.dequeues.ticket c slot' at_c
    have earlier := List.idxOf_lt_length_of_mem (List.mem_of_getElem? at_k)
    rw [made]
    simp only [ticketItem]
    rw [List.getElem?_append_left (by omega)]
  have at_erased : s.erase.requests[i]? = some .enqueue := by
    rw [erase_request_at at_i]
    simp only [RingRequest.erase, at_p]
  have taken : s.erase.actor.requestStep i spurious .enqueue = some ({ s.erase.actor with
      mailbox := s.erase.actor.mailbox ++ [i]
      accepted := s.erase.actor.accepted ++ [i] }, .count) := by
    apply if_neg
    rw [erase_mailbox_length]
    intro full
    rw [(enqueueIndex_eq_none_iff linked.shared).mpr (full.trans linked.size)] at reserved
    cases reserved
  have behind : ((s.accepted ++ [some i]).drop s.mailbox.dequeued.length).map mailOf =
      s.erase.actor.mailbox ++ [i] := by
    rw [List.drop_append_of_le_length (by rw [accepted_length]; exact deq_le), List.map_append]
    rfl
  have put : mailbox'.enqueued.map (·.2) = s.accepted ++ [some i] := by
    rw [given, List.map_append]
    rfl
  constructor
  · rw [System.request_taken at_erased taken,
      erase_request s.actor (by rw [made]) others fun pc _ => mains pc, shown, put, behind,
      List.map_append]
    rfl
  · apply linked.request shared rfl _ _ others
    · rw [made]
    · rw [put]
      intro item member
      obtain old | new := List.mem_append.mp member
      · exact linked.genuine item old
      · rw [List.mem_singleton.mp new]
        exact Option.some_ne_none i
    · intro p' same
      cases same
      exact .inr ⟨slot, storing⟩

/-- The enqueue of a request stores the mail in its place. -/
theorem erase_enqueue_stored (linked : Linked mailboxSize s)
    (at_i : s.requests[i]? = some (.inEnqueue p)) {slot : Int} {queue : RingQueue (Option Mail)}
    (at_p : s.mailbox.producers[p]? = some (.store (some i) slot))
    (made : mailbox' = { s.mailbox with
      queue
      producers := s.mailbox.producers.set p (.returned true) })
    (shared : mailbox'.Invariant mailboxSize) :
    erase { s with mailbox := mailbox', requests := s.requests.set i (.own .count) } =
      s.erase ∧
    Linked mailboxSize { s with
      mailbox := mailbox', requests := s.requests.set i (.own .count) } := by
  have others (j p' : Nat) (at_j : s.requests[j]? = some (.inEnqueue p')) (differ : j ≠ i) :
      mailbox'.producers[p']? = s.mailbox.producers[p']? :=
    linked.others_request at_i (by rw [made]) j p' at_j differ
  constructor
  · apply erase_request_stays at_i (by rw [made]) (by rw [made]) (by rw [made]) others
    simp only [RingRequest.erase, at_p]
  · apply linked.request shared rfl _ (fun p' same => by cases same) others
    · rw [made]
    · rw [made]
      exact linked.genuine

/-- A step of the call of `enqueue` is one of the list's, or none. -/
theorem erase_step_inEnqueue (linked : Linked mailboxSize s)
    (at_i : s.requests[i]? = some (.inEnqueue p)) (turn : InTurn s.mailbox (.producer p))
    (stepped : s.mailbox.step moved (.producer p) = some mailbox') :
    (erase { s with mailbox := mailbox', requests := s.requests.set i (enqueued mailbox' p) } =
        s.erase ∨
      s.erase.step (.request i spurious) = some (erase { s with
        mailbox := mailbox', requests := s.requests.set i (enqueued mailbox' p) })) ∧
    Linked mailboxSize
      { s with mailbox := mailbox', requests := s.requests.set i (enqueued mailbox' p) } := by
  have shared := linked.shared.step turn stepped
  obtain at_p | ⟨slot, at_p⟩ := linked.enqueues i p at_i
  · have bound := (List.getElem?_eq_some_iff.mp at_p).1
    obtain ⟨full, made⟩ | ⟨slot, queue, reserved, made⟩ := reserveEnqueue_cases at_p stepped
    · have next : enqueued mailbox' p = .own (.returned (-2)) := by
        simp only [enqueued, made, List.getElem?_set_self bound]
      rw [next]
      obtain ⟨simulated, linked'⟩ := erase_enqueue_refused linked at_i at_p full made shared
      exact ⟨.inr simulated, linked'⟩
    · have next : enqueued mailbox' p = .inEnqueue p := by
        simp only [enqueued, made, List.getElem?_set_self bound]
      rw [next]
      obtain ⟨simulated, linked'⟩ := erase_enqueue_reserved linked at_i at_p reserved made shared
      exact ⟨.inr simulated, linked'⟩
  · have bound := (List.getElem?_eq_some_iff.mp at_p).1
    obtain ⟨queue, made⟩ := storeEnqueue_cases at_p stepped
    have next : enqueued mailbox' p = .own .count := by
      simp only [enqueued, made, List.getElem?_set_self bound]
    rw [next]
    obtain ⟨same, linked'⟩ := erase_enqueue_stored linked at_i at_p made shared
    exact ⟨.inl same, linked'⟩

/-- A request calls `enqueue`. -/
theorem erase_step_callEnqueue (linked : Linked mailboxSize s)
    (at_i : s.requests[i]? = some (.own .enqueue))
    (stepped : s.mailbox.step moved (.callEnqueue (some i)) = some mailbox') :
    erase { s with
        mailbox := mailbox'
        requests := s.requests.set i (.inEnqueue s.mailbox.producers.length) } = s.erase ∧
    Linked mailboxSize { s with
      mailbox := mailbox'
      requests := s.requests.set i (.inEnqueue s.mailbox.producers.length) } := by
  have turn : InTurn s.mailbox (.callEnqueue (some i)) := trivial
  have shared := linked.shared.step turn stepped
  have made := (Option.some.inj stepped).symm
  have producers : mailbox'.producers = s.mailbox.producers ++ [.reserve (some i)] := by
    rw [made]
  have called : mailbox'.producers[s.mailbox.producers.length]? = some (.reserve (some i)) := by
    rw [producers, List.getElem?_append_right (Nat.le_refl _), Nat.sub_self]
    rfl
  have others (j p : Nat) (at_j : s.requests[j]? = some (.inEnqueue p)) (_ : j ≠ i) :
      mailbox'.producers[p]? = s.mailbox.producers[p]? := by
    have inside : ∃ pc, s.mailbox.producers[p]? = some pc := by
      obtain at_p | ⟨slot, at_p⟩ := linked.enqueues j p at_j <;> exact ⟨_, at_p⟩
    obtain ⟨pc, at_p⟩ := inside
    rw [producers, List.getElem?_append_left (List.getElem?_eq_some_iff.mp at_p).1]
  constructor
  · apply erase_request_stays at_i (by rw [made]) (by rw [made]) (by rw [made]) others
    simp only [RingRequest.erase, called]
  · apply linked.request shared rfl _ _ others
    · rw [made]
    · rw [made]
      exact linked.genuine
    · intro p same
      cases same
      exact .inl called

/-- A step of a request outside the mailbox's operation. -/
theorem erase_step_ownRequest (linked : Linked mailboxSize s) {pc pc' : Request}
    (at_i : s.requests[i]? = some (.own pc)) (outside : pc ≠ .enqueue)
    (taken : s.actor.requestStep i spurious pc = some (actor, pc')) :
    s.erase.step (.request i spurious) = some (erase { s with
        actor, requests := s.requests.set i (.own pc') }) ∧
    Linked mailboxSize { s with actor, requests := s.requests.set i (.own pc') } := by
  have erased : s.erase.actor.requestStep i spurious pc = some (actor.withMails
      s.erase.actor.mailbox s.erase.actor.accepted s.erase.actor.ran, pc') := by
    refine (Actor.requestStep_withMails _ _ _ i outside).trans ?_
    rw [taken]
    rfl
  constructor
  · rw [System.request_taken (erase_request_at at_i) erased,
      erase_request actor rfl (fun _ _ _ _ => rfl) fun _ _ => rfl]
    rfl
  · exact linked.request linked.shared (Actor.requestStep_queueSize taken) linked.genuine
      (fun p same => by cases same) (fun _ _ _ _ => rfl) rfl

theorem erase_step_request (linked : Linked mailboxSize s)
    (turn : s.AccessesInTurn (.request i spurious))
    (stepped : s.step moved (.request i spurious) = some t) :
    (t.erase = s.erase ∨ s.erase.step (.request i spurious) = some t.erase) ∧
      Linked mailboxSize t := by
  obtain ⟨pc, actor, mailbox', pc', at_i, taken, rfl⟩ := step_request stepped
  cases pc with
  | own pc =>
      simp only [requestStep] at taken
      split at taken
      · rename_i entering
        subst pc
        obtain ⟨_, called, made⟩ := Option.map_eq_some_iff.mp taken
        cases made
        obtain ⟨same, linked'⟩ := erase_step_callEnqueue linked at_i called
        exact ⟨.inl same, linked'⟩
      · rename_i outside
        obtain ⟨⟨_, _⟩, own, made⟩ := Option.map_eq_some_iff.mp taken
        cases made
        obtain ⟨simulated, linked'⟩ := erase_step_ownRequest linked at_i outside own
        exact ⟨.inr simulated, linked'⟩
  | inEnqueue p =>
      obtain ⟨_, performed, made⟩ := Option.map_eq_some_iff.mp taken
      cases made
      simp only [AccessesInTurn, at_i] at turn
      exact erase_step_inEnqueue linked at_i turn performed

end Requests

section Mains

variable {mailbox' : Shared (Option Mail)} {actor : Actor} {pc' : RingMain}
variable {ran : List (Option Mail)}

/-- A thread takes a step, and the calls of the others in the ring queue stay. -/
theorem Linked.main (linked : Linked mailboxSize s) (shared : mailbox'.Invariant mailboxSize)
    (size : actor.queueSize = s.actor.queueSize)
    (producers : mailbox'.producers = s.mailbox.producers)
    (enqueued : mailbox'.enqueued = s.mailbox.enqueued)
    (own : ∀ c, pc' = .inDequeue c →
      (mailbox'.consumers[c]? = some .reserve ∨
          ∃ slot, mailbox'.consumers[c]? = some (.load slot)) ∧
        ∀ g' : Nat, s.mains[g']? = some (.inDequeue c) → g' = g)
    (others : ∀ g' c : Nat, s.mains[g']? = some (.inDequeue c) → g' ≠ g →
      mailbox'.consumers[c]? = s.mailbox.consumers[c]?)
    (idle : ∀ job, pc' ≠ .own (.run job)) (atHand : ∀ item, pc' = .run item → item ≠ none)
    (ran_genuine : ∀ item ∈ ran, item ≠ none) :
    Linked mailboxSize { s with actor, mailbox := mailbox', ran, mains := s.mains.set g pc' } where
  shared := shared
  size := size.trans linked.size
  genuine := by
    simp only [accepted, enqueued]
    exact linked.genuine
  enqueues := by
    rw [producers]
    exact linked.enqueues
  dequeues := by
    intro g' c at_g
    rw [List.getElem?_set] at at_g
    split at at_g
    · split at at_g
      · exact (own c (Option.some.inj at_g)).1
      · cases at_g
    · rename_i differ
      rw [others g' c at_g (Ne.symm differ)]
      exact linked.dequeues g' c at_g
  apart := by
    intro j k c at_j at_k
    rw [List.getElem?_set] at at_j at_k
    split at at_j
    · split at at_j
      · split at at_k
        · omega
        · exact absurd ((own c (Option.some.inj at_j)).2 k at_k).symm ‹_›
      · cases at_j
    · split at at_k
      · split at at_k
        · exact absurd ((own c (Option.some.inj at_k)).2 j at_j).symm ‹_›
        · cases at_k
      · exact linked.apart j k c at_j at_k
  idle := by
    intro job member
    obtain old | new := List.mem_or_eq_of_mem_set member
    · exact linked.idle job old
    · exact idle job new.symm
  atHand := by
    intro item member
    obtain old | new := List.mem_or_eq_of_mem_set member
    · exact linked.atHand item old
    · exact atHand item new.symm
  ran := ran_genuine

theorem erase_main (actor : Actor) (ran : List (Option Mail))
    (producers : mailbox'.producers = s.mailbox.producers)
    (enqueued : mailbox'.enqueued = s.mailbox.enqueued)
    (others : ∀ g' c : Nat, s.mains[g']? = some (.inDequeue c) → g' ≠ g →
      RingMain.erase mailbox' (.inDequeue c) = RingMain.erase s.mailbox (.inDequeue c)) :
    erase { s with actor, mailbox := mailbox', ran, mains := s.mains.set g pc' } =
      { s.erase with
        actor := actor.withMails ((s.accepted.drop mailbox'.dequeued.length).map mailOf)
          (s.accepted.map mailOf) (ran.map mailOf)
        mains := s.erase.mains.set g (pc'.erase mailbox') } := by
  have mains : (s.mains.set g pc').map (·.erase mailbox') =
      (s.mains.map (·.erase s.mailbox)).set g (pc'.erase mailbox') := by
    apply Pool.map_set
    intro j pc at_j differ
    cases pc with
    | inDequeue c => exact others j c at_j differ
    | _ => rfl
  have requests : s.requests.map (·.erase mailbox') = s.requests.map (·.erase s.mailbox) := by
    apply List.map_congr_left
    intro pc _
    cases pc with
    | own pc => rfl
    | inEnqueue p => simp only [RingRequest.erase, producers]
  simp only [erase, accepted, enqueued, mains, requests]

theorem erase_main_stays {pc : RingMain} (at_g : s.mains[g]? = some pc)
    (producers : mailbox'.producers = s.mailbox.producers)
    (enqueued : mailbox'.enqueued = s.mailbox.enqueued)
    (dequeued : mailbox'.dequeued = s.mailbox.dequeued)
    (others : ∀ g' c : Nat, s.mains[g']? = some (.inDequeue c) → g' ≠ g →
      mailbox'.consumers[c]? = s.mailbox.consumers[c]?)
    (same : pc'.erase mailbox' = pc.erase s.mailbox) :
    erase { s with mailbox := mailbox', mains := s.mains.set g pc' } = s.erase := by
  have views (g' c : Nat) (at_g' : s.mains[g']? = some (.inDequeue c)) (differ : g' ≠ g) :
      RingMain.erase mailbox' (.inDequeue c) = RingMain.erase s.mailbox (.inDequeue c) := by
    simp only [RingMain.erase, others g' c at_g' differ, ticketItem, enqueued, dequeued]
  have unmoved : s.erase.mains.set g (pc.erase s.mailbox) = s.erase.mains := by
    obtain ⟨bound, here⟩ := List.getElem?_eq_some_iff.mp (erase_main_at at_g)
    rw [← here, List.set_getElem_self]
  rw [erase_main s.actor s.ran producers enqueued views, same, unmoved, dequeued]
  rfl

/-- A thread calls `dequeue`. -/
theorem erase_step_callDequeue (linked : Linked mailboxSize s)
    (at_g : s.mains[g]? = some (.own .dequeue))
    (stepped : s.mailbox.step moved .callDequeue = some mailbox') :
    erase { s with
        mailbox := mailbox'
        mains := s.mains.set g (.inDequeue s.mailbox.consumers.length) } = s.erase ∧
    Linked mailboxSize { s with
      mailbox := mailbox'
      mains := s.mains.set g (.inDequeue s.mailbox.consumers.length) } := by
  have turn : InTurn s.mailbox (.callDequeue : Access (Option Mail)) := trivial
  have shared := linked.shared.step turn stepped
  have made := (Option.some.inj stepped).symm
  have consumers : mailbox'.consumers = s.mailbox.consumers ++ [.reserve] := by
    rw [made]
  have called : mailbox'.consumers[s.mailbox.consumers.length]? = some .reserve := by
    rw [consumers, List.getElem?_append_right (Nat.le_refl _), Nat.sub_self]
    rfl
  have inside {g' c : Nat} (at_g' : s.mains[g']? = some (.inDequeue c)) :
      c < s.mailbox.consumers.length := by
    obtain at_c | ⟨slot, at_c⟩ := linked.dequeues g' c at_g' <;>
      exact (List.getElem?_eq_some_iff.mp at_c).1
  have others (g' c : Nat) (at_g' : s.mains[g']? = some (.inDequeue c)) (_ : g' ≠ g) :
      mailbox'.consumers[c]? = s.mailbox.consumers[c]? := by
    rw [consumers, List.getElem?_append_left (inside at_g')]
  constructor
  · apply erase_main_stays at_g (by rw [made]) (by rw [made]) (by rw [made]) others
    simp only [RingMain.erase, called]
  · apply linked.main shared rfl (by rw [made]) (by rw [made]) _ others
      (fun job same => by cases same) (fun item same => by cases same) linked.ran
    intro c same
    cases same
    exact ⟨.inl called, fun g' at_g' => absurd (inside at_g') (Nat.lt_irrefl _)⟩

/-- The calls of the other threads in the ring queue are other ones. -/
theorem Linked.others_main (linked : Linked mailboxSize s)
    (at_g : s.mains[g]? = some (.inDequeue c)) {pc : Consumer (Option Mail)}
    (consumers : mailbox'.consumers = s.mailbox.consumers.set c pc) (g' c' : Nat)
    (at_g' : s.mains[g']? = some (.inDequeue c')) (differ : g' ≠ g) :
    mailbox'.consumers[c']? = s.mailbox.consumers[c']? := by
  have apart : c ≠ c' := by
    rintro rfl
    exact differ (linked.apart g' g c at_g' at_g)
  rw [consumers, List.getElem?_set_ne apart]

/-- The next dequeue gets the first of the items that wait. -/
theorem Linked.exists_waiting (linked : Linked mailboxSize s)
    (waiting : s.mailbox.dequeued.length < s.mailbox.enqueued.length) :
    ∃ p job, s.mailbox.enqueued[s.mailbox.dequeued.length]? = some (p, some job) := by
  obtain ⟨⟨p, item⟩, at_next⟩ : ∃ entry,
      s.mailbox.enqueued[s.mailbox.dequeued.length]? = some entry :=
    ⟨_, List.getElem?_eq_getElem waiting⟩
  have genuine : item ≠ none :=
    linked.genuine item (List.mem_map.mpr ⟨_, List.mem_of_getElem? at_next, rfl⟩)
  obtain ⟨job, rfl⟩ := Option.ne_none_iff_exists'.mp genuine
  exact ⟨p, job, at_next⟩

/-- The dequeue of a thread finds nothing, and `_epoch` returns. -/
theorem erase_dequeue_refused (linked : Linked mailboxSize s)
    (at_g : s.mains[g]? = some (.inDequeue c)) (at_c : s.mailbox.consumers[c]? = some .reserve)
    (empty : s.mailbox.queue.dequeueIndex = none)
    (made : mailbox' = { s.mailbox with
      consumers := s.mailbox.consumers.set c (.returned none) })
    (shared : mailbox'.Invariant mailboxSize) :
    s.erase.step (.main g spurious) = some (erase { s with
        mailbox := mailbox', mains := s.mains.set g (.own (.recv .check)) }) ∧
    Linked mailboxSize { s with
      mailbox := mailbox', mains := s.mains.set g (.own (.recv .check)) } := by
  have others (g' c' : Nat) (at_g' : s.mains[g']? = some (.inDequeue c')) (differ : g' ≠ g) :
      mailbox'.consumers[c']? = s.mailbox.consumers[c']? :=
    linked.others_main at_g (by rw [made]) g' c' at_g' differ
  have tickets (c' : Nat) : ticketItem mailbox' c' = ticketItem s.mailbox c' := by
    rw [made]
    rfl
  have views (g' c' : Nat) (at_g' : s.mains[g']? = some (.inDequeue c')) (differ : g' ≠ g) :
      RingMain.erase mailbox' (.inDequeue c') = RingMain.erase s.mailbox (.inDequeue c') := by
    simp only [RingMain.erase, others g' c' at_g' differ, tickets]
  have at_erased : s.erase.mains[g]? = some .dequeue := by
    rw [erase_main_at at_g]
    simp only [RingMain.erase, at_c]
  have nothing : s.erase.actor.mailbox = [] := by
    have short := (dequeueIndex_eq_none_iff linked.shared).mp empty
    simp only [erase, Actor.withMails]
    rw [List.drop_eq_nil_of_le (by rw [accepted_length]; exact short), List.map_nil]
  have taken : s.erase.actor.mainStep spurious .dequeue =
      some (s.erase.actor, .recv .check) := by
    simp only [Actor.mainStep, nothing]
  constructor
  · rw [System.main_taken at_erased taken,
      erase_main s.actor s.ran (by rw [made]) (by rw [made]) views, made]
    rfl
  · exact linked.main shared rfl (by rw [made]) (by rw [made]) (fun _ same => by cases same)
      others (fun _ same => by cases same) (fun _ same => by cases same) linked.ran

/-- The dequeue of a thread is given the first mail that waits. -/
theorem erase_dequeue_reserved (linked : Linked mailboxSize s)
    (at_g : s.mains[g]? = some (.inDequeue c)) (at_c : s.mailbox.consumers[c]? = some .reserve)
    {slot : Int} {queue : RingQueue (Option Mail)}
    (reserved : s.mailbox.queue.dequeueIndex = some (slot, queue))
    (made : mailbox' = { s.mailbox with
      queue
      consumers := s.mailbox.consumers.set c (.load slot)
      dequeued := s.mailbox.dequeued ++ [c] })
    (shared : mailbox'.Invariant mailboxSize) :
    s.erase.step (.main g spurious) = some (erase { s with
        mailbox := mailbox', mains := s.mains.set g (.inDequeue c) }) ∧
    Linked mailboxSize { s with
      mailbox := mailbox', mains := s.mains.set g (.inDequeue c) } := by
  have bound := (List.getElem?_eq_some_iff.mp at_c).1
  have others (g' c' : Nat) (at_g' : s.mains[g']? = some (.inDequeue c')) (differ : g' ≠ g) :
      mailbox'.consumers[c']? = s.mailbox.consumers[c']? :=
    linked.others_main at_g (by rw [made]) g' c' at_g' differ
  have loading : mailbox'.consumers[c]? = some (.load slot) := by
    rw [made]
    exact List.getElem?_set_self bound
  have waiting : s.mailbox.dequeued.length < s.mailbox.enqueued.length := by
    by_contra none_left
    rw [(dequeueIndex_eq_none_iff linked.shared).mpr (Nat.not_lt.mp none_left)] at reserved
    cases reserved
  obtain ⟨p, job, at_next⟩ := linked.exists_waiting waiting
  -- a dequeue that has got its item keeps its place among the tickets
  have views (g' c' : Nat) (at_g' : s.mains[g']? = some (.inDequeue c')) (differ : g' ≠ g) :
      RingMain.erase mailbox' (.inDequeue c') = RingMain.erase s.mailbox (.inDequeue c') := by
    simp only [RingMain.erase, others g' c' at_g' differ]
    obtain at_c' | ⟨slot', at_c'⟩ := linked.dequeues g' c' at_g'
    · simp only [at_c']
    · obtain ⟨k, at_k⟩ := linked.shared.dequeues.ticket c' slot' at_c'
      simp only [at_c', made, ticketItem, List.idxOf_append_of_mem (List.mem_of_getElem? at_k)]
  have unknown : c ∉ s.mailbox.dequeued := by
    intro known
    obtain ⟨k, at_k⟩ := List.getElem?_of_mem known
    exact linked.shared.dequeues.fresh at_c k at_k
  have ticket : ticketItem mailbox' c = some job := by
    have place : (s.mailbox.dequeued ++ [c]).idxOf c = s.mailbox.dequeued.length := by
      rw [List.idxOf_append_of_notMem unknown, List.idxOf_cons_self, Nat.add_zero]
    rw [made]
    simp only [ticketItem, place, at_next]
    rfl
  have at_erased : s.erase.mains[g]? = some .dequeue := by
    rw [erase_main_at at_g]
    simp only [RingMain.erase, at_c]
  have first : s.erase.actor.mailbox =
      job :: (s.accepted.drop (s.mailbox.dequeued.length + 1)).map mailOf := by
    have at_accepted : s.accepted[s.mailbox.dequeued.length]? = some (some job) := by
      simp only [accepted, List.getElem?_map, at_next, Option.map_some]
    obtain ⟨inside, here⟩ := List.getElem?_eq_some_iff.mp at_accepted
    simp only [erase, Actor.withMails]
    rw [List.drop_eq_getElem_cons inside, here]
    rfl
  have taken : s.erase.actor.mainStep spurious .dequeue = some ({ s.erase.actor with
      mailbox := (s.accepted.drop (s.mailbox.dequeued.length + 1)).map mailOf }, .run job) := by
    simp only [Actor.mainStep, first]
  have shown : RingMain.erase mailbox' (.inDequeue c) = .run job := by
    simp only [RingMain.erase, loading, ticket, mailOf, Option.getD_some]
  constructor
  · rw [System.main_taken at_erased taken,
      erase_main s.actor s.ran (by rw [made]) (by rw [made]) views, shown, made,
      List.length_append, List.length_singleton]
    rfl
  · apply linked.main shared rfl (by rw [made]) (by rw [made]) _ others
      (fun _ same => by cases same) (fun _ same => by cases same) linked.ran
    intro c' same
    cases same
    exact ⟨.inr ⟨slot, loading⟩, fun g' at_g' => linked.apart g' g c at_g' at_g⟩

/-- The dequeue of a thread loads the item that it was given. -/
theorem erase_dequeue_loaded (linked : Linked mailboxSize s)
    (at_g : s.mains[g]? = some (.inDequeue c)) {slot : Int} {queue : RingQueue (Option Mail)}
    {item : Option Mail} (at_c : s.mailbox.consumers[c]? = some (.load slot))
    (made : mailbox' = { s.mailbox with
      queue
      consumers := s.mailbox.consumers.set c (.returned (some item)) })
    (shared : mailbox'.Invariant mailboxSize) :
    erase { s with mailbox := mailbox', mains := s.mains.set g (.run item) } = s.erase ∧
    Linked mailboxSize { s with
      mailbox := mailbox', mains := s.mains.set g (.run item) } := by
  have bound := (List.getElem?_eq_some_iff.mp at_c).1
  have others (g' c' : Nat) (at_g' : s.mains[g']? = some (.inDequeue c')) (differ : g' ≠ g) :
      mailbox'.consumers[c']? = s.mailbox.consumers[c']? :=
    linked.others_main at_g (by rw [made]) g' c' at_g' differ
  have returned : mailbox'.consumers[c]? = some (.returned (some item)) := by
    rw [made]
    exact List.getElem?_set_self bound
  obtain ⟨k, at_k⟩ := linked.shared.dequeues.ticket c slot at_c
  -- by the queue's invariant the item is that of the call's own ticket
  have known : c ∈ s.mailbox.dequeued := List.mem_of_getElem? at_k
  have ticket : ∃ p, s.mailbox.enqueued[s.mailbox.dequeued.idxOf c]? = some (p, item) := by
    have at_ticket : mailbox'.dequeued[s.mailbox.dequeued.idxOf c]? = some c := by
      rw [made]
      exact List.getElem?_idxOf known
    obtain loading | ⟨p, item', given, taken⟩ := shared.dequeues.located _ c at_ticket
    · rw [returned] at loading
      cases loading
    · rw [returned] at taken
      cases taken
      rw [made] at given
      exact ⟨p, given⟩
  obtain ⟨p, given⟩ := ticket
  have genuine : item ≠ none :=
    linked.genuine item (List.mem_map.mpr ⟨_, List.mem_of_getElem? given, rfl⟩)
  constructor
  · apply erase_main_stays at_g (by rw [made]) (by rw [made]) (by rw [made]) others
    simp only [RingMain.erase, at_c, ticketItem, given, Option.bind_some]
  · apply linked.main shared rfl (by rw [made]) (by rw [made]) (fun _ same => by cases same) others
      (fun _ same => by cases same) _ linked.ran
    intro item' same
    cases same
    exact genuine

/-- A step of the call of `dequeue` is one of the list's, or none. -/
theorem erase_step_inDequeue (linked : Linked mailboxSize s)
    (at_g : s.mains[g]? = some (.inDequeue c)) (turn : InTurn s.mailbox (.consumer c))
    (stepped : s.mailbox.step moved (.consumer c) = some mailbox') :
    (erase { s with mailbox := mailbox', mains := s.mains.set g (dequeued mailbox' c) } =
        s.erase ∨
      s.erase.step (.main g spurious) = some (erase { s with
        mailbox := mailbox', mains := s.mains.set g (dequeued mailbox' c) })) ∧
    Linked mailboxSize
      { s with mailbox := mailbox', mains := s.mains.set g (dequeued mailbox' c) } := by
  have shared := linked.shared.step turn stepped
  obtain at_c | ⟨slot, at_c⟩ := linked.dequeues g c at_g
  · have bound := (List.getElem?_eq_some_iff.mp at_c).1
    obtain ⟨empty, made⟩ | ⟨slot, queue, reserved, made⟩ := reserveDequeue_cases at_c stepped
    · have next : dequeued mailbox' c = .own (.recv .check) := by
        simp only [dequeued, made, List.getElem?_set_self bound]
      rw [next]
      obtain ⟨simulated, linked'⟩ := erase_dequeue_refused linked at_g at_c empty made shared
      exact ⟨.inr simulated, linked'⟩
    · have next : dequeued mailbox' c = .inDequeue c := by
        simp only [dequeued, made, List.getElem?_set_self bound]
      rw [next]
      obtain ⟨simulated, linked'⟩ := erase_dequeue_reserved linked at_g at_c reserved made shared
      exact ⟨.inr simulated, linked'⟩
  · have bound := (List.getElem?_eq_some_iff.mp at_c).1
    obtain ⟨item, queue, made⟩ := loadDequeue_cases at_c stepped
    have next : dequeued mailbox' c = .run item := by
      simp only [dequeued, made, List.getElem?_set_self bound]
    rw [next]
    obtain ⟨same, linked'⟩ := erase_dequeue_loaded linked at_g at_c made shared
    exact ⟨.inl same, linked'⟩

/-- A step of a thread outside the mailbox's operation. -/
theorem erase_step_ownMain (linked : Linked mailboxSize s) {pc pc' : Main}
    (at_g : s.mains[g]? = some (.own pc)) (outside : pc ≠ .dequeue)
    (taken : s.actor.mainStep spurious pc = some (actor, pc')) :
    s.erase.step (.main g spurious) = some (erase { s with
        actor, mains := s.mains.set g (.own pc') }) ∧
    Linked mailboxSize { s with actor, mains := s.mains.set g (.own pc') } := by
  have idle (job : Mail) : pc ≠ .run job := by
    rintro rfl
    exact linked.idle job (List.mem_of_getElem? at_g)
  have erased : s.erase.actor.mainStep spurious pc = some (actor.withMails
      s.erase.actor.mailbox s.erase.actor.accepted s.erase.actor.ran, pc') := by
    refine (Actor.mainStep_withMails _ _ _ outside idle).trans ?_
    rw [taken]
    rfl
  constructor
  · rw [System.main_taken (erase_main_at at_g) erased,
      erase_main actor s.ran rfl rfl fun _ _ _ _ => rfl]
    rfl
  · refine linked.main linked.shared (Actor.mainStep_mailbox taken).1 rfl rfl
      (fun _ same => by cases same) (fun _ _ _ _ => rfl) (fun job same => ?_)
      (fun _ same => by cases same) linked.ran
    exact Actor.mainStep_ne_run outside taken job (RingMain.own.inj same)

/-- A thread runs the mail that it has taken out. -/
theorem erase_step_run (linked : Linked mailboxSize s) {currentJob : Option Mail}
    (at_g : s.mains[g]? = some (.run currentJob)) :
    s.erase.step (.main g spurious) = some (erase { s with
        ran := s.ran ++ [currentJob], mains := s.mains.set g (.own .uncount) }) ∧
    Linked mailboxSize { s with
      ran := s.ran ++ [currentJob], mains := s.mains.set g (.own .uncount) } := by
  have genuine := linked.atHand currentJob (List.mem_of_getElem? at_g)
  constructor
  · rw [System.main_taken (erase_main_at at_g) rfl,
      erase_main s.actor (s.ran ++ [currentJob]) rfl rfl fun _ _ _ _ => rfl, List.map_append]
    rfl
  · refine linked.main linked.shared rfl rfl rfl (fun _ same => by cases same)
      (fun _ _ _ _ => rfl) (fun _ same => by cases same) (fun _ same => by cases same) ?_
    intro item member
    obtain old | new := List.mem_append.mp member
    · exact linked.ran item old
    · rw [List.mem_singleton.mp new]
      exact genuine

theorem erase_step_main (linked : Linked mailboxSize s)
    (turn : s.AccessesInTurn (.main g spurious))
    (stepped : s.step moved (.main g spurious) = some t) :
    (t.erase = s.erase ∨ s.erase.step (.main g spurious) = some t.erase) ∧
      Linked mailboxSize t := by
  obtain ⟨pc, actor, mailbox', ran, pc', at_g, taken, rfl⟩ := step_main stepped
  cases pc with
  | own pc =>
      simp only [mainStep] at taken
      split at taken
      · rename_i entering
        subst pc
        obtain ⟨_, called, made⟩ := Option.map_eq_some_iff.mp taken
        cases made
        obtain ⟨same, linked'⟩ := erase_step_callDequeue linked at_g called
        exact ⟨.inl same, linked'⟩
      · rename_i outside
        obtain ⟨⟨_, _⟩, own, made⟩ := Option.map_eq_some_iff.mp taken
        cases made
        obtain ⟨simulated, linked'⟩ := erase_step_ownMain linked at_g outside own
        exact ⟨.inr simulated, linked'⟩
  | inDequeue c =>
      obtain ⟨_, performed, made⟩ := Option.map_eq_some_iff.mp taken
      cases made
      simp only [AccessesInTurn, at_g] at turn
      exact erase_step_inDequeue linked at_g turn performed
  | run currentJob =>
      cases taken
      obtain ⟨simulated, linked'⟩ := erase_step_run linked at_g
      exact ⟨.inr simulated, linked'⟩

end Mains

end RingSystem
end Vee
