import Vee.Handshake.Agreement
import Vee.Handshake.Protocol
import Vee.Transition.Simulation
import Vee.Websocket.Conversation

/-!
# A connection from its opening on

A client that calls `connect`, a server that accepts it, and frames in both
directions, in any order of the steps of both. The opening is a `Connection` and
each direction a `Conversation`. They touch in three places: a party uses the stream
once it has it, what is written to a broken connection goes nowhere, and a party that
has closed its socket reads no more.

Every transfer moves one whole segment. Neither side then gives up unless the
transport fails, the client has the stream only when the server has it, and each is
told what the other one writes.
-/

namespace Vee

open Endian Memory Transition XwebsocketStream

inductive Party where
  | client
  | server
  deriving DecidableEq, Repr

def Party.other : Party → Party
  | client => server
  | server => client

/-- The bytes of the opening are in front of the frames: who writes frames has
written them before. -/
structure Duplex where
  opening : Connection := {}
  toServer : Conversation
  toClient : Conversation

inductive DuplexAction where
  | opening (a : ConnectionAction)
  | write (party : Party) (msg : Message) (written : WriteSome)
  | disconnect (party : Party) (written : WriteSome)
  | read (party : Party) (variant : ReadVariant) (fuel : Nat)
  | lose (party : Party)

/-- The steps that are left to the client. -/
def ClientPhase.togo : ClientPhase → Nat
  | idle => 4
  | connecting _ | asyncConnecting => 3
  | sending _ => 2
  | receiving => 1
  | opened | failed => 0

def ServerPhase.togo : ServerPhase → Nat
  | listening => 3
  | reading _ => 2
  | writing .. => 1
  | accepted _ | rejected _ => 0

namespace Connection

/-- `connect` has returned, or the server has the stream. -/
def ready (c : Connection) : Party → Bool
  | .client => c.client == .opened
  | .server =>
      match c.server with
      | .accepted _ => true
      | _ => false

/-- Nothing comes through to the parties that are cut off. -/
def clear (down : Party → Bool) (c : Connection) : Connection :=
  { c with
    toServer := if down .server then [] else c.toServer
    toClient := if down .client then [] else c.toClient }

/-- The client calls `connect`, and every transfer takes all there is. -/
def Segment (c : Connection) : ConnectionAction → Prop
  | .asyncConnect | .write .. | .asyncWrite .. => False
  | .sendRequest (.accepted count) =>
      ∀ port, c.client = .sending port → (openingRequest port).binaryPack.length ≤ count
  | .receiveResponse count => c.toClient.length ≤ count
  | .serverRead count => c.toServer.length ≤ count
  | .serverWrite (.accepted count) => ∀ asynchronous response,
      c.server = .writing asynchronous response → response.binaryPack.length ≤ count
  | _ => True

/-- The party's part in the opening has failed. -/
def GaveUp (c : Connection) : Party → Prop
  | .client => c.client = .failed
  | .server =>
      match c.server with
      | .rejected _ => True
      | _ => False

/-- The transport fails a party. -/
def Fails : Party → ConnectionAction → Prop
  | .client, .tcpConnect (.failed _) | .client, .sendRequest .failed | .client, .receiveFailed
  | .server, .serverReadFailed | .server, .serverWrite .failed => True
  | _, _ => False

/-- The server has read the request. -/
def Answering (c : Connection) : Prop :=
  match c.server with
  | .writing .. | .accepted _ => True
  | _ => False

/-- The client has not sent the request yet. -/
def Before (c : Connection) : Prop :=
  match c.client with
  | .idle | .connecting _ | .sending _ => True
  | _ => False

/-- The steps of the opening that are left. -/
def togo (c : Connection) : Nat := c.client.togo + c.server.togo

/-- How far both sides are, and what is under way between them. -/
structure Stage (c : Connection) (down : Party → Bool) : Prop where
  sync : c.client ≠ .asyncConnecting
  writing : ∀ asynchronous response, c.server = .writing asynchronous response →
    response = { secWebsocketAccept := expectedAccept }
  request : c.toServer = [] ∨
    (∃ port, c.toServer = (openingRequest port).binaryPack) ∧ ¬ c.Answering
  response : c.toClient = [] ∨
    c.toClient = expectedResponse ∧ c.ready .server = true ∧ c.ready .client = false
  before : c.Before → c.toServer = [] ∧ ¬ c.Answering
  opened : c.ready .client = true → c.ready .server = true
  asked : c.client = .receiving → down .server = false →
    c.toServer ≠ [] ∨ c.Answering ∨ c.GaveUp .server
  answered : c.client = .receiving → c.ready .server = true → down .client = false →
    c.toClient ≠ []

end Connection

namespace Duplex

/-- The direction to a party. -/
def incoming (s : Duplex) : Party → Conversation
  | .client => s.toClient
  | .server => s.toServer

def setIncoming (s : Duplex) (party : Party) (c : Conversation) : Duplex :=
  match party with
  | .client => { s with toClient := c }
  | .server => { s with toServer := c }

def down (s : Duplex) (party : Party) : Bool := (s.incoming party).broken

def settle (s : Duplex) (c : Connection) : Duplex := { s with opening := c.clear s.down }

/-- What is under way to a party is lost, and what is written to it later. -/
def lose (party : Party) (s : Duplex) : Duplex :=
  let s := s.setIncoming party { s.incoming party with broken := true, wire := [] }
  s.settle s.opening

variable (sha1 : List Byte → Digest) (boost : BoostEndian) (stack : Memory Byte)
variable (capacity : Party → BitVec 32)

def step (s : Duplex) : DuplexAction → Option Duplex
  | .opening a => (s.opening.step sha1 boost stack a).map s.settle
  | .write party msg written =>
      if s.opening.ready party then
        ((s.incoming party.other).step boost (capacity party.other) (.write msg written)).map
          (s.setIncoming party.other)
      else none
  | .disconnect party written =>
      if s.opening.ready party then
        ((s.incoming party.other).step boost (capacity party.other) (.disconnect written)).map
          fun c =>
            -- a socket that is closed is read no more
            if c.isOpen then s.setIncoming party.other c
            else (s.setIncoming party.other c).lose party
      else none
  | .read party variant fuel =>
      if s.opening.ready party then
        ((s.incoming party).step boost (capacity party) (.read variant fuel)).map
          (s.setIncoming party)
      else none
  | .lose party => some (s.lose party)

def SegmentWise (s : Duplex) : DuplexAction → Prop
  | .opening a => s.opening.Segment a
  | .write party msg written => Conversation.Whole (capacity party.other) msg written
  | .disconnect party written =>
      Conversation.Whole (capacity party.other) closing written
  | .read .. | .lose _ => True

/-- Only steps of the opening, none of which fails. -/
def Opens (s : Duplex) : DuplexAction → Prop
  | .opening a => s.opening.Segment a ∧ ∀ party, ¬ Connection.Fails party a
  | _ => False

/-- Only reads of one party. -/
def OnlyReads (party : Party) (_ : Duplex) : DuplexAction → Prop
  | .read reader .. => reader = party
  | _ => False

/-- The actions that fail a party. -/
def Fails (party : Party) : DuplexAction → Prop
  | .opening a => Connection.Fails party a
  | _ => False

end Duplex

namespace Conversation

/-- Up to failed reads at the end, a part from the front of what was written has been
told; if the connection has not broken, a read fails only behind all of it and a
disconnect. -/
def Truthful (c : Conversation) : Prop :=
  ∃ messages failures, c.told = messages ++ .replicate failures .failure ∧
    messages <+: c.script ∧
    (c.broken = false → 0 < failures → c.isOpen = false ∧ messages = c.script)

/-- All that had been written has been told. -/
def Completes (c d : Conversation) : Prop :=
  d.sent = c.sent ∧ ∃ failures, d.told = c.script ++ .replicate failures .failure

end Conversation

namespace Connection

variable {sha1 : List Byte → Digest} {boost : BoostEndian} {stack : Memory Byte}
variable {c d : Connection} {a : ConnectionAction} {down : Party → Bool}

/-- A party that has the stream has not given up. -/
theorem answering_of_ready (ready : c.ready .server = true) : c.Answering := by
  simp only [Connection.ready] at ready
  simp only [Answering]
  split at ready
  · rename_i accepted
    rw [accepted]
    trivial
  · cases ready

theorem ready_client_iff : c.ready .client = true ↔ c.client = .opened := beq_iff_eq

theorem Stage.unanswered (stage : c.Stage down) (silent : ¬ c.Answering) : c.toClient = [] := by
  obtain nothing | ⟨_, ready, _⟩ := stage.response
  · exact nothing
  · exact absurd (answering_of_ready ready) silent

/-- A client that has not got the stream, and does not wait for the response. -/
theorem Stage.pending (stage : c.Stage down) (phase : ClientPhase) {events : List ClientEvent}
    {toClient : List Byte}
    (pending : phase ≠ .asyncConnecting ∧ phase ≠ .receiving ∧ phase ≠ .opened)
    (response : toClient = [] ∨ toClient = c.toClient)
    (before : Before { c with client := phase } → c.Before) :
    Stage { c with client := phase, toClient := toClient, events := events } down where
  sync := pending.1
  writing := stage.writing
  request := stage.request
  response := by
    obtain rfl | rfl := response
    · exact .inl rfl
    · obtain nothing | ⟨sent, accepted, _⟩ := stage.response
      · exact .inl nothing
      · exact .inr ⟨sent, accepted, beq_eq_false_iff_ne.mpr pending.2.2⟩
  before := fun early => stage.before (before early)
  opened := fun opened => absurd (ready_client_iff.mp opened) pending.2.2
  asked := fun receiving => absurd receiving pending.2.1
  answered := fun receiving => absurd receiving pending.2.1

theorem Stage.sent {port : BitVec 16} {events : List ClientEvent} (stage : c.Stage down)
    (sending : c.client = .sending port) :
    Stage { c with
      client := .receiving
      toServer := c.toServer ++ (openingRequest port).binaryPack
      events := events } down := by
  have early : c.Before := by
    simp only [Before, sending]
  obtain ⟨quiet, silent⟩ := stage.before early
  have nothing := stage.unanswered silent
  exact {
    sync := ClientPhase.noConfusion
    writing := stage.writing
    request := .inr ⟨⟨port, by rw [quiet, List.nil_append]⟩, silent⟩
    response := .inl nothing
    before := fun before => before.elim
    opened := fun opened => ClientPhase.noConfusion (ready_client_iff.mp opened)
    asked := fun _ _ => .inl (List.append_ne_nil_of_right_ne_nil _ (openingRequest_ne_nil port))
    answered := fun _ ready => absurd (answering_of_ready ready) silent }

theorem Stage.received {events : List ClientEvent} (stage : c.Stage down)
    (response : c.toClient = expectedResponse) :
    Stage { c with client := .opened, toClient := [], events := events } down := by
  obtain nothing | ⟨_, ready, _⟩ := stage.response
  · rw [nothing] at response
    exact absurd (congrArg List.length response) (by rw [expectedResponse_length]; decide)
  · exact {
      sync := ClientPhase.noConfusion
      writing := stage.writing
      request := stage.request
      response := .inl rfl
      before := fun before => before.elim
      opened := fun _ => ready
      asked := ClientPhase.noConfusion
      answered := ClientPhase.noConfusion }

/-- A server that does not answer, or no more. -/
theorem Stage.rest (stage : c.Stage down) (phase : ServerPhase)
    (unready : c.ready .server = false) (silent : ¬ Answering { c with server := phase })
    (kept : c.toServer ≠ [] ∨ c.Answering ∨ c.GaveUp .server →
      c.toServer ≠ [] ∨ GaveUp { c with server := phase } .server) :
    Stage { c with server := phase } down where
  sync := stage.sync
  writing := by
    rintro asynchronous response rfl
    exact absurd trivial silent
  request := stage.request.imp_right fun asked => ⟨asked.1, silent⟩
  response := .inl (stage.response.resolve_right fun sent =>
    Bool.false_ne_true (unready.symm.trans sent.2.1))
  before := fun before => ⟨(stage.before before).1, silent⟩
  opened := fun opened => absurd (unready.symm.trans (stage.opened opened)) Bool.false_ne_true
  asked := fun receiving whole => (kept (stage.asked receiving whole)).imp_right .inr
  answered := fun _ ready => absurd (answering_of_ready ready) silent

/-- The server has read the request. -/
theorem Stage.read {asynchronous : Bool} (stage : c.Stage down)
    (reading : c.server = .reading asynchronous) (some_bytes : c.toServer ≠ []) :
    Stage { c with
      server := .writing asynchronous { secWebsocketAccept := expectedAccept }
      toServer := [] } down := by
  have unready : c.ready .server = false := by
    simp only [ready, reading]
  exact {
    sync := stage.sync
    writing := by
      rintro _ _ same
      cases same
      rfl
    request := .inl rfl
    response := .inl (stage.response.resolve_right fun sent =>
      Bool.false_ne_true (unready.symm.trans sent.2.1))
    before := fun before => absurd (stage.before before).1 some_bytes
    opened := fun opened => absurd (unready.symm.trans (stage.opened opened)) Bool.false_ne_true
    asked := fun _ _ => .inr (.inl trivial)
    answered := fun _ ready => absurd ready Bool.false_ne_true }

/-- The server has written the response. -/
theorem Stage.wrote {asynchronous : Bool} {response : HandshakeServerResponse}
    (stage : c.Stage down) (writing : c.server = .writing asynchronous response) :
    Stage { c with
      server := .accepted asynchronous
      toClient := c.toClient ++ response.binaryPack } down := by
  have unready : c.ready .server = false := by
    simp only [ready, writing]
  have answering : c.Answering := by
    simp only [Answering, writing]
  have nothing : c.toClient = [] := stage.response.resolve_right fun sent =>
    Bool.false_ne_true (unready.symm.trans sent.2.1)
  have written : c.toClient ++ response.binaryPack = expectedResponse := by
    rw [nothing, stage.writing asynchronous response writing]
    rfl
  rw [written]
  exact {
    sync := stage.sync
    writing := fun _ _ same => ServerPhase.noConfusion same
    request := .inl (stage.request.resolve_right fun asked => asked.2 answering)
    response := .inr ⟨rfl, rfl, Bool.eq_false_of_not_eq_true fun opened =>
      Bool.false_ne_true (unready.symm.trans (stage.opened opened))⟩
    before := fun before => absurd answering (stage.before before).2
    opened := fun _ => rfl
    asked := fun _ _ => .inr (.inl trivial)
    answered := fun _ _ _ nothing => absurd (congrArg List.length nothing) (by
      rw [expectedResponse_length]
      decide) }

/-- What a step of the opening keeps, and that only the transport makes a party give up. -/
def Advances (c : Connection) (a : ConnectionAction) (d : Connection) (down : Party → Bool) :
    Prop :=
  d.Stage down ∧ ∀ party, d.GaveUp party → c.GaveUp party ∨ Fails party a

theorem Stage.advances_client (stage : d.Stage down) (server : d.server = c.server)
    (client : d.client = .failed → c.client = .failed ∨ Fails .client a) :
    c.Advances a d down := by
  refine ⟨stage, fun party gaveUp => ?_⟩
  cases party with
  | client => exact client gaveUp
  | server =>
      simp only [GaveUp, server] at gaveUp ⊢
      exact .inl gaveUp

theorem Stage.advances_server (stage : d.Stage down) (client : d.client = c.client)
    (server : d.GaveUp .server → Fails .server a) : c.Advances a d down := by
  refine ⟨stage, fun party gaveUp => ?_⟩
  cases party with
  | client => exact .inl (client.symm.trans gaveUp)
  | server => exact .inr (server gaveUp)

theorem Stage.tcpConnect (stage : c.Stage down) {attempt : TcpConnect}
    (moved : c.tcpConnectDone attempt = some d) : c.Advances (.tcpConnect attempt) d down := by
  simp only [tcpConnectDone] at moved
  split at moved
  · rename_i port connecting
    have early : c.Before := by
      simp only [Before, connecting]
    cases attempt with
    | connected =>
        cases moved
        exact (stage.pending (.sending port) ⟨ClientPhase.noConfusion, ClientPhase.noConfusion,
          ClientPhase.noConfusion⟩ (.inr rfl) fun _ => early).advances_client rfl
          ClientPhase.noConfusion
    | failed message =>
        cases moved
        exact (stage.pending .failed ⟨ClientPhase.noConfusion, ClientPhase.noConfusion,
          ClientPhase.noConfusion⟩ (.inr rfl) fun _ => early).advances_client rfl
          fun _ => .inr trivial
  · rename_i connecting
    exact absurd connecting stage.sync
  all_goals cases moved

theorem Stage.sendRequest (stage : c.Stage down) {written : WriteSome}
    (whole : c.Segment (.sendRequest written)) (moved : c.sendRequest written = some d) :
    c.Advances (.sendRequest written) d down := by
  simp only [Connection.sendRequest] at moved
  split at moved
  · rename_i port sending
    cases written with
    | failed =>
        cases moved
        have early : c.Before := by
          simp only [Before, sending]
        exact (stage.pending .failed ⟨ClientPhase.noConfusion, ClientPhase.noConfusion,
          ClientPhase.noConfusion⟩ (.inr rfl) fun _ => early).advances_client rfl
          fun _ => .inr trivial
    | accepted count =>
        cases moved
        rw [List.take_of_length_le (whole port sending)]
        exact (stage.sent sending).advances_client rfl ClientPhase.noConfusion
  · cases moved

/-- The one response that can come is the one that `connect` expects. -/
theorem Stage.receive (stage : c.Stage down) (knows : KnowsKey sha1) {count : Nat}
    (whole : c.toClient.length ≤ count) (moved : c.receive stack count = some d) :
    c.Advances (.receiveResponse count) d down := by
  simp only [Connection.receive] at moved
  split at moved
  · rename_i enabled
    obtain ⟨receiving, some_bytes, fits⟩ := enabled
    rw [List.take_of_length_le whole] at some_bytes fits moved
    rw [List.drop_of_length_le whole] at moved
    have response : c.toClient = expectedResponse :=
      (stage.response.resolve_left some_bytes).1
    have expected : receiveResponse stack (.received c.toClient) = some (.ok ()) := by
      rw [receiveResponse_received fits, response, acceptOf_expectedResponse knows, if_pos rfl]
      refine if_pos (.inl ?_)
      rw [expectedResponse_length]
      decide
    rw [expected] at moved
    cases moved
    exact (stage.received response).advances_client rfl ClientPhase.noConfusion
  · cases moved

/-- The one request that can come is answered. -/
theorem Stage.serverRead (stage : c.Stage down) (knows : KnowsKey sha1) {count : Nat}
    (whole : c.toServer.length ≤ count) (moved : c.serverRead sha1 count = some d) :
    c.Advances (.serverRead count) d down := by
  simp only [Connection.serverRead] at moved
  split at moved
  · rename_i asynchronous reading
    split at moved
    · rename_i enabled
      rw [List.take_of_length_le whole] at moved enabled
      rw [List.drop_of_length_le whole] at moved
      obtain ⟨port, request⟩ := (stage.request.resolve_left enabled.1).1
      rw [request, answer_openingRequest knows] at moved
      cases moved
      have advanced := (stage.read reading enabled.1).advances_server (c := c)
        (a := .serverRead count) rfl fun gaveUp => gaveUp.elim
      exact advanced
    · cases moved
  · cases moved

theorem Stage.serverWrite (stage : c.Stage down) {written : WriteSome}
    (whole : c.Segment (.serverWrite written)) (moved : c.serverWrite written = some d) :
    c.Advances (.serverWrite written) d down := by
  simp only [Connection.serverWrite] at moved
  split at moved
  · rename_i asynchronous response writing
    cases written with
    | failed =>
        cases moved
        have unready : c.ready .server = false := by
          simp only [ready, writing]
        exact (stage.rest (.rejected asynchronous) unready (fun answering => answering.elim)
          fun _ => .inr trivial).advances_server rfl fun _ => trivial
    | accepted count =>
        cases moved
        rw [List.take_of_length_le (whole asynchronous response writing)]
        exact (stage.wrote writing).advances_server rfl fun gaveUp => gaveUp.elim
  · cases moved

theorem Stage.step (stage : c.Stage down) (knows : KnowsKey sha1) (whole : c.Segment a)
    (moved : c.step sha1 boost stack a = some d) : c.Advances a d down := by
  cases a with
  | connect port =>
      simp only [Connection.step] at moved
      split at moved
      · rename_i idle
        cases moved
        have early : c.Before := by
          simp only [Before, idle]
        exact (stage.pending (.connecting port) ⟨ClientPhase.noConfusion, ClientPhase.noConfusion,
          ClientPhase.noConfusion⟩ (.inr rfl) fun _ => early).advances_client rfl
          ClientPhase.noConfusion
      · cases moved
  | asyncConnect => exact whole.elim
  | tcpConnect attempt => exact stage.tcpConnect moved
  | sendRequest written => exact stage.sendRequest whole moved
  | receiveFailed =>
      simp only [Connection.step] at moved
      split at moved
      · cases moved
        exact (stage.pending .failed ⟨ClientPhase.noConfusion, ClientPhase.noConfusion,
          ClientPhase.noConfusion⟩ (.inr rfl) fun before => before.elim).advances_client rfl
          fun _ => .inr trivial
      · cases moved
  | receiveResponse count =>
      have received : c.receive stack count = some d := moved
      exact stage.receive knows whole received
  | write opcode data len count => exact whole.elim
  | asyncWrite opcode data len count => exact whole.elim
  | accept asynchronous =>
      simp only [Connection.step] at moved
      split at moved
      · rename_i listening
        cases moved
        have unready : c.ready .server = false := by
          simp only [ready, listening]
        refine (stage.rest (.reading asynchronous) unready (fun answering => answering.elim)
          fun kept => ?_).advances_server rfl fun gaveUp => gaveUp.elim
        simp only [Answering, GaveUp, listening, or_false] at kept
        exact .inl kept
      · cases moved
  | serverReadFailed =>
      simp only [Connection.step] at moved
      split at moved
      · rename_i asynchronous reading
        cases moved
        have unready : c.ready .server = false := by
          simp only [ready, reading]
        exact (stage.rest (.rejected asynchronous) unready (fun answering => answering.elim)
          fun _ => .inr trivial).advances_server rfl fun _ => trivial
      · cases moved
  | serverRead count => exact stage.serverRead knows whole moved
  | serverWrite written => exact stage.serverWrite whole moved

theorem Stage.mono {down' : Party → Bool} (stage : c.Stage down)
    (more : ∀ party, down' party = false → down party = false) : c.Stage down' :=
  { stage with
    asked := fun receiving whole => stage.asked receiving (more .server whole)
    answered := fun receiving ready whole => stage.answered receiving ready (more .client whole) }

/-- What is lost is missed by nobody who is not cut off. -/
theorem Stage.clear (stage : c.Stage down) : (c.clear down).Stage down where
  sync := stage.sync
  writing := stage.writing
  request := by
    simp only [Connection.clear]
    split
    · exact .inl rfl
    · exact stage.request
  response := by
    simp only [Connection.clear]
    split
    · exact .inl rfl
    · exact stage.response
  before := by
    intro before
    obtain ⟨quiet, silent⟩ := stage.before before
    refine ⟨?_, silent⟩
    simp only [Connection.clear, quiet, ite_self]
  opened := stage.opened
  asked := by
    intro receiving whole
    simp only [Connection.clear, whole, Bool.false_eq_true, if_false]
    exact stage.asked receiving whole
  answered := by
    intro receiving ready whole
    simp only [Connection.clear, whole, Bool.false_eq_true, if_false]
    exact stage.answered receiving ready whole

/-- A step that brings the opening nearer to its end. -/
def Nearer (sha1 : List Byte → Digest) (boost : BoostEndian) (stack : Memory Byte)
    (c : Connection) : Prop :=
  ∃ a d, c.Segment a ∧ (∀ party, ¬ Fails party a) ∧ c.step sha1 boost stack a = some d ∧
    d.togo < c.togo

/-- The client goes on until the request is sent. -/
theorem nearer_before (early : c.Before) : Nearer sha1 boost stack c := by
  obtain ⟨client, server, toServer, toClient, events⟩ := c
  cases client with
  | idle =>
      refine ⟨.connect 0, _, trivial, fun party fails => ?_, rfl, ?_⟩
      · cases party <;> exact fails
      · exact Nat.add_lt_add_right (Nat.lt_succ_self 3) _
  | connecting port =>
      refine ⟨.tcpConnect .connected, _, trivial, fun party fails => ?_, rfl, ?_⟩
      · cases party <;> exact fails
      · exact Nat.add_lt_add_right (Nat.lt_succ_self 2) _
  | sending port =>
      refine ⟨.sendRequest (.accepted (openingRequest port).binaryPack.length), _, ?_,
        fun party fails => ?_, rfl, ?_⟩
      · rintro port' same
        cases same
        exact Nat.le_refl _
      · cases party <;> exact fails
      · exact Nat.add_lt_add_right (Nat.lt_succ_self 1) _
  | _ => exact early.elim

theorem Stage.nearer_read (stage : c.Stage down) (knows : KnowsKey sha1) {asynchronous : Bool}
    (reading : c.server = .reading asynchronous) (some_bytes : c.toServer ≠ []) :
    Nearer sha1 boost stack c := by
  obtain ⟨⟨port, request⟩, _⟩ := stage.request.resolve_left some_bytes
  have short := openingRequest_length port
  rw [← request] at short
  have read : c.serverRead sha1 c.toServer.length = some { c with
      server := .writing asynchronous { secWebsocketAccept := expectedAccept }
      toServer := [] } := by
    simp only [Connection.serverRead, reading, List.take_length, List.drop_length]
    rw [if_pos ⟨some_bytes, by omega, .inl (by omega)⟩, request, answer_openingRequest knows]
  refine ⟨.serverRead c.toServer.length, _, Nat.le_refl _, fun party fails => ?_, read, ?_⟩
  · cases party <;> exact fails
  · simp only [togo, reading]
    exact Nat.add_lt_add_left (Nat.lt_succ_self 1) _

theorem Stage.nearer_receive (stage : c.Stage down) (knows : KnowsKey sha1)
    (receiving : c.client = .receiving) (some_bytes : c.toClient ≠ []) :
    Nearer sha1 boost stack c := by
  have response := (stage.response.resolve_left some_bytes).1
  have length := expectedResponse_length
  rw [← response] at length
  have received : c.receive stack c.toClient.length = some { c with
      client := .opened
      toClient := []
      events := c.events ++ [.received c.toClient, .success] } := by
    simp only [Connection.receive, List.take_length, List.drop_length]
    rw [if_pos ⟨receiving, some_bytes, by omega⟩, receiveResponse_received (by omega),
      if_pos (.inl (by omega)), response, if_pos (acceptOf_expectedResponse knows)]
  refine ⟨.receiveResponse c.toClient.length, _, Nat.le_refl _, fun party fails => ?_, received, ?_⟩
  · cases party <;> exact fails
  · simp only [togo, receiving]
    exact Nat.add_lt_add_right (Nat.lt_succ_self 0) _

/-- While nothing has failed, somebody can go on. -/
theorem Stage.nearer (stage : c.Stage down) (knows : KnowsKey sha1)
    (alive : ∀ party, ¬ c.GaveUp party ∧ down party = false)
    (unfinished : c.ready .client = false) : Nearer sha1 boost stack c := by
  have waiting : c.Before ∨ c.client = .receiving := by
    cases phase : c.client with
    | asyncConnecting => exact absurd phase stage.sync
    | receiving => exact .inr rfl
    | opened => exact absurd (unfinished.symm.trans (ready_client_iff.mpr phase)) Bool.false_ne_true
    | failed => exact absurd phase (alive .client).1
    | _ =>
        refine .inl ?_
        simp only [Before, phase]
  obtain early | receiving := waiting
  · exact nearer_before early
  · cases phase : c.server with
    | listening =>
        refine ⟨.accept false, { c with server := .reading false }, trivial,
          fun party fails => ?_, ?_, ?_⟩
        · cases party <;> exact fails
        · simp only [Connection.step, phase, if_true]
        · simp only [togo, phase]
          exact Nat.add_lt_add_left (Nat.lt_succ_self 2) _
    | reading asynchronous =>
        refine stage.nearer_read knows phase ?_
        obtain some_bytes | answering | gaveUp := stage.asked receiving (alive .server).2
        · exact some_bytes
        · simp only [Answering, phase] at answering
        · exact absurd gaveUp (alive .server).1
    | writing asynchronous response =>
        refine ⟨.serverWrite (.accepted response.binaryPack.length), { c with
          server := .accepted asynchronous
          toClient := c.toClient ++ response.binaryPack.take response.binaryPack.length },
          ?_, fun party fails => ?_, ?_, ?_⟩
        · rintro asynchronous' response' same
          rw [phase] at same
          cases same
          exact Nat.le_refl _
        · cases party <;> exact fails
        · simp only [Connection.step, Connection.serverWrite, phase]
        · simp only [togo, phase]
          exact Nat.add_lt_add_left (Nat.lt_succ_self 0) _
    | accepted asynchronous =>
        have ready : c.ready .server = true := by
          simp only [Connection.ready, phase]
        exact stage.nearer_receive knows receiving
          (stage.answered receiving ready (alive .client).2)
    | rejected asynchronous =>
        refine absurd ?_ (alive .server).1
        simp only [GaveUp, phase]

end Connection

namespace Conversation

variable {boost : BoostEndian} {bufCapacity : BitVec 32} {c d : Conversation}
variable {a : ConversationAction}

/-- A broken connection stays broken. -/
theorem up_before (moved : c.step boost bufCapacity a = some d) (up : d.broken = false) :
    c.broken = false := by
  cases a with
  | write msg written =>
      simp only [step] at moved
      split at moved
      · split at moved
        · cases moved
        · cases moved
          exact up
        · rename_i wrote
          cases moved
          obtain ⟨segment, rfl⟩ := write_ok wrote
          exact up
      · cases moved
  | disconnect written =>
      simp only [step, disconnect] at moved
      split at moved
      · obtain ⟨result, wrote, rfl⟩ := Option.map_eq_some_iff.mp moved
        cases result with
        | error e => exact up
        | ok d =>
            obtain ⟨segment, rfl⟩ := write_ok wrote
            exact up
      · cases moved
  | lose =>
      cases moved
      cases up
  | read variant fuel =>
      simp only [step] at moved
      split at moved
      · cases moved
      · cases moved
        exact up

/-- What is told in step with what is written is truthful. -/
theorem InStep.truthful {got pending lost : List Message} {failures : Nat}
    (h : c.InStep bufCapacity got pending lost failures) : c.Truthful := by
  have whole : c.script = transcript (got.map Message.frame) ++
      transcript ((pending ++ lost).map Message.frame) := by
    rw [script, h.sent, Message.transcript_frames_append]
  refine ⟨_, failures, h.told, ⟨_, whole.symm⟩, fun up failed => ?_⟩
  obtain ⟨rfl, closed | broken⟩ := h.failing failed
  · refine ⟨closed, ?_⟩
    rw [whole, h.whole up]
    exact (List.append_nil _).symm
  · exact absurd (up.symm.trans broken) Bool.false_ne_true

end Conversation

namespace Duplex

variable {sha1 : List Byte → Digest} {boost : BoostEndian} {stack : Memory Byte}
variable {capacity : Party → BitVec 32} {s t : Duplex} {a : DuplexAction} {party : Party}

@[simp] theorem opening_setIncoming (c : Conversation) :
    (s.setIncoming party c).opening = s.opening := by
  cases party <;> rfl

@[simp] theorem incoming_setIncoming_self (c : Conversation) :
    (s.setIncoming party c).incoming party = c := by
  cases party <;> rfl

theorem incoming_setIncoming_of_ne {other : Party} (ne : other ≠ party) (c : Conversation) :
    (s.setIncoming party c).incoming other = s.incoming other := by
  cases party <;> cases other <;> first | rfl | exact absurd rfl ne

@[simp] theorem incoming_settle (c : Connection) :
    (s.settle c).incoming party = s.incoming party := by
  cases party <;> rfl

@[simp] theorem down_settle (c : Connection) : (s.settle c).down = s.down := by
  funext party
  simp only [down, incoming_settle]

theorem gaveUp_clear {c : Connection} {cut : Party → Bool} :
    (c.clear cut).GaveUp party ↔ c.GaveUp party := by
  cases party <;> exact Iff.rfl

/-- The opening is in a stage of it, and each direction is in step. -/
structure Sound (capacity : Party → BitVec 32) (s : Duplex) : Prop where
  stage : s.opening.Stage s.down
  inStep : ∀ party, ∃ got pending lost failures,
    (s.incoming party).InStep (capacity party) got pending lost failures

/-- One direction goes on, and is cut off no less than before. -/
theorem Sound.setIncoming (sound : s.Sound capacity) {c : Conversation}
    (up : c.broken = false → s.down party = false)
    (inStep : ∃ got pending lost failures,
      c.InStep (capacity party) got pending lost failures) :
    (s.setIncoming party c).Sound capacity where
  stage := by
    rw [opening_setIncoming]
    refine sound.stage.mono fun other up' => ?_
    by_cases same : other = party
    · subst same
      simp only [down, incoming_setIncoming_self] at up'
      exact up up'
    · simp only [down, incoming_setIncoming_of_ne same] at up'
      exact up'
  inStep := by
    intro other
    by_cases same : other = party
    · subst same
      rw [incoming_setIncoming_self]
      exact inStep
    · rw [incoming_setIncoming_of_ne same]
      exact sound.inStep other

/-- A step of one direction. -/
theorem Sound.converse (sound : s.Sound capacity) {b : ConversationAction} {c : Conversation}
    (whole : (s.incoming party).FrameWise (capacity party) b)
    (moved : (s.incoming party).step boost (capacity party) b = some c) :
    (s.setIncoming party c).Sound capacity := by
  obtain ⟨got, pending, lost, failures, h⟩ := sound.inStep party
  exact sound.setIncoming (Conversation.up_before moved) (h.step whole moved)

theorem Sound.settle (sound : s.Sound capacity) {c : Connection} (stage : c.Stage s.down) :
    (s.settle c).Sound capacity where
  stage := by
    rw [down_settle]
    exact stage.clear
  inStep := by
    intro party
    rw [incoming_settle]
    exact sound.inStep party

theorem Sound.lose (sound : s.Sound capacity) (party : Party) :
    (s.lose party).Sound capacity := by
  obtain ⟨got, pending, lost, failures, h⟩ := sound.inStep party
  have cut : (s.setIncoming party
      { s.incoming party with broken := true, wire := [] }).Sound capacity :=
    sound.setIncoming (fun up => absurd up.symm Bool.false_ne_true)
      ⟨got, [], pending ++ lost, failures, h.lose⟩
  exact cut.settle cut.stage

/-- Every step keeps this, and makes a party give up only if the transport fails it. -/
theorem Sound.step (sound : s.Sound capacity) (knows : KnowsKey sha1)
    (whole : s.SegmentWise capacity a)
    (moved : s.step sha1 boost stack capacity a = some t) :
    t.Sound capacity ∧
      ∀ party, t.opening.GaveUp party → s.opening.GaveUp party ∨ Fails party a := by
  cases a with
  | opening a =>
      obtain ⟨d, advanced, rfl⟩ := Option.map_eq_some_iff.mp moved
      obtain ⟨stage, alive⟩ := sound.stage.step knows whole advanced
      exact ⟨sound.settle stage, fun party gaveUp => alive party (gaveUp_clear.mp gaveUp)⟩
  | write party msg written =>
      simp only [Duplex.step] at moved
      split at moved
      · obtain ⟨c, wrote, rfl⟩ := Option.map_eq_some_iff.mp moved
        refine ⟨sound.converse (b := .write msg written) whole wrote, fun other gaveUp => ?_⟩
        rw [opening_setIncoming] at gaveUp
        exact .inl gaveUp
      · cases moved
  | disconnect party written =>
      simp only [Duplex.step] at moved
      split at moved
      · obtain ⟨c, wrote, rfl⟩ := Option.map_eq_some_iff.mp moved
        have after := sound.converse (b := .disconnect written) whole wrote
        split
        · refine ⟨after, fun other gaveUp => ?_⟩
          rw [opening_setIncoming] at gaveUp
          exact .inl gaveUp
        · refine ⟨after.lose party, fun other gaveUp => .inl ?_⟩
          have before := gaveUp_clear.mp gaveUp
          rw [opening_setIncoming, opening_setIncoming] at before
          exact before
      · cases moved
  | read party variant fuel =>
      simp only [Duplex.step] at moved
      split at moved
      · obtain ⟨c, told, rfl⟩ := Option.map_eq_some_iff.mp moved
        refine ⟨sound.converse (b := .read variant fuel) trivial told, fun other gaveUp => ?_⟩
        rw [opening_setIncoming] at gaveUp
        exact .inl gaveUp
      · cases moved
  | lose party =>
      cases moved
      refine ⟨sound.lose party, fun other gaveUp => .inl ?_⟩
      have before := gaveUp_clear.mp gaveUp
      rw [opening_setIncoming] at before
      exact before

theorem sound_init (m m' : Memory Byte) :
    Sound capacity { toServer := { buffer := m }, toClient := { buffer := m' } } where
  stage := {
    sync := ClientPhase.noConfusion
    writing := fun _ _ same => ServerPhase.noConfusion same
    request := .inl rfl
    response := .inl rfl
    before := fun _ => ⟨rfl, fun answering => answering.elim⟩
    opened := fun ready => ClientPhase.noConfusion (Connection.ready_client_iff.mp ready)
    asked := ClientPhase.noConfusion
    answered := ClientPhase.noConfusion }
  inStep := by
    intro party
    refine ⟨[], [], [], 0, ?_⟩
    cases party <;> exact ⟨rfl, fun _ member => absurd member List.not_mem_nil, rfl, rfl,
      fun _ => rfl, fun _ => rfl, fun failed => absurd failed (Nat.lt_irrefl 0)⟩

/-- In every run. -/
theorem sound_of_run {m m' : Memory Byte} {actions : List DuplexAction} (knows : KnowsKey sha1)
    (run : Run (step sha1 boost stack capacity) (SegmentWise capacity)
      { toServer := { buffer := m }, toClient := { buffer := m' } } actions t) :
    t.Sound capacity :=
  run.invariant (sound_init m m') fun _ _ _ sound whole moved =>
    (sound.step knows whole moved).1

/-- While nothing has failed, the opening can be brought to its end. -/
theorem Sound.can_open (sound : s.Sound capacity) (knows : KnowsKey sha1)
    (alive : ∀ party, ¬ s.opening.GaveUp party ∧ s.down party = false) :
    CanReach (Duplex.step sha1 boost stack capacity) Opens
      (fun u => ∀ party, u.opening.ready party = true ∧ u.incoming party = s.incoming party) s := by
  refine CanReach.of_rank (I := fun n u => u.Sound capacity ∧
    (∀ party, ¬ u.opening.GaveUp party ∧ u.incoming party = s.incoming party) ∧
      u.opening.togo = n) ?_ ⟨sound, fun party => ⟨(alive party).1, rfl⟩, rfl⟩
  rintro n u ⟨sound', same, rfl⟩ unfinished
  have up : ∀ party, ¬ u.opening.GaveUp party ∧ u.down party = false := by
    intro party
    refine ⟨(same party).1, ?_⟩
    simp only [down, (same party).2]
    exact (alive party).2
  have waiting : u.opening.ready .client = false := by
    refine Bool.eq_false_of_not_eq_true fun ready => unfinished fun party => ⟨?_, (same party).2⟩
    cases party with
    | client => exact ready
    | server => exact sound'.stage.opened ready
  have onward : Connection.Nearer sha1 boost stack u.opening :=
    sound'.stage.nearer knows up waiting
  obtain ⟨a, d, whole, succeeds, moved, nearer⟩ := onward
  have enabled : u.step sha1 boost stack capacity (.opening a) = some (u.settle d) := by
    simp only [Duplex.step, moved, Option.map_some]
  have segment : u.SegmentWise capacity (.opening a) := whole
  obtain ⟨next, gaveUp⟩ := sound'.step knows segment enabled
  refine ⟨.opening a, u.settle d, _, ⟨whole, succeeds⟩, enabled, ⟨next, fun party => ⟨?_, ?_⟩, rfl⟩,
    nearer⟩
  · exact fun given => (gaveUp party given).elim (up party).1 (succeeds party)
  · rw [incoming_settle]
    exact (same party).2

/-- A party that has the stream can be told all that is written to it. -/
theorem Sound.can_tell (sound : s.Sound capacity) (ready : s.opening.ready party = true)
    (up : s.down party = false) :
    CanReach (Duplex.step sha1 boost stack capacity) (OnlyReads party)
      (fun u => (s.incoming party).Completes (u.incoming party)) s := by
  obtain ⟨got, pending, lost, failures, h⟩ := sound.inStep party
  obtain rfl := h.whole up
  have told : CanReach (Duplex.step sha1 boost stack capacity) (OnlyReads party)
      (fun u => ∃ c, (u.opening.ready party = true ∧ u.incoming party = c) ∧
        c.sent = (s.incoming party).sent ∧
        c.told = (s.incoming party).script ++ .replicate failures .failure) s := by
    refine (h.can_tell boost).simulates ⟨ready, rfl⟩ ?_
    rintro c a d u ⟨ready, rfl⟩ reads moved
    cases a with
    | read variant fuel =>
        have enabled : u.step sha1 boost stack capacity (.read party variant fuel) =
            some (u.setIncoming party d) := by
          simp only [Duplex.step, ready, if_true, moved, Option.map_some]
        refine ⟨[.read party variant fuel], _, .single rfl enabled, ?_, ?_⟩
        · rw [opening_setIncoming]
          exact ready
        · exact incoming_setIncoming_self d
    | _ => exact reads.elim
  refine told.mono ?_
  rintro u ⟨c, ⟨_, rfl⟩, sent, heard⟩
  exact ⟨sent, failures, heard⟩

/-- A connection that is opened by `connect` and `accept`. The client has the stream
only when the server has it, and a party that has it finds no byte of the opening in
front of its frames; only the transport makes a party give up; each party is told from
the front what the other one writes; while nothing has failed, both can get the stream;
and a party that has it and is not cut off can be told all that is written to it. -/
theorem duplex_opens_and_tells {m m' : Memory Byte} {actions : List DuplexAction}
    (knows : KnowsKey sha1)
    (run : Run (step sha1 boost stack capacity) (SegmentWise capacity)
      { toServer := { buffer := m }, toClient := { buffer := m' } } actions t) :
    (t.opening.ready .client = true → t.opening.ready .server = true ∧ t.opening.toClient = []) ∧
    (t.opening.ready .server = true → t.opening.toServer = []) ∧
    (∀ party a u, t.SegmentWise capacity a → t.step sha1 boost stack capacity a = some u →
      u.opening.GaveUp party → t.opening.GaveUp party ∨ Fails party a) ∧
    (∀ party, (t.incoming party).Truthful) ∧
    ((∀ party, ¬ t.opening.GaveUp party ∧ (t.incoming party).broken = false) →
      CanReach (step sha1 boost stack capacity) Opens
        (fun u => ∀ party, u.opening.ready party = true ∧ u.incoming party = t.incoming party) t) ∧
    ∀ party, t.opening.ready party = true → (t.incoming party).broken = false →
      CanReach (step sha1 boost stack capacity) (OnlyReads party)
        (fun u => (t.incoming party).Completes (u.incoming party)) t := by
  have sound := sound_of_run knows run
  refine ⟨fun ready => ⟨sound.stage.opened ready, ?_⟩, fun ready => ?_,
    fun party a u whole moved => (sound.step knows whole moved).2 party, fun party => ?_,
    fun alive => sound.can_open knows alive, fun party ready up => sound.can_tell ready up⟩
  · refine sound.stage.response.resolve_right fun sent => ?_
    exact Bool.false_ne_true (sent.2.2.symm.trans ready)
  · refine sound.stage.request.resolve_right fun asked => ?_
    exact asked.2 (Connection.answering_of_ready ready)
  · obtain ⟨_, _, _, _, h⟩ := sound.inStep party
    exact h.truthful

theorem segmentWise_of_opens (opens : s.Opens a) : s.SegmentWise capacity a := by
  cases a with
  | opening a => exact opens.1
  | _ => exact opens.elim

theorem knowsKey_sampleDigest : KnowsKey fun _ => XwebsocketServer.sampleDigest := by
  simp only [KnowsKey, expectedAccept, ascii]
  decide

def unopened : Duplex where
  toServer := { buffer := ⟨fun _ => 0xff, []⟩ }
  toClient := { buffer := ⟨fun _ => 0xff, []⟩ }

def greeting : Message := ⟨.textFrame, fun _ => 0xbb, 2⟩

/-- The server writes a text as soon as it has the stream, and the client can be told it. -/
theorem duplex_opens_and_tells_greeting : ∃ t : Duplex, t.opening.ready .client = true ∧
    (t.incoming .client).sent = [greeting] ∧
    CanReach (step (fun _ => XwebsocketServer.sampleDigest) .reversing ⟨fun _ => 0, []⟩
      fun _ => 132) (OnlyReads .client)
      (fun u => (t.incoming .client).Completes (u.incoming .client)) t := by
  have sound : unopened.Sound (fun _ => 132) := sound_init _ _
  have alive : ∀ party, ¬ unopened.opening.GaveUp party ∧ unopened.down party = false := by
    intro party
    cases party with
    | client => exact ⟨ClientPhase.noConfusion, rfl⟩
    | server => exact ⟨fun gaveUp => gaveUp.elim, rfl⟩
  have open_both : CanReach (step (fun _ => XwebsocketServer.sampleDigest) .reversing
      ⟨fun _ => 0, []⟩ fun _ => 132) Opens
      (fun u => ∀ party, u.opening.ready party = true ∧
        u.incoming party = unopened.incoming party) unopened :=
    sound.can_open knowsKey_sampleDigest alive
  obtain ⟨as, u, opens, opened⟩ := open_both
  obtain ⟨_, same⟩ := opened .client
  have fresh : (u.incoming .client).isOpen = true := by rw [same]; rfl
  have up : (u.incoming .client).broken = false := by rw [same]; rfl
  have quiet : (u.incoming .client).sent = [] := by rw [same]; rfl
  let t := u.setIncoming .client
    ((u.incoming .client).carry greeting (greeting.frame.encode.take 4))
  have wrote : u.step (fun _ => XwebsocketServer.sampleDigest) .reversing ⟨fun _ => 0, []⟩
      (fun _ => 132) (.write .server greeting (.accepted 4)) = some t := by
    simp only [Duplex.step, (opened .server).1, if_true, Party.other, Conversation.step, fresh,
      Bool.true_or]
    rfl
  have whole : u.SegmentWise (fun _ => 132) (.write .server greeting (.accepted 4)) :=
    ⟨by decide, by decide⟩
  have run := (opens.mono fun _ _ => segmentWise_of_opens).trans (.single whole wrote)
  obtain ⟨_, _, _, _, _, tells⟩ := duplex_opens_and_tells knowsKey_sampleDigest run
  refine ⟨t, (opened .client).1, ?_, tells .client (opened .client).1 up⟩
  change (u.incoming .client).sent ++ [greeting] = _
  rw [quiet]
  rfl

end Duplex
end Vee
