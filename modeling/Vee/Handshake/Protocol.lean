import Vee.Handshake.Opening
import Vee.Transition.Basic

/-!
# One client and one server

An `xwebsocket_stream` and an `xwebsocket_server` on one TCP connection, with the
bytes that are under way in both directions. The client uses `connect` or
`async_connect` and afterwards writes frames, the server uses `accept` or
`async_accept`; every call of the transport is a step, and the steps come in any
order. Behaviour that is undefined in the code is not a step.

`connect` performs the opening handshake, `async_connect` does not. A run keeps the
frames behind the handshake exactly if no `async_connect` succeeds in it and no
`connect` after a request of which the transport took only a part.
-/

namespace Vee

open Endian Transition XwebsocketStream

/-- Where the client is in its connect operation. -/
inductive ClientPhase where
  | idle
  | connecting (port : BitVec 16)
  | asyncConnecting
  | sending (port : BitVec 16)
  | receiving
  | opened
  | failed
  deriving DecidableEq, Repr

/-- Where the server is in accepting. The outcomes are that `accept` returns or
throws, and that the handler of `async_accept` calls `e` or does not. -/
inductive ServerPhase where
  | listening
  | reading (asynchronous : Bool)
  | writing (asynchronous : Bool) (response : HandshakeServerResponse)
  | accepted (asynchronous : Bool)
  | rejected (asynchronous : Bool)
  deriving DecidableEq, Repr

/-- What the client did on the connection. -/
inductive ClientEvent where
  | sent (port : BitVec 16) (bytes : List Byte)
  | received (bytes : List Byte)
  | success
  | frame (bytes : List Byte)
  deriving DecidableEq, Repr

/-- Both parties, the bytes under way, and the history of the client. -/
structure Connection where
  client : ClientPhase := .idle
  server : ServerPhase := .listening
  toServer : List Byte := []
  toClient : List Byte := []
  events : List ClientEvent := []
  deriving DecidableEq, Repr

/-- Counts are those of the bytes a read returns or a write takes. -/
inductive ConnectionAction where
  | connect (port : BitVec 16)
  | asyncConnect
  | tcpConnect (attempt : TcpConnect)
  | sendRequest (written : WriteSome)
  | receiveFailed
  | receiveResponse (count : Nat)
  | write (opcode : OpcodeId) (data : Nat → Byte) (len : BitVec 32) (count : Nat)
  | asyncWrite (opcode : OpcodeId) (data : Nat → Byte) (len : BitVec 32) (count : Nat)
  | accept (asynchronous : Bool)
  | serverReadFailed
  | serverRead (count : Nat)
  | serverWrite (written : WriteSome)

namespace Connection

/-- A data frame of which the transport takes some bytes. -/
def putFrame (packet : List Byte) (count : Nat) (s : Connection) : Connection :=
  { s with
    toServer := s.toServer ++ packet.take count
    events := s.events ++ [.frame (packet.take count)] }

/-- The socket is connected, or not. -/
def tcpConnectDone (attempt : TcpConnect) (s : Connection) : Option Connection :=
  match s.client with
  | .connecting port =>
      match attempt with
      | .connected => some { s with client := .sending port }
      | .failed _ => some { s with client := .failed }
  | .asyncConnecting =>
      match attempt with
      | .connected => some { s with client := .opened, events := s.events ++ [.success] }
      | .failed _ => some { s with client := .failed }
  | .idle | .sending _ | .receiving | .opened | .failed => none

def sendRequest (written : WriteSome) (s : Connection) : Option Connection :=
  match s.client with
  | .sending port =>
      match written with
      | .failed => some { s with client := .failed }
      | .accepted count => some { s with
          client := .receiving
          toServer := s.toServer ++ (openingRequest port).binaryPack.take count
          events := s.events ++ [.sent port ((openingRequest port).binaryPack.take count)] }
  | _ => none

/-- The one read of `connect`, and the end of it. -/
def receive (stack : Memory Byte) (count : Nat) (s : Connection) : Option Connection :=
  if s.client = .receiving ∧ s.toClient.take count ≠ [] ∧ (s.toClient.take count).length ≤ 512 then
    match receiveResponse stack (.received (s.toClient.take count)) with
    | none => none
    | some (.error _) => some { s with
        client := .failed
        toClient := s.toClient.drop count
        events := s.events ++ [.received (s.toClient.take count)] }
    | some (.ok ()) => some { s with
        client := .opened
        toClient := s.toClient.drop count
        events := s.events ++ [.received (s.toClient.take count), .success] }
  else none

/-- The one read of `_handshake`, and what it decides. -/
def serverRead (sha1 : List Byte → Digest) (count : Nat) (s : Connection) : Option Connection :=
  match s.server with
  | .reading asynchronous =>
      let bytes := s.toServer.take count
      if bytes ≠ [] ∧ bytes.length ≤ 4096 ∧ (bytes.length < 4096 ∨ 0 ∈ bytes) then
        match XwebsocketServer.answer sha1 (XwebsocketServer.header (cString bytes)) with
        | none => none
        | some none => some { s with
            server := .rejected asynchronous
            toServer := s.toServer.drop count }
        | some (some response) => some { s with
            server := .writing asynchronous response
            toServer := s.toServer.drop count }
      else none
  | _ => none

def serverWrite (written : WriteSome) (s : Connection) : Option Connection :=
  match s.server with
  | .writing asynchronous response =>
      match written with
      | .failed => some { s with server := .rejected asynchronous }
      | .accepted count => some { s with
          server := .accepted asynchronous
          toClient := s.toClient ++ response.binaryPack.take count }
  | _ => none

variable (sha1 : List Byte → Digest) (boost : BoostEndian) (stack : Memory Byte)

def step (s : Connection) : ConnectionAction → Option Connection
  | .connect port =>
      if s.client = .idle then some { s with client := .connecting port } else none
  | .asyncConnect =>
      if s.client = .idle then some { s with client := .asyncConnecting } else none
  | .tcpConnect attempt => s.tcpConnectDone attempt
  | .sendRequest written => s.sendRequest written
  | .receiveFailed =>
      if s.client = .receiving then some { s with client := .failed } else none
  | .receiveResponse count => s.receive stack count
  | .write opcode data len count =>
      if s.client = .opened then
        match convertToWebsocketForm boost opcode data len with
        | none => none
        | some (_, packet) => some (s.putFrame packet count)
      else none
  | .asyncWrite opcode data len count =>
      if s.client = .opened then
        match asyncWrite boost opcode data len true with
        | some (.ok packet) => some (s.putFrame packet count)
        | _ => none
      else none
  | .accept asynchronous =>
      if s.server = .listening then some { s with server := .reading asynchronous } else none
  | .serverReadFailed =>
      match s.server with
      | .reading asynchronous => some { s with server := .rejected asynchronous }
      | _ => none
  | .serverRead count => s.serverRead sha1 count
  | .serverWrite written => s.serverWrite written

/-- The opening handshake from the client's side: the whole request was sent, and a
response with the expected accept value was received after it. -/
def Opening (events : List ClientEvent) : Prop :=
  ∃ before port between response after,
    events = before ++ .sent port (openingRequest port).binaryPack :: between ++
      .received response :: after ∧ acceptOf response = expectedAccept

/-- Success is reported, and frames are written, behind the opening handshake. -/
structure HandshakeFirst (events : List ClientEvent) : Prop where
  success : ∀ before after, events = before ++ .success :: after → Opening before
  frames : ∀ before bytes after, events = before ++ .frame bytes :: after → Opening before

/-- What the events put on the wire to the server. -/
def wireOf (events : List ClientEvent) : List Byte :=
  events.flatMap fun
    | .sent _ bytes => bytes
    | .frame bytes => bytes
    | _ => []

/-- No `async_connect` succeeds, and no `connect` whose request was cut short. -/
def Careful (s : Connection) : ConnectionAction → Prop
  | .tcpConnect .connected => s.client ≠ .asyncConnecting
  | .receiveResponse count => acceptOf (s.toClient.take count) = expectedAccept →
      ∃ port, s.events = [.sent port (openingRequest port).binaryPack]
  | _ => True

/-- Events other than a reported success and a frame. -/
def Quiet (events : List ClientEvent) : Prop :=
  ∀ e ∈ events, e ≠ .success ∧ ∀ bytes, e ≠ .frame bytes

/-- What has happened when the client is in a phase. -/
inductive Shape : ClientPhase → List ClientEvent → Prop where
  | idle : Shape .idle []
  | connecting (port) : Shape (.connecting port) []
  | asyncConnecting : Shape .asyncConnecting []
  | sending (port) : Shape (.sending port) []
  | receiving (port count) :
      Shape .receiving [.sent port ((openingRequest port).binaryPack.take count)]
  | failed {events} (quiet : Quiet events) : Shape .failed events
  | opened {opening frames} (quiet : Quiet opening)
      (only : ∀ e ∈ frames, ∃ bytes, e = .frame bytes) :
      Shape .opened (opening ++ .success :: frames)

/-- What a step does to the client, with the events it adds. -/
inductive Moves (s : Connection) : ConnectionAction → ClientPhase → List ClientEvent → Prop where
  | rest {a} (careful : Careful s a) : Moves s a s.client []
  | connect (port) (idle : s.client = .idle) : Moves s (.connect port) (.connecting port) []
  | asyncConnect (idle : s.client = .idle) : Moves s .asyncConnect .asyncConnecting []
  | connected {port} (connecting : s.client = .connecting port) :
      Moves s (.tcpConnect .connected) (.sending port) []
  | asyncConnected (connecting : s.client = .asyncConnecting) :
      Moves s (.tcpConnect .connected) .opened [.success]
  | failed {a events} (careful : Careful s a) (pending : s.client ≠ .opened)
      (quiet : Quiet events) : Moves s a .failed events
  | sent {port} (count) (sending : s.client = .sending port) :
      Moves s (.sendRequest (.accepted count)) .receiving
        [.sent port ((openingRequest port).binaryPack.take count)]
  | succeeded (count) (receiving : s.client = .receiving)
      (expected : acceptOf (s.toClient.take count) = expectedAccept) :
      Moves s (.receiveResponse count) .opened [.received (s.toClient.take count), .success]
  | frame {a} (bytes) (careful : Careful s a) (opened : s.client = .opened) :
      Moves s a .opened [.frame bytes]

variable {sha1 boost stack} {s t : Connection} {a : ConnectionAction}

/-- A step adds events, moves the client, and lets bytes arrive at the server. -/
def Effect (s : Connection) (a : ConnectionAction) (t : Connection) : Prop :=
  ∃ events, t.events = s.events ++ events ∧ Moves s a t.client events ∧
    ∃ read, s.toServer ++ wireOf events = read ++ t.toServer

/-- Steps that write nothing to the server. -/
theorem Effect.of_moves {events : List ClientEvent} (added : t.events = s.events ++ events)
    (moves : Moves s a t.client events) (nothing : wireOf events = [])
    (same : t.toServer = s.toServer) : Effect s a t :=
  ⟨events, added, moves, [], by rw [nothing, List.append_nil, List.nil_append, same]⟩

/-- Steps that end the connect operation without success. -/
theorem Effect.of_failed {phase : ClientPhase} (careful : Careful s a) (at_phase : s.client = phase)
    (pending : phase ≠ .opened) (failed : t.client = .failed) (events : t.events = s.events)
    (same : t.toServer = s.toServer) : Effect s a t := by
  rw [← at_phase] at pending
  have moves : Moves s a t.client [] := by
    rw [failed]
    exact .failed careful pending nofun
  exact .of_moves (by rw [events, List.append_nil]) moves rfl same

/-- Steps of the server. -/
theorem Effect.of_server (careful : Careful s a) (events : t.events = s.events)
    (client : t.client = s.client) (read : ∃ read, s.toServer = read ++ t.toServer) :
    Effect s a t := by
  obtain ⟨bytes, read⟩ := read
  refine ⟨[], by rw [events, List.append_nil], ?_, bytes, ?_⟩
  · rw [client]
    exact .rest careful
  · exact (List.append_nil _).trans read

theorem effect_tcpConnectDone {attempt : TcpConnect} (h : s.tcpConnectDone attempt = some t) :
    Effect s (.tcpConnect attempt) t := by
  simp only [tcpConnectDone] at h
  split at h
  · rename_i port connecting
    cases attempt with
    | connected =>
        cases h
        exact .of_moves (List.append_nil _).symm (.connected connecting) rfl rfl
    | failed message =>
        cases h
        exact .of_failed trivial connecting nofun rfl rfl rfl
  · rename_i connecting
    cases attempt with
    | connected =>
        cases h
        exact .of_moves rfl (.asyncConnected connecting) rfl rfl
    | failed message =>
        cases h
        exact .of_failed trivial connecting nofun rfl rfl rfl
  all_goals cases h

theorem effect_sendRequest {written : WriteSome} (h : s.sendRequest written = some t) :
    Effect s (.sendRequest written) t := by
  simp only [sendRequest] at h
  split at h
  · rename_i port sending
    cases written with
    | failed =>
        cases h
        exact .of_failed trivial sending nofun rfl rfl rfl
    | accepted count =>
        cases h
        refine ⟨_, rfl, .sent count sending, [], ?_⟩
        simp only [wireOf, List.flatMap_cons, List.flatMap_nil, List.append_nil, List.nil_append]
  · cases h

theorem effect_receive {count : Nat} (h : s.receive stack count = some t) :
    Effect s (.receiveResponse count) t := by
  simp only [receive] at h
  split at h
  · rename_i enabled
    obtain ⟨receiving, _, fits⟩ := enabled
    rw [receiveResponse_received fits] at h
    split at h
    · cases h
    · rename_i e answered
      cases h
      split at answered
      · split at answered
        · cases answered
        · rename_i unexpected
          have pending : s.client ≠ .opened := by
            rw [receiving]
            nofun
          have quiet : Quiet [.received (s.toClient.take count)] := by
            simp [Quiet]
          exact .of_moves rfl (.failed (fun expected => absurd expected unexpected) pending quiet)
            rfl rfl
      · cases answered
    · rename_i answered
      cases h
      split at answered
      · split at answered
        · rename_i expected
          exact .of_moves rfl (.succeeded count receiving expected) rfl rfl
        · cases answered
      · cases answered
  · cases h

theorem effect_serverRead {count : Nat} (h : s.serverRead sha1 count = some t) :
    Effect s (.serverRead count) t := by
  have read : ∃ read, s.toServer = read ++ s.toServer.drop count :=
    ⟨_, (List.take_append_drop count s.toServer).symm⟩
  simp only [serverRead] at h
  split at h
  · split at h
    · split at h
      · cases h
      · cases h
        exact .of_server trivial rfl rfl read
      · cases h
        exact .of_server trivial rfl rfl read
    · cases h
  · cases h

theorem effect_serverWrite {written : WriteSome} (h : s.serverWrite written = some t) :
    Effect s (.serverWrite written) t := by
  simp only [serverWrite] at h
  split at h
  · cases written with
    | failed =>
        cases h
        exact .of_server trivial rfl rfl ⟨[], rfl⟩
    | accepted count =>
        cases h
        exact .of_server trivial rfl rfl ⟨[], rfl⟩
  · cases h

theorem effect_putFrame (careful : Careful s a) (opened : s.client = .opened) (packet : List Byte)
    (count : Nat) : Effect s a (s.putFrame packet count) := by
  refine ⟨[.frame (packet.take count)], rfl, ?_, [], ?_⟩
  · change Moves s a s.client _
    rw [opened]
    exact .frame _ careful opened
  · simp only [putFrame, wireOf, List.flatMap_cons, List.flatMap_nil, List.append_nil,
      List.nil_append]

theorem step_effect (h : step sha1 boost stack s a = some t) : Effect s a t := by
  cases a with
  | connect port =>
      simp only [step] at h
      split at h
      · rename_i idle
        cases h
        exact .of_moves (List.append_nil _).symm (.connect port idle) rfl rfl
      · cases h
  | asyncConnect =>
      simp only [step] at h
      split at h
      · rename_i idle
        cases h
        exact .of_moves (List.append_nil _).symm (.asyncConnect idle) rfl rfl
      · cases h
  | tcpConnect attempt => exact effect_tcpConnectDone h
  | sendRequest written => exact effect_sendRequest h
  | receiveFailed =>
      simp only [step] at h
      split at h
      · rename_i receiving
        cases h
        exact .of_failed trivial receiving nofun rfl rfl rfl
      · cases h
  | receiveResponse count =>
      have received : s.receive stack count = some t := h
      exact effect_receive received
  | write opcode data len count =>
      simp only [step] at h
      split at h
      · rename_i opened
        split at h
        · cases h
        · cases h
          have careful : Careful s (.write opcode data len count) := trivial
          exact effect_putFrame careful opened _ count
      · cases h
  | asyncWrite opcode data len count =>
      simp only [step] at h
      split at h
      · rename_i opened
        split at h
        · cases h
          have careful : Careful s (.asyncWrite opcode data len count) := trivial
          exact effect_putFrame careful opened _ count
        · cases h
      · cases h
  | accept asynchronous =>
      simp only [step] at h
      split at h
      · cases h
        exact .of_server trivial rfl rfl ⟨[], rfl⟩
      · cases h
  | serverReadFailed =>
      simp only [step] at h
      split at h
      · cases h
        exact .of_server trivial rfl rfl ⟨[], rfl⟩
      · cases h
  | serverRead count => exact effect_serverRead h
  | serverWrite written => exact effect_serverWrite h

section Shape

variable {client client' : ClientPhase} {before events : List ClientEvent}

theorem Shape.nil (shape : Shape client events)
    (early : client = .idle ∨ client = .asyncConnecting ∨
      ∃ port, client = .connecting port ∨ client = .sending port) : events = [] := by
  cases shape <;> first | rfl | simp at early

theorem Shape.receiving_inv (shape : Shape .receiving events) :
    ∃ port count, events = [.sent port ((openingRequest port).binaryPack.take count)] := by
  cases shape with
  | receiving port count => exact ⟨port, count, rfl⟩

theorem Shape.opened_inv (shape : Shape .opened events) : ∃ opening frames,
    events = opening ++ .success :: frames ∧ Quiet opening ∧
      ∀ e ∈ frames, ∃ bytes, e = .frame bytes := by
  cases shape with
  | opened quiet only => exact ⟨_, _, rfl, quiet, only⟩

theorem Shape.pending (shape : Shape client events) (pending : client ≠ .opened) :
    Quiet events := by
  cases shape with
  | failed quiet => exact quiet
  | opened quiet only => exact absurd rfl pending
  | receiving port count => simp [Quiet]
  | _ => exact nofun

theorem Quiet.append (quiet : Quiet before) (quiet' : Quiet events) : Quiet (before ++ events) :=
  List.forall_mem_append.mpr ⟨quiet, quiet'⟩

/-- The phases follow the events. -/
theorem Shape.moves (shape : Shape s.client before) (moves : Moves s a client' events) :
    Shape client' (before ++ events) := by
  cases moves with
  | rest careful =>
      rw [List.append_nil]
      exact shape
  | connect port idle =>
      rw [shape.nil (.inl idle)]
      exact .connecting port
  | asyncConnect idle =>
      rw [shape.nil (.inl idle)]
      exact .asyncConnecting
  | connected connecting =>
      rw [shape.nil (.inr (.inr ⟨_, .inl connecting⟩))]
      exact .sending _
  | asyncConnected connecting =>
      rw [shape.nil (.inr (.inl connecting))]
      have reported : Shape .opened ([] ++ .success :: []) := .opened nofun nofun
      exact reported
  | failed careful pending quiet => exact .failed ((shape.pending pending).append quiet)
  | sent count sending =>
      rw [shape.nil (.inr (.inr ⟨_, .inr sending⟩))]
      exact .receiving _ count
  | succeeded count receiving expected =>
      have quiet : Quiet before := shape.pending (by rw [receiving]; nofun)
      have received : Quiet [.received (s.toClient.take count)] := by
        simp [Quiet]
      have opened : Shape .opened
          (before ++ [.received (s.toClient.take count)] ++ .success :: []) :=
        .opened (quiet.append received) nofun
      rwa [List.append_assoc] at opened
  | frame bytes careful opened =>
      rw [opened] at shape
      obtain ⟨opening, frames, rfl, quiet, only⟩ := shape.opened_inv
      rw [List.append_assoc]
      exact .opened quiet (List.forall_mem_append.mpr ⟨only, by simp⟩)

/-- A reported success or a frame is not among quiet events. -/
theorem Quiet.opening_prefix {opening frames after : List ClientEvent} {e : ClientEvent}
    (quiet : Quiet opening) (loud : ¬ Quiet [e])
    (same : opening ++ .success :: frames = before ++ e :: after) : opening <+: before := by
  obtain ⟨rest, rfl, _⟩ | ⟨rest, rfl, tail⟩ := List.append_eq_append_iff.mp same
  · exact List.prefix_append _ _
  · cases rest with
    | nil => rw [List.append_nil]
    | cons x rest =>
        obtain ⟨rfl, _⟩ := List.cons.inj tail
        have inside : Quiet [e] := by
          intro y member
          rw [List.mem_singleton.mp member]
          exact quiet e (List.mem_append_right _ List.mem_cons_self)
        exact absurd inside loud

theorem Opening.mono (opening : Opening before) (more : before <+: events) : Opening events := by
  obtain ⟨front, port, between, response, after, rfl, expected⟩ := opening
  obtain ⟨rest, rfl⟩ := more
  exact ⟨front, port, between, response, after ++ rest, by simp, expected⟩

/-- Only what was sent and received before the first report counts. -/
theorem handshakeFirst_iff_opening {opening frames : List ClientEvent} (quiet : Quiet opening) :
    HandshakeFirst (opening ++ .success :: frames) ↔ Opening opening := by
  constructor
  · intro first
    exact first.success opening frames rfl
  · intro opened
    constructor
    · intro before after same
      exact opened.mono (quiet.opening_prefix (by simp [Quiet]) same)
    · intro before bytes after same
      exact opened.mono (quiet.opening_prefix (by simp [Quiet]) same)

theorem Quiet.handshakeFirst (quiet : Quiet events) : HandshakeFirst events where
  success := by
    rintro before after rfl
    exact absurd rfl (quiet _ (List.mem_append_right _ List.mem_cons_self)).1
  frames := by
    rintro before bytes after rfl
    exact absurd rfl ((quiet _ (List.mem_append_right _ List.mem_cons_self)).2 bytes)

theorem HandshakeFirst.of_prefix (first : HandshakeFirst events) (fewer : before <+: events) :
    HandshakeFirst before := by
  obtain ⟨rest, rfl⟩ := fewer
  constructor
  · rintro front after rfl
    exact first.success front (after ++ rest) (by simp)
  · rintro front bytes after rfl
    exact first.frames front bytes (after ++ rest) (by simp)

/-- The opening handshake of one request and one response. -/
theorem opening_pair_iff {port : BitVec 16} {bytes response : List Byte}
    (expected : acceptOf response = expectedAccept) :
    Opening [.sent port bytes, .received response] ↔
      bytes = (openingRequest port).binaryPack := by
  constructor
  · rintro ⟨front, port', between, response', after, same, _⟩
    have member : ClientEvent.sent port' (openingRequest port').binaryPack ∈
        [.sent port bytes, .received response] := by
      rw [same]
      simp
    simp only [List.mem_cons, List.not_mem_nil, or_false, ClientEvent.sent.injEq, reduceCtorEq]
      at member
    obtain ⟨rfl, rfl⟩ := member
    rfl
  · rintro rfl
    exact ⟨[], port, [], response, [], rfl, expected⟩

/-- One step keeps the order exactly if it is careful. -/
theorem careful_iff (shape : Shape s.client s.events) (first : HandshakeFirst s.events)
    (moves : Moves s a client' events) :
    HandshakeFirst (s.events ++ events) ↔ Careful s a := by
  cases moves with
  | rest careful =>
      rw [List.append_nil]
      exact iff_of_true first careful
  | connect port idle =>
      rw [List.append_nil]
      exact iff_of_true first trivial
  | asyncConnect idle =>
      rw [List.append_nil]
      exact iff_of_true first trivial
  | connected connecting =>
      rw [List.append_nil]
      refine iff_of_true first ?_
      simp only [Careful, connecting]
      nofun
  | asyncConnected connecting =>
      rw [shape.nil (.inr (.inl connecting))]
      refine iff_of_false ?_ (absurd connecting)
      intro first
      obtain ⟨front, _, _, _, _, nothing, _⟩ := first.success [] [] rfl
      cases front <;> cases nothing
  | failed careful pending quiet =>
      exact iff_of_true ((shape.pending pending).append quiet).handshakeFirst careful
  | sent count sending =>
      rw [shape.nil (.inr (.inr ⟨_, .inr sending⟩))]
      have quiet {port : BitVec 16} {bytes : List Byte} : Quiet [.sent port bytes] := by
        simp [Quiet]
      exact iff_of_true quiet.handshakeFirst trivial
  | succeeded count receiving expected =>
      rw [receiving] at shape
      obtain ⟨port, taken, sent⟩ := shape.receiving_inv
      have quiet : Quiet [.sent port ((openingRequest port).binaryPack.take taken),
          .received (s.toClient.take count)] := by
        simp [Quiet]
      have order : HandshakeFirst (_ ++ .success :: []) ↔ _ := handshakeFirst_iff_opening quiet
      rw [opening_pair_iff expected] at order
      rw [sent]
      refine order.trans ⟨fun whole _ => ⟨port, by rw [sent, whole]⟩, fun careful => ?_⟩
      obtain ⟨port', whole⟩ := careful expected
      rw [sent, List.cons.injEq, ClientEvent.sent.injEq] at whole
      obtain ⟨⟨rfl, whole⟩, _⟩ := whole
      exact whole
  | frame bytes careful opened =>
      rw [opened] at shape
      obtain ⟨opening, frames, same, quiet, _⟩ := shape.opened_inv
      rw [same, handshakeFirst_iff_opening quiet] at first
      rw [same, List.append_assoc]
      exact iff_of_true ((handshakeFirst_iff_opening quiet).mpr first) careful

end Shape

/-- What holds in every state that can be reached. -/
structure Reached (s : Connection) : Prop where
  shape : Shape s.client s.events
  wire : ∃ read, wireOf s.events = read ++ s.toServer

theorem reached_init : Reached {} := ⟨.idle, [], rfl⟩

theorem Reached.step (reached : Reached s) (h : Connection.step sha1 boost stack s a = some t) :
    Reached t := by
  obtain ⟨events, added, moves, arrived, wire⟩ := step_effect h
  obtain ⟨read, before⟩ := reached.wire
  constructor
  · rw [added]
    exact reached.shape.moves moves
  · refine ⟨read ++ arrived, ?_⟩
    have appended : wireOf (s.events ++ events) = wireOf s.events ++ wireOf events :=
      List.flatMap_append
    rw [added, appended, before, List.append_assoc, wire, List.append_assoc]

variable {as : List ConnectionAction}

theorem events_grow {guard : Connection → ConnectionAction → Prop}
    (run : Run (step sha1 boost stack) guard s as t) : s.events <+: t.events := by
  refine run.invariant (I := fun u => s.events <+: u.events) (List.prefix_refl _) ?_
  intro u a v earlier _ enabled
  obtain ⟨events, added, _⟩ := step_effect enabled
  rw [added]
  exact earlier.trans (List.prefix_append _ _)

/-- A run that ends with the frames behind the handshake was careful. -/
theorem careful_of_handshakeFirst (run : Run (step sha1 boost stack) unguarded s as t)
    (reached : Reached s) (first : HandshakeFirst t.events) :
    Run (step sha1 boost stack) Careful s as t := by
  induction run with
  | nil => exact .nil _
  | cons _ enabled rest ih =>
      obtain ⟨events, added, moves, _⟩ := step_effect enabled
      have next := first.of_prefix (events_grow rest)
      have now := next.of_prefix ⟨events, added.symm⟩
      rw [added] at next
      exact .cons ((careful_iff reached.shape now moves).mp next) enabled
        (ih (reached.step enabled) first)

/-- In every run of a client and a server, whichever of their operations they use:
the client reports success, and writes frames, behind the opening handshake
exactly if every step was careful. The events are in the order of the wire. -/
theorem handshake_first_iff (run : Run (step sha1 boost stack) unguarded {} as t) :
    (HandshakeFirst t.events ↔ Run (step sha1 boost stack) Careful {} as t) ∧
      ∃ read, wireOf t.events = read ++ t.toServer := by
  have reached : Reached t := run.invariant reached_init fun _ _ _ before _ => before.step
  refine ⟨⟨careful_of_handshakeFirst run reached_init, fun careful => ?_⟩, reached.wire⟩
  have both : Reached t ∧ HandshakeFirst t.events := by
    refine careful.invariant (I := fun u => Reached u ∧ HandshakeFirst u.events)
      ⟨reached_init, Quiet.handshakeFirst nofun⟩ ?_
    rintro u a v ⟨before, first⟩ admitted enabled
    obtain ⟨events, added, moves, _⟩ := step_effect enabled
    refine ⟨before.step enabled, ?_⟩
    rw [added]
    exact (careful_iff before.shape first moves).mpr admitted
  exact both.2

/-- A client that uses `async_connect` and then writes an empty text frame. -/
def asyncClient : List ConnectionAction :=
  [.asyncConnect, .tcpConnect .connected, .write .textFrame (fun _ => 0) 0 2]

/-- The frame is the first thing on the wire. -/
def frameFirst : Connection where
  client := .opened
  toServer := [0x81, 0x00]
  events := [.success, .frame [0x81, 0x00]]

theorem run_asyncClient :
    Run (step (fun _ => XwebsocketServer.sampleDigest) .reversing { cell := fun _ => 0 }) unguarded
      {} asyncClient frameFirst :=
  .cons trivial rfl (.cons trivial rfl (.cons trivial rfl (.nil _)))

theorem frameFirst_unordered : ¬ HandshakeFirst frameFirst.events := by
  intro first
  obtain ⟨front, _, _, _, _, nothing, _⟩ := first.success [] _ rfl
  cases front <;> cases nothing

theorem handshake_first_iff_asyncClient :
    ¬ Run (step (fun _ => XwebsocketServer.sampleDigest) .reversing { cell := fun _ => 0 }) Careful
      {} asyncClient frameFirst :=
  fun careful => frameFirst_unordered ((handshake_first_iff run_asyncClient).1.mpr careful)

/-- `async_connect` reports success without a handshake. -/
theorem async_connect_skips_handshake : ¬ ∀ sha1 boost stack as t,
    Run (step sha1 boost stack) unguarded {} as t → HandshakeFirst t.events :=
  fun all => frameFirst_unordered (all _ _ _ _ _ run_asyncClient)

end Connection
end Vee
