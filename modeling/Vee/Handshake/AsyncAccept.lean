import Vee.Handshake.Segments

/-!
# Accepting a client

`accept` and `async_accept` of `xwebsocket_server`, over those of `tcp_server`. A
callback is called with an operation result, which it may change, and a stream.
What the user's callback `e` does is not modelled, only the calls of it.
-/

namespace Vee

open Endian Memory SyncStream XwebsocketServer

universe u v

variable {σ : Type u} {α : Type v}

/-- How the attempt to accept a connection ends. -/
inductive TcpAccept (σ : Type u) where
  | accepted (socket : σ)
  | failed (message : String)
  deriving DecidableEq, Repr

/-- The streams that a server makes of a socket. -/
inductive NetStream (σ : Type u) where
  | tcpStream (socket : σ)
  | xwebsocketStream (socket : σ)
  deriving DecidableEq, Repr

/-- `static_pointer_cast<tcp_stream>` and the socket that is moved out of the stream;
undefined for no stream and for one of another class. -/
def NetStream.rawTcpStream : Option (NetStream σ) → Option σ
  | some (.tcpStream socket) => some socket
  | some (.xwebsocketStream _) => none
  | none => none

/-- What `accept` throws: the error of `_acceptor.accept`, or an exception of the
library. -/
inductive AcceptException where
  | system (message : String)
  | vee (e : Exception)
  deriving DecidableEq, Repr

/-- A call of `e`. -/
structure AcceptCall (σ : Type u) where
  result : OperationResult
  stream : Option (NetStream σ)
  deriving DecidableEq, Repr

namespace TcpServer

def accept : TcpAccept σ → Except AcceptException (NetStream σ)
  | .accepted socket => .ok (.tcpStream socket)
  | .failed message => .error (.system message)

/-- `async_accept(e)`, with the message of the error code for success. -/
def asyncAccept (success : String) (attempt : TcpAccept σ)
    (e : OperationResult → Option (NetStream σ) → α) : α :=
  match attempt with
  | .failed message => e ⟨.serverAcceptFailure, message⟩ none
  | .accepted socket => e ⟨.success, success⟩ (some (.tcpStream socket))

end TcpServer

namespace XwebsocketServer

/-- `accept()` -/
def accept (sha1 : List Byte → Digest) (buffer : Memory Byte) (attempt : TcpAccept σ)
    (read : ReadSome) (written : WriteSome) (wire : List Byte) :
    Option (Except AcceptException (NetStream σ) × List Byte) :=
  match TcpServer.accept attempt with
  | .error e => some (.error e, wire)
  | .ok stream =>
      match NetStream.rawTcpStream (some stream) with
      | none => none
      | some socket =>
          match handshake sha1 buffer read written wire with
          | none => none
          | some (true, wire) => some (.ok (.xwebsocketStream socket), wire)
          | some (false, wire) =>
              some (.error (.vee ⟨"rfc6455_client_handshake_failure",
                ErrorCode.rfc6455HandshakeFailure.toInt⟩), wire)

/-- `handle_accept` of `async_accept`: the calls of `e`, the result that the caller
has afterwards, and what was written. -/
def handleAccept (sha1 : List Byte → Digest) (buffer : Memory Byte) (read : ReadSome)
    (written : WriteSome) (wire : List Byte) (result : OperationResult)
    (stream : Option (NetStream σ)) :
    Option (List (AcceptCall σ) × OperationResult × List Byte) :=
  if result.error ≠ .success then some ([⟨result, stream⟩], result, wire)
  else
    match NetStream.rawTcpStream stream with
    | none => none
    | some socket =>
        match handshake sha1 buffer read written wire with
        | none => none
        | some (false, wire) =>
            -- the failure is noted, but `e` is not called
            some ([], ⟨.rfc6455HandshakeFailure,
              result.desc ++ "\r\nrfc6455_client_handshake_failure!"⟩, wire)
        | some (true, wire) =>
            some ([⟨result, some (.xwebsocketStream socket)⟩], result, wire)

/-- `async_accept(e)` -/
def asyncAccept (sha1 : List Byte → Digest) (success : String) (buffer : Memory Byte)
    (attempt : TcpAccept σ) (read : ReadSome) (written : WriteSome) (wire : List Byte) :
    Option (List (AcceptCall σ) × OperationResult × List Byte) :=
  TcpServer.asyncAccept success attempt (handleAccept sha1 buffer read written wire)

/-- The accept ends with one call of `e`: with the error of the transport, with the
failure of the handshake, or with success and the stream that `accept` returns. -/
def CompletesOnce (sha1 : List Byte → Digest) (success : String) (buffer : Memory Byte)
    (attempt : TcpAccept σ) (read : ReadSome) (written : WriteSome) (wire : List Byte) : Prop :=
  ∃ call result sent,
    asyncAccept sha1 success buffer attempt read written wire = some ([call], result, sent) ∧
    (∀ message, attempt = .failed message → call.result = ⟨.serverAcceptFailure, message⟩) ∧
    (∀ socket sent, attempt = .accepted socket →
      handshake sha1 buffer read written wire = some (false, sent) →
        call.result.error = .rfc6455HandshakeFailure) ∧
    ∀ stream, call.result.error = .success ∧ call.stream = some stream ↔
      ∃ sent, accept sha1 buffer attempt read written wire = some (.ok stream, sent)

variable {sha1 : List Byte → Digest} {success : String} {buffer : Memory Byte}
variable {attempt : TcpAccept σ} {read : ReadSome} {written : WriteSome} {wire : List Byte}
variable {request : HandshakeClientRequest} {socket : σ} {message : String}

/-- The response is sent for a valid header if the transport takes it. -/
theorem reply_true_iff : (∃ sent, reply sha1 request written wire = some (true, sent)) ↔
    request.isValid = some true ∧ written ≠ .failed := by
  simp only [reply, answer]
  cases request.isValid with
  | none => simp
  | some valid =>
      cases valid with
      | false => simp
      | true =>
          cases written with
          | failed => simp [tcpStreamWrite]
          | accepted count => simp [tcpStreamWrite]

/-- The handshake succeeds on a valid request that is terminated in the array. -/
theorem handshake_true_iff (sha1 : List Byte → Digest) (buffer : Memory Byte) (wire : List Byte)
    (fits : ∀ bytes, read = .received bytes → bytes.length ≤ 4096) :
    (∃ sent, handshake sha1 buffer read written wire = some (true, sent)) ↔
      written ≠ .failed ∧ ∃ bytes, read = .received bytes ∧
        (bytes.length < 4096 ∨ 0 ∈ bytes) ∧ (header (cString bytes)).isValid = some true := by
  cases read with
  | failed => simp [handshake, tcpRead]
  | received bytes =>
      rw [handshake_eq sha1 (fits bytes rfl)]
      by_cases terminated : bytes.length < 4096 ∨ 0 ∈ bytes
      · rw [if_pos terminated, reply_true_iff]
        simp only [ReadSome.received.injEq, exists_eq_left', terminated, true_and]
        exact and_comm
      · rw [if_neg terminated]
        refine iff_of_false (by simp) ?_
        rintro ⟨_, _, ⟨⟩, inside, _⟩
        exact terminated inside

/-- A failed accept is passed on. -/
theorem asyncAccept_failed : asyncAccept sha1 success buffer
    (.failed message : TcpAccept σ) read written wire =
      some ([⟨⟨.serverAcceptFailure, message⟩, none⟩], ⟨.serverAcceptFailure, message⟩, wire) :=
  rfl

theorem asyncAccept_accepted : asyncAccept sha1 success buffer (.accepted socket) read written
    wire = match handshake sha1 buffer read written wire with
      | none => none
      | some (false, wire) => some ([], ⟨.rfc6455HandshakeFailure,
          success ++ "\r\nrfc6455_client_handshake_failure!"⟩, wire)
      | some (true, wire) => some ([⟨⟨.success, success⟩, some (.xwebsocketStream socket)⟩],
          ⟨.success, success⟩, wire) := rfl

/-- `e` is called for an accepted socket only when the handshake succeeds. -/
theorem handshake_of_called {call : AcceptCall σ} {result : OperationResult} {sent : List Byte}
    (called : asyncAccept sha1 success buffer (.accepted socket) read written wire =
      some ([call], result, sent)) :
    ∃ sent, handshake sha1 buffer read written wire = some (true, sent) := by
  rw [asyncAccept_accepted] at called
  cases shaken : handshake sha1 buffer read written wire with
  | none =>
      rw [shaken] at called
      cases called
  | some outcome =>
      obtain ⟨success, wire⟩ := outcome
      cases success with
      | false =>
          rw [shaken] at called
          cases called
      | true => exact ⟨wire, rfl⟩

/-- An asynchronous accept completes exactly if the accept of the transport fails,
or the handshake succeeds: with a valid request that is terminated in the array,
and a transport that takes the response. -/
theorem async_accept_completes_iff (sha1 : List Byte → Digest) (success : String)
    (buffer : Memory Byte) (attempt : TcpAccept σ) (written : WriteSome) (wire : List Byte)
    (fits : ∀ bytes, read = .received bytes → bytes.length ≤ 4096) :
    CompletesOnce sha1 success buffer attempt read written wire ↔
      (∃ message, attempt = .failed message) ∨
        written ≠ .failed ∧ ∃ bytes, read = .received bytes ∧
          (bytes.length < 4096 ∨ 0 ∈ bytes) ∧
          (header (cString bytes)).isValid = some true := by
  rw [← handshake_true_iff sha1 buffer wire fits]
  cases attempt with
  | failed message =>
      refine iff_of_true ?_ (.inl ⟨message, rfl⟩)
      refine ⟨_, _, _, asyncAccept_failed, ?_, nofun, ?_⟩
      · rintro _ ⟨⟩
        rfl
      · intro stream
        refine iff_of_false (fun accepted => nomatch accepted.1) ?_
        rintro ⟨sent, returned⟩
        cases returned
  | accepted socket =>
      constructor
      · rintro ⟨call, result, sent, called, _⟩
        exact .inr (handshake_of_called called)
      · rintro (⟨_, ⟨⟩⟩ | ⟨sent, shaken⟩)
        have called : asyncAccept sha1 success buffer (.accepted socket) read written wire =
            some ([⟨⟨.success, success⟩, some (.xwebsocketStream socket)⟩], ⟨.success, success⟩,
              sent) := by
          rw [asyncAccept_accepted, shaken]
        refine ⟨_, _, _, called, nofun, ?_, ?_⟩
        · intro _ sent' _ failed
          rw [shaken] at failed
          cases failed
        · intro stream
          have returned : accept sha1 buffer (.accepted socket) read written wire =
              some (.ok (.xwebsocketStream socket), sent) := by
            simp only [accept, TcpServer.accept, NetStream.rawTcpStream, shaken]
          rw [returned]
          simp [eq_comm]

theorem async_accept_completes_iff_valid :
    CompletesOnce (fun _ => sampleDigest) "success" ⟨fun _ => 0, []⟩ (.accepted ())
      (.received (XwebsocketStream.firstLine ++ XwebsocketStream.otherLines))
      (.accepted 4096) [] := by
  have room := XwebsocketStream.lines_length
  refine (async_accept_completes_iff _ _ _ _ _ _ ?_).mpr (.inr ⟨nofun, _, rfl, ?_, ?_⟩)
  · rintro _ ⟨⟩
    exact Nat.le_trans (Nat.le_of_eq room) (by decide)
  · exact .inl (by rw [room]; decide)
  · exact XwebsocketStream.isValid_lines

/-- A client that sends nothing and closes the connection. -/
theorem closed_client_not_reported :
    ¬ CompletesOnce (fun _ => sampleDigest) "success" ⟨fun _ => 0, []⟩ (.accepted ()) .failed
      .failed [] := by
  rintro ⟨call, result, sent, called, _⟩
  obtain ⟨_, shaken⟩ := handshake_of_called called
  have fits : ∀ bytes, ReadSome.failed = .received bytes → bytes.length ≤ 4096 := by
    rintro _ ⟨⟩
  obtain ⟨_, _, received, _⟩ := (handshake_true_iff _ _ _ fits).mp ⟨_, shaken⟩
  cases received

end XwebsocketServer
end Vee
