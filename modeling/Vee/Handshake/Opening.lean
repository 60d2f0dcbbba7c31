import Vee.Handshake.Accept
import Vee.Stream.Write
import Vee.Websocket.Async

/-!
# Both sides of the opening handshake

`_handshake` of the server and `connect` of the client, each as what it does with
the reports of the transport: one `read_some` into an array on the stack, which
`make_string` then reads up to the first NUL, and one `write_some`. An array that
is full and holds no NUL is read past its end and makes the result `none`.
-/

namespace Vee

open Endian Memory SyncStream

/-- `make_string(buffer.data())` for an array of `n` bytes. -/
def makeString (n : Nat) (buffer : Memory Byte) : Option (List Byte) :=
  if 0 ∈ slice buffer.cell 0 n then some (cString (slice buffer.cell 0 n)) else none

namespace XwebsocketServer

/-- The header that `_handshake` parses from a string. -/
def header (data : List Byte) : HandshakeClientRequest := ({} : HandshakeClientRequest).parse data

/-- The end of `_handshake`, once the header is parsed. -/
def reply (sha1 : List Byte → Digest) (header : HandshakeClientRequest) (written : WriteSome)
    (wire : List Byte) : Option (Bool × List Byte) :=
  match answer sha1 header with
  | none => none
  | some none => some (false, wire)
  | some (some response) =>
      match tcpStreamWrite response.binaryPack written wire with
      | (.error _, wire) => some (false, wire)
      | (.ok _, wire) => some (true, wire)

/-- `_handshake(raw_socket)`; it catches what the transport throws. -/
def handshake (sha1 : List Byte → Digest) (buffer : Memory Byte) (read : ReadSome)
    (written : WriteSome) (wire : List Byte) : Option (Bool × List Byte) :=
  match tcpRead 4096 read buffer with
  | (.error _, _) => some (false, wire)
  | (.ok _, buffer) =>
      match makeString 4096 buffer with
      | none => none
      | some data => reply sha1 (header data) written wire

end XwebsocketServer

/-- How the attempt to connect a socket ends. -/
inductive TcpConnect where
  | connected
  | failed (message : String)
  deriving DecidableEq, Repr

/-- `tcp_stream::connect` -/
def tcpConnect : TcpConnect → Except Exception Unit
  | .connected => .ok ()
  | .failed _ => .error ⟨"Connection failure!", ErrorCode.streamConnectionFailure.toInt⟩

/-- `handle_connect` of `tcp_stream::async_connect`: what `e` is called with. -/
def handleConnect (success : String) : TcpConnect → OperationResult
  | .connected => ⟨.success, success⟩
  | .failed message => ⟨.streamConnectionFailure, message⟩

namespace XwebsocketStream

/-- The request that `connect` sends. -/
def openingRequest (port : BitVec 16) : HandshakeClientRequest where
  requestUri := ascii "GET /chat HTTP/1.1"
  host := ascii "127.0.0.1:" ++ ascii (toString port.toNat)
  upgrade := ascii "websocket"
  connection := ascii "Upgrade"
  secWebsocketKey := ascii "dGhlIHNhbXBsZSBub25jZQ=="
  origin := ascii "http://127.0.0.1" ++ ascii (toString port.toNat)
  secWebsocketProtocol := ascii "char, superchat"
  secWebSocketVersion := ascii "13"

/-- The value that `connect` compares with. -/
def expectedAccept : List Byte := ascii "s3pPLMBiTxaQ9kYGzzhZRbK+xOo="

/-- The accept value of a response, as `parse(const char*)` finds it. -/
def acceptOf (response : List Byte) : List Byte :=
  (({} : HandshakeServerResponse).parse (cString response)).secWebsocketAccept

/-- `connect` from its call of `_tcp_stream.read` on. -/
def receiveResponse (buffer : Memory Byte) (read : ReadSome) : Option (Except Exception Unit) :=
  match tcpRead 512 read buffer with
  | (.error e, _) => some (.error e)
  | (.ok _, buffer) =>
      match makeString 512 buffer with
      | none => none
      | some data =>
          if (({} : HandshakeServerResponse).parse data).secWebsocketAccept ≠ expectedAccept then
            some (.error ⟨"Sec-Websocket-Accept key is wrong!",
              ErrorCode.rfc6455HandshakeFailure.toInt⟩)
          else some (.ok ())

/-- `connect(ip_addr, port)`; how much of the request was accepted is not looked at. -/
def connect (port : BitVec 16) (buffer : Memory Byte) (attempt : TcpConnect) (written : WriteSome)
    (read : ReadSome) (wire : List Byte) : Option (Except Exception Unit × List Byte) :=
  match tcpConnect attempt with
  | .error e => some (.error e, wire)
  | .ok () =>
      match tcpStreamWrite (openingRequest port).binaryPack written wire with
      | (.error e, wire) => some (.error e, wire)
      | (.ok _, wire) => (receiveResponse buffer read).map fun result => (result, wire)

/-- `async_connect(ip_addr, port, e)` is that of the TCP stream: what `e` is called with. -/
def asyncConnect (success : String) (attempt : TcpConnect) : OperationResult :=
  handleConnect success attempt

end XwebsocketStream

variable {n : BitVec 32} {buffer : Memory Byte} {bytes : List Byte}

/-- What a read leaves in an array: the bytes that came, and zeros. -/
theorem slice_received (fits : bytes.length ≤ n.toNat) :
    slice (tcpRead n (.received bytes) buffer).2.cell 0 n.toNat =
      bytes ++ List.replicate (n.toNat - bytes.length) 0 := by
  apply List.ext_getElem
  · rw [slice_length, List.length_append, List.length_replicate]
    omega
  · intro i inside _
    rw [slice_length] at inside
    rw [slice_getElem, List.getElem_append]
    simp only [tcpRead, put, fill, Nat.zero_add, Nat.zero_le, if_true, true_and, Nat.sub_zero,
      inside]
    split
    · rename_i here
      exact List.getD_eq_getElem _ _ here
    · rename_i behind
      rw [List.getElem_replicate]
      exact List.getD_eq_default _ _ (Nat.not_lt.mp behind)

theorem cString_append_zeros (bytes : List Byte) (k : Nat) :
    cString (bytes ++ List.replicate k 0) = cString bytes := by
  have zeros : cString (List.replicate k 0) = [] := by
    cases k <;> rfl
  simp only [cString] at zeros ⊢
  rw [List.takeWhile_append]
  split
  · rename_i whole
    rw [zeros, List.append_nil, List.IsPrefix.eq_of_length (List.takeWhile_prefix _) whole]
  · rfl

/-- The string in the array is what came up to the first NUL, unless the array is
full and has none. -/
theorem makeString_received (fits : bytes.length ≤ n.toNat) :
    makeString n.toNat (tcpRead n (.received bytes) buffer).2 =
      if bytes.length < n.toNat ∨ 0 ∈ bytes then some (cString bytes) else none := by
  have terminated : 0 ∈ bytes ++ List.replicate (n.toNat - bytes.length) 0 ↔
      bytes.length < n.toNat ∨ 0 ∈ bytes := by
    rw [List.mem_append, List.mem_replicate]
    constructor
    · rintro (inside | ⟨room, _⟩)
      · exact .inr inside
      · exact .inl (by omega)
    · rintro (room | inside)
      · exact .inr ⟨by omega, rfl⟩
      · exact .inl inside
  simp only [makeString, slice_received fits, terminated, cString_append_zeros]

theorem tcpRead_received : tcpRead n (.received bytes) buffer =
    (.ok (BitVec.ofNat 32 bytes.length), (tcpRead n (.received bytes) buffer).2) := rfl

/-- On what one read may return. -/
theorem XwebsocketServer.handshake_eq (sha1 : List Byte → Digest) (fits : bytes.length ≤ 4096)
    (written : WriteSome) (wire : List Byte) :
    handshake sha1 buffer (.received bytes) written wire =
      if bytes.length < 4096 ∨ 0 ∈ bytes then reply sha1 (header (cString bytes)) written wire
      else none := by
  have string : makeString 4096 (tcpRead 4096 (.received bytes) buffer).2 =
      if bytes.length < 4096 ∨ 0 ∈ bytes then some (cString bytes) else none :=
    makeString_received (n := 4096) fits
  simp only [handshake]
  rw [tcpRead_received]
  simp only [string]
  by_cases terminated : bytes.length < 4096 ∨ 0 ∈ bytes
  · simp only [if_pos terminated]
  · simp only [if_neg terminated]

/-- On a request that leaves room for a NUL. -/
theorem XwebsocketServer.handshake_received (sha1 : List Byte → Digest)
    (room : bytes.length ≤ 4095) (written : WriteSome) (wire : List Byte) :
    handshake sha1 buffer (.received bytes) written wire =
      reply sha1 (header (cString bytes)) written wire := by
  rw [handshake_eq sha1 (by omega), if_pos (.inl (by omega))]

/-- What `connect` makes of bytes that fit the array. -/
theorem XwebsocketStream.receiveResponse_received (fits : bytes.length ≤ 512) :
    receiveResponse buffer (.received bytes) =
      if bytes.length < 512 ∨ 0 ∈ bytes then
        some (if acceptOf bytes = expectedAccept then .ok ()
          else .error ⟨"Sec-Websocket-Accept key is wrong!",
            ErrorCode.rfc6455HandshakeFailure.toInt⟩)
      else none := by
  have string : makeString 512 (tcpRead 512 (.received bytes) buffer).2 =
      if bytes.length < 512 ∨ 0 ∈ bytes then some (cString bytes) else none :=
    makeString_received (n := 512) fits
  simp only [receiveResponse]
  rw [tcpRead_received]
  simp only [string]
  by_cases terminated : bytes.length < 512 ∨ 0 ∈ bytes
  · simp only [if_pos terminated, acceptOf, ne_eq, ite_not]
    exact (apply_ite some _ _ _).symm
  · simp only [if_neg terminated]

end Vee
