import Vee.Websocket.Session

/-!
# The asynchronous reads

`async_read_payload_only` and `async_read_all` hand the transport a handler that
decodes what a read has delivered and calls the user's callback `e`. Everything
the handler does when one read completes is one step here. The callback is user
code: it may throw, and it may change the caller's buffer.

`isOpen` is the state of the socket when the handler gets to its `async_read`. An
exception that leaves the handler goes to whoever runs the `io_service`.
-/

namespace Vee

open Endian Memory XwebsocketStream

structure OperationResult where
  error : ErrorCode
  desc : String
  deriving DecidableEq, Repr

/-- A call of the callback, with the contents of the buffer at that time. -/
structure Invocation where
  functionResult : OperationResult
  buffer : Nat → Byte
  bufCapacity : BitVec 32
  bytesTransferred : BitVec 32

/-- What user code throws: a `vee::exception`, or something no handler here catches. -/
inductive Thrown where
  | exception (e : Exception)
  | other
  deriving DecidableEq, Repr

/-- What the last of its calls throws, if anything, and the contents of the
buffer after it. -/
abbrev Callback := List Invocation → Option Thrown × (Nat → Byte)

/-- How a transport read completes. -/
inductive Completion where
  | failed (message : String) (bytesTransferred : Nat)
  | received (message : String) (bytes : List Byte)
  deriving DecidableEq, Repr

inductive ReadVariant where
  | payloadOnly
  | all
  deriving DecidableEq, Repr

/-- An asynchronous read under way. -/
structure AsyncRead where
  buffer : Memory Byte
  /-- a transport read is pending -/
  armed : Bool := false
  calls : List Invocation := []
  /-- what has left the last handler -/
  thrown : Option Thrown := none

namespace AsyncRead

/-- `e(function_result, buffer, buf_capacity, bytes_transferred)` -/
def invoke (e : Callback) (bufCapacity : BitVec 32) (functionResult : OperationResult)
    (bytesTransferred : BitVec 32) (s : AsyncRead) : Option Thrown × AsyncRead :=
  let calls := s.calls ++ [⟨functionResult, s.buffer.cell, bufCapacity, bytesTransferred⟩]
  let answer := e calls
  (answer.1, { s with calls, buffer := { s.buffer with cell := answer.2 } })

/-- `_tcp_stream.async_read(buffer, buf_capacity, preprocess)` -/
def tcpAsyncRead (isOpen : Bool) (s : AsyncRead) : AsyncRead :=
  if isOpen then { s with armed := true }
  else { s with
    thrown := some (.exception ⟨"invalid connection!", ErrorCode.closedStream.toInt⟩) }

/-- The call of the asynchronous read on a buffer. -/
def call (isOpen : Bool) (m : Memory Byte) : AsyncRead :=
  { buffer := m : AsyncRead }.tcpAsyncRead isOpen

/-- `catch (vee::exception& ex)` -/
def catchException (isOpen : Bool) (s : AsyncRead) : Thrown → AsyncRead
  | .exception ex =>
      if ex.code = ErrorCode.rfc6455WebsocketHeartbeat.toInt then s.tcpAsyncRead isOpen
      else { s with thrown := some (.exception ex) }
  | .other => { s with thrown := some .other }

/-- What the variants do between decoding and calling `e`: the buffer, and the
count that `e` is given. -/
def handOver (bufCapacity : BitVec 32) (info : IoResult) (bytesTransferred : BitVec 32)
    (m : Memory Byte) : ReadVariant → Memory Byte × BitVec 32
  | .payloadOnly => (extractPayload bufCapacity info m, info.payloadSize)
  | .all => (m, bytesTransferred)

variable (boost : BoostEndian) (fuel : Nat) (variant : ReadVariant) (e : Callback)
variable (bufCapacity : BitVec 32) (isOpen : Bool)

/-- The `try` statement. -/
def tryDecode (functionResult : OperationResult) (bytesTransferred : BitVec 32) (s : AsyncRead) :
    Option AsyncRead :=
  match preprocessReceivedData boost fuel bytesTransferred s.buffer with
  | none => none
  | some (.error ex, buffer) => some ({ s with buffer }.catchException isOpen (.exception ex))
  | some (.ok (info, _), buffer) =>
      let (buffer, count) := handOver bufCapacity info bytesTransferred buffer variant
      match invoke e bufCapacity functionResult count { s with buffer } with
      | (none, s) => some s
      | (some thrown, s) => some (s.catchException isOpen thrown)

/-- The handler `preprocess`. After an error it goes on to decode the buffer. -/
def preprocess (functionResult : OperationResult) (bytesTransferred : BitVec 32)
    (s : AsyncRead) : Option AsyncRead :=
  if functionResult.error ≠ .success then
    match invoke e bufCapacity functionResult bytesTransferred s with
    | (some thrown, s) => some { s with thrown := some thrown }
    | (none, s) => tryDecode boost fuel variant e bufCapacity isOpen functionResult bytesTransferred s
  else tryDecode boost fuel variant e bufCapacity isOpen functionResult bytesTransferred s

/-- `handle_read` of `tcp_stream::async_read`, for the pending read. -/
def handleRead (s : AsyncRead) (completion : Completion) : Option AsyncRead :=
  if s.armed then
    let s := { s with armed := false, thrown := none }
    match completion with
    | .failed message bytesTransferred =>
        preprocess boost fuel variant e bufCapacity isOpen ⟨.streamReadFailure, message⟩
          (BitVec.ofNat 32 bytesTransferred) s
    | .received message bytes =>
        preprocess boost fuel variant e bufCapacity isOpen ⟨.success, message⟩
          (BitVec.ofNat 32 bytes.length) { s with buffer := s.buffer.put 0 bytes }
  else none

/-- The completions one after another, each with the state of the socket then. -/
def handleAll (s : AsyncRead) : List (Bool × Completion) → Option AsyncRead
  | [] => some s
  | (isOpen, completion) :: later =>
      match handleRead boost fuel variant e bufCapacity isOpen s completion with
      | none => none
      | some s => handleAll s later

end AsyncRead

/-- The synchronous read that corresponds. -/
def ReadVariant.read (boost : BoostEndian) (fuel : Nat) (bufCapacity : BitVec 32)
    (reports : List ReadSome) (m : Memory Byte) :
    ReadVariant → Option (Except Exception IoResult × Memory Byte × List ReadSome)
  | .payloadOnly => readPayloadOnly boost fuel bufCapacity reports m
  | .all => readAll boost fuel bufCapacity reports m

end Vee
