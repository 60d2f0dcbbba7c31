import Vee.Websocket.Header

/-!
# The WebSocket stream

`xwebsocket_stream` over a TCP stream. A caller's buffer is the memory from
position 0 on. The transport is the list of what its successive `read_some`
calls report; when it is exhausted a read waits for ever. The unmask loop, whose
bound is a number of 64 bits sent by the peer, takes a limit on its iterations.
Where a result is `none`, the call has not returned, or has written past the end of
an allocation, behind which nothing is defined.
-/

namespace Vee

open Endian Memory

/-- `vee::system::error_code` -/
inductive ErrorCode where
  | success
  | streamAlreadyConnected
  | streamConnectionFailure
  | serverAcceptFailure
  | streamSendFailure
  | streamReadFailure
  | streamDisconnectedByHost
  | closedStream
  | rfc6455HandshakeFailure
  | rfc6455WebsocketHeartbeat
  | win32BusyNamedPipe
  | win32CloseHandleFailure
  | invalidParameter
  | bufferIsTooSmall
  deriving DecidableEq, Repr

/-- `(int)code` -/
def ErrorCode.toInt (code : ErrorCode) : BitVec 32 := BitVec.ofNat 32 code.ctorIdx

/-- `vee::exception` -/
structure Exception where
  desc : String
  code : BitVec 32
  deriving DecidableEq, Repr

structure IoResult where
  headerSize : BitVec 32 := 0
  payloadSize : BitVec 32 := 0
  deriving DecidableEq, Repr

/-- What a call of `read_some` reports. -/
inductive ReadSome where
  | received (bytes : List Byte)
  | failed
  deriving DecidableEq, Repr

/-- `tcp_stream::read` -/
def tcpRead (bufCapacity : BitVec 32) (report : ReadSome) (m : Memory Byte) :
    Except Exception (BitVec 32) × Memory Byte :=
  let m := m.fill 0 0 bufCapacity.toNat
  match report with
  | .failed => (.error ⟨"Recv failure!", ErrorCode.streamReadFailure.toInt⟩, m)
  | .received bytes => (.ok (BitVec.ofNat 32 bytes.length), m.put 0 bytes)

/-- `tcp_stream::write`, when `write_some` accepts the first `accepted` bytes. -/
def tcpWrite (data : List Byte) (accepted : Nat) (wire : List Byte) : BitVec 32 × List Byte :=
  (BitVec.ofNat 32 (data.take accepted).length, wire ++ data.take accepted)

/-- `tcp_stream::async_write` up to `async_write_some`, with the bytes handed to it. -/
def tcpAsyncWrite (isOpen : Bool) (data : List Byte) (len : BitVec 32) :
    Except Exception (List Byte) :=
  if isOpen then .ok (data.take len.toNat)
  else .error ⟨"invalid connection!", ErrorCode.closedStream.toInt⟩

namespace XwebsocketStream

/-- The vector of `_convert_to_websocket_form`, of `packetSize` bytes: the header,
and the payload behind it, if the vector holds them. -/
def fillPacket (boost : BoostEndian) (header : DataFrameHeader) (opcode : OpcodeId)
    (data : Nat → Byte) (len packetSize : BitVec 32) : Option (Memory Byte) :=
  let packetData := { cell := fun _ => 0 }
  let (shift, packetData) := header.binaryPack boost opcode 0 packetData
  let packetData := packetData.put shift.toNat (slice data 0 len.toNat)
  if packetData.Inside packetSize.toNat then some packetData else none

/-- The size of the vector is a sum of 32 bits, which may wrap. -/
def convertToWebsocketForm (boost : BoostEndian) (opcode : OpcodeId) (data : Nat → Byte)
    (len : BitVec 32) : Option (IoResult × List Byte) :=
  let header : DataFrameHeader := { fin := true, useMask := false, payloadLen := len.setWidth 64 }
  let headerSize := header.binaryPackSize
  let packetSize := len + headerSize
  match fillPacket boost header opcode data len packetSize with
  | none => none
  | some packetData =>
      some ({ headerSize, payloadSize := header.payloadLen.setWidth 32 },
        slice packetData.cell 0 packetSize.toNat)

/-- `write(opcode, data, len)`; how much the transport accepted is not looked at. -/
def write (boost : BoostEndian) (opcode : OpcodeId) (data : Nat → Byte) (len : BitVec 32)
    (accepted : Nat) (wire : List Byte) : Option (IoResult × List Byte) :=
  match convertToWebsocketForm boost opcode data len with
  | none => none
  | some (result, wsPacket) =>
      let (_, wire) := tcpWrite wsPacket accepted wire
      some (result, wire)

def asyncWrite (boost : BoostEndian) (opcode : OpcodeId) (data : Nat → Byte) (len : BitVec 32)
    (isOpen : Bool) : Option (Except Exception (List Byte)) :=
  match convertToWebsocketForm boost opcode data len with
  | none => none
  | some (result, packet) => some (tcpAsyncWrite isOpen packet (result.headerSize + len))

/-- `data[i + header.payload_pos] ^= header.masking_key[i % 4]` -/
def unmaskByte (header : DataFrameHeader) (i : BitVec 32) (m : Memory Byte) : Memory Byte :=
  have inKey : i.toNat % 4 < 4 := Nat.mod_lt _ (Nat.succ_pos 3)
  let mask := header.maskingKey[i.toNat % 4]
  let (block, m) := m.fetch (i + header.payloadPos).toNat 1
  m.put (i + header.payloadPos).toNat [block.head ^^^ mask]

/-- The unmask loop from `i` on, for at most `fuel` iterations. -/
def unmask (header : DataFrameHeader) : Nat → BitVec 32 → Memory Byte → Option (Memory Byte)
  | 0, i, m => if i.setWidth 64 < header.payloadLen then none else some m
  | fuel + 1, i, m =>
      if i.setWidth 64 < header.payloadLen then
        unmask header fuel (i + 1) (unmaskByte header i m)
      else some m

def preprocessReceivedData (boost : BoostEndian) (fuel : Nat) (len : BitVec 32)
    (m : Memory Byte) : Option (Except Exception (IoResult × DataFrameHeader) × Memory Byte) :=
  let (header, m) := ({} : DataFrameHeader).analyze boost (some 0) len m
  match header.opcode with
  | .ping | .pong =>
      some (.error ⟨"Websocket heartbeat", ErrorCode.rfc6455WebsocketHeartbeat.toInt⟩, m)
  | .connnectionClose =>
      some (.error ⟨"Connection is closed by host", ErrorCode.streamDisconnectedByHost.toInt⟩, m)
  | _ =>
      match unmask header fuel 0 m with
      | none => none
      | some m =>
          let payloadSize := header.payloadLen.setWidth 32
          some (.ok ({ headerSize := len - payloadSize, payloadSize }, header), m)

/-- The block of `read_all` inside `try`. -/
def readFrame (boost : BoostEndian) (fuel : Nat) (bufCapacity : BitVec 32) (report : ReadSome)
    (m : Memory Byte) : Option (Except Exception IoResult × Memory Byte) :=
  match tcpRead bufCapacity report m with
  | (.error e, m) => some (.error e, m)
  | (.ok bytesTransferred, m) =>
      match preprocessReceivedData boost fuel bytesTransferred m with
      | none => none
      | some (.error e, m) => some (.error e, m)
      | some (.ok (info, _), m) => some (.ok info, m)

/-- `read_all`; it starts over after a heartbeat. -/
def readAll (boost : BoostEndian) (fuel : Nat) (bufCapacity : BitVec 32) :
    List ReadSome → Memory Byte → Option (Except Exception IoResult × Memory Byte × List ReadSome)
  | [], _ => none
  | report :: reports, m =>
      match readFrame boost fuel bufCapacity report m with
      | none => none
      | some (.ok info, m) => some (.ok info, m, reports)
      | some (.error e, m) =>
          if e.code = ErrorCode.rfc6455WebsocketHeartbeat.toInt then
            readAll boost fuel bufCapacity reports m
          else some (.error e, m, reports)

/-- The end of `read_payload_only`: move the payload to the front, clear the rest. -/
def extractPayload (bufCapacity : BitVec 32) (result : IoResult) (m : Memory Byte) : Memory Byte :=
  let m := m.move 0 result.headerSize.toNat result.payloadSize.toNat
  m.fill result.payloadSize.toNat 0 (bufCapacity - result.payloadSize).toNat

def readPayloadOnly (boost : BoostEndian) (fuel : Nat) (bufCapacity : BitVec 32)
    (reports : List ReadSome) (m : Memory Byte) :
    Option (Except Exception IoResult × Memory Byte × List ReadSome) :=
  match readAll boost fuel bufCapacity reports m with
  | none => none
  | some (.error e, m, reports) => some (.error e, m, reports)
  | some (.ok result, m, reports) => some (.ok result, extractPayload bufCapacity result m, reports)

end XwebsocketStream
end Vee
