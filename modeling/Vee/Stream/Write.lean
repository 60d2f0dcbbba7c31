import Vee.Websocket.Delivery

/-!
# What `write` returns

The three implementations of `sync_stream::write` over a transport that may
accept fewer bytes than it is handed. A TCP stream returns the count of
`write_some`, a named pipe the count in 8 bits, and a WebSocket stream the size
of the frame, whatever was accepted of it. A frame of `2 ^ 32` bytes or more
overruns its vector before anything is handed over.
-/

namespace Vee

open Endian Memory XwebsocketStream

/-- What a call of `write_some` reports. -/
inductive WriteSome where
  | accepted (count : Nat)
  | failed
  deriving DecidableEq, Repr

/-- The implementations of `sync_stream`. -/
inductive SyncStream where
  | tcpStream
  | win32NamedPipe
  | xwebsocketStream
  deriving DecidableEq, Repr

namespace SyncStream

/-- `tcp_stream::write` -/
def tcpStreamWrite (data : List Byte) (report : WriteSome) (wire : List Byte) :
    Except Exception (BitVec 32) × List Byte :=
  match report with
  | .failed => (.error ⟨"Send failure!", ErrorCode.streamSendFailure.toInt⟩, wire)
  | .accepted count =>
      let (writeLen, wire) := tcpWrite data count wire
      (.ok writeLen, wire)

/-- `win32_named_pipe::write`, with what `GetLastError` returns. -/
def win32NamedPipeWrite (isOpen : Bool) (lastError : Int) (data : List Byte) (report : WriteSome)
    (wire : List Byte) : Except Exception (BitVec 32) × List Byte :=
  if isOpen then
    match report with
    | .failed =>
        (.error ⟨"WriteFile to pipe failed. GLE=" ++ toString lastError,
          ErrorCode.streamSendFailure.toInt⟩, wire)
    | .accepted count =>
        let bytesTransferred := BitVec.ofNat 32 (data.take count).length
        (.ok ((bytesTransferred.setWidth 8).setWidth 32), wire ++ data.take count)
  else (.error ⟨"Invalid named pipe stream", ErrorCode.closedStream.toInt⟩, wire)

/-- `websocket_stream::write(data, len)` over `xwebsocket_stream::write` -/
def websocketStreamWrite (boost : BoostEndian) (data : Nat → Byte) (len : BitVec 32)
    (report : WriteSome) (wire : List Byte) : Option (Except Exception (BitVec 32) × List Byte) :=
  match convertToWebsocketForm boost .binaryFrame data len with
  | none => none
  | some (result, wsPacket) =>
      match tcpStreamWrite wsPacket report wire with
      | (.error e, wire) => some (.error e, wire)
      | (.ok _, wire) => some (.ok (result.headerSize + result.payloadSize), wire)

/-- `write(data, len)` of each implementation. -/
def write (stream : SyncStream) (boost : BoostEndian) (isOpen : Bool) (lastError : Int)
    (data : Nat → Byte) (len : BitVec 32) (report : WriteSome) (wire : List Byte) :
    Option (Except Exception (BitVec 32) × List Byte) :=
  match stream with
  | tcpStream => some (tcpStreamWrite (slice data 0 len.toNat) report wire)
  | win32NamedPipe =>
      some (win32NamedPipeWrite isOpen lastError (slice data 0 len.toNat) report wire)
  | xwebsocketStream => websocketStreamWrite boost data len report wire

/-- The bytes that `write` hands to the transport, if it gets there. -/
def handed (stream : SyncStream) (boost : BoostEndian) (data : Nat → Byte) (len : BitVec 32) :
    Option (List Byte) :=
  match stream with
  | tcpStream | win32NamedPipe => some (slice data 0 len.toNat)
  | xwebsocketStream => (convertToWebsocketForm boost .binaryFrame data len).map Prod.snd

/-- The size of the header `binary_pack` writes without a mask. -/
def headerLength (n : Nat) : Nat := if n < 126 then 2 else if n ≤ 32767 then 4 else 10

/-- The calls of which the count reaches the caller. -/
def Tells (stream : SyncStream) (len : BitVec 32) (count : Nat) : Prop :=
  match stream with
  | tcpStream => True
  | win32NamedPipe => count < 256
  | xwebsocketStream => len.toNat < 2 ^ 32 - 10 ∧ count = len.toNat + headerLength len.toNat

variable {stream : SyncStream} {boost : BoostEndian} {isOpen : Bool} {lastError : Int}
variable {data : Nat → Byte} {len : BitVec 32} {count : Nat} {wire : List Byte}

theorem binaryPackSize_eq (msg : Message) :
    msg.header.binaryPackSize.toNat = headerLength msg.len.toNat := by
  have length : (msg.len.setWidth 64).toNat = msg.len.toNat :=
    BitVec.toNat_setWidth_of_le (by decide)
  have key : msg.frame.header.keyBytes = [] := rfl
  have form : msg.frame.header.length = DataFrameHeader.sentLength (msg.len.setWidth 64) := rfl
  rw [msg.headerSize_eq, HeaderLayout.size_eq, key, form]
  simp only [DataFrameHeader.sentLength, headerLength, length]
  split
  · rfl
  · split
    · change 2 + (toBig 2 _).length + 0 = 4
      rw [toBig_length]
    · change 2 + (toBig 8 _).length + 0 = 10
      rw [toBig_length]

theorem frameLength_eq (msg : Message) :
    msg.frameLength = headerLength msg.len.toNat + msg.len.toNat := by
  simp only [Message.frameLength, binaryPackSize_eq]

/-- The frames for which there is a vector. -/
theorem frameLength_lt_iff (msg : Message) :
    msg.frameLength < 2 ^ 32 ↔ msg.len.toNat < 2 ^ 32 - 10 := by
  rw [frameLength_eq, headerLength]
  split_ifs <;> omega

/-- Whatever `write` returns, the bytes reported as accepted are on the wire. -/
theorem write_wire :
    (stream.write boost true lastError data len (.accepted count) wire).map Prod.snd =
      (stream.handed boost data len).map fun bytes => wire ++ bytes.take count := by
  cases stream with
  | tcpStream | win32NamedPipe => rfl
  | xwebsocketStream =>
      simp only [write, websocketStreamWrite, handed]
      cases convertToWebsocketForm boost .binaryFrame data len <;> rfl

theorem ofNat_toNat_of_le {n : Nat} {bytes : List Byte} (within : n ≤ bytes.length)
    (small : bytes.length < 2 ^ 32) : (BitVec.ofNat 32 (bytes.take n).length).toNat = n := by
  rw [List.length_take, Nat.min_eq_left within, BitVec.toNat_ofNat]
  exact Nat.mod_eq_of_lt (by omega)

/-- Every byte counted as accepted was handed over. -/
def Handed (stream : SyncStream) (boost : BoostEndian) (data : Nat → Byte) (len : BitVec 32)
    (count : Nat) : Prop :=
  ∀ bytes ∈ stream.handed boost data len, count ≤ bytes.length

instance (stream : SyncStream) (boost : BoostEndian) (data : Nat → Byte) (len : BitVec 32)
    (count : Nat) : Decidable (stream.Handed boost data len count) := by
  unfold Handed
  infer_instance

/-- The WebSocket stream returns the size of the frame for any count. -/
theorem websocketStreamWrite_eq (boost : BoostEndian) (data : Nat → Byte) {len : BitVec 32}
    (small : len.toNat < 2 ^ 32 - 10) (count : Nat) (wire : List Byte) :
    ∃ n wire', websocketStreamWrite boost data len (.accepted count) wire = some (.ok n, wire') ∧
      n.toNat = len.toNat + headerLength len.toNat := by
  let msg : Message := ⟨.binaryFrame, data, len⟩
  have fits : msg.frameLength < 2 ^ 32 := (frameLength_lt_iff msg).mpr small
  have converted : convertToWebsocketForm boost .binaryFrame data len = _ :=
    msg.convert_eq boost fits
  refine ⟨msg.header.binaryPackSize + len, wire ++ msg.frame.encode.take count, ?_, ?_⟩
  · simp only [websocketStreamWrite, converted, tcpStreamWrite, tcpWrite]
    rfl
  · rw [BitVec.toNat_add, Nat.add_comm len.toNat, ← frameLength_eq msg]
    exact Nat.mod_eq_of_lt fits

/-- The result is the count of accepted bytes exactly for these calls. -/
theorem write_tells_iff (stream : SyncStream) (boost : BoostEndian) (lastError : Int)
    (data : Nat → Byte) (len : BitVec 32) (count : Nat) (wire : List Byte)
    (within : stream.Handed boost data len count) :
    (∃ n wire', stream.write boost true lastError data len (.accepted count) wire =
      some (.ok n, wire') ∧ n.toNat = count) ↔ stream.Tells len count := by
  have direct (stored : count ≤ (slice data 0 len.toNat).length) :
      (BitVec.ofNat 32 ((slice data 0 len.toNat).take count).length).toNat = count :=
    ofNat_toNat_of_le stored (by rw [slice_length]; exact len.isLt)
  cases stream with
  | tcpStream =>
      exact ⟨fun _ => trivial, fun _ => ⟨_, _, rfl, direct (within _ rfl)⟩⟩
  | win32NamedPipe =>
      have narrow : ((BitVec.ofNat 32 ((slice data 0 len.toNat).take count).length).setWidth 8
          |>.setWidth 32).toNat = count % 256 := by
        rw [BitVec.toNat_setWidth_of_le (by decide), BitVec.toNat_setWidth]
        exact congrArg (· % 256) (direct (within _ rfl))
      change _ ↔ count < 256
      constructor
      · rintro ⟨n, wire', returned, equal⟩
        cases returned
        rw [narrow] at equal
        omega
      · intro fits
        exact ⟨_, _, rfl, narrow.trans (Nat.mod_eq_of_lt fits)⟩
  | xwebsocketStream =>
      change (∃ n wire', websocketStreamWrite boost data len (.accepted count) wire = _ ∧ _) ↔
        len.toNat < 2 ^ 32 - 10 ∧ count = _
      constructor
      · rintro ⟨n, wire', returned, equal⟩
        have small : len.toNat < 2 ^ 32 - 10 := by
          by_contra large
          let msg : Message := ⟨.binaryFrame, data, len⟩
          have overrun : convertToWebsocketForm boost .binaryFrame data len = none :=
            msg.convert_eq_none boost (Nat.not_lt.mp (mt (frameLength_lt_iff msg).mp large))
          simp only [websocketStreamWrite, overrun] at returned
          cases returned
        obtain ⟨n', wire'', returned', whole⟩ := websocketStreamWrite_eq boost data small count wire
        cases returned.symm.trans returned'
        exact ⟨small, equal.symm.trans whole⟩
      · rintro ⟨small, rfl⟩
        exact websocketStreamWrite_eq boost data small _ wire

theorem write_tells_iff_two :
    ∃ n wire', tcpStream.write .reversing true 0 (fun _ => 0x61) 3 (.accepted 2) [] =
      some (.ok n, wire') ∧ n.toNat = 2 :=
  (write_tells_iff tcpStream .reversing 0 (fun _ => 0x61) 3 2 [] (by decide)).mpr trivial

/-- One byte of a frame of three is accepted, and three are reported. -/
theorem short_write_not_told : ¬ ∀ (stream : SyncStream) boost lastError data (len : BitVec 32)
    count wire, 0 < count → stream.Handed boost data len count →
    ∃ n wire', stream.write boost true lastError data len (.accepted count) wire =
      some (.ok n, wire') ∧ n.toNat = count := by
  intro all
  obtain ⟨n, wire', returned, equal⟩ :=
    all xwebsocketStream .reversing 0 (fun _ => 0x61) 1 1 [] (by decide) (by decide)
  cases returned
  exact absurd equal (by decide)

end SyncStream
end Vee
