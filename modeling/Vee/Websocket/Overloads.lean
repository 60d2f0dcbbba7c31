import Vee.Delegate.Basic
import Vee.Stream.Write

/-!
# The overloads of `write` and `async_write`

`websocket_stream` offers `async_write` with a callback, a delegate or a shared
pointer to a delegate, each of the last two as an lvalue or an rvalue, and all of
them end in the one with a callback. On the way the overloads with a pointer
replace the opcode. What a call hands to the TCP stream, and what is called when
an asynchronous write completes, is all that a caller can see of it. Behind a call
whose frame overruns its vector nothing is defined.
-/

namespace Vee

open Endian Memory XwebsocketStream

variable {F : Type}

/-- `async_write_callback`: a function of the caller, or the function `caller` of
the overloads with a pointer, which has captured `e_ptr`. -/
inductive AsyncWriteCallback (F : Type) where
  | function (e : F)
  | caller (ePtr : Delegate F)

/-- The functions called when the write completes with `args`. -/
def AsyncWriteCallback.complete {A : Type} (args : A) : AsyncWriteCallback F → List (F × A)
  | function e => [(e, args)]
  | caller ePtr => ePtr.call args

/-- A call of `write` or `async_write` of the TCP stream: the bytes handed over,
and the callback of an asynchronous one. -/
structure TcpCall (F : Type) where
  bytes : List Byte
  callback : Option (AsyncWriteCallback F)

/-- `write(opcode, data, len)` -/
def writeCall (boost : BoostEndian) (opcode : OpcodeId) (data : Nat → Byte) (len : BitVec 32) :
    Option (TcpCall F) :=
  match convertToWebsocketForm boost opcode data len with
  | none => none
  | some (_, wsPacket) => some { bytes := wsPacket, callback := none }

/-- `async_write(opcode, data, len, async_write_callback e)` -/
def asyncWriteCallback (boost : BoostEndian) (opcode : OpcodeId) (data : Nat → Byte)
    (len : BitVec 32) (e : AsyncWriteCallback F) : Option (TcpCall F) :=
  match convertToWebsocketForm boost opcode data len with
  | none => none
  | some (result, packet) =>
      some { bytes := packet.take (result.headerSize + len).toNat, callback := some e }

/-- `async_write` with an `async_write_delegate_ptr`; the overloads for an lvalue
and for an rvalue have the same body. -/
def asyncWriteDelegatePtr (boost : BoostEndian) (_opcode : OpcodeId) (data : Nat → Byte)
    (len : BitVec 32) (ePtr : Delegate F) : Option (TcpCall F) :=
  asyncWriteCallback boost .binaryFrame data len (.caller ePtr)

/-- `async_write` with an `async_write_delegate`, from which a shared one is made. -/
def asyncWriteDelegate (boost : BoostEndian) (opcode : OpcodeId) (data : Nat → Byte)
    (len : BitVec 32) (e : Delegate F) (category : ValueCategory) : Option (TcpCall F) :=
  asyncWriteDelegatePtr boost opcode data len (e.construct category).1

/-- The overload that a call selects. -/
inductive Overload (F : Type) where
  | write
  | asyncCallback (e : F)
  | asyncDelegate (e : Delegate F) (category : ValueCategory)
  | asyncDelegatePtr (ePtr : Delegate F) (category : ValueCategory)

/-- One call of an overload. -/
structure WriteCall (F : Type) extends Message where
  overload : Overload F

namespace WriteCall

def tcpCall (boost : BoostEndian) (call : WriteCall F) : Option (TcpCall F) :=
  match call.overload with
  | .write => writeCall boost call.opcode call.data call.len
  | .asyncCallback e =>
      asyncWriteCallback boost call.opcode call.data call.len (.function e)
  | .asyncDelegate e category =>
      asyncWriteDelegate boost call.opcode call.data call.len e category
  | .asyncDelegatePtr ePtr _ =>
      asyncWriteDelegatePtr boost call.opcode call.data call.len ePtr

/-- The bytes that a sequence of calls hands to the TCP stream. -/
def handed (boost : BoostEndian) : List (WriteCall F) → Option (List Byte)
  | [] => some []
  | call :: calls =>
      match call.tcpCall boost, handed boost calls with
      | some tcp, some bytes => some (tcp.bytes ++ bytes)
      | _, _ => none

/-- They are the frames of the calls, each with the call's own opcode. -/
def SendsOpcodes (boost : BoostEndian) (calls : List (WriteCall F)) : Prop :=
  ∃ packets : List (List Byte),
    packets.map some = calls.map (fun call =>
      (convertToWebsocketForm boost call.opcode call.data call.len).map Prod.snd) ∧
    handed boost calls = some packets.flatten

/-- The call goes through an overload with a delegate or a pointer to one. -/
def ByDelegate (call : WriteCall F) : Prop :=
  match call.overload with
  | .write => False
  | .asyncCallback _ => False
  | .asyncDelegate _ _ => True
  | .asyncDelegatePtr _ _ => True

/-- The opcode is written as the one of a binary frame. -/
def LooksBinary (call : WriteCall F) : Prop := call.opcode.code = OpcodeId.binaryFrame.code

/-- There is a vector for the frame. -/
def Fits (call : WriteCall F) : Prop := call.len.toNat < 2 ^ 32 - 10

end WriteCall

namespace Message

/-- The same payload as a binary frame. -/
def asBinary (msg : Message) : Message := { msg with opcode := .binaryFrame }

/-- `async_write` hands over the whole packet. -/
theorem encode_take (msg : Message) (small : msg.frameLength < 2 ^ 32) :
    msg.frame.encode.take (msg.header.binaryPackSize + msg.len).toNat = msg.frame.encode := by
  have whole : (msg.header.binaryPackSize + msg.len).toNat = msg.frame.encode.length := by
    rw [frame_length, BitVec.toNat_add]
    exact Nat.mod_eq_of_lt small
  rw [whole, List.take_length]

theorem writeCall_eq (boost : BoostEndian) (msg : Message) (small : msg.frameLength < 2 ^ 32) :
    writeCall boost msg.opcode msg.data msg.len =
      some ({ bytes := msg.frame.encode, callback := none } : TcpCall F) := by
  simp only [writeCall, msg.convert_eq boost small]

theorem asyncWriteCallback_eq (boost : BoostEndian) (msg : Message)
    (small : msg.frameLength < 2 ^ 32) (e : AsyncWriteCallback F) :
    asyncWriteCallback boost msg.opcode msg.data msg.len e =
      some { bytes := msg.frame.encode, callback := some e } := by
  simp only [asyncWriteCallback, msg.convert_eq boost small, msg.encode_take small]

theorem asyncWriteCallback_eq_none (boost : BoostEndian) (msg : Message)
    (large : 2 ^ 32 ≤ msg.frameLength) (e : AsyncWriteCallback F) :
    asyncWriteCallback boost msg.opcode msg.data msg.len e = none := by
  simp only [asyncWriteCallback, msg.convert_eq_none boost large]

/-- A frame is its first byte and what does not depend on the opcode. -/
theorem exists_encode (msg : Message) :
    ∃ rest, msg.frame.encode = msg.frame.header.firstByte :: rest ∧
      msg.asBinary.frame.encode = msg.asBinary.frame.header.firstByte :: rest := by
  refine ⟨msg.frame.header.secondByte ::
    ((msg.frame.header.length.extended ++ msg.frame.header.keyBytes) ++ msg.payload), ?_, ?_⟩
  · rw [frame_encode]
    rfl
  · rw [frame_encode]
    rfl

theorem firstByte_eq_iff (msg : Message) :
    msg.asBinary.frame.header.firstByte = msg.frame.header.firstByte ↔
      msg.opcode.code = OpcodeId.binaryFrame.code := by
  have checked : ∀ code : BitVec 4,
      BitVec.ofBool true ++ (0 : BitVec 3) ++ OpcodeId.binaryFrame.code =
        BitVec.ofBool true ++ (0 : BitVec 3) ++ code ↔ code = OpcodeId.binaryFrame.code := by
    decide
  exact checked msg.opcode.code

/-- The frame of a binary message is the message's own exactly if it looks so. -/
theorem asBinary_encode_eq_iff (msg : Message) :
    msg.asBinary.frame.encode = msg.frame.encode ↔
      msg.opcode.code = OpcodeId.binaryFrame.code := by
  obtain ⟨rest, own, binary⟩ := msg.exists_encode
  rw [own, binary, List.cons_eq_cons, and_iff_left rfl, firstByte_eq_iff]

theorem asBinary_encode_length (msg : Message) :
    msg.asBinary.frame.encode.length = msg.frame.encode.length := by
  obtain ⟨rest, own, binary⟩ := msg.exists_encode
  rw [own, binary, List.length_cons, List.length_cons]

end Message

namespace WriteCall

variable {boost : BoostEndian} {call : WriteCall F}

theorem frameLength_lt (fits : call.Fits) : call.frameLength < 2 ^ 32 :=
  (SyncStream.frameLength_lt_iff call.toMessage).mpr fits

/-- The frame that a call makes: a binary one if it goes through a delegate. -/
def sent (call : WriteCall F) : List Byte :=
  match call.overload with
  | .write | .asyncCallback _ => call.frame.encode
  | .asyncDelegate _ _ | .asyncDelegatePtr _ _ => call.asBinary.frame.encode

/-- The functions that the caller passed, as they are to be called at the end. -/
def completes {A : Type} (call : WriteCall F) (args : A) : Option (List (F × A)) :=
  match call.overload with
  | .write => none
  | .asyncCallback e => some [(e, args)]
  | .asyncDelegate e _ => some (e.call args)
  | .asyncDelegatePtr ePtr _ => some (ePtr.call args)

/-- A call whose frame fits hands it over, with the functions that the caller passed. -/
theorem tcpCall_eq (boost : BoostEndian) (fits : call.Fits) :
    ∃ tcp, call.tcpCall boost = some tcp ∧ tcp.bytes = call.sent ∧
      ∀ {A : Type} (args : A), tcp.callback.map (·.complete args) = call.completes args := by
  have small := frameLength_lt fits
  obtain ⟨msg, overload⟩ := call
  cases overload with
  | write => exact ⟨_, msg.writeCall_eq boost small, rfl, fun _ => rfl⟩
  | asyncCallback e => exact ⟨_, msg.asyncWriteCallback_eq boost small _, rfl, fun _ => rfl⟩
  | asyncDelegate e category =>
      refine ⟨_, msg.asBinary.asyncWriteCallback_eq boost small _, rfl, fun args => ?_⟩
      change some ((e.construct category).1.call args) = some (e.call args)
      rw [Delegate.construct_fst]
  | asyncDelegatePtr ePtr category =>
      exact ⟨_, msg.asBinary.asyncWriteCallback_eq boost small _, rfl, fun _ => rfl⟩

/-- Another call overruns its vector, whatever the overload. -/
theorem tcpCall_eq_none (boost : BoostEndian) (large : ¬ call.Fits) :
    call.tcpCall boost = none := by
  have overrun : 2 ^ 32 ≤ call.frameLength :=
    Nat.not_lt.mp (mt (SyncStream.frameLength_lt_iff call.toMessage).mp large)
  obtain ⟨msg, overload⟩ := call
  cases overload with
  | write =>
      change writeCall boost msg.opcode msg.data msg.len = none
      simp only [writeCall, msg.convert_eq_none boost overrun]
  | asyncCallback e => exact msg.asyncWriteCallback_eq_none boost overrun _
  | asyncDelegate e category => exact msg.asBinary.asyncWriteCallback_eq_none boost overrun _
  | asyncDelegatePtr ePtr category =>
      exact msg.asBinary.asyncWriteCallback_eq_none boost overrun _

/-- What the calls hand over, call by call. -/
theorem handed_eq_some_iff (boost : BoostEndian) (calls : List (WriteCall F)) (bytes : List Byte) :
    handed boost calls = some bytes ↔
      (∀ call ∈ calls, call.Fits) ∧ bytes = (calls.map sent).flatten := by
  induction calls generalizing bytes with
  | nil =>
      simp only [handed]
      constructor
      · intro same
        cases same
        exact ⟨fun _ member => absurd member List.not_mem_nil, rfl⟩
      · rintro ⟨_, rfl⟩
        rfl
  | cons call calls ih =>
      rw [List.forall_mem_cons, List.map_cons, List.flatten_cons]
      by_cases fits : call.Fits
      · obtain ⟨tcp, called, sends, _⟩ := tcpCall_eq boost fits
        simp only [handed, called]
        constructor
        · intro same
          cases later : handed boost calls with
          | none =>
              rw [later] at same
              cases same
          | some rest =>
              rw [later] at same
              cases same
              obtain ⟨fit, rfl⟩ := (ih rest).mp later
              exact ⟨⟨fits, fit⟩, by rw [sends]⟩
        · rintro ⟨⟨_, fit⟩, rfl⟩
          rw [(ih _).mpr ⟨fit, rfl⟩, ← sends]
      · simp only [handed, tcpCall_eq_none boost fits]
        constructor
        · intro same
          cases same
        · rintro ⟨⟨fits', _⟩, _⟩
          exact absurd fits' fits

theorem sent_length (call : WriteCall F) : call.sent.length = call.frame.encode.length := by
  obtain ⟨msg, overload⟩ := call
  cases overload with
  | write | asyncCallback => rfl
  | asyncDelegate | asyncDelegatePtr => exact msg.asBinary_encode_length

theorem sent_eq_iff (call : WriteCall F) :
    call.sent = call.frame.encode ↔ (call.ByDelegate → call.LooksBinary) := by
  obtain ⟨msg, overload⟩ := call
  cases overload with
  | write | asyncCallback => exact ⟨fun _ other => other.elim, fun _ => rfl⟩
  | asyncDelegate | asyncDelegatePtr =>
      exact msg.asBinary_encode_eq_iff.trans ⟨fun looks _ => looks, fun looks => looks trivial⟩

end WriteCall

/-- The frames handed to the TCP stream are those of the callers' opcodes exactly
if all frames fit and every call by a delegate has an opcode that is written as a
binary one. -/
theorem overloads_send_opcode_iff (boost : BoostEndian) (calls : List (WriteCall F)) :
    WriteCall.SendsOpcodes boost calls ↔
      ∀ call ∈ calls, call.Fits ∧ (call.ByDelegate → call.LooksBinary) := by
  have frames (fit : ∀ call ∈ calls, call.Fits) :
      (calls.map fun call => call.frame.encode).map some =
        calls.map fun call =>
          (convertToWebsocketForm boost call.opcode call.data call.len).map Prod.snd := by
    rw [List.map_map]
    apply List.map_congr_left
    intro call member
    rw [call.convert_eq boost (WriteCall.frameLength_lt (fit call member))]
    rfl
  have own : calls.map WriteCall.sent = calls.map (fun call => call.frame.encode) ↔
      (calls.map WriteCall.sent).flatten = (calls.map fun call => call.frame.encode).flatten := by
    rw [List.eq_iff_flatten_eq, List.map_map, List.map_map]
    exact ⟨fun same => same.1, fun same =>
      ⟨same, List.map_congr_left fun call _ => call.sent_length⟩⟩
  constructor
  · rintro ⟨packets, converted, handed⟩
    obtain ⟨fit, same⟩ := (WriteCall.handed_eq_some_iff boost calls _).mp handed
    have encoded := List.map_injective_iff.mpr (Option.some_injective _)
      (converted.trans (frames fit).symm)
    rw [encoded] at same
    have each := List.map_inj_left.mp (own.mpr same.symm)
    exact fun call member => ⟨fit call member, (call.sent_eq_iff).mp (each call member)⟩
  · intro careful
    have fit : ∀ call ∈ calls, call.Fits := fun call member => (careful call member).1
    refine ⟨_, frames fit, (WriteCall.handed_eq_some_iff boost calls _).mpr ⟨fit, ?_⟩⟩
    refine (own.mp (List.map_congr_left fun call member => ?_)).symm
    exact (call.sent_eq_iff).mpr (careful call member).2

/-- A text frame written with a delegate goes out as a binary frame. -/
theorem text_by_delegate_sent_as_binary :
    ¬ ∀ boost (calls : List (WriteCall Nat)),
      (∀ call ∈ calls, call.Fits) → WriteCall.SendsOpcodes boost calls := by
  intro sent
  let call : WriteCall Nat :=
    { opcode := .textFrame, data := fun _ => 0x61, len := 1, overload := .asyncDelegate {} .lvalue }
  have fits : ∀ other ∈ [call], other.Fits := by
    intro other member
    cases List.mem_singleton.mp member
    simp [WriteCall.Fits, call]
  obtain ⟨packets, converted, handed⟩ := sent .reversing [call] fits
  have own : packets = [[0x81, 1, 0x61]] := by
    apply List.map_injective_iff.mpr (Option.some_injective (List Byte))
    rw [converted]
    decide
  rw [own] at handed
  exact absurd handed (by decide)

end Vee
