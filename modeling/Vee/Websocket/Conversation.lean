import Vee.Stream.Write
import Vee.Transition.Basic
import Vee.Websocket.Transcript

/-!
# One direction of a connection

One end calls `write` and `disconnect`, the other one reads, and the calls come in
any order. Every `write_some` and every `read_some` moves one whole frame, without
which messages are lost. The connection may break at any time: what is under way is
lost then, what is written later is lost or refused, and the reads fail.

Up to failed reads at the end, the reader is told a part from the front of what was
written; and while the connection has not broken it can be told all of it before
its first read fails. A `disconnect` whose close frame the transport refuses leaves
the socket open.
-/

namespace Vee

open Endian Memory Transition XwebsocketStream

/-- The writing end, the frames under way, the buffer of the reading end, and what
has been written and told. -/
structure Conversation where
  isOpen : Bool := true
  broken : Bool := false
  wire : List (List Byte) := []
  buffer : Memory Byte
  sent : List Message := []
  told : List Told := []

inductive ConversationAction where
  | write (msg : Message) (written : WriteSome)
  | disconnect (written : WriteSome)
  | lose
  | read (variant : ReadVariant) (fuel : Nat)

/-- What `disconnect` writes. -/
def closing : Message where
  opcode := .connnectionClose
  data := fun _ => 0
  len := 128

/-- What a read tells when the transport fails. -/
def Told.failure : Told := .thrown ⟨"Recv failure!", ErrorCode.streamReadFailure.toInt⟩

namespace Conversation

variable (boost : BoostEndian) (bufCapacity : BitVec 32)

/-- A segment has been written; a broken connection takes it nowhere. -/
def carry (msg : Message) (segment : List Byte) (s : Conversation) : Conversation :=
  { s with
    wire := if s.broken then s.wire else s.wire ++ [segment]
    sent := s.sent ++ [msg] }

/-- `write(opcode, data, len)` -/
def write (msg : Message) (written : WriteSome) (s : Conversation) :
    Option (Except Exception Conversation) :=
  match msg.packet boost with
  | none => none
  | some packet =>
      match SyncStream.tcpStreamWrite packet written [] with
      | (.error e, _) => some (.error e)
      | (.ok _, segment) => some (.ok (s.carry msg segment))

/-- `disconnect()`; the socket is closed when `write` has not thrown. -/
def disconnect (written : WriteSome) (s : Conversation) : Option Conversation :=
  (s.write boost closing written).map fun
    | .error _ => s
    | .ok s => { s with isOpen := false }

/-- What successive calls of `read_some` report. -/
def reports (s : Conversation) : List ReadSome :=
  s.wire.map .received ++ if s.isOpen && ! s.broken then [] else [.failed]

/-- A closed socket takes nothing. Behind a write that overruns its vector there is
no state. -/
def step (s : Conversation) : ConversationAction → Option Conversation
  | .write msg written =>
      if s.isOpen || written == .failed then
        match s.write boost msg written with
        | none => none
        | some (.error _) => some s
        | some (.ok s) => some s
      else none
  | .disconnect written =>
      if s.isOpen || written == .failed then s.disconnect boost written else none
  | .lose => some { s with broken := true, wire := [] }
  | .read variant fuel =>
      match variant.read boost fuel bufCapacity s.reports s.buffer with
      | none => none
      | some (outcome, buffer, reports) => some { s with
          buffer
          wire := s.wire.drop (s.reports.length - reports.length)
          told := s.told ++ [variant.told buffer outcome] }

/-- The frame fits the reader's buffer, and is taken whole when it is taken. -/
def Whole (msg : Message) : WriteSome → Prop
  | .failed => True
  | .accepted count =>
      msg.frameLength ≤ bufCapacity.toNat ∧ msg.frameLength ≤ count

instance (msg : Message) (written : WriteSome) :
    Decidable (Whole bufCapacity msg written) :=
  match written with
  | .failed => inferInstanceAs (Decidable True)
  | .accepted _ => inferInstanceAs (Decidable (_ ∧ _))

def FrameWise (_ : Conversation) : ConversationAction → Prop
  | .write msg written => Whole bufCapacity msg written
  | .disconnect written => Whole bufCapacity closing written
  | _ => True

instance (s : Conversation) (a : ConversationAction) :
    Decidable (FrameWise bufCapacity s a) :=
  match a with
  | .write msg written => inferInstanceAs (Decidable (Whole bufCapacity msg written))
  | .disconnect written => inferInstanceAs (Decidable (Whole bufCapacity closing written))
  | .lose => inferInstanceAs (Decidable True)
  | .read _ _ => inferInstanceAs (Decidable True)

def OnlyReads (_ : Conversation) : ConversationAction → Prop
  | .read _ _ => True
  | _ => False

/-- What has been written, as the reader is to be told it. -/
def script (s : Conversation) : List Told := transcript (s.sent.map Message.frame)

/-- The messages that were told, those under way, and those that were lost; the
reads that failed. -/
structure InStep (s : Conversation) (got pending lost : List Message) (failures : Nat) :
    Prop where
  sent : s.sent = got ++ (pending ++ lost)
  fits : ∀ msg ∈ s.sent, msg.frameLength ≤ bufCapacity.toNat
  wire : s.wire = pending.map fun msg => msg.frame.encode
  told : s.told = transcript (got.map Message.frame) ++ .replicate failures .failure
  whole : s.broken = false → lost = []
  gone : s.broken = true → pending = []
  failing : 0 < failures → pending = [] ∧ (s.isOpen = false ∨ s.broken = true)

end Conversation

namespace Message

variable {msg : Message}

/-- The reader gets through every frame that `write` makes. -/
theorem frame_readable (msg : Message) : ¬ msg.frame.Endless := by
  rintro ⟨_, negative⟩
  rw [msg.frame_understood] at negative
  cases negative

theorem frames_readable {messages : List Message} :
    ∀ f ∈ messages.map Message.frame, ¬ f.Endless := by
  intro f member
  obtain ⟨msg, _, rfl⟩ := List.mem_map.mp member
  exact msg.frame_readable

theorem frames_fit {messages : List Message} {bufCapacity : BitVec 32}
    (fits : ∀ msg ∈ messages, msg.frameLength ≤ bufCapacity.toNat) :
    ∀ f ∈ messages.map Message.frame, f.encode.length ≤ bufCapacity.toNat := by
  intro f member
  obtain ⟨msg, listed, rfl⟩ := List.mem_map.mp member
  rw [msg.frame_length]
  exact fits msg listed

theorem transcript_frames_append (messages later : List Message) :
    transcript ((messages ++ later).map Message.frame) =
      transcript (messages.map Message.frame) ++ transcript (later.map Message.frame) := by
  rw [List.map_append]
  exact transcript_append frames_readable

end Message

namespace Conversation

variable {boost : BoostEndian} {bufCapacity : BitVec 32} {s t : Conversation}
variable {a : ConversationAction} {got pending lost : List Message} {failures : Nat}

/-- Either the transport refuses, and the write throws unless it has overrun its
vector, or the whole frame is taken. -/
theorem write_cases (boost : BoostEndian) (s : Conversation) (msg : Message) {written : WriteSome}
    (whole : Whole bufCapacity msg written) :
    (written = .failed ∧ (s.write boost msg written = none ∨
      ∃ e, s.write boost msg written = some (.error e))) ∨
    (written ≠ .failed ∧ msg.frameLength ≤ bufCapacity.toNat ∧
      s.write boost msg written = some (.ok (s.carry msg msg.frame.encode))) := by
  cases written with
  | failed =>
      refine .inl ⟨rfl, ?_⟩
      simp only [write]
      cases msg.packet boost with
      | none => exact .inl rfl
      | some packet => exact .inr ⟨_, rfl⟩
  | accepted count =>
      obtain ⟨fits, all⟩ := whole
      have packet := msg.packet_eq boost (Nat.lt_of_le_of_lt fits bufCapacity.isLt)
      rw [← msg.frame_length] at all
      refine .inr ⟨WriteSome.noConfusion, fits, ?_⟩
      simp only [write, packet, SyncStream.tcpStreamWrite, tcpWrite]
      rw [List.nil_append, List.take_of_length_le all]

/-- A write that returns has carried some of the frame. -/
theorem write_ok {msg : Message} {written : WriteSome}
    (wrote : s.write boost msg written = some (.ok t)) : ∃ segment, t = s.carry msg segment := by
  simp only [write] at wrote
  split at wrote
  · cases wrote
  · split at wrote
    · cases wrote
    · cases wrote
      exact ⟨_, rfl⟩

/-- What the transport takes comes from an open socket. -/
theorem isOpen_of_taken {written : WriteSome}
    (possible : (s.isOpen || written == .failed) = true) (taken : written ≠ .failed) :
    s.isOpen = true := by
  obtain isOpen | failed := Bool.or_eq_true _ _ |>.mp possible
  · exact isOpen
  · exact absurd (eq_of_beq failed) taken

/-- A message that is written joins those under way, or those that are lost. -/
theorem InStep.carry (h : s.InStep bufCapacity got pending lost failures)
    (isOpen : s.isOpen = true) (msg : Message) (fits : msg.frameLength ≤ bufCapacity.toNat) :
    ∃ pending' lost', (s.carry msg msg.frame.encode).InStep bufCapacity got pending' lost'
      failures := by
  have fits_all : ∀ other ∈ s.sent ++ [msg], other.frameLength ≤ bufCapacity.toNat := by
    intro other member
    obtain earlier | last := List.mem_append.mp member
    · exact h.fits other earlier
    · rw [List.mem_singleton.mp last]
      exact fits
  by_cases down : s.broken = true
  · have same : s.carry msg msg.frame.encode = { s with sent := s.sent ++ [msg] } := by
      simp only [Conversation.carry, if_pos down]
    rw [same]
    refine ⟨pending, lost ++ [msg], ?_, fits_all, h.wire, h.told, ?_, h.gone, h.failing⟩
    · change s.sent ++ [msg] = _
      rw [h.sent, List.append_assoc, List.append_assoc]
    · exact fun up => absurd (down.symm.trans up) Bool.noConfusion
  · have same : s.carry msg msg.frame.encode =
        { s with wire := s.wire ++ [msg.frame.encode], sent := s.sent ++ [msg] } := by
      simp only [Conversation.carry, if_neg down]
    have none_lost := h.whole (Bool.eq_false_of_not_eq_true down)
    have working : failures = 0 := by
      by_contra failed
      obtain ⟨_, closed | broken⟩ := h.failing (Nat.pos_of_ne_zero failed)
      · cases isOpen.symm.trans closed
      · exact down broken
    rw [same]
    refine ⟨pending ++ [msg], lost, ?_, fits_all, ?_, h.told, fun _ => none_lost,
      fun broken => absurd broken down, fun failed => ?_⟩
    · change s.sent ++ [msg] = _
      rw [h.sent, none_lost, List.append_nil, List.append_nil, List.append_assoc]
    · change s.wire ++ [msg.frame.encode] = _
      rw [h.wire, List.map_append]
      rfl
    · omega

/-- Closing the socket changes nothing else. -/
theorem InStep.close (h : s.InStep bufCapacity got pending lost failures) :
    InStep bufCapacity { s with isOpen := false } got pending lost failures :=
  ⟨h.sent, h.fits, h.wire, h.told, h.whole, h.gone,
    fun failed => ⟨(h.failing failed).1, .inl rfl⟩⟩

/-- When the connection breaks, what is under way is lost. -/
theorem InStep.lose (h : s.InStep bufCapacity got pending lost failures) :
    InStep bufCapacity { s with broken := true, wire := [] } got [] (pending ++ lost)
      failures :=
  ⟨h.sent, h.fits, rfl, h.told, fun up => absurd up Bool.noConfusion, fun _ => rfl,
    fun _ => ⟨rfl, .inr rfl⟩⟩

/-- What successive reads of the transport report. -/
theorem InStep.reports_eq (h : s.InStep bufCapacity got pending lost failures) :
    s.reports = (pending.map Message.frame).map Frame.received ++
      if s.isOpen && ! s.broken then [] else [.failed] := by
  have fits : ∀ msg ∈ pending, msg.frameLength ≤ bufCapacity.toNat := by
    intro msg member
    apply h.fits
    rw [h.sent]
    exact List.mem_append_right _ (List.mem_append_left _ member)
  simp only [reports]
  rw [h.wire, List.map_map, List.map_map]
  rfl

/-- A read that returns has told the next message under way, or has failed behind
the last one. -/
theorem InStep.read (h : s.InStep bufCapacity got pending lost failures)
    {variant : ReadVariant} {fuel : Nat} {outcome : Except Exception IoResult}
    {buffer : Memory Byte} {reports : List ReadSome}
    (returned : variant.read boost fuel bufCapacity s.reports s.buffer =
      some (outcome, buffer, reports)) :
    ∃ got' pending' failures', InStep bufCapacity { s with
        buffer
        wire := s.wire.drop (s.reports.length - reports.length)
        told := s.told ++ [variant.told buffer outcome] } got' pending' lost failures' ∧
      (transcript (pending.map Message.frame) ≠ [] →
        failures' = failures ∧ pending'.length < pending.length) := by
  have fits : ∀ msg ∈ pending, msg.frameLength ≤ bufCapacity.toNat := by
    intro msg member
    apply h.fits
    rw [h.sent]
    exact List.mem_append_right _ (List.mem_append_left _ member)
  have all := h.reports_eq
  have listed := returned
  rw [all] at listed
  obtain ⟨told, later, parts, one, rest⟩ | ⟨nothing, m, behind⟩ :=
    read_returns Message.frames_readable (Message.frames_fit fits) listed
  · obtain ⟨told, later, rfl, rfl, rfl⟩ := List.map_eq_append_iff.mp parts
    have some_told : told ≠ [] := by
      rintro rfl
      cases one
    have working : failures = 0 := by
      by_contra failed
      have nothing := (h.failing (Nat.pos_of_ne_zero failed)).1
      exact some_told (List.append_eq_nil_iff.mp nothing).1
    have taken : s.reports.length - reports.length = told.length := by
      rw [all, rest]
      simp only [List.length_append, List.length_map]
      omega
    rw [taken]
    refine ⟨got ++ told, later, 0, ⟨?_, h.fits, ?_, ?_, h.whole, fun broken => ?_,
      fun failed => absurd failed (Nat.lt_irrefl 0)⟩, fun _ => ⟨working.symm, ?_⟩⟩
    · change s.sent = _
      rw [h.sent, List.append_assoc, List.append_assoc]
    · change s.wire.drop told.length = _
      rw [h.wire, List.map_append, List.drop_left' (List.length_map _)]
    · change s.told ++ _ = _
      rw [h.told, working, Message.transcript_frames_append, one]
      simp only [List.replicate_zero, List.append_nil]
    · exact (List.append_eq_nil_iff.mp (h.gone broken)).2
    · rw [List.length_append]
      exact Nat.lt_add_of_pos_left (List.length_pos_iff.mpr some_told)
  · by_cases working : (s.isOpen && ! s.broken) = true
    · rw [if_pos working] at behind
      rw [read_eq_none rfl] at behind
      cases behind
    · rw [if_neg working] at behind all
      obtain ⟨m', failed⟩ := read_failed variant [] m
      rw [behind] at failed
      cases failed
      have ended : s.isOpen = false ∨ s.broken = true := by
        revert working
        cases s.isOpen <;> cases s.broken <;> decide
      have taken : s.reports.length - ([] : List ReadSome).length = s.wire.length + 1 := by
        rw [all, h.wire]
        simp only [List.length_append, List.length_map, List.length_cons, List.length_nil]
        omega
      rw [taken]
      refine ⟨got ++ pending, [], failures + 1, ⟨?_, h.fits, ?_, ?_, h.whole, fun _ => rfl,
        fun _ => ⟨rfl, ended⟩⟩, fun something => absurd nothing something⟩
      · change s.sent = _
        rw [h.sent, List.append_assoc, List.nil_append]
      · exact List.drop_of_length_le (Nat.le_succ _)
      · change s.told ++ _ = _
        rw [h.told, Message.transcript_frames_append, nothing, List.append_nil,
          List.replicate_succ', List.append_assoc]
        rfl

/-- Every step keeps what was told, what is under way and what was lost apart. -/
theorem InStep.step (h : s.InStep bufCapacity got pending lost failures)
    (frameWise : s.FrameWise bufCapacity a) (moved : s.step boost bufCapacity a = some t) :
    ∃ got' pending' lost' failures',
      t.InStep bufCapacity got' pending' lost' failures' := by
  cases a with
  | write msg written =>
      simp only [Conversation.step] at moved
      split at moved
      · rename_i possible
        obtain ⟨rfl, overrun | ⟨e, thrown⟩⟩ | ⟨taken, fits, wrote⟩ :=
          write_cases boost s msg frameWise
        · rw [overrun] at moved
          cases moved
        · rw [thrown] at moved
          cases moved
          exact ⟨got, pending, lost, failures, h⟩
        · rw [wrote] at moved
          cases moved
          obtain ⟨pending', lost', h'⟩ := h.carry (isOpen_of_taken possible taken) msg fits
          exact ⟨got, pending', lost', failures, h'⟩
      · cases moved
  | disconnect written =>
      simp only [Conversation.step] at moved
      split at moved
      · rename_i possible
        simp only [disconnect] at moved
        obtain ⟨rfl, overrun | ⟨e, thrown⟩⟩ | ⟨taken, fits, wrote⟩ :=
          write_cases boost s closing frameWise
        · rw [overrun] at moved
          cases moved
        · rw [thrown] at moved
          cases moved
          exact ⟨got, pending, lost, failures, h⟩
        · rw [wrote] at moved
          cases moved
          obtain ⟨pending', lost', h'⟩ := h.carry (isOpen_of_taken possible taken) closing fits
          exact ⟨got, pending', lost', failures, h'.close⟩
      · cases moved
  | lose =>
      cases moved
      exact ⟨got, [], pending ++ lost, failures, h.lose⟩
  | read variant fuel =>
      simp only [Conversation.step] at moved
      split at moved
      · cases moved
      · rename_i outcome buffer reports returned
        cases moved
        obtain ⟨got', pending', failures', h', _⟩ := h.read returned
        exact ⟨got', pending', lost, failures', h'⟩

/-- In every run the messages stay apart so. -/
theorem inStep_of_run {m : Memory Byte} {actions : List ConversationAction}
    (run : Run (step boost bufCapacity) (FrameWise bufCapacity) { buffer := m } actions t) :
    ∃ got pending lost failures, t.InStep bufCapacity got pending lost failures := by
  refine run.invariant (I := fun s => ∃ got pending lost failures,
    InStep bufCapacity s got pending lost failures) ?_ ?_
  · exact ⟨[], [], [], 0, rfl, fun _ member => absurd member List.not_mem_nil, rfl, rfl,
      fun _ => rfl, fun _ => rfl, fun failed => absurd failed (Nat.lt_irrefl 0)⟩
  · rintro s a t ⟨got, pending, lost, failures, h⟩ frameWise moved
    exact h.step frameWise moved

/-- A read returns as long as something is under way to tell. -/
theorem InStep.progress (boost : BoostEndian) (h : s.InStep bufCapacity got pending lost failures)
    (something : transcript (pending.map Message.frame) ≠ []) :
    ∃ a t got' pending', OnlyReads s a ∧ s.step boost bufCapacity a = some t ∧
      t.sent = s.sent ∧ t.InStep bufCapacity got' pending' lost failures ∧
      pending'.length < pending.length := by
  have fits : ∀ msg ∈ pending, msg.frameLength ≤ bufCapacity.toNat := by
    intro msg member
    apply h.fits
    rw [h.sent]
    exact List.mem_append_right _ (List.mem_append_left _ member)
  -- a payload that fits the buffer has fewer than `2 ^ 32` bytes
  have enough : ∀ f ∈ pending.map Message.frame, f.payload.length ≤ 2 ^ 32 := by
    intro f member
    have fits_f := Message.frames_fit fits f member
    have bound := bufCapacity.isLt
    rw [f.encode_length] at fits_f
    omega
  have returns : (ReadVariant.payloadOnly.read boost (2 ^ 32) bufCapacity s.reports
      s.buffer).isSome := by
    rw [h.reports_eq]
    exact read_isSome .payloadOnly _ s.buffer Message.frames_readable (Message.frames_fit fits)
      enough something
  obtain ⟨⟨outcome, buffer, reports⟩, returned⟩ := Option.isSome_iff_exists.mp returns
  obtain ⟨got', pending', failures', h', closer⟩ := h.read returned
  obtain ⟨rfl, fewer⟩ := closer something
  refine ⟨.read .payloadOnly (2 ^ 32), _, got', pending', trivial, ?_, ?_, h', fewer⟩
  · simp only [Conversation.step, returned]
  · rfl

/-- All that has been written can be told before a read fails. -/
theorem InStep.can_tell (boost : BoostEndian)
    (h : s.InStep bufCapacity got pending [] failures) :
    CanReach (Conversation.step boost bufCapacity) OnlyReads
      (fun u => u.sent = s.sent ∧ u.told = s.script ++ .replicate failures .failure) s := by
  refine CanReach.of_rank (I := fun n u => ∃ got' pending',
    u.InStep bufCapacity got' pending' [] failures ∧ u.sent = s.sent ∧
      pending'.length = n) ?_ ⟨got, pending, h, rfl, rfl⟩
  rintro n u ⟨got', pending', h', sent, rfl⟩ unfinished
  have something : transcript (pending'.map Message.frame) ≠ [] := by
    intro nothing
    apply unfinished
    refine ⟨sent, ?_⟩
    rw [h'.told, script, ← sent, h'.sent, List.append_nil, Message.transcript_frames_append,
      nothing, List.append_nil]
  obtain ⟨a, t, got'', pending'', reads, moved, same, h'', fewer⟩ := h'.progress boost something
  exact ⟨a, t, _, reads, moved, ⟨got'', pending'', h'', same.trans sent, rfl⟩, fewer⟩

/-- Up to reads that failed at the end, the reader has been told what was written,
from the front, once and in order; and while the connection has not broken, nothing
that was written is missing when a read fails, or it can still be told. -/
theorem conversation_told_in_order {m : Memory Byte} {actions : List ConversationAction}
    (run : Run (step boost bufCapacity) (FrameWise bufCapacity) { buffer := m } actions t) :
    ∃ messages failures, t.told = messages ++ .replicate failures .failure ∧
      messages <+: t.script ∧
      (t.broken = false → (0 < failures → t.isOpen = false ∧ messages = t.script) ∧
        CanReach (step boost bufCapacity) OnlyReads
          (fun u => u.sent = t.sent ∧ u.told = t.script ++ .replicate failures .failure) t) := by
  obtain ⟨got, pending, lost, failures, h⟩ := inStep_of_run run
  have whole : t.script = transcript (got.map Message.frame) ++
      transcript ((pending ++ lost).map Message.frame) := by
    rw [script, h.sent, Message.transcript_frames_append]
  refine ⟨_, failures, h.told, ⟨_, whole.symm⟩, fun up => ⟨fun failed => ?_, ?_⟩⟩
  · obtain ⟨rfl, closed | broken⟩ := h.failing failed
    · refine ⟨closed, ?_⟩
      rw [whole, h.whole up]
      exact (List.append_nil _).symm
    · exact absurd (up.symm.trans broken) Bool.noConfusion
  · obtain rfl := h.whole up
    exact h.can_tell boost

/-- A text, a disconnect, and the reads of both and of the end. -/
theorem conversation_told_in_order_closed : ∃ t : Conversation,
    t.told = [.payload [0xbb, 0xbb], .thrown (controlException 0x8), .failure] ∧
    ∃ messages failures, t.told = messages ++ .replicate failures .failure ∧
      messages <+: t.script ∧
      (t.broken = false → (0 < failures → t.isOpen = false ∧ messages = t.script) ∧
        CanReach (step .reversing 132) OnlyReads
          (fun u => u.sent = t.sent ∧ u.told = t.script ++ .replicate failures .failure) t) := by
  have performed : (exec (step .reversing 132) (FrameWise 132)
      { buffer := ⟨fun _ => 0xff, []⟩ }
      [.write ⟨.textFrame, fun _ => 0xbb, 2⟩ (.accepted 4), .read .all 2,
        .disconnect (.accepted 132), .read .payloadOnly 0, .read .all 0]).map told =
      some [.payload [0xbb, 0xbb], .thrown (controlException 0x8), .failure] := by decide +kernel
  obtain ⟨t, reached, told⟩ := Option.map_eq_some_iff.mp performed
  exact ⟨t, told, conversation_told_in_order (Run.iff_exec.mpr reached)⟩

end Conversation
end Vee
