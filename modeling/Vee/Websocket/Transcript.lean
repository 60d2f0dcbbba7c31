import Mathlib.Data.List.TakeWhile
import Vee.Websocket.Completion

/-!
# A session of reads

The synchronous reads on the frames of any peer, whatever their keys, flags,
opcodes and forms of the length. `transcript` is what the callers of successive
reads are told: the payload of each data frame, an exception for each close, and
nothing for a ping or a pong. It ends at the first data frame with a 16-bit length
that is negative to the reader, behind which no call returns. After a close the
stream goes on reading.
-/

namespace Vee

open Endian Memory XwebsocketStream

/-- What a call of a read tells its caller. -/
inductive Told where
  | payload (bytes : List Byte)
  | thrown (e : Exception)
  deriving DecidableEq, Repr

/-- Where a call leaves the payload in the buffer. -/
def ReadVariant.payloadAt (sizes : IoResult) : ReadVariant → Nat
  | .payloadOnly => 0
  | .all => sizes.headerSize.toNat

/-- What the caller finds after the call. -/
def ReadVariant.told (variant : ReadVariant) (m : Memory Byte) : Except Exception IoResult → Told
  | .error e => .thrown e
  | .ok sizes => .payload (slice m.cell (variant.payloadAt sizes) sizes.payloadSize.toNat)

namespace Frame

/-- A data frame whose length is negative to the reader. -/
def Endless (f : Frame) : Prop := ¬ f.header.Control ∧ f.header.length.negative = true

instance (f : Frame) : Decidable f.Endless := by
  unfold Endless
  infer_instance

/-- What the caller of a read is told of a frame. -/
def told (f : Frame) : Option Told :=
  if f.Heartbeat then none
  else if f.header.opcode = 0x8 then some (.thrown (controlException 0x8))
  else some (.payload f.payload)

end Frame

/-- What successive reads tell of the frames. -/
def transcript (frames : List Frame) : List Told :=
  (frames.takeWhile (! decide ·.Endless)).filterMap Frame.told

/-- Whichever read is called each time, successive calls on one buffer tell this,
and no further call returns. -/
def Tells (boost : BoostEndian) (fuel : Nat) (bufCapacity : BitVec 32) :
    List Told → List ReadSome → Memory Byte → Prop
  | [], reports, m => ∀ (variant : ReadVariant) (fuel : Nat),
      variant.read boost fuel bufCapacity reports m = none
  | told :: later, reports, m => ∀ variant : ReadVariant, ∃ outcome m' reports',
      variant.read boost fuel bufCapacity reports m = some (outcome, m', reports') ∧
      variant.told m' outcome = told ∧ Tells boost fuel bufCapacity later reports' m'

section

variable {f : Frame} {frames : List Frame}

theorem Frame.told_eq_none_iff : f.told = none ↔ f.Heartbeat := by
  constructor
  · intro silent
    by_contra other
    simp only [told] at silent
    rw [if_neg other] at silent
    split at silent <;> cases silent
  · exact fun beats => if_pos beats

theorem Frame.not_endless_of_heartbeat (beats : f.Heartbeat) : ¬ f.Endless :=
  fun endless => endless.1 (.inr beats)

/-- The transcript passes over a ping or a pong. -/
theorem transcript_cons_heartbeat (beats : f.Heartbeat) :
    transcript (f :: frames) = transcript frames := by
  have readable := Frame.not_endless_of_heartbeat beats
  have tells := Frame.told_eq_none_iff.mpr beats
  simp only [transcript, List.takeWhile_cons, decide_eq_false readable, Bool.not_false, if_true,
    List.filterMap_cons, tells]

theorem transcript_cons_told {told : Told} (readable : ¬ f.Endless) (tells : f.told = some told) :
    transcript (f :: frames) = told :: transcript frames := by
  simp only [transcript, List.takeWhile_cons, decide_eq_false readable, Bool.not_false, if_true,
    List.filterMap_cons, tells]

theorem transcript_cons_endless (endless : f.Endless) : transcript (f :: frames) = [] := by
  simp only [transcript, List.takeWhile_cons, decide_eq_true endless, Bool.not_true,
    Bool.false_eq_true, if_false, List.filterMap_nil]

end

section

variable {boost : BoostEndian} {fuel : Nat} {bufCapacity : BitVec 32} {f : Frame}
variable {reports : List ReadSome} {m : Memory Byte} {variant : ReadVariant}

/-- `read_payload_only` does what `read_all` does, and moves the payload. -/
theorem readPayloadOnly_eq (boost : BoostEndian) (fuel : Nat) (bufCapacity : BitVec 32)
    (reports : List ReadSome) (m : Memory Byte) :
    readPayloadOnly boost fuel bufCapacity reports m =
      (readAll boost fuel bufCapacity reports m).map fun (outcome, m', reports') =>
        (outcome, match outcome with
          | .error _ => m'
          | .ok sizes => extractPayload bufCapacity sizes m', reports') := by
  simp only [readPayloadOnly]
  rcases readAll boost fuel bufCapacity reports m with _ | ⟨_ | _, _, _⟩ <;> rfl

/-- Where `read_all` agrees, both reads do. -/
theorem read_congr {reports' : List ReadSome} {m' : Memory Byte}
    (same : readAll boost fuel bufCapacity reports m =
      readAll boost fuel bufCapacity reports' m') :
    variant.read boost fuel bufCapacity reports m =
      variant.read boost fuel bufCapacity reports' m' := by
  cases variant with
  | payloadOnly =>
      change readPayloadOnly _ _ _ _ _ = readPayloadOnly _ _ _ _ _
      rw [readPayloadOnly_eq, readPayloadOnly_eq, same]
  | all => exact same

theorem read_eq_none (waits : readAll boost fuel bufCapacity reports m = none) :
    variant.read boost fuel bufCapacity reports m = none := by
  cases variant with
  | payloadOnly =>
      change readPayloadOnly _ _ _ _ _ = none
      rw [readPayloadOnly_eq, waits]
      rfl
  | all => exact waits

theorem read_thrown {e : Exception} {m' : Memory Byte} {reports' : List ReadSome}
    (thrown : readAll boost fuel bufCapacity reports m = some (.error e, m', reports')) :
    variant.read boost fuel bufCapacity reports m = some (.error e, m', reports') := by
  cases variant with
  | payloadOnly =>
      change readPayloadOnly _ _ _ _ _ = _
      rw [readPayloadOnly_eq, thrown]
      rfl
  | all => exact thrown

/-- Both reads start over after a ping or a pong. -/
theorem read_heartbeat (variant : ReadVariant) (reports : List ReadSome) (m : Memory Byte)
    (beats : f.Heartbeat) :
    ∃ m', variant.read boost fuel bufCapacity (f.received :: reports) m =
      variant.read boost fuel bufCapacity reports m' := by
  obtain ⟨m', again⟩ := readAll_heartbeat boost fuel bufCapacity reports m beats
  exact ⟨m', read_congr again⟩

/-- A transport error ends either read. -/
theorem read_failed (variant : ReadVariant) (reports : List ReadSome) (m : Memory Byte) :
    ∃ m', variant.read boost fuel bufCapacity (.failed :: reports) m =
      some (.error ⟨"Recv failure!", ErrorCode.streamReadFailure.toInt⟩, m', reports) :=
  ⟨_, read_thrown rfl⟩

/-- A negative length keeps the call in the loop, and so does a payload longer than
the fuel. -/
theorem readAll_unfinished (reports : List ReadSome) (m : Memory Byte)
    (data : ¬ f.header.Control) (small : f.encode.length < 2 ^ 32)
    (unfinished : f.header.length.negative = true ∨ fuel < f.payload.length) :
    readAll boost fuel bufCapacity (f.received :: reports) m = none := by
  have total := f.encode_length
  obtain ⟨filled, tcp⟩ : ∃ filled, (m.fill 0 0 bufCapacity.toNat).put 0 f.encode = filled :=
    ⟨_, rfl⟩
  have holds : Stored filled.cell 0 f.encode := by
    rw [← tcp]
    exact stored_put
  rw [Frame.encode, stored_append] at holds
  obtain ⟨e, e', loop⟩ :=
    preprocess_data boost fuel (BitVec.ofNat 32 f.encode.length) holds.1 data
  suffices unmasking : preprocessReceivedData boost fuel (BitVec.ofNat 32 f.encode.length) filled =
      none by
    simp only [Frame.received, readAll, readFrame, tcpRead, tcp, unmasking]
  cases sign : f.header.length.negative with
  | true => rw [loop, unmask_eq_none (LengthField.read_of_negative sign), Option.map_none]
  | false =>
      have payloadLen : (DataFrameHeader.analyzed {} f.header e e').payloadLen.toNat =
          f.payload.length := (LengthField.read_of_not_negative sign).trans f.length_eq
      have short : fuel < f.payload.length := by
        rwa [sign, Bool.false_eq_true, false_or] at unfinished
      rw [loop, unmask_eq (by omega), payloadLen, if_neg (by omega), Option.map_none]

/-- Neither read returns from an endless frame. -/
theorem read_endless (variant : ReadVariant) (reports : List ReadSome) (m : Memory Byte)
    (endless : f.Endless) (small : f.encode.length < 2 ^ 32) :
    variant.read boost fuel bufCapacity (f.received :: reports) m = none :=
  read_eq_none (readAll_unfinished reports m endless.1 small (.inl endless.2))

/-- Any other data frame is told by either read. -/
theorem read_data (variant : ReadVariant) (reports : List ReadSome) (m : Memory Byte)
    (data : ¬ f.header.Control) (readable : ¬ f.Endless)
    (fits : f.encode.length ≤ bufCapacity.toNat) (enough : f.payload.length ≤ fuel) :
    ∃ sizes m', variant.read boost fuel bufCapacity (f.received :: reports) m =
      some (.ok sizes, m', reports) ∧ variant.told m' (.ok sizes) = .payload f.payload := by
  have bound := bufCapacity.isLt
  have understood : f.header.length.negative = false := by
    rw [← Bool.not_eq_true]
    exact fun negative => readable ⟨data, negative⟩
  obtain ⟨header, length⟩ := f.sizes_toNat (by omega)
  cases variant with
  | payloadOnly =>
      obtain ⟨sizes, m', returned, _, size, payload, _⟩ :=
        readPayloadOnly_frame boost bufCapacity f reports m data understood fits enough
      refine ⟨sizes, m', returned, ?_⟩
      simp only [ReadVariant.told, ReadVariant.payloadAt]
      rw [size, payload]
  | all =>
      obtain ⟨m', returned, payload, _⟩ :=
        readAll_frame boost bufCapacity f reports m data understood fits enough
      refine ⟨f.sizes, m', returned, ?_⟩
      simp only [ReadVariant.told, ReadVariant.payloadAt]
      rw [header, length, payload]

/-- What a call makes of a frame that is not a ping or a pong. -/
theorem read_told (variant : ReadVariant) (reports : List ReadSome) (m : Memory Byte)
    {told : Told} (tells : f.told = some told) (readable : ¬ f.Endless)
    (fits : f.encode.length ≤ bufCapacity.toNat)
    (enough : ¬ f.header.Control → f.payload.length ≤ fuel) :
    ∃ outcome m', variant.read boost fuel bufCapacity (f.received :: reports) m =
      some (outcome, m', reports) ∧ variant.told m' outcome = told := by
  simp only [Frame.told] at tells
  split_ifs at tells with beats close
  · obtain rfl := Option.some.inj tells
    obtain ⟨m', thrown⟩ := readAll_close boost fuel bufCapacity reports m close
    exact ⟨_, m', read_thrown thrown, rfl⟩
  · obtain rfl := Option.some.inj tells
    have data : ¬ f.header.Control := by
      rintro (code | code)
      · exact close code
      · exact beats code
    obtain ⟨sizes, m', returned, payload⟩ :=
      read_data variant reports m data readable fits (enough data)
    exact ⟨_, m', returned, payload⟩

end

section

variable {boost : BoostEndian} {fuel : Nat} {bufCapacity : BitVec 32} {frames : List Frame}
variable {reports : List ReadSome} {m : Memory Byte} {variant : ReadVariant}

theorem transcript_append {later : List Frame} (readable : ∀ f ∈ frames, ¬ f.Endless) :
    transcript (frames ++ later) = transcript frames ++ transcript later := by
  have all (f : Frame) (member : f ∈ frames) : (! decide f.Endless) = true := by
    rw [decide_eq_false (readable f member), Bool.not_false]
  simp only [transcript]
  rw [List.takeWhile_append_of_pos all, List.takeWhile_eq_self_iff.mpr all, List.filterMap_append]

/-- A call that returns has told one frame, or passed over them all and told what
lies behind them. -/
theorem read_returns (readable : ∀ f ∈ frames, ¬ f.Endless)
    (fits : ∀ f ∈ frames, f.encode.length ≤ bufCapacity.toNat) {outcome : Except Exception IoResult}
    {m' : Memory Byte} {reports' : List ReadSome}
    (returned : variant.read boost fuel bufCapacity (frames.map Frame.received ++ reports) m =
      some (outcome, m', reports')) :
    (∃ read later, frames = read ++ later ∧ transcript read = [variant.told m' outcome] ∧
      reports' = later.map Frame.received ++ reports) ∨
    (transcript frames = [] ∧ ∃ m'', variant.read boost fuel bufCapacity reports m'' =
      some (outcome, m', reports')) := by
  have bound := bufCapacity.isLt
  induction frames generalizing m with
  | nil => exact .inr ⟨rfl, m, returned⟩
  | cons f frames ih =>
      have readable_f := readable f List.mem_cons_self
      have fits_f := fits f List.mem_cons_self
      rw [List.map_cons, List.cons_append] at returned
      cases tells : f.told with
      | some told =>
          have enough : ¬ f.header.Control → f.payload.length ≤ fuel := by
            intro data
            by_contra short
            rw [read_eq_none (readAll_unfinished _ m data (by omega) (.inr (by omega)))] at returned
            cases returned
          obtain ⟨outcome', m₁, answer, same⟩ := read_told variant
            (frames.map Frame.received ++ reports) m tells readable_f fits_f enough
          rw [returned] at answer
          obtain ⟨rfl, rfl, rfl⟩ := Prod.mk.inj (Option.some.inj answer) |>.imp id Prod.mk.inj
          refine .inl ⟨[f], frames, rfl, ?_, rfl⟩
          rw [same]
          exact transcript_cons_told readable_f tells
      | none =>
          have beats := Frame.told_eq_none_iff.mp tells
          obtain ⟨m₁, again⟩ :=
            read_heartbeat variant (frames.map Frame.received ++ reports) m beats
          rw [again] at returned
          obtain ⟨read, later, rfl, one, rest⟩ | ⟨nothing, behind⟩ :=
            ih (fun other member => readable other (List.mem_cons_of_mem _ member))
              (fun other member => fits other (List.mem_cons_of_mem _ member)) returned
          · exact .inl ⟨f :: read, later, rfl, (transcript_cons_heartbeat beats).trans one, rest⟩
          · exact .inr ⟨(transcript_cons_heartbeat beats).trans nothing, behind⟩

/-- A call returns when there is something to tell. -/
theorem read_isSome (variant : ReadVariant) (reports : List ReadSome) (m : Memory Byte)
    (readable : ∀ f ∈ frames, ¬ f.Endless)
    (fits : ∀ f ∈ frames, f.encode.length ≤ bufCapacity.toNat)
    (enough : ∀ f ∈ frames, f.payload.length ≤ fuel) (something : transcript frames ≠ []) :
    (variant.read boost fuel bufCapacity (frames.map Frame.received ++ reports) m).isSome := by
  induction frames generalizing m with
  | nil => exact absurd rfl something
  | cons f frames ih =>
      rw [List.map_cons, List.cons_append]
      cases tells : f.told with
      | some told =>
          obtain ⟨outcome, m', returned, _⟩ := read_told variant
            (frames.map Frame.received ++ reports) m tells (readable f List.mem_cons_self)
            (fits f List.mem_cons_self) fun _ => enough f List.mem_cons_self
          rw [returned]
          rfl
      | none =>
          have beats := Frame.told_eq_none_iff.mp tells
          rw [transcript_cons_heartbeat beats] at something
          obtain ⟨m', again⟩ :=
            read_heartbeat variant (frames.map Frame.received ++ reports) m beats
          rw [again]
          exact ih m' (fun other member => readable other (List.mem_cons_of_mem _ member))
            (fun other member => fits other (List.mem_cons_of_mem _ member))
            (fun other member => enough other (List.mem_cons_of_mem _ member)) something

end

/-- Successive reads tell the transcript of the frames, however their payloads are
masked; `fuel` bounds the iterations over one payload. -/
theorem reads_tell_transcript (boost : BoostEndian) (bufCapacity : BitVec 32)
    (frames : List Frame) (m : Memory Byte) (fuel : Nat)
    (fits : ∀ f ∈ frames, f.encode.length ≤ bufCapacity.toNat)
    (enough : ∀ f ∈ frames, f.payload.length ≤ fuel) :
    Tells boost fuel bufCapacity (transcript frames) (frames.map Frame.received) m := by
  have bound := bufCapacity.isLt
  induction frames generalizing m with
  | nil => exact fun variant fuel => read_eq_none rfl
  | cons f frames ih =>
      have fits_f := fits f List.mem_cons_self
      have following (m' : Memory Byte) :
          Tells boost fuel bufCapacity (transcript frames) (frames.map Frame.received) m' :=
        ih m' (fun other member => fits other (List.mem_cons_of_mem _ member))
          fun other member => enough other (List.mem_cons_of_mem _ member)
      by_cases endless : f.Endless
      · rw [transcript_cons_endless endless]
        exact fun variant fuel => read_endless variant _ m endless (by omega)
      · cases tells : f.told with
        | some told =>
            rw [transcript_cons_told endless tells]
            intro variant
            obtain ⟨outcome, m', returned, same⟩ := read_told variant (frames.map Frame.received) m
              tells endless fits_f fun _ => enough f List.mem_cons_self
            exact ⟨outcome, m', _, returned, same, following m'⟩
        | none =>
            have beats := Frame.told_eq_none_iff.mp tells
            rw [transcript_cons_heartbeat beats]
            cases rest : transcript frames with
            | nil =>
                intro variant fuel
                obtain ⟨m', again⟩ := read_heartbeat variant (frames.map Frame.received) m beats
                have waits := following m'
                rw [rest] at waits
                exact again.trans (waits variant fuel)
            | cons told later =>
                intro variant
                obtain ⟨m', again⟩ := read_heartbeat variant (frames.map Frame.received) m beats
                have returns := following m'
                rw [rest] at returns
                obtain ⟨outcome, m'', reports', returned, tail⟩ := returns variant
                exact ⟨outcome, m'', reports', again.trans returned, tail⟩

/-- A masked text, a close, a ping, and a message behind them. -/
theorem reads_tell_transcript_masked : ∃ f : Frame, f.header.key = some #v[0x37, 0xfa, 0x21, 0x3d] ∧
    Tells .reversing 2 16 [.payload [0x48, 0x69], .thrown (controlException 0x8), .payload [0xaa]]
      ([f, oneByteFrame 0x8, oneByteFrame 0x9, oneByteFrame 0x2].map Frame.received)
      ⟨fun _ => 0xff, []⟩ := by
  let f : Frame :=
    { header :=
        { fin := false, reserved := 0, opcode := 1, length := .short 2,
          key := some #v[0x37, 0xfa, 0x21, 0x3d] }
      payload := [0x48, 0x69]
      length_eq := rfl }
  refine ⟨f, rfl, ?_⟩
  exact reads_tell_transcript .reversing 16
    [f, oneByteFrame 0x8, oneByteFrame 0x9, oneByteFrame 0x2] ⟨fun _ => 0xff, []⟩ 2
    (by decide) (by decide)

end Vee
