import Vee.Websocket.Stream

/-!
# Connecting to a named pipe

`connect` and `disconnect` of `win32_named_pipe`. What the calls of the system
return is given beforehand, one answer for each call that `connect` may make, and
the calls that are made are recorded. `INVALID_HANDLE_VALUE` is `none`. A text
that does not fit the buffer of `sprintf` makes the result `none`; a character of
the name is one byte.

The handle of the first block is neither opened again behind the wait nor closed
by a later exception, so a call is all or nothing only if it has a handle whenever
the second block needs one and nothing fails from there on.
-/

namespace Vee

/-- The underlying type is int, so a value need not have a name. -/
inductive CreationOption where
  | createOrTruncate
  | createNew
  | openOrCrate
  | openExisting
  | truncateExisting
  | other (value : BitVec 32)
  deriving DecidableEq, Repr

inductive PipeDataTransferMode where
  | iomodeByte
  | iomodeMessage
  | other (value : BitVec 32)
  deriving DecidableEq, Repr

namespace PipeTimeOutConstant

def waitDefault : BitVec 32 := 0x00000000
def waitForever : BitVec 32 := 0xffffffff
def waitNowait : BitVec 32 := 0x00000001

end PipeTimeOutConstant

/-- What the calls return. Errors are those of `GetLastError` behind the call; a
call that succeeds may leave an old one. `assign` throws `system_error` with the
message, or does not. -/
structure Win32Answers where
  createFileA : Option Nat
  createFileError : BitVec 32
  waitNamedPipeA : Bool
  waitError : BitVec 32
  setNamedPipeHandleState : Bool
  setError : BitVec 32
  assign : Option String
  deriving DecidableEq, Repr

/-- A call of the system. -/
inductive Win32Call where
  | createFileA (pipeName : String) (creation : BitVec 32) (handle : Option Nat)
  | waitNamedPipeA (pipeName : String) (timeOut : BitVec 32) (result : Bool)
  | setNamedPipeHandleState (handle : Option Nat) (mode : BitVec 32) (result : Bool)
  | flushFileBuffers (handle : Nat)
  | disconnectNamedPipe (handle : Nat)
  | closeHandle (handle : Nat)
  deriving DecidableEq, Repr

/-- What `connect` throws: a `vee::exception`, or the `system_error` of `assign`. -/
inductive PipeException where
  | vee (e : Exception)
  | system (message : String)
  deriving DecidableEq, Repr

/-- `win32_named_pipe`, with the handle of an open stream handler. -/
structure Win32NamedPipe where
  pipeName : String := ""
  isServerSide : Bool := false
  streamHandler : Option Nat := none
  deriving DecidableEq, Repr

namespace Win32NamedPipe

/-- `ERROR_PIPE_BUSY` -/
def errorPipeBusy : BitVec 32 := 231

/-- `sprintf(buffer, ...)` for `char buffer[256]` -/
def sprintf (text : String) : Option String := if text.length < 256 then some text else none

def win32FileCreationOpt : CreationOption → Option (BitVec 32)
  | .createOrTruncate => some 2
  | .createNew => some 1
  | .openOrCrate => some 4
  | .openExisting => some 3
  | .truncateExisting => some 5
  | .other _ => none

def timeOutArg (timeOutMillisec : BitVec 32) : BitVec 32 :=
  if timeOutMillisec = PipeTimeOutConstant.waitDefault then 0x00000000
  else if timeOutMillisec = PipeTimeOutConstant.waitForever then 0xffffffff
  else if timeOutMillisec = PipeTimeOutConstant.waitNowait then 0x00000001
  else timeOutMillisec

def couldNotOpen (lastError : BitVec 32) (pipeName : String) (timeOutMillisec : BitVec 32) :
    String :=
  let text := "Could not open pipe GLE=" ++ toString lastError.toInt ++ " \"" ++ pipeName ++ "\", "
  if timeOutMillisec = PipeTimeOutConstant.waitDefault then
    text ++ "pipe_time_out_constant::wait_default."
  else if timeOutMillisec = PipeTimeOutConstant.waitForever then
    text ++ "pipe_time_out_constant::wait_forever."
  else if timeOutMillisec = PipeTimeOutConstant.waitNowait then
    text ++ "pipe_time_out_constant::wait_nowait."
  else
    -- a quotient below 2^23 is exact as a float
    text ++ toString (timeOutMillisec.toNat / 1000) ++ ".0 second wait timed out."

def win32PipeReadMode : PipeDataTransferMode → Option (BitVec 32)
  | .iomodeByte => some 0
  | .iomodeMessage => some 2
  | .other _ => none

/-- The first block of `connect`: what `pipe_handle` is afterwards. -/
def openPipe (pipeName : String) (creationOpt : CreationOption) (timeOutMillisec : BitVec 32)
    (answers : Win32Answers) : Option (Except Exception (Option Nat) × List Win32Call) :=
  match win32FileCreationOpt creationOpt with
  | none =>
      some (.error ⟨"Invalid parameter: creation_option", ErrorCode.invalidParameter.toInt⟩, [])
  | some creation =>
      let pipeHandle := answers.createFileA
      let error := answers.createFileError
      let calls := [.createFileA pipeName creation pipeHandle]
      if pipeHandle = none ∧ error ≠ errorPipeBusy then
        some (.error ⟨"CreateFileA(Win32 api) failure! GLE: " ++ toString error.toInt,
          ErrorCode.streamConnectionFailure.toInt⟩, calls)
      else if error = errorPipeBusy then
        let calls := calls ++
          [.waitNamedPipeA pipeName (timeOutArg timeOutMillisec) answers.waitNamedPipeA]
        if answers.waitNamedPipeA then some (.ok pipeHandle, calls)
        else
          (sprintf (couldNotOpen answers.waitError pipeName timeOutMillisec)).map fun buffer =>
            (.error ⟨buffer, ErrorCode.win32BusyNamedPipe.toInt⟩, calls)
      else some (.ok pipeHandle, calls)

/-- The second block of `connect`. -/
def changeReadMode (pipeHandle : Option Nat) (readMode : PipeDataTransferMode)
    (answers : Win32Answers) : Except Exception Unit × List Win32Call :=
  match win32PipeReadMode readMode with
  | none =>
      (.error ⟨"Invalid parameter: pipe_read_mode", ErrorCode.invalidParameter.toInt⟩, [])
  | some mode =>
      let calls := [.setNamedPipeHandleState pipeHandle mode answers.setNamedPipeHandleState]
      if answers.setNamedPipeHandleState then (.ok (), calls)
      else
        (.error ⟨"SetNamedPipeHandleState failed. GLE=" ++ toString answers.setError.toInt,
          ErrorCode.streamConnectionFailure.toInt⟩, calls)

/-- `connect(pipe_name, creation_opt, read_mode, time_out_millisec)`: the result, the
object afterwards, and the calls. -/
def connect (this : Win32NamedPipe) (pipeName : String) (creationOpt : CreationOption)
    (readMode : PipeDataTransferMode) (timeOutMillisec : BitVec 32) (answers : Win32Answers) :
    Option (Except PipeException Unit × Win32NamedPipe × List Win32Call) :=
  if this.streamHandler.isSome then
    some (.error (.vee ⟨"pipe is already opened!", ErrorCode.streamAlreadyConnected.toInt⟩),
      this, [])
  else
    match openPipe pipeName creationOpt timeOutMillisec answers with
    | none => none
    | some (.error e, calls) => some (.error (.vee e), this, calls)
    | some (.ok pipeHandle, calls) =>
        match changeReadMode pipeHandle readMode answers with
        | (.error e, calls') => some (.error (.vee e), this, calls ++ calls')
        | (.ok (), calls') =>
            let this := { this with pipeName, isServerSide := false }
            match answers.assign with
            | some message => some (.error (.system message), this, calls ++ calls')
            | none => some (.ok (), { this with streamHandler := pipeHandle }, calls ++ calls')

/-- `disconnect()`; the stream handler gives up its handle whether or not it could be
closed. -/
def disconnect (this : Win32NamedPipe) : Win32NamedPipe × List Win32Call :=
  match this.streamHandler with
  | none => (this, [])
  | some handle =>
      let calls :=
        if this.isServerSide then [.flushFileBuffers handle, .disconnectNamedPipe handle] else []
      ({ this with isServerSide := false, streamHandler := none }, calls ++ [.closeHandle handle])

/-- The handles that `CreateFileA` returned. -/
def created (calls : List Win32Call) : List Nat :=
  calls.filterMap fun
    | .createFileA _ _ handle => handle
    | _ => none

/-- The handles that were closed. -/
def closed (calls : List Win32Call) : List Nat :=
  calls.filterMap fun
    | .closeHandle handle => some handle
    | _ => none

/-- The read mode was set without a handle. -/
def Starved (calls : List Win32Call) : Prop :=
  ∃ mode result, .setNamedPipeHandleState none mode result ∈ calls

/-- A call that throws has closed what it opened, has left the object as it was and
did not fail for want of a handle; one that returns has handed the object a handle
that is open. -/
def AllOrNothing (before : Win32NamedPipe) :
    Except PipeException Unit × Win32NamedPipe × List Win32Call → Prop
  | (.error _, after, calls) =>
      (∀ handle ∈ created calls, handle ∈ closed calls) ∧ after = before ∧ ¬ Starved calls
  | (.ok (), after, calls) =>
      ∃ handle ∈ created calls, handle ∉ closed calls ∧ after.streamHandler = some handle

/-- How a call of `connect` ends; one that overruns a buffer does not. -/
def Ends (before : Win32NamedPipe)
    (outcome : Option (Except PipeException Unit × Win32NamedPipe × List Win32Call)) : Prop :=
  ∃ how, outcome = some how ∧ AllOrNothing before how

/-- What the second block and the assignment need: without a handle, that there is no
mode to set, and with one, that nothing goes wrong. -/
def Finishes (readMode : PipeDataTransferMode) (answers : Win32Answers) : Option Nat → Prop
  | none => win32PipeReadMode readMode = none
  | some _ => win32PipeReadMode readMode ≠ none ∧ answers.setNamedPipeHandleState = true ∧
      answers.assign = none

/-- The first block throws without a handle, or what it opens is enough for the rest. -/
def Clean (this : Win32NamedPipe) (pipeName : String) (creationOpt : CreationOption)
    (readMode : PipeDataTransferMode) (timeOutMillisec : BitVec 32) (answers : Win32Answers) :
    Prop :=
  this.streamHandler.isSome ∨ win32FileCreationOpt creationOpt = none ∨
    if answers.createFileError = errorPipeBusy then
      if answers.waitNamedPipeA then Finishes readMode answers answers.createFileA
      else
        answers.createFileA = none ∧
          (couldNotOpen answers.waitError pipeName timeOutMillisec).length < 256
    else answers.createFileA = none ∨ Finishes readMode answers answers.createFileA

variable {this after : Win32NamedPipe} {pipeName : String} {creationOpt : CreationOption}
variable {readMode : PipeDataTransferMode} {timeOutMillisec : BitVec 32} {answers : Win32Answers}
variable {pipeHandle : Option Nat} {calls calls' : List Win32Call}

/-- The constants of the library are those of the system. -/
theorem timeOutArg_eq (timeOutMillisec : BitVec 32) :
    timeOutArg timeOutMillisec = timeOutMillisec := by
  simp only [timeOutArg]
  split
  · rename_i same
    exact same.symm
  · split
    · rename_i same
      exact same.symm
    · split
      · rename_i same
        exact same.symm
      · rfl

theorem created_append : created (calls ++ calls') = created calls ++ created calls' :=
  List.filterMap_append

theorem closed_append : closed (calls ++ calls') = closed calls ++ closed calls' :=
  List.filterMap_append

theorem starved_append : Starved (calls ++ calls') ↔ Starved calls ∨ Starved calls' := by
  simp only [Starved, List.mem_append, exists_or]

/-- The calls of the first block, for what is in `pipe_handle` afterwards. -/
structure Opening (pipeHandle : Option Nat) (calls : List Win32Call) : Prop where
  returned : created calls = pipeHandle.toList
  unclosed : closed calls = []
  fed : ¬ Starved calls

theorem opening_nil : Opening none [] := ⟨rfl, rfl, by simp [Starved]⟩

theorem opening_createFileA (pipeName : String) (creation : BitVec 32) (handle : Option Nat) :
    Opening handle [.createFileA pipeName creation handle] := by
  refine ⟨?_, rfl, by simp [Starved]⟩
  cases handle <;> rfl

theorem Opening.waitNamedPipeA (opening : Opening pipeHandle calls) (pipeName : String)
    (timeOut : BitVec 32) (result : Bool) :
    Opening pipeHandle (calls ++ [.waitNamedPipeA pipeName timeOut result]) where
  returned := by
    rw [created_append, opening.returned]
    exact List.append_nil _
  unclosed := by
    rw [closed_append, opening.unclosed]
    exact List.append_nil _
  fed := by
    rw [starved_append]
    rintro (before | now)
    · exact opening.fed before
    · simp [Starved] at now

/-- What the calls have done once the read mode is set. -/
theorem Opening.changed (opening : Opening pipeHandle calls) (mode : BitVec 32) (result : Bool) :
    created (calls ++ [.setNamedPipeHandleState pipeHandle mode result]) = pipeHandle.toList ∧
      closed (calls ++ [.setNamedPipeHandleState pipeHandle mode result]) = [] ∧
      (Starved (calls ++ [.setNamedPipeHandleState pipeHandle mode result]) ↔
        pipeHandle = none) := by
  refine ⟨?_, ?_, ?_⟩
  · rw [created_append, opening.returned]
    exact List.append_nil _
  · rw [closed_append, opening.unclosed]
    exact List.append_nil _
  · rw [starved_append, or_iff_right opening.fed]
    simp [Starved, eq_comm]

/-- After an exception of the first block. -/
theorem Opening.error_iff (opening : Opening pipeHandle calls) (e : PipeException) :
    AllOrNothing this (.error e, this, calls) ↔ pipeHandle = none := by
  simp only [AllOrNothing, opening.returned, opening.unclosed, opening.fed]
  cases pipeHandle <;> simp

/-- An exception behind the first block is harmful in any case: with a handle, that
is not closed, and without one, it was wanted. -/
theorem Opening.not_allOrNothing (opening : Opening pipeHandle calls) (mode : BitVec 32)
    (result : Bool) (e : PipeException) :
    ¬ AllOrNothing this (.error e, after,
      calls ++ [.setNamedPipeHandleState pipeHandle mode result]) := by
  obtain ⟨returned, unclosed, starved⟩ := opening.changed mode result
  rintro ⟨released, _, fed⟩
  rw [returned, unclosed] at released
  cases pipeHandle with
  | none => exact fed (starved.mpr rfl)
  | some handle => exact List.not_mem_nil (released handle (List.mem_singleton_self handle))

/-- A call that returns needs the handle it was opened with. -/
theorem Opening.ok_iff (opening : Opening pipeHandle calls) (mode : BitVec 32) (result : Bool)
    (handled : after.streamHandler = pipeHandle) :
    AllOrNothing this (.ok (), after,
      calls ++ [.setNamedPipeHandleState pipeHandle mode result]) ↔ pipeHandle ≠ none := by
  obtain ⟨returned, unclosed, _⟩ := opening.changed mode result
  simp only [AllOrNothing, returned, unclosed, handled]
  cases pipeHandle <;> simp

theorem ends_some {how : Except PipeException Unit × Win32NamedPipe × List Win32Call} :
    Ends this (some how) ↔ AllOrNothing this how := by
  simp only [Ends, Option.some.injEq, exists_eq_left']

theorem not_ends_none : ¬ Ends this none := by
  rintro ⟨how, impossible, _⟩
  cases impossible

theorem opening_of_openPipe
    (opened : openPipe pipeName creationOpt timeOutMillisec answers =
      some (.ok pipeHandle, calls)) :
    Opening pipeHandle calls := by
  simp only [openPipe] at opened
  split at opened
  · cases opened
  · split at opened
    · cases opened
    · split at opened
      · split at opened
        · cases opened
          exact (opening_createFileA _ _ _).waitNamedPipeA _ _ _
        · obtain ⟨_, _, thrown⟩ := Option.map_eq_some_iff.mp opened
          cases thrown
      · cases opened
        exact opening_createFileA _ _ _

/-- An object that is connected throws before it calls anything. -/
theorem connect_occupied (occupied : this.streamHandler.isSome) :
    Ends this (connect this pipeName creationOpt readMode timeOutMillisec answers) := by
  simp only [connect, occupied, if_true]
  rw [ends_some, opening_nil.error_iff]

/-- `connect` throws what the first block throws. -/
theorem connect_error {e : Exception} (vacant : this.streamHandler = none)
    (thrown : openPipe pipeName creationOpt timeOutMillisec answers = some (.error e, calls))
    (opening : Opening pipeHandle calls) :
    Ends this (connect this pipeName creationOpt readMode timeOutMillisec answers) ↔
      pipeHandle = none := by
  simp only [connect, vacant, thrown, Option.isSome_none, Bool.false_eq_true, if_false]
  rw [ends_some, opening.error_iff]

theorem connect_overrun (vacant : this.streamHandler = none)
    (overrun : openPipe pipeName creationOpt timeOutMillisec answers = none) :
    ¬ Ends this (connect this pipeName creationOpt readMode timeOutMillisec answers) := by
  simp only [connect, vacant, overrun, Option.isSome_none, Bool.false_eq_true, if_false]
  exact not_ends_none

/-- The second block needs a handle exactly if it has a mode to set. -/
theorem connect_opened (vacant : this.streamHandler = none)
    (opened : openPipe pipeName creationOpt timeOutMillisec answers = some (.ok pipeHandle, calls))
    (opening : Opening pipeHandle calls) :
    Ends this (connect this pipeName creationOpt readMode timeOutMillisec answers) ↔
      Finishes readMode answers pipeHandle := by
  simp only [connect, vacant, opened, changeReadMode, Option.isSome_none, Bool.false_eq_true,
    if_false]
  cases valid : win32PipeReadMode readMode with
  | none =>
      simp only [List.append_nil]
      rw [ends_some, opening.error_iff]
      cases pipeHandle <;> simp [Finishes, valid]
  | some mode =>
      cases set : answers.setNamedPipeHandleState with
      | false =>
          simp only [Bool.false_eq_true, if_false]
          rw [ends_some]
          apply iff_of_false (opening.not_allOrNothing mode false _)
          cases pipeHandle <;> simp [Finishes, valid, set]
      | true =>
          cases assigned : answers.assign with
          | some message =>
              simp only [if_true]
              rw [ends_some]
              apply iff_of_false (opening.not_allOrNothing mode true _)
              cases pipeHandle <;> simp [Finishes, valid, assigned]
          | none =>
              simp only [if_true]
              rw [ends_some, opening.ok_iff mode true rfl]
              cases pipeHandle <;> simp [Finishes, valid, set, assigned]

theorem openPipe_invalid (invalid : win32FileCreationOpt creationOpt = none) :
    openPipe pipeName creationOpt timeOutMillisec answers = some (.error
      ⟨"Invalid parameter: creation_option", ErrorCode.invalidParameter.toInt⟩, []) := by
  simp only [openPipe, invalid]

section

variable {creation : BitVec 32} (valid : win32FileCreationOpt creationOpt = some creation)

include valid

/-- Without a handle, an error other than `ERROR_PIPE_BUSY` is thrown. -/
theorem openPipe_refused (refused : answers.createFileA = none)
    (idle : answers.createFileError ≠ errorPipeBusy) :
    ∃ e, openPipe pipeName creationOpt timeOutMillisec answers =
      some (.error e, [.createFileA pipeName creation none]) := by
  simp only [openPipe, valid, refused, idle, ne_eq, not_false_eq_true, and_self, if_true]
  exact ⟨_, rfl⟩

/-- With a handle and no `ERROR_PIPE_BUSY`, there is nothing to wait for. -/
theorem openPipe_idle {handle : Nat} (given : answers.createFileA = some handle)
    (idle : answers.createFileError ≠ errorPipeBusy) :
    openPipe pipeName creationOpt timeOutMillisec answers =
      some (.ok (some handle), [.createFileA pipeName creation (some handle)]) := by
  simp only [openPipe, valid, given, idle, reduceCtorEq, false_and, if_false]

/-- The wait is for the pipe; the handle stays what it was. -/
theorem openPipe_waited (busy : answers.createFileError = errorPipeBusy)
    (waited : answers.waitNamedPipeA = true) :
    openPipe pipeName creationOpt timeOutMillisec answers =
      some (.ok answers.createFileA, [.createFileA pipeName creation answers.createFileA] ++
        [.waitNamedPipeA pipeName (timeOutArg timeOutMillisec) true]) := by
  simp only [openPipe, valid, busy, waited, ne_eq, not_true_eq_false, and_false, if_false, if_true]

theorem openPipe_timedOut (busy : answers.createFileError = errorPipeBusy)
    (timedOut : answers.waitNamedPipeA = false) :
    openPipe pipeName creationOpt timeOutMillisec answers =
      (sprintf (couldNotOpen answers.waitError pipeName timeOutMillisec)).map fun buffer =>
        (.error ⟨buffer, ErrorCode.win32BusyNamedPipe.toInt⟩,
          [.createFileA pipeName creation answers.createFileA] ++
            [.waitNamedPipeA pipeName (timeOutArg timeOutMillisec) false]) := by
  simp only [openPipe, valid, busy, timedOut, ne_eq, not_true_eq_false, and_false, if_false,
    if_true, Bool.false_eq_true]

/-- A busy pipe that does not become available is reported, if the report fits. -/
theorem connect_timedOut (vacant : this.streamHandler = none)
    (busy : answers.createFileError = errorPipeBusy) (timedOut : answers.waitNamedPipeA = false) :
    Ends this (connect this pipeName creationOpt readMode timeOutMillisec answers) ↔
      answers.createFileA = none ∧
        (couldNotOpen answers.waitError pipeName timeOutMillisec).length < 256 := by
  have reported : openPipe pipeName creationOpt timeOutMillisec answers = _ :=
    openPipe_timedOut valid busy timedOut
  by_cases fits : (couldNotOpen answers.waitError pipeName timeOutMillisec).length < 256
  · simp only [sprintf, fits, if_true, Option.map_some] at reported
    rw [connect_error vacant reported ((opening_createFileA _ _ _).waitNamedPipeA _ _ _)]
    exact (and_iff_left fits).symm
  · simp only [sprintf, fits, if_false, Option.map_none] at reported
    exact iff_of_false (connect_overrun vacant reported) (fun clean => fits clean.2)

end

/-- A call of `connect` is all or nothing exactly if it is clean. -/
theorem connect_all_or_nothing_iff (this : Win32NamedPipe) (pipeName : String)
    (creationOpt : CreationOption) (readMode : PipeDataTransferMode)
    (timeOutMillisec : BitVec 32) (answers : Win32Answers) :
    Ends this (connect this pipeName creationOpt readMode timeOutMillisec answers) ↔
      Clean this pipeName creationOpt readMode timeOutMillisec answers := by
  cases occupied : this.streamHandler with
  | some handle =>
      have isSome : this.streamHandler.isSome := by simp only [occupied, Option.isSome_some]
      exact iff_of_true (connect_occupied isSome) (.inl isSome)
  | none =>
      simp only [Clean, occupied, Option.isSome_none, Bool.false_eq_true, false_or]
      cases valid : win32FileCreationOpt creationOpt with
      | none =>
          rw [connect_error occupied (openPipe_invalid valid) opening_nil]
          simp only [true_or]
      | some creation =>
          simp only [reduceCtorEq, false_or]
          split
          · rename_i busy
            split
            · rename_i waited
              exact connect_opened occupied (openPipe_waited valid busy waited)
                ((opening_createFileA _ _ _).waitNamedPipeA _ _ _)
            · rename_i timedOut
              exact connect_timedOut valid occupied busy (Bool.eq_false_iff.mpr timedOut)
          · rename_i idle
            cases given : answers.createFileA with
            | none =>
                obtain ⟨e, refused⟩ := openPipe_refused valid given idle
                rw [connect_error occupied refused (opening_createFileA _ _ _)]
                simp only [true_or]
            | some handle =>
                rw [connect_opened occupied (openPipe_idle valid given idle)
                  (opening_createFileA _ _ _)]
                simp only [reduceCtorEq, false_or]

/-- A call that returns has passed both blocks and the assignment. -/
theorem connect_eq_ok
    (returned : connect this pipeName creationOpt readMode timeOutMillisec answers =
      some (.ok (), after, calls)) :
    ∃ pipeHandle opening mode,
      openPipe pipeName creationOpt timeOutMillisec answers = some (.ok pipeHandle, opening) ∧
      after = { this with pipeName, isServerSide := false, streamHandler := pipeHandle } ∧
      calls = opening ++ [.setNamedPipeHandleState pipeHandle mode true] := by
  simp only [connect] at returned
  split at returned
  · cases returned
  · split at returned
    · cases returned
    · cases returned
    · rename_i pipeHandle opening opened
      simp only [changeReadMode] at returned
      cases valid : win32PipeReadMode readMode with
      | none =>
          simp only [valid] at returned
          cases returned
      | some mode =>
          cases set : answers.setNamedPipeHandleState with
          | false =>
              simp only [valid, set, Bool.false_eq_true, if_false] at returned
              cases returned
          | true =>
              cases assigned : answers.assign with
              | some message =>
                  simp only [valid, set, assigned, if_true] at returned
                  cases returned
              | none =>
                  simp only [valid, set, assigned, if_true] at returned
                  cases returned
                  exact ⟨pipeHandle, opening, mode, opened, rfl, rfl⟩

/-- Whatever `connect` returns with is what it created, and it is open. -/
theorem connect_ok
    (returned : connect this pipeName creationOpt readMode timeOutMillisec answers =
      some (.ok (), after, calls)) :
    created calls = after.streamHandler.toList ∧ closed calls = [] := by
  obtain ⟨pipeHandle, opening, mode, opened, rfl, rfl⟩ := connect_eq_ok returned
  obtain ⟨returned, unclosed, _⟩ := (opening_of_openPipe opened).changed mode true
  exact ⟨returned, unclosed⟩

theorem closed_disconnect (this : Win32NamedPipe) :
    closed this.disconnect.2 = this.streamHandler.toList := by
  simp only [disconnect]
  cases this.streamHandler with
  | none => exact List.filterMap_nil
  | some handle =>
      rw [closed_append]
      split <;> exact List.nil_append _

/-- What a call of `connect` that returns has opened, `disconnect` closes, and only that. -/
theorem connect_disconnect
    (returned : connect this pipeName creationOpt readMode timeOutMillisec answers =
      some (.ok (), after, calls)) :
    closed (calls ++ after.disconnect.2) = created calls ∧
      after.disconnect.1.streamHandler = none := by
  obtain ⟨opened, unclosed⟩ := connect_ok returned
  refine ⟨?_, ?_⟩
  · rw [closed_append, unclosed, closed_disconnect, opened]
    exact List.nil_append _
  · cases handled : after.streamHandler <;> simp only [disconnect, handled]

/-- The pipe is busy and becomes available, and the read mode is set without a handle. -/
theorem busy_pipe_without_handle :
    ¬ Ends {} (connect {} "\\\\.\\pipe\\vee" .openExisting .iomodeByte 1000
      { createFileA := none, createFileError := errorPipeBusy, waitNamedPipeA := true,
        waitError := 0, setNamedPipeHandleState := false, setError := 6, assign := none }) := by
  rintro ⟨how, ended, all⟩
  cases ended
  exact all.2.2 ⟨0, false, by decide⟩

end Win32NamedPipe
end Vee
