import Vee.Ownership.Ledger
import Vee.Transition.Basic
import Vee.Win32.NamedPipe

/-!
# Sessions on named pipes

`accept` of the server, and any number of `win32_named_pipe` objects that are created,
connected, moved, disconnected and destroyed in any order. A handle is numbered by the
call that returned it. The stream handler is that of the transport: it lets go of its
handle when it calls `CloseHandle`, and assigning to one that is open does so too. What
`CloseHandle` answers is left out, since `disconnect` goes on when it fails: a handle that
was passed to it has been given up, whether the system took it back or not.

The flag `_is_server_side` has no value in a new object, and keeps an old one in an
object that was moved from. It is looked at only when the stream is open, and then it
says which side opened it.
-/

namespace Vee

open Ownership Transition

/-- A call of the system, by the client's side or by `accept`. -/
inductive PipeCall where
  | win32 (call : Win32Call)
  | createNamedPipeA (pipeName : String) (pipeMode inBufferSize outBufferSize : BitVec 32)
      (handle : Option Nat)
  | connectNamedPipe (handle : Nat) (result : Bool)
  deriving DecidableEq, Repr

/-- What the calls of `accept` return. -/
structure AcceptAnswers where
  createNamedPipeA : Option Nat
  createError : BitVec 32
  connectNamedPipe : Bool
  connectError : BitVec 32
  deriving DecidableEq, Repr

namespace Win32NamedPipeAcceptor

/-- `ERROR_PIPE_CONNECTED` -/
def errorPipeConnected : BitVec 32 := 535

def win32PipeTypeArg : PipeDataTransferMode → Option (BitVec 32)
  | .iomodeByte => some 0
  | .iomodeMessage => some 6
  | .other _ => none

/-- `accept(pipe_name, io_mode, in_buffer_size, out_buffer_size)`: the pipe, or the
exception, and the calls. What is left in `pipe_handle` is closed by its destructor;
for `INVALID_HANDLE_VALUE` there is nothing to close. -/
def accept (pipeName : String) (ioMode : PipeDataTransferMode)
    (inBufferSize outBufferSize : BitVec 32) (answers : AcceptAnswers) :
    Except Exception Win32NamedPipe × List PipeCall :=
  match win32PipeTypeArg ioMode with
  | none => (.error ⟨"Invalid parameter: pipe io_mode", ErrorCode.invalidParameter.toInt⟩, [])
  | some pipeMode =>
      let calls := [.createNamedPipeA pipeName pipeMode inBufferSize outBufferSize
        answers.createNamedPipeA]
      match answers.createNamedPipeA with
      | none =>
          (.error ⟨"CreateNamedPipeA failure. GLE: " ++ toString answers.createError.toInt,
            ErrorCode.serverAcceptFailure.toInt⟩, calls)
      | some handle =>
          let result := answers.connectNamedPipe || answers.connectError == errorPipeConnected
          let calls := calls ++ [.connectNamedPipe handle result]
          if result then
            (.ok { pipeName, isServerSide := true, streamHandler := some handle }, calls)
          else
            (.error ⟨"ConnectNamedPipe failure. GLE: " ++ toString answers.connectError.toInt,
              ErrorCode.serverAcceptFailure.toInt⟩, calls ++ [.win32 (.closeHandle handle)])

end Win32NamedPipeAcceptor

namespace Win32NamedPipe

/-- A moved stream handler is closed, and a moved string is empty. -/
def clear (this : Win32NamedPipe) : Win32NamedPipe :=
  { this with pipeName := "", streamHandler := none }

/-- The handle of an open stream, with the flag. -/
def session (this : Win32NamedPipe) : Option (Nat × Bool) :=
  this.streamHandler.map fun h => (h, this.isServerSide)

/-- What closing the stream handler calls. -/
def closing (this : Win32NamedPipe) : List PipeCall :=
  this.streamHandler.toList.map fun handle => .win32 (.closeHandle handle)

end Win32NamedPipe

/-- The live objects by number, and the calls that were made. -/
structure Pipes where
  objects : Nat → Option Win32NamedPipe := fun _ => none
  calls : List PipeCall := []

inductive PipeAction where
  | create (o : Nat) (garbage : Bool)
  | accept (o : Nat) (pipeName : String) (ioMode : PipeDataTransferMode)
      (inBufferSize outBufferSize : BitVec 32) (answers : AcceptAnswers)
  | connect (o : Nat) (pipeName : String) (creationOpt : CreationOption)
      (readMode : PipeDataTransferMode) (timeOutMillisec : BitVec 32) (answers : Win32Answers)
  | disconnect (o : Nat)
  | moveConstruct (o other : Nat)
  | moveAssign (o other : Nat)
  | destroy (o : Nat)
  deriving DecidableEq, Repr

/-- The handles that were returned. -/
def openedBy (calls : List PipeCall) : List Nat :=
  calls.filterMap fun
    | .win32 (.createFileA _ _ handle) => handle
    | .createNamedPipeA _ _ _ _ handle => handle
    | _ => none

/-- The handles that `CloseHandle` was called with, whatever it has answered. -/
def passedToClose (calls : List PipeCall) : List Nat :=
  calls.filterMap fun
    | .win32 (.closeHandle handle) => some handle
    | _ => none

/-- The handles of the server's side that a client has connected to. -/
def sessionsOf (calls : List PipeCall) : List Nat :=
  calls.filterMap fun
    | .connectNamedPipe handle true => some handle
    | _ => none

/-- The handles that `FlushFileBuffers` or `DisconnectNamedPipe` was called with. -/
def hungUp (calls : List PipeCall) : List Nat :=
  calls.filterMap fun
    | .win32 (.flushFileBuffers handle) => some handle
    | .win32 (.disconnectNamedPipe handle) => some handle
    | _ => none

namespace Pipes

def put (o : Nat) (this : Option Win32NamedPipe) (s : Pipes) : Pipes :=
  { s with objects := Function.update s.objects o this }

def log (calls : List PipeCall) (s : Pipes) : Pipes := { s with calls := s.calls ++ calls }

/-- A handle from the system. -/
def Fresh (handle : Option Nat) (s : Pipes) : Prop := ∀ h ∈ handle, h ∉ openedBy s.calls

instance (handle : Option Nat) (s : Pipes) : Decidable (Fresh handle s) :=
  inferInstanceAs (Decidable (∀ h ∈ handle, h ∉ openedBy s.calls))

/-- A call that overruns a buffer is not a step. -/
def step (s : Pipes) : PipeAction → Option Pipes
  | .create o garbage =>
      if s.objects o = none then some (s.put o (some { isServerSide := garbage })) else none
  | .accept o pipeName ioMode inBufferSize outBufferSize answers =>
      if s.objects o = none ∧ s.Fresh answers.createNamedPipeA then
        match Win32NamedPipeAcceptor.accept pipeName ioMode inBufferSize outBufferSize answers with
        | (.error _, calls) => some (s.log calls)
        | (.ok pipe, calls) => some ((s.log calls).put o (some pipe))
      else none
  | .connect o pipeName creationOpt readMode timeOutMillisec answers =>
      match s.objects o with
      | none => none
      | some this =>
          if s.Fresh answers.createFileA then
            match this.connect pipeName creationOpt readMode timeOutMillisec answers with
            | none => none
            | some (_, this, calls) => some ((s.log (calls.map .win32)).put o (some this))
          else none
  | .disconnect o =>
      match s.objects o with
      | none => none
      | some this =>
          let (this, calls) := this.disconnect
          some ((s.log (calls.map .win32)).put o (some this))
  | .moveConstruct o other =>
      match s.objects o, s.objects other with
      | none, some rhs => some ((s.put o (some rhs)).put other (some rhs.clear))
      | _, _ => none
  | .moveAssign o other =>
      match s.objects o, s.objects other with
      | some this, some rhs =>
          -- `other` may be the object itself, which is closed then
          some (((s.log this.closing).put o (some rhs)).put other (some rhs.clear))
      | _, _ => none
  | .destroy o =>
      match s.objects o with
      | none => none
      | some this =>
          let (_, calls) := this.disconnect
          some ((s.log (calls.map .win32)).put o none)

/-- The handle of a live object. -/
def handleOf (s : Pipes) (o : Nat) : Option Nat :=
  (s.objects o).bind Win32NamedPipe.streamHandler

/-- The pipes as a ledger; a handle is let go of by the call of `CloseHandle`. -/
def ledger (s : Pipes) : Ledger Nat Nat where
  held := s.handleOf
  entered := openedBy s.calls
  attempts := (passedToClose s.calls).map fun handle => (handle, true)

/-- Every handle that was returned and not yet passed to `CloseHandle` is held by one live
object, and none is passed to it twice. -/
structure SingleOwner (s : Pipes) : Prop where
  owned : ∀ h ∈ openedBy s.calls, h ∉ passedToClose s.calls → ∃! o, s.handleOf o = some h
  once : (passedToClose s.calls).Nodup

/-- The flag of an open stream says which side opened it. -/
def Flagged (s : Pipes) : Prop :=
  ∀ o this h, s.objects o = some this → this.streamHandler = some h →
    (this.isServerSide = true ↔ h ∈ sessionsOf s.calls)

/-- `CloseHandle` is called with a session of the server's side right after
`FlushFileBuffers` and `DisconnectNamedPipe`. -/
def PartedFirst (s : Pipes) : Prop :=
  ∀ before h after, s.calls = before ++ .win32 (.closeHandle h) :: after →
    h ∈ sessionsOf before → ∃ front, before = front ++
      [.win32 (.flushFileBuffers h), .win32 (.disconnectNamedPipe h)]

/-- What `connect` does with a handle it gets from `CreateFileA`. -/
def Completes (readMode : PipeDataTransferMode) (answers : Win32Answers) : Prop :=
  (answers.createFileError = Win32NamedPipe.errorPipeBusy → answers.waitNamedPipeA = true) ∧
    Win32NamedPipe.win32PipeReadMode readMode ≠ none ∧
    answers.setNamedPipeHandleState = true ∧ answers.assign = none

/-- Nothing goes wrong in a `connect` that has got a handle. -/
def Kept (s : Pipes) : PipeAction → Prop
  | .connect o _ creationOpt readMode _ answers => s.handleOf o = none →
      Win32NamedPipe.win32FileCreationOpt creationOpt ≠ none → answers.createFileA ≠ none →
        Completes readMode answers
  | _ => True

/-- No object with an open session of the server's side is assigned to. -/
def Gentle (s : Pipes) : PipeAction → Prop
  | .moveAssign o _ => ∀ h ∈ s.handleOf o, h ∉ sessionsOf s.calls
  | _ => True

instance (readMode : PipeDataTransferMode) (answers : Win32Answers) :
    Decidable (Completes readMode answers) :=
  inferInstanceAs (Decidable
    ((answers.createFileError = Win32NamedPipe.errorPipeBusy → answers.waitNamedPipeA = true) ∧
      Win32NamedPipe.win32PipeReadMode readMode ≠ none ∧
      answers.setNamedPipeHandleState = true ∧ answers.assign = none))

instance (s : Pipes) : ∀ a, Decidable (Kept s a)
  | .connect o _ creationOpt readMode _ answers =>
      inferInstanceAs (Decidable (s.handleOf o = none →
        Win32NamedPipe.win32FileCreationOpt creationOpt ≠ none → answers.createFileA ≠ none →
          Completes readMode answers))
  | .create .. | .accept .. | .disconnect _ | .moveConstruct .. | .moveAssign .. | .destroy _ =>
      .isTrue trivial

instance (s : Pipes) : ∀ a, Decidable (Gentle s a)
  | .moveAssign o _ =>
      inferInstanceAs (Decidable (∀ h ∈ s.handleOf o, h ∉ sessionsOf s.calls))
  | .create .. | .accept .. | .connect .. | .disconnect _ | .moveConstruct .. | .destroy _ =>
      .isTrue trivial

variable {s t : Pipes} {a : PipeAction} {o other : Nat} {this after : Win32NamedPipe}
variable {calls later : List PipeCall} {h : Nat} {side : Bool}

section

variable (calls later)

theorem openedBy_append : openedBy (calls ++ later) = openedBy calls ++ openedBy later :=
  List.filterMap_append

theorem passedToClose_append :
    passedToClose (calls ++ later) = passedToClose calls ++ passedToClose later :=
  List.filterMap_append

theorem sessionsOf_append : sessionsOf (calls ++ later) = sessionsOf calls ++ sessionsOf later :=
  List.filterMap_append

theorem hungUp_append : hungUp (calls ++ later) = hungUp calls ++ hungUp later :=
  List.filterMap_append

end

def sessionAt (s : Pipes) (o : Nat) : Option (Nat × Bool) :=
  (s.objects o).bind Win32NamedPipe.session

/-- What the steps keep of the handles that are held, and of the calls. -/
structure Orderly (held : Nat → Option (Nat × Bool)) (calls : List PipeCall) : Prop where
  known : ∀ {o h side}, held o = some (h, side) → h ∈ openedBy calls
  exclusive : ∀ {o other h side side'}, held o = some (h, side) → held other = some (h, side') →
    o = other
  flagged : ∀ {o h side}, held o = some (h, side) → (side = true ↔ h ∈ sessionsOf calls)
  sessions : ∀ h ∈ sessionsOf calls, h ∈ openedBy calls
  hung : ∀ h ∈ hungUp calls, h ∈ sessionsOf calls ∧ ∀ o side, held o ≠ some (h, side)

section Orderly

variable {held : Nat → Option (Nat × Bool)}

theorem Orderly.drop (orderly : Orderly held calls) (o : Nat) :
    Orderly (Function.update held o none) calls := by
  have before {other : Nat} {x : Nat × Bool}
      (holds : Function.update held o none other = some x) : held other = some x := by
    obtain ⟨_, nothing⟩ | ⟨_, before⟩ := Ledger.update_eq_some_iff.mp holds
    · cases nothing
    · exact before
  exact {
    known := fun holds => orderly.known (before holds)
    exclusive := fun holds holds' => orderly.exclusive (before holds) (before holds')
    flagged := fun holds => orderly.flagged (before holds)
    sessions := orderly.sessions
    hung := fun h listed => ⟨(orderly.hung h listed).1, fun other side holds =>
      (orderly.hung h listed).2 other side (before holds)⟩ }

/-- Calls that hang up nothing that is held, and after which nobody has connected. -/
theorem Orderly.log (orderly : Orderly held calls) (quiet : sessionsOf later = [])
    (hung : ∀ h ∈ hungUp later, h ∈ sessionsOf calls ∧ ∀ o side, held o ≠ some (h, side)) :
    Orderly held (calls ++ later) := by
  have same : sessionsOf (calls ++ later) = sessionsOf calls := by
    rw [sessionsOf_append, quiet, List.append_nil]
  exact {
    known := fun holds => by
      rw [openedBy_append]
      exact List.mem_append_left _ (orderly.known holds)
    exclusive := orderly.exclusive
    flagged := fun holds => by
      rw [same]
      exact orderly.flagged holds
    sessions := by
      rw [same, openedBy_append]
      exact fun h listed => List.mem_append_left _ (orderly.sessions h listed)
    hung := by
      rw [same, hungUp_append]
      intro h listed
      exact (List.mem_append.mp listed).elim (orderly.hung h) (hung h) }

/-- A handle that has just been returned comes to an object. -/
theorem Orderly.enter (orderly : Orderly held calls) (fresh : h ∉ openedBy calls)
    (opened : openedBy later = [h]) (connected : sessionsOf later = if side then [h] else [])
    (quiet : hungUp later = []) (o : Nat) :
    Orderly (Function.update held o (some (h, side))) (calls ++ later) := by
  have unconnected : h ∉ sessionsOf calls := fun listed => fresh (orderly.sessions h listed)
  have apart {other : Nat} {side' : Bool} (before : held other = some (h, side')) : False :=
    fresh (orderly.known before)
  exact {
    known := by
      intro other x side' holds
      rw [openedBy_append, opened]
      obtain ⟨_, same⟩ | ⟨_, before⟩ := Ledger.update_eq_some_iff.mp holds
      · cases same
        exact List.mem_append_right _ (List.mem_singleton_self _)
      · exact List.mem_append_left _ (orderly.known before)
    exclusive := by
      intro i j x side' side'' holds holds'
      obtain ⟨rfl, same⟩ | ⟨_, before⟩ := Ledger.update_eq_some_iff.mp holds
      · cases same
        obtain ⟨rfl, _⟩ | ⟨_, before⟩ := Ledger.update_eq_some_iff.mp holds'
        · rfl
        · exact (apart before).elim
      · obtain ⟨_, same⟩ | ⟨_, before'⟩ := Ledger.update_eq_some_iff.mp holds'
        · cases same
          exact (apart before).elim
        · exact orderly.exclusive before before'
    flagged := by
      intro other x side' holds
      rw [sessionsOf_append, connected, List.mem_append]
      obtain ⟨_, same⟩ | ⟨_, before⟩ := Ledger.update_eq_some_iff.mp holds
      · cases same
        cases side <;> simp [unconnected]
      · rw [orderly.flagged before]
        refine (or_iff_left fun now => ?_).symm
        have same : x = h := by
          cases side
          · exact absurd now List.not_mem_nil
          · exact List.mem_singleton.mp now
        rw [same] at before
        exact apart before
    sessions := by
      rw [sessionsOf_append, openedBy_append, connected, opened]
      intro x listed
      obtain before | now := List.mem_append.mp listed
      · exact List.mem_append_left _ (orderly.sessions x before)
      · cases side
        · exact absurd now List.not_mem_nil
        · exact List.mem_append_right _ now
    hung := by
      rw [hungUp_append, quiet, List.append_nil, sessionsOf_append]
      intro x listed
      obtain ⟨session, unheld⟩ := orderly.hung x listed
      refine ⟨List.mem_append_left _ session, fun other side' holds => ?_⟩
      obtain ⟨_, same⟩ | ⟨_, before⟩ := Ledger.update_eq_some_iff.mp holds
      · cases same
        exact unconnected session
      · exact unheld other side' before }

/-- What one object holds goes to another one. -/
theorem Orderly.move (orderly : Orderly held calls) (o other : Nat) :
    Orderly (Function.update (Function.update held o (held other)) other none) calls := by
  have source {k : Nat} {x : Nat × Bool}
      (holds : Function.update (Function.update held o (held other)) other none k = some x) :
      k ≠ other ∧ ((k = o ∧ held other = some x) ∨ (k ≠ o ∧ held k = some x)) := by
    obtain ⟨_, nothing⟩ | ⟨ne, before⟩ := Ledger.update_eq_some_iff.mp holds
    · cases nothing
    · exact ⟨ne, Ledger.update_eq_some_iff.mp before⟩
  have before {k : Nat} {x : Nat × Bool}
      (holds : Function.update (Function.update held o (held other)) other none k = some x) :
      ∃ i, held i = some x := by
    obtain ⟨_, ⟨_, moved⟩ | ⟨_, kept⟩⟩ := source holds
    · exact ⟨other, moved⟩
    · exact ⟨k, kept⟩
  exact {
    known := fun holds => (before holds).elim fun _ => orderly.known
    exclusive := by
      intro i j h side side' holds holds'
      obtain ⟨ne, ⟨rfl, moved⟩ | ⟨_, kept⟩⟩ := source holds
      · obtain ⟨ne', ⟨rfl, _⟩ | ⟨_, kept'⟩⟩ := source holds'
        · rfl
        · exact absurd (orderly.exclusive kept' moved) ne'
      · obtain ⟨ne', ⟨rfl, moved'⟩ | ⟨_, kept'⟩⟩ := source holds'
        · exact absurd (orderly.exclusive kept moved') ne
        · exact orderly.exclusive kept kept'
    flagged := fun holds => (before holds).elim fun _ => orderly.flagged
    sessions := orderly.sessions
    hung := fun h listed => ⟨(orderly.hung h listed).1, fun k side holds =>
      (before holds).elim fun i => (orderly.hung h listed).2 i side⟩ }

/-- A stream is closed; at the server's side it is flushed and disconnected before. -/
theorem Orderly.hangUp (orderly : Orderly held calls) (holds : held o = some (h, side))
    (quiet : sessionsOf later = []) (own : ∀ x ∈ hungUp later, x = h ∧ side = true) :
    Orderly (Function.update held o none) (calls ++ later) := by
  refine (orderly.drop o).log quiet fun x listed => ?_
  obtain ⟨rfl, server⟩ := own x listed
  refine ⟨(orderly.flagged holds).mp server, fun other side' held' => ?_⟩
  obtain ⟨_, nothing⟩ | ⟨ne, before⟩ := Ledger.update_eq_some_iff.mp held'
  · cases nothing
  · exact ne (orderly.exclusive before holds)

end Orderly

section Connect

open Win32NamedPipe

variable {pipeName : String} {creationOpt : CreationOption} {readMode : PipeDataTransferMode}
variable {timeOutMillisec : BitVec 32} {answers : Win32Answers}
variable {result : Except PipeException Unit} {systemCalls : List Win32Call}
variable {pipeHandle : Option Nat}

/-- Calls by which a client's handle is opened at most. -/
structure Opening (pipeHandle : Option Nat) (calls : List Win32Call) : Prop where
  opened : openedBy (calls.map .win32) = pipeHandle.toList
  closed : passedToClose (calls.map .win32) = []
  sessions : sessionsOf (calls.map .win32) = []
  hung : hungUp (calls.map .win32) = []

theorem opening_createFileA (pipeName : String) (creation : BitVec 32) (handle : Option Nat) :
    Opening handle [.createFileA pipeName creation handle] := by
  cases handle <;> exact ⟨rfl, rfl, rfl, rfl⟩

/-- Calls that open, close and hang up nothing follow. -/
theorem Opening.append (opening : Opening pipeHandle systemCalls) {more : List Win32Call}
    (idle : Opening none more) : Opening pipeHandle (systemCalls ++ more) where
  opened := by
    rw [List.map_append, openedBy_append, opening.opened, idle.opened]
    exact List.append_nil _
  closed := by
    rw [List.map_append, passedToClose_append, opening.closed, idle.closed]
    rfl
  sessions := by
    rw [List.map_append, sessionsOf_append, opening.sessions, idle.sessions]
    rfl
  hung := by
    rw [List.map_append, hungUp_append, opening.hung, idle.hung]
    rfl

/-- The first block of `connect`: an exception with a handle is one of the wait. -/
theorem opening_openPipe {outcome : Except Exception (Option Nat)}
    (opened : openPipe pipeName creationOpt timeOutMillisec answers =
      some (outcome, systemCalls)) :
    (win32FileCreationOpt creationOpt = none ∧ Opening none systemCalls ∧ ∃ e, outcome = .error e) ∨
    (win32FileCreationOpt creationOpt ≠ none ∧ Opening answers.createFileA systemCalls ∧
      ((∃ e, outcome = .error e ∧ (answers.createFileA ≠ none →
          answers.createFileError = errorPipeBusy ∧ answers.waitNamedPipeA = false)) ∨
        outcome = .ok answers.createFileA ∧
          (answers.createFileError = errorPipeBusy → answers.waitNamedPipeA = true))) := by
  cases valid : win32FileCreationOpt creationOpt with
  | none =>
      rw [openPipe_invalid valid] at opened
      cases opened
      exact .inl ⟨rfl, ⟨rfl, rfl, rfl, rfl⟩, _, rfl⟩
  | some creation =>
      refine .inr ⟨Option.some_ne_none _, ?_⟩
      have file := opening_createFileA pipeName creation answers.createFileA
      by_cases busy : answers.createFileError = errorPipeBusy
      · cases waited : answers.waitNamedPipeA with
        | true =>
            rw [openPipe_waited valid busy waited] at opened
            cases opened
            exact ⟨file.append ⟨rfl, rfl, rfl, rfl⟩, .inr ⟨rfl, fun _ => rfl⟩⟩
        | false =>
            rw [openPipe_timedOut valid busy waited] at opened
            obtain ⟨buffer, _, same⟩ := Option.map_eq_some_iff.mp opened
            cases same
            exact ⟨file.append ⟨rfl, rfl, rfl, rfl⟩, .inl ⟨_, rfl, fun _ => ⟨busy, rfl⟩⟩⟩
      · cases given : answers.createFileA with
        | none =>
            obtain ⟨e, refused⟩ := openPipe_refused valid given busy
            rw [refused] at opened
            cases opened
            rw [given] at file
            exact ⟨file, .inl ⟨e, rfl, fun something => absurd rfl something⟩⟩
        | some handle =>
            rw [openPipe_idle valid given busy] at opened
            cases opened
            rw [given] at file
            exact ⟨file, .inr ⟨rfl, fun now => absurd now busy⟩⟩

/-- What a call of `connect` that returns or throws has done. -/
def Effect (this after : Win32NamedPipe) (creationOpt : CreationOption)
    (readMode : PipeDataTransferMode) (answers : Win32Answers) (systemCalls : List Win32Call) :
    Prop :=
  (Opening none systemCalls ∧ after.streamHandler = this.streamHandler ∧
    (after.streamHandler ≠ none → after.isServerSide = this.isServerSide) ∧
    (this.streamHandler = none → win32FileCreationOpt creationOpt ≠ none →
      answers.createFileA = none)) ∨
  ∃ handle, this.streamHandler = none ∧ win32FileCreationOpt creationOpt ≠ none ∧
    answers.createFileA = some handle ∧ Opening (some handle) systemCalls ∧
    ((Completes readMode answers ∧ after.streamHandler = some handle ∧
        after.isServerSide = false) ∨
      (¬ Completes readMode answers ∧ after.streamHandler = none))

theorem effect_of_opening (vacant : this.streamHandler = none)
    (valid : win32FileCreationOpt creationOpt ≠ none)
    (opening : Opening answers.createFileA systemCalls)
    (held : (Completes readMode answers ∧ after.streamHandler = answers.createFileA ∧
        after.isServerSide = false) ∨
      ((answers.createFileA ≠ none → ¬ Completes readMode answers) ∧
        after.streamHandler = none)) :
    Effect this after creationOpt readMode answers systemCalls := by
  cases given : answers.createFileA with
  | none =>
      rw [given] at opening held
      have nothing : after.streamHandler = none := held.elim (fun h => h.2.1) fun h => h.2
      exact .inl ⟨opening, nothing.trans vacant.symm, fun something => absurd nothing something,
        fun _ _ => given⟩
  | some handle =>
      rw [given] at opening held
      refine .inr ⟨handle, vacant, valid, given, opening, held.imp_right fun failed => ?_⟩
      exact ⟨failed.1 (Option.some_ne_none _), failed.2⟩

theorem connect_effect
    (ended : this.connect pipeName creationOpt readMode timeOutMillisec answers =
      some (result, after, systemCalls)) :
    Effect this after creationOpt readMode answers systemCalls := by
  cases occupied : this.streamHandler with
  | some handle =>
      simp only [connect, occupied, Option.isSome_some, if_true] at ended
      cases ended
      refine .inl ⟨⟨rfl, rfl, rfl, rfl⟩, rfl, fun _ => rfl, fun vacant => ?_⟩
      rw [occupied] at vacant
      cases vacant
  | none =>
      simp only [connect, occupied, Option.isSome_none, Bool.false_eq_true, if_false] at ended
      split at ended
      · cases ended
      · rename_i e opening opened
        cases ended
        obtain ⟨invalid, idle, _⟩ | ⟨valid, file, ⟨_, _, waited⟩ | ⟨returned, _⟩⟩ :=
          opening_openPipe opened
        · exact .inl ⟨idle, rfl, fun _ => rfl, fun _ valid => absurd invalid valid⟩
        · refine effect_of_opening occupied valid file
            (.inr ⟨fun something completes => ?_, occupied⟩)
          obtain ⟨busy, failed⟩ := waited something
          exact Bool.false_ne_true (failed.symm.trans (completes.1 busy))
        · cases returned
      · rename_i pipeHandle opening opened
        obtain ⟨_, _, _, thrown⟩ | ⟨valid, file, ⟨_, thrown, _⟩ | ⟨returned, waited⟩⟩ :=
          opening_openPipe opened
        · cases thrown
        · cases thrown
        · cases returned
          cases mode : win32PipeReadMode readMode with
          | none =>
              simp only [changeReadMode, mode, List.append_nil] at ended
              cases ended
              exact effect_of_opening occupied valid file
                (.inr ⟨fun _ completes => completes.2.1 mode, occupied⟩)
          | some value =>
              simp only [changeReadMode, mode] at ended
              have all : Opening answers.createFileA (opening ++
                  [.setNamedPipeHandleState answers.createFileA value
                    answers.setNamedPipeHandleState]) :=
                file.append ⟨rfl, rfl, rfl, rfl⟩
              cases set : answers.setNamedPipeHandleState with
              | false =>
                  simp only [set, Bool.false_eq_true, if_false] at ended all
                  cases ended
                  refine effect_of_opening occupied valid all
                    (.inr ⟨fun _ completes => ?_, occupied⟩)
                  exact Bool.false_ne_true (set.symm.trans completes.2.2.1)
              | true =>
                  simp only [set, if_true] at ended all
                  cases assigned : answers.assign with
                  | some message =>
                      simp only [assigned] at ended
                      cases ended
                      refine effect_of_opening occupied valid all
                        (.inr ⟨fun _ completes => ?_, rfl⟩)
                      exact Option.some_ne_none _ (assigned.symm.trans completes.2.2.2)
                  | none =>
                      simp only [assigned] at ended
                      cases ended
                      refine effect_of_opening occupied valid all
                        (.inl ⟨⟨waited, ?_, set, assigned⟩, rfl, rfl⟩)
                      rw [mode]
                      exact Option.some_ne_none _

end Connect

section Accept

variable {pipeName : String} {ioMode : PipeDataTransferMode}
variable {inBufferSize outBufferSize : BitVec 32}
variable {answers : AcceptAnswers} {outcome : Except Exception Win32NamedPipe}

/-- What `accept` has done: all it got is closed again, or is in the session. -/
theorem accept_effect
    (ended : Win32NamedPipeAcceptor.accept pipeName ioMode inBufferSize outBufferSize answers =
      (outcome, calls)) :
    hungUp calls = [] ∧
    ((∃ e, outcome = .error e ∧ sessionsOf calls = [] ∧
        ((openedBy calls = [] ∧ passedToClose calls = []) ∨
          ∃ handle front, answers.createNamedPipeA = some handle ∧
            calls = front ++ [.win32 (.closeHandle handle)] ∧ openedBy calls = [handle] ∧
            passedToClose calls = [handle] ∧ passedToClose front = [])) ∨
      ∃ pipe handle, outcome = .ok pipe ∧ answers.createNamedPipeA = some handle ∧
        pipe.session = some (handle, true) ∧ openedBy calls = [handle] ∧
        sessionsOf calls = [handle] ∧ passedToClose calls = []) := by
  simp only [Win32NamedPipeAcceptor.accept] at ended
  split at ended
  · cases ended
    exact ⟨rfl, .inl ⟨_, rfl, rfl, .inl ⟨rfl, rfl⟩⟩⟩
  · split at ended
    · rename_i given
      cases ended
      rw [given]
      exact ⟨rfl, .inl ⟨_, rfl, rfl, .inl ⟨rfl, rfl⟩⟩⟩
    · rename_i handle given
      split at ended
      · rename_i connected
        cases ended
        rw [given, connected]
        exact ⟨rfl, .inr ⟨_, handle, rfl, rfl, rfl, rfl, rfl, rfl⟩⟩
      · rename_i refused
        cases ended
        rw [given, Bool.eq_false_of_not_eq_true refused]
        exact ⟨rfl, .inl ⟨_, rfl, rfl, .inr ⟨handle, _, rfl, rfl, rfl, rfl, rfl⟩⟩⟩

end Accept

theorem sessionAt_put (this : Option Win32NamedPipe) :
    (s.put o this).sessionAt =
      Function.update s.sessionAt o (this.bind Win32NamedPipe.session) := by
  funext o'
  simp only [sessionAt, put]
  by_cases same : o' = o
  · rw [same, Function.update_self, Function.update_self]
  · rw [Function.update_of_ne same, Function.update_of_ne same]
    rfl

theorem handleOf_put (this : Option Win32NamedPipe) :
    (s.put o this).handleOf =
      Function.update s.handleOf o (this.bind Win32NamedPipe.streamHandler) := by
  funext o'
  simp only [handleOf, put]
  by_cases same : o' = o
  · rw [same, Function.update_self, Function.update_self]
  · rw [Function.update_of_ne same, Function.update_of_ne same]
    rfl

theorem sessionAt_of_live (live : s.objects o = some this) : s.sessionAt o = this.session := by
  simp only [sessionAt, live, Option.bind_some]

theorem handleOf_of_live (live : s.objects o = some this) :
    s.handleOf o = this.streamHandler := by
  simp only [handleOf, live, Option.bind_some]

theorem handleOf_of_dead (dead : s.objects o = none) : s.handleOf o = none := by
  simp only [handleOf, dead, Option.bind_none]

/-- What closing a stream calls. -/
theorem disconnect_effect (this : Win32NamedPipe) :
    this.disconnect.1.streamHandler = none ∧
      ((this.streamHandler = none ∧ this.disconnect.2 = []) ∨
        ∃ h, this.streamHandler = some h ∧ this.disconnect.2 =
          (if this.isServerSide then [.flushFileBuffers h, .disconnectNamedPipe h] else []) ++
            [.closeHandle h]) := by
  simp only [Win32NamedPipe.disconnect]
  split
  · rename_i closed
    exact ⟨closed, .inl ⟨closed, rfl⟩⟩
  · rename_i h opened
    exact ⟨rfl, .inr ⟨h, opened, rfl⟩⟩

theorem orderly_disconnect (orderly : Orderly s.sessionAt s.calls)
    (live : s.objects o = some this) :
    Orderly (Function.update s.sessionAt o none) (s.calls ++ this.disconnect.2.map .win32) := by
  obtain ⟨_, ⟨_, nothing⟩ | ⟨h, opened, calls⟩⟩ := disconnect_effect this
  · rw [nothing]
    exact (orderly.drop o).log rfl fun _ listed => absurd listed List.not_mem_nil
  · have holds : s.sessionAt o = some (h, this.isServerSide) := by
      rw [sessionAt_of_live live, Win32NamedPipe.session, opened, Option.map_some]
    rw [calls]
    refine orderly.hangUp holds ?_ fun x listed => ?_
    · cases this.isServerSide <;> rfl
    · revert listed
      cases this.isServerSide <;> simp [hungUp]

/-- Every step keeps the handles and the calls in order. -/
theorem orderly_step (orderly : Orderly s.sessionAt s.calls) (moved : step s a = some t) :
    Orderly t.sessionAt t.calls := by
  cases a with
  | create o garbage =>
      simp only [step] at moved
      split at moved
      · cases moved
        rw [sessionAt_put]
        exact orderly.drop o
      · cases moved
  | accept o pipeName ioMode inBufferSize outBufferSize answers =>
      simp only [step] at moved
      split at moved
      · rename_i enabled
        split at moved
        · rename_i e calls ended
          cases moved
          obtain ⟨quiet, ⟨_, _, alone, _⟩ | ⟨_, _, returned, _⟩⟩ := accept_effect ended
          · refine orderly.log alone ?_
            rw [quiet]
            exact fun _ listed => absurd listed List.not_mem_nil
          · cases returned
        · rename_i pipe calls ended
          cases moved
          obtain ⟨quiet, ⟨_, thrown, _⟩ |
            ⟨_, handle, returned, given, session, opened, connected, _⟩⟩ := accept_effect ended
          · cases thrown
          · cases returned
            have fresh := enabled.2 handle given
            have server : sessionsOf calls = if true then [handle] else [] := connected
            rw [sessionAt_put, Option.bind_some, session]
            exact orderly.enter fresh opened server quiet o
      · cases moved
  | connect o pipeName creationOpt readMode timeOutMillisec answers =>
      simp only [step] at moved
      split at moved
      · cases moved
      · rename_i this live
        split at moved
        · rename_i fresh
          split at moved
          · cases moved
          · rename_i result after systemCalls ended
            cases moved
            rw [sessionAt_put, Option.bind_some]
            have idle {pipeHandle : Option Nat} (opening : Opening pipeHandle systemCalls) :
                Orderly s.sessionAt (s.calls ++ systemCalls.map .win32) := by
              refine orderly.log opening.sessions ?_
              rw [opening.hung]
              exact fun _ listed => absurd listed List.not_mem_nil
            obtain ⟨opening, same, kept, _⟩ | ⟨handle, vacant, _, given, opening, held⟩ :=
              connect_effect ended
            · have unchanged : after.session = this.session := by
                simp only [Win32NamedPipe.session, same]
                cases opened : this.streamHandler with
                | none => rfl
                | some h =>
                    rw [kept (by rw [same, opened]; exact Option.some_ne_none h)]
              rw [unchanged, ← sessionAt_of_live live]
              change Orderly (Function.update s.sessionAt o (s.sessionAt o)) _
              rw [Function.update_eq_self]
              exact idle opening
            · obtain ⟨_, opened, client⟩ | ⟨_, nothing⟩ := held
              · have session : after.session = some (handle, false) := by
                  simp only [Win32NamedPipe.session, opened, client, Option.map_some]
                have none_connected : sessionsOf (systemCalls.map .win32) =
                    if false then [handle] else [] := opening.sessions
                rw [session]
                exact orderly.enter (fresh handle given) opening.opened none_connected
                  opening.hung o
              · have session : after.session = none := by
                  simp only [Win32NamedPipe.session, nothing, Option.map_none]
                rw [session]
                exact (idle opening).drop o
        · cases moved
  | disconnect o =>
      simp only [step] at moved
      split at moved
      · cases moved
      · rename_i this live
        cases moved
        have session : this.disconnect.1.session = none := by
          simp only [Win32NamedPipe.session, (disconnect_effect this).1, Option.map_none]
        rw [sessionAt_put, Option.bind_some, session]
        exact orderly_disconnect orderly live
  | moveConstruct o other =>
      simp only [step] at moved
      split at moved
      · rename_i rhs _ live
        cases moved
        rw [sessionAt_put, sessionAt_put, Option.bind_some, Option.bind_some,
          ← sessionAt_of_live live]
        exact orderly.move o other
      · cases moved
  | moveAssign o other =>
      simp only [step] at moved
      split at moved
      · rename_i this rhs _ live
        cases moved
        have closed : Orderly s.sessionAt (s.calls ++ this.closing) := by
          cases opened : this.streamHandler <;>
            exact orderly.log (by simp [Win32NamedPipe.closing, opened, sessionsOf])
              (by simp [Win32NamedPipe.closing, opened, hungUp])
        rw [sessionAt_put, sessionAt_put, Option.bind_some, Option.bind_some,
          ← sessionAt_of_live live]
        exact closed.move o other
      · cases moved
  | destroy o =>
      simp only [step] at moved
      split at moved
      · cases moved
      · rename_i this live
        cases moved
        rw [sessionAt_put]
        exact orderly_disconnect orderly live

theorem orderly_init : Orderly ({} : Pipes).sessionAt [] where
  known holds := by cases holds
  exclusive holds _ := by cases holds
  flagged holds := by cases holds
  sessions _ listed := absurd listed List.not_mem_nil
  hung _ listed := absurd listed List.not_mem_nil

theorem Orderly.flags (orderly : Orderly s.sessionAt s.calls) : Flagged s := by
  intro o this h live opened
  apply orderly.flagged (o := o)
  rw [sessionAt_of_live live, Win32NamedPipe.session, opened, Option.map_some]

section Ledger

variable {left : Option Win32NamedPipe}

theorem ledger_log_put (calls : List PipeCall) (left : Option Win32NamedPipe) :
    ((s.log calls).put o left).ledger =
      { held := Function.update s.handleOf o (left.bind Win32NamedPipe.streamHandler)
        entered := openedBy s.calls ++ openedBy calls
        attempts := s.ledger.attempts ++
          (passedToClose calls).map fun handle => (handle, true) } := by
  simp only [ledger, handleOf_put]
  simp only [put, log, openedBy_append, passedToClose_append, List.map_append]
  rfl

theorem ledger_idle (opened : openedBy calls = []) (closed : passedToClose calls = [])
    (kept : left.bind Win32NamedPipe.streamHandler = s.handleOf o) :
    ((s.log calls).put o left).ledger = s.ledger := by
  rw [ledger_log_put, opened, closed, kept, Function.update_eq_self, List.map_nil,
    List.append_nil, List.append_nil]
  rfl

theorem ledger_enter (opened : openedBy calls = [h]) (closed : passedToClose calls = [])
    (holds : left.bind Win32NamedPipe.streamHandler = some h) :
    ((s.log calls).put o left).ledger = s.ledger.enter o h := by
  rw [ledger_log_put, opened, closed, holds, List.map_nil, List.append_nil]
  rfl

theorem ledger_lose (vacant : s.handleOf o = none) (opened : openedBy calls = [h])
    (closed : passedToClose calls = []) (nothing : left.bind Win32NamedPipe.streamHandler = none) :
    ((s.log calls).put o left).ledger = s.ledger.lose h := by
  rw [ledger_log_put, opened, closed, nothing, ← vacant, Function.update_eq_self, List.map_nil,
    List.append_nil]
  rfl

theorem ledger_release (opened : openedBy calls = []) (closed : passedToClose calls = [h])
    (nothing : left.bind Win32NamedPipe.streamHandler = none) :
    ((s.log calls).put o left).ledger = s.ledger.release o h := by
  rw [ledger_log_put, opened, closed, nothing, List.append_nil]
  rfl

/-- A handle that is returned and closed in one call. -/
theorem ledger_pass (vacant : s.handleOf o = none) (opened : openedBy calls = [h])
    (closed : passedToClose calls = [h]) :
    (s.log calls).ledger = (s.ledger.enter o h).release o h := by
  have unchanged : Function.update s.handleOf o none = s.handleOf := by
    rw [← vacant, Function.update_eq_self]
  simp only [ledger, Ledger.release, Ledger.enter, Function.update_idem, unchanged, log,
    openedBy_append, passedToClose_append, opened, closed, List.map_append]
  rfl

theorem ledger_move {rhs : Win32NamedPipe} (live : s.objects other = some rhs) :
    ((s.put o (some rhs)).put other (some rhs.clear)).ledger = s.ledger.move o other := by
  simp only [ledger, handleOf_put, Option.bind_some, ← handleOf_of_live live]
  rfl

/-- What an object holds is closed and what another one holds comes there. -/
theorem ledger_moveAssign {rhs : Win32NamedPipe} (live : s.objects other = some rhs)
    (opened : openedBy calls = []) (closed : passedToClose calls = [h]) :
    (((s.log calls).put o (some rhs)).put other (some rhs.clear)).ledger =
      (s.ledger.release o h).move o other := by
  have live' : (s.log calls).objects other = some rhs := live
  rw [ledger_move live', Ledger.move_release]
  simp only [ledger, Ledger.move, log, openedBy_append, passedToClose_append, opened, closed,
    List.append_nil, List.map_append]
  rfl

/-- What closing a stream calls, for the ledger. -/
theorem ledger_disconnect (live : s.objects o = some this)
    (nothing : left.bind Win32NamedPipe.streamHandler = none) :
    ((s.log (this.disconnect.2.map .win32)).put o left).ledger =
      match s.handleOf o with
      | none => s.ledger
      | some h => s.ledger.release o h := by
  obtain ⟨_, ⟨closed, idle⟩ | ⟨h, opened, hung⟩⟩ := disconnect_effect this
  · rw [handleOf_of_live live, closed, idle]
    apply ledger_idle rfl rfl
    rw [nothing, handleOf_of_live live, closed]
  · rw [handleOf_of_live live, opened, hung]
    apply ledger_release _ _ nothing
    · cases this.isServerSide <;> rfl
    · cases this.isServerSide <;> rfl

theorem sound_disconnect (sound : s.ledger.Sound) (live : s.objects o = some this)
    (nothing : left.bind Win32NamedPipe.streamHandler = none) :
    ((s.log (this.disconnect.2.map .win32)).put o left).ledger.Sound := by
  rw [ledger_disconnect live nothing]
  cases held : s.handleOf o with
  | none => exact sound
  | some h => exact sound.release held

end Ledger

/-- The steps that are admitted keep the ledger. -/
theorem sound_step (sound : s.ledger.Sound) (kept : Kept s a) (moved : step s a = some t) :
    t.ledger.Sound := by
  cases a with
  | create o garbage =>
      simp only [step] at moved
      split at moved
      · rename_i dead
        cases moved
        have same : s.log [] = s := by
          simp only [log, List.append_nil]
        have idle : (s.put o (some { isServerSide := garbage })).ledger = s.ledger := by
          have unchanged :
              ((s.log []).put o (some { isServerSide := garbage })).ledger = s.ledger :=
            ledger_idle rfl rfl (handleOf_of_dead dead).symm
          rw [same] at unchanged
          exact unchanged
        rw [idle]
        exact sound
      · cases moved
  | accept o pipeName ioMode inBufferSize outBufferSize answers =>
      simp only [step] at moved
      split at moved
      · rename_i enabled
        have vacant : s.handleOf o = none := handleOf_of_dead enabled.1
        split at moved
        · rename_i e calls ended
          cases moved
          obtain ⟨_, ⟨_, _, _, ⟨opened, closed⟩ | ⟨handle, _, given, _, opened, closed, _⟩⟩ |
            ⟨_, _, returned, _⟩⟩ := accept_effect ended
          · have same : (s.log calls).ledger = s.ledger := by
              simp only [ledger, log, openedBy_append, passedToClose_append, opened, closed,
                List.append_nil]
              rfl
            rw [same]
            exact sound
          · have entered := sound.enter vacant (enabled.2 handle given)
            rw [ledger_pass vacant opened closed]
            exact entered.release (Function.update_self _ _ _)
          · cases returned
        · rename_i pipe calls ended
          cases moved
          obtain ⟨_, ⟨_, thrown, _⟩ | ⟨_, handle, returned, given, session, opened, _, closed⟩⟩ :=
            accept_effect ended
          · cases thrown
          · cases returned
            have holds : (some pipe).bind Win32NamedPipe.streamHandler = some handle := by
              obtain ⟨h, opened, same⟩ := Option.map_eq_some_iff.mp session
              rw [← (Prod.mk.inj same).1]
              exact opened
            rw [ledger_enter opened closed holds]
            exact sound.enter vacant (enabled.2 handle given)
      · cases moved
  | connect o pipeName creationOpt readMode timeOutMillisec answers =>
      simp only [step] at moved
      split at moved
      · cases moved
      · rename_i this live
        split at moved
        · rename_i fresh
          split at moved
          · cases moved
          · rename_i result after systemCalls ended
            cases moved
            obtain ⟨opening, same, _⟩ | ⟨handle, vacant, valid, given, opening, held⟩ :=
              connect_effect ended
            · have holds : (some after).bind Win32NamedPipe.streamHandler = s.handleOf o :=
                same.trans (handleOf_of_live live).symm
              rw [ledger_idle opening.opened opening.closed holds]
              exact sound
            · rw [← handleOf_of_live live] at vacant
              obtain ⟨_, opened, _⟩ | ⟨incomplete, _⟩ := held
              · have holds : (some after).bind Win32NamedPipe.streamHandler = some handle := opened
                rw [ledger_enter opening.opened opening.closed holds]
                exact sound.enter vacant (fresh handle given)
              · exact absurd (kept vacant valid (by rw [given]; exact Option.some_ne_none _))
                  incomplete
        · cases moved
  | disconnect o =>
      simp only [step] at moved
      split at moved
      · cases moved
      · rename_i this live
        cases moved
        exact sound_disconnect sound live (disconnect_effect this).1
  | moveConstruct o other =>
      simp only [step] at moved
      split at moved
      · rename_i rhs dead live
        cases moved
        rw [ledger_move live]
        exact sound.move (handleOf_of_dead dead) other
      · cases moved
  | moveAssign o other =>
      simp only [step] at moved
      split at moved
      · rename_i this rhs live live'
        cases moved
        cases opened : this.streamHandler with
        | none =>
            have same : s.log this.closing = s := by
              simp only [Win32NamedPipe.closing, opened, Option.toList_none, List.map_nil, log,
                List.append_nil]
            rw [same, ledger_move live']
            exact sound.move ((handleOf_of_live live).trans opened) other
        | some h =>
            have holds : s.handleOf o = some h := (handleOf_of_live live).trans opened
            have released := sound.release holds
            have closing : this.closing = [.win32 (.closeHandle h)] := by
              simp only [Win32NamedPipe.closing, opened, Option.toList_some, List.map_cons,
                List.map_nil]
            rw [closing, ledger_moveAssign live' rfl rfl]
            exact released.move (Function.update_self _ _ _) other
      · cases moved
  | destroy o =>
      simp only [step] at moved
      split at moved
      · cases moved
      · rename_i this live
        cases moved
        exact sound_disconnect sound live rfl

theorem singleOwner_iff : SingleOwner s ↔ s.ledger.Exact := by
  have released {h : Nat} : (h, true) ∈ s.ledger.attempts ↔ h ∈ passedToClose s.calls := by
    simp only [ledger, List.mem_map, Prod.mk.injEq, and_true, exists_eq_right]
  have once : s.ledger.attempts.Pairwise
      (fun first later => first.2 = true → later.1 ≠ first.1) ↔ (passedToClose s.calls).Nodup := by
    simp only [ledger, List.pairwise_map, forall_const, List.Nodup, ne_comm]
  constructor
  · intro single
    refine ⟨fun h opened unreleased _ => ?_, once.mpr single.once⟩
    exact single.owned h opened fun closed => unreleased (released.mpr closed)
  · intro single
    refine ⟨fun h opened unclosed => ?_, once.mp single.once⟩
    exact single.owned h opened (fun attempt => unclosed (released.mp attempt))
      List.not_mem_nil

/-- A handle that `connect` has got and does not keep is lost. -/
theorem kept_of_singleOwner (sound : s.ledger.Sound) (moved : step s a = some t)
    (single : SingleOwner t) : Kept s a := by
  cases a with
  | connect o pipeName creationOpt readMode timeOutMillisec answers =>
      intro vacant valid given
      by_contra incomplete
      simp only [step] at moved
      split at moved
      · cases moved
      · rename_i this live
        split at moved
        · rename_i fresh
          split at moved
          · cases moved
          · rename_i result after systemCalls ended
            cases moved
            rw [handleOf_of_live live] at vacant
            obtain ⟨_, _, _, refused⟩ | ⟨handle, _, _, got, opening, held⟩ := connect_effect ended
            · exact given (refused vacant valid)
            · obtain ⟨complete, _⟩ | ⟨_, nothing⟩ := held
              · exact incomplete complete
              · have dropped : (some after).bind Win32NamedPipe.streamHandler = none := nothing
                rw [singleOwner_iff, ledger_lose ((handleOf_of_live live).trans vacant)
                  opening.opened opening.closed dropped] at single
                exact sound.not_exact_lose (fresh handle got) single
        · cases moved
  | _ => trivial

section Parting

/-- Calls that close nothing but what may be closed follow. -/
theorem PartedFirst.append (parted : PartedFirst s) (follow : t.calls = s.calls ++ later)
    (now : ∀ before h after, later = before ++ .win32 (.closeHandle h) :: after →
      h ∈ sessionsOf (s.calls ++ before) → ∃ front, before = front ++
        [.win32 (.flushFileBuffers h), .win32 (.disconnectNamedPipe h)]) : PartedFirst t := by
  intro before h after calls session
  rw [follow] at calls
  obtain ⟨middle, rfl, rest⟩ | ⟨middle, old, rest⟩ := List.append_eq_append_iff.mp calls
  · obtain ⟨front, rfl⟩ := now middle h after rest session
    exact ⟨s.calls ++ front, (List.append_assoc _ _ _).symm⟩
  · cases middle with
    | nil =>
        rw [List.append_nil] at old
        obtain ⟨front, none_before⟩ := now [] h after rest.symm (by
          rw [List.append_nil, old]
          exact session)
        exact absurd none_before.symm (List.append_ne_nil_of_right_ne_nil _ (List.cons_ne_nil _ _))
    | cons call middle =>
        obtain ⟨rfl, _⟩ := List.cons.inj rest
        exact parted before h middle old session

/-- Behind the last call that is a close, nothing is closed. -/
theorem eq_of_closed_last {before front after : List PipeCall} {h h' : Nat}
    (unclosed : passedToClose front = [])
    (same : front ++ [.win32 (.closeHandle h')] = before ++ .win32 (.closeHandle h) :: after) :
    before = front ∧ h' = h := by
  obtain ⟨middle, rfl, rest⟩ | ⟨middle, rfl, rest⟩ := List.append_eq_append_iff.mp same
  · cases middle with
    | nil =>
        obtain ⟨head, _⟩ := List.cons.inj rest
        cases head
        exact ⟨List.append_nil _, rfl⟩
    | cons _ middle =>
        obtain ⟨_, impossible⟩ := List.cons.inj rest
        exact absurd impossible.symm
          (List.append_ne_nil_of_right_ne_nil _ (List.cons_ne_nil _ _))
  · cases middle with
    | nil =>
        obtain ⟨head, _⟩ := List.cons.inj rest
        cases head
        exact ⟨(List.append_nil _).symm, rfl⟩
    | cons call middle =>
        obtain ⟨rfl, _⟩ := List.cons.inj rest
        rw [passedToClose_append] at unclosed
        exact absurd (List.append_eq_nil_iff.mp unclosed).2 (List.cons_ne_nil _ _)

theorem passedToClose_nil : passedToClose [] = [] := rfl

theorem PartedFirst.quiet (parted : PartedFirst s) (follow : t.calls = s.calls ++ later)
    (unclosed : passedToClose later = []) : PartedFirst t := by
  refine parted.append follow fun before h after same => ?_
  rw [same, passedToClose_append] at unclosed
  exact absurd (List.append_eq_nil_iff.mp unclosed).2 (List.cons_ne_nil _ _)

theorem parted_disconnect (parted : PartedFirst s) (orderly : Orderly s.sessionAt s.calls)
    (live : s.objects o = some this)
    (follow : t.calls = s.calls ++ this.disconnect.2.map .win32) : PartedFirst t := by
  obtain ⟨_, ⟨_, idle⟩ | ⟨handle, opened, hung⟩⟩ := disconnect_effect this
  · rw [idle] at follow
    exact parted.quiet follow rfl
  · rw [hung, List.map_append] at follow
    refine parted.append follow fun before h after same session => ?_
    have holds : s.sessionAt o = some (handle, this.isServerSide) := by
      rw [sessionAt_of_live live, Win32NamedPipe.session, opened, Option.map_some]
    cases flag : this.isServerSide with
    | false =>
        rw [flag] at same holds
        obtain ⟨rfl, rfl⟩ := eq_of_closed_last rfl same
        have known : handle ∈ sessionsOf s.calls := by
          rw [sessionsOf_append] at session
          exact (List.mem_append.mp session).resolve_right List.not_mem_nil
        cases (orderly.flagged holds).mpr known
    | true =>
        rw [flag] at same
        obtain ⟨rfl, rfl⟩ := eq_of_closed_last rfl same
        exact ⟨[], rfl⟩

theorem parted_step (parted : PartedFirst s) (orderly : Orderly s.sessionAt s.calls)
    (gentle : Gentle s a) (moved : step s a = some t) : PartedFirst t := by
  cases a with
  | create o garbage =>
      simp only [step] at moved
      split at moved
      · cases moved
        exact parted
      · cases moved
  | accept o pipeName ioMode inBufferSize outBufferSize answers =>
      simp only [step] at moved
      split at moved
      · rename_i enabled
        split at moved
        · rename_i e calls ended
          cases moved
          obtain ⟨_, ⟨_, _, alone, ⟨_, closed⟩ |
            ⟨handle, front, given, same, _, _, unclosed⟩⟩ | ⟨_, _, returned, _⟩⟩ :=
              accept_effect ended
          · exact parted.quiet rfl closed
          · refine parted.append rfl fun before h after split session => ?_
            rw [same] at split alone
            obtain ⟨rfl, rfl⟩ := eq_of_closed_last unclosed split
            rw [sessionsOf_append] at alone session
            rw [(List.append_eq_nil_iff.mp alone).1, List.append_nil] at session
            exact absurd (orderly.sessions _ session) (enabled.2 _ given)
          · cases returned
        · rename_i pipe calls ended
          cases moved
          obtain ⟨_, ⟨_, thrown, _⟩ | ⟨_, _, _, _, _, _, _, closed⟩⟩ := accept_effect ended
          · cases thrown
          · exact parted.quiet rfl closed
      · cases moved
  | connect o pipeName creationOpt readMode timeOutMillisec answers =>
      simp only [step] at moved
      split at moved
      · cases moved
      · split at moved
        · split at moved
          · cases moved
          · rename_i systemCalls ended
            cases moved
            obtain ⟨opening, _⟩ | ⟨_, _, _, _, opening, _⟩ := connect_effect ended
            · exact parted.quiet rfl opening.closed
            · exact parted.quiet rfl opening.closed
        · cases moved
  | disconnect o =>
      simp only [step] at moved
      split at moved
      · cases moved
      · rename_i this live
        cases moved
        exact parted_disconnect parted orderly live rfl
  | moveConstruct o other =>
      simp only [step] at moved
      split at moved
      · cases moved
        exact parted
      · cases moved
  | moveAssign o other =>
      simp only [step] at moved
      split at moved
      · rename_i this rhs live _
        cases moved
        refine parted.append rfl fun before h after same session => ?_
        cases opened : this.streamHandler with
        | none =>
            simp only [Win32NamedPipe.closing, opened, Option.toList_none, List.map_nil] at same
            exact absurd same.symm (List.append_ne_nil_of_right_ne_nil _ (List.cons_ne_nil _ _))
        | some handle =>
            simp only [Win32NamedPipe.closing, opened, Option.toList_some, List.map_cons,
              List.map_nil] at same
            obtain ⟨rfl, rfl⟩ := eq_of_closed_last passedToClose_nil same
            rw [List.append_nil] at session
            exact absurd session (gentle _ ((handleOf_of_live live).trans opened))
      · cases moved
  | destroy o =>
      simp only [step] at moved
      split at moved
      · cases moved
      · rename_i this live
        cases moved
        exact parted_disconnect parted orderly live rfl

/-- An assignment to an open session closes it right away. -/
theorem gentle_of_partedFirst (orderly : Orderly s.sessionAt s.calls)
    (moved : step s a = some t) (parted : PartedFirst t) : Gentle s a := by
  cases a with
  | moveAssign o other =>
      intro h holds session
      simp only [step] at moved
      split at moved
      · rename_i this rhs live _
        cases moved
        have opened : this.streamHandler = some h := (handleOf_of_live live).symm.trans holds
        have calls : s.calls ++ this.closing = s.calls ++ .win32 (.closeHandle h) :: [] := by
          simp only [Win32NamedPipe.closing, opened, Option.toList_some, List.map_cons,
            List.map_nil]
        obtain ⟨front, before⟩ := parted s.calls h [] calls session
        have hung : h ∈ hungUp s.calls := by
          rw [before, hungUp_append]
          exact List.mem_append_right _ (.head _)
        apply (orderly.hung h hung).2 o this.isServerSide
        rw [sessionAt_of_live live, Win32NamedPipe.session, opened, Option.map_some]
      · cases moved
  | _ => trivial

end Parting

variable {as : List PipeAction}

/-- The invariant of every run. -/
theorem orderly_run (run : Run step unguarded {} as t) : Orderly t.sessionAt t.calls :=
  run.invariant (I := fun u => Orderly u.sessionAt u.calls) orderly_init
    fun _ _ _ orderly _ moved => orderly_step orderly moved

theorem singleOwner_iff_kept (run : Run step unguarded {} as t) :
    Throughout step SingleOwner {} as ↔ Run step Kept {} as t :=
  run.throughout_iff (I := fun u => u.ledger.Sound) Ledger.sound_empty
    (fun _ sound => singleOwner_iff.mpr sound.exact)
    (fun _ _ _ sound kept moved => sound_step sound kept moved)
    fun _ _ _ sound moved single => kept_of_singleOwner sound moved single

theorem partedFirst_iff_gentle (run : Run step unguarded {} as t) :
    Throughout step PartedFirst {} as ↔ Run step Gentle {} as t := by
  have initial : PartedFirst {} := fun before _ _ nothing =>
    absurd nothing.symm (List.append_ne_nil_of_right_ne_nil before (List.cons_ne_nil _ _))
  refine run.throughout_iff (I := fun u => PartedFirst u ∧ Orderly u.sessionAt u.calls)
    ⟨initial, orderly_init⟩ (fun _ inside => inside.1) ?_
    fun _ _ _ inside moved parted => gentle_of_partedFirst inside.2 moved parted
  rintro u a v ⟨parted, orderly⟩ gentle moved
  exact ⟨parted_step parted orderly gentle moved, orderly_step orderly moved⟩

/-- In every run of the pipes: every handle that is not yet passed to `CloseHandle` has a
single owner and none is passed to it twice, in all states, exactly if no `connect` fails
once it has got a handle; `FlushFileBuffers` and `DisconnectNamedPipe` are called with every
session of the server's side right before `CloseHandle` is, exactly if no object is assigned
to while it holds one; and the flag of an open stream says which side opened it, so that
only sessions of the server's side are ever passed to these two. -/
theorem pipe_sessions (run : Run step unguarded {} as t) :
    (Throughout step SingleOwner {} as ↔ Run step Kept {} as t) ∧
    (Throughout step PartedFirst {} as ↔ Run step Gentle {} as t) ∧
    Flagged t ∧ ∀ h ∈ hungUp t.calls, h ∈ sessionsOf t.calls := by
  have orderly := orderly_run run
  exact ⟨singleOwner_iff_kept run, partedFirst_iff_gentle run, orderly.flags,
    fun h listed => (orderly.hung h listed).1⟩

/-- A client connects, and the server's side assigns another object to its session. -/
def overwritten : List PipeAction :=
  [.accept 0 "p" .iomodeByte 64 64
      { createNamedPipeA := some 7, createError := 0, connectNamedPipe := true, connectError := 0 },
    .create 1 true,
    .connect 1 "p" .openExisting .iomodeByte 0
      { createFileA := some 8, createFileError := 0, waitNamedPipeA := false, waitError := 0,
        setNamedPipeHandleState := true, setError := 0, assign := none },
    .create 2 false, .moveAssign 0 2]

/-- Nobody else closes the session, and it is not disconnected. -/
theorem pipe_sessions_overwritten :
    Throughout step SingleOwner {} overwritten ∧ ¬ Throughout step PartedFirst {} overwritten := by
  have performed : (exec step Kept {} overwritten).isSome := rfl
  have kept := Run.of_exec performed
  have rough : exec step Gentle {} overwritten = none := rfl
  obtain ⟨owned, parted, _⟩ := pipe_sessions (kept.mono fun _ _ _ => trivial)
  refine ⟨owned.mpr kept, fun all => ?_⟩
  have gentle := Run.iff_exec.mp (parted.mp all)
  rw [rough] at gentle
  cases gentle

end Pipes
end Vee
