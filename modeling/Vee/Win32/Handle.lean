import Vee.Ownership.Ledger
import Vee.Transition.Basic
import Vee.Websocket.Stream

/-!
# Operating system handles and their wrappers

`win32_handle`, and any number of its objects under construction, assignment,
closing and destruction in any order. `NULL` is `none`; a handle that is passed
to a wrapper comes from the system, so it is not one that was passed before.
`CloseHandle` succeeds or fails as the environment decides.

The wrappers keep a ledger of single ownership except in two operations: a move
assignment forgets the handle that is overwritten, and an assignment from
`HANDLE&&` forgets the one that is passed.
-/

namespace Vee

open Ownership Transition

/-- What `CloseHandle` returns, and then `GetLastError`. -/
inductive CloseHandle where
  | succeeded
  | failed (lastError : BitVec 32)
  deriving DecidableEq, Repr

def CloseHandle.ok : CloseHandle → Bool
  | succeeded => true
  | failed _ => false

structure Win32Handle where
  handle : Option Nat := none
  deriving DecidableEq, Repr

namespace Win32Handle

def clear (_ : Win32Handle) : Win32Handle := ⟨none⟩

/-- `win32_handle(win32_handle&&)`: the new object and `other`. -/
def ofOther (other : Win32Handle) : Win32Handle × Win32Handle := (⟨other.handle⟩, other.clear)

/-- `win32_handle(HANDLE&&)`: the new object and what is left in `handle`. -/
def ofHandle (handle : Option Nat) : Win32Handle × Option Nat := (⟨handle⟩, none)

/-- `operator=(HANDLE&&)`; it executes `_handle = _handle`. -/
def assignHandle (this : Win32Handle) (_ : Option Nat) : Win32Handle × Option Nat :=
  ({ this with handle := this.handle }, none)

/-- `close()`, where `__FUNCSIG__` is `funcsig`. -/
def close (funcsig : String) (outcome : CloseHandle) (this : Win32Handle) :
    Except Exception Unit × Win32Handle :=
  match this.handle, outcome with
  | none, _ => (.ok (), this)
  | some _, .failed lastError =>
      (.error ⟨funcsig ++ "> CloseHandle failure! GLE: " ++ toString lastError.toInt,
        ErrorCode.win32CloseHandleFailure.toInt⟩, this)
  | some _, .succeeded => (.ok (), ⟨none⟩)

def closeNothrow (outcome : CloseHandle) (this : Win32Handle) : Win32Handle :=
  match this.handle, outcome with
  | none, _ => this
  | some _, .failed _ => this
  | some _, .succeeded => ⟨none⟩

/-- The two ways to close differ in reporting a failure only. -/
theorem close_eq_closeNothrow (funcsig : String) (outcome : CloseHandle) (this : Win32Handle) :
    (this.close funcsig outcome).2 = this.closeNothrow outcome := by
  simp only [close, closeNothrow]
  cases this.handle <;> cases outcome <;> rfl

end Win32Handle

/-- The live objects by number. The other members are history: the handles that
were passed to a wrapper, the calls of `CloseHandle` with their results, and the
handles of objects whose destructor failed to close them. -/
structure Wrappers where
  objects : Nat → Option Win32Handle := fun _ => none
  passed : List Nat := []
  calls : List (Nat × Bool) := []
  abandoned : List Nat := []

inductive WrapperAction where
  | create (o : Nat)
  | construct (o : Nat) (handle : Option Nat)
  | moveConstruct (o other : Nat)
  | moveAssign (o other : Nat)
  | assign (o : Nat) (handle : Option Nat)
  | close (o : Nat) (outcome : CloseHandle)
  | closeNothrow (o : Nat) (outcome : CloseHandle)
  | destroy (o : Nat) (outcome : CloseHandle)
  deriving DecidableEq, Repr

namespace Wrappers

def put (o : Nat) (this : Option Win32Handle) (s : Wrappers) : Wrappers :=
  { s with objects := Function.update s.objects o this }

/-- A handle from the system. -/
def Fresh (handle : Option Nat) (s : Wrappers) : Prop := ∀ h ∈ handle, h ∉ s.passed

instance (handle : Option Nat) (s : Wrappers) : Decidable (Fresh handle s) :=
  inferInstanceAs (Decidable (∀ h ∈ handle, h ∉ s.passed))

def pass (handle : Option Nat) (s : Wrappers) : Wrappers :=
  { s with passed := s.passed ++ handle.toList }

/-- The call of `CloseHandle`, if one is made. -/
def logClose (this : Win32Handle) (outcome : CloseHandle) (s : Wrappers) : Wrappers :=
  match this.handle with
  | none => s
  | some h => { s with calls := s.calls ++ [(h, outcome.ok)] }

/-- A handle that is still there when the object goes. -/
def logAbandon (this : Win32Handle) (s : Wrappers) : Wrappers :=
  { s with abandoned := s.abandoned ++ this.handle.toList }

def step (s : Wrappers) : WrapperAction → Option Wrappers
  | .create o => if s.objects o = none then some (s.put o (some {})) else none
  | .construct o handle =>
      if s.objects o = none ∧ s.Fresh handle then
        some ((s.pass handle).put o (some (Win32Handle.ofHandle handle).1))
      else none
  | .moveConstruct o other =>
      match s.objects o, s.objects other with
      | none, some rhs =>
          some ((s.put o (some rhs.ofOther.1)).put other (some rhs.ofOther.2))
      | _, _ => none
  | .moveAssign o other =>
      match s.objects o, s.objects other with
      | some this, some rhs =>
          -- `other` may be the object itself, so it is cleared behind the assignment
          some ((s.put o (some { this with handle := rhs.handle })).put other (some rhs.clear))
      | _, _ => none
  | .assign o handle =>
      match s.objects o with
      | none => none
      | some this =>
          if s.Fresh handle then some ((s.pass handle).put o (some (this.assignHandle handle).1))
          else none
  | .close o outcome | .closeNothrow o outcome =>
      -- they differ in what they report, see `close_eq_closeNothrow`
      match s.objects o with
      | none => none
      | some this =>
          some ((s.logClose this outcome).put o (some (this.closeNothrow outcome)))
  | .destroy o outcome =>
      match s.objects o with
      | none => none
      | some this =>
          some (((s.logClose this outcome).logAbandon (this.closeNothrow outcome)).put o none)

/-- The handle of a live object. -/
def handleOf (s : Wrappers) (o : Nat) : Option Nat := (s.objects o).bind Win32Handle.handle

/-- The wrappers as a ledger. -/
def ledger (s : Wrappers) : Ledger Nat Nat where
  held := s.handleOf
  entered := s.passed
  attempts := s.calls
  abandoned := s.abandoned

/-- Every handle that was passed to a wrapper and is not closed is held by exactly
one live wrapper, unless a destructor failed to close it; and none is closed twice. -/
structure SingleOwner (s : Wrappers) : Prop where
  owned : ∀ h ∈ s.passed, (h, true) ∉ s.calls → h ∉ s.abandoned → ∃! o, s.handleOf o = some h
  once : s.calls.Pairwise fun first later => first.2 = true → later.1 ≠ first.1

/-- No move assignment to an object that holds a handle, and no handle passed in an
assignment. -/
def Vacant (s : Wrappers) : WrapperAction → Prop
  | .moveAssign o _ => s.handleOf o = none
  | .assign _ handle => handle = none
  | _ => True

variable {s t : Wrappers} {a : WrapperAction} {o other : Nat}
variable {this : Win32Handle}

theorem handleOf_put (this : Option Win32Handle) :
    (s.put o this).handleOf = Function.update s.handleOf o (this.bind Win32Handle.handle) := by
  funext o'
  simp only [handleOf, put]
  by_cases same : o' = o
  · rw [same, Function.update_self, Function.update_self]
  · rw [Function.update_of_ne same, Function.update_of_ne same]
    rfl

theorem handleOf_of_live (live : s.objects o = some this) : s.handleOf o = this.handle := by
  simp only [handleOf, live, Option.bind_some]

theorem handleOf_of_dead (dead : s.objects o = none) : s.handleOf o = none := by
  simp only [handleOf, dead, Option.bind_none]

/-- An object that holds nothing and is given nothing. -/
theorem ledger_put_none (vacant : s.handleOf o = none) {this : Option Win32Handle}
    (nothing : this.bind Win32Handle.handle = none) : (s.put o this).ledger = s.ledger := by
  have same : Function.update s.handleOf o none = s.handleOf := by
    rw [← vacant, Function.update_eq_self]
  simp only [ledger, handleOf_put, nothing, same]
  rfl

theorem sound_construct (sound : s.ledger.Sound) (vacant : s.handleOf o = none)
    {handle : Option Nat} (fresh : s.Fresh handle) :
    ((s.pass handle).put o (some ⟨handle⟩)).ledger.Sound := by
  cases handle with
  | none =>
      have same : s.pass none = s := by
        simp only [pass, Option.toList_none, List.append_nil]
      rw [same, ledger_put_none vacant rfl]
      exact sound
  | some h =>
      have entered := sound.enter (i := o) vacant (fresh h rfl)
      have same : ((s.pass (some h)).put o (some ⟨some h⟩)).ledger = s.ledger.enter o h := by
        simp only [ledger, handleOf_put, Ledger.enter]
        rfl
      rw [same]
      exact entered

/-- Construction and assignment from another object. -/
theorem ledger_move {rhs : Win32Handle} (live : s.objects other = some rhs) :
    ((s.put o (some ⟨rhs.handle⟩)).put other (some ⟨none⟩)).ledger = s.ledger.move o other := by
  simp only [ledger, handleOf_put, Ledger.move, handleOf_of_live live, Option.bind_some]
  rfl

theorem sound_close (sound : s.ledger.Sound) (live : s.objects o = some this)
    (outcome : CloseHandle) :
    ((s.logClose this outcome).put o (some (this.closeNothrow outcome))).ledger.Sound := by
  have held := handleOf_of_live live
  cases handle : this.handle with
  | none =>
      have same : this.closeNothrow outcome = this := by
        simp only [Win32Handle.closeNothrow, handle]
      have nothing : (some this).bind Win32Handle.handle = none := handle
      rw [handle] at held
      simp only [logClose, handle]
      rw [same, ledger_put_none held nothing]
      exact sound
  | some h =>
      rw [handle] at held
      cases outcome with
      | failed lastError =>
          have same : this.closeNothrow (.failed lastError) = this := by
            simp only [Win32Handle.closeNothrow, handle]
          have kept : Function.update s.handleOf o (some h) = s.handleOf := by
            rw [← held, Function.update_eq_self]
          have failed := sound.fail (i := o) held
          have logged : ((s.logClose this (.failed lastError)).put o (some this)).ledger =
              s.ledger.fail h := by
            simp only [ledger, handleOf_put, Option.bind_some, handle, logClose, Ledger.fail]
            exact congrArg (Ledger.mk · s.passed (s.calls ++ [(h, false)]) s.abandoned) kept
          rw [same, logged]
          exact failed
      | succeeded =>
          have released := sound.release (i := o) held
          have logged : ((s.logClose this .succeeded).put o
              (some (this.closeNothrow .succeeded))).ledger = s.ledger.release o h := by
            simp only [ledger, handleOf_put, logClose, handle, Win32Handle.closeNothrow,
              Ledger.release]
            rfl
          rw [logged]
          exact released

theorem sound_destroy (sound : s.ledger.Sound) (live : s.objects o = some this)
    (outcome : CloseHandle) :
    (((s.logClose this outcome).logAbandon (this.closeNothrow outcome)).put o
      none).ledger.Sound := by
  have closed := sound_close sound live outcome
  generalize this.closeNothrow outcome = left at closed ⊢
  generalize s.logClose this outcome = u at closed ⊢
  have holds : (u.put o (some left)).handleOf o = left.handle := by
    rw [handleOf_put, Function.update_self, Option.bind_some]
  have cleared : Function.update (u.put o (some left)).handleOf o none =
      Function.update u.handleOf o none := by
    rw [handleOf_put, Function.update_idem]
  cases handle : left.handle with
  | none =>
      have same : ((u.logAbandon left).put o none).ledger = (u.put o (some left)).ledger := by
        simp only [ledger, logAbandon, handle, Option.toList_none, List.append_nil, handleOf_put,
          Option.bind_some, Option.bind_none]
        rfl
      rw [same]
      exact closed
  | some h =>
      rw [handle] at holds
      have abandoned := closed.abandon (i := o) holds
      have same : ((u.logAbandon left).put o none).ledger =
          (u.put o (some left)).ledger.abandon o h := by
        simp only [ledger, logAbandon, handle, Ledger.abandon, cleared, Option.toList_some]
        rw [handleOf_put]
        rfl
      rw [same]
      exact abandoned

/-- An assignment from `HANDLE&&` changes no object. -/
theorem ledger_assign (live : s.objects o = some this) (handle : Option Nat) :
    ((s.pass handle).put o (some (this.assignHandle handle).1)).ledger =
      (s.pass handle).ledger := by
  have same : Function.update s.handleOf o this.handle = s.handleOf := by
    rw [← handleOf_of_live live, Function.update_eq_self]
  simp only [ledger, handleOf_put, Option.bind_some, Win32Handle.assignHandle]
  exact congrArg (Ledger.mk · (s.passed ++ handle.toList) s.calls s.abandoned) same

/-- The cases of a step, on the ledger. -/
theorem sound_step (sound : s.ledger.Sound) (vacant : Vacant s a) (h : step s a = some t) :
    t.ledger.Sound := by
  cases a with
  | create o =>
      simp only [step] at h
      split at h
      · rename_i dead
        cases h
        rw [ledger_put_none (handleOf_of_dead dead) rfl]
        exact sound
      · cases h
  | construct o handle =>
      simp only [step] at h
      split at h
      · rename_i enabled
        cases h
        exact sound_construct sound (handleOf_of_dead enabled.1) enabled.2
      · cases h
  | moveConstruct o other =>
      simp only [step] at h
      split at h
      · rename_i rhs dead live
        cases h
        have moved := sound.move (i := o) (handleOf_of_dead dead) other
        rw [← ledger_move live] at moved
        exact moved
      · cases h
  | moveAssign o other =>
      simp only [step] at h
      split at h
      · rename_i this rhs _ live
        cases h
        have moved := sound.move (i := o) vacant other
        rw [← ledger_move live] at moved
        exact moved
      · cases h
  | assign o handle =>
      simp only [step] at h
      split at h
      · cases h
      · rename_i this live
        split at h
        · cases h
          cases vacant
          have same : s.pass none = s := by
            simp only [pass, Option.toList_none, List.append_nil]
          rw [ledger_assign live, same]
          exact sound
        · cases h
  | close o outcome =>
      simp only [step] at h
      split at h
      · cases h
      · rename_i this live
        cases h
        exact sound_close sound live outcome
  | closeNothrow o outcome =>
      simp only [step] at h
      split at h
      · cases h
      · rename_i this live
        cases h
        exact sound_close sound live outcome
  | destroy o outcome =>
      simp only [step] at h
      split at h
      · cases h
      · rename_i this live
        cases h
        exact sound_destroy sound live outcome

theorem singleOwner_iff : SingleOwner s ↔ s.ledger.Exact :=
  ⟨fun h => ⟨h.owned, h.once⟩, fun h => ⟨h.owned, h.once⟩⟩

/-- The other steps lose a handle. -/
theorem vacant_of_singleOwner (sound : s.ledger.Sound) (h : step s a = some t)
    (single : SingleOwner t) : Vacant s a := by
  rw [singleOwner_iff] at single
  cases a with
  | moveAssign o other =>
      simp only [step] at h
      split at h
      · rename_i this rhs _ live
        cases h
        have moved : (s.ledger.move o other).Exact := by
          rw [← ledger_move live]
          exact single
        cases held : s.handleOf o with
        | none => exact held
        | some x => exact absurd moved (sound.not_exact_move held other)
      · cases h
  | assign o handle =>
      simp only [step] at h
      split at h
      · cases h
      · rename_i this live
        split at h
        · rename_i fresh
          cases h
          rw [ledger_assign live] at single
          cases handle with
          | none => rfl
          | some x => exact absurd single (sound.not_exact_lose (fresh x rfl))
        · cases h
  | _ => trivial

variable {as : List WrapperAction}

theorem sound_init : ({} : Wrappers).ledger.Sound := Ledger.sound_empty

/-- In every run of the wrappers: every open handle has a single owner and none is closed
twice, in all states, exactly if no object that holds a handle is move-assigned and
no handle is passed in an assignment. -/
theorem singleOwner_iff_vacant (run : Run step unguarded {} as t) :
    Throughout step SingleOwner {} as ↔ Run step Vacant {} as t :=
  run.throughout_iff (I := fun u => u.ledger.Sound) sound_init
    (fun _ sound => singleOwner_iff.mpr sound.exact)
    (fun _ _ _ sound vacant enabled => sound_step sound vacant enabled)
    fun _ _ _ sound enabled single => vacant_of_singleOwner sound enabled single

/-- A handle is passed in an assignment to a new object. -/
def lostHandle : List WrapperAction := [.create 0, .assign 0 (some 4)]

theorem run_lostHandle : ∃ t, Run step unguarded {} lostHandle t :=
  ⟨_, .cons trivial rfl (.cons trivial rfl (.nil _))⟩

theorem lostHandle_not_vacant (t : Wrappers) : ¬ Run step Vacant {} lostHandle t := by
  intro run
  cases run with
  | cons _ _ rest =>
      cases rest with
      | cons vacant _ _ => cases vacant

theorem singleOwner_iff_vacant_lostHandle : ¬ Throughout step SingleOwner {} lostHandle := by
  obtain ⟨t, run⟩ := run_lostHandle
  exact fun all => lostHandle_not_vacant t ((singleOwner_iff_vacant run).mp all)

/-- Nobody owns the handle then, nor can it be closed any more. -/
theorem handle_leaks : ¬ ∀ as t, Run step unguarded {} as t → SingleOwner t := by
  intro all
  have created : step {} (.create 0) = some (put 0 (some {}) {}) := rfl
  have assigned : step (put 0 (some {}) {}) (.assign 0 (some 4)) = some _ := rfl
  have admitted : Vacant {} (.create 0) := trivial
  have single := all _ _ (.cons trivial created (.single trivial assigned))
  have vacant := vacant_of_singleOwner (sound_step sound_init admitted created) assigned single
  cases vacant

end Wrappers
end Vee
