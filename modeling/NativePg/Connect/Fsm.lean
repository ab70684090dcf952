/-
  File:      NativePg/Connect/Fsm.lean
  Subject:   Connecting (src/connect_fsm.cpp): the physical connect, the login, and a close where
             one of them fails.

  * `ConnectFsm`, `resume` -- `connect_fsm` with its five resume points;
  * `ConnectSession`, `complete` -- the coroutine under a caller that does what it asks for and
    resumes it with how that ended (src/co_connection.cpp, `co_connection::connect`);
  * `run` -- a session and a sequence of completions; `Possible` says that no read brings more
    than there is room for;
  * `ConnectOutcome` -- what there is to see of it.
-/
import NativePg.Startup.Fsm

namespace NativePg

open Framing

/-! ## 1. The coroutine -/

/-- `connect_fsm::resume_point_`, 0 to 4. -/
inductive ConnectPoint where
  | initial
  | connecting
  | closingUnconnected
  | startup
  | closingRefused
  deriving DecidableEq, Repr

/-- `connect_fsm::result`. -/
inductive ConnectResult where
  | done (ec : ErrorCode)
  | read (room : Nat)
  | write (data : Bytes)
  | connect
  | close
  deriving DecidableEq, Repr

/-- `connect_fsm`. -/
structure ConnectFsm where
  resumePoint : ConnectPoint := .initial
  storedEc : ErrorCode := .success
  startup : StartupFsm
  deriving DecidableEq

/-- `connect_fsm(params)`. -/
def connectFsm (params : ConnectParams) : ConnectFsm where
  startup := { impl := { params } }

namespace ConnectFsm

/-- What one call of `resume` leaves and returns. -/
structure Reply where
  fsm : ConnectFsm
  st : ConnectionState
  result : Checked ConnectResult

/-- Goes on from what `startup_.resume` returned: the loop, and what is behind it. -/
def onStartup (f : ConnectFsm) (r : StartupFsm.Reply) : Reply :=
  let f := { f with startup := r.fsm }
  -- the diagnostics the startup machine was given are the state's own
  let st := { r.st with sharedDiag := r.diag }
  match r.result with
  | .error fault => { fsm := f, st, result := .error fault }
  | .ok (.read room) =>
    { fsm := { f with resumePoint := .startup }, st, result := .ok (.read room) }
  | .ok (.write data) =>
    { fsm := { f with resumePoint := .startup }, st, result := .ok (.write data) }
  | .ok (.done ec) =>
    if ec.failed then
      { fsm := { f with resumePoint := .closingRefused, storedEc := ec }, st, result := .ok .close }
    else { fsm := f, st, result := .ok (.done .success) }

/-- `connect_fsm::resume`. -/
def resume (f : ConnectFsm) (ssl : OpenSsl) (st : ConnectionState) (ec : ErrorCode)
    (bytesTransferred : Nat) : Reply :=
  match f.resumePoint with
  | .initial => { fsm := { f with resumePoint := .connecting }, st, result := .ok .connect }
  | .connecting =>
    if ec.failed then
      { fsm := { f with resumePoint := .closingUnconnected, storedEc := ec }, st,
        result := .ok .close }
    else f.onStartup (f.startup.resume ssl st st.sharedDiag ec bytesTransferred)
  | .closingUnconnected => { fsm := f, st, result := .ok (.done f.storedEc) }
  | .startup => f.onStartup (f.startup.resume ssl st st.sharedDiag ec bytesTransferred)
  | .closingRefused => { fsm := f, st, result := .ok (.done f.storedEc) }

end ConnectFsm

/-! ## 2. A session -/

/-- What the caller is asked to do, as far as it can be seen from outside. -/
inductive ConnectAction where
  | connect
  | read
  | write (data : Bytes)
  | close
  deriving DecidableEq, Repr

/-- What a result asks for, if anything. -/
def ConnectResult.request : Checked ConnectResult → Option ConnectAction
  | .ok .connect => some .connect
  | .ok (.read _) => some .read
  | .ok (.write data) => some (.write data)
  | .ok .close => some .close
  | .ok (.done _) => none
  | .error _ => none

/-- How an operation the caller was asked for has ended: its error code and, for a read, the bytes
    it has brought. -/
structure Completion where
  ec : ErrorCode := .success
  data : Bytes := []
  deriving DecidableEq, Repr

/-- The coroutine with the state it works on, the last thing it returned, and all it has asked
    for. -/
structure ConnectSession where
  fsm : ConnectFsm
  st : ConnectionState
  result : Checked ConnectResult
  actions : List ConnectAction

namespace ConnectSession

/-- What the session asks for; `none` where it has ended. -/
def request (s : ConnectSession) : Option ConnectAction := ConnectResult.request s.result

/-- The session behind a reply. -/
def next (actions : List ConnectAction) (r : ConnectFsm.Reply) : ConnectSession where
  fsm := r.fsm
  st := r.st
  result := r.result
  actions := actions ++ (ConnectResult.request r.result).toList

/-- The first call, on a coroutine as constructed. -/
def start (ssl : OpenSsl) (params : ConnectParams) (st : ConnectionState) : ConnectSession :=
  next [] ((connectFsm params).resume ssl st .success 0)

/-- The operation asked for has ended. A read puts its bytes into the prepared area; a session
    that has ended stays as it is. -/
def complete (ssl : OpenSsl) (s : ConnectSession) (c : Completion) : ConnectSession :=
  match s.result with
  | .ok (.read _) =>
    let st := { s.st with readBuffer := s.st.readBuffer.receive c.data }
    next s.actions (s.fsm.resume ssl st c.ec c.data.length)
  | .ok (.write data) => next s.actions (s.fsm.resume ssl s.st c.ec data.length)
  | .ok .connect | .ok .close => next s.actions (s.fsm.resume ssl s.st c.ec 0)
  | .ok (.done _) | .error _ => s

/-- The operations end one after the other. -/
def run (ssl : OpenSsl) (s : ConnectSession) (cs : List Completion) : ConnectSession :=
  cs.foldl (complete ssl) s

/-- The bytes of a read fit the room it was given. -/
def Fits (s : ConnectSession) (c : Completion) : Prop :=
  ∀ room, s.result = .ok (.read room) → c.data.length ≤ room

instance (s : ConnectSession) (c : Completion) : Decidable (s.Fits c) :=
  match h : s.result with
  | .ok (.read room) =>
    decidable_of_iff (c.data.length ≤ room)
      ⟨fun hle _ h' => by rw [h] at h'; cases h'; exact hle, fun hfits => hfits room h⟩
  | .ok (.done _) | .ok (.write _) | .ok .connect | .ok .close | .error _ =>
    .isTrue fun _ h' => by rw [h] at h'; cases h'

/-- No read of the run brings more bytes than it has room for. -/
def Possible (ssl : OpenSsl) : ConnectSession → List Completion → Prop
  | _, [] => True
  | s, c :: cs => s.Fits c ∧ (s.complete ssl c).Possible ssl cs

def decidablePossible (ssl : OpenSsl) :
    (s : ConnectSession) → (cs : List Completion) → Decidable (s.Possible ssl cs)
  | _, [] => inferInstanceAs (Decidable True)
  | s, c :: cs =>
    have := decidablePossible ssl (s.complete ssl c) cs
    inferInstanceAs (Decidable (s.Fits c ∧ (s.complete ssl c).Possible ssl cs))

instance (ssl : OpenSsl) (s : ConnectSession) (cs : List Completion) :
    Decidable (s.Possible ssl cs) := decidablePossible ssl s cs

/-- Operations that bring no bytes can always end so. -/
theorem possible_of_no_data (ssl : OpenSsl) : ∀ (cs : List Completion) (s : ConnectSession),
    (∀ c ∈ cs, c.data = []) → s.Possible ssl cs
  | [], _, _ => trivial
  | c :: cs, s, h => by
      refine ⟨fun room _ => ?_, possible_of_no_data ssl cs _ fun c' hc' => h c' (.tail _ hc')⟩
      rw [h c (.head _)]
      exact Nat.zero_le room

end ConnectSession

/-- What is left when a session has ended. -/
structure ConnectEnding where
  result : Checked ErrorCode
  sharedDiag : Diagnostics
  backendProcessId : UInt32
  backendSecretKey : UInt32
  deriving DecidableEq

/-- What there is to see of a session: what it has asked for, the bytes of its writes included, and
    what it has left behind where it has ended. -/
structure ConnectOutcome where
  actions : List ConnectAction
  ending : Option ConnectEnding
  deriving DecidableEq

/-- How the session has ended, if it has. -/
def ConnectSession.ended (s : ConnectSession) : Option (Checked ErrorCode) :=
  match s.result with
  | .ok (.done ec) => some (.ok ec)
  | .error fault => some (.error fault)
  | _ => none

def ConnectSession.outcome (s : ConnectSession) : ConnectOutcome where
  actions := s.actions
  ending := s.ended.map fun result =>
    ⟨result, s.st.sharedDiag, s.st.backendProcessId, s.st.backendSecretKey⟩

end NativePg
