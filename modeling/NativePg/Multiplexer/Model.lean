/-
  File:      NativePg/Multiplexer/Model.lean
  Subject:   The multiplexer of a connection that several callers share
             (src/nativepg_internal/multiplexed_connection/multiplexer.hpp).

  * `MultiplexerElem` -- one request in the queue. An element is known by its address, which stays
    the same as long as the element lives; here the address is `ptr`, a number `add` counts up.
    A handler and a completion callback are known by the element they were added with;
  * `ReadResponseStreamFsm` -- `read_response_stream_fsm`: which response is being read;
  * `Multiplexer` -- `add`, `cancel`, `prepareWrite`, `onMessage` and `cleanup` under the source's
    names. What they do to the callers is listed as `Event`s;
  * `Op`, `step` -- the five operations as one step function.

  A `BOOST_ASSERT` that fires, `front()` of an empty queue and an iterator outside of it are
  faults.
-/
import NativePg.ReadResponse.Safety

namespace NativePg

namespace Multiplexing

/-! ## 1. Elements -/

/-- `multiplexer_elem_status`. -/
inductive Status where
  | pending
  | inFlight
  | abandonedPending
  | abandonedInFlight
  deriving DecidableEq, Repr

/-- `multiplexer_elem`. -/
structure Elem where
  /-- The element's address. -/
  ptr : Nat
  /-- `none` is a null pointer. -/
  req : Option Request
  /-- The handler of the element with this address; `none` is `&null_handler_`. -/
  res : Option Nat
  /-- The callback of the element with this address; `none` is `&ignore`. -/
  onDone : Option Nat
  status : Status := .pending
  numRfq : Nat := 0
  deriving DecidableEq, Repr

/-- What `cancel` leaves of an element: whatever points to the caller's objects is cleaned up. -/
def Elem.abandon (elem : Elem) (status : Status) (numRfq : Nat) : Elem :=
  { elem with status, numRfq, req := none, res := none, onDone := none }

/-- What a caller gets to see. -/
inductive Event where
  /-- `res.on_message(call.msg, call.offset)` -/
  | message (res : Option Nat) (call : Call)
  /-- `on_done(ec)` -/
  | done (onDone : Option Nat) (ec : ErrorCode)
  deriving DecidableEq, Repr

/-! ## 2. `read_response_stream_fsm` -/

/-- `read_response_stream_fsm::status`. -/
inductive StreamStatus where
  | initial
  | reading
  | ignoring
  deriving DecidableEq, Repr

/-- `read_response_stream_fsm`. -/
structure ReadResponseStreamFsm where
  status : StreamStatus := .initial
  /-- `fsm_`: the response machine and the handler it calls. -/
  fsm : Option (ReadResponseFsm × Option Nat) := none
  remainingRfq : Nat := 0
  deriving DecidableEq, Repr

/-- What an operation returns and does besides. -/
structure Output where
  ec : ErrorCode := .success
  events : List Event := []
  /-- The span `prepare_write` returns. -/
  bytes : Bytes := []
  deriving DecidableEq, Repr

namespace ReadResponseStreamFsm

/-- `reset`. -/
def reset (s : ReadResponseStreamFsm) : ReadResponseStreamFsm := { s with status := .initial }

/-- `is_reading`. -/
def isReading (s : ReadResponseStreamFsm) : Bool := s.status == .reading

/-- The machine, the queue and the output behind `on_message`. -/
structure Reply where
  fsm : ReadResponseStreamFsm
  elms : List Elem
  out : Output
  deriving DecidableEq, Repr

/-- The `reading` branch of `on_message`. -/
def read (s : ReadResponseStreamFsm) (elms : List Elem) (msg : AnyBackendMessage) :
    Checked Reply :=
  match s.fsm with
  | none => .error .outOfRange
  | some (f, handler) =>
    match f.resume msg with
    | .error e => .error e
    | .ok r =>
      let events := r.calls.map (Event.message handler)
      let s := { s with fsm := some (r.fsm, handler) }
      match r.result with
      | .read => .ok ⟨s, elms, { events }⟩
      | .done ec =>
        match elms with
        | [] => .error .outOfRange
        | front :: rest =>
            .ok ⟨{ s with status := .initial }, rest,
              { ec, events := events ++ [.done front.onDone ec] }⟩

/-- The `ignoring` branch of `on_message`. -/
def ignore (s : ReadResponseStreamFsm) (elms : List Elem) (msg : AnyBackendMessage) :
    Checked Reply :=
  if s.remainingRfq = 0 then .error .assertion
  else if msg.isReadyForQuery then
    let s := { s with remainingRfq := s.remainingRfq - 1 }
    if s.remainingRfq = 0 then
      match elms with
      | [] => .error .outOfRange
      | _ :: rest => .ok ⟨{ s with status := .initial }, rest, {}⟩
    else .ok ⟨s, elms, {}⟩
  else .ok ⟨s, elms, {}⟩

/-- `on_message`. -/
def onMessage (s : ReadResponseStreamFsm) (elms : List Elem) (msg : AnyBackendMessage) :
    Checked Reply :=
  match s.status with
  | .reading => s.read elms msg
  | .ignoring => s.ignore elms msg
  | .initial =>
    -- abandoned requests that expect no message back are erased
    match elms.dropWhile (·.status == .abandonedPending) with
    | [] => .ok ⟨s, [], { ec := ClientErrc.unmatchedRequest.code }⟩
    | front :: rest =>
      if front.status = .abandonedInFlight then
        { s with status := .ignoring, remainingRfq := front.numRfq }.ignore (front :: rest) msg
      else if front.status = .inFlight then
        match front.req with
        -- the constructor of `read_response_fsm` asserts that the request is not null
        | none => .error .assertion
        | some req =>
            { s with status := .reading, fsm := some (readResponseFsm req, front.res) }.read
              (front :: rest) msg
      else .error .assertion

/-- `abandon_current`. -/
def abandonCurrent (s : ReadResponseStreamFsm) : Checked ReadResponseStreamFsm :=
  if s.isReading then
    match s.fsm with
    | none => .error .outOfRange
    | some (f, _) =>
        .ok { s with status := .ignoring, remainingRfq := getExpectedRfqs f.getRemainingMessages }
  else .error .assertion

end ReadResponseStreamFsm

/-! ## 3. `multiplexer` -/

/-- `multiplexer`. -/
structure Multiplexer where
  elems : List Elem := []
  numPending : Nat := 0
  fsm : ReadResponseStreamFsm := {}
  /-- The address the next element gets. -/
  nextPtr : Nat := 0
  deriving DecidableEq, Repr

namespace Multiplexer

/-- `add`; the address it returns is `m.nextPtr`. -/
def add (m : Multiplexer) (req : Request) : Multiplexer :=
  { m with
    elems := m.elems ++ [⟨m.nextPtr, some req, some m.nextPtr, some m.nextPtr, .pending, 0⟩]
    numPending := m.numPending + 1
    nextPtr := m.nextPtr + 1 }

/-- `cancel` of the element at index `i` of the queue. -/
def cancelAt (m : Multiplexer) (i : Nat) (elem : Elem) : Checked Multiplexer :=
  match elem.status with
  | .pending =>
      .ok { m with elems := m.elems.set i (elem.abandon .abandonedPending elem.numRfq) }
  | .inFlight =>
    if i = 0 ∧ m.fsm.isReading = true then
      match m.fsm.abandonCurrent with
      | .error e => .error e
      | .ok fsm =>
          .ok { m with
            fsm
            elems := m.elems.set i (elem.abandon .abandonedInFlight elem.numRfq) }
    else
      match elem.req with
      | none => .error .outOfRange
      | some req =>
          .ok { m with
            elems := m.elems.set i
              (elem.abandon .abandonedInFlight (getExpectedRfqs req.messages)) }
  | _ => .error .assertion

/-- `cancel`. -/
def cancel (m : Multiplexer) (ptr : Nat) : Checked Multiplexer :=
  if m.elems.isEmpty then .error .assertion
  else
    match m.elems.findIdx? (·.ptr == ptr) with
    | none => .error .outOfRange
    | some i =>
      match m.elems[i]? with
      | none => .error .outOfRange
      | some elem => m.cancelAt i elem

/-- `pending_offset`: the subtraction must not wrap around. -/
def pendingOffset (m : Multiplexer) : Checked Nat :=
  if m.numPending ≤ m.elems.length then .ok (m.elems.length - m.numPending)
  else .error .outOfRange

/-- The loop of `prepare_write` over the pending requests: the elements behind it and the bytes it
    appends to the write buffer. -/
def writePending : List Elem → Checked (List Elem × Bytes)
  | [] => .ok ([], [])
  | elm :: rest =>
    match elm.status with
    | .pending =>
      match elm.req with
      | none => .error .assertion
      | some req =>
          (writePending rest).map fun r =>
            ({ elm with status := .inFlight } :: r.1, req.payload ++ r.2)
    | .abandonedPending => (writePending rest).map fun r => (elm :: r.1, r.2)
    | _ => .error .assertion

/-- `prepare_write`. -/
def prepareWrite (m : Multiplexer) : Checked (Multiplexer × Bytes) :=
  match m.pendingOffset with
  | .error e => .error e
  | .ok offset =>
      (writePending (m.elems.drop offset)).map fun r =>
        ({ m with elems := m.elems.take offset ++ r.1, numPending := 0 }, r.2)

/-- `on_message`. -/
def onMessage (m : Multiplexer) (msg : AnyBackendMessage) : Checked (Multiplexer × Output) :=
  if msg.isAsync then .ok (m, {})
  else
    (m.fsm.onMessage m.elems msg).map fun r => ({ m with fsm := r.fsm, elems := r.elms }, r.out)

/-- `cleanup`. -/
def cleanup (m : Multiplexer) : Checked (Multiplexer × List Event) :=
  match m.pendingOffset with
  | .error e => .error e
  | .ok offset =>
      .ok ({ m with elems := m.elems.drop offset, fsm := m.fsm.reset },
        (m.elems.take offset).map (Event.done ·.onDone .operationCanceled))

end Multiplexer

/-! ## 4. Operations -/

/-- One operation on the multiplexer. -/
inductive Op where
  | add (req : Request)
  | cancel (ptr : Nat)
  | prepareWrite
  | onMessage (msg : AnyBackendMessage)
  | cleanup
  deriving DecidableEq, Repr

/-- One operation, with what it returns and does besides. -/
def Multiplexer.step (m : Multiplexer) : Op → Checked (Multiplexer × Output)
  | .add req => .ok (m.add req, {})
  | .cancel ptr => (m.cancel ptr).map (·, {})
  | .prepareWrite => m.prepareWrite.map fun r => (r.1, { bytes := r.2 })
  | .onMessage msg => m.onMessage msg
  | .cleanup => m.cleanup.map fun r => (r.1, { events := r.2 })

section
variable {m m' : Multiplexer} {out : Output}

theorem Multiplexer.cancel_of_step {ptr : Nat} (h : m.step (.cancel ptr) = .ok (m', out)) :
    m.cancel ptr = .ok m' ∧ out = {} := by
  cases hc : m.cancel ptr with
  | error fault =>
    rw [Multiplexer.step, hc] at h
    cases h
  | ok m₁ =>
    rw [Multiplexer.step, hc] at h
    cases h
    exact ⟨rfl, rfl⟩

theorem Multiplexer.prepareWrite_of_step (h : m.step .prepareWrite = .ok (m', out)) :
    ∃ bytes, m.prepareWrite = .ok (m', bytes) ∧ out = { bytes } := by
  cases hp : m.prepareWrite with
  | error fault =>
    rw [Multiplexer.step, hp] at h
    cases h
  | ok r =>
    rw [Multiplexer.step, hp] at h
    cases h
    exact ⟨r.2, rfl, rfl⟩

theorem Multiplexer.cleanup_of_step (h : m.step .cleanup = .ok (m', out)) :
    ∃ events, m.cleanup = .ok (m', events) ∧ out = { events } := by
  cases hc : m.cleanup with
  | error fault =>
    rw [Multiplexer.step, hc] at h
    cases h
  | ok r =>
    rw [Multiplexer.step, hc] at h
    cases h
    exact ⟨r.2, rfl, rfl⟩

end

end Multiplexing

end NativePg
