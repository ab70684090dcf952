/-
  File:      NativePg/ReadResponse/Fsm.lean
  Subject:   The response machine `read_response_fsm` (src/read_response_fsm.cpp): it reads the
             server's answer to one request, message by message.

  * `ReadResponseFsm`, `State` -- the machine's fields; the request's messages are walked by the
    index `current`, and what a query or an execute has received so far is kept in `state`;
  * `handleError`, `advance`, `handleBind`, ..., `handleQuery`, `resume` -- the functions of the
    source under their names. A call of the response handler is a `Call` in the result, with
    the offset it was made with; a `BOOST_ASSERT` that fires and an index outside `messages()`
    are faults;
  * `feed` -- resumes the machine with one message after the other until it first returns
    `done`: the loop every caller of the machine runs.
-/
import NativePg.Request

namespace NativePg

/-! ## 1. Handler calls -/

/-- `any_request_message`: what a response handler is called with. -/
inductive AnyRequestMessage where
  | bindComplete
  | closeComplete
  | commandComplete (tag : Bytes)
  | dataRow (m : DataRow)
  | parameterDescription (parameterTypeOids : RandomAccessParsingView)
  | rowDescription (m : RowDescription)
  | emptyQueryResponse
  | portalSuspended
  | errorResponse (m : ErrorResponse)
  | parseComplete
  | messageSkipped
  deriving DecidableEq, Repr

/-- One call `handler.on_message(msg, offset)`. -/
structure Call where
  msg : AnyRequestMessage
  offset : Nat
  deriving DecidableEq, Repr

/-! ## 2. The machine -/

namespace ReadResponse

/-- `read_response_fsm::state_t`. -/
inductive State where
  | msgFirst
  | queryFirst
  | queryNeedsReady
  | queryRows
  | execCopyOut
  | execCopyOutNeedsCommandComplete
  | queryCopyOut
  | queryCopyOutNeedsCommandComplete
  deriving DecidableEq, Repr

/-- `read_response_fsm::result`: `done` carries the error code. -/
inductive Result where
  | done (ec : ErrorCode)
  | read
  deriving DecidableEq, Repr

/-- `result::ec`: the default error code where the result is `read`. -/
def Result.ec : Result → ErrorCode
  | .done ec => ec
  | .read => .success

end ReadResponse

open ReadResponse

/-- `read_response_fsm`. -/
structure ReadResponseFsm where
  req : Request
  allowCopy : Bool := false
  current : Nat := 0
  state : State := .msgFirst
  deriving DecidableEq, Repr

namespace ReadResponseFsm

/-- What one function of the machine returns: the machine after it, its result and the handler
    calls it made, in order. -/
structure Reply where
  fsm : ReadResponseFsm
  result : Result
  calls : List Call := []
  deriving DecidableEq, Repr

/-- `get_remaining_messages`. -/
def getRemainingMessages (f : ReadResponseFsm) : List RequestMessageType :=
  f.req.messages.drop f.current

/-- `call_handler`: the offset of a call is the current message's index. -/
def callHandler (f : ReadResponseFsm) (msg : AnyRequestMessage) : Call := ⟨msg, f.current⟩

/-- A reply that ends the response with a client error. -/
def reject (f : ReadResponseFsm) (e : ClientErrc) : Checked Reply := .ok ⟨f, .done e.code, []⟩

/-- The loop of `handle_error` over the messages from index `i` on: the index of the sync it
    stops at and the calls it makes on the way; `none` where it leaves the request's end. -/
def skipToSync : List RequestMessageType → Nat → Option (Nat × List Call)
  | [], _ => none
  | .sync :: _, i => some (i, [])
  | .flush :: rest, i => skipToSync rest (i + 1)
  | _ :: rest, i => (skipToSync rest (i + 1)).map fun r => (r.1, ⟨.messageSkipped, i⟩ :: r.2)

/-- `handle_error`. -/
def handleError (f : ReadResponseFsm) (err : ErrorResponse) : Checked Reply :=
  let call := f.callHandler (.errorResponse err)
  match skipToSync (f.req.messages.drop (f.current + 1)) (f.current + 1) with
  | some (i, skipped) => .ok ⟨{ f with current := i, state := .msgFirst }, .read, call :: skipped⟩
  | none => .error .assertion

/-- `advance`, after the calls `calls`. -/
def advance (f : ReadResponseFsm) (calls : List Call := []) : Checked Reply :=
  let f' := { f with current := f.current + 1 }
  if f'.current ≥ f.req.messages.length then .ok ⟨f', .done .success, calls⟩
  else .ok ⟨f', .read, calls⟩

/-- A reply that stays at the current message, in the state `s`. -/
def stay (f : ReadResponseFsm) (s : State) (calls : List AnyRequestMessage := []) :
    Checked Reply :=
  .ok ⟨{ f with state := s }, .read, calls.map f.callHandler⟩

/-- The common body of `handle_bind`, `handle_close`, `handle_describe` and `handle_parse`: an
    error, or one completion message, which `completes` maps to the handler's call. -/
def handleSingle (completes : AnyBackendMessage → Option AnyRequestMessage)
    (f : ReadResponseFsm) (msg : AnyBackendMessage) : Checked Reply :=
  if f.state ≠ .msgFirst then .error .assertion
  else
    match msg with
    | .errorResponse e => f.handleError e
    | msg =>
      match completes msg with
      | some m => f.advance [f.callHandler m]
      | none => f.reject .unexpectedMessage

/-- `handle_bind`. -/
def handleBind : ReadResponseFsm → AnyBackendMessage → Checked Reply :=
  handleSingle fun
    | .bindComplete => some .bindComplete
    | _ => none

/-- `handle_close`. -/
def handleClose : ReadResponseFsm → AnyBackendMessage → Checked Reply :=
  handleSingle fun
    | .closeComplete => some .closeComplete
    | _ => none

/-- `handle_describe`: no_data is turned into an empty row description. -/
def handleDescribe : ReadResponseFsm → AnyBackendMessage → Checked Reply :=
  handleSingle fun
    | .rowDescription m => some (.rowDescription m)
    | .noData => some (.rowDescription {})
    | _ => none

/-- `handle_parse`. -/
def handleParse : ReadResponseFsm → AnyBackendMessage → Checked Reply :=
  handleSingle fun
    | .parseComplete => some .parseComplete
    | _ => none

/-- `handle_execute`. -/
def handleExecute (f : ReadResponseFsm) (msg : AnyBackendMessage) : Checked Reply :=
  match f.state with
  | .msgFirst =>
    match msg with
    | .copyOutResponse _ =>
        if f.allowCopy then f.stay .execCopyOut [.rowDescription {}]
        else f.reject .copyNotAllowed
    | .errorResponse e => f.handleError e
    | .commandComplete tag => f.advance [f.callHandler (.commandComplete tag)]
    | .emptyQueryResponse => f.advance [f.callHandler .emptyQueryResponse]
    | .portalSuspended => f.advance [f.callHandler .portalSuspended]
    -- a row does not change the state
    | .dataRow m => f.stay f.state [.dataRow m]
    | _ => f.reject .unexpectedMessage
  | .execCopyOut =>
    match msg with
    | .copyData _ => f.stay f.state
    | .errorResponse e => f.handleError e
    | .copyDone => f.stay .execCopyOutNeedsCommandComplete
    | _ => f.reject .unexpectedMessage
  | .execCopyOutNeedsCommandComplete =>
    match msg with
    | .errorResponse e => f.handleError e
    | .commandComplete tag =>
        { f with state := .msgFirst }.advance [f.callHandler (.commandComplete tag)]
    | _ => f.reject .unexpectedMessage
  | _ => f.reject .unexpectedMessage

/-- `handle_sync`. -/
def handleSync (f : ReadResponseFsm) (msg : AnyBackendMessage) : Checked Reply :=
  if f.state ≠ .msgFirst then .error .assertion
  else if msg.isReadyForQuery then f.advance
  else f.reject .unexpectedMessage

/-- The branch of `handle_query` that `msg_first` and `query_first` share. -/
def handleQueryFirst (f : ReadResponseFsm) (msg : AnyBackendMessage) : Checked Reply :=
  match msg with
  | .copyOutResponse _ =>
      if f.allowCopy then f.stay .queryCopyOut [.rowDescription {}]
      else f.reject .copyNotAllowed
  | .errorResponse e => f.stay .queryNeedsReady [.errorResponse e]
  | .rowDescription m => f.stay .queryRows [.rowDescription m]
  | .commandComplete tag => f.stay .queryFirst [.rowDescription {}, .commandComplete tag]
  -- only allowed as the first and only message
  | .emptyQueryResponse =>
      if f.state ≠ .msgFirst then f.reject .unexpectedMessage
      else f.stay .queryNeedsReady [.emptyQueryResponse]
  -- not allowed as the only response to a query
  | .readyForQuery _ =>
      if f.state ≠ .queryFirst then f.reject .unexpectedMessage
      else { f with state := .msgFirst }.advance
  | _ => f.reject .unexpectedMessage

/-- `handle_query`. -/
def handleQuery (f : ReadResponseFsm) (msg : AnyBackendMessage) : Checked Reply :=
  match f.state with
  | .msgFirst | .queryFirst => f.handleQueryFirst msg
  | .queryRows =>
    match msg with
    | .errorResponse e => f.stay .queryNeedsReady [.errorResponse e]
    | .dataRow m => f.stay f.state [.dataRow m]
    | .commandComplete tag => f.stay .queryFirst [.commandComplete tag]
    | _ => f.reject .unexpectedMessage
  | .queryNeedsReady =>
      if msg.isReadyForQuery then { f with state := .msgFirst }.advance
      else f.reject .unexpectedMessage
  | .queryCopyOut =>
    match msg with
    | .copyData _ => f.stay f.state
    | .errorResponse e => f.stay .queryNeedsReady [.errorResponse e]
    | .copyDone => f.stay .queryCopyOutNeedsCommandComplete
    | _ => f.reject .unexpectedMessage
  | .queryCopyOutNeedsCommandComplete =>
    match msg with
    | .errorResponse e => f.stay .queryNeedsReady [.errorResponse e]
    | .commandComplete tag => f.stay .queryFirst [.commandComplete tag]
    | _ => f.reject .unexpectedMessage
  | .execCopyOut | .execCopyOutNeedsCommandComplete => .error .assertion

/-- The `while (true)` of `resume`: flush messages are stepped over. The message it stops at and
    its index; `none` where `messages()[current_]` would be read past the end. -/
def skipFlush : List RequestMessageType → Nat → Option (RequestMessageType × Nat)
  | [], _ => none
  | .flush :: rest, i => skipFlush rest (i + 1)
  | m :: _, i => some (m, i)

/-- The `switch` of `resume` on the request message at `current`. -/
def handle (f : ReadResponseFsm) (msg : AnyBackendMessage) :
    RequestMessageType → Checked Reply
  | .bind => f.handleBind msg
  | .close => f.handleClose msg
  | .describe => f.handleDescribe msg
  | .execute => f.handleExecute msg
  | .parse => f.handleParse msg
  | .query => f.handleQuery msg
  | .sync => f.handleSync msg
  -- `skipFlush` does not stop at a flush
  | .flush => .error .outOfRange

/-- `read_response_fsm::resume`. -/
def resume (f : ReadResponseFsm) (msg : AnyBackendMessage) : Checked Reply :=
  if msg.isAsync then .ok ⟨f, .read, []⟩
  else
    match skipFlush f.getRemainingMessages f.current with
    | some (m, i) => { f with current := i }.handle msg m
    | none => .error .outOfRange

/-! ## 3. Feeding messages -/

/-- What a sequence of messages has made of the machine. -/
structure Run where
  fsm : ReadResponseFsm
  /-- The handler calls, in order. -/
  calls : List Call
  /-- The error code `resume` returned `done` with; `none` while it asks for more. -/
  finished : Option ErrorCode
  /-- The messages behind the one that made it return `done`. -/
  unread : List AnyBackendMessage
  deriving DecidableEq, Repr

/-- Puts the calls of an earlier step in front. -/
def Run.after (calls : List Call) (r : Run) : Run := { r with calls := calls ++ r.calls }

/-- Resumes the machine with the messages in turn, until it first returns `done`. -/
def feed (f : ReadResponseFsm) : List AnyBackendMessage → Checked Run
  | [] => .ok ⟨f, [], none, []⟩
  | msg :: msgs =>
    match f.resume msg with
    | .error e => .error e
    | .ok r =>
      match r.result with
      | .done ec => .ok ⟨r.fsm, r.calls, some ec, msgs⟩
      | .read => (feed r.fsm msgs).map (Run.after r.calls)

end ReadResponseFsm

/-- The machine as constructed for a request. -/
def readResponseFsm (req : Request) (allowCopy : Bool := false) : ReadResponseFsm :=
  { req, allowCopy }

end NativePg
