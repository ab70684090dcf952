/-
  File:      NativePg/ExecSome/Fsm.lean
  Subject:   Running one request piece by piece (include/nativepg/protocol/detail/exec_some_fsm.hpp):
             the data of a COPY OUT is handed to the user as views into the read buffer.

  * `ConstBuffer` -- a `const_buffer` into the read buffer's memory, as an offset and a size;
  * `ExecSome` -- the coroutine with the objects its `resume` gets by reference, and its history:
    every result it has returned, with the views and the buffer as they were at that moment;
  * `batch` -- the inner `while (true)`, from its head to the next yield or return; `nextBatch` --
    the head of the outer one; `resume` -- the seven resume points;
  * `messageMissingBytes`, `readSomeMessages`, `ExecSomeSession` -- the caller
    (`co_connection::impl::exec_some`), as a machine that reads and writes;
  * `Turn`, `Ends`, `batch_rec` -- what one turn of the loop can do, and the rule the invariants
    of whole batches are proved with.
-/
import NativePg.Exec

namespace NativePg

open Framing

/-! ## 1. The coroutine -/

/-- A `const_buffer`. The code keeps a pointer; here it is the offset from the start of the
    read buffer's memory. -/
structure ConstBuffer where
  offset : Nat
  size : Nat
  deriving DecidableEq, Repr

/-- `exec_some_fsm::result`. -/
inductive ExecSomeResult where
  | write
  | read
  | copyOut (m : CopyResponse)
  | copyData
  | copyDataWithEof
  | done (ec : ErrorCode)
  deriving DecidableEq, Repr

/-- `resume_point_`, named after what the coroutine has yielded. -/
inductive ExecSomePoint where
  | initial
  | write
  | read
  | copyData
  | copyOut
  | copyDone
  | copyError
  deriving DecidableEq, Repr

/-- `exec_some_fsm`. -/
structure ExecSomeFsm where
  resumePoint : ExecSomePoint := .initial
  consumed : Nat := 0
  readFsm : ReadResponseFsm
  deriving DecidableEq, Repr

/-- A result at the moment it is returned, with what the caller can see then. -/
structure Moment where
  result : ExecSomeResult
  copyBuffs : List ConstBuffer
  readBuffer : ReadBuffer
  deriving DecidableEq, Repr

/-- The coroutine, the two objects it is resumed with, the last thing it returned (or a fault),
    and its history. -/
structure ExecSome where
  fsm : ExecSomeFsm
  st : ConnectionState
  copyBuffs : List ConstBuffer
  result : Checked ExecSomeResult
  /-- Every result so far. -/
  trace : List Moment := []
  /-- The messages handed to the response machine. -/
  delivered : List AnyBackendMessage := []
  /-- The handler calls these led to. -/
  calls : List Call := []

namespace ExecSome

/-- What is in the buffer behind the messages already taken. -/
def pending (s : ExecSome) : Bytes := s.st.committed.drop s.fsm.consumed

/-- `return`. -/
def returns (s : ExecSome) (r : ExecSomeResult) : ExecSome :=
  { s with result := .ok r, trace := s.trace ++ [⟨r, s.copyBuffs, s.st.readBuffer⟩] }

/-- `NATIVEPG_YIELD`. -/
def yields (s : ExecSome) (p : ExecSomePoint) (r : ExecSomeResult) : ExecSome :=
  { s with fsm := { s.fsm with resumePoint := p } }.returns r

/-- An access that must not happen. -/
def faults (s : ExecSome) (fault : Fault) : ExecSome := { s with result := .error fault }

/-- `copy_buffs.clear()`. -/
def clear (s : ExecSome) : ExecSome := { s with copyBuffs := [] }

/-- `st.read_buffer.consume(consumed_)`. -/
def consume (s : ExecSome) : ExecSome :=
  { s with st := { s.st with readBuffer := s.st.readBuffer.consume s.fsm.consumed } }

/-- A message of `size` bytes has been handed to the response machine, which replied `r`. -/
def take (s : ExecSome) (msg : AnyBackendMessage) (size : Nat) (r : ReadResponseFsm.Reply) :
    ExecSome :=
  { s with
    fsm := { s.fsm with consumed := s.fsm.consumed + size, readFsm := r.fsm }
    delivered := s.delivered ++ [msg]
    calls := s.calls ++ r.calls }

/-- `copy_buffs.push_back(...)` for a message that begins where `pending` does: its payload lies
    behind the type byte and the length. -/
def push (s : ExecSome) (data : Bytes) : ExecSome :=
  { s with copyBuffs := s.copyBuffs ++
      [⟨s.st.readBuffer.committedOffset + s.fsm.consumed + 5, data.length⟩] }

/-- The head of the outer loop. -/
def nextBatch (s : ExecSome) : ExecSome :=
  { s.consume with fsm := { s.fsm with consumed := 0 } }.yields .read .read

theorem pending_push (s : ExecSome) (data : Bytes) : (s.push data).pending = s.pending := rfl

theorem pending_take (s : ExecSome) (msg : AnyBackendMessage) (size : Nat)
    (r : ReadResponseFsm.Reply) : (s.take msg size r).pending = s.pending.drop size := by
  simp [pending, take, List.drop_drop]

theorem length_drop_of_message {b : Bytes} {msg : AnyBackendMessage} {size : Nat}
    (h : nextMessage b = .message msg size) : (b.drop size).length < b.length := by
  have hpos := messageParser.message_pos h
  have hle := messageParser.message_le h
  rw [List.length_drop]
  omega

/-- The inner loop. A `subspan` that begins behind the end is a fault. -/
def batch (s : ExecSome) : ExecSome :=
  if s.st.committed.length < s.fsm.consumed then s.faults .outOfRange
  else
    match _h : nextMessage s.pending with
    | .needs _ => if s.copyBuffs = [] then s.nextBatch else s.yields .copyData .copyData
    | .bad ec => s.returns (.done ec)
    | .message msg size =>
      match s.fsm.readFsm.resume msg with
      | .error fault => { s with delivered := s.delivered ++ [msg] }.faults fault
      | .ok r =>
        match r.result with
        | .done ec => (s.take msg size r).consume.returns (.done ec)
        | .read =>
          match msg with
          | .copyOutResponse m => (s.take (.copyOutResponse m) size r).yields .copyOut (.copyOut m)
          | .copyData data => batch ((s.push data).take (.copyData data) size r)
          | .copyDone => (s.take .copyDone size r).yields .copyDone .copyDataWithEof
          | .errorResponse e =>
              (s.take (.errorResponse e) size r).yields .copyError .copyDataWithEof
          | msg => batch (s.take msg size r)
termination_by s.pending.length
decreasing_by
  all_goals
    rw [pending_take]
    exact length_drop_of_message _h

/-- `exec_some_fsm::resume`. -/
def resume (setup : HandlerSetup) (s : ExecSome) : ExecSome :=
  match s.fsm.resumePoint with
  | .initial =>
    let ecReq := setupRequest s.fsm.readFsm.req setup
    if ecReq.failed then s.returns (.done ecReq) else s.clear.yields .write .write
  | .write => s.nextBatch
  | .read => s.batch
  | .copyData => s.clear.nextBatch
  -- entering a COPY leaves `copy_buffs` alone
  | .copyOut => s.batch
  | .copyDone => s.clear.batch
  | .copyError => s.clear.batch

end ExecSome

/-! ## 2. The caller -/

/-- `message_missing_bytes`. -/
def messageMissingBytes (data : Bytes) : Nat :=
  if data.length < 5 then 5 - data.length
  else
    match parseHeader (data.take 5) with
    -- parsing the message will find the error
    | .error _ => 0
    | .ok header =>
      if data.length < header.requiredSize then header.requiredSize - data.length else 0

/-- The coroutine and what its caller is doing. An output is what the caller does without
    waiting for the server: the request's write, an event for the user, or nothing at all where
    a read was asked for and a whole message is there already. -/
structure ExecSomeSession where
  exec : ExecSome
  action : Action (Checked ErrorCode) ExecSomeResult

/-- `read_some_messages`, from the head of its loop to its next read or its end. -/
def ExecSome.readSomeMessages (s : ExecSome) : ExecSomeSession :=
  let missingBytes := messageMissingBytes s.st.committed
  if missingBytes = 0 then ⟨s, .write .read⟩
  else
    match s.st.readBuffer.prepare missingBytes with
    | .error fault => ⟨s, .done (.error fault)⟩
    | .ok rb => ⟨{ s with st := { s.st with readBuffer := rb } }, .read rb.preparedSize⟩

/-- The `switch` of `exec_some` on what the coroutine returned. -/
def ExecSome.dispatch (s : ExecSome) : ExecSomeSession :=
  match s.result with
  | .error fault => ⟨s, .done (.error fault)⟩
  | .ok (.done ec) => ⟨s, .done (.ok ec)⟩
  | .ok .read => s.readSomeMessages
  | .ok r => ⟨s, .write r⟩

/-- The coroutine as constructed; `copy_out_buffers` is whatever an earlier request has left. -/
def ExecSome.new (req : Request) (st : ConnectionState) (copyBuffs : List ConstBuffer) :
    ExecSome where
  fsm := { readFsm := readResponseFsm req true }
  st := st
  copyBuffs := copyBuffs
  result := .ok .write

/-- The first call. -/
def ExecSomeSession.start (setup : HandlerSetup) (req : Request) (st : ConnectionState)
    (copyBuffs : List ConstBuffer) : ExecSomeSession :=
  ((ExecSome.new req st copyBuffs).resume setup).dispatch

/-- The bytes of a read go to the buffer. -/
def ExecSome.receive (s : ExecSome) (data : Bytes) : ExecSome :=
  { s with st := { s.st with
      readBuffer := (s.st.readBuffer.receive data).commit data.length } }

/-- `co_connection::impl::exec_some`, called until it reports the end of the request. -/
def execSomeMachine (setup : HandlerSetup) :
    IoMachine UInt8 ExecSomeSession (Checked ErrorCode) ExecSomeResult where
  action := ExecSomeSession.action
  wrote s := (s.exec.resume setup).dispatch
  received s data := (s.exec.receive data).readSomeMessages

/-! ## 3. What a turn of the loop can do -/

/-- Messages the loop does not react to, once the response machine has accepted them. -/
def AnyBackendMessage.quiet : AnyBackendMessage → Bool
  | .copyOutResponse _ | .copyData _ | .copyDone | .errorResponse _ => false
  | _ => true

namespace ExecSome

/-- The next message is `msg`, and the response machine replies `r` to it. -/
structure Reads (s : ExecSome) (msg : AnyBackendMessage) (size : Nat)
    (r : ReadResponseFsm.Reply) : Prop where
  next : nextMessage s.pending = .message msg size
  reply : s.fsm.readFsm.resume msg = .ok r

/-- One turn that leads back to the head of the loop. -/
inductive Turn (s : ExecSome) : ExecSome → Prop where
  | copyData {data size r} (h : s.Reads (.copyData data) size r) (hr : r.result = .read) :
      Turn s ((s.push data).take (.copyData data) size r)
  | quiet {msg size r} (h : s.Reads msg size r) (hr : r.result = .read) (hq : msg.quiet = true) :
      Turn s (s.take msg size r)

/-- One turn that leaves the loop. -/
inductive Ends (s : ExecSome) : ExecSome → Prop where
  | behind (h : s.st.committed.length < s.fsm.consumed) : Ends s (s.faults .outOfRange)
  | read {k} (h : nextMessage s.pending = .needs k) (hb : s.copyBuffs = []) : Ends s s.nextBatch
  | copyData {k} (h : nextMessage s.pending = .needs k) (hb : s.copyBuffs ≠ []) :
      Ends s (s.yields .copyData .copyData)
  | bad {ec} (h : nextMessage s.pending = .bad ec) : Ends s (s.returns (.done ec))
  | fault {msg size fault} (h : nextMessage s.pending = .message msg size)
      (hf : s.fsm.readFsm.resume msg = .error fault) :
      Ends s ({ s with delivered := s.delivered ++ [msg] }.faults fault)
  | done {msg size r ec} (h : s.Reads msg size r) (hr : r.result = .done ec) :
      Ends s ((s.take msg size r).consume.returns (.done ec))
  | copyOut {m size r} (h : s.Reads (.copyOutResponse m) size r) (hr : r.result = .read) :
      Ends s ((s.take (.copyOutResponse m) size r).yields .copyOut (.copyOut m))
  | copyDone {size r} (h : s.Reads .copyDone size r) (hr : r.result = .read) :
      Ends s ((s.take .copyDone size r).yields .copyDone .copyDataWithEof)
  | copyError {e size r} (h : s.Reads (.errorResponse e) size r) (hr : r.result = .read) :
      Ends s ((s.take (.errorResponse e) size r).yields .copyError .copyDataWithEof)

/-- **The loop goes turn by turn.** -/
theorem batch_turn (s : ExecSome) : s.Ends s.batch ∨ ∃ s', s.Turn s' ∧ s.batch = s'.batch := by
  fun_cases batch s with
  | case1 hlt => exact .inl (.behind hlt)
  | case2 _ k hk hb => exact .inl (.read hk hb)
  | case3 _ k hk hb => exact .inl (.copyData hk hb)
  | case4 _ ec hbad => exact .inl (.bad hbad)
  | case5 _ msg size hn fault hf => exact .inl (.fault hn hf)
  | case6 _ msg size hn r hr ec hdone => exact .inl (.done ⟨hn, hr⟩ hdone)
  | case7 _ size r hread m _ hn hr => exact .inl (.copyOut ⟨hn, hr⟩ hread)
  | case8 _ size r hread data _ hn hr => exact .inr ⟨_, .copyData ⟨hn, hr⟩ hread, rfl⟩
  | case9 _ size r hread _ hn hr => exact .inl (.copyDone ⟨hn, hr⟩ hread)
  | case10 _ size r hread e _ hn hr => exact .inl (.copyError ⟨hn, hr⟩ hread)
  | case11 _ size r hread msg _ h1 h2 h3 h4 hn hr =>
    refine .inr ⟨_, .quiet ⟨hn, hr⟩ hread ?_, rfl⟩
    unfold AnyBackendMessage.quiet
    split <;> simp_all

theorem Turn.pending_lt {s s' : ExecSome} (h : s.Turn s') :
    s'.pending.length < s.pending.length := by
  cases h with
  | copyData h _ =>
    rw [pending_take, pending_push]
    exact length_drop_of_message h.next
  | quiet h _ _ =>
    rw [pending_take]
    exact length_drop_of_message h.next

/-- **The rule for a batch**: what every turn preserves holds wherever the loop is left. -/
theorem batch_rec {P Q : ExecSome → Prop} (hturn : ∀ {s s'}, P s → s.Turn s' → P s')
    (hends : ∀ {s s'}, P s → s.Ends s' → Q s') (s : ExecSome) (hs : P s) : Q s.batch := by
  induction hl : s.pending.length using Nat.strongRecOn generalizing s with
  | ind l ih =>
    rcases s.batch_turn with hend | ⟨s', hs', heq⟩
    · exact hends hs hend
    · rw [heq]
      exact ih _ (hl ▸ hs'.pending_lt) s' (hturn hs hs') rfl

end ExecSome

end NativePg
