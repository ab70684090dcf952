/-
  File:      NativePg/Exec.lean
  Subject:   Running one request (src/exec_fsm.cpp): it is checked and written, then the response
             is read off the connection's buffer until the response machine has it all.

  * `ExecFsm`, `resume` -- the coroutine, with its two suspension points; `readLoop` is its
    `while (true)`, which returns where the coroutine yields or returns;
  * `ExecSession`, `execMachine` -- the coroutine under a caller that does what it asks for;
  * `execReference` -- what the bytes mean, without buffers and reads: they are parsed in one go
    and handed to the response machine;
  * `exec_run` -- however the server's bytes arrive, a run ends as the reference says.
-/
import NativePg.Protocol.ConnectionState
import NativePg.ReadResponse.Safety

namespace NativePg

open Framing

/-! ## 1. The coroutine -/

/-- `response_handler_ref::setup`: an error, or the offset behind the messages it takes. -/
abbrev HandlerSetup := Request → Nat → ErrorCode × Nat

/-- `setup_request` (src/nativepg_internal/check_request.hpp). -/
def setupRequest (req : Request) (setup : HandlerSetup) : ErrorCode :=
  let ecReq := checkRequest req
  if ecReq.failed then ecReq
  else
    let (ec, offset) := setup req 0
    if ec.failed then ec
    else if offset ≠ req.messages.length then ClientErrc.incompatibleResponseLength.code
    else .success

/-- `resume_point_`. -/
inductive ExecPoint where
  | initial
  | writing
  | reading
  deriving DecidableEq, Repr

/-- `exec_fsm`. -/
structure ExecFsm where
  resumePoint : ExecPoint := .initial
  readFsm : ReadResponseFsm
  deriving DecidableEq, Repr

namespace ExecFsm

/-- What one call of `resume` returns: a result or a fault, the messages it handed to the
    response machine and the handler calls these led to. -/
structure Reply where
  fsm : ExecFsm
  st : ConnectionState
  result : Checked IoResult
  delivered : List AnyBackendMessage := []
  calls : List Call := []

/-- Puts what an earlier turn of the loop did in front. -/
def Reply.after (m : AnyBackendMessage) (calls : List Call) (r : Reply) : Reply :=
  { r with delivered := m :: r.delivered, calls := calls ++ r.calls }

/-- The loop of `resume` that reads the response. -/
def readLoop (f : ReadResponseFsm) (st : ConnectionState) : Reply :=
  match _h : nextMessage st.committed with
  | .message msg size =>
    let st' := { st with readBuffer := st.readBuffer.consume size }
    match f.resume msg with
    | .error fault => { fsm := ⟨.reading, f⟩, st := st', result := .error fault, delivered := [msg] }
    | .ok r =>
      match r.result with
      | .done ec =>
        { fsm := ⟨.reading, r.fsm⟩, st := st', result := .ok (.done ec), delivered := [msg],
          calls := r.calls }
      | .read => (readLoop r.fsm st').after msg r.calls
  | .needs size =>
    match st.readBuffer.prepare size with
    | .error fault => { fsm := ⟨.reading, f⟩, st, result := .error fault }
    | .ok rb =>
      { fsm := ⟨.reading, f⟩, st := { st with readBuffer := rb },
        result := .ok (.read rb.preparedSize) }
  | .bad ec => { fsm := ⟨.reading, f⟩, st, result := .ok (.done ec) }
termination_by st.committed.length
decreasing_by
  have hpos := messageParser.message_pos _h
  have hle := messageParser.message_le _h
  simp only [ConnectionState.committed, ReadBuffer.committedArea_consume, List.length_drop] at hle ⊢
  omega

/-- `exec_fsm::resume`. -/
def resume (f : ExecFsm) (setup : HandlerSetup) (st : ConnectionState) (ec : ErrorCode)
    (bytesTransferred : Nat) : Reply :=
  match f.resumePoint with
  | .initial =>
    let ecReq := setupRequest f.readFsm.req setup
    if ecReq.failed then { fsm := f, st, result := .ok (.done ecReq) }
    else
      { fsm := { f with resumePoint := .writing }, st,
        result := .ok (.write f.readFsm.req.payload) }
  | .writing =>
    if ec.failed then { fsm := f, st, result := .ok (.done ec) } else readLoop f.readFsm st
  | .reading =>
    if ec.failed then { fsm := f, st, result := .ok (.done ec) }
    else readLoop f.readFsm { st with readBuffer := st.readBuffer.commit bytesTransferred }

end ExecFsm

/-! ## 2. A session -/

/-- The coroutine with the state it works on, the last thing it returned, and what it has done
    so far. -/
structure ExecSession where
  fsm : ExecFsm
  st : ConnectionState
  result : Checked IoResult
  delivered : List AnyBackendMessage := []
  calls : List Call := []

namespace ExecSession

/-- The session behind a reply. -/
def next (s : ExecSession) (r : ExecFsm.Reply) : ExecSession where
  fsm := r.fsm
  st := r.st
  result := r.result
  delivered := s.delivered ++ r.delivered
  calls := s.calls ++ r.calls

/-- The first call. -/
def start (setup : HandlerSetup) (req : Request) (allowCopy : Bool) (st : ConnectionState) :
    ExecSession :=
  let r := ExecFsm.resume { readFsm := readResponseFsm req allowCopy } setup st .success 0
  ⟨r.fsm, r.st, r.result, r.delivered, r.calls⟩

/-- What the session asks for; a fault ends it. -/
def action (s : ExecSession) : Action (Checked ErrorCode) Bytes :=
  match s.result with
  | .ok (.done ec) => .done (.ok ec)
  | .ok (.read room) => .read room
  | .ok (.write data) => .write data
  | .error fault => .done (.error fault)

end ExecSession

/-- The caller of the coroutine: it writes what it is given, and reads into the buffer. -/
def execMachine (setup : HandlerSetup) :
    IoMachine UInt8 ExecSession (Checked ErrorCode) Bytes where
  action := ExecSession.action
  wrote s := s.next (s.fsm.resume setup s.st .success 0)
  received s data :=
    let st := { s.st with readBuffer := s.st.readBuffer.receive data }
    s.next (s.fsm.resume setup st .success data.length)

/-! ## 3. The reference -/

/-- What there is to see of a run: the messages handed to the response machine, the handler's
    calls, the code it stopped with (`none` while it waits), and the bytes that are left, in the
    buffer or not yet read. -/
structure ExecOutcome where
  delivered : List AnyBackendMessage
  calls : List Call
  result : Option (Checked ErrorCode)
  rest : Bytes
  deriving DecidableEq

/-- How a session that has stopped looks, with `unread` bytes still to come. -/
def ExecSession.outcome (s : ExecSession) (unread : Bytes) : ExecOutcome where
  delivered := s.delivered
  calls := s.calls
  result :=
    match s.action with
    | .done r => some r
    | _ => none
  rest := s.st.committed ++ unread

/-- The response machine and the calls it has made. -/
abbrev Responding := ReadResponseFsm × List Call

/-- One message for the response machine: it goes on, or it ends with a code or a fault. -/
def respond (s : Responding) (msg : AnyBackendMessage) :
    Except (List Call × Checked ErrorCode) Responding :=
  match s.1.resume msg with
  | .error fault => .error (s.2, .error fault)
  | .ok r =>
    match r.result with
    | .done ec => .error (s.2 ++ r.calls, .ok ec)
    | .read => .ok (r.fsm, s.2 ++ r.calls)

/-- The bytes, parsed in one go and handed to the response machine. -/
def drainResponse (s : Responding) (bytes : Bytes) :=
  drain messageParser respond s bytes

/-- What that looks like. -/
def ExecOutcome.ofDrained
    (d : Drained UInt8 AnyBackendMessage Responding ErrorCode (List Call × Checked ErrorCode)) :
    ExecOutcome :=
  match d.ending with
  | .waiting s _ => ⟨d.delivered, s.2, none, d.rest⟩
  | .bad s ec => ⟨d.delivered, s.2, some (.ok ec), d.rest⟩
  | .finished (calls, result) => ⟨d.delivered, calls, some result, d.rest⟩

/-- What running `req` on a connection that will have received `bytes` is to end as. -/
def execReference (setup : HandlerSetup) (req : Request) (allowCopy : Bool) (bytes : Bytes) :
    ExecOutcome :=
  let ecReq := setupRequest req setup
  if ecReq.failed then ⟨[], [], some (.ok ecReq), bytes⟩
  else .ofDrained (drainResponse (readResponseFsm req allowCopy, []) bytes)

/-! ## 4. Every run ends as the reference says -/

namespace ExecSession

/-- What a session is to end as when `stream` is still to come. -/
def spec (s : ExecSession) (stream : Bytes) : ExecOutcome :=
  match s.action with
  | .done _ => s.outcome stream
  | _ =>
    .ofDrained
      ((drainResponse (s.fsm.readFsm, s.calls) (s.st.committed ++ stream)).after s.delivered)

/-- A session that reads has parsed all it has, and has room in its buffer. -/
structure Inv (s : ExecSession) : Prop where
  writing : ∀ {data}, s.action = .write data → s.fsm.resumePoint = .writing
  reading : ∀ {room}, s.action = .read room →
    s.fsm.resumePoint = .reading ∧ room = s.st.readBuffer.preparedSize ∧ 0 < room ∧
      ∃ k, nextMessage s.st.committed = .needs k

theorem inv_of_done {s : ExecSession} {r : Checked ErrorCode} (h : s.action = .done r) :
    s.Inv where
  writing h' := by rw [h] at h'; cases h'
  reading h' := by rw [h] at h'; cases h'

theorem spec_of_done {s : ExecSession} {r : Checked ErrorCode} (h : s.action = .done r)
    (stream : Bytes) :
    s.spec stream = ⟨s.delivered, s.calls, some r, s.st.committed ++ stream⟩ := by
  simp only [spec, outcome, h]

theorem spec_of_read {s : ExecSession} {room : Nat} (h : s.action = .read room)
    (stream : Bytes) :
    s.spec stream = .ofDrained
      ((drainResponse (s.fsm.readFsm, s.calls) (s.st.committed ++ stream)).after s.delivered) := by
  simp only [spec, h]

theorem spec_of_write {s : ExecSession} {data : Bytes} (h : s.action = .write data)
    (stream : Bytes) :
    s.spec stream = .ofDrained
      ((drainResponse (s.fsm.readFsm, s.calls) (s.st.committed ++ stream)).after s.delivered) := by
  simp only [spec, h]

/-- **The loop leaves the meaning of the bytes alone**: what it has not consumed, with what is
    still to come, ends as all of it together. -/
theorem readLoop_spec (f : ReadResponseFsm) (st : ConnectionState) (s : ExecSession) :
    (s.next (ExecFsm.readLoop f st)).Inv ∧ ∀ stream,
      (s.next (ExecFsm.readLoop f st)).spec stream =
        .ofDrained ((drainResponse (f, s.calls) (st.committed ++ stream)).after s.delivered) := by
  induction hl : st.committed.length using Nat.strongRecOn generalizing f st s with
  | ind l ih =>
    rw [ExecFsm.readLoop]
    split
    · rename_i msg size h
      have hpos : 0 < size := messageParser.message_pos h
      have hle : size ≤ st.committed.length := messageParser.message_le h
      have hnext : ∀ stream, messageParser.next (st.committed ++ stream) = .message msg size :=
        fun stream => messageParser.message_append stream h
      have hdrop : ∀ stream, (st.committed ++ stream).drop size =
          st.committed.drop size ++ stream :=
        fun stream => List.drop_append_of_le_length hle
      have hcons : ({ st with readBuffer := st.readBuffer.consume size } : ConnectionState).committed
          = st.committed.drop size := st.readBuffer.committedArea_consume size
      simp only
      split
      · rename_i fault hres
        have hr : respond (f, s.calls) msg = .error (s.calls, .error fault) := by
          simp [respond, hres]
        refine ⟨inv_of_done rfl, fun stream => ?_⟩
        rw [spec_of_done rfl, drainResponse, drain_finished (hnext stream) hr, hdrop]
        simp [ExecOutcome.ofDrained, Drained.after, next, hcons]
      · rename_i r hres
        split
        · rename_i ec hdone
          have hr : respond (f, s.calls) msg = .error (s.calls ++ r.calls, .ok ec) := by
            simp [respond, hres, hdone]
          refine ⟨inv_of_done rfl, fun stream => ?_⟩
          rw [spec_of_done rfl, drainResponse, drain_finished (hnext stream) hr, hdrop]
          simp [ExecOutcome.ofDrained, Drained.after, next, hcons]
        · rename_i hread
          have hr : respond (f, s.calls) msg = .ok (r.fsm, s.calls ++ r.calls) := by
            simp [respond, hres, hread]
          have hlt : (st.committed.drop size).length < l := by
            rw [List.length_drop]
            omega
          -- the loop goes on as if the message had been part of the session before it
          obtain ⟨hinv, hspec⟩ := ih _ (hcons ▸ hlt) r.fsm _
            { s with delivered := s.delivered ++ [msg], calls := s.calls ++ r.calls } rfl
          have hshift : s.next ((ExecFsm.readLoop r.fsm
              { st with readBuffer := st.readBuffer.consume size }).after msg r.calls) =
              ({ s with delivered := s.delivered ++ [msg], calls := s.calls ++ r.calls } :
                ExecSession).next (ExecFsm.readLoop r.fsm
                  { st with readBuffer := st.readBuffer.consume size }) := by
            simp [next, ExecFsm.Reply.after]
          rw [hshift]
          refine ⟨hinv, fun stream => ?_⟩
          rw [hspec, hcons, drainResponse, drainResponse, drain_step (hnext stream) hr, hdrop,
            Drained.after_after]
    · rename_i size h
      obtain ⟨rb, hrb, hcommitted, hroom⟩ := st.readBuffer.prepare_needs h
      rw [hrb]
      refine ⟨⟨fun h' => (by cases h'), fun h' => ?_⟩, fun stream => ?_⟩
      · cases h'
        exact ⟨rfl, rfl, hroom, size, (congrArg nextMessage hcommitted).trans h⟩
      · rw [spec_of_read rfl]
        simp [next, ConnectionState.committed, hcommitted]
    · rename_i ec h
      refine ⟨inv_of_done rfl, fun stream => ?_⟩
      rw [spec_of_done rfl, drainResponse, drain_bad (messageParser.bad_append stream h)]
      simp [ExecOutcome.ofDrained, Drained.after, next]

end ExecSession

theorem execMachine_refines (setup : HandlerSetup) :
    Refines (execMachine setup) ExecSession.Inv ExecSession.spec ExecSession.outcome where
  done _ h stream := by
    have h' : ExecSession.action _ = _ := h
    simp only [ExecSession.spec, h']
  waiting {s k} hs h := by
    obtain ⟨_, _, hpos, n, hn⟩ := hs.reading h
    have h' : s.action = .read k := h
    refine ⟨hpos, ?_⟩
    rw [ExecSession.spec_of_read h, List.append_nil, drainResponse,
      drain_needs (show messageParser.next s.st.committed = .needs n from hn)]
    simp [ExecOutcome.ofDrained, Drained.after, ExecSession.outcome, h']
  wrote {s w} hs h := by
    have hpoint := hs.writing h
    have hresume : s.fsm.resume setup s.st .success 0 = ExecFsm.readLoop s.fsm.readFsm s.st := by
      simp [ExecFsm.resume, hpoint]
    obtain ⟨hinv, hspec⟩ := ExecSession.readLoop_spec s.fsm.readFsm s.st s
    rw [show (execMachine setup).wrote s = s.next (s.fsm.resume setup s.st .success 0) from rfl,
      hresume]
    exact ⟨hinv, fun stream => by rw [hspec, ExecSession.spec_of_write h]⟩
  received {s k} hs h chunk hroom := by
    obtain ⟨hpoint, hk, _, _⟩ := hs.reading h
    have hcommitted := s.st.readBuffer.committedArea_receive_commit (hk ▸ hroom)
    have hresume : (execMachine setup).received s chunk = s.next (ExecFsm.readLoop s.fsm.readFsm
        { s.st with readBuffer := (s.st.readBuffer.receive chunk).commit chunk.length }) := by
      simp [execMachine, ExecFsm.resume, hpoint]
    obtain ⟨hinv, hspec⟩ := ExecSession.readLoop_spec s.fsm.readFsm
      { s.st with readBuffer := (s.st.readBuffer.receive chunk).commit chunk.length } s
    rw [hresume]
    refine ⟨hinv, fun stream => ?_⟩
    rw [hspec, ExecSession.spec_of_read h]
    simp only [ConnectionState.committed, hcommitted, List.append_assoc]

/-- The session before the first byte is read. -/
theorem ExecSession.start_spec (setup : HandlerSetup) (req : Request) (allowCopy : Bool)
    (st : ConnectionState) :
    (start setup req allowCopy st).Inv ∧ ∀ stream,
      (start setup req allowCopy st).spec stream =
        execReference setup req allowCopy (st.committed ++ stream) := by
  by_cases hec : (setupRequest req setup).failed = true
  · have hstart : start setup req allowCopy st =
        { fsm := { readFsm := readResponseFsm req allowCopy }, st,
          result := .ok (.done (setupRequest req setup)) } := by
      simp [start, ExecFsm.resume, readResponseFsm, hec]
    rw [hstart]
    refine ⟨inv_of_done rfl, fun stream => ?_⟩
    rw [spec_of_done rfl, execReference, if_pos hec]
  · have hstart : start setup req allowCopy st =
        { fsm := ⟨.writing, readResponseFsm req allowCopy⟩, st, result := .ok (.write req.payload) }
        := by
      simp [start, ExecFsm.resume, readResponseFsm, hec]
    rw [hstart]
    refine ⟨⟨fun _ => rfl, fun h => (by cases h)⟩, fun stream => ?_⟩
    rw [spec_of_write rfl, execReference, if_neg hec]
    rfl

/-- **However the server's bytes arrive, a run ends as the reference says**, and every read it
    asks for has room for a byte. -/
theorem exec_run {setup : HandlerSetup} {req : Request} {allowCopy : Bool} {st : ConnectionState}
    {stream unread : Bytes} {s : ExecSession} {rooms : List Nat}
    (t : Run (execMachine setup) (.start setup req allowCopy st) stream s unread rooms) :
    s.outcome unread = execReference setup req allowCopy (st.committed ++ stream) ∧
      ∀ k ∈ rooms, 0 < k := by
  obtain ⟨hinv, hspec⟩ := ExecSession.start_spec setup req allowCopy st
  obtain ⟨hend, hrooms⟩ := t.refines (execMachine_refines setup) hinv
  exact ⟨hend.trans (hspec stream), hrooms⟩

theorem readLoop_resumePoint (f : ReadResponseFsm) (st : ConnectionState) :
    (ExecFsm.readLoop f st).fsm.resumePoint = .reading := by
  fun_induction ExecFsm.readLoop f st <;> first | rfl | assumption

/-- Whatever the server sends, there is a run. -/
theorem exec_run_exists (setup : HandlerSetup) (req : Request) (allowCopy : Bool)
    (st : ConnectionState) (stream : Bytes) :
    ∃ s unread rooms, Run (execMachine setup) (.start setup req allowCopy st) stream s unread
      rooms := by
  refine Run.exists_of_rank (execMachine_refines setup)
    (fun s => if s.fsm.resumePoint = .writing then 1 else 0) ?_ _ _
    (ExecSession.start_spec setup req allowCopy st).1
  intro s w hs h
  have hpoint := hs.writing h
  have hafter : ((execMachine setup).wrote s).fsm.resumePoint = .reading := by
    simp [execMachine, ExecSession.next, ExecFsm.resume, hpoint, readLoop_resumePoint]
  simp [hpoint, hafter]

/-! ## 5. The response machine has seen the delivered messages -/

/-- The response machine, fed with `msgs`, ends as `o` says, and has read them all. -/
def FeedsTo (s : Responding) (msgs : List AnyBackendMessage) :
    Except (List Call × Checked ErrorCode) Responding → Prop
  | .ok s' => ∃ calls, s'.2 = s.2 ++ calls ∧ s.1.feed msgs = .ok ⟨s'.1, calls, none, []⟩
  | .error (all, .ok ec) =>
    ∃ f calls, all = s.2 ++ calls ∧ s.1.feed msgs = .ok ⟨f, calls, some ec, []⟩
  | .error (_, .error fault) => s.1.feed msgs = .error fault

/-- Stepping the response machine through messages is feeding them to it. -/
theorem feed_of_steps {s : Responding} {msgs : List AnyBackendMessage}
    {o : Except (List Call × Checked ErrorCode) Responding} (h : Steps respond s msgs o) :
    FeedsTo s msgs o := by
  induction h with
  | nil => exact ⟨[], by simp, rfl⟩
  | @last s m x h =>
    unfold respond at h
    split at h
    · rename_i fault hres
      cases h
      simp [FeedsTo, ReadResponseFsm.feed, hres]
    · rename_i r hres
      split at h
      · rename_i ec hdone
        cases h
        exact ⟨r.fsm, r.calls, rfl, by simp [ReadResponseFsm.feed, hres, hdone]⟩
      · cases h
  | @cons s s' m ms o h _ ih =>
    unfold respond at h
    split at h
    · cases h
    · rename_i r hres
      split at h
      · cases h
      · rename_i hread
        cases h
        have hfeed : s.1.feed (m :: ms) =
            (r.fsm.feed ms).map (ReadResponseFsm.Run.after r.calls) := by
          simp [ReadResponseFsm.feed, hres, hread]
        unfold FeedsTo at ih ⊢
        rw [hfeed]
        split
        · obtain ⟨calls, hcalls, hms⟩ := ih
          exact ⟨r.calls ++ calls, by rw [hcalls, List.append_assoc], by rw [hms]; rfl⟩
        · obtain ⟨f, calls, hcalls, hms⟩ := ih
          exact ⟨f, r.calls ++ calls, by rw [hcalls, List.append_assoc], by rw [hms]; rfl⟩
        · rw [ih]
          rfl

section
variable (setup : HandlerSetup) (req : Request) (allowCopy : Bool) (bytes : Bytes)

/-- The bytes the reference leaves are those behind the messages it delivers. -/
theorem execReference_frames :
    ∃ used, bytes = used ++ (execReference setup req allowCopy bytes).rest ∧
      Frames messageParser used (execReference setup req allowCopy bytes).delivered := by
  unfold execReference
  simp only
  split
  · exact ⟨[], rfl, .nil⟩
  · obtain ⟨used, hused, hframes⟩ :=
      drain_frames messageParser respond (readResponseFsm req allowCopy, []) bytes
    refine ⟨used, ?_, ?_⟩
    all_goals
      unfold ExecOutcome.ofDrained drainResponse
      split <;> assumption

theorem accepted_of_setupRequest {req : Request} {setup : HandlerSetup}
    (h : ¬(setupRequest req setup).failed = true) : req.Accepted := by
  unfold setupRequest at h
  simp only at h
  split at h
  · rename_i hec
    exact absurd hec h
  · rename_i hec
    simpa [Request.Accepted] using hec

/-- **What the reference stops with**: never a fault, and no error only where the response
    machine has read a whole response, which ends with the last delivered message. -/
theorem execReference_result {r : Checked ErrorCode}
    (h : (execReference setup req allowCopy bytes).result = some r) :
    ∃ ec, r = .ok ec ∧ (ec.failed = false →
      ∃ f, (readResponseFsm req allowCopy).feed (execReference setup req allowCopy bytes).delivered =
        .ok ⟨f, (execReference setup req allowCopy bytes).calls, some ec, []⟩) := by
  unfold execReference at h ⊢
  simp only at h ⊢
  split at h
  · rename_i hec
    cases h
    exact ⟨_, rfl, fun hok => absurd hec (by simp [hok])⟩
  · rename_i hec
    rw [if_neg hec]
    have hsteps :=
      feed_of_steps (drain_steps messageParser respond (readResponseFsm req allowCopy, []) bytes)
    unfold ExecOutcome.ofDrained drainResponse at h ⊢
    split at h
    · cases h
    · rename_i s ec hbad
      cases h
      obtain ⟨b, hb⟩ := bad_of_drain _ _ _ _ hbad
      exact ⟨ec, rfl, fun hok => absurd (nextMessage_bad_failed hb) (by simp [hok])⟩
    · rename_i calls result hfin
      cases h
      rw [hfin] at hsteps
      cases r with
      | error fault =>
        obtain ⟨r, hr, _⟩ := ReadResponseFsm.feed_wf
          (ReadResponseFsm.Wf.init (accepted_of_setupRequest hec) allowCopy)
          (drain messageParser respond (readResponseFsm req allowCopy, []) bytes).delivered
        rw [show (readResponseFsm req allowCopy).feed _ = .error fault from hsteps] at hr
        cases hr
      | ok ec =>
        obtain ⟨f, cs, hcs, hfeed⟩ := hsteps
        simp only [List.nil_append] at hcs
        subst hcs
        exact ⟨ec, rfl, fun _ => ⟨f, hfeed⟩⟩

/-- **Where the reference stops without an error, the delivered messages have driven the response
    machine to its end**, the last of them and no earlier one. -/
theorem execReference_steps {ec : ErrorCode} (hok : ec.failed = false)
    (h : (execReference setup req allowCopy bytes).result = some (.ok ec)) :
    Steps respond (readResponseFsm req allowCopy, [])
      (execReference setup req allowCopy bytes).delivered
      (.error ((execReference setup req allowCopy bytes).calls, .ok ec)) := by
  unfold execReference at h ⊢
  simp only at h ⊢
  split at h
  · rename_i hec
    cases h
    rw [hec] at hok
    cases hok
  · rename_i hec
    rw [if_neg hec]
    have hsteps := drain_steps messageParser respond (readResponseFsm req allowCopy, []) bytes
    unfold ExecOutcome.ofDrained drainResponse at h ⊢
    split at h
    · cases h
    · rename_i s ec' hbad
      cases h
      obtain ⟨b, hb⟩ := bad_of_drain _ _ _ _ hbad
      rw [nextMessage_bad_failed hb] at hok
      cases hok
    · rename_i calls result hfin
      cases h
      rwa [hfin] at hsteps

end

end NativePg
