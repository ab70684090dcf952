/-
  File:      NativePg/Startup/Reading.lean
  Subject:   The bytes of a login and of a response, however they arrive.

  * `StartupSession`, `startupMachine` -- `startup_fsm` under a caller that does what it asks for;
  * `startupReference` -- what the bytes mean: they are parsed in one go and handed to
    `startup_fsm_impl`, whose writes succeed at once;
  * `startup_run` -- however the bytes arrive, a run ends as the reference says;
  * `reads_any_chunking` -- the same for `startup_fsm` and `exec_fsm` together, with what it means
    for the messages they deliver and the bytes they leave.
-/
import NativePg.Exec
import NativePg.Startup.Fsm

namespace NativePg

open Framing StartupFsmImpl

/-! ## 1. A session -/

/-- The coroutine with what it works on, the last thing it returned, and the messages it has
    handed to the machine. -/
structure StartupSession where
  fsm : StartupFsm
  st : ConnectionState
  diag : Diagnostics
  result : Checked IoResult
  delivered : List AnyBackendMessage := []

namespace StartupSession

/-- The session behind a reply. -/
def next (s : StartupSession) (r : StartupFsm.Reply) : StartupSession where
  fsm := r.fsm
  st := r.st
  diag := r.diag
  result := r.result
  delivered := s.delivered ++ r.delivered

/-- The first call, on a coroutine as constructed. -/
def start (ssl : OpenSsl) (params : ConnectParams) (st : ConnectionState) (diag : Diagnostics) :
    StartupSession :=
  let r := StartupFsm.resume { impl := { params } } ssl st diag .success 0
  ⟨r.fsm, r.st, r.diag, r.result, r.delivered⟩

/-- What the session asks for; a fault ends it. -/
def action (s : StartupSession) : Action (Checked ErrorCode) Bytes :=
  match s.result with
  | .ok (.done ec) => .done (.ok ec)
  | .ok (.read room) => .read room
  | .ok (.write data) => .write data
  | .error fault => .done (.error fault)

/-- The machine and its data. -/
def data (s : StartupSession) : Data := ⟨s.fsm.impl, s.st, s.diag⟩

end StartupSession

/-- The caller of the coroutine: it writes what it is given, and reads into the buffer. -/
def startupMachine (ssl : OpenSsl) :
    IoMachine UInt8 StartupSession (Checked ErrorCode) Bytes where
  action := StartupSession.action
  wrote s := s.next (s.fsm.resume ssl s.st s.diag .success 0)
  received s data :=
    let st := { s.st with readBuffer := s.st.readBuffer.receive data }
    s.next (s.fsm.resume ssl st s.diag .success data.length)

/-! ## 2. The reference -/

/-- What there is to see of a run: the messages handed to the machine, the code it stopped with
    (`none` while it waits), and the bytes that are left, in the buffer or not yet read. -/
structure StartupOutcome where
  delivered : List AnyBackendMessage
  result : Option (Checked ErrorCode)
  rest : Bytes
  deriving DecidableEq

/-- How a session that has stopped looks, with `unread` bytes still to come. -/
def StartupSession.outcome (s : StartupSession) (unread : Bytes) : StartupOutcome where
  delivered := s.delivered
  result :=
    match s.action with
    | .done r => some r
    | _ => none
  rest := s.st.committed ++ unread

/-- The machine behind the write it may have asked for: it waits for a message, or has ended. -/
def settled (ssl : OpenSsl) (r : Reply) : Except (Checked ErrorCode) Data :=
  match (settle ssl r).result with
  | .error fault => .error (.error fault)
  | .ok (.done ec) => .error (.ok ec)
  | .ok .read => .ok (settle ssl r).toData
  | .ok .write => .error (.error .assertion)

/-- One message for the machine. -/
def startupStep (ssl : OpenSsl) (d : Data) (msg : AnyBackendMessage) :
    Except (Checked ErrorCode) Data :=
  settled ssl (d.resume ssl msg)

/-- What draining the bytes of a login looks like. -/
def StartupOutcome.ofDrained
    (d : Drained UInt8 AnyBackendMessage Data ErrorCode (Checked ErrorCode)) : StartupOutcome :=
  match d.ending with
  | .waiting _ _ => ⟨d.delivered, none, d.rest⟩
  | .bad _ ec => ⟨d.delivered, some (.ok ec), d.rest⟩
  | .finished result => ⟨d.delivered, some result, d.rest⟩

/-- Where the machine gets to from what it last returned, with `bytes` to read, after it has been
    handed the messages `log`. -/
def outcomeFrom (ssl : OpenSsl) (log : List AnyBackendMessage) (r : Reply) (bytes : Bytes) :
    StartupOutcome :=
  match settled ssl r with
  | .error result => ⟨log, some result, bytes⟩
  | .ok d => .ofDrained ((drain messageParser (startupStep ssl) d bytes).after log)

/-- A read buffer for a machine that does not look at it. -/
def blank : ReadBuffer := .new 0

/-- What a login on a connection that will have received `bytes` is to end as. -/
def startupReference (ssl : OpenSsl) (params : ConnectParams) (st : ConnectionState)
    (diag : Diagnostics) (bytes : Bytes) : StartupOutcome :=
  outcomeFrom ssl [] (StartupFsmImpl.start ssl params { st with readBuffer := blank } diag) bytes

/-- A message at the front of the bytes is the next one the machine is handed. -/
theorem outcomeFrom_message {ssl : OpenSsl} {log : List AnyBackendMessage} {d : Data} {bytes : Bytes}
    {msg : AnyBackendMessage} {size : Nat} (h : nextMessage bytes = .message msg size) :
    outcomeFrom ssl log ⟨d, .ok .read⟩ bytes =
      outcomeFrom ssl (log ++ [msg]) (d.resume ssl msg) (bytes.drop size) := by
  have hnext : messageParser.next bytes = .message msg size := h
  have hd : settled ssl ⟨d, .ok .read⟩ = .ok d := rfl
  rw [outcomeFrom, hd, outcomeFrom]
  cases hs : settled ssl (d.resume ssl msg) with
  | error result =>
    simp only
    rw [drain_finished hnext hs]
    rfl
  | ok d' =>
    simp only
    rw [drain_step hnext hs, Drained.after_after]

/-! ## 3. Every run ends as the reference says -/

namespace StartupSession

/-- What a session is to end as when `stream` is still to come. -/
def spec (ssl : OpenSsl) (s : StartupSession) (stream : Bytes) : StartupOutcome :=
  match s.action with
  | .done _ => s.outcome stream
  | .read _ =>
    outcomeFrom ssl s.delivered ⟨s.data.withBuffer blank, .ok .read⟩ (s.st.committed ++ stream)
  | .write _ =>
    outcomeFrom ssl s.delivered ⟨s.data.withBuffer blank, .ok .write⟩ (s.st.committed ++ stream)

/-- A session that writes has suspended its machine for it; one that reads has parsed all it
    has, and has room in its buffer. -/
structure Inv (s : StartupSession) : Prop where
  writing : ∀ {data}, s.action = .write data → s.fsm.resumePoint = .writing ∧ s.data.Wrote
  reading : ∀ {room}, s.action = .read room →
    s.fsm.resumePoint = .reading ∧ room = s.st.readBuffer.preparedSize ∧ 0 < room ∧
      ∃ k, nextMessage s.st.committed = .needs k

variable {ssl : OpenSsl} {s : StartupSession}

theorem inv_of_done {r : Checked ErrorCode} (h : s.action = .done r) : s.Inv where
  writing h' := by rw [h] at h'; cases h'
  reading h' := by rw [h] at h'; cases h'

theorem spec_of_done {r : Checked ErrorCode} (h : s.action = .done r) (stream : Bytes) :
    s.spec ssl stream = ⟨s.delivered, some r, s.st.committed ++ stream⟩ := by
  simp only [spec, outcome, h]

theorem spec_of_read {room : Nat} (h : s.action = .read room) (stream : Bytes) :
    s.spec ssl stream = outcomeFrom ssl s.delivered ⟨s.data.withBuffer blank, .ok .read⟩
      (s.st.committed ++ stream) := by
  simp only [spec, h]

theorem spec_of_write {data : Bytes} (h : s.action = .write data) (stream : Bytes) :
    s.spec ssl stream = outcomeFrom ssl s.delivered ⟨s.data.withBuffer blank, .ok .write⟩
      (s.st.committed ++ stream) := by
  simp only [spec, h]

/-- **The loop leaves the meaning of the bytes alone.** -/
theorem loop_spec (r : Reply) (hw : r.result = .ok .write → r.toData.Wrote) (s : StartupSession) :
    (s.next (StartupFsm.loop ssl r)).Inv ∧ ∀ stream,
      (s.next (StartupFsm.loop ssl r)).spec ssl stream =
        outcomeFrom ssl s.delivered (r.withBuffer blank) (r.st.committed ++ stream) := by
  induction r using StartupFsm.taken_induction ssl generalizing s with
  | h r ih =>
    obtain ⟨d, result⟩ := r
    cases result with
    | error fault =>
      rw [StartupFsm.loop_fault ssl rfl]
      refine ⟨inv_of_done rfl, fun stream => ?_⟩
      rw [spec_of_done rfl]
      simp [next, outcomeFrom, settled, settle, Reply.withBuffer]
    | ok res =>
      cases res with
      | done ec =>
        rw [StartupFsm.loop_done ssl rfl]
        refine ⟨inv_of_done rfl, fun stream => ?_⟩
        rw [spec_of_done rfl]
        simp [next, outcomeFrom, settled, settle, Reply.withBuffer]
      | write =>
        rw [StartupFsm.loop_write ssl rfl]
        refine ⟨⟨fun _ => ⟨rfl, hw rfl⟩, fun h' => (by cases h')⟩, fun stream => ?_⟩
        rw [spec_of_write rfl]
        simp [next, data, Reply.withBuffer]
      | read =>
        have hblank : Reply.withBuffer ⟨d, .ok .read⟩ blank = ⟨d.withBuffer blank, .ok .read⟩ := rfl
        rw [hblank]
        cases h : nextMessage d.st.committed with
        | message msg size =>
          have hle : size ≤ d.st.committed.length := messageParser.message_le h
          have hnext : ∀ stream, nextMessage (d.st.committed ++ stream) = .message msg size :=
            fun stream => messageParser.message_append stream h
          have hdrop : ∀ stream, (d.st.committed ++ stream).drop size =
              d.st.committed.drop size ++ stream :=
            fun stream => List.drop_append_of_le_length hle
          have hwrote : (d.resume ssl msg).result = .ok .write → (d.resume ssl msg).toData.Wrote :=
            wrote_of_write (resume_move ssl d msg)
          obtain ⟨hinv, hspec⟩ := ih msg size h hwrote
            { s with delivered := s.delivered ++ [msg] }
          have hshift : ∀ r, s.next (StartupFsm.Reply.after msg r) =
              ({ s with delivered := s.delivered ++ [msg] } : StartupSession).next r := by
            intro r
            simp [next, StartupFsm.Reply.after]
          rw [StartupFsm.loop_message ssl (r := ⟨d, .ok .read⟩) rfl h, hshift]
          refine ⟨hinv, fun stream => ?_⟩
          rw [hspec, StartupFsm.taken_committed, outcomeFrom_message (hnext stream), hdrop,
            resume_withBuffer]
          rfl
        | needs size =>
          obtain ⟨rb, hcommitted, hroom, hloop⟩ := StartupFsm.loop_needs ssl (r := ⟨d, .ok .read⟩) rfl h
          rw [hloop]
          refine ⟨⟨fun h' => (by cases h'), fun h' => ?_⟩, fun stream => ?_⟩
          · cases h'
            exact ⟨rfl, rfl, hroom, size, (congrArg nextMessage hcommitted).trans h⟩
          · rw [spec_of_read rfl]
            simp [next, data, Data.withBuffer, ConnectionState.committed, hcommitted]
        | bad ec =>
          have hbad : ∀ stream, messageParser.next (d.st.committed ++ stream) = .bad ec :=
            fun stream => messageParser.bad_append stream h
          rw [StartupFsm.loop_bad ssl (r := ⟨d, .ok .read⟩) rfl h]
          refine ⟨inv_of_done rfl, fun stream => ?_⟩
          rw [spec_of_done rfl, outcomeFrom]
          simp only [settled, settle]
          rw [drain_bad (hbad stream)]
          simp [StartupOutcome.ofDrained, Drained.after, next]

/-- A session that has written goes on with a read. -/
theorem wrote_spec {bytes : Bytes} (hs : s.Inv) (h : s.action = .write bytes) :
    ((startupMachine ssl).wrote s).Inv ∧
      ∀ stream, ((startupMachine ssl).wrote s).spec ssl stream = s.spec ssl stream := by
  obtain ⟨hpoint, point, hb⟩ := hs.writing h
  have hresume : (startupMachine ssl).wrote s = s.next (StartupFsm.loop ssl
      (s.data.resume ssl .none)) := by
    simp [startupMachine, StartupFsm.resume, hpoint, data]
  have hread := resume_of_behind hb ssl .none
  have hblank : (s.data.withBuffer blank).resume ssl .none =
      (s.data.suspend point .read).withBuffer blank := by
    rw [resume_withBuffer, hread]
  rw [hresume, hread]
  obtain ⟨hinv, hspec⟩ := @loop_spec ssl (s.data.suspend point .read) (fun hw => by cases hw) s
  refine ⟨hinv, fun stream => ?_⟩
  rw [hspec, spec_of_write h]
  simp only [outcomeFrom, settled, settle, hblank]
  rfl

/-- A session goes on with the bytes it has received. -/
theorem received_spec {room : Nat} {chunk : Bytes} (hs : s.Inv) (h : s.action = .read room)
    (hroom : chunk.length ≤ room) :
    ((startupMachine ssl).received s chunk).Inv ∧
      ∀ stream, ((startupMachine ssl).received s chunk).spec ssl stream =
        s.spec ssl (chunk ++ stream) := by
  obtain ⟨hpoint, hk, _, _⟩ := hs.reading h
  have hcommitted := s.st.readBuffer.committedArea_receive_commit (hk ▸ hroom)
  have hresume : (startupMachine ssl).received s chunk = s.next (StartupFsm.loop ssl
      ⟨s.data.withBuffer ((s.st.readBuffer.receive chunk).commit chunk.length), .ok .read⟩) := by
    simp [startupMachine, StartupFsm.resume, hpoint, data, Data.withBuffer]
  obtain ⟨hinv, hspec⟩ := @loop_spec ssl
    ⟨s.data.withBuffer ((s.st.readBuffer.receive chunk).commit chunk.length), .ok .read⟩
    (fun hw => by cases hw) s
  rw [hresume]
  refine ⟨hinv, fun stream => ?_⟩
  rw [hspec, spec_of_read h]
  simp only [ConnectionState.committed, Data.withBuffer, data, Reply.withBuffer, hcommitted,
    List.append_assoc]

end StartupSession

theorem startupMachine_refines (ssl : OpenSsl) :
    Refines (startupMachine ssl) StartupSession.Inv (StartupSession.spec ssl)
      StartupSession.outcome where
  done {s r} _ h stream := by
    have h' : s.action = .done r := h
    simp only [StartupSession.spec, h']
  waiting {s k} hs h := by
    have h' : s.action = .read k := h
    obtain ⟨_, _, hpos, n, hn⟩ := hs.reading h
    refine ⟨hpos, ?_⟩
    rw [StartupSession.spec_of_read h, List.append_nil, outcomeFrom]
    simp only [settled, settle]
    rw [drain_needs (show messageParser.next s.st.committed = .needs n from hn)]
    simp [StartupOutcome.ofDrained, Drained.after, StartupSession.outcome, h']
  wrote hs h := StartupSession.wrote_spec hs h
  received hs h _ hroom := StartupSession.received_spec hs h hroom

/-- The session before the first byte is read. -/
theorem StartupSession.start_spec (ssl : OpenSsl) (params : ConnectParams) (st : ConnectionState)
    (diag : Diagnostics) :
    (start ssl params st diag).Inv ∧ ∀ stream,
      (start ssl params st diag).spec ssl stream =
        startupReference ssl params st diag (st.committed ++ stream) := by
  have hbuf := resume_readBuffer ⟨{ params }, st, diag⟩ ssl .none
  have hcommitted : (Data.resume ⟨{ params }, st, diag⟩ ssl .none).st.committed = st.committed := by
    rw [ConnectionState.committed, hbuf]
    rfl
  have hblank : (Data.resume ⟨{ params }, st, diag⟩ ssl .none).withBuffer blank =
      StartupFsmImpl.start ssl params { st with readBuffer := blank } diag :=
    (resume_withBuffer ⟨{ params }, st, diag⟩ ssl .none blank).symm
  obtain ⟨hinv, hspec⟩ := loop_spec (Data.resume ⟨{ params }, st, diag⟩ ssl .none)
    (wrote_of_write (resume_move ssl _ _))
    { fsm := { impl := { params } }, st, diag, result := .ok (.done .success) }
  have hstart : start ssl params st diag =
      ({ fsm := { impl := { params } }, st, diag, result := .ok (.done .success) } :
        StartupSession).next
        (StartupFsm.loop ssl (Data.resume ⟨{ params }, st, diag⟩ ssl .none)) := by
    simp [start, next, StartupFsm.resume]
  rw [hstart]
  refine ⟨hinv, fun stream => ?_⟩
  rw [hspec, hcommitted, hblank]
  rfl

/-- **However the server's bytes arrive, a login ends as the reference says**, and every read it
    asks for has room for a byte. -/
theorem startup_run {ssl : OpenSsl} {params : ConnectParams} {st : ConnectionState}
    {diag : Diagnostics} {stream unread : Bytes} {s : StartupSession} {rooms : List Nat}
    (t : Run (startupMachine ssl) (.start ssl params st diag) stream s unread rooms) :
    s.outcome unread = startupReference ssl params st diag (st.committed ++ stream) ∧
      ∀ k ∈ rooms, 0 < k := by
  obtain ⟨hinv, hspec⟩ := StartupSession.start_spec ssl params st diag
  obtain ⟨hend, hrooms⟩ := t.refines (startupMachine_refines ssl) hinv
  exact ⟨hend.trans (hspec stream), hrooms⟩

theorem loop_rank_le (ssl : OpenSsl) (r : Reply) :
    r.fsm.resumePoint.rank ≤ (StartupFsm.loop ssl r).fsm.impl.resumePoint.rank := by
  fun_induction StartupFsm.loop ssl r with
  | case4 r hres msg size h next ih => exact Nat.le_trans (resume_move ssl r.toData msg).rank_le ih
  | _ => exact Nat.le_refl _

/-- Whatever the server sends, there is a run: a login has at most three writes. -/
theorem startup_run_exists (ssl : OpenSsl) (params : ConnectParams) (st : ConnectionState)
    (diag : Diagnostics) (stream : Bytes) :
    ∃ s unread rooms, Run (startupMachine ssl) (.start ssl params st diag) stream s unread rooms := by
  refine Run.exists_of_rank (startupMachine_refines ssl)
    (fun s => 9 - s.fsm.impl.resumePoint.rank) ?_ _ _
    (StartupSession.start_spec ssl params st diag).1
  intro s w hs h
  obtain ⟨hpoint, point, hb⟩ := hs.writing h
  have hresume : ((startupMachine ssl).wrote s).fsm =
      (StartupFsm.loop ssl (s.data.resume ssl .none)).fsm := by
    simp [startupMachine, StartupFsm.resume, hpoint, StartupSession.data, StartupSession.next]
  have hle := loop_rank_le ssl (s.data.resume ssl .none)
  rw [resume_of_behind hb] at hle hresume
  have hlt : s.fsm.impl.resumePoint.rank < point.rank := hb.rank_lt
  have hpoint' : point.rank ≤
      (StartupFsm.loop ssl (s.data.suspend point .read)).fsm.impl.resumePoint.rank := hle
  have hmax := StartupPoint.rank_le point
  simp only [hresume]
  omega

/-! ## 4. The machine has seen the delivered messages -/

section
variable {ssl : OpenSsl}

theorem feed_of_settled {r : Reply} {d : Data} (h : settled ssl r = .ok d)
    (msgs : List AnyBackendMessage) :
    feed ssl r msgs = feed ssl ⟨d, .ok .read⟩ msgs := by
  have hsettle : settle ssl r = ⟨d, .ok .read⟩ := by
    unfold settled at h
    split at h
    · cases h
    · cases h
    · rename_i hres
      cases h
      rw [← hres]
    · cases h
  have hread : settle ssl ⟨d, .ok .read⟩ = ⟨d, .ok .read⟩ := rfl
  cases msgs with
  | nil => rw [feed, feed, hsettle, hread]
  | cons msg msgs => rw [feed, feed, hsettle, hread]

theorem feed_of_ended {r : Reply} {ec : ErrorCode} (h : settled ssl r = .error (.ok ec)) :
    ∃ d, feed ssl r [] = .ok ⟨d, some ec, []⟩ := by
  unfold settled at h
  split at h
  · cases h
  · rename_i hres
    cases h
    exact ⟨_, by rw [feed, ended, hres]⟩
  · cases h
  · cases h

/-- Stepping the machine through messages is feeding them to it. -/
theorem feed_of_startupSteps {d : Data} {msgs : List AnyBackendMessage}
    {o : Except (Checked ErrorCode) Data} {ec : ErrorCode}
    (h : Steps (startupStep ssl) d msgs o) (ho : o = .error (.ok ec)) :
    ∃ d', feed ssl ⟨d, .ok .read⟩ msgs = .ok ⟨d', some ec, []⟩ := by
  induction h with
  | nil => cases ho
  | last h =>
    rw [ho] at h
    exact feed_of_ended h
  | @cons d₀ d₁ msg ms _ h _ ih =>
    obtain ⟨d', hd'⟩ := ih ho
    refine ⟨d', ?_⟩
    rw [← hd', ← feed_of_settled h]
    rfl

theorem feed_of_startupSteps_ok {d d' : Data} {msgs : List AnyBackendMessage}
    {o : Except (Checked ErrorCode) Data} (h : Steps (startupStep ssl) d msgs o) (ho : o = .ok d') :
    feed ssl ⟨d, .ok .read⟩ msgs = .ok ⟨d', none, []⟩ := by
  induction h with
  | nil =>
    cases ho
    rfl
  | last _ => cases ho
  | cons h _ ih =>
    rw [← ih ho, ← feed_of_settled h]
    rfl

theorem settle_withBuffer (r : Reply) (rb : ReadBuffer) :
    settle ssl (r.withBuffer rb) = (settle ssl r).withBuffer rb := by
  unfold settle
  rw [show (r.withBuffer rb).result = r.result from rfl]
  split
  · exact resume_withBuffer r.toData ssl .none rb
  · rfl

theorem ended_withBuffer {r : Reply} {unread : List AnyBackendMessage} {f : Feed}
    (rb : ReadBuffer) (h : ended r unread = .ok f) :
    ended (r.withBuffer rb) unread = .ok ⟨f.data.withBuffer rb, f.finished, f.unread⟩ := by
  unfold ended at h ⊢
  rw [show (r.withBuffer rb).result = r.result from rfl]
  split at h <;> cases h <;> rfl

/-- The messages a machine consumes and the code it ends with do not depend on its buffer. -/
theorem feed_withBuffer (rb : ReadBuffer) : ∀ (msgs : List AnyBackendMessage) {r : Reply} {f : Feed},
    feed ssl r msgs = .ok f →
    feed ssl (r.withBuffer rb) msgs = .ok ⟨f.data.withBuffer rb, f.finished, f.unread⟩
  | [], r, f, h => by
      unfold feed at h ⊢
      rw [settle_withBuffer]
      exact ended_withBuffer rb h
  | msg :: msgs, r, f, h => by
      unfold feed at h ⊢
      simp only at h ⊢
      rw [settle_withBuffer, show ((settle ssl r).withBuffer rb).result = (settle ssl r).result
        from rfl]
      split at h
      · have := feed_withBuffer rb msgs h
        rw [← resume_withBuffer] at this
        exact this
      · exact ended_withBuffer rb h

end

section
variable (ssl : OpenSsl) (params : ConnectParams) (st : ConnectionState) (diag : Diagnostics)
  (bytes : Bytes)

/-- The bytes the reference leaves are those behind the messages it delivers. -/
theorem startupReference_frames :
    ∃ used, bytes = used ++ (startupReference ssl params st diag bytes).rest ∧
      Frames messageParser used (startupReference ssl params st diag bytes).delivered := by
  unfold startupReference outcomeFrom
  split
  · exact ⟨[], rfl, .nil⟩
  · rename_i d _
    obtain ⟨used, hused, hframes⟩ := drain_frames messageParser (startupStep ssl) d bytes
    refine ⟨used, ?_, ?_⟩
    all_goals
      unfold StartupOutcome.ofDrained
      split <;> assumption

/-- **Where the reference stops with no error, the machine has ended with the last message it was
    handed.** -/
theorem startupReference_success {ec : ErrorCode} (hec : ec.failed = false)
    (h : (startupReference ssl params st diag bytes).result = some (.ok ec)) :
    ∃ d, feed ssl (StartupFsmImpl.start ssl params st diag)
      (startupReference ssl params st diag bytes).delivered = .ok ⟨d, some ec, []⟩ := by
  suffices hblank : ∃ d, feed ssl
      (StartupFsmImpl.start ssl params { st with readBuffer := blank } diag)
      (startupReference ssl params st diag bytes).delivered = .ok ⟨d, some ec, []⟩ by
    obtain ⟨d, hd⟩ := hblank
    have hst : (StartupFsmImpl.start ssl params { st with readBuffer := blank } diag).withBuffer
        st.readBuffer = StartupFsmImpl.start ssl params st diag :=
      (resume_withBuffer ⟨{ params }, { st with readBuffer := blank }, diag⟩ ssl .none
        st.readBuffer).symm
    exact ⟨_, hst ▸ feed_withBuffer st.readBuffer _ hd⟩
  unfold startupReference outcomeFrom at h ⊢
  split at h
  · rename_i result hset
    cases h
    exact feed_of_ended hset
  · rename_i d hset
    have hsteps := drain_steps messageParser (startupStep ssl) d bytes
    rw [feed_of_settled hset]
    unfold StartupOutcome.ofDrained at h ⊢
    simp only [Drained.after, List.nil_append] at h ⊢
    split at h
    · cases h
    · rename_i s ec' hbad
      cases h
      obtain ⟨b, hb⟩ := bad_of_drain _ _ _ _ hbad
      have := nextMessage_bad_failed hb
      simp [hec] at this
    · rename_i result hfin
      cases h
      rw [hfin] at hsteps
      exact feed_of_startupSteps hsteps rfl

/-- **No message is delivered behind one the machine has ended with.** -/
theorem startupReference_stops {pre post : List AnyBackendMessage} {d : Data} {ec : ErrorCode}
    {unread : List AnyBackendMessage}
    (hdelivered : (startupReference ssl params st diag bytes).delivered = pre ++ post)
    (hfeed : feed ssl (StartupFsmImpl.start ssl params st diag) pre = .ok ⟨d, some ec, unread⟩) :
    post = [] := by
  by_contra hpost
  have hblank := feed_withBuffer blank pre hfeed
  rw [show (StartupFsmImpl.start ssl params st diag).withBuffer blank =
    StartupFsmImpl.start ssl params { st with readBuffer := blank } diag from
    (resume_withBuffer ⟨{ params }, st, diag⟩ ssl .none blank).symm] at hblank
  unfold startupReference outcomeFrom at hdelivered
  split at hdelivered
  · exact hpost (List.append_eq_nil_iff.mp hdelivered.symm).2
  · rename_i d₀ hset
    have hsteps := drain_steps messageParser (startupStep ssl) d₀ bytes
    have hsame : (drain messageParser (startupStep ssl) d₀ bytes).delivered = pre ++ post := by
      rw [← hdelivered]
      unfold StartupOutcome.ofDrained
      split <;> rfl
    rw [hsame] at hsteps
    obtain ⟨d', hd'⟩ := hsteps.of_append hpost
    rw [feed_of_settled hset, feed_of_startupSteps_ok hd' rfl] at hblank
    cases hblank

end

/-! ## 5. Chunking does not matter -/

/-- The bytes `whole` are the messages delivered, one behind the other, and the rest; and every
    read had room for a byte. -/
structure ReadsAs (whole : Bytes) (delivered : List AnyBackendMessage) (rest : Bytes)
    (rooms : List Nat) : Prop where
  frames : ∃ used, whole = used ++ rest ∧ Frames messageParser used delivered
  rooms : ∀ k ∈ rooms, 0 < k

theorem exec_readsAs {setup : HandlerSetup} {req : Request} {allowCopy : Bool}
    {st : ConnectionState} {stream unread : Bytes} {s : ExecSession} {rooms : List Nat}
    (t : Run (execMachine setup) (.start setup req allowCopy st) stream s unread rooms) :
    ReadsAs (st.committed ++ stream) s.delivered (s.st.committed ++ unread) rooms := by
  obtain ⟨hout, hrooms⟩ := exec_run t
  have hframes := execReference_frames setup req allowCopy (st.committed ++ stream)
  rw [← hout] at hframes
  exact ⟨hframes, hrooms⟩

theorem exec_response {setup : HandlerSetup} {req : Request} {allowCopy : Bool}
    {st : ConnectionState} {stream unread : Bytes} {s : ExecSession} {rooms : List Nat}
    (t : Run (execMachine setup) (.start setup req allowCopy st) stream s unread rooms)
    {r : Checked ErrorCode} (h : s.action = .done r) :
    ∃ ec, r = .ok ec ∧ (ec.failed = false →
      ∃ f, (readResponseFsm req allowCopy).feed s.delivered = .ok ⟨f, s.calls, some ec, []⟩) := by
  have hout := (exec_run t).1
  have hres : (execReference setup req allowCopy (st.committed ++ stream)).result = some r := by
    rw [← hout]
    simp [ExecSession.outcome, h]
  have := execReference_result setup req allowCopy _ hres
  rwa [← hout] at this

theorem startup_readsAs {ssl : OpenSsl} {params : ConnectParams} {st : ConnectionState}
    {diag : Diagnostics} {stream unread : Bytes} {s : StartupSession} {rooms : List Nat}
    (t : Run (startupMachine ssl) (.start ssl params st diag) stream s unread rooms) :
    ReadsAs (st.committed ++ stream) s.delivered (s.st.committed ++ unread) rooms := by
  obtain ⟨hout, hrooms⟩ := startup_run t
  have hframes := startupReference_frames ssl params st diag (st.committed ++ stream)
  rw [← hout] at hframes
  exact ⟨hframes, hrooms⟩

theorem startup_response {ssl : OpenSsl} {params : ConnectParams} {st : ConnectionState}
    {diag : Diagnostics} {stream unread : Bytes} {s : StartupSession} {rooms : List Nat}
    (t : Run (startupMachine ssl) (.start ssl params st diag) stream s unread rooms)
    {ec : ErrorCode} (h : s.action = .done (.ok ec)) (hec : ec.failed = false) :
    ∃ d, feed ssl (StartupFsmImpl.start ssl params st diag) s.delivered = .ok ⟨d, some ec, []⟩ := by
  have hout := (startup_run t).1
  have hres : (startupReference ssl params st diag (st.committed ++ stream)).result =
      some (.ok ec) := by
    rw [← hout]
    simp [StartupSession.outcome, h]
  have := startupReference_success ssl params st diag _ hec hres
  rwa [← hout] at this

theorem startup_stops {ssl : OpenSsl} {params : ConnectParams} {st : ConnectionState}
    {diag : Diagnostics} {stream unread : Bytes} {s : StartupSession} {rooms : List Nat}
    (t : Run (startupMachine ssl) (.start ssl params st diag) stream s unread rooms)
    {pre post : List AnyBackendMessage} {d : Data} {ec : ErrorCode} {left : List AnyBackendMessage}
    (hdelivered : s.delivered = pre ++ post)
    (hfeed : feed ssl (StartupFsmImpl.start ssl params st diag) pre = .ok ⟨d, some ec, left⟩) :
    post = [] := by
  have hout := congrArg StartupOutcome.delivered (startup_run t).1
  exact startupReference_stops ssl params st diag _ (hout.symm.trans hdelivered) hfeed

/-- **Chunking does not matter.** Take any state of the connection, any bytes the server sends and
    any way of splitting them into successful reads, each of one byte up to the room in the
    buffer. The messages delivered, the code the run stops with (if it stops) and the bytes left
    behind, in the buffer and not yet read, are those of the reference, which knows of no reads:
    they are the same for every split. The bytes left behind are those behind the last delivered
    message; where the run stops with no error that message is the last one of the response (of
    the login). Every read is into a non-empty buffer; and there is such a run. -/
theorem reads_any_chunking :
    (∀ (setup : HandlerSetup) (req : Request) (allowCopy : Bool) (st : ConnectionState)
        (stream : Bytes),
      (∃ s unread rooms,
        Run (execMachine setup) (.start setup req allowCopy st) stream s unread rooms) ∧
      ∀ (s : ExecSession) (unread : Bytes) (rooms : List Nat),
        Run (execMachine setup) (.start setup req allowCopy st) stream s unread rooms →
        s.outcome unread = execReference setup req allowCopy (st.committed ++ stream) ∧
        ReadsAs (st.committed ++ stream) s.delivered (s.st.committed ++ unread) rooms ∧
        ∀ r, s.action = .done r → ∃ ec, r = .ok ec ∧ (ec.failed = false →
          ∃ f, (readResponseFsm req allowCopy).feed s.delivered =
            .ok ⟨f, s.calls, some ec, []⟩)) ∧
    (∀ (ssl : OpenSsl) (params : ConnectParams) (st : ConnectionState) (diag : Diagnostics)
        (stream : Bytes),
      (∃ s unread rooms,
        Run (startupMachine ssl) (.start ssl params st diag) stream s unread rooms) ∧
      ∀ (s : StartupSession) (unread : Bytes) (rooms : List Nat),
        Run (startupMachine ssl) (.start ssl params st diag) stream s unread rooms →
        s.outcome unread = startupReference ssl params st diag (st.committed ++ stream) ∧
        ReadsAs (st.committed ++ stream) s.delivered (s.st.committed ++ unread) rooms ∧
        ∀ ec, s.action = .done (.ok ec) → ec.failed = false →
          ∃ d, feed ssl (StartupFsmImpl.start ssl params st diag) s.delivered =
            .ok ⟨d, some ec, []⟩) := by
  refine ⟨fun setup req allowCopy st stream => ⟨exec_run_exists setup req allowCopy st stream, ?_⟩,
    fun ssl params st diag stream => ⟨startup_run_exists ssl params st diag stream, ?_⟩⟩
  · intro s unread rooms t
    exact ⟨(exec_run t).1, exec_readsAs t, fun r h => exec_response t h⟩
  · intro s unread rooms t
    exact ⟨(startup_run t).1, startup_readsAs t, fun ec h hec => startup_response t h hec⟩

/-- A handler that takes every message of the request. -/
def takesAll : HandlerSetup := fun req _ => (.success, req.messages.length)

/-- A request of a single sync. -/
def syncRequest : Request := { payload := [83, 0, 0, 0, 4], messages := [.sync] }

/-- A connection with room for four bytes only. -/
def narrowState : ConnectionState := { readBuffer := .new 4 }

/-- ReadyForQuery. -/
def readyBytes : Bytes := [90, 0, 0, 0, 5, 73]

/-- Two bytes of the answer arrive, then the other four; the buffer has to grow in between. -/
theorem reads_any_chunking_two_reads :
    ∃ s rooms, Run (execMachine takesAll) (.start takesAll syncRequest false narrowState) readyBytes
        s [] rooms ∧
      s.action = .done (.ok .success) ∧ rooms = [8, 6] ∧
      s.outcome [] = execReference takesAll syncRequest false (narrowState.committed ++ readyBytes) ∧
      ReadsAs (narrowState.committed ++ readyBytes) s.delivered (s.st.committed ++ []) rooms := by
  have t : Run (execMachine takesAll) (.start takesAll syncRequest false narrowState)
      ([90, 0] ++ ([0, 0, 5, 73] ++ [])) _ [] [8, 6] :=
    .write (w := [83, 0, 0, 0, 4]) (by decide +kernel)
      (.read (by decide +kernel) (by decide) (by decide)
        (.read (by decide +kernel) (by decide) (by decide)
          (.done (r := .ok .success) (by decide +kernel))))
  obtain ⟨hout, hreads, _⟩ :=
    (reads_any_chunking.1 takesAll syncRequest false narrowState readyBytes).2 _ _ _ t
  exact ⟨_, _, t, by decide +kernel, rfl, hout, hreads⟩

end NativePg
