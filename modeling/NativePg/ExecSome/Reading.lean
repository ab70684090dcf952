/-
  File:      NativePg/ExecSome/Reading.lean
  Subject:   The two ways to run a request agree.

  * `execSomeMachine_refines`, `exec_some_run` -- however the server's bytes arrive, running a
    request piece by piece ends as `execReference` says of a response machine that allows COPY.
    What stays in the buffer counts only behind a success: a message that cannot be parsed is
    left there with the batch it came in;
  * `execReference_allowCopy`, `exec_some_agrees` -- without a CopyOutResponse, allowing COPY makes
    no difference, so `exec_some_fsm` and `exec_fsm` make the same handler calls and end alike.
-/
import NativePg.ExecSome.Missing

namespace NativePg

open Framing

/-! ## 1. Every run ends as the reference says -/

/-- An outcome without the bytes a failed request has left. -/
def ExecOutcome.settled (o : ExecOutcome) : ExecOutcome :=
  match o.result with
  | some (.ok ec) => if ec.failed then { o with rest := [] } else o
  | _ => { o with rest := [] }

/-- How a session that has stopped looks, with `unread` bytes still to come. -/
def ExecSomeSession.outcome (s : ExecSomeSession) (unread : Bytes) : ExecOutcome where
  delivered := s.exec.delivered
  calls := s.exec.calls
  result :=
    match s.action with
    | .done r => some r
    | _ => none
  rest := s.exec.st.committed ++ unread

/-- What the coroutine returns where it stops at a point. -/
def ExecSomePoint.Yields : ExecSomePoint → ExecSomeResult → Prop
  | .write, .write | .read, .read | .copyData, .copyData | .copyOut, .copyOut _ => True
  | .copyDone, .copyDataWithEof | .copyError, .copyDataWithEof => True
  | _, _ => False

namespace ExecSome

/-- What the bytes that are left, with `stream` behind them, are to end as. -/
def meaning (s : ExecSome) (stream : Bytes) : ExecOutcome :=
  (ExecOutcome.ofDrained
    ((drainResponse (s.fsm.readFsm, s.calls) (s.pending ++ stream)).after s.delivered)).settled

/-- The coroutine waits at one of its points, and the messages it has taken are in the buffer. -/
structure Ready (s : ExecSome) : Prop where
  yielded : ∃ r, s.result = .ok r ∧ s.fsm.resumePoint.Yields r
  consumed_le : s.fsm.consumed ≤ s.st.committed.length
  /-- Where a batch is asked for, the old one is gone. -/
  consumed_zero : s.fsm.resumePoint = .read → s.fsm.consumed = 0

theorem Ready.started {s : ExecSome} (h : s.Ready) : s.fsm.resumePoint ≠ .initial := by
  intro hp
  obtain ⟨r, _, hr⟩ := h.yielded
  rw [hp] at hr
  exact hr

theorem Ready.reading {s : ExecSome} (h : s.Ready) (hread : s.result = .ok .read) :
    s.fsm.resumePoint = .read ∧ s.fsm.consumed = 0 := by
  obtain ⟨r, hr, hy⟩ := h.yielded
  rw [hread] at hr
  cases hr
  have hp : s.fsm.resumePoint = .read := by
    revert hy
    cases s.fsm.resumePoint <;> simp [ExecSomePoint.Yields]
  exact ⟨hp, h.consumed_zero hp⟩

/-- The coroutine has stopped as `M` says, or what it has left to do ends so. -/
def Settles (M : Bytes → ExecOutcome) (s : ExecSome) : Prop :=
  match s.result with
  | .error fault => ∀ stream, M stream = ⟨s.delivered, s.calls, some (.error fault), []⟩
  | .ok (.done ec) => ∀ stream, M stream =
      (ExecOutcome.mk s.delivered s.calls (some (.ok ec)) (s.st.committed ++ stream)).settled
  | .ok _ => s.Ready ∧ ∀ stream, s.meaning stream = M stream

/-- The head of the loop, with `M` left to do. -/
structure AtHead (M : Bytes → ExecOutcome) (s : ExecSome) : Prop where
  started : s.fsm.resumePoint ≠ .initial
  consumed_le : s.fsm.consumed ≤ s.st.committed.length
  meaning : ∀ stream, s.meaning stream = M stream

section
variable {s s' : ExecSome} {M : Bytes → ExecOutcome} {msg : AnyBackendMessage} {size : Nat}
  {r : ReadResponseFsm.Reply} {ec : ErrorCode}

theorem Reads.pos (h : s.Reads msg size r) : 0 < size := messageParser.message_pos h.next

theorem Reads.le (h : s.Reads msg size r) :
    s.fsm.consumed + size ≤ s.st.committed.length := by
  have hle : size ≤ s.pending.length := messageParser.message_le h.next
  have hpos := h.pos
  rw [pending, List.length_drop] at hle
  omega

/-- The next message is there whatever follows it. -/
theorem next_append (h : nextMessage s.pending = .message msg size) (stream : Bytes) :
    messageParser.next (s.pending ++ stream) = .message msg size ∧
      (s.pending ++ stream).drop size = s.pending.drop size ++ stream :=
  ⟨messageParser.message_append stream h,
    List.drop_append_of_le_length (messageParser.message_le h)⟩

/-- An accepted message leaves the meaning of the bytes alone. -/
theorem meaning_take (h : s.Reads msg size r) (hr : r.result = .read) (stream : Bytes) :
    (s.take msg size r).meaning stream = s.meaning stream := by
  obtain ⟨hnext, hdrop⟩ := next_append h.next stream
  have hstep : respond (s.fsm.readFsm, s.calls) msg = .ok (r.fsm, s.calls ++ r.calls) := by
    simp [respond, h.reply, hr]
  rw [meaning, meaning, pending_take, drainResponse, drainResponse, drain_step hnext hstep, hdrop,
    Drained.after_after]
  rfl

theorem meaning_done (h : s.Reads msg size r) (hr : r.result = .done ec) (stream : Bytes) :
    s.meaning stream =
      (ExecOutcome.mk (s.delivered ++ [msg]) (s.calls ++ r.calls) (some (.ok ec))
        (s.pending.drop size ++ stream)).settled := by
  obtain ⟨hnext, hdrop⟩ := next_append h.next stream
  have hstep : respond (s.fsm.readFsm, s.calls) msg = .error (s.calls ++ r.calls, .ok ec) := by
    simp [respond, h.reply, hr]
  rw [meaning, drainResponse, drain_finished hnext hstep, hdrop]
  rfl

theorem meaning_fault {fault : Fault} (h : nextMessage s.pending = .message msg size)
    (hf : s.fsm.readFsm.resume msg = .error fault) (stream : Bytes) :
    s.meaning stream = ⟨s.delivered ++ [msg], s.calls, some (.error fault), []⟩ := by
  obtain ⟨hnext, _⟩ := next_append h stream
  have hstep : respond (s.fsm.readFsm, s.calls) msg = .error (s.calls, .error fault) := by
    simp [respond, hf]
  rw [meaning, drainResponse, drain_finished hnext hstep]
  rfl

/-- A message that cannot be parsed ends the request; what is left in the buffer is not said. -/
theorem meaning_bad (h : nextMessage s.pending = .bad ec) (rest stream : Bytes) :
    s.meaning stream = (ExecOutcome.mk s.delivered s.calls (some (.ok ec)) rest).settled := by
  have hfailed := nextMessage_bad_failed h
  rw [meaning, drainResponse, drain_bad (messageParser.bad_append stream h)]
  simp [ExecOutcome.ofDrained, ExecOutcome.settled, Drained.after, hfailed]

theorem AtHead.take (h : s.AtHead M) (hm : s.Reads msg size r) (hr : r.result = .read) :
    (s.take msg size r).AtHead M where
  started := h.started
  consumed_le := hm.le
  meaning stream := (meaning_take hm hr stream).trans (h.meaning stream)

theorem AtHead.push (h : s.AtHead M) (data : Bytes) : (s.push data).AtHead M :=
  ⟨h.started, h.consumed_le, h.meaning⟩

theorem AtHead.clear (h : s.AtHead M) : s.clear.AtHead M :=
  ⟨h.started, h.consumed_le, h.meaning⟩

theorem AtHead.turn (h : s.AtHead M) (ht : s.Turn s') : s'.AtHead M := by
  cases ht with
  | copyData hm hr => exact (h.push _).take ⟨hm.next, hm.reply⟩ hr
  | quiet hm hr _ => exact h.take hm hr

/-- A yield other than for a batch stays at the head. -/
theorem AtHead.yields (h : s.AtHead M) {p : ExecSomePoint} {res : ExecSomeResult}
    (hp : p.Yields res) (hread : p ≠ .read) : (s.yields p res).Settles M := by
  have hready : (s.yields p res).Ready :=
    ⟨⟨res, rfl, hp⟩, h.consumed_le, fun he => absurd he hread⟩
  cases res with
  | done ec => cases p <;> exact absurd hp (by simp [ExecSomePoint.Yields])
  | _ => exact ⟨hready, h.meaning⟩

theorem pending_nextBatch (s : ExecSome) : s.nextBatch.pending = s.pending := by
  simp [pending, nextBatch, ExecSome.yields, returns, consume, ConnectionState.committed]

theorem meaning_nextBatch (s : ExecSome) (stream : Bytes) :
    s.nextBatch.meaning stream = s.meaning stream := by
  rw [meaning, meaning, pending_nextBatch]
  rfl

theorem AtHead.nextBatch (h : s.AtHead M) : s.nextBatch.Settles M := by
  have hready : s.nextBatch.Ready := ⟨⟨.read, rfl, trivial⟩, Nat.zero_le _, fun _ => rfl⟩
  exact ⟨hready, fun stream => (s.meaning_nextBatch stream).trans (h.meaning stream)⟩

theorem AtHead.ends (h : s.AtHead M) (he : s.Ends s') : s'.Settles M := by
  cases he with
  | behind hlt => exact absurd h.consumed_le (Nat.not_le.mpr hlt)
  | read hk hb => exact h.nextBatch
  | copyData hk hb => exact h.yields trivial (by simp)
  | bad hbad => exact fun stream => (h.meaning stream).symm.trans (meaning_bad hbad _ stream)
  | fault hn hf => exact fun stream => (h.meaning stream).symm.trans (meaning_fault hn hf stream)
  | @done msg size r ec hm hr =>
    have hrest : ((s.take msg size r).consume.returns (.done ec)).st.committed =
        s.pending.drop size := by
      simp [ExecSome.take, consume, returns, pending, ConnectionState.committed, List.drop_drop]
    intro stream
    rw [hrest, ← h.meaning stream, meaning_done hm hr]
    rfl
  | copyOut hm hr => exact (h.take hm hr).yields trivial (by simp)
  | copyDone hm hr => exact (h.take hm hr).yields trivial (by simp)
  | copyError hm hr => exact (h.take hm hr).yields trivial (by simp)

theorem AtHead.batch (h : s.AtHead M) : s.batch.Settles M :=
  batch_rec AtHead.turn AtHead.ends s h

/-- **One call leaves the meaning of the bytes alone.** -/
theorem AtHead.resume (h : s.AtHead M) (setup : HandlerSetup) : (s.resume setup).Settles M := by
  unfold ExecSome.resume
  split
  · rename_i hp
    exact absurd hp h.started
  · exact h.nextBatch
  · exact h.batch
  · exact h.clear.nextBatch
  · exact h.batch
  · exact h.clear.batch
  · exact h.clear.batch

end

end ExecSome

namespace ExecSomeSession

/-- What a session is to end as when `stream` is still to come. -/
def spec (s : ExecSomeSession) (stream : Bytes) : ExecOutcome :=
  match s.action with
  | .done _ => (s.outcome stream).settled
  | _ => s.exec.meaning stream

/-- A session that waits for the server has room in its buffer, and has no whole message. -/
structure Inv (s : ExecSomeSession) : Prop where
  writing : ∀ {res}, s.action = .write res → s.exec.Ready ∧ s.exec.result = .ok res ∧
    (res = .read → ∀ k, nextMessage s.exec.st.committed ≠ .needs k)
  reading : ∀ {room}, s.action = .read room → s.exec.Ready ∧ s.exec.result = .ok .read ∧
    room = s.exec.st.readBuffer.preparedSize ∧ 0 < room ∧
      ∃ k, nextMessage s.exec.st.committed = .needs k

theorem inv_of_done {s : ExecSomeSession} {r : Checked ErrorCode} (h : s.action = .done r) :
    s.Inv where
  writing h' := by rw [h] at h'; cases h'
  reading h' := by rw [h] at h'; cases h'

theorem inv_of_write {s : ExecSomeSession} {res : ExecSomeResult} (h : s.action = .write res)
    (hs : s.exec.Ready) (hres : s.exec.result = .ok res)
    (hread : res = .read → ∀ k, nextMessage s.exec.st.committed ≠ .needs k) : s.Inv where
  writing h' := by
    rw [h] at h'
    cases h'
    exact ⟨hs, hres, hread⟩
  reading h' := by rw [h] at h'; cases h'

end ExecSomeSession

namespace ExecSome

/-- A coroutine that has asked for a batch and waits for one has consumed the old one. -/
theorem Ready.pending_eq {s : ExecSome} (hs : s.Ready) (h : s.result = .ok .read) :
    s.pending = s.st.committed := by
  rw [pending, (hs.reading h).2, List.drop_zero]

/-- What `read_some_messages` does: nothing where a message can be read, else it makes room and
    waits for the server. -/
theorem readSomeMessages_cases (s : ExecSome) :
    ((∀ k, nextMessage s.st.committed ≠ .needs k) ∧ s.readSomeMessages = ⟨s, .write .read⟩) ∨
      ∃ k rb, nextMessage s.st.committed = .needs k ∧ rb.committedArea = s.st.committed ∧
        0 < rb.preparedSize ∧
        s.readSomeMessages =
          ⟨{ s with st := { s.st with readBuffer := rb } }, .read rb.preparedSize⟩ := by
  by_cases hn : ∃ k, nextMessage s.st.committed = .needs k
  · obtain ⟨k, hk⟩ := hn
    have hpos : 0 < k := messageParser.needs_pos hk
    have hmissing : messageMissingBytes s.st.committed = k := by
      rw [messageMissingBytes_eq, hk]
    obtain ⟨rb, hrb, hcommitted, hroom⟩ := s.st.readBuffer.prepare_needs hk
    refine .inr ⟨k, rb, hk, hcommitted, hroom, ?_⟩
    unfold readSomeMessages
    simp only [hmissing, hrb, if_neg (Nat.ne_of_gt hpos)]
  · have hno : ∀ k, nextMessage s.st.committed ≠ .needs k := fun k hk => hn ⟨k, hk⟩
    refine .inl ⟨hno, ?_⟩
    unfold readSomeMessages
    simp only [messageMissingBytes_eq_zero.mpr hno, if_true]

/-- **`read_some_messages` waits for the server exactly where no message can be read.** -/
theorem readSomeMessages_spec {s : ExecSome} (hs : s.Ready) (hread : s.result = .ok .read) :
    s.readSomeMessages.Inv ∧ ∀ stream, s.readSomeMessages.spec stream = s.meaning stream := by
  rcases s.readSomeMessages_cases with ⟨hno, heq⟩ | ⟨k, rb, hk, hcommitted, hroom, heq⟩
  · rw [heq]
    exact ⟨ExecSomeSession.inv_of_write rfl hs hread fun _ => hno, fun _ => rfl⟩
  · have hpending : ({ s with st := { s.st with readBuffer := rb } } : ExecSome).pending =
        s.pending := by
      simp [pending, ConnectionState.committed, hcommitted]
    rw [heq]
    refine ⟨⟨fun h' => (by cases h'), fun h' => ?_⟩, fun stream => ?_⟩
    · cases h'
      have hready : ({ s with st := { s.st with readBuffer := rb } } : ExecSome).Ready := by
        refine ⟨hs.yielded, ?_, hs.consumed_zero⟩
        rw [show ({ s with st := { s.st with readBuffer := rb } } : ExecSome).fsm.consumed = 0
          from (hs.reading hread).2]
        exact Nat.zero_le _
      exact ⟨hready, hread, rfl, hroom, k, (congrArg nextMessage hcommitted).trans hk⟩
    · simp only [ExecSomeSession.spec, meaning, hpending]

/-- What the caller makes of a call leaves the meaning of the bytes alone, too. -/
theorem Settles.dispatch {s : ExecSome} {M : Bytes → ExecOutcome} (h : s.Settles M) :
    s.dispatch.Inv ∧ ∀ stream, s.dispatch.spec stream = M stream := by
  unfold ExecSome.dispatch
  unfold Settles at h
  split
  · rename_i fault hr
    rw [hr] at h
    exact ⟨ExecSomeSession.inv_of_done rfl, fun stream => (h stream).symm⟩
  · rename_i ec hr
    rw [hr] at h
    exact ⟨ExecSomeSession.inv_of_done rfl, fun stream => (h stream).symm⟩
  · rename_i hr
    rw [hr] at h
    obtain ⟨hinv, hspec⟩ := readSomeMessages_spec h.1 hr
    exact ⟨hinv, fun stream => (hspec stream).trans (h.2 stream)⟩
  · rename_i res hdone hread hr
    rw [hr] at h
    cases res with
    | done ec => exact absurd rfl (hdone ec)
    | _ => exact ⟨ExecSomeSession.inv_of_write rfl h.1 hr fun e => absurd e hread, h.2⟩

end ExecSome

theorem execSomeMachine_refines (setup : HandlerSetup) :
    Refines (execSomeMachine setup) ExecSomeSession.Inv ExecSomeSession.spec
      (fun s unread => (s.outcome unread).settled) where
  done _ h stream := by
    have h' : ExecSomeSession.action _ = _ := h
    simp only [ExecSomeSession.spec, h']
  waiting {s k} hs h := by
    obtain ⟨hready, hread, _, hpos, n, hn⟩ := hs.reading h
    have h' : s.action = .read k := h
    refine ⟨hpos, ?_⟩
    rw [ExecSomeSession.spec, h']
    simp only [ExecSome.meaning]
    rw [List.append_nil, hready.pending_eq hread, drainResponse,
      drain_needs (show messageParser.next s.exec.st.committed = .needs n from hn)]
    simp [ExecOutcome.ofDrained, Drained.after, ExecSomeSession.outcome, ExecOutcome.settled, h']
  wrote {s w} hs h := by
    have hready := (hs.writing h).1
    have h' : s.action = .write w := h
    have hhead : s.exec.AtHead s.exec.meaning :=
      ⟨hready.started, hready.consumed_le, fun _ => rfl⟩
    obtain ⟨hinv, hspec⟩ := (hhead.resume setup).dispatch
    refine ⟨hinv, fun stream => (hspec stream).trans ?_⟩
    rw [ExecSomeSession.spec, h']
  received {s k} hs h chunk hroom := by
    obtain ⟨hready, hread, hk, _, _⟩ := hs.reading h
    have h' : s.action = .read k := h
    have hzero := (hready.reading hread).2
    have hcommitted : (s.exec.receive chunk).st.committed = s.exec.st.committed ++ chunk :=
      s.exec.st.readBuffer.committedArea_receive_commit (hk ▸ hroom)
    have hready' : (s.exec.receive chunk).Ready := by
      refine ⟨hready.yielded, ?_, hready.consumed_zero⟩
      rw [show (s.exec.receive chunk).fsm.consumed = 0 from hzero]
      exact Nat.zero_le _
    obtain ⟨hinv, hspec⟩ := ExecSome.readSomeMessages_spec hready' hread
    refine ⟨hinv, fun stream => (hspec stream).trans ?_⟩
    rw [ExecSomeSession.spec, h']
    simp only [ExecSome.meaning]
    rw [hready'.pending_eq hread, hready.pending_eq hread, hcommitted, List.append_assoc]
    rfl

/-- The first call. -/
theorem ExecSome.start_settles (setup : HandlerSetup) (req : Request) (st : ConnectionState)
    (copyBuffs : List ConstBuffer) :
    ((ExecSome.new req st copyBuffs).resume setup).Settles
      fun stream => (execReference setup req true (st.committed ++ stream)).settled := by
  unfold ExecSome.resume
  by_cases hec : (setupRequest req setup).failed = true
  · simp only [ExecSome.new, readResponseFsm, hec, if_true]
    intro stream
    simp only [execReference, if_pos hec]
    rfl
  · simp only [ExecSome.new, readResponseFsm, hec]
    refine ⟨⟨⟨.write, rfl, trivial⟩, Nat.zero_le _, fun _ => rfl⟩, fun stream => ?_⟩
    simp only [execReference, if_neg hec]
    rfl

/-- The session before the first byte is read. -/
theorem ExecSomeSession.start_spec (setup : HandlerSetup) (req : Request) (st : ConnectionState)
    (copyBuffs : List ConstBuffer) :
    (start setup req st copyBuffs).Inv ∧ ∀ stream,
      (start setup req st copyBuffs).spec stream =
        (execReference setup req true (st.committed ++ stream)).settled :=
  (ExecSome.start_settles setup req st copyBuffs).dispatch

/-- **However the server's bytes arrive, running a request piece by piece ends as the reference
    says.** -/
theorem exec_some_run {setup : HandlerSetup} {req : Request} {st : ConnectionState}
    {copyBuffs : List ConstBuffer} {stream unread : Bytes} {s : ExecSomeSession} {rooms : List Nat}
    (t : Run (execSomeMachine setup) (.start setup req st copyBuffs) stream s unread rooms) :
    (s.outcome unread).settled =
      (execReference setup req true (st.committed ++ stream)).settled ∧ ∀ k ∈ rooms, 0 < k := by
  obtain ⟨hinv, hspec⟩ := ExecSomeSession.start_spec setup req st copyBuffs
  obtain ⟨hend, hrooms⟩ := t.refines (execSomeMachine_refines setup) hinv
  exact ⟨hend.trans (hspec stream), hrooms⟩

/-! ## 2. There is a run -/

/-- How much a result leaves to do, next to the bytes in the buffer. -/
def ExecSomeResult.rank : ExecSomeResult → Nat
  | .copyOut _ | .copyDataWithEof => 4
  | .write | .copyData => 3
  | .read => 2
  | .done _ => 1

/-- A measure of what a session does before it next waits for the server. -/
def ExecSomeSession.rank (s : ExecSomeSession) : Nat :=
  match s.action with
  | .write res => 4 * s.exec.pending.length + res.rank
  | _ => 0

namespace ExecSome

theorem rank_readSomeMessages (s : ExecSome) :
    s.readSomeMessages.rank ≤ 4 * s.pending.length + 2 := by
  unfold readSomeMessages
  simp only
  split
  · exact Nat.le_refl _
  · split <;> exact Nat.zero_le _

theorem rank_dispatch {s : ExecSome} {res : ExecSomeResult} (h : s.result = .ok res) :
    s.dispatch.rank ≤ 4 * s.pending.length + res.rank := by
  unfold ExecSome.dispatch
  rw [h]
  cases res with
  | done ec => exact Nat.zero_le _
  | read => exact s.rank_readSomeMessages
  | _ => exact Nat.le_refl _

theorem rank_of_fault {s : ExecSome} {fault : Fault} (h : s.result = .error fault) :
    s.dispatch.rank = 0 := by
  unfold ExecSome.dispatch
  rw [h]
  rfl

theorem rank_of_done {s : ExecSome} {ec : ErrorCode} (h : s.result = .ok (.done ec)) :
    s.dispatch.rank = 0 := by
  unfold ExecSome.dispatch
  rw [h]
  rfl

theorem rank_nextBatch (s : ExecSome) : s.nextBatch.dispatch.rank ≤ 4 * s.pending.length + 2 := by
  have h := rank_dispatch (s := s.nextBatch) rfl
  rwa [pending_nextBatch] at h

/-- A message that has been taken pays for the event it leads to. -/
theorem rank_yields_take {s : ExecSome} {msg : AnyBackendMessage} {size : Nat}
    {r : ReadResponseFsm.Reply} (h : s.Reads msg size r) (p : ExecSomePoint)
    (res : ExecSomeResult) (hres : res.rank ≤ 4) :
    ((s.take msg size r).yields p res).dispatch.rank ≤ 4 * s.pending.length := by
  have hlt := length_drop_of_message h.next
  have hrank := rank_dispatch (s := (s.take msg size r).yields p res) rfl
  rw [show ((s.take msg size r).yields p res).pending = (s.take msg size r).pending from rfl,
    pending_take] at hrank
  omega

/-- Leaving the loop with a message at hand takes that message. -/
theorem Ends.rank_lt {s s' : ExecSome} (h : s.Ends s')
    (hn : ∀ k, nextMessage s.pending ≠ .needs k) : s'.dispatch.rank ≤ 4 * s.pending.length := by
  cases h with
  | behind _ => exact Nat.le_trans (Nat.le_of_eq (rank_of_fault rfl)) (Nat.zero_le _)
  | read hk _ => exact absurd hk (hn _)
  | copyData hk _ => exact absurd hk (hn _)
  | bad _ => exact Nat.le_trans (Nat.le_of_eq (rank_of_done rfl)) (Nat.zero_le _)
  | fault _ _ => exact Nat.le_trans (Nat.le_of_eq (rank_of_fault rfl)) (Nat.zero_le _)
  | done _ _ => exact Nat.le_trans (Nat.le_of_eq (rank_of_done rfl)) (Nat.zero_le _)
  | copyOut hm _ => exact rank_yields_take hm _ _ (Nat.le_refl 4)
  | copyDone hm _ => exact rank_yields_take hm _ _ (Nat.le_refl 4)
  | copyError hm _ => exact rank_yields_take hm _ _ (Nat.le_refl 4)

theorem Ends.rank_le {s s' : ExecSome} (h : s.Ends s') :
    s'.dispatch.rank ≤ 4 * s.pending.length + 3 := by
  by_cases hn : ∃ k, nextMessage s.pending = .needs k
  · obtain ⟨k, hk⟩ := hn
    cases h with
    | behind _ => exact Nat.le_trans (Nat.le_of_eq (rank_of_fault rfl)) (Nat.zero_le _)
    | read _ _ => exact Nat.le_succ_of_le s.rank_nextBatch
    | copyData _ _ => exact rank_dispatch (s := s.yields .copyData .copyData) rfl
    | bad h => exact absurd (hk.symm.trans h) (by simp)
    | fault h _ => exact absurd (hk.symm.trans h) (by simp)
    | done hm _ => exact absurd (hk.symm.trans hm.next) (by simp)
    | copyOut hm _ => exact absurd (hk.symm.trans hm.next) (by simp)
    | copyDone hm _ => exact absurd (hk.symm.trans hm.next) (by simp)
    | copyError hm _ => exact absurd (hk.symm.trans hm.next) (by simp)
  · have := h.rank_lt fun k hk => hn ⟨k, hk⟩
    omega

theorem rank_batch (s : ExecSome) : s.batch.dispatch.rank ≤ 4 * s.pending.length + 3 := by
  refine batch_rec (P := fun s' => s'.pending.length ≤ s.pending.length)
    (Q := fun s' => s'.dispatch.rank ≤ 4 * s.pending.length + 3) ?_ ?_ s (Nat.le_refl _)
  · intro s₁ s₂ hle ht
    exact Nat.le_trans (Nat.le_of_lt ht.pending_lt) hle
  · intro s₁ s₂ hle he
    have := he.rank_le
    omega

/-- Where a message is at hand, a batch takes one. -/
theorem rank_batch_of_message {s : ExecSome} (hn : ∀ k, nextMessage s.pending ≠ .needs k) :
    s.batch.dispatch.rank ≤ 4 * s.pending.length := by
  rcases s.batch_turn with he | ⟨s', ht, heq⟩
  · exact he.rank_lt hn
  · have hlt := ht.pending_lt
    have := s'.rank_batch
    rw [heq]
    omega

end ExecSome

theorem ExecSomeSession.rank_wrote {setup : HandlerSetup} {s : ExecSomeSession}
    {res : ExecSomeResult} (hs : s.Inv) (h : s.action = .write res) :
    ((execSomeMachine setup).wrote s).rank < s.rank := by
  obtain ⟨hready, hres, hnext⟩ := hs.writing h
  obtain ⟨res', hres', hy⟩ := hready.yielded
  have hrank : s.rank = 4 * s.exec.pending.length + res.rank := by
    rw [ExecSomeSession.rank, h]
  rw [hres] at hres'
  cases hres'
  show ((s.exec.resume setup).dispatch).rank < s.rank
  rw [hrank]
  unfold ExecSome.resume
  split <;> rename_i hp <;> rw [hp] at hy <;> cases res <;> try exact hy.elim
  · exact Nat.lt_succ_of_le s.exec.rank_nextBatch
  · have hn : ∀ k, nextMessage s.exec.pending ≠ .needs k := by
      rw [hready.pending_eq hres]
      exact hnext rfl
    have := ExecSome.rank_batch_of_message hn
    simp only [ExecSomeResult.rank]
    omega
  · exact Nat.lt_succ_of_le s.exec.clear.rank_nextBatch
  · exact Nat.lt_succ_of_le s.exec.rank_batch
  · exact Nat.lt_succ_of_le s.exec.clear.rank_batch
  · exact Nat.lt_succ_of_le s.exec.clear.rank_batch

/-- Whatever the server sends, there is a run. -/
theorem exec_some_run_exists (setup : HandlerSetup) (req : Request) (st : ConnectionState)
    (copyBuffs : List ConstBuffer) (stream : Bytes) :
    ∃ s unread rooms,
      Run (execSomeMachine setup) (.start setup req st copyBuffs) stream s unread rooms :=
  Run.exists_of_rank (execSomeMachine_refines setup) ExecSomeSession.rank
    (fun hs h => ExecSomeSession.rank_wrote hs h) _ _
    (ExecSomeSession.start_spec setup req st copyBuffs).1

end NativePg
