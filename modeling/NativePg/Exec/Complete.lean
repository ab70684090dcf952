/-
  File:      NativePg/Exec/Complete.lean
  Subject:   Executions on one connection, one behind the other, against a conforming server
             (`co_connection::exec`, src/co_connection.cpp).

  * `steps_of_feed` -- messages fed to the response machine step it;
  * `exec_answered` -- one execution: it ends without error, with exactly the calls the response
    stands for, and takes no byte more than the response off the connection;
  * `ExecJob`, `ExecRuns` -- executions that follow each other: each goes on with the buffer and
    the stream the one before it has left;
  * `Serves` -- what a conforming server sends for them, and how they are to end;
  * **`exec_sequence`** -- so they end, however the bytes are split into reads.
-/
import NativePg.Exec
import NativePg.Protocol.Wire
import NativePg.ReadResponse.Conversation

namespace NativePg

open Framing ReadResponseFsm

/-! ## 1. One execution -/

/-- **Messages that finish the response machine step it to its end.** -/
theorem steps_of_feed : ∀ {msgs : List AnyBackendMessage} {f f' : ReadResponseFsm}
    {cs : List Call} {ec : ErrorCode} (before : List Call),
    f.feed msgs = .ok ⟨f', cs, some ec, []⟩ →
    Steps respond (f, before) msgs (.error (before ++ cs, .ok ec))
  | [], _, _, _, _, _, h => by cases h
  | msg :: msgs, f, f', cs, ec, before, h => by
      cases hr : f.resume msg with
      | error e =>
          simp only [feed, hr] at h
          cases h
      | ok r =>
          cases hres : r.result with
          | done ec' =>
              simp only [feed, hr, hres, Except.ok.injEq, Run.mk.injEq, Option.some.injEq] at h
              obtain ⟨rfl, rfl, rfl, rfl⟩ := h
              exact .last (by simp only [respond, hr, hres])
          | read =>
              rw [feed_cons hr hres] at h
              cases ht : r.fsm.feed msgs with
              | error e =>
                  rw [ht] at h
                  cases h
              | ok t =>
                  rw [ht] at h
                  obtain ⟨g, cs', fin, unread⟩ := t
                  simp only [Except.map, Run.after, Except.ok.injEq, Run.mk.injEq] at h
                  obtain ⟨rfl, rfl, rfl, rfl⟩ := h
                  rw [← List.append_assoc]
                  exact .cons (by simp only [respond, hr, hres])
                    (steps_of_feed (before ++ r.calls) ht)

/-- A response as a conforming server sends it, with the calls it stands for; async messages may
    stand in it anywhere but at its end. -/
structure Responds (allowCopy : Bool) (req : Request) (ms : List ServerMessage) (cs : List Call) :
    Prop where
  conversation :
    Conversation allowCopy 0 req.messages (withoutAsync (ms.map ServerMessage.parsed)) cs
  ends : ∀ m ∈ (ms.map ServerMessage.parsed).getLast?, m.isAsync = false

/-- The response machine reads all of such a response. -/
theorem Responds.feed {allowCopy : Bool} {req : Request} {ms : List ServerMessage} {cs : List Call}
    (h : Responds allowCopy req ms cs) (hreq : req.Accepted) :
    ∃ f', (readResponseFsm req allowCopy).feed (ms.map ServerMessage.parsed) =
      .ok ⟨f', cs, some .success, []⟩ := by
  obtain ⟨f', unread, hfeed, hsuffix, hasync⟩ := feed_conversation hreq allowCopy h.conversation
  -- what stands behind the end would end in an async message
  have hnil : unread = [] := by
    rcases List.eq_nil_or_concat unread with hnil | ⟨l, m, rfl⟩
    · exact hnil
    · obtain ⟨read, hread⟩ := hsuffix
      have hlast : m ∈ (ms.map ServerMessage.parsed).getLast? := by
        rw [← hread, List.concat_eq_append, ← List.append_assoc, List.getLast?_concat]
        rfl
      have := h.ends m hlast
      rw [hasync m (by simp)] at this
      cases this
  exact ⟨f', by rw [hfeed, hnil]⟩

section
variable {setup : HandlerSetup} {req : Request} {allowCopy : Bool} {st : ConnectionState}
  {stream : Bytes}

theorem ExecSession.done_of_result {s : ExecSession} {unread : Bytes} {r : Checked ErrorCode}
    (h : (s.outcome unread).result = some r) : s.action = .done r := by
  cases hact : s.action with
  | done r' =>
    simp only [ExecSession.outcome, hact, Option.some.injEq] at h
    rw [h]
  | read k =>
    simp only [ExecSession.outcome, hact] at h
    cases h
  | write d =>
    simp only [ExecSession.outcome, hact] at h
    cases h

/-- A request that is rejected is not written, and nothing is read for it. -/
theorem exec_rejected (hec : (setupRequest req setup).failed = true) {unread : Bytes}
    {s : ExecSession} {rooms : List Nat}
    (t : Run (execMachine setup) (.start setup req allowCopy st) stream s unread rooms) :
    s.action = .done (.ok (setupRequest req setup)) ∧ s.calls = [] ∧ s.st = st ∧
      unread = stream := by
  have hstart : ExecSession.start setup req allowCopy st =
      { fsm := { readFsm := readResponseFsm req allowCopy }, st,
        result := .ok (.done (setupRequest req setup)) } := by
    simp [ExecSession.start, ExecFsm.resume, readResponseFsm, hec]
  have hdone : (execMachine setup).action (.start setup req allowCopy st) =
      .done (.ok (setupRequest req setup)) := by
    rw [hstart]
    rfl
  cases t with
  | done h => exact ⟨hdone, by rw [hstart], by rw [hstart], rfl⟩
  | waiting h => cases hdone.symm.trans h
  | write h _ => cases hdone.symm.trans h
  | read h _ _ _ => cases hdone.symm.trans h

/-- What an answered request is to end as. -/
theorem execReference_answered (hec : (setupRequest req setup).failed = false)
    {ms : List ServerMessage} {cs : List Call} (hwf : ∀ m ∈ ms, m.WellFormed)
    (hms : Responds allowCopy req ms cs) (later : Bytes) :
    execReference setup req allowCopy (ms.flatMap ServerMessage.wire ++ later) =
      ⟨ms.map ServerMessage.parsed, cs, some (.ok .success), later⟩ := by
  have hreq : req.Accepted := accepted_of_setupRequest (ne_true_of_eq_false hec)
  obtain ⟨f', hfeed⟩ := hms.feed hreq
  have hdrain := drain_frames_finished (ServerMessage.frames_wire hwf) (steps_of_feed [] hfeed)
    later
  rw [execReference, if_neg (ne_true_of_eq_false hec), drainResponse, hdrain]
  rfl

/-- **An answered execution.** It ends without error, its handler is told what the server says,
    and what is left, in the buffer or not yet read, is what the server sent behind the
    response. -/
theorem exec_answered (hec : (setupRequest req setup).failed = false) {ms : List ServerMessage}
    {cs : List Call} (hwf : ∀ m ∈ ms, m.WellFormed) (hms : Responds allowCopy req ms cs)
    {later : Bytes} (hstream : st.committed ++ stream = ms.flatMap ServerMessage.wire ++ later)
    {unread : Bytes} {s : ExecSession} {rooms : List Nat}
    (t : Run (execMachine setup) (.start setup req allowCopy st) stream s unread rooms) :
    s.action = .done (.ok .success) ∧ s.calls = cs ∧ s.st.committed ++ unread = later := by
  have hend := (exec_run t).1
  rw [hstream, execReference_answered hec hwf hms later] at hend
  have hr := ExecSession.done_of_result (congrArg ExecOutcome.result hend)
  exact ⟨hr, congrArg ExecOutcome.calls hend, congrArg ExecOutcome.rest hend⟩

end

/-! ## 2. One after the other -/

/-- What `co_connection::exec` is called with: a request, and the handler's setup. -/
structure ExecJob where
  setup : HandlerSetup
  req : Request

/-- **Executions on one connection**: each run starts with the state the one before has left, and
    with the bytes it has not read. `ss` are the sessions as they stopped. -/
inductive ExecRuns : ConnectionState → Bytes → List ExecJob → List ExecSession →
    ConnectionState → Bytes → Prop where
  | nil {st stream} : ExecRuns st stream [] [] st stream
  | cons {st stream job s unread rooms jobs ss st' unread'}
      (t : Run (execMachine job.setup) (.start job.setup job.req false st) stream s unread rooms)
      (h : ExecRuns s.st unread jobs ss st' unread') :
      ExecRuns st stream (job :: jobs) (s :: ss) st' unread'

/-- Whatever the server sends, the executions have runs. -/
theorem execRuns_exist : ∀ (jobs : List ExecJob) (st : ConnectionState) (stream : Bytes),
    ∃ ss st' unread, ExecRuns st stream jobs ss st' unread
  | [], st, stream => ⟨[], st, stream, .nil⟩
  | job :: jobs, st, stream => by
      obtain ⟨s, unread, rooms, t⟩ := exec_run_exists job.setup job.req false st stream
      obtain ⟨ss, st', unread', h⟩ := execRuns_exist jobs s.st unread
      exact ⟨s :: ss, st', unread', .cons t h⟩

/-- How an execution ends: what its handler was told, and the code. -/
abbrev ExecEnd := List Call × ErrorCode

/-- **What a conforming server sends for some executions**, and how each of them is to end. A
    rejected request does not reach the server. -/
inductive Serves : List ExecJob → List ServerMessage → List ExecEnd → Prop where
  | nil : Serves [] [] []
  | rejected {job jobs ms ends} (hec : (setupRequest job.req job.setup).failed = true)
      (h : Serves jobs ms ends) :
      Serves (job :: jobs) ms (([], setupRequest job.req job.setup) :: ends)
  | answered {job jobs a cs ms ends} (hec : (setupRequest job.req job.setup).failed = false)
      (ha : Responds false job.req a cs) (h : Serves jobs ms ends) :
      Serves (job :: jobs) (a ++ ms) ((cs, .success) :: ends)

/-- A session that stopped as it was to end. -/
def ExecSession.EndedAs (s : ExecSession) (e : ExecEnd) : Prop :=
  s.action = .done (.ok e.2) ∧ s.calls = e.1

/-- However the bytes are split into reads, across the ends of responses too, every execution
    takes its own response off the connection. -/
theorem ExecRuns.ends {jobs : List ExecJob} {ms : List ServerMessage} {ends : List ExecEnd}
    (hserves : Serves jobs ms ends) (hwf : ∀ m ∈ ms, m.WellFormed) {st st' : ConnectionState}
    {stream unread later : Bytes}
    (hstream : st.committed ++ stream = ms.flatMap ServerMessage.wire ++ later)
    {ss : List ExecSession} (h : ExecRuns st stream jobs ss st' unread) :
    List.Forall₂ ExecSession.EndedAs ss ends ∧ st'.committed ++ unread = later := by
  induction hserves generalizing st stream ss with
  | nil =>
    cases h
    exact ⟨.nil, hstream⟩
  | rejected hec _ ih =>
    cases h with
    | cons t h =>
      obtain ⟨hdone, hcalls, hst, rfl⟩ := exec_rejected hec t
      rw [← hst] at hstream
      obtain ⟨hends, hleft⟩ := ih hwf hstream h
      exact ⟨.cons ⟨hdone, hcalls⟩ hends, hleft⟩
  | @answered job jobs a cs ms ends hec ha _ ih =>
    cases h with
    | cons t h =>
      rw [List.flatMap_append, List.append_assoc] at hstream
      obtain ⟨hdone, hcalls, hrest⟩ :=
        exec_answered hec (fun m hm => hwf m (List.mem_append_left _ hm)) ha hstream t
      obtain ⟨hends, hleft⟩ := ih (fun m hm => hwf m (List.mem_append_right _ hm)) hrest h
      exact ⟨.cons ⟨hdone, hcalls⟩ hends, hleft⟩

/-- **Executions on one connection do not disturb each other.** Against a conforming server they
    have a run, and in every run each ends with its own code, its handler having been told its own
    response; what is left is what the server sent behind the last response. -/
theorem exec_sequence {jobs : List ExecJob} {ms : List ServerMessage} {ends : List ExecEnd}
    (hserves : Serves jobs ms ends) (hwf : ∀ m ∈ ms, m.WellFormed) {st : ConnectionState}
    {stream later : Bytes}
    (hstream : st.committed ++ stream = ms.flatMap ServerMessage.wire ++ later) :
    (∃ ss st' unread, ExecRuns st stream jobs ss st' unread) ∧
      ∀ ss st' unread, ExecRuns st stream jobs ss st' unread →
        List.Forall₂ ExecSession.EndedAs ss ends ∧ st'.committed ++ unread = later :=
  ⟨execRuns_exist jobs st stream, fun _ _ _ h => h.ends hserves hwf hstream⟩

/-- A handler that takes every message of a request. -/
def acceptsAll : HandlerSetup := fun req _ => (.success, req.messages.length)

/-- An empty query with a notice, a request that is rejected, and a batch that fails. -/
def threeJobs : List ExecJob :=
  [⟨acceptsAll, { messages := [.query] }⟩, ⟨acceptsAll, { messages := [.bind] }⟩,
    ⟨acceptsAll, { messages := [.parse, .bind, .execute, .sync] }⟩]

def threeAnswers : List ServerMessage :=
  [.notice [(83, [65])], .plain .emptyQueryResponse, .plain (.readyForQuery .idle),
    .plain .parseComplete, .error [(67, [48])], .plain (.readyForQuery .failed)]

theorem serves_three : Serves threeJobs threeAnswers
    [([⟨.emptyQueryResponse, 0⟩], .success), ([], setupRequest { messages := [.bind] } acceptsAll),
      ([⟨.parseComplete, 0⟩, ⟨.errorResponse { sqlstate := some [48] }, 1⟩, ⟨.messageSkipped, 2⟩],
        .success)] := by
  refine .answered (a := [_, _, _]) rfl ⟨.query (.inl .queryEmpty) .idle .nil, by decide⟩ ?_
  refine .rejected rfl (.answered (a := [_, _, _]) rfl ⟨?_, by decide⟩ .nil)
  exact .answered (a := [.parseComplete]) rfl .parse
    (.failed (a := [.errorResponse _]) rfl ⟨[], _, _, by simp, .bind, rfl⟩ (.sync .failed .nil))

theorem threeAnswers_wellFormed : ∀ m ∈ threeAnswers, m.WellFormed := by
  intro m hm
  simp only [threeAnswers, List.mem_cons, List.not_mem_nil, or_false] at hm
  have hfields : ∀ b : UInt8, b = 65 ∨ b = 48 → ∀ t : UInt8, t = 83 ∨ t = 67 →
      ServerMessage.FieldsKnown [(t, [b])] := by
    rintro b (rfl | rfl) t (rfl | rfl) f hf <;>
      (rw [List.mem_singleton.mp hf]; exact ⟨by unfold ErrorField.WellFormed; decide, by decide⟩)
  rcases hm with rfl | rfl | rfl | rfl | rfl | rfl
  · exact ⟨by decide, hfields 65 (.inl rfl) 83 (.inl rfl)⟩
  · exact ⟨by decide, trivial, trivial⟩
  · exact ⟨by decide, trivial, trivial⟩
  · exact ⟨by decide, trivial, trivial⟩
  · exact ⟨by decide, hfields 48 (.inr rfl) 67 (.inr rfl)⟩
  · exact ⟨by decide, trivial, trivial⟩

/-- On a fresh connection, with one more notice behind the last response. -/
theorem exec_sequence_three : ∃ ss st' unread,
    ExecRuns {} (threeAnswers.flatMap ServerMessage.wire ++ ServerMessage.wire (.notice []))
      threeJobs ss st' unread ∧
    st'.committed ++ unread = ServerMessage.wire (.notice []) := by
  obtain ⟨⟨ss, st', unread, hruns⟩, hall⟩ :=
    exec_sequence serves_three threeAnswers_wellFormed
      (show ConnectionState.committed {} ++ _ = _ ++ _ from rfl)
  exact ⟨ss, st', unread, hruns, (hall ss st' unread hruns).2⟩

end NativePg
