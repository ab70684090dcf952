/-
  File:      NativePg/ExecSome/Mixed.lean
  Subject:   Requests on one connection, some run as a whole (`co_connection::exec`) and some piece
             by piece (`setup_request`, then `exec_some` until it is over), against a conforming
             server (src/co_connection.cpp, include/nativepg/protocol/detail/exec_some_fsm.hpp).

  * `exec_some_answered` -- one request run piece by piece: its handler is told what the server
    says, the user is handed the data of its COPYs, and it takes no byte more than the response;
  * `Driver`, `DrivenJob`, `DrivenRuns` -- requests that follow each other, each run by one of the
    two drivers, on the buffers the one before has left;
  * `DrivenServes` -- what a conforming server sends for them: a COPY OUT only to a request that
    is run piece by piece;
  * **`exec_mixed`** -- they do not disturb each other, however the bytes are split into reads.
-/
import NativePg.Exec.Complete
import NativePg.ExecSome.CopyOut

namespace NativePg

open Framing ReadResponseFsm

/-! ## 1. One request, piece by piece -/

section
variable {setup : HandlerSetup} {req : Request} {st : ConnectionState}
  {copyBuffs : List ConstBuffer} {stream : Bytes}

theorem ExecSomeSession.done_of_result {s : ExecSomeSession} {unread : Bytes}
    {r : Checked ErrorCode} (h : (s.outcome unread).result = some r) : s.action = .done r := by
  cases hact : s.action with
  | done r' =>
    simp only [ExecSomeSession.outcome, hact, Option.some.injEq] at h
    rw [h]
  | read k =>
    simp only [ExecSomeSession.outcome, hact] at h
    cases h
  | write d =>
    simp only [ExecSomeSession.outcome, hact] at h
    cases h

/-- **An answered request.** The data of its COPYs is handed out, byte for byte and in order. -/
theorem exec_some_answered (hec : (setupRequest req setup).failed = false)
    {ms : List ServerMessage} {cs : List Call} (hwf : ∀ m ∈ ms, m.WellFormed)
    (hms : Responds true req ms cs) {later : Bytes}
    (hstream : st.committed ++ stream = ms.flatMap ServerMessage.wire ++ later)
    {unread : Bytes} {s : ExecSomeSession} {rooms : List Nat}
    (t : Run (execSomeMachine setup) (.start setup req st copyBuffs) stream s unread rooms) :
    s.action = .done (.ok .success) ∧ s.exec.calls = cs ∧
      handedOut s.exec.trace = copyPayload (ms.map ServerMessage.parsed) ∧
      s.exec.st.committed ++ unread = later := by
  have hend := (exec_some_run t).1
  rw [hstream, execReference_answered hec hwf hms later] at hend
  have hresult := (settled_fields (s.outcome unread)).2.2
  rw [hend] at hresult
  have hdone : (s.outcome unread).result = some (.ok .success) := hresult.symm
  rw [settled_of_success hdone rfl] at hend
  have haction := ExecSomeSession.done_of_result hdone
  have hhanded := ((exec_some_tracked t).stopped haction).handed rfl
  have hdelivered : s.exec.delivered = ms.map ServerMessage.parsed :=
    congrArg ExecOutcome.delivered hend
  exact ⟨haction, congrArg ExecOutcome.calls hend, by rw [hhanded, hdelivered],
    congrArg ExecOutcome.rest hend⟩

/-- A request that is rejected is not written, nothing is read for it, and nothing handed out. -/
theorem exec_some_rejected (hec : (setupRequest req setup).failed = true) {unread : Bytes}
    {s : ExecSomeSession} {rooms : List Nat}
    (t : Run (execSomeMachine setup) (.start setup req st copyBuffs) stream s unread rooms) :
    s.action = .done (.ok (setupRequest req setup)) ∧ s.exec.calls = [] ∧
      handedOut s.exec.trace = [] ∧ s.exec.st = st ∧ unread = stream := by
  have hstart : ExecSomeSession.start setup req st copyBuffs =
      ⟨(ExecSome.new req st copyBuffs).returns (.done (setupRequest req setup)),
        .done (.ok (setupRequest req setup))⟩ := by
    simp [ExecSomeSession.start, ExecSome.resume, ExecSome.new, readResponseFsm, hec,
      ExecSome.dispatch, ExecSome.returns]
  have hdone : (execSomeMachine setup).action (.start setup req st copyBuffs) =
      .done (.ok (setupRequest req setup)) := by
    rw [hstart]
    rfl
  cases t with
  | done h =>
    rw [hstart]
    exact ⟨rfl, rfl, rfl, rfl, rfl⟩
  | waiting h => cases hdone.symm.trans h
  | write h _ => cases hdone.symm.trans h
  | read h _ _ _ => cases hdone.symm.trans h

end

/-! ## 2. One after the other -/

/-- How a request is run. -/
inductive Driver where
  | exec
  | execSome
  deriving DecidableEq, Repr

/-- Only `exec_some` can take a COPY OUT. -/
def Driver.allowCopy : Driver → Bool
  | .exec => false
  | .execSome => true

structure DrivenJob where
  driver : Driver
  setup : HandlerSetup
  req : Request

/-- A request that has stopped, and how it looks then. -/
inductive DrivenSession where
  | exec (s : ExecSession)
  | execSome (s : ExecSomeSession)

/-- **Requests on one connection.** Each run starts with the state and the views the one before has
    left, and with the bytes it has not read. -/
inductive DrivenRuns : ConnectionState → List ConstBuffer → Bytes → List DrivenJob →
    List DrivenSession → ConnectionState → Bytes → Prop where
  | nil {st copyBuffs stream} : DrivenRuns st copyBuffs stream [] [] st stream
  | exec {st copyBuffs stream setup req s unread rooms jobs ss st' unread'}
      (t : Run (execMachine setup) (.start setup req false st) stream s unread rooms)
      (h : DrivenRuns s.st copyBuffs unread jobs ss st' unread') :
      DrivenRuns st copyBuffs stream (⟨.exec, setup, req⟩ :: jobs) (.exec s :: ss) st' unread'
  | execSome {st copyBuffs stream setup req s unread rooms jobs ss st' unread'}
      (t : Run (execSomeMachine setup) (.start setup req st copyBuffs) stream s unread rooms)
      (h : DrivenRuns s.exec.st s.exec.copyBuffs unread jobs ss st' unread') :
      DrivenRuns st copyBuffs stream (⟨.execSome, setup, req⟩ :: jobs) (.execSome s :: ss) st'
        unread'

/-- Whatever the server sends, there are runs. -/
theorem drivenRuns_exist : ∀ (jobs : List DrivenJob) (st : ConnectionState)
    (copyBuffs : List ConstBuffer) (stream : Bytes),
    ∃ ss st' unread, DrivenRuns st copyBuffs stream jobs ss st' unread
  | [], st, _, stream => ⟨[], st, stream, .nil⟩
  | ⟨.exec, setup, req⟩ :: jobs, st, copyBuffs, stream => by
      obtain ⟨s, unread, rooms, t⟩ := exec_run_exists setup req false st stream
      obtain ⟨ss, st', unread', h⟩ := drivenRuns_exist jobs s.st copyBuffs unread
      exact ⟨_, st', unread', .exec t h⟩
  | ⟨.execSome, setup, req⟩ :: jobs, st, copyBuffs, stream => by
      obtain ⟨s, unread, rooms, t⟩ := exec_some_run_exists setup req st copyBuffs stream
      obtain ⟨ss, st', unread', h⟩ := drivenRuns_exist jobs s.exec.st s.exec.copyBuffs unread
      exact ⟨_, st', unread', .execSome t h⟩

/-- How a request is to end: the code, what its handler is told, and the COPY data its user is
    handed. -/
structure DrivenEnd where
  code : ErrorCode
  calls : List Call
  data : Bytes

/-- **What a conforming server sends for some requests**, and how each of them is to end. -/
inductive DrivenServes : List DrivenJob → List ServerMessage → List DrivenEnd → Prop where
  | nil : DrivenServes [] [] []
  | rejected {job jobs ms ends} (hec : (setupRequest job.req job.setup).failed = true)
      (h : DrivenServes jobs ms ends) :
      DrivenServes (job :: jobs) ms (⟨setupRequest job.req job.setup, [], []⟩ :: ends)
  | answered {job jobs a cs ms ends} (hec : (setupRequest job.req job.setup).failed = false)
      (ha : Responds job.driver.allowCopy job.req a cs) (h : DrivenServes jobs ms ends) :
      DrivenServes (job :: jobs) (a ++ ms)
        (⟨.success, cs, copyPayload (a.map ServerMessage.parsed)⟩ :: ends)

/-- A request that stopped as it was to end. -/
def DrivenSession.EndedAs : DrivenSession → DrivenEnd → Prop
  | .exec s, e => s.action = .done (.ok e.code) ∧ s.calls = e.calls ∧ e.data = []
  | .execSome s, e =>
    s.action = .done (.ok e.code) ∧ s.exec.calls = e.calls ∧ handedOut s.exec.trace = e.data

/-! ## 3. Without a COPY -/

theorem Statement.copyPayload_nil {st : List AnyBackendMessage} (h : Statement false st) :
    copyPayload st = [] := by
  cases h with
  | rows d rs tag =>
    simp [copyPayload, List.flatMap_map, AnyBackendMessage.copyPayload]
  | bare tag => rfl
  | copy hc _ _ _ => cases hc

theorem Answer.copyPayload_nil {m : RequestMessageType} {a : List AnyBackendMessage}
    (h : Answer false m a) : copyPayload a = [] := by
  cases h with
  | execute rs tag | executeSuspended rs =>
    simp [copyPayload, List.flatMap_map, AnyBackendMessage.copyPayload]
  | executeCopy hc _ _ _ => cases hc
  | query ss _ hall =>
    unfold copyPayload
    rw [List.flatten_eq_flatMap, List.flatMap_assoc, List.flatMap_eq_nil_iff]
    exact fun st hst => (hall st hst).copyPayload_nil
  | _ => rfl

theorem Cut.copyPayload_nil {m : RequestMessageType} {a : List AnyBackendMessage}
    (h : Cut false m a) : copyPayload a = [] := by
  obtain ⟨p, q, e, -, hans, rfl⟩ := h
  have hall := hans.copyPayload_nil
  unfold copyPayload at hall ⊢
  rw [List.flatMap_append, List.append_eq_nil_iff] at hall
  rw [List.flatMap_append, hall.1]
  rfl

/-- A server that may not begin a COPY sends no data. -/
theorem Transcript.copyPayload_nil {ms : List RequestMessageType} {t : List AnyBackendMessage}
    (h : Transcript false ms t) : copyPayload t = [] := by
  have happend : ∀ a b : List AnyBackendMessage,
      copyPayload (a ++ b) = copyPayload a ++ copyPayload b := fun _ _ => List.flatMap_append
  induction h with
  | nil => rfl
  | flush _ ih => exact ih
  | sync status _ ih => exact ih
  | answered _ ha _ ih => rw [happend, ha.copyPayload_nil, ih]; rfl
  | failed _ ha _ ih => rw [happend, ha.copyPayload_nil, ih]; rfl
  | query ha status _ ih =>
    have hanswer := ha.elim Answer.copyPayload_nil Cut.copyPayload_nil
    rw [happend, hanswer]
    exact ih

theorem copyPayload_withoutAsync (msgs : List AnyBackendMessage) :
    copyPayload (withoutAsync msgs) = copyPayload msgs := by
  induction msgs with
  | nil => rfl
  | cons msg msgs ih =>
    have hcons : ∀ l, copyPayload (msg :: l) = msg.copyPayload ++ copyPayload l := fun _ => rfl
    cases ha : msg.isAsync with
    | false =>
      rw [show withoutAsync (msg :: msgs) = msg :: withoutAsync msgs by simp [withoutAsync, ha],
        hcons, hcons, ih]
    | true =>
      rw [show withoutAsync (msg :: msgs) = withoutAsync msgs by simp [withoutAsync, ha], hcons,
        copyPayload_of_quiet (quiet_of_isAsync ha), ih]
      rfl

theorem Responds.copyPayload_nil {req : Request} {ms : List ServerMessage} {cs : List Call}
    (h : Responds false req ms cs) : copyPayload (ms.map ServerMessage.parsed) = [] := by
  rw [← copyPayload_withoutAsync]
  exact h.conversation.transcript.copyPayload_nil

/-! ## 4. The sequence -/

/-- **However the bytes are split into reads, each request takes its own response off the
    connection**, by whichever of the drivers it is run. -/
theorem DrivenRuns.ends {jobs : List DrivenJob} {ms : List ServerMessage} {ends : List DrivenEnd}
    (hserves : DrivenServes jobs ms ends) (hwf : ∀ m ∈ ms, m.WellFormed) {st st' : ConnectionState}
    {copyBuffs : List ConstBuffer} {stream unread later : Bytes}
    (hstream : st.committed ++ stream = ms.flatMap ServerMessage.wire ++ later)
    {ss : List DrivenSession} (h : DrivenRuns st copyBuffs stream jobs ss st' unread) :
    List.Forall₂ DrivenSession.EndedAs ss ends ∧ st'.committed ++ unread = later := by
  induction hserves generalizing st copyBuffs stream ss with
  | nil =>
    cases h
    exact ⟨.nil, hstream⟩
  | rejected hec _ ih =>
    cases h with
    | exec t h =>
      obtain ⟨hdone, hcalls, hst, rfl⟩ := exec_rejected hec t
      rw [← hst] at hstream
      obtain ⟨hends, hleft⟩ := ih hwf hstream h
      exact ⟨.cons ⟨hdone, hcalls, rfl⟩ hends, hleft⟩
    | execSome t h =>
      obtain ⟨hdone, hcalls, hdata, hst, rfl⟩ := exec_some_rejected hec t
      rw [← hst] at hstream
      obtain ⟨hends, hleft⟩ := ih hwf hstream h
      exact ⟨.cons ⟨hdone, hcalls, hdata⟩ hends, hleft⟩
  | answered hec ha _ ih =>
    rw [List.flatMap_append, List.append_assoc] at hstream
    have hown := fun m hm => hwf m (List.mem_append_left _ hm)
    have hlater := fun m hm => hwf m (List.mem_append_right _ hm)
    cases h with
    | exec t h =>
      obtain ⟨hdone, hcalls, hrest⟩ := exec_answered hec hown ha hstream t
      obtain ⟨hends, hleft⟩ := ih hlater hrest h
      exact ⟨.cons ⟨hdone, hcalls, ha.copyPayload_nil⟩ hends, hleft⟩
    | execSome t h =>
      obtain ⟨hdone, hcalls, hdata, hrest⟩ := exec_some_answered hec hown ha hstream t
      obtain ⟨hends, hleft⟩ := ih hlater hrest h
      exact ⟨.cons ⟨hdone, hcalls, hdata⟩ hends, hleft⟩

/-- **Requests on one connection do not disturb each other, by whichever driver each is run.**
    Against a conforming server they have runs, and in every run each request ends with its own
    code, its handler having been told its own response; the data of its COPYs has been handed out
    byte for byte and in order. What is left is what the server sent behind the last response. -/
theorem exec_mixed {jobs : List DrivenJob} {ms : List ServerMessage} {ends : List DrivenEnd}
    (hserves : DrivenServes jobs ms ends) (hwf : ∀ m ∈ ms, m.WellFormed) {st : ConnectionState}
    {copyBuffs : List ConstBuffer} {stream later : Bytes}
    (hstream : st.committed ++ stream = ms.flatMap ServerMessage.wire ++ later) :
    (∃ ss st' unread, DrivenRuns st copyBuffs stream jobs ss st' unread) ∧
      ∀ ss st' unread, DrivenRuns st copyBuffs stream jobs ss st' unread →
        List.Forall₂ DrivenSession.EndedAs ss ends ∧ st'.committed ++ unread = later :=
  ⟨drivenRuns_exist jobs st copyBuffs stream, fun _ _ _ h => h.ends hserves hwf hstream⟩

/-- A COPY of two rows, piece by piece, and an empty query behind it. -/
def mixedJobs : List DrivenJob :=
  [⟨.execSome, acceptsAll, { messages := [.query] }⟩, ⟨.exec, acceptsAll, { messages := [.query] }⟩]

def mixedAnswers : List ServerMessage :=
  [.plain (.copyOutResponse .text [.text]), .plain (.copyData (ascii "ab")),
    .plain (.copyData (ascii "c")), .plain .copyDone, .plain (.commandComplete (ascii "COPY 2")),
    .plain (.readyForQuery .idle), .plain .emptyQueryResponse, .plain (.readyForQuery .idle)]

theorem mixedAnswers_wellFormed : ∀ m ∈ mixedAnswers, m.WellFormed := by
  intro m hm
  simp only [mixedAnswers, List.mem_cons, List.not_mem_nil, or_false] at hm
  have htag : (0 : UInt8) ∉ ascii "COPY 2" := by decide
  rcases hm with rfl | rfl | rfl | rfl | rfl | rfl | rfl | rfl
  · exact ⟨by decide, ⟨by decide, by simp⟩, trivial⟩
  · exact ⟨by decide, trivial, trivial⟩
  · exact ⟨by decide, trivial, trivial⟩
  · exact ⟨by decide, trivial, trivial⟩
  · exact ⟨by decide, htag, trivial⟩
  · exact ⟨by decide, trivial, trivial⟩
  · exact ⟨by decide, trivial, trivial⟩
  · exact ⟨by decide, trivial, trivial⟩

theorem answer_copyOut (m : CopyResponse) (ds : List Bytes) (tag : Bytes) :
    Answer true .query (copyOutBlock m ds tag) := by
  have h : Answer true .query [copyOutBlock m ds tag].flatten :=
    .query _ (by simp) (List.forall_mem_singleton.mpr (.copy rfl m ds tag))
  rwa [List.flatten_singleton] at h

theorem serves_mixed : ∃ ends, DrivenServes mixedJobs mixedAnswers ends ∧
    ends.map DrivenEnd.data = [ascii "abc", []] := by
  have hcopy : Transcript true [.query]
      (withoutAsync ((mixedAnswers.take 6).map ServerMessage.parsed)) :=
    .query (.inl (answer_copyOut _ [_, _] _)) .idle .nil
  have hempty : Transcript false [.query]
      (withoutAsync ((mixedAnswers.drop 6).map ServerMessage.parsed)) :=
    .query (a := [_]) (.inl .queryEmpty) .idle .nil
  obtain ⟨cs, hcs⟩ := hcopy.conversation 0
  obtain ⟨cs', hcs'⟩ := hempty.conversation 0
  exact ⟨[⟨.success, cs, ascii "abc"⟩, ⟨.success, cs', []⟩],
    .answered (a := mixedAnswers.take 6) rfl ⟨hcs, by decide⟩
      (.answered (a := mixedAnswers.drop 6) rfl ⟨hcs', by decide⟩ .nil), rfl⟩

/-- The data is handed out, and the empty query is answered. -/
theorem exec_mixed_two : ∃ ss st' unread ends,
    DrivenRuns {} [] (mixedAnswers.flatMap ServerMessage.wire) mixedJobs ss st' unread ∧
    List.Forall₂ DrivenSession.EndedAs ss ends ∧
    ends.map DrivenEnd.data = [ascii "abc", []] := by
  obtain ⟨ends, hserves, hdata⟩ := serves_mixed
  have hstream : ConnectionState.committed {} ++ mixedAnswers.flatMap ServerMessage.wire =
      mixedAnswers.flatMap ServerMessage.wire ++ [] := (List.append_nil _).symm
  obtain ⟨⟨ss, st', unread, h⟩, hall⟩ :=
    @exec_mixed _ _ _ hserves mixedAnswers_wellFormed {} [] _ _ hstream
  exact ⟨ss, st', unread, ends, h, (hall ss st' unread h).1, hdata⟩

end NativePg
