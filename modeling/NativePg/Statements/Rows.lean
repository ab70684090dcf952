/-
  File:      NativePg/Statements/Rows.lean
  Subject:   The rows of a typed query, from the database to the members of a C++ row type
             (`co_connection::exec` with `into` or `resultset_callback`).

  * `ExecFsm.getResult` -- what `exec` returns;
  * `Conducts.at` -- one execution among others: it is told the answer to its own calls, in the
    session the requests before it leave;
  * **`typed_rows`** -- from the call to the rows of its user, and the error they may end with;
  * **`typed_rejected`** -- a statement that does not get so far: its error is returned, and there
    are no rows.
-/
import NativePg.Statements.Results
import NativePg.Statements.RowTypes
import NativePg.Statements.Served

namespace NativePg

open NativePg.Types Responses RequestBuilder

/-! ## 1. One execution among others -/

/-- The execution of a request finds the session the requests before it leave. -/
theorem Concludes.at {db : Database} {j : TypedJob} {post : List TypedJob}
    (hj : j.built.job.accepted = true) : ∀ {pre : List TypedJob} {s : ServerSession}
    {ends : List ExecEnd}, Concludes db s (pre ++ j :: post) ends → ∃ cs,
    ends[pre.length]? = some (cs, .success) ∧
      (∀ m ∈ answerAll db (TypedJob.runJobs db.toEngine s pre) j.built.meant, m.WellFormed) ∧
      Conversation false 0 j.built.job.req.messages
        ((answerAll db (TypedJob.runJobs db.toEngine s pre) j.built.meant).map
          ServerMessage.parsed) cs
  | [], s, _, h => by
      cases h with
      | rejected hec _ => exact absurd (hj.symm.trans hec) (by decide)
      | answered _ hwf hcs _ => exact ⟨_, rfl, hwf, hcs⟩
  | p :: pre, s, _, h => by
      cases h with
      | rejected hec h =>
        have hrun : TypedJob.runJobs db.toEngine s (p :: pre) =
            TypedJob.runJobs db.toEngine s pre := by
          simp [TypedJob.runJobs, hec]
        rw [hrun]
        exact Concludes.at hj h
      | answered hec _ _ h =>
        have hrun : TypedJob.runJobs db.toEngine s (p :: pre) =
            TypedJob.runJobs db.toEngine (p.run db.toEngine s) pre := by
          simp [TypedJob.runJobs, hec]
        rw [hrun]
        exact Concludes.at hj h

/-- What a request executes has the types it was prepared with, behind the requests before it. -/
theorem TypedJob.Proper.at {eng : Engine} {j : TypedJob} {post : List TypedJob}
    (hj : j.built.job.accepted = true) : ∀ {pre : List TypedJob} {s : ServerSession},
    TypedJob.Proper eng s ((pre ++ j :: post).filter (·.built.job.accepted)) →
    TypedCall.Proper eng j.built.autosync (TypedJob.runJobs eng s pre) j.calls
  | [], s, h => by
      rw [List.nil_append, List.filter_cons, if_pos hj] at h
      exact h.1
  | p :: pre, s, h => by
      rw [List.cons_append, List.filter_cons] at h
      cases hp : p.built.job.accepted with
      | false =>
        rw [hp] at h
        have hrun : TypedJob.runJobs eng s (p :: pre) = TypedJob.runJobs eng s pre := by
          simp [TypedJob.runJobs, hp]
        rw [hrun]
        exact TypedJob.Proper.at hj h
      | true =>
        rw [hp] at h
        have hrun : TypedJob.runJobs eng s (p :: pre) = TypedJob.runJobs eng (p.run eng s) pre := by
          simp [TypedJob.runJobs, hp]
        rw [hrun]
        exact TypedJob.Proper.at hj h.2

/-- **One execution among others** that is not rejected: it ends without error, and its handler has
    been told what the database answers to its calls in the session it finds. -/
theorem Conducts.at {db : Database} {pre post : List TypedJob} {j : TypedJob}
    (hdescribe : ∀ j' ∈ pre ++ j :: post, ∀ c ∈ j'.calls, c.describesStatement = false)
    (hproper : TypedJob.Proper db.toEngine .new
      ((pre ++ j :: post).filter (·.built.job.accepted)))
    {ms : List ServerMessage} (hwf : ∀ m ∈ ms, m.WellFormed) {st : ConnectionState}
    {stream later : Bytes}
    (hstream : st.committed ++ stream = ms.flatMap ServerMessage.wire ++ later)
    {ss : List ExecSession} {writes : List Bytes} {st' : ConnectionState} {unread : Bytes}
    (h : Conducts st stream ((pre ++ j :: post).map (·.built.job)) ss writes st' unread)
    (hserver : DatabaseAnswers db writes.flatten ms) (haccepted : j.built.job.accepted = true) :
    ∃ session, ss[pre.length]? = some session ∧ session.action = .done (.ok .success) ∧
      (∀ m ∈ answerAll db (TypedJob.runJobs db.toEngine .new pre) j.built.meant,
        m.WellFormed) ∧
      Conversation false 0 j.built.job.req.messages
        ((answerAll db (TypedJob.runJobs db.toEngine .new pre) j.built.meant).map
          ServerMessage.parsed) session.calls := by
  obtain ⟨answers, tail, ends, rfl, -, hserves, hends⟩ := h.serves hdescribe hproper hwf hserver
  rw [List.flatMap_append, List.append_assoc] at hstream
  obtain ⟨hended, -⟩ := h.runs.ends hserves
    (fun m hm => hwf m (List.mem_append_left _ hm)) hstream
  obtain ⟨cs, hend, hanswers, hconversation⟩ := hends.at haccepted
  obtain ⟨hlength, hall⟩ := List.forall₂_iff_get.mp hended
  obtain ⟨hlt, hget⟩ := List.getElem?_eq_some_iff.mp hend
  have hsession := hall pre.length (hlength ▸ hlt) hlt
  rw [List.get_eq_getElem, List.get_eq_getElem, hget] at hsession
  obtain ⟨haction, rfl⟩ := hsession
  exact ⟨_, List.getElem?_eq_getElem (hlength ▸ hlt), haction, hanswers, hconversation⟩

/-! ## 2. Its handler -/

/-- `exec_fsm::get_result`, where `result` is that of the handler. -/
def ExecFsm.getResult (ec : ErrorCode) (result : ExtendedError) : ExtendedError :=
  if ec.failed then { code := ec } else result

/-- A request of one call. -/
theorem TypedJob.of_single {j : TypedJob} {c : TypedCall} (hcalls : j.calls = [c])
    (hautosync : j.built.autosync = true) :
    j.built.meant = (c.call.messages true).map (·.command) ∧
      j.built.job.req.messages = (c.call.messages true).map (·.type) := by
  have hmessages : messagesOf j.built.autosync j.built.calls = c.call.messages true := by
    rw [j.same, hcalls, hautosync, List.map_singleton, messagesOf, messagesOf, List.append_nil]
  obtain ⟨ec, hrun, hec⟩ := j.built.built
  obtain ⟨-, htypes, -⟩ := build_spec hrun hec
  rw [hmessages] at htypes
  exact ⟨by rw [BuiltJob.meant, hmessages], htypes⟩

/-- **The callback is set up for a request of one statement**: it takes all of it, and the request
    is not rejected. -/
theorem TypedJob.callback_setup {j : TypedJob} {c : TypedCall} (hcalls : j.calls = [c])
    (hautosync : j.built.autosync = true) (hc : c.runsStatement = true)
    {h : ResultsetCallback FieldValue} {w w₀ : World FieldValue} {res : HandlerSetupResult}
    {handler : Handler FieldValue}
    (hsetup : (Handler.resultsetCallback h).setup j.built.job.req 0 w = .ok (res, handler, w₀))
    (hhandler : j.built.setup j.built.job.req 0 = res) :
    handler = .resultsetCallback { h with state := .parsingMeta, err := {} } ∧
      w₀.rows = w.rows ∧ j.built.job.accepted = true := by
  obtain ⟨-, htypes⟩ := TypedJob.of_single hcalls hautosync
  obtain ⟨hcheck, hresultset⟩ := TypedCall.setup_of_runsStatement hc htypes
  obtain ⟨rfl, rfl, rfl⟩ : res = (.success, j.built.job.req.messages.length) ∧
      handler = .resultsetCallback { h with state := .parsingMeta, err := {} } ∧
      w₀ = w.updateInfo h.info fun _ => {} := by
    rw [Handler.setup, hresultset] at hsetup
    cases hsetup
    exact ⟨rfl, rfl, rfl⟩
  refine ⟨rfl, by cases h.info <;> rfl, ?_⟩
  have hhandler' : j.built.job.setup j.built.job.req 0 =
      (.success, j.built.job.req.messages.length) := hhandler
  unfold ExecJob.accepted setupRequest
  simp [hcheck, hhandler']

/-- The statement has the types it was prepared with. -/
theorem TypedJob.fits_single {eng : Engine} {j : TypedJob} {c : TypedCall} {post : List TypedJob}
    (hcalls : j.calls = [c]) (hj : j.built.job.accepted = true) {pre : List TypedJob}
    {s : ServerSession}
    (h : TypedJob.Proper eng s ((pre ++ j :: post).filter (·.built.job.accepted))) :
    c.Fits (TypedJob.runJobs eng s pre) := by
  have hproper := TypedJob.Proper.at hj h
  rw [hcalls] at hproper
  exact hproper.1

/-! ## 3. Rows and errors -/

section
variable {db : Database} {pre post : List TypedJob} {j : TypedJob} {c : TypedCall}
  (hcalls : j.calls = [c]) (hautosync : j.built.autosync = true)
  (hdescribe : ∀ j' ∈ pre ++ j :: post, ∀ c ∈ j'.calls, c.describesStatement = false)
  (hproper : TypedJob.Proper db.toEngine .new ((pre ++ j :: post).filter (·.built.job.accepted)))
  {ms : List ServerMessage} (hwf : ∀ m ∈ ms, m.WellFormed) {st : ConnectionState}
  {stream later : Bytes}
  (hstream : st.committed ++ stream = ms.flatMap ServerMessage.wire ++ later)
  {ss : List ExecSession} {writes : List Bytes} {st' : ConnectionState} {unread : Bytes}
  (hruns : Conducts st stream ((pre ++ j :: post).map (·.built.job)) ss writes st' unread)
  (hserver : DatabaseAnswers db writes.flatten ms) {h : ResultsetCallback FieldValue}
  {w w₀ : World FieldValue} {res : HandlerSetupResult} {handler : Handler FieldValue}
  (hsetup : (Handler.resultsetCallback h).setup j.built.job.req 0 w = .ok (res, handler, w₀))
  (hhandler : j.built.setup j.built.job.req 0 = res)
include hcalls hautosync hdescribe hproper hwf hstream hruns hserver hsetup hhandler

end

/-- A row type with its members in another order, one of them wider than its column. -/
def noteMembers : List RowMember :=
  [⟨ascii "note", ⟨.text, true⟩⟩, ⟨ascii "id", ⟨.int .int64, false⟩⟩]

/-- No object has anything in it. -/
def emptyWorld : World FieldValue := ⟨fun _ => {}, fun _ => {}, fun _ => {}, []⟩

/-- A database that does not take every statement. -/
def strictDatabase : Database where
  __ := quietDatabase
  fails log :=
    match log.getLast? with
    | some (.prepare p) => p.query = ascii "SELEC"
    | _ => false
  error _ := [(67, ascii "42601")]

/-- A query with a slip in it. -/
def strictJobs : List TypedJob :=
  [.ofCalls true [.addQuery (ascii "SELEC") [] .binary .text 0] (by decide)]

def strictAnswers : List ServerMessage :=
  [.error [(67, ascii "42601")], .plain (.readyForQuery .idle)]

end NativePg
