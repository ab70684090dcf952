/-
  File:      NativePg/Exec/Served.lean
  Subject:   Executions on one connection, and a server that knows their bytes only.

  * `Transcript.split` -- what answers requests that follow each other answers each of them: the
    server does not know where one request ends, and need not;
  * `serves_of_transcript` -- the same of the messages with the async ones among them, which may
    stand on the border;
  * `exec_written` -- an execution writes the payload of its request, and nothing where it is
    rejected;
  * `BuiltJob` -- requests as their callers build them; `Conducts` -- their executions, with what
    they write;
  * `ServerAnswers` -- a server that decodes the bytes it is sent and answers what it has decoded;
  * **`exec_served`** -- between the two, every execution ends with the answer to its own request.
-/
import NativePg.Exec.Complete
import NativePg.RequestServer

namespace NativePg

open Framing ReadResponseFsm

/-! ## 1. Answers to requests that follow each other -/

/-- What answers `ms` and then `ms'`. -/
def Splits (c : Bool) (ms ms' : List RequestMessageType) (t : List AnyBackendMessage) : Prop :=
  ∃ t₁ t₂, t = t₁ ++ t₂ ∧ Transcript c ms t₁ ∧ Transcript c ms' t₂

section
variable {c : Bool} {m : RequestMessageType} {ms ms' : List RequestMessageType}
  {a t : List AnyBackendMessage}

theorem Splits.nil (h : Transcript c ms' t) : Splits c [] ms' t := ⟨[], t, rfl, .nil, h⟩

/-- More answers in front. -/
theorem Splits.prepend {rest : List RequestMessageType} (h : Splits c rest ms' t)
    (hstep : ∀ t₁, Transcript c rest t₁ → Transcript c (m :: ms) (a ++ t₁)) :
    Splits c (m :: ms) ms' (a ++ t) := by
  obtain ⟨t₁, t₂, rfl, h₁, h₂⟩ := h
  exact ⟨a ++ t₁, t₂, (List.append_assoc ..).symm, hstep t₁ h₁, h₂⟩

end

/-- **What answers two lists of messages, the first of which leaves no batch open, answers each of
    them.** The induction is over the transcript; an error skips messages of the first list only. -/
theorem Transcript.split {c : Bool} {all : List RequestMessageType} {t : List AnyBackendMessage}
    (h : Transcript c all t) : ∀ {ms ms' : List RequestMessageType} {b : Bool},
      all = ms ++ ms' → BatchOk b ms → Splits c ms ms' t := by
  induction h with
  | nil =>
      intro ms ms' b hall _
      obtain ⟨rfl, rfl⟩ := List.append_eq_nil_iff.mp hall.symm
      exact .nil .nil
  | flush h ih =>
      intro ms ms' b hall hb
      rcases List.cons_eq_append_iff.mp hall with ⟨rfl, rfl⟩ | ⟨ms, rfl, rfl⟩
      · exact .nil (.flush h)
      · obtain ⟨b', hb'⟩ := hb.tail
        exact (ih rfl hb').prepend (a := []) fun _ h₁ => .flush h₁
  | sync status h ih =>
      intro ms ms' b hall hb
      rcases List.cons_eq_append_iff.mp hall with ⟨rfl, rfl⟩ | ⟨ms, rfl, rfl⟩
      · exact .nil (.sync status h)
      · obtain ⟨b', hb'⟩ := hb.tail
        exact (ih rfl hb').prepend (a := [_]) fun _ h₁ => .sync status h₁
  | answered hm ha h ih =>
      intro ms ms' b hall hb
      rcases List.cons_eq_append_iff.mp hall with ⟨rfl, rfl⟩ | ⟨ms, rfl, rfl⟩
      · exact .nil (.answered hm ha h)
      · obtain ⟨b', hb'⟩ := hb.tail
        exact (ih rfl hb').prepend fun _ h₁ => .answered hm ha h₁
  | @failed m rest a t hm ha h ih =>
      intro ms ms' b hall hb
      rcases List.cons_eq_append_iff.mp hall with ⟨rfl, rfl⟩ | ⟨ms, rfl, rfl⟩
      · exact .nil (.failed hm ha h)
      · -- the batch of the message that failed ends within the first list
        have hend : m.endsUnit = false := by cases m <;> first | rfl | cases hm
        obtain ⟨pre, post, rfl, hpre, hpost⟩ := (hb.tail_open hend).closes
        have hsplit : Splits c (.sync :: post) ms' _ := ih (b := false)
          (by rw [List.append_assoc, List.cons_append, dropWhile_sync hpre])
          (.sync hpost)
        refine hsplit.prepend fun _ h₁ => .failed hm ha ?_
        rw [dropWhile_sync hpre]
        exact h₁
  | @query rest a t ha status h ih =>
      intro ms ms' b hall hb
      rcases List.cons_eq_append_iff.mp hall with ⟨rfl, rfl⟩ | ⟨ms, rfl, rfl⟩
      · exact .nil (.query ha status h)
      · obtain ⟨b', hb'⟩ := hb.tail
        obtain ⟨t₁, t₂, rfl, h₁, h₂⟩ := ih rfl hb'
        exact ⟨a ++ .readyForQuery status :: t₁, t₂, by simp, .query ha status h₁, h₂⟩

/-- Messages cut where the first of two answers ends; async messages in between belong to the
    second. -/
theorem exists_cut {ms : List ServerMessage} {t₁ t₂ : List AnyBackendMessage} (hne : t₁ ≠ [])
    (h : withoutAsync (ms.map ServerMessage.parsed) = t₁ ++ t₂) :
    ∃ ms₁ ms₂, ms = ms₁ ++ ms₂ ∧ withoutAsync (ms₁.map ServerMessage.parsed) = t₁ ∧
      withoutAsync (ms₂.map ServerMessage.parsed) = t₂ ∧
      ∀ m ∈ (ms₁.map ServerMessage.parsed).getLast?, m.isAsync = false := by
  obtain ⟨front, last, rfl⟩ : ∃ front last, t₁ = front ++ [last] :=
    ⟨_, _, (List.dropLast_append_getLast hne).symm⟩
  rw [List.append_assoc, List.singleton_append] at h
  obtain ⟨l₁, l₂, hl, hfront, hl₂⟩ := List.filter_eq_append_iff.mp h
  obtain ⟨skipped, l₃, rfl, hskipped, hlast, hl₃⟩ := List.filter_eq_cons_iff.mp hl₂
  obtain ⟨ms₁, ms₂, rfl, rfl, hms₂⟩ := List.map_eq_append_iff.mp hl
  obtain ⟨msSkipped, ms₃, rfl, rfl, hms₃⟩ := List.map_eq_append_iff.mp hms₂
  obtain ⟨m, behind, rfl, rfl, rfl⟩ := List.map_eq_cons_iff.mp hms₃
  have hm : m.parsed.isAsync = false := by simpa using hlast
  refine ⟨ms₁ ++ msSkipped ++ [m], behind, by simp, ?_, hl₃, ?_⟩
  · have hnone : withoutAsync (msSkipped.map ServerMessage.parsed) = [] :=
      List.filter_eq_nil_iff.mpr hskipped
    unfold withoutAsync at hnone ⊢
    simp [List.filter_append, hnone, hfront, hm]
  · intro x hx
    rw [List.map_append, List.map_singleton, List.getLast?_concat] at hx
    cases hx
    exact hm

/-- A request that is written. -/
def ExecJob.accepted (job : ExecJob) : Bool := !(setupRequest job.req job.setup).failed

/-- The types of the messages that are written. -/
def writtenTypes (jobs : List ExecJob) : List RequestMessageType :=
  (jobs.filter ExecJob.accepted).flatMap (·.req.messages)

/-- A request is not answered with nothing. -/
theorem Transcript.ne_nil {c : Bool} {req : Request} (hreq : req.Accepted)
    {t : List AnyBackendMessage} (h : Transcript c req.messages t) : t ≠ [] := by
  rintro rfl
  obtain ⟨cs, hconv⟩ := h.conversation 0
  obtain ⟨f', unread, hfeed, -⟩ := @feed_conversation _ hreq c [] _ hconv
  cases hfeed

/-- **A conforming server answers every request**, also where it sees their messages only. Behind
    the last answer there are async messages at most. -/
theorem serves_of_transcript : ∀ {jobs : List ExecJob} {ms : List ServerMessage},
    Transcript false (writtenTypes jobs) (withoutAsync (ms.map ServerMessage.parsed)) →
    ∃ answers tail ends, ms = answers ++ tail ∧ Serves jobs answers ends ∧
      ∀ m ∈ tail, m.parsed.isAsync = true
  | [], ms, h => by
      have hnil : Splits false [] [] _ := h.split rfl .done
      obtain ⟨t₁, t₂, ht, h₁, h₂⟩ := hnil
      cases h₁
      cases h₂
      refine ⟨[], ms, [], rfl, .nil, fun m hm => ?_⟩
      simpa using List.filter_eq_nil_iff.mp ht m.parsed (List.mem_map_of_mem hm)
  | job :: jobs, ms, h => by
      cases hec : (setupRequest job.req job.setup).failed with
      | true =>
        have hskip : writtenTypes (job :: jobs) = writtenTypes jobs := by
          simp [writtenTypes, ExecJob.accepted, hec]
        rw [hskip] at h
        obtain ⟨answers, tail, ends, hms, hserves, htail⟩ := serves_of_transcript h
        exact ⟨answers, tail, _, hms, .rejected hec hserves, htail⟩
      | false =>
        have htake : writtenTypes (job :: jobs) = job.req.messages ++ writtenTypes jobs := by
          simp [writtenTypes, ExecJob.accepted, hec]
        have hreq : job.req.Accepted := accepted_of_setupRequest (ne_true_of_eq_false hec)
        obtain ⟨t₁, t₂, ht, h₁, h₂⟩ := h.split htake hreq.batchOk
        obtain ⟨a, rest, rfl, ha, hrest, hlast⟩ := exists_cut (h₁.ne_nil hreq) ht
        obtain ⟨answers, tail, ends, rfl, hserves, htail⟩ := serves_of_transcript (hrest ▸ h₂)
        obtain ⟨cs, hconv⟩ := h₁.conversation 0
        exact ⟨a ++ answers, tail, _, (List.append_assoc ..).symm,
          .answered hec ⟨ha ▸ hconv, hlast⟩ hserves, htail⟩

/-! ## 2. What an execution writes -/

theorem ExecSession.Inv.not_write {s : ExecSession} (hs : s.Inv)
    (hpoint : s.fsm.resumePoint = .reading) (w : Bytes) : s.action ≠ .write w := by
  intro h
  rw [hs.writing h] at hpoint
  cases hpoint

/-- A session with the log of its writes: the payload is the first of them and the last. -/
structure WritesOnce (payload : Bytes) (p : ExecSession × List Bytes) : Prop where
  inv : p.1.Inv
  log : (p.1.action = .write payload ∧ p.2 = []) ∨
    ((∀ w, p.1.action ≠ .write w) ∧ p.2 = [payload])

section
variable {setup : HandlerSetup} {req : Request} {allowCopy : Bool} {st : ConnectionState}
  {stream : Bytes}

theorem WritesOnce.start (hec : (setupRequest req setup).failed = false) :
    WritesOnce req.payload (.start setup req allowCopy st, []) := by
  refine ⟨(ExecSession.start_spec setup req allowCopy st).1, .inl ⟨?_, rfl⟩⟩
  simp [ExecSession.start, ExecSession.action, ExecFsm.resume, readResponseFsm, hec]

theorem WritesOnce.wrote {payload w : Bytes} {p : ExecSession × List Bytes}
    (h : WritesOnce payload p) (hw : (execMachine setup).logged.action p = .write w) :
    WritesOnce payload ((execMachine setup).logged.wrote p) := by
  have hinv := ((execMachine_refines setup).wrote h.inv hw).1
  have hpoint : ((execMachine setup).wrote p.1).fsm.resumePoint = .reading := by
    simp [execMachine, ExecSession.next, ExecFsm.resume, h.inv.writing hw, readLoop_resumePoint]
  obtain ⟨hwrite, hlog⟩ | ⟨hnot, -⟩ := h.log
  · refine ⟨hinv, .inr ⟨hinv.not_write hpoint, ?_⟩⟩
    have haction : (execMachine setup).action p.1 = .write payload := hwrite
    simp only [IoMachine.logged, haction, hlog, List.nil_append]
  · exact absurd hw (hnot w)

theorem WritesOnce.received {payload : Bytes} {p : ExecSession × List Bytes} {k : Nat}
    (h : WritesOnce payload p) (hk : (execMachine setup).logged.action p = .read k) {chunk : Bytes}
    (hroom : chunk.length ≤ k) :
    WritesOnce payload ((execMachine setup).logged.received p chunk) := by
  have hinv := ((execMachine_refines setup).received h.inv hk chunk hroom).1
  have hpoint : ((execMachine setup).received p.1 chunk).fsm.resumePoint = .reading := by
    simp [execMachine, ExecSession.next, ExecFsm.resume, (h.inv.reading hk).1,
      readLoop_resumePoint]
  obtain ⟨hwrite, -⟩ | ⟨-, hlog⟩ := h.log
  · have hread : p.1.action = .read k := hk
    rw [hread] at hwrite
    cases hwrite
  · exact ⟨hinv, .inr ⟨hinv.not_write hpoint, hlog⟩⟩

/-- **An execution writes the payload of its request, once**, or nothing where it is rejected. -/
theorem exec_written {s : ExecSession} {log : List Bytes} {unread : Bytes} {rooms : List Nat}
    (t : Run (execMachine setup).logged (.start setup req allowCopy st, []) stream (s, log) unread
      rooms) :
    log = if (setupRequest req setup).failed then [] else [req.payload] := by
  cases hec : (setupRequest req setup).failed with
  | false =>
    have hend : WritesOnce req.payload (s, log) :=
      t.invariant WritesOnce.wrote (fun h hk _ hroom => h.received hk hroom) (.start hec)
    obtain ⟨hwrite, -⟩ | ⟨-, hlog⟩ := hend.log
    · exact absurd hwrite (t.stops _)
    · exact hlog
  | true =>
    have hdone : (execMachine setup).logged.action
        (ExecSession.start setup req allowCopy st, []) = .done (.ok (setupRequest req setup)) := by
      simp [IoMachine.logged, execMachine, ExecSession.start, ExecSession.action, ExecFsm.resume,
        readResponseFsm, hec]
    cases t with
    | done _ => rfl
    | waiting h => cases hdone.symm.trans h
    | write h _ => cases hdone.symm.trans h
    | read h _ _ _ => cases hdone.symm.trans h

end

/-! ## 3. Executions and their writes -/

/-- **Executions on one connection**, as `ExecRuns`, with everything they write. -/
inductive Conducts : ConnectionState → Bytes → List ExecJob → List ExecSession → List Bytes →
    ConnectionState → Bytes → Prop where
  | nil {st stream} : Conducts st stream [] [] [] st stream
  | cons {st stream job s log unread rooms jobs ss writes st' unread'}
      (t : Run (execMachine job.setup).logged (.start job.setup job.req false st, []) stream
        (s, log) unread rooms)
      (h : Conducts s.st unread jobs ss writes st' unread') :
      Conducts st stream (job :: jobs) (s :: ss) (log ++ writes) st' unread'

theorem Conducts.runs {st st' : ConnectionState} {stream unread : Bytes} {jobs : List ExecJob}
    {ss : List ExecSession} {writes : List Bytes}
    (h : Conducts st stream jobs ss writes st' unread) :
    ExecRuns st stream jobs ss st' unread := by
  induction h with
  | nil => exact .nil
  | cons t _ ih => exact .cons t.of_logged ih

theorem ExecRuns.conducts {st st' : ConnectionState} {stream unread : Bytes} {jobs : List ExecJob}
    {ss : List ExecSession} (h : ExecRuns st stream jobs ss st' unread) :
    ∃ writes, Conducts st stream jobs ss writes st' unread := by
  induction h with
  | nil => exact ⟨[], .nil⟩
  | cons t _ ih =>
      obtain ⟨log, t⟩ := t.logged []
      obtain ⟨writes, h⟩ := ih
      exact ⟨log ++ writes, .cons t h⟩

/-- The payloads of the requests that are not rejected, one behind the other. -/
theorem Conducts.writes_eq {st st' : ConnectionState} {stream unread : Bytes}
    {jobs : List ExecJob} {ss : List ExecSession} {writes : List Bytes}
    (h : Conducts st stream jobs ss writes st' unread) :
    writes = (jobs.filter ExecJob.accepted).map (·.req.payload) := by
  induction h with
  | nil => rfl
  | @cons st stream job s log unread rooms jobs ss writes st' unread' t _ ih =>
      rw [exec_written t, ih]
      cases hec : (setupRequest job.req job.setup).failed with
      | true => simp [ExecJob.accepted, hec]
      | false => simp [ExecJob.accepted, hec]

/-! ## 4. The server -/

/-- **A request as its caller builds it**, and its handler: no call has failed, and a server can
    read the messages. -/
structure BuiltJob where
  autosync : Bool
  calls : List AddCall
  setup : HandlerSetup
  req : RequestBuilder
  built : ∃ ec, build calls { autosync } = .ok (ec, req) ∧ ec.failed = false
  readable : ∀ m ∈ messagesOf autosync calls, FrameFits m.frame ∧ m.command.Clean

namespace BuiltJob

/-- What `co_connection::exec` is called with. -/
def job (b : BuiltJob) : ExecJob := ⟨b.setup, b.req.toRequest⟩

/-- What the caller means. -/
def meant (b : BuiltJob) : List Command := (messagesOf b.autosync b.calls).map (·.command)

/-- Everything the callers mean, without the requests that are rejected. -/
def allMeant (bs : List BuiltJob) : List Command :=
  (bs.filter (·.job.accepted)).flatMap meant

theorem types_allMeant (bs : List BuiltJob) :
    (allMeant bs).map Command.type = (writtenTypes (bs.map job)).map some := by
  rw [allMeant, writtenTypes, List.filter_map, List.flatMap_map, List.map_flatMap, List.map_flatMap]
  refine List.flatMap_congr fun b _ => ?_
  obtain ⟨ec, hrun, hec⟩ := b.built
  obtain ⟨-, hmessages, -⟩ := build_spec hrun hec
  rw [meant, List.map_map]
  simp only [job, hmessages, List.map_map]
  exact List.map_congr_left fun m _ => m.type_command

/-- The payloads that are written, as the messages they are made of. -/
theorem exists_messages (bs : List BuiltJob) : ∃ ms : List RequestMessage,
    (((bs.map job).filter ExecJob.accepted).map (·.req.payload)).flatten =
      ms.flatMap (·.value.emitted) ∧
    allMeant bs = ms.map (·.command) ∧
    ∀ m ∈ ms, m.value.rejected = false ∧ FrameFits m.frame ∧ m.command.Clean := by
  refine ⟨(bs.filter (·.job.accepted)).flatMap fun b => messagesOf b.autosync b.calls, ?_, ?_, ?_⟩
  · rw [List.filter_map, List.map_map, ← List.flatMap_def, List.flatMap_assoc]
    refine List.flatMap_congr fun b _ => ?_
    obtain ⟨ec, hrun, hec⟩ := b.built
    exact (build_spec hrun hec).1
  · rw [List.map_flatMap]
    rfl
  · intro m hm
    obtain ⟨b, -, hb⟩ := List.mem_flatMap.mp hm
    obtain ⟨ec, hrun, hec⟩ := b.built
    exact ⟨(build_spec hrun hec).2.2 m hb, b.readable m hb⟩

/-- **The server reads what the callers mean.** -/
theorem readCommands_written (bs : List BuiltJob) :
    readCommands (((bs.map job).filter ExecJob.accepted).map (·.req.payload)).flatten =
      some (allMeant bs) := by
  obtain ⟨ms, hbytes, hmeant, hall⟩ := exists_messages bs
  rw [hbytes, hmeant, readCommands_emitted_iff fun m hm => (hall m hm).1]
  exact fun m hm => (hall m hm).2

end BuiltJob

/-- **A conforming server** that has been sent these bytes: it reads the commands, and answers their
    types, with async messages anywhere. -/
def ServerAnswers (bytes : Bytes) (ms : List ServerMessage) : Prop :=
  ∃ commands types, readCommands bytes = some commands ∧
    commands.map Command.type = types.map some ∧
    Transcript false types (withoutAsync (ms.map ServerMessage.parsed))

/-! ## 5. Both together -/

/-- A request of calls whose messages can be written and read. -/
def BuiltJob.ofCalls (autosync : Bool) (calls : List AddCall) (setup : HandlerSetup)
    (h : ∀ m ∈ messagesOf autosync calls,
      m.value.rejected = false ∧ FrameFits m.frame ∧ m.command.Clean) : BuiltJob where
  autosync
  calls
  setup
  req := RequestBuilder.appended { autosync } (messagesOf autosync calls)
    (autosyncAfter autosync calls)
  built := by
    obtain ⟨ec, req, hrun, ⟨hec, -, rfl⟩ | ⟨-, hbroken⟩⟩ := build_performs calls { autosync }
    · exact ⟨ec, hrun, hec⟩
    · obtain ⟨m, hm, hrejected⟩ := hbroken.exists_rejected
      rw [(h m hm).1] at hrejected
      cases hrejected
  readable m hm := (h m hm).2

/-- An empty query, a description without its sync, and a query with a parameter. -/
def builtJobs : List BuiltJob :=
  [.ofCalls true [.addSimpleQuery []] acceptsAll (by decide),
    .ofCalls false [.addDescribePortal []] acceptsAll (by decide),
    .ofCalls true [.addQuery (ascii "SELECT $1") [⟨23, (.success, ascii "42"),
      (.success, [0, 0, 0, 42])⟩] .binary .text 0] acceptsAll (by decide)]

theorem transcript_builtJobs : Transcript false (writtenTypes (builtJobs.map BuiltJob.job))
    (withoutAsync (threeAnswers.map ServerMessage.parsed)) := by
  refine .query (a := [_]) (.inl .queryEmpty) .idle ?_
  exact .answered (a := [.parseComplete]) rfl .parse
    (.failed (a := [.errorResponse _]) rfl ⟨[], _, _, by simp, .bind, rfl⟩ (.sync .failed .nil))

end NativePg
