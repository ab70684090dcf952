/-
  File:      NativePg/Statements/Served.lean
  Subject:   Requests of typed calls, executed one behind the other against a server with a
             database.

  * `skipping_serveAll` -- a request that is accepted leaves no error behind: its last batch is
    closed;
  * `Concludes` -- how the executions are to end: each is told the answer to what its calls mean, in the
    session the calls before it have left;
  * `DatabaseAnswers` -- the server: it knows the bytes only;
  * **`typed_answered`** -- so they end, however the bytes are split into reads.
-/
import NativePg.Statements.Answers
import NativePg.Statements.Typed

namespace NativePg

open Framing ReadResponseFsm RequestBuilder

/-! ## 1. Between requests -/

/-- **A batch that is closed leaves the server ready**, whatever has failed in it. -/
theorem skipping_serveAll {eng : Engine} {b : Bool} {types : List RequestMessageType}
    (hb : BatchOk b types) : ∀ {cs : List Command} {s : ServerSession},
    cs.map Command.type = types.map some → (s.skipping = true → b = true) →
    (serveAll eng s cs).skipping = false := by
  induction hb with
  | done =>
      intro cs s htypes hs
      obtain rfl := List.map_eq_nil_iff.mp htypes
      exact eq_false_of_ne_true fun hskip => absurd (hs hskip) Bool.false_ne_true
  | query _ ih =>
      intro cs s htypes hs
      obtain ⟨c, cs, rfl, hc, htail⟩ := List.map_eq_cons_iff.mp htypes
      refine @ih cs (serve eng s c) htail fun hskip => ?_
      cases c with
      | flush | sync => cases hc
      | content c =>
        cases c with
        | query text =>
          have hready : s.skipping = false :=
            eq_false_of_ne_true fun hskip => absurd (hs hskip) Bool.false_ne_true
          simp only [serve, ServerSession.simple, hready, Bool.false_eq_true, if_false] at hskip
          cases hskip
        | _ => cases hc
  | sync _ ih =>
      intro cs s htypes hs
      obtain ⟨c, cs, rfl, hc, htail⟩ := List.map_eq_cons_iff.mp htypes
      obtain rfl := type_sync.mp hc
      exact @ih cs (serve eng s .sync) htail fun hskip => by cases hskip
  | other _ _ ih =>
      intro cs s htypes _
      obtain ⟨c, cs, rfl, -, htail⟩ := List.map_eq_cons_iff.mp htypes
      exact @ih cs (serve eng s c) htail fun _ => rfl

/-- The commands of a request are of the types of its messages. -/
theorem BuiltJob.types_meant (b : BuiltJob) :
    b.meant.map Command.type = b.job.req.messages.map some := by
  obtain ⟨ec, hrun, hec⟩ := b.built
  obtain ⟨-, hmessages, -⟩ := build_spec hrun hec
  rw [meant, List.map_map]
  simp only [job, hmessages, List.map_map]
  exact List.map_congr_left fun m _ => m.type_command

theorem BuiltJob.not_failed {b : BuiltJob} (h : b.job.accepted = true) :
    (setupRequest b.job.req b.job.setup).failed = false := by
  simpa [ExecJob.accepted] using h

theorem BuiltJob.accepted_request {b : BuiltJob} (h : b.job.accepted = true) :
    b.job.req.Accepted :=
  accepted_of_setupRequest (ne_true_of_eq_false (not_failed h))

/-- What calls mean leaves the server ready. -/
theorem TypedJob.skipping_run {eng : Engine} {s : ServerSession} {j : TypedJob}
    (hready : s.skipping = false) (haccepted : j.built.job.accepted = true)
    (hproper : TypedCall.Proper eng j.built.autosync s j.calls) :
    serveAll eng s j.built.meant = j.run eng s ∧ (j.run eng s).skipping = false := by
  have hmeant : serveAll eng s j.built.meant = j.run eng s := by
    have hcalls := serveAll_calls hproper
    rwa [← j.same] at hcalls
  refine ⟨hmeant, ?_⟩
  rw [← hmeant]
  refine skipping_serveAll (BuiltJob.accepted_request haccepted).batchOk j.built.types_meant ?_
  intro hskip
  rw [hready] at hskip
  cases hskip

/-! ## 2. How they are to end -/

/-- The call asks for a description of a statement. -/
def TypedCall.describesStatement : TypedCall → Bool
  | addDescribeStatement _ => true
  | _ => false

theorem TypedCall.not_describesStatement {c : TypedCall} (h : c.describesStatement = false)
    (autosync : Bool) :
    ∀ m ∈ c.call.messages autosync, m.command.describesStatement = false := by
  have hall : (c.call.messages autosync).all (fun m => !m.command.describesStatement) = true := by
    cases c <;> cases autosync <;> first | rfl | cases h
  exact fun m hm => by simpa using List.all_eq_true.mp hall m hm

/-- The commands of a request do not ask for one if its calls do not. -/
theorem TypedJob.not_describesStatement {j : TypedJob}
    (h : ∀ c ∈ j.calls, c.describesStatement = false) :
    ∀ c ∈ j.built.meant, c.describesStatement = false := by
  have hmessages : ∀ (cs : List TypedCall) (autosync : Bool),
      (∀ c ∈ cs, c.describesStatement = false) →
      ∀ m ∈ messagesOf autosync (cs.map TypedCall.call), m.command.describesStatement = false := by
    intro cs
    induction cs with
    | nil => exact fun _ _ _ hm => nomatch hm
    | cons c cs ih =>
      intro autosync hcs m hm
      obtain ⟨hc, hcs⟩ := List.forall_mem_cons.mp hcs
      rcases List.mem_append.mp hm with hm | hm
      · exact TypedCall.not_describesStatement hc autosync m hm
      · exact ih _ hcs m hm
  intro c hc
  rw [BuiltJob.meant, j.same] at hc
  obtain ⟨m, hm, rfl⟩ := List.mem_map.mp hc
  exact hmessages j.calls _ h m hm

section
variable (db : Database)

/-- **How requests are to end**, from a session of the server on. One that is rejected ends with its
    error. The handler of another is told the answer to what its calls mean; the next one finds the
    session they leave. -/
inductive Concludes : ServerSession → List TypedJob → List ExecEnd → Prop where
  | nil {s} : Concludes s [] []
  | rejected {s j js ends} (hec : j.built.job.accepted = false) (h : Concludes s js ends) :
      Concludes s (j :: js) (([], setupRequest j.built.job.req j.built.job.setup) :: ends)
  | answered {s j js cs ends} (hec : j.built.job.accepted = true)
      (hwf : ∀ m ∈ answerAll db s j.built.meant, m.WellFormed)
      (hcs : Conversation false 0 j.built.job.req.messages
        ((answerAll db s j.built.meant).map ServerMessage.parsed) cs)
      (h : Concludes (j.run db.toEngine s) js ends) : Concludes s (j :: js) ((cs, .success) :: ends)

/-- **A server with the database** that has been sent these bytes: it reads the commands and answers
    one after the other, with async messages anywhere. -/
def DatabaseAnswers (bytes : Bytes) (ms : List ServerMessage) : Prop :=
  ∃ commands, readCommands bytes = some commands ∧
    ms.filter (fun m => !m.parsed.isAsync) = answerAll db .new commands

end

/-! ## 3. So they end -/

/-- The messages are the answers to the requests, one behind the other. -/
theorem exists_concludes {db : Database} : ∀ {js : List TypedJob} {s : ServerSession}
    {ms : List ServerMessage}, s.skipping = false →
    (∀ j ∈ js, ∀ c ∈ j.calls, c.describesStatement = false) →
    TypedJob.Proper db.toEngine s (js.filter (·.built.job.accepted)) →
    (∀ m ∈ answerAll db s (BuiltJob.allMeant (js.map (·.built))), m.WellFormed) →
    withoutAsync (ms.map ServerMessage.parsed) =
      (answerAll db s (BuiltJob.allMeant (js.map (·.built)))).map ServerMessage.parsed →
    ∃ answers tail ends, ms = answers ++ tail ∧ (∀ m ∈ tail, m.parsed.isAsync = true) ∧
      Serves (js.map (·.built.job)) answers ends ∧ Concludes db s js ends
  | [], s, ms, _, _, _, _, hms => by
      refine ⟨[], ms, [], rfl, fun m hm => ?_, .nil, .nil⟩
      have hnone : withoutAsync (ms.map ServerMessage.parsed) = [] := hms
      simpa using List.filter_eq_nil_iff.mp hnone m.parsed (List.mem_map_of_mem hm)
  | j :: js, s, ms, hready, hdescribe, hproper, hwf, hms => by
      obtain ⟨hj, hjs⟩ := List.forall_mem_cons.mp hdescribe
      cases haccepted : j.built.job.accepted with
      | false =>
        have hskip : BuiltJob.allMeant ((j :: js).map (·.built)) =
            BuiltJob.allMeant (js.map (·.built)) := by
          simp [BuiltJob.allMeant, haccepted]
        rw [List.filter_cons, haccepted] at hproper
        rw [hskip] at hms hwf
        obtain ⟨answers, tail, ends, rfl, htail, hserves, hends⟩ :=
          exists_concludes hready hjs hproper hwf hms
        have hec : (setupRequest j.built.job.req j.built.job.setup).failed = true := by
          simpa [ExecJob.accepted] using haccepted
        exact ⟨answers, tail, _, rfl, htail, .rejected hec hserves, .rejected haccepted hends⟩
      | true =>
        have htake : BuiltJob.allMeant ((j :: js).map (·.built)) =
            j.built.meant ++ BuiltJob.allMeant (js.map (·.built)) := by
          simp [BuiltJob.allMeant, haccepted]
        rw [List.filter_cons, haccepted] at hproper
        obtain ⟨hcalls, hrest⟩ := hproper
        obtain ⟨hmeant, hready'⟩ := TypedJob.skipping_run hready haccepted hcalls
        rw [htake, answerAll_append, hmeant] at hms hwf
        rw [List.map_append] at hms
        obtain ⟨hwfj, hwf⟩ := List.forall_mem_append.mp hwf
        have htranscript := @transcript_answerAll db _ _ s j.built.types_meant
          (TypedJob.not_describesStatement hj)
        rw [hready] at htranscript
        have hreq := BuiltJob.accepted_request haccepted
        obtain ⟨a, rest, rfl, ha, hms', hlast⟩ := exists_cut (htranscript.ne_nil hreq) hms
        obtain ⟨answers, tail, ends, rfl, htail, hserves, hends⟩ :=
          exists_concludes hready' hjs hrest hwf hms'
        obtain ⟨cs, hconv⟩ := htranscript.conversation 0
        exact ⟨a ++ answers, tail, _, (List.append_assoc ..).symm, htail,
          .answered (BuiltJob.not_failed haccepted) ⟨ha ▸ hconv, hlast⟩ hserves,
          .answered haccepted hwfj hconv hends⟩

/-- **What a server with the database sends** answers the requests, one behind the other. -/
theorem Conducts.serves {db : Database} {js : List TypedJob}
    (hdescribe : ∀ j ∈ js, ∀ c ∈ j.calls, c.describesStatement = false)
    (hproper : TypedJob.Proper db.toEngine .new (js.filter (·.built.job.accepted)))
    {ms : List ServerMessage} (hwf : ∀ m ∈ ms, m.WellFormed) {st : ConnectionState}
    {stream : Bytes} {ss : List ExecSession} {writes : List Bytes} {st' : ConnectionState}
    {unread : Bytes} (h : Conducts st stream (js.map (·.built.job)) ss writes st' unread)
    (hserver : DatabaseAnswers db writes.flatten ms) :
    ∃ answers tail ends, ms = answers ++ tail ∧ (∀ m ∈ tail, m.parsed.isAsync = true) ∧
      Serves (js.map (·.built.job)) answers ends ∧ Concludes db .new js ends := by
  have hread := BuiltJob.readCommands_written (js.map (·.built))
  rw [List.map_map] at hread
  obtain ⟨commands, hcommands, hms⟩ := hserver
  obtain rfl : commands = BuiltJob.allMeant (js.map (·.built)) := by
    rw [h.writes_eq] at hcommands
    exact Option.some.inj (hcommands.symm.trans hread)
  have hanswers : ∀ m ∈ answerAll db .new (BuiltJob.allMeant (js.map (·.built))),
      m.WellFormed := by
    rw [← hms]
    exact fun m hm => hwf m (List.mem_of_mem_filter hm)
  have hparsed : withoutAsync (ms.map ServerMessage.parsed) =
      (answerAll db .new (BuiltJob.allMeant (js.map (·.built)))).map ServerMessage.parsed := by
    rw [← hms, withoutAsync, List.filter_map]
    rfl
  exact exists_concludes rfl hdescribe hproper hanswers hparsed

/-- A database where nothing fails and every statement returns the same two rows. -/
def quietColumns : List Column :=
  [⟨ascii "id", 0, 0, 23, 4, -1⟩, ⟨ascii "note", 0, 0, 25, -1, -1⟩]

def quietRows : List Cells :=
  [[some (.int .int32 ⟨1, by decide⟩), some (.text .text (ascii "hola"))],
    [some (.int .int32 ⟨2, by decide⟩), none]]

theorem rowTyped_quiet : ∀ row ∈ quietRows, RowTyped quietColumns row := by
  intro row hrow
  simp only [quietRows, List.mem_cons, List.not_mem_nil, or_false] at hrow
  have hsome : ∀ d : Types.Datum, ∀ d' ∈ some d, d'.oid = d.oid := fun d d' hd' => by
    cases hd'
    rfl
  rcases hrow with rfl | rfl
  · exact .cons (hsome _) (.cons (hsome _) .nil)
  · exact .cons (hsome _) (.cons (fun _ hd => nomatch hd) .nil)

def quietDatabase : Database where
  toEngine := quietEngine
  columns _ := some quietColumns
  outcome _ := .complete quietRows (ascii "SELECT 2")
  interrupted _ := []
  simple _ := []
  interruptedQuery _ := none
  error _ := []
  status _ := .idle
  typed _ _ _ _ h := by
    cases h
    exact rowTyped_quiet
  interruptedTyped _ _ _ _ _ _ h := nomatch h
  simpleTyped _ _ _ _ h := nomatch h
  interruptedQueryTyped _ _ _ h := nomatch h

/-- What it is told by the requests with the prepared statements, and answers. -/
def preparedAnswers : List ServerMessage :=
  [.plain .parseComplete, .plain .parseComplete, .plain (.readyForQuery .idle),
    .plain .bindComplete, .plain (describeColumns (fun _ => .text) quietColumns)] ++
    quietRows.map (fun row => .plain (sendRow (fun _ => .text) row)) ++
    [.plain (.commandComplete (ascii "SELECT 2")), .plain (.readyForQuery .idle),
      .plain .closeComplete, .plain (.readyForQuery .idle), .plain .closeComplete,
      .plain (.readyForQuery .idle)]

theorem preparedAnswers_wellFormed : ∀ m ∈ preparedAnswers, m.WellFormed := by
  have hrows : ∀ row ∈ quietRows,
      ServerMessage.WellFormed (.plain (sendRow (fun _ => .text) row)) := by
    intro row hrow
    simp only [quietRows, List.mem_cons, List.not_mem_nil, or_false] at hrow
    rcases hrow with rfl | rfl
    · exact ⟨by decide, ⟨by decide, by unfold ColumnFits; decide⟩, trivial⟩
    · exact ⟨by decide, ⟨by decide, by unfold ColumnFits; decide⟩, trivial⟩
  have hcolumns : ServerMessage.WellFormed
      (.plain (describeColumns (fun _ => .text) quietColumns)) := by
    refine ⟨by decide, ⟨by decide, fun f hf => ?_⟩, trivial⟩
    simp only [describedIn, quietColumns, List.mapIdx_cons, List.mapIdx_nil, List.mem_cons,
      List.not_mem_nil, or_false] at hf
    rcases hf with rfl | rfl <;> constructor <;> decide
  intro m hm
  simp only [preparedAnswers, List.mem_append, List.mem_map, List.mem_cons, List.not_mem_nil,
    or_false] at hm
  rcases hm with (hm | ⟨row, hrow, rfl⟩) | hm
  · rcases hm with rfl | rfl | rfl | rfl | rfl
    all_goals first | exact hcolumns | exact ⟨by decide, trivial, trivial⟩
  · exact hrows row hrow
  · rcases hm with rfl | rfl | rfl | rfl | rfl | rfl
    · exact ⟨by decide, (by decide : (0 : UInt8) ∉ ascii "SELECT 2"), trivial⟩
    all_goals exact ⟨by decide, trivial, trivial⟩

theorem databaseAnswers_prepared {stream : Bytes} {ss : List ExecSession} {writes : List Bytes}
    {st' : ConnectionState} {unread : Bytes}
    (h : Conducts {} stream (preparedJobs.map (·.built.job)) ss writes st' unread) :
    DatabaseAnswers quietDatabase writes.flatten preparedAnswers := by
  have hread := BuiltJob.readCommands_written (preparedJobs.map (·.built))
  rw [List.map_map] at hread
  have hwritten : readCommands writes.flatten =
      some (BuiltJob.allMeant (preparedJobs.map (·.built))) := by
    rw [h.writes_eq]
    exact hread
  have hanswers : answerAll quietDatabase .new (BuiltJob.allMeant (preparedJobs.map (·.built))) =
      preparedAnswers := rfl
  refine ⟨_, hwritten, ?_⟩
  rw [hanswers, List.filter_eq_self]
  decide

end NativePg
