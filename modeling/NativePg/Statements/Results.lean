/-
  File:      NativePg/Statements/Results.lean
  Subject:   What the handler of a request is told that runs a single statement.

  * `Database.Yields` -- the rows of an execution, and how they end: as they should, or with an
    error;
  * `TypedCall.Returns`, `TypedCall.Rejected` -- a statement that gets as far as its description,
    and one that does not;
  * `TableAnswer`, `RejectedAnswer` -- answers that are told as a table, or as an error;
  * `TypedCall.Returns.tableAnswer`, `TypedCall.Rejected.told` -- so a server with the database
    answers.
-/
import NativePg.Responses.RowMapping
import NativePg.Statements.Answers
import NativePg.Statements.Typed

namespace NativePg

open NativePg.Types Responses RequestBuilder ReadResponseFsm

/-! ## 1. Calls and their results -/

/-- The portal of a statement with values. -/
def BoundStatement.portal (stmt : BoundStatement) (resultFormat : FormatCode)
    (prepared : Prepared) : Portal :=
  ⟨stmt.name, prepared.query, stmt.params.map some, fun _ => resultFormat⟩

/-- How the rows of an execution end. -/
def Outcome.terminator : Outcome → Option Terminator
  | complete _ tag => some (.commandComplete tag)
  | suspended _ => some .portalSuspended
  | empty => none

/-- **What the execution of a portal yields**, in a session with this log. -/
inductive Database.Yields (db : Database) (log : List Event) (p : Portal) (maxNumRows : Int) :
    List Cells → Terminator → Prop where
  | succeeds {t} (h : db.fails (log ++ [.execute p maxNumRows]) = false)
      (ht : (db.outcome (log ++ [.execute p maxNumRows])).terminator = some t) :
      Yields db log p maxNumRows (db.outcome (log ++ [.execute p maxNumRows])).rows t
  | fails (h : db.fails (log ++ [.execute p maxNumRows]) = true) :
      Yields db log p maxNumRows (db.interrupted (log ++ [.execute p maxNumRows, .error]))
        (.errorResponse
          (ServerMessage.errorFields (db.error (log ++ [.execute p maxNumRows, .error]))))

/-- **A statement is executed and returns a table**: it is prepared, its values are valid, and it
    has columns. -/
structure Executes (db : Database) (s : ServerSession) (stmt : BoundStatement) (rf : FormatCode)
    (maxNumRows : Int32) (prepared : Prepared) (columns : List Column) (rows : List Cells)
    (t : Terminator) : Prop where
  ready : s.skipping = false
  isPrepared : s.statements stmt.name = some prepared
  valid : stmt.params.all (·.valid db.validText) = true
  described : db.columns (stmt.portal rf prepared) = some columns
  yields : db.Yields s.log (stmt.portal rf prepared) maxNumRows.toInt rows t

/-- **What a call returns**: a query and an execution in the format that was asked for, a simple
    query in text. -/
inductive TypedCall.Returns (db : Database) (s : ServerSession) :
    TypedCall → (Nat → FormatCode) → List Column → List Cells → Terminator → Prop where
  | addQuery {q params pf rf maxNumRows columns rows t} (ready : s.skipping = false)
      (h : Executes db (s.prepare db.toEngine [] ⟨q, oidsOf (params.map Param.type)⟩) ⟨[], params⟩
        rf maxNumRows ⟨q, oidsOf (params.map Param.type)⟩ columns rows t) :
      Returns db s (.addQuery q params pf rf maxNumRows) (fun _ => rf) columns rows t
  | addExecute {stmt pf rf maxNumRows prepared columns rows t}
      (h : Executes db s stmt rf maxNumRows prepared columns rows t) :
      Returns db s (.addExecute stmt pf rf maxNumRows) (fun _ => rf) columns rows t
  | addSimpleQuery {q columns cells tag} (ready : s.skipping = false)
      (h : db.fails (s.log ++ [.simple q]) = false)
      (returned : db.simple (s.log ++ [.simple q]) = [.rows columns cells tag]) :
      Returns db s (.addSimpleQuery q) (fun _ => .text) columns cells (.commandComplete tag)
  | interrupted {q columns cells} (ready : s.skipping = false)
      (h : db.fails (s.log ++ [.simple q]) = true) (nothing : db.simple (s.log ++ [.simple q]) = [])
      (returned : db.interruptedQuery (s.log ++ [.simple q]) = some (columns, cells)) :
      Returns db s (.addSimpleQuery q) (fun _ => .text) columns cells
        (.errorResponse (ServerMessage.errorFields (db.error (s.log ++ [.simple q]))))

/-- **A call whose statement is rejected**, and the error: it is not prepared, it is not bound, or it
    fails before it has returned anything. -/
inductive TypedCall.Rejected (db : Database) (s : ServerSession) :
    TypedCall → List ErrorField → Prop where
  | prepare {q params pf rf maxNumRows s'} (ready : s.skipping = false)
      (hs : s.prepare db.toEngine [] ⟨q, oidsOf (params.map Param.type)⟩ = s')
      (h : s'.skipping = true) :
      Rejected db s (.addQuery q params pf rf maxNumRows) (db.error s'.log)
  | bindQuery {q params pf rf maxNumRows s' s''} (ready : s.skipping = false)
      (hs : s.prepare db.toEngine [] ⟨q, oidsOf (params.map Param.type)⟩ = s')
      (ready' : s'.skipping = false)
      (hs' : s'.bind db.toEngine [] [] (TypedCall.bound db.toEngine ⟨[], params⟩ rf) = s'')
      (h : s''.skipping = true) :
      Rejected db s (.addQuery q params pf rf maxNumRows) (db.error s''.log)
  | bindExecute {stmt pf rf maxNumRows s'} (ready : s.skipping = false)
      (hs : s.bind db.toEngine [] stmt.name (TypedCall.bound db.toEngine stmt rf) = s')
      (h : s'.skipping = true) :
      Rejected db s (.addExecute stmt pf rf maxNumRows) (db.error s'.log)
  | simple {q} (ready : s.skipping = false) (h : db.fails (s.log ++ [.simple q]) = true)
      (nothing : db.simple (s.log ++ [.simple q]) = [])
      (interrupted : db.interruptedQuery (s.log ++ [.simple q]) = none) :
      Rejected db s (.addSimpleQuery q) (db.error (s.log ++ [.simple q]))

/-- The calls that run one statement. -/
def TypedCall.runsStatement : TypedCall → Bool
  | addQuery .. | addExecute .. | addSimpleQuery _ => true
  | _ => false

section
variable {db : Database} {s : ServerSession} {columns : List Column} {rows : List Cells}
  {t : Terminator} {c : TypedCall} {formats : Nat → FormatCode}

theorem TypedCall.Returns.runsStatement (h : c.Returns db s formats columns rows t) :
    c.runsStatement = true := by
  cases h <;> rfl

theorem TypedCall.Rejected.runsStatement {fields : List ErrorField} (h : c.Rejected db s fields) :
    c.runsStatement = true := by
  cases h <;> rfl

/-- A handler of a resultset takes the whole request of such a call, and `check_request` takes the
    request. -/
theorem TypedCall.setup_of_runsStatement (h : c.runsStatement = true) {req : Request}
    (hreq : req.messages = (c.call.messages true).map (·.type)) :
    (checkRequest req).failed = false ∧
      resultsetSetup req 0 = .ok (.success, req.messages.length) := by
  obtain ⟨payload, messages⟩ := req
  obtain rfl := hreq
  cases c <;> first | exact ⟨rfl, rfl⟩ | cases h

/-- The database returns rows of the types it describes. -/
theorem Executes.rowTyped {stmt : BoundStatement} {rf : FormatCode} {maxNumRows : Int32}
    {prepared : Prepared} (h : Executes db s stmt rf maxNumRows prepared columns rows t) :
    ∀ row ∈ rows, RowTyped columns row := by
  obtain ⟨-, -, -, hdescribed, hyields⟩ := h
  cases hyields with
  | succeeds _ _ => exact db.typed s.log _ _ columns hdescribed
  | fails _ => exact db.interruptedTyped s.log _ _ columns hdescribed

theorem TypedCall.Returns.rowTyped (h : c.Returns db s formats columns rows t) :
    ∀ row ∈ rows, RowTyped columns row := by
  cases h with
  | addQuery _ h | addExecute h => exact h.rowTyped
  | addSimpleQuery _ _ hreturned =>
    exact db.simpleTyped _ columns rows _ (hreturned ▸ List.mem_singleton_self _)
  | interrupted _ _ _ hreturned => exact db.interruptedQueryTyped _ columns rows hreturned

end

/-! ## 2. Answers that are told as a table -/

theorem toldFrom_rows (rs : List DataRow) (last : AnyBackendMessage) :
    toldFrom true (rs.map .dataRow ++ [last]) = rs.map .dataRow ++ tell true last := by
  induction rs with
  | nil => simp [toldFrom]
  | cons r rs ih =>
    rw [List.map_cons, List.cons_append, toldFrom]
    exact congrArg (_ :: ·) ih

/-- **Answers that are told as a table**, to request messages from index `i` on. -/
structure TableAnswer (i : Nat) (types : List RequestMessageType) (answers : List ServerMessage)
    (formats : Nat → FormatCode) (columns : List Column) (rows : List Cells) (t : Terminator)
    (cs : List Call) : Prop where
  conversation : Conversation false i types (answers.map ServerMessage.parsed) cs
  told : ∃ front : List AnyRequestMessage,
    (∀ msg ∈ front, msg = .parseComplete ∨ msg = .bindComplete) ∧
      cs.map (·.msg) = front ++
        ResultsetCallback.resultsetMessages (describedView formats columns)
          (rows.map (sentView formats)) t
  description : .plain (describeColumns formats columns) ∈ answers
  sent : ∀ row ∈ rows, .plain (sendRow formats row) ∈ answers

/-- The answer to a Parse in front. -/
theorem TableAnswer.parse {i : Nat} {types : List RequestMessageType}
    {answers : List ServerMessage} {formats : Nat → FormatCode} {columns : List Column}
    {rows : List Cells} {t : Terminator} {cs : List Call}
    (h : TableAnswer (i + 1) types answers formats columns rows t cs) :
    TableAnswer i (.parse :: types) (.plain .parseComplete :: answers) formats columns rows t
      (⟨.parseComplete, i⟩ :: cs) := by
  obtain ⟨front, hfront, hmsgs⟩ := h.told
  refine ⟨.answered (a := [_]) rfl .parse h.conversation, ⟨.parseComplete :: front, ?_, ?_⟩,
    List.mem_cons_of_mem _ h.description, fun row hrow => List.mem_cons_of_mem _ (h.sent row hrow)⟩
  · exact List.forall_mem_cons.mpr ⟨.inl rfl, hfront⟩
  · rw [List.map_cons, hmsgs]
    rfl

/-- The messages of an outcome, and what they are told as. -/
theorem Outcome.told {outcome : Outcome} {t : Terminator} (h : outcome.terminator = some t)
    (formats : Nat → FormatCode) : ∃ last : BackendMessage,
    outcome.messages formats = outcome.rows.map (sendRow formats) ++ [last] ∧
      tell true last.parsed = [t.message] := by
  cases outcome with
  | complete rows tag =>
    cases h
    exact ⟨_, rfl, rfl⟩
  | suspended rows =>
    cases h
    exact ⟨_, rfl, rfl⟩
  | empty => cases h

/-- Rows and what ends them. -/
theorem map_parsed_rows (formats : Nat → FormatCode) (rows : List Cells) (last : ServerMessage) :
    ((rows.map (sendRow formats)).map ServerMessage.plain ++ [last]).map ServerMessage.parsed =
      (rows.map (sentView formats)).map .dataRow ++ [last.parsed] := by
  rw [List.map_append, map_parsed_plain, map_parsed_sendRow]
  rfl

section
variable {db : Database} {s : ServerSession} {stmt : BoundStatement} {rf : FormatCode}
  {maxNumRows : Int32} {prepared : Prepared} {columns : List Column} {rows : List Cells}
  {t : Terminator}

/-- The answer to an Execute of the unnamed portal. -/
theorem Database.Yields.answer_execute {p : Portal} (h : db.Yields s.log p maxNumRows.toInt rows t)
    (hready : s.skipping = false) (hp : s.portals [] = some p) : ∃ last : ServerMessage,
    answer db s (RequestMessage.command (.execute [] maxNumRows)) =
        (rows.map (sendRow p.resultFormat)).map .plain ++ [last] ∧
      tell true last.parsed = [t.message] := by
  obtain ⟨s', hs'⟩ : ∃ s', s' = s.happened db.toEngine (.execute p maxNumRows.toInt) := ⟨_, rfl⟩
  have hlog : s'.log = s.log ++ [.execute p maxNumRows.toInt] := by rw [hs']; rfl
  have hserve : serve db.toEngine s (RequestMessage.command (.execute [] maxNumRows)) =
      if db.fails s'.log then s'.fail db.toEngine else s' := by
    change s.execute db.toEngine [] maxNumRows.toInt = _
    simp only [ServerSession.execute, hready, Bool.false_eq_true, if_false, hp]
    rw [hs']
  cases h with
  | succeeds h ht =>
    rw [← hlog] at h ht
    rw [h] at hserve
    simp only [Bool.false_eq_true, if_false] at hserve
    obtain ⟨last, hmessages, hlast⟩ := Outcome.told ht p.resultFormat
    refine ⟨.plain last, ?_, hlast⟩
    rw [answer_of_good hready (by rw [hserve, hs']; exact hready), hserve, RequestMessage.command,
      answerGood, hp, Option.toList_some, List.flatMap_singleton, hmessages, ← hlog,
      List.map_append]
    rfl
  | fails h =>
    rw [← hlog] at h
    rw [h] at hserve
    simp only [if_true] at hserve
    refine ⟨.error (db.error (s.log ++ [.execute p maxNumRows.toInt, .error])), ?_, rfl⟩
    rw [answer_of_failed hready (by rw [hserve]; rfl), hserve, RequestMessage.command, answerFailed,
      interruptedRows, hp, Option.toList_some, List.flatMap_singleton]
    have hfail : (s'.fail db.toEngine).log = s.log ++ [.execute p maxNumRows.toInt, .error] := by
      change s'.log ++ [_] = _
      rw [hlog, List.append_assoc]
      rfl
    rw [hfail]

/-- Describe, Execute and Sync, where the unnamed portal is there. -/
theorem answerAll_portal {p : Portal} (hready : s.skipping = false) (hp : s.portals [] = some p)
    (hdescribed : db.columns p = some columns) : ∃ status,
    answerAll db s [RequestMessage.command (.describe .portal []),
        RequestMessage.command (.execute [] maxNumRows), .sync] =
      .plain (describeColumns p.resultFormat columns) ::
        (answer db s (RequestMessage.command (.execute [] maxNumRows)) ++
          [.plain (.readyForQuery status)]) := by
  have hdescribe : serve db.toEngine s (RequestMessage.command (.describe .portal [])) = s :=
    if_pos (.inr (by rw [hp]; rfl))
  have hanswer : answer db s (RequestMessage.command (.describe .portal [])) =
      [.plain (describeColumns p.resultFormat columns)] := by
    rw [answer_of_good hready (by rw [hdescribe]; exact hready), RequestMessage.command, answerGood,
      hp]
    simp only [Option.map_some, Option.toList_some, answerDescribe, hdescribed, List.map_cons,
      List.map_nil]
  rw [answerAll, hdescribe, answerAll, answerAll, answerAll, hanswer, answer_sync, List.append_nil]
  exact ⟨_, rfl⟩

/-- The calls for a portal that is described and executed. -/
theorem conversation_portal {a : List AnyBackendMessage}
    (ha : Answer false .execute a ∨ Cut false .execute a) (d : RowDescription)
    (status : TransactionStatus) (i : Nat) :
    ∃ cs, Conversation false i [.bind, .describe, .execute, .sync]
        (.bindComplete :: .rowDescription d :: (a ++ [.readyForQuery status])) cs ∧
      cs.map (·.msg) = .bindComplete :: .rowDescription d :: toldFrom true a := by
  have hsync : ∀ i, Conversation false i [.sync] [.readyForQuery status] [] :=
    fun i => .sync status .nil
  have hexecute : ∃ cs, Conversation false (i + 1 + 1) [.execute, .sync]
      (a ++ [.readyForQuery status]) cs ∧ cs.map (·.msg) = toldFrom true a := by
    rcases ha with ha | ha
    · refine ⟨_, .answered rfl ha (hsync _), ?_⟩
      rw [List.append_nil, List.map_map]
      exact List.map_id _
    · refine ⟨_, .failed rfl ha (hsync _), ?_⟩
      rw [List.append_nil, List.map_append, List.map_map]
      exact (List.append_nil _).trans (List.map_id _)
  obtain ⟨cs, hconv, hmsgs⟩ := hexecute
  refine ⟨_, .answered (a := [_]) rfl .bind (.answered (a := [_]) rfl (.describe d) hconv), ?_⟩
  rw [← hmsgs]
  rfl

/-- An execution of a statement that is there. -/
theorem Executes.tableAnswer (h : Executes db s stmt rf maxNumRows prepared columns rows t)
    (hfits : stmt.Fits s) (pf : FormatCode) (i : Nat) : ∃ cs,
    TableAnswer i [.bind, .describe, .execute, .sync]
      (answerAll db s (((AddCall.addExecute stmt.name (stmt.params.map Param.ref) pf rf
        maxNumRows).messages true).map (·.command))) (fun _ => rf) columns rows t cs := by
  obtain ⟨b, hb⟩ : ∃ b, b = AddCall.bindMessage stmt.name (stmt.params.map Param.ref) pf [] rf :=
    ⟨_, rfl⟩
  obtain ⟨s₁, hs₁⟩ : ∃ s₁ : ServerSession, s₁ =
      { s with portals := Function.update s.portals [] (some (stmt.portal rf prepared)) } :=
    ⟨_, rfl⟩
  have hbind : serve db.toEngine s b.command = s₁ := by
    have hmake : TypedCall.bound db.toEngine stmt rf prepared = some (stmt.portal rf prepared) :=
      if_pos h.valid
    rw [hb, serve_bindMessage db.toEngine hfits pf rf [], hs₁]
    simp [ServerSession.bind, h.ready, h.isPrepared, hmake]
  have hready : s₁.skipping = false := by rw [hs₁]; exact h.ready
  have hanswer : answer db s b.command = [.plain .bindComplete] := by
    rw [answer_of_good h.ready (by rw [hbind]; exact hready), hb]
    rfl
  have hportal : s₁.portals [] = some (stmt.portal rf prepared) := by
    simp [hs₁]
  have hyields : db.Yields s₁.log (stmt.portal rf prepared) maxNumRows.toInt rows t := by
    rw [hs₁]
    exact h.yields
  obtain ⟨last, hexecute, hlast⟩ := hyields.answer_execute hready hportal
  obtain ⟨status, hrest⟩ := @answerAll_portal db s₁ maxNumRows columns _ hready hportal h.described
  have hmessages : ((AddCall.addExecute stmt.name (stmt.params.map Param.ref) pf rf
      maxNumRows).messages true).map (·.command) = b.command ::
        [RequestMessage.command (.describe .portal []),
          RequestMessage.command (.execute [] maxNumRows), .sync] := by
    rw [hb]
    rfl
  have hcut := @answer_extended db s₁ (RequestMessage.command (.execute [] maxNumRows)) hready rfl
    .execute rfl rfl
  obtain ⟨cs, hconv, hmsgs⟩ := conversation_portal (hcut.imp And.right And.right)
    (describedView (fun _ => rf) columns) status i
  rw [hexecute, map_parsed_rows, toldFrom_rows, hlast] at hmsgs
  rw [hmessages, answerAll, hbind, hanswer, hrest]
  refine ⟨cs, ?_, ⟨[.bindComplete], by simp, hmsgs⟩, by simp [BoundStatement.portal],
    fun row hrow => ?_⟩
  · rw [List.singleton_append, List.map_cons, List.map_cons, List.map_append]
    exact hconv
  · rw [hexecute]
    refine List.mem_cons_of_mem _ (List.mem_cons_of_mem _ ?_)
    exact List.mem_append_left _ (List.mem_append_left _
      (List.mem_map_of_mem (List.mem_map_of_mem hrow)))

theorem answerAll_query (q : Bytes) (hready : s.skipping = false) :
    answerAll db s [.content (.query q)] = answerQuery db (s.log ++ [.simple q]) := by
  have hserve : serve db.toEngine s (.content (.query q)) = { s with
      statements := Function.update s.statements [] none
      portals := Function.update s.portals [] none }.happened db.toEngine (.simple q) :=
    if_neg (ne_true_of_eq_false hready)
  rw [answerAll, answerAll, List.append_nil,
    answer_of_good hready (by rw [hserve]; exact hready), hserve]
  rfl

/-- A simple query of one statement. -/
theorem tableAnswer_query {q : Bytes} (hready : s.skipping = false) {last : ServerMessage}
    (hquery : answerQuery db (s.log ++ [.simple q]) =
      (describeColumns (fun _ => .text) columns :: rows.map (sendRow fun _ => .text)).map .plain ++
        [last, readyFor db (s.log ++ [.simple q])])
    (hlast : tell true last.parsed = [t.message]) : ∃ cs,
    TableAnswer 0 [.query] (answerAll db s [.content (.query q)]) (fun _ => .text) columns rows t
      cs := by
  obtain ⟨a, hparsed, ha⟩ := answerQuery_spec db (s.log ++ [.simple q])
  obtain rfl : .rowDescription (describedView (fun _ => .text) columns) ::
      ((rows.map (sentView fun _ => .text)).map .dataRow ++ [last.parsed]) = a := by
    have hsame := hparsed
    rw [hquery, List.append_cons, List.map_append, List.map_cons, List.cons_append, List.map_cons,
      map_parsed_rows] at hsame
    exact List.append_cancel_right hsame
  have htold : (told .query (.rowDescription (describedView (fun _ => .text) columns) ::
      ((rows.map (sentView fun _ => .text)).map .dataRow ++ [last.parsed]))) =
        ResultsetCallback.resultsetMessages (describedView (fun _ => .text) columns)
          (rows.map (sentView fun _ => .text)) t := by
    rw [ResultsetCallback.resultsetMessages, ← hlast]
    exact congrArg (_ :: ·) (toldFrom_rows _ _)
  rw [answerAll_query q hready]
  refine ⟨_, (by rw [hparsed]; exact .query ha _ .nil), ⟨[], by simp, ?_⟩, ?_, fun row hrow => ?_⟩
  · rw [htold, List.append_nil, List.map_map]
    exact List.map_id _
  · rw [hquery]
    exact List.mem_append_left _ (List.mem_map_of_mem List.mem_cons_self)
  · rw [hquery]
    exact List.mem_append_left _
      (List.mem_map_of_mem (List.mem_cons_of_mem _ (List.mem_map_of_mem hrow)))

/-- **A call that returns a table is told so.** -/
theorem TypedCall.Returns.tableAnswer {c : TypedCall} {formats : Nat → FormatCode}
    (h : c.Returns db s formats columns rows t) (hfits : c.Fits s) : ∃ cs,
    TableAnswer 0 ((c.call.messages true).map (·.type))
      (answerAll db s ((c.call.messages true).map (·.command))) formats columns rows t cs := by
  cases h with
  | @addQuery q params pf rf maxNumRows columns rows t ready h =>
    obtain ⟨p, hp⟩ : ∃ p, p = RequestMessage.command
        (.parse [] q ((params.map Param.ref).map (·.typeOid))) := ⟨_, rfl⟩
    have hserve : serve db.toEngine s p =
        s.prepare db.toEngine [] ⟨q, oidsOf (params.map Param.type)⟩ := by
      rw [hp, ← oidsOf_refs]
      rfl
    obtain ⟨cs, hcs⟩ := h.tableAnswer (BoundStatement.fits_unnamed db.toEngine q params) pf 1
    have hmessages : ((TypedCall.addQuery q params pf rf maxNumRows).call.messages true).map
        (·.command) = p :: ((AddCall.addExecute [] (params.map Param.ref) pf rf maxNumRows).messages
          true).map (·.command) := by
      rw [hp]
      rfl
    have hanswer : answer db s p = [.plain .parseComplete] := by
      rw [answer_of_good ready (by rw [hserve]; exact h.ready), hp]
      rfl
    rw [hmessages, answerAll, hanswer, hserve]
    exact ⟨_, hcs.parse⟩
  | addExecute h => exact h.tableAnswer hfits _ 0
  | @addSimpleQuery q _ _ tag ready h returned =>
    have hquery : answerQuery db (s.log ++ [.simple q]) =
        (describeColumns (fun _ => .text) columns :: rows.map (sendRow fun _ => .text)).map .plain ++
          [.plain (.commandComplete tag), readyFor db (s.log ++ [.simple q])] := by
      unfold answerQuery
      rw [returned, h]
      simp [SimpleResult.messages]
    exact tableAnswer_query ready hquery rfl
  | @interrupted q _ _ ready h nothing returned =>
    have hquery : answerQuery db (s.log ++ [.simple q]) =
        (describeColumns (fun _ => .text) columns :: rows.map (sendRow fun _ => .text)).map .plain ++
          [.error (db.error (s.log ++ [.simple q])), readyFor db (s.log ++ [.simple q])] := by
      unfold answerQuery
      rw [nothing, h, returned]
      simp [interruptedMessages]
    exact tableAnswer_query ready hquery rfl

end

/-! ## 3. Answers that are told as an error -/

/-- **Answers that are told as an error** in place of a table. -/
structure RejectedAnswer (i : Nat) (types : List RequestMessageType) (answers : List ServerMessage)
    (err : ErrorResponse) (cs : List Call) : Prop where
  conversation : Conversation false i types (answers.map ServerMessage.parsed) cs
  told : ∃ front skipped : List AnyRequestMessage,
    (∀ msg ∈ front, msg = .parseComplete ∨ msg = .bindComplete) ∧
      (∀ msg ∈ skipped, msg = .messageSkipped) ∧
      cs.map (·.msg) = front ++ .errorResponse err :: skipped

/-- The answer to a Parse in front. -/
theorem RejectedAnswer.parse {i : Nat} {types : List RequestMessageType}
    {answers : List ServerMessage} {err : ErrorResponse} {cs : List Call}
    (h : RejectedAnswer (i + 1) types answers err cs) :
    RejectedAnswer i (.parse :: types) (.plain .parseComplete :: answers) err
      (⟨.parseComplete, i⟩ :: cs) := by
  obtain ⟨front, skipped, hfront, hskipped, hmsgs⟩ := h.told
  refine ⟨.answered (a := [_]) rfl .parse h.conversation,
    ⟨.parseComplete :: front, skipped, ?_, hskipped, ?_⟩⟩
  · exact List.forall_mem_cons.mpr ⟨.inl rfl, hfront⟩
  · rw [List.map_cons, hmsgs]
    rfl

theorem skippedCalls_msg : ∀ (ms : List RequestMessageType) (i : Nat),
    ∀ msg ∈ (skippedCalls ms i).map (·.msg), msg = .messageSkipped
  | [], _ => by simp [skippedCalls]
  | m :: ms, i => by
      have ih := skippedCalls_msg ms (i + 1)
      cases m with
      | flush => exact ih
      | _ => exact List.forall_mem_cons.mpr ⟨rfl, ih⟩

section
variable {db : Database} {s : ServerSession}

theorem answerAll_skipping (db : Database) : ∀ {cs : List Command} {s : ServerSession},
    s.skipping = true → (∀ c ∈ cs, c ≠ .sync) →
    ∃ status, answerAll db s (cs ++ [.sync]) = [.plain (.readyForQuery status)]
  | [], s, _, _ => by
      rw [List.nil_append, answerAll, answerAll, answer_sync]
      exact ⟨_, rfl⟩
  | c :: cs, s, hs, hcs => by
      obtain ⟨hc, hcs⟩ := List.forall_mem_cons.mp hcs
      rw [List.cons_append, answerAll, answer_skipping db hs hc, serve_skipping hs hc]
      exact answerAll_skipping db hs hcs

/-- A message that fails, the rest of its batch, and the Sync. -/
theorem rejectedAnswer {c : Command} {cs : List Command} {m : RequestMessageType}
    {rest : List RequestMessageType} (hready : s.skipping = false)
    (hskip : (serve db.toEngine s c).skipping = true) (htype : c.type = some m)
    (hm : m.isExtended = true)
    (hnothing : interruptedRows db s (serve db.toEngine s c).log c = [])
    (hrest : ∀ x ∈ rest, x.endsUnit = false) (hcs : cs.map Command.type = rest.map some) (i : Nat) :
    ∃ calls, RejectedAnswer i (m :: (rest ++ [.sync])) (answerAll db s (c :: (cs ++ [.sync])))
      (ServerMessage.errorFields (db.error (serve db.toEngine s c).log)) calls := by
  have hsync : ∀ c ∈ cs, c ≠ .sync := by
    rintro c hc rfl
    have hmem := List.mem_map_of_mem (f := Command.type) hc
    rw [hcs] at hmem
    obtain ⟨x, hx, hxs⟩ := List.mem_map.mp hmem
    cases hxs
    exact absurd (hrest _ hx) (by decide)
  have hanswer : answer db s c = [.error (db.error (serve db.toEngine s c).log)] := by
    rw [answer_of_failed hready hskip, answerFailed, hnothing]
    rfl
  have hcut : Cut false m
      ((answerFailed db s (serve db.toEngine s c).log c).map ServerMessage.parsed) :=
    cut_answerFailed s _ htype hm
  rw [← answer_of_failed hready hskip, hanswer] at hcut
  obtain ⟨status, hbehind⟩ := answerAll_skipping db hskip hsync
  have hconv : ∀ k, Conversation false k
      ((rest ++ [RequestMessageType.sync]).dropWhile (· ≠ .sync))
      [.readyForQuery status] [] := by
    intro k
    rw [dropWhile_sync hrest]
    exact .sync status .nil
  rw [answerAll, hanswer, hbehind]
  refine ⟨_, .failed hm hcut (hconv _), [], (skippedCalls rest (i + 1)).map (·.msg), by simp,
    skippedCalls_msg rest (i + 1), ?_⟩
  rw [takeWhile_sync hrest, List.map_append, List.append_nil]
  rfl

/-- An execution of a statement that cannot be bound. -/
theorem rejectedAnswer_bind {stmt : BoundStatement} {rf : FormatCode} (hready : s.skipping = false)
    (hfits : stmt.Fits s) (hskip : (s.bind db.toEngine [] stmt.name
      (TypedCall.bound db.toEngine stmt rf)).skipping = true) (pf : FormatCode) (maxNumRows : Int32)
    (i : Nat) : ∃ calls,
    RejectedAnswer i [.bind, .describe, .execute, .sync]
      (answerAll db s (((AddCall.addExecute stmt.name (stmt.params.map Param.ref) pf rf
        maxNumRows).messages true).map (·.command)))
      (ServerMessage.errorFields (db.error (s.bind db.toEngine [] stmt.name
        (TypedCall.bound db.toEngine stmt rf)).log)) calls := by
  have hserve := serve_bindMessage db.toEngine hfits pf rf []
  rw [← hserve] at hskip ⊢
  exact @rejectedAnswer db s _ [RequestMessage.command (.describe .portal []),
    RequestMessage.command (.execute [] maxNumRows)] .bind [.describe, .execute] hready hskip rfl rfl
    rfl (by decide) rfl i

/-- **A call that is rejected is told so.** -/
theorem TypedCall.Rejected.told {c : TypedCall} {fields : List ErrorField}
    (h : c.Rejected db s fields) (hfits : c.Fits s) : ∃ cs,
    RejectedAnswer 0 ((c.call.messages true).map (·.type))
      (answerAll db s ((c.call.messages true).map (·.command))) (ServerMessage.errorFields fields)
      cs := by
  cases h with
  | @prepare q params pf rf maxNumRows s' ready hs h =>
    have hserve : serve db.toEngine s (RequestMessage.command
        (.parse [] q ((params.map Param.ref).map (·.typeOid)))) = s' := by
      rw [← hs, ← oidsOf_refs]
      rfl
    subst hserve
    exact @rejectedAnswer db s _ ((AddCall.bindMessage [] (params.map Param.ref) pf [] rf).command ::
      [RequestMessage.command (.describe .portal []), RequestMessage.command (.execute [] maxNumRows)])
      .parse [.bind, .describe, .execute] ready h rfl rfl rfl (by decide) rfl 0
  | @bindQuery q params pf rf maxNumRows s' s'' ready hs ready' hs' h =>
    obtain ⟨p, hp⟩ : ∃ p, p = RequestMessage.command
        (.parse [] q ((params.map Param.ref).map (·.typeOid))) := ⟨_, rfl⟩
    have hserve : serve db.toEngine s p = s' := by
      rw [hp, ← hs, ← oidsOf_refs]
      rfl
    have hanswer : answer db s p = [.plain .parseComplete] := by
      rw [answer_of_good ready (by rw [hserve]; exact ready'), hp]
      rfl
    have hbound := @BoundStatement.fits_unnamed db.toEngine s q params
    rw [hs] at hbound
    subst hs'
    obtain ⟨cs, hcs⟩ := rejectedAnswer_bind ready' hbound h pf maxNumRows 1
    have hmessages : ((TypedCall.addQuery q params pf rf maxNumRows).call.messages true).map
        (·.command) = p :: ((AddCall.addExecute [] (params.map Param.ref) pf rf maxNumRows).messages
          true).map (·.command) := by
      rw [hp]
      rfl
    rw [hmessages, answerAll, hanswer, hserve]
    exact ⟨_, hcs.parse⟩
  | @bindExecute stmt pf rf maxNumRows s' ready hs h =>
    subst hs
    exact rejectedAnswer_bind ready hfits h pf maxNumRows 0
  | @simple q ready h nothing interrupted =>
    have hquery : answerQuery db (s.log ++ [.simple q]) = [.error (db.error (s.log ++ [.simple q])),
        readyFor db (s.log ++ [.simple q])] := by
      unfold answerQuery
      rw [nothing, h, interrupted]
      rfl
    obtain ⟨a, hparsed, ha⟩ := answerQuery_spec db (s.log ++ [.simple q])
    obtain rfl : [ServerMessage.parsed (.error (db.error (s.log ++ [.simple q])))] = a := by
      rw [hquery] at hparsed
      have hsame : [ServerMessage.parsed (.error (db.error (s.log ++ [.simple q])))] ++
          [.readyForQuery (db.status (s.log ++ [.simple q]))] = a ++ [_] := hparsed
      exact List.append_cancel_right hsame
    have hconv := Conversation.query (i := 0) ha (db.status (s.log ++ [.simple q])) .nil
    rw [List.singleton_append] at hparsed
    rw [List.singleton_append, ← hparsed, ← answerAll_query q ready] at hconv
    exact ⟨_, hconv, [], [], by simp, by simp, rfl⟩

end

end NativePg
