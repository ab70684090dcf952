/-
  File:      NativePg/Statements/Answers.lean
  Subject:   What a server answers to the commands it takes.

  * `Database` -- what the statements return: columns, rows of their types, errors;
  * `describeColumns`, `sendRow` -- results as messages, each column in the format its portal asks
    for;
  * `answer`, `answerAll` -- the answer to a command, and to one command after the other;
  * **`transcript_answerAll`** -- a server that does so is a conforming one. A description of a
    statement is left out: the client does not take the parameters it begins with.
-/
import NativePg.ReadResponse.Server
import NativePg.Protocol.Wire
import NativePg.Statements.Server
import NativePg.Types.Fields

namespace NativePg

open NativePg.Types

/-! ## 1. Results -/

/-- A column of a result. -/
structure Column where
  name : Bytes
  tableOid : Int
  columnAttribute : Int
  typeOid : Int
  typeLength : Int
  typeModifier : Int
  deriving DecidableEq

/-- A row; none is NULL. -/
abbrev Cells := List (Option Datum)

/-- The row has a value of its type in every column. -/
def RowTyped (columns : List Column) (row : Cells) : Prop :=
  List.Forall₂ (fun c cell => ∀ d ∈ cell, d.oid = c.typeOid) columns row

/-- What the execution of a portal returns. -/
inductive Outcome where
  | complete (rows : List Cells) (tag : Bytes)
  | suspended (rows : List Cells)
  | empty

def Outcome.rows : Outcome → List Cells
  | complete rows _ | suspended rows => rows
  | empty => []

/-- What a statement of a simple query returns. -/
inductive SimpleResult where
  | rows (columns : List Column) (cells : List Cells) (tag : Bytes)
  | bare (tag : Bytes)

/-- **The database.** What the last event returns depends on what has been done before. Where an
    execution fails, some rows may have been returned. Where a simple query fails, so have been the
    results of the statements before, and some rows of the one that fails. -/
structure Database extends Engine where
  columns : Portal → Option (List Column)
  outcome : List Event → Outcome
  interrupted : List Event → List Cells
  simple : List Event → List SimpleResult
  interruptedQuery : List Event → Option (List Column × List Cells)
  error : List Event → List ErrorField
  status : List Event → TransactionStatus
  typed : ∀ log p n cs, columns p = some cs →
    ∀ row ∈ (outcome (log ++ [.execute p n])).rows, RowTyped cs row
  interruptedTyped : ∀ log p n cs, columns p = some cs →
    ∀ row ∈ interrupted (log ++ [.execute p n, .error]), RowTyped cs row
  simpleTyped : ∀ log cs cells tag, .rows cs cells tag ∈ simple log → ∀ row ∈ cells, RowTyped cs row
  interruptedQueryTyped : ∀ log cs cells, interruptedQuery log = some (cs, cells) →
    ∀ row ∈ cells, RowTyped cs row

/-! ## 2. Messages -/

def Column.described (c : Column) (fmtCode : FormatCode) : FieldDescription where
  name := c.name
  tableOid := c.tableOid
  columnAttribute := c.columnAttribute
  typeOid := c.typeOid
  typeLength := c.typeLength
  typeModifier := c.typeModifier
  fmtCode := fmtCode

/-- Columns in the formats asked for. -/
def describedIn (formats : Nat → FormatCode) (columns : List Column) : List FieldDescription :=
  columns.mapIdx fun i c => c.described (formats i)

/-- A row in the formats asked for. -/
def sentIn (formats : Nat → FormatCode) (row : Cells) : List (Option Bytes) :=
  row.mapIdx fun i cell => cell.map (Datum.bytes (formats i))

def describeColumns (formats : Nat → FormatCode) (columns : List Column) : BackendMessage :=
  .rowDescription (describedIn formats columns)

def sendRow (formats : Nat → FormatCode) (row : Cells) : BackendMessage :=
  .dataRow (sentIn formats row)

/-- The views a client gets of them. -/
def describedView (formats : Nat → FormatCode) (columns : List Column) : RowDescription :=
  ⟨⟨(describedIn formats columns).length,
    (describedIn formats columns).flatMap encFieldDescription⟩⟩

def sentView (formats : Nat → FormatCode) (row : Cells) : DataRow :=
  ⟨(sentIn formats row).length, (sentIn formats row).flatMap encColumn⟩

def Outcome.messages (formats : Nat → FormatCode) : Outcome → List BackendMessage
  | complete rows tag => rows.map (sendRow formats) ++ [.commandComplete tag]
  | suspended rows => rows.map (sendRow formats) ++ [.portalSuspended]
  | empty => [.emptyQueryResponse]

/-- Simple queries return text. -/
def SimpleResult.messages : SimpleResult → List BackendMessage
  | rows columns cells tag =>
      describeColumns (fun _ => .text) columns :: cells.map (sendRow fun _ => .text) ++
        [.commandComplete tag]
  | bare tag => [.commandComplete tag]

/-- Some rows of a statement that fails. -/
def interruptedMessages : Option (List Column × List Cells) → List BackendMessage
  | some (columns, cells) =>
      describeColumns (fun _ => .text) columns :: cells.map (sendRow fun _ => .text)
  | none => []

/-! ## 3. Answers -/

section
variable (db : Database)

def readyFor (log : List Event) : ServerMessage := .plain (.readyForQuery (db.status log))

/-- The answer to a simple query. -/
def answerQuery (log : List Event) : List ServerMessage :=
  ((db.simple log).flatMap SimpleResult.messages).map .plain ++
    (if db.fails log then
        (interruptedMessages (db.interruptedQuery log)).map .plain ++ [.error (db.error log)]
      else if (db.simple log).isEmpty then [.plain .emptyQueryResponse] else []) ++
    [readyFor db log]

/-- The answer to a description of a portal. -/
def answerDescribe (p : Portal) : BackendMessage :=
  match db.columns p with
  | some columns => describeColumns p.resultFormat columns
  | none => .noData

/-- The answer to a command that has not failed, in a session `s` that it leaves with this log. -/
def answerGood (s : ServerSession) (log : List Event) : Command → List ServerMessage
  | .content (.query _) => answerQuery db log
  | .content (.parse ..) => [.plain .parseComplete]
  | .content (.bind ..) => [.plain .bindComplete]
  | .content (.describe _ name) => ((s.portals name).map (answerDescribe db)).toList.map .plain
  | .content (.close ..) => [.plain .closeComplete]
  | .content (.execute name _) =>
      ((s.portals name).toList.flatMap fun p => (db.outcome log).messages p.resultFormat).map .plain
  | .content _ | .flush => []
  | .sync => [readyFor db log]

/-- What a command returns before it fails. -/
def interruptedRows (s : ServerSession) (log : List Event) : Command → List BackendMessage
  | .content (.execute name _) =>
      (s.portals name).toList.flatMap fun p => (db.interrupted log).map (sendRow p.resultFormat)
  | _ => []

/-- The answer to a command that has failed. -/
def answerFailed (s : ServerSession) (log : List Event) (c : Command) : List ServerMessage :=
  (interruptedRows db s log c).map .plain ++ [.error (db.error log)]

/-- **The answer to a command.** Up to the next Sync behind an error there is none. -/
def answer (s : ServerSession) (c : Command) : List ServerMessage :=
  let s' := serve db.toEngine s c
  if s.skipping then if c = .sync then [readyFor db s'.log] else []
  else if s'.skipping then answerFailed db s s'.log c
  else answerGood db s s'.log c

/-- The answers to one command after the other. -/
def answerAll : ServerSession → List Command → List ServerMessage
  | _, [] => []
  | s, c :: cs => answer db s c ++ answerAll (serve db.toEngine s c) cs

theorem answerAll_append : ∀ (s : ServerSession) (cs cs' : List Command),
    answerAll db s (cs ++ cs') =
      answerAll db s cs ++ answerAll db (serveAll db.toEngine s cs) cs'
  | _, [], _ => rfl
  | s, c :: cs, cs' => by
      rw [List.cons_append, answerAll, answerAll, answerAll_append, List.append_assoc]
      rfl

end

/-! ## 4. They are a transcript -/

/-- The command asks for a description of a statement. -/
def Command.describesStatement : Command → Bool
  | .content (.describe type _) => type = PortalOrStatement.statement.byte
  | _ => false

section
variable {db : Database} {s : ServerSession} {c : Command}

theorem map_parsed_plain (ms : List BackendMessage) :
    (ms.map ServerMessage.plain).map ServerMessage.parsed = ms.map BackendMessage.parsed := by
  rw [List.map_map]
  rfl

theorem map_parsed_sendRow (formats : Nat → FormatCode) (rows : List Cells) :
    (rows.map (sendRow formats)).map BackendMessage.parsed =
      (rows.map (sentView formats)).map .dataRow := by
  rw [List.map_map, List.map_map]
  rfl

theorem Outcome.answers (formats : Nat → FormatCode) (outcome : Outcome) :
    Answer false .execute ((outcome.messages formats).map BackendMessage.parsed) := by
  cases outcome with
  | complete rows tag =>
    rw [messages, List.map_append, map_parsed_sendRow]
    exact .execute _ tag
  | suspended rows =>
    rw [messages, List.map_append, map_parsed_sendRow]
    exact .executeSuspended _
  | empty => exact .executeEmpty

theorem SimpleResult.statement (r : SimpleResult) :
    Statement false (r.messages.map BackendMessage.parsed) := by
  cases r with
  | rows columns cells tag =>
    rw [messages, List.map_append, List.map_cons, map_parsed_sendRow]
    exact .rows _ _ tag
  | bare tag => exact .bare tag

/-- Some rows of a statement, and what would have ended them. -/
theorem statement_interrupted (r : Option (List Column × List Cells)) : Statement false
    ((interruptedMessages r).map BackendMessage.parsed ++ [.commandComplete []]) := by
  cases r with
  | none => exact .bare []
  | some r =>
    rw [interruptedMessages, List.map_cons, map_parsed_sendRow]
    exact .rows _ _ []

/-- An error alone. -/
theorem cut_error {m : RequestMessageType} (hm : m.isExtended = true) (e : ErrorNoticeFields) :
    Cut false m [.errorResponse e] := by
  cases m with
  | parse => exact ⟨[], _, e, List.cons_ne_nil _ _, .parse, rfl⟩
  | bind => exact ⟨[], _, e, List.cons_ne_nil _ _, .bind, rfl⟩
  | close => exact ⟨[], _, e, List.cons_ne_nil _ _, .close, rfl⟩
  | describe => exact ⟨[], _, e, List.cons_ne_nil _ _, .describeNoData, rfl⟩
  | execute => exact ⟨[], _, e, List.cons_ne_nil _ _, .executeEmpty, rfl⟩
  | flush | query | sync => cases hm

/-- The answer to a message that has failed. -/
theorem cut_answerFailed (s : ServerSession) (log : List Event) {m : RequestMessageType}
    (htype : c.type = some m) (hm : m.isExtended = true) :
    Cut false m ((answerFailed db s log c).map ServerMessage.parsed) := by
  rw [answerFailed, List.map_append, map_parsed_plain]
  cases c with
  | flush | sync => exact cut_error hm _
  | content c =>
    cases c with
    | execute name rows =>
      cases htype
      cases hp : s.portals name with
      | none =>
        rw [interruptedRows, hp]
        exact cut_error rfl _
      | some p =>
        rw [interruptedRows, hp, Option.toList_some, List.flatMap_singleton, map_parsed_sendRow]
        exact ⟨_, [.commandComplete []], _, List.cons_ne_nil _ _, .execute _ [], rfl⟩
    | _ => exact cut_error hm _

/-- The answer to a simple query. -/
theorem answerQuery_spec (db : Database) (log : List Event) : ∃ a,
    (answerQuery db log).map ServerMessage.parsed = a ++ [.readyForQuery (db.status log)] ∧
      (Answer false .query a ∨ Cut false .query a) := by
  have hstatements : ∀ st ∈ (db.simple log).map fun r => r.messages.map BackendMessage.parsed,
      Statement false st := by
    intro st hst
    obtain ⟨r, -, rfl⟩ := List.mem_map.mp hst
    exact r.statement
  have hflatten : (((db.simple log).flatMap SimpleResult.messages).map ServerMessage.plain).map
      ServerMessage.parsed =
        ((db.simple log).map fun r => r.messages.map BackendMessage.parsed).flatten := by
    rw [map_parsed_plain, List.map_flatMap, List.flatMap_def]
  unfold answerQuery
  rw [List.map_append, List.map_append, hflatten]
  cases db.fails log with
  | true =>
    -- one more CommandComplete would have made it a complete answer
    rw [if_pos rfl, List.map_append, map_parsed_plain, ← List.append_assoc]
    refine ⟨_, rfl, .inr ⟨_, [.commandComplete []], _, List.cons_ne_nil _ _, ?_, rfl⟩⟩
    have hmore := Answer.query (_ ++ [_]) (by simp) fun st hst =>
      (List.mem_append.mp hst).elim (hstatements st) fun hst => by
        rw [List.mem_singleton.mp hst]
        exact statement_interrupted (db.interruptedQuery log)
    rwa [List.flatten_append, List.flatten_singleton, ← List.append_assoc] at hmore
  | false =>
    cases hsimple : db.simple log with
    | nil => exact ⟨[.emptyQueryResponse], rfl, .inl .queryEmpty⟩
    | cons r rs =>
      rw [hsimple] at hstatements
      exact ⟨_, congrArg (· ++ [_]) (List.append_nil _),
        .inl (.query _ (List.cons_ne_nil _ _) hstatements)⟩

theorem serve_skipping {eng : Engine} (hs : s.skipping = true) (hc : c ≠ .sync) :
    serve eng s c = s := by
  cases c with
  | sync => exact absurd rfl hc
  | flush => rfl
  | content c =>
    cases c with
    | describe type name =>
      simp [serve, ServerSession.describeStatement, ServerSession.describePortal,
        ServerSession.reject, hs]
    | close type name =>
      simp [serve, ServerSession.closeStatement, ServerSession.closePortal, ServerSession.reject,
        hs]
    | _ =>
      simp [serve, ServerSession.simple, ServerSession.prepare, ServerSession.bind,
        ServerSession.execute, ServerSession.reject, hs]

theorem answerDescribe_answers (db : Database) (p : Portal) :
    Answer false .describe [(answerDescribe db p).parsed] := by
  unfold answerDescribe
  cases db.columns p with
  | some columns => exact .describe _
  | none => exact .describeNoData

/-- A command has failed where it leaves the server skipping. -/
theorem answer_of_good (hs : s.skipping = false)
    (hgood : (serve db.toEngine s c).skipping = false) :
    answer db s c = answerGood db s (serve db.toEngine s c).log c := by
  unfold answer
  simp only [hs, hgood, Bool.false_eq_true, if_false]

theorem answer_of_failed (hs : s.skipping = false)
    (hfailed : (serve db.toEngine s c).skipping = true) :
    answer db s c = answerFailed db s (serve db.toEngine s c).log c := by
  unfold answer
  simp only [hs, hfailed, Bool.false_eq_true, if_false, if_true]

/-- There is no answer while the server is skipping, up to the Sync. -/
theorem answer_skipping (db : Database) (hs : s.skipping = true) (hc : c ≠ .sync) :
    answer db s c = [] := by
  unfold answer
  simp only [hs, hc, if_true, if_false]

theorem answer_sync (db : Database) (s : ServerSession) :
    answer db s .sync = [readyFor db (serve db.toEngine s .sync).log] := by
  cases hs : s.skipping with
  | true =>
    unfold answer
    simp only [hs, if_true]
  | false => exact answer_of_good hs rfl

theorem isSome_of_not_failed {eng : Engine} {p : Prop} [Decidable p]
    (h : (if p then s else s.fail eng).skipping = false) : p := by
  by_contra hnot
  rw [if_neg hnot] at h
  cases h

/-- The answer to a message of the extended protocol. -/
theorem answer_extended (hs : s.skipping = false) (hc : c.describesStatement = false)
    {m : RequestMessageType} (htype : c.type = some m) (hm : m.isExtended = true) :
    ((serve db.toEngine s c).skipping = false ∧
        Answer false m ((answer db s c).map ServerMessage.parsed)) ∨
      ((serve db.toEngine s c).skipping = true ∧
        Cut false m ((answer db s c).map ServerMessage.parsed)) := by
  cases hskip : (serve db.toEngine s c).skipping with
  | true =>
    rw [answer_of_failed hs hskip]
    exact .inr ⟨rfl, cut_answerFailed s _ htype hm⟩
  | false =>
    rw [answer_of_good hs hskip]
    refine .inl ⟨rfl, ?_⟩
    cases c with
    | flush | sync => cases htype; cases hm
    | content c =>
      cases c with
      | query text => cases htype; cases hm
      | parse name text oids => cases htype; exact .parse
      | bind portal statement paramCodes params resultCodes => cases htype; exact .bind
      | close type name => cases htype; exact .close
      | describe type name =>
        cases htype
        simp only [serve] at hskip
        have hportal : type = PortalOrStatement.portal.byte := by
          by_contra hnot
          rw [if_neg (of_decide_eq_false hc), if_neg hnot, ServerSession.reject, hs] at hskip
          cases hskip
        subst hportal
        have hfound := isSome_of_not_failed hskip
        rw [hs] at hfound
        obtain ⟨p, hp⟩ := Option.isSome_iff_exists.mp (hfound.resolve_left (by decide))
        simp only [answerGood, hp, Option.map_some, Option.toList_some, List.map_cons,
          List.map_nil, ServerMessage.parsed]
        exact answerDescribe_answers db p
      | execute name rows =>
        cases htype
        simp only [serve, ServerSession.execute, hs, Bool.false_eq_true, if_false] at hskip
        cases hp : s.portals name with
        | none =>
          rw [hp] at hskip
          cases hskip
        | some p =>
          have happend := (db.outcome
            (serve db.toEngine s (.content (.execute name rows))).log).answers p.resultFormat
          rw [← map_parsed_plain] at happend
          simp only [answerGood, hp, Option.toList_some, List.flatMap_singleton]
          exact happend
      | copyFail text | password text | startup version params => cases htype

theorem type_sync : c.type = some .sync ↔ c = .sync := by
  constructor
  · intro h
    cases c with
    | sync => rfl
    | flush => cases h
    | content c => cases c <;> cases h
  · rintro rfl
    rfl

/-- **The answers are a transcript.** The induction is over the commands; where the server is
    skipping, it answers from the next Sync on. -/
theorem transcript_answerAll : ∀ {cs : List Command} {types : List RequestMessageType}
    (s : ServerSession), cs.map Command.type = types.map some →
    (∀ c ∈ cs, c.describesStatement = false) →
    Transcript false (if s.skipping then types.dropWhile (· ≠ .sync) else types)
      ((answerAll db s cs).map ServerMessage.parsed)
  | [], types, s, htypes, _ => by
      obtain rfl := List.map_eq_nil_iff.mp htypes.symm
      cases s.skipping <;> exact .nil
  | c :: cs, types, s, htypes, hcs => by
      obtain ⟨m, types, rfl, hm, htail⟩ := List.map_eq_cons_iff.mp htypes.symm
      obtain ⟨hc, hcs⟩ := List.forall_mem_cons.mp hcs
      have ih := transcript_answerAll (serve db.toEngine s c) htail.symm hcs
      rw [answerAll, List.map_append]
      cases hs : s.skipping with
      | true =>
        by_cases hsync : c = .sync
        · subst hsync
          cases hm
          rw [answer_sync]
          exact .sync _ ih
        · have hne : m ≠ .sync := by
            rintro rfl
            exact hsync (type_sync.mp hm.symm)
          rw [serve_skipping hs hsync, hs] at ih
          rw [answer_skipping db hs hsync, serve_skipping hs hsync]
          simp only [if_true, List.dropWhile_cons, ne_eq, hne, not_false_eq_true, decide_true]
          exact ih
      | false =>
        by_cases hext : m.isExtended = true
        · obtain ⟨hskip, hanswer⟩ | ⟨hskip, hcut⟩ := answer_extended hs hc hm.symm hext
          · rw [hskip] at ih
            exact .answered hext hanswer ih
          · rw [hskip] at ih
            exact .failed hext hcut ih
        · cases c with
          | flush =>
            cases hm
            have hsame : serve db.toEngine s .flush = s := rfl
            rw [hsame, hs] at ih
            rw [answer_of_good hs (by rw [hsame, hs])]
            exact .flush ih
          | sync =>
            cases hm
            rw [answer_sync]
            exact .sync _ ih
          | content c =>
            cases c with
            | query text =>
              cases hm
              have hskip : (serve db.toEngine s (.content (.query text))).skipping = false := by
                simp only [serve, ServerSession.simple, hs, Bool.false_eq_true, if_false]
                rfl
              obtain ⟨a, hanswer, ha⟩ :=
                answerQuery_spec db (serve db.toEngine s (.content (.query text))).log
              rw [hskip] at ih
              rw [answer_of_good hs hskip, answerGood, hanswer, List.append_assoc]
              exact .query ha _ ih
            | copyFail text | password text | startup version params => cases hm
            | _ =>
              cases hm
              exact absurd rfl hext

end

end NativePg
