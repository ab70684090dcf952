/-
  File:      NativePg/Statements/Server.lean
  Subject:   What a server does with the commands it has decoded: its prepared statements and its
             portals, after the description of the extended query protocol.

  * `Engine` -- what depends on the database behind it: which commands fail, which texts are valid,
    and when portals end;
  * `ServerSession` -- the statements, the portals, and the log of what has been done. After an error
    everything up to the next Sync is skipped;
  * `ServerSession.prepare`, `bind`, `execute`, ... -- one command each;
  * `readPortal` -- the values of a Bind: their formats are in the message, their types are those of
    the statement it names;
  * `serve`, `serveAll` -- commands as they arrive.
-/
import Mathlib.Logic.Function.Basic
import NativePg.RequestServer
import NativePg.Types.Parameters

namespace NativePg

open Function (update)
open NativePg.Types

/-! ## 1. Sessions -/

/-- A prepared statement: its query, and the OIDs of the types of its parameters. -/
structure Prepared where
  query : Bytes
  oids : List Int
  deriving DecidableEq

/-- A portal: the query of a statement with the values of its parameters, where none is NULL, and
    the format of each column of its result. -/
structure Portal where
  statement : Bytes
  query : Bytes
  params : List (Option Param)
  resultFormat : Nat → FormatCode

/-- What a server does. -/
inductive Event where
  | simple (query : Bytes)
  | prepare (statement : Prepared)
  | execute (portal : Portal) (maxNumRows : Int)
  | error
  | sync

/-- The database. Whether the last event fails depends on what has been done before, and so does
    whether the portals end with it, as they do with their transaction. -/
structure Engine where
  validText : Bytes → Bool
  fails : List Event → Bool
  endsPortals : List Event → Bool

/-- The state of a server that answers one client. -/
structure ServerSession where
  statements : Bytes → Option Prepared
  portals : Bytes → Option Portal
  skipping : Bool
  log : List Event

namespace ServerSession

/-- A session that has just begun. -/
def new : ServerSession := ⟨fun _ => none, fun _ => none, false, []⟩

variable (eng : Engine)

/-- Something has been done. -/
def happened (e : Event) (s : ServerSession) : ServerSession :=
  let log := s.log ++ [e]
  { s with log, portals := if eng.endsPortals log then fun _ => none else s.portals }

/-- A command has failed. -/
def fail (s : ServerSession) : ServerSession := { s.happened eng .error with skipping := true }

/-! ## 2. Commands -/

/-- Query. It takes the unnamed statement and the unnamed portal with it. -/
def simple (query : Bytes) (s : ServerSession) : ServerSession :=
  if s.skipping then s
  else { s with
    statements := update s.statements [] none
    portals := update s.portals [] none }.happened eng (.simple query)

/-- Parse. Only the unnamed statement may be replaced. -/
def prepare (name : Bytes) (statement : Prepared) (s : ServerSession) : ServerSession :=
  if s.skipping then s
  else if name ≠ [] ∧ (s.statements name).isSome then s.fail eng
  else
    let s := { s with statements := update s.statements name none }.happened eng (.prepare statement)
    if eng.fails s.log then s.fail eng
    else { s with statements := update s.statements name (some statement) }

/-- Bind, where `make` makes the portal of the statement. -/
def bind (portal statement : Bytes) (make : Prepared → Option Portal) (s : ServerSession) :
    ServerSession :=
  if s.skipping then s
  else match s.statements statement with
    | none => s.fail eng
    | some prepared =>
      if portal ≠ [] ∧ (s.portals portal).isSome then s.fail eng
      else match make prepared with
        | none => s.fail eng
        | some p => { s with portals := update s.portals portal (some p) }

/-- Describe, of a statement. -/
def describeStatement (name : Bytes) (s : ServerSession) : ServerSession :=
  if s.skipping ∨ (s.statements name).isSome then s else s.fail eng

/-- Describe, of a portal. -/
def describePortal (name : Bytes) (s : ServerSession) : ServerSession :=
  if s.skipping ∨ (s.portals name).isSome then s else s.fail eng

/-- Execute. -/
def execute (portal : Bytes) (maxNumRows : Int) (s : ServerSession) : ServerSession :=
  if s.skipping then s
  else match s.portals portal with
    | none => s.fail eng
    | some p =>
      let s := s.happened eng (.execute p maxNumRows)
      if eng.fails s.log then s.fail eng else s

/-- Close, of a statement. Its portals are closed with it. -/
def closeStatement (name : Bytes) (s : ServerSession) : ServerSession :=
  if s.skipping then s
  else { s with
    statements := update s.statements name none
    portals := fun portal => (s.portals portal).filter (·.statement ≠ name) }

/-- Close, of a portal. -/
def closePortal (name : Bytes) (s : ServerSession) : ServerSession :=
  if s.skipping then s else { s with portals := update s.portals name none }

/-- Sync. -/
def sync (s : ServerSession) : ServerSession := { s.happened eng .sync with skipping := false }

/-- A command the server cannot take. -/
def reject (s : ServerSession) : ServerSession := if s.skipping then s else s.fail eng

end ServerSession

/-! ## 3. The values of a Bind -/

/-- A format code. -/
def readFormat (code : Int) : Option FormatCode :=
  if code = 0 then some .text else if code = 1 then some .binary else none

/-- The format at each place: no code stands for text, and a single one is that of all. -/
def formatAt : List FormatCode → Nat → FormatCode
  | [], _ => .text
  | [format], _ => format
  | formats, i => formats.getD i .text

/-- The values of the parameters from the `i`th on. Every parameter has to have a type. -/
def readParams (validText : Bytes → Bool) (formats : Nat → FormatCode) :
    Nat → List Int → List (Option Bytes) → Option (List (Option Param))
  | _, [], [] => some []
  | i, _ :: oids, none :: params => do
    let values ← readParams validText formats (i + 1) oids params
    pure (none :: values)
  | i, oid :: oids, some data :: params => do
    let value ← readParam validText oid (formats i) data
    let values ← readParams validText formats (i + 1) oids params
    pure (some value :: values)
  | _, _, _ => none

/-- The portal a Bind asks for. -/
def readPortal (validText : Bytes → Bool) (statement : Bytes) (paramCodes : List Int)
    (params : List (Option Bytes)) (resultCodes : List Int) (prepared : Prepared) :
    Option Portal := do
  let paramFormats ← paramCodes.mapM readFormat
  let values ← readParams validText (formatAt paramFormats) 0 prepared.oids params
  let resultFormats ← resultCodes.mapM readFormat
  pure ⟨statement, prepared.query, values, formatAt resultFormats⟩

/-! ## 4. Commands as they arrive -/

section
variable (eng : Engine)

/-- One command. -/
def serve (s : ServerSession) : Command → ServerSession
  | .content (.query text) => s.simple eng text
  | .content (.parse name text oids) => s.prepare eng name ⟨text, oids⟩
  | .content (.bind portal statement paramCodes params resultCodes) =>
      s.bind eng portal statement (readPortal eng.validText statement paramCodes params resultCodes)
  | .content (.describe type name) =>
      if type = PortalOrStatement.statement.byte then s.describeStatement eng name
      else if type = PortalOrStatement.portal.byte then s.describePortal eng name
      else s.reject eng
  | .content (.close type name) =>
      if type = PortalOrStatement.statement.byte then s.closeStatement name
      else if type = PortalOrStatement.portal.byte then s.closePortal name
      else s.reject eng
  | .content (.execute name rows) => s.execute eng name rows
  | .content _ => s.reject eng
  | .flush => s
  | .sync => s.sync eng

/-- One command after the other. -/
def serveAll (s : ServerSession) (commands : List Command) : ServerSession :=
  commands.foldl (serve eng) s

theorem serveAll_append (s : ServerSession) (cs cs' : List Command) :
    serveAll eng s (cs ++ cs') = serveAll eng (serveAll eng s cs) cs' := List.foldl_append

end

/-! ## 5. What the operations leave -/

/-- Where something has been taken away, what is left was there. -/
theorem of_update_none {α : Type} {entries : Bytes → Option α} {name' name : Bytes} {a : α}
    (h : update entries name' none name = some a) : entries name = some a := by
  by_cases hname : name = name'
  · subst hname
    rw [Function.update_self] at h
    cases h
  · rwa [Function.update_of_ne hname] at h

/-- Where something has been put, the rest was there. -/
theorem of_update_some {α : Type} {entries : Bytes → Option α} {name' name : Bytes} {a a' : α}
    (h : update entries name' (some a') name = some a) :
    entries name = some a ∨ (name = name' ∧ a = a') := by
  by_cases hname : name = name'
  · subst hname
    rw [Function.update_self] at h
    exact .inr ⟨rfl, (Option.some.inj h).symm⟩
  · rw [Function.update_of_ne hname] at h
    exact .inl h

namespace ServerSession

variable {eng : Engine} {s : ServerSession}

/-- Behind a Parse that has not failed there is the statement. -/
theorem prepare_statements (name : Bytes) (statement : Prepared)
    (h : (s.prepare eng name statement).skipping = false) :
    (s.prepare eng name statement).statements name = some statement := by
  unfold prepare at h ⊢
  split at h
  · rename_i hskip
    rw [hskip] at h
    cases h
  · split at h
    · cases h
    · rename_i hskip htaken
      rw [if_neg hskip, if_neg htaken]
      simp only at h ⊢
      split at h
      · cases h
      · rename_i hfails
        rw [if_neg hfails]
        exact Function.update_self ..

variable (eng) in
/-- The portal of a Bind can be described. -/
theorem describePortal_bind (s : ServerSession) (portal statement : Bytes)
    (make : Prepared → Option Portal) :
    (s.bind eng portal statement make).describePortal eng portal =
      s.bind eng portal statement make := by
  refine if_pos ?_
  unfold bind
  split
  · rename_i hskip
    exact .inl hskip
  · split
    · exact .inl rfl
    · split
      · exact .inl rfl
      · split
        · exact .inl rfl
        · exact .inr (by simp)

/-! Only Parse makes a statement. -/

theorem bind_statements (portal statement : Bytes) (make : Prepared → Option Portal) :
    (s.bind eng portal statement make).statements = s.statements := by
  unfold bind
  split
  · rfl
  · split
    · rfl
    · split
      · rfl
      · split <;> rfl

theorem execute_statements (portal : Bytes) (rows : Int) :
    (s.execute eng portal rows).statements = s.statements := by
  unfold execute
  split
  · rfl
  · split
    · rfl
    · simp only
      split <;> rfl

variable (eng) in
theorem describeStatement_statements (name : Bytes) :
    (s.describeStatement eng name).statements = s.statements := by
  unfold describeStatement
  split <;> rfl

variable (eng) in
theorem describePortal_statements (name : Bytes) :
    (s.describePortal eng name).statements = s.statements := by
  unfold describePortal
  split <;> rfl

theorem closePortal_statements (name : Bytes) : (s.closePortal name).statements = s.statements := by
  unfold closePortal
  split <;> rfl

theorem of_simple_statements {query name : Bytes} {prepared : Prepared}
    (h : (s.simple eng query).statements name = some prepared) :
    s.statements name = some prepared := by
  unfold simple at h
  split at h
  · exact h
  · exact of_update_none h

theorem of_closeStatement_statements {closed name : Bytes} {prepared : Prepared}
    (h : (s.closeStatement closed).statements name = some prepared) :
    s.statements name = some prepared := by
  unfold closeStatement at h
  split at h
  · exact h
  · exact of_update_none h

theorem of_prepare_statements {name' name : Bytes} {statement prepared : Prepared}
    (h : (s.prepare eng name' statement).statements name = some prepared) :
    s.statements name = some prepared ∨ (name = name' ∧ prepared = statement) := by
  unfold prepare at h
  split at h
  · exact .inl h
  · split at h
    · exact .inl h
    · simp only at h
      split at h
      · exact .inl (of_update_none h)
      · exact (of_update_some h).imp_left of_update_none

/-- What a Bind does depends on the portal of the statement only. -/
theorem bind_congr {portal statement : Bytes} {make make' : Prepared → Option Portal}
    (h : s.skipping = false → ∀ st, s.statements statement = some st → make st = make' st) :
    s.bind eng portal statement make = s.bind eng portal statement make' := by
  unfold bind
  cases hskip : s.skipping with
  | true => rfl
  | false =>
    cases hst : s.statements statement with
    | none => rfl
    | some st => simp only [h hskip st hst]

end ServerSession

end NativePg
