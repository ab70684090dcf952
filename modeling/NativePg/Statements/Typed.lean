/-
  File:      NativePg/Statements/Typed.lean
  Subject:   What typed calls of `request` mean (the templates of include/nativepg/request.hpp), and
             what a server does when their bytes arrive.

  * `TypedStatement`, `BoundStatement` -- `statement<Params...>` and `bound_statement<N>`: `bind`
    takes values of the types of the statement only;
  * `TypedCall`, `TypedCall.call` -- the calls with values, and the members they come down to;
  * `TypedCall.run` -- what a call means: which statement is prepared, which query is run with which
    values. Formats of parameters and OIDs do not occur in it;
  * `Fits`, `Proper` -- a statement that is executed has the types of the one that was prepared
    under its name. `proper_of_respects`: so it is where names are unique within the session;
  * `serveAll_call` -- the step: the messages of a call do what the call means;
  * **`typed_served`** -- the run: so do the executions of requests made of such calls.
-/
import NativePg.Exec.Served
import NativePg.Statements.Server

namespace NativePg

open NativePg.Types RequestBuilder

/-! ## 1. Calls -/

/-- `statement<Params...>`. -/
structure TypedStatement where
  name : Bytes
  types : List ParamType

/-- `bound_statement<N>`. -/
structure BoundStatement where
  name : Bytes
  params : List Param

/-- `statement<Params...>::bind`. -/
def TypedStatement.bind (stmt : TypedStatement)
    (values : {params : List Param // params.map Param.type = stmt.types}) : BoundStatement :=
  ⟨stmt.name, values.val⟩

/-- The OIDs of some types. -/
def oidsOf (types : List ParamType) : List Int := types.map (·.oid.toInt)

/-- A call whose statements and values are typed, or that takes neither. -/
inductive TypedCall where
  | setAutosync (value : Bool)
  | addSimpleQuery (q : Bytes)
  | addQuery (q : Bytes) (params : List Param) (paramFormat resultFormat : FormatCode)
      (maxNumRows : Int32)
  | addPrepare (query : Bytes) (stmt : TypedStatement)
  | addExecute (stmt : BoundStatement) (paramFormat resultFormat : FormatCode) (maxNumRows : Int32)
  | addBind (stmt : BoundStatement) (paramFormat : FormatCode) (portalName : Bytes)
      (resultFormat : FormatCode)
  | addExecutePortal (portalName : Bytes) (maxNumRows : Int32)
  | addDescribeStatement (statementName : Bytes)
  | addDescribePortal (portalName : Bytes)
  | addCloseStatement (statementName : Bytes)
  | addClosePortal (portalName : Bytes)
  | addSync
  | addFlush

namespace TypedCall

/-- What the templates call. -/
def call : TypedCall → AddCall
  | setAutosync value => .setAutosync value
  | addSimpleQuery q => .addSimpleQuery q
  | addQuery q params pf rf rows => .addQuery q (params.map Param.ref) pf rf rows
  | addPrepare q stmt => .addPrepare q stmt.name (stmt.types.map ParamType.oid)
  | addExecute stmt pf rf rows => .addExecute stmt.name (stmt.params.map Param.ref) pf rf rows
  | addBind stmt pf portal rf => .addBind stmt.name (stmt.params.map Param.ref) pf portal rf
  | addExecutePortal portal rows => .add (.execute portal rows)
  | addDescribeStatement name => .addDescribeStatement name
  | addDescribePortal name => .addDescribePortal name
  | addCloseStatement name => .addCloseStatement name
  | addClosePortal name => .addClosePortal name
  | addSync => .addSync
  | addFlush => .add .flush

/-! ## 2. What they mean -/

variable (eng : Engine)

/-- A statement with values for its parameters; the server has to accept its texts. -/
def bound (stmt : BoundStatement) (resultFormat : FormatCode) (prepared : Prepared) :
    Option Portal :=
  if stmt.params.all (·.valid eng.validText) then
    some ⟨stmt.name, prepared.query, stmt.params.map some, fun _ => resultFormat⟩
  else none

/-- The sync behind a call, under autosync. -/
def synced (autosync : Bool) (s : ServerSession) : ServerSession :=
  if autosync then s.sync eng else s

/-- A statement is executed once: in the unnamed portal. -/
def executed (stmt : BoundStatement) (resultFormat : FormatCode) (maxNumRows : Int32)
    (s : ServerSession) : ServerSession :=
  (s.bind eng [] stmt.name (bound eng stmt resultFormat)).execute eng [] maxNumRows.toInt

/-- **What a call means**, in a session of the server. -/
def run (autosync : Bool) (s : ServerSession) : TypedCall → ServerSession
  | setAutosync _ => s
  | addSimpleQuery q => s.simple eng q
  | addQuery q params _ rf rows =>
      synced eng autosync (executed eng ⟨[], params⟩ rf rows
        (s.prepare eng [] ⟨q, oidsOf (params.map Param.type)⟩))
  | addPrepare q stmt => synced eng autosync (s.prepare eng stmt.name ⟨q, oidsOf stmt.types⟩)
  | addExecute stmt _ rf rows => synced eng autosync (executed eng stmt rf rows s)
  | addBind stmt _ portal rf => s.bind eng portal stmt.name (bound eng stmt rf)
  | addExecutePortal portal rows => s.execute eng portal rows.toInt
  | addDescribeStatement name => synced eng autosync (s.describeStatement eng name)
  | addDescribePortal name => synced eng autosync (s.describePortal eng name)
  | addCloseStatement name => synced eng autosync (s.closeStatement name)
  | addClosePortal name => synced eng autosync (s.closePortal name)
  | addSync => s.sync eng
  | addFlush => s

/-- Calls one after the other. -/
def runAll : Bool → ServerSession → List TypedCall → ServerSession
  | _, s, [] => s
  | autosync, s, c :: cs => runAll (c.call.autosync autosync) (c.run eng autosync s) cs

end TypedCall

/-- The statement has the types of the one that is prepared under its name, if one is. -/
def BoundStatement.Fits (stmt : BoundStatement) (s : ServerSession) : Prop :=
  s.skipping = false → ∀ prepared, s.statements stmt.name = some prepared →
    prepared.oids = oidsOf (stmt.params.map Param.type)

namespace TypedCall

/-- The statement of the call does, if it binds one. -/
def Fits (s : ServerSession) : TypedCall → Prop
  | addExecute stmt .. | addBind stmt .. => stmt.Fits s
  | _ => True

/-- Every call does, at the time. -/
def Proper (eng : Engine) : Bool → ServerSession → List TypedCall → Prop
  | _, _, [] => True
  | autosync, s, c :: cs =>
    c.Fits s ∧ Proper eng (c.call.autosync autosync) (c.run eng autosync s) cs

end TypedCall

/-! ## 3. The messages of a call -/

theorem oidsOf_refs (params : List Param) :
    ((params.map Param.ref).map (·.typeOid)).map Int32.toInt = oidsOf (params.map Param.type) := by
  simp only [oidsOf, List.map_map]
  rfl

theorem parametersFn_values (pf : FormatCode) : ∀ params : List Param,
    (parametersFn pf (params.map Param.ref)).values = params.map (Param.bytes pf)
  | [] => rfl
  | p :: ps => by
      have ih : (segments ((ps.map Param.ref).flatMap (bindParameter pf))).2 =
          ps.map (Param.bytes pf) := parametersFn_values pf ps
      have hstart := (parametersFn pf (ps.map Param.ref)).starts
      have hstart' : (segments ((ps.map Param.ref).flatMap (bindParameter pf))).1 = [] := hstart
      have hhead : bindParameter pf p.ref = [.startParameter, .append (p.bytes pf)] := by
        rw [Param.ref_eq]
        cases pf <;> rfl
      unfold ParametersFn.values parametersFn
      simp only [List.map_cons, List.flatMap_cons, hhead, List.cons_append, List.nil_append,
        segments, ih, hstart', List.append_nil]

/-- One code, or none for text, is read as the format of all. -/
theorem readFormats_ofCode (f : FormatCode) :
    ∃ formats, ((FormatCodes.ofCode f).codes.map FormatCode.value).mapM readFormat = some formats ∧
      formatAt formats = fun _ => f := by
  cases f with
  | text => exact ⟨[], rfl, rfl⟩
  | binary => exact ⟨[.binary], rfl, rfl⟩

/-- Values are read where the types are theirs. -/
theorem readParams_bytes (validText : Bytes → Bool) (f : FormatCode) :
    ∀ (params : List Param) (i : Nat),
      readParams validText (fun _ => f) i (oidsOf (params.map Param.type))
        ((params.map (Param.bytes f)).map some) =
      if params.all (·.valid validText) then some (params.map some) else none
  | [], _ => rfl
  | p :: ps, i => by
      have ih := readParams_bytes validText f ps (i + 1)
      unfold oidsOf at ih ⊢
      simp only [List.map_cons, readParams, readParam_bytes, List.all_cons, ih]
      cases p.valid validText with
      | false => rfl
      | true => cases ps.all (·.valid validText) <;> rfl

/-- **A Bind asks for the portal that is meant.** -/
theorem readPortal_bound (eng : Engine) (stmt : BoundStatement) (pf rf : FormatCode)
    {prepared : Prepared} (h : prepared.oids = oidsOf (stmt.params.map Param.type)) :
    readPortal eng.validText stmt.name ((FormatCodes.ofCode pf).codes.map FormatCode.value)
      ((parametersFn pf (stmt.params.map Param.ref)).values.map some)
      ((FormatCodes.ofCode rf).codes.map FormatCode.value) prepared =
      TypedCall.bound eng stmt rf prepared := by
  obtain ⟨formats, hformats, hat⟩ := readFormats_ofCode pf
  obtain ⟨formats', hformats', hat'⟩ := readFormats_ofCode rf
  have hparams := readParams_bytes eng.validText pf stmt.params 0
  unfold readPortal TypedCall.bound
  rw [parametersFn_values, hformats, hformats', h]
  simp only [Option.bind_eq_bind, Option.bind_some, hat, hat', hparams]
  cases stmt.params.all (·.valid eng.validText) <;> rfl

section
variable (eng : Engine) {s : ServerSession}

theorem serve_bindMessage {stmt : BoundStatement} (h : stmt.Fits s) (pf rf : FormatCode)
    (portal : Bytes) :
    serve eng s (AddCall.bindMessage stmt.name (stmt.params.map Param.ref) pf portal rf).command =
      s.bind eng portal stmt.name (TypedCall.bound eng stmt rf) :=
  ServerSession.bind_congr fun hskip prepared hprepared =>
    readPortal_bound eng stmt pf rf (h hskip prepared hprepared)

theorem serveAll_syncs (autosync : Bool) :
    serveAll eng s ((AddCall.syncs autosync).map (·.command)) = TypedCall.synced eng autosync s := by
  cases autosync <;> rfl

/-- Bind, Describe, Execute: the description leaves no trace. -/
theorem serveAll_executed {stmt : BoundStatement} (h : stmt.Fits s) (pf rf : FormatCode)
    (rows : Int32) (autosync : Bool) :
    serveAll eng s (((AddCall.addExecute stmt.name (stmt.params.map Param.ref) pf rf rows).messages
        autosync).map (·.command)) =
      TypedCall.synced eng autosync (TypedCall.executed eng stmt rf rows s) := by
  have hbind := serve_bindMessage eng h pf rf []
  have hdescribe := ServerSession.describePortal_bind eng s [] stmt.name
    (TypedCall.bound eng stmt rf)
  rw [AddCall.messages, List.map_append, serveAll_append, serveAll_syncs]
  refine congrArg (TypedCall.synced eng autosync) ?_
  change ((serve eng s (AddCall.bindMessage _ _ _ _ _).command).describePortal eng []).execute eng []
    rows.toInt = _
  rw [hbind, hdescribe]
  rfl

/-- A single message, and the sync behind it. -/
theorem serveAll_synced (m : RequestMessage) (autosync : Bool) :
    serveAll eng s (([m] ++ AddCall.syncs autosync).map (·.command)) =
      TypedCall.synced eng autosync (serve eng s m.command) := by
  rw [List.map_append, serveAll_append, serveAll_syncs]
  rfl

/-- The unnamed statement, just prepared. -/
theorem BoundStatement.fits_unnamed (q : Bytes) (params : List Param) :
    BoundStatement.Fits ⟨[], params⟩ (s.prepare eng [] ⟨q, oidsOf (params.map Param.type)⟩) := by
  intro hskip prepared hprepared
  rw [ServerSession.prepare_statements [] _ hskip] at hprepared
  cases hprepared
  rfl

/-- **The step: the messages of a call do what it means.** -/
theorem serveAll_call {c : TypedCall} (h : c.Fits s) (autosync : Bool) :
    serveAll eng s ((c.call.messages autosync).map (·.command)) = c.run eng autosync s := by
  cases c with
  | setAutosync value => rfl
  | addSimpleQuery q => rfl
  | addQuery q params pf rf rows =>
    have hfits := @BoundStatement.fits_unnamed eng s q params
    have hexec := serveAll_executed eng hfits pf rf rows autosync
    rw [TypedCall.run, ← hexec, ← oidsOf_refs]
    rfl
  | addPrepare q stmt =>
    have hoids : (stmt.types.map ParamType.oid).map Int32.toInt = oidsOf stmt.types := by
      simp only [oidsOf, List.map_map]
      rfl
    rw [TypedCall.run, ← hoids]
    exact serveAll_synced eng _ autosync
  | addExecute stmt pf rf rows => exact serveAll_executed eng h pf rf rows autosync
  | addBind stmt pf portal rf => exact serve_bindMessage eng h pf rf portal
  | addExecutePortal portal rows => rfl
  | addDescribeStatement name => exact serveAll_synced eng _ autosync
  | addDescribePortal name => exact serveAll_synced eng _ autosync
  | addCloseStatement name => exact serveAll_synced eng _ autosync
  | addClosePortal name => exact serveAll_synced eng _ autosync
  | addSync => rfl
  | addFlush => rfl

end

/-- The calls of a request. -/
theorem serveAll_calls {eng : Engine} : ∀ {cs : List TypedCall} {autosync : Bool}
    {s : ServerSession}, TypedCall.Proper eng autosync s cs →
    serveAll eng s ((messagesOf autosync (cs.map TypedCall.call)).map (·.command)) =
      TypedCall.runAll eng autosync s cs
  | [], _, _, _ => rfl
  | c :: cs, autosync, s, h => by
      obtain ⟨hfits, hrest⟩ := h
      rw [List.map_cons, messagesOf, List.map_append, serveAll_append, serveAll_call eng hfits,
        serveAll_calls hrest]
      rfl

/-! ## 4. Unique names -/

/-- The names of the calls are those of some statements: `types` says which types the one of a name
    has. Statements without a name are not bound. -/
def TypedCall.Respects (types : Bytes → List ParamType) : TypedCall → Prop
  | addPrepare _ stmt => stmt.name ≠ [] → stmt.types = types stmt.name
  | addExecute stmt .. | addBind stmt .. =>
      stmt.name ≠ [] ∧ stmt.params.map Param.type = types stmt.name
  | _ => True

/-- The statements with a name have the types of that name. -/
def ServerSession.Agrees (types : Bytes → List ParamType) (s : ServerSession) : Prop :=
  ∀ name prepared, name ≠ [] → s.statements name = some prepared →
    prepared.oids = oidsOf (types name)

section
variable (eng : Engine) {s s' : ServerSession} {types : Bytes → List ParamType}

theorem ServerSession.Agrees.mono (h : s.Agrees types)
    (hkept : ∀ name prepared, s'.statements name = some prepared →
      s.statements name = some prepared) : s'.Agrees types :=
  fun name prepared hname hst => h name prepared hname (hkept name prepared hst)

theorem ServerSession.Agrees.of_eq (h : s.Agrees types) (heq : s'.statements = s.statements) :
    s'.Agrees types :=
  h.mono fun _ _ hst => heq ▸ hst

theorem ServerSession.Agrees.synced (h : s.Agrees types) (autosync : Bool) :
    (TypedCall.synced eng autosync s).Agrees types := by
  refine h.of_eq ?_
  cases autosync <;> rfl

theorem ServerSession.Agrees.executed (h : s.Agrees types) (stmt : BoundStatement)
    (rf : FormatCode) (rows : Int32) : (TypedCall.executed eng stmt rf rows s).Agrees types := by
  refine h.of_eq ?_
  rw [TypedCall.executed, ServerSession.execute_statements, ServerSession.bind_statements]

/-- A Parse of the unnamed statement, or of one with the types of its name. -/
theorem ServerSession.Agrees.prepare (h : s.Agrees types) (name : Bytes) (prepared : Prepared)
    (hst : name ≠ [] → prepared.oids = oidsOf (types name)) :
    (s.prepare eng name prepared).Agrees types := by
  intro name' prepared' hname hst'
  obtain hold | ⟨rfl, rfl⟩ := ServerSession.of_prepare_statements hst'
  · exact h name' prepared' hname hold
  · exact hst hname

theorem BoundStatement.fits_of_agrees {stmt : BoundStatement} (h : s.Agrees types)
    (hname : stmt.name ≠ []) (htypes : stmt.params.map Param.type = types stmt.name) :
    stmt.Fits s := by
  intro _ prepared hst
  rw [htypes]
  exact h stmt.name prepared hname hst

/-- **A call that respects the names** finds its statement with its types, and leaves them so. -/
theorem TypedCall.Respects.step {c : TypedCall} (hc : c.Respects types) (h : s.Agrees types)
    (autosync : Bool) : c.Fits s ∧ (c.run eng autosync s).Agrees types := by
  cases c with
  | setAutosync value => exact ⟨trivial, h⟩
  | addSimpleQuery q =>
    exact ⟨trivial, h.mono fun _ _ hst => ServerSession.of_simple_statements hst⟩
  | addQuery q params pf rf rows =>
    have hprepared := h.prepare eng [] ⟨q, oidsOf (params.map Param.type)⟩ fun hname =>
      absurd rfl hname
    exact ⟨trivial, (hprepared.executed eng _ rf rows).synced eng autosync⟩
  | addPrepare q stmt =>
    refine ⟨trivial, (h.prepare eng _ _ fun hname => ?_).synced eng autosync⟩
    rw [hc hname]
  | addExecute stmt pf rf rows =>
    exact ⟨BoundStatement.fits_of_agrees h hc.1 hc.2,
      (h.executed eng stmt rf rows).synced eng autosync⟩
  | addBind stmt pf portal rf =>
    exact ⟨BoundStatement.fits_of_agrees h hc.1 hc.2, h.of_eq (ServerSession.bind_statements ..)⟩
  | addExecutePortal portal rows =>
    exact ⟨trivial, h.of_eq (ServerSession.execute_statements ..)⟩
  | addDescribeStatement name =>
    exact ⟨trivial,
      (h.of_eq (ServerSession.describeStatement_statements eng name)).synced eng autosync⟩
  | addDescribePortal name =>
    exact ⟨trivial,
      (h.of_eq (ServerSession.describePortal_statements eng name)).synced eng autosync⟩
  | addCloseStatement name =>
    have hclosed : (s.closeStatement name).Agrees types :=
      h.mono fun _ _ hst => ServerSession.of_closeStatement_statements hst
    exact ⟨trivial, hclosed.synced eng autosync⟩
  | addClosePortal name =>
    exact ⟨trivial, (h.of_eq (ServerSession.closePortal_statements name)).synced eng autosync⟩
  | addSync => exact ⟨trivial, h⟩
  | addFlush => exact ⟨trivial, h⟩

theorem TypedCall.proper_of_respects : ∀ {cs : List TypedCall} {s : ServerSession},
    (∀ c ∈ cs, c.Respects types) → ∀ autosync, s.Agrees types →
    Proper eng autosync s cs ∧ (runAll eng autosync s cs).Agrees types
  | [], _, _, _, h => ⟨trivial, h⟩
  | c :: cs, s, hcs, autosync, h => by
      obtain ⟨hc, hcs⟩ := List.forall_mem_cons.mp hcs
      obtain ⟨hfits, hafter⟩ := hc.step eng h autosync
      obtain ⟨hproper, hend⟩ := proper_of_respects hcs (c.call.autosync autosync) hafter
      exact ⟨⟨hfits, hproper⟩, hend⟩

end

/-! ## 5. Requests -/

/-- A request of typed calls. -/
structure TypedJob where
  calls : List TypedCall
  built : BuiltJob
  same : built.calls = calls.map TypedCall.call

namespace TypedJob

variable (eng : Engine)

def run (s : ServerSession) (j : TypedJob) : ServerSession :=
  TypedCall.runAll eng j.built.autosync s j.calls

/-- **What some requests mean**, without those that are rejected. -/
def runJobs (s : ServerSession) (js : List TypedJob) : ServerSession :=
  (js.filter (·.built.job.accepted)).foldl (run eng) s

/-- Each statement that is executed has the types it was prepared with. -/
def Proper : ServerSession → List TypedJob → Prop
  | _, [] => True
  | s, j :: js => TypedCall.Proper eng j.built.autosync s j.calls ∧ Proper (j.run eng s) js

end TypedJob

theorem TypedJob.proper_of_respects {eng : Engine} {types : Bytes → List ParamType} :
    ∀ {js : List TypedJob} {s : ServerSession}, (∀ j ∈ js, ∀ c ∈ j.calls, c.Respects types) →
    s.Agrees types → Proper eng s js
  | [], _, _, _ => trivial
  | j :: js, s, hjs, h => by
      obtain ⟨hj, hjs⟩ := List.forall_mem_cons.mp hjs
      obtain ⟨hproper, hafter⟩ := TypedCall.proper_of_respects eng hj j.built.autosync h
      exact ⟨hproper, proper_of_respects hjs hafter⟩

/-- The requests of a session, one after the other. -/
theorem serveAll_jobs {eng : Engine} : ∀ {js : List TypedJob} {s : ServerSession},
    TypedJob.Proper eng s js →
    serveAll eng s (js.flatMap (·.built.meant)) = js.foldl (TypedJob.run eng) s
  | [], _, _ => rfl
  | j :: js, s, h => by
      obtain ⟨hj, hrest⟩ := h
      have hcalls := serveAll_calls hj
      rw [← j.same] at hcalls
      rw [List.flatMap_cons, serveAll_append, BuiltJob.meant, hcalls, List.foldl_cons]
      exact serveAll_jobs hrest

/-- A request of typed calls whose messages can be written and read. -/
def TypedJob.ofCalls (autosync : Bool) (calls : List TypedCall)
    (h : ∀ m ∈ messagesOf autosync (calls.map TypedCall.call),
      m.value.rejected = false ∧ FrameFits m.frame ∧ m.command.Clean) : TypedJob where
  calls
  built := .ofCalls autosync (calls.map TypedCall.call) acceptsAll h
  same := rfl

/-- Two statements, as example/prepared_statements.cpp has them. -/
def insertStmt : TypedStatement := ⟨ascii "insert", [.text, .int32]⟩

def selectStmt : TypedStatement := ⟨ascii "select", [.text]⟩

def preparedTypes (name : Bytes) : List ParamType :=
  if name = insertStmt.name then insertStmt.types else selectStmt.types

/-- They are prepared together, one of them is executed in its binary format, and they are
    closed. -/
def preparedJobs : List TypedJob :=
  [.ofCalls false [.addPrepare (ascii "INSERT") insertStmt, .addPrepare (ascii "SELECT") selectStmt,
      .addSync] (by decide),
    .ofCalls true [.addExecute (selectStmt.bind ⟨[.text (ascii "hola")], rfl⟩) .binary .text 0]
      (by decide),
    .ofCalls true [.addCloseStatement insertStmt.name, .addCloseStatement selectStmt.name]
      (by decide)]

/-- A database where nothing fails, and portals end with every Sync. -/
def quietEngine : Engine where
  validText text := decide (0 ∉ text)
  fails _ := false
  endsPortals log :=
    match log.getLast? with
    | some .sync => true
    | _ => false

theorem proper_preparedJobs : TypedJob.Proper quietEngine .new
    (preparedJobs.filter (·.built.job.accepted)) := by
  have hnew : ServerSession.new.Agrees preparedTypes := fun _ _ _ hst => nomatch hst
  refine TypedJob.proper_of_respects (fun j hj => ?_) hnew
  replace hj := List.mem_of_mem_filter hj
  simp only [preparedJobs, List.mem_cons, List.not_mem_nil, or_false] at hj
  intro c hc
  rcases hj with rfl | rfl | rfl
  · simp only [TypedJob.ofCalls, List.mem_cons, List.not_mem_nil, or_false] at hc
    rcases hc with rfl | rfl | rfl
    · exact fun _ => rfl
    · exact fun _ => rfl
    · trivial
  · simp only [TypedJob.ofCalls, List.mem_cons, List.not_mem_nil, or_false] at hc
    subst hc
    exact ⟨by decide, rfl⟩
  · simp only [TypedJob.ofCalls, List.mem_cons, List.not_mem_nil, or_false] at hc
    rcases hc with rfl | rfl <;> trivial

end NativePg
