/-
  File:      NativePg/RequestBuilder.lean
  Subject:   How a request is built: the `add*` members of `request` (include/nativepg/request.hpp,
             src/request.cpp).

  * `RequestBuilder`, `addAdvancedImpl`, `addQuery`, ... -- the members under their names. A member
    returns the code it throws and what it leaves in the request;
  * `AddCall`, `build` -- a sequence of calls. `build_adds`: unless one throws, it adds the
    messages `messagesOf` lists;
  * `splitFrames` -- the payload cut into frames by its type bytes and lengths;
  * **`build_frames`** -- the payload is the frames of `messages()`, no call alters what is there,
    and a request of high-level calls under autosync passes `check_request`.
-/
import Mathlib.Data.List.Basic
import NativePg.Lib.Decode
import NativePg.Protocol.Serialize
import NativePg.Request

namespace NativePg

/-! ## 1. The members of `request` -/

/-- `parameter_ref`: the code `serialize_text` and `serialize_binary` return for the value, and the
    bytes they append. -/
structure ParameterRef where
  typeOid : Int32
  serializeText : ErrorCode × Bytes
  serializeBinary : ErrorCode × Bytes
  deriving DecidableEq

/-- What an overload of `request::add` takes. -/
inductive RequestMessage where
  | bind (value : Bind)
  | close (type : PortalOrStatement) (name : Bytes)
  | describe (type : PortalOrStatement) (name : Bytes)
  | execute (portalName : Bytes) (maxNumRows : Int32)
  | flush
  | parse (statementName query : Bytes) (parameterTypeOids : List Int32)
  | query (query : Bytes)
  | sync

namespace RequestMessage

/-- The message that is serialized. -/
def value : RequestMessage → FrontendMessage
  | .bind value => .bind value
  | .close type name => .close type name
  | .describe type name => .describe type name
  | .execute portalName maxNumRows => .execute portalName maxNumRows
  | .flush => .flush
  | .parse statementName text oids => .parse statementName text oids
  | .query text => .query text
  | .sync => .sync

/-- The type the overload notes beside it. -/
def type : RequestMessage → RequestMessageType
  | .bind _ => .bind
  | .close .. => .close
  | .describe .. => .describe
  | .execute .. => .execute
  | .flush => .flush
  | .parse .. => .parse
  | .query _ => .query
  | .sync => .sync

end RequestMessage

/-- The protocol's type byte of a request message. -/
def RequestMessageType.byte : RequestMessageType → UInt8
  | .bind => 66
  | .close => 67
  | .describe => 68
  | .execute => 69
  | .flush => 72
  | .parse => 80
  | .query => 81
  | .sync => 83

/-- `format_codes`, from a single code. -/
def FormatCodes.ofCode : FormatCode → FormatCodes
  | .text => .allText
  | .binary => .allBinary

/-- `request`, with its flag `autosync_`. -/
structure RequestBuilder extends Request where
  autosync : Bool := true
  deriving DecidableEq, Repr

/-- What a member does: the code it throws, `success` where it returns, and the request it leaves. -/
abbrev Adding := RequestBuilder → Checked (ErrorCode × RequestBuilder)

/-- One member after the other; an exception leaves the second out. -/
def Adding.andThen (first second : Adding) : Adding := fun req => do
  let (ec, req) ← first req
  if ec.failed then pure (ec, req) else second req

namespace RequestBuilder

/-- `add_advanced_impl`. -/
def addAdvancedImpl (value : FrontendMessage) (type : RequestMessageType) : Adding := fun req => do
  let (ec, buffer) ← value.serialize req.payload
  let req := { req with payload := buffer }
  if ec.failed then pure (ec, req)
  else pure (.success, { req with messages := req.messages ++ [type] })

/-- `add`, all overloads. -/
def add (m : RequestMessage) : Adding := addAdvancedImpl m.value m.type

/-- `maybe_add_sync`. -/
def maybeAddSync : Adding := fun req =>
  if req.autosync then add .sync req else pure (.success, req)

/-- `set_autosync`. -/
def setAutosync (value : Bool) : Adding := fun req => pure (.success, { req with autosync := value })

/-- `add_simple_query`. -/
def addSimpleQuery (q : Bytes) : Adding := add (.query q)

/-- The loop body of the callback in `add_bind`. -/
def bindParameter (paramFormat : FormatCode) (param : ParameterRef) : List BindAction :=
  let (ec, bytes) :=
    if paramFormat = .binary then param.serializeBinary else param.serializeText
  .startParameter :: .append bytes :: if ec.failed then [.addError ec] else []

/-- The callback in `add_bind`. -/
def parametersFn (paramFormat : FormatCode) (params : List ParameterRef) : ParametersFn where
  actions := params.flatMap (bindParameter paramFormat)
  starts := by
    cases params with
    | nil => rfl
    | cons p ps => rfl

/-- `add_bind`. -/
def addBind (statementName : Bytes) (params : List ParameterRef) (paramFormat : FormatCode)
    (portalName : Bytes) (resultFormat : FormatCode) : Adding :=
  add (.bind {
    portalName
    statementName
    parameterFmtCodes := .ofCode paramFormat
    parametersFn := parametersFn paramFormat params
    resultFmtCodes := .ofCode resultFormat })

/-- `add_execute`. -/
def addExecute (statementName : Bytes) (params : List ParameterRef)
    (paramFormat resultFormat : FormatCode) (maxNumRows : Int32) : Adding :=
  (addBind statementName params paramFormat [] resultFormat).andThen <|
    (add (.describe .portal [])).andThen <|
      (add (.execute [] maxNumRows)).andThen maybeAddSync

/-- `add_query`. -/
def addQuery (q : Bytes) (params : List ParameterRef) (paramFormat resultFormat : FormatCode)
    (maxNumRows : Int32) : Adding :=
  (add (.parse [] q (params.map (·.typeOid)))).andThen
    (addExecute [] params paramFormat resultFormat maxNumRows)

/-- `add_prepare`. -/
def addPrepare (query statementName : Bytes) (parameterTypeOids : List Int32) : Adding :=
  (add (.parse statementName query parameterTypeOids)).andThen maybeAddSync

/-- `add_describe_statement`. -/
def addDescribeStatement (statementName : Bytes) : Adding :=
  (add (.describe .statement statementName)).andThen maybeAddSync

/-- `add_describe_portal`. -/
def addDescribePortal (portalName : Bytes) : Adding :=
  (add (.describe .portal portalName)).andThen maybeAddSync

/-- `add_close_statement`. -/
def addCloseStatement (statementName : Bytes) : Adding :=
  (add (.close .statement statementName)).andThen maybeAddSync

/-- `add_close_portal`. -/
def addClosePortal (portalName : Bytes) : Adding :=
  (add (.close .portal portalName)).andThen maybeAddSync

/-- `add_sync`. -/
def addSync : Adding := add .sync

end RequestBuilder

/-! ## 2. Sequences of calls -/

/-- A call of a member that changes the request. The overloads for typed statements call these with
    the statement's name, values and OIDs. -/
inductive AddCall where
  | setAutosync (value : Bool)
  | addSimpleQuery (q : Bytes)
  | addQuery (q : Bytes) (params : List ParameterRef) (paramFormat resultFormat : FormatCode)
      (maxNumRows : Int32)
  | addPrepare (query statementName : Bytes) (parameterTypeOids : List Int32)
  | addExecute (statementName : Bytes) (params : List ParameterRef)
      (paramFormat resultFormat : FormatCode) (maxNumRows : Int32)
  | addDescribeStatement (statementName : Bytes)
  | addDescribePortal (portalName : Bytes)
  | addCloseStatement (statementName : Bytes)
  | addClosePortal (portalName : Bytes)
  | addBind (statementName : Bytes) (params : List ParameterRef) (paramFormat : FormatCode)
      (portalName : Bytes) (resultFormat : FormatCode)
  | addSync
  | add (m : RequestMessage)

namespace AddCall

open RequestBuilder

/-- The call. -/
def perform : AddCall → Adding
  | .setAutosync value => RequestBuilder.setAutosync value
  | .addSimpleQuery q => RequestBuilder.addSimpleQuery q
  | .addQuery q params pf rf rows => RequestBuilder.addQuery q params pf rf rows
  | .addPrepare q name oids => RequestBuilder.addPrepare q name oids
  | .addExecute name params pf rf rows => RequestBuilder.addExecute name params pf rf rows
  | .addDescribeStatement name => RequestBuilder.addDescribeStatement name
  | .addDescribePortal name => RequestBuilder.addDescribePortal name
  | .addCloseStatement name => RequestBuilder.addCloseStatement name
  | .addClosePortal name => RequestBuilder.addClosePortal name
  | .addBind name params pf portal rf => RequestBuilder.addBind name params pf portal rf
  | .addSync => RequestBuilder.addSync
  | .add m => RequestBuilder.add m

/-- The calls that are not part of the low-level interface. -/
def isHighLevel : AddCall → Bool
  | .setAutosync _ | .addBind .. | .addSync | .add _ => false
  | _ => true

/-- `autosync_` after the call. -/
def autosync (c : AddCall) (before : Bool) : Bool :=
  match c with
  | .setAutosync value => value
  | _ => before

/-- The sync behind a call's messages. -/
def syncs (autosync : Bool) : List RequestMessage := if autosync then [.sync] else []

/-- The bind message of `add_bind`. -/
def bindMessage (statementName : Bytes) (params : List ParameterRef) (paramFormat : FormatCode)
    (portalName : Bytes) (resultFormat : FormatCode) : RequestMessage :=
  .bind ⟨portalName, statementName, .ofCode paramFormat, parametersFn paramFormat params,
    .ofCode resultFormat⟩

/-- The messages the call adds, under the flag `autosync_`. -/
def messages (autosync : Bool) : AddCall → List RequestMessage
  | .setAutosync _ => []
  | .addSimpleQuery q => [.query q]
  | .addQuery q params pf rf rows =>
      [.parse [] q (params.map (·.typeOid)), bindMessage [] params pf [] rf, .describe .portal [],
        .execute [] rows] ++ syncs autosync
  | .addPrepare q name oids => [.parse name q oids] ++ syncs autosync
  | .addExecute name params pf rf rows =>
      [bindMessage name params pf [] rf, .describe .portal [], .execute [] rows] ++ syncs autosync
  | .addDescribeStatement name => [.describe .statement name] ++ syncs autosync
  | .addDescribePortal name => [.describe .portal name] ++ syncs autosync
  | .addCloseStatement name => [.close .statement name] ++ syncs autosync
  | .addClosePortal name => [.close .portal name] ++ syncs autosync
  | .addBind name params pf portal rf => [bindMessage name params pf portal rf]
  | .addSync => [.sync]
  | .add m => [m]

end AddCall

/-- The calls one after the other, until one throws. -/
def build : List AddCall → Adding
  | [] => fun req => pure (.success, req)
  | c :: cs => c.perform.andThen (build cs)

/-- The messages a sequence of calls adds, from the flag `autosync_` on. -/
def messagesOf : Bool → List AddCall → List RequestMessage
  | _, [] => []
  | autosync, c :: cs => c.messages autosync ++ messagesOf (c.autosync autosync) cs

/-! ## 3. What calls add -/

namespace RequestBuilder

/-- The request with the messages behind those it has. -/
def appended (req : RequestBuilder) (ms : List RequestMessage) (autosync : Bool) :
    RequestBuilder where
  payload := req.payload ++ ms.flatMap (·.value.emitted)
  messages := req.messages ++ ms.map (·.type)
  autosync := autosync

theorem appended_appended (req : RequestBuilder) (ms ms' : List RequestMessage) (a a' : Bool) :
    (req.appended ms a).appended ms' a' = req.appended (ms ++ ms') a' := by
  simp [appended]

theorem appended_nil (req : RequestBuilder) : req.appended [] req.autosync = req := by
  simp [appended]

end RequestBuilder

open RequestBuilder

/-- What is left where `serialize` reports an error for one of the messages: those before it, and
    its header with the length zero and whatever was written behind it. -/
def Broken (req req' : RequestBuilder) (ms : List RequestMessage) : Prop :=
  ∃ done m rest added, ms = done ++ m :: rest ∧ (∀ d ∈ done, d.value.rejected = false) ∧
    m.value.rejected = true ∧
    req'.payload = req.payload ++ (done.flatMap (·.value.emitted) ++
      (m.type.byte :: ([0, 0, 0, 0] ++ added))) ∧
    req'.messages = req.messages ++ done.map (·.type)

/-- On this request the member adds the messages and leaves `autosync_` as given, or one of them
    is rejected and it throws. -/
def Adding.Performs (f : Adding) (req : RequestBuilder) (ms : List RequestMessage)
    (autosync : Bool) : Prop :=
  ∃ ec req', f req = .ok (ec, req') ∧
    ((ec.failed = false ∧ (∀ m ∈ ms, m.value.rejected = false) ∧ req' = req.appended ms autosync) ∨
      (ec.failed = true ∧ Broken req req' ms))

/-- On this request the member adds the messages and leaves `autosync_` as given, or throws. -/
def Adding.Adds (f : Adding) (req : RequestBuilder) (ms : List RequestMessage) (autosync : Bool) :
    Prop :=
  ∃ ec req', f req = .ok (ec, req') ∧ (ec.failed = false → req' = req.appended ms autosync)

theorem andThen_of_ok {f g : Adding} {req req' : RequestBuilder} {ec : ErrorCode}
    (h : f req = .ok (ec, req')) :
    f.andThen g req = if ec.failed then .ok (ec, req') else g req' := by
  simp only [Adding.andThen, h, bind, Except.bind]
  rfl

/-- Messages that are never reached. -/
theorem Broken.append {req req' : RequestBuilder} {ms : List RequestMessage}
    (h : Broken req req' ms) (ms' : List RequestMessage) : Broken req req' (ms ++ ms') := by
  obtain ⟨done, m, rest, added, rfl, hdone, hm, hpayload, hmessages⟩ := h
  exact ⟨done, m, rest ++ ms', added, by simp, hdone, hm, hpayload, hmessages⟩

/-- Messages that were added before. -/
theorem Broken.after {req req' : RequestBuilder} {ms ms' : List RequestMessage} {a : Bool}
    (hms : ∀ m ∈ ms, m.value.rejected = false) (h : Broken (req.appended ms a) req' ms') :
    Broken req req' (ms ++ ms') := by
  obtain ⟨done, m, rest, added, rfl, hdone, hm, hpayload, hmessages⟩ := h
  refine ⟨ms ++ done, m, rest, added, by simp, fun d hd => ?_, hm, ?_, ?_⟩
  · rcases List.mem_append.mp hd with hd | hd
    · exact hms d hd
    · exact hdone d hd
  · rw [hpayload]
    simp [appended]
  · rw [hmessages]
    simp [appended]

namespace Adding

variable {f g : Adding} {req : RequestBuilder} {ms ms' : List RequestMessage} {a a' : Bool}

theorem Performs.adds (h : f.Performs req ms a) : f.Adds req ms a := by
  obtain ⟨ec, req', hrun, ⟨-, -, hreq⟩ | ⟨hfailed, -⟩⟩ := h
  · exact ⟨ec, req', hrun, fun _ => hreq⟩
  · exact ⟨ec, req', hrun, fun hgood => by rw [hfailed] at hgood; cases hgood⟩

theorem Performs.andThen (h : f.Performs req ms a) (h' : g.Performs (req.appended ms a) ms' a') :
    (f.andThen g).Performs req (ms ++ ms') a' := by
  obtain ⟨ec, req', hrun, ⟨hgood, hms, rfl⟩ | ⟨hfailed, hbroken⟩⟩ := h
  · obtain ⟨ec', req'', hrun', hcases⟩ := h'
    refine ⟨ec', req'', by rw [andThen_of_ok hrun, hgood]; exact hrun', ?_⟩
    rcases hcases with ⟨hgood', hms', rfl⟩ | ⟨hfailed', hbroken'⟩
    · refine .inl ⟨hgood', fun m hm => ?_, appended_appended ..⟩
      rcases List.mem_append.mp hm with hm | hm
      · exact hms m hm
      · exact hms' m hm
    · exact .inr ⟨hfailed', hbroken'.after hms⟩
  · -- the exception of the first ends both
    exact ⟨ec, req', by rw [andThen_of_ok hrun, if_pos hfailed], .inr ⟨hfailed, hbroken.append ms'⟩⟩

theorem Adds.andThen (h : f.Adds req ms a) (h' : g.Adds (req.appended ms a) ms' a') :
    (f.andThen g).Adds req (ms ++ ms') a' := by
  obtain ⟨ec, req', hrun, hreq⟩ := h
  by_cases hec : ec.failed = true
  · refine ⟨ec, req', by rw [andThen_of_ok hrun, if_pos hec], fun hgood => ?_⟩
    rw [hec] at hgood
    cases hgood
  · obtain ⟨ec', req'', hrun', hreq'⟩ := h'
    have hgood : ec.failed = false := by simpa using hec
    refine ⟨ec', req'', ?_, fun hgood' => by rw [hreq' hgood', appended_appended]⟩
    rw [andThen_of_ok hrun, if_neg hec, hreq hgood]
    exact hrun'

end Adding

/-- A message `serialize` reports an error for leaves its header behind. -/
theorem serialize_rejected {m : RequestMessage} (h : m.value.rejected = true) (out : Bytes) :
    ∃ ec added, m.value.serialize out =
        .ok (ec, out ++ (m.type.byte :: ([0, 0, 0, 0] ++ added))) ∧ ec.failed = true := by
  cases m with
  | bind msg =>
    refine serializeTyped_bad out fun ctx => ?_
    obtain ⟨ctx', hrun, hadds⟩ := FrontendMessage.bind_fields msg ctx
    rw [show FrontendMessage.rejected (.bind msg) = true from h] at hadds
    exact ⟨ctx', _, hrun, hadds⟩
  | parse name text oids =>
    simp only [RequestMessage.value, FrontendMessage.serialize]
    rw [FrontendMessage.serializeParse_eq]
    refine serializeTyped_bad out fun ctx => ?_
    obtain ⟨ctx', hrun, hadds⟩ := FrontendMessage.parse_fields name text oids ctx
    rw [show FrontendMessage.rejected (.parse name text oids) = true from h] at hadds
    exact ⟨ctx', _, hrun, hadds⟩
  | close type name => cases h
  | describe type name => cases h
  | execute portalName maxNumRows => cases h
  | flush => cases h
  | query text => cases h
  | sync => cases h

/-- **`add` appends the message and notes its type**, or throws. -/
theorem add_performs (m : RequestMessage) (req : RequestBuilder) :
    (add m).Performs req [m] req.autosync := by
  cases hrejected : m.value.rejected with
  | true =>
    obtain ⟨ec, added, hrun, hfailed⟩ := serialize_rejected hrejected req.payload
    refine ⟨ec, { req with payload := req.payload ++ (m.type.byte :: ([0, 0, 0, 0] ++ added)) },
      ?_, .inr ⟨hfailed, [], m, [], added, rfl, by simp, hrejected, rfl, by simp⟩⟩
    simp only [add, addAdvancedImpl, hrun, bind, Except.bind, hfailed, if_true]
    rfl
  | false =>
    obtain ⟨ec, buffer, hrun, hec, hbuffer⟩ :=
      m.value.serialize_spec req.payload (by cases m <;> nofun) (by cases m <;> nofun)
    have hgood : ec.failed = false := hec.trans hrejected
    refine ⟨.success, ⟨⟨buffer, req.messages ++ [m.type]⟩, req.autosync⟩, ?_,
      .inl ⟨rfl, by simpa using hrejected, ?_⟩⟩
    · simp only [add, addAdvancedImpl, hrun, bind, Except.bind, hgood, Bool.false_eq_true, if_false]
      rfl
    · rw [hbuffer hrejected]
      simp [appended]

theorem maybeAddSync_performs (req : RequestBuilder) :
    maybeAddSync.Performs req (AddCall.syncs req.autosync) req.autosync := by
  cases hauto : req.autosync with
  | true =>
    have h := add_performs .sync req
    rw [hauto] at h
    obtain ⟨ec, req', hrun, hreq⟩ := h
    exact ⟨ec, req', by rw [maybeAddSync, if_pos hauto, hrun], hreq⟩
  | false =>
    have hnil := appended_nil req
    rw [hauto] at hnil
    refine ⟨.success, req, by simp [maybeAddSync, hauto, pure, Except.pure], .inl ⟨rfl, ?_, ?_⟩⟩
    · intro m hm
      cases hm
    · exact hnil.symm

/-- A message, and the sync behind it. -/
theorem addSynced_performs (m : RequestMessage) (req : RequestBuilder) :
    ((add m).andThen maybeAddSync).Performs req ([m] ++ AddCall.syncs req.autosync) req.autosync :=
  (add_performs m req).andThen (maybeAddSync_performs _)

theorem addExecute_performs (name : Bytes) (params : List ParameterRef) (pf rf : FormatCode)
    (rows : Int32) (req : RequestBuilder) :
    (addExecute name params pf rf rows).Performs req
      ((AddCall.addExecute name params pf rf rows).messages req.autosync) req.autosync :=
  (add_performs _ req).andThen ((add_performs _ _).andThen (addSynced_performs _ _))

/-- **What one call does.** -/
theorem perform_performs (c : AddCall) (req : RequestBuilder) :
    c.perform.Performs req (c.messages req.autosync) (c.autosync req.autosync) := by
  cases c with
  | setAutosync value =>
    exact ⟨.success, { req with autosync := value }, rfl, .inl ⟨rfl, by simp [AddCall.messages],
      by simp [appended, AddCall.messages, AddCall.autosync]⟩⟩
  | addSimpleQuery q => exact add_performs _ req
  | addQuery q params pf rf rows =>
    exact (add_performs _ req).andThen (addExecute_performs [] params pf rf rows _)
  | addPrepare q name oids => exact addSynced_performs _ req
  | addExecute name params pf rf rows => exact addExecute_performs name params pf rf rows req
  | addDescribeStatement name => exact addSynced_performs _ req
  | addDescribePortal name => exact addSynced_performs _ req
  | addCloseStatement name => exact addSynced_performs _ req
  | addClosePortal name => exact addSynced_performs _ req
  | addBind name params pf portal rf => exact add_performs _ req
  | addSync => exact add_performs _ req
  | add m => exact add_performs m req

theorem perform_adds (c : AddCall) (req : RequestBuilder) :
    c.perform.Adds req (c.messages req.autosync) (c.autosync req.autosync) :=
  (perform_performs c req).adds

/-- `autosync_` after some calls. -/
def autosyncAfter (autosync : Bool) (cs : List AddCall) : Bool :=
  cs.foldl (fun a c => c.autosync a) autosync

/-- **What a sequence of calls adds.** -/
theorem build_adds : ∀ (cs : List AddCall) (req : RequestBuilder),
    (build cs).Adds req (messagesOf req.autosync cs) (autosyncAfter req.autosync cs)
  | [], req => ⟨.success, req, rfl, fun _ => (appended_nil req).symm⟩
  | c :: cs, req => (perform_adds c req).andThen (build_adds cs _)

theorem messagesOf_append : ∀ (cs cs' : List AddCall) (a : Bool),
    messagesOf a (cs ++ cs') = messagesOf a cs ++ messagesOf (autosyncAfter a cs) cs'
  | [], _, _ => rfl
  | c :: cs, cs', a => by
      rw [List.cons_append, messagesOf, messagesOf, messagesOf_append cs cs', List.append_assoc]
      rfl

/-- The calls before a call that returned have returned as well. -/
theorem build_split : ∀ {cs cs' : List AddCall} {req req'' : RequestBuilder} {ec : ErrorCode},
    build (cs ++ cs') req = .ok (ec, req'') → ec.failed = false →
    ∃ ec' req', build cs req = .ok (ec', req') ∧ ec'.failed = false ∧
      build cs' req' = .ok (ec, req'')
  | [], _, req, _, _, h, _ => ⟨.success, req, rfl, rfl, h⟩
  | c :: cs, cs', req, req'', ec, h, hec => by
      obtain ⟨ec₁, req₁, hrun, -⟩ := perform_adds c req
      rw [List.cons_append, build, andThen_of_ok hrun] at h
      by_cases hec₁ : ec₁.failed = true
      · rw [if_pos hec₁] at h
        cases h
        rw [hec₁] at hec
        cases hec
      · rw [if_neg hec₁] at h
        obtain ⟨ec', req', hbuild, hec', hrest⟩ := build_split h hec
        exact ⟨ec', req', by rw [build, andThen_of_ok hrun, if_neg hec₁, hbuild], hec', hrest⟩

/-! ## 4. Frames -/

/-- A frame: the type byte, the length of the rest, and the rest. -/
def frameDecoder : Decode.Decoder (UInt8 × Bytes) := do
  let type ← Decode.byte
  let size ← Decode.int 4
  if size < 4 then failure else do
    let body ← Decode.bytes (size - 4).toNat
    pure (type, body)

/-- The loop of `splitFrames`; a frame takes at least five bytes. -/
def splitLoop : Nat → Bytes → Option (List (UInt8 × Bytes))
  | _, [] => some []
  | 0, _ :: _ => none
  | fuel + 1, bytes =>
    match frameDecoder bytes with
    | none => none
    | some (frame, rest) => (splitLoop fuel rest).map (frame :: ·)

/-- The payload cut into frames; `none` where the last one is not complete or a length is
    impossible. -/
def splitFrames (payload : Bytes) : Option (List (UInt8 × Bytes)) :=
  splitLoop payload.length payload

/-- The bytes of a frame. -/
def frameBytes (frame : UInt8 × Bytes) : Bytes :=
  frame.1 :: BigEndian.ofInt 4 (frame.2.length + 4) ++ frame.2

/-- The length fits its field. -/
def FrameFits (frame : UInt8 × Bytes) : Prop := frame.2.length + 4 ≤ int32Max

instance : DecidablePred FrameFits := fun _ => inferInstanceAs (Decidable (_ ≤ _))

theorem reads_frameDecoder {frame : UInt8 × Bytes} (h : FrameFits frame) :
    Decode.Reads frameDecoder (frameBytes frame) frame := by
  have hfits : BigEndian.Fits 4 ((frame.2.length : Int) + 4) := fits_of_le_int32Max h
  have hsize : ((frame.2.length : Int) + 4 - 4).toNat = frame.2.length := by omega
  refine (Decode.reads_byte frame.1).bind (Decode.Reads.bind (Decode.reads_int hfits) ?_)
  rw [if_neg (by omega), hsize]
  exact (Decode.reads_bytes frame.2).bind_pure

/-- **Frames behind one another are cut where they meet.** -/
theorem splitLoop_flatMap : ∀ (frames : List (UInt8 × Bytes)) (fuel : Nat),
    (∀ frame ∈ frames, FrameFits frame) → (frames.flatMap frameBytes).length ≤ fuel →
    splitLoop fuel (frames.flatMap frameBytes) = some frames
  | [], fuel, _, _ => by cases fuel <;> rfl
  | frame :: frames, fuel, hfits, hfuel => by
      have hread := reads_frameDecoder (hfits frame List.mem_cons_self) (frames.flatMap frameBytes)
      have hbytes : (frame :: frames).flatMap frameBytes =
          frame.1 :: (BigEndian.ofInt 4 (frame.2.length + 4) ++ frame.2 ++
            frames.flatMap frameBytes) := rfl
      have hlength := congrArg List.length hbytes
      rw [List.length_cons, List.length_append] at hlength
      cases fuel with
      | zero => omega
      | succ fuel =>
        have hrest := splitLoop_flatMap frames fuel
          (fun f hf => hfits f (List.mem_cons_of_mem _ hf)) (by omega)
        rw [List.flatMap_cons] at hbytes ⊢
        rw [hbytes, splitLoop, ← hbytes, hread]
        · simp only [hrest, Option.map_some]
        · nofun

theorem splitFrames_flatMap {frames : List (UInt8 × Bytes)}
    (hfits : ∀ frame ∈ frames, FrameFits frame) :
    splitFrames (frames.flatMap frameBytes) = some frames :=
  splitLoop_flatMap frames _ hfits (Nat.le_refl _)

/-- The frame of a request message. -/
def RequestMessage.frame (m : RequestMessage) : UInt8 × Bytes := (m.type.byte, m.value.body)

theorem emitted_eq_frameBytes {m : RequestMessage} (h : FrameFits m.frame) :
    m.value.emitted = frameBytes m.frame := by
  have hfit : m.value.body.length + 4 ≤ int32Max := h
  obtain ⟨t, htype, hbyte⟩ : ∃ t, m.value.type = some t ∧ t.toNat.toUInt8 = m.type.byte := by
    cases m <;> exact ⟨_, rfl, rfl⟩
  have hsize := storeBigS32_eq hfit
  unfold FrontendMessage.emitted frameBytes finalizeMessage
  rw [htype, Option.elim_some]
  simp only
  rw [if_neg (by omega), hsize, hbyte]
  rfl

theorem flatMap_emitted {ms : List RequestMessage} (h : ∀ m ∈ ms, FrameFits m.frame) :
    ms.flatMap (·.value.emitted) = (ms.map (·.frame)).flatMap frameBytes := by
  rw [List.flatMap_map]
  exact List.flatMap_congr fun m hm => emitted_eq_frameBytes (h m hm)

theorem splitFrames_emitted {ms : List RequestMessage} (h : ∀ m ∈ ms, FrameFits m.frame) :
    splitFrames (ms.flatMap (·.value.emitted)) = some (ms.map (·.frame)) := by
  rw [flatMap_emitted h]
  refine splitFrames_flatMap fun frame hframe => ?_
  obtain ⟨m, hm, rfl⟩ := List.mem_map.mp hframe
  exact h m hm

/-! ## 5. Requests under autosync -/

/-- A call that keeps `autosync_` on and adds no message of the low-level interface. -/
def AddCall.KeepsSync (c : AddCall) : Prop := c.isHighLevel = true ∨ c = .setAutosync true

/-- The messages of such a call leave no batch open. -/
theorem checkLoop_call {c : AddCall} (h : c.KeepsSync) (rest : List RequestMessageType) :
    checkLoop false ((c.messages true).map (·.type) ++ rest) = checkLoop false rest := by
  cases c with
  | setAutosync value => rfl
  | addSimpleQuery q => rfl
  | addQuery q params pf rf rows => rfl
  | addPrepare q name oids => rfl
  | addExecute name params pf rf rows => rfl
  | addDescribeStatement name => rfl
  | addDescribePortal name => rfl
  | addCloseStatement name => rfl
  | addClosePortal name => rfl
  | addBind name params pf portal rf => rcases h with h | h <;> cases h
  | addSync => rcases h with h | h <;> cases h
  | add m => rcases h with h | h <;> cases h

theorem AddCall.KeepsSync.autosync {c : AddCall} (h : c.KeepsSync) : c.autosync true = true := by
  rcases h with h | rfl
  · cases c <;> first | rfl | cases h
  · rfl

theorem checkLoop_calls : ∀ {cs : List AddCall}, (∀ c ∈ cs, c.KeepsSync) →
    (checkLoop false ((messagesOf true cs).map (·.type))).failed = false
  | [], _ => rfl
  | c :: cs, h => by
      have hc := h c List.mem_cons_self
      rw [messagesOf, hc.autosync, List.map_append, checkLoop_call hc]
      exact checkLoop_calls fun c' hc' => h c' (List.mem_cons_of_mem _ hc')

theorem AddCall.messages_ne_nil {c : AddCall} (h : c.isHighLevel = true) (a : Bool) :
    c.messages a ≠ [] := by
  cases c <;> first | exact List.cons_ne_nil _ _ | cases h

theorem messagesOf_ne_nil : ∀ {cs : List AddCall} (a : Bool), (∃ c ∈ cs, c.isHighLevel = true) →
    messagesOf a cs ≠ []
  | [], _, ⟨_, hc, _⟩ => nomatch hc
  | c :: cs, a, ⟨c', hc', hhigh⟩ => by
      rw [messagesOf]
      intro hnil
      obtain ⟨hhead, htail⟩ := List.append_eq_nil_iff.mp hnil
      rcases List.mem_cons.mp hc' with rfl | hc'
      · exact AddCall.messages_ne_nil hhigh a hhead
      · exact messagesOf_ne_nil _ ⟨c', hc', hhigh⟩ htail

/-- **Requests as they are built.** Where no call throws and every message fits its length field,
    the payload is the frames of `messages()`: cut by its type bytes and lengths it is used up,
    and the type bytes are those of the messages. What the earlier calls have written stays as it
    is, frame by frame. Under autosync, high-level calls make a request `check_request` accepts. -/
theorem build_frames {autosync : Bool} {calls : List AddCall} {ec : ErrorCode}
    {req : RequestBuilder} (hrun : build calls { autosync } = .ok (ec, req))
    (hec : ec.failed = false) (hfits : ∀ m ∈ messagesOf autosync calls, FrameFits m.frame) :
    (∃ frames, splitFrames req.payload = some frames ∧ req.payload = frames.flatMap frameBytes ∧
      frames.map (·.1) = req.messages.map (·.byte)) ∧
    (∀ earlier later, calls = earlier ++ later →
      ∃ ec' req' frames frames', build earlier { autosync } = .ok (ec', req') ∧
        ec'.failed = false ∧ req'.payload <+: req.payload ∧ req'.messages <+: req.messages ∧
        splitFrames req'.payload = some frames ∧ splitFrames req.payload = some (frames ++ frames')) ∧
    (autosync = true → (∀ c ∈ calls, c.KeepsSync) → (∃ c ∈ calls, c.isHighLevel = true) →
      req.Accepted) := by
  -- what a run from the empty request leaves
  have hbuilt : ∀ {cs ec₁ req₁}, build cs { autosync } = .ok (ec₁, req₁) → ec₁.failed = false →
      req₁.payload = (messagesOf autosync cs).flatMap (·.value.emitted) ∧
        req₁.messages = (messagesOf autosync cs).map (·.type) := by
    intro cs ec₁ req₁ hrun₁ hec₁
    obtain ⟨ec₂, req₂, hrun₂, hreq⟩ := build_adds cs { autosync }
    rw [hrun₁] at hrun₂
    cases hrun₂
    rw [hreq hec₁]
    exact ⟨rfl, rfl⟩
  obtain ⟨hpayload, hmessages⟩ := hbuilt hrun hec
  have hsplit : splitFrames req.payload = some ((messagesOf autosync calls).map (·.frame)) := by
    rw [hpayload]
    exact splitFrames_emitted hfits
  refine ⟨⟨_, hsplit, by rw [hpayload, flatMap_emitted hfits], ?_⟩, ?_, ?_⟩
  · rw [hmessages, List.map_map, List.map_map]
    rfl
  · rintro earlier later rfl
    obtain ⟨ec', req', hrun', hec', -⟩ := build_split hrun hec
    obtain ⟨hpayload', hmessages'⟩ := hbuilt hrun' hec'
    have happend := messagesOf_append earlier later autosync
    have hfits' : ∀ m ∈ messagesOf autosync earlier, FrameFits m.frame := fun m hm =>
      hfits m (by rw [happend]; exact List.mem_append_left _ hm)
    rw [happend, List.map_append] at hsplit
    refine ⟨ec', req', _, _, hrun', hec', ?_, ?_, ?_, hsplit⟩
    · rw [hpayload, hpayload', happend, List.flatMap_append]
      exact List.prefix_append _ _
    · rw [hmessages, hmessages', happend, List.map_append]
      exact List.prefix_append _ _
    · rw [hpayload']
      exact splitFrames_emitted hfits'
  · rintro rfl hkeeps hhigh
    have hne : req.messages.isEmpty = false := by
      rw [hmessages, List.isEmpty_map]
      simpa using messagesOf_ne_nil true hhigh
    rw [Request.Accepted, checkRequest, hne, hmessages]
    exact checkLoop_calls hkeeps

/-- A query with one parameter, then a simple query. -/
theorem build_frames_two_queries :
    ∃ req frames, build [.addQuery (ascii "SELECT $1") [⟨23, (.success, ascii "42"),
        (.success, [0, 0, 0, 42])⟩] .binary .text 0, .addSimpleQuery (ascii "BEGIN")] {} =
        .ok (.success, req) ∧
      splitFrames req.payload = some frames ∧ frames.map (·.1) = ascii "PBDESQ" ∧ req.Accepted := by
  obtain ⟨calls, hcalls⟩ : ∃ calls : List AddCall, calls = [.addQuery (ascii "SELECT $1") [⟨23,
    (.success, ascii "42"), (.success, [0, 0, 0, 42])⟩] .binary .text 0,
    .addSimpleQuery (ascii "BEGIN")] := ⟨_, rfl⟩
  obtain ⟨ec, req, hrun, hreq⟩ := build_adds calls {}
  have hec : (build calls {}).toOption.map (·.1) = some .success := by
    rw [hcalls]
    decide +kernel
  rw [hrun] at hec
  obtain rfl : ec = .success := by simpa [Except.toOption] using hec
  have hmessages : req.messages = [.parse, .bind, .describe, .execute, .sync, .query] := by
    rw [hreq rfl, hcalls]
    rfl
  obtain ⟨⟨frames, hsplit, -, htypes⟩, -, haccepted⟩ :=
    build_frames hrun rfl (by rw [hcalls]; decide +kernel)
  refine ⟨req, frames, by rw [← hcalls, hrun], hsplit, ?_, haccepted rfl ?_ ?_⟩
  · rw [htypes, hmessages]
    decide
  · rw [hcalls]
    intro c hc
    simp only [List.mem_cons, List.not_mem_nil, or_false] at hc
    rcases hc with rfl | rfl <;> exact .inl rfl
  · rw [hcalls]
    exact ⟨_, List.mem_cons_self, rfl⟩

end NativePg
