/-
  File:      NativePg/Protocol/Serialize.lean
  Subject:   The messages of the client: the `serialize` functions of src/messages.cpp, and that of
             src/nativepg_internal/scram_sha256_messages.hpp.

  * `FrontendMessage`, `serialize` -- the messages, and what each overload does to a buffer;
  * `WireField`, `layout`, `frame` -- the message as the protocol describes it;
  * `serialize_spec` -- a message that is not `rejected` is appended as `finalize_message` writes it.
    Two messages have no header: what becomes of them depends on the buffer;
  * `serialize_appends_iff` -- when a call returns an error or appends the message's frame.
-/
import NativePg.Protocol.SerializationContext
import NativePg.Protocol.Views

namespace NativePg

/-! ## 1. Parts of messages -/

/-- `portal_or_statement`. -/
inductive PortalOrStatement where
  | statement
  | portal
  deriving DecidableEq, Repr

/-- The value of the enumerator. -/
def PortalOrStatement.byte : PortalOrStatement → UInt8
  | .statement => 83
  | .portal => 80

/-- `format_codes`. -/
inductive FormatCodes where
  | allText
  | allBinary
  | list (codes : List FormatCode)
  deriving DecidableEq, Repr

/-- `serialize_fmt_codes`. -/
def serializeFmtCodes (fmtCodes : FormatCodes) (ctx : SerializationContext) :
    SerializationContext :=
  match fmtCodes with
  | .allText => ctx.addIntegral 2 0
  | .allBinary => (ctx.addIntegral 2 1).addIntegral 2 1
  | .list codes =>
    if codes.length > int16Max then ctx.addError ClientErrc.valueTooBig.code
    else codes.foldl (fun ctx c => ctx.addIntegral 2 c.value) (ctx.addIntegral 2 codes.length)

/-- `serialize_params`. -/
def serializeParams (parametersFn : ParametersFn) (ctx : SerializationContext) :
    Checked SerializationContext := do
  let numParamsOffset := ctx.buffer.length
  let bindCtx ← BindContext.run parametersFn.actions { buffer := ctx.buffer ++ [0, 0] }
  let ctx := SerializationContext.addError { ctx with buffer := bindCtx.buffer } bindCtx.err
  if bindCtx.numParams > int16Max then pure (ctx.addError ClientErrc.valueTooBig.code)
  else
    let buffer ← storeAt ctx.buffer numParamsOffset (BigEndian.ofInt 2 bindCtx.numParams)
    pure { ctx with buffer }

/-- `bind`. -/
structure Bind where
  portalName : Bytes
  statementName : Bytes
  parameterFmtCodes : FormatCodes
  parametersFn : ParametersFn
  resultFmtCodes : FormatCodes

/-- The messages of the client that have a `serialize`. -/
inductive FrontendMessage where
  | bind (msg : Bind)
  | describe (type : PortalOrStatement) (name : Bytes)
  | close (type : PortalOrStatement) (name : Bytes)
  | parse (statementName query : Bytes) (parameterTypeOids : List Int32)
  | copyFail (errorMessage : Bytes)
  | copyDone
  | execute (portalName : Bytes) (maxNumRows : Int32)
  | flush
  | sync
  | terminate
  | password (password : Bytes)
  | startupMessage (user : Bytes) (database : Option Bytes) (params : List (Bytes × Bytes))
  | cancelRequest (processId secretKey : Int32)
  | sslRequest
  | query (query : Bytes)
  | clientFirst (mechanism nonce : Bytes)

/-! ## 2. The overloads -/

/-- `serialize(bind, ...)`. -/
def serializeBind (msg : Bind) : Bytes → Checked (ErrorCode × Bytes) :=
  serializeTyped 'B' fun ctx => do
    let ctx := (ctx.addString msg.portalName).addString msg.statementName
    let ctx := serializeFmtCodes msg.parameterFmtCodes ctx
    let ctx ← serializeParams msg.parametersFn ctx
    pure (serializeFmtCodes msg.resultFmtCodes ctx)

/-- `serialize(describe, ...)`. -/
def serializeDescribe (type : PortalOrStatement) (name : Bytes) :
    Bytes → Checked (ErrorCode × Bytes) :=
  serializeTyped 'D' fun ctx => pure ((ctx.addByte type.byte).addString name)

/-- `serialize(close, ...)`. -/
def serializeClose (type : PortalOrStatement) (name : Bytes) :
    Bytes → Checked (ErrorCode × Bytes) :=
  serializeTyped 'C' fun ctx => pure ((ctx.addByte type.byte).addString name)

/-- `serialize(parse_t, ...)`. -/
def serializeParse (statementName query : Bytes) (parameterTypeOids : List Int32) (out : Bytes) :
    Checked (ErrorCode × Bytes) := do
  let ctx ← SerializationContext.addHeader { buffer := out } 'P'
  let ctx := (ctx.addString statementName).addString query
  if parameterTypeOids.length > int16Max then
    let ctx := ctx.addError ClientErrc.valueTooBig.code
    pure (ctx.err, ctx.buffer)
  else
    let ctx := ctx.addIntegral 2 parameterTypeOids.length
    let ctx := parameterTypeOids.foldl (fun ctx code => ctx.addIntegral 4 code.toInt) ctx
    let (ec, ctx) ← ctx.finalizeMessage
    pure (ec, ctx.buffer)

/-- `serialize(copy_fail, ...)`. -/
def serializeCopyFail (errorMessage : Bytes) : Bytes → Checked (ErrorCode × Bytes) :=
  serializeTyped 'f' fun ctx => pure (ctx.addString errorMessage)

/-- `serialize(copy_done, ...)`. -/
def serializeCopyDone : Bytes → Checked (ErrorCode × Bytes) := serializeTyped 'c' pure

/-- `serialize(execute, ...)`. -/
def serializeExecute (portalName : Bytes) (maxNumRows : Int32) :
    Bytes → Checked (ErrorCode × Bytes) :=
  serializeTyped 'E' fun ctx => pure ((ctx.addString portalName).addIntegral 4 maxNumRows.toInt)

/-- `serialize_header`. -/
def serializeHeader (header : MessageHeader) : Except ErrorCode Bytes :=
  if header.size > 2 ^ 31 - 1 - 4 then .error ClientErrc.valueTooBig.code
  else .ok (header.type :: BigEndian.ofInt 4 header.size)

/-- `serialize_header_only`. -/
def serializeHeaderOnly (header : Char) (out : Bytes) : Checked (ErrorCode × Bytes) :=
  match serializeHeader ⟨header.toNat.toUInt8, 4⟩ with
  | .error _ => .error .assertion
  | .ok buff => .ok (.success, out ++ buff)

/-- `serialize(password, ...)`. -/
def serializePassword (password : Bytes) : Bytes → Checked (ErrorCode × Bytes) :=
  serializeTyped 'p' fun ctx => pure (ctx.addString password)

/-- The end of `serialize(startup_message, ...)`, from "Calculate the message length" on. -/
def finishStartupMessage (lengthOffset : Nat) (ctx : SerializationContext) :
    Checked (ErrorCode × Bytes) :=
  if ctx.buffer.length < lengthOffset + 4 then .error .assertion
  else
    let msgLength := ctx.buffer.length - lengthOffset
    let ctx := if msgLength > int32Max then ctx.addError ClientErrc.valueTooBig.code else ctx
    if ctx.err.failed then pure (ctx.err, ctx.buffer)
    else do
      let buffer ← storeAt ctx.buffer lengthOffset (storeBigS32 msgLength)
      pure (.success, buffer)

/-- `serialize(startup_message, ...)`. -/
def serializeStartupMessage (user : Bytes) (database : Option Bytes) (params : List (Bytes × Bytes))
    (out : Bytes) : Checked (ErrorCode × Bytes) :=
  let ctx : SerializationContext := { buffer := out }
  let lengthOffset := ctx.buffer.length
  let ctx := (ctx.addBytes [0, 0, 0, 0]).addIntegral 4 196608
  let ctx := (ctx.addString (ascii "user")).addString user
  let ctx := match database with
    | none => ctx
    | some database => (ctx.addString (ascii "database")).addString database
  let ctx := params.foldl (fun ctx param => (ctx.addString param.1).addString param.2) ctx
  finishStartupMessage lengthOffset (ctx.addByte 0)

/-- `serialize(cancel_request, ...)`. -/
def serializeCancelRequest (processId secretKey : Int32) (out : Bytes) :
    Checked (ErrorCode × Bytes) := do
  let ctx : SerializationContext := { buffer := out }
  let ctx := (ctx.addIntegral 4 16).addIntegral 4 80877102
  let ctx := (ctx.addIntegral 4 processId.toInt).addIntegral 4 secretKey.toInt
  let (ec, ctx) ← ctx.finalizeMessage
  pure (ec, ctx.buffer)

/-- `serialize(ssl_request, ...)`. -/
def serializeSslRequest (out : Bytes) : Checked (ErrorCode × Bytes) := do
  let ctx : SerializationContext := { buffer := out }
  let ctx := ctx.addIntegral 4 80877103
  let (ec, ctx) ← ctx.finalizeMessage
  pure (ec, ctx.buffer)

/-- `serialize(query, ...)`. -/
def serializeQuery (query : Bytes) : Bytes → Checked (ErrorCode × Bytes) :=
  serializeTyped 'Q' fun ctx => pure (ctx.addString query)

/-- `serialize(client_first_message, ...)`. The last result is `client_first_message_bare`, by its
    bounds, where it is set. -/
def serializeClientFirst (mechanism nonce out : Bytes) :
    Checked (ErrorCode × Bytes × Option (Nat × Nat)) := do
  let ctx ← SerializationContext.addHeader { buffer := out } 'p'
  let ctx := ctx.addString mechanism
  let lengthOffset := ctx.buffer.length
  let ctx := (ctx.addBytes [0, 0, 0, 0]).addBytes (ascii "n,,")
  let bareStartOffset := ctx.buffer.length
  let ctx := (ctx.addBytes (ascii "n=,r=")).addBytes nonce
  let bareEndOffset := ctx.buffer.length
  let dataLength := ctx.buffer.length - lengthOffset - 4
  let ctx ←
    if dataLength > int32Max then pure (ctx.addError ClientErrc.valueTooBig.code)
    else do
      let buffer ← storeAt ctx.buffer lengthOffset (storeBigS32 dataLength)
      pure { ctx with buffer }
  let (ec, ctx) ← ctx.finalizeMessage
  pure (ec, ctx.buffer, if ec.failed then none else some (bareStartOffset, bareEndOffset))

namespace FrontendMessage

/-- The overloads of `serialize`. -/
def serialize : FrontendMessage → Bytes → Checked (ErrorCode × Bytes)
  | .bind msg => serializeBind msg
  | .describe type name => serializeDescribe type name
  | .close type name => serializeClose type name
  | .parse name text oids => serializeParse name text oids
  | .copyFail text => serializeCopyFail text
  | .copyDone => serializeCopyDone
  | .execute name rows => serializeExecute name rows
  | .flush => serializeHeaderOnly 'H'
  | .sync => serializeHeaderOnly 'S'
  | .terminate => serializeHeaderOnly 'X'
  | .password text => serializePassword text
  | .startupMessage user database params => serializeStartupMessage user database params
  | .cancelRequest processId secretKey => serializeCancelRequest processId secretKey
  | .sslRequest => serializeSslRequest
  | .query text => serializeQuery text
  | .clientFirst mechanism nonce => fun out => do
      let (ec, buffer, _) ← serializeClientFirst mechanism nonce out
      pure (ec, buffer)

end FrontendMessage

/-! ## 3. Messages as the protocol describes them -/

/-- A field of a message. -/
inductive WireField where
  | byte (b : UInt8)
  | int16 (z : Int)
  | int32 (z : Int)
  | string (s : Bytes)
  | bytes (b : Bytes)
  deriving DecidableEq, Repr

namespace WireField

def enc : WireField → Bytes
  | .byte b => [b]
  | .int16 z => BigEndian.ofInt 2 z
  | .int32 z => BigEndian.ofInt 4 z
  | .string s => encString s
  | .bytes b => b

/-- The value has an encoding. -/
def Representable : WireField → Prop
  | .int16 z => BigEndian.Fits 2 z
  | .int32 z => BigEndian.Fits 4 z
  | _ => True

instance : ∀ field : WireField, Decidable field.Representable
  | .byte _ | .string _ | .bytes _ => isTrue trivial
  | .int16 z => inferInstanceAs (Decidable (BigEndian.Fits 2 z))
  | .int32 z => inferInstanceAs (Decidable (BigEndian.Fits 4 z))

end WireField

/-- The codes a bind message carries: none stands for text, a single one for all. -/
def FormatCodes.codes : FormatCodes → List FormatCode
  | .allText => []
  | .allBinary => [.binary]
  | .list codes => codes

def codesLayout (codes : List FormatCode) : List WireField :=
  .int16 codes.length :: codes.map fun c => .int16 c.value

def paramsLayout (values : List Bytes) : List WireField :=
  .int16 values.length :: values.flatMap fun v => [.int32 v.length, .bytes v]

/-- The parameters of a startup message. -/
def startupParams (user : Bytes) (database : Option Bytes) (params : List (Bytes × Bytes)) :
    List (Bytes × Bytes) :=
  (ascii "user", user) :: (database.toList.map fun d => (ascii "database", d)) ++ params

/-- More items than an `Int16` counts. -/
def tooMany {α : Type} (items : List α) : Bool := decide (items.length > int16Max)

namespace FrontendMessage

/-- The type byte; three messages have none. -/
def type : FrontendMessage → Option Char
  | .bind _ => some 'B'
  | .describe .. => some 'D'
  | .close .. => some 'C'
  | .parse .. => some 'P'
  | .copyFail _ => some 'f'
  | .copyDone => some 'c'
  | .execute .. => some 'E'
  | .flush => some 'H'
  | .sync => some 'S'
  | .terminate => some 'X'
  | .password _ => some 'p'
  | .startupMessage .. => none
  | .cancelRequest .. => none
  | .sslRequest => none
  | .query _ => some 'Q'
  | .clientFirst .. => some 'p'

/-- The fields behind the type byte and the length. -/
def layout : FrontendMessage → List WireField
  | .bind msg =>
      [.string msg.portalName, .string msg.statementName] ++
        codesLayout msg.parameterFmtCodes.codes ++ paramsLayout msg.parametersFn.values ++
        codesLayout msg.resultFmtCodes.codes
  | .describe type name => [.byte type.byte, .string name]
  | .close type name => [.byte type.byte, .string name]
  | .parse name text oids =>
      [.string name, .string text, .int16 oids.length] ++ oids.map fun oid => .int32 oid.toInt
  | .copyFail text => [.string text]
  | .copyDone => []
  | .execute name rows => [.string name, .int32 rows.toInt]
  | .flush => []
  | .sync => []
  | .terminate => []
  | .password text => [.string text]
  | .startupMessage user database params =>
      .int32 196608 :: ((startupParams user database params).flatMap fun param =>
        [.string param.1, .string param.2]) ++ [.byte 0]
  | .cancelRequest processId secretKey =>
      [.int32 80877102, .int32 processId.toInt, .int32 secretKey.toInt]
  | .sslRequest => [.int32 80877103]
  | .query text => [.string text]
  | .clientFirst mechanism nonce =>
      let data := ascii "n,,n=,r=" ++ nonce
      [.string mechanism, .int32 data.length, .bytes data]

/-- The bytes of the fields. -/
def body (m : FrontendMessage) : Bytes := m.layout.flatMap WireField.enc

/-- The frame of a message: the type byte where it has one, the length of what follows, which counts
    itself, and the fields. There is none where a field or the length has no encoding. -/
def frame (m : FrontendMessage) : Option Bytes :=
  let size : Int := m.body.length + 4
  if (∀ field ∈ m.layout, field.Representable) ∧ BigEndian.Fits 4 size then
    some (m.type.toList.map (fun t => t.toNat.toUInt8) ++ (BigEndian.ofInt 4 size ++ m.body))
  else none

/-- The messages `serialize` reports an error for. -/
def rejected : FrontendMessage → Bool
  | .bind msg =>
      tooMany msg.parameterFmtCodes.codes ||
        (msg.parametersFn.fails || msg.parametersFn.values.any tooLong ||
          tooMany msg.parametersFn.values) ||
        tooMany msg.resultFmtCodes.codes
  | .parse _ _ oids => tooMany oids
  | .startupMessage user database params =>
      decide ((startupMessage user database params).body.length + 4 > int32Max)
  | .clientFirst _ nonce => decide (nonce.length + 8 > int32Max)
  | _ => false

end FrontendMessage

/-! ## 4. What the parts add -/

/-- The calls add these fields; see `SerializationContext.Adds`. -/
def Writes (ctx ctx' : SerializationContext) (fields : List WireField) (bad : Bool) : Prop :=
  ctx.Adds ctx' (fields.flatMap WireField.enc) bad

section
open SerializationContext

theorem Writes.trans {ctx ctx' ctx'' : SerializationContext} {fields fields' : List WireField}
    {bad bad' : Bool} (h : Writes ctx ctx' fields bad) (h' : Writes ctx' ctx'' fields' bad') :
    Writes ctx ctx'' (fields ++ fields') (bad || bad') := by
  unfold Writes
  rw [List.flatMap_append]
  exact Adds.trans h h'

theorem writes_string (ctx : SerializationContext) (s : Bytes) :
    Writes ctx (ctx.addString s) [.string s] false := by
  unfold Writes
  rw [List.flatMap_singleton]
  exact adds_addString ctx s

theorem writes_bytes (ctx : SerializationContext) (bytes : Bytes) :
    Writes ctx (ctx.addBytes bytes) [.bytes bytes] false := by
  unfold Writes
  rw [List.flatMap_singleton]
  exact adds_addBytes ctx bytes

theorem writes_byte (ctx : SerializationContext) (byte : UInt8) :
    Writes ctx (ctx.addByte byte) [.byte byte] false :=
  adds_addByte ctx byte

theorem writes_int16 (ctx : SerializationContext) (z : Int) :
    Writes ctx (ctx.addIntegral 2 z) [.int16 z] false :=
  adds_addIntegral ctx 2 z

theorem writes_int32 (ctx : SerializationContext) (z : Int) :
    Writes ctx (ctx.addIntegral 4 z) [.int32 z] false :=
  adds_addIntegral ctx 4 z

/-- An error, whatever was to be added behind it. -/
theorem writes_error (ctx : SerializationContext) (e : ClientErrc) (fields : List WireField) :
    Writes ctx (ctx.addError e.code) fields true := by
  have herror := adds_addError ctx e.code
  rw [ClientErrc.failed_code] at herror
  exact herror.of_bad _

/-- A loop that adds the fields of one item after the other. -/
theorem writes_foldl {α : Type} {add : SerializationContext → α → SerializationContext}
    {fields : α → List WireField} (h : ∀ ctx a, Writes ctx (add ctx a) (fields a) false) :
    ∀ (as : List α) (ctx : SerializationContext),
      Writes ctx (as.foldl add ctx) (as.flatMap fields) false
  | [], ctx => adds_nothing ctx
  | a :: as, ctx => (h ctx a).trans (writes_foldl h as (add ctx a))

theorem enc_paramsLayout (values : List Bytes) :
    (paramsLayout values).flatMap WireField.enc =
      BigEndian.ofInt 2 values.length ++
        values.flatMap fun v => BigEndian.ofInt 4 v.length ++ v := by
  simp only [paramsLayout, List.flatMap_cons, List.flatMap_assoc, List.flatMap_nil, List.append_nil]
  rfl

theorem writes_fmtCodes (fmtCodes : FormatCodes) (ctx : SerializationContext) :
    Writes ctx (serializeFmtCodes fmtCodes ctx) (codesLayout fmtCodes.codes)
      (tooMany fmtCodes.codes) := by
  cases fmtCodes with
  | allText => exact writes_int16 ctx 0
  | allBinary => exact (writes_int16 ctx 1).trans (writes_int16 _ 1)
  | list codes =>
    unfold serializeFmtCodes FormatCodes.codes
    by_cases hmany : codes.length > int16Max
    · have hbad : tooMany codes = true := decide_eq_true hmany
      simp only [if_pos hmany, hbad]
      exact writes_error ctx _ _
    · have hgood : tooMany codes = false := decide_eq_false hmany
      simp only [if_neg hmany, hgood]
      have hcodes := (writes_int16 ctx codes.length).trans
        (writes_foldl (fun ctx (c : FormatCode) => writes_int16 ctx c.value) codes _)
      rw [← List.map_eq_flatMap] at hcodes
      exact hcodes

theorem paramBytes_eq {value : Bytes} (h : tooLong value = false) :
    paramBytes value = BigEndian.ofInt 4 value.length ++ value := by
  have hfit : value.length ≤ int32Max := by simpa [tooLong] using h
  rw [paramBytes, h, storeBigS32_eq hfit]
  rfl

theorem flatMap_paramBytes {values : List Bytes} (h : values.any tooLong = false) :
    values.flatMap paramBytes = values.flatMap fun v => BigEndian.ofInt 4 v.length ++ v := by
  have hmap : values.map paramBytes = values.map fun v => BigEndian.ofInt 4 v.length ++ v := by
    apply List.map_congr_left
    intro v hv
    exact paramBytes_eq (by simpa using List.any_eq_false.mp h v hv)
  rw [List.flatMap_def, List.flatMap_def, hmap]

/-- The callback's parameters and, in front of them, their number. -/
theorem writes_params (fn : ParametersFn) (ctx : SerializationContext) :
    ∃ ctx', serializeParams fn ctx = .ok ctx' ∧
      Writes ctx ctx' (paramsLayout fn.values)
        (fn.fails || fn.values.any tooLong || tooMany fn.values) := by
  obtain ⟨offset, err, hrun, hfailed⟩ :=
    BindContext.run_fresh fn.actions (ctx.buffer ++ [0, 0]) .success fn.starts
  have herr : err.failed = (fn.fails || fn.values.any tooLong) := by
    simpa [ParametersFn.fails, ParametersFn.values] using hfailed
  change BindContext.run fn.actions { buffer := ctx.buffer ++ [0, 0] } =
    .ok ⟨ctx.buffer ++ [0, 0] ++ fn.values.flatMap paramBytes, fn.values.length, offset, err⟩ at hrun
  -- the context once the callback's bytes are in it
  have hnoted : Adds ctx (addError { ctx with
      buffer := ctx.buffer ++ [0, 0] ++ fn.values.flatMap paramBytes } err)
      ([0, 0] ++ fn.values.flatMap paramBytes) (fn.fails || fn.values.any tooLong) := by
    have hadds := (adds_addBytes ctx ([0, 0] ++ fn.values.flatMap paramBytes)).trans
      (adds_addError _ err)
    rw [herr, List.append_nil, Bool.false_or, addBytes, ← List.append_assoc] at hadds
    exact hadds
  simp only [serializeParams, hrun, bind, Except.bind]
  by_cases hmany : fn.values.length > int16Max
  · have hbad : tooMany fn.values = true := decide_eq_true hmany
    rw [if_pos hmany, hbad, Bool.or_true]
    have herror := hnoted.trans (writes_error _ .valueTooBig [])
    rw [Bool.or_true] at herror
    exact ⟨_, rfl, herror.of_bad _⟩
  · have hgood : tooMany fn.values = false := decide_eq_false hmany
    have hstore := storeAt_append ctx.buffer [0, 0] (fn.values.flatMap paramBytes)
      (BigEndian.ofInt 2 fn.values.length) rfl
    rw [← List.append_assoc] at hstore
    rw [if_neg hmany, hgood, Bool.or_false]
    simp only [addError, hstore]
    refine ⟨_, rfl, ⟨_, rfl, fun hfit => ?_⟩, hnoted.headerOffset, hnoted.failed⟩
    rw [enc_paramsLayout, flatMap_paramBytes (Bool.or_eq_false_iff.mp hfit).2]

end

/-! ## 5. What the overloads append -/

namespace FrontendMessage

/-- A message as the code writes it. -/
def emitted (m : FrontendMessage) : Bytes :=
  m.type.elim (storeBigS32 (m.body.length + 4) ++ m.body) fun t => finalizeMessage t m.body

section
open SerializationContext

/-- The fields of a bind message. -/
theorem bind_fields (msg : Bind) (ctx : SerializationContext) :
    ∃ ctx', (do
        let ctx := (ctx.addString msg.portalName).addString msg.statementName
        let ctx := serializeFmtCodes msg.parameterFmtCodes ctx
        let ctx ← serializeParams msg.parametersFn ctx
        pure (serializeFmtCodes msg.resultFmtCodes ctx)) = Except.ok ctx' ∧
      ctx.Adds ctx' (body (.bind msg)) (rejected (.bind msg)) := by
  have hnames := (writes_string ctx msg.portalName).trans (writes_string _ msg.statementName)
  have hcodes := hnames.trans (writes_fmtCodes msg.parameterFmtCodes _)
  obtain ⟨ctx', hrun, hparams⟩ := writes_params msg.parametersFn
    (serializeFmtCodes msg.parameterFmtCodes
      ((ctx.addString msg.portalName).addString msg.statementName))
  have hall := (hcodes.trans hparams).trans (writes_fmtCodes msg.resultFmtCodes ctx')
  exact ⟨serializeFmtCodes msg.resultFmtCodes ctx', by simp only [hrun]; rfl, hall⟩

theorem bind_spec (msg : Bind) (out : Bytes) :
    Serialized (serializeBind msg out) out (rejected (.bind msg)) (emitted (.bind msg)) :=
  serializeTyped_spec out (bind_fields msg)

/-- The early return is what `finalize_message` does with an error. -/
theorem serializeParse_eq (name text : Bytes) (oids : List Int32) (out : Bytes) :
    serializeParse name text oids out = serializeTyped 'P' (fun ctx =>
      let ctx := (ctx.addString name).addString text
      if oids.length > int16Max then pure (ctx.addError ClientErrc.valueTooBig.code)
      else pure (oids.foldl (fun ctx code => ctx.addIntegral 4 code.toInt)
        (ctx.addIntegral 2 oids.length))) out := by
  unfold serializeParse serializeTyped
  by_cases hmany : oids.length > int16Max
  · simp only [if_pos hmany]
    rfl
  · simp only [if_neg hmany]
    rfl

/-- The fields of a parse message. -/
theorem parse_fields (name text : Bytes) (oids : List Int32) (ctx : SerializationContext) :
    ∃ ctx', (let ctx := (ctx.addString name).addString text
        if oids.length > int16Max then pure (ctx.addError ClientErrc.valueTooBig.code)
        else pure (oids.foldl (fun ctx code => ctx.addIntegral 4 code.toInt)
          (ctx.addIntegral 2 oids.length))) = (Except.ok ctx' : Checked SerializationContext) ∧
      ctx.Adds ctx' (body (.parse name text oids)) (rejected (.parse name text oids)) := by
  have hnames := (writes_string ctx name).trans (writes_string _ text)
  have hrejected : rejected (.parse name text oids) = tooMany oids := rfl
  rw [hrejected]
  by_cases hmany : oids.length > int16Max
  · have hbad : tooMany oids = true := decide_eq_true hmany
    simp only [if_pos hmany, hbad]
    exact ⟨_, rfl, hnames.trans (writes_error _ _ (.int16 oids.length ::
      oids.map fun oid => .int32 oid.toInt))⟩
  · have hgood : tooMany oids = false := decide_eq_false hmany
    have hoids := (hnames.trans (writes_int16 _ oids.length)).trans
      (writes_foldl (fun ctx (code : Int32) => writes_int32 ctx code.toInt) oids _)
    rw [← List.map_eq_flatMap] at hoids
    simp only [if_neg hmany, hgood]
    exact ⟨_, rfl, hoids⟩

theorem parse_spec (name text : Bytes) (oids : List Int32) (out : Bytes) :
    Serialized (serializeParse name text oids out) out (rejected (.parse name text oids))
      (emitted (.parse name text oids)) := by
  rw [serializeParse_eq]
  exact serializeTyped_spec out (parse_fields name text oids)

/-- The fields of `client_first_message`; the length of the data is stored where it fits. -/
def addClientFirst (mechanism nonce : Bytes) (ctx : SerializationContext) :
    Checked SerializationContext := do
  let ctx := ctx.addString mechanism
  let lengthOffset := ctx.buffer.length
  let ctx := (ctx.addBytes [0, 0, 0, 0]).addBytes (ascii "n,,")
  let ctx := (ctx.addBytes (ascii "n=,r=")).addBytes nonce
  let dataLength := ctx.buffer.length - lengthOffset - 4
  if dataLength > int32Max then pure (ctx.addError ClientErrc.valueTooBig.code)
  else
    let buffer ← storeAt ctx.buffer lengthOffset (storeBigS32 dataLength)
    pure { ctx with buffer }

theorem serialize_clientFirst (mechanism nonce out : Bytes) :
    (clientFirst mechanism nonce).serialize out =
      serializeTyped 'p' (addClientFirst mechanism nonce) out := by
  unfold serialize serializeClientFirst serializeTyped addClientFirst
  simp only [bind_assoc]
  refine bind_congr fun ctx => ?_
  split
  · simp only [bind_assoc, pure_bind]
  · simp only [bind_assoc, pure_bind]

/-- The data of `client_first_message` behind its length. -/
theorem addClientFirst_eq (mechanism nonce : Bytes) (ctx : SerializationContext) :
    addClientFirst mechanism nonce ctx =
      let ctx := ctx.addString mechanism
      let data := ascii "n,,n=,r=" ++ nonce
      if data.length > int32Max then
        pure ((ctx.addBytes ([0, 0, 0, 0] ++ data)).addError ClientErrc.valueTooBig.code)
      else pure (ctx.addBytes (storeBigS32 data.length ++ data)) := by
  have hascii : ascii "n,,n=,r=" = ascii "n,," ++ ascii "n=,r=" := rfl
  have hadd : ∀ ctx : SerializationContext,
      (((ctx.addBytes [0, 0, 0, 0]).addBytes (ascii "n,,")).addBytes (ascii "n=,r=")).addBytes nonce =
        ctx.addBytes ([0, 0, 0, 0] ++ (ascii "n,,n=,r=" ++ nonce)) := by
    intro ctx
    simp only [addBytes, hascii, List.append_assoc]
  unfold addClientFirst
  simp only [hadd]
  generalize ctx.addString mechanism = ctx
  generalize ascii "n,,n=,r=" ++ nonce = data
  have hsize : (ctx.addBytes ([0, 0, 0, 0] ++ data)).buffer.length - ctx.buffer.length - 4 =
      data.length := by
    simp only [addBytes, List.length_append, List.length_cons, List.length_nil]
    omega
  have hstore := storeAt_append ctx.buffer [0, 0, 0, 0] data (storeBigS32 data.length) rfl
  rw [hsize]
  split
  · rfl
  · simp only [addBytes, hstore]
    rfl

theorem clientFirst_spec (mechanism nonce out : Bytes) :
    Serialized ((clientFirst mechanism nonce).serialize out) out
      (rejected (.clientFirst mechanism nonce)) (emitted (.clientFirst mechanism nonce)) := by
  rw [serialize_clientFirst]
  refine serializeTyped_spec out fun ctx => ?_
  have hlength : (ascii "n,,n=,r=" ++ nonce).length = nonce.length + 8 := by
    rw [List.length_append, Nat.add_comm]
    rfl
  have hrejected : rejected (.clientFirst mechanism nonce) =
      decide (nonce.length + 8 > int32Max) := rfl
  have hname := writes_string ctx mechanism
  rw [addClientFirst_eq, hrejected]
  simp only [hlength]
  by_cases hlong : nonce.length + 8 > int32Max
  · have herror := (hname.trans
      (writes_bytes _ ([0, 0, 0, 0] ++ (ascii "n,,n=,r=" ++ nonce)))).trans
      (writes_error _ .valueTooBig [])
    rw [if_pos hlong, decide_eq_true hlong]
    exact ⟨_, rfl, Adds.of_bad herror _⟩
  · have hdata : Writes (ctx.addString mechanism)
        ((ctx.addString mechanism).addBytes
          (BigEndian.ofInt 4 (nonce.length + 8 : Nat) ++ (ascii "n,,n=,r=" ++ nonce)))
        [.int32 (ascii "n,,n=,r=" ++ nonce).length, .bytes (ascii "n,,n=,r=" ++ nonce)] false := by
      unfold Writes
      rw [List.flatMap_cons, List.flatMap_singleton, hlength]
      exact adds_addBytes _ _
    rw [if_neg hlong, decide_eq_false hlong, storeBigS32_eq (by omega)]
    exact ⟨_, rfl, hname.trans hdata⟩

/-- The fields of `startup_message` in front of its terminator. -/
theorem writes_startupParams (user : Bytes) (database : Option Bytes)
    (params : List (Bytes × Bytes)) (ctx : SerializationContext) :
    Writes ctx
      (params.foldl (fun ctx param => (ctx.addString param.1).addString param.2)
        (match database with
          | none => (ctx.addString (ascii "user")).addString user
          | some database => ((((ctx.addString (ascii "user")).addString user).addString
              (ascii "database")).addString database)))
      ((startupParams user database params).flatMap fun param => [.string param.1, .string param.2])
      false := by
  have hpair : ∀ (ctx : SerializationContext) (param : Bytes × Bytes),
      Writes ctx ((ctx.addString param.1).addString param.2) [.string param.1, .string param.2]
        false := fun ctx param => (writes_string ctx param.1).trans (writes_string _ param.2)
  have huser := hpair ctx (ascii "user", user)
  cases database with
  | none => exact huser.trans (writes_foldl hpair params _)
  | some database =>
    exact (huser.trans (hpair _ (ascii "database", database))).trans (writes_foldl hpair params _)

/-- The length is written over the four bytes kept for it, unless it does not fit. -/
theorem finishStartupMessage_spec {ctx : SerializationContext} {out body : Bytes}
    (hbuffer : ctx.buffer = out ++ ([0, 0, 0, 0] ++ body)) (hgood : ctx.err.failed = false) :
    Serialized (finishStartupMessage out.length ctx) out (decide (body.length + 4 > int32Max))
      (storeBigS32 (body.length + 4) ++ body) := by
  have hlength : ctx.buffer.length = out.length + (body.length + 4) := by
    rw [hbuffer]
    simp only [List.length_append, List.length_cons, List.length_nil]
    omega
  have hsize : ctx.buffer.length - out.length = body.length + 4 := by omega
  unfold finishStartupMessage
  rw [if_neg (by omega), hsize]
  by_cases hlong : body.length + 4 > int32Max
  · have hbad : (ctx.addError ClientErrc.valueTooBig.code).err.failed = true := by
      rw [addError, failed_keepFirst, ClientErrc.failed_code, Bool.or_true]
    simp only [if_pos hlong, decide_eq_true hlong, if_pos hbad]
    exact ⟨_, _, rfl, hbad, fun h => by cases h⟩
  · have hstore := storeAt_append out [0, 0, 0, 0] body (storeBigS32 (body.length + 4)) rfl
    rw [← hbuffer] at hstore
    have hcode : ¬ctx.err.failed = true := by simp [hgood]
    simp only [if_neg hlong, decide_eq_false hlong, if_neg hcode, hstore]
    exact ⟨_, _, rfl, rfl, fun _ => rfl⟩

theorem startup_spec (user : Bytes) (database : Option Bytes) (params : List (Bytes × Bytes))
    (out : Bytes) :
    Serialized (serializeStartupMessage user database params out) out
      (rejected (.startupMessage user database params))
      (emitted (.startupMessage user database params)) := by
  have hversion := writes_int32 ⟨out ++ [0, 0, 0, 0], none, .success⟩ 196608
  have hfields := (hversion.trans (writes_startupParams user database params _)).trans
    (writes_byte _ 0)
  obtain ⟨added, hbuffer, hadded⟩ := hfields.buffer
  rw [hadded rfl, List.append_assoc] at hbuffer
  cases database with
  | none => exact finishStartupMessage_spec hbuffer hfields.failed
  | some database => exact finishStartupMessage_spec hbuffer hfields.failed

theorem headerOnly_spec (header : Char) (out : Bytes) :
    Serialized (serializeHeaderOnly header out) out false (finalizeMessage header []) := by
  refine ⟨.success, _, rfl, rfl, fun _ => ?_⟩
  have hlength : BigEndian.ofInt 4 4 = storeBigS32 4 := (storeBigS32_eq (n := 4) (by decide)).symm
  rw [hlength]
  rfl

/-- **What `serialize` does with a message that has a header, or stores its length itself.** -/
theorem serialize_spec (m : FrontendMessage) (out : Bytes)
    (hssl : m ≠ .sslRequest) (hcancel : ∀ processId secretKey, m ≠ .cancelRequest processId secretKey) :
    Serialized (m.serialize out) out m.rejected m.emitted := by
  cases m with
  | bind msg => exact bind_spec msg out
  | describe type name =>
    exact serializeTyped_spec out fun ctx =>
      ⟨_, rfl, (writes_byte ctx type.byte).trans (writes_string _ name)⟩
  | close type name =>
    exact serializeTyped_spec out fun ctx =>
      ⟨_, rfl, (writes_byte ctx type.byte).trans (writes_string _ name)⟩
  | parse name text oids => exact parse_spec name text oids out
  | copyFail text => exact serializeTyped_spec out fun ctx => ⟨_, rfl, writes_string ctx text⟩
  | copyDone => exact serializeTyped_spec out fun ctx => ⟨ctx, rfl, adds_nothing ctx⟩
  | execute name rows =>
    exact serializeTyped_spec out fun ctx =>
      ⟨_, rfl, (writes_string ctx name).trans (writes_int32 _ rows.toInt)⟩
  | flush => exact headerOnly_spec 'H' out
  | sync => exact headerOnly_spec 'S' out
  | terminate => exact headerOnly_spec 'X' out
  | password text => exact serializeTyped_spec out fun ctx => ⟨_, rfl, writes_string ctx text⟩
  | startupMessage user database params => exact startup_spec user database params out
  | cancelRequest processId secretKey => exact absurd rfl (hcancel processId secretKey)
  | sslRequest => exact absurd rfl hssl
  | query text => exact serializeTyped_spec out fun ctx => ⟨_, rfl, writes_string ctx text⟩
  | clientFirst mechanism nonce => exact clientFirst_spec mechanism nonce out

end

/-! ## 6. Frames -/

theorem fits_toInt32 (z : Int32) : BigEndian.Fits 4 z.toInt := by
  have hlow := Int32.le_toInt z
  have hhigh := Int32.toInt_lt z
  constructor <;> omega

theorem representable_codesLayout {codes : List FormatCode} (h : tooMany codes = false) :
    ∀ field ∈ codesLayout codes, field.Representable := by
  have hcount : codes.length ≤ int16Max := by simpa [tooMany] using h
  intro field hfield
  rcases List.mem_cons.mp hfield with rfl | hfield
  · exact fits_of_le_int16Max hcount
  · obtain ⟨c, -, rfl⟩ := List.mem_map.mp hfield
    exact fits_value c

theorem representable_paramsLayout {values : List Bytes} (h : tooMany values = false)
    (hfit : values.any tooLong = false) :
    ∀ field ∈ paramsLayout values, field.Representable := by
  have hcount : values.length ≤ int16Max := by simpa [tooMany] using h
  intro field hfield
  rcases List.mem_cons.mp hfield with rfl | hfield
  · exact fits_of_le_int16Max hcount
  · obtain ⟨v, hv, hfield⟩ := List.mem_flatMap.mp hfield
    have hlength : v.length ≤ int32Max := by simpa [tooLong] using List.any_eq_false.mp hfit v hv
    rcases List.mem_cons.mp hfield with rfl | hfield
    · exact fits_of_le_int32Max hlength
    · rw [List.mem_singleton.mp hfield]
      trivial

/-- **A message that is not rejected has an encoding, field by field.** -/
theorem representable_layout {m : FrontendMessage} (h : m.rejected = false) :
    ∀ field ∈ m.layout, field.Representable := by
  cases m with
  | bind msg =>
    simp only [rejected, Bool.or_eq_false_iff] at h
    obtain ⟨⟨hparamCodes, ⟨-, hlong⟩, hparams⟩, hresultCodes⟩ := h
    simp only [layout, List.forall_mem_append]
    refine ⟨⟨⟨?_, representable_codesLayout hparamCodes⟩,
      representable_paramsLayout hparams hlong⟩, representable_codesLayout hresultCodes⟩
    simp [WireField.Representable]
  | parse name text oids =>
    have hcount : oids.length ≤ int16Max := by simpa [rejected, tooMany] using h
    simp only [layout, List.forall_mem_append]
    constructor
    · simpa [WireField.Representable] using fits_of_le_int16Max hcount
    · intro field hfield
      obtain ⟨oid, -, rfl⟩ := List.mem_map.mp hfield
      exact fits_toInt32 oid
  | startupMessage user database params =>
    intro field hfield
    rcases List.mem_append.mp hfield with hfield | hfield
    · rcases List.mem_cons.mp hfield with rfl | hfield
      · decide
      · obtain ⟨param, -, hfield⟩ := List.mem_flatMap.mp hfield
        simp only [List.mem_cons, List.not_mem_nil, or_false] at hfield
        rcases hfield with rfl | rfl <;> trivial
    · rw [List.mem_singleton.mp hfield]
      trivial
  | execute name rows => simpa [layout, WireField.Representable] using fits_toInt32 rows
  | cancelRequest processId secretKey =>
    simp only [layout, List.forall_mem_cons]
    exact ⟨by decide, fits_toInt32 processId, fits_toInt32 secretKey, by simp⟩
  | sslRequest => simp only [layout, List.forall_mem_cons]; exact ⟨by decide, by simp⟩
  | clientFirst mechanism nonce =>
    have hlength : (ascii "n,,n=,r=" ++ nonce).length ≤ int32Max := by
      have hdata : (ascii "n,,n=,r=" ++ nonce).length = nonce.length + 8 := by
        rw [List.length_append, Nat.add_comm]
        rfl
      rw [hdata]
      simpa [rejected] using h
    simp only [layout, List.forall_mem_cons]
    exact ⟨trivial, fits_of_le_int32Max hlength, trivial, by simp⟩
  | describe type name => simp [layout, WireField.Representable]
  | close type name => simp [layout, WireField.Representable]
  | copyFail text => simp [layout, WireField.Representable]
  | password text => simp [layout, WireField.Representable]
  | query text => simp [layout, WireField.Representable]
  | copyDone => simp [layout]
  | flush => simp [layout]
  | sync => simp [layout]
  | terminate => simp [layout]

/-- Where there is a frame, it is what the code writes. -/
theorem frame_eq {m : FrontendMessage} (h : m.rejected = false)
    (hfit : m.body.length + 4 ≤ int32Max) : m.frame = some m.emitted := by
  have hsize : BigEndian.ofInt 4 ((m.body.length : Int) + 4) = storeBigS32 (m.body.length + 4) :=
    (storeBigS32_eq hfit).symm
  have hfits : BigEndian.Fits 4 ((m.body.length : Int) + 4) := fits_of_le_int32Max hfit
  unfold frame
  simp only
  rw [if_pos ⟨representable_layout h, hfits⟩, hsize]
  unfold emitted
  cases m.type with
  | none => rfl
  | some t =>
    simp only [Option.elim_some, finalizeMessage]
    rw [if_neg (by omega)]
    rfl

theorem length_of_frame {m : FrontendMessage} {frame : Bytes} (h : m.frame = some frame) :
    m.body.length + 4 ≤ int32Max := by
  unfold FrontendMessage.frame at h
  simp only at h
  split at h
  · rename_i hfits
    have hhigh := hfits.2.2
    unfold int32Max
    omega
  · cases h

/-! ## 7. What a call does to the buffer -/

/-- What is asked of `serialize`: it reports an error, or it appends the frame of the message to
    what is in the buffer. -/
def Appends (m : FrontendMessage) (out : Bytes) : Prop :=
  ∃ ec buffer, m.serialize out = .ok (ec, buffer) ∧
    (ec.failed = true ∨ ∃ frame, m.frame = some frame ∧ buffer = out ++ frame)

theorem appends_iff_of_run {m : FrontendMessage} {out buffer : Bytes} {ec : ErrorCode}
    (h : m.serialize out = .ok (ec, buffer)) :
    m.Appends out ↔ ec.failed = true ∨ ∃ frame, m.frame = some frame ∧ buffer = out ++ frame := by
  constructor
  · rintro ⟨ec', buffer', hrun, hcond⟩
    rw [h] at hrun
    cases hrun
    exact hcond
  · intro hcond
    exact ⟨ec, buffer, h, hcond⟩

/-- A message with a header. -/
theorem appends_iff_of_serialized {m : FrontendMessage} {out : Bytes}
    (h : Serialized (m.serialize out) out m.rejected m.emitted) :
    m.Appends out ↔ m.rejected = true ∨ m.body.length + 4 ≤ int32Max := by
  obtain ⟨ec, buffer, hrun, hec, hbuffer⟩ := h
  rw [appends_iff_of_run hrun, hec]
  constructor
  · rintro (hrejected | ⟨frame, hframe, -⟩)
    · exact .inl hrejected
    · exact .inr (length_of_frame hframe)
  · intro hcond
    by_cases hrejected : m.rejected = true
    · exact .inl hrejected
    · have hgood : m.rejected = false := by simpa using hrejected
      exact .inr ⟨_, frame_eq hgood (hcond.resolve_left hrejected), hbuffer hgood⟩

/-- `finalize_message` without a header: the length of the whole buffer goes to its start. -/
theorem finalizeMessage_of_none {ctx : SerializationContext} (hnone : ctx.headerOffset = none)
    (hgood : ctx.err.failed = false) (hlength : 4 ≤ ctx.buffer.length) :
    ∃ ec ctx', ctx.finalizeMessage = .ok (ec, ctx') ∧ ec.failed = false ∧
      ctx'.buffer = (if ctx.buffer.length > int32Max then ctx.buffer
        else storeBigS32 ctx.buffer.length ++ ctx.buffer.drop 4) := by
  unfold SerializationContext.finalizeMessage
  rw [if_neg (by simp [hgood])]
  simp only [hnone, Option.elim_none, Nat.zero_add, Nat.sub_zero]
  rw [if_neg (by omega)]
  by_cases hlong : ctx.buffer.length > int32Max
  · simp only [if_pos hlong]
    exact ⟨_, _, rfl, hgood, rfl⟩
  · have hstore : storeAt ctx.buffer 0 (storeBigS32 ctx.buffer.length) =
        .ok (storeBigS32 ctx.buffer.length ++ ctx.buffer.drop 4) := by
      unfold storeAt
      rw [if_pos (by simpa using hlength)]
      simp
    simp only [if_neg hlong, hstore]
    exact ⟨_, _, rfl, rfl, rfl⟩

theorem body_cancelRequest (processId secretKey : Int32) :
    body (.cancelRequest processId secretKey) = BigEndian.ofInt 4 80877102 ++
      (BigEndian.ofInt 4 processId.toInt ++ BigEndian.ofInt 4 secretKey.toInt) := by
  simp only [body, layout, List.flatMap_cons, List.flatMap_nil, List.append_nil, WireField.enc]

theorem length_body_cancelRequest (processId secretKey : Int32) :
    (body (.cancelRequest processId secretKey)).length = 12 := by
  rw [body_cancelRequest]
  simp only [List.length_append, BigEndian.length_ofInt]

theorem emitted_cancelRequest (processId secretKey : Int32) :
    emitted (.cancelRequest processId secretKey) =
      BigEndian.ofInt 4 16 ++ (BigEndian.ofInt 4 80877102 ++
        (BigEndian.ofInt 4 processId.toInt ++ BigEndian.ofInt 4 secretKey.toInt)) := by
  unfold emitted
  rw [length_body_cancelRequest, body_cancelRequest,
    storeBigS32_eq (show 12 + 4 ≤ int32Max by decide)]
  rfl

/-- A cancel request is appended, and then the first bytes of the buffer are overwritten. -/
theorem cancelRequest_spec (processId secretKey : Int32) (out : Bytes) :
    ∃ ec, (cancelRequest processId secretKey).serialize out = .ok (ec,
        if out.length + 16 > int32Max then out ++ emitted (.cancelRequest processId secretKey)
        else storeBigS32 (out.length + 16) ++
          (out ++ emitted (.cancelRequest processId secretKey)).drop 4) ∧
      ec.failed = false := by
  obtain ⟨ctx, hctx⟩ : ∃ ctx : SerializationContext, ctx =
      (((({ buffer := out } : SerializationContext).addIntegral 4 16).addIntegral 4
        80877102).addIntegral 4 processId.toInt).addIntegral 4 secretKey.toInt := ⟨_, rfl⟩
  have hbuffer : ctx.buffer = out ++ emitted (.cancelRequest processId secretKey) := by
    rw [hctx, emitted_cancelRequest]
    simp only [SerializationContext.addIntegral, SerializationContext.addBytes, List.append_assoc]
  have hlength : ctx.buffer.length = out.length + 16 := by
    rw [hbuffer, emitted_cancelRequest]
    simp only [List.length_append, BigEndian.length_ofInt]
  obtain ⟨ec, ctx', hfinal, hec, hout⟩ := finalizeMessage_of_none
    (by rw [hctx]; rfl) (by rw [hctx]; rfl) (show 4 ≤ ctx.buffer.length by omega)
  refine ⟨ec, ?_, hec⟩
  rw [hlength, hbuffer] at hout
  rw [← hout]
  simp only [serialize, serializeCancelRequest, ← hctx, hfinal]
  rfl

/-- An SSL request has no length field: four bytes are added, not eight. -/
theorem sslRequest_spec (out : Bytes) :
    ∃ ec buffer, sslRequest.serialize out = .ok (ec, buffer) ∧ ec.failed = false ∧
      buffer.length = out.length + 4 := by
  obtain ⟨ctx, hctx⟩ : ∃ ctx : SerializationContext, ctx =
      ({ buffer := out } : SerializationContext).addIntegral 4 80877103 := ⟨_, rfl⟩
  have hlength : ctx.buffer.length = out.length + 4 := by
    rw [hctx]
    simp only [SerializationContext.addIntegral, SerializationContext.addBytes, List.length_append,
      BigEndian.length_ofInt]
  obtain ⟨ec, ctx', hfinal, hec, hout⟩ := finalizeMessage_of_none
    (by rw [hctx]; rfl) (by rw [hctx]; rfl) (show 4 ≤ ctx.buffer.length by omega)
  refine ⟨ec, ctx'.buffer, ?_, hec, ?_⟩
  · simp only [serialize, serializeSslRequest, ← hctx, hfinal]
    rfl
  · rw [hout]
    split
    · exact hlength
    · simp only [List.length_append, length_storeBigS32, List.length_drop]
      omega

/-- Overwriting the first bytes changes nothing if they are the same. -/
theorem append_drop_eq_iff {bytes buffer : Bytes} :
    bytes ++ buffer.drop bytes.length = buffer ↔ buffer.take bytes.length = bytes := by
  constructor
  · intro heq
    rw [← heq, List.take_left]
  · intro heq
    nth_rewrite 1 [← heq]
    exact List.take_append_drop _ _

/-- The first bytes are the length of a cancel request only where the buffer was empty, or where
    they were that length already. -/
theorem take_cancelRequest (processId secretKey : Int32) {out : Bytes}
    (hfit : out.length + 16 ≤ int32Max) :
    (out ++ emitted (.cancelRequest processId secretKey)).take 4 = storeBigS32 (out.length + 16) ↔
      out = [] ∨ out.take 4 = BigEndian.ofInt 4 (out.length + 16) := by
  have hstore : storeBigS32 (out.length + 16) = BigEndian.ofInt 4 (out.length + 16) :=
    storeBigS32_eq hfit
  have hemitted : ∃ rest, emitted (.cancelRequest processId secretKey) = [0, 0, 0, 16] ++ rest :=
    ⟨_, emitted_cancelRequest processId secretKey⟩
  obtain ⟨rest, hrest⟩ := hemitted
  rw [← hstore, hrest]
  match out with
  | [] => simp [storeBigS32]
  | [a] => simp [storeBigS32]
  | [a, b] => simp [storeBigS32]
  | [a, b, c] => simp [storeBigS32]
  | a :: b :: c :: d :: out => simp

/-- When `serialize` does what is asked of it. An SSL request is never written as it should be; a
    cancel request is unless it damages what is in the buffer; any other message is if it is rejected
    or its length fits. -/
def Framable : FrontendMessage → Bytes → Prop
  | .sslRequest, _ => False
  | .cancelRequest _ _, out =>
      out = [] ∨ int32Max < out.length + 16 ∨ out.take 4 = BigEndian.ofInt 4 (out.length + 16)
  | m, _ => m.rejected = true ∨ m.body.length + 4 ≤ int32Max

theorem appends_cancelRequest_iff (processId secretKey : Int32) (out : Bytes) :
    (cancelRequest processId secretKey).Appends out ↔
      out = [] ∨ int32Max < out.length + 16 ∨
        out.take 4 = BigEndian.ofInt 4 (out.length + 16) := by
  obtain ⟨ec, hrun, hec⟩ := cancelRequest_spec processId secretKey out
  have hframe : (cancelRequest processId secretKey).frame =
      some (emitted (.cancelRequest processId secretKey)) :=
    frame_eq rfl (by rw [length_body_cancelRequest]; decide)
  have happends : (cancelRequest processId secretKey).Appends out ↔
      (if out.length + 16 > int32Max then out ++ emitted (.cancelRequest processId secretKey)
        else storeBigS32 (out.length + 16) ++
          (out ++ emitted (.cancelRequest processId secretKey)).drop 4) =
        out ++ emitted (.cancelRequest processId secretKey) := by
    rw [appends_iff_of_run hrun, hec, hframe]
    simp
  rw [happends]
  by_cases hlong : out.length + 16 > int32Max
  · rw [if_pos hlong]
    exact iff_of_true rfl (.inr (.inl hlong))
  · have hfit : out.length + 16 ≤ int32Max := by omega
    rw [if_neg hlong]
    have hdrop := @append_drop_eq_iff (storeBigS32 (out.length + 16))
      (out ++ emitted (.cancelRequest processId secretKey))
    rw [length_storeBigS32] at hdrop
    rw [hdrop, take_cancelRequest processId secretKey hfit]
    simp [hlong]

theorem not_appends_sslRequest (out : Bytes) : ¬sslRequest.Appends out := by
  obtain ⟨ec, buffer, hrun, hec, hlength⟩ := sslRequest_spec out
  have hframe : sslRequest.frame = some [0, 0, 0, 8, 4, 210, 22, 47] := by decide
  rw [appends_iff_of_run hrun, hec, hframe]
  rintro (hfailed | ⟨frame, heq, hbuffer⟩)
  · cases hfailed
  · cases heq
    rw [hbuffer, List.length_append] at hlength
    simp only [List.length_cons, List.length_nil] at hlength
    omega

/-- **When `serialize` appends the frame or reports an error**, for every message and whatever is in
    the buffer. -/
theorem serialize_appends_iff (m : FrontendMessage) (out : Bytes) :
    m.Appends out ↔ m.Framable out := by
  cases m with
  | sslRequest => exact iff_of_false (not_appends_sslRequest out) id
  | cancelRequest processId secretKey => exact appends_cancelRequest_iff processId secretKey out
  | _ => exact appends_iff_of_serialized (serialize_spec _ out nofun nofun)

/-- A query whose length does not fit is written, with the length zero. -/
theorem not_appends_longQuery {text out : Bytes} (h : int32Max < text.length + 5) :
    ¬(query text).Appends out := by
  rw [appends_iff_of_serialized (serialize_spec (.query text) out nofun nofun)]
  have hlength : (body (.query text)).length = text.length + 1 := by
    simp [body, layout, WireField.enc, encString]
  rintro (hrejected | hfit)
  · cases hrejected
  · omega

/-- An SSL request in an empty buffer, a cancel request behind a sync, and a query of 2^31 - 5
    spaces. -/
theorem unframed_messages :
    sslRequest.serialize [] = .ok (.success, [0, 0, 0, 4]) ∧ ¬sslRequest.Appends [] ∧
    (cancelRequest 1 2).serialize [83, 0, 0, 0, 4] = .ok (.success,
      [0, 0, 0, 21, 4] ++ [0, 0, 0, 16, 4, 210, 22, 46, 0, 0, 0, 1, 0, 0, 0, 2]) ∧
    ¬(cancelRequest 1 2).Appends [83, 0, 0, 0, 4] ∧
    ¬(query (List.replicate 2147483643 32)).Appends [] := by
  refine ⟨by decide, not_appends_sslRequest [], by decide, ?_, not_appends_longQuery ?_⟩
  · rw [appends_cancelRequest_iff]
    decide
  · rw [List.length_replicate]
    decide

end FrontendMessage

end NativePg
