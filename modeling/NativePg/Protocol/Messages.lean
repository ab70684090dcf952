/-
  File:      NativePg/Protocol/Messages.lean
  Subject:   Parsing what the server sends (src/messages.cpp): one parser per message, the switch
             over the message type, and `parse_message` over a buffer of received bytes.

  * `parseBackendKeyData`, `parseDataRow`, ..., `parseAnyMessage` -- the body parsers. A C++
    parser fills its output and returns a code, which `parse_any_message_impl` throws away
    together with the output where the code is an error;
  * `parseMessage` -- a whole message with its header, or `needs_more` and how many bytes are
    missing;
  * `parseAnyMessage_code`, `parseHeader_code` -- the codes a bad message is reported with.
-/
import NativePg.Protocol.ParseContext

namespace NativePg

/-! ## 1. Bodies of backend messages -/

/-- `detail::check_empty`. -/
def checkEmpty (data : Bytes) : ErrorCode :=
  if data.isEmpty then .success else ClientErrc.extraBytes.code

/-- `parse(span, backend_key_data&)`. -/
def parseBackendKeyData (data : Bytes) : ErrorCode × BackendKeyData :=
  let ctx : ParseContext := { rest := data }
  let (processId, ctx) := ctx.getIntegral 4
  let (secretKey, ctx) := ctx.getIntegral 4
  (ctx.check, { processId, secretKey })

/-- `parse(span, authentication_md5_password&)`: the salt. -/
def parseMd5Password (data : Bytes) : ErrorCode × Bytes :=
  let ctx : ParseContext := { rest := data }
  let (salt, ctx) := ctx.getByteArray 4
  (ctx.check, salt)

/-- `while (!ctx.get_string().empty()) ++num_items;` -/
def countStrings (ctx : ParseContext) (numItems : Nat) : Nat × ParseContext :=
  if _h : ctx.getString.1 = [] then (numItems, ctx.getString.2)
  else countStrings ctx.getString.2 (numItems + 1)
termination_by ctx.rest.length
decreasing_by exact ParseContext.getString_lt _h

/-- `parse(span, authentication_sasl&)`: the mechanisms end one byte before the position behind
    the empty string that closes the list. -/
def parseSasl (data : Bytes) : ErrorCode × ForwardParsingView :=
  let start : ParseContext := { rest := data }
  let (numItems, ctx) := countStrings start 0
  (ctx.check, { size := numItems, data := (start.between ctx).dropLast })

/-- `parse(span, command_complete&)`: the tag. -/
def parseCommandComplete (data : Bytes) : ErrorCode × Bytes :=
  let ctx : ParseContext := { rest := data }
  let (tag, ctx) := ctx.getString
  (ctx.check, tag)

/-- `is_valid_format_code`, both overloads: on an `Int16` and on a byte. -/
def isValidFormatCode (v : Int) : Bool := v == 0 || v == 1

/-- The loop over the format codes of a copy response. -/
def checkFmtCodes (shouldBeText : Bool) : Nat → ParseContext → ParseContext
  | 0, ctx => ctx
  | n + 1, ctx =>
    let (code, ctx) := ctx.getIntegral 2
    checkFmtCodes shouldBeText n
      (if (shouldBeText && code != 0) || !isValidFormatCode code then
        ctx.addError .protocolValueError
      else ctx)

/-- `parse_copy_response`. -/
def parseCopyResponse (data : Bytes) : ErrorCode × CopyResponse :=
  let ctx : ParseContext := { rest := data }
  let (overallCode, ctx) := ctx.getByte
  let fmtCode : FormatCode := if overallCode = 0 then .text else .binary
  if !isValidFormatCode overallCode.toNat then
    ((ctx.addError .protocolValueError).check, { overallFmtCode := fmtCode, fmtCodes := {} })
  else
    let (numItems, ctx) := ctx.getNonnegativeIntegral 2
    let fmtCodes : RandomAccessParsingView := { data := ctx.rest, size := numItems }
    ((checkFmtCodes (overallCode = 0) numItems ctx).check, { overallFmtCode := fmtCode, fmtCodes })

/-- The loop over the columns of a data row: the size -1 is NULL, other negative sizes are
    errors. -/
def checkColumns : Nat → ParseContext → ParseContext
  | 0, ctx => ctx
  | n + 1, ctx =>
    let (valueSize, ctx) := ctx.getIntegral 4
    checkColumns n
      (if valueSize = -1 then ctx
      else if valueSize ≥ 0 then ctx.checkSizeAndAdvance valueSize.toNat
      else ctx.addError .protocolValueError)

/-- `parse(span, data_row&)`. -/
def parseDataRow (data : Bytes) : ErrorCode × DataRow :=
  let ctx : ParseContext := { rest := data }
  let (numColumns, valuesBegin) := ctx.getNonnegativeIntegral 2
  let valuesEnd := checkColumns numColumns valuesBegin
  (valuesEnd.check, { columns := { size := numColumns, data := valuesBegin.between valuesEnd } })

/-- The loop over the options of a protocol negotiation. -/
def skipStrings : Nat → ParseContext → ParseContext
  | 0, ctx => ctx
  | n + 1, ctx => skipStrings n ctx.getString.2

/-- `parse(span, negotiate_protocol_version&)`. -/
def parseNegotiateProtocolVersion (data : Bytes) : ErrorCode × NegotiateProtocolVersion :=
  let ctx : ParseContext := { rest := data }
  let (minorVersion, ctx) := ctx.getNonnegativeIntegral 4
  let (numOps, optsFirst) := ctx.getNonnegativeIntegral 4
  let optsLast := skipStrings numOps optsFirst
  (optsLast.check,
    { minorVersion, nonRecognizedOptions := { size := numOps, data := optsFirst.between optsLast } })

/-- `populate_field`: the field the type byte names. A type that is not known is ignored, and
    its string is NOT taken off the input. -/
def populateField (ctx : ParseContext) (type : UInt8) (fields : ErrorNoticeFields) :
    ParseContext × ErrorNoticeFields :=
  let (s, next) := ctx.getString
  match Char.ofNat type.toNat with
  | 'S' => (next, { fields with localizedSeverity := some s })
  | 'V' => (next, { fields with severity := some s })
  | 'C' => (next, { fields with sqlstate := some s })
  | 'M' => (next, { fields with message := some s })
  | 'D' => (next, { fields with detail := some s })
  | 'H' => (next, { fields with hint := some s })
  | 'P' => (next, { fields with position := some s })
  | 'p' => (next, { fields with internalPosition := some s })
  | 'q' => (next, { fields with internalQuery := some s })
  | 'W' => (next, { fields with where_ := some s })
  | 's' => (next, { fields with schemaName := some s })
  | 't' => (next, { fields with tableName := some s })
  | 'c' => (next, { fields with columnName := some s })
  | 'd' => (next, { fields with dataTypeName := some s })
  | 'n' => (next, { fields with constraintName := some s })
  | 'F' => (next, { fields with fileName := some s })
  | 'L' => (next, { fields with lineNumber := some s })
  | 'R' => (next, { fields with routine := some s })
  | _ => (ctx, fields)

/-- The context behind a field is the context before it or behind its string. -/
theorem populateField_ctx (ctx : ParseContext) (type : UInt8) (fields : ErrorNoticeFields) :
    (populateField ctx type fields).1 = ctx ∨ (populateField ctx type fields).1 = ctx.getString.2 := by
  unfold populateField
  simp only
  split <;> first | exact .inr rfl | exact .inl rfl

/-- The `while (true)` of `parse_error_notice`: it ends at a zero byte, and at an error. -/
def errorNoticeLoop (ctx : ParseContext) (fields : ErrorNoticeFields) :
    ParseContext × ErrorNoticeFields :=
  if _h : ctx.getByte.1 = 0 then (ctx.getByte.2, fields)
  else
    let r := populateField ctx.getByte.2 ctx.getByte.1 fields
    errorNoticeLoop r.1 r.2
termination_by ctx.rest.length
decreasing_by
  have hlt := ParseContext.getByte_lt _h
  have hle := ctx.getByte.2.getString_le
  rcases populateField_ctx ctx.getByte.2 ctx.getByte.1 fields with h | h <;> rw [h] <;> omega

/-- `parse_error_notice`. -/
def parseErrorNotice (data : Bytes) : ErrorCode × ErrorNoticeFields :=
  let (ctx, fields) := errorNoticeLoop { rest := data } {}
  (ctx.check, fields)

/-- `parse(span, notification_response&)`. -/
def parseNotificationResponse (data : Bytes) : ErrorCode × NotificationResponse :=
  let ctx : ParseContext := { rest := data }
  let (processId, ctx) := ctx.getIntegral 4
  let (channelName, ctx) := ctx.getString
  let (payload, ctx) := ctx.getString
  (ctx.check, { processId, channelName, payload })

/-- `parse(span, parameter_description&)`: the view of the output is left as it is, empty. -/
def parseParameterDescription (data : Bytes) : ErrorCode × RandomAccessParsingView :=
  let ctx : ParseContext := { rest := data }
  let (numParams, ctx) := ctx.getNonnegativeIntegral 2
  ((ctx.checkSizeAndAdvance (numParams * 4)).check, {})

/-- `parse(span, parameter_status&)`. -/
def parseParameterStatus (data : Bytes) : ErrorCode × ParameterStatus :=
  let ctx : ParseContext := { rest := data }
  let (name, ctx) := ctx.getString
  let (value, ctx) := ctx.getString
  (ctx.check, { name, value })

/-- The enumerators of `transaction_status`. -/
def transactionStatus? (b : UInt8) : Option TransactionStatus :=
  match Char.ofNat b.toNat with
  | 'I' => some .idle
  | 'T' => some .inTransaction
  | 'E' => some .failed
  | _ => none

/-- `parse(span, ready_for_query&)`. -/
def parseReadyForQuery (data : Bytes) : ErrorCode × TransactionStatus :=
  let ctx : ParseContext := { rest := data }
  let (b, ctx) := ctx.getByte
  match transactionStatus? b with
  | some status => (ctx.check, status)
  | none => ((ctx.addError .protocolValueError).check, .idle)

/-- `field_description_fixed_size`. -/
def fieldDescriptionFixedSize : Nat := 18

/-- The loop over the fields of a row description. -/
def checkFields : Nat → ParseContext → ParseContext
  | 0, ctx => ctx
  | n + 1, ctx =>
    let ctx := ctx.getString.2.checkSizeAndAdvance (fieldDescriptionFixedSize - 2)
    let (fmtCode, ctx) := ctx.getIntegral 2
    checkFields n (if !isValidFormatCode fmtCode then ctx.addError .protocolValueError else ctx)

/-- `parse(span, row_description&)`. -/
def parseRowDescription (data : Bytes) : ErrorCode × RowDescription :=
  let ctx : ParseContext := { rest := data }
  let (numItems, dataFirst) := ctx.getNonnegativeIntegral 2
  let dataLast := checkFields numItems dataFirst
  (dataLast.check,
    { fieldDescriptions := { size := numItems, data := dataFirst.between dataLast } })

/-! ## 2. Any message -/

/-- `parse_any_message_impl`: the parsed value, or the code alone. -/
def parseAnyMessageImpl {α : Type} (r : ErrorCode × α) (wrap : α → AnyBackendMessage) :
    Except ErrorCode AnyBackendMessage :=
  if r.1.failed then .error r.1 else .ok (wrap r.2)

/-- A message whose body must be empty. -/
def parseEmptyBody (data : Bytes) (msg : AnyBackendMessage) : Except ErrorCode AnyBackendMessage :=
  parseAnyMessageImpl (checkEmpty data, ()) fun _ => msg

/-- The switch of `parse_authentication_request`, over the kind of request. -/
def parseAuthenticationKind (kind : Int) (body : Bytes) : Except ErrorCode AnyBackendMessage :=
  match kind with
  | 0 => parseEmptyBody body .authenticationOk
  | 2 => parseEmptyBody body .authenticationKerberosV5
  | 3 => parseEmptyBody body .authenticationCleartextPassword
  | 5 => parseAnyMessageImpl (parseMd5Password body) .authenticationMd5Password
  | 7 => parseEmptyBody body .authenticationGss
  | 8 => .ok (.authenticationGssContinue body)
  | 9 => parseEmptyBody body .authenticationSspi
  | 10 => parseAnyMessageImpl (parseSasl body) .authenticationSasl
  | 11 => .ok (.authenticationSaslContinue body)
  | 12 => .ok (.authenticationSaslFinal body)
  | _ => .error ClientErrc.protocolValueError.code

/-- `parse_authentication_request`: the first four bytes are the kind of request. -/
def parseAuthenticationRequest (data : Bytes) : Except ErrorCode AnyBackendMessage :=
  if data.length < 4 then .error ClientErrc.incompleteMessage.code
  else parseAuthenticationKind (loadBigSigned (data.take 4)) (data.drop 4)

/-- `parse_any_message`. -/
def parseAnyMessage (messageType : UInt8) (data : Bytes) : Except ErrorCode AnyBackendMessage :=
  match Char.ofNat messageType.toNat with
  | 'R' => parseAuthenticationRequest data
  | 'K' => parseAnyMessageImpl (parseBackendKeyData data) .backendKeyData
  | '2' => parseEmptyBody data .bindComplete
  | '3' => parseEmptyBody data .closeComplete
  | 'C' => parseAnyMessageImpl (parseCommandComplete data) .commandComplete
  | 'd' => .ok (.copyData data)
  | 'c' => parseEmptyBody data .copyDone
  | 'G' => parseAnyMessageImpl (parseCopyResponse data) .copyInResponse
  | 'H' => parseAnyMessageImpl (parseCopyResponse data) .copyOutResponse
  | 'W' => parseAnyMessageImpl (parseCopyResponse data) .copyBothResponse
  | 'D' => parseAnyMessageImpl (parseDataRow data) .dataRow
  | 'I' => parseEmptyBody data .emptyQueryResponse
  | 'E' => parseAnyMessageImpl (parseErrorNotice data) .errorResponse
  | 'v' => parseAnyMessageImpl (parseNegotiateProtocolVersion data) .negotiateProtocolVersion
  | 'n' => parseEmptyBody data .noData
  | 'N' => parseAnyMessageImpl (parseErrorNotice data) .noticeResponse
  | 'A' => parseAnyMessageImpl (parseNotificationResponse data) .notificationResponse
  | 't' => parseAnyMessageImpl (parseParameterDescription data) .parameterDescription
  | 'S' => parseAnyMessageImpl (parseParameterStatus data) .parameterStatus
  | '1' => parseEmptyBody data .parseComplete
  | 's' => parseEmptyBody data .portalSuspended
  | 'Z' => parseAnyMessageImpl (parseReadyForQuery data) .readyForQuery
  | 'T' => parseAnyMessageImpl (parseRowDescription data) .rowDescription
  | _ => .error ClientErrc.protocolValueError.code

/-- The `backend_message_type` of a message; the kinds `parse_any_message` never returns have
    none. -/
def AnyBackendMessage.messageType? : AnyBackendMessage → Option Char
  | .authenticationOk | .authenticationKerberosV5 | .authenticationCleartextPassword
  | .authenticationMd5Password _ | .authenticationGss | .authenticationGssContinue _
  | .authenticationSspi | .authenticationSasl _ | .authenticationSaslContinue _
  | .authenticationSaslFinal _ => some 'R'
  | .backendKeyData _ => some 'K'
  | .bindComplete => some '2'
  | .closeComplete => some '3'
  | .commandComplete _ => some 'C'
  | .copyData _ => some 'd'
  | .copyDone => some 'c'
  | .copyInResponse _ => some 'G'
  | .copyOutResponse _ => some 'H'
  | .copyBothResponse _ => some 'W'
  | .dataRow _ => some 'D'
  | .emptyQueryResponse => some 'I'
  | .errorResponse _ => some 'E'
  | .negotiateProtocolVersion _ => some 'v'
  | .noData => some 'n'
  | .noticeResponse _ => some 'N'
  | .notificationResponse _ => some 'A'
  | .parameterDescription _ => some 't'
  | .parameterStatus _ => some 'S'
  | .parseComplete => some '1'
  | .portalSuspended => some 's'
  | .readyForQuery _ => some 'Z'
  | .rowDescription _ => some 'T'
  | .none | .copyFail _ | .fieldDescription _ => Option.none

/-- A parsed body: its parser reports no error, and its value is the message. -/
theorem parseAnyMessageImpl_ok {α : Type} {r : ErrorCode × α} {wrap : α → AnyBackendMessage}
    {m : AnyBackendMessage} :
    parseAnyMessageImpl r wrap = .ok m ↔ r.1.failed = false ∧ wrap r.2 = m := by
  unfold parseAnyMessageImpl
  split
  · rename_i hf
    exact ⟨fun h => (by cases h), fun h => absurd hf (by simp [h.1])⟩
  · rename_i hf
    exact ⟨fun h => ⟨by simpa using hf, Except.ok.inj h⟩, fun h => congrArg _ h.2⟩

theorem parseEmptyBody_ok {data : Bytes} {msg m : AnyBackendMessage} :
    parseEmptyBody data msg = .ok m ↔ data = [] ∧ msg = m := by
  unfold parseEmptyBody
  rw [parseAnyMessageImpl_ok]
  cases data <;> simp [checkEmpty]

theorem parseAuthenticationRequest_type {data : Bytes} {m : AnyBackendMessage}
    (h : parseAuthenticationRequest data = .ok m) : m.messageType? = some 'R' := by
  unfold parseAuthenticationRequest parseAuthenticationKind at h
  split at h
  · cases h
  · split at h
    case h_4 | h_8 =>
      obtain ⟨_, rfl⟩ := parseAnyMessageImpl_ok.mp h
      rfl
    case h_6 | h_9 | h_10 =>
      cases h
      rfl
    case h_11 => cases h
    all_goals
      obtain ⟨_, rfl⟩ := parseEmptyBody_ok.mp h
      rfl

/-- **The type of a parsed message is the type byte it was parsed with.** -/
theorem parseAnyMessage_type {messageType : UInt8} {data : Bytes} {m : AnyBackendMessage}
    (h : parseAnyMessage messageType data = .ok m) :
    m.messageType? = some (Char.ofNat messageType.toNat) := by
  unfold parseAnyMessage at h
  split at h <;> rename_i hc
  case h_1 => exact hc ▸ parseAuthenticationRequest_type h
  case h_6 =>
    cases h
    exact hc ▸ rfl
  case h_24 => cases h
  all_goals
    rw [hc]
    obtain ⟨_, rfl⟩ := parseAnyMessageImpl_ok.mp h
    rfl

/-! ## 3. The codes of a body

No body parser can return `needs_more`. -/

section
open ParseContext

theorem checkEmpty_code (data : Bytes) : ParseCode (checkEmpty data) := by
  unfold checkEmpty
  split
  · exact .success
  · exact .extraBytes

theorem countStrings_ok {ctx : ParseContext} (h : ctx.Ok) (n : Nat) :
    (countStrings ctx n).2.Ok := by
  induction ctx, n using countStrings.induct with
  | case1 ctx n hnil =>
    rw [countStrings, dif_pos hnil]
    exact h.getString
  | case2 ctx n hne ih =>
    rw [countStrings, dif_neg hne]
    exact ih h.getString

theorem checkFmtCodes_ok (shouldBeText : Bool) : ∀ (n : Nat) {ctx : ParseContext}, ctx.Ok →
    (checkFmtCodes shouldBeText n ctx).Ok
  | 0, _, h => h
  | n + 1, ctx, h => by
      have h2 := h.getIntegral 2
      unfold checkFmtCodes
      refine checkFmtCodes_ok shouldBeText n ?_
      split
      · exact h2.addError .protocolValueError
      · exact h2

theorem checkColumns_ok : ∀ (n : Nat) {ctx : ParseContext}, ctx.Ok → (checkColumns n ctx).Ok
  | 0, _, h => h
  | n + 1, ctx, h => by
      have h4 := h.getIntegral 4
      unfold checkColumns
      refine checkColumns_ok n ?_
      split
      · exact h4
      · split
        · exact h4.checkSizeAndAdvance _
        · exact h4.addError .protocolValueError

theorem skipStrings_ok : ∀ (n : Nat) {ctx : ParseContext}, ctx.Ok → (skipStrings n ctx).Ok
  | 0, _, h => h
  | n + 1, _, h => skipStrings_ok n h.getString

theorem checkFields_ok : ∀ (n : Nat) {ctx : ParseContext}, ctx.Ok → (checkFields n ctx).Ok
  | 0, _, h => h
  | n + 1, ctx, h => by
      have h2 := (h.getString.checkSizeAndAdvance (fieldDescriptionFixedSize - 2)).getIntegral 2
      unfold checkFields
      refine checkFields_ok n ?_
      split
      · exact h2.addError .protocolValueError
      · exact h2

theorem errorNoticeLoop_ok {ctx : ParseContext} (h : ctx.Ok) (fields : ErrorNoticeFields) :
    (errorNoticeLoop ctx fields).1.Ok := by
  induction ctx, fields using errorNoticeLoop.induct with
  | case1 ctx fields hz =>
    rw [errorNoticeLoop, dif_pos hz]
    exact h.getByte
  | case2 ctx fields hnz r ih =>
    rw [errorNoticeLoop, dif_neg hnz]
    refine ih ?_
    rcases populateField_ctx ctx.getByte.2 ctx.getByte.1 fields with hp | hp
    · exact hp ▸ h.getByte
    · exact hp ▸ h.getByte.getString

theorem parseCopyResponse_code (data : Bytes) : ParseCode (parseCopyResponse data).1 := by
  have h := (ok_mk data).getByte
  unfold parseCopyResponse
  simp only
  split
  · exact (h.addError .protocolValueError).check
  · exact (checkFmtCodes_ok _ _ (h.getNonnegativeIntegral 2)).check

theorem parseReadyForQuery_code (data : Bytes) : ParseCode (parseReadyForQuery data).1 := by
  have h := (ok_mk data).getByte
  unfold parseReadyForQuery
  simp only
  split
  · exact h.check
  · exact (h.addError .protocolValueError).check

theorem parseErrorNotice_code (data : Bytes) : ParseCode (parseErrorNotice data).1 :=
  (errorNoticeLoop_ok (ok_mk data) {}).check

variable {ec : ErrorCode}

theorem parseAnyMessageImpl_code {α : Type} {r : ErrorCode × α} {wrap : α → AnyBackendMessage}
    (hr : ParseCode r.1) (h : parseAnyMessageImpl r wrap = .error ec) :
    ec.failed = true ∧ ParseCode ec := by
  unfold parseAnyMessageImpl at h
  split at h
  · rename_i hf
    cases h
    exact ⟨hf, hr⟩
  · cases h

theorem parseEmptyBody_code {data : Bytes} {msg : AnyBackendMessage}
    (h : parseEmptyBody data msg = .error ec) : ec.failed = true ∧ ParseCode ec :=
  parseAnyMessageImpl_code (checkEmpty_code data) h

theorem parseAuthenticationRequest_code {data : Bytes}
    (h : parseAuthenticationRequest data = .error ec) : ec.failed = true ∧ ParseCode ec := by
  unfold parseAuthenticationRequest parseAuthenticationKind at h
  split at h
  · cases h
    exact ⟨rfl, .incompleteMessage⟩
  · split at h
    case h_4 => exact parseAnyMessageImpl_code ((ok_mk _).getByteArray 4).check h
    case h_8 => exact parseAnyMessageImpl_code (countStrings_ok (ok_mk _) 0).check h
    all_goals first
      | exact parseEmptyBody_code h
      | (cases h; done)
      | (cases h; exact ⟨rfl, .protocolValueError⟩)

/-- **A body that cannot be parsed is never reported as `needs_more`.** -/
theorem parseAnyMessage_code {messageType : UInt8} {data : Bytes}
    (h : parseAnyMessage messageType data = .error ec) : ec.failed = true ∧ ParseCode ec := by
  have hctx := ok_mk data
  unfold parseAnyMessage at h
  split at h
  · exact parseAuthenticationRequest_code h
  · exact parseAnyMessageImpl_code ((hctx.getIntegral 4).getIntegral 4).check h
  · exact parseEmptyBody_code h
  · exact parseEmptyBody_code h
  · exact parseAnyMessageImpl_code hctx.getString.check h
  · cases h
  · exact parseEmptyBody_code h
  · exact parseAnyMessageImpl_code (parseCopyResponse_code data) h
  · exact parseAnyMessageImpl_code (parseCopyResponse_code data) h
  · exact parseAnyMessageImpl_code (parseCopyResponse_code data) h
  · exact parseAnyMessageImpl_code (checkColumns_ok _ (hctx.getNonnegativeIntegral 2)).check h
  · exact parseEmptyBody_code h
  · exact parseAnyMessageImpl_code (parseErrorNotice_code data) h
  · exact parseAnyMessageImpl_code
      (skipStrings_ok _ ((hctx.getNonnegativeIntegral 4).getNonnegativeIntegral 4)).check h
  · exact parseEmptyBody_code h
  · exact parseAnyMessageImpl_code (parseErrorNotice_code data) h
  · exact parseAnyMessageImpl_code (hctx.getIntegral 4).getString.getString.check h
  · exact parseAnyMessageImpl_code
      ((hctx.getNonnegativeIntegral 2).checkSizeAndAdvance _).check h
  · exact parseAnyMessageImpl_code hctx.getString.getString.check h
  · exact parseEmptyBody_code h
  · exact parseEmptyBody_code h
  · exact parseAnyMessageImpl_code (parseReadyForQuery_code data) h
  · exact parseAnyMessageImpl_code (checkFields_ok _ (hctx.getNonnegativeIntegral 2)).check h
  · cases h
    exact ⟨rfl, .protocolValueError⟩

end

/-! ## 4. `parse_message` -/

/-- `message_header`. -/
structure MessageHeader where
  type : UInt8
  size : Int
  deriving DecidableEq, Repr

/-- `parse_header`: a type byte and a length that counts itself. -/
def parseHeader (bytes : Bytes) : Except ErrorCode MessageHeader :=
  let size := loadBigSigned ((bytes.drop 1).take 4)
  if size < 4 then .error ClientErrc.protocolValueError.code
  else .ok { type := bytes.headD 0, size }

/-- `parse_message_result`. -/
structure ParseMessageResult where
  ec : ErrorCode
  message : AnyBackendMessage := .none
  size : Nat := 0
  deriving DecidableEq, Repr

/-- The length of a message with this header: the type byte is not counted in `size`. -/
def MessageHeader.requiredSize (header : MessageHeader) : Nat := (header.size + 1).toNat

/-- `parse_message`. -/
def parseMessage (data : Bytes) : ParseMessageResult :=
  if data.length < 5 then { ec := ClientErrc.needsMore.code, size := 5 - data.length }
  else
    match parseHeader (data.take 5) with
    | .error ec => { ec }
    | .ok header =>
      let requiredSize := header.requiredSize
      if data.length < requiredSize then
        { ec := ClientErrc.needsMore.code, size := requiredSize - data.length }
      else
        match parseAnyMessage header.type ((data.drop 5).take (requiredSize - 5)) with
        | .error ec => { ec }
        | .ok message => { ec := .success, message, size := requiredSize }

theorem parseHeader_size {bytes : Bytes} {header : MessageHeader}
    (h : parseHeader bytes = .ok header) : 5 ≤ header.requiredSize := by
  unfold parseHeader at h
  simp only at h
  split at h
  · cases h
  · cases h
    simp only [MessageHeader.requiredSize]
    omega

/-- No message is longer than `2 ^ 31` bytes. -/
theorem parseHeader_le {bytes : Bytes} {header : MessageHeader}
    (h : parseHeader bytes = .ok header) : header.requiredSize ≤ 2 ^ 31 := by
  have hlen : ((bytes.drop 1).take 4).length ≤ 4 := List.length_take_le _ _
  have hlt := loadBigSigned_lt hlen
  unfold parseHeader at h
  simp only at h
  split at h
  · cases h
  · cases h
    simp only [MessageHeader.requiredSize]
    omega

theorem parseHeader_code {bytes : Bytes} {ec : ErrorCode} (h : parseHeader bytes = .error ec) :
    ec.failed = true ∧ ParseCode ec := by
  unfold parseHeader at h
  simp only at h
  split at h
  · cases h
    exact ⟨rfl, .protocolValueError⟩
  · cases h

end NativePg
