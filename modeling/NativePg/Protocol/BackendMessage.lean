/-
  File:      NativePg/Protocol/BackendMessage.lean
  Subject:   The messages a server can send (`any_backend_message`), as data.

  A `std::string_view` and a `std::span<const unsigned char>` are their bytes (`Bytes`). The two
  view classes of views.hpp keep what their C++ objects keep: a number of items and the bytes
  the items are read from (`ForwardParsingView`, `RandomAccessParsingView`); reading an item is
  left to the functions that iterate. The constructors of `AnyBackendMessage` are the
  enumerators of `any_backend_message::kind`, in the header's order.
-/
import NativePg.ErrorCode

namespace NativePg

/-- A run of `unsigned char`. -/
abbrev Bytes := List UInt8

/-- The bytes of an ASCII literal of the source. -/
def ascii (s : String) : Bytes := s.toList.map fun c => c.toNat.toUInt8

/-- What holds of the numbers below 256 holds of the bytes. -/
theorem forall_byte {p : UInt8 → Prop} (h : ∀ n : Fin 256, p n.val.toUInt8) (b : UInt8) : p b := by
  have := h ⟨b.toNat, b.toNat_lt⟩
  simpa using this

/-! ## 1. Views -/

/-- `forward_parsing_view<T>`: `size` items of variable length, serialized in `data`. -/
structure ForwardParsingView where
  size : Nat := 0
  data : Bytes := []
  deriving DecidableEq, Repr

/-- `random_access_parsing_view<T>`: `size` items of fixed length; `data` is what lies behind
    the view's pointer, to the end of the message. -/
structure RandomAccessParsingView where
  data : Bytes := []
  size : Nat := 0
  deriving DecidableEq, Repr

/-! ## 2. Message bodies -/

/-- `format_code`. -/
inductive FormatCode where
  | text
  | binary
  deriving DecidableEq, Repr

/-- `transaction_status`. -/
inductive TransactionStatus where
  | idle
  | inTransaction
  | failed
  deriving DecidableEq, Repr

/-- `error_notice_fields`: the fields errors and notices share, all optional. -/
structure ErrorNoticeFields where
  severity : Option Bytes := none
  localizedSeverity : Option Bytes := none
  sqlstate : Option Bytes := none
  message : Option Bytes := none
  detail : Option Bytes := none
  hint : Option Bytes := none
  position : Option Bytes := none
  internalPosition : Option Bytes := none
  internalQuery : Option Bytes := none
  where_ : Option Bytes := none
  schemaName : Option Bytes := none
  tableName : Option Bytes := none
  columnName : Option Bytes := none
  dataTypeName : Option Bytes := none
  constraintName : Option Bytes := none
  fileName : Option Bytes := none
  lineNumber : Option Bytes := none
  routine : Option Bytes := none
  deriving DecidableEq, Repr

/-- `error_response` and `notice_response` derive from the shared fields and add nothing. -/
abbrev ErrorResponse := ErrorNoticeFields

/-- `backend_key_data`. -/
structure BackendKeyData where
  processId : Int
  secretKey : Int
  deriving DecidableEq, Repr

/-- `copy_in_response`, `copy_out_response` and `copy_both_response` have the same fields. -/
structure CopyResponse where
  overallFmtCode : FormatCode
  fmtCodes : RandomAccessParsingView
  deriving DecidableEq, Repr

/-- `negotiate_protocol_version`. -/
structure NegotiateProtocolVersion where
  minorVersion : Int
  nonRecognizedOptions : ForwardParsingView
  deriving DecidableEq, Repr

/-- `notification_response`. -/
structure NotificationResponse where
  processId : Int
  channelName : Bytes
  payload : Bytes
  deriving DecidableEq, Repr

/-- `parameter_status`. -/
structure ParameterStatus where
  name : Bytes
  value : Bytes
  deriving DecidableEq, Repr

/-- `field_description`. -/
structure FieldDescription where
  name : Bytes
  tableOid : Int
  columnAttribute : Int
  typeOid : Int
  typeLength : Int
  typeModifier : Int
  fmtCode : FormatCode
  deriving DecidableEq, Repr

/-- `row_description`; `row_description{}` is the empty one. -/
structure RowDescription where
  fieldDescriptions : ForwardParsingView := {}
  deriving DecidableEq, Repr

/-- `data_row`. -/
structure DataRow where
  columns : ForwardParsingView := {}
  deriving DecidableEq, Repr

/-! ## 3. Any message -/

/-- `any_backend_message`. -/
inductive AnyBackendMessage where
  | none
  | authenticationOk
  | authenticationKerberosV5
  | authenticationCleartextPassword
  | authenticationMd5Password (salt : Bytes)
  | authenticationGss
  | authenticationGssContinue (data : Bytes)
  | authenticationSspi
  | authenticationSasl (mechanisms : ForwardParsingView)
  | authenticationSaslContinue (data : Bytes)
  | authenticationSaslFinal (data : Bytes)
  | backendKeyData (m : BackendKeyData)
  | bindComplete
  | closeComplete
  | commandComplete (tag : Bytes)
  | copyData (data : Bytes)
  | copyDone
  | copyFail (errorMessage : Bytes)
  | copyInResponse (m : CopyResponse)
  | copyOutResponse (m : CopyResponse)
  | copyBothResponse (m : CopyResponse)
  | dataRow (m : DataRow)
  | emptyQueryResponse
  | errorResponse (m : ErrorResponse)
  | negotiateProtocolVersion (m : NegotiateProtocolVersion)
  | noData
  | noticeResponse (m : ErrorNoticeFields)
  | notificationResponse (m : NotificationResponse)
  | parameterDescription (parameterTypeOids : RandomAccessParsingView)
  | parameterStatus (m : ParameterStatus)
  | parseComplete
  | portalSuspended
  | readyForQuery (status : TransactionStatus)
  | fieldDescription (m : FieldDescription)
  | rowDescription (m : RowDescription)
  deriving DecidableEq, Repr

/-- The messages the server may send at any moment: `notice_response`, `notification_response`
    and `parameter_status`. `read_response_fsm::resume` and `multiplexer::on_message` both test
    for exactly these three. -/
def AnyBackendMessage.isAsync : AnyBackendMessage → Bool
  | .noticeResponse _ => true
  | .notificationResponse _ => true
  | .parameterStatus _ => true
  | _ => false

/-- Is this `ready_for_query`? -/
def AnyBackendMessage.isReadyForQuery : AnyBackendMessage → Bool
  | .readyForQuery _ => true
  | _ => false

theorem AnyBackendMessage.isReadyForQuery_of_isAsync {m : AnyBackendMessage}
    (h : m.isAsync = true) : m.isReadyForQuery = false := by
  cases m <;> first | rfl | cases h

end NativePg
