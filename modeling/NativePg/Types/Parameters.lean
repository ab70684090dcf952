/-
  File:      NativePg/Types/Parameters.lean
  Subject:   Values as the parameters of a query (include/nativepg/parameter_ref.hpp,
             `serialize_field_traits` of include/nativepg/detail/field_traits_base.hpp).

  * `ParamType`, `Param` -- the types that can be parameters, and their values;
  * `Param.serialize` -- the encoders of the two formats. `serialize_eq`: they append `Param.bytes`,
    whatever is in the buffer, and do not fail;
  * `Param.ref` -- `parameter_ref`;
  * `readParam` -- what a server makes of the bytes of a parameter, from the OID of its type and its
    format. **`readParam_bytes`**: it is the value, in both formats.
-/
import NativePg.RequestBuilder
import NativePg.Types.Integers

namespace NativePg

namespace Types

open BigEndian (ofInt)

/-! ## 1. Types and values -/

/-- The types with a `serialize_field_traits`; `text` is whatever converts to `std::string_view`. -/
inductive ParamType where
  | int16
  | int32
  | int64
  | text
  deriving DecidableEq, Repr

/-- `serialize_field_traits<T>::oid`. -/
def ParamType.oid : ParamType → Int32
  | int16 => 21
  | int32 => 23
  | int64 => 20
  | text => 25

/-- A value of one of these types. -/
inductive Param where
  | int16 (value : IntType.int16.Value)
  | int32 (value : IntType.int32.Value)
  | int64 (value : IntType.int64.Value)
  | text (value : Bytes)
  deriving DecidableEq

/-! ## 2. The encoders -/

/-- `serialize_text_text`. -/
def serializeTextText (value to_ : Bytes) : ErrorCode × Bytes := (.success, to_ ++ value)

/-- `serialize_binary_text`. -/
def serializeBinaryText (value to_ : Bytes) : ErrorCode × Bytes := (.success, to_ ++ value)

/-- What a function appends to an empty buffer, and its code. -/
def appended (f : Bytes → Checked (ErrorCode × Bytes)) : ErrorCode × Bytes :=
  (f []).toOption.getD (.success, [])

namespace Param

def type : Param → ParamType
  | int16 _ => .int16
  | int32 _ => .int32
  | int64 _ => .int64
  | text _ => .text

/-- `serialize_field_traits<T>::serialize_text`. -/
def serializeText : Param → Bytes → Checked (ErrorCode × Bytes)
  | int16 value, to_ => serializeTextInt value to_
  | int32 value, to_ => serializeTextInt value to_
  | int64 value, to_ => serializeTextInt value to_
  | text value, to_ => pure (serializeTextText value to_)

/-- `serialize_field_traits<T>::serialize_binary`. -/
def serializeBinary : Param → Bytes → Checked (ErrorCode × Bytes)
  | int16 value, to_ => serializeBinaryInt value to_
  | int32 value, to_ => serializeBinaryInt value to_
  | int64 value, to_ => serializeBinaryInt value to_
  | text value, to_ => pure (serializeBinaryText value to_)

/-- The one or the other. -/
def serialize : FormatCode → Param → Bytes → Checked (ErrorCode × Bytes)
  | .text => serializeText
  | .binary => serializeBinary

/-- `parameter_ref`, made from a value. -/
def ref (p : Param) : ParameterRef where
  typeOid := p.type.oid
  serializeText := appended p.serializeText
  serializeBinary := appended p.serializeBinary

/-- The bytes of a value in a format. -/
def bytes (format : FormatCode) : Param → Bytes
  | int16 value => form value
  | int32 value => form value
  | int64 value => form value
  | text value => value
where
  form {T : IntType} (value : T.Value) : Bytes :=
    match format with
    | .text => printInteger value.val
    | .binary => ofInt T.size value.val

/-- **The encoders append the bytes of the value**, whatever is in the buffer. -/
theorem serialize_eq (format : FormatCode) (p : Param) (to_ : Bytes) :
    p.serialize format to_ = .ok (.success, to_ ++ p.bytes format) := by
  cases format with
  | text =>
    cases p with
    | int16 value => exact serializeTextInt_eq value to_
    | int32 value => exact serializeTextInt_eq value to_
    | int64 value => exact serializeTextInt_eq value to_
    | text value => rfl
  | binary =>
    cases p with
    | int16 value => exact serializeBinaryInt_eq value to_
    | int32 value => exact serializeBinaryInt_eq value to_
    | int64 value => exact serializeBinaryInt_eq value to_
    | text value => rfl

theorem appended_serialize (format : FormatCode) (p : Param) :
    appended (p.serialize format) = (.success, p.bytes format) := by
  rw [appended, serialize_eq]
  rfl

theorem ref_eq (p : Param) :
    p.ref = ⟨p.type.oid, (.success, p.bytes .text), (.success, p.bytes .binary)⟩ := by
  rw [← appended_serialize, ← appended_serialize]
  rfl

/-- The server takes the value; it may reject a text, for its encoding or for a NUL. -/
def valid (validText : Bytes → Bool) : Param → Bool
  | text value => validText value
  | _ => true

end Param

/-! ## 3. What a server reads -/

/-- The type with this OID. -/
def ParamType.ofOid (oid : Int) : Option ParamType :=
  if oid = 21 then some .int16
  else if oid = 23 then some .int32
  else if oid = 20 then some .int64
  else if oid = 25 then some .text
  else none

/-- An integer: decimal digits, or big-endian in as many bytes as the type has. -/
def readInt (T : IntType) (format : FormatCode) (data : Bytes) : Option T.Value := do
  let z ← match format with
    | .text => Decimal.readInteger data
    | .binary => if data.length = T.size then some (BigEndian.toInt data) else none
  if h : T.Holds z then some ⟨z, h⟩ else none

/-- The value of a parameter whose type has this OID. -/
def readParam (validText : Bytes → Bool) (oid : Int) (format : FormatCode) (data : Bytes) :
    Option Param := do
  match ← ParamType.ofOid oid with
  | .int16 => (readInt .int16 format data).map .int16
  | .int32 => (readInt .int32 format data).map .int32
  | .int64 => (readInt .int64 format data).map .int64
  | .text => if validText data then some (.text data) else none

/-- A signed integer is read in both formats. -/
theorem readInt_form {T : IntType} (hsigned : T.signed = true) (format : FormatCode)
    (value : T.Value) : readInt T format (Param.bytes.form format value) = some value := by
  have hholds := value.property
  unfold readInt Param.bytes.form
  cases format with
  | text =>
    have hread := Decimal.readInteger_iff.mpr (denotes_printInteger value).1
    simp only [hread, Option.bind_eq_bind, Option.bind_some]
    rw [dif_pos hholds]
  | binary =>
    have hfits : BigEndian.Fits T.size value.val := by
      rwa [IntType.Holds, if_pos hsigned] at hholds
    simp only [BigEndian.length_ofInt, if_true, BigEndian.toInt_ofInt hfits, Option.bind_eq_bind,
      Option.bind_some]
    rw [dif_pos hholds]

theorem ParamType.ofOid_oid (T : ParamType) : ofOid T.oid.toInt = some T := by
  cases T <;> rfl

/-- **A server reads the value**, in both formats. -/
theorem readParam_bytes (validText : Bytes → Bool) (format : FormatCode) (p : Param) :
    readParam validText p.type.oid.toInt format (p.bytes format) =
      if p.valid validText then some p else none := by
  unfold readParam
  rw [ParamType.ofOid_oid]
  cases p with
  | int16 value => exact congrArg (Option.map Param.int16) (readInt_form rfl format value)
  | int32 value => exact congrArg (Option.map Param.int32) (readInt_form rfl format value)
  | int64 value => exact congrArg (Option.map Param.int64) (readInt_form rfl format value)
  | text value => rfl

end Types

end NativePg
