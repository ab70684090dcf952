/-
  File:      NativePg/Types/Integers.lean
  Subject:   Fields of the integer types (include/nativepg/types/base.hpp,
             include/nativepg/detail/field_traits_base.hpp).

  * `IntType`, `IntType.Value` -- the types, and the integers each holds;
  * `fromChars`, `parseTextToNumber`, `parseBinaryInt` -- the decoders of the two formats;
    `parseField`: the field traits, which widen what they read from a narrower column;
  * `serializeTextInt`, `serializeBinaryInt` -- the encoders;
  * `Denotes` -- an optional minus sign, where the type is signed, and digits. `fromChars_whole`,
    `parseTextToNumber_iff`, `parseField_eq`: what is decoded;
  * **`integer_fields_exactly`** -- a text is decoded exactly where it denotes an integer of the type
    of the column if and only if it is not empty. `empty_text_accepted`: an empty one is a success,
    and the value is what was there before.
-/
import Mathlib.Data.List.TakeWhile
import NativePg.Protocol.SerializationContext
import NativePg.Types.PrintedIntervals

namespace NativePg

namespace Types

open BigEndian (Fits ofInt)
open Decimal (AllDigits IsInteger digits isDigit value)

/-! ## 1. The types -/

/-- The integer types fields are decoded to; `std::uint32_t` is that of OIDs. -/
inductive IntType where
  | int16
  | int32
  | int64
  | uint32
  deriving DecidableEq

namespace IntType

/-- `sizeof(T)`. -/
def size : IntType → Nat
  | int16 => 2
  | int32 => 4
  | int64 => 8
  | uint32 => 4

/-- `std::is_signed_v<T>`. -/
def signed : IntType → Bool
  | uint32 => false
  | _ => true

/-- The type of a column of these integers: `int2_oid`, `int4_oid`, `int8_oid`, `oid_oid`. -/
def oid : IntType → Int
  | int16 => 21
  | int32 => 23
  | int64 => 20
  | uint32 => 26

/-- The type holds this integer. -/
def Holds (T : IntType) (z : Int) : Prop :=
  if T.signed = true then Fits T.size z else 0 ≤ z ∧ z < 256 ^ T.size

instance (T : IntType) (z : Int) : Decidable (T.Holds z) :=
  inferInstanceAs (Decidable (if T.signed = true then Fits T.size z else 0 ≤ z ∧ z < 256 ^ T.size))

/-- The values of a type. -/
abbrev Value (T : IntType) := {z : Int // T.Holds z}

theorem holds_zero (T : IntType) : T.Holds 0 := by cases T <;> decide

/-- `T value{}`. -/
def zero (T : IntType) : T.Value := ⟨0, T.holds_zero⟩

theorem holds_int16 {z : Int} : int16.Holds z ↔ -32768 ≤ z ∧ z ≤ 32767 := by
  change Fits 2 z ↔ _
  unfold Fits
  omega

theorem holds_int32 {z : Int} : int32.Holds z ↔ -2147483648 ≤ z ∧ z ≤ 2147483647 :=
  BigEndian.fits_four_iff

theorem holds_int64 {z : Int} :
    int64.Holds z ↔ -9223372036854775808 ≤ z ∧ z ≤ 9223372036854775807 := BigEndian.fits_eight_iff

theorem holds_uint32 {z : Int} : uint32.Holds z ↔ 0 ≤ z ∧ z < 4294967296 := Iff.rfl

theorem int32_holds_int16 (z : Int) (h : int16.Holds z) : int32.Holds z := by
  rw [holds_int16] at h
  rw [holds_int32]
  omega

theorem int64_holds_int32 (z : Int) (h : int32.Holds z) : int64.Holds z := by
  rw [holds_int32] at h
  rw [holds_int64]
  omega

theorem int64_holds_int16 (z : Int) (h : int16.Holds z) : int64.Holds z :=
  int64_holds_int32 z (int32_holds_int16 z h)

/-- All of them have twenty digits at most. -/
theorem Holds.natAbs_lt {T : IntType} {z : Int} (h : T.Holds z) : z.natAbs < 10 ^ 20 := by
  cases T with
  | int16 =>
    rw [holds_int16] at h
    omega
  | int32 =>
    rw [holds_int32] at h
    omega
  | int64 =>
    rw [holds_int64] at h
    omega
  | uint32 =>
    rw [holds_uint32] at h
    omega

/-- `to = value`, where `to` has the wider type. -/
def widen {S T : IntType} (h : ∀ z, S.Holds z → T.Holds z) (value : S.Value) : T.Value :=
  ⟨value.val, h value.val value.property⟩

end IntType

open IntType

/-! ## 2. The decoders -/

/-- The minus sign of a text, if the type has one, and what lies behind it. -/
def minusSign (T : IntType) : Bytes → Bool × Bytes
  | [] => (false, [])
  | c :: rest => if T.signed = true ∧ c = 45 then (true, rest) else (false, c :: rest)

/-- `std::from_chars`: the number, and what lies behind its digits. -/
def fromChars (T : IntType) (p : Bytes) : Except ErrorCode (T.Value × Bytes) :=
  let (minus, p) := minusSign T p
  let digits := p.takeWhile isDigit
  let num : Int := if minus = true then -value digits else value digits
  if digits = [] then .error ⟨22, .generic⟩
  else if h : T.Holds num then .ok (⟨num, h⟩, p.dropWhile isDigit)
  else .error ⟨34, .generic⟩

/-- `parse_text_to_number`: the code, and the output. -/
def parseTextToNumber (T : IntType) (sv : Bytes) (to_ : T.Value) : ErrorCode × T.Value :=
  match fromChars T sv with
  | .ok (result, []) => (.success, result)
  | _ => if sv.length ≠ 0 then (ClientErrc.protocolValueError.code, to_) else (.success, to_)

/-- `boost::endian::endian_load<T, sizeof(T), boost::endian::order::big>`. -/
def endianLoad (T : IntType) (data : Bytes) (h : data.length = T.size) : T.Value :=
  ⟨if T.signed = true then BigEndian.toInt data else BigEndian.toNat data, by
    unfold Holds
    split
    · exact h ▸ BigEndian.fits_toInt data
    · have hlt := BigEndian.toNat_lt data
      rw [h] at hlt
      exact ⟨Int.natCast_nonneg _, by exact_mod_cast hlt⟩⟩

/-- A decoder of one format: the code, and the output. -/
abbrev Decoder := (T : IntType) → Bytes → T.Value → ErrorCode × T.Value

/-- `parse_text_int`, and `parse_text_oid` for `std::uint32_t`. -/
def parseTextInt : Decoder := parseTextToNumber

/-- `parse_binary_int`, and `parse_binary_oid` for `std::uint32_t`. -/
def parseBinaryInt : Decoder := fun T data to_ =>
  if h : data.length = T.size then (.success, endianLoad T data h)
  else (ClientErrc.protocolValueError.code, to_)

/-- The types of columns `parse_field_traits<T>` accepts. -/
def IntType.accepted : IntType → List Int
  | int16 => [int16.oid]
  | int32 => [int32.oid, int16.oid]
  | int64 => [int64.oid, int32.oid, int16.oid]
  | uint32 => [uint32.oid]

/-- `parse_field_traits<T>::is_compatible`. -/
def isCompatible (T : IntType) (typeOid : Int) : ErrorCode :=
  if typeOid ∈ T.accepted then .success else ClientErrc.incompatibleFieldType.code

/-- `S value{}; const auto ec = parse(from, value); to = value; return ec;` -/
def widened (parse : Decoder) {S T : IntType} (h : ∀ z, S.Holds z → T.Holds z) (data : Bytes) :
    ErrorCode × T.Value :=
  let (ec, value) := parse S data S.zero
  (ec, widen h value)

/-- `parse_field_traits<T>::parse_text` and `parse_field_traits<T>::parse_binary`, whose decoder is
    `parse`. -/
def parseField (parse : Decoder) (T : IntType) (from_ : Option Bytes) (typeOid : Int) (to_ : T.Value) :
    Checked (ErrorCode × T.Value) :=
  match from_ with
  | none => pure (ClientErrc.unexpectedNull.code, to_)
  | some data =>
    match T, to_ with
    | .int16, to_ =>
      if typeOid = int16.oid then pure (parse .int16 data to_) else .error .assertion
    | .int32, to_ =>
      if typeOid = int16.oid then pure (widened parse int32_holds_int16 data)
      else if typeOid = int32.oid then pure (parse .int32 data to_)
      else .error .assertion
    | .int64, to_ =>
      if typeOid = int16.oid then pure (widened parse int64_holds_int16 data)
      else if typeOid = int32.oid then pure (widened parse int64_holds_int32 data)
      else if typeOid = int64.oid then pure (parse .int64 data to_)
      else .error .assertion
    | .uint32, to_ =>
      if typeOid = uint32.oid then pure (parse .uint32 data to_) else .error .assertion

/-- `parse_field_traits<T>::parse_text`. -/
def parseTextField : (T : IntType) → Option Bytes → Int → T.Value → Checked (ErrorCode × T.Value) :=
  parseField parseTextInt

/-- `parse_field_traits<T>::parse_binary`. -/
def parseBinaryField : (T : IntType) → Option Bytes → Int → T.Value → Checked (ErrorCode × T.Value) :=
  parseField parseBinaryInt

/-! ## 3. The encoders -/

/-- `std::to_chars`, to a buffer with so much room. -/
def toChars (room : Nat) (z : Int) : Except ErrorCode Bytes :=
  if (printInteger z).length ≤ room then .ok (printInteger z) else .error ⟨75, .generic⟩

/-- `serialize_text_int`, of `serialize_field_traits<T>::serialize_text`: the code, and the
    buffer. -/
def serializeTextInt {T : IntType} (value : T.Value) (to_ : Bytes) : Checked (ErrorCode × Bytes) :=
  match toChars 512 value.val with
  | .error ec => pure (ec, to_)
  | .ok chars => pure (.success, to_ ++ chars)

/-- `serialize_binary_int`, of `serialize_field_traits<T>::serialize_binary`: the code, and the
    buffer. -/
def serializeBinaryInt {T : IntType} (value : T.Value) (to_ : Bytes) :
    Checked (ErrorCode × Bytes) := do
  let offset := to_.length
  let to_ ← storeAt (to_ ++ List.replicate T.size 0) offset (ofInt T.size value.val)
  pure (.success, to_)

/-! ## 4. What the decoders read -/

/-- **The text denotes the integer**: an optional minus sign, where the type is signed, and decimal
    digits. -/
def Denotes (T : IntType) (sv : Bytes) (z : Int) : Prop :=
  IsInteger sv z ∧ (T.signed = true ∨ AllDigits sv)

theorem minusSign_of_digits {T : IntType} {ds : Bytes} (hds : AllDigits ds) :
    minusSign T ds = (false, ds) := by
  cases ds with
  | nil => rfl
  | cons c rest =>
    have hc : c ≠ 45 := fun h => by
      have := hds c (List.mem_cons_self ..)
      rw [h] at this
      cases this
    exact if_neg fun h => hc h.2

/-- What is denoted is what the sign and the rest of the text say. -/
theorem denotes_iff {T : IntType} {sv : Bytes} {z : Int} : Denotes T sv z ↔
    ∃ minus ds, minusSign T sv = (minus, ds) ∧ ds ≠ [] ∧ AllDigits ds ∧
      z = if minus = true then -(value ds : Int) else value ds := by
  constructor
  · intro h
    obtain ⟨hint, hsign⟩ := h
    cases hint with
    | nonneg hne hds => exact ⟨false, sv, minusSign_of_digits hds, hne, hds, rfl⟩
    | @neg ds hne hds =>
      have hsigned : T.signed = true := by
        refine hsign.resolve_right fun hall => ?_
        have := hall 45 (List.mem_cons_self ..)
        cases this
      exact ⟨true, ds, if_pos ⟨hsigned, rfl⟩, hne, hds, rfl⟩
  · intro h
    obtain ⟨minus, ds, hminus, hne, hds, rfl⟩ := h
    match sv with
    | [] =>
      cases hminus
      exact absurd rfl hne
    | c :: rest =>
      by_cases hc : T.signed = true ∧ c = 45
      · rw [minusSign, if_pos hc] at hminus
        cases hminus
        obtain ⟨hsigned, rfl⟩ := hc
        exact ⟨.neg hne hds, .inl hsigned⟩
      · rw [minusSign, if_neg hc] at hminus
        cases hminus
        exact ⟨.nonneg hne hds, .inr hds⟩

/-- **A text is read as a whole where it denotes an integer of the type.** -/
theorem fromChars_whole {T : IntType} {sv : Bytes} {v : T.Value} :
    fromChars T sv = .ok (v, []) ↔ Denotes T sv v.val := by
  rw [denotes_iff]
  unfold fromChars
  rcases minusSign T sv with ⟨minus, p⟩
  simp only
  constructor
  · intro h
    by_cases hne : p.takeWhile isDigit = []
    · rw [if_pos hne] at h
      cases h
    rw [if_neg hne] at h
    by_cases hholds : T.Holds
        (if minus = true then -(value (p.takeWhile isDigit) : Int) else value (p.takeWhile isDigit))
    · rw [dif_pos hholds] at h
      have hpair := Except.ok.inj h
      have hds : AllDigits p := List.dropWhile_eq_nil_iff.mp (congrArg Prod.snd hpair)
      have htake : p.takeWhile isDigit = p := List.takeWhile_eq_self_iff.mpr hds
      have hval := congrArg (fun r => r.1.val) hpair
      simp only [htake] at hval
      rw [htake] at hne
      exact ⟨minus, p, rfl, hne, hds, hval.symm⟩
    · rw [dif_neg hholds] at h
      cases h
  · intro h
    obtain ⟨minus', ds, hds, hne, hall, hval⟩ := h
    cases hds
    have htake : p.takeWhile isDigit = p := List.takeWhile_eq_self_iff.mpr hall
    have hdrop : p.dropWhile isDigit = [] := List.dropWhile_eq_nil_iff.mpr hall
    have hholds := v.property
    rw [hval] at hholds
    simp only [htake, hdrop]
    rw [if_neg hne, dif_pos hholds]
    exact congrArg (fun w => Except.ok (w, [])) (Subtype.ext hval.symm)

theorem parseTextToNumber_nil {T : IntType} (to_ : T.Value) :
    parseTextToNumber T [] to_ = (.success, to_) := rfl

/-- What `parse_text_to_number` does with a text that is not empty. -/
theorem parseTextToNumber_iff {T : IntType} {sv : Bytes} (h : sv ≠ []) {to_ v : T.Value} :
    parseTextToNumber T sv to_ = (.success, v) ↔ Denotes T sv v.val := by
  rw [← fromChars_whole]
  unfold parseTextToNumber
  split
  · rename_i result hread
    rw [hread]
    constructor
    · intro heq
      have hval : result = v := congrArg Prod.snd heq
      rw [hval]
    · intro heq
      have hval : result = v := congrArg Prod.fst (Except.ok.inj heq)
      rw [hval]
  · rename_i hother
    constructor
    · intro heq
      rw [if_pos (by rwa [ne_eq, List.length_eq_zero_iff])] at heq
      have hcode : ClientErrc.protocolValueError.code = ErrorCode.success := congrArg Prod.fst heq
      exact absurd hcode (by decide)
    · intro heq
      exact absurd heq (hother v)

theorem parseBinaryInt_ofInt {T : IntType} (v to_ : T.Value) :
    parseBinaryInt T (ofInt T.size v.val) to_ = (.success, v) := by
  have hlen := BigEndian.length_ofInt T.size v.val
  unfold parseBinaryInt
  rw [dif_pos hlen]
  refine Prod.ext rfl (Subtype.ext ?_)
  have hholds := v.property
  unfold Holds at hholds
  change (if T.signed = true then BigEndian.toInt (ofInt T.size v.val)
    else (BigEndian.toNat (ofInt T.size v.val) : Int)) = v.val
  split at hholds
  · rename_i hsigned
    rw [if_pos hsigned, BigEndian.toInt_ofInt hholds]
  · rename_i hunsigned
    rw [if_neg hunsigned, BigEndian.toNat_ofInt, Int.emod_eq_of_lt hholds.1 hholds.2]

/-! ## 5. Fields -/

/-- **A field is decoded as a value of the type of its column**, which `T` holds: `start` is what the
    output of that decoder was. -/
theorem parseField_eq {T : IntType} {typeOid : Int} (h : isCompatible T typeOid = .success) :
    ∃ (S : IntType) (hwide : ∀ z, S.Holds z → T.Holds z), S.oid = typeOid ∧
      ∀ (parse : Decoder) (data : Bytes) (to_ : T.Value), ∃ start : S.Value,
        parseField parse T (some data) typeOid to_ =
          .ok ((parse S data start).1, widen hwide (parse S data start).2) := by
  have hmem : typeOid ∈ T.accepted := by
    unfold isCompatible at h
    split at h
    · assumption
    · exact absurd h (by decide)
  cases T with
  | int16 =>
    obtain rfl := List.mem_singleton.mp hmem
    exact ⟨.int16, fun _ h => h, rfl, fun _ _ to_ => ⟨to_, rfl⟩⟩
  | int32 =>
    rcases List.mem_cons.mp hmem with rfl | hmem
    · exact ⟨.int32, fun _ h => h, rfl, fun _ _ to_ => ⟨to_, rfl⟩⟩
    · obtain rfl := List.mem_singleton.mp hmem
      exact ⟨.int16, int32_holds_int16, rfl, fun _ _ _ => ⟨zero _, rfl⟩⟩
  | int64 =>
    rcases List.mem_cons.mp hmem with rfl | hmem
    · exact ⟨.int64, fun _ h => h, rfl, fun _ _ to_ => ⟨to_, rfl⟩⟩
    · rcases List.mem_cons.mp hmem with rfl | hmem
      · exact ⟨.int32, int64_holds_int32, rfl, fun _ _ _ => ⟨zero _, rfl⟩⟩
      · obtain rfl := List.mem_singleton.mp hmem
        exact ⟨.int16, int64_holds_int16, rfl, fun _ _ _ => ⟨zero _, rfl⟩⟩
  | uint32 =>
    obtain rfl := List.mem_singleton.mp hmem
    exact ⟨.uint32, fun _ h => h, rfl, fun _ _ to_ => ⟨to_, rfl⟩⟩

/-- A column of the type itself is decoded in place. -/
theorem parseField_own (parse : Decoder) (T : IntType) (data : Bytes) (to_ : T.Value) :
    parseField parse T (some data) T.oid to_ = .ok (parse T data to_) := by
  cases T <;> rfl

/-- **`parse_text` succeeds with a value exactly where the text denotes it**, and the type of the
    column holds it. -/
def DecodesExactly (T S : IntType) (sv : Bytes) : Prop :=
  ∀ to_ v : T.Value, parseTextField T (some sv) S.oid to_ = .ok (.success, v) ↔
    Denotes S sv v.val ∧ S.Holds v.val

/-- **Both forms of a value of the column are decoded to it**, whatever the output was. -/
def FormsDecode (T : IntType) {S : IntType} (v : S.Value) : Prop :=
  ∀ to_ : T.Value, ∃ v' : T.Value, v'.val = v.val ∧
    parseTextField T (some (printInteger v.val)) S.oid to_ = .ok (.success, v') ∧
    parseBinaryField T (some (ofInt S.size v.val)) S.oid to_ = .ok (.success, v')

/-- **Both encoders append to the buffer**, and what they append is decoded to the value. -/
def AppendsAndDecodes {T : IntType} (v : T.Value) : Prop :=
  ∀ (to_ : T.Value) (buffer : Bytes), ∃ text binary,
    serializeTextInt v buffer = .ok (.success, buffer ++ text) ∧
    parseTextField T (some text) T.oid to_ = .ok (.success, v) ∧
    serializeBinaryInt v buffer = .ok (.success, buffer ++ binary) ∧
    parseBinaryField T (some binary) T.oid to_ = .ok (.success, v)

section
variable {T S : IntType}

/-- A printed integer denotes itself. -/
theorem denotes_printInteger (v : S.Value) : Denotes S (printInteger v.val) v.val := by
  have hne := Decimal.digits_ne_nil v.val.natAbs
  have hds := Decimal.allDigits_digits v.val.natAbs
  have hvalue := Decimal.value_digits v.val.natAbs
  unfold printInteger
  by_cases hneg : v.val < 0
  · have hint := IsInteger.neg hne hds
    have hz : -(v.val.natAbs : Int) = v.val := by omega
    rw [hvalue, hz] at hint
    have hsigned : S.signed = true := by
      by_contra hunsigned
      have hholds := v.property
      rw [Holds, if_neg hunsigned] at hholds
      omega
    rw [if_pos hneg]
    exact ⟨hint, .inl hsigned⟩
  · have hint := IsInteger.nonneg hne hds
    have hz : (v.val.natAbs : Int) = v.val := by omega
    rw [hvalue, hz] at hint
    rw [if_neg hneg]
    exact ⟨hint, .inr hds⟩

theorem printInteger_ne_nil (z : Int) : printInteger z ≠ [] := by
  unfold printInteger
  split
  · exact List.cons_ne_nil _ _
  · exact Decimal.digits_ne_nil _

theorem parseTextInt_printInteger (v to_ : T.Value) :
    parseTextInt T (printInteger v.val) to_ = (.success, v) :=
  (parseTextToNumber_iff (printInteger_ne_nil v.val)).mpr (denotes_printInteger v)

/-- The buffer of `serialize_text_int` has room for each of the integers. -/
theorem serializeTextInt_eq (v : T.Value) (to_ : Bytes) :
    serializeTextInt v to_ = .ok (.success, to_ ++ printInteger v.val) := by
  have hdigits : (digits v.val.natAbs).length ≤ 20 := Decimal.length_digits_le v.property.natAbs_lt
  have hroom : (printInteger v.val).length ≤ 512 := by
    unfold printInteger
    split
    · rw [List.length_cons]
      omega
    · omega
  unfold serializeTextInt toChars
  rw [if_pos hroom]
  rfl

/-- The bytes are stored over those `resize` adds. -/
theorem serializeBinaryInt_eq (v : T.Value) (to_ : Bytes) :
    serializeBinaryInt v to_ = .ok (.success, to_ ++ ofInt T.size v.val) := by
  have hstore := storeAt_append to_ (List.replicate T.size 0) [] (ofInt T.size v.val) (by simp)
  rw [List.append_nil, List.append_nil] at hstore
  unfold serializeBinaryInt
  simp only [hstore]
  rfl

theorem appendsAndDecodes (v : T.Value) : AppendsAndDecodes v := by
  intro to_ buffer
  refine ⟨_, _, serializeTextInt_eq v buffer, ?_, serializeBinaryInt_eq v buffer, ?_⟩
  · rw [parseTextField, parseField_own, parseTextInt_printInteger]
  · rw [parseBinaryField, parseField_own, parseBinaryInt_ofInt]

end

/-- **A text is decoded exactly if and only if it is not empty**, in a column of every type that is
    accepted. Both forms of every value are decoded to it, and so is what the encoders of the signed
    types append. -/
theorem integer_fields_exactly {T : IntType} {typeOid : Int} (h : isCompatible T typeOid = .success) :
    (∃ S : IntType, S.oid = typeOid ∧ (∀ sv, DecodesExactly T S sv ↔ sv ≠ []) ∧
      ∀ v : S.Value, FormsDecode T v) ∧
    (T.signed = true → ∀ v : T.Value, AppendsAndDecodes v) := by
  refine ⟨?_, fun _ => appendsAndDecodes⟩
  obtain ⟨S, hwide, rfl, hfield⟩ := parseField_eq h
  refine ⟨S, rfl, fun sv => ⟨?_, ?_⟩, ?_⟩
  · intro hexact hnil
    subst hnil
    -- the value is the one the decoder started from
    obtain ⟨start, hread⟩ := hfield parseTextInt [] T.zero
    rw [parseTextInt, parseTextToNumber_nil] at hread
    exact ((hexact _ _).mp hread).1.1.ne_nil rfl
  · intro hne to_ v
    obtain ⟨start, hread⟩ := hfield parseTextInt sv to_
    rw [parseTextField, hread]
    constructor
    · intro heq
      have hpair := Except.ok.inj heq
      have hval : (parseTextInt S sv start).2.val = v.val :=
        congrArg (fun r : ErrorCode × T.Value => r.2.val) hpair
      have hcode : (parseTextInt S sv start).1 = .success := congrArg Prod.fst hpair
      have hresult : parseTextInt S sv start = (.success, (parseTextInt S sv start).2) :=
        Prod.ext hcode rfl
      have hdenotes := (parseTextToNumber_iff hne).mp hresult
      exact ⟨hval ▸ hdenotes, hval ▸ (parseTextInt S sv start).2.property⟩
    · intro hv
      obtain ⟨hdenotes, hholds⟩ := hv
      have hresult : parseTextInt S sv start = (.success, ⟨v.val, hholds⟩) :=
        (parseTextToNumber_iff hne).mpr hdenotes
      rw [hresult]
      rfl
  · intro v to_
    obtain ⟨start, htext⟩ := hfield parseTextInt (printInteger v.val) to_
    obtain ⟨start', hbinary⟩ := hfield parseBinaryInt (ofInt S.size v.val) to_
    rw [parseTextInt_printInteger] at htext
    rw [parseBinaryInt_ofInt] at hbinary
    exact ⟨widen hwide v, rfl, htext, hbinary⟩

/-- A column of type int2, decoded to a wider type. -/
theorem integer_fields_exactly_widened :
    (∃ S : IntType, S.oid = int16.oid ∧ (∀ sv, DecodesExactly .int64 S sv ↔ sv ≠ []) ∧
      ∀ v : S.Value, FormsDecode .int64 v) ∧
    (int64.signed = true → ∀ v : int64.Value, AppendsAndDecodes v) :=
  integer_fields_exactly (by decide)

/-- **An empty text is accepted**, and the output keeps the value of the row before. -/
theorem empty_text_accepted :
    isCompatible .int32 int32.oid = .success ∧
    parseTextField .int32 (some []) int32.oid ⟨7, by decide⟩ = .ok (.success, ⟨7, by decide⟩) ∧
    ¬DecodesExactly .int32 .int32 [] := by
  refine ⟨by decide, rfl, fun h => ?_⟩
  have hread := (h (zero _) (zero _)).mp rfl
  exact hread.1.1.ne_nil rfl

end Types

end NativePg
