/-
  File:      NativePg/Types/Fields.lean
  Subject:   Fields of the base types as the members of a row (`parse_field_traits` of
             include/nativepg/detail/field_traits_base.hpp and field_traits_nullable.hpp,
             include/nativepg/types/base.hpp).

  * `FieldTraits` -- `parse_field_traits<T>`; `boolTraits`, `charTraits`, ..., `optionalTraits`;
  * `FieldType`, `FieldType.member` -- the type of a member of a row, and what the traits do for it;
  * `Datum` -- a value in a column of the server, with the bytes it is sent as (`Datum.bytes`);
  * `FieldType.read` -- what a member is to hold of it. **`parse_member`**: it is what the member is
    parsed to, in both formats.
-/
import NativePg.Responses.RowMapping
import NativePg.Types.Bytea
import NativePg.Types.Integers

namespace NativePg

namespace Types

open Responses (Member)

/-! ## 1. Traits -/

/-- `parse_field_traits<T>`. -/
structure FieldTraits (T : Type) where
  isCompatible : Int → ErrorCode
  parseText : Option Bytes → Int → T → Checked (ErrorCode × T)
  parseBinary : Option Bytes → Int → T → Checked (ErrorCode × T)

namespace FieldTraits

section
variable {T V : Type}

/-- The checks before a decoder. -/
def checkThen (accepts : Int → Bool) (parse : Bytes → T → ErrorCode × T) (from_ : Option Bytes)
    (typeOid : Int) (to_ : T) : Checked (ErrorCode × T) :=
  match from_ with
  | none => pure (ClientErrc.unexpectedNull.code, to_)
  | some data => if accepts typeOid then pure (parse data to_) else .error .assertion

/-- The traits of a type with two decoders, for columns of some types. -/
def checked (accepts : Int → Bool) (text binary : Bytes → T → ErrorCode × T) : FieldTraits T where
  isCompatible oid := if accepts oid then .success else ClientErrc.incompatibleFieldType.code
  parseText := checkThen accepts text
  parseBinary := checkThen accepts binary

/-- The decoder of a format. -/
def parse (t : FieldTraits T) : FormatCode → Option Bytes → Int → T → Checked (ErrorCode × T)
  | .text => t.parseText
  | .binary => t.parseBinary

/-- A member of a row, which is `zero` before it is parsed. Its column has been accepted by then, so
    that no assertion fires. -/
def member (t : FieldTraits T) (zero : T) (value : T → V) (name : Bytes) : Member V where
  name
  isCompatible := t.isCompatible
  parseText fv typeOid := parsed (t.parseText fv typeOid zero)
  parseBinary fv typeOid := parsed (t.parseBinary fv typeOid zero)
where
  parsed : Checked (ErrorCode × T) → ErrorCode × V
    | .ok (ec, v) => (ec, value v)
    | .error _ => (ClientErrc.incompatibleFieldType.code, value zero)

end

end FieldTraits

open FieldTraits

/-! ## 2. The types -/

/-- `parse_text_bool`. -/
def parseTextBool (sv : Bytes) (to_ : Bool) : ErrorCode × Bool :=
  if sv = ascii "t" then (.success, true)
  else if sv = ascii "f" then (.success, false)
  else (ClientErrc.protocolValueError.code, to_)

/-- `parse_binary_bool`. -/
def parseBinaryBool (data : Bytes) (to_ : Bool) : ErrorCode × Bool :=
  match data with
  | [b] => (.success, b ≠ 0)
  | _ => (ClientErrc.protocolValueError.code, to_)

/-- `parse_field_traits<bool>`. -/
def boolTraits : FieldTraits Bool := .checked (· = 16) parseTextBool parseBinaryBool

/-- `parse_text_char`. -/
def parseTextChar (sv : Bytes) (to_ : UInt8) : ErrorCode × UInt8 :=
  match sv with
  | [c] => (.success, c)
  | _ => (ClientErrc.protocolValueError.code, to_)

/-- `parse_binary_char`. -/
def parseBinaryChar (data : Bytes) (to_ : UInt8) : ErrorCode × UInt8 :=
  match data with
  | [c] => (.success, c)
  | _ => (ClientErrc.protocolValueError.code, to_)

/-- `parse_field_traits<char>`. -/
def charTraits : FieldTraits UInt8 := .checked (· = 18) parseTextChar parseBinaryChar

/-- `parse_text_text`. -/
def parseTextText (sv _to : Bytes) : ErrorCode × Bytes := (.success, sv)

/-- `parse_binary_text`. -/
def parseBinaryText (data _to : Bytes) : ErrorCode × Bytes := (.success, data)

/-- `is_string_oid`. -/
def isStringOid (typeOid : Int) : Bool :=
  typeOid = 25 || typeOid = 1043 || typeOid = 19 || typeOid = 1042

/-- `parse_field_traits<std::basic_string<char>>`. -/
def textTraits : FieldTraits Bytes := .checked isStringOid parseTextText parseBinaryText

/-- `parse_field_traits<std::vector<std::byte>>`. -/
def byteaTraits : FieldTraits Bytes := ⟨Bytea.isCompatible, Bytea.parseText, Bytea.parseBinary⟩

/-- `parse_field_traits` of an integer type. -/
def intTraits (T : IntType) : FieldTraits T.Value :=
  ⟨Types.isCompatible T, parseTextField T, parseBinaryField T⟩

section
variable {T : Type}

/-- NULL is no value; anything else is parsed into a new one. -/
def engage (parse : Option Bytes → Int → T → Checked (ErrorCode × T)) (zero : T)
    (from_ : Option Bytes) (typeOid : Int) (_to : Option T) : Checked (ErrorCode × Option T) :=
  match from_ with
  | none => pure (.success, none)
  | some data => (parse (some data) typeOid zero).map fun r => (r.1, some r.2)

/-- `parse_field_traits<std::optional<T>>`, where `zero` is `T{}`. -/
def optionalTraits (t : FieldTraits T) (zero : T) : FieldTraits (Option T) where
  isCompatible := t.isCompatible
  parseText := engage t.parseText zero
  parseBinary := engage t.parseBinary zero

end

/-! ## 3. Members -/

/-- The value of a member; `null` is an empty optional. -/
inductive FieldValue where
  | bool (b : Bool)
  | char (c : UInt8)
  | int (z : Int)
  | text (s : Bytes)
  | bytes (bs : Bytes)
  | null
  deriving DecidableEq, Repr

/-- The types of members that are not optional. -/
inductive BaseType where
  | bool
  | char
  | int (T : IntType)
  | text
  | bytea
  deriving DecidableEq

/-- The type of a member. -/
structure FieldType where
  base : BaseType
  optional : Bool := false
  deriving DecidableEq

section
variable {T : Type}

/-- A member of the type, or of an optional of it. -/
def memberOf (t : FieldTraits T) (zero : T) (value : T → FieldValue) (optional : Bool)
    (name : Bytes) : Member FieldValue :=
  if optional then (optionalTraits t zero).member none (·.elim .null value) name
  else t.member zero value name

end

/-- The member with this name. -/
def FieldType.member (F : FieldType) (name : Bytes) : Member FieldValue :=
  match F.base with
  | .bool => memberOf boolTraits false .bool F.optional name
  | .char => memberOf charTraits 0 .char F.optional name
  | .int T => memberOf (intTraits T) T.zero (fun v => .int v.val) F.optional name
  | .text => memberOf textTraits [] .text F.optional name
  | .bytea => memberOf byteaTraits [] .bytes F.optional name

/-! ## 4. Columns of the server -/

/-- The types of strings. -/
inductive StringType where
  | text
  | varchar
  | name
  | bpchar
  deriving DecidableEq, Repr

def StringType.oid : StringType → Int
  | text => 25
  | varchar => 1043
  | name => 19
  | bpchar => 1042

/-- A value in a column. A text of the type "char" is a single character where it is of ASCII and
    not NUL, and these are those considered. -/
inductive Datum where
  | bool (b : Bool)
  | char (c : {c : UInt8 // 0 < c ∧ c < 128})
  | int (S : IntType) (v : S.Value)
  | text (type : StringType) (s : Bytes)
  | bytea (bs : Bytes)
  deriving DecidableEq

namespace Datum

/-- The OID of its type. -/
def oid : Datum → Int
  | bool _ => 16
  | char _ => 18
  | int S _ => S.oid
  | text type _ => type.oid
  | bytea _ => 17

/-- What the server sends for it. -/
def bytes : FormatCode → Datum → Bytes
  | .text, bool b => if b then ascii "t" else ascii "f"
  | .binary, bool b => if b then [1] else [0]
  | _, char c => [c.val]
  | .text, int _ v => printInteger v.val
  | .binary, int S v => BigEndian.ofInt S.size v.val
  | _, text _ s => s
  | .text, bytea bs => byteaOut bs
  | .binary, bytea bs => bs

end Datum

/-- **What a member of this type is to hold of a value**; none where it does not take its type. -/
def BaseType.read : BaseType → Datum → Option FieldValue
  | bool, .bool b => some (.bool b)
  | char, .char c => some (.char c.val)
  | int T, .int S v => if S.oid ∈ T.accepted then some (.int v.val) else none
  | text, .text _ s => some (.text s)
  | bytea, .bytea bs => some (.bytes bs)
  | _, _ => none

/-- The types of columns whose values it takes. -/
def BaseType.accepts : BaseType → Int → Bool
  | bool, typeOid => typeOid = 16
  | char, typeOid => typeOid = 18
  | int T, typeOid => typeOid ∈ T.accepted
  | text, typeOid => isStringOid typeOid
  | bytea, typeOid => typeOid = 17

/-- The same of a column, where none is NULL. -/
def FieldType.read (F : FieldType) : Option Datum → Option FieldValue
  | some d => F.base.read d
  | none => if F.optional then some .null else none

/-! ## 5. What is parsed -/

section
variable {T : Type}

/-- The value is parsed to `v`, in both formats. -/
def FieldTraits.Takes (t : FieldTraits T) (zero : T) (d : Datum) (v : T) : Prop :=
  ∀ format, t.parse format (some (d.bytes format)) d.oid zero = .ok (.success, v)

theorem FieldTraits.Takes.optional {t : FieldTraits T} {zero : T} {d : Datum} {v : T}
    (h : t.Takes zero d v) : (optionalTraits t zero).Takes none d (some v) := by
  intro format
  have hparse := h format
  cases format with
  | text => exact congrArg (Except.map fun r : ErrorCode × T => (r.1, some r.2)) hparse
  | binary => exact congrArg (Except.map fun r : ErrorCode × T => (r.1, some r.2)) hparse

theorem parse_member_of_takes {V : Type} {t : FieldTraits T} {zero : T} {d : Datum} {v : T}
    (h : t.Takes zero d v) (value : T → V) (name : Bytes) (format : FormatCode) :
    (t.member zero value name).parse format (some (d.bytes format)) d.oid = (.success, value v) := by
  have hparse := h format
  cases format with
  | text => exact congrArg (FieldTraits.member.parsed zero value) hparse
  | binary => exact congrArg (FieldTraits.member.parsed zero value) hparse

/-- An optional member takes what the type takes. -/
theorem parse_memberOf {t : FieldTraits T} {zero : T} {d : Datum} {v : T} (h : t.Takes zero d v)
    (value : T → FieldValue) (optional : Bool) (name : Bytes) (format : FormatCode) :
    (memberOf t zero value optional name).parse format (some (d.bytes format)) d.oid =
      (.success, value v) := by
  cases optional with
  | false => exact parse_member_of_takes h value name format
  | true => exact parse_member_of_takes h.optional _ name format

end

theorem boolTraits_takes (b : Bool) : boolTraits.Takes false (.bool b) b := by
  intro format
  cases format <;> cases b <;> rfl

theorem charTraits_takes (c : {c : UInt8 // 0 < c ∧ c < 128}) :
    charTraits.Takes 0 (.char c) c.val := by
  intro format
  cases format <;> rfl

theorem textTraits_takes (type : StringType) (s : Bytes) :
    textTraits.Takes [] (.text type s) s := by
  intro format
  cases format <;> cases type <;> rfl

theorem byteaTraits_takes (bs : Bytes) : byteaTraits.Takes [] (.bytea bs) bs := by
  intro format
  cases format with
  | text =>
    have hcompatible : Bytea.isCompatible 17 = .success := rfl
    exact (Bytea.checkThen_of_compatible hcompatible _ []).trans
      (parseTextBytea_of_text (isByteaText_byteaOut bs) [])
  | binary => rfl

/-- An integer is widened to the type of the member. -/
theorem intTraits_takes {T S : IntType} (v : S.Value) (h : S.oid ∈ T.accepted) :
    ∃ v' : T.Value, v'.val = v.val ∧ (intTraits T).Takes T.zero (.int S v) v' := by
  have hcompatible : Types.isCompatible T S.oid = .success := if_pos h
  obtain ⟨S', hwide, hoid, hfield⟩ := parseField_eq hcompatible
  obtain rfl : S' = S := by
    cases S' <;> cases S <;> first | rfl | exact absurd hoid (by decide)
  refine ⟨IntType.widen hwide v, rfl, fun format => ?_⟩
  cases format with
  | text =>
    obtain ⟨start, hread⟩ := hfield parseTextInt (printInteger v.val) T.zero
    rw [parseTextInt_printInteger] at hread
    exact hread
  | binary =>
    obtain ⟨start, hread⟩ := hfield parseBinaryInt (BigEndian.ofInt S'.size v.val) T.zero
    rw [parseBinaryInt_ofInt] at hread
    exact hread

theorem isCompatible_member (F : FieldType) (name : Bytes) (typeOid : Int) :
    (F.member name).isCompatible typeOid =
      if F.base.accepts typeOid then .success else ClientErrc.incompatibleFieldType.code := by
  obtain ⟨base, optional⟩ := F
  cases base with
  | int T =>
    have hint : Types.isCompatible T typeOid = if (BaseType.int T).accepts typeOid then .success
        else ClientErrc.incompatibleFieldType.code := by
      simp only [Types.isCompatible, BaseType.accepts, decide_eq_true_eq]
    cases optional <;> exact hint
  | bytea =>
    have hbytea : Bytea.isCompatible typeOid = if BaseType.bytea.accepts typeOid then .success
        else ClientErrc.incompatibleFieldType.code := by
      simp only [Bytea.isCompatible, BaseType.accepts, Bytea.oid, decide_eq_true_eq]
      rfl
    cases optional <;> exact hbytea
  | bool | char | text => cases optional <;> rfl

/-- A member takes the values of the columns it accepts. -/
theorem read_isSome {base : BaseType} {d : Datum} (h : base.accepts d.oid = true) :
    (base.read d).isSome = true := by
  cases d with
  | bool b | char c | bytea bs =>
    cases base with
    | int T => cases T <;> cases h
    | bool | char | text | bytea => first | rfl | cases h
  | int S v =>
    cases base with
    | int T =>
      have haccepted : S.oid ∈ T.accepted := of_decide_eq_true h
      simp only [BaseType.read]
      rw [if_pos haccepted]
      rfl
    | bool | char | text | bytea => cases S <;> cases h
  | text type s =>
    cases base with
    | text => rfl
    | int T => cases T <;> cases type <;> cases h
    | bool | char | bytea => cases type <;> cases h

/-- **A member is parsed to what it is to hold.** -/
theorem parse_member {F : FieldType} {name : Bytes} {cell : Option Datum} {value : FieldValue}
    (h : F.read cell = some value) (format : FormatCode) (typeOid : Int)
    (htype : ∀ d ∈ cell, d.oid = typeOid) :
    (F.member name).parse format (cell.map (Datum.bytes format)) typeOid = (.success, value) := by
  obtain ⟨base, optional⟩ := F
  cases cell with
  | none =>
    -- only optionals take NULL
    cases optional with
    | false => cases h
    | true =>
      cases h
      cases base <;> cases format <;> rfl
  | some d =>
    obtain rfl : d.oid = typeOid := htype d rfl
    cases d with
    | bool b =>
      cases base <;> cases h
      exact parse_memberOf (boolTraits_takes b) _ optional name format
    | char c =>
      cases base <;> cases h
      exact parse_memberOf (charTraits_takes c) _ optional name format
    | int S v =>
      cases base with
      | int T =>
        simp only [FieldType.read, BaseType.read] at h
        split at h
        · rename_i haccepted
          cases h
          obtain ⟨v', hval, htakes⟩ := intTraits_takes v haccepted
          have hparse := parse_memberOf htakes (fun v => .int v.val) optional name format
          rw [hval] at hparse
          exact hparse
        · cases h
      | bool | char | text | bytea => cases h
    | text type s =>
      cases base <;> cases h
      exact parse_memberOf (textTraits_takes type s) _ optional name format
    | bytea bs =>
      cases base <;> cases h
      exact parse_memberOf (byteaTraits_takes bs) _ optional name format

end Types

end NativePg
