/-
  File:      NativePg/Protocol/ErrorFields.lean
  Subject:   The fields of an error or a notice, and what a field the client does not know does
             to the others.

  * `ErrorFieldType` -- the enumeration `error_field_type`; `populateField_eq` -- a known field
    takes its string off the input, an unknown one takes nothing;
  * `firstKnown` -- so the text of an unknown field is searched for a type byte, and the rest of
    the text becomes that field's string; `errorNoticeLoop_word` -- what the loop makes of the
    bytes up to a zero byte;
  * `KnownWords`, `parseErrorNotice_accepted` -- the bodies that are accepted, and the fields that
    come of them;
  * `Harmless`, `Truncated`, `error_fields_exactly` -- for which bodies this is what the protocol
    asks for.
-/
import Mathlib.Data.List.Induction
import NativePg.Protocol.Encoding

namespace NativePg

open ParseContext

/-! ## 1. Known fields -/

/-- `error_field_type`. -/
inductive ErrorFieldType where
  | severityI18n
  | severity
  | sqlstate
  | message
  | detail
  | hint
  | position
  | internalPosition
  | internalQuery
  | where_
  | schemaName
  | tableName
  | columnName
  | dataTypeName
  | constraintName
  | fileName
  | lineNumber
  | routine
  deriving DecidableEq, Repr

namespace ErrorFieldType

/-- The value of an enumerator, as a character. -/
def char : ErrorFieldType → Char
  | severityI18n => 'S'
  | severity => 'V'
  | sqlstate => 'C'
  | message => 'M'
  | detail => 'D'
  | hint => 'H'
  | position => 'P'
  | internalPosition => 'p'
  | internalQuery => 'q'
  | where_ => 'W'
  | schemaName => 's'
  | tableName => 't'
  | columnName => 'c'
  | dataTypeName => 'd'
  | constraintName => 'n'
  | fileName => 'F'
  | lineNumber => 'L'
  | routine => 'R'

/-- The value of an enumerator. -/
def byte (k : ErrorFieldType) : UInt8 := k.char.toNat.toUInt8

/-- The enumerator with this value. -/
def ofByte? (b : UInt8) : Option ErrorFieldType :=
  match Char.ofNat b.toNat with
  | 'S' => some severityI18n
  | 'V' => some severity
  | 'C' => some sqlstate
  | 'M' => some message
  | 'D' => some detail
  | 'H' => some hint
  | 'P' => some position
  | 'p' => some internalPosition
  | 'q' => some internalQuery
  | 'W' => some where_
  | 's' => some schemaName
  | 't' => some tableName
  | 'c' => some columnName
  | 'd' => some dataTypeName
  | 'n' => some constraintName
  | 'F' => some fileName
  | 'L' => some lineNumber
  | 'R' => some routine
  | _ => none

theorem ofByte?_byte (k : ErrorFieldType) : ofByte? k.byte = some k := by
  cases k <;> rfl

theorem byte_of_ofByte? {b : UInt8} {k : ErrorFieldType} (h : ofByte? b = some k) : k.byte = b := by
  have hchar : Char.ofNat b.toNat = k.char := by
    unfold ofByte? at h
    split at h <;> cases h <;> assumption
  exact (byte_of_char hchar).symm

theorem ne_byte_of_unknown {b : UInt8} (h : ofByte? b = none) (k : ErrorFieldType) :
    b ≠ k.byte := by
  intro hb
  rw [hb, ofByte?_byte] at h
  cases h

end ErrorFieldType

namespace ErrorNoticeFields

/-- The member of `error_notice_fields` a type of field is stored in. -/
def get (f : ErrorNoticeFields) : ErrorFieldType → Option Bytes
  | .severityI18n => f.localizedSeverity
  | .severity => f.severity
  | .sqlstate => f.sqlstate
  | .message => f.message
  | .detail => f.detail
  | .hint => f.hint
  | .position => f.position
  | .internalPosition => f.internalPosition
  | .internalQuery => f.internalQuery
  | .where_ => f.where_
  | .schemaName => f.schemaName
  | .tableName => f.tableName
  | .columnName => f.columnName
  | .dataTypeName => f.dataTypeName
  | .constraintName => f.constraintName
  | .fileName => f.fileName
  | .lineNumber => f.lineNumber
  | .routine => f.routine

def set (f : ErrorNoticeFields) (k : ErrorFieldType) (s : Bytes) : ErrorNoticeFields :=
  match k with
  | .severityI18n => { f with localizedSeverity := some s }
  | .severity => { f with severity := some s }
  | .sqlstate => { f with sqlstate := some s }
  | .message => { f with message := some s }
  | .detail => { f with detail := some s }
  | .hint => { f with hint := some s }
  | .position => { f with position := some s }
  | .internalPosition => { f with internalPosition := some s }
  | .internalQuery => { f with internalQuery := some s }
  | .where_ => { f with where_ := some s }
  | .schemaName => { f with schemaName := some s }
  | .tableName => { f with tableName := some s }
  | .columnName => { f with columnName := some s }
  | .dataTypeName => { f with dataTypeName := some s }
  | .constraintName => { f with constraintName := some s }
  | .fileName => { f with fileName := some s }
  | .lineNumber => { f with lineNumber := some s }
  | .routine => { f with routine := some s }

theorem get_set_self (f : ErrorNoticeFields) (k : ErrorFieldType) (s : Bytes) :
    (f.set k s).get k = some s := by
  cases k <;> rfl

theorem get_set_of_ne (f : ErrorNoticeFields) {k k' : ErrorFieldType} (s : Bytes) (h : k ≠ k') :
    (f.set k s).get k' = f.get k' := by
  cases k <;> cases k' <;> first | rfl | exact absurd rfl h

theorem get_default (k : ErrorFieldType) : ErrorNoticeFields.get {} k = none := by
  cases k <;> rfl

end ErrorNoticeFields

/-- **`populate_field` by the type of the field.** -/
theorem populateField_eq (ctx : ParseContext) (type : UInt8) (fields : ErrorNoticeFields) :
    populateField ctx type fields =
      match ErrorFieldType.ofByte? type with
      | some k => (ctx.getString.2, fields.set k ctx.getString.1)
      | none => (ctx, fields) := by
  unfold populateField ErrorFieldType.ofByte?
  generalize Char.ofNat type.toNat = c
  simp only
  split
  case h_19 => split <;> first | rfl | simp_all
  all_goals rfl

/-! ## 2. The loop -/

/-- The first byte that is the type of a known field, and what stands behind it. -/
def firstKnown : Bytes → Option (ErrorFieldType × Bytes)
  | [] => none
  | b :: bytes =>
    match ErrorFieldType.ofByte? b with
    | some k => some (k, bytes)
    | none => firstKnown bytes

theorem firstKnown_of_known {b : UInt8} {k : ErrorFieldType} (h : ErrorFieldType.ofByte? b = some k)
    (bytes : Bytes) : firstKnown (b :: bytes) = some (k, bytes) := by
  rw [firstKnown, h]

theorem firstKnown_of_unknown {b : UInt8} (h : ErrorFieldType.ofByte? b = none) (bytes : Bytes) :
    firstKnown (b :: bytes) = firstKnown bytes := by
  rw [firstKnown, h]

section
variable {ec : ErrorCode} (hec : ec.failed = false)
include hec

theorem errorNoticeLoop_zero (rest : Bytes) (fields : ErrorNoticeFields) :
    errorNoticeLoop ⟨0 :: rest, ec⟩ fields = (⟨rest, ec⟩, fields) := by
  have hbyte := getByte_cons hec rest 0
  rw [errorNoticeLoop, dif_pos (by rw [hbyte]), hbyte]

/-- A byte the client does not know is skipped, and nothing else. -/
theorem errorNoticeLoop_unknown {b : UInt8} (hb : b ≠ 0) (hu : ErrorFieldType.ofByte? b = none)
    (rest : Bytes) (fields : ErrorNoticeFields) :
    errorNoticeLoop ⟨b :: rest, ec⟩ fields = errorNoticeLoop ⟨rest, ec⟩ fields := by
  have hbyte := getByte_cons hec rest b
  rw [errorNoticeLoop, dif_neg (by rwa [hbyte])]
  simp only [hbyte, populateField_eq, hu]

theorem errorNoticeLoop_known {b : UInt8} (hb : b ≠ 0) {k : ErrorFieldType}
    (hk : ErrorFieldType.ofByte? b = some k) (rest : Bytes) (fields : ErrorNoticeFields) :
    errorNoticeLoop ⟨b :: rest, ec⟩ fields =
      errorNoticeLoop (getString ⟨rest, ec⟩).2 (fields.set k (getString ⟨rest, ec⟩).1) := by
  have hbyte := getByte_cons hec rest b
  rw [errorNoticeLoop, dif_neg (by rwa [hbyte])]
  simp only [hbyte, populateField_eq, hk]

/-- **The bytes up to a zero byte**, when a known type is among them: whatever stands before it
    is skipped, and whatever stands behind it is the string of that field. -/
theorem errorNoticeLoop_word : ∀ {w : Bytes} {k : ErrorFieldType} {s : Bytes}, (0 : UInt8) ∉ w →
    firstKnown w = some (k, s) → ∀ (rest : Bytes) (fields : ErrorNoticeFields),
    errorNoticeLoop ⟨w ++ 0 :: rest, ec⟩ fields = errorNoticeLoop ⟨rest, ec⟩ (fields.set k s)
  | [], _, _, _, h, _, _ => by cases h
  | b :: w, k, s, hw, h, rest, fields => by
      have hb : b ≠ 0 := fun hz => hw (hz ▸ List.mem_cons_self)
      have hw' : (0 : UInt8) ∉ w := fun hmem => hw (List.mem_cons_of_mem b hmem)
      rw [List.cons_append]
      cases hk : ErrorFieldType.ofByte? b with
      | some k' =>
        rw [firstKnown_of_known hk] at h
        cases h
        rw [errorNoticeLoop_known hec hb hk, getString_append hec rest hw']
      | none =>
        rw [firstKnown_of_unknown hk] at h
        rw [errorNoticeLoop_unknown hec hb hk]
        exact errorNoticeLoop_word hw' h rest fields

/-- When there is none, the zero byte ends the message. -/
theorem errorNoticeLoop_text : ∀ {w : Bytes}, (0 : UInt8) ∉ w → firstKnown w = none →
    ∀ (rest : Bytes) (fields : ErrorNoticeFields),
    errorNoticeLoop ⟨w ++ 0 :: rest, ec⟩ fields = (⟨rest, ec⟩, fields)
  | [], _, _, rest, fields => errorNoticeLoop_zero hec rest fields
  | b :: w, hw, h, rest, fields => by
      have hb : b ≠ 0 := fun hz => hw (hz ▸ List.mem_cons_self)
      have hw' : (0 : UInt8) ∉ w := fun hmem => hw (List.mem_cons_of_mem b hmem)
      rw [List.cons_append]
      cases hk : ErrorFieldType.ofByte? b with
      | some k' =>
        rw [firstKnown_of_known hk] at h
        cases h
      | none =>
        rw [firstKnown_of_unknown hk] at h
        rw [errorNoticeLoop_unknown hec hb hk]
        exact errorNoticeLoop_text hw' h rest fields

end

/-! ## 3. Lists of fields -/

/-- A field of an error or a notice: its type byte and its string. -/
abbrev ErrorField := UInt8 × Bytes

/-- The bytes of a field, without the zero byte that ends them. -/
def ErrorField.word (f : ErrorField) : Bytes := f.1 :: f.2

/-- A type byte that is not zero, a string without a zero byte. -/
def ErrorField.WellFormed (f : ErrorField) : Prop := (0 : UInt8) ∉ ErrorField.word f

def encErrorField (f : ErrorField) : Bytes := encString (ErrorField.word f)

/-- The body of an error or a notice. -/
def encErrorFields (l : List ErrorField) : Bytes := l.flatMap encErrorField ++ [0]

/-- The field a reader sees that looks for a known type first. -/
def ErrorField.readAs (f : ErrorField) : Option (ErrorFieldType × Bytes) := firstKnown (ErrorField.word f)

/-- The string of the last occurrence of a type. -/
def lastOf {κ : Type} [DecidableEq κ] (k : κ) (l : List (κ × Bytes)) : Option Bytes :=
  ((l.filter (·.1 = k)).getLast?).map (·.2)

section LastOf
variable {κ : Type} [DecidableEq κ] {k : κ}

theorem lastOf_snoc (l : List (κ × Bytes)) (k' : κ) (s : Bytes) :
    lastOf k (l ++ [(k', s)]) = if k' = k then some s else lastOf k l := by
  unfold lastOf
  by_cases h : k' = k
  · simp [h]
  · simp [h]

/-- What stands behind an occurrence and is of other types does not count. -/
theorem lastOf_append_of_forall_ne (l : List (κ × Bytes)) {l' : List (κ × Bytes)}
    (h : ∀ f ∈ l', f.1 ≠ k) : lastOf k (l ++ l') = lastOf k l := by
  have hnil : l'.filter (·.1 = k) = [] := by
    rw [List.filter_eq_nil_iff]
    intro f hf
    simpa using h f hf
  unfold lastOf
  rw [List.filter_append, hnil, List.append_nil]

theorem lastOf_eq_of_last {l l' : List (κ × Bytes)} {s : Bytes} (h : ∀ f ∈ l', f.1 ≠ k) :
    lastOf k (l ++ (k, s) :: l') = some s := by
  rw [← List.singleton_append, ← List.append_assoc, lastOf_append_of_forall_ne _ h, lastOf_snoc,
    if_pos rfl]

end LastOf

/-- The fields the loop has stored, one after the other. -/
def storeFields (fields : ErrorNoticeFields) (l : List (ErrorFieldType × Bytes)) : ErrorNoticeFields :=
  l.foldl (fun f x => f.set x.1 x.2) fields

/-- **Of each type the last one stays.** -/
theorem get_storeFields (k : ErrorFieldType) (l : List (ErrorFieldType × Bytes)) :
    (storeFields {} l).get k = lastOf k l := by
  induction l using List.reverseRecOn with
  | nil => exact ErrorNoticeFields.get_default k
  | append_singleton l x ih =>
    have hstore : storeFields {} (l ++ [x]) = (storeFields {} l).set x.1 x.2 := by
      simp [storeFields]
    rw [hstore, lastOf_snoc]
    split
    · rename_i hk
      rw [← hk, ErrorNoticeFields.get_set_self]
    · rename_i hk
      rw [ErrorNoticeFields.get_set_of_ne _ _ hk, ih]

/-- **A list of fields, each with a known type byte in it, is read to its end.** -/
theorem errorNoticeLoop_fields {ec : ErrorCode} (hec : ec.failed = false) :
    ∀ {l : List ErrorField}, (∀ f ∈ l, ErrorField.WellFormed f) →
    (∀ f ∈ l, (ErrorField.readAs f).isSome = true) → ∀ (rest : Bytes) (fields : ErrorNoticeFields),
    errorNoticeLoop ⟨l.flatMap encErrorField ++ rest, ec⟩ fields =
      errorNoticeLoop ⟨rest, ec⟩ (storeFields fields (l.filterMap ErrorField.readAs))
  | [], _, _, _, _ => rfl
  | f :: l, hwf, hread, rest, fields => by
      obtain ⟨⟨k, s⟩, hf⟩ := Option.isSome_iff_exists.mp (hread f (by simp))
      have hrest : (f :: l).flatMap encErrorField ++ rest =
          ErrorField.word f ++ 0 :: (l.flatMap encErrorField ++ rest) := by
        simp [encErrorField, encString]
      rw [hrest, errorNoticeLoop_word hec (hwf f (by simp)) hf,
        errorNoticeLoop_fields hec (fun f' hf' => hwf f' (by simp [hf']))
          (fun f' hf' => hread f' (by simp [hf']))]
      rw [List.filterMap_cons_some hf]
      rfl

/-- Once there is an error the loop ends with it. -/
theorem errorNoticeLoop_failed {ctx : ParseContext} (h : ctx.ec.failed = true)
    (fields : ErrorNoticeFields) : (errorNoticeLoop ctx fields).1.ec.failed = true := by
  have hbyte : ctx.getByte.1 = 0 ∧ ctx.getByte.2.ec.failed = true := by
    unfold getByte
    split
    · exact ⟨rfl, failed_addError ctx _⟩
    · rw [if_pos h]
      exact ⟨rfl, h⟩
  rw [errorNoticeLoop, dif_pos hbyte.1]
  exact hbyte.2

/-- The words of a body the loop accepts: fields with a known type byte in each, then a text
    without one, which is empty in a body that is well formed. -/
structure KnownWords (data : Bytes) (l : List ErrorField) (w : Bytes) : Prop where
  data_eq : data = l.flatMap encErrorField ++ (w ++ [0])
  wellFormed : ∀ f ∈ l, ErrorField.WellFormed f
  readAs : ∀ f ∈ l, (ErrorField.readAs f).isSome = true
  text : (0 : UInt8) ∉ w
  unknown : firstKnown w = none

/-- One more byte in front that the client does not know. -/
theorem KnownWords.cons_unknown {data : Bytes} {l : List ErrorField} {w : Bytes}
    (h : KnownWords data l w) {b : UInt8} (hb : b ≠ 0) (hu : ErrorFieldType.ofByte? b = none) :
    ∃ l' w', KnownWords (b :: data) l' w' := by
  cases l with
  | nil =>
    refine ⟨[], b :: w, ?_, by simp, by simp, ?_, ?_⟩
    · rw [h.data_eq]
      rfl
    · simpa [hb.symm] using h.text
    · rw [firstKnown_of_unknown hu]
      exact h.unknown
  | cons f l =>
    refine ⟨(b, ErrorField.word f) :: l, w, ?_, ?_, ?_, h.text, h.unknown⟩
    · rw [h.data_eq]
      rfl
    · intro f' hf'
      rcases List.mem_cons.mp hf' with rfl | hf'
      · have := h.wellFormed f (by simp)
        simpa [ErrorField.WellFormed, ErrorField.word, hb.symm] using this
      · exact h.wellFormed f' (by simp [hf'])
    · intro f' hf'
      rcases List.mem_cons.mp hf' with rfl | hf'
      · have := h.readAs f (by simp)
        unfold ErrorField.readAs at this ⊢
        rwa [ErrorField.word, firstKnown_of_unknown hu]
      · exact h.readAs f' (by simp [hf'])

/-- One more known field in front. -/
theorem KnownWords.cons_known {data : Bytes} {l : List ErrorField} {w : Bytes}
    (h : KnownWords data l w) {b : UInt8} {s : Bytes} (hb : b ≠ 0) (hs : (0 : UInt8) ∉ s)
    {k : ErrorFieldType} (hk : ErrorFieldType.ofByte? b = some k) :
    KnownWords (b :: (s ++ 0 :: data)) ((b, s) :: l) w where
  data_eq := by
    rw [h.data_eq]
    simp [encErrorField, encString, ErrorField.word]
  wellFormed := by
    intro f' hf'
    rcases List.mem_cons.mp hf' with rfl | hf'
    · simpa [ErrorField.WellFormed, ErrorField.word, hb.symm] using hs
    · exact h.wellFormed f' hf'
  readAs := by
    intro f' hf'
    rcases List.mem_cons.mp hf' with rfl | hf'
    · rw [ErrorField.readAs, ErrorField.word, firstKnown_of_known hk]
      rfl
    · exact h.readAs f' hf'
  text := h.text
  unknown := h.unknown

/-- **What the loop accepts.** -/
theorem errorNoticeLoop_accepted {ctx : ParseContext} {fields : ErrorNoticeFields}
    (hgood : (errorNoticeLoop ctx fields).1.ec.failed = false)
    (hnil : (errorNoticeLoop ctx fields).1.rest = []) : ∃ l w, KnownWords ctx.rest l w := by
  induction ctx, fields using errorNoticeLoop.induct with
  | case1 ctx fields hz =>
    rw [errorNoticeLoop, dif_pos hz] at hgood hnil
    have htakes := getByte_takes hgood
    refine ⟨[], [], ?_, by simp, by simp, by simp, rfl⟩
    rw [htakes.rest, hnil, hz]
    rfl
  | case2 ctx fields hnz r ih =>
    rw [errorNoticeLoop, dif_neg hnz] at hgood hnil
    obtain ⟨rest, ec⟩ := ctx
    have hec : ec.failed = false := by
      refine eq_false_of_ne_true fun hf => hnz ?_
      unfold getByte
      split
      · rfl
      · rw [if_pos hf]
    cases rest with
    | nil => exact absurd rfl hnz
    | cons b rest =>
      have hbyte := getByte_cons hec rest b
      rw [hbyte] at hnz
      have hr : r = populateField ⟨rest, ec⟩ b fields := by
        simp only [r, hbyte]
      rw [populateField_eq] at hr
      cases hk : ErrorFieldType.ofByte? b with
      | none =>
        rw [hk] at hr
        obtain ⟨l, w, hacc⟩ := ih hgood hnil
        rw [hr] at hacc
        exact hacc.cons_unknown hnz hk
      | some k =>
        rw [hk] at hr
        have hstring : r.1.ec.failed = false := by
          refine eq_false_of_ne_true fun hf => ?_
          rw [errorNoticeLoop_failed hf] at hgood
          cases hgood
        obtain ⟨l, w, hacc⟩ := ih hgood hnil
        rw [hr] at hacc hstring
        obtain ⟨htakes, hs⟩ := getString_takes hstring
        have hrest : rest = (getString ⟨rest, ec⟩).1 ++ 0 :: (getString ⟨rest, ec⟩).2.rest := by
          have := htakes.rest
          rwa [List.append_assoc, List.singleton_append] at this
        have hcons := hacc.cons_known hnz hs hk
        rw [← hrest] at hcons
        exact ⟨_, w, hcons⟩

/-! ## 4. Bodies -/

theorem parseErrorNotice_ok {body : Bytes} (h : (parseErrorNotice body).1.failed = false) :
    ∃ l w, KnownWords body l w := by
  obtain ⟨hgood, hnil⟩ := check_ok.mp h
  exact errorNoticeLoop_accepted hgood hnil

/-- **An accepted body, and the fields that come of it.** -/
theorem parseErrorNotice_accepted {body : Bytes} {l : List ErrorField} {w : Bytes}
    (h : KnownWords body l w) :
    parseErrorNotice body = (.success, storeFields {} (l.filterMap ErrorField.readAs)) := by
  have hloop : errorNoticeLoop ⟨body, .success⟩ {} =
      (⟨[], .success⟩, storeFields {} (l.filterMap ErrorField.readAs)) := by
    rw [h.data_eq, errorNoticeLoop_fields rfl h.wellFormed h.readAs,
      errorNoticeLoop_text rfl h.text h.unknown]
  unfold parseErrorNotice
  rw [hloop]
  rfl

theorem word_injective : Function.Injective ErrorField.word := by
  rintro ⟨t, s⟩ ⟨t', s'⟩ h
  cases h
  rfl

/-- A list of fields and what follows it, word by word. -/
theorem flatMap_encErrorField (l : List ErrorField) (w : Bytes) :
    l.flatMap encErrorField ++ (w ++ [0]) =
      Delimited.terminated 0 (l.map ErrorField.word ++ [w]) := by
  rw [Delimited.terminated, List.flatMap_append, List.flatMap_map, List.flatMap_singleton]
  rfl

theorem KnownWords.unique {l l' : List ErrorField} {w w' : Bytes}
    (hwf : ∀ f ∈ l, ErrorField.WellFormed f) (hw : (0 : UInt8) ∉ w)
    (h : KnownWords (l.flatMap encErrorField ++ (w ++ [0])) l' w') : l' = l ∧ w' = w := by
  have hmem : ∀ {l : List ErrorField} {w : Bytes}, (∀ f ∈ l, ErrorField.WellFormed f) →
      (0 : UInt8) ∉ w → ∀ x ∈ l.map ErrorField.word ++ [w], (0 : UInt8) ∉ x := by
    intro l w hwf hw x hx
    rcases List.mem_append.mp hx with hx | hx
    · obtain ⟨f, hf, rfl⟩ := List.mem_map.mp hx
      exact hwf f hf
    · rwa [List.mem_singleton.mp hx]
  have heq := h.data_eq
  rw [flatMap_encErrorField, flatMap_encErrorField] at heq
  have hwords := Delimited.terminated_inj (hmem hwf hw) (hmem h.wellFormed h.text) heq
  obtain ⟨hl, hlast⟩ := List.append_inj' hwords rfl
  exact ⟨(List.map_inj_right fun _ _ h => word_injective h).mp hl.symm, (List.cons.inj hlast).1.symm⟩

/-- **A list of fields is accepted when each has a known type byte in it, and only then.** -/
theorem parseErrorNotice_encode_ok {l : List ErrorField} (hwf : ∀ f ∈ l, ErrorField.WellFormed f) :
    (parseErrorNotice (encErrorFields l)).1.failed = false ↔
      ∀ f ∈ l, (ErrorField.readAs f).isSome = true := by
  constructor
  · intro h
    obtain ⟨l', w, hacc⟩ := parseErrorNotice_ok h
    obtain ⟨rfl, -⟩ := KnownWords.unique hwf List.not_mem_nil hacc
    exact hacc.readAs
  · intro h
    have hacc : KnownWords (encErrorFields l) l [] := ⟨rfl, hwf, h, by simp, rfl⟩
    rw [parseErrorNotice_accepted hacc]
    rfl

/-! ## 5. What the protocol asks for -/

/-- What the protocol asks of a parser of errors or notices: every list of fields is read, each
    known field with its last string and the others ignored, and nothing else is accepted. -/
def MeetsProtocol (parse : Bytes → Except ErrorCode AnyBackendMessage)
    (wrap : ErrorNoticeFields → AnyBackendMessage) (body : Bytes) : Prop :=
  (∀ l, (∀ f ∈ l, ErrorField.WellFormed f) → body = encErrorFields l →
    ∃ fields, parse body = .ok (wrap fields) ∧ ∀ k, fields.get k = lastOf k.byte l) ∧
  ((¬∃ l, (∀ f ∈ l, ErrorField.WellFormed f) ∧ body = encErrorFields l) →
    ∃ ec, parse body = .error ec)

/-- The unknown fields of a list do no harm: each has a known type byte in its text, and what
    stands behind the first of these is overwritten by a later field or is what the field of that
    type holds already. -/
structure Harmless (l : List ErrorField) : Prop where
  known : ∀ f ∈ l, (ErrorField.readAs f).isSome = true
  repaired : ∀ {before after : List ErrorField} {t : UInt8} {text s : Bytes} {k : ErrorFieldType},
    l = before ++ (t, text) :: after → ErrorFieldType.ofByte? t = none →
    firstKnown text = some (k, s) →
    (∃ f ∈ after, ∃ s', ErrorField.readAs f = some (k, s')) ∨ lastOf k.byte before = some s

/-- Fields with a known type byte in each and then, in place of the zero byte that closes the
    list, a text without one. -/
def Truncated (body : Bytes) : Prop := ∃ l w, KnownWords body l w ∧ w ≠ []

/-- A field of a known type is read as itself. -/
theorem readAs_of_type {f : ErrorField} {k : ErrorFieldType} (h : f.1 = k.byte) :
    ErrorField.readAs f = some (k, f.2) :=
  firstKnown_of_known (h ▸ k.ofByte?_byte) f.2

/-- The last element of a list with a property, if there is one. -/
theorem exists_last {α : Type} (p : α → Prop) (l : List α) :
    (∀ a ∈ l, ¬p a) ∨ ∃ before a after, l = before ++ a :: after ∧ p a ∧ ∀ b ∈ after, ¬p b := by
  induction l using List.reverseRecOn with
  | nil => exact .inl (by simp)
  | append_singleton l a ih =>
    by_cases ha : p a
    · exact .inr ⟨l, a, [], rfl, ha, by simp⟩
    · rcases ih with hnone | ⟨before, b, after, rfl, hb, hafter⟩
      · refine .inl fun x hx => ?_
        rcases List.mem_append.mp hx with hx | hx
        · exact hnone x hx
        · rwa [List.mem_singleton.mp hx]
      · refine .inr ⟨before, b, after ++ [a], by simp, hb, fun x hx => ?_⟩
        rcases List.mem_append.mp hx with hx | hx
        · exact hafter x hx
        · rwa [List.mem_singleton.mp hx]

/-- What stands behind the last field that is read as `k`. -/
theorem lastOf_of_none {k : ErrorFieldType} {after : List ErrorField}
    (h : ∀ f ∈ after, ¬∃ s', ErrorField.readAs f = some (k, s')) :
    (∀ x ∈ after.filterMap ErrorField.readAs, x.1 ≠ k) ∧ ∀ f ∈ after, f.1 ≠ k.byte := by
  constructor
  · rintro ⟨k', s'⟩ hx rfl
    obtain ⟨f, hf, hread⟩ := List.mem_filterMap.mp hx
    exact h f hf ⟨s', hread⟩
  · intro f hf htype
    exact h f hf ⟨f.2, readAs_of_type htype⟩

/-- **Where every field has a known type byte, the strings read are the right ones just when the
    unknown fields do no harm.** -/
theorem lastOf_readAs_iff {l : List ErrorField}
    (hknown : ∀ f ∈ l, (ErrorField.readAs f).isSome = true) :
    (∀ k, lastOf k (l.filterMap ErrorField.readAs) = lastOf k.byte l) ↔ Harmless l := by
  constructor
  · intro h
    refine ⟨hknown, fun {before after t text s k} hl hu htext => ?_⟩
    by_cases hlater : ∃ f ∈ after, ∃ s', ErrorField.readAs f = some (k, s')
    · exact .inl hlater
    · right
      have hnone := @lastOf_of_none k after fun f hf hs => hlater ⟨f, hf, hs⟩
      have hread : ErrorField.readAs (t, text) = some (k, s) :=
        (firstKnown_of_unknown hu text).trans htext
      have htype : t ≠ k.byte := ErrorFieldType.ne_byte_of_unknown hu k
      have hfull := h k
      rw [hl, List.filterMap_append, List.filterMap_cons_some hread, lastOf_eq_of_last hnone.1,
        lastOf_append_of_forall_ne] at hfull
      · exact hfull.symm
      · intro f hf
        rcases List.mem_cons.mp hf with rfl | hf
        · exact htype
        · exact hnone.2 f hf
  · intro hharmless k
    rcases exists_last (fun f => ∃ s', ErrorField.readAs f = some (k, s')) l with
      hnone | ⟨before, f, after, hl, ⟨s, hread⟩, hafter⟩
    · obtain ⟨hread, htype⟩ := lastOf_of_none hnone
      rw [← List.nil_append (l.filterMap _), lastOf_append_of_forall_ne _ hread,
        ← List.nil_append l, lastOf_append_of_forall_ne _ htype]
      rfl
    · obtain ⟨hreads, htypes⟩ := lastOf_of_none hafter
      obtain ⟨t, text⟩ := f
      rw [hl, List.filterMap_append, List.filterMap_cons_some hread, lastOf_eq_of_last hreads]
      cases hk : ErrorFieldType.ofByte? t with
      | some k' =>
        have hself : ErrorField.readAs (t, text) = some (k', text) := firstKnown_of_known hk text
        rw [hself] at hread
        cases hread
        rw [← ErrorFieldType.byte_of_ofByte? hk, lastOf_eq_of_last htypes]
      | none =>
        have htext : firstKnown text = some (k, s) := (firstKnown_of_unknown hk text).symm.trans hread
        rcases hharmless.repaired hl hk htext with ⟨f, hf, hs⟩ | hbefore
        · exact absurd hs (hafter f hf)
        · rw [lastOf_append_of_forall_ne, hbefore]
          intro f hf
          rcases List.mem_cons.mp hf with rfl | hf
          · exact ErrorFieldType.ne_byte_of_unknown hk k
          · exact htypes f hf

/-- A truncated body is accepted, though it is not a list of fields. -/
theorem not_encoded_of_truncated {body : Bytes} (h : Truncated body) :
    (¬∃ l, (∀ f ∈ l, ErrorField.WellFormed f) ∧ body = encErrorFields l) ∧
      (parseErrorNotice body).1.failed = false := by
  obtain ⟨l, w, hwords, hne⟩ := h
  constructor
  · rintro ⟨l', hwf, rfl⟩
    exact hne (KnownWords.unique hwf List.not_mem_nil hwords).2
  · rw [parseErrorNotice_accepted hwords]
    rfl

/-- **The parser meets the protocol on a body** just when the unknown fields of the list it
    encodes do no harm, and it is not truncated. -/
theorem meetsProtocol_iff {parse : Bytes → Except ErrorCode AnyBackendMessage}
    {wrap : ErrorNoticeFields → AnyBackendMessage} (hwrap : Function.Injective wrap) {body : Bytes}
    (hparse : parse body = parseAnyMessageImpl (parseErrorNotice body) wrap) :
    MeetsProtocol parse wrap body ↔
      (∀ l, (∀ f ∈ l, ErrorField.WellFormed f) → body = encErrorFields l → Harmless l) ∧
        ¬Truncated body := by
  unfold MeetsProtocol
  rw [hparse]
  constructor
  · rintro ⟨hlist, hother⟩
    refine ⟨fun l hwf hbody => ?_, fun htruncated => ?_⟩
    · obtain ⟨fields, hok, hfields⟩ := hlist l hwf hbody
      obtain ⟨hgood, heq⟩ := parseAnyMessageImpl_ok.mp hok
      subst hbody
      have hknown := (parseErrorNotice_encode_ok hwf).mp hgood
      have hwords : KnownWords (encErrorFields l) l [] :=
        ⟨rfl, hwf, hknown, List.not_mem_nil, rfl⟩
      rw [parseErrorNotice_accepted hwords] at heq
      have hstored : storeFields {} (l.filterMap ErrorField.readAs) = fields := hwrap heq
      refine (lastOf_readAs_iff hknown).mp fun k => ?_
      rw [← get_storeFields, hstored, hfields k]
    · obtain ⟨hno, hgood⟩ := not_encoded_of_truncated htruncated
      obtain ⟨ec, hec⟩ := hother hno
      rw [parseAnyMessageImpl_ok.mpr ⟨hgood, rfl⟩] at hec
      cases hec
  · rintro ⟨hharmless, htruncated⟩
    refine ⟨fun l hwf hbody => ?_, fun hno => ?_⟩
    · have h := hharmless l hwf hbody
      have hwords : KnownWords body l [] := ⟨hbody, hwf, h.known, List.not_mem_nil, rfl⟩
      refine ⟨_, parseAnyMessageImpl_success (parseErrorNotice_accepted hwords), fun k => ?_⟩
      rw [get_storeFields, (lastOf_readAs_iff h.known).mpr h k]
    · unfold parseAnyMessageImpl
      split
      · exact ⟨_, rfl⟩
      · rename_i hgood
        obtain ⟨l, w, hwords⟩ := parseErrorNotice_ok (eq_false_of_ne_true hgood)
        by_cases hw : w = []
        · subst hw
          exact absurd ⟨l, hwords.wellFormed, hwords.data_eq⟩ hno
        · exact absurd ⟨l, w, hwords, hw⟩ htruncated

/-- The type bytes of the two messages. -/
def errorResponseType : UInt8 := 'E'.toNat.toUInt8

def noticeResponseType : UInt8 := 'N'.toNat.toUInt8

/-- **Errors and notices are read as the protocol asks for exactly these bodies**: lists whose
    unknown fields do no harm, and everything else that is not truncated. -/
theorem error_fields_exactly (body : Bytes) :
    (MeetsProtocol (parseAnyMessage errorResponseType) .errorResponse body ↔
      (∀ l, (∀ f ∈ l, ErrorField.WellFormed f) → body = encErrorFields l → Harmless l) ∧
        ¬Truncated body) ∧
    (MeetsProtocol (parseAnyMessage noticeResponseType) .noticeResponse body ↔
      (∀ l, (∀ f ∈ l, ErrorField.WellFormed f) → body = encErrorFields l → Harmless l) ∧
        ¬Truncated body) :=
  ⟨meetsProtocol_iff (fun _ _ h => AnyBackendMessage.errorResponse.inj h) rfl,
    meetsProtocol_iff (fun _ _ h => AnyBackendMessage.noticeResponse.inj h) rfl⟩

/-- A list of known fields is harmless. -/
theorem harmless_of_known {l : List ErrorField}
    (h : ∀ f ∈ l, (ErrorFieldType.ofByte? f.1).isSome = true) : Harmless l where
  known := by
    intro f hf
    obtain ⟨k, hk⟩ := Option.isSome_iff_exists.mp (h f hf)
    rw [ErrorField.readAs, ErrorField.word, firstKnown_of_known hk]
    rfl
  repaired := by
    rintro before after t text s k rfl hu -
    have := h (t, text) (by simp)
    rw [hu] at this
    cases this

/-- An error whose one field, of the type `Z`, says `z`. -/
def unknownFieldError : List ErrorField := [('Z'.toNat.toUInt8, ascii "z")]

/-- It is rejected; a client has to ignore the field. -/
theorem unknown_field_rejected :
    ¬MeetsProtocol (parseAnyMessage errorResponseType) .errorResponse
      (encErrorFields unknownFieldError) := by
  have hwf : ∀ f ∈ unknownFieldError, ErrorField.WellFormed f := by
    unfold ErrorField.WellFormed
    decide
  have hunknown : ¬∀ f ∈ unknownFieldError, (ErrorField.readAs f).isSome = true := by decide
  rintro ⟨hlist, -⟩
  obtain ⟨fields, hok, -⟩ := hlist unknownFieldError hwf rfl
  obtain ⟨hgood, -⟩ := parseAnyMessageImpl_ok.mp hok
  exact hunknown ((parseErrorNotice_encode_ok hwf).mp hgood)

end NativePg
