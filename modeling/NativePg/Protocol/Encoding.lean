/-
  File:      NativePg/Protocol/Encoding.lean
  Subject:   The format of backend messages: parsing and encoding are inverse.

  * `BackendMessage`, `enc`, `WellFormed` -- the messages of the protocol with their lists, and the
    bytes of their bodies;
  * `content` -- what a parsed message says: its views are walked through from `begin()` to
    `end()`;
  * one pair of lemmas for each loop of the parsers, and one for each parser: what it does on an
    encoding (`checkColumns_append`, `parseDataRow_encode`), and that what it accepts is one
    (`checkColumns_takes`, `parseDataRow_ok`);
  * `backend_format` -- every message is parsed back from its body, and every body a message is
    parsed from is that message's.
-/
import NativePg.Protocol.Views

namespace NativePg

open BigEndian ParseContext

/-! ## 1. The loops of the parsers -/

section
variable {ec : ErrorCode} (hec : ec.failed = false)
include hec

theorem skipStrings_append : ∀ (strings : List Bytes) (rest : Bytes), (∀ s ∈ strings, (0 : UInt8) ∉ s) →
    skipStrings strings.length ⟨strings.flatMap encString ++ rest, ec⟩ = ⟨rest, ec⟩
  | [], _, _ => rfl
  | s :: strings, rest, h => by
      have hs := getString_append hec (strings.flatMap encString ++ rest) (h s (by simp))
      rw [List.flatMap_cons, encString, List.append_assoc, List.append_assoc,
        List.singleton_append, List.length_cons, skipStrings, hs]
      exact skipStrings_append strings rest fun s' hs' => h s' (by simp [hs'])

theorem checkFmtCodes_append {shouldBeText : Bool} : ∀ (codes : List FormatCode) (rest : Bytes),
    (shouldBeText = true → ∀ c ∈ codes, c = .text) →
    checkFmtCodes shouldBeText codes.length ⟨codes.flatMap encFormatCode ++ rest, ec⟩ = ⟨rest, ec⟩
  | [], _, _ => rfl
  | c :: codes, rest, h => by
      have hc := getIntegral_append hec (codes.flatMap encFormatCode ++ rest) (fits_value c)
      have hvalid : isValidFormatCode c.value = true := by cases c <;> rfl
      have htext : (shouldBeText && c.value != 0) = false := by
        cases shouldBeText with
        | false => rfl
        | true =>
          rw [h rfl c (by simp)]
          rfl
      rw [List.flatMap_cons, encFormatCode, List.append_assoc, List.length_cons, checkFmtCodes, hc]
      simp only [htext, hvalid, Bool.not_true, Bool.or_self, Bool.false_eq_true, if_false]
      exact checkFmtCodes_append codes rest fun ht c' hc' => h ht c' (by simp [hc'])

theorem checkColumns_append : ∀ (columns : List (Option Bytes)) (rest : Bytes),
    (∀ c ∈ columns, ColumnFits c) →
    checkColumns columns.length ⟨columns.flatMap encColumn ++ rest, ec⟩ = ⟨rest, ec⟩
  | [], _, _ => rfl
  | none :: columns, rest, h => by
      have hnull := getIntegral_append hec (columns.flatMap encColumn ++ rest)
        (show Fits 4 (-1) by decide)
      rw [List.flatMap_cons, encColumn, List.append_assoc, List.length_cons, checkColumns, hnull]
      exact checkColumns_append columns rest fun c hc => h c (by simp [hc])
  | some v :: columns, rest, h => by
      have hsize := getIntegral_append hec (v ++ (columns.flatMap encColumn ++ rest))
        (h (some v) (by simp) v rfl)
      rw [List.flatMap_cons, encColumn, List.append_assoc, List.append_assoc, List.length_cons,
        checkColumns, hsize]
      simp only
      rw [if_neg (by omega), if_pos (by omega), Int.toNat_natCast, checkSizeAndAdvance_append]
      exact checkColumns_append columns rest fun c hc => h c (by simp [hc])

theorem checkFields_append : ∀ (fields : List FieldDescription) (rest : Bytes),
    (∀ f ∈ fields, f.WellFormed) →
    checkFields fields.length ⟨fields.flatMap encFieldDescription ++ rest, ec⟩ = ⟨rest, ec⟩
  | [], _, _ => rfl
  | f :: fields, rest, h => by
      have hname := getString_append hec
        (encFixedFields f ++ (encFormatCode f.fmtCode ++ (fields.flatMap encFieldDescription ++ rest)))
        (h f (by simp)).name
      have hfixed := checkSizeAndAdvance_append (encFixedFields f)
        (encFormatCode f.fmtCode ++ (fields.flatMap encFieldDescription ++ rest)) ec
      rw [show (encFixedFields f).length = fieldDescriptionFixedSize - 2 by
        simp [encFixedFields, fieldDescriptionFixedSize]] at hfixed
      have hcode := getIntegral_append hec (fields.flatMap encFieldDescription ++ rest)
        (fits_value f.fmtCode)
      have hvalid : isValidFormatCode f.fmtCode.value = true := by cases f.fmtCode <;> rfl
      rw [List.flatMap_cons, encFieldDescription, encString, List.append_assoc, List.append_assoc,
        List.append_assoc, List.append_assoc, List.singleton_append, List.length_cons, checkFields,
        hname]
      simp only
      rw [hfixed, encFormatCode, hcode]
      simp only [hvalid, Bool.not_true, Bool.false_eq_true, if_false]
      exact checkFields_append fields rest fun f' hf' => h f' (by simp [hf'])

/-- The mechanisms are counted up to the empty string that closes the list. -/
theorem countStrings_append : ∀ (strings : List Bytes) (rest : Bytes) (n : Nat),
    (∀ s ∈ strings, s ≠ [] ∧ (0 : UInt8) ∉ s) →
    countStrings ⟨strings.flatMap encString ++ 0 :: rest, ec⟩ n =
      (n + strings.length, ⟨rest, ec⟩)
  | [], rest, n, _ => by
      have hend := getString_append hec rest (s := []) (by simp)
      rw [countStrings]
      simp only [List.flatMap_nil, List.nil_append] at hend ⊢
      rw [hend, dif_pos rfl]
      rfl
  | s :: strings, rest, n, h => by
      obtain ⟨hne, hnot⟩ := h s (by simp)
      have hs := getString_append hec (strings.flatMap encString ++ 0 :: rest) hnot
      rw [List.flatMap_cons, encString, List.append_assoc, List.append_assoc,
        List.singleton_append, countStrings]
      rw [hs, dif_neg hne]
      simp only
      rw [countStrings_append strings rest (n + 1) fun s' hs' => h s' (by simp [hs']),
        List.length_cons, Nat.add_assoc, Nat.add_comm 1]

end

/-- A loop that records no error has gone through encoded items, as many as it was asked for. -/
theorem skipStrings_takes : ∀ (n : Nat) {ctx : ParseContext},
    (skipStrings n ctx).ec.failed = false → ∃ strings : List Bytes, strings.length = n ∧
      (∀ s ∈ strings, (0 : UInt8) ∉ s) ∧ Takes ctx (strings.flatMap encString) (skipStrings n ctx)
  | 0, _, h => ⟨[], rfl, by simp, .refl h⟩
  | n + 1, ctx, h => by
      obtain ⟨strings, hlen, hall, htakes⟩ := skipStrings_takes n h
      obtain ⟨hfirst, hnot⟩ := getString_takes htakes.good
      refine ⟨ctx.getString.1 :: strings, by rw [List.length_cons, hlen], ?_, hfirst.trans htakes⟩
      intro s hs
      rcases List.mem_cons.mp hs with rfl | hs
      · exact hnot
      · exact hall s hs

/-- The code of an accepted value. -/
theorem exists_formatCode {v : Int} (h : isValidFormatCode v = true) : ∃ c : FormatCode, c.value = v := by
  unfold isValidFormatCode at h
  rw [Bool.or_eq_true, beq_iff_eq, beq_iff_eq] at h
  rcases h with rfl | rfl
  · exact ⟨.text, rfl⟩
  · exact ⟨.binary, rfl⟩

theorem checkFmtCodes_takes {shouldBeText : Bool} : ∀ (n : Nat) {ctx : ParseContext},
    (checkFmtCodes shouldBeText n ctx).ec.failed = false → ∃ codes : List FormatCode,
      codes.length = n ∧ (shouldBeText = true → ∀ c ∈ codes, c = .text) ∧
      Takes ctx (codes.flatMap encFormatCode) (checkFmtCodes shouldBeText n ctx)
  | 0, _, h => ⟨[], rfl, by simp, .refl h⟩
  | n + 1, ctx, h => by
      unfold checkFmtCodes at h ⊢
      simp only at h ⊢
      obtain ⟨codes, hlen, hall, htakes⟩ := checkFmtCodes_takes n h
      have hgood := htakes.good
      split at hgood
      · simp at hgood
      · rename_i hvalid
        rw [if_neg hvalid] at htakes ⊢
        obtain ⟨hfirst, _⟩ := getIntegral_takes hgood
        simp only [Bool.or_eq_true, Bool.not_eq_true', not_or, Bool.not_eq_false,
          Bool.and_eq_true, bne_iff_ne, ne_eq, not_and, Decidable.not_not] at hvalid
        obtain ⟨c, hc⟩ := exists_formatCode hvalid.2
        rw [← hc] at hfirst
        refine ⟨c :: codes, by rw [List.length_cons, hlen], fun ht c' hc' => ?_,
          hfirst.trans htakes⟩
        rcases List.mem_cons.mp hc' with rfl | hc'
        · have hzero := hvalid.1 ht
          rw [← hc] at hzero
          cases c' with
          | text => rfl
          | binary => cases hzero
        · exact hall ht c' hc'

theorem checkColumns_takes : ∀ (n : Nat) {ctx : ParseContext},
    (checkColumns n ctx).ec.failed = false → ∃ columns : List (Option Bytes), columns.length = n ∧
      (∀ c ∈ columns, ColumnFits c) ∧ Takes ctx (columns.flatMap encColumn) (checkColumns n ctx)
  | 0, _, h => ⟨[], rfl, by simp, .refl h⟩
  | n + 1, ctx, h => by
      unfold checkColumns at h ⊢
      simp only at h ⊢
      obtain ⟨columns, hlen, hall, htakes⟩ := checkColumns_takes n h
      have hgood := htakes.good
      have hcons : ∀ c, ColumnFits c → ∀ c' ∈ c :: columns, ColumnFits c' := by
        intro c hc c' hc'
        rcases List.mem_cons.mp hc' with rfl | hc'
        · exact hc
        · exact hall c' hc'
      split at hgood
      · rename_i hnull
        rw [if_pos hnull] at htakes ⊢
        obtain ⟨hfirst, _⟩ := getIntegral_takes hgood
        rw [hnull] at hfirst
        exact ⟨none :: columns, by rw [List.length_cons, hlen], hcons none (fun v hv => by cases hv),
          hfirst.trans htakes⟩
      · rename_i hnull
        rw [if_neg hnull] at htakes ⊢
        split at hgood
        · rename_i hsize
          rw [if_pos hsize] at htakes ⊢
          obtain ⟨v, hv, hvalue⟩ := checkSizeAndAdvance_takes hgood
          obtain ⟨hfirst, hfits⟩ := getIntegral_takes hvalue.good
          have hvlen : (ctx.getIntegral 4).1 = (v.length : Int) := by omega
          rw [hvlen] at hfirst hfits
          have htake : Takes ctx ((some v :: columns).flatMap encColumn) _ :=
            (hfirst.trans hvalue).trans htakes
          refine ⟨some v :: columns, by rw [List.length_cons, hlen], hcons (some v) ?_, htake⟩
          intro v' hv'
          cases hv'
          exact hfits
        · simp at hgood

/-- The integer of `w` bytes, `n` bytes into the input. -/
theorem fits_slice {bytes : Bytes} {n w : Nat} (h : n + w ≤ bytes.length) :
    Fits w (toInt ((bytes.drop n).take w)) ∧
      ofInt w (toInt ((bytes.drop n).take w)) = (bytes.drop n).take w := by
  have hlen : ((bytes.drop n).take w).length = w := by
    rw [List.length_take, List.length_drop]
    omega
  have hfits := fits_toInt ((bytes.drop n).take w)
  have hback := ofInt_toInt ((bytes.drop n).take w)
  rw [hlen] at hfits hback
  exact ⟨hfits, hback⟩

theorem slice_append (bytes : Bytes) (n w : Nat) :
    (bytes.drop n).take w ++ bytes.drop (n + w) = bytes.drop n := by
  rw [← List.drop_drop]
  exact List.take_append_drop w (bytes.drop n)

/-- Sixteen bytes are the fixed fields of a field description. -/
theorem exists_fixedFields {bytes : Bytes} (h : bytes.length = fieldDescriptionFixedSize - 2)
    {name : Bytes} (hname : (0 : UInt8) ∉ name) (fmtCode : FormatCode) :
    ∃ f : FieldDescription, f.name = name ∧ f.fmtCode = fmtCode ∧ f.WellFormed ∧
      encFixedFields f = bytes := by
  unfold fieldDescriptionFixedSize at h
  obtain ⟨htableOid, hencTableOid⟩ := @fits_slice bytes 0 4 (by omega)
  obtain ⟨hattribute, hencAttribute⟩ := @fits_slice bytes 4 2 (by omega)
  obtain ⟨htypeOid, hencTypeOid⟩ := @fits_slice bytes 6 4 (by omega)
  obtain ⟨hlength, hencLength⟩ := @fits_slice bytes 10 2 (by omega)
  obtain ⟨hmodifier, hencModifier⟩ := @fits_slice bytes 12 4 (by omega)
  refine ⟨⟨name, toInt ((bytes.drop 0).take 4), toInt ((bytes.drop 4).take 2),
    toInt ((bytes.drop 6).take 4), toInt ((bytes.drop 10).take 2), toInt ((bytes.drop 12).take 4),
    fmtCode⟩, rfl, rfl, ⟨hname, htableOid, hattribute, htypeOid, hlength, hmodifier⟩, ?_⟩
  unfold encFixedFields
  simp only [hencTableOid, hencAttribute, hencTypeOid, hencLength, hencModifier]
  have hlast : (bytes.drop 12).take 4 = bytes.drop 12 :=
    List.take_of_length_le (by rw [List.length_drop]; omega)
  rw [hlast, slice_append bytes 10 2, slice_append bytes 6 4, slice_append bytes 4 2,
    slice_append bytes 0 4, List.drop_zero]

theorem checkFields_takes : ∀ (n : Nat) {ctx : ParseContext},
    (checkFields n ctx).ec.failed = false → ∃ fields : List FieldDescription, fields.length = n ∧
      (∀ f ∈ fields, f.WellFormed) ∧
      Takes ctx (fields.flatMap encFieldDescription) (checkFields n ctx)
  | 0, _, h => ⟨[], rfl, by simp, .refl h⟩
  | n + 1, ctx, h => by
      unfold checkFields at h ⊢
      simp only at h ⊢
      obtain ⟨fields, hlen, hall, htakes⟩ := checkFields_takes n h
      have hgood := htakes.good
      split at hgood
      · simp at hgood
      · rename_i hvalid
        rw [if_neg hvalid] at htakes ⊢
        obtain ⟨hcode, _⟩ := getIntegral_takes hgood
        obtain ⟨bytes, hbytes, hfixed⟩ := checkSizeAndAdvance_takes hcode.good
        obtain ⟨hname, hnot⟩ := getString_takes hfixed.good
        obtain ⟨c, hc⟩ := exists_formatCode (by simpa using hvalid)
        rw [← hc] at hcode
        obtain ⟨f, hfname, hfcode, hwf, rfl⟩ := exists_fixedFields hbytes hnot c
        refine ⟨f :: fields, by rw [List.length_cons, hlen], ?_, ?_⟩
        · intro f' hf'
          rcases List.mem_cons.mp hf' with rfl | hf'
          · exact hwf
          · exact hall f' hf'
        · rw [List.flatMap_cons, encFieldDescription, hfname, hfcode]
          exact (hname.trans (hfixed.trans hcode)).trans htakes

theorem countStrings_takes {ctx : ParseContext} {n : Nat}
    (h : (countStrings ctx n).2.ec.failed = false) : ∃ strings : List Bytes,
      (countStrings ctx n).1 = n + strings.length ∧
      (∀ s ∈ strings, s ≠ [] ∧ (0 : UInt8) ∉ s) ∧
      Takes ctx (strings.flatMap encString ++ [0]) (countStrings ctx n).2 := by
  induction ctx, n using countStrings.induct with
  | case1 ctx n hnil =>
    rw [countStrings, dif_pos hnil] at h ⊢
    obtain ⟨htakes, _⟩ := getString_takes h
    rw [hnil] at htakes
    exact ⟨[], rfl, by simp, htakes⟩
  | case2 ctx n hne ih =>
    rw [countStrings, dif_neg hne] at h ⊢
    obtain ⟨strings, hlen, hall, htakes⟩ := ih h
    obtain ⟨hfirst, hnot⟩ := getString_takes htakes.good
    refine ⟨ctx.getString.1 :: strings, by rw [hlen, List.length_cons]; omega, ?_, ?_⟩
    · intro s hs
      rcases List.mem_cons.mp hs with rfl | hs
      · exact ⟨hne, hnot⟩
      · exact hall s hs
    · rw [List.flatMap_cons, List.append_assoc]
      exact hfirst.trans htakes

/-! ## 2. The parsers -/

/-- The body of BackendKeyData. -/
def encBackendKeyData (m : BackendKeyData) : Bytes := ofInt 4 m.processId ++ ofInt 4 m.secretKey

def BackendKeyData.WellFormed (m : BackendKeyData) : Prop := Fits 4 m.processId ∧ Fits 4 m.secretKey

theorem parseBackendKeyData_encode {m : BackendKeyData} (h : m.WellFormed) :
    parseBackendKeyData (encBackendKeyData m) = (.success, m) := by
  have hkey := getIntegral_append ErrorCode.failed_success [] h.2
  rw [List.append_nil] at hkey
  unfold parseBackendKeyData encBackendKeyData
  simp only [getIntegral_append ErrorCode.failed_success _ h.1, hkey]
  rfl

theorem parseBackendKeyData_ok {data : Bytes} (h : (parseBackendKeyData data).1.failed = false) :
    (parseBackendKeyData data).2.WellFormed ∧
      data = encBackendKeyData (parseBackendKeyData data).2 := by
  unfold parseBackendKeyData at h ⊢
  simp only at h ⊢
  obtain ⟨hgood, hnil⟩ := check_ok.mp h
  obtain ⟨hkey, hkeyFits⟩ := getIntegral_takes hgood
  obtain ⟨hid, hidFits⟩ := getIntegral_takes hkey.good
  exact ⟨⟨hidFits, hkeyFits⟩, (hid.trans hkey).whole hnil⟩

theorem parseMd5Password_encode {salt : Bytes} (h : salt.length = 4) :
    parseMd5Password salt = (.success, salt) := by
  have hsalt := getByteArray_append ErrorCode.failed_success [] salt
  rw [h, List.append_nil] at hsalt
  unfold parseMd5Password
  simp only [hsalt]
  rfl

theorem parseMd5Password_ok {data : Bytes} (h : (parseMd5Password data).1.failed = false) :
    (parseMd5Password data).2.length = 4 ∧ data = (parseMd5Password data).2 := by
  unfold parseMd5Password at h ⊢
  simp only at h ⊢
  obtain ⟨hgood, hnil⟩ := check_ok.mp h
  obtain ⟨hsalt, hlen⟩ := getByteArray_takes hgood
  exact ⟨hlen, hsalt.whole hnil⟩

/-- A list of strings, closed by an empty one. -/
def encStringList (strings : List Bytes) : Bytes := strings.flatMap encString ++ [0]

theorem parseSasl_encode {mechanisms : List Bytes}
    (h : ∀ s ∈ mechanisms, s ≠ [] ∧ (0 : UInt8) ∉ s) :
    parseSasl (encStringList mechanisms) =
      (.success, { size := mechanisms.length, data := mechanisms.flatMap encString }) := by
  have hcount := countStrings_append ErrorCode.failed_success mechanisms [] 0 h
  unfold parseSasl encStringList
  simp only [hcount, Nat.zero_add, between_nil, List.dropLast_concat]
  rfl

theorem parseSasl_ok {data : Bytes} (h : (parseSasl data).1.failed = false) :
    ∃ mechanisms : List Bytes, (∀ s ∈ mechanisms, s ≠ [] ∧ (0 : UInt8) ∉ s) ∧
      data = encStringList mechanisms ∧
      (parseSasl data).2 = { size := mechanisms.length, data := mechanisms.flatMap encString } := by
  unfold parseSasl at h ⊢
  simp only at h ⊢
  obtain ⟨hgood, hnil⟩ := check_ok.mp h
  obtain ⟨mechanisms, hsize, hall, htakes⟩ := countStrings_takes hgood
  refine ⟨mechanisms, hall, htakes.whole hnil, ?_⟩
  rw [htakes.between, hsize, Nat.zero_add, List.dropLast_concat]

theorem parseCommandComplete_encode {tag : Bytes} (h : (0 : UInt8) ∉ tag) :
    parseCommandComplete (encString tag) = (.success, tag) := by
  unfold parseCommandComplete encString
  simp only [getString_append ErrorCode.failed_success [] h]
  rfl

theorem parseCommandComplete_ok {data : Bytes} (h : (parseCommandComplete data).1.failed = false) :
    (0 : UInt8) ∉ (parseCommandComplete data).2 ∧ data = encString (parseCommandComplete data).2 := by
  unfold parseCommandComplete at h ⊢
  simp only at h ⊢
  obtain ⟨hgood, hnil⟩ := check_ok.mp h
  obtain ⟨htag, hnot⟩ := getString_takes hgood
  exact ⟨hnot, htag.whole hnil⟩

/-- The format of a whole COPY, as a byte. -/
def FormatCode.overall : FormatCode → UInt8
  | .text => 0
  | .binary => 1

theorem exists_overall {b : UInt8} (h : isValidFormatCode b.toNat = true) :
    ∃ c : FormatCode, c.overall = b ∧ (if b = 0 then FormatCode.text else .binary) = c := by
  obtain ⟨c, hc⟩ := exists_formatCode h
  cases c with
  | text =>
    have hb : b = 0 := UInt8.toNat_inj.mp (by simpa [FormatCode.value] using hc.symm)
    exact ⟨.text, hb.symm, if_pos hb⟩
  | binary =>
    have hb : b = 1 := UInt8.toNat_inj.mp (Int.ofNat.inj hc.symm)
    exact ⟨.binary, hb.symm, by rw [hb]; rfl⟩

/-- The body of CopyInResponse, CopyOutResponse and CopyBothResponse. -/
def encCopyResponse (overall : FormatCode) (codes : List FormatCode) : Bytes :=
  overall.overall :: (ofInt 2 codes.length ++ codes.flatMap encFormatCode)

structure CopyWellFormed (overall : FormatCode) (codes : List FormatCode) : Prop where
  count : Fits 2 codes.length
  text : overall = .text → ∀ c ∈ codes, c = .text

theorem parseCopyResponse_encode {overall : FormatCode} {codes : List FormatCode}
    (h : CopyWellFormed overall codes) :
    parseCopyResponse (encCopyResponse overall codes) = (.success,
      { overallFmtCode := overall
        fmtCodes := { data := codes.flatMap encFormatCode, size := codes.length } }) := by
  have hcount := getNonnegativeIntegral_append ErrorCode.failed_success
    (codes.flatMap encFormatCode) h.count
  have htext : decide (overall.overall = 0) = true → ∀ c ∈ codes, c = .text := by
    intro ht
    cases overall with
    | text => exact h.text rfl
    | binary => cases ht
  have hcodes := checkFmtCodes_append ErrorCode.failed_success codes [] htext
  rw [List.append_nil] at hcodes
  unfold parseCopyResponse encCopyResponse
  simp only [getByte_cons ErrorCode.failed_success, hcount, hcodes]
  cases overall <;> rfl

theorem parseCopyResponse_ok {data : Bytes} (h : (parseCopyResponse data).1.failed = false) :
    ∃ overall codes, CopyWellFormed overall codes ∧ data = encCopyResponse overall codes ∧
      (parseCopyResponse data).2 =
        { overallFmtCode := overall
          fmtCodes := { data := codes.flatMap encFormatCode, size := codes.length } } := by
  unfold parseCopyResponse at h ⊢
  simp only at h ⊢
  split at h
  · obtain ⟨hgood, _⟩ := check_ok.mp h
    simp at hgood
  · rename_i hvalid
    rw [if_neg hvalid]
    obtain ⟨hgood, hnil⟩ := check_ok.mp h
    obtain ⟨codes, hlen, htext, hcodes⟩ := checkFmtCodes_takes _ hgood
    obtain ⟨hcount, hfits⟩ := getNonnegativeIntegral_takes hcodes.good
    have hbyte := getByte_takes hcount.good
    have hview := hcodes.rest
    rw [hnil, List.append_nil] at hview
    rw [← hlen] at hcount hfits
    obtain ⟨overall, hoverall, hcode⟩ := exists_overall (by simpa using hvalid)
    rw [← hoverall] at hbyte
    refine ⟨overall, codes, ⟨hfits, fun ht => htext ?_⟩,
      ((hbyte.trans hcount).trans hcodes).whole hnil, ?_⟩
    · rw [← hoverall, ht]
      rfl
    · rw [hcode, hview, hlen]

/-- The body of DataRow. -/
def encDataRow (columns : List (Option Bytes)) : Bytes :=
  ofInt 2 columns.length ++ columns.flatMap encColumn

structure RowWellFormed (columns : List (Option Bytes)) : Prop where
  count : Fits 2 columns.length
  columns : ∀ c ∈ columns, ColumnFits c

theorem parseDataRow_encode {columns : List (Option Bytes)} (h : RowWellFormed columns) :
    parseDataRow (encDataRow columns) = (.success,
      { columns := { size := columns.length, data := columns.flatMap encColumn } }) := by
  have hcount := getNonnegativeIntegral_append ErrorCode.failed_success
    (columns.flatMap encColumn) h.count
  have hcolumns := checkColumns_append ErrorCode.failed_success columns [] h.columns
  rw [List.append_nil] at hcolumns
  unfold parseDataRow encDataRow
  simp only [hcount, hcolumns, between_nil]
  rfl

theorem parseDataRow_ok {data : Bytes} (h : (parseDataRow data).1.failed = false) :
    ∃ columns, RowWellFormed columns ∧ data = encDataRow columns ∧ (parseDataRow data).2 =
      { columns := { size := columns.length, data := columns.flatMap encColumn } } := by
  unfold parseDataRow at h ⊢
  simp only at h ⊢
  obtain ⟨hgood, hnil⟩ := check_ok.mp h
  obtain ⟨columns, hlen, hall, hcolumns⟩ := checkColumns_takes _ hgood
  obtain ⟨hcount, hfits⟩ := getNonnegativeIntegral_takes hcolumns.good
  rw [← hlen] at hcount hfits
  exact ⟨columns, ⟨hfits, hall⟩, (hcount.trans hcolumns).whole hnil, by rw [hcolumns.between, hlen]⟩

/-- The body of NegotiateProtocolVersion. -/
def encNegotiate (minorVersion : Int) (options : List Bytes) : Bytes :=
  ofInt 4 minorVersion ++ (ofInt 4 options.length ++ options.flatMap encString)

structure NegotiateWellFormed (minorVersion : Int) (options : List Bytes) : Prop where
  minorVersion : Fits 4 minorVersion
  count : Fits 4 options.length
  options : ∀ s ∈ options, (0 : UInt8) ∉ s

theorem parseNegotiateProtocolVersion_encode {minorVersion : Int} {options : List Bytes}
    (h : NegotiateWellFormed minorVersion options) (hminor : 0 ≤ minorVersion) :
    parseNegotiateProtocolVersion (encNegotiate minorVersion options) = (.success,
      ⟨minorVersion, { size := options.length, data := options.flatMap encString }⟩) := by
  obtain ⟨n, rfl⟩ := Int.eq_ofNat_of_zero_le hminor
  have hversion := getNonnegativeIntegral_append ErrorCode.failed_success
    (ofInt 4 options.length ++ options.flatMap encString) h.minorVersion
  have hcount := getNonnegativeIntegral_append ErrorCode.failed_success
    (options.flatMap encString) h.count
  have hoptions := skipStrings_append ErrorCode.failed_success options [] h.options
  rw [List.append_nil] at hoptions
  unfold parseNegotiateProtocolVersion encNegotiate
  simp only [hversion, hcount, hoptions, between_nil]
  rfl

theorem parseNegotiateProtocolVersion_ok {data : Bytes}
    (h : (parseNegotiateProtocolVersion data).1.failed = false) :
    ∃ (minorVersion : Int) (options : List Bytes), NegotiateWellFormed minorVersion options ∧
      0 ≤ minorVersion ∧ data = encNegotiate minorVersion options ∧
      (parseNegotiateProtocolVersion data).2 =
        ⟨minorVersion, { size := options.length, data := options.flatMap encString }⟩ := by
  unfold parseNegotiateProtocolVersion at h ⊢
  simp only at h ⊢
  obtain ⟨hgood, hnil⟩ := check_ok.mp h
  obtain ⟨options, hlen, hall, hoptions⟩ := skipStrings_takes _ hgood
  obtain ⟨hcount, hfits⟩ := getNonnegativeIntegral_takes hoptions.good
  obtain ⟨hversion, hversionFits⟩ := getNonnegativeIntegral_takes hcount.good
  rw [← hlen] at hcount hfits
  exact ⟨_, options, ⟨hversionFits, hfits, hall⟩, Int.natCast_nonneg _,
    (hversion.trans (hcount.trans hoptions)).whole hnil, by rw [hoptions.between, hlen]⟩

/-- The body of NotificationResponse. -/
def encNotification (m : NotificationResponse) : Bytes :=
  ofInt 4 m.processId ++ (encString m.channelName ++ encString m.payload)

structure NotificationResponse.WellFormed (m : NotificationResponse) : Prop where
  processId : Fits 4 m.processId
  channelName : (0 : UInt8) ∉ m.channelName
  payload : (0 : UInt8) ∉ m.payload

theorem parseNotificationResponse_encode {m : NotificationResponse} (h : m.WellFormed) :
    parseNotificationResponse (encNotification m) = (.success, m) := by
  unfold parseNotificationResponse encNotification encString
  simp only [getIntegral_append ErrorCode.failed_success _ h.processId, List.append_assoc,
    List.singleton_append, getString_append ErrorCode.failed_success _ h.channelName,
    getString_append ErrorCode.failed_success [] h.payload]
  rfl

theorem parseNotificationResponse_ok {data : Bytes}
    (h : (parseNotificationResponse data).1.failed = false) :
    (parseNotificationResponse data).2.WellFormed ∧
      data = encNotification (parseNotificationResponse data).2 := by
  unfold parseNotificationResponse at h ⊢
  simp only at h ⊢
  obtain ⟨hgood, hnil⟩ := check_ok.mp h
  obtain ⟨hpayload, hpayloadNot⟩ := getString_takes hgood
  obtain ⟨hchannel, hchannelNot⟩ := getString_takes hpayload.good
  obtain ⟨hid, hidFits⟩ := getIntegral_takes hchannel.good
  exact ⟨⟨hidFits, hchannelNot, hpayloadNot⟩, (hid.trans (hchannel.trans hpayload)).whole hnil⟩

/-- The body of ParameterStatus. -/
def encParameterStatus (m : ParameterStatus) : Bytes := encString m.name ++ encString m.value

def ParameterStatus.WellFormed (m : ParameterStatus) : Prop :=
  (0 : UInt8) ∉ m.name ∧ (0 : UInt8) ∉ m.value

theorem parseParameterStatus_encode {m : ParameterStatus} (h : m.WellFormed) :
    parseParameterStatus (encParameterStatus m) = (.success, m) := by
  unfold parseParameterStatus encParameterStatus encString
  simp only [List.append_assoc, List.singleton_append,
    getString_append ErrorCode.failed_success _ h.1, getString_append ErrorCode.failed_success [] h.2]
  rfl

theorem parseParameterStatus_ok {data : Bytes} (h : (parseParameterStatus data).1.failed = false) :
    (parseParameterStatus data).2.WellFormed ∧
      data = encParameterStatus (parseParameterStatus data).2 := by
  unfold parseParameterStatus at h ⊢
  simp only at h ⊢
  obtain ⟨hgood, hnil⟩ := check_ok.mp h
  obtain ⟨hvalue, hvalueNot⟩ := getString_takes hgood
  obtain ⟨hname, hnameNot⟩ := getString_takes hvalue.good
  exact ⟨⟨hnameNot, hvalueNot⟩, (hname.trans hvalue).whole hnil⟩

/-- The byte of a transaction status. -/
def TransactionStatus.byte : TransactionStatus → UInt8
  | .idle => 73
  | .inTransaction => 84
  | .failed => 69

theorem parseReadyForQuery_encode (status : TransactionStatus) :
    parseReadyForQuery [status.byte] = (.success, status) := by
  cases status <;> rfl

theorem byte_of_transactionStatus : ∀ {b : UInt8} {status : TransactionStatus},
    transactionStatus? b = some status → b = status.byte := by
  have hall : ∀ b : UInt8, ∀ status ∈ transactionStatus? b, b = status.byte :=
    forall_byte (by decide +kernel)
  intro b status h
  exact hall b status h

theorem parseReadyForQuery_ok {data : Bytes} (h : (parseReadyForQuery data).1.failed = false) :
    data = [(parseReadyForQuery data).2.byte] := by
  unfold parseReadyForQuery at h ⊢
  simp only at h ⊢
  split
  · rename_i status hstatus
    rw [hstatus] at h
    obtain ⟨hgood, hnil⟩ := check_ok.mp h
    have hbyte := getByte_takes hgood
    rw [byte_of_transactionStatus hstatus] at hbyte
    exact hbyte.whole hnil
  · rename_i hstatus
    rw [hstatus] at h
    obtain ⟨hgood, _⟩ := check_ok.mp h
    simp at hgood

/-- The body of RowDescription. -/
def encRowDescription (fields : List FieldDescription) : Bytes :=
  ofInt 2 fields.length ++ fields.flatMap encFieldDescription

structure FieldsWellFormed (fields : List FieldDescription) : Prop where
  count : Fits 2 fields.length
  fields : ∀ f ∈ fields, f.WellFormed

theorem parseRowDescription_encode {fields : List FieldDescription} (h : FieldsWellFormed fields) :
    parseRowDescription (encRowDescription fields) = (.success,
      { fieldDescriptions :=
        { size := fields.length, data := fields.flatMap encFieldDescription } }) := by
  have hcount := getNonnegativeIntegral_append ErrorCode.failed_success
    (fields.flatMap encFieldDescription) h.count
  have hfields := checkFields_append ErrorCode.failed_success fields [] h.fields
  rw [List.append_nil] at hfields
  unfold parseRowDescription encRowDescription
  simp only [hcount, hfields, between_nil]
  rfl

theorem parseRowDescription_ok {data : Bytes} (h : (parseRowDescription data).1.failed = false) :
    ∃ fields, FieldsWellFormed fields ∧ data = encRowDescription fields ∧
      (parseRowDescription data).2 = { fieldDescriptions :=
        { size := fields.length, data := fields.flatMap encFieldDescription } } := by
  unfold parseRowDescription at h ⊢
  simp only at h ⊢
  obtain ⟨hgood, hnil⟩ := check_ok.mp h
  obtain ⟨fields, hlen, hall, hfields⟩ := checkFields_takes _ hgood
  obtain ⟨hcount, hfits⟩ := getNonnegativeIntegral_takes hfields.good
  rw [← hlen] at hcount hfits
  exact ⟨fields, ⟨hfits, hall⟩, (hcount.trans hfields).whole hnil, by rw [hfields.between, hlen]⟩

/-! ## 3. Messages -/

/-- The messages `parse_any_message` recognises, with their lists; ErrorResponse, NoticeResponse and
    ParameterDescription are left out. -/
inductive BackendMessage where
  | authenticationOk
  | authenticationKerberosV5
  | authenticationCleartextPassword
  | authenticationMd5Password (salt : Bytes)
  | authenticationGss
  | authenticationGssContinue (data : Bytes)
  | authenticationSspi
  | authenticationSasl (mechanisms : List Bytes)
  | authenticationSaslContinue (data : Bytes)
  | authenticationSaslFinal (data : Bytes)
  | backendKeyData (m : BackendKeyData)
  | bindComplete
  | closeComplete
  | commandComplete (tag : Bytes)
  | copyData (data : Bytes)
  | copyDone
  | copyInResponse (overall : FormatCode) (codes : List FormatCode)
  | copyOutResponse (overall : FormatCode) (codes : List FormatCode)
  | copyBothResponse (overall : FormatCode) (codes : List FormatCode)
  | dataRow (columns : List (Option Bytes))
  | emptyQueryResponse
  | negotiateProtocolVersion (minorVersion : Int) (options : List Bytes)
  | noData
  | notificationResponse (m : NotificationResponse)
  | parameterStatus (m : ParameterStatus)
  | parseComplete
  | portalSuspended
  | readyForQuery (status : TransactionStatus)
  | rowDescription (fields : List FieldDescription)
  deriving DecidableEq, Repr

namespace BackendMessage

/-- The type byte, as a character. -/
def type : BackendMessage → Char
  | authenticationOk | authenticationKerberosV5 | authenticationCleartextPassword
  | authenticationMd5Password _ | authenticationGss | authenticationGssContinue _
  | authenticationSspi | authenticationSasl _ | authenticationSaslContinue _
  | authenticationSaslFinal _ => 'R'
  | backendKeyData _ => 'K'
  | bindComplete => '2'
  | closeComplete => '3'
  | commandComplete _ => 'C'
  | copyData _ => 'd'
  | copyDone => 'c'
  | copyInResponse _ _ => 'G'
  | copyOutResponse _ _ => 'H'
  | copyBothResponse _ _ => 'W'
  | dataRow _ => 'D'
  | emptyQueryResponse => 'I'
  | negotiateProtocolVersion _ _ => 'v'
  | noData => 'n'
  | notificationResponse _ => 'A'
  | parameterStatus _ => 'S'
  | parseComplete => '1'
  | portalSuspended => 's'
  | readyForQuery _ => 'Z'
  | rowDescription _ => 'T'

def typeByte (m : BackendMessage) : UInt8 := m.type.toNat.toUInt8

/-- The body, as the protocol lays it out. -/
def enc : BackendMessage → Bytes
  | authenticationOk => ofInt 4 0
  | authenticationKerberosV5 => ofInt 4 2
  | authenticationCleartextPassword => ofInt 4 3
  | authenticationMd5Password salt => ofInt 4 5 ++ salt
  | authenticationGss => ofInt 4 7
  | authenticationGssContinue data => ofInt 4 8 ++ data
  | authenticationSspi => ofInt 4 9
  | authenticationSasl mechanisms => ofInt 4 10 ++ encStringList mechanisms
  | authenticationSaslContinue data => ofInt 4 11 ++ data
  | authenticationSaslFinal data => ofInt 4 12 ++ data
  | backendKeyData m => encBackendKeyData m
  | commandComplete tag => encString tag
  | copyData data => data
  | copyInResponse overall codes | copyOutResponse overall codes
  | copyBothResponse overall codes => encCopyResponse overall codes
  | dataRow columns => encDataRow columns
  | negotiateProtocolVersion minorVersion options => encNegotiate minorVersion options
  | notificationResponse m => encNotification m
  | parameterStatus m => encParameterStatus m
  | readyForQuery status => [status.byte]
  | rowDescription fields => encRowDescription fields
  | bindComplete | closeComplete | copyDone | emptyQueryResponse | noData | parseComplete
  | portalSuspended => []

/-- **Strings have no NUL and mechanisms are not empty, integers and counts fit their fields, and
    the columns of a COPY in the text format are text.** -/
def WellFormed : BackendMessage → Prop
  | authenticationMd5Password salt => salt.length = 4
  | authenticationSasl mechanisms => ∀ s ∈ mechanisms, s ≠ [] ∧ (0 : UInt8) ∉ s
  | backendKeyData m => m.WellFormed
  | commandComplete tag => (0 : UInt8) ∉ tag
  | copyInResponse overall codes | copyOutResponse overall codes
  | copyBothResponse overall codes => CopyWellFormed overall codes
  | dataRow columns => RowWellFormed columns
  | negotiateProtocolVersion minorVersion options => NegotiateWellFormed minorVersion options
  | notificationResponse m => m.WellFormed
  | parameterStatus m => m.WellFormed
  | rowDescription fields => FieldsWellFormed fields
  | _ => True

/-- A protocol version the server names is not negative. -/
def VersionNonnegative : BackendMessage → Prop
  | negotiateProtocolVersion minorVersion _ => 0 ≤ minorVersion
  | _ => True

/-- The parsed message, with its views. -/
def parsed : BackendMessage → AnyBackendMessage
  | authenticationOk => .authenticationOk
  | authenticationKerberosV5 => .authenticationKerberosV5
  | authenticationCleartextPassword => .authenticationCleartextPassword
  | authenticationMd5Password salt => .authenticationMd5Password salt
  | authenticationGss => .authenticationGss
  | authenticationGssContinue data => .authenticationGssContinue data
  | authenticationSspi => .authenticationSspi
  | authenticationSasl mechanisms =>
    .authenticationSasl ⟨mechanisms.length, mechanisms.flatMap encString⟩
  | authenticationSaslContinue data => .authenticationSaslContinue data
  | authenticationSaslFinal data => .authenticationSaslFinal data
  | backendKeyData m => .backendKeyData m
  | bindComplete => .bindComplete
  | closeComplete => .closeComplete
  | commandComplete tag => .commandComplete tag
  | copyData data => .copyData data
  | copyDone => .copyDone
  | copyInResponse overall codes =>
    .copyInResponse ⟨overall, ⟨codes.flatMap encFormatCode, codes.length⟩⟩
  | copyOutResponse overall codes =>
    .copyOutResponse ⟨overall, ⟨codes.flatMap encFormatCode, codes.length⟩⟩
  | copyBothResponse overall codes =>
    .copyBothResponse ⟨overall, ⟨codes.flatMap encFormatCode, codes.length⟩⟩
  | dataRow columns => .dataRow ⟨columns.length, columns.flatMap encColumn⟩
  | emptyQueryResponse => .emptyQueryResponse
  | negotiateProtocolVersion minorVersion options =>
    .negotiateProtocolVersion ⟨minorVersion, ⟨options.length, options.flatMap encString⟩⟩
  | noData => .noData
  | notificationResponse m => .notificationResponse m
  | parameterStatus m => .parameterStatus m
  | parseComplete => .parseComplete
  | portalSuspended => .portalSuspended
  | readyForQuery status => .readyForQuery status
  | rowDescription fields => .rowDescription ⟨⟨fields.length, fields.flatMap encFieldDescription⟩⟩

end BackendMessage

namespace AnyBackendMessage

/-- **What a parsed message says**: views are walked through from `begin()` to `end()`, which has to
    take `size()` steps. -/
def content : AnyBackendMessage → Checked (Option BackendMessage)
  | authenticationOk => pure (some .authenticationOk)
  | authenticationKerberosV5 => pure (some .authenticationKerberosV5)
  | authenticationCleartextPassword => pure (some .authenticationCleartextPassword)
  | authenticationMd5Password salt => pure (some (.authenticationMd5Password salt))
  | authenticationGss => pure (some .authenticationGss)
  | authenticationGssContinue data => pure (some (.authenticationGssContinue data))
  | authenticationSspi => pure (some .authenticationSspi)
  | authenticationSasl mechanisms => do
    return (← mechanisms.items? stringTraits).map .authenticationSasl
  | authenticationSaslContinue data => pure (some (.authenticationSaslContinue data))
  | authenticationSaslFinal data => pure (some (.authenticationSaslFinal data))
  | backendKeyData m => pure (some (.backendKeyData m))
  | bindComplete => pure (some .bindComplete)
  | closeComplete => pure (some .closeComplete)
  | commandComplete tag => pure (some (.commandComplete tag))
  | copyData data => pure (some (.copyData data))
  | copyDone => pure (some .copyDone)
  | copyInResponse m => do
    return (← m.fmtCodes.items? 2 formatCodeTraits).map (.copyInResponse m.overallFmtCode)
  | copyOutResponse m => do
    return (← m.fmtCodes.items? 2 formatCodeTraits).map (.copyOutResponse m.overallFmtCode)
  | copyBothResponse m => do
    return (← m.fmtCodes.items? 2 formatCodeTraits).map (.copyBothResponse m.overallFmtCode)
  | dataRow m => do
    return (← m.columns.items? fieldViewTraits).map .dataRow
  | emptyQueryResponse => pure (some .emptyQueryResponse)
  | negotiateProtocolVersion m => do
    return (← m.nonRecognizedOptions.items? stringTraits).map
      (.negotiateProtocolVersion m.minorVersion)
  | noData => pure (some .noData)
  | notificationResponse m => pure (some (.notificationResponse m))
  | parameterStatus m => pure (some (.parameterStatus m))
  | parseComplete => pure (some .parseComplete)
  | portalSuspended => pure (some .portalSuspended)
  | readyForQuery status => pure (some (.readyForQuery status))
  | rowDescription m => do
    return (← m.fieldDescriptions.items? fieldDescriptionTraits).map .rowDescription
  | none | copyFail _ | fieldDescription _ | errorResponse _ | noticeResponse _
  | parameterDescription _ => pure Option.none

/-- The bytes the view of a message lies in. -/
def viewData : AnyBackendMessage → Bytes
  | authenticationSasl mechanisms => mechanisms.data
  | copyInResponse m | copyOutResponse m | copyBothResponse m => m.fmtCodes.data
  | dataRow m => m.columns.data
  | negotiateProtocolVersion m => m.nonRecognizedOptions.data
  | rowDescription m => m.fieldDescriptions.data
  | _ => []

/-- ErrorResponse, NoticeResponse or ParameterDescription. -/
def isLossy : AnyBackendMessage → Bool
  | errorResponse _ | noticeResponse _ | parameterDescription _ => true
  | _ => false

end AnyBackendMessage

/-! ## 4. Parsing and encoding are inverse -/

theorem items?_formatCodes (codes : List FormatCode) :
    RandomAccessParsingView.items? ⟨codes.flatMap encFormatCode, codes.length⟩ 2 formatCodeTraits =
      .ok (some codes) :=
  RandomAccessParsingView.items?_flatMap formatCodeTraits_encodes
    (fun c => length_ofInt 2 c.value) fun _ _ => trivial

/-- The views of a parsed message yield the items of the message. -/
theorem content_parsed {m : BackendMessage} (h : m.WellFormed) :
    m.parsed.content = .ok (some m) := by
  cases m with
  | authenticationSasl mechanisms =>
    have hitems := items?_flatMap stringTraits_encodes fun s hs => (h s hs).2
    simp only [BackendMessage.parsed, AnyBackendMessage.content, hitems, bind, Except.bind]
    rfl
  | copyInResponse overall codes | copyOutResponse overall codes | copyBothResponse overall codes =>
    simp only [BackendMessage.parsed, AnyBackendMessage.content, items?_formatCodes, bind,
      Except.bind]
    rfl
  | dataRow columns =>
    have hitems := items?_flatMap fieldViewTraits_encodes h.columns
    simp only [BackendMessage.parsed, AnyBackendMessage.content, hitems, bind, Except.bind]
    rfl
  | negotiateProtocolVersion minorVersion options =>
    have hitems := items?_flatMap stringTraits_encodes h.options
    simp only [BackendMessage.parsed, AnyBackendMessage.content, hitems, bind, Except.bind]
    rfl
  | rowDescription fields =>
    have hitems := items?_flatMap fieldDescriptionTraits_encodes h.fields
    simp only [BackendMessage.parsed, AnyBackendMessage.content, hitems, bind, Except.bind]
    rfl
  | _ => rfl

/-- The view of a parsed message lies in the body. -/
theorem viewData_parsed (m : BackendMessage) : m.parsed.viewData <:+: m.enc := by
  cases m with
  | authenticationSasl mechanisms =>
    exact ⟨ofInt 4 10, [0], by simp [BackendMessage.parsed, AnyBackendMessage.viewData,
      BackendMessage.enc, encStringList]⟩
  | copyInResponse overall codes | copyOutResponse overall codes | copyBothResponse overall codes =>
    exact ⟨overall.overall :: ofInt 2 codes.length, [], by simp [BackendMessage.parsed,
      AnyBackendMessage.viewData, BackendMessage.enc, encCopyResponse]⟩
  | dataRow columns => exact (List.suffix_append _ _).isInfix
  | negotiateProtocolVersion minorVersion options =>
    exact ((List.suffix_append _ _).trans (List.suffix_append _ _)).isInfix
  | rowDescription fields => exact (List.suffix_append _ _).isInfix
  | _ => exact List.nil_infix

/-- A parser that succeeds. -/
theorem parseAnyMessageImpl_success {α : Type} {r : ErrorCode × α} {v : α}
    {wrap : α → AnyBackendMessage} (h : r = (.success, v)) :
    parseAnyMessageImpl r wrap = .ok (wrap v) := by
  rw [h]
  rfl

theorem parseAuthenticationRequest_enc {kind : Int} (h : Fits 4 kind) (body : Bytes) :
    parseAuthenticationRequest (ofInt 4 kind ++ body) = parseAuthenticationKind kind body := by
  have hkind : loadBigSigned ((ofInt 4 kind ++ body).take 4) = kind := by
    rw [List.take_left' (length_ofInt 4 kind)]
    exact toInt_ofInt h
  unfold parseAuthenticationRequest
  rw [if_neg (by simp), List.drop_left' (length_ofInt 4 kind), hkind]

theorem parseAuthenticationRequest_kind {data : Bytes} {m : AnyBackendMessage}
    (h : parseAuthenticationRequest data = .ok m) :
    ∃ kind body, Fits 4 kind ∧ data = ofInt 4 kind ++ body := by
  by_cases hlen : data.length < 4
  · unfold parseAuthenticationRequest at h
    rw [if_pos hlen] at h
    cases h
  · obtain ⟨hfits, hkind⟩ := @fits_slice data 0 4 (by omega)
    refine ⟨_, data.drop 4, hfits, ?_⟩
    rw [hkind]
    exact (List.take_append_drop 4 data).symm

/-- **Every message is parsed back from its body.** -/
theorem parse_enc {m : BackendMessage} (h : m.WellFormed) (hv : m.VersionNonnegative) :
    parseAnyMessage m.typeByte m.enc = .ok m.parsed := by
  cases m with
  | authenticationOk => exact @parseAuthenticationRequest_enc 0 (by decide) []
  | authenticationKerberosV5 => exact @parseAuthenticationRequest_enc 2 (by decide) []
  | authenticationCleartextPassword => exact @parseAuthenticationRequest_enc 3 (by decide) []
  | authenticationMd5Password salt =>
    exact (@parseAuthenticationRequest_enc 5 (by decide) salt).trans
      (parseAnyMessageImpl_success (parseMd5Password_encode h))
  | authenticationGss => exact @parseAuthenticationRequest_enc 7 (by decide) []
  | authenticationGssContinue data => exact @parseAuthenticationRequest_enc 8 (by decide) data
  | authenticationSspi => exact @parseAuthenticationRequest_enc 9 (by decide) []
  | authenticationSasl mechanisms =>
    exact (@parseAuthenticationRequest_enc 10 (by decide) (encStringList mechanisms)).trans
      (parseAnyMessageImpl_success (parseSasl_encode h))
  | authenticationSaslContinue data => exact @parseAuthenticationRequest_enc 11 (by decide) data
  | authenticationSaslFinal data => exact @parseAuthenticationRequest_enc 12 (by decide) data
  | backendKeyData m => exact parseAnyMessageImpl_success (parseBackendKeyData_encode h)
  | commandComplete tag => exact parseAnyMessageImpl_success (parseCommandComplete_encode h)
  | copyInResponse overall codes | copyOutResponse overall codes | copyBothResponse overall codes =>
    exact parseAnyMessageImpl_success (parseCopyResponse_encode h)
  | dataRow columns => exact parseAnyMessageImpl_success (parseDataRow_encode h)
  | negotiateProtocolVersion minorVersion options =>
    exact parseAnyMessageImpl_success (parseNegotiateProtocolVersion_encode h hv)
  | notificationResponse m =>
    exact parseAnyMessageImpl_success (parseNotificationResponse_encode h)
  | parameterStatus m => exact parseAnyMessageImpl_success (parseParameterStatus_encode h)
  | readyForQuery status => exact parseAnyMessageImpl_success (parseReadyForQuery_encode status)
  | rowDescription fields => exact parseAnyMessageImpl_success (parseRowDescription_encode h)
  | bindComplete | closeComplete | copyData _ | copyDone | emptyQueryResponse | noData
  | parseComplete | portalSuspended => rfl

/-- What is to be shown of an accepted body. -/
def IsBody (t : UInt8) (body : Bytes) (msg : AnyBackendMessage) : Prop :=
  ∃ m : BackendMessage, m.WellFormed ∧ m.VersionNonnegative ∧ t = m.typeByte ∧ body = m.enc ∧
    msg = m.parsed

theorem byte_of_char {t : UInt8} {c : Char} (h : Char.ofNat t.toNat = c) : t = c.toNat.toUInt8 := by
  have hall : ∀ t : UInt8, (Char.ofNat t.toNat).toNat.toUInt8 = t :=
    forall_byte (by decide +kernel)
  rw [← h, hall]

theorem parseAuthenticationRequest_body {data : Bytes} {msg : AnyBackendMessage}
    (h : parseAuthenticationRequest data = .ok msg) : IsBody 82 data msg := by
  obtain ⟨kind, body, hfits, rfl⟩ := parseAuthenticationRequest_kind h
  rw [parseAuthenticationRequest_enc hfits] at h
  unfold parseAuthenticationKind at h
  split at h
  · obtain ⟨rfl, rfl⟩ := parseEmptyBody_ok.mp h
    exact ⟨.authenticationOk, trivial, trivial, rfl, rfl, rfl⟩
  · obtain ⟨rfl, rfl⟩ := parseEmptyBody_ok.mp h
    exact ⟨.authenticationKerberosV5, trivial, trivial, rfl, rfl, rfl⟩
  · obtain ⟨rfl, rfl⟩ := parseEmptyBody_ok.mp h
    exact ⟨.authenticationCleartextPassword, trivial, trivial, rfl, rfl, rfl⟩
  · obtain ⟨hok, rfl⟩ := parseAnyMessageImpl_ok.mp h
    obtain ⟨hlen, hbody⟩ := parseMd5Password_ok hok
    exact ⟨.authenticationMd5Password _, hlen, trivial, rfl, congrArg _ hbody, rfl⟩
  · obtain ⟨rfl, rfl⟩ := parseEmptyBody_ok.mp h
    exact ⟨.authenticationGss, trivial, trivial, rfl, rfl, rfl⟩
  · cases h
    exact ⟨.authenticationGssContinue body, trivial, trivial, rfl, rfl, rfl⟩
  · obtain ⟨rfl, rfl⟩ := parseEmptyBody_ok.mp h
    exact ⟨.authenticationSspi, trivial, trivial, rfl, rfl, rfl⟩
  · obtain ⟨hok, rfl⟩ := parseAnyMessageImpl_ok.mp h
    obtain ⟨mechanisms, hall, hbody, hview⟩ := parseSasl_ok hok
    exact ⟨.authenticationSasl mechanisms, hall, trivial, rfl, congrArg _ hbody, congrArg _ hview⟩
  · cases h
    exact ⟨.authenticationSaslContinue body, trivial, trivial, rfl, rfl, rfl⟩
  · cases h
    exact ⟨.authenticationSaslFinal body, trivial, trivial, rfl, rfl, rfl⟩
  · cases h

/-- **Every body a message is parsed from is that message's.** -/
theorem enc_of_parse {t : UInt8} {body : Bytes} {msg : AnyBackendMessage}
    (h : parseAnyMessage t body = .ok msg) (hlossy : msg.isLossy = false) : IsBody t body msg := by
  unfold parseAnyMessage at h
  split at h <;> rename_i hc <;> first | (obtain rfl := byte_of_char hc) | skip
  · exact parseAuthenticationRequest_body h
  · obtain ⟨hok, rfl⟩ := parseAnyMessageImpl_ok.mp h
    obtain ⟨hwf, hbody⟩ := parseBackendKeyData_ok hok
    exact ⟨.backendKeyData _, hwf, trivial, rfl, hbody, rfl⟩
  · obtain ⟨rfl, rfl⟩ := parseEmptyBody_ok.mp h
    exact ⟨.bindComplete, trivial, trivial, rfl, rfl, rfl⟩
  · obtain ⟨rfl, rfl⟩ := parseEmptyBody_ok.mp h
    exact ⟨.closeComplete, trivial, trivial, rfl, rfl, rfl⟩
  · obtain ⟨hok, rfl⟩ := parseAnyMessageImpl_ok.mp h
    obtain ⟨hwf, hbody⟩ := parseCommandComplete_ok hok
    exact ⟨.commandComplete _, hwf, trivial, rfl, hbody, rfl⟩
  · cases h
    exact ⟨.copyData body, trivial, trivial, rfl, rfl, rfl⟩
  · obtain ⟨rfl, rfl⟩ := parseEmptyBody_ok.mp h
    exact ⟨.copyDone, trivial, trivial, rfl, rfl, rfl⟩
  · obtain ⟨hok, rfl⟩ := parseAnyMessageImpl_ok.mp h
    obtain ⟨overall, codes, hwf, hbody, hview⟩ := parseCopyResponse_ok hok
    exact ⟨.copyInResponse overall codes, hwf, trivial, rfl, hbody, congrArg _ hview⟩
  · obtain ⟨hok, rfl⟩ := parseAnyMessageImpl_ok.mp h
    obtain ⟨overall, codes, hwf, hbody, hview⟩ := parseCopyResponse_ok hok
    exact ⟨.copyOutResponse overall codes, hwf, trivial, rfl, hbody, congrArg _ hview⟩
  · obtain ⟨hok, rfl⟩ := parseAnyMessageImpl_ok.mp h
    obtain ⟨overall, codes, hwf, hbody, hview⟩ := parseCopyResponse_ok hok
    exact ⟨.copyBothResponse overall codes, hwf, trivial, rfl, hbody, congrArg _ hview⟩
  · obtain ⟨hok, rfl⟩ := parseAnyMessageImpl_ok.mp h
    obtain ⟨columns, hwf, hbody, hview⟩ := parseDataRow_ok hok
    exact ⟨.dataRow columns, hwf, trivial, rfl, hbody, congrArg _ hview⟩
  · obtain ⟨rfl, rfl⟩ := parseEmptyBody_ok.mp h
    exact ⟨.emptyQueryResponse, trivial, trivial, rfl, rfl, rfl⟩
  · obtain ⟨_, rfl⟩ := parseAnyMessageImpl_ok.mp h
    cases hlossy
  · obtain ⟨hok, rfl⟩ := parseAnyMessageImpl_ok.mp h
    obtain ⟨minorVersion, options, hwf, hminor, hbody, hview⟩ :=
      parseNegotiateProtocolVersion_ok hok
    exact ⟨.negotiateProtocolVersion minorVersion options, hwf, hminor, rfl, hbody,
      congrArg _ hview⟩
  · obtain ⟨rfl, rfl⟩ := parseEmptyBody_ok.mp h
    exact ⟨.noData, trivial, trivial, rfl, rfl, rfl⟩
  · obtain ⟨_, rfl⟩ := parseAnyMessageImpl_ok.mp h
    cases hlossy
  · obtain ⟨hok, rfl⟩ := parseAnyMessageImpl_ok.mp h
    obtain ⟨hwf, hbody⟩ := parseNotificationResponse_ok hok
    exact ⟨.notificationResponse _, hwf, trivial, rfl, hbody, rfl⟩
  · obtain ⟨_, rfl⟩ := parseAnyMessageImpl_ok.mp h
    cases hlossy
  · obtain ⟨hok, rfl⟩ := parseAnyMessageImpl_ok.mp h
    obtain ⟨hwf, hbody⟩ := parseParameterStatus_ok hok
    exact ⟨.parameterStatus _, hwf, trivial, rfl, hbody, rfl⟩
  · obtain ⟨rfl, rfl⟩ := parseEmptyBody_ok.mp h
    exact ⟨.parseComplete, trivial, trivial, rfl, rfl, rfl⟩
  · obtain ⟨rfl, rfl⟩ := parseEmptyBody_ok.mp h
    exact ⟨.portalSuspended, trivial, trivial, rfl, rfl, rfl⟩
  · obtain ⟨hok, rfl⟩ := parseAnyMessageImpl_ok.mp h
    exact ⟨.readyForQuery _, trivial, trivial, rfl, parseReadyForQuery_ok hok, rfl⟩
  · obtain ⟨hok, rfl⟩ := parseAnyMessageImpl_ok.mp h
    obtain ⟨fields, hwf, hbody, hview⟩ := parseRowDescription_ok hok
    exact ⟨.rowDescription fields, hwf, trivial, rfl, hbody, congrArg _ hview⟩
  · cases h

/-- **Parsing and encoding are inverse.** Every well-formed message -- one that names a protocol
    version names no negative one -- is parsed from its body, and iteration over the view it is
    parsed to yields its items, one with each step, without leaving the view. And every body that is
    parsed to a message is the body of what that message says. -/
theorem backend_format :
    (∀ m : BackendMessage, m.WellFormed → m.VersionNonnegative →
      ∃ msg, parseAnyMessage m.typeByte m.enc = .ok msg ∧ msg.content = .ok (some m) ∧
        msg.viewData <:+: m.enc) ∧
    (∀ (t : UInt8) (body : Bytes) (msg : AnyBackendMessage), parseAnyMessage t body = .ok msg →
      msg.isLossy = false →
      ∃ m : BackendMessage, m.WellFormed ∧ m.VersionNonnegative ∧ t = m.typeByte ∧ body = m.enc ∧
        msg.content = .ok (some m) ∧ msg.viewData <:+: body) := by
  refine ⟨fun m h hv => ⟨m.parsed, parse_enc h hv, content_parsed h, viewData_parsed m⟩, ?_⟩
  intro t body msg h hlossy
  obtain ⟨m, hwf, hv, rfl, rfl, rfl⟩ := enc_of_parse h hlossy
  exact ⟨m, hwf, hv, rfl, rfl, content_parsed hwf, viewData_parsed m⟩

/-- A row of a NULL, an empty value and a value. -/
def mixedRow : BackendMessage := .dataRow [none, some [], some (ascii "a")]

theorem mixedRow_wellFormed : mixedRow.WellFormed where
  count := by decide
  columns := by
    intro c hc v hv
    rcases List.mem_cons.mp hc with rfl | hc
    · cases hv
    · rcases List.mem_cons.mp hc with rfl | hc
      · cases hv
        decide
      · obtain rfl := List.mem_singleton.mp hc
        cases hv
        decide

/-- The three are read back as they are. -/
theorem backend_format_mixedRow :
    ∃ msg, parseAnyMessage 68 [0, 3, 255, 255, 255, 255, 0, 0, 0, 0, 0, 0, 0, 1, 97] = .ok msg ∧
      msg.content = .ok (some mixedRow) := by
  obtain ⟨msg, hparse, hcontent, _⟩ := backend_format.1 mixedRow mixedRow_wellFormed trivial
  exact ⟨msg, hparse, hcontent⟩

/-- A server whose newest minor version is -1. -/
def negativeVersion : BackendMessage := .negotiateProtocolVersion (-1) []

/-- It is a well-formed message, and is not parsed. -/
theorem negative_version_rejected :
    negativeVersion.WellFormed ∧ parseAnyMessage negativeVersion.typeByte negativeVersion.enc =
      .error ClientErrc.protocolValueError.code :=
  ⟨⟨by decide, by decide, by simp⟩, by decide +kernel⟩

end NativePg
