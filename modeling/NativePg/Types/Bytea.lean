/-
  File:      NativePg/Types/Bytea.lean
  Subject:   Fields of type bytea (include/nativepg/types/base.hpp,
             include/nativepg/detail/field_traits_base.hpp).

  * `fromCharsHex`, `parseHexPairs` -- `std::from_chars` to the base 16, and the loop over the pairs;
  * `parseTextBytea`, `parseBinaryBytea` -- the two formats; `Bytea.parseText`, `Bytea.parseBinary`:
    the field traits;
  * `IsByteaText` -- the texts that denote bytes. `parseHexPairs_of_pairs`, `parseHexPairs_cases`:
    what the loop does;
  * `bytea_text_exactly` -- what is accepted, with which result, and that the formats agree.

  A text is never read behind its end: the loop takes the pairs of a text of even length.
-/
import Mathlib.Data.List.TakeWhile
import NativePg.ErrorCode
import NativePg.Lib.Hexadecimal
import NativePg.Lib.Outcomes
import NativePg.Protocol.BackendMessage

namespace NativePg

namespace Types

open Hexadecimal (Pairs value)

/-! ## 1. The decoders -/

/-- `std::from_chars`, of an `unsigned char` to the base 16: the number, and what lies behind its
    digits. -/
def fromCharsHex (p : Bytes) : Except ErrorCode (UInt8 × Bytes) :=
  let digits := p.takeWhile Hexadecimal.isDigit
  if digits = [] then .error ⟨22, .generic⟩
  else if value digits ≤ 255 then .ok ((value digits).toUInt8, p.dropWhile Hexadecimal.isDigit)
  else .error ⟨34, .generic⟩

/-- The loop of `parse_text_bytea`, from the pair `sv` begins with: the code, and the output. -/
def parseHexPairs (sv to_ : Bytes) : Checked (ErrorCode × Bytes) :=
  match sv with
  | [] => pure (.success, to_)
  | [_] => .error .outOfRange
  | c :: d :: rest =>
    match fromCharsHex [c, d] with
    | .ok (byte, []) => parseHexPairs rest (to_ ++ [byte])
    | _ => pure (ClientErrc.protocolValueError.code, to_)

/-- `parse_text_bytea`: the code, and the output. -/
def parseTextBytea (sv to_ : Bytes) : Checked (ErrorCode × Bytes) :=
  match sv with
  | 92 :: 120 :: sv =>
    if sv.length % 2 ≠ 0 then pure (ClientErrc.protocolValueError.code, to_) else parseHexPairs sv []
  | _ => pure (ClientErrc.protocolValueError.code, to_)

/-- `parse_binary_bytea`. Nothing of the output is left. -/
def parseBinaryBytea (data _to : Bytes) : Checked (ErrorCode × Bytes) := pure (.success, data)

namespace Bytea

/-- `detail::bytea_oid`. -/
def oid : Int := 17

/-- `parse_field_traits<std::vector<std::byte>>::is_compatible`. -/
def isCompatible (typeOid : Int) : ErrorCode :=
  if typeOid = oid then .success else ClientErrc.incompatibleFieldType.code

/-- The checks before either decoder. A `field_view` without a value is NULL. -/
def checkThen (parse : Bytes → Bytes → Checked (ErrorCode × Bytes)) (from_ : Option Bytes)
    (typeOid : Int) (to_ : Bytes) : Checked (ErrorCode × Bytes) :=
  match from_ with
  | none => pure (ClientErrc.unexpectedNull.code, to_)
  | some data => if typeOid = oid then parse data to_ else .error .assertion

/-- `parse_field_traits<std::vector<std::byte>>::parse_text`. -/
def parseText : Option Bytes → Int → Bytes → Checked (ErrorCode × Bytes) := checkThen parseTextBytea

/-- `parse_field_traits<std::vector<std::byte>>::parse_binary`. -/
def parseBinary : Option Bytes → Int → Bytes → Checked (ErrorCode × Bytes) := checkThen parseBinaryBytea

/-- A type the traits accept passes the check of the decoders. -/
theorem checkThen_of_compatible {parse : Bytes → Bytes → Checked (ErrorCode × Bytes)} {typeOid : Int}
    (h : isCompatible typeOid = .success) (data to_ : Bytes) :
    checkThen parse (some data) typeOid to_ = parse data to_ := by
  unfold isCompatible at h
  split at h
  · rename_i heq
    exact if_pos heq
  · exact absurd h (by decide)

end Bytea

/-! ## 2. Pairs -/

/-- **A pair of digits is read**, and makes the byte it denotes. -/
theorem fromCharsHex_pair {c d : UInt8} {h l : Nat} (hc : Hexadecimal.digitValue c = some h)
    (hd : Hexadecimal.digitValue d = some l) :
    fromCharsHex [c, d] = .ok ((16 * h + l).toUInt8, []) := by
  have hvalue := Hexadecimal.value_pair hc hd
  have hh := Hexadecimal.digitValue_lt hc
  have hl := Hexadecimal.digitValue_lt hd
  have hcd : ∀ x ∈ [c, d], Hexadecimal.isDigit x = true := by
    simp [Hexadecimal.isDigit_of_digitValue hc, Hexadecimal.isDigit_of_digitValue hd]
  have htake : [c, d].takeWhile Hexadecimal.isDigit = [c, d] := List.takeWhile_eq_self_iff.mpr hcd
  have hdrop : [c, d].dropWhile Hexadecimal.isDigit = [] := List.dropWhile_eq_nil_iff.mpr hcd
  unfold fromCharsHex
  simp only [htake, hdrop, hvalue]
  rw [if_neg (List.cons_ne_nil c [d]), if_pos (by omega)]

/-- **No other two characters are read as a whole.** -/
theorem fromCharsHex_whole {c d byte : UInt8} (h : fromCharsHex [c, d] = .ok (byte, [])) :
    ∃ m n, Hexadecimal.digitValue c = some m ∧ Hexadecimal.digitValue d = some n := by
  unfold fromCharsHex at h
  simp only at h
  split at h
  · cases h
  · split at h
    · have hdrop := congrArg Prod.snd (Except.ok.inj h)
      have hcd := List.dropWhile_eq_nil_iff.mp hdrop
      obtain ⟨m, hm⟩ := Hexadecimal.exists_digitValue (hcd c (by simp))
      obtain ⟨n, hn⟩ := Hexadecimal.exists_digitValue (hcd d (by simp))
      exact ⟨m, n, hm, hn⟩
    · cases h

theorem parseHexPairs_of_pairs {sv bytes : Bytes} (h : Pairs sv bytes) :
    ∀ to_, parseHexPairs sv to_ = .ok (.success, to_ ++ bytes) := by
  induction h with
  | nil =>
    intro to_
    rw [parseHexPairs, List.append_nil]
    rfl
  | @cons c d m n s bytes hc hd _ ih =>
    intro to_
    rw [parseHexPairs, fromCharsHex_pair hc hd]
    simp only
    rw [ih, List.append_assoc]
    rfl

/-- The loop ends on a text of even length: with all pairs read, or with an error. -/
theorem parseHexPairs_cases : ∀ {sv : Bytes}, sv.length % 2 = 0 → ∀ to_,
    (∃ bytes, Pairs sv bytes) ∨
      ∃ out, parseHexPairs sv to_ = .ok (ClientErrc.protocolValueError.code, out)
  | [], _, _ => .inl ⟨[], .nil⟩
  | [_], h, _ => absurd h (by simp)
  | c :: d :: rest, hlen, to_ => by
      have heven : rest.length % 2 = 0 := by
        simp only [List.length_cons] at hlen
        omega
      rw [parseHexPairs]
      split
      · rename_i byte hread
        obtain ⟨m, n, hc, hd⟩ := fromCharsHex_whole hread
        rcases parseHexPairs_cases heven (to_ ++ [byte]) with ⟨bytes, hbytes⟩ | ⟨out, hout⟩
        · exact .inl ⟨_, .cons hc hd hbytes⟩
        · exact .inr ⟨out, hout⟩
      · exact .inr ⟨to_, rfl⟩

/-! ## 3. Texts -/

/-- **The text is `\x` and pairs of digits**, which denote these bytes. -/
def IsByteaText (sv bytes : Bytes) : Prop := ∃ pairs, sv = 92 :: 120 :: pairs ∧ Pairs pairs bytes

/-- What the server prints for some bytes with `bytea_output` hex. -/
def byteaOut (bytes : Bytes) : Bytes := 92 :: 120 :: Hexadecimal.encode bytes

theorem isByteaText_byteaOut (bytes : Bytes) : IsByteaText (byteaOut bytes) bytes :=
  ⟨_, rfl, Hexadecimal.pairs_encode bytes⟩

theorem exists_isByteaText_iff {sv : Bytes} : (∃ bytes, IsByteaText sv bytes) ↔
    ∃ digits, sv = 92 :: 120 :: digits ∧ digits.length % 2 = 0 ∧
      ∀ c ∈ digits, Hexadecimal.isDigit c = true := by
  constructor
  · intro h
    obtain ⟨bytes, digits, hsv, hpairs⟩ := h
    exact ⟨digits, hsv, Hexadecimal.exists_pairs_iff.mp ⟨bytes, hpairs⟩⟩
  · intro h
    obtain ⟨digits, hsv, hdigits⟩ := h
    obtain ⟨bytes, hpairs⟩ := Hexadecimal.exists_pairs_iff.mpr hdigits
    exact ⟨bytes, digits, hsv, hpairs⟩

theorem parseTextBytea_of_text {sv bytes : Bytes} (h : IsByteaText sv bytes) (to_ : Bytes) :
    parseTextBytea sv to_ = .ok (.success, bytes) := by
  obtain ⟨pairs, rfl, hpairs⟩ := h
  rw [parseTextBytea, if_neg (not_not.mpr hpairs.length_mod), parseHexPairs_of_pairs hpairs]
  rfl

/-- Every text is one of these, or ends with an error. -/
theorem parseTextBytea_cases (sv to_ : Bytes) : (∃ bytes, IsByteaText sv bytes) ∨
    ∃ out, parseTextBytea sv to_ = .ok (ClientErrc.protocolValueError.code, out) := by
  unfold parseTextBytea
  split
  · rename_i pairs
    split
    · exact .inr ⟨to_, rfl⟩
    · rename_i heven
      rcases parseHexPairs_cases (not_not.mp heven) [] with ⟨bytes, hbytes⟩ | hfail
      · exact .inl ⟨bytes, pairs, rfl, hbytes⟩
      · exact .inr hfail
  · exact .inr ⟨to_, rfl⟩

theorem parseTextBytea_iff {sv to_ bytes : Bytes} :
    parseTextBytea sv to_ = .ok (.success, bytes) ↔ IsByteaText sv bytes := by
  constructor
  · intro h
    rcases parseTextBytea_cases sv to_ with ⟨bytes', htext⟩ | ⟨out, hout⟩
    · rw [parseTextBytea_of_text htext] at h
      obtain rfl := congrArg Prod.snd (Except.ok.inj h)
      exact htext
    · rw [h] at hout
      have hcode : ErrorCode.success = ClientErrc.protocolValueError.code :=
        congrArg Prod.fst (Except.ok.inj hout)
      exact absurd hcode (by decide)
  · intro h
    exact parseTextBytea_of_text h to_

/-- **A text is decoded exactly where it is `\x` and an even number of hexadecimal digits**, to the
    bytes the pairs denote and whatever the output was; all others end with an error. The text the
    server prints for some bytes and the bytes themselves are decoded alike. -/
theorem bytea_text_exactly :
    (∀ sv to_ bytes, parseTextBytea sv to_ = .ok (.success, bytes) ↔ IsByteaText sv bytes) ∧
    (∀ sv to_, (∃ bytes, parseTextBytea sv to_ = .ok (.success, bytes)) ↔
      ∃ digits, sv = 92 :: 120 :: digits ∧ digits.length % 2 = 0 ∧
        ∀ c ∈ digits, Hexadecimal.isDigit c = true) ∧
    (∀ sv to_, ∃ ec out, parseTextBytea sv to_ = .ok (ec, out) ∧ (ec ≠ .success → ec.failed = true)) ∧
    (∀ typeOid, Bytea.isCompatible typeOid = .success → ∀ bytes to_ to_',
      Bytea.parseText (some (byteaOut bytes)) typeOid to_ = .ok (.success, bytes) ∧
      Bytea.parseBinary (some bytes) typeOid to_' = .ok (.success, bytes)) := by
  refine ⟨fun _ _ _ => parseTextBytea_iff, ?_, ?_, ?_⟩
  · intro sv to_
    rw [← exists_isByteaText_iff]
    exact exists_congr fun _ => parseTextBytea_iff
  · intro sv to_
    rcases parseTextBytea_cases sv to_ with ⟨bytes, htext⟩ | ⟨out, hout⟩
    · exact ⟨_, _, parseTextBytea_of_text htext to_, fun h => absurd rfl h⟩
    · exact ⟨_, _, hout, fun _ => ClientErrc.failed_code _⟩
  · intro typeOid h bytes to_ to_'
    constructor
    · exact (Bytea.checkThen_of_compatible h _ to_).trans
        (parseTextBytea_of_text (isByteaText_byteaOut bytes) to_)
    · exact Bytea.checkThen_of_compatible h _ to_'

end Types

end NativePg
