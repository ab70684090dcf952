/-
  File:      NativePg/Types/Scan.lean
  Subject:   The scanning that the decoders of dates and times are made of
             (include/nativepg/types/datetime.hpp).

  * `Halt` -- how a decoder ends without a value: a code, or signed arithmetic that overflows, or a
    read outside of its text. `checked`: an integer of a C++ type of so many bytes;
  * `trim`, `iequals`, `consumeBc`, `fromCharsInt` -- white space, words, eras and integers;
  * `Era` -- a text with an era behind it or not. `consumeBc_eq`, `era_consumeBc`: what
    `consume_bc` finds;
  * `fromCharsInt_eq`, `fromCharsInt_cases` -- what `std::from_chars` reads.

  Characters are those of the C locale.
-/
import NativePg.ErrorCode
import NativePg.Lib.BigEndian
import NativePg.Lib.Decimal
import NativePg.Lib.Trimmed
import NativePg.Protocol.BackendMessage

namespace NativePg

namespace Types

open BigEndian (Fits)
open Decimal (AllDigits Ends IsInteger isDigit value)
open Trimmed (All Solid)

/-! ## 1. How a decoder ends -/

/-- How a decoder ends where it has no value. -/
inductive Halt where
  /-- It returns a code. -/
  | code (ec : ErrorCode)
  /-- A signed operation has no result of its type. -/
  | overflow
  /-- A read outside of the text. -/
  | outOfRange
  deriving DecidableEq

/-- What a decoder returns. -/
abbrev Parsed (α : Type) := Except Halt α

/-- `return client_errc::protocol_value_error`. -/
def protocolValueError {α : Type} : Parsed α := .error (.code ClientErrc.protocolValueError.code)

/-- The result of a signed operation in a type of so many bytes. -/
def checked (width : Nat) (z : Int) : Parsed Int := if Fits width z then .ok z else .error .overflow

theorem checked_of_fits {width : Nat} {z : Int} (h : Fits width z) : checked width z = .ok z := if_pos h

/-- It returns a code. -/
def Fails {α : Type} (r : Parsed α) : Prop := ∃ ec, r = .error (.code ec)

theorem fails_protocolValueError {α : Type} : Fails (@protocolValueError α) := ⟨_, rfl⟩

/-- What fails first is how all of it ends. -/
theorem Fails.bind {α β : Type} {r : Parsed α} (h : Fails r) (f : α → Parsed β) : Fails (r >>= f) := by
  obtain ⟨ec, rfl⟩ := h
  exact ⟨ec, rfl⟩

theorem not_fails_ok {α : Type} (a : α) : ¬Fails (.ok a : Parsed α) := fun ⟨_, h⟩ => nomatch h

theorem ok_bind {α β : Type} (a : α) (f : α → Parsed β) : (Except.ok a : Parsed α) >>= f = f a := rfl

/-! ## 2. Characters and words -/

/-- `std::isspace`. -/
def isspace (c : UInt8) : Bool := c == 32 || (9 ≤ c && c ≤ 13)

/-- `std::tolower`. -/
def tolower (c : UInt8) : UInt8 := if 65 ≤ c && c ≤ 90 then c + 32 else c

/-- `trim`. -/
def trim (sv : Bytes) : Bytes := Trimmed.strip isspace sv

/-- `iequals`. -/
def iequals (a b : Bytes) : Bool := a.map tolower == b.map tolower

/-- `consume_bc`: whether there was a BC, and what is left of the text. -/
def consumeBc (sv : Bytes) : Bool × Bytes :=
  let sv := trim sv
  if sv.length < 2 then (false, sv)
  else
    let tail := sv.drop (sv.length - 2)
    if !iequals tail (ascii "BC") then (false, sv) else (true, trim (sv.take (sv.length - 2)))

theorem isspace_iff {c : UInt8} :
    isspace c = true ↔ c.toNat = 32 ∨ (9 ≤ c.toNat ∧ c.toNat ≤ 13) := by
  simp [isspace, UInt8.le_iff_toNat_le, ← UInt8.toNat_inj]

theorem isspace_eq_false_iff {c : UInt8} :
    isspace c = false ↔ ¬(c.toNat = 32 ∨ (9 ≤ c.toNat ∧ c.toNat ≤ 13)) := by
  rw [← isspace_iff, Bool.not_eq_true]

theorem isspace_of_isDigit {c : UInt8} (h : isDigit c = true) : isspace c = false := by
  rw [Decimal.isDigit_iff] at h
  rw [isspace_eq_false_iff]
  omega

/-- What is below the letters has no other case. -/
theorem tolower_of_lt {c : UInt8} (h : c.toNat < 65) : tolower c = c := by
  unfold tolower
  rw [if_neg]
  simp only [Bool.and_eq_true, decide_eq_true_eq, UInt8.le_iff_toNat_le]
  intro hc
  have h65 : (65 : UInt8).toNat = 65 := rfl
  omega

theorem tolower_of_isspace {c : UInt8} (h : isspace c = true) : tolower c = c := by
  rw [isspace_iff] at h
  exact tolower_of_lt (by omega)

theorem tolower_of_isDigit {c : UInt8} (h : isDigit c = true) : tolower c = c := by
  rw [Decimal.isDigit_iff] at h
  exact tolower_of_lt (by omega)

/-- The two letters of BC, in either case. -/
def IsBc (s : Bytes) : Prop := iequals s (ascii "BC") = true

instance (s : Bytes) : Decidable (IsBc s) := inferInstanceAs (Decidable (_ = true))

theorem isBc_iff {s : Bytes} : IsBc s ↔ ∃ c d, s = [c, d] ∧ tolower c = 98 ∧ tolower d = 99 := by
  have hbc : (ascii "BC").map tolower = [98, 99] := by decide
  unfold IsBc iequals
  rw [beq_iff_eq, hbc]
  constructor
  · intro h
    obtain ⟨c, d, rfl⟩ : ∃ c d, s = [c, d] := by
      have hlen := congrArg List.length h
      rw [List.length_map] at hlen
      exact List.length_eq_two.mp hlen
    obtain ⟨hc, h⟩ := List.cons.inj h
    exact ⟨c, d, rfl, hc, (List.cons.inj h).1⟩
  · intro h
    obtain ⟨c, d, rfl, hc, hd⟩ := h
    rw [List.map_cons, List.map_cons, List.map_nil, hc, hd]

theorem IsBc.length {s : Bytes} (h : IsBc s) : s.length = 2 := by
  obtain ⟨c, d, rfl, -⟩ := isBc_iff.mp h
  rfl

theorem IsBc.solid {s : Bytes} (h : IsBc s) : Solid isspace s := by
  obtain ⟨c, d, rfl, hc, hd⟩ := isBc_iff.mp h
  refine Trimmed.solid_of_forall fun x hx => ?_
  cases hspace : isspace x with
  | false => rfl
  | true =>
    have hlower := tolower_of_isspace hspace
    rcases List.mem_cons.mp hx with rfl | hx
    · rw [← hlower, hc] at hspace
      cases hspace
    · rw [List.mem_singleton.mp hx] at hlower hspace
      rw [← hlower, hd] at hspace
      cases hspace

/-- No digit is a letter of BC. -/
theorem not_isBc_append {front ds s : Bytes} (hne : ds ≠ []) (hds : AllDigits ds) {core : Bytes}
    (hcore : core = front ++ s) (hend : ∃ l, core = l ++ ds) : ¬IsBc s := by
  intro h
  obtain ⟨c, d, rfl, -, hd⟩ := isBc_iff.mp h
  obtain ⟨l, hl⟩ := hend
  have hlast := congrArg List.getLast? (hcore.symm.trans hl)
  rw [List.getLast?_append_of_ne_nil _ hne, List.getLast?_append_of_ne_nil _ (by simp)] at hlast
  have hmem : d ∈ ds := List.mem_of_getLast? hlast.symm
  rw [tolower_of_isDigit (hds d hmem)] at hd
  have hdigit := hds d hmem
  rw [hd] at hdigit
  cases hdigit

/-! ## 3. Eras -/

/-- **The text is `core` with BC behind it, or `core` alone**; white space may surround both. -/
inductive Era : Bool → Bytes → Bytes → Prop where
  | ad {a core b : Bytes} (ha : All isspace a) (hb : All isspace b)
      (hcore : ∀ front s, core = front ++ s → ¬IsBc s) : Era false (a ++ core ++ b) core
  | bc {a core gap s b : Bytes} (ha : All isspace a) (hgap : All isspace gap) (hs : IsBc s)
      (hb : All isspace b) : Era true (a ++ (core ++ (gap ++ s)) ++ b) core

section
variable {text core : Bytes} {bc : Bool}

theorem trim_eq {a b : Bytes} (ha : All isspace a) (hb : All isspace b) (h : Solid isspace core) :
    trim (a ++ core ++ b) = core := Trimmed.strip_eq ha hb h

theorem trim_eq_self (h : Solid isspace core) : trim core = core := Trimmed.strip_eq_self h

theorem trim_append {b : Bytes} (hb : All isspace b) (h : Solid isspace core) : trim (core ++ b) = core :=
  trim_eq Trimmed.all_nil hb h

theorem trim_cons {a : Bytes} (ha : All isspace a) (h : Solid isspace core) : trim (a ++ core) = core := by
  have heq := trim_eq ha (@Trimmed.all_nil _ isspace) h
  rwa [List.append_nil] at heq

theorem consumeBc_eq (h : Era bc text core) (hsolid : Solid isspace core) (hne : core ≠ []) :
    consumeBc text = (bc, core) := by
  cases h with
  | ad ha hb hcore =>
    unfold consumeBc
    simp only [trim_eq ha hb hsolid]
    split
    · rfl
    · have hno := hcore (core.take (core.length - 2)) (core.drop (core.length - 2))
        (List.take_append_drop _ _).symm
      unfold IsBc at hno
      rw [Bool.not_eq_true] at hno
      rw [hno]
      rfl
  | @bc a _ gap s b ha hgap hs hb =>
    have hsne : s ≠ [] := fun hnil => by simpa [hnil] using hs.length
    have hwhole : trim (a ++ (core ++ (gap ++ s)) ++ b) = core ++ (gap ++ s) :=
      trim_eq ha hb (hsolid.append hs.solid hne hsne gap)
    have hlen : (core ++ (gap ++ s)).length - 2 = (core ++ gap).length := by
      simp only [List.length_append, hs.length]
      omega
    have hlt : ¬(core ++ (gap ++ s)).length < 2 := by
      simp only [List.length_append, hs.length]
      omega
    have hbc : iequals s (ascii "BC") = true := hs
    unfold consumeBc
    simp only [hwhole]
    rw [if_neg hlt, hlen, ← List.append_assoc, List.drop_left, List.take_left, hbc,
      trim_append hgap hsolid]
    rfl

theorem era_consumeBc (text : Bytes) :
    Era (consumeBc text).1 text (consumeBc text).2 ∧ Solid isspace (consumeBc text).2 := by
  obtain ⟨a, b, htext, ha, hb⟩ := Trimmed.exists_strip isspace text
  have hsolid := Trimmed.solid_strip isspace text
  change text = a ++ trim text ++ b at htext
  change Solid isspace (trim text) at hsolid
  unfold consumeBc
  simp only
  split
  · rename_i hshort
    refine ⟨?_, hsolid⟩
    simp only
    nth_rewrite 1 [htext]
    refine .ad ha hb fun front s heq hs => ?_
    have := congrArg List.length heq
    rw [List.length_append, hs.length] at this
    omega
  · split
    · rename_i hlong hno
      refine ⟨?_, hsolid⟩
      simp only
      nth_rewrite 1 [htext]
      refine .ad ha hb fun front s heq hs => ?_
      have hlen : (trim text).length - 2 = front.length := by
        rw [heq, List.length_append, hs.length]
        omega
      rw [hlen, heq, List.drop_left] at hno
      unfold IsBc at hs
      rw [hs] at hno
      cases hno
    · rename_i hlong hyes
      have hbc : IsBc ((trim text).drop ((trim text).length - 2)) := by
        unfold IsBc
        simpa using hyes
      obtain ⟨a', gap, hcore, ha', hgap⟩ :=
        Trimmed.exists_strip isspace ((trim text).take ((trim text).length - 2))
      refine ⟨?_, Trimmed.solid_strip isspace _⟩
      simp only
      have hall : text = (a ++ a') ++ (trim ((trim text).take ((trim text).length - 2)) ++
          (gap ++ (trim text).drop ((trim text).length - 2))) ++ b := by
        change _ = a' ++ trim _ ++ gap at hcore
        calc text = a ++ trim text ++ b := htext
          _ = a ++ ((trim text).take ((trim text).length - 2) ++
              (trim text).drop ((trim text).length - 2)) ++ b := by rw [List.take_append_drop]
          _ = _ := by
            nth_rewrite 1 [hcore]
            simp only [List.append_assoc]
      nth_rewrite 1 [hall]
      exact .bc (ha.append ha') hgap hbc hb

end

/-! ## 4. Integers -/

/-- `std::from_chars`, of an `int`: the number, and what lies behind its digits. -/
def fromCharsInt (p : Bytes) : Parsed (Int × Bytes) :=
  let (minus, p) := match p with
    | c :: rest => if c = 45 then (true, rest) else (false, c :: rest)
    | [] => (false, [])
  let digits := p.takeWhile isDigit
  let num : Int := if minus then -value digits else value digits
  if digits = [] then .error (.code ⟨22, .generic⟩)
  else if Fits 4 num then .ok (num, p.dropWhile isDigit)
  else .error (.code ⟨34, .generic⟩)

/-- `if (p >= last || *p != c) return client_errc::protocol_value_error; ++p`. -/
def expect (c : UInt8) (p : Bytes) : Parsed Bytes :=
  match p with
  | [] => protocolValueError
  | c' :: rest => if c' ≠ c then protocolValueError else .ok rest

section
variable {ds rest : Bytes} {z : Int}

theorem fromCharsInt_nonneg (hends : Ends rest) (hds : AllDigits ds) (hne : ds ≠ []) :
    fromCharsInt (ds ++ rest) =
      if Fits 4 (value ds) then .ok ((value ds : Int), rest) else .error (.code ⟨34, .generic⟩) := by
  obtain ⟨d, ds', rfl⟩ : ∃ d ds', ds = d :: ds' := List.exists_cons_of_ne_nil hne
  have hd : d ≠ 45 := fun h => by
    have := hds d (List.mem_cons_self ..)
    rw [h] at this
    cases this
  have htake := Decimal.takeWhile_isDigit hds hends
  have hdrop := Decimal.dropWhile_isDigit hds hends
  unfold fromCharsInt
  rw [List.cons_append] at *
  simp only [if_neg hd, htake, hdrop, if_neg (List.cons_ne_nil d ds'), Bool.false_eq_true, if_false]

theorem fromCharsInt_neg (hends : Ends rest) (hds : AllDigits ds) (hne : ds ≠ []) :
    fromCharsInt (45 :: (ds ++ rest)) =
      if Fits 4 (-(value ds : Int)) then .ok (-(value ds : Int), rest)
      else .error (.code ⟨34, .generic⟩) := by
  have htake := Decimal.takeWhile_isDigit hds hends
  have hdrop := Decimal.dropWhile_isDigit hds hends
  unfold fromCharsInt
  simp only [if_true, htake, hdrop, if_neg hne]

/-- **An integer is read**, and rejected where it does not fit an `int`. -/
theorem fromCharsInt_eq (h : IsInteger ds z) (hends : Ends rest) :
    fromCharsInt (ds ++ rest) =
      if Fits 4 z then .ok (z, rest) else .error (.code ⟨34, .generic⟩) := by
  cases h with
  | nonneg hne hds => exact fromCharsInt_nonneg hends hds hne
  | neg hne hds => exact fromCharsInt_neg hends hds hne

theorem fromCharsInt_of_fits (h : IsInteger ds z) (hends : Ends rest) (hfits : Fits 4 z) :
    fromCharsInt (ds ++ rest) = .ok (z, rest) := by
  rw [fromCharsInt_eq h hends, if_pos hfits]

/-- **Nothing else is.** -/
theorem fromCharsInt_cases (p : Bytes) :
    Fails (fromCharsInt p) ∨ ∃ ds z rest, p = ds ++ rest ∧ IsInteger ds z ∧ Ends rest ∧ Fits 4 z ∧
      fromCharsInt p = .ok (z, rest) := by
  have hread : ∀ {ds rest : Bytes} {z : Int}, p = ds ++ rest → IsInteger ds z → Ends rest →
      Fails (fromCharsInt p) ∨ ∃ ds z rest, p = ds ++ rest ∧ IsInteger ds z ∧ Ends rest ∧ Fits 4 z ∧
        fromCharsInt p = .ok (z, rest) := by
    intro ds rest z hp h hends
    have heq := hp ▸ fromCharsInt_eq h hends
    by_cases hfits : Fits 4 z
    · rw [if_pos hfits] at heq
      exact .inr ⟨ds, z, rest, hp, h, hends, hfits, heq⟩
    · rw [if_neg hfits] at heq
      exact .inl ⟨_, heq⟩
  have hsplit := fun s : Bytes => (List.takeWhile_append_dropWhile (p := isDigit) (l := s)).symm
  match hp : p with
  | [] => exact .inl ⟨_, rfl⟩
  | c :: rest =>
    by_cases hc : c = 45
    · subst hc
      by_cases hne : rest.takeWhile isDigit = []
      · refine .inl ⟨⟨22, .generic⟩, ?_⟩
        unfold fromCharsInt
        simp only [if_true, hne]
      · refine hread ?_ (.neg hne (Decimal.allDigits_takeWhile rest)) (Decimal.ends_dropWhile rest)
        exact congrArg (45 :: ·) (hsplit rest)
    · by_cases hne : (c :: rest).takeWhile isDigit = []
      · refine .inl ⟨⟨22, .generic⟩, ?_⟩
        unfold fromCharsInt
        simp only [if_neg hc, hne, if_true]
      · exact hread (hsplit _) (.nonneg hne (Decimal.allDigits_takeWhile _))
          (Decimal.ends_dropWhile _)

theorem expect_cons (c : UInt8) (rest : Bytes) : expect c (c :: rest) = .ok rest := by
  rw [expect, if_neg (not_not.mpr rfl)]

theorem expect_cases (c : UInt8) (p : Bytes) :
    Fails (expect c p) ∨ ∃ rest, p = c :: rest ∧ expect c p = .ok rest := by
  cases p with
  | nil => exact .inl fails_protocolValueError
  | cons c' rest =>
    by_cases h : c' = c
    · subst h
      exact .inr ⟨rest, rfl, expect_cons c' rest⟩
    · left
      rw [expect, if_pos h]
      exact fails_protocolValueError

end

/-- An integer has no white space. -/
theorem solid_integer {ds : Bytes} {z : Int} (h : IsInteger ds z) : Solid isspace ds := by
  refine Trimmed.solid_of_forall fun c hc => ?_
  rcases h.mem c hc with hd | rfl
  · exact isspace_of_isDigit hd
  · rfl

end Types

end NativePg
