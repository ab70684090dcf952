/-
  File:      NativePg/Types/Texts.lean
  Subject:   The texts of dates, times and zones, and what the scanners read of them.

  * `DateParts`, `TimeText`, `ZoneText` -- the grammars; `Splits` -- the two halves of a timestamp;
  * `parseDateParts_eq`, `parseTimePrefix_eq`, `parseTzSuffix_eq`, `parseDayAndTime_eq` -- what the
    scanners do with a text of the grammar;
  * `parseDateParts_cases`, `parseTimePrefix_cases`, `parseTzSuffix_cases`,
    `parseDayAndTime_cases` -- they fail on all others;
  * `DateParts.unique`, `TimeText.unique` -- a text has one reading;
  * `scaleFraction_eq` -- the loops that scale a fraction, as an arithmetic expression.
-/
import NativePg.Types.DateTime

namespace NativePg

namespace Types

open BigEndian (Fits)
open Decimal (AllDigits Ends IsInteger isDigit value)
open Trimmed (All Solid)

/-! ## 1. Dates -/

/-- **The text is a year, a month and a day**, as integers with a minus between them. -/
def DateParts (core : Bytes) (year month day : Int) : Prop :=
  ∃ ys ms ds, core = ys ++ 45 :: (ms ++ 45 :: ds) ∧ IsInteger ys year ∧ IsInteger ms month ∧
    IsInteger ds day

theorem ends_minus (rest : Bytes) : Ends (45 :: rest) := Decimal.ends_cons (by decide) rest

theorem ends_colon (rest : Bytes) : Ends (58 :: rest) := Decimal.ends_cons (by decide) rest

section
variable {core : Bytes} {year month day : Int}

theorem DateParts.ne_nil (h : DateParts core year month day) : core ≠ [] := by
  obtain ⟨ys, ms, ds, rfl, hy, -⟩ := h
  exact List.append_ne_nil_of_left_ne_nil hy.ne_nil _

theorem DateParts.solid (h : DateParts core year month day) : Solid isspace core := by
  obtain ⟨ys, ms, ds, rfl, hy, -, hd⟩ := h
  have hsolid := (solid_integer hy).append (solid_integer hd) hy.ne_nil hd.ne_nil (45 :: (ms ++ [45]))
  simpa using hsolid

/-- No character of a date ends the date of a timestamp. -/
theorem DateParts.beforeSep (h : DateParts core year month day) : ∀ c ∈ core, beforeSep c = true := by
  obtain ⟨ys, ms, ds, rfl, hy, hm, hd⟩ := h
  have hint : ∀ {s : Bytes} {z : Int}, IsInteger s z → ∀ c ∈ s, Types.beforeSep c = true := by
    intro s z hs c hc
    rcases hs.mem c hc with hdigit | rfl
    · have hne : c ≠ 32 ∧ c ≠ 84 := by
        rw [Decimal.isDigit_iff] at hdigit
        exact ⟨by rintro rfl; simp at hdigit, by rintro rfl; simp at hdigit⟩
      simp [Types.beforeSep, hne.1, hne.2]
    · rfl
  intro c hc
  simp only [List.mem_append, List.mem_cons] at hc
  rcases hc with hc | rfl | hc | rfl | hc
  · exact hint hy c hc
  · rfl
  · exact hint hm c hc
  · rfl
  · exact hint hd c hc

theorem DateParts.unique {year' month' day' : Int} (h : DateParts core year month day)
    (h' : DateParts core year' month' day') : year = year' ∧ month = month' ∧ day = day' := by
  obtain ⟨ys, ms, ds, rfl, hy, hm, hd⟩ := h
  obtain ⟨ys', ms', ds', heq, hy', hm', hd'⟩ := h'
  obtain ⟨-, rfl, heq⟩ := hy.unique hy' (ends_minus _) (ends_minus _) heq
  obtain ⟨-, rfl, heq⟩ := hm.unique hm' (ends_minus _) (ends_minus _) (List.cons.inj heq).2
  have hend : ds ++ [] = ds' ++ [] := by
    rw [List.append_nil, List.append_nil]
    exact (List.cons.inj heq).2
  obtain ⟨-, rfl, -⟩ := hd.unique hd' Decimal.ends_nil Decimal.ends_nil hend
  exact ⟨rfl, rfl, rfl⟩

theorem parseDateParts_eq {sv : Bytes} (h : DateParts (trim sv) year month day) (hy : Fits 4 year)
    (hm : Fits 4 month) (hd : Fits 4 day) : parseDateParts sv = .ok (year, month, day) := by
  have hne := h.ne_nil
  obtain ⟨ys, ms, ds, hcore, hys, hms, hds⟩ := h
  have hlast := fromCharsInt_of_fits hds Decimal.ends_nil hd
  rw [List.append_nil] at hlast
  unfold parseDateParts
  simp only
  rw [if_neg hne, hcore, fromCharsInt_of_fits hys (ends_minus _) hy, ok_bind]
  simp only [expect_cons, ok_bind]
  rw [fromCharsInt_of_fits hms (ends_minus _) hm, ok_bind]
  simp only [expect_cons, ok_bind]
  rw [hlast, ok_bind]
  rfl

theorem parseDateParts_cases (sv : Bytes) :
    Fails (parseDateParts sv) ∨ ∃ year month day, DateParts (trim sv) year month day ∧
      Fits 4 year ∧ Fits 4 month ∧ Fits 4 day ∧ parseDateParts sv = .ok (year, month, day) := by
  by_cases hne : trim sv = []
  · left
    unfold parseDateParts
    simp only
    rw [if_pos hne]
    exact fails_protocolValueError
  unfold parseDateParts
  simp only
  rw [if_neg hne]
  rcases fromCharsInt_cases (trim sv) with hfail | ⟨ys, year, p, hp, hys, -, hy, heq⟩
  · exact .inl (hfail.bind _)
  rw [heq, ok_bind]
  simp only
  rcases expect_cases 45 p with hfail | ⟨p₁, rfl, hexp⟩
  · exact .inl (hfail.bind _)
  rw [hexp, ok_bind]
  rcases fromCharsInt_cases p₁ with hfail | ⟨ms, month, p₂, rfl, hms, -, hm, heq⟩
  · exact .inl (hfail.bind _)
  rw [heq, ok_bind]
  simp only
  rcases expect_cases 45 p₂ with hfail | ⟨p₃, rfl, hexp⟩
  · exact .inl (hfail.bind _)
  rw [hexp, ok_bind]
  rcases fromCharsInt_cases p₃ with hfail | ⟨ds, day, p₄, rfl, hds, -, hd, heq⟩
  · exact .inl (hfail.bind _)
  rw [heq, ok_bind]
  simp only
  by_cases hend : p₄ = []
  · right
    subst hend
    rw [if_neg (not_not.mpr rfl)]
    exact ⟨year, month, day, ⟨ys, ms, ds, by rw [hp, List.append_nil], hys, hms, hds⟩, hy, hm, hd, rfl⟩
  · rw [if_pos hend]
    exact .inl fails_protocolValueError

end

/-- The year of an era as a year of the calendar. -/
def astronomical (bc : Bool) (year : Int) : Int := if bc then 1 - year else year

/-- `parse_date_parts`, the era and the test of the fields. -/
theorem parseYmd_eq {bc : Bool} {sv : Bytes} {year month day : Int}
    (h : DateParts (trim sv) year month day) (hy : Fits 4 year) (hm : Fits 4 month) (hd : Fits 4 day) :
    parseYmd bc sv =
      if bc = true ∧ year < -2147483646 then .error .overflow
      else if (YearMonthDay.ofInts (astronomical bc year) month day).ok = true then
        .ok (YearMonthDay.ofInts (astronomical bc year) month day)
      else protocolValueError := by
  have htest : ∀ ymd : YearMonthDay, (if (!ymd.ok) = true then protocolValueError else .ok ymd) =
      if ymd.ok = true then .ok ymd else (protocolValueError : Parsed YearMonthDay) := by
    intro ymd
    cases ymd.ok with
    | false => rfl
    | true => rfl
  unfold parseYmd
  simp only [htest]
  rw [parseDateParts_eq h hy hm hd, ok_bind]
  simp only
  cases bc with
  | false =>
    have hno : ¬(false = true ∧ year < -2147483646) := fun h => Bool.false_ne_true h.1
    rw [if_neg Bool.false_ne_true, ok_bind, if_neg hno]
    rfl
  | true =>
    rw [if_pos rfl]
    by_cases hlow : year < -2147483646
    · have hfits : ¬Fits 4 (1 - year) := by
        unfold Fits
        omega
      rw [if_pos ⟨rfl, hlow⟩, checked, if_neg hfits]
      rfl
    · have hfits : Fits 4 (1 - year) := by
        unfold Fits at hy ⊢
        omega
      rw [if_neg fun h => hlow h.2, checked_of_fits hfits, ok_bind]
      rfl

/-! ## 2. Fractions -/

/-- Scaling a fraction of this value and so many digits stays within an `int`. -/
def Scales (v length : Nat) : Prop :=
  6 < intOfLength length ∨
    (-2147483641 ≤ intOfLength length ∧ v * 10 ^ (6 - intOfLength length).toNat < 2 ^ 31)

instance (v length : Nat) : Decidable (Scales v length) := inferInstanceAs (Decidable (_ ∨ _))

/-- What it is scaled to. -/
def scaled (v length : Nat) : Nat :=
  if 6 < intOfLength length then v / 10 ^ (intOfLength length - 6).toNat
  else v * 10 ^ (6 - intOfLength length).toNat

/-- The microseconds of a fraction, rounded down. -/
def microseconds (ds : Bytes) : Nat := value ds * 10 ^ 6 / 10 ^ ds.length

theorem divideByTen_eq : ∀ (k v : Nat), divideByTen k (v : Int) = ((v / 10 ^ k : Nat) : Int)
  | 0, v => by simp [divideByTen]
  | k + 1, v => by
      have hdiv : (v : Int).tdiv 10 = ((v / 10 : Nat) : Int) := by
        rw [Int.tdiv_eq_ediv_of_nonneg (Int.natCast_nonneg v)]
        rfl
      rw [divideByTen, hdiv, divideByTen_eq k, Nat.div_div_eq_div_mul, Nat.pow_succ, Nat.mul_comm]

theorem fits_natCast {v : Nat} : Fits 4 (v : Int) ↔ v < 2 ^ 31 := by
  unfold Fits
  omega

theorem multiplyByTen_eq : ∀ {k v : Nat}, v < 2 ^ 31 →
    multiplyByTen k (v : Int) =
      if v * 10 ^ k < 2 ^ 31 then .ok ((v * 10 ^ k : Nat) : Int) else .error .overflow
  | 0, v, h => by
      rw [Nat.pow_zero, Nat.mul_one, if_pos h]
      rfl
  | k + 1, v, _ => by
      have hstep : (v : Int) * 10 = ((v * 10 : Nat) : Int) := by omega
      have hpow : v * 10 ^ (k + 1) = v * 10 * 10 ^ k := by
        rw [Nat.pow_succ, Nat.mul_comm (10 ^ k), Nat.mul_assoc]
      rw [multiplyByTen, hstep, checked]
      by_cases hfits : v * 10 < 2 ^ 31
      · rw [if_pos (fits_natCast.mpr hfits), ok_bind, multiplyByTen_eq hfits, hpow]
      · have hge : v * 10 ≤ v * 10 * 10 ^ k := Nat.le_mul_of_pos_right _ (Nat.pow_pos (by decide))
        rw [if_neg fun h => hfits (fits_natCast.mp h), if_neg (by omega)]
        rfl

theorem scaleFraction_eq {v length : Nat} (h : v < 2 ^ 31) :
    scaleFraction v length =
      if Scales v length then .ok (scaled v length : Int) else .error .overflow := by
  have hlow : -2147483648 ≤ intOfLength length := by
    unfold intOfLength
    omega
  unfold scaleFraction scaled
  simp only
  by_cases hlong : 6 < intOfLength length
  · have hscales : Scales v length := .inl hlong
    rw [if_pos hlong, if_pos hscales, if_pos hlong, divideByTen_eq]
  · rw [if_neg hlong, if_neg hlong, checked]
    by_cases hfits : -2147483641 ≤ intOfLength length
    · have hk : Fits 4 (6 - intOfLength length) := by
        unfold Fits
        omega
      have hscales : Scales v length ↔ v * 10 ^ (6 - intOfLength length).toNat < 2 ^ 31 := by
        simp [Scales, hlong, hfits]
      rw [if_pos hk, ok_bind, multiplyByTen_eq h]
      simp only [hscales]
    · have hk : ¬Fits 4 (6 - intOfLength length) := by
        unfold Fits
        omega
      have hscales : ¬Scales v length := by simp [Scales, hlong, hfits]
      rw [if_neg hk, if_neg hscales]
      rfl

theorem scaled_lt {v length : Nat} (h : Scales v length) (hv : v < 2 ^ 31) : scaled v length < 2 ^ 31 := by
  unfold scaled
  split
  · exact Nat.lt_of_le_of_lt (Nat.div_le_self _ _) hv
  · rename_i hshort
    rcases h with h | h
    · exact absurd h hshort
    · exact h.2

/-- **Fractions of less than `2 ^ 31` digits are scaled as they should be.** -/
theorem scaled_eq {ds : Bytes} (hds : AllDigits ds) (hlen : ds.length < 2 ^ 31) :
    Scales (value ds) ds.length ∧ scaled (value ds) ds.length = microseconds ds := by
  have hn : intOfLength ds.length = ds.length := by
    unfold intOfLength
    omega
  unfold Scales scaled microseconds
  rw [hn]
  by_cases hlong : 6 < (ds.length : Int)
  · have hsplit : 6 + ((ds.length : Int) - 6).toNat = ds.length := by omega
    have hpow : 10 ^ ds.length = 10 ^ 6 * 10 ^ ((ds.length : Int) - 6).toNat := by
      rw [← Nat.pow_add, hsplit]
    refine ⟨.inl hlong, ?_⟩
    rw [if_pos hlong, hpow, Nat.mul_comm (value ds), Nat.mul_div_mul_left _ _ (by decide)]
  · have hvalue := Decimal.value_lt hds
    have hsplit : ds.length + (6 - (ds.length : Int)).toNat = 6 := by omega
    have hpow : 10 ^ 6 = 10 ^ ds.length * 10 ^ (6 - (ds.length : Int)).toNat := by
      rw [← Nat.pow_add, hsplit]
    have hlt : value ds * 10 ^ (6 - (ds.length : Int)).toNat < 10 ^ 6 := by
      rw [hpow]
      exact Nat.mul_lt_mul_of_pos_right hvalue (Nat.pow_pos (by decide))
    refine ⟨.inr ⟨by omega, by omega⟩, ?_⟩
    rw [if_neg hlong, hpow, Nat.mul_left_comm, Nat.mul_div_cancel_left _ (Nat.pow_pos (by decide))]

theorem microseconds_lt {ds : Bytes} (hds : AllDigits ds) : microseconds ds < 10 ^ 6 := by
  unfold microseconds
  rw [Nat.div_lt_iff_lt_mul (Nat.pow_pos (by decide)), Nat.mul_comm]
  exact Nat.mul_lt_mul_of_pos_left (Decimal.value_lt hds) (by decide)

/-- **What may stand behind the seconds**: nothing that a fraction begins with, or a point and
    digits. -/
inductive Fraction : Bytes → Bytes → Bytes → Prop where
  | none {rest : Bytes} (hends : Ends rest) (hpoint : rest.head? ≠ some 46) : Fraction rest [] rest
  | some {ds rest : Bytes} (hne : ds ≠ []) (hds : AllDigits ds) (hends : Ends rest) :
      Fraction (46 :: (ds ++ rest)) ds rest

section
variable {p ds rest : Bytes}

theorem Fraction.ends (h : Fraction p ds rest) : Ends p := by
  cases h with
  | none hends _ => exact hends
  | some _ _ _ => exact Decimal.ends_cons (by decide) _

theorem Fraction.allDigits (h : Fraction p ds rest) : AllDigits ds := by
  cases h with
  | none _ _ => simp [AllDigits]
  | some _ hds _ => exact hds

theorem Fraction.unique {ds' rest' : Bytes} (h : Fraction p ds rest) (h' : Fraction p ds' rest') :
    ds = ds' ∧ rest = rest' := by
  cases h with
  | none _ hpoint =>
    cases h' with
    | none _ _ => exact ⟨rfl, rfl⟩
    | some _ _ _ => exact absurd rfl hpoint
  | some hne hds hends =>
    generalize hq : 46 :: (ds ++ rest) = q at h'
    cases h' with
    | none _ hpoint => exact absurd (by rw [← hq]; rfl) hpoint
    | some hne' hds' hends' => exact hds.unique hds' hends hends' (List.cons.inj hq).2

/-- **The fraction is read and scaled.** -/
theorem parseFraction_eq (h : Fraction p ds rest) (hfits : value ds < 2 ^ 31) :
    parseFraction p = if Scales (value ds) ds.length then .ok ((scaled (value ds) ds.length : Int), rest)
      else .error .overflow := by
  cases h with
  | none _ hpoint =>
    have hzero : parseFraction p = .ok (0, p) := by
      cases p with
      | nil => rfl
      | cons c p =>
        have hc : c ≠ 46 := fun h => hpoint (by rw [h]; rfl)
        rw [parseFraction, if_pos hc]
    rw [hzero]
    rfl
  | some hne hds hends =>
    have hread := fromCharsInt_nonneg Decimal.ends_nil hds hne
    rw [List.append_nil, if_pos (fits_natCast.mpr hfits)] at hread
    have heq : parseFraction (46 :: (ds ++ rest)) =
        if (ds ++ rest).takeWhile isDigit = [] then protocolValueError
        else (do
          let read ← fromCharsInt ((ds ++ rest).takeWhile isDigit)
          let us ← scaleFraction read.1 ((ds ++ rest).takeWhile isDigit).length
          .ok (us, (ds ++ rest).dropWhile isDigit)) := rfl
    rw [heq, Decimal.takeWhile_isDigit hds hends, Decimal.dropWhile_isDigit hds hends, if_neg hne,
      hread, ok_bind]
    simp only
    rw [scaleFraction_eq hfits]
    split
    · rfl
    · rfl

theorem parseFraction_cases (hends : Ends p) :
    Fails (parseFraction p) ∨ ∃ ds rest, Fraction p ds rest ∧ value ds < 2 ^ 31 := by
  cases p with
  | nil => exact .inr ⟨[], [], .none hends (by simp), by decide⟩
  | cons c start =>
    by_cases hc : c = 46
    · subst hc
      by_cases hne : start.takeWhile isDigit = []
      · left
        rw [parseFraction, if_neg (not_not.mpr rfl)]
        simp only
        rw [if_pos hne]
        exact fails_protocolValueError
      · have hds := Decimal.allDigits_takeWhile start
        by_cases hfits : value (start.takeWhile isDigit) < 2 ^ 31
        · right
          refine ⟨start.takeWhile isDigit, start.dropWhile isDigit, ?_, hfits⟩
          have hfrac := Fraction.some hne hds (Decimal.ends_dropWhile start)
          rwa [List.takeWhile_append_dropWhile] at hfrac
        · left
          have hread := fromCharsInt_nonneg Decimal.ends_nil hds hne
          rw [List.append_nil, if_neg fun h => hfits (fits_natCast.mp h)] at hread
          rw [parseFraction, if_neg (not_not.mpr rfl)]
          simp only
          rw [if_neg hne, hread]
          exact ⟨_, rfl⟩
    · exact .inr ⟨[], c :: start, .none hends (by simpa using hc), by decide⟩

end

/-! ## 3. Times of day -/

/-- **The text begins with hours, minutes, seconds and a fraction**; `rest` is behind them. -/
def TimeText (p : Bytes) (hours minutes seconds : Int) (ds rest : Bytes) : Prop :=
  ∃ hs ms ss behind, p = hs ++ 58 :: (ms ++ 58 :: (ss ++ behind)) ∧ IsInteger hs hours ∧
    IsInteger ms minutes ∧ IsInteger ss seconds ∧ Fraction behind ds rest

/-- It is a time of day; the day ends at 24:00:00. -/
def InDay (hours minutes seconds us : Int) : Prop :=
  0 ≤ hours ∧ 0 ≤ minutes ∧ minutes ≤ 59 ∧ 0 ≤ seconds ∧ seconds ≤ 59 ∧
    (hours < 24 ∨ hours = 24 ∧ minutes = 0 ∧ seconds = 0 ∧ us = 0)

instance (hours minutes seconds us : Int) : Decidable (InDay hours minutes seconds us) :=
  inferInstanceAs (Decidable (_ ∧ _))

/-- The microseconds since midnight. -/
def clock (hours minutes seconds us : Int) : Int :=
  3600000000 * hours + 60000000 * minutes + 1000000 * seconds + us

section
variable {p ds rest : Bytes} {hours minutes seconds : Int}

theorem TimeText.unique {ds' rest' : Bytes} {hours' minutes' seconds' : Int}
    (h : TimeText p hours minutes seconds ds rest) (h' : TimeText p hours' minutes' seconds' ds' rest') :
    hours = hours' ∧ minutes = minutes' ∧ seconds = seconds' ∧ ds = ds' ∧ rest = rest' := by
  obtain ⟨hs, ms, ss, behind, rfl, hhs, hms, hss, hfrac⟩ := h
  obtain ⟨hs', ms', ss', behind', heq, hhs', hms', hss', hfrac'⟩ := h'
  obtain ⟨-, rfl, heq⟩ := hhs.unique hhs' (ends_colon _) (ends_colon _) heq
  obtain ⟨-, rfl, heq⟩ := hms.unique hms' (ends_colon _) (ends_colon _) (List.cons.inj heq).2
  obtain ⟨-, rfl, rfl⟩ := hss.unique hss' hfrac.ends hfrac'.ends (List.cons.inj heq).2
  exact ⟨rfl, rfl, rfl, hfrac.unique hfrac'⟩

theorem TimeText.allDigits (h : TimeText p hours minutes seconds ds rest) : AllDigits ds := by
  obtain ⟨_, _, _, _, -, -, -, -, hfrac⟩ := h
  exact hfrac.allDigits

/-- The tests of the fields are the ones of a time of day. -/
theorem inDay_tests (us : Int) (p : Bytes) :
    (if hours < 0 ∨ minutes < 0 ∨ seconds < 0 then protocolValueError
      else if minutes > 59 ∨ seconds > 59 then protocolValueError
      else if hours > 24 then protocolValueError
      else if hours = 24 ∧ (minutes ≠ 0 ∨ seconds ≠ 0 ∨ us ≠ 0) then protocolValueError
      else .ok (3600000000 * hours + 60000000 * minutes + 1000000 * seconds + us, p) :
        Parsed (Int × Bytes)) =
      if InDay hours minutes seconds us then .ok (clock hours minutes seconds us, p)
      else protocolValueError := by
  by_cases hday : InDay hours minutes seconds us
  · rw [if_pos hday]
    unfold InDay at hday
    rw [if_neg (by omega), if_neg (by omega), if_neg (by omega), if_neg (by omega)]
    rfl
  · rw [if_neg hday]
    unfold InDay at hday
    split
    · rfl
    · split
      · rfl
      · split
        · rfl
        · split
          · rfl
          · omega

/-- **A time of day is read**, and others are rejected. -/
theorem parseTimePrefix_eq (h : TimeText p hours minutes seconds ds rest) (hh : Fits 4 hours)
    (hm : Fits 4 minutes) (hs : Fits 4 seconds) (hv : value ds < 2 ^ 31) :
    parseTimePrefix p =
      if Scales (value ds) ds.length then
        if InDay hours minutes seconds (scaled (value ds) ds.length) then
          .ok (clock hours minutes seconds (scaled (value ds) ds.length), rest)
        else protocolValueError
      else .error .overflow := by
  obtain ⟨hs, ms, ss, behind, rfl, hhs, hms, hss, hfrac⟩ := h
  unfold parseTimePrefix
  rw [fromCharsInt_of_fits hhs (ends_colon _) hh, ok_bind]
  simp only [expect_cons, ok_bind]
  rw [fromCharsInt_of_fits hms (ends_colon _) hm, ok_bind]
  simp only [expect_cons, ok_bind]
  rw [fromCharsInt_of_fits hss hfrac.ends (by assumption), ok_bind]
  simp only
  rw [parseFraction_eq hfrac hv]
  split
  · rw [ok_bind]
    exact inDay_tests _ _
  · rfl

/-- **Nothing else is.** -/
theorem parseTimePrefix_cases (p : Bytes) :
    Fails (parseTimePrefix p) ∨ ∃ hours minutes seconds ds rest,
      TimeText p hours minutes seconds ds rest ∧ Fits 4 hours ∧ Fits 4 minutes ∧ Fits 4 seconds ∧
        value ds < 2 ^ 31 := by
  unfold parseTimePrefix
  rcases fromCharsInt_cases p with hfail | ⟨hs, hours, p₁, rfl, hhs, -, hh, heq⟩
  · exact .inl (hfail.bind _)
  rw [heq, ok_bind]
  simp only
  rcases expect_cases 58 p₁ with hfail | ⟨p₂, rfl, hexp⟩
  · exact .inl (hfail.bind _)
  rw [hexp, ok_bind]
  rcases fromCharsInt_cases p₂ with hfail | ⟨ms, minutes, p₃, rfl, hms, -, hm, heq⟩
  · exact .inl (hfail.bind _)
  rw [heq, ok_bind]
  simp only
  rcases expect_cases 58 p₃ with hfail | ⟨p₄, rfl, hexp⟩
  · exact .inl (hfail.bind _)
  rw [hexp, ok_bind]
  rcases fromCharsInt_cases p₄ with hfail | ⟨ss, seconds, p₅, rfl, hss, hends, hsec, heq⟩
  · exact .inl (hfail.bind _)
  rw [heq, ok_bind]
  simp only
  rcases parseFraction_cases hends with hfail | ⟨ds, rest, hfrac, hv⟩
  · exact .inl (hfail.bind _)
  exact .inr ⟨hours, minutes, seconds, ds, rest, ⟨hs, ms, ss, p₅, rfl, hhs, hms, hss, hfrac⟩, hh, hm,
    hsec, hv⟩

end

end Types

end NativePg
