/-
  File:      NativePg/Types/Printed.lean
  Subject:   Dates and times as PostgreSQL prints them (DateStyle ISO), and what the decoders make of
             the text and of the binary form.

  * `printDate`, `printTime`, `printEra` -- the texts; `timeText_print`, `dateParts_print`,
    `era_print`: they are texts of the grammar;
  * `parseTimePrefix_print`, `parseInstant_print` -- times and instants are read back;
  * **`date_time_forms_agree`** -- text and binary of dates, times of day and timestamps.
-/
import NativePg.Types.DateExact

namespace NativePg

namespace Types

open BigEndian (Fits ofInt)
open Calendar (Date)
open Decimal (AllDigits Ends IsInteger fixed isDigit padded value)
open Trimmed (All Solid)

/-! ## 1. What is printed -/

/-- Digits without the zeros at their end. -/
def trimZeros (ds : Bytes) : Bytes := (ds.reverse.dropWhile (· == 48)).reverse

/-- The digits of a fraction of a second. -/
def fractionDigits (us : Nat) : Bytes := trimZeros (fixed 6 us)

/-- A fraction of a second, where there is one. -/
def printFraction (us : Nat) : Bytes := if us = 0 then [] else 46 :: fractionDigits us

/-- So many microseconds, as hours, minutes and seconds. -/
def printTime (t : Nat) : Bytes :=
  padded 2 (t / 3600000000) ++ 58 :: (fixed 2 (t / 60000000 % 60) ++
    58 :: (fixed 2 (t / 1000000 % 60) ++ printFraction (t % 1000000)))

/-- The year as it is counted in its era. -/
def yearOfEra (year : Int) : Nat := (if year ≤ 0 then 1 - year else year).toNat

/-- A date without its era. -/
def printDate (date : Date) : Bytes :=
  padded 4 (yearOfEra date.year) ++ 45 :: (fixed 2 date.month ++ 45 :: fixed 2 date.day)

/-- The era, where it is not the common one. -/
def printEra (year : Int) : Bytes := if year ≤ 0 then ascii " BC" else []

/-! ## 2. The texts are of the grammar -/

/-- No character is white space. -/
def Unspaced (s : Bytes) : Prop := ∀ c ∈ s, isspace c = false

/-- The text ends in a digit. -/
def EndsInDigit (s : Bytes) : Prop := ∃ front c, s = front ++ [c] ∧ isDigit c = true

section
variable {s s' rest : Bytes}

theorem Unspaced.append (h : Unspaced s) (h' : Unspaced s') : Unspaced (s ++ s') :=
  List.forall_mem_append.mpr ⟨h, h'⟩

theorem Unspaced.cons {c : UInt8} (hc : isspace c = false) (h : Unspaced s) : Unspaced (c :: s) :=
  List.forall_mem_cons.mpr ⟨hc, h⟩

theorem unspaced_digits (h : AllDigits s) : Unspaced s := fun c hc => isspace_of_isDigit (h c hc)

theorem Unspaced.solid (h : Unspaced s) : Solid isspace s := Trimmed.solid_of_forall h

theorem EndsInDigit.append (h : EndsInDigit s') (s : Bytes) : EndsInDigit (s ++ s') := by
  obtain ⟨front, c, rfl, hc⟩ := h
  exact ⟨s ++ front, c, by rw [List.append_assoc], hc⟩

theorem EndsInDigit.cons (h : EndsInDigit s) (c : UInt8) : EndsInDigit (c :: s) := h.append [c]

theorem endsInDigit_digits (hne : s ≠ []) (h : AllDigits s) : EndsInDigit s :=
  ⟨s.dropLast, s.getLast hne, (List.dropLast_append_getLast hne).symm, h _ (List.getLast_mem hne)⟩

/-- What ends in a digit does not end in an era. -/
theorem EndsInDigit.not_isBc (h : EndsInDigit s) : ∀ front t, s = front ++ t → ¬IsBc t := by
  intro front t heq
  obtain ⟨front', c, hs, hc⟩ := h
  exact not_isBc_append (List.cons_ne_nil c []) (by simpa [AllDigits] using hc) heq ⟨front', hs⟩

theorem exists_trimZeros (ds : Bytes) : ∃ k, ds = trimZeros ds ++ List.replicate k 48 := by
  refine ⟨(ds.reverse.takeWhile (· == 48)).length, ?_⟩
  have hzeros : ds.reverse.takeWhile (· == 48) =
      List.replicate (ds.reverse.takeWhile (· == 48)).length 48 := by
    refine List.eq_replicate_iff.mpr ⟨rfl, fun c hc => ?_⟩
    simpa using Trimmed.all_takeWhile (· == 48) ds.reverse c hc
  have hsplit := congrArg List.reverse
    (List.takeWhile_append_dropWhile (p := (· == 48)) (l := ds.reverse))
  rw [List.reverse_append, List.reverse_reverse, hzeros, List.reverse_replicate] at hsplit
  exact hsplit.symm

/-- What is printed of a fraction is as many microseconds. -/
theorem fractionDigits_spec {us : Nat} (h : us < 10 ^ 6) :
    AllDigits (fractionDigits us) ∧ (fractionDigits us).length ≤ 6 ∧
      microseconds (fractionDigits us) = us ∧ (us ≠ 0 → fractionDigits us ≠ []) := by
  obtain ⟨k, hk⟩ := exists_trimZeros (fixed 6 us)
  have hlen := congrArg List.length hk
  have hvalue := congrArg value hk
  have hds : AllDigits (fractionDigits us) := fun c hc =>
    Decimal.allDigits_fixed 6 us c (by rw [hk]; exact List.mem_append_left _ hc)
  change _ = List.length (fractionDigits us ++ _) at hlen
  change _ = value (fractionDigits us ++ _) at hvalue
  rw [Decimal.length_fixed, List.length_append, List.length_replicate] at hlen
  rw [Decimal.value_fixed_of_lt h, Decimal.value_append, Decimal.value_replicate_zero, Nat.add_zero,
    List.length_replicate] at hvalue
  refine ⟨hds, by omega, ?_, fun hne hnil => ?_⟩
  · have hpow : 10 ^ 6 = 10 ^ (fractionDigits us).length * 10 ^ k := by rw [← Nat.pow_add, ← hlen]
    unfold microseconds
    rw [hpow, Nat.mul_left_comm, Nat.mul_div_cancel_left _ (Nat.pow_pos (by decide))]
    exact hvalue.symm
  · rw [hnil, Decimal.value_nil, Nat.zero_mul] at hvalue
    exact hne hvalue

/-- The digits behind the point, where there is one. -/
def printedDigits (us : Nat) : Bytes := if us = 0 then [] else fractionDigits us

theorem printedDigits_spec {us : Nat} (h : us < 10 ^ 6) : AllDigits (printedDigits us) ∧
    (printedDigits us).length ≤ 6 ∧ microseconds (printedDigits us) = us := by
  unfold printedDigits
  split
  · rename_i hzero
    rw [hzero]
    exact ⟨by simp [AllDigits], by simp, rfl⟩
  · obtain ⟨hds, hlen, hmicro, -⟩ := fractionDigits_spec h
    exact ⟨hds, hlen, hmicro⟩

theorem value_printedDigits_lt {us : Nat} (h : us < 10 ^ 6) : value (printedDigits us) < 2 ^ 31 := by
  obtain ⟨hds, hlen, -⟩ := printedDigits_spec h
  calc value (printedDigits us) < 10 ^ (printedDigits us).length := Decimal.value_lt hds
    _ ≤ 10 ^ 6 := Nat.pow_le_pow_right (by decide) hlen
    _ < 2 ^ 31 := by decide

theorem fraction_print {us : Nat} (h : us < 10 ^ 6) (hends : Ends rest) (hpoint : rest.head? ≠ some 46) :
    Fraction (printFraction us ++ rest) (printedDigits us) rest := by
  unfold printFraction printedDigits
  split
  · exact .none hends hpoint
  · rename_i hne
    obtain ⟨hds, -, -, hnil⟩ := fractionDigits_spec h
    exact .some (hnil hne) hds hends

/-- **The time that is printed is a time of the grammar.** -/
theorem timeText_print (t : Nat) (hends : Ends rest) (hpoint : rest.head? ≠ some 46) :
    TimeText (printTime t ++ rest) (t / 3600000000 : Nat) (t / 60000000 % 60 : Nat)
      (t / 1000000 % 60 : Nat) (printedDigits (t % 1000000)) rest := by
  refine ⟨_, _, _, printFraction (t % 1000000) ++ rest, ?_, @Decimal.isInteger_padded 2 (by decide) _,
    @Decimal.isInteger_fixed 2 _ (by decide) ?_, @Decimal.isInteger_fixed 2 _ (by decide) ?_,
    fraction_print (Nat.mod_lt _ (by decide)) hends hpoint⟩
  · unfold printTime
    simp only [List.append_assoc, List.cons_append]
  · omega
  · omega

theorem unspaced_printTime (t : Nat) : Unspaced (printTime t) := by
  have hfrac : Unspaced (printFraction (t % 1000000)) := by
    unfold printFraction
    split
    · simp [Unspaced]
    · exact .cons (by decide)
        (unspaced_digits (fractionDigits_spec (Nat.mod_lt _ (by decide))).1)
  exact (unspaced_digits (Decimal.allDigits_padded _ _)).append (.cons (by decide)
    ((unspaced_digits (Decimal.allDigits_fixed _ _)).append (.cons (by decide)
      ((unspaced_digits (Decimal.allDigits_fixed _ _)).append hfrac))))

theorem printTime_ne_nil (t : Nat) : printTime t ≠ [] :=
  List.append_ne_nil_of_left_ne_nil (Decimal.padded_ne_nil (by decide) _) _

theorem endsInDigit_printTime (t : Nat) : EndsInDigit (printTime t) := by
  have hsec := endsInDigit_digits (@Decimal.fixed_ne_nil 2 (by decide) (t / 1000000 % 60))
    (Decimal.allDigits_fixed _ _)
  refine .append (.cons (.append (.cons ?_ _) _) _) _
  unfold printFraction
  split
  · rwa [List.append_nil]
  · rename_i hne
    obtain ⟨hds, -, -, hnil⟩ := fractionDigits_spec (Nat.mod_lt t (show 1000000 > 0 by decide))
    exact .append (.cons (endsInDigit_digits (hnil hne) hds) _) _

end

section
variable {date : Date}

theorem astronomical_yearOfEra (year : Int) : astronomical (decide (year ≤ 0)) (yearOfEra year) = year := by
  unfold astronomical yearOfEra
  by_cases h : year ≤ 0
  · simp only [h, decide_true, if_true]
    omega
  · simp only [h, decide_false, Bool.false_eq_true, if_false]
    omega

/-- **The date that is printed is a date of the grammar.** -/
theorem dateParts_print (date : Date) :
    DateParts (printDate date) (yearOfEra date.year) date.month date.day := by
  obtain ⟨-, hm, -, hd⟩ := date.isDate
  have hd' := Calendar.daysInMonth_le date.year date.month
  exact ⟨_, _, _, rfl, @Decimal.isInteger_padded 4 (by decide) _,
    @Decimal.isInteger_fixed 2 _ (by decide) (by omega),
    @Decimal.isInteger_fixed 2 _ (by decide) (by omega)⟩

/-- The era stands at the end of the text. -/
theorem era_print {core : Bytes} (h : EndsInDigit core) (year : Int) :
    Era (decide (year ≤ 0)) (core ++ printEra year) core := by
  unfold printEra
  by_cases hyear : year ≤ 0
  · rw [if_pos hyear, decide_eq_true hyear]
    have hera := @Era.bc [] core [32] (ascii "BC") [] Trimmed.all_nil (by decide) (by decide)
      Trimmed.all_nil
    rwa [List.nil_append, List.append_nil] at hera
  · rw [if_neg hyear, decide_eq_false hyear]
    have hera := @Era.ad [] core [] Trimmed.all_nil Trimmed.all_nil h.not_isBc
    rwa [List.nil_append] at hera

theorem endsInDigit_printDate (date : Date) : EndsInDigit (printDate date) :=
  .append (.cons (.append (.cons (endsInDigit_digits (@Decimal.fixed_ne_nil 2 (by decide) _)
    (Decimal.allDigits_fixed _ _)) _) _) _) _

/-- The fields that are printed fit an `int`. -/
theorem fits_printed (hlow : -40000 ≤ date.year) (hhigh : date.year ≤ 40000) :
    Fits 4 (yearOfEra date.year) ∧ Fits 4 (date.month : Int) ∧ Fits 4 (date.day : Int) ∧
      -2147483646 ≤ (yearOfEra date.year : Int) := by
  obtain ⟨-, hm, -, hd⟩ := date.isDate
  have hd' := Calendar.daysInMonth_le date.year date.month
  unfold Fits yearOfEra
  omega

end

/-! ## 3. Dates, times of day and timestamps -/

/-- A timestamp; `zone` is what is printed behind the time. -/
def printStamp (date : Date) (t : Nat) (zone : Bytes) : Bytes :=
  printDate date ++ 32 :: (printTime t ++ zone) ++ printEra date.year

/-- The day PostgreSQL counts from. -/
def epoch : Date := ⟨2000, 1, 1, by decide⟩

theorem toDays_epoch : epoch.toDays = 10957 := by decide

theorem inDay_print {t : Nat} (ht : t ≤ 86400000000) : InDay (t / 3600000000 : Nat)
    (t / 60000000 % 60 : Nat) (t / 1000000 % 60 : Nat) (t % 1000000 : Nat) := by
  unfold InDay
  omega

theorem clock_print (t : Nat) : clock (t / 3600000000 : Nat) (t / 60000000 % 60 : Nat)
    (t / 1000000 % 60 : Nat) (t % 1000000 : Nat) = t := by
  unfold clock
  omega

/-- **A time of day is read back.** -/
theorem parseTimePrefix_print {t : Nat} (ht : t ≤ 86400000000) {rest : Bytes} (hends : Ends rest)
    (hpoint : rest.head? ≠ some 46) : parseTimePrefix (printTime t ++ rest) = .ok ((t : Int), rest) := by
  have hlt : t % 1000000 < 10 ^ 6 := Nat.mod_lt t (by decide)
  obtain ⟨hds, hlen, hmicro⟩ := printedDigits_spec hlt
  obtain ⟨hscales, hscaled⟩ := scaled_eq hds (by omega)
  rw [parseTimePrefix_eq (timeText_print t hends hpoint) (fits_natCast.mpr (by omega))
    (fits_natCast.mpr (by omega)) (fits_natCast.mpr (by omega)) (value_printedDigits_lt hlt),
    if_pos hscales, hscaled, hmicro, if_pos (inDay_print ht), clock_print]

theorem parseTextTime_print {t : Nat} (ht : t ≤ 86400000000) : parseTextTime (printTime t) = .ok t := by
  have htrim := trim_eq_self (unspaced_printTime t).solid
  have htime := parseTimePrefix_print ht Decimal.ends_nil (by simp)
  rw [List.append_nil] at htime
  unfold parseTextTime
  rw [if_neg (printTime_ne_nil t), htrim, htime]
  rfl

theorem parseTextDate_print (rep : DaysRep) {date : Date} (hlow : -32767 ≤ date.year)
    (hhigh : date.year ≤ 32767) :
    parseTextDate rep (printDate date ++ printEra date.year) = .ok date.toDays := by
  have hparts := dateParts_print date
  have hera := era_print (endsInDigit_printDate date) date.year
  obtain ⟨hinf, hminf⟩ := hparts.not_isWord hera
  obtain ⟨hy, hm, hd, hbc⟩ := @fits_printed date (by omega) (by omega)
  obtain ⟨hints, hok⟩ := ofInts_date date hlow hhigh
  have htrim := trim_eq_self hparts.solid
  rw [parseTextDate_eq rep hinf hminf, consumeBc_eq hera hparts.solid hparts.ne_nil,
    parseYmd_eq (by rwa [htrim]) hy hm hd, if_neg (by omega), astronomical_yearOfEra, if_pos hok,
    hints]
  rfl

section
variable {date : Date} {t : Nat} {zone : Bytes}

theorem splits_print (hzone : Unspaced zone) (hend : zone = [] ∨ EndsInDigit zone) :
    Splits (printStamp date t zone) (decide (date.year ≤ 0)) (printDate date) (printTime t ++ zone) := by
  have hparts := dateParts_print date
  have htime : Unspaced (printTime t ++ zone) := (unspaced_printTime t).append hzone
  have hne : printTime t ++ zone ≠ [] := List.append_ne_nil_of_left_ne_nil (printTime_ne_nil t) _
  have hdigit : EndsInDigit (printDate date ++ 32 :: (printTime t ++ zone)) := by
    refine .append (.cons ?_ _) _
    rcases hend with rfl | hend
    · rw [List.append_nil]
      exact endsInDigit_printTime t
    · exact hend.append _
  exact ⟨printDate date ++ 32 :: (printTime t ++ zone), 32, [], era_print hdigit date.year,
    hparts.solid.append htime.solid hparts.ne_nil hne [32], rfl, hparts.beforeSep, rfl,
    Trimmed.all_nil, htime.solid⟩

/-- **The instant that is printed is read back**, where the year is one of `std::chrono::year` and
    the zone is read. -/
theorem parseInstant_print {behind : Bytes → Parsed Int} {denoted : Bytes → Int → Prop}
    (hb : Reads behind denoted) (hlow : -40000 ≤ date.year) (hhigh : date.year ≤ 40000)
    (ht : t ≤ 86400000000) (hzone : Unspaced zone) (hend : zone = [] ∨ EndsInDigit zone)
    (hends : Ends zone) (hpoint : zone.head? ≠ some 46) :
    parseInstant behind (printStamp date t zone) =
      if (YearMonthDay.ofInts date.year date.month date.day).ok = true then
        behind zone >>= fun offset =>
          .ok (86400000000 * (YearMonthDay.ofInts date.year date.month date.day).sysDays + t -
            1000000 * offset)
      else protocolValueError := by
  have hparts := dateParts_print date
  obtain ⟨hy, hm, hd, hbc⟩ := fits_printed hlow hhigh
  obtain ⟨hlow', hhigh'⟩ := ofInts_year date.year date.month date.day
  have htrim := trim_eq_self hparts.solid
  unfold parseInstant
  rw [parseDayAndTime_eq (splits_print hzone hend), parseYmd_eq (by rwa [htrim]) hy hm hd,
    if_neg (by omega), astronomical_yearOfEra]
  by_cases hok : (YearMonthDay.ofInts date.year date.month date.day).ok = true
  · rw [if_pos hok, if_pos hok, ok_bind, parseTimePrefix_print ht hends hpoint]
    simp only [ok_bind]
    rcases hb.cases zone with ⟨ec, hfail⟩ | ⟨offset, hoff⟩
    · rw [hfail]
      rfl
    · have hday : InDay (t / 3600000000 : Nat) (t / 60000000 % 60 : Nat) (t / 1000000 % 60 : Nat)
          (t % 1000000 : Nat) := by
        unfold InDay
        omega
      have hclock : clock (t / 3600000000 : Nat) (t / 60000000 % 60 : Nat)
          (t / 1000000 % 60 : Nat) (t % 1000000 : Nat) = t := by
        unfold clock
        omega
      have hsum := parseInstant_sum hlow' hhigh' hok (by omega) (by omega) hday (hb.bounds hoff)
      rw [hclock] at hsum
      rw [hb.eq hoff, ok_bind, ok_bind]
      exact hsum
  · rw [if_neg hok, if_neg hok]
    rfl

theorem parseTextTimestamp_print (hlow : -32767 ≤ date.year) (hhigh : date.year ≤ 32767)
    (ht : t ≤ 86400000000) :
    parseTextTimestamp (printStamp date t []) = .ok (86400000000 * date.toDays + t) := by
  have hnil : Unspaced [] := by simp [Unspaced]
  obtain ⟨hints, hok⟩ := ofInts_date date hlow hhigh
  have hparts := dateParts_print date
  have htrim := trim_eq_self hparts.solid
  obtain ⟨hinf, hminf⟩ := (@splits_print date t [] hnil (.inl rfl)).not_isWord (by rwa [htrim])
  rw [parseTextTimestamp_eq hinf hminf, parseInstant_print reads_noZone (by omega) (by omega) ht hnil
    (.inl rfl) Decimal.ends_nil (by simp), if_pos hok, hints, reads_noZone.eq ⟨rfl, rfl⟩, ok_bind,
    Int.mul_zero, Int.sub_zero]
  rfl

end

/-- The binary form is read as the instant, and as the day. -/
theorem parseBinaryTimestamptz_ofInt {z : Int} (hlow : -2000000000000000000 ≤ z)
    (hhigh : z ≤ 2000000000000000000) :
    parseBinaryTimestamptz (ofInt 8 (z - 86400000000 * epoch.toDays)) = .ok z := by
  have hsum : 86400000000 * pgEpoch + (z - 86400000000 * epoch.toDays) = z := by
    rw [pgEpoch_eq, toDays_epoch]
    omega
  rw [parseBinaryTimestamptz, if_neg (not_not.mpr (BigEndian.length_ofInt ..)), BigEndian.toInt_ofInt,
    hsum, checked_of_fits (BigEndian.fits_eight_iff.mpr (by omega))]
  rw [toDays_epoch]
  exact BigEndian.fits_eight_iff.mpr (by omega)

theorem parseBinaryDate_ofInt (rep : DaysRep) {days : Int} (hlow : -13000000 ≤ days)
    (hhigh : days ≤ 13000000) : parseBinaryDate rep (ofInt 4 (days - epoch.toDays)) = .ok days := by
  have hsum : pgEpoch + (days - epoch.toDays) = days := by
    rw [pgEpoch_eq, toDays_epoch]
    omega
  have hrep : Fits rep.width days := by
    cases rep with
    | int32 => exact BigEndian.fits_four_iff.mpr (by omega)
    | int64 => exact BigEndian.fits_eight_iff.mpr (by omega)
  rw [parseBinaryDate, if_neg (not_not.mpr (BigEndian.length_ofInt ..)), BigEndian.toInt_ofInt, hsum,
    checked_of_fits hrep]
  rw [toDays_epoch]
  exact BigEndian.fits_four_iff.mpr (by omega)

/-- **The two forms of dates, times of day and timestamps are decoded to one value.** -/
theorem date_time_forms_agree (rep : DaysRep) (date : Date) (t : Nat) (hlow : -32767 ≤ date.year)
    (hhigh : date.year ≤ 32767) (ht : t ≤ 86400000000) :
    (parseTextDate rep (printDate date ++ printEra date.year) = .ok date.toDays ∧
      parseBinaryDate rep (ofInt 4 (date.toDays - epoch.toDays)) = .ok date.toDays) ∧
    (parseTextTime (printTime t) = .ok t ∧ parseBinaryTime (ofInt 8 t) = .ok t) ∧
    parseTextTimestamp (printStamp date t []) = .ok (86400000000 * date.toDays + t) ∧
      parseBinaryTimestamp (ofInt 8 (86400000000 * (date.toDays - epoch.toDays) + t)) =
        .ok (86400000000 * date.toDays + t) := by
  have hbounds : -12688000 ≤ date.toDays ∧ date.toDays ≤ 11250000 :=
    dayNumber_bounds (by omega) (by omega) date.isDate
  refine ⟨⟨parseTextDate_print rep hlow hhigh, parseBinaryDate_ofInt rep (by omega) (by omega)⟩,
    ⟨parseTextTime_print ht, ?_⟩, parseTextTimestamp_print hlow hhigh ht, ?_⟩
  · have hfits : Fits 8 (t : Int) := BigEndian.fits_eight_iff.mpr (by omega)
    rw [parseBinaryTime, if_neg (not_not.mpr (BigEndian.length_ofInt ..)),
      BigEndian.toInt_ofInt hfits]
  · have hcount : 86400000000 * (date.toDays - epoch.toDays) + t =
        86400000000 * date.toDays + t - 86400000000 * epoch.toDays := by omega
    rw [hcount]
    exact parseBinaryTimestamptz_ofInt (by omega) (by omega)

/-- The 29th of February of the year 1 BC. -/
def leapDay : Date := ⟨0, 2, 29, by decide⟩

theorem date_time_forms_agree_leap_day :
    printStamp leapDay 86400000000 [] = ascii "0001-02-29 24:00:00 BC" ∧
      parseTextTimestamp (printStamp leapDay 86400000000 []) =
        .ok (86400000000 * Calendar.dayNumber 0 3 1) :=
  ⟨by decide, (date_time_forms_agree .int32 leapDay 86400000000 (by decide) (by decide)
    (by decide)).2.2.1.trans (congrArg Except.ok (by decide))⟩

end Types

end NativePg
