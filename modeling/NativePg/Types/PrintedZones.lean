/-
  File:      NativePg/Types/PrintedZones.lean
  Subject:   Times with a zone as PostgreSQL prints them, and the two forms of them.

  * `printZone` -- an offset, with its minutes and seconds where it has some. `zoneText_print`,
    `parseTzSuffix_seconds`: the scanner reads the ones of whole minutes, and no other;
  * **`zoned_forms_agree_iff`** -- the two forms of a value are decoded to one value if and only if
    the offset is of whole minutes, and the local year one of `std::chrono::year`.
-/
import NativePg.Types.Printed

namespace NativePg

namespace Types

open BigEndian (Fits ofInt)
open Calendar (Date)
open Decimal (AllDigits Ends fixed value)

/-! ## 1. Zones -/

/-- An offset of so many seconds east of UTC. -/
def printZone (offset : Int) : Bytes :=
  let seconds := offset.natAbs
  (if offset < 0 then 45 else 43) :: (fixed 2 (seconds / 3600) ++
    if seconds % 60 ≠ 0 then
      58 :: (fixed 2 (seconds / 60 % 60) ++ 58 :: fixed 2 (seconds % 60))
    else if seconds / 60 % 60 ≠ 0 then 58 :: fixed 2 (seconds / 60 % 60)
    else [])

section
variable {offset : Int}

theorem value_fixed_two {n : Nat} (h : n < 100) : value (fixed 2 n) = n :=
  Decimal.value_fixed_of_lt h

theorem isSign_print (offset : Int) : IsSign (if offset < 0 then 45 else 43) := by
  split
  · exact .inr rfl
  · exact .inl rfl

theorem signed_print (offset : Int) : signed (if offset < 0 then 45 else 43) offset.natAbs = offset := by
  unfold signed
  by_cases h : offset < 0
  · rw [if_pos h, if_neg (by decide)]
    omega
  · rw [if_neg h, if_pos rfl]
    omega

/-- **An offset of whole minutes is a zone of the grammar.** -/
theorem zoneText_print (hlow : -57600 < offset) (hhigh : offset < 57600) (h : 60 ∣ offset) :
    ZoneText (printZone offset) offset := by
  have hminutes : offset.natAbs % 60 = 0 := by omega
  have hhours := value_fixed_two (show offset.natAbs / 3600 < 100 by omega)
  have hmins := value_fixed_two (show offset.natAbs / 60 % 60 < 100 by omega)
  unfold printZone
  simp only
  rw [if_neg (not_not.mpr hminutes)]
  by_cases hwhole : offset.natAbs / 60 % 60 = 0
  · have hzone := ZoneText.hours (isSign_print offset) (.inr (Decimal.length_fixed 2 _))
      (Decimal.allDigits_fixed 2 (offset.natAbs / 3600)) (by omega)
    have hsum : (3600 * (value (fixed 2 (offset.natAbs / 3600)) : Int)) = offset.natAbs := by omega
    rw [hsum, signed_print] at hzone
    rwa [if_neg (not_not.mpr hwhole), List.append_nil]
  · have hzone := ZoneText.colon (isSign_print offset) (.inr (Decimal.length_fixed 2 _))
      (Decimal.allDigits_fixed 2 (offset.natAbs / 3600)) (by omega) (Decimal.length_fixed 2 _)
      (Decimal.allDigits_fixed 2 (offset.natAbs / 60 % 60)) (by omega)
    have hsum : (3600 * (value (fixed 2 (offset.natAbs / 3600)) : Int)) +
        60 * (value (fixed 2 (offset.natAbs / 60 % 60)) : Int) = offset.natAbs := by omega
    rw [hsum, signed_print] at hzone
    rwa [if_pos hwhole]

theorem unspaced_printZone (offset : Int) : Unspaced (printZone offset) := by
  have hfixed : ∀ n, Unspaced (fixed 2 n) := fun n => unspaced_digits (Decimal.allDigits_fixed 2 n)
  unfold printZone
  simp only
  refine .cons ?_ (.append (hfixed _) ?_)
  · split
    · rfl
    · rfl
  · split
    · exact .cons (by decide) ((hfixed _).append (.cons (by decide) (hfixed _)))
    · split
      · exact .cons (by decide) (hfixed _)
      · simp [Unspaced]

theorem endsInDigit_printZone (offset : Int) : EndsInDigit (printZone offset) := by
  have hfixed : ∀ n, EndsInDigit (fixed 2 n) := fun n =>
    endsInDigit_digits (Decimal.fixed_ne_nil (by decide) n) (Decimal.allDigits_fixed 2 n)
  unfold printZone
  simp only
  refine .cons ?_ _
  split
  · exact .append (.cons (.append (.cons (hfixed _) _) _) _) _
  · split
    · exact .append (.cons (hfixed _) _) _
    · rw [List.append_nil]
      exact hfixed _

/-- A zone is not a part of the seconds before it. -/
theorem printZone_head (offset : Int) :
    Ends (printZone offset) ∧ (printZone offset).head? ≠ some 46 := by
  unfold printZone
  simp only
  by_cases h : offset < 0
  · rw [if_pos h]
    exact ⟨Decimal.ends_cons (by decide) _, by simp⟩
  · rw [if_neg h]
    exact ⟨Decimal.ends_cons (by decide) _, by simp⟩

/-- **An offset with seconds is rejected**: the scanner takes the minutes for the end of the text. -/
theorem parseTzSuffix_seconds (h : ¬(60 ∣ offset)) : Fails (parseTzSuffix (printZone offset)) := by
  have hseconds : offset.natAbs % 60 ≠ 0 := by omega
  have htrim := trim_eq_self (unspaced_printZone offset).solid
  have hprint : printZone offset = (if offset < 0 then 45 else 43) ::
      (fixed 2 (offset.natAbs / 3600) ++
        58 :: (fixed 2 (offset.natAbs / 60 % 60) ++ 58 :: fixed 2 (offset.natAbs % 60))) := by
    unfold printZone
    simp only
    rw [if_pos hseconds]
  have hlen := Decimal.length_fixed 2 (offset.natAbs / 3600)
  rw [parseTzSuffix_sign (htrim.trans hprint) (isSign_print offset) (Decimal.allDigits_fixed 2 _)
    (Nat.le_of_eq hlen) (.inl hlen), hlen, if_neg (by decide)]
  unfold behindHours
  simp only [if_true]
  rw [tzMinutes_eq (Decimal.length_fixed 2 _) (Decimal.allDigits_fixed 2 _), ok_bind]
  simp only
  rw [if_pos (List.cons_ne_nil _ _)]
  exact fails_protocolValueError

end

/-! ## 2. Both forms -/

/-- Both decoders succeed, with one value. -/
def Agree {α : Type} (text binary : Parsed α) : Prop := ∃ v, text = .ok v ∧ binary = .ok v

theorem agree_iff {α : Type} {text : Parsed α} (v : α) : Agree text (.ok v) ↔ text = .ok v := by
  constructor
  · rintro ⟨v', h, h'⟩
    cases h'
    exact h
  · exact fun h => ⟨v, h, rfl⟩

/-- An instant in a zone, so many microseconds and seconds east of UTC. -/
def localTime (instant offset : Int) : Int := instant + 1000000 * offset

/-- The day in the zone. -/
def localDate (instant offset : Int) : Date := Date.ofDays (localTime instant offset / 86400000000)

/-- A `timestamptz`, in a zone. -/
def printTimestamptz (instant offset : Int) : Bytes :=
  printStamp (localDate instant offset) (localTime instant offset % 86400000000).toNat
    (printZone offset)

/-- A `timetz`. -/
def printTimetz (t : Nat) (offset : Int) : Bytes := printTime t ++ printZone offset

/-- Few days are few years. -/
theorem year_bounds {date : Date} (hlow : -12700000 ≤ date.toDays) (hhigh : date.toDays ≤ 11260000) :
    -40000 ≤ date.year ∧ date.year ≤ 40000 := by
  have hlt := Date.daysOfMonths_lt date
  have hyear : Calendar.daysInYear date.year ≤ 366 := by
    unfold Calendar.daysInYear
    split
    · decide
    · decide
  have hd := date.isDate.2.2.1
  unfold Date.toDays Calendar.dayNumber Calendar.daysBeforeYear at hlow hhigh
  omega

section
variable {instant offset : Int}

/-- A printed offset of whole minutes is read. -/
theorem parseTzSuffix_print (hlow : -57600 < offset) (hhigh : offset < 57600) (h : 60 ∣ offset) :
    parseTzSuffix (printZone offset) = .ok offset := by
  apply parseTzSuffix_eq
  rw [trim_eq_self (unspaced_printZone offset).solid]
  exact zoneText_print hlow hhigh h

/-- **The text of a `timestamptz`** is read as the instant, or rejected. -/
theorem parseTextTimestamptz_print (hlow : -57600 < offset) (hhigh : offset < 57600)
    (hyear : -32767 ≤ (Date.ofDays (instant / 86400000000)).year)
    (hyear' : (Date.ofDays (instant / 86400000000)).year ≤ 32767) :
    parseTextTimestamptz (printTimestamptz instant offset) = .ok instant ↔
      60 ∣ offset ∧ -32767 ≤ (localDate instant offset).year ∧
        (localDate instant offset).year ≤ 32767 := by
  have hdays := Date.toDays_ofDays (instant / 86400000000)
  have hbounds := dayNumber_bounds (by omega) (by omega)
    (Date.ofDays (instant / 86400000000)).isDate
  change -12688000 ≤ Date.toDays _ ∧ Date.toDays _ ≤ 11250000 at hbounds
  rw [hdays] at hbounds
  obtain ⟨hdayslow, hdayshigh⟩ := hbounds
  have hlocal : (localDate instant offset).toDays = localTime instant offset / 86400000000 :=
    Date.toDays_ofDays _
  have htime : localTime instant offset = instant + 1000000 * offset := rfl
  obtain ⟨hlow', hhigh'⟩ := @year_bounds (localDate instant offset) (by omega) (by omega)
  obtain ⟨hends, hpoint⟩ := printZone_head offset
  have hparts := dateParts_print (localDate instant offset)
  have htrim := trim_eq_self hparts.solid
  have hsplit := @splits_print (localDate instant offset)
    (localTime instant offset % 86400000000).toNat _ (unspaced_printZone offset)
    (.inr (endsInDigit_printZone offset))
  obtain ⟨hinf, hminf⟩ := hsplit.not_isWord (by rwa [htrim])
  have hread := @parseInstant_print (localDate instant offset)
    (localTime instant offset % 86400000000).toNat _ _ _ reads_zone hlow' hhigh' (by omega)
    (unspaced_printZone offset) (.inr (endsInDigit_printZone offset)) hends hpoint
  unfold printTimestamptz
  rw [parseTextTimestamptz_eq hinf hminf, hread]
  constructor
  · intro h
    by_cases hok : (YearMonthDay.ofInts (localDate instant offset).year
        (localDate instant offset).month (localDate instant offset).day).ok = true
    · rw [if_pos hok] at h
      by_cases hwhole : 60 ∣ offset
      · -- the day that is read is the local one, so its year is one that `ok` lets through
        rw [parseTzSuffix_print hlow hhigh hwhole, ok_bind, Except.ok.injEq] at h
        obtain ⟨date, hy, -, -, hdate⟩ := exists_date hok
        obtain ⟨hlow'', hhigh''⟩ := ofInts_year (localDate instant offset).year
          (localDate instant offset).month (localDate instant offset).day
        have hne := (YearMonthDay.ok_iff.mp hok).1
        have hsame : date = localDate instant offset :=
          Date.toDays_injective (by omega)
        rw [hsame] at hy
        exact ⟨hwhole, by omega, by omega⟩
      · obtain ⟨ec, hfail⟩ := parseTzSuffix_seconds hwhole
        rw [hfail] at h
        cases h
    · rw [if_neg hok] at h
      cases h
  · rintro ⟨hwhole, hy, hy'⟩
    obtain ⟨hints, hok⟩ := ofInts_date (localDate instant offset) hy hy'
    have hsys : (YearMonthDay.mk (localDate instant offset).year (localDate instant offset).month
        (localDate instant offset).day).sysDays = localTime instant offset / 86400000000 := hlocal
    have hsum : 86400000000 * (localTime instant offset / 86400000000) +
        (localTime instant offset % 86400000000).toNat - 1000000 * offset = instant := by omega
    rw [if_pos hok, parseTzSuffix_print hlow hhigh hwhole, ok_bind, hints, hsys, hsum]

theorem parseTextTimetz_print {t : Nat} (ht : t ≤ 86400000000) (hlow : -57600 < offset)
    (hhigh : offset < 57600) :
    parseTextTimetz (printTimetz t offset) = .ok ⟨t, offset⟩ ↔ 60 ∣ offset := by
  obtain ⟨hends, hpoint⟩ := printZone_head offset
  have htrim := trim_eq_self ((unspaced_printTime t).append (unspaced_printZone offset)).solid
  unfold parseTextTimetz printTimetz
  rw [htrim, parseTimePrefix_print ht hends hpoint, ok_bind]
  simp only
  constructor
  · intro h
    refine Classical.byContradiction fun hno => ?_
    obtain ⟨ec, hfail⟩ := parseTzSuffix_seconds hno
    rw [hfail] at h
    cases h
  · intro h
    rw [parseTzSuffix_print hlow hhigh h]
    rfl

theorem parseBinaryTimetz_ofInt {t : Nat} (ht : t ≤ 86400000000) (hlow : -57600 < offset)
    (hhigh : offset < 57600) :
    parseBinaryTimetz (ofInt 8 t ++ ofInt 4 (-offset)) = .ok ⟨t, offset⟩ := by
  have hlen := BigEndian.length_ofInt 8 (t : Int)
  have hfits : Fits 8 (t : Int) := BigEndian.fits_eight_iff.mpr (by omega)
  have hfits' : Fits 4 (-offset) := BigEndian.fits_four_iff.mpr (by omega)
  have hfits'' : Fits 4 (- -offset) := BigEndian.fits_four_iff.mpr (by omega)
  unfold parseBinaryTimetz
  rw [if_neg (by simp), List.take_left' hlen, List.drop_left' hlen, BigEndian.toInt_ofInt hfits,
    BigEndian.toInt_ofInt hfits']
  simp only
  rw [checked_of_fits hfits'', ok_bind, Int.neg_neg]

end

/-- **The two forms of a value with a zone are decoded to one value if and only if** the offset is of
    whole minutes, and, of a `timestamptz`, the local year is one of `std::chrono::year`. -/
theorem zoned_forms_agree_iff (instant offset : Int) (t : Nat) :
    (-57600 < offset → offset < 57600 →
      -32767 ≤ (Date.ofDays (instant / 86400000000)).year →
      (Date.ofDays (instant / 86400000000)).year ≤ 32767 →
      (Agree (parseTextTimestamptz (printTimestamptz instant offset))
          (parseBinaryTimestamptz (ofInt 8 (instant - 86400000000 * epoch.toDays))) ↔
        60 ∣ offset ∧ -32767 ≤ (localDate instant offset).year ∧
          (localDate instant offset).year ≤ 32767)) ∧
    (t ≤ 86400000000 → -57600 < offset → offset < 57600 →
      (Agree (parseTextTimetz (printTimetz t offset))
          (parseBinaryTimetz (ofInt 8 t ++ ofInt 4 (-offset))) ↔ 60 ∣ offset)) := by
  refine ⟨fun hlow hhigh hyear hyear' => ?_, fun ht hlow hhigh => ?_⟩
  · have hbounds := dayNumber_bounds (by omega) (by omega)
      (Date.ofDays (instant / 86400000000)).isDate
    change -12688000 ≤ Date.toDays _ ∧ Date.toDays _ ≤ 11250000 at hbounds
    rw [Date.toDays_ofDays] at hbounds
    rw [parseBinaryTimestamptz_ofInt (by omega) (by omega), agree_iff,
      parseTextTimestamptz_print hlow hhigh hyear hyear']
  · rw [parseBinaryTimetz_ofInt ht hlow hhigh, agree_iff, parseTextTimetz_print ht hlow hhigh]

/-- At the first instant of 1970 the clocks of Monrovia showed 23:15:30, which is not read. -/
theorem zone_with_seconds_is_rejected :
    ¬((∀ instant offset : Int, -57600 < offset → offset < 57600 →
      -32767 ≤ (Date.ofDays (instant / 86400000000)).year →
      (Date.ofDays (instant / 86400000000)).year ≤ 32767 →
      Agree (parseTextTimestamptz (printTimestamptz instant offset))
        (parseBinaryTimestamptz (ofInt 8 (instant - 86400000000 * epoch.toDays)))) ∧
    ∀ (t : Nat) (offset : Int), t ≤ 86400000000 → -57600 < offset → offset < 57600 →
      Agree (parseTextTimetz (printTimetz t offset))
        (parseBinaryTimetz (ofInt 8 t ++ ofInt 4 (-offset)))) := by
  rintro ⟨hall, -⟩
  have hyear : (Date.ofDays (0 / 86400000000)).year = 1970 := by decide
  obtain ⟨v, htext, hbinary⟩ := hall 0 (-2670) (by decide) (by decide) (by omega) (by omega)
  rw [parseBinaryTimestamptz_ofInt (by decide) (by decide)] at hbinary
  cases hbinary
  have hwhole := (parseTextTimestamptz_print (by decide) (by decide) (by omega) (by omega)).mp htext
  exact absurd hwhole.1 (by decide)

example : printTimestamptz 0 (-2670) = ascii "1969-12-31 23:15:30-00:44:30" := by decide

end Types

end NativePg
