/-
  File:      NativePg/Types/Sentinels.lean
  Subject:   The binary decoders of dates and timestamps at the limits of their types.

  * `Settled` -- what is asked of a decoder: no overflow, the infinities are the ones of the texts,
    and no finite value is one;
  * **`binary_limits_exactly`** -- for which bytes it holds. The shift to the epoch of the C++ types
    knows of no infinity: the one of a timestamp overflows, and a timestamp just below the end of
    PostgreSQL's range becomes one.
-/
import NativePg.Types.DateTime

namespace NativePg

namespace Types

open BigEndian (Fits toInt)

/-! ## 1. Infinities -/

/-- **What is asked of a decoder** that gives `r` for the integer `v` of so many bytes, where `text`
    is the decoder of the text and `max`, `min` are the limits of the result. -/
structure Settled (width : Nat) (finite : Int → Prop) (max min : Int) (text : Bytes → Parsed Int)
    (v : Int) (r : Parsed Int) : Prop where
  total : r ≠ .error .overflow
  infinity : v = maxOf width → r = .ok max ∧ text (ascii "infinity") = r
  minusInfinity : v = minOf width → r = .ok min ∧ text (ascii "-infinity") = r
  finite : finite v → r ≠ .ok max ∧ r ≠ .ok min

/-- The days from 2000-01-01 of the dates that PostgreSQL stores, from 4714-11-24 BC on. -/
def FiniteDate (v : Int) : Prop := -2451545 ≤ v ∧ v < 2145031949

/-- The microseconds from 2000-01-01 of the timestamps that PostgreSQL stores. -/
def FiniteTimestamp (v : Int) : Prop := -211813488000000000 ≤ v ∧ v < 9223371331200000000

theorem maxOf_four : maxOf 4 = 2147483647 := by decide

theorem minOf_four : minOf 4 = -2147483648 := by decide

theorem maxOf_eight : maxOf 8 = 9223372036854775807 := by decide

theorem minOf_eight : minOf 8 = -9223372036854775808 := by decide

theorem fits_iff_limits {width : Nat} (h : width = 4 ∨ width = 8) {z : Int} :
    Fits width z ↔ minOf width ≤ z ∧ z ≤ maxOf width := by
  rcases h with rfl | rfl
  · rw [maxOf_four, minOf_four]
    exact BigEndian.fits_four_iff
  · rw [maxOf_eight, minOf_eight]
    exact BigEndian.fits_eight_iff

/-! ## 2. The shift to the epoch -/

/-- **A decoder that adds a shift is settled** where the sum fits, the integer is no limit, and no
    finite value is shifted onto a limit of the result. -/
theorem settled_shift_iff {width width' : Nat} {finite : Int → Prop} {max min shift v : Int}
    {text : Bytes → Parsed Int} (hmax : v = maxOf width → shift + v ≠ max)
    (hmin : v = minOf width → shift + v ≠ min) :
    Settled width finite max min text v (checked width' (shift + v)) ↔
      Fits width' (shift + v) ∧ v ≠ maxOf width ∧ v ≠ minOf width ∧
        (finite v → shift + v ≠ max ∧ shift + v ≠ min) := by
  constructor
  · rintro ⟨htotal, hinf, hminf, hfinite⟩
    have hsum : Fits width' (shift + v) := by
      refine Classical.byContradiction fun h => htotal ?_
      rw [checked, if_neg h]
    rw [checked_of_fits hsum] at hinf hminf hfinite
    refine ⟨hsum, fun hv => hmax hv (Except.ok.inj (hinf hv).1),
      fun hv => hmin hv (Except.ok.inj (hminf hv).1), fun hv => ?_⟩
    obtain ⟨hne, hne'⟩ := hfinite hv
    exact ⟨fun h => hne (congrArg Except.ok h), fun h => hne' (congrArg Except.ok h)⟩
  · rintro ⟨hsum, hnemax, hnemin, hfinite⟩
    rw [checked_of_fits hsum]
    refine ⟨nofun, fun hv => absurd hv hnemax, fun hv => absurd hv hnemin, fun hv => ?_⟩
    obtain ⟨hne, hne'⟩ := hfinite hv
    exact ⟨fun h => hne (Except.ok.inj h), fun h => hne' (Except.ok.inj h)⟩

section
variable {from_ : Bytes}

/-- **A timestamp is settled** where it is not the least integer and the shift stays below the
    greatest. -/
theorem settled_timestamp_iff {text : Bytes → Parsed Int} (hlen : from_.length = 8) :
    Settled 8 FiniteTimestamp (maxOf 8) (minOf 8) text (toInt from_)
        (checked 8 (86400000000 * pgEpoch + toInt from_)) ↔
      toInt from_ ≠ minOf 8 ∧ 86400000000 * pgEpoch + toInt from_ < maxOf 8 := by
  have hfits := BigEndian.fits_toInt from_
  rw [hlen, fits_iff_limits (.inr rfl)] at hfits
  rw [settled_shift_iff, fits_iff_limits (.inr rfl)]
  · generalize toInt from_ = v at hfits
    rw [pgEpoch_eq, maxOf_eight, minOf_eight] at *
    unfold FiniteTimestamp
    constructor
    · -- a sum that is the limit is one of a finite value
      rintro ⟨hsum, -, hmin, hfinite⟩
      refine ⟨hmin, Classical.byContradiction fun hge => ?_⟩
      exact (hfinite ⟨by omega, by omega⟩).1 (by omega)
    · rintro ⟨hmin, hlt⟩
      exact ⟨⟨by omega, by omega⟩, by omega, hmin, fun _ => ⟨by omega, by omega⟩⟩
  · rw [pgEpoch_eq, maxOf_eight]
    omega
  · rw [pgEpoch_eq, minOf_eight]
    omega

/-- **A date is settled** where it is no limit, and the shift fits the type of the days. -/
theorem settled_date_iff (rep : DaysRep) (hlen : from_.length = 4) :
    Settled 4 FiniteDate (maxOf rep.width) (minOf rep.width) (parseTextDate rep) (toInt from_)
        (checked rep.width (pgEpoch + toInt from_)) ↔
      toInt from_ ≠ maxOf 4 ∧ toInt from_ ≠ minOf 4 ∧
        pgEpoch + toInt from_ ≤ maxOf rep.width := by
  have hfits := BigEndian.fits_toInt from_
  rw [hlen, fits_iff_limits (.inl rfl)] at hfits
  have hwidth : rep.width = 4 ∨ rep.width = 8 := by
    cases rep with
    | int32 => exact .inl rfl
    | int64 => exact .inr rfl
  -- the least day of either type is below all that the shift gives
  have hlimits : minOf rep.width ≤ -2147483648 ∧ 2147483647 ≤ maxOf rep.width ∧
      (maxOf rep.width = 2147483647 ∨ maxOf rep.width = 9223372036854775807) := by
    cases rep with
    | int32 => decide
    | int64 => decide
  rw [settled_shift_iff, fits_iff_limits hwidth]
  · generalize toInt from_ = v at hfits
    rw [pgEpoch_eq, maxOf_four, minOf_four] at *
    unfold FiniteDate
    constructor
    · rintro ⟨hsum, hmax, hmin, -⟩
      exact ⟨hmax, hmin, hsum.2⟩
    · rintro ⟨hmax, hmin, hle⟩
      exact ⟨⟨by omega, hle⟩, hmax, hmin, fun _ => ⟨by omega, by omega⟩⟩
  · rw [pgEpoch_eq, maxOf_four]
    omega
  · rw [pgEpoch_eq, minOf_four]
    omega

/-- The offset is negated, which the least one cannot be. -/
theorem parseBinaryTimetz_total_iff (hlen : from_.length = 12) :
    parseBinaryTimetz from_ ≠ .error .overflow ↔ toInt (from_.drop 8) ≠ minOf 4 := by
  have hfits := BigEndian.fits_toInt (from_.drop 8)
  rw [List.length_drop, hlen, fits_iff_limits (.inl rfl)] at hfits
  unfold parseBinaryTimetz
  rw [if_neg (not_not.mpr hlen)]
  simp only
  generalize toInt (from_.drop 8) = offset at hfits
  rw [maxOf_four, minOf_four] at *
  by_cases hmin : offset = -2147483648
  · have hneg : ¬Fits 4 (-offset) := by
      rw [BigEndian.fits_four_iff]
      omega
    rw [checked, if_neg hneg]
    exact ⟨fun h => absurd rfl h, fun h => absurd hmin h⟩
  · have hneg : Fits 4 (-offset) := BigEndian.fits_four_iff.mpr (by omega)
    rw [checked_of_fits hneg, ok_bind]
    exact ⟨fun _ => hmin, fun _ => nofun⟩

end

/-! ## 3. The four decoders -/

/-- **For which bytes the binary decoders are settled**: no limit of the integers, and no sum beyond
    the limits of the result. -/
theorem binary_limits_exactly (rep : DaysRep) (from_ : Bytes) :
    (from_.length = 4 →
      (Settled 4 FiniteDate (maxOf rep.width) (minOf rep.width) (parseTextDate rep) (toInt from_)
          (parseBinaryDate rep from_) ↔
        toInt from_ ≠ maxOf 4 ∧ toInt from_ ≠ minOf 4 ∧ pgEpoch + toInt from_ ≤ maxOf rep.width)) ∧
    (from_.length = 8 →
      (Settled 8 FiniteTimestamp (maxOf 8) (minOf 8) parseTextTimestamp (toInt from_)
          (parseBinaryTimestamp from_) ↔
        toInt from_ ≠ minOf 8 ∧ 86400000000 * pgEpoch + toInt from_ < maxOf 8) ∧
      (Settled 8 FiniteTimestamp (maxOf 8) (minOf 8) parseTextTimestamptz (toInt from_)
          (parseBinaryTimestamptz from_) ↔
        toInt from_ ≠ minOf 8 ∧ 86400000000 * pgEpoch + toInt from_ < maxOf 8)) ∧
    (from_.length = 12 →
      (parseBinaryTimetz from_ ≠ .error .overflow ↔ toInt (from_.drop 8) ≠ minOf 4)) := by
  refine ⟨fun hlen => ?_, fun hlen => ?_, parseBinaryTimetz_total_iff⟩
  · rw [parseBinaryDate, if_neg (not_not.mpr hlen)]
    exact settled_date_iff rep hlen
  · rw [parseBinaryTimestamp, parseBinaryTimestamptz, if_neg (not_not.mpr hlen)]
    exact ⟨settled_timestamp_iff hlen, settled_timestamp_iff hlen⟩

/-- The infinity of a timestamp overflows. -/
theorem binary_infinity_overflows :
    ¬((∀ (rep : DaysRep) (from_ : Bytes), from_.length = 4 →
      Settled 4 FiniteDate (maxOf rep.width) (minOf rep.width) (parseTextDate rep) (toInt from_)
        (parseBinaryDate rep from_)) ∧
    (∀ from_ : Bytes, from_.length = 8 →
      Settled 8 FiniteTimestamp (maxOf 8) (minOf 8) parseTextTimestamp (toInt from_)
        (parseBinaryTimestamp from_) ∧
      Settled 8 FiniteTimestamp (maxOf 8) (minOf 8) parseTextTimestamptz (toInt from_)
        (parseBinaryTimestamptz from_)) ∧
    ∀ from_ : Bytes, from_.length = 12 → parseBinaryTimetz from_ ≠ .error .overflow) := by
  rintro ⟨-, hall, -⟩
  exact (hall [127, 255, 255, 255, 255, 255, 255, 255] rfl).1.total (by decide)

end Types

end NativePg
