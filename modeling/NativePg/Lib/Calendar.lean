/-
  File:      NativePg/Lib/Calendar.lean
  Subject:   The proleptic Gregorian calendar, with a year zero.

  * `daysInMonth`, `dayNumber` -- how long a month is, and how many days a day is behind 1970-01-01;
  * `Date` -- a year, a month of it and a day of that month. An invalid date cannot be built;
  * `Date.ofDays` -- the date of a day. `Date.toDays_ofDays`, `Date.ofDays_toDays`: dates and days
    are in bijection.
-/
import Mathlib.Tactic.Common

namespace Calendar

/-! ## 1. Years -/

/-- Has the year a 29th of February? -/
def isLeap (year : Int) : Bool := year % 4 == 0 && (year % 100 != 0 || year % 400 == 0)

/-- The days from the first one of the year 1 to the first one of this year. -/
def daysBeforeYear (year : Int) : Int :=
  365 * (year - 1) + (year - 1) / 4 - (year - 1) / 100 + (year - 1) / 400

/-- How many days a year has. -/
def daysInYear (year : Int) : Nat := if isLeap year then 366 else 365

theorem isLeap_iff (year : Int) :
    isLeap year = true ↔ year % 4 = 0 ∧ (year % 100 ≠ 0 ∨ year % 400 = 0) := by
  simp [isLeap]

theorem daysBeforeYear_succ (year : Int) :
    daysBeforeYear (year + 1) = daysBeforeYear year + daysInYear year := by
  have hleap := isLeap_iff year
  unfold daysBeforeYear daysInYear
  split
  · rename_i h
    have := hleap.mp h
    omega
  · rename_i h
    have : ¬(year % 4 = 0 ∧ (year % 100 ≠ 0 ∨ year % 400 = 0)) := fun hl => h (hleap.mpr hl)
    omega

theorem daysBeforeYear_mono {year year' : Int} (h : year ≤ year') :
    daysBeforeYear year ≤ daysBeforeYear year' := by
  unfold daysBeforeYear
  omega

/-- The year a day is in, counted from the first day of the year 1. The mean year is 146097 / 400
    days, and the year it gives is at most one too early. -/
def yearOf (n : Int) : Int :=
  let year := 400 * n / 146097 + 1
  if n < daysBeforeYear (year + 1) then year else year + 1

theorem yearOf_spec (n : Int) :
    daysBeforeYear (yearOf n) ≤ n ∧ n < daysBeforeYear (yearOf n + 1) := by
  unfold yearOf
  simp only
  split
  · rename_i h
    refine ⟨?_, h⟩
    unfold daysBeforeYear
    omega
  · rename_i h
    refine ⟨Int.not_lt.mp h, ?_⟩
    unfold daysBeforeYear
    omega

theorem year_unique {n year year' : Int} (h : daysBeforeYear year ≤ n ∧ n < daysBeforeYear (year + 1))
    (h' : daysBeforeYear year' ≤ n ∧ n < daysBeforeYear (year' + 1)) : year = year' := by
  rcases Int.lt_trichotomy year year' with hlt | heq | hlt
  · have := daysBeforeYear_mono (show year + 1 ≤ year' by omega)
    omega
  · exact heq
  · have := daysBeforeYear_mono (show year' + 1 ≤ year by omega)
    omega

/-! ## 2. Months -/

/-- How many days a month has. -/
def daysInMonth (year : Int) (month : Nat) : Nat :=
  match month with
  | 2 => if isLeap year then 29 else 28
  | 4 | 6 | 9 | 11 => 30
  | _ => 31

theorem daysInMonth_le (year : Int) (month : Nat) : daysInMonth year month ≤ 31 := by
  unfold daysInMonth
  repeat' split
  all_goals decide

/-- The days of `k` months, from a month on. -/
def daysOfMonths (year : Int) (month : Nat) : (k : Nat) → Nat
  | 0 => 0
  | k + 1 => daysInMonth year month + daysOfMonths year (month + 1) k

theorem daysOfMonths_succ (year : Int) : ∀ (k month : Nat),
    daysOfMonths year month (k + 1) = daysOfMonths year month k + daysInMonth year (month + k)
  | 0, month => by simp [daysOfMonths]
  | k + 1, month => by
      have hmonth : month + 1 + k = month + (k + 1) := by omega
      rw [daysOfMonths, daysOfMonths_succ year k (month + 1), daysOfMonths, hmonth, Nat.add_assoc]

theorem daysOfMonths_mono (year : Int) {month k k' : Nat} (h : k ≤ k') :
    daysOfMonths year month k ≤ daysOfMonths year month k' := by
  induction h with
  | refl => exact Nat.le_refl _
  | step _ ih =>
    rw [daysOfMonths_succ]
    omega

/-- The months of a year are the year. -/
theorem daysOfMonths_year (year : Int) : daysOfMonths year 1 12 = daysInYear year := by
  unfold daysInYear
  cases h : isLeap year with
  | false => simp [daysOfMonths, daysInMonth, h]
  | true => simp [daysOfMonths, daysInMonth, h]

/-- The month and the day of it, so many days behind the first of a month. -/
def splitMonth (year : Int) : (fuel month n : Nat) → Nat × Nat
  | 0, month, n => (month, n + 1)
  | fuel + 1, month, n =>
      if n < daysInMonth year month then (month, n + 1)
      else splitMonth year fuel (month + 1) (n - daysInMonth year month)

theorem splitMonth_eq (year : Int) {d : Nat} : ∀ {fuel month k : Nat}, k ≤ fuel →
    d < daysInMonth year (month + k) →
    splitMonth year fuel month (daysOfMonths year month k + d) = (month + k, d + 1)
  | 0, month, k, hk, _ => by
      obtain rfl : k = 0 := by omega
      simp [splitMonth, daysOfMonths]
  | fuel + 1, month, 0, _, hd => by
      have hd' : d < daysInMonth year month := hd
      simp [splitMonth, daysOfMonths, hd']
  | fuel + 1, month, k + 1, hk, hd => by
      have hmonth : month + 1 + k = month + (k + 1) := by omega
      rw [splitMonth, daysOfMonths, if_neg (by omega), Nat.add_assoc, Nat.add_sub_cancel_left,
        splitMonth_eq year (by omega) (hmonth ▸ hd), hmonth]

/-- Every day of a year is in one of its months. -/
theorem exists_month (year : Int) : ∀ {fuel month n : Nat},
    n < daysOfMonths year month (fuel + 1) →
    ∃ k d, k ≤ fuel ∧ d < daysInMonth year (month + k) ∧ n = daysOfMonths year month k + d
  | 0, month, n, h => ⟨0, n, Nat.le_refl 0, h, (Nat.zero_add n).symm⟩
  | fuel + 1, month, n, h => by
      by_cases hn : n < daysInMonth year month
      · exact ⟨0, n, by omega, hn, (Nat.zero_add n).symm⟩
      · rw [daysOfMonths] at h
        have hrest : n - daysInMonth year month < daysOfMonths year (month + 1) (fuel + 1) := by
          omega
        obtain ⟨k, d, hk, hd, heq⟩ := exists_month year hrest
        have hmonth : month + 1 + k = month + (k + 1) := by omega
        exact ⟨k + 1, d, by omega, hmonth ▸ hd, by rw [daysOfMonths]; omega⟩

/-! ## 3. Dates -/

/-- The days from 1970-01-01 to this day. -/
def dayNumber (year : Int) (month day : Nat) : Int :=
  daysBeforeYear year + daysOfMonths year 1 (month - 1) + day - 1 - 719162

/-- The year has such a day. -/
def IsDate (year : Int) (month day : Nat) : Prop :=
  1 ≤ month ∧ month ≤ 12 ∧ 1 ≤ day ∧ day ≤ daysInMonth year month

instance (year : Int) (month day : Nat) : Decidable (IsDate year month day) :=
  inferInstanceAs (Decidable (_ ∧ _))

/-- **A day of the calendar.** -/
structure Date where
  year : Int
  month : Nat
  day : Nat
  isDate : IsDate year month day
  deriving DecidableEq

namespace Date

/-- The days from 1970-01-01. -/
def toDays (d : Date) : Int := dayNumber d.year d.month d.day

/-- The year of a day, and which day of the year it is, counted from zero. -/
def splitYear (n : Int) : Int × Nat :=
  let year := yearOf (n + 719162)
  (year, (n + 719162 - daysBeforeYear year).toNat)

theorem splitYear_spec (n : Int) :
    n + 719162 = daysBeforeYear (splitYear n).1 + (splitYear n).2 ∧
      (splitYear n).2 < daysInYear (splitYear n).1 := by
  obtain ⟨hlow, hhigh⟩ := yearOf_spec (n + 719162)
  rw [daysBeforeYear_succ] at hhigh
  unfold splitYear
  simp only
  omega

/-- The month and the day of a day. -/
def splitDay (n : Int) : Nat × Nat := splitMonth (splitYear n).1 11 1 (splitYear n).2

theorem splitDay_spec (n : Int) :
    IsDate (splitYear n).1 (splitDay n).1 (splitDay n).2 ∧
      dayNumber (splitYear n).1 (splitDay n).1 (splitDay n).2 = n := by
  obtain ⟨hn, hlt⟩ := splitYear_spec n
  rw [← daysOfMonths_year] at hlt
  obtain ⟨k, d, hk, hd, heq⟩ := exists_month (splitYear n).1 hlt
  have hsplit : splitDay n = (1 + k, d + 1) := by
    rw [splitDay, heq, splitMonth_eq _ hk hd]
  rw [hsplit]
  refine ⟨⟨by omega, by omega, by omega, hd⟩, ?_⟩
  unfold dayNumber
  rw [Nat.add_sub_cancel_left]
  omega

/-- The date of a day. -/
def ofDays (n : Int) : Date := ⟨(splitYear n).1, (splitDay n).1, (splitDay n).2, (splitDay_spec n).1⟩

theorem toDays_ofDays (n : Int) : (ofDays n).toDays = n := (splitDay_spec n).2

/-- Every date is within its year. -/
theorem daysOfMonths_lt (d : Date) :
    daysOfMonths d.year 1 (d.month - 1) + d.day - 1 < daysInYear d.year := by
  obtain ⟨hm, hm', hd, hd'⟩ := d.isDate
  have hmonth := daysOfMonths_succ d.year (d.month - 1) 1
  have hyear := @daysOfMonths_mono d.year 1 _ _ hm'
  rw [show 1 + (d.month - 1) = d.month by omega, show d.month - 1 + 1 = d.month by omega] at hmonth
  rw [← daysOfMonths_year]
  omega

theorem ofDays_toDays (d : Date) : ofDays d.toDays = d := by
  obtain ⟨hm, hm', hd, hd'⟩ := d.isDate
  have hlt := daysOfMonths_lt d
  obtain ⟨hn, hn'⟩ := splitYear_spec d.toDays
  have hday : d.toDays + 719162 =
      daysBeforeYear d.year + (daysOfMonths d.year 1 (d.month - 1) + d.day - 1 : Nat) := by
    unfold toDays dayNumber
    omega
  have hyear : (splitYear d.toDays).1 = d.year := by
    refine @year_unique (d.toDays + 719162) _ _ ?_ ?_
    · rw [daysBeforeYear_succ]
      omega
    · rw [daysBeforeYear_succ]
      omega
  rw [hyear] at hn
  have hdoy : (splitYear d.toDays).2 = daysOfMonths d.year 1 (d.month - 1) + (d.day - 1) := by omega
  have hsplit : splitDay d.toDays = (d.month, d.day) := by
    have hmonth : 1 + (d.month - 1) = d.month := by omega
    rw [splitDay, hyear, hdoy, splitMonth_eq d.year (by omega) (by rw [hmonth]; omega), hmonth,
      Nat.sub_add_cancel hd]
  obtain ⟨year, month, day, hdate⟩ := d
  unfold ofDays
  simp only [mk.injEq]
  exact ⟨hyear, congrArg Prod.fst hsplit, congrArg Prod.snd hsplit⟩

theorem toDays_injective {d d' : Date} (h : d.toDays = d'.toDays) : d = d' := by
  rw [← ofDays_toDays d, h, ofDays_toDays]

-- the ends of the range the types of the calendar have, and the days around the missing 29th
example : [dayNumber 1970 1 1, dayNumber 2000 1 1, dayNumber (-32767) 1 1, dayNumber 32767 12 31] =
    [0, 10957, -12687428, 11248737] := by decide
example : dayNumber 1900 3 1 - dayNumber 1900 2 28 = 1 := by decide

end Date

end Calendar
