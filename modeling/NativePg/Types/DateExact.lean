/-
  File:      NativePg/Types/DateExact.lean
  Subject:   Which texts of dates and timestamps are decoded exactly.

  * `DenotedDay`, `DenotedInstant` -- what a text stands for;
  * `Kept` -- the low bits of a year, a month and a day are a day of the calendar only where they
    are all of them;
  * **`date_texts_exactly`** -- a text is decoded exactly or rejected if and only if its fields are
    kept, the year before Christ has a counterpart, and the fraction of the seconds is scaled as it
    should be. Of these the fields are what can fail for texts of a realistic length:
    `YearMonthDay` takes the year 67536 for the year 2000, and the month 257 for the first one.
-/
import NativePg.Types.Stamps

namespace NativePg

namespace Types

open BigEndian (Fits)
open Calendar (Date)
open Decimal (AllDigits value)

/-! ## 1. Fields -/

/-- The fields are a day of the calendar. -/
def DenotesDate (date : Date) (bc : Bool) (year month day : Int) : Prop :=
  date.year = astronomical bc year ∧ (date.month : Int) = month ∧ (date.day : Int) = day

/-- **The low bits of the fields are a day only where they are all of the fields.** -/
def Kept (year month day : Int) : Prop :=
  (YearMonthDay.ofInts year month day).ok = true →
    (YearMonthDay.ofInts year month day).year = year ∧
      ((YearMonthDay.ofInts year month day).month : Int) = month ∧
      ((YearMonthDay.ofInts year month day).day : Int) = day

section
variable {ymd : YearMonthDay} {year month day : Int}

theorem YearMonthDay.ok_iff :
    ymd.ok = true ↔ ymd.year ≠ -32768 ∧ Calendar.IsDate ymd.year ymd.month ymd.day := by
  simp [YearMonthDay.ok]

/-- What is `ok` is a date. -/
theorem exists_date (h : ymd.ok = true) : ∃ date : Date, date.year = ymd.year ∧
    date.month = ymd.month ∧ date.day = ymd.day ∧ date.toDays = ymd.sysDays :=
  ⟨⟨ymd.year, ymd.month, ymd.day, (YearMonthDay.ok_iff.mp h).2⟩, rfl, rfl, rfl, rfl⟩

/-- **The fields of a date are kept** where the year is one of `std::chrono::year`. -/
theorem ofInts_date (date : Date) (hlow : -32767 ≤ date.year) (hhigh : date.year ≤ 32767) :
    YearMonthDay.ofInts date.year date.month date.day = ⟨date.year, date.month, date.day⟩ ∧
      (YearMonthDay.ofInts date.year date.month date.day).ok = true := by
  obtain ⟨hm, hm', hd, hd'⟩ := date.isDate
  have hle := Calendar.daysInMonth_le date.year date.month
  have heq : YearMonthDay.ofInts date.year date.month date.day = ⟨date.year, date.month, date.day⟩ := by
    unfold YearMonthDay.ofInts
    rw [YearMonthDay.mk.injEq]
    omega
  refine ⟨heq, ?_⟩
  rw [heq, YearMonthDay.ok_iff]
  exact ⟨by simp only; omega, date.isDate⟩

theorem ofInts_year (year month day : Int) : -32768 ≤ (YearMonthDay.ofInts year month day).year ∧
    (YearMonthDay.ofInts year month day).year ≤ 32767 := by
  unfold YearMonthDay.ofInts
  simp only
  omega

end

/-- The days of a date are few. -/
theorem dayNumber_bounds {year : Int} {month day : Nat} (hlow : -32768 ≤ year) (hhigh : year ≤ 32768)
    (h : Calendar.IsDate year month day) :
    -12688000 ≤ Calendar.dayNumber year month day ∧ Calendar.dayNumber year month day ≤ 11250000 := by
  have hlt := Calendar.Date.daysOfMonths_lt ⟨year, month, day, h⟩
  have hyear : Calendar.daysInYear year ≤ 366 := by
    unfold Calendar.daysInYear
    split
    · decide
    · decide
  have hd := h.2.2.1
  simp only at hlt
  unfold Calendar.dayNumber Calendar.daysBeforeYear
  omega

/-! ## 2. What a text stands for -/

/-- The decoder fails, or gives what is denoted. -/
def Exactly {α : Type} (r : Parsed α) (denoted : α → Prop) : Prop :=
  Fails r ∨ ∃ v, r = .ok v ∧ denoted v

theorem not_exactly_overflow {α : Type} (denoted : α → Prop) :
    ¬Exactly (.error .overflow : Parsed α) denoted := by
  rintro (⟨ec, h⟩ | ⟨v, h, -⟩)
  · cases h
  · cases h

theorem exactly_ok_iff {α : Type} {v : α} {denoted : α → Prop} :
    Exactly (.ok v) denoted ↔ denoted v := by
  constructor
  · rintro (h | ⟨v', h, hv⟩)
    · exact absurd h (not_fails_ok v)
    · cases h
      exact hv
  · exact fun h => .inr ⟨v, rfl, h⟩

/-- **The day a text stands for.** -/
inductive DenotedDay (rep : DaysRep) (text : Bytes) : Int → Prop where
  | infinity (h : IsWord "infinity" text) : DenotedDay rep text (maxOf rep.width)
  | minusInfinity (h : IsWord "-infinity" text) : DenotedDay rep text (minOf rep.width)
  | day {bc : Bool} {core : Bytes} {year month day : Int} {date : Date} (hera : Era bc text core)
      (hparts : DateParts core year month day) (hdate : DenotesDate date bc year month day) :
      DenotedDay rep text date.toDays

/-- What may be behind the time of a timestamp without a zone. -/
def NoZone (rest : Bytes) (offset : Int) : Prop := trim rest = [] ∧ offset = 0

/-- What may be behind the time of a timestamp with a zone. -/
def Zone (rest : Bytes) (offset : Int) : Prop := ZoneText (trim rest) offset

/-- **The instant a text stands for**, where `behind` says what may follow the time; down to the
    microsecond, which is all that the decoders' results hold. A fraction of seven or more digits is
    read rounded down (`microseconds`). -/
inductive DenotedInstant (behind : Bytes → Int → Prop) (text : Bytes) : Int → Prop where
  | infinity (h : IsWord "infinity" text) : DenotedInstant behind text (maxOf 8)
  | minusInfinity (h : IsWord "-infinity" text) : DenotedInstant behind text (minOf 8)
  | instant {bc : Bool} {dateSv time ds rest : Bytes} {year month day hours minutes seconds : Int}
      {date : Date} {offset : Int} (hsplit : Splits text bc dateSv time)
      (hparts : DateParts (trim dateSv) year month day) (hdate : DenotesDate date bc year month day)
      (htime : TimeText time hours minutes seconds ds rest)
      (hday : InDay hours minutes seconds (microseconds ds)) (hbehind : behind rest offset) :
      DenotedInstant behind text
        (86400000000 * date.toDays + clock hours minutes seconds (microseconds ds) - 1000000 * offset)

/-! ## 3. Dates -/

/-- The fields of the date are kept. -/
def DateKept (text : Bytes) : Prop :=
  ∀ bc core year month day, Era bc text core → DateParts core year month day → Fits 4 year →
    Fits 4 month → Fits 4 day →
    (bc = true → -2147483646 ≤ year) ∧ Kept (astronomical bc year) month day

section
variable {text : Bytes} {bc : Bool} {year month day : Int}

theorem parseTextDate_eq (rep : DaysRep) (h : ¬IsWord "infinity" text) (h' : ¬IsWord "-infinity" text) :
    parseTextDate rep text =
      parseYmd (consumeBc text).1 (consumeBc text).2 >>= fun ymd => .ok ymd.sysDays := by
  unfold parseTextDate
  rw [parseInfinity_eq, if_neg h, if_neg h']

theorem parseYmd_fails {sv : Bytes} (h : Fails (parseDateParts sv)) : Fails (parseYmd bc sv) :=
  h.bind _

/-- Where the fields are kept, what is `ok` is the date they denote. -/
theorem Kept.denotesDate (h : Kept (astronomical bc year) month day)
    (hok : (YearMonthDay.ofInts (astronomical bc year) month day).ok = true) :
    ∃ date : Date, DenotesDate date bc year month day ∧
      date.toDays = (YearMonthDay.ofInts (astronomical bc year) month day).sysDays := by
  obtain ⟨date, hy, hm, hd, hdays⟩ := exists_date hok
  obtain ⟨hy', hm', hd'⟩ := h hok
  exact ⟨date, ⟨hy.trans hy', by rw [hm, hm'], by rw [hd, hd']⟩, hdays⟩

/-- And the other way round: the days of the date they denote are the days of the date that is
    `ok` only where the fields are kept. -/
theorem kept_of_denotesDate {date : Date} (h : DenotesDate date bc year month day)
    (hdays : date.toDays = (YearMonthDay.ofInts (astronomical bc year) month day).sysDays) :
    Kept (astronomical bc year) month day := by
  intro hok
  obtain ⟨date', hy, hm, hd, hdays'⟩ := exists_date hok
  cases Calendar.Date.toDays_injective (hdays.trans hdays'.symm)
  obtain ⟨hy', hm', hd'⟩ := h
  exact ⟨hy ▸ hy', hm ▸ hm', hd ▸ hd'⟩

theorem parseTextDate_exactly (rep : DaysRep) (text : Bytes) :
    Exactly (parseTextDate rep text) (DenotedDay rep text) ↔ DateKept text := by
  constructor
  · intro hex bc core year month day hera hparts hy hm hd
    obtain ⟨hinf, hminf⟩ := hparts.not_isWord hera
    have htrim := trim_eq_self hparts.solid
    have hymd := @parseYmd_eq bc core _ _ _ (htrim.symm ▸ hparts) hy hm hd
    rw [parseTextDate_eq rep hinf hminf, consumeBc_eq hera hparts.solid hparts.ne_nil, hymd] at hex
    by_cases hlow : bc = true ∧ year < -2147483646
    · rw [if_pos hlow] at hex
      exact absurd hex (not_exactly_overflow _)
    · rw [if_neg hlow] at hex
      refine ⟨fun hbc => Int.not_lt.mp fun h => hlow ⟨hbc, h⟩, fun hok => ?_⟩
      rw [if_pos hok, ok_bind, exactly_ok_iff] at hex
      generalize hv : (YearMonthDay.ofInts (astronomical bc year) month day).sysDays = v at hex
      cases hex with
      | infinity h => exact absurd h hinf
      | minusInfinity h => exact absurd h hminf
      | day hera' hparts' hdate =>
        have hbc := consumeBc_eq hera hparts.solid hparts.ne_nil
        rw [consumeBc_eq hera' hparts'.solid hparts'.ne_nil, Prod.mk.injEq] at hbc
        obtain ⟨rfl, rfl⟩ := hbc
        obtain ⟨rfl, rfl, rfl⟩ := hparts.unique hparts'
        exact kept_of_denotesDate hdate hv.symm hok
  · intro hkept
    by_cases hinf : IsWord "infinity" text
    · refine .inr ⟨_, ?_, .infinity hinf⟩
      unfold parseTextDate
      rw [parseInfinity_eq, if_pos hinf]
    by_cases hminf : IsWord "-infinity" text
    · refine .inr ⟨_, ?_, .minusInfinity hminf⟩
      unfold parseTextDate
      rw [parseInfinity_eq, if_neg hinf, if_pos hminf]
    rw [parseTextDate_eq rep hinf hminf]
    obtain ⟨hera, hsolid⟩ := era_consumeBc text
    rcases parseDateParts_cases (consumeBc text).2 with
      hfail | ⟨year, month, day, hparts, hy, hm, hd, -⟩
    · exact .inl ((parseYmd_fails hfail).bind _)
    have hcore := trim_eq_self hsolid ▸ hparts
    obtain ⟨hbc, hfields⟩ := hkept _ _ _ _ _ hera hcore hy hm hd
    rw [parseYmd_eq hparts hy hm hd, if_neg (by rintro ⟨hyes, hlow⟩; have := hbc hyes; omega)]
    by_cases hok : (YearMonthDay.ofInts (astronomical (consumeBc text).1 year) month day).ok = true
    · rw [if_pos hok, ok_bind, exactly_ok_iff]
      obtain ⟨date, hdate, hdays⟩ := hfields.denotesDate hok
      rw [← hdays]
      exact .day hera hcore hdate
    · rw [if_neg hok]
      exact .inl (fails_protocolValueError.bind _)

end

/-! ## 4. Timestamps -/

/-- The decoders of timestamps behind the infinities, where `behind` reads what follows the time. -/
def parseInstant (behind : Bytes → Parsed Int) (text : Bytes) : Parsed Int := do
  let (ymd, tod, pos) ← parseDayAndTime text
  let offset ← behind pos
  let days ← checked 8 (86400000000 * ymd.sysDays)
  let local_ ← checked 8 (days + tod)
  checked 8 (local_ - 1000000 * offset)

/-- White space only. -/
def parseNoZone (pos : Bytes) : Parsed Int :=
  if (trim pos).length ≠ 0 then protocolValueError else .ok 0

/-- **The scanner reads what `denoted` says, and fails on everything else.** -/
structure Reads (behind : Bytes → Parsed Int) (denoted : Bytes → Int → Prop) : Prop where
  eq : ∀ {rest offset}, denoted rest offset → behind rest = .ok offset
  cases : ∀ rest, Fails (behind rest) ∨ ∃ offset, denoted rest offset
  bounds : ∀ {rest offset}, denoted rest offset → -57600 < offset ∧ offset < 57600

theorem reads_noZone : Reads parseNoZone NoZone where
  eq := by
    rintro rest _ ⟨hnil, rfl⟩
    rw [parseNoZone, hnil]
    rfl
  cases rest := by
    by_cases hnil : trim rest = []
    · exact .inr ⟨0, hnil, rfl⟩
    · left
      rw [parseNoZone, if_pos (by simpa using hnil)]
      exact fails_protocolValueError
  bounds := by
    rintro rest _ ⟨-, rfl⟩
    decide

theorem reads_zone : Reads parseTzSuffix Zone where
  eq := parseTzSuffix_eq
  cases := parseTzSuffix_cases
  bounds := ZoneText.bounds

theorem parseTextTimestamp_eq {text : Bytes} (h : ¬IsWord "infinity" text)
    (h' : ¬IsWord "-infinity" text) : parseTextTimestamp text = parseInstant parseNoZone text := by
  have hsame : ∀ z, checked 8 z = checked 8 z >>= fun local_ => checked 8 (local_ - 1000000 * 0) := by
    intro z
    unfold checked
    split
    · rename_i hfits
      rw [ok_bind, Int.mul_zero, Int.sub_zero, if_pos hfits]
    · rfl
  unfold parseTextTimestamp parseInstant
  rw [parseInfinity_eq, if_neg h, if_neg h']
  simp only
  congr 1
  funext r
  unfold parseNoZone
  split
  · rfl
  · rw [ok_bind]
    congr 1
    funext days
    exact hsame _

theorem parseTextTimestamptz_eq {text : Bytes} (h : ¬IsWord "infinity" text)
    (h' : ¬IsWord "-infinity" text) : parseTextTimestamptz text = parseInstant parseTzSuffix text := by
  unfold parseTextTimestamptz
  rw [parseInfinity_eq, if_neg h, if_neg h']
  rfl

/-- The fields of the date are kept, and the fraction of the seconds is scaled as it should be. -/
def StampKept (behind : Bytes → Int → Prop) (text : Bytes) : Prop :=
  ∀ bc dateSv time year month day, Splits text bc dateSv time →
    DateParts (trim dateSv) year month day → Fits 4 year → Fits 4 month → Fits 4 day →
    (bc = true → -2147483646 ≤ year) ∧
    ((YearMonthDay.ofInts (astronomical bc year) month day).ok = true →
      ∀ hours minutes seconds ds rest, TimeText time hours minutes seconds ds rest →
        Fits 4 hours → Fits 4 minutes → Fits 4 seconds → value ds < 2 ^ 31 →
        Scales (value ds) ds.length ∧
        (InDay hours minutes seconds (scaled (value ds) ds.length) →
          ∀ offset, behind rest offset → Kept (astronomical bc year) month day ∧
            scaled (value ds) ds.length = microseconds ds))

section
variable {text dateSv time ds rest : Bytes} {bc : Bool} {year month day hours minutes seconds : Int}
  {behind : Bytes → Parsed Int} {denoted : Bytes → Int → Prop}

/-- The instants of the calendar's range fit their type. -/
theorem parseInstant_sum {ymd : YearMonthDay} {us offset : Int} (hlow : -32768 ≤ ymd.year)
    (hhigh : ymd.year ≤ 32767) (hok : ymd.ok = true) (hus : 0 ≤ us) (hus' : us < 2 ^ 31)
    (hday : InDay hours minutes seconds us) (hoff : -57600 < offset ∧ offset < 57600) :
    (do
      let days ← checked 8 (86400000000 * ymd.sysDays)
      let local_ ← checked 8 (days + clock hours minutes seconds us)
      checked 8 (local_ - 1000000 * offset)) =
      .ok (86400000000 * ymd.sysDays + clock hours minutes seconds us - 1000000 * offset) := by
  have hdays : -12688000 ≤ ymd.sysDays ∧ ymd.sysDays ≤ 11250000 :=
    dayNumber_bounds hlow (by omega) (YearMonthDay.ok_iff.mp hok).2
  have hclock : 0 ≤ clock hours minutes seconds us ∧
      clock hours minutes seconds us ≤ 86400000000 + 2 ^ 31 := by
    unfold InDay at hday
    unfold clock
    omega
  obtain ⟨hdays, hdays'⟩ := hdays
  obtain ⟨hclock, hclock'⟩ := hclock
  rw [checked_of_fits (BigEndian.fits_eight_iff.mpr (by omega)), ok_bind,
    checked_of_fits (BigEndian.fits_eight_iff.mpr (by omega)), ok_bind,
    checked_of_fits (BigEndian.fits_eight_iff.mpr (by omega))]

theorem parseInstant_eq (hb : Reads behind denoted) (hsplit : Splits text bc dateSv time)
    (hparts : DateParts (trim dateSv) year month day) (hy : Fits 4 year) (hm : Fits 4 month)
    (hd : Fits 4 day) (hbc : bc = true → -2147483646 ≤ year)
    (hok : (YearMonthDay.ofInts (astronomical bc year) month day).ok = true)
    (htime : TimeText time hours minutes seconds ds rest) (hh : Fits 4 hours) (hmin : Fits 4 minutes)
    (hs : Fits 4 seconds) (hv : value ds < 2 ^ 31) :
    parseInstant behind text =
      if Scales (value ds) ds.length then
        if InDay hours minutes seconds (scaled (value ds) ds.length) then
          behind rest >>= fun offset =>
            .ok (86400000000 * (YearMonthDay.ofInts (astronomical bc year) month day).sysDays +
              clock hours minutes seconds (scaled (value ds) ds.length) - 1000000 * offset)
        else protocolValueError
      else .error .overflow := by
  obtain ⟨hlow, hhigh⟩ := ofInts_year (astronomical bc year) month day
  unfold parseInstant
  rw [parseDayAndTime_eq hsplit, parseYmd_eq hparts hy hm hd,
    if_neg (by rintro ⟨hyes, hlow⟩; have := hbc hyes; omega), if_pos hok, ok_bind,
    parseTimePrefix_eq htime hh hmin hs hv]
  by_cases hscales : Scales (value ds) ds.length
  · rw [if_pos hscales, if_pos hscales]
    by_cases hday : InDay hours minutes seconds (scaled (value ds) ds.length)
    · rw [if_pos hday, if_pos hday]
      simp only [ok_bind]
      rcases hb.cases rest with ⟨ec, hfail⟩ | ⟨offset, hoff⟩
      · rw [hfail]
        rfl
      · rw [hb.eq hoff, ok_bind, ok_bind]
        have hlt := scaled_lt hscales hv
        exact parseInstant_sum hlow hhigh hok (by omega) (by omega) hday (hb.bounds hoff)
    · rw [if_neg hday, if_neg hday]
      rfl
  · rw [if_neg hscales, if_neg hscales]
    rfl

/-- What is decoded exactly is kept. -/
theorem stampKept_of_exactly (hb : Reads behind denoted) (hinf : ¬IsWord "infinity" text)
    (hminf : ¬IsWord "-infinity" text)
    (hex : Exactly (parseInstant behind text) (DenotedInstant denoted text)) :
    StampKept denoted text := by
  intro bc dateSv time year month day hsplit hparts hy hm hd
  by_cases hlow : bc = true ∧ year < -2147483646
  · unfold parseInstant at hex
    rw [parseDayAndTime_eq hsplit, parseYmd_eq hparts hy hm hd, if_pos hlow] at hex
    exact absurd hex (not_exactly_overflow _)
  have hbc : bc = true → -2147483646 ≤ year := fun h => Int.not_lt.mp fun h' => hlow ⟨h, h'⟩
  refine ⟨hbc, fun hok hours minutes seconds ds rest htime hh hmin hs hv => ?_⟩
  rw [parseInstant_eq hb hsplit hparts hy hm hd hbc hok htime hh hmin hs hv] at hex
  by_cases hscales : Scales (value ds) ds.length
  · refine ⟨hscales, fun hday offset hoff => ?_⟩
    have hlt := scaled_lt hscales hv
    rw [if_pos hscales, if_pos hday, hb.eq hoff, ok_bind, exactly_ok_iff] at hex
    generalize hvalue : 86400000000 * (YearMonthDay.ofInts (astronomical bc year) month day).sysDays +
      clock hours minutes seconds (scaled (value ds) ds.length) - 1000000 * offset = v at hex
    cases hex with
    | infinity h => exact absurd h hinf
    | minusInfinity h => exact absurd h hminf
    | instant hsplit' hparts' hdate htime' hday' hoff' =>
      -- the text has one reading, and the fraction is less than a day
      obtain ⟨rfl, rfl, rfl⟩ := hsplit.unique hsplit'
      obtain ⟨rfl, rfl, rfl⟩ := hparts.unique hparts'
      obtain ⟨rfl, rfl, rfl, rfl, rfl⟩ := htime.unique htime'
      have hoffset := (hb.eq hoff).symm.trans (hb.eq hoff')
      have hmicro := microseconds_lt htime.allDigits
      cases hoffset
      unfold clock at hvalue
      exact ⟨kept_of_denotesDate hdate (by omega), by omega⟩
  · rw [if_neg hscales] at hex
    exact absurd hex (not_exactly_overflow _)

/-- What is kept is decoded exactly. -/
theorem parseInstant_exactly (hb : Reads behind denoted) (hkept : StampKept denoted text) :
    Exactly (parseInstant behind text) (DenotedInstant denoted text) := by
  rcases parseDayAndTime_cases text with hfail | ⟨bc, dateSv, time, hsplit⟩
  · exact .inl (hfail.bind _)
  have hfails : ∀ {r : Parsed (YearMonthDay × Int × Bytes)}, Fails r →
      parseDayAndTime text = r → Exactly (parseInstant behind text) (DenotedInstant denoted text) := by
    rintro r hr heq
    unfold parseInstant
    rw [heq]
    exact .inl (hr.bind _)
  have heq := parseDayAndTime_eq hsplit
  rcases parseDateParts_cases dateSv with hfail | ⟨year, month, day, hparts, hy, hm, hd, -⟩
  · exact hfails ((parseYmd_fails hfail).bind _) heq
  obtain ⟨hbc, hfields⟩ := hkept _ _ _ _ _ _ hsplit hparts hy hm hd
  rw [parseYmd_eq hparts hy hm hd, if_neg (by rintro ⟨hyes, hlow⟩; have := hbc hyes; omega)] at heq
  by_cases hok : (YearMonthDay.ofInts (astronomical bc year) month day).ok = true
  · rw [if_pos hok, ok_bind] at heq
    rcases parseTimePrefix_cases time with
      hfail | ⟨hours, minutes, seconds, ds, rest, htime, hh, hmin, hs, hv⟩
    · exact hfails (hfail.bind _) heq
    obtain ⟨hscales, hexact⟩ := hfields hok _ _ _ _ _ htime hh hmin hs hv
    rw [parseInstant_eq hb hsplit hparts hy hm hd hbc hok htime hh hmin hs hv, if_pos hscales]
    by_cases hday : InDay hours minutes seconds (scaled (value ds) ds.length)
    · rw [if_pos hday]
      rcases hb.cases rest with hfail | ⟨offset, hoff⟩
      · exact .inl (hfail.bind _)
      obtain ⟨hkeep, hmicro⟩ := hexact hday offset hoff
      obtain ⟨date, hdate, hdays⟩ := hkeep.denotesDate hok
      rw [hb.eq hoff, ok_bind, exactly_ok_iff, ← hdays, hmicro]
      exact .instant hsplit hparts hdate htime (hmicro ▸ hday) hoff
    · rw [if_neg hday]
      exact .inl fails_protocolValueError
  · rw [if_neg hok] at heq
    exact hfails (fails_protocolValueError.bind _) heq

end

/-- No timestamp is an infinity, so what is asked of the timestamps is asked of nothing there. -/
theorem stampKept_of_isWord {denoted : Bytes → Int → Prop} {text : Bytes}
    (h : IsWord "infinity" text ∨ IsWord "-infinity" text) : StampKept denoted text := by
  intro bc dateSv time year month day hsplit hparts
  obtain ⟨hinf, hminf⟩ := hsplit.not_isWord hparts
  rcases h with h | h
  · exact absurd h hinf
  · exact absurd h hminf

/-- The infinities come first, in both decoders. -/
theorem stamp_exactly {behind : Bytes → Parsed Int} {denoted : Bytes → Int → Prop}
    {parse : Bytes → Parsed Int} (hb : Reads behind denoted) (text : Bytes)
    (hinf : IsWord "infinity" text → parse text = .ok (maxOf 8))
    (hminf : ¬IsWord "infinity" text → IsWord "-infinity" text → parse text = .ok (minOf 8))
    (hrest : ¬IsWord "infinity" text → ¬IsWord "-infinity" text →
      parse text = parseInstant behind text) :
    Exactly (parse text) (DenotedInstant denoted text) ↔ StampKept denoted text := by
  by_cases h : IsWord "infinity" text
  · exact ⟨fun _ => stampKept_of_isWord (.inl h), fun _ => .inr ⟨_, hinf h, .infinity h⟩⟩
  by_cases h' : IsWord "-infinity" text
  · exact ⟨fun _ => stampKept_of_isWord (.inr h'), fun _ => .inr ⟨_, hminf h h', .minusInfinity h'⟩⟩
  rw [hrest h h']
  exact ⟨stampKept_of_exactly hb h h', parseInstant_exactly hb⟩

theorem parseTextTimestamp_exactly (text : Bytes) :
    Exactly (parseTextTimestamp text) (DenotedInstant NoZone text) ↔ StampKept NoZone text := by
  refine stamp_exactly reads_noZone text (fun h => ?_) (fun h h' => ?_) parseTextTimestamp_eq
  · unfold parseTextTimestamp
    rw [parseInfinity_eq, if_pos h]
  · unfold parseTextTimestamp
    rw [parseInfinity_eq, if_neg h, if_pos h']

theorem parseTextTimestamptz_exactly (text : Bytes) :
    Exactly (parseTextTimestamptz text) (DenotedInstant Zone text) ↔ StampKept Zone text := by
  refine stamp_exactly reads_zone text (fun h => ?_) (fun h h' => ?_) parseTextTimestamptz_eq
  · unfold parseTextTimestamptz
    rw [parseInfinity_eq, if_pos h]
  · unfold parseTextTimestamptz
    rw [parseInfinity_eq, if_neg h, if_pos h']

/-! ## 5. The three decoders -/

/-- **A text is decoded exactly or rejected if and only if its fields are kept.** -/
theorem date_texts_exactly (rep : DaysRep) (text : Bytes) :
    (Exactly (parseTextDate rep text) (DenotedDay rep text) ↔ DateKept text) ∧
      (Exactly (parseTextTimestamp text) (DenotedInstant NoZone text) ↔ StampKept NoZone text) ∧
      (Exactly (parseTextTimestamptz text) (DenotedInstant Zone text) ↔ StampKept Zone text) :=
  ⟨parseTextDate_exactly rep text, parseTextTimestamp_exactly text, parseTextTimestamptz_exactly text⟩

/-- The first day of the year 67536 is decoded as the first day of the year 2000. -/
theorem date_text_is_another_day :
    ¬∀ (rep : DaysRep) (text : Bytes), Exactly (parseTextDate rep text) (DenotedDay rep text) ∧
      Exactly (parseTextTimestamp text) (DenotedInstant NoZone text) ∧
      Exactly (parseTextTimestamptz text) (DenotedInstant Zone text) := by
  intro h
  have hkept := (parseTextDate_exactly .int64 (ascii "67536-01-01")).mp (h .int64 _).1
  have hera : Era false (ascii "67536-01-01") (ascii "67536-01-01") := by
    have h := (era_consumeBc (ascii "67536-01-01")).1
    rwa [show consumeBc (ascii "67536-01-01") = (false, ascii "67536-01-01") by decide] at h
  have hparts : DateParts (ascii "67536-01-01") 67536 1 1 :=
    ⟨ascii "67536", ascii "01", ascii "01", rfl, .nonneg (by decide) (by decide),
      .nonneg (by decide) (by decide), .nonneg (by decide) (by decide)⟩
  have hyear := ((hkept _ _ _ _ _ hera hparts (by decide) (by decide) (by decide)).2 (by decide)).1
  exact absurd hyear (by decide)

end Types

end NativePg
