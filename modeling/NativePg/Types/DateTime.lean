/-
  File:      NativePg/Types/DateTime.lean
  Subject:   The decoders of dates and times (include/nativepg/types/datetime.hpp), translated.

  * `YearMonthDay` -- `std::chrono::year_month_day`, which keeps the low bits of its fields only;
  * `parseTimePrefix`, `parseTzSuffix` -- the scanners of `detail`. A position in a text is the
    text from there on;
  * `parseTextDate` .. `parseBinaryTimestamptz` -- the decoders, with the types they have by
    default. A date is days, everything else microseconds, from 1970-01-01 or from midnight.

  Signed arithmetic that could overflow is `checked`.
-/
import NativePg.Lib.Calendar
import NativePg.Types.Scan

namespace NativePg

namespace Types

open Decimal (isDigit)

/-! ## 1. Calendar types -/

/-- The type `std::chrono::days` counts in; it is up to the standard library. -/
inductive DaysRep where
  | int32
  | int64
  deriving DecidableEq, Repr

/-- How many bytes it has. -/
def DaysRep.width : DaysRep → Nat
  | .int32 => 4
  | .int64 => 8

/-- The greatest integer of a signed type of so many bytes. -/
def maxOf (width : Nat) : Int := 256 ^ width / 2 - 1

/-- The least one. -/
def minOf (width : Nat) : Int := -(256 ^ width / 2)

/-- `std::chrono::year_month_day`. -/
structure YearMonthDay where
  year : Int
  month : Nat
  day : Nat
  deriving DecidableEq, Repr

namespace YearMonthDay

/-- `year{year}`, `month{static_cast<unsigned>(month)}`, `day{static_cast<unsigned>(day)}`: the low
    16 bits, signed, and the low 8 bits. -/
def ofInts (year month day : Int) : YearMonthDay :=
  ⟨(year + 32768) % 65536 - 32768, (month % 256).toNat, (day % 256).toNat⟩

/-- `ok()`. -/
def ok (ymd : YearMonthDay) : Bool :=
  ymd.year != -32768 && decide (Calendar.IsDate ymd.year ymd.month ymd.day)

/-- `std::chrono::sys_days{ymd}`. -/
def sysDays (ymd : YearMonthDay) : Int := Calendar.dayNumber ymd.year ymd.month ymd.day

end YearMonthDay

/-- `pg_epoch`. -/
def pgEpoch : Int := YearMonthDay.sysDays ⟨2000, 1, 1⟩

theorem pgEpoch_eq : pgEpoch = 10957 := by decide

/-! ## 2. Scanners -/

/-- `parse_infinity`, for a type with these limits. -/
def parseInfinity (max min : Int) (sv : Bytes) : Option Int :=
  let sv := trim sv
  if iequals sv (ascii "infinity") then some max
  else if iequals sv (ascii "-infinity") then some min
  else none

/-- `parse_date_parts`. -/
def parseDateParts (sv : Bytes) : Parsed (Int × Int × Int) := do
  let sv := trim sv
  if sv = [] then protocolValueError
  else
    let (year, pos) ← fromCharsInt sv
    let pos ← expect 45 pos
    let (month, pos) ← fromCharsInt pos
    let pos ← expect 45 pos
    let (day, pos) ← fromCharsInt pos
    if pos ≠ [] then protocolValueError else .ok (year, month, day)

/-- `for (int i = 0; i < k; ++i) fraction /= 10`. -/
def divideByTen : (k : Nat) → (fraction : Int) → Int
  | 0, fraction => fraction
  | k + 1, fraction => divideByTen k (fraction.tdiv 10)

/-- `for (int i = 0; i < k; ++i) fraction *= 10`. -/
def multiplyByTen : (k : Nat) → (fraction : Int) → Parsed Int
  | 0, fraction => .ok fraction
  | k + 1, fraction => do
      let fraction ← checked 4 (fraction * 10)
      multiplyByTen k fraction

/-- `int n = p - start`. -/
def intOfLength (length : Nat) : Int := ((length : Int) + 2 ^ 31) % 2 ^ 32 - 2 ^ 31

/-- The microseconds of a fraction with so many digits. -/
def scaleFraction (fraction : Int) (length : Nat) : Parsed Int :=
  let n := intOfLength length
  if n > 6 then .ok (divideByTen (n - 6).toNat fraction)
  else do
    let k ← checked 4 (6 - n)
    multiplyByTen k.toNat fraction

/-- `if (p < last && *p == '.')`: the microseconds, and the position behind them. -/
def parseFraction (p : Bytes) : Parsed (Int × Bytes) :=
  match p with
  | [] => .ok (0, [])
  | c :: start =>
      if c ≠ 46 then .ok (0, c :: start)
      else
        let digits := start.takeWhile isDigit
        if digits = [] then protocolValueError
        else do
          let (fraction, _) ← fromCharsInt digits
          let us ← scaleFraction fraction digits.length
          .ok (us, start.dropWhile isDigit)

/-- `parse_time_prefix`: the time, and the position behind it. The sum is of a time of day, and far
    below the limits of its type. -/
def parseTimePrefix (p : Bytes) : Parsed (Int × Bytes) := do
  let (hours, p) ← fromCharsInt p
  let p ← expect 58 p
  let (minutes, p) ← fromCharsInt p
  let p ← expect 58 p
  let (seconds, p) ← fromCharsInt p
  let (us, p) ← parseFraction p
  if hours < 0 ∨ minutes < 0 ∨ seconds < 0 then protocolValueError
  else if minutes > 59 ∨ seconds > 59 then protocolValueError
  else if hours > 24 then protocolValueError
  else if hours = 24 ∧ (minutes ≠ 0 ∨ seconds ≠ 0 ∨ us ≠ 0) then protocolValueError
  else .ok (3600000000 * hours + 60000000 * minutes + 1000000 * seconds + us, p)

/-- `while (p < last && std::isdigit(*p) && digits < 2)`: the hours, how many digits they have, and
    the position behind them. -/
def tzHours (hours digits : Nat) : Bytes → Nat × Nat × Bytes
  | [] => (hours, digits, [])
  | c :: p =>
      if isDigit c ∧ digits < 2 then tzHours (hours * 10 + (c.toNat - 48)) (digits + 1) p
      else (hours, digits, c :: p)

/-- The two digits of the minutes, and the position behind them. -/
def tzMinutes (p : Bytes) : Parsed (Nat × Bytes) :=
  match p with
  | c :: c' :: rest =>
      if !isDigit c || !isDigit c' then protocolValueError
      else .ok ((c.toNat - 48) * 10 + (c'.toNat - 48), rest)
  | _ => protocolValueError

/-- `parse_tz_suffix`: the offset in seconds. -/
def parseTzSuffix (sv : Bytes) : Parsed Int :=
  let sv := trim sv
  if sv = [] then .ok 0
  else if iequals sv (ascii "Z") || iequals sv (ascii "UTC") || iequals sv (ascii "UT") ||
      iequals sv (ascii "GMT") then .ok 0
  else
    match sv with
    | [] => .error .outOfRange
    | c :: p =>
        if c ≠ 43 ∧ c ≠ 45 then protocolValueError
        else do
          let sign : Int := if c = 43 then 1 else -1
          let (hours, digits, p) := tzHours 0 0 p
          if digits = 0 then protocolValueError
          else
            let (minutes, p) ← match p with
              | [] => .ok (0, [])
              | c :: rest =>
                  if c = 58 then tzMinutes rest
                  else if isDigit c then
                    -- HHMM format
                    if (c :: rest).length ≠ 2 then protocolValueError else tzMinutes (c :: rest)
                  else protocolValueError
            if p ≠ [] then protocolValueError
            else if hours > 15 ∨ minutes > 59 then protocolValueError
            else .ok ((3600 * hours + 60 * minutes) * sign)

/-! ## 3. Dates -/

/-- What is the same in `parse_text_date`, `parse_text_timestamp` and `parse_text_timestamptz`: from
    `parse_date_parts` to the test of `ymd`. -/
def parseYmd (bc : Bool) (sv : Bytes) : Parsed YearMonthDay := do
  let (year, month, day) ← parseDateParts sv
  let year ← if bc then checked 4 (1 - year) else .ok year
  let ymd := YearMonthDay.ofInts year month day
  if !ymd.ok then protocolValueError else .ok ymd

/-- `parse_text_date`. -/
def parseTextDate (rep : DaysRep) (from_ : Bytes) : Parsed Int :=
  match parseInfinity (maxOf rep.width) (minOf rep.width) from_ with
  | some t => .ok t
  | none => do
      let (bc, sv) := consumeBc from_
      let ymd ← parseYmd bc sv
      .ok ymd.sysDays

/-- `parse_binary_date`. -/
def parseBinaryDate (rep : DaysRep) (from_ : Bytes) : Parsed Int :=
  if from_.length ≠ 4 then protocolValueError
  else checked rep.width (pgEpoch + BigEndian.toInt from_)

/-! ## 4. Times of day -/

/-- `parse_text_time`. -/
def parseTextTime (from_ : Bytes) : Parsed Int :=
  if from_ = [] then protocolValueError
  else do
    let (out, pos) ← parseTimePrefix (trim from_)
    if (trim pos).length ≠ 0 then protocolValueError else .ok out

/-- `parse_binary_time`. -/
def parseBinaryTime (from_ : Bytes) : Parsed Int :=
  if from_.length ≠ 8 then protocolValueError else .ok (BigEndian.toInt from_)

/-- `pg_timetz`, in microseconds and seconds. -/
structure PgTimetz where
  timeSinceMidnight : Int
  utcOffset : Int
  deriving DecidableEq, Repr

/-- `parse_text_timetz`. -/
def parseTextTimetz (from_ : Bytes) : Parsed PgTimetz := do
  let (timeOfDay, pos) ← parseTimePrefix (trim from_)
  let offset ← parseTzSuffix pos
  .ok ⟨timeOfDay, offset⟩

/-- `parse_binary_timetz`. -/
def parseBinaryTimetz (from_ : Bytes) : Parsed PgTimetz :=
  if from_.length ≠ 12 then protocolValueError
  else do
    let timeUs := BigEndian.toInt (from_.take 8)
    let offsetWestS := BigEndian.toInt (from_.drop 8)
    -- seconds WEST of UTC
    let offset ← checked 4 (-offsetWestS)
    .ok ⟨timeUs, offset⟩

/-! ## 5. Timestamps -/

/-- A character that does not end the date of a timestamp: `sv.find_first_of(" T")`. -/
def beforeSep (c : UInt8) : Bool := c != 32 && c != 84

/-- What is the same in `parse_text_timestamp` and `parse_text_timestamptz`: the day, the time of
    day, and the position behind it. -/
def parseDayAndTime (from_ : Bytes) : Parsed (YearMonthDay × Int × Bytes) := do
  let (bc, sv) := consumeBc from_
  let sv := trim sv
  match sv.dropWhile beforeSep with
  | [] => protocolValueError
  | _ :: timeSv => do
      let ymd ← parseYmd bc (sv.takeWhile beforeSep)
      let (tod, pos) ← parseTimePrefix (trim timeSv)
      .ok (ymd, tod, pos)

/-- `parse_text_timestamp`. -/
def parseTextTimestamp (from_ : Bytes) : Parsed Int :=
  match parseInfinity (maxOf 8) (minOf 8) from_ with
  | some t => .ok t
  | none => do
      let (ymd, tod, pos) ← parseDayAndTime from_
      if (trim pos).length ≠ 0 then protocolValueError
      else
        let days ← checked 8 (86400000000 * ymd.sysDays)
        checked 8 (days + tod)

/-- `parse_text_timestamptz`. -/
def parseTextTimestamptz (from_ : Bytes) : Parsed Int :=
  match parseInfinity (maxOf 8) (minOf 8) from_ with
  | some t => .ok t
  | none => do
      let (ymd, tod, pos) ← parseDayAndTime from_
      let offset ← parseTzSuffix pos
      let days ← checked 8 (86400000000 * ymd.sysDays)
      let local_ ← checked 8 (days + tod)
      checked 8 (local_ - 1000000 * offset)

/-- `parse_binary_timestamp`. -/
def parseBinaryTimestamp (from_ : Bytes) : Parsed Int :=
  if from_.length ≠ 8 then protocolValueError
  else checked 8 (86400000000 * pgEpoch + BigEndian.toInt from_)

/-- `parse_binary_timestamptz`. -/
def parseBinaryTimestamptz (from_ : Bytes) : Parsed Int :=
  if from_.length ≠ 8 then protocolValueError
  else checked 8 (86400000000 * pgEpoch + BigEndian.toInt from_)

end Types

end NativePg
