/-
  File:      NativePg/Types/Interval.lean
  Subject:   `parse_text_interval` and `parse_binary_interval`
             (include/nativepg/types/datetime.hpp), translated.

  * `intervalTurn`, `intervalLoop` -- one turn of the loop of `parse_text_interval`, and the loop.
    The position in the text is the text from there on, reads outside of it are `outOfRange`, and
    signed arithmetic is `checked`.
-/
import NativePg.Types.DateTime

namespace NativePg

namespace Types

/-! ## 1. Turns -/

/-- `pg_interval`; the time in microseconds. -/
structure PgInterval where
  months : Int
  days : Int
  time : Int
  deriving DecidableEq, Repr

/-- `to = {}`. -/
def PgInterval.zero : PgInterval := ⟨0, 0, 0⟩

/-- `std::isalpha`. -/
def isalpha (c : UInt8) : Bool := (65 ≤ c && c ≤ 90) || (97 ≤ c && c ≤ 122)

/-- `skip_ws`. -/
def skipWs (rest : Bytes) : Bytes := rest.dropWhile isspace

/-- A character that does not end a part: `sv.find_first_of(" \t\n\r", pos)`. -/
def inPart (c : UInt8) : Bool := c != 32 && c != 9 && c != 10 && c != 13

/-- `if (sv[pos] == '-') ... else if (sv[pos] == '+') ...`: is there a sign? -/
def hasSign (c : UInt8) : Bool := c == 45 || c == 43

/-- The sign that is there, or plus. -/
def signOf (c : UInt8) : Int := if c = 45 then -1 else 1

/-- The position behind the sign. -/
def skipSign (c : UInt8) (p : Bytes) : Bytes := if hasSign c then p else c :: p

/-- `parse_int`. Where it returns false, its caller returns `protocol_value_error`. -/
def parseInt (rest : Bytes) : Parsed (Int × Bytes) :=
  match skipWs rest with
  | [] => protocolValueError
  | c :: p =>
      match fromCharsInt (skipSign c p) with
      | .error _ => protocolValueError
      | .ok (val, rest) => do
          let val ← checked 4 (val * signOf c)
          .ok (val, rest)

/-- The units that are compared with. -/
inductive IntervalUnit where
  | year
  | mon
  | day
  | hour
  | minute
  | second
  deriving DecidableEq, Repr

/-- The chain of comparisons. -/
def unitOf (unit : Bytes) : Option IntervalUnit :=
  if unit = ascii "year" ∨ unit = ascii "years" then some .year
  else if unit = ascii "mon" ∨ unit = ascii "mons" then some .mon
  else if unit = ascii "day" ∨ unit = ascii "days" then some .day
  else if unit = ascii "hour" ∨ unit = ascii "hours" then some .hour
  else if unit = ascii "minute" ∨ unit = ascii "minutes" then some .minute
  else if unit = ascii "second" ∨ unit = ascii "seconds" then some .second
  else none

/-- `to.months += val`. -/
def PgInterval.addMonths (to_ : PgInterval) (val : Int) : Parsed PgInterval := do
  let months ← checked 4 (to_.months + val)
  .ok { to_ with months }

/-- `to.days += val`. -/
def PgInterval.addDays (to_ : PgInterval) (val : Int) : Parsed PgInterval := do
  let days ← checked 4 (to_.days + val)
  .ok { to_ with days }

/-- `to.time += val`. -/
def PgInterval.addTime (to_ : PgInterval) (val : Int) : Parsed PgInterval := do
  let time ← checked 8 (to_.time + val)
  .ok { to_ with time }

/-- What a unit does with its value. A duration is first converted to microseconds. -/
def PgInterval.addUnit (to_ : PgInterval) (unit : IntervalUnit) (val : Int) : Parsed PgInterval :=
  match unit with
  | .year => do
      let val ← checked 4 (val * 12)
      to_.addMonths val
  | .mon => to_.addMonths val
  | .day => to_.addDays val
  | .hour => do
      let val ← checked 8 (3600000000 * val)
      to_.addTime val
  | .minute => do
      let val ← checked 8 (60000000 * val)
      to_.addTime val
  | .second => do
      let val ← checked 8 (1000000 * val)
      to_.addTime val

/-- "value unit". -/
def countTurn (to_ : PgInterval) (rest : Bytes) : Parsed (PgInterval × Bytes) := do
  let (val, rest) ← parseInt rest
  let rest := skipWs rest
  match unitOf (rest.takeWhile isalpha) with
  | none => protocolValueError
  | some unit => do
      let to_ ← to_.addUnit unit val
      .ok (to_, rest.dropWhile isalpha)

/-- `std::span{sv.data() + pos, n}`. -/
def spanAt (rest : Bytes) (n : Nat) : Parsed Bytes :=
  if rest.length < n then .error .outOfRange else .ok (rest.take n)

/-- The time part HH:MM:SS, which may have a sign. -/
def clockTurn (to_ : PgInterval) (rest part : Bytes) : Parsed (PgInterval × Bytes) :=
  match rest with
  | [] => .error .outOfRange
  | c :: p => do
      let signOffset := if hasSign c then 1 else 0
      let span ← spanAt (skipSign c p) (part.length - signOffset)
      let timePart ← parseTextTime span
      let timePart ← checked 8 (timePart * signOf c)
      let to_ ← to_.addTime timePart
      .ok (to_, (skipSign c p).drop (part.length - signOffset))

/-- **One turn of the loop.** What has been added before an error stays in `to`. -/
def intervalTurn (to_ : PgInterval) (rest : Bytes) : PgInterval × Parsed Bytes :=
  match skipWs rest with
  -- `break`
  | [] => (to_, .ok [])
  | c :: p =>
      let part := (c :: p).takeWhile inPart
      let turn := if (58 : UInt8) ∈ part then clockTurn to_ (c :: p) part else countTurn to_ (c :: p)
      match turn with
      | .error halt => (to_, .error halt)
      | .ok (to_, rest) => (to_, .ok (skipWs rest))

/-! ## 2. The loop -/

/-- `while (pos < sv.size())`: what is in `to` at the end, and how it ended; `none` if it takes more
    than `fuel` turns. -/
def intervalLoop : (fuel : Nat) → (to_ : PgInterval) → (rest : Bytes) →
    Option (PgInterval × Parsed Unit)
  | _, to_, [] => some (to_, .ok ())
  | 0, _, _ :: _ => none
  | fuel + 1, to_, c :: p =>
      match intervalTurn to_ (c :: p) with
      | (to_, .error halt) => some (to_, .error halt)
      | (to_, .ok rest) => intervalLoop fuel to_ rest

/-- `parse_text_interval`. -/
def parseTextInterval (from_ : Bytes) : Option (PgInterval × Parsed Unit) :=
  if from_ = [] then some (.zero, protocolValueError) else intervalLoop from_.length .zero from_

/-- `parse_binary_interval`. -/
def parseBinaryInterval (from_ : Bytes) : Parsed PgInterval :=
  if from_.length ≠ 16 then protocolValueError
  else
    .ok ⟨BigEndian.toInt ((from_.drop 12).take 4), BigEndian.toInt ((from_.drop 8).take 4),
      BigEndian.toInt (from_.take 8)⟩

end Types

end NativePg
