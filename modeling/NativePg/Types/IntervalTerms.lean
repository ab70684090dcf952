/-
  File:      NativePg/Types/IntervalTerms.lean
  Subject:   The texts of intervals as terms, and when adding the terms up is safe.

  * `Term`, `TermAt` -- a time of day or a number with a unit, and where a text begins with one.
    `intervalTurn_eq`, `intervalTurn_cases`: a turn of the loop adds the next term, or fails;
  * `Begins` -- a text begins with some terms; `Fitting` -- each of them, and their sums, fit;
  * **`interval_text_safe_exactly`** -- the loop ends and stays within its text, whatever the text
    is; it does not overflow if and only if all terms a text begins with are fitting.
-/
import NativePg.Types.Interval
import NativePg.Types.Texts

namespace NativePg

namespace Types

open BigEndian (Fits)
open Decimal (AllDigits Ends IsInteger value)
open Trimmed (All Solid)

/-! ## 1. Times of day without white space -/

section
variable {span ds behind : Bytes} {hours minutes seconds : Int}

theorem parseTextTime_eq (h : TimeText (trim span) hours minutes seconds ds behind)
    (hh : Fits 4 hours) (hm : Fits 4 minutes) (hs : Fits 4 seconds) (hv : value ds < 2 ^ 31) :
    parseTextTime span =
      if Scales (value ds) ds.length then
        if InDay hours minutes seconds (scaled (value ds) ds.length) ∧ trim behind = [] then
          .ok (clock hours minutes seconds (scaled (value ds) ds.length))
        else protocolValueError
      else .error .overflow := by
  have hne : span ≠ [] := by
    rintro rfl
    obtain ⟨hs, ms, ss, rest, heq, hint, -⟩ := h
    have hnil : hs ++ 58 :: (ms ++ 58 :: (ss ++ rest)) = [] := heq.symm
    simp at hnil
  unfold parseTextTime
  rw [if_neg hne, parseTimePrefix_eq h hh hm hs hv]
  by_cases hscales : Scales (value ds) ds.length
  · rw [if_pos hscales, if_pos hscales]
    by_cases hday : InDay hours minutes seconds (scaled (value ds) ds.length)
    · rw [if_pos hday, ok_bind]
      simp only
      by_cases hend : trim behind = []
      · rw [if_neg (by simp [hend]), if_pos ⟨hday, hend⟩]
      · rw [if_pos (by simpa using hend), if_neg fun h => hend h.2]
    · rw [if_neg hday, if_neg fun h => hday h.1]
      rfl
  · rw [if_neg hscales, if_neg hscales]
    rfl

theorem parseTextTime_cases (span : Bytes) :
    Fails (parseTextTime span) ∨ ∃ hours minutes seconds ds behind,
      TimeText (trim span) hours minutes seconds ds behind ∧ Fits 4 hours ∧ Fits 4 minutes ∧
        Fits 4 seconds ∧ value ds < 2 ^ 31 := by
  by_cases hne : span = []
  · left
    rw [parseTextTime, if_pos hne]
    exact fails_protocolValueError
  rcases parseTimePrefix_cases (trim span) with hfail | hread
  · left
    rw [parseTextTime, if_neg hne]
    exact hfail.bind _
  · exact .inr hread

end

/-! ## 2. Terms -/

/-- **What a text of an interval is made of.** -/
inductive Term where
  /-- A time of day, with its sign. -/
  | clock (time : Int)
  /-- A time of day with a fraction that cannot be scaled. -/
  | unscaled
  /-- A number, with its sign, and a unit, where the word behind it is one. -/
  | count (val : Int) (unit : Option IntervalUnit)

/-- **The text begins with the term**; `rest` is behind it. The part up to the next white space tells
    the two kinds apart. -/
inductive TermAt : Bytes → Term → Bytes → Prop where
  | clock {c : UInt8} {p span rest ds behind : Bytes} {hours minutes seconds : Int}
      (hcolon : (58 : UInt8) ∈ (c :: p).takeWhile inPart) (hrest : rest = (c :: p).dropWhile inPart)
      (hspan : skipSign c p = span ++ rest)
      (htime : TimeText (trim span) hours minutes seconds ds behind) (hh : Fits 4 hours)
      (hm : Fits 4 minutes) (hs : Fits 4 seconds) (hv : value ds < 2 ^ 31)
      (hscales : Scales (value ds) ds.length)
      (hday : InDay hours minutes seconds (scaled (value ds) ds.length)) (hend : trim behind = []) :
      TermAt (c :: p) (.clock (clock hours minutes seconds (scaled (value ds) ds.length) * signOf c)) rest
  | unscaled {c : UInt8} {p span rest ds behind : Bytes} {hours minutes seconds : Int}
      (hcolon : (58 : UInt8) ∈ (c :: p).takeWhile inPart) (hrest : rest = (c :: p).dropWhile inPart)
      (hspan : skipSign c p = span ++ rest)
      (htime : TimeText (trim span) hours minutes seconds ds behind) (hh : Fits 4 hours)
      (hm : Fits 4 minutes) (hs : Fits 4 seconds) (hv : value ds < 2 ^ 31)
      (hscales : ¬Scales (value ds) ds.length) : TermAt (c :: p) .unscaled rest
  | count {c : UInt8} {p ds gap word rest : Bytes} {val : Int}
      (hcolon : (58 : UInt8) ∉ (c :: p).takeWhile inPart)
      (hstart : skipSign c p = ds ++ (gap ++ (word ++ rest))) (hint : IsInteger ds val)
      (hfits : Fits 4 val) (hends : Ends (gap ++ (word ++ rest))) (hgap : All isspace gap)
      (hword : ∀ c ∈ (word ++ rest).head?, isspace c = false) (halpha : ∀ c ∈ word, isalpha c = true)
      (hrest : ∀ c ∈ rest.head?, isalpha c = false) :
      TermAt (c :: p) (.count (val * signOf c) (unitOf word)) rest

/-- **What a term adds.** -/
def PgInterval.addTerm (to_ : PgInterval) : Term → Parsed PgInterval
  | .clock time => to_.addTime time
  | .unscaled => .error .overflow
  | .count val unit => do
      let val ← checked 4 val
      match unit with
      | none => protocolValueError
      | some unit => to_.addUnit unit val

section
variable {to_ : PgInterval} {text rest : Bytes} {term : Term}

theorem length_skipSign (c : UInt8) (p : Bytes) :
    (skipSign c p).length + (if hasSign c then 1 else 0) = (c :: p).length := by
  unfold skipSign
  cases hasSign c with
  | false => rfl
  | true => rfl

theorem skipWs_head (rest : Bytes) : ∀ c ∈ (skipWs rest).head?, isspace c = false :=
  Trimmed.head_dropWhile rest

theorem skipWs_eq_self (h : ∀ c ∈ rest.head?, isspace c = false) : skipWs rest = rest :=
  Trimmed.dropWhile_eq_self h

theorem length_skipWs_le (rest : Bytes) : (skipWs rest).length ≤ rest.length :=
  (List.dropWhile_sublist _).length_le

theorem TermAt.shorter (h : TermAt text term rest) : rest.length < text.length := by
  cases h with
  | @clock c p _ _ _ _ _ _ _ hcolon hrest =>
    have hpos := List.length_pos_of_mem hcolon
    have hsplit := congrArg List.length (List.takeWhile_append_dropWhile (p := inPart) (l := c :: p))
    rw [List.length_append, ← hrest] at hsplit
    omega
  | @unscaled c p _ _ _ _ _ _ _ hcolon hrest =>
    have hpos := List.length_pos_of_mem hcolon
    have hsplit := congrArg List.length (List.takeWhile_append_dropWhile (p := inPart) (l := c :: p))
    rw [List.length_append, ← hrest] at hsplit
    omega
  | @count c p ds gap word _ _ _ hstart hint =>
    have hpos := List.length_pos_of_ne_nil hint.ne_nil
    have hlen := congrArg List.length hstart
    have hsign := length_skipSign c p
    simp only [List.length_append] at hlen
    omega

/-- The span of a time is what the sign leaves of its part. -/
theorem span_of_part {c : UInt8} {p span : Bytes} (hrest : rest = (c :: p).dropWhile inPart)
    (hspan : skipSign c p = span ++ rest) :
    ((c :: p).takeWhile inPart).length - (if hasSign c then 1 else 0) = span.length := by
  have hsplit := congrArg List.length (List.takeWhile_append_dropWhile (p := inPart) (l := c :: p))
  have hsign := length_skipSign c p
  rw [List.length_append, ← hrest] at hsplit
  rw [hspan, List.length_append] at hsign
  omega

theorem clockTurn_eq {c : UInt8} {p span : Bytes} (hrest : rest = (c :: p).dropWhile inPart)
    (hspan : skipSign c p = span ++ rest) :
    clockTurn to_ (c :: p) ((c :: p).takeWhile inPart) = (do
      let timePart ← parseTextTime span
      let timePart ← checked 8 (timePart * signOf c)
      let to_ ← to_.addTime timePart
      .ok (to_, rest)) := by
  have hfits : ¬(span ++ rest).length < span.length := by
    rw [List.length_append]
    omega
  unfold clockTurn spanAt
  simp only
  rw [span_of_part hrest hspan, hspan, if_neg hfits, List.take_left, List.drop_left]
  rfl

/-- A time of day with a sign is far below the limits of its type. -/
theorem fits_clock {c : UInt8} {hours minutes seconds us : Int} (h : InDay hours minutes seconds us)
    (hus : 0 ≤ us) (hus' : us < 2 ^ 31) : Fits 8 (clock hours minutes seconds us * signOf c) := by
  have hclock : 0 ≤ clock hours minutes seconds us ∧
      clock hours minutes seconds us ≤ 86400000000 + 2 ^ 31 := by
    unfold InDay at h
    unfold clock
    omega
  obtain ⟨hlow, hhigh⟩ := hclock
  unfold Fits signOf
  split
  · omega
  · omega

theorem countTurn_eq {c : UInt8} {p ds gap word : Bytes} {val : Int} (hc : isspace c = false)
    (hstart : skipSign c p = ds ++ (gap ++ (word ++ rest))) (hint : IsInteger ds val)
    (hfits : Fits 4 val) (hends : Ends (gap ++ (word ++ rest))) (hgap : All isspace gap)
    (hword : ∀ c ∈ (word ++ rest).head?, isspace c = false) (halpha : ∀ c ∈ word, isalpha c = true)
    (hrest : ∀ c ∈ rest.head?, isalpha c = false) :
    countTurn to_ (c :: p) =
      to_.addTerm (.count (val * signOf c) (unitOf word)) >>= fun to_ => .ok (to_, rest) := by
  have hws : skipWs (c :: p) = c :: p := skipWs_eq_self (by simpa using hc)
  have hws' : skipWs (gap ++ (word ++ rest)) = word ++ rest := by
    rw [skipWs, List.dropWhile_append_of_pos hgap, Trimmed.dropWhile_eq_self hword]
  have hdrop : (word ++ rest).dropWhile isalpha = rest := by
    rw [List.dropWhile_append_of_pos halpha, Trimmed.dropWhile_eq_self hrest]
  have htake : (word ++ rest).takeWhile isalpha = word := by
    have hsplit := List.takeWhile_append_dropWhile (p := isalpha) (l := word ++ rest)
    rw [hdrop] at hsplit
    exact List.append_cancel_right hsplit
  unfold countTurn parseInt PgInterval.addTerm
  rw [hws]
  simp only
  rw [hstart, fromCharsInt_of_fits hint hends hfits]
  simp only
  unfold checked
  split
  · simp only [ok_bind, hws', htake, hdrop]
    cases unitOf word with
    | none => rfl
    | some unit => rfl
  · rfl

/-- **A turn adds the term the text begins with.** -/
theorem intervalTurn_eq (h : TermAt (skipWs text) term rest) :
    intervalTurn to_ text =
      match to_.addTerm term with
      | .error halt => (to_, .error halt)
      | .ok to_' => (to_', .ok (skipWs rest)) := by
  have hhead := skipWs_head text
  unfold intervalTurn
  generalize hskip : skipWs text = s at h hhead
  cases h with
  | @clock c p span _ ds behind hours minutes seconds hcolon hrest hspan htime hh hm hs hv hscales
      hday hend =>
    have hlt : scaled (value ds) ds.length < 2 ^ 31 := scaled_lt hscales hv
    simp only
    rw [if_pos hcolon, clockTurn_eq hrest hspan, parseTextTime_eq htime hh hm hs hv, if_pos hscales,
      if_pos ⟨hday, hend⟩, ok_bind, checked_of_fits (fits_clock hday (by omega) (by omega)), ok_bind,
      PgInterval.addTerm]
    cases to_.addTime (clock hours minutes seconds (scaled (value ds) ds.length) * signOf c) with
    | error halt => rfl
    | ok to_' => rfl
  | @unscaled c p span _ ds behind hours minutes seconds hcolon hrest hspan htime hh hm hs hv
      hscales =>
    simp only
    rw [if_pos hcolon, clockTurn_eq hrest hspan, parseTextTime_eq htime hh hm hs hv, if_neg hscales]
    rfl
  | @count c p ds gap word _ val hcolon hstart hint hfits hends hgap hword halpha hrest =>
    have hc : isspace c = false := hhead c rfl
    simp only
    rw [if_neg hcolon, countTurn_eq hc hstart hint hfits hends hgap hword halpha hrest]
    cases to_.addTerm (.count (val * signOf c) (unitOf word)) with
    | error halt => rfl
    | ok to_' => rfl

/-- The time of a part is what is behind its sign. -/
theorem exists_span (c : UInt8) (p : Bytes) :
    ∃ span, skipSign c p = span ++ (c :: p).dropWhile inPart := by
  unfold skipSign
  cases hsign : hasSign c with
  | false => exact ⟨_, List.takeWhile_append_dropWhile.symm⟩
  | true =>
    -- the sign is the first character of the part
    have hin : inPart c = true := by
      simp only [hasSign, Bool.or_eq_true, beq_iff_eq] at hsign
      rcases hsign with rfl | rfl
      · rfl
      · rfl
    refine ⟨p.takeWhile inPart, ?_⟩
    rw [List.dropWhile_cons_of_pos hin, List.takeWhile_append_dropWhile]
    rfl

/-- A turn over a part with a colon. -/
theorem clockTurn_cases (to_ : PgInterval) {c : UInt8} {p : Bytes}
    (hcolon : (58 : UInt8) ∈ (c :: p).takeWhile inPart) :
    Fails (clockTurn to_ (c :: p) ((c :: p).takeWhile inPart)) ∨
      ∃ term rest, TermAt (c :: p) term rest := by
  obtain ⟨span, hspan⟩ := exists_span c p
  rw [clockTurn_eq rfl hspan]
  rcases parseTextTime_cases span with
    hfail | ⟨hours, minutes, seconds, ds, behind, htime, hh, hm, hs, hv⟩
  · exact .inl (hfail.bind _)
  · by_cases hscales : Scales (value ds) ds.length
    · by_cases hday : InDay hours minutes seconds (scaled (value ds) ds.length) ∧ trim behind = []
      · exact .inr ⟨_, _, .clock hcolon rfl hspan htime hh hm hs hv hscales hday.1 hday.2⟩
      · rw [parseTextTime_eq htime hh hm hs hv, if_pos hscales, if_neg hday]
        exact .inl (fails_protocolValueError.bind _)
    · exact .inr ⟨_, _, .unscaled hcolon rfl hspan htime hh hm hs hv hscales⟩

/-- A turn over a number, or what should be one. -/
theorem countTurn_cases (to_ : PgInterval) {c : UInt8} {p : Bytes} (hc : isspace c = false)
    (hcolon : (58 : UInt8) ∉ (c :: p).takeWhile inPart) :
    Fails (countTurn to_ (c :: p)) ∨ ∃ term rest, TermAt (c :: p) term rest := by
  rcases fromCharsInt_cases (skipSign c p) with
    ⟨ec, hfail⟩ | ⟨ds, val, behind, hstart, hint, hends, hfits, -⟩
  · left
    have hws : skipWs (c :: p) = c :: p := skipWs_eq_self (by simpa using hc)
    unfold countTurn parseInt
    rw [hws]
    simp only
    rw [hfail]
    exact ⟨_, rfl⟩
  · right
    have hgap := List.takeWhile_append_dropWhile (p := isspace) (l := behind)
    have hword := List.takeWhile_append_dropWhile (p := isalpha) (l := behind.dropWhile isspace)
    have hbehind : behind = behind.takeWhile isspace ++
        ((behind.dropWhile isspace).takeWhile isalpha ++
          (behind.dropWhile isspace).dropWhile isalpha) := by rw [hword, hgap]
    refine ⟨_, _, @TermAt.count c p ds _ _ _ val hcolon ?_ hint hfits ?_
      (Trimmed.all_takeWhile isspace behind) ?_
      (Trimmed.all_takeWhile isalpha (behind.dropWhile isspace))
      (Trimmed.head_dropWhile (behind.dropWhile isspace))⟩
    · rw [← hbehind, hstart]
    · rwa [← hbehind]
    · rw [hword]
      exact Trimmed.head_dropWhile _

/-- **A turn without a term ends the loop**: the text ends, or the turn fails. -/
theorem intervalTurn_cases (to_ : PgInterval) (text : Bytes) :
    (skipWs text = [] ∧ intervalTurn to_ text = (to_, .ok [])) ∨
    (∃ ec, intervalTurn to_ text = (to_, .error (.code ec))) ∨
    ∃ term rest, TermAt (skipWs text) term rest := by
  have hhead := skipWs_head text
  unfold intervalTurn
  cases hskip : skipWs text with
  | nil => exact .inl ⟨rfl, rfl⟩
  | cons c p =>
    right
    simp only
    by_cases hcolon : (58 : UInt8) ∈ (c :: p).takeWhile inPart
    · rw [if_pos hcolon]
      refine (clockTurn_cases to_ hcolon).imp_left ?_
      rintro ⟨ec, hfail⟩
      exact ⟨ec, by rw [hfail]⟩
    · rw [if_neg hcolon]
      refine (countTurn_cases to_ (hhead c (by rw [hskip]; rfl)) hcolon).imp_left ?_
      rintro ⟨ec, hfail⟩
      exact ⟨ec, by rw [hfail]⟩

end

/-! ## 3. Sums -/

/-- What a term adds to the months. -/
def Term.months : Term → Int
  | .count val (some .year) => val * 12
  | .count val (some .mon) => val
  | _ => 0

/-- What a term adds to the days. -/
def Term.days : Term → Int
  | .count val (some .day) => val
  | _ => 0

/-- What a term adds to the time. -/
def Term.time : Term → Int
  | .clock time => time
  | .count val (some .hour) => 3600000000 * val
  | .count val (some .minute) => 60000000 * val
  | .count val (some .second) => 1000000 * val
  | _ => 0

/-- The loop goes on behind the term. -/
def Term.Known : Term → Prop
  | .clock _ => True
  | .unscaled => False
  | .count _ unit => unit ≠ none

/-- What a term computes by itself fits: the number fits an `int`, also as months; a fraction can
    be scaled. -/
def Term.Fits : Term → Prop
  | .clock _ => True
  | .unscaled => False
  | .count val unit => BigEndian.Fits 4 val ∧ (unit = some .year → BigEndian.Fits 4 (val * 12))

namespace PgInterval

/-- The interval and the term, without any limits. -/
def plus (to_ : PgInterval) (term : Term) : PgInterval :=
  ⟨to_.months + term.months, to_.days + term.days, to_.time + term.time⟩

/-- The fields fit their types. -/
def InRange (to_ : PgInterval) : Prop :=
  BigEndian.Fits 4 to_.months ∧ BigEndian.Fits 4 to_.days ∧ BigEndian.Fits 8 to_.time

end PgInterval

/-- **The terms fit, and so do their sums.** -/
def Fitting (to_ : PgInterval) (terms : List Term) : Prop :=
  (∀ term ∈ terms, term.Fits) ∧ (terms.foldl .plus to_).InRange

/-- **The text begins with the terms**, in this order; the last one may be one that the loop does not
    go on behind. -/
inductive Begins : Bytes → List Term → Prop where
  | last {text rest : Bytes} {term : Term} (h : TermAt (skipWs text) term rest) : Begins text [term]
  | cons {text rest : Bytes} {term : Term} {terms : List Term} (h : TermAt (skipWs text) term rest)
      (hknown : term.Known) (hrest : Begins rest terms) : Begins text (term :: terms)

section
variable {to_ : PgInterval} {text rest : Bytes} {term : Term} {terms : List Term}

theorem fitting_singleton : Fitting to_ [term] ↔ term.Fits ∧ (to_.plus term).InRange := by
  simp [Fitting]

theorem fitting_cons : Fitting to_ (term :: terms) → Fitting (to_.plus term) terms := fun h =>
  ⟨fun t ht => h.1 t (List.mem_cons_of_mem _ ht), h.2⟩

/-- A duration of an `int` fits in microseconds. -/
theorem fits_duration {val : Int} (h : Fits 4 val) :
    Fits 8 (3600000000 * val) ∧ Fits 8 (60000000 * val) ∧ Fits 8 (1000000 * val) := by
  unfold Fits at *
  omega

theorem checked_bind {width : Nat} {z : Int} {α : Type} (f : Int → Parsed α) :
    checked width z >>= f = if Fits width z then f z else .error .overflow := by
  unfold checked
  split
  · rfl
  · rfl

theorem addMonths_eq (to_ : PgInterval) (val : Int) : to_.addMonths val =
    if Fits 4 (to_.months + val) then .ok { to_ with months := to_.months + val }
    else .error .overflow := checked_bind _

theorem addDays_eq (to_ : PgInterval) (val : Int) : to_.addDays val =
    if Fits 4 (to_.days + val) then .ok { to_ with days := to_.days + val }
    else .error .overflow := checked_bind _

theorem addTime_eq (to_ : PgInterval) (val : Int) : to_.addTime val =
    if Fits 8 (to_.time + val) then .ok { to_ with time := to_.time + val }
    else .error .overflow := checked_bind _

/-- What adding a term can come to. -/
inductive Added (to_ : PgInterval) (term : Term) : Parsed PgInterval → Prop where
  | overflow (h : ¬Fitting to_ [term]) : Added to_ term (.error .overflow)
  | sum (h : Fitting to_ [term]) (hknown : term.Known) : Added to_ term (.ok (to_.plus term))
  | unknown (h : Fitting to_ [term]) (hknown : ¬term.Known) {ec : ErrorCode} :
      Added to_ term (.error (.code ec))

theorem added_ite {p : Prop} [Decidable p] (hknown : term.Known) (h : Fitting to_ [term] ↔ p) :
    Added to_ term (if p then .ok (to_.plus term) else .error .overflow) := by
  split
  · rename_i hp
    exact .sum (h.mpr hp) hknown
  · rename_i hp
    exact .overflow fun hfit => hp (h.mp hfit)

theorem fitting_iff : Fitting to_ [term] ↔
    term.Fits ∧ Fits 4 (to_.months + term.months) ∧ Fits 4 (to_.days + term.days) ∧
      Fits 8 (to_.time + term.time) := fitting_singleton

/-- A term of months only. -/
theorem added_months (hto : to_.InRange) (hfits : term.Fits) (hknown : term.Known)
    (hdays : term.days = 0) (htime : term.time = 0) :
    Added to_ term (to_.addMonths term.months) := by
  have hsum : to_.plus term = { to_ with months := to_.months + term.months } := by
    simp [PgInterval.plus, hdays, htime]
  rw [addMonths_eq, ← hsum]
  refine added_ite hknown (fitting_iff.trans ?_)
  rw [hdays, htime, Int.add_zero, Int.add_zero]
  exact ⟨fun h => h.2.1, fun h => ⟨hfits, h, hto.2⟩⟩

/-- A term of days only. -/
theorem added_days (hto : to_.InRange) (hfits : term.Fits) (hknown : term.Known)
    (hmonths : term.months = 0) (htime : term.time = 0) :
    Added to_ term (to_.addDays term.days) := by
  have hsum : to_.plus term = { to_ with days := to_.days + term.days } := by
    simp [PgInterval.plus, hmonths, htime]
  rw [addDays_eq, ← hsum]
  refine added_ite hknown (fitting_iff.trans ?_)
  rw [hmonths, htime, Int.add_zero, Int.add_zero]
  exact ⟨fun h => h.2.2.1, fun h => ⟨hfits, hto.1, h, hto.2.2⟩⟩

/-- A term of time only. -/
theorem added_time (hto : to_.InRange) (hfits : term.Fits) (hknown : term.Known)
    (hmonths : term.months = 0) (hdays : term.days = 0) :
    Added to_ term (to_.addTime term.time) := by
  have hsum : to_.plus term = { to_ with time := to_.time + term.time } := by
    simp [PgInterval.plus, hmonths, hdays]
  rw [addTime_eq, ← hsum]
  refine added_ite hknown (fitting_iff.trans ?_)
  rw [hmonths, hdays, Int.add_zero, Int.add_zero]
  exact ⟨fun h => h.2.2.2, fun h => ⟨hfits, hto.1, hto.2.1, h⟩⟩

/-- A number that fits is added in the field of its unit. -/
theorem added_addUnit (hto : to_.InRange) {val : Int} (hval : Fits 4 val) (unit : IntervalUnit) :
    Added to_ (.count val (some unit)) (to_.addUnit unit val) := by
  obtain ⟨hhour, hminute, hsecond⟩ := fits_duration hval
  have hknown : (Term.count val (some unit)).Known := by simp [Term.Known]
  have hfits : unit ≠ .year → (Term.count val (some unit)).Fits := fun hne =>
    ⟨hval, fun hyear => absurd (Option.some.inj hyear) hne⟩
  cases unit with
  | year =>
    rw [PgInterval.addUnit, checked_bind]
    by_cases hyear : Fits 4 (val * 12)
    · rw [if_pos hyear]
      exact added_months hto ⟨hval, fun _ => hyear⟩ hknown rfl rfl
    · rw [if_neg hyear]
      exact .overflow fun h => hyear ((fitting_iff.mp h).1.2 rfl)
  | mon => exact added_months hto (hfits nofun) hknown rfl rfl
  | day => exact added_days hto (hfits nofun) hknown rfl rfl
  | hour =>
    rw [PgInterval.addUnit, checked_of_fits hhour, ok_bind]
    exact added_time hto (hfits nofun) hknown rfl rfl
  | minute =>
    rw [PgInterval.addUnit, checked_of_fits hminute, ok_bind]
    exact added_time hto (hfits nofun) hknown rfl rfl
  | second =>
    rw [PgInterval.addUnit, checked_of_fits hsecond, ok_bind]
    exact added_time hto (hfits nofun) hknown rfl rfl

/-- **A term is added just when it fits**, and the sum with it. -/
theorem added_addTerm (hto : to_.InRange) (term : Term) : Added to_ term (to_.addTerm term) := by
  cases term with
  | clock time => exact added_time hto trivial trivial rfl rfl
  | unscaled => exact .overflow fun h => (fitting_iff.mp h).1
  | count val unit =>
    rw [PgInterval.addTerm, checked_bind]
    by_cases hval : Fits 4 val
    · rw [if_pos hval]
      cases unit with
      | none =>
        refine .unknown (fitting_iff.mpr ?_) (by simp [Term.Known])
        obtain ⟨hmonths, hdays, htime⟩ := hto
        simp [Term.Fits, Term.months, Term.days, Term.time, hval, hmonths, hdays, htime]
      | some unit => exact added_addUnit hto hval unit
    · rw [if_neg hval]
      exact .overflow fun h => hval (fitting_iff.mp h).1.1

end

/-! ## 4. The loop -/

section
variable {to_ : PgInterval} {text rest : Bytes}

theorem not_termAt_nil {term : Term} : ¬TermAt [] term rest := nofun

theorem skipWs_idem (text : Bytes) : skipWs (skipWs text) = skipWs text :=
  skipWs_eq_self (skipWs_head text)

theorem begins_skipWs {terms : List Term} : Begins (skipWs text) terms ↔ Begins text terms := by
  constructor
  · intro h
    generalize hs : skipWs text = s at h
    cases h with
    | last h => exact .last (skipWs_idem text ▸ hs ▸ h)
    | cons h hknown hrest => exact .cons (skipWs_idem text ▸ hs ▸ h) hknown hrest
  · intro h
    cases h with
    | last h => exact .last (by rwa [skipWs_idem])
    | cons h hknown hrest => exact .cons (by rwa [skipWs_idem]) hknown hrest

/-- **A turn that the loop goes on behind has consumed something.** -/
theorem intervalTurn_shorter {to_' : PgInterval} {rest : Bytes} (hne : text ≠ [])
    (h : intervalTurn to_ text = (to_', .ok rest)) : rest.length < text.length := by
  rcases intervalTurn_cases to_ text with ⟨-, hend⟩ | ⟨ec, hfail⟩ | ⟨term, behind, hterm⟩
  · rw [hend] at h
    cases h
    exact List.length_pos_of_ne_nil hne
  · rw [hfail] at h
    cases h
  · rw [intervalTurn_eq hterm] at h
    have hshort := hterm.shorter
    have hws := length_skipWs_le text
    have hws' := length_skipWs_le behind
    cases hadd : to_.addTerm term with
    | error halt =>
      rw [hadd] at h
      cases h
    | ok to_'' =>
      rw [hadd] at h
      cases h
      omega

theorem intervalLoop_succ (fuel : Nat) (to_ : PgInterval) (hne : text ≠ []) :
    intervalLoop (fuel + 1) to_ text =
      match intervalTurn to_ text with
      | (to_, .error halt) => some (to_, .error halt)
      | (to_, .ok rest) => intervalLoop fuel to_ rest := by
  obtain ⟨c, p, rfl⟩ := List.exists_cons_of_ne_nil hne
  rfl

theorem intervalLoop_nil (fuel : Nat) (to_ : PgInterval) :
    intervalLoop fuel to_ [] = some (to_, .ok ()) := by
  cases fuel with
  | zero => rfl
  | succ fuel => rfl

/-- **The loop ends within its text**, and without an overflow where the terms are fitting. -/
theorem intervalLoop_ends : ∀ (fuel : Nat) {to_ : PgInterval} {text : Bytes}, text.length ≤ fuel →
    to_.InRange → ∃ to_' r, intervalLoop fuel to_ text = some (to_', r) ∧ r ≠ .error .outOfRange ∧
      ((∀ terms, Begins text terms → Fitting to_ terms) → r ≠ .error .overflow)
  | 0, to_, text, hle, _ => by
      obtain rfl : text = [] := List.eq_nil_of_length_eq_zero (Nat.le_zero.mp hle)
      exact ⟨_, _, rfl, nofun, fun _ => nofun⟩
  | fuel + 1, to_, text, hle, hto => by
      by_cases hne : text = []
      · subst hne
        exact ⟨_, _, rfl, nofun, fun _ => nofun⟩
      rw [intervalLoop_succ fuel to_ hne]
      rcases intervalTurn_cases to_ text with ⟨-, hend⟩ | ⟨ec, hfail⟩ | ⟨term, rest, hterm⟩
      · rw [hend]
        exact ⟨_, _, intervalLoop_nil fuel to_, nofun, fun _ => nofun⟩
      · rw [hfail]
        exact ⟨_, _, rfl, nofun, fun _ => nofun⟩
      · have hturn := @intervalTurn_eq to_ text rest term hterm
        cases hadd : to_.addTerm term with
        | error halt =>
          rw [hadd] at hturn
          rw [hturn]
          have hadded := hadd ▸ added_addTerm hto term
          refine ⟨_, _, rfl, ?_, fun hall => ?_⟩
          · cases hadded with
            | overflow _ => nofun
            | unknown _ _ => nofun
          · cases hadded with
            | overflow h => exact absurd (hall _ (.last hterm)) h
            | unknown _ _ => nofun
        | ok to_' =>
          rw [hadd] at hturn
          have hshort := intervalTurn_shorter hne hturn
          rw [hturn]
          have hadded := hadd ▸ added_addTerm hto term
          cases hadded with
          | sum h hknown =>
            obtain ⟨to_'', r, hloop, hin, hover⟩ :=
              intervalLoop_ends fuel (show (skipWs rest).length ≤ fuel by omega)
                (fitting_singleton.mp h).2
            refine ⟨to_'', r, hloop, hin, fun hall => hover fun terms hterms => ?_⟩
            exact fitting_cons (hall _ (.cons hterm hknown (begins_skipWs.mp hterms)))

/-- What the loop does where the text begins with a term. -/
theorem intervalLoop_term {term : Term} {rest : Bytes} {fuel : Nat} {to_' : PgInterval}
    {r : Parsed Unit} (hterm : TermAt (skipWs text) term rest) (hto : to_.InRange)
    (hloop : intervalLoop fuel to_ text = some (to_', r)) (hr : r ≠ .error .overflow) :
    Fitting to_ [term] ∧
      (term.Known → ∃ fuel', intervalLoop fuel' (to_.plus term) (skipWs rest) = some (to_', r)) := by
  have hne : text ≠ [] := by
    rintro rfl
    exact not_termAt_nil hterm
  cases fuel with
  | zero =>
    obtain ⟨c, p, rfl⟩ := List.exists_cons_of_ne_nil hne
    cases hloop
  | succ fuel =>
    rw [intervalLoop_succ fuel to_ hne, intervalTurn_eq hterm] at hloop
    cases hadd : to_.addTerm term with
    | error halt =>
      rw [hadd] at hloop
      cases hloop
      have hadded := hadd ▸ added_addTerm hto term
      cases hadded with
      | overflow _ => exact absurd rfl hr
      | unknown h hunknown => exact ⟨h, fun hknown => absurd hknown hunknown⟩
    | ok to_'' =>
      rw [hadd] at hloop
      have hadded := hadd ▸ added_addTerm hto term
      cases hadded with
      | sum h _ => exact ⟨h, fun _ => ⟨fuel, hloop⟩⟩

/-- **Without an overflow, the terms are fitting.** The white space before them does not count. -/
theorem fitting_of_begins {terms : List Term} (h : Begins text terms) :
    ∀ {text' : Bytes} {fuel : Nat} {to_ to_' : PgInterval} {r : Parsed Unit},
      skipWs text' = skipWs text → to_.InRange → intervalLoop fuel to_ text' = some (to_', r) →
      r ≠ .error .overflow → Fitting to_ terms := by
  induction h with
  | last hterm =>
    intro text' fuel to_ to_' r hws hto hloop hr
    exact (intervalLoop_term (hws.symm ▸ hterm) hto hloop hr).1
  | @cons text rest term terms hterm hknown hrest ih =>
    intro text' fuel to_ to_' r hws hto hloop hr
    obtain ⟨hfit, hnext⟩ := intervalLoop_term (hws.symm ▸ hterm) hto hloop hr
    obtain ⟨fuel', hloop'⟩ := hnext hknown
    obtain ⟨hterms, hrange⟩ :=
      ih (skipWs_idem rest) (fitting_singleton.mp hfit).2 hloop' hr
    exact ⟨List.forall_mem_cons.mpr ⟨(fitting_singleton.mp hfit).1, hterms⟩, hrange⟩

end

theorem inRange_zero : PgInterval.zero.InRange := by
  unfold PgInterval.InRange PgInterval.zero Fits
  decide

/-- **The loop of `parse_text_interval`**: a turn that the loop goes on behind has consumed something,
    so the loop ends; no read is outside of the text; and no signed operation overflows if and only
    if the terms that the text begins with are fitting. -/
theorem interval_text_safe_exactly (text : Bytes) :
    (∀ (to_ to_' : PgInterval) (rest : Bytes), text ≠ [] →
      intervalTurn to_ text = (to_', .ok rest) → rest.length < text.length) ∧
    ∃ to_ r, parseTextInterval text = some (to_, r) ∧ r ≠ .error .outOfRange ∧
      (r ≠ .error .overflow ↔ ∀ terms, Begins text terms → Fitting .zero terms) := by
  refine ⟨fun _ _ _ => intervalTurn_shorter, ?_⟩
  by_cases hne : text = []
  · subst hne
    refine ⟨_, _, rfl, nofun, fun _ terms hterms => ?_, fun _ => nofun⟩
    cases hterms with
    | last h => exact absurd h not_termAt_nil
    | cons h _ _ => exact absurd h not_termAt_nil
  · obtain ⟨to_, r, hloop, hin, hover⟩ :=
      intervalLoop_ends text.length (Nat.le_refl _) inRange_zero
    refine ⟨to_, r, ?_, hin, fun hr terms hterms => ?_, hover⟩
    · rw [parseTextInterval, if_neg hne]
      exact hloop
    · exact fitting_of_begins hterms rfl inRange_zero hloop hr

/-- As many years as fit an `int` do not fit it as months. -/
theorem interval_text_overflows :
    ¬∀ text : Bytes, ∃ to_ r, parseTextInterval text = some (to_, r) ∧ r ≠ .error .outOfRange ∧
      r ≠ .error .overflow := by
  intro h
  obtain ⟨to_, r, hparse, -, hover⟩ := h (ascii "178956971 years")
  have hturn : parseTextInterval (ascii "178956971 years") = some (.zero, .error .overflow) := by
    decide
  rw [hturn] at hparse
  cases hparse
  exact hover rfl

end Types

end NativePg
