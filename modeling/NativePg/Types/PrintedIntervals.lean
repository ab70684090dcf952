/-
  File:      NativePg/Types/PrintedIntervals.lean
  Subject:   Intervals as PostgreSQL prints them (IntervalStyle postgres), and the two forms of them.

  * `printInterval` -- the text: the units that are not zero, and a time;
  * `Runs` -- what the loop of `parse_text_interval` comes to, whatever its fuel. `runs_unit`,
    `runs_time`: over a printed unit and over a printed time;
  * **`interval_forms_agree_iff`** -- the two forms are decoded to one interval if and only if the
    time is of a day at most, for it is read as a time of day, and the days are not the least `int`,
    whose digits are no `int`.
-/
import NativePg.Types.IntervalTerms
import NativePg.Types.Printed

namespace NativePg

namespace Types

open BigEndian (Fits ofInt)
open Decimal (AllDigits Ends digits isDigit value)
open Trimmed (All)

/-! ## 1. What is printed -/

/-- An integer. -/
def printInteger (z : Int) : Bytes := if z < 0 then 45 :: digits z.natAbs else digits z.natAbs

/-- The name of a unit. -/
def IntervalUnit.name : IntervalUnit → String
  | .year => "year"
  | .mon => "mon"
  | .day => "day"
  | .hour => "hour"
  | .minute => "minute"
  | .second => "second"

/-- The name behind a number. -/
def printName (val : Int) (unit : IntervalUnit) : Bytes :=
  ascii unit.name ++ if val = 1 then [] else ascii "s"

/-- A number and its unit; `before` says that there is a negative number before it. -/
def printUnit (val : Int) (before : Bool) (unit : IntervalUnit) : Bytes :=
  (if before = true ∧ 0 < val then [43] else []) ++ (printInteger val ++ 32 :: printName val unit)

/-- The parts of a unit: none, if there is nothing of it. -/
def unitParts (val : Int) (before : Bool) (unit : IntervalUnit) : List Bytes :=
  if val = 0 then [] else [printUnit val before unit]

/-- Is there a negative number before what comes next? -/
def beforeNext (val : Int) (before : Bool) : Bool := if val = 0 then before else decide (val < 0)

/-- The time, with its sign. -/
def printSignedTime (time : Int) (before : Bool) : Bytes :=
  (if time < 0 then [45] else if before = true then [43] else []) ++ printTime time.natAbs

/-- The parts of the time: none, if there is no time and something else. -/
def timeParts (i : PgInterval) (before : Bool) : List Bytes :=
  if (i.months = 0 ∧ i.days = 0) ∨ i.time ≠ 0 then [printSignedTime i.time before] else []

/-- The parts of an interval. -/
def intervalParts (i : PgInterval) : List Bytes :=
  let years := i.months.tdiv 12
  let mons := i.months.tmod 12
  let before₁ := beforeNext years false
  let before₂ := beforeNext mons before₁
  let before₃ := beforeNext i.days before₂
  unitParts years false .year ++ (unitParts mons before₁ .mon ++ (unitParts i.days before₂ .day ++
    timeParts i before₃))

/-- Parts behind a part. -/
def behindPart (parts : List Bytes) : Bytes := parts.flatMap (32 :: ·)

/-- Parts, with one space between two of them. -/
def joined : List Bytes → Bytes
  | [] => []
  | part :: parts => part ++ behindPart parts

/-- **The text of an interval.** -/
def printInterval (i : PgInterval) : Bytes := joined (intervalParts i)

/-! ## 2. Runs -/

/-- The loop comes to `x`. -/
def Runs (to_ : PgInterval) (text : Bytes) (x : PgInterval × Parsed Unit) : Prop :=
  ∃ fuel, intervalLoop fuel to_ text = some x

section
variable {to_ to_' : PgInterval} {text rest : Bytes} {x y : PgInterval × Parsed Unit}

theorem intervalLoop_mono {fuel : Nat} (h : intervalLoop fuel to_ text = some x) :
    intervalLoop (fuel + 1) to_ text = some x := by
  induction fuel generalizing to_ text with
  | zero =>
    cases text with
    | nil => exact h
    | cons c p => cases h
  | succ fuel ih =>
    by_cases hne : text = []
    · subst hne
      exact h
    · rw [intervalLoop_succ _ _ hne] at h ⊢
      cases hturn : intervalTurn to_ text with
      | mk to_' r =>
        rw [hturn] at h
        cases r with
        | error halt => exact h
        | ok rest => exact ih h

theorem Runs.unique (h : Runs to_ text x) (h' : Runs to_ text y) : x = y := by
  obtain ⟨fuel, h⟩ := h
  obtain ⟨fuel', h'⟩ := h'
  have hmono : ∀ {fuel : Nat} {z : PgInterval × Parsed Unit}, intervalLoop fuel to_ text = some z →
      ∀ k, intervalLoop (fuel + k) to_ text = some z := by
    intro fuel z hz k
    induction k with
    | zero => exact hz
    | succ k ih => exact intervalLoop_mono ih
  have hsum := hmono h' fuel
  rw [Nat.add_comm, hmono h fuel'] at hsum
  exact Option.some.inj hsum

/-- What the loop comes to is what the decoder gives. -/
theorem Runs.parseTextInterval (h : Runs .zero text x) (hne : text ≠ []) :
    parseTextInterval text = some x := by
  obtain ⟨to_', r, hloop, -⟩ := intervalLoop_ends text.length (Nat.le_refl _) inRange_zero
  rw [Types.parseTextInterval, if_neg hne, hloop, Option.some.injEq]
  exact Runs.unique ⟨_, hloop⟩ h

theorem runs_nil (to_ : PgInterval) : Runs to_ [] (to_, .ok ()) := ⟨0, rfl⟩

theorem Runs.of_turn_ok (hne : text ≠ []) (hturn : intervalTurn to_ text = (to_', .ok rest))
    (h : Runs to_' rest x) : Runs to_ text x := by
  obtain ⟨fuel, h⟩ := h
  refine ⟨fuel + 1, ?_⟩
  rw [intervalLoop_succ _ _ hne, hturn]
  exact h

theorem Runs.of_turn_error {halt : Halt} (hne : text ≠ [])
    (hturn : intervalTurn to_ text = (to_', .error halt)) : Runs to_ text (to_', .error halt) := by
  refine ⟨1, ?_⟩
  rw [intervalLoop_succ _ _ hne, hturn]

end

/-! ## 3. Parts -/

/-- A part does not begin with white space. -/
def IsPart (part : Bytes) : Prop := ∃ c p, part = c :: p ∧ isspace c = false

/-- The text ends, or goes on with a space. -/
def EndsPart (rest : Bytes) : Prop := ∀ c ∈ rest.head?, c = 32

section
variable {part rest : Bytes} {parts : List Bytes}

theorem IsPart.ne_nil (h : IsPart part) (rest : Bytes) : part ++ rest ≠ [] := by
  obtain ⟨c, p, rfl, -⟩ := h
  exact List.cons_ne_nil _ _

theorem IsPart.skipWs (h : IsPart part) (rest : Bytes) : skipWs (part ++ rest) = part ++ rest := by
  obtain ⟨c, p, rfl, hc⟩ := h
  exact skipWs_eq_self (by simpa using hc)

theorem endsPart_behindPart (parts : List Bytes) : EndsPart (behindPart parts) := by
  cases parts with
  | nil => simp [EndsPart, behindPart]
  | cons part parts => simp [EndsPart, behindPart]

theorem skipWs_behindPart (h : ∀ part ∈ parts, IsPart part) : skipWs (behindPart parts) = joined parts := by
  cases parts with
  | nil => rfl
  | cons part parts =>
    have hpart := h part (List.mem_cons_self ..)
    have hcons : behindPart (part :: parts) = 32 :: (part ++ behindPart parts) := rfl
    have hspace : skipWs (32 :: (part ++ behindPart parts)) = skipWs (part ++ behindPart parts) := rfl
    rw [hcons, hspace, hpart.skipWs]
    rfl

/-- The part of the text up to white space. -/
theorem takeWhile_inPart (hpart : ∀ c ∈ part, inPart c = true) (hrest : EndsPart rest) :
    (part ++ rest).takeWhile inPart = part ∧ (part ++ rest).dropWhile inPart = rest := by
  have hdrop : rest.dropWhile inPart = rest := by
    refine Trimmed.dropWhile_eq_self fun c hc => ?_
    rw [hrest c hc]
    rfl
  have hsplit := List.takeWhile_append_dropWhile (p := inPart) (l := part ++ rest)
  rw [List.dropWhile_append_of_pos hpart, hdrop] at hsplit ⊢
  exact ⟨List.append_cancel_right hsplit, rfl⟩

theorem inPart_of_isspace {c : UInt8} (h : isspace c = false) : inPart c = true := by
  rw [isspace_eq_false_iff] at h
  have hne : ∀ {d : UInt8}, d.toNat = 32 ∨ (9 ≤ d.toNat ∧ d.toNat ≤ 13) → c ≠ d := by
    rintro d hd rfl
    exact h hd
  unfold inPart
  simp only [Bool.and_eq_true, bne_iff_ne]
  exact ⟨⟨⟨hne (by decide), hne (by decide)⟩, hne (by decide)⟩, hne (by decide)⟩

theorem Unspaced.inPart (h : Unspaced part) : ∀ c ∈ part, inPart c = true := fun c hc =>
  inPart_of_isspace (h c hc)

theorem Unspaced.isPart (h : Unspaced part) (hne : part ≠ []) : IsPart part := by
  obtain ⟨c, p, rfl⟩ := List.exists_cons_of_ne_nil hne
  exact ⟨c, p, rfl, h c (List.mem_cons_self ..)⟩

end

/-! ## 4. Signs -/

/-- **A sign that is printed, or none**, before something that begins with a digit. -/
inductive Signed : Bytes → Int → Prop where
  | none : Signed [] 1
  | plus : Signed [43] 1
  | minus : Signed [45] (-1)

section
variable {sign body : Bytes} {s : Int}

theorem Signed.unspaced (h : Signed sign s) : Unspaced sign := by
  cases h with
  | none => simp [Unspaced]
  | plus => exact .cons rfl (by simp [Unspaced])
  | minus => exact .cons rfl (by simp [Unspaced])

theorem Signed.no_colon (h : Signed sign s) : (58 : UInt8) ∉ sign := by
  cases h with
  | none => decide
  | plus => decide
  | minus => decide

/-- The sign is read, and what is behind it. -/
theorem Signed.skip (h : Signed sign s) {c : UInt8} {p : Bytes} (hc : isDigit c = true)
    (hbody : body = c :: p) :
    ∃ c' p', sign ++ body = c' :: p' ∧ skipSign c' p' = body ∧ signOf c' = s := by
  subst hbody
  cases h with
  | none =>
    have hne : c ≠ 43 ∧ c ≠ 45 := by
      constructor
      · rintro rfl
        cases hc
      · rintro rfl
        cases hc
    refine ⟨c, p, rfl, ?_, ?_⟩
    · unfold skipSign hasSign
      simp [hne.1, hne.2]
    · unfold signOf
      rw [if_neg hne.2]
  | plus => exact ⟨43, c :: p, rfl, rfl, rfl⟩
  | minus => exact ⟨45, c :: p, rfl, rfl, rfl⟩

end

/-! ## 5. Units -/

section
variable {to_ : PgInterval} {val : Int} {rest : Bytes} {parts : List Bytes}
  {x : PgInterval × Parsed Unit}

theorem unitOf_name (val : Int) (unit : IntervalUnit) : unitOf (printName val unit) = some unit := by
  unfold printName
  cases unit <;> split <;> decide

/-- The name of a unit is a word. -/
theorem printName_alpha (val : Int) (unit : IntervalUnit) :
    (∀ c ∈ printName val unit, isalpha c = true ∧ isspace c = false) ∧ printName val unit ≠ [] := by
  have hall : (printName val unit).all (fun c => isalpha c && !isspace c) = true ∧
      printName val unit ≠ [] := by
    unfold printName
    cases unit <;> split <;> decide
  refine ⟨fun c hc => ?_, hall.2⟩
  simpa using List.all_eq_true.mp hall.1 c hc

/-- A number that is printed is a sign and digits. -/
theorem exists_sign (val : Int) (before : Bool) (unit : IntervalUnit) :
    ∃ sign s, Signed sign s ∧ (val.natAbs : Int) * s = val ∧
      printUnit val before unit = sign ++ (digits val.natAbs ++ 32 :: printName val unit) := by
  unfold printUnit printInteger
  by_cases hneg : val < 0
  · have hplus : ¬(before = true ∧ 0 < val) := fun h => by omega
    exact ⟨_, _, .minus, by omega, by rw [if_neg hplus, if_pos hneg]; rfl⟩
  · by_cases hplus : before = true ∧ 0 < val
    · exact ⟨_, _, .plus, by omega, by rw [if_pos hplus, if_neg hneg]⟩
    · exact ⟨_, _, .none, by omega, by rw [if_neg hplus, if_neg hneg]⟩

theorem isPart_unit (val : Int) (before : Bool) (unit : IntervalUnit) :
    IsPart (printUnit val before unit) := by
  obtain ⟨sign, s, hsign, -, hprint⟩ := exists_sign val before unit
  have hdigits : Unspaced (digits val.natAbs) := unspaced_digits (Decimal.allDigits_digits _)
  have hfront : IsPart (sign ++ digits val.natAbs) := (hsign.unspaced.append hdigits).isPart
    (List.append_ne_nil_of_right_ne_nil _ (Decimal.digits_ne_nil _))
  obtain ⟨c, p, hcons, hc⟩ := hfront
  refine ⟨c, p ++ 32 :: printName val unit, ?_, hc⟩
  rw [hprint, ← List.append_assoc, hcons]
  rfl

/-- Where a number is printed, the text begins with its sign, its digits and its unit. -/
theorem unit_text (val : Int) (before : Bool) (unit : IntervalUnit) (rest : Bytes) :
    ∃ c p, printUnit val before unit ++ rest = c :: p ∧
      skipSign c p = digits val.natAbs ++ ([32] ++ (printName val unit ++ rest)) ∧
      (val.natAbs : Int) * signOf c = val ∧ (58 : UInt8) ∉ (c :: p).takeWhile inPart := by
  obtain ⟨sign, s, hsign, hmul, hprint⟩ := exists_sign val before unit
  have hdigits := Decimal.allDigits_digits val.natAbs
  obtain ⟨d, ds, hcons⟩ := List.exists_cons_of_ne_nil (Decimal.digits_ne_nil val.natAbs)
  have hd : isDigit d = true := hdigits d (by rw [hcons]; exact List.mem_cons_self ..)
  obtain ⟨c, p, htext, hskip, hs⟩ := @Signed.skip sign
    (digits val.natAbs ++ ([32] ++ (printName val unit ++ rest))) s hsign d
    (ds ++ ([32] ++ (printName val unit ++ rest))) hd (by rw [hcons]; rfl)
  have hwhole : printUnit val before unit ++ rest = c :: p := by
    rw [hprint, ← htext]
    simp
  refine ⟨c, p, hwhole, hskip, by rw [hs, hmul], ?_⟩
  have hpart : ∀ c ∈ sign ++ digits val.natAbs, inPart c = true :=
    (hsign.unspaced.append (unspaced_digits hdigits)).inPart
  have htake := (takeWhile_inPart hpart (show EndsPart ([32] ++ (printName val unit ++ rest)) by
    simp [EndsPart])).1
  rw [List.append_assoc, htext] at htake
  rw [htake, List.mem_append]
  rintro (h | h)
  · exact hsign.no_colon h
  · exact absurd (hdigits 58 h) (by decide)

/-- **A printed unit is a term**, where its number is one of an `int`. -/
theorem termAt_unit (hfits : val.natAbs < 2 ^ 31) (before : Bool)
    (unit : IntervalUnit) (hrest : EndsPart rest) :
    TermAt (printUnit val before unit ++ rest) (.count val (some unit)) rest := by
  obtain ⟨c, p, htext, hskip, hmul, hcolon⟩ := unit_text val before unit rest
  obtain ⟨halpha, hne⟩ := printName_alpha val unit
  have hint := Decimal.isInteger_digits val.natAbs
  have hterm := TermAt.count hcolon hskip hint (fits_natCast.mpr hfits)
    (Decimal.ends_cons (by decide) _) (by decide) ?_ (fun c hc => (halpha c hc).1) ?_
  · rwa [hmul, unitOf_name, ← htext] at hterm
  · intro c hc
    rw [List.head?_append_of_ne_nil _ hne] at hc
    exact (halpha c (List.mem_of_mem_head? hc)).2
  · intro c hc
    rw [hrest c hc]
    rfl

/-- Others fail. -/
theorem turn_unit_fails (hfits : 2 ^ 31 ≤ val.natAbs) (before : Bool)
    (unit : IntervalUnit) (rest : Bytes) (to_ : PgInterval) :
    ∃ ec, intervalTurn to_ (printUnit val before unit ++ rest) = (to_, .error (.code ec)) := by
  obtain ⟨c, p, htext, hskip, -, hcolon⟩ := unit_text val before unit rest
  have hpart := (isPart_unit val before unit).skipWs rest
  rw [htext] at hpart
  have hends : Ends ([32] ++ (printName val unit ++ rest)) := Decimal.ends_cons (by decide) _
  have hread := fromCharsInt_eq (Decimal.isInteger_digits val.natAbs) hends
  rw [if_neg fun h => by rw [fits_natCast] at h; omega] at hread
  refine ⟨ClientErrc.protocolValueError.code, ?_⟩
  unfold intervalTurn
  rw [htext, hpart]
  simp only
  rw [if_neg hcolon]
  unfold countTurn parseInt
  rw [hpart]
  simp only
  rw [hskip, hread]
  rfl

theorem addTerm_of_fitting {term : Term} (hto : to_.InRange) (h : Fitting to_ [term])
    (hknown : term.Known) : to_.addTerm term = .ok (to_.plus term) := by
  have hadded := added_addTerm hto term
  generalize to_.addTerm term = r at hadded
  cases hadded with
  | overflow hno => exact absurd h hno
  | sum _ _ => rfl
  | unknown _ hno => exact absurd hknown hno

theorem plus_zero (to_ : PgInterval) (unit : IntervalUnit) :
    to_.plus (.count 0 (some unit)) = to_ := by
  unfold PgInterval.plus
  cases unit <;> simp [Term.months, Term.days, Term.time]

/-- **A printed unit is added**, and nothing where none is printed. -/
theorem runs_unit {unit : IntervalUnit} (before : Bool) (hfits : val.natAbs < 2 ^ 31)
    (hto : to_.InRange) (hfit : Fitting to_ [.count val (some unit)])
    (hparts : ∀ part ∈ parts, IsPart part)
    (h : Runs (to_.plus (.count val (some unit))) (joined parts) x) :
    Runs to_ (joined (unitParts val before unit ++ parts)) x := by
  unfold unitParts
  by_cases hval : val = 0
  · rw [if_pos hval, List.nil_append]
    rwa [hval, plus_zero] at h
  · have hpart := isPart_unit val before unit
    have hterm := termAt_unit hfits before unit (endsPart_behindPart parts)
    rw [← hpart.skipWs] at hterm
    have hturn := @intervalTurn_eq to_ _ _ _ hterm
    rw [addTerm_of_fitting hto hfit (by simp [Term.Known]), skipWs_behindPart hparts] at hturn
    rw [if_neg hval]
    exact Runs.of_turn_ok (hpart.ne_nil _) hturn h

/-! ## 6. Times -/

theorem exists_sign_time (time : Int) (before : Bool) : ∃ sign s, Signed sign s ∧
    (time.natAbs : Int) * s = time ∧ printSignedTime time before = sign ++ printTime time.natAbs := by
  unfold printSignedTime
  by_cases hneg : time < 0
  · exact ⟨_, _, .minus, by omega, by rw [if_pos hneg]⟩
  · cases before with
    | true => exact ⟨_, _, .plus, by omega, by rw [if_neg hneg, if_pos rfl]⟩
    | false => exact ⟨_, _, .none, by omega, by rw [if_neg hneg, if_neg Bool.false_ne_true]⟩

theorem isPart_time (time : Int) (before : Bool) : IsPart (printSignedTime time before) := by
  obtain ⟨sign, s, hsign, -, hprint⟩ := exists_sign_time time before
  rw [hprint]
  exact (hsign.unspaced.append (unspaced_printTime _)).isPart
    (List.append_ne_nil_of_right_ne_nil _ (printTime_ne_nil _))

/-- Where a time is printed, its part is the sign and the time. -/
theorem time_text (time : Int) (before : Bool) (hrest : EndsPart rest) :
    ∃ c p, printSignedTime time before ++ rest = c :: p ∧
      skipSign c p = printTime time.natAbs ++ rest ∧ (time.natAbs : Int) * signOf c = time ∧
      (58 : UInt8) ∈ (c :: p).takeWhile inPart ∧ rest = (c :: p).dropWhile inPart := by
  obtain ⟨sign, s, hsign, hmul, hprint⟩ := exists_sign_time time before
  have hdigits := Decimal.allDigits_padded 2 (time.natAbs / 3600000000)
  obtain ⟨d, ds, hcons⟩ :=
    List.exists_cons_of_ne_nil (@Decimal.padded_ne_nil 2 (by decide) (time.natAbs / 3600000000))
  have hd : isDigit d = true := hdigits d (by rw [hcons]; exact List.mem_cons_self ..)
  obtain ⟨p', hp'⟩ : ∃ p', printTime time.natAbs ++ rest = d :: p' := by
    unfold printTime
    rw [hcons]
    exact ⟨_, rfl⟩
  obtain ⟨c, p, htext, hskip, hs⟩ := hsign.skip hd hp'
  have hpart : ∀ c ∈ sign ++ printTime time.natAbs, inPart c = true :=
    (hsign.unspaced.append (unspaced_printTime _)).inPart
  obtain ⟨htake, hdrop⟩ := takeWhile_inPart hpart hrest
  rw [List.append_assoc, htext] at htake hdrop
  refine ⟨c, p, by rw [hprint, List.append_assoc, htext], hskip, by rw [hs, hmul], ?_, hdrop.symm⟩
  rw [htake]
  unfold printTime
  simp

/-- **A printed time is a term**, where it is of a day at most. -/
theorem termAt_time {time : Int} (htime : time.natAbs ≤ 86400000000) (before : Bool)
    (hrest : EndsPart rest) : TermAt (printSignedTime time before ++ rest) (.clock time) rest := by
  obtain ⟨c, p, htext, hskip, hmul, hcolon, hdrop⟩ := time_text time before hrest
  have hlt : time.natAbs % 1000000 < 10 ^ 6 := Nat.mod_lt _ (by decide)
  obtain ⟨hds, hlen, hmicro⟩ := printedDigits_spec hlt
  obtain ⟨hscales, hscaled⟩ := scaled_eq hds (by omega)
  have hread := timeText_print time.natAbs Decimal.ends_nil (by simp)
  rw [List.append_nil] at hread
  have hday := inDay_print htime
  rw [← hmicro, ← hscaled] at hday
  have hterm := TermAt.clock hcolon hdrop hskip
    (by rwa [trim_eq_self (unspaced_printTime _).solid]) (fits_natCast.mpr (by omega))
    (fits_natCast.mpr (by omega)) (fits_natCast.mpr (by omega)) (value_printedDigits_lt hlt) hscales
    hday rfl
  rwa [hscaled, hmicro, clock_print, hmul, ← htext] at hterm

/-- Longer times are rejected. -/
theorem parseTextTime_fails {t : Nat} (ht : 86400000000 < t) : Fails (parseTextTime (printTime t)) := by
  have hlt : t % 1000000 < 10 ^ 6 := Nat.mod_lt _ (by decide)
  obtain ⟨hds, hlen, hmicro⟩ := printedDigits_spec hlt
  obtain ⟨hscales, hscaled⟩ := scaled_eq hds (by omega)
  have htrim := trim_eq_self (unspaced_printTime t).solid
  have hread := timeText_print t Decimal.ends_nil (by simp)
  rw [List.append_nil] at hread
  by_cases hhours : Fits 4 (t / 3600000000 : Nat)
  · have hday : ¬(InDay (t / 3600000000 : Nat) (t / 60000000 % 60 : Nat) (t / 1000000 % 60 : Nat)
        (t % 1000000 : Nat) ∧ trim [] = []) := by
      rintro ⟨hday, -⟩
      unfold InDay at hday
      omega
    rw [parseTextTime_eq (by rwa [htrim]) hhours (fits_natCast.mpr (by omega))
      (fits_natCast.mpr (by omega)) (value_printedDigits_lt hlt), if_pos hscales, hscaled, hmicro,
      if_neg hday]
    exact fails_protocolValueError
  · -- the hours are no `int`
    have hprefix : Fails (parseTimePrefix (printTime t)) := by
      unfold printTime parseTimePrefix
      rw [fromCharsInt_eq (@Decimal.isInteger_padded 2 (by decide) (t / 3600000000)) (ends_colon _),
        if_neg hhours]
      exact ⟨_, rfl⟩
    unfold parseTextTime
    rw [if_neg (printTime_ne_nil t), htrim]
    exact hprefix.bind _

theorem turn_time_fails {time : Int} (htime : 86400000000 < time.natAbs) (before : Bool)
    (hrest : EndsPart rest) (to_ : PgInterval) :
    ∃ ec, intervalTurn to_ (printSignedTime time before ++ rest) = (to_, .error (.code ec)) := by
  obtain ⟨c, p, htext, hskip, -, hcolon, hdrop⟩ := time_text time before hrest
  have hpart := (isPart_time time before).skipWs rest
  rw [htext] at hpart
  obtain ⟨ec, hfail⟩ := parseTextTime_fails htime
  refine ⟨ec, ?_⟩
  unfold intervalTurn
  rw [htext, hpart]
  simp only
  rw [if_pos hcolon, clockTurn_eq hdrop hskip, hfail]
  rfl

end

/-! ## 7. Intervals -/

section
variable {i : PgInterval} {parts : List Bytes} {x : PgInterval × Parsed Unit}

/-- The years and the months are of one sign, and together the months. -/
theorem years_mons (months : Int) : 12 * months.tdiv 12 + months.tmod 12 = months ∧
    (months.tdiv 12).natAbs ≤ months.natAbs / 12 ∧ (months.tmod 12).natAbs < 12 := by
  refine ⟨Int.mul_tdiv_add_tmod months 12, ?_, ?_⟩
  · rw [Int.natAbs_tdiv]
    exact Nat.le_refl _
  · rw [Int.natAbs_tmod]
    exact Nat.mod_lt _ (by decide)

theorem fitting_count {to_ : PgInterval} {val : Int} {unit : IntervalUnit}
    (hval : Fits 4 val) (hyear : unit = .year → Fits 4 (val * 12))
    (h : (to_.plus (.count val (some unit))).InRange) : Fitting to_ [.count val (some unit)] :=
  fitting_singleton.mpr ⟨⟨hval, fun heq => hyear (Option.some.inj heq)⟩, h⟩

theorem isPart_unitParts {val : Int} {before : Bool} {unit : IntervalUnit}
    (h : ∀ part ∈ parts, IsPart part) : ∀ part ∈ unitParts val before unit ++ parts, IsPart part := by
  intro part hpart
  rcases List.mem_append.mp hpart with hpart | hpart
  · unfold unitParts at hpart
    split at hpart
    · cases hpart
    · rw [List.mem_singleton.mp hpart]
      exact isPart_unit ..
  · exact h part hpart

theorem isPart_timeParts (i : PgInterval) (before : Bool) : ∀ part ∈ timeParts i before, IsPart part := by
  intro part hpart
  unfold timeParts at hpart
  split at hpart
  · rw [List.mem_singleton.mp hpart]
    exact isPart_time ..
  · cases hpart

/-- **The years and the months add up to the months.** -/
theorem runs_months (hm : Fits 4 i.months) (before before' : Bool) (hparts : ∀ part ∈ parts, IsPart part)
    (h : Runs ⟨i.months, 0, 0⟩ (joined parts) x) :
    Runs .zero (joined (unitParts (i.months.tdiv 12) before .year ++
      (unitParts (i.months.tmod 12) before' .mon ++ parts))) x := by
  obtain ⟨hsum, hyears, hmons⟩ := years_mons i.months
  have hlimits := BigEndian.fits_four_iff.mp hm
  have hzero : Fits 4 0 ∧ Fits 8 0 := by decide
  have hyear : PgInterval.zero.plus (.count (i.months.tdiv 12) (some .year)) =
      ⟨i.months.tdiv 12 * 12, 0, 0⟩ := by
    simp [PgInterval.plus, PgInterval.zero, Term.months, Term.days, Term.time]
  have hmon : PgInterval.plus ⟨i.months.tdiv 12 * 12, 0, 0⟩ (.count (i.months.tmod 12) (some .mon)) =
      ⟨i.months, 0, 0⟩ := by
    simp only [PgInterval.plus, Term.months, Term.days, Term.time, PgInterval.mk.injEq]
    omega
  have hrange : PgInterval.InRange ⟨i.months.tdiv 12 * 12, 0, 0⟩ :=
    ⟨BigEndian.fits_four_iff.mpr (by simp only; omega), hzero.1, hzero.2⟩
  refine runs_unit before (by omega) inRange_zero
    (fitting_count (BigEndian.fits_four_iff.mpr (by omega)) ?_ ?_) (isPart_unitParts hparts) ?_
  · exact fun _ => hrange.1
  · rw [hyear]
    exact hrange
  · rw [hyear]
    refine runs_unit before' (by omega) hrange
      (fitting_count (BigEndian.fits_four_iff.mpr (by omega)) (fun h => by cases h) ?_) hparts ?_
    · rw [hmon]
      exact ⟨hm, hzero.1, hzero.2⟩
    · rwa [hmon]

/-- **The time is added**, where it is of a day at most. -/
theorem runs_time (hm : Fits 4 i.months) (hd : Fits 4 i.days) (htime : i.time.natAbs ≤ 86400000000)
    (before : Bool) : Runs ⟨i.months, i.days, 0⟩ (joined (timeParts i before)) (i, .ok ()) := by
  unfold timeParts
  split
  · have hpart := isPart_time i.time before
    have hterm := termAt_time htime before (endsPart_behindPart [])
    rw [← hpart.skipWs] at hterm
    have hsum : PgInterval.plus ⟨i.months, i.days, 0⟩ (.clock i.time) = i := by
      simp [PgInterval.plus, Term.months, Term.days, Term.time]
    have ht : Fits 8 i.time := BigEndian.fits_eight_iff.mpr (by omega)
    have hadd : PgInterval.addTerm ⟨i.months, i.days, 0⟩ (.clock i.time) = .ok i := by
      have hzero : Fits 8 0 := by decide
      have hrange : (PgInterval.plus ⟨i.months, i.days, 0⟩ (.clock i.time)).InRange := by
        rw [hsum]
        exact ⟨hm, hd, ht⟩
      have hfit : Fitting ⟨i.months, i.days, 0⟩ [.clock i.time] :=
        fitting_singleton.mpr ⟨trivial, hrange⟩
      have hto : PgInterval.InRange ⟨i.months, i.days, 0⟩ := ⟨hm, hd, hzero⟩
      rw [addTerm_of_fitting hto hfit trivial, hsum]
    have hturn := @intervalTurn_eq ⟨i.months, i.days, 0⟩ _ _ _ hterm
    rw [hadd] at hturn
    exact Runs.of_turn_ok (hpart.ne_nil _) hturn (runs_nil i)
  · rename_i hno
    have hzero : i.time = 0 := Classical.byContradiction fun hne => hno (.inr hne)
    have hsame : (⟨i.months, i.days, 0⟩ : PgInterval) = i := by rw [← hzero]
    rw [hsame]
    exact runs_nil i

/-- **The days are added**, where their digits are an `int`. -/
theorem runs_days (hm : Fits 4 i.months) (hd : Fits 4 i.days) (hdays : i.days.natAbs < 2 ^ 31)
    (before : Bool) (hparts : ∀ part ∈ parts, IsPart part)
    (h : Runs ⟨i.months, i.days, 0⟩ (joined parts) x) :
    Runs ⟨i.months, 0, 0⟩ (joined (unitParts i.days before .day ++ parts)) x := by
  have hzero : Fits 4 0 ∧ Fits 8 0 := by decide
  have hsum : PgInterval.plus ⟨i.months, 0, 0⟩ (.count i.days (some .day)) = ⟨i.months, i.days, 0⟩ := by
    simp [PgInterval.plus, Term.months, Term.days, Term.time]
  refine runs_unit before hdays ⟨hm, hzero.1, hzero.2⟩ (fitting_count hd (fun h => by cases h) ?_) hparts ?_
  · rw [hsum]
    exact ⟨hm, hd, hzero.2⟩
  · rwa [hsum]

theorem printInterval_ne_nil (i : PgInterval) : printInterval i ≠ [] := by
  have hall : ∀ part ∈ intervalParts i, IsPart part := by
    unfold intervalParts
    exact isPart_unitParts (isPart_unitParts (isPart_unitParts (isPart_timeParts i _)))
  have hne : intervalParts i ≠ [] := by
    intro hnil
    have hunit : ∀ {val : Int} {before : Bool} {unit : IntervalUnit},
        unitParts val before unit = [] → val = 0 := by
      intro val before unit h
      unfold unitParts at h
      split at h
      · assumption
      · cases h
    unfold intervalParts at hnil
    simp only [List.append_eq_nil_iff] at hnil
    obtain ⟨hy, hm, hd, ht⟩ := hnil
    have hmonths := (years_mons i.months).1
    rw [hunit hy, hunit hm] at hmonths
    unfold timeParts at ht
    rw [if_pos (.inl ⟨by omega, hunit hd⟩)] at ht
    cases ht
  unfold printInterval
  obtain ⟨part, parts, hcons⟩ := List.exists_cons_of_ne_nil hne
  rw [hcons]
  exact (hall part (by rw [hcons]; exact List.mem_cons_self ..)).ne_nil _

/-- **What the loop comes to on the text of an interval.** -/
theorem runs_print (hm : Fits 4 i.months) (hd : Fits 4 i.days) :
    (i.time.natAbs ≤ 86400000000 ∧ i.days ≠ -2147483648 →
      Runs .zero (printInterval i) (i, .ok ())) ∧
    (¬(i.time.natAbs ≤ 86400000000 ∧ i.days ≠ -2147483648) →
      ∃ to_ ec, Runs .zero (printInterval i) (to_, .error (.code ec))) := by
  have hdays : i.days ≠ -2147483648 ↔ i.days.natAbs < 2 ^ 31 := by
    unfold Fits at hd
    omega
  unfold printInterval intervalParts
  constructor
  · rintro ⟨htime, hmin⟩
    exact runs_months hm _ _ (isPart_unitParts (isPart_timeParts i _))
      (runs_days hm hd (hdays.mp hmin) _ (isPart_timeParts i _) (runs_time hm hd htime _))
  · intro hno
    by_cases hmin : i.days = -2147483648
    · -- the digits of the days are no `int`
      have hval : i.days ≠ 0 := by omega
      obtain ⟨ec, hturn⟩ := turn_unit_fails (show 2 ^ 31 ≤ i.days.natAbs by omega)
        (beforeNext (i.months.tmod 12) (beforeNext (i.months.tdiv 12) false)) .day
        (behindPart (timeParts i (beforeNext i.days
          (beforeNext (i.months.tmod 12) (beforeNext (i.months.tdiv 12) false))))) ⟨i.months, 0, 0⟩
      refine ⟨⟨i.months, 0, 0⟩, ec, runs_months hm _ _ (isPart_unitParts (isPart_timeParts i _)) ?_⟩
      unfold unitParts
      rw [if_neg hval]
      exact Runs.of_turn_error ((isPart_unit ..).ne_nil _) hturn
    · -- the time is longer than a day
      have htime : 86400000000 < i.time.natAbs := by omega
      obtain ⟨ec, hturn⟩ := turn_time_fails htime (beforeNext i.days
        (beforeNext (i.months.tmod 12) (beforeNext (i.months.tdiv 12) false)))
        (endsPart_behindPart []) ⟨i.months, i.days, 0⟩
      refine ⟨⟨i.months, i.days, 0⟩, ec, runs_months hm _ _ (isPart_unitParts (isPart_timeParts i _))
        (runs_days hm hd (hdays.mp hmin) _ (isPart_timeParts i _) ?_)⟩
      unfold timeParts
      rw [if_pos (.inr (by omega))]
      exact Runs.of_turn_error ((isPart_time ..).ne_nil _) hturn

end

theorem parseBinaryInterval_ofInt {i : PgInterval} (hm : Fits 4 i.months) (hd : Fits 4 i.days)
    (ht : Fits 8 i.time) :
    parseBinaryInterval (ofInt 8 i.time ++ (ofInt 4 i.days ++ ofInt 4 i.months)) = .ok i := by
  have hlen := BigEndian.length_ofInt 8 i.time
  have hlen' := BigEndian.length_ofInt 4 i.days
  have hlen'' := BigEndian.length_ofInt 4 i.months
  have hmonths : (ofInt 8 i.time ++ (ofInt 4 i.days ++ ofInt 4 i.months)).drop 12 =
      ofInt 4 i.months := by
    rw [← List.append_assoc]
    exact List.drop_left' (by rw [List.length_append, hlen, hlen'])
  unfold parseBinaryInterval
  rw [if_neg (by simp), hmonths, List.drop_left' hlen, List.take_left' hlen, List.take_left' hlen',
    List.take_of_length_le (by omega), BigEndian.toInt_ofInt hm, BigEndian.toInt_ofInt hd,
    BigEndian.toInt_ofInt ht]

/-- **The two forms of an interval are decoded to one interval if and only if** its time is of a day
    at most and its days are not the least `int`. -/
theorem interval_forms_agree_iff (i : PgInterval) (hm : Fits 4 i.months) (hd : Fits 4 i.days)
    (ht : Fits 8 i.time) :
    (∃ v, parseTextInterval (printInterval i) = some (v, .ok ()) ∧
      parseBinaryInterval (ofInt 8 i.time ++ (ofInt 4 i.days ++ ofInt 4 i.months)) = .ok v) ↔
      i.time.natAbs ≤ 86400000000 ∧ i.days ≠ -2147483648 := by
  obtain ⟨hgood, hbad⟩ := runs_print hm hd
  rw [parseBinaryInterval_ofInt hm hd ht]
  constructor
  · rintro ⟨v, htext, -⟩
    refine Classical.byContradiction fun hno => ?_
    obtain ⟨to_, ec, hrun⟩ := hbad hno
    rw [hrun.parseTextInterval (printInterval_ne_nil i), Option.some.injEq, Prod.mk.injEq] at htext
    cases htext.2
  · intro h
    exact ⟨i, (hgood h).parseTextInterval (printInterval_ne_nil i), rfl⟩

/-- Both forms of this interval are decoded to it: all its fields are there, with both signs. -/
theorem interval_forms_agree_mixed :
    printInterval ⟨-13, 3, -14706789000⟩ = ascii "-1 years -1 mons +3 days -04:05:06.789" ∧
      ∃ v, parseTextInterval (printInterval ⟨-13, 3, -14706789000⟩) = some (v, .ok ()) ∧
        parseBinaryInterval (ofInt 8 (-14706789000) ++ (ofInt 4 3 ++ ofInt 4 (-13))) = .ok v :=
  ⟨by decide, (interval_forms_agree_iff ⟨-13, 3, -14706789000⟩ (by decide) (by decide)
    (by decide)).mpr ⟨by decide, by decide⟩⟩

/-- A second more than a day is rejected. -/
theorem interval_of_a_day_and_a_second :
    ¬∀ i : PgInterval, Fits 4 i.months → Fits 4 i.days → Fits 8 i.time →
      ∃ v, parseTextInterval (printInterval i) = some (v, .ok ()) ∧
        parseBinaryInterval (ofInt 8 i.time ++ (ofInt 4 i.days ++ ofInt 4 i.months)) = .ok v := by
  intro h
  have hm : Fits 4 (PgInterval.mk 0 0 86401000000).months := by decide
  have hd : Fits 4 (PgInterval.mk 0 0 86401000000).days := by decide
  obtain ⟨v, htext, -⟩ := h ⟨0, 0, 86401000000⟩ hm hd (by decide)
  obtain ⟨to_, ec, hrun⟩ := (runs_print hm hd).2 (by decide)
  rw [hrun.parseTextInterval (printInterval_ne_nil _), Option.some.injEq, Prod.mk.injEq] at htext
  cases htext.2

end Types

end NativePg
