/-
  File:      NativePg/Types/Stamps.lean
  Subject:   The texts of zones and timestamps, and what the scanners read of them.

  * `ZoneText` -- the zones: none, a name of UTC, or hours and minutes with a sign.
    `parseTzSuffix_eq`, `parseTzSuffix_cases`: these are read, and nothing else is;
  * `Splits` -- a timestamp as a date and a time. `parseDayAndTime_eq`, `parseDayAndTime_cases`;
  * `IsWord` -- the texts of the infinities. `parseInfinity_integer`: none of them begins with an
    integer.
-/
import NativePg.Types.Texts

namespace NativePg

namespace Types

open BigEndian (Fits)
open Decimal (AllDigits Ends IsInteger isDigit value)
open Trimmed (All Solid)

/-! ## 1. Zones -/

/-- A plus or a minus. -/
def IsSign (c : UInt8) : Prop := c = 43 ∨ c = 45

instance (c : UInt8) : Decidable (IsSign c) := inferInstanceAs (Decidable (_ ∨ _))

/-- What the sign makes of a number. -/
def signed (c : UInt8) (n : Int) : Int := if c = 43 then n else -n

/-- The names of UTC. -/
def IsUtc (s : Bytes) : Prop :=
  (iequals s (ascii "Z") || iequals s (ascii "UTC") || iequals s (ascii "UT") ||
    iequals s (ascii "GMT")) = true

/-- **The text is a zone**, so many seconds east of UTC. -/
inductive ZoneText : Bytes → Int → Prop where
  | none : ZoneText [] 0
  | utc {s : Bytes} (h : IsUtc s) : ZoneText s 0
  | hours {sign : UInt8} {hh : Bytes} (hsign : IsSign sign) (hlen : hh.length = 1 ∨ hh.length = 2)
      (hds : AllDigits hh) (hle : value hh ≤ 15) :
      ZoneText (sign :: hh) (signed sign (3600 * value hh))
  | colon {sign : UInt8} {hh mm : Bytes} (hsign : IsSign sign)
      (hlen : hh.length = 1 ∨ hh.length = 2) (hds : AllDigits hh) (hle : value hh ≤ 15)
      (hlen' : mm.length = 2) (hds' : AllDigits mm) (hle' : value mm ≤ 59) :
      ZoneText (sign :: (hh ++ 58 :: mm)) (signed sign (3600 * value hh + 60 * value mm))
  | compact {sign : UInt8} {hh mm : Bytes} (hsign : IsSign sign) (hlen : hh.length = 2)
      (hds : AllDigits hh) (hle : value hh ≤ 15) (hlen' : mm.length = 2) (hds' : AllDigits mm)
      (hle' : value mm ≤ 59) :
      ZoneText (sign :: (hh ++ mm)) (signed sign (3600 * value hh + 60 * value mm))

theorem not_isUtc_sign {c : UInt8} (h : IsSign c) (p : Bytes) : ¬IsUtc (c :: p) := by
  have hlower : tolower c = c := by
    rcases h with rfl | rfl <;> rfl
  have hno : ∀ {w : Bytes}, c ∉ w → (c :: p).map tolower ≠ w := by
    intro w hw heq
    rw [List.map_cons, hlower] at heq
    exact hw (heq ▸ List.mem_cons_self ..)
  unfold IsUtc iequals
  simp only [Bool.or_eq_true, beq_iff_eq, not_or]
  rcases h with rfl | rfl
  · exact ⟨⟨⟨hno (by decide), hno (by decide)⟩, hno (by decide)⟩, hno (by decide)⟩
  · exact ⟨⟨⟨hno (by decide), hno (by decide)⟩, hno (by decide)⟩, hno (by decide)⟩

theorem ZoneText.bounds {s : Bytes} {offset : Int} (h : ZoneText s offset) :
    -57600 < offset ∧ offset < 57600 := by
  cases h with
  | none => decide
  | utc _ => decide
  | hours _ _ _ _ =>
    unfold signed
    split
    · omega
    · omega
  | colon _ _ _ _ _ _ _ =>
    unfold signed
    split
    · omega
    · omega
  | compact _ _ _ _ _ _ _ =>
    unfold signed
    split
    · omega
    · omega

/-- The loop reads two digits at most. -/
theorem tzHours_digits {hh p : Bytes} : ∀ {hours digits : Nat}, AllDigits hh →
    digits + hh.length ≤ 2 → (digits + hh.length = 2 ∨ Ends p) →
    tzHours hours digits (hh ++ p) = (hours * 10 ^ hh.length + value hh, digits + hh.length, p) := by
  induction hh with
  | nil =>
    intro hours digits _ hle hends
    rw [List.nil_append, Decimal.value_nil, List.length_nil, Nat.pow_zero, Nat.mul_one, Nat.add_zero,
      Nat.add_zero]
    cases p with
    | nil => rfl
    | cons c p =>
      rw [tzHours, if_neg]
      rintro ⟨hc, hlt⟩
      rcases hends with hends | hends
      · rw [List.length_nil] at hends
        omega
      · have := hends c rfl
        rw [hc] at this
        cases this
  | cons c hh ih =>
    intro hours digits hds hle hends
    obtain ⟨hc, hds⟩ := List.forall_mem_cons.mp hds
    rw [List.length_cons] at hle hends
    have hstep : digits + 1 + hh.length = digits + (hh.length + 1) := by omega
    rw [List.cons_append, tzHours, if_pos ⟨hc, by omega⟩, ih hds (by omega) (by rwa [hstep]), hstep,
      List.length_cons, Decimal.value_cons, Nat.add_mul, Nat.pow_succ, Nat.add_assoc]
    congr 2
    rw [Nat.mul_assoc, Nat.mul_comm 10]

/-- Every text is what the loop takes of it, and the rest. -/
theorem exists_tzHours (p : Bytes) : ∃ hh rest, p = hh ++ rest ∧ AllDigits hh ∧ hh.length ≤ 2 ∧
    (hh.length = 2 ∨ Ends rest) := by
  have hds := Decimal.allDigits_takeWhile p
  have hsplit := List.takeWhile_append_dropWhile (p := isDigit) (l := p)
  by_cases hlong : 2 ≤ (p.takeWhile isDigit).length
  · refine ⟨(p.takeWhile isDigit).take 2, (p.takeWhile isDigit).drop 2 ++ p.dropWhile isDigit, ?_,
      fun c hc => hds c (List.mem_of_mem_take hc), ?_, .inl ?_⟩
    · rw [← List.append_assoc, List.take_append_drop, hsplit]
    · rw [List.length_take]
      omega
    · rw [List.length_take]
      omega
  · exact ⟨p.takeWhile isDigit, p.dropWhile isDigit, hsplit.symm, hds, by omega,
      .inr (Decimal.ends_dropWhile p)⟩

theorem tzMinutes_eq {mm : Bytes} (hlen : mm.length = 2) (hds : AllDigits mm) (rest : Bytes) :
    tzMinutes (mm ++ rest) = .ok (value mm, rest) := by
  obtain ⟨c, c', rfl⟩ := List.length_eq_two.mp hlen
  have hc := hds c (by simp)
  have hc' := hds c' (by simp)
  rw [List.cons_append, List.cons_append, List.nil_append, tzMinutes, hc, hc']
  simp [value, Nat.mul_comm]

theorem tzMinutes_cases (p : Bytes) : Fails (tzMinutes p) ∨ ∃ mm rest, p = mm ++ rest ∧
    mm.length = 2 ∧ AllDigits mm := by
  match p with
  | [] => exact .inl fails_protocolValueError
  | [_] => exact .inl fails_protocolValueError
  | c :: c' :: rest =>
    by_cases hds : isDigit c = true ∧ isDigit c' = true
    · refine .inr ⟨[c, c'], rest, rfl, rfl, ?_⟩
      intro x hx
      rcases List.mem_cons.mp hx with rfl | hx
      · exact hds.1
      · rw [List.mem_singleton.mp hx]
        exact hds.2
    · left
      rw [tzMinutes, if_pos]
      · exact fails_protocolValueError
      · rw [Bool.or_eq_true, Bool.not_eq_true', Bool.not_eq_true']
        rw [not_and_or, Bool.not_eq_true, Bool.not_eq_true] at hds
        exact hds

/-- What `parse_tz_suffix` does behind the hours. -/
def behindHours (sign : UInt8) (hours : Nat) (p : Bytes) : Parsed Int := do
  let (minutes, p) ← match p with
    | [] => .ok (0, [])
    | c :: rest =>
        if c = 58 then tzMinutes rest
        else if isDigit c then
          if (c :: rest).length ≠ 2 then protocolValueError else tzMinutes (c :: rest)
        else protocolValueError
  if p ≠ [] then protocolValueError
  else if hours > 15 ∨ minutes > 59 then protocolValueError
  else .ok ((3600 * hours + 60 * minutes) * (if sign = 43 then 1 else -1))

theorem signed_eq (sign : UInt8) (n : Int) : n * (if sign = 43 then 1 else -1) = signed sign n := by
  unfold signed
  split
  · rw [Int.mul_one]
  · rw [Int.mul_neg_one]

/-- Behind a sign. -/
theorem parseTzSuffix_sign {sv hh rest : Bytes} {sign : UInt8} (hsv : trim sv = sign :: (hh ++ rest))
    (hsign : IsSign sign) (hds : AllDigits hh) (hle : hh.length ≤ 2)
    (hends : hh.length = 2 ∨ Ends rest) :
    parseTzSuffix sv =
      if hh.length = 0 then protocolValueError else behindHours sign (value hh) rest := by
  have hutc := not_isUtc_sign hsign (hh ++ rest)
  unfold IsUtc at hutc
  have hhours := @tzHours_digits hh rest 0 0 hds (by omega) (by rwa [Nat.zero_add])
  unfold parseTzSuffix
  simp only
  rw [hsv, if_neg (List.cons_ne_nil _ _), if_neg hutc]
  simp only
  rw [if_neg (by rintro ⟨hplus, hminus⟩; exact hsign.elim hplus hminus), hhours]
  simp only [Nat.zero_mul, Nat.zero_add]
  rfl

/-- What `parse_tz_suffix` does with the hours and the minutes. -/
def zoneEnd (sign : UInt8) (hours minutes : Nat) (p : Bytes) : Parsed Int :=
  if p ≠ [] then protocolValueError
  else if hours > 15 ∨ minutes > 59 then protocolValueError
  else .ok ((3600 * hours + 60 * minutes) * (if sign = 43 then 1 else -1))

theorem zoneEnd_eq (sign : UInt8) {hours minutes : Nat} (hle : hours ≤ 15) (hle' : minutes ≤ 59) :
    zoneEnd sign hours minutes [] = .ok (signed sign (3600 * hours + 60 * minutes)) := by
  rw [zoneEnd, if_neg (not_not.mpr rfl), if_neg (by omega), signed_eq]

theorem zoneEnd_cases (sign : UInt8) (hours minutes : Nat) (p : Bytes) :
    Fails (zoneEnd sign hours minutes p) ∨ (p = [] ∧ hours ≤ 15 ∧ minutes ≤ 59) := by
  unfold zoneEnd
  by_cases hend : p = []
  · by_cases hrange : hours > 15 ∨ minutes > 59
    · rw [if_neg (not_not.mpr hend), if_pos hrange]
      exact .inl fails_protocolValueError
    · exact .inr ⟨hend, by omega, by omega⟩
  · rw [if_pos hend]
    exact .inl fails_protocolValueError

/-- Minutes are two digits at the end of the text. -/
theorem tzMinutes_end_cases (sign : UInt8) (hours : Nat) (q : Bytes) :
    Fails (tzMinutes q >>= fun (minutes, p) => zoneEnd sign hours minutes p) ∨
      (q.length = 2 ∧ AllDigits q ∧ hours ≤ 15 ∧ value q ≤ 59) := by
  rcases tzMinutes_cases q with hfail | ⟨mm, rest, rfl, hlen, hds⟩
  · exact .inl (hfail.bind _)
  rw [tzMinutes_eq hlen hds, ok_bind]
  rcases zoneEnd_cases sign hours (value mm) rest with hfail | ⟨rfl, hle, hle'⟩
  · exact .inl hfail
  · rw [List.append_nil]
    exact .inr ⟨hlen, hds, hle, hle'⟩

theorem behindHours_colon (sign : UInt8) (hours : Nat) (rest : Bytes) :
    behindHours sign hours (58 :: rest) =
      tzMinutes rest >>= fun (minutes, p) => zoneEnd sign hours minutes p := rfl

theorem behindHours_digits (sign : UInt8) (hours : Nat) {c : UInt8} {rest : Bytes}
    (hc : isDigit c = true) (hlen : (c :: rest).length = 2) :
    behindHours sign hours (c :: rest) =
      tzMinutes (c :: rest) >>= fun (minutes, p) => zoneEnd sign hours minutes p := by
  have hne : c ≠ 58 := by
    rintro rfl
    cases hc
  unfold behindHours
  simp only
  rw [if_neg hne, if_pos hc, if_neg (not_not.mpr hlen)]
  rfl

/-- **A zone is read.** -/
theorem parseTzSuffix_eq {sv : Bytes} {offset : Int} (h : ZoneText (trim sv) offset) :
    parseTzSuffix sv = .ok offset := by
  generalize hsv : trim sv = s at h
  cases h with
  | none => exact if_pos hsv
  | utc h =>
    by_cases hnil : trim sv = []
    · exact if_pos hnil
    · rw [← hsv] at h
      exact (if_neg hnil).trans (if_pos h)
  | @hours sign hh hsign hlen hds hle =>
    rw [← List.append_nil hh] at hsv
    rw [parseTzSuffix_sign hsv hsign hds (by omega) (.inr Decimal.ends_nil), if_neg (by omega)]
    refine (zoneEnd_eq sign hle (Nat.zero_le 59)).trans ?_
    rw [Nat.cast_zero, Int.mul_zero, Int.add_zero]
  | @colon sign hh mm hsign hlen hds hle hlen' hds' hle' =>
    have hmin := tzMinutes_eq hlen' hds' []
    rw [List.append_nil] at hmin
    rw [parseTzSuffix_sign hsv hsign hds (by omega) (.inr (ends_colon mm)), if_neg (by omega),
      behindHours_colon, hmin, ok_bind]
    exact zoneEnd_eq sign hle hle'
  | @compact sign hh mm hsign hlen hds hle hlen' hds' hle' =>
    have hmin := tzMinutes_eq hlen' hds' []
    rw [List.append_nil] at hmin
    rw [parseTzSuffix_sign hsv hsign hds (by omega) (.inl hlen), if_neg (by omega)]
    cases mm with
    | nil => cases hlen'
    | cons c mm =>
      rw [behindHours_digits sign _ (hds' c (List.mem_cons_self ..)) hlen', hmin, ok_bind]
      exact zoneEnd_eq sign hle hle'

/-- Behind the hours, the text is a zone or an error. -/
theorem behindHours_cases {sign : UInt8} {hh rest : Bytes} (hsign : IsSign sign)
    (hlen : hh.length = 1 ∨ hh.length = 2) (hds : AllDigits hh) (hends : hh.length = 2 ∨ Ends rest) :
    Fails (behindHours sign (value hh) rest) ∨ ∃ offset, ZoneText (sign :: (hh ++ rest)) offset := by
  cases rest with
  | nil =>
    change Fails (zoneEnd sign (value hh) 0 []) ∨ _
    rcases zoneEnd_cases sign (value hh) 0 [] with hfail | ⟨-, hle, -⟩
    · exact .inl hfail
    · rw [List.append_nil]
      exact .inr ⟨_, .hours hsign hlen hds hle⟩
  | cons d rest =>
    by_cases hcolon : d = 58
    · subst hcolon
      rw [behindHours_colon]
      rcases tzMinutes_end_cases sign (value hh) rest with hfail | ⟨hlen', hds', hle, hle'⟩
      · exact .inl hfail
      · exact .inr ⟨_, .colon hsign hlen hds hle hlen' hds' hle'⟩
    by_cases hdigit : isDigit d = true
    · by_cases htwo : (d :: rest).length = 2
      · rw [behindHours_digits sign _ hdigit htwo]
        rcases tzMinutes_end_cases sign (value hh) (d :: rest) with hfail | ⟨hlen', hds', hle, hle'⟩
        · exact .inl hfail
        · -- a digit goes on behind two digits only
          refine .inr ⟨_, .compact hsign (hends.resolve_right fun hend => ?_) hds hle hlen' hds' hle'⟩
          have := hend d rfl
          rw [hdigit] at this
          cases this
      · unfold behindHours
        simp only
        rw [if_neg hcolon, if_pos hdigit, if_pos htwo]
        exact .inl (fails_protocolValueError.bind _)
    · unfold behindHours
      simp only
      rw [if_neg hcolon, if_neg hdigit]
      exact .inl (fails_protocolValueError.bind _)

/-- **Nothing else is.** -/
theorem parseTzSuffix_cases (sv : Bytes) :
    Fails (parseTzSuffix sv) ∨ ∃ offset, ZoneText (trim sv) offset := by
  cases hsv : trim sv with
  | nil => exact .inr ⟨0, .none⟩
  | cons c p =>
    by_cases hutc : IsUtc (c :: p)
    · exact .inr ⟨0, .utc hutc⟩
    by_cases hsign : IsSign c
    · obtain ⟨hh, rest, rfl, hds, hle, hends⟩ := exists_tzHours p
      rw [parseTzSuffix_sign hsv hsign hds hle hends]
      by_cases hzero : hh.length = 0
      · rw [if_pos hzero]
        exact .inl fails_protocolValueError
      · rw [if_neg hzero]
        exact behindHours_cases hsign (by omega) hds hends
    · left
      unfold parseTzSuffix
      simp only
      unfold IsUtc at hutc
      unfold IsSign at hsign
      rw [hsv, if_neg (List.cons_ne_nil _ _), if_neg hutc]
      simp only
      rw [if_pos (not_or.mp hsign)]
      exact fails_protocolValueError

/-! ## 2. Timestamps -/

/-- **The text is a date and a time**, each as the scanner of it is given it: `dateSv` ends at the
    first space or `T`, and `time` has no white space around it. -/
def Splits (text : Bytes) (bc : Bool) (dateSv time : Bytes) : Prop :=
  ∃ core sep gap, Era bc text core ∧ Solid isspace core ∧ core = dateSv ++ sep :: (gap ++ time) ∧
    (∀ c ∈ dateSv, beforeSep c = true) ∧ beforeSep sep = false ∧ All isspace gap ∧ Solid isspace time

section
variable {text dateSv time : Bytes} {bc : Bool}

theorem split_core {core gap : Bytes} {sep : UInt8} (hcore : core = dateSv ++ sep :: (gap ++ time))
    (hdate : ∀ c ∈ dateSv, beforeSep c = true) (hsep : beforeSep sep = false) :
    core.dropWhile beforeSep = sep :: (gap ++ time) ∧ core.takeWhile beforeSep = dateSv := by
  subst hcore
  rw [List.dropWhile_append_of_pos hdate, List.takeWhile_append_of_pos hdate,
    List.dropWhile_cons_of_neg (by simp [hsep]), List.takeWhile_cons_of_neg (by simp [hsep]),
    List.append_nil]
  exact ⟨rfl, rfl⟩

theorem Splits.unique {bc' : Bool} {dateSv' time' : Bytes} (h : Splits text bc dateSv time)
    (h' : Splits text bc' dateSv' time') : bc = bc' ∧ dateSv = dateSv' ∧ time = time' := by
  obtain ⟨core, sep, gap, hera, hsolid, hcore, hdate, hsep, hgap, htime⟩ := h
  obtain ⟨core', sep', gap', hera', hsolid', hcore', hdate', hsep', hgap', htime'⟩ := h'
  have hbc := consumeBc_eq hera hsolid (by simp [hcore])
  rw [consumeBc_eq hera' hsolid' (by simp [hcore']), Prod.mk.injEq] at hbc
  obtain ⟨rfl, rfl⟩ := hbc
  obtain ⟨hdrop, htake⟩ := split_core hcore hdate hsep
  obtain ⟨hdrop', htake'⟩ := split_core hcore' hdate' hsep'
  rw [hdrop, List.cons.injEq] at hdrop'
  refine ⟨rfl, htake.symm.trans htake', ?_⟩
  rw [← trim_cons hgap htime, ← trim_cons hgap' htime', hdrop'.2]

/-- **The date and the time of a timestamp are read one after the other.** -/
theorem parseDayAndTime_eq (h : Splits text bc dateSv time) :
    parseDayAndTime text = (do
      let ymd ← parseYmd bc dateSv
      let (tod, pos) ← parseTimePrefix time
      .ok (ymd, tod, pos)) := by
  obtain ⟨core, sep, gap, hera, hsolid, hcore, hdate, hsep, hgap, htime⟩ := h
  obtain ⟨hdrop, htake⟩ := split_core hcore hdate hsep
  unfold parseDayAndTime
  rw [consumeBc_eq hera hsolid (by simp [hcore])]
  simp only [trim_eq_self hsolid, hdrop, htake, trim_cons hgap htime]

/-- **Nothing else is read.** -/
theorem parseDayAndTime_cases (text : Bytes) :
    Fails (parseDayAndTime text) ∨ ∃ bc dateSv time, Splits text bc dateSv time := by
  obtain ⟨hera, hsolid⟩ := era_consumeBc text
  have hsplit := List.takeWhile_append_dropWhile (p := beforeSep) (l := (consumeBc text).2)
  cases hdrop : (consumeBc text).2.dropWhile beforeSep with
  | nil =>
    left
    unfold parseDayAndTime
    simp only [trim_eq_self hsolid, hdrop]
    exact fails_protocolValueError
  | cons sep timeSv =>
    right
    have hsep : beforeSep sep = false :=
      Trimmed.head_dropWhile (p := beforeSep) (consumeBc text).2 sep (by rw [hdrop]; rfl)
    -- the time ends where the text does
    have hlast : ∀ c ∈ timeSv.getLast?, isspace c = false := by
      intro c hc
      refine hsolid.2 c ?_
      rw [← hsplit, hdrop, List.getLast?_append_of_ne_nil _ (List.cons_ne_nil _ _), List.getLast?_cons,
        Option.mem_def.mp hc]
      rfl
    have hgap := Trimmed.all_takeWhile isspace timeSv
    have hfront := Trimmed.head_dropWhile (p := isspace) timeSv
    have htime : Solid isspace (timeSv.dropWhile isspace) := by
      refine ⟨hfront, fun c hc => hlast c ?_⟩
      have hne : timeSv.dropWhile isspace ≠ [] := by
        intro hnil
        rw [hnil] at hc
        cases hc
      rw [← List.takeWhile_append_dropWhile (p := isspace) (l := timeSv),
        List.getLast?_append_of_ne_nil _ hne]
      exact hc
    refine ⟨(consumeBc text).1, (consumeBc text).2.takeWhile beforeSep, timeSv.dropWhile isspace,
      (consumeBc text).2, sep, timeSv.takeWhile isspace, hera, hsolid, ?_, ?_, hsep, hgap, htime⟩
    · rw [List.takeWhile_append_dropWhile, ← hdrop, hsplit]
    · exact Trimmed.all_takeWhile beforeSep _

end

/-! ## 3. Infinities -/

/-- The text is the word, in any case, with white space around it. -/
def IsWord (w : String) (text : Bytes) : Prop := iequals (trim text) (ascii w) = true

instance (w : String) (text : Bytes) : Decidable (IsWord w text) := inferInstanceAs (Decidable (_ = true))

theorem parseInfinity_eq (max min : Int) (text : Bytes) :
    parseInfinity max min text =
      if IsWord "infinity" text then some max else if IsWord "-infinity" text then some min else none :=
  rfl

/-- **No infinity begins with an integer.** -/
theorem not_isWord_integer {a ys : Bytes} {year : Int} (ha : All isspace a) (h : IsInteger ys year)
    (rest : Bytes) :
    ¬IsWord "infinity" (a ++ (ys ++ rest)) ∧ ¬IsWord "-infinity" (a ++ (ys ++ rest)) := by
  obtain ⟨rest', htrim⟩ := Trimmed.exists_strip_append ha (solid_integer h) h.ne_nil rest
  change trim (a ++ (ys ++ rest)) = ys ++ rest' at htrim
  have hword : (ascii "infinity").map tolower = 105 :: (ascii "nfinity") := by decide
  have hword' : (ascii "-infinity").map tolower = 45 :: 105 :: (ascii "nfinity") := by decide
  -- a digit is its own lower case, and not a letter
  have hdigit : ∀ {c d : UInt8}, isDigit c = true → isDigit d = false → tolower c ≠ d := by
    intro c d hc hd heq
    rw [tolower_of_isDigit hc] at heq
    rw [heq, hd] at hc
    cases hc
  unfold IsWord iequals
  rw [htrim, hword, hword', beq_iff_eq, beq_iff_eq]
  cases h with
  | nonneg hne hds =>
    obtain ⟨c, ds, rfl⟩ := List.exists_cons_of_ne_nil hne
    have hc := hds c (List.mem_cons_self ..)
    rw [List.cons_append, List.map_cons, List.cons.injEq, List.cons.injEq]
    exact ⟨fun h => hdigit hc (by decide) h.1, fun h => hdigit hc (by decide) h.1⟩
  | neg hne hds =>
    obtain ⟨c, ds, rfl⟩ := List.exists_cons_of_ne_nil hne
    have hc := hds c (List.mem_cons_self ..)
    rw [List.cons_append, List.cons_append, List.map_cons, List.map_cons, List.cons.injEq,
      List.cons.injEq, List.cons.injEq]
    exact ⟨fun h => absurd h.1 (by decide), fun h => hdigit hc (by decide) h.2.1⟩

section
variable {text core : Bytes} {bc : Bool} {year month day : Int}

theorem Era.exists_prefix (h : Era bc text core) :
    ∃ a rest, text = a ++ (core ++ rest) ∧ All isspace a := by
  cases h with
  | @ad a _ b ha _ _ => exact ⟨a, b, by rw [List.append_assoc], ha⟩
  | @bc a _ gap s b ha _ _ _ => exact ⟨a, gap ++ s ++ b, by simp, ha⟩

/-- **A date is no infinity.** -/
theorem DateParts.not_isWord (hera : Era bc text core) (h : DateParts core year month day) :
    ¬IsWord "infinity" text ∧ ¬IsWord "-infinity" text := by
  obtain ⟨a, rest, rfl, ha⟩ := hera.exists_prefix
  obtain ⟨ys, ms, ds, rfl, hy, -⟩ := h
  have hno := not_isWord_integer ha hy (45 :: (ms ++ 45 :: ds) ++ rest)
  rwa [← List.append_assoc ys] at hno

theorem Splits.not_isWord {dateSv time : Bytes} (h : Splits text bc dateSv time)
    (hdate : DateParts (trim dateSv) year month day) :
    ¬IsWord "infinity" text ∧ ¬IsWord "-infinity" text := by
  obtain ⟨core, sep, gap, hera, -, hcore, -⟩ := h
  obtain ⟨a, rest, rfl, ha⟩ := hera.exists_prefix
  obtain ⟨a', b, hsplit, ha', -⟩ := Trimmed.exists_strip isspace dateSv
  change dateSv = a' ++ trim dateSv ++ b at hsplit
  obtain ⟨ys, ms, ds, hparts, hy, -⟩ := hdate
  have hno := not_isWord_integer (ha.append ha') hy
    (45 :: (ms ++ 45 :: ds) ++ b ++ sep :: (gap ++ time) ++ rest)
  rw [hcore, hsplit, hparts]
  simpa using hno

end

end Types

end NativePg
