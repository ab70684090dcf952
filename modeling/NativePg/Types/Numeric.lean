/-
  File:      NativePg/Types/Numeric.lean
  Subject:   The decoders of "numeric" (include/nativepg/types/numeric.hpp), translated.

  * `countSignificantDigitsText`, `countSignificantDigitsBinary` -- what guards the precision;
  * `NumberType` -- what the decoders use of a Boost.Multiprecision number;
  * `parseTextNumeric`, `parseBinaryNumeric` -- the decoders;
  * `parseTextNumeric_guard_iff`, `parseBinaryNumeric_guard_iff` -- when a value is too precise;
  * `counts_countSignificantDigitsText`, `counts_countSignificantDigitsBinary` -- which digits are
    counted. `trailing_le_total`: no difference is negative on the way.
-/
import NativePg.Lib.Significant
import NativePg.Types.Scan

namespace NativePg

namespace Types

open BigEndian (toInt toNat)
open Decimal (AllDigits digits fixed isDigit value)
open Significant (Counts coefficient)

/-! ## 1. Significant digits -/

/-- `detail::count_significant_digits_text`. -/
def countSignificantDigitsText (s : Bytes) : Nat :=
  let ws := if s.head? = some 43 ∨ s.head? = some 45 then s.drop 1 else s
  let numericPart := ws.takeWhile fun c => isDigit c || c == 46
  (((numericPart.filter (· != 46)).dropWhile (· == 48)).reverse.dropWhile (· == 48)).length

/-- `load`: one group, big endian. -/
def load (groups : Bytes) (i : Nat) : Nat := toNat ((groups.drop (i * 2)).take 2)

/-- `for (; g % 10 == 0; g /= 10) ++trailing`, where `fuel` is at least `g`. -/
def trailingZeros : (fuel : Nat) → (g : Nat) → Nat
  | 0, _ => 0
  | fuel + 1, g => if g % 10 = 0 then trailingZeros fuel (g / 10) + 1 else 0

/-- How wide the most significant group is without leading zeros. -/
def leadWidth (first : Nat) : Nat :=
  if 1000 ≤ first then 4 else if 100 ≤ first then 3 else if 10 ≤ first then 2 else 1

/-- How many groups at the end are zero. -/
def zeroGroups (ndigits : Nat) (groups : Bytes) : Nat :=
  ((List.range ndigits).reverse.takeWhile fun i => load groups i == 0).length

/-- `detail::count_significant_digits_binary`. -/
def countSignificantDigitsBinary (ndigits : Nat) (groups : Bytes) : Nat :=
  if ndigits = 0 then 0
  else
    let total := leadWidth (load groups 0) + (ndigits - 1) * 4
    let zeros := zeroGroups ndigits groups
    if zeros = ndigits then 0
    else
      let g := load groups (ndigits - 1 - zeros)
      total - (zeros * 4 + trailingZeros g g)

/-! ## 2. The decoders -/

/-- What the decoders use of their type. -/
structure NumberType (T : Type) where
  /-- `std::numeric_limits<T>::digits10`. -/
  digits10 : Nat
  /-- `T(sv)`; it throws where there is none. -/
  ofString : Bytes → Option T
  quietNaN : T
  infinity : T
  ofNat : Nat → T
  add : T → T → T
  mul : T → T → T
  div : T → T → T
  neg : T → T
  pow : T → Int → T
  round : T → T

variable {T : Type}

/-- `client_errc::incompatible_response_length`: the value is too precise. -/
def incompatibleResponseLength : Parsed T :=
  .error (.code ClientErrc.incompatibleResponseLength.code)

/-- `parse_text_numeric`. -/
def parseTextNumeric (N : NumberType T) (sv : Bytes) : Parsed T :=
  if countSignificantDigitsText sv > N.digits10 then incompatibleResponseLength
  else
    match N.ofString sv with
    | some to_ => .ok to_
    | none => protocolValueError

/-- `result += T(raw_digit) * place_value`, group by group. -/
def accumulate (N : NumberType T) (ndigits : Nat) (weight : Int) (groups : Bytes) : T :=
  (List.range ndigits).foldl (fun result i =>
    N.add result (N.mul (N.ofNat (load groups i)) (N.pow (N.ofNat 10000) (weight - i)))) (N.ofNat 0)

/-- The value at its display scale. -/
def atScale (N : NumberType T) (dscale : Nat) (result : T) : T :=
  if dscale > 0 then
    let multiplier := N.pow (N.ofNat 10) dscale
    N.div (N.round (N.mul result multiplier)) multiplier
  else N.round result

/-- `parse_binary_numeric`. -/
def parseBinaryNumeric (N : NumberType T) (bytes : Bytes) : Parsed T :=
  if bytes.length < 8 then protocolValueError
  else
    let ndigits := toNat (bytes.take 2)
    let weight := toInt ((bytes.drop 2).take 2)
    let sign := toNat ((bytes.drop 4).take 2)
    let dscale := toNat ((bytes.drop 6).take 2)
    if sign = 0xC000 then .ok N.quietNaN
    else if sign = 0xD000 then .ok N.infinity
    else if sign = 0xF000 then .ok (N.neg N.infinity)
    else if bytes.length < 8 + ndigits * 2 then protocolValueError
    else if countSignificantDigitsBinary ndigits (bytes.drop 8) > N.digits10 then
      incompatibleResponseLength
    else
      let result := atScale N dscale (accumulate N ndigits weight (bytes.drop 8))
      .ok (if sign = 0x4000 then N.neg result else result)

theorem protocolValueError_ne : (protocolValueError : Parsed T) ≠ incompatibleResponseLength := by
  intro h
  rw [protocolValueError, incompatibleResponseLength, Except.error.injEq, Halt.code.injEq] at h
  exact absurd h (by decide)

/-- A text is too precise where more digits count than the type has. -/
theorem parseTextNumeric_guard_iff (N : NumberType T) (sv : Bytes) :
    parseTextNumeric N sv = incompatibleResponseLength ↔
      countSignificantDigitsText sv > N.digits10 := by
  unfold parseTextNumeric
  split
  · rename_i h
    exact ⟨fun _ => h, fun _ => rfl⟩
  · rename_i h
    refine ⟨fun heq => ?_, fun hgt => absurd hgt h⟩
    cases hof : N.ofString sv with
    | some to_ => rw [hof] at heq; cases heq
    | none => rw [hof] at heq; exact absurd heq protocolValueError_ne

/-- The signs that are not those of a finite value. -/
def SpecialSign (sign : Nat) : Prop := sign = 0xC000 ∨ sign = 0xD000 ∨ sign = 0xF000

/-- Bytes are too precise where they are all there, and as many digits count. -/
theorem parseBinaryNumeric_guard_iff (N : NumberType T) {bytes : Bytes} (hlen : 8 ≤ bytes.length)
    (hsign : ¬SpecialSign (toNat ((bytes.drop 4).take 2)))
    (hgroups : 8 + toNat (bytes.take 2) * 2 ≤ bytes.length) :
    parseBinaryNumeric N bytes = incompatibleResponseLength ↔
      countSignificantDigitsBinary (toNat (bytes.take 2)) (bytes.drop 8) > N.digits10 := by
  obtain ⟨hnan, hinf, hninf⟩ := not_or.mp hsign |>.imp_right not_or.mp
  unfold parseBinaryNumeric
  rw [if_neg (Nat.not_lt.mpr hlen)]
  simp only
  rw [if_neg hnan, if_neg hinf, if_neg hninf, if_neg (Nat.not_lt.mpr hgroups)]
  split
  · rename_i h
    exact ⟨fun _ => h, fun _ => rfl⟩
  · rename_i h
    exact ⟨fun heq => (nomatch heq), fun hgt => absurd hgt h⟩

/-! ## 3. What is counted -/

/-- A point and digits, where there are any. -/
def pointed (ds : Bytes) : Bytes := if ds = [] then [] else 46 :: ds

/-- A minus sign or none. -/
def signText (negative : Bool) : Bytes := if negative then [45] else []

section
variable {whole fraction : Bytes}

/-- What is made of digits and points begins with no sign. -/
theorem drop_signText (negative : Bool) {s : Bytes} (h : ∀ c ∈ s, (isDigit c || c == 46) = true) :
    (let s' := signText negative ++ s
      if s'.head? = some 43 ∨ s'.head? = some 45 then s'.drop 1 else s') = s := by
  cases negative with
  | true => exact if_pos (.inr rfl)
  | false =>
    refine if_neg ?_
    rintro (hplus | hminus)
    · exact absurd (h 43 (List.mem_of_mem_head? hplus)) (by decide)
    · exact absurd (h 45 (List.mem_of_mem_head? hminus)) (by decide)

theorem filter_pointed (hwhole : AllDigits whole) (hfraction : AllDigits fraction) :
    (whole ++ pointed fraction).filter (· != 46) = whole ++ fraction := by
  have hself : ∀ {ds : Bytes}, AllDigits ds → ds.filter (· != 46) = ds := fun hds =>
    List.filter_eq_self.mpr fun c hc => by
      rw [bne_iff_ne]
      rintro rfl
      exact absurd (hds 46 hc) (by decide)
  rw [List.filter_append, hself hwhole]
  unfold pointed
  split
  · rename_i hnil
    rw [hnil]
    rfl
  · rw [List.filter_cons_of_neg (by decide), hself hfraction]

/-- **Sign and point do not matter**, and neither do the zeros at the ends. -/
theorem countSignificantDigitsText_eq (negative : Bool) (hwhole : AllDigits whole)
    (hfraction : AllDigits fraction) :
    countSignificantDigitsText (signText negative ++ (whole ++ pointed fraction)) =
      (Trimmed.strip (· == 48) (whole ++ fraction)).length := by
  have hall : ∀ c ∈ whole ++ pointed fraction, (isDigit c || c == 46) = true := by
    intro c hc
    rw [Bool.or_eq_true, beq_iff_eq]
    rcases List.mem_append.mp hc with hc | hc
    · exact .inl (hwhole c hc)
    · unfold pointed at hc
      split at hc
      · cases hc
      · exact (List.mem_cons.mp hc).symm.imp_left (hfraction c)
  have hws := drop_signText negative hall
  simp only at hws
  unfold countSignificantDigitsText
  simp only
  rw [hws, List.takeWhile_eq_self_iff.mpr hall, filter_pointed hwhole hfraction, Trimmed.strip,
    List.length_reverse]

end

/-- **All digits of a text count** but the zeros at its ends. -/
theorem counts_countSignificantDigitsText {whole fraction : Bytes} (negative : Bool)
    (hwhole : AllDigits whole) (hfraction : AllDigits fraction) :
    Counts (value (whole ++ fraction) : Nat)
      (countSignificantDigitsText (signText negative ++ (whole ++ pointed fraction))) := by
  rw [countSignificantDigitsText_eq negative hwhole hfraction]
  exact Significant.counts_strip (hwhole.append hfraction)

/-! ## 4. What is counted in bytes -/

/-- The groups as they are sent. -/
def sent (groups : List Nat) : Bytes := groups.flatMap (BigEndian.ofNat 2)

section
variable {groups : List Nat}

theorem length_sent (groups : List Nat) : (sent groups).length = groups.length * 2 := by
  simp [sent, List.length_flatMap]

/-- The groups are loaded as they were sent. -/
theorem map_load_sent (h : ∀ d ∈ groups, d < 10000) :
    (List.range groups.length).map (load (sent groups)) = groups := by
  induction groups with
  | nil => rfl
  | cons d groups ih =>
    obtain ⟨hd, hgroups⟩ := List.forall_mem_cons.mp h
    have hfirst : load (sent (d :: groups)) 0 = d := by
      have htake : (sent (d :: groups)).take 2 = BigEndian.ofNat 2 d := by
        rw [sent, List.flatMap_cons, List.take_left' (BigEndian.length_ofNat 2 d)]
      rw [load, Nat.zero_mul, List.drop_zero, htake, BigEndian.toNat_ofNat,
        Nat.mod_eq_of_lt (by omega)]
    have hnext : ∀ i, load (sent (d :: groups)) (i + 1) = load (sent groups) i := fun i => by
      have hdrop : (sent (d :: groups)).drop ((i + 1) * 2) = (sent groups).drop (i * 2) := by
        rw [Nat.add_mul, Nat.one_mul, Nat.add_comm, ← List.drop_drop, sent, List.flatMap_cons,
          List.drop_left' (BigEndian.length_ofNat 2 d)]
        rfl
      rw [load, hdrop, load]
    rw [List.length_cons, List.range_succ_eq_map, List.map_cons, hfirst, List.map_map]
    refine congrArg _ (Eq.trans (List.map_congr_left fun i _ => ?_) (ih hgroups))
    exact hnext i

theorem load_sent (h : ∀ d ∈ groups, d < 10000) {i : Nat} (hi : i < groups.length) :
    load (sent groups) i = groups[i] := by
  have hget := congrArg (·[i]?) (map_load_sent h)
  simp only [List.getElem?_map, List.getElem?_range hi, List.getElem?_eq_getElem hi,
    Option.map_some, Option.some.injEq] at hget
  exact hget

theorem zeroGroups_sent (h : ∀ d ∈ groups, d < 10000) :
    zeroGroups groups.length (sent groups) = (groups.reverse.takeWhile (· == 0)).length := by
  have hmap := congrArg List.reverse (map_load_sent h)
  rw [← List.map_reverse] at hmap
  rw [← hmap, List.takeWhile_map, List.length_map]
  rfl

/-- The loop divides by ten as often as it can. -/
theorem trailingZeros_spec : ∀ {fuel g : Nat}, g ≠ 0 → g ≤ fuel →
    ∃ m, g = m * 10 ^ trailingZeros fuel g ∧ ¬10 ∣ m
  | 0, g, hne, hle => absurd (Nat.le_zero.mp hle) hne
  | fuel + 1, g, hne, hle => by
      unfold trailingZeros
      by_cases hmod : g % 10 = 0
      · rw [if_pos hmod]
        obtain ⟨m, hm, hdvd⟩ := @trailingZeros_spec fuel (g / 10) (by omega) (by omega)
        refine ⟨m, ?_, hdvd⟩
        rw [Nat.pow_succ, ← Nat.mul_assoc, ← hm]
        omega
      · rw [if_neg hmod]
        exact ⟨g, by rw [Nat.pow_zero, Nat.mul_one], fun hdvd => hmod (Nat.mod_eq_zero_of_dvd hdvd)⟩

/-- The group before the ones that are zero is not. -/
theorem load_zeroGroups {ndigits : Nat} {bytes : Bytes} (h : zeroGroups ndigits bytes < ndigits) :
    load bytes (ndigits - 1 - zeroGroups ndigits bytes) ≠ 0 := by
  unfold zeroGroups at h ⊢
  have hsplit := List.takeWhile_append_dropWhile (p := fun i => load bytes i == 0)
    (l := (List.range ndigits).reverse)
  have hhead := Trimmed.head_dropWhile (p := fun i => load bytes i == 0) (List.range ndigits).reverse
  generalize (List.range ndigits).reverse.takeWhile (fun i => load bytes i == 0) = zeros at h hsplit ⊢
  cases hback : (List.range ndigits).reverse.dropWhile fun i => load bytes i == 0 with
  | nil =>
    have hlen := congrArg List.length hsplit
    simp only [hback, List.append_nil, List.length_reverse, List.length_range] at hlen
    omega
  | cons i rest =>
    rw [hback] at hsplit hhead
    have hget := congrArg (·[zeros.length]?) hsplit
    simp only [List.getElem?_append_right (Nat.le_refl _), Nat.sub_self,
      List.getElem?_cons_zero] at hget
    rw [List.getElem?_reverse (by simpa using h), List.length_range,
      List.getElem?_range (by omega), Option.some.injEq] at hget
    rw [← hget]
    simpa using hhead i rfl

/-- No group ends in more zeros than it is counted with digits. -/
theorem trailingZeros_le_leadWidth {g : Nat} (hne : g ≠ 0) (hlt : g < 65536) :
    trailingZeros g g ≤ leadWidth g := by
  refine Nat.le_of_not_lt fun hgt => ?_
  obtain ⟨m, hm, hdvd⟩ := trailingZeros_spec hne (Nat.le_refl g)
  have hmne : m ≠ 0 := fun hzero => hdvd (hzero ▸ Nat.dvd_zero 10)
  have hpow : 10 ^ (leadWidth g + 1) ≤ g := by
    calc 10 ^ (leadWidth g + 1) ≤ 10 ^ trailingZeros g g := Nat.pow_le_pow_right (by decide) hgt
      _ ≤ m * 10 ^ trailingZeros g g := Nat.le_mul_of_pos_left _ (Nat.pos_of_ne_zero hmne)
      _ = g := hm.symm
  unfold leadWidth at hpow
  split at hpow
  · omega
  · split at hpow
    · omega
    · split at hpow
      · omega
      · omega

theorem leadWidth_le (g : Nat) : leadWidth g ≤ 4 := by
  unfold leadWidth
  split
  · decide
  · split
    · decide
    · split
      · decide
      · decide

/-- **The difference is one of `std::size_t`**, whatever the bytes are. -/
theorem trailing_le_total {ndigits : Nat} {bytes : Bytes} (h : zeroGroups ndigits bytes < ndigits) :
    let g := load bytes (ndigits - 1 - zeroGroups ndigits bytes)
    zeroGroups ndigits bytes * 4 + trailingZeros g g ≤
      leadWidth (load bytes 0) + (ndigits - 1) * 4 := by
  have hne := load_zeroGroups h
  have hload : ∀ i, load bytes i < 65536 := fun i => by
    have hlt := BigEndian.toNat_lt ((bytes.drop (i * 2)).take 2)
    have hpow := Nat.pow_le_pow_right (show 0 < 256 by decide)
      (List.length_take_le 2 (bytes.drop (i * 2)))
    exact Nat.lt_of_lt_of_le hlt hpow
  have hwidth := trailingZeros_le_leadWidth hne (hload _)
  simp only
  by_cases hall : zeroGroups ndigits bytes = ndigits - 1
  · -- only the first group is left
    rw [hall, Nat.sub_self] at hwidth ⊢
    omega
  · have hle := leadWidth_le (load bytes (ndigits - 1 - zeroGroups ndigits bytes))
    omega

/-- The first group is as wide as its number. -/
theorem leadWidth_spec {d : Nat} (hne : d ≠ 0) (hlt : d < 10000) :
    ∃ w, leadWidth d = w + 1 ∧ 10 ^ w ≤ d ∧ d < 10 ^ (w + 1) := by
  unfold leadWidth
  split
  · exact ⟨3, rfl, by omega, by omega⟩
  · split
    · exact ⟨2, rfl, by omega, by omega⟩
    · split
      · exact ⟨1, rfl, by omega, by omega⟩
      · exact ⟨0, rfl, by omega, by omega⟩

/-- How many digits there are in groups. -/
theorem length_digits_coefficient {d : Nat} (hne : d ≠ 0) (h : ∀ d' ∈ d :: groups, d' < 10000) :
    (digits (coefficient 10000 (d :: groups))).length = leadWidth d + groups.length * 4 := by
  obtain ⟨hd, hgroups⟩ := List.forall_mem_cons.mp h
  obtain ⟨w, hw, hlow, hhigh⟩ := leadWidth_spec hne hd
  have hlt := Significant.coefficient_lt (show 1 < 10000 by decide) hgroups
  have hpow : 10000 ^ groups.length = 10 ^ (groups.length * 4) := by
    rw [Nat.mul_comm, Nat.pow_mul]
  rw [Significant.coefficient_cons]
  rw [hpow] at hlt ⊢
  have hbounds : 10 ^ (w + groups.length * 4) ≤
        d * 10 ^ (groups.length * 4) + coefficient 10000 groups ∧
      d * 10 ^ (groups.length * 4) + coefficient 10000 groups <
        10 ^ (w + groups.length * 4 + 1) := by
    constructor
    · calc 10 ^ (w + groups.length * 4) = 10 ^ w * 10 ^ (groups.length * 4) := Nat.pow_add ..
        _ ≤ d * 10 ^ (groups.length * 4) := Nat.mul_le_mul_right _ hlow
        _ ≤ _ := Nat.le_add_right ..
    · calc d * 10 ^ (groups.length * 4) + coefficient 10000 groups
          < (d + 1) * 10 ^ (groups.length * 4) := by rw [Nat.add_mul, Nat.one_mul]; omega
        _ ≤ 10 ^ (w + 1) * 10 ^ (groups.length * 4) := Nat.mul_le_mul_right _ hhigh
        _ = 10 ^ (w + groups.length * 4 + 1) := by rw [← Nat.pow_add]; ring_nf
  rw [Significant.length_digits_of_bounds hbounds.1 hbounds.2, hw]
  omega

/-- The last group that is not zero, and how many are behind it. -/
theorem exists_last_group (hne : ∃ d ∈ groups, d ≠ 0) :
    ∃ front g z, groups = front ++ g :: List.replicate z 0 ∧ g ≠ 0 ∧
      (groups.reverse.takeWhile (· == 0)).length = z := by
  have hsplit := congrArg List.reverse
    (List.takeWhile_append_dropWhile (p := (· == 0)) (l := groups.reverse))
  have hzeros : groups.reverse.takeWhile (· == 0) =
      List.replicate (groups.reverse.takeWhile (· == 0)).length 0 :=
    List.eq_replicate_iff.mpr ⟨rfl, fun c hc => by
      simpa using Trimmed.all_takeWhile (· == 0) groups.reverse c hc⟩
  have hhead := Trimmed.head_dropWhile (p := (· == 0)) groups.reverse
  rw [List.reverse_append, List.reverse_reverse] at hsplit
  cases hback : groups.reverse.dropWhile (· == 0) with
  | nil =>
    obtain ⟨d, hd, hdne⟩ := hne
    have hall := List.dropWhile_eq_nil_iff.mp hback d (List.mem_reverse.mpr hd)
    exact absurd (by simpa using hall) hdne
  | cons g front =>
    rw [hback] at hsplit hhead
    refine ⟨front.reverse, g, _, ?_, by simpa using hhead g rfl, rfl⟩
    generalize (groups.reverse.takeWhile (· == 0)).length = z at hzeros ⊢
    rw [← hsplit, hzeros, List.reverse_replicate, List.reverse_cons, List.append_assoc]
    rfl

/-- Groups divided by ten as often as the last that is not zero can be. -/
theorem exists_coefficient_eq {front : List Nat} {g z t m : Nat} (hg : g = m * 10 ^ t)
    (hm : ¬10 ∣ m) (hlt : g < 10000) :
    ∃ m', coefficient 10000 (front ++ g :: List.replicate z 0) = m' * 10 ^ (z * 4 + t) ∧
      ¬10 ∣ m' := by
  have hmne : m ≠ 0 := fun h => hm (h ▸ Nat.dvd_zero 10)
  have ht : t < 4 := by
    refine (Nat.pow_lt_pow_iff_right (show 1 < 10 by decide)).mp ?_
    calc 10 ^ t ≤ m * 10 ^ t := Nat.le_mul_of_pos_left _ (Nat.pos_of_ne_zero hmne)
      _ < 10 ^ 4 := hg ▸ hlt
  obtain ⟨u, hu⟩ : ∃ u, 4 = u + 1 + t := ⟨3 - t, by omega⟩
  have hten : 10000 = 10 ^ (u + 1) * 10 ^ t := by rw [← Nat.pow_add, ← hu]
  have hpow : 10000 ^ z = 10 ^ (z * 4) := by rw [Nat.mul_comm, Nat.pow_mul]
  refine ⟨coefficient 10000 front * 10 ^ (u + 1) + m, ?_, fun hdvd => hm ?_⟩
  · rw [Significant.coefficient_append, Significant.coefficient_cons,
      Significant.coefficient_replicate_zero, List.length_cons, List.length_replicate,
      Nat.pow_succ, hpow, Nat.pow_add, hg]
    nth_rewrite 2 [hten]
    ring
  · -- what is in front ends in a zero
    rw [Nat.pow_succ, ← Nat.mul_assoc] at hdvd
    exact (Nat.dvd_add_right (Nat.dvd_mul_left 10 _)).mp hdvd

end

/-- **All digits of the groups count** but the zeros behind them. -/
theorem counts_countSignificantDigitsBinary {groups : List Nat} (h : ∀ d ∈ groups, d < 10000)
    (hfirst : ∀ d ∈ groups.head?, d ≠ 0) :
    Counts (coefficient 10000 groups : Nat)
      (countSignificantDigitsBinary groups.length (sent groups)) := by
  cases groups with
  | nil => exact .zero
  | cons d groups =>
    have hd : d ≠ 0 := hfirst d rfl
    obtain ⟨front, g, z, heq, hg, hz⟩ :=
      @exists_last_group (d :: groups) ⟨d, List.mem_cons_self .., hd⟩
    have hlen := congrArg List.length heq
    simp only [List.length_append, List.length_cons, List.length_replicate] at hlen
    have hlast : load (sent (d :: groups)) ((d :: groups).length - 1 - z) = g := by
      have hi : (d :: groups).length - 1 - z = front.length := by
        rw [List.length_cons]
        omega
      rw [hi, load_sent h (by rw [List.length_cons]; omega)]
      simp only [heq, List.getElem_append_right (Nat.le_refl _), Nat.sub_self,
        List.getElem_cons_zero]
    have hzero : load (sent (d :: groups)) 0 = d := load_sent h (Nat.succ_pos _)
    obtain ⟨m, hgm, hm⟩ := trailingZeros_spec hg (Nat.le_refl g)
    obtain ⟨m', hm', hdvd⟩ := @exists_coefficient_eq front g z _ m hgm hm
      (h g (by rw [heq]; exact List.mem_append_right _ (List.mem_cons_self ..)))
    rw [← heq] at hm'
    have hcounts := Significant.counts_natCast hm' hdvd
    rw [length_digits_coefficient hd h] at hcounts
    unfold countSignificantDigitsBinary
    simp only
    rw [if_neg (show (d :: groups).length ≠ 0 from Nat.succ_ne_zero _), zeroGroups_sent h, hz,
      if_neg (by rw [List.length_cons]; omega), hlast, hzero, List.length_cons, Nat.add_sub_cancel]
    exact hcounts

end Types

end NativePg
