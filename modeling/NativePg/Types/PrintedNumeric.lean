/-
  File:      NativePg/Types/PrintedNumeric.lean
  Subject:   Finite values of "numeric" as PostgreSQL prints and sends them, and what the guards of
             the decoders make of either.

  * `Numeric` -- a value in base 10000, normalized, at a display scale that shows all of it;
    `magnitude` is its absolute value;
  * `printNumeric`, `Numeric.encode` -- its text and its binary form. `value_printed`: the digits of
    the text are the value at that scale;
  * **`numeric_guards_agree`** -- the same digits are counted, and both guards reject the same values.
-/
import NativePg.Types.Numeric

namespace NativePg

namespace Types

open BigEndian (Fits ofInt ofNat toInt toNat)
open Decimal (AllDigits digits fixed value)
open Significant (Counts coefficient groupAt window)

/-! ## 1. Values -/

/-- The number that groups of four digits are, the first of them worth 10000 to its weight. -/
def magnitude : (weight : Int) → List Nat → ℚ
  | _, [] => 0
  | weight, d :: groups => d * 10000 ^ weight + magnitude (weight - 1) groups

/-- **A finite value**, as PostgreSQL stores and sends it. -/
structure Numeric where
  negative : Bool
  weight : Int
  /-- How many digits there are behind the point. -/
  dscale : Nat
  groups : List Nat
  below : ∀ d ∈ groups, d < 10000
  first : ∀ d ∈ groups.head?, d ≠ 0
  last : ∀ d ∈ groups.getLast?, d ≠ 0
  length_lt : groups.length < 65536
  weight_fits : Fits 2 weight
  dscale_lt : dscale < 65536
  /-- No digit of it is behind those. -/
  shown : ∃ z : Nat, magnitude weight groups * 10 ^ dscale = z

/-- The value. -/
def Numeric.value (x : Numeric) : ℚ :=
  (if x.negative then -1 else 1) * magnitude x.weight x.groups

/-! ## 2. What is printed and sent -/

/-- The digits in front of the point: the first group without leading zeros. -/
def printWhole (weight : Int) (groups : List Nat) : Bytes :=
  if weight < 0 then [48]
  else digits (groupAt groups 0) ++ (window groups 1 weight.toNat).flatMap (fixed 4)

/-- The digits behind the point, in as many groups as it takes. -/
def fractionGroups (weight : Int) (dscale : Nat) (groups : List Nat) : Bytes :=
  (window groups (weight + 1) ((dscale + 3) / 4)).flatMap (fixed 4)

/-- The digits behind the point. -/
def printPlaces (weight : Int) (dscale : Nat) (groups : List Nat) : Bytes :=
  (fractionGroups weight dscale groups).take dscale

/-- The text. -/
def printNumeric (negative : Bool) (weight : Int) (dscale : Nat) (groups : List Nat) : Bytes :=
  signText negative ++ (printWhole weight groups ++ pointed (printPlaces weight dscale groups))

example : printNumeric true 0 5 [1234, 5600] = ascii "-1234.56000" := by decide

example : printNumeric false (-2) 9 [7, 8000] = ascii "0.000000078" := by decide

namespace Numeric

/-- The text of a value. -/
def print (x : Numeric) : Bytes := printNumeric x.negative x.weight x.dscale x.groups

/-- The binary form of a value. -/
def encode (x : Numeric) : Bytes :=
  ofNat 2 x.groups.length ++ (ofInt 2 x.weight ++ (ofNat 2 (if x.negative then 0x4000 else 0) ++
    (ofNat 2 x.dscale ++ sent x.groups)))

end Numeric

/-! ## 3. The digits of the text -/

section
variable {weight : Int} {dscale : Nat} {groups : List Nat}

theorem magnitude_eq (weight : Int) (groups : List Nat) :
    magnitude weight groups =
      coefficient 10000 groups * 10000 ^ (weight + 1 - groups.length) := by
  induction groups generalizing weight with
  | nil => simp [magnitude]
  | cons d groups ih =>
    have hweight : weight = groups.length + (weight + 1 - (groups.length + 1 : Nat)) := by
      push_cast
      ring
    have hnext : weight - 1 + 1 - groups.length = weight + 1 - (groups.length + 1 : Nat) := by
      push_cast
      ring
    rw [magnitude, ih, hnext, Significant.coefficient_cons, List.length_cons]
    nth_rewrite 1 [hweight]
    rw [zpow_add₀ (by norm_num), zpow_natCast]
    push_cast
    ring

theorem allDigits_flatMap (groups : List Nat) : AllDigits (groups.flatMap (fixed 4)) := by
  intro c hc
  obtain ⟨d, -, hd⟩ := List.mem_flatMap.mp hc
  exact Decimal.allDigits_fixed 4 d c hd

theorem allDigits_printWhole (weight : Int) (groups : List Nat) :
    AllDigits (printWhole weight groups) := by
  unfold printWhole
  split
  · decide
  · exact (Decimal.allDigits_digits _).append (allDigits_flatMap _)

theorem length_fractionGroups (weight : Int) (dscale : Nat) (groups : List Nat) :
    (fractionGroups weight dscale groups).length = (dscale + 3) / 4 * 4 := by
  simp [fractionGroups, List.length_flatMap]

theorem allDigits_printPlaces (weight : Int) (dscale : Nat) (groups : List Nat) :
    AllDigits (printPlaces weight dscale groups) := fun c hc =>
  allDigits_flatMap _ c (List.mem_of_mem_take hc)

/-- Before the last group is cut, the digits are the groups up to it. -/
theorem value_groups (h : ∀ d ∈ groups, d < 10000) :
    value (printWhole weight groups ++ fractionGroups weight dscale groups) =
      coefficient 10000 groups * 10000 ^ (weight + 1 + ((dscale + 3) / 4 : Nat)).toNat /
        10000 ^ groups.length := by
  have hbase : (1 : Nat) < 10000 := by decide
  have hwindow : ∀ {start : ℤ} {count : Nat},
      value ((window groups start count).flatMap (fixed 4)) =
        coefficient 10000 (window groups start count) := fun {start count} =>
    Significant.value_flatMap_fixed fun d hd => Significant.window_lt (by decide) h d hd
  unfold printWhole fractionGroups
  generalize (dscale + 3) / 4 = f
  by_cases hweight : weight < 0
  · rw [if_pos hweight, List.singleton_append, Decimal.value_cons, hwindow,
      Significant.coefficient_window hbase h (by omega)]
    simp
  · obtain ⟨w, rfl⟩ := Int.eq_ofNat_of_zero_le (Int.not_lt.mp hweight)
    -- the first group could as well be written in full
    have hfirst : value (digits (groupAt groups 0)) = value (fixed 4 (groupAt groups 0)) := by
      rw [Decimal.value_digits, Decimal.value_fixed_of_lt (Significant.groupAt_lt (by decide) h 0)]
    have hzero : window groups 0 1 = [groupAt groups 0] := by simp [window]
    have hall : fixed 4 (groupAt groups 0) ++ ((window groups 1 w).flatMap (fixed 4) ++
        (window groups (w + 1) f).flatMap (fixed 4)) =
          (window groups 0 (1 + w + f)).flatMap (fixed 4) := by
      have hplace : (0 : ℤ) + (1 + w : Nat) = w + 1 := by
        push_cast
        ring
      rw [Significant.window_add, Significant.window_add, hzero, hplace, List.flatMap_append,
        List.flatMap_append, List.flatMap_singleton, List.append_assoc]
      rfl
    have hplaces : (0 : ℤ) + (1 + w + f : Nat) = w + 1 + f := by
      push_cast
      ring
    rw [if_neg hweight, Int.toNat_natCast, List.append_assoc, Decimal.value_append, hfirst,
      ← Decimal.value_append, hall, hwindow, Significant.coefficient_window hbase h (Int.le_refl 0),
      hplaces]

/-- What is printed is the number up to the last place. -/
theorem value_printed (h : ∀ d ∈ groups, d < 10000) :
    value (printWhole weight groups ++ printPlaces weight dscale groups) =
      coefficient 10000 groups * 10000 ^ (weight + 1 + ((dscale + 3) / 4 : Nat)).toNat /
        10000 ^ groups.length / 10 ^ ((dscale + 3) / 4 * 4 - dscale) := by
  have htake : printWhole weight groups ++ printPlaces weight dscale groups =
      (printWhole weight groups ++ fractionGroups weight dscale groups).take
        ((printWhole weight groups).length + dscale) := by
    rw [List.take_length_add_append]
    rfl
  have hdigits : AllDigits (printWhole weight groups ++ fractionGroups weight dscale groups) :=
    (allDigits_printWhole weight groups).append (allDigits_flatMap _)
  have hlen : (printWhole weight groups ++ fractionGroups weight dscale groups).length -
      ((printWhole weight groups).length + dscale) = (dscale + 3) / 4 * 4 - dscale := by
    rw [List.length_append, length_fractionGroups]
    omega
  rw [htake, Decimal.value_take hdigits, hlen, value_groups h]

/-- **The digits of the text are the value at its display scale.** -/
theorem value_printed_of_shown (h : ∀ d ∈ groups, d < 10000) {z : Nat}
    (hz : magnitude weight groups * 10 ^ dscale = z) :
    value (printWhole weight groups ++ printPlaces weight dscale groups) = z := by
  have hlt := Significant.coefficient_lt (show 1 < 10000 by decide) h
  have hpos : 0 < 10000 ^ groups.length := Nat.pow_pos (by decide)
  rw [value_printed h]
  -- `f` groups behind the point have `e` digits too many
  obtain ⟨f, e, hf, he, hscale⟩ : ∃ f e, (dscale + 3) / 4 = f ∧ f * 4 - dscale = e ∧
      f * 4 = dscale + e := ⟨_, _, rfl, rfl, by omega⟩
  rw [hf, he]
  have hgroups : (coefficient 10000 groups : ℚ) * 10000 ^ (weight + 1 + f) =
      z * 10 ^ e * 10000 ^ groups.length := by
    have hten : (10000 : ℚ) ^ f = 10 ^ dscale * 10 ^ e := by
      rw [← pow_add, ← hscale, Nat.mul_comm, pow_mul]
      norm_num
    rw [magnitude_eq] at hz
    have hsum : weight + 1 + f = weight + 1 - groups.length + f + groups.length := by ring
    rw [hsum, zpow_add₀ (by norm_num), zpow_add₀ (by norm_num), zpow_natCast, zpow_natCast, hten,
      ← hz]
    ring
  rcases le_or_gt 0 (weight + 1 + f) with hle | hneg
  · obtain ⟨p, hp⟩ := Int.eq_ofNat_of_zero_le hle
    rw [hp, Int.toNat_natCast]
    rw [hp, zpow_natCast] at hgroups
    have heq : coefficient 10000 groups * 10000 ^ p = z * 10 ^ e * 10000 ^ groups.length := by
      exact_mod_cast hgroups
    rw [heq, Nat.mul_div_cancel _ hpos, Nat.mul_div_cancel _ (Nat.pow_pos (by decide))]
  · -- the number is less than one in the last place, and so it is zero
    have hle : (10000 : ℚ) ^ (weight + 1 + f) ≤ 1 := zpow_le_one_of_nonpos₀ (by norm_num) hneg.le
    have hsmall : (z * 10 ^ e * 10000 ^ groups.length : ℚ) ≤ coefficient 10000 groups := by
      rw [← hgroups]
      exact mul_le_of_le_one_right (Nat.cast_nonneg _) hle
    have hnat : z * 10 ^ e * 10000 ^ groups.length ≤ coefficient 10000 groups := by
      exact_mod_cast hsmall
    have hz0 : z * 10 ^ e = 0 := by
      refine Nat.eq_zero_of_not_pos fun hzpos => ?_
      have := Nat.le_mul_of_pos_left (10000 ^ groups.length) hzpos
      omega
    have hz1 : z = 0 := by simpa using hz0
    rw [Int.toNat_of_nonpos hneg.le, Nat.pow_zero, Nat.mul_one, Nat.div_eq_of_lt hlt, Nat.zero_div,
      hz1]

end

/-! ## 4. The guards -/

namespace Numeric

theorem abs_value (x : Numeric) : |x.value| = |magnitude x.weight x.groups| := by
  unfold value
  split
  · rw [neg_one_mul, abs_neg]
  · rw [one_mul]

/-- The digits of the text count. -/
theorem counts_text (x : Numeric) : Counts x.value (countSignificantDigitsText x.print) := by
  obtain ⟨z, hz⟩ := x.shown
  have hcounts := counts_countSignificantDigitsText x.negative
    (allDigits_printWhole x.weight x.groups) (allDigits_printPlaces x.weight x.dscale x.groups)
  rw [value_printed_of_shown x.below hz, ← hz, ← zpow_natCast,
    Significant.counts_scale_iff] at hcounts
  exact hcounts.of_abs_eq x.abs_value

/-- The digits of the groups count. -/
theorem counts_binary (x : Numeric) :
    Counts x.value (countSignificantDigitsBinary x.groups.length (sent x.groups)) := by
  have hcounts := (counts_countSignificantDigitsBinary x.below x.first).scale
    (4 * (x.weight + 1 - x.groups.length))
  have hten : (10 : ℚ) ^ (4 * (x.weight + 1 - x.groups.length)) =
      10000 ^ (x.weight + 1 - x.groups.length) := by
    rw [zpow_mul]
    norm_num
  rw [hten, ← magnitude_eq] at hcounts
  exact hcounts.of_abs_eq x.abs_value

/-- **The same digits are counted in both.** -/
theorem count_eq (x : Numeric) : countSignificantDigitsText x.print =
    countSignificantDigitsBinary x.groups.length (sent x.groups) :=
  x.counts_text.unique x.counts_binary

/-- **The fields are where the decoder looks for them.** -/
theorem fields_encode (x : Numeric) :
    x.encode.length = 8 + x.groups.length * 2 ∧
      toNat (x.encode.take 2) = x.groups.length ∧
      toInt ((x.encode.drop 2).take 2) = x.weight ∧
      toNat ((x.encode.drop 4).take 2) = (if x.negative then 0x4000 else 0) ∧
      toNat ((x.encode.drop 6).take 2) = x.dscale ∧
      x.encode.drop 8 = sent x.groups := by
  have hsign : (if x.negative then 0x4000 else 0) < 65536 := by
    split
    · decide
    · decide
  unfold encode
  generalize (if x.negative then 0x4000 else 0) = sign at hsign
  have hread : ∀ {n : Nat} {rest : Bytes}, n < 65536 → toNat ((ofNat 2 n ++ rest).take 2) = n := by
    intro n rest hlt
    rw [List.take_left' (BigEndian.length_ofNat ..), BigEndian.toNat_ofNat]
    exact Nat.mod_eq_of_lt hlt
  have hskip : ∀ (k n : Nat) (rest : Bytes), (ofNat 2 n ++ rest).drop (2 + k) = rest.drop k := by
    intro k n rest
    rw [← List.drop_drop, List.drop_left' (BigEndian.length_ofNat ..)]
  have hskip' : ∀ (k : Nat) (rest : Bytes), (ofInt 2 x.weight ++ rest).drop (2 + k) = rest.drop k := by
    intro k rest
    rw [← List.drop_drop, List.drop_left' (BigEndian.length_ofInt ..)]
  refine ⟨?_, hread x.length_lt, ?_, ?_, ?_, ?_⟩
  · simp [length_sent]
    omega
  · rw [hskip 0, List.drop_zero, List.take_left' (BigEndian.length_ofInt ..)]
    exact BigEndian.toInt_ofInt x.weight_fits
  · rw [hskip 2, hskip' 0]
    exact hread hsign
  · rw [hskip 4, hskip' 2, hskip 0]
    exact hread x.dscale_lt
  · rw [hskip 6, hskip' 4, hskip 2, hskip 0]
    rfl

end Numeric

/-- **The guards agree**: text and binary form of a value have the digits of the value that count, and
    either is too precise for a type where the other is. -/
theorem numeric_guards_agree (x : Numeric) :
    Counts x.value (countSignificantDigitsText x.print) ∧
      Counts x.value (countSignificantDigitsBinary x.groups.length (sent x.groups)) ∧
      countSignificantDigitsText x.print =
        countSignificantDigitsBinary x.groups.length (sent x.groups) ∧
      ∀ (T : Type) (N : NumberType T),
        parseTextNumeric N x.print = incompatibleResponseLength ↔
          parseBinaryNumeric N x.encode = incompatibleResponseLength := by
  refine ⟨x.counts_text, x.counts_binary, x.count_eq, fun T N => ?_⟩
  obtain ⟨hlen, hndigits, -, hsign, -, hgroups⟩ := x.fields_encode
  have hspecial : ¬SpecialSign (toNat ((x.encode.drop 4).take 2)) := by
    rw [hsign]
    unfold SpecialSign
    cases x.negative with
    | true => decide
    | false => decide
  rw [parseTextNumeric_guard_iff, parseBinaryNumeric_guard_iff N (by omega) hspecial (by omega),
    hndigits, hgroups, x.count_eq]

/-- A column of five places holds -1234.56. -/
def paddedNumeric : Numeric where
  negative := true
  weight := 0
  dscale := 5
  groups := [1234, 5600]
  below := by decide
  first := by decide
  last := by decide
  length_lt := by decide
  weight_fits := by decide
  dscale_lt := by decide
  shown := ⟨123456000, by norm_num [magnitude]⟩

/-- Six of its digits count, and no type is too narrow for one form only. -/
theorem numeric_guards_agree_padded :
    paddedNumeric.print = ascii "-1234.56000" ∧ paddedNumeric.value = -123456 / 100 ∧
      Counts paddedNumeric.value 6 ∧ countSignificantDigitsText paddedNumeric.print = 6 ∧
      countSignificantDigitsBinary 2 (sent [1234, 5600]) = 6 ∧
      ∀ (T : Type) (N : NumberType T),
        parseTextNumeric N (ascii "-1234.56000") = incompatibleResponseLength ↔
          parseBinaryNumeric N [0, 2, 0, 0, 64, 0, 0, 5, 4, 210, 21, 224] =
            incompatibleResponseLength := by
  obtain ⟨htext, -, hcount, hguards⟩ := numeric_guards_agree paddedNumeric
  have hsix : countSignificantDigitsText paddedNumeric.print = 6 := by decide
  refine ⟨by decide, ?_, hsix ▸ htext, hsix, hcount ▸ hsix, hguards⟩
  norm_num [Numeric.value, magnitude, paddedNumeric]

end Types

end NativePg
