/-
  File:      NativePg/Lib/Significant.lean
  Subject:   The decimal digits of a number without the zeros at their two ends.

  * `Counts` -- so many of them. `Counts.unique`: no number has two counts; `counts_scale_iff`,
    `Counts.of_abs_eq`: neither a power of ten nor a sign changes it;
  * `counts_strip` -- digits, counted where they are written;
  * `coefficient` -- the number that groups of digits are, the first the most significant.
    `value_flatMap_fixed`: the digits of the groups, one group behind the other;
    `coefficient_window`: the groups from a place on, whatever side of the first it is.
-/
import Mathlib.Algebra.Order.Field.Basic
import Mathlib.Data.Nat.Digits.Defs
import Mathlib.Data.Rat.Cast.Order
import Mathlib.Tactic.FieldSimp
import NativePg.Lib.Decimal
import NativePg.Lib.Trimmed

namespace Significant

open Decimal (AllDigits digits fixed isDigit value)

/-! ## 1. How many digits count -/

/-- The number has so many digits, from the first to the last that is not zero. -/
inductive Counts : ℚ → Nat → Prop where
  | zero : Counts 0 0
  | scaled {q : ℚ} (m : Nat) (e : ℤ) (habs : |q| = m * 10 ^ e) (hm : ¬10 ∣ m) :
      Counts q (digits m).length

section
variable {p q : ℚ} {k k' m m' : Nat} {e e' : ℤ}

/-- What no power of ten is left in is found whatever the power. -/
theorem eq_of_mul_zpow_le (hm : ¬10 ∣ m) (hle : e ≤ e') (h : (m * 10 ^ e : ℚ) = m' * 10 ^ e') :
    m = m' := by
  obtain ⟨j, rfl⟩ := Int.le.dest hle
  have hpow : (10 : ℚ) ^ e ≠ 0 := zpow_ne_zero e (by norm_num)
  have hmul : (m : ℚ) = m' * 10 ^ j := by
    rw [zpow_add₀ (by norm_num), mul_left_comm, mul_comm] at h
    exact mul_left_cancel₀ hpow (by rwa [zpow_natCast] at h)
  have heq : m = m' * 10 ^ j := by exact_mod_cast hmul
  cases j with
  | zero => simpa using heq
  | succ j =>
    refine absurd ⟨m' * 10 ^ j, ?_⟩ hm
    rw [heq, Nat.pow_succ, ← Nat.mul_assoc, Nat.mul_comm]

theorem mul_zpow_ne_zero (hm : ¬10 ∣ m) : (m * 10 ^ e : ℚ) ≠ 0 := by
  have hne : m ≠ 0 := fun h => hm (h ▸ Nat.dvd_zero 10)
  exact mul_ne_zero (Nat.cast_ne_zero.mpr hne) (zpow_ne_zero e (by norm_num))

/-- **No number has two counts.** -/
theorem Counts.unique (h : Counts q k) (h' : Counts q k') : k = k' := by
  cases h with
  | zero =>
    cases h' with
    | zero => rfl
    | scaled m e habs hm => exact absurd (habs.symm.trans abs_zero) (mul_zpow_ne_zero hm)
  | scaled m e habs hm =>
    cases h' with
    | zero => exact absurd (habs.symm.trans abs_zero) (mul_zpow_ne_zero hm)
    | scaled m' e' habs' hm' =>
      rw [habs] at habs'
      rcases le_total e e' with hle | hle
      · rw [eq_of_mul_zpow_le hm hle habs']
      · rw [eq_of_mul_zpow_le hm' hle habs'.symm]

/-- The sign is no digit. -/
theorem Counts.of_abs_eq (h : Counts q k) (habs : |p| = |q|) : Counts p k := by
  cases h with
  | zero =>
    rw [abs_zero, abs_eq_zero] at habs
    rw [habs]
    exact .zero
  | scaled m e hq hm => exact .scaled m e (habs.trans hq) hm

theorem Counts.scale (h : Counts q k) (j : ℤ) : Counts (q * 10 ^ j) k := by
  cases h with
  | zero =>
    rw [zero_mul]
    exact .zero
  | scaled m e habs hm =>
    have hpos : (0 : ℚ) < 10 ^ j := zpow_pos (by norm_num) j
    refine .scaled m (e + j) ?_ hm
    rw [abs_mul, habs, abs_of_pos hpos, mul_assoc, zpow_add₀ (by norm_num)]

/-- A power of ten moves the point only. -/
theorem counts_scale_iff (j : ℤ) : Counts (q * 10 ^ j) k ↔ Counts q k := by
  refine ⟨fun h => ?_, fun h => h.scale j⟩
  have hback := h.scale (-j)
  rwa [mul_assoc, ← zpow_add₀ (by norm_num), add_neg_cancel, zpow_zero, mul_one] at hback

end

/-! ## 2. Digits as they are written -/

theorem length_digits_of_bounds {L n : Nat} (hlow : 10 ^ L ≤ n) (hhigh : n < 10 ^ (L + 1)) :
    (digits n).length = L + 1 := by
  rw [Decimal.digits_eq_fixed hlow hhigh, Decimal.length_fixed]

/-- A zero behind the digits is one digit more. -/
theorem length_digits_mul_pow {m : Nat} (hm : m ≠ 0) :
    ∀ j : Nat, (digits (m * 10 ^ j)).length = (digits m).length + j
  | 0 => by simp
  | j + 1 => by
      have hpos : 0 < m * 10 ^ j := Nat.mul_pos (Nat.pos_of_ne_zero hm) (Nat.pow_pos (by decide))
      have hdiv : m * 10 ^ (j + 1) / 10 = m * 10 ^ j := by
        rw [Nat.pow_succ, ← Nat.mul_assoc, Nat.mul_div_cancel _ (by decide)]
      have hge : 10 ≤ m * 10 ^ (j + 1) := by
        rw [Nat.pow_succ, ← Nat.mul_assoc]
        omega
      rw [Decimal.digits_of_ge hge, hdiv, List.length_append, length_digits_mul_pow hm j,
        List.length_singleton, Nat.add_assoc]

/-- As many digits count as there are less the zeros at the end. -/
theorem counts_natCast {n m j : Nat} (h : n = m * 10 ^ j) (hm : ¬10 ∣ m) :
    Counts n ((digits n).length - j) := by
  have hne : m ≠ 0 := fun hzero => hm (hzero ▸ Nat.dvd_zero 10)
  have hlen : (digits n).length - j = (digits m).length := by
    rw [h, length_digits_mul_pow hne, Nat.add_sub_cancel]
  rw [hlen]
  refine .scaled m j ?_ hm
  rw [h, Nat.abs_cast, zpow_natCast]
  push_cast
  rfl

/-- Digits that begin with no zero are those of their number. -/
theorem length_digits_value {d : UInt8} {ds : List UInt8} (hds : AllDigits (d :: ds)) (hd : d ≠ 48) :
    (digits (value (d :: ds))).length = ds.length + 1 := by
  refine length_digits_of_bounds ?_ (Decimal.value_lt hds)
  have hdigit := Decimal.isDigit_iff.mp (hds d (List.mem_cons_self ..))
  have hne : d.toNat ≠ 48 := fun h => hd (UInt8.toNat_inj.mp h)
  have hpos : 1 * 10 ^ ds.length ≤ (d.toNat - 48) * 10 ^ ds.length :=
    Nat.mul_le_mul_right _ (by omega)
  rw [Decimal.value_cons]
  omega

/-- **What counts of some digits is what is left of them without the zeros at their ends.** -/
theorem counts_strip {s : List UInt8} (h : AllDigits s) :
    Counts (value s : Nat) (Trimmed.strip (· == 48) s).length := by
  obtain ⟨a, b, hs, ha, hb⟩ := Trimmed.exists_strip (· == 48) s
  have hsolid := Trimmed.solid_strip (· == 48) s
  generalize Trimmed.strip (· == 48) s = t at hs hsolid
  have hzeros : ∀ {l : List UInt8}, Trimmed.All (· == 48) l → value l = 0 := fun {l} hl => by
    have hrep : l = List.replicate l.length 48 :=
      List.eq_replicate_iff.mpr ⟨rfl, fun c hc => by simpa using hl c hc⟩
    rw [hrep, Decimal.value_replicate_zero]
  have hvalue : value s = value t * 10 ^ b.length := by
    rw [hs, Decimal.value_append, Decimal.value_append, hzeros ha, hzeros hb, Nat.zero_mul,
      Nat.zero_add, Nat.add_zero]
  rw [hvalue, Nat.cast_mul, Nat.cast_pow, Nat.cast_ofNat, ← zpow_natCast, counts_scale_iff]
  have ht : AllDigits t := fun c hc => h c (by simp [hs, hc])
  cases t with
  | nil =>
    rw [Decimal.value_nil, Nat.cast_zero]
    exact .zero
  | cons d ds =>
    have hfirst : d ≠ 48 := by simpa using hsolid.1 d rfl
    rw [List.length_cons, ← length_digits_value ht hfirst]
    refine .scaled _ 0 (by rw [Nat.abs_cast, zpow_zero, mul_one]) ?_
    -- the last digit is not a zero
    obtain ⟨front, c, hfront⟩ : ∃ front c, d :: ds = front ++ [c] :=
      ⟨_, _, (List.dropLast_append_getLast (List.cons_ne_nil d ds)).symm⟩
    rw [hfront] at ht hsolid ⊢
    have hc := Decimal.isDigit_iff.mp (ht c (by simp))
    have hlast : c ≠ 48 := by simpa using hsolid.2 c (by simp)
    have hne : c.toNat ≠ 48 := fun h => hlast (UInt8.toNat_inj.mp h)
    rw [Decimal.value_append, Decimal.value_cons, Decimal.value_nil]
    simp only [List.length_singleton, List.length_nil, Nat.pow_zero, Nat.pow_one]
    omega

/-! ## 3. Groups of digits -/

/-- The number that some groups of digits are. -/
def coefficient (base : Nat) (groups : List Nat) : Nat := Nat.ofDigits base groups.reverse

section
variable {base width : Nat} {groups : List Nat}

@[simp] theorem coefficient_nil : coefficient base [] = 0 := rfl

theorem coefficient_append (front back : List Nat) :
    coefficient base (front ++ back) =
      coefficient base front * base ^ back.length + coefficient base back := by
  rw [coefficient, List.reverse_append, Nat.ofDigits_append, List.length_reverse, Nat.mul_comm,
    Nat.add_comm]
  rfl

theorem coefficient_cons (d : Nat) (groups : List Nat) :
    coefficient base (d :: groups) = d * base ^ groups.length + coefficient base groups := by
  rw [coefficient, Nat.ofDigits_reverse_cons, Nat.mul_comm, Nat.add_comm]
  rfl

theorem coefficient_replicate_zero (k : Nat) : coefficient base (List.replicate k 0) = 0 := by
  rw [coefficient, List.reverse_replicate, Nat.ofDigits_replicate_zero]

theorem coefficient_lt (hbase : 1 < base) (h : ∀ d ∈ groups, d < base) :
    coefficient base groups < base ^ groups.length := by
  rw [← List.length_reverse]
  exact Nat.ofDigits_lt_base_pow_length hbase fun d hd => h d (List.mem_reverse.mp hd)

/-- The groups in front are the number without its last digits. -/
theorem coefficient_take (hbase : 1 < base) (h : ∀ d ∈ groups, d < base) (k : Nat) :
    coefficient base (groups.take k) = coefficient base groups / base ^ (groups.length - k) := by
  have hsplit := @coefficient_append base (groups.take k) (groups.drop k)
  have hlt := coefficient_lt hbase fun d hd => h d (List.mem_of_mem_drop (i := k) hd)
  rw [List.take_append_drop] at hsplit
  rw [List.length_drop] at hsplit hlt
  rw [hsplit, Nat.add_comm, Nat.add_mul_div_right _ _ (Nat.pow_pos (by omega)),
    Nat.div_eq_of_lt hlt, Nat.zero_add]

/-- **Groups written in full, one behind the other, are the digits of the number.** -/
theorem value_flatMap_fixed (h : ∀ d ∈ groups, d < 10 ^ width) :
    value (groups.flatMap (fixed width)) = coefficient (10 ^ width) groups := by
  induction groups with
  | nil => rfl
  | cons d groups ih =>
    obtain ⟨hd, hgroups⟩ := List.forall_mem_cons.mp h
    have hlen : (groups.flatMap (fixed width)).length = width * groups.length := by
      simp [List.length_flatMap, Nat.mul_comm]
    rw [List.flatMap_cons, Decimal.value_append, ih hgroups, Decimal.value_fixed_of_lt hd, hlen,
      coefficient_cons, Nat.pow_mul]

/-! ## 4. Groups from a place on -/

/-- The group at a place; there are zeros in front of the first and behind the last. -/
def groupAt (groups : List Nat) (i : ℤ) : Nat := if i < 0 then 0 else groups.getD i.toNat 0

/-- So many groups, from a place on. -/
def window (groups : List Nat) (start : ℤ) (count : Nat) : List Nat :=
  (List.range count).map fun i : Nat => groupAt groups (start + i)

@[simp] theorem length_window (start : ℤ) (count : Nat) :
    (window groups start count).length = count := by
  rw [window, List.length_map, List.length_range]

theorem window_add (start : ℤ) (a b : Nat) :
    window groups start (a + b) = window groups start a ++ window groups (start + a) b := by
  unfold window
  rw [List.range_add, List.map_append, List.map_map]
  refine congrArg _ (List.map_congr_left fun i _ => ?_)
  simp only [Function.comp_apply]
  push_cast
  rw [add_assoc]

theorem groupAt_lt (hbase : 0 < base) (h : ∀ d ∈ groups, d < base) (i : ℤ) :
    groupAt groups i < base := by
  unfold groupAt
  split
  · exact hbase
  · rw [List.getD_eq_getElem?_getD]
    cases hget : groups[i.toNat]? with
    | none => exact hbase
    | some d => exact h d (List.mem_of_getElem? hget)

theorem window_lt (hbase : 0 < base) (h : ∀ d ∈ groups, d < base) {start : ℤ} {count : Nat} :
    ∀ d ∈ window groups start count, d < base := by
  intro d hd
  obtain ⟨i, -, rfl⟩ := List.mem_map.mp hd
  exact groupAt_lt hbase h _

/-- In front of the first group. -/
theorem window_of_neg {start : ℤ} {count : Nat} (h : start + count ≤ 0) :
    window groups start count = List.replicate count 0 := by
  refine List.eq_replicate_iff.mpr ⟨length_window .., fun d hd => ?_⟩
  obtain ⟨i, hi, rfl⟩ := List.mem_map.mp hd
  have hlt := List.mem_range.mp hi
  exact if_pos (by omega)

/-- From the first group on. -/
theorem window_zero (count : Nat) :
    window groups 0 count = (groups ++ List.replicate count 0).take count := by
  refine List.ext_getElem (by simp) fun i hi hi' => ?_
  have hnonneg : ¬(0 + (i : ℤ)) < 0 := by omega
  have htoNat : (0 + (i : ℤ)).toNat = i := by omega
  simp only [window, List.getElem_map, List.getElem_range, groupAt, if_neg hnonneg, htoNat,
    List.getElem_take, List.getD_eq_getElem?_getD]
  by_cases hlt : i < groups.length
  · rw [List.getElem_append_left hlt, List.getElem?_eq_getElem hlt]
    rfl
  · rw [List.getElem_append_right (by omega), List.getElem?_eq_none (by omega),
      List.getElem_replicate]
    rfl

/-- **The groups up to a place are the number up to there**: it goes on with zeros, or loses the
    groups behind. -/
theorem coefficient_window (hbase : 1 < base) (h : ∀ d ∈ groups, d < base) {start : ℤ}
    (hstart : start ≤ 0) (count : Nat) :
    coefficient base (window groups start count) =
      coefficient base groups * base ^ (start + count).toNat / base ^ groups.length := by
  by_cases hneg : start + count ≤ 0
  · rw [window_of_neg hneg, coefficient_replicate_zero, Int.toNat_eq_zero.mpr hneg, Nat.pow_zero,
      Nat.mul_one, Nat.div_eq_of_lt (coefficient_lt hbase h)]
  · obtain ⟨k, rfl⟩ : ∃ k : Nat, start = -k := ⟨(-start).toNat, by omega⟩
    obtain ⟨c, rfl⟩ : ∃ c, count = k + c := ⟨count - k, by omega⟩
    have htoNat : (-(k : ℤ) + (k + c : Nat)).toNat = c := by omega
    have hall : ∀ d ∈ groups ++ List.replicate c 0, d < base := fun d hd => by
      rcases List.mem_append.mp hd with hd | hd
      · exact h d hd
      · rw [(List.mem_replicate.mp hd).2]
        omega
    rw [window_add, window_of_neg (by omega), coefficient_append, coefficient_replicate_zero,
      Nat.zero_mul, Nat.zero_add, neg_add_cancel, window_zero, coefficient_take hbase hall,
      List.length_append, List.length_replicate, Nat.add_sub_cancel, htoNat, coefficient_append,
      coefficient_replicate_zero, List.length_replicate, Nat.add_zero]

end

end Significant
