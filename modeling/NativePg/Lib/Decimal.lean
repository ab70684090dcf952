/-
  File:      NativePg/Lib/Decimal.lean
  Subject:   Numbers in decimal digits, as ASCII text.

  * `isDigit`, `value` -- digits, and the number some digits are. `value_append`: digits one behind
    the other;
  * `fixed`, `digits`, `padded` -- a number in exactly so many digits, in as few as possible, and in
    at least so many. `value_fixed`, `value_digits`, `value_padded`: what they are read back as;
  * `takeWhile_isDigit`, `dropWhile_isDigit` -- digits end where something else begins;
  * `IsInteger` -- an integer: a minus sign, where it has one, and digits. `IsInteger.unique`: a text
    begins with one at most. `readInteger` reads a text that is one (`readInteger_iff`).
-/
import Mathlib.Tactic.Common
import Mathlib.Tactic.Ring

namespace Decimal

/-! ## 1. AllDigits -/

/-- Is this a decimal digit? -/
def isDigit (c : UInt8) : Bool := 48 ≤ c && c ≤ 57

/-- The last digit of a number. -/
def digit (n : Nat) : UInt8 := (48 + n % 10).toUInt8

/-- The number some digits are. -/
def value (ds : List UInt8) : Nat := ds.foldl (fun n c => 10 * n + (c.toNat - 48)) 0

/-- All of them are digits. -/
def AllDigits (ds : List UInt8) : Prop := ∀ c ∈ ds, isDigit c = true

instance (ds : List UInt8) : Decidable (AllDigits ds) :=
  List.decidableBAll (fun c => isDigit c = true) ds

theorem toNat_digit (n : Nat) : (digit n).toNat = 48 + n % 10 := by
  have hlt := Nat.mod_lt n (show 10 > 0 by decide)
  rw [digit, Nat.toUInt8_eq, UInt8.toNat_ofNat', Nat.mod_eq_of_lt (by omega)]

theorem isDigit_iff {c : UInt8} : isDigit c = true ↔ 48 ≤ c.toNat ∧ c.toNat ≤ 57 := by
  simp [isDigit, UInt8.le_iff_toNat_le]

theorem isDigit_digit (n : Nat) : isDigit (digit n) = true := by
  have hlt := Nat.mod_lt n (show 10 > 0 by decide)
  rw [isDigit_iff, toNat_digit]
  omega

theorem foldl_value : ∀ (ds : List UInt8) (a : Nat),
    ds.foldl (fun n c => 10 * n + (c.toNat - 48)) a = a * 10 ^ ds.length + value ds
  | [], a => by simp [value]
  | d :: ds, a => by
      have hd : value (d :: ds) = (10 * 0 + (d.toNat - 48)) * 10 ^ ds.length + value ds :=
        foldl_value ds _
      rw [List.foldl_cons, foldl_value ds, hd, List.length_cons]
      ring

@[simp] theorem value_nil : value [] = 0 := rfl

theorem value_append (a b : List UInt8) : value (a ++ b) = value a * 10 ^ b.length + value b := by
  rw [value, List.foldl_append, foldl_value]
  rfl

theorem value_cons (d : UInt8) (ds : List UInt8) :
    value (d :: ds) = (d.toNat - 48) * 10 ^ ds.length + value ds := by
  rw [value, List.foldl_cons, foldl_value, Nat.mul_zero, Nat.zero_add]

theorem value_concat (ds : List UInt8) (n : Nat) :
    value (ds ++ [digit n]) = 10 * value ds + n % 10 := by
  rw [value_append, List.length_singleton, Nat.pow_one, Nat.mul_comm]
  simp [value, toNat_digit]

theorem value_replicate_zero : ∀ k : Nat, value (List.replicate k 48) = 0
  | 0 => rfl
  | k + 1 => by
      rw [List.replicate_succ, value_cons, value_replicate_zero k]
      simp

theorem value_lt : ∀ {ds : List UInt8}, AllDigits ds → value ds < 10 ^ ds.length
  | [], _ => by simp
  | d :: ds, h => by
      obtain ⟨hd, hds⟩ := List.forall_mem_cons.mp h
      have ih := value_lt hds
      have hlt : d.toNat - 48 + 1 ≤ 10 := by
        have := (isDigit_iff.mp hd).2
        omega
      calc value (d :: ds) = (d.toNat - 48) * 10 ^ ds.length + value ds := value_cons d ds
        _ < (d.toNat - 48 + 1) * 10 ^ ds.length := by rw [Nat.add_mul, Nat.one_mul]; omega
        _ ≤ 10 * 10 ^ ds.length := Nat.mul_le_mul_right _ hlt
        _ = 10 ^ (d :: ds).length := by rw [List.length_cons, Nat.pow_succ, Nat.mul_comm]

/-- Without its last digits, a number is divided. -/
theorem value_take {ds : List UInt8} (h : AllDigits ds) (k : Nat) :
    value (ds.take k) = value ds / 10 ^ (ds.length - k) := by
  have hsplit := value_append (ds.take k) (ds.drop k)
  have hlt := value_lt fun c hc => h c (List.mem_of_mem_drop (i := k) hc)
  rw [List.take_append_drop] at hsplit
  rw [List.length_drop] at hsplit hlt
  rw [hsplit, Nat.add_comm, Nat.add_mul_div_right _ _ (Nat.pow_pos (by decide)),
    Nat.div_eq_of_lt hlt, Nat.zero_add]

theorem AllDigits.append {a b : List UInt8} (ha : AllDigits a) (hb : AllDigits b) : AllDigits (a ++ b) :=
  List.forall_mem_append.mpr ⟨ha, hb⟩

theorem allDigits_singleton (n : Nat) : AllDigits [digit n] := by
  intro c hc
  rw [List.mem_singleton.mp hc]
  exact isDigit_digit n

/-! ## 2. Numbers -/

/-- The last `width` digits of a number. -/
def fixed : (width : Nat) → Nat → List UInt8
  | 0, _ => []
  | width + 1, n => fixed width (n / 10) ++ [digit n]

@[simp] theorem length_fixed : ∀ (width n : Nat), (fixed width n).length = width
  | 0, _ => rfl
  | width + 1, n => by rw [fixed, List.length_append, length_fixed width, List.length_singleton]

theorem allDigits_fixed : ∀ (width n : Nat), AllDigits (fixed width n)
  | 0, _ => by simp [fixed, AllDigits]
  | width + 1, n => (allDigits_fixed width (n / 10)).append (allDigits_singleton n)

theorem fixed_ne_nil {width : Nat} (hw : width ≠ 0) (n : Nat) : fixed width n ≠ [] := by
  intro hnil
  have hlen := congrArg List.length hnil
  rw [length_fixed] at hlen
  exact hw hlen

theorem value_fixed : ∀ (width n : Nat), value (fixed width n) = n % 10 ^ width
  | 0, n => by simp [fixed, Nat.mod_one]
  | width + 1, n => by
      rw [fixed, value_concat, value_fixed width, Nat.pow_succ, Nat.mul_comm (10 ^ width) 10,
        Nat.mod_mul, Nat.add_comm]

theorem value_fixed_of_lt {width n : Nat} (h : n < 10 ^ width) : value (fixed width n) = n := by
  rw [value_fixed, Nat.mod_eq_of_lt h]

/-- A number in as few digits as possible; `fuel` is at least the number. -/
def digitsFrom : (fuel : Nat) → Nat → List UInt8
  | 0, n => [digit n]
  | fuel + 1, n => if n < 10 then [digit n] else digitsFrom fuel (n / 10) ++ [digit n]

/-- A number in as few digits as possible. -/
def digits (n : Nat) : List UInt8 := digitsFrom n n

theorem digitsFrom_eq : ∀ {fuel fuel' n : Nat}, n ≤ fuel → n ≤ fuel' →
    digitsFrom fuel n = digitsFrom fuel' n
  | 0, 0, _, _, _ => rfl
  | 0, fuel' + 1, n, h, _ => by
      rw [digitsFrom, digitsFrom, if_pos (by omega)]
  | fuel + 1, 0, n, _, h => by
      rw [digitsFrom, digitsFrom, if_pos (by omega)]
  | fuel + 1, fuel' + 1, n, h, h' => by
      have hdiv : 10 ≤ n → n / 10 ≤ fuel ∧ n / 10 ≤ fuel' := by omega
      rw [digitsFrom, digitsFrom]
      by_cases hn : n < 10
      · rw [if_pos hn, if_pos hn]
      · obtain ⟨hle, hle'⟩ := hdiv (Nat.not_lt.mp hn)
        rw [if_neg hn, if_neg hn, digitsFrom_eq hle hle']

theorem digits_of_lt {n : Nat} (h : n < 10) : digits n = [digit n] := by
  cases n with
  | zero => rfl
  | succ n => rw [digits, digitsFrom, if_pos h]

theorem digits_of_ge {n : Nat} (h : 10 ≤ n) : digits n = digits (n / 10) ++ [digit n] := by
  obtain ⟨m, rfl⟩ : ∃ m, n = m + 1 := ⟨n - 1, by omega⟩
  rw [digits, digitsFrom, if_neg (Nat.not_lt.mpr h), digits,
    digitsFrom_eq (show (m + 1) / 10 ≤ m by omega) (Nat.le_refl _)]

/-- **A number is written in the digits it takes.** -/
theorem digits_eq_fixed : ∀ {width n : Nat}, 10 ^ width ≤ n → n < 10 ^ (width + 1) →
    digits n = fixed (width + 1) n
  | 0, n, _, h => by
      rw [digits_of_lt (by simpa using h)]
      rfl
  | width + 1, n, h, h' => by
      have hpos : 0 < 10 ^ width := Nat.pow_pos (by decide)
      rw [Nat.pow_succ] at h h'
      have hlow : 10 ^ width ≤ n / 10 := by omega
      have hhigh : n / 10 < 10 ^ (width + 1) := by omega
      rw [digits_of_ge (by omega), digits_eq_fixed hlow hhigh]
      rfl

theorem allDigits_digits (n : Nat) : AllDigits (digits n) := by
  induction n using Nat.strongRecOn with
  | ind n ih =>
    by_cases h : n < 10
    · rw [digits_of_lt h]
      exact allDigits_singleton n
    · rw [digits_of_ge (Nat.not_lt.mp h)]
      exact (ih (n / 10) (by omega)).append (allDigits_singleton n)

theorem value_digits (n : Nat) : value (digits n) = n := by
  induction n using Nat.strongRecOn with
  | ind n ih =>
    by_cases h : n < 10
    · rw [digits_of_lt h, ← List.nil_append [digit n], value_concat, value_nil]
      omega
    · rw [digits_of_ge (Nat.not_lt.mp h), value_concat, ih (n / 10) (by omega)]
      omega

theorem digits_ne_nil (n : Nat) : digits n ≠ [] := by
  by_cases h : n < 10
  · rw [digits_of_lt h]
    exact List.cons_ne_nil _ _
  · rw [digits_of_ge (Nat.not_lt.mp h)]
    exact List.append_ne_nil_of_right_ne_nil _ (List.cons_ne_nil _ _)

theorem length_digits_le : ∀ {width n : Nat}, n < 10 ^ (width + 1) → (digits n).length ≤ width + 1
  | 0, n, h => by
      rw [digits_of_lt (by simpa using h)]
      exact Nat.le_refl 1
  | width + 1, n, h => by
      by_cases hlt : n < 10
      · rw [digits_of_lt hlt, List.length_singleton]
        omega
      · rw [Nat.pow_succ] at h
        have hdiv : (digits (n / 10)).length ≤ width + 1 := length_digits_le (by omega)
        rw [digits_of_ge (Nat.not_lt.mp hlt), List.length_append, List.length_singleton]
        omega

/-- A number in at least `width` digits. -/
def padded (width n : Nat) : List UInt8 := if n < 10 ^ width then fixed width n else digits n

theorem allDigits_padded (width n : Nat) : AllDigits (padded width n) := by
  unfold padded
  split
  · exact allDigits_fixed width n
  · exact allDigits_digits n

theorem value_padded (width n : Nat) : value (padded width n) = n := by
  unfold padded
  split
  · rename_i h
    exact value_fixed_of_lt h
  · exact value_digits n

theorem padded_ne_nil {width : Nat} (h : width ≠ 0) (n : Nat) : padded width n ≠ [] := by
  unfold padded
  split
  · exact fixed_ne_nil h n
  · exact digits_ne_nil n

/-! ## 3. Where digits end -/

/-- The text does not go on with a digit. -/
def Ends (rest : List UInt8) : Prop := ∀ c ∈ rest.head?, isDigit c = false

instance (rest : List UInt8) : Decidable (Ends rest) :=
  @Option.decidableForallMem _ (fun c => isDigit c = false) _ rest.head?

theorem ends_nil : Ends [] := by simp [Ends]

theorem ends_cons {c : UInt8} (h : isDigit c = false) (rest : List UInt8) : Ends (c :: rest) := by
  simpa [Ends] using h

theorem ends_dropWhile (s : List UInt8) : Ends (s.dropWhile isDigit) := by
  intro c hc
  have := List.head?_dropWhile_not isDigit s
  rw [Option.mem_def.mp hc] at this
  simpa using this

section
variable {ds rest : List UInt8}

/-- Where all is digits, nothing is left behind the digits. -/
theorem Ends.eq_nil (hrest : Ends rest) (h : AllDigits (ds ++ rest)) : rest = [] := by
  cases rest with
  | nil => rfl
  | cons c rest =>
    have hc : isDigit c = true := h c (by simp)
    have hc' : isDigit c = false := hrest c rfl
    rw [hc] at hc'
    cases hc'

theorem takeWhile_isDigit (hds : AllDigits ds) (hrest : Ends rest) :
    (ds ++ rest).takeWhile isDigit = ds := by
  rw [List.takeWhile_append_of_pos hds]
  cases rest with
  | nil => simp
  | cons c rest =>
    have hc : isDigit c = false := hrest c rfl
    rw [List.takeWhile_cons_of_neg (by simp [hc]), List.append_nil]

theorem dropWhile_isDigit (hds : AllDigits ds) (hrest : Ends rest) :
    (ds ++ rest).dropWhile isDigit = rest := by
  have hsplit := List.takeWhile_append_dropWhile (p := isDigit) (l := ds ++ rest)
  rw [takeWhile_isDigit hds hrest] at hsplit
  exact List.append_cancel_left hsplit

end

theorem allDigits_takeWhile (s : List UInt8) : AllDigits (s.takeWhile isDigit) := fun _ hc =>
  (List.all_eq_true.mp (List.all_takeWhile (l := s))) _ hc

/-! ## 4. Integers -/

/-- The text is the integer: digits, or a minus sign and digits. -/
inductive IsInteger : List UInt8 → Int → Prop where
  | nonneg {ds : List UInt8} (hne : ds ≠ []) (h : AllDigits ds) : IsInteger ds (value ds)
  | neg {ds : List UInt8} (hne : ds ≠ []) (h : AllDigits ds) : IsInteger (45 :: ds) (-(value ds : Int))

section
variable {ds ds' rest rest' : List UInt8} {z z' : Int}

theorem IsInteger.ne_nil (h : IsInteger ds z) : ds ≠ [] := by
  cases h with
  | nonneg hne _ => exact hne
  | neg _ _ => exact List.cons_ne_nil _ _

theorem IsInteger.mem (h : IsInteger ds z) : ∀ c ∈ ds, isDigit c = true ∨ c = 45 := by
  intro c hc
  cases h with
  | nonneg _ hds => exact .inl (hds c hc)
  | neg _ hds =>
    rcases List.mem_cons.mp hc with rfl | hc
    · exact .inr rfl
    · exact .inl (hds c hc)

/-- Digits begin with no sign. -/
theorem cons_ne_digits (hne : ds ≠ []) (hds : AllDigits ds) {c : UInt8} (hc : isDigit c = false)
    (l : List UInt8) : c :: l ≠ ds ++ rest := by
  cases ds with
  | nil => exact absurd rfl hne
  | cons d ds =>
    intro h
    rw [List.cons_append, List.cons.injEq] at h
    rw [h.1, hds d (List.mem_cons_self ..)] at hc
    cases hc

/-- Where digits end is where something else begins. -/
theorem AllDigits.unique (h : AllDigits ds) (h' : AllDigits ds') (hr : Ends rest) (hr' : Ends rest')
    (heq : ds ++ rest = ds' ++ rest') : ds = ds' ∧ rest = rest' := by
  have hds := takeWhile_isDigit h hr
  rw [heq, takeWhile_isDigit h' hr'] at hds
  cases hds
  exact ⟨rfl, List.append_cancel_left heq⟩

/-- **A text begins with one integer at most.** -/
theorem IsInteger.unique (h : IsInteger ds z) (h' : IsInteger ds' z') (hr : Ends rest)
    (hr' : Ends rest') (heq : ds ++ rest = ds' ++ rest') : ds = ds' ∧ z = z' ∧ rest = rest' := by
  cases h with
  | nonneg hne hds =>
    cases h' with
    | nonneg hne' hds' =>
      obtain ⟨rfl, rfl⟩ := hds.unique hds' hr hr' heq
      exact ⟨rfl, rfl, rfl⟩
    | neg hne' hds' => exact absurd heq.symm (cons_ne_digits hne hds (by decide) _)
  | neg hne hds =>
    cases h' with
    | nonneg hne' hds' => exact absurd heq (cons_ne_digits hne' hds' (by decide) _)
    | neg hne' hds' =>
      obtain ⟨rfl, rfl⟩ := hds.unique hds' hr hr' (List.cons.inj heq).2
      exact ⟨rfl, rfl, rfl⟩

end

theorem isInteger_digits (n : Nat) : IsInteger (digits n) n := by
  have h := IsInteger.nonneg (digits_ne_nil n) (allDigits_digits n)
  rwa [value_digits] at h

theorem isInteger_fixed {width n : Nat} (hw : width ≠ 0) (h : n < 10 ^ width) :
    IsInteger (fixed width n) n := by
  have hint := IsInteger.nonneg (fixed_ne_nil hw n) (allDigits_fixed width n)
  rwa [value_fixed_of_lt h] at hint

theorem isInteger_padded {width : Nat} (hw : width ≠ 0) (n : Nat) : IsInteger (padded width n) n := by
  have h := IsInteger.nonneg (padded_ne_nil hw n) (allDigits_padded width n)
  rwa [value_padded] at h

/-- Some digits, as a number. -/
def readDigits (ds : List UInt8) : Option Nat :=
  if ds ≠ [] ∧ AllDigits ds then some (value ds) else none

/-- A text that is an integer as a whole. -/
def readInteger : List UInt8 → Option Int
  | [] => none
  | c :: ds =>
    if c = 45 then (readDigits ds).map fun n : Nat => -(n : Int)
    else (readDigits (c :: ds)).map fun n : Nat => (n : Int)

theorem readDigits_iff {ds : List UInt8} {n : Nat} :
    readDigits ds = some n ↔ (ds ≠ [] ∧ AllDigits ds) ∧ value ds = n := by
  simp [readDigits]

theorem readInteger_iff {text : List UInt8} {z : Int} :
    readInteger text = some z ↔ IsInteger text z := by
  cases text with
  | nil => exact iff_of_false (by simp [readInteger]) fun h => h.ne_nil rfl
  | cons c ds =>
    rw [readInteger]
    by_cases hc : c = 45
    · subst hc
      rw [if_pos rfl, Option.map_eq_some_iff]
      constructor
      · rintro ⟨n, hread, rfl⟩
        obtain ⟨⟨hne, hds⟩, rfl⟩ := readDigits_iff.mp hread
        exact .neg hne hds
      · intro h
        cases h with
        | nonneg _ hds => exact absurd (hds 45 List.mem_cons_self) (by decide)
        | neg hne hds => exact ⟨_, readDigits_iff.mpr ⟨⟨hne, hds⟩, rfl⟩, rfl⟩
    · rw [if_neg hc, Option.map_eq_some_iff]
      constructor
      · rintro ⟨n, hread, rfl⟩
        obtain ⟨⟨hne, hds⟩, rfl⟩ := readDigits_iff.mp hread
        exact .nonneg hne hds
      · intro h
        cases h with
        | nonneg hne hds => exact ⟨_, readDigits_iff.mpr ⟨⟨hne, hds⟩, rfl⟩, rfl⟩
        | neg _ _ => exact absurd rfl hc

end Decimal
