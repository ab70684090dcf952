/-
  File:      NativePg/Protocol/Sqlstate.lean
  Subject:   SQLSTATEs as integers and back (include/nativepg/sqlstate.hpp, src/sqlstate.cpp).

  * `isValidSqlstate`, `sqlstateAsString` -- the decoder of `sqlstateAsInt`, and what it accepts;
  * `IsSqlstate`, `Packed` -- five characters from 0-9 and A-Z; the number that five digits to the
    base 36 make, six bits each. `sqlstateAsInt_packed`, `isValidSqlstate_iff`: either side is such
    a number;
  * `sqlstate_packing` -- the two are inverse to each other. `minus_one_not_valid`: -1, the value
    of everything else, is a value of the encoder and not valid.
-/
import NativePg.Protocol.ConnectionState

namespace NativePg

/-! ## 1. The decoder -/

/-- `unparse_sqlstate_char`; `\0` is the answer for what is no digit. -/
def unparseSqlstateChar (value : Int) : UInt8 :=
  if value < 0 then 0
  else if value < 10 then (48 + value).toNat.toUInt8
  else if value ≤ 35 then (65 + value - 10).toNat.toUInt8
  else 0

/-- `value & six_bits_mask`; the mask takes the remainder of two's complement. -/
def sixBits (value : Int) : Int := value % 64

/-- `is_valid_sqlstate`. -/
def isValidSqlstate (val : Int) : Bool :=
  0 ≤ val && val ≤ 0x3fffffff && unparseSqlstateChar (val >>> (24 : Nat)) != 0 &&
    unparseSqlstateChar (sixBits (val >>> (18 : Nat))) != 0 &&
    unparseSqlstateChar (sixBits (val >>> (12 : Nat))) != 0 &&
    unparseSqlstateChar (sixBits (val >>> (6 : Nat))) != 0 && unparseSqlstateChar (sixBits val) != 0

/-- `sqlstate_as_string`. Its precondition is a `BOOST_ASSERT`. -/
def sqlstateAsString (val : Int) : Checked Bytes :=
  if isValidSqlstate val then
    .ok [unparseSqlstateChar (val >>> (24 : Nat)),
      unparseSqlstateChar (sixBits (val >>> (18 : Nat))),
      unparseSqlstateChar (sixBits (val >>> (12 : Nat))),
      unparseSqlstateChar (sixBits (val >>> (6 : Nat))), unparseSqlstateChar (sixBits val)]
  else .error .assertion

/-! ## 2. Digits to the base 36 -/

/-- A character an SQLSTATE is made of. -/
def isSqlstateChar (c : UInt8) : Bool := (48 ≤ c && c ≤ 57) || (65 ≤ c && c ≤ 90)

/-- Five characters from 0-9 and A-Z. -/
def IsSqlstate (s : Bytes) : Prop := s.length = 5 ∧ s.all isSqlstateChar = true

instance (s : Bytes) : Decidable (IsSqlstate s) := inferInstanceAs (Decidable (_ ∧ _))

/-- The character of a digit. -/
def sqlstateDigit (n : Fin 36) : UInt8 := unparseSqlstateChar n.val

theorem parseSqlstateChar_digit : ∀ n : Fin 36, parseSqlstateChar (sqlstateDigit n) = n.val := by
  decide +kernel

theorem sqlstateDigit_ne_zero : ∀ n : Fin 36, sqlstateDigit n ≠ 0 := by decide +kernel

theorem isSqlstateChar_digit : ∀ n : Fin 36, isSqlstateChar (sqlstateDigit n) = true := by
  decide +kernel

/-- What `parse_sqlstate_char` rejects is no character of an SQLSTATE; what it accepts is one. -/
theorem parseSqlstateChar_eq : ∀ c : UInt8,
    (isSqlstateChar c = false ∧ parseSqlstateChar c = -1) ∨ ∃ n : Fin 36, c = sqlstateDigit n :=
  forall_byte (by decide +kernel)

/-- `unparse_sqlstate_char` accepts the digits. -/
theorem unparseSqlstateChar_ne_zero {value : Int} (h : unparseSqlstateChar value ≠ 0) :
    ∃ n : Fin 36, value = n.val := by
  unfold unparseSqlstateChar at h
  split at h
  · exact absurd rfl h
  · have hlt : value ≤ 35 := by
      by_contra hgt
      rw [if_neg (by omega), if_neg hgt] at h
      exact h rfl
    exact ⟨⟨value.toNat, by omega⟩, (Int.toNat_of_nonneg (by omega)).symm⟩

/-! ## 3. Five digits -/

/-- **The text is five digits, and the number the same digits, of six bits each.** -/
inductive Packed : Bytes → Int → Prop where
  | intro (n0 n1 n2 n3 n4 : Fin 36) :
      Packed [sqlstateDigit n0, sqlstateDigit n1, sqlstateDigit n2, sqlstateDigit n3,
        sqlstateDigit n4]
        (n0.val * 2 ^ 24 + n1.val * 2 ^ 18 + n2.val * 2 ^ 12 + n3.val * 2 ^ 6 + n4.val : Nat)

/-- Six more bits, below those there are. -/
theorem or_digit (high k : Nat) (n : Fin 36) :
    high * 2 ^ (k + 6) ||| n.val <<< k = (high * 2 ^ 6 + n.val) * 2 ^ k := by
  have hlt : n.val <<< k < 2 ^ (k + 6) := by
    rw [Nat.shiftLeft_eq, Nat.pow_add, Nat.mul_comm (2 ^ k)]
    exact Nat.mul_lt_mul_of_pos_right (by omega) (Nat.two_pow_pos k)
  rw [← Nat.shiftLeft_eq, ← Nat.shiftLeft_add_eq_or_of_lt hlt, Nat.shiftLeft_eq, Nat.shiftLeft_eq,
    Nat.pow_add, Nat.mul_comm (2 ^ k), ← Nat.mul_assoc, Nat.add_mul]

/-- The bits of different digits do not meet. -/
theorem or_digits (n0 n1 n2 n3 n4 : Fin 36) :
    n0.val <<< (6 * 4) ||| n1.val <<< (6 * 3) ||| n2.val <<< (6 * 2) ||| n3.val <<< (6 * 1) |||
      n4.val =
      n0.val * 2 ^ 24 + n1.val * 2 ^ 18 + n2.val * 2 ^ 12 + n3.val * 2 ^ 6 + n4.val := by
  have h0 : n0.val <<< (6 * 4) = n0.val * 2 ^ (6 * 3 + 6) := Nat.shiftLeft_eq ..
  have h4 := or_digit (((n0.val * 2 ^ 6 + n1.val) * 2 ^ 6 + n2.val) * 2 ^ 6 + n3.val) 0 n4
  rw [Nat.shiftLeft_zero] at h4
  rw [h0, or_digit _ (6 * 3), or_digit _ (6 * 2), or_digit _ (6 * 1), h4]
  omega

/-- **`sqlstate_as_int` of five digits is their number.** -/
theorem Packed.asInt {s : Bytes} {v : Int} (h : Packed s v) : sqlstateAsInt s = v := by
  obtain ⟨n0, n1, n2, n3, n4⟩ := h
  unfold sqlstateAsInt
  simp only [parseSqlstateChar_digit]
  rw [if_neg (by omega)]
  simp only [Int.toNat_natCast]
  rw [or_digits]

/-- A text that is no SQLSTATE has the value -1, and an SQLSTATE is five digits. -/
theorem sqlstateAsInt_cases (s : Bytes) :
    (¬IsSqlstate s ∧ sqlstateAsInt s = -1) ∨ (IsSqlstate s ∧ ∃ v, Packed s v) := by
  unfold IsSqlstate sqlstateAsInt
  split
  · rename_i b0 b1 b2 b3 b4
    simp only [List.all_cons, List.all_nil, Bool.and_true, List.length_cons, List.length_nil]
    rcases parseSqlstateChar_eq b0 with ⟨h, h'⟩ | ⟨n0, rfl⟩
    · simp [h, h']
    rcases parseSqlstateChar_eq b1 with ⟨h, h'⟩ | ⟨n1, rfl⟩
    · simp [h, h']
    rcases parseSqlstateChar_eq b2 with ⟨h, h'⟩ | ⟨n2, rfl⟩
    · simp [h, h']
    rcases parseSqlstateChar_eq b3 with ⟨h, h'⟩ | ⟨n3, rfl⟩
    · simp [h, h']
    rcases parseSqlstateChar_eq b4 with ⟨h, h'⟩ | ⟨n4, rfl⟩
    · simp [h, h']
    exact .inr ⟨by simp [isSqlstateChar_digit], _, .intro n0 n1 n2 n3 n4⟩
  · rename_i hlen
    refine .inl ⟨fun h => ?_, rfl⟩
    match s, h.1 with
    | [b0, b1, b2, b3, b4], _ => exact hlen b0 b1 b2 b3 b4 rfl

/-- The digits of the number are where the decoder looks for them. -/
theorem Packed.digits {s : Bytes} {v : Int} (h : Packed s v) :
    0 ≤ v ∧ v ≤ 0x3fffffff ∧ s = [unparseSqlstateChar (v >>> (24 : Nat)),
      unparseSqlstateChar (sixBits (v >>> (18 : Nat))),
      unparseSqlstateChar (sixBits (v >>> (12 : Nat))),
      unparseSqlstateChar (sixBits (v >>> (6 : Nat))), unparseSqlstateChar (sixBits v)] := by
  obtain ⟨n0, n1, n2, n3, n4⟩ := h
  generalize hv : ((n0.val * 2 ^ 24 + n1.val * 2 ^ 18 + n2.val * 2 ^ 12 + n3.val * 2 ^ 6 + n4.val :
    Nat) : Int) = v
  simp only [Int.shiftRight_eq_div_pow, sixBits]
  have h0 : v / (2 ^ 24 : Nat) = n0.val := by omega
  have h1 : v / (2 ^ 18 : Nat) % 64 = n1.val := by omega
  have h2 : v / (2 ^ 12 : Nat) % 64 = n2.val := by omega
  have h3 : v / (2 ^ 6 : Nat) % 64 = n3.val := by omega
  have h4 : v % 64 = n4.val := by omega
  rw [h0, h1, h2, h3, h4]
  exact ⟨by omega, by omega, rfl⟩

/-- **What `is_valid_sqlstate` accepts is the number of five digits.** -/
theorem isValidSqlstate_iff {v : Int} : isValidSqlstate v = true ↔ ∃ s, Packed s v := by
  constructor
  · intro h
    simp only [isValidSqlstate, Bool.and_eq_true, decide_eq_true_eq, bne_iff_ne] at h
    obtain ⟨⟨⟨⟨⟨⟨hlow, hhigh⟩, h0⟩, h1⟩, h2⟩, h3⟩, h4⟩ := h
    obtain ⟨n0, h0⟩ := unparseSqlstateChar_ne_zero h0
    obtain ⟨n1, h1⟩ := unparseSqlstateChar_ne_zero h1
    obtain ⟨n2, h2⟩ := unparseSqlstateChar_ne_zero h2
    obtain ⟨n3, h3⟩ := unparseSqlstateChar_ne_zero h3
    obtain ⟨n4, h4⟩ := unparseSqlstateChar_ne_zero h4
    simp only [Int.shiftRight_eq_div_pow, sixBits] at h0 h1 h2 h3 h4
    have hv : v = (n0.val * 2 ^ 24 + n1.val * 2 ^ 18 + n2.val * 2 ^ 12 + n3.val * 2 ^ 6 + n4.val :
        Nat) := by omega
    rw [hv]
    exact ⟨_, .intro n0 n1 n2 n3 n4⟩
  · rintro ⟨s, h⟩
    obtain ⟨hlow, hhigh, hs⟩ := h.digits
    have hne : ∀ c ∈ s, c ≠ 0 := by
      obtain ⟨n0, n1, n2, n3, n4⟩ := h
      simp [sqlstateDigit_ne_zero]
    rw [hs] at hne
    simp only [List.forall_mem_cons, List.not_mem_nil, false_imp_iff, implies_true, and_true]
      at hne
    obtain ⟨h0, h1, h2, h3, h4⟩ := hne
    simp only [isValidSqlstate, Bool.and_eq_true, decide_eq_true_eq, bne_iff_ne]
    exact ⟨⟨⟨⟨⟨⟨hlow, hhigh⟩, h0⟩, h1⟩, h2⟩, h3⟩, h4⟩

theorem Packed.isSqlstate {s : Bytes} {v : Int} (h : Packed s v) : IsSqlstate s := by
  obtain ⟨n0, n1, n2, n3, n4⟩ := h
  exact ⟨rfl, by simp [isSqlstateChar_digit]⟩

theorem Packed.valid {s : Bytes} {v : Int} (h : Packed s v) : isValidSqlstate v = true :=
  isValidSqlstate_iff.mpr ⟨s, h⟩

/-- **`sqlstate_as_string` of the number of five digits is the digits.** -/
theorem Packed.asString {s : Bytes} {v : Int} (h : Packed s v) : sqlstateAsString v = .ok s := by
  rw [sqlstateAsString, if_pos h.valid, ← h.digits.2.2]

/-- An SQLSTATE is packed into its number. -/
theorem IsSqlstate.packed {s : Bytes} (h : IsSqlstate s) : Packed s (sqlstateAsInt s) := by
  rcases sqlstateAsInt_cases s with ⟨hnot, _⟩ | ⟨_, v, hv⟩
  · exact absurd h hnot
  · rw [hv.asInt]
    exact hv

/-! ## 4. The two are inverse to each other -/

/-- -1 is `sqlstate_as_int` of a text, and not valid. -/
theorem minus_one_not_valid :
    ¬∀ v : Int, isValidSqlstate v = true ↔ ∃ s, v = sqlstateAsInt s := by
  intro h
  exact absurd ((h (-1)).mpr ⟨ascii "2350", by decide⟩) (by decide)

/-- **SQLSTATEs and valid numbers correspond**: the functions of the two files invert each other,
    and the value of all other texts is -1. -/
theorem sqlstate_packing :
    (∀ s, (sqlstateAsInt s = -1 ↔ ¬IsSqlstate s) ∧ (IsSqlstate s →
      isValidSqlstate (sqlstateAsInt s) = true ∧ sqlstateAsString (sqlstateAsInt s) = .ok s)) ∧
    (∀ s s', IsSqlstate s → sqlstateAsInt s = sqlstateAsInt s' → s = s') ∧
    ∀ v, (isValidSqlstate v = true ↔ ∃ s, IsSqlstate s ∧ v = sqlstateAsInt s) ∧
      (isValidSqlstate v = true ↔ v ≠ -1 ∧ ∃ s, v = sqlstateAsInt s) ∧
      (isValidSqlstate v = true → ∃ s, sqlstateAsString v = .ok s ∧ sqlstateAsInt s = v) := by
  refine ⟨fun s => ⟨⟨fun h hs => ?_, fun hnot => ?_⟩, fun hs => ?_⟩, fun s s' hs heq => ?_,
    fun v => ⟨⟨fun h => ?_, ?_⟩, ⟨fun h => ?_, ?_⟩, fun h => ?_⟩⟩
  · have hlow := hs.packed.digits.1
    omega
  · rcases sqlstateAsInt_cases s with ⟨_, h⟩ | ⟨hs, _⟩
    · exact h
    · exact absurd hs hnot
  · exact ⟨hs.packed.valid, hs.packed.asString⟩
  · have hs' : IsSqlstate s' := by
      rcases sqlstateAsInt_cases s' with ⟨_, h⟩ | ⟨hs', _⟩
      · have hlow := hs.packed.digits.1
        omega
      · exact hs'
    rw [hs.packed.digits.2.2, heq, ← hs'.packed.digits.2.2]
  · obtain ⟨s, hs⟩ := isValidSqlstate_iff.mp h
    exact ⟨s, hs.isSqlstate, hs.asInt.symm⟩
  · rintro ⟨s, hs, rfl⟩
    exact hs.packed.valid
  · obtain ⟨s, hs⟩ := isValidSqlstate_iff.mp h
    have hlow := hs.digits.1
    exact ⟨by omega, s, hs.asInt.symm⟩
  · rintro ⟨hne, s, rfl⟩
    rcases sqlstateAsInt_cases s with ⟨_, h⟩ | ⟨hs, _⟩
    · exact absurd h hne
    · exact hs.packed.valid
  · obtain ⟨s, hs⟩ := isValidSqlstate_iff.mp h
    exact ⟨s, hs.asString, hs.asInt⟩

example : sqlstateAsString (sqlstateAsInt (ascii "42P01")) = .ok (ascii "42P01") := by decide

end NativePg
