/-
  File:      NativePg/Lib/BigEndian.lean
  Subject:   Integers of a fixed width, most significant byte first.

  * `toNat`, `ofNat` -- unsigned integers. `toNat_ofNat`, `ofNat_toNat`: they are inverse, up to
    the bits that do not fit;
  * `toInt`, `ofInt` -- two's complement. `toInt_ofInt` for the integers that fit (`Fits`),
    `ofInt_toInt` for all bytes.
-/
import Mathlib.Tactic.Common
import Mathlib.Tactic.Ring

namespace BigEndian

/-! ## 1. Unsigned -/

/-- The number some bytes are. -/
def toNat (bytes : List UInt8) : Nat := bytes.foldl (fun n b => n * 256 + b.toNat) 0

/-- The last `width` bytes of a number. -/
def ofNat : (width : Nat) → Nat → List UInt8
  | 0, _ => []
  | width + 1, n => (n / 256 ^ width).toUInt8 :: ofNat width n

@[simp] theorem length_ofNat : ∀ (width n : Nat), (ofNat width n).length = width
  | 0, _ => rfl
  | width + 1, n => by rw [ofNat, List.length_cons, length_ofNat width n]

theorem foldl_eq : ∀ (bytes : List UInt8) (a : Nat),
    bytes.foldl (fun n b => n * 256 + b.toNat) a = a * 256 ^ bytes.length + toNat bytes
  | [], a => by simp [toNat]
  | b :: bytes, a => by
      have hb : toNat (b :: bytes) = (0 * 256 + b.toNat) * 256 ^ bytes.length + toNat bytes :=
        foldl_eq bytes (0 * 256 + b.toNat)
      rw [List.foldl_cons, foldl_eq bytes, hb, List.length_cons, Nat.pow_succ, Nat.zero_mul,
        Nat.zero_add, Nat.add_mul, Nat.mul_assoc, Nat.mul_comm 256, Nat.add_assoc]

theorem toNat_cons (b : UInt8) (bytes : List UInt8) :
    toNat (b :: bytes) = b.toNat * 256 ^ bytes.length + toNat bytes := by
  rw [toNat, List.foldl_cons, foldl_eq, Nat.zero_mul, Nat.zero_add]

theorem toNat_lt : ∀ bytes : List UInt8, toNat bytes < 256 ^ bytes.length
  | [] => by simp [toNat]
  | b :: bytes => by
      have hb : b.toNat + 1 ≤ 256 := b.toNat_lt
      have ih := toNat_lt bytes
      calc toNat (b :: bytes) = b.toNat * 256 ^ bytes.length + toNat bytes := toNat_cons b bytes
        _ < (b.toNat + 1) * 256 ^ bytes.length := by rw [Nat.add_mul, Nat.one_mul]; omega
        _ ≤ 256 * 256 ^ bytes.length := Nat.mul_le_mul_right _ hb
        _ = 256 ^ (b :: bytes).length := by rw [List.length_cons, Nat.pow_succ, Nat.mul_comm]

theorem toNat_ofNat : ∀ width n : Nat, toNat (ofNat width n) = n % 256 ^ width
  | 0, n => by simp [toNat, ofNat, Nat.mod_one]
  | width + 1, n => by
      have hbyte : (n / 256 ^ width).toUInt8.toNat = n / 256 ^ width % 256 := by
        rw [Nat.toUInt8_eq, UInt8.toNat_ofNat']
      rw [ofNat, toNat_cons, toNat_ofNat width n, length_ofNat, hbyte, Nat.pow_succ,
        Nat.mod_mul (x := n), Nat.add_comm, Nat.mul_comm]

/-- Bytes of the same width are told apart by their number. -/
theorem toNat_inj : ∀ {bytes bytes' : List UInt8}, bytes.length = bytes'.length →
    toNat bytes = toNat bytes' → bytes = bytes'
  | [], [], _, _ => rfl
  | b :: bytes, b' :: bytes', hlen, h => by
      have hlen' : bytes.length = bytes'.length := Nat.succ.inj hlen
      have hlt := toNat_lt bytes
      have hlt' := toNat_lt bytes'
      rw [toNat_cons, toNat_cons] at h
      rw [← hlen'] at h hlt'
      have hpos : 0 < 256 ^ bytes.length := Nat.pow_pos (by decide)
      have hhead : b.toNat = b'.toNat := by
        have := congrArg (· / 256 ^ bytes.length) h
        simpa [Nat.mul_comm _ (256 ^ bytes.length), Nat.mul_add_div hpos, Nat.div_eq_of_lt hlt,
          Nat.div_eq_of_lt hlt'] using this
      rw [hhead] at h
      rw [UInt8.toNat_inj.mp hhead, toNat_inj hlen' (Nat.add_left_cancel h)]

theorem ofNat_toNat (bytes : List UInt8) : ofNat bytes.length (toNat bytes) = bytes := by
  apply toNat_inj
  · exact length_ofNat ..
  · rw [toNat_ofNat, Nat.mod_eq_of_lt (toNat_lt bytes)]

/-! ## 2. Two's complement -/

/-- The integer some bytes are. -/
def toInt (bytes : List UInt8) : Int :=
  let n := toNat bytes
  if 2 * n < 256 ^ bytes.length then n else (n : Int) - 256 ^ bytes.length

/-- The last `width` bytes of an integer. -/
def ofInt (width : Nat) (z : Int) : List UInt8 := ofNat width (z % 256 ^ width).toNat

/-- An integer that has a representation of this width. -/
def Fits (width : Nat) (z : Int) : Prop := -(256 ^ width) ≤ 2 * z ∧ 2 * z < 256 ^ width

instance (width : Nat) (z : Int) : Decidable (Fits width z) := inferInstanceAs (Decidable (_ ∧ _))

/-- The integers of four bytes. -/
theorem fits_four_iff {z : Int} : Fits 4 z ↔ -2147483648 ≤ z ∧ z ≤ 2147483647 := by
  unfold Fits
  omega

/-- The integers of eight bytes. -/
theorem fits_eight_iff {z : Int} :
    Fits 8 z ↔ -9223372036854775808 ≤ z ∧ z ≤ 9223372036854775807 := by
  unfold Fits
  omega

@[simp] theorem length_ofInt (width : Nat) (z : Int) : (ofInt width z).length = width :=
  length_ofNat ..

theorem toNat_ofInt (width : Nat) (z : Int) :
    ((toNat (ofInt width z) : Nat) : Int) = z % 256 ^ width := by
  have hpos : (0 : Int) < 256 ^ width := Int.pow_pos (by decide)
  have hnonneg := Int.emod_nonneg z (Int.ne_of_gt hpos)
  have hlt := Int.emod_lt_of_pos z hpos
  have hcast : ((256 ^ width : Nat) : Int) = 256 ^ width := Int.natCast_pow 256 width
  rw [ofInt, toNat_ofNat, Nat.mod_eq_of_lt (by omega), Int.toNat_of_nonneg hnonneg]

theorem toInt_ofInt {width : Nat} {z : Int} (h : Fits width z) : toInt (ofInt width z) = z := by
  have hpos : (0 : Int) < 256 ^ width := Int.pow_pos (by decide)
  have hcast : ((256 ^ width : Nat) : Int) = 256 ^ width := Int.natCast_pow 256 width
  have hn := toNat_ofInt width z
  obtain ⟨hlow, hhigh⟩ := h
  unfold toInt
  simp only [length_ofInt]
  by_cases hz : 0 ≤ z
  · rw [Int.emod_eq_of_lt hz (by omega)] at hn
    rw [if_pos (by omega), hn]
  · have hmod : z % 256 ^ width = z + 256 ^ width := by
      rw [← Int.add_emod_right, Int.emod_eq_of_lt (by omega) (by omega)]
    rw [hmod] at hn
    rw [if_neg (by omega), hn]
    omega

/-- An integer whose last byte is zero is a multiple of 256. -/
theorem dvd_toInt (bytes : List UInt8) : (256 : Int) ∣ toInt (bytes ++ [0]) := by
  have hn : toNat (bytes ++ [0]) = toNat bytes * 256 := by
    simp [toNat, List.foldl_append]
  have hp : (256 : Int) ∣ 256 ^ (bytes ++ [0]).length := by
    rw [List.length_append, List.length_singleton, Int.pow_succ]
    exact Int.dvd_mul_left ..
  have hd : (256 : Int) ∣ (toNat (bytes ++ [0]) : Nat) := by
    rw [hn]
    exact Int.natCast_dvd_natCast.mpr (Nat.dvd_mul_left ..)
  unfold toInt
  simp only
  split
  · exact hd
  · exact Int.dvd_sub hd hp

theorem fits_toInt (bytes : List UInt8) : Fits bytes.length (toInt bytes) := by
  have hlt := toNat_lt bytes
  have hcast : ((256 ^ bytes.length : Nat) : Int) = 256 ^ bytes.length :=
    Int.natCast_pow 256 bytes.length
  unfold Fits toInt
  simp only
  split
  · omega
  · omega

theorem ofInt_toInt (bytes : List UInt8) : ofInt bytes.length (toInt bytes) = bytes := by
  have hlt := toNat_lt bytes
  have hcast : ((256 ^ bytes.length : Nat) : Int) = 256 ^ bytes.length :=
    Int.natCast_pow 256 bytes.length
  have hmod : (toInt bytes) % 256 ^ bytes.length = (toNat bytes : Int) := by
    unfold toInt
    simp only
    split
    · exact Int.emod_eq_of_lt (by omega) (by omega)
    · rw [Int.sub_emod_right]
      exact Int.emod_eq_of_lt (by omega) (by omega)
  rw [ofInt, hmod, Int.toNat_natCast, ofNat_toNat]

end BigEndian
