/-
  File:      NativePg/Lib/Hexadecimal.lean
  Subject:   Hexadecimal digits, and bytes as pairs of them.

  * `digitValue`, `value` -- the number of a digit of either case, and of a sequence of them;
  * `Pairs` -- pairs of digits and the bytes they denote. `exists_pairs_iff`: which texts are such
    pairs;
  * `encode` -- bytes as pairs of lower case digits. `pairs_encode`.
-/
import Mathlib.Tactic.Common

namespace Hexadecimal

/-! ## 1. Digits -/

/-- The number of a digit. -/
def digitValue (c : UInt8) : Option Nat :=
  if 48 ≤ c && c ≤ 57 then some (c.toNat - 48)
  else if 65 ≤ c && c ≤ 70 then some (c.toNat - 65 + 10)
  else if 97 ≤ c && c ≤ 102 then some (c.toNat - 97 + 10)
  else none

/-- Is this a digit, of either case? -/
def isDigit (c : UInt8) : Bool := (digitValue c).isSome

/-- The number a sequence of digits denotes. -/
def value (ds : List UInt8) : Nat := ds.foldl (fun n c => 16 * n + (digitValue c).getD 0) 0

/-- The lower case digit of a number below sixteen. -/
def digit (n : Nat) : UInt8 := (if n < 10 then 48 + n else 97 + (n - 10)).toUInt8

theorem isDigit_of_digitValue {c : UInt8} {n : Nat} (h : digitValue c = some n) : isDigit c = true := by
  rw [isDigit, h]
  rfl

theorem exists_digitValue {c : UInt8} (h : isDigit c = true) : ∃ n, digitValue c = some n :=
  Option.isSome_iff_exists.mp h

theorem digitValue_lt {c : UInt8} {n : Nat} (h : digitValue c = some n) : n < 16 := by
  unfold digitValue at h
  simp only [Bool.and_eq_true, decide_eq_true_eq, UInt8.le_iff_toNat_le, UInt8.reduceToNat] at h
  split at h
  · cases h
    omega
  · split at h
    · cases h
      omega
    · split at h
      · cases h
        omega
      · cases h

theorem digitValue_digit : ∀ n : Fin 16, digitValue (digit n) = some n.val := by decide

theorem value_pair {c d : UInt8} {h l : Nat} (hc : digitValue c = some h) (hd : digitValue d = some l) :
    value [c, d] = 16 * h + l := by
  simp [value, hc, hd]

/-! ## 2. Bytes as pairs of digits -/

/-- **The text is pairs of digits, and these are the bytes they denote**, in order. -/
inductive Pairs : List UInt8 → List UInt8 → Prop where
  | nil : Pairs [] []
  | cons {c d : UInt8} {h l : Nat} {s bytes : List UInt8} (hc : digitValue c = some h)
      (hd : digitValue d = some l) (hs : Pairs s bytes) :
      Pairs (c :: d :: s) ((16 * h + l).toUInt8 :: bytes)

theorem Pairs.length_mod {s bytes : List UInt8} (h : Pairs s bytes) : s.length % 2 = 0 := by
  induction h with
  | nil => rfl
  | cons _ _ _ ih =>
    simp only [List.length_cons]
    omega

theorem Pairs.isDigit {s bytes : List UInt8} (h : Pairs s bytes) : ∀ c ∈ s, isDigit c = true := by
  induction h with
  | nil => exact List.forall_mem_nil _
  | cons hc hd _ ih =>
    exact List.forall_mem_cons.mpr ⟨isDigit_of_digitValue hc,
      List.forall_mem_cons.mpr ⟨isDigit_of_digitValue hd, ih⟩⟩

theorem exists_pairs : ∀ {s : List UInt8}, s.length % 2 = 0 → (∀ c ∈ s, isDigit c = true) →
    ∃ bytes, Pairs s bytes
  | [], _, _ => ⟨[], .nil⟩
  | [_], h, _ => absurd h (by simp)
  | c :: d :: s, hlen, h => by
      obtain ⟨hc, hrest⟩ := List.forall_mem_cons.mp h
      obtain ⟨hd, hs⟩ := List.forall_mem_cons.mp hrest
      obtain ⟨m, hm⟩ := exists_digitValue hc
      obtain ⟨n, hn⟩ := exists_digitValue hd
      have heven : s.length % 2 = 0 := by
        simp only [List.length_cons] at hlen
        omega
      obtain ⟨bytes, hbytes⟩ := exists_pairs heven hs
      exact ⟨_, .cons hm hn hbytes⟩

/-- **The texts that are pairs of digits**: an even number of digits of either case. -/
theorem exists_pairs_iff {s : List UInt8} :
    (∃ bytes, Pairs s bytes) ↔ s.length % 2 = 0 ∧ ∀ c ∈ s, isDigit c = true := by
  constructor
  · intro h
    obtain ⟨bytes, h⟩ := h
    exact ⟨h.length_mod, h.isDigit⟩
  · intro h
    exact exists_pairs h.1 h.2

/-- Bytes as pairs of lower case digits. -/
def encode : List UInt8 → List UInt8
  | [] => []
  | b :: bytes => digit (b.toNat / 16) :: digit (b.toNat % 16) :: encode bytes

/-- **The pairs of a sequence of bytes denote it.** -/
theorem pairs_encode : ∀ bytes : List UInt8, Pairs (encode bytes) bytes
  | [] => .nil
  | b :: bytes => by
      have hlt : b.toNat < 256 := b.toNat_lt
      have hhigh := digitValue_digit ⟨b.toNat / 16, by omega⟩
      have hlow := digitValue_digit ⟨b.toNat % 16, by omega⟩
      have h := Pairs.cons hhigh hlow (pairs_encode bytes)
      have hbyte : (16 * (b.toNat / 16) + b.toNat % 16).toUInt8 = b := by
        rw [Nat.div_add_mod]
        simp
      simp only [hbyte] at h
      exact h

end Hexadecimal
