/-
  File:      NativePg/Lib/Flat.lean
  Subject:   Parts of a list that only grows, and rows laid out in one.

  * `sub` -- so many elements from an offset on, where there are so many. `sub_mono`: a part stays
    what it is when the list grows;
  * `sub_flatten` -- rows of one width, one behind the other: a row is found at its number times the
    width. `Forall₂.sub`: the same in a list that stands for another, element by element.
-/
import Mathlib.Data.List.Forall2

namespace Flat

variable {α β : Type}

/-- The `len` elements from `off` on, where there are so many. -/
def sub (xs : List α) (off len : Nat) : Option (List α) :=
  if off + len ≤ xs.length then some ((xs.drop off).take len) else none

theorem sub_eq_some {xs ys : List α} {off len : Nat} :
    sub xs off len = some ys ↔ off + len ≤ xs.length ∧ (xs.drop off).take len = ys := by
  unfold sub
  by_cases h : off + len ≤ xs.length
  · rw [if_pos h]
    simp [h]
  · rw [if_neg h]
    simp [h]

theorem length_sub {xs ys : List α} {off len : Nat} (h : sub xs off len = some ys) :
    ys.length = len := by
  obtain ⟨hle, rfl⟩ := sub_eq_some.mp h
  rw [List.length_take, List.length_drop]
  omega

/-- What has just been appended. -/
theorem sub_append_right (xs ys : List α) : sub (xs ++ ys) xs.length ys.length = some ys := by
  rw [sub_eq_some, List.length_append, List.drop_left, List.take_length]
  exact ⟨Nat.le_refl _, rfl⟩

/-- **A part stays what it is when the list grows.** -/
theorem sub_mono {xs xs' ys : List α} {off len : Nat} (hpre : xs <+: xs')
    (h : sub xs off len = some ys) : sub xs' off len = some ys := by
  obtain ⟨zs, rfl⟩ := hpre
  obtain ⟨hle, rfl⟩ := sub_eq_some.mp h
  refine sub_eq_some.mpr ⟨?_, ?_⟩
  · rw [List.length_append]
    omega
  · rw [List.drop_append_of_le_length (by omega), List.take_append_of_le_length]
    rw [List.length_drop]
    omega

theorem sub_map (f : α → β) (xs : List α) (off len : Nat) :
    sub (xs.map f) off len = (sub xs off len).map (List.map f) := by
  unfold sub
  rw [List.length_map]
  by_cases h : off + len ≤ xs.length
  · rw [if_pos h, if_pos h]
    simp [List.map_take, List.map_drop]
  · rw [if_neg h, if_neg h]
    rfl

/-- A part of a list that stands for another, element by element. -/
theorem Forall₂.sub {R : α → β → Prop} {xs : List α} {ys ys' : List β} {off len : Nat}
    (h : List.Forall₂ R xs ys) (hsub : sub ys off len = some ys') :
    ∃ xs', Flat.sub xs off len = some xs' ∧ List.Forall₂ R xs' ys' := by
  obtain ⟨hle, rfl⟩ := sub_eq_some.mp hsub
  refine ⟨(xs.drop off).take len, sub_eq_some.mpr ⟨?_, rfl⟩, ?_⟩
  · rw [h.length_eq]
    exact hle
  · exact List.forall₂_take _ (List.forall₂_drop _ h)

/-- A list that stands for one that is cut is cut in the same way. -/
theorem forall₂_cut {R : α → β → Prop} {xs : List α} {pre post : List β} {y : β}
    (h : List.Forall₂ R xs (pre ++ y :: post)) : ∃ pre' x post', xs = pre' ++ x :: post' ∧
      List.Forall₂ R pre' pre ∧ R x y ∧ List.Forall₂ R post' post := by
  have htake := List.forall₂_take_append xs pre (y :: post) h
  have hdrop := List.forall₂_drop_append xs pre (y :: post) h
  obtain ⟨x, post', hx, hpost, heq⟩ := List.forall₂_cons_right_iff.mp hdrop
  refine ⟨xs.take pre.length, x, post', ?_, htake, hx, hpost⟩
  rw [← heq, List.take_append_drop]

/-- A list of elements that are there index by index. -/
theorem exists_forall₂ {R : β → α → Prop} : ∀ {xs : List α} {P : Nat → β → Prop},
    (∀ {i : Nat} {x : α}, xs[i]? = some x → ∃ y, P i y ∧ R y x) →
    ∃ ys : List β, (∀ {i : Nat} {y : β}, ys[i]? = some y → P i y) ∧ List.Forall₂ R ys xs
  | [], _, _ => ⟨[], by simp, .nil⟩
  | x :: xs, P, h => by
      obtain ⟨y, hy, hxy⟩ := @h 0 x rfl
      obtain ⟨ys, hys, hall⟩ := @exists_forall₂ R xs (fun i => P (i + 1))
        fun {i z} hi => @h (i + 1) z (by simpa using hi)
      refine ⟨y :: ys, fun {i z} hi => ?_, .cons hxy hall⟩
      cases i with
      | zero =>
        cases hi
        exact hy
      | succ i => exact hys (by simpa using hi)

section
variable {n : Nat}

theorem length_flatten : ∀ {rows : List (List α)}, (∀ row ∈ rows, row.length = n) →
    rows.flatten.length = rows.length * n
  | [], _ => by simp
  | row :: rows, h => by
      have ih := length_flatten fun r hr => h r (List.mem_cons_of_mem _ hr)
      rw [List.flatten_cons, List.length_append, ih, h row (by simp), List.length_cons,
        Nat.add_mul, Nat.one_mul, Nat.add_comm]

/-- **A row is found at its number times the width.** -/
theorem sub_flatten : ∀ {rows : List (List α)}, (∀ row ∈ rows, row.length = n) →
    ∀ {i : Nat} {row : List α}, rows[i]? = some row → sub rows.flatten (i * n) n = some row
  | [], _, _, _, hi => by simp at hi
  | row₀ :: rows, h, 0, row, hi => by
      cases hi
      have hn : row₀.length = n := h row₀ (by simp)
      rw [Nat.zero_mul, List.flatten_cons, sub_eq_some, List.length_append, ← hn]
      refine ⟨by omega, ?_⟩
      rw [List.drop_zero, List.take_left]
  | row₀ :: rows, h, i + 1, row, hi => by
      have hrest : ∀ r ∈ rows, r.length = n := fun r hr => h r (List.mem_cons_of_mem _ hr)
      obtain ⟨hle, htake⟩ := sub_eq_some.mp (sub_flatten hrest (by simpa using hi))
      have hoff : (i + 1) * n = row₀.length + i * n := by
        rw [h row₀ (by simp), Nat.add_mul, Nat.one_mul, Nat.add_comm]
      rw [List.flatten_cons, hoff, sub_eq_some, List.length_append]
      refine ⟨by omega, ?_⟩
      rw [← List.drop_drop, List.drop_left]
      exact htake

end

end Flat
