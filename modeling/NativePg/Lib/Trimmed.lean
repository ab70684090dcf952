/-
  File:      NativePg/Lib/Trimmed.lean
  Subject:   Lists without what surrounds them.

  * `strip` -- a list without the elements of one kind at its two ends;
  * `Solid` -- a list with no such element at an end. `strip_eq`: `strip` finds what is solid,
    `exists_strip`: and it takes nothing else away.
-/
import Mathlib.Data.List.Basic
import Mathlib.Data.List.TakeWhile
import Mathlib.Tactic.Common

namespace Trimmed

variable {α : Type*} {p : α → Bool} {a b l : List α}

/-- Everything is of the kind. -/
def All (p : α → Bool) (l : List α) : Prop := ∀ c ∈ l, p c = true

instance (p : α → Bool) (l : List α) : Decidable (All p l) :=
  inferInstanceAs (Decidable (∀ c ∈ l, p c = true))

/-- The list without what is of the kind at its front, and then at its back. -/
def strip (p : α → Bool) (l : List α) : List α := ((l.dropWhile p).reverse.dropWhile p).reverse

/-- Neither end is of the kind. -/
def Solid (p : α → Bool) (l : List α) : Prop :=
  (∀ c ∈ l.head?, p c = false) ∧ ∀ c ∈ l.getLast?, p c = false

theorem all_nil : All p [] := by simp [All]

theorem All.append (ha : All p a) (hb : All p b) : All p (a ++ b) := List.forall_mem_append.mpr ⟨ha, hb⟩

theorem all_takeWhile (p : α → Bool) (l : List α) : All p (l.takeWhile p) := fun c hc =>
  List.all_eq_true.mp List.all_takeWhile c hc

theorem dropWhile_eq_self (h : ∀ c ∈ l.head?, p c = false) : l.dropWhile p = l := by
  cases l with
  | nil => rfl
  | cons c l => rw [List.dropWhile_cons_of_neg (by simp [h c rfl])]

/-- What is between two solid lists may be of the kind. -/
theorem Solid.append (ha : Solid p a) (hb : Solid p b) (hane : a ≠ []) (hbne : b ≠ []) (l : List α) :
    Solid p (a ++ (l ++ b)) := by
  refine ⟨fun c hc => ha.1 c ?_, fun c hc => hb.2 c ?_⟩
  · rwa [List.head?_append_of_ne_nil _ hane] at hc
  · rwa [List.getLast?_append_of_ne_nil _ (List.append_ne_nil_of_right_ne_nil l hbne),
      List.getLast?_append_of_ne_nil _ hbne] at hc

theorem solid_of_forall (h : ∀ c ∈ l, p c = false) : Solid p l :=
  ⟨fun c hc => h c (List.mem_of_mem_head? hc), fun c hc => h c (List.mem_of_mem_getLast? hc)⟩

/-- **What is solid is found.** -/
theorem strip_eq (ha : All p a) (hb : All p b) (hl : Solid p l) : strip p (a ++ l ++ b) = l := by
  have hback : ((l ++ b).reverse.dropWhile p).reverse = l := by
    rw [List.reverse_append, List.dropWhile_append_of_pos fun c hc => hb c (List.mem_reverse.mp hc),
      dropWhile_eq_self, List.reverse_reverse]
    intro c hc
    rw [List.head?_reverse] at hc
    exact hl.2 c hc
  unfold strip
  rw [List.append_assoc, List.dropWhile_append_of_pos ha]
  cases l with
  | nil =>
    rw [List.nil_append, List.dropWhile_eq_nil_iff.mpr hb]
    rfl
  | cons c l =>
    have hfront : (c :: l ++ b).dropWhile p = c :: l ++ b :=
      dropWhile_eq_self fun c' hc' => hl.1 c' (by simpa using hc')
    rw [hfront, hback]

/-- What is solid stays, whatever follows. -/
theorem exists_strip_append (ha : All p a) (hl : Solid p l) (hne : l ≠ []) (b : List α) :
    ∃ rest, strip p (a ++ (l ++ b)) = l ++ rest := by
  have hfront : (l ++ b).dropWhile p = l ++ b := by
    refine dropWhile_eq_self fun c hc => hl.1 c ?_
    rwa [List.head?_append_of_ne_nil _ hne] at hc
  have hback : l.reverse.dropWhile p = l.reverse := by
    refine dropWhile_eq_self fun c hc => hl.2 c ?_
    rwa [List.head?_reverse] at hc
  unfold strip
  rw [List.dropWhile_append_of_pos ha, hfront, List.reverse_append, List.dropWhile_append]
  split
  · exact ⟨[], by rw [hback, List.reverse_reverse, List.append_nil]⟩
  · exact ⟨(b.reverse.dropWhile p).reverse, by rw [List.reverse_append, List.reverse_reverse]⟩

theorem strip_eq_self (hl : Solid p l) : strip p l = l := by
  have h := strip_eq all_nil all_nil hl
  rwa [List.nil_append, List.append_nil] at h

theorem head_dropWhile (l : List α) : ∀ c ∈ (l.dropWhile p).head?, p c = false := by
  intro c hc
  have h := List.head?_dropWhile_not p l
  rw [Option.mem_def.mp hc] at h
  simpa using h

theorem solid_strip (p : α → Bool) (l : List α) : Solid p (strip p l) := by
  unfold strip
  refine ⟨fun c hc => ?_, fun c hc => ?_⟩
  · -- the front of what is left is the front of what was left before
    rw [List.head?_reverse] at hc
    have hsuffix := List.dropWhile_suffix p (l := (l.dropWhile p).reverse)
    obtain ⟨front, hfront⟩ := hsuffix
    have hlast := congrArg List.getLast? hfront
    have hne : (l.dropWhile p).reverse.dropWhile p ≠ [] := by
      intro hnil
      rw [hnil] at hc
      cases hc
    rw [List.getLast?_append_of_ne_nil _ hne, List.getLast?_reverse] at hlast
    rw [hlast] at hc
    exact head_dropWhile l c hc
  · rw [List.getLast?_reverse] at hc
    exact head_dropWhile _ c hc

/-- **Nothing else is taken away.** -/
theorem exists_strip (p : α → Bool) (l : List α) :
    ∃ a b, l = a ++ strip p l ++ b ∧ All p a ∧ All p b := by
  refine ⟨l.takeWhile p, ((l.dropWhile p).reverse.takeWhile p).reverse, ?_, ?_, ?_⟩
  · unfold strip
    rw [List.append_assoc, ← List.reverse_append, List.takeWhile_append_dropWhile,
      List.reverse_reverse, List.takeWhile_append_dropWhile]
  · exact all_takeWhile p l
  · exact fun c hc => all_takeWhile p _ c (List.mem_reverse.mp hc)

end Trimmed
