/-
  File:      NativePg/Lib/Delimited.lean
  Subject:   Lists cut at the first occurrence of a delimiter.

  * `takeWhile_ne_append`, `drop_takeWhile_ne_append` -- a list that is a field without the
    delimiter, the delimiter and a rest is cut into these;
  * `dropWhile_append_cons`, `cut_unique` -- the same for a test: a list is cut at the first element
    that fails it in one way only;
  * `exists_first`, `cut_behind` -- where an element does not have a property, there is a first one,
    and all others stand behind it;
  * `terminated` -- fields one behind the other, each followed by the delimiter;
    `terminated_inj` -- such fields can be told apart.
-/
import Mathlib.Data.List.TakeWhile

namespace Delimited

section
variable {α : Type} {p : α → Bool} {pre pre' rest rest' : List α} {x x' : α}

theorem dropWhile_append_cons (hx : p x = false) :
    (pre ++ x :: rest).dropWhile p = pre.dropWhile p ++ x :: rest := by
  have hcons : (x :: rest).dropWhile p = x :: rest :=
    List.dropWhile_cons_of_neg (by rw [hx]; decide)
  rw [List.dropWhile_append, hcons]
  cases hpre : pre.dropWhile p with
  | nil => rfl
  | cons a as => rfl

theorem dropWhile_append_cons_of_pos (hpre : ∀ a ∈ pre, p a = true) (hx : p x = false) :
    (pre ++ x :: rest).dropWhile p = x :: rest := by
  rw [dropWhile_append_cons hx, List.dropWhile_eq_nil_iff.mpr hpre, List.nil_append]

/-- **The first element that fails the test, and what stands before and behind it.** -/
theorem cut_unique (hpre : ∀ a ∈ pre, p a = true) (hx : p x = false)
    (hpre' : ∀ a ∈ pre', p a = true) (hx' : p x' = false)
    (h : pre ++ x :: rest = pre' ++ x' :: rest') : pre = pre' ∧ x = x' ∧ rest = rest' := by
  have htail := congrArg (List.dropWhile p) h
  rw [dropWhile_append_cons_of_pos hpre hx, dropWhile_append_cons_of_pos hpre' hx'] at htail
  rw [htail] at h
  obtain ⟨rfl, rfl⟩ := List.cons.inj htail
  exact ⟨List.append_cancel_right h, rfl, rfl⟩

/-- An element that fails the test is the first that does, or stands behind it. -/
theorem cut_behind {P : α → Prop} (hpre : ∀ a ∈ pre, P a) (hx' : ¬P x')
    (h : pre' ++ x' :: rest' = pre ++ x :: rest) :
    (pre' = pre ∧ x' = x) ∨ ∃ between, pre' = pre ++ x :: between := by
  rcases List.append_eq_append_iff.mp h with ⟨as, hpre', has⟩ | ⟨cs, hcs, hrest⟩
  · cases as with
    | nil =>
      cases has
      exact .inl ⟨by simpa using hpre'.symm, rfl⟩
    | cons a as =>
      cases has
      exact absurd (hpre x' (by rw [hpre']; simp)) hx'
  · cases cs with
    | nil =>
      cases hrest
      exact .inl ⟨by simpa using hcs, rfl⟩
    | cons a cs =>
      cases hrest
      exact .inr ⟨cs, hcs⟩

theorem exists_first {P : α → Prop} : ∀ {xs : List α}, (∃ x ∈ xs, ¬P x) →
    ∃ pre x post, xs = pre ++ x :: post ∧ (∀ y ∈ pre, P y) ∧ ¬P x
  | [], h => by simp at h
  | x :: xs, h => by
      by_cases hx : P x
      · have hrest : ∃ y ∈ xs, ¬P y := by
          obtain ⟨y, hy, hnot⟩ := h
          rcases List.mem_cons.mp hy with rfl | hy
          · exact absurd hx hnot
          · exact ⟨y, hy, hnot⟩
        obtain ⟨pre, y, post, rfl, hpre, hnot⟩ := exists_first hrest
        exact ⟨x :: pre, y, post, rfl, List.forall_mem_cons.mpr ⟨hx, hpre⟩, hnot⟩
      · exact ⟨[], x, xs, rfl, by simp, hx⟩

end

variable {α : Type} [DecidableEq α] {d : α} {field rest : List α}

theorem takeWhile_ne_append (h : d ∉ field) (rest : List α) :
    (field ++ d :: rest).takeWhile (· ≠ d) = field := by
  rw [List.takeWhile_append_of_pos (fun a ha => by
    simp only [decide_eq_true_eq, ne_eq]
    rintro rfl
    exact h ha)]
  simp

theorem drop_takeWhile_ne_append (h : d ∉ field) (rest : List α) :
    (field ++ d :: rest).drop (((field ++ d :: rest).takeWhile (· ≠ d)).length + 1) = rest := by
  rw [takeWhile_ne_append h, List.drop_append]
  simp

theorem takeWhile_ne_self (h : d ∉ field) : field.takeWhile (· ≠ d) = field := by
  have := takeWhile_ne_append h []
  rw [List.takeWhile_append] at this
  split at this
  · rename_i hlen
    exact List.IsPrefix.eq_of_length (List.takeWhile_prefix _) hlen
  · exact this

/-- Fields one behind the other, each followed by the delimiter. -/
def terminated (d : α) (fields : List (List α)) : List α := fields.flatMap (· ++ [d])

theorem terminated_inj : ∀ {fs fs' : List (List α)}, (∀ f ∈ fs, d ∉ f) → (∀ f ∈ fs', d ∉ f) →
    terminated d fs = terminated d fs' → fs = fs'
  | [], [], _, _, _ => rfl
  | [], f' :: fs', _, _, h => by simp [terminated] at h
  | f :: fs, [], _, _, h => by simp [terminated] at h
  | f :: fs, f' :: fs', hf, hf', h => by
      simp only [terminated, List.flatMap_cons, List.append_assoc, List.singleton_append] at h
      have hhead := congrArg (List.takeWhile (· ≠ d)) h
      rw [takeWhile_ne_append (hf f (by simp)), takeWhile_ne_append (hf' f' (by simp))] at hhead
      subst hhead
      have htail := (List.cons.inj (List.append_cancel_left h)).2
      rw [terminated_inj (fun x hx => hf x (by simp [hx])) (fun x hx => hf' x (by simp [hx])) htail]

end Delimited
