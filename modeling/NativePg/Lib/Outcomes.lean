/-
  File:      NativePg/Lib/Outcomes.lean
  Subject:   Computations that end with a value or with an error.

  * `bind_eq_ok`, `map_eq_ok` -- a sequence that ends with a value, taken apart; `bind_eq_error`,
    `map_eq_error` -- one that ends with an error;
  * `mapM_eq_some` -- a list of computations that all have a value;
  * `Agree ub R x y` -- where `y` ends, with a value or with an error other than `ub`, `x` ends in the
    same way, and the values are related by `R`;
  * `Agree.bind`, `Agree.map`, `Agree.mono` -- agreement is kept by sequencing.
-/
import Mathlib.Data.List.Forall2

namespace NativePg

variable {ε α β γ δ : Type} {ub : ε} {R : α → β → Prop} {S : γ → δ → Prop}

/-! ## 1. Taking a sequence apart -/

theorem bind_eq_ok {x : Except ε α} {f : α → Except ε β} {b : β} :
    x >>= f = .ok b ↔ ∃ a, x = .ok a ∧ f a = .ok b := by
  cases x with
  | error e => exact ⟨nofun, fun ⟨_, h, _⟩ => nomatch h⟩
  | ok a =>
    refine ⟨fun h => ⟨a, rfl, h⟩, ?_⟩
    rintro ⟨_, h, hf⟩
    cases h
    exact hf

theorem map_eq_ok {x : Except ε α} {f : α → β} {b : β} :
    x.map f = .ok b ↔ ∃ a, x = .ok a ∧ f a = b := by
  cases x with
  | error e => exact ⟨nofun, fun ⟨_, h, _⟩ => nomatch h⟩
  | ok a =>
    refine ⟨fun h => ⟨a, rfl, Except.ok.inj h⟩, ?_⟩
    rintro ⟨_, h, hf⟩
    cases h
    exact congrArg _ hf

/-- A sequence that ends with an error has it from its first part, or from the rest. -/
theorem bind_eq_error {x : Except ε α} {f : α → Except ε β} {e : ε} :
    x >>= f = .error e ↔ x = .error e ∨ ∃ a, x = .ok a ∧ f a = .error e := by
  cases x with
  | error e' =>
    refine ⟨fun h => .inl ?_, ?_⟩
    · cases h
      rfl
    · rintro (h | ⟨_, h, _⟩)
      · cases h
        rfl
      · cases h
  | ok a =>
    refine ⟨fun h => .inr ⟨a, rfl, h⟩, ?_⟩
    rintro (h | ⟨_, h, hf⟩)
    · cases h
    · cases h
      exact hf

theorem map_eq_error {x : Except ε α} {f : α → β} {e : ε} : x.map f = .error e ↔ x = .error e := by
  cases x with
  | error e' =>
    refine ⟨fun h => ?_, fun h => ?_⟩
    · cases h
      rfl
    · cases h
      rfl
  | ok a => exact ⟨nofun, nofun⟩

/-- **All have a value**, element by element. -/
theorem mapM_eq_some {f : α → Option β} : ∀ {l : List α} {bs : List β},
    l.mapM f = some bs ↔ List.Forall₂ (fun a b => f a = some b) l bs
  | [], bs => by
      rw [List.forall₂_nil_left_iff, List.mapM_nil]
      exact ⟨fun h => (Option.some.inj h).symm, fun h => by rw [h]; rfl⟩
  | a :: l, bs => by
      rw [List.mapM_cons, List.forall₂_cons_left_iff]
      constructor
      · intro h
        obtain ⟨b, hb, h⟩ := Option.bind_eq_some_iff.mp h
        obtain ⟨bs', hbs, h⟩ := Option.bind_eq_some_iff.mp h
        cases h
        exact ⟨b, bs', hb, mapM_eq_some.mp hbs, rfl⟩
      · intro h
        obtain ⟨b, bs', hb, hbs, rfl⟩ := h
        rw [hb, mapM_eq_some.mpr hbs]
        rfl

theorem exists_mapM_eq_some {f : α → Option β} : ∀ {l : List α}, (∀ a ∈ l, ∃ b, f a = some b) →
    ∃ bs, l.mapM f = some bs
  | [], _ => ⟨[], rfl⟩
  | a :: l, h => by
      obtain ⟨⟨b, hb⟩, hl⟩ := List.forall_mem_cons.mp h
      obtain ⟨bs, hbs⟩ := exists_mapM_eq_some hl
      refine ⟨b :: bs, ?_⟩
      rw [List.mapM_cons, hb, hbs]
      rfl

/-- An element on the left has one on the right. -/
theorem exists_of_forall₂ {R : α → β → Prop} {l : List α} {bs : List β} (h : List.Forall₂ R l bs) :
    ∀ a ∈ l, ∃ b, R a b := by
  induction h with
  | nil => simp
  | @cons a b l bs hab _ ih =>
    intro x hx
    rcases List.mem_cons.mp hx with rfl | hx
    · exact ⟨b, hab⟩
    · exact ih x hx

/-! ## 2. Agreement -/

/-- **Agreement up to the error `ub`** of the second computation. -/
inductive Agree (ub : ε) (R : α → β → Prop) : Except ε α → Except ε β → Prop where
  | undefined {x} : Agree ub R x (.error ub)
  | error {e} : Agree ub R (.error e) (.error e)
  | ok {a b} (h : R a b) : Agree ub R (.ok a) (.ok b)

namespace Agree

theorem mono {R' : α → β → Prop} {x : Except ε α} {y : Except ε β} (h : Agree ub R x y)
    (himp : ∀ a b, R a b → R' a b) : Agree ub R' x y := by
  cases h with
  | undefined => exact .undefined
  | error => exact .error
  | ok h => exact .ok (himp _ _ h)

theorem bind {x : Except ε α} {y : Except ε β} {f : α → Except ε γ} {g : β → Except ε δ}
    (h : Agree ub R x y) (hfg : ∀ a b, R a b → Agree ub S (f a) (g b)) :
    Agree ub S (x >>= f) (y >>= g) := by
  cases h with
  | undefined => exact .undefined
  | error => exact .error
  | ok h => exact hfg _ _ h

theorem map {x : Except ε α} {y : Except ε β} {f : α → γ} {g : β → δ} (h : Agree ub R x y)
    (hfg : ∀ a b, R a b → S (f a) (g b)) : Agree ub S (x.map f) (y.map g) := by
  cases h with
  | undefined => exact .undefined
  | error => exact .error
  | ok h => exact .ok (hfg _ _ h)

/-- The same computation twice. -/
theorem refl {R : α → α → Prop} (x : Except ε α) (h : ∀ a, x = .ok a → R a a) :
    Agree ub R x x := by
  cases x with
  | error e => exact .error
  | ok a => exact .ok (h a rfl)

theorem ok_ok {a : α} {b : β} (h : Agree ub R (.ok a) (.ok b)) : R a b := by
  cases h with
  | ok h => exact h

end Agree

end NativePg
