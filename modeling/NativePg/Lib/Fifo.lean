/-
  File:      NativePg/Lib/Fifo.lean
  Subject:   A queue, told by its history: everything that was put in, and how much was taken out.

  * `Fifo` -- what was pushed since the queue was last cleared, in order, and how many of it were
    taken;
  * `contents_push`, `contents_take` -- what each operation makes of the contents.
-/
import Mathlib.Tactic.Common

/-- A queue and its history since it was last cleared. -/
structure Fifo (α : Type) where
  /-- Everything pushed, oldest first. -/
  pushed : List α := []
  /-- How many of these were taken. -/
  taken : Nat := 0
  taken_le : taken ≤ pushed.length

namespace Fifo

variable {α : Type}

/-- The empty queue. -/
def empty : Fifo α where
  taken_le := Nat.zero_le _

/-- What was pushed and not taken. -/
def contents (q : Fifo α) : List α := q.pushed.drop q.taken

def push (q : Fifo α) (xs : List α) : Fifo α where
  pushed := q.pushed ++ xs
  taken := q.taken
  taken_le := by
    rw [List.length_append]
    exact Nat.le_add_right_of_le q.taken_le

/-- Takes `n` off the front, or all there are. -/
def take (q : Fifo α) (n : Nat) : Fifo α where
  pushed := q.pushed
  taken := q.taken + min n q.contents.length
  taken_le := by
    have := q.taken_le
    simp only [contents, List.length_drop]
    omega

def clear (_ : Fifo α) : Fifo α := empty

@[simp] theorem contents_push (q : Fifo α) (xs : List α) :
    (q.push xs).contents = q.contents ++ xs :=
  List.drop_append_of_le_length q.taken_le

@[simp] theorem contents_take (q : Fifo α) (n : Nat) : (q.take n).contents = q.contents.drop n := by
  rw [List.drop_eq_drop_min]
  simp only [contents, take, List.drop_drop]

end Fifo
