/-
  File:      NativePg/Lib/Decode.lean
  Subject:   Decoders that read values off the front of some bytes.

  * `Decoder`, and the decoders of bytes, integers, terminated strings and repetitions;
  * `Reads d bytes a` -- `d` reads these bytes as `a`, whatever follows them. One rule for each way
    decoders are put together;
  * `Ensures d P` -- whatever `d` reads, `P` holds of it;
  * `Local d` -- what follows the bytes `d` reads makes no difference to it;
  * `whole` -- a decoder that has to use up its input. `whole_of_reads`, `Ensures.of_whole`.
-/
import NativePg.Lib.BigEndian
import NativePg.Lib.Delimited

namespace Decode

/-- What is read, and what is left. -/
abbrev Decoder (α : Type) := StateT (List UInt8) Option α

/-! ## 1. Decoders -/

/-- A byte. -/
def byte : Decoder UInt8
  | [] => none
  | b :: rest => some (b, rest)

/-- So many bytes. -/
def bytes (n : Nat) : Decoder (List UInt8) := fun input =>
  if n ≤ input.length then some (input.take n, input.drop n) else none

/-- A signed integer of so many bytes. -/
def int (width : Nat) : Decoder Int := fun input =>
  if width ≤ input.length then some (BigEndian.toInt (input.take width), input.drop width) else none

/-- A string up to its NUL. -/
def string : Decoder (List UInt8) := fun input =>
  if 0 ∈ input then
    let s := input.takeWhile (· ≠ 0)
    some (s, input.drop (s.length + 1))
  else none

variable {α β : Type}

/-- So many values. -/
def many (d : Decoder α) : Nat → Decoder (List α)
  | 0 => pure []
  | n + 1 => do
    let a ← d
    let as ← many d n
    pure (a :: as)

/-- A count and as many values. -/
def counted (width : Nat) (d : Decoder α) : Decoder (List α) := do
  let n ← int width
  if n < 0 then failure else many d n.toNat

/-- The decoder on the whole input. -/
def whole (d : Decoder α) (input : List UInt8) : Option α :=
  match d input with
  | some (a, []) => some a
  | _ => none

theorem bind_apply (d : Decoder α) (f : α → Decoder β) (input : List UInt8) :
    (d >>= f) input = (d input).bind fun p => f p.1 p.2 := rfl

/-! ## 2. Reading what was written -/

/-- The decoder reads these bytes as `a`. -/
def Reads (d : Decoder α) (bytes : List UInt8) (a : α) : Prop :=
  ∀ rest, d (bytes ++ rest) = some (a, rest)

section
variable {d : Decoder α} {f : α → Decoder β} {bs bs' : List UInt8} {a : α} {b : β}

theorem reads_pure (a : α) : Reads (pure a) [] a := fun _ => rfl

theorem Reads.bind (h : Reads d bs a) (h' : Reads (f a) bs' b) : Reads (d >>= f) (bs ++ bs') b := by
  intro rest
  rw [List.append_assoc, bind_apply, h (bs' ++ rest), Option.bind_some]
  exact h' rest

/-- A step that reads nothing more. -/
theorem Reads.bind_nil (h : Reads d bs a) (h' : Reads (f a) [] b) : Reads (d >>= f) bs b := by
  have hbind := h.bind h'
  rwa [List.append_nil] at hbind

/-- The last value, and what is made of it. -/
theorem Reads.bind_pure {g : α → β} (h : Reads d bs a) :
    Reads (do let a ← d; pure (g a)) bs (g a) :=
  h.bind_nil (reads_pure (g a))

theorem reads_byte (b : UInt8) : Reads byte [b] b := fun _ => rfl

theorem reads_bytes (bs : List UInt8) : Reads (bytes bs.length) bs bs := by
  intro rest
  unfold bytes
  rw [if_pos (by simp), List.take_left, List.drop_left]

theorem reads_int {width : Nat} {z : Int} (h : BigEndian.Fits width z) :
    Reads (int width) (BigEndian.ofInt width z) z := by
  intro rest
  have hlength := BigEndian.length_ofInt width z
  unfold int
  rw [if_pos (by simp), List.take_left' hlength, List.drop_left' hlength, BigEndian.toInt_ofInt h]

theorem reads_string {s : List UInt8} (h : 0 ∉ s) : Reads string (s ++ [0]) s := by
  intro rest
  unfold string
  simp only
  rw [List.append_assoc, List.singleton_append, if_pos (by simp),
    Delimited.drop_takeWhile_ne_append h, Delimited.takeWhile_ne_append h]

theorem reads_many {enc : α → List UInt8} : ∀ {as : List α}, (∀ a ∈ as, Reads d (enc a) a) →
    Reads (many d as.length) (as.flatMap enc) as
  | [], _ => reads_pure []
  | a :: as, h => by
      have hrest := reads_many fun a' ha' => h a' (List.mem_cons_of_mem a ha')
      exact (h a List.mem_cons_self).bind hrest.bind_pure

theorem reads_counted {width : Nat} {enc : α → List UInt8} {as : List α}
    (hcount : BigEndian.Fits width as.length) (h : ∀ a ∈ as, Reads d (enc a) a) :
    Reads (counted width d) (BigEndian.ofInt width as.length ++ as.flatMap enc) as := by
  refine (reads_int hcount).bind ?_
  rw [if_neg (by omega), Int.toNat_natCast]
  exact reads_many h

theorem whole_of_reads (h : Reads d bs a) : whole d bs = some a := by
  have hrun := h []
  rw [List.append_nil] at hrun
  rw [whole, hrun]

end

/-! ## 3. What can be read -/

/-- Whatever the decoder reads, `P` holds of it. -/
def Ensures (d : Decoder α) (P : α → Prop) : Prop :=
  ∀ input a rest, d input = some (a, rest) → P a

section
variable {d : Decoder α} {f : α → Decoder β} {P : α → Prop} {Q : β → Prop} {a : α}

theorem ensures_true (d : Decoder α) : Ensures d fun _ => True := fun _ _ _ _ => trivial

theorem ensures_pure (h : P a) : Ensures (pure a) P := by
  intro input a' rest hrun
  cases hrun
  exact h

theorem ensures_failure : Ensures failure P := by
  intro input a rest hrun
  cases hrun

theorem Ensures.bind (h : Ensures d P) (h' : ∀ a, P a → Ensures (f a) Q) : Ensures (d >>= f) Q := by
  intro input b rest hrun
  obtain ⟨⟨a, input'⟩, ha, hb⟩ := Option.bind_eq_some_iff.mp hrun
  exact h' a (h _ _ _ ha) _ _ _ hb

theorem ensures_string : Ensures string (0 ∉ ·) := by
  intro input s rest hrun
  unfold string at hrun
  split at hrun
  · cases hrun
    intro hmem
    simpa using List.all_eq_true.mp List.all_takeWhile 0 hmem
  · cases hrun

theorem Ensures.of_whole (h : Ensures d P) {input : List UInt8} (hrun : whole d input = some a) :
    P a := by
  unfold whole at hrun
  split at hrun
  · rename_i a' hd
    cases hrun
    exact h _ _ _ hd
  · cases hrun

end

/-! ## 4. What follows -/

/-- What follows the bytes that are read is left as it is. -/
def Local (d : Decoder α) : Prop :=
  ∀ input a rest, d input = some (a, rest) → ∀ more, d (input ++ more) = some (a, rest ++ more)

section
variable {d : Decoder α} {f : α → Decoder β}

theorem local_pure (a : α) : Local (pure a) := by
  intro input a' rest hrun more
  cases hrun
  rfl

theorem local_failure : Local (failure : Decoder α) := by
  intro input a rest hrun
  cases hrun

theorem local_byte : Local byte := by
  intro input a rest hrun more
  cases input with
  | nil => cases hrun
  | cons b input =>
    cases hrun
    rfl

theorem local_bytes (n : Nat) : Local (bytes n) := by
  intro input a rest hrun more
  unfold bytes at hrun ⊢
  split at hrun
  · rename_i hle
    cases hrun
    rw [if_pos (by rw [List.length_append]; omega), List.take_append_of_le_length hle,
      List.drop_append_of_le_length hle]
  · cases hrun

theorem Local.bind (h : Local d) (h' : ∀ a, Local (f a)) : Local (d >>= f) := by
  intro input b rest hrun more
  obtain ⟨⟨a, input'⟩, ha, hb⟩ := Option.bind_eq_some_iff.mp hrun
  rw [bind_apply, h _ _ _ ha more, Option.bind_some]
  exact h' a _ _ _ hb more

/-- An integer is read as its bytes are. -/
theorem int_eq (width : Nat) : int width = bytes width >>= fun b => pure (BigEndian.toInt b) := by
  funext input
  rw [bind_apply, int, bytes]
  by_cases h : width ≤ input.length
  · rw [if_pos h, if_pos h]
    rfl
  · rw [if_neg h, if_neg h]
    rfl

theorem local_int (width : Nat) : Local (int width) := by
  rw [int_eq]
  exact (local_bytes width).bind fun _ => local_pure _

end

end Decode
