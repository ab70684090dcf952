/-
  File:      NativePg/Protocol/Fifo.lean
  Subject:   The read buffer is a queue of bytes, whatever its caller does.

  * `ReadBufferOp`, `ReadBuffer.apply` -- the members of `read_buffer`, and what a caller writes
    into the prepared area between them;
  * `QueueRun` -- a buffer used from its construction on, beside the history of the bytes that
    were committed and consumed;
  * `apply_spec` -- what one operation does to the areas, and that it stays in the memory;
  * `read_buffer_is_fifo` -- along every run the committed area is what was committed and not
    consumed since the last `reset`.
-/
import NativePg.Lib.Fifo
import NativePg.Protocol.ReadBuffer

namespace NativePg

/-! ## 1. Operations -/

/-- What is done to a `read_buffer`. -/
inductive ReadBufferOp where
  | prepare (required : Nat)
  /-- The caller writes `data` to the prepared area, from `start` on. -/
  | write (start : Nat) (data : Bytes)
  | commit (n : Nat)
  | consume (n : Nat)
  | reset
  deriving DecidableEq, Repr

namespace ReadBuffer

def apply (rb : ReadBuffer) : ReadBufferOp → Checked ReadBuffer
  | .prepare required => rb.prepare required
  | .write start data => rb.write start data
  | .commit n => .ok (rb.commit n)
  | .consume n => .ok (rb.consume n)
  | .reset => .ok rb.reset

/-- What a caller is held to: the bytes asked for and those that are there do not exceed the
    largest power of two of `std::size_t`, and it writes to the prepared area only. -/
def Allows (rb : ReadBuffer) : ReadBufferOp → Prop
  | .prepare required => rb.committedArea.length + required ≤ 2 ^ 63
  | .write start data => start + data.length ≤ rb.preparedArea.length
  | _ => True

instance (rb : ReadBuffer) (op : ReadBufferOp) : Decidable (rb.Allows op) := by
  unfold Allows
  split <;> infer_instance

/-! ## 2. The areas -/

theorem length_preparedArea (rb : ReadBuffer) : rb.preparedArea.length = rb.preparedSize := by
  rw [preparedArea, List.length_drop, preparedSize]

/-- **`commit` moves bytes from the front of the prepared area to the back of the committed one.** -/
theorem committedArea_commit (rb : ReadBuffer) (n : Nat) :
    (rb.commit n).committedArea = rb.committedArea ++ rb.preparedArea.take n := by
  have hc := rb.committed_le
  have hp := rb.prepared_le
  have hmin : rb.preparedArea.take (min n rb.preparedSize) = rb.preparedArea.take n := by
    rw [← length_preparedArea, List.take_eq_take_min (i := n)]
  have htake : rb.buffer.take (rb.preparedOffset + min n rb.preparedSize) =
      rb.buffer.take rb.preparedOffset ++ rb.preparedArea.take n := by
    rw [List.take_add, ← hmin]
    rfl
  have hlen : (rb.buffer.take rb.preparedOffset).length = rb.preparedOffset :=
    List.length_take_of_le hp
  unfold commit committedArea
  simp only
  rw [htake, List.drop_append_of_le_length (by omega)]

theorem preparedArea_commit (rb : ReadBuffer) (n : Nat) :
    (rb.commit n).preparedArea = rb.preparedArea.drop n := by
  rw [List.drop_eq_drop_min, length_preparedArea]
  simp only [preparedArea, commit, List.drop_drop]

@[simp] theorem committedArea_reset (rb : ReadBuffer) : rb.reset.committedArea = [] := by
  simp [committedArea, reset]

/-- **A write stays in the prepared area**, where it replaces the bytes it is about. -/
theorem write_spec (rb : ReadBuffer) {start : Nat} {data : Bytes}
    (h : start + data.length ≤ rb.preparedArea.length) :
    ∃ rb', rb.write start data = .ok rb' ∧ rb'.committedArea = rb.committedArea ∧
      rb'.preparedArea = rb.preparedArea.take start ++ data ++
        rb.preparedArea.drop (start + data.length) := by
  have hlen : (rb.buffer.take rb.preparedOffset).length = rb.preparedOffset :=
    List.length_take_of_le rb.prepared_le
  rw [length_preparedArea] at h
  refine ⟨_, if_pos h, ?_, ?_⟩
  · simp only [committedArea]
    rw [List.take_left' hlen]
  · simp only [preparedArea]
    rw [List.drop_left' hlen]

end ReadBuffer

/-! ## 3. Runs -/

/-- A buffer and the history of its bytes since the last `reset`. -/
structure TrackedBuffer where
  rb : ReadBuffer
  history : Fifo UInt8

namespace TrackedBuffer

def new (initialSize : Nat) : TrackedBuffer := ⟨.new initialSize, .empty⟩

/-- What an operation puts into the history: a commit the bytes at the front of the prepared
    area, as many as there are; a consume takes that many out. -/
def record (t : TrackedBuffer) : ReadBufferOp → Fifo UInt8
  | .prepare _ => t.history
  | .write _ _ => t.history
  | .commit n => t.history.push (t.rb.preparedArea.take n)
  | .consume n => t.history.take n
  | .reset => t.history.clear

def step (t : TrackedBuffer) (op : ReadBufferOp) : Checked TrackedBuffer :=
  (t.rb.apply op).map fun rb => ⟨rb, t.record op⟩

/-- The committed area is what was committed and not consumed. -/
def Agrees (t : TrackedBuffer) : Prop := t.rb.committedArea = t.history.contents

/-- What one operation does to the areas. -/
def Does (t t' : TrackedBuffer) : ReadBufferOp → Prop
  | .prepare required =>
      t'.rb.committedArea = t.rb.committedArea ∧ required ≤ t'.rb.preparedArea.length
  | .write start data =>
      t'.rb.committedArea = t.rb.committedArea ∧
      t'.rb.preparedArea = t.rb.preparedArea.take start ++ data ++
        t.rb.preparedArea.drop (start + data.length)
  | .commit n =>
      let k := min n t.rb.preparedArea.length
      t'.rb.committedArea = t.rb.committedArea ++ t.rb.preparedArea.take k ∧
      t'.rb.preparedArea = t.rb.preparedArea.drop k
  | .consume n =>
      let k := min n t.rb.committedArea.length
      t'.rb.committedArea = t.rb.committedArea.drop k ∧ t'.rb.preparedArea = t.rb.preparedArea
  | .reset => t'.rb.committedArea = [] ∧ t'.rb.preparedArea = t.rb.buffer

/-- **An operation a caller may perform stays in the memory and does what it is for.** -/
theorem step_spec (t : TrackedBuffer) {op : ReadBufferOp} (h : t.rb.Allows op) :
    ∃ t', t.step op = .ok t' ∧ t'.history = t.record op ∧ t.Does t' op := by
  unfold step
  cases op with
  | prepare required =>
    simp only [ReadBuffer.Allows] at h
    obtain ⟨rb', hrb, hcommitted, hroom⟩ := @ReadBuffer.prepare_spec t.rb required (by omega)
    refine ⟨⟨rb', _⟩, by rw [ReadBuffer.apply, hrb]; rfl, rfl, hcommitted, ?_⟩
    rwa [ReadBuffer.length_preparedArea]
  | write start data =>
    obtain ⟨rb', hrb, hcommitted, hprepared⟩ := t.rb.write_spec h
    exact ⟨⟨rb', _⟩, by rw [ReadBuffer.apply, hrb]; rfl, rfl, hcommitted, hprepared⟩
  | commit n =>
    refine ⟨⟨t.rb.commit n, _⟩, rfl, rfl, ?_, ?_⟩
    · rw [ReadBuffer.committedArea_commit, List.take_eq_take_min (i := n)]
    · rw [ReadBuffer.preparedArea_commit, List.drop_eq_drop_min]
  | consume n =>
    refine ⟨⟨t.rb.consume n, _⟩, rfl, rfl, ?_, rfl⟩
    rw [ReadBuffer.committedArea_consume, List.drop_eq_drop_min]
  | reset => exact ⟨⟨t.rb.reset, _⟩, rfl, rfl, t.rb.committedArea_reset, rfl⟩

/-- One operation keeps the committed area equal to the history's contents. -/
theorem agrees_step {t t' : TrackedBuffer} {op : ReadBufferOp} (hagrees : t.Agrees)
    (hhistory : t'.history = t.record op) (hdoes : t.Does t' op) : t'.Agrees := by
  unfold Agrees at hagrees ⊢
  rw [hhistory]
  cases op with
  | prepare required => exact hdoes.1.trans hagrees
  | write start data => exact hdoes.1.trans hagrees
  | commit n =>
    rw [record, Fifo.contents_push, hdoes.1, hagrees, ← List.take_eq_take_min]
  | consume n =>
    rw [record, Fifo.contents_take, hdoes.1, ← List.drop_eq_drop_min, hagrees]
  | reset => exact hdoes.1

/-- What a caller that keeps to the rules can make of a new buffer. -/
inductive Reachable (initialSize : Nat) : TrackedBuffer → Prop where
  | new : Reachable initialSize (.new initialSize)
  | step {t t'} (op : ReadBufferOp) (h : Reachable initialSize t) (hop : t.rb.Allows op)
      (hs : t.step op = .ok t') : Reachable initialSize t'

theorem agrees_reachable {initialSize : Nat} {t : TrackedBuffer} (h : Reachable initialSize t) :
    t.Agrees := by
  induction h with
  | new => exact ReadBuffer.committedArea_new initialSize
  | @step t t' op h hop hs ih =>
    obtain ⟨t'', hs', hhistory, hdoes⟩ := t.step_spec hop
    cases hs.symm.trans hs'
    exact agrees_step ih hhistory hdoes

/-- **The read buffer is a FIFO.** In every state a new buffer can be brought to, its offsets are
    in order, its committed area is what was committed and not consumed since the last `reset`,
    and every operation that is allowed there stays in the memory and does what it is for:
    `prepare` makes room and changes nothing else, `commit` and `consume` are clamped to the area
    they take their bytes from. -/
theorem read_buffer_is_fifo {initialSize : Nat} {t : TrackedBuffer} (h : Reachable initialSize t) :
    t.rb.committedOffset ≤ t.rb.preparedOffset ∧ t.rb.preparedOffset ≤ t.rb.buffer.length ∧
    t.rb.committedArea = t.history.pushed.drop t.history.taken ∧
    ∀ op, t.rb.Allows op → ∃ t', t.step op = .ok t' ∧ t.Does t' op :=
  ⟨t.rb.committed_le, t.rb.prepared_le, agrees_reachable h, fun _ hop =>
    let ⟨t', hs, _, hdoes⟩ := t.step_spec hop
    ⟨t', hs, hdoes⟩⟩

/-- A buffer of two bytes that is filled, read from and grown. -/
theorem read_buffer_is_fifo_grown :
    ∃ t, Reachable 2 t ∧ t.history.pushed = [7, 8] ∧ t.rb.committedArea = [8] ∧
      t.rb.Allows (.prepare 5) ∧ ∃ t', t.step (.prepare 5) = .ok t' ∧ t.Does t' (.prepare 5) := by
  have h0 : Reachable 2 (new 2) := .new
  have h1 := Reachable.step (.write 0 [7, 8]) h0 (by decide) rfl
  have h2 := Reachable.step (.commit 3) h1 trivial rfl
  have h3 := Reachable.step (.consume 1) h2 trivial rfl
  have hspec := read_buffer_is_fifo h3
  exact ⟨_, h3, rfl, hspec.2.2.1, by decide, hspec.2.2.2 _ (by decide)⟩

end TrackedBuffer

end NativePg
