/-
  File:      NativePg/Protocol/ReadBuffer.lean
  Subject:   The buffer received bytes go to, and the messages read off it.

  * `ReadBuffer` -- `read_buffer` (include/nativepg/protocol/detail/read_buffer.hpp): one chunk of
    memory and two offsets, whose order is part of the type;
  * `receive` -- what the transport does with a read: it writes into the prepared area;
  * `prepare_spec`, `committedArea_consume`, `committedArea_receive_commit` -- what each operation
    does to the committed area, which is all the machines above look at;
  * `messageParser` -- `parse_message`, read the way its callers read it, is a frame parser.
-/
import NativePg.Lib.Framing
import NativePg.Protocol.Messages

namespace NativePg

/-! ## 1. The buffer -/

/-- `std::bit_ceil`: the smallest power of two that is not less than `n`. -/
def bitCeil (n : Nat) : Nat := if n ≤ 1 then 1 else 2 ^ ((n - 1).log2 + 1)

/-- `next_power_of_2`: `bit_ceil` would have undefined behaviour above `2 ^ 63`. -/
def nextPowerOf2 (n : Nat) : Nat := if n ≤ 2 ^ 63 then bitCeil n else 2 ^ 64 - 1

theorem le_bitCeil (n : Nat) : n ≤ bitCeil n := by
  unfold bitCeil
  split
  · assumption
  · have := Nat.lt_log2_self (n := n - 1)
    omega

theorem le_nextPowerOf2 {n : Nat} (h : n < 2 ^ 64) : n ≤ nextPowerOf2 n := by
  unfold nextPowerOf2
  split
  · exact le_bitCeil n
  · omega

/-- `read_buffer`; the memory behind `buffer_` has `size_` bytes. -/
structure ReadBuffer where
  buffer : Bytes
  committedOffset : Nat := 0
  preparedOffset : Nat := 0
  committed_le : committedOffset ≤ preparedOffset
  prepared_le : preparedOffset ≤ buffer.length
  deriving DecidableEq, Repr

namespace ReadBuffer

/-- The constructor. Memory that has not been written yet is zero here; nothing reads it. -/
def new (initialSize : Nat) : ReadBuffer where
  buffer := List.replicate (nextPowerOf2 initialSize) 0
  committed_le := Nat.le_refl 0
  prepared_le := Nat.zero_le _

/-- `committed_area`. -/
def committedArea (rb : ReadBuffer) : Bytes :=
  (rb.buffer.take rb.preparedOffset).drop rb.committedOffset

/-- `prepared_area`. -/
def preparedArea (rb : ReadBuffer) : Bytes := rb.buffer.drop rb.preparedOffset

/-- `prepared_area().size()`. -/
def preparedSize (rb : ReadBuffer) : Nat := rb.buffer.length - rb.preparedOffset

/-- `prepare`: nothing where there is room, else a `memmove` where that is enough, else a bigger
    buffer. The sum is one of `std::size_t`: where it wraps around, the `memcpy` writes past the
    end of the new buffer. -/
def prepare (rb : ReadBuffer) (required : Nat) : Checked ReadBuffer :=
  if rb.preparedSize ≥ required then .ok rb
  else
    let committed := rb.committedArea
    if rb.committedOffset + rb.preparedSize ≥ required then
      .ok {
        buffer := committed ++ rb.buffer.drop committed.length
        preparedOffset := committed.length
        committed_le := Nat.zero_le _
        prepared_le := by simp }
    else
      let newSize := nextPowerOf2 ((committed.length + required) % 2 ^ 64)
      if h : committed.length ≤ newSize then
        .ok {
          buffer := committed ++ List.replicate (newSize - committed.length) 0
          preparedOffset := committed.length
          committed_le := Nat.zero_le _
          prepared_le := by simp }
      else .error .outOfRange

/-- `commit`. -/
def commit (rb : ReadBuffer) (n : Nat) : ReadBuffer where
  buffer := rb.buffer
  committedOffset := rb.committedOffset
  preparedOffset := rb.preparedOffset + min n rb.preparedSize
  committed_le := Nat.le_add_right_of_le rb.committed_le
  prepared_le := by
    have := rb.prepared_le
    simp only [preparedSize]
    omega

/-- `consume`. -/
def consume (rb : ReadBuffer) (n : Nat) : ReadBuffer where
  buffer := rb.buffer
  committedOffset := rb.committedOffset + min n rb.committedArea.length
  preparedOffset := rb.preparedOffset
  committed_le := by
    have := rb.committed_le
    have := rb.prepared_le
    simp only [committedArea, List.length_drop, List.length_take]
    omega
  prepared_le := rb.prepared_le

/-- `reset`. -/
def reset (rb : ReadBuffer) : ReadBuffer where
  buffer := rb.buffer
  committed_le := Nat.le_refl 0
  prepared_le := Nat.zero_le _

/-- A caller copies `data` to the bytes of the prepared area from `start` on. Where these are not
    in the area, it writes past the end of the buffer. -/
def write (rb : ReadBuffer) (start : Nat) (data : Bytes) : Checked ReadBuffer :=
  if start + data.length ≤ rb.preparedSize then
    .ok {
      buffer := rb.buffer.take rb.preparedOffset ++ (rb.preparedArea.take start ++ data ++
        rb.preparedArea.drop (start + data.length))
      committedOffset := rb.committedOffset
      preparedOffset := rb.preparedOffset
      committed_le := rb.committed_le
      prepared_le := by
        have := rb.prepared_le
        simp only [List.length_append, List.length_take]
        omega }
  else .error .outOfRange

/-- A read has brought `data`: the transport has written it to the front of the prepared area. -/
def receive (rb : ReadBuffer) (data : Bytes) : ReadBuffer where
  buffer := rb.buffer.take rb.preparedOffset ++ data ++
    rb.buffer.drop (rb.preparedOffset + data.length)
  committedOffset := rb.committedOffset
  preparedOffset := rb.preparedOffset
  committed_le := rb.committed_le
  prepared_le := by
    have := rb.prepared_le
    simp only [List.length_append, List.length_take, List.length_drop]
    omega

/-! ## 2. The committed area -/

theorem length_committedArea (rb : ReadBuffer) :
    rb.committedArea.length = rb.preparedOffset - rb.committedOffset := by
  have := rb.prepared_le
  simp only [committedArea, List.length_drop, List.length_take]
  omega

@[simp] theorem committedArea_new (n : Nat) : (new n).committedArea = [] := by
  simp [committedArea, new]

/-- **`prepare` makes room and keeps the committed bytes.** -/
theorem prepare_spec (rb : ReadBuffer) {required : Nat}
    (h : rb.committedArea.length + required < 2 ^ 64) :
    ∃ rb', rb.prepare required = .ok rb' ∧ rb'.committedArea = rb.committedArea ∧
      required ≤ rb'.preparedSize := by
  have hp := rb.prepared_le
  have hc := rb.committed_le
  have hlen := rb.length_committedArea
  unfold prepare
  split
  · exact ⟨rb, rfl, rfl, by assumption⟩
  · simp only
    split
    · rename_i hmove
      refine ⟨_, rfl, by simp [committedArea], ?_⟩
      simp only [preparedSize, List.length_append, List.length_drop] at hmove ⊢
      omega
    · have hsize := le_nextPowerOf2 h
      simp only [Nat.mod_eq_of_lt h]
      rw [dif_pos (by omega)]
      refine ⟨_, rfl, by simp [committedArea], ?_⟩
      simp only [preparedSize, List.length_append, List.length_replicate]
      omega

/-- **`consume` takes bytes off the front of the committed area.** -/
@[simp] theorem committedArea_consume (rb : ReadBuffer) (n : Nat) :
    (rb.consume n).committedArea = rb.committedArea.drop n := by
  rw [List.drop_eq_drop_min]
  simp only [committedArea, consume, List.drop_drop]

/-- What is written into the prepared area is not committed yet. -/
@[simp] theorem committedArea_receive (rb : ReadBuffer) (data : Bytes) :
    (rb.receive data).committedArea = rb.committedArea := by
  have htake : (rb.buffer.take rb.preparedOffset).length = rb.preparedOffset := by
    rw [List.length_take]
    exact Nat.min_eq_left rb.prepared_le
  simp only [committedArea, receive, List.append_assoc]
  rw [List.take_left' htake]

/-- **A read that fits the prepared area ends up behind the committed bytes.** -/
theorem committedArea_receive_commit (rb : ReadBuffer) {data : Bytes}
    (h : data.length ≤ rb.preparedSize) :
    ((rb.receive data).commit data.length).committedArea = rb.committedArea ++ data := by
  have hp := rb.prepared_le
  have hc := rb.committed_le
  have hroom : min data.length (rb.receive data).preparedSize = data.length := by
    simp only [preparedSize, receive, List.length_append, List.length_take,
      List.length_drop] at h ⊢
    omega
  have htake : (rb.buffer.take rb.preparedOffset).length = rb.preparedOffset := by
    rw [List.length_take]
    omega
  simp only [committedArea, commit, hroom]
  simp only [receive]
  have hfront : ((rb.buffer.take rb.preparedOffset ++ data ++
      rb.buffer.drop (rb.preparedOffset + data.length)).take (rb.preparedOffset + data.length)) =
      rb.buffer.take rb.preparedOffset ++ data := by
    rw [List.take_left' (by simp [htake])]
  rw [hfront, List.drop_append_of_le_length (by omega)]

end ReadBuffer

/-! ## 3. Messages in the committed area -/

open Framing

/-- How the callers of `parse_message` read its result: no error, `needs_more`, another error. -/
def ParseMessageResult.frame (r : ParseMessageResult) : Frame AnyBackendMessage ErrorCode :=
  if !r.ec.failed then .message r.message r.size
  else if r.ec = ClientErrc.needsMore.code then .needs r.size
  else .bad r.ec

/-- What the buffered bytes begin with. -/
def nextMessage (data : Bytes) : Frame AnyBackendMessage ErrorCode := (parseMessage data).frame

/-- **Every result of `parse_message`, and when it has it.** -/
inductive NextMessage (data : Bytes) : Frame AnyBackendMessage ErrorCode → Prop where
  /-- The header is not there yet. -/
  | short (h : data.length < 5) : NextMessage data (.needs (5 - data.length))
  /-- The body is not there yet. -/
  | incomplete {header} (h5 : 5 ≤ data.length) (hh : parseHeader (data.take 5) = .ok header)
      (hlt : data.length < header.requiredSize) :
      NextMessage data (.needs (header.requiredSize - data.length))
  | badHeader {ec} (h5 : 5 ≤ data.length) (hh : parseHeader (data.take 5) = .error ec) :
      NextMessage data (.bad ec)
  | badBody {header ec} (hh : parseHeader (data.take 5) = .ok header)
      (hle : header.requiredSize ≤ data.length)
      (hb : parseAnyMessage header.type ((data.drop 5).take (header.requiredSize - 5)) = .error ec) :
      NextMessage data (.bad ec)
  | whole {header message} (hh : parseHeader (data.take 5) = .ok header)
      (hle : header.requiredSize ≤ data.length)
      (hb : parseAnyMessage header.type ((data.drop 5).take (header.requiredSize - 5)) =
        .ok message) :
      NextMessage data (.message message header.requiredSize)

theorem frame_bad {ec : ErrorCode} (h : ec.failed = true ∧ ParseCode ec) :
    ParseMessageResult.frame { ec } = .bad ec := by
  simp [ParseMessageResult.frame, h.1, h.2.ne_needsMore]

theorem frame_needs (k : Nat) :
    ParseMessageResult.frame { ec := ClientErrc.needsMore.code, size := k } = .needs k := by
  simp [ParseMessageResult.frame]

theorem frame_message (message : AnyBackendMessage) (n : Nat) :
    ParseMessageResult.frame { ec := .success, message, size := n } = .message message n := by
  simp [ParseMessageResult.frame]

/-- The cases determine the frame. -/
theorem NextMessage.eq {data : Bytes} {f : Frame AnyBackendMessage ErrorCode}
    (h : NextMessage data f) : nextMessage data = f := by
  unfold nextMessage parseMessage
  cases h with
  | short h => rw [if_pos h, frame_needs]
  | incomplete h5 hh hlt =>
    rw [if_neg (Nat.not_lt.mpr h5), hh]
    simp only [if_pos hlt, frame_needs]
  | badHeader h5 hh =>
    rw [if_neg (Nat.not_lt.mpr h5), hh]
    exact frame_bad (parseHeader_code hh)
  | badBody hh hle hb =>
    have h5 := Nat.le_trans (parseHeader_size hh) hle
    rw [if_neg (Nat.not_lt.mpr h5), hh]
    simp only [if_neg (Nat.not_lt.mpr hle), hb]
    exact frame_bad (parseAnyMessage_code hb)
  | whole hh hle hb =>
    have h5 := Nat.le_trans (parseHeader_size hh) hle
    rw [if_neg (Nat.not_lt.mpr h5), hh]
    simp only [if_neg (Nat.not_lt.mpr hle), hb, frame_message]

/-- The cases are all there are. -/
theorem nextMessage_cases (data : Bytes) : ∃ f, NextMessage data f := by
  by_cases h5 : data.length < 5
  · exact ⟨_, .short h5⟩
  · have h5 := Nat.not_lt.mp h5
    cases hh : parseHeader (data.take 5) with
    | error ec => exact ⟨_, .badHeader h5 hh⟩
    | ok header =>
      by_cases hlt : data.length < header.requiredSize
      · exact ⟨_, .incomplete h5 hh hlt⟩
      · have hle := Nat.not_lt.mp hlt
        cases hb : parseAnyMessage header.type ((data.drop 5).take (header.requiredSize - 5)) with
        | error ec => exact ⟨_, .badBody hh hle hb⟩
        | ok message => exact ⟨_, .whole hh hle hb⟩

theorem nextMessage_spec (data : Bytes) : NextMessage data (nextMessage data) := by
  obtain ⟨f, hf⟩ := nextMessage_cases data
  exact hf.eq ▸ hf

theorem nextMessage_spec_of {data : Bytes} {f : Frame AnyBackendMessage ErrorCode}
    (h : nextMessage data = f) : NextMessage data f := h ▸ nextMessage_spec data

theorem nextMessage_needs_le {data : Bytes} {k : Nat} (h : nextMessage data = .needs k) :
    data.length + k ≤ 2 ^ 31 := by
  cases nextMessage_spec_of h with
  | short h5 => omega
  | incomplete _ hh hlt =>
    have := parseHeader_le hh
    omega

/-- The code of a bad message is an error. -/
theorem nextMessage_bad_failed {data : Bytes} {ec : ErrorCode} (h : nextMessage data = .bad ec) :
    ec.failed = true := by
  cases nextMessage_spec_of h with
  | badHeader _ hh => exact (parseHeader_code hh).1
  | badBody _ _ hb => exact (parseAnyMessage_code hb).1

/-- More bytes behind a header and a body change neither. -/
theorem take_append_header {data : Bytes} (h5 : 5 ≤ data.length) (c : Bytes) :
    (data ++ c).take 5 = data.take 5 :=
  List.take_append_of_le_length h5

theorem take_append_body {data : Bytes} {n : Nat} (h5 : 5 ≤ n) (hn : n ≤ data.length) (c : Bytes) :
    ((data ++ c).drop 5).take (n - 5) = (data.drop 5).take (n - 5) := by
  rw [List.drop_append_of_le_length (by omega), List.take_append_of_le_length]
  rw [List.length_drop]
  omega

theorem NextMessage.append {data : Bytes} {f : Frame AnyBackendMessage ErrorCode}
    (h : NextMessage data f) (hf : ∀ k, f ≠ .needs k) (c : Bytes) : NextMessage (data ++ c) f := by
  have hlen : data.length ≤ (data ++ c).length := by simp
  cases h with
  | short h => exact absurd rfl (hf _)
  | incomplete h5 hh hlt => exact absurd rfl (hf _)
  | badHeader h5 hh =>
    refine .badHeader (Nat.le_trans h5 hlen) ?_
    rwa [take_append_header h5]
  | badBody hh hle hb =>
    have h5 := parseHeader_size hh
    refine .badBody ?_ (Nat.le_trans hle hlen) ?_
    · rwa [take_append_header (Nat.le_trans h5 hle)]
    · rwa [take_append_body h5 hle]
  | whole hh hle hb =>
    have h5 := parseHeader_size hh
    refine .whole ?_ (Nat.le_trans hle hlen) ?_
    · rwa [take_append_header (Nat.le_trans h5 hle)]
    · rwa [take_append_body h5 hle]

/-- A message is the same message without the bytes behind it. -/
theorem NextMessage.take {data : Bytes} {m : AnyBackendMessage} {n : Nat}
    (h : NextMessage data (.message m n)) : NextMessage (data.take n) (.message m n) := by
  cases h with
  | @whole header _ hh hle hb =>
    have h5 := parseHeader_size hh
    have hlen : (data.take header.requiredSize).length = header.requiredSize :=
      List.length_take_of_le hle
    have hsplit : data = data.take header.requiredSize ++ data.drop header.requiredSize :=
      (List.take_append_drop _ _).symm
    refine .whole ?_ (Nat.le_of_eq hlen.symm) ?_
    · rw [hsplit, take_append_header (by omega)] at hh
      exact hh
    · rw [hsplit, take_append_body h5 (by omega)] at hb
      exact hb

/-- **`parse_message` is a frame parser.** -/
def messageParser : FrameParser UInt8 AnyBackendMessage ErrorCode where
  next := nextMessage
  needs_pos := fun {b k} h => by
    cases nextMessage_spec_of h <;> omega
  message_pos := fun {b m n} h => by
    cases nextMessage_spec_of h with
    | whole hh _ _ =>
      have := parseHeader_size hh
      omega
  message_le := fun {b m n} h => by
    cases nextMessage_spec_of h with
    | whole _ hle _ => exact hle
  message_take := fun h => (nextMessage_spec_of h).take.eq
  message_append := fun c h => ((nextMessage_spec_of h).append (by simp) c).eq
  bad_append := fun c h => ((nextMessage_spec_of h).append (by simp) c).eq

/-- **Where a message is missing bytes, `prepare` makes room for one byte at least.** -/
theorem ReadBuffer.prepare_needs (rb : ReadBuffer) {k : Nat}
    (h : nextMessage rb.committedArea = .needs k) :
    ∃ rb', rb.prepare k = .ok rb' ∧ rb'.committedArea = rb.committedArea ∧
      0 < rb'.preparedSize := by
  have hle := nextMessage_needs_le h
  have hpos : 0 < k := messageParser.needs_pos h
  obtain ⟨rb', hrb, hcommitted, hroom⟩ := @prepare_spec rb k (by omega)
  exact ⟨rb', hrb, hcommitted, by omega⟩

end NativePg
