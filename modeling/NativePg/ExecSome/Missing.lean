/-
  File:      NativePg/ExecSome/Missing.lean
  Subject:   How much of a message is missing: `message_missing_bytes` beside `parse_message`.

  * `messageMissingBytes_eq` -- the two functions ask for the same bytes;
  * `parseMessage_eq` -- a result of `parse_message` is determined by how its callers read it;
  * `lengthField`, `needs_total` -- what a prefix of a stream asks for: five bytes in all, and
    behind these the length the stream itself states;
  * `framing_agrees` -- the whole of it, for every string of bytes.
-/
import NativePg.Lib.BigEndian
import NativePg.ExecSome.Fsm

namespace NativePg

open Framing

/-! ## 1. The two functions -/

/-- **`message_missing_bytes` asks for what `parse_message` asks for**, and for nothing where there
    is a message or an error to be found. -/
theorem messageMissingBytes_eq (data : Bytes) :
    messageMissingBytes data =
      match nextMessage data with
      | .needs k => k
      | _ => 0 := by
  have hpos : ∀ {header}, parseHeader (data.take 5) = .ok header →
      header.requiredSize ≤ data.length → ¬data.length < 5 := by
    intro header hh hle
    have := parseHeader_size hh
    omega
  obtain ⟨f, hf⟩ := nextMessage_cases data
  rw [hf.eq]
  unfold messageMissingBytes
  cases hf with
  | short h => rw [if_pos h]
  | incomplete h5 hh hlt =>
    rw [if_neg (Nat.not_lt.mpr h5), hh]
    simp only [if_pos hlt]
  | badHeader h5 hh => rw [if_neg (Nat.not_lt.mpr h5), hh]
  | badBody hh hle hb =>
    rw [if_neg (hpos hh hle), hh]
    simp only [if_neg (Nat.not_lt.mpr hle)]
  | whole hh hle hb =>
    rw [if_neg (hpos hh hle), hh]
    simp only [if_neg (Nat.not_lt.mpr hle)]

theorem messageMissingBytes_eq_zero {data : Bytes} :
    messageMissingBytes data = 0 ↔ ∀ k, nextMessage data ≠ .needs k := by
  rw [messageMissingBytes_eq]
  constructor
  · intro h k hk
    rw [hk] at h
    have := messageParser.needs_pos hk
    simp only at h
    omega
  · intro h
    split
    · rename_i k hk
      exact absurd hk (h k)
    · rfl

/-! ## 2. The results of `parse_message` -/

/-- The result a caller reads this way. -/
def parseMessageResult : Frame AnyBackendMessage ErrorCode → ParseMessageResult
  | .needs k => { ec := ClientErrc.needsMore.code, size := k }
  | .bad ec => { ec }
  | .message message n => { ec := .success, message, size := n }

/-- **How a result is read determines it.** -/
theorem parseMessage_eq (data : Bytes) :
    parseMessage data = parseMessageResult (nextMessage data) := by
  obtain ⟨f, hf⟩ := nextMessage_cases data
  rw [hf.eq]
  unfold parseMessage
  cases hf with
  | short h => rw [if_pos h]; rfl
  | incomplete h5 hh hlt =>
    rw [if_neg (Nat.not_lt.mpr h5), hh]
    simp only [if_pos hlt, parseMessageResult]
  | badHeader h5 hh =>
    rw [if_neg (Nat.not_lt.mpr h5), hh]
    rfl
  | badBody hh hle hb =>
    have h5 := Nat.le_trans (parseHeader_size hh) hle
    rw [if_neg (Nat.not_lt.mpr h5), hh]
    simp only [if_neg (Nat.not_lt.mpr hle), hb, parseMessageResult]
  | whole hh hle hb =>
    have h5 := Nat.le_trans (parseHeader_size hh) hle
    rw [if_neg (Nat.not_lt.mpr h5), hh]
    simp only [if_neg (Nat.not_lt.mpr hle), hb, parseMessageResult]

/-- `parse_message` has returned `needs_more`. -/
def NeedsMore (data : Bytes) : Prop := (parseMessage data).ec = ClientErrc.needsMore.code

instance (data : Bytes) : Decidable (NeedsMore data) := inferInstanceAs (Decidable (_ = _))

theorem needsMore_iff {data : Bytes} : NeedsMore data ↔ ∃ k, nextMessage data = .needs k := by
  unfold NeedsMore
  rw [parseMessage_eq]
  cases hf : nextMessage data with
  | needs k => simp [parseMessageResult]
  | message m n =>
    have hne : ErrorCode.success ≠ ClientErrc.needsMore.code := by decide
    simpa [parseMessageResult] using hne
  | bad ec =>
    have hne : ec ≠ ClientErrc.needsMore.code := by
      cases nextMessage_spec_of hf with
      | badHeader _ hh => exact (parseHeader_code hh).2.ne_needsMore
      | badBody _ _ hb => exact (parseAnyMessage_code hb).2.ne_needsMore
    simpa [parseMessageResult] using hne

theorem size_of_needs {data : Bytes} {k : Nat} (h : nextMessage data = .needs k) :
    (parseMessage data).size = k := by
  rw [parseMessage_eq, h]
  rfl

theorem message_of_not_failed {data : Bytes} (h : (parseMessage data).ec.failed = false) :
    ∃ m, nextMessage data = .message m (parseMessage data).size := by
  rw [parseMessage_eq] at h ⊢
  cases hf : nextMessage data with
  | needs k =>
    rw [hf] at h
    simp [parseMessageResult] at h
  | bad ec =>
    rw [hf] at h
    have := nextMessage_bad_failed hf
    simp [parseMessageResult, this] at h
  | message m n => exact ⟨m, rfl⟩

/-! ## 3. What a stream asks for -/

/-- The length field of a message: the four bytes behind its type byte. -/
def lengthField (data : Bytes) : Int := loadBigSigned ((data.drop 1).take 4)

/-- A header is accepted with a length of four at least, and then it is that length. -/
theorem parseHeader_lengthField {data : Bytes} {header : MessageHeader}
    (h : parseHeader (data.take 5) = .ok header) :
    4 ≤ lengthField data ∧ (header.requiredSize : Int) = 1 + lengthField data := by
  have htake : ((data.take 5).drop 1).take 4 = (data.drop 1).take 4 := by
    rw [List.drop_take, List.take_take]
    rfl
  unfold parseHeader at h
  simp only [htake] at h
  split at h
  · cases h
  · rename_i hge
    cases h
    change 4 ≤ lengthField data ∧ (((lengthField data) + 1).toNat : Int) = 1 + lengthField data
    change ¬lengthField data < 4 at hge
    omega

theorem parseHeader_of_lengthField {data : Bytes} (h : 4 ≤ lengthField data) :
    ∃ header, parseHeader (data.take 5) = .ok header := by
  have htake : ((data.take 5).drop 1).take 4 = (data.drop 1).take 4 := by
    rw [List.drop_take, List.take_take]
    rfl
  unfold parseHeader
  simp only [htake]
  exact ⟨_, if_neg (Int.not_lt.mpr h)⟩

theorem lengthField_prefix {p stream : Bytes} (h : p <+: stream) (h5 : 5 ≤ p.length) :
    lengthField p = lengthField stream := by
  obtain ⟨rest, rfl⟩ := h
  unfold lengthField
  rw [List.drop_append_of_le_length (by omega), List.take_append_of_le_length]
  rw [List.length_drop]
  omega

/-- **What a string of bytes asks for**: a header, and behind it the length the header states. -/
theorem needs_total {data : Bytes} {k : Nat} (h : nextMessage data = .needs k) :
    (data.length < 5 ∧ data.length + k = 5) ∨
    (5 ≤ data.length ∧ 4 ≤ lengthField data ∧
      ((data.length + k : Nat) : Int) = 1 + lengthField data) := by
  cases nextMessage_spec_of h with
  | short h5 => exact .inl ⟨h5, by omega⟩
  | incomplete h5 hh hlt =>
    obtain ⟨hge, hsize⟩ := parseHeader_lengthField hh
    exact .inr ⟨h5, hge, by omega⟩

/-- Behind the header, a message asks for its own length and for nothing else. -/
theorem needs_of_lengthField {data : Bytes} (h5 : 5 ≤ data.length) (hge : 4 ≤ lengthField data)
    (hlt : (data.length : Int) < 1 + lengthField data) :
    nextMessage data = .needs ((1 + lengthField data).toNat - data.length) := by
  obtain ⟨header, hh⟩ := parseHeader_of_lengthField hge
  obtain ⟨-, hsize⟩ := parseHeader_lengthField hh
  rw [(NextMessage.incomplete h5 hh (by omega)).eq]
  congr 1
  omega

theorem message_size {data : Bytes} {m : AnyBackendMessage} {n : Nat}
    (h : nextMessage data = .message m n) : (n : Int) = 1 + lengthField data := by
  cases nextMessage_spec_of h with
  | whole hh hle hb => exact (parseHeader_lengthField hh).2

/-! ## 4. Framing -/

/-- Fewer bytes than asked for are asked for again. -/
theorem needsMore_append {d e : Bytes} {k : Nat} (hk : nextMessage d = .needs k)
    (he : e.length < k) : NeedsMore (d ++ e) := by
  rw [needsMore_iff]
  rcases needs_total hk with ⟨-, htotal⟩ | ⟨h5, hge, htotal⟩
  · have h5 : (d ++ e).length < 5 := by
      rw [List.length_append]
      omega
    exact ⟨_, (NextMessage.short h5).eq⟩
  · have hfield := lengthField_prefix (List.prefix_append d e) h5
    have hlen : (d ++ e).length = d.length + e.length := List.length_append
    rw [hfield] at hge htotal
    exact ⟨_, needs_of_lengthField (by omega) hge (by omega)⟩

/-- Behind a header, the bytes asked for are enough. -/
theorem not_needsMore_append {d e : Bytes} {k : Nat} (hk : nextMessage d = .needs k)
    (h5 : 5 ≤ d.length) (he : k ≤ e.length) : ¬NeedsMore (d ++ e) := by
  have hpos := messageParser.needs_pos hk
  rw [needsMore_iff]
  rintro ⟨j, hj⟩
  have hjpos := messageParser.needs_pos hj
  have hlen : (d ++ e).length = d.length + e.length := List.length_append
  have hfield := lengthField_prefix (List.prefix_append d e) h5
  rcases needs_total hk with ⟨hlt, -⟩ | ⟨-, -, htotal⟩
  · omega
  · rcases needs_total hj with ⟨hlt, -⟩ | ⟨-, -, htotal'⟩
    · omega
    · omega

/-- **An answer other than `needs_more` does not change with more bytes.** -/
theorem parseMessage_append {d : Bytes} (h : ¬NeedsMore d) (e : Bytes) :
    parseMessage (d ++ e) = parseMessage d := by
  rw [parseMessage_eq, parseMessage_eq]
  congr 1
  refine ((nextMessage_spec d).append ?_ e).eq
  intro k hk
  exact h (needsMore_iff.mpr ⟨k, hk⟩)

/-- **A header as a server writes it**, with less behind it than its length says. -/
theorem needs_of_header (type : UInt8) {size : Int} {rest : Bytes} (hge : 4 ≤ size)
    (hle : size ≤ 2 ^ 31 - 1) (hlt : (rest.length : Int) + 4 < size) :
    ∃ k : Nat, nextMessage (type :: BigEndian.ofInt 4 size ++ rest) = .needs k ∧
      (k : Int) = 1 + size - (5 + rest.length) := by
  have hlen : (type :: BigEndian.ofInt 4 size ++ rest).length = 5 + rest.length := by
    simp
    omega
  have hfield : lengthField (type :: BigEndian.ofInt 4 size ++ rest) = size := by
    have hfits : BigEndian.Fits 4 size := by
      unfold BigEndian.Fits
      omega
    have htake : (BigEndian.ofInt 4 size ++ rest).take 4 = BigEndian.ofInt 4 size :=
      List.take_left' (BigEndian.length_ofInt 4 size)
    change loadBigSigned ((BigEndian.ofInt 4 size ++ rest).take 4) = size
    rw [htake]
    exact BigEndian.toInt_ofInt hfits
  refine ⟨_, needs_of_lengthField ?_ ?_ ?_, ?_⟩ <;> omega

/-- **The framing functions agree and are monotone.** For every string of bytes `d`:
    both functions ask for the same bytes; an answer other than `needs_more` is final, and a
    message is not longer than what there is; what is asked for is needed, and behind a header it
    is enough; every prefix of `d` asks for five bytes in all, or for one byte more than the
    length field of `d` says, which is the size of its first message; and every length field an
    `int32_t` can hold is asked for in this way. -/
theorem framing_agrees (d : Bytes) :
    (messageMissingBytes d = 0 ↔ ¬NeedsMore d) ∧
    (NeedsMore d → messageMissingBytes d = (parseMessage d).size) ∧
    (¬NeedsMore d → ∀ e, parseMessage (d ++ e) = parseMessage d) ∧
    ((parseMessage d).ec.failed = false → (parseMessage d).size ≤ d.length) ∧
    (NeedsMore d → 0 < (parseMessage d).size ∧
      (∀ e : Bytes, e.length < (parseMessage d).size → NeedsMore (d ++ e)) ∧
      (5 ≤ d.length → ∀ e : Bytes, (parseMessage d).size ≤ e.length → ¬NeedsMore (d ++ e))) ∧
    (∀ p, p <+: d → NeedsMore p →
      if p.length < 5 then p.length + (parseMessage p).size = 5
      else 4 ≤ lengthField d ∧
        ((p.length + (parseMessage p).size : Nat) : Int) = 1 + lengthField d) ∧
    ((parseMessage d).ec.failed = false →
      ((parseMessage d).size : Int) = 1 + lengthField d) ∧
    (∀ (type : UInt8) (size : Int) (rest : Bytes), 4 ≤ size → size ≤ 2 ^ 31 - 1 →
      (rest.length : Int) + 4 < size →
      NeedsMore (type :: BigEndian.ofInt 4 size ++ rest) ∧
      ((parseMessage (type :: BigEndian.ofInt 4 size ++ rest)).size : Int) =
        1 + size - (5 + rest.length)) := by
  refine ⟨?_, ?_, fun h e => parseMessage_append h e, ?_, ?_, ?_, ?_, ?_⟩
  · rw [messageMissingBytes_eq_zero, needsMore_iff]
    simp only [not_exists, ne_eq]
  · intro h
    obtain ⟨k, hk⟩ := needsMore_iff.mp h
    rw [messageMissingBytes_eq, hk, size_of_needs hk]
  · intro h
    obtain ⟨m, hm⟩ := message_of_not_failed h
    exact messageParser.message_le hm
  · intro h
    obtain ⟨k, hk⟩ := needsMore_iff.mp h
    rw [size_of_needs hk]
    exact ⟨messageParser.needs_pos hk, fun e he => needsMore_append hk he,
      fun h5 e he => not_needsMore_append hk h5 he⟩
  · intro p hp h
    obtain ⟨k, hk⟩ := needsMore_iff.mp h
    rw [size_of_needs hk]
    rcases needs_total hk with ⟨h5, htotal⟩ | ⟨h5, hge, htotal⟩
    · rwa [if_pos h5]
    · rw [if_neg (Nat.not_lt.mpr h5), ← lengthField_prefix hp h5]
      exact ⟨hge, htotal⟩
  · intro h
    obtain ⟨m, hm⟩ := message_of_not_failed h
    exact message_size hm
  · intro type size rest hge hle hlt
    obtain ⟨k, hneeds, hk⟩ := needs_of_header type hge hle hlt
    rw [needsMore_iff, size_of_needs hneeds]
    exact ⟨⟨_, hneeds⟩, hk⟩

end NativePg
