/-
  File:      NativePg/ExecSome/CopyFrames.lean
  Subject:   The frames of a COPY: CopyData, which its sender frames by hand
             (include/nativepg/protocol/copy.hpp), and CopyDone.

  * `copyDataMessageType` -- the type byte a sender is told to give to `serialize_header`. It is
    the one of CopyDone;
  * `nextMessage_frame` -- what a frame is parsed as: what its body is parsed as;
  * `nextMessage_copyData`, `nextMessage_copyDone` -- so no CopyData frame is read as it was sent, and
    every CopyDone frame is;
  * **`copy_frames_exactly`** -- which streams of such frames are read as they were sent.
-/
import NativePg.ExecSome.Missing
import NativePg.Protocol.Serialize

namespace NativePg

open Framing

/-! ## 1. Frames -/

/-- `copy_data_message_type`. -/
def copyDataMessageType : UInt8 := 'c'.toNat.toUInt8

/-- A frame of a COPY, with what its sender has to say. -/
inductive CopyFrame where
  | data (payload : Bytes)
  | done
  deriving DecidableEq, Repr

namespace CopyFrame

/-- The message that is sent. -/
def message : CopyFrame → AnyBackendMessage
  | .data payload => .copyData payload
  | .done => .copyDone

/-- The bytes of the frame: for CopyData the header of `serialize_header` and the payload, for
    CopyDone what `serialize` writes to an empty buffer. -/
def bytes? : CopyFrame → Option Bytes
  | .data payload =>
      match serializeHeader ⟨copyDataMessageType, 4 + payload.length⟩ with
      | .ok header => some (header ++ payload)
      | .error _ => none
  | .done =>
      match serializeCopyDone [] with
      | .ok (ec, buffer) => if ec.failed then none else some buffer
      | .error _ => none

end CopyFrame

/-- A stream is these frames, one behind the other. -/
inductive CopyStream : List CopyFrame → Bytes → Prop where
  | nil : CopyStream [] []
  | cons {frame : CopyFrame} {frames : List CopyFrame} {bytes rest : Bytes}
      (hd : frame.bytes? = some bytes) (h : CopyStream frames rest) :
      CopyStream (frame :: frames) (bytes ++ rest)

/-! ## 2. What a frame is parsed as -/

/-- **A frame is what its body is**, whatever comes behind it. -/
theorem nextMessage_frame (type : UInt8) (body rest : Bytes) (h : body.length + 4 ≤ int32Max) :
    nextMessage (type :: BigEndian.ofInt 4 (4 + body.length) ++ body ++ rest) =
      match parseAnyMessage type body with
      | .ok m => .message m (5 + body.length)
      | .error ec => .bad ec := by
  have hfit : BigEndian.Fits 4 (4 + body.length) := by
    unfold BigEndian.Fits
    unfold int32Max at h
    omega
  have hlen := BigEndian.length_ofInt 4 (4 + body.length)
  have hheader : parseHeader ((type :: BigEndian.ofInt 4 (4 + body.length) ++ body ++ rest).take 5) =
      .ok ⟨type, 4 + body.length⟩ := by
    have htake : (type :: BigEndian.ofInt 4 (4 + body.length) ++ body ++ rest).take 5 =
        type :: BigEndian.ofInt 4 (4 + body.length) := by
      rw [List.append_assoc]
      exact List.take_left' (by rw [List.length_cons, hlen])
    have hsize : loadBigSigned (BigEndian.ofInt 4 (4 + body.length)) = 4 + body.length :=
      BigEndian.toInt_ofInt hfit
    have hall : (BigEndian.ofInt 4 (4 + body.length)).take 4 =
        BigEndian.ofInt 4 (4 + body.length) := List.take_of_length_le (by omega)
    rw [htake]
    unfold parseHeader
    simp only [List.drop_succ_cons, List.drop_zero, hall, hsize]
    rw [if_neg (by omega)]
    rfl
  have hsize : (MessageHeader.requiredSize ⟨type, 4 + body.length⟩) = 5 + body.length := by
    unfold MessageHeader.requiredSize
    simp only
    omega
  have hbody : ((type :: BigEndian.ofInt 4 (4 + body.length) ++ body ++ rest).drop 5).take
      (MessageHeader.requiredSize ⟨type, 4 + body.length⟩ - 5) = body := by
    rw [hsize, List.append_assoc, List.drop_left' (by rw [List.length_cons, hlen])]
    exact List.take_left' (by omega)
  have hle : MessageHeader.requiredSize ⟨type, 4 + body.length⟩ ≤
      (type :: BigEndian.ofInt 4 (4 + body.length) ++ body ++ rest).length := by
    rw [hsize]
    simp only [List.length_append, List.length_cons, hlen]
    omega
  cases hparse : parseAnyMessage type body with
  | ok m =>
    rw [(NextMessage.whole hheader hle (by rw [hbody]; exact hparse)).eq, hsize]
  | error ec => exact (NextMessage.badBody hheader hle (by rw [hbody]; exact hparse)).eq

theorem serializeHeader_copyData {payload : Bytes} (h : payload.length + 8 ≤ int32Max) :
    serializeHeader ⟨copyDataMessageType, 4 + payload.length⟩ =
      .ok (copyDataMessageType :: BigEndian.ofInt 4 (4 + payload.length)) := by
  unfold serializeHeader
  rw [if_neg]
  unfold int32Max at h
  simp only
  omega

/-- **A CopyData frame is no CopyData message**: it is a CopyDone without a payload, and nothing
    with one. -/
theorem nextMessage_copyData {payload : Bytes} (h : payload.length + 8 ≤ int32Max) (rest : Bytes) :
    nextMessage (copyDataMessageType :: BigEndian.ofInt 4 (4 + payload.length) ++ payload ++ rest) =
      if payload = [] then .message .copyDone 5 else .bad ClientErrc.extraBytes.code := by
  rw [nextMessage_frame _ _ _ (by omega)]
  cases payload with
  | nil => rfl
  | cons b payload => rfl

theorem bytes?_done : CopyFrame.done.bytes? = some (copyDataMessageType :: BigEndian.ofInt 4 4) :=
  rfl

theorem nextMessage_copyDone (rest : Bytes) :
    nextMessage (copyDataMessageType :: BigEndian.ofInt 4 4 ++ rest) = .message .copyDone 5 :=
  nextMessage_frame copyDataMessageType [] rest (by decide)

/-! ## 3. CopyStream -/

theorem bytes?_data {payload bytes : Bytes} (h : (CopyFrame.data payload).bytes? = some bytes) :
    payload.length + 8 ≤ int32Max ∧
      bytes = copyDataMessageType :: BigEndian.ofInt 4 (4 + payload.length) ++ payload := by
  simp only [CopyFrame.bytes?] at h
  have hle : payload.length + 8 ≤ int32Max := by
    refine Nat.le_of_not_lt fun hlt => ?_
    have hbig : serializeHeader ⟨copyDataMessageType, 4 + payload.length⟩ =
        .error ClientErrc.valueTooBig.code := by
      unfold serializeHeader
      rw [if_pos]
      unfold int32Max at hlt
      simp only
      omega
    rw [hbig] at h
    cases h
  rw [serializeHeader_copyData hle] at h
  cases h
  exact ⟨hle, rfl⟩

/-- **A stream is read as it was sent just when it has no CopyData in it.** -/
theorem messages_of_copyStream {frames : List CopyFrame} {bytes : Bytes} (h : CopyStream frames bytes) :
    messages messageParser bytes = frames.map CopyFrame.message ↔ ∀ f ∈ frames, f = .done := by
  induction h with
  | nil =>
    have hneeds : messageParser.next [] = .needs 5 := rfl
    have hnone : messages messageParser [] = ([] : List AnyBackendMessage) := by
      rw [messages, drain_needs hneeds]
    simp [hnone]
  | @cons frame frames bytes rest hd h ih =>
    cases frame with
    | done =>
      cases bytes?_done.symm.trans hd
      have hnext : messageParser.next (copyDataMessageType :: BigEndian.ofInt 4 4 ++ rest) =
          .message .copyDone 5 := nextMessage_copyDone rest
      have hrest : (copyDataMessageType :: BigEndian.ofInt 4 4 ++ rest).drop 5 = rest :=
        List.drop_left' rfl
      rw [messages_of_message hnext, hrest, List.map_cons, List.cons_eq_cons, ih]
      simp [CopyFrame.message]
    | data payload =>
      obtain ⟨hle, rfl⟩ := bytes?_data hd
      have hnext : messageParser.next _ = _ := nextMessage_copyData hle rest
      refine ⟨fun hsame => ?_, fun hall => by simpa using hall _ (List.mem_cons_self ..)⟩
      by_cases hnil : payload = []
      · rw [if_pos hnil] at hnext
        rw [messages_of_message hnext] at hsame
        cases hsame
      · rw [if_neg hnil] at hnext
        rw [messages, drain_bad hnext] at hsame
        cases hsame

/-- **Which frames of a COPY are read as they were sent.** A header for a CopyData frame is written
    for every payload that fits, but what is read is CopyDone, or an error; CopyDone is read as it
    was sent. So a stream of frames is read as it was sent just when none of them is CopyData. -/
theorem copy_frames_exactly (payload : Bytes) (frames : List CopyFrame) (bytes : Bytes) :
    (payload.length ≤ int32Max - 8 →
      ∃ header, serializeHeader ⟨copyDataMessageType, 4 + payload.length⟩ = .ok header ∧
        ∀ rest, parseMessage (header ++ payload ++ rest) =
            (if payload = [] then { ec := .success, message := .copyDone, size := 5 }
             else { ec := ClientErrc.extraBytes.code }) ∧
          parseMessage (header ++ payload ++ rest) ≠
            { ec := .success, message := .copyData payload, size := 5 + payload.length }) ∧
    (∃ buffer, serializeCopyDone [] = .ok (.success, buffer) ∧
      ∀ rest, parseMessage (buffer ++ rest) =
        { ec := .success, message := .copyDone, size := buffer.length }) ∧
    (CopyStream frames bytes →
      (messages messageParser bytes = frames.map CopyFrame.message ↔
        ∀ f ∈ frames, f = CopyFrame.done)) := by
  refine ⟨fun hle => ?_, ⟨_, rfl, fun rest => ?_⟩, messages_of_copyStream⟩
  · have hfit : payload.length + 8 ≤ int32Max := by
      unfold int32Max at hle ⊢
      omega
    refine ⟨_, serializeHeader_copyData hfit, fun rest => ?_⟩
    rw [parseMessage_eq, nextMessage_copyData hfit rest]
    by_cases hnil : payload = []
    · rw [if_pos hnil, if_pos hnil]
      exact ⟨rfl, nofun⟩
    · rw [if_neg hnil, if_neg hnil]
      exact ⟨rfl, nofun⟩
  · rw [parseMessage_eq]
    exact congrArg parseMessageResult (nextMessage_copyDone rest)

/-- A CopyData frame with one byte in it is an error to its receiver. -/
theorem copyData_is_rejected :
    ¬∀ payload : Bytes, payload.length ≤ int32Max - 8 →
      ∃ header, serializeHeader ⟨copyDataMessageType, 4 + payload.length⟩ = .ok header ∧
        ∀ rest, parseMessage (header ++ payload ++ rest) =
          { ec := .success, message := .copyData payload, size := 5 + payload.length } := by
  intro h
  obtain ⟨header, hheader, hparse⟩ := h [65] (by decide)
  cases hheader
  have := congrArg ParseMessageResult.ec (hparse [])
  revert this
  decide

end NativePg
