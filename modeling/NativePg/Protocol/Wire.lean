/-
  File:      NativePg/Protocol/Wire.lean
  Subject:   The bytes a server sends.

  * `ServerMessage` -- a message with its contents, as the server has them: lists and not views,
    errors and notices as lists of fields;
  * `wire` -- its frame: the type byte, the length of what follows, and the body;
  * `parsed` -- what the client makes of it;
  * `nextMessage_wire`, `frames_wire` -- a stream of frames is parsed to what was sent.
-/
import NativePg.Protocol.ErrorFields
import NativePg.ExecSome.CopyFrames

namespace NativePg

open Framing

/-! ## 1. Messages -/

/-- A message a server sends. -/
inductive ServerMessage where
  | plain (m : BackendMessage)
  | error (fields : List ErrorField)
  | notice (fields : List ErrorField)
  deriving DecidableEq, Repr

namespace ServerMessage

def typeByte : ServerMessage → UInt8
  | plain m => m.typeByte
  | error _ => errorResponseType
  | notice _ => noticeResponseType

/-- The body, as the protocol lays it out. -/
def body : ServerMessage → Bytes
  | plain m => m.enc
  | error fields | notice fields => encErrorFields fields

/-- **The bytes of a message**: the length counts itself, the type byte does not count. -/
def wire (m : ServerMessage) : Bytes :=
  m.typeByte :: BigEndian.ofInt 4 (4 + m.body.length) ++ m.body

/-- The fields of an error, each known field with its last string. -/
def errorFields (fields : List ErrorField) : ErrorNoticeFields :=
  storeFields {} (fields.filterMap ErrorField.readAs)

/-- The message as the client sees it. -/
def parsed : ServerMessage → AnyBackendMessage
  | plain m => m.parsed
  | error fields => .errorResponse (errorFields fields)
  | notice fields => .noticeResponse (errorFields fields)

/-- The fields of an error are of types the client knows, and their strings have no NUL. -/
def FieldsKnown (fields : List ErrorField) : Prop :=
  ∀ f ∈ fields, ErrorField.WellFormed f ∧ (ErrorFieldType.ofByte? f.1).isSome = true

/-- **What can be sent**: well-formed contents that fit into a frame. -/
structure WellFormed (m : ServerMessage) : Prop where
  fits : m.body.length + 4 ≤ int32Max
  contents :
    match m with
    | plain m => m.WellFormed ∧ m.VersionNonnegative
    | error fields | notice fields => FieldsKnown fields

/-! ## 2. What the client makes of it -/

theorem parseErrorNotice_known {fields : List ErrorField} (h : FieldsKnown fields) :
    parseErrorNotice (encErrorFields fields) = (.success, errorFields fields) :=
  parseErrorNotice_accepted
    ⟨rfl, fun f hf => (h f hf).1, (harmless_of_known fun f hf => (h f hf).2).known,
      List.not_mem_nil, rfl⟩

theorem parse_body {m : ServerMessage} (h : m.WellFormed) :
    parseAnyMessage m.typeByte m.body = .ok m.parsed := by
  have hcontents := h.contents
  cases m with
  | plain m => exact parse_enc hcontents.1 hcontents.2
  | error fields => exact parseAnyMessageImpl_success (parseErrorNotice_known hcontents)
  | notice fields => exact parseAnyMessageImpl_success (parseErrorNotice_known hcontents)

theorem length_wire (m : ServerMessage) : m.wire.length = 5 + m.body.length := by
  simp only [wire, List.length_append, List.length_cons, BigEndian.length_ofInt]

/-- **A frame is parsed to its message**, whatever comes behind it. -/
theorem nextMessage_wire {m : ServerMessage} (h : m.WellFormed) (rest : Bytes) :
    nextMessage (m.wire ++ rest) = .message m.parsed m.wire.length := by
  have hframe := nextMessage_frame m.typeByte m.body rest h.fits
  rw [parse_body h] at hframe
  rw [length_wire]
  exact hframe

/-- **A stream of frames is its messages.** -/
theorem frames_wire : ∀ {ms : List ServerMessage}, (∀ m ∈ ms, m.WellFormed) →
    Frames messageParser (ms.flatMap wire) (ms.map parsed)
  | [], _ => .nil
  | m :: ms, h => by
      have hnext := nextMessage_wire (h m List.mem_cons_self) []
      rw [List.append_nil] at hnext
      exact .cons hnext (frames_wire fun m hm => h m (List.mem_cons_of_mem _ hm))

end ServerMessage

end NativePg
