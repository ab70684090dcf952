/-
  File:      NativePg/Request.lean
  Subject:   Requests, and the check every request passes before it is sent.

  * `checkRequest` -- `check_request` (src/nativepg_internal/check_request.hpp): the loop with
    its flag `is_extended_batch` is `checkLoop`;
  * `BatchOk b ms` -- what the loop accepts from the flag `b` on, as a predicate of its own: the
    shape every SUFFIX of an accepted request has. The functions that walk a request keep it
    (`BatchOk.tail`), and from it they know that a batch closes: `BatchOk.closes`;
  * `getExpectedRfqs` -- how many ReadyForQuery messages answer a list of request messages.
-/
import NativePg.Protocol.BackendMessage

namespace NativePg

/-- `request_message_type`. -/
inductive RequestMessageType where
  | bind
  | close
  | describe
  | execute
  | flush
  | parse
  | query
  | sync
  deriving DecidableEq, Repr

namespace RequestMessageType

/-- The extended-query messages the server answers one by one. -/
def isExtended : RequestMessageType → Bool
  | .bind | .close | .describe | .execute | .parse => true
  | .flush | .query | .sync => false

/-- The messages answered by a ReadyForQuery. -/
def endsUnit : RequestMessageType → Bool
  | .query | .sync => true
  | _ => false

end RequestMessageType

/-- `request`: the serialized bytes and the type of each message in them. -/
structure Request where
  /-- `buffer_` -/
  payload : Bytes := []
  /-- `types_` -/
  messages : List RequestMessageType := []
  deriving DecidableEq, Repr

/-! ## 1. `check_request` -/

/-- The loop of `check_request`: the flag is `is_extended_batch`. -/
def checkLoop : Bool → List RequestMessageType → ErrorCode
  | isExtendedBatch, [] =>
      if isExtendedBatch then ClientErrc.requestEndsWithoutSync.code else .success
  | isExtendedBatch, type :: rest =>
      match type with
      | .query =>
          if isExtendedBatch then ClientErrc.requestMixesSimpleAdvancedProtocols.code
          else checkLoop isExtendedBatch rest
      | .sync => checkLoop false rest
      | _ => checkLoop true rest

/-- `check_request`. -/
def checkRequest (req : Request) : ErrorCode :=
  if req.messages.isEmpty then ClientErrc.emptyRequest.code else checkLoop false req.messages

/-- The lists the loop accepts when it reaches them with the flag `b`. -/
inductive BatchOk : Bool → List RequestMessageType → Prop where
  | done : BatchOk false []
  | query {ms} (h : BatchOk false ms) : BatchOk false (.query :: ms)
  | sync {b ms} (h : BatchOk false ms) : BatchOk b (.sync :: ms)
  | other {b m ms} (hm : m.endsUnit = false) (h : BatchOk true ms) : BatchOk b (m :: ms)

/-- **The loop accepts exactly the `BatchOk` lists.** -/
theorem batchOk_of_checkLoop : ∀ (ms : List RequestMessageType) (b : Bool),
    (checkLoop b ms).failed = false → BatchOk b ms
  | [], true, h => by simp [checkLoop] at h
  | [], false, _ => .done
  | m :: ms, b, h => by
      cases m with
      | query =>
          cases b with
          | true => simp [checkLoop] at h
          | false => exact .query (batchOk_of_checkLoop ms false (by simpa [checkLoop] using h))
      | sync => exact .sync (batchOk_of_checkLoop ms false (by simpa [checkLoop] using h))
      | bind | close | describe | execute | flush | parse =>
          exact .other rfl (batchOk_of_checkLoop ms true (by simpa [checkLoop] using h))

/-- A request `check_request` accepts. -/
def Request.Accepted (req : Request) : Prop := (checkRequest req).failed = false

instance (req : Request) : Decidable req.Accepted := inferInstanceAs (Decidable (_ = _))

theorem Request.Accepted.ne_nil {req : Request} (h : req.Accepted) : req.messages ≠ [] := by
  intro e
  simp [Request.Accepted, checkRequest, e] at h

theorem Request.Accepted.batchOk {req : Request} (h : req.Accepted) :
    BatchOk false req.messages := by
  have hne : req.messages.isEmpty = false := by simpa using h.ne_nil
  rw [Request.Accepted, checkRequest, hne] at h
  exact batchOk_of_checkLoop _ _ h

/-! ## 2. Suffixes of accepted requests -/

theorem BatchOk.tail {b : Bool} {m : RequestMessageType} {ms : List RequestMessageType}
    (h : BatchOk b (m :: ms)) : ∃ b', BatchOk b' ms := by
  cases h with
  | query h => exact ⟨_, h⟩
  | sync h => exact ⟨_, h⟩
  | other _ h => exact ⟨_, h⟩

theorem batchOk_suffix : ∀ (pre : List RequestMessageType) {post : List RequestMessageType}
    {b : Bool}, BatchOk b (pre ++ post) → ∃ b', BatchOk b' post
  | [], _, _, h => ⟨_, h⟩
  | _ :: pre, _, _, h => by
      obtain ⟨_, h'⟩ := h.tail
      exact batchOk_suffix pre h'

/-- Behind a message that does not end a unit the batch is still open. -/
theorem BatchOk.tail_open {b : Bool} {m : RequestMessageType} {ms : List RequestMessageType}
    (h : BatchOk b (m :: ms)) (hm : m.endsUnit = false) : BatchOk true ms := by
  cases h with
  | query _ => cases hm
  | sync _ => cases hm
  | other _ h => exact h

/-- **An open batch closes**: its messages up to a sync are neither syncs nor queries, and the
    request goes on with that sync. -/
theorem BatchOk.closes : ∀ {ms : List RequestMessageType}, BatchOk true ms →
    ∃ pre post, ms = pre ++ .sync :: post ∧ (∀ m ∈ pre, m.endsUnit = false) ∧ BatchOk false post
  | [], h => by cases h
  | m :: ms, h => by
      cases h with
      | sync h => exact ⟨[], ms, rfl, by simp, h⟩
      | other hm h =>
          obtain ⟨pre, post, rfl, hpre, hpost⟩ := h.closes
          refine ⟨m :: pre, post, rfl, fun x hx => ?_, hpost⟩
          rcases List.mem_cons.mp hx with rfl | hx
          · exact hm
          · exact hpre x hx

theorem BatchOk.ne_nil {ms : List RequestMessageType} (h : BatchOk true ms) : ms ≠ [] := by
  rintro rfl
  cases h

/-! ## 3. ReadyForQuery messages to expect -/

/-- `get_expected_rfqs`. -/
def getExpectedRfqs (msgs : List RequestMessageType) : Nat :=
  msgs.countP RequestMessageType.endsUnit

@[simp] theorem getExpectedRfqs_append (ms ms' : List RequestMessageType) :
    getExpectedRfqs (ms ++ ms') = getExpectedRfqs ms + getExpectedRfqs ms' :=
  List.countP_append

theorem getExpectedRfqs_cons (m : RequestMessageType) (ms : List RequestMessageType) :
    getExpectedRfqs (m :: ms) = getExpectedRfqs ms + if m.endsUnit then 1 else 0 :=
  List.countP_cons

theorem getExpectedRfqs_of_open {ms : List RequestMessageType}
    (h : ∀ m ∈ ms, m.endsUnit = false) : getExpectedRfqs ms = 0 :=
  List.countP_eq_zero.mpr fun m hm => by simp [h m hm]

/-- A nonempty suffix of an accepted request still expects a ReadyForQuery. -/
theorem BatchOk.getExpectedRfqs_pos : ∀ {b : Bool} {ms : List RequestMessageType},
    BatchOk b ms → ms ≠ [] → 0 < getExpectedRfqs ms
  | _, [], _, h => absurd rfl h
  | _, m :: ms, h, _ => by
      cases h with
      | query _ => simp [getExpectedRfqs_cons, RequestMessageType.endsUnit]
      | sync _ => simp [getExpectedRfqs_cons, RequestMessageType.endsUnit]
      | other _ h =>
          have := h.getExpectedRfqs_pos h.ne_nil
          rw [getExpectedRfqs_cons]
          omega

end NativePg
