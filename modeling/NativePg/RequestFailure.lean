/-
  File:      NativePg/RequestFailure.lean
  Subject:   What an `add*` member leaves in the request when it throws.

  `add_advanced_impl` reserves room in `types_` and says "strong guarantee", but the message is
  serialized into the live buffer, and an error is found after the header has been written:

  * `Framed` -- the payload as frames, without fuel; `Framed.cancel` -- frames in front can be
    taken away, so what was framed before says nothing about what follows;
  * `not_framed_broken` -- the header an exception leaves has the length zero, which no frame has:
    nothing that is added later repairs the payload;
  * **`failed_add_exactly`** -- the guarantee holds of a call just when it does not throw.
-/
import NativePg.RequestBuilder

namespace NativePg

open RequestBuilder

/-! ## 1. Payloads as frames -/

/-- The bytes are these frames, one behind the other. -/
inductive Framed : Bytes → List (UInt8 × Bytes) → Prop where
  | nil : Framed [] []
  | cons {bytes rest : Bytes} {frame : UInt8 × Bytes} {frames : List (UInt8 × Bytes)}
      (hd : frameDecoder bytes = some (frame, rest)) (h : Framed rest frames) :
      Framed bytes (frame :: frames)

theorem framed_of_splitLoop : ∀ {fuel : Nat} {bytes : Bytes} {frames : List (UInt8 × Bytes)},
    splitLoop fuel bytes = some frames → Framed bytes frames
  | fuel, [], frames, h => by
      cases fuel <;> cases h <;> exact .nil
  | 0, _ :: _, _, h => by cases h
  | fuel + 1, b :: bytes, frames, h => by
      rw [splitLoop] at h
      · cases hd : frameDecoder (b :: bytes) with
        | none =>
          rw [hd] at h
          cases h
        | some found =>
          obtain ⟨frame, rest⟩ := found
          rw [hd] at h
          obtain ⟨frames', hrest, rfl⟩ := Option.map_eq_some_iff.mp h
          exact .cons hd (framed_of_splitLoop hrest)
      · intro h
        cases h

theorem local_frameDecoder : Decode.Local frameDecoder := by
  refine Decode.local_byte.bind fun type => (Decode.local_int 4).bind fun size => ?_
  split
  · exact Decode.local_failure
  · exact (Decode.local_bytes _).bind fun body => Decode.local_pure _

/-- **Frames in front can be taken away.** -/
theorem Framed.cancel {bytes more : Bytes} {frames frames' : List (UInt8 × Bytes)}
    (h : Framed bytes frames) (h' : Framed (bytes ++ more) frames') :
    ∃ frames'', Framed more frames'' := by
  induction h generalizing frames' with
  | nil => exact ⟨frames', h'⟩
  | @cons bytes rest frame frames hd _ ih =>
    have hmore := local_frameDecoder _ _ _ hd more
    cases hbytes : bytes ++ more with
    | nil =>
      rw [hbytes] at hmore
      cases hmore
    | cons b tail =>
      rw [hbytes] at h' hmore
      cases h' with
      | cons hd' hrest =>
        rw [hmore] at hd'
        cases hd'
        exact ih hrest

theorem frameDecoder_zero (type : UInt8) (rest : Bytes) :
    frameDecoder (type :: ([0, 0, 0, 0] ++ rest)) = none := by
  have hsize : Decode.int 4 ([0, 0, 0, 0] ++ rest) = some (0, rest) :=
    Decode.reads_int (show BigEndian.Fits 4 0 by decide) rest
  unfold frameDecoder
  rw [Decode.bind_apply, Decode.byte, Option.bind_some, Decode.bind_apply, hsize]
  rfl

/-- No frame has the length zero. -/
theorem not_framed_zero (type : UInt8) (rest : Bytes) (frames : List (UInt8 × Bytes)) :
    ¬Framed (type :: ([0, 0, 0, 0] ++ rest)) frames := by
  intro h
  cases h with
  | cons hd _ =>
    rw [frameDecoder_zero] at hd
    cases hd

/-- A message as it is written can be taken away, if it is a frame; if its length does not fit the
    field, it is no frame, and the length is left zero as well. -/
theorem framed_of_emitted {m : RequestMessage} {more : Bytes} {frames : List (UInt8 × Bytes)}
    (h : Framed (m.value.emitted ++ more) frames) : ∃ frames', Framed more frames' := by
  by_cases hfits : FrameFits m.frame
  · have hread := reads_frameDecoder hfits []
    rw [List.append_nil] at hread
    rw [emitted_eq_frameBytes hfits] at h
    exact (Framed.cons hread .nil).cancel h
  · obtain ⟨t, htype⟩ : ∃ t, m.value.type = some t := by
      cases m <;> exact ⟨_, rfl⟩
    have hlong : m.value.body.length + 4 > int32Max := Nat.not_le.mp hfits
    have hemitted : m.value.emitted = t.toNat.toUInt8 :: ([0, 0, 0, 0] ++ m.value.body) := by
      unfold FrontendMessage.emitted finalizeMessage
      simp only [htype, Option.elim_some, if_pos hlong]
      rfl
    rw [hemitted, List.cons_append, List.append_assoc] at h
    exact absurd h (not_framed_zero _ _ _)

theorem framed_of_emitted_all : ∀ {ms : List RequestMessage} {more : Bytes}
    {frames : List (UInt8 × Bytes)}, Framed (ms.flatMap (·.value.emitted) ++ more) frames →
    ∃ frames', Framed more frames'
  | [], _, frames, h => ⟨frames, h⟩
  | m :: ms, more, frames, h => by
      rw [List.flatMap_cons, List.append_assoc] at h
      obtain ⟨frames', h'⟩ := framed_of_emitted h
      exact framed_of_emitted_all h'

/-- **What an exception leaves is never well framed again.** -/
theorem not_framed_broken {req req' : RequestBuilder} {ms : List RequestMessage}
    (h : Broken req req' ms) {frames : List (UInt8 × Bytes)} (hframed : Framed req.payload frames)
    (more : Bytes) (frames' : List (UInt8 × Bytes)) : ¬Framed (req'.payload ++ more) frames' := by
  obtain ⟨done, m, rest, added, -, -, -, hpayload, -⟩ := h
  intro hall
  rw [hpayload, List.append_assoc, List.append_assoc] at hall
  obtain ⟨frames₁, h₁⟩ := hframed.cancel hall
  obtain ⟨frames₂, h₂⟩ := framed_of_emitted_all h₁
  rw [List.cons_append, List.append_assoc] at h₂
  exact not_framed_zero _ _ _ h₂

/-! ## 2. Later calls -/

theorem Adding.Performs.payload {f : Adding} {req : RequestBuilder} {ms : List RequestMessage}
    {a : Bool} (h : f.Performs req ms a) :
    ∃ ec req' more, f req = .ok (ec, req') ∧ req'.payload = req.payload ++ more := by
  obtain ⟨ec, req', hrun, ⟨-, -, rfl⟩ | ⟨-, done, m, rest, added, -, -, -, hpayload, -⟩⟩ := h
  · exact ⟨ec, _, _, hrun, rfl⟩
  · exact ⟨ec, req', _, hrun, hpayload⟩

/-- **No call takes anything away**, also where it throws. -/
theorem build_payload : ∀ {cs : List AddCall} {req req' : RequestBuilder} {ec : ErrorCode},
    build cs req = .ok (ec, req') → ∃ more, req'.payload = req.payload ++ more
  | [], req, req', ec, h => by
      cases h
      exact ⟨[], by simp⟩
  | c :: cs, req, req', ec, h => by
      obtain ⟨ec₁, req₁, more, hrun, hmore⟩ := (perform_performs c req).payload
      rw [build, andThen_of_ok hrun] at h
      by_cases hec : ec₁.failed = true
      · rw [if_pos hec] at h
        cases h
        exact ⟨more, hmore⟩
      · rw [if_neg hec] at h
        obtain ⟨more', hmore'⟩ := build_payload h
        exact ⟨more ++ more', by rw [hmore', hmore, List.append_assoc]⟩

/-! ## 3. The guarantee -/

/-- The strong guarantee, of one call on one request: where it throws, the request is unchanged. -/
def StrongGuarantee (c : AddCall) (req : RequestBuilder) : Prop :=
  ∀ ec req', c.perform req = .ok (ec, req') → ec.failed = true →
    req'.payload = req.payload ∧ req'.messages = req.messages

theorem Broken.length {req req' : RequestBuilder} {ms : List RequestMessage}
    (h : Broken req req' ms) : req.payload.length + 5 ≤ req'.payload.length := by
  obtain ⟨done, m, rest, added, -, -, -, hpayload, -⟩ := h
  rw [hpayload]
  simp only [List.length_append, List.length_cons, List.length_nil]
  omega

/-- A call that throws has met a message that is rejected. -/
theorem broken_of_failed {c : AddCall} {req req' : RequestBuilder} {ec : ErrorCode}
    (hrun : c.perform req = .ok (ec, req')) (hfailed : ec.failed = true) :
    Broken req req' (c.messages req.autosync) := by
  obtain ⟨ec₁, req₁, hrun₁, hcases⟩ := perform_performs c req
  rw [hrun] at hrun₁
  cases hrun₁
  rcases hcases with ⟨hgood, -, -⟩ | ⟨-, hbroken⟩
  · rw [hgood] at hfailed
    cases hfailed
  · exact hbroken

theorem Broken.exists_rejected {req req' : RequestBuilder} {ms : List RequestMessage}
    (h : Broken req req' ms) : ∃ m ∈ ms, m.value.rejected = true := by
  obtain ⟨done, m, rest, added, rfl, -, hm, -⟩ := h
  exact ⟨m, by simp, hm⟩

theorem strongGuarantee_iff (c : AddCall) (req : RequestBuilder) :
    StrongGuarantee c req ↔ ∀ m ∈ c.messages req.autosync, m.value.rejected = false := by
  constructor
  · intro hstrong
    obtain ⟨ec, req', hrun, hcases⟩ := perform_performs c req
    rcases hcases with ⟨-, haccepted, -⟩ | ⟨hfailed, hbroken⟩
    · exact haccepted
    · have hlen := hbroken.length
      rw [(hstrong ec req' hrun hfailed).1] at hlen
      omega
  · intro haccepted ec req' hrun hfailed
    obtain ⟨m, hm, hrejected⟩ := (broken_of_failed hrun hfailed).exists_rejected
    rw [haccepted m hm] at hrejected
    cases hrejected

/-- **The strong guarantee holds of the calls that do not throw, and of no other.** A call throws
    where one of its messages is rejected; then the payload has grown by five bytes at least, and
    if it was well framed before, no payload that later calls make of it is. -/
theorem failed_add_exactly (c : AddCall) (req : RequestBuilder) :
    (StrongGuarantee c req ↔ ∀ m ∈ c.messages req.autosync, m.value.rejected = false) ∧
    ∀ ec req', c.perform req = .ok (ec, req') → ec.failed = true →
      (∃ m ∈ c.messages req.autosync, m.value.rejected = true) ∧
      req.payload.length + 5 ≤ req'.payload.length ∧
      ∀ frames, splitFrames req.payload = some frames → ∀ later ec'' req'',
        build later req' = .ok (ec'', req'') → splitFrames req''.payload = none := by
  refine ⟨strongGuarantee_iff c req, fun ec req' hrun hfailed => ?_⟩
  have hbroken := broken_of_failed hrun hfailed
  refine ⟨hbroken.exists_rejected, hbroken.length, fun frames hframes later ec'' req'' hlater => ?_⟩
  obtain ⟨more, hmore⟩ := build_payload hlater
  rw [hmore, Option.eq_none_iff_forall_ne_some]
  intro frames' hframes'
  exact not_framed_broken hbroken (framed_of_splitLoop hframes) more frames'
    (framed_of_splitLoop hframes')

/-- A parameter whose serializer returns an error. -/
def badParameter : ParameterRef where
  typeOid := 23
  serializeText := (ClientErrc.protocolValueError.code, [])
  serializeBinary := (ClientErrc.protocolValueError.code, [])

/-- `add_bind` with it leaves bytes behind, in an empty request too. -/
theorem badParameter_leaves_bytes :
    ¬StrongGuarantee (.addBind [] [badParameter] .text [] .text) {} := by
  rw [strongGuarantee_iff]
  intro haccepted
  have hbind := haccepted (AddCall.bindMessage [] [badParameter] .text [] .text)
    (by simp [AddCall.messages])
  have hrejected : (AddCall.bindMessage [] [badParameter] .text [] .text).value.rejected = true := by
    decide
  rw [hrejected] at hbind
  cases hbind

end NativePg
