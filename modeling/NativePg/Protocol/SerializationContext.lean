/-
  File:      NativePg/Protocol/SerializationContext.lean
  Subject:   Writing messages: include/nativepg/protocol/detail/serialization_context.hpp, and
             `bind_context` (include/nativepg/protocol/bind.hpp, src/messages.cpp).

  * `finalizeMessage`, `framed` -- a typed message as `finalize_message` leaves it, and as the
    protocol frames it;
  * `SerializationContext` -- the context: a buffer, the offset of the header and the first error.
    `Adds` says what the calls between `add_header` and `finalize_message` do, and
    `serializeTyped_spec` what the message is then;
  * `BindContext` -- the context the callback of a bind message writes its parameters to.
    `ParametersFn` is a callback, `run_fresh` what it leaves in the buffer.
-/
import NativePg.Lib.BigEndian
import NativePg.Protocol.BackendMessage

namespace NativePg

/-! ## 1. Lengths and frames -/

/-- `boost::endian::store_big_s32`. -/
def storeBigS32 (n : Nat) : Bytes :=
  [(n / 2 ^ 24).toUInt8, (n / 2 ^ 16).toUInt8, (n / 2 ^ 8).toUInt8, n.toUInt8]

/-- `INT32_MAX`. -/
def int32Max : Nat := 2 ^ 31 - 1

/-- `INT16_MAX`. -/
def int16Max : Nat := 2 ^ 15 - 1

/-- `serialization_context::add_string`. -/
def addString (s : Bytes) : Bytes := s ++ [0]

/-- `add_header`, the body, `finalize_message`. The length counts itself; one that does not fit
    is left zero, and no error is reported. -/
def finalizeMessage (type : Char) (body : Bytes) : Bytes :=
  let size := body.length + 4
  type.toNat.toUInt8 :: (if size > int32Max then [0, 0, 0, 0] else storeBigS32 size) ++ body

/-- The frame of a message: its type, the length of the rest, and the body. There is none for a
    body whose length does not fit. -/
def framed (type : Char) (body : Bytes) : Option Bytes :=
  let size := body.length + 4
  if size > int32Max then none else some (type.toNat.toUInt8 :: storeBigS32 size ++ body)

/-- **`finalize_message` writes the frame where there is one.** -/
theorem framed_finalizeMessage {type : Char} {body : Bytes} :
    framed type body = some (finalizeMessage type body) ↔ body.length + 4 ≤ int32Max := by
  unfold framed finalizeMessage
  simp only
  split
  · simp only [reduceCtorEq, false_iff]
    omega
  · simp only [true_iff]
    omega

@[simp] theorem length_storeBigS32 (n : Nat) : (storeBigS32 n).length = 4 := rfl

theorem storeBigS32_eq {n : Nat} (h : n ≤ int32Max) : storeBigS32 n = BigEndian.ofInt 4 n := by
  have hmod : ((n : Int) % 256 ^ 4).toNat = n := by
    unfold int32Max at h
    omega
  rw [BigEndian.ofInt, hmod]
  simp [storeBigS32, BigEndian.ofNat]

theorem fits_of_le_int32Max {n : Nat} (h : n ≤ int32Max) : BigEndian.Fits 4 n := by
  unfold int32Max at h
  constructor <;> omega

theorem fits_of_le_int16Max {n : Nat} (h : n ≤ int16Max) : BigEndian.Fits 2 n := by
  unfold int16Max at h
  constructor <;> omega

/-- A store of some bytes over those at an offset of a buffer. -/
def storeAt (buffer : Bytes) (offset : Nat) (bytes : Bytes) : Checked Bytes :=
  if offset + bytes.length ≤ buffer.length then
    .ok (buffer.take offset ++ bytes ++ buffer.drop (offset + bytes.length))
  else .error .outOfRange

theorem storeAt_append (before old after new : Bytes) (h : old.length = new.length) :
    storeAt (before ++ (old ++ after)) before.length new = .ok (before ++ (new ++ after)) := by
  unfold storeAt
  rw [if_pos (by simp [h]), List.take_left, ← h, ← List.append_assoc before old after,
    List.drop_left' (by simp), List.append_assoc]

/-- `if (!err_) err_ = ec;` -/
def keepFirst (err ec : ErrorCode) : ErrorCode := if err.failed then err else ec

theorem failed_keepFirst (err ec : ErrorCode) :
    (keepFirst err ec).failed = (err.failed || ec.failed) := by
  unfold keepFirst
  by_cases h : err.failed = true
  · simp [h]
  · simp [h]

/-! ## 2. The context -/

/-- `serialization_context`. -/
structure SerializationContext where
  buffer : Bytes
  /-- `header_offset_`; `none` is `static_cast<std::size_t>(-1)`. -/
  headerOffset : Option Nat := none
  err : ErrorCode := .success

namespace SerializationContext

/-- `add_error`. -/
def addError (ctx : SerializationContext) (ec : ErrorCode) : SerializationContext :=
  { ctx with err := keepFirst ctx.err ec }

/-- `add_bytes`. -/
def addBytes (ctx : SerializationContext) (contents : Bytes) : SerializationContext :=
  { ctx with buffer := ctx.buffer ++ contents }

/-- `add_byte`. -/
def addByte (ctx : SerializationContext) (byte : UInt8) : SerializationContext :=
  { ctx with buffer := ctx.buffer ++ [byte] }

/-- `add_integral<IntType>`; `w` is `sizeof(IntType)`. -/
def addIntegral (ctx : SerializationContext) (w : Nat) (value : Int) : SerializationContext :=
  ctx.addBytes (BigEndian.ofInt w value)

/-- `add_string`. -/
def addString (ctx : SerializationContext) (s : Bytes) : SerializationContext :=
  (ctx.addBytes s).addByte 0

/-- `add_header`. -/
def addHeader (ctx : SerializationContext) (msgType : Char) : Checked SerializationContext :=
  if ctx.headerOffset.isSome then .error .assertion
  else
    let ctx := { ctx with headerOffset := some ctx.buffer.length }
    .ok ((ctx.addByte msgType.toNat.toUInt8).addBytes [0, 0, 0, 0])

/-- `finalize_message`. -/
def finalizeMessage (ctx : SerializationContext) : Checked (ErrorCode × SerializationContext) :=
  if ctx.err.failed then pure (ctx.err, ctx)
  else
    -- `header_offset_ + 1u`: without a header this wraps around to the start of the buffer
    let lengthOffset := ctx.headerOffset.elim 0 (· + 1)
    if ctx.buffer.length < lengthOffset + 4 then .error .assertion
    else
      let size := ctx.buffer.length - lengthOffset
      if size > int32Max then pure (ctx.err, ctx)
      else do
        let buffer ← storeAt ctx.buffer lengthOffset (storeBigS32 size)
        pure (.success, { ctx with buffer, headerOffset := none })

/-- What the calls between `add_header` and `finalize_message` do: they note an error where `bad`
    holds, and where it does not they add these bytes. -/
structure Adds (ctx ctx' : SerializationContext) (bytes : Bytes) (bad : Bool) : Prop where
  buffer : ∃ added, ctx'.buffer = ctx.buffer ++ added ∧ (bad = false → added = bytes)
  headerOffset : ctx'.headerOffset = ctx.headerOffset
  failed : ctx'.err.failed = (ctx.err.failed || bad)

section
variable {ctx ctx' ctx'' : SerializationContext} {bytes bytes' : Bytes} {bad bad' : Bool}

theorem Adds.trans (h : Adds ctx ctx' bytes bad) (h' : Adds ctx' ctx'' bytes' bad') :
    Adds ctx ctx'' (bytes ++ bytes') (bad || bad') where
  buffer := by
    obtain ⟨added, hbuffer, hadded⟩ := h.buffer
    obtain ⟨added', hbuffer', hadded'⟩ := h'.buffer
    refine ⟨added ++ added', by rw [hbuffer', hbuffer, List.append_assoc], fun hgood => ?_⟩
    obtain ⟨hb, hb'⟩ := Bool.or_eq_false_iff.mp hgood
    rw [hadded hb, hadded' hb']
  headerOffset := h'.headerOffset.trans h.headerOffset
  failed := by rw [h'.failed, h.failed, Bool.or_assoc]

theorem adds_nothing (ctx : SerializationContext) : Adds ctx ctx [] false :=
  ⟨⟨[], by simp, fun _ => rfl⟩, rfl, by simp⟩

theorem adds_addBytes (ctx : SerializationContext) (bytes : Bytes) :
    Adds ctx (ctx.addBytes bytes) bytes false :=
  ⟨⟨bytes, rfl, fun _ => rfl⟩, rfl, by simp [addBytes]⟩

theorem adds_addByte (ctx : SerializationContext) (byte : UInt8) :
    Adds ctx (ctx.addByte byte) [byte] false :=
  adds_addBytes ctx [byte]

theorem adds_addIntegral (ctx : SerializationContext) (w : Nat) (value : Int) :
    Adds ctx (ctx.addIntegral w value) (BigEndian.ofInt w value) false :=
  adds_addBytes ctx _

theorem adds_addString (ctx : SerializationContext) (s : Bytes) :
    Adds ctx (ctx.addString s) (NativePg.addString s) false :=
  (adds_addBytes ctx s).trans (adds_addByte _ 0)

theorem adds_addError (ctx : SerializationContext) (ec : ErrorCode) :
    Adds ctx (ctx.addError ec) [] ec.failed :=
  ⟨⟨[], by simp [addError], fun _ => rfl⟩, rfl, failed_keepFirst ctx.err ec⟩

/-- An error leaves open what would have been added. -/
theorem Adds.of_bad (h : Adds ctx ctx' bytes true) (bytes' : Bytes) : Adds ctx ctx' bytes' true := by
  obtain ⟨added, hbuffer, -⟩ := h.buffer
  exact ⟨⟨added, hbuffer, nofun⟩, h.headerOffset, h.failed⟩

end

end SerializationContext

/-! ## 3. Typed messages -/

/-- `add_header`, the fields of the message, `finalize_message`. -/
def serializeTyped (msgType : Char) (fields : SerializationContext → Checked SerializationContext)
    (out : Bytes) : Checked (ErrorCode × Bytes) := do
  let ctx ← SerializationContext.addHeader { buffer := out } msgType
  let ctx ← fields ctx
  let (ec, ctx) ← ctx.finalizeMessage
  pure (ec, ctx.buffer)

/-- A call of `serialize` on the buffer `out` that returns an error where `bad` holds, and has
    appended the bytes where it does not. -/
def Serialized (r : Checked (ErrorCode × Bytes)) (out : Bytes) (bad : Bool) (bytes : Bytes) : Prop :=
  ∃ ec buffer, r = .ok (ec, buffer) ∧ ec.failed = bad ∧ (bad = false → buffer = out ++ bytes)

section
variable {out body : Bytes} {msgType : Char}

/-- The message is written over the five bytes of `add_header`, wherever they are. -/
theorem finalizeMessage_of_header {ctx : SerializationContext}
    (hbuffer : ctx.buffer = out ++ ([msgType.toNat.toUInt8] ++ ([0, 0, 0, 0] ++ body)))
    (hoffset : ctx.headerOffset = some out.length) (hgood : ctx.err.failed = false) :
    ∃ ec ctx', ctx.finalizeMessage = .ok (ec, ctx') ∧ ec.failed = false ∧
      ctx'.buffer = out ++ finalizeMessage msgType body := by
  have hlength : ctx.buffer.length = out.length + 1 + (body.length + 4) := by
    rw [hbuffer]
    simp only [List.length_append, List.length_cons, List.length_nil]
    omega
  have hsize : ctx.buffer.length - (out.length + 1) = body.length + 4 := by omega
  unfold SerializationContext.finalizeMessage
  rw [if_neg (by simp [hgood])]
  simp only [hoffset, Option.elim_some]
  rw [if_neg (by omega), hsize]
  by_cases hfit : body.length + 4 > int32Max
  · -- the length is left zero
    refine ⟨ctx.err, ctx, by rw [if_pos hfit]; rfl, hgood, ?_⟩
    rw [hbuffer, finalizeMessage, if_pos hfit]
    rfl
  · have hstore := storeAt_append (out ++ [msgType.toNat.toUInt8]) [0, 0, 0, 0] body
      (storeBigS32 (body.length + 4)) rfl
    rw [List.append_assoc, ← hbuffer, List.length_append, List.length_singleton] at hstore
    refine ⟨.success, _, by rw [if_neg hfit, hstore]; rfl, rfl, ?_⟩
    simp only [finalizeMessage, if_neg hfit, List.append_assoc]
    rfl

theorem finalizeMessage_of_failed {ctx : SerializationContext} (h : ctx.err.failed = true) :
    ctx.finalizeMessage = .ok (ctx.err, ctx) := by
  rw [SerializationContext.finalizeMessage, if_pos h]
  rfl

/-- **What a typed message is**: an error if one is noted on the way, else the bytes
    `finalize_message` makes of the body, behind what was in the buffer. -/
theorem serializeTyped_spec {fields : SerializationContext → Checked SerializationContext}
    {bad : Bool} (out : Bytes)
    (h : ∀ ctx, ∃ ctx', fields ctx = .ok ctx' ∧ ctx.Adds ctx' body bad) :
    Serialized (serializeTyped msgType fields out) out bad (finalizeMessage msgType body) := by
  obtain ⟨ctx, hrun, hadds⟩ := h
    ⟨out ++ [msgType.toNat.toUInt8] ++ [0, 0, 0, 0], some out.length, .success⟩
  have hfailed : ctx.err.failed = bad := by simpa using hadds.failed
  have hheader : SerializationContext.addHeader { buffer := out } msgType =
      .ok ⟨out ++ [msgType.toNat.toUInt8] ++ [0, 0, 0, 0], some out.length, .success⟩ := rfl
  obtain ⟨added, hbuffer, hadded⟩ := hadds.buffer
  cases bad with
  | true =>
    refine ⟨ctx.err, ctx.buffer, ?_, hfailed, nofun⟩
    simp only [serializeTyped, hheader, hrun, finalizeMessage_of_failed hfailed, bind, Except.bind]
    rfl
  | false =>
    rw [hadded rfl] at hbuffer
    simp only [List.append_assoc] at hbuffer
    obtain ⟨ec, ctx', hfinal, hec, hout⟩ :=
      finalizeMessage_of_header hbuffer hadds.headerOffset hfailed
    refine ⟨ec, ctx'.buffer, ?_, hec, fun _ => hout⟩
    simp only [serializeTyped, hheader, hrun, hfinal, bind, Except.bind]
    rfl

/-- **What a typed message leaves behind that cannot be written**: its header, with the length
    zero, and some of its fields. -/
theorem serializeTyped_bad {fields : SerializationContext → Checked SerializationContext}
    (out : Bytes) (h : ∀ ctx, ∃ ctx' body, fields ctx = .ok ctx' ∧ ctx.Adds ctx' body true) :
    ∃ ec added, serializeTyped msgType fields out =
        .ok (ec, out ++ (msgType.toNat.toUInt8 :: ([0, 0, 0, 0] ++ added))) ∧ ec.failed = true := by
  obtain ⟨ctx, body, hrun, hadds⟩ := h
    ⟨out ++ [msgType.toNat.toUInt8] ++ [0, 0, 0, 0], some out.length, .success⟩
  have hfailed : ctx.err.failed = true := by simpa using hadds.failed
  have hheader : SerializationContext.addHeader { buffer := out } msgType =
      .ok ⟨out ++ [msgType.toNat.toUInt8] ++ [0, 0, 0, 0], some out.length, .success⟩ := rfl
  obtain ⟨added, hbuffer, -⟩ := hadds.buffer
  refine ⟨ctx.err, added, ?_, hfailed⟩
  simp only [serializeTyped, hheader, hrun, finalizeMessage_of_failed hfailed, bind, Except.bind]
  rw [hbuffer]
  simp only [List.append_assoc]
  rfl

end

/-! ## 4. The parameters of a bind message -/

/-- `bind_context`; `none` is `no_offset`. -/
structure BindContext where
  buffer : Bytes
  numParams : Nat := 0
  paramOffset : Option Nat := none
  err : ErrorCode := .success

/-- What the callback of a bind message can do with its context: start a parameter, add to
    `buffer()`, note an error. -/
inductive BindAction where
  | startParameter
  | append (bytes : Bytes)
  | addError (ec : ErrorCode)
  deriving DecidableEq, Repr

def BindAction.fails : BindAction → Bool
  | .addError ec => ec.failed
  | _ => false

namespace BindContext

/-- `add_error`. -/
def addError (ctx : BindContext) (ec : ErrorCode) : BindContext :=
  { ctx with err := keepFirst ctx.err ec }

/-- `maybe_finish_parameter`. -/
def maybeFinishParameter (ctx : BindContext) : Checked BindContext :=
  match ctx.paramOffset with
  | none => pure ctx
  | some offset =>
    let paramSize := ctx.buffer.length - offset - 4
    if paramSize > int32Max then pure (ctx.addError ClientErrc.valueTooBig.code)
    else do
      let buffer ← storeAt ctx.buffer offset (storeBigS32 paramSize)
      pure { ctx with buffer, paramOffset := none }

/-- `start_parameter`. -/
def startParameter (ctx : BindContext) : Checked BindContext := do
  let ctx ← ctx.maybeFinishParameter
  pure ⟨ctx.buffer ++ [0, 0, 0, 0], ctx.numParams + 1, some ctx.buffer.length, ctx.err⟩

def act (ctx : BindContext) : BindAction → Checked BindContext
  | .startParameter => ctx.startParameter
  | .append bytes => pure { ctx with buffer := ctx.buffer ++ bytes }
  | .addError ec => pure (ctx.addError ec)

/-- The callback's actions one after the other, and the `maybe_finish_parameter` behind it. -/
def run : List BindAction → BindContext → Checked BindContext
  | [], ctx => ctx.maybeFinishParameter
  | a :: as, ctx => do
    let ctx ← ctx.act a
    run as ctx

end BindContext

/-- The bytes added before the first parameter, and the value of each parameter. -/
def segments : List BindAction → Bytes × List Bytes
  | [] => ([], [])
  | .startParameter :: as => ([], (segments as).1 :: (segments as).2)
  | .append bytes :: as => (bytes ++ (segments as).1, (segments as).2)
  | .addError _ :: as => segments as

/-- `parameters_fn`, by what it does. As bind.hpp asks, it starts a parameter before it writes to
    the buffer. -/
structure ParametersFn where
  actions : List BindAction
  starts : (segments actions).1 = []

namespace ParametersFn

/-- The values of the parameters. -/
def values (fn : ParametersFn) : List Bytes := (segments fn.actions).2

/-- It notes an error. -/
def fails (fn : ParametersFn) : Bool := fn.actions.any BindAction.fails

end ParametersFn

/-- A parameter whose length does not fit its field. -/
def tooLong (value : Bytes) : Bool := decide (value.length > int32Max)

/-- A parameter as it is left in the buffer. The length of one that is too long is left zero. -/
def paramBytes (value : Bytes) : Bytes :=
  (if tooLong value then [0, 0, 0, 0] else storeBigS32 value.length) ++ value

namespace BindContext

/-- A parameter under way is finished. -/
theorem finish_pending (base value : Bytes) (n : Nat) (err : ErrorCode) :
    ∃ offset err', maybeFinishParameter ⟨base ++ ([0, 0, 0, 0] ++ value), n, some base.length, err⟩ =
        .ok ⟨base ++ paramBytes value, n, offset, err'⟩ ∧
      err'.failed = (err.failed || tooLong value) := by
  have hsize : (base ++ ([0, 0, 0, 0] ++ value)).length - base.length - 4 = value.length := by
    simp only [List.length_append, List.length_cons, List.length_nil]
    omega
  unfold maybeFinishParameter paramBytes
  simp only [hsize]
  by_cases hlong : value.length > int32Max
  · have htoo : tooLong value = true := by simpa [tooLong] using hlong
    rw [if_pos hlong, htoo, if_pos rfl]
    exact ⟨some base.length, _, rfl, failed_keepFirst _ _⟩
  · have htoo : tooLong value = false := by simpa [tooLong] using hlong
    rw [if_neg hlong, htoo, storeAt_append base [0, 0, 0, 0] value (storeBigS32 value.length) rfl]
    exact ⟨none, err, rfl, by simp⟩

/-- The run of a callback from the middle of a parameter on. -/
theorem run_pending : ∀ (as : List BindAction) (base value : Bytes) (n : Nat) (err : ErrorCode),
    ∃ offset err', run as ⟨base ++ ([0, 0, 0, 0] ++ value), n, some base.length, err⟩ =
        .ok ⟨base ++ (paramBytes (value ++ (segments as).1) ++ (segments as).2.flatMap paramBytes),
          n + (segments as).2.length, offset, err'⟩ ∧
      err'.failed = (err.failed || (as.any BindAction.fails ||
        (tooLong (value ++ (segments as).1) || (segments as).2.any tooLong)))
  | [], base, value, n, err => by
      obtain ⟨offset, err', hrun, hfailed⟩ := finish_pending base value n err
      refine ⟨offset, err', ?_, ?_⟩
      · simpa [run, segments] using hrun
      · simpa [segments] using hfailed
  | .startParameter :: as, base, value, n, err => by
      obtain ⟨offset, err₁, hfinish, hfailed₁⟩ := finish_pending base value n err
      obtain ⟨offset', err₂, hrun, hfailed₂⟩ :=
        run_pending as (base ++ paramBytes value) [] (n + 1) err₁
      have hact : act ⟨base ++ ([0, 0, 0, 0] ++ value), n, some base.length, err⟩ .startParameter =
          .ok ⟨base ++ paramBytes value ++ ([0, 0, 0, 0] ++ []), n + 1,
            some (base ++ paramBytes value).length, err₁⟩ := by
        simp only [act, startParameter, hfinish, bind, Except.bind]
        rfl
      refine ⟨offset', err₂, ?_, ?_⟩
      · simp only [run, hact, bind, Except.bind]
        rw [hrun]
        simp [segments, Nat.add_comm, Nat.add_left_comm]
      · rw [hfailed₂, hfailed₁]
        simp only [segments, List.any_cons, BindAction.fails, List.append_nil, List.nil_append]
        ac_rfl
  | .append bytes :: as, base, value, n, err => by
      obtain ⟨offset, err', hrun, hfailed⟩ := run_pending as base (value ++ bytes) n err
      refine ⟨offset, err', ?_, ?_⟩
      · simp only [run, act, bind, Except.bind, pure, Except.pure, segments]
        simpa using hrun
      · rw [hfailed]
        simp [segments, BindAction.fails]
  | .addError ec :: as, base, value, n, err => by
      obtain ⟨offset, err', hrun, hfailed⟩ := run_pending as base value n (keepFirst err ec)
      refine ⟨offset, err', hrun, ?_⟩
      rw [hfailed, failed_keepFirst]
      simp only [segments, List.any_cons, BindAction.fails]
      ac_rfl

/-- The run of a callback from its start. -/
theorem run_fresh : ∀ (as : List BindAction) (buffer : Bytes) (err : ErrorCode),
    (segments as).1 = [] →
    ∃ offset err', run as ⟨buffer, 0, none, err⟩ =
        .ok ⟨buffer ++ (segments as).2.flatMap paramBytes, (segments as).2.length, offset, err'⟩ ∧
      err'.failed = (err.failed || (as.any BindAction.fails || (segments as).2.any tooLong))
  | [], buffer, err, _ => ⟨none, err, by simp [run, maybeFinishParameter, segments, pure, Except.pure],
      by simp [segments]⟩
  | .startParameter :: as, buffer, err, _ => by
      obtain ⟨offset, err', hrun, hfailed⟩ := run_pending as buffer [] 1 err
      refine ⟨offset, err', ?_, ?_⟩
      · simp only [run, act, startParameter, maybeFinishParameter, bind, Except.bind, pure,
          Except.pure, segments]
        simpa [Nat.add_comm] using hrun
      · simpa [segments, BindAction.fails] using hfailed
  | .append bytes :: as, buffer, err, hstart => by
      obtain ⟨hbytes, hrest⟩ := List.append_eq_nil_iff.mp hstart
      obtain ⟨offset, err', hrun, hfailed⟩ := run_fresh as buffer err hrest
      refine ⟨offset, err', ?_, ?_⟩
      · simp only [run, act, bind, Except.bind, pure, Except.pure, segments, hbytes,
          List.append_nil]
        exact hrun
      · simpa [segments, BindAction.fails] using hfailed
  | .addError ec :: as, buffer, err, hstart => by
      obtain ⟨offset, err', hrun, hfailed⟩ := run_fresh as buffer (keepFirst err ec) hstart
      refine ⟨offset, err', hrun, ?_⟩
      rw [hfailed, failed_keepFirst]
      simp only [segments, List.any_cons, BindAction.fails]
      ac_rfl

end BindContext

end NativePg
