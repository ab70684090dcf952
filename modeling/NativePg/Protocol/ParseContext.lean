/-
  File:      NativePg/Protocol/ParseContext.lean
  Subject:   `parse_context` (src/parse_context.hpp): the cursor every message parser walks its
             bytes with.

  * `ParseContext` -- the bytes between `first_` and `last_` and the error recorded so far; the
    FIRST error stays (`addError`), and after it the getters return zeros and empty strings;
  * `loadBigSigned` -- `boost::endian::load_big_s16`/`load_big_s32`;
  * `Takes` -- what a getter takes off the input where it records no error, and with it
    (`getString_takes`, `getString_append`, ...) what it returns;
  * `ParseCode` -- the codes a context can hold. `needs_more` is none of them: that is why a
    caller of `parse_message` can tell a message that is not there yet from a bad one.
-/
import NativePg.Lib.BigEndian
import NativePg.Lib.Delimited
import NativePg.Protocol.BackendMessage

namespace NativePg

/-! ## 1. Integers -/

/-- `load_big_s16`, `load_big_s32`: the width is the number of bytes. -/
def loadBigSigned (bytes : Bytes) : Int := BigEndian.toInt bytes

/-- An `Int32` is below `2 ^ 31`. -/
theorem loadBigSigned_lt {bytes : Bytes} (h : bytes.length ≤ 4) :
    loadBigSigned bytes < 2 ^ 31 := by
  have hfits : 2 * loadBigSigned bytes < 256 ^ bytes.length := (BigEndian.fits_toInt bytes).2
  have hpow : (256 : Int) ^ bytes.length ≤ 256 ^ 4 := by
    exact_mod_cast Nat.pow_le_pow_right (by decide : 256 > 0) h
  omega

/-! ## 2. The context -/

/-- `parse_context`. -/
structure ParseContext where
  /-- The bytes from `first_` to `last_`. -/
  rest : Bytes
  ec : ErrorCode := .success
  deriving DecidableEq, Repr

namespace ParseContext

/-- `add_error`: the first error wins. -/
def addError (ctx : ParseContext) (e : ClientErrc) : ParseContext :=
  if ctx.ec.failed then ctx else { ctx with ec := e.code }

/-- `get_byte`: zero once there is an error. -/
def getByte (ctx : ParseContext) : UInt8 × ParseContext :=
  match ctx.rest with
  | [] => (0, ctx.addError .incompleteMessage)
  | b :: rest => if ctx.ec.failed then (0, ctx) else (b, { ctx with rest })

/-- The size test `get_integral` and `get_byte_array` begin with. -/
def requireSize (ctx : ParseContext) (n : Nat) : ParseContext :=
  if ctx.rest.length < n then ctx.addError .incompleteMessage else ctx

/-- `get_integral<IntType>`; `w` is `sizeof(IntType)`. -/
def getIntegral (ctx : ParseContext) (w : Nat) : Int × ParseContext :=
  let ctx := ctx.requireSize w
  if ctx.ec.failed then (0, ctx)
  else (loadBigSigned (ctx.rest.take w), { ctx with rest := ctx.rest.drop w })

/-- `get_nonnegative_integral<IntType>`, as the `std::size_t` every caller turns it into. -/
def getNonnegativeIntegral (ctx : ParseContext) (w : Nat) : Nat × ParseContext :=
  let (res, ctx) := ctx.getIntegral w
  if res < 0 then (0, ctx.addError .protocolValueError) else (res.toNat, ctx)

/-- `get_string`: the bytes up to a NUL, which is skipped. -/
def getString (ctx : ParseContext) : Bytes × ParseContext :=
  if ctx.ec.failed then ([], ctx)
  else if ctx.rest.all (· ≠ 0) then ([], ctx.addError .incompleteMessage)
  else
    let res := ctx.rest.takeWhile (· ≠ 0)
    (res, { ctx with rest := ctx.rest.drop (res.length + 1) })

/-- `check_size_and_advance`: it advances whether or not there was an error before. -/
def checkSizeAndAdvance (ctx : ParseContext) (n : Nat) : ParseContext :=
  if n > ctx.rest.length then ctx.addError .incompleteMessage
  else { ctx with rest := ctx.rest.drop n }

/-- `get_byte_array<N>`: zeros once there is an error. -/
def getByteArray (ctx : ParseContext) (n : Nat) : Bytes × ParseContext :=
  let ctx := ctx.requireSize n
  if ctx.ec.failed then (List.replicate n 0, ctx)
  else (ctx.rest.take n, { ctx with rest := ctx.rest.drop n })

/-- `check`: `check_extra_bytes`, then the recorded error. -/
def check (ctx : ParseContext) : ErrorCode :=
  (if ctx.rest.isEmpty then ctx else ctx.addError .extraBytes).ec

/-- The bytes between two positions `first()` of one context. -/
def between (start last : ParseContext) : Bytes :=
  start.rest.take (start.rest.length - last.rest.length)

/-! ## 3. No getter goes back -/

@[simp] theorem addError_rest (ctx : ParseContext) (e : ClientErrc) :
    (ctx.addError e).rest = ctx.rest := by
  unfold addError
  split <;> rfl

theorem getByte_lt {ctx : ParseContext} (h : ctx.getByte.1 ≠ 0) :
    ctx.getByte.2.rest.length < ctx.rest.length := by
  unfold getByte at h ⊢
  split
  · rename_i hrest
    simp [hrest] at h
  · rename_i hrest
    rw [hrest] at h
    split
    · rename_i hec
      simp [hec] at h
    · simp [hrest]

theorem getString_le (ctx : ParseContext) :
    ctx.getString.2.rest.length ≤ ctx.rest.length := by
  unfold getString
  split
  · exact Nat.le_refl _
  · split
    · simp
    · simp only [List.length_drop]
      omega

theorem getString_lt {ctx : ParseContext} (h : ctx.getString.1 ≠ []) :
    ctx.getString.2.rest.length < ctx.rest.length := by
  unfold getString at h ⊢
  split
  · rename_i hec
    simp [hec] at h
  · rename_i hec
    rw [if_neg hec] at h
    split
    · rename_i hall
      rw [if_pos hall] at h
      exact absurd rfl h
    · rename_i hall
      have hpos : 0 < ctx.rest.length := by
        cases hr : ctx.rest with
        | nil => simp [hr] at hall
        | cons b rest => simp
      simp only [List.length_drop]
      omega

/-! ## 4. The codes of a context -/

end ParseContext

/-- The codes a parse of a message body can end with. -/
inductive ParseCode : ErrorCode → Prop where
  | success : ParseCode .success
  | incompleteMessage : ParseCode ClientErrc.incompleteMessage.code
  | protocolValueError : ParseCode ClientErrc.protocolValueError.code
  | extraBytes : ParseCode ClientErrc.extraBytes.code

theorem ParseCode.ne_needsMore {ec : ErrorCode} (h : ParseCode ec) :
    ec ≠ ClientErrc.needsMore.code := by
  cases h <;> decide

namespace ParseContext

/-- The recorded error is one of these. -/
def Ok (ctx : ParseContext) : Prop := ParseCode ctx.ec

theorem ok_mk (data : Bytes) : Ok { rest := data } := .success

variable {ctx : ParseContext}

theorem Ok.addError (h : ctx.Ok) {e : ClientErrc} (he : ParseCode e.code) :
    (ctx.addError e).Ok := by
  unfold ParseContext.addError
  split
  · exact h
  · exact he

theorem Ok.advance (h : ctx.Ok) (rest : Bytes) : Ok { ctx with rest } := h

theorem Ok.getByte (h : ctx.Ok) : ctx.getByte.2.Ok := by
  unfold ParseContext.getByte
  split
  · exact h.addError .incompleteMessage
  · split
    · exact h
    · exact h.advance _

theorem Ok.requireSize (h : ctx.Ok) (n : Nat) : (ctx.requireSize n).Ok := by
  unfold ParseContext.requireSize
  split
  · exact h.addError .incompleteMessage
  · exact h

theorem Ok.getIntegral (h : ctx.Ok) (w : Nat) : (ctx.getIntegral w).2.Ok := by
  unfold ParseContext.getIntegral
  simp only
  split
  · exact h.requireSize w
  · exact (h.requireSize w).advance _

theorem Ok.getNonnegativeIntegral (h : ctx.Ok) (w : Nat) :
    (ctx.getNonnegativeIntegral w).2.Ok := by
  unfold ParseContext.getNonnegativeIntegral
  simp only
  split
  · exact (h.getIntegral w).addError .protocolValueError
  · exact h.getIntegral w

theorem Ok.getString (h : ctx.Ok) : ctx.getString.2.Ok := by
  unfold ParseContext.getString
  split
  · exact h
  · split
    · exact h.addError .incompleteMessage
    · exact h.advance _

theorem Ok.checkSizeAndAdvance (h : ctx.Ok) (n : Nat) : (ctx.checkSizeAndAdvance n).Ok := by
  unfold ParseContext.checkSizeAndAdvance
  split
  · exact h.addError .incompleteMessage
  · exact h.advance _

theorem Ok.getByteArray (h : ctx.Ok) (n : Nat) : (ctx.getByteArray n).2.Ok := by
  unfold ParseContext.getByteArray
  simp only
  split
  · exact h.requireSize n
  · exact (h.requireSize n).advance _

theorem Ok.check (h : ctx.Ok) : ParseCode ctx.check := by
  unfold ParseContext.check
  split
  · exact h
  · exact h.addError .extraBytes

/-! ## 5. What a getter takes

A getter that records no error has taken the encoding of what it returns off the input
(`getString_takes` and the like); and on an input that begins with an encoding it does
(`getString_append` and the like). -/

/-- Without an error, `bytes` have been taken off the input. -/
structure Takes (ctx : ParseContext) (bytes : Bytes) (next : ParseContext) : Prop where
  good : ctx.ec.failed = false
  rest : ctx.rest = bytes ++ next.rest
  ec : next.ec = ctx.ec

theorem Takes.refl (h : ctx.ec.failed = false) : Takes ctx [] ctx := ⟨h, rfl, rfl⟩

theorem Takes.trans {a b c : ParseContext} {bytes bytes' : Bytes} (h : Takes a bytes b)
    (h' : Takes b bytes' c) : Takes a (bytes ++ bytes') c where
  good := h.good
  rest := by rw [h.rest, h'.rest, List.append_assoc]
  ec := h'.ec.trans h.ec

theorem Takes.between {next : ParseContext} {bytes : Bytes} (h : Takes ctx bytes next) :
    ctx.between next = bytes := by
  unfold ParseContext.between
  rw [h.rest, List.length_append, Nat.add_sub_cancel]
  exact List.take_left

/-- What was taken is all there was. -/
theorem Takes.whole {data bytes : Bytes} {ec : ErrorCode} {next : ParseContext}
    (h : Takes ⟨data, ec⟩ bytes next) (hnil : next.rest = []) : data = bytes := by
  have hrest := h.rest
  rwa [hnil, List.append_nil] at hrest

theorem between_nil (ctx : ParseContext) (ec : ErrorCode) : ctx.between ⟨[], ec⟩ = ctx.rest :=
  List.take_length

@[simp] theorem failed_addError (ctx : ParseContext) (e : ClientErrc) :
    (ctx.addError e).ec.failed = true := by
  unfold addError
  split
  · assumption
  · exact ClientErrc.failed_code e

/-- `check` finds no error: none was recorded, and nothing is left. -/
theorem check_ok : ctx.check.failed = false ↔ ctx.ec.failed = false ∧ ctx.rest = [] := by
  unfold check
  split
  · rename_i h
    simp [List.isEmpty_iff.mp h]
  · rename_i h
    simp only [failed_addError, Bool.true_eq_false, false_iff, not_and]
    intro _ hnil
    simp [hnil] at h

theorem getByte_takes (h : ctx.getByte.2.ec.failed = false) :
    Takes ctx [ctx.getByte.1] ctx.getByte.2 := by
  unfold getByte at h ⊢
  split
  · rename_i hrest
    rw [hrest] at h
    simp at h
  · rename_i hrest
    rw [hrest] at h
    split
    · rename_i hec
      simp [hec] at h
    · rename_i hec
      exact ⟨by simpa using hec, hrest, rfl⟩

theorem requireSize_ok {n : Nat} (h : (ctx.requireSize n).ec.failed = false) :
    n ≤ ctx.rest.length ∧ ctx.requireSize n = ctx := by
  unfold requireSize at h ⊢
  split at h
  · simp at h
  · rename_i hlen
    exact ⟨by omega, if_neg hlen⟩

theorem requireSize_of_le {n : Nat} (h : n ≤ ctx.rest.length) : ctx.requireSize n = ctx :=
  if_neg (by omega)

theorem getIntegral_takes {w : Nat} (h : (ctx.getIntegral w).2.ec.failed = false) :
    Takes ctx (BigEndian.ofInt w (ctx.getIntegral w).1) (ctx.getIntegral w).2 ∧
      BigEndian.Fits w (ctx.getIntegral w).1 := by
  unfold getIntegral at h ⊢
  simp only at h ⊢
  split at h
  · rename_i hec
    simp [hec] at h
  · rename_i hec
    obtain ⟨hlen, hctx⟩ := requireSize_ok (eq_false_of_ne_true hec)
    rw [if_neg hec, hctx]
    have hwidth : (ctx.rest.take w).length = w := by
      rw [List.length_take]
      omega
    have hfits := BigEndian.fits_toInt (ctx.rest.take w)
    have hback := BigEndian.ofInt_toInt (ctx.rest.take w)
    rw [hwidth] at hfits hback
    refine ⟨⟨by rw [hctx] at hec; simpa using hec, ?_, rfl⟩, hfits⟩
    rw [loadBigSigned, hback]
    exact (List.take_append_drop w ctx.rest).symm

theorem getNonnegativeIntegral_takes {w : Nat}
    (h : (ctx.getNonnegativeIntegral w).2.ec.failed = false) :
    Takes ctx (BigEndian.ofInt w (ctx.getNonnegativeIntegral w).1)
        (ctx.getNonnegativeIntegral w).2 ∧
      BigEndian.Fits w (ctx.getNonnegativeIntegral w).1 := by
  unfold getNonnegativeIntegral at h ⊢
  simp only at h ⊢
  split at h
  · simp at h
  · rename_i hneg
    rw [if_neg hneg]
    simp only
    rw [Int.toNat_of_nonneg (by omega)]
    exact getIntegral_takes h

theorem getString_takes (h : ctx.getString.2.ec.failed = false) :
    Takes ctx (ctx.getString.1 ++ [0]) ctx.getString.2 ∧ (0 : UInt8) ∉ ctx.getString.1 := by
  unfold getString at h ⊢
  split at h
  · rename_i hec
    simp [hec] at h
  · rename_i hec
    split at h
    · simp at h
    · rename_i hall
      rw [if_neg hec, if_neg hall]
      have hmem : (0 : UInt8) ∈ ctx.rest := by simpa using hall
      obtain ⟨s, rest, hrest, hnot⟩ := List.eq_append_cons_of_mem hmem
      simp only [hrest]
      rw [Delimited.drop_takeWhile_ne_append hnot, Delimited.takeWhile_ne_append hnot]
      exact ⟨⟨by simpa using hec, by simp [hrest], rfl⟩, hnot⟩

theorem checkSizeAndAdvance_takes {n : Nat} (h : (ctx.checkSizeAndAdvance n).ec.failed = false) :
    ∃ bytes, bytes.length = n ∧ Takes ctx bytes (ctx.checkSizeAndAdvance n) := by
  unfold checkSizeAndAdvance at h ⊢
  split at h
  · simp at h
  · rename_i hlen
    rw [if_neg hlen]
    exact ⟨ctx.rest.take n, by rw [List.length_take]; omega, h,
      (List.take_append_drop n ctx.rest).symm, rfl⟩

theorem getByteArray_takes {n : Nat} (h : (ctx.getByteArray n).2.ec.failed = false) :
    Takes ctx (ctx.getByteArray n).1 (ctx.getByteArray n).2 ∧ (ctx.getByteArray n).1.length = n := by
  unfold getByteArray at h ⊢
  simp only at h ⊢
  split at h
  · rename_i hec
    simp [hec] at h
  · rename_i hec
    obtain ⟨hlen, hctx⟩ := requireSize_ok (eq_false_of_ne_true hec)
    rw [if_neg hec, hctx]
    refine ⟨⟨by rw [hctx] at hec; simpa using hec, (List.take_append_drop n ctx.rest).symm, rfl⟩, ?_⟩
    rw [List.length_take]
    omega

theorem checkSizeAndAdvance_append (bytes rest : Bytes) (ec : ErrorCode) :
    checkSizeAndAdvance ⟨bytes ++ rest, ec⟩ bytes.length = ⟨rest, ec⟩ := by
  unfold checkSizeAndAdvance
  rw [if_neg (by simp only [List.length_append]; omega)]
  simp

section
variable {ec : ErrorCode} (hec : ec.failed = false) (rest : Bytes)
include hec

theorem getByte_cons (b : UInt8) : getByte ⟨b :: rest, ec⟩ = (b, ⟨rest, ec⟩) := by
  simp [getByte, hec]

theorem getIntegral_append {w : Nat} {z : Int} (h : BigEndian.Fits w z) :
    getIntegral ⟨BigEndian.ofInt w z ++ rest, ec⟩ w = (z, ⟨rest, ec⟩) := by
  have htake : (BigEndian.ofInt w z ++ rest).take w = BigEndian.ofInt w z := by
    rw [List.take_left' (BigEndian.length_ofInt w z)]
  have hdrop : (BigEndian.ofInt w z ++ rest).drop w = rest := by
    rw [List.drop_left' (BigEndian.length_ofInt w z)]
  unfold getIntegral
  rw [requireSize_of_le (by simp)]
  simp only [hec, Bool.false_eq_true, if_false, htake, hdrop]
  rw [loadBigSigned, BigEndian.toInt_ofInt h]

theorem getNonnegativeIntegral_append {w n : Nat} (h : BigEndian.Fits w n) :
    getNonnegativeIntegral ⟨BigEndian.ofInt w n ++ rest, ec⟩ w = (n, ⟨rest, ec⟩) := by
  unfold getNonnegativeIntegral
  rw [getIntegral_append hec rest h]
  simp only
  rw [if_neg (by omega), Int.toNat_natCast]

theorem getString_append {s : Bytes} (h : (0 : UInt8) ∉ s) :
    getString ⟨s ++ 0 :: rest, ec⟩ = (s, ⟨rest, ec⟩) := by
  have hall : ¬(s ++ 0 :: rest).all (· ≠ 0) = true := by simp
  unfold getString
  simp only [hec, Bool.false_eq_true, if_false]
  rw [if_neg hall, Delimited.drop_takeWhile_ne_append h, Delimited.takeWhile_ne_append h]

theorem getByteArray_append (bytes : Bytes) :
    getByteArray ⟨bytes ++ rest, ec⟩ bytes.length = (bytes, ⟨rest, ec⟩) := by
  unfold getByteArray
  rw [requireSize_of_le (by simp)]
  simp [hec]

end

end ParseContext

end NativePg
