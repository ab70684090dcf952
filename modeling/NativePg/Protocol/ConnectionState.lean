/-
  File:      NativePg/Protocol/ConnectionState.lean
  Subject:   What a connection keeps between two operations, and how an error of the server is
             recorded in it.

  * `ConnectionState` -- include/nativepg/protocol/connection_state.hpp. The state machines get
    it by reference and share it; a new one has an empty buffer of 4096 bytes;
  * `sqlstateAsInt`, `parseSqlstate` -- include/nativepg/sqlstate.hpp: an SQLSTATE is the VALUE of
    an error code. `sqlstateAsInt_eq_zero_iff`: exactly one SQLSTATE is the value of no error;
  * `Diagnostics.assign`, `processError` -- the text an error leaves, and its code;
  * `IoResult` -- what a machine asks its caller for.
-/
import NativePg.Protocol.ReadBuffer

namespace NativePg

/-! ## 1. SQLSTATEs -/

/-- `parse_sqlstate_char`. -/
def parseSqlstateChar (value : UInt8) : Int :=
  if 48 ≤ value ∧ value ≤ 57 then value.toNat - 48
  else if 65 ≤ value ∧ value ≤ 90 then value.toNat - 65 + 10
  else -1

/-- `sqlstate_as_int`: six bits for each of the five characters; -1 for anything else. -/
def sqlstateAsInt (chars : Bytes) : Int :=
  match chars with
  | [b0, b1, b2, b3, b4] =>
    let c0 := parseSqlstateChar b0
    let c1 := parseSqlstateChar b1
    let c2 := parseSqlstateChar b2
    let c3 := parseSqlstateChar b3
    let c4 := parseSqlstateChar b4
    if c0 = -1 ∨ c1 = -1 ∨ c2 = -1 ∨ c3 = -1 ∨ c4 = -1 then -1
    else (c0.toNat <<< (6 * 4) ||| c1.toNat <<< (6 * 3) ||| c2.toNat <<< (6 * 2) |||
      c3.toNat <<< (6 * 1) ||| c4.toNat : Nat)
  | _ => -1

/-- `parse_sqlstate`. -/
def parseSqlstate (chars : Bytes) : ErrorCode := ⟨sqlstateAsInt chars, .sqlstate⟩

/-- The SQLSTATE of a successful completion. -/
def successfulCompletion : Bytes := ascii "00000"

/-- A character with the value zero is `'0'`, and no other character has a value below one. -/
theorem parseSqlstateChar_cases (b : UInt8) :
    parseSqlstateChar b = -1 ∨ (b = 48 ∧ parseSqlstateChar b = 0) ∨ 0 < parseSqlstateChar b := by
  unfold parseSqlstateChar
  split
  · rename_i h
    have h48 : 48 ≤ b.toNat := UInt8.le_iff_toNat_le.mp h.1
    by_cases hb : b = 48
    · subst hb
      exact .inr (.inl ⟨rfl, rfl⟩)
    · have hne : b.toNat ≠ 48 := fun e => hb (UInt8.toNat_inj.mp e)
      exact .inr (.inr (by omega))
  · split
    · rename_i h
      have h65 : 65 ≤ b.toNat := UInt8.le_iff_toNat_le.mp h.1
      exact .inr (.inr (by omega))
    · exact .inl rfl

theorem parseSqlstateChar_zero {b : UInt8} (h1 : parseSqlstateChar b ≠ -1)
    (h0 : (parseSqlstateChar b).toNat = 0) : b = 48 := by
  rcases parseSqlstateChar_cases b with h | ⟨h, _⟩ | h
  · exact absurd h h1
  · exact h
  · omega

/-- **Only the SQLSTATE 00000 has the value zero.** -/
theorem sqlstateAsInt_eq_zero_iff (chars : Bytes) :
    sqlstateAsInt chars = 0 ↔ chars = successfulCompletion := by
  constructor
  · intro h
    unfold sqlstateAsInt at h
    split at h
    · simp only at h
      split at h
      · cases h
      · rename_i hne
        simp only [not_or] at hne
        obtain ⟨h0, h1, h2, h3, h4⟩ := hne
        have hz := Int.ofNat_eq_zero.mp h
        simp only [Nat.or_eq_zero_iff, Nat.shiftLeft_eq_zero_iff] at hz
        obtain ⟨⟨⟨⟨z0, z1⟩, z2⟩, z3⟩, z4⟩ := hz
        rw [parseSqlstateChar_zero h0 z0, parseSqlstateChar_zero h1 z1,
          parseSqlstateChar_zero h2 z2, parseSqlstateChar_zero h3 z3,
          parseSqlstateChar_zero h4 z4]
        rfl
    · cases h
  · intro h
    subst h
    decide

/-- **An SQLSTATE is an error unless it is 00000.** -/
theorem failed_parseSqlstate (chars : Bytes) :
    (parseSqlstate chars).failed = false ↔ chars = successfulCompletion := by
  rw [← sqlstateAsInt_eq_zero_iff]
  simp [parseSqlstate, ErrorCode.failed]

/-! ## 2. Diagnostics -/

/-- `diagnostics`: its message. -/
abbrev Diagnostics := Bytes

/-- `diagnostics::assign`. -/
def Diagnostics.assign (err : ErrorResponse) : Diagnostics :=
  err.severity.getD (ascii "<Server error with unknown severity>") ++ ascii ": " ++
    err.sqlstate.getD (ascii "<unknown SQLSTATE>") ++ ascii ": " ++
    err.message.getD (ascii "<unknown error>")

/-- The code `process_error` (src/startup_fsm.cpp) returns; it also assigns the diagnostics. -/
def processError (err : ErrorResponse) : ErrorCode := parseSqlstate (err.sqlstate.getD [])

/-- **`process_error` returns no error for one kind of error message.** -/
theorem failed_processError (err : ErrorResponse) :
    (processError err).failed = false ↔ err.sqlstate = some successfulCompletion := by
  rw [processError, failed_parseSqlstate]
  cases err.sqlstate with
  | none =>
    constructor
    · intro h
      exact absurd h (by decide)
    · intro h
      cases h
  | some s => simp

/-! ## 3. The state of a connection -/

/-- `connection_state`. -/
structure ConnectionState where
  writeBuffer : Bytes := []
  readBuffer : ReadBuffer := ReadBuffer.new 4096
  backendProcessId : UInt32 := 0
  backendSecretKey : UInt32 := 0
  sharedDiag : Diagnostics := []
  deriving DecidableEq, Repr

/-- The bytes that have been received and not yet consumed. -/
def ConnectionState.committed (st : ConnectionState) : Bytes := st.readBuffer.committedArea

/-- `startup_fsm::result`, which is also the result of `exec_fsm`: done with a code, a read into
    a prepared area of some size, or a write. -/
abbrev IoResult := Framing.Action ErrorCode Bytes

end NativePg
