/-
  File:      NativePg/ErrorCode.lean
  Subject:   Error codes, and the faults a checked model can run into.

  * `ErrorCode` -- a `std::error_code`: a value and a category. What the code tests with
    `if (ec)` is `ErrorCode.failed`: a value other than zero, whatever the category;
  * `ClientErrc` -- the enumeration `client_errc` (include/nativepg/client_errc.hpp), counted
    from one in the header's order;
  * `Fault`, `Checked` -- a `BOOST_ASSERT` that fires and an access outside a range are results
    of their own: a model that returns `.ok` has run into neither.
-/
import Mathlib.Tactic.Common
import Mathlib.Tactic.Ring

namespace NativePg

/-! ## 1. Faults -/

/-- What a function of the source must not do. -/
inductive Fault where
  /-- A `BOOST_ASSERT` whose condition is false. -/
  | assertion
  /-- An access through an index or an iterator outside its range, or through a stale pointer. -/
  | outOfRange
  deriving DecidableEq, Repr

/-- A result of code that can run into a `Fault`. -/
abbrev Checked (α : Type) := Except Fault α

/-! ## 2. Error codes -/

/-- The error categories the library's codes belong to. -/
inductive ErrorCategory where
  | system
  | generic
  | client
  | sqlstate
  | ssl
  deriving DecidableEq, Repr

/-- A `std::error_code`. -/
structure ErrorCode where
  value : Int
  category : ErrorCategory
  deriving DecidableEq, Repr

/-- `std::error_code()`: the value zero in the system category. -/
def ErrorCode.success : ErrorCode := ⟨0, .system⟩

/-- `std::error_code::operator bool`: only the VALUE counts. -/
def ErrorCode.failed (ec : ErrorCode) : Bool := ec.value != 0

@[simp] theorem ErrorCode.failed_success : ErrorCode.success.failed = false := rfl

/-- `std::make_error_code(std::errc::operation_canceled)` (`ECANCELED`). -/
def ErrorCode.operationCanceled : ErrorCode := ⟨125, .generic⟩

/-- `client_errc`. -/
inductive ClientErrc where
  | incompleteMessage
  | protocolValueError
  | extraBytes
  | valueTooBig
  | invalidBase64
  | invalidScramMessage
  | mandatoryScramExtensionNotSupported
  | scramMechanismsUnsupported
  | scramInvalidNonce
  | scramInvalidServerSignature
  | unexpectedMessage
  | incompatibleResponseLength
  | incompatibleResponseType
  | unexpectedNull
  | incompatibleFieldType
  | fieldNotFound
  | authKerberosV5Unsupported
  | authCleartextPasswordUnsupported
  | authMd5PasswordUnsupported
  | authGssUnsupported
  | authSspiUnsupported
  | emptyRequest
  | requestEndsWithoutSync
  | requestMixesSimpleAdvancedProtocols
  | stepSkipped
  | unknownOpensslError
  | unmatchedRequest
  | needsMore
  | copyNotAllowed
  deriving DecidableEq, Repr

/-- `make_error_code(client_errc)`: the enumerators start at one. -/
def ClientErrc.code (e : ClientErrc) : ErrorCode := ⟨(e.ctorIdx : Int) + 1, .client⟩

/-- **Every client error is an error**: none of the enumerators has the value zero. -/
@[simp] theorem ClientErrc.failed_code (e : ClientErrc) : e.code.failed = true := by
  have h : (e.ctorIdx : Int) + 1 ≠ 0 := by omega
  simpa [ClientErrc.code, ErrorCode.failed] using h

end NativePg
