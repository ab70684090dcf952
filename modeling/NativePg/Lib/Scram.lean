/-
  File:      NativePg/Lib/Scram.lean
  Subject:   Salted challenge-response authentication (RFC 5802), as computations on keys.

  * `Hashes` -- the functions of a mechanism, and the labels they are applied to. Digests are of any
    type; of `xor` only that it cancels is needed;
  * `saltedPassword` -- `Hi`, as the sum of its terms. `saltedPassword_eq_sum`: each term once;
  * `Credentials`, `register` -- what a server stores of a password;
  * `accepts_clientProof` -- the server accepts the proof of a client that knows the password.
-/
import Mathlib.Tactic.Common

namespace Scram

variable {α D : Type}

/-- The hash functions of a mechanism; texts are lists of `α`. -/
structure Hashes (α D : Type) where
  hmac : List α → List α → D
  hash : List α → D
  xor : D → D → D
  /-- A digest as a text. -/
  text : D → List α
  /-- `INT(1)`. -/
  one : List α
  /-- `"Client Key"`. -/
  clientKeyLabel : List α
  /-- `"Server Key"`. -/
  serverKeyLabel : List α
  xor_cancel : ∀ a b, xor (xor a b) b = a

namespace Hashes

variable (h : Hashes α D) (password salt auth : List α) (i : Nat)

/-- `U1`, `U2`, ...: the term behind `k` rounds. -/
def hiTerm : Nat → D
  | 0 => h.hmac password (salt ++ h.one)
  | k + 1 => h.hmac password (h.text (hiTerm k))

/-- `SaltedPassword := Hi(password, salt, i) := U1 XOR U2 XOR ... XOR Ui`. -/
def saltedPassword : D :=
  ((List.range (i - 1)).map fun k => h.hiTerm password salt (k + 1)).foldl h.xor
    (h.hiTerm password salt 0)

/-- The sum of all terms, from a digest that adds nothing. -/
theorem saltedPassword_eq_sum {zero : D} (hzero : ∀ a, h.xor zero a = a) (hi : 1 ≤ i) :
    h.saltedPassword password salt i =
      ((List.range i).map (h.hiTerm password salt)).foldl h.xor zero := by
  obtain ⟨n, rfl⟩ := Nat.exists_eq_add_of_le' hi
  rw [saltedPassword, List.range_succ_eq_map, List.map_cons, List.foldl_cons, hzero, List.map_map]
  rfl

/-- `ClientKey := HMAC(SaltedPassword, "Client Key")`. -/
def clientKey : D := h.hmac (h.text (h.saltedPassword password salt i)) h.clientKeyLabel

/-- `StoredKey := H(ClientKey)`. -/
def storedKey : D := h.hash (h.text (h.clientKey password salt i))

/-- `ServerKey := HMAC(SaltedPassword, "Server Key")`. -/
def serverKey : D := h.hmac (h.text (h.saltedPassword password salt i)) h.serverKeyLabel

/-- `ClientProof := ClientKey XOR HMAC(StoredKey, AuthMessage)`. -/
def clientProof : D :=
  h.xor (h.clientKey password salt i) (h.hmac (h.text (h.storedKey password salt i)) auth)

end Hashes

/-- What a server stores of a user. -/
structure Credentials (α D : Type) where
  salt : List α
  iterationCount : Nat
  storedKey : D
  serverKey : D

/-- The credentials of a password. -/
def Hashes.register (h : Hashes α D) (password salt : List α) (i : Nat) : Credentials α D where
  salt := salt
  iterationCount := i
  storedKey := h.storedKey password salt i
  serverKey := h.serverKey password salt i

namespace Credentials

variable (c : Credentials α D) (h : Hashes α D) (auth : List α)

/-- The server's check: `H(ClientProof XOR HMAC(StoredKey, AuthMessage)) = StoredKey`. -/
def Accepts (proof : D) : Prop :=
  h.hash (h.text (h.xor proof (h.hmac (h.text c.storedKey) auth))) = c.storedKey

/-- `ServerSignature := HMAC(ServerKey, AuthMessage)`. -/
def serverSignature : D := h.hmac (h.text c.serverKey) auth

end Credentials

/-- **The server accepts the proof of the password it stores.** -/
theorem accepts_clientProof (h : Hashes α D) (password salt auth : List α) (i : Nat) :
    (h.register password salt i).Accepts h auth (h.clientProof password salt auth i) := by
  unfold Credentials.Accepts Hashes.register Hashes.clientProof
  rw [h.xor_cancel]
  rfl

end Scram
