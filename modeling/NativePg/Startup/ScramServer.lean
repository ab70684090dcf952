/-
  File:      NativePg/Startup/ScramServer.lean
  Subject:   The server of a SCRAM-SHA-256 exchange (RFC 5802, without channel binding), and the
             client of this library against it.

  * `scramSha256`, `workingOpenSsl` -- HMAC-SHA-256 and SHA-256 are any functions, and an OpenSSL
    whose calls do not fail computes them;
  * `clientFirstText`, `serverFirstMessage`, `clientFinalText`, `serverFinalMessage` -- the four
    messages of the exchange, as the RFC spells them;
  * `hiLoop_of_hmac`, `computeHi_eq_hi` -- the loop of `compute_hi` carries the last term and the
    sum so far, and computes `Hi`;
  * `computeProofs_working` -- what `compute_proofs` computes is the RFC's;
  * `Completes` -- the exchange goes through: each step of the client succeeds, its messages are
    the RFC's in their frames, and the server accepts them;
  * `scram_completes_iff` -- it does, if and only if the client's final message fits in a frame.
-/
import NativePg.Lib.Scram
import NativePg.Startup.Scram

namespace NativePg

open Scram

/-! ## 1. The functions -/

theorem computeXor_cancel (a b : Sha256Digest) : computeXor (computeXor a b) b = a := by
  apply Vector.ext
  intro i hi
  simp only [computeXor, Vector.getElem_zipWith, UInt8.xor_assoc, UInt8.xor_self, UInt8.xor_zero]

/-- SCRAM-SHA-256 over any two functions. -/
def scramSha256 (hmac : Bytes → Bytes → Sha256Digest) (sha256 : Bytes → Sha256Digest) :
    Hashes UInt8 Sha256Digest where
  hmac := hmac
  hash := sha256
  xor := computeXor
  text := Vector.toList
  one := [0, 0, 0, 1]
  clientKeyLabel := ascii "Client Key"
  serverKeyLabel := ascii "Server Key"
  xor_cancel := computeXor_cancel

/-- An OpenSSL none of whose calls fails. -/
def workingOpenSsl (raw : Vector UInt8 18) (hmac : Bytes → Bytes → Sha256Digest)
    (sha256 : Bytes → Sha256Digest) : OpenSsl where
  randBytes := .ok raw
  macContext := .ok ()
  hmac key data := .ok (hmac key data)
  sha256 data := .ok (sha256 data)

theorem zero_computeXor (a : Sha256Digest) : computeXor .zero a = a := by
  ext i hi
  simp [computeXor, Sha256Digest.zero]

section
variable {ssl : OpenSsl} {hmac : Bytes → Bytes → Sha256Digest}
  (hssl : ∀ key data, ssl.hmac key data = .ok (hmac key data)) (sha256 : Bytes → Sha256Digest)
  (str salt : Bytes)
include hssl

theorem computeHmac_of_hmac (key data : Bytes) (output : Sha256Digest) :
    computeHmac ssl key data output = (.success, hmac key data) := by
  rw [computeHmac, hssl]
  rfl

/-- **The loop of `compute_hi` adds up the terms behind the `k`-th**: it carries the last term and
    the sum so far. -/
theorem hiLoop_of_hmac : ∀ (n k : Nat) (hi : Sha256Digest),
    hiLoop ssl str n ((scramSha256 hmac sha256).hiTerm str salt k) hi =
      (.success, ((List.range n).map fun j =>
        (scramSha256 hmac sha256).hiTerm str salt (k + j + 1)).foldl computeXor hi)
  | 0, _, _ => rfl
  | n + 1, k, hi => by
      unfold hiLoop
      rw [computeHmac_of_hmac hssl]
      have hnext := hiLoop_of_hmac n (k + 1)
        (computeXor hi ((scramSha256 hmac sha256).hiTerm str salt (k + 1)))
      have hshift : ∀ j, k + (j + 1) + 1 = k + 1 + j + 1 := fun j => by omega
      rw [List.range_succ_eq_map]
      simp only [List.map_cons, List.map_map, List.foldl_cons, Function.comp_def, Nat.add_zero,
        Nat.succ_eq_add_one, hshift]
      exact hnext

theorem computeHi_of_hmac (i : Nat) :
    computeHi ssl str salt i =
      (.success, (scramSha256 hmac sha256).saltedPassword str salt i) := by
  have hloop := hiLoop_of_hmac hssl sha256 str salt (i - 1) 0
    ((scramSha256 hmac sha256).hiTerm str salt 0)
  simp only [Nat.zero_add] at hloop
  unfold computeHi
  rw [computeHmac_of_hmac hssl]
  exact hloop

/-- **`compute_hi` is `Hi`**: the sum of the first `i` terms, each of them once. -/
theorem computeHi_eq_hi {i : Nat} (hi : 1 ≤ i) :
    computeHi ssl str salt i =
      (.success, ((List.range i).map ((scramSha256 hmac sha256).hiTerm str salt)).foldl
        computeXor .zero) := by
  have hsum := (scramSha256 hmac sha256).saltedPassword_eq_sum str salt i zero_computeXor hi
  rw [computeHi_of_hmac hssl sha256, hsum]
  rfl

end

/-- The first three terms for the password `pencil` and the salt `salt`. -/
def recordedSaltedPassword : Sha256Digest :=
  #v[141, 170, 75, 32, 144, 201, 36, 123, 162, 205, 32, 89, 210, 169, 142, 18,
    97, 163, 176, 146, 147, 137, 145, 165, 203, 127, 125, 240, 144, 155, 60, 236]

def recordedTerm2 : Sha256Digest :=
  #v[150, 188, 219, 251, 106, 166, 193, 138, 155, 124, 162, 27, 157, 50, 173, 69,
    138, 195, 245, 66, 136, 5, 44, 163, 150, 114, 2, 200, 130, 183, 29, 66]

def recordedTerm3 : Sha256Digest :=
  #v[142, 156, 178, 71, 161, 149, 77, 93, 117, 255, 126, 98, 8, 17, 130, 238,
    222, 74, 42, 233, 194, 24, 193, 1, 229, 240, 150, 173, 18, 240, 126, 32]

/-- What HMAC-SHA-256 gave for them. -/
def recordedTermHmac (key data : Bytes) : Sha256Digest :=
  if key ≠ ascii "pencil" then .zero
  else if data = ascii "salt" ++ [0, 0, 0, 1] then recordedSaltedPassword
  else if data = recordedSaltedPassword.toList then recordedTerm2
  else if data = recordedTerm2.toList then recordedTerm3
  else .zero

/-- Three iterations add up the three terms. -/
theorem computeHi_eq_hi_pencil :
    computeHi (workingOpenSsl (Vector.replicate 18 0) recordedTermHmac fun _ => .zero)
        (ascii "pencil") (ascii "salt") 3 =
      (.success, computeXor (computeXor recordedSaltedPassword recordedTerm2) recordedTerm3) :=
  (computeHi_eq_hi (fun _ _ => rfl) (fun _ => .zero) (ascii "pencil") (ascii "salt")
    (i := 3) (by decide)).trans (by decide +kernel)

section
variable (raw : Vector UInt8 18) (hmac : Bytes → Bytes → Sha256Digest)
  (sha256 : Bytes → Sha256Digest) (password salt auth : Bytes) (output : Sha256Digest)

theorem computeHi_working (i : Nat) :
    computeHi (workingOpenSsl raw hmac sha256) password salt i =
      (.success, (scramSha256 hmac sha256).saltedPassword password salt i) :=
  computeHi_of_hmac (fun _ _ => rfl) sha256 password salt i

/-- **`compute_proofs` computes the RFC's proof and signature.** -/
theorem computeProofs_working (i : Nat) (proofs : Proofs) :
    computeProofs (workingOpenSsl raw hmac sha256) password salt i auth proofs =
      (.success,
        { clientProof := (scramSha256 hmac sha256).clientProof password salt auth i
          serverSignature := ((scramSha256 hmac sha256).register password salt i).serverSignature
            (scramSha256 hmac sha256) auth }) := by
  unfold computeProofs
  rw [computeHi_working]
  rfl

end

/-! ## 2. The messages -/

/-- A number in decimal digits. -/
def decimal (n : Nat) : Bytes := (Nat.toDigits 10 n).map fun c => c.toNat.toUInt8

/-- `client-first-message-bare`, of a client that leaves its name to the startup message. -/
def clientFirstBareText (nonce : Bytes) : Bytes := ascii "n=" ++ ascii ",r=" ++ nonce

/-- `client-first-message`, with the header of a client that has no channel binding. -/
def clientFirstText (nonce : Bytes) : Bytes := ascii "n,," ++ clientFirstBareText nonce

/-- `server-first-message`. -/
def serverFirstMessage (c : Credentials UInt8 Sha256Digest) (nonce ext : Bytes) : Bytes :=
  serverFirstText nonce (Base64.reference c.salt) (decimal c.iterationCount) ext

/-- `client-final-message-without-proof`: the header again, in base64, and the nonce. -/
def clientFinalWithoutProofText (nonce : Bytes) : Bytes :=
  ascii "c=" ++ Base64.reference (ascii "n,,") ++ ascii ",r=" ++ nonce

/-- `client-final-message`. -/
def clientFinalText (nonce : Bytes) (proof : Sha256Digest) : Bytes :=
  clientFinalWithoutProofText nonce ++ ascii ",p=" ++ Base64.reference proof.toList

/-- `server-final-message`. -/
def serverFinalMessage (signature : Sha256Digest) (ext : Bytes) : Bytes :=
  ascii "v=" ++ (Base64.reference signature.toList ++ ext)

/-- `AuthMessage`. -/
def authMessageText (clientNonce serverFirst nonce : Bytes) : Bytes :=
  clientFirstBareText clientNonce ++ [comma] ++ serverFirst ++ [comma] ++
    clientFinalWithoutProofText nonce

/-- The body of SASLInitialResponse. -/
def saslInitialResponse (mechanism data : Bytes) : Bytes :=
  addString mechanism ++ storeBigS32 data.length ++ data

theorem authMessage_eq (clientNonce serverFirst nonce : Bytes) :
    ScramSha256Fsm.authMessage (ScramSha256Fsm.clientFirstMessageBare clientNonce) serverFirst nonce =
      authMessageText clientNonce serverFirst nonce := rfl

theorem clientFinalMessage_eq (nonce : Bytes) (proof : Sha256Digest) :
    ScramSha256Fsm.clientFinalMessage nonce proof = clientFinalText nonce proof := by
  unfold ScramSha256Fsm.clientFinalMessage clientFinalText base64Encode
  rw [Base64.encode_eq_reference]
  rfl

theorem comma_notMem_base64 (l : Bytes) : comma ∉ Base64.reference l := by
  intro hmem
  rw [← Base64.encode_eq_reference] at hmem
  rcases Base64.mem_encode hmem with h | h
  · exact absurd h (by decide)
  · exact absurd h (by decide)

theorem printable_base64 (l : Bytes) : (Base64.reference l).all scramIsPrintable = true := by
  rw [← Base64.encode_eq_reference, List.all_eq_true]
  intro c hc
  have halphabet : ∀ c ∈ Base64.alphabet, scramIsPrintable c = true :=
    List.all_eq_true.mp (by decide)
  rcases Base64.mem_encode hc with h | h
  · exact halphabet c h
  · subst h
    decide

theorem length_base64 (l : Bytes) : (Base64.reference l).length = 4 * ((l.length + 2) / 3) := by
  rw [← Base64.encode_eq_reference, Base64.length_encode]

theorem toNat_digit {c : Char} (h : c.toNat ≤ 57) : c.toNat.toUInt8.toNat = c.toNat := by
  rw [Nat.toUInt8_eq, UInt8.toNat_ofNat', Nat.mod_eq_of_lt (by omega)]

/-- The value of a text of digits. -/
theorem foldl_digits : ∀ (cs : List Char) (acc : Nat), (∀ c ∈ cs, 48 ≤ c.toNat ∧ c.toNat ≤ 57) →
    (cs.map fun c => c.toNat.toUInt8).foldl (fun n c => n * 10 + (c.toNat - 48)) acc =
      Nat.ofDigitChars 10 cs acc
  | [], _, _ => rfl
  | c :: cs, acc, h => by
      have hc := h c (by simp)
      rw [List.map_cons, List.foldl_cons, toNat_digit hc.2, Nat.ofDigitChars_cons,
        foldl_digits cs _ fun c' hc' => h c' (by simp [hc']), Nat.mul_comm]
      rfl

/-- `std::from_chars` reads a number in decimal digits. -/
theorem fromCharsU32_decimal {n : Nat} (h : n < 2 ^ 32) : fromCharsU32 (decimal n) = some n := by
  have hdigit : ∀ c ∈ Nat.toDigits 10 n, 48 ≤ c.toNat ∧ c.toNat ≤ 57 := by
    intro c hc
    have := Nat.isDigit_of_mem_toDigits (by decide) (by decide) hc
    simpa [Char.isDigit, UInt32.le_iff_toNat_le] using this
  have hne : decimal n ≠ [] := by
    unfold decimal
    simp [Nat.toDigits_ne_nil]
  have hall : (decimal n).any (fun c => !(48 ≤ c && c ≤ 57)) = false := by
    rw [List.any_eq_false]
    intro b hb
    obtain ⟨c, hc, rfl⟩ := List.mem_map.mp hb
    have hc := hdigit c hc
    simp [UInt8.le_iff_toNat_le, toNat_digit hc.2, hc]
  have hvalue : (decimal n).foldl (fun n c => n * 10 + (c.toNat - 48)) 0 = n := by
    unfold decimal
    rw [foldl_digits _ 0 hdigit, Nat.ofDigitChars_ten_toDigits]
  unfold fromCharsU32
  simp only [hvalue]
  rw [hall, if_neg (by simp [hne]), if_pos h]

/-! ## 3. The exchange -/

/-- **The exchange goes through.** The client draws `nonce`, the server adds `suffix` to it and
    may add extensions to its messages; `writeBuffer` is what the buffer held before. -/
def Completes (raw : Vector UInt8 18) (hmac : Bytes → Bytes → Sha256Digest)
    (sha256 : Bytes → Sha256Digest) (password nonce suffix salt : Bytes) (i : Nat)
    (ext extFinal writeBuffer : Bytes) : Prop :=
  let ssl := workingOpenSsl raw hmac sha256
  let hashes := scramSha256 hmac sha256
  let server := hashes.register password salt i
  let serverFirst := serverFirstMessage server (nonce ++ suffix) ext
  let auth := authMessageText nonce serverFirst (nonce ++ suffix)
  let proof := hashes.clientProof password salt auth i
  let init := ScramSha256Fsm.onInitWith {} (fun _ => (.success, nonce)) writeBuffer
  init.ec = .success ∧
    framed 'p' (saslInitialResponse (ascii "SCRAM-SHA-256") (clientFirstText nonce)) =
      some init.writeBuffer ∧
    ∃ first, init.fsm.onServerFirst ssl serverFirst password init.writeBuffer = .ok first ∧
      first.ec = .success ∧
      framed 'p' (clientFinalText (nonce ++ suffix) proof) = some first.writeBuffer ∧
      server.Accepts hashes auth proof ∧
      first.fsm.onServerFinal (serverFinalMessage (server.serverSignature hashes auth) extFinal) =
        .ok .success

section
variable (raw : Vector UInt8 18) (hmac : Bytes → Bytes → Sha256Digest)
  (sha256 : Bytes → Sha256Digest) (password nonce suffix salt ext extFinal writeBuffer : Bytes)
  (i : Nat)

theorem length_clientFinalText (proof : Sha256Digest) :
    (clientFinalText nonce proof).length = nonce.length + 56 := by
  unfold clientFinalText clientFinalWithoutProofText
  simp only [List.length_append, length_base64, Vector.length_toList]
  rw [show (ascii "c=").length = 2 from rfl, show (ascii "n,,").length = 3 from rfl,
    show (ascii ",r=").length = 3 from rfl, show (ascii ",p=").length = 3 from rfl]
  omega

theorem length_clientFirstText : (clientFirstText nonce).length = nonce.length + 8 := by
  unfold clientFirstText clientFirstBareText
  simp only [List.length_append]
  rw [show (ascii "n,,").length = 3 from rfl, show (ascii "n=").length = 2 from rfl,
    show (ascii ",r=").length = 3 from rfl]
  omega

/-- `on_init` succeeds where `client-first-message` has a length. -/
theorem onInitWith_success (h : nonce.length + 8 ≤ int32Max) :
    (ScramSha256Fsm.onInitWith {} (fun _ => (.success, nonce)) writeBuffer).ec = .success := by
  have hlen : (ascii "n,,").length + (ScramSha256Fsm.clientFirstMessageBare nonce).length =
      nonce.length + 8 := by
    rw [← List.length_append]
    exact length_clientFirstText nonce
  unfold ScramSha256Fsm.onInitWith
  simp only [ErrorCode.failed_success, Bool.false_eq_true, if_false]
  rw [hlen, if_neg (by omega)]

theorem base64Decode_reference (l : Bytes) :
    base64Decode (Base64.reference l) [] = .ok (.ok l) := by
  rw [← Base64.encode_eq_reference, base64Decode_encode, List.nil_append]

end

section
variable {raw : Vector UInt8 18} {hmac : Bytes → Bytes → Sha256Digest}
  {sha256 : Bytes → Sha256Digest} {password nonce suffix salt ext extFinal writeBuffer : Bytes}
  {i : Nat}

/-- The client understands the server's first message. -/
theorem offer_serverFirst (hnonce : nonce ≠ [])
    (hprint : (nonce ++ suffix).all scramIsPrintable = true) (hi : 1 ≤ i ∧ i ≤ 65535)
    (hext : Extensions ext) :
    ScramSha256Fsm.Offer nonce (serverFirstMessage
      ((scramSha256 hmac sha256).register password salt i) (nonce ++ suffix) ext)
      { nonce := nonce ++ suffix, salt, iterationCount := i } where
  parsed := parseServerFirst_ok.mpr ⟨_, _, _, rfl, hprint, comma_notMem_base64 salt,
    base64Decode_reference salt, fromCharsU32_decimal (n := i) (by omega), hext⟩
  nonce_ne := by simp [hnonce]
  nonce_extends := List.prefix_append nonce suffix
  iterations := hi

/-- The proof is computed for the messages of the exchange. -/
theorem proofsFor_working (raw : Vector UInt8 18) {f : ScramSha256Fsm} {bytes : Bytes}
    (hspan : (writeBuffer.take f.clientFirstMsg.2).drop f.clientFirstMsg.1 =
      ScramSha256Fsm.clientFirstMessageBare nonce) (msg : ServerFirstMessage) :
    f.proofsFor (workingOpenSsl raw hmac sha256) bytes password writeBuffer msg =
      (.success,
        { clientProof := (scramSha256 hmac sha256).clientProof password msg.salt
            (authMessageText nonce bytes msg.nonce) msg.iterationCount
          serverSignature := ((scramSha256 hmac sha256).register password msg.salt
            msg.iterationCount).serverSignature (scramSha256 hmac sha256)
            (authMessageText nonce bytes msg.nonce) }) := by
  unfold ScramSha256Fsm.proofsFor
  rw [hspan, authMessage_eq, computeProofs_working]

theorem length_saslInitialResponse : (saslInitialResponse (ascii "SCRAM-SHA-256")
    (clientFirstText nonce)).length = nonce.length + 26 := by
  unfold saslInitialResponse addString
  simp only [List.length_append, length_clientFirstText]
  rw [show (ascii "SCRAM-SHA-256").length = 13 from rfl,
    show (storeBigS32 (nonce.length + 8)).length = 4 from rfl, List.length_singleton]
  omega

/-- The client accepts the signature it has computed. -/
theorem onServerFinal_signature {f : ScramSha256Fsm} {signature : Sha256Digest}
    (h : f.serverSignature = signature) (hext : Extensions extFinal) :
    f.onServerFinal (serverFinalMessage signature extFinal) = .ok .success := by
  have hparsed : parseServerFinal (serverFinalMessage signature extFinal) =
      .ok (.ok signature.toList) := by
    unfold parseServerFinal serverFinalMessage
    rw [show attribute? 'v' (ascii "v=" ++ (Base64.reference signature.toList ++ extFinal)) =
      some (Base64.reference signature.toList ++ extFinal) from attribute?_eq_some.mpr rfl]
    simp only
    rw [takeWhile_extensions (comma_notMem_base64 _) hext, base64Decode_reference]
  unfold ScramSha256Fsm.onServerFinal
  rw [hparsed, h]
  simp [ScramSha256Fsm.cryptoEqual, bind, Except.bind, pure, Except.pure]

/-- The client's final message has a frame where the exchange goes through. -/
theorem Completes.fits
    (h : Completes raw hmac sha256 password nonce suffix salt i ext extFinal writeBuffer) :
    nonce.length + suffix.length + 60 ≤ int32Max := by
  obtain ⟨_, _, first, _, _, hframe, _⟩ := h
  unfold framed at hframe
  simp only [length_clientFinalText, List.length_append] at hframe
  split at hframe
  · cases hframe
  · omega

/-- **The exchange goes through if and only if the client's final message fits in a frame.** The
    client draws a nonce in base64 and the server adds a printable suffix, its salt, and an
    iteration count from 1 to 65535. Each step of the client then succeeds; its messages are the
    RFC's in their frames, and the server accepts the proof. A final message whose length does
    not fit -- 60 bytes and the nonce -- is sent with the length 0, and no error is reported. -/
theorem scram_completes_iff (raw : Vector UInt8 18) (hmac : Bytes → Bytes → Sha256Digest)
    (sha256 : Bytes → Sha256Digest) (password rawNonce suffix salt writeBuffer : Bytes)
    (hnonce : rawNonce ≠ []) (hsuffix : suffix.all scramIsPrintable = true) {i : Nat}
    (hi : 1 ≤ i ∧ i ≤ 65535) {ext extFinal : Bytes} (hext : Extensions ext)
    (hextFinal : Extensions extFinal) :
    Completes raw hmac sha256 password (Base64.reference rawNonce) suffix salt i ext extFinal
        writeBuffer ↔
      (Base64.reference rawNonce).length + suffix.length + 60 ≤ int32Max := by
  refine ⟨Completes.fits, fun hfits => ?_⟩
  have hne : Base64.reference rawNonce ≠ [] := by
    rw [← Base64.encode_eq_reference]
    exact Base64.encode_ne_nil hnonce
  have hprint : (Base64.reference rawNonce ++ suffix).all scramIsPrintable = true := by
    rw [List.all_append, printable_base64, hsuffix]
    rfl
  generalize Base64.reference rawNonce = nonce at hfits hne hprint ⊢
  have hec := onInitWith_success nonce writeBuffer (by omega)
  unfold Completes
  generalize hinit : ScramSha256Fsm.onInitWith {} (fun _ => (.success, nonce)) writeBuffer = init
    at hec ⊢
  obtain ⟨hfsm, hbuffer, hspan⟩ := ScramSha256Fsm.onInitWith_ok hinit
    (show ((ErrorCode.success, nonce) : ErrorCode × Bytes).2 = nonce from rfl) (by rw [hec]; rfl)
  have hoffer : ScramSha256Fsm.Offer init.fsm.nonce (serverFirstMessage
      ((scramSha256 hmac sha256).register password salt i) (nonce ++ suffix) ext)
      { nonce := nonce ++ suffix, salt, iterationCount := i } := by
    rw [hfsm]
    exact offer_serverFirst hne hprint hi hext
  have hfirst := ScramSha256Fsm.onServerFirst_of_offer hoffer
    (@proofsFor_working hmac sha256 password nonce init.writeBuffer raw _ _ hspan _)
  refine ⟨hec, ?_, _, hfirst, rfl, ?_, accepts_clientProof .., onServerFinal_signature rfl hextFinal⟩
  · rw [hbuffer]
    refine framed_finalizeMessage.mpr (?_ : (saslInitialResponse _ _).length + 4 ≤ int32Max)
    rw [length_saslInitialResponse]
    omega
  · rw [clientFinalMessage_eq]
    refine framed_finalizeMessage.mpr ?_
    rw [length_clientFinalText, List.length_append]
    omega

end

/-- An exchange recorded with the password `pencil`, the salt `salt` and one iteration: the keys. -/
def recordedClientKey : Sha256Digest :=
  #v[158, 77, 93, 20, 54, 7, 7, 187, 217, 188, 49, 62, 15, 14, 214, 18,
    84, 190, 94, 241, 48, 112, 80, 95, 75, 8, 129, 92, 102, 2, 118, 64]

def recordedStoredKey : Sha256Digest :=
  #v[58, 217, 57, 145, 217, 192, 163, 254, 148, 13, 71, 38, 208, 166, 142, 250,
    225, 18, 121, 223, 56, 21, 82, 197, 237, 8, 56, 55, 219, 245, 49, 16]

def recordedClientSignature : Sha256Digest :=
  #v[101, 152, 115, 43, 11, 39, 171, 251, 144, 231, 68, 100, 148, 81, 216, 196,
    217, 28, 32, 33, 26, 156, 38, 135, 200, 108, 205, 12, 0, 36, 126, 214]

def recordedServerKey : Sha256Digest :=
  #v[81, 206, 3, 13, 196, 17, 55, 149, 137, 227, 135, 141, 139, 34, 143, 16,
    239, 140, 38, 245, 104, 243, 133, 28, 175, 133, 136, 246, 120, 177, 207, 173]

def recordedServerSignature : Sha256Digest :=
  #v[37, 8, 94, 191, 100, 45, 20, 71, 90, 192, 66, 252, 51, 213, 132, 249,
    132, 117, 4, 29, 14, 216, 124, 225, 150, 21, 237, 128, 225, 108, 37, 31]

/-- The nonce of that exchange. -/
def recordedRaw : Vector UInt8 18 := #v[1, 2, 3, 4, 5, 6, 7, 8, 9, 10, 11, 12, 13, 14, 15, 16, 17, 18]

def recordedServerFirst : Bytes := ascii "r=AQIDBAUGBwgJCgsMDQ4PEBESabc,s=c2FsdA==,i=1"

def recordedAuth : Bytes :=
  ascii "n=,r=AQIDBAUGBwgJCgsMDQ4PEBES," ++ recordedServerFirst ++
    ascii ",c=biws,r=AQIDBAUGBwgJCgsMDQ4PEBESabc"

/-- What HMAC-SHA-256 and SHA-256 gave in it. -/
def recordedHmac (key data : Bytes) : Sha256Digest :=
  if key = ascii "pencil" ∧ data = ascii "salt" ++ [0, 0, 0, 1] then recordedSaltedPassword
  else if key = recordedSaltedPassword.toList ∧ data = ascii "Client Key" then recordedClientKey
  else if key = recordedStoredKey.toList ∧ data = recordedAuth then recordedClientSignature
  else if key = recordedSaltedPassword.toList ∧ data = ascii "Server Key" then recordedServerKey
  else if key = recordedServerKey.toList ∧ data = recordedAuth then recordedServerSignature
  else .zero

def recordedSha256 (data : Bytes) : Sha256Digest :=
  if data = recordedClientKey.toList then recordedStoredKey else .zero

/-- The recorded exchange goes through. -/
theorem scram_completes_iff_recorded :
    Completes recordedRaw recordedHmac recordedSha256 (ascii "pencil")
      (Base64.reference recordedRaw.toList) (ascii "abc") (ascii "salt") 1 [] (ascii ",x=1") [] :=
  (scram_completes_iff recordedRaw recordedHmac recordedSha256 (ascii "pencil") recordedRaw.toList
    (ascii "abc") (ascii "salt") [] (by decide) (by decide) (by decide) (.inl rfl)
    (.inr rfl)).mpr (by decide)

/-- A server's part of the nonce, of any length. -/
def longSuffix (length : Nat) : Bytes := List.replicate length 97

theorem length_longSuffix (length : Nat) : (longSuffix length).length = length := by
  unfold longSuffix
  rw [List.length_replicate]

theorem printable_longSuffix (length : Nat) : (longSuffix length).all scramIsPrintable = true := by
  unfold longSuffix
  rw [List.all_replicate]
  split
  · rfl
  · decide

/-- The length of the server's first message, without a salt and with one iteration. -/
theorem length_longServerFirst (password : Bytes) (length : Nat) :
    (serverFirstMessage ((scramSha256 recordedHmac recordedSha256).register password [] 1)
      (Base64.reference recordedRaw.toList ++ longSuffix length) []).length = length + 33 := by
  have hnonce : (Base64.reference recordedRaw.toList).length = 24 := by decide
  unfold serverFirstMessage serverFirstText Hashes.register
  simp only [List.length_append, length_longSuffix, hnonce]
  rw [show (Base64.reference []).length = 0 from rfl, show (decimal 1).length = 1 from rfl,
    show (ascii "r=").length = 2 from rfl, show (ascii ",s=").length = 3 from rfl,
    show (ascii ",i=").length = 3 from rfl, List.length_nil]
  omega

theorem not_completes_longSuffix {password : Bytes} {length : Nat} (h : int32Max < length + 84) :
    ¬Completes recordedRaw recordedHmac recordedSha256 password
      (Base64.reference recordedRaw.toList) (longSuffix length) [] 1 [] [] [] := by
  intro hc
  have hnonce : (Base64.reference recordedRaw.toList).length = 24 := by decide
  have hfits := hc.fits
  rw [length_longSuffix, hnonce] at hfits
  omega

/-- With a suffix that makes the client's final message one byte too long, the exchange does not go
    through; the server's own message fits. -/
theorem long_nonce_not_framed :
    (longSuffix 2147483564).all scramIsPrintable = true ∧
      (serverFirstMessage ((scramSha256 recordedHmac recordedSha256).register (ascii "pencil") [] 1)
        (Base64.reference recordedRaw.toList ++ longSuffix 2147483564) []).length + 8 ≤ int32Max ∧
      ¬Completes recordedRaw recordedHmac recordedSha256 (ascii "pencil")
        (Base64.reference recordedRaw.toList) (longSuffix 2147483564) [] 1 [] [] [] := by
  refine ⟨printable_longSuffix _, ?_, not_completes_longSuffix (by decide)⟩
  rw [length_longServerFirst]
  decide

end NativePg
