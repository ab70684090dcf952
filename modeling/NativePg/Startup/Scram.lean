/-
  File:      NativePg/Startup/Scram.lean
  Subject:   SCRAM-SHA-256, the client's side: src/scram_sha256_fsm.cpp and, under
             src/nativepg_internal/, scram_sha256_messages.hpp, scram_sha256_crypt.hpp and
             openssl_error.cpp.

  * `OpenSsl` -- what the code calls of OpenSSL, as a parameter: each call gives its result, or
    the code `ERR_get_error` reports. A failed call is an error of the login only if that code
    translates to a value other than zero (`OpenSsl.Reports`);
  * `parseServerFirst`, `parseServerFinal` -- the two messages of the server;
  * `computeProofs` -- the client's proof and the signature the server has to show;
  * `ScramSha256Fsm`, `onInit`, `onServerFirst`, `onServerFinal` -- the machine;
  * `onServerFinal_success` -- it accepts a final message only if its verifier is the signature.
-/
import NativePg.Lib.Delimited
import NativePg.Protocol.ConnectionState
import NativePg.Protocol.SerializationContext
import NativePg.Startup.Base64

namespace NativePg

/-! ## 1. OpenSSL -/

/-- `sha256_digest`. -/
abbrev Sha256Digest := Vector UInt8 32

/-- `sha256_digest{}`. -/
def Sha256Digest.zero : Sha256Digest := Vector.replicate 32 0

/-- What the code calls of OpenSSL. The error of a call is what `ERR_get_error` returns. -/
structure OpenSsl where
  /-- `RAND_bytes`, for the nonce. -/
  randBytes : Except UInt64 (Vector UInt8 18)
  /-- `EVP_MAC_fetch`, `EVP_MAC_CTX_new` and `EVP_MAC_CTX_set_params`. -/
  macContext : Except UInt64 Unit
  /-- `EVP_MAC_init` with the key, `EVP_MAC_update` with the data, `EVP_MAC_final`. -/
  hmac : Bytes → Bytes → Except UInt64 Sha256Digest
  /-- `EVP_MD_fetch` to `EVP_DigestFinal_ex`. -/
  sha256 : Bytes → Except UInt64 Sha256Digest

/-- `translate_openssl_error`, with OpenSSL's `ERR_SYSTEM_ERROR` (bit 31) and `ERR_GET_REASON`
    (the bits below it). -/
def translateOpensslError (code : UInt64) : ErrorCode :=
  if code &&& 0x80000000 ≠ 0 then ⟨(code &&& 0x7fffffff).toNat, .system⟩
  else
    let intCode := (code &&& 0xffffffff).toNat
    if intCode = 0 then ClientErrc.unknownOpensslError.code else ⟨intCode, .ssl⟩

/-- A code OpenSSL can report: one marked as a system error carries an `errno`, which is not
    zero. -/
def reportable (code : UInt64) : Prop := code &&& 0x80000000 ≠ 0 → code &&& 0x7fffffff ≠ 0

instance (code : UInt64) : Decidable (reportable code) := inferInstanceAs (Decidable (_ → _))

/-- **A failed OpenSSL call is reported as a failure.** -/
structure OpenSsl.Reports (ssl : OpenSsl) : Prop where
  randBytes : ∀ {code}, ssl.randBytes = .error code → reportable code
  macContext : ∀ {code}, ssl.macContext = .error code → reportable code
  hmac : ∀ {key data code}, ssl.hmac key data = .error code → reportable code
  sha256 : ∀ {data code}, ssl.sha256 data = .error code → reportable code

theorem failed_translateOpensslError {code : UInt64} (h : reportable code) :
    (translateOpensslError code).failed = true := by
  unfold translateOpensslError
  split
  · rename_i hsys
    have hne : (code &&& 0x7fffffff).toNat ≠ 0 := by
      intro h0
      exact h hsys (UInt64.toNat_inj.mp h0)
    simpa [ErrorCode.failed] using hne
  · simp only
    split
    · exact ClientErrc.failed_code _
    · rename_i hne
      simpa [ErrorCode.failed] using hne

/-! ## 2. Proofs -/

/-- `compute_xor`. -/
def computeXor (lhs rhs : Sha256Digest) : Sha256Digest := Vector.zipWith (· ^^^ ·) lhs rhs

/-- An output a function fills unless it fails. -/
def fill {α : Type} (r : Except UInt64 α) (output : α) : ErrorCode × α :=
  match r with
  | .ok a => (.success, a)
  | .error code => (translateOpensslError code, output)

/-- `compute_hmac`; two pieces of data are their concatenation. -/
def computeHmac (ssl : OpenSsl) (key data : Bytes) (output : Sha256Digest) :
    ErrorCode × Sha256Digest :=
  fill (ssl.hmac key data) output

/-- `compute_sha256`. -/
def computeSha256 (ssl : OpenSsl) (data : Bytes) (output : Sha256Digest) :
    ErrorCode × Sha256Digest :=
  fill (ssl.sha256 data) output

/-- The loop of `compute_hi`, `n` more times. -/
def hiLoop (ssl : OpenSsl) (str : Bytes) : Nat → Sha256Digest → Sha256Digest →
    ErrorCode × Sha256Digest
  | 0, _, hi => (.success, hi)
  | n + 1, ucurrent, hi =>
    let (ec, unext) := computeHmac ssl str ucurrent.toList .zero
    if ec.failed then (ec, .zero) else hiLoop ssl str n unext (computeXor hi unext)

/-- `compute_hi`. -/
def computeHi (ssl : OpenSsl) (str salt : Bytes) (iterationCount : Nat) :
    ErrorCode × Sha256Digest :=
  let (ec, u1) := computeHmac ssl str (salt ++ storeBigS32 1) .zero
  if ec.failed then (ec, .zero) else hiLoop ssl str (iterationCount - 1) u1 u1

/-- What `compute_proofs` fills. -/
structure Proofs where
  clientProof : Sha256Digest
  serverSignature : Sha256Digest
  deriving DecidableEq

/-- `compute_proofs`; `normalize_password` copies the password. -/
def computeProofs (ssl : OpenSsl) (password salt : Bytes) (iterationCount : Nat)
    (authMessage : Bytes) (output : Proofs) : ErrorCode × Proofs :=
  let (ec, _) := fill ssl.macContext ()
  if ec.failed then (ec, output) else
  let (ec, saltedPassword) := computeHi ssl password salt iterationCount
  if ec.failed then (ec, output) else
  let (ec, clientKey) := computeHmac ssl saltedPassword.toList (ascii "Client Key") .zero
  if ec.failed then (ec, output) else
  let (ec, storedKey) := computeSha256 ssl clientKey.toList .zero
  if ec.failed then (ec, output) else
  let (ec, clientSignature) := computeHmac ssl storedKey.toList authMessage .zero
  if ec.failed then (ec, output) else
  let output := { output with clientProof := computeXor clientKey clientSignature }
  let (ec, serverKey) := computeHmac ssl saltedPassword.toList (ascii "Server Key") .zero
  if ec.failed then (ec, output) else
  let (ec, serverSignature) := computeHmac ssl serverKey.toList authMessage output.serverSignature
  (ec, { output with serverSignature })

/-- `generate_nonce`: 18 random bytes in base64. -/
def generateNonce (ssl : OpenSsl) (nonce : Bytes) : ErrorCode × Bytes :=
  fill (ssl.randBytes.map fun raw => base64Encode raw.toList []) nonce

/-! ## 3. The server's messages -/

/-- `server_first_message`. -/
structure ServerFirstMessage where
  nonce : Bytes
  salt : Bytes
  iterationCount : Nat
  deriving DecidableEq, Repr

/-- `','`. -/
def comma : UInt8 := 44

/-- The bytes in front of the first comma and those behind it. -/
def splitComma (p : Bytes) : Option (Bytes × Bytes) :=
  if comma ∈ p then
    let field := p.takeWhile (· ≠ comma)
    some (field, p.drop (field.length + 1))
  else none

/-- `scram_is_printable`. -/
def scramIsPrintable (c : UInt8) : Bool := (0x21 ≤ c && c ≤ 0x2b) || (0x2d ≤ c && c ≤ 0x7e)

/-- `if (p == last || *p++ != name) ...; if (p == last || *p++ != '=') ...` -/
def attribute? (name : Char) (p : Bytes) : Option Bytes :=
  match p with
  | c :: e :: rest => if c = name.toNat.toUInt8 ∧ e = 61 then some rest else none
  | _ => none

/-- `std::from_chars` on a `std::uint32_t`, where it reads the whole text. -/
def fromCharsU32 (text : Bytes) : Option Nat :=
  if text.isEmpty || text.any (fun c => !(48 ≤ c && c ≤ 57)) then none
  else
    let n := text.foldl (fun n c => n * 10 + (c.toNat - 48)) 0
    if n < 2 ^ 32 then some n else none

/-- `parse(span, server_first_message&)`. -/
def parseServerFirst (data : Bytes) : Checked (Except ErrorCode ServerFirstMessage) :=
  let invalid : Checked (Except ErrorCode ServerFirstMessage) :=
    pure (.error ClientErrc.invalidScramMessage.code)
  -- `reserved-mext`
  if data.head? = some 109 then
    if data[1]? = some comma then
      pure (.error ClientErrc.mandatoryScramExtensionNotSupported.code)
    else invalid
  else
    match (attribute? 'r' data).bind splitComma with
    | none => invalid
    | some (nonce, p) =>
      if !nonce.all scramIsPrintable then invalid
      else
        match (attribute? 's' p).bind splitComma with
        | none => invalid
        | some (saltText, p) => do
          match ← base64Decode saltText [] with
          | .error ec => pure (.error ec)
          | .ok salt =>
            match (attribute? 'i' p).bind fun p => fromCharsU32 (p.takeWhile (· ≠ comma)) with
            | none => invalid
            | some iterationCount => pure (.ok { nonce, salt, iterationCount })

/-- `parse(span, server_final_message&)`: the verifier. -/
def parseServerFinal (data : Bytes) : Checked (Except ErrorCode Bytes) :=
  match attribute? 'v' data with
  | none => pure (.error ClientErrc.invalidScramMessage.code)
  | some p => base64Decode (p.takeWhile (· ≠ comma)) []

/-! ## 4. The machine -/

/-- `scram_sha256_fsm`. `client_first_msg_` is a span of the write buffer: its bounds. -/
structure ScramSha256Fsm where
  nonce : Bytes := []
  clientFirstMsg : Nat × Nat := (0, 0)
  serverSignature : Sha256Digest := .zero
  deriving DecidableEq

namespace ScramSha256Fsm

/-- What a function of the machine returns: its code, the machine and the write buffer. -/
structure Reply where
  ec : ErrorCode
  fsm : ScramSha256Fsm
  writeBuffer : Bytes

/-- `client-first-message-bare`. -/
def clientFirstMessageBare (nonce : Bytes) : Bytes := ascii "n=,r=" ++ nonce

/-- The body of the client's first message up to where `client-first-message-bare` starts. -/
def clientFirstPreamble (dataLength : Nat) : Bytes :=
  addString (ascii "SCRAM-SHA-256") ++ storeBigS32 dataLength ++ ascii "n,,"

/-- `on_init` with a generator of nonces. -/
def onInitWith (f : ScramSha256Fsm) (nonceGen : Bytes → ErrorCode × Bytes) (writeBuffer : Bytes) :
    Reply :=
  let (ec, nonce) := nonceGen f.nonce
  let f := { f with nonce }
  if ec.failed then ⟨ec, f, writeBuffer⟩
  else
    let bare := clientFirstMessageBare nonce
    let dataLength := (ascii "n,,").length + bare.length
    if dataLength > int32Max then
      -- the length is not stored and the message not finalized
      ⟨ClientErrc.valueTooBig.code, f,
        112 :: [0, 0, 0, 0] ++ clientFirstPreamble 0 ++ bare⟩
    else
      let preamble := clientFirstPreamble dataLength
      let start := 5 + preamble.length
      ⟨.success, { f with clientFirstMsg := (start, start + bare.length) },
        finalizeMessage 'p' (preamble ++ bare)⟩

/-- `on_init`, which hands in `generate_nonce`. -/
def onInit (f : ScramSha256Fsm) (ssl : OpenSsl) (writeBuffer : Bytes) : Reply :=
  f.onInitWith (generateNonce ssl) writeBuffer

/-- `client-final-message-without-proof`. -/
def clientFinalWithoutProof (nonce : Bytes) : Bytes := ascii "c=biws,r=" ++ nonce

/-- `AuthMessage`. -/
def authMessage (clientFirst serverFirst nonce : Bytes) : Bytes :=
  clientFirst ++ [comma] ++ serverFirst ++ [comma] ++ clientFinalWithoutProof nonce

/-- `on_server_first`. -/
def onServerFirst (f : ScramSha256Fsm) (ssl : OpenSsl) (bytes password writeBuffer : Bytes) :
    Checked Reply := do
  match ← parseServerFirst bytes with
  | .error ec => pure ⟨ec, f, writeBuffer⟩
  | .ok msg =>
    if msg.nonce.isEmpty || !f.nonce.isPrefixOf msg.nonce then
      pure ⟨ClientErrc.scramInvalidNonce.code, f, writeBuffer⟩
    else if msg.iterationCount = 0 || msg.iterationCount > 0xffff then
      pure ⟨ClientErrc.protocolValueError.code, f, writeBuffer⟩
    else
      let clientFirst := (writeBuffer.take f.clientFirstMsg.2).drop f.clientFirstMsg.1
      let (ec, proofs) := computeProofs ssl password msg.salt msg.iterationCount
        (authMessage clientFirst bytes msg.nonce) ⟨.zero, f.serverSignature⟩
      let f := { f with serverSignature := proofs.serverSignature }
      let withoutProof := clientFinalWithoutProof msg.nonce
      if ec.failed then pure ⟨ec, f, 112 :: [0, 0, 0, 0] ++ withoutProof⟩
      else
        pure ⟨.success, f, finalizeMessage 'p'
          (base64Encode proofs.clientProof.toList (withoutProof ++ ascii ",p="))⟩

/-- `crypto_equal`. -/
def cryptoEqual (lhs rhs : Bytes) : Bool := lhs.length == rhs.length && lhs == rhs

/-- `on_server_final`. -/
def onServerFinal (f : ScramSha256Fsm) (bytes : Bytes) : Checked ErrorCode := do
  match ← parseServerFinal bytes with
  | .error ec => pure ec
  | .ok serverSignature =>
    if !cryptoEqual serverSignature f.serverSignature.toList then
      pure ClientErrc.scramInvalidServerSignature.code
    else pure .success

end ScramSha256Fsm

/-! ## 5. What the signature is

`ServerSignature` as RFC 5802 defines it, from the password and the messages; the code computes it
with the proofs, and an OpenSSL call that fails fails both. -/

/-- `Hi`, behind its first round: `u` is the last term and `hi` the sum so far. -/
def hiRounds (ssl : OpenSsl) (str : Bytes) : Nat → Sha256Digest → Sha256Digest →
    Except UInt64 Sha256Digest
  | 0, _, hi => .ok hi
  | n + 1, u, hi =>
    match ssl.hmac str u.toList with
    | .error code => .error code
    | .ok u' => hiRounds ssl str n u' (computeXor hi u')

/-- `SaltedPassword := Hi(password, salt, i)`. -/
def scramSaltedPassword (ssl : OpenSsl) (password salt : Bytes) (i : Nat) :
    Except UInt64 Sha256Digest :=
  match ssl.hmac password (salt ++ storeBigS32 1) with
  | .error code => .error code
  | .ok u => hiRounds ssl password (i - 1) u u

/-- `ServerSignature := HMAC(HMAC(SaltedPassword, "Server Key"), AuthMessage)`. -/
def scramServerSignature (ssl : OpenSsl) (password salt : Bytes) (i : Nat) (authMessage : Bytes) :
    Except UInt64 Sha256Digest :=
  match scramSaltedPassword ssl password salt i with
  | .error code => .error code
  | .ok salted =>
    match ssl.hmac salted.toList (ascii "Server Key") with
    | .error code => .error code
    | .ok key => ssl.hmac key.toList authMessage

/-- `if (ec) return ec;`, in a function that returns no error. -/
theorem not_failed_of_ite {α : Type} {ec : ErrorCode} {a : α} {r : ErrorCode × α}
    (h : (if ec.failed then (ec, a) else r).1.failed = false) :
    ec.failed = false ∧ (if ec.failed then (ec, a) else r) = r := by
  by_cases hec : ec.failed = true
  · simp [hec] at h
  · exact ⟨by simpa using hec, if_neg hec⟩

section
variable {ssl : OpenSsl} (hssl : ssl.Reports)
include hssl

theorem computeHmac_ok {key data : Bytes} {output : Sha256Digest}
    (h : (computeHmac ssl key data output).1.failed = false) :
    ssl.hmac key data = .ok (computeHmac ssl key data output).2 := by
  unfold computeHmac fill at h ⊢
  split
  · assumption
  · rename_i code hc
    rw [hc] at h
    simp [failed_translateOpensslError (hssl.hmac hc)] at h

theorem hiLoop_ok (str : Bytes) : ∀ (n : Nat) (u hi : Sha256Digest),
    (hiLoop ssl str n u hi).1.failed = false →
      hiRounds ssl str n u hi = .ok (hiLoop ssl str n u hi).2
  | 0, _, _, _ => rfl
  | n + 1, u, hi, h => by
      unfold hiLoop at h ⊢
      unfold hiRounds
      simp only at h ⊢
      obtain ⟨hu, heq⟩ := not_failed_of_ite h
      rw [heq] at h ⊢
      rw [computeHmac_ok hssl hu]
      exact hiLoop_ok str n _ _ h

theorem computeHi_ok {str salt : Bytes} {n : Nat} (h : (computeHi ssl str salt n).1.failed = false) :
    scramSaltedPassword ssl str salt n = .ok (computeHi ssl str salt n).2 := by
  unfold computeHi at h ⊢
  unfold scramSaltedPassword
  simp only at h ⊢
  obtain ⟨hu, heq⟩ := not_failed_of_ite h
  rw [heq] at h ⊢
  rw [computeHmac_ok hssl hu]
  exact hiLoop_ok hssl str _ _ _ h

/-- **Where `compute_proofs` reports no error, it has computed the server's signature.** -/
theorem computeProofs_ok {password salt auth : Bytes} {n : Nat} {output : Proofs}
    (h : (computeProofs ssl password salt n auth output).1.failed = false) :
    scramServerSignature ssl password salt n auth =
      .ok (computeProofs ssl password salt n auth output).2.serverSignature := by
  unfold computeProofs at h ⊢
  unfold scramServerSignature
  simp only at h ⊢
  -- the six checks of the function, each behind a call of OpenSSL
  obtain ⟨_, hcontext⟩ := not_failed_of_ite h
  rw [hcontext] at h ⊢
  obtain ⟨hsalted, hhi⟩ := not_failed_of_ite h
  rw [hhi] at h ⊢
  obtain ⟨_, hclientKey⟩ := not_failed_of_ite h
  rw [hclientKey] at h ⊢
  obtain ⟨_, hstoredKey⟩ := not_failed_of_ite h
  rw [hstoredKey] at h ⊢
  obtain ⟨_, hclientSignature⟩ := not_failed_of_ite h
  rw [hclientSignature] at h ⊢
  obtain ⟨hkey, hserverKey⟩ := not_failed_of_ite h
  rw [hserverKey] at h ⊢
  simp only [computeHi_ok hssl hsalted, computeHmac_ok hssl hkey]
  exact computeHmac_ok hssl h

end

/-! ## 6. What the machine accepts -/

theorem base64Decode_code {input output : Bytes} {ec : ErrorCode}
    (h : base64Decode input output = .ok (.error ec)) : ec.failed = true := by
  unfold base64Decode at h
  split at h
  · cases h
    rfl
  · cases hd : Base64.decode input with
    | error fault =>
      rw [hd] at h
      cases h
    | ok r =>
      rw [hd] at h
      cases r with
      | none =>
        cases h
        rfl
      | some bytes => cases h

theorem parseServerFinal_code {data : Bytes} {ec : ErrorCode}
    (h : parseServerFinal data = .ok (.error ec)) : ec.failed = true := by
  unfold parseServerFinal at h
  split at h
  · cases h
    rfl
  · exact base64Decode_code h

theorem parseServerFirst_code {data : Bytes} {ec : ErrorCode}
    (h : parseServerFirst data = .ok (.error ec)) : ec.failed = true := by
  unfold parseServerFirst at h
  simp only at h
  split at h
  · split at h <;> cases h <;> rfl
  · split at h
    · cases h
      rfl
    · split at h
      · cases h
        rfl
      · split at h
        · cases h
          rfl
        · rename_i saltText p _
          cases hd : base64Decode saltText [] with
          | error fault =>
            rw [hd] at h
            cases h
          | ok r =>
            rw [hd] at h
            cases r with
            | error ec' =>
              cases h
              exact base64Decode_code hd
            | ok salt =>
              simp only [bind, Except.bind] at h
              split at h <;> cases h
              rfl

/-- An attribute is its name, `=`, and its value up to the end of the text. -/
theorem attribute?_eq_some {name : Char} {p rest : Bytes} :
    attribute? name p = some rest ↔ p = name.toNat.toUInt8 :: 61 :: rest := by
  unfold attribute?
  split
  · rename_i c e rest'
    split
    · rename_i h
      simp [h.1, h.2]
    · rename_i h
      constructor
      · intro h'
        cases h'
      · intro h'
        cases h'
        exact absurd ⟨rfl, rfl⟩ h
  · rename_i hne
    constructor
    · intro h
      cases h
    · intro h
      exact absurd h (hne _ _ _)

theorem splitComma_eq_some {p field rest : Bytes} :
    splitComma p = some (field, rest) ↔ p = field ++ comma :: rest ∧ comma ∉ field := by
  unfold splitComma
  constructor
  · intro h
    split at h
    · rename_i hmem
      obtain ⟨field', rest', rfl, hnot⟩ := List.eq_append_cons_of_mem hmem
      cases h
      rw [Delimited.drop_takeWhile_ne_append hnot, Delimited.takeWhile_ne_append hnot]
      exact ⟨rfl, hnot⟩
    · cases h
  · rintro ⟨rfl, hnot⟩
    rw [if_pos (by simp)]
    simp only
    rw [Delimited.drop_takeWhile_ne_append hnot, Delimited.takeWhile_ne_append hnot]

/-- An attribute with its value, and the comma behind it. -/
theorem attribute?_splitComma {name : Char} {p field rest : Bytes} :
    (attribute? name p).bind splitComma = some (field, rest) ↔
      p = name.toNat.toUInt8 :: 61 :: (field ++ comma :: rest) ∧ comma ∉ field := by
  rw [Option.bind_eq_some_iff]
  constructor
  · rintro ⟨q, hq, hsplit⟩
    obtain ⟨rfl, hnot⟩ := splitComma_eq_some.mp hsplit
    exact ⟨attribute?_eq_some.mp hq, hnot⟩
  · rintro ⟨hp, hnot⟩
    exact ⟨_, attribute?_eq_some.mpr hp, splitComma_eq_some.mpr ⟨rfl, hnot⟩⟩

/-- What may follow an attribute: nothing, or a comma and more. -/
def Extensions (ext : Bytes) : Prop := ext = [] ∨ ext.head? = some comma

/-- A value without commas ends where the extensions begin. -/
theorem takeWhile_extensions {value ext : Bytes} (h : comma ∉ value) (hext : Extensions ext) :
    (value ++ ext).takeWhile (· ≠ comma) = value := by
  rcases hext with rfl | hhead
  · rw [List.append_nil]
    exact Delimited.takeWhile_ne_self h
  · obtain ⟨rest, rfl⟩ := List.head?_eq_some_iff.mp hhead
    exact Delimited.takeWhile_ne_append h rest

theorem exists_extensions (p : Bytes) :
    ∃ ext, p = p.takeWhile (· ≠ comma) ++ ext ∧ Extensions ext := by
  by_cases h : comma ∈ p
  · obtain ⟨value, rest, rfl, hnot⟩ := List.eq_append_cons_of_mem h
    exact ⟨comma :: rest, by rw [Delimited.takeWhile_ne_append hnot], .inr rfl⟩
  · exact ⟨[], by rw [Delimited.takeWhile_ne_self h, List.append_nil], .inl rfl⟩

theorem comma_notMem_of_printable {nonce : Bytes} (h : nonce.all scramIsPrintable = true) :
    comma ∉ nonce := by
  intro hmem
  have := List.all_eq_true.mp h comma hmem
  exact absurd this (by decide)

theorem comma_notMem_of_fromChars {text : Bytes} {n : Nat} (h : fromCharsU32 text = some n) :
    comma ∉ text := by
  intro hmem
  have hany : text.any (fun c => !(48 ≤ c && c ≤ 57)) = true :=
    List.any_eq_true.mpr ⟨comma, hmem, by decide⟩
  unfold fromCharsU32 at h
  rw [hany, Bool.or_true, if_pos rfl] at h
  cases h

/-- `server-first-message`: nonce, salt and iteration count, and what follows them. -/
def serverFirstText (nonce saltText countText ext : Bytes) : Bytes :=
  ascii "r=" ++ (nonce ++ (ascii ",s=" ++ (saltText ++ (ascii ",i=" ++ (countText ++ ext)))))

/-- A text is a `server-first-message`, and `msg` is what it says. -/
structure ServerFirst (data saltText countText ext : Bytes) (msg : ServerFirstMessage) : Prop where
  text : data = serverFirstText msg.nonce saltText countText ext
  printable : msg.nonce.all scramIsPrintable = true
  noComma : comma ∉ saltText
  salt : base64Decode saltText [] = .ok (.ok msg.salt)
  count : fromCharsU32 countText = some msg.iterationCount
  extensions : Extensions ext

/-- **What `parse(span, server_first_message&)` accepts.** -/
theorem parseServerFirst_ok {data : Bytes} {msg : ServerFirstMessage} :
    parseServerFirst data = .ok (.ok msg) ↔
      ∃ saltText countText ext, ServerFirst data saltText countText ext msg := by
  constructor
  · intro h
    unfold parseServerFirst at h
    simp only at h
    split at h
    · split at h <;> cases h
    · split at h
      · cases h
      · rename_i nonce p hnonce
        obtain ⟨rfl, _⟩ := attribute?_splitComma.mp hnonce
        split at h
        · cases h
        · rename_i hprint
          split at h
          · cases h
          · rename_i saltText p' hsalt
            obtain ⟨rfl, hnot⟩ := attribute?_splitComma.mp hsalt
            cases hd : base64Decode saltText [] with
            | error fault =>
              rw [hd] at h
              cases h
            | ok r =>
              rw [hd] at h
              cases r with
              | error ec => cases h
              | ok salt =>
                simp only [bind, Except.bind] at h
                split at h
                · cases h
                · rename_i count hcount
                  cases h
                  obtain ⟨q, hq, hfrom⟩ := Option.bind_eq_some_iff.mp hcount
                  obtain rfl := attribute?_eq_some.mp hq
                  obtain ⟨ext, hext, hextensions⟩ := exists_extensions q
                  refine ⟨saltText, q.takeWhile (· ≠ comma), ext, ?_, ?_, hnot, hd, hfrom,
                    hextensions⟩
                  · unfold serverFirstText
                    rw [← hext]
                    rfl
                  · simpa using hprint
  · rintro ⟨saltText, countText, ext, rfl, hprint, hnot, hd, hcount, hext⟩
    have hnonce : (attribute? 'r' (serverFirstText msg.nonce saltText countText ext)).bind
        splitComma = some (msg.nonce, ascii "s=" ++ (saltText ++ (ascii ",i=" ++ (countText ++ ext)))) :=
      attribute?_splitComma.mpr ⟨rfl, comma_notMem_of_printable hprint⟩
    have hsalt : (attribute? 's'
        (ascii "s=" ++ (saltText ++ (ascii ",i=" ++ (countText ++ ext))))).bind splitComma =
        some (saltText, ascii "i=" ++ (countText ++ ext)) :=
      attribute?_splitComma.mpr ⟨rfl, hnot⟩
    have hi : (attribute? 'i' (ascii "i=" ++ (countText ++ ext))).bind
        (fun p => fromCharsU32 (p.takeWhile (· ≠ comma))) = some msg.iterationCount := by
      rw [show attribute? 'i' (ascii "i=" ++ (countText ++ ext)) = some (countText ++ ext) from
        attribute?_eq_some.mpr rfl]
      rw [Option.bind_some, takeWhile_extensions (comma_notMem_of_fromChars hcount) hext, hcount]
    unfold parseServerFirst
    rw [if_neg (by simp [serverFirstText, ascii]), hnonce]
    simp only [hprint, Bool.not_true, Bool.false_eq_true, if_false]
    rw [hsalt]
    simp only [hd, bind, Except.bind]
    rw [hi]
    rfl

namespace ScramSha256Fsm

/-- **`on_server_final` accepts only the signature the machine has computed.** -/
theorem onServerFinal_success {f : ScramSha256Fsm} {bytes : Bytes} {ec : ErrorCode}
    (h : f.onServerFinal bytes = .ok ec) (hec : ec.failed = false) :
    parseServerFinal bytes = .ok (.ok f.serverSignature.toList) := by
  unfold onServerFinal at h
  cases hp : parseServerFinal bytes with
  | error fault =>
    rw [hp] at h
    cases h
  | ok r =>
    rw [hp] at h
    cases r with
    | error ec' =>
      cases h
      simp [parseServerFinal_code hp] at hec
    | ok v =>
      simp only [bind, Except.bind] at h
      split at h
      · cases h
        simp at hec
      · rename_i heq
        simp only [cryptoEqual, Bool.not_eq_true', Bool.not_eq_false, Bool.and_eq_true,
          beq_iff_eq] at heq
        rw [heq.2]

/-- What `on_server_first` demands of the server's first message. -/
structure Offer (nonce bytes : Bytes) (msg : ServerFirstMessage) : Prop where
  parsed : parseServerFirst bytes = .ok (.ok msg)
  nonce_ne : msg.nonce ≠ []
  nonce_extends : nonce <+: msg.nonce
  iterations : 0 < msg.iterationCount ∧ msg.iterationCount ≤ 0xffff

/-- What `compute_proofs` is called with, and what it returns. -/
def proofsFor (f : ScramSha256Fsm) (ssl : OpenSsl) (bytes password writeBuffer : Bytes)
    (msg : ServerFirstMessage) : ErrorCode × Proofs :=
  computeProofs ssl password msg.salt msg.iterationCount
    (authMessage ((writeBuffer.take f.clientFirstMsg.2).drop f.clientFirstMsg.1) bytes msg.nonce)
    ⟨.zero, f.serverSignature⟩

/-- `client-final-message`. -/
def clientFinalMessage (nonce : Bytes) (clientProof : Sha256Digest) : Bytes :=
  base64Encode clientProof.toList (clientFinalWithoutProof nonce ++ ascii ",p=")

/-- **`on_server_first` accepts only an answer to the client's nonce**; it then keeps the signature
    and writes the proof. -/
theorem onServerFirst_ok {ssl : OpenSsl} {f : ScramSha256Fsm} {bytes password writeBuffer : Bytes}
    {r : Reply} (h : f.onServerFirst ssl bytes password writeBuffer = .ok r)
    (hec : r.ec.failed = false) :
    ∃ msg, Offer f.nonce bytes msg ∧
      (f.proofsFor ssl bytes password writeBuffer msg).1.failed = false ∧
      r.fsm = { f with serverSignature :=
        (f.proofsFor ssl bytes password writeBuffer msg).2.serverSignature } ∧
      r.writeBuffer = finalizeMessage 'p' (clientFinalMessage msg.nonce
        (f.proofsFor ssl bytes password writeBuffer msg).2.clientProof) := by
  unfold onServerFirst at h
  cases hp : parseServerFirst bytes with
  | error fault =>
    rw [hp] at h
    cases h
  | ok m =>
    rw [hp] at h
    cases m with
    | error ec =>
      cases h
      simp [parseServerFirst_code hp] at hec
    | ok msg =>
      simp only [bind, Except.bind] at h
      split at h
      · cases h
        simp at hec
      · rename_i hnonce
        simp only [Bool.or_eq_true, not_or, Bool.not_eq_true, List.isEmpty_eq_false_iff,
          Bool.not_eq_false', List.isPrefixOf_iff_prefix] at hnonce
        split at h
        · cases h
          simp at hec
        · rename_i hiter
          simp only [Bool.or_eq_true, decide_eq_true_eq, not_or] at hiter
          split at h
          · rename_i hf
            cases h
            simp [hf] at hec
          · rename_i hf
            cases h
            exact ⟨msg, ⟨hp, hnonce.1, hnonce.2, by omega, by omega⟩, eq_false_of_ne_true hf, rfl, rfl⟩

/-- **Where the offer is good and the proof is computed, `on_server_first` succeeds.** -/
theorem onServerFirst_of_offer {ssl : OpenSsl} {f : ScramSha256Fsm}
    {bytes password writeBuffer : Bytes} {msg : ServerFirstMessage} {proofs : Proofs}
    (h : Offer f.nonce bytes msg)
    (hproofs : f.proofsFor ssl bytes password writeBuffer msg = (.success, proofs)) :
    f.onServerFirst ssl bytes password writeBuffer =
      .ok ⟨.success, { f with serverSignature := proofs.serverSignature },
        finalizeMessage 'p' (clientFinalMessage msg.nonce proofs.clientProof)⟩ := by
  have hnonce : (msg.nonce.isEmpty || !f.nonce.isPrefixOf msg.nonce) = false := by
    simp [h.nonce_ne, List.isPrefixOf_iff_prefix.mpr h.nonce_extends]
  have hcount : (decide (msg.iterationCount = 0) || decide (msg.iterationCount > 0xffff)) = false := by
    have := h.iterations
    simp only [Bool.or_eq_false_iff, decide_eq_false_iff_not]
    omega
  unfold proofsFor at hproofs
  unfold onServerFirst
  rw [h.parsed]
  simp only [bind, Except.bind, hnonce, hcount, Bool.false_eq_true, if_false, hproofs,
    ErrorCode.failed_success]
  rfl

/-- The signature kept is the one the password gives for the messages exchanged. -/
theorem onServerFirst_success {ssl : OpenSsl} (hssl : ssl.Reports) {f : ScramSha256Fsm}
    {bytes password writeBuffer : Bytes} {r : Reply}
    (h : f.onServerFirst ssl bytes password writeBuffer = .ok r) (hec : r.ec.failed = false) :
    ∃ msg, Offer f.nonce bytes msg ∧
      scramServerSignature ssl password msg.salt msg.iterationCount
        (authMessage ((writeBuffer.take f.clientFirstMsg.2).drop f.clientFirstMsg.1) bytes
          msg.nonce) = .ok r.fsm.serverSignature := by
  obtain ⟨msg, hoffer, hproofs, hfsm, _⟩ := onServerFirst_ok h hec
  rw [hfsm]
  exact ⟨msg, hoffer, computeProofs_ok hssl hproofs⟩

/-- The bytes `client_first_msg_` spans are `client-first-message-bare`. -/
theorem span_finalizeMessage (preamble bare : Bytes) :
    ((finalizeMessage 'p' (preamble ++ bare)).take (5 + preamble.length + bare.length)).drop
      (5 + preamble.length) = bare := by
  have hlen : ∀ l : Bytes, l.length = 4 →
      ((112 :: l ++ (preamble ++ bare)).take (5 + preamble.length + bare.length)).drop
        (5 + preamble.length) = bare := by
    intro l hl
    rw [List.take_of_length_le (by simp [hl]; omega), ← List.append_assoc,
      List.drop_left' (by simp [hl]; omega)]
  unfold finalizeMessage
  simp only
  split
  · exact hlen [0, 0, 0, 0] rfl
  · exact hlen (storeBigS32 _) rfl

/-- `client-first-message`. -/
def clientFirstMessage (nonce : Bytes) : Bytes := ascii "n,," ++ clientFirstMessageBare nonce

/-- **What `on_init` leaves**: the nonce, and the client's first message with the bounds of
    `client-first-message-bare` in it. -/
theorem onInitWith_ok {f : ScramSha256Fsm} {nonceGen : Bytes → ErrorCode × Bytes} {nonce : Bytes}
    {r : Reply} {writeBuffer : Bytes} (hr : f.onInitWith nonceGen writeBuffer = r)
    (hnonce : (nonceGen f.nonce).2 = nonce) (hec : r.ec.failed = false) :
    r.fsm.nonce = nonce ∧
      r.writeBuffer = finalizeMessage 'p' (addString (ascii "SCRAM-SHA-256") ++
        storeBigS32 (clientFirstMessage nonce).length ++ clientFirstMessage nonce) ∧
      (r.writeBuffer.take r.fsm.clientFirstMsg.2).drop r.fsm.clientFirstMsg.1 =
        clientFirstMessageBare nonce := by
  subst hr hnonce
  unfold onInitWith at hec ⊢
  simp only at hec ⊢
  split at hec
  · rename_i hf
    simp [hf] at hec
  · rename_i hf
    rw [if_neg hf]
    split at hec
    · simp at hec
    · rename_i hlen
      rw [if_neg hlen]
      refine ⟨rfl, ?_, span_finalizeMessage _ _⟩
      unfold clientFirstPreamble clientFirstMessage
      simp only [List.append_assoc, List.length_append]

/-- The nonce `on_init` draws; the old one where OpenSSL fails. -/
def drawnNonce (f : ScramSha256Fsm) (ssl : OpenSsl) : Bytes := (generateNonce ssl f.nonce).2

theorem onInit_ok {f : ScramSha256Fsm} {ssl : OpenSsl} {writeBuffer : Bytes}
    (hec : (f.onInit ssl writeBuffer).ec.failed = false) :
    (f.onInit ssl writeBuffer).fsm.nonce = f.drawnNonce ssl ∧
      (f.onInit ssl writeBuffer).writeBuffer = finalizeMessage 'p' (addString (ascii "SCRAM-SHA-256") ++
        storeBigS32 (clientFirstMessage (f.drawnNonce ssl)).length ++
          clientFirstMessage (f.drawnNonce ssl)) ∧
      ((f.onInit ssl writeBuffer).writeBuffer.take (f.onInit ssl writeBuffer).fsm.clientFirstMsg.2).drop
          (f.onInit ssl writeBuffer).fsm.clientFirstMsg.1 =
        clientFirstMessageBare (f.drawnNonce ssl) :=
  onInitWith_ok rfl rfl hec

/-- Where OpenSSL reports its failures, the nonce is a drawn one. -/
theorem onInit_success {ssl : OpenSsl} (hssl : ssl.Reports) {writeBuffer : Bytes} {r : Reply}
    (h : onInit {} ssl writeBuffer = r) (hec : r.ec.failed = false) :
    ∃ raw, ssl.randBytes = .ok raw ∧ r.fsm.nonce = base64Encode raw.toList [] ∧
      (r.writeBuffer.take r.fsm.clientFirstMsg.2).drop r.fsm.clientFirstMsg.1 =
        clientFirstMessageBare r.fsm.nonce := by
  subst h
  obtain ⟨hnonce, _, hspan⟩ := onInit_ok hec
  rw [hspan, hnonce]
  cases hr : ssl.randBytes with
  | error code =>
    have hf := failed_translateOpensslError (hssl.randBytes hr)
    simp [onInit, onInitWith, generateNonce, hr, fill, Except.map, hf] at hec
  | ok raw =>
    refine ⟨raw, rfl, ?_, rfl⟩
    simp [drawnNonce, generateNonce, hr, fill, Except.map]

end ScramSha256Fsm

end NativePg
