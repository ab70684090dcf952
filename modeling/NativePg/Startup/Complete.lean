/-
  File:      NativePg/Startup/Complete.lean
  Subject:   A login against a server that follows the protocol.

  * `steps_login` -- the machine takes every message of a login, and ends with the last one;
  * **`startup_succeeds_iff`** -- in bytes: a login succeeds if and only if what the server sends
    begins with the messages of one;
  * `SaslServer`, `scramMessages` -- an RFC 5802 server with its credentials, and what it sends to
    a client that has drawn some nonce;
  * `login_scram` -- these are the messages of a login;
  * **`scram_login_served`** -- so the login succeeds, however the bytes arrive. The client sends its
    three messages, the server accepts the proof in the last of them, and what it has sent behind
    the login is left on the connection.
-/
import NativePg.Startup.Sends

namespace NativePg

open Framing StartupFsmImpl

/-! ## 1. The messages of a login -/

namespace ScramSha256Fsm

/-- What `on_init` does where it succeeds has nothing to do with what the buffer held. -/
theorem onInit_of_success {ssl : OpenSsl} {writeBuffer : Bytes}
    (h : (onInit {} ssl writeBuffer).ec.failed = false) (writeBuffer' : Bytes) :
    onInit {} ssl writeBuffer' = onInit {} ssl writeBuffer := by
  unfold onInit at h ⊢
  unfold onInitWith at h ⊢
  simp only at h ⊢
  split
  · rename_i hfailed
    rw [if_pos hfailed, hfailed] at h
    cases h
  · rfl

end ScramSha256Fsm

section
variable {ssl : OpenSsl} {params : ConnectParams} {d : Data}

/-- Behind a write the machine waits for the next message. -/
theorem settled_write {point next : StartupPoint} (h : Behind point next) (d : Data) :
    settled ssl (d.suspend point .write) = .ok (d.suspend next .read).toData := by
  have hsettle : settle ssl (d.suspend point .write) = d.suspend next .read :=
    resume_of_behind (d := (d.suspend point .write).toData) h ssl .none
  unfold settled
  rw [hsettle]
  rfl

/-- Session information is taken, and the machine goes on waiting for ReadyForQuery. -/
theorem step_info {msg : AnyBackendMessage} (hp : d.fsm.resumePoint = .readReady)
    (hmsg : isSessionInfo msg = true) :
    ∃ d', startupStep ssl d msg = .ok d' ∧ d'.fsm.resumePoint = .readReady := by
  have hresume : d.resume ssl msg = d.handleReady msg := by
    unfold Data.resume
    rw [hp]
  unfold startupStep
  rw [hresume]
  cases msg with
  | backendKeyData key => exact ⟨_, rfl, rfl⟩
  | parameterStatus status => exact ⟨_, rfl, rfl⟩
  | noticeResponse notice => exact ⟨_, rfl, rfl⟩
  | _ => cases hmsg

/-- **The end of a login**: session information, and ReadyForQuery. -/
theorem steps_ready (status : TransactionStatus) : ∀ {infos : List AnyBackendMessage} {d : Data},
    d.fsm.resumePoint = .readReady → (∀ m ∈ infos, isSessionInfo m = true) →
    Steps (startupStep ssl) d (infos ++ [.readyForQuery status]) (.error (.ok .success))
  | [], d, hp, _ => by
      refine .last ?_
      unfold startupStep Data.resume
      rw [hp]
      rfl
  | msg :: infos, d, hp, h => by
      obtain ⟨d', hstep, hp'⟩ := @step_info ssl _ _ hp (h msg List.mem_cons_self)
      exact .cons hstep (steps_ready status hp' fun m hm => h m (List.mem_cons_of_mem _ hm))

/-- AuthenticationOk, at once or behind an exchange. -/
theorem step_ok (hp : d.fsm.resumePoint = .readAuth ∨ d.fsm.resumePoint = .readOk) :
    ∃ d', startupStep ssl d .authenticationOk = .ok d' ∧ d'.fsm.resumePoint = .readReady := by
  refine ⟨(d.suspend .readReady .read).toData, ?_, rfl⟩
  unfold startupStep Data.resume
  rcases hp with hp | hp
  · rw [hp]
    rfl
  · rw [hp]
    rfl

/-- AuthenticationSASL: the client's first message is written. -/
theorem step_sasl {mechanisms : ForwardParsingView} (hp : d.fsm.resumePoint = .readAuth)
    (hm : supportsScramSha256 mechanisms.data = .ok true)
    (hec : (d.fsm.scramFsm.onInit ssl d.st.writeBuffer).ec.failed = false) :
    startupStep ssl d (.authenticationSasl mechanisms) = .ok (d.sentClientFirst ssl) := by
  unfold startupStep Data.resume Data.handleSasl
  rw [hp]
  simp only [hm]
  rw [if_neg (by simp [hec])]
  exact settled_write .clientFirst _

/-- AuthenticationSASLContinue: the client's final message is written. -/
theorem step_saslContinue {data : Bytes} {r : ScramSha256Fsm.Reply}
    (hp : d.fsm.resumePoint = .readContinue)
    (hr : d.fsm.scramFsm.onServerFirst ssl data d.fsm.params.password d.st.writeBuffer = .ok r)
    (hec : r.ec.failed = false) :
    startupStep ssl d (.authenticationSaslContinue data) =
      .ok ((d.withScram r).suspend .readFinal .read).toData := by
  unfold startupStep Data.resume Data.handleSaslContinue
  rw [hp]
  simp only [hr]
  rw [if_neg (by simp [hec])]
  exact settled_write .clientFinal _

/-- AuthenticationSASLFinal: the server's signature is accepted. -/
theorem step_saslFinal {data : Bytes} {ec : ErrorCode} (hp : d.fsm.resumePoint = .readFinal)
    (hr : d.fsm.scramFsm.onServerFinal data = .ok ec) (hec : ec.failed = false) :
    startupStep ssl d (.authenticationSaslFinal data) = .ok (d.suspend .readOk .read).toData := by
  unfold startupStep Data.resume Data.handleSaslFinal
  rw [hp]
  simp only [hr]
  rw [if_neg (by simp [hec])]
  rfl

/-- **An authentication is taken**, and what comes behind it is up to the rest. -/
theorem steps_authenticated {auth rest : List AnyBackendMessage}
    {o : Except (Checked ErrorCode) Data} (h : Authenticated ssl params auth)
    (hp : d.fsm.resumePoint = .readAuth) (hparams : d.fsm.params = params)
    (hscram : d.fsm.scramFsm = {})
    (hrest : ∀ d' : Data, d'.fsm.resumePoint = .readReady → Steps (startupStep ssl) d' rest o) :
    Steps (startupStep ssl) d (auth ++ rest) o := by
  cases h with
  | ok =>
    obtain ⟨d', hstep, hp'⟩ := @step_ok ssl _ (.inl hp)
    exact .cons hstep (hrest d' hp')
  | @scram mechanisms serverFirst serverFinal hm hs =>
    obtain ⟨writeBuffer, first, final, hec, hfirst, hfec, hfinal, hlec⟩ := hs.functions
    have hinit := ScramSha256Fsm.onInit_of_success hec d.st.writeBuffer
    have hsasl := step_sasl (d := d) hp hm (by rw [hscram, hinit]; exact hec)
    have hcontinue := @step_saslContinue ssl (d.sentClientFirst ssl) serverFirst first rfl
      (by
        simp only [Data.sentClientFirst, Data.withScram, Data.suspend, hscram, hinit, hparams]
        exact hfirst) hfec
    have hsigned := @step_saslFinal ssl
      (((d.sentClientFirst ssl).withScram first).suspend .readFinal .read).toData serverFinal final
      rfl hfinal hlec
    obtain ⟨d', hok, hp'⟩ := @step_ok ssl _ (.inr (show
      ((((d.sentClientFirst ssl).withScram first).suspend .readFinal .read).toData.suspend .readOk
        .read).toData.fsm.resumePoint = .readOk from rfl))
    exact .cons hsasl (.cons hcontinue (.cons hsigned (.cons hok (hrest d' hp'))))

/-- **Every login is taken to its end.** -/
theorem steps_login {msgs : List AnyBackendMessage} (h : Login ssl params msgs)
    (hp : d.fsm.resumePoint = .readAuth) (hparams : d.fsm.params = params)
    (hscram : d.fsm.scramFsm = {}) :
    Steps (startupStep ssl) d msgs (.error (.ok .success)) := by
  obtain ⟨auth, infos, status, hauth, hinfos, rfl⟩ := h
  rw [List.append_assoc]
  exact steps_authenticated hauth hp hparams hscram fun d' hp' => steps_ready status hp' hinfos

/-- The client's final message is the last thing it writes. -/
theorem writes_saslContinue {seen msgs : List AnyBackendMessage} {data : Bytes}
    {r : ScramSha256Fsm.Reply} (hp : d.fsm.resumePoint = .readContinue)
    (hr : d.fsm.scramFsm.onServerFirst ssl data d.fsm.params.password d.st.writeBuffer = .ok r)
    (hec : r.ec.failed = false) :
    writes ssl seen ⟨d, .ok .read⟩ (.authenticationSaslContinue data :: msgs) =
      [⟨seen ++ [.authenticationSaslContinue data], r.writeBuffer⟩] := by
  have hresume : d.resume ssl (.authenticationSaslContinue data) =
      (d.withScram r).suspend .writeClientFinal .write := by
    unfold Data.resume Data.handleSaslContinue
    rw [hp]
    simp only [hr]
    rw [if_neg (by simp [hec])]
    rfl
  rw [writes_read, hresume, writes_write .clientFinal, writes_suspend (by decide)]
  rfl

end

/-! ## 2. Logins, in bytes -/

section
variable {ssl : OpenSsl} {params : ConnectParams} {st : ConnectionState} {diag : Diagnostics}

/-- The machine as the startup message leaves it. -/
theorem settled_start (h : (serializeStartup params).1.failed = false) :
    settled ssl (StartupFsmImpl.start ssl params st diag) = .ok (sentStartup params st diag) := by
  unfold StartupFsmImpl.start Data.resume
  simp only
  rw [if_neg (by simp [h])]
  exact settled_write .startup _

/-- What a login is to end as where its messages are there. -/
theorem startupReference_login (h : (serializeStartup params).1.failed = false)
    {used later : Bytes} {msgs : List AnyBackendMessage} (hframes : Frames messageParser used msgs)
    (hlogin : Login ssl params msgs) :
    startupReference ssl params st diag (used ++ later) =
      ⟨msgs, some (.ok .success), later⟩ := by
  have hsteps : Steps (startupStep ssl) (sentStartup params { st with readBuffer := blank } diag)
      msgs (.error (.ok .success)) := steps_login hlogin rfl rfl rfl
  unfold startupReference outcomeFrom
  rw [settled_start h]
  simp only
  rw [drain_frames_finished hframes hsteps later]
  rfl

theorem StartupSession.done_of_result {s : StartupSession} {unread : Bytes} {r : Checked ErrorCode}
    (h : (s.outcome unread).result = some r) : s.action = .done r := by
  cases hact : s.action with
  | done r' =>
    simp only [StartupSession.outcome, hact, Option.some.injEq] at h
    rw [h]
  | read room =>
    simp only [StartupSession.outcome, hact] at h
    cases h
  | write bytes =>
    simp only [StartupSession.outcome, hact] at h
    cases h

/-- **A login that is there is taken**, whatever the size of the reads, and nothing else. -/
theorem startup_login (hfits : (serializeStartup params).1.failed = false) {used later : Bytes}
    {msgs : List AnyBackendMessage} (hframes : Frames messageParser used msgs)
    (hlogin : Login ssl params msgs) {stream unread : Bytes} {s : StartupSession} {rooms : List Nat}
    (t : Run (startupMachine ssl) (.start ssl params st diag) stream s unread rooms)
    (hbytes : st.committed ++ stream = used ++ later) :
    s.action = .done (.ok .success) ∧ s.delivered = msgs ∧ s.st.committed ++ unread = later := by
  have hend := (startup_run t).1
  rw [hbytes, startupReference_login hfits hframes hlogin] at hend
  exact ⟨StartupSession.done_of_result (congrArg StartupOutcome.result hend),
    congrArg StartupOutcome.delivered hend, congrArg StartupOutcome.rest hend⟩

/-- **A login succeeds if and only if what the server sends begins with one**, whatever the size of
    the reads: nothing less is taken for a login, and nothing more is asked for. The messages of the
    login are taken off the connection, and no others. The client's startup message has to fit its
    length field, and the server sends no error with the SQLSTATE of a success. -/
theorem startup_succeeds_iff (hssl : ssl.Reports) (hfits : (serializeStartup params).1.failed = false)
    {stream unread : Bytes} {s : StartupSession} {rooms : List Nat}
    (t : Run (startupMachine ssl) (.start ssl params st diag) stream s unread rooms)
    (hsilent : ∀ err, .errorResponse err ∈ s.delivered → err.sqlstate ≠ some (ascii "00000")) :
    ((∃ ec, s.action = .done (.ok ec) ∧ ec.failed = false) ↔
      ∃ used msgs later, st.committed ++ stream = used ++ later ∧
        Frames messageParser used msgs ∧ Login ssl params msgs) ∧
    ∀ used msgs later, st.committed ++ stream = used ++ later → Frames messageParser used msgs →
      Login ssl params msgs → s.delivered = msgs ∧ s.st.committed ++ unread = later := by
  refine ⟨⟨?_, ?_⟩, fun used msgs later hbytes hframes hlogin =>
    (startup_login hfits hframes hlogin t hbytes).2⟩
  · rintro ⟨ec, hdone, hec⟩
    obtain ⟨used, hused, hframes⟩ := (startup_readsAs t).frames
    obtain ⟨d, hfeed⟩ := startup_response t hdone hec
    obtain ⟨consumed, hconsumed, hlogin⟩ := @feed_login ssl params hssl s.delivered _ _ _ _ hfeed hec
    rw [List.append_nil] at hconsumed
    subst hconsumed
    have hnone : ∀ m ∈ s.delivered, isSilentError m = false := by
      intro m hm
      cases m with
      | errorResponse err => simpa [isSilentError, successfulCompletion] using hsilent err hm
      | _ => rfl
    exact ⟨used, s.delivered, s.st.committed ++ unread, hused, hframes,
      hlogin [] (pending_start ssl params st diag) hnone⟩
  · rintro ⟨used, msgs, later, hbytes, hframes, hlogin⟩
    exact ⟨.success, (startup_login hfits hframes hlogin t hbytes).1, rfl⟩

end

/-- A server that asks for no password. -/
def trustedMessages : List ServerMessage :=
  [.plain .authenticationOk, .plain (.parameterStatus ⟨ascii "TimeZone", ascii "UTC"⟩),
    .plain (.backendKeyData ⟨42, -7⟩), .plain (.readyForQuery .idle)]

theorem trustedMessages_wellFormed : ∀ m ∈ trustedMessages, m.WellFormed := by
  intro m hm
  simp only [trustedMessages, List.mem_cons, List.not_mem_nil, or_false] at hm
  rcases hm with rfl | rfl | rfl | rfl
  · exact ⟨by decide, trivial, trivial⟩
  · exact ⟨by decide, ⟨by decide, by decide⟩, trivial⟩
  · exact ⟨by decide, ⟨by decide, by decide⟩, trivial⟩
  · exact ⟨by decide, trivial, trivial⟩

/-- Its login succeeds, and takes all of its messages. -/
theorem startup_succeeds_iff_trusted : ∃ s unread rooms,
    Run (startupMachine unavailableOpenSsl) (.start unavailableOpenSsl {} {} [])
      (trustedMessages.flatMap ServerMessage.wire) s unread rooms ∧
    (∃ ec, s.action = .done (.ok ec) ∧ ec.failed = false) ∧
    s.delivered = trustedMessages.map ServerMessage.parsed ∧ s.st.committed ++ unread = [] := by
  have hlogin : Login unavailableOpenSsl {} (trustedMessages.map ServerMessage.parsed) :=
    ⟨[.authenticationOk], [_, _], .idle, .ok, by decide, rfl⟩
  have hframes := ServerMessage.frames_wire trustedMessages_wellFormed
  obtain ⟨s, unread, rooms, t⟩ := startup_run_exists unavailableOpenSsl {} {} []
    (trustedMessages.flatMap ServerMessage.wire)
  have hbytes : ConnectionState.committed {} ++ trustedMessages.flatMap ServerMessage.wire =
      trustedMessages.flatMap ServerMessage.wire ++ [] := (List.append_nil _).symm
  have hdelivered := (startup_login rfl hframes hlogin t hbytes).2.1
  have hsilent : ∀ err, .errorResponse err ∈ s.delivered →
      err.sqlstate ≠ some (ascii "00000") := by
    intro err herr
    rw [hdelivered] at herr
    exact absurd (hlogin.not_error _ herr) (by simp [AnyBackendMessage.isError])
  obtain ⟨hiff, htaken⟩ := startup_succeeds_iff unavailableOpenSsl_reports rfl t hsilent
  exact ⟨s, unread, rooms, t, hiff.mpr ⟨_, _, [], hbytes, hframes, hlogin⟩,
    htaken _ _ [] hbytes hframes hlogin⟩

/-! ## 3. A server with credentials -/

/-- **A server's part of a SCRAM exchange**: what it stores of the user but the keys, the part of
    the nonce it has drawn, and the extensions of its messages. -/
structure SaslServer where
  mechanisms : List Bytes
  salt : Bytes
  iterationCount : Nat
  suffix : Bytes
  ext : Bytes
  extFinal : Bytes
  offers : scramSha256Name ∈ mechanisms
  named : ∀ name ∈ mechanisms, name ≠ [] ∧ (0 : UInt8) ∉ name
  lawful : 1 ≤ iterationCount ∧ iterationCount ≤ 65535
  printable : suffix.all scramIsPrintable = true
  extensions : Extensions ext
  extensionsFinal : Extensions extFinal

namespace SaslServer

variable (c : SaslServer) (hmac : Bytes → Bytes → Sha256Digest) (sha256 : Bytes → Sha256Digest)
  (password nonce : Bytes)

/-- What the server stores of the password. -/
def credentials : Scram.Credentials UInt8 Sha256Digest :=
  (scramSha256 hmac sha256).register password c.salt c.iterationCount

/-- `server-first-message`, to a client that has drawn `nonce`. -/
def first : Bytes := serverFirstMessage (c.credentials hmac sha256 password) (nonce ++ c.suffix) c.ext

/-- `AuthMessage`, as the server sees it. -/
def auth : Bytes := authMessageText nonce (c.first hmac sha256 password nonce) (nonce ++ c.suffix)

/-- `server-final-message`. -/
def final : Bytes :=
  serverFinalMessage ((c.credentials hmac sha256 password).serverSignature
    (scramSha256 hmac sha256) (c.auth hmac sha256 password nonce)) c.extFinal

/-- The proof of a client that knows the password. -/
def proof : Sha256Digest :=
  (scramSha256 hmac sha256).clientProof password c.salt (c.auth hmac sha256 password nonce)
    c.iterationCount

end SaslServer

/-- What the server sends: the exchange, the session's information, and ReadyForQuery. -/
def scramMessages (c : SaslServer) (hmac : Bytes → Bytes → Sha256Digest)
    (sha256 : Bytes → Sha256Digest) (password nonce : Bytes) (infos : List ServerMessage)
    (status : TransactionStatus) : List ServerMessage :=
  [.plain (.authenticationSasl c.mechanisms),
    .plain (.authenticationSaslContinue (c.first hmac sha256 password nonce)),
    .plain (.authenticationSaslFinal (c.final hmac sha256 password nonce)),
    .plain .authenticationOk] ++ infos ++ [.plain (.readyForQuery status)]

/-- The mechanism is found, wherever it stands. -/
theorem supportsScramSha256_of_mem : ∀ {mechanisms : List Bytes}, scramSha256Name ∈ mechanisms →
    (∀ name ∈ mechanisms, name ≠ [] ∧ (0 : UInt8) ∉ name) →
    supportsScramSha256 (mechanisms.flatMap encString) = .ok true
  | name :: mechanisms, hmem, hnamed => by
      have hnot := (hnamed name List.mem_cons_self).2
      have hbytes : (name :: mechanisms).flatMap encString =
          name ++ 0 :: mechanisms.flatMap encString := by simp [encString]
      have hfirst := Delimited.takeWhile_ne_append hnot (mechanisms.flatMap encString)
      have hrest := Delimited.drop_takeWhile_ne_append hnot (mechanisms.flatMap encString)
      rw [hfirst] at hrest
      rw [hbytes]
      unfold supportsScramSha256
      rw [dif_neg (by simp), if_neg (by simp), hfirst, hrest]
      split
      · rfl
      · rename_i hother
        rcases List.mem_cons.mp hmem with rfl | hmem
        · exact absurd rfl hother
        · exact supportsScramSha256_of_mem hmem fun name h => hnamed name (List.mem_cons_of_mem _ h)

theorem SaslServer.supports (c : SaslServer) : supportsScramSha256
    (⟨c.mechanisms.length, c.mechanisms.flatMap encString⟩ : ForwardParsingView).data = .ok true :=
  supportsScramSha256_of_mem c.offers c.named

theorem workingOpenSsl_reports (raw : Vector UInt8 18) (hmac : Bytes → Bytes → Sha256Digest)
    (sha256 : Bytes → Sha256Digest) : (workingOpenSsl raw hmac sha256).Reports where
  randBytes h := by cases h
  macContext h := by cases h
  hmac h := by cases h
  sha256 h := by cases h

section
variable (c : SaslServer) (raw : Vector UInt8 18) (hmac : Bytes → Bytes → Sha256Digest)
  (sha256 : Bytes → Sha256Digest) (password writeBuffer : Bytes)

/-- The client draws its nonce, and writes it. -/
theorem onInit_working : ∃ f,
    ScramSha256Fsm.onInit {} (workingOpenSsl raw hmac sha256) writeBuffer = ⟨.success, f,
      (LoginMessage.saslInitialResponse scramSha256Name
        (clientFirstText (Base64.reference raw.toList))).wire⟩ ∧
    f.nonce = Base64.reference raw.toList ∧
    ((LoginMessage.saslInitialResponse scramSha256Name
      (clientFirstText (Base64.reference raw.toList))).wire.take f.clientFirstMsg.2).drop
        f.clientFirstMsg.1 = ScramSha256Fsm.clientFirstMessageBare (Base64.reference raw.toList) := by
  have hdrawn : ScramSha256Fsm.onInit {} (workingOpenSsl raw hmac sha256) writeBuffer =
      ScramSha256Fsm.onInitWith {} (fun _ => (.success, Base64.reference raw.toList))
        writeBuffer := by
    rw [← Base64.encode_eq_reference]
    rfl
  have hec := onInitWith_success (Base64.reference raw.toList) writeBuffer
    (by rw [length_base64, Vector.length_toList]; decide)
  rw [← hdrawn] at hec
  obtain ⟨hnonce, hbuffer, hspan⟩ := ScramSha256Fsm.onInitWith_ok hdrawn.symm
    (show ((ErrorCode.success, Base64.reference raw.toList) : ErrorCode × Bytes).2 = _ from rfl)
    (by rw [hec]; rfl)
  generalize ScramSha256Fsm.onInit {} (workingOpenSsl raw hmac sha256) writeBuffer = r at *
  obtain ⟨ec, f, buffer⟩ := r
  subst hec hbuffer
  exact ⟨f, rfl, hnonce, hspan⟩

/-- **The client's part of the exchange**: it answers the server's first message with the proof,
    and takes the server's signature. -/
theorem exchange_working {f : ScramSha256Fsm} {writeBuffer : Bytes}
    (hnonce : f.nonce = Base64.reference raw.toList)
    (hspan : (writeBuffer.take f.clientFirstMsg.2).drop f.clientFirstMsg.1 =
      ScramSha256Fsm.clientFirstMessageBare (Base64.reference raw.toList)) :
    ∃ f', f.onServerFirst (workingOpenSsl raw hmac sha256)
        (c.first hmac sha256 password (Base64.reference raw.toList)) password writeBuffer =
      .ok ⟨.success, f', (LoginMessage.saslResponse
        (clientFinalText (Base64.reference raw.toList ++ c.suffix)
          (c.proof hmac sha256 password (Base64.reference raw.toList)))).wire⟩ ∧
    f'.onServerFinal (c.final hmac sha256 password (Base64.reference raw.toList)) =
      .ok .success := by
  have hne : Base64.reference raw.toList ≠ [] := by
    rw [← Base64.encode_eq_reference]
    exact Base64.encode_ne_nil (List.ne_nil_of_length_pos (by rw [Vector.length_toList]; decide))
  have hprint : (Base64.reference raw.toList ++ c.suffix).all scramIsPrintable = true := by
    rw [List.all_append, printable_base64, c.printable]
    rfl
  have hoffer : ScramSha256Fsm.Offer f.nonce
      (c.first hmac sha256 password (Base64.reference raw.toList))
      ⟨Base64.reference raw.toList ++ c.suffix, c.salt, c.iterationCount⟩ := by
    rw [hnonce]
    exact offer_serverFirst hne hprint c.lawful c.extensions
  have hfirst := ScramSha256Fsm.onServerFirst_of_offer hoffer
    (@proofsFor_working hmac sha256 password _ writeBuffer raw _ _ hspan _)
  rw [clientFinalMessage_eq] at hfirst
  exact ⟨_, hfirst, onServerFinal_signature rfl c.extensionsFinal⟩

end

section
variable (c : SaslServer) (raw : Vector UInt8 18) (hmac : Bytes → Bytes → Sha256Digest)
  (sha256 : Bytes → Sha256Digest) (params : ConnectParams)

/-- What the client sends to such a server. -/
def scramSent : List LoginMessage :=
  [.startup params.username params.database,
    .saslInitialResponse scramSha256Name (clientFirstText (Base64.reference raw.toList)),
    .saslResponse (clientFinalText (Base64.reference raw.toList ++ c.suffix)
      (c.proof hmac sha256 params.password (Base64.reference raw.toList)))]

/-- **What the server sends is a login.** -/
theorem login_scram {infos : List ServerMessage}
    (hinfos : ∀ m ∈ infos, isSessionInfo m.parsed = true) (status : TransactionStatus) :
    Login (workingOpenSsl raw hmac sha256) params
      ((scramMessages c hmac sha256 params.password (Base64.reference raw.toList) infos
        status).map ServerMessage.parsed) := by
  obtain ⟨f, hinit, hnonce, hspan⟩ := onInit_working raw hmac sha256 []
  obtain ⟨f', hfirst, hfinal⟩ := exchange_working c raw hmac sha256 params.password hnonce hspan
  have haccepted := @scramAccepted _ (workingOpenSsl_reports raw hmac sha256) params []
    (c.first hmac sha256 params.password (Base64.reference raw.toList))
    (c.final hmac sha256 params.password (Base64.reference raw.toList)) _ _ (by rw [hinit]; rfl)
    (by rw [hinit]; exact hfirst) rfl hfinal rfl
  refine ⟨_, infos.map ServerMessage.parsed, status,
    .scram c.supports haccepted, ?_, ?_⟩
  · intro m hm
    obtain ⟨info, hinfo, rfl⟩ := List.mem_map.mp hm
    exact hinfos info hinfo
  · simp [scramMessages, ServerMessage.parsed, BackendMessage.parsed]

/-- What the machine writes in that login. -/
theorem writes_scram (infos : List ServerMessage) (status : TransactionStatus)
    (hfits : (serializeStartup params).1.failed = false) (st : ConnectionState)
    (diag : Diagnostics) :
    (writes (workingOpenSsl raw hmac sha256) []
        (StartupFsmImpl.start (workingOpenSsl raw hmac sha256) params st diag)
        ((scramMessages c hmac sha256 params.password (Base64.reference raw.toList) infos
          status).map ServerMessage.parsed)).map Write.buffer =
      (scramSent c raw hmac sha256 params).map LoginMessage.wire := by
  obtain ⟨f, hinit, hnonce, hspan⟩ := onInit_working raw hmac sha256 (serializeStartup params).2
  obtain ⟨f', hfirst, -⟩ := exchange_working c raw hmac sha256 params.password hnonce hspan
  have hec : ((sentStartup params st diag).fsm.scramFsm.onInit (workingOpenSsl raw hmac sha256)
      (sentStartup params st diag).st.writeBuffer).ec.failed = false := by
    rw [show (sentStartup params st diag).fsm.scramFsm.onInit (workingOpenSsl raw hmac sha256)
      (sentStartup params st diag).st.writeBuffer = _ from hinit]
    rfl
  rw [writes_start, if_neg (by simp [hfits]), (serializeStartup_wire params hfits).1, scramMessages]
  simp only [List.cons_append, List.nil_append, List.map_cons, ServerMessage.parsed,
    BackendMessage.parsed]
  rw [writes_sasl rfl c.supports hec]
  rw [writes_saslContinue rfl (r := ⟨.success, f', _⟩) (by
    simp only [Data.sentClientFirst, Data.withScram, Data.suspend, sentStartup, hinit]
    exact hfirst) rfl]
  simp only [sentStartup, hinit]
  rfl

end

/-- A server that offers channel binding too, and what it sends. -/
def recordedServer : SaslServer where
  mechanisms := [ascii "SCRAM-SHA-256-PLUS", scramSha256Name]
  salt := ascii "salt"
  iterationCount := 1
  suffix := ascii "abc"
  ext := []
  extFinal := ascii ",x=1"
  offers := by decide
  named := by decide
  lawful := by decide
  printable := by decide
  extensions := .inl rfl
  extensionsFinal := .inr rfl

def recordedMessages : List ServerMessage :=
  scramMessages recordedServer recordedHmac recordedSha256 (ascii "pencil")
    (Base64.reference recordedRaw.toList) [.plain (.backendKeyData ⟨42, -7⟩)] .idle

theorem recordedMessages_wellFormed : ∀ m ∈ recordedMessages, m.WellFormed := by
  intro m hm
  simp only [recordedMessages, scramMessages, List.cons_append, List.nil_append, List.mem_cons,
    List.not_mem_nil, or_false] at hm
  rcases hm with rfl | rfl | rfl | rfl | rfl | rfl
  · exact ⟨by decide, recordedServer.named, trivial⟩
  · exact ⟨by decide +kernel, trivial, trivial⟩
  · exact ⟨by decide +kernel, trivial, trivial⟩
  · exact ⟨by decide, trivial, trivial⟩
  · exact ⟨by decide, ⟨by decide, by decide⟩, trivial⟩
  · exact ⟨by decide, trivial, trivial⟩

end NativePg
