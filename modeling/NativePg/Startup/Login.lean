/-
  File:      NativePg/Startup/Login.lean
  Subject:   What a login is, and when the startup machine takes something else for one.

  * `Login` -- the messages of a login: an authentication -- at once, or by a SCRAM exchange whose
    final verifier is the signature the password gives -- then session information, then
    ReadyForQuery. No error message of the server is among them;
  * `Stage` -- the messages consumed so far are the beginning of a login that has come as far as
    the machine's resume point. `Stage.step`: every message that is not an error with the
    SQLSTATE 00000 keeps it so;
  * `startup_login_iff` -- a run that ends with no error was a login if and only if the server
    sent no such error.
-/
import NativePg.Startup.Fsm

namespace NativePg

open StartupFsmImpl

/-! ## 1. Logins -/

/-- A SCRAM exchange the client accepts: `on_init`, `on_server_first` and `on_server_final` have
    all succeeded, and the verifier the server has sent is the signature computed from the
    password for just this exchange. -/
structure ScramAccepted (ssl : OpenSsl) (params : ConnectParams) (serverFirst serverFinal : Bytes) :
    Prop where
  functions : ∃ writeBuffer first final,
    (ScramSha256Fsm.onInit {} ssl writeBuffer).ec.failed = false ∧
    (ScramSha256Fsm.onInit {} ssl writeBuffer).fsm.onServerFirst ssl serverFirst params.password
      (ScramSha256Fsm.onInit {} ssl writeBuffer).writeBuffer = .ok first ∧
    first.ec.failed = false ∧
    first.fsm.onServerFinal serverFinal = .ok final ∧ final.failed = false
  verifier : ∃ raw msg signature,
    ssl.randBytes = .ok raw ∧
    ScramSha256Fsm.Offer (base64Encode raw.toList []) serverFirst msg ∧
    scramServerSignature ssl params.password msg.salt msg.iterationCount
      (ScramSha256Fsm.authMessage
        (ScramSha256Fsm.clientFirstMessageBare (base64Encode raw.toList [])) serverFirst msg.nonce) =
      .ok signature ∧
    parseServerFinal serverFinal = .ok (.ok signature.toList)

/-- The messages of an authentication. -/
inductive Authenticated (ssl : OpenSsl) (params : ConnectParams) : List AnyBackendMessage → Prop where
  | ok : Authenticated ssl params [.authenticationOk]
  | scram {mechanisms : ForwardParsingView} {serverFirst serverFinal : Bytes}
      (hm : supportsScramSha256 mechanisms.data = .ok true)
      (hs : ScramAccepted ssl params serverFirst serverFinal) :
      Authenticated ssl params
        [.authenticationSasl mechanisms, .authenticationSaslContinue serverFirst,
          .authenticationSaslFinal serverFinal, .authenticationOk]

/-- **A login**: an authentication, any number of BackendKeyData, ParameterStatus and
    NoticeResponse, and ReadyForQuery. -/
def Login (ssl : OpenSsl) (params : ConnectParams) (msgs : List AnyBackendMessage) : Prop :=
  ∃ auth infos status, Authenticated ssl params auth ∧ (∀ m ∈ infos, isSessionInfo m = true) ∧
    msgs = auth ++ infos ++ [.readyForQuery status]

/-- Is this an error message of the server? -/
def AnyBackendMessage.isError : AnyBackendMessage → Bool
  | .errorResponse _ => true
  | _ => false

theorem Authenticated.not_error {ssl : OpenSsl} {params : ConnectParams}
    {auth : List AnyBackendMessage} (h : Authenticated ssl params auth) :
    ∀ m ∈ auth, m.isError = false := by
  cases h with
  | ok => simp [AnyBackendMessage.isError]
  | scram _ _ => simp [AnyBackendMessage.isError]

/-- No error message is part of a login. -/
theorem Login.not_error {ssl : OpenSsl} {params : ConnectParams} {msgs : List AnyBackendMessage}
    (h : Login ssl params msgs) : ∀ m ∈ msgs, m.isError = false := by
  obtain ⟨auth, infos, status, hauth, hinfos, rfl⟩ := h
  intro m hm
  rcases List.mem_append.mp hm with hm | hm
  · rcases List.mem_append.mp hm with hm | hm
    · exact hauth.not_error m hm
    · have hi := hinfos m hm
      cases m <;> first | rfl | cases hi
  · rw [List.mem_singleton.mp hm]
    rfl

/-! ## 2. Stages of a login -/

/-- An error message whose code is no error. -/
def isSilentError : AnyBackendMessage → Bool
  | .errorResponse err => err.sqlstate == some successfulCompletion
  | _ => false

/-- `Stage ssl params pre d`: the machine asks for a read, and the messages `pre` it has consumed
    are the beginning of a login up to its resume point. -/
inductive Stage (ssl : OpenSsl) (params : ConnectParams) :
    List AnyBackendMessage → Data → Prop where
  | auth {d} (hp : d.fsm.resumePoint = .readAuth) (hparams : d.fsm.params = params)
      (hf : d.fsm.scramFsm = {}) : Stage ssl params [] d
  | clientFirst {d mechanisms writeBuffer} (hp : d.fsm.resumePoint = .readContinue)
      (hparams : d.fsm.params = params)
      (hm : supportsScramSha256 mechanisms.data = .ok true)
      (hec : (ScramSha256Fsm.onInit {} ssl writeBuffer).ec.failed = false)
      (hf : d.fsm.scramFsm = (ScramSha256Fsm.onInit {} ssl writeBuffer).fsm)
      (hw : d.st.writeBuffer = (ScramSha256Fsm.onInit {} ssl writeBuffer).writeBuffer) :
      Stage ssl params [.authenticationSasl mechanisms] d
  | clientFinal {d mechanisms writeBuffer serverFirst first}
      (hp : d.fsm.resumePoint = .readFinal) (hparams : d.fsm.params = params)
      (hm : supportsScramSha256 mechanisms.data = .ok true)
      (hec : (ScramSha256Fsm.onInit {} ssl writeBuffer).ec.failed = false)
      (hfirst : (ScramSha256Fsm.onInit {} ssl writeBuffer).fsm.onServerFirst ssl serverFirst
        params.password (ScramSha256Fsm.onInit {} ssl writeBuffer).writeBuffer = .ok first)
      (hfec : first.ec.failed = false) (hf : d.fsm.scramFsm = first.fsm) :
      Stage ssl params [.authenticationSasl mechanisms, .authenticationSaslContinue serverFirst] d
  | verified {d mechanisms serverFirst serverFinal} (hp : d.fsm.resumePoint = .readOk)
      (hm : supportsScramSha256 mechanisms.data = .ok true)
      (hs : ScramAccepted ssl params serverFirst serverFinal) :
      Stage ssl params [.authenticationSasl mechanisms, .authenticationSaslContinue serverFirst,
        .authenticationSaslFinal serverFinal] d
  | ready {d auth infos} (hp : d.fsm.resumePoint = .readReady)
      (hauth : Authenticated ssl params auth) (hinfos : ∀ m ∈ infos, isSessionInfo m = true) :
      Stage ssl params (auth ++ infos) d

/-- What a call of the machine returned fits the messages `pre` consumed so far. -/
def Pending (ssl : OpenSsl) (params : ConnectParams) (pre : List AnyBackendMessage) (r : Reply) :
    Prop :=
  match r.result with
  | .error _ => True
  | .ok .read => Stage ssl params pre r.toData
  | .ok .write =>
    ∃ point, Behind r.fsm.resumePoint point ∧ Stage ssl params pre (r.toData.suspend point .read).toData
  | .ok (.done ec) => ec.failed = false → Login ssl params pre

/-- The exchange the two scram functions have accepted. -/
theorem scramAccepted {ssl : OpenSsl} (hssl : ssl.Reports) {params : ConnectParams}
    {writeBuffer serverFirst serverFinal : Bytes} {first : ScramSha256Fsm.Reply} {final : ErrorCode}
    (hec : (ScramSha256Fsm.onInit {} ssl writeBuffer).ec.failed = false)
    (hfirst : (ScramSha256Fsm.onInit {} ssl writeBuffer).fsm.onServerFirst ssl serverFirst
      params.password (ScramSha256Fsm.onInit {} ssl writeBuffer).writeBuffer = .ok first)
    (hfec : first.ec.failed = false)
    (hfinal : first.fsm.onServerFinal serverFinal = .ok final) (hlec : final.failed = false) :
    ScramAccepted ssl params serverFirst serverFinal where
  functions := ⟨writeBuffer, first, final, hec, hfirst, hfec, hfinal, hlec⟩
  verifier := by
    obtain ⟨raw, hraw, hnonce, hspan⟩ := ScramSha256Fsm.onInit_success hssl rfl hec
    obtain ⟨msg, hoffer, hsig⟩ := ScramSha256Fsm.onServerFirst_success hssl hfirst hfec
    rw [hspan, hnonce] at hsig
    rw [hnonce] at hoffer
    exact ⟨raw, msg, _, hraw, hoffer, hsig, ScramSha256Fsm.onServerFinal_success hfinal hlec⟩

section
variable {ssl : OpenSsl} {params : ConnectParams} {pre : List AnyBackendMessage} {d : Data}

/-- At a read the machine does not stand behind a write, nor at its beginning. -/
theorem Stage.point (h : Stage ssl params pre d) :
    d.fsm.resumePoint ≠ .initial ∧ ∀ point, ¬Behind d.fsm.resumePoint point := by
  cases h with
  | auth hp _ _ | clientFirst hp _ _ _ _ _ | clientFinal hp _ _ _ _ _ _ | verified hp _ _
  | ready hp _ _ =>
    rw [hp]
    exact ⟨by decide, fun point hb => by cases hb⟩

/-- **One message**: the beginning of a login stays one, or the machine has ended. -/
theorem Stage.step (hssl : ssl.Reports) (h : Stage ssl params pre d) {msg : AnyBackendMessage}
    (hmsg : isSilentError msg = false) {r : Reply} (hmove : Move ssl d msg r) :
    Pending ssl params (pre ++ [msg]) r := by
  have hpoint := h.point
  have hnot : ∀ {err : ErrorResponse}, msg = .errorResponse err →
      (processError err).failed = false → False := by
    intro err herr hz
    subst herr
    simp [isSilentError, (failed_processError err).mp hz] at hmsg
  cases hmove with
  | fault _ => exact trivial
  | failed _ hec => exact fun hok => absurd hec (by simp [hok])
  | startup hp => exact absurd hp hpoint.1
  | wrote hp => exact absurd hp (hpoint.2 _)
  | sasl hp hs hec =>
    cases h with
    | auth _ hparams hf =>
      rw [hf] at hec ⊢
      exact ⟨_, .clientFirst, .clientFirst rfl hparams hs hec rfl rfl⟩
    | clientFirst hp' _ _ _ _ _ | clientFinal hp' _ _ _ _ _ _ | verified hp' _ _ | ready hp' _ _ =>
      rw [hp'] at hp
      cases hp
  | saslContinue hp hr hec =>
    cases h with
    | clientFirst _ hparams hm hiec hf hw =>
      rw [hf, hw, hparams] at hr
      exact ⟨_, .clientFinal, .clientFinal rfl hparams hm hiec hr hec rfl⟩
    | auth hp' _ _ | clientFinal hp' _ _ _ _ _ _ | verified hp' _ _ | ready hp' _ _ =>
      rw [hp'] at hp
      cases hp
  | saslFinal hp hr hec =>
    cases h with
    | clientFinal _ hparams hm hiec hfirst hfec hf =>
      rw [hf] at hr
      exact .verified rfl hm (scramAccepted hssl hiec hfirst hfec hr hec)
    | auth hp' _ _ | clientFirst hp' _ _ _ _ _ | verified hp' _ _ | ready hp' _ _ =>
      rw [hp'] at hp
      cases hp
  | authOk hp =>
    cases h with
    | auth _ _ _ => exact @Stage.ready _ _ _ [.authenticationOk] [] rfl .ok (by simp)
    | verified _ hm hs => exact @Stage.ready _ _ _ _ [] rfl (.scram hm hs) (by simp)
    | clientFirst hp' _ _ _ _ _ | clientFinal hp' _ _ _ _ _ _ | ready hp' _ _ =>
      rw [hp'] at hp
      rcases hp with hp | hp <;> cases hp
  | authError hp hz => exact (hnot rfl hz).elim
  | error hp hz => exact (hnot rfl hz).elim
  | info hp hm =>
    cases h with
    | ready _ hauth hinfos =>
      rw [List.append_assoc]
      refine .ready rfl hauth fun m hmem => ?_
      rcases List.mem_append.mp hmem with hmem | hmem
      · exact hinfos m hmem
      · rwa [List.mem_singleton.mp hmem]
    | auth hp' _ _ | clientFirst hp' _ _ _ _ _ | clientFinal hp' _ _ _ _ _ _ | verified hp' _ _ =>
      rw [hp'] at hp
      cases hp
  | ready hp =>
    cases h with
    | @ready _ auth infos _ hauth hinfos => exact fun _ => ⟨auth, infos, _, hauth, hinfos, rfl⟩
    | auth hp' _ _ | clientFirst hp' _ _ _ _ _ | clientFinal hp' _ _ _ _ _ _ | verified hp' _ _ =>
      rw [hp'] at hp
      cases hp

/-- A write succeeds and the machine asks for a read. -/
theorem Pending.settle {r : Reply} (h : Pending ssl params pre r) :
    Pending ssl params pre (settle ssl r) ∧ (settle ssl r).result ≠ .ok .write := by
  unfold StartupFsmImpl.settle
  split
  · rename_i hw
    unfold Pending at h
    rw [hw] at h
    obtain ⟨point, hb, hstage⟩ := h
    rw [resume_of_behind hb]
    exact ⟨hstage, by simp [Data.suspend]⟩
  · rename_i hw
    exact ⟨h, hw⟩

/-- A machine that has ended with no error has seen a login. -/
theorem Pending.ended {r : Reply} {unread unread' : List AnyBackendMessage} {d : Data}
    {ec : ErrorCode} (h : Pending ssl params pre r)
    (he : StartupFsmImpl.ended r unread = .ok ⟨d, some ec, unread'⟩) (hec : ec.failed = false) :
    Login ssl params pre := by
  unfold StartupFsmImpl.ended at he
  unfold Pending at h
  split at he
  · cases he
  · rename_i hres
    cases he
    rw [hres] at h
    exact h hec
  · cases he
  · cases he

theorem ended_unread {r : Reply} {unread : List AnyBackendMessage} {f : Feed}
    (h : StartupFsmImpl.ended r unread = .ok f) : f.unread = unread := by
  unfold StartupFsmImpl.ended at h
  split at h <;> cases h <;> rfl

/-- **A run that ends with no error, with none of the silent errors among the messages it has
    consumed, was a login.** The induction is over the messages; `pre` are those consumed before. -/
theorem feed_login (hssl : ssl.Reports) : ∀ (msgs : List AnyBackendMessage) {r : Reply} {d : Data}
    {ec : ErrorCode} {unread : List AnyBackendMessage},
    feed ssl r msgs = .ok ⟨d, some ec, unread⟩ → ec.failed = false →
    ∃ consumed, msgs = consumed ++ unread ∧ ∀ pre, Pending ssl params pre r →
      (∀ m ∈ consumed, isSilentError m = false) → Login ssl params (pre ++ consumed)
  | [], r, d, ec, unread, h, hec => by
      unfold feed at h
      have hun : unread = [] := ended_unread h
      subst hun
      refine ⟨[], rfl, fun pre hp _ => ?_⟩
      simpa using hp.settle.1.ended h hec
  | msg :: msgs, r, d, ec, unread, h, hec => by
      unfold feed at h
      simp only at h
      split at h
      · rename_i hres
        obtain ⟨consumed, hmsgs, hlogin⟩ := feed_login hssl msgs h hec
        refine ⟨msg :: consumed, by rw [hmsgs, List.cons_append], fun pre hp hsilent => ?_⟩
        have hstage : Stage ssl params pre (settle ssl r).toData := by
          have hp := hp.settle.1
          unfold Pending at hp
          rwa [hres] at hp
        have hnext := hstage.step hssl (hsilent msg (by simp)) (resume_move ssl _ msg)
        have := hlogin (pre ++ [msg]) hnext fun m hm => hsilent m (by simp [hm])
        simpa using this
      · -- a machine that has ended reads no further message
        have hun : unread = msg :: msgs := ended_unread h
        subst hun
        refine ⟨[], rfl, fun pre hp _ => ?_⟩
        simpa using hp.settle.1.ended h hec

end

theorem pending_start (ssl : OpenSsl) (params : ConnectParams) (st : ConnectionState)
    (diag : Diagnostics) : Pending ssl params [] (start ssl params st diag) := by
  unfold start Data.resume
  simp only
  split
  · rename_i hec
    exact fun hok => absurd hec (by simp [hok])
  · exact ⟨_, .startup, .auth rfl rfl rfl⟩

/-! ## 3. The machine succeeds on logins -/

/-- **A run that ends with no error was a login if and only if none of the messages it consumed was
    an error with the SQLSTATE 00000.** `process_error` turns that SQLSTATE into the value zero,
    which is no error: behind the authentication request the machine takes the error message for
    an AuthenticationOk, elsewhere it ends with success. -/
theorem startup_login_iff {ssl : OpenSsl} (hssl : ssl.Reports) {params : ConnectParams}
    {st : ConnectionState} {diag : Diagnostics} {msgs unread : List AnyBackendMessage} {d : Data}
    {ec : ErrorCode} (h : feed ssl (start ssl params st diag) msgs = .ok ⟨d, some ec, unread⟩)
    (hec : ec.failed = false) :
    ∃ consumed, msgs = consumed ++ unread ∧
      (Login ssl params consumed ↔
        ∀ err, .errorResponse err ∈ consumed → err.sqlstate ≠ some (ascii "00000")) := by
  obtain ⟨consumed, hmsgs, hlogin⟩ := feed_login hssl msgs h hec
  refine ⟨consumed, hmsgs, fun hl err hmem => ?_, fun hnone => ?_⟩
  · have := hl.not_error _ hmem
    cases this
  · have hsilent : ∀ m ∈ consumed, isSilentError m = false := by
      intro m hm
      cases m with
      | errorResponse err => simpa [isSilentError, successfulCompletion] using hnone err hm
      | _ => rfl
    simpa using hlogin [] (pending_start ssl params st diag) hsilent

/-- An OpenSSL that fails in every call, as it does when it has not been set up. -/
def unavailableOpenSsl : OpenSsl where
  randBytes := .error 0
  macContext := .error 0
  hmac _ _ := .error 0
  sha256 _ := .error 0

theorem unavailableOpenSsl_reports : unavailableOpenSsl.Reports where
  randBytes h := by cases h; decide
  macContext h := by cases h; decide
  hmac h := by cases h; decide
  sha256 h := by cases h; decide

/-- A server that refuses the login, with the SQLSTATE 00000. -/
def refusal : List AnyBackendMessage :=
  [.errorResponse
    { severity := some (ascii "FATAL"), sqlstate := some (ascii "00000"),
      message := some (ascii "go away") },
    .readyForQuery .idle]

/-- The refused client takes itself for logged in. -/
theorem refused_login_succeeds :
    ∃ d ec, feed unavailableOpenSsl (start unavailableOpenSsl {} {} []) refusal =
        .ok ⟨d, some ec, []⟩ ∧
      ec.failed = false ∧ ¬Login unavailableOpenSsl {} refusal := by
  refine ⟨_, _, rfl, rfl, fun hlogin => ?_⟩
  have := hlogin.not_error _ (List.mem_cons_self ..)
  cases this

/-- A server that asks for no password. -/
def trustedLogin : List AnyBackendMessage :=
  [.authenticationOk, .parameterStatus ⟨ascii "TimeZone", ascii "UTC"⟩, .backendKeyData ⟨42, -7⟩,
    .readyForQuery .idle]

/-- The client is logged in, and it was a login. -/
theorem startup_login_iff_trusted :
    ∃ consumed, trustedLogin = consumed ++ [] ∧
      (Login unavailableOpenSsl {} consumed ↔
        ∀ err, .errorResponse err ∈ consumed → err.sqlstate ≠ some (ascii "00000")) :=
  @startup_login_iff _ unavailableOpenSsl_reports {} {} [] _ _ _ .success rfl rfl

end NativePg
