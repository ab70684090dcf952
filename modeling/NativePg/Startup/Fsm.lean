/-
  File:      NativePg/Startup/Fsm.lean
  Subject:   Logging in (src/startup_fsm.cpp): the startup machine over messages, and the
             coroutine that reads and writes for it.

  * `StartupFsmImpl`, `resume` -- `startup_fsm_impl` with its nine resume points. A message is
    handed in where the point before it asked for a read, and ignored where it did not;
  * `feed` -- runs the machine on a sequence of messages: writes succeed at once, every read
    brings the next message;
  * `StartupFsm` -- `startup_fsm`: the messages are parsed off the connection's read buffer,
    which is refilled by reads; `loop` is its `while (true)`, both of them. One lemma says what it
    does with each result of the machine and each beginning of the buffer (`loop_message` to
    `loop_needs`), `taken_induction` is the induction over the messages it takes.
-/
import NativePg.Startup.Scram

namespace NativePg

open Framing

/-! ## 1. What is sent and checked -/

/-- `connect_params`; the host and the port are not for these machines. -/
structure ConnectParams where
  username : Bytes := ascii "postgres"
  password : Bytes := []
  database : Bytes := ascii "postgres"
  deriving DecidableEq, Repr

/-- `serialize(startup_message, ...)` on an empty buffer: the code and the buffer. -/
def serializeStartup (params : ConnectParams) : ErrorCode × Bytes :=
  let body := storeBigS32 196608 ++ addString (ascii "user") ++ addString params.username ++
    (if params.database.isEmpty then []
      else addString (ascii "database") ++ addString params.database) ++ [0]
  let length := body.length + 4
  if length > int32Max then (ClientErrc.valueTooBig.code, [0, 0, 0, 0] ++ body)
  else (.success, storeBigS32 length ++ body)

/-- `scram_sha256_name`. -/
def scramSha256Name : Bytes := ascii "SCRAM-SHA-256"

/-- `supports_scram_sha256`: `std::find` over the mechanisms. A string that is not terminated
    inside the view is read past its end. -/
def supportsScramSha256 (data : Bytes) : Checked Bool :=
  if _hnil : data = [] then .ok false
  else if data.all (· ≠ 0) then .error .outOfRange
  else if data.takeWhile (· ≠ 0) = scramSha256Name then .ok true
  else supportsScramSha256 (data.drop ((data.takeWhile (· ≠ 0)).length + 1))
termination_by data.length
decreasing_by
  have hpos := List.length_pos_iff.mpr _hnil
  rw [List.length_drop]
  omega

/-- `check_unknown_auth_methods`. -/
def checkUnknownAuthMethods : AnyBackendMessage → ErrorCode
  | .authenticationKerberosV5 => ClientErrc.authKerberosV5Unsupported.code
  | .authenticationCleartextPassword => ClientErrc.authCleartextPasswordUnsupported.code
  | .authenticationMd5Password _ => ClientErrc.authMd5PasswordUnsupported.code
  | .authenticationGss => ClientErrc.authGssUnsupported.code
  | .authenticationSspi => ClientErrc.authSspiUnsupported.code
  | _ => .success

/-- An `Int32` stored in a `std::uint32_t`. -/
def toUInt32 (n : Int) : UInt32 := (n % 2 ^ 32).toNat.toUInt32

/-! ## 2. The machine over messages -/

/-- `startup_fsm_impl::resume_point_`, 0 to 8. -/
inductive StartupPoint where
  | initial
  | writeStartup
  | readAuth
  | writeClientFirst
  | readContinue
  | writeClientFinal
  | readFinal
  | readOk
  | readReady
  deriving DecidableEq, Repr

/-- How far a login has come. -/
def StartupPoint.rank : StartupPoint → Nat
  | .initial => 0
  | .writeStartup => 1
  | .readAuth => 2
  | .writeClientFirst => 3
  | .readContinue => 4
  | .writeClientFinal => 5
  | .readFinal => 6
  | .readOk => 7
  | .readReady => 8

theorem StartupPoint.rank_le (p : StartupPoint) : p.rank ≤ 8 := by
  cases p <;> decide

/-- `startup_fsm_impl::result`. -/
inductive StartupResult where
  | done (ec : ErrorCode)
  | read
  | write
  deriving DecidableEq, Repr

/-- `startup_fsm_impl`. -/
structure StartupFsmImpl where
  resumePoint : StartupPoint := .initial
  params : ConnectParams
  scramFsm : ScramSha256Fsm := {}
  deriving DecidableEq

namespace StartupFsmImpl

/-- The machine and what it works on: the connection's state and the diagnostics. -/
structure Data where
  fsm : StartupFsmImpl
  st : ConnectionState
  diag : Diagnostics

/-- What `resume` leaves and returns. -/
structure Reply extends Data where
  result : Checked StartupResult

namespace Data

/-- `return ec`. -/
def done (d : Data) (ec : ErrorCode) : Reply := ⟨d, .ok (.done ec)⟩

/-- `NATIVEPG_YIELD`. -/
def suspend (d : Data) (point : StartupPoint) (result : StartupResult) : Reply :=
  ⟨{ d with fsm := { d.fsm with resumePoint := point } }, .ok result⟩

/-- `return process_error(err, diag)`. -/
def serverError (d : Data) (err : ErrorResponse) : Reply :=
  { d with diag := Diagnostics.assign err }.done (processError err)

/-- From `handle_auth_response` on: an error whose code is no error is taken for an OK. -/
def handleAuthResponse (d : Data) (msg : AnyBackendMessage) : Reply :=
  match msg with
  | .errorResponse err =>
    let d := { d with diag := Diagnostics.assign err }
    let ec := processError err
    if ec.failed then d.done ec else d.suspend .readReady .read
  | .authenticationOk => d.suspend .readReady .read
  | _ => d.done ClientErrc.unexpectedMessage.code

/-- The branch for `authentication_sasl`. -/
def handleSasl (d : Data) (ssl : OpenSsl) (mechanisms : ForwardParsingView) : Reply :=
  match supportsScramSha256 mechanisms.data with
  | .error fault => ⟨d, .error fault⟩
  | .ok false => d.done ClientErrc.scramMechanismsUnsupported.code
  | .ok true =>
    let r := d.fsm.scramFsm.onInit ssl d.st.writeBuffer
    let d : Data := { d with
      fsm := { d.fsm with scramFsm := r.fsm }, st := { d.st with writeBuffer := r.writeBuffer } }
    if r.ec.failed then d.done r.ec else d.suspend .writeClientFirst .write

/-- The branch for `authentication_sasl_continue`. -/
def handleSaslContinue (d : Data) (ssl : OpenSsl) (data : Bytes) : Reply :=
  match d.fsm.scramFsm.onServerFirst ssl data d.fsm.params.password d.st.writeBuffer with
  | .error fault => ⟨d, .error fault⟩
  | .ok r =>
    let d : Data := { d with
      fsm := { d.fsm with scramFsm := r.fsm }, st := { d.st with writeBuffer := r.writeBuffer } }
    if r.ec.failed then d.done r.ec else d.suspend .writeClientFinal .write

/-- The branch for `authentication_sasl_final`. -/
def handleSaslFinal (d : Data) (data : Bytes) : Reply :=
  match d.fsm.scramFsm.onServerFinal data with
  | .error fault => ⟨d, .error fault⟩
  | .ok ec => if ec.failed then d.done ec else d.suspend .readOk .read

/-- The body of the loop that waits for ReadyForQuery. -/
def handleReady (d : Data) (msg : AnyBackendMessage) : Reply :=
  match msg with
  | .backendKeyData key =>
    { d with st := { d.st with
        backendProcessId := toUInt32 key.processId
        backendSecretKey := toUInt32 key.secretKey } }.suspend .readReady .read
  | .parameterStatus _ => d.suspend .readReady .read
  | .errorResponse err => d.serverError err
  | .noticeResponse _ => d.suspend .readReady .read
  | .readyForQuery _ => d.done .success
  | _ => d.done ClientErrc.unexpectedMessage.code

/-- `startup_fsm_impl::resume`. -/
def resume (d : Data) (ssl : OpenSsl) (msg : AnyBackendMessage) : Reply :=
  match d.fsm.resumePoint with
  | .initial =>
    let (ec, buffer) := serializeStartup d.fsm.params
    let d := { d with st := { d.st with writeBuffer := buffer } }
    if ec.failed then d.done ec else d.suspend .writeStartup .write
  | .writeStartup => d.suspend .readAuth .read
  | .readAuth =>
    match msg with
    | .authenticationSasl mechanisms => d.handleSasl ssl mechanisms
    | msg =>
      let ec := checkUnknownAuthMethods msg
      if ec.failed then d.done ec else d.handleAuthResponse msg
  | .writeClientFirst => d.suspend .readContinue .read
  | .readContinue =>
    match msg with
    | .errorResponse err => d.serverError err
    | .authenticationSaslContinue data => d.handleSaslContinue ssl data
    | _ => d.done ClientErrc.unexpectedMessage.code
  | .writeClientFinal => d.suspend .readFinal .read
  | .readFinal =>
    match msg with
    | .errorResponse err => d.serverError err
    | .authenticationSaslFinal data => d.handleSaslFinal data
    | _ => d.done ClientErrc.unexpectedMessage.code
  | .readOk => d.handleAuthResponse msg
  | .readReady => d.handleReady msg

end Data

/-! ## 3. Feeding messages -/

/-- What a sequence of messages has made of the machine: its data, the code it returned `done`
    with (`none` while it asks for a read), and the messages behind the last one it consumed. -/
structure Feed where
  data : Data
  finished : Option ErrorCode
  unread : List AnyBackendMessage

/-- Goes on from what `resume` returned: a write succeeds, and the machine is resumed with no
    message (`{}`); it asks for a read next. -/
def settle (ssl : OpenSsl) (r : Reply) : Reply :=
  match r.result with
  | .ok .write => r.toData.resume ssl .none
  | _ => r

/-- What there is to say of the machine when the messages `unread` are left. -/
def ended (r : Reply) (unread : List AnyBackendMessage) : Checked Feed :=
  match r.result with
  | .error fault => .error fault
  | .ok (.done ec) => .ok ⟨r.toData, some ec, unread⟩
  | .ok .read => .ok ⟨r.toData, none, unread⟩
  -- a write is not followed by a write
  | .ok .write => .error .assertion

/-- Resumes the machine with the messages in turn, from what it last returned on, until it
    returns `done`. -/
def feed (ssl : OpenSsl) (r : Reply) : List AnyBackendMessage → Checked Feed
  | [] => ended (settle ssl r) []
  | msg :: msgs =>
    let r := settle ssl r
    match r.result with
    | .ok .read => feed ssl (r.toData.resume ssl msg) msgs
    | _ => ended r (msg :: msgs)

/-- The first call, on a machine as constructed. -/
def start (ssl : OpenSsl) (params : ConnectParams) (st : ConnectionState) (diag : Diagnostics) :
    Reply :=
  Data.resume ⟨{ params }, st, diag⟩ ssl .none

/-! ## 4. What a call can do -/

/-- The scram machine and the write buffer, as one of the scram functions leaves them. -/
def Data.withScram (d : Data) (r : ScramSha256Fsm.Reply) : Data :=
  { d with fsm := { d.fsm with scramFsm := r.fsm }, st := { d.st with writeBuffer := r.writeBuffer } }

/-- The messages that may stand between the authentication and ReadyForQuery. -/
def isSessionInfo : AnyBackendMessage → Bool
  | .backendKeyData _ | .parameterStatus _ | .noticeResponse _ => true
  | _ => false

/-- The point behind a write. -/
inductive Behind : StartupPoint → StartupPoint → Prop where
  | startup : Behind .writeStartup .readAuth
  | clientFirst : Behind .writeClientFirst .readContinue
  | clientFinal : Behind .writeClientFinal .readFinal

/-- **Every move of the machine.** An error message of the server ends it with the error's code;
    where that code is no error (`authError`, `error`) the machine goes on, or ends, as if
    nothing had happened. -/
inductive Move (ssl : OpenSsl) (d : Data) : AnyBackendMessage → Reply → Prop where
  | fault {msg d' e} (hp : d'.fsm.resumePoint = d.fsm.resumePoint) : Move ssl d msg ⟨d', .error e⟩
  | failed {msg d' ec} (hp : d'.fsm.resumePoint = d.fsm.resumePoint) (hec : ec.failed = true) :
      Move ssl d msg ⟨d', .ok (.done ec)⟩
  | startup {msg buffer} (hp : d.fsm.resumePoint = .initial) :
      Move ssl d msg
        ({ d with st := { d.st with writeBuffer := buffer } }.suspend .writeStartup .write)
  | wrote {msg point} (hp : Behind d.fsm.resumePoint point) : Move ssl d msg (d.suspend point .read)
  | sasl {mechanisms} (hp : d.fsm.resumePoint = .readAuth)
      (hs : supportsScramSha256 mechanisms.data = .ok true)
      (hec : (d.fsm.scramFsm.onInit ssl d.st.writeBuffer).ec.failed = false) :
      Move ssl d (.authenticationSasl mechanisms)
        ((d.withScram (d.fsm.scramFsm.onInit ssl d.st.writeBuffer)).suspend .writeClientFirst .write)
  | saslContinue {data r} (hp : d.fsm.resumePoint = .readContinue)
      (hr : d.fsm.scramFsm.onServerFirst ssl data d.fsm.params.password d.st.writeBuffer = .ok r)
      (hec : r.ec.failed = false) :
      Move ssl d (.authenticationSaslContinue data)
        ((d.withScram r).suspend .writeClientFinal .write)
  | saslFinal {data ec} (hp : d.fsm.resumePoint = .readFinal)
      (hr : d.fsm.scramFsm.onServerFinal data = .ok ec) (hec : ec.failed = false) :
      Move ssl d (.authenticationSaslFinal data) (d.suspend .readOk .read)
  | authOk (hp : d.fsm.resumePoint = .readAuth ∨ d.fsm.resumePoint = .readOk) :
      Move ssl d .authenticationOk (d.suspend .readReady .read)
  | authError {err} (hp : d.fsm.resumePoint = .readAuth ∨ d.fsm.resumePoint = .readOk)
      (hz : (processError err).failed = false) :
      Move ssl d (.errorResponse err)
        ({ d with diag := Diagnostics.assign err }.suspend .readReady .read)
  | error {err} (hp : d.fsm.resumePoint = .readContinue ∨ d.fsm.resumePoint = .readFinal ∨
        d.fsm.resumePoint = .readReady)
      (hz : (processError err).failed = false) : Move ssl d (.errorResponse err) (d.serverError err)
  | info {msg st} (hp : d.fsm.resumePoint = .readReady) (hm : isSessionInfo msg = true) :
      Move ssl d msg ({ d with st }.suspend .readReady .read)
  | ready {status} (hp : d.fsm.resumePoint = .readReady) :
      Move ssl d (.readyForQuery status) (d.done .success)

section
variable (ssl : OpenSsl) {d : Data}

theorem serverError_move (err : ErrorResponse) (hp : d.fsm.resumePoint = .readContinue ∨
    d.fsm.resumePoint = .readFinal ∨ d.fsm.resumePoint = .readReady) :
    Move ssl d (.errorResponse err) (d.serverError err) := by
  by_cases hz : (processError err).failed = true
  · exact .failed rfl hz
  · exact .error hp (by simpa using hz)

theorem handleAuthResponse_move (hp : d.fsm.resumePoint = .readAuth ∨ d.fsm.resumePoint = .readOk)
    (msg : AnyBackendMessage) : Move ssl d msg (d.handleAuthResponse msg) := by
  unfold Data.handleAuthResponse
  split
  · rename_i err
    simp only
    split
    · rename_i hz
      exact .failed rfl hz
    · rename_i hz
      exact .authError hp (by simpa using hz)
  · exact .authOk hp
  · exact .failed rfl (ClientErrc.failed_code _)

theorem handleSasl_move (hp : d.fsm.resumePoint = .readAuth) (mechanisms : ForwardParsingView) :
    Move ssl d (.authenticationSasl mechanisms) (d.handleSasl ssl mechanisms) := by
  unfold Data.handleSasl
  split
  · exact .fault rfl
  · exact .failed rfl (ClientErrc.failed_code _)
  · rename_i hs
    simp only
    split
    · rename_i hec
      exact .failed rfl hec
    · rename_i hec
      exact .sasl hp hs (by simpa using hec)

theorem handleSaslContinue_move (hp : d.fsm.resumePoint = .readContinue) (data : Bytes) :
    Move ssl d (.authenticationSaslContinue data) (d.handleSaslContinue ssl data) := by
  unfold Data.handleSaslContinue
  split
  · exact .fault rfl
  · rename_i r hr
    simp only
    split
    · rename_i hec
      exact .failed rfl hec
    · rename_i hec
      exact .saslContinue hp hr (by simpa using hec)

theorem handleSaslFinal_move (hp : d.fsm.resumePoint = .readFinal) (data : Bytes) :
    Move ssl d (.authenticationSaslFinal data) (d.handleSaslFinal data) := by
  unfold Data.handleSaslFinal
  split
  · exact .fault rfl
  · rename_i ec hr
    split
    · rename_i hec
      exact .failed rfl hec
    · rename_i hec
      exact .saslFinal hp hr (by simpa using hec)

theorem handleReady_move (hp : d.fsm.resumePoint = .readReady) (msg : AnyBackendMessage) :
    Move ssl d msg (d.handleReady msg) := by
  unfold Data.handleReady
  split
  · exact .info hp rfl
  · exact .info hp rfl
  · exact serverError_move ssl _ (.inr (.inr hp))
  · exact .info hp rfl
  · exact .ready hp
  · exact .failed rfl (ClientErrc.failed_code _)

theorem resume_move (d : Data) (msg : AnyBackendMessage) : Move ssl d msg (d.resume ssl msg) := by
  unfold Data.resume
  split
  · rename_i hp
    simp only
    split
    · rename_i hec
      exact .failed rfl hec
    · exact .startup hp
  · rename_i hp
    exact .wrote (hp ▸ .startup)
  · rename_i hp
    split
    · exact handleSasl_move ssl hp _
    · simp only
      split
      · rename_i hec
        exact .failed rfl hec
      · exact handleAuthResponse_move ssl (.inl hp) _
  · rename_i hp
    exact .wrote (hp ▸ .clientFirst)
  · rename_i hp
    split
    · exact serverError_move ssl _ (.inl hp)
    · exact handleSaslContinue_move ssl hp _
    · exact .failed rfl (ClientErrc.failed_code _)
  · rename_i hp
    exact .wrote (hp ▸ .clientFinal)
  · rename_i hp
    split
    · exact serverError_move ssl _ (.inr (.inl hp))
    · exact handleSaslFinal_move ssl hp _
    · exact .failed rfl (ClientErrc.failed_code _)
  · rename_i hp
    exact handleAuthResponse_move ssl (.inr hp) msg
  · rename_i hp
    exact handleReady_move ssl hp msg

end

/-! ## 5. Writes, and the read buffer -/

/-- The machine stands behind a write. -/
def Data.Wrote (d : Data) : Prop := ∃ point, Behind d.fsm.resumePoint point

/-- A machine that asks for a write has suspended itself at one of the three points for it. -/
theorem wrote_of_write {ssl : OpenSsl} {d : Data} {msg : AnyBackendMessage} {r : Reply}
    (hm : Move ssl d msg r) (h : r.result = .ok .write) : r.toData.Wrote := by
  cases hm with
  | startup _ => exact ⟨_, .startup⟩
  | sasl _ _ _ => exact ⟨_, .clientFirst⟩
  | saslContinue _ _ _ => exact ⟨_, .clientFinal⟩
  | _ => cases h

/-- Behind a write the machine asks for a read, whatever it is resumed with. -/
theorem resume_of_behind {d : Data} {point : StartupPoint} (h : Behind d.fsm.resumePoint point)
    (ssl : OpenSsl) (msg : AnyBackendMessage) : d.resume ssl msg = d.suspend point .read := by
  unfold Data.resume
  generalize d.fsm.resumePoint = p at h ⊢
  cases h <;> rfl

theorem Behind.rank_lt {p q : StartupPoint} (h : Behind p q) : p.rank < q.rank := by
  cases h <;> decide

/-- **The machine does not go back.** -/
theorem Move.rank_le {ssl : OpenSsl} {d : Data} {msg : AnyBackendMessage} {r : Reply}
    (h : Move ssl d msg r) : d.fsm.resumePoint.rank ≤ r.fsm.resumePoint.rank := by
  cases h with
  | fault hp => exact Nat.le_of_eq (congrArg _ hp.symm)
  | failed hp _ => exact Nat.le_of_eq (congrArg _ hp.symm)
  | wrote hp => exact Nat.le_of_lt hp.rank_lt
  | startup hp | sasl hp _ _ | saslContinue hp _ _ | saslFinal hp _ _ | info hp _ =>
    simp [hp, Data.suspend, StartupPoint.rank]
  | authOk hp | authError hp _ =>
    rcases hp with hp | hp <;> simp [hp, Data.suspend, StartupPoint.rank]
  | error _ _ | ready _ => exact Nat.le_refl _

/-- From the authentication response on, a machine that takes a message and asks for another one
    waits for ReadyForQuery. -/
theorem Move.ready_of_read {ssl : OpenSsl} {d : Data} {msg : AnyBackendMessage} {r : Reply}
    (hm : Move ssl d msg r)
    (hp : d.fsm.resumePoint = .readAuth ∨ d.fsm.resumePoint = .readReady)
    (h : r.result = .ok .read) : r.fsm.resumePoint = .readReady := by
  cases hm with
  | authOk _ | authError _ _ | info _ _ => rfl
  | wrote hb =>
    generalize d.fsm.resumePoint = p at hb hp
    rcases hp with rfl | rfl <;> cases hb
  | saslFinal hf _ _ => rcases hp with hp | hp <;> rw [hp] at hf <;> cases hf
  | _ => cases h

/-- The same with another read buffer. -/
def Data.withBuffer (d : Data) (rb : ReadBuffer) : Data :=
  { d with st := { d.st with readBuffer := rb } }

def Reply.withBuffer (r : Reply) (rb : ReadBuffer) : Reply := ⟨r.toData.withBuffer rb, r.result⟩

theorem handleAuthResponse_withBuffer (d : Data) (msg : AnyBackendMessage) (rb : ReadBuffer) :
    (d.withBuffer rb).handleAuthResponse msg = (d.handleAuthResponse msg).withBuffer rb := by
  unfold Data.handleAuthResponse
  split
  · simp only
    split <;> rfl
  · rfl
  · rfl

theorem handleSasl_withBuffer (d : Data) (ssl : OpenSsl) (mechanisms : ForwardParsingView)
    (rb : ReadBuffer) :
    (d.withBuffer rb).handleSasl ssl mechanisms = (d.handleSasl ssl mechanisms).withBuffer rb := by
  unfold Data.handleSasl
  split
  · rfl
  · rfl
  · simp only
    rw [apply_ite (Reply.withBuffer · rb)]
    rfl

theorem handleSaslContinue_withBuffer (d : Data) (ssl : OpenSsl) (data : Bytes) (rb : ReadBuffer) :
    (d.withBuffer rb).handleSaslContinue ssl data =
      (d.handleSaslContinue ssl data).withBuffer rb := by
  unfold Data.handleSaslContinue
  simp only [Data.withBuffer]
  split
  · rfl
  · split <;> rfl

theorem handleSaslFinal_withBuffer (d : Data) (data : Bytes) (rb : ReadBuffer) :
    (d.withBuffer rb).handleSaslFinal data = (d.handleSaslFinal data).withBuffer rb := by
  unfold Data.handleSaslFinal
  simp only [Data.withBuffer]
  split
  · rfl
  · split <;> rfl

theorem handleReady_withBuffer (d : Data) (msg : AnyBackendMessage) (rb : ReadBuffer) :
    (d.withBuffer rb).handleReady msg = (d.handleReady msg).withBuffer rb := by
  unfold Data.handleReady
  split <;> rfl

/-- **The machine neither reads nor changes the read buffer.** -/
theorem resume_withBuffer (d : Data) (ssl : OpenSsl) (msg : AnyBackendMessage) (rb : ReadBuffer) :
    (d.withBuffer rb).resume ssl msg = (d.resume ssl msg).withBuffer rb := by
  unfold Data.resume
  rw [show (d.withBuffer rb).fsm = d.fsm from rfl]
  split
  · simp only
    split <;> rfl
  · rfl
  · split
    · exact handleSasl_withBuffer d ssl _ rb
    · simp only
      split
      · rfl
      · exact handleAuthResponse_withBuffer d _ rb
  · rfl
  · split
    · rfl
    · exact handleSaslContinue_withBuffer d ssl _ rb
    · rfl
  · rfl
  · split
    · rfl
    · exact handleSaslFinal_withBuffer d _ rb
    · rfl
  · exact handleAuthResponse_withBuffer d msg rb
  · exact handleReady_withBuffer d msg rb

theorem resume_readBuffer (d : Data) (ssl : OpenSsl) (msg : AnyBackendMessage) :
    (d.resume ssl msg).st.readBuffer = d.st.readBuffer := by
  have h := resume_withBuffer d ssl msg d.st.readBuffer
  rw [show d.withBuffer d.st.readBuffer = d from rfl] at h
  rw [h]
  rfl

end StartupFsmImpl

/-! ## 6. The coroutine that reads and writes -/

/-- `startup_fsm::resume_point_`. -/
inductive StartupIoPoint where
  | initial
  | writing
  | reading
  deriving DecidableEq, Repr

/-- `startup_fsm`. -/
structure StartupFsm where
  resumePoint : StartupIoPoint := .initial
  impl : StartupFsmImpl
  deriving DecidableEq

namespace StartupFsm

/-- What one call of `resume` leaves and returns, and the messages it handed to the machine. -/
structure Reply where
  fsm : StartupFsm
  st : ConnectionState
  diag : Diagnostics
  result : Checked IoResult
  delivered : List AnyBackendMessage := []

/-- Puts a message of an earlier turn in front. -/
def Reply.after (msg : AnyBackendMessage) (r : Reply) : Reply :=
  { r with delivered := msg :: r.delivered }

/-- The loops of `resume`, from a result `startup_res` of the machine on. -/
def loop (ssl : OpenSsl) (r : StartupFsmImpl.Reply) : Reply :=
  match r.result with
  | .error fault => { fsm := ⟨.reading, r.fsm⟩, st := r.st, diag := r.diag, result := .error fault }
  | .ok (.done ec) =>
    { fsm := ⟨.reading, r.fsm⟩, st := r.st, diag := r.diag, result := .ok (.done ec) }
  | .ok .write =>
    { fsm := ⟨.writing, r.fsm⟩, st := r.st, diag := r.diag, result := .ok (.write r.st.writeBuffer) }
  | .ok .read =>
    match _h : nextMessage r.st.committed with
    | .message msg size =>
      let next := r.toData.resume ssl msg
      (loop ssl (next.withBuffer (next.st.readBuffer.consume size))).after msg
    | .needs size =>
      match r.st.readBuffer.prepare size with
      | .error fault =>
        { fsm := ⟨.reading, r.fsm⟩, st := r.st, diag := r.diag, result := .error fault }
      | .ok rb =>
        { fsm := ⟨.reading, r.fsm⟩, st := { r.st with readBuffer := rb }, diag := r.diag,
          result := .ok (.read rb.preparedSize) }
    | .bad ec =>
      { fsm := ⟨.reading, r.fsm⟩, st := r.st, diag := r.diag, result := .ok (.done ec) }
termination_by r.st.committed.length
decreasing_by
  have hpos := messageParser.message_pos _h
  have hle := messageParser.message_le _h
  have hbuf := StartupFsmImpl.resume_readBuffer r.toData ssl msg
  simp only [ConnectionState.committed, StartupFsmImpl.Reply.withBuffer,
    StartupFsmImpl.Data.withBuffer, hbuf, ReadBuffer.committedArea_consume,
    List.length_drop] at hle ⊢
  omega

/-- The machine behind a message, which has been taken off the buffer. -/
def taken (ssl : OpenSsl) (r : StartupFsmImpl.Reply) (msg : AnyBackendMessage) (size : Nat) :
    StartupFsmImpl.Reply :=
  (r.toData.resume ssl msg).withBuffer (r.st.readBuffer.consume size)

section
variable (ssl : OpenSsl) {r : StartupFsmImpl.Reply}

@[simp] theorem taken_committed (msg : AnyBackendMessage) (size : Nat) :
    (taken ssl r msg size).st.committed = r.st.committed.drop size :=
  r.st.readBuffer.committedArea_consume size

/-- **What holds behind every message the buffer begins with, holds**: the loop ends. -/
theorem taken_induction {P : StartupFsmImpl.Reply → Prop}
    (h : ∀ r, (∀ msg size, nextMessage r.st.committed = .message msg size →
      P (taken ssl r msg size)) → P r) (r : StartupFsmImpl.Reply) : P r := by
  induction hl : r.st.committed.length using Nat.strongRecOn generalizing r with
  | ind l ih =>
    refine h r fun msg size hn => ih _ ?_ _ rfl
    have hpos : 0 < size := messageParser.message_pos hn
    have hle : size ≤ r.st.committed.length := messageParser.message_le hn
    rw [taken_committed, List.length_drop]
    omega

theorem loop_fault {fault : Fault} (hr : r.result = .error fault) : loop ssl r =
    { fsm := ⟨.reading, r.fsm⟩, st := r.st, diag := r.diag, result := .error fault } := by
  rw [loop]
  simp only [hr]

theorem loop_done {ec : ErrorCode} (hr : r.result = .ok (.done ec)) : loop ssl r =
    { fsm := ⟨.reading, r.fsm⟩, st := r.st, diag := r.diag, result := .ok (.done ec) } := by
  rw [loop]
  simp only [hr]

theorem loop_write (hr : r.result = .ok .write) : loop ssl r =
    { fsm := ⟨.writing, r.fsm⟩, st := r.st, diag := r.diag,
      result := .ok (.write r.st.writeBuffer) } := by
  rw [loop]
  simp only [hr]

theorem loop_message {msg : AnyBackendMessage} {size : Nat} (hr : r.result = .ok .read)
    (h : nextMessage r.st.committed = .message msg size) :
    loop ssl r = (loop ssl (taken ssl r msg size)).after msg := by
  rw [loop]
  simp only [hr]
  split <;> rename_i h' <;> rw [h] at h' <;> cases h'
  rw [StartupFsmImpl.resume_readBuffer]
  rfl

theorem loop_bad {ec : ErrorCode} (hr : r.result = .ok .read)
    (h : nextMessage r.st.committed = .bad ec) : loop ssl r =
      { fsm := ⟨.reading, r.fsm⟩, st := r.st, diag := r.diag, result := .ok (.done ec) } := by
  rw [loop]
  simp only [hr]
  split <;> rename_i h' <;> rw [h] at h' <;> cases h'
  rfl

/-- Where a message is missing bytes, the loop asks for a read into a buffer with room. -/
theorem loop_needs {size : Nat} (hr : r.result = .ok .read)
    (h : nextMessage r.st.committed = .needs size) :
    ∃ rb : ReadBuffer, rb.committedArea = r.st.committed ∧ 0 < rb.preparedSize ∧ loop ssl r =
      { fsm := ⟨.reading, r.fsm⟩, st := { r.st with readBuffer := rb }, diag := r.diag,
        result := .ok (.read rb.preparedSize) } := by
  obtain ⟨rb, hrb, hcommitted, hroom⟩ := r.st.readBuffer.prepare_needs h
  refine ⟨rb, hcommitted, hroom, ?_⟩
  rw [loop]
  simp only [hr]
  split <;> rename_i h' <;> rw [h] at h' <;> cases h'
  rw [hrb]

end

section
variable {ssl : OpenSsl} {r : StartupFsmImpl.Reply} {room : Nat}

/-- **A loop that asks for a read has parsed all it has, and has room in its buffer.** -/
theorem loop_read (h : (loop ssl r).result = .ok (.read room)) :
    (loop ssl r).fsm.resumePoint = .reading ∧
      room = (loop ssl r).st.readBuffer.preparedSize ∧ 0 < room ∧
      ∃ k, nextMessage (loop ssl r).st.committed = .needs k := by
  fun_induction loop ssl r
  case case4 ih => exact ih h
  case case6 r hr size hn rb hrb =>
    obtain ⟨rb', hrb', hcommitted, hroom⟩ := r.st.readBuffer.prepare_needs hn
    rw [hrb] at hrb'
    cases hrb'
    cases h
    exact ⟨rfl, rfl, hroom, size, (congrArg nextMessage hcommitted).trans hn⟩
  all_goals cases h

theorem loop_writing {data : Bytes} (h : (loop ssl r).result = .ok (.write data)) :
    (loop ssl r).fsm.resumePoint = .writing := by
  fun_induction loop ssl r
  case case3 => rfl
  case case4 ih => exact ih h
  all_goals cases h

/-- What it leaves in the buffer is the end of what was there. -/
theorem loop_suffix (h : (loop ssl r).result = .ok (.read room)) :
    (loop ssl r).st.committed <:+ r.st.committed := by
  fun_induction loop ssl r
  case case4 r hr msg size hn next ih =>
    have hcommitted : (next.withBuffer (next.st.readBuffer.consume size)).st.committed =
        r.st.committed.drop size := by
      rw [StartupFsmImpl.resume_readBuffer]
      exact taken_committed ssl msg size
    have hsuffix := ih h
    rw [hcommitted] at hsuffix
    exact hsuffix.trans (List.drop_suffix size _)
  case case6 r hr size hn rb hrb =>
    obtain ⟨rb', hrb', hcommitted, hroom⟩ := r.st.readBuffer.prepare_needs hn
    rw [hrb] at hrb'
    cases hrb'
    exact (show rb.committedArea = r.st.committed from hcommitted) ▸ List.suffix_refl _
  all_goals cases h
/-- Only a machine that asks for a read makes the loop ask for one. -/
theorem result_of_loop_read (h : (loop ssl r).result = .ok (.read room)) :
    r.result = .ok .read := by
  cases hr : r.result with
  | error fault =>
    rw [loop_fault ssl hr] at h
    cases h
  | ok res =>
    cases res with
    | read => rfl
    | write =>
      rw [loop_write ssl hr] at h
      cases h
    | done ec =>
      rw [loop_done ssl hr] at h
      cases h

/-- From the authentication response on, a loop that asks for a read has taken no message, or waits
    for ReadyForQuery. -/
theorem loop_position
    (hp : r.fsm.resumePoint = .readAuth ∨ r.fsm.resumePoint = .readReady)
    (h : (loop ssl r).result = .ok (.read room)) :
    (loop ssl r).fsm.impl.resumePoint = .readReady ∨
      ((loop ssl r).fsm.impl = r.fsm ∧ (loop ssl r).st.committed = r.st.committed) := by
  fun_induction loop ssl r
  case case4 r hr msg size hn next ih =>
    have hready : next.fsm.resumePoint = .readReady :=
      (StartupFsmImpl.resume_move ssl r.toData msg).ready_of_read hp
        (result_of_loop_read (r := next.withBuffer (next.st.readBuffer.consume size)) h)
    rcases ih (.inr hready) h with h' | ⟨h', _⟩
    · exact .inl h'
    · exact .inl ((congrArg StartupFsmImpl.resumePoint h').trans hready)
  case case6 r hr size hn rb hrb =>
    obtain ⟨rb', hrb', hcommitted, _⟩ := r.st.readBuffer.prepare_needs hn
    rw [hrb] at hrb'
    cases hrb'
    exact .inr ⟨rfl, hcommitted⟩
  all_goals cases h

end

/-- `startup_fsm::resume`. -/
def resume (f : StartupFsm) (ssl : OpenSsl) (st : ConnectionState) (diag : Diagnostics)
    (ioError : ErrorCode) (bytesRead : Nat) : Reply :=
  match f.resumePoint with
  | .initial => loop ssl (StartupFsmImpl.Data.resume ⟨f.impl, st, diag⟩ ssl .none)
  | .writing =>
    if ioError.failed then { fsm := f, st, diag, result := .ok (.done ioError) }
    else loop ssl (StartupFsmImpl.Data.resume ⟨f.impl, st, diag⟩ ssl .none)
  | .reading =>
    if ioError.failed then { fsm := f, st, diag, result := .ok (.done ioError) }
    else
      let st := { st with readBuffer := st.readBuffer.commit bytesRead }
      loop ssl ⟨⟨f.impl, st, diag⟩, .ok .read⟩

end StartupFsm

end NativePg
