/-
  File:      NativePg/Startup/Writes.lean
  Subject:   What the client sends during a login, whatever the server answers.

  * `LoginMessage` -- the messages a client can send in a login, as data and as bytes: `wire` is
    what the serializers write (`serialized_startup`, `serialized_clientFirst`), and `frame` what
    the protocol asks for. The two agree where the length fits;
  * `writes` -- the writes of a run of the startup machine, each with the messages the machine had
    been handed before it. As in `feed`, a machine that has returned `done` is not resumed;
  * `writes_readAuth`, `writes_readContinue`, `writes_final` -- the writes still to come, from each
    of the machine's reads on;
  * `Sent`, `writes_sent` -- they are the startup message, SASLInitialResponse and SASLResponse, in
    this order; `writes_password` -- the last one alone depends on the password;
  * `writes_framed` -- each is one frame, a SASLResponse too long for one excepted.
-/
import NativePg.Protocol.Serialize
import NativePg.Startup.Login
import NativePg.Startup.ScramServer

namespace NativePg

open StartupFsmImpl

/-! ## 1. The messages -/

/-- What a client sends during a login. -/
inductive LoginMessage where
  | startup (user database : Bytes)
  | saslInitialResponse (mechanism data : Bytes)
  | saslResponse (data : Bytes)
  deriving DecidableEq, Repr

/-- The body of a message. A database that is empty is left out. -/
def LoginMessage.body : LoginMessage → Bytes
  | .startup user database =>
    storeBigS32 196608 ++ addString (ascii "user") ++ addString user ++
      (if database.isEmpty then [] else addString (ascii "database") ++ addString database) ++ [0]
  | .saslInitialResponse mechanism data => addString mechanism ++ storeBigS32 data.length ++ data
  | .saslResponse data => data

/-- The bytes the serializers make of a message. `finalize_message` leaves the length of a response
    at zero where it does not fit: these bytes are no frame. -/
def LoginMessage.wire (m : LoginMessage) : Bytes :=
  match m with
  | .startup _ _ => storeBigS32 (m.body.length + 4) ++ m.body
  | .saslInitialResponse _ _ | .saslResponse _ => finalizeMessage 'p' m.body

/-- The length of a message fits its field. -/
def LoginMessage.Fits (m : LoginMessage) : Prop := m.body.length + 4 ≤ int32Max

/-- The frame of a message: the type byte, which a startup message does not have, a length that
    counts itself, and the body. -/
def LoginMessage.frame (m : LoginMessage) : Bytes :=
  match m with
  | .startup _ _ => BigEndian.ofInt 4 (m.body.length + 4) ++ m.body
  | .saslInitialResponse _ _ | .saslResponse _ => 112 :: BigEndian.ofInt 4 (m.body.length + 4) ++ m.body

theorem LoginMessage.wire_of_fits {m : LoginMessage} (h : m.Fits) : m.wire = m.frame := by
  have hlength : storeBigS32 (m.body.length + 4) = BigEndian.ofInt 4 (m.body.length + 4) :=
    storeBigS32_eq h
  cases m with
  | startup user database =>
    unfold wire frame
    simp only [hlength]
  | saslInitialResponse mechanism data | saslResponse data =>
    unfold wire frame finalizeMessage
    simp only [if_neg (Nat.not_lt.mpr h), hlength]
    rfl

/-- The mechanisms of an AuthenticationSASL contain SCRAM-SHA-256. -/
def OffersScram (mechanisms : ForwardParsingView) : Prop :=
  ∃ before behind, (∀ name ∈ before, (0 : UInt8) ∉ name) ∧
    mechanisms.data = Delimited.terminated 0 (before ++ [scramSha256Name]) ++ behind

theorem offersScram_of_supports {data : Bytes} (h : supportsScramSha256 data = .ok true) :
    ∃ before behind, (∀ name ∈ before, (0 : UInt8) ∉ name) ∧
      data = Delimited.terminated 0 (before ++ [scramSha256Name]) ++ behind := by
  fun_induction supportsScramSha256 data
  case case1 => cases h
  case case2 => cases h
  case case3 data hnil hall hname =>
    have hmem : (0 : UInt8) ∈ data := by simpa using hall
    obtain ⟨name, rest, rfl, hnot⟩ := List.eq_append_cons_of_mem hmem
    rw [Delimited.takeWhile_ne_append hnot] at hname
    subst hname
    exact ⟨[], rest, by simp, by simp [Delimited.terminated]⟩
  case case4 data hnil hall hname ih =>
    have hmem : (0 : UInt8) ∈ data := by simpa using hall
    obtain ⟨name, rest, rfl, hnot⟩ := List.eq_append_cons_of_mem hmem
    rw [Delimited.drop_takeWhile_ne_append hnot] at h ih
    obtain ⟨before, behind, hbefore, rfl⟩ := ih h
    refine ⟨name :: before, behind, ?_, by simp [Delimited.terminated]⟩
    intro other hother
    rcases List.mem_cons.mp hother with rfl | hother
    · exact hnot
    · exact hbefore other hother

namespace StartupFsmImpl

/-! ## 2. The writes of a run -/

/-- A write: the messages the machine has been handed before it, and the bytes. -/
structure Write where
  seen : List AnyBackendMessage
  buffer : Bytes
  deriving DecidableEq

/-- The write a reply asks for. -/
def Reply.written (r : Reply) (seen : List AnyBackendMessage) : List Write :=
  match r.result with
  | .ok .write => [⟨seen, r.st.writeBuffer⟩]
  | _ => []

/-- The writes of `feed`, from a reply on; `seen` are the messages behind it. -/
def writes (ssl : OpenSsl) (seen : List AnyBackendMessage) (r : Reply) :
    List AnyBackendMessage → List Write
  | [] => r.written seen
  | msg :: msgs =>
    r.written seen ++
      match (settle ssl r).result with
      | .ok .read => writes ssl (seen ++ [msg]) ((settle ssl r).toData.resume ssl msg) msgs
      | _ => []

section
variable {ssl : OpenSsl} {seen msgs : List AnyBackendMessage} {r : Reply} {d : Data}

/-- A machine that has stopped writes nothing. -/
theorem writes_stopped (hr : r.result ≠ .ok .read) (hw : r.result ≠ .ok .write) :
    writes ssl seen r msgs = [] := by
  have hwritten : r.written seen = [] := by
    unfold Reply.written
    split
    · contradiction
    · rfl
  cases msgs with
  | nil => exact hwritten
  | cons msg msgs =>
    have hsettle : settle ssl r = r := by
      unfold settle
      split
      · contradiction
      · rfl
    unfold writes
    rw [hwritten, hsettle, List.nil_append]
    split
    · contradiction
    · rfl

/-- A read writes nothing, and hands in the next message. -/
theorem writes_read (msg : AnyBackendMessage) : writes ssl seen ⟨d, .ok .read⟩ (msg :: msgs) =
    writes ssl (seen ++ [msg]) (d.resume ssl msg) msgs := rfl

/-- A write is followed by a read. -/
theorem writes_write {point next : StartupPoint} (h : Behind point next) :
    writes ssl seen (d.suspend point .write) msgs =
      ⟨seen, d.st.writeBuffer⟩ :: writes ssl seen (d.suspend next .read) msgs := by
  have hsettle : settle ssl (d.suspend point .write) = d.suspend next .read :=
    resume_of_behind (d := (d.suspend point .write).toData) h ssl .none
  cases msgs with
  | nil => rfl
  | cons msg msgs =>
    unfold writes
    rw [hsettle]
    rfl

/-! ## 3. The writes to come -/

/-- **Behind its last write the machine writes nothing more.** The induction is over the messages:
    the machine does not go back (`Move.rank_le`), and the three moves that write stand in front. -/
theorem writes_final : ∀ (msgs : List AnyBackendMessage) {seen : List AnyBackendMessage} {d : Data},
    StartupPoint.readContinue.rank < d.fsm.resumePoint.rank →
    writes ssl seen ⟨d, .ok .read⟩ msgs = []
  | [], _, _, _ => rfl
  | msg :: msgs, seen, d, h => by
      rw [writes_read]
      have hmove := resume_move ssl d msg
      have hrank := Nat.lt_of_lt_of_le h hmove.rank_le
      generalize hr : d.resume ssl msg = r at hmove hrank
      by_cases hread : r.result = .ok .read
      · have hnone : writes ssl (seen ++ [msg]) ⟨r.toData, .ok .read⟩ msgs = [] :=
          writes_final msgs hrank
        rwa [← hread] at hnone
      · refine writes_stopped hread fun hwrite => ?_
        cases hmove with
        | startup hp | sasl hp _ _ | saslContinue hp _ _ =>
          rw [hp] at h
          exact absurd h (by decide)
        | _ => cases hwrite

theorem writes_suspend {point : StartupPoint} (h : StartupPoint.readContinue.rank < point.rank) :
    writes ssl seen (d.suspend point .read) msgs = [] :=
  writes_final msgs h

/-- Behind SASLInitialResponse the machine writes only the answer to AuthenticationSASLContinue. -/
theorem writes_readContinue (hp : d.fsm.resumePoint = .readContinue) :
    writes ssl seen ⟨d, .ok .read⟩ msgs = [] ∨
      ∃ data rest r, msgs = .authenticationSaslContinue data :: rest ∧
        d.fsm.scramFsm.onServerFirst ssl data d.fsm.params.password d.st.writeBuffer = .ok r ∧
        r.ec.failed = false ∧
        writes ssl seen ⟨d, .ok .read⟩ msgs =
          [⟨seen ++ [.authenticationSaslContinue data], r.writeBuffer⟩] := by
  cases msgs with
  | nil => exact .inl rfl
  | cons msg rest =>
    rw [writes_read]
    have hmove := resume_move ssl d msg
    generalize d.resume ssl msg = reply at hmove
    cases hmove with
    | fault _ | failed _ _ | error _ _ | ready _ => exact .inl (writes_stopped nofun nofun)
    | saslContinue _ hr hec =>
      refine .inr ⟨_, rest, _, rfl, hr, hec, ?_⟩
      rw [writes_write .clientFinal, writes_suspend (by decide)]
      rfl
    | wrote hb =>
      rw [hp] at hb
      cases hb
    | startup hp' | sasl hp' _ _ | saslFinal hp' _ _ | info hp' _ =>
      rw [hp] at hp'
      cases hp'
    | authOk hp' | authError hp' _ =>
      rw [hp] at hp'
      rcases hp' with hp' | hp' <;> cases hp'

/-- The machine behind SASLInitialResponse. -/
def Data.sentClientFirst (d : Data) (ssl : OpenSsl) : Data :=
  ((d.withScram (d.fsm.scramFsm.onInit ssl d.st.writeBuffer)).suspend .readContinue .read).toData

/-- A mechanism list with SCRAM-SHA-256 is answered. -/
theorem writes_sasl {mechanisms : ForwardParsingView} (hp : d.fsm.resumePoint = .readAuth)
    (hs : supportsScramSha256 mechanisms.data = .ok true)
    (hec : (d.fsm.scramFsm.onInit ssl d.st.writeBuffer).ec.failed = false) :
    writes ssl seen ⟨d, .ok .read⟩ (.authenticationSasl mechanisms :: msgs) =
      ⟨seen ++ [.authenticationSasl mechanisms],
        (d.fsm.scramFsm.onInit ssl d.st.writeBuffer).writeBuffer⟩ ::
      writes ssl (seen ++ [.authenticationSasl mechanisms]) ⟨d.sentClientFirst ssl, .ok .read⟩
        msgs := by
  have hresume : d.resume ssl (.authenticationSasl mechanisms) =
      (d.withScram (d.fsm.scramFsm.onInit ssl d.st.writeBuffer)).suspend .writeClientFirst .write := by
    unfold Data.resume Data.handleSasl
    rw [hp]
    simp only [hs]
    rw [if_neg (by simp [hec])]
    rfl
  rw [writes_read, hresume, writes_write .clientFirst]
  rfl

/-- Behind the startup message the machine writes only the answer to such a list, and what may
    follow it. -/
theorem writes_readAuth (hp : d.fsm.resumePoint = .readAuth) :
    writes ssl seen ⟨d, .ok .read⟩ msgs = [] ∨
      ∃ mechanisms rest, msgs = .authenticationSasl mechanisms :: rest ∧
        supportsScramSha256 mechanisms.data = .ok true ∧
        (d.fsm.scramFsm.onInit ssl d.st.writeBuffer).ec.failed = false := by
  cases msgs with
  | nil => exact .inl rfl
  | cons msg rest =>
    rw [writes_read]
    have hmove := resume_move ssl d msg
    generalize d.resume ssl msg = reply at hmove
    cases hmove with
    | fault _ | failed _ _ | error _ _ | ready _ => exact .inl (writes_stopped nofun nofun)
    | sasl _ hs hec => exact .inr ⟨_, rest, rfl, hs, hec⟩
    | authOk _ | authError _ _ => exact .inl (writes_suspend (by decide))
    | wrote hb =>
      rw [hp] at hb
      cases hb
    | startup hp' | saslContinue hp' _ _ | saslFinal hp' _ _ | info hp' _ =>
      rw [hp] at hp'
      cases hp'

/-- **SASLInitialResponse, and whether it is sent, does not depend on the parameters.** -/
theorem writes_readAuth_same {d' : Data} (hp : d.fsm.resumePoint = .readAuth)
    (hp' : d'.fsm.resumePoint = .readAuth) (hfsm : d'.fsm.scramFsm = d.fsm.scramFsm)
    (hbuffer : d'.st.writeBuffer = d.st.writeBuffer) :
    (writes ssl seen ⟨d', .ok .read⟩ msgs).take 1 = (writes ssl seen ⟨d, .ok .read⟩ msgs).take 1 := by
  rcases @writes_readAuth ssl seen msgs d hp with h | ⟨mechanisms, rest, rfl, hs, hec⟩
  · rcases @writes_readAuth ssl seen msgs d' hp' with h' | ⟨mechanisms, rest, rfl, hs, hec⟩
    · rw [h, h']
    · rw [hfsm, hbuffer] at hec
      rw [writes_sasl hp hs hec] at h
      cases h
  · rw [writes_sasl hp hs hec, writes_sasl hp' hs (by rw [hfsm, hbuffer]; exact hec), hfsm, hbuffer]
    rfl

end

/-! ## 4. What a login sends -/

section
variable (ssl : OpenSsl) (params : ConnectParams) (st : ConnectionState) (diag : Diagnostics)

/-- The machine behind the startup message. -/
def sentStartup : Data :=
  ⟨{ params, resumePoint := .readAuth },
    { st with writeBuffer := (serializeStartup params).2 }, diag⟩

/-- The startup message comes first, unless it is too long. -/
theorem writes_start (msgs : List AnyBackendMessage) :
    writes ssl [] (start ssl params st diag) msgs =
      if (serializeStartup params).1.failed then []
      else ⟨[], (serializeStartup params).2⟩ ::
        writes ssl [] ⟨sentStartup params st diag, .ok .read⟩ msgs := by
  unfold start Data.resume
  simp only
  split
  · exact writes_stopped nofun nofun
  · exact writes_write .startup

theorem serializeStartup_eq :
    let m := LoginMessage.startup params.username params.database
    serializeStartup params =
      if m.body.length + 4 > int32Max then (ClientErrc.valueTooBig.code, [0, 0, 0, 0] ++ m.body)
      else (.success, m.wire) := rfl

/-- A startup message that is written fits. -/
theorem serializeStartup_wire (h : (serializeStartup params).1.failed = false) :
    let m := LoginMessage.startup params.username params.database
    (serializeStartup params).2 = m.wire ∧ m.Fits := by
  rw [serializeStartup_eq] at h ⊢
  simp only at h ⊢
  split at h
  · cases h
  · rename_i hfits
    rw [if_neg hfits]
    exact ⟨rfl, Nat.not_lt.mp hfits⟩

end

/-- The database of a startup message; an empty one is left out. -/
def optionalDatabase (database : Bytes) : Option Bytes :=
  if database.isEmpty then none else some database

theorem body_startupMessage (user database : Bytes) :
    (FrontendMessage.startupMessage user (optionalDatabase database) []).body =
      (LoginMessage.startup user database).body := by
  have hversion : BigEndian.ofInt 4 196608 = storeBigS32 196608 := by decide
  rw [LoginMessage.body]
  unfold optionalDatabase
  cases database.isEmpty with
  | true =>
    simp only [FrontendMessage.body, FrontendMessage.layout, startupParams, if_true,
      Option.toList_none, List.map_nil, List.append_nil, List.flatMap_cons, List.flatMap_nil,
      List.cons_append, List.nil_append, List.append_assoc, WireField.enc, hversion]
    rfl
  | false =>
    simp only [FrontendMessage.body, FrontendMessage.layout, startupParams, if_false,
      Bool.false_eq_true, Option.toList_some, List.map_cons, List.map_nil, List.append_nil,
      List.flatMap_cons, List.flatMap_nil, List.cons_append, List.nil_append, List.append_assoc,
      WireField.enc, hversion]
    rfl

/-- **The startup message of a login is what its `serialize` writes to an empty buffer.** -/
theorem serialized_startup (params : ConnectParams) :
    Serialized ((FrontendMessage.startupMessage params.username
        (optionalDatabase params.database) []).serialize [])
      [] (serializeStartup params).1.failed (serializeStartup params).2 := by
  obtain ⟨ec, buffer, hrun, hec, hbuffer⟩ :=
    FrontendMessage.startup_spec params.username (optionalDatabase params.database) [] []
  have hbody := body_startupMessage params.username params.database
  simp only [FrontendMessage.rejected, FrontendMessage.emitted, FrontendMessage.type,
    Option.elim_none, hbody] at hec hbuffer
  rw [serializeStartup_eq]
  unfold LoginMessage.wire
  simp only
  generalize (LoginMessage.startup params.username params.database).body = body at hec hbuffer ⊢
  by_cases hlong : body.length + 4 > int32Max
  · simp only [if_pos hlong, ClientErrc.failed_code]
    exact ⟨ec, buffer, hrun, by rw [hec, decide_eq_true hlong], fun h => by cases h⟩
  · have hfit := decide_eq_false hlong
    simp only [if_neg hlong, ErrorCode.failed_success]
    exact ⟨ec, buffer, hrun, by rw [hec, hfit], fun _ => hbuffer hfit⟩

/-- **The first message of SCRAM is what its `serialize` writes to an empty buffer.** -/
theorem serialized_clientFirst (f : ScramSha256Fsm) (nonce writeBuffer : Bytes) :
    let reply := f.onInitWith (fun _ => (.success, nonce)) writeBuffer
    Serialized ((FrontendMessage.clientFirst scramSha256Name nonce).serialize []) []
      reply.ec.failed reply.writeBuffer := by
  obtain ⟨ec, buffer, hrun, hec, hbuffer⟩ :=
    FrontendMessage.clientFirst_spec scramSha256Name nonce []
  have hdata : ascii "n,,n=,r=" ++ nonce =
      ascii "n,," ++ ScramSha256Fsm.clientFirstMessageBare nonce := rfl
  have hlength : (ascii "n,,").length + (ScramSha256Fsm.clientFirstMessageBare nonce).length =
      nonce.length + 8 := by
    rw [← List.length_append]
    exact length_clientFirstText nonce
  unfold ScramSha256Fsm.onInitWith
  simp only [ErrorCode.failed_success, Bool.false_eq_true, if_false, hlength]
  by_cases hlong : nonce.length + 8 > int32Max
  · simp only [if_pos hlong, ClientErrc.failed_code]
    exact ⟨ec, buffer, hrun, hec.trans (decide_eq_true hlong), nofun⟩
  · have hfit : decide (nonce.length + 8 > int32Max) = false := decide_eq_false hlong
    have hbody : (FrontendMessage.clientFirst scramSha256Name nonce).body =
        ScramSha256Fsm.clientFirstPreamble (nonce.length + 8) ++
          ScramSha256Fsm.clientFirstMessageBare nonce := by
      simp only [FrontendMessage.body, FrontendMessage.layout, List.flatMap_cons, List.flatMap_nil,
        List.append_nil, WireField.enc, hdata, List.length_append, hlength]
      rw [← storeBigS32_eq (by omega)]
      simp only [ScramSha256Fsm.clientFirstPreamble, List.append_assoc]
      rfl
    simp only [if_neg hlong, ErrorCode.failed_success]
    refine ⟨ec, buffer, hrun, hec.trans hfit, fun _ => ?_⟩
    rw [hbuffer hfit, FrontendMessage.emitted, hbody]
    rfl

/-- The nonce of a run. -/
def clientNonce (ssl : OpenSsl) : Bytes := ScramSha256Fsm.drawnNonce {} ssl

/-- The first two messages of a login by SCRAM. -/
def startupMessage (params : ConnectParams) : LoginMessage :=
  .startup params.username params.database

def initialResponse (ssl : OpenSsl) : LoginMessage :=
  .saslInitialResponse scramSha256Name (ScramSha256Fsm.clientFirstMessage (clientNonce ssl))

theorem length_clientNonce_le (ssl : OpenSsl) : (clientNonce ssl).length ≤ 24 := by
  unfold clientNonce ScramSha256Fsm.drawnNonce generateNonce
  cases ssl.randBytes with
  | error code => exact Nat.zero_le _
  | ok raw =>
    have hlength : (Base64.encode raw.toList).length = 24 := by
      rw [Base64.length_encode, Vector.length_toList]
    exact Nat.le_of_eq hlength

theorem fits_initialResponse (ssl : OpenSsl) : (initialResponse ssl).Fits := by
  have hname : (addString scramSha256Name).length = 14 := by decide
  have hlength : (initialResponse ssl).body.length = 26 + (clientNonce ssl).length := by
    unfold initialResponse LoginMessage.body ScramSha256Fsm.clientFirstMessage
      ScramSha256Fsm.clientFirstMessageBare
    simp only [List.length_append, hname, length_storeBigS32]
    have htexts : (ascii "n,,").length = 3 ∧ (ascii "n=,r=").length = 5 := by decide
    omega
  have hnonce := length_clientNonce_le ssl
  unfold LoginMessage.Fits
  rw [hlength]
  have hmax : int32Max = 2147483647 := rfl
  omega

/-- A `server-first-message` that answers the client's nonce, with a lawful iteration count. -/
def AnswersNonce (nonce data : Bytes) (msg : ServerFirstMessage) : Prop :=
  (∃ saltText countText ext, ServerFirst data saltText countText ext msg) ∧
    nonce <+: msg.nonce ∧ 1 ≤ msg.iterationCount ∧ msg.iterationCount ≤ 65535

/-- **The writes a login can consist of.** -/
inductive Sent (ssl : OpenSsl) (params : ConnectParams) : List Write → Prop where
  | nothing : Sent ssl params []
  | startup : Sent ssl params [⟨[], (startupMessage params).wire⟩]
  | clientFirst {mechanisms} (hm : OffersScram mechanisms) :
      Sent ssl params [⟨[], (startupMessage params).wire⟩,
        ⟨[.authenticationSasl mechanisms], (initialResponse ssl).wire⟩]
  | clientFinal {mechanisms data msg} (proof : Sha256Digest) (hm : OffersScram mechanisms)
      (hs : AnswersNonce (clientNonce ssl) data msg) :
      Sent ssl params [⟨[], (startupMessage params).wire⟩,
        ⟨[.authenticationSasl mechanisms], (initialResponse ssl).wire⟩,
        ⟨[.authenticationSasl mechanisms, .authenticationSaslContinue data],
          (LoginMessage.saslResponse (ScramSha256Fsm.clientFinalMessage msg.nonce proof)).wire⟩]

section
variable {ssl : OpenSsl} {params : ConnectParams} {ws : List Write} {w : Write}

theorem Sent.buffers (h : Sent ssl params ws) :
    ∃ data, ws.map Write.buffer <+: [(startupMessage params).wire, (initialResponse ssl).wire,
      (LoginMessage.saslResponse data).wire] := by
  cases h with
  | nothing => exact ⟨[], List.nil_prefix⟩
  | startup => exact ⟨[], [_, _], rfl⟩
  | clientFirst _ => exact ⟨[], [_], rfl⟩
  | clientFinal proof _ _ => exact ⟨_, [], rfl⟩

theorem Sent.second (h : Sent ssl params ws) (hw : ws[1]? = some w) :
    ∃ mechanisms, w.seen = [.authenticationSasl mechanisms] ∧ OffersScram mechanisms := by
  cases h with
  | nothing | startup => cases hw
  | clientFirst hm | clientFinal _ hm _ =>
    cases hw
    exact ⟨_, rfl, hm⟩

theorem Sent.third (h : Sent ssl params ws) (hw : ws[2]? = some w) :
    ∃ mechanisms data msg proof,
      w.seen = [.authenticationSasl mechanisms, .authenticationSaslContinue data] ∧
      AnswersNonce (clientNonce ssl) data msg ∧
      w.buffer = (LoginMessage.saslResponse
        (ScramSha256Fsm.clientFinalMessage msg.nonce proof)).wire := by
  cases h with
  | nothing | startup | clientFirst _ => cases hw
  | clientFinal proof _ hs =>
    cases hw
    exact ⟨_, _, _, proof, rfl, hs, rfl⟩

end

section
variable (ssl : OpenSsl) (params : ConnectParams) (st : ConnectionState) (diag : Diagnostics)
  (msgs : List AnyBackendMessage)

theorem writes_sent : Sent ssl params (writes ssl [] (start ssl params st diag) msgs) := by
  rw [writes_start]
  split
  · exact .nothing
  · rename_i hstartup
    rw [(serializeStartup_wire params (eq_false_of_ne_true hstartup)).1]
    rcases @writes_readAuth ssl [] msgs (sentStartup params st diag) rfl with
      h | ⟨mechanisms, rest, rfl, hs, hec⟩
    · rw [h]
      exact .startup
    · obtain ⟨hnonce, hbuffer, _⟩ := ScramSha256Fsm.onInit_ok hec
      rw [writes_sasl rfl hs hec, hbuffer]
      rcases @writes_readContinue ssl [.authenticationSasl mechanisms] rest
        ((sentStartup params st diag).sentClientFirst ssl) rfl with
        h | ⟨data, rest, r, rfl, hr, hrec, h⟩
      · rw [List.nil_append, h]
        exact .clientFirst (offersScram_of_supports hs)
      · obtain ⟨msg, hoffer, _, _, hwrite⟩ := ScramSha256Fsm.onServerFirst_ok hr hrec
        rw [List.nil_append, h, hwrite]
        refine .clientFinal _ (offersScram_of_supports hs) ⟨parseServerFirst_ok.mp hoffer.parsed, ?_,
          hoffer.iterations⟩
        have hprefix := hoffer.nonce_extends
        rwa [show ((sentStartup params st diag).sentClientFirst ssl).fsm.scramFsm.nonce =
          clientNonce ssl from hnonce] at hprefix

/-- The first two writes, and when they are made, are the same for every password. -/
theorem writes_password (password : Bytes) :
    (writes ssl [] (start ssl { params with password } st diag) msgs).take 2 =
      (writes ssl [] (start ssl params st diag) msgs).take 2 := by
  rw [writes_start, writes_start]
  have hsame : serializeStartup { params with password } = serializeStartup params := rfl
  rw [hsame]
  split
  · rfl
  · rw [List.take_succ_cons, List.take_succ_cons]
    exact congrArg _ (writes_readAuth_same rfl rfl rfl rfl)

/-- **Every write is one frame**, a SASLResponse that is too long for its length excepted. -/
theorem writes_framed {w : Write} (hw : w ∈ writes ssl [] (start ssl params st diag) msgs) :
    (∃ m : LoginMessage, m.Fits ∧ w.buffer = m.frame) ∨
      ∃ data, int32Max < data.length + 4 ∧ w.buffer = [112, 0, 0, 0, 0] ++ data := by
  have hfirst : (startupMessage params).Fits := by
    rw [writes_start] at hw
    split at hw
    · cases hw
    · rename_i hok
      exact (serializeStartup_wire params (eq_false_of_ne_true hok)).2
  have hframe : ∀ {m : LoginMessage}, m.Fits → w.buffer = m.wire →
      ∃ m : LoginMessage, m.Fits ∧ w.buffer = m.frame :=
    fun hm hbuffer => ⟨_, hm, hbuffer.trans (LoginMessage.wire_of_fits hm)⟩
  have hsecond := fits_initialResponse ssl
  have hthird : ∀ {data : Bytes}, w.buffer = (LoginMessage.saslResponse data).wire →
      (∃ m : LoginMessage, m.Fits ∧ w.buffer = m.frame) ∨
        ∃ data, int32Max < data.length + 4 ∧ w.buffer = [112, 0, 0, 0, 0] ++ data := by
    intro data hbuffer
    by_cases hlong : int32Max < data.length + 4
    · refine .inr ⟨data, hlong, hbuffer.trans ?_⟩
      unfold LoginMessage.wire LoginMessage.body finalizeMessage
      simp only [if_pos hlong]
      rfl
    · exact .inl (hframe (m := .saslResponse data) (Nat.not_lt.mp hlong) hbuffer)
  generalize hall : writes ssl [] (start ssl params st diag) msgs = ws at hw
  have hsent := hall ▸ writes_sent ssl params st diag msgs
  cases hsent with
  | nothing => cases hw
  | startup =>
    rw [List.mem_singleton.mp hw] at hframe ⊢
    exact .inl (hframe hfirst rfl)
  | clientFirst _ =>
    rcases List.mem_cons.mp hw with rfl | hw
    · exact .inl (hframe hfirst rfl)
    · rw [List.mem_singleton.mp hw] at hframe ⊢
      exact .inl (hframe hsecond rfl)
  | clientFinal _ _ _ =>
    rcases List.mem_cons.mp hw with rfl | hw
    · exact .inl (hframe hfirst rfl)
    · rcases List.mem_cons.mp hw with rfl | hw
      · exact .inl (hframe hsecond rfl)
      · rw [List.mem_singleton.mp hw] at hthird ⊢
        exact hthird rfl

end

end StartupFsmImpl

end NativePg
