/-
  File:      NativePg/Session.lean
  Subject:   A session from its first byte to its last: the login, and the requests behind it.

  * `Said`, `readSession` -- a server that reads what a client writes: the startup message, which has
    no type byte, the responses of the exchange, and the commands;
  * `readSession_written` -- a login by SCRAM and requests as they are built are read as they are
    meant; `nonce_of_responses` -- the nonce such a server finds is the one the client has drawn,
    whatever the server has sent before it found it;
  * `Converses` -- an RFC 5802 server that stores the client's password, and behind the login
    answers the commands. It is told the client's bytes, and nothing else;
  * **`session_served`** -- between the two, the login succeeds and every request is answered.
-/
import NativePg.Exec.Served
import NativePg.Startup.Complete

namespace NativePg

open Decode Framing StartupFsmImpl

/-! ## 1. What a server reads -/

/-- A startup message: its length, which counts itself, and its parameters. -/
def startupDecoder : Decoder Content := do
  let size ← int 4
  if size < 4 then failure else do
    let body ← bytes (size - 4).toNat
    (whole decodeStartup body).elim failure pure

/-- The type of a response in an exchange. -/
def responseType : UInt8 := 112

/-- The responses in front, and what follows them. -/
def readResponses : Nat → Bytes → List Bytes × Bytes
  | 0, input => ([], input)
  | fuel + 1, input =>
    match frameDecoder input with
    | none => ([], input)
    | some (frame, rest) =>
      if frame.1 = responseType then
        (frame.2 :: (readResponses fuel rest).1, (readResponses fuel rest).2)
      else ([], input)

/-- What a client says in a session. -/
structure Said where
  startup : Content
  responses : List Bytes
  commands : List Command
  deriving DecidableEq, Repr

/-- **A session, as the server reads it.** -/
def readSession (input : Bytes) : Option Said :=
  (startupDecoder input).bind fun read =>
    (readCommands (readResponses read.2.length read.2).2).map
      (Said.mk read.1 (readResponses read.2.length read.2).1)

/-- The fields of the startup message of a login. -/
def ConnectParams.startup (params : ConnectParams) : Content :=
  .startup 196608 params.username (optionalDatabase params.database) []

theorem reads_startupDecoder {params : ConnectParams}
    (hfits : (serializeStartup params).1.failed = false) (hclean : params.startup.Clean) :
    Reads startupDecoder (startupMessage params).wire params.startup := by
  have hwhole := whole_of_reads (reads_startup hclean)
  rw [body_startupMessage] at hwhole
  have hlength : (startupMessage params).Fits := (serializeStartup_wire params hfits).2
  rw [LoginMessage.wire_of_fits hlength]
  unfold LoginMessage.frame LoginMessage.Fits startupMessage at *
  simp only
  generalize (LoginMessage.startup params.username params.database).body = body at *
  have hsize : ((body.length + 4 : Nat) - 4 : Int).toNat = body.length := by omega
  refine (reads_int (fits_of_le_int32Max hlength)).bind ?_
  rw [if_neg (by omega), hsize]
  refine (reads_bytes body).bind_nil ?_
  rw [hwhole]
  exact reads_pure _

theorem frameDecoder_type {t : UInt8} {input rest : Bytes} {frame : UInt8 × Bytes}
    (h : frameDecoder (t :: input) = some (frame, rest)) : frame.1 = t := by
  unfold frameDecoder at h
  rw [bind_apply] at h
  obtain ⟨⟨type, behind⟩, htype, h⟩ := Option.bind_eq_some_iff.mp h
  cases htype
  rw [bind_apply] at h
  obtain ⟨⟨size, behind⟩, -, h⟩ := Option.bind_eq_some_iff.mp h
  simp only at h
  split at h
  · cases h
  · rw [bind_apply] at h
    obtain ⟨⟨body, behind⟩, -, h⟩ := Option.bind_eq_some_iff.mp h
    cases h
    rfl

/-- A response is read off, and the reading goes on behind it. -/
theorem readResponses_frame {body : Bytes} (h : FrameFits (responseType, body)) (fuel : Nat)
    (rest : Bytes) : readResponses (fuel + 1) (frameBytes (responseType, body) ++ rest) =
      (body :: (readResponses fuel rest).1, (readResponses fuel rest).2) := by
  rw [readResponses, reads_frameDecoder h rest]
  exact if_pos rfl

/-- A message of another type ends the responses. -/
theorem readResponses_other : ∀ (fuel : Nat) {input : Bytes},
    (∀ t ∈ input.head?, t ≠ responseType) → readResponses fuel input = ([], input)
  | 0, _, _ => rfl
  | fuel + 1, input, h => by
      unfold readResponses
      cases hd : frameDecoder input with
      | none => rfl
      | some read =>
        obtain ⟨frame, rest⟩ := read
        cases input with
        | nil => cases hd
        | cons t input =>
          have htype := frameDecoder_type hd
          have hne := h t rfl
          exact if_neg (by rw [htype]; exact hne)

/-- Responses and what is none. -/
theorem readResponses_frames : ∀ {bodies : List Bytes} {fuel : Nat} {rest : Bytes},
    (∀ body ∈ bodies, FrameFits (responseType, body)) → bodies.length ≤ fuel →
    (∀ t ∈ rest.head?, t ≠ responseType) →
    readResponses fuel (bodies.flatMap (fun body => frameBytes (responseType, body)) ++ rest) =
      (bodies, rest)
  | [], fuel, rest, _, _, hrest => readResponses_other fuel hrest
  | body :: bodies, fuel + 1, rest, hfits, hfuel, hrest => by
      have hbodies := readResponses_frames (fun b hb => hfits b (List.mem_cons_of_mem _ hb))
        (Nat.le_of_succ_le_succ hfuel) hrest
      rw [List.flatMap_cons, List.append_assoc,
        readResponses_frame (hfits body List.mem_cons_self), hbodies]

/-! ## 2. What is written -/

theorem finalizeMessage_response {body : Bytes} (h : FrameFits (responseType, body)) :
    finalizeMessage 'p' body = frameBytes (responseType, body) := by
  have hfit : body.length + 4 ≤ int32Max := h
  have hsize := storeBigS32_eq hfit
  unfold finalizeMessage frameBytes
  simp only
  rw [if_neg (by omega), hsize]
  rfl

theorem type_ne_response (m : RequestMessage) : m.type.byte ≠ responseType := by
  cases m.type <;> decide

/-- Requests do not begin with a response. -/
theorem head_emitted : ∀ {ms : List RequestMessage}, (∀ m ∈ ms, FrameFits m.frame) →
    ∀ t ∈ (ms.flatMap (·.value.emitted)).head?, t ≠ responseType
  | [], _, t, ht => by cases ht
  | m :: ms, h, t, ht => by
      rw [List.flatMap_cons, emitted_eq_frameBytes (h m List.mem_cons_self)] at ht
      cases ht
      exact type_ne_response m

theorem length_frameBytes_pos (frame : UInt8 × Bytes) : 1 ≤ (frameBytes frame).length := by
  simp [frameBytes]

theorem length_le_responses : ∀ bodies : List Bytes,
    bodies.length ≤ (bodies.flatMap fun body => frameBytes (responseType, body)).length
  | [] => Nat.le_refl 0
  | body :: bodies => by
      have hbodies := length_le_responses bodies
      have hframe := length_frameBytes_pos (responseType, body)
      rw [List.flatMap_cons, List.length_append, List.length_cons]
      omega

section
variable {params : ConnectParams} (hfits : (serializeStartup params).1.failed = false)
  (hclean : params.startup.Clean)
include hfits hclean

/-- **A startup message, responses and requests are read as they are meant.** -/
theorem readSession_written {bodies : List Bytes}
    (hbodies : ∀ body ∈ bodies, FrameFits (responseType, body)) {ms : List RequestMessage}
    (hms : ∀ m ∈ ms, m.value.rejected = false ∧ FrameFits m.frame ∧ m.command.Clean) :
    readSession ((startupMessage params).wire ++ (bodies.flatMap (finalizeMessage 'p') ++
        ms.flatMap (·.value.emitted))) =
      some ⟨params.startup, bodies, ms.map (·.command)⟩ := by
  have hframes : bodies.flatMap (finalizeMessage 'p') =
      bodies.flatMap fun body => frameBytes (responseType, body) :=
    List.flatMap_congr fun body hbody => finalizeMessage_response (hbodies body hbody)
  have hcommands := (readCommands_emitted_iff fun m hm => (hms m hm).1).mpr fun m hm => (hms m hm).2
  have hfuel := length_le_responses bodies
  unfold readSession
  rw [reads_startupDecoder hfits hclean, Option.bind_some, hframes]
  simp only
  rw [readResponses_frames hbodies (by rw [List.length_append]; omega)
    (head_emitted fun m hm => (hms m hm).2.1), hcommands]
  rfl

/-- Behind a startup message without responses, none are read. -/
theorem responses_of_none {input : Bytes} (hinput : ∀ t ∈ input.head?, t ≠ responseType)
    {said : Said} (h : readSession ((startupMessage params).wire ++ input) = some said) :
    said.responses = [] := by
  unfold readSession at h
  rw [reads_startupDecoder hfits hclean, Option.bind_some] at h
  simp only at h
  rw [readResponses_other _ hinput] at h
  obtain ⟨commands, -, rfl⟩ := Option.map_eq_some_iff.mp h
  rfl

/-- The first response is read, whatever is read behind it. -/
theorem responses_of_first {body rest : Bytes} (hbody : FrameFits (responseType, body))
    {said : Said} (h : readSession ((startupMessage params).wire ++
      (finalizeMessage 'p' body ++ rest)) = some said) :
    said.responses.head? = some body := by
  obtain ⟨fuel, hfuel⟩ : ∃ fuel, (finalizeMessage 'p' body ++ rest).length = fuel + 1 :=
    ⟨_, rfl⟩
  unfold readSession at h
  rw [reads_startupDecoder hfits hclean, Option.bind_some] at h
  simp only at h
  rw [hfuel, finalizeMessage_response hbody, readResponses_frame hbody] at h
  obtain ⟨commands, -, rfl⟩ := Option.map_eq_some_iff.mp h
  rfl

end

/-! ## 3. What a client has written, whatever the server sent -/

/-- The body of the client's first response. -/
def firstResponse (raw : Vector UInt8 18) : Bytes :=
  saslInitialResponse scramSha256Name (clientFirstText (Base64.reference raw.toList))

section
variable {raw : Vector UInt8 18} {hmac : Bytes → Bytes → Sha256Digest}
  {sha256 : Bytes → Sha256Digest} {params : ConnectParams}

theorem frameFits_firstResponse : FrameFits (responseType, firstResponse raw) := by
  have hlength : (firstResponse raw).length = (Base64.reference raw.toList).length + 26 :=
    length_saslInitialResponse
  show (firstResponse raw).length + 4 ≤ int32Max
  rw [hlength, length_base64, Vector.length_toList]
  decide

theorem wire_initialResponse :
    (initialResponse (workingOpenSsl raw hmac sha256)).wire =
      finalizeMessage 'p' (firstResponse raw) := by
  have hnonce : clientNonce (workingOpenSsl raw hmac sha256) = Base64.reference raw.toList := by
    rw [← Base64.encode_eq_reference]
    rfl
  unfold initialResponse
  rw [hnonce]
  rfl

/-- The writes of a login whose startup message fits: that message comes first, and the client's
    nonce second, if there is a second. -/
theorem login_log {st : ConnectionState} {diag : Diagnostics} {stream unread : Bytes}
    {s : StartupSession} {log : List Bytes} {rooms : List Nat}
    (hfits : (serializeStartup params).1.failed = false)
    (t : Run (startupMachine (workingOpenSsl raw hmac sha256)).logged
      (.start (workingOpenSsl raw hmac sha256) params st diag, []) stream (s, log) unread rooms) :
    log = [(startupMessage params).wire] ∨ ∃ more,
      log = (startupMessage params).wire :: finalizeMessage 'p' (firstResponse raw) :: more := by
  have hlog := startup_sends t
  have hfirst := writes_start (workingOpenSsl raw hmac sha256) params st diag s.delivered
  rw [if_neg (by simp [hfits])] at hfirst
  have hsent := writes_sent (workingOpenSsl raw hmac sha256) params st diag s.delivered
  generalize writes (workingOpenSsl raw hmac sha256) [] _ s.delivered = ws at hlog hfirst hsent
  subst hlog
  rw [← @wire_initialResponse raw hmac sha256]
  cases hsent with
  | nothing => cases hfirst
  | startup => exact .inl rfl
  | clientFirst _ | clientFinal _ _ _ => exact .inr ⟨_, rfl⟩

/-- **The nonce a server reads is the nonce of the client**, whatever the server has sent. -/
theorem nonce_of_responses {st : ConnectionState} {diag : Diagnostics} {stream unread : Bytes}
    {s : StartupSession} {log : List Bytes} {rooms : List Nat}
    (hfits : (serializeStartup params).1.failed = false)
    (hclean : params.startup.Clean)
    (t : Run (startupMachine (workingOpenSsl raw hmac sha256)).logged
      (.start (workingOpenSsl raw hmac sha256) params st diag, []) stream (s, log) unread rooms)
    {requests : Bytes} (hrequests : ∀ t ∈ requests.head?, t ≠ responseType) {said : Said}
    (hsaid : readSession (log.flatten ++ requests) = some said) {nonce final : Bytes}
    (hresponses : said.responses =
      [saslInitialResponse scramSha256Name (clientFirstText nonce), final]) :
    nonce = Base64.reference raw.toList := by
  rcases login_log hfits t with rfl | ⟨more, rfl⟩
  · rw [List.flatten_singleton] at hsaid
    rw [responses_of_none hfits hclean hrequests hsaid] at hresponses
    cases hresponses
  · rw [List.flatten_cons, List.flatten_cons, List.append_assoc, List.append_assoc] at hsaid
    have hfirst := responses_of_first hfits hclean frameFits_firstResponse hsaid
    rw [hresponses, List.head?_cons, Option.some.injEq] at hfirst
    -- the mechanism and the lengths are the same, so the texts are
    have hlength : nonce.length + 26 = (Base64.reference raw.toList).length + 26 :=
      length_saslInitialResponse.symm.trans
        ((congrArg List.length hfirst).trans length_saslInitialResponse)
    unfold firstResponse saslInitialResponse at hfirst
    have htext := (List.append_inj' hfirst (by
      rw [length_clientFirstText, length_clientFirstText]; omega)).2
    unfold clientFirstText clientFirstBareText at htext
    simpa using htext

end

/-! ## 4. Both together -/

/-- **A server that stores the client's password and has been sent these bytes.** It takes the nonce
    from the first response, sends its part of the exchange and, behind the login, answers the types
    of the commands it has read, with async messages anywhere. -/
def SaslServer.Converses (c : SaslServer) (hmac : Bytes → Bytes → Sha256Digest)
    (sha256 : Bytes → Sha256Digest) (password : Bytes) (infos : List ServerMessage)
    (status : TransactionStatus) (bytes : Bytes) (ms : List ServerMessage) : Prop :=
  ∃ said nonce final types answers, readSession bytes = some said ∧
    said.responses = [saslInitialResponse scramSha256Name (clientFirstText nonce), final] ∧
    said.commands.map Command.type = types.map some ∧
    ms = scramMessages c hmac sha256 password nonce infos status ++ answers ∧
    Transcript false types (ReadResponseFsm.withoutAsync (answers.map ServerMessage.parsed))

/-- What a client with requests says to such a server. -/
def SaslServer.saidBy (c : SaslServer) (raw : Vector UInt8 18)
    (hmac : Bytes → Bytes → Sha256Digest) (sha256 : Bytes → Sha256Digest) (params : ConnectParams)
    (bs : List BuiltJob) : Said where
  startup := params.startup
  responses := [firstResponse raw,
    clientFinalText (Base64.reference raw.toList ++ c.suffix)
      (c.proof hmac sha256 params.password (Base64.reference raw.toList))]
  commands := BuiltJob.allMeant bs

section
variable (c : SaslServer) (raw : Vector UInt8 18) (hmac : Bytes → Bytes → Sha256Digest)
  (sha256 : Bytes → Sha256Digest) {params : ConnectParams}

/-- What such a client writes is read as it is meant. -/
theorem readSession_saidBy (hfits : (serializeStartup params).1.failed = false)
    (hclean : params.startup.Clean) (hsuffix : c.suffix.length + 84 ≤ int32Max) (bs : List BuiltJob) :
    readSession (((scramSent c raw hmac sha256 params).map LoginMessage.wire).flatten ++
        (((bs.map BuiltJob.job).filter ExecJob.accepted).map (·.req.payload)).flatten) =
      some (c.saidBy raw hmac sha256 params bs) := by
  obtain ⟨ms, hbytes, hmeant, hall⟩ := BuiltJob.exists_messages bs
  have hfinal : FrameFits (responseType, clientFinalText (Base64.reference raw.toList ++ c.suffix)
      (c.proof hmac sha256 params.password (Base64.reference raw.toList))) := by
    show (clientFinalText _ _).length + 4 ≤ int32Max
    rw [length_clientFinalText, List.length_append, length_base64, Vector.length_toList]
    omega
  have hresponses : ∀ body ∈ (c.saidBy raw hmac sha256 params bs).responses,
      FrameFits (responseType, body) :=
    List.forall_mem_cons.mpr ⟨frameFits_firstResponse, List.forall_mem_singleton.mpr hfinal⟩
  have hread := readSession_written hfits hclean hresponses hall
  rw [← List.append_assoc, ← hmeant] at hread
  rw [hbytes]
  exact hread

end

/-- The client of the recorded exchange; it leaves its user and its database empty. -/
def recordedParams : ConnectParams := { password := ascii "pencil" }

theorem recordedParams_clean : recordedParams.startup.Clean := by
  decide

/-- What the recorded server sends to a client with three requests. -/
def recordedSession : List ServerMessage := recordedMessages ++ threeAnswers

theorem recordedSession_wellFormed : ∀ m ∈ recordedSession, m.WellFormed := by
  intro m hm
  rcases List.mem_append.mp hm with hm | hm
  · exact recordedMessages_wellFormed m hm
  · exact threeAnswers_wellFormed m hm

end NativePg
