/-
  File:      NativePg/Startup/Sends.lean
  Subject:   What the client sends during a login, whatever bytes the server sends and however they
             arrive.

  * `upcoming` -- the writes of a session that are still to come, where it is handed some messages;
  * `loop_upcoming` -- the loop of the coroutine hands the machine what is in the buffer, and stops
    at the next write;
  * `Sending` -- a session with the log of its writes: the log and what is to come are the writes
    of the machine over messages;
  * `startup_sends` -- a run has written what the machine over its messages writes;
  * **`login_bytes_sent`** -- so what is known of the writes of that machine is known of the bytes;
  * **`login_writes`** -- what the machine writes over any messages, and that a run hands it nothing
    behind the one it has ended with.
-/
import NativePg.Protocol.Wire
import NativePg.Startup.Reading
import NativePg.Startup.Writes

namespace NativePg

open Framing StartupFsmImpl

namespace StartupFsmImpl

variable {ssl : OpenSsl}

/-- What is written does not depend on the read buffer. -/
theorem writes_withBuffer (rb : ReadBuffer) : ∀ (msgs seen : List AnyBackendMessage) (r : Reply),
    writes ssl seen (r.withBuffer rb) msgs = writes ssl seen r msgs
  | [], _, _ => rfl
  | msg :: msgs, seen, r => by
      have hwritten : (r.withBuffer rb).written seen = r.written seen := rfl
      have hresult : ((settle ssl r).withBuffer rb).result = (settle ssl r).result := rfl
      have hresume : ((settle ssl r).withBuffer rb).toData.resume ssl msg =
          ((settle ssl r).toData.resume ssl msg).withBuffer rb :=
        resume_withBuffer (settle ssl r).toData ssl msg rb
      unfold writes
      rw [hwritten, settle_withBuffer, hresult, hresume, writes_withBuffer rb msgs]

theorem mem_written {r : Reply} {seen : List AnyBackendMessage} {w : Write}
    (h : w ∈ r.written seen) : w.seen = seen := by
  unfold Reply.written at h
  split at h
  · rw [List.mem_singleton.mp h]
  · cases h

/-- Every write is made behind some of the messages. -/
theorem writes_seen : ∀ (msgs seen : List AnyBackendMessage) (r : Reply) {w : Write},
    w ∈ writes ssl seen r msgs → w.seen <+: seen ++ msgs
  | [], seen, r, w, h => by
      rw [mem_written h]
      exact List.prefix_append ..
  | msg :: msgs, seen, r, w, h => by
      unfold writes at h
      rcases List.mem_append.mp h with h | h
      · rw [mem_written h]
        exact List.prefix_append ..
      · split at h
        · have hseen := writes_seen msgs (seen ++ [msg]) _ h
          rwa [List.append_assoc] at hseen
        · cases h

end StartupFsmImpl

/-! ## 1. What is still to be written -/

namespace StartupSession

/-- The writes still to come, where the machine is handed `msgs`. -/
def upcoming (ssl : OpenSsl) (s : StartupSession) (msgs : List AnyBackendMessage) : List Bytes :=
  match s.action with
  | .done _ => []
  | .read _ => (writes ssl s.delivered ⟨s.data, .ok .read⟩ msgs).map Write.buffer
  | .write _ => (writes ssl s.delivered ⟨s.data, .ok .write⟩ msgs).map Write.buffer

variable {ssl : OpenSsl} {s : StartupSession}

theorem upcoming_done {r : Checked ErrorCode} (h : s.action = .done r)
    (msgs : List AnyBackendMessage) : s.upcoming ssl msgs = [] := by
  simp only [upcoming, h]

theorem upcoming_read {room : Nat} (h : s.action = .read room) (msgs : List AnyBackendMessage) :
    s.upcoming ssl msgs =
      (writes ssl s.delivered ⟨s.data, .ok .read⟩ msgs).map Write.buffer := by
  simp only [upcoming, h]

theorem upcoming_write {bytes : Bytes} (h : s.action = .write bytes)
    (msgs : List AnyBackendMessage) : s.upcoming ssl msgs =
      (writes ssl s.delivered ⟨s.data, .ok .write⟩ msgs).map Write.buffer := by
  simp only [upcoming, h]

/-- **The loop writes nothing itself**: behind it the writes to come are those that were to come
    before it, without the messages it has handed in. A session that has ended is handed no more. -/
theorem loop_upcoming (r : Reply) (s : StartupSession) (msgs : List AnyBackendMessage)
    (hdone : ∀ x, (s.next (StartupFsm.loop ssl r)).action = .done x → msgs = []) :
    (writes ssl s.delivered r ((StartupFsm.loop ssl r).delivered ++ msgs)).map Write.buffer =
      (s.next (StartupFsm.loop ssl r)).upcoming ssl msgs := by
  induction r using StartupFsm.taken_induction ssl generalizing s with
  | h r ih =>
    obtain ⟨d, result⟩ := r
    cases result with
    | error fault =>
      rw [StartupFsm.loop_fault ssl rfl] at hdone ⊢
      obtain rfl := hdone _ rfl
      rw [upcoming_done rfl]
      rfl
    | ok res =>
      cases res with
      | done ec =>
        rw [StartupFsm.loop_done ssl rfl] at hdone ⊢
        obtain rfl := hdone _ rfl
        rw [upcoming_done rfl]
        rfl
      | write =>
        rw [StartupFsm.loop_write ssl rfl, upcoming_write rfl]
        simp [next, data]
      | read =>
        cases h : nextMessage d.st.committed with
        | message msg size =>
          have hshift : ∀ r, s.next (StartupFsm.Reply.after msg r) =
              ({ s with delivered := s.delivered ++ [msg] } : StartupSession).next r := by
            intro r
            simp [next, StartupFsm.Reply.after]
          have htaken : writes ssl (s.delivered ++ [msg]) (d.resume ssl msg) =
              writes ssl (s.delivered ++ [msg]) (StartupFsm.taken ssl ⟨d, .ok .read⟩ msg size) :=
            funext fun _ => (writes_withBuffer _ _ _ _).symm
          rw [StartupFsm.loop_message ssl (r := ⟨d, .ok .read⟩) rfl h, hshift] at hdone ⊢
          have hloop := ih msg size h { s with delivered := s.delivered ++ [msg] } hdone
          rw [← hloop, ← htaken]
          rfl
        | needs size =>
          obtain ⟨rb, -, -, hloop⟩ := StartupFsm.loop_needs ssl (r := ⟨d, .ok .read⟩) rfl h
          rw [hloop, upcoming_read rfl]
          have hbuffer := @writes_withBuffer ssl rb msgs s.delivered ⟨d, .ok .read⟩
          simp only [next, data, List.append_nil, List.nil_append] at hbuffer ⊢
          rw [← hbuffer]
          rfl
        | bad ec =>
          rw [StartupFsm.loop_bad ssl (r := ⟨d, .ok .read⟩) rfl h] at hdone ⊢
          obtain rfl := hdone _ rfl
          rw [upcoming_done rfl]
          rfl

/-- A loop that asks for a write asks for the write buffer to be written. -/
theorem loop_writeBuffer {r : Reply} {bytes : Bytes}
    (h : (StartupFsm.loop ssl r).result = .ok (.write bytes)) :
    bytes = (StartupFsm.loop ssl r).st.writeBuffer := by
  fun_induction StartupFsm.loop ssl r
  case case3 =>
    cases h
    rfl
  case case4 ih => exact ih h
  all_goals cases h

/-- A session that has written goes on behind the write. -/
theorem wrote_eq {bytes : Bytes} (hs : s.Inv) (h : s.action = .write bytes) :
    ∃ point, Behind s.data.fsm.resumePoint point ∧ (startupMachine ssl).wrote s =
      s.next (StartupFsm.loop ssl (s.data.suspend point .read)) := by
  obtain ⟨hpoint, point, hb⟩ := hs.writing h
  refine ⟨point, hb, ?_⟩
  rw [← resume_of_behind hb ssl .none]
  simp [startupMachine, StartupFsm.resume, hpoint, data]

/-- A session that has received bytes goes on with the machine waiting. -/
theorem received_eq {room : Nat} (hs : s.Inv) (h : s.action = .read room) (chunk : Bytes) :
    (startupMachine ssl).received s chunk = s.next (StartupFsm.loop ssl
      ⟨s.data.withBuffer ((s.st.readBuffer.receive chunk).commit chunk.length), .ok .read⟩) := by
  simp [startupMachine, StartupFsm.resume, (hs.reading h).1, data, Data.withBuffer]

theorem action_write {bytes : Bytes} (h : s.action = .write bytes) :
    s.result = .ok (.write bytes) := by
  unfold action at h
  split at h
  · cases h
  · cases h
  · rename_i hres
    cases h
    exact hres
  · cases h

end StartupSession

/-! ## 2. A session with a log -/

/-- **The log of a session**: with what is still to come, it is what the machine over messages
    writes from `r` on. -/
structure Sending (ssl : OpenSsl) (r : Reply) (p : StartupSession × List Bytes) : Prop where
  inv : p.1.Inv
  buffer : ∀ {bytes}, p.1.action = .write bytes → bytes = p.1.st.writeBuffer
  log : ∀ msgs, (∀ x, p.1.action = .done x → msgs = []) →
    (writes ssl [] r (p.1.delivered ++ msgs)).map Write.buffer = p.2 ++ p.1.upcoming ssl msgs

section
variable {ssl : OpenSsl} {r : Reply} {p : StartupSession × List Bytes}

/-- The loop goes on with a machine whose writes are known. -/
theorem Sending.loop {s : StartupSession} {log : List Bytes} {r' : Reply}
    (hinv : (s.next (StartupFsm.loop ssl r')).Inv)
    (h : ∀ msgs, (writes ssl [] r (s.delivered ++ msgs)).map Write.buffer =
      log ++ (writes ssl s.delivered r' msgs).map Write.buffer) :
    Sending ssl r (s.next (StartupFsm.loop ssl r'), log) where
  inv := hinv
  buffer hw := StartupSession.loop_writeBuffer (StartupSession.action_write hw)
  log msgs hdone := by
    have hall := h ((StartupFsm.loop ssl r').delivered ++ msgs)
    rw [StartupSession.loop_upcoming r' s msgs hdone, ← List.append_assoc] at hall
    exact hall

theorem Sending.wrote {bytes : Bytes} (h : Sending ssl r p)
    (hw : (startupMachine ssl).logged.action p = .write bytes) :
    Sending ssl r ((startupMachine ssl).logged.wrote p) := by
  obtain ⟨s, log⟩ := p
  have hwrite : s.action = .write bytes := hw
  obtain ⟨point, hb, hnext⟩ := @StartupSession.wrote_eq ssl _ _ h.inv hwrite
  have hwrote : (startupMachine ssl).logged.wrote (s, log) =
      (s.next (StartupFsm.loop ssl (s.data.suspend point .read)), log ++ [bytes]) := by
    simp only [IoMachine.logged, hnext, show (startupMachine ssl).action s = .write bytes from hw]
  have hinv := (@StartupSession.wrote_spec ssl _ _ h.inv hwrite).1
  rw [hnext] at hinv
  rw [hwrote]
  refine .loop hinv fun msgs => ?_
  have hlog := h.log msgs fun x hx => by
    rw [show s.action = .done x from hx] at hwrite
    cases hwrite
  rw [hlog, StartupSession.upcoming_write hwrite, h.buffer hwrite, List.append_assoc]
  congr 1
  -- the machine stands behind the write already
  obtain ⟨fsm, st, diag, result, delivered⟩ := s
  have hsettle := @writes_write ssl delivered msgs ⟨fsm.impl, st, diag⟩ _ _ hb
  rw [List.singleton_append]
  exact congrArg (List.map Write.buffer) hsettle

theorem Sending.received {room : Nat} {chunk : Bytes} (h : Sending ssl r p)
    (hr : (startupMachine ssl).logged.action p = .read room) (hroom : chunk.length ≤ room) :
    Sending ssl r ((startupMachine ssl).logged.received p chunk) := by
  obtain ⟨s, log⟩ := p
  have hread : s.action = .read room := hr
  have hnext := @StartupSession.received_eq ssl _ _ h.inv hread chunk
  have hinv := (@StartupSession.received_spec ssl _ _ _ h.inv hread hroom).1
  have hreceived : (startupMachine ssl).logged.received (s, log) chunk =
      ((startupMachine ssl).received s chunk, log) := rfl
  rw [hnext] at hinv
  rw [hreceived, hnext]
  refine .loop hinv fun msgs => ?_
  have hlog := h.log msgs fun x hx => by
    rw [show s.action = .done x from hx] at hread
    cases hread
  rw [hlog, StartupSession.upcoming_read hread]
  exact congrArg (fun ws => log ++ List.map Write.buffer ws)
    (writes_withBuffer _ msgs s.delivered ⟨s.data, .ok .read⟩).symm

end

/-! ## 3. Runs -/

section
variable {ssl : OpenSsl} {params : ConnectParams} {st : ConnectionState} {diag : Diagnostics}

theorem Sending.start : Sending ssl (StartupFsmImpl.start ssl params st diag)
    (.start ssl params st diag, []) := by
  have hstart : StartupSession.start ssl params st diag =
      ({ fsm := { impl := { params } }, st, diag, result := .ok (.done .success) } :
        StartupSession).next
        (StartupFsm.loop ssl (StartupFsmImpl.start ssl params st diag)) := by
    simp [StartupSession.start, StartupSession.next, StartupFsm.resume, StartupFsmImpl.start]
  have hinv := (StartupSession.start_spec ssl params st diag).1
  rw [hstart] at hinv ⊢
  exact .loop hinv fun msgs => rfl

/-- **A run has written what the machine writes over the messages it was handed.** -/
theorem startup_sends {stream unread : Bytes} {s : StartupSession} {log : List Bytes}
    {rooms : List Nat}
    (t : Run (startupMachine ssl).logged (.start ssl params st diag, []) stream (s, log) unread
      rooms) :
    log = (writes ssl [] (StartupFsmImpl.start ssl params st diag) s.delivered).map
      Write.buffer := by
  have hend : Sending ssl (StartupFsmImpl.start ssl params st diag) (s, log) :=
    t.invariant Sending.wrote (fun h hr _ hroom => h.received hr hroom) .start
  have hlog := hend.log [] fun _ _ => rfl
  rw [List.append_nil] at hlog
  have hnothing : s.upcoming ssl [] = [] := by
    cases hact : s.action with
    | done x => exact StartupSession.upcoming_done hact []
    | read room => exact StartupSession.upcoming_read hact []
    | write bytes => exact absurd hact (t.stops bytes)
  rw [hlog, hnothing, List.append_nil]

/-- **What the client sends during a login, in bytes.** Whatever bytes there are to read, of a
    server or of anyone else, in the buffer or in reads of any size, and whatever OpenSSL does: the
    bytes begin with the messages that were handled; what has been written is none, one, two or all
    three of the startup message, SASLInitialResponse and SASLResponse, each whole and, where its
    length fits, in its frame; the second is written behind a request for SCRAM-SHA-256 only, and
    the third behind an answer to the nonce of just this login, with a lawful iteration count. Only
    the third can be too long for its length; its length is zero then. -/
theorem login_bytes_sent {stream unread : Bytes} {s : StartupSession} {log : List Bytes}
    {rooms : List Nat}
    (t : Run (startupMachine ssl).logged (.start ssl params st diag, []) stream (s, log) unread
      rooms) :
    (∃ used, st.committed ++ stream = used ++ (s.st.committed ++ unread) ∧
      Frames messageParser used s.delivered) ∧
    ∃ ws, Sent ssl params ws ∧ log = ws.map Write.buffer ∧ (∀ w ∈ ws, w.seen <+: s.delivered) ∧
      ∀ w ∈ ws, (∃ m : LoginMessage, m.Fits ∧ w.buffer = m.frame) ∨
        ∃ data, int32Max < data.length + 4 ∧ w.buffer = [112, 0, 0, 0, 0] ++ data := by
  refine ⟨(startup_readsAs t.of_logged).frames, _, writes_sent ssl params st diag s.delivered,
    startup_sends t, fun w hw => ?_, fun w hw => writes_framed ssl params st diag _ hw⟩
  exact writes_seen s.delivered [] _ hw

end

/-- An OpenSSL that works, and draws the nonce of a recorded exchange. -/
def recordedOpenSsl : OpenSsl := workingOpenSsl recordedRaw recordedHmac recordedSha256

/-- The server asks for SCRAM-SHA-256 and then for nothing more; the answer fits one frame. -/
theorem login_bytes_sent_sasl : ∃ s log unread rooms,
    Run (startupMachine recordedOpenSsl).logged (.start recordedOpenSsl {} {} [], [])
      (ServerMessage.wire (.plain (.authenticationSasl [scramSha256Name]))) (s, log) unread rooms ∧
    (∃ used, (ServerMessage.wire (.plain (.authenticationSasl [scramSha256Name]))) =
      used ++ (s.st.committed ++ unread) ∧ Frames messageParser used s.delivered) ∧
    ∃ ws, Sent recordedOpenSsl {} ws ∧ log = ws.map Write.buffer ∧
      ∀ w ∈ ws, w.seen <+: s.delivered := by
  obtain ⟨s, unread, rooms, t⟩ := startup_run_exists recordedOpenSsl {} {} []
    (ServerMessage.wire (.plain (.authenticationSasl [scramSha256Name])))
  obtain ⟨log, t⟩ := t.logged []
  obtain ⟨hused, ws, hsent, hlog, hseen, -⟩ := login_bytes_sent t
  exact ⟨s, log, unread, rooms, t, hused, ws, hsent, hlog, hseen⟩

/-! ## 4. Any messages -/

namespace StartupFsmImpl

section
variable (ssl : OpenSsl) (params : ConnectParams) (st : ConnectionState) (diag : Diagnostics)
  (msgs : List AnyBackendMessage)

/-- **What the client sends during a login.** Whatever the server sends, the writes are a prefix of
    the startup message, SASLInitialResponse and SASLResponse. The second is written only behind an
    AuthenticationSASL that offers SCRAM-SHA-256, and like the first does not depend on the
    password; the third only behind an AuthenticationSASLContinue whose nonce begins with the one
    the client has drawn in this run, with an iteration count of 1 to 65535. And whatever bytes a
    run of the coroutine reads, it has written what the machine writes over the messages it was
    handed, and it was handed nothing behind the message with which it returned `done`. -/
theorem login_writes :
    (∃ data, (writes ssl [] (start ssl params st diag) msgs).map Write.buffer <+:
      [(startupMessage params).wire, (initialResponse ssl).wire,
        (LoginMessage.saslResponse data).wire]) ∧
    (∀ w, (writes ssl [] (start ssl params st diag) msgs)[1]? = some w →
      ∃ mechanisms, w.seen = [.authenticationSasl mechanisms] ∧ OffersScram mechanisms) ∧
    (∀ password, (writes ssl [] (start ssl { params with password } st diag) msgs).take 2 =
      (writes ssl [] (start ssl params st diag) msgs).take 2) ∧
    (∀ w, (writes ssl [] (start ssl params st diag) msgs)[2]? = some w →
      ∃ mechanisms data msg proof,
        w.seen = [.authenticationSasl mechanisms, .authenticationSaslContinue data] ∧
        AnswersNonce (clientNonce ssl) data msg ∧
        w.buffer = (LoginMessage.saslResponse
          (ScramSha256Fsm.clientFinalMessage msg.nonce proof)).wire) ∧
    (∀ stream unread s log rooms,
      Run (startupMachine ssl).logged (.start ssl params st diag, []) stream (s, log) unread rooms →
      log = (writes ssl [] (start ssl params st diag) s.delivered).map Write.buffer ∧
      ∀ pre post d ec left, s.delivered = pre ++ post →
        feed ssl (start ssl params st diag) pre = .ok ⟨d, some ec, left⟩ → post = []) := by
  have hsent := writes_sent ssl params st diag msgs
  refine ⟨hsent.buffers, fun w hw => hsent.second hw, writes_password ssl params st diag msgs,
    fun w hw => hsent.third hw, fun stream unread s log rooms t => ⟨startup_sends t, ?_⟩⟩
  intro pre post d ec left hdelivered hfeed
  exact startup_stops t.of_logged hdelivered hfeed

end

/-- A server that asks for SCRAM-SHA-256, answers the client's nonce, and then refuses the login. -/
def scramRefusal : List ServerMessage :=
  [.plain (.authenticationSasl [scramSha256Name]),
    .plain (.authenticationSaslContinue recordedServerFirst),
    .error [(83, ascii "FATAL"), (67, ascii "28P01")]]

/-- It asks once more. -/
def scramInsisting : List ServerMessage :=
  scramRefusal ++ [.plain (.authenticationSasl [scramSha256Name])]

/-- The client writes all three messages, and does not look at what it is sent behind the refusal. -/
theorem login_writes_refused :
    ∃ s log unread rooms, Run (startupMachine recordedOpenSsl).logged
        (.start recordedOpenSsl { password := ascii "pencil" } {} [], [])
        (scramInsisting.flatMap ServerMessage.wire) (s, log) unread rooms ∧
      s.delivered = scramRefusal.map ServerMessage.parsed ∧ log.length = 3 ∧
      ∃ data msg proof, AnswersNonce (clientNonce recordedOpenSsl) data msg ∧
        log[2]? = some (LoginMessage.saslResponse
          (ScramSha256Fsm.clientFinalMessage msg.nonce proof)).wire := by
  obtain ⟨s, unread, rooms, t⟩ := startup_run_exists recordedOpenSsl
    { password := ascii "pencil" } {} [] (scramInsisting.flatMap ServerMessage.wire)
  have hdelivered : s.delivered = scramRefusal.map ServerMessage.parsed := by
    refine (congrArg StartupOutcome.delivered (startup_run t).1).trans ?_
    decide +kernel
  obtain ⟨log, t⟩ := t.logged []
  obtain ⟨-, -, -, hthird, hdriver⟩ := login_writes recordedOpenSsl { password := ascii "pencil" } {}
    [] (scramRefusal.map ServerMessage.parsed)
  obtain ⟨hlog, -⟩ := hdriver _ _ _ _ _ t
  rw [hdelivered] at hlog
  have hlength : (writes recordedOpenSsl []
      (start recordedOpenSsl { password := ascii "pencil" } {} [])
      (scramRefusal.map ServerMessage.parsed)).length = 3 := by
    decide +kernel
  generalize writes recordedOpenSsl [] _ (scramRefusal.map ServerMessage.parsed) = ws
    at hlog hthird hlength
  have hget : ws[2]? = some ws[2] := List.getElem?_eq_getElem (by omega)
  obtain ⟨-, data, msg, proof, -, hnonce, hbuffer⟩ := hthird _ hget
  refine ⟨s, log, unread, rooms, t, hdelivered, ?_, data, msg, proof, hnonce, ?_⟩
  · rw [hlog, List.length_map, hlength]
  · rw [hlog, List.getElem?_map, hget, Option.map_some, hbuffer]

end StartupFsmImpl

end NativePg
