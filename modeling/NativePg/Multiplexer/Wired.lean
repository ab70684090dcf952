/-
  File:      NativePg/Multiplexer/Wired.lean
  Subject:   A multiplexed connection on the wire: callers, its two tasks, the consumer of its
             notifications, and a conforming server that sends bytes.

  * `Job` -- a request as its caller and the server know it;
  * `Wired`, `Wired.Step`, `Wired.Reaches` -- the whole system. The server sends what it likes of
    the responses to the requests that have been written, in their order, with async messages in
    between; bytes are on their way for any time and arrive in pieces of any size; callers come
    and go, and the consumer reads, at any moment;
  * `Link` -- what connects it to a session of whole messages: what has been delivered, and what
    has not;
  * `Link.loop` -- the loop of the reader keeps it. `Inv.step` -- every step does;
  * **`wired_routed`**, **`wired_settled`** -- what callers and consumer see of it.
-/
import NativePg.Multiplexer.Deliveries
import NativePg.Multiplexer.Reader
import NativePg.Multiplexer.Routing
import NativePg.Protocol.Wire

namespace NativePg

namespace Multiplexing

open ReadResponseFsm

/-! ## 1. The system -/

/-- A request, the server's response to it, and whether it has been written and cancelled. -/
structure Job where
  req : Request
  resp : List AnyBackendMessage
  emitted : Bool := false
  cancelled : Bool := false
  deriving DecidableEq, Repr

/-- Behind a `prepare_write`: what was not cancelled before has been written. -/
def Job.emit (j : Job) : Job := if j.cancelled then j else { j with emitted := true }

/-- The messages the server owes for the requests that have been written. -/
def owed (jobs : List Job) : List AnyBackendMessage := (jobs.filter (·.emitted)).flatMap (·.resp)

/-- The bytes of the requests that have been written. -/
def payloads (jobs : List Job) : Bytes := (jobs.filter (·.emitted)).flatMap (·.req.payload)

/-- The connection and its surroundings. -/
structure Wired where
  jobs : List Job := []
  reader : ReaderTask
  /-- Everything the server has sent. -/
  sent : List ServerMessage
  /-- The bytes that are on their way. -/
  unread : Bytes
  /-- What the writer has written. -/
  written : Bytes := []
  /-- What the consumer has got. -/
  notes : List NotificationEvent := []

namespace Wired

/-- **One step of the system.** -/
inductive Step : Wired → Wired → Prop where
  /-- `exec` adds a request. -/
  | add {s : Wired} {req : Request} {resp : List AnyBackendMessage} (hacc : req.Accepted)
      (hresp : Answers req resp) (hasync : ∀ m ∈ resp, m.isAsync = false) :
      Step s { s with
        jobs := s.jobs ++ [{ req, resp }]
        reader := { s.reader with mpx := s.reader.mpx.add req } }
  /-- `exec` is cancelled, and its event is not set. -/
  | cancel {s : Wired} {pre post : List Job} {j : Job} {mpx : Multiplexer}
      (hjobs : s.jobs = pre ++ j :: post) (hc : j.cancelled = false)
      (hopen : doneOf pre.length s.reader.events = [])
      (hm : s.reader.mpx.cancel pre.length = .ok mpx) :
      Step s { s with
        jobs := pre ++ { j with cancelled := true } :: post
        reader := { s.reader with mpx } }
  /-- The writer takes what is to be written. -/
  | prepareWrite {s : Wired} {mpx : Multiplexer} {bytes : Bytes}
      (hm : s.reader.mpx.prepareWrite = .ok (mpx, bytes)) :
      Step s { s with
        jobs := s.jobs.map Job.emit
        reader := { s.reader with mpx }
        written := s.written ++ bytes }
  /-- The server sends a message. -/
  | send {s : Wired} {m : ServerMessage} (hwf : m.WellFormed)
      (howed : withoutAsync ((s.sent ++ [m]).map ServerMessage.parsed) <+: owed s.jobs) :
      Step s { s with sent := s.sent ++ [m], unread := s.unread ++ m.wire }
  /-- Bytes arrive, at most as many as the reader has asked for. -/
  | receive {s : Wired} {chunk rest : Bytes} (hpoint : s.reader.point = .reading)
      (hunread : s.unread = chunk ++ rest) (hpos : 1 ≤ chunk.length)
      (hroom : chunk.length ≤ s.reader.readBuffer.preparedSize) :
      Step s { s with reader := s.reader.receive chunk, unread := rest }
  /-- The reader is woken up. -/
  | wake {s : Wired} : Step s { s with reader := s.reader.wake }
  /-- The consumer reads. -/
  | readEvents {s : Wired} {output : List NotificationEvent} {queue : NotificationQueue}
      (hq : s.reader.queue.readEvents = some (output, queue)) :
      Step s { s with reader := { s.reader with queue }, notes := s.notes ++ output }

/-- **Runs of a session**, from its beginning: the buffer may hold what was received behind the
    login, and the queue what happened before. -/
inductive Reaches (queue : NotificationQueue) : Wired → Prop where
  | init {readBuffer : ReadBuffer} {first : List ServerMessage} {unread : Bytes}
      (hwf : ∀ m ∈ first, m.WellFormed) (hasync : ∀ m ∈ first, m.parsed.isAsync = true)
      (hbytes : readBuffer.committedArea ++ unread = first.flatMap ServerMessage.wire) :
      Reaches queue { reader := .start {} readBuffer queue, sent := first, unread }
  | step {s s' : Wired} (h : Reaches queue s) (hs : Step s s') : Reaches queue s'

end Wired

/-! ## 2. Sessions of whole messages -/

/-- What caller and server know of a ticket. -/
def Ticket.job (t : Ticket) : Job := ⟨t.req, t.resp, t.emitted, t.cancelled.isSome⟩

theorem Ticket.job_emit (t : Ticket) : t.emit.job = t.job.emit := by
  unfold Ticket.emit Job.emit
  cases hc : t.cancelled with
  | none => simp [Ticket.job, hc]
  | some n => simp [Ticket.job, hc]

theorem owed_jobs (ts : List Ticket) : owed (ts.map Ticket.job) = responses ts := by
  unfold owed responses
  rw [List.filter_map, List.flatMap_map]
  rfl

theorem emittedBytes_jobs (ts : List Ticket) : emittedBytes ts = payloads (ts.map Ticket.job) := by
  unfold emittedBytes payloads
  rw [List.filter_map, List.flatMap_map]
  rfl

/-- What a message is to the queue of notifications. -/
def noted : AnyBackendMessage → List NotificationEvent
  | .notificationResponse msg => [NotificationQueue.notification msg]
  | _ => []

/-- The notifications among some messages. -/
def notifications (ms : List ServerMessage) : List NotificationEvent :=
  ms.flatMap fun m => noted m.parsed

theorem notifications_snoc (ms : List ServerMessage) (m : ServerMessage) :
    notifications (ms ++ [m]) = notifications ms ++ noted m.parsed := by
  rw [notifications, List.flatMap_append, List.flatMap_singleton]
  rfl

theorem withoutAsync_snoc (msgs : List AnyBackendMessage) (msg : AnyBackendMessage) :
    withoutAsync (msgs ++ [msg]) =
      withoutAsync msgs ++ if msg.isAsync then [] else [msg] := by
  unfold withoutAsync
  rw [List.filter_append]
  cases h : msg.isAsync <;> simp [h]

/-- **A system and a session of whole messages**: the server's messages are cut into those the
    reader has `delivered` and those it has not, `ts` are the tickets of the session, and `late`
    is what has been delivered and is not in the queue yet. `before` are the events of the queue
    at the beginning. -/
structure Link (before : List NotificationEvent) (s : Wired) (ts : List Ticket)
    (delivered undelivered : List ServerMessage) (late : List NotificationEvent) : Prop where
  session : Session ts s.reader.mpx s.written s.reader.events
  jobs : ts.map Ticket.job = s.jobs
  ordered : Ordered ts
  noAsync : ∀ t ∈ ts, ∀ m ∈ t.resp, m.isAsync = false
  sent : s.sent = delivered ++ undelivered
  wellFormed : ∀ m ∈ s.sent, m.WellFormed
  owed : withoutAsync (s.sent.map ServerMessage.parsed) <+: owed s.jobs
  received : withoutAsync (delivered.map ServerMessage.parsed) = received ts
  consumed : s.reader.consumed ≤ s.reader.committed.length
  bytes : s.reader.rest ++ s.unread = undelivered.flatMap ServerMessage.wire
  notes : s.notes ++ s.reader.queue.pending ++ late = before ++ notifications delivered

/-- Where the reader may wait. -/
inductive Waiting (r : ReaderTask) : List NotificationEvent → Prop where
  | reading {k} (hpoint : r.point = .reading) (hconsumed : r.consumed = 0)
      (hneeds : nextMessage r.committed = .needs k) (hroom : 0 < r.readBuffer.preparedSize) :
      Waiting r []
  | adding {msg} (hpoint : r.point = .adding msg) :
      Waiting r [NotificationQueue.notification msg]

/-- The notification the reader waits with. -/
def ReaderTask.late (r : ReaderTask) : List NotificationEvent :=
  match r.point with
  | .adding msg => [NotificationQueue.notification msg]
  | _ => []

theorem Waiting.late_eq {r : ReaderTask} {late : List NotificationEvent} (h : Waiting r late) :
    late = r.late := by
  unfold ReaderTask.late
  cases h with
  | reading hp _ _ _ => rw [hp]
  | adding hp => rw [hp]

/-- **What holds of a system at any time.** -/
def Wired.Inv (before : List NotificationEvent) (s : Wired) : Prop :=
  ∃ ts delivered undelivered late, Link before s ts delivered undelivered late ∧
    Waiting s.reader late

/-! ## 3. The reader -/

section
variable {before : List NotificationEvent} {s : Wired} {ts : List Ticket}
  {delivered undelivered : List ServerMessage} {late : List NotificationEvent}

theorem Link.ok (h : Link before s ts delivered undelivered late) : ∀ t ∈ ts, t.Ok :=
  h.session.routed.sim.ok

/-- Where bytes are missing, the reader waits for them. -/
theorem Link.waitForBytes (h : Link before s ts delivered undelivered []) {k : Nat}
    (hconsumed : s.reader.consumed = 0) (hneeds : nextMessage s.reader.committed = .needs k) :
    Wired.Inv before { s with reader := s.reader.waitForBytes } := by
  have hmissing : messageMissingBytes s.reader.committed = k := by
    rw [messageMissingBytes_eq, hneeds]
  obtain ⟨rb, hrb, hcommitted, hroom⟩ := s.reader.readBuffer.prepare_needs hneeds
  have hwait : s.reader.waitForBytes = { s.reader with readBuffer := rb, point := .reading } := by
    unfold ReaderTask.waitForBytes
    rw [hmissing, hrb]
  rw [hwait]
  have hc : ({ s.reader with readBuffer := rb, point := .reading } : ReaderTask).committed =
      s.reader.committed := hcommitted
  refine ⟨ts, delivered, undelivered, [], ⟨h.session, h.jobs, h.ordered, h.noAsync, h.sent,
    h.wellFormed, h.owed, h.received, ?_, ?_, h.notes⟩,
    .reading rfl hconsumed (by rw [hc]; exact hneeds) hroom⟩
  · rw [hc]
    exact h.consumed
  · rw [ReaderTask.rest, hc]
    exact h.bytes

/-- What the reader parses next is what has not been delivered yet. -/
theorem Link.next (h : Link before s ts delivered undelivered late) {msg : AnyBackendMessage}
    {size : Nat} (hnext : nextMessage s.reader.rest = .message msg size) :
    ∃ m more, undelivered = m :: more ∧ m.parsed = msg ∧ m.WellFormed ∧
      s.reader.rest.drop size ++ s.unread = more.flatMap ServerMessage.wire := by
  have hall := messageParser.message_append s.unread hnext
  rw [h.bytes] at hall
  cases undelivered with
  | nil =>
    have hshort : messageParser.next [] = .needs 5 := rfl
    rw [List.flatMap_nil, hshort] at hall
    cases hall
  | cons m more =>
    have hwf : m.WellFormed := h.wellFormed m (by rw [h.sent]; simp)
    have hwire : messageParser.next ((m :: more).flatMap ServerMessage.wire) = _ :=
      ServerMessage.nextMessage_wire hwf _
    rw [hwire] at hall
    cases hall
    refine ⟨m, more, rfl, rfl, hwf, ?_⟩
    have hbytes := congrArg (List.drop m.wire.length) h.bytes
    rw [List.drop_append_of_le_length (messageParser.message_le hnext), List.flatMap_cons,
      List.drop_left] at hbytes
    exact hbytes

/-- The bytes of a conforming server are never bad. -/
theorem Link.not_bad (h : Link before s ts delivered undelivered late) {ec : ErrorCode} :
    nextMessage s.reader.rest ≠ .bad ec := by
  intro hbad
  have hall := messageParser.bad_append s.unread hbad
  rw [h.bytes] at hall
  cases undelivered with
  | nil =>
    have hshort : messageParser.next [] = .needs 5 := rfl
    rw [List.flatMap_nil, hshort] at hall
    cases hall
  | cons m more =>
    have hwire : messageParser.next ((m :: more).flatMap ServerMessage.wire) = _ :=
      ServerMessage.nextMessage_wire (h.wellFormed m (by rw [h.sent]; simp)) _
    rw [hwire] at hall
    cases hall

/-- One message has been delivered: `ts'`, `mpx`, `events` and `queue` are what it has made of the
    session and of the queue. -/
theorem Link.deliver {m : ServerMessage} {more : List ServerMessage}
    (h : Link before s ts delivered (m :: more) []) (late : List NotificationEvent) {size : Nat}
    (hsize : size ≤ s.reader.rest.length)
    (hbytes : s.reader.rest.drop size ++ s.unread = more.flatMap ServerMessage.wire)
    {ts' : List Ticket} {r : ReaderTask}
    (hbuffer : r.readBuffer = s.reader.readBuffer)
    (hconsumed : r.consumed = s.reader.consumed + size)
    (hsession : Session ts' r.mpx s.written r.events) (hjobs : ts'.map Ticket.job = s.jobs)
    (hordered : Ordered ts') (hnoAsync : ∀ t ∈ ts', ∀ m ∈ t.resp, m.isAsync = false)
    (hreceived : Multiplexing.received ts' =
      Multiplexing.received ts ++ if m.parsed.isAsync then [] else [m.parsed])
    (hnotes : s.notes ++ r.queue.pending ++ late =
      s.notes ++ s.reader.queue.pending ++ noted m.parsed) :
    Link before { s with reader := r } ts' (delivered ++ [m]) more late where
  session := hsession
  jobs := hjobs
  ordered := hordered
  noAsync := hnoAsync
  sent := by
    rw [List.append_assoc]
    exact h.sent
  wellFormed := h.wellFormed
  owed := h.owed
  received := by
    rw [List.map_append, List.map_singleton, withoutAsync_snoc, h.received, hreceived]
  consumed := by
    have hle := h.consumed
    have hlen : s.reader.rest.length = s.reader.committed.length - s.reader.consumed :=
      List.length_drop
    simp only [ReaderTask.committed, hbuffer, hconsumed] at hle hlen ⊢
    omega
  bytes := by
    have hrest : r.rest = s.reader.rest.drop size := by
      simp only [ReaderTask.rest, ReaderTask.committed, hbuffer, hconsumed, List.drop_drop]
    rw [hrest]
    exact hbytes
  notes := by
    have hbefore := h.notes
    rw [List.append_nil] at hbefore
    rw [hnotes, hbefore, notifications_snoc, List.append_assoc]

/-- **A message for the multiplexer is delivered**: it is async, or the next message of the first
    outstanding response; the multiplexer takes it without an error. -/
theorem Link.onMessage {m : ServerMessage} {more : List ServerMessage}
    (h : Link before s ts delivered (m :: more) []) :
    ∃ mpx out ts', s.reader.mpx.onMessage m.parsed = .ok (mpx, out) ∧ out.ec = .success ∧
      Session ts' mpx s.written (s.reader.events ++ out.events) ∧
      ts'.map Ticket.job = s.jobs ∧ Ordered ts' ∧
      (∀ t ∈ ts', ∀ m ∈ t.resp, m.isAsync = false) ∧
      Multiplexing.received ts' =
        Multiplexing.received ts ++ if m.parsed.isAsync then [] else [m.parsed] := by
  have hrouted := h.session.routed
  obtain ⟨ts', hc, hjobs, hnoAsync, hreceived⟩ : ∃ ts', Conforms ts (.onMessage m.parsed) ts' ∧
      ts'.map Ticket.job = s.jobs ∧ (∀ t ∈ ts', ∀ m ∈ t.resp, m.isAsync = false) ∧
      Multiplexing.received ts' =
        Multiplexing.received ts ++ if m.parsed.isAsync then [] else [m.parsed] := by
    cases ha : m.parsed.isAsync with
    | true =>
      exact ⟨ts, .async ha, h.jobs, h.noAsync, by rw [if_pos rfl, List.append_nil]⟩
    | false =>
      have hnext : Multiplexing.received ts ++ [m.parsed] <+: responses ts := by
        have howed := h.owed
        rw [h.sent, List.map_append, List.map_cons, ← List.singleton_append, ← List.append_assoc,
          withoutAsync, List.filter_append, ← withoutAsync, withoutAsync_snoc, h.received, ha,
          if_neg (by decide), ← h.jobs, owed_jobs] at howed
        exact (List.prefix_append _ _).trans howed
      obtain ⟨pre, t, post, rfl, hpre, hemitted, hget, hreceived⟩ :=
        next_outstanding h.ordered hnext
      refine ⟨_, .serve hpre hemitted hget, ?_, ?_, ?_⟩
      · rw [← h.jobs]
        simp [Ticket.job]
      · intro x hx
        rcases List.mem_append.mp hx with hx | hx
        · exact h.noAsync x (List.mem_append_left _ hx)
        · rcases List.mem_cons.mp hx with rfl | hx
          · exact h.noAsync t (by simp)
          · exact h.noAsync x (by simp [hx])
      · rw [hreceived, if_neg (by decide)]
  obtain ⟨mpx, out, hstep, hec, hrouted'⟩ := hrouted.step hc
  have hsession := Session.step h.session hc hstep
  -- no request has been written, and so no byte
  have hbytes : out.bytes = [] := by
    have hwritten := hrouted'.bytes
    rw [emittedBytes_jobs, hjobs, ← h.jobs, ← emittedBytes_jobs, hrouted.bytes] at hwritten
    exact List.append_right_eq_self.mp hwritten
  rw [hbytes, List.append_nil] at hsession
  exact ⟨mpx, out, ts', hstep, hec, hsession, hjobs, h.ordered.of_conforms h.ok hc, hnoAsync,
    hreceived⟩

theorem rest_lt {r r' : ReaderTask} {msg : AnyBackendMessage} {size : Nat}
    (hn : nextMessage r.rest = .message msg size) (hr : r'.rest = r.rest.drop size) :
    r'.rest.length < r.rest.length := by
  have hpos := messageParser.message_pos hn
  have hle := messageParser.message_le hn
  rw [hr, List.length_drop]
  omega

/-- **The loop of the reader keeps the link**, and ends where the reader may wait. The induction is
    on the bytes it has. -/
theorem Link.loop (h : Link before s ts delivered undelivered []) :
    Wired.Inv before { s with reader := s.reader.loop } := by
  induction hl : s.reader.rest.length using Nat.strongRecOn generalizing s ts delivered
    undelivered with
  | ind l ih =>
    have hturn := ReaderTask.loop_turn h.consumed
    generalize s.reader.loop = r at hturn
    cases hturn with
    | @needs k hk =>
      have hcommitted : s.reader.consume.committed = s.reader.rest :=
        s.reader.readBuffer.committedArea_consume s.reader.consumed
      have hlink : Link before { s with reader := s.reader.consume } ts delivered undelivered [] :=
        ⟨h.session, h.jobs, h.ordered, h.noAsync, h.sent, h.wellFormed, h.owed, h.received,
          Nat.zero_le _, by rw [ReaderTask.rest, hcommitted]; exact h.bytes, h.notes⟩
      exact hlink.waitForBytes rfl (by rw [hcommitted]; exact hk)
    | bad hbad => exact absurd hbad h.not_bad
    | @added msg size hn hspace =>
      obtain ⟨m, more, rfl, hm, -, hbytes⟩ := h.next hn
      have hlink := h.deliver [] (r := { s.reader.take size with
          queue := s.reader.queue.doAddNotification msg }) (messageParser.message_le hn) hbytes rfl
        rfl h.session h.jobs h.ordered h.noAsync (by rw [hm]; simp [AnyBackendMessage.isAsync])
        (by rw [hm]; simp [NotificationQueue.doAddNotification, noted])
      refine ih _ ?_ hlink rfl
      exact hl ▸ rest_lt hn (s.reader.rest_take size)
    | @full msg size hn hspace =>
      obtain ⟨m, more, rfl, hm, -, hbytes⟩ := h.next hn
      have hlink := h.deliver [NotificationQueue.notification msg]
        (r := { s.reader.take size with point := .adding msg }) (messageParser.message_le hn) hbytes
        rfl rfl h.session h.jobs h.ordered h.noAsync
        (by rw [hm]; simp [AnyBackendMessage.isAsync]) (by rw [hm]; rfl)
      exact ⟨_, _, _, _, hlink, .adding rfl⟩
    | @fault msg size fault hn hmsg hf =>
      obtain ⟨m, more, rfl, rfl, -, -⟩ := h.next hn
      obtain ⟨mpx, out, ts', hok, -⟩ := h.onMessage
      rw [hf] at hok
      cases hok
    | @failed msg size mpx out hn hmsg hm hec =>
      obtain ⟨m, more, rfl, rfl, -, -⟩ := h.next hn
      obtain ⟨mpx', out', ts', hok, hsuccess, -⟩ := h.onMessage
      rw [hm] at hok
      cases hok
      rw [hsuccess] at hec
      cases hec
    | @handled msg size mpx out hn hmsg hm hec =>
      obtain ⟨m, more, rfl, rfl, -, hbytes⟩ := h.next hn
      obtain ⟨mpx', out', ts', hok, -, hsession, hjobs, hordered, hnoAsync, hreceived⟩ :=
        h.onMessage
      rw [hm] at hok
      cases hok
      have hlink := h.deliver [] (r := { s.reader.take size with
          mpx, events := s.reader.events ++ out.events }) (messageParser.message_le hn) hbytes rfl
        rfl hsession hjobs hordered hnoAsync hreceived (by
          have hnoted : noted m.parsed = [] := by
            cases hp : m.parsed <;> first | rfl | (rw [hp] at hmsg; cases hmsg)
          rw [hnoted, List.append_nil, List.append_nil]
          rfl)
      refine ih _ ?_ hlink rfl
      exact hl ▸ rest_lt hn (s.reader.rest_take size)

/-- `read_some_messages` from its beginning. -/
theorem Link.readSomeMessages (h : Link before s ts delivered undelivered [])
    (hconsumed : s.reader.consumed = 0) :
    Wired.Inv before { s with reader := s.reader.readSomeMessages } := by
  unfold ReaderTask.readSomeMessages
  split
  · rename_i hmissing
    have hsame : ({ s.reader with consumed := 0 } : ReaderTask) = s.reader := by rw [← hconsumed]
    rw [hsame]
    exact h.loop
  · rename_i hmissing
    have hneeds : ∃ k, nextMessage s.reader.committed = .needs k := by
      by_contra hne
      exact hmissing (messageMissingBytes_eq_zero.mpr fun k hk => hne ⟨k, hk⟩)
    obtain ⟨k, hk⟩ := hneeds
    exact h.waitForBytes hconsumed hk

/-! ## 4. Every step -/

/-- A step of the callers or of the writer. -/
theorem Link.call (h : Link before s ts delivered undelivered late) {op : Op} {ts' : List Ticket}
    (hc : Conforms ts op ts') {mpx : Multiplexer} {out : Output}
    (hm : s.reader.mpx.step op = .ok (mpx, out)) (hevents : out.events = [])
    (hreceived : Multiplexing.received ts' = Multiplexing.received ts)
    (hresponses : responses ts <+: responses ts')
    (hnoAsync : ∀ t ∈ ts', ∀ m ∈ t.resp, m.isAsync = false) :
    Link before { s with
      jobs := ts'.map Ticket.job
      reader := { s.reader with mpx }
      written := s.written ++ out.bytes } ts' delivered undelivered late where
  session := by
    have hsession := Session.step h.session hc hm
    rwa [hevents, List.append_nil] at hsession
  jobs := rfl
  ordered := h.ordered.of_conforms h.ok hc
  noAsync := hnoAsync
  sent := h.sent
  wellFormed := h.wellFormed
  owed := by
    have howed := h.owed
    rw [← h.jobs, owed_jobs] at howed
    rw [owed_jobs]
    exact howed.trans hresponses
  received := h.received.trans hreceived.symm
  consumed := h.consumed
  bytes := h.bytes
  notes := h.notes

/-- The ticket of a job. -/
theorem Link.ticket (h : Link before s ts delivered undelivered late) {pre post : List Job}
    {j : Job} (hjobs : s.jobs = pre ++ j :: post) :
    ∃ tpre t tpost, ts = tpre ++ t :: tpost ∧ tpre.map Ticket.job = pre ∧ t.job = j ∧
      tpost.map Ticket.job = post := by
  have heq := h.jobs.trans hjobs
  obtain ⟨tpre, rest, rfl, hpre, hrest⟩ := List.map_eq_append_iff.mp heq
  obtain ⟨t, tpost, rfl, ht, hpost⟩ := List.map_eq_cons_iff.mp hrest
  exact ⟨tpre, t, tpost, rfl, hpre, ht, hpost⟩

/-- A job that can be cancelled: the response of its ticket is not complete. -/
theorem Link.cancellable (h : Link before s ts delivered undelivered late)
    {tpre tpost : List Ticket} {t : Ticket} (hts : ts = tpre ++ t :: tpost) (hc : t.job.cancelled = false)
    (hopen : doneOf tpre.length s.reader.events = []) :
    t.cancelled = none ∧ t.sent < t.resp.length := by
  have hnone : t.cancelled = none := by simpa [Ticket.job] using hc
  have hget : ts[tpre.length]? = some t := by rw [hts]; simp
  have hdone := (h.session.routed.report _ t hget).done
  have hle := (h.ok t (by rw [hts]; simp)).sent_le
  refine ⟨hnone, Nat.lt_of_le_of_ne hle fun heq => ?_⟩
  rw [hopen, if_pos ⟨hnone, heq⟩] at hdone
  cases hdone

/-- Where the reader waits, as long as its own state stays. -/
theorem Waiting.of_reader {r r' : ReaderTask} {late : List NotificationEvent} (h : Waiting r late)
    (hpoint : r'.point = r.point) (hconsumed : r'.consumed = r.consumed)
    (hbuffer : r'.readBuffer = r.readBuffer) : Waiting r' late := by
  cases h with
  | reading hp hc hneeds hroom =>
    exact .reading (hpoint.trans hp) (hconsumed.trans hc)
      (by rw [ReaderTask.committed, hbuffer]; exact hneeds) (by rw [hbuffer]; exact hroom)
  | adding hp => exact .adding (hpoint.trans hp)

/-- A request is added. -/
theorem Wired.Inv.add (h : Wired.Inv before s) {req : Request} {resp : List AnyBackendMessage}
    (hacc : req.Accepted) (hresp : Answers req resp) (hasync : ∀ m ∈ resp, m.isAsync = false) :
    Wired.Inv before { s with
      jobs := s.jobs ++ [{ req, resp }]
      reader := { s.reader with mpx := s.reader.mpx.add req } } := by
  obtain ⟨ts, delivered, undelivered, late, hlink, hwait⟩ := h
  have hstep : s.reader.mpx.step (.add req) = .ok (s.reader.mpx.add req, {}) := rfl
  have hnew := hlink.call (.add hacc hresp) hstep rfl
    (by rw [received_append]; exact List.append_nil _)
    (by rw [responses_append]; exact List.prefix_append ..)
    (by
      intro t ht
      rcases List.mem_append.mp ht with ht | ht
      · exact hlink.noAsync t ht
      · rw [List.mem_singleton.mp ht]
        exact hasync)
  rw [List.append_nil, List.map_append, hlink.jobs] at hnew
  exact ⟨_, _, _, _, hnew, hwait.of_reader rfl rfl rfl⟩

/-- A request is cancelled. -/
theorem Wired.Inv.cancel (h : Wired.Inv before s) {pre post : List Job} {j : Job}
    {mpx : Multiplexer} (hjobs : s.jobs = pre ++ j :: post) (hc : j.cancelled = false)
    (hopen : doneOf pre.length s.reader.events = [])
    (hm : s.reader.mpx.cancel pre.length = .ok mpx) :
    Wired.Inv before { s with
      jobs := pre ++ { j with cancelled := true } :: post
      reader := { s.reader with mpx } } := by
  obtain ⟨ts, delivered, undelivered, late, hlink, hwait⟩ := h
  obtain ⟨tpre, t, tpost, rfl, rfl, rfl, rfl⟩ := hlink.ticket hjobs
  rw [List.length_map] at hopen hm
  obtain ⟨hnone, hlt⟩ := hlink.cancellable rfl hc hopen
  have hstep : s.reader.mpx.step (.cancel tpre.length) = .ok (mpx, {}) := by
    simp only [Multiplexer.step, hm]
    rfl
  have hnew := hlink.call (.cancel hnone hlt) hstep rfl
    (by simp only [received_append, received_cons]) (by simp [responses_append, responses_cons])
    (by
      intro x hx
      rcases List.mem_append.mp hx with hx | hx
      · exact hlink.noAsync x (by simp [hx])
      · rcases List.mem_cons.mp hx with rfl | hx
        · exact hlink.noAsync t (by simp)
        · exact hlink.noAsync x (by simp [hx]))
  rw [List.append_nil, List.map_append, List.map_cons] at hnew
  exact ⟨_, _, _, _, hnew, hwait.of_reader rfl rfl rfl⟩

/-- The writer writes. -/
theorem Wired.Inv.prepareWrite (h : Wired.Inv before s) {mpx : Multiplexer} {bytes : Bytes}
    (hm : s.reader.mpx.prepareWrite = .ok (mpx, bytes)) :
    Wired.Inv before { s with
      jobs := s.jobs.map Job.emit
      reader := { s.reader with mpx }
      written := s.written ++ bytes } := by
  obtain ⟨ts, delivered, undelivered, late, hlink, hwait⟩ := h
  have hstep : s.reader.mpx.step .prepareWrite = .ok (mpx, { bytes }) := by
    simp only [Multiplexer.step, hm]
    rfl
  have hemit : ∀ t : Ticket, t.emit.resp = t.resp := by
    intro t
    unfold Ticket.emit
    split <;> rfl
  have hnew := hlink.call .prepareWrite hstep rfl (received_emit hlink.ok)
    (responses_emit hlink.ordered)
    (by
      intro x hx
      obtain ⟨t, ht, rfl⟩ := List.mem_map.mp hx
      rw [hemit]
      exact hlink.noAsync t ht)
  have hjobs : (ts.map Ticket.emit).map Ticket.job = s.jobs.map Job.emit := by
    rw [← hlink.jobs, List.map_map, List.map_map]
    exact List.map_congr_left fun t _ => t.job_emit
  rw [hjobs] at hnew
  exact ⟨_, _, _, _, hnew, hwait.of_reader rfl rfl rfl⟩

/-- The server sends a message. -/
theorem Wired.Inv.send (h : Wired.Inv before s) {m : ServerMessage} (hwf : m.WellFormed)
    (howed : withoutAsync ((s.sent ++ [m]).map ServerMessage.parsed) <+: Multiplexing.owed s.jobs) :
    Wired.Inv before { s with sent := s.sent ++ [m], unread := s.unread ++ m.wire } := by
  obtain ⟨ts, delivered, undelivered, late, hlink, hwait⟩ := h
  refine ⟨ts, delivered, undelivered ++ [m], late, ⟨hlink.session, hlink.jobs, hlink.ordered,
    hlink.noAsync, ?_, ?_, howed, hlink.received, hlink.consumed, ?_, hlink.notes⟩, hwait⟩
  · rw [hlink.sent, List.append_assoc]
  · intro x hx
    rcases List.mem_append.mp hx with hx | hx
    · exact hlink.wellFormed x hx
    · rw [List.mem_singleton.mp hx]
      exact hwf
  · rw [← List.append_assoc, hlink.bytes, List.flatMap_append, List.flatMap_singleton]

/-- The reader gets bytes: it goes through the messages that are whole now. -/
theorem Wired.Inv.receive (h : Wired.Inv before s) {chunk rest : Bytes}
    (hpoint : s.reader.point = .reading) (hunread : s.unread = chunk ++ rest)
    (hroom : chunk.length ≤ s.reader.readBuffer.preparedSize) :
    Wired.Inv before { s with reader := s.reader.receive chunk, unread := rest } := by
  obtain ⟨ts, delivered, undelivered, late, hlink, hwait⟩ := h
  cases hwait with
  | adding hp =>
    rw [hpoint] at hp
    cases hp
  | reading hp hc hn hr =>
    have hcommitted := s.reader.readBuffer.committedArea_receive_commit hroom
    have hreceived : Link before { s with
        reader := { s.reader with
          readBuffer := (s.reader.readBuffer.receive chunk).commit chunk.length }
        unread := rest } ts delivered undelivered [] := by
      refine ⟨hlink.session, hlink.jobs, hlink.ordered, hlink.noAsync, hlink.sent,
        hlink.wellFormed, hlink.owed, hlink.received, ?_, ?_, hlink.notes⟩
      · simp only [hc]
        exact Nat.zero_le _
      · have hbytes := hlink.bytes
        simp only [ReaderTask.rest, ReaderTask.committed, hc, List.drop_zero] at hbytes ⊢
        rw [hcommitted, List.append_assoc, ← hunread]
        exact hbytes
    exact hreceived.readSomeMessages hc

/-- The reader is woken up: with a notification that has space now, it goes on. -/
theorem Wired.Inv.wake (h : Wired.Inv before s) :
    Wired.Inv before { s with reader := s.reader.wake } := by
  obtain ⟨ts, delivered, undelivered, late, hlink, hwait⟩ := h
  cases hwait with
  | reading hp hc hn hr =>
    have hsame : s.reader.wake = s.reader := by
      unfold ReaderTask.wake
      rw [hp]
    rw [hsame]
    exact ⟨ts, delivered, undelivered, _, hlink, .reading hp hc hn hr⟩
  | @adding msg hp =>
    cases hspace : s.reader.queue.hasSpace with
    | false =>
      have hsame : s.reader.wake = s.reader := by
        unfold ReaderTask.wake NotificationQueue.addNotify
        rw [hp]
        simp [hspace]
      rw [hsame]
      exact ⟨ts, delivered, undelivered, _, hlink, .adding hp⟩
    | true =>
      have hwake : s.reader.wake =
          { s.reader with queue := s.reader.queue.doAddNotification msg }.loop := by
        unfold ReaderTask.wake NotificationQueue.addNotify
        simp [hspace, hp]
      rw [hwake]
      have hadded : Link before { s with
          reader := { s.reader with queue := s.reader.queue.doAddNotification msg } }
          ts delivered undelivered [] := by
        refine ⟨hlink.session, hlink.jobs, hlink.ordered, hlink.noAsync, hlink.sent,
          hlink.wellFormed, hlink.owed, hlink.received, hlink.consumed, hlink.bytes, ?_⟩
        have hnotes := hlink.notes
        simpa [NotificationQueue.doAddNotification] using hnotes
      exact hadded.loop

/-- The consumer takes what is in the queue. -/
theorem Wired.Inv.readEvents (h : Wired.Inv before s) {output : List NotificationEvent}
    {queue : NotificationQueue} (hq : s.reader.queue.readEvents = some (output, queue)) :
    Wired.Inv before
      { s with reader := { s.reader with queue }, notes := s.notes ++ output } := by
  obtain ⟨ts, delivered, undelivered, late, hlink, hwait⟩ := h
  have hqueue : queue.pending = [] ∧ output = s.reader.queue.pending := by
    unfold NotificationQueue.readEvents at hq
    split at hq
    · cases hq
    · cases hq
      exact ⟨rfl, rfl⟩
  refine ⟨ts, delivered, undelivered, late, ⟨hlink.session, hlink.jobs, hlink.ordered,
    hlink.noAsync, hlink.sent, hlink.wellFormed, hlink.owed, hlink.received, hlink.consumed,
    hlink.bytes, ?_⟩, hwait.of_reader rfl rfl rfl⟩
  have hnotes := hlink.notes
  simp only [hqueue.1, hqueue.2, List.append_nil] at hnotes ⊢
  exact hnotes

/-- **Every step keeps the invariant.** -/
theorem Wired.Inv.step {s' : Wired} (h : Wired.Inv before s) (hs : Wired.Step s s') :
    Wired.Inv before s' := by
  cases hs with
  | add hacc hresp hasync => exact h.add hacc hresp hasync
  | cancel hjobs hc hopen hm => exact h.cancel hjobs hc hopen hm
  | prepareWrite hm => exact h.prepareWrite hm
  | send hwf howed => exact h.send hwf howed
  | receive hpoint hunread _ hroom => exact h.receive hpoint hunread hroom
  | wake => exact h.wake
  | readEvents hq => exact h.readEvents hq

end

/-- **A session at its beginning.** -/
theorem Wired.inv_init {queue : NotificationQueue} {readBuffer : ReadBuffer}
    {first : List ServerMessage} {unread : Bytes} (hwf : ∀ m ∈ first, m.WellFormed)
    (hasync : ∀ m ∈ first, m.parsed.isAsync = true)
    (hbytes : readBuffer.committedArea ++ unread = first.flatMap ServerMessage.wire) :
    Wired.Inv queue.addConnect.pending
      { reader := .start {} readBuffer queue, sent := first, unread } := by
  have hnone : withoutAsync (first.map ServerMessage.parsed) = [] := by
    refine List.filter_eq_nil_iff.mpr fun msg hmsg => ?_
    obtain ⟨m, hm, rfl⟩ := List.mem_map.mp hmsg
    simp [hasync m hm]
  have hlink : Link queue.addConnect.pending
      { reader := { readBuffer, queue := queue.addConnect }, sent := first, unread } [] [] first
      [] := by
    refine ⟨.init, rfl, .nil, by simp, rfl, hwf, ?_, rfl, Nat.zero_le _, hbytes, ?_⟩
    · rw [hnone]
      exact List.nil_prefix
    · simp [notifications]
  exact hlink.readSomeMessages rfl

/-- **A whole run.** -/
theorem Wired.Reaches.inv {queue : NotificationQueue} {s : Wired} (h : Wired.Reaches queue s) :
    Wired.Inv queue.addConnect.pending s := by
  induction h with
  | init hwf hasync hbytes => exact Wired.inv_init hwf hasync hbytes
  | step _ hs ih => exact ih.step hs

/-! ## 5. What callers and consumer see -/

/-- **A multiplexed connection on the wire is a session of whole messages.** In every state of every
    run: the reader waits, for bytes, with room for one at least, or for space in the queue; no
    step of a caller or of the writer runs into a fault; what has been written is the payloads of
    the requests that were not cancelled before, in the order in which they were added. And some
    first messages of the server have been delivered: those of responses went to the tickets, one
    response behind the other, and every caller has seen its report of them and nothing else; the
    notifications among them, each once and in order, are what the consumer has got, what is in the
    queue, and the one the reader waits with. -/
theorem wired_routed {queue : NotificationQueue} {s : Wired} (h : Wired.Reaches queue s) :
    ((s.reader.point = .reading ∧ 0 < s.reader.readBuffer.preparedSize) ∨
      ∃ msg, s.reader.point = .adding msg) ∧
    (∀ pre j post, s.jobs = pre ++ j :: post → j.cancelled = false →
      doneOf pre.length s.reader.events = [] → ∃ mpx, s.reader.mpx.cancel pre.length = .ok mpx) ∧
    (∃ mpx bytes, s.reader.mpx.prepareWrite = .ok (mpx, bytes)) ∧
    s.written = payloads s.jobs ∧
    ∃ ts delivered undelivered,
      s.sent = delivered ++ undelivered ∧
      s.reader.rest ++ s.unread = undelivered.flatMap ServerMessage.wire ∧
      ts.map Ticket.job = s.jobs ∧
      withoutAsync (delivered.map ServerMessage.parsed) = received ts ∧
      (∀ i t, ts[i]? = some t → Report s.reader.events i t) ∧
      (∀ ev ∈ s.reader.events, ev.Below s.jobs.length) ∧
      s.notes ++ s.reader.queue.pending ++ s.reader.late =
        queue.addConnect.pending ++ notifications delivered := by
  obtain ⟨ts, delivered, undelivered, late, hlink, hwait⟩ := h.inv
  have hrouted := hlink.session.routed
  refine ⟨?_, ?_, ?_, ?_, ts, delivered, undelivered, hlink.sent, hlink.bytes, hlink.jobs,
    hlink.received, hrouted.report, ?_, ?_⟩
  · cases hwait with
    | reading hp hc hn hr => exact .inl ⟨hp, hr⟩
    | adding hp => exact .inr ⟨_, hp⟩
  · intro pre j post hjobs hc hopen
    obtain ⟨tpre, t, tpost, rfl, rfl, rfl, rfl⟩ := hlink.ticket hjobs
    rw [List.length_map] at hopen ⊢
    obtain ⟨hnone, hlt⟩ := hlink.cancellable rfl hc hopen
    obtain ⟨mpx, out, hstep, -, -⟩ := hrouted.step (.cancel hnone hlt)
    exact ⟨mpx, (Multiplexer.cancel_of_step hstep).1⟩
  · obtain ⟨mpx, out, hstep, -, -⟩ := hrouted.step .prepareWrite
    obtain ⟨bytes, hbytes, -⟩ := Multiplexer.prepareWrite_of_step hstep
    exact ⟨mpx, bytes, hbytes⟩
  · rw [hrouted.bytes, emittedBytes_jobs, hlink.jobs]
  · rw [← hlink.jobs, List.length_map]
    exact hrouted.below
  · rw [← hwait.late_eq]
    exact hlink.notes

/-- **Once the bytes are read, everything is settled.** When nothing is on its way, the reader waits
    for bytes and the server has sent what it owes: every request that was written and not
    cancelled is completed, without error, its caller having seen all of its own response; and the
    consumer has got every notification, or will get it from the queue. -/
theorem wired_settled {queue : NotificationQueue} {s : Wired} (h : Wired.Reaches queue s)
    (hread : s.unread = []) (hpoint : s.reader.point = .reading)
    (hsent : withoutAsync (s.sent.map ServerMessage.parsed) = owed s.jobs) :
    s.reader.committed = [] ∧
    (∀ i j, s.jobs[i]? = some j → j.emitted = true → j.cancelled = false →
      doneOf i s.reader.events = [.success] ∧
      ∃ r, (readResponseFsm j.req).feed j.resp = .ok r ∧ callsOf i s.reader.events = r.calls) ∧
    s.notes ++ s.reader.queue.pending = queue.addConnect.pending ++ notifications s.sent := by
  obtain ⟨ts, delivered, undelivered, late, hlink, hwait⟩ := h.inv
  cases hwait with
  | adding hp =>
    rw [hpoint] at hp
    cases hp
  | @reading k hp hc hn hr =>
    have hbytes := hlink.bytes
    rw [hread, List.append_nil, ReaderTask.rest, hc, List.drop_zero] at hbytes
    obtain rfl : undelivered = [] := by
      cases undelivered with
      | nil => rfl
      | cons m more =>
        have hwf := hlink.wellFormed m (by rw [hlink.sent]; simp)
        rw [hbytes, List.flatMap_cons, ServerMessage.nextMessage_wire hwf] at hn
        cases hn
    have hdelivered := hlink.sent
    rw [List.append_nil] at hdelivered
    refine ⟨hbytes, fun i j hj he hcancelled => ?_, ?_⟩
    · rw [← hlink.jobs, List.getElem?_map] at hj
      obtain ⟨t, ht, rfl⟩ := Option.map_eq_some_iff.mp hj
      have hall : received ts = responses ts := by
        rw [← hlink.received, ← hdelivered, hsent, ← hlink.jobs, owed_jobs]
      have hmem : t ∈ ts := List.mem_of_getElem? ht
      have hle := complete_of_received_eq hall t hmem he
      have hlen : t.sent = t.resp.length := Nat.le_antisymm (hlink.ok t hmem).sent_le hle
      have hnone : t.cancelled = none := by simpa [Ticket.job] using hcancelled
      obtain ⟨⟨r, hr', hcalls⟩, hdone⟩ := hlink.session.routed.report i t ht
      rw [if_pos ⟨hnone, hlen⟩] at hdone
      rw [hnone, Option.getD_none, hlen, List.take_length] at hr'
      exact ⟨hdone, r, hr', hcalls⟩
    · have hnotes := hlink.notes
      rw [List.append_nil] at hnotes
      rw [hnotes, hdelivered]

/-- A session of one empty query, whose response arrives in one piece. -/
theorem reaches_empty_query : ∃ s, Wired.Reaches ⟨4, [], false, true⟩ s ∧ s.unread = [] ∧
    s.reader.point = .reading ∧
    withoutAsync (s.sent.map ServerMessage.parsed) = owed s.jobs ∧
    s.jobs = [⟨{ payload := [1], messages := [.query] },
      [.emptyQueryResponse, .readyForQuery .idle], true, false⟩] := by
  have hbytes : (ReadBuffer.new 16).committedArea ++ [] =
      ([] : List ServerMessage).flatMap ServerMessage.wire := by simp
  have h0 := @Wired.Reaches.init ⟨4, [], false, true⟩ _ _ _ (by simp) (by simp) hbytes
  have h1 := h0.step (.add (show Request.Accepted { payload := [1], messages := [.query] }
    by decide) (show Answers _ [.emptyQueryResponse, .readyForQuery .idle] from ⟨_, rfl, rfl, rfl⟩)
    (by decide))
  have h2 := h1.step (.prepareWrite rfl)
  have h3 := h2.step (.send (m := .plain .emptyQueryResponse) ⟨by decide, trivial, trivial⟩
    ⟨[.readyForQuery .idle], rfl⟩)
  have h4 := h3.step (.send (m := .plain (.readyForQuery .idle)) ⟨by decide, trivial, trivial⟩
    ⟨[], rfl⟩)
  have h5 := h4.step (.receive rfl
    (show _ = ([73, 0, 0, 0, 4, 90, 0, 0, 0, 5, 73] : Bytes) ++ [] from rfl) (by decide)
    (by decide))
  refine ⟨_, h5, rfl, ?_, rfl, rfl⟩
  -- there is no notification it could wait with
  obtain ⟨ts, delivered, undelivered, late, hlink, hwait⟩ := h5.inv
  cases hwait with
  | reading hp _ _ _ => exact hp
  | @adding msg hp =>
    have hnone : notifications delivered = [] := by
      refine List.flatMap_eq_nil_iff.mpr fun m hm => ?_
      have hmem : m ∈ delivered ++ undelivered := List.mem_append_left _ hm
      rw [← hlink.sent] at hmem
      simp only [List.nil_append, List.mem_append, List.mem_singleton] at hmem
      rcases hmem with rfl | rfl <;> rfl
    have hnotes := hlink.notes
    rw [hnone, List.append_nil] at hnotes
    have hlast := congrArg (fun l => l.getLast?.map (·.type)) hnotes
    rw [List.getLast?_concat] at hlast
    cases hlast

/-- Its caller has been told so. -/
theorem wired_settled_empty_query : ∃ s, Wired.Reaches ⟨4, [], false, true⟩ s ∧
    doneOf 0 s.reader.events = [.success] ∧
    callsOf 0 s.reader.events = [⟨.emptyQueryResponse, 0⟩] := by
  obtain ⟨s, h, hread, hpoint, hsent, hjobs⟩ := reaches_empty_query
  obtain ⟨-, hall, -⟩ := wired_settled h hread hpoint hsent
  obtain ⟨hdone, r, hr, hcalls⟩ := hall 0 _ (by rw [hjobs]; rfl) rfl rfl
  cases hr
  exact ⟨s, h, hdone, hcalls⟩

/-- It has been written, and the reader waits with room for more. -/
theorem wired_routed_empty_query : ∃ s, Wired.Reaches ⟨4, [], false, true⟩ s ∧ s.written = [1] ∧
    0 < s.reader.readBuffer.preparedSize ∧ ∀ ev ∈ s.reader.events, ev.Below 1 := by
  obtain ⟨s, h, -, hpoint, -, hjobs⟩ := reaches_empty_query
  obtain ⟨hwaits, -, -, hwritten, _, _, _, -, -, -, -, -, hbelow, -⟩ := wired_routed h
  rw [hjobs] at hwritten hbelow
  refine ⟨s, h, hwritten, ?_, hbelow⟩
  rcases hwaits with ⟨-, hroom⟩ | ⟨msg, hadding⟩
  · exact hroom
  · rw [hpoint] at hadding
    cases hadding

end Multiplexing

end NativePg
