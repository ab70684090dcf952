/-
  File:      NativePg/ExecSome/Sessions.lean
  Subject:   Incremental executions one after the other (src/co_connection.cpp): the state machine
             lives in an optional that outlasts the calls.

  * `CoConnection`, `setupRequest`, `execSome`, `readSomeMessages` -- `co_connection::impl` and its
    members. A coroutine that waits for a write or a read is a phase of its own, and so is a
    `BOOST_ASSERT` that has fired;
  * `SessionEvent`, `step`, `Reachable` -- what the user, the transport and `connect` can do next;
  * `Invariant`, `invariant_reachable` -- the optional is empty between two sessions unless an I/O
    error has ended one: that edge of `exec_some` leaves without `reset`, and `connect` does not
    touch the optional either;
  * `sessions_exactly` -- so the assertions hold, and every session begins with its own request,
    in exactly those runs that start no session behind an I/O error.
-/
import NativePg.ExecSome.Fsm

namespace NativePg

/-! ## 1. The connection -/

/-- An engaged `exec_some_fsm`: the machine with its request, and the handler it was given. -/
structure EngagedFsm where
  fsm : ExecSomeFsm
  handler : HandlerSetup

/-- `exec_some_fsm(&req, handler)`. -/
def engagedFsm (req : Request) (handler : HandlerSetup) : EngagedFsm where
  fsm := { readFsm := readResponseFsm req true }
  handler := handler

/-- `co_connection::impl`, without the sockets. -/
structure CoConnection where
  st : ConnectionState
  copyOutBuffers : List ConstBuffer := []
  execSomeFsm : Option EngagedFsm := none

/-- The assertions of `impl`. -/
inductive AssertSite where
  /-- `BOOST_ASSERT(!exec_some_fsm.has_value())` in `setup_request`. -/
  | setupRequest
  /-- `BOOST_ASSERT(exec_some_fsm.has_value())` in `exec_some`. -/
  | execSome
  deriving DecidableEq, Repr

/-- Where the connection and its user are. -/
inductive SessionPhase where
  /-- Not connected, or the last session has failed: `connect` is next. -/
  | closed
  /-- Connected, and no session is open. -/
  | ready
  /-- A session is open, and no call is running. -/
  | idle
  /-- `exec_some` waits for its write. -/
  | writing
  /-- `read_some_messages` waits for its read. -/
  | reading
  /-- `read_some_messages` has found a message, and `exec_some` resumes its machine. -/
  | looping
  | aborted (site : AssertSite)
  /-- A fault inside the machine or the buffer. -/
  | faulted (fault : Fault)
  deriving DecidableEq, Repr

/-- A session: what was passed to `setup_request`, and what the machine has returned since, with
    the request the machine had. -/
structure SessionLog where
  req : Request
  handler : HandlerSetup
  results : List (Request × ExecSomeResult) := []

/-- The connection, its user, and the sessions so far, the newest first. -/
structure Sessions where
  conn : CoConnection
  phase : SessionPhase := .closed
  log : List SessionLog := []

namespace Sessions

def new (st : ConnectionState) : Sessions where
  conn := { st }

/-- The machine of the newest session has returned `r`. -/
def note (s : Sessions) (req : Request) (r : ExecSomeResult) : Sessions :=
  match s.log with
  | [] => s
  | l :: rest => { s with log := { l with results := l.results ++ [(req, r)] } :: rest }

/-- `impl::setup_request`. -/
def setupRequest (s : Sessions) (req : Request) (handler : HandlerSetup) : Sessions :=
  if s.conn.execSomeFsm.isSome then { s with phase := .aborted .setupRequest }
  else
    { conn := { s.conn with execSomeFsm := some (engagedFsm req handler) }
      phase := .idle
      log := { req, handler } :: s.log }

/-- `read_some_messages`, from the head of its loop to its next read or its end. -/
def readSomeMessages (s : Sessions) : Sessions :=
  let missingBytes := messageMissingBytes s.conn.st.committed
  if missingBytes = 0 then { s with phase := .looping }
  else
    match s.conn.st.readBuffer.prepare missingBytes with
    | .error fault => { s with phase := .faulted fault }
    | .ok rb =>
      { s with conn := { s.conn with st := { s.conn.st with readBuffer := rb } }, phase := .reading }

/-- What the machine has made of the connection. -/
def resumed (s : Sessions) (handler : HandlerSetup) (x : ExecSome) : Sessions :=
  { s with conn := {
      st := x.st
      copyOutBuffers := x.copyBuffs
      execSomeFsm := some ⟨x.fsm, handler⟩ } }

/-- The loop of `exec_some`, from `fsm.resume` to the next wait or `co_return`. -/
def drive (s : Sessions) (e : EngagedFsm) : Sessions :=
  let x := ExecSome.resume e.handler
    { fsm := e.fsm, st := s.conn.st, copyBuffs := s.conn.copyOutBuffers, result := .ok .write }
  let s := s.resumed e.handler x
  match x.result with
  | .error fault => { s with phase := .faulted fault }
  | .ok r =>
    let s := s.note x.fsm.readFsm.req r
    match r with
    | .write => { s with phase := .writing }
    | .read => s.readSomeMessages
    | .copyOut _ => { s with phase := .idle }
    | .copyData => { s with phase := .idle }
    | .copyDataWithEof => { s with phase := .idle }
    | .done ec =>
      -- the only edge with a `reset`
      { s with
        conn := { s.conn with execSomeFsm := none }
        phase := if ec.failed then .closed else .ready }

/-- `exec_some` goes on with the machine it has a reference to. -/
def resumeFsm (s : Sessions) (site : SessionPhase) : Sessions :=
  match s.conn.execSomeFsm with
  | none => { s with phase := site }
  | some e => s.drive e

/-- `exec_some`, up to its first wait. -/
def execSome (s : Sessions) : Sessions := s.resumeFsm (.aborted .execSome)

/-- The write of `exec_some` has finished. -/
def wrote (s : Sessions) (ec : ErrorCode) : Sessions :=
  if ec.failed then { s with phase := .closed } else s.resumeFsm (.faulted .outOfRange)

/-- The read of `read_some_messages` has finished. -/
def readSome (s : Sessions) (ec : ErrorCode) (data : Bytes) : Sessions :=
  if ec.failed then { s with phase := .closed }
  else
    { s with conn := { s.conn with st := { s.conn.st with
        readBuffer := (s.conn.st.readBuffer.receive data).commit data.length } } }.readSomeMessages

/-- `connect` has succeeded. It works on the socket and on `st`, whatever it leaves there. -/
def connected (s : Sessions) (st : ConnectionState) : Sessions :=
  { s with conn := { s.conn with st }, phase := .ready }

end Sessions

/-! ## 2. Runs -/

/-- What can happen next. -/
inductive SessionEvent where
  | connect (st : ConnectionState)
  | setupRequest (req : Request) (handler : HandlerSetup)
  | execSome
  | wrote (ec : ErrorCode)
  | readSome (ec : ErrorCode) (data : Bytes)
  | resumed

/-- A write or a read has failed. -/
def SessionEvent.ioFails : SessionEvent → Bool
  | .wrote ec => ec.failed
  | .readSome ec _ => ec.failed
  | _ => false

namespace Sessions

/-- One event, where it is possible: a session is open from its `setup_request` to the call that
    returns an error or the final result, a failed one is followed by `connect`, and a read brings
    no more than there is room for. -/
def step (s : Sessions) : SessionEvent → Option Sessions
  | .connect st =>
      if s.phase = .closed ∨ s.phase = .ready then some (s.connected st) else none
  | .setupRequest req handler =>
      if s.phase = .ready then some (s.setupRequest req handler) else none
  | .execSome => if s.phase = .idle then some s.execSome else none
  | .wrote ec => if s.phase = .writing then some (s.wrote ec) else none
  | .readSome ec data =>
      if s.phase = .reading ∧ data.length ≤ s.conn.st.readBuffer.preparedSize then
        some (s.readSome ec data)
      else none
  | .resumed =>
      if s.phase = .looping then some (s.resumeFsm (.faulted .outOfRange)) else none

/-- What a new connection can be brought to by these events. -/
inductive Reachable (st : ConnectionState) : List SessionEvent → Sessions → Prop where
  | new : Reachable st [] (.new st)
  | step {events s s'} (e : SessionEvent) (h : Reachable st events s) (hs : s.step e = some s') :
      Reachable st (events ++ [e]) s'

end Sessions

/-- A session is started behind an I/O error. -/
def RestartsAfterIoError (events : List SessionEvent) : Prop :=
  ∃ before req handler after, events = before ++ .setupRequest req handler :: after ∧
    before.any SessionEvent.ioFails = true

/-- The first thing the session's machine did: it returned the session's own request to be written,
    or refused it. -/
def SessionLog.StartsWithOwn (l : SessionLog) : Prop :=
  ∀ first rest, l.results = first :: rest →
    first.1 = l.req ∧
    (first.2 = .write ∧ (setupRequest l.req l.handler).failed = false ∨
      first.2 = .done (setupRequest l.req l.handler) ∧ (setupRequest l.req l.handler).failed = true)

/-! ## 3. What holds in every run -/

/-- **The first resume of a machine** hands out the request it was constructed with, or refuses
    it. -/
theorem resume_engagedFsm {req : Request} {handler : HandlerSetup} {st : ConnectionState}
    {copyBuffs : List ConstBuffer} {x : ExecSome}
    (hx : ExecSome.resume handler
      { fsm := (engagedFsm req handler).fsm, st := st, copyBuffs := copyBuffs,
        result := .ok .write } = x) :
    x.fsm.readFsm.req = req ∧
      (x.result = .ok .write ∧ (setupRequest req handler).failed = false ∨
        x.result = .ok (.done (setupRequest req handler)) ∧
          (setupRequest req handler).failed = true) := by
  unfold ExecSome.resume engagedFsm at hx
  simp only at hx
  by_cases hfailed : (setupRequest req handler).failed = true
  · rw [show (readResponseFsm req true).req = req from rfl, if_pos hfailed] at hx
    rw [← hx]
    exact ⟨rfl, .inr ⟨rfl, hfailed⟩⟩
  · rw [show (readResponseFsm req true).req = req from rfl, if_neg hfailed] at hx
    rw [← hx]
    exact ⟨rfl, .inl ⟨rfl, eq_false_of_ne_true hfailed⟩⟩

theorem SessionLog.StartsWithOwn.append {l : SessionLog} (h : l.StartsWithOwn) (hne : l.results ≠ [])
    (x : Request × ExecSomeResult) :
    StartsWithOwn { l with results := l.results ++ [x] } := by
  intro first rest hresults
  cases hl : l.results with
  | nil => exact absurd hl hne
  | cons first' rest' =>
    have hcons : first' :: (rest' ++ [x]) = first :: rest := by
      rw [← hresults, hl]
      rfl
    cases hcons
    exact h first rest' hl

namespace Sessions

/-- A session is open: the optional holds its machine, as constructed until it is resumed. -/
def Open (s : Sessions) : Prop :=
  ∃ e l rest, s.conn.execSomeFsm = some e ∧ s.log = l :: rest ∧
    (l.results = [] → e = engagedFsm l.req l.handler)

/-- The optional in every phase; `failed` says whether there has been an I/O error. -/
def Consistent (failed : Bool) (s : Sessions) : Prop :=
  match s.phase with
  | .closed | .ready => s.conn.execSomeFsm.isSome = failed
  | .idle | .writing | .reading | .looping => failed = false ∧ s.Open
  | .aborted site => site = .setupRequest
  | .faulted _ => failed = false

/-- Every session has begun with its own request. -/
def OwnStarts (s : Sessions) : Prop := ∀ l ∈ s.log, l.StartsWithOwn

/-- What holds behind a call that went on without an I/O error. -/
structure Goes (s : Sessions) : Prop where
  starts : s.OwnStarts
  consistent : s.Consistent false
  running : ∀ site, s.phase ≠ .aborted site

/-- `read_some_messages` leaves the session open. -/
theorem goes_readSomeMessages {s : Sessions} (hstarts : s.OwnStarts) (hopen : s.Open) :
    s.readSomeMessages.Goes := by
  unfold readSomeMessages
  simp only
  split
  · exact ⟨hstarts, ⟨rfl, hopen⟩, fun site => by simp⟩
  · split
    · exact ⟨hstarts, rfl, fun site => by simp⟩
    · exact ⟨hstarts, ⟨rfl, hopen⟩, fun site => by simp⟩

/-- **What `exec_some` does between two waits**: every edge but the I/O errors' leaves the optional
    as the phase asks for. -/
theorem goes_drive {s : Sessions} {e : EngagedFsm} {l : SessionLog} {rest : List SessionLog}
    (hstarts : s.OwnStarts) (hlog : s.log = l :: rest)
    (hfresh : l.results = [] → e = engagedFsm l.req l.handler) : (s.drive e).Goes := by
  have hrest : ∀ l' ∈ rest, l'.StartsWithOwn := fun l' hl' => hstarts l' (by rw [hlog]; simp [hl'])
  have hl : l.StartsWithOwn := hstarts l (by rw [hlog]; simp)
  unfold drive
  simp only
  generalize hx : ExecSome.resume e.handler
    { fsm := e.fsm, st := s.conn.st, copyBuffs := s.conn.copyOutBuffers, result := .ok .write } = x
  cases hr : x.result with
  | error fault => exact ⟨hstarts, rfl, nofun⟩
  | ok r =>
    simp only
    -- the session with the new result
    obtain ⟨l', hl'⟩ : ∃ l' : SessionLog,
        l' = { l with results := l.results ++ [(x.fsm.readFsm.req, r)] } := ⟨_, rfl⟩
    have hne : l'.results ≠ [] := by
      rw [hl']
      simp
    have hown : l'.StartsWithOwn := by
      rw [hl']
      by_cases hnil : l.results = []
      · rw [hfresh hnil] at hx
        have hfirst := @resume_engagedFsm l.req l.handler _ _ x hx
        rw [hr] at hfirst
        intro first rest' hresults
        rw [hnil] at hresults
        cases hresults
        simpa using hfirst
      · exact hl.append hnil _
    have hnote : (s.resumed e.handler x).note x.fsm.readFsm.req r =
        { s.resumed e.handler x with log := l' :: rest } := by
      have hlog' : (s.resumed e.handler x).log = l :: rest := hlog
      unfold note
      rw [hlog', hl']
    rw [hnote]
    have hstarts' : ∀ l'' ∈ l' :: rest, l''.StartsWithOwn := by
      intro l'' hmem
      rcases List.mem_cons.mp hmem with rfl | hmem
      · exact hown
      · exact hrest l'' hmem
    have hopen : Open { s.resumed e.handler x with log := l' :: rest } :=
      ⟨_, l', rest, rfl, rfl, fun h => absurd h hne⟩
    cases r with
    | write => exact ⟨hstarts', ⟨rfl, hopen⟩, nofun⟩
    | read => exact goes_readSomeMessages hstarts' hopen
    | copyOut m => exact ⟨hstarts', ⟨rfl, hopen⟩, nofun⟩
    | copyData => exact ⟨hstarts', ⟨rfl, hopen⟩, nofun⟩
    | copyDataWithEof => exact ⟨hstarts', ⟨rfl, hopen⟩, nofun⟩
    | done ec =>
      cases hec : ec.failed with
      | true => exact ⟨hstarts', by simp [Consistent, hec], by simp [hec]⟩
      | false => exact ⟨hstarts', by simp [Consistent, hec], by simp [hec]⟩

theorem goes_resumeFsm {s : Sessions} (hstarts : s.OwnStarts) (hopen : s.Open)
    (site : SessionPhase) : (s.resumeFsm site).Goes := by
  obtain ⟨e, l, rest, he, hlog, hfresh⟩ := hopen
  unfold resumeFsm
  rw [he]
  exact goes_drive hstarts hlog hfresh

/-- What holds in every state that is reached: the assertion of `setup_request` fires where a
    session is started behind an I/O error, and only there. -/
structure Invariant (events : List SessionEvent) (s : Sessions) : Prop where
  starts : s.OwnStarts
  consistent : s.Consistent (events.any SessionEvent.ioFails)
  aborts : RestartsAfterIoError events ↔ ∃ site, s.phase = .aborted site

end Sessions

/-- One more event restarts if it is a `setup_request` behind an I/O error. -/
theorem restartsAfterIoError_snoc (events : List SessionEvent) (e : SessionEvent) :
    RestartsAfterIoError (events ++ [e]) ↔ RestartsAfterIoError events ∨
      ((∃ req handler, e = .setupRequest req handler) ∧
        events.any SessionEvent.ioFails = true) := by
  constructor
  · intro h
    obtain ⟨before, req, handler, after, heq, hfails⟩ := h
    rcases List.eq_nil_or_concat after with hnil | ⟨after', e', hafter⟩
    · rw [hnil] at heq
      obtain ⟨hevents, he⟩ := List.append_inj' heq rfl
      cases he
      rw [hevents]
      exact .inr ⟨⟨req, handler, rfl⟩, hfails⟩
    · rw [hafter, List.concat_eq_append, ← List.cons_append, ← List.append_assoc] at heq
      obtain ⟨hevents, -⟩ := List.append_inj' heq rfl
      exact .inl ⟨before, req, handler, after', hevents, hfails⟩
  · intro h
    rcases h with ⟨before, req, handler, after, heq, hfails⟩ | ⟨⟨req, handler, he⟩, hfails⟩
    · exact ⟨before, req, handler, after ++ [e], by rw [heq]; simp, hfails⟩
    · exact ⟨events, req, handler, [], by rw [he], hfails⟩

namespace Sessions

variable {events : List SessionEvent} {s s' : Sessions}

/-- An event that is possible has not been preceded by an abort. -/
theorem Invariant.not_restarts (h : Invariant events s) (hphase : ∀ site, s.phase ≠ .aborted site) :
    ¬RestartsAfterIoError events := by
  intro hr
  obtain ⟨site, hsite⟩ := h.aborts.mp hr
  exact hphase site hsite

/-- An event other than `setup_request` that goes on. -/
theorem Invariant.goes {e : SessionEvent} (hno : ¬RestartsAfterIoError events)
    (hfails : events.any SessionEvent.ioFails = false) (he : e.ioFails = false)
    (hsetup : ∀ req handler, e ≠ .setupRequest req handler) (h : s'.Goes) :
    Invariant (events ++ [e]) s' where
  starts := h.starts
  consistent := by
    have hany : (events ++ [e]).any SessionEvent.ioFails = false := by
      rw [List.any_append, hfails]
      simp [he]
    rw [hany]
    exact h.consistent
  aborts := by
    rw [restartsAfterIoError_snoc]
    constructor
    · intro hr
      rcases hr with hr | ⟨⟨req, handler, hreq⟩, -⟩
      · exact absurd hr hno
      · exact absurd hreq (hsetup req handler)
    · intro hsite
      obtain ⟨site, hsite⟩ := hsite
      exact absurd hsite (h.running site)

/-- An I/O error ends the session and leaves the machine where it is. -/
theorem Invariant.fails {e : SessionEvent} (h : Invariant events s)
    (hno : ¬RestartsAfterIoError events) (hopen : s.Open) (he : e.ioFails = true)
    (hsetup : ∀ req handler, e ≠ .setupRequest req handler) :
    Invariant (events ++ [e]) { s with phase := .closed } where
  starts := h.starts
  consistent := by
    obtain ⟨m, l, rest, hm, -⟩ := hopen
    simp [Consistent, hm, he]
  aborts := by
    rw [restartsAfterIoError_snoc]
    constructor
    · intro hr
      rcases hr with hr | ⟨⟨req, handler, hreq⟩, -⟩
      · exact absurd hr hno
      · exact absurd hreq (hsetup req handler)
    · intro hsite
      obtain ⟨site, hsite⟩ := hsite
      cases hsite

/-- In the phases of a session there has been no I/O error, and the session is open. -/
theorem Invariant.isOpen (h : Invariant events s)
    (hphase : s.phase ∈ [SessionPhase.idle, .writing, .reading, .looping]) :
    ¬RestartsAfterIoError events ∧ events.any SessionEvent.ioFails = false ∧ s.Open := by
  have hcons := h.consistent
  simp only [List.mem_cons, List.not_mem_nil, or_false] at hphase
  rcases hphase with hphase | hphase | hphase | hphase <;>
  · simp only [Consistent, hphase] at hcons
    exact ⟨h.not_restarts fun site => by rw [hphase]; nofun, hcons⟩

/-- `setup_request` opens a session, or finds the machine of one that failed. -/
theorem Invariant.setupRequest (h : Invariant events s) (hphase : s.phase = .ready) (req : Request)
    (handler : HandlerSetup) :
    Invariant (events ++ [.setupRequest req handler]) (s.setupRequest req handler) := by
  have hno : ¬RestartsAfterIoError events := h.not_restarts fun site => by rw [hphase]; nofun
  have hfsm : s.conn.execSomeFsm.isSome = events.any SessionEvent.ioFails := by
    have hcons := h.consistent
    simpa only [Consistent, hphase] using hcons
  unfold Sessions.setupRequest
  cases hengaged : s.conn.execSomeFsm.isSome with
  | true =>
    -- the machine of the session that failed
    refine ⟨h.starts, rfl, ?_⟩
    rw [restartsAfterIoError_snoc, ← hfsm, hengaged]
    simp
  | false =>
    refine ⟨?_, ?_, ?_⟩
    · intro l hl
      rcases List.mem_cons.mp hl with rfl | hl
      · intro first rest hresults
        cases hresults
      · exact h.starts l hl
    · rw [List.any_append, ← hfsm, hengaged]
      exact ⟨rfl, _, _, _, rfl, rfl, fun _ => rfl⟩
    · rw [restartsAfterIoError_snoc, ← hfsm, hengaged]
      simp [hno]

/-- `connect` leaves the optional as it is. -/
theorem Invariant.connected (h : Invariant events s) (hphase : s.phase = .closed ∨ s.phase = .ready)
    (st : ConnectionState) : Invariant (events ++ [.connect st]) (s.connected st) := by
  have hno : ¬RestartsAfterIoError events := h.not_restarts fun site hsite => by
    rcases hphase with hphase | hphase <;> rw [hphase] at hsite <;> cases hsite
  refine ⟨h.starts, ?_, ?_⟩
  · have hcons := h.consistent
    have hfsm : s.conn.execSomeFsm.isSome = events.any SessionEvent.ioFails := by
      rcases hphase with hphase | hphase <;> simpa only [Consistent, hphase] using hcons
    simpa [Consistent, Sessions.connected, SessionEvent.ioFails] using hfsm
  · rw [restartsAfterIoError_snoc]
    simp [hno, Sessions.connected]

/-- **One event.** -/
theorem Invariant.step {e : SessionEvent} (h : Invariant events s) (hs : s.step e = some s') :
    Invariant (events ++ [e]) s' := by
  cases e with
  | connect st =>
    simp only [Sessions.step, Option.ite_none_right_eq_some, Option.some.injEq] at hs
    obtain ⟨hphase, rfl⟩ := hs
    exact h.connected hphase st
  | setupRequest req handler =>
    simp only [Sessions.step, Option.ite_none_right_eq_some, Option.some.injEq] at hs
    obtain ⟨hphase, rfl⟩ := hs
    exact h.setupRequest hphase req handler
  | execSome =>
    simp only [Sessions.step, Option.ite_none_right_eq_some, Option.some.injEq] at hs
    obtain ⟨hphase, rfl⟩ := hs
    obtain ⟨hno, hfails, hopen⟩ := h.isOpen (by simp [hphase])
    exact Invariant.goes hno hfails rfl nofun (goes_resumeFsm h.starts hopen _)
  | wrote ec =>
    simp only [Sessions.step, Option.ite_none_right_eq_some, Option.some.injEq] at hs
    obtain ⟨hphase, rfl⟩ := hs
    obtain ⟨hno, hfails, hopen⟩ := h.isOpen (by simp [hphase])
    unfold Sessions.wrote
    by_cases hec : ec.failed = true
    · rw [if_pos hec]
      exact h.fails hno hopen hec nofun
    · rw [if_neg hec]
      exact Invariant.goes hno hfails (eq_false_of_ne_true hec) nofun
        (goes_resumeFsm h.starts hopen _)
  | readSome ec data =>
    simp only [Sessions.step, Option.ite_none_right_eq_some, Option.some.injEq] at hs
    obtain ⟨⟨hphase, -⟩, rfl⟩ := hs
    obtain ⟨hno, hfails, hopen⟩ := h.isOpen (by simp [hphase])
    unfold Sessions.readSome
    by_cases hec : ec.failed = true
    · rw [if_pos hec]
      exact h.fails hno hopen hec nofun
    · rw [if_neg hec]
      exact Invariant.goes hno hfails (eq_false_of_ne_true hec) nofun
        (goes_readSomeMessages h.starts hopen)
  | resumed =>
    simp only [Sessions.step, Option.ite_none_right_eq_some, Option.some.injEq] at hs
    obtain ⟨hphase, rfl⟩ := hs
    obtain ⟨hno, hfails, hopen⟩ := h.isOpen (by simp [hphase])
    exact Invariant.goes hno hfails rfl nofun (goes_resumeFsm h.starts hopen _)

/-- **Every run.** -/
theorem invariant_reachable {st : ConnectionState} (h : Reachable st events s) :
    Invariant events s := by
  induction h with
  | new =>
    refine ⟨nofun, rfl, ?_⟩
    constructor
    · intro hr
      obtain ⟨before, req, handler, after, heq, -⟩ := hr
      cases before <;> cases heq
    · intro hsite
      obtain ⟨site, hsite⟩ := hsite
      cases hsite
  | step e _ hs ih => exact ih.step hs

/-- **Incremental executions can follow each other in exactly the runs that start no session
    behind an I/O error**: in these no assertion of `setup_request` or `exec_some` fires, and the
    first thing every session does is to hand out its own request, or to refuse it. -/
theorem sessions_exactly {st : ConnectionState} (h : Reachable st events s) :
    (∀ site, s.phase ≠ .aborted site) ∧ (∀ l ∈ s.log, l.StartsWithOwn) ↔
      ¬RestartsAfterIoError events := by
  have hinv := invariant_reachable h
  rw [hinv.aborts, not_exists]
  exact and_iff_left hinv.starts

/-- One simple query. -/
def simpleQuery : Request where
  payload := []
  messages := [.query]

/-- A handler that takes the whole request. -/
def wholeHandler : HandlerSetup := fun req _ => (.success, req.messages.length)

/-- `ECONNRESET`. -/
def connectionReset : ErrorCode := ⟨104, .system⟩

/-- Two sessions; the server hangs up before the first request is written, and the user connects
    again. -/
def hangUp : List SessionEvent :=
  [.connect {}, .setupRequest simpleQuery wholeHandler, .execSome, .wrote connectionReset,
    .connect {}, .setupRequest simpleQuery wholeHandler]

theorem reachable_hangUp : ∃ s, Reachable {} hangUp s ∧ s.phase = .aborted .setupRequest := by
  have h1 : Reachable {} [.connect {}] _ := Reachable.step (.connect {}) .new rfl
  have h2 := Reachable.step (.setupRequest simpleQuery wholeHandler) h1 rfl
  have h3 := Reachable.step .execSome h2 rfl
  have h4 := Reachable.step (.wrote connectionReset) h3 rfl
  have h5 := Reachable.step (.connect {}) h4 rfl
  have h6 := Reachable.step (.setupRequest simpleQuery wholeHandler) h5 rfl
  exact ⟨_, h6, rfl⟩

/-- The second `setup_request` fires its assertion. -/
theorem hangUp_aborts :
    ∃ s, Reachable {} hangUp s ∧
      ¬((∀ site, s.phase ≠ .aborted site) ∧ ∀ l ∈ s.log, l.StartsWithOwn) := by
  obtain ⟨s, hreach, hphase⟩ := reachable_hangUp
  exact ⟨s, hreach, fun h => h.1 _ hphase⟩

/-- The first session alone, and the one that comes after a refused request, meet no assertion. -/
theorem sessions_exactly_refused :
    ∃ s, Reachable {} [.connect {}, .setupRequest { simpleQuery with messages := [] } wholeHandler,
        .execSome, .connect {}, .setupRequest simpleQuery wholeHandler, .execSome] s ∧
      s.phase = .writing ∧ ∀ l ∈ s.log, l.StartsWithOwn := by
  have h1 : Reachable {} [.connect {}] _ := Reachable.step (.connect {}) .new rfl
  have h2 := Reachable.step
    (.setupRequest { simpleQuery with messages := [] } wholeHandler) h1 rfl
  have h3 := Reachable.step .execSome h2 rfl
  have h4 := Reachable.step (.connect {}) h3 rfl
  have h5 := Reachable.step (.setupRequest simpleQuery wholeHandler) h4 rfl
  have h6 := Reachable.step .execSome h5 rfl
  refine ⟨_, h6, rfl, ((sessions_exactly h6).mpr ?_).2⟩
  intro hrestarts
  obtain ⟨before, req, handler, after, heq, hfails⟩ := hrestarts
  have hnone : ([.connect {}, .setupRequest { simpleQuery with messages := [] } wholeHandler,
      .execSome, .connect {}, .setupRequest simpleQuery wholeHandler, .execSome] :
      List SessionEvent).any SessionEvent.ioFails = false := rfl
  have hmore : (before ++ .setupRequest req handler :: after).any SessionEvent.ioFails = true := by
    rw [List.any_append, hfails]
    rfl
  rw [← heq] at hmore
  cases hmore.symm.trans hnone

end Sessions

end NativePg
