/-
  File:      NativePg/ReadResponse/Safety.lean
  Subject:   The response machine over whole message sequences: it stays inside the request, no
             assertion fires, and the ReadyForQuery messages add up.

  * `feed_rec` -- the induction over a sequence of messages, packaged once: a property of `feed`
    follows from what a single `Move` does;
  * **`feed_safe`** -- on an accepted request `feed` runs into no fault, whatever the server
    sends; at every resume the index is inside the request and a state other than `msg_first`
    belongs to a query or an execute; the two loops stop inside the request;
  * **`feed_rfqs`** -- ReadyForQuery messages read and ReadyForQuery messages still expected add
    up to those the request expects, in every state the machine passes through. The
    multiplexer resynchronises on this count alone.
-/
import NativePg.ReadResponse.Moves

namespace NativePg

open ReadResponse

namespace ReadResponseFsm

/-! ## 1. The induction over a message sequence -/

/-- **A property of whole runs from its three cases**: nothing fed yet; a message that ends the
    response; a message after which the machine asks for more. -/
theorem feed_rec {P : ReadResponseFsm → List AnyBackendMessage → Run → Prop}
    (nil : ∀ f : ReadResponseFsm, f.Wf → P f [] ⟨f, [], none, []⟩)
    (done : ∀ (f : ReadResponseFsm) msg msgs r ec, f.Wf → f.Move msg r → r.result = .done ec →
      P f (msg :: msgs) ⟨r.fsm, r.calls, some ec, msgs⟩)
    (read : ∀ (f : ReadResponseFsm) msg msgs r t, f.Wf → f.Move msg r → r.result = .read →
      r.fsm.Wf → P r.fsm msgs t → P f (msg :: msgs) (t.after r.calls)) :
    ∀ (msgs : List AnyBackendMessage) (f : ReadResponseFsm), f.Wf →
      ∃ r, f.feed msgs = .ok r ∧ P f msgs r
  | [], f, hf => ⟨_, rfl, nil f hf⟩
  | msg :: msgs, f, hf => by
      obtain ⟨r, hr, hmove⟩ := resume_move hf msg
      unfold feed
      rw [hr]
      cases hres : r.result with
      | done ec => exact ⟨_, by simp only [hres], done f msg msgs r ec hf hmove hres⟩
      | read =>
          have hwf := hmove.wf hf hres
          obtain ⟨t, ht, hP⟩ := feed_rec nil done read msgs r.fsm hwf
          refine ⟨t.after r.calls, ?_, read f msg msgs r t hf hmove hres hwf hP⟩
          simp only [hres, ht]
          rfl

/-- `feed_rec`, for a run that is already there. -/
theorem feed_rec_of {P : ReadResponseFsm → List AnyBackendMessage → Run → Prop}
    (nil : ∀ f : ReadResponseFsm, f.Wf → P f [] ⟨f, [], none, []⟩)
    (done : ∀ (f : ReadResponseFsm) msg msgs r ec, f.Wf → f.Move msg r → r.result = .done ec →
      P f (msg :: msgs) ⟨r.fsm, r.calls, some ec, msgs⟩)
    (read : ∀ (f : ReadResponseFsm) msg msgs r t, f.Wf → f.Move msg r → r.result = .read →
      r.fsm.Wf → P r.fsm msgs t → P f (msg :: msgs) (t.after r.calls))
    {f : ReadResponseFsm} (hf : f.Wf) {msgs : List AnyBackendMessage} {r : Run}
    (hr : f.feed msgs = .ok r) : P f msgs r := by
  obtain ⟨r', hr', hP⟩ := feed_rec nil done read msgs f hf
  rw [hr] at hr'
  cases hr'
  exact hP

/-- A move keeps the request and the COPY permission. -/
theorem Move.req {f : ReadResponseFsm} {msg : AnyBackendMessage} {r : Reply} (h : f.Move msg r)
    (hr : r.result = .read) : r.fsm.req = f.req ∧ r.fsm.allowCopy = f.allowCopy := by
  cases h with
  | reject g e => cases hr
  | async _ | stay _ _ | finish _ _ | error _ _ _ _ _ _ => exact ⟨rfl, rfl⟩

/-- While the machine asks for more it stands inside the request it was constructed with, and
    has read every message. -/
theorem feed_wf {f : ReadResponseFsm} (hf : f.Wf) (msgs : List AnyBackendMessage) :
    ∃ r, f.feed msgs = .ok r ∧
      (r.finished = none → r.fsm.Wf ∧ r.fsm.req = f.req ∧ r.unread = []) := by
  refine feed_rec (P := fun f _ r =>
    r.finished = none → r.fsm.Wf ∧ r.fsm.req = f.req ∧ r.unread = []) ?_ ?_ ?_ msgs f hf
  · exact fun f hf _ => ⟨hf, rfl, rfl⟩
  · intro f msg msgs r ec _ _ _ h
    cases h
  · intro f msg msgs r t _ hmove hres _ ih hfin
    obtain ⟨hwf, hreq, hun⟩ := ih hfin
    exact ⟨hwf, hreq.trans (hmove.req hres).1, hun⟩

/-! ## 2. Safety -/

theorem Wf.current_lt {f : ReadResponseFsm} (hf : f.Wf) : f.current < f.req.messages.length := by
  have hl := f.length_eq hf.ne
  have hpos := List.length_pos_iff.mpr hf.ne
  omega

/-- The request message the machine stands at. -/
theorem Wf.head {f : ReadResponseFsm} (hf : f.Wf) :
    ∃ m rest, f.getRemainingMessages = m :: rest ∧ f.req.messages[f.current]? = some m := by
  obtain ⟨m, rest, h⟩ := List.exists_cons_of_ne_nil hf.ne
  have hd : f.req.messages.drop f.current = m :: rest := h
  refine ⟨m, rest, h, ?_⟩
  rw [← Nat.add_zero f.current, ← List.getElem?_drop, hd]
  rfl

theorem Wf.state_cases {f : ReadResponseFsm} (hf : f.Wf) (hs : f.state ≠ .msgFirst) :
    f.req.messages[f.current]? = some .query ∨ f.req.messages[f.current]? = some .execute := by
  obtain ⟨m, rest, hrem, hm⟩ := hf.head
  have hh := hf.state m rest hrem
  rw [hm]
  by_cases hq : m = .query
  · exact .inl (congrArg some hq)
  · by_cases he : m = .execute
    · exact .inr (congrArg some he)
    · exact absurd (state_of_holds hh ⟨he, hq⟩) hs

/-- The skipping loop of `handle_error`, started behind any extended message of an accepted
    request, stops at a sync inside the request and passes no query. -/
theorem skipToSync_inside {req : Request} (h : req.Accepted) {i : Nat} {m : RequestMessageType}
    (hi : req.messages[i]? = some m) (hm : m.isExtended = true) :
    ∃ j cs, skipToSync (req.messages.drop (i + 1)) (i + 1) = some (j, cs) ∧ i < j ∧
      req.messages[j]? = some .sync ∧
      ∀ n, i < n → n < j → req.messages[n]? ≠ some .query := by
  obtain ⟨hlt, hget⟩ := List.getElem?_eq_some_iff.mp hi
  have hsplit : req.messages = req.messages.take i ++ m :: req.messages.drop (i + 1) := by
    rw [← hget, List.getElem_cons_drop, List.take_append_drop]
  have hbatch := h.batchOk
  rw [hsplit] at hbatch
  obtain ⟨b, hb⟩ := batchOk_suffix _ hbatch
  have hend : m.endsUnit = false := by cases m <;> first | rfl | cases hm
  obtain ⟨pre, post, hrest, hpre, _⟩ := (hb.tail_open hend).closes
  have hdrop : ∀ n, req.messages[i + 1 + n]? = (pre ++ .sync :: post)[n]? := by
    intro n
    rw [← hrest, List.getElem?_drop]
  refine ⟨i + 1 + pre.length, skippedCalls pre (i + 1), ?_, by omega, ?_, fun n h1 h2 hn => ?_⟩
  · rw [hrest]
    exact skipToSync_spec pre post (i + 1) hpre
  · rw [hdrop, List.getElem?_append_right (by omega)]
    simp
  · obtain ⟨d, rfl⟩ : ∃ d, n = i + 1 + d := ⟨n - (i + 1), by omega⟩
    rw [hdrop, List.getElem?_append_left (by omega)] at hn
    have := hpre .query (List.mem_of_getElem? hn)
    cases this

/-- **The response machine is safe on every accepted request**, whatever the server sends: no
    assertion fires and no index leaves the request; whenever the machine is about to be resumed
    its index is valid, its flush loop stops inside the request, and its state differs from
    `msg_first` only at a query or an execute; the skipping loop of an error finds a sync before
    a query or the end. -/
theorem feed_safe {req : Request} (h : req.Accepted) (allowCopy : Bool)
    (msgs : List AnyBackendMessage) :
    ∃ r, (readResponseFsm req allowCopy).feed msgs = .ok r ∧
      (r.finished = none →
        r.fsm.req = req ∧
        r.fsm.current < req.messages.length ∧
        (∃ m j, skipFlush r.fsm.getRemainingMessages r.fsm.current = some (m, j) ∧
          j < req.messages.length) ∧
        (r.fsm.state ≠ .msgFirst → req.messages[r.fsm.current]? = some .query ∨
          req.messages[r.fsm.current]? = some .execute)) ∧
      (∀ i m, req.messages[i]? = some m → m.isExtended = true →
        ∃ j cs, skipToSync (req.messages.drop (i + 1)) (i + 1) = some (j, cs) ∧ i < j ∧
          req.messages[j]? = some .sync ∧
          ∀ n, i < n → n < j → req.messages[n]? ≠ some .query) := by
  obtain ⟨r, hr, hP⟩ := feed_wf (Wf.init h allowCopy) msgs
  refine ⟨r, hr, fun hfin => ?_, fun i m hi hm => skipToSync_inside h hi hm⟩
  obtain ⟨hwf, hreq, _⟩ := hP hfin
  have hreq' : r.fsm.req = req := hreq
  obtain ⟨k, m, rest, hb, hskip⟩ := hwf.before
  refine ⟨hreq', ?_, ⟨m, _, hskip, ?_⟩, fun hs => ?_⟩
  · rw [← hreq']
    exact hwf.current_lt
  · have hl := hb.length
    rw [hreq'] at hl
    omega
  · rw [← hreq']
    exact hwf.state_cases hs

/-- The execute behind a flush fails: the machine stands at the sync. -/
theorem feed_safe_flushed_batch :
    ∃ r, (readResponseFsm { messages := [.bind, .flush, .execute, .sync] } true).feed
        [.bindComplete, .errorResponse {}] = .ok r ∧
      (r.finished = none → r.fsm.current < 4) := by
  obtain ⟨r, hr, hsafe, _⟩ := feed_safe
    (show ({ messages := [.bind, .flush, .execute, .sync] } : Request).Accepted by decide) true
    [.bindComplete, .errorResponse {}]
  exact ⟨r, hr, fun hfin => (hsafe hfin).2.1⟩

/-! ## 3. ReadyForQuery accounting -/

/-- The ReadyForQuery messages of a sequence. -/
def countRfqs (msgs : List AnyBackendMessage) : Nat :=
  msgs.countP AnyBackendMessage.isReadyForQuery

theorem countRfqs_cons (m : AnyBackendMessage) (ms : List AnyBackendMessage) :
    countRfqs (m :: ms) = countRfqs ms + if m.isReadyForQuery then 1 else 0 :=
  List.countP_cons

theorem Stays.not_rfq {c : Bool} {m : RequestMessageType} {s s' : State}
    {msg : AnyBackendMessage} {cs : List AnyRequestMessage} (h : Stays c m s msg s' cs) :
    msg.isReadyForQuery = false := by
  cases h <;> rfl

/-- A message finishes a query or a sync exactly when it is ReadyForQuery. -/
theorem Finishes.rfq {m : RequestMessageType} {s : State} {msg : AnyBackendMessage}
    {cs : List AnyRequestMessage} (h : Finishes m s msg cs) :
    msg.isReadyForQuery = m.endsUnit := by
  cases h <;> rfl

theorem Before.expected {f : ReadResponseFsm} {k : Nat} {m : RequestMessageType}
    {rest : List RequestMessageType} (h : f.Before k m rest) :
    getExpectedRfqs f.getRemainingMessages =
      getExpectedRfqs rest + if m.endsUnit then 1 else 0 := by
  have hflush : getExpectedRfqs (List.replicate k .flush) = 0 :=
    getExpectedRfqs_of_open fun x hx => by rw [List.eq_of_mem_replicate hx]; rfl
  rw [h.remaining, getExpectedRfqs_append, hflush, getExpectedRfqs_cons]
  omega

/-- **One move**: what it reads and what it leaves to expect add up. -/
theorem Move.rfqs {f : ReadResponseFsm} {msg : AnyBackendMessage} {r : Reply} (h : f.Move msg r)
    (hr : r.result = .read) :
    (if msg.isReadyForQuery then 1 else 0) + getExpectedRfqs r.fsm.getRemainingMessages =
      getExpectedRfqs f.getRemainingMessages := by
  cases h with
  | async ha =>
      rw [AnyBackendMessage.isReadyForQuery_of_isAsync ha]
      simp
  | stay hb h =>
      rw [getRemainingMessages_set, hb.drop, h.not_rfq, hb.expected, getExpectedRfqs_cons]
      simp
  | finish hb h =>
      rw [getRemainingMessages_set, hb.drop_succ, h.rfq, hb.expected]
      omega
  | @error k m pre post e hmsg hb hm hh hpre =>
      have hd : f.req.messages.drop (f.current + k + 1 + pre.length) = .sync :: post := by
        rw [← List.drop_drop, hb.drop_succ, List.drop_left]
      have hend : m.endsUnit = false := by cases m <;> first | rfl | cases hm
      rw [getRemainingMessages_set, hd, hb.expected, getExpectedRfqs_append,
        getExpectedRfqs_of_open hpre, hend, hmsg]
      simp [AnyBackendMessage.isReadyForQuery]
  | reject g e => cases hr

/-- **The move that ends a response without error** reads the one ReadyForQuery that is left. -/
theorem Move.last {f : ReadResponseFsm} (hf : f.Wf) {msg : AnyBackendMessage} {r : Reply}
    {ec : ErrorCode} (h : f.Move msg r) (hr : r.result = .done ec) (hec : ec.failed = false) :
    msg.isReadyForQuery = true ∧ getExpectedRfqs f.getRemainingMessages = 1 := by
  cases h with
  | async _ | stay _ _ | error _ _ _ _ _ _ => cases hr
  | @finish k m rest cs hb h =>
      obtain ⟨b, hbatch⟩ := hb.batch hf
      cases rest with
      | cons x rest => simp [resultBefore] at hr
      | nil =>
          -- an accepted request ends with a query or a sync
          have hend : m.endsUnit = true := by
            by_contra hc
            exact (hbatch.tail_open (by simpa using hc)).ne_nil rfl
          rw [h.rfq, hb.expected, hend]
          exact ⟨rfl, rfl⟩
  | reject g e =>
      cases hr
      rw [ClientErrc.failed_code] at hec
      cases hec

/-- The accounting along a run, from any machine inside its request. -/
theorem feed_rfqs_aux {f : ReadResponseFsm} (hf : f.Wf) {msgs : List AnyBackendMessage} {r : Run}
    (hr : f.feed msgs = .ok r) :
    (r.finished = none → countRfqs msgs + getExpectedRfqs r.fsm.getRemainingMessages =
      getExpectedRfqs f.getRemainingMessages) ∧
    (∀ ec, r.finished = some ec → ec.failed = false →
      ∃ pre t, msgs = pre ++ .readyForQuery t :: r.unread ∧
        countRfqs pre + 1 = getExpectedRfqs f.getRemainingMessages) := by
  refine feed_rec_of (P := fun f msgs r =>
    (r.finished = none → countRfqs msgs + getExpectedRfqs r.fsm.getRemainingMessages =
      getExpectedRfqs f.getRemainingMessages) ∧
    (∀ ec, r.finished = some ec → ec.failed = false →
      ∃ pre t, msgs = pre ++ .readyForQuery t :: r.unread ∧
        countRfqs pre + 1 = getExpectedRfqs f.getRemainingMessages)) ?_ ?_ ?_ hf hr
  · intro f _
    refine ⟨fun _ => ?_, fun ec h => ?_⟩
    · simp [countRfqs]
    · cases h
  · intro f msg msgs r ec hf hmove hres
    refine ⟨fun h => ?_, fun ec' h hec => ?_⟩
    · cases h
    · cases h
      obtain ⟨hrfq, hone⟩ := hmove.last hf hres hec
      obtain ⟨t, rfl⟩ := isReadyForQuery_iff hrfq
      exact ⟨[], t, rfl, by rw [hone]; rfl⟩
  · intro f msg msgs r t hf hmove hres _ ih
    have hstep := hmove.rfqs hres
    refine ⟨fun h => ?_, fun ec h hec => ?_⟩
    · have := ih.1 h
      rw [countRfqs_cons, ← hstep, ← this]
      show _ + getExpectedRfqs t.fsm.getRemainingMessages = _
      omega
    · obtain ⟨pre, ts, hsplit, hcount⟩ := ih.2 ec h hec
      refine ⟨msg :: pre, ts, by rw [hsplit]; rfl, ?_⟩
      rw [countRfqs_cons, ← hstep, ← hcount]
      omega

/-- **ReadyForQuery accounting.** In every state in which the machine asks for more, the
    ReadyForQuery messages read so far and those the remaining messages expect add up to those
    the request expects; a response that ends without error has read exactly those, the last
    message being one of them; and there is at least one. -/
theorem feed_rfqs {req : Request} (h : req.Accepted) (allowCopy : Bool)
    (msgs : List AnyBackendMessage) :
    ∃ r, (readResponseFsm req allowCopy).feed msgs = .ok r ∧
      (r.finished = none → countRfqs msgs + getExpectedRfqs r.fsm.getRemainingMessages =
        getExpectedRfqs req.messages) ∧
      (∀ ec, r.finished = some ec → ec.failed = false →
        ∃ pre t, msgs = pre ++ .readyForQuery t :: r.unread ∧
          countRfqs (pre ++ [.readyForQuery t]) = getExpectedRfqs req.messages) ∧
      1 ≤ getExpectedRfqs req.messages := by
  have hf := Wf.init h allowCopy
  obtain ⟨r, hr, _⟩ := feed_wf hf msgs
  obtain ⟨h1, h2⟩ := feed_rfqs_aux hf hr
  refine ⟨r, hr, h1, fun ec hfin hec => ?_, h.batchOk.getExpectedRfqs_pos h.ne_nil⟩
  obtain ⟨pre, t, hsplit, hcount⟩ := h2 ec hfin hec
  refine ⟨pre, t, hsplit, ?_⟩
  have e : countRfqs (pre ++ [.readyForQuery t]) = countRfqs pre + 1 := by
    simp [countRfqs, AnyBackendMessage.isReadyForQuery]
  rw [e]
  exact hcount

/-- In the middle of the second of two units one ReadyForQuery has been read and one is left. -/
theorem feed_rfqs_two_units :
    ∃ r, (readResponseFsm { messages := [.query, .parse, .sync] }).feed
        [.commandComplete [], .readyForQuery .idle, .errorResponse {}] = .ok r ∧
      (r.finished = none → 1 + getExpectedRfqs r.fsm.getRemainingMessages = 2) := by
  obtain ⟨r, hr, hcount, _⟩ := feed_rfqs
    (show ({ messages := [.query, .parse, .sync] } : Request).Accepted by decide) false
    [.commandComplete [], .readyForQuery .idle, .errorResponse {}]
  exact ⟨r, hr, hcount⟩

end ReadResponseFsm

end NativePg
