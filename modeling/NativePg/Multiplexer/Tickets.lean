/-
  File:      NativePg/Multiplexer/Tickets.lean
  Subject:   What the multiplexer is for: every caller gets the response to its own request.

  The callers and the server, without the multiplexer:

  * `Ticket` -- one request as seen from outside: the response the server has for it, whether it has
    been emitted, how much of its response has been sent, and whether (and when) it was cancelled;
  * `Conforms` -- one step of the callers and a conforming server: requests are answered in the order
    in which they were emitted, each with its own response, and async messages come at any time;
  * `Report` -- what a caller must have seen of its ticket at any moment: the handler calls a response
    machine of its own makes on the part of the response sent before the cancellation, and a single
    successful `on_done` when an uncancelled response is complete.

  `Answers.step` is the one fact about responses the multiplexer relies on: message by message, a
  response either goes on or ends without error, the latter exactly at its last message.
-/
import NativePg.ReadResponse.Complete
import NativePg.Multiplexer.Queue

namespace NativePg

namespace Multiplexing

open ReadResponse ReadResponseFsm

/-! ## 1. Responses -/

/-- A response to a request: a response machine of its own finishes on it without error, exactly at
    the last message. -/
def Answers (req : Request) (resp : List AnyBackendMessage) : Prop :=
  ∃ r, (readResponseFsm req).feed resp = .ok r ∧ r.finished = some .success ∧ r.unread = []

/-- The machine has read `resp` so far and asks for more: it has come to `f`, and made `calls`. -/
def Progress (req : Request) (resp : List AnyBackendMessage) (f : ReadResponseFsm)
    (calls : List Call) : Prop :=
  (readResponseFsm req).feed resp = .ok ⟨f, calls, none, []⟩

theorem Progress.nil (req : Request) : Progress req [] (readResponseFsm req) [] := rfl

section

variable {req : Request} {resp : List AnyBackendMessage} {n : Nat} {f : ReadResponseFsm}
  {calls : List Call} {msg : AnyBackendMessage}

theorem take_succ_of_getElem? (h : resp[n]? = some msg) :
    resp.take (n + 1) = resp.take n ++ [msg] := by
  rw [List.take_add_one, h]
  rfl

theorem drop_of_getElem? (h : resp[n]? = some msg) :
    resp.drop n = msg :: resp.drop (n + 1) := by
  obtain ⟨hlt, hget⟩ := List.getElem?_eq_some_iff.mp h
  rw [List.drop_eq_getElem_cons hlt, hget]

/-- **One message of a response**: it ends the response, without error and as its last message, or
    the machine goes on and the response is not over. -/
theorem Answers.step (h : Answers req resp) (hp : Progress req (resp.take n) f calls)
    (hmsg : resp[n]? = some msg) :
    ∃ r, f.resume msg = .ok r ∧
      ((r.result = .read ∧ n + 1 < resp.length ∧
          Progress req (resp.take (n + 1)) r.fsm (calls ++ r.calls)) ∨
        (r.result = .done .success ∧ n + 1 = resp.length ∧
          (readResponseFsm req).feed resp =
            .ok ⟨r.fsm, calls ++ r.calls, some .success, []⟩)) := by
  obtain ⟨run, hrun, hfin, hun⟩ := h
  obtain ⟨hlt, _⟩ := List.getElem?_eq_some_iff.mp hmsg
  have hfeed := feed_append hp (resp.drop n)
  rw [List.take_append_drop, hrun, drop_of_getElem? hmsg] at hfeed
  cases hr : f.resume msg with
  | error e =>
      simp only [feed, hr] at hfeed
      cases hfeed
  | ok r =>
      refine ⟨r, rfl, ?_⟩
      cases hres : r.result with
      | read =>
          have hnext : Progress req (resp.take (n + 1)) r.fsm (calls ++ r.calls) := by
            rw [take_succ_of_getElem? hmsg]
            unfold Progress
            rw [feed_append hp, feed_cons hr hres]
            simp [feed, Except.map, Run.after]
          refine .inl ⟨rfl, ?_, hnext⟩
          by_contra hge
          -- the machine would have read the whole response without finishing
          rw [List.take_of_length_le (by omega)] at hnext
          unfold Progress at hnext
          rw [hrun] at hnext
          cases hnext
          cases hfin
      | done ec =>
          simp only [feed, hr, hres, Except.map, Run.after, Except.ok.injEq] at hfeed
          subst hfeed
          cases hfin
          have hend : resp.length ≤ n + 1 := List.drop_eq_nil_iff.mp hun
          have hnil : resp.drop (n + 1) = [] := hun
          refine .inr ⟨rfl, by omega, ?_⟩
          rw [hrun, hnil]

/-- A message of a response that has not been read yet: there is one. -/
theorem Answers.lt_length (h : Answers req resp) (hp : Progress req (resp.take n) f calls) :
    n < resp.length := by
  by_contra hge
  obtain ⟨run, hrun, hfin, _⟩ := h
  rw [List.take_of_length_le (by omega)] at hp
  unfold Progress at hp
  rw [hrun] at hp
  cases hp
  cases hfin

/-- Async messages inside a response do not end it. -/
theorem Answers.async (h : Answers req resp) (hp : Progress req (resp.take n) f calls)
    (hmsg : resp[n]? = some msg) (ha : msg.isAsync = true) :
    Progress req (resp.take (n + 1)) f calls := by
  obtain ⟨r, hr, hcases⟩ := h.step hp hmsg
  rw [f.resume_async ha] at hr
  cases hr
  rcases hcases with ⟨_, _, hnext⟩ | ⟨hres, _⟩
  · simpa using hnext
  · cases hres

end

/-! ### The ReadyForQuery messages of a response -/

/-- **A response holds as many ReadyForQuery messages as its request expects.** -/
theorem Answers.countRfqs {req : Request} (hacc : req.Accepted) {resp : List AnyBackendMessage}
    (h : Answers req resp) : countRfqs resp = getExpectedRfqs req.messages ∧
      ∃ pre t, resp = pre ++ [.readyForQuery t] := by
  obtain ⟨r, hr, hfin, hun⟩ := h
  obtain ⟨pre, t, hsplit, hcount⟩ :=
    (feed_rfqs_aux (Wf.init hacc false) hr).2 .success hfin rfl
  rw [hun] at hsplit
  subst hsplit
  refine ⟨?_, pre, t, rfl⟩
  have hrem : (readResponseFsm req).getRemainingMessages = req.messages := rfl
  rw [← hrem, ← hcount]
  simp [ReadResponseFsm.countRfqs, AnyBackendMessage.isReadyForQuery]

/-- The ReadyForQuery messages that are still to come: none exactly when the response is over. -/
theorem Answers.countRfqs_drop_pos {req : Request} (hacc : req.Accepted)
    {resp : List AnyBackendMessage} (h : Answers req resp) {n : Nat} (hn : n < resp.length) :
    0 < ReadResponseFsm.countRfqs (resp.drop n) := by
  obtain ⟨_, pre, t, rfl⟩ := h.countRfqs hacc
  rw [List.length_append, List.length_singleton] at hn
  rw [List.drop_append_of_le_length (by omega)]
  simp [ReadResponseFsm.countRfqs, AnyBackendMessage.isReadyForQuery]

/-- What the remaining messages of the request expect is what the rest of the response holds. -/
theorem Progress.countRfqs {req : Request} (hacc : req.Accepted) {resp : List AnyBackendMessage}
    (h : Answers req resp) {n : Nat} {f : ReadResponseFsm} {calls : List Call}
    (hp : Progress req (resp.take n) f calls) :
    getExpectedRfqs f.getRemainingMessages = ReadResponseFsm.countRfqs (resp.drop n) := by
  have hcount : ReadResponseFsm.countRfqs (resp.take n) + getExpectedRfqs f.getRemainingMessages =
      getExpectedRfqs req.messages := (feed_rfqs_aux (Wf.init hacc false) hp).1 rfl
  have hall := (h.countRfqs hacc).1
  rw [← List.take_append_drop n resp, ReadResponseFsm.countRfqs, List.countP_append] at hall
  unfold ReadResponseFsm.countRfqs at hcount ⊢
  omega

/-! ## 2. Tickets -/

/-- One request as its caller and the server know it. -/
structure Ticket where
  req : Request
  /-- The server's response to it. -/
  resp : List AnyBackendMessage
  /-- A `prepare_write` has returned its payload. -/
  emitted : Bool := false
  /-- The messages of the response the server has sent. -/
  sent : Nat := 0
  /-- Once it is cancelled: how many messages of its response had been sent by then. -/
  cancelled : Option Nat := none
  deriving DecidableEq, Repr

namespace Ticket

/-- The server owes messages of its response. -/
def Outstanding (t : Ticket) : Prop := t.emitted = true ∧ t.sent < t.resp.length

/-- Behind a `prepare_write`: what was not cancelled before has been emitted. -/
def emit (t : Ticket) : Ticket := if t.cancelled = none then { t with emitted := true } else t

/-- What the server does with a ticket: its response answers the request, and none of it is sent
    before the request is emitted. -/
structure Ok (t : Ticket) : Prop where
  accepted : t.req.Accepted
  answers : Answers t.req t.resp
  sent : t.emitted = false → t.sent = 0
  sent_le : t.sent ≤ t.resp.length

end Ticket

/-- **One step of the callers and a conforming server**, with the operation on the multiplexer that
    goes with it. Tickets are listed in the order in which they were added; the address of an
    element is the index of its ticket. -/
inductive Conforms : List Ticket → Op → List Ticket → Prop where
  | add {ts : List Ticket} {req : Request} {resp : List AnyBackendMessage} (hacc : req.Accepted)
      (hresp : Answers req resp) : Conforms ts (.add req) (ts ++ [{ req := req, resp := resp }])
  /-- A caller cancels a request at most once and not after its response is complete. -/
  | cancel {pre post : List Ticket} {t : Ticket} (hc : t.cancelled = none)
      (hopen : t.sent < t.resp.length) :
      Conforms (pre ++ t :: post) (.cancel pre.length)
        (pre ++ { t with cancelled := some t.sent } :: post)
  | prepareWrite {ts : List Ticket} : Conforms ts .prepareWrite (ts.map Ticket.emit)
  | async {ts : List Ticket} {msg : AnyBackendMessage} (h : msg.isAsync = true) :
      Conforms ts (.onMessage msg) ts
  /-- The server sends the next message of the first response it owes. -/
  | serve {pre post : List Ticket} {t : Ticket} {msg : AnyBackendMessage}
      (hpre : ∀ x ∈ pre, ¬ x.Outstanding) (hemitted : t.emitted = true)
      (hmsg : t.resp[t.sent]? = some msg) :
      Conforms (pre ++ t :: post) (.onMessage msg) (pre ++ { t with sent := t.sent + 1 } :: post)

/-- **A session**: the callers, a conforming server and the multiplexer between them; `bytes` are the
    bytes all `prepare_write` calls have returned, `events` what the callers have seen. -/
inductive Session : List Ticket → Multiplexer → Bytes → List Event → Prop where
  | init : Session [] {} [] []
  | step {ts ts' : List Ticket} {m m' : Multiplexer} {bytes : Bytes} {events : List Event} {op : Op}
      {out : Output} (h : Session ts m bytes events) (hc : Conforms ts op ts')
      (hs : m.step op = .ok (m', out)) :
      Session ts' m' (bytes ++ out.bytes) (events ++ out.events)

/-! ## 3. What the callers see -/

/-- The handler calls of the element with address `i`. -/
def callsOf (i : Nat) (events : List Event) : List Call :=
  events.filterMap fun
    | .message (some j) call => if j = i then some call else none
    | _ => none

/-- The completions of the element with address `i`. -/
def doneOf (i : Nat) (events : List Event) : List ErrorCode :=
  events.filterMap fun
    | .done (some j) ec => if j = i then some ec else none
    | _ => none

@[simp] theorem callsOf_append (i : Nat) (es es' : List Event) :
    callsOf i (es ++ es') = callsOf i es ++ callsOf i es' := List.filterMap_append

@[simp] theorem doneOf_append (i : Nat) (es es' : List Event) :
    doneOf i (es ++ es') = doneOf i es ++ doneOf i es' := List.filterMap_append

theorem callsOf_message (i j : Nat) (calls : List Call) :
    callsOf i (calls.map (Event.message (some j))) = if j = i then calls else [] := by
  induction calls with
  | nil => simp [callsOf]
  | cons c calls ih =>
      unfold callsOf at ih ⊢
      by_cases h : j = i
      · rw [if_pos h] at ih ⊢
        rw [List.map_cons, List.filterMap_cons]
        simp only [if_pos h, ih]
      · rw [if_neg h] at ih ⊢
        rw [List.map_cons, List.filterMap_cons]
        simp only [if_neg h, ih]

theorem doneOf_message (i : Nat) (h : Option Nat) (calls : List Call) :
    doneOf i (calls.map (Event.message h)) = [] := by
  simp [doneOf]

/-- **What the caller of a ticket has seen**: the calls a response machine of its own makes on what
    was sent before the cancellation, and one successful completion once an uncancelled response is
    complete. -/
structure Report (events : List Event) (i : Nat) (t : Ticket) : Prop where
  calls : ∃ r, (readResponseFsm t.req).feed (t.resp.take (t.cancelled.getD t.sent)) = .ok r ∧
    callsOf i events = r.calls
  done : doneOf i events =
    if t.cancelled = none ∧ t.sent = t.resp.length then [.success] else []

/-- An event of an element whose address is below `n`. -/
def Event.Below (n : Nat) : Event → Prop
  | .message h _ => ∃ i, h = some i ∧ i < n
  | .done h _ => ∃ i, h = some i ∧ i < n

end Multiplexing

end NativePg
