/-
  File:      NativePg/NotificationQueue.lean
  Subject:   The queue between a multiplexed connection and the reader of its notifications:
             src/nativepg_internal/notification_queue.hpp.

  * `NotificationQueue`, `addEvent`, `addConnect`, ... -- the queue and its members. A coroutine
    that waits does nothing: `addNotify` and `readEvents` are its loop once round, from one wait
    to the next, and return `none` where it goes back to sleep;
  * `Session`, `Session.step` -- the queue in use, by `run` and `reader` of the connection
    (src/co_multiplexed_connection.cpp) and by the consumer, in any order; the session keeps what
    was accepted and what was delivered;
  * `Session.Inv`, `Session.step_inv` -- what every step keeps;
  * **`run_notifications`** -- what the consumer gets, and what the queue's events and size are.
-/
import Mathlib.Data.List.Chain
import NativePg.Protocol.BackendMessage

namespace NativePg

/-! ## 1. The queue -/

/-- `notification_event_type`. -/
inductive NotificationEventType where
  | notify
  | connect
  | disconnect
  deriving DecidableEq, Repr

/-- `notification_event`. -/
structure NotificationEvent where
  type : NotificationEventType
  backendPid : Int := 0
  channel : Bytes := []
  payload : Bytes := []
  deriving DecidableEq, Repr

/-- `notification_queue`; the two `async_event`s by whether they are set. -/
structure NotificationQueue where
  maxPending : Nat
  pending : List NotificationEvent := []
  eventsAvailable : Bool := false
  spaceAvailable : Bool := false
  deriving DecidableEq, Repr

namespace NotificationQueue

/-- The constructor. -/
def new (maxPending : Nat) : Checked NotificationQueue :=
  if maxPending > 0 then .ok { maxPending, spaceAvailable := true } else .error .assertion

/-- `has_space`. -/
def hasSpace (q : NotificationQueue) : Bool := decide (q.pending.length < q.maxPending)

/-- `add_event`. -/
def addEvent (q : NotificationQueue) (evt : NotificationEvent) : NotificationQueue :=
  let q := { q with pending := q.pending ++ [evt] }
  let q := if !q.hasSpace then { q with spaceAvailable := false } else q
  { q with eventsAvailable := true }

/-- The event `do_add_notification` makes of a message. -/
def notification (msg : NotificationResponse) : NotificationEvent where
  type := .notify
  backendPid := msg.processId
  channel := msg.channelName
  payload := msg.payload

/-- `do_add_notification`. -/
def doAddNotification (q : NotificationQueue) (msg : NotificationResponse) : NotificationQueue :=
  q.addEvent (notification msg)

/-- `add_connect`. -/
def addConnect (q : NotificationQueue) : NotificationQueue := q.addEvent { type := .connect }

/-- `add_disconnect`. -/
def addDisconnect (q : NotificationQueue) : NotificationQueue :=
  if q.pending.getLast?.map (·.type) = some .connect then
    let q := { q with pending := q.pending.dropLast }
    let q := if q.hasSpace then { q with spaceAvailable := true } else q
    if q.pending.isEmpty then { q with eventsAvailable := false } else q
  else q.addEvent { type := .disconnect }

/-- `try_add_notify`. -/
def tryAddNotify (q : NotificationQueue) (msg : NotificationResponse) : Bool × NotificationQueue :=
  if !q.hasSpace then (false, q) else (true, q.doAddNotification msg)

/-- `add_notify`, from one wait to the next; `none` where it waits again. -/
def addNotify (q : NotificationQueue) (msg : NotificationResponse) : Option NotificationQueue :=
  if !q.hasSpace then none else some (q.doAddNotification msg)

/-- `read_events`, from one wait to the next: what is in `output`, and the queue; `none` where it
    waits again. -/
def readEvents (q : NotificationQueue) : Option (List NotificationEvent × NotificationQueue) :=
  if q.pending.isEmpty then none
  else some (q.pending, { q with pending := [], eventsAvailable := false, spaceAvailable := true })

end NotificationQueue

/-! ## 2. The queue in use -/

/-- The queue, whether the connection is up, the notifications accepted so far and the events the
    consumer has got. -/
structure Session where
  queue : NotificationQueue
  connected : Bool := false
  accepted : List NotificationEvent := []
  delivered : List NotificationEvent := []
  deriving DecidableEq, Repr

/-- A call of a member, or a coroutine inside one waking up. -/
inductive SessionAction where
  | addConnect
  | addDisconnect
  | tryAddNotify (msg : NotificationResponse)
  | addNotify (msg : NotificationResponse)
  | readEvents
  deriving DecidableEq, Repr

namespace Session

/-- One action; `none` where the connection does not take it. Connects and disconnects alternate,
    and only the reader of a connection that is up adds notifications. -/
def step (s : Session) : SessionAction → Option Session
  | .addConnect =>
      if s.connected then none
      else some { s with queue := s.queue.addConnect, connected := true }
  | .addDisconnect =>
      if s.connected then some { s with queue := s.queue.addDisconnect, connected := false }
      else none
  | .tryAddNotify msg =>
      if s.connected then
        match s.queue.tryAddNotify msg with
        | (true, queue) =>
            some { s with queue, accepted := s.accepted ++ [NotificationQueue.notification msg] }
        | (false, queue) => some { s with queue }
      else none
  | .addNotify msg =>
      if s.connected then
        match s.queue.addNotify msg with
        | some queue =>
            some { s with queue, accepted := s.accepted ++ [NotificationQueue.notification msg] }
        | none => some s
      else none
  | .readEvents =>
      match s.queue.readEvents with
      | some (output, queue) => some { s with queue, delivered := s.delivered ++ output }
      | none => some s

/-- Some actions one after the other. -/
def run (s : Session) : List SessionAction → Option Session
  | [] => some s
  | a :: as => (s.step a).bind (run · as)

/-- What the consumer has got and what it will get next. -/
def events (s : Session) : List NotificationEvent := s.delivered ++ s.queue.pending

end Session

/-! ## 3. Histories -/

/-- The connects and disconnects among some events. -/
def links (events : List NotificationEvent) : List NotificationEventType :=
  (events.map (·.type)).filter (· ≠ .notify)

/-- **A history of one connection**: connects and disconnects alternate, beginning with a connect,
    and every notification comes while the connection is up. -/
structure History (events : List NotificationEvent) : Prop where
  alternates : List.IsChain (· ≠ ·) (.disconnect :: links events)
  up : ∀ before e after, events = before ++ e :: after → e.type = .notify →
    (links before).getLast? = some .connect

/-- The connection is up after these events. -/
def Up (events : List NotificationEvent) : Prop := (links events).getLast? = some .connect

theorem links_snoc (events : List NotificationEvent) (e : NotificationEvent) :
    links (events ++ [e]) = links events ++ if e.type = .notify then [] else [e.type] := by
  unfold links
  rw [List.map_append, List.filter_append]
  cases e with
  | mk type pid channel payload => cases type <;> rfl

theorem links_notify (events : List NotificationEvent) {e : NotificationEvent}
    (h : e.type = .notify) : links (events ++ [e]) = links events := by
  rw [links_snoc, if_pos h, List.append_nil]

theorem links_link (events : List NotificationEvent) {e : NotificationEvent}
    (h : e.type ≠ .notify) : links (events ++ [e]) = links events ++ [e.type] := by
  rw [links_snoc, if_neg h]

/-- Where the connection is not up, the last link is a disconnect, if there is one. -/
theorem last_of_not_up {events : List NotificationEvent} (h : ¬Up events) :
    ∀ t ∈ (NotificationEventType.disconnect :: links events).getLast?, t = .disconnect := by
  intro t ht
  rw [List.getLast?_cons] at ht
  cases hlast : (links events).getLast? with
  | none => simpa [hlast] using ht.symm
  | some t' =>
    obtain rfl : t' = t := by simpa [hlast] using ht
    have hmem : t' ∈ links events := List.mem_of_getLast? hlast
    cases t' with
    | notify => simp [links] at hmem
    | connect => exact absurd hlast h
    | disconnect => rfl

theorem last_of_up {events : List NotificationEvent} (h : Up events) :
    ∀ t ∈ (NotificationEventType.disconnect :: links events).getLast?, t = .connect := by
  intro t ht
  rw [List.getLast?_cons, h] at ht
  simpa using ht.symm

theorem up_snoc_link (events : List NotificationEvent) {e : NotificationEvent}
    (h : e.type ≠ .notify) : Up (events ++ [e]) ↔ e.type = .connect := by
  unfold Up
  rw [links_link events h, List.getLast?_concat, Option.some.injEq]

theorem up_snoc_notify (events : List NotificationEvent) {e : NotificationEvent}
    (h : e.type = .notify) : Up (events ++ [e]) ↔ Up events := by
  unfold Up
  rw [links_notify events h]

section
variable {events : List NotificationEvent} {e : NotificationEvent}

/-- The events before a notification of a longer history. -/
theorem up_split {before after : List NotificationEvent} {e' : NotificationEvent}
    (h : events ++ [e] = before ++ e' :: after) :
    (before = events ∧ e' = e) ∨ ∃ after', events = before ++ e' :: after' := by
  rcases List.eq_nil_or_concat after with rfl | ⟨after', x, rfl⟩
  · obtain ⟨hevents, he⟩ := List.append_inj' h rfl
    exact .inl ⟨hevents.symm, (List.cons.inj he).1.symm⟩
  · rw [List.concat_eq_append, ← List.cons_append, ← List.append_assoc] at h
    exact .inr ⟨after', List.append_inj_left' h rfl⟩

theorem History.nil : History [] where
  alternates := .singleton _
  up := by
    intro before e after h
    simp at h

theorem History.notify (h : History events) (hup : Up events) (he : e.type = .notify) :
    History (events ++ [e]) where
  alternates := by
    rw [links_notify events he]
    exact h.alternates
  up := by
    intro before e' after hsplit he'
    rcases up_split hsplit with ⟨rfl, rfl⟩ | ⟨after', hevents⟩
    · exact hup
    · exact h.up before e' after' hevents he'

/-- A link the connection does not have at the moment. -/
theorem History.link (h : History events) (hne : e.type ≠ .notify)
    (hlast : ∀ t ∈ (NotificationEventType.disconnect :: links events).getLast?, t ≠ e.type) :
    History (events ++ [e]) where
  alternates := by
    rw [links_link events hne, ← List.cons_append]
    exact h.alternates.append (.singleton _) fun t ht y hy => by
      cases hy
      exact hlast t ht
  up := by
    intro before e' after hsplit he'
    rcases up_split hsplit with ⟨rfl, rfl⟩ | ⟨after', hevents⟩
    · exact absurd he' hne
    · exact h.up before e' after' hevents he'

theorem History.connect (h : History events) (hup : ¬Up events) (he : e.type = .connect) :
    History (events ++ [e]) := by
  refine h.link (by rw [he]; decide) fun t ht => ?_
  rw [last_of_not_up hup t ht, he]
  decide

theorem History.disconnect (h : History events) (hup : Up events) (he : e.type = .disconnect) :
    History (events ++ [e]) := by
  refine h.link (by rw [he]; decide) fun t ht => ?_
  rw [last_of_up hup t ht, he]
  decide

/-- Forgetting the last connect. -/
theorem History.of_connect (h : History (events ++ [e])) (he : e.type = .connect) :
    History events ∧ ¬Up events := by
  have hne : e.type ≠ .notify := by rw [he]; decide
  have hchain := h.alternates
  rw [links_link events hne, ← List.cons_append, List.isChain_append] at hchain
  refine ⟨⟨hchain.1, fun before e' after hevents he' => ?_⟩, fun hup => ?_⟩
  · exact h.up before e' (after ++ [e]) (by rw [hevents]; simp) he'
  · refine hchain.2.2 .connect ?_ e.type rfl he.symm
    rw [List.getLast?_cons, hup]
    rfl

end

/-! ## 4. The queue by itself -/

namespace NotificationQueue

/-- The two events are set when there is something to wait for. -/
structure Flags (q : NotificationQueue) : Prop where
  space : q.spaceAvailable = q.hasSpace
  events : q.eventsAvailable = !q.pending.isEmpty

@[simp] theorem pending_addEvent (q : NotificationQueue) (e : NotificationEvent) :
    (q.addEvent e).pending = q.pending ++ [e] := by
  unfold addEvent
  simp only
  split <;> rfl

@[simp] theorem maxPending_addEvent (q : NotificationQueue) (e : NotificationEvent) :
    (q.addEvent e).maxPending = q.maxPending := by
  unfold addEvent
  simp only
  split <;> rfl

theorem Flags.addEvent {q : NotificationQueue} (h : q.Flags) (e : NotificationEvent) :
    (q.addEvent e).Flags := by
  have hspace : q.spaceAvailable = decide (q.pending.length < q.maxPending) := h.space
  constructor
  · unfold NotificationQueue.addEvent
    simp only [hasSpace, List.length_append, List.length_singleton]
    by_cases hfull : q.pending.length + 1 < q.maxPending
    · -- there was room for more than this one
      have : q.pending.length < q.maxPending := by omega
      simp [hfull, hspace, this]
    · simp [hfull]
  · rw [pending_addEvent]
    unfold NotificationQueue.addEvent
    simp

/-- `add_disconnect` behind a connect. -/
theorem addDisconnect_of_connect {q : NotificationQueue} {pending : List NotificationEvent}
    {e : NotificationEvent} (hq : q.pending = pending ++ [e]) (he : e.type = .connect) :
    q.addDisconnect = ⟨q.maxPending, pending, q.eventsAvailable && !pending.isEmpty,
      q.spaceAvailable || decide (pending.length < q.maxPending)⟩ := by
  have hlast : q.pending.getLast?.map (·.type) = some .connect := by
    rw [hq, List.getLast?_concat, Option.map_some, he]
  unfold addDisconnect
  rw [if_pos hlast]
  simp only [hasSpace, hq, List.dropLast_concat]
  by_cases hroom : pending.length < q.maxPending
  · simp only [hroom, decide_true, if_true, Bool.or_true]
    cases pending <;> simp
  · simp only [hroom, decide_false, Bool.false_eq_true, if_false, Bool.or_false]
    cases pending <;> simp

theorem Flags.addDisconnect_of_connect {q : NotificationQueue} (h : q.Flags)
    {pending : List NotificationEvent} {e : NotificationEvent} (hq : q.pending = pending ++ [e])
    (he : e.type = .connect) : q.addDisconnect.Flags := by
  have hspace := h.space
  have hevents := h.events
  simp only [hasSpace, hq, List.length_append, List.length_singleton] at hspace hevents
  rw [NotificationQueue.addDisconnect_of_connect hq he]
  constructor
  · simp only [hasSpace, hspace]
    by_cases hroom : pending.length < q.maxPending
    · simp [hroom]
    · have hfull : ¬pending.length + 1 < q.maxPending := by omega
      simp [hroom, hfull]
  · simp [hevents]

theorem addDisconnect_of_not_connect {q : NotificationQueue}
    (h : q.pending.getLast?.map (·.type) ≠ some .connect) :
    q.addDisconnect = q.addEvent { type := .disconnect } := by
  unfold addDisconnect
  rw [if_neg h]

/-- What may lie behind the first `max_pending` events: a disconnect, and a connect. -/
def Surplus (n : Nat) (pending : List NotificationEvent) : Prop :=
  (pending.drop n).map (·.type) ∈ [[], [.connect], [.disconnect], [.disconnect, .connect]]

theorem Surplus.length_le {n : Nat} {pending : List NotificationEvent} (h : Surplus n pending) :
    pending.length ≤ n + 2 := by
  have hlength : ((pending.drop n).map (·.type)).length ≤ 2 := by
    simp only [Surplus, List.mem_cons, List.not_mem_nil, or_false] at h
    rcases h with h | h | h | h <;> simp [h]
  rw [List.length_map, List.length_drop] at hlength
  omega

theorem surplus_of_length_le {n : Nat} {pending : List NotificationEvent}
    (h : pending.length ≤ n) : Surplus n pending := by
  unfold Surplus
  rw [List.drop_of_length_le h]
  exact List.mem_cons_self

/-- A link behind the pending events: either it is among the first `n`, or it follows the surplus. -/
theorem Surplus.snoc {n : Nat} {pending : List NotificationEvent} {e : NotificationEvent}
    (h : n ≤ pending.length → (pending.drop n).map (·.type) ++ [e.type] ∈
      [[], [.connect], [.disconnect], [.disconnect, .connect]]) :
    Surplus n (pending ++ [e]) := by
  by_cases hle : n ≤ pending.length
  · unfold Surplus
    rw [List.drop_append_of_le_length hle, List.map_append]
    exact h hle
  · refine surplus_of_length_le ?_
    rw [List.length_append, List.length_singleton]
    omega

/-- A connect that is forgotten was the last of the surplus, if it was in it. -/
theorem Surplus.of_connect {n : Nat} {pending : List NotificationEvent} {e : NotificationEvent}
    (h : Surplus n (pending ++ [e])) (he : e.type = .connect) : Surplus n pending := by
  by_cases hle : n ≤ pending.length
  · rw [Surplus, List.drop_append_of_le_length hle, List.map_append] at h
    simp only [List.map_cons, List.map_nil, he, List.mem_cons, List.not_mem_nil, or_false] at h
    unfold Surplus
    rcases h with heq | heq | heq | heq
    · simp at heq
    · rw [List.append_left_eq_self.mp heq]
      decide
    · simpa using congrArg List.getLast? heq
    · rw [List.append_cancel_right (show _ ++ [_] = [_] ++ [_] from heq)]
      decide
  · exact surplus_of_length_le (by omega)

end NotificationQueue

/-! ## 5. What every step keeps -/

namespace Session

open NotificationQueue

structure Inv (maxPending : Nat) (s : Session) : Prop where
  positive : 0 < maxPending
  size : s.queue.maxPending = maxPending
  flags : s.queue.Flags
  surplus : Surplus s.queue.maxPending s.queue.pending
  accepted : s.events.filter (·.type = .notify) = s.accepted
  history : History s.events
  up : Up s.events ↔ s.connected = true

/-- The last event of the surplus is the last pending one. -/
theorem last_of_surplus {pending : List NotificationEvent} {n : Nat}
    {ts : List NotificationEventType} {t : NotificationEventType}
    (h : (pending.drop n).map (·.type) = ts ++ [t]) :
    ∃ before e, pending = before ++ [e] ∧ e.type = t := by
  obtain ⟨l₁, l₂, hdrop, -, hl₂⟩ := List.map_eq_append_iff.mp h
  obtain ⟨e, rest, rfl, he, hrest⟩ := List.map_eq_cons_iff.mp hl₂
  obtain rfl : rest = [] := List.map_eq_nil_iff.mp hrest
  refine ⟨pending.take n ++ l₁, e, ?_, he⟩
  rw [List.append_assoc, ← hdrop, List.take_append_drop]

/-- It says whether the connection is up. -/
theorem up_of_surplus {delivered pending : List NotificationEvent} {n : Nat}
    {ts : List NotificationEventType} {t : NotificationEventType}
    (h : (pending.drop n).map (·.type) = ts ++ [t]) (ht : t ≠ .notify) :
    Up (delivered ++ pending) ↔ t = .connect := by
  obtain ⟨before, e, rfl, rfl⟩ := last_of_surplus h
  rw [← List.append_assoc, up_snoc_link _ ht]

theorem inv_new {maxPending : Nat} {queue : NotificationQueue}
    (h : NotificationQueue.new maxPending = .ok queue) : Inv maxPending { queue } := by
  unfold NotificationQueue.new at h
  by_cases hpos : maxPending > 0
  · rw [if_pos hpos] at h
    cases h
    exact {
      positive := hpos
      size := rfl
      flags := ⟨by simpa [hasSpace] using hpos, rfl⟩
      surplus := surplus_of_length_le (Nat.zero_le _)
      accepted := rfl
      history := .nil
      up := by simp [Up, links, events] }
  · rw [if_neg hpos] at h
    cases h

section
variable {n : Nat} {s : Session}

/-- An event behind the others. -/
theorem events_addEvent (s : Session) (e : NotificationEvent) (connected : Bool)
    (accepted : List NotificationEvent) :
    events ⟨s.queue.addEvent e, connected, accepted, s.delivered⟩ = s.events ++ [e] := by
  simp [events]

theorem Inv.addConnect (h : s.Inv n) (hdown : s.connected = false) :
    Inv n { s with queue := s.queue.addConnect, connected := true } := by
  have hup : ¬Up s.events := by
    rw [h.up, hdown]
    decide
  have hevents : events { s with queue := s.queue.addConnect, connected := true } =
      s.events ++ [{ type := .connect }] := events_addEvent s _ _ _
  refine ⟨h.positive, by simpa [NotificationQueue.addConnect] using h.size, h.flags.addEvent _, ?_,
    ?_, ?_, ?_⟩
  · -- the surplus does not end with a connect yet
    have hsurplus := h.surplus
    simp only [NotificationQueue.addConnect, maxPending_addEvent, pending_addEvent]
    refine Surplus.snoc fun _ => ?_
    simp only [Surplus, List.mem_cons, List.not_mem_nil, or_false] at hsurplus
    rcases hsurplus with heq | heq | heq | heq
    · rw [heq]
      decide
    · exact absurd ((up_of_surplus (show _ = [] ++ [_] from heq) (by decide)).mpr rfl) hup
    · rw [heq]
      decide
    · exact absurd ((up_of_surplus (show _ = [_] ++ [_] from heq) (by decide)).mpr rfl) hup
  · rw [hevents, List.filter_append, h.accepted]
    exact List.append_nil _
  · rw [hevents]
    exact h.history.connect hup rfl
  · rw [hevents, up_snoc_link _ (by decide)]
    simp

theorem Inv.addNotification (h : s.Inv n) (hup : s.connected = true) (hspace : s.queue.hasSpace = true)
    (msg : NotificationResponse) :
    Inv n { s with
      queue := s.queue.doAddNotification msg
      accepted := s.accepted ++ [notification msg] } := by
  have hroom : s.queue.pending.length < s.queue.maxPending := by simpa [hasSpace] using hspace
  have hevents : events { s with
      queue := s.queue.doAddNotification msg
      accepted := s.accepted ++ [notification msg] } = s.events ++ [notification msg] :=
    events_addEvent s _ _ _
  refine ⟨h.positive, by simpa [doAddNotification] using h.size, h.flags.addEvent _, ?_, ?_, ?_, ?_⟩
  · refine surplus_of_length_le ?_
    simp only [doAddNotification, maxPending_addEvent, pending_addEvent, List.length_append,
      List.length_singleton]
    omega
  · rw [hevents, List.filter_append, h.accepted]
    rfl
  · rw [hevents]
    exact h.history.notify (h.up.mpr hup) rfl
  · rw [hevents, up_snoc_notify _ rfl]
    exact h.up

theorem Inv.addDisconnect (h : s.Inv n) (hconn : s.connected = true) :
    Inv n { s with queue := s.queue.addDisconnect, connected := false } := by
  have hup : Up s.events := h.up.mpr hconn
  have hsurplus := h.surplus
  by_cases hlast : s.queue.pending.getLast?.map (·.type) = some .connect
  · -- the connect before it is forgotten
    obtain ⟨e, hget, he⟩ := Option.map_eq_some_iff.mp hlast
    obtain ⟨pending, hpending⟩ : ∃ pending, s.queue.pending = pending ++ [e] :=
      List.getLast?_eq_some_iff.mp hget
    have hqueue := addDisconnect_of_connect hpending he
    have hevents : s.events = s.delivered ++ pending ++ [e] := by
      rw [events, hpending, List.append_assoc]
    have hhistory := h.history
    rw [hevents] at hhistory
    obtain ⟨hbefore, hdown⟩ := hhistory.of_connect he
    have haccepted := h.accepted
    rw [hevents, List.filter_append, List.filter_cons_of_neg (by simp [he]), List.filter_nil,
      List.append_nil] at haccepted
    refine ⟨h.positive, ?_, h.flags.addDisconnect_of_connect hpending he, ?_, ?_, ?_, ?_⟩
    · rw [hqueue]
      exact h.size
    · rw [hqueue]
      rw [hpending] at hsurplus
      exact hsurplus.of_connect he
    · simpa [events, hqueue] using haccepted
    · simpa [events, hqueue] using hbefore
    · simpa [events, hqueue] using hdown
  · have hqueue := addDisconnect_of_not_connect hlast
    have hne : ∀ ts, (s.queue.pending.drop s.queue.maxPending).map (·.type) ≠ ts ++ [.connect] := by
      intro ts heq
      obtain ⟨before, e, hpending, he⟩ := last_of_surplus heq
      rw [hpending, List.getLast?_concat, Option.map_some, he] at hlast
      exact hlast rfl
    have hevents : events { s with queue := s.queue.addDisconnect, connected := false } =
        s.events ++ [{ type := .disconnect }] := by
      rw [hqueue]
      exact events_addEvent s _ _ _
    refine ⟨h.positive, by simpa [hqueue] using h.size, by simpa [hqueue] using h.flags.addEvent _,
      ?_, ?_, ?_, ?_⟩
    · rw [hqueue]
      simp only [maxPending_addEvent, pending_addEvent]
      refine Surplus.snoc fun _ => ?_
      simp only [Surplus, List.mem_cons, List.not_mem_nil, or_false] at hsurplus
      rcases hsurplus with heq | heq | heq | heq
      · rw [heq]
        decide
      · exact absurd heq (hne [])
      · have hdown := (up_of_surplus (show _ = [] ++ [_] from heq) (by decide)).mp hup
        cases hdown
      · exact absurd heq (hne [.disconnect])
    · rw [hevents, List.filter_append, h.accepted]
      exact List.append_nil _
    · rw [hevents]
      exact h.history.disconnect hup rfl
    · rw [hevents, up_snoc_link _ (by decide)]
      simp

theorem Inv.readEvents (h : s.Inv n) {output : List NotificationEvent} {queue : NotificationQueue}
    (hread : s.queue.readEvents = some (output, queue)) :
    Inv n { s with queue, delivered := s.delivered ++ output } := by
  unfold NotificationQueue.readEvents at hread
  by_cases hempty : s.queue.pending.isEmpty = true
  · rw [if_pos hempty] at hread
    cases hread
  · rw [if_neg hempty] at hread
    cases hread
    have hsize : 0 < s.queue.maxPending := by
      rw [h.size]
      exact h.positive
    -- the events are the same, only their owner changes
    refine ⟨h.positive, h.size, ⟨by simpa [hasSpace] using hsize, rfl⟩,
      surplus_of_length_le (Nat.zero_le _), ?_, ?_, ?_⟩
    · simpa [events] using h.accepted
    · simpa [events] using h.history
    · simpa [events] using h.up

/-- A turn of `add_notify` does what `try_add_notify` does. -/
theorem step_addNotify (s : Session) (msg : NotificationResponse) :
    s.step (.addNotify msg) = s.step (.tryAddNotify msg) := by
  simp only [step, NotificationQueue.addNotify, NotificationQueue.tryAddNotify]
  cases s.queue.hasSpace <;> rfl

theorem step_notify (h : s.Inv n) {msg : NotificationResponse} {s' : Session}
    (hstep : s.step (.tryAddNotify msg) = some s') : s'.Inv n := by
  cases hconn : s.connected with
  | false => simp [step, hconn] at hstep
  | true =>
    cases hspace : s.queue.hasSpace with
    | true =>
      obtain rfl : _ = s' := by
        simpa [step, hconn, NotificationQueue.tryAddNotify, hspace] using hstep
      rw [← hconn]
      exact h.addNotification hconn hspace msg
    | false =>
      obtain rfl : { s with connected := true } = s' := by
        simpa [step, hconn, NotificationQueue.tryAddNotify, hspace] using hstep
      rw [← hconn]
      exact h

/-- **One step.** -/
theorem step_inv (h : s.Inv n) {a : SessionAction} {s' : Session} (hstep : s.step a = some s') :
    s'.Inv n := by
  cases a with
  | addConnect =>
    simp only [step] at hstep
    cases hconn : s.connected with
    | true => simp [hconn] at hstep
    | false =>
      rw [hconn, if_neg (by decide)] at hstep
      cases hstep
      exact h.addConnect hconn
  | addDisconnect =>
    simp only [step] at hstep
    cases hconn : s.connected with
    | false => simp [hconn] at hstep
    | true =>
      rw [hconn, if_pos rfl] at hstep
      cases hstep
      exact h.addDisconnect hconn
  | tryAddNotify msg => exact step_notify h hstep
  | addNotify msg =>
    rw [step_addNotify] at hstep
    exact step_notify h hstep
  | readEvents =>
    cases hread : s.queue.readEvents with
    | none =>
      obtain rfl : s = s' := by simpa [step, hread] using hstep
      exact h
    | some r =>
      obtain ⟨output, queue⟩ := r
      obtain rfl : _ = s' := by simpa [step, hread] using hstep
      exact h.readEvents hread

/-- **A whole run.** -/
theorem run_inv : ∀ {actions : List SessionAction} {s s' : Session}, s.Inv n →
    s.run actions = some s' → s'.Inv n
  | [], _, _, h, hrun => by
      cases hrun
      exact h
  | a :: as, s, s', h, hrun => by
      obtain ⟨s₁, hstep, hrest⟩ := Option.bind_eq_some_iff.mp hrun
      exact run_inv (step_inv h hstep) hrest

end

end Session

/-- **The notification queue.** Whatever the connection and the consumer do: the notifications the
    consumer has got and those that are pending are the accepted ones, each once and in order; its
    events are a history of the connection, up to the present; the two events of the queue tell
    whether there is space and whether there is something to read; and the queue holds at most two
    events more than its bound. -/
theorem run_notifications {maxPending : Nat} {queue : NotificationQueue}
    (hnew : NotificationQueue.new maxPending = .ok queue) {actions : List SessionAction}
    {s : Session} (hrun : Session.run { queue } actions = some s) :
    s.events.filter (·.type = .notify) = s.accepted ∧
    List.IsChain (· ≠ ·) (.disconnect :: links s.events) ∧
    (∀ before e after, s.events = before ++ e :: after → e.type = .notify →
      (links before).getLast? = some .connect) ∧
    ((links s.events).getLast? = some .connect ↔ s.connected = true) ∧
    (s.queue.spaceAvailable = true ↔ s.queue.pending.length < maxPending) ∧
    (s.queue.eventsAvailable = true ↔ s.queue.pending ≠ []) ∧
    s.queue.pending.length ≤ maxPending + 2 := by
  have h := Session.run_inv (Session.inv_new hnew) hrun
  refine ⟨h.accepted, h.history.alternates, h.history.up, h.up, ?_, ?_, ?_⟩
  · rw [h.flags.space, NotificationQueue.hasSpace, decide_eq_true_iff, h.size]
  · rw [h.flags.events]
    simp
  · rw [← h.size]
    exact h.surplus.length_le

/-- Two reconnections with a full queue, the second while nobody reads. -/
theorem run_notifications_reconnects :
    ∃ s, Session.run { queue := ⟨1, [], false, true⟩ } [.addConnect, .readEvents,
        .tryAddNotify ⟨7, ascii "c", ascii "x"⟩, .addDisconnect, .addConnect, .addDisconnect,
        .addConnect, .addNotify ⟨7, ascii "c", ascii "y"⟩] = some s ∧
      s.queue.pending.map (·.type) = [.notify, .disconnect, .connect] ∧
      s.accepted.length = 1 ∧ s.queue.pending.length ≤ 1 + 2 := by
  have hrun : Session.run { queue := ⟨1, [], false, true⟩ } [.addConnect, .readEvents,
      .tryAddNotify ⟨7, ascii "c", ascii "x"⟩, .addDisconnect, .addConnect, .addDisconnect,
      .addConnect, .addNotify ⟨7, ascii "c", ascii "y"⟩] = some _ := rfl
  have hnew : NotificationQueue.new 1 = .ok _ := rfl
  exact ⟨_, hrun, rfl, rfl, (run_notifications hnew hrun).2.2.2.2.2.2⟩

end NativePg
