/-
  File:      NativePg/Multiplexer/Completion.lean
  Subject:   Every request that enters the multiplexer ends once, whatever the server sends.

  * `Entry`, `Log` -- what has happened so far: requests added, elements cancelled, callbacks made;
  * `onMessage_leaves`, `cancel_abandons`, `prepareWrite_eq`, `cleanup_eq` -- what each operation does
    to the elements of the queue;
  * `Ledger` -- the queue and the log agree: a live element has not ended, an abandoned one has been
    cancelled, and one that has left has ended once; `Ledger.step` -- every operation keeps it;
  * **`multiplexer_completes`** -- so `on_done` is called at most once and never behind a cancel, no
    element is lost, and `cleanup` completes exactly the written ones and leaves the others to the
    next `prepare_write`.
-/
import NativePg.Multiplexer.Queue

namespace NativePg

namespace Multiplexing

/-! ## 1. The log -/

/-- What a log keeps: an event, or that `cancel` was called. -/
inductive Entry where
  | event (ev : Event)
  | cancelled (ptr : Nat)
  deriving DecidableEq, Repr

/-- The entries that end the element `ptr`: its own `on_done`, and its `cancel`. -/
def Entry.endsElem (ptr : Nat) : Entry → Bool
  | .event (.done (some p) _) => p == ptr
  | .cancelled p => p == ptr
  | _ => false

/-- How the element `ptr` has ended. -/
def endsOf (ptr : Nat) (entries : List Entry) : List Entry := entries.filter (Entry.endsElem ptr)

@[simp] theorem endsOf_append (ptr : Nat) (es es' : List Entry) :
    endsOf ptr (es ++ es') = endsOf ptr es ++ endsOf ptr es' := by
  simp [endsOf]

/-- The history of a multiplexer. -/
structure Log where
  /-- The requests that were added, by address. -/
  requests : List Request := []
  /-- The addresses `prepare_write` has not seen. -/
  unseen : List Nat := []
  entries : List Entry := []

/-- The log behind an operation. -/
def Log.after (l : Log) (m : Multiplexer) (op : Op) (out : Output) : Log where
  requests :=
    match op with
    | .add req => l.requests ++ [req]
    | _ => l.requests
  unseen := unseenAfter m l.unseen op
  entries :=
    match op with
    | .cancel ptr => l.entries ++ [.cancelled ptr]
    | _ => l.entries ++ out.events.map .event

/-- Has the element `ptr` neither completed nor been cancelled? -/
def Log.isOpen (l : Log) (ptr : Nat) : Bool := (endsOf ptr l.entries).isEmpty

/-- The bytes of the request of the element `ptr`. -/
def Log.payload (l : Log) (ptr : Nat) : Bytes := ((l.requests[ptr]?).map Request.payload).getD []

/-- **Histories**: any operations in any order, with any messages; a message comes only while
    something that was written is still unanswered. -/
inductive Reach : Multiplexer → Log → Prop where
  | init : Reach {} {}
  | step {m m' : Multiplexer} {l : Log} {op : Op} {out : Output} (h : Reach m l) (hv : Valid m op)
      (hbusy : ∀ msg, op = .onMessage msg → ¬Idle m) (hs : m.step op = .ok (m', out)) :
      Reach m' (l.after m op out)

/-! ## 2. What the operations do to the elements -/

/-- The calls of `on_done` among events. -/
def dones (events : List Event) : List (Option Nat × ErrorCode) :=
  events.filterMap fun
    | .done d ec => some (d, ec)
    | .message _ _ => none

@[simp] theorem dones_append (es es' : List Event) : dones (es ++ es') = dones es ++ dones es' := by
  simp [dones]

theorem dones_message (h : Option Nat) (calls : List Call) :
    dones (calls.map (Event.message h)) = [] := by
  simp [dones]

/-- An element leaves the front of the queue: one that is being ignored, without a word; one that is
    being read, with its `on_done`. -/
inductive Leaves : List Elem → List (Option Nat × ErrorCode) → Prop where
  | stays : Leaves [] []
  | ignored {front} (h : front.status = .abandonedInFlight) : Leaves [front] []
  | finished {front ec} (h : front.status = .inFlight) : Leaves [front] [(front.onDone, ec)]

theorem read_leaves {s : ReadResponseStreamFsm} {front : Elem} {rest : List Elem}
    {msg : AnyBackendMessage} {r : ReadResponseStreamFsm.Reply} (hfront : front.status = .inFlight)
    (h : s.read (front :: rest) msg = .ok r) :
    ∃ fin, front :: rest = fin ++ r.elms ∧ Leaves fin (dones r.out.events) := by
  unfold ReadResponseStreamFsm.read at h
  split at h
  · cases h
  · rename_i f handler _
    split at h
    · cases h
    · rename_i reply _
      simp only at h
      split at h
      · cases h
        exact ⟨[], rfl, by rw [dones_message]; exact .stays⟩
      · cases h
        refine ⟨[front], rfl, ?_⟩
        rw [dones_append, dones_message]
        exact .finished hfront

theorem ignore_leaves {s : ReadResponseStreamFsm} {front : Elem} {rest : List Elem}
    {msg : AnyBackendMessage} {r : ReadResponseStreamFsm.Reply}
    (hfront : front.status = .abandonedInFlight) (h : s.ignore (front :: rest) msg = .ok r) :
    ∃ fin, front :: rest = fin ++ r.elms ∧ Leaves fin (dones r.out.events) := by
  unfold ReadResponseStreamFsm.ignore at h
  split at h
  · cases h
  · split at h
    · simp only at h
      split at h
      · cases h
        exact ⟨[front], rfl, .ignored hfront⟩
      · cases h
        exact ⟨[], rfl, .stays⟩
    · cases h
      exact ⟨[], rfl, .stays⟩

/-- A response that has begun belongs to the first element of the queue. -/
def FrontOk (m : Multiplexer) : Prop :=
  match m.fsm.status with
  | .initial => True
  | .reading => ∃ front rest, m.elems = front :: rest ∧ front.status = .inFlight
  | .ignoring => ∃ front rest, m.elems = front :: rest ∧ front.status = .abandonedInFlight

theorem Inv.frontOk {m : Multiplexer} {unseen : List Nat} (h : Inv m unseen) : FrontOk m := by
  obtain ⟨written, fresh, helems, hreader, _⟩ := h.parts
  unfold Reader at hreader
  unfold FrontOk
  rw [helems]
  cases hs : m.fsm.status with
  | initial => trivial
  | reading =>
    simp only [hs] at hreader
    obtain ⟨front, rest, _, _, rfl, hfront, _⟩ := hreader
    exact ⟨front, rest ++ fresh, rfl, hfront⟩
  | ignoring =>
    simp only [hs] at hreader
    obtain ⟨front, rest, rfl, hfront, _⟩ := hreader
    exact ⟨front, rest ++ fresh, rfl, hfront⟩

/-- **What a message does to the queue**: elements cancelled before they were written are erased
    from its front, and then at most one element leaves. -/
theorem onMessage_leaves {m m' : Multiplexer} {msg : AnyBackendMessage} {out : Output}
    (hok : FrontOk m) (h : m.onMessage msg = .ok (m', out)) :
    m'.nextPtr = m.nextPtr ∧ ∃ gone fin, m.elems = gone ++ fin ++ m'.elems ∧
      (∀ e ∈ gone, e.status = .abandonedPending) ∧ Leaves fin (dones out.events) := by
  unfold Multiplexer.onMessage at h
  split at h
  · cases h
    exact ⟨rfl, [], [], rfl, by simp, .stays⟩
  · cases hr : m.fsm.onMessage m.elems msg with
    | error e =>
      rw [hr] at h
      cases h
    | ok r =>
      rw [hr] at h
      cases h
      refine ⟨rfl, ?_⟩
      unfold FrontOk at hok
      unfold ReadResponseStreamFsm.onMessage at hr
      split at hr
      · rename_i hs
        simp only [hs] at hok
        obtain ⟨front, rest, helems, hfront⟩ := hok
        rw [helems] at hr
        obtain ⟨fin, hsplit, hleaves⟩ := read_leaves hfront hr
        exact ⟨[], fin, helems.trans hsplit, by simp, hleaves⟩
      · rename_i hs
        simp only [hs] at hok
        obtain ⟨front, rest, helems, hfront⟩ := hok
        rw [helems] at hr
        obtain ⟨fin, hsplit, hleaves⟩ := ignore_leaves hfront hr
        exact ⟨[], fin, helems.trans hsplit, by simp, hleaves⟩
      · -- a new response: the erasing loop comes first
        have hgone : ∀ e ∈ m.elems.takeWhile (·.status == .abandonedPending),
            e.status = .abandonedPending := by
          intro e he
          exact beq_iff_eq.mp (List.all_eq_true.mp List.all_takeWhile e he)
        have hsplit := List.takeWhile_append_dropWhile (p := (·.status == .abandonedPending))
          (l := m.elems)
        split at hr
        · rename_i hnil
          cases hr
          refine ⟨_, [], ?_, hgone, .stays⟩
          rw [hnil] at hsplit
          simpa using hsplit.symm
        · rename_i front rest hdrop
          rw [hdrop] at hsplit
          have hmove : ∀ {fin elms : List Elem}, front :: rest = fin ++ elms →
              m.elems = m.elems.takeWhile (·.status == .abandonedPending) ++ fin ++ elms := by
            intro fin elms he
            rw [List.append_assoc, ← he]
            exact hsplit.symm
          split at hr
          · rename_i hfront
            obtain ⟨fin, he, hleaves⟩ := ignore_leaves hfront hr
            exact ⟨_, fin, hmove he, hgone, hleaves⟩
          · split at hr
            · rename_i hfront
              split at hr
              · cases hr
              · obtain ⟨fin, he, hleaves⟩ := read_leaves hfront hr
                exact ⟨_, fin, hmove he, hgone, hleaves⟩
            · cases hr

/-- **What `cancel` does to the queue**: one live element is abandoned in its place. -/
theorem cancel_abandons {m m' : Multiplexer} {e : Elem}
    (hptrs : (m.elems.map (·.ptr)).Pairwise (· < ·)) (he : e ∈ m.elems)
    (h : m.cancel e.ptr = .ok m') :
    m'.nextPtr = m.nextPtr ∧ m'.numPending = m.numPending ∧ ∃ pre post s n,
      m.elems = pre ++ e :: post ∧ m'.elems = pre ++ e.abandon s n :: post ∧ s ≠ .pending ∧ s ≠ .inFlight ∧
      (e.status = .pending → s = .abandonedPending ∧ m'.fsm = m.fsm) := by
  obtain ⟨pre, post, helems⟩ := List.append_of_mem he
  rw [cancel_spec helems (ptr_lt_of_split (helems ▸ hptrs))] at h
  have hset : ∀ x, m.elems.set pre.length x = pre ++ x :: post := by
    intro x
    rw [helems]
    simp
  unfold Multiplexer.cancelAt at h
  split at h
  · cases h
    exact ⟨rfl, rfl, pre, post, _, _, helems, hset _, by decide, by decide, fun _ => ⟨rfl, rfl⟩⟩
  · rename_i hs
    have hne : e.status ≠ .pending := by
      rw [hs]
      decide
    split at h
    · split at h
      · cases h
      · cases h
        exact ⟨rfl, rfl, pre, post, _, _, helems, hset _, by decide, by decide,
          fun hp => absurd hp hne⟩
    · split at h
      · cases h
      · cases h
        exact ⟨rfl, rfl, pre, post, _, _, helems, hset _, by decide, by decide,
          fun hp => absurd hp hne⟩
  · cases h

/-- What `prepare_write` makes of an element. -/
def Elem.sent (e : Elem) : Elem :=
  if e.status = .pending then { e with status := .inFlight } else e

/-- The bytes of an element's request. -/
def Elem.payload (e : Elem) : Bytes := (e.req.map Request.payload).getD []

theorem writePending_eq : ∀ {es es' : List Elem} {bytes : Bytes},
    Multiplexer.writePending es = .ok (es', bytes) →
    es' = es.map Elem.sent ∧ bytes = (es.filter (·.status == .pending)).flatMap Elem.payload
  | [], _, _, h => by
      cases h
      exact ⟨rfl, rfl⟩
  | e :: es, _, _, h => by
      unfold Multiplexer.writePending at h
      have hrest : ∀ {g : List Elem × Bytes → List Elem × Bytes} {r : List Elem × Bytes},
          (Multiplexer.writePending es).map g = .ok r →
          r = g (es.map Elem.sent, (es.filter (·.status == .pending)).flatMap Elem.payload) := by
        intro g r hr
        cases hw : Multiplexer.writePending es with
        | error fault =>
          rw [hw] at hr
          cases hr
        | ok w =>
          rw [hw] at hr
          cases hr
          obtain ⟨h1, h2⟩ := writePending_eq  hw
          rw [← h1, ← h2]
      split at h
      · rename_i hs
        split at h
        · cases h
        · rename_i req hreq
          cases hrest h
          refine ⟨?_, ?_⟩
          · simp [Elem.sent, hs]
          · simp [Elem.payload, hs, hreq]
      · rename_i hs
        cases hrest h
        refine ⟨?_, ?_⟩
        · simp [Elem.sent, hs]
        · simp [hs]
      · cases h

/-- **What `prepare_write` does**: the pending elements of the unwritten part are written, in
    order. -/
theorem prepareWrite_eq {m m' : Multiplexer} {written fresh : List Elem} {bytes : Bytes}
    (helems : m.elems = written ++ fresh) (hlen : fresh.length = m.numPending)
    (h : m.prepareWrite = .ok (m', bytes)) :
    m'.nextPtr = m.nextPtr ∧ m'.elems = written ++ fresh.map Elem.sent ∧
      bytes = (fresh.filter (·.status == .pending)).flatMap Elem.payload := by
  unfold Multiplexer.prepareWrite at h
  rw [pendingOffset_spec helems hlen] at h
  simp only [helems, List.drop_left, List.take_left] at h
  cases hw : Multiplexer.writePending fresh with
  | error fault =>
    rw [hw] at h
    cases h
  | ok w =>
    rw [hw] at h
    cases h
    obtain ⟨h1, h2⟩ := writePending_eq  hw
    refine ⟨rfl, ?_, h2⟩
    rw [h1]

theorem cleanup_eq {m m' : Multiplexer} {written fresh : List Elem} {events : List Event}
    (helems : m.elems = written ++ fresh) (hlen : fresh.length = m.numPending)
    (h : m.cleanup = .ok (m', events)) :
    m' = { m with elems := fresh, fsm := m.fsm.reset } ∧
      events = written.map (Event.done ·.onDone .operationCanceled) := by
  unfold Multiplexer.cleanup at h
  rw [pendingOffset_spec helems hlen] at h
  simp only [helems, List.drop_left, List.take_left] at h
  cases h
  exact ⟨rfl, rfl⟩

/-! ## 3. The ledger -/

/-- The elements whose callback is still to be called. -/
def Elem.isLive (e : Elem) : Bool := e.status == .pending || e.status == .inFlight

theorem Elem.live_iff (e : Elem) : e.Live ↔ e.isLive = true := by
  simp [Elem.Live, Elem.isLive]

/-- **The queue and the log agree.** -/
structure Ledger (m : Multiplexer) (l : Log) : Prop where
  /-- No two elements have one address. -/
  ptrs : (m.elems.map (·.ptr)).Pairwise (· < ·)
  bound : ∀ e ∈ m.elems, e.ptr < m.nextPtr
  added : l.requests.length = m.nextPtr
  live : ∀ e ∈ m.elems, e.isLive = true →
    e.onDone = some e.ptr ∧ e.req = l.requests[e.ptr]? ∧ endsOf e.ptr l.entries = []
  abandoned : ∀ e ∈ m.elems, e.isLive = false →
    e.onDone = none ∧ (endsOf e.ptr l.entries).length = 1
  gone : ∀ ptr < m.nextPtr, (∀ e ∈ m.elems, e.ptr ≠ ptr) → (endsOf ptr l.entries).length = 1
  fresh : ∀ ptr, m.nextPtr ≤ ptr → endsOf ptr l.entries = []

theorem Ledger.init : Ledger {} {} where
  ptrs := .nil
  bound _ he := by cases he
  added := rfl
  live _ he := by cases he
  abandoned _ he := by cases he
  gone _ hlt := by cases hlt
  fresh _ _ := rfl

/-- The elements around `e` have other addresses. -/
theorem ptr_ne_of_split {pre post : List Elem} {e x : Elem}
    (hptrs : ((pre ++ e :: post).map (·.ptr)).Pairwise (· < ·)) (hx : x ∈ pre ++ post) :
    x.ptr ≠ e.ptr := by
  rw [List.map_append, List.map_cons, List.pairwise_append, List.pairwise_cons] at hptrs
  obtain ⟨_, ⟨hpost, _⟩, hpre⟩ := hptrs
  rcases List.mem_append.mp hx with hx | hx
  · have := hpre x.ptr (List.mem_map_of_mem hx) e.ptr (by simp)
    omega
  · have := hpost x.ptr (List.mem_map_of_mem hx)
    omega

/-- An address belongs to one element. -/
theorem Ledger.ptr_inj {m : Multiplexer} {l : Log} (h : Ledger m l) {e e' : Elem}
    (he : e ∈ m.elems) (he' : e' ∈ m.elems) (hp : e.ptr = e'.ptr) : e = e' := by
  obtain ⟨pre, post, helems⟩ := List.append_of_mem he
  have hptrs := h.ptrs
  rw [helems] at hptrs he'
  by_contra hne
  refine ptr_ne_of_split (x := e') hptrs ?_ hp.symm
  simpa [Ne.symm hne] using he'

theorem length_endsOf_events (ptr : Nat) (events : List Event) :
    (endsOf ptr (events.map .event)).length =
      ((dones events).filter (·.1 == some ptr)).length := by
  induction events with
  | nil => rfl
  | cons ev events ih =>
    unfold endsOf dones at ih ⊢
    cases ev with
    | message res call => simpa [Entry.endsElem] using ih
    | done d ec =>
      cases d with
      | none => simpa [Entry.endsElem] using ih
      | some p =>
        by_cases hp : p = ptr
        · simpa [Entry.endsElem, hp] using ih
        · simpa [Entry.endsElem, hp] using ih

/-- The one live element with the address of `e` is `e`. -/
theorem filter_live_eq {es : List Elem} (hptrs : (es.map (·.ptr)).Pairwise (· < ·)) {e : Elem}
    (he : e ∈ es) (hl : e.isLive = true) :
    (es.filter fun x => x.isLive && x.ptr == e.ptr) = [e] := by
  have hother : ∀ {part : List Elem}, (∀ x ∈ part, x.ptr ≠ e.ptr) →
      (part.filter fun x => x.isLive && x.ptr == e.ptr) = [] := by
    intro part hpart
    refine List.filter_eq_nil_iff.mpr fun x hx hcond => ?_
    rw [Bool.and_eq_true, beq_iff_eq] at hcond
    exact hpart x hx hcond.2
  obtain ⟨pre, post, rfl⟩ := List.append_of_mem he
  have hpre := hother fun x hx => ptr_ne_of_split hptrs (List.mem_append_left post hx)
  have hpost := hother fun x hx => ptr_ne_of_split hptrs (List.mem_append_right pre hx)
  rw [List.filter_append, List.filter_cons, hl, hpre, hpost]
  simp

/-- **Elements leave the front of the queue**, and the callbacks that are made are those of the live
    ones among them. -/
theorem Ledger.leave {m m' : Multiplexer} {l : Log} {left : List Elem} {events : List Event}
    (h : Ledger m l) (helems : m.elems = left ++ m'.elems) (hnext : m'.nextPtr = m.nextPtr)
    (hdones : ∀ ptr, ((dones events).filter (·.1 == some ptr)).length =
      (left.filter fun e => e.isLive && e.ptr == ptr).length) :
    Ledger m' { l with entries := l.entries ++ events.map .event } := by
  have hin : ∀ {e}, e ∈ m'.elems → e ∈ m.elems := fun he =>
    helems ▸ List.mem_append_right left he
  have hleft : ∀ {e}, e ∈ left → e ∈ m.elems := fun he => helems ▸ List.mem_append_left _ he
  -- an address that is not that of a live element which leaves
  have hquiet : ∀ {ptr}, (∀ e ∈ left, e.isLive = true → e.ptr ≠ ptr) →
      endsOf ptr (events.map .event) = [] := by
    intro ptr hne
    rw [← List.length_eq_zero_iff, length_endsOf_events, hdones, List.length_eq_zero_iff,
      List.filter_eq_nil_iff]
    intro e he hcond
    rw [Bool.and_eq_true, beq_iff_eq] at hcond
    exact hne e he hcond.1 hcond.2
  have hstays : ∀ {e}, e ∈ m'.elems → endsOf e.ptr (events.map .event) = [] := by
    intro e he
    refine hquiet fun e' he' _ hp => ?_
    have hptrs := h.ptrs
    rw [helems, List.map_append, List.pairwise_append] at hptrs
    have := hptrs.2.2 e'.ptr (List.mem_map_of_mem he') e.ptr (List.mem_map_of_mem he)
    omega
  refine ⟨h.ptrs.sublist ((helems ▸ List.sublist_append_right left m'.elems).map _),
    fun e he => hnext ▸ h.bound e (hin he), h.added.trans hnext.symm, fun e he hl => ?_,
    fun e he hl => ?_, fun ptr hlt hno => ?_, fun ptr hle => ?_⟩
  · obtain ⟨hdone, hreq, hends⟩ := h.live e (hin he) hl
    refine ⟨hdone, hreq, ?_⟩
    rw [endsOf_append, hends, hstays he]
    rfl
  · obtain ⟨hdone, hends⟩ := h.abandoned e (hin he) hl
    refine ⟨hdone, ?_⟩
    rw [endsOf_append, hstays he, List.append_nil]
    exact hends
  · rw [hnext] at hlt
    rw [endsOf_append, List.length_append]
    by_cases hmem : ∃ e ∈ left, e.ptr = ptr
    · obtain ⟨e, he, rfl⟩ := hmem
      cases hl : e.isLive with
      | true =>
        obtain ⟨_, _, hends⟩ := h.live e (hleft he) hl
        have hptrs : (left.map (·.ptr)).Pairwise (· < ·) :=
          h.ptrs.sublist ((helems ▸ List.sublist_append_left left m'.elems).map _)
        have hone := filter_live_eq hptrs he hl
        rw [hends, length_endsOf_events, hdones, hone]
        rfl
      | false =>
        have hends := (h.abandoned e (hleft he) hl).2
        rw [hends, hquiet fun e' he' hl' hp => ?_]
        · rfl
        · rw [h.ptr_inj (hleft he') (hleft he) hp, hl] at hl'
          cases hl'
    · have hnone : ∀ e ∈ m.elems, e.ptr ≠ ptr := by
        intro e he hp
        rw [helems] at he
        rcases List.mem_append.mp he with he | he
        · exact hmem ⟨e, he, hp⟩
        · exact hno e he hp
      rw [h.gone ptr hlt hnone, hquiet fun e he _ hp => hmem ⟨e, he, hp⟩]
      rfl
  · rw [hnext] at hle
    rw [endsOf_append, h.fresh ptr hle, hquiet fun e he _ hp => ?_]
    · rfl
    · have := h.bound e (hleft he)
      omega

theorem isLive_of_status {e : Elem} {s : Status} (h : e.status = s) :
    e.isLive = (s == .pending || s == .inFlight) := by
  rw [Elem.isLive, h]

theorem Ledger.onMessage {m m' : Multiplexer} {l : Log} {msg : AnyBackendMessage} {out : Output}
    (h : Ledger m l) (hok : FrontOk m) (hs : m.onMessage msg = .ok (m', out)) :
    Ledger m' { l with entries := l.entries ++ out.events.map .event } := by
  obtain ⟨hnext, gone, fin, helems, hgone, hleaves⟩ := onMessage_leaves hok hs
  have hdead : ∀ ptr, (gone.filter fun e => e.isLive && e.ptr == ptr) = [] := by
    intro ptr
    refine List.filter_eq_nil_iff.mpr fun e he hcond => ?_
    rw [Bool.and_eq_true, isLive_of_status (hgone e he)] at hcond
    cases hcond.1
  refine h.leave helems hnext fun ptr => ?_
  rw [List.filter_append, hdead, List.nil_append]
  -- at most one element leaves behind the erased ones
  generalize dones out.events = ds at hleaves ⊢
  cases hleaves with
  | stays => rfl
  | ignored hfront => simp [isLive_of_status hfront]
  | @finished front ec hfront =>
    have hmem : front ∈ m.elems := by
      rw [helems]
      simp
    have hl := isLive_of_status hfront
    rw [(h.live front hmem hl).1]
    by_cases hp : front.ptr = ptr
    · simp [hl, hp]
    · simp [hp]

theorem Ledger.cleanup {m m' : Multiplexer} {l : Log} {events : List Event} (h : Ledger m l)
    (hinv : Inv m l.unseen) (hs : m.cleanup = .ok (m', events)) :
    Ledger m' { l with entries := l.entries ++ events.map .event } := by
  obtain ⟨written, fresh, helems, _, _, hlen, _⟩ := hinv.parts
  obtain ⟨rfl, rfl⟩ := cleanup_eq helems hlen hs
  refine h.leave helems rfl fun ptr => ?_
  have hall : dones (written.map (Event.done ·.onDone .operationCanceled)) =
      written.map fun e => (e.onDone, .operationCanceled) := by
    rw [dones, List.filterMap_map]
    exact congrFun List.filterMap_eq_map written
  rw [hall, List.filter_map, List.length_map]
  refine congrArg List.length (List.filter_congr fun e he => ?_)
  have hmem : e ∈ m.elems := helems ▸ List.mem_append_left _ he
  cases hl : e.isLive with
  | true => simp [(h.live e hmem hl).1]
  | false => simp [(h.abandoned e hmem hl).1]

theorem Ledger.cancel {m m' : Multiplexer} {l : Log} {e : Elem} (h : Ledger m l)
    (he : e ∈ m.elems) (hlive : e.Live) (hs : m.cancel e.ptr = .ok m') :
    Ledger m' { l with entries := l.entries ++ [.cancelled e.ptr] } := by
  obtain ⟨hnext, _, pre, post, s, n, helems, helems', hs1, hs2, _⟩ := cancel_abandons h.ptrs he hs
  have hother : ∀ {ptr}, ptr ≠ e.ptr → endsOf ptr [.cancelled e.ptr] = [] := by
    intro ptr hne
    simp [endsOf, Entry.endsElem, Ne.symm hne]
  have hself : (endsOf e.ptr (l.entries ++ [.cancelled e.ptr])).length = 1 := by
    rw [endsOf_append, (h.live e he ((e.live_iff).mp hlive)).2.2]
    simp [endsOf, Entry.endsElem]
  have hne : ∀ x ∈ pre ++ post, x ∈ m.elems ∧ x.ptr ≠ e.ptr := by
    intro x hx
    have hmem : x ∈ m.elems := by
      rw [helems]
      rcases List.mem_append.mp hx with hx | hx <;> simp [hx]
    have hptrs := h.ptrs
    rw [helems] at hptrs
    exact ⟨hmem, ptr_ne_of_split hptrs hx⟩
  have hcases : ∀ x ∈ m'.elems, x = e.abandon s n ∨ x ∈ m.elems ∧ x.ptr ≠ e.ptr := by
    intro x hx
    rw [helems'] at hx
    rcases List.mem_append.mp hx with hx | hx
    · exact .inr (hne x (List.mem_append_left _ hx))
    · rcases List.mem_cons.mp hx with rfl | hx
      · exact .inl rfl
      · exact .inr (hne x (List.mem_append_right _ hx))
  have hdead : (e.abandon s n).isLive = false := by
    simp [Elem.isLive, Elem.abandon, hs1, hs2]
  have hmap : m'.elems.map (·.ptr) = m.elems.map (·.ptr) := by
    rw [helems', helems, map_ptr_abandon]
  refine ⟨hmap ▸ h.ptrs, fun x hx => ?_, h.added.trans hnext.symm, fun x hx hl => ?_,
    fun x hx hl => ?_, fun ptr hlt hno => ?_, fun ptr hle => ?_⟩
  · rw [hnext]
    rcases hcases x hx with rfl | ⟨hmem, _⟩
    · exact h.bound e he
    · exact h.bound x hmem
  · rcases hcases x hx with rfl | ⟨hmem, hp⟩
    · rw [hdead] at hl
      cases hl
    · obtain ⟨hdone, hreq, hends⟩ := h.live x hmem hl
      refine ⟨hdone, hreq, ?_⟩
      rw [endsOf_append, hends, hother hp]
      rfl
  · rcases hcases x hx with rfl | ⟨hmem, hp⟩
    · exact ⟨rfl, hself⟩
    · obtain ⟨hdone, hends⟩ := h.abandoned x hmem hl
      refine ⟨hdone, ?_⟩
      rw [endsOf_append, hother hp, List.append_nil]
      exact hends
  · have hp : ptr ≠ e.ptr := by
      intro hp
      exact hno (e.abandon s n) (by rw [helems']; simp) hp.symm
    have hnone : ∀ x ∈ m.elems, x.ptr ≠ ptr := by
      intro x hx
      rw [helems] at hx
      rcases List.mem_append.mp hx with hx | hx
      · exact hno x (by rw [helems']; simp [hx])
      · rcases List.mem_cons.mp hx with rfl | hx
        · exact Ne.symm hp
        · exact hno x (by rw [helems']; simp [hx])
    rw [endsOf_append, hother hp, List.append_nil]
    exact h.gone ptr (hnext ▸ hlt) hnone
  · rw [hnext] at hle
    have hlt := h.bound e he
    rw [endsOf_append, h.fresh ptr hle, hother (by omega)]
    rfl

theorem Elem.sent_fields (e : Elem) : e.sent.ptr = e.ptr ∧ e.sent.onDone = e.onDone ∧
    e.sent.req = e.req ∧ e.sent.isLive = e.isLive := by
  unfold Elem.sent
  split
  · rename_i hs
    exact ⟨rfl, rfl, rfl, by simp [Elem.isLive, hs]⟩
  · exact ⟨rfl, rfl, rfl, rfl⟩

theorem Ledger.prepareWrite {m m' : Multiplexer} {l : Log} {bytes : Bytes} (h : Ledger m l)
    (hinv : Inv m l.unseen) (hs : m.prepareWrite = .ok (m', bytes)) :
    Ledger m' { l with unseen := [] } := by
  obtain ⟨written, fresh, helems, _, _, hlen, _⟩ := hinv.parts
  obtain ⟨hnext, helems', _⟩ := prepareWrite_eq helems hlen hs
  -- every element is one that was there before, up to its status
  have hfrom : ∀ x ∈ m'.elems, ∃ e ∈ m.elems, x.ptr = e.ptr ∧ x.onDone = e.onDone ∧
      x.req = e.req ∧ x.isLive = e.isLive := by
    intro x hx
    rw [helems'] at hx
    rcases List.mem_append.mp hx with hx | hx
    · exact ⟨x, helems ▸ List.mem_append_left _ hx, rfl, rfl, rfl, rfl⟩
    · obtain ⟨e, he, rfl⟩ := List.mem_map.mp hx
      exact ⟨e, helems ▸ List.mem_append_right _ he, e.sent_fields⟩
  have hinto : ∀ e ∈ m.elems, ∃ x ∈ m'.elems, x.ptr = e.ptr := by
    intro e he
    rw [helems] at he
    rw [helems']
    rcases List.mem_append.mp he with he | he
    · exact ⟨e, List.mem_append_left _ he, rfl⟩
    · exact ⟨e.sent, List.mem_append_right _ (List.mem_map_of_mem he), e.sent_fields.1⟩
  have hmap : m'.elems.map (·.ptr) = m.elems.map (·.ptr) := by
    rw [helems', helems, List.map_append, List.map_append, List.map_map]
    exact congrArg _ (List.map_congr_left fun e _ => e.sent_fields.1)
  refine ⟨hmap ▸ h.ptrs, fun x hx => ?_, h.added.trans hnext.symm, fun x hx hl => ?_,
    fun x hx hl => ?_, fun ptr hlt hno => ?_, fun ptr hle => h.fresh ptr (hnext ▸ hle)⟩
  · obtain ⟨e, he, hp, _⟩ := hfrom x hx
    rw [hp, hnext]
    exact h.bound e he
  · obtain ⟨e, he, hp, hd, hr, hlive⟩ := hfrom x hx
    rw [hp, hd, hr]
    exact h.live e he (hlive ▸ hl)
  · obtain ⟨e, he, hp, hd, _, hlive⟩ := hfrom x hx
    rw [hp, hd]
    exact h.abandoned e he (hlive ▸ hl)
  · refine h.gone ptr (hnext ▸ hlt) fun e he hp => ?_
    obtain ⟨x, hx, hxp⟩ := hinto e he
    exact hno x hx (hxp.trans hp)

theorem Ledger.add {m : Multiplexer} {l : Log} (h : Ledger m l) (req : Request) :
    Ledger (m.add req)
      { l with requests := l.requests ++ [req], unseen := l.unseen ++ [m.nextPtr] } := by
  have hold : ∀ e ∈ m.elems, (l.requests ++ [req])[e.ptr]? = l.requests[e.ptr]? := by
    intro e he
    have hlt := h.bound e he
    exact List.getElem?_append_left (by rw [h.added]; exact hlt)
  have hnew : (l.requests ++ [req])[m.nextPtr]? = some req := by
    rw [← h.added]
    simp
  have hcases : ∀ x ∈ (m.add req).elems, x ∈ m.elems ∨
      x = ⟨m.nextPtr, some req, some m.nextPtr, some m.nextPtr, .pending, 0⟩ := by
    intro x hx
    rcases List.mem_append.mp hx with hx | hx
    · exact .inl hx
    · exact .inr (List.mem_singleton.mp hx)
  refine ⟨?_, fun x hx => ?_, ?_, fun x hx hl => ?_, fun x hx hl => ?_, fun ptr hlt hno => ?_,
    fun ptr hle => h.fresh ptr (Nat.le_of_succ_le hle)⟩
  · exact pairwise_ptr_append h.ptrs h.bound
  · show x.ptr < m.nextPtr + 1
    rcases hcases x hx with hmem | rfl
    · exact Nat.lt_succ_of_lt (h.bound x hmem)
    · exact Nat.lt_succ_self _
  · show (l.requests ++ [req]).length = m.nextPtr + 1
    rw [List.length_append, h.added]
    rfl
  · rcases hcases x hx with hmem | rfl
    · obtain ⟨hd, hr, hends⟩ := h.live x hmem hl
      exact ⟨hd, hr.trans (hold x hmem).symm, hends⟩
    · exact ⟨rfl, hnew.symm, h.fresh _ (Nat.le_refl _)⟩
  · rcases hcases x hx with hmem | rfl
    · exact h.abandoned x hmem hl
    · cases hl
  · have hne : ptr ≠ m.nextPtr := by
      intro hp
      exact hno ⟨m.nextPtr, some req, some m.nextPtr, some m.nextPtr, .pending, 0⟩
        (List.mem_append_right _ (List.mem_singleton_self _)) hp.symm
    have hlt' : ptr < m.nextPtr := Nat.lt_of_le_of_ne (Nat.le_of_lt_succ hlt) hne
    exact h.gone ptr hlt' fun e he => hno e (List.mem_append_left _ he)

theorem orderly_of_busy {m : Multiplexer} {op : Op}
    (hbusy : ∀ msg, op = .onMessage msg → ¬Idle m) : Orderly m op := by
  cases op with
  | onMessage msg => exact fun _ hidle => absurd hidle (hbusy msg rfl)
  | _ => trivial

/-- **Every operation keeps the invariant and the ledger.** -/
theorem Ledger.step {m m' : Multiplexer} {l : Log} {op : Op} {out : Output} (hinv : Inv m l.unseen)
    (h : Ledger m l) (hv : Valid m op) (ho : Orderly m op) (hs : m.step op = .ok (m', out)) :
    Inv m' (l.after m op out).unseen ∧ Ledger m' (l.after m op out) := by
  obtain ⟨m₁, out₁, hs₁, hinv', _⟩ := hinv.step hv ho
  cases hs.symm.trans hs₁
  refine ⟨hinv', ?_⟩
  cases op with
  | add req =>
    cases hs
    have hadd := h.add req
    simpa [Log.after, unseenAfter] using hadd
  | cancel ptr =>
    obtain ⟨e, he, rfl, hlive⟩ := hv
    obtain ⟨hc, rfl⟩ := Multiplexer.cancel_of_step hs
    exact h.cancel he hlive hc
  | prepareWrite =>
    obtain ⟨bytes, hp, rfl⟩ := Multiplexer.prepareWrite_of_step hs
    have hw := h.prepareWrite hinv hp
    simpa [Log.after, unseenAfter] using hw
  | onMessage msg => exact h.onMessage hinv.frontOk hs
  | cleanup =>
    obtain ⟨events, hc, rfl⟩ := Multiplexer.cleanup_of_step hs
    exact h.cleanup hinv hc

theorem Reach.ledger {m : Multiplexer} {l : Log} (h : Reach m l) :
    Inv m l.unseen ∧ Ledger m l := by
  induction h with
  | init => exact ⟨Inv.init, Ledger.init⟩
  | step _ hv hbusy hs ih => exact ih.2.step ih.1 hv (orderly_of_busy hbusy) hs

/-! ## 4. Completion -/

/-- **An element ends at most once.** -/
theorem Ledger.ends_le {m : Multiplexer} {l : Log} (h : Ledger m l) (ptr : Nat) :
    (endsOf ptr l.entries).length ≤ 1 := by
  by_cases hlt : ptr < m.nextPtr
  · by_cases hmem : ∃ e ∈ m.elems, e.ptr = ptr
    · obtain ⟨e, he, rfl⟩ := hmem
      cases hl : e.isLive with
      | true => simp [(h.live e he hl).2.2]
      | false => exact Nat.le_of_eq (h.abandoned e he hl).2
    · exact Nat.le_of_eq (h.gone ptr hlt fun e he hp => hmem ⟨e, he, hp⟩)
  · simp [h.fresh ptr (Nat.le_of_not_lt hlt)]

/-- An entry that ends an element is the only one. -/
theorem Ledger.ends_unique {m : Multiplexer} {l : Log} (h : Ledger m l) {ptr : Nat} {x : Entry}
    {pre post : List Entry} (hl : l.entries = pre ++ x :: post)
    (hx : x.endsElem ptr = true) : ∀ y ∈ pre ++ post, y.endsElem ptr = false := by
  have hle := h.ends_le ptr
  rw [hl, endsOf, List.filter_append, List.filter_cons_of_pos hx, List.length_append,
    List.length_cons] at hle
  intro y hy
  by_contra hne
  have hend : y.endsElem ptr = true := by simpa using hne
  rcases List.mem_append.mp hy with hy | hy
  · have := List.length_pos_of_mem (List.mem_filter.mpr ⟨hy, hend⟩)
    omega
  · have := List.length_pos_of_mem (List.mem_filter.mpr ⟨hy, hend⟩)
    omega

/-- The pending elements `prepare_write` has not seen are the open ones. -/
theorem Ledger.emits {m : Multiplexer} {l : Log} (h : Ledger m l) {written fresh : List Elem}
    (helems : m.elems = written ++ fresh) (hfresh : ∀ e ∈ fresh, e.Unwritten)
    (hptrs : fresh.map (·.ptr) = l.unseen) :
    (fresh.filter (·.status == .pending)).flatMap Elem.payload =
      (l.unseen.filter l.isOpen).flatMap l.payload := by
  have hin : ∀ {e}, e ∈ fresh → e ∈ m.elems := fun he => helems ▸ List.mem_append_right _ he
  have hopen : ∀ e ∈ fresh, (e.status == .pending) = l.isOpen e.ptr := by
    intro e he
    rcases hfresh e he with ⟨hs, _⟩ | hs
    · have hends := (h.live e (hin he) (isLive_of_status hs)).2.2
      simp [Log.isOpen, hs, hends]
    · have hends := (h.abandoned e (hin he) (isLive_of_status hs)).2
      have hclosed : l.isOpen e.ptr = false := by
        rw [Log.isOpen]
        cases hnil : endsOf e.ptr l.entries with
        | nil =>
          rw [hnil] at hends
          cases hends
        | cons _ _ => rfl
      rw [hclosed, hs]
      rfl
  have hpayload : ∀ e ∈ fresh.filter (·.status == .pending), e.payload = l.payload e.ptr := by
    intro e he
    obtain ⟨hmem, hs⟩ := List.mem_filter.mp he
    have hreq := (h.live e (hin hmem) (isLive_of_status (by simpa using hs))).2.1
    rw [Elem.payload, hreq]
    rfl
  rw [← hptrs, List.filter_map, List.flatMap_map,
    ← List.filter_congr (q := l.isOpen ∘ fun e : Elem => e.ptr) hopen,
    List.flatMap_def, List.flatMap_def, List.map_congr_left hpayload]

/-- **What `cleanup` reports**: the written requests that have neither completed nor been
    cancelled. -/
theorem Ledger.cleanup_events {m : Multiplexer} {l : Log} (h : Ledger m l)
    {written fresh : List Elem} (helems : m.elems = written ++ fresh)
    (hptrs : fresh.map (·.ptr) = l.unseen) (ptr : Nat) :
    (∃ e ∈ written, e.onDone = some ptr) ↔
      ptr < l.requests.length ∧ ptr ∉ l.unseen ∧ l.isOpen ptr = true := by
  have hin : ∀ {e}, e ∈ written → e ∈ m.elems := fun he => helems ▸ List.mem_append_left _ he
  constructor
  · rintro ⟨e, he, hd⟩
    have hl : e.isLive = true := by
      by_contra hne
      rw [(h.abandoned e (hin he) (by simpa using hne)).1] at hd
      cases hd
    obtain ⟨hd', _, hends⟩ := h.live e (hin he) hl
    rw [hd'] at hd
    cases hd
    refine ⟨h.added ▸ h.bound e (hin he), fun hmem => ?_, by simp [Log.isOpen, hends]⟩
    rw [← hptrs] at hmem
    have hpairs := h.ptrs
    rw [helems, List.map_append, List.pairwise_append] at hpairs
    have := hpairs.2.2 e.ptr (List.mem_map_of_mem he) e.ptr hmem
    omega
  · rintro ⟨hlt, hseen, hopen⟩
    have hends : endsOf ptr l.entries = [] := by simpa [Log.isOpen] using hopen
    have hmem : ∃ e ∈ m.elems, e.ptr = ptr := by
      by_contra hno
      have := h.gone ptr (h.added ▸ hlt) fun e he hp => hno ⟨e, he, hp⟩
      rw [hends] at this
      cases this
    obtain ⟨e, he, rfl⟩ := hmem
    have hwritten : e ∈ written := by
      rw [helems] at he
      rcases List.mem_append.mp he with he | he
      · exact he
      · exact absurd (hptrs ▸ List.mem_map_of_mem he) hseen
    have hl : e.isLive = true := by
      by_contra hne
      have := (h.abandoned e he (by simpa using hne)).2
      rw [hends] at this
      cases this
    exact ⟨e, hwritten, (h.live e he hl).1⟩

/-- The unwritten elements are those with an unseen address. -/
theorem Inv.filter_unseen {m : Multiplexer} {unseen : List Nat} (h : Inv m unseen)
    {written fresh : List Elem} (helems : m.elems = written ++ fresh)
    (hptrs : fresh.map (·.ptr) = unseen) :
    m.elems.filter (fun e => unseen.contains e.ptr) = fresh := by
  have hpairs := h.ptrs
  rw [helems, List.map_append, List.pairwise_append] at hpairs
  rw [helems, List.filter_append, List.filter_eq_nil_iff.mpr fun e he hmem => ?_,
    List.filter_eq_self.mpr fun e he => ?_]
  · rfl
  · rw [← hptrs]
    simpa using ⟨e, he, rfl⟩
  · rw [List.contains_iff_mem, ← hptrs] at hmem
    have := hpairs.2.2 e.ptr (List.mem_map_of_mem he) e.ptr hmem
    omega

/-- **Completion.** Whatever is added, cancelled and written, and whatever the server sends while
    something written is unanswered, no operation runs into a fault, and:
    an element's own `on_done` is called at most once, and never behind its `cancel`;
    an element that is no longer in the queue has had its `on_done` called or has been cancelled;
    `cleanup` calls the `on_done` of exactly the written requests that have neither completed nor
    been cancelled, with `operation_canceled`; it keeps those `prepare_write` has not seen, as they
    are and in their order, and resets the reader; and the next `prepare_write` writes exactly
    those among them that have not been cancelled. -/
theorem multiplexer_completes {m : Multiplexer} {l : Log} (h : Reach m l) :
    (∀ op, Valid m op → (∀ msg, op = .onMessage msg → ¬Idle m) →
      ∃ m' out, m.step op = .ok (m', out)) ∧
    (∀ ptr ec pre post, l.entries = pre ++ .event (.done (some ptr) ec) :: post →
      (∀ ec', .event (.done (some ptr) ec') ∉ pre ++ post) ∧ .cancelled ptr ∉ pre) ∧
    (∀ ptr < l.requests.length, (∀ e ∈ m.elems, e.ptr ≠ ptr) →
      (∃ ec, .event (.done (some ptr) ec) ∈ l.entries) ∨ .cancelled ptr ∈ l.entries) ∧
    ∃ m' events, m.cleanup = .ok (m', events) ∧
      (∀ ptr ec, .done (some ptr) ec ∈ events ↔ ec = .operationCanceled ∧
        ptr < l.requests.length ∧ ptr ∉ l.unseen ∧ l.isOpen ptr = true) ∧
      (∀ res call, .message res call ∉ events) ∧
      m'.elems = m.elems.filter (fun e => l.unseen.contains e.ptr) ∧
      m'.elems.map (·.ptr) = l.unseen ∧
      m'.fsm.status = .initial ∧
      ∃ m'', m'.prepareWrite = .ok (m'', (l.unseen.filter l.isOpen).flatMap l.payload) := by
  obtain ⟨hinv, hledger⟩ := h.ledger
  obtain ⟨written, fresh, helems, _, hfresh, hlen, hptrs⟩ := hinv.parts
  refine ⟨fun op hv hbusy => ?_, fun ptr ec pre post hl => ?_, fun ptr hlt hno => ?_, ?_⟩
  · obtain ⟨m', out, hs, _⟩ := hinv.step hv (orderly_of_busy hbusy)
    exact ⟨m', out, hs⟩
  · have hunique := hledger.ends_unique hl (show Entry.endsElem ptr _ = true by simp [Entry.endsElem])
    refine ⟨fun ec' hmem => ?_, fun hmem => ?_⟩
    · have := hunique _ hmem
      simp [Entry.endsElem] at this
    · have := hunique _ (List.mem_append_left _ hmem)
      simp [Entry.endsElem] at this
  · have hone := hledger.gone ptr (hledger.added ▸ hlt) hno
    obtain ⟨x, hx⟩ := List.length_eq_one_iff.mp hone
    have hmem : x ∈ endsOf ptr l.entries := by simp [hx]
    obtain ⟨hentry, hends⟩ := List.mem_filter.mp hmem
    unfold Entry.endsElem at hends
    split at hends
    · rename_i p ec
      rw [beq_iff_eq] at hends
      subst hends
      exact .inl ⟨ec, hentry⟩
    · rw [beq_iff_eq] at hends
      subst hends
      exact .inr hentry
    · cases hends
  · obtain ⟨m', events, hc, hinv'⟩ := hinv.cleanup
    obtain ⟨rfl, rfl⟩ := cleanup_eq helems hlen hc
    obtain ⟨m'', bytes, hp, _⟩ := hinv'.prepareWrite
    obtain ⟨_, _, rfl⟩ := prepareWrite_eq
      (m := { m with elems := fresh, fsm := m.fsm.reset }) (List.nil_append fresh).symm hlen hp
    refine ⟨_, _, hc, fun ptr ec => ?_, by simp, (hinv.filter_unseen helems hptrs).symm,
      hptrs, rfl, m'', hledger.emits helems hfresh hptrs ▸ hp⟩
    rw [← hledger.cleanup_events helems hptrs ptr]
    constructor
    · intro hmem
      obtain ⟨e, he, heq⟩ := List.mem_map.mp hmem
      obtain ⟨hd, hec⟩ := Event.done.inj heq
      exact ⟨hec.symm, e, he, hd⟩
    · rintro ⟨rfl, e, he, hd⟩
      exact List.mem_map.mpr ⟨e, he, by rw [hd]⟩

/-- A connection is lost while the response to the first of two requests is being read, and the
    second has not been written. -/
theorem multiplexer_completes_lost_connection :
    ∃ m l m' events, Reach m l ∧ m.fsm.status = .reading ∧ m.cleanup = .ok (m', events) ∧
      Event.done (some 0) .operationCanceled ∈ events ∧ m'.fsm.status = .initial ∧
      m'.elems.map (·.ptr) = [1] := by
  have hreq : Request.Accepted { messages := [.query] } := by decide
  have hadd : Reach _ _ :=
    @Reach.step _ _ _ (.add { messages := [.query] }) _ .init hreq (by simp) rfl
  have hwrite : Reach _ _ := @Reach.step _ _ _ .prepareWrite _ hadd trivial (by simp) rfl
  have hread : Reach _ _ := @Reach.step _ _ _ (.onMessage (.commandComplete [])) _ hwrite trivial
    (fun _ _ hidle => by
      have := hidle _ List.mem_cons_self
      simp at this) rfl
  have hsecond : Reach _ _ :=
    @Reach.step _ _ _ (.add { messages := [.query] }) _ hread hreq (by simp) rfl
  obtain ⟨_, _, _, m', events, hc, hevents, _, _, hkept, hreset, _⟩ := multiplexer_completes hsecond
  exact ⟨_, _, m', events, hsecond, rfl, hc,
    (hevents 0 _).mpr ⟨rfl, by decide, by decide, by decide⟩, hreset, hkept⟩

end Multiplexing

end NativePg
