/-
  File:      NativePg/Multiplexer/Queue.lean
  Subject:   The queue of the multiplexer, whatever the server sends.

  `num_pending_` says a second time where the queue's unwritten part begins, and `on_message` erases
  abandoned elements without looking at it. The two agree as long as no message arrives out of turn:

  * `Idle`, `Orderly` -- a message out of turn: one that is not async, while nothing is in flight and
    there are unwritten elements;
  * `Inv` -- the queue is a written part and an unwritten one, and the reader stands at the head of
    the written part; `Inv.add`, ..., `Inv.onMessage` -- every operation keeps it;
  * `Run` -- runs of the five operations in any order, without a message out of turn;
  * **`run_queue`** -- in every state of a run the queue is as `QueueOk` says, and the next operation
    runs into no fault and keeps it so exactly when it is no message out of turn;
    `unsolicited_message_breaks_queue` shows two that are.
-/
import NativePg.Multiplexer.Model

namespace NativePg

namespace Multiplexing

open ReadResponse

/-! ## 1. The invariant -/

/-- An element `prepare_write` has not seen yet. -/
def Elem.Unwritten (e : Elem) : Prop :=
  (e.status = .pending ∧ ∃ req, e.req = some req ∧ req.Accepted) ∨ e.status = .abandonedPending

/-- An element `prepare_write` has seen, and whose response has not begun. -/
def Elem.Written (e : Elem) : Prop :=
  e.status = .abandonedPending ∨
  (e.status = .inFlight ∧ ∃ req, e.req = some req ∧ req.Accepted) ∨
  (e.status = .abandonedInFlight ∧ 0 < e.numRfq)

/-- The reader and the elements `prepare_write` has seen: a response that has begun belongs to the
    first of them. -/
def Reader (s : ReadResponseStreamFsm) (written : List Elem) : Prop :=
  match s.status with
  | .initial => ∀ e ∈ written, e.Written
  | .reading =>
      ∃ front rest f handler, written = front :: rest ∧ front.status = .inFlight ∧
        s.fsm = some (f, handler) ∧ f.Wf ∧ ∀ e ∈ rest, e.Written
  | .ignoring =>
      ∃ front rest, written = front :: rest ∧ front.status = .abandonedInFlight ∧
        0 < s.remainingRfq ∧ ∀ e ∈ rest, e.Written

/-- **The invariant of the multiplexer.** `unseen` are the addresses added since the last
    `prepare_write`. -/
structure Inv (m : Multiplexer) (unseen : List Nat) : Prop where
  parts : ∃ written fresh, m.elems = written ++ fresh ∧ Reader m.fsm written ∧
    (∀ e ∈ fresh, e.Unwritten) ∧ fresh.length = m.numPending ∧ fresh.map (·.ptr) = unseen
  /-- No two elements have one address. -/
  ptrs : (m.elems.map (·.ptr)).Pairwise (· < ·)
  bound : ∀ e ∈ m.elems, e.ptr < m.nextPtr

theorem Inv.init : Inv {} [] where
  parts := ⟨[], [], rfl, by simp [Reader], by simp, rfl, rfl⟩
  ptrs := .nil
  bound _ he := by cases he

/-- Nothing of what `prepare_write` has seen is pending. -/
theorem Reader.ne_pending {s : ReadResponseStreamFsm} {written : List Elem}
    (h : Reader s written) : ∀ e ∈ written, e.status ≠ .pending := by
  have hw : ∀ e : Elem, e.Written → e.status ≠ .pending := by
    rintro e (h | ⟨h, _⟩ | ⟨h, _⟩) <;> rw [h] <;> decide
  unfold Reader at h
  split at h
  · exact fun e he => hw e (h e he)
  · obtain ⟨front, rest, _, _, rfl, hfront, _, _, hrest⟩ := h
    intro e he
    rcases List.mem_cons.mp he with rfl | he
    · rw [hfront]
      decide
    · exact hw e (hrest e he)
  · obtain ⟨front, rest, rfl, hfront, _, hrest⟩ := h
    intro e he
    rcases List.mem_cons.mp he with rfl | he
    · rw [hfront]
      decide
    · exact hw e (hrest e he)

/-! ## 2. `add`, `prepare_write` and `cleanup` -/

/-- A new address is behind all others. -/
theorem pairwise_ptr_append {elems : List Elem} {e : Elem}
    (h : (elems.map (·.ptr)).Pairwise (· < ·)) (hlt : ∀ x ∈ elems, x.ptr < e.ptr) :
    ((elems ++ [e]).map (·.ptr)).Pairwise (· < ·) := by
  rw [List.map_append, List.pairwise_append]
  refine ⟨h, List.pairwise_singleton _ _, fun a ha b hb => ?_⟩
  obtain ⟨x, hx, rfl⟩ := List.mem_map.mp ha
  rw [List.map_singleton, List.mem_singleton] at hb
  rw [hb]
  exact hlt x hx

theorem Inv.add {m : Multiplexer} {unseen : List Nat} (h : Inv m unseen) {req : Request}
    (hreq : req.Accepted) : Inv (m.add req) (unseen ++ [m.nextPtr]) := by
  obtain ⟨written, fresh, helems, hreader, hfresh, hlen, hptrs⟩ := h.parts
  refine ⟨⟨written,
    fresh ++ [⟨m.nextPtr, some req, some m.nextPtr, some m.nextPtr, .pending, 0⟩],
    ?_, hreader, ?_, ?_, ?_⟩, ?_, ?_⟩
  · show m.elems ++ _ = _
    rw [helems, List.append_assoc]
  · intro e he
    rcases List.mem_append.mp he with he | he
    · exact hfresh e he
    · rw [List.mem_singleton.mp he]
      exact .inl ⟨rfl, req, rfl, hreq⟩
  · rw [List.length_append, hlen]
    rfl
  · rw [List.map_append, hptrs]
    rfl
  · exact pairwise_ptr_append h.ptrs h.bound
  · intro e he
    show e.ptr < m.nextPtr + 1
    rcases List.mem_append.mp he with he | he
    · have := h.bound e he
      omega
    · rw [List.mem_singleton.mp he]
      exact Nat.lt_succ_self _

/-- Where the unwritten part begins. -/
theorem pendingOffset_spec {m : Multiplexer} {written fresh : List Elem}
    (helems : m.elems = written ++ fresh) (hlen : fresh.length = m.numPending) :
    m.pendingOffset = .ok written.length := by
  have hl : m.elems.length = written.length + m.numPending := by
    rw [helems, List.length_append, hlen]
  unfold Multiplexer.pendingOffset
  rw [if_pos (by omega), hl, Nat.add_sub_cancel]

/-- **`prepare_write` has something to do with every unwritten element**: it writes the pending
    ones. -/
theorem writePending_spec : ∀ {fresh : List Elem}, (∀ e ∈ fresh, e.Unwritten) →
    ∃ es bytes, Multiplexer.writePending fresh = .ok (es, bytes) ∧ (∀ e ∈ es, e.Written) ∧
      es.map (·.ptr) = fresh.map (·.ptr)
  | [], _ => ⟨[], [], rfl, by simp, rfl⟩
  | e :: fresh, h => by
      obtain ⟨es, bytes, hrest, hes, hptrs⟩ :=
        writePending_spec fun x hx => h x (List.mem_cons_of_mem _ hx)
      unfold Multiplexer.writePending
      rcases h e List.mem_cons_self with ⟨hs, req, hreq, hacc⟩ | hs
      · rw [hs, hreq, hrest]
        refine ⟨_, _, rfl, fun x hx => ?_, ?_⟩
        · rcases List.mem_cons.mp hx with rfl | hx
          · exact .inr (.inl ⟨rfl, req, rfl, hacc⟩)
          · exact hes x hx
        · rw [List.map_cons, List.map_cons, hptrs]
      · rw [hs, hrest]
        refine ⟨_, _, rfl, fun x hx => ?_, ?_⟩
        · rcases List.mem_cons.mp hx with rfl | hx
          · exact .inl hs
          · exact hes x hx
        · rw [List.map_cons, List.map_cons, hptrs]

/-- More elements behind those the reader knows. -/
theorem Reader.append {s : ReadResponseStreamFsm} {written es : List Elem} (h : Reader s written)
    (hes : ∀ e ∈ es, e.Written) : Reader s (written ++ es) := by
  have happ : ∀ l : List Elem, (∀ e ∈ l, e.Written) → ∀ e ∈ l ++ es, e.Written := by
    intro l hl e he
    rcases List.mem_append.mp he with he | he
    · exact hl e he
    · exact hes e he
  unfold Reader at h ⊢
  split at h
  · exact happ _ h
  · obtain ⟨front, rest, f, handler, rfl, hfront, hfsm, hf, hrest⟩ := h
    exact ⟨front, rest ++ es, f, handler, rfl, hfront, hfsm, hf, happ rest hrest⟩
  · obtain ⟨front, rest, rfl, hfront, hrem, hrest⟩ := h
    exact ⟨front, rest ++ es, rfl, hfront, hrem, happ rest hrest⟩

theorem Inv.prepareWrite {m : Multiplexer} {unseen : List Nat} (h : Inv m unseen) :
    ∃ m' bytes, m.prepareWrite = .ok (m', bytes) ∧ Inv m' [] := by
  obtain ⟨written, fresh, helems, hreader, hfresh, hlen, _⟩ := h.parts
  obtain ⟨es, bytes, hwrite, hes, hptrs⟩ := writePending_spec hfresh
  have hmap : (written ++ es).map (·.ptr) = m.elems.map (·.ptr) := by
    rw [helems, List.map_append, List.map_append, hptrs]
  refine ⟨{ m with elems := written ++ es, numPending := 0 }, bytes, ?_, ?_, ?_, ?_⟩
  · unfold Multiplexer.prepareWrite
    rw [pendingOffset_spec helems hlen]
    simp only [helems, List.drop_left, List.take_left, hwrite]
    rfl
  · refine ⟨written ++ es, [], (List.append_nil _).symm, hreader.append hes, ?_, rfl, rfl⟩
    intro e he
    cases he
  · show ((written ++ es).map _).Pairwise _
    rw [hmap]
    exact h.ptrs
  · intro e he
    have hmem : e.ptr ∈ m.elems.map (·.ptr) := by
      rw [← hmap]
      exact List.mem_map_of_mem he
    obtain ⟨e', he', hp⟩ := List.mem_map.mp hmem
    rw [← hp]
    exact h.bound e' he'

theorem Inv.cleanup {m : Multiplexer} {unseen : List Nat} (h : Inv m unseen) :
    ∃ m' events, m.cleanup = .ok (m', events) ∧ Inv m' unseen := by
  obtain ⟨written, fresh, helems, _, hfresh, hlen, hptrs⟩ := h.parts
  have hsub : fresh.Sublist m.elems := by
    rw [helems]
    exact List.sublist_append_right _ _
  refine ⟨{ m with elems := fresh, fsm := m.fsm.reset },
    written.map (Event.done ·.onDone .operationCanceled), ?_, ?_, ?_, ?_⟩
  · unfold Multiplexer.cleanup
    rw [pendingOffset_spec helems hlen]
    simp only [helems, List.drop_left, List.take_left]
  · refine ⟨[], fresh, rfl, ?_, hfresh, hlen, hptrs⟩
    show ∀ e : Elem, e ∈ [] → e.Written
    simp
  · exact h.ptrs.sublist (hsub.map _)
  · exact fun e he => h.bound e (hsub.subset he)

/-! ## 3. `cancel` -/

/-- `cancel` finds the one element with its address. -/
theorem cancel_spec {m : Multiplexer} {pre post : List Elem} {e : Elem}
    (helems : m.elems = pre ++ e :: post) (hpre : ∀ x ∈ pre, x.ptr < e.ptr) :
    m.cancel e.ptr = m.cancelAt pre.length e := by
  have hne : m.elems.isEmpty = false := by
    rw [helems]
    cases pre <;> rfl
  have hpre : ∀ x ∈ pre, (x.ptr == e.ptr) = false := by
    intro x hx
    have := hpre x hx
    simp
    omega
  have hfind : m.elems.findIdx? (·.ptr == e.ptr) = some pre.length := by
    rw [helems, List.findIdx?_append, List.findIdx?_eq_none_iff.mpr hpre]
    simp [List.findIdx?_cons]
  have hget : m.elems[pre.length]? = some e := by
    rw [helems]
    simp
  unfold Multiplexer.cancel
  rw [hne, hfind]
  simp only [hget]
  rfl

/-- The elements in front of `e` have smaller addresses. -/
theorem ptr_lt_of_split {pre post : List Elem} {e : Elem}
    (hptrs : ((pre ++ e :: post).map (·.ptr)).Pairwise (· < ·)) : ∀ x ∈ pre, x.ptr < e.ptr := by
  intro x hx
  rw [List.map_append, List.pairwise_append] at hptrs
  exact hptrs.2.2 x.ptr (List.mem_map_of_mem hx) e.ptr (by simp)

theorem Inv.ptr_lt {m : Multiplexer} {unseen : List Nat} (h : Inv m unseen) {pre post : List Elem}
    {e : Elem} (helems : m.elems = pre ++ e :: post) : ∀ x ∈ pre, x.ptr < e.ptr :=
  ptr_lt_of_split (helems ▸ h.ptrs)

/-- The addresses of a queue in which one element has been abandoned. -/
theorem map_ptr_abandon (pre post : List Elem) (e : Elem) (s : Status) (n : Nat) :
    (pre ++ e.abandon s n :: post).map (·.ptr) = (pre ++ e :: post).map (·.ptr) := by
  simp [Elem.abandon]

/-- The part of the invariant that only looks at addresses. -/
theorem Inv.of_map_ptr {m m' : Multiplexer} {unseen unseen' : List Nat} (h : Inv m unseen)
    (hmap : m'.elems.map (·.ptr) = m.elems.map (·.ptr)) (hnext : m'.nextPtr = m.nextPtr)
    (hparts : ∃ written fresh, m'.elems = written ++ fresh ∧ Reader m'.fsm written ∧
      (∀ e ∈ fresh, e.Unwritten) ∧ fresh.length = m'.numPending ∧
      fresh.map (·.ptr) = unseen') : Inv m' unseen' := by
  refine ⟨hparts, hmap ▸ h.ptrs, fun e he => ?_⟩
  have hmem : e.ptr ∈ m.elems.map (·.ptr) := by
    rw [← hmap]
    exact List.mem_map_of_mem he
  obtain ⟨e', he', hp⟩ := List.mem_map.mp hmem
  rw [← hp, hnext]
  exact h.bound e' he'

/-- The elements a `cancel` may be called on: neither completed nor cancelled before. -/
def Elem.Live (e : Elem) : Prop := e.status = .pending ∨ e.status = .inFlight

theorem forall_abandon {pre post : List Elem} {e e' : Elem} {P : Elem → Prop}
    (h : ∀ x ∈ pre ++ e :: post, P x) (he' : P e') : ∀ x ∈ pre ++ e' :: post, P x := by
  intro x hx
  rcases List.mem_append.mp hx with hx | hx
  · exact h x (List.mem_append_left _ hx)
  · rcases List.mem_cons.mp hx with rfl | hx
    · exact he'
    · exact h x (List.mem_append_right _ (List.mem_cons_of_mem _ hx))

theorem written_abandon {e : Elem} (h : e.Written) (hlive : e.Live) :
    e.status = .inFlight ∧ ∃ req, e.req = some req ∧ req.Accepted ∧
      (e.abandon .abandonedInFlight (getExpectedRfqs req.messages)).Written := by
  rcases h with h | ⟨h, req, hreq, hacc⟩ | ⟨h, _⟩
  · rcases hlive with hl | hl <;> rw [h] at hl <;> cases hl
  · have hpos := hacc.batchOk.getExpectedRfqs_pos hacc.ne_nil
    exact ⟨h, req, hreq, hacc, .inr (.inr ⟨rfl, hpos⟩)⟩
  · rcases hlive with hl | hl <;> rw [h] at hl <;> cases hl

/-- An element behind the one being read, or any while nothing is being read. -/
theorem cancelAt_inFlight {m : Multiplexer} {i : Nat} {e : Elem} {req : Request}
    (hs : e.status = .inFlight) (hreq : e.req = some req) (hi : ¬(i = 0 ∧ m.fsm.isReading = true)) :
    m.cancelAt i e = .ok { m with
      elems := m.elems.set i (e.abandon .abandonedInFlight (getExpectedRfqs req.messages)) } := by
  unfold Multiplexer.cancelAt
  rw [hs, hreq]
  simp only [if_neg hi]

theorem cancelAt_reading {m : Multiplexer} {e : Elem} {f : ReadResponseFsm} {handler : Option Nat}
    (hs : e.status = .inFlight) (hread : m.fsm.status = .reading)
    (hfsm : m.fsm.fsm = some (f, handler)) :
    m.cancelAt 0 e = .ok { m with
      fsm := { m.fsm with
        status := .ignoring, remainingRfq := getExpectedRfqs f.getRemainingMessages }
      elems := m.elems.set 0 (e.abandon .abandonedInFlight e.numRfq) } := by
  have hr : m.fsm.isReading = true := by simp [ReadResponseStreamFsm.isReading, hread]
  unfold Multiplexer.cancelAt
  rw [hs]
  simp [hr, ReadResponseStreamFsm.abandonCurrent, hfsm]

/-- **`cancel` of an element `prepare_write` has seen**: the reader starts to ignore the response it
    is reading, or will ignore it when it comes. -/
theorem cancel_written {m : Multiplexer} {pre post fresh : List Elem} {e : Elem}
    (helems : m.elems = pre ++ e :: (post ++ fresh)) (hreader : Reader m.fsm (pre ++ e :: post))
    (hlive : e.Live) :
    ∃ fsm s n, m.cancelAt pre.length e =
        .ok { m with fsm, elems := pre ++ e.abandon s n :: (post ++ fresh) } ∧
      Reader fsm (pre ++ e.abandon s n :: post) := by
  have hset : ∀ x, m.elems.set pre.length x = pre ++ x :: (post ++ fresh) := by
    intro x
    rw [helems]
    simp
  -- an element whose response has not begun
  have hidle : e.Written → ¬(pre.length = 0 ∧ m.fsm.isReading = true) →
      ∃ n, m.cancelAt pre.length e = .ok { m with
          elems := pre ++ e.abandon .abandonedInFlight n :: (post ++ fresh) } ∧
        (e.abandon .abandonedInFlight n).Written := by
    intro hw hi
    obtain ⟨hs, req, hreq, _, hw'⟩ := written_abandon hw hlive
    refine ⟨_, ?_, hw'⟩
    rw [cancelAt_inFlight hs hreq hi, hset]
  cases hstatus : m.fsm.status with
  | initial =>
      have hreader' := hreader
      simp only [Reader, hstatus] at hreader'
      obtain ⟨n, hc, hw⟩ := hidle (hreader' e (by simp))
        (by simp [ReadResponseStreamFsm.isReading, hstatus])
      refine ⟨m.fsm, _, n, hc, ?_⟩
      simp only [Reader, hstatus]
      exact forall_abandon hreader' hw
  | reading =>
      have hreader' := hreader
      simp only [Reader, hstatus] at hreader'
      obtain ⟨front, rest, f, handler, hsplit, hfront, hfsm, hf, hrest⟩ := hreader'
      cases pre with
      | nil =>
          obtain ⟨rfl, rfl⟩ := List.cons.inj hsplit
          obtain ⟨b, hb⟩ := hf.batch
          have hc := cancelAt_reading hfront hstatus hfsm
          have hset' : m.elems.set 0 (e.abandon .abandonedInFlight e.numRfq) = _ := hset _
          rw [hset'] at hc
          exact ⟨_, _, _, hc, _, post, rfl, rfl, hb.getExpectedRfqs_pos hf.ne, hrest⟩
      | cons p pre =>
          obtain ⟨rfl, rfl⟩ := List.cons.inj hsplit
          obtain ⟨n, hc, hw⟩ := hidle (hrest e (by simp)) (by simp)
          refine ⟨m.fsm, _, n, hc, ?_⟩
          simp only [Reader, hstatus]
          exact ⟨_, _, f, handler, rfl, hfront, hfsm, hf, forall_abandon hrest hw⟩
  | ignoring =>
      have hreader' := hreader
      simp only [Reader, hstatus] at hreader'
      obtain ⟨front, rest, hsplit, hfront, hrem, hrest⟩ := hreader'
      cases pre with
      | nil =>
          obtain ⟨rfl, rfl⟩ := List.cons.inj hsplit
          rcases hlive with hl | hl <;> rw [hfront] at hl <;> cases hl
      | cons p pre =>
          obtain ⟨rfl, rfl⟩ := List.cons.inj hsplit
          obtain ⟨n, hc, hw⟩ := hidle (hrest e (by simp)) (by simp)
          refine ⟨m.fsm, _, n, hc, ?_⟩
          simp only [Reader, hstatus]
          exact ⟨_, _, rfl, hfront, hrem, forall_abandon hrest hw⟩

theorem Inv.cancel {m : Multiplexer} {unseen : List Nat} (h : Inv m unseen) {e : Elem}
    (he : e ∈ m.elems) (hlive : e.Live) : ∃ m', m.cancel e.ptr = .ok m' ∧ Inv m' unseen := by
  obtain ⟨written, fresh, helems, hreader, hfresh, hlen, hptrs⟩ := h.parts
  rw [helems] at he
  rcases List.mem_append.mp he with he | he
  · obtain ⟨pre, post, rfl⟩ := List.append_of_mem he
    have helems' : m.elems = pre ++ e :: (post ++ fresh) := by
      rw [helems]
      simp
    obtain ⟨fsm, s, n, hc, hreader'⟩ := cancel_written helems' hreader hlive
    refine ⟨_, (cancel_spec helems' (h.ptr_lt helems')).trans hc, h.of_map_ptr ?_ rfl ?_⟩
    · rw [helems', map_ptr_abandon]
    · exact ⟨_, fresh, by simp, hreader', hfresh, hlen, hptrs⟩
  · obtain ⟨pre, post, rfl⟩ := List.append_of_mem he
    have helems' : m.elems = (written ++ pre) ++ e :: post := by
      rw [helems]
      simp
    have hs : e.status = .pending := by
      rcases hfresh e (by simp) with ⟨hs, _⟩ | hs
      · exact hs
      · rcases hlive with hl | hl <;> rw [hs] at hl <;> cases hl
    have hc : m.cancelAt (written ++ pre).length e = .ok { m with
        elems := (written ++ pre) ++ e.abandon .abandonedPending e.numRfq :: post } := by
      unfold Multiplexer.cancelAt
      rw [hs]
      simp [helems']
    refine ⟨_, (cancel_spec helems' (h.ptr_lt helems')).trans hc, h.of_map_ptr ?_ rfl ?_⟩
    · rw [helems', map_ptr_abandon]
    · refine ⟨written, pre ++ e.abandon .abandonedPending e.numRfq :: post, by simp, hreader,
        forall_abandon hfresh (.inr rfl), ?_, ?_⟩
      · rw [← hlen]
        simp
      · rw [map_ptr_abandon, hptrs]

/-! ## 4. `on_message` -/

/-- **One message of the response being read**: the reader goes on, or the response is over and its
    element leaves the queue. -/
theorem read_spec {s : ReadResponseStreamFsm} {f : ReadResponseFsm} {handler : Option Nat}
    {front : Elem} {rest : List Elem} (hs : s.status = .reading) (hfsm : s.fsm = some (f, handler))
    (hf : f.Wf) (hfront : front.status = .inFlight) (hrest : ∀ e ∈ rest, e.Written)
    (msg : AnyBackendMessage) :
    ∃ fsm written out, (∀ fresh, s.read (front :: (rest ++ fresh)) msg =
        .ok ⟨fsm, written ++ fresh, out⟩) ∧
      written.Sublist (front :: rest) ∧ Reader fsm written := by
  obtain ⟨r, hr, hmove⟩ := ReadResponseFsm.resume_move hf msg
  unfold ReadResponseStreamFsm.read
  simp only [hfsm, hr]
  cases hres : r.result with
  | read =>
      have hwf := hmove.wf hf hres
      refine ⟨{ s with fsm := some (r.fsm, handler) }, front :: rest, _, fun _ => rfl,
        List.Sublist.refl _, ?_⟩
      simp only [Reader, hs]
      exact ⟨front, rest, r.fsm, handler, rfl, hfront, rfl, hwf, hrest⟩
  | done ec =>
      exact ⟨{ s with status := .initial, fsm := some (r.fsm, handler) }, rest, _, fun _ => rfl,
        List.sublist_cons_self _ _, hrest⟩

section Ignoring

variable {s : ReadResponseStreamFsm} {msg : AnyBackendMessage}

theorem ignore_other (hrem : 0 < s.remainingRfq) (hmsg : msg.isReadyForQuery = false)
    (elms : List Elem) : s.ignore elms msg = .ok ⟨s, elms, {}⟩ := by
  unfold ReadResponseStreamFsm.ignore
  rw [if_neg (by omega), hmsg]
  rfl

theorem ignore_rfq (hrem : 1 < s.remainingRfq) (hmsg : msg.isReadyForQuery = true)
    (elms : List Elem) :
    s.ignore elms msg = .ok ⟨{ s with remainingRfq := s.remainingRfq - 1 }, elms, {}⟩ := by
  have hne : s.remainingRfq - 1 ≠ 0 := by omega
  unfold ReadResponseStreamFsm.ignore
  rw [if_neg (by omega), if_pos hmsg]
  simp only [hne, if_false]

theorem ignore_last (hrem : s.remainingRfq = 1) (hmsg : msg.isReadyForQuery = true) (front : Elem)
    (rest : List Elem) :
    s.ignore (front :: rest) msg =
      .ok ⟨{ s with status := .initial, remainingRfq := 0 }, rest, {}⟩ := by
  unfold ReadResponseStreamFsm.ignore
  rw [if_neg (by omega), if_pos hmsg]
  simp only [hrem, Nat.sub_self, if_true]

end Ignoring

/-- **One message of a response that is ignored.** -/
theorem ignore_spec {s : ReadResponseStreamFsm} {front : Elem} {rest : List Elem}
    (hs : s.status = .ignoring) (hrem : 0 < s.remainingRfq)
    (hfront : front.status = .abandonedInFlight) (hrest : ∀ e ∈ rest, e.Written)
    (msg : AnyBackendMessage) :
    ∃ fsm written out, (∀ fresh, s.ignore (front :: (rest ++ fresh)) msg =
        .ok ⟨fsm, written ++ fresh, out⟩) ∧
      written.Sublist (front :: rest) ∧ Reader fsm written := by
  have hstay : ∀ n, 0 < n → Reader { s with remainingRfq := n } (front :: rest) := by
    intro n hn
    simp only [Reader, hs]
    exact ⟨front, rest, rfl, hfront, hn, hrest⟩
  by_cases hmsg : msg.isReadyForQuery = true
  · by_cases hlast : s.remainingRfq = 1
    · exact ⟨_, rest, {}, fun fresh => ignore_last hlast hmsg front _, List.sublist_cons_self _ _,
        hrest⟩
    · exact ⟨_, front :: rest, {}, fun fresh => ignore_rfq (by omega) hmsg _, List.Sublist.refl _,
        hstay _ (by omega)⟩
  · exact ⟨s, front :: rest, {}, fun fresh => ignore_other hrem (by simpa using hmsg) _,
      List.Sublist.refl _, hstay _ hrem⟩

/-- Nothing is in flight. -/
def Idle (m : Multiplexer) : Prop :=
  ∀ e ∈ m.elems, e.status ≠ .inFlight ∧ e.status ≠ .abandonedInFlight

theorem first_not_abandoned : ∀ {l : List Elem}, (∃ e ∈ l, e.status ≠ .abandonedPending) →
    ∃ gone front rest, l = gone ++ front :: rest ∧ (∀ e ∈ gone, e.status = .abandonedPending) ∧
      front.status ≠ .abandonedPending
  | [], ⟨_, he, _⟩ => by cases he
  | x :: l, ⟨e, he, hne⟩ => by
      by_cases hx : x.status = .abandonedPending
      · have hmem : e ∈ l := by
          rcases List.mem_cons.mp he with rfl | he
          · exact absurd hx hne
          · exact he
        obtain ⟨gone, front, rest, rfl, hgone, hfront⟩ := first_not_abandoned ⟨e, hmem, hne⟩
        refine ⟨x :: gone, front, rest, rfl, fun y hy => ?_, hfront⟩
        rcases List.mem_cons.mp hy with rfl | hy
        · exact hx
        · exact hgone y hy
      · exact ⟨[], x, l, rfl, by simp, hx⟩

/-- **A message that finds something in flight**: the reader takes it, from the head of the written
    part on, and leaves the unwritten part alone. -/
theorem onMessage_busy {s : ReadResponseStreamFsm} {written : List Elem} (h : Reader s written)
    (hbusy : ∃ e ∈ written, e.status ≠ .abandonedPending) (msg : AnyBackendMessage) :
    ∃ fsm written' out, (∀ fresh, s.onMessage (written ++ fresh) msg =
        .ok ⟨fsm, written' ++ fresh, out⟩) ∧
      written'.Sublist written ∧ Reader fsm written' := by
  unfold ReadResponseStreamFsm.onMessage
  cases hs : s.status with
  | reading =>
      simp only [Reader, hs] at h
      obtain ⟨front, rest, f, handler, rfl, hfront, hfsm, hf, hrest⟩ := h
      exact read_spec hs hfsm hf hfront hrest msg
  | ignoring =>
      simp only [Reader, hs] at h
      obtain ⟨front, rest, rfl, hfront, hrem, hrest⟩ := h
      exact ignore_spec hs hrem hfront hrest msg
  | initial =>
      simp only [Reader, hs] at h
      -- what the erasing loop leaves of the written part
      obtain ⟨gone, front, rest, rfl, hgone, hfront⟩ := first_not_abandoned hbusy
      have hskip : ∀ fresh, (gone ++ front :: rest ++ fresh).dropWhile
          (·.status == .abandonedPending) = front :: (rest ++ fresh) := by
        intro fresh
        rw [List.append_assoc, List.dropWhile_append_of_pos (by simpa using hgone),
          List.cons_append, List.dropWhile_cons_of_neg (by simpa using hfront)]
      have hsub : (front :: rest).Sublist (gone ++ front :: rest) := List.sublist_append_right _ _
      have hrest : ∀ e ∈ rest, e.Written := fun e he => h e (by simp [he])
      rcases h front (by simp) with hw | ⟨hw, req, hreq, hacc⟩ | ⟨hw, hrem⟩
      · exact absurd hw hfront
      · obtain ⟨fsm, w, out, hread, hw', hreader⟩ := read_spec
          (s := { s with status := .reading, fsm := some (readResponseFsm req, front.res) })
          rfl rfl (ReadResponseFsm.Wf.init hacc false) hw hrest msg
        refine ⟨fsm, w, out, fun fresh => ?_, hw'.trans hsub, hreader⟩
        simp only [hskip, hw, hreq]
        exact hread fresh
      · obtain ⟨fsm, w, out, hignore, hw', hreader⟩ := ignore_spec
          (s := { s with status := .ignoring, remainingRfq := front.numRfq })
          rfl hrem hw hrest msg
        refine ⟨fsm, w, out, fun fresh => ?_, hw'.trans hsub, hreader⟩
        simp only [hskip, hw, if_true]
        exact hignore fresh

/-- While nothing is in flight the reader is between two responses. -/
theorem Reader.initial_of_idle {s : ReadResponseStreamFsm} {written : List Elem}
    (h : Reader s written) (hidle : ∀ e ∈ written, e.status = .abandonedPending) :
    s.status = .initial := by
  cases hs : s.status with
  | initial => rfl
  | reading =>
      simp only [Reader, hs] at h
      obtain ⟨front, rest, _, _, rfl, hfront, _⟩ := h
      rw [hidle front (by simp)] at hfront
      cases hfront
  | ignoring =>
      simp only [Reader, hs] at h
      obtain ⟨front, rest, rfl, hfront, _⟩ := h
      rw [hidle front (by simp)] at hfront
      cases hfront

/-- What `prepare_write` has seen, while nothing is in flight. -/
theorem idle_written {m : Multiplexer} {written fresh : List Elem}
    (helems : m.elems = written ++ fresh) (hreader : Reader m.fsm written) (hidle : Idle m) :
    ∀ e ∈ written, e.status = .abandonedPending := by
  intro e he
  have h1 := hreader.ne_pending e he
  have h2 := hidle e (by rw [helems]; exact List.mem_append_left _ he)
  cases hs : e.status with
  | abandonedPending => rfl
  | pending => exact absurd hs h1
  | inFlight => exact absurd hs h2.1
  | abandonedInFlight => exact absurd hs h2.2

/-- A message out of turn, or one that finds the queue without unwritten elements: what is left
    when the abandoned elements are erased. -/
theorem onMessage_idle {m : Multiplexer} {written fresh : List Elem}
    (helems : m.elems = written ++ fresh) (hreader : Reader m.fsm written) (hidle : Idle m)
    (msg : AnyBackendMessage) :
    m.fsm.onMessage m.elems msg =
      match fresh.dropWhile (·.status == .abandonedPending) with
      | [] => .ok ⟨m.fsm, [], { ec := ClientErrc.unmatchedRequest.code }⟩
      | _ => .error .assertion := by
  have hw := idle_written helems hreader hidle
  unfold ReadResponseStreamFsm.onMessage
  rw [hreader.initial_of_idle hw, helems, List.dropWhile_append_of_pos (by simpa using hw)]
  cases hd : fresh.dropWhile (·.status == .abandonedPending) with
  | nil => rfl
  | cons front rest =>
      have hmem : front ∈ m.elems := by
        rw [helems]
        refine List.mem_append_right _ ?_
        have : front ∈ fresh.dropWhile (·.status == .abandonedPending) := by
          rw [hd]
          exact List.mem_cons_self
        exact (List.dropWhile_sublist _).subset this
      simp only [(hidle front hmem).1, (hidle front hmem).2, if_false]

/-! ## 5. Runs -/

/-- What the callers of the multiplexer promise: they add requests `check_request` accepts, and
    cancel elements that are in the queue and neither completed nor cancelled. -/
def Valid (m : Multiplexer) : Op → Prop
  | .add req => req.Accepted
  | .cancel ptr => ∃ e ∈ m.elems, e.ptr = ptr ∧ e.Live
  | .prepareWrite | .onMessage _ | .cleanup => True

/-- No message out of turn: a message that is not async and arrives while nothing is in flight finds
    no element that `prepare_write` has not seen. -/
def Orderly (m : Multiplexer) : Op → Prop
  | .onMessage msg => msg.isAsync = false → Idle m → m.numPending = 0
  | _ => True

/-- The addresses `prepare_write` has not seen, behind an operation. -/
def unseenAfter (m : Multiplexer) (unseen : List Nat) : Op → List Nat
  | .add _ => unseen ++ [m.nextPtr]
  | .prepareWrite => []
  | _ => unseen

/-- **What the queue looks like**: `num_pending_` is not above its size, the elements it counts are
    those `prepare_write` has not seen, and none of the others is pending. -/
structure QueueOk (m : Multiplexer) (unseen : List Nat) : Prop where
  size : m.numPending ≤ m.elems.length
  unseen : (m.elems.drop (m.elems.length - m.numPending)).map (·.ptr) = unseen
  tail : ∀ e ∈ m.elems.drop (m.elems.length - m.numPending),
    e.status = .pending ∨ e.status = .abandonedPending
  front : ∀ e ∈ m.elems.take (m.elems.length - m.numPending), e.status ≠ .pending

theorem Inv.queueOk {m : Multiplexer} {unseen : List Nat} (h : Inv m unseen) :
    QueueOk m unseen := by
  obtain ⟨written, fresh, helems, hreader, hfresh, hlen, hptrs⟩ := h.parts
  have hl : m.elems.length = written.length + m.numPending := by
    rw [helems, List.length_append, hlen]
  have hoff : m.elems.length - m.numPending = written.length := by omega
  refine ⟨by omega, ?_, ?_, ?_⟩
  · rw [hoff, helems, List.drop_left]
    exact hptrs
  · rw [hoff, helems, List.drop_left]
    intro e he
    rcases hfresh e he with ⟨hs, _⟩ | hs
    · exact .inl hs
    · exact .inr hs
  · rw [hoff, helems, List.take_left]
    exact hreader.ne_pending

/-- The operation runs into no fault and keeps the queue in order; and a message that is not async
    and finds nothing in flight is answered with `unmatched_request` and reaches no handler. -/
def StepOk (m : Multiplexer) (unseen : List Nat) (op : Op) : Prop :=
  ∃ m' out, m.step op = .ok (m', out) ∧ QueueOk m' (unseenAfter m unseen op) ∧
    ∀ msg, op = .onMessage msg → msg.isAsync = false → Idle m →
      out.ec = ClientErrc.unmatchedRequest.code ∧ out.events = []

theorem Inv.onMessage {m : Multiplexer} {unseen : List Nat} (h : Inv m unseen)
    {msg : AnyBackendMessage} (horderly : Orderly m (.onMessage msg)) :
    ∃ m' out, m.onMessage msg = .ok (m', out) ∧ Inv m' unseen ∧
      (msg.isAsync = false → Idle m →
        out.ec = ClientErrc.unmatchedRequest.code ∧ out.events = []) := by
  unfold Multiplexer.onMessage
  by_cases ha : msg.isAsync = true
  · exact ⟨m, {}, if_pos ha, h, fun hf => by rw [ha] at hf; cases hf⟩
  · rw [if_neg ha]
    obtain ⟨written, fresh, helems, hreader, hfresh, hlen, hptrs⟩ := h.parts
    by_cases hidle : Idle m
    · have hzero := horderly (by simpa using ha) hidle
      obtain rfl : fresh = [] := List.length_eq_zero_iff.mp (hlen.trans hzero)
      rw [onMessage_idle helems hreader hidle]
      refine ⟨{ m with elems := [] }, _, rfl, ⟨⟨[], [], rfl, ?_, by simp, hlen, hptrs⟩, .nil, ?_⟩,
        fun _ _ => ⟨rfl, rfl⟩⟩
      · have hs := hreader.initial_of_idle (idle_written helems hreader hidle)
        simp [Reader, hs]
      · intro e he
        cases he
    · have hbusy : ∃ e ∈ written, e.status ≠ .abandonedPending := by
        by_contra hc
        refine hidle fun e he => ?_
        rw [helems] at he
        have hap : e.status = .abandonedPending ∨ e.status = .pending := by
          rcases List.mem_append.mp he with he | he
          · by_contra hne
            exact hc ⟨e, he, fun h => hne (.inl h)⟩
          · rcases hfresh e he with ⟨hs, _⟩ | hs
            · exact .inr hs
            · exact .inl hs
        rcases hap with hs | hs <;> rw [hs] <;> decide
      obtain ⟨fsm, written', out, hmsg, hsub, hreader'⟩ := onMessage_busy hreader hbusy msg
      have hsub' : (written' ++ fresh).Sublist m.elems := by
        rw [helems]
        exact hsub.append (List.Sublist.refl _)
      rw [helems, hmsg]
      refine ⟨_, _, rfl, ⟨⟨written', fresh, rfl, hreader', hfresh, hlen, hptrs⟩, ?_, ?_⟩,
        fun _ hi => absurd hi hidle⟩
      · exact h.ptrs.sublist (hsub'.map _)
      · exact fun e he => h.bound e (hsub'.subset he)

/-- **Every operation keeps the invariant.** -/
theorem Inv.step {m : Multiplexer} {unseen : List Nat} (h : Inv m unseen) {op : Op}
    (hv : Valid m op) (ho : Orderly m op) :
    ∃ m' out, m.step op = .ok (m', out) ∧ Inv m' (unseenAfter m unseen op) ∧
      ∀ msg, op = .onMessage msg → msg.isAsync = false → Idle m →
        out.ec = ClientErrc.unmatchedRequest.code ∧ out.events = [] := by
  cases op with
  | add req => exact ⟨_, _, rfl, h.add hv, fun _ hm => by cases hm⟩
  | cancel ptr =>
      obtain ⟨e, he, rfl, hlive⟩ := hv
      obtain ⟨m', hc, hinv⟩ := h.cancel he hlive
      exact ⟨m', {}, by simp only [Multiplexer.step, hc]; rfl, hinv, fun _ hm => by cases hm⟩
  | prepareWrite =>
      obtain ⟨m', bytes, hp, hinv⟩ := h.prepareWrite
      exact ⟨m', _, by simp only [Multiplexer.step, hp]; rfl, hinv, fun _ hm => by cases hm⟩
  | onMessage msg =>
      obtain ⟨m', out, hs, hinv, hout⟩ := h.onMessage ho
      refine ⟨m', out, hs, hinv, fun msg' hm ha hi => ?_⟩
      cases hm
      exact hout ha hi
  | cleanup =>
      obtain ⟨m', events, hc, hinv⟩ := h.cleanup
      exact ⟨m', _, by simp only [Multiplexer.step, hc]; rfl, hinv, fun _ hm => by cases hm⟩

/-- **A message out of turn breaks the queue**: an assertion fires, or `num_pending_` counts
    elements that have been erased. -/
theorem Inv.not_stepOk {m : Multiplexer} {unseen : List Nat} (h : Inv m unseen) {op : Op}
    (ho : ¬ Orderly m op) : ¬ StepOk m unseen op := by
  cases op with
  | add _ | cancel _ | prepareWrite | cleanup => exact absurd trivial ho
  | onMessage msg =>
      have hout : msg.isAsync = false ∧ Idle m ∧ m.numPending ≠ 0 := by
        simpa [Orderly] using ho
      obtain ⟨ha, hidle, hpos⟩ := hout
      rintro ⟨m', out, hstep, hqueue, _⟩
      obtain ⟨written, fresh, helems, hreader, _⟩ := h.parts
      have hmsg := onMessage_idle helems hreader hidle msg
      rw [Multiplexer.step, Multiplexer.onMessage, ha, hmsg] at hstep
      cases hd : fresh.dropWhile (·.status == .abandonedPending) with
      | nil =>
          rw [hd] at hstep
          cases hstep
          exact hpos (Nat.le_zero.mp hqueue.size)
      | cons _ _ =>
          rw [hd] at hstep
          cases hstep

/-- **Runs of the multiplexer**: any operations in any order, with any messages, as long as no
    message arrives out of turn. -/
inductive Run : Multiplexer → List Nat → Prop where
  | init : Run {} []
  | step {m m' : Multiplexer} {unseen : List Nat} {op : Op} {out : Output} (h : Run m unseen)
      (hv : Valid m op) (ho : Orderly m op) (hs : m.step op = .ok (m', out)) :
      Run m' (unseenAfter m unseen op)

theorem Run.inv {m : Multiplexer} {unseen : List Nat} (h : Run m unseen) : Inv m unseen := by
  induction h with
  | init => exact Inv.init
  | step _ hv ho hs ih =>
      obtain ⟨m'', out', hs', hinv, _⟩ := ih.step hv ho
      rw [hs] at hs'
      cases hs'
      exact hinv

/-- **The queue of the multiplexer**, in every state of every run without messages out of turn: it
    is in order, and each further operation runs into no fault, keeps it in order and answers a
    message that finds nothing in flight with `unmatched_request` -- exactly when that operation,
    too, is no message out of turn. -/
theorem run_queue {m : Multiplexer} {unseen : List Nat} (h : Run m unseen) :
    QueueOk m unseen ∧ ∀ op, Valid m op → (StepOk m unseen op ↔ Orderly m op) := by
  refine ⟨h.inv.queueOk, fun op hv => ⟨fun hok => ?_, fun ho => ?_⟩⟩
  · by_contra hno
    exact h.inv.not_stepOk hno hok
  · obtain ⟨m', out, hs, hinv, hout⟩ := h.inv.step hv ho
    exact ⟨m', out, hs, hinv.queueOk, hout⟩

/-- Several operations in turn. -/
def Multiplexer.steps (m : Multiplexer) : List Op → Checked Multiplexer
  | [] => .ok m
  | op :: ops =>
    match m.step op with
    | .error e => .error e
    | .ok (m', _) => m'.steps ops

/-- An ErrorResponse the server sends on its own. Behind an `add` it makes an assertion fire; behind
    an `add` and a `cancel` it leaves one pending element in an empty queue, and the next
    `prepare_write` starts outside of it. -/
theorem unsolicited_message_breaks_queue :
    ({ messages := [.query] } : Request).Accepted ∧
    Multiplexer.steps {} [.add { messages := [.query] }, .onMessage (.errorResponse {})] =
      .error .assertion ∧
    (∃ m, Multiplexer.steps {} [.add { messages := [.query] }, .cancel 0,
        .onMessage (.errorResponse {})] = .ok m ∧
      ¬ QueueOk m [0] ∧ m.numPending = 1 ∧ m.elems = [] ∧
      m.step .prepareWrite = .error .outOfRange) := by
  refine ⟨by decide, by decide, _, rfl, fun h => ?_, rfl, rfl, rfl⟩
  exact absurd h.size (by decide)

/-- Two queries are written, the second is cancelled, the first is being answered, and a third is
    added: any message is in turn, and so is a `cancel` of the one being read. A message in front of
    the first `prepare_write` is not. -/
theorem run_queue_in_flight :
    let req : Request := { messages := [.query] }
    ∃ m, Multiplexer.steps {} [.add req, .add req, .prepareWrite, .cancel 1,
        .onMessage (.commandComplete []), .add req] = .ok m ∧
      QueueOk m [2] ∧ StepOk m [2] (.onMessage (.readyForQuery .idle)) ∧ StepOk m [2] (.cancel 0) ∧
      ¬StepOk (Multiplexer.add {} req) [0] (.onMessage (.errorResponse {})) := by
  intro req
  have hreq : req.Accepted := by decide
  have h1 : Run (Multiplexer.add {} req) [0] :=
    .step .init (show Valid {} (.add req) from hreq) trivial rfl
  have h2 : Run _ [0, 1] := .step h1 (show Valid _ (.add req) from hreq) trivial rfl
  have h3 : Run _ [] := .step h2 (show Valid _ .prepareWrite from trivial) trivial rfl
  have h4 : Run _ [] := .step h3
    (show Valid _ (.cancel 1) from ⟨_, List.mem_cons_of_mem _ List.mem_cons_self, rfl, .inr rfl⟩)
    trivial rfl
  have h5 : Run _ [] := .step h4 (show Valid _ (.onMessage (.commandComplete [])) from trivial)
    (fun _ _ => rfl) rfl
  have h6 : Run _ [2] := .step h5 (show Valid _ (.add req) from hreq) trivial rfl
  refine ⟨_, rfl, (run_queue h6).1, ?_, ?_, fun hok => ?_⟩
  · refine ((run_queue h6).2 (.onMessage (.readyForQuery .idle)) trivial).mpr fun _ hidle => ?_
    exact absurd rfl (hidle _ List.mem_cons_self).1
  · exact ((run_queue h6).2 (.cancel 0) ⟨_, List.mem_cons_self, rfl, .inr rfl⟩).mpr trivial
  · have hidle : Idle (Multiplexer.add {} req) := by
      intro e he
      cases List.mem_singleton.mp he
      decide
    have horderly := ((run_queue h1).2 (.onMessage (.errorResponse {})) trivial).mp hok
    exact absurd (horderly rfl hidle) (by decide)

end Multiplexing

end NativePg
