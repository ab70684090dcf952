/-
  File:      NativePg/Multiplexer/Debts.lean
  Subject:   What the server still owes, counted from what has been written and read.

  * `Debt`, `debtsAfter` -- the requests whose responses have not been read to the end, with the
    ReadyForQuery still to come. The count knows the log, the messages and the codes `on_message`
    returns, and nothing of the queue;
  * `debtsOf` -- the same, as the queue and the reader have it. `debtsOf_add`, ..., `debtsOf_cleanup`:
    every operation changes the two alike;
  * `debtsOf_eq_nil_iff` -- nothing is owed exactly if nothing is in flight.
-/
import NativePg.Multiplexer.Completion

namespace NativePg

namespace Multiplexing

open ReadResponse

/-! ## 1. From the run -/

/-- A request that has been written, by its address, and how many ReadyForQuery are to come. -/
structure Debt where
  ptr : Nat
  rfqs : Nat
  deriving DecidableEq, Repr

/-- A response has as many ReadyForQuery as its request has queries and syncs. -/
def Debt.new (ptr : Nat) (req : Option Request) : Debt :=
  ⟨ptr, (req.map fun req => getExpectedRfqs req.messages).getD 0⟩

/-- A ReadyForQuery is one less to come for the first request, and the last one settles it. -/
def payDebts : List Debt → List Debt
  | [] => []
  | d :: debts => if d.rfqs ≤ 1 then debts else { d with rfqs := d.rfqs - 1 } :: debts

/-- What is owed behind a message. An error ends the response it is found in. -/
def debtsRead (debts : List Debt) (msg : AnyBackendMessage) (ec : ErrorCode) : List Debt :=
  if ec.failed then debts.tail else if msg.isReadyForQuery then payDebts debts else debts

/-- What a write adds: the requests no write has seen, without the cancelled ones. -/
def Log.newDebts (l : Log) : List Debt :=
  (l.unseen.filter l.isOpen).map fun ptr => .new ptr l.requests[ptr]?

/-- **What is owed behind an operation**, from the log in front of it and what it returned. -/
def debtsAfter (debts : List Debt) (l : Log) (op : Op) (out : Output) : List Debt :=
  match op with
  | .prepareWrite => debts ++ l.newDebts
  | .onMessage msg => debtsRead debts msg out.ec
  | .cleanup => []
  | .add _ | .cancel _ => debts

/-! ## 2. From the queue -/

/-- What is owed for an element whose response has not begun. -/
def Elem.debt (e : Elem) : Option Debt :=
  match e.status with
  | .inFlight => some (.new e.ptr e.req)
  | .abandonedInFlight => some ⟨e.ptr, e.numRfq⟩
  | .pending | .abandonedPending => none

/-- **What is owed for the elements of a queue**; the reader knows it of the first one, where the
    response has begun. -/
def debtsOf (s : ReadResponseStreamFsm) (elems : List Elem) : List Debt :=
  match s.status, elems with
  | .initial, elems => elems.filterMap Elem.debt
  | .reading, front :: rest =>
      ⟨front.ptr, (s.fsm.map fun f => getExpectedRfqs f.1.getRemainingMessages).getD 0⟩ ::
        rest.filterMap Elem.debt
  | .ignoring, front :: rest => ⟨front.ptr, s.remainingRfq⟩ :: rest.filterMap Elem.debt
  | _, [] => []

theorem Elem.Unwritten.debt {e : Elem} (h : e.Unwritten) : e.debt = none := by
  unfold Elem.debt
  rcases h with ⟨hs, _⟩ | hs <;> rw [hs]

theorem filterMap_debt_eq_nil {es : List Elem} (h : ∀ e ∈ es, e.Unwritten) :
    es.filterMap Elem.debt = [] :=
  List.filterMap_eq_nil_iff.mpr fun e he => (h e he).debt

theorem debt_eq_none_iff (e : Elem) :
    e.debt = none ↔ e.status ≠ .inFlight ∧ e.status ≠ .abandonedInFlight := by
  unfold Elem.debt
  cases e.status <;> simp

section
variable {s : ReadResponseStreamFsm} {elems : List Elem}

theorem debtsOf_initial (h : s.status = .initial) : debtsOf s elems = elems.filterMap Elem.debt := by
  unfold debtsOf
  rw [h]

/-- Elements behind those of the reader. -/
theorem debtsOf_append (h : s.status = .initial ∨ elems ≠ []) (es : List Elem) :
    debtsOf s (elems ++ es) = debtsOf s elems ++ es.filterMap Elem.debt := by
  unfold debtsOf
  cases hs : s.status with
  | initial => exact List.filterMap_append
  | reading | ignoring =>
    rw [hs] at h
    cases elems with
    | nil => simp at h
    | cons front rest => simp [List.filterMap_append]

/-- An element that changes, and keeps its address and what is owed for it. -/
theorem debtsOf_replace {pre post : List Elem} {e e' : Elem} (hptr : e'.ptr = e.ptr)
    (hdebt : e'.debt = e.debt) : debtsOf s (pre ++ e' :: post) = debtsOf s (pre ++ e :: post) := by
  unfold debtsOf
  cases s.status with
  | initial => simp [List.filterMap_append, List.filterMap_cons, hdebt]
  | reading | ignoring =>
    cases pre with
    | nil => simp [hptr]
    | cons p pre => simp [List.filterMap_append, List.filterMap_cons, hdebt]

end

/-- **Nothing is owed exactly if nothing is in flight.** -/
theorem debtsOf_eq_nil_iff {m : Multiplexer} (h : FrontOk m) :
    debtsOf m.fsm m.elems = [] ↔ Idle m := by
  have hidle : m.elems.filterMap Elem.debt = [] ↔ Idle m := by
    rw [List.filterMap_eq_nil_iff]
    exact forall₂_congr fun e _ => debt_eq_none_iff e
  unfold FrontOk at h
  unfold debtsOf
  cases hs : m.fsm.status with
  | initial => exact hidle
  | reading =>
    rw [hs] at h
    obtain ⟨front, rest, helems, hfront⟩ := h
    rw [helems]
    refine iff_of_false (List.cons_ne_nil _ _) fun hi => ?_
    exact (hi front (helems ▸ List.mem_cons_self)).1 hfront
  | ignoring =>
    rw [hs] at h
    obtain ⟨front, rest, helems, hfront⟩ := h
    rw [helems]
    refine iff_of_false (List.cons_ne_nil _ _) fun hi => ?_
    exact (hi front (helems ▸ List.mem_cons_self)).2 hfront

/-! ## 3. The operations -/

theorem debtsOf_add {m : Multiplexer} (h : FrontOk m) (req : Request) :
    debtsOf (m.add req).fsm (m.add req).elems = debtsOf m.fsm m.elems := by
  have hfront : m.fsm.status = .initial ∨ m.elems ≠ [] := by
    unfold FrontOk at h
    split at h
    · exact .inl (by assumption)
    · obtain ⟨front, rest, helems, -⟩ := h
      exact .inr (by simp [helems])
    · obtain ⟨front, rest, helems, -⟩ := h
      exact .inr (by simp [helems])
  exact (debtsOf_append hfront _).trans (List.append_nil _)

/-- **A cancelled request is still answered**: what is owed stays the same. -/
theorem debtsOf_cancelAt {m m' : Multiplexer} {pre post : List Elem} {e : Elem}
    (helems : m.elems = pre ++ e :: post) (h : m.cancelAt pre.length e = .ok m') :
    debtsOf m'.fsm m'.elems = debtsOf m.fsm m.elems := by
  have hset : ∀ x, m.elems.set pre.length x = pre ++ x :: post := by
    intro x
    rw [helems]
    simp
  unfold Multiplexer.cancelAt at h
  simp only [hset] at h
  rw [helems]
  split at h
  · rename_i hs
    cases h
    refine debtsOf_replace rfl ?_
    simp [Elem.debt, Elem.abandon, hs]
  · rename_i hs
    split at h
    · rename_i hread
      -- the response that is being read: the reader goes on without a handler
      have hstatus : m.fsm.status = .reading := by
        simpa [ReadResponseStreamFsm.isReading] using hread.2
      obtain rfl := List.eq_nil_of_length_eq_zero hread.1
      unfold ReadResponseStreamFsm.abandonCurrent at h
      rw [if_pos hread.2] at h
      cases hfsm : m.fsm.fsm with
      | none =>
        rw [hfsm] at h
        cases h
      | some f =>
        rw [hfsm] at h
        cases h
        simp [debtsOf, hstatus, hfsm, Elem.abandon]
    · split at h
      · cases h
      · rename_i req hreq
        cases h
        refine debtsOf_replace rfl ?_
        simp [Elem.debt, Debt.new, Elem.abandon, hs, hreq]
  · cases h

theorem debtsOf_cancel {m m' : Multiplexer} {e : Elem}
    (hptrs : (m.elems.map (·.ptr)).Pairwise (· < ·)) (he : e ∈ m.elems)
    (h : m.cancel e.ptr = .ok m') : debtsOf m'.fsm m'.elems = debtsOf m.fsm m.elems := by
  obtain ⟨pre, post, helems⟩ := List.append_of_mem he
  rw [cancel_spec helems (ptr_lt_of_split (helems ▸ hptrs))] at h
  exact debtsOf_cancelAt helems h

/-- A write: the elements it sends are those of the new debts. -/
theorem filterMap_debt_sent {m : Multiplexer} {l : Log} (h : Ledger m l) :
    ∀ {fresh : List Elem}, (∀ e ∈ fresh, e ∈ m.elems ∧ e.Unwritten) →
      (fresh.map Elem.sent).filterMap Elem.debt =
        ((fresh.map (·.ptr)).filter l.isOpen).map fun ptr => .new ptr l.requests[ptr]?
  | [], _ => rfl
  | e :: fresh, hall => by
      have ih := filterMap_debt_sent h fun x hx => hall x (List.mem_cons_of_mem _ hx)
      obtain ⟨he, hun⟩ := hall e List.mem_cons_self
      rw [List.map_cons, List.map_cons, List.filterMap_cons, List.filter_cons, ih]
      rcases hun with ⟨hs, -⟩ | hs
      · obtain ⟨-, hreq, hends⟩ := h.live e he (by simp [Elem.isLive, hs])
        simp [Elem.sent, hs, Elem.debt, Log.isOpen, hends, hreq]
      · have hends := (h.abandoned e he (by simp [Elem.isLive, hs])).2
        have hclosed : l.isOpen e.ptr = false := by
          cases hnil : endsOf e.ptr l.entries with
          | nil =>
            rw [hnil] at hends
            cases hends
          | cons x xs => simp [Log.isOpen, hnil]
        simp [Elem.sent, hs, Elem.debt, hclosed]

theorem debtsOf_prepareWrite {m m' : Multiplexer} {l : Log} {bytes : Bytes} (hinv : Inv m l.unseen)
    (hledger : Ledger m l) (h : m.prepareWrite = .ok (m', bytes)) :
    debtsOf m'.fsm m'.elems = debtsOf m.fsm m.elems ++ l.newDebts := by
  obtain ⟨written, fresh, helems, hreader, hfresh, hlen, hptrs⟩ := hinv.parts
  have hfront : m.fsm.status = .initial ∨ written ≠ [] := by
    unfold Reader at hreader
    split at hreader
    · exact .inl (by assumption)
    · obtain ⟨_, _, _, _, rfl, _⟩ := hreader
      exact .inr (List.cons_ne_nil _ _)
    · obtain ⟨_, _, rfl, _⟩ := hreader
      exact .inr (List.cons_ne_nil _ _)
  have hfsm : m'.fsm = m.fsm := by
    unfold Multiplexer.prepareWrite at h
    rw [pendingOffset_spec helems hlen] at h
    cases hw : Multiplexer.writePending (m.elems.drop written.length) with
    | error fault =>
      simp only [hw] at h
      cases h
    | ok w =>
      simp only [hw] at h
      cases h
      rfl
  have hunwritten : ∀ e ∈ fresh, e ∈ m.elems ∧ e.Unwritten := fun e he =>
    ⟨helems ▸ List.mem_append_right _ he, hfresh e he⟩
  have hsent := filterMap_debt_sent hledger hunwritten
  rw [hptrs] at hsent
  rw [hfsm, (prepareWrite_eq helems hlen h).2.1, helems, debtsOf_append hfront, hsent,
    debtsOf_append hfront, filterMap_debt_eq_nil hfresh, List.append_nil]
  rfl

theorem debtsOf_cleanup {m m' : Multiplexer} {unseen : List Nat} {events : List Event}
    (hinv : Inv m unseen) (h : m.cleanup = .ok (m', events)) : debtsOf m'.fsm m'.elems = [] := by
  obtain ⟨written, fresh, helems, -, hfresh, hlen, -⟩ := hinv.parts
  obtain ⟨rfl, -⟩ := cleanup_eq helems hlen h
  exact filterMap_debt_eq_nil hfresh

/-! ## 4. Messages -/

section
variable {s : ReadResponseStreamFsm} {f : ReadResponseFsm} {handler : Option Nat} {front : Elem}
  {rest : List Elem} {msg : AnyBackendMessage} {r : ReadResponseStreamFsm.Reply}

/-- A message of the response that is being read. -/
theorem debtsOf_read (hs : s.status = .reading) (hfsm : s.fsm = some (f, handler)) (hf : f.Wf)
    (h : s.read (front :: rest) msg = .ok r) :
    debtsOf r.fsm r.elms = debtsRead (debtsOf s (front :: rest)) msg r.out.ec := by
  obtain ⟨reply, hreply, hmove⟩ := ReadResponseFsm.resume_move hf msg
  have hdebts : debtsOf s (front :: rest) =
      ⟨front.ptr, getExpectedRfqs f.getRemainingMessages⟩ :: rest.filterMap Elem.debt := by
    simp [debtsOf, hs, hfsm]
  rw [hdebts]
  unfold ReadResponseStreamFsm.read at h
  simp only [hfsm, hreply] at h
  cases hres : reply.result with
  | read =>
    simp only [hres] at h
    cases h
    have hwf := hmove.wf hf hres
    obtain ⟨b, hb⟩ := hwf.batch
    have hpos := hb.getExpectedRfqs_pos hwf.ne
    have hcount := hmove.rfqs hres
    have hleft : debtsOf { s with fsm := some (reply.fsm, handler) } (front :: rest) =
        ⟨front.ptr, getExpectedRfqs reply.fsm.getRemainingMessages⟩ ::
          rest.filterMap Elem.debt := by
      simp [debtsOf, hs]
    rw [hleft]
    cases hrfq : msg.isReadyForQuery with
    | true =>
      rw [hrfq, if_pos rfl] at hcount
      simp only [debtsRead, ErrorCode.failed_success, hrfq, payDebts, if_true]
      rw [if_neg (by decide), if_neg (by omega), ← hcount]
      simp
    | false =>
      rw [hrfq, if_neg (by decide), Nat.zero_add] at hcount
      simp [debtsRead, hrfq, hcount]
  | done ec =>
    simp only [hres] at h
    cases h
    rw [debtsOf_initial rfl]
    cases hec : ec.failed with
    | true => simp [debtsRead, hec]
    | false =>
      obtain ⟨hrfq, hone⟩ := hmove.last hf hres hec
      simp [debtsRead, hec, hrfq, hone, payDebts]

/-- A message of a response that is being ignored. -/
theorem debtsOf_ignore (hs : s.status = .ignoring) (h : s.ignore (front :: rest) msg = .ok r) :
    debtsOf r.fsm r.elms = debtsRead (debtsOf s (front :: rest)) msg r.out.ec := by
  have hdebts : ∀ s : ReadResponseStreamFsm, s.status = .ignoring →
      debtsOf s (front :: rest) = ⟨front.ptr, s.remainingRfq⟩ :: rest.filterMap Elem.debt := by
    intro s hs
    simp [debtsOf, hs]
  rw [hdebts s hs]
  unfold ReadResponseStreamFsm.ignore at h
  split at h
  · cases h
  · rename_i hpos
    split at h
    · rename_i hrfq
      simp only at h
      split at h
      · rename_i hlast
        cases h
        rw [debtsOf_initial rfl]
        simp only [debtsRead, hrfq, payDebts, if_true, ErrorCode.failed_success]
        rw [if_neg (by decide), if_pos (by omega)]
      · rename_i hmore
        cases h
        simp only [hdebts { s with remainingRfq := s.remainingRfq - 1 } hs, debtsRead, hrfq, payDebts,
          if_true, ErrorCode.failed_success]
        rw [if_neg (by decide), if_neg (by omega)]
    · rename_i hrfq
      cases h
      rw [hdebts s hs]
      simp [debtsRead, hrfq]

end

/-- Nothing is owed for what the erasing loop erases. -/
theorem filterMap_debt_dropWhile (elems : List Elem) :
    (elems.dropWhile (·.status == .abandonedPending)).filterMap Elem.debt =
      elems.filterMap Elem.debt := by
  induction elems with
  | nil => rfl
  | cons e elems ih =>
    by_cases he : e.status = .abandonedPending
    · rw [List.dropWhile_cons_of_pos (by simpa using he), ih, List.filterMap_cons]
      simp [Elem.debt, he]
    · rw [List.dropWhile_cons_of_neg (by simpa using he)]

/-- An element in flight has been written, with a request that was accepted. -/
theorem Inv.accepted {m : Multiplexer} {unseen : List Nat} (hinv : Inv m unseen)
    (hinitial : m.fsm.status = .initial) {e : Elem} (he : e ∈ m.elems) (hs : e.status = .inFlight) :
    ∃ req, e.req = some req ∧ req.Accepted := by
  obtain ⟨written, fresh, helems, hreader, hfresh, -⟩ := hinv.parts
  rw [helems] at he
  rcases List.mem_append.mp he with he | he
  · simp only [Reader, hinitial] at hreader
    rcases hreader e he with h | ⟨-, h⟩ | ⟨h, -⟩
    · rw [hs] at h
      cases h
    · exact h
    · rw [hs] at h
      cases h
  · rcases hfresh e he with ⟨h, -⟩ | h <;> rw [hs] at h <;> cases h

/-- **A message is read off what is owed.** -/
theorem debtsOf_onMessage {m m' : Multiplexer} {unseen : List Nat} {msg : AnyBackendMessage}
    {out : Output} (hinv : Inv m unseen) (h : m.onMessage msg = .ok (m', out)) :
    debtsOf m'.fsm m'.elems = debtsRead (debtsOf m.fsm m.elems) msg out.ec := by
  unfold Multiplexer.onMessage at h
  split at h
  · rename_i ha
    cases h
    simp [debtsRead, AnyBackendMessage.isReadyForQuery_of_isAsync ha]
  · cases hr : m.fsm.onMessage m.elems msg with
    | error fault =>
      rw [hr] at h
      cases h
    | ok r =>
      rw [hr] at h
      cases h
      obtain ⟨written, fresh, helems, hreader, -⟩ := hinv.parts
      unfold ReadResponseStreamFsm.onMessage at hr
      cases hs : m.fsm.status with
      | reading =>
        simp only [Reader, hs] at hreader
        obtain ⟨front, rest, f, handler, rfl, -, hfsm, hf, -⟩ := hreader
        simp only [hs, helems, List.cons_append] at hr ⊢
        exact debtsOf_read hs hfsm hf hr
      | ignoring =>
        simp only [Reader, hs] at hreader
        obtain ⟨front, rest, rfl, -⟩ := hreader
        simp only [hs, helems, List.cons_append] at hr ⊢
        exact debtsOf_ignore hs hr
      | initial =>
        -- a new response: the erasing loop comes first
        rw [debtsOf_initial hs, ← filterMap_debt_dropWhile]
        simp only [hs] at hr
        cases hd : m.elems.dropWhile (·.status == .abandonedPending) with
        | nil =>
          simp only [hd] at hr
          cases hr
          simp [debtsOf_initial hs, debtsRead]
        | cons front rest =>
          simp only [hd] at hr
          split at hr
          · rename_i hfront
            rw [debtsOf_ignore rfl hr]
            simp [debtsOf, Elem.debt, hfront]
          · split at hr
            · rename_i hfront
              have hmem : front ∈ m.elems := by
                refine (List.dropWhile_sublist (·.status == .abandonedPending)).subset ?_
                rw [hd]
                exact List.mem_cons_self
              obtain ⟨req, hreq, hacc⟩ := hinv.accepted hs hmem hfront
              simp only [hreq] at hr
              rw [debtsOf_read rfl rfl (ReadResponseFsm.Wf.init hacc false) hr]
              simp [debtsOf, Elem.debt, Debt.new, hfront, hreq, readResponseFsm,
                ReadResponseFsm.getRemainingMessages]
            · cases hr

end Multiplexing

end NativePg
