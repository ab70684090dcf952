/-
  File:      NativePg/Multiplexer/Connection.lean
  Subject:   The connection around the multiplexer (`co_multiplexed_connection::impl`): sessions that
             begin and end while callers come and go.

  * `Impl`, `Action`, `step` -- the coroutine `run` with its four awaits, the two tasks of a session,
    and `exec` with its cancellation, interleaved in any order;
  * `StopsClean` -- a stop request that ends a session comes behind the responses to everything that
    was written; `Corrupt` -- what a message out of turn can leave of the queue;
  * **`run_leaves_nothing`** -- as long as every stop request is clean, a session that is about to start
    and a `run` that has returned find a multiplexer with nothing in flight and its reader between
    two responses. `stopped_run_leaves_request` is a stop request that is not: `run` returns without
    `cleanup`.
-/
import NativePg.Exec
import NativePg.Multiplexer.Debts

namespace NativePg

namespace Multiplexing

/-! ## 1. The connection -/

/-- Where `run` is. -/
inductive RunPhase where
  /-- It has not been called, or has returned. -/
  | idle
  /-- `co_await conn.connect(...)` -/
  | connecting
  /-- The session's tasks are about to start. -/
  | starting
  /-- `co_await when_any(writer(), reader())`: which of the two have not returned. -/
  | running (writer reader : Bool)
  /-- `co_await delay(...)` -/
  | delaying
  deriving DecidableEq, Repr

/-- `co_multiplexed_connection::impl`, and what has happened so far. -/
structure Impl where
  mpx : Multiplexer := {}
  phase : RunPhase := .idle
  log : Log := {}
  /-- The requests whose responses have not been read to the end. -/
  debts : List Debt := []

/-- What can happen next. The flag `stop` is `tok.stop_requested()`. -/
inductive Action where
  /-- `run` is called, for the first time or again. -/
  | run
  | connectDone (ec : ErrorCode) (stop : Bool)
  | startTasks
  /-- The head of the loop of `writer`. -/
  | writerPrepares
  | writerReturns
  /-- `reader` has parsed a message. -/
  | readerMessage (msg : AnyBackendMessage)
  | readerReturns
  /-- Both tasks have returned, and so does `when_any`. -/
  | tasksDone (stop : Bool)
  | delayDone (ec : ErrorCode)
  /-- `exec` is called, up to its wait. -/
  | exec (setup : HandlerSetup) (req : Request)
  /-- The wait of the `exec` with this element is cancelled, and its event is not set. -/
  | execCancelled (ptr : Nat)

namespace Impl

/-- One operation on the multiplexer. -/
def mpxStep (s : Impl) (op : Op) (phase : RunPhase) : Checked Impl :=
  (s.mpx.step op).map fun r =>
    ⟨r.1, phase, s.log.after s.mpx op r.2, debtsAfter s.debts s.log op r.2⟩

/-- May this happen now? -/
def enabled (s : Impl) : Action → Bool
  | .run => s.phase == .idle
  | .connectDone _ _ => s.phase == .connecting
  | .startTasks => s.phase == .starting
  | .writerPrepares | .writerReturns =>
    match s.phase with
    | .running writer _ => writer
    | _ => false
  | .readerMessage _ | .readerReturns =>
    match s.phase with
    | .running _ reader => reader
    | _ => false
  | .tasksDone _ => s.phase == .running false false
  | .delayDone _ => s.phase == .delaying
  | .exec _ _ => true
  -- `on_done` has set the event of an element that has completed
  | .execCancelled ptr => s.mpx.elems.any fun e => e.ptr == ptr && e.isLive

/-- `run` with its tasks, and `exec`. -/
def step (s : Impl) : Action → Checked Impl
  | .run => .ok { s with phase := .connecting }
  | .connectDone ec stop =>
      if stop then .ok { s with phase := .idle }
      else if !ec.failed then .ok { s with phase := .starting }
      else .ok { s with phase := .delaying }
  | .startTasks => .ok { s with phase := .running true true }
  | .writerPrepares => s.mpxStep .prepareWrite s.phase
  | .writerReturns =>
    match s.phase with
    | .running _ reader => .ok { s with phase := .running false reader }
    | _ => .ok s
  | .readerMessage msg =>
    match msg with
    -- these go to the notification queue
    | .notificationResponse _ => .ok s
    | msg =>
      match s.mpx.onMessage msg with
      | .error fault => .error fault
      | .ok (mpx, out) =>
        -- an error ends the task
        let phase :=
          match s.phase with
          | .running writer reader => .running writer (reader && !out.ec.failed)
          | phase => phase
        .ok ⟨mpx, phase, s.log.after s.mpx (.onMessage msg) out,
          debtsAfter s.debts s.log (.onMessage msg) out⟩
  | .readerReturns =>
    match s.phase with
    | .running writer _ => .ok { s with phase := .running writer false }
    | _ => .ok s
  | .tasksDone stop =>
      if stop then .ok { s with phase := .idle } else s.mpxStep .cleanup .delaying
  | .delayDone ec =>
      if ec.failed then .ok { s with phase := .idle } else .ok { s with phase := .connecting }
  | .exec setup req =>
      if (setupRequest req setup).failed then .ok s else s.mpxStep (.add req) s.phase
  | .execCancelled ptr => s.mpxStep (.cancel ptr) s.phase

end Impl

/-- **A stop request that ends a session comes behind the responses to all that was written**: of
    every request the writer has sent, cancelled since or not, the reader has got as many
    ReadyForQuery as it has queries and syncs, or an error that ended its response. -/
def StopsClean (s : Impl) : Action → Prop
  | .tasksDone true => s.debts = []
  | _ => True

/-- **Runs of a connection**: any interleaving of `run`, its tasks, `exec` and its cancellation. -/
inductive Impl.Reach : Impl → Prop where
  | init : Reach {}
  | step {s s' : Impl} {a : Action} (h : Reach s) (he : s.enabled a = true) (hc : StopsClean s a)
      (hs : s.step a = .ok s') : Reach s'

/-- **The multiplexer between two sessions**: nothing is in flight, the reader is between two
    responses, and every request that was written has completed or been cancelled. -/
structure LeavesNothing (s : Impl) : Prop where
  idle : Idle s.mpx
  reader : s.mpx.fsm.status = .initial
  ended : ∀ ptr < s.log.requests.length, ptr ∉ s.log.unseen → s.log.isOpen ptr = false

/-! ## 2. Messages out of turn -/

/-- What a message out of turn can leave: `num_pending_` counts elements that are gone. -/
structure Corrupt (m : Multiplexer) (unseen : List Nat) : Prop where
  status : m.fsm.status = .initial
  unwritten : ∀ e ∈ m.elems, e.status = .pending ∨ e.status = .abandonedPending
  lt : m.elems.length < m.numPending
  unseen : ∀ e ∈ m.elems, e.ptr ∈ unseen

section
variable {m m' : Multiplexer} {unseen : List Nat}

theorem Corrupt.idle (h : Corrupt m unseen) : Idle m := by
  intro e he
  rcases h.unwritten e he with hs | hs <;> rw [hs] <;> decide

theorem Corrupt.debtsOf (h : Corrupt m unseen) : debtsOf m.fsm m.elems = [] := by
  rw [debtsOf_initial h.status]
  exact List.filterMap_eq_nil_iff.mpr fun e he => (debt_eq_none_iff e).mpr (h.idle e he)

theorem Corrupt.pendingOffset (h : Corrupt m unseen) : m.pendingOffset = .error .outOfRange := by
  unfold Multiplexer.pendingOffset
  rw [if_neg (Nat.not_le.mpr h.lt)]

/-- The reader finds nothing to read. -/
theorem Corrupt.onMessage {msg : AnyBackendMessage} {out : Output} (h : Corrupt m unseen)
    (hs : m.onMessage msg = .ok (m', out)) : Corrupt m' unseen := by
  unfold Multiplexer.onMessage at hs
  split at hs
  · cases hs
    exact h
  · unfold ReadResponseStreamFsm.onMessage at hs
    rw [h.status] at hs
    simp only at hs
    split at hs
    · cases hs
      exact ⟨h.status, by simp, Nat.lt_of_le_of_lt (Nat.zero_le _) h.lt, by simp⟩
    · rename_i front rest hd
      have hmem : front ∈ m.elems := by
        refine (List.dropWhile_sublist (·.status == .abandonedPending)).subset ?_
        rw [hd]
        exact List.mem_cons_self
      obtain ⟨h1, h2⟩ := h.idle front hmem
      rw [if_neg h2, if_neg h1] at hs
      cases hs

/-- A message keeps the queue in order, or leaves it corrupt. -/
theorem Inv.onMessage_or {msg : AnyBackendMessage} {out : Output} (h : Inv m unseen)
    (hs : m.onMessage msg = .ok (m', out)) : Inv m' unseen ∨ Corrupt m' unseen := by
  by_cases ho : Orderly m (.onMessage msg)
  · obtain ⟨m₁, out₁, hs₁, hinv, _⟩ := h.onMessage ho
    cases hs.symm.trans hs₁
    exact .inl hinv
  · have hout : msg.isAsync = false ∧ Idle m ∧ m.numPending ≠ 0 := by
      simpa [Orderly] using ho
    obtain ⟨ha, hidle, hpos⟩ := hout
    obtain ⟨written, fresh, helems, hreader, _⟩ := h.parts
    have hstatus := hreader.initial_of_idle (idle_written helems hreader hidle)
    have hmsg := onMessage_idle helems hreader hidle msg
    rw [Multiplexer.onMessage, ha, hmsg] at hs
    cases hd : fresh.dropWhile (·.status == .abandonedPending) with
    | nil =>
      rw [hd] at hs
      cases hs
      exact .inr ⟨hstatus, by simp, Nat.pos_of_ne_zero hpos, by simp⟩
    | cons _ _ =>
      rw [hd] at hs
      cases hs

end

/-! ## 3. The invariant -/

/-- The queue is in order or corrupt, and agrees with the log. -/
structure Sound (m : Multiplexer) (l : Log) : Prop where
  queue : Inv m l.unseen ∨ Corrupt m l.unseen
  ledger : Ledger m l

section
variable {m m' : Multiplexer} {l : Log} {out : Output}

theorem Sound.frontOk (h : Sound m l) : FrontOk m := by
  rcases h.queue with hinv | hc
  · exact hinv.frontOk
  · unfold FrontOk
    rw [hc.status]
    trivial

theorem Sound.add (h : Sound m l) {req : Request} (hreq : req.Accepted) :
    Sound (m.add req) (l.after m (.add req) {}) ∧ (Idle m → Idle (m.add req)) := by
  have hledger : Ledger (m.add req) (l.after m (.add req) {}) := by
    have hadd := h.ledger.add req
    simpa [Log.after, unseenAfter] using hadd
  refine ⟨⟨?_, hledger⟩, fun hidle e he => ?_⟩
  · rcases h.queue with hinv | hc
    · exact .inl (hinv.add hreq)
    · refine .inr ⟨hc.status, fun e he => ?_, ?_, fun e he => ?_⟩
      · rcases List.mem_append.mp he with he | he
        · exact hc.unwritten e he
        · rw [List.mem_singleton.mp he]
          exact .inl rfl
      · have hlt := hc.lt
        show (m.elems ++ [_]).length < m.numPending + 1
        rw [List.length_append, List.length_singleton]
        omega
      · show e.ptr ∈ l.unseen ++ [m.nextPtr]
        rcases List.mem_append.mp he with he | he
        · exact List.mem_append_left _ (hc.unseen e he)
        · rw [List.mem_singleton.mp he]
          simp
  · rcases List.mem_append.mp he with he | he
    · exact hidle e he
    · rw [List.mem_singleton.mp he]
      exact ⟨by simp, by simp⟩

theorem Sound.cancel (h : Sound m l) {e : Elem} (he : e ∈ m.elems) (hlive : e.Live)
    (hs : m.cancel e.ptr = .ok m') :
    Sound m' (l.after m (.cancel e.ptr) {}) ∧ (Idle m → Idle m') := by
  obtain ⟨_, hcount, pre, post, s, n, helems, helems', _, _, habandoned⟩ :=
    cancel_abandons h.ledger.ptrs he hs
  have hpending : Idle m → e.status = .pending := by
    intro hidle
    rcases hlive with hl | hl
    · exact hl
    · exact absurd hl (hidle e he).1
  have hkeeps : ∀ {P : Elem → Prop}, (∀ x ∈ m.elems, P x) → P (e.abandon s n) →
      ∀ x ∈ m'.elems, P x := by
    intro P hall hnew
    rw [helems']
    rw [helems] at hall
    exact forall_abandon hall hnew
  refine ⟨⟨?_, h.ledger.cancel he hlive hs⟩, fun hidle => ?_⟩
  · rcases h.queue with hinv | hc
    · obtain ⟨m₁, hs₁, hinv'⟩ := hinv.cancel he hlive
      cases hs.symm.trans hs₁
      exact .inl hinv'
    · obtain ⟨hs', hfsm⟩ := habandoned (hpending hc.idle)
      refine .inr ⟨hfsm ▸ hc.status, ?_, ?_, ?_⟩
      · exact hkeeps hc.unwritten (.inr hs')
      · rw [hcount, helems', ← List.length_map (·.ptr), map_ptr_abandon, ← helems,
          List.length_map]
        exact hc.lt
      · exact hkeeps hc.unseen (hc.unseen e he)
  · have hs' := (habandoned (hpending hidle)).1
    refine hkeeps hidle ?_
    rw [hs']
    exact ⟨by simp [Elem.abandon], by simp [Elem.abandon]⟩

theorem Sound.prepareWrite (h : Sound m l) {bytes : Bytes}
    (hs : m.prepareWrite = .ok (m', bytes)) :
    Sound m' (l.after m .prepareWrite { bytes }) := by
  rcases h.queue with hinv | hc
  · have hstep : m.step .prepareWrite = .ok (m', { bytes }) := by
      rw [Multiplexer.step, hs]
      rfl
    have hv : Valid m .prepareWrite := trivial
    have ho : Orderly m .prepareWrite := trivial
    obtain ⟨hinv', hledger⟩ := h.ledger.step hinv hv ho hstep
    exact ⟨.inl hinv', hledger⟩
  · rw [Multiplexer.prepareWrite, hc.pendingOffset] at hs
    cases hs

theorem Sound.onMessage (h : Sound m l) {msg : AnyBackendMessage}
    (hs : m.onMessage msg = .ok (m', out)) : Sound m' (l.after m (.onMessage msg) out) := by
  refine ⟨?_, h.ledger.onMessage h.frontOk hs⟩
  rcases h.queue with hinv | hc
  · exact hinv.onMessage_or hs
  · exact .inr (hc.onMessage hs)

theorem Sound.cleanup (h : Sound m l) {events : List Event} (hs : m.cleanup = .ok (m', events)) :
    Sound m' (l.after m .cleanup { events }) ∧ Idle m' := by
  rcases h.queue with hinv | hc
  · have hstep : m.step .cleanup = .ok (m', { events }) := by
      rw [Multiplexer.step, hs]
      rfl
    have hv : Valid m .cleanup := trivial
    have ho : Orderly m .cleanup := trivial
    obtain ⟨hinv', hledger⟩ := h.ledger.step hinv hv ho hstep
    obtain ⟨written, fresh, helems, _, hfresh, hlen, _⟩ := hinv.parts
    obtain ⟨rfl, rfl⟩ := cleanup_eq helems hlen hs
    refine ⟨⟨.inl hinv', hledger⟩, fun e he => ?_⟩
    rcases hfresh e he with ⟨hs, _⟩ | hs <;> rw [hs] <;> decide
  · rw [Multiplexer.cleanup, hc.pendingOffset] at hs
    cases hs

/-- **What is owed from the run and what is owed from the queue change alike.** -/
theorem Sound.debts (h : Sound m l) {op : Op}
    (hv : ∀ ptr, op = .cancel ptr → ∃ e ∈ m.elems, e.ptr = ptr) (hs : m.step op = .ok (m', out)) :
    debtsOf m'.fsm m'.elems = debtsAfter (debtsOf m.fsm m.elems) l op out := by
  cases op with
  | add req =>
    cases hs
    exact debtsOf_add h.frontOk req
  | cancel ptr =>
    obtain ⟨e, he, rfl⟩ := hv ptr rfl
    obtain ⟨hc, rfl⟩ := Multiplexer.cancel_of_step hs
    exact debtsOf_cancel h.ledger.ptrs he hc
  | prepareWrite =>
    obtain ⟨bytes, hw, rfl⟩ := Multiplexer.prepareWrite_of_step hs
    rcases h.queue with hinv | hc
    · exact debtsOf_prepareWrite hinv h.ledger hw
    · rw [Multiplexer.prepareWrite, hc.pendingOffset] at hw
      cases hw
  | onMessage msg =>
    rcases h.queue with hinv | hc
    · exact debtsOf_onMessage hinv hs
    · have hnone : debtsOf m'.fsm m'.elems = [] := (hc.onMessage hs).debtsOf
      rw [hnone, hc.debtsOf]
      simp [debtsAfter, debtsRead, payDebts]
  | cleanup =>
    obtain ⟨events, hcl, rfl⟩ := Multiplexer.cleanup_of_step hs
    rcases h.queue with hinv | hc
    · exact debtsOf_cleanup hinv hcl
    · rw [Multiplexer.cleanup, hc.pendingOffset] at hcl
      cases hcl

/-- **Where nothing is in flight, nothing is left behind.** -/
theorem Sound.leavesNothing {s : Impl} (h : Sound s.mpx s.log) (hidle : Idle s.mpx) :
    LeavesNothing s := by
  have hwhere : ∀ e ∈ s.mpx.elems, e.status = .pending → e.ptr ∈ s.log.unseen := by
    intro e he hs
    rcases h.queue with hinv | hc
    · obtain ⟨written, fresh, helems, hreader, _, _, hptrs⟩ := hinv.parts
      rw [helems] at he
      rcases List.mem_append.mp he with he | he
      · exact absurd hs (hreader.ne_pending e he)
      · exact hptrs ▸ List.mem_map_of_mem he
    · exact hc.unseen e he
  refine ⟨hidle, ?_, fun ptr hlt hseen => ?_⟩
  · rcases h.queue with hinv | hc
    · obtain ⟨written, fresh, helems, hreader, _⟩ := hinv.parts
      exact hreader.initial_of_idle (idle_written helems hreader hidle)
    · exact hc.status
  · -- an open request would be in the queue, and pending
    by_contra hopen
    have hends : endsOf ptr s.log.entries = [] := by simpa [Log.isOpen] using hopen
    have hmem : ∃ e ∈ s.mpx.elems, e.ptr = ptr := by
      by_contra hno
      have := h.ledger.gone ptr (h.ledger.added ▸ hlt) fun e he hp => hno ⟨e, he, hp⟩
      rw [hends] at this
      cases this
    obtain ⟨e, he, rfl⟩ := hmem
    have hl : e.isLive = true := by
      by_contra hne
      have := (h.ledger.abandoned e he (by simpa using hne)).2
      rw [hends] at this
      cases this
    rcases e.live_iff.mpr hl with hs | hs
    · exact hseen (hwhere e he hs)
    · exact (hidle e he).1 hs

end

/-- What holds of a connection at every moment: outside a session nothing is in flight. -/
structure Impl.Sane (s : Impl) : Prop where
  sound : Sound s.mpx s.log
  debts : s.debts = debtsOf s.mpx.fsm s.mpx.elems
  between : (∀ w r, s.phase ≠ .running w r) → Idle s.mpx

/-- **Nothing is owed exactly if nothing is in flight.** -/
theorem Impl.Sane.debts_eq_nil_iff {s : Impl} (h : s.Sane) : s.debts = [] ↔ Idle s.mpx := by
  rw [h.debts]
  exact debtsOf_eq_nil_iff h.sound.frontOk

/-- A step that leaves the multiplexer alone. -/
theorem Impl.Sane.of_phase {s : Impl} (h : s.Sane) {phase : RunPhase}
    (hb : (∀ w r, phase ≠ .running w r) → Idle s.mpx) : ({ s with phase } : Impl).Sane :=
  ⟨h.sound, h.debts, hb⟩

/-- An operation on the multiplexer. -/
theorem Impl.Sane.of_step {s s' : Impl} {op : Op} {phase : RunPhase} (h : s.Sane)
    (hv : ∀ ptr, op = .cancel ptr → ∃ e ∈ s.mpx.elems, e.ptr = ptr)
    (hs : s.mpxStep op phase = .ok s')
    (hnext : ∀ {m out}, s.mpx.step op = .ok (m, out) → Sound m (s.log.after s.mpx op out) ∧
      ((∀ w r, phase ≠ .running w r) → Idle m)) : s'.Sane := by
  unfold Impl.mpxStep at hs
  cases hm : s.mpx.step op with
  | error fault =>
    rw [hm] at hs
    cases hs
  | ok r =>
    rw [hm] at hs
    cases hs
    obtain ⟨hsound, hidle⟩ := hnext hm
    refine ⟨hsound, ?_, hidle⟩
    rw [h.sound.debts hv hm, ← h.debts]

theorem Impl.running_of_enabled {s : Impl} {f : Bool → Bool → Bool}
    (he : (match s.phase with
      | .running writer reader => f writer reader
      | _ => false) = true) : ∃ w r, s.phase = .running w r := by
  split at he
  · exact ⟨_, _, by assumption⟩
  · cases he

/-- **Every step of a connection keeps the invariant**, a stop request that finds something in
    flight excepted. -/
theorem Impl.Sane.step {s s' : Impl} {a : Action} (h : s.Sane) (he : s.enabled a = true)
    (hc : StopsClean s a) (hs : s.step a = .ok s') : s'.Sane := by
  have hother : ∀ {phase}, s.phase = phase → (∀ w r, phase ≠ .running w r) → Idle s.mpx :=
    fun hp hne => h.between (hp ▸ hne)
  cases a with
  | run =>
    cases hs
    exact h.of_phase fun _ => hother (beq_iff_eq.mp he) (by simp)
  | connectDone ec stop =>
    have hidle := hother (beq_iff_eq.mp he) (by simp)
    simp only [Impl.step] at hs
    split at hs
    · cases hs
      exact h.of_phase fun _ => hidle
    · split at hs <;> cases hs <;> exact h.of_phase fun _ => hidle
  | startTasks =>
    cases hs
    exact h.of_phase fun hne => absurd rfl (hne true true)
  | writerPrepares =>
    obtain ⟨w, r, hp⟩ := running_of_enabled (f := fun writer _ => writer) he
    refine h.of_step (fun _ hop => by cases hop) hs fun hm => ?_
    obtain ⟨bytes, hw, rfl⟩ := Multiplexer.prepareWrite_of_step hm
    exact ⟨h.sound.prepareWrite hw, fun hne => absurd hp (hne w r)⟩
  | writerReturns =>
    obtain ⟨w, r, hp⟩ := running_of_enabled (f := fun writer _ => writer) he
    rw [Impl.step, hp] at hs
    cases hs
    exact h.of_phase fun hne => absurd rfl (hne false r)
  | readerMessage msg =>
    obtain ⟨w, r, hp⟩ := running_of_enabled (f := fun _ reader => reader) he
    simp only [Impl.step] at hs
    split at hs
    · cases hs
      exact h
    · split at hs
      · cases hs
      · rename_i mpx out hm
        cases hs
        have hdebts := @Sound.debts _ _ _ _ h.sound (.onMessage msg) (fun _ hop => by cases hop) hm
        rw [← h.debts] at hdebts
        refine ⟨h.sound.onMessage hm, hdebts.symm, fun hne => absurd ?_ (hne w (r && !out.ec.failed))⟩
        simp only [hp]
  | readerReturns =>
    obtain ⟨w, r, hp⟩ := running_of_enabled (f := fun _ reader => reader) he
    rw [Impl.step, hp] at hs
    cases hs
    exact h.of_phase fun hne => absurd rfl (hne w false)
  | tasksDone stop =>
    cases stop with
    | true =>
      cases hs
      exact h.of_phase fun _ => h.debts_eq_nil_iff.mp hc
    | false =>
      refine h.of_step (fun _ hop => by cases hop) (show s.mpxStep .cleanup .delaying = .ok s' from hs) fun hm => ?_
      obtain ⟨events, hcl, rfl⟩ := Multiplexer.cleanup_of_step hm
      obtain ⟨hsound, hidle⟩ := h.sound.cleanup hcl
      exact ⟨hsound, fun _ => hidle⟩
  | delayDone ec =>
    have hidle := hother (beq_iff_eq.mp he) (by simp)
    simp only [Impl.step] at hs
    split at hs <;> cases hs <;> exact h.of_phase fun _ => hidle
  | exec setup req =>
    simp only [Impl.step] at hs
    split at hs
    · cases hs
      exact h
    · rename_i hec
      refine h.of_step (fun _ hop => by cases hop) hs fun hm => ?_
      cases hm
      obtain ⟨hsound, hidle⟩ := h.sound.add (accepted_of_setupRequest hec)
      exact ⟨hsound, fun hne => hidle (h.between hne)⟩
  | execCancelled ptr =>
    obtain ⟨e, hmem, hcond⟩ := List.any_eq_true.mp he
    rw [Bool.and_eq_true, beq_iff_eq] at hcond
    obtain ⟨rfl, hl⟩ := hcond
    have hv : ∀ ptr, Op.cancel e.ptr = .cancel ptr → ∃ e ∈ s.mpx.elems, e.ptr = ptr := by
      rintro ptr ⟨⟩
      exact ⟨e, hmem, rfl⟩
    refine h.of_step hv hs fun hm => ?_
    obtain ⟨hcan, rfl⟩ := Multiplexer.cancel_of_step hm
    obtain ⟨hsound, hidle⟩ := h.sound.cancel hmem (e.live_iff.mpr hl) hcan
    exact ⟨hsound, fun hne => hidle (h.between hne)⟩

theorem Impl.Reach.sane {s : Impl} (h : s.Reach) : s.Sane := by
  induction h with
  | init => exact ⟨⟨.inl Inv.init, Ledger.init⟩, rfl, fun _ e he => by cases he⟩
  | step _ he hc hs ih => exact ih.step he hc hs

/-! ## 4. What a session leaves behind -/

/-- **A finished session leaves nothing behind**, as long as every stop request that ends a session
    comes behind the responses to all that was written: whenever `run` is not active, and whenever
    the tasks of a session are about to start, nothing is in flight, the reader is between two
    responses, and every request that was written has completed or been cancelled. A stop request
    that ends a session keeps this exactly if it comes behind these responses. -/
theorem run_leaves_nothing {s : Impl} (h : s.Reach) :
    (s.phase = .idle ∨ s.phase = .starting → LeavesNothing s) ∧
      ∀ s', s.enabled (.tasksDone true) = true → s.step (.tasksDone true) = .ok s' →
        (LeavesNothing s' ↔ StopsClean s (.tasksDone true)) := by
  have hsane := h.sane
  refine ⟨fun hp => hsane.sound.leavesNothing (hsane.between ?_), fun s' _ hs => ?_⟩
  · rcases hp with hp | hp <;> rw [hp] <;> simp
  · cases hs
    refine ⟨fun hl => hsane.debts_eq_nil_iff.mpr hl.idle, fun hdebts => ?_⟩
    exact Sound.leavesNothing (s := { s with phase := .idle }) hsane.sound
      (hsane.debts_eq_nil_iff.mp hdebts)

/-- Several things in turn, as long as each may happen. -/
def Impl.steps (s : Impl) : List Action → Option (Checked Impl)
  | [] => some (.ok s)
  | a :: rest =>
    if s.enabled a then
      match s.step a with
      | .error fault => some (.error fault)
      | .ok s' => s'.steps rest
    else none

/-- Does a stop request end a session? -/
def Action.endsSession : Action → Bool
  | .tasksDone stop => stop
  | _ => false

theorem stopsClean_of_not {s : Impl} {a : Action} (h : a.endsSession = false) : StopsClean s a := by
  cases a with
  | tasksDone stop =>
    cases h
    trivial
  | _ => trivial

/-- Without such a request any steps make a run. -/
theorem Impl.Reach.steps : ∀ (as : List Action) {s s' : Impl}, s.Reach →
    (∀ a ∈ as, a.endsSession = false) → s.steps as = some (.ok s') → s'.Reach
  | [], s, _, h, _, hs => by
      cases hs
      exact h
  | a :: as, s, s', h, has, hs => by
      unfold Impl.steps at hs
      split at hs
      · rename_i he
        split at hs
        · cases hs
        · rename_i hstep
          exact (h.step he (stopsClean_of_not (has a List.mem_cons_self)) hstep).steps as
            (fun x hx => has x (List.mem_cons_of_mem a hx)) hs
      · cases hs

/-- The connection is lost with a request in flight, and comes back. -/
def lostConnection : List Action :=
  [.run, .connectDone .success false, .startTasks,
    .exec (fun _ _ => (.success, 1)) { messages := [.query] }, .writerPrepares, .readerReturns,
    .writerReturns, .tasksDone false, .delayDone .success, .connectDone .success false]

/-- Two requests are written, the second is cancelled, and both are answered before the tasks
    return. -/
def answeredSession : List Action :=
  [.run, .connectDone .success false, .startTasks,
    .exec (fun _ _ => (.success, 1)) { messages := [.query] },
    .exec (fun _ _ => (.success, 1)) { messages := [.query] }, .writerPrepares, .execCancelled 1,
    .readerMessage (.commandComplete []), .readerMessage (.readyForQuery .idle),
    .readerMessage .emptyQueryResponse, .readerMessage (.readyForQuery .idle), .readerReturns,
    .writerReturns]

/-- A new session finds nothing in flight, and neither does a `run` that is stopped behind the
    responses; stopped one ReadyForQuery earlier it would. -/
theorem run_leaves_nothing_lost_connection :
    (∃ s, Impl.steps {} lostConnection = some (.ok s) ∧ s.phase = .starting ∧ LeavesNothing s) ∧
    (∃ s, Impl.steps {} (answeredSession ++ [.tasksDone true]) = some (.ok s) ∧
      LeavesNothing s) ∧
    ∃ s, Impl.steps {} (answeredSession.eraseIdx 10 ++ [.tasksDone true]) = some (.ok s) ∧
      ¬LeavesNothing s := by
  refine ⟨⟨_, rfl, rfl, ?_⟩, ⟨_, rfl, ?_⟩, ⟨_, rfl, ?_⟩⟩
  · exact (run_leaves_nothing (Impl.Reach.init.steps lostConnection (by decide) rfl)).1
      (.inr rfl)
  · exact ((run_leaves_nothing (Impl.Reach.init.steps answeredSession (by decide) rfl)).2 _
      rfl rfl).mpr rfl
  · intro h
    have hclean := ((run_leaves_nothing (Impl.Reach.init.steps (answeredSession.eraseIdx 10)
      (by decide) rfl)).2 _ rfl rfl).mp h
    cases hclean

/-- **A stop request behind `when_any` leaves a request in flight**: `run` has returned, and the
    `exec` waits for a response nobody will read. -/
theorem stopped_run_leaves_request :
    ∃ s, Impl.steps {} [.run, .connectDone .success false, .startTasks,
        .exec (fun _ _ => (.success, 1)) { messages := [.query] }, .writerPrepares,
        .readerMessage (.commandComplete []), .readerReturns, .writerReturns, .tasksDone true] =
          some (.ok s) ∧
      s.phase = .idle ∧ (∃ e ∈ s.mpx.elems, e.status = .inFlight) ∧
      s.mpx.fsm.status = .reading ∧ ¬LeavesNothing s := by
  refine ⟨_, rfl, rfl, ⟨_, List.mem_cons_self, rfl⟩, rfl, fun h => ?_⟩
  have := (h.idle _ List.mem_cons_self).1
  exact this rfl

end Multiplexing

end NativePg
