/-
  File:      NativePg/ReadResponse/Moves.lean
  Subject:   Every step of the response machine, classified once.

  `resume` is eight handlers, a loop over flushes and a loop that skips to the next sync. On a
  machine that stands inside an accepted request (`Wf`) each of its steps is one of five
  (`Move`): an async message is ignored; the message keeps the request message it belongs to
  open (`Stays`); it finishes it (`Finishes`) and the machine goes on behind it; it is the error
  of an extended message, and the machine goes on at the sync of the batch; or the response ends
  with a client error.

  * **`resume_move`** -- on a `Wf` machine `resume` runs into no fault and makes a `Move`;
  * **`Move.wf`** -- a move that asks for more leaves a `Wf` machine.

  What the later files say about whole responses they read off `Move`, never off the handlers.
-/
import NativePg.ReadResponse.Fsm

namespace NativePg

open ReadResponse

namespace ReadResponseFsm

/-! ## 1. Where the machine stands -/

/-- The states in which a request message can be: `msg_first` for all of them, the others for
    an execute or a query that has received part of its answer. -/
def holds : RequestMessageType → State → Bool
  | _, .msgFirst => true
  | .execute, .execCopyOut | .execute, .execCopyOutNeedsCommandComplete => true
  | .query, .queryFirst | .query, .queryNeedsReady | .query, .queryRows => true
  | .query, .queryCopyOut | .query, .queryCopyOutNeedsCommandComplete => true
  | _, _ => false

/-- **The machine stands inside an accepted request**: what remains of the request is not empty
    and has the shape `check_request` demands, and the state belongs to the first remaining
    message. -/
structure Wf (f : ReadResponseFsm) : Prop where
  batch : ∃ b, BatchOk b f.getRemainingMessages
  ne : f.getRemainingMessages ≠ []
  state : ∀ m rest, f.getRemainingMessages = m :: rest → holds m f.state = true

theorem Wf.init {req : Request} (h : req.Accepted) (allowCopy : Bool) :
    (readResponseFsm req allowCopy).Wf where
  batch := ⟨false, by simpa [readResponseFsm, getRemainingMessages] using h.batchOk⟩
  ne := by simpa [readResponseFsm, getRemainingMessages] using h.ne_nil
  state m _ _ := by cases m <;> rfl

/-- `f` stands `k` flushes before the message `m`, and `rest` follows. -/
structure Before (f : ReadResponseFsm) (k : Nat) (m : RequestMessageType)
    (rest : List RequestMessageType) : Prop where
  remaining : f.getRemainingMessages = List.replicate k .flush ++ m :: rest
  ne : m ≠ .flush

/-- What remains behind the message `n` places further on. -/
theorem remaining_drop (f : ReadResponseFsm) (n : Nat) :
    f.req.messages.drop (f.current + n) = f.getRemainingMessages.drop n := by
  simp [getRemainingMessages]

theorem length_eq (f : ReadResponseFsm) (h : f.getRemainingMessages ≠ []) :
    f.req.messages.length = f.current + f.getRemainingMessages.length := by
  have hlt : f.current < f.req.messages.length := by
    by_contra hc
    exact h (List.drop_eq_nil_of_le (by omega))
  rw [getRemainingMessages, List.length_drop]
  omega

/-- A machine moved to another index, in another state. -/
@[simp] theorem getRemainingMessages_set (f : ReadResponseFsm) (i : Nat) (s : State) :
    getRemainingMessages { f with current := i, state := s } = f.req.messages.drop i := rfl

theorem Before.drop {f : ReadResponseFsm} {k : Nat} {m : RequestMessageType}
    {rest : List RequestMessageType} (h : f.Before k m rest) :
    f.req.messages.drop (f.current + k) = m :: rest := by
  rw [remaining_drop, h.remaining, List.drop_left' (by simp)]

theorem Before.drop_succ {f : ReadResponseFsm} {k : Nat} {m : RequestMessageType}
    {rest : List RequestMessageType} (h : f.Before k m rest) :
    f.req.messages.drop (f.current + k + 1) = rest := by
  rw [← List.drop_drop, h.drop]
  rfl

theorem Before.length {f : ReadResponseFsm} {k : Nat} {m : RequestMessageType}
    {rest : List RequestMessageType} (h : f.Before k m rest) :
    f.req.messages.length = f.current + k + 1 + rest.length := by
  have hl := f.length_eq (by simp [h.remaining])
  simp only [h.remaining, List.length_append, List.length_replicate, List.length_cons] at hl
  omega

theorem batchOk_behind_flushes {m : RequestMessageType} {rest : List RequestMessageType} :
    ∀ (k : Nat) {b : Bool}, BatchOk b (List.replicate k .flush ++ m :: rest) →
      ∃ b', BatchOk b' (m :: rest)
  | 0, _, h => ⟨_, h⟩
  | k + 1, _, h => batchOk_behind_flushes k (h.tail_open rfl)

theorem Before.batch {f : ReadResponseFsm} {k : Nat} {m : RequestMessageType}
    {rest : List RequestMessageType} (h : f.Before k m rest) (hf : f.Wf) :
    ∃ b, BatchOk b (m :: rest) := by
  obtain ⟨b, hb⟩ := hf.batch
  rw [h.remaining] at hb
  exact batchOk_behind_flushes k hb

/-- Behind flushes the machine is in `msg_first`: a flush holds no other state. -/
theorem Before.state {f : ReadResponseFsm} {k : Nat} {m : RequestMessageType}
    {rest : List RequestMessageType} (h : f.Before k m rest) (hf : f.Wf) :
    holds m f.state = true := by
  cases k with
  | zero => exact hf.state m rest h.remaining
  | succ k =>
      have hs := hf.state .flush _ h.remaining
      have hfirst : f.state = .msgFirst := by
        revert hs
        cases f.state <;> simp [holds]
      rw [hfirst]
      cases m <;> rfl

/-- **The flush loop stays inside the request** and stops at the first other message. -/
theorem skipFlush_spec : ∀ (ms : List RequestMessageType) (b : Bool) (i : Nat),
    BatchOk b ms → ms ≠ [] →
    ∃ k m rest, ms = List.replicate k .flush ++ m :: rest ∧ m ≠ .flush ∧
      skipFlush ms i = some (m, i + k)
  | [], _, _, _, h => absurd rfl h
  | m :: ms, b, i, hb, _ => by
      by_cases hm : m = .flush
      · subst hm
        have hopen := hb.tail_open rfl
        obtain ⟨k, m, rest, rfl, hne, hs⟩ := skipFlush_spec ms true (i + 1) hopen hopen.ne_nil
        refine ⟨k + 1, m, rest, rfl, hne, ?_⟩
        rw [skipFlush, hs]
        congr 2
        omega
      · exact ⟨0, m, ms, rfl, hm, by cases m <;> first | rfl | exact absurd rfl hm⟩

theorem Wf.before {f : ReadResponseFsm} (hf : f.Wf) : ∃ k m rest, f.Before k m rest ∧
    skipFlush f.getRemainingMessages f.current = some (m, f.current + k) := by
  obtain ⟨b, hb⟩ := hf.batch
  obtain ⟨k, m, rest, hr, hne, hs⟩ := skipFlush_spec _ b f.current hb hf.ne
  exact ⟨k, m, rest, ⟨hr, hne⟩, hs⟩

/-! ## 2. The moves -/

/-- The calls the skipping loop makes for the messages from index `i` on. -/
def skippedCalls : List RequestMessageType → Nat → List Call
  | [], _ => []
  | .flush :: ms, i => skippedCalls ms (i + 1)
  | _ :: ms, i => ⟨.messageSkipped, i⟩ :: skippedCalls ms (i + 1)

/-- **The skipping loop finds the sync of its batch.** -/
theorem skipToSync_spec : ∀ (pre post : List RequestMessageType) (i : Nat),
    (∀ m ∈ pre, m.endsUnit = false) →
    skipToSync (pre ++ .sync :: post) i = some (i + pre.length, skippedCalls pre i)
  | [], _, _, _ => rfl
  | m :: pre, post, i, h => by
      have ih := skipToSync_spec pre post (i + 1) fun x hx => h x (List.mem_cons_of_mem _ hx)
      have hm := h m List.mem_cons_self
      have hi : i + 1 + pre.length = i + (m :: pre).length := by
        rw [List.length_cons]
        omega
      rw [hi] at ih
      cases m with
      | query | sync => cases hm
      | bind | close | describe | execute | flush | parse => simp [skipToSync, skippedCalls, ih]

/-- A message that leaves the request message `m` open: it takes the state to another one and
    is reported in the calls listed. -/
inductive Stays (allowCopy : Bool) :
    RequestMessageType → State → AnyBackendMessage → State → List AnyRequestMessage → Prop where
  | execRow (r : DataRow) :
      Stays allowCopy .execute .msgFirst (.dataRow r) .msgFirst [.dataRow r]
  | execCopyOut (m : CopyResponse) (h : allowCopy = true) :
      Stays allowCopy .execute .msgFirst (.copyOutResponse m) .execCopyOut [.rowDescription {}]
  | execCopyData (d : Bytes) : Stays allowCopy .execute .execCopyOut (.copyData d) .execCopyOut []
  | execCopyDone :
      Stays allowCopy .execute .execCopyOut .copyDone .execCopyOutNeedsCommandComplete []
  | queryCopyOut {s : State} (m : CopyResponse) (h : allowCopy = true)
      (hs : s = .msgFirst ∨ s = .queryFirst) :
      Stays allowCopy .query s (.copyOutResponse m) .queryCopyOut [.rowDescription {}]
  | queryRowDescription {s : State} (d : RowDescription) (hs : s = .msgFirst ∨ s = .queryFirst) :
      Stays allowCopy .query s (.rowDescription d) .queryRows [.rowDescription d]
  | queryBareComplete {s : State} (tag : Bytes) (hs : s = .msgFirst ∨ s = .queryFirst) :
      Stays allowCopy .query s (.commandComplete tag) .queryFirst
        [.rowDescription {}, .commandComplete tag]
  | queryEmpty :
      Stays allowCopy .query .msgFirst .emptyQueryResponse .queryNeedsReady [.emptyQueryResponse]
  | queryRow (r : DataRow) : Stays allowCopy .query .queryRows (.dataRow r) .queryRows [.dataRow r]
  | queryComplete {s : State} (tag : Bytes)
      (hs : s = .queryRows ∨ s = .queryCopyOutNeedsCommandComplete) :
      Stays allowCopy .query s (.commandComplete tag) .queryFirst [.commandComplete tag]
  | queryCopyData (d : Bytes) : Stays allowCopy .query .queryCopyOut (.copyData d) .queryCopyOut []
  | queryCopyDone :
      Stays allowCopy .query .queryCopyOut .copyDone .queryCopyOutNeedsCommandComplete []
  | queryError {s : State} (e : ErrorResponse) (hh : holds .query s = true)
      (hs : s ≠ .queryNeedsReady) :
      Stays allowCopy .query s (.errorResponse e) .queryNeedsReady [.errorResponse e]

/-- A message that finishes the request message `m`. -/
inductive Finishes :
    RequestMessageType → State → AnyBackendMessage → List AnyRequestMessage → Prop where
  | bind : Finishes .bind .msgFirst .bindComplete [.bindComplete]
  | close : Finishes .close .msgFirst .closeComplete [.closeComplete]
  | parse : Finishes .parse .msgFirst .parseComplete [.parseComplete]
  | describe (d : RowDescription) :
      Finishes .describe .msgFirst (.rowDescription d) [.rowDescription d]
  | describeNoData : Finishes .describe .msgFirst .noData [.rowDescription {}]
  | execute {s : State} (tag : Bytes)
      (hs : s = .msgFirst ∨ s = .execCopyOutNeedsCommandComplete) :
      Finishes .execute s (.commandComplete tag) [.commandComplete tag]
  | executeEmpty : Finishes .execute .msgFirst .emptyQueryResponse [.emptyQueryResponse]
  | executeSuspended : Finishes .execute .msgFirst .portalSuspended [.portalSuspended]
  | sync (t : TransactionStatus) : Finishes .sync .msgFirst (.readyForQuery t) []
  | query {s : State} (t : TransactionStatus) (hs : s = .queryFirst ∨ s = .queryNeedsReady) :
      Finishes .query s (.readyForQuery t) []

/-- The result behind a finished message: `done` at the request's end. -/
def resultBefore (rest : List RequestMessageType) : Result :=
  if rest.isEmpty then .done .success else .read

/-- **One step of the machine.** `k` counts the flushes stepped over, and the index of the
    request message the step belongs to is `f.current + k`. -/
inductive Move (f : ReadResponseFsm) (msg : AnyBackendMessage) : Reply → Prop where
  | async (h : msg.isAsync = true) : Move f msg ⟨f, .read, []⟩
  | stay {k : Nat} {m : RequestMessageType} {rest : List RequestMessageType} {s : State}
      {cs : List AnyRequestMessage} (hb : f.Before k m rest)
      (h : Stays f.allowCopy m f.state msg s cs) :
      Move f msg ⟨{ f with current := f.current + k, state := s }, .read,
        cs.map (⟨·, f.current + k⟩)⟩
  | finish {k : Nat} {m : RequestMessageType} {rest : List RequestMessageType}
      {cs : List AnyRequestMessage} (hb : f.Before k m rest) (h : Finishes m f.state msg cs) :
      Move f msg ⟨{ f with current := f.current + k + 1, state := .msgFirst }, resultBefore rest,
        cs.map (⟨·, f.current + k⟩)⟩
  | error {k : Nat} {m : RequestMessageType} {pre post : List RequestMessageType}
      (e : ErrorResponse) (hmsg : msg = .errorResponse e)
      (hb : f.Before k m (pre ++ .sync :: post)) (hm : m.isExtended = true)
      (hh : holds m f.state = true) (hpre : ∀ x ∈ pre, x.endsUnit = false) :
      Move f msg ⟨{ f with current := f.current + k + 1 + pre.length, state := .msgFirst }, .read,
        ⟨.errorResponse e, f.current + k⟩ :: skippedCalls pre (f.current + k + 1)⟩
  | reject (g : ReadResponseFsm) (e : ClientErrc) : Move f msg ⟨g, .done e.code, []⟩

/-! ## 3. `resume` makes a move -/

theorem advance_spec {g : ReadResponseFsm} {m : RequestMessageType}
    {rest : List RequestMessageType} (h : g.Before 0 m rest) (calls : List Call) :
    g.advance calls = .ok ⟨{ g with current := g.current + 1 }, resultBefore rest, calls⟩ := by
  have hl := h.length
  unfold advance resultBefore
  cases rest with
  | nil =>
      have hge : g.current + 1 ≥ g.req.messages.length := by
        rw [hl]
        simp
      simp [hge]
  | cons x rest =>
      have hlt : ¬ g.current + 1 ≥ g.req.messages.length := by
        rw [hl, List.length_cons]
        omega
      simp [hlt]

theorem handleError_spec {g : ReadResponseFsm} {m : RequestMessageType}
    {pre post : List RequestMessageType} (h : g.Before 0 m (pre ++ .sync :: post))
    (hpre : ∀ x ∈ pre, x.endsUnit = false) (e : ErrorResponse) :
    g.handleError e = .ok ⟨{ g with current := g.current + 1 + pre.length, state := .msgFirst },
      .read, ⟨.errorResponse e, g.current⟩ :: skippedCalls pre (g.current + 1)⟩ := by
  have hd := h.drop_succ
  rw [Nat.add_zero] at hd
  unfold handleError
  rw [hd, skipToSync_spec pre post _ hpre]
  rfl

section Handlers

variable {f g : ReadResponseFsm} {msg : AnyBackendMessage} {k : Nat}
  {rest : List RequestMessageType}

/-- `f` moved over its flushes. -/
def skipped (f : ReadResponseFsm) (k : Nat) : ReadResponseFsm :=
  { f with current := f.current + k }

theorem Before.skipped {m : RequestMessageType} (h : f.Before k m rest) :
    (f.skipped k).Before 0 m rest :=
  ⟨h.drop, h.ne⟩

theorem error_move {m : RequestMessageType} (h : f.Before k m rest) (hf : f.Wf)
    (hm : m.isExtended = true) (e : ErrorResponse) :
    ∃ r, (f.skipped k).handleError e = .ok r ∧ f.Move (.errorResponse e) r := by
  have hend : m.endsUnit = false := by cases m <;> first | rfl | cases hm
  obtain ⟨b, hb⟩ := h.batch hf
  obtain ⟨pre, post, rfl, hpre, _⟩ := (hb.tail_open hend).closes
  exact ⟨_, handleError_spec h.skipped hpre e, .error e rfl h hm (h.state hf) hpre⟩

theorem finish_move {m : RequestMessageType} (h : f.Before k m rest) {s : State}
    (hs : f.state = s) (cs : List AnyRequestMessage) (hfin : Finishes m s msg cs) :
    ∃ r, advance { f with current := f.current + k, state := .msgFirst }
      (cs.map (⟨·, f.current + k⟩)) = .ok r ∧ f.Move msg r := by
  have hb : Before { f with current := f.current + k, state := .msgFirst } 0 m rest :=
    ⟨h.drop, h.ne⟩
  subst hs
  exact ⟨_, advance_spec hb _, .finish h hfin⟩

/-- In `msg_first` the handlers advance the machine as it is. -/
theorem skipped_eq (hs : f.state = .msgFirst) :
    f.skipped k = { f with current := f.current + k, state := .msgFirst } := by
  rw [← hs]
  rfl

/-- The four handlers that share `handleSingle`. -/
theorem handleSingle_move {m : RequestMessageType}
    {completes : AnyBackendMessage → Option AnyRequestMessage} (h : f.Before k m rest) (hf : f.Wf)
    (hm : m.isExtended = true) (hs : f.state = .msgFirst)
    (hc : ∀ c, completes msg = some c → Finishes m .msgFirst msg [c]) :
    ∃ r, handleSingle completes (f.skipped k) msg = .ok r ∧ f.Move msg r := by
  have hs' : (f.skipped k).state = .msgFirst := hs
  unfold handleSingle
  rw [if_neg (not_not_intro hs')]
  split
  · exact error_move h hf hm _
  · split
    · rename_i c hcc
      rw [skipped_eq hs]
      exact finish_move h hs [c] (hc c hcc)
    · exact ⟨_, rfl, .reject _ _⟩

theorem handleExecute_move (h : f.Before k .execute rest) (hf : f.Wf) :
    ∃ r, (f.skipped k).handleExecute msg = .ok r ∧ f.Move msg r := by
  have hstate : (f.skipped k).state = f.state := rfl
  have hcopy : (f.skipped k).allowCopy = f.allowCopy := rfl
  unfold handleExecute
  split
  · rename_i hs
    rw [hstate] at hs
    split
    · split
      · rename_i hallow
        rw [hcopy] at hallow
        exact ⟨_, rfl, .stay h (hs ▸ .execCopyOut _ hallow)⟩
      · exact ⟨_, rfl, .reject _ _⟩
    · exact error_move h hf rfl _
    · rw [skipped_eq hs]
      exact finish_move h hs [.commandComplete _] (.execute _ (.inl rfl))
    · rw [skipped_eq hs]
      exact finish_move h hs [.emptyQueryResponse] .executeEmpty
    · rw [skipped_eq hs]
      exact finish_move h hs [.portalSuspended] .executeSuspended
    · refine ⟨_, rfl, .stay (s := f.state) h ?_⟩
      rw [hs]
      exact .execRow _
    · exact ⟨_, rfl, .reject _ _⟩
  · rename_i hs
    rw [hstate] at hs
    split
    · refine ⟨_, rfl, .stay (s := f.state) h ?_⟩
      rw [hs]
      exact .execCopyData _
    · exact error_move h hf rfl _
    · exact ⟨_, rfl, .stay h (hs ▸ .execCopyDone)⟩
    · exact ⟨_, rfl, .reject _ _⟩
  · rename_i hs
    rw [hstate] at hs
    split
    · exact error_move h hf rfl _
    · exact finish_move h hs [.commandComplete _] (.execute _ (.inr rfl))
    · exact ⟨_, rfl, .reject _ _⟩
  · exact ⟨_, rfl, .reject _ _⟩

theorem handleQueryFirst_move (h : f.Before k .query rest)
    (hs : f.state = .msgFirst ∨ f.state = .queryFirst) :
    ∃ r, (f.skipped k).handleQueryFirst msg = .ok r ∧ f.Move msg r := by
  have hstate : (f.skipped k).state = f.state := rfl
  have hcopy : (f.skipped k).allowCopy = f.allowCopy := rfl
  unfold handleQueryFirst
  split
  · split
    · rename_i hallow
      rw [hcopy] at hallow
      exact ⟨_, rfl, .stay h (.queryCopyOut _ hallow hs)⟩
    · exact ⟨_, rfl, .reject _ _⟩
  · refine ⟨_, rfl, .stay h (.queryError _ ?_ ?_)⟩
    · rcases hs with e | e <;> rw [e] <;> rfl
    · rcases hs with e | e <;> rw [e] <;> decide
  · exact ⟨_, rfl, .stay h (.queryRowDescription _ hs)⟩
  · exact ⟨_, rfl, .stay h (.queryBareComplete _ hs)⟩
  · split
    · exact ⟨_, rfl, .reject _ _⟩
    · rename_i hfirst
      have e : f.state = .msgFirst := not_not.mp hfirst
      refine ⟨_, rfl, .stay h ?_⟩
      rw [e]
      exact .queryEmpty
  · split
    · exact ⟨_, rfl, .reject _ _⟩
    · rename_i hfirst
      exact finish_move h (not_not.mp hfirst) [] (.query _ (.inl rfl))
  · exact ⟨_, rfl, .reject _ _⟩

theorem isReadyForQuery_iff {msg : AnyBackendMessage} (h : msg.isReadyForQuery = true) :
    ∃ t, msg = .readyForQuery t := by
  cases msg <;> first | exact ⟨_, rfl⟩ | cases h

theorem handleQuery_move (h : f.Before k .query rest) (hf : f.Wf) :
    ∃ r, (f.skipped k).handleQuery msg = .ok r ∧ f.Move msg r := by
  have hstate : (f.skipped k).state = f.state := rfl
  have hh := h.state hf
  unfold handleQuery
  split
  · exact handleQueryFirst_move h (.inl ‹_›)
  · exact handleQueryFirst_move h (.inr ‹_›)
  · rename_i hs
    rw [hstate] at hs
    split
    · exact ⟨_, rfl, .stay h (.queryError _ hh (by rw [hs]; decide))⟩
    · refine ⟨_, rfl, .stay (s := f.state) h ?_⟩
      rw [hs]
      exact .queryRow _
    · exact ⟨_, rfl, .stay h (.queryComplete _ (.inl hs))⟩
    · exact ⟨_, rfl, .reject _ _⟩
  · rename_i hs
    rw [hstate] at hs
    split
    · obtain ⟨t, rfl⟩ := isReadyForQuery_iff ‹_›
      exact finish_move h hs [] (.query t (.inr rfl))
    · exact ⟨_, rfl, .reject _ _⟩
  · rename_i hs
    rw [hstate] at hs
    split
    · refine ⟨_, rfl, .stay (s := f.state) h ?_⟩
      rw [hs]
      exact .queryCopyData _
    · exact ⟨_, rfl, .stay h (.queryError _ hh (by rw [hs]; decide))⟩
    · refine ⟨_, rfl, .stay h ?_⟩
      rw [hs]
      exact .queryCopyDone
    · exact ⟨_, rfl, .reject _ _⟩
  · rename_i hs
    rw [hstate] at hs
    split
    · exact ⟨_, rfl, .stay h (.queryError _ hh (by rw [hs]; decide))⟩
    · exact ⟨_, rfl, .stay h (.queryComplete _ (.inr hs))⟩
    · exact ⟨_, rfl, .reject _ _⟩
  -- a query is never in a state of an execute
  · rename_i hs
    rw [hstate] at hs
    rw [hs] at hh
    cases hh
  · rename_i hs
    rw [hstate] at hs
    rw [hs] at hh
    cases hh

theorem handleSync_move (h : f.Before k .sync rest) (hs : f.state = .msgFirst) :
    ∃ r, (f.skipped k).handleSync msg = .ok r ∧ f.Move msg r := by
  have hs' : (f.skipped k).state = .msgFirst := hs
  unfold handleSync
  rw [if_neg (not_not_intro hs')]
  split
  · obtain ⟨t, rfl⟩ := isReadyForQuery_iff ‹_›
    rw [skipped_eq hs]
    exact finish_move h hs [] (.sync t)
  · exact ⟨_, rfl, .reject _ _⟩

end Handlers

/-- A message that is no execute and no query is in `msg_first`. -/
theorem state_of_holds {m : RequestMessageType} {s : State} (h : holds m s = true)
    (hm : m ≠ .execute ∧ m ≠ .query) : s = .msgFirst := by
  obtain ⟨h1, h2⟩ := hm
  cases m with
  | execute => exact absurd rfl h1
  | query => exact absurd rfl h2
  | bind | close | describe | flush | parse | sync => cases s <;> first | rfl | cases h

/-- **Every step of a machine inside an accepted request is a move**, and no assertion fires and
    no index leaves the request on the way. -/
theorem resume_move {f : ReadResponseFsm} (hf : f.Wf) (msg : AnyBackendMessage) :
    ∃ r, f.resume msg = .ok r ∧ f.Move msg r := by
  unfold resume
  split
  · exact ⟨_, rfl, .async ‹_›⟩
  · obtain ⟨k, m, rest, hb, hskip⟩ := hf.before
    have hh := hb.state hf
    rw [hskip]
    show ∃ r, (f.skipped k).handle msg m = .ok r ∧ f.Move msg r
    cases m with
    | bind =>
        refine handleSingle_move hb hf rfl (state_of_holds hh (by decide)) fun c hc => ?_
        split at hc <;> cases hc
        exact .bind
    | close =>
        refine handleSingle_move hb hf rfl (state_of_holds hh (by decide)) fun c hc => ?_
        split at hc <;> cases hc
        exact .close
    | describe =>
        refine handleSingle_move hb hf rfl (state_of_holds hh (by decide)) fun c hc => ?_
        split at hc <;> cases hc
        · exact .describe _
        · exact .describeNoData
    | parse =>
        refine handleSingle_move hb hf rfl (state_of_holds hh (by decide)) fun c hc => ?_
        split at hc <;> cases hc
        exact .parse
    | execute => exact handleExecute_move hb hf
    | query => exact handleQuery_move hb hf
    | sync => exact handleSync_move hb (state_of_holds hh (by decide))
    | flush => exact absurd rfl hb.ne

/-! ## 4. Moves keep the machine inside the request -/

theorem Stays.holds {c : Bool} {m : RequestMessageType} {s s' : State} {msg : AnyBackendMessage}
    {cs : List AnyRequestMessage} (h : Stays c m s msg s' cs) :
    ReadResponseFsm.holds m s' = true := by
  cases h <;> rfl

/-- **A move that asks for more leaves the machine inside the request.** -/
theorem Move.wf {f : ReadResponseFsm} (hf : f.Wf) {msg : AnyBackendMessage} {r : Reply}
    (h : f.Move msg r) (hr : r.result = .read) : r.fsm.Wf := by
  cases h with
  | async _ => exact hf
  | stay hb h =>
      have hd := hb.drop
      refine ⟨?_, ?_, fun m' rest' hm' => ?_⟩
      · rw [getRemainingMessages_set, hd]
        exact hb.batch hf
      · rw [getRemainingMessages_set, hd]
        simp
      · rw [getRemainingMessages_set, hd] at hm'
        cases hm'
        exact h.holds
  | finish hb h =>
      have hd := hb.drop_succ
      obtain ⟨b, hbatch⟩ := hb.batch hf
      refine ⟨?_, ?_, fun m' rest' _ => by cases m' <;> rfl⟩
      · rw [getRemainingMessages_set, hd]
        exact hbatch.tail
      · rw [getRemainingMessages_set, hd]
        rintro rfl
        simp [resultBefore] at hr
  | @error k m pre post e hmsg hb hm hh hpre =>
      have hd : f.req.messages.drop (f.current + k + 1 + pre.length) = .sync :: post := by
        rw [← List.drop_drop, hb.drop_succ, List.drop_left]
      obtain ⟨b, hbatch⟩ := hb.batch hf
      obtain ⟨b', hrest⟩ := hbatch.tail
      refine ⟨?_, ?_, fun m' rest' _ => by cases m' <;> rfl⟩
      · rw [getRemainingMessages_set, hd]
        exact batchOk_suffix pre hrest
      · rw [getRemainingMessages_set, hd]
        simp
  | reject g e => cases hr

end ReadResponseFsm

end NativePg
