/-
  File:      NativePg/ReadResponse/Complete.lean
  Subject:   Completeness: the response machine reads every response of a conforming server to
             its end, and not further.

  * `Reads f msgs f'` -- `feed` reads all of `msgs` without finishing; it composes
    (`Reads.trans`), and async messages can be put in anywhere (`Reads.of_filter`);
  * `resume_stays`, `resume_finishes`, `resume_error` -- `resume` computed on a message that fits
    where the machine stands: the converse of `resume_move`;
  * **`feed_complete`** -- on every `Transcript` of an accepted request, with async messages put
    in anywhere, `resume` returns `read` for every message but the last that is not async, and
    `done` without error for that one.
-/
import NativePg.ReadResponse.Server

namespace NativePg

open ReadResponse

namespace ReadResponseFsm

/-! ## 1. Messages that are read -/

/-- All of `msgs` is read and the machine asks for more. -/
def Reads (f : ReadResponseFsm) (msgs : List AnyBackendMessage) (f' : ReadResponseFsm) : Prop :=
  ∃ cs, f.feed msgs = .ok ⟨f', cs, none, []⟩

theorem feed_cons {f : ReadResponseFsm} {msg : AnyBackendMessage} {r : Reply}
    (h : f.resume msg = .ok r) (hr : r.result = .read) (msgs : List AnyBackendMessage) :
    f.feed (msg :: msgs) = (r.fsm.feed msgs).map (Run.after r.calls) := by
  simp only [feed, h, hr]

/-- The first message of a list that is read. -/
theorem feed_cons_inv {f f' : ReadResponseFsm} {msg : AnyBackendMessage}
    {msgs : List AnyBackendMessage} {cs : List Call}
    (h : f.feed (msg :: msgs) = .ok ⟨f', cs, none, []⟩) :
    ∃ r cs', f.resume msg = .ok r ∧ r.result = .read ∧
      r.fsm.feed msgs = .ok ⟨f', cs', none, []⟩ ∧ cs = r.calls ++ cs' := by
  unfold feed at h
  split at h
  · cases h
  · rename_i r hr
    split at h
    · cases h
    · rename_i hres
      cases ht : r.fsm.feed msgs with
      | error e =>
          rw [ht] at h
          cases h
      | ok t =>
          rw [ht] at h
          obtain ⟨g, cs', fin, unread⟩ := t
          simp only [Except.map, Run.after, Except.ok.injEq, Run.mk.injEq] at h
          obtain ⟨rfl, rfl, rfl, rfl⟩ := h
          exact ⟨r, cs', hr, hres, ht, rfl⟩

theorem Run.after_after (cs cs' : List Call) (r : Run) :
    Run.after cs (Run.after cs' r) = Run.after (cs ++ cs') r := by
  simp [Run.after]

/-- **Behind messages that are read, `feed` goes on where they leave the machine.** -/
theorem feed_append : ∀ {msgs : List AnyBackendMessage} {f f' : ReadResponseFsm} {cs : List Call},
    f.feed msgs = .ok ⟨f', cs, none, []⟩ →
      ∀ msgs', f.feed (msgs ++ msgs') = (f'.feed msgs').map (Run.after cs)
  | [], f, _, _, h, msgs' => by
      cases h
      show f.feed msgs' = (f.feed msgs').map (Run.after [])
      cases f.feed msgs' <;> rfl
  | msg :: msgs, f, f', _, h, msgs' => by
      obtain ⟨r, cs', hr, hres, hrest, rfl⟩ := feed_cons_inv h
      rw [List.cons_append, feed_cons hr hres, feed_append hrest msgs']
      cases f'.feed msgs' with
      | error e => rfl
      | ok t => simp only [Except.map, Run.after_after]

theorem Reads.trans {f f' f'' : ReadResponseFsm} {msgs msgs' : List AnyBackendMessage}
    (h : f.Reads msgs f') (h' : f'.Reads msgs' f'') : f.Reads (msgs ++ msgs') f'' := by
  obtain ⟨cs, h⟩ := h
  obtain ⟨cs', h'⟩ := h'
  exact ⟨cs ++ cs', by rw [feed_append h, h']; rfl⟩

theorem Reads.nil (f : ReadResponseFsm) : f.Reads [] f := ⟨[], rfl⟩

theorem reads_of_resume {f : ReadResponseFsm} {msg : AnyBackendMessage} {r : Reply}
    (h : f.resume msg = .ok r) (hr : r.result = .read) : f.Reads [msg] r.fsm :=
  ⟨r.calls, by rw [feed_cons h hr]; simp [feed, Except.map, Run.after]⟩

theorem resume_async (f : ReadResponseFsm) {msg : AnyBackendMessage} (h : msg.isAsync = true) :
    f.resume msg = .ok ⟨f, .read, []⟩ := by
  simp [resume, h]

/-- A message sequence with its async messages removed. -/
def withoutAsync (msgs : List AnyBackendMessage) : List AnyBackendMessage :=
  msgs.filter fun m => !m.isAsync

/-- **Async messages can be put in anywhere.** -/
theorem Reads.of_filter : ∀ {msgs : List AnyBackendMessage} {f f' : ReadResponseFsm},
    f.Reads (withoutAsync msgs) f' → f.Reads msgs f'
  | [], _, _, h => h
  | msg :: msgs, f, f', h => by
      by_cases hm : msg.isAsync = true
      · have hfilter : withoutAsync (msg :: msgs) = withoutAsync msgs := by
          simp [withoutAsync, hm]
        rw [hfilter] at h
        exact (reads_of_resume (f.resume_async hm) rfl).trans h.of_filter
      · have hfilter : withoutAsync (msg :: msgs) = msg :: withoutAsync msgs := by
          simp [withoutAsync, hm]
        rw [hfilter] at h
        obtain ⟨cs, h⟩ := h
        obtain ⟨r, cs', hr, hres, hrest, _⟩ := feed_cons_inv h
        exact (reads_of_resume hr hres).trans (Reads.of_filter ⟨cs', hrest⟩)

/-! ## 2. `resume` on a message that fits -/

section Fits

variable {f : ReadResponseFsm} {k : Nat} {m : RequestMessageType}
  {rest : List RequestMessageType} {msg : AnyBackendMessage}

theorem skipFlush_replicate (hm : m ≠ .flush) :
    ∀ k i, skipFlush (List.replicate k .flush ++ m :: rest) i = some (m, i + k)
  | 0, i => by cases m <;> first | rfl | exact absurd rfl hm
  | k + 1, i => by
      show skipFlush (List.replicate k .flush ++ m :: rest) (i + 1) = _
      rw [skipFlush_replicate hm k (i + 1)]
      congr 2
      omega

theorem Before.resume (h : f.Before k m rest) (ha : msg.isAsync = false) :
    f.resume msg = (f.skipped k).handle msg m := by
  unfold ReadResponseFsm.resume
  rw [ha, h.remaining, skipFlush_replicate h.ne]
  rfl

theorem Before.unique {k' : Nat} {m' : RequestMessageType}
    {rest' : List RequestMessageType} (h : f.Before k m rest) (h' : f.Before k' m' rest') :
    k = k' ∧ m = m' ∧ rest = rest' := by
  have heq := h.remaining.symm.trans h'.remaining
  have hskip : skipFlush (List.replicate k .flush ++ m :: rest) 0 = some (m, 0 + k) :=
    skipFlush_replicate h.ne k 0
  rw [heq, skipFlush_replicate h'.ne] at hskip
  simp only [Option.some.injEq, Prod.mk.injEq] at hskip
  obtain ⟨rfl, hk⟩ := hskip
  obtain rfl : k' = k := by omega
  have := List.append_cancel_left heq
  exact ⟨rfl, rfl, (List.cons.inj this).2⟩

/-- A message the grammar of some request message knows is not async. -/
theorem Stays.not_async {c : Bool} {s s' : State} {cs : List AnyRequestMessage}
    (h : Stays c m s msg s' cs) : msg.isAsync = false := by
  cases h <;> rfl

theorem Finishes.not_async {s : State} {cs : List AnyRequestMessage}
    (h : Finishes m s msg cs) : msg.isAsync = false := by
  cases h <;> rfl

theorem resume_stays {s : State} {cs : List AnyRequestMessage} (h : f.Before k m rest)
    (hs : Stays f.allowCopy m f.state msg s cs) :
    f.resume msg = .ok ⟨{ f with current := f.current + k, state := s }, .read,
      cs.map (⟨·, f.current + k⟩)⟩ := by
  rw [h.resume hs.not_async]
  obtain ⟨req, allowCopy, current, state⟩ := f
  simp only at hs
  cases hs with
  | execRow | execCopyOut _ hc | execCopyData | execCopyDone =>
      simp_all [skipped, handle, handleExecute, stay, callHandler]
  | queryCopyOut _ hc hs =>
      rcases hs with rfl | rfl <;>
        simp_all [skipped, handle, handleQuery, handleQueryFirst, stay, callHandler]
  | queryRowDescription _ hs | queryBareComplete _ hs =>
      rcases hs with rfl | rfl <;>
        simp_all [skipped, handle, handleQuery, handleQueryFirst, stay, callHandler]
  | queryComplete _ hs =>
      rcases hs with rfl | rfl <;> simp_all [skipped, handle, handleQuery, stay, callHandler]
  | queryEmpty => simp_all [skipped, handle, handleQuery, handleQueryFirst, stay, callHandler]
  | queryRow | queryCopyData | queryCopyDone =>
      simp_all [skipped, handle, handleQuery, stay, callHandler]
  | queryError e hh hs =>
      cases state <;> simp_all [skipped, handle, handleQuery, handleQueryFirst, stay, callHandler,
        holds]

/-- Behind its last message the machine advances, in `msg_first` again. -/
theorem advance_skipped (h : f.Before k m rest) (calls : List Call) :
    advance { f.skipped k with state := .msgFirst } calls =
      .ok ⟨{ f with current := f.current + k + 1, state := .msgFirst }, resultBefore rest,
        calls⟩ :=
  advance_spec (g := { f.skipped k with state := .msgFirst }) ⟨h.drop, h.ne⟩ calls

theorem resume_finishes {cs : List AnyRequestMessage} (h : f.Before k m rest)
    (hs : Finishes m f.state msg cs) :
    f.resume msg = .ok ⟨{ f with current := f.current + k + 1, state := .msgFirst },
      resultBefore rest, cs.map (⟨·, f.current + k⟩)⟩ := by
  have hadv := fun calls => advance_skipped h calls
  rw [h.resume hs.not_async]
  obtain ⟨req, allowCopy, current, state⟩ := f
  simp only at hs
  cases hs with
  | bind | close | parse | describe | describeNoData =>
      simpa [skipped, handle, handleBind, handleClose, handleParse, handleDescribe, handleSingle,
        callHandler] using hadv _
  | execute tag hs =>
      rcases hs with rfl | rfl <;>
        simpa [skipped, handle, handleExecute, callHandler] using hadv _
  | executeEmpty | executeSuspended =>
      simpa [skipped, handle, handleExecute, callHandler] using hadv _
  | sync t => simpa [skipped, handle, handleSync, AnyBackendMessage.isReadyForQuery] using hadv []
  | query t hs =>
      rcases hs with rfl | rfl <;>
        simpa [skipped, handle, handleQuery, handleQueryFirst,
          AnyBackendMessage.isReadyForQuery] using hadv []

/-- The error of an extended message, in any state that message can be in. -/
theorem resume_error {pre post : List RequestMessageType} (e : ErrorResponse)
    (h : f.Before k m (pre ++ .sync :: post)) (hm : m.isExtended = true)
    (hh : holds m f.state = true) (hpre : ∀ x ∈ pre, x.endsUnit = false) :
    f.resume (.errorResponse e) =
      .ok ⟨{ f with current := f.current + k + 1 + pre.length, state := .msgFirst }, .read,
        ⟨.errorResponse e, f.current + k⟩ :: skippedCalls pre (f.current + k + 1)⟩ := by
  rw [h.resume rfl]
  have herr : (f.skipped k).handleError e =
      .ok ⟨{ f with current := f.current + k + 1 + pre.length, state := .msgFirst }, .read,
        ⟨.errorResponse e, f.current + k⟩ :: skippedCalls pre (f.current + k + 1)⟩ :=
    handleError_spec h.skipped hpre e
  have hstate : (f.skipped k).state = f.state := rfl
  cases m with
  | bind | close | parse | describe =>
      have hs : f.state = .msgFirst := state_of_holds hh (by decide)
      simpa [handle, handleBind, handleClose, handleParse, handleDescribe, handleSingle, hstate,
        hs] using herr
  | execute =>
      show (f.skipped k).handleExecute (.errorResponse e) = _
      unfold handleExecute
      rw [hstate]
      cases hs : f.state <;> rw [hs] at hh <;> first | exact herr | cases hh
  | flush | query | sync => cases hm

end Fits

/-! ## 3. Reading along the grammar -/

/-- The machine stands, in `msg_first`, before the request messages `ms`, possibly with flushes
    in between. -/
structure At (f : ReadResponseFsm) (ms : List RequestMessageType) : Prop where
  remaining : ∃ k, f.getRemainingMessages = List.replicate k .flush ++ ms
  state : f.state = .msgFirst

theorem At.before {f : ReadResponseFsm} {m : RequestMessageType} {ms : List RequestMessageType}
    (h : f.At (m :: ms)) (hm : m ≠ .flush) : ∃ k, f.Before k m ms := by
  obtain ⟨k, hk⟩ := h.remaining
  exact ⟨k, hk, hm⟩

theorem At.flush {f : ReadResponseFsm} {ms : List RequestMessageType} (h : f.At (.flush :: ms)) :
    f.At ms := by
  obtain ⟨k, hk⟩ := h.remaining
  refine ⟨⟨k + 1, ?_⟩, h.state⟩
  rw [hk, List.replicate_succ', List.append_assoc]
  rfl

/-- **A partial answer is read** and leaves the machine before the same message, in the state the
    answer has come to. -/
theorem Open.reads {c : Bool} {m : RequestMessageType} {p : List AnyBackendMessage} {s : State}
    (h : Open c m p s) {f : ReadResponseFsm} {rest : List RequestMessageType} (hc : f.allowCopy = c)
    (hat : f.At (m :: rest)) (hm : m ≠ .flush) :
    ∃ f' k, f.Reads p f' ∧ f'.Before k m rest ∧ f'.state = s ∧ f'.allowCopy = c := by
  induction h with
  | start =>
      obtain ⟨k, hk⟩ := hat.before hm
      exact ⟨f, k, .nil f, hk, hat.state, hc⟩
  | step _ hs ih =>
      obtain ⟨f', k, hreads, hb, rfl, rfl⟩ := ih
      have hstep := reads_of_resume (resume_stays hb hs) rfl
      exact ⟨_, 0, hreads.trans hstep, ⟨hb.drop, hb.ne⟩, rfl, rfl⟩

/-- A list of messages that ends the response without error, exactly at its last message. -/
def Completes (f : ReadResponseFsm) (msgs : List AnyBackendMessage) : Prop :=
  ∃ pre last f' r, msgs = pre ++ [last] ∧ last.isAsync = false ∧ f.Reads pre f' ∧
    f'.resume last = .ok r ∧ r.result = .done .success

theorem Reads.completes {f f' : ReadResponseFsm} {msgs msgs' : List AnyBackendMessage}
    (h : f.Reads msgs f') (h' : f'.Completes msgs') : f.Completes (msgs ++ msgs') := by
  obtain ⟨pre, last, f'', r, rfl, ha, hpre, hr⟩ := h'
  exact ⟨msgs ++ pre, last, f'', r, by simp, ha, h.trans hpre, hr⟩

/-- **Behind a message that finishes a request message** the response is over, or goes on with the
    messages that follow. -/
theorem completes_finish {f : ReadResponseFsm} {k : Nat} {m : RequestMessageType}
    {rest : List RequestMessageType} {msg : AnyBackendMessage} {cs : List AnyRequestMessage}
    {t : List AnyBackendMessage} (hb : f.Before k m rest) (hfin : Finishes m f.state msg cs)
    (hnil : rest = [] → t = [])
    (hrest : ∀ f' : ReadResponseFsm, f'.allowCopy = f.allowCopy → rest ≠ [] → f'.At rest →
      f'.Completes t) : f.Completes (msg :: t) := by
  have hres := resume_finishes hb hfin
  by_cases hr : rest = []
  · rw [hnil hr]
    refine ⟨[], msg, f, _, rfl, hfin.not_async, .nil f, hres, ?_⟩
    simp [resultBefore, hr]
  · have hread : resultBefore rest = .read := by simp [resultBefore, hr]
    have hone := reads_of_resume hres hread
    exact hone.completes (hrest _ rfl hr ⟨⟨0, hb.drop_succ⟩, rfl⟩)

theorem dropWhile_sync {pre post : List RequestMessageType}
    (h : ∀ x ∈ pre, x.endsUnit = false) :
    (pre ++ .sync :: post).dropWhile (· ≠ .sync) = .sync :: post := by
  rw [List.dropWhile_append_of_pos]
  · simp
  · intro x hx
    have := h x hx
    cases x <;> first | rfl | cases this

theorem transcript_nil {c : Bool} {t : List AnyBackendMessage} (h : Transcript c [] t) : t = [] := by
  cases h
  rfl

/-- **Every transcript is read to its end.** The induction is over the transcript; `At` carries the
    flushes the machine has not stepped over yet. -/
theorem Transcript.completes {c : Bool} {ms : List RequestMessageType}
    {t : List AnyBackendMessage} (h : Transcript c ms t) :
    ∀ {f : ReadResponseFsm} {b : Bool}, f.allowCopy = c → BatchOk b ms → ms ≠ [] → f.At ms →
      f.Completes t := by
  induction h with
  | nil => exact fun _ _ hne _ => absurd rfl hne
  | flush h ih =>
      intro f b hc hb _ hat
      have hopen := hb.tail_open rfl
      exact ih hc hopen hopen.ne_nil hat.flush
  | @sync rest t status h ih =>
      intro f b hc hb _ hat
      obtain ⟨k, hk⟩ := hat.before (by decide)
      obtain ⟨b', hb'⟩ := hb.tail
      have hfin : Finishes .sync f.state (.readyForQuery status) [] := by
        rw [hat.state]
        exact .sync status
      refine completes_finish hk hfin ?_ fun f' hc' hne hat' => ?_
      · rintro rfl
        exact transcript_nil h
      · exact ih (hc'.trans hc) hb' hne hat'
  | @answered m rest a t hm ha h ih =>
      intro f b hc hb _ hat
      have hflush : m ≠ .flush := by rintro rfl; cases hm
      have hend : m.endsUnit = false := by cases m <;> first | rfl | cases hm
      have hopen := hb.tail_open hend
      obtain ⟨p, last, s, cs, rfl, hp, hfin⟩ := ha.open_ hm
      obtain ⟨f', k, hreads, hb', rfl, hc'⟩ := hp.reads hc hat hflush
      rw [List.append_assoc]
      refine hreads.completes (completes_finish hb' hfin ?_ fun f'' hc'' hne hat' => ?_)
      · exact fun hnil => absurd hnil hopen.ne_nil
      · exact ih (hc''.trans hc') hopen hne hat'
  | @failed m rest a t hm ha h ih =>
      intro f b hc hb _ hat
      have hflush : m ≠ .flush := by rintro rfl; cases hm
      have hend : m.endsUnit = false := by cases m <;> first | rfl | cases hm
      obtain ⟨pre, post, rfl, hpre, hpost⟩ := (hb.tail_open hend).closes
      obtain ⟨p, e, s, rfl, hp, _⟩ := ha.open_ (.inl hm)
      obtain ⟨f', k, hreads, hb', rfl, hc'⟩ := hp.reads hc hat hflush
      rw [dropWhile_sync hpre] at ih
      have hdrop : f'.req.messages.drop (f'.current + k + 1 + pre.length) = .sync :: post := by
        rw [← List.drop_drop, hb'.drop_succ, List.drop_left]
      have herr := reads_of_resume (resume_error e hb' hm hp.holds hpre) rfl
      exact (hreads.trans herr).completes
        (ih hc' (.sync (b := false) hpost) (by simp) ⟨⟨0, hdrop⟩, rfl⟩)
  | @query rest a t ha status h ih =>
      intro f b hc hb _ hat
      obtain ⟨b', hb'⟩ := hb.tail
      -- whether it is whole or cut, the answer leaves the query waiting for ReadyForQuery
      have hopen : ∃ s, Open c .query a s ∧ (s = .queryFirst ∨ s = .queryNeedsReady) := by
        rcases ha with ha | ha
        · exact ha.open_query
        · obtain ⟨p, e, s, rfl, hp, hs⟩ := ha.open_ (.inr rfl)
          exact ⟨_, hp.step (.queryError e hp.holds hs), .inr rfl⟩
      obtain ⟨s, hp, hs⟩ := hopen
      obtain ⟨f', k, hreads, hbefore, rfl, hc'⟩ := hp.reads hc hat (by decide)
      refine hreads.completes (completes_finish hbefore (.query status hs) ?_
        fun f'' hc'' hne hat' => ?_)
      · rintro rfl
        exact transcript_nil h
      · exact ih (hc''.trans hc') hb' hne hat'

/-- **The response machine is complete.** A response of a conforming server to an accepted request,
    with async messages put in anywhere, is read to its end: `resume` returns `read` for every
    message before the last that is not async, `done` without error for that one, and `read` again
    for the async messages behind it. -/
theorem feed_complete {req : Request} (h : req.Accepted) (allowCopy : Bool)
    {msgs : List AnyBackendMessage} (ht : Transcript allowCopy req.messages (withoutAsync msgs)) :
    ∃ pre last post f' r, msgs = pre ++ last :: post ∧ last.isAsync = false ∧
      (∀ m ∈ post, m.isAsync = true) ∧
      (readResponseFsm req allowCopy).Reads pre f' ∧
      f'.resume last = .ok r ∧ r.result = .done .success ∧
      ∀ m ∈ post, r.fsm.resume m = .ok ⟨r.fsm, .read, []⟩ := by
  have hat : (readResponseFsm req allowCopy).At req.messages := ⟨⟨0, rfl⟩, rfl⟩
  obtain ⟨pre, last, f', r, hsplit, ha, hreads, hr, hdone⟩ :=
    Transcript.completes ht rfl h.batchOk h.ne_nil hat
  obtain ⟨pre', rest, rfl, hpre', hrest⟩ := List.filter_eq_append_iff.mp hsplit
  obtain ⟨mid, post, rfl, hmid, _, hpost⟩ := List.filter_eq_cons_iff.mp hrest
  have hasync : ∀ m ∈ post, m.isAsync = true := by
    intro m hm
    have := List.filter_eq_nil_iff.mp hpost m hm
    simpa using this
  refine ⟨pre' ++ mid, last, post, f', r, by simp, ha, hasync, ?_, hr, hdone,
    fun m hm => r.fsm.resume_async (hasync m hm)⟩
  refine Reads.of_filter ?_
  have hmid' : withoutAsync mid = [] := List.filter_eq_nil_iff.mpr hmid
  have hfilter : withoutAsync (pre' ++ mid) = pre := by
    rw [withoutAsync, List.filter_append, hpre']
    exact (congrArg (pre ++ ·) hmid').trans (List.append_nil pre)
  rw [hfilter]
  exact hreads

/-- A batch with a flush whose describe fails, with a notice in between: the execute is skipped. -/
theorem feed_complete_failed_describe :
    ∃ pre last post f' r,
      [.bindComplete, .noticeResponse {}, .errorResponse {}, .readyForQuery .idle] =
        pre ++ last :: post ∧ last.isAsync = false ∧ (∀ m ∈ post, m.isAsync = true) ∧
      (readResponseFsm { messages := [.bind, .describe, .flush, .execute, .sync] }).Reads pre f' ∧
      f'.resume last = .ok r ∧ r.result = .done .success ∧
      ∀ m ∈ post, r.fsm.resume m = .ok ⟨r.fsm, .read, []⟩ :=
  feed_complete
    (show ({ messages := [.bind, .describe, .flush, .execute, .sync] } : Request).Accepted
      by decide)
    false
    (.answered rfl .bind (.failed rfl ⟨[], [.noData], {}, by simp, .describeNoData, rfl⟩
      (.sync .idle .nil)))

end ReadResponseFsm

end NativePg
