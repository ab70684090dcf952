/-
  File:      NativePg/ReadResponse/Answers.lean
  Subject:   The handler calls of a response, as exactly as the machine determines them.

  * `feed_extends` -- a response that was broken off, or that the machine has rejected, has made the
    first calls of one that ends without error. What is said of the calls of complete responses
    holds, up to their end, of all;
  * `Heard` -- the calls of a request message that is still open, by the machine's state;
  * `Replied` -- all the calls of one request message;
  * `Answered` -- the calls of a run of request messages. The flags before and behind it say whether
    the batch has failed;
  * **`feed_answered`** -- the calls of a response that ends without error are `Answered`.
-/
import NativePg.ReadResponse.Complete

namespace NativePg

open ReadResponse AnyRequestMessage

namespace AnyRequestMessage

def isError : AnyRequestMessage → Bool
  | .errorResponse _ => true
  | _ => false

end AnyRequestMessage

/-! ## 1. Every response can be completed -/

/-- There is an answer to everything. -/
theorem exists_transcript (c : Bool) : ∀ ms : List RequestMessageType, ∃ t, Transcript c ms t
  | [] => ⟨_, .nil⟩
  | m :: ms => by
      obtain ⟨t, ht⟩ := exists_transcript c ms
      cases m with
      | flush => exact ⟨t, .flush ht⟩
      | sync => exact ⟨_, .sync .idle ht⟩
      | query => exact ⟨_, .query (.inl .queryEmpty) .idle ht⟩
      | bind => exact ⟨_, .answered rfl .bind ht⟩
      | close => exact ⟨_, .answered rfl .close ht⟩
      | parse => exact ⟨_, .answered rfl .parse ht⟩
      | describe => exact ⟨_, .answered rfl .describeNoData ht⟩
      | execute => exact ⟨_, .answered rfl .executeEmpty ht⟩

namespace ReadResponseFsm

/-- A message that finishes the current one, and an answer to the rest. -/
theorem completes_of_finishes {f : ReadResponseFsm} (hf : f.Wf) {k : Nat} {m : RequestMessageType}
    {rest : List RequestMessageType} (hb : f.Before k m rest) {msg : AnyBackendMessage}
    {cs : List AnyRequestMessage} (hfin : Finishes m f.state msg cs) : ∃ t, f.Completes t := by
  obtain ⟨b, hbatch⟩ := hb.batch hf
  obtain ⟨b', hrest⟩ := hbatch.tail
  obtain ⟨t, ht⟩ := exists_transcript f.allowCopy rest
  refine ⟨msg :: t, completes_finish hb hfin ?_ fun f' hc hne hat => ?_⟩
  · rintro rfl
    exact transcript_nil ht
  · exact Transcript.completes ht hc hrest hne hat

/-- A message that leaves the current one open, before one that completes the response. -/
theorem completes_of_stays {f : ReadResponseFsm} (hf : f.Wf) {k : Nat} {m : RequestMessageType}
    {rest : List RequestMessageType} (hb : f.Before k m rest) {msg : AnyBackendMessage} {s : State}
    {cs : List AnyRequestMessage} (hstay : Stays f.allowCopy m f.state msg s cs)
    (h : ∀ f' : ReadResponseFsm, f'.Wf → f'.state = s → f'.allowCopy = f.allowCopy →
      f'.Before 0 m rest → ∃ t, f'.Completes t) : ∃ t, f.Completes t := by
  have hstep := resume_stays hb hstay
  have hwf := Move.wf hf (.stay hb hstay) rfl
  obtain ⟨t, ht⟩ := h _ hwf rfl rfl ⟨hb.drop, hb.ne⟩
  exact ⟨_, (reads_of_resume hstep rfl).completes ht⟩

/-- **From wherever the machine stands the response can be completed.** -/
theorem Wf.completes {f : ReadResponseFsm} (hf : f.Wf) : ∃ t, f.Completes t := by
  obtain ⟨k, m, rest, hb, _⟩ := hf.before
  have hh := hb.state hf
  -- a query that waits for its ReadyForQuery, or for the next statement's answer
  have hready : ∀ {f : ReadResponseFsm} {k rest}, f.Wf → f.Before k .query rest →
      f.state = .queryFirst ∨ f.state = .queryNeedsReady → ∃ t, f.Completes t :=
    fun hf hb hs => completes_of_finishes hf hb (.query .idle hs)
  have hcomplete : ∀ {f : ReadResponseFsm} {k rest}, f.Wf → f.Before k .query rest →
      f.state = .queryRows ∨ f.state = .queryCopyOutNeedsCommandComplete →
      ∃ t, f.Completes t :=
    fun hf hb hs => completes_of_stays hf hb (.queryComplete [] hs) fun _ hf' hs' _ hb' =>
      hready hf' hb' (.inl hs')
  cases hs : f.state with
  | msgFirst =>
    obtain ⟨t, ht⟩ := exists_transcript f.allowCopy (m :: rest)
    obtain ⟨b, hbatch⟩ := hb.batch hf
    exact ⟨t, Transcript.completes ht rfl hbatch (by simp) ⟨⟨k, hb.remaining⟩, hs⟩⟩
  | execCopyOut =>
    rw [hs] at hh
    cases m <;> cases hh
    have hstay : Stays f.allowCopy .execute f.state .copyDone
        .execCopyOutNeedsCommandComplete [] := by
      rw [hs]
      exact .execCopyDone
    refine completes_of_stays hf hb hstay fun _ hf' hs' _ hb' => ?_
    exact completes_of_finishes hf' hb' (.execute [] (.inr hs'))
  | execCopyOutNeedsCommandComplete =>
    rw [hs] at hh
    cases m <;> cases hh
    exact completes_of_finishes hf hb (.execute [] (.inr hs))
  | queryFirst =>
    rw [hs] at hh
    cases m <;> cases hh
    exact hready hf hb (.inl hs)
  | queryNeedsReady =>
    rw [hs] at hh
    cases m <;> cases hh
    exact hready hf hb (.inr hs)
  | queryRows =>
    rw [hs] at hh
    cases m <;> cases hh
    exact hcomplete hf hb (.inl hs)
  | queryCopyOut =>
    rw [hs] at hh
    cases m <;> cases hh
    have hstay : Stays f.allowCopy .query f.state .copyDone
        .queryCopyOutNeedsCommandComplete [] := by
      rw [hs]
      exact .queryCopyDone
    exact completes_of_stays hf hb hstay fun _ hf' hs' _ hb' => hcomplete hf' hb' (.inr hs')
  | queryCopyOutNeedsCommandComplete =>
    rw [hs] at hh
    cases m <;> cases hh
    exact hcomplete hf hb (.inr hs)

theorem Completes.feed {f : ReadResponseFsm} {msgs : List AnyBackendMessage}
    (h : f.Completes msgs) : ∃ r, f.feed msgs = .ok r ∧ r.finished = some .success := by
  obtain ⟨pre, last, f', r, rfl, -, ⟨cs, hpre⟩, hr, hres⟩ := h
  refine ⟨Run.after cs ⟨r.fsm, r.calls, some .success, []⟩, ?_, rfl⟩
  rw [feed_append hpre]
  unfold ReadResponseFsm.feed
  simp only [hr, hres]
  rfl

/-- **Whatever the messages, the calls are the first of a response that ends without error.** -/
theorem feed_extends : ∀ {msgs : List AnyBackendMessage} {f : ReadResponseFsm} {r : Run}, f.Wf →
    f.feed msgs = .ok r →
    ∃ msgs' r', f.feed msgs' = .ok r' ∧ r'.finished = some .success ∧ r.calls <+: r'.calls
  | [], f, r, hf, hr => by
      cases hr
      obtain ⟨t, ht⟩ := hf.completes
      obtain ⟨r, hr, hfin⟩ := ht.feed
      exact ⟨t, r, hr, hfin, List.nil_prefix⟩
  | msg :: msgs, f, r, hf, hr => by
      obtain ⟨reply, hreply, hmove⟩ := resume_move hf msg
      cases hres : reply.result with
      | done ec =>
          have hfeed : ∀ msgs, f.feed (msg :: msgs) = .ok ⟨reply.fsm, reply.calls, some ec, msgs⟩ := by
            intro msgs
            simp only [ReadResponseFsm.feed, hreply, hres]
          rw [hfeed] at hr
          cases hr
          by_cases hec : ec = .success
          · subst hec
            exact ⟨_, _, hfeed [], rfl, List.prefix_rfl⟩
          · -- the machine has rejected the message
            have hcalls : reply.calls = [] := by
              cases hmove with
              | async _ | stay _ _ | error _ _ _ _ _ _ => cases hres
              | @finish _ _ rest _ _ _ =>
                  unfold resultBefore at hres
                  split at hres
                  · cases hres
                    exact absurd rfl hec
                  · cases hres
              | reject g e => rfl
            obtain ⟨t, ht⟩ := hf.completes
            obtain ⟨r, hr, hfin⟩ := ht.feed
            exact ⟨t, r, hr, hfin, hcalls ▸ List.nil_prefix⟩
      | read =>
          rw [feed_cons hreply hres] at hr
          cases ht : reply.fsm.feed msgs with
          | error e =>
              rw [ht] at hr
              cases hr
          | ok t =>
              rw [ht] at hr
              cases hr
              obtain ⟨msgs', r', hr', hfin, hpre⟩ := feed_extends (hmove.wf hf hres) ht
              refine ⟨msg :: msgs', r'.after reply.calls, ?_, hfin, ?_⟩
              · rw [feed_cons hreply hres, hr']
                rfl
              · exact (List.prefix_append_right_inj reply.calls).mpr hpre

/-! ## 2. The calls of one request message -/

/-- The calls `xs` of a request message that is still open, in the state `s`. -/
inductive Heard (allowCopy : Bool) (m : RequestMessageType) :
    State → List AnyRequestMessage → Prop where
  | nil : Heard allowCopy m .msgFirst []
  | stays {s xs msg s' cs} (h : Heard allowCopy m s xs) (hs : Stays allowCopy m s msg s' cs) :
      Heard allowCopy m s' (xs ++ cs)

/-- **All the calls of a request message**: of a flush there is none, and of an extended message
    whose batch has failed that it was skipped; any other is finished by the server, or, where it is
    an extended message, cut by an ErrorResponse. -/
inductive Replied (allowCopy : Bool) :
    Bool → RequestMessageType → List AnyRequestMessage → Prop where
  | flush {failed} : Replied allowCopy failed .flush []
  | skipped {m} (hm : m.isExtended = true) : Replied allowCopy true m [.messageSkipped]
  | finished {failed m s msg xs cs} (hfailed : failed = true → m = .sync)
      (h : Heard allowCopy m s xs) (hfin : Finishes m s msg cs) :
      Replied allowCopy failed m (xs ++ cs)
  | cut {m s xs} (e : ErrorResponse) (hm : m.isExtended = true) (h : Heard allowCopy m s xs) :
      Replied allowCopy false m (xs ++ [.errorResponse e])

/-- An extended message that is open has reported no error. -/
theorem Heard.any_isError {c : Bool} {m : RequestMessageType} {s : State}
    {xs : List AnyRequestMessage} (h : Heard c m s xs) (hm : m.isExtended = true) :
    xs.any isError = false := by
  induction h with
  | nil => rfl
  | stays _ hs ih =>
      rw [List.any_append, ih]
      cases hs with
      | execRow | execCopyOut | execCopyData | execCopyDone => rfl
      | _ => cases hm

/-- A message that the server finishes leaves no failed batch. -/
theorem Heard.not_failed {c : Bool} {m : RequestMessageType} {s : State} {msg : AnyBackendMessage}
    {xs cs : List AnyRequestMessage} (h : Heard c m s xs) (hfin : Finishes m s msg cs) :
    ((xs ++ cs).any isError && !m.endsUnit) = false := by
  by_cases hm : m.isExtended = true
  · rw [List.any_append, h.any_isError hm]
    cases hfin <;> rfl
  · cases hfin with
    | sync | query => exact Bool.and_false _
    | _ => exact absurd rfl hm

end ReadResponseFsm

open ReadResponseFsm AnyRequestMessage

/-! ## 3. The calls of a request -/

/-- **The calls of a run of request messages**, the first of which has the index `i`: from one flag
    to the other, each of which says that an ErrorResponse was reported in the batch so far. -/
inductive Answered (allowCopy : Bool) :
    Bool → Nat → List RequestMessageType → List Call → Bool → Prop where
  | nil {failed i} : Answered allowCopy failed i [] [] failed
  | cons {failed failed' i m ms xs cs} (h : Replied allowCopy failed m xs)
      (hrest : Answered allowCopy ((failed || xs.any isError) && !m.endsUnit) (i + 1) ms cs
        failed') :
      Answered allowCopy failed i (m :: ms) (xs.map (⟨·, i⟩) ++ cs) failed'

namespace Answered

variable {c : Bool} {failed failed' : Bool} {i : Nat} {m : RequestMessageType}
  {ms ms' : List RequestMessageType} {cs : List Call}

/-- A message without calls. -/
theorem silent (h : Replied c failed m []) (hrest : Answered c (failed && !m.endsUnit) (i + 1) ms cs
    failed') : Answered c failed i (m :: ms) cs failed' := by
  have hcons : Answered c failed i (m :: ms) (([] : List AnyRequestMessage).map (⟨·, i⟩) ++ cs)
      failed' := .cons h (by simpa using hrest)
  exact hcons

theorem flushes : ∀ (k i : Nat), Answered c failed (i + k) ms cs failed' →
    Answered c failed i (List.replicate k .flush ++ ms) cs failed'
  | 0, _, h => h
  | k + 1, i, h => by
      have hi : i + (k + 1) = i + 1 + k := by omega
      rw [hi] at h
      have hrest := flushes k (i + 1) h
      exact .silent .flush (by simpa [RequestMessageType.endsUnit] using hrest)

/-- A sync ends a failed batch as it ends any other. -/
theorem sync (h : Answered c false i (.sync :: ms) cs failed') :
    Answered c failed i (.sync :: ms) cs failed' := by
  cases h with
  | @cons _ _ _ _ _ xs cs h hrest =>
      refine .cons ?_ (by simpa [RequestMessageType.endsUnit] using hrest)
      cases h with
      | finished _ h hfin => exact .finished (fun _ => rfl) h hfin
      | cut _ hm _ => cases hm

/-- **The skipped messages of a failed batch.** -/
theorem skips : ∀ (pre : List RequestMessageType) (i : Nat), (∀ x ∈ pre, x.endsUnit = false) →
    Answered c false (i + pre.length) (.sync :: ms) cs failed' →
      Answered c true i (pre ++ .sync :: ms) (skippedCalls pre i ++ cs) failed'
  | [], _, _, h => h.sync
  | m :: pre, i, hpre, h => by
      have hm := hpre m List.mem_cons_self
      have hlen : i + (m :: pre).length = i + 1 + pre.length := by
        rw [List.length_cons]
        omega
      rw [hlen] at h
      have hrest := skips pre (i + 1) (fun x hx => hpre x (List.mem_cons_of_mem _ hx)) h
      cases m with
      | query | sync => cases hm
      | flush => exact .silent .flush hrest
      | bind | close | describe | execute | parse => exact .cons (.skipped rfl) hrest

/-- **The calls of the first messages, and those of the others.** -/
theorem split : ∀ (ms : List RequestMessageType) {failed : Bool} {i : Nat} {cs : List Call},
    Answered c failed i (ms ++ ms') cs failed' →
    ∃ cs₁ cs₂ mid, cs = cs₁ ++ cs₂ ∧ Answered c failed i ms cs₁ mid ∧
      Answered c mid (i + ms.length) ms' cs₂ failed'
  | [], _, _, cs, h => ⟨[], cs, _, rfl, .nil, h⟩
  | m :: ms, failed, i, _, h => by
      cases h with
      | @cons _ _ _ _ _ xs cs h hrest =>
          obtain ⟨cs₁, cs₂, mid, rfl, h₁, h₂⟩ := split ms hrest
          refine ⟨xs.map (⟨·, i⟩) ++ cs₁, cs₂, mid, by simp, .cons h h₁, ?_⟩
          have hi : i + 1 + ms.length = i + (m :: ms).length := by
            rw [List.length_cons]
            omega
          exact hi ▸ h₂

/-- The offsets of the calls are those of the messages. -/
theorem offset_lt (h : Answered c failed i ms cs failed') :
    ∀ call ∈ cs, i ≤ call.offset ∧ call.offset < i + ms.length := by
  induction h with
  | nil =>
      intro call hcall
      cases hcall
  | cons _ _ ih =>
      intro call hcall
      rw [List.length_cons]
      rcases List.mem_append.mp hcall with hcall | hcall
      · obtain ⟨x, _, rfl⟩ := List.mem_map.mp hcall
        exact ⟨Nat.le_refl _, Nat.lt_add_of_pos_right (Nat.succ_pos _)⟩
      · obtain ⟨hle, hlt⟩ := ih call hcall
        omega

end Answered

namespace ReadResponseFsm

/-- The calls behind a message that is finished. -/
theorem answered_behind {f : ReadResponseFsm} (hf : f.Wf) (hs : f.state = .msgFirst)
    {calls : List Call}
    (h : ∀ k m rest xs, f.Before k m rest → Heard f.allowCopy m f.state xs →
      Answered f.allowCopy false (f.current + k) (m :: rest)
        (xs.map (⟨·, f.current + k⟩) ++ calls) false) :
    Answered f.allowCopy false f.current f.getRemainingMessages calls false := by
  obtain ⟨k, m, rest, hb, _⟩ := hf.before
  rw [hb.remaining]
  exact .flushes k _ (h k m rest [] hb (hs ▸ .nil))

/-- **The calls of a response that ends without error**, from any machine inside its request: `xs`
    are the calls the current message has had so far. -/
theorem feed_answered_aux {f : ReadResponseFsm} (hf : f.Wf) {msgs : List AnyBackendMessage}
    {r : Run} (hr : f.feed msgs = .ok r) : ∀ ec, r.finished = some ec → ec.failed = false →
    ∀ k m rest xs, f.Before k m rest → Heard f.allowCopy m f.state xs →
      Answered f.allowCopy false (f.current + k) (m :: rest)
        (xs.map (⟨·, f.current + k⟩) ++ r.calls) false := by
  refine feed_rec_of (P := fun f _ r => ∀ ec, r.finished = some ec → ec.failed = false →
    ∀ k m rest xs, f.Before k m rest → Heard f.allowCopy m f.state xs →
      Answered f.allowCopy false (f.current + k) (m :: rest)
        (xs.map (⟨·, f.current + k⟩) ++ r.calls) false) ?_ ?_ ?_ hf hr
  · intro f _ ec hfin
    cases hfin
  · intro f msg msgs r ec _ hmove hres ec' hfin hec k m rest xs hb hheard
    cases hfin
    cases hmove with
    | async _ | stay _ _ | error _ _ _ _ _ _ => cases hres
    | @finish _ _ _ cs hb' h =>
        obtain ⟨rfl, rfl, rfl⟩ := hb.unique hb'
        cases rest with
        | cons x rest => simp [resultBefore] at hres
        | nil =>
            have hnil : Answered f.allowCopy false (f.current + k) [m]
                ((xs ++ cs).map (⟨·, f.current + k⟩) ++ []) false := by
              refine .cons (.finished (fun h => by cases h) hheard h) ?_
              rw [Bool.false_or, hheard.not_failed h]
              exact .nil
            simpa using hnil
    | reject g e =>
        cases hres
        rw [ClientErrc.failed_code] at hec
        cases hec
  · intro f msg msgs r t hf hmove hres hwf ih ec hfin hec k m rest xs hb hheard
    have ih := ih ec hfin hec
    cases hmove with
    | async _ => exact ih k m rest xs hb hheard
    | @stay _ _ _ s cs hb' h =>
        obtain ⟨rfl, rfl, rfl⟩ := hb.unique hb'
        have := ih 0 m rest (xs ++ cs) ⟨hb.drop, hb.ne⟩ (hheard.stays h)
        simpa [Run.after] using this
    | @finish _ _ _ cs hb' h =>
        obtain ⟨rfl, rfl, rfl⟩ := hb.unique hb'
        have hrest := answered_behind hwf rfl ih
        rw [getRemainingMessages_set, hb.drop_succ] at hrest
        have hcons : Answered f.allowCopy false (f.current + k) (m :: rest)
            ((xs ++ cs).map (⟨·, f.current + k⟩) ++ t.calls) false := by
          refine .cons (.finished (fun h => by cases h) hheard h) ?_
          rw [Bool.false_or, hheard.not_failed h]
          exact hrest
        simpa [Run.after] using hcons
    | @error _ _ pre post e hmsg hb' hm hh hpre =>
        obtain ⟨rfl, rfl, rfl⟩ := hb.unique hb'
        have hrest := answered_behind hwf rfl ih
        rw [getRemainingMessages_set, ← List.drop_drop, hb.drop_succ, List.drop_left] at hrest
        have hskip := Answered.skips pre _ hpre hrest
        have hend : m.endsUnit = false := by cases m <;> first | rfl | cases hm
        have hcons : Answered f.allowCopy false (f.current + k) (m :: (pre ++ .sync :: post))
            ((xs ++ [AnyRequestMessage.errorResponse e]).map (⟨·, f.current + k⟩) ++
              (skippedCalls pre (f.current + k + 1) ++ t.calls)) false := by
          refine .cons (.cut e hm hheard) ?_
          rw [hend]
          simpa [isError] using hskip
        simpa [Run.after] using hcons
    | reject g e => cases hres

/-- **The calls of a response that ends without error.** -/
theorem feed_answered {req : Request} (h : req.Accepted) (allowCopy : Bool)
    {msgs : List AnyBackendMessage} {r : Run}
    (hr : (readResponseFsm req allowCopy).feed msgs = .ok r)
    (hfin : r.finished = some .success) : Answered allowCopy false 0 req.messages r.calls false := by
  have hf := Wf.init h allowCopy
  exact answered_behind hf rfl (feed_answered_aux hf hr _ hfin rfl)

end ReadResponseFsm

end NativePg
