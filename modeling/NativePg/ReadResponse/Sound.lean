/-
  File:      NativePg/ReadResponse/Sound.lean
  Subject:   Soundness: which responses the machine accepts.

  A response that ends without error is read back, message by message, as a `Transcript` of the
  grammar. One pair of messages stands in the way: `handle_execute` stays in `msg_first` while it
  reads rows, so that it takes an EmptyQueryResponse or a CopyOutResponse behind a DataRow, which
  its own comment rules out (`Interrupts`).

  * `Partial` -- what a partial answer looks like in each state, in the grammar's words;
    `Open.parts` proves it of every partial answer without interrupted rows;
  * `Transcript.uninterrupted` -- the grammar itself never interrupts rows;
  * **`feed_sound_iff`** -- a response that ends without error follows the grammar exactly when
    none of its rows is interrupted; `feed_interrupted_execute` is one that is.
-/
import Mathlib.Data.List.Chain
import NativePg.ReadResponse.Complete

namespace NativePg

open ReadResponse

/-! ## 1. Interrupted rows -/

/-- EmptyQueryResponse and CopyOutResponse: messages that may only stand at the beginning of an
    answer. -/
def AnyBackendMessage.startsAnswer : AnyBackendMessage → Bool
  | .emptyQueryResponse | .copyOutResponse _ => true
  | _ => false

/-- A DataRow and, directly behind it, EmptyQueryResponse or CopyOutResponse. -/
def Interrupts : AnyBackendMessage → AnyBackendMessage → Bool
  | .dataRow _, msg => msg.startsAnswer
  | _, _ => false

/-- No row of the sequence is interrupted. -/
def Uninterrupted (msgs : List AnyBackendMessage) : Prop :=
  msgs.IsChain fun a b => Interrupts a b = false

instance (msgs : List AnyBackendMessage) : Decidable (Uninterrupted msgs) :=
  inferInstanceAs (Decidable (msgs.IsChain _))

theorem interrupts_of_not_starts {a b : AnyBackendMessage} (h : b.startsAnswer = false) :
    Interrupts a b = false := by
  cases a <;> first | exact h | rfl

theorem uninterrupted_of_tail : ∀ (x : AnyBackendMessage) {l : List AnyBackendMessage},
    (∀ y ∈ l, y.startsAnswer = false) → Uninterrupted (x :: l)
  | x, [], _ => .singleton x
  | _, y :: _, h =>
      .cons_cons (interrupts_of_not_starts (h y List.mem_cons_self))
        (uninterrupted_of_tail y fun z hz => h z (List.mem_cons_of_mem _ hz))

/-- **Answers that do not end with a row can be put one behind the other.** -/
theorem Uninterrupted.append {a t : List AnyBackendMessage} (ha : Uninterrupted a)
    (hlast : ∀ r, a.getLast? ≠ some (.dataRow r)) (ht : Uninterrupted t) :
    Uninterrupted (a ++ t) := by
  refine List.IsChain.append ha ht fun x hx y _ => ?_
  have hx' : a.getLast? = some x := hx
  cases x with
  | dataRow r => exact absurd hx' (hlast r)
  | _ => rfl

/-- Nothing that follows a whole answer can interrupt it. -/
theorem Uninterrupted.snoc {p t : List AnyBackendMessage} {last : AnyBackendMessage}
    (hp : Uninterrupted (p ++ [last])) (hlast : ∀ r, last ≠ .dataRow r) (ht : Uninterrupted t) :
    Uninterrupted (p ++ [last] ++ t) := by
  refine hp.append (fun r hr => ?_) ht
  rw [List.getLast?_concat] at hr
  exact hlast r (Option.some.inj hr)

theorem Statement.uninterrupted {c : Bool} {st : List AnyBackendMessage} (h : Statement c st) :
    ∃ p tag, st = p ++ [.commandComplete tag] ∧ Uninterrupted st := by
  cases h with
  | rows d rs tag =>
      refine ⟨_, tag, rfl, ?_⟩
      rw [List.cons_append]
      refine uninterrupted_of_tail _ fun y hy => ?_
      simp only [List.mem_append, List.mem_map, List.mem_singleton] at hy
      rcases hy with ⟨r, _, rfl⟩ | rfl <;> rfl
  | bare tag => exact ⟨[], tag, rfl, .singleton _⟩
  | copy _ m ds tag =>
      refine ⟨.copyOutResponse m :: ds.map .copyData ++ [.copyDone], tag, by simp [copyOutBlock], ?_⟩
      rw [copyOutBlock, List.cons_append]
      refine uninterrupted_of_tail _ fun y hy => ?_
      simp only [List.mem_append, List.mem_map, List.mem_cons, List.not_mem_nil, or_false] at hy
      rcases hy with ⟨d, _, rfl⟩ | rfl | rfl <;> rfl

theorem statements_uninterrupted {c : Bool} : ∀ {ss : List (List AnyBackendMessage)},
    (∀ st ∈ ss, Statement c st) → Uninterrupted ss.flatten
  | [], _ => .nil
  | st :: ss, h => by
      obtain ⟨p, tag, rfl, hst⟩ := (h st List.mem_cons_self).uninterrupted
      have hrest := statements_uninterrupted fun x hx => h x (List.mem_cons_of_mem _ hx)
      exact hst.snoc (by simp) hrest

/-- **An answer of the grammar has no interrupted rows.** -/
theorem Answer.uninterrupted {c : Bool} {m : RequestMessageType} {a : List AnyBackendMessage}
    (h : Answer c m a) : Uninterrupted a := by
  -- rows, then one message that does not start an answer
  have hrows : ∀ (rs : List DataRow) (msg : AnyBackendMessage), msg.startsAnswer = false →
      Uninterrupted (rs.map .dataRow ++ [msg]) := by
    intro rs msg hmsg
    cases rs with
    | nil => exact .singleton msg
    | cons r rs =>
        rw [List.map_cons, List.cons_append]
        refine uninterrupted_of_tail _ fun y hy => ?_
        simp only [List.mem_append, List.mem_map, List.mem_singleton] at hy
        rcases hy with ⟨r, _, rfl⟩ | rfl
        · rfl
        · exact hmsg
  cases h with
  | parse | bind | close | describe | describeNoData | executeEmpty | queryEmpty =>
      exact .singleton _
  | execute rs tag => exact hrows rs _ rfl
  | executeSuspended rs => exact hrows rs _ rfl
  | executeCopy hc m ds tag =>
      obtain ⟨_, _, _, h⟩ := (Statement.copy hc m ds tag).uninterrupted
      exact h
  | query ss _ h => exact statements_uninterrupted h

theorem Cut.uninterrupted {c : Bool} {m : RequestMessageType} {a : List AnyBackendMessage}
    (h : Cut c m a) : ∃ p e, a = p ++ [.errorResponse e] ∧ Uninterrupted a := by
  obtain ⟨p, s, e, _, hans, rfl⟩ := h
  refine ⟨p, e, rfl, List.IsChain.append hans.uninterrupted.left_of_append (.singleton _) ?_⟩
  intro x _ y hy
  cases Option.some.inj hy
  exact interrupts_of_not_starts rfl

/-- **The grammar never interrupts rows.** -/
theorem Transcript.uninterrupted {c : Bool} {ms : List RequestMessageType}
    {t : List AnyBackendMessage} (h : Transcript c ms t) : Uninterrupted t := by
  induction h with
  | nil => exact .nil
  | flush _ ih => exact ih
  | @sync _ t status _ ih =>
      have hone : Uninterrupted ([] ++ [.readyForQuery status]) := .singleton _
      exact hone.snoc (by simp) ih
  | answered hm ha _ ih =>
      obtain ⟨p, last, s, cs, rfl, _, hfin⟩ := ha.open_ hm
      exact ha.uninterrupted.snoc (fun r hr => by subst hr; cases hfin) ih
  | failed _ ha _ ih =>
      obtain ⟨p, e, rfl, ha⟩ := ha.uninterrupted
      exact ha.snoc (by simp) ih
  | @query _ a t ha status _ ih =>
      have hlast : Uninterrupted (a ++ [.readyForQuery status]) := by
        have hun : Uninterrupted a := by
          rcases ha with ha | ha
          · exact ha.uninterrupted
          · obtain ⟨_, _, _, ha⟩ := ha.uninterrupted
            exact ha
        refine List.IsChain.append hun (.singleton _) fun x _ y hy => ?_
        cases Option.some.inj hy
        exact interrupts_of_not_starts rfl
      have := hlast.snoc (by simp) ih
      simpa using this

/-! ## 2. Partial answers in the grammar's words -/

/-- What has been received of an answer when the machine is in a state: the messages `p` in front
    of what is still to come. -/
def Partial (c : Bool) : RequestMessageType → State → List AnyBackendMessage → Prop
  | .execute, .msgFirst, p => ∃ rs : List DataRow, p = rs.map .dataRow
  | .execute, .execCopyOut, p =>
      c = true ∧ ∃ m, ∃ ds : List Bytes, p = .copyOutResponse m :: ds.map .copyData
  | .execute, .execCopyOutNeedsCommandComplete, p =>
      c = true ∧ ∃ m, ∃ ds : List Bytes, p = .copyOutResponse m :: ds.map .copyData ++ [.copyDone]
  | .query, .queryFirst, p => ∃ ss, ss ≠ [] ∧ (∀ st ∈ ss, Statement c st) ∧ p = ss.flatten
  | .query, .queryRows, p =>
      ∃ ss : List (List AnyBackendMessage), (∀ st ∈ ss, Statement c st) ∧ ∃ d, ∃ rs : List DataRow,
        p = ss.flatten ++ .rowDescription d :: rs.map .dataRow
  | .query, .queryCopyOut, p =>
      ∃ ss : List (List AnyBackendMessage), (∀ st ∈ ss, Statement c st) ∧ c = true ∧ ∃ m, ∃ ds : List Bytes,
        p = ss.flatten ++ .copyOutResponse m :: ds.map .copyData
  | .query, .queryCopyOutNeedsCommandComplete, p =>
      ∃ ss : List (List AnyBackendMessage), (∀ st ∈ ss, Statement c st) ∧ c = true ∧ ∃ m, ∃ ds : List Bytes,
        p = ss.flatten ++ (.copyOutResponse m :: ds.map .copyData ++ [.copyDone])
  | .query, .queryNeedsReady, p => Answer c .query p ∨ Cut c .query p
  | _, _, p => p = []

/-- One more statement behind those a query has answered. -/
theorem query_snoc {c : Bool} {ss : List (List AnyBackendMessage)} {st : List AnyBackendMessage}
    (hss : ∀ x ∈ ss, Statement c x) (hst : Statement c st) :
    Answer c .query (ss.flatten ++ st) := by
  have h : Answer c .query (ss ++ [st]).flatten := by
    refine .query _ (by simp) fun x hx => ?_
    rcases List.mem_append.mp hx with hx | hx
    · exact hss x hx
    · rw [List.mem_singleton.mp hx]
      exact hst
  simpa using h

/-- **Every partial answer can be completed**, with at least one more message -- unless the query
    only waits for its ReadyForQuery. -/
theorem Partial.extends {c : Bool} {m : RequestMessageType} {s : State}
    {p : List AnyBackendMessage} (h : Partial c m s p) (hh : ReadResponseFsm.holds m s = true)
    (hm : m.isExtended = true ∨ m = .query) (hs : s ≠ .queryNeedsReady) :
    ∃ q, q ≠ [] ∧ Answer c m (p ++ q) := by
  cases m with
  | bind =>
      obtain rfl := ReadResponseFsm.state_of_holds hh (by decide)
      cases h
      exact ⟨_, by simp, .bind⟩
  | close =>
      obtain rfl := ReadResponseFsm.state_of_holds hh (by decide)
      cases h
      exact ⟨_, by simp, .close⟩
  | describe =>
      obtain rfl := ReadResponseFsm.state_of_holds hh (by decide)
      cases h
      exact ⟨_, by simp, .describeNoData⟩
  | parse =>
      obtain rfl := ReadResponseFsm.state_of_holds hh (by decide)
      cases h
      exact ⟨_, by simp, .parse⟩
  | execute =>
      cases s with
      | msgFirst =>
          obtain ⟨rs, rfl⟩ := h
          exact ⟨[.portalSuspended], by simp, .executeSuspended rs⟩
      | execCopyOut =>
          obtain ⟨hc, m, ds, rfl⟩ := h
          exact ⟨[.copyDone, .commandComplete []], by simp, .executeCopy hc m ds []⟩
      | execCopyOutNeedsCommandComplete =>
          obtain ⟨hc, m, ds, rfl⟩ := h
          refine ⟨[.commandComplete []], by simp, ?_⟩
          have := Answer.executeCopy hc m ds []
          simpa [copyOutBlock] using this
      | _ => cases hh
  | query =>
      cases s with
      | msgFirst =>
          cases h
          exact ⟨_, by simp, .queryEmpty⟩
      | queryFirst =>
          obtain ⟨ss, _, hss, rfl⟩ := h
          exact ⟨_, by simp, query_snoc hss (.bare [])⟩
      | queryRows =>
          obtain ⟨ss, hss, d, rs, rfl⟩ := h
          refine ⟨[.commandComplete []], by simp, ?_⟩
          have := query_snoc hss (.rows d rs [])
          simpa using this
      | queryCopyOut =>
          obtain ⟨ss, hss, hc, m, ds, rfl⟩ := h
          refine ⟨[.copyDone, .commandComplete []], by simp, ?_⟩
          have := query_snoc hss (.copy hc m ds [])
          simpa [copyOutBlock] using this
      | queryCopyOutNeedsCommandComplete =>
          obtain ⟨ss, hss, hc, m, ds, rfl⟩ := h
          refine ⟨[.commandComplete []], by simp, ?_⟩
          have := query_snoc hss (.copy hc m ds [])
          simpa [copyOutBlock] using this
      | queryNeedsReady => exact absurd rfl hs
      | execCopyOut | execCopyOutNeedsCommandComplete => cases hh
  | flush | sync => rcases hm with hm | hm <;> cases hm

theorem Partial.cut {c : Bool} {m : RequestMessageType} {s : State} {p : List AnyBackendMessage}
    (h : Partial c m s p) (hh : ReadResponseFsm.holds m s = true)
    (hm : m.isExtended = true ∨ m = .query) (hs : s ≠ .queryNeedsReady) (e : ErrorResponse) :
    Cut c m (p ++ [.errorResponse e]) := by
  obtain ⟨q, hq, hans⟩ := h.extends hh hm hs
  exact ⟨p, q, e, hq, hans, rfl⟩

/-- What a query has answered when it waits for a first or a next statement. -/
theorem Partial.statements {c : Bool} {s : State} {p : List AnyBackendMessage}
    (h : Partial c .query s p) (hs : s = .msgFirst ∨ s = .queryFirst) :
    ∃ ss : List (List AnyBackendMessage), (∀ st ∈ ss, Statement c st) ∧ p = ss.flatten := by
  rcases hs with rfl | rfl
  · have hp : p = [] := h
    subst hp
    exact ⟨[], by simp, rfl⟩
  · obtain ⟨ss, _, hss, rfl⟩ := h
    exact ⟨ss, hss, rfl⟩

theorem Partial.queryFirst {c : Bool} {ss : List (List AnyBackendMessage)}
    {st : List AnyBackendMessage} (hss : ∀ x ∈ ss, Statement c x) (hst : Statement c st) :
    Partial c .query .queryFirst (ss.flatten ++ st) := by
  refine ⟨ss ++ [st], by simp, fun x hx => ?_, by simp⟩
  rcases List.mem_append.mp hx with hx | hx
  · exact hss x hx
  · rw [List.mem_singleton.mp hx]
    exact hst

/-- Rows that are not interrupted: behind them comes no message that starts an answer. -/
theorem rows_nil_of_starts {rs : List DataRow} {msg : AnyBackendMessage}
    (h : Uninterrupted (rs.map .dataRow ++ [msg])) (hmsg : msg.startsAnswer = true) : rs = [] := by
  rcases List.eq_nil_or_concat rs with rfl | ⟨rs', r, rfl⟩
  · rfl
  · rw [List.concat_eq_append, List.map_append, List.append_assoc] at h
    have hpair : Uninterrupted [.dataRow r, msg] := h.right_of_append
    have : msg.startsAnswer = false := by
      cases hpair
      assumption
    rw [hmsg] at this
    cases this

open ReadResponseFsm in
/-- **Partial answers, read back.** -/
theorem ReadResponseFsm.Open.parts {c : Bool} {m : RequestMessageType}
    {p : List AnyBackendMessage} {s : State} (h : Open c m p s) (hu : Uninterrupted p) :
    Partial c m s p := by
  induction h with
  | start => cases m <;> first | rfl | exact ⟨[], rfl⟩
  | @step p s msg s' cs h hs ih =>
      have ih : Partial c m s p := ih hu.left_of_append
      cases hs with
      | execRow r =>
          obtain ⟨rs, rfl⟩ := ih
          exact ⟨rs ++ [r], by simp⟩
      | execCopyOut m hc =>
          obtain ⟨rs, rfl⟩ := ih
          cases rows_nil_of_starts hu rfl
          exact ⟨hc, m, [], rfl⟩
      | execCopyData d =>
          obtain ⟨hc, m, ds, rfl⟩ := ih
          exact ⟨hc, m, ds ++ [d], by simp⟩
      | execCopyDone =>
          obtain ⟨hc, m, ds, rfl⟩ := ih
          exact ⟨hc, m, ds, rfl⟩
      | queryCopyOut m hc hs =>
          obtain ⟨ss, hss, rfl⟩ := ih.statements hs
          exact ⟨ss, hss, hc, m, [], rfl⟩
      | queryRowDescription d hs =>
          obtain ⟨ss, hss, rfl⟩ := ih.statements hs
          exact ⟨ss, hss, d, [], rfl⟩
      | queryBareComplete tag hs =>
          obtain ⟨ss, hss, rfl⟩ := ih.statements hs
          exact .queryFirst hss (.bare tag)
      | queryEmpty =>
          cases ih
          exact .inl .queryEmpty
      | queryRow r =>
          obtain ⟨ss, hss, d, rs, rfl⟩ := ih
          exact ⟨ss, hss, d, rs ++ [r], by simp⟩
      | queryComplete tag hs =>
          rcases hs with rfl | rfl
          · obtain ⟨ss, hss, d, rs, rfl⟩ := ih
            have := Partial.queryFirst hss (.rows d rs tag)
            simpa using this
          · obtain ⟨ss, hss, hc, m, ds, rfl⟩ := ih
            have := Partial.queryFirst hss (.copy hc m ds tag)
            simpa [copyOutBlock] using this
      | queryCopyData d =>
          obtain ⟨ss, hss, hc, m, ds, rfl⟩ := ih
          exact ⟨ss, hss, hc, m, ds ++ [d], by simp⟩
      | queryCopyDone =>
          obtain ⟨ss, hss, hc, m, ds, rfl⟩ := ih
          exact ⟨ss, hss, hc, m, ds, by simp⟩
      | queryError e hh hs => exact .inr (ih.cut hh (.inr rfl) hs e)

/-- **A finished answer to an extended message is one of the grammar.** -/
theorem Partial.answer {c : Bool} {m : RequestMessageType} {s : State}
    {p : List AnyBackendMessage} {msg : AnyBackendMessage} {cs : List AnyRequestMessage}
    (h : Partial c m s p) (hm : m.isExtended = true)
    (hfin : ReadResponseFsm.Finishes m s msg cs) (hu : Uninterrupted (p ++ [msg])) :
    Answer c m (p ++ [msg]) := by
  cases hfin with
  | bind => cases h; exact .bind
  | close => cases h; exact .close
  | parse => cases h; exact .parse
  | describe d => cases h; exact .describe d
  | describeNoData => cases h; exact .describeNoData
  | execute tag hs =>
      rcases hs with rfl | rfl
      · obtain ⟨rs, rfl⟩ := h
        exact .execute rs tag
      · obtain ⟨hc, m, ds, rfl⟩ := h
        have := Answer.executeCopy hc m ds tag
        simpa [copyOutBlock] using this
  | executeEmpty =>
      obtain ⟨rs, rfl⟩ := h
      cases rows_nil_of_starts hu rfl
      exact .executeEmpty
  | executeSuspended =>
      obtain ⟨rs, rfl⟩ := h
      exact .executeSuspended rs
  | sync | query => cases hm

/-- What a query has answered when its ReadyForQuery arrives. -/
theorem Partial.answered {c : Bool} {s : State} {p : List AnyBackendMessage}
    (h : Partial c .query s p) (hs : s = .queryFirst ∨ s = .queryNeedsReady) :
    Answer c .query p ∨ Cut c .query p := by
  rcases hs with rfl | rfl
  · obtain ⟨ss, hne, hss, rfl⟩ := h
    exact .inl (.query ss hne hss)
  · exact h

/-! ## 3. Reading a response back -/

namespace ReadResponseFsm

theorem transcript_flushes {c : Bool} {ms : List RequestMessageType} {t : List AnyBackendMessage}
    (h : Transcript c ms t) : ∀ k, Transcript c (List.replicate k .flush ++ ms) t
  | 0 => h
  | k + 1 => .flush (transcript_flushes h k)

/-- **The answer that a message finishes**, in front of the answers to the rest. -/
theorem transcript_finish {c : Bool} {m : RequestMessageType} {rest : List RequestMessageType}
    {s : State} {p t : List AnyBackendMessage} {msg : AnyBackendMessage}
    {cs : List AnyRequestMessage} (hp : Open c m p s) (hfin : Finishes m s msg cs)
    (hu : Uninterrupted (p ++ [msg])) (h : Transcript c rest t) :
    Transcript c (m :: rest) (p ++ msg :: t) := by
  have hparts := hp.parts hu.left_of_append
  by_cases hm : m.isExtended = true
  · have := Transcript.answered hm (hparts.answer hm hfin hu) h
    simpa using this
  · cases hfin with
    | sync status =>
        have hnil : p = [] := hparts
        subst hnil
        exact .sync status h
    | query status hs => exact .query (hparts.answered hs) status h
    | _ => exact absurd rfl hm

/-- **The answer that an error cuts**: the server goes on at the sync of the batch. -/
theorem transcript_error {c : Bool} {m : RequestMessageType} {pre post : List RequestMessageType}
    {s : State} {p t : List AnyBackendMessage} (hp : Open c m p s) (hm : m.isExtended = true)
    (hpre : ∀ x ∈ pre, x.endsUnit = false) (hu : Uninterrupted p) (e : ErrorResponse)
    (h : Transcript c (.sync :: post) t) :
    Transcript c (m :: (pre ++ .sync :: post)) (p ++ .errorResponse e :: t) := by
  have hs : s ≠ .queryNeedsReady := by
    rintro rfl
    have hh := hp.holds
    cases m <;> simp [RequestMessageType.isExtended, holds] at hm hh
  have hcut := (hp.parts hu).cut hp.holds (.inl hm) hs e
  have hrest : Transcript c ((pre ++ .sync :: post).dropWhile (· ≠ .sync)) t := by
    rwa [dropWhile_sync hpre]
  have := Transcript.failed hm hcut hrest
  simpa using this

theorem withoutAsync_cons {msg : AnyBackendMessage} (h : msg.isAsync = false)
    (msgs : List AnyBackendMessage) : withoutAsync (msg :: msgs) = msg :: withoutAsync msgs := by
  simp [withoutAsync, h]

/-- The rest of a response, behind a message that is finished. -/
theorem transcript_behind {f : ReadResponseFsm} (hf : f.Wf) (hs : f.state = .msgFirst)
    {t : List AnyBackendMessage}
    (h : ∀ k m rest p, f.Before k m rest → Open f.allowCopy m p f.state →
      Uninterrupted (p ++ t) → Transcript f.allowCopy (m :: rest) (p ++ t))
    (hu : Uninterrupted t) : Transcript f.allowCopy f.getRemainingMessages t := by
  obtain ⟨k, m, rest, hb, _⟩ := hf.before
  rw [hb.remaining]
  exact transcript_flushes (h k m rest [] hb (hs ▸ .start) hu) k

/-- **A response that ends without error, read back** from any machine inside its request: `p` is
    what has been received of the answer to the current message. -/
theorem feed_sound_aux {f : ReadResponseFsm} (hf : f.Wf) {msgs : List AnyBackendMessage} {r : Run}
    (hr : f.feed msgs = .ok r) : ∀ ec, r.finished = some ec → ec.failed = false → r.unread = [] →
    ∀ k m rest p, f.Before k m rest → Open f.allowCopy m p f.state →
      Uninterrupted (p ++ withoutAsync msgs) →
      Transcript f.allowCopy (m :: rest) (p ++ withoutAsync msgs) := by
  refine feed_rec_of (P := fun f msgs r =>
    ∀ ec, r.finished = some ec → ec.failed = false → r.unread = [] →
    ∀ k m rest p, f.Before k m rest → Open f.allowCopy m p f.state →
      Uninterrupted (p ++ withoutAsync msgs) →
      Transcript f.allowCopy (m :: rest) (p ++ withoutAsync msgs)) ?_ ?_ ?_ hf hr
  · intro f _ ec hfin
    cases hfin
  · intro f msg msgs r ec _ hmove hres ec' hfin hec hun k m rest p hb hp hu
    cases hfin
    obtain rfl : msgs = [] := hun
    cases hmove with
    | async _ | stay _ _ | error _ _ _ _ _ _ => cases hres
    | finish hb' h =>
        obtain ⟨rfl, rfl, rfl⟩ := hb.unique hb'
        rw [withoutAsync_cons h.not_async] at hu ⊢
        cases rest with
        | cons x rest => simp [resultBefore] at hres
        | nil => exact transcript_finish hp h hu .nil
    | reject g e =>
        cases hres
        rw [ClientErrc.failed_code] at hec
        cases hec
  · intro f msg msgs r t hf hmove hres hwf ih ec hfin hec hun k m rest p hb hp hu
    have ih := ih ec hfin hec hun
    cases hmove with
    | async ha =>
        have hfilter : withoutAsync (msg :: msgs) = withoutAsync msgs := by
          simp [withoutAsync, ha]
        rw [hfilter] at hu ⊢
        exact ih k m rest p hb hp hu
    | stay hb' h =>
        obtain ⟨rfl, rfl, rfl⟩ := hb.unique hb'
        rw [withoutAsync_cons h.not_async] at hu ⊢
        have := ih 0 m rest (p ++ [msg]) ⟨hb.drop, hb.ne⟩ (hp.step h) (by simpa using hu)
        simpa using this
    | finish hb' h =>
        obtain ⟨rfl, rfl, rfl⟩ := hb.unique hb'
        rw [withoutAsync_cons h.not_async] at hu ⊢
        have hu' : Uninterrupted (p ++ [msg] ++ withoutAsync msgs) := by simpa using hu
        have hrest := transcript_behind hwf rfl ih hu'.right_of_append
        rw [getRemainingMessages_set, hb.drop_succ] at hrest
        exact transcript_finish hp h hu'.left_of_append hrest
    | @error k' m' pre post e hmsg hb' hm hh hpre =>
        obtain ⟨rfl, rfl, rfl⟩ := hb.unique hb'
        subst hmsg
        rw [withoutAsync_cons rfl] at hu ⊢
        have hu' : Uninterrupted (p ++ [.errorResponse e] ++ withoutAsync msgs) := by
          simpa using hu
        have hrest := transcript_behind hwf rfl ih hu'.right_of_append
        rw [getRemainingMessages_set, ← List.drop_drop, hb.drop_succ, List.drop_left] at hrest
        exact transcript_error hp hm hpre hu.left_of_append e hrest
    | reject g e => cases hres

/-- **What the response machine accepts.** A message sequence on which it finishes without error,
    at the last message, is, with its async messages removed, a response the grammar allows --
    exactly when no DataRow in it is directly followed by EmptyQueryResponse or
    CopyOutResponse. -/
theorem feed_sound_iff {req : Request} (h : req.Accepted) (allowCopy : Bool)
    {msgs : List AnyBackendMessage} {r : Run}
    (hr : (readResponseFsm req allowCopy).feed msgs = .ok r)
    (hfin : r.finished = some .success) (hun : r.unread = []) :
    Transcript allowCopy req.messages (withoutAsync msgs) ↔
      Uninterrupted (withoutAsync msgs) := by
  refine ⟨Transcript.uninterrupted, fun hu => ?_⟩
  have hf := Wf.init h allowCopy
  exact transcript_behind hf rfl (feed_sound_aux hf hr _ hfin rfl hun) hu

/-- A row of an execute, then EmptyQueryResponse: the machine finishes without error. -/
theorem feed_interrupted_execute :
    ∃ r, (readResponseFsm { messages := [.bind, .execute, .sync] }).feed
        [.bindComplete, .dataRow ⟨{}⟩, .emptyQueryResponse, .readyForQuery .idle] = .ok r ∧
      r.finished = some .success ∧ r.unread = [] ∧
      ¬ Transcript false [.bind, .execute, .sync]
        (withoutAsync [.bindComplete, .dataRow ⟨{}⟩, .emptyQueryResponse, .readyForQuery .idle]) :=
  ⟨_, rfl, rfl, rfl, fun h => absurd h.uninterrupted (by decide)⟩

/-- A failed execute. -/
theorem feed_sound_iff_failed_execute :
    Transcript true [.bind, .execute, .sync]
        (withoutAsync [.bindComplete, .dataRow ⟨{}⟩, .errorResponse {}, .readyForQuery .idle]) ↔
      Uninterrupted
        (withoutAsync [.bindComplete, .dataRow ⟨{}⟩, .errorResponse {}, .readyForQuery .idle]) :=
  feed_sound_iff (show ({ messages := [.bind, .execute, .sync] } : Request).Accepted by decide) true
    rfl rfl rfl

end ReadResponseFsm

end NativePg
