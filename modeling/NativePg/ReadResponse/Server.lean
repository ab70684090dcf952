/-
  File:      NativePg/ReadResponse/Server.lean
  Subject:   What a conforming server sends in answer to a request.

  The grammar is the protocol's, as the comments of src/read_response_fsm.cpp write it down
  message by message; it knows nothing of the machine and its states:

  * `Answer` -- the complete answers to one request message (for a query: what comes before its
    ReadyForQuery, one or more `Statement`s or EmptyQueryResponse);
  * `Cut` -- an answer broken off by an ErrorResponse: any proper prefix of an answer, then the
    error;
  * `Transcript` -- the answers to a whole request. Behind the error of an extended message the
    server ignores everything up to the next sync.

  COPY OUT is part of the grammar only where the caller allows it.

  * `Open` -- the bridge to the machine: the partial answers that take the machine's state for
    one request message from `msg_first` to another one without finishing it. `Answer.open_` and
    `Cut.open_` show that the machine walks along every answer of the grammar;
    `open_execute` and `open_query` read the grammar back off the states.
-/
import NativePg.ReadResponse.Safety

namespace NativePg

open ReadResponse

/-! ## 1. The grammar -/

/-- A COPY OUT block. -/
def copyOutBlock (m : CopyResponse) (ds : List Bytes) (tag : Bytes) : List AnyBackendMessage :=
  .copyOutResponse m :: ds.map .copyData ++ [.copyDone, .commandComplete tag]

/-- The answer to one statement of a simple query. -/
inductive Statement (allowCopy : Bool) : List AnyBackendMessage → Prop where
  | rows (d : RowDescription) (rs : List DataRow) (tag : Bytes) :
      Statement allowCopy (.rowDescription d :: rs.map .dataRow ++ [.commandComplete tag])
  | bare (tag : Bytes) : Statement allowCopy [.commandComplete tag]
  | copy (h : allowCopy = true) (m : CopyResponse) (ds : List Bytes) (tag : Bytes) :
      Statement allowCopy (copyOutBlock m ds tag)

/-- The complete answers to one request message. -/
inductive Answer (allowCopy : Bool) : RequestMessageType → List AnyBackendMessage → Prop where
  | parse : Answer allowCopy .parse [.parseComplete]
  | bind : Answer allowCopy .bind [.bindComplete]
  | close : Answer allowCopy .close [.closeComplete]
  | describe (d : RowDescription) : Answer allowCopy .describe [.rowDescription d]
  | describeNoData : Answer allowCopy .describe [.noData]
  | execute (rs : List DataRow) (tag : Bytes) :
      Answer allowCopy .execute (rs.map .dataRow ++ [.commandComplete tag])
  | executeSuspended (rs : List DataRow) :
      Answer allowCopy .execute (rs.map .dataRow ++ [.portalSuspended])
  | executeEmpty : Answer allowCopy .execute [.emptyQueryResponse]
  | executeCopy (h : allowCopy = true) (m : CopyResponse) (ds : List Bytes) (tag : Bytes) :
      Answer allowCopy .execute (copyOutBlock m ds tag)
  | queryEmpty : Answer allowCopy .query [.emptyQueryResponse]
  | query (ss : List (List AnyBackendMessage)) (hne : ss ≠ [])
      (h : ∀ s ∈ ss, Statement allowCopy s) : Answer allowCopy .query ss.flatten

/-- An answer cut by an ErrorResponse, at any point before its end. -/
def Cut (allowCopy : Bool) (m : RequestMessageType) (a : List AnyBackendMessage) : Prop :=
  ∃ p s e, s ≠ [] ∧ Answer allowCopy m (p ++ s) ∧ a = p ++ [.errorResponse e]

/-- **Everything a conforming server can send for a list of request messages.** -/
inductive Transcript (allowCopy : Bool) :
    List RequestMessageType → List AnyBackendMessage → Prop where
  | nil : Transcript allowCopy [] []
  | flush {rest t} (h : Transcript allowCopy rest t) : Transcript allowCopy (.flush :: rest) t
  | sync {rest t} (status : TransactionStatus) (h : Transcript allowCopy rest t) :
      Transcript allowCopy (.sync :: rest) (.readyForQuery status :: t)
  | answered {m rest a t} (hm : m.isExtended = true) (ha : Answer allowCopy m a)
      (h : Transcript allowCopy rest t) : Transcript allowCopy (m :: rest) (a ++ t)
  | failed {m rest a t} (hm : m.isExtended = true) (ha : Cut allowCopy m a)
      (h : Transcript allowCopy (rest.dropWhile (· ≠ .sync)) t) :
      Transcript allowCopy (m :: rest) (a ++ t)
  | query {rest a t} (ha : Answer allowCopy .query a ∨ Cut allowCopy .query a)
      (status : TransactionStatus) (h : Transcript allowCopy rest t) :
      Transcript allowCopy (.query :: rest) (a ++ .readyForQuery status :: t)

/-! ## 2. Partial answers and the machine's states -/

namespace ReadResponseFsm

/-- `Open c m p s`: the messages `p` leave the request message `m` open and take its state from
    `msg_first` to `s`. -/
inductive Open (allowCopy : Bool) (m : RequestMessageType) :
    List AnyBackendMessage → State → Prop where
  | start : Open allowCopy m [] .msgFirst
  | step {p s msg s' cs} (h : Open allowCopy m p s) (hs : Stays allowCopy m s msg s' cs) :
      Open allowCopy m (p ++ [msg]) s'

variable {c : Bool} {m : RequestMessageType}

/-- **Partial answers are closed under prefixes**, and a prefix that is not the whole answer can
    still go on. -/
theorem Open.split {p q : List AnyBackendMessage} {s : State} (h : Open c m (p ++ q) s) :
    ∃ s', Open c m p s' ∧
      ((q = [] ∧ s' = s) ∨ ∃ msg s'' cs, Stays c m s' msg s'' cs) := by
  generalize hpq : p ++ q = l at h
  induction h generalizing q with
  | start =>
      obtain ⟨rfl, rfl⟩ := List.append_eq_nil_iff.mp hpq
      exact ⟨_, .start, .inl ⟨rfl, rfl⟩⟩
  | @step p' s msg s' cs h hs ih =>
      rcases List.eq_nil_or_concat q with rfl | ⟨q', x, rfl⟩
      · rw [List.append_nil] at hpq
        subst hpq
        exact ⟨_, .step h hs, .inl ⟨rfl, rfl⟩⟩
      · rw [List.concat_eq_append, ← List.append_assoc] at hpq
        obtain ⟨hp, hx⟩ := List.append_inj_left' hpq rfl, (List.append_inj_right' hpq rfl)
        obtain ⟨s1, h1, h2⟩ := ih hp
        rcases h2 with ⟨_, rfl⟩ | h2
        · exact ⟨s1, h1, .inr ⟨_, _, _, hs⟩⟩
        · exact ⟨s1, h1, .inr h2⟩

theorem Open.holds {p : List AnyBackendMessage} {s : State} (h : Open c m p s) :
    ReadResponseFsm.holds m s = true := by
  cases h with
  | start => cases m <;> rfl
  | step _ hs => exact hs.holds

/-- Nothing leaves a query open that waits for its ReadyForQuery. -/
theorem Stays.ne_needsReady {s s' : State} {msg : AnyBackendMessage}
    {cs : List AnyRequestMessage} (h : Stays c m s msg s' cs) : s ≠ .queryNeedsReady := by
  rintro rfl
  cases h with
  | queryError e hh hs => exact hs rfl
  | queryCopyOut _ _ hs | queryRowDescription _ hs | queryBareComplete _ hs
  | queryComplete _ hs => rcases hs with hs | hs <;> cases hs

theorem Open.execRows {p : List AnyBackendMessage} (h : Open c .execute p .msgFirst) :
    ∀ rs : List DataRow, Open c .execute (p ++ rs.map .dataRow) .msgFirst
  | [] => by simpa using h
  | r :: rs => by
      have := (h.step (.execRow r)).execRows rs
      simpa using this

theorem Open.execCopyData {p : List AnyBackendMessage} (h : Open c .execute p .execCopyOut) :
    ∀ ds : List Bytes, Open c .execute (p ++ ds.map .copyData) .execCopyOut
  | [] => by simpa using h
  | d :: ds => by
      have := (h.step (.execCopyData d)).execCopyData ds
      simpa using this

theorem Open.queryRows {p : List AnyBackendMessage} (h : Open c .query p .queryRows) :
    ∀ rs : List DataRow, Open c .query (p ++ rs.map .dataRow) .queryRows
  | [] => by simpa using h
  | r :: rs => by
      have := (h.step (.queryRow r)).queryRows rs
      simpa using this

theorem Open.queryCopyData {p : List AnyBackendMessage} (h : Open c .query p .queryCopyOut) :
    ∀ ds : List Bytes, Open c .query (p ++ ds.map .copyData) .queryCopyOut
  | [] => by simpa using h
  | d :: ds => by
      have := (h.step (.queryCopyData d)).queryCopyData ds
      simpa using this

/-- A whole statement takes a query back to `query_first`. -/
theorem Open.statement {p st : List AnyBackendMessage} {s : State} (h : Open c .query p s)
    (hs : s = .msgFirst ∨ s = .queryFirst) (hst : Statement c st) :
    Open c .query (p ++ st) .queryFirst := by
  cases hst with
  | rows d rs tag =>
      have h1 := (h.step (.queryRowDescription d hs)).queryRows rs
      have h2 := h1.step (.queryComplete tag (.inl rfl))
      simpa using h2
  | bare tag => exact h.step (.queryBareComplete tag hs)
  | copy hc m ds tag =>
      have h1 := (h.step (.queryCopyOut m hc hs)).queryCopyData ds
      have h2 := (h1.step .queryCopyDone).step (.queryComplete tag (.inr rfl))
      simpa [copyOutBlock] using h2

theorem Open.statements {p : List AnyBackendMessage} {s : State} (h : Open c .query p s)
    (hs : s = .msgFirst ∨ s = .queryFirst) : ∀ ss : List (List AnyBackendMessage), ss ≠ [] →
    (∀ st ∈ ss, Statement c st) → Open c .query (p ++ ss.flatten) .queryFirst
  | [], hne, _ => absurd rfl hne
  | [st], _, hall => by
      have := h.statement hs (hall st List.mem_cons_self)
      simpa using this
  | st :: st' :: ss, _, hall => by
      have h1 := h.statement hs (hall st List.mem_cons_self)
      have h2 := h1.statements (.inr rfl) (st' :: ss) (by simp)
        fun x hx => hall x (List.mem_cons_of_mem _ hx)
      simpa using h2

end ReadResponseFsm

/-! ## 3. The machine walks along the grammar -/

open ReadResponseFsm

section Walks

variable {c : Bool} {m : RequestMessageType}

/-- **An answer to an extended message** is a partial answer and the message that finishes it. -/
theorem Answer.open_ {a : List AnyBackendMessage} (h : Answer c m a) (hm : m.isExtended = true) :
    ∃ p last s cs, a = p ++ [last] ∧ Open c m p s ∧ Finishes m s last cs := by
  cases h with
  | parse => exact ⟨[], _, _, _, rfl, .start, .parse⟩
  | bind => exact ⟨[], _, _, _, rfl, .start, .bind⟩
  | close => exact ⟨[], _, _, _, rfl, .start, .close⟩
  | describe d => exact ⟨[], _, _, _, rfl, .start, .describe d⟩
  | describeNoData => exact ⟨[], _, _, _, rfl, .start, .describeNoData⟩
  | execute rs tag =>
      exact ⟨_, _, _, _, rfl, (Open.start : Open c .execute [] .msgFirst).execRows rs,
        .execute tag (.inl rfl)⟩
  | executeSuspended rs =>
      exact ⟨_, _, _, _, rfl, (Open.start : Open c .execute [] .msgFirst).execRows rs,
        .executeSuspended⟩
  | executeEmpty => exact ⟨[], _, _, _, rfl, .start, .executeEmpty⟩
  | executeCopy hc m ds tag =>
      have h1 := ((Open.start : Open c .execute [] .msgFirst).step (.execCopyOut m hc)).execCopyData ds
      exact ⟨_, _, _, _, by simp [copyOutBlock], h1.step .execCopyDone, .execute tag (.inr rfl)⟩
  | queryEmpty => cases hm
  | query ss hne h => cases hm

/-- **An answer to a query** leaves it waiting for its ReadyForQuery. -/
theorem Answer.open_query {a : List AnyBackendMessage} (h : Answer c .query a) :
    ∃ s, Open c .query a s ∧ (s = .queryFirst ∨ s = .queryNeedsReady) := by
  cases h with
  | queryEmpty => exact ⟨_, (Open.start : Open c .query [] .msgFirst).step .queryEmpty, .inr rfl⟩
  | query ss hne h => exact ⟨_, (Open.start : Open c .query [] .msgFirst).statements (.inl rfl) ss hne h, .inl rfl⟩

/-- **Where an answer is cut, its message is open** -- and a query is not yet waiting for its
    ReadyForQuery, so that an error is still allowed. -/
theorem Cut.open_ {a : List AnyBackendMessage} (h : Cut c m a)
    (hm : m.isExtended = true ∨ m = .query) :
    ∃ p e s, a = p ++ [.errorResponse e] ∧ Open c m p s ∧ s ≠ .queryNeedsReady := by
  obtain ⟨p, q, e, hq, hans, rfl⟩ := h
  refine ⟨p, e, ?_⟩
  rcases hm with hm | rfl
  · obtain ⟨p', last, s, cs, hsplit, hopen, hfin⟩ := hans.open_ hm
    -- the cut lies before the finishing message
    rcases List.eq_nil_or_concat q with rfl | ⟨q', x, rfl⟩
    · exact absurd rfl hq
    · rw [List.concat_eq_append, ← List.append_assoc] at hsplit
      have hp : p ++ q' = p' := List.append_inj_left' hsplit rfl
      rw [← hp] at hopen
      obtain ⟨s', h1, h2⟩ := hopen.split
      refine ⟨s', rfl, h1, ?_⟩
      rintro rfl
      have hh := h1.holds
      cases m <;> simp [RequestMessageType.isExtended, ReadResponseFsm.holds] at hm hh
  · obtain ⟨s, hopen, _⟩ := hans.open_query
    obtain ⟨s', h1, h2⟩ := hopen.split
    refine ⟨s', rfl, h1, ?_⟩
    rintro rfl
    rcases h2 with ⟨h2, _⟩ | ⟨_, _, _, h2⟩
    · exact hq h2
    · exact h2.ne_needsReady rfl

end Walks

end NativePg
