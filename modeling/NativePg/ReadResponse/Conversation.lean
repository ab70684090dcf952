/-
  File:      NativePg/ReadResponse/Conversation.lean
  Subject:   What the handler of a request is told of the response of a conforming server.

  * `tell`, `told` -- what an answer means to a handler, read off the answer alone: a copy and a
    command without rows count as an empty description, and what has no contents is dropped;
  * `Conversation` -- a `Transcript` with the calls it stands for: each answer is told at the
    offset of the message it belongs to, and so are the messages a server skips behind an error;
  * **`feed_conversation`** -- the response machine makes exactly these calls, and finishes with
    the last message, wherever async messages are put in.
-/
import NativePg.ReadResponse.Complete

namespace NativePg

open ReadResponse ReadResponseFsm

/-! ## 1. What an answer says -/

/-- One message of an answer, as a handler is told of it. `described` says whether rows have been
    announced; where they have not, the end of a command is told with an empty description. -/
def tell (described : Bool) : AnyBackendMessage → List AnyRequestMessage
  | .bindComplete => [.bindComplete]
  | .closeComplete => [.closeComplete]
  | .parseComplete => [.parseComplete]
  | .rowDescription d => [.rowDescription d]
  | .noData | .copyOutResponse _ => [.rowDescription {}]
  | .dataRow r => [.dataRow r]
  | .commandComplete tag =>
      if described then [.commandComplete tag] else [.rowDescription {}, .commandComplete tag]
  | .emptyQueryResponse => [.emptyQueryResponse]
  | .portalSuspended => [.portalSuspended]
  | .errorResponse e => [.errorResponse e]
  | _ => []

/-- Whether rows are announced behind a message. -/
def describedBehind (described : Bool) : AnyBackendMessage → Bool
  | .rowDescription _ | .copyOutResponse _ => true
  | .commandComplete _ | .errorResponse _ => false
  | _ => described

/-- The messages of an answer, from one that may have announced rows on. -/
def toldFrom : Bool → List AnyBackendMessage → List AnyRequestMessage
  | _, [] => []
  | described, msg :: msgs => tell described msg ++ toldFrom (describedBehind described msg) msgs

/-- **What a handler is told of an answer to `m`**: only a query announces its own rows. -/
def told (m : RequestMessageType) (a : List AnyBackendMessage) : List AnyRequestMessage :=
  toldFrom (m != .query) a

theorem toldFrom_snoc (msg : AnyBackendMessage) : ∀ (described : Bool) (p : List AnyBackendMessage),
    toldFrom described (p ++ [msg]) =
      toldFrom described p ++ tell (p.foldl describedBehind described) msg
  | _, [] => by simp [toldFrom]
  | described, x :: p => by
      rw [List.cons_append, toldFrom, toldFrom, toldFrom_snoc msg _ p, List.append_assoc,
        List.foldl_cons]

/-- **Everything a conforming server can send for the request messages from index `i` on**, with
    the calls it stands for. -/
inductive Conversation (allowCopy : Bool) :
    Nat → List RequestMessageType → List AnyBackendMessage → List Call → Prop where
  | nil {i} : Conversation allowCopy i [] [] []
  | flush {i rest t cs} (h : Conversation allowCopy (i + 1) rest t cs) :
      Conversation allowCopy i (.flush :: rest) t cs
  | sync {i rest t cs} (status : TransactionStatus)
      (h : Conversation allowCopy (i + 1) rest t cs) :
      Conversation allowCopy i (.sync :: rest) (.readyForQuery status :: t) cs
  | answered {i m rest a t cs} (hm : m.isExtended = true) (ha : Answer allowCopy m a)
      (h : Conversation allowCopy (i + 1) rest t cs) :
      Conversation allowCopy i (m :: rest) (a ++ t) ((told m a).map (⟨·, i⟩) ++ cs)
  | failed {i m rest a t cs} (hm : m.isExtended = true) (ha : Cut allowCopy m a)
      (h : Conversation allowCopy (i + 1 + (rest.takeWhile (· ≠ .sync)).length)
        (rest.dropWhile (· ≠ .sync)) t cs) :
      Conversation allowCopy i (m :: rest) (a ++ t)
        ((told m a).map (⟨·, i⟩) ++ (skippedCalls (rest.takeWhile (· ≠ .sync)) (i + 1) ++ cs))
  | query {i rest a t cs} (ha : Answer allowCopy .query a ∨ Cut allowCopy .query a)
      (status : TransactionStatus) (h : Conversation allowCopy (i + 1) rest t cs) :
      Conversation allowCopy i (.query :: rest) (a ++ .readyForQuery status :: t)
        ((told .query a).map (⟨·, i⟩) ++ cs)

/-- Every transcript stands for some calls. -/
theorem Transcript.conversation {c : Bool} {ms : List RequestMessageType}
    {t : List AnyBackendMessage} (h : Transcript c ms t) : ∀ i, ∃ cs, Conversation c i ms t cs := by
  induction h with
  | nil => exact fun _ => ⟨_, .nil⟩
  | flush _ ih => exact fun i => (ih (i + 1)).imp fun _ h => .flush h
  | sync status _ ih => exact fun i => (ih (i + 1)).imp fun _ h => .sync status h
  | answered hm ha _ ih =>
      intro i
      obtain ⟨cs, h⟩ := ih (i + 1)
      exact ⟨_, .answered hm ha h⟩
  | @failed m rest a t hm ha _ ih =>
      intro i
      obtain ⟨cs, h⟩ := ih (i + 1 + (rest.takeWhile (· ≠ .sync)).length)
      exact ⟨_, .failed hm ha h⟩
  | query ha status _ ih =>
      intro i
      obtain ⟨cs, h⟩ := ih (i + 1)
      exact ⟨_, .query ha status h⟩

theorem Conversation.transcript {c : Bool} {i : Nat} {ms : List RequestMessageType}
    {t : List AnyBackendMessage} {cs : List Call} (h : Conversation c i ms t cs) :
    Transcript c ms t := by
  induction h with
  | nil => exact .nil
  | flush _ ih => exact .flush ih
  | sync status _ ih => exact .sync status ih
  | answered hm ha _ ih => exact .answered hm ha ih
  | failed hm ha _ ih => exact .failed hm ha ih
  | query ha status _ ih => exact .query ha status ih

namespace ReadResponseFsm

/-! ## 2. The machine tells it so -/

/-- Whether the state `s` of the request message `m` stands behind an announcement of rows. -/
def described (m : RequestMessageType) (s : State) : Bool :=
  m != .query || s == .queryRows || s == .queryCopyOut || s == .queryCopyOutNeedsCommandComplete

theorem described_msgFirst (m : RequestMessageType) : described m .msgFirst = (m != .query) := by
  cases m <;> rfl

/-- **A message that leaves `m` open is told as an answer tells it.** -/
theorem Stays.told {c : Bool} {m : RequestMessageType} {s s' : State} {msg : AnyBackendMessage}
    {cs : List AnyRequestMessage} (h : Stays c m s msg s' cs) :
    cs = tell (described m s) msg ∧ described m s' = describedBehind (described m s) msg := by
  cases h with
  | queryCopyOut _ _ hs | queryRowDescription _ hs | queryBareComplete _ hs
  | queryComplete _ hs => rcases hs with rfl | rfl <;> exact ⟨rfl, rfl⟩
  | queryError e hh hs => exact ⟨rfl, rfl⟩
  | _ => exact ⟨rfl, rfl⟩

theorem Finishes.told {c : Bool} {m : RequestMessageType} {p : List AnyBackendMessage} {s : State}
    {msg : AnyBackendMessage} {cs : List AnyRequestMessage} (hp : Open c m p s)
    (h : Finishes m s msg cs) : cs = tell (described m s) msg := by
  cases h with
  | execute tag hs => rcases hs with rfl | rfl <;> rfl
  | query t hs => rcases hs with rfl | rfl <;> rfl
  | _ => rfl

/-- The announcements of a partial answer are in the machine's state. -/
theorem Open.described {c : Bool} {m : RequestMessageType} {p : List AnyBackendMessage} {s : State}
    (h : Open c m p s) : p.foldl describedBehind (m != .query) = described m s := by
  induction h with
  | start => exact (described_msgFirst m).symm
  | step _ hs ih => rw [List.foldl_append, ih, List.foldl_cons, List.foldl_nil, hs.told.2]

theorem Open.told_snoc {c : Bool} {m : RequestMessageType} {p : List AnyBackendMessage} {s : State}
    (h : Open c m p s) (msg : AnyBackendMessage) :
    told m (p ++ [msg]) = told m p ++ tell (ReadResponseFsm.described m s) msg := by
  rw [told, toldFrom_snoc, h.described]
  rfl

/-- All of `msgs` is read, with the calls `cs`, and the machine asks for more. -/
def Tells (f : ReadResponseFsm) (msgs : List AnyBackendMessage) (cs : List Call)
    (f' : ReadResponseFsm) : Prop :=
  f.feed msgs = .ok ⟨f', cs, none, []⟩

/-- The response ends without error, at its last message and with the calls `cs`. -/
def Closes (f : ReadResponseFsm) (msgs : List AnyBackendMessage) (cs : List Call) : Prop :=
  ∃ f', f.feed msgs = .ok ⟨f', cs, some .success, []⟩

theorem tells_of_resume {f : ReadResponseFsm} {msg : AnyBackendMessage} {r : Reply}
    (h : f.resume msg = .ok r) (hr : r.result = .read) : f.Tells [msg] r.calls r.fsm := by
  rw [Tells, feed_cons h hr]
  simp [feed, Except.map, Run.after]

section
variable {f f' f'' : ReadResponseFsm} {msgs msgs' : List AnyBackendMessage} {cs cs' : List Call}

theorem Tells.trans (h : f.Tells msgs cs f') (h' : f'.Tells msgs' cs' f'') :
    f.Tells (msgs ++ msgs') (cs ++ cs') f'' := by
  rw [Tells, feed_append h, h']
  rfl

theorem Tells.closes (h : f.Tells msgs cs f') (h' : f'.Closes msgs' cs') :
    f.Closes (msgs ++ msgs') (cs ++ cs') := by
  obtain ⟨g, hg⟩ := h'
  exact ⟨g, by rw [feed_append h, hg]; rfl⟩

end

/-- **A partial answer is read and told**, and leaves the machine before the same message. -/
theorem Open.tells {c : Bool} {m : RequestMessageType} {p : List AnyBackendMessage} {s : State}
    (h : Open c m p s) {f : ReadResponseFsm} {i : Nat} {rest : List RequestMessageType}
    (hc : f.allowCopy = c) (hstate : f.state = .msgFirst) {k : Nat} (hb : f.Before k m rest)
    (hi : f.current + k = i) :
    ∃ f' k', f.Tells p ((told m p).map (⟨·, i⟩)) f' ∧ f'.Before k' m rest ∧ f'.current + k' = i ∧
      f'.state = s ∧ f'.allowCopy = c := by
  induction h with
  | start => exact ⟨f, k, rfl, hb, hi, hstate, hc⟩
  | @step p s msg s' cs hopen hs ih =>
      obtain ⟨f', k', htells, hb', rfl, rfl, rfl⟩ := ih
      have hstep := tells_of_resume (resume_stays hb' hs) rfl
      refine ⟨{ f' with current := f'.current + k', state := s' }, 0, ?_, ⟨hb'.drop, hb'.ne⟩, rfl,
        rfl, rfl⟩
      rw [hopen.told_snoc, ← hs.told.1, List.map_append]
      exact htells.trans hstep

/-- **Behind a message that finishes a request message** the response is over, or goes on with the
    messages that follow. -/
theorem closes_finish {f : ReadResponseFsm} {k : Nat} {m : RequestMessageType}
    {rest : List RequestMessageType} {msg : AnyBackendMessage} (xs : List AnyRequestMessage)
    {t : List AnyBackendMessage} {cs : List Call} (hb : f.Before k m rest)
    (hfin : Finishes m f.state msg xs) (hnil : rest = [] → t = [] ∧ cs = [])
    (hrest : ∀ f' : ReadResponseFsm, f'.allowCopy = f.allowCopy → rest ≠ [] →
      f'.getRemainingMessages = rest → f'.current = f.current + k + 1 → f'.state = .msgFirst →
      f'.Closes t cs) :
    f.Closes (msg :: t) (xs.map (⟨·, f.current + k⟩) ++ cs) := by
  have hres := resume_finishes hb hfin
  by_cases hr : rest = []
  · obtain ⟨rfl, rfl⟩ := hnil hr
    refine ⟨{ f with current := f.current + k + 1, state := .msgFirst }, ?_⟩
    simp only [feed, hres, resultBefore, hr, List.isEmpty_nil, if_true, List.append_nil]
  · have hread : resultBefore rest = .read := by simp [resultBefore, hr]
    exact (tells_of_resume hres hread).closes (hrest _ rfl hr hb.drop_succ rfl rfl)

theorem conversation_nil {c : Bool} {i : Nat} {t : List AnyBackendMessage} {cs : List Call}
    (h : Conversation c i [] t cs) : t = [] ∧ cs = [] := by
  cases h
  exact ⟨rfl, rfl⟩

theorem takeWhile_sync {pre post : List RequestMessageType}
    (h : ∀ x ∈ pre, x.endsUnit = false) :
    (pre ++ .sync :: post).takeWhile (· ≠ .sync) = pre := by
  rw [List.takeWhile_append_of_pos]
  · simp
  · intro x hx
    have := h x hx
    cases x <;> first | rfl | cases this

/-- **Every conversation is told to its end.** The induction is over the conversation; the machine
    may still have to step over flushes, which `k` counts. -/
theorem Conversation.closes {c : Bool} {i : Nat} {ms : List RequestMessageType}
    {t : List AnyBackendMessage} {cs : List Call} (h : Conversation c i ms t cs) :
    ∀ {f : ReadResponseFsm} {b : Bool} (k : Nat), f.allowCopy = c → BatchOk b ms → ms ≠ [] →
      f.getRemainingMessages = List.replicate k .flush ++ ms → f.current + k = i →
      f.state = .msgFirst → f.Closes t cs := by
  induction h with
  | nil => exact fun _ _ _ hne _ _ _ => absurd rfl hne
  | flush h ih =>
      intro f b k hc hb _ hat hi hs
      have hopen := hb.tail_open rfl
      refine ih (k + 1) hc hopen hopen.ne_nil ?_ (by omega) hs
      rw [hat, List.replicate_succ', List.append_assoc]
      rfl
  | @sync i rest t cs status h ih =>
      intro f b k hc hb _ hat hi hs
      obtain ⟨b', hb'⟩ := hb.tail
      have hfin : Finishes .sync f.state (.readyForQuery status) [] := by
        rw [hs]
        exact .sync status
      refine closes_finish [] ⟨hat, by decide⟩ hfin ?_ fun f' hc' hne hrem hcur hst => ?_
      · rintro rfl
        exact conversation_nil h
      · exact ih 0 (hc'.trans hc) hb' hne hrem (by omega) hst
  | @answered i m rest a t cs hm ha h ih =>
      intro f b k hc hb _ hat hi hs
      have hflush : m ≠ .flush := by rintro rfl; cases hm
      have hend : m.endsUnit = false := by cases m <;> first | rfl | cases hm
      have hopen := hb.tail_open hend
      obtain ⟨p, last, s, xs, rfl, hp, hfin⟩ := ha.open_ hm
      obtain ⟨f', k', htells, hb', rfl, rfl, hc'⟩ := hp.tells hc hs ⟨hat, hflush⟩ hi
      rw [hp.told_snoc, ← Finishes.told hp hfin, List.map_append, List.append_assoc,
        List.append_assoc]
      refine htells.closes (closes_finish _ hb' hfin ?_ fun f'' hc'' hne hrem hcur hst => ?_)
      · exact fun hnil => absurd hnil hopen.ne_nil
      · exact ih 0 (hc''.trans hc') hopen hne hrem (by omega) hst
  | @failed i m rest a t cs hm ha h ih =>
      intro f b k hc hb _ hat hi hs
      have hflush : m ≠ .flush := by rintro rfl; cases hm
      have hend : m.endsUnit = false := by cases m <;> first | rfl | cases hm
      obtain ⟨pre, post, rfl, hpre, hpost⟩ := (hb.tail_open hend).closes
      obtain ⟨p, e, s, rfl, hp, _⟩ := ha.open_ (.inl hm)
      obtain ⟨f', k', htells, hb', rfl, rfl, hc'⟩ := hp.tells hc hs ⟨hat, hflush⟩ hi
      rw [dropWhile_sync hpre, takeWhile_sync hpre] at ih
      have hdrop : f'.req.messages.drop (f'.current + k' + 1 + pre.length) = .sync :: post := by
        rw [← List.drop_drop, hb'.drop_succ, List.drop_left]
      have herr := tells_of_resume (resume_error e hb' hm hp.holds hpre) rfl
      have hrest := ih
        (f := { f' with current := f'.current + k' + 1 + pre.length, state := .msgFirst }) 0 hc'
        (.sync (b := false) hpost) (by simp) hdrop rfl rfl
      have hclose := (htells.trans herr).closes hrest
      rw [takeWhile_sync hpre, hp.told_snoc]
      simpa [tell] using hclose
  | @query i rest a t cs ha status h ih =>
      intro f b k hc hb _ hat hi hs
      obtain ⟨b', hb'⟩ := hb.tail
      -- whether it is whole or cut, the answer leaves the query waiting for ReadyForQuery
      have hopen : ∃ s, Open c .query a s ∧ (s = .queryFirst ∨ s = .queryNeedsReady) := by
        rcases ha with ha | ha
        · exact ha.open_query
        · obtain ⟨p, e, s, rfl, hp, hs⟩ := ha.open_ (.inr rfl)
          exact ⟨_, hp.step (.queryError e hp.holds hs), .inr rfl⟩
      obtain ⟨s, hp, hready⟩ := hopen
      obtain ⟨f', k', htells, hbefore, rfl, rfl, hc'⟩ := hp.tells hc hs ⟨hat, by decide⟩ hi
      refine htells.closes (closes_finish [] hbefore (.query status hready) ?_
        fun f'' hc'' hne hrem hcur hst => ?_)
      · rintro rfl
        exact conversation_nil h
      · exact ih 0 (hc''.trans hc') hb' hne hrem (by omega) hst

/-! ## 3. Async messages -/

/-- **Async messages change nothing**: those behind the end are not read. -/
theorem feed_of_withoutAsync : ∀ {msgs : List AnyBackendMessage} {f f' : ReadResponseFsm}
    {cs : List Call} {ec : ErrorCode}, f.feed (withoutAsync msgs) = .ok ⟨f', cs, some ec, []⟩ →
    ∃ unread, f.feed msgs = .ok ⟨f', cs, some ec, unread⟩ ∧ unread <:+ msgs ∧
      ∀ m ∈ unread, m.isAsync = true
  | [], _, _, _, _, h => by cases h
  | msg :: msgs, f, f', cs, ec, h => by
      by_cases hm : msg.isAsync = true
      · have hfilter : withoutAsync (msg :: msgs) = withoutAsync msgs := by
          simp [withoutAsync, hm]
        rw [hfilter] at h
        obtain ⟨unread, hfeed, hsuffix, hasync⟩ := feed_of_withoutAsync h
        exact ⟨unread, by rw [feed_cons (f.resume_async hm) rfl, hfeed]; rfl,
          hsuffix.trans (List.suffix_cons ..), hasync⟩
      · have hfilter : withoutAsync (msg :: msgs) = msg :: withoutAsync msgs := by
          simp [withoutAsync, hm]
        rw [hfilter] at h
        cases hr : f.resume msg with
        | error e =>
            simp only [feed, hr] at h
            cases h
        | ok r =>
            cases hres : r.result with
            | done ec' =>
                simp only [feed, hr, hres, Except.ok.injEq, Run.mk.injEq] at h ⊢
                obtain ⟨rfl, rfl, hec, hun⟩ := h
                refine ⟨msgs, ⟨rfl, rfl, hec, rfl⟩, List.suffix_cons .., fun m hm' => ?_⟩
                have := List.filter_eq_nil_iff.mp hun m hm'
                simpa using this
            | read =>
                rw [feed_cons hr hres] at h ⊢
                cases ht : r.fsm.feed (withoutAsync msgs) with
                | error e =>
                    rw [ht] at h
                    cases h
                | ok t =>
                    rw [ht] at h
                    obtain ⟨g, cs', fin, unread⟩ := t
                    simp only [Except.map, Run.after, Except.ok.injEq, Run.mk.injEq] at h
                    obtain ⟨rfl, rfl, rfl, rfl⟩ := h
                    obtain ⟨unread, hfeed, hsuffix, hasync⟩ := feed_of_withoutAsync ht
                    exact ⟨unread, by rw [hfeed]; rfl, hsuffix.trans (List.suffix_cons ..), hasync⟩

/-- **The handler is told exactly what the server says.** -/
theorem feed_conversation {req : Request} (h : req.Accepted) (allowCopy : Bool)
    {msgs : List AnyBackendMessage} {cs : List Call}
    (ht : Conversation allowCopy 0 req.messages (withoutAsync msgs) cs) :
    ∃ f' unread, (readResponseFsm req allowCopy).feed msgs =
      .ok ⟨f', cs, some .success, unread⟩ ∧ unread <:+ msgs ∧ ∀ m ∈ unread, m.isAsync = true := by
  obtain ⟨f', hfeed⟩ := Conversation.closes (f := readResponseFsm req allowCopy) ht 0 rfl
    h.batchOk h.ne_nil rfl rfl rfl
  obtain ⟨unread, hrun, hsuffix, hasync⟩ := feed_of_withoutAsync hfeed
  exact ⟨f', unread, hrun, hsuffix, hasync⟩

/-- A transcript stands for one list of calls. -/
theorem conversation_unique {req : Request} (h : req.Accepted) {allowCopy : Bool}
    {t : List AnyBackendMessage} {cs cs' : List Call}
    (hcs : Conversation allowCopy 0 req.messages t cs)
    (hcs' : Conversation allowCopy 0 req.messages t cs') : cs = cs' := by
  obtain ⟨f, hfeed⟩ := Conversation.closes (f := readResponseFsm req allowCopy) hcs 0 rfl
    h.batchOk h.ne_nil rfl rfl rfl
  obtain ⟨f', hfeed'⟩ := Conversation.closes (f := readResponseFsm req allowCopy) hcs' 0 rfl
    h.batchOk h.ne_nil rfl rfl rfl
  have hsame := Except.ok.inj (hfeed.symm.trans hfeed')
  cases hsame
  rfl

end ReadResponseFsm

end NativePg
