/-
  File:      NativePg/ReadResponse/Calls.lean
  Subject:   What the handler of a request gets to see of a response that ends without error.

  * `isTerminal` -- the calls that report an extended message as finished;
  * `Own` -- the calls one request message may get, given whether its batch has failed before;
  * `Reported` -- the calls of a whole request, message by message. The flag it carries is "an
    ErrorResponse has been reported in this batch"; every fact about the calls is an induction
    over it;
  * `Answered.reported` -- the calls of a response are `Reported`;
  * **`feed_reported`** -- offsets never go down, syncs and flushes get no call, every extended
    message gets exactly one terminal call, its last one, which is `message_skipped` exactly when
    its batch failed before it, and every query gets a call.
-/
import NativePg.ReadResponse.Answers

namespace NativePg

open ReadResponse

/-! ## 1. Terminal calls -/

namespace AnyRequestMessage

/-- The calls that report the request message `m` as finished: its completion, an error, or that
    the server skipped it. -/
def isTerminal : RequestMessageType → AnyRequestMessage → Bool
  | _, .errorResponse _ | _, .messageSkipped => true
  | .bind, .bindComplete | .close, .closeComplete | .parse, .parseComplete => true
  | .describe, .rowDescription _ => true
  | .execute, .commandComplete _ | .execute, .emptyQueryResponse => true
  | .execute, .portalSuspended => true
  | _, _ => false

theorem isError_of_not_terminal {m : RequestMessageType} {x : AnyRequestMessage}
    (h : isTerminal m x = false) : x.isError = false := by
  cases x with
  | errorResponse e => cases m <;> cases h
  | _ => rfl

end AnyRequestMessage

open AnyRequestMessage

/-- The calls one request message may get: nothing for a flush or a sync, something for a query,
    `message_skipped` for an extended message whose batch has failed, and for any other extended
    message some calls that are not terminal and one that is. -/
def Own (failed : Bool) (m : RequestMessageType) (xs : List AnyRequestMessage) : Prop :=
  match m with
  | .flush | .sync => xs = []
  | .query => xs ≠ []
  | m =>
      if failed then xs = [.messageSkipped]
      else ∃ p t, xs = p ++ [t] ∧ (∀ x ∈ p, isTerminal m x = false) ∧ isTerminal m t = true ∧
        t ≠ .messageSkipped

/-- **The calls of a request from index `i` on**, when its batch has failed before (`failed`) or
    not. -/
inductive Reported : Bool → Nat → List RequestMessageType → List Call → Prop where
  | nil {i} : Reported false i [] []
  | cons {failed i m ms xs cs} (hown : Own failed m xs)
      (h : Reported ((failed || xs.any isError) && !m.endsUnit) (i + 1) ms cs) :
      Reported failed i (m :: ms) (xs.map (⟨·, i⟩) ++ cs)

/-! ## 2. The calls of a response -/

namespace ReadResponseFsm

/-- What the handler has been told of the current message. -/
structure Told (m : RequestMessageType) (s : State) (xs : List AnyRequestMessage) : Prop where
  extended : m.isExtended = true → ∀ x ∈ xs, isTerminal m x = false
  query : m = .query → s ≠ .msgFirst → xs ≠ []
  sync : m = .sync → xs = []

theorem Told.nil (m : RequestMessageType) : Told m .msgFirst [] where
  extended _ x hx := by cases hx
  query _ h := absurd rfl h
  sync _ := rfl

theorem Told.stays {c : Bool} {m : RequestMessageType} {s s' : State} {msg : AnyBackendMessage}
    {xs cs : List AnyRequestMessage} (h : Told m s xs) (hs : Stays c m s msg s' cs) :
    Told m s' (xs ++ cs) where
  extended hm x hx := by
    rcases List.mem_append.mp hx with hx | hx
    · exact h.extended hm x hx
    · cases hs with
      | execRow | execCopyOut =>
          rw [List.mem_singleton.mp hx]
          rfl
      | execCopyData | execCopyDone => cases hx
      | _ => cases hm
  query hm _ := by
    subst hm
    by_cases hfirst : s = .msgFirst
    · subst hfirst
      -- whatever opens the answer to a query is reported
      cases hs with
      | queryComplete _ hs => rcases hs with hs | hs <;> cases hs
      | _ => simp
    · intro hnil
      exact h.query rfl hfirst (List.append_eq_nil_iff.mp hnil).1
  sync hm := by
    subst hm
    cases hs

theorem Told.any_isError {m : RequestMessageType} {s : State} {xs : List AnyRequestMessage}
    (h : Told m s xs) (hm : m.isExtended = true) (t : AnyRequestMessage) :
    (xs ++ [t]).any isError = t.isError := by
  have hxs : xs.any isError = false := by
    rw [List.any_eq_false]
    intro x hx
    simp [isError_of_not_terminal (h.extended hm x hx)]
  rw [List.any_append, hxs]
  simp

/-- **A terminal call completes the calls of an extended message.** -/
theorem Told.own {m : RequestMessageType} {s : State} {xs : List AnyRequestMessage}
    (h : Told m s xs) (hm : m.isExtended = true) {t : AnyRequestMessage}
    (ht : isTerminal m t = true) (hskip : t ≠ .messageSkipped) : Own false m (xs ++ [t]) := by
  have hown : ∃ p t', xs ++ [t] = p ++ [t'] ∧ (∀ x ∈ p, isTerminal m x = false) ∧
      isTerminal m t' = true ∧ t' ≠ .messageSkipped :=
    ⟨xs, t, rfl, h.extended hm, ht, hskip⟩
  cases m <;> first | exact hown | cases hm

/-- An extended message finishes with one terminal call, neither an error nor a skip. -/
theorem Finishes.terminal {m : RequestMessageType} {s : State} {msg : AnyBackendMessage}
    {cs : List AnyRequestMessage} (h : Finishes m s msg cs) (hm : m.isExtended = true) :
    ∃ t, cs = [t] ∧ isTerminal m t = true ∧ t ≠ .messageSkipped ∧ t.isError = false := by
  cases h with
  | sync | query => cases hm
  | _ => exact ⟨_, rfl, rfl, by simp, rfl⟩

/-- **Behind its last message the calls of a request message are those it may get**, and none of
    them is an error of its batch. -/
theorem Told.finishes {m : RequestMessageType} {s : State} {msg : AnyBackendMessage}
    {xs cs : List AnyRequestMessage} (h : Told m s xs) (hfin : Finishes m s msg cs) :
    Own false m (xs ++ cs) ∧ ((xs ++ cs).any isError && !m.endsUnit) = false := by
  by_cases hm : m.isExtended = true
  · obtain ⟨t, rfl, ht, hskip, herr⟩ := hfin.terminal hm
    refine ⟨h.own hm ht hskip, ?_⟩
    rw [h.any_isError hm, herr]
    rfl
  · cases hfin with
    | sync t => exact ⟨by simpa [Own] using h.sync rfl, Bool.and_false _⟩
    | query t hs =>
        have hs' : s ≠ .msgFirst := by rcases hs with rfl | rfl <;> decide
        exact ⟨by simpa [Own] using h.query rfl hs', Bool.and_false _⟩
    | _ => exact absurd rfl hm

end ReadResponseFsm

namespace ReadResponseFsm

theorem Heard.told {c : Bool} {m : RequestMessageType} {s : State} {xs : List AnyRequestMessage}
    (h : Heard c m s xs) : Told m s xs := by
  induction h with
  | nil => exact .nil m
  | stays _ hs ih => exact ih.stays hs

/-- All the calls of a request message are calls it may get. -/
theorem Replied.own {c failed : Bool} {m : RequestMessageType} {xs : List AnyRequestMessage}
    (h : Replied c failed m xs) : Own failed m xs := by
  cases h with
  | flush => rfl
  | skipped hm => cases m <;> first | rfl | cases hm
  | @finished _ _ s msg xs cs hfailed h hfin =>
      cases failed with
      | false => exact (h.told.finishes hfin).1
      | true =>
          obtain rfl := hfailed rfl
          exact (h.told.finishes hfin).1
  | cut e hm h => exact h.told.own hm (by cases m <;> rfl) (by simp)

end ReadResponseFsm

/-- **The calls of a response that ends without error.** -/
theorem Answered.reported {c failed failed' : Bool} {i : Nat} {ms : List RequestMessageType}
    {cs : List Call} (h : Answered c failed i ms cs failed') (hend : failed' = false) :
    Reported failed i ms cs := by
  induction h with
  | nil =>
      subst hend
      exact .nil
  | cons h _ ih => exact .cons h.own (ih hend)

/-! ## 3. Reading the calls -/

/-- The calls with offset `i`. -/
def callsAt (i : Nat) (cs : List Call) : List Call := cs.filter (·.offset = i)

/-- The messages `j` and `i` of a request belong to one batch: from one to the other there is
    neither a sync, which ends a batch, nor a query, which is not part of any. -/
def SameBatch (ms : List RequestMessageType) (j i : Nat) : Prop :=
  ∀ l, j ≤ l → l ≤ i → ∀ m, ms[l]? = some m → m.endsUnit = false

theorem sameBatch_succ {m : RequestMessageType} {ms : List RequestMessageType} {j i : Nat} :
    SameBatch (m :: ms) (j + 1) (i + 1) ↔ SameBatch ms j i := by
  constructor
  · intro h l hj hi x hx
    exact h (l + 1) (by omega) (by omega) x hx
  · intro h l hj hi x hx
    obtain ⟨l, rfl⟩ : ∃ l', l = l' + 1 := ⟨l - 1, by omega⟩
    exact h l (by omega) (by omega) x hx

theorem sameBatch_zero {m : RequestMessageType} {ms : List RequestMessageType} {i : Nat} :
    SameBatch (m :: ms) 0 (i + 1) ↔ m.endsUnit = false ∧ SameBatch ms 0 i := by
  constructor
  · intro h
    refine ⟨h 0 (by omega) (by omega) m rfl, fun l _ hi x hx => ?_⟩
    exact h (l + 1) (by omega) (by omega) x hx
  · rintro ⟨hm, h⟩ l _ hi x hx
    cases l with
    | zero =>
        cases hx
        exact hm
    | succ l => exact h l (by omega) (by omega) x hx

namespace Reported

variable {failed : Bool} {i : Nat} {ms : List RequestMessageType} {cs : List Call}

theorem le_offset (h : Reported failed i ms cs) : ∀ c ∈ cs, i ≤ c.offset := by
  induction h with
  | nil =>
      intro c hc
      cases hc
  | cons _ _ ih =>
      intro c hc
      rcases List.mem_append.mp hc with hc | hc
      · obtain ⟨x, _, rfl⟩ := List.mem_map.mp hc
        exact Nat.le_refl _
      · have := ih c hc
        omega

theorem sorted (h : Reported failed i ms cs) : cs.Pairwise (·.offset ≤ ·.offset) := by
  induction h with
  | nil => exact .nil
  | cons _ h ih =>
      refine List.pairwise_append.mpr ⟨?_, ih, fun a ha b hb => ?_⟩
      · exact List.pairwise_map.mpr (List.pairwise_of_forall fun _ _ => Nat.le_refl _)
      · obtain ⟨x, _, rfl⟩ := List.mem_map.mp ha
        exact Nat.le_of_succ_le (h.le_offset b hb)

/-- A call belongs to a message that is neither a sync nor a flush. -/
theorem message (h : Reported failed i ms cs) :
    ∀ c ∈ cs, ∃ d m, c.offset = i + d ∧ ms[d]? = some m ∧ m ≠ .sync ∧ m ≠ .flush := by
  induction h with
  | nil =>
      intro c hc
      cases hc
  | @cons _ i m _ xs _ hown _ ih =>
      intro c hc
      rcases List.mem_append.mp hc with hc | hc
      · obtain ⟨x, hx, rfl⟩ := List.mem_map.mp hc
        refine ⟨0, m, rfl, rfl, ?_, ?_⟩
        all_goals
          rintro rfl
          obtain rfl : xs = [] := hown
          cases hx
      · obtain ⟨d, m', hoff, hm'⟩ := ih c hc
        exact ⟨d + 1, m', by omega, hm'⟩

theorem callsAt_head {xs : List AnyRequestMessage}
    (h : Reported failed (i + 1) ms cs) :
    callsAt i (xs.map (⟨·, i⟩) ++ cs) = xs.map (⟨·, i⟩) := by
  have hxs : callsAt i (xs.map (⟨·, i⟩)) = xs.map (⟨·, i⟩) := by
    rw [callsAt, List.filter_eq_self]
    intro c hc
    obtain ⟨x, _, rfl⟩ := List.mem_map.mp hc
    simp
  have hcs : callsAt i cs = [] := by
    rw [callsAt, List.filter_eq_nil_iff]
    intro c hc
    have := h.le_offset c hc
    simp
    omega
  rw [callsAt, List.filter_append]
  exact (congrArg₂ (· ++ ·) hxs hcs).trans (List.append_nil _)

theorem callsAt_tail {xs : List AnyRequestMessage} {n : Nat} (hn : i < n) :
    callsAt n (xs.map (⟨·, i⟩) ++ cs) = callsAt n cs := by
  have hxs : callsAt n (xs.map (⟨·, i⟩)) = [] := by
    rw [callsAt, List.filter_eq_nil_iff]
    intro c hc
    obtain ⟨x, _, rfl⟩ := List.mem_map.mp hc
    simp
    omega
  rw [callsAt, List.filter_append]
  exact congrArg (· ++ callsAt n cs) hxs

/-- **The calls of one message**, and what the flag says there: an ErrorResponse was reported for
    an earlier message of its batch. The induction is on the distance `d` from the index the
    calls start at. -/
theorem at_index : ∀ {d : Nat} {failed : Bool} {i : Nat} {ms : List RequestMessageType}
    {cs : List Call} {m : RequestMessageType}, Reported failed i ms cs → ms[d]? = some m →
    ∃ failed' xs, callsAt (i + d) cs = xs.map (⟨·, i + d⟩) ∧ Own failed' m xs ∧
      (m.endsUnit = false →
        (failed' = true ↔ failed = true ∧ SameBatch ms 0 d ∨
          ∃ c ∈ cs, c.msg.isError = true ∧ ∃ d', c.offset = i + d' ∧ d' < d ∧ SameBatch ms d' d))
  | 0, failed, i, _, _, m, h, hm => by
      cases h with
      | nil => cases hm
      | @cons _ _ m' ms xs cs hown h =>
          cases hm
          refine ⟨failed, xs, callsAt_head h, hown, fun hend => ⟨fun hf => .inl ⟨hf, ?_⟩, ?_⟩⟩
          · intro l _ hl x hx
            obtain rfl : l = 0 := by omega
            cases hx
            exact hend
          · rintro (⟨hf, _⟩ | ⟨_, _, _, _, _, hlt, _⟩)
            · exact hf
            · cases hlt
  | d + 1, failed, i, _, _, m, h, hm => by
      cases h with
      | nil => cases hm
      | @cons _ _ m' ms xs cs hown h =>
          obtain ⟨failed', ys, hys, hown', hflag⟩ := at_index (d := d) h hm
          have hi : i + 1 + d = i + (d + 1) := by omega
          rw [hi] at hys
          refine ⟨failed', ys, ?_, hown', fun hend => ?_⟩
          · rw [callsAt_tail (by omega)]
            exact hys
          · rw [hflag hend, sameBatch_zero]
            constructor
            · rintro (⟨hf, hsame⟩ | ⟨c, hc, herr, d', hoff, hlt, hsame⟩)
              · simp only [Bool.and_eq_true, Bool.or_eq_true, Bool.not_eq_true'] at hf
                obtain ⟨hf | hf, hm'⟩ := hf
                · exact .inl ⟨hf, hm', hsame⟩
                -- the message itself reports the error
                · obtain ⟨x, hx, herr⟩ := List.any_eq_true.mp hf
                  refine .inr ⟨⟨x, i⟩, ?_, herr, 0, rfl, by omega, sameBatch_zero.mpr ⟨hm', hsame⟩⟩
                  exact List.mem_append_left _ (List.mem_map.mpr ⟨x, hx, rfl⟩)
              · exact .inr ⟨c, List.mem_append_right _ hc, herr, d' + 1, by omega, by omega,
                  sameBatch_succ.mpr hsame⟩
            · rintro (⟨hf, hm', hsame⟩ | ⟨c, hc, herr, d', hoff, hlt, hsame⟩)
              · exact .inl ⟨by simp [hf, hm'], hsame⟩
              · rcases List.mem_append.mp hc with hc | hc
                · obtain ⟨x, hx, rfl⟩ := List.mem_map.mp hc
                  obtain rfl : d' = 0 := by
                    have : i = i + d' := hoff
                    omega
                  obtain ⟨hm', hsame⟩ := sameBatch_zero.mp hsame
                  have hany : xs.any isError = true := List.any_eq_true.mpr ⟨x, hx, herr⟩
                  exact .inl ⟨by simp [hany, hm'], hsame⟩
                · have hle := h.le_offset c hc
                  obtain ⟨d', rfl⟩ : ∃ e, d' = e + 1 := ⟨d' - 1, by omega⟩
                  exact .inr ⟨c, hc, herr, d', by omega, by omega, sameBatch_succ.mp hsame⟩

end Reported

namespace ReadResponseFsm

/-- **What the handler gets to see of a response that ends without error.** The offsets of its
    calls never go down and never are those of a sync or a flush. The calls of an extended
    message end with a terminal one and hold no other; it is `message_skipped` exactly when an
    ErrorResponse was reported for an earlier message of the same batch. A query gets a call. -/
theorem feed_reported {req : Request} (h : req.Accepted) (allowCopy : Bool)
    {msgs : List AnyBackendMessage} {r : Run}
    (hr : (readResponseFsm req allowCopy).feed msgs = .ok r)
    (hfin : r.finished = some .success) :
    r.calls.Pairwise (·.offset ≤ ·.offset) ∧
    (∀ c ∈ r.calls, ∃ m, req.messages[c.offset]? = some m ∧ m ≠ .sync ∧ m ≠ .flush) ∧
    (∀ i m, req.messages[i]? = some m → m.isExtended = true →
      ∃ p t, callsAt i r.calls = p ++ [t] ∧ (∀ c ∈ p, isTerminal m c.msg = false) ∧
        isTerminal m t.msg = true ∧
        (t.msg = .messageSkipped ↔ ∃ c ∈ r.calls, c.msg.isError = true ∧ c.offset < i ∧
          SameBatch req.messages c.offset i)) ∧
    (∀ i, req.messages[i]? = some .query → callsAt i r.calls ≠ []) := by
  have hrep := (feed_answered h allowCopy hr hfin).reported rfl
  refine ⟨hrep.sorted, fun c hc => ?_, fun i m hi hm => ?_, fun i hi => ?_⟩
  · obtain ⟨d, m, hoff, hm⟩ := hrep.message c hc
    rw [hoff, Nat.zero_add]
    exact ⟨m, hm⟩
  · obtain ⟨failed, xs, hcalls, hown, hflag⟩ := hrep.at_index hi
    rw [Nat.zero_add] at hcalls
    have hend : m.endsUnit = false := by cases m <;> first | rfl | cases hm
    have hown' : if failed then xs = [.messageSkipped]
        else ∃ p t, xs = p ++ [t] ∧ (∀ x ∈ p, isTerminal m x = false) ∧ isTerminal m t = true ∧
          t ≠ .messageSkipped := by
      cases m <;> first | exact hown | cases hm
    have hskip : failed = true ↔ ∃ c ∈ r.calls, c.msg.isError = true ∧ c.offset < i ∧
        SameBatch req.messages c.offset i := by
      rw [hflag hend]
      constructor
      · rintro (⟨hf, _⟩ | ⟨c, hc, herr, d', hoff, hlt, hsame⟩)
        · cases hf
        · rw [Nat.zero_add] at hoff
          exact ⟨c, hc, herr, by omega, hoff ▸ hsame⟩
      · rintro ⟨c, hc, herr, hlt, hsame⟩
        exact .inr ⟨c, hc, herr, c.offset, by omega, hlt, hsame⟩
    rw [hcalls, ← hskip]
    cases failed with
    | true =>
        obtain rfl : xs = [.messageSkipped] := hown'
        exact ⟨[], _, rfl, by simp, by cases m <;> rfl, by simp⟩
    | false =>
        obtain ⟨p, t, rfl, hp, ht, hne⟩ := hown'
        refine ⟨p.map (⟨·, i⟩), ⟨t, i⟩, by simp, fun c hc => ?_, ht, by simp [hne]⟩
        obtain ⟨x, hx, rfl⟩ := List.mem_map.mp hc
        exact hp x hx
  · obtain ⟨failed, xs, hcalls, hown, _⟩ := hrep.at_index hi
    rw [Nat.zero_add] at hcalls
    have hne : xs ≠ [] := hown
    rw [hcalls]
    simpa using hne

/-- A batch whose bind fails: the execute behind it is skipped. -/
theorem feed_reported_failed_bind :
    ∃ p t, callsAt 2 [⟨.parseComplete, 0⟩, ⟨.errorResponse {}, 1⟩, ⟨.messageSkipped, 2⟩] = p ++ [t] ∧
      (∀ c ∈ p, isTerminal .execute c.msg = false) ∧ isTerminal .execute t.msg = true := by
  obtain ⟨_, _, hcalls, _⟩ := feed_reported
    (show ({ messages := [.parse, .bind, .execute, .sync] } : Request).Accepted by decide) false
    (show ReadResponseFsm.feed _ [.parseComplete, .errorResponse {}, .readyForQuery .idle] = .ok _
      from rfl)
    rfl
  obtain ⟨p, t, hsplit, hp, ht, _⟩ := hcalls 2 .execute rfl rfl
  exact ⟨p, t, hsplit, hp, ht⟩

end ReadResponseFsm

end NativePg
