/-
  File:      NativePg/Responses/Routing.lean
  Subject:   Every message reaches the right handler of a response.

  * `InTurn` -- the response machine reports the messages of a request one after the other: between
    two calls lie only syncs and flushes;
  * `Laid.next` -- in the messages of a handler there is one that is reported, or the request ends
    with them;
  * `Points` -- where the cursor of a response is, between two calls. `Points.step`: moving it by one
    is always enough;
  * `Owns` -- the handler an offset belongs to;
  * **`on_message_forwards`** -- `response::on_message` hands every call to the handler that owns its
    offset, and its assertion holds.
-/
import NativePg.ReadResponse.Answers
import NativePg.Responses.Setup

namespace NativePg

namespace Responses

open ReadResponseFsm

/-! ## 1. The calls come in turn -/

/-- The calls behind index `lo`, which is reported or was passed: none of the messages in between
    is one the server answers. -/
inductive InTurn (ms : List RequestMessageType) : Nat → List Call → Prop where
  | nil {lo} : InTurn ms lo []
  | cons {lo call calls} (hle : lo ≤ call.offset + 1) (hlt : call.offset < ms.length)
      (hskip : ∀ j m, lo ≤ j → j < call.offset → ms[j]? = some m → isSyncOrFlush m = true)
      (hrest : InTurn ms (call.offset + 1) calls) : InTurn ms lo (call :: calls)

theorem InTurn.of_append {ms : List RequestMessageType} : ∀ {calls calls' : List Call} {lo : Nat},
    InTurn ms lo (calls ++ calls') → InTurn ms lo calls
  | [], _, _, _ => .nil
  | _ :: _, _, _, h => by
      cases h with
      | cons hle hlt hskip hrest => exact .cons hle hlt hskip hrest.of_append

theorem InTurn.offset_lt {ms : List RequestMessageType} {lo : Nat} {calls : List Call}
    (h : InTurn ms lo calls) : ∀ call ∈ calls, call.offset < ms.length := by
  induction h with
  | nil => simp
  | cons _ hlt _ _ ih => exact List.forall_mem_cons.mpr ⟨hlt, ih⟩

/-- A message the server answers is reported. -/
theorem replied_ne_nil {c failed : Bool} {m : RequestMessageType} {xs : List AnyRequestMessage}
    (h : Replied c failed m xs) (hm : isSyncOrFlush m = false) : xs ≠ [] := by
  cases h with
  | flush => cases hm
  | skipped _ => simp
  | @finished _ _ s _ xs cs _ h hfin =>
    cases hfin with
    | sync => cases hm
    | query t hs =>
      -- something was reported before ReadyForQuery
      have hne : ∀ {s xs}, Heard c .query s xs → s ≠ .msgFirst → xs ≠ [] := by
        intro s xs h
        induction h with
        | nil => exact fun hs => absurd rfl hs
        | @stays s xs msg s' cs h hstay ih =>
          intro _ hnil
          obtain ⟨hxs, hcs⟩ := List.append_eq_nil_iff.mp hnil
          by_cases hfirst : s = .msgFirst
          · subst hfirst
            cases hstay with
            | queryComplete _ hs => rcases hs with hs | hs <;> cases hs
            | _ => cases hcs
          · exact ih hfirst hxs
      have hs' : s ≠ .msgFirst := by rcases hs with rfl | rfl <;> nofun
      simpa using hne h hs'
    | _ => simp
  | cut _ _ _ => simp

theorem inTurn_of_answered {c failed failed' : Bool} {i : Nat} {ms' : List RequestMessageType}
    {cs : List Call} (h : Answered c failed i ms' cs failed') (ms : List RequestMessageType) :
    ∀ {lo : Nat}, ms.drop i = ms' → lo ≤ i + 1 →
      (∀ j m, lo ≤ j → j < i → ms[j]? = some m → isSyncOrFlush m = true) → InTurn ms lo cs := by
  induction h with
  | nil => exact fun _ _ _ => .nil
  | @cons failed failed' i m ms' xs cs h hrest ih =>
    intro lo hdrop hlo hbefore
    have hget : ms[i]? = some m := by
      rw [← Nat.add_zero i, ← List.getElem?_drop, hdrop]
      rfl
    have hlt : i < ms.length := (List.getElem?_eq_some_iff.mp hget).1
    have hdrop' : ms.drop (i + 1) = ms' := by
      rw [← List.drop_drop, hdrop]
      rfl
    cases xs with
    | nil =>
      refine ih hdrop' (by omega) fun j m' hj hj' hm' => ?_
      by_cases hji : j = i
      · subst hji
        rw [hget] at hm'
        cases hm'
        by_contra hm
        exact replied_ne_nil h (by simpa using hm) rfl
      · exact hbefore j m' hj (by omega) hm'
    | cons x xs =>
      have htail : ∀ xs : List AnyRequestMessage,
          InTurn ms (i + 1) (xs.map (⟨·, i⟩) ++ cs) := by
        intro xs
        induction xs with
        | nil => exact ih hdrop' (by omega) fun j _ hj hj' => absurd hj' (by omega)
        | cons x xs ihx =>
          exact .cons (Nat.le_refl _) hlt (fun j _ hj hj' => absurd hj' (by show ¬ j < i; omega)) ihx
      exact .cons hlo hlt hbefore (htail xs)

/-- **The calls of any response come in turn.** -/
theorem feed_inTurn {req : Request} (h : req.Accepted) (allowCopy : Bool)
    {msgs : List AnyBackendMessage} {run : Run}
    (hrun : (readResponseFsm req allowCopy).feed msgs = .ok run) :
    InTurn req.messages 0 run.calls := by
  obtain ⟨msgs', run', hrun', hfin, calls', heq⟩ := feed_extends (Wf.init h allowCopy) hrun
  have hall : InTurn req.messages 0 run'.calls :=
    inTurn_of_answered (feed_answered h allowCopy hrun' hfin) req.messages rfl (Nat.zero_le _)
      fun j _ _ hj => absurd hj (Nat.not_lt_zero j)
  rw [← heq] at hall
  exact hall.of_append

/-! ## 2. Every handler has something to wait for -/

theorem ResultsetSlice.reported {ms : List RequestMessageType} (h : ResultsetSlice ms) :
    ∃ m ∈ ms, isSyncOrFlush m = false := by
  cases h with
  | query _ => exact ⟨.query, by simp, rfl⟩
  | extended _ _ _ => exact ⟨.execute, by simp, rfl⟩

theorem SingleSlice.reported {type : RequestMessageType} {ms : List RequestMessageType}
    (h : SingleSlice type ms) (htype : isSyncOrFlush type = false) :
    ∃ m ∈ ms, isSyncOrFlush m = false := by
  cases h with
  | mk _ _ => exact ⟨type, by simp, htype⟩

section
variable {V : Type} {ms : List RequestMessageType} {off : Nat} {hs : List (Handler V)}
  {offsets : List Nat}

theorem Handler.Shape.reported {h : Handler V} {slice : List RequestMessageType}
    (hshape : h.Shape slice) (hcheck : h.isCheck = false) :
    ∃ m ∈ slice, isSyncOrFlush m = false := by
  cases h with
  | check h => cases hcheck
  | checkParse h | checkClose h | describeInto h => exact SingleSlice.reported hshape rfl
  | checkExecute h | resultsetCallback h => exact ResultsetSlice.reported hshape
  | resultsetsHandler h =>
    obtain ⟨slices, hne, hslices, rfl⟩ := hshape
    obtain ⟨s, rest, rfl⟩ := List.exists_cons_of_ne_nil hne
    obtain ⟨m, hm, hr⟩ := (hslices s List.mem_cons_self).reported
    exact ⟨m, by simp [hm], hr⟩

/-- **From one handler to the next.** -/
theorem Laid.next (h : Laid ms off hs offsets) {k o o' : Nat} (ho : offsets[k]? = some o)
    (ho' : offsets[k + 1]? = some o') :
    o ≤ o' ∧ (o' = ms.length ∨
      ∃ j m, o ≤ j ∧ j < o' ∧ ms[j]? = some m ∧ isSyncOrFlush m = false) := by
  induction h generalizing k with
  | nil => cases ho
  | @cons off off' slice h hs offsets hsplits hshape hend hrest ih =>
    cases k with
    | succ k => exact ih ho ho'
    | zero =>
      cases ho
      cases hrest with
      | nil => cases ho'
      | @cons _ off'' slice' h' hs' offsets' hsplits' hshape' hend' _ =>
        cases ho'
        refine ⟨hsplits'.le_offset, ?_⟩
        cases hc : h'.isCheck with
        | true => exact .inl (hend' (Handler.takesRest_of_isCheck hc))
        | false =>
          obtain ⟨m, hm, hr⟩ := hshape'.reported hc
          obtain ⟨d, hd⟩ := List.getElem?_of_mem hm
          have hlt := (List.getElem?_eq_some_iff.mp hd).1
          have hlength := hsplits'.length
          refine .inr ⟨o + d, m, by omega, by omega, ?_, hr⟩
          rw [hsplits'.getElem? hlt, hd]

theorem Laid.length_eq (h : Laid ms off hs offsets) : offsets.length = hs.length := by
  induction h with
  | nil => rfl
  | cons _ _ _ _ ih => rw [List.length_cons, List.length_cons, ih]

theorem lastOffset_of_getElem? {k o : Nat} (ho : offsets[k]? = some o)
    (hnone : offsets[k + 1]? = none) : lastOffset off offsets = o := by
  have hlt := (List.getElem?_eq_some_iff.mp ho).1
  have hle := List.getElem?_eq_none_iff.mp hnone
  have hk : offsets.length - 1 = k := by omega
  rw [lastOffset, List.getLastD_eq_getLast?, List.getLast?_eq_getElem?, hk, ho]
  rfl

/-! ## 3. The cursor -/

/-- The cursor `current`, when the calls up to index `lo` have been made: their handler is not
    finished, and all before it are. -/
structure Points (offsets : List Nat) (current lo : Nat) : Prop where
  here : ∃ o, offsets[current]? = some o ∧ lo ≤ o
  before : ∀ j o, j < current → offsets[j]? = some o → o < lo

/-- The handler at `k` owns the message at `i`: from the offset of the handler before it to its
    own. -/
def Owns (offsets : List Nat) (k i : Nat) : Prop :=
  (∀ j, k = j + 1 → ∃ o, offsets[j]? = some o ∧ o ≤ i) ∧ ∃ o, offsets[k]? = some o ∧ i < o

/-- Where the cursor goes. -/
def advanceCursor (offsets : List Nat) (current i : Nat) : Nat :=
  if i ≥ offsets.getD current 0 then current + 1 else current

/-- **Moving by one is enough.** -/
theorem Points.step (hlaid : Laid ms off hs offsets) (hlast : lastOffset off offsets = ms.length)
    {current lo i : Nat} (h : Points offsets current lo) (hle : lo ≤ i + 1) (hlt : i < ms.length)
    (hskip : ∀ j m, lo ≤ j → j < i → ms[j]? = some m → isSyncOrFlush m = true) :
    Points offsets (advanceCursor offsets current i) (i + 1) ∧
      Owns offsets (advanceCursor offsets current i) i := by
  obtain ⟨o, ho, hlo⟩ := h.here
  have hgetD : offsets.getD current 0 = o := by rw [List.getD_eq_getElem?_getD, ho]; rfl
  unfold advanceCursor
  rw [hgetD]
  by_cases hi : i ≥ o
  · rw [if_pos hi]
    -- the messages of this handler are done
    cases ho' : offsets[current + 1]? with
    | none =>
      rw [lastOffset_of_getElem? ho ho'] at hlast
      omega
    | some o' =>
      obtain ⟨-, hend⟩ := hlaid.next ho ho'
      have hi' : i < o' := by
        rcases hend with hend | ⟨j, m, hj, hj', hm, hr⟩
        · omega
        · by_contra hge
          have hquiet := hskip j m (by omega) (by omega) hm
          rw [hr] at hquiet
          cases hquiet
      refine ⟨⟨⟨o', ho', hi'⟩, fun j x hj hx => ?_⟩, fun j hj => ?_, o', ho', hi'⟩
      · by_cases hjc : j = current
        · rw [hjc, ho] at hx
          cases hx
          omega
        · have := h.before j x (by omega) hx
          omega
      · cases hj
        exact ⟨o, ho, hi⟩
  · rw [if_neg hi]
    have hi : i < o := by omega
    refine ⟨⟨⟨o, ho, hi⟩, fun j x hj hx => ?_⟩, fun j hj => ?_, o, ho, hi⟩
    · have := h.before j x hj hx
      omega
    · have hlt' : j < offsets.length := by
        have := (List.getElem?_eq_some_iff.mp ho).1
        omega
      have hx : offsets[j]? = some offsets[j] := List.getElem?_eq_getElem hlt'
      have := h.before j _ (by omega) hx
      exact ⟨_, hx, by omega⟩

theorem Laid.mono (h : Laid ms off hs offsets) {j k o o' : Nat} (hjk : j ≤ k)
    (ho : offsets[j]? = some o) (ho' : offsets[k]? = some o') : o ≤ o' := by
  induction k generalizing o' with
  | zero =>
    obtain rfl : j = 0 := by omega
    rw [ho] at ho'
    cases ho'
    exact Nat.le_refl _
  | succ k ih =>
    by_cases hj : j = k + 1
    · subst hj
      rw [ho] at ho'
      cases ho'
      exact Nat.le_refl _
    · have hlt : k < offsets.length := by
        have := (List.getElem?_eq_some_iff.mp ho').1
        omega
      have hk : offsets[k]? = some offsets[k] := List.getElem?_eq_getElem hlt
      exact Nat.le_trans (ih (by omega) hk) (h.next hk ho').1

/-- **An offset has one owner.** -/
theorem Laid.owns_unique (h : Laid ms off hs offsets) {k k' i : Nat} (hk : Owns offsets k i)
    (hk' : Owns offsets k' i) : k = k' := by
  -- the owner that comes first would own what is behind its offset
  have hlt : ∀ {k k'}, Owns offsets k i → Owns offsets k' i → ¬ k < k' := by
    intro k k' hk hk' hlt
    obtain ⟨o, ho, hi⟩ := hk.2
    obtain ⟨j, rfl⟩ : ∃ j, k' = j + 1 := ⟨k' - 1, by omega⟩
    obtain ⟨o', ho', hi'⟩ := hk'.1 j rfl
    have := h.mono (by omega) ho ho'
    omega
  have h1 := hlt hk hk'
  have h2 := hlt hk' hk
  omega

/-! ## 4. Responses -/

namespace Response

/-- `on_message` of the handler at `k`, and the cursor there. -/
def forward (ndebug : Bool) (r : Response V) (k : Nat) (h : Handler V) (msg : AnyRequestMessage)
    (w : World V) : Attempt (Response V × World V) :=
  (h.onMessage ndebug msg w).map fun p =>
    ({ r with handlers := r.handlers.set k p.1, current := k }, p.2)

/-- A response whose cursor has seen the calls up to index `lo`. -/
structure Stands (r : Response V) (lo : Nat) : Prop where
  points : Points r.offsets r.current lo
  length : r.offsets.length = r.handlers.length

/-- **One call**: it is forwarded. -/
theorem onMessage_eq {r : Response V} {lo : Nat} (hlaid : Laid ms off hs r.offsets)
    (hlast : lastOffset off r.offsets = ms.length) (hr : r.Stands lo) {call : Call}
    (hle : lo ≤ call.offset + 1) (hlt : call.offset < ms.length)
    (hskip : ∀ j m, lo ≤ j → j < call.offset → ms[j]? = some m → isSyncOrFlush m = true)
    (ndebug : Bool) (w : World V) :
    ∃ k h, Owns r.offsets k call.offset ∧ r.handlers[k]? = some h ∧
      (k = r.current ∨ k = r.current + 1) ∧ Points r.offsets k (call.offset + 1) ∧
      r.onMessage ndebug call w = r.forward ndebug k h call.msg w := by
  obtain ⟨hpoints, howns⟩ := hr.points.step hlaid hlast hle hlt hskip
  obtain ⟨o, ho, -⟩ := hr.points.here
  have hcursor : (if call.offset ≥ o then r.current + 1 else r.current) =
      advanceCursor r.offsets r.current call.offset := by
    unfold advanceCursor
    rw [List.getD_eq_getElem?_getD, ho]
    rfl
  obtain ⟨o', ho', hi⟩ := howns.2
  have hklt : advanceCursor r.offsets r.current call.offset < r.handlers.length := by
    rw [← hr.length]
    exact (List.getElem?_eq_some_iff.mp ho').1
  have hh := List.getElem?_eq_getElem hklt
  refine ⟨_, _, howns, hh, ?_, hpoints, ?_⟩
  · unfold advanceCursor
    split
    · exact .inr rfl
    · exact .inl rfl
  · unfold onMessage forward
    simp only [ho, hcursor, ho', hh, boostAssert, hi, decide_true, Bool.or_true, if_true, bind,
      Except.bind]
    cases (r.handlers[advanceCursor r.offsets r.current call.offset]).onMessage ndebug call.msg w <;>
      rfl

theorem stands_of_onMessage {r r' : Response V} {lo : Nat} (hlaid : Laid ms off hs r.offsets)
    (hlast : lastOffset off r.offsets = ms.length) (hr : r.Stands lo) {call : Call}
    (hle : lo ≤ call.offset + 1) (hlt : call.offset < ms.length)
    (hskip : ∀ j m, lo ≤ j → j < call.offset → ms[j]? = some m → isSyncOrFlush m = true)
    {ndebug : Bool} {w w' : World V} (hmsg : r.onMessage ndebug call w = .ok (r', w')) :
    r'.offsets = r.offsets ∧ r'.Stands (call.offset + 1) := by
  obtain ⟨k, h, -, -, -, hpoints, heq⟩ := onMessage_eq hlaid hlast hr hle hlt hskip ndebug w
  rw [heq, forward] at hmsg
  cases hh : h.onMessage ndebug call.msg w with
  | error e =>
    rw [hh] at hmsg
    cases hmsg
  | ok p =>
    rw [hh] at hmsg
    cases hmsg
    exact ⟨rfl, hpoints, by rw [List.length_set]; exact hr.length⟩

/-- **The cursor between two calls.** -/
theorem run_stands {ndebug : Bool} : ∀ {pre post : List Call} {call : Call} {r r₁ : Response V}
    {w w₁ : World V} {lo : Nat}, Laid ms off hs r.offsets → lastOffset off r.offsets = ms.length →
    r.Stands lo → InTurn ms lo (pre ++ call :: post) → r.run ndebug pre w = .ok (r₁, w₁) →
    r₁.offsets = r.offsets ∧ ∃ lo₁, r₁.Stands lo₁ ∧ InTurn ms lo₁ (call :: post)
  | [], _, _, _, _, _, _, lo, _, _, hr, hturn, hrun => by
      cases hrun
      exact ⟨rfl, lo, hr, hturn⟩
  | c :: pre, post, call, r, r₁, w, w₁, lo, hlaid, hlast, hr, hturn, hrun => by
      cases hturn with
      | cons hle hlt hskip hrest =>
        unfold run at hrun
        cases hmsg : r.onMessage ndebug c w with
        | error e =>
          rw [hmsg] at hrun
          cases hrun
        | ok p =>
          obtain ⟨r', w'⟩ := p
          rw [hmsg] at hrun
          obtain ⟨hoffsets, hr'⟩ := stands_of_onMessage hlaid hlast hr hle hlt hskip hmsg
          rw [← hoffsets] at hlaid hlast
          obtain ⟨heq, hstands⟩ := run_stands hlaid hlast hr' hrest hrun
          exact ⟨heq.trans hoffsets, hstands⟩

/-- A response that is set up, and whose cursor is at the start. -/
theorem Ready.stands {r : Response V} {req : Request} (h : r.Ready req) (hcurrent : r.current = 0) :
    r.Stands 0 := by
  refine ⟨⟨?_, fun j _ hj => ?_⟩, h.laid.length_eq⟩
  · rw [hcurrent]
    cases hoffsets : r.offsets with
    | nil =>
      have hlast := h.last
      rw [hoffsets] at hlast
      exact absurd (List.length_eq_zero_iff.mp hlast.symm) h.accepted.ne_nil
    | cons o offsets => exact ⟨o, rfl, Nat.zero_le _⟩
  · rw [hcurrent] at hj
    exact absurd hj (Nat.not_lt_zero j)

/-- **Every message reaches the right handler.** For a new response that `setup_request` has
    accepted, and whatever the server sends, each call of `on_message` is forwarded to the one
    handler that owns its offset: the cursor, which moves by one at most, is there, and the assertion
    of `response::on_message` holds. -/
theorem on_message_forwards {handlers : List (Handler V)} {req : Request} {w w' : World V}
    {r : Response V} {ec : ErrorCode}
    (hsetup : (new handlers).setupRequest req w = .ok (ec, r, w')) (hec : ec.failed = false)
    (allowCopy : Bool) {msgs : List AnyBackendMessage} {run : Run}
    (hrun : (readResponseFsm req allowCopy).feed msgs = .ok run) (ndebug : Bool)
    {pre post : List Call} {call : Call} (hcalls : run.calls = pre ++ call :: post)
    {r₁ : Response V} {w₁ : World V} (hpre : r.run ndebug pre w' = .ok (r₁, w₁)) :
    ∃ k h, Owns r.offsets k call.offset ∧ (∀ k', Owns r.offsets k' call.offset → k' = k) ∧
      r₁.handlers[k]? = some h ∧ (k = r₁.current ∨ k = r₁.current + 1) ∧
      r₁.onMessage ndebug call w₁ = r₁.forward ndebug k h call.msg w₁ := by
  obtain ⟨hready, -, hcurrent, -⟩ := setupRequest_spec (length_new handlers) hsetup hec
  have hturn := feed_inTurn hready.accepted allowCopy hrun
  rw [hcalls] at hturn
  obtain ⟨hoffsets, lo, hr₁, hturn⟩ :=
    run_stands hready.laid hready.last (hready.stands hcurrent) hturn hpre
  have hlaid := hready.laid
  have hlast := hready.last
  rw [← hoffsets] at hlaid hlast
  cases hturn with
  | cons hle hlt hskip _ =>
    obtain ⟨k, h, howns, hh, hk, -, heq⟩ := onMessage_eq hlaid hlast hr₁ hle hlt hskip ndebug w₁
    refine ⟨k, h, hoffsets ▸ howns, fun k' hk' => ?_, hh, hk, heq⟩
    rw [← hoffsets] at hk'
    exact hlaid.owns_unique hk' howns

/-- The parse of a batch fails: that the bind was skipped is told to the second handler, which stores
    the error. -/
theorem on_message_forwards_skipped :
    ∃ (r : Response Unit) (w : World Unit) (k : Nat) (h : Handler Unit),
      (Response.mk [.checkParse {}, .resultsetCallback { members := [], cb := 0 }] [1, 5] 0).run false
        [⟨.errorResponse {}, 0⟩] w = .ok (r, w) ∧
      Owns r.offsets k 1 ∧ (∀ k', Owns r.offsets k' 1 → k' = k) ∧ r.handlers[k]? = some h ∧
      k = r.current + 1 ∧
      r.onMessage false ⟨.messageSkipped, 1⟩ w = r.forward false k h .messageSkipped w ∧
      r.onMessage false ⟨.messageSkipped, 1⟩ w =
        .ok ({ r with
          handlers := [.checkParse ⟨storeError {}⟩, .resultsetCallback
            { members := [], cb := 0, err := { code := ClientErrc.stepSkipped.code } }],
          current := 1 }, w) := by
  have hsetup : (new [.checkParse {}, .resultsetCallback (V := Unit)
      { members := [], cb := 0 }]).setupRequest
      { messages := [.parse, .bind, .describe, .execute, .sync] }
      ⟨fun _ => {}, fun _ => {}, fun _ => {}, []⟩ =
      .ok (.success, ⟨[.checkParse {}, .resultsetCallback { members := [], cb := 0 }], [1, 5], 0⟩,
        ⟨fun _ => {}, fun _ => {}, fun _ => {}, []⟩) := rfl
  have hrun : ∃ run, (readResponseFsm
      { messages := [.parse, .bind, .describe, .execute, .sync] } false).feed
        [.errorResponse {}] = .ok run ∧
      run.calls = [⟨.errorResponse {}, 0⟩] ++ ⟨.messageSkipped, 1⟩ ::
        [⟨.messageSkipped, 2⟩, ⟨.messageSkipped, 3⟩] := ⟨_, rfl, rfl⟩
  obtain ⟨run, hrun, hcalls⟩ := hrun
  have hpre : (Response.mk [.checkParse {}, .resultsetCallback { members := [], cb := 0 }] [1, 5] 0).run
      false [⟨.errorResponse {}, 0⟩] ⟨fun _ => {}, fun _ => {}, fun _ => {}, []⟩ =
      .ok (⟨[.checkParse ⟨storeError {}⟩, .resultsetCallback (V := Unit) { members := [], cb := 0 }],
        [1, 5], 0⟩, ⟨fun _ => {}, fun _ => {}, fun _ => {}, []⟩) := rfl
  obtain ⟨k, h, howns, hunique, hh, hk, hforward⟩ :=
    on_message_forwards hsetup rfl false hrun false hcalls hpre
  obtain rfl : 1 = k := hunique 1 ⟨fun j hj => by cases hj; exact ⟨1, rfl, le_rfl⟩, 5, rfl, by decide⟩
  exact ⟨_, _, 1, h, hpre, howns, hunique, hh, rfl, hforward, rfl⟩

end Response

end

end Responses

end NativePg
