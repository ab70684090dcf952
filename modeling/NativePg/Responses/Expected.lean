/-
  File:      NativePg/Responses/Expected.lean
  Subject:   The messages each handler is written for, among those that are reported to it.

  * `Handler.Expects` -- the messages a class is written for: none that were skipped, no empty query,
    and in the answer to an execute no data without a description and no second description;
  * `turn_of_slices` -- where in the messages of a resultsets handler a call is: no resultset is open
    when the messages of the next one start;
  * `Turn.accepts_callback`, `Turn.accepts_resultsets` -- in its turn, a message is accepted if and
    only if it is expected;
  * **`asserts_exactly`** -- of all that the response machine reports, exactly the messages that are
    not expected make an assertion fire.
-/
import NativePg.Responses.Asserts

namespace NativePg

namespace Responses

open ReadResponseFsm

/-! ## 1. Messages that are expected -/

/-- Where something is executed: the description is the first, and rows and their end come behind a
    description. -/
def Follows (described : Bool) (msg : AnyRequestMessage) : Prop :=
  (isDescription msg = true → described = false) ∧
    (isRow msg = true ∨ isCompletion msg = true → described = true)

/-- The messages that finish a resultset. -/
def endsResultset : AnyRequestMessage → Bool
  | .commandComplete _ | .portalSuspended | .errorResponse _ => true
  | _ => false

/-- **The messages a handler is written for**, where `m` is the request message that is answered, and
    the handler has got `seen` before. -/
def Handler.Expects {V : Type} (h : Handler V) (m : RequestMessageType)
    (seen : List AnyRequestMessage) (msg : AnyRequestMessage) : Prop :=
  match h with
  | .check _ | .checkParse _ | .checkClose _ => True
  | .checkExecute _ => isUnanswered msg = false
  | .describeInto _ => msg ≠ .messageSkipped
  | .resultsetCallback _ =>
    msg ≠ .emptyQueryResponse ∧ (m = .execute → Follows (seen.any isDescription) msg)
  | .resultsetsHandler _ =>
    isUnanswered msg = false ∧ (m = .execute → Follows (tally seen).described msg) ∧
      (endsResultset msg = true → (tally seen).columns * (tally seen).rows ≤ (tally seen).values)

/-! ## 2. Turns -/

section
variable {c : Bool} {m : RequestMessageType} {seen : List AnyRequestMessage}
  {msg : AnyRequestMessage}

/-- What is reported for an execute: before `msg` there was no end. -/
theorem Turn.execute_cases (h : Turn c .execute seen msg) :
    (∀ x ∈ seen, isCompletion x = false) ∧
      (isRow msg = true ∨ isDescription msg = true ∨ endsExecute msg = true) := by
  cases h with
  | plain hm _ _ => exact absurd rfl hm
  | @execute before seen _ rest _ hbefore _ hreplied =>
    obtain ⟨ys, last, heq, hys, hlast⟩ := replied_execute hreplied
    have hdata : ∀ x, isRow x = true ∨ isDescription x = true → isCompletion x = false := by
      intro x hx
      cases x with
      | commandComplete _ | portalSuspended => rcases hx with hx | hx <;> cases hx
      | _ => rfl
    have hplain : ∀ x, isPlain x = true → isCompletion x = false := by
      intro x hx
      cases x with
      | commandComplete _ | portalSuspended => cases hx
      | _ => rfl
    -- `seen` ends before the last of the messages
    have hsplit : seen <+: ys ∧ (msg ∈ ys ∨ msg = last) := by
      rcases append_eq_split heq.symm with ⟨_, rfl⟩ | ⟨pre, rfl, hone⟩
      · exact ⟨List.prefix_append _ _, .inl (by simp)⟩
      · cases pre with
        | nil =>
          rw [List.append_nil]
          exact ⟨List.prefix_refl _, .inr (List.cons.inj hone).1.symm⟩
        | cons y pre =>
          have hlength := congrArg List.length hone
          simp at hlength
    refine ⟨fun x hx => ?_, ?_⟩
    · rcases List.mem_append.mp hx with hx | hx
      · rcases hbefore x hx with hx | hx
        · exact hplain x hx
        · exact hdata x (.inr hx)
      · exact hdata x (hys x (hsplit.1.subset hx))
    · rcases hsplit.2 with hmem | rfl
      · exact (hys msg hmem).imp_right .inl
      · exact .inr (.inr hlast)

/-- No resultset is answered with these. -/
def isForeign : AnyRequestMessage → Bool
  | .closeComplete | .parameterDescription _ => true
  | _ => false

theorem Turn.not_foreign (h : Turn c m seen msg) : isForeign msg = false := by
  cases h with
  | plain _ _ hmsg =>
    cases msg with
    | closeComplete | parameterDescription _ => cases hmsg
    | _ => rfl
  | describe _ => rfl
  | execute hbefore hsettled hreplied =>
    obtain ⟨-, hmsg⟩ := Turn.execute_cases (.execute hbefore hsettled hreplied)
    cases msg with
    | closeComplete | parameterDescription _ => rcases hmsg with hmsg | hmsg | hmsg <;> cases hmsg
    | _ => rfl
  | query hreplied =>
    obtain ⟨p, p', -, hnext⟩ := Turn.phase (.query hreplied)
    cases msg with
    | closeComplete | parameterDescription _ => cases p <;> cases hnext
    | _ => rfl

theorem Turn.accepts_execute (h : Turn c m seen msg) :
    CheckExecute.accepts msg = true ↔ isUnanswered msg = false := by
  have hforeign := h.not_foreign
  cases msg with
  | closeComplete | parameterDescription _ => cases hforeign
  | emptyQueryResponse | messageSkipped => exact ⟨nofun, nofun⟩
  | _ => exact ⟨fun _ => rfl, fun _ => rfl⟩

/-! ## 3. Callbacks -/

theorem callbackState_of_no_completion (h : ∀ x ∈ seen, isCompletion x = false) :
    callbackState seen = if seen.any isDescription then .parsingData else .parsingMeta := by
  have hnone : seen.any isCompletion = false := by
    simpa using h
  rw [callbackState, hnone]
  rfl

/-- In the answer to a query with one resultset, a callback is in the phase of the query. -/
theorem callbackState_of_phase {p p' : Phase} (hp : Phase.run .between seen = some p)
    (hnext : p.next msg = some p') (hone : (seen ++ [msg]).countP isDescription ≤ 1) :
    ResultsetCallback.accepts (callbackState seen) msg = true ↔ msg ≠ .emptyQueryResponse := by
  obtain ⟨hbetween, hinside⟩ := phase_counts seen p hp
  have hcount : seen.countP isDescription ≤ 1 := by
    rw [List.countP_append] at hone
    omega
  -- with no description there is no completion, and with one there is at most one
  have hnone : ∀ {f : AnyRequestMessage → Bool}, seen.countP f = 0 → ∀ x ∈ seen, f x = false := by
    intro f hf x hx
    simpa using List.countP_eq_zero.mp hf x hx
  cases p with
  | between =>
    cases msg with
    | rowDescription d =>
      have hdesc : seen.countP isDescription = 0 := by
        rw [List.countP_append] at hone
        have hmsg : [AnyRequestMessage.rowDescription d].countP isDescription = 1 := rfl
        omega
      have hcompl : seen.countP isCompletion = 0 := by
        rw [← hbetween rfl, hdesc]
      have hany : seen.any isDescription = false := by simpa using hnone hdesc
      rw [callbackState_of_no_completion (hnone hcompl), hany]
      exact ⟨fun _ => by simp, fun _ => rfl⟩
    | emptyQueryResponse => exact ⟨nofun, fun h => absurd rfl h⟩
    | errorResponse e => exact ⟨fun _ => by simp, fun _ => rfl⟩
    | _ => cases hnext
  | inside =>
    have hdesc := hinside rfl
    have hcompl : seen.countP isCompletion = 0 := by omega
    have hany : seen.any isDescription = true := by
      obtain ⟨x, hx, hd⟩ := List.countP_pos_iff.mp (show 0 < seen.countP isDescription by omega)
      exact List.any_eq_true.mpr ⟨x, hx, hd⟩
    rw [callbackState_of_no_completion (hnone hcompl), hany]
    cases msg with
    | dataRow d | commandComplete tag | errorResponse e => exact ⟨fun _ => by simp, fun _ => rfl⟩
    | _ => cases hnext
  | behind => cases msg <;> cases hnext

/-- **In its turn, a callback accepts what it expects.** -/
theorem Turn.accepts_callback (h : Turn c m seen msg)
    (hone : m = .query → (seen ++ [msg]).countP isDescription ≤ 1) :
    ResultsetCallback.accepts (callbackState seen) msg = true ↔
      msg ≠ .emptyQueryResponse ∧ (m = .execute → Follows (seen.any isDescription) msg) := by
  cases h with
  | plain hm _ hmsg =>
    refine ⟨fun _ => ⟨?_, fun hexec => absurd hexec hm⟩, fun _ => ?_⟩
    · rintro rfl
      cases hmsg
    · cases msg with
      | parseComplete | bindComplete | errorResponse _ | messageSkipped => rfl
      | _ => cases hmsg
  | describe hplain =>
    have hcompl : ∀ x ∈ seen, isCompletion x = false ∧ isDescription x = false := by
      intro x hx
      have hx := hplain x hx
      cases x with
      | parseComplete | bindComplete | errorResponse _ | messageSkipped => exact ⟨rfl, rfl⟩
      | _ => cases hx
    have hany : seen.any isDescription = false := by simpa using fun x hx => (hcompl x hx).2
    rw [callbackState_of_no_completion fun x hx => (hcompl x hx).1, hany]
    exact ⟨fun _ => ⟨by simp, fun hexec => by cases hexec⟩, fun _ => rfl⟩
  | @execute before seen _ rest failed hbefore hsettled hreplied =>
    have hturn := Turn.execute hbefore hsettled hreplied
    obtain ⟨hcompl, hmsg⟩ := hturn.execute_cases
    have hforeign := hturn.not_foreign
    rw [callbackState_of_no_completion hcompl]
    cases msg with
    | rowDescription _ | dataRow _ | commandComplete _ | portalSuspended =>
      cases (before ++ seen).any isDescription <;>
        simp [ResultsetCallback.accepts, Follows, isDescription, isRow, isCompletion]
    | emptyQueryResponse => exact ⟨fun h => (by cases h), fun h => absurd rfl h.1⟩
    | errorResponse _ | messageSkipped =>
      simp [ResultsetCallback.accepts, Follows, isDescription, isRow, isCompletion]
    | closeComplete | parameterDescription _ => cases hforeign
    | parseComplete | bindComplete => rcases hmsg with hmsg | hmsg | hmsg <;> cases hmsg
  | query hreplied =>
    obtain ⟨p, p', hp, hnext⟩ := Turn.phase (.query hreplied)
    rw [callbackState_of_phase hp hnext (hone rfl)]
    exact ⟨fun hmsg => ⟨hmsg, fun hexec => by cases hexec⟩, fun hmsg => hmsg.1⟩

/-! ## 4. Resultsets handlers -/

/-- No resultset is opened without a description. -/
theorem Tally.run_plain {t : Tally} (ht : t.described = false)
    (hseen : ∀ x ∈ seen, isPlain x = true) : (t.run seen).described = false := by
  induction seen generalizing t with
  | nil => exact ht
  | cons x seen ih =>
    obtain ⟨hx, hseen⟩ := List.forall_mem_cons.mp hseen
    refine ih ?_ hseen
    cases x with
    | parseComplete | bindComplete | messageSkipped => exact ht
    | errorResponse _ => rfl
    | _ => cases hx

/-- **A resultset is open inside the statements of a query.** -/
theorem Tally.run_phase : ∀ {xs : List AnyRequestMessage} {p q : Phase} {t : Tally},
    p.run xs = some q → t.described = decide (p = .inside) →
    (t.run xs).described = decide (q = .inside)
  | [], _, _, _, hrun, ht => by
      cases hrun
      exact ht
  | x :: xs, p, q, t, hrun, ht => by
      obtain ⟨p', hnext, hrun⟩ := Option.bind_eq_some_iff.mp hrun
      refine Tally.run_phase (t := t.next x) hrun ?_
      cases p <;> cases x <;> cases hnext <;> first | rfl | exact ht

/-- The message that ends an execute closes the resultset. -/
theorem Tally.next_endsExecute {x : AnyRequestMessage} (hx : endsExecute x = true)
    (hanswered : isUnanswered x = false) (t : Tally) : (t.next x).described = false := by
  cases x with
  | commandComplete _ | portalSuspended | errorResponse _ => rfl
  | emptyQueryResponse | messageSkipped => cases hanswered
  | _ => cases hx

variable {failed failed' : Bool} {i : Nat} {slice : List RequestMessageType}
  {cs pre post : List Call} {call : Call}

/-- **Behind the messages of a resultset none is open.** -/
theorem answered_closed (hslice : ResultsetSlice slice) (h : Answered c failed i slice cs failed')
    (hanswered : ∀ call ∈ cs, isUnanswered call.msg = false) {t : Tally} (ht : t.described = false) :
    (t.run (cs.map (·.msg))).described = false := by
  cases answered_resultset hslice h with
  | query hreplied =>
    obtain ⟨p, hp, hinside⟩ := replied_query hreplied
    rw [map_msg, Tally.run_phase hp ht]
    exact decide_eq_false hinside
  | @extended ms mid _ _ _ _ _ _ _ _ _ _ _ _ _ _ _ _ hreplied =>
    obtain ⟨zs, last, rfl, -, hlast⟩ := replied_execute hreplied
    have hunanswered : isUnanswered last = false :=
      hanswered ⟨last, i + ms.length + 1 + mid.length⟩ (by simp)
    rw [List.map_append, List.map_cons, List.map_append, map_msg, ← List.append_assoc,
      ← List.cons_append, ← List.append_assoc, Tally.run_append]
    exact Tally.next_endsExecute hlast hunanswered _

/-- **Every call for several resultsets** is a turn of one of them, which no resultset before it has
    left open. -/
theorem turn_of_slices : ∀ {slices : List (List RequestMessageType)} {failed : Bool} {i : Nat}
    {pre : List Call} {t : Tally}, (∀ s ∈ slices, ResultsetSlice s) →
    Answered c failed i slices.flatten (pre ++ call :: post) failed' →
    (∀ call ∈ pre, isUnanswered call.msg = false) → t.described = false →
    ∃ d m before seen, call.offset = i + d ∧ slices.flatten[d]? = some m ∧
      pre.map (·.msg) = before ++ seen ∧ (t.run before).described = false ∧ Turn c m seen call.msg
  | [], _, _, pre, _, _, h, _, _ => by
      rw [List.flatten_nil] at h
      generalize hcs : pre ++ call :: post = cs at h
      cases h
      simp at hcs
  | slice :: slices, failed, i, pre, t, hslices, h, hanswered, ht => by
      obtain ⟨hslice, hslices⟩ := List.forall_mem_cons.mp hslices
      rw [List.flatten_cons] at h ⊢
      obtain ⟨cs₁, cs₂, mid, hsplit, h₁, h₂⟩ := h.split
      rcases append_eq_split hsplit.symm with ⟨_, rfl⟩ | ⟨pre', rfl, rfl⟩
      · -- a call of the first
        obtain ⟨d, m, hoffset, hm, hturn⟩ := turn_of_answered hslice h₁ rfl
        have hd := (List.getElem?_eq_some_iff.mp hm).1
        exact ⟨d, m, [], _, hoffset, by rw [List.getElem?_append_left hd, hm], rfl, ht, hturn⟩
      · -- the first is over
        have hfirst : ∀ call ∈ cs₁, isUnanswered call.msg = false := fun call hcall =>
          hanswered call (List.mem_append_left _ hcall)
        have hrest : ∀ call ∈ pre', isUnanswered call.msg = false := fun call hcall =>
          hanswered call (List.mem_append_right _ hcall)
        have hclosed := answered_closed hslice h₁ hfirst ht
        obtain ⟨d, m, before, seen, hoffset, hm, hseen, hbefore, hturn⟩ :=
          turn_of_slices hslices h₂ hrest hclosed
        refine ⟨slice.length + d, m, cs₁.map (·.msg) ++ before, seen, by omega, ?_, ?_, ?_, hturn⟩
        · rw [List.getElem?_append_right (by omega), Nat.add_sub_cancel_left, hm]
        · rw [List.map_append, hseen, List.append_assoc]
        · rw [Tally.run_append]
          exact hbefore

/-- **Is a resultset open, when a message comes that is not for an execute?** -/
theorem Turn.follows (h : Turn c m seen msg) (hm : m ≠ .execute) {t : Tally}
    (ht : t.described = false) : Follows (t.run seen).described msg := by
  cases h with
  | plain _ _ hmsg =>
    constructor
    · intro hdesc
      cases msg with
      | rowDescription _ => cases hmsg
      | _ => cases hdesc
    · intro hdata
      cases msg with
      | dataRow _ | commandComplete _ | portalSuspended => cases hmsg
      | _ => rcases hdata with hdata | hdata <;> cases hdata
  | describe hplain =>
    refine ⟨fun _ => Tally.run_plain ht hplain, fun hdata => ?_⟩
    rcases hdata with hdata | hdata <;> cases hdata
  | execute _ _ _ => exact absurd rfl hm
  | query hreplied =>
    obtain ⟨p, p', hp, hnext⟩ := Turn.phase (.query hreplied)
    rw [Tally.run_phase hp ht]
    constructor
    · intro hdesc
      cases msg with
      | rowDescription _ =>
        cases p with
        | between => rfl
        | _ => cases hnext
      | _ => cases hdesc
    · intro hdata
      cases msg with
      | dataRow _ | commandComplete _ | portalSuspended =>
        cases p with
        | inside => rfl
        | _ => cases hnext
      | _ => rcases hdata with hdata | hdata <;> cases hdata

/-- **In its turn, a resultsets handler accepts what it expects.** -/
theorem Turn.accepts_resultsets (h : Turn c m seen msg) {rs : ResultsetsHandler} {t : Tally}
    {r : Resultsets} (hcounts : rs.Counts t r) (hopen : m ≠ .execute → Follows t.described msg) :
    rs.accepts r msg = true ↔ isUnanswered msg = false ∧ (m = .execute → Follows t.described msg) ∧
      (endsResultset msg = true → t.columns * t.rows ≤ t.values) := by
  have hfollows : (m = .execute → Follows t.described msg) ↔ Follows t.described msg := by
    refine ⟨fun hexec => ?_, fun hmsg _ => hmsg⟩
    by_cases hm : m = .execute
    · exact hexec hm
    · exact hopen hm
  have hfits : rs.fits r = true ↔ t.columns * t.rows ≤ t.values := by
    unfold ResultsetsHandler.fits
    rw [Bool.and_eq_true, decide_eq_true_iff, decide_eq_true_iff, hcounts.values, ← hcounts.columns,
      ← hcounts.rows]
    exact and_iff_right hcounts.fields
  have hforeign := h.not_foreign
  rw [hfollows]
  cases msg with
  | rowDescription _ | dataRow _ =>
    rw [ResultsetsHandler.accepts, hcounts.state]
    cases t.described <;> simp [Follows, isUnanswered, isDescription, isRow, isCompletion,
      endsResultset]
  | commandComplete _ | portalSuspended =>
    rw [ResultsetsHandler.accepts, hcounts.state, Bool.and_eq_true, hfits]
    cases t.described <;> simp [Follows, isUnanswered, isDescription, isRow, isCompletion,
      endsResultset]
  | errorResponse _ =>
    rw [ResultsetsHandler.accepts, hfits]
    simp [Follows, isUnanswered, isDescription, isRow, isCompletion, endsResultset]
  | bindComplete | parseComplete =>
    simp [ResultsetsHandler.accepts, Follows, isUnanswered, isDescription, isRow, isCompletion,
      endsResultset]
  | emptyQueryResponse | messageSkipped => exact ⟨fun h => (by cases h), fun h => by cases h.1⟩
  | closeComplete | parameterDescription _ => cases hforeign

/-! ## 5. The calls of a handler -/

/-- The calls for one message with syncs and flushes around it. -/
theorem answered_single {type : RequestMessageType} (hslice : SingleSlice type slice)
    (h : Answered c failed i slice cs failed') (hcall : call ∈ cs) :
    ∃ b xs, Replied c b type xs ∧ call.msg ∈ xs := by
  cases hslice with
  | @mk before after hbefore hafter =>
    obtain ⟨cs₁, cs₂, _, rfl, h₁, h₂⟩ := h.split
    obtain rfl := answered_silent h₁ hbefore
    obtain ⟨xs, cs₃, _, rfl, hreplied, h₃⟩ := answered_cons h₂
    obtain rfl := answered_silent h₃ hafter
    rw [List.nil_append, List.append_nil] at hcall
    obtain ⟨x, hx, rfl⟩ := List.mem_map.mp hcall
    exact ⟨_, xs, hreplied, hx⟩

/-- The calls for a query. -/
theorem answered_query (hslice : ResultsetSlice slice) (h : Answered c failed i slice cs failed')
    (hquery : .query ∈ slice) : ∃ o, ∀ call ∈ cs, call.offset = o := by
  cases answered_resultset hslice h with
  | @query ms =>
    refine ⟨i + ms.length, fun call hcall => ?_⟩
    obtain ⟨x, -, rfl⟩ := List.mem_map.mp hcall
    rfl
  | extended hms hmid hpost =>
    simp only [List.mem_append, List.mem_cons, reduceCtorEq, false_or] at hquery
    rcases hquery with hm | hm | hm
    · cases hms _ hm
    · cases hmid _ hm
    · cases hpost _ hm

end

section
variable {V : Type} {r : Response V} {req : Request} {allowCopy : Bool}
  {msgs : List AnyBackendMessage} {run : Run} {pre post : List Call} {call : Call} {k : Nat}
  {h : Handler V} {m : RequestMessageType}

/-- Each query has one resultset at most. -/
def OneResultset (req : Request) (calls : List Call) : Prop :=
  ∀ i, req.messages[i]? = some .query →
    (calls.filter (·.offset = i)).countP (fun call => isDescription call.msg) ≤ 1

/-- The handler of a query that has one resultset gets one description. -/
theorem Response.Ready.countP_le (hready : r.Ready req)
    (hrun : (readResponseFsm req allowCopy).feed msgs = .ok run) (hone : OneResultset req run.calls)
    (hcalls : run.calls = pre ++ call :: post) (howns : Owns r.offsets k call.offset)
    (hh : r.handlers[k]? = some h) (hshape : ∀ slice, h.Shape slice → ResultsetSlice slice)
    (hm : req.messages[call.offset]? = some .query) :
    (seenBy r.offsets k pre ++ [call.msg]).countP isDescription ≤ 1 := by
  obtain ⟨i, j, slice, rest, b, b', hsplits, hslice, hanswered⟩ := hready.answered hrun hcalls howns hh
  obtain ⟨hle, hlt⟩ := hanswered.offset_lt call (by simp)
  have hd : call.offset - i < slice.length := by omega
  have hquery : .query ∈ slice := by
    refine List.mem_of_getElem? (i := call.offset - i) ?_
    rw [← hsplits.getElem? hd, Nat.add_sub_cancel' hle, hm]
  obtain ⟨o, ho⟩ := answered_query (hshape slice hslice) hanswered hquery
  -- its calls so far are some of those of the query
  have hsame : ∀ c ∈ callsOf r.offsets k pre ++ [call], decide (c.offset = call.offset) = true := by
    intro c hc
    have hc : c ∈ callsOf r.offsets k pre ++ call :: rest := by
      rcases List.mem_append.mp hc with hc | hc
      · exact List.mem_append_left _ hc
      · exact List.mem_append_right _ (by simpa using Or.inl (List.mem_singleton.mp hc))
    rw [ho c hc, ho call (by simp)]
    exact decide_eq_true rfl
  have hsub : List.Sublist (callsOf r.offsets k pre ++ [call]) run.calls := by
    rw [hcalls]
    exact List.filter_sublist.append (by simp)
  have hfilter := hsub.filter (fun c => decide (c.offset = call.offset))
  rw [List.filter_eq_self.mpr hsame] at hfilter
  have hcount := hfilter.countP_le (p := fun c => isDescription c.msg)
  have hbound := hone call.offset hm
  have hmap : (seenBy r.offsets k pre ++ [call.msg]).countP isDescription =
      (callsOf r.offsets k pre ++ [call]).countP fun c => isDescription c.msg := by
    have hmsgs : seenBy r.offsets k pre ++ [call.msg] =
        (callsOf r.offsets k pre ++ [call]).map (·.msg) := by
      rw [List.map_append]
      rfl
    rw [hmsgs, List.countP_map]
    rfl
  omega

/-- What the handler of a describe gets. -/
theorem Response.Ready.settled (hready : r.Ready req)
    (hrun : (readResponseFsm req allowCopy).feed msgs = .ok run)
    (hcalls : run.calls = pre ++ call :: post) (howns : Owns r.offsets k call.offset)
    (hh : r.handlers[k]? = some h) (hshape : ∀ slice, h.Shape slice → SingleSlice .describe slice) :
    isSettled call.msg = true := by
  obtain ⟨i, j, slice, rest, b, b', -, hslice, hanswered⟩ := hready.answered hrun hcalls howns hh
  obtain ⟨b, xs, hreplied, hmem⟩ := answered_single (hshape slice hslice) hanswered
    (List.mem_append_right _ List.mem_cons_self)
  obtain ⟨x, rfl, hx⟩ := replied_describe hreplied
  rw [List.mem_singleton.mp hmem]
  exact hx

/-- **A call for a handler of several resultsets**, which has got no message without an answer. -/
theorem Response.Ready.turn_resultsets (hready : r.Ready req)
    (hrun : (readResponseFsm req allowCopy).feed msgs = .ok run)
    (hcalls : run.calls = pre ++ call :: post) (howns : Owns r.offsets k call.offset)
    (hh : r.handlers[k]? = some h) (hshape : ∀ ms, h.Shape ms → ∃ slices, slices ≠ [] ∧
      (∀ s ∈ slices, ResultsetSlice s) ∧ ms = slices.flatten)
    (hm : req.messages[call.offset]? = some m)
    (hnone : ∀ x ∈ seenBy r.offsets k pre, isUnanswered x = false) :
    ∃ before seen, seenBy r.offsets k pre = before ++ seen ∧
      (Tally.run {} before).described = false ∧ Turn allowCopy m seen call.msg := by
  obtain ⟨i, j, slice, rest, b, b', hsplits, hslice, hanswered⟩ := hready.answered hrun hcalls howns hh
  obtain ⟨slices, -, hslices, rfl⟩ := hshape _ hslice
  obtain ⟨d, m', before, seen, hoffset, hm', hseen, hbefore, hturn⟩ :=
    turn_of_slices (t := {}) hslices hanswered (fun c hc => hnone _ (List.mem_map_of_mem hc)) rfl
  have hd := (List.getElem?_eq_some_iff.mp hm').1
  rw [hoffset, hsplits.getElem? hd, hm'] at hm
  cases hm
  exact ⟨before, seen, hseen, hbefore, hturn⟩

/-- What a handler expects, and which messages it takes, depends on its class only. -/
theorem Handler.expects_iff {h h₁ : Handler V} (hargs : h₁.constructed = h.constructed)
    (seen : List AnyRequestMessage) (msg : AnyRequestMessage) :
    (h.Expects m seen msg ↔ h₁.Expects m seen msg) ∧ h.Shape = h₁.Shape := by
  cases h <;> cases h₁ <;> first | exact ⟨Iff.rfl, rfl⟩ | cases hargs

/-- **A handler accepts what it expects**, of all that is reported to it. -/
theorem Response.Ready.accepts_iff (hready : r.Ready req)
    (hrun : (readResponseFsm req allowCopy).feed msgs = .ok run) (hone : OneResultset req run.calls)
    (hcalls : run.calls = pre ++ call :: post) (howns : Owns r.offsets k call.offset)
    (hh : r.handlers[k]? = some h) (hm : req.messages[call.offset]? = some m) {h₁ : Handler V}
    {w₁ : World V} (hrecalls : h.Recalls (seenBy r.offsets k pre) h₁ w₁) :
    h₁.accepts call.msg w₁ = true ↔ h.Expects m (seenBy r.offsets k pre) call.msg := by
  obtain ⟨hexpects, hshape⟩ :=
    Handler.expects_iff (m := m) hrecalls.args (seenBy r.offsets k pre) call.msg
  rw [hexpects]
  -- the turn of the call, where the handler takes one resultset
  have hturn : (∀ slice, h.Shape slice → ResultsetSlice slice) →
      Turn allowCopy m (seenBy r.offsets k pre) call.msg := by
    intro hslices
    obtain ⟨m', hm', hturn⟩ := hready.turn hrun hcalls howns hh hslices
    rw [hm] at hm'
    cases hm'
    exact hturn
  cases h₁ with
  | check h₁ | checkParse h₁ | checkClose h₁ => exact ⟨fun _ => trivial, fun _ => rfl⟩
  | checkExecute h₁ => exact (hturn fun slice hslice => by rwa [hshape] at hslice).accepts_execute
  | describeInto h₁ =>
    have hsettled := hready.settled hrun hcalls howns hh fun slice hslice => by rwa [hshape] at hslice
    show DescribeInto.accepts call.msg = true ↔ call.msg ≠ .messageSkipped
    cases hmsg : call.msg with
    | rowDescription _ | errorResponse _ => exact ⟨fun _ => by simp, fun _ => rfl⟩
    | messageSkipped => exact ⟨nofun, fun h => absurd rfl h⟩
    | _ =>
      rw [hmsg] at hsettled
      cases hsettled
  | resultsetCallback cb =>
    have hslices : ∀ slice, h.Shape slice → ResultsetSlice slice := fun slice hslice => by
      rwa [hshape] at hslice
    show ResultsetCallback.accepts cb.state call.msg = true ↔ _
    rw [hrecalls.callback cb rfl]
    refine (hturn hslices).accepts_callback fun hquery => ?_
    subst hquery
    exact hready.countP_le hrun hone hcalls howns hh hslices hm
  | resultsetsHandler rs =>
    obtain ⟨before, seen, hseen, hbefore, hturn⟩ := hready.turn_resultsets hrun hcalls howns hh
      (fun slice hslice => by rwa [hshape] at hslice) hm (hrecalls.answered rs rfl)
    refine hturn.accepts_resultsets (hrecalls.counts rs rfl) fun hne => ?_
    rw [tally, hseen, Tally.run_append]
    exact hturn.follows hne hbefore

/-! ## 6. Responses -/

/-- A call that the handler it is for is written for. -/
def Response.Expects (r : Response V) (req : Request) (pre : List Call) (call : Call) : Prop :=
  ∀ k h m, Owns r.offsets k call.offset → r.handlers[k]? = some h →
    req.messages[call.offset]? = some m → h.Expects m (seenBy r.offsets k pre) call.msg

/-- **One call, behind any others.** -/
theorem Response.assertion_iff {handlers : List (Handler V)} {w w' : World V} {ec : ErrorCode}
    (hsetup : (Response.new handlers).setupRequest req w = .ok (ec, r, w'))
    (hec : ec.failed = false) (hrun : (readResponseFsm req allowCopy).feed msgs = .ok run)
    (hone : OneResultset req run.calls) (hcalls : run.calls = pre ++ call :: post)
    {r₁ : Response V} {w₁ : World V} (hpre : r.run false pre w' = .ok (r₁, w₁)) :
    r₁.onMessage false call w₁ ≠ .error .assertion ↔ r.Expects req pre call := by
  obtain ⟨hready, hhandlers, hcurrent, rfl⟩ := setupRequest_spec (length_new handlers) hsetup hec
  have hturn := feed_inTurn hready.accepted allowCopy hrun
  rw [hcalls] at hturn
  have hinit : ∀ h ∈ r.handlers, h.Recalls [] h (clearAll (Response.new handlers).handlers w) := by
    intro h hh
    rw [hhandlers] at hh
    obtain ⟨x, hx, rfl⟩ := List.mem_map.mp hh
    exact Handler.recalls_reset fun rs hrs => clearAll_results (.inl (hrs ▸ hx))
  obtain ⟨hoffsets, lo, hr₁, hturn₁⟩ :=
    run_stands hready.laid hready.last (hready.stands hcurrent) hturn hpre
  have hlaid := hready.laid
  have hlast := hready.last
  rw [← hoffsets] at hlaid hlast
  cases hturn₁ with
  | cons hle hlt hskip _ =>
    obtain ⟨k, h₁, howns, hh₁, -, -, heq⟩ := onMessage_eq hlaid hlast hr₁ hle hlt hskip false w₁
    obtain ⟨h, hh, hrecalls⟩ := hready.recalls hcurrent hinit hturn.of_append hpre hh₁
    rw [hoffsets] at howns hrecalls
    have hm : req.messages[call.offset]? = some req.messages[call.offset] :=
      List.getElem?_eq_getElem hlt
    have haccepts := hready.accepts_iff hrun hone hcalls howns hh hm hrecalls
    have hassert : r₁.onMessage false call w₁ = .error .assertion ↔ h₁.accepts call.msg w₁ = false := by
      rw [heq, forward, map_eq_error]
      exact h₁.assertion_iff call.msg w₁
    rw [Ne, hassert, Bool.not_eq_false, haccepts]
    refine ⟨fun hexpects k' h' m' howns' hh' hm' => ?_, fun hexpects => hexpects k h _ howns hh hm⟩
    obtain rfl := hready.laid.owns_unique howns howns'
    rw [hh] at hh'
    cases hh'
    rw [hm] at hm'
    cases hm'
    exact hexpects

/-- **Where assertions fire in some calls.** None does if and only if all calls that are made are
    expected; and one fires in a call that is made if and only if that call is not. A call is made
    where all calls before it have returned. `run` makes some calls, `step` makes one more. -/
def AssertsExactly {σ : Type} (run : List Call → Attempt σ) (step : σ → Call → Attempt σ)
    (expected : List Call → Call → Prop) (calls : List Call) : Prop :=
  (run calls ≠ .error .assertion ↔
      ∀ pre call post s, calls = pre ++ call :: post → run pre = .ok s → expected pre call) ∧
    ∀ pre call post s, calls = pre ++ call :: post → run pre = .ok s →
      (step s call ≠ .error .assertion ↔ expected pre call)

theorem Response.assertsExactly {handlers : List (Handler V)} {w w' : World V} {ec : ErrorCode}
    (hsetup : (Response.new handlers).setupRequest req w = .ok (ec, r, w'))
    (hec : ec.failed = false) (hrun : (readResponseFsm req allowCopy).feed msgs = .ok run)
    (hone : OneResultset req run.calls) :
    AssertsExactly (r.run false · w') (fun s call => s.1.onMessage false call s.2) (r.Expects req)
      run.calls := by
  have heach : ∀ pre call post (s : Response V × World V), run.calls = pre ++ call :: post →
      r.run false pre w' = .ok s →
      (s.1.onMessage false call s.2 ≠ .error .assertion ↔ r.Expects req pre call) :=
    fun pre call post s hcalls hpre => Response.assertion_iff hsetup hec hrun hone hcalls hpre
  refine ⟨⟨fun hnone pre call post s hcalls hpre => ?_, fun hexpects herror => ?_⟩, heach⟩
  · refine (heach pre call post s hcalls hpre).mp fun hmsg => hnone ?_
    exact run_eq_error.mpr ⟨pre, call, post, s.1, s.2, hcalls, hpre, hmsg⟩
  · obtain ⟨pre, call, post, r₁, w₁, hcalls, hpre, hmsg⟩ := run_eq_error.mp herror
    exact (heach pre call post (r₁, w₁) hcalls hpre).mpr
      (hexpects pre call post (r₁, w₁) hcalls hpre) hmsg

/-- What the response of one handler expects. -/
theorem Response.expects_single (h : Handler V)
    (hpre : ∀ call ∈ pre, call.offset < req.messages.length)
    (hcall : call.offset < req.messages.length) :
    (Response.single h req).Expects req pre call ↔
      ∀ m, req.messages[call.offset]? = some m → h.Expects m (pre.map (·.msg)) call.msg := by
  have hseen : seenBy (Response.single h req).offsets 0 pre = pre.map (·.msg) := seenBy_single hpre
  constructor
  · intro hexpects m hm
    rw [← hseen]
    exact hexpects 0 h m ((owns_single _ _).mpr hcall) rfl hm
  · intro hexpects k h' m howns hh hm
    cases k with
    | succ k => cases hh
    | zero =>
      cases hh
      rw [hseen]
      exact hexpects m hm

/-- **Exactly the messages a handler is not written for make an assertion fire.** Whatever the server
    sends, as long as each query has one resultset at most: for a handler on its own, and for any
    response, no assertion fires if and only if all messages that it gets are expected, and it is in
    the call of a message that is not that one fires. -/
theorem asserts_exactly (hrun : (readResponseFsm req allowCopy).feed msgs = .ok run)
    (hone : OneResultset req run.calls) (w : World V) :
    (∀ (h h' : Handler V) (w' : World V) (ec : ErrorCode),
      h.setupRequest req w = .ok (ec, h', w') → ec.failed = false →
      AssertsExactly (fun calls => h'.run false (calls.map (·.msg)) w')
        (fun s call => s.1.onMessage false call.msg s.2)
        (fun pre call => ∀ m, req.messages[call.offset]? = some m →
          h'.Expects m (pre.map (·.msg)) call.msg) run.calls) ∧
    ∀ (handlers : List (Handler V)) (r : Response V) (w' : World V) (ec : ErrorCode),
      (Response.new handlers).setupRequest req w = .ok (ec, r, w') → ec.failed = false →
      AssertsExactly (r.run false · w') (fun s call => s.1.onMessage false call s.2) (r.Expects req)
        run.calls := by
  refine ⟨fun h h' w' ec hsetup hec => ?_, fun handlers r w' ec hsetup hec =>
    Response.assertsExactly hsetup hec hrun hone⟩
  have hsingle := Handler.setupRequest_single hsetup hec
  obtain ⟨hready, -⟩ := Response.setupRequest_spec (Response.length_new [h]) hsingle hec
  have hlt := (feed_inTurn hready.accepted allowCopy hrun).offset_lt
  have hsplit : ∀ {pre call post}, run.calls = pre ++ call :: post →
      (∀ c ∈ pre, c.offset < req.messages.length) ∧ call.offset < req.messages.length := by
    intro pre call post hcalls
    rw [hcalls] at hlt
    exact ⟨fun c hc => hlt c (List.mem_append_left _ hc), hlt call (by simp)⟩
  obtain ⟨hall, heach⟩ := Response.assertsExactly hsingle hec hrun hone
  have hsame : ∀ {pre : List Call} {s : Handler V × World V},
      (∀ c ∈ pre, c.offset < req.messages.length) → h'.run false (pre.map (·.msg)) w' = .ok s →
      (Response.single h' req).run false pre w' = .ok (.single s.1 req, s.2) := by
    intro pre s hlt hpre
    rw [Response.run_single false req pre h' w' hlt]
    exact map_eq_ok.mpr ⟨s, hpre, rfl⟩
  have hnone : h'.run false (run.calls.map (·.msg)) w' ≠ .error .assertion ↔
      (Response.single h' req).run false run.calls w' ≠ .error .assertion := by
    rw [Response.run_single false req run.calls h' w' hlt, Ne, Ne, map_eq_error]
  refine ⟨hnone.trans (hall.trans ⟨fun hexpects pre call post s hcalls hpre => ?_,
    fun hexpects pre call post s hcalls hpre => ?_⟩), fun pre call post s hcalls hpre => ?_⟩
  · obtain ⟨hprelt, hcall⟩ := hsplit hcalls
    exact (Response.expects_single h' hprelt hcall).mp
      (hexpects pre call post _ hcalls (hsame hprelt hpre))
  · obtain ⟨hprelt, hcall⟩ := hsplit hcalls
    obtain ⟨s', hs', -⟩ :=
      map_eq_ok.mp ((Response.run_single false req pre h' w' hprelt).symm.trans hpre)
    exact (Response.expects_single h' hprelt hcall).mpr (hexpects pre call post s' hcalls hs')
  · obtain ⟨hprelt, hcall⟩ := hsplit hcalls
    have hiff : (Response.single s.1 req).onMessage false call s.2 ≠ .error .assertion ↔
        (Response.single h' req).Expects req pre call :=
      heach pre call post _ hcalls (hsame hprelt hpre)
    rw [Response.onMessage_single false hcall, Ne, map_eq_error,
      Response.expects_single h' hprelt hcall] at hiff
    exact hiff

end

/-- A query with one row: the callback gets the description, the row and the end. -/
theorem asserts_exactly_select :
    ∃ (d : RowDescription) (row : DataRow) (run : Run) (h' : Handler Nat) (w w' : World Nat),
      (readResponseFsm { messages := [.query] } false).feed
        [.rowDescription d, .dataRow row, .commandComplete (ascii "SELECT 1"), .readyForQuery .idle] =
        .ok run ∧
      OneResultset { messages := [.query] } run.calls ∧
      (Handler.resultsetCallback xyCallback).setupRequest { messages := [.query] } w =
        .ok (.success, .resultsetCallback xyCallback, w) ∧
      (Handler.resultsetCallback xyCallback).run false (run.calls.map (·.msg)) w ≠
        .error .assertion ∧
      (Handler.resultsetCallback xyCallback).run false (run.calls.map (·.msg)) w = .ok (h', w') ∧
      w'.rows = [(0, [1, 2])] := by
  let d : RowDescription := ⟨⟨2, [120, 0, 0, 0, 0, 1, 0, 1, 0, 0, 0, 23, 0, 4, 0, 0, 0, 0, 0, 0,
    121, 0, 0, 0, 0, 1, 0, 2, 0, 0, 0, 23, 0, 4, 0, 0, 0, 0, 0, 0]⟩⟩
  let row : DataRow := ⟨⟨2, [0, 0, 0, 1, 49, 0, 0, 0, 2, 50, 51]⟩⟩
  have hrun : ∃ run, (readResponseFsm { messages := [.query] } false).feed
      [.rowDescription d, .dataRow row, .commandComplete (ascii "SELECT 1"), .readyForQuery .idle] =
        .ok run ∧
      run.calls = [⟨.rowDescription d, 0⟩, ⟨.dataRow row, 0⟩,
        ⟨.commandComplete (ascii "SELECT 1"), 0⟩] :=
    ⟨_, rfl, rfl⟩
  obtain ⟨run, hrun, hcalls⟩ := hrun
  have hone : OneResultset { messages := [.query] } run.calls := by
    intro i hi
    rw [hcalls]
    cases i with
    | zero => decide
    | succ i => cases hi
  have hsetup : ∀ w : World Nat, (Handler.resultsetCallback xyCallback).setupRequest
      { messages := [.query] } w = .ok (.success, .resultsetCallback xyCallback, w) := fun _ => rfl
  have hran : ∃ h' w', (Handler.resultsetCallback xyCallback).run false (run.calls.map (·.msg))
      ⟨fun _ => {}, fun _ => {}, fun _ => {}, []⟩ = .ok (h', w') ∧ w'.rows = [(0, [1, 2])] := by
    rw [hcalls]
    exact ⟨_, _, rfl, rfl⟩
  obtain ⟨h', w', hran, hrows⟩ := hran
  refine ⟨d, row, run, h', ⟨fun _ => {}, fun _ => {}, fun _ => {}, []⟩, w', hrun, hone, hsetup _, ?_,
    hran, hrows⟩
  refine ((asserts_exactly hrun hone _).1 _ _ _ _ (hsetup _) rfl).1.mpr
    fun pre call post s heq _ m hm => ?_
  have hmem : call ∈ run.calls := by
    rw [heq]
    simp
  rw [hcalls] at hmem
  simp only [List.mem_cons, List.not_mem_nil, or_false] at hmem
  -- the three messages answer a query, of which the callback expects anything but an empty one
  rcases hmem with rfl | rfl | rfl <;> (cases hm; exact ⟨by simp, fun h => by cases h⟩)

/-- A batch whose parse fails: the bind was skipped, and `check_execute` asserts that this cannot
    be. -/
theorem checkExecute_skipped_asserts :
    ∃ (run : Run) (w : World Unit),
      (readResponseFsm { messages := [.parse, .bind, .describe, .execute, .sync] } false).feed
        [.errorResponse {}, .readyForQuery .idle] = .ok run ∧
      run.finished = some .success ∧
      OneResultset { messages := [.parse, .bind, .describe, .execute, .sync] } run.calls ∧
      (Handler.checkExecute {}).setupRequest
        { messages := [.parse, .bind, .describe, .execute, .sync] } w =
        .ok (.success, .checkExecute {}, w) ∧
      (Handler.checkExecute {}).run false (run.calls.map (·.msg)) w = .error .assertion := by
  have hrun : ∃ run, (readResponseFsm
      { messages := [.parse, .bind, .describe, .execute, .sync] } false).feed
        [.errorResponse {}, .readyForQuery .idle] = .ok run ∧ run.finished = some .success ∧
      run.calls = [⟨.errorResponse {}, 0⟩, ⟨.messageSkipped, 1⟩, ⟨.messageSkipped, 2⟩,
        ⟨.messageSkipped, 3⟩] := ⟨_, rfl, rfl, rfl⟩
  obtain ⟨run, hrun, hfin, hcalls⟩ := hrun
  refine ⟨run, ⟨fun _ => {}, fun _ => {}, fun _ => {}, []⟩, hrun, hfin, fun i hi => ?_, rfl, ?_⟩
  · match i, hi with
    | 0, hi | 1, hi | 2, hi | 3, hi | 4, hi => cases hi
  · rw [hcalls]
    rfl

end Responses

end NativePg
