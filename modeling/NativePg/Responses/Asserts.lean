/-
  File:      NativePg/Responses/Asserts.lean
  Subject:   The assertions of the handlers, and the messages that break them.

  * `CheckExecute.accepts`, ..., `ResultsetsHandler.accepts` -- the messages on which no assertion of
    a class fires, in the state the object is in;
  * `callbackState`, `Tally` -- the state of an object, from the messages it has got.
    `Handler.Recalls.step`: while no assertion has fired, it is that state;
  * **`Response.Ready.recalls`** -- the same of every handler of a response, behind any calls.
-/
import NativePg.Responses.Steps
import NativePg.Responses.Turns

namespace NativePg

namespace Responses

open ReadResponseFsm

/-! ## 1. Which messages a class accepts in a state -/

/-- An assertion in front of other code. -/
theorem assert_bind_eq_error {α : Type} {cond : Bool} {f : Unit → Attempt α} :
    boostAssert false cond >>= f = .error .assertion ↔
      cond = false ∨ f () = .error .assertion := by
  cases cond with
  | true => exact ⟨.inr, fun h => h.resolve_left nofun⟩
  | false => exact ⟨fun _ => .inl rfl, fun _ => rfl⟩

/-- Reading a view asserts nothing. -/
theorem walk_ne_assertion {α : Type} (v : ForwardParsingView) (t : ItemTraits α) :
    walk v t ≠ .error .assertion := by
  unfold walk
  split <;> exact nofun

theorem walk_bind_ne_assertion {α β : Type} {v : ForwardParsingView} {t : ItemTraits α}
    {f : List α → Attempt β} (hf : ∀ items, f items ≠ .error .assertion) :
    walk v t >>= f ≠ .error .assertion := by
  intro h
  rcases bind_eq_error.mp h with h | ⟨items, -, h⟩
  · exact walk_ne_assertion v t h
  · exact hf items h

section
variable {V : Type}

/-- The messages of a resultset, and the errors. -/
def CheckExecute.accepts : AnyRequestMessage → Bool
  | .closeComplete | .parameterDescription _ | .emptyQueryResponse | .messageSkipped => false
  | _ => true

theorem CheckExecute.assertion_iff (h : CheckExecute) (msg : AnyRequestMessage) (w : World V) :
    h.onMessage false msg w = .error .assertion ↔ CheckExecute.accepts msg = false := by
  cases msg with
  | closeComplete | parameterDescription _ | emptyQueryResponse | messageSkipped =>
    exact ⟨fun _ => rfl, fun _ => rfl⟩
  | _ => exact ⟨nofun, nofun⟩

/-- The answers to a describe. -/
def DescribeInto.accepts : AnyRequestMessage → Bool
  | .rowDescription _ | .parameterDescription _ | .errorResponse _ => true
  | _ => false

theorem DescribeInto.assertion_iff (h : DescribeInto) (msg : AnyRequestMessage) (w : World V) :
    h.onMessage false msg w = .error .assertion ↔ DescribeInto.accepts msg = false := by
  cases msg with
  | rowDescription d =>
    refine ⟨fun hmsg => ?_, nofun⟩
    rcases bind_eq_error.mp hmsg with hassign | ⟨_, -, hpure⟩
    · unfold FieldDescriptions.assign at hassign
      exact absurd hassign (walk_bind_ne_assertion fun _ h => by cases h)
    · cases hpure
  | parameterDescription _ | errorResponse _ => exact ⟨nofun, nofun⟩
  | _ => exact ⟨fun _ => rfl, fun _ => rfl⟩

namespace ResultsetCallback

/-- A description first, then rows and the end of them. -/
def accepts (state : CallbackState) : AnyRequestMessage → Bool
  | .rowDescription _ => state = .parsingMeta
  | .dataRow _ | .commandComplete _ | .portalSuspended => state = .parsingData
  | .closeComplete | .parameterDescription _ | .emptyQueryResponse => false
  | _ => true

theorem parseRow_ne_assertion (data : List (Option Bytes)) (members : List (Member V))
    (posMap : List PosMapEntry) : parseRow data members posMap ≠ .error .assertion := by
  unfold parseRow
  induction members.zip posMap with
  | nil => exact nofun
  | cons p ps ih =>
    obtain ⟨member, ent⟩ := p
    rw [List.mapM_cons]
    intro h
    rcases bind_eq_error.mp h with hmember | ⟨_, -, hrest⟩
    · simp only [parseMember] at hmember
      cases hfield : ent.dbIndex.bind (data[·]?) with
      | none =>
        rw [hfield] at hmember
        cases hmember
      | some fv =>
        rw [hfield] at hmember
        cases hmember
    · rcases bind_eq_error.mp hrest with hrest | ⟨_, -, hpure⟩
      · exact ih hrest
      · cases hpure

theorem onDataRow_assertion_iff (h : ResultsetCallback V) (msg : DataRow) (w : World V) :
    h.onDataRow false msg w = .error .assertion ↔ decide (h.state = .parsingData) = false := by
  unfold onDataRow
  rw [assert_bind_eq_error]
  refine or_iff_left fun hrest => ?_
  cases herr : h.err.code.failed with
  | true =>
    rw [if_pos herr] at hrest
    cases hrest
  | false =>
    rw [if_neg (by rw [herr]; nofun)] at hrest
    refine walk_bind_ne_assertion (fun data => ?_) hrest
    cases h.posMap with
    | none => exact nofun
    | some posMap =>
      intro hrow
      rcases bind_eq_error.mp hrow with hrow | ⟨row, -, hpure⟩
      · exact parseRow_ne_assertion _ _ _ hrow
      · simp only at hpure
        cases hec : (firstError (row.map (·.1))).failed with
        | true =>
          rw [if_pos hec] at hpure
          cases hpure
        | false =>
          rw [if_neg (by rw [hec]; nofun)] at hpure
          cases hpure

theorem onDone_assertion_iff (h : ResultsetCallback V) (w : World V) :
    (do let h ← h.onDone false; pure (h, w)) = (.error .assertion : Attempt _) ↔
      decide (h.state = .parsingData) = false := by
  unfold onDone
  rw [bind_eq_error, assert_bind_eq_error]
  refine ⟨?_, fun hstate => .inl (.inl hstate)⟩
  rintro ((hstate | hpure) | ⟨_, -, hpure⟩)
  · exact hstate
  · cases hpure
  · cases hpure

theorem assertion_iff (h : ResultsetCallback V) (msg : AnyRequestMessage) (w : World V) :
    h.onMessage false msg w = .error .assertion ↔ accepts h.state msg = false := by
  cases msg with
  | rowDescription d =>
    show (h.onRowDescription false d >>= fun h => pure (h, w)) = .error .assertion ↔ _
    rw [onRowDescription_eq, bind_eq_error, assert_bind_eq_error]
    constructor
    · rintro ((hstate | hwalk) | ⟨_, -, hpure⟩)
      · exact hstate
      · exact absurd hwalk (walk_bind_ne_assertion fun _ h => by cases h)
      · cases hpure
    · exact fun hstate => .inl (.inl hstate)
  | dataRow d => exact h.onDataRow_assertion_iff d w
  | commandComplete _ | portalSuspended => exact h.onDone_assertion_iff _
  | closeComplete | parameterDescription _ | emptyQueryResponse =>
    exact ⟨fun _ => rfl, fun _ => rfl⟩
  | _ => exact ⟨nofun, nofun⟩

end ResultsetCallback

namespace ResultsetsHandler

/-- There are at least as many descriptions and values as `finish_resultset` is told. -/
def fits (h : ResultsetsHandler) (r : Resultsets) : Bool :=
  h.numCols ≤ r.fieldDescr.length && h.numCols * h.numRows ≤ r.values.length

/-- A description, then rows and the end of them; an error any time. -/
def accepts (h : ResultsetsHandler) (r : Resultsets) : AnyRequestMessage → Bool
  | .rowDescription _ => h.state = .parsingMeta
  | .dataRow _ => h.state = .parsingData
  | .commandComplete _ | .portalSuspended => h.state = .parsingData && h.fits r
  | .errorResponse _ => h.fits r
  | .bindComplete | .parseComplete => true
  | .closeComplete | .parameterDescription _ | .emptyQueryResponse | .messageSkipped => false

theorem finish_assertion_iff (h : ResultsetsHandler) (w : World V) (info : CommandInfo)
    (err : ExtendedError) :
    h.finish false w info err = .error .assertion ↔ h.fits (w.results h.obj) = false := by
  unfold finish Resultsets.finishResultset fits
  rw [bind_eq_error, assert_bind_eq_error, assert_bind_eq_error, Bool.and_eq_false_iff]
  refine ⟨?_, fun hfits => .inl (hfits.imp_right .inl)⟩
  rintro ((hcols | hvalues | hpure) | ⟨_, -, hpure⟩)
  · exact .inl hcols
  · exact .inr hvalues
  · cases hpure
  · cases hpure

theorem assertion_iff (h : ResultsetsHandler) (msg : AnyRequestMessage) (w : World V) :
    h.onMessage false msg w = .error .assertion ↔ h.accepts (w.results h.obj) msg = false := by
  cases msg with
  | rowDescription d | dataRow d =>
    refine assert_bind_eq_error.trans (or_iff_left fun hrest => ?_)
    rcases bind_eq_error.mp hrest with hadd | ⟨_, -, hpure⟩
    · exact absurd hadd (walk_bind_ne_assertion fun _ h => by cases h)
    · cases hpure
  | commandComplete _ | portalSuspended =>
    refine assert_bind_eq_error.trans ?_
    rw [finish_assertion_iff, accepts, Bool.and_eq_false_iff]
  | errorResponse e => exact finish_assertion_iff _ w _ _
  | closeComplete | parameterDescription _ | emptyQueryResponse | messageSkipped =>
    exact ⟨fun _ => rfl, fun _ => rfl⟩
  | bindComplete | parseComplete => exact ⟨nofun, nofun⟩

end ResultsetsHandler

/-- The messages on which no assertion of a handler fires. -/
def Handler.accepts (h : Handler V) (msg : AnyRequestMessage) (w : World V) : Bool :=
  match h with
  | .check _ | .checkParse _ | .checkClose _ => true
  | .checkExecute _ => CheckExecute.accepts msg
  | .describeInto _ => DescribeInto.accepts msg
  | .resultsetCallback h => ResultsetCallback.accepts h.state msg
  | .resultsetsHandler h => h.accepts (w.results h.obj) msg

/-- **Exactly the messages that are not accepted make an assertion fire.** -/
theorem Handler.assertion_iff (h : Handler V) (msg : AnyRequestMessage) (w : World V) :
    h.onMessage false msg w = .error .assertion ↔ h.accepts msg w = false := by
  cases h with
  | check h | checkParse h | checkClose h => exact ⟨nofun, nofun⟩
  | checkExecute h => exact map_eq_error.trans (h.assertion_iff msg w)
  | describeInto h => exact map_eq_error.trans (h.assertion_iff msg w)
  | resultsetCallback h => exact map_eq_error.trans (h.assertion_iff msg w)
  | resultsetsHandler h => exact map_eq_error.trans (h.assertion_iff msg w)

/-! ## 2. The state of a handler, from the messages it has got -/

/-- The state of a resultset callback. -/
def callbackState (seen : List AnyRequestMessage) : CallbackState :=
  if seen.any isCompletion then .done
  else if seen.any isDescription then .parsingData
  else .parsingMeta

/-- What a resultsets handler has counted: since the last resultset has ended whether there was a
    description, of how many columns, and how many rows; and the values of all rows. -/
structure Tally where
  described : Bool := false
  columns : Nat := 0
  rows : Nat := 0
  values : Nat := 0
  deriving DecidableEq, Repr

/-- One more message. -/
def Tally.next (t : Tally) : AnyRequestMessage → Tally
  | .rowDescription d => { t with described := true, columns := d.fieldDescriptions.size }
  | .dataRow d => { t with rows := t.rows + 1, values := t.values + d.columns.size }
  | .commandComplete _ | .portalSuspended | .errorResponse _ => { values := t.values }
  | _ => t

def Tally.run (t : Tally) (seen : List AnyRequestMessage) : Tally := seen.foldl Tally.next t

/-- The tally of some messages. -/
def tally (seen : List AnyRequestMessage) : Tally := Tally.run {} seen

theorem Tally.run_append (t : Tally) (xs ys : List AnyRequestMessage) :
    t.run (xs ++ ys) = (t.run xs).run ys :=
  List.foldl_append

theorem tally_snoc (seen : List AnyRequestMessage) (msg : AnyRequestMessage) :
    tally (seen ++ [msg]) = (tally seen).next msg :=
  Tally.run_append {} seen [msg]

theorem callbackState_snoc {seen : List AnyRequestMessage} {msg : AnyRequestMessage}
    (hcompletion : isCompletion msg = false) (hdescription : isDescription msg = false) :
    callbackState (seen ++ [msg]) = callbackState seen := by
  simp only [callbackState, List.any_append, List.any_cons, List.any_nil, hcompletion,
    hdescription, Bool.or_false]

/-- There was no statement to answer: it was skipped, or there is none. -/
def isUnanswered : AnyRequestMessage → Bool
  | .messageSkipped | .emptyQueryResponse => true
  | _ => false

/-- **The state of a callback follows the messages**, as long as it accepts them. -/
theorem ResultsetCallback.Left.state {h h' : ResultsetCallback V} {msg : AnyRequestMessage}
    {seen : List AnyRequestMessage} (hleft : h.Left msg h') (hstate : h.state = callbackState seen)
    (haccepts : ResultsetCallback.accepts h.state msg = true) :
    h'.state = callbackState (seen ++ [msg]) := by
  cases hleft with
  | description _ =>
    have hmeta : h.state = .parsingMeta := of_decide_eq_true haccepts
    rw [hmeta] at hstate
    unfold callbackState at hstate ⊢
    cases hdone : seen.any isCompletion with
    | true =>
      rw [if_pos hdone] at hstate
      cases hstate
    | false => simp [hdone, isCompletion, isDescription]
  | complete tag | suspended => simp [callbackState, isCompletion]
  | unexpected hmsg =>
    rcases hmsg with rfl | ⟨_, rfl⟩ | rfl <;> exact hstate.trans (callbackState_snoc rfl rfl).symm
  | _ => exact hstate.trans (callbackState_snoc rfl rfl).symm

theorem length_addFieldDescription (fields : List FieldDescription) :
    ∀ acc : List OffsettedFieldDescription × Bytes,
      (fields.foldl addFieldDescription acc).1.length = acc.1.length + fields.length := by
  induction fields with
  | nil => exact fun _ => rfl
  | cons field fields ih =>
    intro acc
    rw [List.foldl_cons, ih, List.length_cons]
    simp only [addFieldDescription, List.length_append, List.length_singleton]
    omega

theorem length_addValue (columns : List (Option Bytes)) :
    ∀ acc : List (Option OffsetAndLength) × Bytes,
      (columns.foldl Resultsets.addValue acc).1.length = acc.1.length + columns.length := by
  induction columns with
  | nil => exact fun _ => rfl
  | cons column columns ih =>
    intro acc
    rw [List.foldl_cons, ih, List.length_cons]
    cases column <;>
      simp only [Resultsets.addValue, List.length_append, List.length_singleton] <;> omega

/-- **A resultsets handler and its object agree with a tally.** -/
structure ResultsetsHandler.Counts (h : ResultsetsHandler) (t : Tally) (r : Resultsets) : Prop where
  state : h.state = if t.described then .parsingData else .parsingMeta
  columns : h.numCols = t.columns
  rows : h.numRows = t.rows
  fields : h.numCols ≤ r.fieldDescr.length
  values : r.values.length = t.values

theorem ResultsetsHandler.Counts.finish {h h' : ResultsetsHandler} {t : Tally} {w w' : World V}
    {ndebug : Bool} {info : CommandInfo} {err : ExtendedError} (hc : h.Counts t (w.results h.obj))
    (hfinish : h.finish ndebug w info err = .ok (h', w')) :
    h'.Counts { values := t.values } (w'.results h'.obj) := by
  obtain ⟨r, hr, hpure⟩ := bind_eq_ok.mp hfinish
  cases hpure
  obtain ⟨_, -, hr⟩ := bind_eq_ok.mp hr
  obtain ⟨_, -, hpure⟩ := bind_eq_ok.mp hr
  cases hpure
  refine ⟨rfl, rfl, rfl, Nat.zero_le _, ?_⟩
  rw [resetState, World.setResults_self]
  exact hc.values

/-- **One message.** -/
theorem ResultsetsHandler.Counts.step {h h' : ResultsetsHandler} {t : Tally} {w w' : World V}
    {ndebug : Bool} {msg : AnyRequestMessage} (hc : h.Counts t (w.results h.obj))
    (hmsg : h.onMessage ndebug msg w = .ok (h', w')) :
    h'.Counts (t.next msg) (w'.results h'.obj) := by
  cases msg with
  | bindComplete | parseComplete =>
    cases hmsg
    exact hc
  | rowDescription d =>
    obtain ⟨_, -, hmsg⟩ := bind_eq_ok.mp hmsg
    obtain ⟨r, hr, hpure⟩ := bind_eq_ok.mp hmsg
    cases hpure
    obtain ⟨fields, hwalk, hpure⟩ := bind_eq_ok.mp hr
    cases hpure
    refine ⟨rfl, rfl, hc.rows, ?_, ?_⟩
    · rw [World.setResults_self]
      show d.fieldDescriptions.size ≤ (fields.foldl addFieldDescription _).1.length
      rw [length_addFieldDescription, length_of_walk hwalk]
      omega
    · rw [World.setResults_self]
      exact hc.values
  | dataRow d =>
    obtain ⟨_, -, hmsg⟩ := bind_eq_ok.mp hmsg
    obtain ⟨r, hr, hpure⟩ := bind_eq_ok.mp hmsg
    cases hpure
    obtain ⟨columns, hwalk, hpure⟩ := bind_eq_ok.mp hr
    cases hpure
    refine ⟨hc.state, hc.columns, congrArg (· + 1) hc.rows, ?_, ?_⟩
    · rw [World.setResults_self]
      exact hc.fields
    · rw [World.setResults_self]
      show (columns.foldl Resultsets.addValue _).1.length = t.values + d.columns.size
      rw [length_addValue, length_of_walk hwalk]
      exact congrArg (· + _) hc.values
  | commandComplete tag | portalSuspended =>
    obtain ⟨_, -, hmsg⟩ := bind_eq_ok.mp hmsg
    exact hc.finish hmsg
  | errorResponse e =>
    have hc' : ResultsetsHandler.Counts { h with err := maybeStoreError e h.err } t
        (w.results h.obj) := ⟨hc.state, hc.columns, hc.rows, hc.fields, hc.values⟩
    exact hc'.finish hmsg
  | closeComplete | parameterDescription _ | emptyQueryResponse | messageSkipped =>
    obtain ⟨_, -, hpure⟩ := bind_eq_ok.mp hmsg
    cases hpure
    exact hc

theorem Handler.eq_resultsets_of_constructed {h h₀ : Handler V} {rs : ResultsetsHandler}
    (hargs : h.constructed = h₀.constructed) (hh : h = .resultsetsHandler rs) :
    ∃ rs₀, h₀ = .resultsetsHandler rs₀ := by
  subst hh
  cases h₀ with
  | resultsetsHandler rs₀ => exact ⟨rs₀, rfl⟩
  | _ => cases hargs

/-- **A handler that was `h₀` when it was set up, and has got `seen` without an assertion.** -/
structure Handler.Recalls (h₀ : Handler V) (seen : List AnyRequestMessage) (h : Handler V)
    (w : World V) : Prop where
  args : h.constructed = h₀.constructed
  callback : ∀ cb, h = .resultsetCallback cb → cb.state = callbackState seen
  counts : ∀ rs, h = .resultsetsHandler rs → rs.Counts (tally seen) (w.results rs.obj)
  answered : ∀ rs, h = .resultsetsHandler rs → ∀ x ∈ seen, isUnanswered x = false

/-- **One message.** -/
theorem Handler.Recalls.step {h₀ h h' : Handler V} {seen : List AnyRequestMessage} {w w' : World V}
    {msg : AnyRequestMessage} (hr : h₀.Recalls seen h w)
    (hmsg : h.onMessage false msg w = .ok (h', w')) : h₀.Recalls (seen ++ [msg]) h' w' := by
  have haccepts : h.accepts msg w = true := by
    cases haccepts : h.accepts msg w with
    | true => rfl
    | false =>
      rw [(h.assertion_iff msg w).mpr haccepts] at hmsg
      cases hmsg
  refine ⟨(constructed_onMessage hmsg).trans hr.args, fun cb hcb => ?_, fun rs hrs => ?_,
    fun rs hrs => ?_⟩
  · subst hcb
    obtain ⟨cb₁, rfl, hp⟩ := onMessage_eq_callback hmsg
    exact (ResultsetCallback.onMessage_ok hp).1.state (hr.callback cb₁ rfl) haccepts
  · subst hrs
    obtain ⟨rs₁, rfl, hp⟩ := onMessage_eq_resultsets hmsg
    rw [tally_snoc]
    exact (hr.counts rs₁ rfl).step hp
  · obtain ⟨rs₁, rfl⟩ := eq_resultsets_of_constructed (constructed_onMessage hmsg) hrs
    intro x hx
    rcases List.mem_append.mp hx with hx | hx
    · exact hr.answered rs₁ rfl x hx
    · obtain rfl := List.mem_singleton.mp hx
      cases x with
      | messageSkipped | emptyQueryResponse => cases haccepts
      | _ => rfl

/-! ## 3. A handler behind any calls -/

theorem clear_results {obj : Nat} {w : World V} (hobj : w.results obj = {}) (h : Handler V) :
    (h.clear w).results obj = {} := by
  cases h with
  | check h | checkParse h | checkClose h | describeInto h => exact hobj
  | checkExecute h | resultsetCallback h =>
    show (w.updateInfo h.info _).results obj = {}
    rw [World.updateInfo_results, hobj]
  | resultsetsHandler h =>
    show Function.update w.results h.obj {} obj = {}
    by_cases heq : obj = h.obj
    · rw [heq, Function.update_self]
    · rw [Function.update_of_ne heq, hobj]

/-- **A set-up response has cleared the objects of its resultsets handlers.** -/
theorem clearAll_results : ∀ {hs : List (Handler V)} {x : ResultsetsHandler} {w : World V},
    .resultsetsHandler x ∈ hs ∨ w.results x.obj = {} → (clearAll hs w).results x.obj = {}
  | [], _, _, h => h.resolve_left nofun
  | h :: hs, x, w, hx => by
      show (clearAll hs (h.clear w)).results x.obj = {}
      refine clearAll_results ?_
      rcases hx with hx | hw
      · rcases List.mem_cons.mp hx with rfl | hx
        · exact .inr (w.setResults_self _ _)
        · exact .inl hx
      · exact .inr (clear_results hw h)

theorem Handler.recalls_reset {x : Handler V} {w : World V}
    (hw : ∀ rs, x = .resultsetsHandler rs → w.results rs.obj = {}) :
    x.reset.Recalls [] x.reset w := by
  refine ⟨rfl, fun cb hcb => ?_, fun rs hrs => ?_, fun _ _ => by simp⟩
  · cases x <;> cases hcb
    rfl
  · cases x <;> cases hrs
    refine ⟨rfl, rfl, rfl, Nat.zero_le _, ?_⟩
    rw [hw _ rfl]
    rfl

section
variable {ms : List RequestMessageType} {off : Nat} {hs : List (Handler V)} {offsets : List Nat}

/-- Behind the end of the request a handler has nothing to wait for. -/
theorem Laid.isCheck_of_end (h : Laid ms off hs offsets) (hoff : off = ms.length) :
    ∀ x ∈ hs, x.isCheck = true := by
  induction h with
  | nil => simp
  | @cons off off' slice h hs offsets hsplits hshape hend hrest ih =>
    have hlength := hsplits.length
    have hle := hsplits.le
    have hnil : slice = [] := List.length_eq_zero_iff.mp (by omega)
    refine List.forall_mem_cons.mpr ⟨?_, ih (by omega)⟩
    cases hc : h.isCheck with
    | true => rfl
    | false =>
      obtain ⟨m, hm, -⟩ := hshape.reported hc
      rw [hnil] at hm
      cases hm

/-- **A response has at most one resultsets handler.** -/
theorem Laid.resultsets_unique (h : Laid ms off hs offsets) {j k : Nat} {x y : ResultsetsHandler}
    (hj : hs[j]? = some (.resultsetsHandler x)) (hk : hs[k]? = some (.resultsetsHandler y)) :
    j = k := by
  induction h generalizing j k with
  | nil => cases hj
  | @cons off off' slice h hs offsets hsplits hshape hend hrest ih =>
    -- it takes the rest, so that there is none behind it
    have hbehind : ∀ {i : Nat} {z z' : ResultsetsHandler}, h = .resultsetsHandler z →
        hs[i]? = some (.resultsetsHandler z') → False := by
      intro i z z' hz hi
      have hoff : off' = ms.length := hend (by rw [hz]; rfl)
      have hcheck := hrest.isCheck_of_end hoff _ (List.mem_of_getElem? hi)
      cases hcheck
    cases j with
    | zero =>
      cases k with
      | zero => rfl
      | succ k => exact (hbehind (Option.some.inj hj) hk).elim
    | succ j =>
      cases k with
      | zero => exact (hbehind (Option.some.inj hk) hj).elim
      | succ k => exact congrArg (· + 1) (ih hj hk)

end

/-- **Behind any calls** that were made without an assertion, each handler has the state of the
    messages it has got. -/
theorem Response.Ready.recalls {r r₁ : Response V} {req : Request} (hready : r.Ready req)
    (hcurrent : r.current = 0) {w w₁ : World V} (hinit : ∀ h ∈ r.handlers, h.Recalls [] h w)
    {calls : List Call} (hturn : InTurn req.messages 0 calls)
    (hrun : r.run false calls w = .ok (r₁, w₁)) {k : Nat} {h₁ : Handler V}
    (hh₁ : r₁.handlers[k]? = some h₁) :
    ∃ h, r.handlers[k]? = some h ∧ h.Recalls (seenBy r₁.offsets k calls) h₁ w₁ := by
  have hstart : Response.Holds (fun k seen h₁ w₁ =>
      ∃ h, r.handlers[k]? = some h ∧ h.Recalls seen h₁ w₁) [] r w :=
    fun k h hh => ⟨h, hh, hinit h (List.mem_of_getElem? hh)⟩
  refine Response.run_seen ?_ ?_ hready.laid hready.last (hready.stands hcurrent) hturn hstart hrun
    k h₁ hh₁
  · rintro k seen h msg w h' w' ⟨h₀, hh₀, hr⟩ hmsg
    exact ⟨h₀, hh₀, hr.step hmsg⟩
  · rintro j k seen seen' h g msg w g' w' hjk ⟨h₀, hh₀, hr⟩ ⟨g₀, hg₀, hg⟩ hmsg
    refine ⟨h₀, hh₀, hr.args, hr.callback, fun rs hrs => ?_, hr.answered⟩
    rcases Handler.onMessage_results hmsg with hresults | ⟨gs, hgs⟩
    · rw [hresults]
      exact hr.counts rs hrs
    · obtain ⟨_, rfl⟩ := Handler.eq_resultsets_of_constructed hr.args hrs
      obtain ⟨_, rfl⟩ := Handler.eq_resultsets_of_constructed hg.args hgs
      exact absurd (hready.laid.resultsets_unique hh₀ hg₀) hjk

end

end Responses

end NativePg
